import DatasetPlan.CommandLine.Arguments

namespace DatasetPlan.CommandLine

structure Destination where
  path : Option String
  /-- The format for what is printed; a file's format is told by its name. -/
  format : String

structure Instantiation where
  template : String
  parameters : List String
  request : Option String
  name : Option String
  description : String
  destination : Destination

inductive Command where
  | compile (request : String) (destination : Destination)
  | validate (request : String)
  | listRegistry
  | instantiate (i : Instantiation)

namespace Command

inductive Kind where
  | compile
  | validate
  | registry
  | template
deriving DecidableEq, Repr

def Kind.ofName? : String → Option Kind
  | "compile" => some compile
  | "validate" => some validate
  | "registry" => some registry
  | "template" => some template
  | _ => none

def fileSetting : Setting :=
  { name := "file", letter := some 'f', isPath := true }

def destinationSettings : List Setting :=
  [{ name := "out", letter := some 'o', isPath := true }, { name := "format" }]

def Kind.usage : Kind → Usage
  | compile => ⟨fileSetting :: destinationSettings, false⟩
  | validate => ⟨[fileSetting], false⟩
  | registry => ⟨[], false⟩
  | template =>
      ⟨[{ name := "param", letter := some 'p', isRepeatable := true },
        { name := "request", letter := some 'r', isPath := true },
        { name := "pipeline-name" },
        { name := "description" }] ++ destinationSettings, true⟩

def defaultFile : String := "request.yaml"
def defaultFormat : String := "yaml"

def destination (g : Given) : Destination where
  path := g.value? "out"
  format := (g.value? "format").getD defaultFormat

def ofGiven (kind : Kind) (g : Given) : Command :=
  let file := (g.value? "file").getD defaultFile
  match kind with
  | .compile => .compile file (destination g)
  | .validate => .validate file
  | .registry => .listRegistry
  | .template => .instantiate
      { template := g.operand.getD ""
        parameters := g.allValues "param"
        request := g.value? "request"
        name := g.value? "pipeline-name"
        description := (g.value? "description").getD ""
        destination := destination g }

def helpName : String := "help"

def isName (text : String) : Bool :=
  text = helpName || (Kind.ofName? text).isSome

/-- Help may be asked for about one command by its name. -/
def refusalOfHelp : (topics : List String) → Refusal
  | [] => .helpWanted
  | [topic] => if isName topic then .helpWanted else .unknownCommand
  | _ => .unknownCommand

def refusalAfterDivider : List String → Refusal
  | [] => .commandMissing
  | text :: _ => if isName text then .unknownArgument else .unknownCommand

def ofArguments : List String → Except Refusal Command
  | [] => throw .commandMissing
  | first :: rest =>
      match Word.ofArgument first with
      | .divider => throw (refusalAfterDivider rest)
      | .long "help" none | .short 'h' _ => throw .helpWanted
      | .long "version" none | .short 'V' _ => throw .versionWanted
      | .long "help" (some _) | .long "version" (some _) => throw .unwantedValue
      | .long .. | .short .. => throw .unknownArgument
      | .plain =>
          if first = helpName then throw (refusalOfHelp rest)
          else
            match Kind.ofName? first with
            | some kind => ofGiven kind <$> Given.ofArguments kind.usage rest
            | none => throw .unknownCommand

end Command

end DatasetPlan.CommandLine
