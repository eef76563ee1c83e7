/-! Arguments of a command: settings with their values, and at most one operand. A setting is taken
in when the next argument is understood, so that an argument that is not understood comes first
among the faults. -/

namespace DatasetPlan.CommandLine

inductive Refusal where
  | helpWanted
  | versionWanted
  | commandMissing
  | unknownCommand
  | unknownArgument
  | operandMissing
  | invalidValue
  | repeatedSetting
  | unwantedValue
deriving DecidableEq, Repr

inductive Word where
  /-- Two hyphens alone: what follows is all plain. -/
  | divider
  | long (name : String) (value : Option String)
  | short (letter : Char) (rest : List Char)
  | plain
deriving DecidableEq, Repr

namespace Word

def splitAtEquals (cs : List Char) : List Char × Option (List Char) :=
  match cs.dropWhile (· ≠ '=') with
  | [] => (cs, none)
  | _ :: value => (cs.takeWhile (· ≠ '='), some value)

/-- A hyphen alone is plain. -/
def ofArgument (argument : String) : Word :=
  match argument.toList with
  | ['-', '-'] => divider
  | '-' :: '-' :: rest =>
      let (name, value) := splitAtEquals rest
      long (String.ofList name) (value.map String.ofList)
  | '-' :: letter :: rest => short letter rest
  | _ => plain

def attached : List Char → Option String
  | [] => none
  | '=' :: value => some (String.ofList value)
  | value => some (String.ofList value)

end Word

structure Setting where
  name : String
  letter : Option Char := none
  /-- Paths may not be empty. -/
  isPath : Bool := false
  isRepeatable : Bool := false

structure Usage where
  settings : List Setting
  /-- Whether there has to be an operand; otherwise there may be none. -/
  hasOperand : Bool := false

structure Given where
  values : List (String × String) := []
  operand : Option String := none
  /-- The last setting, with its value if it has one already. -/
  pending : Option (Setting × Option String) := none
  afterDivider : Bool := false

namespace Given

def add (g : Given) (setting : Setting) (value : String) : Except Refusal Given :=
  if !setting.isRepeatable && g.values.any (·.1 = setting.name) then throw .repeatedSetting
  else if setting.isPath && value.isEmpty then throw .invalidValue
  else pure { g with values := g.values ++ [(setting.name, value)] }

def settle (g : Given) : Except Refusal Given :=
  match g.pending with
  | none => pure g
  | some (_, none) => throw .invalidValue
  | some (setting, some value) => { g with pending := none }.add setting value

def takeSetting (g : Given) (setting : Setting) (value : Option String) :
    Except Refusal Given := do
  let g ← g.settle
  match value with
  | some value => g.add setting value
  | none => pure { g with pending := some (setting, none) }

def takeOperand (u : Usage) (g : Given) (text : String) : Except Refusal Given :=
  if u.hasOperand && g.operand.isNone then do
    return { ← g.settle with operand := some text }
  else throw .unknownArgument

def refuseWithHelp (g : Given) : Except Refusal Given := do
  let _ ← g.settle
  throw .helpWanted

def take (u : Usage) (g : Given) (argument : String) : Except Refusal Given :=
  if g.afterDivider then g.takeOperand u argument
  else
    match Word.ofArgument argument with
    | .divider => pure { g with afterDivider := true }
    | .long "help" none => g.refuseWithHelp
    | .long "help" (some _) => throw .unwantedValue
    | .long name value =>
        match u.settings.find? (·.name = name) with
        | some setting => g.takeSetting setting value
        | none => throw .unknownArgument
    | .short 'h' _ => g.refuseWithHelp
    | .short letter rest =>
        match u.settings.find? (·.letter = some letter) with
        | some setting => g.takeSetting setting (Word.attached rest)
        | none => throw .unknownArgument
    | .plain =>
        match g.pending with
        | some (setting, none) => pure { g with pending := some (setting, some argument) }
        | _ => g.takeOperand u argument

def ofArguments (u : Usage) (arguments : List String) : Except Refusal Given := do
  let g ← (← arguments.foldlM (take u) {}).settle
  if u.hasOperand && g.operand.isNone then throw .operandMissing
  pure g

def value? (g : Given) (name : String) : Option String :=
  g.values.lookup name

def allValues (g : Given) (name : String) : List String :=
  (g.values.filter (·.1 = name)).map (·.2)

end Given

end DatasetPlan.CommandLine
