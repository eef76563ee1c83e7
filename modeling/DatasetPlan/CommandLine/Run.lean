import DatasetPlan.CommandLine.Command
import DatasetPlan.CommandLine.Parameters
import DatasetPlan.Pipeline.Lowering
import DatasetPlan.Request.Problem
import DatasetPlan.Storage.Store

/-! Carrying out commands on a disk. What is printed is kept as text. -/

namespace DatasetPlan.CommandLine

structure Printed where
  out : String := ""
  err : String := ""

abbrev Run (m : Type → Type) := ExceptT Failure (StateT Printed m)

def lines (texts : List String) : String :=
  String.join (texts.map (· ++ "\n"))

def padded (width : Nat) (text : String) : String :=
  text ++ String.ofList (List.replicate (width - text.length) ' ')

def problemsText (problems : List Request.Problem) : String :=
  lines (problems.map fun problem => "  ERROR: " ++ problem.message)

def validText (r : Request) : String :=
  lines ["OK: " ++ r.name ++ " (" ++ toString r.vars.length ++ " variables, " ++
    toString r.features.length ++ " features, target '" ++ r.target ++ "')"]

def nothingToDoText (r : Request) : String :=
  lines ["No transformation required: " ++ r.name]

def registryText (r : Registry) : String :=
  lines (("Registry: " ++ toString r.size ++ " labels") ::
    r.entries.map fun entry => "  " ++ padded 16 entry.1 ++ " " ++ entry.2)

def stepsText (steps : List Step) : List String :=
  steps.zipIdx.map fun (step, index) => "  " ++ toString index ++ ". " ++ step.text

def savedText (p : Plan) (path : String) : String :=
  lines <|
    ["Pipeline: " ++ p.name ++ " (" ++ toString p.steps.length ++ " steps)"] ++
      stepsText p.steps ++ ["", "Wrote " ++ path ++ " (" ++ p.id ++ ")"]

def endedLine (text : String) : String :=
  if text.toList.getLast? = some '\n' then text else text ++ "\n"

variable {m : Type → Type} [Monad m]

def print (text : String) : Run m Unit :=
  modify fun printed => { printed with out := printed.out ++ text }

def printError (text : String) : Run m Unit :=
  modify fun printed => { printed with err := printed.err ++ text }

def orFail (result : Except PlanError β) : Run m β :=
  match result with
  | .ok x => pure x
  | .error e => throw (.plan e)

def stored (action : ExceptT PlanError m β) : Run m β := do
  orFail (← (action.run : m (Except PlanError β)))

def format (name : String) : Run m Pipeline.Format :=
  match Pipeline.Format.ofName? name with
  | some format => pure format
  | none => throw (.unknownFormat name)

/-- The request in a file, which has to be without problems. -/
def readRequest (disk : Disk m) (path : String) : Run m Request := do
  let text ← stored (Store.accessing path (disk.readText path))
  let r ← orFail (Request.ofText text)
  if r.problems.isEmpty then pure r
  else
    printError (problemsText r.problems)
    throw (.invalidRequest r.problems.length)

/-- Saves the plan's pipeline and prints a summary, or prints the pipeline. -/
def deliver (disk : Disk m) (p : Plan) (path : Option String) (format : Pipeline.Format) :
    Run m Unit :=
  match path with
  | some path => do
      stored (Store.save disk path p.lower)
      print (savedText p path)
  | none => print (endedLine (Pipeline.render format p.lower))

def compile (disk : Disk m) (file : String) (d : Destination) : Run m Unit := do
  let format ← format d.format
  let r ← readRequest disk file
  match ← orFail (r.compile blake3) with
  | some p => deliver disk p d.path format
  | none => print (nothingToDoText r)

def validate (disk : Disk m) (file : String) : Run m Unit := do
  print (validText (← readRequest disk file))

def instantiate (disk : Disk m) (i : Instantiation) : Run m Unit := do
  let format ← format i.destination.format
  match Template.ofName? i.template with
  | none => throw (.unknownTemplate i.template)
  | some template =>
      let given ← (parameters i.parameters : Except Failure _)
      let vars ←
        match i.request with
        | some path => Request.vars <$> readRequest disk path
        | none => pure []
      let name := i.name.getD template.name
      let p ← orFail (template.build blake3 name i.description given vars)
      deliver disk p i.destination.path format

def Command.run (disk : Disk m) : Command → Run m Unit
  | .compile file destination => CommandLine.compile disk file destination
  | .validate file => CommandLine.validate disk file
  | .listRegistry => print (registryText .standard)
  | .instantiate i => CommandLine.instantiate disk i

end DatasetPlan.CommandLine
