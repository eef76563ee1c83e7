import DatasetPlan.CommandLine.Run

/-! The program: one command on the disk of the machine. -/

namespace DatasetPlan.CommandLine

def fileError (e : IO.Error) : FileError :=
  match e with
  | .noFileOrDirectory .. => .notFound
  | .resourceBusy 16 _ | .resourceExhausted _ 16 _ => .busy
  | .alreadyExists .. => .alreadyExists
  | .inappropriateType _ 20 _ => .notDirectory
  | .inappropriateType _ 21 _ => .isDirectory
  | .invalidArgument _ 36 _ => .nameTooLong
  | _ => .other (toString e)

def attempt (action : IO β) : IO (Except FileError β) :=
  try .ok <$> action catch e => pure (.error (fileError e))

def systemDisk : Disk IO where
  isPresent path := do
    return (← attempt (IO.FS.realPath path)).isOk
  readText path := do
    match ← attempt (IO.FS.withFile path .read fun file => file.readBinToEnd) with
    | .error e => return .error e
    | .ok content =>
        match String.fromUTF8? content with
        | some text => return .ok text
        | none => return .error .notText
  createDirectories path := attempt (IO.FS.createDirAll path)
  write path text := attempt (IO.FS.writeFile path text)
  rename source target := attempt (IO.FS.rename source target)

def helpText : String :=
  lines [
    "Compiles the least steps that prepare a dataset into a pipeline.",
    "",
    "Commands:",
    "  compile    -f, --file FILE  -o, --out FILE  --format FORMAT",
    "  validate   -f, --file FILE",
    "  registry",
    "  template   NAME  -p, --param KEY=VALUE  -r, --request FILE  --pipeline-name NAME",
    "             --description TEXT  -o, --out FILE  --format FORMAT"]

def versionText : String :=
  lines ["0.1.0"]

def Refusal.text : Refusal → String
  | .helpWanted | .commandMissing => helpText
  | .versionWanted => versionText
  | .unknownCommand => lines ["error: unknown command"]
  | .unknownArgument => lines ["error: unexpected argument"]
  | .operandMissing => lines ["error: a required argument is missing"]
  | .invalidValue => lines ["error: an option has no valid value"]
  | .repeatedSetting => lines ["error: an option is given twice"]
  | .unwantedValue => lines ["error: an option takes no value"]

/-- To ask for help or for the version is no mistake. -/
def Refusal.isMistake : Refusal → Bool
  | .helpWanted | .versionWanted => false
  | _ => true

def refuse (refusal : Refusal) : IO UInt32 := do
  if refusal.isMistake then
    (← IO.getStderr).putStr refusal.text
    return 2
  else
    (← IO.getStdout).putStr refusal.text
    return 0

def carryOut (c : Command) : IO UInt32 := do
  let (result, printed) ← ((c.run systemDisk).run).run {}
  (← IO.getStdout).putStr printed.out
  (← IO.getStderr).putStr printed.err
  match result with
  | .ok () => return 0
  | .error failure =>
      (← IO.getStderr).putStr (lines ["error: " ++ failure.message])
      return 1

end DatasetPlan.CommandLine

def main (arguments : List String) : IO UInt32 :=
  match DatasetPlan.CommandLine.Command.ofArguments arguments with
  | .ok c => DatasetPlan.CommandLine.carryOut c
  | .error refusal => DatasetPlan.CommandLine.refuse refusal
