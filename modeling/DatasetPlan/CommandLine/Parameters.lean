import DatasetPlan.CommandLine.Arguments
import DatasetPlan.CommandLine.Failure

namespace DatasetPlan.CommandLine

/-- Blanks around the key do not count, those around the value do. -/
def parameter (text : String) : Except Failure (String × String) :=
  match Word.splitAtEquals text.toList with
  | (_, none) => throw (.parameterWithoutValue text)
  | (key, some value) =>
      let key := Text.trimmedChars key
      if key.isEmpty then throw (.parameterWithoutKey text)
      else pure (String.ofList key, String.ofList value)

/-- Of a repeated key the last value counts. -/
def parameters (texts : List String) : Except Failure (Dictionary String) := do
  return .ofList (← texts.mapM parameter)

end DatasetPlan.CommandLine
