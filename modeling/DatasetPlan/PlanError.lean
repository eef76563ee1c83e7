/-! Why no plan could be made, or no pipeline stored. That nothing needs to be done is no error. -/

namespace DatasetPlan

inductive PlanError where
  /-- A kept variable carries a label that the registry does not know. -/
  | unknownTypeMapping (name label : String)
  | unknownVariable (name : String)
  | invalidParameter (name reason : String)
  | inaccessible (path reason : String)
  | unreadable (reason : String)
deriving DecidableEq

namespace PlanError

def message : PlanError → String
  | unknownTypeMapping name label =>
      "no type mapping for '" ++ label ++ "' (variable '" ++ name ++ "')"
  | unknownVariable name => "unknown variable '" ++ name ++ "'"
  | invalidParameter name reason => "invalid parameter '" ++ name ++ "': " ++ reason
  | inaccessible path reason => "cannot access " ++ path ++ ": " ++ reason
  | unreadable reason => "parse error: " ++ reason

end PlanError

end DatasetPlan
