import DatasetPlan.Dataset.Variable

namespace DatasetPlan

structure Selection where
  /-- In ascending order of index. -/
  kept : List Variable
  /-- The indices of the other variables, ascending. -/
  dropped : List Nat

namespace Selection

def keeps (target : String) (features : List String) (v : Variable) : Bool :=
  v.name = target || v.name ∈ features

/-- Variables with the same index stay in the order in which they were given. -/
def byIndex (vars : List Variable) : List Variable :=
  vars.mergeSort fun v w => v.index ≤ w.index

/-- Labels play no part, so a dropped variable may carry any. -/
def ofVariables (vars : List Variable) (target : String) (features : List String) :
    Selection :=
  let ordered := byIndex vars
  { kept := ordered.filter (keeps target features)
    dropped := ((ordered.filter (!keeps target features ·)).map (·.index)).eraseReps }

end Selection

end DatasetPlan
