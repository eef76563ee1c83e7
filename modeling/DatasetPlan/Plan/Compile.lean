import DatasetPlan.Plan.Basic
import DatasetPlan.Retyping
import DatasetPlan.Selection

namespace DatasetPlan

def ascending (indices : List Nat) : List Nat :=
  (indices.mergeSort (· ≤ ·)).eraseReps

namespace Step

/-- New types come before old ones go, so that no column is ever without a type. Columns go last,
so that all other steps find them at their original places. -/
def ofRetypings (groups : List Retyping.Group) (dropped : List Nat) (resource : String) :
    List Step :=
  groups.map (fun g => addType (ascending g.indices) g.new) ++
    groups.map (fun g => removeType (ascending g.indices) g.old) ++
    if dropped.isEmpty then [] else [removeColumns resource (ascending dropped)]

end Step

namespace Plan

/-- The resource whose columns are removed where none is named. -/
def defaultResource : String := "0"

def compile (hash : TextHash) (registry : Registry) (name description : String)
    (vars : List Variable) (target : String) (features : List String)
    (resource : Option String) : Except PlanError (Option Plan) := do
  let selection := Selection.ofVariables vars target features
  let retypings ← Retyping.ofVariables registry selection.kept
  let steps := Step.ofRetypings (Retyping.Group.ofRetypings retypings) selection.dropped
    (resource.getD defaultResource)
  pure (assemble hash name description standardInputs steps)

end Plan

end DatasetPlan
