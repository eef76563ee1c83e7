import DatasetPlan.Dataset.Variable
import DatasetPlan.PlanError
import DatasetPlan.Registry

namespace DatasetPlan

structure Retyping where
  index : Nat
  old : String
  new : String
deriving DecidableEq, Repr

namespace Retyping

def resolve (registry : Registry) (v : Variable) (label : String) : Except PlanError String :=
  match registry.resolve label with
  | some type => pure type
  | none => throw (.unknownTypeMapping v.name label)

/-- Both labels have to be known, also where the type stays the same. -/
def ofVariable (registry : Registry) (v : Variable) : Except PlanError (Option Retyping) := do
  let new ← resolve registry v v.type
  let old ← resolve registry v v.originalType
  pure (if new = old then none else some ⟨v.index, old, new⟩)

def ofVariables (registry : Registry) (vars : List Variable) :
    Except PlanError (List Retyping) := do
  pure ((← vars.mapM (ofVariable registry)).filterMap id)

structure Group where
  old : String
  new : String
  indices : List Nat
deriving DecidableEq, Repr

namespace Group

def add (r : Retyping) : List Group → List Group
  | [] => [⟨r.old, r.new, [r.index]⟩]
  | g :: groups =>
      if g.old = r.old ∧ g.new = r.new then { g with indices := g.indices ++ [r.index] } :: groups
      else g :: add r groups

/-- Groups come in the order in which their first members do. -/
def ofRetypings (retypings : List Retyping) : List Group :=
  retypings.foldl (fun groups r => add r groups) []

def representative? (groups : List Group) : Option (String × String) :=
  groups.head?.map fun g => (g.old, g.new)

def areHomogeneous (groups : List Group) : Bool :=
  groups.length ≤ 1

end Group

end Retyping

end DatasetPlan
