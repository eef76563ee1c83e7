import DatasetPlan.Request.Basic

namespace DatasetPlan.Request

inductive Problem where
  | emptyName
  | noVariables
  | repeatedIndex (index : Nat)
  | repeatedName (name : String)
  | unknownFeature (name : String)
  | deletedFeature (name : String)
deriving DecidableEq, Repr

namespace Problem

def message : Problem → String
  | emptyName => "name must not be empty"
  | noVariables => "request has no variables"
  | repeatedIndex index => "duplicate variable index " ++ toString index
  | repeatedName name => "duplicate variable name '" ++ name ++ "'"
  | unknownFeature name => "selected feature '" ++ name ++ "' is not a variable"
  | deletedFeature name => "selected feature '" ++ name ++ "' is deleted"

def ofKey [DecidableEq κ] (key : Variable → κ) (problem : κ → Problem) (earlier : List Variable)
    (v : Variable) : List Problem :=
  if earlier.any (key · = key v) then [problem (key v)] else []

/-- What a variable has in common with the ones before it. -/
def ofVariable (earlier : List Variable) (v : Variable) : List Problem :=
  ofKey (·.index) repeatedIndex earlier v ++ ofKey (·.name) repeatedName earlier v

def ofVariables : (earlier : List Variable) → List Variable → List Problem
  | _, [] => []
  | earlier, v :: rest => ofVariable earlier v ++ ofVariables (v :: earlier) rest

/-- The first variable of a name stands for the name. -/
def ofFeature (vars : List Variable) (feature : String) : Option Problem :=
  match vars.find? (·.name = feature) with
  | none => some (unknownFeature feature)
  | some v => if v.deleted then some (deletedFeature feature) else none

end Problem

/-- All problems: of the name, of the variables in their order, of the features in theirs. -/
def problems (r : Request) : List Problem :=
  (if r.name.isEmpty then [.emptyName] else []) ++
    (if r.vars.isEmpty then [.noVariables] else []) ++
    Problem.ofVariables [] r.vars ++
    r.features.filterMap (Problem.ofFeature r.vars)

end DatasetPlan.Request
