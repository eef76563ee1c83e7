import DatasetPlan.Catalog
import DatasetPlan.Pipeline.Basic

/-! Plans as pipelines: every step becomes a call of one primitive. -/

namespace DatasetPlan

namespace Step

def chained (input : String) : Dictionary String :=
  .ofList [("inputs", input)]

def produced : List String := ["produce"]

/-- One primitive adds and removes semantic types; the side that is not used has no columns. -/
def typeUpdate (input : String) (addColumns : List Nat) (addTypes : List String)
    (removeColumns : List Nat) (removeTypes : List String) : PipelineStep where
  primitive := Catalog.updateSemanticTypes
  arguments := chained input
  outputs := produced
  hyperparameters := .ofList [
    ("add_columns", .ofIndices addColumns),
    ("add_types", .ofTexts addTypes),
    ("remove_columns", .ofIndices removeColumns),
    ("remove_types", .ofTexts removeTypes)]

/-- The step as the engine carries it out when `input` is what it reads. -/
def lower (input : String) : Step → PipelineStep
  | addType columns type => typeUpdate input columns [type] [] []
  | removeType columns type => typeUpdate input [] [] columns [type]
  | removeColumns resource columns =>
      { primitive := Catalog.removeColumns
        arguments := chained input
        outputs := produced
        hyperparameters := .ofList [
          ("resource_id", .text resource),
          ("columns", .ofIndices columns)] }
  | call c =>
      { primitive := c.primitive
        arguments := if c.arguments.isEmpty then chained input else c.arguments
        outputs := c.outputs
        hyperparameters := c.hyperparameters }

/-- Steps from number `index` on; the first reads `input`, each other one what the one before it
gives. -/
def lowerAll : (index : Nat) → (input : String) → List Step → List PipelineStep
  | _, _, [] => []
  | index, input, step :: steps =>
      step.lower input :: lowerAll (index + 1) (Reference.result index step.outputMethod) steps

end Step

def Plan.lower (p : Plan) : Pipeline where
  id := p.id
  name := p.name
  description := p.description
  inputs := p.inputs
  outputs := p.outputs
  steps := Step.lowerAll 0 (Reference.input 0) p.steps

end DatasetPlan
