import DatasetPlan.Plan.Basic

namespace DatasetPlan

structure PipelineStep where
  primitive : Primitive
  arguments : Dictionary String
  outputs : List String
  hyperparameters : Dictionary HyperValue

namespace PipelineStep

def record : Record PipelineStep where
  title := "struct PipelineStep"
  blank := ⟨Primitive.record.blank, ∅, [], ∅⟩
  fields := [
    .required "primitive" Primitive.codec (·.primitive) fun s x => { s with primitive := x },
    .required "arguments" (.dict .text) (·.arguments) fun s x => { s with arguments := x },
    .required "outputs" (.list .text) (·.outputs) fun s x => { s with outputs := x },
    .required "hyperparams" (.dict HyperValue.codec) (·.hyperparameters) fun s x =>
      { s with hyperparameters := x }]

def codec : Codec PipelineStep :=
  record.codec

end PipelineStep

structure Pipeline where
  id : String
  name : String
  description : String
  inputs : List String
  outputs : List PlanOutput
  steps : List PipelineStep

namespace Pipeline

def record : Record Pipeline where
  title := "struct PipelineDescription"
  blank := ⟨"", "", "", [], [], []⟩
  fields := [
    .required "id" .text (·.id) fun p x => { p with id := x },
    .required "name" .text (·.name) fun p x => { p with name := x },
    .required "description" .text (·.description) fun p x => { p with description := x },
    .required "inputs" (.list inputRecord.codec) (·.inputs) fun p x => { p with inputs := x },
    .required "outputs" (.list PlanOutput.record.codec) (·.outputs) fun p x =>
      { p with outputs := x },
    .required "steps" (.list PipelineStep.codec) (·.steps) fun p x => { p with steps := x }]

def codec : Codec Pipeline :=
  record.codec

end Pipeline

end DatasetPlan
