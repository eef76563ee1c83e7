import DatasetPlan.Plan.Digest

/-! Plans: steps with an identity, declared inputs and a published output. -/

namespace DatasetPlan

structure PlanOutput where
  name : String
  data : String
deriving DecidableEq

namespace PlanOutput

def record : Record PlanOutput where
  title := "struct PipelineOutput"
  blank := ⟨"", ""⟩
  fields := [
    .required "name" .text (·.name) fun o x => { o with name := x },
    .required "data" .text (·.data) fun o x => { o with data := x }]

end PlanOutput

/-- A declared input is a record of its name alone. -/
def inputRecord : Record String where
  title := "struct PipelineInput"
  blank := ""
  fields := [.required "name" .text id fun _ x => x]

/-! References to data that other steps or the inputs provide. -/

namespace Reference

def input (index : Nat) : String :=
  "inputs." ++ toString index

def result (step : Nat) (method : String) : String :=
  "steps." ++ toString step ++ "." ++ method

end Reference

structure Plan where
  id : String
  name : String
  description : String
  inputs : List String
  outputs : List PlanOutput
  steps : List Step

namespace Plan

def record : Record Plan where
  title := "struct Plan"
  blank := ⟨"", "", "", [], [], []⟩
  fields := [
    .required "id" .text (·.id) fun p x => { p with id := x },
    .required "name" .text (·.name) fun p x => { p with name := x },
    .required "description" .text (·.description) fun p x => { p with description := x },
    .required "inputs" (.list inputRecord.codec) (·.inputs) fun p x => { p with inputs := x },
    .required "outputs" (.list PlanOutput.record.codec) (·.outputs) fun p x =>
      { p with outputs := x },
    .required "steps" (.list Step.codec) (·.steps) fun p x => { p with steps := x }]

def codec : Codec Plan :=
  record.codec

def standardInputs : List String := ["inputs"]

/-- Without steps there is no plan: nothing needs to be done. -/
def assemble (hash : TextHash) (name description : String) (inputs : List String)
    (steps : List Step) : Option Plan :=
  steps.getLast?.map fun last =>
    { id := Digest.ofPlan hash name steps
      name := name
      description := description
      inputs := inputs
      outputs := [⟨"outputs", Reference.result (steps.length - 1) last.outputMethod⟩]
      steps := steps }

end Plan

end DatasetPlan
