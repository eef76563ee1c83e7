import DatasetPlan.Dataset.Metadata
import DatasetPlan.Plan.Compile
import DatasetPlan.Yaml.Reader

namespace DatasetPlan

structure Request where
  name : String := ""
  description : String := ""
  target : String := ""
  features : List String := []
  /-- The resource whose columns are removed, where it is not the dataset's own. -/
  resource : Option String := none
  inlineVariables : List Variable := []
  /-- Used for its variables only where none are given inline. -/
  dataset : Option Metadata := none
deriving Inhabited

namespace Request

def record : Record Request where
  title := "struct CompileRequest"
  blank := {}
  fields := [
    .required "name" .text (·.name) fun r x => { r with name := x },
    .optional "description" .text (·.description) fun r x => { r with description := x },
    .required "target" .text (·.target) fun r x => { r with target := x },
    .optional "features" (.list .text) (·.features) fun r x => { r with features := x },
    .optional "resource_id" (.option .text) (·.resource) fun r x => { r with resource := x },
    .optional "variables" (.list Variable.codec) (·.inlineVariables) fun r x =>
      { r with inlineVariables := x },
    .optional "dataset" (.option Metadata.codec) (·.dataset) fun r x => { r with dataset := x }]

def codec : Codec Request :=
  record.codec

/-- Requests are YAML, and so may be JSON. -/
def ofText (text : String) : Except PlanError Request :=
  (codec.readDocument Yaml.dialect (Yaml.document text)).mapError fun fault =>
    .unreadable (fault.message Yaml.wording)

/-- The resource of the dataset with a row index, else its first one. -/
def primaryResource? (r : Request) : Option Resource := do
  let metadata ← r.dataset
  metadata.mainResource? <|> metadata.resources.head?

def vars (r : Request) : List Variable :=
  if r.inlineVariables.isEmpty then
    match r.primaryResource? with
    | some resource => resource.vars
    | none => []
  else r.inlineVariables

def resourceId (r : Request) : String :=
  match r.resource with
  | some id => id
  | none =>
      match r.primaryResource? with
      | some resource => resource.id
      | none => Plan.defaultResource

def compile (hash : TextHash) (r : Request) : Except PlanError (Option Plan) :=
  Plan.compile hash .standard r.name r.description r.vars r.target r.features
    (some r.resourceId)

end Request

end DatasetPlan
