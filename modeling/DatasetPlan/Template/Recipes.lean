import DatasetPlan.Catalog
import DatasetPlan.Dataset.Variable
import DatasetPlan.Plan.Basic
import DatasetPlan.PlanError
import DatasetPlan.Registry

/-! The fixed step lists around one analysis each. `Recipe` is a plan without its identity. -/

namespace DatasetPlan

structure Recipe where
  inputs : List String
  steps : List Step

namespace Recipe

def plan (hash : TextHash) (name description : String) (r : Recipe) : Except PlanError Plan :=
  match Plan.assemble hash name description r.inputs r.steps with
  | some plan => pure plan
  | none => throw (.invalidParameter "steps" "template produced no steps")

def ofSteps (steps : List Step) : Recipe :=
  ⟨Plan.standardInputs, steps⟩

/-- The columns of all resources in one table. -/
def tableSteps : List Step :=
  [.call Catalog.denormalize.call, .call Catalog.datasetToDataframe.call]

def onTable (c : PrimitiveCall) : Recipe :=
  ofSteps (tableSteps ++ [.call c])

def findIndex (vars : List Variable) (name : String) : Except PlanError Nat :=
  match vars.find? (·.name = name) with
  | some v => pure v.index
  | none => throw (.unknownVariable name)

def requireColumns (name : String) (columns : List String) : Except PlanError Unit :=
  if columns.isEmpty then throw (.invalidParameter name "must name at least one column")
  else pure ()

def pcaFeatures : Recipe :=
  onTable (Catalog.pcaFeatures.call.withOutputs ["produce_metafeatures"])

def simon : Recipe :=
  onTable (Catalog.simon.call.withOutputs ["produce_metafeatures"])

def detector (primitive : Primitive) (targetColumns outputLabels : List String) :
    Except PlanError Recipe := do
  requireColumns "target_columns" targetColumns
  requireColumns "output_labels" outputLabels
  pure <| onTable <| primitive.call
    |>.withHyperparameter "target_columns" (.ofTexts targetColumns)
    |>.withHyperparameter "output_labels" (.ofTexts outputLabels)

def croc : (targetColumns outputLabels : List String) → Except PlanError Recipe :=
  detector Catalog.croc

def unicorn : (targetColumns outputLabels : List String) → Except PlanError Recipe :=
  detector Catalog.unicorn

def dataCleaning : Recipe :=
  onTable Catalog.dataCleaning.call

def clusterCount : Int64 := 4

/-- Clusters of time series, given by a column of times and one of values. -/
def sloth (timeColumn valueColumn : String) (vars : List Variable) :
    Except PlanError Recipe := do
  let timeIndex ← findIndex vars timeColumn
  let valueIndex ← findIndex vars valueColumn
  pure <| ofSteps [
    .call Catalog.denormalize.call,
    .call (Catalog.timeSeriesLoader.call
      |>.withHyperparameter "time_col_index" (.ofIndex timeIndex)
      |>.withHyperparameter "value_col_index" (.ofIndex valueIndex)),
    .call (Catalog.sloth.call.withHyperparameter "nclusters" (.int clusterCount))]

def duke : Recipe :=
  onTable Catalog.duke.call

/-- Ranks features against a target, whose column is marked first. -/
def targetRanking (target : String) (vars : List Variable) : Except PlanError Recipe := do
  let index ← findIndex vars target
  pure <| ofSteps <|
    .addType [index] SemanticType.trueTarget ::
      tableSteps ++ [
        .call Catalog.columnParser.call,
        .call (Catalog.targetRanking.call.withHyperparameter "target_col_index" (.ofIndex index))]

def goatForward (placeColumn : String) : Recipe :=
  onTable <| Catalog.goatForward.call
    |>.withHyperparameter "target_columns" (.ofTexts [placeColumn])
    |>.withHyperparameter "rampup" (.int 1)

def goatReverse (latitudeColumn longitudeColumn : String) : Recipe :=
  onTable <| Catalog.goatReverse.call
    |>.withHyperparameter "lat_col" (.text latitudeColumn)
    |>.withHyperparameter "lon_col" (.text longitudeColumn)

/-- How numbers stand in messages: without an exponent, and whole ones without a point. -/
def numberLayout : FloatLayout where
  positional := none
  pointZero := false
  plus := false
  infinity := "inf"
  nan := "NaN"

/-- Joins two datasets on columns that agree up to `accuracy`. -/
def join (leftColumn rightColumn : String) (accuracy : Float) : Except PlanError Recipe := do
  if !(0 < accuracy && accuracy ≤ 1) then
    throw (.invalidParameter "accuracy" ("must be in (0, 1], got " ++ numberLayout.text accuracy))
  pure {
    inputs := ["left", "right"]
    steps := [
      .call (Catalog.denormalize.call.withArgument "inputs" (Reference.input 0)),
      .call (Catalog.denormalize.call.withArgument "inputs" (Reference.input 1)),
      .call (Catalog.join.call
        |>.withArgument "left" (Reference.result 0 "produce")
        |>.withArgument "right" (Reference.result 1 "produce")
        |>.withHyperparameter "left_col" (.text leftColumn)
        |>.withHyperparameter "right_col" (.text rightColumn)
        |>.withHyperparameter "accuracy" (.float accuracy))] }

def timeSeriesFormatter (mainResource : String) (fileIndex : Nat) : Recipe :=
  ofSteps [
    .call (Catalog.timeSeriesFormatter.call
      |>.withHyperparameter "main_resource_id" (.text mainResource)
      |>.withHyperparameter "file_col_index" (.ofIndex fileIndex)),
    .call Catalog.datasetToDataframe.call]

end Recipe

end DatasetPlan
