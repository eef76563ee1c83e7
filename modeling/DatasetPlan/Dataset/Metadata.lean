import DatasetPlan.Dataset.Variable

namespace DatasetPlan

structure Resource where
  id : String := ""
  type : String := ""
  path : String := ""
  isCollection : Bool := false
  vars : List Variable := []
  formats : List String := []
deriving Inhabited

namespace Resource

def record : Record Resource where
  title := "struct DataResource"
  blank := {}
  fields := [
    .required "resID" .text (·.id) fun r x => { r with id := x },
    .optional "resType" .text (·.type) fun r x => { r with type := x },
    .optional "resPath" .text (·.path) fun r x => { r with path := x },
    .optional "isCollection" .bool (·.isCollection) fun r x => { r with isCollection := x },
    .sparse "columns" (.list Variable.codec) List.isEmpty (·.vars) fun r x =>
      { r with vars := x },
    .optional "resFormat" (.list .text) (·.formats) fun r x => { r with formats := x }]

def codec : Codec Resource :=
  record.codec

def create (id type : String) (formats : List String) : Resource :=
  { id := id, type := type, formats := formats }

/-- Only images can be turned into features. -/
def canBeFeaturized (r : Resource) : Bool :=
  r.type = "image"

/-- Appends a variable at the next index, whose type is its original type. -/
def addVariable (r : Resource) (name originalName type : String) (roles : List String)
    (distilRole : String) : Resource :=
  let proposal : Variable.Proposal :=
    { index := r.vars.length
      name := name
      originalName := originalName
      type := type
      originalType := type
      roles := roles
      distilRole := distilRole }
  { r with vars := r.vars ++ [Variable.create proposal r.vars false] }

def header (r : Resource) : List String :=
  r.vars.map (·.name)

end Resource

structure Metadata where
  id : String := ""
  name : String := ""
  description : String := ""
  summary : String := ""
  machineSummary : String := ""
  raw : Bool := false
  resources : List Resource := []
  rowCount : Int64 := 0
  byteCount : Int64 := 0
  schemaSource : String := ""
  redacted : Bool := false
  folder : String := ""
deriving Inhabited

namespace Metadata

def record : Record Metadata where
  title := "struct Metadata"
  blank := {}
  fields := [
    .required "ID" .text (·.id) fun m x => { m with id := x },
    .required "Name" .text (·.name) fun m x => { m with name := x },
    .optional "Description" .text (·.description) fun m x => { m with description := x },
    .optional "Summary" .text (·.summary) fun m x => { m with summary := x },
    .optional "SummaryMachine" .text (·.machineSummary) fun m x => { m with machineSummary := x },
    .optional "Raw" .bool (·.raw) fun m x => { m with raw := x },
    .optional "DataResources" (.list Resource.codec) (·.resources) fun m x =>
      { m with resources := x },
    .optional "NumRows" .int (·.rowCount) fun m x => { m with rowCount := x },
    .optional "NumBytes" .int (·.byteCount) fun m x => { m with byteCount := x },
    .optional "SchemaSource" .text (·.schemaSource) fun m x => { m with schemaSource := x },
    .optional "Redacted" .bool (·.redacted) fun m x => { m with redacted := x },
    .optional "DatasetFolder" .text (·.folder) fun m x => { m with folder := x }]

def codec : Codec Metadata :=
  record.codec

def create (id name description : String) : Metadata :=
  { id := id, name := name, description := description }

/-- The name of the variable that numbers the rows. -/
def rowIndexName : String := "d3mIndex"

def mainResource? (m : Metadata) : Option Resource :=
  m.resources.find? fun r => r.vars.any (·.name = rowIndexName)

def headers (m : Metadata) : List (List String) :=
  m.resources.map Resource.header

end Metadata

end DatasetPlan
