import DatasetPlan.Document.Codec
import DatasetPlan.Text.Bytes

namespace DatasetPlan

structure SuggestedType where
  type : String
  probability : Float
  provenance : String

namespace SuggestedType

def record : Record SuggestedType where
  title := "struct SuggestedType"
  blank := ⟨"", 0, ""⟩
  fields := [
    .required "type" .text (·.type) fun s x => { s with type := x },
    .required "probability" .float (·.probability) fun s x => { s with probability := x },
    .required "provenance" .text (·.provenance) fun s x => { s with provenance := x }]

def codec : Codec SuggestedType :=
  record.codec

end SuggestedType

structure Variable where
  name : String := ""
  /-- The label that the user works with. -/
  type : String := ""
  /-- The label that the variable was given when the dataset was taken in. -/
  originalType : String := ""
  selectedRole : String := ""
  roles : List String := []
  distilRole : String := ""
  originalVariable : String := ""
  originalName : String := ""
  displayName : String := ""
  importance : Int64 := 0
  index : Nat := 0
  suggestedTypes : List SuggestedType := []
  refersTo : Option (Dictionary Data) := none
  deleted : Bool := false
deriving Inhabited

namespace Variable

def record : Record Variable where
  title := "struct Variable"
  blank := {}
  fields := [
    .required "colName" .text (·.name) fun v x => { v with name := x },
    .sparse "colType" .text String.isEmpty (·.type) fun v x => { v with type := x },
    .sparse "colOriginalType" .text String.isEmpty (·.originalType) fun v x =>
      { v with originalType := x },
    .sparse "selectedRole" .text String.isEmpty (·.selectedRole) fun v x =>
      { v with selectedRole := x },
    .sparse "role" (.list .text) List.isEmpty (·.roles) fun v x => { v with roles := x },
    .sparse "distilRole" .text String.isEmpty (·.distilRole) fun v x =>
      { v with distilRole := x },
    .optional "varOriginalName" .text (·.originalVariable) fun v x =>
      { v with originalVariable := x },
    .sparse "colOriginalName" .text String.isEmpty (·.originalName) fun v x =>
      { v with originalName := x },
    .sparse "colDisplayName" .text String.isEmpty (·.displayName) fun v x =>
      { v with displayName := x },
    .sparse "importance" .int (· == 0) (·.importance) fun v x => { v with importance := x },
    .required "colIndex" .nat (·.index) fun v x => { v with index := x },
    .sparse "suggestedTypes" (.list SuggestedType.codec) List.isEmpty (·.suggestedTypes)
      fun v x => { v with suggestedTypes := x },
    .sparse "refersTo" (.option (.dict .data)) Option.isNone (·.refersTo) fun v x =>
      { v with refersTo := x },
    .optional "deleted" .bool (·.deleted) fun v x => { v with deleted := x }]

def codec : Codec Variable :=
  record.codec

/-- Whether the variable points at a media resource, which it then names by text. -/
def isMediaReference (v : Variable) : Bool :=
  (v.refersTo.bind (·.find? "resObject")).any (·.value.isText)

def nameLimit : Nat := 50

def normalizedChar (c : Char) : Char :=
  if c.isAlphanum then c else '_'

def underscored (name : String) : String :=
  String.ofList (name.toList.map normalizedChar)

theorem utf8Size_normalizedChar (c : Char) : (normalizedChar c).utf8Size = 1 := by
  unfold normalizedChar
  split
  · next halphanum => exact Text.utf8Size_of_isAlphanum halphanum
  · rfl

theorem truncate?_underscored (name : String) (limit : Nat) :
    Text.truncate? limit (underscored name) =
      some (String.ofList ((name.toList.map normalizedChar).take limit)) := by
  apply Text.truncate?_ofList
  intro c hc
  obtain ⟨original, -, rfl⟩ := List.mem_map.mp hc
  exact utf8Size_normalizedChar original

/-- The limit is one of bytes. No character is cut by it, as each is one byte by then. -/
def normalizeName (name : String) : String :=
  (Text.truncate? nameLimit (underscored name)).get (by rw [truncate?_underscored]; rfl)

structure Proposal where
  index : Nat := 0
  name : String := ""
  displayName : String := ""
  originalName : String := ""
  type : String := ""
  originalType : String := ""
  roles : List String := []
  distilRole : String := ""
  refersTo : Option (Dictionary Data) := none

def orElse (text fallback : String) : String :=
  if text.isEmpty then fallback else text

def countNamed (existing : List Variable) (name : String) : Nat :=
  existing.countP (·.name = name)

/-- The normalized name, followed by the number of variables that have it already. -/
def distinctName (name : String) (existing : List Variable) : String :=
  let normalized := normalizeName name
  let count := countNamed existing normalized
  if count = 0 then normalized else normalized ++ "_" ++ toString count

def create (proposal : Proposal) (existing : List Variable) (normalize : Bool) : Variable :=
  let name := if normalize then distinctName proposal.name existing else proposal.name
  { name := name
    type := proposal.type
    originalType := proposal.originalType
    selectedRole := proposal.roles.headD ""
    roles := proposal.roles
    distilRole := orElse proposal.distilRole "data"
    originalVariable := orElse proposal.originalName name
    originalName := name
    displayName := orElse proposal.displayName proposal.name
    index := proposal.index
    refersTo := proposal.refersTo }

end Variable

end DatasetPlan
