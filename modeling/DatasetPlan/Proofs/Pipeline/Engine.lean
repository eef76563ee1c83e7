import DatasetPlan.Proofs.Pipeline.Lowering
import DatasetPlan.Proofs.Table.Basic

namespace DatasetPlan

namespace HyperValue

variable {columns : List Nat}

private theorem mapM_map_eq_some {f : α → β} {read : β → Option γ} {g : α → γ} {l : List α}
    (h : ∀ x ∈ l, read (f x) = some (g x)) : (l.map f).mapM read = some (l.map g) := by
  induction l with
  | nil => rfl
  | cons x l ih =>
      obtain ⟨hx, hl⟩ := List.forall_mem_cons.mp h
      rw [List.map_cons, List.mapM_cons, hx, ih hl]
      rfl

def clamped (index : Nat) : Int64 :=
  Int64.ofNat (min index indexLimit)

theorem toInt_clamped (index : Nat) : (clamped index).toInt = (min index indexLimit : Nat) := by
  have hlt : min index indexLimit < 2 ^ 63 := Nat.lt_succ_of_le (Nat.min_le_right index indexLimit)
  exact Int64.toInt_ofNat_of_lt hlt

theorem asInts?_ofIndices (columns : List Nat) :
    (ofIndices columns).asInts? = some (columns.map clamped) :=
  mapM_map_eq_some fun _ _ => rfl

def asColumns? (value : HyperValue) : Option (List Nat) := do
  let ints ← value.asInts?
  ints.mapM (·.toInt.toNat?)

theorem asColumns?_ofIndices (h : ∀ i ∈ columns, i ≤ indexLimit) :
    (ofIndices columns).asColumns? = some columns := by
  have hplaces : (columns.map clamped).mapM (·.toInt.toNat?) = some (columns.map id) := by
    apply mapM_map_eq_some
    intro i hi
    rw [toInt_clamped, Nat.min_eq_left (h i hi)]
    rfl
  rw [asColumns?, asInts?_ofIndices, Option.bind_eq_bind, Option.bind_some, hplaces, List.map_id]

theorem asTexts?_ofTexts (texts : List String) :
    (ofTexts texts).asTexts? = some (if texts.isEmpty then [""] else texts) := by
  cases texts with
  | nil => rfl
  | cons first rest =>
      have htexts : ((first :: rest).map text).mapM asText? = some ((first :: rest).map id) :=
        mapM_map_eq_some fun _ _ => rfl
      rw [List.map_id] at htexts
      exact htexts

theorem read_ofList {entries : List (String × HyperValue)} {key : String} {value : HyperValue}
    {read : HyperValue → Option β} {x : β} (hnodup : (entries.map Prod.fst).Nodup)
    (hmem : (key, value) ∈ entries) (hvalue : read value = some x) :
    ((Dictionary.ofList entries).find? key).bind read = some x := by
  rw [Dictionary.find?_ofList hnodup hmem, Option.bind_some, hvalue]

end HyperValue

/-- The types that a list names. The empty text, which fills up empty lists, names none. -/
def namedTypes (texts : List String) : Finset String :=
  (texts.filter (· ≠ "")).toFinset

theorem namedTypes_singleton {type : String} (h : type ≠ "") : namedTypes [type] = {type} := by
  simp [namedTypes, h]

theorem namedTypes_filled (texts : List String) :
    namedTypes (if texts.isEmpty then [""] else texts) = namedTypes texts := by
  cases texts <;> rfl

/-- Some types come in at some places and some go at others. -/
def Table.update (addColumns : List Nat) (addTypes : List String) (removeColumns : List Nat)
    (removeTypes : List String) (t : Table) : Table :=
  t.retype fun i types =>
    (types ∪ if i ∈ addColumns then namedTypes addTypes else ∅) \
      if i ∈ removeColumns then namedTypes removeTypes else ∅

/-- What an execution engine makes of a table. Only its two primitives for columns are known. -/
structure Engine where
  perform : Primitive → Dictionary HyperValue → Table → Option Table
  updates : ∀ {primitive : Primitive} {parameters : Dictionary HyperValue}
      {addColumns removeColumns : List Nat} {addTypes removeTypes : List String} (t : Table),
    primitive.id = Catalog.updateSemanticTypes.id →
    (parameters.find? "add_columns").bind HyperValue.asColumns? = some addColumns →
    (parameters.find? "add_types").bind HyperValue.asTexts? = some addTypes →
    (parameters.find? "remove_columns").bind HyperValue.asColumns? = some removeColumns →
    (parameters.find? "remove_types").bind HyperValue.asTexts? = some removeTypes →
    perform primitive parameters t =
      some (t.update addColumns addTypes removeColumns removeTypes)
  removes : ∀ {primitive : Primitive} {parameters : Dictionary HyperValue}
      {columns : List Nat} (t : Table),
    primitive.id = Catalog.removeColumns.id →
    (parameters.find? "columns").bind HyperValue.asColumns? = some columns →
    perform primitive parameters t = some (t.without columns)

def Engine.reference : Engine where
  perform primitive parameters t :=
    if primitive.id = Catalog.updateSemanticTypes.id then do
      let addColumns ← (parameters.find? "add_columns").bind HyperValue.asColumns?
      let addTypes ← (parameters.find? "add_types").bind HyperValue.asTexts?
      let removeColumns ← (parameters.find? "remove_columns").bind HyperValue.asColumns?
      let removeTypes ← (parameters.find? "remove_types").bind HyperValue.asTexts?
      some (t.update addColumns addTypes removeColumns removeTypes)
    else if primitive.id = Catalog.removeColumns.id then do
      let columns ← (parameters.find? "columns").bind HyperValue.asColumns?
      some (t.without columns)
    else none
  updates := by
    intro primitive parameters addColumns removeColumns addTypes removeTypes t hid
      haddColumns haddTypes hremoveColumns hremoveTypes
    rw [if_pos hid, haddColumns, haddTypes, hremoveColumns, hremoveTypes]
    rfl
  removes := by
    intro primitive parameters columns t hid hcolumns
    have hother : Catalog.removeColumns.id ≠ Catalog.updateSemanticTypes.id := by decide
    rw [if_neg (hid ▸ hother), if_pos hid, hcolumns]
    rfl

namespace Pipeline

/-- The data that a reference stands for when the first `count` steps have been carried out.
Each step reads what its argument `inputs` names. -/
def data? (engine : Engine) (steps : List PipelineStep) (t : Table) :
    (count : Nat) → (reference : String) → Option Table
  | 0, reference => if reference = Reference.input 0 then some t else none
  | n + 1, reference =>
      if reference = Reference.result n "produce" then do
        let step ← steps[n]?
        let input ← step.arguments.find? "inputs"
        let table ← data? engine steps t n input
        engine.perform step.primitive step.hyperparameters table
      else data? engine steps t n reference

def output? (engine : Engine) (p : Pipeline) (t : Table) : Option Table := do
  let output ← p.outputs.head?
  data? engine p.steps t p.steps.length output.data

end Pipeline

end DatasetPlan
