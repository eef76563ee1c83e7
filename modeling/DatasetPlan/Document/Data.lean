import DatasetPlan.Document.Value

namespace DatasetPlan

/-! Values that are kept for their own sake. The order of their keys says nothing. -/

namespace Value

/-- The entry comes where its key belongs, unless the key is there already. -/
def place (key : String) (value : β) : List (String × β) → List (String × β)
  | [] => [(key, value)]
  | (k, v) :: rest =>
      if key < k then (key, value) :: (k, v) :: rest
      else if key = k then (k, v) :: rest
      else (k, v) :: place key value rest

mutual

/-- The value with ascending keys; of a repeated one the last value counts. -/
def ordered : Value → Value
  | list items => list (orderedItems items)
  | dict entries => dict (orderedEntries entries)
  | value => value

def orderedItems : List Value → List Value
  | [] => []
  | item :: rest => item.ordered :: orderedItems rest

def orderedEntries : List (String × Value) → List (String × Value)
  | [] => []
  | (key, value) :: rest => place key value.ordered (orderedEntries rest)

end

example : (dict [("b", int 1), ("a", int 2), ("b", int 3)]).ordered =
    dict [("a", int 2), ("b", int 3)] := rfl

def Ascend (entries : List (String × β)) : Prop :=
  entries.Pairwise fun entry later => entry.1 < later.1

inductive IsOrdered : Value → Prop
  | null : IsOrdered .null
  | bool (b : Bool) : IsOrdered (.bool b)
  | int (n : Int) : IsOrdered (.int n)
  | float (x : Float) : IsOrdered (.float x)
  | text (s : String) : IsOrdered (.text s)
  | list {items : List Value} (h : ∀ item ∈ items, IsOrdered item) : IsOrdered (.list items)
  | dict {entries : List (String × Value)} (hkeys : Ascend entries)
      (h : ∀ entry ∈ entries, IsOrdered entry.2) : IsOrdered (.dict entries)

section Placing

variable {key : String} {value : β} {entry : String × β} {entries : List (String × β)}

theorem mem_place (h : entry ∈ place key value entries) :
    entry = (key, value) ∨ entry ∈ entries := by
  induction entries with
  | nil => exact .inl (List.mem_singleton.mp h)
  | cons first rest ih =>
      unfold place at h
      split at h
      · exact List.mem_cons.mp h
      · split at h
        · exact .inr h
        · rcases List.mem_cons.mp h with rfl | hrest
          · exact .inr List.mem_cons_self
          · exact (ih hrest).imp_right (List.mem_cons_of_mem first)

theorem place_of_lt (h : ∀ entry ∈ entries, key < entry.1) :
    place key value entries = (key, value) :: entries := by
  cases entries with
  | nil => rfl
  | cons first rest => exact if_pos (h first List.mem_cons_self)

theorem Ascend.place (h : Ascend entries) (key : String) (value : β) :
    Ascend (place key value entries) := by
  induction entries with
  | nil => exact List.pairwise_singleton _ _
  | cons first rest ih =>
      obtain ⟨hfirst, hrest⟩ := List.pairwise_cons.mp h
      unfold Value.place
      split
      · next hlt =>
          refine List.pairwise_cons.mpr ⟨fun entry hentry => ?_, h⟩
          rcases List.mem_cons.mp hentry with rfl | hmem
          · exact hlt
          · exact String.lt_trans hlt (hfirst entry hmem)
      · next hnot =>
          split
          · exact h
          · next hne =>
              refine List.pairwise_cons.mpr ⟨fun entry hentry => ?_, ih hrest⟩
              rcases mem_place hentry with rfl | hmem
              · exact String.not_le.mp fun hle =>
                  hne (String.le_antisymm hle (String.not_lt.mp hnot))
              · exact hfirst entry hmem

end Placing

mutual

theorem isOrdered_ordered : (value : Value) → value.ordered.IsOrdered
  | .null => .null
  | .bool b => .bool b
  | .int n => .int n
  | .float x => .float x
  | .text s => .text s
  | .list items => .list (isOrdered_orderedItems items)
  | .dict entries => .dict (isOrdered_orderedEntries entries).1 (isOrdered_orderedEntries entries).2

theorem isOrdered_orderedItems : (items : List Value) → ∀ item ∈ orderedItems items, item.IsOrdered
  | [] => nofun
  | item :: rest => List.forall_mem_cons.mpr ⟨isOrdered_ordered item, isOrdered_orderedItems rest⟩

theorem isOrdered_orderedEntries : (entries : List (String × Value)) →
    Ascend (orderedEntries entries) ∧ ∀ entry ∈ orderedEntries entries, entry.2.IsOrdered
  | [] => ⟨.nil, nofun⟩
  | (key, value) :: rest => by
      obtain ⟨hkeys, hvalues⟩ := isOrdered_orderedEntries rest
      refine ⟨hkeys.place key value.ordered, fun entry hentry => ?_⟩
      rcases mem_place hentry with rfl | hmem
      · exact isOrdered_ordered value
      · exact hvalues entry hmem

end

theorem orderedItems_eq_self {items : List Value} (h : ∀ item ∈ items, item.ordered = item) :
    orderedItems items = items := by
  induction items with
  | nil => rfl
  | cons item rest ih =>
      obtain ⟨hitem, hrest⟩ := List.forall_mem_cons.mp h
      rw [orderedItems, hitem, ih hrest]

theorem orderedEntries_eq_self {entries : List (String × Value)} (hkeys : Ascend entries)
    (h : ∀ entry ∈ entries, entry.2.ordered = entry.2) : orderedEntries entries = entries := by
  induction entries with
  | nil => rfl
  | cons entry rest ih =>
      obtain ⟨hentry, hrest⟩ := List.forall_mem_cons.mp h
      obtain ⟨hfirst, hlater⟩ := List.pairwise_cons.mp hkeys
      rw [orderedEntries, hentry, ih hlater hrest, place_of_lt hfirst]

theorem IsOrdered.ordered_eq_self {value : Value} (h : value.IsOrdered) :
    value.ordered = value := by
  induction h with
  | null | bool | int | float | text => rfl
  | list _ ih => rw [ordered, orderedItems_eq_self ih]
  | dict hkeys _ ih => rw [ordered, orderedEntries_eq_self hkeys ih]

end Value

structure Data where
  value : Value
  isOrdered : value.IsOrdered

namespace Data

def ofValue (value : Value) : Data :=
  ⟨value.ordered, value.isOrdered_ordered⟩

@[simp] theorem ofValue_value (x : Data) : ofValue x.value = x := by
  obtain ⟨value, hordered⟩ := x
  simp only [ofValue, hordered.ordered_eq_self]

end Data

end DatasetPlan
