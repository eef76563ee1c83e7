/-! Dictionaries with text keys, in the order in which keys first came in. `insert` keeps a key's
place and replaces its value; `find?_insert` and `keys_insert` say so. -/

namespace DatasetPlan

structure Dictionary (β : Type) where
  entries : List (String × β)
  nodup : (entries.map Prod.fst).Nodup

namespace Dictionary

def empty : Dictionary β where
  entries := []
  nodup := .nil

instance : EmptyCollection (Dictionary β) := ⟨empty⟩
instance : Inhabited (Dictionary β) := ⟨empty⟩

instance [DecidableEq β] : DecidableEq (Dictionary β) := fun d e =>
  decidable_of_iff (d.entries = e.entries) <| by cases d; cases e; simp

@[ext] theorem ext {d e : Dictionary β} (h : d.entries = e.entries) : d = e := by
  cases d; cases e; cases h; rfl

def keys (d : Dictionary β) : List String :=
  d.entries.map Prod.fst

def isEmpty (d : Dictionary β) : Bool :=
  d.entries.isEmpty

def find? (d : Dictionary β) (key : String) : Option β :=
  d.entries.lookup key

def put (key : String) (value : β) : List (String × β) → List (String × β)
  | [] => [(key, value)]
  | (k, v) :: rest => if k = key then (key, value) :: rest else (k, v) :: put key value rest

theorem map_fst_put (key : String) (value : β) (entries : List (String × β)) :
    (put key value entries).map Prod.fst =
      if key ∈ entries.map Prod.fst then entries.map Prod.fst
      else entries.map Prod.fst ++ [key] := by
  induction entries with
  | nil => rfl
  | cons entry rest ih =>
      obtain ⟨k, v⟩ := entry
      by_cases h : k = key
      · simp [put, h]
      · have hne : key ≠ k := fun e => h e.symm
        simp only [put, h, if_false, List.map_cons, ih, List.mem_cons, hne, false_or]
        split <;> rfl

theorem nodup_put {key : String} {value : β} {entries : List (String × β)}
    (h : (entries.map Prod.fst).Nodup) : ((put key value entries).map Prod.fst).Nodup := by
  rw [map_fst_put]
  split
  · exact h
  · rename_i hnot
    rw [List.nodup_append]
    refine ⟨h, by simp, ?_⟩
    intro a ha b hb
    rw [List.mem_singleton] at hb
    subst hb
    intro hab
    exact hnot (hab ▸ ha)

def insert (d : Dictionary β) (key : String) (value : β) : Dictionary β where
  entries := put key value d.entries
  nodup := nodup_put d.nodup

theorem keys_insert (d : Dictionary β) (key : String) (value : β) :
    (d.insert key value).keys = if key ∈ d.keys then d.keys else d.keys ++ [key] :=
  map_fst_put key value d.entries

private theorem lookup_put (key other : String) (value : β) (entries : List (String × β)) :
    (put key value entries).lookup other =
      if other = key then some value else entries.lookup other := by
  induction entries with
  | nil => by_cases h : other = key <;> simp [put, h, List.lookup_cons, beq_eq_false_iff_ne.mpr]
  | cons entry rest ih =>
      obtain ⟨k, v⟩ := entry
      by_cases hk : k = key
      · by_cases h : other = key <;> simp [put, hk, h, List.lookup_cons, beq_eq_false_iff_ne.mpr]
      · by_cases h : other = k
        · have : other ≠ key := fun e => hk (h.symm.trans e)
          simp [put, hk, h]
        · simp [put, hk, List.lookup_cons, beq_eq_false_iff_ne.mpr h, ih]

theorem find?_insert (d : Dictionary β) (key other : String) (value : β) :
    (d.insert key value).find? other = if other = key then some value else d.find? other :=
  lookup_put key other value d.entries

/-- A repeated key keeps its first place and takes its last value. -/
def ofList (entries : List (String × β)) : Dictionary β :=
  entries.foldl (fun d entry => d.insert entry.1 entry.2) empty

theorem put_append {key : String} (value : β) {entries : List (String × β)}
    (h : key ∉ entries.map Prod.fst) : put key value entries = entries ++ [(key, value)] := by
  induction entries with
  | nil => rfl
  | cons entry rest ih =>
      rw [List.map_cons, List.mem_cons, not_or] at h
      have hne : entry.1 ≠ key := fun e => h.1 e.symm
      simp only [put, hne, if_false, ih h.2, List.cons_append]

private theorem foldl_insert (rest : List (String × β)) (d : Dictionary β)
    (h : ((d.entries ++ rest).map Prod.fst).Nodup) :
    (rest.foldl (fun d entry => d.insert entry.1 entry.2) d).entries = d.entries ++ rest := by
  induction rest generalizing d with
  | nil => simp
  | cons entry rest ih =>
      have hnot : entry.1 ∉ d.entries.map Prod.fst := by
        intro hmem
        rw [List.map_append, List.nodup_append] at h
        exact h.2.2 _ hmem _ (by simp) rfl
      have hentries : (d.insert entry.1 entry.2).entries = d.entries ++ [entry] :=
        put_append entry.2 hnot
      rw [List.foldl_cons, ih _ (by rw [hentries]; simpa using h), hentries, List.append_assoc]
      rfl

theorem entries_ofList {entries : List (String × β)} (h : (entries.map Prod.fst).Nodup) :
    (ofList entries).entries = entries := by
  exact foldl_insert entries empty h

@[simp] theorem ofList_entries (d : Dictionary β) : ofList d.entries = d :=
  ext (entries_ofList d.nodup)

end Dictionary

end DatasetPlan
