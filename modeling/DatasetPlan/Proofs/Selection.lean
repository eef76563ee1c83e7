import DatasetPlan.Proofs.Ascending
import Mathlib.Data.List.Nodup

namespace DatasetPlan.Selection

variable {vars : List Variable} {target : String} {features : List String} {v w : Variable}

@[simp] theorem mem_byIndex : v ∈ byIndex vars ↔ v ∈ vars := by
  simp [byIndex]

theorem pairwise_byIndex (vars : List Variable) :
    (byIndex vars).Pairwise fun v w => v.index ≤ w.index :=
  pairwise_mergeSort_key (·.index) vars

theorem eq_of_index_eq (h : (vars.map (·.index)).Nodup) (hv : v ∈ vars) (hw : w ∈ vars)
    (hindex : v.index = w.index) : v = w :=
  List.inj_on_of_nodup_map h hv hw hindex

/-- `ordered` holds the variables of `vars` in ascending order of index, and those of one index
as they stand in `vars`. -/
structure StablyOrders (ordered vars : List Variable) : Prop where
  ascending : ordered.Pairwise fun v w => v.index ≤ w.index
  stable : ∀ i, ordered.filter (·.index = i) = vars.filter (·.index = i)

namespace StablyOrders

variable {ordered other : List Variable}

theorem filter (h : StablyOrders ordered vars) (p : Variable → Bool) :
    StablyOrders (ordered.filter p) (vars.filter p) where
  ascending := h.ascending.sublist List.filter_sublist
  stable i := by
    rw [List.filter_comm, h.stable, List.filter_comm]

theorem mem_iff (h : StablyOrders ordered vars) : v ∈ ordered ↔ v ∈ vars := by
  have hmem : v ∈ ordered.filter (·.index = v.index) ↔ v ∈ vars.filter (·.index = v.index) := by
    rw [h.stable]
  simpa using hmem

theorem head_index_le (h : StablyOrders (v :: ordered) vars) (hw : w ∈ vars) :
    v.index ≤ w.index := by
  rcases List.mem_cons.mp (h.mem_iff.mpr hw) with rfl | hw
  · exact Nat.le_refl _
  · exact (List.pairwise_cons.mp h.ascending).1 w hw

/-- The order leaves no choice: the list starts with the first of the variables of least index. -/
theorem unique (h : StablyOrders ordered vars) (h' : StablyOrders other vars) :
    ordered = other := by
  induction ordered generalizing other vars with
  | nil =>
      rw [eq_comm, List.eq_nil_iff_forall_not_mem]
      intro v hv
      exact List.not_mem_nil (h.mem_iff.mpr (h'.mem_iff.mp hv))
  | cons v ordered ih =>
      have hv : v ∈ vars := h.mem_iff.mp List.mem_cons_self
      cases other with
      | nil => exact absurd (h'.mem_iff.mpr hv) List.not_mem_nil
      | cons w other =>
          have hw : w ∈ vars := h'.mem_iff.mp List.mem_cons_self
          have hindex : w.index = v.index :=
            Nat.le_antisymm (h'.head_index_le hv) (h.head_index_le hw)
          have hsame : ∀ i, (v :: ordered).filter (·.index = i) =
              (w :: other).filter (·.index = i) := fun i => (h.stable i).trans (h'.stable i).symm
          obtain ⟨rfl, -⟩ : v = w ∧ _ := by
            simpa [hindex] using hsame v.index
          have hrest : ∀ i, ordered.filter (·.index = i) = other.filter (·.index = i) := by
            intro i
            by_cases hi : v.index = i
            · simpa [hi] using hsame i
            · simpa [hi] using hsame i
          -- Without their head the two lists no longer order `vars`, but each still orders `other`.
          have hordered : StablyOrders ordered other := ⟨h.ascending.tail, hrest⟩
          have hother : StablyOrders other other := ⟨h'.ascending.tail, fun _ => rfl⟩
          rw [ih hordered hother]

end StablyOrders

theorem stablyOrders_byIndex (vars : List Variable) : StablyOrders (byIndex vars) vars where
  ascending := pairwise_byIndex vars
  stable := filter_mergeSort_key (·.index) vars

theorem StablyOrders.perm {ordered : List Variable} (h : StablyOrders ordered vars) :
    ordered.Perm vars := by
  rw [h.unique (stablyOrders_byIndex vars)]
  exact List.mergeSort_perm vars _

theorem ofVariables_of_pairwise (h : vars.Pairwise fun v w => v.index ≤ w.index) :
    ofVariables vars target features =
      ⟨vars.filter (keeps target features),
        ((vars.filter (!keeps target features ·)).map (·.index)).eraseReps⟩ := by
  have hordered : byIndex vars = vars := List.mergeSort_of_pairwise (by simpa using h)
  rw [ofVariables, hordered]

theorem stablyOrders_kept (vars : List Variable) (target : String) (features : List String) :
    StablyOrders (ofVariables vars target features).kept
      (vars.filter (keeps target features)) :=
  (stablyOrders_byIndex vars).filter _

@[simp] theorem mem_kept :
    v ∈ (ofVariables vars target features).kept ↔
      v ∈ vars ∧ keeps target features v = true := by
  simp [ofVariables]

@[simp] theorem mem_dropped {i : Nat} :
    i ∈ (ofVariables vars target features).dropped ↔
      ∃ v ∈ vars, keeps target features v = false ∧ v.index = i := by
  simp [ofVariables, and_assoc]

theorem dropped_eq_nil :
    (ofVariables vars target features).dropped = [] ↔
      ∀ v ∈ vars, keeps target features v = true := by
  rw [List.eq_nil_iff_forall_not_mem]
  constructor
  · intro hnone v hv
    cases hkeeps : keeps target features v with
    | true => rfl
    | false => exact absurd (mem_dropped.mpr ⟨v, hv, hkeeps, rfl⟩) (hnone v.index)
  · intro hall i hi
    obtain ⟨v, hv, hkeeps, -⟩ := mem_dropped.mp hi
    exact Bool.false_ne_true (hkeeps.symm.trans (hall v hv))

theorem nodup_map_kept (f : Variable → α) (h : (vars.map f).Nodup) :
    ((ofVariables vars target features).kept.map f).Nodup :=
  (((List.mergeSort_perm vars _).map f).nodup_iff.mpr h).sublist (List.filter_sublist.map f)

theorem pairwise_kept (h : (vars.map (·.index)).Nodup) :
    ((ofVariables vars target features).kept.map (·.index)).Pairwise (· < ·) := by
  have hnodup : ((ofVariables vars target features).kept.map (·.index)).Nodup :=
    nodup_map_kept (·.index) h
  have hsorted : ((ofVariables vars target features).kept.map (·.index)).Pairwise (· ≤ ·) :=
    List.pairwise_map.mpr ((pairwise_byIndex vars).sublist List.filter_sublist)
  exact (hsorted.and hnodup).imp fun hle => Nat.lt_of_le_of_ne hle.1 hle.2

theorem pairwise_dropped (vars : List Variable) (target : String) (features : List String) :
    (ofVariables vars target features).dropped.Pairwise (· < ·) := by
  apply Runs.pairwise_lt_eraseReps
  exact List.pairwise_map.mpr ((pairwise_byIndex vars).sublist List.filter_sublist)

theorem index_not_mem_dropped (h : (vars.map (·.index)).Nodup) (hv : v ∈ vars)
    (hkept : keeps target features v = true) :
    v.index ∉ (ofVariables vars target features).dropped := by
  intro hdropped
  obtain ⟨w, hw, hwkept, hindex⟩ := mem_dropped.mp hdropped
  have heq := eq_of_index_eq h hw hv hindex
  subst heq
  exact Bool.false_ne_true (hwkept.symm.trans hkept)

theorem mem_dropped_iff_not_kept (h : (vars.map (·.index)).Nodup) {i : Nat} :
    i ∈ (ofVariables vars target features).dropped ↔
      (∃ v ∈ vars, v.index = i) ∧
        ¬∃ v ∈ vars, keeps target features v = true ∧ v.index = i := by
  constructor
  · intro hi
    obtain ⟨v, hv, -, hindex⟩ := mem_dropped.mp hi
    refine ⟨⟨v, hv, hindex⟩, ?_⟩
    rintro ⟨w, hw, hkeeps, rfl⟩
    exact index_not_mem_dropped h hw hkeeps hi
  · rintro ⟨⟨v, hv, hindex⟩, hnone⟩
    cases hkeeps : keeps target features v with
    | true => exact absurd ⟨v, hv, hkeeps, hindex⟩ hnone
    | false => exact mem_dropped.mpr ⟨v, hv, hkeeps, hindex⟩

theorem perm_dropped (h : (vars.map (·.index)).Nodup) :
    (ofVariables vars target features).dropped.Perm
      ((vars.filter (!keeps target features ·)).map (·.index)) := by
  have hdropped : (ofVariables vars target features).dropped.Nodup :=
    (pairwise_dropped vars target features).imp Nat.ne_of_lt
  have hothers : ((vars.filter (!keeps target features ·)).map (·.index)).Nodup :=
    h.sublist (List.filter_sublist.map _)
  apply (List.perm_ext_iff_of_nodup hdropped hothers).mpr
  intro i
  simp [and_assoc]

theorem keeps_iff : keeps target features v = true ↔ v.name = target ∨ v.name ∈ features := by
  simp [keeps]

/-- The target and the features are kept in their order, and of all other variables the places
are left over. -/
structure Splits (selection : Selection) (vars : List Variable) (target : String)
    (features : List String) : Prop where
  kept_ordered : StablyOrders selection.kept
    (vars.filter fun v => v.name = target ∨ v.name ∈ features)
  kept_perm : selection.kept.Perm (vars.filter fun v => v.name = target ∨ v.name ∈ features)
  dropped_ascending : selection.dropped.Pairwise (· < ·)
  dropped_iff : ∀ i, i ∈ selection.dropped ↔
    ∃ v ∈ vars, ¬(v.name = target ∨ v.name ∈ features) ∧ v.index = i
  /-- Where each index stands once, it stands in one of the halves alone. -/
  kept_iff_not_dropped : (vars.map (·.index)).Nodup → ∀ i ∈ vars.map (·.index),
    (i ∈ selection.kept.map (·.index) ↔ i ∉ selection.dropped)
  length_add_length : (vars.map (·.index)).Nodup →
    selection.kept.length + selection.dropped.length = vars.length

theorem ofVariables_splits (vars : List Variable) (target : String) (features : List String) :
    (ofVariables vars target features).Splits vars target features := by
  have hchosen : (vars.filter fun v => v.name = target ∨ v.name ∈ features) =
      vars.filter (keeps target features) := by
    apply List.filter_congr
    intro v _
    simp [keeps]
  have hkept := stablyOrders_kept vars target features
  refine
    { kept_ordered := hchosen ▸ hkept
      kept_perm := hchosen ▸ hkept.perm
      dropped_ascending := pairwise_dropped vars target features
      dropped_iff := ?dropped_iff
      kept_iff_not_dropped := ?kept_iff_not_dropped
      length_add_length := ?length_add_length }
  case dropped_iff =>
    intro i
    simp only [mem_dropped, ← keeps_iff, Bool.not_eq_true]
  case kept_iff_not_dropped =>
    intro hnodup i hi
    have hplace : ∃ v ∈ vars, v.index = i := List.mem_map.mp hi
    simp [mem_dropped_iff_not_kept hnodup, hplace, and_assoc]
  case length_add_length =>
    intro hnodup
    rw [hkept.perm.length_eq, (perm_dropped hnodup).length_eq, List.length_map]
    exact (List.length_eq_length_filter_add _).symm

/-- Kept and dropped variables share the place `1`. -/
def crowded : List Variable := [
  { name := "c", index := 2 },
  { name := "x", index := 1 },
  { name := "a", index := 1 },
  { name := "y", index := 1 },
  { name := "b", index := 1 }]

def scattered : List Variable := [
  { name := "d", index := 3 },
  { name := "a", index := 0 },
  { name := "c", index := 2 },
  { name := "b", index := 1 }]

theorem ofVariables_splits_crowded :
    (ofVariables crowded "c" ["a", "b"]).kept = [crowded[2], crowded[4], crowded[0]] ∧
      (ofVariables crowded "c" ["a", "b"]).dropped = [1] ∧
      (ofVariables scattered "none" ["d", "a"]).kept.length +
        (ofVariables scattered "none" ["d", "a"]).dropped.length = 4 := by
  have hcrowded := ofVariables_splits crowded "c" ["a", "b"]
  refine ⟨hcrowded.kept_ordered.unique ⟨by decide, ?_⟩,
    hcrowded.dropped_ascending.eq_of_mem_iff (List.pairwise_singleton _ _) ?_,
    (ofVariables_splits scattered "none" ["d", "a"]).length_add_length (by decide)⟩
  · intro i
    by_cases hi : i = 1
    · subst hi
      rfl
    · simp [crowded, List.filter_cons, Ne.symm hi]
  · intro i
    rw [hcrowded.dropped_iff, List.mem_singleton, eq_comm]
    simp [crowded]

end DatasetPlan.Selection
