import DatasetPlan.Plan.Compile
import Mathlib.Data.List.Sort

namespace DatasetPlan

namespace Runs

private theorem loop_append [BEq α] (a : α) (rest acc : List α) :
    List.eraseRepsBy.loop (· == ·) a rest acc =
      acc.reverse ++ List.eraseRepsBy.loop (· == ·) a rest [] := by
  induction rest generalizing a acc with
  | nil => simp [List.eraseRepsBy.loop]
  | cons b rest ih =>
      cases h : a == b with
      | true =>
          simp only [List.eraseRepsBy.loop, h]
          exact ih a acc
      | false =>
          simp only [List.eraseRepsBy.loop, h]
          rw [ih b (a :: acc), ih b [a]]
          simp

theorem eraseReps_cons_cons [BEq α] (a b : α) (rest : List α) :
    (a :: b :: rest).eraseReps =
      if a == b then (a :: rest).eraseReps else a :: (b :: rest).eraseReps := by
  cases h : a == b with
  | true => simp [List.eraseReps, List.eraseRepsBy, List.eraseRepsBy.loop, h]
  | false =>
      simp only [List.eraseReps, List.eraseRepsBy, List.eraseRepsBy.loop, h]
      exact loop_append b rest [a]

@[simp] theorem mem_eraseReps [BEq α] [LawfulBEq α] {x : α} {l : List α} :
    x ∈ l.eraseReps ↔ x ∈ l := by
  induction l with
  | nil => rfl
  | cons a rest ih =>
      cases rest with
      | nil => rfl
      | cons b rest =>
          rw [eraseReps_cons_cons]
          split
          · rename_i heq
            obtain rfl := eq_of_beq heq
            rw [List.mem_cons, ih]
            simp
          · rw [List.mem_cons, ih]
            exact List.mem_cons.symm

/-- In a sorted list equal elements are neighbours, so none is left over. -/
theorem pairwise_lt_eraseReps {l : List Nat} (h : l.Pairwise (· ≤ ·)) :
    l.eraseReps.Pairwise (· < ·) := by
  induction l with
  | nil => exact .nil
  | cons a rest ih =>
      cases rest with
      | nil => exact List.pairwise_singleton _ _
      | cons b rest =>
          obtain ⟨hle, hrest⟩ := List.pairwise_cons.mp h
          rw [eraseReps_cons_cons]
          split
          · rename_i heq
            obtain rfl := eq_of_beq heq
            exact ih hrest
          · rename_i hne
            have hlt : a < b := Nat.lt_of_le_of_ne (hle b (by simp)) (by simpa using hne)
            refine List.pairwise_cons.mpr ⟨?_, ih hrest⟩
            intro c hc
            rcases List.mem_cons.mp (mem_eraseReps.mp hc) with rfl | hc
            · exact hlt
            · exact Nat.lt_of_lt_of_le hlt ((List.pairwise_cons.mp hrest).1 c hc)

end Runs

@[simp] theorem mem_ascending {i : Nat} {indices : List Nat} :
    i ∈ ascending indices ↔ i ∈ indices := by
  simp [ascending]

section MergeSortKey

variable (key : α → Nat)

private theorem key_trans (x y z : α) :
    decide (key x ≤ key y) = true → decide (key y ≤ key z) = true →
      decide (key x ≤ key z) = true := by
  simpa using Nat.le_trans

private theorem key_total (x y : α) :
    (decide (key x ≤ key y) || decide (key y ≤ key x)) = true := by
  simpa using Nat.le_total (key x) (key y)

theorem pairwise_mergeSort_key (l : List α) :
    (l.mergeSort fun x y => key x ≤ key y).Pairwise fun x y => key x ≤ key y := by
  have h : (l.mergeSort fun x y => key x ≤ key y).Pairwise fun x y =>
      decide (key x ≤ key y) = true :=
    List.pairwise_mergeSort (key_trans key) (key_total key) l
  simpa using h

theorem filter_mergeSort_key (l : List α) (k : Nat) :
    (l.mergeSort fun x y => key x ≤ key y).filter (key · = k) = l.filter (key · = k) := by
  have hsorted : (l.filter (key · = k)).Pairwise fun x y => decide (key x ≤ key y) = true := by
    refine List.pairwise_of_forall_mem_list ?_
    intro x hx y hy
    have hxk : key x = k := by simpa using (List.mem_filter.mp hx).2
    have hyk : key y = k := by simpa using (List.mem_filter.mp hy).2
    simp [hxk, hyk]
  have hsublist := (List.sublist_mergeSort (key_trans key) (key_total key) hsorted
    List.filter_sublist).filter (key · = k)
  rw [List.filter_filter] at hsublist
  simp only [Bool.and_self] at hsublist
  exact (hsublist.eq_of_length ((List.mergeSort_perm l _).filter _).length_eq.symm).symm

end MergeSortKey

theorem pairwise_ascending (indices : List Nat) :
    (ascending indices).Pairwise (· < ·) := by
  apply Runs.pairwise_lt_eraseReps
  exact pairwise_mergeSort_key id indices

theorem ascending_of_pairwise {indices : List Nat} (h : indices.Pairwise (· < ·)) :
    ascending indices = indices :=
  (pairwise_ascending indices).eq_of_mem_iff h fun _ => mem_ascending

end DatasetPlan
