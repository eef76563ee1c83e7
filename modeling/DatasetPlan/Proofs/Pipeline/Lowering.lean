import DatasetPlan.Pipeline.Lowering

namespace DatasetPlan

theorem Dictionary.find?_ofList {entries : List (String × β)} {key : String} {value : β}
    (hnodup : (entries.map Prod.fst).Nodup) (hmem : (key, value) ∈ entries) :
    (ofList entries).find? key = some value := by
  rw [find?, entries_ofList hnodup]
  induction entries with
  | nil => contradiction
  | cons entry rest ih =>
      obtain ⟨hfresh, hrest⟩ := List.nodup_cons.mp hnodup
      rcases List.mem_cons.mp hmem with rfl | hmem
      · exact List.lookup_cons_self
      · have hne : key ≠ entry.1 := fun heq =>
          hfresh (heq ▸ List.mem_map_of_mem (f := Prod.fst) hmem)
        rw [List.lookup_cons, beq_eq_false_iff_ne.mpr hne]
        exact ih hrest hmem

namespace Step

variable {step : Step} {steps : List Step} {index n : Nat} {input : String}

/-- What the step at each position reads when the first one reads `input`. -/
def source (index : Nat) (input : String) (steps : List Step) : Nat → String
  | 0 => input
  | n + 1 => Reference.result (index + n) ((steps[n]?.map outputMethod).getD "produce")

theorem source_succ (h : steps[n]? = some step) :
    source index input steps (n + 1) = Reference.result (index + n) step.outputMethod := by
  rw [source, h]
  rfl

theorem source_cons (n : Nat) :
    source index input (step :: steps) (n + 1) =
      source (index + 1) (Reference.result index step.outputMethod) steps n := by
  cases n with
  | zero => rfl
  | succ n =>
      simp only [source, List.getElem?_cons_succ]
      rw [Nat.add_right_comm index 1 n, Nat.add_assoc]

theorem getElem?_lowerAll (n : Nat) :
    (lowerAll index input steps)[n]? = steps[n]?.map (lower (source index input steps n)) := by
  induction steps generalizing index input n with
  | nil => rfl
  | cons step steps ih =>
      cases n with
      | zero => rfl
      | succ n =>
          rw [lowerAll, List.getElem?_cons_succ, List.getElem?_cons_succ, ih, source_cons]

theorem source_length {last : Step} (h : steps.getLast? = some last) :
    source index input steps steps.length =
      Reference.result (index + (steps.length - 1)) last.outputMethod := by
  rw [List.getLast?_eq_getElem?] at h
  cases hlength : steps.length with
  | zero =>
      rw [List.length_eq_zero_iff.mp hlength] at h
      contradiction
  | succ n =>
      rw [hlength, Nat.add_sub_cancel] at h
      rw [source_succ h, Nat.add_sub_cancel]

@[simp] theorem length_lowerAll : (lowerAll index input steps).length = steps.length := by
  induction steps generalizing index input with
  | nil => rfl
  | cons step steps ih => rw [lowerAll, List.length_cons, List.length_cons, ih]

theorem lowerAll_append (index : Nat) (input : String) (first rest : List Step) :
    lowerAll index input (first ++ rest) =
      lowerAll index input first ++
        lowerAll (index + first.length) (source index input first first.length) rest := by
  induction first generalizing index input with
  | nil => rfl
  | cons step first ih =>
      rw [List.cons_append, lowerAll, lowerAll, List.cons_append, ih, List.length_cons,
        source_cons, Nat.add_assoc, Nat.add_comm 1]

def ownArguments : Step → Dictionary String
  | call c => c.arguments
  | _ => ∅

theorem arguments_lower_of_isEmpty (h : step.ownArguments.isEmpty = true) (input : String) :
    (step.lower input).arguments = chained input := by
  cases step with
  | addType columns type => rfl
  | removeType columns type => rfl
  | removeColumns resource columns => rfl
  | call c => exact if_pos h

end Step

end DatasetPlan
