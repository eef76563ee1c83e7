import DatasetPlan.Proofs.Digest.Text
import DatasetPlan.Proofs.Table.Basic

namespace DatasetPlan

namespace Digest

variable {hash : TextHash} {step step' : Step} {steps steps' : List Step}
  {texts texts' : List String}

def tag : Step → String
  | .addType _ _ => "add"
  | .removeType _ _ => "remove"
  | .removeColumns _ _ => "drop"
  | .call _ => "primitive"

def mark : Step → String
  | .addType _ type => type
  | .removeType _ type => type
  | .removeColumns resource _ => resource
  | .call c => c.primitive.id

theorem isField_tag (step : Step) : IsField (tag step) := by
  have hwords : ∀ word ∈ ["add", "remove", "drop", "primitive"], IsField word := by decide
  apply hwords
  cases step <;> simp [tag]

theorem tag_ne_drop (h : step.changesTypes = true) : tag step ≠ "drop" := by
  cases step with
  | addType columns type => simp [tag]
  | removeType columns type => simp [tag]
  | removeColumns resource columns => contradiction
  | call c => contradiction

theorem eq_of_tag_eq (h : step.changesTypes = true) (h' : step'.changesTypes = true)
    (htag : tag step = tag step') (hmark : mark step = mark step')
    (hcolumns : step.columns = step'.columns) : step = step' := by
  cases step with
  | addType columns type => cases step' <;> simp_all [tag, mark, Step.columns]
  | removeType columns type => cases step' <;> simp_all [tag, mark, Step.columns]
  | removeColumns resource columns => contradiction
  | call c => contradiction

private theorem terminated_three (first second third : String) (texts : List String) :
    terminated (parts [first, second, third] :: texts) =
      first ++ terminator ++
        (second ++ terminator ++ (third ++ terminator ++ terminated texts)) := by
  rw [terminated_parts (List.cons_ne_nil _ _)]
  simp only [List.cons_append, List.nil_append, terminated_cons]

theorem terminated_change (h : step.changesTypes = true) (texts : List String) :
    terminated (ofStep hash step :: texts) =
      tag step ++ terminator ++ (mark step ++ terminator ++
        (indicesText step.columns ++ terminator ++ terminated texts)) := by
  cases step with
  | addType columns type => exact terminated_three _ _ _ texts
  | removeType columns type => exact terminated_three _ _ _ texts
  | removeColumns resource columns => contradiction
  | call c => contradiction

theorem terminated_removal (resource : String) (columns : List Nat) :
    terminated [ofStep hash (.removeColumns resource columns)] =
      "drop" ++ terminator ++ (resource ++ terminator ++ indicesText columns ++ terminator) := by
  rw [ofStep, terminated_three, terminated_nil]
  simp only [String.append_assoc, String.append_empty]

theorem change_append_inj (h : step.changesTypes = true) (h' : step'.changesTypes = true)
    (hfield : IsField (mark step)) (hfield' : IsField (mark step')) :
    terminated (ofStep hash step :: texts) = terminated (ofStep hash step' :: texts') ↔
      step = step' ∧ terminated texts = terminated texts' := by
  rw [terminated_change h, terminated_change h', field_append_inj (isField_tag _) (isField_tag _),
    field_append_inj hfield hfield',
    field_append_inj (isField_indicesText _) (isField_indicesText _)]
  constructor
  · rintro ⟨htag, hmark, hcolumns, hrest⟩
    exact ⟨eq_of_tag_eq h h' htag hmark (indicesText_injective hcolumns), hrest⟩
  · rintro ⟨rfl, hrest⟩
    exact ⟨rfl, rfl, rfl, hrest⟩

theorem removal_inj {resource resource' : String} {columns columns' : List Nat}
    (h : terminated [ofStep hash (.removeColumns resource columns)] =
      terminated [ofStep hash (.removeColumns resource' columns')]) :
    resource = resource' ∧ columns = columns' := by
  rw [terminated_removal, terminated_removal, String.append_right_inj, String.append_left_inj,
    append_field_inj (isField_indicesText _) (isField_indicesText _)] at h
  exact ⟨h.1, indicesText_injective h.2⟩

theorem change_ne_removal (h : step.changesTypes = true) {resource : String}
    {columns : List Nat} :
    terminated (ofStep hash step :: texts) ≠
      terminated [ofStep hash (.removeColumns resource columns)] := by
  rw [terminated_change h, terminated_removal]
  intro heq
  exact tag_ne_drop h ((field_append_inj (isField_tag step) (by decide)).mp heq).1

/-- Types have to be fields; a resource may be any text, since nothing comes after its step. -/
inductive Separable : List Step → Prop
  | nil : Separable []
  | removal (resource : String) (columns : List Nat) :
      Separable [.removeColumns resource columns]
  | change {step : Step} {steps : List Step} (changes : step.changesTypes = true)
      (field : IsField (mark step)) (rest : Separable steps) : Separable (step :: steps)

theorem Separable.append (hchanges : ∀ step ∈ steps, step.changesTypes = true ∧ IsField (mark step))
    (h : Separable steps') : Separable (steps ++ steps') := by
  induction steps with
  | nil => exact h
  | cons step steps ih =>
      obtain ⟨hstep, hsteps⟩ := List.forall_mem_cons.mp hchanges
      exact .change hstep.1 hstep.2 (ih hsteps)

theorem Separable.eq_of_terminated_eq (h : Separable steps) (h' : Separable steps')
    (heq : terminated (steps.map (ofStep hash)) = terminated (steps'.map (ofStep hash))) :
    steps = steps' := by
  induction h generalizing steps' with
  | nil =>
      cases h' with
      | nil => rfl
      | removal resource columns => exact absurd heq.symm (terminated_cons_ne_empty _ _)
      | change changes field rest => exact absurd heq.symm (terminated_cons_ne_empty _ _)
  | removal resource columns =>
      cases h' with
      | nil => exact absurd heq (terminated_cons_ne_empty _ _)
      | removal resource' columns' =>
          obtain ⟨rfl, rfl⟩ := removal_inj heq
          rfl
      | change changes field rest => exact absurd heq.symm (change_ne_removal changes)
  | change changes field rest ih =>
      cases h' with
      | nil => exact absurd heq (terminated_cons_ne_empty _ _)
      | removal resource columns => exact absurd heq (change_ne_removal changes)
      | change changes' field' rest' =>
          obtain ⟨rfl, hrest⟩ := (change_append_inj changes changes' field field').mp heq
          rw [ih rest' hrest]

end Digest

end DatasetPlan
