import DatasetPlan.Proofs.Digest.Steps

namespace DatasetPlan

namespace Digest

variable {hash : TextHash} {steps steps' : List Step} {name name' : String}

/-- The name `name'` goes on after `name` with the beginning of the text of `steps`, and the text
of `steps'` is the rest of it. -/
def Absorbs (hash : TextHash) (name : String) (steps : List Step) (name' : String)
    (steps' : List Step) : Prop :=
  ∃ text, name' = name ++ terminator ++ text ∧
    terminated (steps.map (ofStep hash)) =
      text ++ terminator ++ terminated (steps'.map (ofStep hash))

theorem not_absorbs (h : IsField name') : ¬Absorbs hash name steps name' steps' := by
  rintro ⟨text, rfl, -⟩
  exact not_isField_append_terminator _ _ h

theorem Absorbs.ofPlan_eq (h : Absorbs hash name steps name' steps') :
    ofPlan hash name steps = ofPlan hash name' steps' := by
  obtain ⟨text, rfl, htext⟩ := h
  simp only [ofPlan, ofComponents, terminated_cons, htext, String.append_assoc]

section Injective

variable (hinjective : Function.Injective hash)
include hinjective

theorem ofPlan_eq_iff_steps (h : Separable steps) (h' : Separable steps') :
    ofPlan hash name steps = ofPlan hash name steps' ↔ steps = steps' := by
  constructor
  · intro heq
    have htext := hinjective heq
    rw [terminated_cons, terminated_cons, String.append_right_inj] at htext
    exact h.eq_of_terminated_eq h' htext
  · rintro rfl
    rfl

theorem ofPlan_eq_iff_absorbs (hname : name ≠ name') (steps steps' : List Step) :
    ofPlan hash name steps = ofPlan hash name' steps' ↔
      Absorbs hash name steps name' steps' ∨ Absorbs hash name' steps' name steps := by
  constructor
  · intro heq
    have htext := hinjective heq
    rw [terminated_cons, terminated_cons] at htext
    rcases append_terminator_cases htext with ⟨hsame, -⟩ | habsorbs | habsorbs
    · exact absurd hsame hname
    · exact .inl habsorbs
    · exact .inr habsorbs
  · rintro (h | h)
    · exact h.ofPlan_eq
    · exact h.ofPlan_eq.symm

end Injective

/-- BLAKE3 on some texts. All others are hashed to what BLAKE3 never gives. -/
def blake3On (texts : List String) : TextHash := fun text =>
  if text ∈ texts then blake3 text else "text:" ++ text

theorem blake3On_of_mem {texts : List String} {text : String} (h : text ∈ texts) :
    blake3On texts text = blake3 text :=
  if_pos h

theorem injective_blake3On {texts : List String} (h : (texts.map blake3).Nodup) :
    Function.Injective (blake3On texts) := by
  have hne : ∀ text other : String, blake3 text ≠ "text:" ++ other := by
    intro text other heq
    have hhead := congrArg (·.toList.head?) heq
    simp [blake3] at hhead
  intro text other heq
  simp only [blake3On] at heq
  split at heq
  · rename_i htext
    split at heq
    · rename_i hother
      exact List.inj_on_of_nodup_map h htext hother heq
    · exact absurd heq (hne _ _)
  · split at heq
    · exact absurd heq.symm (hne _ _)
    · exact (String.append_right_inj _).mp heq

end Digest

theorem Registry.isField_standard : ∀ entry ∈ standard.entries, Digest.IsField entry.2 := by
  simp only [standard, List.forall_mem_cons, List.not_mem_nil, false_implies, implies_true,
    and_true]
  and_intros
  all_goals exact Digest.isField_ofList (by decide)

namespace Plan

open Retyping

variable {hash : TextHash} {registry registry' : Registry}
  {name name' description description' : String} {vars vars' : List Variable}
  {target target' : String} {features features' : List String}
  {resource resource' : Option String} {plan plan' : Plan}

theorem compile_identity
    (hcompile : compile hash registry name description vars target features resource =
      .ok (some plan)) :
    plan.name = name ∧ plan.id = Digest.ofPlan hash plan.name plan.steps := by
  obtain ⟨rs, -, hassemble⟩ := compile_eq_ok.mp hcompile
  exact assemble_identity hassemble

theorem compile_separable
    (hcompile : compile hash .standard name description vars target features resource =
      .ok (some plan)) :
    Digest.Separable plan.steps := by
  obtain ⟨rs, hrs, hassemble⟩ := compile_eq_ok.mp hcompile
  have htypes : ∀ g ∈ Group.ofRetypings rs, Digest.IsField g.old ∧ Digest.IsField g.new := by
    intro g hg
    obtain ⟨v, hresolves⟩ := exists_resolves_of_group hrs hg
    exact ⟨Registry.isField_standard _ (Registry.mem_of_resolve hresolves.original),
      Registry.isField_standard _ (Registry.mem_of_resolve hresolves.current)⟩
  rw [(assemble_eq_some hassemble).1, Step.ofRetypings]
  apply Digest.Separable.append
  · intro step hstep
    rw [List.mem_append, List.mem_map, List.mem_map] at hstep
    rcases hstep with ⟨g, hg, rfl⟩ | ⟨g, hg, rfl⟩
    · exact ⟨rfl, (htypes g hg).2⟩
    · exact ⟨rfl, (htypes g hg).1⟩
  · split
    · exact .nil
    · exact .removal _ _

def measured (label : String) : List Variable := [
  { name := "x", type := label, originalType := "real", index := 0 },
  { name := "z", index := 1 }]

def roundingSteps (resource : String) : List Step := [
  .addType [0] SemanticType.integer, .removeType [0] SemanticType.float,
  .removeColumns resource [1]]

theorem compile_measured (hash : TextHash) (name : String) (resource : Option String)
    {label : String} {rs : List Retyping}
    (hrs : ofVariables .standard ((measured label).take 1) = .ok rs) :
    ∃ plan, compile hash .standard name "" (measured label) "x" [] resource = .ok (some plan) ∧
      plan.steps =
        Step.ofRetypings (Group.ofRetypings rs) [1] (resource.getD defaultResource) := by
  have hselection : Selection.ofVariables (measured label) "x" [] =
      ⟨(measured label).take 1, [1]⟩ :=
    Selection.ofVariables_of_pairwise (by simp [measured])
  exact exists_compile hash name "" resource hselection hrs (List.cons_ne_nil 1 [])

theorem compile_measured_integer (hash : TextHash) (name : String) (resource : Option String) :
    ∃ plan, compile hash .standard name "" (measured "integer") "x" [] resource =
        .ok (some plan) ∧
      plan.steps = roundingSteps (resource.getD defaultResource) := by
  obtain ⟨plan, hcompile, hsteps⟩ := compile_measured hash name resource
    (show ofVariables .standard ((measured "integer").take 1) =
      .ok [⟨0, SemanticType.float, SemanticType.integer⟩] from rfl)
  rw [Step.ofRetypings_eq (by decide) (by decide)] at hsteps
  exact ⟨plan, hcompile, hsteps⟩

theorem compile_measured_real (hash : TextHash) (name : String) (resource : Option String) :
    ∃ plan, compile hash .standard name "" (measured "real") "x" [] resource =
        .ok (some plan) ∧
      plan.steps = [.removeColumns (resource.getD defaultResource) [1]] := by
  obtain ⟨plan, hcompile, hsteps⟩ := compile_measured hash name resource
    (show ofVariables .standard ((measured "real").take 1) = .ok [] from rfl)
  rw [Step.ofRetypings_eq (by decide) (by decide)] at hsteps
  exact ⟨plan, hcompile, hsteps⟩

/-- Of plans with one name, those with the same steps and no others have the same identity. -/
theorem compile_id_eq_iff (hinjective : Function.Injective hash)
    (hcompile : compile hash .standard name description vars target features resource =
      .ok (some plan))
    (hcompile' : compile hash .standard name description' vars' target' features' resource' =
      .ok (some plan')) :
    plan.id = plan'.id ↔ plan.steps = plan'.steps := by
  obtain ⟨hname, hid⟩ := compile_identity hcompile
  obtain ⟨hname', hid'⟩ := compile_identity hcompile'
  rw [hid, hid', hname, hname']
  exact Digest.ofPlan_eq_iff_steps hinjective (compile_separable hcompile)
    (compile_separable hcompile')

/-- With it, the text of one step looks like that of two. -/
def steplikeResource : String := "0\x001\x00drop\x000"

def removals : List (String × String) :=
  [("p", defaultResource), ("p", steplikeResource), ("q", defaultResource)]

def removalHash : TextHash :=
  Digest.blake3On <| removals.map fun (name, resource) =>
    Digest.terminated [name, Digest.ofStep blake3 (.removeColumns resource [1])]

theorem injective_removalHash : Function.Injective removalHash :=
  Digest.injective_blake3On (by decide +kernel)

theorem compile_removals {name : String} (resource : Option String)
    (h : (name, resource.getD defaultResource) ∈ removals) :
    ∃ plan, compile removalHash .standard name "" (measured "real") "x" [] resource =
        .ok (some plan) ∧
      plan.steps = [.removeColumns (resource.getD defaultResource) [1]] ∧
      plan.id = Digest.ofPlan blake3 plan.name plan.steps := by
  obtain ⟨plan, hcompile, hsteps⟩ := compile_measured_real removalHash name resource
  obtain ⟨hname, hid⟩ := compile_identity hcompile
  refine ⟨plan, hcompile, hsteps, hid.trans ?_⟩
  rw [hname, hsteps]
  exact Digest.blake3On_of_mem (List.mem_map.mpr ⟨_, h, rfl⟩)

theorem compile_id_eq_iff_measured :
    Function.Injective removalHash ∧
      ∃ plan plan' : Plan,
        compile removalHash .standard "p" "" (measured "real") "x" [] none = .ok (some plan) ∧
        compile removalHash .standard "p" "" (measured "real") "x" [] (some steplikeResource) =
          .ok (some plan') ∧
        plan.id = Digest.ofPlan blake3 plan.name plan.steps ∧
        plan'.id = Digest.ofPlan blake3 plan'.name plan'.steps ∧
        plan.id ≠ plan'.id := by
  obtain ⟨plan, hcompile, hsteps, hid⟩ := compile_removals none
    (show ("p", defaultResource) ∈ removals by decide)
  obtain ⟨plan', hcompile', hsteps', hid'⟩ := compile_removals (some steplikeResource)
    (show ("p", steplikeResource) ∈ removals by decide)
  refine ⟨injective_removalHash, plan, plan', hcompile, hcompile', hid, hid', ?_⟩
  rw [Ne, compile_id_eq_iff injective_removalHash hcompile hcompile', hsteps, hsteps']
  simp [defaultResource, steplikeResource]

/-- Plans with different names have different identities, unless one name goes on after the other
with the text of steps. Names without terminators do not. -/
theorem compile_id_eq_iff_absorbs (hinjective : Function.Injective hash)
    (hcompile : compile hash registry name description vars target features resource =
      .ok (some plan))
    (hcompile' : compile hash registry' name' description' vars' target' features' resource' =
      .ok (some plan'))
    (hname : plan.name ≠ plan'.name) :
    (plan.id = plan'.id ↔
      Digest.Absorbs hash plan.name plan.steps plan'.name plan'.steps ∨
        Digest.Absorbs hash plan'.name plan'.steps plan.name plan.steps) ∧
    (Digest.IsField plan.name → Digest.IsField plan'.name → plan.id ≠ plan'.id) := by
  have hid := Digest.ofPlan_eq_iff_absorbs hinjective hname plan.steps plan'.steps
  rw [← (compile_identity hcompile).2, ← (compile_identity hcompile').2] at hid
  refine ⟨hid, fun hfield hfield' heq => ?_⟩
  rcases hid.mp heq with habsorbs | habsorbs
  · exact Digest.not_absorbs hfield' habsorbs
  · exact Digest.not_absorbs hfield habsorbs

theorem compile_id_eq_iff_absorbs_measured :
    Function.Injective removalHash ∧
      ∃ plan plan' : Plan,
        compile removalHash .standard "p" "" (measured "real") "x" [] none = .ok (some plan) ∧
        compile removalHash .standard "q" "" (measured "real") "x" [] none = .ok (some plan') ∧
        plan.name ≠ plan'.name ∧
        plan.id = Digest.ofPlan blake3 plan.name plan.steps ∧
        plan'.id = Digest.ofPlan blake3 plan'.name plan'.steps ∧
        plan.id ≠ plan'.id := by
  obtain ⟨plan, hcompile, -, hid⟩ := compile_removals none
    (show ("p", defaultResource) ∈ removals by decide)
  obtain ⟨plan', hcompile', -, hid'⟩ := compile_removals none
    (show ("q", defaultResource) ∈ removals by decide)
  have hp := (compile_identity hcompile).1
  have hq := (compile_identity hcompile').1
  have hname : plan.name ≠ plan'.name := by simp [hp, hq]
  refine ⟨injective_removalHash, plan, plan', hcompile, hcompile', hname, hid, hid', ?_⟩
  exact (compile_id_eq_iff_absorbs injective_removalHash hcompile hcompile' hname).2
    (hp ▸ by decide) (hq ▸ by decide)

def longName : String :=
  "p\x00add\x00http://schema.org/Integer\x000\x00remove\x00http://schema.org/Float\x000"

/-- A name that goes on with the text of two steps gives a plan without them their identity. -/
theorem longName_shares_id :
    ¬∀ (hash : TextHash) (name name' description description' : String)
      (vars vars' : List Variable) (target target' : String) (features features' : List String)
      (resource resource' : Option String) (plan plan' : Plan),
      Function.Injective hash →
      compile hash .standard name description vars target features resource =
        .ok (some plan) →
      compile hash .standard name' description' vars' target' features' resource' =
        .ok (some plan') →
      plan.name ≠ plan'.name → plan.id ≠ plan'.id := by
  intro hdistinct
  obtain ⟨plan, hcompile, hsteps⟩ := compile_measured_integer (fun text => text) "p" none
  obtain ⟨plan', hcompile', hsteps'⟩ := compile_measured_real (fun text => text) longName none
  obtain ⟨hname, hid⟩ := compile_identity hcompile
  obtain ⟨hname', hid'⟩ := compile_identity hcompile'
  refine hdistinct _ _ _ _ _ _ _ _ _ _ _ _ _ plan plan' (fun _ _ heq => heq) hcompile hcompile'
    ?_ ?_
  · rw [hname, hname']
    decide
  · rw [hid, hid', hname, hname', hsteps, hsteps']
    decide +kernel

end Plan

end DatasetPlan
