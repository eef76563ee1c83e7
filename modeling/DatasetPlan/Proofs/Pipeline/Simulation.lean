import DatasetPlan.Proofs.Pipeline.Engine

namespace DatasetPlan

namespace Step

open HyperValue

variable {step : Step} {steps : List Step}

/-- The engine has a primitive for the step, its type has a name, and its indices fit into the
hyperparameters. -/
def Expressible : Step → Prop
  | addType columns type => type ≠ "" ∧ ∀ i ∈ columns, i ≤ indexLimit
  | removeType columns type => type ≠ "" ∧ ∀ i ∈ columns, i ≤ indexLimit
  | removeColumns _ columns => ∀ i ∈ columns, i ≤ indexLimit
  | call _ => False

theorem outputMethod_of_expressible (h : step.Expressible) : step.outputMethod = "produce" := by
  cases step with
  | addType columns type => rfl
  | removeType columns type => rfl
  | removeColumns resource columns => rfl
  | call c => exact h.elim

theorem find?_inputs_of_expressible (h : step.Expressible) (input : String) :
    (step.lower input).arguments.find? "inputs" = some input := by
  have hchained : (chained input).find? "inputs" = some input :=
    Dictionary.find?_ofList (by simp) (by simp)
  cases step with
  | addType columns type => exact hchained
  | removeType columns type => exact hchained
  | removeColumns resource columns => exact hchained
  | call c => exact h.elim

theorem apply_isSome_of_expressible (h : step.Expressible) (t : Table) :
    ∃ t', step.apply t = some t' := by
  cases step with
  | addType columns type => exact ⟨_, rfl⟩
  | removeType columns type => exact ⟨_, rfl⟩
  | removeColumns resource columns => exact ⟨_, rfl⟩
  | call c => exact h.elim

theorem perform_typeUpdate (engine : Engine) {addColumns removeColumns : List Nat}
    (hadd : ∀ i ∈ addColumns, i ≤ indexLimit)
    (hremove : ∀ i ∈ removeColumns, i ≤ indexLimit)
    (addTypes removeTypes : List String) (input : String) (t : Table) :
    engine.perform (typeUpdate input addColumns addTypes removeColumns removeTypes).primitive
        (typeUpdate input addColumns addTypes removeColumns removeTypes).hyperparameters t =
      some (t.update addColumns addTypes removeColumns removeTypes) := by
  have hperform :
      engine.perform (typeUpdate input addColumns addTypes removeColumns removeTypes).primitive
          (typeUpdate input addColumns addTypes removeColumns removeTypes).hyperparameters t =
        some (t.update addColumns (if addTypes.isEmpty then [""] else addTypes) removeColumns
          (if removeTypes.isEmpty then [""] else removeTypes)) :=
    engine.updates t rfl
      (read_ofList (by simp) (by simp) (asColumns?_ofIndices hadd))
      (read_ofList (by simp) (by simp) (asTexts?_ofTexts addTypes))
      (read_ofList (by simp) (by simp) (asColumns?_ofIndices hremove))
      (read_ofList (by simp) (by simp) (asTexts?_ofTexts removeTypes))
  simp only [Table.update, namedTypes_filled] at hperform
  exact hperform

theorem perform_lower (engine : Engine) (h : step.Expressible) (input : String) (t : Table) :
    engine.perform (step.lower input).primitive (step.lower input).hyperparameters t =
      step.apply t := by
  cases step with
  | addType columns type =>
      obtain ⟨hname, hcolumns⟩ := h
      refine (perform_typeUpdate engine hcolumns (by simp) [type] [] input t).trans ?_
      rw [apply, Table.update, namedTypes_singleton hname]
      congr 2
      funext i types
      by_cases hi : i ∈ columns
      · simp [hi, Finset.union_singleton]
      · simp [hi]
  | removeType columns type =>
      obtain ⟨hname, hcolumns⟩ := h
      refine (perform_typeUpdate engine (by simp) hcolumns [] [type] input t).trans ?_
      rw [apply, Table.update, namedTypes_singleton hname]
      congr 2
      funext i types
      by_cases hi : i ∈ columns
      · simp [hi, Finset.sdiff_singleton_eq_erase]
      · simp [hi]
  | removeColumns resource columns =>
      exact engine.removes t rfl (read_ofList (by simp) (by simp) (asColumns?_ofIndices h))
  | call c => exact h.elim

theorem forall₂_lowerAll (engine : Engine) (h : ∀ step ∈ steps, step.Expressible) (index : Nat)
    (input : String) :
    List.Forall₂ (fun step lowered => ∀ t,
        engine.perform lowered.primitive lowered.hyperparameters t = step.apply t)
      steps (lowerAll index input steps) := by
  induction steps generalizing index input with
  | nil => exact .nil
  | cons step steps ih =>
      obtain ⟨hstep, hsteps⟩ := List.forall_mem_cons.mp h
      exact .cons (perform_lower engine hstep input) (ih hsteps _ _)

theorem run_isSome_of_expressible (h : ∀ step ∈ steps, step.Expressible) (t : Table) :
    ∃ t', run steps t = some t' := by
  induction steps generalizing t with
  | nil => exact ⟨t, rfl⟩
  | cons step steps ih =>
      obtain ⟨hstep, hsteps⟩ := List.forall_mem_cons.mp h
      obtain ⟨t', ht'⟩ := apply_isSome_of_expressible hstep t
      obtain ⟨t'', ht''⟩ := ih hsteps t'
      exact ⟨t'', by rw [run, ht', Option.bind_some, ht'']⟩

/-- Followed back from after step `n`, references lead through just the steps before it. -/
theorem data?_lowerAll (engine : Engine) (h : ∀ step ∈ steps, step.Expressible) (t : Table)
    {n : Nat} (hn : n ≤ steps.length) :
    Pipeline.data? engine (lowerAll 0 (Reference.input 0) steps) t n
        (source 0 (Reference.input 0) steps n) =
      run (steps.take n) t := by
  -- The reference after step `n` names that step, whose argument names the step before.
  induction n with
  | zero => simp [Pipeline.data?, source, run]
  | succ n ih =>
      have hget : steps[n]? = some steps[n] := List.getElem?_eq_getElem hn
      have hstep : steps[n].Expressible := h steps[n] (List.getElem_mem hn)
      have hsource : source 0 (Reference.input 0) steps (n + 1) =
          Reference.result n "produce" := by
        rw [source_succ hget, Nat.zero_add, outputMethod_of_expressible hstep]
      have hlast : run (steps.take (n + 1)) t =
          (run (steps.take n) t).bind steps[n].apply := by
        rw [List.take_add_one, hget, Option.toList_some, run_concat]
      rw [hsource, Pipeline.data?, if_pos rfl, getElem?_lowerAll, hget, hlast,
        ← ih (Nat.le_of_succ_le hn)]
      simp only [Option.map_some, Option.bind_eq_bind, Option.bind_some,
        find?_inputs_of_expressible hstep, perform_lower engine hstep]

end Step

namespace Registry

theorem resolve_standard_ne {label type : String} (h : standard.resolve label = some type) :
    type ≠ "" := by
  have hnamed : ∀ entry ∈ standard.entries, entry.2 ≠ "" := by decide
  exact hnamed (label, type) (mem_of_resolve h)

end Registry

namespace Plan

open Retyping

variable {hash : TextHash} {name description : String} {vars : List Variable} {target : String}
  {features : List String} {resource : Option String} {plan : Plan}

theorem compile_expressible
    (hcompile : compile hash .standard name description vars target features resource =
      .ok (some plan))
    (hbound : ∀ step ∈ plan.steps, ∀ i ∈ step.columns, i ≤ HyperValue.indexLimit) :
    ∀ step ∈ plan.steps, step.Expressible := by
  obtain ⟨rs, hrs, hassemble⟩ := compile_eq_ok.mp hcompile
  have hsteps := (assemble_eq_some hassemble).1
  have hnamed : ∀ g ∈ Group.ofRetypings rs, g.old ≠ "" ∧ g.new ≠ "" := by
    intro g hg
    obtain ⟨v, hresolves⟩ := exists_resolves_of_group hrs hg
    exact ⟨Registry.resolve_standard_ne hresolves.original,
      Registry.resolve_standard_ne hresolves.current⟩
  intro step hstep
  have hcolumns := hbound step hstep
  rw [hsteps] at hstep
  rcases Step.mem_ofRetypings.mp hstep with ⟨g, hg, rfl⟩ | ⟨g, hg, rfl⟩ | ⟨-, rfl⟩
  · exact ⟨(hnamed g hg).2, hcolumns⟩
  · exact ⟨(hnamed g hg).1, hcolumns⟩
  · exact hcolumns

theorem compile_lower_simulates (engine : Engine)
    (hcompile : compile hash .standard name description vars target features resource =
      .ok (some plan))
    (hbound : ∀ step ∈ plan.steps, ∀ i ∈ step.columns, i ≤ HyperValue.indexLimit) :
    (∀ t, ∃ t', plan.lower.output? engine t = some t' ∧ Step.run plan.steps t = some t') ∧
    List.Forall₂ (fun step lowered => ∀ t,
        engine.perform lowered.primitive lowered.hyperparameters t = step.apply t)
      plan.steps plan.lower.steps := by
  have hexpressible := compile_expressible hcompile hbound
  refine ⟨?_, Step.forall₂_lowerAll engine hexpressible 0 (Reference.input 0)⟩
  intro t
  obtain ⟨rs, -, hassemble⟩ := compile_eq_ok.mp hcompile
  obtain ⟨hsteps, last, hlast, houtputs⟩ := assemble_eq_some hassemble
  rw [← hsteps] at hlast houtputs
  obtain ⟨t', ht'⟩ := Step.run_isSome_of_expressible hexpressible t
  refine ⟨t', ?_, ht'⟩
  have hsource : Step.source 0 (Reference.input 0) plan.steps plan.steps.length = _ :=
    Step.source_length hlast
  have hdata := Step.data?_lowerAll engine hexpressible t (Nat.le_refl _)
  rw [hsource, Nat.zero_add, List.take_length, ht'] at hdata
  simp only [Pipeline.output?, lower, houtputs, List.head?_cons, Option.bind_eq_bind,
    Option.bind_some, Step.length_lowerAll]
  exact hdata

theorem compile_lower_simulates_swapping :
    ∃ t, swappingPlan.lower.output? Engine.reference (Table.ofTypes [{SemanticType.integer}, ∅,
        {SemanticType.categorical}, ∅, {SemanticType.categorical}]) = some t ∧
      Step.run swappingPlan.steps (Table.ofTypes [{SemanticType.integer}, ∅,
        {SemanticType.categorical}, ∅, {SemanticType.categorical}]) = some t :=
  (compile_lower_simulates Engine.reference compile_swapping (by decide)).1 _

end Plan

end DatasetPlan
