import DatasetPlan.Proofs.Compile
import DatasetPlan.Proofs.Pipeline.Lowering
import DatasetPlan.Template.Basic

namespace DatasetPlan

/-! References that stand for something, and data that nothing leaves unread. -/

def PipelineStep.Reads (step : PipelineStep) (reference : String) : Prop :=
  ∃ key, (key, reference) ∈ step.arguments.entries

theorem PipelineStep.reads_iff {step : PipelineStep} {reference : String} :
    step.Reads reference ↔ reference ∈ step.arguments.entries.map Prod.snd := by
  simp [Reads]

structure Pipeline.WellScoped (p : Pipeline) : Prop where
  /-- What a step reads is an input or a method of an earlier step. -/
  bound : ∀ k step reference, p.steps[k]? = some step → step.Reads reference →
    (∃ i < p.inputs.length, reference = Reference.input i) ∨
      ∃ j < k, ∃ source, p.steps[j]? = some source ∧
        ∃ method ∈ source.outputs, reference = Reference.result j method
  inputs_read : ∀ i < p.inputs.length, ∃ step ∈ p.steps, step.Reads (Reference.input i)
  steps_read : ∀ j, j + 1 < p.steps.length → ∃ source, p.steps[j]? = some source ∧
    ∃ k step, j < k ∧ p.steps[k]? = some step ∧
      ∃ method ∈ source.outputs, step.Reads (Reference.result j method)
  /-- The one output is the first method of the last step. -/
  published : ∃ last method, p.steps.getLast? = some last ∧ last.outputs.head? = some method ∧
    ∃ name, p.outputs = [⟨name, Reference.result (p.steps.length - 1) method⟩]

/-! Steps of which each one reads what the one before it gives. -/

namespace Step

variable {step : Step} {steps : List Step} {input reference : String}

/-- The step has no arguments of its own, and it gives something. -/
def Chained : Step → Prop
  | call c => c.arguments.isEmpty = true ∧ c.outputs ≠ []
  | _ => True

theorem arguments_lower (h : step.Chained) (input : String) :
    (step.lower input).arguments = chained input := by
  apply arguments_lower_of_isEmpty
  cases step with
  | addType columns type => rfl
  | removeType columns type => rfl
  | removeColumns resource columns => rfl
  | call c => exact h.1

theorem reads_lower (h : step.Chained) :
    (step.lower input).Reads reference ↔ reference = input := by
  have hentries : (chained input).entries = [("inputs", input)] := rfl
  rw [PipelineStep.Reads, arguments_lower h, hentries]
  constructor
  · rintro ⟨key, hmem⟩
    exact congrArg Prod.snd (List.mem_singleton.mp hmem)
  · rintro rfl
    exact ⟨"inputs", List.mem_singleton_self _⟩

theorem head?_outputs_lower (h : step.Chained) (input : String) :
    (step.lower input).outputs.head? = some step.outputMethod := by
  cases step with
  | addType columns type => rfl
  | removeType columns type => rfl
  | removeColumns resource columns => rfl
  | call c =>
      obtain ⟨method, methods, houtputs⟩ := List.exists_cons_of_ne_nil h.2
      simp [lower, outputMethod, houtputs]

section Chained

variable (h : ∀ step ∈ steps, step.Chained) {k : Nat} {lowered : PipelineStep}
include h

theorem reads_lowerAll (hlowered : (lowerAll 0 input steps)[k]? = some lowered) :
    lowered.Reads reference ↔ reference = source 0 input steps k := by
  obtain ⟨step, hstep, rfl⟩ := Option.map_eq_some_iff.mp
    ((getElem?_lowerAll k).symm.trans hlowered)
  exact reads_lower (h step (List.mem_of_getElem? hstep))

theorem exists_source_lowerAll (input : String) (hk : k < steps.length) :
    ∃ lowered, (lowerAll 0 input steps)[k]? = some lowered ∧
      ∃ method, lowered.outputs.head? = some method ∧
        source 0 input steps (k + 1) = Reference.result k method := by
  have hstep : steps[k]? = some steps[k] := List.getElem?_eq_getElem hk
  refine ⟨_, (getElem?_lowerAll k).trans (congrArg _ hstep), steps[k].outputMethod,
    head?_outputs_lower (h _ (List.getElem_mem hk)) _, ?_⟩
  rw [source_succ hstep, Nat.zero_add]

end Chained

end Step

theorem Plan.lower_wellScoped_of_chained {hash : TextHash} {name description input : String}
    {steps : List Step} {plan : Plan} (h : ∀ step ∈ steps, step.Chained)
    (hassemble : assemble hash name description [input] steps = some plan) :
    plan.lower.WellScoped := by
  obtain ⟨last, hlast, rfl⟩ := Option.map_eq_some_iff.mp hassemble
  have hlength : (Step.lowerAll 0 (Reference.input 0) steps).length = steps.length :=
    Step.length_lowerAll
  have hpos : 0 < steps.length := List.length_pos_of_mem (List.mem_of_getLast? hlast)
  refine
    { bound := ?bound
      inputs_read := ?inputs_read
      steps_read := ?steps_read
      published := ?published }
  case bound =>
    intro k lowered reference hlowered hreads
    obtain rfl := (Step.reads_lowerAll h hlowered).mp hreads
    cases k with
    | zero => exact .inl ⟨0, Nat.one_pos, rfl⟩
    | succ n =>
        obtain ⟨hlt, -⟩ := List.getElem?_eq_some_iff.mp hlowered
        obtain ⟨source, hsource, method, hmethod, hresult⟩ :=
          Step.exists_source_lowerAll h (Reference.input 0) (Nat.lt_of_succ_lt (hlength ▸ hlt))
        exact .inr ⟨n, Nat.lt_succ_self n, source, hsource, method,
          List.mem_of_mem_head? hmethod, hresult⟩
  case inputs_read =>
    intro i hi
    obtain rfl : i = 0 := Nat.lt_one_iff.mp hi
    have hfirst := List.getElem?_eq_getElem (hlength ▸ hpos)
    exact ⟨_, List.mem_of_getElem? hfirst, (Step.reads_lowerAll h hfirst).mpr rfl⟩
  case steps_read =>
    intro j hj
    obtain ⟨source, hsource, method, hmethod, hresult⟩ :=
      Step.exists_source_lowerAll h (Reference.input 0) (Nat.lt_of_succ_lt (hlength ▸ hj))
    have hnext := List.getElem?_eq_getElem hj
    exact ⟨source, hsource, j + 1, _, Nat.lt_succ_self j, hnext, method,
      List.mem_of_mem_head? hmethod, (Step.reads_lowerAll h hnext).mpr hresult.symm⟩
  case published =>
    obtain ⟨source, hsource, method, hmethod, hresult⟩ :=
      Step.exists_source_lowerAll h (Reference.input 0) (Nat.sub_lt hpos Nat.one_pos)
    rw [Nat.sub_one_add_one_eq_of_pos hpos, Step.source_length hlast, Nat.zero_add] at hresult
    have hlowered : (Step.lowerAll 0 (Reference.input 0) steps).getLast? = some source := by
      rw [List.getLast?_eq_getElem?, hlength, hsource]
    have houtput : [PlanOutput.mk "outputs" (Reference.result (steps.length - 1)
        last.outputMethod)] =
        [⟨"outputs", Reference.result ((Step.lowerAll 0 (Reference.input 0) steps).length - 1)
          method⟩] := by
      rw [hresult, hlength]
    exact ⟨source, method, hlowered, hmethod, "outputs", houtput⟩

/-! Recipes. -/

namespace Recipe

variable {hash : TextHash} {name description : String} {r : Recipe} {plan : Plan}

/-- The recipes for all analyses, whatever they are asked to work on. -/
inductive IsOffered : Recipe → Prop
  | pcaFeatures : IsOffered pcaFeatures
  | simon : IsOffered simon
  | croc {targetColumns outputLabels r} (h : croc targetColumns outputLabels = .ok r) : IsOffered r
  | dataCleaning : IsOffered dataCleaning
  | unicorn {targetColumns outputLabels r} (h : unicorn targetColumns outputLabels = .ok r) :
      IsOffered r
  | sloth {timeColumn valueColumn vars r} (h : sloth timeColumn valueColumn vars = .ok r) :
      IsOffered r
  | duke : IsOffered duke
  | targetRanking {target vars r} (h : targetRanking target vars = .ok r) : IsOffered r
  | goatForward (placeColumn) : IsOffered (goatForward placeColumn)
  | goatReverse (latitudeColumn longitudeColumn) :
      IsOffered (goatReverse latitudeColumn longitudeColumn)
  | join {leftColumn rightColumn accuracy r} (h : join leftColumn rightColumn accuracy = .ok r) :
      IsOffered r
  | timeSeriesFormatter (mainResource fileIndex) :
      IsOffered (timeSeriesFormatter mainResource fileIndex)

theorem isOffered_of_template {t : Template} {parameters : Dictionary String}
    {vars : List Variable} (h : t.recipe parameters vars = .ok r) : r.IsOffered := by
  cases t with
  | pcaFeatures => exact Except.ok.inj h ▸ .pcaFeatures
  | simon => exact Except.ok.inj h ▸ .simon
  | croc => exact .croc h
  | dataCleaning => exact Except.ok.inj h ▸ .dataCleaning
  | unicorn => exact .unicorn h
  | sloth => exact .sloth h
  | duke => exact Except.ok.inj h ▸ .duke
  | targetRanking => exact .targetRanking h
  | goatForward => exact Except.ok.inj h ▸ .goatForward _
  | goatReverse => exact Except.ok.inj h ▸ .goatReverse _ _
  | join =>
      obtain ⟨accuracy, -, hjoin⟩ := bind_eq_ok.mp h
      exact .join hjoin
  | timeSeriesFormatter =>
      obtain ⟨index, -, hformatter⟩ := bind_eq_ok.mp h
      exact Except.ok.inj hformatter ▸ .timeSeriesFormatter _ _

structure IsChain (r : Recipe) : Prop where
  inputs : r.inputs = Plan.standardInputs
  steps : ∀ step ∈ r.steps, step.Chained

theorem chained_call (p : Primitive) : (Step.call p.call).Chained :=
  ⟨rfl, List.cons_ne_nil _ _⟩

theorem isChain_onTable {c : PrimitiveCall} (h : (Step.call c).Chained) : (onTable c).IsChain where
  inputs := rfl
  steps := by
    intro step hstep
    rcases List.mem_append.mp hstep with hstep | hstep
    · simp only [tableSteps, List.mem_cons, List.not_mem_nil, or_false] at hstep
      rcases hstep with rfl | rfl
      · exact chained_call _
      · exact chained_call _
    · exact List.mem_singleton.mp hstep ▸ h

theorem isChain_of_detector {primitive : Primitive} {targetColumns outputLabels : List String}
    (h : detector primitive targetColumns outputLabels = .ok r) : r.IsChain := by
  simp only [detector, bind_eq_ok, pure_eq_ok] at h
  obtain ⟨_, -, _, -, rfl⟩ := h
  exact isChain_onTable ⟨rfl, List.cons_ne_nil _ _⟩

theorem isChain_ofSteps {steps : List Step} (h : ∀ step ∈ steps, step.Chained) :
    (ofSteps steps).IsChain :=
  ⟨rfl, h⟩

theorem isChain_of_sloth {timeColumn valueColumn : String} {vars : List Variable}
    (h : sloth timeColumn valueColumn vars = .ok r) : r.IsChain := by
  simp only [sloth, bind_eq_ok, pure_eq_ok] at h
  obtain ⟨_, -, _, -, rfl⟩ := h
  refine isChain_ofSteps ?_
  simp only [List.forall_mem_cons]
  exact ⟨⟨rfl, List.cons_ne_nil _ _⟩, ⟨rfl, List.cons_ne_nil _ _⟩, ⟨rfl, List.cons_ne_nil _ _⟩,
    nofun⟩

theorem isChain_of_targetRanking {target : String} {vars : List Variable}
    (h : targetRanking target vars = .ok r) : r.IsChain := by
  simp only [targetRanking, bind_eq_ok, pure_eq_ok] at h
  obtain ⟨index, -, rfl⟩ := h
  refine isChain_ofSteps ?_
  simp only [List.forall_mem_cons, tableSteps, List.cons_append, List.nil_append]
  exact ⟨trivial, chained_call _, chained_call _, chained_call _, ⟨rfl, List.cons_ne_nil _ _⟩,
    nofun⟩

theorem isChain_timeSeriesFormatter (mainResource : String) (fileIndex : Nat) :
    (timeSeriesFormatter mainResource fileIndex).IsChain := by
  refine isChain_ofSteps ?_
  simp only [List.forall_mem_cons]
  exact ⟨⟨rfl, List.cons_ne_nil _ _⟩, chained_call _, nofun⟩

/-- Only joining reads anything but what the step before gives. -/
theorem IsOffered.isChain_or_join (h : r.IsOffered) :
    r.IsChain ∨ ∃ leftColumn rightColumn accuracy,
      Recipe.join leftColumn rightColumn accuracy = .ok r := by
  cases h with
  | pcaFeatures => exact .inl (isChain_onTable ⟨rfl, List.cons_ne_nil _ _⟩)
  | simon => exact .inl (isChain_onTable ⟨rfl, List.cons_ne_nil _ _⟩)
  | croc h => exact .inl (isChain_of_detector h)
  | dataCleaning => exact .inl (isChain_onTable (chained_call _))
  | unicorn h => exact .inl (isChain_of_detector h)
  | sloth h => exact .inl (isChain_of_sloth h)
  | duke => exact .inl (isChain_onTable (chained_call _))
  | targetRanking h => exact .inl (isChain_of_targetRanking h)
  | goatForward => exact .inl (isChain_onTable ⟨rfl, List.cons_ne_nil _ _⟩)
  | goatReverse => exact .inl (isChain_onTable ⟨rfl, List.cons_ne_nil _ _⟩)
  | join h => exact .inr ⟨_, _, _, h⟩
  | timeSeriesFormatter => exact .inl (isChain_timeSeriesFormatter _ _)

theorem plan_eq_ok :
    r.plan hash name description = .ok plan ↔
      Plan.assemble hash name description r.inputs r.steps = some plan := by
  unfold Recipe.plan
  cases Plan.assemble hash name description r.inputs r.steps with
  | none => exact iff_of_false nofun nofun
  | some made =>
      constructor
      · exact fun h => congrArg some (Except.ok.inj h)
      · exact fun h => congrArg Except.ok (Option.some.inj h)

end Recipe

theorem Plan.lower_wellScoped_of_join {hash : TextHash} {name description : String} {plan : Plan}
    {leftColumn rightColumn : String} {accuracy : Float} {r : Recipe}
    (hjoin : Recipe.join leftColumn rightColumn accuracy = .ok r)
    (hassemble : assemble hash name description r.inputs r.steps = some plan) :
    plan.lower.WellScoped := by
  unfold Recipe.join at hjoin
  split at hjoin
  · contradiction
  obtain rfl := Except.ok.inj hjoin
  obtain rfl := Option.some.inj hassemble
  refine
    { bound := ?bound
      inputs_read := ?inputs_read
      steps_read := ?steps_read
      published := ⟨_, "produce", rfl, rfl, "outputs", rfl⟩ }
  case bound =>
    intro k step reference hstep hreads
    rw [PipelineStep.reads_iff] at hreads
    match k, hstep with
    | 0, hstep =>
        obtain rfl := Option.some.inj hstep
        exact .inl ⟨0, Nat.two_pos, List.mem_singleton.mp hreads⟩
    | 1, hstep =>
        obtain rfl := Option.some.inj hstep
        exact .inl ⟨1, Nat.one_lt_two, List.mem_singleton.mp hreads⟩
    | 2, hstep =>
        obtain rfl := Option.some.inj hstep
        rcases List.mem_pair.mp hreads with rfl | rfl
        · exact .inr ⟨0, Nat.two_pos, _, rfl, "produce", List.mem_singleton_self _, rfl⟩
        · exact .inr ⟨1, Nat.one_lt_two, _, rfl, "produce", List.mem_singleton_self _, rfl⟩
    | _ + 3, hstep => cases hstep
  case inputs_read =>
    intro i hi
    match i, hi with
    | 0, _ => exact ⟨_, List.mem_of_getElem? (i := 0) rfl, "inputs", List.mem_singleton_self _⟩
    | 1, _ => exact ⟨_, List.mem_of_getElem? (i := 1) rfl, "inputs", List.mem_singleton_self _⟩
    | i + 2, hi => exact absurd hi (Nat.not_lt.mpr (Nat.le_add_left 2 i))
  case steps_read =>
    intro j hj
    match j, hj with
    | 0, _ =>
        exact ⟨_, rfl, 2, _, Nat.two_pos, rfl, "produce", List.mem_singleton_self _, "left",
          List.mem_cons_self⟩
    | 1, _ =>
        exact ⟨_, rfl, 2, _, Nat.one_lt_two, rfl, "produce", List.mem_singleton_self _, "right",
          List.mem_cons_of_mem _ List.mem_cons_self⟩
    | j + 2, hj => exact absurd hj (Nat.not_lt.mpr (Nat.le_add_left 3 j))

/-! All plans. -/

theorem Step.chained_ofRetypings {groups : List Retyping.Group} {dropped : List Nat}
    {resource : String} : ∀ step ∈ ofRetypings groups dropped resource, step.Chained := by
  intro step hstep
  rcases mem_ofRetypings.mp hstep with ⟨g, -, rfl⟩ | ⟨g, -, rfl⟩ | ⟨-, rfl⟩
  · trivial
  · trivial
  · trivial

namespace Plan

/-- The plan comes of a dataset's variables, of a template's parameters or of a recipe. -/
inductive IsMade (hash : TextHash) : Plan → Prop
  | compiled {registry name description vars target features resource plan}
      (h : compile hash registry name description vars target features resource =
        .ok (some plan)) : IsMade hash plan
  | built {t : Template} {name description parameters vars plan}
      (h : t.build hash name description parameters vars = .ok plan) : IsMade hash plan
  | offered {r : Recipe} {name description plan} (hr : r.IsOffered)
      (h : r.plan hash name description = .ok plan) : IsMade hash plan

theorem lower_wellScoped_of_offered {hash : TextHash} {name description : String} {r : Recipe}
    {plan : Plan} (hr : r.IsOffered) (h : r.plan hash name description = .ok plan) :
    plan.lower.WellScoped := by
  have hassemble := Recipe.plan_eq_ok.mp h
  rcases hr.isChain_or_join with hchain | ⟨_, _, _, hjoin⟩
  · rw [hchain.inputs] at hassemble
    exact lower_wellScoped_of_chained hchain.steps hassemble
  · exact lower_wellScoped_of_join hjoin hassemble

/-- In a pipeline every reference stands for something that comes before it, and nothing is left
unread but what is published. -/
theorem lower_wellScoped {hash : TextHash} {plan : Plan} (h : plan.IsMade hash) :
    plan.lower.WellScoped := by
  cases h with
  | compiled h =>
      obtain ⟨rs, -, hassemble⟩ := compile_eq_ok.mp h
      exact lower_wellScoped_of_chained Step.chained_ofRetypings hassemble
  | built h =>
      obtain ⟨_, -, hrecipe⟩ := bind_eq_ok.mp h
      obtain ⟨r, hr, hplan⟩ := bind_eq_ok.mp hrecipe
      exact lower_wellScoped_of_offered (Recipe.isOffered_of_template hr) hplan
  | offered hr h => exact lower_wellScoped_of_offered hr h

def joinParameters : Dictionary String :=
  .ofList [("left_column", "city"), ("right_column", "town"), ("accuracy", "0.5")]

theorem build_join :
    ∃ plan, Template.join.build (fun _ => "") "joined" "" joinParameters [] = .ok plan :=
  ⟨_, rfl⟩

theorem lower_wellScoped_joined :
    (∃ plan, Template.join.build (fun _ => "") "joined" "" joinParameters [] = .ok plan ∧
      plan.lower.WellScoped) ∧ swappingPlan.lower.WellScoped := by
  obtain ⟨plan, hbuild⟩ := build_join
  exact ⟨⟨plan, hbuild, lower_wellScoped (.built hbuild)⟩,
    lower_wellScoped (.compiled compile_swapping)⟩

end Plan

end DatasetPlan
