import DatasetPlan.Proofs.Compile
import DatasetPlan.Proofs.Pipeline.Engine
import Mathlib.Data.List.Pairwise

namespace DatasetPlan

namespace HyperValue

variable {columns : List Nat} {i j : Nat}

theorem clamped_le_clamped (h : i ≤ j) : clamped i ≤ clamped j := by
  rw [Int64.le_iff_toInt_le, toInt_clamped, toInt_clamped]
  omega

theorem clamped_lt_clamped : clamped i < clamped j ↔ i < j ∧ i < indexLimit := by
  rw [Int64.lt_iff_toInt_lt, toInt_clamped, toInt_clamped]
  omega

def ToldApart (columns : List Nat) : Prop :=
  ∀ i ∈ columns, ∀ j ∈ columns, indexLimit ≤ i → indexLimit ≤ j → i = j

theorem toldApart_nil : ToldApart [] :=
  fun _ hi => absurd hi List.not_mem_nil

theorem toldApart_ascending : ToldApart (ascending columns) ↔ ToldApart columns := by
  simp only [ToldApart, mem_ascending]

theorem pairwise_clamped_le (h : columns.Pairwise (· < ·)) :
    (columns.map clamped).Pairwise (· ≤ ·) := by
  apply List.pairwise_map.mpr
  apply h.imp
  intro i j hlt
  exact clamped_le_clamped (Nat.le_of_lt hlt)

theorem pairwise_clamped_lt (h : columns.Pairwise (· < ·)) :
    (columns.map clamped).Pairwise (· < ·) ↔ ToldApart columns := by
  rw [List.pairwise_map]
  constructor
  · intro hclamped
    -- Only the last column may reach the limit: of any two, the one in front is before it.
    have : Std.Symm fun i j : Nat => indexLimit ≤ i → indexLimit ≤ j → i = j :=
      ⟨fun _ _ heq hj hi => (heq hi hj).symm⟩
    apply List.Pairwise.forall_of_forall
    · intro i _ _ _
      rfl
    · apply hclamped.imp
      intro i j hlt hi _
      exact absurd (clamped_lt_clamped.mp hlt).2 (Nat.not_lt.mpr hi)
  · intro hapart
    apply h.imp_of_mem
    intro i j hi hj hlt
    apply clamped_lt_clamped.mpr
    refine ⟨hlt, ?_⟩
    by_contra hlimit
    have hle : indexLimit ≤ i := Nat.not_lt.mp hlimit
    have heq : i = j := hapart i hi j hj hle (Nat.le_trans hle (Nat.le_of_lt hlt))
    exact absurd hlt (heq ▸ Nat.lt_irrefl i)

end HyperValue

def columnParameters : List String := ["add_columns", "remove_columns", "columns"]

/-- All lists of columns are lists of integers that stand in the order. -/
def PipelineStep.ColumnsOrdered (order : Int64 → Int64 → Prop) (step : PipelineStep) : Prop :=
  ∀ parameter ∈ columnParameters, ∀ value, step.hyperparameters.find? parameter = some value →
    ∃ ints, value.asInts? = some ints ∧ ints.Pairwise order

namespace Step

open HyperValue

variable {order : Int64 → Int64 → Prop} {step : Step} {steps : List Step} {input : String}

theorem columnsOrdered_typeUpdate {addColumns removeColumns : List Nat}
    {addTypes removeTypes : List String} :
    (typeUpdate input addColumns addTypes removeColumns removeTypes).ColumnsOrdered order ↔
      (addColumns.map clamped).Pairwise order ∧ (removeColumns.map clamped).Pairwise order := by
  have hadd : (typeUpdate input addColumns addTypes removeColumns removeTypes).hyperparameters.find?
      "add_columns" = some (ofIndices addColumns) := rfl
  have hremove :
      (typeUpdate input addColumns addTypes removeColumns removeTypes).hyperparameters.find?
        "remove_columns" = some (ofIndices removeColumns) := rfl
  have hother :
      (typeUpdate input addColumns addTypes removeColumns removeTypes).hyperparameters.find?
        "columns" = none := rfl
  simp [PipelineStep.ColumnsOrdered, columnParameters, hadd, hremove, hother, asInts?_ofIndices]

theorem columnsOrdered_lower (h : step.asCall? = none) :
    (step.lower input).ColumnsOrdered order ↔ (step.columns.map clamped).Pairwise order := by
  cases step with
  | addType columns type => simp [lower, columnsOrdered_typeUpdate, Step.columns]
  | removeType columns type => simp [lower, columnsOrdered_typeUpdate, Step.columns]
  | removeColumns resource columns =>
      have hadd : ((removeColumns resource columns).lower input).hyperparameters.find?
          "add_columns" = none := rfl
      have hremove : ((removeColumns resource columns).lower input).hyperparameters.find?
          "remove_columns" = none := rfl
      have hcolumns : ((removeColumns resource columns).lower input).hyperparameters.find?
          "columns" = some (ofIndices columns) := rfl
      simp [PipelineStep.ColumnsOrdered, columnParameters, hadd, hremove, hcolumns,
        asInts?_ofIndices, Step.columns]
  | call c => contradiction

theorem columnsOrdered_lowerAll (h : ∀ step ∈ steps, step.asCall? = none) (index : Nat) :
    (∀ lowered ∈ lowerAll index input steps, lowered.ColumnsOrdered order) ↔
      ∀ step ∈ steps, (step.columns.map clamped).Pairwise order := by
  induction steps generalizing index input with
  | nil => simp [lowerAll]
  | cons step steps ih =>
      obtain ⟨hstep, hsteps⟩ := List.forall_mem_cons.mp h
      rw [lowerAll, List.forall_mem_cons, List.forall_mem_cons, columnsOrdered_lower hstep,
        ih hsteps]

variable {groups : List Retyping.Group} {dropped : List Nat} {resource : String}

theorem asCall?_ofRetypings : ∀ step ∈ ofRetypings groups dropped resource, step.asCall? = none := by
  intro step hstep
  rcases mem_ofRetypings.mp hstep with ⟨g, -, rfl⟩ | ⟨g, -, rfl⟩ | ⟨-, rfl⟩
  · rfl
  · rfl
  · rfl

theorem pairwise_columns_ofRetypings :
    ∀ step ∈ ofRetypings groups dropped resource, step.columns.Pairwise (· < ·) := by
  intro step hstep
  rcases mem_ofRetypings.mp hstep with ⟨g, -, rfl⟩ | ⟨g, -, rfl⟩ | ⟨-, rfl⟩
  · exact pairwise_ascending g.indices
  · exact pairwise_ascending g.indices
  · exact pairwise_ascending dropped

theorem toldApart_ofRetypings :
    (∀ step ∈ ofRetypings groups dropped resource, ToldApart step.columns) ↔
      (∀ g ∈ groups, ToldApart g.indices) ∧ ToldApart dropped := by
  constructor
  · intro hsteps
    constructor
    · intro g hg
      exact toldApart_ascending.mp (hsteps _ (mem_ofRetypings.mpr (.inl ⟨g, hg, rfl⟩)))
    · by_cases hdropped : dropped = []
      · exact hdropped ▸ toldApart_nil
      · exact toldApart_ascending.mp
          (hsteps _ (mem_ofRetypings.mpr (.inr (.inr ⟨hdropped, rfl⟩))))
  · intro hparts step hstep
    rcases mem_ofRetypings.mp hstep with ⟨g, hg, rfl⟩ | ⟨g, hg, rfl⟩ | ⟨-, rfl⟩
    · exact toldApart_ascending.mpr (hparts.1 g hg)
    · exact toldApart_ascending.mpr (hparts.1 g hg)
    · exact toldApart_ascending.mpr hparts.2

end Step

inductive Variable.ListedTogether (registry : Registry) (target : String)
    (features : List String) (v w : Variable) : Prop
  | dropped (hv : Selection.keeps target features v = false)
      (hw : Selection.keeps target features w = false)
  | retyped {old new} (hv : Selection.keeps target features v = true)
      (hw : Selection.keeps target features w = true) (hne : old ≠ new)
      (hvtypes : v.Resolves registry old new) (hwtypes : w.Resolves registry old new)

namespace Plan

open HyperValue Retyping

variable {hash : TextHash} {registry : Registry} {name description : String}
  {vars : List Variable} {target : String} {features : List String} {resource : Option String}
  {rs : List Retyping} {plan : Plan}

theorem toldApart_changes
    (h : ofVariables registry (Selection.ofVariables vars target features).kept = .ok rs) :
    ((∀ g ∈ Group.ofRetypings rs, ToldApart g.indices) ∧
        ToldApart (Selection.ofVariables vars target features).dropped) ↔
      ∀ v ∈ vars, ∀ w ∈ vars, v.ListedTogether registry target features w →
        indexLimit ≤ v.index → indexLimit ≤ w.index → v.index = w.index := by
  constructor
  · intro hapart v hv w hw htogether
    cases htogether with
    | dropped hvkeeps hwkeeps =>
        exact hapart.2 _ (Selection.mem_dropped.mpr ⟨v, hv, hvkeeps, rfl⟩) _
          (Selection.mem_dropped.mpr ⟨w, hw, hwkeeps, rfl⟩)
    | @retyped old new hvkeeps hwkeeps hne hvtypes hwtypes =>
        have hvmem : ⟨v.index, old, new⟩ ∈ rs :=
          (mem_changes h).mpr ⟨v, hv, hvkeeps, hvtypes, hne, rfl⟩
        have hwmem : ⟨w.index, old, new⟩ ∈ rs :=
          (mem_changes h).mpr ⟨w, hw, hwkeeps, hwtypes, hne, rfl⟩
        have hgroup : Group.gather rs (old, new) ∈ Group.ofRetypings rs :=
          Group.mem_ofRetypings.mpr ⟨_, hvmem, rfl⟩
        exact hapart.1 _ hgroup _ (Group.mem_gather_indices.mpr hvmem) _
          (Group.mem_gather_indices.mpr hwmem)
  · intro hvars
    constructor
    · intro g hg i hi j hj
      obtain ⟨v, hv, hvkeeps, hvtypes, hne, rfl⟩ :=
        (mem_changes h).mp ((Group.mem_indices hg).mp hi)
      obtain ⟨w, hw, hwkeeps, hwtypes, -, rfl⟩ :=
        (mem_changes h).mp ((Group.mem_indices hg).mp hj)
      exact hvars v hv w hw (.retyped hvkeeps hwkeeps hne hvtypes hwtypes)
    · intro i hi j hj
      obtain ⟨v, hv, hvkeeps, rfl⟩ := Selection.mem_dropped.mp hi
      obtain ⟨w, hw, hwkeeps, rfl⟩ := Selection.mem_dropped.mp hj
      exact hvars v hv w hw (.dropped hvkeeps hwkeeps)

/-- Columns are listed in ascending order. One of them is repeated just when two variables of one
list stand where their indices are no longer told apart. -/
theorem compile_lower_ascending
    (hcompile : compile hash registry name description vars target features resource =
      .ok (some plan)) :
    (∀ lowered ∈ plan.lower.steps, lowered.ColumnsOrdered (· ≤ ·)) ∧
    ((∀ lowered ∈ plan.lower.steps, lowered.ColumnsOrdered (· < ·)) ↔
      ∀ v ∈ vars, ∀ w ∈ vars, v.ListedTogether registry target features w →
        indexLimit ≤ v.index → indexLimit ≤ w.index → v.index = w.index) := by
  obtain ⟨rs, hrs, hassemble⟩ := compile_eq_ok.mp hcompile
  rw [lower, (assemble_eq_some hassemble).1]
  simp only [Step.columnsOrdered_lowerAll Step.asCall?_ofRetypings]
  constructor
  · intro step hstep
    exact pairwise_clamped_le (Step.pairwise_columns_ofRetypings step hstep)
  · rw [← toldApart_changes hrs, ← Step.toldApart_ofRetypings]
    apply forall₂_congr
    intro step hstep
    exact pairwise_clamped_lt (Step.pairwise_columns_ofRetypings step hstep)

def farOut : List Variable := [
  { name := "x", type := "integer", originalType := "integer", index := 0 },
  { name := "y", type := "real", originalType := "real", index := 9223372036854775807 },
  { name := "z", type := "real", originalType := "real", index := 9223372036854775808 }]

theorem compile_farOut :
    ∃ plan, compile (fun _ => "") .standard "clamped" "" farOut "x" [] none = .ok (some plan) ∧
      plan.steps = [.removeColumns "0" [9223372036854775807, 9223372036854775808]] := by
  have hselection : Selection.ofVariables farOut "x" [] =
      ⟨[farOut[0]], [9223372036854775807, 9223372036854775808]⟩ :=
    Selection.ofVariables_of_pairwise (by decide)
  have hunchanged : ofVariables .standard [farOut[0]] = .ok [] := rfl
  obtain ⟨plan, hcompile, hsteps⟩ := exists_compile (fun _ => "") "clamped" "" none hselection
    hunchanged (List.cons_ne_nil _ _)
  rw [Step.ofRetypings_eq (by simp [Group.ofRetypings]) (by decide)] at hsteps
  exact ⟨plan, hcompile, hsteps⟩

theorem compile_lower_ascending_farOut :
    (∀ lowered ∈ swappingPlan.lower.steps, lowered.ColumnsOrdered (· < ·)) ∧
    ∃ plan, compile (fun _ => "") .standard "clamped" "" farOut "x" [] none = .ok (some plan) ∧
      (∀ lowered ∈ plan.lower.steps, lowered.ColumnsOrdered (· ≤ ·)) ∧
      ¬∀ lowered ∈ plan.lower.steps, lowered.ColumnsOrdered (· < ·) := by
  obtain ⟨plan, hcompile, -⟩ := compile_farOut
  have hswapping : ∀ v ∈ swapping, v.index < indexLimit := by decide
  refine ⟨(compile_lower_ascending compile_swapping).2.mpr ?_, plan, hcompile,
    (compile_lower_ascending hcompile).1, ?_⟩
  · intro v hv w _ _ hlimit
    exact absurd (hswapping v hv) (Nat.not_lt.mpr hlimit)
  · intro hstrict
    have hequal := (compile_lower_ascending hcompile).2.mp hstrict farOut[1] (by simp [farOut])
      farOut[2] (by simp [farOut]) (.dropped rfl rfl) (by decide) (by decide)
    exact absurd hequal (by decide)

theorem compile_lower_repeats :
    ¬∀ (hash : TextHash) (name description : String) (vars : List Variable) (target : String)
      (features : List String) (resource : Option String) (plan : Plan),
      (vars.map (·.index)).Nodup → (∀ v ∈ vars, v.index < Width.span 64) →
      compile hash .standard name description vars target features resource = .ok (some plan) →
      ∀ lowered ∈ plan.lower.steps, lowered.ColumnsOrdered (· < ·) := by
  intro hall
  obtain ⟨plan, hcompile, hsteps⟩ := compile_farOut
  have hordered := hall _ _ _ farOut _ _ _ plan (by decide) (by decide) hcompile
  rw [lower, hsteps, Step.columnsOrdered_lowerAll (by simp [Step.asCall?]),
    List.forall_mem_singleton] at hordered
  have hapart : ToldApart [9223372036854775807, 9223372036854775808] :=
    (pairwise_clamped_lt (by decide)).mp hordered
  have hequal := hapart 9223372036854775807 (by decide) 9223372036854775808 (by decide)
    (by decide) (by decide)
  exact absurd hequal (by decide)

end Plan

end DatasetPlan
