import DatasetPlan.Proofs.Grouping

namespace DatasetPlan

/-! The three parts of a plan. -/

namespace Step

open Retyping

def additions (groups : List Group) : List Step :=
  groups.map fun g => addType g.indices g.new

def removals (groups : List Group) : List Step :=
  groups.map fun g => removeType g.indices g.old

def drops (resource : String) (columns : List Nat) : List Step :=
  if columns.isEmpty then [] else [removeColumns resource columns]

theorem drops_eq_nil {resource : String} {columns : List Nat} :
    drops resource columns = [] ↔ columns = [] := by
  cases columns <;> simp [drops]

theorem drops_of_ne_nil {resource : String} {columns : List Nat} (h : columns ≠ []) :
    drops resource columns = [removeColumns resource columns] := by
  simp [drops, h]

theorem ofRetypings_eq_nil {groups : List Group} {dropped : List Nat} {resource : String} :
    ofRetypings groups dropped resource = [] ↔ groups = [] ∧ dropped = [] := by
  cases dropped <;> simp [ofRetypings]

theorem mem_ofRetypings {groups : List Group} {dropped : List Nat} {resource : String}
    {step : Step} :
    step ∈ ofRetypings groups dropped resource ↔
      (∃ g ∈ groups, step = addType (ascending g.indices) g.new) ∨
        (∃ g ∈ groups, step = removeType (ascending g.indices) g.old) ∨
          dropped ≠ [] ∧ step = removeColumns resource (ascending dropped) := by
  cases dropped <;> simp [ofRetypings, eq_comm]

theorem removeColumns_mem_ofRetypings {groups : List Group} {dropped columns : List Nat}
    {resource other : String} :
    removeColumns other columns ∈ ofRetypings groups dropped resource ↔
      dropped ≠ [] ∧ other = resource ∧ columns = ascending dropped := by
  simp [mem_ofRetypings]

theorem ofRetypings_eq {groups : List Group} {dropped : List Nat} {resource : String}
    (hgroups : ∀ g ∈ groups, g.indices.Pairwise (· < ·)) (hdropped : dropped.Pairwise (· < ·)) :
    ofRetypings groups dropped resource =
      additions groups ++ removals groups ++ drops resource dropped := by
  have hadditions : groups.map (fun g => addType (ascending g.indices) g.new) =
      additions groups :=
    List.map_congr_left fun g hg => by rw [ascending_of_pairwise (hgroups g hg)]
  have hremovals : groups.map (fun g => removeType (ascending g.indices) g.old) =
      removals groups :=
    List.map_congr_left fun g hg => by rw [ascending_of_pairwise (hgroups g hg)]
  rw [ofRetypings, hadditions, hremovals, ascending_of_pairwise hdropped, drops]

end Step

namespace Plan

open Retyping

variable {hash : TextHash} {registry : Registry} {name description : String}
  {vars : List Variable} {target : String} {features : List String} {resource : Option String}
  {inputs : List String} {steps : List Step} {plan : Plan}

/-! From steps to a plan and back. -/

theorem assemble_eq_none : assemble hash name description inputs steps = none ↔ steps = [] := by
  simp [assemble]

theorem exists_assemble (hash : TextHash) (name description : String) (inputs : List String)
    (h : steps ≠ []) : ∃ plan, assemble hash name description inputs steps = some plan :=
  Option.ne_none_iff_exists'.mp (mt assemble_eq_none.mp h)

theorem assemble_eq_some (h : assemble hash name description inputs steps = some plan) :
    plan.steps = steps ∧ ∃ last, steps.getLast? = some last ∧
      plan.outputs = [⟨"outputs", Reference.result (steps.length - 1) last.outputMethod⟩] := by
  obtain ⟨last, hlast, rfl⟩ := Option.map_eq_some_iff.mp h
  exact ⟨rfl, last, hlast, rfl⟩

theorem assemble_identity (h : assemble hash name description inputs steps = some plan) :
    plan.name = name ∧ plan.id = Digest.ofPlan hash plan.name plan.steps := by
  obtain ⟨last, -, rfl⟩ := Option.map_eq_some_iff.mp h
  exact ⟨rfl, rfl⟩

theorem compile_eq_ok {outcome : Option Plan} :
    compile hash registry name description vars target features resource = .ok outcome ↔
      ∃ rs, ofVariables registry (Selection.ofVariables vars target features).kept = .ok rs ∧
        assemble hash name description standardInputs
          (Step.ofRetypings (Group.ofRetypings rs)
            (Selection.ofVariables vars target features).dropped
            (resource.getD defaultResource)) = outcome := by
  simp only [compile, bind_eq_ok, pure_eq_ok]

theorem compile_eq_error {e : PlanError} :
    compile hash registry name description vars target features resource = .error e ↔
      (Selection.ofVariables vars target features).kept.findSome? (Variable.refusal? registry) =
        some e := by
  simp only [compile, bind_eq_error, pure_ne_error, and_false, exists_false, or_false,
    ofVariables_eq_error]

theorem exists_compile {kept : List Variable} {dropped : List Nat} {rs : List Retyping}
    (hash : TextHash) (name description : String) (resource : Option String)
    (hselection : Selection.ofVariables vars target features = ⟨kept, dropped⟩)
    (hrs : ofVariables registry kept = .ok rs) (hdropped : dropped ≠ []) :
    ∃ plan, compile hash registry name description vars target features resource =
        .ok (some plan) ∧
      plan.steps =
        Step.ofRetypings (Group.ofRetypings rs) dropped (resource.getD defaultResource) := by
  have hne : Step.ofRetypings (Group.ofRetypings rs) dropped (resource.getD defaultResource) ≠ [] :=
    fun hnil => hdropped (Step.ofRetypings_eq_nil.mp hnil).2
  obtain ⟨plan, hplan⟩ := exists_assemble hash name description standardInputs hne
  refine ⟨plan, compile_eq_ok.mpr ⟨rs, ?_, ?_⟩, (assemble_eq_some hplan).1⟩
  · rw [hselection]
    exact hrs
  · rw [hselection]
    exact hplan

theorem compile_removeColumns {id : String} {columns : List Nat}
    (hcompile : compile hash registry name description vars target features resource =
      .ok (some plan))
    (hstep : .removeColumns id columns ∈ plan.steps) :
    id = resource.getD defaultResource ∧ columns ≠ [] ∧
      ∀ i, i ∈ columns ↔
        ∃ v ∈ vars, Selection.keeps target features v = false ∧ v.index = i := by
  obtain ⟨rs, -, hassemble⟩ := compile_eq_ok.mp hcompile
  rw [(assemble_eq_some hassemble).1, Step.removeColumns_mem_ofRetypings] at hstep
  obtain ⟨hdropped, hid, rfl⟩ := hstep
  obtain ⟨i, hi⟩ := List.exists_mem_of_ne_nil _ hdropped
  exact ⟨hid, List.ne_nil_of_mem (mem_ascending.mpr hi),
    fun i => mem_ascending.trans Selection.mem_dropped⟩

/-! The kept variables that change, once every label is known. -/

section Changes

variable {rs : List Retyping}
  (h : ofVariables registry (Selection.ofVariables vars target features).kept = .ok rs)
include h

theorem mem_changes {i : Nat} {old new : String} :
    ⟨i, old, new⟩ ∈ rs ↔ ∃ v ∈ vars, Selection.keeps target features v = true ∧
      v.Resolves registry old new ∧ old ≠ new ∧ v.index = i := by
  simp only [mem_ofVariables h, Selection.mem_kept, and_assoc]

theorem resolves_of_keeps {v : Variable} (hv : v ∈ vars)
    (hkeeps : Selection.keeps target features v = true) :
    ∃ old new, v.Resolves registry old new :=
  resolves_of_mem h (Selection.mem_kept.mpr ⟨hv, hkeeps⟩)

theorem exists_resolves_of_group {g : Group} (hg : g ∈ Group.ofRetypings rs) :
    ∃ v : Variable, v.Resolves registry g.old g.new := by
  obtain ⟨i, hi⟩ := List.exists_mem_of_ne_nil _ (Group.indices_ne_nil hg)
  obtain ⟨v, -, -, hresolves, -⟩ := (mem_changes h).mp ((Group.mem_indices hg).mp hi)
  exact ⟨v, hresolves⟩

variable (hnodup : (vars.map (·.index)).Nodup)
include hnodup

theorem pairwise_changes : (rs.map (·.index)).Pairwise (· < ·) :=
  (Selection.pairwise_kept hnodup).sublist (indices_sublist h)

theorem resolves_of_mem_changes {v : Variable} (hv : v ∈ vars) {old new : String}
    (hmem : ⟨v.index, old, new⟩ ∈ rs) : v.Resolves registry old new := by
  obtain ⟨w, hw, -, hresolves, -, hindex⟩ := (mem_changes h).mp hmem
  exact Selection.eq_of_index_eq hnodup hw hv hindex ▸ hresolves

/-- A kept variable changes just when its types differ, and then between them. -/
theorem mem_changes_index {v : Variable} (hv : v ∈ vars)
    (hkeeps : Selection.keeps target features v = true) {old new : String}
    (hresolves : v.Resolves registry old new) {old' new' : String} :
    ⟨v.index, old', new'⟩ ∈ rs ↔ old' = old ∧ new' = new ∧ old ≠ new := by
  constructor
  · intro hmem
    obtain ⟨rfl, rfl⟩ := (resolves_of_mem_changes h hnodup hv hmem).unique hresolves
    obtain ⟨_, _, _, _, hne, _⟩ := (mem_changes h).mp hmem
    exact ⟨rfl, rfl, hne⟩
  · rintro ⟨rfl, rfl, hne⟩
    exact (mem_changes h).mpr ⟨v, hv, hkeeps, hresolves, hne, rfl⟩

theorem ofRetypings_changes :
    Step.ofRetypings (Group.ofRetypings rs) (Selection.ofVariables vars target features).dropped
        (resource.getD defaultResource) =
      Step.additions (Group.ofRetypings rs) ++ Step.removals (Group.ofRetypings rs) ++
        Step.drops (resource.getD defaultResource)
          (Selection.ofVariables vars target features).dropped :=
  Step.ofRetypings_eq (fun _ hg => Group.pairwise_indices (pairwise_changes h hnodup) hg)
    (Selection.pairwise_dropped vars target features)

end Changes

/-! The shape of a plan. -/

/-- Every group's new type is added, then every group's old one is removed, then columns go. -/
structure HasShape (registry : Registry) (vars : List Variable) (target : String)
    (features : List String) (resource : String) (groups : List Group)
    (removal steps : List Step) : Prop where
  steps_eq : steps = Step.additions groups ++ Step.removals groups ++ removal
  nodup_types : (groups.map fun g => (g.old, g.new)).Nodup
  old_ne_new : ∀ g ∈ groups, g.old ≠ g.new
  nonempty : ∀ g ∈ groups, g.indices ≠ []
  ascending : ∀ g ∈ groups, g.indices.Pairwise (· < ·)
  disjoint : groups.Pairwise fun g g' => g.indices.Disjoint g'.indices
  head_lt : groups.Pairwise fun g g' => ∀ i ∈ g.indices.head?, ∀ j ∈ g'.indices.head?, i < j
  /-- The groups hold just the kept variables whose types differ. -/
  mem_iff : ∀ i, (∃ g ∈ groups, i ∈ g.indices) ↔
    ∃ v ∈ vars, Selection.keeps target features v = true ∧ v.index = i ∧
      ∃ old new, v.Resolves registry old new ∧ old ≠ new
  /-- Each of them stands in the group of its own types. -/
  resolves : ∀ g ∈ groups, ∀ v ∈ vars, Selection.keeps target features v = true →
    v.index ∈ g.indices → v.Resolves registry g.old g.new
  removal_eq_nil : removal = [] ↔ ∀ v ∈ vars, Selection.keeps target features v = true
  removal_eq : removal = [] ∨ ∃ columns, removal = [.removeColumns resource columns] ∧
    columns.Pairwise (· < ·) ∧
    (∀ i, i ∈ columns ↔
      ∃ v ∈ vars, Selection.keeps target features v = false ∧ v.index = i) ∧
    ∀ g ∈ groups, g.indices.Disjoint columns

theorem compile_hasShape (hnodup : (vars.map (·.index)).Nodup)
    (hcompile : compile hash registry name description vars target features resource =
      .ok (some plan)) :
    ∃ groups removal, HasShape registry vars target features (resource.getD defaultResource)
      groups removal plan.steps := by
  obtain ⟨rs, hrs, hassemble⟩ := compile_eq_ok.mp hcompile
  obtain ⟨hsteps, -⟩ := assemble_eq_some hassemble
  have hascending := pairwise_changes hrs hnodup
  refine ⟨Group.ofRetypings rs,
    Step.drops (resource.getD defaultResource) (Selection.ofVariables vars target features).dropped,
    { steps_eq := hsteps.trans (ofRetypings_changes hrs hnodup)
      nodup_types := Group.nodup_types rs
      old_ne_new := ?old_ne_new
      nonempty := fun _ hg => Group.indices_ne_nil hg
      ascending := fun _ hg => Group.pairwise_indices hascending hg
      disjoint := Group.pairwise_disjoint hascending
      head_lt := Group.pairwise_head hascending
      mem_iff := ?mem_iff
      resolves := fun g hg v hv _ hindex =>
        resolves_of_mem_changes hrs hnodup hv ((Group.mem_indices hg).mp hindex)
      removal_eq_nil := ?removal_eq_nil
      removal_eq := ?removal_eq }⟩
  case old_ne_new =>
    intro g hg
    obtain ⟨i, hi⟩ := List.exists_mem_of_ne_nil _ (Group.indices_ne_nil hg)
    obtain ⟨_, _, _, _, hne, _⟩ := (mem_changes hrs).mp ((Group.mem_indices hg).mp hi)
    exact hne
  case mem_iff =>
    intro i
    constructor
    · rintro ⟨g, hg, hi⟩
      obtain ⟨v, hv, hkeeps, hresolves, hne, hindex⟩ :=
        (mem_changes hrs).mp ((Group.mem_indices hg).mp hi)
      exact ⟨v, hv, hkeeps, hindex, g.old, g.new, hresolves, hne⟩
    · rintro ⟨v, hv, hkeeps, hindex, old, new, hresolves, hne⟩
      have hmem : ⟨i, old, new⟩ ∈ rs :=
        (mem_changes hrs).mpr ⟨v, hv, hkeeps, hresolves, hne, hindex⟩
      obtain ⟨g, hg, hi, -⟩ := (Group.exists_mem_indices (t := (old, new))).mpr hmem
      exact ⟨g, hg, hi⟩
  case removal_eq_nil =>
    rw [Step.drops_eq_nil, Selection.dropped_eq_nil]
  case removal_eq =>
    by_cases hdropped : (Selection.ofVariables vars target features).dropped = []
    · exact .inl (Step.drops_eq_nil.mpr hdropped)
    · refine .inr ⟨_, Step.drops_of_ne_nil hdropped,
        Selection.pairwise_dropped vars target features, fun i => Selection.mem_dropped, ?_⟩
      intro g hg i hi hidropped
      obtain ⟨v, hv, hkeeps, -, -, rfl⟩ := (mem_changes hrs).mp ((Group.mem_indices hg).mp hi)
      exact Selection.index_not_mem_dropped hnodup hv hkeeps hidropped

/-! A dataset of which two columns swap their types. -/

def swapping : List Variable := [
  { name := "x", type := "categorical", originalType := "integer", index := 0 },
  { name := "z", type := "scribble", index := 1 },
  { name := "y", type := "integer", originalType := "categorical", index := 2 },
  { name := "w", type := "city", originalType := "ordinal", index := 4 }]

def swappingPlan : Plan where
  id := ""
  name := "swapping"
  description := ""
  inputs := ["inputs"]
  outputs := [⟨"outputs", "steps.4.produce"⟩]
  steps := [
    .addType [0] SemanticType.categorical,
    .addType [2] SemanticType.integer,
    .removeType [0] SemanticType.integer,
    .removeType [2] SemanticType.categorical,
    .removeColumns "0" [1]]

theorem compile_swapping :
    compile (fun _ => "") .standard "swapping" "" swapping "y" ["x", "w"] none =
      .ok (some swappingPlan) := by
  have hselection : Selection.ofVariables swapping "y" ["x", "w"] =
      ⟨[swapping[0], swapping[2], swapping[3]], [1]⟩ :=
    Selection.ofVariables_of_pairwise (by decide)
  refine compile_eq_ok.mpr ⟨[⟨0, SemanticType.integer, SemanticType.categorical⟩,
    ⟨2, SemanticType.categorical, SemanticType.integer⟩], ?_, ?_⟩
  · rw [hselection]
    rfl
  · rw [hselection, Step.ofRetypings_eq (by decide) (by decide)]
    rfl

theorem compile_hasShape_swapping :
    ∃ groups removal, HasShape .standard swapping "y" ["x", "w"] "0" groups removal
      swappingPlan.steps :=
  compile_hasShape (by decide) compile_swapping

end Plan

end DatasetPlan
