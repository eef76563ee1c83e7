import DatasetPlan.Proofs.Table.Basic

namespace DatasetPlan

open Retyping

namespace Variable

variable {v : Variable} {registry : Registry} {old new : String} {types : Finset String}

def retyped (registry : Registry) (v : Variable) (types : Finset String) : Finset String :=
  match registry.resolve v.type, registry.resolve v.originalType with
  | some new, some old => if new = old then types else (insert new types).erase old
  | _, _ => types

theorem retyped_of_resolves (h : v.Resolves registry old new) :
    v.retyped registry types = if new = old then types else (insert new types).erase old := by
  simp [retyped, h.current, h.original]

end Variable

/-- Columns of dropped variables go, those of kept variables are retyped, and columns that no
variable names stay as they are. -/
def Table.requested (registry : Registry) (vars : List Variable) (target : String)
    (features : List String) (t : Table) : Table :=
  t.zipIdx.filterMap fun (column, i) =>
    match vars.find? (·.index = i) with
    | some v =>
        if Selection.keeps target features v then
          some { column with types := v.retyped registry column.types }
        else none
    | none => some column

/-- The column of each kept variable is there and carries one of the variable's two types. -/
def Table.Typed (registry : Registry) (vars : List Variable) (target : String)
    (features : List String) (t : Table) : Prop :=
  ∀ v ∈ vars, Selection.keeps target features v = true →
    ∃ old new, v.Resolves registry old new ∧
      ∃ column ∈ t, column.origin = v.index ∧ (old ∈ column.types ∨ new ∈ column.types)

namespace Plan

variable {hash : TextHash} {registry : Registry} {name description : String}
  {vars : List Variable} {target : String} {features : List String} {resource : Option String}
  {plan : Plan}

section Changes

variable {rs : List Retyping}
  (h : ofVariables registry (Selection.ofVariables vars target features).kept = .ok rs)
  (hnodup : (vars.map (·.index)).Nodup) {v : Variable} (hv : v ∈ vars)
  (hkeeps : Selection.keeps target features v = true) {old new : String}
  (hresolves : v.Resolves registry old new)
include h hnodup hv hkeeps hresolves

theorem exists_group_index {p : String → String → Prop} :
    (∃ g ∈ Group.ofRetypings rs, v.index ∈ g.indices ∧ p g.old g.new) ↔
      p old new ∧ old ≠ new := by
  constructor
  · rintro ⟨g, hg, hi, hp⟩
    obtain ⟨hold, hnew, hne⟩ :=
      (mem_changes_index h hnodup hv hkeeps hresolves).mp ((Group.mem_indices hg).mp hi)
    exact ⟨hold ▸ hnew ▸ hp, hne⟩
  · rintro ⟨hp, hne⟩
    have hmem := (mem_changes_index h hnodup hv hkeeps hresolves).mpr ⟨rfl, rfl, hne⟩
    obtain ⟨g, hg, hi, htypes⟩ := (Group.exists_mem_indices (t := (old, new))).mpr hmem
    obtain ⟨rfl, rfl⟩ := Prod.ext_iff.mp htypes
    exact ⟨g, hg, hi, hp⟩

theorem mem_typesAt_new {type : String} :
    type ∈ Group.typesAt Group.new (Group.ofRetypings rs) v.index ↔ new = type ∧ old ≠ new :=
  Group.mem_typesAt.trans
    (exists_group_index (p := fun _ new => new = type) h hnodup hv hkeeps hresolves)

theorem mem_typesAt_old {type : String} :
    type ∈ Group.typesAt Group.old (Group.ofRetypings rs) v.index ↔ old = type ∧ old ≠ new :=
  Group.mem_typesAt.trans
    (exists_group_index (p := fun old _ => old = type) h hnodup hv hkeeps hresolves)

theorem typed_of_parts {added removed : List Group}
    (hremoved : removed ⊆ Group.ofRetypings rs)
    (horder : removed = [] ∨ added = Group.ofRetypings rs)
    {types : Finset String} (hold : old ∈ types) :
    old ∈ Group.typesAfter added removed v.index types ∨
      new ∈ Group.typesAfter added removed v.index types := by
  by_cases hgone : old ∈ Group.typesAt Group.old removed v.index
  -- The old type is gone, so some group took it away and all new types were there by then.
  · have hne : old ≠ new :=
      ((mem_typesAt_old h hnodup hv hkeeps hresolves).mp
        (Group.typesAt_mono hremoved hgone)).2
    have hadded : added = Group.ofRetypings rs := by
      rcases horder with rfl | hadded
      · simp at hgone
      · exact hadded
    have hnew : new ∈ Group.typesAt Group.new added v.index := by
      rw [hadded]
      exact (mem_typesAt_new h hnodup hv hkeeps hresolves).mpr ⟨rfl, hne⟩
    have hstays : new ∉ Group.typesAt Group.old removed v.index := fun hmem =>
      hne ((mem_typesAt_old h hnodup hv hkeeps hresolves).mp
        (Group.typesAt_mono hremoved hmem)).1
    exact .inr (Group.mem_typesAfter.mpr ⟨.inr hnew, hstays⟩)
  · exact .inl (Group.mem_typesAfter.mpr ⟨.inl hold, hgone⟩)

omit hresolves in
theorem types_changes_index (types : Finset String) :
    Group.typesAfter (Group.ofRetypings rs) (Group.ofRetypings rs) v.index types =
      v.retyped registry types := by
  obtain ⟨old, new, hresolves⟩ := resolves_of_keeps h hv hkeeps
  rw [Variable.retyped_of_resolves hresolves]
  ext type
  rw [Group.mem_typesAfter, mem_typesAt_new h hnodup hv hkeeps hresolves,
    mem_typesAt_old h hnodup hv hkeeps hresolves]
  by_cases hne : old = new
  · simp [hne]
  · simp [hne, Ne.symm hne, and_comm, or_comm, @eq_comm _ type]

end Changes

theorem types_changes_of_not_mem {rs : List Retyping} {i : Nat}
    (h : ofVariables registry (Selection.ofVariables vars target features).kept = .ok rs)
    (hi : ∀ v ∈ vars, v.index ≠ i) (types : Finset String) :
    Group.typesAfter (Group.ofRetypings rs) (Group.ofRetypings rs) i types = types := by
  apply Group.typesAfter_eq_self
  intro g hg hmem
  obtain ⟨v, hv, -, -, -, hindex⟩ := (mem_changes h).mp ((Group.mem_indices hg).mp hmem)
  exact hi v hv hindex

theorem run_ofRetypings {rs : List Retyping}
    (h : ofVariables registry (Selection.ofVariables vars target features).kept = .ok rs)
    (hnodup : (vars.map (·.index)).Nodup) (resource : Option String) (t : Table) :
    Step.run (Step.ofRetypings (Group.ofRetypings rs)
        (Selection.ofVariables vars target features).dropped
        (resource.getD defaultResource)) t =
      some (t.requested registry vars target features) := by
  rw [ofRetypings_changes h hnodup, Step.run_parts, Table.without_retype]
  apply congrArg
  apply List.filterMap_congr
  -- Both sides go through the columns; what matters is which variable names the place.
  rintro ⟨column, i⟩ _
  dsimp only
  cases hfind : vars.find? (·.index = i) with
  | none =>
      have hi : ∀ v ∈ vars, v.index ≠ i := by simpa using hfind
      have hdropped : i ∉ (Selection.ofVariables vars target features).dropped := by
        intro hmem
        obtain ⟨v, hv, -, hindex⟩ := Selection.mem_dropped.mp hmem
        exact hi v hv hindex
      simp only [hdropped, if_false, types_changes_of_not_mem h hi]
  | some v =>
      have hv : v ∈ vars := List.mem_of_find?_eq_some hfind
      obtain rfl : v.index = i := by simpa using List.find?_some hfind
      cases hkeeps : Selection.keeps target features v with
      | true =>
          simp only [Selection.index_not_mem_dropped hnodup hv hkeeps, if_false, if_true, hkeeps,
            types_changes_index h hnodup hv hkeeps]
      | false =>
          have hdropped : v.index ∈ (Selection.ofVariables vars target features).dropped :=
            Selection.mem_dropped.mpr ⟨v, hv, hkeeps, rfl⟩
          simp [hdropped, hkeeps]

/-- A plan does to any table just what the selection asks of it, and there is none only where
nothing is asked. -/
theorem compile_carries_out (hnodup : (vars.map (·.index)).Nodup) (t : Table) :
    (∀ plan, compile hash registry name description vars target features resource =
        .ok (some plan) →
      Step.run plan.steps t = some (t.requested registry vars target features)) ∧
    (compile hash registry name description vars target features resource = .ok none →
      t.requested registry vars target features = t) := by
  constructor
  · intro plan hcompile
    obtain ⟨rs, hrs, hassemble⟩ := compile_eq_ok.mp hcompile
    rw [(assemble_eq_some hassemble).1]
    exact run_ofRetypings hrs hnodup resource t
  · intro hcompile
    obtain ⟨rs, hrs, hassemble⟩ := compile_eq_ok.mp hcompile
    have hsteps := assemble_eq_none.mp hassemble
    have hrun := run_ofRetypings hrs hnodup resource t
    rw [hsteps, Step.run] at hrun
    exact (Option.some.inj hrun).symm

def swappingTypes : List (Finset String) := [
  {SemanticType.integer}, {SemanticType.text}, {SemanticType.categorical, SemanticType.text}, ∅,
  {SemanticType.categorical}]

theorem compile_carries_out_swapping :
    Step.run swappingPlan.steps (Table.ofTypes swappingTypes) = some [
      ⟨0, {SemanticType.categorical}⟩,
      ⟨2, {SemanticType.integer, SemanticType.text}⟩,
      ⟨3, ∅⟩,
      ⟨4, {SemanticType.categorical}⟩] :=
  ((compile_carries_out (by decide) _).1 _ compile_swapping).trans (by decide)

/-- However far a plan has come, each kept column still has a type of its variable; and a step
that changes types finds all columns in their places. -/
theorem compile_keeps_typed (hnodup : (vars.map (·.index)).Nodup)
    (hcompile : compile hash registry name description vars target features resource =
      .ok (some plan))
    (types : List (Finset String))
    (htyped : ∀ v ∈ vars, Selection.keeps target features v = true →
      ∀ old, registry.resolve v.originalType = some old →
        ∃ columnTypes, types[v.index]? = some columnTypes ∧ old ∈ columnTypes) :
    (∀ done, done <+: plan.steps →
      ∃ t, Step.run done (Table.ofTypes types) = some t ∧
        t.Typed registry vars target features) ∧
    (∀ done step rest, plan.steps = done ++ step :: rest → step.changesTypes = true →
      (∀ earlier ∈ done, earlier.changesTypes = true) ∧
        ∃ t, Step.run done (Table.ofTypes types) = some t ∧
          ∀ i ∈ step.columns, ∃ column, t[i]? = some column ∧ column.origin = i) := by
  obtain ⟨rs, hrs, hassemble⟩ := compile_eq_ok.mp hcompile
  have hsteps := (assemble_eq_some hassemble).1.trans (ofRetypings_changes hrs hnodup)
  constructor
  · intro done hdone
    rw [hsteps] at hdone
    -- What has been done is a plan of the same three parts, from beginnings of the groups.
    obtain ⟨added, removed, gone, rfl, -, hremoved, horder, hgone⟩ :=
      Step.eq_parts_of_prefix hdone
    refine ⟨_, Step.run_parts added removed _ gone _, ?_⟩
    intro v hv hkeeps
    obtain ⟨old, new, hresolves⟩ := resolves_of_keeps hrs hv hkeeps
    obtain ⟨columnTypes, hcolumn, hold⟩ := htyped v hv hkeeps old hresolves.original
    have hplace : v.index ∉ gone := by
      rcases hgone with rfl | rfl
      · exact List.not_mem_nil
      · exact Selection.index_not_mem_dropped hnodup hv hkeeps
    have hfound : ((Table.ofTypes types).retype (Group.typesAfter added removed))[v.index]? =
        some ⟨v.index, Group.typesAfter added removed v.index columnTypes⟩ := by
      rw [Table.getElem?_retype, Table.getElem?_ofTypes, hcolumn]
      rfl
    exact ⟨old, new, hresolves, _, Table.mem_without.mpr ⟨v.index, hfound, hplace⟩, rfl,
      typed_of_parts hrs hnodup hv hkeeps hresolves hremoved.subset horder hold⟩
  · intro done step rest hsplit hstep
    rw [hsteps] at hsplit
    obtain ⟨hmem, hearlier⟩ := Step.changesTypes_first hsplit hstep
    obtain ⟨f, hrun⟩ := Step.run_of_changesTypes hearlier (Table.ofTypes types)
    refine ⟨hearlier, _, hrun, ?_⟩
    intro i hi
    obtain ⟨-, g, hg, hcolumns⟩ := Step.exists_group_of_mem hmem
    obtain ⟨v, hv, hkeeps, hresolves, -, rfl⟩ :=
      (mem_changes hrs).mp ((Group.mem_indices hg).mp (hcolumns ▸ hi))
    obtain ⟨columnTypes, hcolumn, -⟩ := htyped v hv hkeeps g.old hresolves.original
    rw [Table.getElem?_retype, Table.getElem?_ofTypes, hcolumn]
    exact ⟨_, rfl, rfl⟩

theorem compile_keeps_typed_swapping :
    ∃ t, Step.run (swappingPlan.steps.take 3) (Table.ofTypes swappingTypes) = some t ∧
      t.Typed .standard swapping "y" ["x", "w"] := by
  refine (compile_keeps_typed (by decide) compile_swapping swappingTypes ?_).1 _
    (List.take_prefix 3 _)
  have htyped : ∀ v ∈ swapping, Selection.keeps "y" ["x", "w"] v = true →
      ∃ columnTypes ∈ swappingTypes[v.index]?, ∀ old ∈ Registry.standard.resolve v.originalType,
        old ∈ columnTypes := by decide
  intro v hv hkeeps old hold
  obtain ⟨columnTypes, hcolumn, hall⟩ := htyped v hv hkeeps
  exact ⟨columnTypes, hcolumn, hall old hold⟩

end Plan

end DatasetPlan
