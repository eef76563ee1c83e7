import DatasetPlan.Proofs.Compile
import Mathlib.Data.Finset.Basic
import Mathlib.Data.Finset.Dedup
import Mathlib.Data.Finset.Lattice.Lemmas

namespace DatasetPlan

/-! Tables: the columns of one resource, each with the semantic types it carries. -/

structure Column where
  /-- The place of the column in the table it comes from. No step reads it. -/
  origin : Nat
  types : Finset String
deriving DecidableEq

abbrev Table := List Column

namespace Table

variable {t : Table} {f g : Nat → Finset String → Finset String} {places : List Nat} {i : Nat}

def ofTypes (types : List (Finset String)) : Table :=
  types.mapIdx fun i columnTypes => ⟨i, columnTypes⟩

theorem getElem?_ofTypes (types : List (Finset String)) (i : Nat) :
    (ofTypes types)[i]? = types[i]?.map (Column.mk i) :=
  List.getElem?_mapIdx

def retype (f : Nat → Finset String → Finset String) (t : Table) : Table :=
  t.mapIdx fun i column => { column with types := f i column.types }

theorem getElem?_retype :
    (t.retype f)[i]? = t[i]?.map fun column => { column with types := f i column.types } :=
  List.getElem?_mapIdx

theorem retype_retype :
    (t.retype f).retype g = t.retype fun i types => g i (f i types) :=
  List.mapIdx_mapIdx

theorem retype_eq_self (h : ∀ i types, f i types = types) : t.retype f = t := by
  apply List.ext_getElem?
  intro i
  simp [getElem?_retype, h]

def without (places : List Nat) (t : Table) : Table :=
  (t.zipIdx.filter (·.2 ∉ places)).map Prod.fst

theorem mem_without {column : Column} :
    column ∈ t.without places ↔ ∃ i, t[i]? = some column ∧ i ∉ places := by
  simp [without, List.mem_zipIdx_iff_getElem?]

@[simp] theorem without_nil : t.without [] = t := by
  simp [without, List.zipIdx_map_fst]

theorem zipIdx_retype :
    (t.retype f).zipIdx =
      t.zipIdx.map fun (column, i) => ({ column with types := f i column.types }, i) := by
  apply List.ext_getElem?
  intro i
  rw [List.getElem?_zipIdx, getElem?_retype, List.getElem?_map, List.getElem?_zipIdx,
    Option.map_map, Option.map_map]
  simp [Function.comp_def]

theorem without_retype :
    (t.retype f).without places = t.zipIdx.filterMap fun (column, i) =>
      if i ∈ places then none else some { column with types := f i column.types } := by
  rw [without, zipIdx_retype, List.filter_map, List.map_map, ← List.filterMap_eq_map,
    List.filterMap_filter]
  apply List.filterMap_congr
  rintro ⟨column, i⟩ _
  by_cases hi : i ∈ places <;> simp [hi]

end Table

/-! What steps do to a table. -/

namespace Step

variable {steps : List Step} {t : Table}

/-- The effect of a step. What a call of another primitive does is not said here. -/
def apply : Step → Table → Option Table
  | addType columns type, t =>
      some (t.retype fun i types => if i ∈ columns then insert type types else types)
  | removeType columns type, t =>
      some (t.retype fun i types => if i ∈ columns then types.erase type else types)
  | removeColumns _ columns, t => some (t.without columns)
  | call _, _ => none

def run : List Step → Table → Option Table
  | [], t => some t
  | step :: steps, t => (step.apply t).bind (run steps)

theorem run_append (first second : List Step) (t : Table) :
    run (first ++ second) t = (run first t).bind (run second) := by
  induction first generalizing t with
  | nil => rfl
  | cons step first ih =>
      rw [List.cons_append, run, run, Option.bind_assoc]
      apply congrArg
      funext t'
      exact ih t'

theorem run_concat (first : List Step) (step : Step) (t : Table) :
    run (first ++ [step]) t = (run first t).bind step.apply := by
  rw [run_append]
  apply congrArg
  funext t'
  exact Option.bind_fun_some _

def columns : Step → List Nat
  | addType columns _ => columns
  | removeType columns _ => columns
  | removeColumns _ columns => columns
  | call _ => []

def changesTypes : Step → Bool
  | addType _ _ => true
  | removeType _ _ => true
  | _ => false

theorem run_of_changesTypes (h : ∀ step ∈ steps, step.changesTypes = true) (t : Table) :
    ∃ f, run steps t = some (t.retype f) := by
  induction steps generalizing t with
  | nil => exact ⟨fun _ types => types, by rw [run, Table.retype_eq_self fun _ _ => rfl]⟩
  | cons step steps ih =>
      obtain ⟨hstep, hsteps⟩ := List.forall_mem_cons.mp h
      obtain ⟨f, hf⟩ : ∃ f, step.apply t = some (t.retype f) := by
        cases step with
        | addType columns type => exact ⟨_, rfl⟩
        | removeType columns type => exact ⟨_, rfl⟩
        | removeColumns resource columns => contradiction
        | call c => contradiction
      obtain ⟨g, hg⟩ := ih hsteps (t.retype f)
      exact ⟨fun i types => g i (f i types), by
        rw [run, hf, Option.bind_some, hg, Table.retype_retype]⟩

end Step

/-! What groups of changes do to the types of a column. -/

namespace Retyping.Group

variable {label : Group → String} {groups : List Group} {i : Nat} {type : String}

def typesAt (label : Group → String) (groups : List Group) (i : Nat) : Finset String :=
  ((groups.filter (i ∈ ·.indices)).map label).toFinset

@[simp] theorem typesAt_nil (label : Group → String) (i : Nat) : typesAt label [] i = ∅ := rfl

theorem typesAt_cons (label : Group → String) (g : Group) (groups : List Group) (i : Nat) :
    typesAt label (g :: groups) i =
      if i ∈ g.indices then insert (label g) (typesAt label groups i)
      else typesAt label groups i := by
  by_cases hi : i ∈ g.indices <;> simp [typesAt, hi]

theorem mem_typesAt :
    type ∈ typesAt label groups i ↔ ∃ g ∈ groups, i ∈ g.indices ∧ label g = type := by
  simp [typesAt, and_assoc]

theorem typesAt_mono {others : List Group} (h : others ⊆ groups) :
    typesAt label others i ⊆ typesAt label groups i := by
  intro type htype
  obtain ⟨g, hg, hi, hlabel⟩ := mem_typesAt.mp htype
  exact mem_typesAt.mpr ⟨g, h hg, hi, hlabel⟩

theorem typesAt_eq_empty (h : ∀ g ∈ groups, i ∉ g.indices) : typesAt label groups i = ∅ := by
  apply Finset.eq_empty_of_forall_notMem
  intro type htype
  obtain ⟨g, hg, hi, -⟩ := mem_typesAt.mp htype
  exact h g hg hi

def typesAfter (added removed : List Group) (i : Nat) (types : Finset String) : Finset String :=
  (types ∪ typesAt new added i) \ typesAt old removed i

theorem mem_typesAfter {added removed : List Group} {types : Finset String} :
    type ∈ typesAfter added removed i types ↔
      (type ∈ types ∨ type ∈ typesAt new added i) ∧ type ∉ typesAt old removed i := by
  rw [typesAfter, Finset.mem_sdiff, Finset.mem_union]

theorem typesAfter_eq_self (h : ∀ g ∈ groups, i ∉ g.indices) (types : Finset String) :
    typesAfter groups groups i types = types := by
  rw [typesAfter, typesAt_eq_empty h, typesAt_eq_empty h, Finset.union_empty, Finset.sdiff_empty]

end Retyping.Group

namespace Step

open Retyping.Group

/-! What the parts of a plan do. -/

theorem run_map {step : Retyping.Group → Step}
    {one : Retyping.Group → Nat → Finset String → Finset String}
    {all : List Retyping.Group → Nat → Finset String → Finset String}
    (happly : ∀ g t, (step g).apply t = some (t.retype (one g)))
    (hnil : ∀ i types, all [] i types = types)
    (hcons : ∀ g groups i types, all (g :: groups) i types = all groups i (one g i types))
    (groups : List Retyping.Group) (t : Table) :
    run (groups.map step) t = some (t.retype (all groups)) := by
  induction groups generalizing t with
  | nil =>
      rw [Table.retype_eq_self hnil]
      rfl
  | cons g groups ih =>
      rw [List.map_cons, run, happly, Option.bind_some, ih, Table.retype_retype]
      congr 2
      funext i types
      exact (hcons g groups i types).symm

theorem run_additions (groups : List Retyping.Group) (t : Table) :
    run (additions groups) t = some (t.retype fun i types => types ∪ typesAt new groups i) := by
  apply run_map (fun _ _ => rfl) (by simp)
  intro g groups i types
  by_cases hi : i ∈ g.indices
  · simp only [typesAt_cons, hi, if_true, Finset.insert_union_comm]
  · simp [typesAt_cons, hi]

theorem run_removals (groups : List Retyping.Group) (t : Table) :
    run (removals groups) t = some (t.retype fun i types => types \ typesAt old groups i) := by
  apply run_map (fun _ _ => rfl) (by simp)
  intro g groups i types
  by_cases hi : i ∈ g.indices
  · simp [typesAt_cons, hi, Finset.sdiff_insert, Finset.erase_sdiff_comm]
  · simp [typesAt_cons, hi]

theorem run_drops (resource : String) (columns : List Nat) (t : Table) :
    run (drops resource columns) t = some (t.without columns) := by
  by_cases hcolumns : columns = []
  · rw [hcolumns, Table.without_nil]
    rfl
  · rw [drops_of_ne_nil hcolumns]
    rfl

theorem run_parts (added removed : List Retyping.Group) (resource : String) (gone : List Nat)
    (t : Table) :
    run (additions added ++ removals removed ++ drops resource gone) t =
      some ((t.retype (typesAfter added removed)).without gone) := by
  rw [run_append, run_append, run_additions, Option.bind_some, run_removals, Option.bind_some,
    run_drops, Table.retype_retype]
  rfl

/-! The beginnings of a plan. -/

theorem exists_group_of_mem {groups : List Retyping.Group} {step : Step}
    (h : step ∈ additions groups ++ removals groups) :
    step.changesTypes = true ∧ ∃ g ∈ groups, step.columns = g.indices := by
  rcases List.mem_append.mp h with h | h
  · obtain ⟨g, hg, rfl⟩ := List.mem_map.mp h
    exact ⟨rfl, g, hg, rfl⟩
  · obtain ⟨g, hg, rfl⟩ := List.mem_map.mp h
    exact ⟨rfl, g, hg, rfl⟩

theorem changesTypes_of_mem_drops {resource : String} {dropped : List Nat} {step : Step}
    (h : step ∈ drops resource dropped) : step.changesTypes = false := by
  have hne : dropped ≠ [] := by
    rintro rfl
    exact List.not_mem_nil h
  rw [drops_of_ne_nil hne, List.mem_singleton] at h
  rw [h]
  rfl

theorem changesTypes_first {groups : List Retyping.Group} {resource : String}
    {dropped : List Nat} {done rest : List Step} {step : Step}
    (h : additions groups ++ removals groups ++ drops resource dropped = done ++ step :: rest)
    (hstep : step.changesTypes = true) :
    step ∈ additions groups ++ removals groups ∧
      ∀ earlier ∈ done, earlier.changesTypes = true := by
  rcases List.append_eq_append_iff.mp h with ⟨early, _, hdrops⟩ | ⟨late, hparts, hrest⟩
  · have hmem : step ∈ drops resource dropped := by
      rw [hdrops]
      simp
    rw [changesTypes_of_mem_drops hmem] at hstep
    contradiction
  · cases late with
    | nil =>
        have hmem : step ∈ drops resource dropped := by
          rw [← List.nil_append (drops resource dropped), ← hrest]
          simp
        rw [changesTypes_of_mem_drops hmem] at hstep
        contradiction
    | cons first late =>
        obtain ⟨rfl, -⟩ := List.cons.inj hrest
        rw [hparts]
        refine ⟨by simp, ?_⟩
        intro earlier hearlier
        exact (exists_group_of_mem (hparts ▸ List.mem_append_left _ hearlier)).1

private theorem prefix_append_cases {done first second : List Step}
    (h : done <+: first ++ second) :
    done <+: first ∨ ∃ rest, done = first ++ rest ∧ rest <+: second := by
  obtain ⟨tail, htail⟩ := h
  rcases List.append_eq_append_iff.mp htail with ⟨rest, hfirst, _⟩ | ⟨rest, hdone, hsecond⟩
  · exact .inl ⟨rest, hfirst.symm⟩
  · exact .inr ⟨rest, hdone, tail, hsecond.symm⟩

private theorem eq_drops_of_prefix {resource : String} {dropped : List Nat} {done : List Step}
    (h : done <+: drops resource dropped) :
    ∃ gone, done = drops resource gone ∧ (gone = [] ∨ gone = dropped) := by
  by_cases hdropped : dropped = []
  · subst hdropped
    exact ⟨[], List.prefix_nil.mp h, .inl rfl⟩
  · rw [drops_of_ne_nil hdropped] at h
    rcases List.prefix_cons_iff.mp h with rfl | ⟨rest, rfl, hrest⟩
    · exact ⟨[], rfl, .inl rfl⟩
    · rw [List.prefix_nil.mp hrest]
      exact ⟨dropped, (drops_of_ne_nil hdropped).symm, .inr rfl⟩

/-- A plan that stops early has added every new type before it removes an old one. -/
theorem eq_parts_of_prefix {groups : List Retyping.Group} {resource : String}
    {dropped : List Nat} {done : List Step}
    (h : done <+: additions groups ++ removals groups ++ drops resource dropped) :
    ∃ added removed gone,
      done = additions added ++ removals removed ++ drops resource gone ∧
        added <+: groups ∧ removed <+: groups ∧ (removed = [] ∨ added = groups) ∧
        (gone = [] ∨ gone = dropped) := by
  rcases prefix_append_cases h with h | ⟨rest, rfl, hrest⟩
  · rcases prefix_append_cases h with h | ⟨rest, rfl, hrest⟩
    · obtain ⟨added, hadded, rfl⟩ := List.prefix_map_iff.mp h
      exact ⟨added, [], [], by simp [additions, removals, drops], hadded, List.nil_prefix,
        .inl rfl, .inl rfl⟩
    · obtain ⟨removed, hremoved, rfl⟩ := List.prefix_map_iff.mp hrest
      exact ⟨groups, removed, [], by simp [removals, drops], List.prefix_refl _, hremoved,
        .inr rfl, .inl rfl⟩
  · obtain ⟨gone, rfl, hgone⟩ := eq_drops_of_prefix hrest
    exact ⟨groups, groups, gone, rfl, List.prefix_refl _, List.prefix_refl _, .inr rfl, hgone⟩

end Step

end DatasetPlan
