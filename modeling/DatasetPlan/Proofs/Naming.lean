import DatasetPlan.Dataset.Variable
import Mathlib.Data.List.Induction
import Mathlib.Data.List.Infix
import Mathlib.Data.List.Nodup

namespace DatasetPlan.Variable

variable {existing : List Variable} {name : String}

theorem countNamed_eq_count (existing : List Variable) (name : String) :
    countNamed existing name = (existing.map (·.name)).count name := by
  rw [countNamed, List.count, List.countP_map]
  rfl

theorem distinctName_of_not_mem (h : normalizeName name ∉ existing.map (·.name)) :
    distinctName name existing = normalizeName name := by
  simp only [distinctName, countNamed_eq_count, List.count_eq_zero_of_not_mem h, if_true]

theorem distinctName_of_mem (hnodup : (existing.map (·.name)).Nodup)
    (h : normalizeName name ∈ existing.map (·.name)) :
    distinctName name existing = normalizeName name ++ "_1" := by
  simp only [distinctName, countNamed_eq_count, List.count_eq_one_of_mem hnodup h,
    Nat.one_ne_zero, if_false, String.append_assoc]
  rfl

/-- Both the normalized name and the first name with a suffix are in use. -/
def IsBlocked (existing : List Variable) (name : String) : Prop :=
  normalizeName name ∈ existing.map (·.name) ∧
    normalizeName name ++ "_1" ∈ existing.map (·.name)

theorem distinctName_mem_iff (hnodup : (existing.map (·.name)).Nodup) :
    distinctName name existing ∈ existing.map (·.name) ↔ IsBlocked existing name := by
  by_cases h : normalizeName name ∈ existing.map (·.name)
  · rw [distinctName_of_mem hnodup h, IsBlocked, and_iff_right h]
  · rw [distinctName_of_not_mem h, IsBlocked]
    exact ⟨fun hmem => absurd hmem h, And.left⟩

/-- Each variable is made among those before it. -/
def createAll (proposals : List Proposal) : List Variable :=
  proposals.foldl (fun made proposal => made ++ [create proposal made true]) []

@[simp] theorem createAll_nil : createAll [] = [] := rfl

@[simp] theorem createAll_concat (before : List Proposal) (proposal : Proposal) :
    createAll (before ++ [proposal]) =
      createAll before ++ [create proposal (createAll before) true] := by
  simp [createAll]

theorem map_name_createAll_concat (before : List Proposal) (proposal : Proposal) :
    (createAll (before ++ [proposal])).map (·.name) =
      (createAll before).map (·.name) ++ [distinctName proposal.name (createAll before)] := by
  simp [create]

theorem createAll_within {made proposals : List Proposal} (h : made <+: proposals) :
    createAll made <+: createAll proposals := by
  obtain ⟨rest, rfl⟩ := h
  induction rest using List.reverseRecOn with
  | nil => simp
  | append_singleton rest proposal ih =>
      rw [← List.append_assoc, createAll_concat]
      exact ih.trans (List.prefix_append _ _)

theorem nodup_createAll_concat {before : List Proposal} {proposal : Proposal} :
    ((createAll (before ++ [proposal])).map (·.name)).Nodup ↔
      ((createAll before).map (·.name)).Nodup ∧
        ¬IsBlocked (createAll before) proposal.name := by
  rw [map_name_createAll_concat, ← List.concat_eq_append, List.nodup_concat, and_comm]
  exact and_congr_right fun hnodup => not_congr (distinctName_mem_iff hnodup)

/-- The names stay distinct as long as no blocked name is asked for. -/
theorem nodup_createAll_iff (proposals : List Proposal) :
    ((createAll proposals).map (·.name)).Nodup ↔
      ∀ before proposal, before ++ [proposal] <+: proposals →
        ¬IsBlocked (createAll before) proposal.name := by
  induction proposals using List.reverseRecOn with
  | nil => simp
  | append_singleton before proposal ih =>
      rw [nodup_createAll_concat, ih]
      constructor
      · rintro ⟨hbefore, hlast⟩ earlier next hwithin
        rcases List.prefix_concat_iff.mp hwithin with heq | hshorter
        · obtain ⟨rfl, rfl⟩ : earlier = before ∧ next = proposal := by simpa using heq
          exact hlast
        · exact hbefore earlier next hshorter
      · intro hall
        exact ⟨fun earlier next hwithin =>
            hall earlier next (hwithin.trans (List.prefix_append _ _)),
          hall before proposal (List.prefix_refl _)⟩

def normalizedNames (proposals : List Proposal) : List String :=
  proposals.map fun proposal => normalizeName proposal.name

@[simp] theorem normalizedNames_concat (before : List Proposal) (proposal : Proposal) :
    normalizedNames (before ++ [proposal]) =
      normalizedNames before ++ [normalizeName proposal.name] := by
  simp [normalizedNames]

/-- No normalized name comes a third time, and none looks as if it had got a suffix from
another. -/
structure OneSuffixSuffices (proposals : List Proposal) : Prop where
  count_le : ∀ name, (normalizedNames proposals).count name ≤ 2
  unsuffixed : ∀ name ∈ normalizedNames proposals, name ++ "_1" ∉ normalizedNames proposals

namespace OneSuffixSuffices

variable {proposals before : List Proposal} {proposal : Proposal}

theorem of_concat (h : OneSuffixSuffices (before ++ [proposal])) : OneSuffixSuffices before where
  count_le stem := by
    have hle := h.count_le stem
    rw [normalizedNames_concat, List.count_append] at hle
    exact Nat.le_of_add_right_le hle
  unsuffixed stem hstem hsuffixed :=
    h.unsuffixed stem (by simp [hstem]) (by simp [hsuffixed])

theorem count_last_le (h : OneSuffixSuffices (before ++ [proposal])) :
    (normalizedNames before).count (normalizeName proposal.name) ≤ 1 := by
  simpa using h.count_le (normalizeName proposal.name)

theorem count_concat_eq_two (h : OneSuffixSuffices (before ++ [proposal])) {stem : String} :
    (normalizedNames (before ++ [proposal])).count stem = 2 ↔
      (normalizedNames before).count stem = 2 ∨
        stem = normalizeName proposal.name ∧
          normalizeName proposal.name ∈ normalizedNames before := by
  rw [normalizedNames_concat, List.count_append, List.count_singleton]
  by_cases hstem : stem = normalizeName proposal.name
  · have hle := h.count_last_le
    subst hstem
    simp only [← List.count_pos_iff, beq_self_eq_true, if_true, true_and]
    omega
  · simp [hstem, Ne.symm hstem]

theorem nodup_createAll (h : OneSuffixSuffices proposals) :
    ((createAll proposals).map (·.name)).Nodup ∧
      ∀ name, name ∈ (createAll proposals).map (·.name) ↔
        name ∈ normalizedNames proposals ∨
          ∃ stem, name = stem ++ "_1" ∧ (normalizedNames proposals).count stem = 2 := by
  induction proposals using List.reverseRecOn with
  | nil => simp [normalizedNames]
  | append_singleton before proposal ih =>
      obtain ⟨hnodup, hmem⟩ := ih h.of_concat
      have hused : normalizeName proposal.name ∈ (createAll before).map (·.name) ↔
          normalizeName proposal.name ∈ normalizedNames before := by
        rw [hmem, or_iff_left_iff_imp]
        rintro ⟨stem, hstem, htwice⟩
        have hmemstem : stem ∈ normalizedNames before :=
          List.count_pos_iff.mp (htwice ▸ Nat.zero_lt_two)
        exact absurd (by simp [← hstem]) (h.unsuffixed stem (by simp [hmemstem]))
      have hfree : normalizeName proposal.name ++ "_1" ∉ (createAll before).map (·.name) := by
        rw [hmem]
        rintro (hsuffixed | ⟨stem, hstem, htwice⟩)
        · exact h.unsuffixed (normalizeName proposal.name) (by simp) (by simp [hsuffixed])
        · obtain rfl := (String.append_left_inj _).mp hstem
          have hle := h.count_last_le
          omega
      refine ⟨nodup_createAll_concat.mpr ⟨hnodup, fun hblocked => hfree hblocked.2⟩, ?_⟩
      intro name
      simp only [h.count_concat_eq_two]
      rw [map_name_createAll_concat, normalizedNames_concat, List.mem_append, List.mem_append,
        hmem, List.mem_singleton, List.mem_singleton]
      by_cases hlast : normalizeName proposal.name ∈ normalizedNames before
      · rw [distinctName_of_mem hnodup (hused.mpr hlast)]
        grind
      · rw [distinctName_of_not_mem (mt hused.mp hlast)]
        grind

end OneSuffixSuffices

/-- Names stay distinct while no blocked one is asked for, and so they do where one suffix
suffices. -/
theorem createAll_distinct_iff (proposals : List Proposal) :
    ((∀ made, made <+: proposals → ((createAll made).map (·.name)).Nodup) ↔
      ∀ before proposal, before ++ [proposal] <+: proposals →
        ¬IsBlocked (createAll before) proposal.name) ∧
    (OneSuffixSuffices proposals →
      ∀ made, made <+: proposals → ((createAll made).map (·.name)).Nodup) := by
  have hall : ((createAll proposals).map (·.name)).Nodup ↔
      ∀ made, made <+: proposals → ((createAll made).map (·.name)).Nodup := by
    constructor
    · intro hnodup made hmade
      exact hnodup.sublist ((createAll_within hmade).sublist.map _)
    · intro hwithines
      exact hwithines proposals (List.prefix_refl _)
  exact ⟨hall.symm.trans (nodup_createAll_iff proposals),
    fun hsuffices => hall.mp hsuffices.nodup_createAll.1⟩

def asking (names : List String) : List Proposal :=
  names.map fun name => { name := name }

theorem createAll_distinct_iff_doubled :
    OneSuffixSuffices (asking ["a b", "c", "a.b"]) ∧
      ((createAll (asking ["a b", "c", "a.b"])).map (·.name)).Nodup := by
  have hsuffices : OneSuffixSuffices (asking ["a b", "c", "a.b"]) := by
    have hnames : normalizedNames (asking ["a b", "c", "a.b"]) = ["a_b", "c", "a_b"] := by decide
    refine ⟨fun name => ?_, by rw [hnames]; decide⟩
    rw [hnames]
    by_cases hname : name = "c"
    · subst hname
      decide
    · simp only [List.count_cons, List.count_nil]
      grind
  exact ⟨hsuffices, (createAll_distinct_iff _).2 hsuffices _ (List.prefix_refl _)⟩

theorem createAll_repeats :
    ¬∀ proposals made : List Proposal, made <+: proposals →
      ((createAll made).map (·.name)).Nodup := by
  intro hdistinct
  have hnodup := hdistinct (asking ["a", "a", "a"]) _ (List.prefix_refl _)
  exact absurd hnodup (by decide)

end DatasetPlan.Variable
