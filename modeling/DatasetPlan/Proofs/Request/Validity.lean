import DatasetPlan.Request.Problem
import Mathlib.Data.Finset.Card
import Mathlib.Data.List.Nodup

namespace DatasetPlan.Request

structure IsValid (r : Request) : Prop where
  name : r.name ≠ ""
  vars : r.vars ≠ []
  indices : (r.vars.map (·.index)).Nodup
  names : (r.vars.map (·.name)).Nodup
  features : ∀ feature ∈ r.features, ∃ v ∈ r.vars, v.name = feature ∧ v.deleted = false

namespace Problem

variable {vars earlier : List Variable} {v w : Variable} {feature : String}

theorem ofVariable_nil (v : Variable) : ofVariable [] v = [] := rfl

theorem ofKey_cons_eq_nil {κ : Type} [DecidableEq κ] {key : Variable → κ} {problem : κ → Problem} :
    ofKey key problem (w :: earlier) v = [] ↔
      key w ≠ key v ∧ ofKey key problem earlier v = [] := by
  simp [ofKey]

theorem ofVariable_cons_eq_nil :
    ofVariable (w :: earlier) v = [] ↔
      (w.index ≠ v.index ∧ w.name ≠ v.name) ∧ ofVariable earlier v = [] := by
  simp only [ofVariable, List.append_eq_nil_iff, ofKey_cons_eq_nil]
  exact and_and_and_comm

theorem ofVariables_eq_nil :
    ofVariables earlier vars = [] ↔
      (vars.map (·.index)).Nodup ∧ (vars.map (·.name)).Nodup ∧
        ∀ v ∈ vars, ofVariable earlier v = [] := by
  induction vars generalizing earlier with
  | nil => simp [ofVariables]
  | cons v vars ih =>
      rw [ofVariables, List.append_eq_nil_iff, ih]
      simp only [ofVariable_cons_eq_nil, List.map_cons, List.nodup_cons, List.forall_mem_cons,
        List.mem_map, not_exists, not_and]
      constructor
      · rintro ⟨hv, hindices, hnames, hrest⟩
        exact ⟨⟨fun w hw heq => (hrest w hw).1.1 heq.symm, hindices⟩,
          ⟨fun w hw heq => (hrest w hw).1.2 heq.symm, hnames⟩, hv, fun w hw => (hrest w hw).2⟩
      · rintro ⟨⟨hindex, hindices⟩, ⟨hname, hnames⟩, hv, hrest⟩
        exact ⟨hv, hindices, hnames, fun w hw =>
          ⟨⟨fun heq => hindex w hw heq.symm, fun heq => hname w hw heq.symm⟩, hrest w hw⟩⟩

theorem ofFeature_eq_none (hnames : (vars.map (·.name)).Nodup) :
    ofFeature vars feature = none ↔ ∃ v ∈ vars, v.name = feature ∧ v.deleted = false := by
  unfold ofFeature
  cases hfind : vars.find? (·.name = feature) with
  | none =>
      refine iff_of_false nofun ?_
      rintro ⟨v, hv, hname, -⟩
      exact absurd hname (by simpa using List.find?_eq_none.mp hfind v hv)
  | some w =>
      have hw : w ∈ vars := List.mem_of_find?_eq_some hfind
      have hname : w.name = feature := by simpa using List.find?_some hfind
      have hdeleted : (if w.deleted then some (deletedFeature feature) else none) = none ↔
          w.deleted = false := by simp
      rw [hdeleted]
      constructor
      · exact fun hw' => ⟨w, hw, hname, hw'⟩
      · rintro ⟨v, hv, hvname, hv'⟩
        exact List.inj_on_of_nodup_map hnames hw hv (hname.trans hvname.symm) ▸ hv'

def isRepeatedIndex : Problem → Bool
  | repeatedIndex _ => true
  | _ => false

def isRepeatedName : Problem → Bool
  | repeatedName _ => true
  | _ => false

section Counting

variable {κ : Type} [DecidableEq κ] {key : Variable → κ} {p : Problem → Bool}

/-- Where a key that has come before is a problem, each key is free of it once. -/
theorem countP_ofVariables
    (hp : ∀ earlier v, (ofVariable earlier v).countP p = if key v ∈ earlier.map key then 1 else 0)
    (earlier vars : List Variable) :
    (ofVariables earlier vars).countP p + ((vars ++ earlier).map key).toFinset.card =
      vars.length + (earlier.map key).toFinset.card := by
  induction vars generalizing earlier with
  | nil => simp [ofVariables]
  | cons v vars ih =>
      have hkeys : ((v :: vars ++ earlier).map key).toFinset =
          ((vars ++ v :: earlier).map key).toFinset :=
        List.toFinset_eq_of_perm _ _ (List.perm_middle.symm.map key)
      have hrest := ih (v :: earlier)
      rw [List.map_cons, List.toFinset_cons] at hrest
      rw [ofVariables, List.countP_append, hp, hkeys, List.length_cons]
      by_cases hseen : key v ∈ earlier.map key
      · rw [Finset.insert_eq_of_mem (List.mem_toFinset.mpr hseen)] at hrest
        rw [if_pos hseen]
        omega
      · rw [Finset.card_insert_of_notMem (mt List.mem_toFinset.mp hseen)] at hrest
        rw [if_neg hseen]
        omega

variable {problem : κ → Problem}

theorem countP_ofKey (hp : ∀ k, p (problem k) = true) (earlier : List Variable) (v : Variable) :
    (ofKey key problem earlier v).countP p = if key v ∈ earlier.map key then 1 else 0 := by
  simp only [ofKey, List.any_eq_true, decide_eq_true_eq, List.mem_map]
  split
  · simp [hp]
  · rfl

theorem countP_ofKey_eq_zero (hp : ∀ k, p (problem k) = false) (earlier : List Variable)
    (v : Variable) : (ofKey key problem earlier v).countP p = 0 := by
  unfold ofKey
  split
  · simp [hp]
  · rfl

theorem countP_ofVariables_eq_zero (hindex : ∀ index, p (repeatedIndex index) = false)
    (hname : ∀ name, p (repeatedName name) = false) : (ofVariables earlier vars).countP p = 0 := by
  induction vars generalizing earlier with
  | nil => rfl
  | cons v vars ih =>
      rw [ofVariables, List.countP_append, ih, ofVariable, List.countP_append,
        countP_ofKey_eq_zero hindex, countP_ofKey_eq_zero hname]

theorem countP_ofFeatures_eq_zero {features : List String}
    (hunknown : ∀ name, p (unknownFeature name) = false)
    (hdeleted : ∀ name, p (deletedFeature name) = false) :
    (features.filterMap (ofFeature vars)).countP p = 0 := by
  rw [List.countP_filterMap, List.countP_eq_zero]
  intro feature _
  unfold ofFeature
  split
  · simp [hunknown]
  · split <;> simp [hdeleted]

end Counting

theorem ofFeature_eq_unknownFeature {name : String} :
    ofFeature vars feature = some (unknownFeature name) ↔
      feature = name ∧ feature ∉ vars.map (·.name) := by
  unfold ofFeature
  cases hfind : vars.find? (·.name = feature) with
  | none =>
      have hmissing : feature ∉ vars.map (·.name) := by simpa using hfind
      simp [hmissing]
  | some v =>
      have hnamed : feature ∈ vars.map (·.name) :=
        List.mem_map.mpr ⟨v, List.mem_of_find?_eq_some hfind, by simpa using List.find?_some hfind⟩
      simp [hnamed]

theorem count_unknownFeature (vars : List Variable) (features : List String) (name : String) :
    (features.filterMap (ofFeature vars)).count (unknownFeature name) =
      if name ∈ vars.map (·.name) then 0 else features.count name := by
  rw [List.count_filterMap, List.count]
  split
  · next hnamed =>
      rw [List.countP_eq_zero]
      intro feature _ hfeature
      obtain ⟨rfl, hmissing⟩ := ofFeature_eq_unknownFeature.mp (eq_of_beq hfeature)
      exact hmissing hnamed
  · next hmissing =>
      refine List.countP_congr fun feature _ => ?_
      rw [beq_iff_eq, beq_iff_eq, ofFeature_eq_unknownFeature]
      constructor
      · exact And.left
      · rintro rfl
        exact ⟨rfl, hmissing⟩

end Problem

theorem problems_eq_nil {r : Request} : r.problems = [] ↔ r.IsValid := by
  simp only [problems, List.append_eq_nil_iff, Problem.ofVariables_eq_nil,
    List.filterMap_eq_nil_iff]
  constructor
  · rintro ⟨⟨⟨hname, hvars⟩, hindices, hnames, -⟩, hfeatures⟩
    exact
      { name := by simpa using hname
        vars := by simpa using hvars
        indices := hindices
        names := hnames
        features := fun feature hfeature =>
          (Problem.ofFeature_eq_none hnames).mp (hfeatures feature hfeature) }
  · rintro ⟨hname, hvars, hindices, hnames, hfeatures⟩
    refine ⟨⟨⟨?_, ?_⟩, hindices, hnames, fun v _ => Problem.ofVariable_nil v⟩, ?_⟩
    · simpa using hname
    · simpa using hvars
    · exact fun feature hfeature =>
        (Problem.ofFeature_eq_none hnames).mpr (hfeatures feature hfeature)

theorem countP_problems {r : Request} {p : Problem → Bool} (hname : p .emptyName = false)
    (hvars : p .noVariables = false) :
    r.problems.countP p = (Problem.ofVariables [] r.vars).countP p +
      (r.features.filterMap (Problem.ofFeature r.vars)).countP p := by
  rw [problems, List.countP_append, List.countP_append, List.countP_append]
  split <;> split <;> simp [hname, hvars]

/-- No problems are found exactly when the request is valid; otherwise each variable with an index or
a name that came before is one of its kind, and so is each mention of a feature without a variable. -/
theorem problems_exact (r : Request) :
    (r.problems = [] ↔ r.IsValid) ∧
      r.problems.countP Problem.isRepeatedIndex + (r.vars.map (·.index)).toFinset.card =
        r.vars.length ∧
      r.problems.countP Problem.isRepeatedName + (r.vars.map (·.name)).toFinset.card =
        r.vars.length ∧
      ∀ feature, r.problems.count (.unknownFeature feature) =
        if feature ∈ r.vars.map (·.name) then 0 else r.features.count feature := by
  refine ⟨problems_eq_nil, ?indices, ?names, fun feature => ?features⟩
  case indices =>
    have hvars := Problem.countP_ofVariables (p := Problem.isRepeatedIndex) (fun earlier v => by
      rw [Problem.ofVariable, List.countP_append, Problem.countP_ofKey (fun _ => rfl),
        Problem.countP_ofKey_eq_zero (fun _ => rfl), Nat.add_zero]) [] r.vars
    rw [countP_problems rfl rfl,
      Problem.countP_ofFeatures_eq_zero (fun _ => rfl) (fun _ => rfl)]
    simpa using hvars
  case names =>
    have hvars := Problem.countP_ofVariables (p := Problem.isRepeatedName) (fun earlier v => by
      rw [Problem.ofVariable, List.countP_append, Problem.countP_ofKey_eq_zero (fun _ => rfl),
        Problem.countP_ofKey (fun _ => rfl), Nat.zero_add]) [] r.vars
    rw [countP_problems rfl rfl,
      Problem.countP_ofFeatures_eq_zero (fun _ => rfl) (fun _ => rfl)]
    simpa using hvars
  case features =>
    rw [List.count, countP_problems (by simp) (by simp),
      Problem.countP_ofVariables_eq_zero (by simp) (by simp), Nat.zero_add]
    exact Problem.count_unknownFeature r.vars r.features feature

end DatasetPlan.Request
