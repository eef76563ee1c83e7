import DatasetPlan.Proofs.Compile

namespace DatasetPlan

open Retyping

namespace Selection

variable {target : String} {features : List String} {vars relabeled : List Variable}
  {v w : Variable}

/-- The two variables differ at most in their labels, and where they are kept not at all. -/
structure Relabels (target : String) (features : List String) (v w : Variable) : Prop where
  eq_up_to_labels : w = { v with type := w.type, originalType := w.originalType }
  eq_of_keeps : keeps target features v = true → w = v

namespace Relabels

theorem refl (v : Variable) : Relabels target features v v :=
  ⟨rfl, fun _ => rfl⟩

theorem index_eq (h : Relabels target features v w) : w.index = v.index := by
  rw [h.eq_up_to_labels]

theorem keeps_eq (h : Relabels target features v w) :
    keeps target features w = keeps target features v := by
  rw [h.eq_up_to_labels]
  rfl

theorem filter_eq (h : List.Forall₂ (Relabels target features) vars relabeled) :
    relabeled.filter (keeps target features) = vars.filter (keeps target features) := by
  induction h with
  | nil => rfl
  | cons hvw _ ih =>
      rw [List.filter_cons, List.filter_cons, hvw.keeps_eq, ih]
      split
      · rename_i hkeeps
        rw [hvw.eq_of_keeps hkeeps]
      · rfl

theorem map_index_filter_eq (h : List.Forall₂ (Relabels target features) vars relabeled) :
    (relabeled.filter (!keeps target features ·)).map (·.index) =
      (vars.filter (!keeps target features ·)).map (·.index) := by
  induction h with
  | nil => rfl
  | cons hvw _ ih =>
      rw [List.filter_cons, List.filter_cons, hvw.keeps_eq]
      split
      · rw [List.map_cons, List.map_cons, hvw.index_eq, ih]
      · exact ih

end Relabels

theorem ofVariables_relabeled (h : List.Forall₂ (Relabels target features) vars relabeled) :
    ofVariables relabeled target features = ofVariables vars target features := by
  have hkept : (ofVariables relabeled target features).kept =
      (ofVariables vars target features).kept :=
    (Relabels.filter_eq h ▸ stablyOrders_kept relabeled target features).unique
      (stablyOrders_kept vars target features)
  have hdropped : (ofVariables relabeled target features).dropped =
      (ofVariables vars target features).dropped := by
    refine (pairwise_dropped relabeled target features).eq_of_mem_iff
      (pairwise_dropped vars target features) fun i => ?_
    have hplaces := congrArg (i ∈ ·) (Relabels.map_index_filter_eq h)
    simpa [and_assoc] using hplaces
  rw [Selection.mk.injEq]
  exact ⟨hkept, hdropped⟩

end Selection

namespace Plan

variable {hash : TextHash} {registry : Registry} {name description : String}
  {vars : List Variable} {target : String} {features : List String} {resource : Option String}
  {rs : List Retyping}

theorem changes_eq_nil
    (h : ofVariables registry (Selection.ofVariables vars target features).kept = .ok rs) :
    rs = [] ↔ ∀ v ∈ (Selection.ofVariables vars target features).kept,
      ∃ type, v.Resolves registry type type := by
  rw [List.eq_nil_iff_forall_not_mem]
  constructor
  · intro hnone v hv
    obtain ⟨old, new, hresolves⟩ := resolves_of_mem h hv
    by_contra hdiffer
    have hne : old ≠ new := fun heq => hdiffer (hresolves.same_iff.mpr heq)
    exact hnone ⟨v.index, old, new⟩ ((mem_ofVariables h).mpr ⟨v, hv, hresolves, hne, rfl⟩)
  · intro hall r hr
    obtain ⟨v, hv, hresolves, hne, -⟩ := (mem_ofVariables h).mp hr
    exact hne (hresolves.same_iff.mp (hall v hv))

theorem compile_eq_none :
    compile hash registry name description vars target features resource = .ok none ↔
      (∀ v ∈ vars, Selection.keeps target features v = true) ∧
      ∀ v ∈ (Selection.ofVariables vars target features).kept,
        ∃ type, v.Resolves registry type type := by
  rw [compile_eq_ok]
  simp only [assemble_eq_none, Step.ofRetypings_eq_nil, Group.ofRetypings_eq_nil,
    Selection.dropped_eq_nil]
  constructor
  · rintro ⟨rs, hrs, hnil, hall⟩
    exact ⟨hall, (changes_eq_nil hrs).mp hnil⟩
  · rintro ⟨hall, hsame⟩
    have hresolves : ∀ v ∈ (Selection.ofVariables vars target features).kept,
        ∃ old new, v.Resolves registry old new := fun v hv =>
      (hsame v hv).elim fun type h => ⟨type, type, h⟩
    have hrs := ofVariables_eq_ok.mpr ⟨hresolves, rfl⟩
    exact ⟨_, hrs, (changes_eq_nil hrs).mpr hsame, hall⟩

theorem compile_eq_some :
    (∃ plan, compile hash registry name description vars target features resource =
        .ok (some plan) ∧ plan.steps ≠ []) ↔
      (∀ v ∈ (Selection.ofVariables vars target features).kept,
        ∃ old new, v.Resolves registry old new) ∧
      compile hash registry name description vars target features resource ≠ .ok none := by
  constructor
  · rintro ⟨plan, hcompile, -⟩
    obtain ⟨rs, hrs, -⟩ := compile_eq_ok.mp hcompile
    exact ⟨fun v hv => resolves_of_mem hrs hv, by simp [hcompile]⟩
  · rintro ⟨hresolves, hne⟩
    cases hcompile : compile hash registry name description vars target features resource with
    | error e =>
        obtain ⟨v, hv, hrefusal⟩ := List.exists_of_findSome?_eq_some (compile_eq_error.mp hcompile)
        simp [Variable.refusal?_eq_none.mpr (hresolves v hv)] at hrefusal
    | ok outcome =>
        cases outcome with
        | none => exact absurd hcompile hne
        | some plan =>
            obtain ⟨rs, -, hassemble⟩ := compile_eq_ok.mp hcompile
            obtain ⟨hsteps, last, hlast, -⟩ := assemble_eq_some hassemble
            refine ⟨plan, rfl, fun hnil => ?_⟩
            simp [← hsteps, hnil] at hlast

structure HasOutcome (registry : Registry) (vars : List Variable) (target : String)
    (features : List String) (kept : List Variable) (outcome : Except PlanError (Option Plan)) :
    Prop where
  fails_iff : (∃ e, outcome = .error e) ↔
    ∃ v ∈ kept, registry.resolve v.type = none ∨ registry.resolve v.originalType = none
  error_iff : ∀ e, outcome = .error e ↔
    ∃ before v after, kept = before ++ v :: after ∧
      (∀ w ∈ before, ∃ old new, w.Resolves registry old new) ∧ v.refusal? registry = some e
  none_iff : outcome = .ok none ↔
    (∀ v ∈ vars, Selection.keeps target features v = true) ∧
      ∀ v ∈ kept, ∃ type, v.Resolves registry type type
  some_iff : (∃ plan, outcome = .ok (some plan) ∧ plan.steps ≠ []) ↔
    (∀ v ∈ kept, ∃ old new, v.Resolves registry old new) ∧
      ((∃ v ∈ vars, Selection.keeps target features v = false) ∨
        ∃ v ∈ kept, ∃ old new, v.Resolves registry old new ∧ old ≠ new)

theorem compile_hasOutcome :
    HasOutcome registry vars target features (Selection.ofVariables vars target features).kept
      (compile hash registry name description vars target features resource) where
  fails_iff := by
    simp only [compile_eq_error, ← Variable.refusal?_ne_none]
    constructor
    · rintro ⟨e, he⟩
      obtain ⟨v, hv, hrefusal⟩ := List.exists_of_findSome?_eq_some he
      exact ⟨v, hv, by simp [hrefusal]⟩
    · rintro ⟨v, hv, hrefusal⟩
      exact Option.ne_none_iff_exists'.mp fun hnone =>
        hrefusal (List.findSome?_eq_none_iff.mp hnone v hv)
  error_iff e := by
    simp only [compile_eq_error, List.findSome?_eq_some_iff, Variable.refusal?_eq_none]
    constructor
    · rintro ⟨before, v, after, hkept, hrefusal, hbefore⟩
      exact ⟨before, v, after, hkept, hbefore, hrefusal⟩
    · rintro ⟨before, v, after, hkept, hbefore, hrefusal⟩
      exact ⟨before, v, after, hkept, hrefusal, hbefore⟩
  none_iff := compile_eq_none
  some_iff := by
    rw [compile_eq_some, Ne, compile_eq_none]
    refine and_congr_right fun hresolves => ?_
    constructor
    · intro hsomething
      by_contra hnothing
      simp only [not_or, not_exists, not_and, Bool.not_eq_false, not_not] at hnothing
      obtain ⟨hall, hsame⟩ := hnothing
      refine hsomething ⟨hall, fun v hv => ?_⟩
      obtain ⟨old, new, h⟩ := hresolves v hv
      exact h.same_iff.mpr (hsame v hv old new h)
    · rintro (⟨v, hv, hkeeps⟩ | ⟨v, hv, old, new, h, hne⟩) ⟨hall, hsame⟩
      · simp [hall v hv] at hkeeps
      · exact hne (h.same_iff.mp (hsame v hv))

/-- What becomes of a compilation is decided by the labels of what it keeps and by whether it
keeps all. -/
theorem compile_outcome :
    (∃ kept, Selection.StablyOrders kept (vars.filter (Selection.keeps target features)) ∧
      HasOutcome registry vars target features kept
        (compile hash registry name description vars target features resource)) ∧
    ∀ relabeled, List.Forall₂ (Selection.Relabels target features) vars relabeled →
      compile hash registry name description relabeled target features resource =
        compile hash registry name description vars target features resource := by
  refine ⟨⟨_, Selection.stablyOrders_kept vars target features, compile_hasOutcome⟩, ?_⟩
  intro relabeled h
  rw [compile, compile, Selection.ofVariables_relabeled h]

def doubtful (dropped : Variable) : List Variable := [
  { name := "a", type := "integer", originalType := "integer", index := 0 },
  { name := "b", type := "integer", originalType := "scribble", index := 1 },
  dropped,
  { name := "c", type := "doodle", originalType := "scribble", index := 1 }]

theorem compile_outcome_doubtful :
    compile (fun _ => "") .standard "doubtful" ""
        (doubtful { name := "z", type := "city", originalType := "real", index := 1 }) "b"
        ["a", "c"] none =
      .error (.unknownTypeMapping "b" "scribble") := by
  let vars := doubtful { name := "z", type := "doodle", index := 1 }
  obtain ⟨⟨kept, hkept, houtcome⟩, hrelabeled⟩ :=
    @compile_outcome (fun _ => "") .standard "doubtful" "" vars "b" ["a", "c"] none
  have hordered : Selection.StablyOrders vars vars := ⟨by decide, fun _ => rfl⟩
  have heq : kept = vars.filter (Selection.keeps "b" ["a", "c"]) :=
    hkept.unique (hordered.filter _)
  rw [hrelabeled]
  · refine (houtcome.error_iff _).mpr ⟨vars.take 1, _, vars.drop 3, heq, ?_, rfl⟩
    intro w hw
    obtain rfl := List.mem_singleton.mp hw
    exact ⟨_, _, rfl, rfl⟩
  · have hdropped : Selection.Relabels "b" ["a", "c"] { name := "z", type := "doodle", index := 1 }
        { name := "z", type := "city", originalType := "real", index := 1 } :=
      ⟨rfl, fun hkeeps => absurd hkeeps (by decide)⟩
    exact .cons (.refl _) (.cons (.refl _) (.cons hdropped (.cons (.refl _) .nil)))

end Plan

end DatasetPlan
