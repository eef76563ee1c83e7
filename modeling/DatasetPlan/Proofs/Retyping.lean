import DatasetPlan.Proofs.Selection

namespace DatasetPlan

theorem bind_eq_ok {x : Except ε α} {next : α → Except ε β} {b : β} :
    x >>= next = .ok b ↔ ∃ a, x = .ok a ∧ next a = .ok b := by
  cases x with
  | error e => simp [bind, Except.bind]
  | ok a => simp [bind, Except.bind]

theorem bind_eq_error {x : Except ε α} {next : α → Except ε β} {e : ε} :
    x >>= next = .error e ↔ x = .error e ∨ ∃ a, x = .ok a ∧ next a = .error e := by
  cases x with
  | error e => simp [bind, Except.bind]
  | ok a => simp [bind, Except.bind]

theorem pure_eq_ok {a b : α} : (pure a : Except ε α) = .ok b ↔ a = b := by
  simp [pure, Except.pure]

theorem pure_ne_error {a : α} {e : ε} : (pure a : Except ε α) ≠ .error e := by
  simp [pure, Except.pure]

theorem Registry.mem_of_resolve {registry : Registry} {label type : String}
    (h : registry.resolve label = some type) : (label, type) ∈ registry.entries := by
  obtain ⟨before, after, hentries, -⟩ := List.lookup_eq_some_iff.mp h
  exact hentries ▸ by simp

/-- The registry knows both labels of the variable: it moves from the type `old` to `new`. -/
structure Variable.Resolves (v : Variable) (registry : Registry) (old new : String) : Prop where
  original : registry.resolve v.originalType = some old
  current : registry.resolve v.type = some new

theorem Variable.Resolves.unique {v : Variable} {registry : Registry} {old new old' new' : String}
    (h : v.Resolves registry old new) (h' : v.Resolves registry old' new') :
    old = old' ∧ new = new' :=
  ⟨Option.some.inj (h.original.symm.trans h'.original),
    Option.some.inj (h.current.symm.trans h'.current)⟩

namespace Variable

variable {v : Variable} {registry : Registry}

theorem Resolves.same_iff {old new : String} (h : v.Resolves registry old new) :
    (∃ type, v.Resolves registry type type) ↔ old = new := by
  constructor
  · rintro ⟨type, hsame⟩
    obtain ⟨hold, hnew⟩ := h.unique hsame
    exact hold.trans hnew.symm
  · rintro rfl
    exact ⟨_, h⟩

/-- Why no plan can be made with the variable. Its current label is looked up before the original
one. -/
def refusal? (registry : Registry) (v : Variable) : Option PlanError :=
  if registry.resolve v.type = none then some (.unknownTypeMapping v.name v.type)
  else if registry.resolve v.originalType = none then
    some (.unknownTypeMapping v.name v.originalType)
  else none

theorem refusal?_eq_none : v.refusal? registry = none ↔ ∃ old new, v.Resolves registry old new := by
  constructor
  · intro h
    cases hnew : registry.resolve v.type with
    | none => simp [refusal?, hnew] at h
    | some new =>
        cases hold : registry.resolve v.originalType with
        | none => simp [refusal?, hnew, hold] at h
        | some old => exact ⟨old, new, hold, hnew⟩
  · rintro ⟨old, new, hold, hnew⟩
    simp [refusal?, hold, hnew]

theorem refusal?_ne_none :
    v.refusal? registry ≠ none ↔
      registry.resolve v.type = none ∨ registry.resolve v.originalType = none := by
  unfold refusal?
  split
  · rename_i hnew
    simp [hnew]
  · rename_i hnew
    simp [hnew]

end Variable

namespace Retyping

variable {registry : Registry} {vars : List Variable} {v : Variable} {r : Retyping}
  {rs : List Retyping} {i : Nat} {old new : String}

theorem resolve_eq_ok {label type : String} :
    resolve registry v label = .ok type ↔ registry.resolve label = some type := by
  unfold resolve
  cases registry.resolve label with
  | none => simp [throw, throwThe, MonadExceptOf.throw]
  | some known => simp [pure, Except.pure]

theorem resolve_eq_error {label : String} {e : PlanError} :
    resolve registry v label = .error e ↔
      registry.resolve label = none ∧ e = .unknownTypeMapping v.name label := by
  unfold resolve
  cases registry.resolve label with
  | none => simp [throw, throwThe, MonadExceptOf.throw, eq_comm]
  | some known => simp [pure, Except.pure]

def change? (registry : Registry) (v : Variable) : Option Retyping :=
  match registry.resolve v.type, registry.resolve v.originalType with
  | some new, some old => if new = old then none else some ⟨v.index, old, new⟩
  | _, _ => none

theorem change?_of_resolves (h : v.Resolves registry old new) :
    change? registry v = if new = old then none else some ⟨v.index, old, new⟩ := by
  simp [change?, h.original, h.current]

theorem change?_eq_some :
    change? registry v = some r ↔
      v.Resolves registry r.old r.new ∧ r.old ≠ r.new ∧ v.index = r.index := by
  constructor
  · intro h
    unfold change? at h
    split at h
    · rename_i new old hnew hold
      split at h
      · contradiction
      · rename_i hne
        obtain rfl := Option.some.inj h
        exact ⟨⟨hold, hnew⟩, fun heq => hne heq.symm, rfl⟩
    · contradiction
  · rintro ⟨hresolves, hne, hindex⟩
    rw [change?_of_resolves hresolves, if_neg fun heq => hne heq.symm, hindex]

theorem ofVariable_eq_ok {change : Option Retyping} :
    ofVariable registry v = .ok change ↔
      (∃ old new, v.Resolves registry old new) ∧ change = change? registry v := by
  simp only [ofVariable, bind_eq_ok, resolve_eq_ok, pure_eq_ok]
  constructor
  · rintro ⟨new, hnew, old, hold, rfl⟩
    exact ⟨⟨old, new, hold, hnew⟩, (change?_of_resolves ⟨hold, hnew⟩).symm⟩
  · rintro ⟨⟨old, new, h⟩, rfl⟩
    exact ⟨new, h.current, old, h.original, (change?_of_resolves h).symm⟩

theorem ofVariable_eq_error {e : PlanError} :
    ofVariable registry v = .error e ↔ v.refusal? registry = some e := by
  simp only [ofVariable, bind_eq_error, resolve_eq_error, resolve_eq_ok, pure_ne_error, and_false,
    exists_false, or_false]
  cases hnew : registry.resolve v.type with
  | none => simp [Variable.refusal?, hnew, eq_comm]
  | some new =>
      cases hold : registry.resolve v.originalType with
      | none => simp [Variable.refusal?, hnew, hold, eq_comm]
      | some old => simp [Variable.refusal?, hnew, hold]

theorem ofVariables_cons :
    ofVariables registry (v :: vars) = (do
      let change ← ofVariable registry v
      let changes ← ofVariables registry vars
      pure (change.toList ++ changes)) := by
  simp only [ofVariables, List.mapM_cons]
  cases ofVariable registry v with
  | error e => rfl
  | ok change =>
      cases vars.mapM (ofVariable registry) with
      | error e => rfl
      | ok changes => cases change <;> rfl

/-- The first variable whose labels are not all known fails the list. -/
theorem ofVariables_eq_error {e : PlanError} :
    ofVariables registry vars = .error e ↔
      vars.findSome? (Variable.refusal? registry) = some e := by
  induction vars with
  | nil => simp [ofVariables, pure, Except.pure, bind, Except.bind]
  | cons v vars ih =>
      simp only [ofVariables_cons, bind_eq_error, ofVariable_eq_error, ofVariable_eq_ok, ih,
        pure_ne_error, and_false, exists_false, or_false, List.findSome?_cons,
        ← Variable.refusal?_eq_none]
      cases v.refusal? registry with
      | none => simp
      | some refusal => simp

theorem ofVariables_eq_ok :
    ofVariables registry vars = .ok rs ↔
      (∀ v ∈ vars, ∃ old new, v.Resolves registry old new) ∧
        rs = vars.filterMap (change? registry) := by
  induction vars generalizing rs with
  | nil => simp [ofVariables, pure, Except.pure, bind, Except.bind, eq_comm]
  | cons v vars ih =>
      simp only [ofVariables_cons, bind_eq_ok, ofVariable_eq_ok, ih, pure_eq_ok]
      rw [List.forall_mem_cons, List.filterMap_cons]
      constructor
      · rintro ⟨_, ⟨hv, rfl⟩, _, ⟨hvars, rfl⟩, rfl⟩
        refine ⟨⟨hv, hvars⟩, ?_⟩
        cases change? registry v <;> rfl
      · rintro ⟨⟨hv, hvars⟩, rfl⟩
        refine ⟨_, ⟨hv, rfl⟩, _, ⟨hvars, rfl⟩, ?_⟩
        cases change? registry v <;> rfl

section OfVariables

variable (h : ofVariables registry vars = .ok rs)
include h

theorem resolves_of_mem (hv : v ∈ vars) : ∃ old new, v.Resolves registry old new :=
  (ofVariables_eq_ok.mp h).1 v hv

theorem mem_ofVariables :
    r ∈ rs ↔ ∃ v ∈ vars, v.Resolves registry r.old r.new ∧ r.old ≠ r.new ∧ v.index = r.index := by
  rw [(ofVariables_eq_ok.mp h).2, List.mem_filterMap]
  simp only [change?_eq_some]

theorem indices_sublist : (rs.map (·.index)).Sublist (vars.map (·.index)) := by
  rw [(ofVariables_eq_ok.mp h).2]
  clear h
  induction vars with
  | nil => exact .slnil
  | cons v vars ih =>
      cases hchange : change? registry v with
      | none =>
          rw [List.filterMap_cons_none hchange, List.map_cons]
          exact ih.cons _
      | some r =>
          rw [List.filterMap_cons_some hchange, List.map_cons, List.map_cons,
            (change?_eq_some.mp hchange).2.2]
          exact ih.cons_cons _

end OfVariables

end Retyping

end DatasetPlan
