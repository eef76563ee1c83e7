import DatasetPlan.Proofs.Compile

namespace DatasetPlan

namespace Retyping

/-- In ascending order of index, changes stand in the only order they can have. -/
theorem eq_of_mem_iff {rs rs' : List Retyping} (h : (rs.map (·.index)).Pairwise (· < ·))
    (h' : (rs'.map (·.index)).Pairwise (· < ·)) (hmem : ∀ r, r ∈ rs ↔ r ∈ rs') : rs = rs' := by
  have : Std.Irrefl fun r s : Retyping => r.index < s.index := ⟨fun r => Nat.lt_irrefl r.index⟩
  have : Std.Antisymm fun r s : Retyping => r.index < s.index :=
    ⟨fun _ _ hlt hgt => absurd hgt (Nat.lt_asymm hlt)⟩
  exact (List.pairwise_map.mp h).eq_of_mem_iff (List.pairwise_map.mp h') hmem

end Retyping

structure Choice where
  registry : Registry
  vars : List Variable
  target : String
  features : List String

namespace Choice

open Retyping

variable {c d : Choice} {rs rs' : List Retyping}

abbrev selection (c : Choice) : Selection :=
  Selection.ofVariables c.vars c.target c.features

def Keeps (c : Choice) (v : Variable) : Prop :=
  v ∈ c.vars ∧ Selection.keeps c.target c.features v = true

/-- Both choose among the same places and keep the same ones, and each kept variable moves
between the types between which the other's variable of that place moves. -/
structure Agrees (c d : Choice) : Prop where
  places : ∀ i, (∃ v ∈ c.vars, v.index = i) ↔ ∃ w ∈ d.vars, w.index = i
  kept : ∀ i, (∃ v, c.Keeps v ∧ v.index = i) ↔ ∃ w, d.Keeps w ∧ w.index = i
  resolves : ∀ v w, c.Keeps v → d.Keeps w → v.index = w.index →
    ∃ old new, v.Resolves c.registry old new ∧ w.Resolves d.registry old new

namespace Agrees

theorem symm (h : c.Agrees d) : d.Agrees c where
  places i := (h.places i).symm
  kept i := (h.kept i).symm
  resolves w v hw hv hindex := by
    obtain ⟨old, new, hresolves, hresolves'⟩ := h.resolves v w hv hw hindex.symm
    exact ⟨old, new, hresolves', hresolves⟩

theorem exists_changes (h : c.Agrees d) :
    ∃ rs, ofVariables c.registry c.selection.kept = .ok rs := by
  refine ⟨_, ofVariables_eq_ok.mpr ⟨fun v hv => ?_, rfl⟩⟩
  have hkeeps : c.Keeps v := Selection.mem_kept.mp hv
  obtain ⟨w, hw, hindex⟩ := (h.kept v.index).mp ⟨v, hkeeps, rfl⟩
  obtain ⟨old, new, hresolves, -⟩ := h.resolves v w hkeeps hw hindex.symm
  exact ⟨old, new, hresolves⟩

theorem changes_subset (h : c.Agrees d)
    (hrs : ofVariables c.registry c.selection.kept = .ok rs)
    (hrs' : ofVariables d.registry d.selection.kept = .ok rs') :
    rs ⊆ rs' := by
  rintro ⟨i, old, new⟩ hmem
  obtain ⟨v, hv, hkeeps, hresolves, hne, rfl⟩ := (Plan.mem_changes hrs).mp hmem
  obtain ⟨w, hw, hindex⟩ := (h.kept v.index).mp ⟨v, ⟨hv, hkeeps⟩, rfl⟩
  obtain ⟨old', new', hresolves', hmoves⟩ := h.resolves v w ⟨hv, hkeeps⟩ hw hindex.symm
  obtain ⟨rfl, rfl⟩ := hresolves.unique hresolves'
  exact (Plan.mem_changes hrs').mpr ⟨w, hw.1, hw.2, hmoves, hne, hindex⟩

section Nodup

variable (hc : (c.vars.map (·.index)).Nodup) (hd : (d.vars.map (·.index)).Nodup)
include hc hd

theorem changes_eq (h : c.Agrees d)
    (hrs : ofVariables c.registry c.selection.kept = .ok rs)
    (hrs' : ofVariables d.registry d.selection.kept = .ok rs') :
    rs = rs' :=
  eq_of_mem_iff (Plan.pairwise_changes hrs hc) (Plan.pairwise_changes hrs' hd) fun _ =>
    ⟨fun hr => h.changes_subset hrs hrs' hr, fun hr => h.symm.changes_subset hrs' hrs hr⟩

theorem dropped_eq (h : c.Agrees d) : c.selection.dropped = d.selection.dropped := by
  refine (Selection.pairwise_dropped _ _ _).eq_of_mem_iff (Selection.pairwise_dropped _ _ _)
    fun i => ?_
  rw [Selection.mem_dropped_iff_not_kept hc, Selection.mem_dropped_iff_not_kept hd, h.places i]
  have hkept := h.kept i
  simp only [Keeps, and_assoc] at hkept
  rw [hkept]

end Nodup

end Agrees

end Choice

namespace Plan

variable {c d : Choice}

/-- Choices that agree are compiled to the same plan, down to its identity, or need none. -/
theorem compile_eq_of_agrees (hash : TextHash) (name description : String)
    (resource : Option String) (hc : (c.vars.map (·.index)).Nodup)
    (hd : (d.vars.map (·.index)).Nodup) (h : c.Agrees d) :
    ∃ outcome,
      compile hash c.registry name description c.vars c.target c.features resource =
        .ok outcome ∧
      compile hash d.registry name description d.vars d.target d.features resource =
        .ok outcome := by
  obtain ⟨rs, hrs⟩ := h.exists_changes
  obtain ⟨rs', hrs'⟩ := h.symm.exists_changes
  obtain rfl := h.changes_eq hc hd hrs hrs'
  refine ⟨_, compile_eq_ok.mpr ⟨rs, hrs, rfl⟩, compile_eq_ok.mpr ⟨rs, hrs', ?_⟩⟩
  rw [h.dropped_eq hc hd]

def reworded : Choice where
  registry := ⟨[("number", SemanticType.integer), ("kind", SemanticType.categorical),
    ("sort", SemanticType.categorical), ("number", SemanticType.text)]⟩
  vars := [
    { name := "d", type := "kind", originalType := "sort", index := 4, importance := 3 },
    { name := "c", type := "number", originalType := "sort", index := 2 },
    { name := "b", type := "doodle", originalType := "city", index := 1, deleted := true },
    { name := "a", type := "sort", originalType := "number", index := 0, roles := ["key"] }]
  target := "e"
  features := ["d", "a", "f", "c", "d"]

theorem compile_eq_of_agrees_reworded :
    compile (fun _ => "") reworded.registry "swapping" "" reworded.vars reworded.target
        reworded.features none =
      .ok (some swappingPlan) := by
  have htypes : ∀ v ∈ swapping, ∀ w ∈ reworded.vars,
      Selection.keeps "y" ["x", "w"] v = true → v.index = w.index →
        ∃ old ∈ Registry.standard.resolve v.originalType,
          ∃ new ∈ Registry.standard.resolve v.type,
            reworded.registry.resolve w.originalType = some old ∧
              reworded.registry.resolve w.type = some new := by decide
  have hagrees : Choice.Agrees ⟨.standard, swapping, "y", ["x", "w"]⟩ reworded := by
    refine ⟨fun i => ?places, fun i => ?kept, ?resolves⟩
    case places =>
      simp only [swapping, reworded, List.mem_cons, List.not_mem_nil, or_false,
        exists_eq_or_imp, exists_eq_left]
      omega
    case kept =>
      simp only [Choice.Keeps, and_assoc, swapping, reworded, List.mem_cons, List.not_mem_nil,
        or_false, exists_eq_or_imp, exists_eq_left]
      grind [Selection.keeps]
    case resolves =>
      intro v w hv hw hindex
      obtain ⟨old, hold, new, hnew, hold', hnew'⟩ := htypes v hv.1 w hw.1 hv.2 hindex
      exact ⟨old, new, ⟨hold, hnew⟩, ⟨hold', hnew'⟩⟩
  obtain ⟨outcome, hcompile, hreworded⟩ :=
    compile_eq_of_agrees (fun _ => "") "swapping" "" none (by decide) (by decide) hagrees
  exact hreworded.trans (hcompile.symm.trans compile_swapping)

end Plan

end DatasetPlan
