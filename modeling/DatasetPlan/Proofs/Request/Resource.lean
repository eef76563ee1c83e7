import DatasetPlan.Proofs.Compile
import DatasetPlan.Request.Basic

namespace DatasetPlan

structure Metadata.HasColumns (metadata : Metadata) (id : String) (columns : List Nat) : Prop where
  exists_resource : ∃ resource ∈ metadata.resources, resource.id = id
  exists_variable : ∀ i ∈ columns, ∃ resource ∈ metadata.resources, resource.id = id ∧
    ∃ v ∈ resource.vars, v.index = i

namespace Request

variable {r : Request} {metadata : Metadata} {primary : Resource}

theorem mem_resources_of_primaryResource? (hdataset : r.dataset = some metadata)
    (hprimary : r.primaryResource? = some primary) : primary ∈ metadata.resources := by
  simp only [primaryResource?, hdataset, Option.bind_eq_bind, Option.bind_some] at hprimary
  cases hmain : metadata.mainResource? with
  | some main =>
      obtain rfl : main = primary := by simpa [hmain] using hprimary
      exact List.mem_of_find?_eq_some hmain
  | none =>
      have hfirst : metadata.resources.head? = some primary := by simpa [hmain] using hprimary
      exact List.mem_of_head? hfirst

theorem vars_of_primaryResource? (hinline : r.inlineVariables = [])
    (hprimary : r.primaryResource? = some primary) : r.vars = primary.vars := by
  simp [vars, hinline, hprimary]

theorem exists_primaryResource? (hinline : r.inlineVariables = []) (hvars : r.vars ≠ []) :
    ∃ primary, r.primaryResource? = some primary := by
  cases hprimary : r.primaryResource? with
  | none => simp [vars, hinline, hprimary] at hvars
  | some primary => exact ⟨primary, rfl⟩

theorem resourceId_of_primaryResource? (hprimary : r.primaryResource? = some primary) :
    r.resourceId = r.resource.getD primary.id := by
  cases hresource : r.resource <;> simp [resourceId, hresource, hprimary]

/-- What is removed are columns of the primary resource, and they are removed of it unless the
request names another one. -/
theorem compile_removes_primary {hash : TextHash} {plan : Plan} {id : String} {columns : List Nat}
    (hdataset : r.dataset = some metadata) (hinline : r.inlineVariables = [])
    (hcompile : r.compile hash = .ok (some plan))
    (hstep : .removeColumns id columns ∈ plan.steps) :
    ∃ primary ∈ metadata.resources, r.primaryResource? = some primary ∧
      id = r.resource.getD primary.id ∧
      (∀ i, i ∈ columns ↔
        ∃ v ∈ primary.vars, Selection.keeps r.target r.features v = false ∧ v.index = i) ∧
      (id = primary.id → metadata.HasColumns id columns) := by
  obtain ⟨hid, hsome, hcolumns⟩ := Plan.compile_removeColumns hcompile hstep
  have hvars : r.vars ≠ [] := by
    obtain ⟨i, hi⟩ := List.exists_mem_of_ne_nil _ hsome
    obtain ⟨v, hv, -⟩ := (hcolumns i).mp hi
    exact List.ne_nil_of_mem hv
  obtain ⟨primary, hprimary⟩ := exists_primaryResource? hinline hvars
  have hmem := mem_resources_of_primaryResource? hdataset hprimary
  rw [vars_of_primaryResource? hinline hprimary] at hcolumns
  rw [Option.getD_some, resourceId_of_primaryResource? hprimary] at hid
  refine ⟨primary, hmem, hprimary, hid, hcolumns, ?_⟩
  rintro rfl
  refine ⟨⟨primary, hmem, rfl⟩, fun i hi => ⟨primary, hmem, rfl, ?_⟩⟩
  obtain ⟨v, hv, -, hindex⟩ := (hcolumns i).mp hi
  exact ⟨v, hv, hindex⟩

def training : Resource where
  id := "learningData"
  vars := [
    { name := "d3mIndex", type := "index", originalType := "index", index := 0 },
    { name := "value", type := "real", originalType := "real", index := 1 },
    { name := "weight", type := "real", originalType := "real", index := 2 },
    { name := "label", type := "boolean", originalType := "boolean", index := 3 }]

def testing : Resource where
  id := "testData"
  vars := [
    { name := "d3mIndex", type := "index", originalType := "index", index := 0 },
    { name := "label", type := "boolean", originalType := "boolean", index := 1 }]

def twoTables : Metadata where
  id := "ds"
  name := "dataset"
  resources := [training, testing]

def labelRequest (resource : Option String) : Request where
  name := "p"
  target := "label"
  features := ["d3mIndex"]
  resource := resource
  dataset := some twoTables

theorem compile_labelRequest (resource : Option String) :
    ∃ plan, (labelRequest resource).compile (fun _ => "") = .ok (some plan) ∧
      plan.steps = [.removeColumns (labelRequest resource).resourceId [1, 2]] := by
  have hselection : Selection.ofVariables training.vars "label" ["d3mIndex"] =
      ⟨[training.vars[0], training.vars[3]], [1, 2]⟩ :=
    Selection.ofVariables_of_pairwise (by decide)
  have hunchanged :
      Retyping.ofVariables .standard [training.vars[0], training.vars[3]] = .ok [] := rfl
  obtain ⟨plan, hcompile, hsteps⟩ := Plan.exists_compile (fun _ => "") "p" ""
    (some (labelRequest resource).resourceId) hselection hunchanged (List.cons_ne_nil _ _)
  rw [Step.ofRetypings_eq (by simp [Retyping.Group.ofRetypings]) (by decide)] at hsteps
  exact ⟨plan, hcompile, hsteps⟩

theorem compile_removes_primary_training :
    ∃ plan, (labelRequest none).compile (fun _ => "") = .ok (some plan) ∧
      .removeColumns "learningData" [1, 2] ∈ plan.steps ∧
      twoTables.HasColumns "learningData" [1, 2] := by
  obtain ⟨plan, hcompile, hsteps⟩ := compile_labelRequest none
  have hstep : .removeColumns "learningData" [1, 2] ∈ plan.steps := by
    rw [hsteps]
    exact List.mem_singleton.mpr rfl
  obtain ⟨primary, -, hprimary, -, -, hcolumns⟩ :=
    compile_removes_primary rfl rfl hcompile hstep
  refine ⟨plan, hcompile, hstep, hcolumns ?_⟩
  obtain rfl : training = primary := Option.some.inj hprimary
  rfl

/-- When the second table is named, columns of the first one are removed of it: its label, and one
that it does not have. -/
theorem compile_removes_elsewhere :
    ¬∀ (hash : TextHash) (r : Request) (metadata : Metadata) (plan : Plan) (id : String)
      (columns : List Nat),
      r.dataset = some metadata → r.inlineVariables = [] →
      r.compile hash = .ok (some plan) → .removeColumns id columns ∈ plan.steps →
      metadata.HasColumns id columns := by
  intro hall
  obtain ⟨plan, hcompile, hsteps⟩ := compile_labelRequest (some "testData")
  have hcolumns := hall _ (labelRequest (some "testData")) twoTables plan "testData" [1, 2]
    rfl rfl hcompile (hsteps ▸ List.mem_singleton.mpr rfl)
  have hmissing : ¬∃ resource ∈ twoTables.resources, resource.id = "testData" ∧
      ∃ v ∈ resource.vars, v.index = 2 := by decide
  exact hmissing (hcolumns.exists_variable 2 (by simp))

end Request

end DatasetPlan
