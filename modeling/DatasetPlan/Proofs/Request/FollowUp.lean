import DatasetPlan.Proofs.Outcome
import DatasetPlan.Proofs.Request.Validity

namespace DatasetPlan

/-- The variable has the type it was to have, and its column has moved to `index`. -/
def Variable.settled (index : Nat) (v : Variable) : Variable :=
  { v with originalType := v.type, index := index }

namespace Selection

variable {v : Variable}

def settled (s : Selection) : List Variable :=
  s.kept.mapIdx Variable.settled

theorem mem_settled {s : Selection} :
    v ∈ s.settled ↔ ∃ i w, s.kept[i]? = some w ∧ v = Variable.settled i w := by
  rw [settled, List.mem_mapIdx]
  constructor
  · rintro ⟨i, hi, rfl⟩
    exact ⟨i, s.kept[i], List.getElem?_eq_getElem hi, rfl⟩
  · rintro ⟨i, w, hw, rfl⟩
    obtain ⟨hi, rfl⟩ := List.getElem?_eq_some_iff.mp hw
    exact ⟨i, hi, rfl⟩

theorem settled_eq_nil {s : Selection} : s.settled = [] ↔ s.kept = [] :=
  List.mapIdx_eq_nil_iff

theorem map_name_settled (s : Selection) :
    s.settled.map (·.name) = s.kept.map (·.name) := by
  refine List.ext_getElem (by simp [settled]) fun i hi hi' => ?_
  simp [settled, Variable.settled]

theorem map_index_settled (s : Selection) :
    s.settled.map (·.index) = List.range s.kept.length := by
  refine List.ext_getElem (by simp [settled]) fun i hi hi' => ?_
  simp [settled, Variable.settled]

end Selection

namespace Request

variable {r : Request} {hash : TextHash}

def selection (r : Request) : Selection :=
  Selection.ofVariables r.vars r.target r.features

def followUp (r : Request) (description : String) (dataset : Option Metadata) : Request where
  name := r.name
  description := description
  target := r.target
  features := r.features
  resource := r.resource
  inlineVariables := r.selection.settled
  dataset := dataset

theorem vars_followUp (hkept : r.selection.kept ≠ []) (description : String)
    (dataset : Option Metadata) :
    (r.followUp description dataset).vars = r.selection.settled := by
  have hinline : r.selection.settled.isEmpty = false := by
    simpa [Selection.settled_eq_nil] using hkept
  simp [vars, followUp, hinline]

theorem isValid_followUp (hvalid : r.IsValid) (hkept : r.selection.kept ≠ [])
    (description : String) (dataset : Option Metadata) :
    (r.followUp description dataset).IsValid := by
  have hvars := vars_followUp hkept description dataset
  refine
    { name := hvalid.name
      vars := ?vars
      indices := ?indices
      names := ?names
      features := ?features }
  case vars =>
    rw [hvars]
    exact mt Selection.settled_eq_nil.mp hkept
  case indices =>
    rw [hvars, Selection.map_index_settled]
    exact List.nodup_range
  case names =>
    rw [hvars, Selection.map_name_settled]
    exact Selection.nodup_map_kept (·.name) hvalid.names
  case features =>
    intro feature hfeature
    obtain ⟨v, hv, rfl, hdeleted⟩ := hvalid.features feature hfeature
    have hkeeps : Selection.keeps r.target r.features v = true := by
      simp only [Selection.keeps, Bool.or_eq_true, decide_eq_true_iff]
      exact .inr hfeature
    obtain ⟨i, hi⟩ := List.mem_iff_getElem?.mp (Selection.mem_kept.mpr ⟨hv, hkeeps⟩)
    refine ⟨v.settled i, ?_, rfl, hdeleted⟩
    rw [hvars]
    exact Selection.mem_settled.mpr ⟨i, v, hi, rfl⟩

theorem keeps_settled {target : String} {features : List String} {v : Variable} (i : Nat) :
    Selection.keeps target features (v.settled i) = Selection.keeps target features v := rfl

/-- All that is kept has the type that it was to have, so nothing is retyped and nothing goes. -/
theorem compile_followUp_eq_none {outcome : Option Plan} (hcompile : r.compile hash = .ok outcome)
    (hkept : r.selection.kept ≠ []) (description : String) (dataset : Option Metadata) :
    (r.followUp description dataset).compile hash = .ok none := by
  obtain ⟨rs, hrs, -⟩ := Plan.compile_eq_ok.mp hcompile
  have hsettled : ∀ v ∈ r.selection.settled, Selection.keeps r.target r.features v = true ∧
      ∃ type, v.Resolves .standard type type := by
    intro v hv
    obtain ⟨i, w, hget, rfl⟩ := Selection.mem_settled.mp hv
    have hw : w ∈ r.selection.kept := List.mem_of_getElem? hget
    obtain ⟨old, new, hresolves⟩ := Retyping.resolves_of_mem hrs hw
    refine ⟨(keeps_settled i).trans (Selection.mem_kept.mp hw).2, new, ?_⟩
    exact ⟨hresolves.current, hresolves.current⟩
  rw [compile, vars_followUp hkept]
  refine Plan.compile_eq_none.mpr ⟨fun v hv => (hsettled v hv).1, fun v hv => ?_⟩
  exact (hsettled v (Selection.mem_kept.mp hv).1).2

/-- Once a plan has been carried out, asking again asks for nothing. -/
theorem compile_followUp (hproblems : r.problems = [])
    (hcompile : ∃ outcome, r.compile hash = .ok outcome)
    (hkept : ∃ v ∈ r.vars, Selection.keeps r.target r.features v = true) (description : String)
    (dataset : Option Metadata) :
    (r.followUp description dataset).problems = [] ∧
      (r.followUp description dataset).compile hash = .ok none := by
  obtain ⟨v, hv, hkeeps⟩ := hkept
  have hne : r.selection.kept ≠ [] := List.ne_nil_of_mem (Selection.mem_kept.mpr ⟨hv, hkeeps⟩)
  obtain ⟨outcome, hcompile⟩ := hcompile
  exact ⟨problems_eq_nil.mpr (isValid_followUp (problems_eq_nil.mp hproblems) hne _ _),
    compile_followUp_eq_none hcompile hne _ _⟩

def swappingRequest : Request where
  name := "swapping"
  target := "y"
  features := ["x", "w"]
  inlineVariables := Plan.swapping

theorem compile_followUp_swapping :
    swappingRequest.problems = [] ∧
      swappingRequest.compile (fun _ => "") = .ok (some Plan.swappingPlan) ∧
      (swappingRequest.followUp "" none).problems = [] ∧
      (swappingRequest.followUp "" none).compile (fun _ => "") = .ok none := by
  have hproblems : swappingRequest.problems = [] := by decide
  have hcompile : swappingRequest.compile (fun _ => "") = .ok (some Plan.swappingPlan) :=
    Plan.compile_swapping
  exact ⟨hproblems, hcompile, compile_followUp hproblems ⟨_, hcompile⟩ (by decide) "" none⟩

end Request

end DatasetPlan
