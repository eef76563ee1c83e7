import DatasetPlan.Dataset.Metadata
import DatasetPlan.Proofs.Outcome
import Mathlib.Data.List.Induction

namespace DatasetPlan

/-! Resources whose variables are as they were added. -/

structure Resource.IsPristine (r : Resource) : Prop where
  index : ∀ i (v : Variable), r.vars[i]? = some v → v.index = i
  type : ∀ v ∈ r.vars, v.originalType = v.type

namespace Resource

variable {r : Resource}

theorem isPristine_create (id type : String) (formats : List String) :
    (create id type formats).IsPristine where
  index := nofun
  type := nofun

theorem header_addVariable (r : Resource) (name originalName type : String) (roles : List String)
    (distilRole : String) :
    (r.addVariable name originalName type roles distilRole).header = r.header ++ [name] := by
  rw [header, addVariable, List.map_append]
  rfl

theorem IsPristine.addVariable (h : r.IsPristine) (name originalName type : String)
    (roles : List String) (distilRole : String) :
    (r.addVariable name originalName type roles distilRole).IsPristine where
  index i v hv := by
    rcases Nat.lt_or_ge i r.vars.length with hi | hi
    · exact h.index i v ((List.getElem?_append_left hi).symm.trans hv)
    · rw [Resource.addVariable, List.getElem?_append_right hi] at hv
      cases hlast : i - r.vars.length with
      | zero =>
          rw [hlast] at hv
          obtain rfl := Option.some.inj hv
          exact Nat.le_antisymm hi (Nat.le_of_sub_eq_zero hlast)
      | succ n =>
          rw [hlast] at hv
          cases hv
  type v hv := by
    rcases List.mem_append.mp hv with hv | hv
    · exact h.type v hv
    · obtain rfl := List.mem_singleton.mp hv
      rfl

theorem IsPristine.getElem?_eq_some (h : r.IsPristine) {i : Nat} {v : Variable} :
    (v ∈ r.vars ∧ v.index = i) ↔ r.vars[i]? = some v := by
  constructor
  · rintro ⟨hv, rfl⟩
    obtain ⟨i, hi⟩ := List.mem_iff_getElem?.mp hv
    rw [h.index i v hi]
    exact hi
  · exact fun hi => ⟨List.mem_of_getElem? hi, h.index i v hi⟩

theorem IsPristine.nodup_index (h : r.IsPristine) : (r.vars.map (·.index)).Nodup := by
  have hrange : r.vars.map (·.index) = List.range r.vars.length := by
    refine List.ext_getElem (by simp) fun i hi hi' => ?_
    simp only [List.getElem_map, List.getElem_range]
    exact h.index i _ (List.getElem?_eq_getElem _)
  rw [hrange]
  exact List.nodup_range

end Resource

/-! Compiling them. -/

theorem Variable.refusal?_of_same {v : Variable} {registry : Registry} {e : PlanError}
    (hsame : v.originalType = v.type) (h : v.refusal? registry = some e) :
    registry.resolve v.type = none ∧ e = .unknownTypeMapping v.name v.type := by
  unfold refusal? at h
  rw [hsame] at h
  split at h
  · next hunknown => exact ⟨hunknown, (Option.some.inj h).symm⟩
  · cases h

namespace Plan

variable {hash : TextHash} {registry : Registry} {name description target : String}
  {features : List String} {resource : Option String}

/-- No type is changed: an unknown label of what is kept is an error, and otherwise the columns of
all that is not kept are removed, if there are any. -/
inductive RemovesOnly (registry : Registry) (vars : List Variable) (target : String)
    (features : List String) (resource : String) : Except PlanError (Option Plan) → Prop
  | refused {v : Variable} (hv : v ∈ vars) (hkeeps : Selection.keeps target features v = true)
      (hunknown : registry.resolve v.type = none) :
      RemovesOnly registry vars target features resource
        (.error (.unknownTypeMapping v.name v.type))
  | unchanged (hkeeps : ∀ v ∈ vars, Selection.keeps target features v = true) :
      RemovesOnly registry vars target features resource (.ok none)
  | removed {plan : Plan} {columns : List Nat}
      (hsteps : plan.steps = [.removeColumns resource columns]) (hne : columns ≠ [])
      (hascending : columns.Pairwise (· < ·))
      (hcolumns : ∀ i, i ∈ columns ↔
        ∃ v, vars[i]? = some v ∧ Selection.keeps target features v = false) :
      RemovesOnly registry vars target features resource (.ok (some plan))

theorem changes_eq_nil_of_same {vars : List Variable} {rs : List Retyping}
    (hsame : ∀ v ∈ vars, v.originalType = v.type)
    (hrs : Retyping.ofVariables registry (Selection.ofVariables vars target features).kept =
      .ok rs) : rs = [] := by
  refine (changes_eq_nil hrs).mpr fun v hv => ?_
  obtain ⟨old, new, hresolves⟩ := Retyping.resolves_of_mem hrs hv
  refine ⟨new, ?_, hresolves.current⟩
  rw [hsame v (Selection.mem_kept.mp hv).1]
  exact hresolves.current

theorem compile_of_isPristine {r : Resource} (h : r.IsPristine) :
    RemovesOnly registry r.vars target features (resource.getD defaultResource)
      (compile hash registry name description r.vars target features resource) := by
  cases hcompile : compile hash registry name description r.vars target features resource with
  | error e =>
      obtain ⟨v, hv, hrefusal⟩ := List.exists_of_findSome?_eq_some (compile_eq_error.mp hcompile)
      obtain ⟨hmem, hkeeps⟩ := Selection.mem_kept.mp hv
      obtain ⟨hunknown, rfl⟩ := Variable.refusal?_of_same (h.type v hmem) hrefusal
      exact .refused hmem hkeeps hunknown
  | ok outcome =>
      obtain ⟨rs, hrs, hassemble⟩ := compile_eq_ok.mp hcompile
      obtain rfl := changes_eq_nil_of_same h.type hrs
      cases outcome with
      | none => exact .unchanged (compile_eq_none.mp hcompile).1
      | some plan =>
          have hdropped : (Selection.ofVariables r.vars target features).dropped ≠ [] := by
            intro hnil
            rw [Step.ofRetypings_eq_nil.mpr ⟨Retyping.Group.ofRetypings_eq_nil.mpr rfl, hnil⟩]
              at hassemble
            cases hassemble
          have hsteps := (assemble_eq_some hassemble).1
          rw [ofRetypings_changes hrs h.nodup_index, Step.drops_of_ne_nil hdropped] at hsteps
          refine .removed hsteps hdropped (Selection.pairwise_dropped _ _ _) fun i => ?_
          simp only [Selection.mem_dropped, ← h.getElem?_eq_some]
          constructor
          · rintro ⟨v, hv, hkeeps, hindex⟩
            exact ⟨v, ⟨hv, hindex⟩, hkeeps⟩
          · rintro ⟨v, ⟨hv, hindex⟩, hkeeps⟩
            exact ⟨v, hv, hkeeps, hindex⟩

end Plan

/-! Descriptions made of additions. -/

namespace Metadata

inductive Extension where
  | addResource (id type : String) (formats : List String)
  | addVariable (resource : Nat) (name originalName type : String) (roles : List String)
      (distilRole : String)

def extend? (m : Metadata) : Extension → Option Metadata
  | .addResource id type formats =>
      some { m with resources := m.resources ++ [Resource.create id type formats] }
  | .addVariable i name originalName type roles distilRole =>
      m.resources[i]?.map fun r =>
        { m with resources :=
            m.resources.set i (r.addVariable name originalName type roles distilRole) }

def extendAll? (m : Metadata) (extensions : List Extension) : Option Metadata :=
  extensions.foldlM extend? m

def Extension.nameAt? (place : Nat) : Extension → Option String
  | addVariable i name _ _ _ _ => if i = place then some name else none
  | addResource _ _ _ => none

def givenNames (extensions : List Extension) (place : Nat) : List String :=
  extensions.filterMap (Extension.nameAt? place)

variable {m m' : Metadata} {extensions : List Extension} {extension : Extension}

theorem extendAll?_concat :
    m.extendAll? (extensions ++ [extension]) =
      (m.extendAll? extensions).bind (·.extend? extension) := by
  simp [extendAll?, List.foldlM_append]

theorem givenNames_concat (place : Nat) :
    givenNames (extensions ++ [extension]) place =
      givenNames extensions place ++ (extension.nameAt? place).toList := by
  rw [givenNames, givenNames, List.filterMap_append]
  cases h : extension.nameAt? place <;> simp [h]

structure IsBuilt (m : Metadata) (extensions : List Extension) : Prop where
  pristine : ∀ r ∈ m.resources, r.IsPristine
  header : ∀ place (r : Resource), m.resources[place]? = some r →
    r.header = givenNames extensions place
  beyond : ∀ place, m.resources.length ≤ place → givenNames extensions place = []

theorem isBuilt_create (id name description : String) :
    (create id name description).IsBuilt [] where
  pristine := nofun
  header := nofun
  beyond _ _ := rfl

theorem IsBuilt.addResource (h : m.IsBuilt extensions) {id type : String} {formats : List String}
    (hextend : m.extend? (.addResource id type formats) = some m') :
    m'.IsBuilt (extensions ++ [.addResource id type formats]) := by
  obtain rfl := Option.some.inj hextend
  have hnames (place : Nat) : givenNames (extensions ++ [.addResource id type formats]) place =
      givenNames extensions place := by
    rw [givenNames_concat]
    exact List.append_nil _
  refine ⟨?pristine, ?header, ?beyond⟩
  case pristine =>
    intro r hr
    rcases List.mem_append.mp hr with hr | hr
    · exact h.pristine r hr
    · obtain rfl := List.mem_singleton.mp hr
      exact Resource.isPristine_create id type formats
  case header =>
    intro place r hr
    rw [hnames]
    rcases Nat.lt_or_ge place m.resources.length with hplace | hplace
    · exact h.header place r ((List.getElem?_append_left hplace).symm.trans hr)
    · -- The new resource has no variables, and none was added at its place before.
      have hnew : r ∈ [Resource.create id type formats] :=
        List.mem_of_getElem? ((List.getElem?_append_right hplace).symm.trans hr)
      obtain rfl := List.mem_singleton.mp hnew
      exact (h.beyond place hplace).symm
  case beyond =>
    intro place hplace
    rw [hnames]
    refine h.beyond place (Nat.le_trans ?_ hplace)
    exact (List.sublist_append_left _ _).length_le

theorem IsBuilt.addVariable (h : m.IsBuilt extensions) {i : Nat}
    {name originalName type : String} {roles : List String} {distilRole : String}
    (hextend : m.extend? (.addVariable i name originalName type roles distilRole) = some m') :
    m'.IsBuilt (extensions ++ [.addVariable i name originalName type roles distilRole]) := by
  obtain ⟨r, hr, rfl⟩ := Option.map_eq_some_iff.mp hextend
  obtain ⟨hi, -⟩ := List.getElem?_eq_some_iff.mp hr
  have hnames (place : Nat) :
      givenNames (extensions ++ [.addVariable i name originalName type roles distilRole]) place =
        givenNames extensions place ++ if i = place then [name] else [] := by
    rw [givenNames_concat, Extension.nameAt?]
    split <;> rfl
  refine ⟨?pristine, ?header, ?beyond⟩
  case pristine =>
    intro r' hr'
    rcases List.mem_or_eq_of_mem_set hr' with hr' | rfl
    · exact h.pristine r' hr'
    · exact (h.pristine r (List.mem_of_getElem? hr)).addVariable _ _ _ _ _
  case header =>
    intro place r' hr'
    rw [hnames]
    by_cases hplace : i = place
    · subst hplace
      rw [List.getElem?_set_self hi] at hr'
      obtain rfl := Option.some.inj hr'
      rw [Resource.header_addVariable, h.header i r hr, if_pos rfl]
    · rw [List.getElem?_set_ne hplace] at hr'
      rw [h.header place r' hr', if_neg hplace, List.append_nil]
  case beyond =>
    intro place hplace
    rw [List.length_set] at hplace
    have hne : i ≠ place := fun heq => absurd hi (Nat.not_lt.mpr (heq ▸ hplace))
    rw [hnames, h.beyond place hplace, if_neg hne]
    rfl

theorem isBuilt_of_extendAll? {id name description : String}
    (h : (create id name description).extendAll? extensions = some m) : m.IsBuilt extensions := by
  induction extensions using List.reverseRecOn generalizing m with
  | nil =>
      obtain rfl := Option.some.inj h
      exact isBuilt_create id name description
  | append_singleton extensions extension ih =>
      rw [extendAll?_concat] at h
      obtain ⟨mid, hmid, hextend⟩ := Option.bind_eq_some_iff.mp h
      cases extension with
      | addResource id type formats => exact (ih hmid).addResource hextend
      | addVariable i name originalName type roles distilRole =>
          exact (ih hmid).addVariable hextend

/-! What is read off a description. -/

theorem IsBuilt.headers_eq (h : m.IsBuilt extensions) :
    m.headers = (List.range m.resources.length).map (givenNames extensions) := by
  refine List.ext_getElem (by simp [headers]) fun place hplace hplace' => ?_
  simp only [headers, List.getElem_map, List.getElem_range]
  exact h.header place _ (List.getElem?_eq_getElem _)

theorem IsBuilt.any_rowIndex (h : m.IsBuilt extensions) {place : Nat} {r : Resource}
    (hr : m.resources[place]? = some r) :
    r.vars.any (·.name = rowIndexName) = true ↔ rowIndexName ∈ givenNames extensions place := by
  rw [← h.header place r hr, Resource.header, List.any_eq_true, List.mem_map]
  simp only [decide_eq_true_iff]

theorem IsBuilt.mainResource?_eq_some (h : m.IsBuilt extensions) {r : Resource} :
    m.mainResource? = some r ↔ ∃ place, m.resources[place]? = some r ∧
      rowIndexName ∈ givenNames extensions place ∧
      ∀ before < place, rowIndexName ∉ givenNames extensions before := by
  rw [mainResource?, List.find?_eq_some_iff_getElem]
  constructor
  · rintro ⟨hindex, place, hplace, rfl, hbefore⟩
    have hr := List.getElem?_eq_getElem hplace
    refine ⟨place, hr, (h.any_rowIndex hr).mp hindex, fun before hlt hmem => ?_⟩
    have hearlier := List.getElem?_eq_getElem (Nat.lt_trans hlt hplace)
    have hfalse := hbefore before hlt
    rw [(h.any_rowIndex hearlier).mpr hmem] at hfalse
    cases hfalse
  · rintro ⟨place, hr, hmem, hbefore⟩
    obtain ⟨hplace, hget⟩ := List.getElem?_eq_some_iff.mp hr
    refine ⟨(h.any_rowIndex hr).mpr hmem, place, hplace, hget, fun before hlt => ?_⟩
    have hearlier := List.getElem?_eq_getElem (Nat.lt_trans hlt hplace)
    rw [Bool.not_eq_true', ← Bool.not_eq_true]
    exact mt (h.any_rowIndex hearlier).mp (hbefore before hlt)

theorem IsBuilt.mainResource?_eq_none (h : m.IsBuilt extensions) :
    m.mainResource? = none ↔ ∀ place, rowIndexName ∉ givenNames extensions place := by
  rw [mainResource?, List.find?_eq_none]
  constructor
  · intro hnone place hmem
    rcases Nat.lt_or_ge place m.resources.length with hplace | hplace
    · have hr := List.getElem?_eq_getElem hplace
      exact hnone _ (List.getElem_mem hplace) ((h.any_rowIndex hr).mpr hmem)
    · rw [h.beyond place hplace] at hmem
      cases hmem
  · intro hnone r hr hany
    obtain ⟨place, hplace⟩ := List.mem_iff_getElem?.mp hr
    exact hnone place ((h.any_rowIndex hplace).mp hany)

/-- However resources and variables come in, every resource lists its variables as they came, the
main one is the first that was given a row index, and no plan for any of them changes types. -/
theorem extendAll?_consistent {id name description : String}
    (h : (create id name description).extendAll? extensions = some m) :
    (∀ r ∈ m.resources, r.IsPristine) ∧
      m.headers = (List.range m.resources.length).map (givenNames extensions) ∧
      (∀ r, m.mainResource? = some r ↔ ∃ place, m.resources[place]? = some r ∧
        rowIndexName ∈ givenNames extensions place ∧
        ∀ before < place, rowIndexName ∉ givenNames extensions before) ∧
      (m.mainResource? = none ↔ ∀ place, rowIndexName ∉ givenNames extensions place) ∧
      ∀ r ∈ m.resources, ∀ hash registry name description target features resource,
        Plan.RemovesOnly registry r.vars target features (resource.getD Plan.defaultResource)
          (Plan.compile hash registry name description r.vars target features resource) := by
  have hbuilt := isBuilt_of_extendAll? h
  refine ⟨hbuilt.pristine, hbuilt.headers_eq, fun r => hbuilt.mainResource?_eq_some,
    hbuilt.mainResource?_eq_none, ?_⟩
  intro r hr hash registry name description target features resource
  exact Plan.compile_of_isPristine (hbuilt.pristine r hr)

def inTurn : List Extension := [
  .addResource "a" "table" ["text/csv"],
  .addVariable 0 "value" "" "real" ["attribute"] "",
  .addResource "b" "table" [],
  .addVariable 1 "d3mIndex" "" "index" [] "",
  .addVariable 0 "d3mIndex" "row" "integer" ["index"] "key",
  .addVariable 1 "value" "" "scribble" [] "",
  .addVariable 0 "value" "" "city" [] ""]

theorem extendAll?_consistent_inTurn :
    ∃ m, (create "d" "tables" "").extendAll? inTurn = some m ∧
      m.headers = [["value", "d3mIndex", "value"], ["d3mIndex", "value"]] ∧
      ∃ r, m.mainResource? = some r ∧ r.id = "a" ∧ r.IsPristine ∧
        Plan.RemovesOnly .standard r.vars "d3mIndex" [] "0"
          (Plan.compile (fun _ => "") .standard "p" "" r.vars "d3mIndex" [] none) := by
  obtain ⟨hpristine, hheaders, hmain, -, hcompile⟩ :=
    @extendAll?_consistent _ inTurn "d" "tables" "" rfl
  refine ⟨_, rfl, hheaders.trans (by decide), _, (hmain _).mpr ⟨0, rfl, by decide, nofun⟩, rfl,
    hpristine _ List.mem_cons_self, ?_⟩
  exact hcompile _ List.mem_cons_self _ _ _ _ _ _ none

end Metadata

end DatasetPlan
