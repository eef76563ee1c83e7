import DatasetPlan.Pipeline.Lowering
import DatasetPlan.Proofs.Pipeline.Engine
import DatasetPlan.Proofs.Text
import DatasetPlan.Template.Basic

namespace DatasetPlan

/-! Lists of names that are written with commas. -/

namespace Template

open Text (Pads IsTrimmed AreBlank trimmedChars_eq_iff trimmedChars_eq_nil)

/-- A name that can be told from the blanks and commas around it. -/
structure IsListable (name : String) : Prop where
  ne_empty : name ≠ ""
  comma_not_mem : ',' ∉ name.toList
  trimmed : IsTrimmed name.toList

structure Carries (piece name : String) : Prop where
  listable : IsListable name
  pads : Pads piece.toList name.toList

/-- The text has the names in this order, with commas between them and blanks around them. -/
def Lists (text : String) (names : List String) : Prop :=
  ∃ pieces, text = ",".intercalate pieces ∧ List.Forall₂ Carries pieces names

def ListsNone (text : String) : Prop :=
  ∀ piece ∈ text.toList.splitOn ',', AreBlank piece

variable {text piece name : String} {pieces names : List String}

def listedName? (piece : List Char) : Option String :=
  let core := Text.trimmedChars piece
  if core.isEmpty then none else some (String.ofList core)

theorem splitList_eq_filterMap (text : String) :
    splitList text = (text.toList.splitOn ',').filterMap listedName? := by
  rw [splitList, Text.pieces_eq_splitOn, List.filterMap_map]
  rfl

theorem listedName?_eq_none {piece : List Char} : listedName? piece = none ↔ AreBlank piece := by
  simp [listedName?, ← trimmedChars_eq_nil]

theorem splitList_eq_nil : splitList text = [] ↔ ListsNone text := by
  rw [splitList_eq_filterMap, List.filterMap_eq_nil_iff]
  exact forall₂_congr fun _ _ => listedName?_eq_none

instance (text : String) : Decidable (ListsNone text) :=
  decidable_of_iff _ splitList_eq_nil

theorem ne_empty_of_mem_splitList (h : name ∈ splitList text) : name ≠ "" := by
  rw [splitList_eq_filterMap] at h
  obtain ⟨piece, -, hpiece⟩ := List.mem_filterMap.mp h
  simp only [listedName?, Option.ite_none_left_eq_some, Option.some.injEq] at hpiece
  obtain ⟨hcore, rfl⟩ := hpiece
  simpa using hcore

theorem carries_iff : Carries piece name ↔
    name ≠ "" ∧ ',' ∉ name.toList ∧ Text.trimmedChars piece.toList = name.toList := by
  rw [trimmedChars_eq_iff]
  constructor
  · rintro ⟨⟨hne, hcomma, htrimmed⟩, hpads⟩
    exact ⟨hne, hcomma, hpads, htrimmed⟩
  · rintro ⟨hne, hcomma, hpads, htrimmed⟩
    exact ⟨⟨hne, hcomma, htrimmed⟩, hpads⟩

instance (piece name : String) : Decidable (Carries piece name) :=
  decidable_of_iff' _ carries_iff

theorem Carries.comma_not_mem (h : Carries piece name) : ',' ∉ piece.toList := by
  obtain ⟨before, after, hbefore, hafter, hpiece⟩ := h.pads
  have hblank {cs : List Char} (hcs : AreBlank cs) : ',' ∉ cs :=
    fun hmem => absurd (hcs _ hmem) (by decide)
  simp [hpiece, hblank hbefore, hblank hafter, h.listable.comma_not_mem]

theorem Carries.listedName?_eq (h : Carries piece name) :
    listedName? piece.toList = some name := by
  obtain ⟨hne, -, hcore⟩ := carries_iff.mp h
  simp [listedName?, hcore, hne]

theorem splitOn_of_carries (hne : pieces ≠ []) (h : List.Forall₂ Carries pieces names) :
    (",".intercalate pieces).toList.splitOn ',' = pieces.map String.toList := by
  have hboth := h.imp fun _ _ hcarries => And.intro hcarries.comma_not_mem hcarries
  exact Text.splitOn_intercalate ((List.forall₂_and_left pieces names).mp hboth).1 hne

theorem filterMap_listedName? (h : List.Forall₂ Carries pieces names) :
    (pieces.map String.toList).filterMap listedName? = names := by
  induction h with
  | nil => rfl
  | cons hpiece _ ih => rw [List.map_cons, List.filterMap_cons, hpiece.listedName?_eq, ih]

theorem splitList_of_lists (h : Lists text names) : splitList text = names := by
  obtain ⟨pieces, rfl, hpieces⟩ := h
  by_cases hne : pieces = []
  · subst hne
    cases hpieces
    rfl
  · rw [splitList_eq_filterMap, splitOn_of_carries hne hpieces, filterMap_listedName? hpieces]

end Template

/-! Detection. -/

namespace Recipe

variable {primitive : Primitive} {columns labels : List String}

def noColumns (name : String) : PlanError :=
  .invalidParameter name "must name at least one column"

def detectorCall (primitive : Primitive) (columns labels : List String) : PrimitiveCall :=
  primitive.call
    |>.withHyperparameter "target_columns" (.ofTexts columns)
    |>.withHyperparameter "output_labels" (.ofTexts labels)

theorem detector_eq (primitive : Primitive) (columns labels : List String) :
    detector primitive columns labels =
      if columns = [] then .error (noColumns "target_columns")
      else if labels = [] then .error (noColumns "output_labels")
      else .ok (onTable (detectorCall primitive columns labels)) := by
  cases columns <;> cases labels <;> rfl

theorem entries_detectorCall (primitive : Primitive) (columns labels : List String) :
    (detectorCall primitive columns labels).hyperparameters.entries =
      [("target_columns", .ofTexts columns), ("output_labels", .ofTexts labels)] := rfl

end Recipe

/-- The plan ends in a call of the primitive that is given the columns and the labels. -/
def Plan.Detects (plan : Plan) (primitive : Primitive) (columns labels : List String) : Prop :=
  ∃ step, plan.lower.steps.getLast? = some step ∧ step.primitive = primitive ∧
    (step.hyperparameters.find? "target_columns").bind HyperValue.asTexts? = some columns ∧
    (step.hyperparameters.find? "output_labels").bind HyperValue.asTexts? = some labels

/-- No call of the plan is given a list that was empty and has been filled up. -/
def Plan.IsUnfilled (plan : Plan) : Prop :=
  ∀ step ∈ plan.lower.steps, ∀ entry ∈ step.hyperparameters.entries,
    entry.2 ≠ HyperValue.list [.text ""]

theorem HyperValue.ofTexts_ne_filled {texts : List String} (hne : texts ≠ [])
    (htexts : ∀ text ∈ texts, text ≠ "") : ofTexts texts ≠ list [text ""] := by
  intro hfilled
  have hread := asTexts?_ofTexts texts
  rw [hfilled, if_neg (by simpa using hne)] at hread
  obtain rfl : [""] = texts := Option.some.inj hread
  exact htexts "" (List.mem_singleton_self _) rfl

namespace Recipe

variable {hash : TextHash} {name description : String} {plan : Plan} {primitive : Primitive}
  {columns labels : List String}

theorem steps_lower_of_plan {c : PrimitiveCall}
    (h : (onTable c).plan hash name description = .ok plan) :
    plan.lower.steps = [
      (Step.call Catalog.denormalize.call).lower (Reference.input 0),
      (Step.call Catalog.datasetToDataframe.call).lower (Reference.result 0 "produce"),
      (Step.call c).lower (Reference.result 1 "produce")] := by
  obtain rfl := Except.ok.inj h
  rfl

theorem detects_of_plan (hcolumns : columns ≠ []) (hlabels : labels ≠ [])
    (h : (onTable (detectorCall primitive columns labels)).plan hash name description = .ok plan) :
    plan.Detects primitive columns labels := by
  have hreads {texts : List String} (hne : texts ≠ []) :
      (HyperValue.ofTexts texts).asTexts? = some texts := by
    rw [HyperValue.asTexts?_ofTexts, if_neg (by simpa using hne)]
  refine ⟨(Step.call (detectorCall primitive columns labels)).lower
    (Reference.result 1 "produce"), ?_, rfl, hreads hcolumns, hreads hlabels⟩
  rw [steps_lower_of_plan h]
  rfl

theorem isUnfilled_of_plan (hcolumns : columns ≠ []) (hlabels : labels ≠ [])
    (hnames : ∀ name ∈ columns ++ labels, name ≠ "")
    (h : (onTable (detectorCall primitive columns labels)).plan hash name description = .ok plan) :
    plan.IsUnfilled := by
  obtain ⟨hcolumnNames, hlabelNames⟩ := List.forall_mem_append.mp hnames
  unfold Plan.IsUnfilled
  rw [steps_lower_of_plan h]
  -- The steps before the call have no hyperparameters.
  refine List.forall_mem_cons.mpr ⟨nofun, List.forall_mem_cons.mpr ⟨nofun,
    List.forall_mem_singleton.mpr ?_⟩⟩
  change ∀ entry ∈ (detectorCall primitive columns labels).hyperparameters.entries, _
  rw [entries_detectorCall]
  exact List.forall_mem_cons.mpr ⟨HyperValue.ofTexts_ne_filled hcolumns hcolumnNames,
    List.forall_mem_singleton.mpr (HyperValue.ofTexts_ne_filled hlabels hlabelNames)⟩

end Recipe

namespace Template

inductive IsDetection :
    Template → (List String → List String → Except PlanError Recipe) → Primitive → Prop
  | croc : IsDetection croc Recipe.croc Catalog.croc
  | unicorn : IsDetection unicorn Recipe.unicorn Catalog.unicorn

variable {t : Template} {builder : List String → List String → Except PlanError Recipe}
  {primitive : Primitive} {parameters : Dictionary String} {columns labels : String}

theorem IsDetection.builder_eq (ht : IsDetection t builder primitive) :
    builder = Recipe.detector primitive := by
  cases ht <;> rfl

section Lists

variable (ht : IsDetection t builder primitive)
  (hcolumns : parameters.find? "target_columns" = some columns)
  (hlabels : parameters.find? "output_labels" = some labels)
  (hash : TextHash) (name description : String) (vars : List Variable)
include ht hcolumns hlabels

theorem build_eq_builder :
    t.build hash name description parameters vars =
      builder (splitList columns) (splitList labels) >>= Recipe.plan hash name description := by
  cases ht with
  | croc => simp [build, requireParameters, requiredParameters, recipe, hcolumns, hlabels]
  | unicorn => simp [build, requireParameters, requiredParameters, recipe, hcolumns, hlabels]

theorem build_eq_ite :
    t.build hash name description parameters vars =
      if splitList columns = [] then .error (Recipe.noColumns "target_columns")
      else if splitList labels = [] then .error (Recipe.noColumns "output_labels")
      else (Recipe.onTable
        (Recipe.detectorCall primitive (splitList columns) (splitList labels))).plan hash name
          description := by
  rw [build_eq_builder ht hcolumns hlabels, ht.builder_eq, Recipe.detector_eq]
  split
  · rfl
  · split <;> rfl

/-- What the parameters list reaches the call as it is, and a list without names is refused. -/
theorem build_detection :
    (∀ xs ys, Lists columns xs → Lists labels ys →
      t.build hash name description parameters vars =
        builder xs ys >>= Recipe.plan hash name description ∧
      (xs ≠ [] → ys ≠ [] → ∃ plan,
        t.build hash name description parameters vars = .ok plan ∧
          plan.Detects primitive xs ys)) ∧
    (∀ e, t.build hash name description parameters vars = .error e ↔
      ListsNone columns ∧ e = Recipe.noColumns "target_columns" ∨
        ¬ListsNone columns ∧ ListsNone labels ∧ e = Recipe.noColumns "output_labels") ∧
    (∀ plan, t.build hash name description parameters vars = .ok plan → plan.IsUnfilled) := by
  have hbuild := build_eq_ite ht hcolumns hlabels hash name description vars
  refine ⟨?lists, ?refusal, ?unfilled⟩
  case lists =>
    intro xs ys hxs hys
    have hbuilder := build_eq_builder ht hcolumns hlabels hash name description vars
    rw [splitList_of_lists hxs, splitList_of_lists hys] at hbuild hbuilder
    refine ⟨hbuilder, fun hxsne hysne => ?_⟩
    rw [if_neg hxsne, if_neg hysne] at hbuild
    obtain ⟨plan, hplan⟩ : ∃ plan, (Recipe.onTable (Recipe.detectorCall primitive xs ys)).plan hash
        name description = .ok plan := ⟨_, rfl⟩
    exact ⟨plan, hbuild.trans hplan, Recipe.detects_of_plan hxsne hysne hplan⟩
  case refusal =>
    intro e
    rw [hbuild, ← splitList_eq_nil, ← splitList_eq_nil]
    by_cases hxs : splitList columns = []
    · simp only [hxs, if_true, Except.error.injEq, true_and, not_true, false_and, or_false]
      exact eq_comm
    · by_cases hys : splitList labels = []
      · simp only [hxs, hys, if_false, if_true, Except.error.injEq, false_and, not_false_eq_true,
          true_and, false_or]
        exact eq_comm
      · simp only [hxs, hys, if_false, false_and, and_false, or_false, iff_false]
        exact nofun
  case unfilled =>
    intro plan hplan
    rw [hbuild] at hplan
    split at hplan
    · cases hplan
    · rename_i hxs
      split at hplan
      · cases hplan
      · rename_i hys
        refine Recipe.isUnfilled_of_plan hxs hys ?_ hplan
        exact List.forall_mem_append.mpr
          ⟨fun _ => ne_empty_of_mem_splitList, fun _ => ne_empty_of_mem_splitList⟩

end Lists

def imageParameters : Dictionary String where
  entries := [("target_columns", " photo,\timage file "), ("output_labels", "label")]
  nodup := by decide

def blankParameters : Dictionary String where
  entries := [("target_columns", "photo"), ("output_labels", " ,,\n")]
  nodup := by decide

theorem lists_images : Lists " photo,\timage file " ["photo", "image file"] :=
  ⟨[" photo", "\timage file "], by decide, .cons (by decide) (.cons (by decide) .nil)⟩

theorem lists_label : Lists "label" ["label"] :=
  ⟨["label"], by decide, .cons (by decide) .nil⟩

theorem build_detection_padded :
    (∃ plan, unicorn.build blake3 "images" "" imageParameters [] = .ok plan ∧
      plan.Detects Catalog.unicorn ["photo", "image file"] ["label"] ∧ plan.IsUnfilled) ∧
    unicorn.build blake3 "images" "" blankParameters [] =
      .error (Recipe.noColumns "output_labels") := by
  constructor
  · have hcolumns : imageParameters.find? "target_columns" = some " photo,\timage file " := rfl
    have hlabels : imageParameters.find? "output_labels" = some "label" := rfl
    obtain ⟨hlists, -, hunfilled⟩ :=
      build_detection .unicorn hcolumns hlabels blake3 "images" "" []
    obtain ⟨plan, hplan, hdetects⟩ := (hlists _ _ lists_images lists_label).2 nofun nofun
    exact ⟨plan, hplan, hdetects, hunfilled plan hplan⟩
  · have hcolumns : blankParameters.find? "target_columns" = some "photo" := rfl
    have hlabels : blankParameters.find? "output_labels" = some " ,,\n" := rfl
    obtain ⟨-, hrefusal, -⟩ := build_detection .unicorn hcolumns hlabels blake3 "images" "" []
    exact (hrefusal _).mpr (.inr ⟨by decide, by decide, rfl⟩)

end Template

end DatasetPlan
