import DatasetPlan.Catalog
import DatasetPlan.Pipeline.Format
import DatasetPlan.Proofs.Document.Record
import DatasetPlan.Proofs.Json.Document
import DatasetPlan.Proofs.Yaml.Document
import DatasetPlan.Storage.Store

namespace DatasetPlan

theorem Dictionary.eq_empty_of_isEmpty {d : Dictionary β} (h : d.isEmpty = true) : d = ∅ :=
  Dictionary.ext (List.isEmpty_iff.mp h)

/-! Hyperparameters -/

namespace HyperValue

inductive IsFinite : HyperValue → Prop
  | bool (b : Bool) : IsFinite (.bool b)
  | int (n : Int64) : IsFinite (.int n)
  | float {x : Float} (h : x.isFinite = true) : IsFinite (.float x)
  | text (s : String) : IsFinite (.text s)
  | list {items : List HyperValue} (h : ∀ item ∈ items, IsFinite item) : IsFinite (.list items)

theorem values_eq_map (items : List HyperValue) : values items = items.map value := by
  induction items with
  | nil => rfl
  | cons item rest ih => rw [values, ih, List.map_cons]

theorem storable_value {h : HyperValue} (hfinite : h.IsFinite) : h.value.IsStorable := by
  induction hfinite with
  | bool b => exact .bool b
  | int n => exact .int (by simp [Codec.isSigned_toInt])
  | float hx => exact .float hx
  | text s => exact .text s
  | list _ ih =>
      rw [value, values_eq_map]
      exact .list (List.forall_mem_map.mpr ih)

mutual

theorem ofValue?_value : (h : HyperValue) → ofValue? h.value = some h
  | .bool _ => rfl
  | .int n => by rw [value, ofValue?, ofInt, Codec.isSigned_toInt, if_pos rfl, Int64.ofInt_toInt]
  | .float _ => rfl
  | .text _ => rfl
  | .list items => by
      rw [value, ofValue?, ofValues?_values items]
      rfl

theorem ofValues?_values : (items : List HyperValue) → ofValues? (values items) = some items
  | [] => rfl
  | item :: rest => by
      rw [values, ofValues?, ofValue?_value item, ofValues?_values rest]
      rfl

end

theorem codec_keeps {h : HyperValue} (hfinite : h.IsFinite) : codec.Keeps h :=
  Codec.keeps_union (storable_value hfinite) (ofValue?_value h)

end HyperValue

/-! Primitives and their calls -/

open Codec (keeps_text keeps_list keeps_dict keeps_none keeps_some)

theorem keeps_texts (texts : List String) : (Codec.list .text).Keeps texts :=
  keeps_list fun s _ => keeps_text s

theorem keeps_references (references : Dictionary String) :
    (Codec.dict .text).Keeps references :=
  keeps_dict fun entry _ => keeps_text entry.2

def Dictionary.AreFinite (hyperparameters : Dictionary HyperValue) : Prop :=
  ∀ entry ∈ hyperparameters.entries, entry.2.IsFinite

theorem Dictionary.AreFinite.keeps {hyperparameters : Dictionary HyperValue}
    (h : hyperparameters.AreFinite) : (Codec.dict HyperValue.codec).Keeps hyperparameters :=
  keeps_dict fun entry hentry => HyperValue.codec_keeps (h entry hentry)

theorem Primitive.codec_keeps (p : Primitive) : codec.Keeps p := by
  refine Record.codec_keeps (by decide) ?_
  have hdigest : (Codec.option .text).Keeps p.digest := by
    cases p.digest with
    | none => exact keeps_none
    | some digest => exact keeps_some (keeps_text digest) Value.noConfusion
  refine .required (keeps_text _) <| .required (keeps_text _) <| .required (keeps_text _) <|
    .required (keeps_text _) <| .sparse (fun hnone => ?_) hdigest .done
  rw [Option.isNone_iff_eq_none.mp hnone]
  rfl

theorem PrimitiveCall.record_keeps {c : PrimitiveCall} (h : c.hyperparameters.AreFinite) :
    record.codec.Keeps c := by
  refine Record.codec_keeps (by decide) ?_
  refine .required (Primitive.codec_keeps _) <| .optional (keeps_texts _) <|
    .sparse (fun hempty => ?arguments) (keeps_references _) <|
    .sparse (fun hempty => ?hyperparameters) h.keeps .done
  case arguments =>
    rw [Dictionary.eq_empty_of_isEmpty hempty]
    rfl
  case hyperparameters =>
    rw [Dictionary.eq_empty_of_isEmpty hempty]
    rfl

/-! Steps of plans and of pipelines -/

def Step.IsStorable : Step → Prop
  | addType columns _ => ∀ i ∈ columns, i < Width.span 64
  | removeType columns _ => ∀ i ∈ columns, i < Width.span 64
  | removeColumns _ columns => ∀ i ∈ columns, i < Width.span 64
  | call c => c.hyperparameters.AreFinite

theorem keeps_columns {columns : List Nat} (h : ∀ i ∈ columns, i < Width.span 64) :
    (Codec.list .nat).Keeps columns :=
  keeps_list fun i hi => Codec.keeps_nat (h i hi)

theorem Step.typeChange_keeps (title : String) {change : TypeChange}
    (h : ∀ i ∈ change.columns, i < Width.span 64) :
    (typeChangeRecord title).codec.Keeps change :=
  Record.codec_keeps (show ["target_columns", "type_id"].Nodup by decide) <|
    .required (keeps_columns h) <| .required (keeps_text _) .done

theorem Step.removal_keeps {removal : Removal} (h : ∀ i ∈ removal.columns, i < Width.span 64) :
    removalRecord.codec.Keeps removal :=
  Record.codec_keeps (by decide) <|
    .required (keeps_text _) <| .required (keeps_columns h) .done

theorem Step.codec_keeps {step : Step} (h : step.IsStorable) : codec.Keeps step := by
  cases step with
  | addType columns type =>
      have hrecord : (typeChangeRecord "struct variant Step::AddSemanticType").codec.Keeps
          ⟨columns, type⟩ := typeChange_keeps _ h
      exact Variant.codec_keeps (hrecord.variant_keeps (by decide)) rfl rfl
  | removeType columns type =>
      have hrecord : (typeChangeRecord "struct variant Step::RemoveSemanticType").codec.Keeps
          ⟨columns, type⟩ := typeChange_keeps _ h
      exact Variant.codec_keeps (hrecord.variant_keeps (by decide)) rfl rfl
  | removeColumns resource columns =>
      have hrecord : removalRecord.codec.Keeps ⟨resource, columns⟩ := removal_keeps h
      exact Variant.codec_keeps (hrecord.variant_keeps (by decide)) rfl rfl
  | call c =>
      have hrecord : PrimitiveCall.record.codec.Keeps c := PrimitiveCall.record_keeps h
      exact Variant.codec_keeps (hrecord.variant_keeps (by decide)) rfl rfl

theorem PipelineStep.codec_keeps {step : PipelineStep} (h : step.hyperparameters.AreFinite) :
    codec.Keeps step :=
  Record.codec_keeps (by decide) <|
    .required (Primitive.codec_keeps _) <| .required (keeps_references _) <|
    .required (keeps_texts _) <| .required h.keeps .done

/-! Plans and pipelines -/

theorem inputRecord_keeps (name : String) : inputRecord.codec.Keeps name :=
  Record.codec_keeps (by decide) <| .required (keeps_text _) .done

theorem PlanOutput.record_keeps (output : PlanOutput) : record.codec.Keeps output :=
  Record.codec_keeps (by decide) <| .required (keeps_text _) <| .required (keeps_text _) .done

theorem Plan.codec_keeps {plan : Plan} (h : ∀ step ∈ plan.steps, step.IsStorable) :
    codec.Keeps plan :=
  Record.codec_keeps (by decide) <|
    .required (keeps_text _) <| .required (keeps_text _) <| .required (keeps_text _) <|
    .required (keeps_list fun name _ => inputRecord_keeps name) <|
    .required (keeps_list fun output _ => output.record_keeps) <|
    .required (keeps_list fun step hstep => Step.codec_keeps (h step hstep)) .done

theorem Pipeline.codec_keeps {p : Pipeline}
    (h : ∀ step ∈ p.steps, step.hyperparameters.AreFinite) : codec.Keeps p :=
  Record.codec_keeps (by decide) <|
    .required (keeps_text _) <| .required (keeps_text _) <| .required (keeps_text _) <|
    .required (keeps_list fun name _ => inputRecord_keeps name) <|
    .required (keeps_list fun output _ => output.record_keeps) <|
    .required (keeps_list fun step hstep => PipelineStep.codec_keeps (h step hstep)) .done

/-! Texts -/

namespace Pipeline.Format

def depth : Format → Nat
  | yaml => Yaml.dialect.depth
  | json => Json.dialect.depth

def Holds (text : String) (value : Value) : Format → Prop
  | yaml => (Yaml.document text).Holds Yaml.dialect value
  | json => (Json.document text).Holds Json.dialect value

/-- What the format writes of the value holds it, if a text can keep it and it is not nested too
deeply. -/
def ReadsBack (format : Format) (value : Value) : Prop :=
  value.IsStorable → value.NestsWithin format.depth → format.Holds (format.text value) value

theorem read_represented {c : Codec β} {x : β} {value : Value} {format : Format}
    (hx : c.Represents value x) (hdepth : value.NestsWithin format.depth)
    (h : format.ReadsBack value) : read c (format.text value) format = .ok x := by
  have hholds := h hx.storable hdepth
  cases format with
  | yaml => exact congrArg (Except.mapError _) (hx.readDocument hdepth hholds)
  | json => exact congrArg (Except.mapError _) (hx.readDocument hdepth hholds)

theorem read_text {c : Codec β} {x : β} {format : Format} (hc : c.Keeps x)
    (hdepth : (c.write x).NestsWithin format.depth) (h : format.ReadsBack (c.write x)) :
    read c (format.text (c.write x)) format = .ok x :=
  read_represented hc.represents hdepth h

theorem readsBack_json {value : Value} (h : Json.isExact value = true) : json.ReadsBack value :=
  fun _ _ => Json.holds_pretty h

theorem readsBack_json_of_scanFrom {value : Value}
    (h : Json.Token.scanFrom (Json.prettyChars 0 value).length (Json.prettyChars 0 value) =
      Json.tokens value) : json.ReadsBack value :=
  fun _ _ => Json.holds_of_scanFrom h

theorem readsBack_yaml {value : Value}
    (h : ((Yaml.document (Yaml.text value)).whole &&
      Yaml.seems value (Yaml.document (Yaml.text value)).root) = true) : yaml.ReadsBack value :=
  fun _ _ => Yaml.holds_of_seems h

theorem parse_render {p : Pipeline} {format : Format}
    (hfinite : ∀ step ∈ p.steps, step.hyperparameters.AreFinite)
    (hdepth : (Pipeline.codec.write p).NestsWithin format.depth)
    (h : format.ReadsBack (Pipeline.codec.write p)) :
    Pipeline.parse format (Pipeline.render format p) = .ok p :=
  read_text (Pipeline.codec_keeps hfinite) hdepth h

/-- What is stored in either format is read as it was, with its keys in their order. -/
theorem restores (format : Format) :
    (∀ p : Pipeline, (∀ step ∈ p.steps, step.hyperparameters.AreFinite) →
      (Pipeline.codec.write p).NestsWithin format.depth →
      format.ReadsBack (Pipeline.codec.write p) →
        Pipeline.parse format (Pipeline.render format p) = .ok p ∧
          ∀ path, ofPath path = format → Store.read path (Pipeline.render format p) = .ok p) ∧
    ∀ plan : Plan, (∀ step ∈ plan.steps, step.IsStorable) →
      (Plan.codec.write plan).NestsWithin format.depth →
      format.ReadsBack (Plan.codec.write plan) →
        read Plan.codec (format.text (Plan.codec.write plan)) format = .ok plan := by
  refine ⟨fun p hfinite hdepth h => ?_, fun plan hstorable hdepth h => ?_⟩
  · have hparse := parse_render hfinite hdepth h
    refine ⟨hparse, fun path hpath => ?_⟩
    rw [Store.read, hpath, hparse]
    rfl
  · exact read_text (Plan.codec_keeps hstorable) hdepth h

def detection : Pipeline where
  id := "blake3:404f"
  name := "detect \"objects\""
  description := ""
  inputs := ["inputs"]
  outputs := [⟨"outputs", "steps.0.produce"⟩]
  steps := [
    { primitive := { Catalog.croc with digest := some "1.2.3" }
      arguments := .ofList [("inputs", "inputs.0")]
      outputs := ["produce", "produce_boxes"]
      hyperparameters := .ofList [
        ("target_columns", .list [.text "image", .list [.int (-1), .bool true]]),
        ("output_labels", .list [])] }]

theorem detection_finite : ∀ step ∈ detection.steps, step.hyperparameters.AreFinite := by
  have hinner : (HyperValue.list [.int (-1), .bool true]).IsFinite :=
    .list (List.forall_mem_cons.mpr ⟨.int _, List.forall_mem_singleton.mpr (.bool _)⟩)
  have hcolumns : (HyperValue.list [.text "image", .list [.int (-1), .bool true]]).IsFinite :=
    .list (List.forall_mem_cons.mpr ⟨.text _, List.forall_mem_singleton.mpr hinner⟩)
  exact List.forall_mem_singleton.mpr
    (List.forall_mem_cons.mpr ⟨hcolumns, List.forall_mem_singleton.mpr (.list nofun)⟩)

def detectionPlan : Plan where
  id := "blake3:404f"
  name := "detect"
  description := "objects\nin images"
  inputs := ["inputs"]
  outputs := [⟨"outputs", "steps.3.produce"⟩]
  steps := [
    .addType [0, 18446744073709551615] "http://schema.org/Text",
    .removeType [0] "http://schema.org/Integer",
    .removeColumns "learningData" [],
    .call { primitive := Catalog.croc },
    .call {
      primitive := Catalog.simon
      outputs := []
      arguments := .ofList [("inputs", "steps.2.produce")]
      hyperparameters := .ofList [("threshold", .int 2)] }]

/-- Some of its texts would be taken for something else without quotes. -/
def quoted : Pipeline where
  id := "7"
  name := "n"
  description := ""
  inputs := ["inputs"]
  outputs := [⟨"o", "steps.0.produce"⟩]
  steps := [
    { primitive := { id := "p", version := "1.2", name := "a: b", path := "d3m.p" }
      arguments := .ofList [("inputs", "inputs.0")]
      outputs := ["produce"]
      hyperparameters := .ofList [
        ("columns", .list [.int (-1), .bool true, .text "true", .list []])] }]

theorem quoted_finite : ∀ step ∈ quoted.steps, step.hyperparameters.AreFinite := by
  refine List.forall_mem_singleton.mpr (List.forall_mem_singleton.mpr (.list ?_))
  simp only [List.forall_mem_cons]
  exact ⟨.int _, .bool _, .text _, .list nofun, nofun⟩

theorem restores_detection :
    Store.read "detect.JSON" (Pipeline.render json detection) = .ok detection ∧
      read Plan.codec (json.text (Plan.codec.write detectionPlan)) json = .ok detectionPlan ∧
        Store.read "quoted.yml" (Pipeline.render yaml quoted) = .ok quoted := by
  refine ⟨?pipeline, ?plan, ?yaml⟩
  case pipeline =>
    have hread := (restores json).1 detection detection_finite (by decide +kernel)
      (readsBack_json (by decide +kernel))
    exact hread.2 "detect.JSON" (by decide +kernel)
  case plan =>
    have hstorable : ∀ step ∈ detectionPlan.steps, step.IsStorable := by
      simp only [detectionPlan, List.forall_mem_cons, Step.IsStorable]
      exact ⟨by decide, by decide, nofun, nofun, List.forall_mem_singleton.mpr (.int 2), nofun⟩
    exact (restores json).2 detectionPlan hstorable (by decide +kernel)
      (readsBack_json (by decide +kernel))
  case yaml =>
    have hread := (restores yaml).1 quoted quoted_finite (by decide +kernel)
      (readsBack_yaml (by decide +kernel))
    exact hread.2 "quoted.yml" (by decide +kernel)

end Pipeline.Format

end DatasetPlan
