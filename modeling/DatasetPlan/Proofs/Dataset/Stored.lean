import DatasetPlan.Dataset.Metadata
import DatasetPlan.Proofs.Document.Abridged
import DatasetPlan.Proofs.Pipeline.Stored

namespace DatasetPlan

open Codec (keeps_text keeps_bool keeps_nat keeps_int keeps_float keeps_list keeps_dict keeps_none
  keeps_some marks_bool marks_int marks_list marks_none keepsUpTo_list)

def Variable.defaults : List (String × Value) := [
  ("colType", .text ""),
  ("colOriginalType", .text ""),
  ("selectedRole", .text ""),
  ("role", .list []),
  ("distilRole", .text ""),
  ("varOriginalName", .text ""),
  ("colOriginalName", .text ""),
  ("colDisplayName", .text ""),
  ("importance", .int 0),
  ("suggestedTypes", .list []),
  ("refersTo", .null),
  ("deleted", .bool false)]

def Variable.Abridged : Value → Value → Prop :=
  Value.Abridged defaults []

def Resource.defaults : List (String × Value) := [
  ("resType", .text ""),
  ("resPath", .text ""),
  ("isCollection", .bool false),
  ("columns", .list []),
  ("resFormat", .list [])]

def Resource.Abridged : Value → Value → Prop :=
  Value.Abridged defaults [("columns", Variable.Abridged)]

def Metadata.defaults : List (String × Value) := [
  ("Description", .text ""),
  ("Summary", .text ""),
  ("SummaryMachine", .text ""),
  ("Raw", .bool false),
  ("DataResources", .list []),
  ("NumRows", .int 0),
  ("NumBytes", .int 0),
  ("SchemaSource", .text ""),
  ("Redacted", .bool false),
  ("DatasetFolder", .text "")]

/-- The value, some of whose entries are left out: of the description itself, of its resources and
of their variables. -/
def Metadata.Abridged : Value → Value → Prop :=
  Value.Abridged defaults [("DataResources", Resource.Abridged)]

structure Variable.IsStorable (v : Variable) : Prop where
  index : v.index < Width.span 64
  probability : ∀ s ∈ v.suggestedTypes, s.probability.isFinite = true
  reference : ∀ reference ∈ v.refersTo, ∀ entry ∈ reference.entries, entry.2.value.IsStorable

def Resource.IsStorable (r : Resource) : Prop :=
  ∀ v ∈ r.vars, v.IsStorable

def Metadata.IsStorable (m : Metadata) : Prop :=
  ∀ r ∈ m.resources, r.IsStorable

theorem Dialect.opaqueData_isFaithful : opaqueData.IsFaithful where
  float _ hx := if_pos hx

theorem Codec.keeps_data {x : Data} (h : x.value.IsStorable) : data.Keeps x where
  storable := h
  read_write _ _ _ hdepth hnode := by
    have hany := Dialect.readAny_presents Dialect.opaqueData_isFaithful hnode h hdepth
    simp only [data, hany, bind, Except.bind, pure, Except.pure, Data.ofValue_value]

theorem Variable.IsStorable.keeps_reference {v : Variable} (h : v.IsStorable) :
    (Codec.option (.dict .data)).Keeps v.refersTo := by
  cases hreference : v.refersTo with
  | none => exact keeps_none
  | some reference =>
      have hentries := h.reference reference hreference
      exact keeps_some (keeps_dict fun entry hentry => Codec.keeps_data (hentries entry hentry))
        Value.noConfusion

theorem SuggestedType.codec_keeps {s : SuggestedType} (h : s.probability.isFinite = true) :
    codec.Keeps s :=
  Record.codec_keeps (by decide) <|
    .required (keeps_text _) <| .required (keeps_float h) <| .required (keeps_text _) .done

theorem Variable.codec_keepsUpTo {v : Variable} (h : v.IsStorable) :
    codec.KeepsUpTo Abridged v := by
  have hsuggested : (Codec.list SuggestedType.codec).Keeps v.suggestedTypes :=
    keeps_list fun s hs => SuggestedType.codec_keeps (h.probability s hs)
  refine Record.codec_keepsUpTo (by decide) ?_
  exact .required rfl ((keeps_text _).upTo rfl) <|
    .sparseText rfl rfl rfl <|
    .sparseText rfl rfl rfl <|
    .sparseText rfl rfl rfl <|
    .sparse rfl marks_list (fun _ => List.isEmpty_iff.mp) rfl ((keeps_texts _).upTo rfl) <|
    .sparseText rfl rfl rfl <|
    .optionalText rfl rfl rfl <|
    .sparseText rfl rfl rfl <|
    .sparseText rfl rfl rfl <|
    .sparse rfl marks_int (fun _ => eq_of_beq) rfl ((keeps_int _).upTo rfl) <|
    .required rfl ((keeps_nat h.index).upTo rfl) <|
    .sparse rfl marks_list (fun _ => List.isEmpty_iff.mp) rfl (hsuggested.upTo rfl) <|
    .sparse rfl (marks_none fun _ => Value.noConfusion) (fun _ => Option.isNone_iff_eq_none.mp) rfl
      (h.keeps_reference.upTo rfl) <|
    .optional rfl (marks_bool _) rfl ((keeps_bool _).upTo rfl) .done

theorem Resource.codec_keepsUpTo {r : Resource} (h : r.IsStorable) :
    codec.KeepsUpTo Abridged r := by
  refine Record.codec_keepsUpTo (by decide) ?_
  exact .required rfl ((keeps_text _).upTo rfl) <|
    .optionalText rfl rfl rfl <|
    .optionalText rfl rfl rfl <|
    .optional rfl (marks_bool _) rfl ((keeps_bool _).upTo rfl) <|
    .sparse rfl marks_list (fun _ => List.isEmpty_iff.mp) rfl
      (keepsUpTo_list (fun v hv => Variable.codec_keepsUpTo (h v hv)) rfl) <|
    .optional rfl marks_list rfl ((keeps_texts _).upTo rfl) .done

theorem Metadata.codec_keepsUpTo {m : Metadata} (h : m.IsStorable) :
    codec.KeepsUpTo Abridged m := by
  refine Record.codec_keepsUpTo (by decide) ?_
  exact .required rfl ((keeps_text _).upTo rfl) <|
    .required rfl ((keeps_text _).upTo rfl) <|
    .optionalText rfl rfl rfl <|
    .optionalText rfl rfl rfl <|
    .optionalText rfl rfl rfl <|
    .optional rfl (marks_bool _) rfl ((keeps_bool _).upTo rfl) <|
    .optional rfl marks_list rfl
      (keepsUpTo_list (fun r hr => Resource.codec_keepsUpTo (h r hr)) rfl) <|
    .optional rfl marks_int rfl ((keeps_int _).upTo rfl) <|
    .optional rfl marks_int rfl ((keeps_int _).upTo rfl) <|
    .optionalText rfl rfl rfl <|
    .optional rfl (marks_bool _) rfl ((keeps_bool _).upTo rfl) <|
    .optionalText rfl rfl rfl .done

namespace Metadata

/-- A description is read from what is written of it, whichever entries are left out that say what
is so by default. Of a text it is asked only that it holds what can be stored. -/
theorem survives_storage {m : Metadata} (hm : m.IsStorable) {value : Value}
    (hvalue : value = codec.write m ∨ Metadata.Abridged (codec.write m) value) :
    (∀ {α : Type} (d : Dialect α) (document : Document α), value.NestsWithin d.depth →
      (value.IsStorable → document.Holds d value) → codec.readDocument d document = .ok m) ∧
    ∀ format : Pipeline.Format, value.NestsWithin format.depth → format.ReadsBack value →
      Pipeline.Format.read codec (format.text value) format = .ok m := by
  have hkeeps := codec_keepsUpTo hm
  have hrepresents : codec.Represents value m := by
    obtain rfl | hvalue := hvalue
    · exact hkeeps.keeps.represents
    · exact hkeeps.represents hvalue
  refine ⟨fun d document hdepth hholds => ?document, fun format hdepth hreads => ?text⟩
  case document => exact hrepresents.readDocument hdepth (hholds hrepresents.storable)
  case text => exact Pipeline.Format.read_represented hrepresents hdepth hreads

def plots : Metadata where
  id := "plots"
  name := "Field plots"
  raw := true
  resources := [
    { id := "learningData"
      vars := [
        { name := "photo"
          importance := -3
          index := 1
          suggestedTypes := [⟨"image", 0.5, "user"⟩]
          refersTo := some (.ofList [
            ("resObject", .ofValue (.text "item")),
            ("span", .ofValue (.list [.int 18446744073709551615, .float 0.25, .null])),
            ("place", .ofValue (.dict [("y", .int 2), ("x", .int 1)]))]) },
        { name := "note", index := 2, refersTo := some ∅ }] }]

theorem plots_isStorable : plots.IsStorable := by
  refine List.forall_mem_singleton.mpr (List.forall_mem_cons.mpr
    ⟨?photo, List.forall_mem_singleton.mpr ?note⟩)
  case photo =>
    refine ⟨by decide, List.forall_mem_singleton.mpr (by decide), ?_⟩
    rintro _ ⟨⟩
    have hspan : (Value.list [.int 18446744073709551615, .float 0.25, .null]).IsStorable :=
      .list (List.forall_mem_cons.mpr ⟨.int (by decide),
        List.forall_mem_cons.mpr ⟨.float (by decide), List.forall_mem_singleton.mpr .null⟩⟩)
    have hplace : (Value.dict [("x", .int 1), ("y", .int 2)]).IsStorable :=
      .dict (by decide) (List.forall_mem_cons.mpr ⟨.int (by decide),
        List.forall_mem_singleton.mpr (.int (by decide))⟩)
    exact List.forall_mem_cons.mpr ⟨.text _,
      List.forall_mem_cons.mpr ⟨hspan, List.forall_mem_singleton.mpr hplace⟩⟩
  case note =>
    refine ⟨by decide, nofun, ?_⟩
    rintro _ ⟨⟩
    exact nofun

def plotsAbridged : Value :=
  .dict [
    ("ID", .text "plots"),
    ("Name", .text "Field plots"),
    ("Raw", .bool true),
    ("DataResources", .list [
      .dict [
        ("resID", .text "learningData"),
        ("resPath", .text ""),
        ("columns", .list [
          .dict [
            ("colName", .text "photo"),
            ("importance", .int (-3)),
            ("colIndex", .int 1),
            ("suggestedTypes", .list [.dict [
              ("type", .text "image"), ("probability", .float 0.5), ("provenance", .text "user")]]),
            ("refersTo", .dict [
              ("resObject", .text "item"),
              ("span", .list [.int 18446744073709551615, .float 0.25, .null]),
              ("place", .dict [("x", .int 1), ("y", .int 2)])])],
          .dict [
            ("colName", .text "note"),
            ("varOriginalName", .text ""),
            ("colIndex", .int 2),
            ("refersTo", .dict [])]])]]),
    ("NumBytes", .int 0)]

theorem abridged_plots : Metadata.Abridged (codec.write plots) plotsAbridged := by
  refine .dict <| .kept (.same _) <| .kept (.same _) <| .left rfl <| .left rfl <| .left rfl <|
    .kept (.same _) <| .kept (.items rfl <| .cons ?resource .nil) <| .left rfl <|
    .kept (.same _) <| .left rfl <| .left rfl <| .left rfl .nil
  refine .dict <| .kept (.same _) <| .left rfl <| .kept (.same _) <| .left rfl <|
    .kept (.items rfl <| .cons ?photo <| .cons ?note .nil) <| .left rfl .nil
  case photo =>
    exact .dict <| .kept (.same _) <| .left rfl <| .kept (.same _) <| .kept (.same _) <|
      .kept (.same _) <| .kept (.same _) <| .left rfl .nil
  case note =>
    exact .dict <| .kept (.same _) <| .kept (.same _) <| .kept (.same _) <| .kept (.same _) <|
      .left rfl .nil

theorem survives_storage_plots :
    plots.IsStorable ∧ Metadata.Abridged (codec.write plots) plotsAbridged ∧
      Pipeline.Format.read codec (Pipeline.Format.json.text plotsAbridged) .json = .ok plots ∧
        codec.readDocument Json.dialect (Json.document (Json.pretty (codec.write plots))) =
          .ok plots := by
  refine ⟨plots_isStorable, abridged_plots, ?abridged, ?whole⟩
  case abridged =>
    exact (survives_storage plots_isStorable (.inr abridged_plots)).2 .json (by decide +kernel)
      (Pipeline.Format.readsBack_json_of_scanFrom (by decide +kernel))
  case whole =>
    exact (survives_storage plots_isStorable (.inl rfl)).1 Json.dialect _ (by decide +kernel)
      fun _ => Json.holds_of_scanFrom (by decide +kernel)

end Metadata

end DatasetPlan
