import DatasetPlan.Catalog
import DatasetPlan.Proofs.Digest.Identity
import DatasetPlan.Proofs.Json.Compact
import DatasetPlan.Proofs.Pipeline.Stored

namespace DatasetPlan

/-! Hyperparameters without doubles. -/

namespace HyperValue

inductive IsFloatFree : HyperValue → Prop
  | bool (b : Bool) : IsFloatFree (.bool b)
  | int (n : Int64) : IsFloatFree (.int n)
  | text (s : String) : IsFloatFree (.text s)
  | list {items : List HyperValue} (h : ∀ item ∈ items, IsFloatFree item) :
      IsFloatFree (.list items)

theorem isExact_value {h : HyperValue} (hfree : h.IsFloatFree) : Json.isExact h.value = true := by
  induction hfree with
  | bool b => rfl
  | int n => simp [value, Json.isExact, Codec.isSigned_toInt]
  | text s => rfl
  | list _ ih =>
      rw [value, values_eq_map]
      exact Json.itemsAreExact_iff.mpr (List.forall_mem_map.mpr ih)

theorem value_injective : Function.Injective value := by
  intro h h' heq
  have hread := ofValue?_value h
  rw [heq, ofValue?_value h'] at hread
  exact (Option.some.inj hread).symm

end HyperValue

def Dictionary.AreFloatFree (hyperparameters : Dictionary HyperValue) : Prop :=
  ∀ entry ∈ hyperparameters.entries, entry.2.IsFloatFree

namespace Codec

variable {c : Codec β}

theorem dict_write_injective (hc : Function.Injective c.write) :
    Function.Injective (dict c).write := by
  intro d e heq
  have hentries := Value.dict.inj heq
  exact Dictionary.ext (List.map_injective_iff.mpr (Function.injective_id.prodMap hc) hentries)

theorem isExact_dict_write {d : Dictionary β}
    (h : ∀ entry ∈ d.entries, Json.isExact (c.write entry.2) = true) :
    Json.isExact ((dict c).write d) = true :=
  Json.entriesAreExact_iff.mpr (List.forall_mem_map.mpr h)

end Codec

namespace Digest

variable {hash : TextHash} {c c' : PrimitiveCall}

/-! What is hashed of a call. -/

def argumentsText (c : PrimitiveCall) : String :=
  Json.compact ((Codec.dict .text).write c.arguments)

def hyperparametersText (c : PrimitiveCall) : String :=
  Json.compact ((Codec.dict HyperValue.codec).write c.hyperparameters)

def callText (c : PrimitiveCall) : String :=
  parts ["primitive", c.primitive.id, ",".intercalate c.outputs, argumentsText c,
    hyperparametersText c]

theorem callText_eq (c : PrimitiveCall) :
    callText c = "primitive" ++ terminator ++ c.primitive.id ++ terminator ++
      ",".intercalate c.outputs ++ terminator ++ argumentsText c ++ terminator ++
      hyperparametersText c := rfl

theorem ofStep_call (hash : TextHash) (c : PrimitiveCall) :
    ofStep hash (.call c) = hash (callText c) := rfl

theorem ofStep_call_blake3On {texts : List String} (h : callText c ∈ texts) :
    ofStep (blake3On texts) (.call c) = ofStep blake3 (.call c) :=
  blake3On_of_mem h

theorem isField_compact {value : Value} (h : Json.isExact value = true) :
    IsField (Json.compact value) := by
  refine isField_ofList fun hmem => ?_
  exact absurd (Json.hasNoControl_chars value h _ hmem) (by decide)

theorem isExact_arguments (c : PrimitiveCall) :
    Json.isExact ((Codec.dict .text).write c.arguments) = true :=
  Codec.isExact_dict_write fun _ _ => rfl

theorem isExact_hyperparameters (h : c.hyperparameters.AreFloatFree) :
    Json.isExact ((Codec.dict HyperValue.codec).write c.hyperparameters) = true :=
  Codec.isExact_dict_write fun entry hentry => HyperValue.isExact_value (h entry hentry)

theorem isField_argumentsText (c : PrimitiveCall) : IsField (argumentsText c) :=
  isField_compact (isExact_arguments c)

theorem isField_hyperparametersText (h : c.hyperparameters.AreFloatFree) :
    IsField (hyperparametersText c) :=
  isField_compact (isExact_hyperparameters h)

theorem argumentsText_inj : argumentsText c = argumentsText c' ↔ c.arguments = c'.arguments := by
  have htext : Function.Injective Codec.text.write := fun _ _ => Value.text.inj
  rw [argumentsText, argumentsText,
    Json.compact_inj (isExact_arguments c) (isExact_arguments c'),
    (Codec.dict_write_injective htext).eq_iff]

theorem hyperparametersText_inj (h : c.hyperparameters.AreFloatFree)
    (h' : c'.hyperparameters.AreFloatFree) :
    hyperparametersText c = hyperparametersText c' ↔ c.hyperparameters = c'.hyperparameters := by
  have hvalue : Function.Injective HyperValue.codec.write := HyperValue.value_injective
  rw [hyperparametersText, hyperparametersText,
    Json.compact_inj (isExact_hyperparameters h) (isExact_hyperparameters h'),
    (Codec.dict_write_injective hvalue).eq_iff]

theorem callText_eq_iff (houtputs : c.outputs = c'.outputs) (h : c.hyperparameters.AreFloatFree)
    (h' : c'.hyperparameters.AreFloatFree) :
    callText c = callText c' ↔
      c.primitive.id = c'.primitive.id ∧ c.arguments = c'.arguments ∧
        c.hyperparameters = c'.hyperparameters := by
  -- The identifier may hold terminators, so the text is cut from its end.
  rw [callText_eq, callText_eq, houtputs,
    append_field_inj (isField_hyperparametersText h) (isField_hyperparametersText h'),
    append_field_inj (isField_argumentsText c) (isField_argumentsText c'),
    String.append_left_inj, String.append_left_inj, String.append_right_inj,
    argumentsText_inj, hyperparametersText_inj h h', and_assoc]

/-- Of calls with the same outputs, those without doubles that have the same text as a step have the
same identifier, arguments and hyperparameters. -/
theorem ofStep_call_eq_iff (hinjective : Function.Injective hash) (houtputs : c.outputs = c'.outputs)
    (h : c.hyperparameters.AreFloatFree) (h' : c'.hyperparameters.AreFloatFree) :
    ofStep hash (.call c) = ofStep hash (.call c') ↔
      c.primitive.id = c'.primitive.id ∧ c.arguments = c'.arguments ∧
        c.hyperparameters = c'.hyperparameters := by
  rw [ofStep_call, ofStep_call, hinjective.eq_iff, callText_eq_iff houtputs h h']

/-- The terminator is part of the identifier and of the texts, and the quotation mark of one. -/
def labelling (label : HyperValue) : PrimitiveCall where
  primitive := { Catalog.croc with id := "a\x00b" }
  hyperparameters := .ofList [("\x00", .list [.list [], .list [.text "\"", label]])]

theorem labelling_floatFree {label : HyperValue} (h : label.IsFloatFree) :
    (labelling label).hyperparameters.AreFloatFree := by
  have hinner : (HyperValue.list [.text "\"", label]).IsFloatFree :=
    .list (List.forall_mem_cons.mpr ⟨.text _, List.forall_mem_singleton.mpr h⟩)
  exact List.forall_mem_singleton.mpr
    (.list (List.forall_mem_cons.mpr ⟨.list nofun, List.forall_mem_singleton.mpr hinner⟩))

def labellingHash : TextHash :=
  blake3On [callText (labelling (.int 1)), callText (labelling (.text "1"))]

theorem ofStep_call_eq_iff_labelling :
    Function.Injective labellingHash ∧
      ofStep labellingHash (.call (labelling (.int 1))) =
        ofStep blake3 (.call (labelling (.int 1))) ∧
      ofStep labellingHash (.call (labelling (.text "1"))) =
        ofStep blake3 (.call (labelling (.text "1"))) ∧
      ofStep labellingHash (.call (labelling (.int 1))) ≠
        ofStep labellingHash (.call (labelling (.text "1"))) := by
  have hinjective : Function.Injective labellingHash := injective_blake3On (by decide +kernel)
  have hdiffer : (labelling (.int 1)).hyperparameters ≠ (labelling (.text "1")).hyperparameters :=
    fun heq => by cases congrArg Dictionary.entries heq
  have houtputs : (labelling (.int 1)).outputs = (labelling (.text "1")).outputs := rfl
  refine ⟨hinjective, ofStep_call_blake3On (by simp), ofStep_call_blake3On (by simp), ?_⟩
  rw [Ne, ofStep_call_eq_iff hinjective houtputs (labelling_floatFree (.int 1))
    (labelling_floatFree (.text "1"))]
  exact fun h => hdiffer h.2.2

/-! Outputs are told apart only as far as the commas between them show where they end. -/

/-- What stands between commas. No text at all is taken for one empty text. -/
def commaPieces (texts : List String) : List (List Char) :=
  if texts.isEmpty then [[]] else texts.flatMap (·.toList.splitOn ',')

theorem splitOn_intercalate_eq_flatMap {separator : Char} {parts : List (List Char)}
    (h : parts ≠ []) :
    ([separator].intercalate parts).splitOn separator = parts.flatMap (·.splitOn separator) := by
  induction parts with
  | nil => contradiction
  | cons part rest ih =>
      cases rest with
      | nil => simp
      | cons next rest =>
          rw [List.flatMap_cons, ← ih (List.cons_ne_nil _ _), List.intercalate_cons_cons,
            List.append_assoc, List.singleton_append]
          exact List.splitOnP_append_cons part _ (beq_self_eq_true separator)

theorem splitOn_join (texts : List String) :
    (",".intercalate texts).toList.splitOn ',' = commaPieces texts := by
  rw [String.toList_intercalate]
  cases texts with
  | nil => rfl
  | cons text texts =>
      refine (splitOn_intercalate_eq_flatMap (by simp)).trans ?_
      rw [List.flatMap_map]
      rfl

theorem join_inj {texts others : List String} :
    ",".intercalate texts = ",".intercalate others ↔ commaPieces texts = commaPieces others := by
  rw [← splitOn_join, ← splitOn_join, ← String.toList_inj]
  constructor
  · exact congrArg (List.splitOn ',')
  · intro h
    have hchars := congrArg [','].intercalate h
    rwa [List.intercalate_splitOn, List.intercalate_splitOn] at hchars

theorem eq_of_map_toList_eq {texts others : List String}
    (h : texts.map String.toList = others.map String.toList) : texts = others :=
  List.map_injective_iff.mpr (fun _ _ => String.toList_inj.mp) h

/-- No text holds a comma, and there is more than a single empty one, or none. -/
def AreSeparable (texts : List String) : Prop :=
  texts ≠ [""] ∧ ∀ text ∈ texts, ',' ∉ text.toList

instance (texts : List String) : Decidable (AreSeparable texts) :=
  inferInstanceAs (Decidable (_ ∧ _))

namespace AreSeparable

variable {texts others : List String}

theorem commaPieces_eq_map (h : AreSeparable texts) (hne : texts ≠ []) :
    commaPieces texts = texts.map String.toList := by
  rw [← splitOn_join, Text.splitOn_intercalate h.2 hne]

theorem commaPieces_eq_singleton (h : AreSeparable texts) :
    commaPieces texts = [[]] ↔ texts = [] := by
  constructor
  · intro hpieces
    by_contra hne
    rw [h.commaPieces_eq_map hne] at hpieces
    exact h.1 (eq_of_map_toList_eq hpieces)
  · rintro rfl
    rfl

theorem commaPieces_inj (h : AreSeparable texts) (h' : AreSeparable others) :
    commaPieces texts = commaPieces others ↔ texts = others := by
  constructor
  · intro hpieces
    by_cases hnil : others = []
    · rw [hnil]
      exact h.commaPieces_eq_singleton.mp (hpieces.trans (h'.commaPieces_eq_singleton.mpr hnil))
    · have hne : texts ≠ [] := fun htexts =>
        hnil (h'.commaPieces_eq_singleton.mp
          (hpieces.symm.trans (h.commaPieces_eq_singleton.mpr htexts)))
      rw [h.commaPieces_eq_map hne, h'.commaPieces_eq_map hnil] at hpieces
      exact eq_of_map_toList_eq hpieces
  · rintro rfl
    rfl

end AreSeparable

theorem callText_withOutputs (c : PrimitiveCall) (outputs : List String) :
    callText (c.withOutputs outputs) =
      "primitive" ++ terminator ++ c.primitive.id ++ terminator ++ ",".intercalate outputs ++
        terminator ++ argumentsText c ++ terminator ++ hyperparametersText c := rfl

theorem callText_withOutputs_inj (c : PrimitiveCall) {outputs outputs' : List String} :
    callText (c.withOutputs outputs) = callText (c.withOutputs outputs') ↔
      commaPieces outputs = commaPieces outputs' := by
  rw [callText_withOutputs, callText_withOutputs, String.append_left_inj, String.append_left_inj,
    String.append_left_inj, String.append_left_inj, String.append_right_inj, join_inj]

theorem ofPlan_singleton_inj (hinjective : Function.Injective hash) (name : String)
    {step step' : Step} :
    ofPlan hash name [step] = ofPlan hash name [step'] ↔ ofStep hash step = ofStep hash step' := by
  simp only [ofPlan, ofComponents, hinjective.eq_iff, List.map_cons, List.map_nil, terminated_cons,
    terminated_nil, String.append_right_inj, String.append_left_inj]

/-- Plans of one call have the same identity exactly when the same stands between the commas of its
outputs; so they are told apart where no output holds a comma. -/
theorem ofPlan_outputs_eq_iff (hinjective : Function.Injective hash) (name : String)
    (c : PrimitiveCall) (outputs outputs' : List String) :
    (ofPlan hash name [.call (c.withOutputs outputs)] =
        ofPlan hash name [.call (c.withOutputs outputs')] ↔
      commaPieces outputs = commaPieces outputs') ∧
    (AreSeparable outputs → AreSeparable outputs' → outputs ≠ outputs' →
      ofPlan hash name [.call (c.withOutputs outputs)] ≠
        ofPlan hash name [.call (c.withOutputs outputs')]) := by
  have hpieces : ofPlan hash name [.call (c.withOutputs outputs)] =
      ofPlan hash name [.call (c.withOutputs outputs')] ↔
        commaPieces outputs = commaPieces outputs' := by
    rw [ofPlan_singleton_inj hinjective, ofStep_call, ofStep_call, hinjective.eq_iff,
      callText_withOutputs_inj]
  refine ⟨hpieces, fun h h' hne heq => hne ?_⟩
  exact (h.commaPieces_inj h').mp (hpieces.mp heq)

def publishing (outputs : List String) : PrimitiveCall :=
  Catalog.croc.call.withOutputs outputs

def publishedTexts (outputs : List String) : List String :=
  [callText (publishing outputs), terminated ["p", ofStep blake3 (.call (publishing outputs))]]

def publishedHash : TextHash :=
  blake3On (publishedTexts ["boxes"] ++ publishedTexts ["b", "oxes"])

theorem ofPlan_publishedHash {outputs : List String}
    (h : publishedTexts outputs ⊆ publishedTexts ["boxes"] ++ publishedTexts ["b", "oxes"]) :
    ofPlan publishedHash "p" [.call (publishing outputs)] =
      ofPlan blake3 "p" [.call (publishing outputs)] := by
  obtain ⟨hcall, hplan⟩ := List.cons_subset.mp h
  have hstep : ofStep publishedHash (.call (publishing outputs)) =
      ofStep blake3 (.call (publishing outputs)) := ofStep_call_blake3On hcall
  rw [ofPlan, List.map_singleton, hstep]
  exact blake3On_of_mem (hplan List.mem_cons_self)

theorem ofPlan_outputs_eq_iff_published :
    Function.Injective publishedHash ∧
      ofPlan publishedHash "p" [.call (publishing ["boxes"])] =
        ofPlan blake3 "p" [.call (publishing ["boxes"])] ∧
      ofPlan publishedHash "p" [.call (publishing ["b", "oxes"])] =
        ofPlan blake3 "p" [.call (publishing ["b", "oxes"])] ∧
      ofPlan publishedHash "p" [.call (publishing ["boxes"])] ≠
        ofPlan publishedHash "p" [.call (publishing ["b", "oxes"])] := by
  have hinjective : Function.Injective publishedHash := injective_blake3On (by decide +kernel)
  refine ⟨hinjective, ofPlan_publishedHash (List.subset_append_left _ _),
    ofPlan_publishedHash (List.subset_append_right _ _), ?_⟩
  exact (ofPlan_outputs_eq_iff hinjective "p" Catalog.croc.call _ _).2 (by decide) (by decide)
    (by decide)

theorem outputs_share_digest :
    ¬∀ (hash : TextHash) (name : String) (c c' : PrimitiveCall),
      Function.Injective hash → c.primitive = c'.primitive → c.arguments = c'.arguments →
      c.hyperparameters = c'.hyperparameters → c.outputs ≠ c'.outputs →
      ofPlan hash name [.call c] ≠ ofPlan hash name [.call c'] := by
  intro hdiffer
  have htext : callText (publishing ["b", "oxes"]) = callText (publishing ["b,oxes"]) :=
    (callText_withOutputs_inj Catalog.croc.call).mpr (by decide)
  refine hdiffer (fun text => text) "p" (publishing ["b", "oxes"])
    (publishing ["b,oxes"]) (fun _ _ heq => heq) rfl rfl rfl (by decide) ?_
  exact (ofPlan_singleton_inj (fun _ _ heq => heq) "p").mpr htext

end Digest

end DatasetPlan
