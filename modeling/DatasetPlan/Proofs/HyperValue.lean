import DatasetPlan.HyperValue
import DatasetPlan.Json.Reader
import DatasetPlan.Proofs.Document.Codec
import DatasetPlan.Proofs.Document.Delivery

namespace DatasetPlan

/-! Parts of values. -/

namespace Value

inductive Contains : Value → Value → Prop
  | self (part : Value) : Contains part part
  | item {items : List Value} {item part : Value} (hitem : item ∈ items)
      (h : Contains item part) : Contains (.list items) part
  | entry {entries : List (String × Value)} {entry : String × Value} {part : Value}
      (hentry : entry ∈ entries) (h : Contains entry.2 part) : Contains (.dict entries) part

def IsForeign (value : Value) : Prop :=
  value = .null ∨ ∃ entries, value = .dict entries

end Value

namespace HyperValue

/-- The value and the hyperparameter have the same shape. -/
inductive Decodes : Value → HyperValue → Prop
  | bool (b : Bool) : Decodes (.bool b) (.bool b)
  | int (n : Int64) : Decodes (.int n.toInt) (.int n)
  | wideInt {n : Int} (h : Width.isSigned 64 n = false) :
      Decodes (.int n) (.float (Numeral.floatOfInt n))
  | float (x : Float) : Decodes (.float x) (.float x)
  | text (s : String) : Decodes (.text s) (.text s)
  | list {values : List Value} {items : List HyperValue} (h : List.Forall₂ Decodes values items) :
      Decodes (.list values) (.list items)

variable {value : Value} {x : HyperValue}

theorem toInt_ofInt {n : Int} (h : Width.isSigned 64 n = true) : (Int64.ofInt n).toInt = n := by
  rw [Width.isSigned, Bool.and_eq_true, decide_eq_true_eq, decide_eq_true_eq] at h
  exact Int64.toInt_ofInt_of_le h.1 h.2

theorem decodes_ofInt (n : Int) : Decodes (.int n) (ofInt n) := by
  unfold ofInt
  split
  · rename_i h
    have hdecodes := Decodes.int (Int64.ofInt n)
    rwa [toInt_ofInt h] at hdecodes
  · rename_i h
    exact .wideInt (by simpa using h)

mutual

theorem decodes_of_ofValue? : (value : Value) → {x : HyperValue} → ofValue? value = some x →
    Decodes value x
  | .null, _, h => nomatch h
  | .bool b, _, h => Option.some.inj h ▸ .bool b
  | .int n, _, h => Option.some.inj h ▸ decodes_ofInt n
  | .float x, _, h => Option.some.inj h ▸ .float x
  | .text s, _, h => Option.some.inj h ▸ .text s
  | .list values, _, h => by
      rw [ofValue?, Option.map_eq_map, Option.map_eq_some_iff] at h
      obtain ⟨items, hitems, rfl⟩ := h
      exact .list (forall₂_decodes_of_ofValues? values hitems)
  | .dict _, _, h => nomatch h

theorem forall₂_decodes_of_ofValues? : (values : List Value) → {items : List HyperValue} →
    ofValues? values = some items → List.Forall₂ Decodes values items
  | [], _, h => Option.some.inj h ▸ .nil
  | value :: rest, _, h => by
      simp only [ofValues?, Option.bind_eq_bind, Option.bind_eq_some_iff, Option.some.injEq] at h
      obtain ⟨first, hfirst, others, hothers, rfl⟩ := h
      exact .cons (decodes_of_ofValue? value hfirst) (forall₂_decodes_of_ofValues? rest hothers)

end

theorem Decodes.ofValue?_eq (h : Decodes value x) : ofValue? value = some x := by
  induction h using Decodes.rec
      (motive_2 := fun values items _ => ofValues? values = some items) with
  | bool b => rfl
  | int n => rw [ofValue?, ofInt, Codec.isSigned_toInt, if_pos rfl, Int64.ofInt_toInt]
  | wideInt h => rw [ofValue?, ofInt, h, if_neg Bool.false_ne_true]
  | float x => rfl
  | text s => rfl
  | list _ ih =>
      rw [ofValue?, ih]
      rfl
  | nil => rfl
  | cons _ _ ih ihrest =>
      rw [ofValues?, ih, ihrest]
      rfl

theorem ofValue?_eq_some : ofValue? value = some x ↔ Decodes value x :=
  ⟨decodes_of_ofValue? value, Decodes.ofValue?_eq⟩

theorem Decodes.eq_iff {y : HyperValue} (h : Decodes value x) : x = y ↔ Decodes value y := by
  rw [← ofValue?_eq_some, h.ofValue?_eq, Option.some.injEq]

/-! Values that no hyperparameter has. -/

theorem ofValues?_eq_none_of_mem {values : List Value} (hvalue : value ∈ values)
    (h : ofValue? value = none) : ofValues? values = none := by
  induction values with
  | nil => cases hvalue
  | cons first rest ih =>
      cases hvalue with
      | head => rw [ofValues?, h]; rfl
      | tail _ hrest =>
          rw [ofValues?, ih hrest]
          cases ofValue? first <;> rfl

/-- A part that is foreign, however deep, spoils the value. -/
theorem ofValue?_eq_none_of_contains {part : Value} (hpart : value.Contains part)
    (hforeign : part.IsForeign) : ofValue? value = none := by
  induction hpart with
  | self part => obtain rfl | ⟨entries, rfl⟩ := hforeign <;> rfl
  | item hitem _ ih =>
      rw [ofValue?, ofValues?_eq_none_of_mem hitem (ih hforeign)]
      rfl
  | entry => rfl

mutual

theorem exists_foreign_of_ofValue? : (value : Value) → ofValue? value = none →
    ∃ part, value.Contains part ∧ part.IsForeign
  | .null, _ => ⟨.null, .self _, .inl rfl⟩
  | .dict entries, _ => ⟨.dict entries, .self _, .inr ⟨entries, rfl⟩⟩
  | .list values, h => by
      rw [ofValue?, Option.map_eq_map, Option.map_eq_none_iff] at h
      obtain ⟨value, hvalue, part, hpart, hforeign⟩ := exists_foreign_of_ofValues? values h
      exact ⟨part, .item hvalue hpart, hforeign⟩
  | .bool _, h | .int _, h | .float _, h | .text _, h => nomatch h

theorem exists_foreign_of_ofValues? : (values : List Value) → ofValues? values = none →
    ∃ value ∈ values, ∃ part, value.Contains part ∧ part.IsForeign
  | [], h => nomatch h
  | value :: rest, h => by
      rw [List.exists_mem_cons_iff]
      cases hvalue : ofValue? value with
      | none => exact .inl (exists_foreign_of_ofValue? value hvalue)
      | some x =>
          refine .inr (exists_foreign_of_ofValues? rest ?_)
          rw [ofValues?, hvalue] at h
          cases hrest : ofValues? rest with
          | none => rfl
          | some others => rw [hrest] at h; cases h

end

theorem exists_ofValue?_iff :
    (∃ x, ofValue? value = some x) ↔ ∀ part, value.Contains part → ¬part.IsForeign := by
  rw [← Option.ne_none_iff_exists']
  constructor
  · intro h part hpart hforeign
    exact h (ofValue?_eq_none_of_contains hpart hforeign)
  · intro h hnone
    obtain ⟨part, hpart, hforeign⟩ := exists_foreign_of_ofValue? value hnone
    exact h part hpart hforeign

/-! Lists of one kind. -/

theorem mapM_eq_some_map {f : β → Option γ} {g : γ → β} (h : ∀ b c, f b = some c ↔ b = g c)
    {bs : List β} {cs : List γ} : bs.mapM f = some cs ↔ bs = cs.map g := by
  induction bs generalizing cs with
  | nil => cases cs <;> simp
  | cons b bs ih =>
      simp only [List.mapM_cons, Option.bind_eq_bind, Option.bind_eq_some_iff, Option.pure_def,
        Option.some.injEq, h, ih]
      cases cs with
      | nil => simp
      | cons c cs => simp

theorem asInts?_eq_some {ints : List Int64} :
    x.asInts? = some ints ↔ x = list (ints.map int) := by
  have hint (item : HyperValue) (n : Int64) : item.asInt? = some n ↔ item = int n := by
    cases item <;> simp [asInt?]
  cases x with
  | list items => rw [asInts?, mapM_eq_some_map hint, list.injEq]
  | _ => simp [asInts?]

theorem asTexts?_eq_some {texts : List String} :
    x.asTexts? = some texts ↔ x = list (texts.map text) := by
  have htext (item : HyperValue) (s : String) : item.asText? = some s ↔ item = text s := by
    cases item <;> simp [asText?]
  cases x with
  | list items => rw [asTexts?, mapM_eq_some_map htext, list.injEq]
  | _ => simp [asTexts?]

theorem decodes_list_map {wrap : β → HyperValue} {hold : β → Value}
    (hwrap : ∀ value b, Decodes value (wrap b) ↔ value = hold b) (bs : List β) :
    Decodes value (list (bs.map wrap)) ↔ value = .list (bs.map hold) := by
  have hitems (values : List Value) :
      List.Forall₂ Decodes values (bs.map wrap) ↔ values = bs.map hold := by
    rw [List.forall₂_map_right_iff, ← List.forall₂_eq_eq_eq, List.forall₂_map_right_iff]
    simp only [hwrap]
  constructor
  · rintro (_ | _ | _ | _ | _ | h)
    rw [(hitems _).mp h]
  · rintro rfl
    exact .list ((hitems _).mpr rfl)

theorem decodes_int {n : Int64} : Decodes value (int n) ↔ value = .int n.toInt := by
  constructor
  · rintro ⟨⟩
    rfl
  · rintro rfl
    exact .int n

theorem decodes_text {s : String} : Decodes value (text s) ↔ value = .text s := by
  constructor
  · rintro ⟨⟩
    rfl
  · rintro rfl
    exact .text s

/-! Trying one kind after the other. -/

theorem codec_read_eq {d : Dialect α} {depth : Nat} {node : Tree α}
    (h : d.readAny Dialect.buffered depth node = .ok value) :
    codec.read d depth node = (ofValue? value).elim (fail (.noVariant "HyperValue")) .ok := by
  simp only [codec, Codec.union, h, bind, Except.bind]
  cases ofValue? value <;> rfl

def attempt (wording : Fault.Wording) (depth : Nat) (value : Value) (c : Codec β)
    (wrap : β → HyperValue) : Option HyperValue :=
  wrap <$> (c.read (.again wording) depth value.tree).toOption

/-- What the value gives when it is read again as one kind after the other. -/
def firstAttempt (wording : Fault.Wording) (depth : Nat) (value : Value) : Option HyperValue :=
  attempt wording depth value .bool bool <|> attempt wording depth value .int int <|>
    attempt wording depth value .float float <|> attempt wording depth value .text text <|>
      attempt wording depth value (.list codec) list

variable {wording : Fault.Wording} {depth : Nat}

theorem toOption_readItemsFrom {values : List Value}
    (hvalues : ∀ value ∈ values, Dialect.buffered.Keeps value ∧ value.NestsWithin depth)
    (index : Nat) :
    (Dialect.readItemsFrom (codec.read (.again wording) depth) index (Value.trees values)).toOption =
      ofValues? values := by
  induction values generalizing index with
  | nil => rfl
  | cons value rest ih =>
      obtain ⟨⟨hkept, hdepth⟩, hrest⟩ := List.forall_mem_cons.mp hvalues
      have hfirst : (codec.read (.again wording) depth value.tree).toOption = ofValue? value := by
        rw [codec_read_eq (Dialect.readAny_again wording hkept hdepth)]
        cases ofValue? value <;> rfl
      rw [Value.trees, Dialect.toOption_readItemsFrom_cons, hfirst, ih hrest, ofValues?]
      rfl

theorem attempt_list {values : List Value} (hkept : Dialect.buffered.Keeps (.list values))
    (hdepth : (Value.list values).NestsWithin depth) :
    attempt wording depth (.list values) (.list codec) list = ofValue? (.list values) := by
  cases depth with
  | zero => exact hdepth.elim
  | succ depth =>
      cases hkept with
      | list hkept =>
          have hvalues : ∀ value ∈ values,
              Dialect.buffered.Keeps value ∧ value.NestsWithin depth :=
            fun value hvalue => ⟨hkept value hvalue, hdepth value hvalue⟩
          refine congrArg (list <$> ·) ?_
          exact (toOption_mapError _ _).trans (toOption_readItemsFrom hvalues 0)

theorem attempt_int {n : Int} :
    attempt wording depth (.int n) .int int =
      if Width.isSigned 64 n then some (int (Int64.ofInt n)) else none := by
  have hread : ((Dialect.again wording).int (.int n)).toOption =
      if Width.isSigned 64 n then some (Int64.ofInt n) else none := by
    change (if Width.isSigned 64 n then _ else _ : Except _ Int64).toOption = _
    split <;> rfl
  rw [attempt, Value.tree, Codec.int, Dialect.toOption_readLeaf, hread]
  split <;> rfl

/-- No kind takes what is meant for a later one. -/
theorem firstAttempt_eq (hkept : Dialect.buffered.Keeps value)
    (hdepth : value.NestsWithin depth) : firstAttempt wording depth value = ofValue? value := by
  cases value with
  | null => rfl
  | bool b => rfl
  | int n =>
      -- Every integer could be read as a double too, which is tried later.
      change (attempt wording depth (.int n) .int int <|> some (float (Numeral.floatOfInt n))) = _
      rw [attempt_int, ofValue?, ofInt]
      split <;> rfl
  | float x => rfl
  | text s => rfl
  | list values => exact attempt_list hkept hdepth
  | dict entries => rfl

/-! Reading hyperparameters. -/

theorem read_eq_ok {d : Dialect α} {node : Tree α}
    (h : d.readAny Dialect.buffered depth node = .ok value) :
    codec.read d depth node = .ok x ↔ Decodes value x := by
  rw [codec_read_eq h, ← ofValue?_eq_some]
  cases ofValue? value <;> simp [fail]

/-- The first kind that fits is read, and it has the shape of what was delivered. Only what is null
or a dictionary, or has such a part, does not fit any kind. -/
theorem codec_read_delivered {d : Dialect α} {node : Tree α}
    (h : d.readAny Dialect.buffered depth node = .ok value) :
    codec.read d depth node =
        (firstAttempt d.wording depth value).elim (fail (.noVariant "HyperValue")) .ok ∧
      (∀ x, codec.read d depth node = .ok x ↔ Decodes value x) ∧
      ((∃ x, codec.read d depth node = .ok x) ↔
        ∀ part, value.Contains part → ¬part.IsForeign) ∧
      ∀ x, codec.read d depth node = .ok x →
        (∀ ints, x.asInts? = some ints ↔ value = .list (ints.map fun n => .int n.toInt)) ∧
        (∀ texts, x.asTexts? = some texts ↔ value = .list (texts.map .text)) := by
  obtain ⟨hkept, hdepth⟩ := Dialect.keeps_of_readAny h
  refine ⟨?attempts, fun x => read_eq_ok h, ?foreign, fun x hx => ⟨fun ints => ?ints,
    fun texts => ?texts⟩⟩
  case attempts => rw [firstAttempt_eq hkept hdepth, codec_read_eq h]
  case foreign => simp only [read_eq_ok h, ← ofValue?_eq_some, exists_ofValue?_iff]
  case ints =>
    have hdecodes := (read_eq_ok h).mp hx
    rw [asInts?_eq_some, hdecodes.eq_iff, decodes_list_map fun _ _ => decodes_int]
  case texts =>
    have hdecodes := (read_eq_ok h).mp hx
    rw [asTexts?_eq_some, hdecodes.eq_iff, decodes_list_map fun _ _ => decodes_text]

def mixedDocument : Document Json.Leaf :=
  Json.document "[[7, -2], [\"7\", [true, 9223372036854775808]]]"

def mixedValue : Value :=
  .list [.list [.int 7, .int (-2)],
    .list [.text "7", .list [.bool true, .int 9223372036854775808]]]

def intsDocument : Document Json.Leaf :=
  Json.document "[7, -2]"

def foreignDocument : Document Json.Leaf :=
  Json.document "[7, [[null]]]"

theorem codec_read_delivered_mixed :
    (∃ x, codec.read Json.dialect 127 mixedDocument.root = .ok x ∧ Decodes mixedValue x ∧
      ∀ ints, x.asInts? ≠ some ints) ∧
    (∃ x, codec.read Json.dialect 127 intsDocument.root = .ok x ∧ x.asInts? = some [7, -2]) ∧
    ¬∃ x, codec.read Json.dialect 127 foreignDocument.root = .ok x := by
  refine ⟨?mixed, ?ints, ?foreign⟩
  case mixed =>
    have hread : Json.dialect.readAny Dialect.buffered 127 mixedDocument.root = .ok mixedValue :=
      rfl
    obtain ⟨-, hdecodes, hforeign, hlists⟩ := codec_read_delivered hread
    obtain ⟨x, hx⟩ := hforeign.mpr (exists_ofValue?_iff.mp ⟨_, rfl⟩)
    refine ⟨x, hx, (hdecodes x).mp hx, fun ints hints => ?_⟩
    have hvalue := ((hlists x hx).1 ints).mp hints
    cases ints <;> cases hvalue
  case ints =>
    have hread : Json.dialect.readAny Dialect.buffered 127 intsDocument.root =
      .ok (.list [.int 7, .int (-2)]) := rfl
    obtain ⟨-, -, hforeign, hlists⟩ := codec_read_delivered hread
    obtain ⟨x, hx⟩ := hforeign.mpr (exists_ofValue?_iff.mp ⟨_, rfl⟩)
    exact ⟨x, hx, ((hlists x hx).1 _).mpr rfl⟩
  case foreign =>
    have hread : Json.dialect.readAny Dialect.buffered 127 foreignDocument.root =
      .ok (.list [.int 7, .list [.list [.null]]]) := rfl
    obtain ⟨-, -, hforeign, -⟩ := codec_read_delivered hread
    rw [hforeign]
    intro h
    exact h .null (.item (.tail _ (.head _)) (.item (.head _) (.item (.head _) (.self _))))
      (.inl rfl)

end HyperValue

end DatasetPlan
