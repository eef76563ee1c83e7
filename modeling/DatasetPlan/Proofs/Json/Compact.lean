import DatasetPlan.Proofs.Json.Document

namespace DatasetPlan.Json

open DatasetPlan.Tree (Shape)

theorem spells_between {opening closing : Char} {shape : Shape} {parts : List (List Char)}
    {lists : List (List Token)}
    (hopening : ∀ rest, Token.next? (opening :: rest) = some (.enter shape, rest))
    (hclosing : ∀ rest, Token.next? (closing :: rest) = some (.leave shape, rest))
    (hends : continuesNumber closing = false) (hparts : List.Forall₂ Spells parts lists) :
    Spells (opening :: joined [','] parts ++ [closing])
      (.enter shape :: ([.comma].intercalate lists ++ [.leave shape])) := by
  have hblank : AreBlank [] := by simp [AreBlank]
  exact Spells.enclosed hopening hclosing hends hblank hblank hblank hparts

mutual

theorem spells_chars : (value : Value) → isExact value = true → Spells (chars value) (tokens value)
  | .null, _ => spells_null
  | .bool b, _ => spells_bool b
  | .int _, h => spells_int h
  | .text s, _ => spells_quoted s
  | .list items, h =>
      spells_between (fun _ => rfl) (fun _ => rfl) rfl (spells_itemChars items h)
  | .dict entries, h =>
      spells_between (fun _ => rfl) (fun _ => rfl) rfl (spells_entryChars entries h)

theorem spells_itemChars : (items : List Value) → itemsAreExact items = true →
    List.Forall₂ Spells (itemChars items) (itemTokens items)
  | [], _ => .nil
  | value :: rest, h => by
      obtain ⟨hvalue, hrest⟩ := Bool.and_eq_true_iff.mp h
      exact .cons (spells_chars value hvalue) (spells_itemChars rest hrest)

theorem spells_entryChars : (entries : List (String × Value)) → entriesAreExact entries = true →
    List.Forall₂ Spells (entryChars entries) (entryTokens entries)
  | [], _ => .nil
  | (key, value) :: rest, h => by
      obtain ⟨hvalue, hrest⟩ := Bool.and_eq_true_iff.mp h
      have hspells : Spells (':' :: chars value) (.colon :: tokens value) :=
        (spells_chars value hvalue).cons fun _ => rfl
      have hentry := (spells_quoted key).append hspells (by rintro _ ⟨⟩; rfl)
      exact .cons hentry (spells_entryChars rest hrest)

end

theorem tokens_injective : Function.Injective tokens := by
  intro value other h
  have htree := ofEventsFrom_tokens value [] []
  rw [h, ofEventsFrom_tokens other] at htree
  exact (Value.treeOf_injective (fun _ _ => Option.some.inj) other value htree).symm

theorem compact_inj {value other : Value} (h : isExact value = true) (h' : isExact other = true) :
    compact value = compact other ↔ value = other := by
  constructor
  · intro heq
    have hchars : chars value = chars other := String.ofList_injective heq
    have hscan := (spells_chars value h).scanFrom_eq
    rw [hchars, (spells_chars other h').scanFrom_eq] at hscan
    exact tokens_injective hscan.symm
  · rintro rfl
    rfl

def HasNoControl (cs : List Char) : Prop :=
  ∀ c ∈ cs, 32 ≤ c.toNat

instance (cs : List Char) : Decidable (HasNoControl cs) :=
  List.decidableBAll _ cs

theorem hasNoControl_append {cs cs' : List Char} :
    HasNoControl (cs ++ cs') ↔ HasNoControl cs ∧ HasNoControl cs' :=
  List.forall_mem_append

theorem hasNoControl_cons {c : Char} {cs : List Char} :
    HasNoControl (c :: cs) ↔ 32 ≤ c.toNat ∧ HasNoControl cs :=
  List.forall_mem_cons

theorem le_toNat_digitChar : ∀ d < 16, 32 ≤ (Nat.digitChar d).toNat := by decide

theorem hasNoControl_escaped (c : Char) : HasNoControl (escaped c) := by
  unfold escaped
  split_ifs with hquote _ _ _ _ _ hcontrol
  · rcases hquote with rfl | rfl <;> decide
  · decide
  · decide
  · decide
  · decide
  · decide
  · have hdigits : HasNoControl [Nat.digitChar (c.toNat / 16), Nat.digitChar (c.toNat % 16)] :=
      List.forall_mem_cons.mpr ⟨le_toNat_digitChar _ (by omega),
        List.forall_mem_singleton.mpr (le_toNat_digitChar _ (by omega))⟩
    exact hasNoControl_append.mpr ⟨show HasNoControl ['\\', 'u', '0', '0'] by decide, hdigits⟩
  · exact List.forall_mem_singleton.mpr (Nat.le_of_not_lt hcontrol)

theorem hasNoControl_quoted (s : String) : HasNoControl (quoted s) := by
  have hescaped : HasNoControl (s.toList.flatMap escaped) := by
    intro c hc
    obtain ⟨d, -, hd⟩ := List.mem_flatMap.mp hc
    exact hasNoControl_escaped d c hd
  exact hasNoControl_cons.mpr ⟨by decide, hasNoControl_append.mpr ⟨hescaped, by decide⟩⟩

theorem hasNoControl_joined {parts : List (List Char)} (h : ∀ part ∈ parts, HasNoControl part) :
    HasNoControl (joined [','] parts) := by
  induction parts with
  | nil => exact nofun
  | cons part rest ih =>
      obtain ⟨hpart, hrest⟩ := List.forall_mem_cons.mp h
      cases rest with
      | nil => exact hpart
      | cons next rest =>
          have hcomma : HasNoControl [','] := by decide
          exact hasNoControl_append.mpr ⟨hasNoControl_append.mpr ⟨hpart, hcomma⟩, ih hrest⟩

theorem hasNoControl_toDigits (n : Nat) : HasNoControl (Nat.toDigits 10 n) := by
  intro c hc
  have hdigit := isDigit_of_mem_toDigits hc
  simp only [Numeral.isDigit, Bool.and_eq_true, decide_eq_true_eq] at hdigit
  have hzero : '0'.toNat ≤ c.toNat := hdigit.1
  exact Nat.le_trans (by decide) hzero

theorem hasNoControl_int (n : Int) : HasNoControl (toString n).toList := by
  cases n with
  | ofNat n =>
      rw [toList_toString_ofNat]
      exact hasNoControl_toDigits n
  | negSucc n =>
      rw [toList_toString_negSucc]
      exact hasNoControl_cons.mpr ⟨by decide, hasNoControl_toDigits (n + 1)⟩

mutual

theorem hasNoControl_chars : (value : Value) → isExact value = true → HasNoControl (chars value)
  | .null, _ => by decide
  | .bool b, _ => by cases b <;> decide
  | .int n, _ => hasNoControl_int n
  | .text s, _ => hasNoControl_quoted s
  | .list items, h => by
      have hitems := hasNoControl_joined (hasNoControl_itemChars items h)
      exact hasNoControl_append.mpr ⟨hasNoControl_cons.mpr ⟨by decide, hitems⟩, by decide⟩
  | .dict entries, h => by
      have hentries := hasNoControl_joined (hasNoControl_entryChars entries h)
      exact hasNoControl_append.mpr ⟨hasNoControl_cons.mpr ⟨by decide, hentries⟩, by decide⟩

theorem hasNoControl_itemChars : (items : List Value) → itemsAreExact items = true →
    ∀ part ∈ itemChars items, HasNoControl part
  | [], _ => nofun
  | value :: rest, h => by
      obtain ⟨hvalue, hrest⟩ := Bool.and_eq_true_iff.mp h
      exact List.forall_mem_cons.mpr
        ⟨hasNoControl_chars value hvalue, hasNoControl_itemChars rest hrest⟩

theorem hasNoControl_entryChars : (entries : List (String × Value)) →
    entriesAreExact entries = true → ∀ part ∈ entryChars entries, HasNoControl part
  | [], _ => nofun
  | (key, value) :: rest, h => by
      obtain ⟨hvalue, hrest⟩ := Bool.and_eq_true_iff.mp h
      have hentry : HasNoControl (quoted key ++ ':' :: chars value) :=
        hasNoControl_append.mpr ⟨hasNoControl_quoted key,
          hasNoControl_cons.mpr ⟨by decide, hasNoControl_chars value hvalue⟩⟩
      exact List.forall_mem_cons.mpr ⟨hentry, hasNoControl_entryChars rest hrest⟩

end

end DatasetPlan.Json
