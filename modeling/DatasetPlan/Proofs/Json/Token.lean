import DatasetPlan.Document.Value
import DatasetPlan.Json.Token
import DatasetPlan.Json.Writer
import Mathlib.Data.List.Forall2

namespace DatasetPlan.Json

open Token (next? scanFrom)

def continuesNumber (c : Char) : Bool :=
  Numeral.isDigit c || c = '.' || c = 'e' || c = 'E'

def EndsNumber (rest : List Char) : Prop :=
  ∀ c ∈ rest.head?, continuesNumber c = false

theorem endsNumber_nil : EndsNumber [] :=
  nofun

theorem endsNumber_append {cs rest : List Char} (h : EndsNumber cs) (hrest : EndsNumber rest) :
    EndsNumber (cs ++ rest) := by
  cases cs with
  | nil => exact hrest
  | cons c cs => exact h

/-- The text is that of the tokens, whatever stands behind it. -/
structure Spells (cs : List Char) (tokens : List Token) : Prop where
  scan : ∀ fuel rest, EndsNumber rest →
    scanFrom (fuel + tokens.length) (cs ++ rest) = tokens ++ scanFrom fuel rest
  length_le : tokens.length ≤ cs.length

def AreBlank (cs : List Char) : Prop :=
  ∀ c ∈ cs, isBlank c = true

theorem endsNumber_of_areBlank {blanks : List Char} (h : AreBlank blanks) : EndsNumber blanks := by
  intro c hc
  have hblank := h c (List.mem_of_mem_head? hc)
  simp only [isBlank, Bool.or_eq_true, decide_eq_true_eq] at hblank
  rcases hblank with ((rfl | rfl) | rfl) | rfl <;> rfl

theorem Token.scanFrom_blanks {blanks : List Char} (h : AreBlank blanks) (fuel : Nat)
    (rest : List Char) : scanFrom fuel (blanks ++ rest) = scanFrom fuel rest := by
  cases fuel with
  | zero => rfl
  | succ fuel => rw [scanFrom, scanFrom, next?, next?, List.dropWhile_append_of_pos h]

namespace Spells

variable {cs cs' blanks : List Char} {tokens tokens' : List Token} {token : Token} {mark : Char}

theorem nil : Spells [] [] where
  scan _ _ _ := rfl
  length_le := Nat.le_refl 0

theorem of_next? (h : ∀ rest, EndsNumber rest → next? (cs ++ rest) = some (token, rest))
    (hcs : cs ≠ []) : Spells cs [token] where
  scan fuel rest hrest := by
    rw [List.length_singleton, scanFrom, h rest hrest]
    rfl
  length_le := List.length_pos_iff.mpr hcs

theorem append (h : Spells cs tokens) (h' : Spells cs' tokens') (hends : EndsNumber cs') :
    Spells (cs ++ cs') (tokens ++ tokens') where
  scan fuel rest hrest := by
    rw [List.length_append, Nat.add_comm tokens.length, ← Nat.add_assoc, List.append_assoc,
      h.scan _ _ (endsNumber_append hends hrest), h'.scan _ _ hrest, List.append_assoc]
  length_le := by
    simpa only [List.length_append] using Nat.add_le_add h.length_le h'.length_le

/-- A mark is a token by itself, so that a number may follow it. -/
theorem cons (hmark : ∀ rest, next? (mark :: rest) = some (token, rest)) (h : Spells cs tokens) :
    Spells (mark :: cs) (token :: tokens) where
  scan fuel rest hrest := by
    rw [List.length_cons, ← Nat.add_assoc, scanFrom, List.cons_append, hmark]
    exact congrArg (token :: ·) (h.scan fuel rest hrest)
  length_le := Nat.succ_le_succ h.length_le

theorem after_blanks (hblanks : AreBlank blanks) (h : Spells cs tokens) :
    Spells (blanks ++ cs) tokens where
  scan fuel rest hrest := by
    rw [List.append_assoc, Token.scanFrom_blanks hblanks, h.scan fuel rest hrest]
  length_le := by
    rw [List.length_append]
    exact Nat.le_add_left_of_le h.length_le

theorem scanFrom_eq (h : Spells cs tokens) : scanFrom cs.length cs = tokens := by
  obtain ⟨fuel, hfuel⟩ := Nat.exists_eq_add_of_le' h.length_le
  have hscan := h.scan fuel [] endsNumber_nil
  have hend : scanFrom fuel [] = [] := by cases fuel <;> rfl
  rwa [List.append_nil, hend, List.append_nil, ← hfuel] at hscan

/-! Parts between commas -/

theorem joined {parts : List (List Char)} {lists : List (List Token)} (hblanks : AreBlank blanks)
    (hparts : List.Forall₂ Spells parts lists) :
    Spells (joined (',' :: blanks) parts) ([.comma].intercalate lists) := by
  induction hparts with
  | nil => exact nil
  | @cons part first parts lists hfirst hrest ih =>
      cases hrest with
      | nil => simpa only [Json.joined, List.intercalate_singleton] using hfirst
      | cons hnext hrest =>
          -- A part may be a number; the comma behind it ends it.
          have hcomma (rest : List Char) : next? (',' :: rest) = some (.comma, rest) := rfl
          have htail := (ih.after_blanks hblanks).cons hcomma
          rw [List.intercalate_cons_cons, List.append_assoc, Json.joined, List.append_assoc]
          · exact hfirst.append htail (by rintro _ ⟨⟩; rfl)
          · exact List.cons_ne_nil _ _

theorem enclosed {opening closing : Char} {shape : Tree.Shape} {before between after : List Char}
    {parts : List (List Char)} {lists : List (List Token)}
    (hopening : ∀ rest, next? (opening :: rest) = some (.enter shape, rest))
    (hclosing : ∀ rest, next? (closing :: rest) = some (.leave shape, rest))
    (hends : continuesNumber closing = false)
    (hbefore : AreBlank before) (hbetween : AreBlank between) (hafter : AreBlank after)
    (hparts : List.Forall₂ Spells parts lists) :
    Spells (opening :: (before ++ (Json.joined (',' :: between) parts ++ (after ++ [closing]))))
      (.enter shape :: ([.comma].intercalate lists ++ [.leave shape])) := by
  have hlast : EndsNumber (after ++ [closing]) :=
    endsNumber_append (endsNumber_of_areBlank hafter) (by rintro _ ⟨⟩; exact hends)
  refine cons hopening (after_blanks hbefore ?_)
  exact (joined hbetween hparts).append ((nil.cons hclosing).after_blanks hafter) hlast

end Spells

/-! Text -/

theorem hexDigit?_digitChar : ∀ d < 16, hexDigit? (Nat.digitChar d) = some d := by decide

theorem codeUnit?_control (c : Char) (h : c.toNat < 32) :
    codeUnit? ['0', '0', Nat.digitChar (c.toNat / 16), Nat.digitChar (c.toNat % 16)] =
      some (.whole c) := by
  have hdigits : ['0', '0', Nat.digitChar (c.toNat / 16), Nat.digitChar (c.toNat % 16)].mapM
      hexDigit? = some [0, 0, c.toNat / 16, c.toNat % 16] := by
    have hzero : hexDigit? '0' = some 0 := by decide
    simp [hzero, hexDigit?_digitChar (c.toNat / 16) (by omega),
      hexDigit?_digitChar (c.toNat % 16) (by omega)]
  have hvalue : [0, 0, c.toNat / 16, c.toNat % 16].foldl (fun n d => 16 * n + d) 0 = c.toNat := by
    simp only [List.foldl_cons, List.foldl_nil]
    omega
  simp only [codeUnit?, hdigits, Option.bind_eq_bind, Option.bind_some, hvalue]
  rw [if_neg (by omega), if_neg (by omega), Char.ofNat_toNat]

theorem codeUnits_escaped (c : Char) (rest : List Char) :
    codeUnits (escaped c ++ rest) =
      (codeUnits rest).bind fun found => some (.whole c :: found.1, found.2) := by
  by_cases hletter : c ∈ ['"', '\\', '\n', '\r', '\t', '\x08', '\x0c']
  · simp only [List.mem_cons, List.not_mem_nil, or_false] at hletter
    rcases hletter with rfl | rfl | rfl | rfl | rfl | rfl | rfl <;> rfl
  · simp only [List.mem_cons, List.not_mem_nil, or_false, not_or] at hletter
    obtain ⟨hquote, hslash, hline, hreturn, htab, hback, hfeed⟩ := hletter
    simp only [escaped, hquote, hslash, hline, hreturn, htab, hback, hfeed, or_self, if_false]
    split
    · next hcontrol =>
        simp only [List.cons_append, List.nil_append, codeUnits, codeUnit?_control c hcontrol]
        rfl
    · next hcontrol =>
        simp [codeUnits, hslash, hcontrol]

theorem codeUnits_quoted (cs rest : List Char) :
    codeUnits (cs.flatMap escaped ++ '"' :: rest) = some (cs.map .whole, rest) := by
  induction cs with
  | nil => rfl
  | cons c cs ih =>
      rw [List.flatMap_cons, List.append_assoc, codeUnits_escaped, ih]
      rfl

theorem joinUnits_whole (cs : List Char) : joinUnits (cs.map .whole) = some cs := by
  induction cs with
  | nil => rfl
  | cons c cs ih => rw [List.map_cons, joinUnits, ih, Option.map_eq_map, Option.map_some]

theorem spells_quoted (s : String) : Spells (quoted s) [.text (some s)] := by
  refine .of_next? (fun rest _ => ?_) (List.cons_ne_nil _ _)
  have hnext (cs : List Char) : next? ('"' :: cs) = some (Token.textFrom cs) := rfl
  have hunits := codeUnits_quoted s.toList rest
  rw [quoted, List.cons_append, List.cons_append, List.append_assoc, hnext, Token.textFrom]
  simp only [List.singleton_append, hunits, joinUnits_whole, Option.map_some, String.ofList_toList]

/-! Integers -/

theorem isDigit_of_mem_toDigits {c : Char} {n : Nat} (h : c ∈ Nat.toDigits 10 n) :
    Numeral.isDigit c = true :=
  Nat.isDigit_of_mem_toDigits (by decide) (by decide) h

theorem digitChar_ne_zero : ∀ d < 10, 0 < d → Nat.digitChar d ≠ '0' := by decide

theorem toDigits_head_ne_zero {n : Nat} (hn : 0 < n) : (Nat.toDigits 10 n).head? ≠ some '0' := by
  induction n using Nat.strongRecOn with
  | ind n ih =>
      by_cases hsmall : n < 10
      · rw [Nat.toDigits_of_lt_base hsmall]
        exact fun h => digitChar_ne_zero n hsmall hn (Option.some.inj h)
      · rw [Nat.toDigits_of_base_le (by decide) (Nat.le_of_not_lt hsmall),
          List.head?_append_of_ne_nil _ Nat.toDigits_ne_nil]
        exact ih (n / 10) (by omega) (by omega)

theorem toDigits_ne_zero_cons (n : Nat) (c : Char) (cs : List Char) :
    Nat.toDigits 10 n ≠ '0' :: c :: cs := by
  intro h
  rcases Nat.eq_zero_or_pos n with rfl | hn
  · exact List.cons_ne_nil c cs (List.cons.inj h).2.symm
  · exact toDigits_head_ne_zero hn (by rw [h, List.head?_cons])

theorem le_ofDigitChars (digits : List Char) (value : Nat) :
    value ≤ Nat.ofDigitChars 10 digits value := by
  induction digits generalizing value with
  | nil => exact Nat.le_refl value
  | cons c digits ih =>
      refine Nat.le_trans ?_ (ih (10 * value + (c.toNat - '0'.toNat)))
      omega

theorem addWhole_eq {value : Nat} {digits : List Char}
    (h : Nat.ofDigitChars 10 digits value < Width.span 64) :
    Significand.addWhole ⟨value, 0⟩ digits = ⟨Nat.ofDigitChars 10 digits value, 0⟩ := by
  induction digits generalizing value with
  | nil => rfl
  | cons c digits ih =>
      have hfits : Significand.fits (10 * value + (c.toNat - '0'.toNat)) = true :=
        decide_eq_true (Nat.lt_of_le_of_lt (le_ofDigitChars digits _) h)
      simp only [Significand.addWhole, hfits, if_true]
      exact ih h

theorem spanDigits_append {digits rest : List Char} (h : ∀ c ∈ digits, Numeral.isDigit c = true)
    (hrest : EndsNumber rest) : spanDigits (digits ++ rest) = (digits, rest) := by
  have hnone : spanDigits rest = ([], rest) := by
    cases rest with
    | nil => rfl
    | cons c rest =>
        have hc : Numeral.isDigit c = false := by
          have hcontinues := hrest c rfl
          simp_all [continuesNumber]
        simp [spanDigits, hc]
  obtain ⟨htake, hdrop⟩ := Prod.mk.inj hnone
  rw [spanDigits, List.takeWhile_append_of_pos h, List.dropWhile_append_of_pos h, htake, hdrop,
    List.append_nil]

theorem number?_digits (negative : Bool) (n : Nat) {rest : List Char} (hrest : EndsNumber rest) :
    number? negative (Nat.toDigits 10 n ++ rest) =
      some (wholeNumber negative (Nat.toDigits 10 n), rest) := by
  have hspan : spanDigits (Nat.toDigits 10 n ++ rest) = (Nat.toDigits 10 n, rest) :=
    spanDigits_append (fun c hc => isDigit_of_mem_toDigits hc) hrest
  unfold number?
  rw [hspan]
  split
  · next h => exact absurd (Prod.mk.inj h).1 Nat.toDigits_ne_nil
  · next h => exact absurd (Prod.mk.inj h).1 (toDigits_ne_zero_cons n _ _)
  · next h =>
      obtain ⟨-, rfl⟩ := Prod.mk.inj h
      exact absurd (hrest '.' rfl) (by decide)
  · next h =>
      obtain ⟨rfl, rfl⟩ := Prod.mk.inj h
      have hc := hrest _ rfl
      rw [if_neg]
      rintro (rfl | rfl) <;> exact absurd hc (by decide)
  · next h =>
      obtain ⟨rfl, rfl⟩ := Prod.mk.inj h
      rfl

theorem next?_digit {c : Char} (cs : List Char) (hc : Numeral.isDigit c = true) :
    next? (c :: cs) = some (Token.numberFrom false (c :: cs)) := by
  have hne (d : Char) (hd : Numeral.isDigit d = false) : c ≠ d := by
    rintro rfl
    exact absurd (hc.symm.trans hd) (by decide)
  have hblank : isBlank c = false := by
    simp [isBlank, hne ' ' (by decide), hne '\n' (by decide), hne '\t' (by decide),
      hne '\r' (by decide)]
  unfold next?
  rw [List.dropWhile_cons_of_neg (by simp [hblank])]
  split
  · next h => contradiction
  all_goals
    next h =>
      first
      | exact absurd (List.cons.inj h).1 (hne _ (by decide))
      | rfl

theorem next?_digits (n : Nat) {rest : List Char} (hrest : EndsNumber rest) :
    next? (Nat.toDigits 10 n ++ rest) =
      some (.scalar (wholeNumber false (Nat.toDigits 10 n)), rest) := by
  obtain ⟨c, cs, hcs⟩ := List.exists_cons_of_ne_nil (Nat.toDigits_ne_nil (n := n) (b := 10))
  have hc : Numeral.isDigit c = true := isDigit_of_mem_toDigits (hcs ▸ List.mem_cons_self)
  have hnumber := number?_digits false n hrest
  rw [hcs] at hnumber ⊢
  rw [List.cons_append, next?_digit _ hc, ← List.cons_append, Token.numberFrom, hnumber]

theorem wholeNumber_digits {n : Nat} (h : n < Width.span 64) :
    wholeNumber false (Nat.toDigits 10 n) = some (.int n) := by
  have hvalue : Nat.ofDigitChars 10 (Nat.toDigits 10 n) 0 = n := Nat.ofDigitChars_ten_toDigits
  rw [wholeNumber, addWhole_eq (by rwa [hvalue]), hvalue]
  rfl

theorem wholeNumber_negative_digits {n : Nat} (hpos : 0 < n) (h : n ≤ Width.signedBound 64) :
    wholeNumber true (Nat.toDigits 10 n) = some (.int (-n)) := by
  have hvalue : Nat.ofDigitChars 10 (Nat.toDigits 10 n) 0 = n := Nat.ofDigitChars_ten_toDigits
  have hspan : n < Width.span 64 := Nat.lt_of_le_of_lt h (by decide)
  rw [wholeNumber, addWhole_eq (by rwa [hvalue]), hvalue]
  simp [hpos, h]

theorem toList_toString_ofNat (n : Nat) : (toString (Int.ofNat n)).toList = Nat.toDigits 10 n :=
  Nat.toList_repr

theorem toList_toString_negSucc (n : Nat) :
    (toString (Int.negSucc n)).toList = '-' :: Nat.toDigits 10 (n + 1) := by
  have hrepr : toString (Int.negSucc n) = "-" ++ (n + 1).repr := rfl
  rw [hrepr, String.toList_append, Nat.toList_repr]
  rfl

theorem spells_int {n : Int} (h : (Width.isSigned 64 n || Width.isUnsigned 64 n) = true) :
    Spells (toString n).toList [.scalar (some (.int n))] := by
  simp only [Width.isSigned, Width.isUnsigned, Bool.or_eq_true, Bool.and_eq_true,
    decide_eq_true_eq] at h
  have hspan : (Width.signedBound 64 : Int) < Width.span 64 := by decide
  cases n with
  | ofNat n =>
      have hn : n < Width.span 64 := by
        simp only [Int.ofNat_eq_natCast] at h
        omega
      rw [toList_toString_ofNat]
      refine .of_next? (fun rest hrest => ?_) Nat.toDigits_ne_nil
      rw [next?_digits n hrest, wholeNumber_digits hn]
      rfl
  | negSucc n =>
      have hn : n + 1 ≤ Width.signedBound 64 := by omega
      rw [toList_toString_negSucc]
      refine .of_next? (fun rest hrest => ?_) (List.cons_ne_nil _ _)
      have hnext (cs : List Char) : next? ('-' :: cs) = some (Token.numberFrom true cs) := rfl
      rw [List.cons_append, hnext, Token.numberFrom, number?_digits true (n + 1) hrest,
        wholeNumber_negative_digits (Nat.succ_pos n) hn]
      rfl

end DatasetPlan.Json
