import DatasetPlan.Plan.Digest
import DatasetPlan.Proofs.Text
import Mathlib.Data.List.Basic

namespace DatasetPlan.Digest

variable {text other rest rest' : String} {texts : List String}

private theorem append_cons_cases {x : α} {first second tail tail' : List α}
    (h : first ++ x :: tail = second ++ x :: tail') :
    first = second ∧ tail = tail' ∨
      (∃ between, second = first ++ x :: between ∧ tail = between ++ x :: tail') ∨
      ∃ between, first = second ++ x :: between ∧ tail' = between ++ x :: tail := by
  rcases List.append_eq_append_iff.mp h with ⟨mid, hmid, htail⟩ | ⟨mid, hmid, htail⟩
  · rcases List.cons_eq_append_iff.mp htail with ⟨rfl, hrest⟩ | ⟨between, rfl, hrest⟩
    · exact .inl ⟨by simpa using hmid.symm, (List.cons.inj hrest).2.symm⟩
    · exact .inr (.inl ⟨between, hmid, hrest⟩)
  · rcases List.cons_eq_append_iff.mp htail with ⟨rfl, hrest⟩ | ⟨between, rfl, hrest⟩
    · exact .inl ⟨by simpa using hmid, (List.cons.inj hrest).2⟩
    · exact .inr (.inr ⟨between, hmid, hrest⟩)

private theorem toList_append_terminator (text rest : String) :
    (text ++ terminator ++ rest).toList = text.toList ++ '\x00' :: rest.toList := by
  simp [terminator]

/-- When one text can be cut at a terminator in two ways, either way's second part lies within
the other's, behind the other's terminator. -/
theorem append_terminator_cases (h : text ++ terminator ++ rest = other ++ terminator ++ rest') :
    text = other ∧ rest = rest' ∨
      (∃ between, other = text ++ terminator ++ between ∧
        rest = between ++ terminator ++ rest') ∨
      ∃ between, text = other ++ terminator ++ between ∧
        rest' = between ++ terminator ++ rest := by
  have hchars := congrArg String.toList h
  simp only [toList_append_terminator] at hchars
  simp only [← String.toList_inj, toList_append_terminator]
  rcases append_cons_cases hchars with hsame | ⟨between, hother, hrest⟩ | ⟨between, htext, hrest⟩
  · exact .inl hsame
  · exact .inr (.inl ⟨String.ofList between, by simpa using hother, by simpa using hrest⟩)
  · exact .inr (.inr ⟨String.ofList between, by simpa using htext, by simpa using hrest⟩)

/-- A text without terminators. It ends where the next terminator stands. -/
def IsField (text : String) : Prop :=
  '\x00' ∉ text.toList

instance : Decidable (IsField text) :=
  inferInstanceAs (Decidable (_ ∉ _))

theorem isField_ofList {chars : List Char} (h : '\x00' ∉ chars) :
    IsField (String.ofList chars) := by
  rwa [IsField, String.toList_ofList]

theorem isField_append : IsField (text ++ other) ↔ IsField text ∧ IsField other := by
  simp [IsField]

theorem not_isField_append_terminator (text rest : String) :
    ¬IsField (text ++ terminator ++ rest) := by
  rw [IsField, toList_append_terminator]
  simp

theorem field_append_inj (h : IsField text) (h' : IsField other) :
    text ++ terminator ++ rest = other ++ terminator ++ rest' ↔ text = other ∧ rest = rest' := by
  constructor
  · intro heq
    rcases append_terminator_cases heq with hsame | ⟨between, rfl, -⟩ | ⟨between, rfl, -⟩
    · exact hsame
    · exact absurd h' (not_isField_append_terminator _ _)
    · exact absurd h (not_isField_append_terminator _ _)
  · rintro ⟨rfl, rfl⟩
    rfl

theorem append_field_inj (h : IsField rest) (h' : IsField rest') :
    text ++ terminator ++ rest = other ++ terminator ++ rest' ↔ text = other ∧ rest = rest' := by
  constructor
  · intro heq
    rcases append_terminator_cases heq with hsame | ⟨between, -, rfl⟩ | ⟨between, -, rfl⟩
    · exact hsame
    · exact absurd h (not_isField_append_terminator _ _)
    · exact absurd h' (not_isField_append_terminator _ _)
  · rintro ⟨rfl, rfl⟩
    rfl

theorem isField_intercalate {separator : String} (h : IsField separator)
    (htexts : ∀ text ∈ texts, IsField text) : IsField (separator.intercalate texts) := by
  induction texts with
  | nil => simp [IsField]
  | cons text texts ih =>
      obtain ⟨htext, hrest⟩ := List.forall_mem_cons.mp htexts
      cases texts with
      | nil => simpa using htext
      | cons next texts =>
          rw [String.intercalate_cons_cons, isField_append, isField_append]
          exact ⟨⟨htext, h⟩, ih hrest⟩

@[simp] theorem terminated_nil : terminated [] = "" := rfl

theorem terminated_cons (text : String) (texts : List String) :
    terminated (text :: texts) = text ++ terminator ++ terminated texts := by
  simp [terminated]

theorem terminated_cons_ne_empty (text : String) (texts : List String) :
    terminated (text :: texts) ≠ "" := by
  rw [terminated_cons, ← String.toList_inj.ne, toList_append_terminator]
  simp

theorem terminated_parts (h : texts ≠ []) (others : List String) :
    terminated (parts texts :: others) = terminated (texts ++ others) := by
  induction texts with
  | nil => contradiction
  | cons text texts ih =>
      cases texts with
      | nil => simp [parts]
      | cons next texts =>
          rw [List.cons_append, terminated_cons text, ← ih (List.cons_ne_nil _ _), terminated_cons,
            terminated_cons, parts, String.intercalate_cons_cons]
          simp only [String.append_assoc, parts]

private theorem toString_injective {m n : Nat} (h : toString m = toString n) : m = n := by
  rw [Nat.toString_eq_repr, Nat.toString_eq_repr, Nat.repr_eq_ofList_toDigits,
    Nat.repr_eq_ofList_toDigits, String.ofList_inj] at h
  have hvalue := congrArg (Nat.ofDigitChars 10 · 0) h
  simpa only [Nat.ofDigitChars_ten_toDigits] using hvalue

theorem isField_toString (n : Nat) : IsField (toString n) :=
  fun hmem => absurd (Text.isDigit_of_mem_toString hmem) (by decide)

theorem isField_indicesText (indices : List Nat) : IsField (indicesText indices) := by
  refine isField_intercalate (by decide) fun text htext => ?_
  obtain ⟨i, -, rfl⟩ := List.mem_map.mp htext
  exact isField_toString i

theorem splitOn_indicesText {indices : List Nat} (h : indices ≠ []) :
    (indicesText indices).toList.splitOn ',' = indices.map fun i => (toString i).toList := by
  have hcommas : ∀ text ∈ indices.map toString, ',' ∉ text.toList :=
    List.forall_mem_map.mpr fun i _ hcomma =>
      absurd (Text.isDigit_of_mem_toString hcomma) (by decide)
  rw [indicesText, Text.splitOn_intercalate hcommas (by simpa using h), List.map_map]
  rfl

theorem indicesText_eq_empty {indices : List Nat} : indicesText indices = "" ↔ indices = [] := by
  constructor
  · intro hempty
    by_contra hne
    have hsplit := splitOn_indicesText hne
    obtain ⟨i, rest, rfl⟩ := List.exists_cons_of_ne_nil hne
    simp [hempty, Nat.toDigits_ne_nil] at hsplit
  · rintro rfl
    rfl

theorem indicesText_injective : Function.Injective indicesText := by
  intro indices others h
  by_cases hnil : indices = []
  · rw [hnil, eq_comm, ← indicesText_eq_empty, ← h, indicesText_eq_empty, hnil]
  · have hother : others ≠ [] := fun heq =>
      hnil (indicesText_eq_empty.mp (h.trans (indicesText_eq_empty.mpr heq)))
    have hsplit := splitOn_indicesText hnil
    rw [h, splitOn_indicesText hother] at hsplit
    refine List.map_injective_iff.mpr (fun i j hij => ?_) hsplit.symm
    exact toString_injective (String.toList_inj.mp hij)

end DatasetPlan.Digest
