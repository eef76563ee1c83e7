namespace DatasetPlan.Text

/-- The text up to the byte `limit`, unless this byte stands inside a character. -/
def truncate? (limit : Nat) (text : String) : Option String :=
  if text.utf8ByteSize ≤ limit then some text
  else if h : String.Pos.Raw.IsValid text ⟨limit⟩ then some (text.sliceTo ⟨⟨limit⟩, h⟩).copy
  else none

variable {limit : Nat} {text : String}

theorem truncate?_of_le (h : text.utf8ByteSize ≤ limit) : truncate? limit text = some text :=
  if_pos h

theorem truncate?_append (kept rest : String) :
    truncate? kept.utf8ByteSize (kept ++ rest) = some kept := by
  by_cases hle : (kept ++ rest).utf8ByteSize ≤ kept.utf8ByteSize
  · have hrest : rest.utf8ByteSize = 0 := by
      rw [String.utf8ByteSize_append] at hle
      omega
    rw [truncate?_of_le hle, String.utf8ByteSize_eq_zero_iff.mp hrest, String.append_empty]
  · have hvalid : String.Pos.Raw.IsValid (kept ++ rest) ⟨kept.utf8ByteSize⟩ :=
      String.Pos.Raw.isValid_iff_exists_append.mpr ⟨kept, rest, rfl, rfl⟩
    rw [truncate?, if_neg hle, dif_pos hvalid]
    exact congrArg some ((String.Pos.splits _).eq_left ⟨rfl, rfl⟩)

/-- A text can be cut at its end, beyond it and between two of its characters. -/
theorem isSome_truncate? :
    (truncate? limit text).isSome = true ↔
      String.Pos.Raw.IsValid text ⟨min limit text.utf8ByteSize⟩ := by
  rcases Nat.lt_or_ge limit text.utf8ByteSize with hlt | hle
  · rw [Nat.min_eq_left (Nat.le_of_lt hlt), truncate?, if_neg (Nat.not_le_of_lt hlt)]
    split
    · next hvalid => exact iff_of_true rfl hvalid
    · next hinvalid => exact iff_of_false Bool.false_ne_true hinvalid
  · rw [Nat.min_eq_right hle, truncate?_of_le hle]
    exact iff_of_true rfl String.Pos.Raw.isValid_rawEndPos

example : truncate? 3 "café" = some "caf" ∧ truncate? 4 "café" = none := by decide

theorem isAlphanum_iff {c : Char} :
    c.isAlphanum = true ↔ ('A' ≤ c ∧ c ≤ 'Z' ∨ 'a' ≤ c ∧ c ≤ 'z') ∨ '0' ≤ c ∧ c ≤ '9' := by
  change ((decide ('A' ≤ c ∧ c ≤ 'Z') || (decide ('a' ≤ c) && decide (c ≤ 'z'))) ||
    (decide ('0' ≤ c) && decide (c ≤ '9'))) = true ↔ _
  simp only [Bool.or_eq_true, Bool.and_eq_true, decide_eq_true_eq]

theorem utf8Size_of_isAlphanum {c : Char} (h : c.isAlphanum = true) : c.utf8Size = 1 := by
  have hle : c ≤ '\x7f' := by
    rcases isAlphanum_iff.mp h with (⟨-, hlast⟩ | ⟨-, hlast⟩) | ⟨-, hlast⟩
    all_goals exact Char.le_trans hlast (by decide)
  exact Char.utf8Size_eq_one_iff.mpr hle

variable {cs : List Char}

theorem utf8ByteSize_ofList (h : ∀ c ∈ cs, c.utf8Size = 1) :
    (String.ofList cs).utf8ByteSize = cs.length := by
  induction cs with
  | nil => rfl
  | cons c rest ih =>
      obtain ⟨hc, hrest⟩ := List.forall_mem_cons.mp h
      rw [String.ofList_cons, String.utf8ByteSize_append, String.utf8ByteSize_singleton, hc,
        ih hrest, List.length_cons, Nat.add_comm]

theorem truncate?_ofList (h : ∀ c ∈ cs, c.utf8Size = 1) (limit : Nat) :
    truncate? limit (String.ofList cs) = some (String.ofList (cs.take limit)) := by
  rcases Nat.le_total limit cs.length with hle | hle
  · have hkept : (String.ofList (cs.take limit)).utf8ByteSize = limit := by
      rw [utf8ByteSize_ofList fun c hc => h c (List.mem_of_mem_take hc), List.length_take,
        Nat.min_eq_left hle]
    have hcut := truncate?_append (String.ofList (cs.take limit)) (String.ofList (cs.drop limit))
    rwa [hkept, ← String.ofList_append, List.take_append_drop] at hcut
  · rw [List.take_of_length_le hle]
    exact truncate?_of_le (utf8ByteSize_ofList h ▸ hle)

end DatasetPlan.Text
