import DatasetPlan.Text.Blank
import Mathlib.Data.List.DropRight

namespace DatasetPlan.Text

theorem pieces_eq_splitOn (separator : Char) (cs : List Char) :
    pieces separator cs = cs.splitOn separator := by
  induction cs with
  | nil => rfl
  | cons c rest ih =>
      rw [List.splitOn_eq_splitOnP, List.splitOnP_cons_eq_if_modifyHead,
        ← List.splitOn_eq_splitOnP, ← ih, pieces]
      by_cases hc : c = separator
      · simp only [hc, if_true, beq_self_eq_true]
      · obtain ⟨first, others, hpieces⟩ :=
          List.exists_cons_of_ne_nil (ih ▸ List.splitOn_ne_nil separator rest)
        rw [if_neg hc, if_neg (by simpa using hc), hpieces]
        rfl

theorem splitOn_intercalate {texts : List String} (hcommas : ∀ text ∈ texts, ',' ∉ text.toList)
    (hne : texts ≠ []) :
    (",".intercalate texts).toList.splitOn ',' = texts.map String.toList := by
  rw [String.toList_intercalate]
  exact List.splitOn_intercalate ',' (List.forall_mem_map.mpr hcommas) (by simpa using hne)

theorem isDigit_of_mem_toString {n : Nat} {c : Char} (h : c ∈ (toString n).toList) :
    c.isDigit = true := by
  rw [Nat.toString_eq_repr, Nat.repr_eq_ofList_toDigits, String.toList_ofList] at h
  exact Nat.isDigit_of_mem_toDigits (by decide) (by decide) h

def AreBlank (cs : List Char) : Prop :=
  ∀ c ∈ cs, isBlank c = true

instance (cs : List Char) : Decidable (AreBlank cs) :=
  inferInstanceAs (Decidable (∀ c ∈ cs, isBlank c = true))

structure IsTrimmed (cs : List Char) : Prop where
  head : ∀ c ∈ cs.head?, isBlank c = false
  last : ∀ c ∈ cs.getLast?, isBlank c = false

def Pads (padded core : List Char) : Prop :=
  ∃ before after, AreBlank before ∧ AreBlank after ∧ padded = before ++ core ++ after

variable {padded core : List Char}

theorem IsTrimmed.nil : IsTrimmed [] :=
  ⟨nofun, nofun⟩

theorem IsTrimmed.rdropWhile_eq_self (h : IsTrimmed core) : core.rdropWhile isBlank = core := by
  refine List.rdropWhile_eq_self_iff.mpr fun hne => ?_
  simp [h.last _ (List.getLast?_eq_some_getLast hne)]

theorem AreBlank.rdropWhile_append {after : List Char} (h : AreBlank after) (cs : List Char) :
    (cs ++ after).rdropWhile isBlank = cs.rdropWhile isBlank := by
  rw [List.rdropWhile, List.reverse_append,
    List.dropWhile_append_of_pos fun c hc => h c (List.mem_reverse.mp hc), List.rdropWhile]

theorem trimmedChars_eq_rdropWhile (cs : List Char) :
    trimmedChars cs = (cs.dropWhile isBlank).rdropWhile isBlank := rfl

theorem isTrimmed_trimmedChars (cs : List Char) : IsTrimmed (trimmedChars cs) where
  head c hc := by
    rw [trimmedChars_eq_rdropWhile] at hc
    obtain ⟨rest, hrest⟩ := List.rdropWhile_prefix isBlank (cs.dropWhile isBlank)
    have hhead : (cs.dropWhile isBlank).head? = some c := by
      rw [← hrest, List.head?_append, Option.mem_def.mp hc]
      rfl
    have hnot := List.head?_dropWhile_not isBlank cs
    rwa [hhead] at hnot
  last c hc := by
    rw [trimmedChars_eq_rdropWhile] at hc
    obtain ⟨hne, rfl⟩ := List.mem_getLast?_eq_getLast hc
    simpa using List.rdropWhile_last_not isBlank _ hne

theorem pads_trimmedChars (cs : List Char) : Pads cs (trimmedChars cs) := by
  refine ⟨cs.takeWhile isBlank, (cs.dropWhile isBlank).rtakeWhile isBlank,
    fun c hc => List.mem_takeWhile_imp hc, fun c hc => List.mem_rtakeWhile_imp hc, ?_⟩
  rw [trimmedChars_eq_rdropWhile, List.append_assoc, List.rdropWhile_append_rtakeWhile,
    List.takeWhile_append_dropWhile]

/-- Trimming is finding the core that is trimmed. -/
theorem trimmedChars_eq_iff : trimmedChars padded = core ↔ Pads padded core ∧ IsTrimmed core := by
  constructor
  · rintro rfl
    exact ⟨pads_trimmedChars padded, isTrimmed_trimmedChars padded⟩
  · rintro ⟨⟨before, after, hbefore, hafter, rfl⟩, hcore⟩
    rw [trimmedChars_eq_rdropWhile, List.append_assoc, List.dropWhile_append_of_pos hbefore]
    cases core with
    | nil => rw [List.nil_append, List.dropWhile_eq_nil_iff.mpr hafter, List.rdropWhile_nil]
    | cons c rest =>
        have hc : ¬isBlank c = true := by simp [hcore.head c rfl]
        rw [List.cons_append, List.dropWhile_cons_of_neg hc, ← List.cons_append,
          hafter.rdropWhile_append, hcore.rdropWhile_eq_self]

theorem trimmedChars_eq_nil {cs : List Char} : trimmedChars cs = [] ↔ AreBlank cs := by
  rw [trimmedChars_eq_iff, and_iff_left IsTrimmed.nil]
  constructor
  · rintro ⟨before, after, hbefore, hafter, rfl⟩
    rw [List.append_nil]
    exact fun c hc => (List.mem_append.mp hc).elim (hbefore c) (hafter c)
  · intro hblank
    exact ⟨cs, [], hblank, nofun, by simp⟩

end DatasetPlan.Text
