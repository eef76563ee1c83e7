import DatasetPlan.Proofs.Naming
import DatasetPlan.Proofs.Text

namespace DatasetPlan.Variable

def IsNameChar (c : Char) : Prop :=
  c.isAlphanum = true ∨ c = '_'

instance (c : Char) : Decidable (IsNameChar c) :=
  inferInstanceAs (Decidable (_ ∨ _))

theorem isNameChar_normalizedChar (c : Char) : IsNameChar (normalizedChar c) := by
  unfold normalizedChar
  split
  · rename_i halphanum
    exact .inl halphanum
  · exact .inr rfl

theorem normalizedChar_eq_self {c : Char} : normalizedChar c = c ↔ IsNameChar c := by
  constructor
  · intro heq
    exact heq ▸ isNameChar_normalizedChar c
  · rintro (halphanum | rfl)
    · exact if_pos halphanum
    · rfl

@[simp] theorem toList_normalizeName (name : String) :
    (normalizeName name).toList = (name.toList.take nameLimit).map normalizedChar := by
  simp only [normalizeName, truncate?_underscored, Option.get_some, String.toList_ofList,
    List.map_take]

@[simp] theorem length_normalizeName (name : String) :
    (normalizeName name).length = min nameLimit name.length := by
  rw [← String.length_toList, toList_normalizeName, List.length_map, List.length_take,
    String.length_toList]

theorem length_normalizeName_le (name : String) : (normalizeName name).length ≤ nameLimit := by
  rw [length_normalizeName]
  exact Nat.min_le_left _ _

theorem isNameChar_of_mem_normalizeName {name : String} {c : Char}
    (h : c ∈ (normalizeName name).toList) : IsNameChar c := by
  rw [toList_normalizeName] at h
  obtain ⟨original, -, rfl⟩ := List.mem_map.mp h
  exact isNameChar_normalizedChar original

theorem normalizeName_eq_self {name : String} :
    normalizeName name = name ↔ name.length ≤ nameLimit ∧ ∀ c ∈ name.toList, IsNameChar c := by
  constructor
  · intro heq
    refine ⟨?_, fun c hc => isNameChar_of_mem_normalizeName (heq.symm ▸ hc)⟩
    rw [← heq]
    exact length_normalizeName_le name
  · rintro ⟨hlength, hchars⟩
    have htake : name.toList.take nameLimit = name.toList :=
      List.take_of_length_le (String.length_toList ▸ hlength)
    have hmap : name.toList.map normalizedChar = name.toList.map id :=
      List.map_congr_left fun c hc => normalizedChar_eq_self.mpr (hchars c hc)
    rw [← String.toList_inj, toList_normalizeName, htake, hmap, List.map_id]

theorem normalizeName_normalizeName (name : String) :
    normalizeName (normalizeName name) = normalizeName name := by
  apply normalizeName_eq_self.mpr
  constructor
  · exact length_normalizeName_le name
  · intro c hc
    exact isNameChar_of_mem_normalizeName hc

theorem normalizeName_congr {name other : String}
    (h : other.toList.take nameLimit = name.toList.take nameLimit) :
    normalizeName other = normalizeName name := by
  apply String.toList_inj.mp
  rw [toList_normalizeName, toList_normalizeName, h]

theorem normalizedChar_eq_ite (c : Char) :
    normalizedChar c =
      if 'a' ≤ c ∧ c ≤ 'z' ∨ 'A' ≤ c ∧ c ≤ 'Z' ∨ '0' ≤ c ∧ c ≤ '9' then c else '_' := by
  apply ite_congr
  · rw [Text.isAlphanum_iff, or_left_comm, or_assoc]
  · intro _; rfl
  · intro _; rfl

theorem getElem?_normalizeName (name : String) (i : Nat) :
    (normalizeName name).toList[i]? =
      if i < nameLimit then name.toList[i]?.map normalizedChar else none := by
  rw [toList_normalizeName, List.getElem?_map, List.getElem?_take]
  split
  · rfl
  · rfl

theorem truncate?_underscored_eq_normalizeName (name : String) :
    Text.truncate? nameLimit (underscored name) = some (normalizeName name) :=
  (Option.some_get _).symm

/-- The limit cuts no character, so it is one of characters: each of the first fifty is kept or
becomes an underscore, and the others do not matter. -/
theorem normalizeName_bounded (name : String) :
    (String.Pos.Raw.IsValid (underscored name) ⟨min 50 (underscored name).utf8ByteSize⟩ ∧
      Text.truncate? 50 (underscored name) = some (normalizeName name)) ∧
    (normalizeName name).length = min 50 name.length ∧
    (∀ i : Nat, (normalizeName name).toList[i]? =
      if i < 50 then
        name.toList[i]?.map fun c =>
          if 'a' ≤ c ∧ c ≤ 'z' ∨ 'A' ≤ c ∧ c ≤ 'Z' ∨ '0' ≤ c ∧ c ≤ '9' then c else '_'
      else none) ∧
    (∀ other : String, other.toList.take 50 = name.toList.take 50 →
      normalizeName other = normalizeName name) ∧
    normalizeName (normalizeName name) = normalizeName name := by
  have hcut : Text.truncate? 50 (underscored name) = some (normalizeName name) :=
    truncate?_underscored_eq_normalizeName name
  have hposition : String.Pos.Raw.IsValid (underscored name)
      ⟨min 50 (underscored name).utf8ByteSize⟩ := by
    apply Text.isSome_truncate?.mp
    rw [hcut]
    rfl
  refine ⟨⟨hposition, hcut⟩, length_normalizeName name, ?_, ?_, normalizeName_normalizeName name⟩
  · intro i
    simp only [← normalizedChar_eq_ite]
    exact getElem?_normalizeName name i
  · intro other htake
    exact normalizeName_congr htake

/-- The fiftieth character of this name begins within the limit and would end beyond it. -/
def straddling (rest : String) : String :=
  String.ofList (List.replicate 49 'a') ++ "é" ++ rest

theorem normalizeName_bounded_straddling :
    Text.truncate? 50 (straddling "€") = none ∧
      (straddling "t").toList.take 50 = (straddling "€").toList.take 50 ∧
      normalizeName (straddling "t") = normalizeName (straddling "€") := by
  have hraw : Text.truncate? 50 (straddling "€") = none := by decide
  have htake : (straddling "t").toList.take 50 = (straddling "€").toList.take 50 := by decide
  obtain ⟨-, -, -, hcongr, -⟩ := normalizeName_bounded (straddling "€")
  exact ⟨hraw, htake, hcongr (straddling "t") htake⟩

def suffix (name : String) (existing : List Variable) : String :=
  let count := countNamed existing (normalizeName name)
  if count = 0 then "" else "_" ++ toString count

variable {name : String} {existing : List Variable} {c : Char}

theorem distinctName_eq_append (name : String) (existing : List Variable) :
    distinctName name existing = normalizeName name ++ suffix name existing := by
  by_cases hcount : countNamed existing (normalizeName name) = 0
  · simp only [distinctName, suffix, hcount, if_true, String.append_empty]
  · simp only [distinctName, suffix, hcount, if_false, String.append_assoc]

theorem isNameChar_of_mem_suffix (h : c ∈ (suffix name existing).toList) : IsNameChar c := by
  simp only [suffix] at h
  split at h
  · contradiction
  · rw [String.toList_append, List.mem_append] at h
    rcases h with hunderscore | hnumeral
    · exact .inr (List.mem_singleton.mp hunderscore)
    · have hdigit := Text.isDigit_of_mem_toString hnumeral
      exact .inl (by simp [Char.isAlphanum, hdigit])

theorem isNameChar_of_mem_distinctName (h : c ∈ (distinctName name existing).toList) :
    IsNameChar c := by
  rw [distinctName_eq_append, String.toList_append, List.mem_append] at h
  rcases h with hname | hsuffix
  · exact isNameChar_of_mem_normalizeName hname
  · exact isNameChar_of_mem_suffix hsuffix

theorem length_distinctName (name : String) (existing : List Variable) :
    (distinctName name existing).length =
      min nameLimit name.length + (suffix name existing).length := by
  rw [distinctName_eq_append, String.length_append, length_normalizeName]

/-- The suffix comes on top of what the limit leaves of a name, so the name of a new variable is
normalized, as its characters always are, exactly when there is room for the suffix. -/
theorem create_normalized_iff (proposal : Proposal) (existing : List Variable) :
    (∀ c ∈ (create proposal existing true).name.toList, IsNameChar c) ∧
    (create proposal existing true).name.length =
      min nameLimit proposal.name.length + (suffix proposal.name existing).length ∧
    (normalizeName (create proposal existing true).name = (create proposal existing true).name ↔
      min nameLimit proposal.name.length + (suffix proposal.name existing).length ≤ nameLimit) := by
  have hchars : ∀ c ∈ (distinctName proposal.name existing).toList, IsNameChar c :=
    fun c => isNameChar_of_mem_distinctName
  have hlength := length_distinctName proposal.name existing
  have hnormalized : normalizeName (distinctName proposal.name existing) =
      distinctName proposal.name existing ↔
        min nameLimit proposal.name.length + (suffix proposal.name existing).length ≤
          nameLimit := by
    rw [normalizeName_eq_self, and_iff_left hchars, hlength]
  exact ⟨hchars, hlength, hnormalized⟩

def longName : String :=
  String.ofList (List.replicate nameLimit 'a')

theorem create_exceeds_limit :
    ¬∀ (proposal : Proposal) (existing : List Variable),
      normalizeName (create proposal existing true).name =
        (create proposal existing true).name := by
  intro hnormalized
  have hname := hnormalized { name := longName } [{ name := longName }]
  exact absurd (normalizeName_eq_self.mp hname).1 (by decide)

end DatasetPlan.Variable
