import DatasetPlan.CommandLine.Parameters
import DatasetPlan.Proofs.Retyping
import DatasetPlan.Proofs.Text

namespace DatasetPlan

namespace CommandLine

open Text (Pads IsTrimmed trimmedChars_eq_iff)

variable {text key value : String} {texts others : List String} {given : Dictionary String}

theorem Word.splitAtEquals_eq_some {cs before after : List Char} :
    splitAtEquals cs = (before, some after) ↔ '=' ∉ before ∧ cs = before ++ '=' :: after := by
  constructor
  · intro h
    have hcut : cs.takeWhile (· ≠ '=') ++ cs.dropWhile (· ≠ '=') = cs :=
      List.takeWhile_append_dropWhile
    have hhead := List.head?_dropWhile_not (· ≠ '=') cs
    unfold splitAtEquals at h
    split at h
    · cases h
    · rename_i c rest hrest
      obtain ⟨rfl, rfl⟩ : cs.takeWhile (· ≠ '=') = before ∧ rest = after := by simpa using h
      rw [hrest] at hcut hhead
      obtain rfl : c = '=' := by simpa using hhead
      exact ⟨fun hmem => by simpa using List.mem_takeWhile_imp hmem, hcut.symm⟩
  · rintro ⟨hbefore, rfl⟩
    have hpos : ∀ c ∈ before, decide (c ≠ '=') = true := fun c hc =>
      decide_eq_true fun heq => hbefore (heq ▸ hc)
    have hrest : (before ++ '=' :: after).dropWhile (· ≠ '=') = '=' :: after :=
      List.dropWhile_append_of_pos hpos
    have hkept : (before ++ '=' :: after).takeWhile (· ≠ '=') = before := by
      rw [List.takeWhile_append_of_pos hpos]
      exact List.append_nil before
    simp only [splitAtEquals, hrest, hkept]

/-- The text is a key between blanks, the first equals sign, and the value. -/
def Supplies (text key value : String) : Prop :=
  ∃ before, '=' ∉ before ∧ text.toList = before ++ '=' :: value.toList ∧
    Pads before key.toList ∧ IsTrimmed key.toList

theorem supplies_iff :
    Supplies text key value ↔ ∃ before,
      Word.splitAtEquals text.toList = (before, some value.toList) ∧
        Text.trimmedChars before = key.toList := by
  simp only [Supplies, Word.splitAtEquals_eq_some, trimmedChars_eq_iff, and_assoc]

theorem Supplies.unique {key' value' : String} (h : Supplies text key value)
    (h' : Supplies text key' value') : key = key' ∧ value = value' := by
  obtain ⟨before, hsplit, hkey⟩ := supplies_iff.mp h
  obtain ⟨before', hsplit', hkey'⟩ := supplies_iff.mp h'
  obtain ⟨rfl, hvalue⟩ := Prod.mk.inj (hsplit.symm.trans hsplit')
  exact ⟨String.toList_inj.mp (hkey.symm.trans hkey'), String.toList_inj.mp (Option.some.inj hvalue)⟩

theorem parameter_eq_ok :
    parameter text = .ok (key, value) ↔ key ≠ "" ∧ Supplies text key value := by
  rw [supplies_iff]
  constructor
  · intro h
    unfold parameter at h
    split at h
    · cases h
    · rename_i before after hsplit
      dsimp only at h
      split at h
      · cases h
      · rename_i hne
        obtain ⟨rfl, rfl⟩ := Prod.mk.inj (Except.ok.inj h)
        exact ⟨by simpa using hne, before, by simpa using hsplit, by simp⟩
  · rintro ⟨hne, before, hsplit, hkey⟩
    simp [parameter, hsplit, hkey, hne]
    rfl

def LastSupplies (texts : List String) (key value : String) : Prop :=
  ∃ before text after, texts = before ++ text :: after ∧ Supplies text key value ∧
    ∀ later ∈ after, ∀ other, ¬Supplies later key other

def IsSupplied (texts : List String) (key : String) : Prop :=
  ∃ text ∈ texts, ∃ value, Supplies text key value

theorem lastSupplies_concat :
    LastSupplies (texts ++ [text]) key value ↔
      Supplies text key value ∨
        (∀ other, ¬Supplies text key other) ∧ LastSupplies texts key value := by
  constructor
  · rintro ⟨before, last, after, heq, hlast, hafter⟩
    rcases List.eq_nil_or_concat after with rfl | ⟨after, final, rfl⟩
    · obtain ⟨-, hsame⟩ := List.append_inj' heq rfl
      obtain rfl := List.singleton_inj.mp hsame
      exact .inl hlast
    · rw [List.concat_eq_append] at heq hafter
      rw [← List.cons_append, ← List.append_assoc] at heq
      obtain ⟨rfl, hsame⟩ := List.append_inj' heq rfl
      obtain rfl := List.singleton_inj.mp hsame
      exact .inr ⟨hafter text (by simp), before, last, after, rfl, hlast,
        fun later hlater => hafter later (by simp [hlater])⟩
  · rintro (hlast | ⟨hnot, before, last, after, rfl, hlast, hafter⟩)
    · exact ⟨texts, text, [], rfl, hlast, nofun⟩
    · refine ⟨before, last, after ++ [text], by simp, hlast, fun later hlater => ?_⟩
      rcases List.mem_append.mp hlater with hlater | hlater
      · exact hafter later hlater
      · exact List.mem_singleton.mp hlater ▸ hnot

theorem isSupplied_iff : IsSupplied texts key ↔ ∃ value, LastSupplies texts key value := by
  constructor
  · induction texts using List.reverseRecOn with
    | nil => exact fun ⟨_, hmem, _⟩ => absurd hmem List.not_mem_nil
    | append_singleton texts text ih =>
        rintro ⟨supplier, hmem, value, hsupplies⟩
        simp only [lastSupplies_concat]
        by_cases hlast : ∃ other, Supplies text key other
        · obtain ⟨other, hother⟩ := hlast
          exact ⟨other, .inl hother⟩
        · rw [not_exists] at hlast
          rcases List.mem_append.mp hmem with hmem | hmem
          · obtain ⟨found, hfound⟩ := ih ⟨supplier, hmem, value, hsupplies⟩
            exact ⟨found, .inr ⟨hlast, hfound⟩⟩
          · obtain rfl := List.mem_singleton.mp hmem
            exact absurd hsupplies (hlast value)
  · rintro ⟨value, before, text, after, rfl, hsupplies, -⟩
    exact ⟨text, by simp, value, hsupplies⟩

theorem parameters_eq_ok :
    parameters texts = .ok given ↔
      ∃ entries, texts.mapM parameter = .ok entries ∧ Dictionary.ofList entries = given := by
  simp only [parameters, bind_eq_ok, pure_eq_ok]

theorem parameters_concat_eq_ok :
    parameters (texts ++ [text]) = .ok given ↔
      ∃ before entry, parameters texts = .ok before ∧ parameter text = .ok entry ∧
        before.insert entry.1 entry.2 = given := by
  have hinsert (entries : List (String × String)) (entry : String × String) :
      Dictionary.ofList (entries ++ [entry]) =
        (Dictionary.ofList entries).insert entry.1 entry.2 :=
    List.foldl_concat ..
  simp only [parameters_eq_ok, List.mapM_append, List.mapM_cons, List.mapM_nil, bind_eq_ok,
    pure_eq_ok]
  constructor
  · rintro ⟨_, ⟨entries, hentries, _, ⟨entry, hentry, _, rfl, rfl⟩, rfl⟩, rfl⟩
    exact ⟨_, entry, ⟨entries, hentries, rfl⟩, hentry, (hinsert entries entry).symm⟩
  · rintro ⟨_, entry, ⟨entries, hentries, rfl⟩, hentry, rfl⟩
    exact ⟨_, ⟨entries, hentries, _, ⟨entry, hentry, _, rfl, rfl⟩, rfl⟩, hinsert entries entry⟩

theorem find?_parameters (h : parameters texts = .ok given) :
    given.find? key = some value ↔ LastSupplies texts key value := by
  induction texts using List.reverseRecOn generalizing given with
  | nil =>
      obtain rfl := Except.ok.inj h
      exact iff_of_false nofun fun ⟨_, _, _, heq, _⟩ => absurd heq (by simp)
  | append_singleton texts text ih =>
      obtain ⟨before, ⟨suppliedKey, supplied⟩, hbefore, hentry, rfl⟩ :=
        parameters_concat_eq_ok.mp h
      have hsupplies := (parameter_eq_ok.mp hentry).2
      rw [Dictionary.find?_insert, lastSupplies_concat, ← ih hbefore]
      by_cases hkey : key = suppliedKey
      · subst hkey
        have hvalue : supplied = value ↔ Supplies text key value :=
          ⟨fun heq => heq ▸ hsupplies, fun hother => (hsupplies.unique hother).2⟩
        rw [if_pos rfl, Option.some_inj, hvalue]
        exact (or_iff_left fun hnot => hnot.1 _ hsupplies).symm
      · have hnot (other : String) : ¬Supplies text key other :=
          fun hother => hkey (hother.unique hsupplies).1
        simp [hkey, hnot]

/-- Of every one of the keys, both lists of texts supply the same value last, or both none. -/
def AgreeOn (keys texts others : List String) : Prop :=
  ∀ key ∈ keys, ∀ value, LastSupplies texts key value ↔ LastSupplies others key value

theorem agreeOn_iff {keys : List String} {given' : Dictionary String}
    (h : parameters texts = .ok given) (h' : parameters others = .ok given') :
    AgreeOn keys texts others ↔ ∀ key ∈ keys, given.find? key = given'.find? key := by
  refine forall₂_congr fun key hkey => ?_
  simp only [← find?_parameters h, ← find?_parameters h']
  exact Option.ext_iff.symm

theorem isSupplied_iff_find? (h : parameters texts = .ok given) :
    IsSupplied texts key ↔ given.find? key ≠ none := by
  simp only [isSupplied_iff, ← find?_parameters h, Option.ne_none_iff_exists']

end CommandLine

namespace Template

variable {t : Template} {p q : Dictionary String}

theorem requireParameters_congr (h : ∀ key ∈ t.requiredParameters, p.find? key = q.find? key) :
    t.requireParameters p = t.requireParameters q := by
  have hfind : (t.requiredParameters.find? fun key => (p.find? key).isNone) =
      t.requiredParameters.find? fun key => (q.find? key).isNone := by
    rw [← List.head?_filter, ← List.head?_filter,
      List.filter_congr fun key hkey => by rw [h key hkey]]
  rw [requireParameters, hfind, requireParameters]

theorem recipe_congr (h : ∀ key ∈ t.requiredParameters, p.find? key = q.find? key)
    (vars : List Variable) : t.recipe p vars = t.recipe q vars := by
  cases t <;> simp only [requiredParameters, List.forall_mem_cons] at h <;>
    simp only [recipe, h]

theorem build_congr (h : ∀ key ∈ t.requiredParameters, p.find? key = q.find? key)
    (hash : TextHash) (name description : String) (vars : List Variable) :
    t.build hash name description p vars = t.build hash name description q vars := by
  rw [build, build, requireParameters_congr h, recipe_congr h]

theorem build_eq_error_of_missing {before after : List String} {key : String}
    (hkeys : t.requiredParameters = before ++ key :: after)
    (hbefore : ∀ earlier ∈ before, p.find? earlier ≠ none) (hkey : p.find? key = none)
    (hash : TextHash) (name description : String) (vars : List Variable) :
    t.build hash name description p vars =
      .error (.invalidParameter key ("required by template '" ++ t.name ++ "'")) := by
  have hfind : (t.requiredParameters.find? fun key => (p.find? key).isNone) = some key := by
    refine List.find?_eq_some_iff_append.mpr ⟨by simp [hkey], before, after, hkeys, ?_⟩
    simpa [Option.ne_none_iff_isSome] using hbefore
  simp only [build, requireParameters, hfind]
  rfl

open CommandLine (parameters AgreeOn agreeOn_iff IsSupplied isSupplied_iff_find?)

/-- A plan depends on the required parameters alone, whatever else is given and in whatever order,
and the first of them that is missing is what is wrong. -/
theorem build_reads_required {texts : List String} {given : Dictionary String}
    (h : parameters texts = .ok given) (t : Template) (hash : TextHash)
    (name description : String) (vars : List Variable) :
    (∀ others given', parameters others = .ok given' →
      AgreeOn t.requiredParameters texts others →
      t.build hash name description given vars = t.build hash name description given' vars) ∧
    (∀ before key after, t.requiredParameters = before ++ key :: after →
      (∀ earlier ∈ before, IsSupplied texts earlier) → ¬IsSupplied texts key →
      t.build hash name description given vars =
        .error (.invalidParameter key ("required by template '" ++ t.name ++ "'"))) := by
  constructor
  · intro others given' h' hagree
    exact build_congr ((agreeOn_iff h h').mp hagree) hash name description vars
  · intro before key after hkeys hbefore hkey
    simp only [isSupplied_iff_find? h, not_not] at hbefore hkey
    exact build_eq_error_of_missing hkeys hbefore hkey hash name description vars

def scatteredTexts : List String :=
  ["lon_column=x", "lat_column=", "speed=3", " lat_column\t=y=z"]

def orderlyTexts : List String :=
  ["lat_column=y=z", "lon_column=x"]

def missingTexts : List String :=
  ["lat_column=y", "speed=3"]

theorem build_reads_required_scattered :
    (∃ given given' plan, parameters scatteredTexts = .ok given ∧
      parameters orderlyTexts = .ok given' ∧
      AgreeOn goatReverse.requiredParameters scatteredTexts orderlyTexts ∧
      goatReverse.build blake3 "places" "" given [] = .ok plan ∧
      goatReverse.build blake3 "places" "" given' [] = .ok plan) ∧
    ∃ given, parameters missingTexts = .ok given ∧ IsSupplied missingTexts "lat_column" ∧
      ¬IsSupplied missingTexts "lon_column" ∧
      goatReverse.build blake3 "places" "" given [] =
        .error (.invalidParameter "lon_column" "required by template 'goat-reverse'") := by
  constructor
  · obtain ⟨given, hgiven⟩ : ∃ given, parameters scatteredTexts = .ok given := ⟨_, rfl⟩
    obtain ⟨given', hgiven'⟩ : ∃ given, parameters orderlyTexts = .ok given := ⟨_, rfl⟩
    have hagree : AgreeOn goatReverse.requiredParameters scatteredTexts orderlyTexts := by
      rw [agreeOn_iff rfl rfl]
      decide
    have hplan : ∃ plan, goatReverse.build blake3 "places" "" given' [] = .ok plan := by
      obtain rfl := Except.ok.inj hgiven'
      exact ⟨_, rfl⟩
    obtain ⟨plan, hplan⟩ := hplan
    have hsame := (build_reads_required hgiven goatReverse blake3 "places" "" []).1 _ given' hgiven'
      hagree
    exact ⟨given, given', plan, hgiven, hgiven', hagree, hsame.trans hplan, hplan⟩
  · obtain ⟨given, hgiven⟩ : ∃ given, parameters missingTexts = .ok given := ⟨_, rfl⟩
    have hsupplied : IsSupplied missingTexts "lat_column" := by
      rw [isSupplied_iff_find? rfl]
      decide
    have hmissing : ¬IsSupplied missingTexts "lon_column" := by
      rw [isSupplied_iff_find? rfl]
      decide
    refine ⟨given, hgiven, hsupplied, hmissing, ?_⟩
    exact (build_reads_required hgiven goatReverse blake3 "places" "" []).2 ["lat_column"] _ [] rfl
      (List.forall_mem_singleton.mpr hsupplied) hmissing

end Template

end DatasetPlan
