import DatasetPlan.Proofs.Document.Record

namespace DatasetPlan

namespace Value

/-- What stands under `key` is the same, or is a list whose items are related as `inner` says for
that key. -/
inductive AbridgedUnder (inner : List (String × (Value → Value → Prop))) (key : String) :
    Value → Value → Prop
  | same (value : Value) : AbridgedUnder inner key value value
  | items {item : Value → Value → Prop} {items shorts : List Value}
      (hitem : inner.lookup key = some item) (h : List.Forall₂ item items shorts) :
      AbridgedUnder inner key (.list items) (.list shorts)

/-- Any of the entries that have the default of their key may be left out. -/
inductive AbridgedEntries (defaults : List (String × Value))
    (inner : List (String × (Value → Value → Prop))) :
    List (String × Value) → List (String × Value) → Prop
  | nil : AbridgedEntries defaults inner [] []
  | kept {key : String} {value short : Value} {entries shorts : List (String × Value)}
      (hvalue : AbridgedUnder inner key value short)
      (h : AbridgedEntries defaults inner entries shorts) :
      AbridgedEntries defaults inner ((key, value) :: entries) ((key, short) :: shorts)
  | left {key : String} {value : Value} {entries shorts : List (String × Value)}
      (hdefault : defaults.lookup key = some value)
      (h : AbridgedEntries defaults inner entries shorts) :
      AbridgedEntries defaults inner ((key, value) :: entries) shorts

inductive Abridged (defaults : List (String × Value))
    (inner : List (String × (Value → Value → Prop))) : Value → Value → Prop
  | dict {entries shorts : List (String × Value)}
      (h : AbridgedEntries defaults inner entries shorts) :
      Abridged defaults inner (.dict entries) (.dict shorts)

theorem AbridgedEntries.refl {defaults : List (String × Value)}
    {inner : List (String × (Value → Value → Prop))} (entries : List (String × Value)) :
    AbridgedEntries defaults inner entries entries := by
  induction entries with
  | nil => exact .nil
  | cons entry entries ih => exact .kept (.same _) ih

end Value

/-- From every value that is related to what the codec writes of `x`, that value itself among them,
the codec reads `x`. -/
structure Codec.KeepsUpTo (c : Codec β) (related : Value → Value → Prop) (x : β) : Prop where
  refl : related (c.write x) (c.write x)
  represents : ∀ {value : Value}, related (c.write x) value → c.Represents value x

theorem Codec.KeepsUpTo.keeps {c : Codec β} {related : Value → Value → Prop} {x : β}
    (h : c.KeepsUpTo related x) : c.Keeps x :=
  (h.represents h.refl).keeps

open Value (AbridgedUnder AbridgedEntries Abridged)

variable {defaults : List (String × Value)} {inner : List (String × (Value → Value → Prop))}
  {name : String} {c : Codec β}

theorem Codec.Keeps.upTo {x : β} (hc : c.Keeps x) (hinner : inner.lookup name = none) :
    c.KeepsUpTo (AbridgedUnder inner name) x where
  refl := .same _
  represents {short} h := by
    generalize hvalue : c.write x = value at h
    cases h with
    | same => exact hvalue ▸ hc.represents
    | items hitem => simp [hinner] at hitem

theorem Codec.keepsUpTo_list {item : Value → Value → Prop} {items : List β}
    (h : ∀ x ∈ items, c.KeepsUpTo item x) (hinner : inner.lookup name = some item) :
    (Codec.list c).KeepsUpTo (AbridgedUnder inner name) items where
  refl := .same _
  represents {short} hshort := by
    generalize hvalue : (Codec.list c).write items = value at hshort
    cases hshort with
    | same => exact hvalue ▸ (keeps_list fun x hx => (h x hx).keeps).represents
    | items hitem hshorts =>
        obtain rfl := Option.some.inj (hinner.symm.trans hitem)
        obtain rfl := Value.list.inj hvalue
        have hpairs := (List.forall₂_map_left_iff.mp hshorts).flip
        exact represents_list
          (forall₂_imp_of_forall_mem hpairs fun _ x hx hrelated => (h x hx).represents hrelated)

def Codec.Marks (c : Codec β) (value : Value) (blank : β) : Prop :=
  ∀ x, c.write x = value → x = blank

namespace Codec

theorem marks_text : text.Marks (.text "") "" :=
  fun _ => Value.text.inj

theorem marks_bool (b : Bool) : bool.Marks (.bool b) b :=
  fun _ => Value.bool.inj

theorem marks_int : int.Marks (.int 0) 0 :=
  fun _ h => Int64.toInt_inj.mp (Value.int.inj h)

theorem marks_list : (list c).Marks (.list []) [] :=
  fun _ h => List.map_eq_nil_iff.mp (Value.list.inj h)

theorem marks_none (hc : ∀ x, c.write x ≠ .null) : (option c).Marks .null none
  | none, _ => rfl
  | some x, h => absurd h (hc x)

end Codec

namespace Field

/-- However what the fields write of `x` is abridged, reading it makes the draft into `x`. -/
def Restores (defaults : List (String × Value)) (inner : List (String × (Value → Value → Prop)))
    (x : σ) (fields : List (Field σ)) (draft : σ) : Prop :=
  ∀ entries, AbridgedEntries defaults inner (Record.written x fields) entries →
    Fills x fields entries draft

namespace Restores

variable {x draft next : σ} {fields : List (Field σ)} {f : Field σ} {get : σ → β} {set : σ → β → σ}

theorem done : Restores defaults inner x [] x := by
  rintro entries ⟨⟩
  exact .done

theorem field
    (hput : ∀ {value short : Value}, f.write x = some value →
      AbridgedUnder inner f.name value short → short.IsStorable ∧
        ∀ {α : Type} (d : Dialect α) {depth : Nat} {node : Tree α}, short.NestsWithin depth →
          d.Presents node short → f.put d depth node draft = .ok next)
    (hleft : f.write x = none ∨ defaults.lookup f.name = f.write x →
      f.mandatory = false ∧ next = draft)
    (h : Restores defaults inner x fields next) :
    Restores defaults inner x (f :: fields) draft := by
  intro entries hentries
  cases hwrite : f.write x with
  | none =>
      rw [Record.written_cons_of_none hwrite] at hentries
      obtain ⟨hmandatory, rfl⟩ := hleft (.inl hwrite)
      exact .missing hmandatory (h entries hentries)
  | some value =>
      rw [Record.written_cons_of_some hwrite] at hentries
      cases hentries with
      | kept hvalue hrest =>
          obtain ⟨hstorable, hread⟩ := hput hwrite hvalue
          exact .present hstorable hread (h _ hrest)
      | left hdefault hrest =>
          obtain ⟨hmandatory, rfl⟩ := hleft (.inr (hdefault.trans hwrite.symm))
          exact .missing hmandatory (h entries hrest)

theorem required (hlookup : defaults.lookup name = none)
    (hc : c.KeepsUpTo (AbridgedUnder inner name) (get x))
    (h : Restores defaults inner x fields (set draft (get x))) :
    Restores defaults inner x (.required name c get set :: fields) draft := by
  refine .field (fun hwrite hshort => ?put) (fun hleft => ?left) h
  case put =>
    obtain rfl := Option.some.inj hwrite
    have hread := hc.represents hshort
    exact ⟨hread.storable, hread.put⟩
  case left =>
    obtain hnone | hdefault := hleft
    · cases hnone
    · cases hlookup.symm.trans hdefault

theorem sparse {skip : β → Bool} {blank : β} {value : Value}
    (hlookup : defaults.lookup name = some value) (hblank : c.Marks value blank)
    (hskip : ∀ y, skip y = true → y = blank) (hdraft : set draft blank = draft)
    (hc : c.KeepsUpTo (AbridgedUnder inner name) (get x))
    (h : Restores defaults inner x fields (set draft (get x))) :
    Restores defaults inner x (.sparse name c skip get set :: fields) draft := by
  have hwrite : (Field.sparse name c skip get set).write x =
      if skip (get x) then none else some (c.write (get x)) := rfl
  refine .field (fun hsome hshort => ?put) (fun hleft => ?left) h
  case put =>
    rw [hwrite, Option.ite_none_left_eq_some] at hsome
    obtain rfl := Option.some.inj hsome.2
    have hread := hc.represents hshort
    exact ⟨hread.storable, hread.put⟩
  case left =>
    have hget : get x = blank := by
      cases hempty : skip (get x) with
      | true => exact hskip _ hempty
      | false =>
          simp only [hwrite, hempty, Bool.false_eq_true, if_false, reduceCtorEq, false_or] at hleft
          exact hblank _ (Option.some.inj (hleft.symm.trans hlookup))
    exact ⟨rfl, hget ▸ hdraft⟩

theorem optional {blank : β} {value : Value} (hlookup : defaults.lookup name = some value)
    (hblank : c.Marks value blank) (hdraft : set draft blank = draft)
    (hc : c.KeepsUpTo (AbridgedUnder inner name) (get x))
    (h : Restores defaults inner x fields (set draft (get x))) :
    Restores defaults inner x (.optional name c get set :: fields) draft :=
  have hsparse : Restores defaults inner x (.sparse name c (fun _ => false) get set :: fields)
      draft := .sparse hlookup hblank nofun hdraft hc h
  hsparse

variable {label : σ → String} {relabel : σ → String → σ}

theorem optionalText (hlookup : defaults.lookup name = some (.text ""))
    (hinner : inner.lookup name = none) (hdraft : relabel draft "" = draft)
    (h : Restores defaults inner x fields (relabel draft (label x))) :
    Restores defaults inner x (.optional name .text label relabel :: fields) draft :=
  .optional hlookup Codec.marks_text hdraft ((Codec.keeps_text _).upTo hinner) h

theorem sparseText (hlookup : defaults.lookup name = some (.text ""))
    (hinner : inner.lookup name = none) (hdraft : relabel draft "" = draft)
    (h : Restores defaults inner x fields (relabel draft (label x))) :
    Restores defaults inner x (.sparse name .text String.isEmpty label relabel :: fields) draft :=
  .sparse hlookup Codec.marks_text (fun _ => String.isEmpty_iff.mp) hdraft
    ((Codec.keeps_text _).upTo hinner) h

end Restores

end Field

theorem Record.codec_keepsUpTo {r : Record σ} {x : σ} (hnodup : (r.fields.map (·.name)).Nodup)
    (h : Field.Restores defaults inner x r.fields r.blank) :
    r.codec.KeepsUpTo (Abridged defaults inner) x where
  refl := .dict (.refl _)
  represents {short} hshort := by
    have hwrite : r.codec.write x = .dict (written x r.fields) := rfl
    rw [hwrite] at hshort
    cases hshort with
    | dict hentries => exact represents hnodup (h _ hentries)

end DatasetPlan
