import DatasetPlan.Document.Codec
import DatasetPlan.Proofs.Document.Presentation

namespace DatasetPlan

open Dialect (Presents)

/-- What the codec writes of `x` can be stored, and from every document that holds it the codec
reads `x` again. -/
structure Codec.Keeps (c : Codec β) (x : β) : Prop where
  storable : (c.write x).IsStorable
  read_write : ∀ {α : Type} (d : Dialect α) {depth : Nat} {node : Tree α},
    (c.write x).NestsWithin depth → d.Presents node (c.write x) → c.read d depth node = .ok x

/-- The value can be stored, and from every document that holds it the codec reads `x`. The codec
itself need not write it so. -/
structure Codec.Represents (c : Codec β) (value : Value) (x : β) : Prop where
  storable : value.IsStorable
  read : ∀ {α : Type} (d : Dialect α) {depth : Nat} {node : Tree α},
    value.NestsWithin depth → d.Presents node value → c.read d depth node = .ok x

namespace Codec

variable {c : Codec β} {x : β} {value : Value}

theorem Keeps.represents (hc : c.Keeps x) : c.Represents (c.write x) x :=
  ⟨hc.storable, hc.read_write⟩

theorem Represents.keeps (h : c.Represents (c.write x) x) : c.Keeps x :=
  ⟨h.storable, h.read⟩

theorem Represents.readDocument {d : Dialect α} {document : Document α} (h : c.Represents value x)
    (hdepth : value.NestsWithin d.depth) (hholds : document.Holds d value) :
    c.readDocument d document = .ok x := by
  simp only [Codec.readDocument, h.read d hdepth hholds.2, hholds.1]
  rfl

theorem keeps_text (s : String) : text.Keeps s where
  storable := .text s
  read_write d _ _ _ h := by
    cases h with
    | text h => exact Dialect.readText_leaf "a string" h

theorem keeps_bool (b : Bool) : bool.Keeps b where
  storable := .bool b
  read_write d _ _ _ h := by
    cases h with
    | bool h => exact Dialect.readLeaf_leaf "a boolean" (h.bool b rfl)

theorem isUnsigned_natCast (width n : Nat) :
    Width.isUnsigned width n = decide (n < Width.span width) := by
  simp [Width.isUnsigned]

theorem keeps_nat {n : Nat} (hn : n < Width.span 64) : nat.Keeps n where
  storable := .int (by simp [isUnsigned_natCast, hn])
  read_write d _ _ _ h := by
    cases h with
    | int h =>
        have hwidth : Width.isUnsigned 64 n = true := by simpa [isUnsigned_natCast] using hn
        exact Dialect.readLeaf_leaf "usize" (h.nat n rfl hwidth)

theorem isSigned_toInt (n : Int64) : Width.isSigned 64 n.toInt = true := by
  rw [Width.isSigned, Bool.and_eq_true, decide_eq_true_eq, decide_eq_true_eq]
  exact ⟨n.le_toInt, n.toInt_lt⟩

theorem keeps_int (n : Int64) : int.Keeps n where
  storable := .int (by simp [isSigned_toInt])
  read_write d _ _ _ h := by
    cases h with
    | int h =>
        refine Dialect.readLeaf_leaf "i64" ((h.int n.toInt rfl (isSigned_toInt n)).trans ?_)
        rw [Int64.ofInt_toInt]

theorem keeps_float {x : Float} (hx : x.isFinite = true) : float.Keeps x where
  storable := .float hx
  read_write d _ _ _ h := by
    cases h with
    | float h => exact Dialect.readLeaf_leaf "f64" (h.float x rfl)

theorem Represents.forall₂_read {d : Dialect α} {depth : Nat} {nodes : List (Tree α)}
    {values : List Value} {items : List β} (h : List.Forall₂ c.Represents values items)
    (hnodes : List.Forall₂ d.Presents nodes values)
    (hdepth : ∀ value ∈ values, value.NestsWithin depth) :
    List.Forall₂ (fun node x => c.read d depth node = .ok x) nodes items := by
  induction h generalizing nodes with
  | nil =>
      cases hnodes
      exact .nil
  | cons hitem _ ih =>
      cases hnodes with
      | cons hnode hnodes =>
          obtain ⟨hfirst, hrest⟩ := List.forall_mem_cons.mp hdepth
          exact .cons (hitem.read d hfirst hnode) (ih hnodes hrest)

theorem represents_list {values : List Value} {items : List β}
    (h : List.Forall₂ c.Represents values items) : (list c).Represents (.list values) items where
  storable := by
    have hstorable := h.imp fun _ _ hitem => And.intro hitem.storable hitem
    exact .list ((List.forall₂_and_left values items).mp hstorable).1
  read d depth node hdepth hnode := by
    cases depth with
    | zero => exact hdepth.elim
    | succ depth =>
        cases hnode with
        | list hnodes =>
            have hread := Represents.forall₂_read h hnodes hdepth
            simp only [list, Tree.bare, Dialect.readItems, Dialect.readItemsFrom_eq_ok hread]
            rfl

theorem keeps_list {items : List β} (h : ∀ x ∈ items, c.Keeps x) : (list c).Keeps items := by
  refine (represents_list (List.forall₂_map_left_iff.mpr ?_)).keeps
  exact List.forall₂_same.mpr fun x hx => (h x hx).represents

theorem keeps_dict {dictionary : Dictionary β} (h : ∀ entry ∈ dictionary.entries, c.Keeps entry.2) :
    (dict c).Keeps dictionary where
  storable := by
    refine .dict ?_ (List.forall_mem_map.mpr fun entry hentry => (h entry hentry).storable)
    rw [List.map_map]
    exact dictionary.nodup
  read_write d depth node hdepth hnode := by
    cases depth with
    | zero => exact hdepth.elim
    | succ depth =>
        cases hnode with
        | dict hkeys hnodes =>
            have hnames := (List.forall₂_map_right_iff.mp hkeys).imp
              fun node entry ⟨leaf, hleaf, hshows⟩ =>
                (hleaf ▸ Dialect.readText_leaf "a string" hshows :
                  d.readText "a string" node.1 = Except.ok entry.1)
            have hread := forall₂_imp_of_forall_mem (List.forall₂_map_right_iff.mp hnodes)
              fun node entry hentry hnode =>
                (h entry hentry).read_write d (hdepth _ (List.mem_map_of_mem hentry)) hnode
            simp only [dict, Tree.bare, Dialect.readEntries_eq_ok d hnames hread]
            exact congrArg Except.ok dictionary.ofList_entries

theorem keeps_none : (option c).Keeps none where
  storable := .null
  read_write d depth node _ h := by
    cases h with
    | null h =>
        simp only [option, Tree.hasOwnTag, Tree.bare, h.isAbsent]
        rfl

theorem keeps_some (hc : c.Keeps x) (hx : c.write x ≠ .null) : (option c).Keeps (some x) where
  storable := hc.storable
  read_write d depth node hdepth h := by
    have hread := hc.read_write d hdepth h
    cases node with
    | leaf leaf =>
        have habsent := Dialect.isAbsent_eq_ok h hx
        simp only [option, Tree.hasOwnTag, Tree.bare, habsent, hread]
        rfl
    | list nodes =>
        simp only [option, Tree.hasOwnTag, Tree.bare, hread]
        rfl
    | dict nodes =>
        simp only [option, Tree.hasOwnTag, Tree.bare, hread]
        rfl
    | marked mark node => cases h
    | broken => cases h

theorem keeps_union {name : String} {write : β → Value} {ofValue? : Value → Option β}
    (hstorable : (write x).IsStorable) (h : ofValue? (write x) = some x) :
    (union name write ofValue?).Keeps x where
  storable := hstorable
  read_write d depth node hdepth hnode := by
    have hany := Dialect.readAny_presents Dialect.buffered_isFaithful hnode hstorable hdepth
    simp only [union, hany, bind, Except.bind, h]
    rfl

end Codec

end DatasetPlan
