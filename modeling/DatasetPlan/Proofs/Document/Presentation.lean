import DatasetPlan.Document.Dialect
import Mathlib.Data.List.Forall2

namespace DatasetPlan

theorem forall₂_imp_of_forall_mem {R S : α → β → Prop} {l : List α} {u : List β}
    (h : List.Forall₂ R l u) (himp : ∀ x, ∀ y ∈ u, R x y → S x y) : List.Forall₂ S l u := by
  induction h with
  | nil => exact .nil
  | cons hfirst hrest ih =>
      obtain ⟨hhead, htail⟩ := List.forall_mem_cons.mp fun y hy x => himp x y hy
      exact .cons (hhead _ hfirst) (ih fun x y hy => htail y hy x)

/-! Documents that hold values. -/

def Found.isNull : Found → Bool
  | null => true
  | _ => false

/-- Whatever is asked of the leaf, it answers as what it stands for. Integers answer in each width
that they fit in. -/
structure Dialect.Shows (d : Dialect α) (leaf : α) (found : Found) : Prop where
  look : d.look leaf = .ok found
  isAbsent : d.isAbsent leaf = .ok found.isNull
  text : ∀ s, found = .text s → ∀ wanted, d.text wanted leaf = .ok s
  bool : ∀ b, found = .bool b → d.bool leaf = .ok b
  nat : ∀ n, found = .int n → Width.isUnsigned 64 n = true → d.nat leaf = .ok n.toNat
  int : ∀ n, found = .int n → Width.isSigned 64 n = true → d.int leaf = .ok (Int64.ofInt n)
  float : ∀ x, found = .float x → d.float leaf = .ok x

/-- The node holds the value, under no tag and not by an alias. -/
inductive Dialect.Presents (d : Dialect α) : Tree α → Value → Prop
  | null {leaf : α} (h : d.Shows leaf .null) : Presents d (.leaf leaf) .null
  | bool {leaf : α} {b : Bool} (h : d.Shows leaf (.bool b)) : Presents d (.leaf leaf) (.bool b)
  | int {leaf : α} {n : Int} (h : d.Shows leaf (.int n)) : Presents d (.leaf leaf) (.int n)
  | float {leaf : α} {x : Float} (h : d.Shows leaf (.float x)) :
      Presents d (.leaf leaf) (.float x)
  | text {leaf : α} {s : String} (h : d.Shows leaf (.text s)) : Presents d (.leaf leaf) (.text s)
  | list {nodes : List (Tree α)} {items : List Value}
      (h : List.Forall₂ (Presents d) nodes items) : Presents d (.list nodes) (.list items)
  | dict {nodes : List (Tree α × Tree α)} {entries : List (String × Value)}
      (hkeys : List.Forall₂
        (fun node entry => ∃ leaf, node.1 = .leaf leaf ∧ d.Shows leaf (.text entry.1)) nodes entries)
      (h : List.Forall₂ (fun node entry => Presents d node.2 entry.2) nodes entries) :
      Presents d (.dict nodes) (.dict entries)

def Document.Holds (document : Document α) (d : Dialect α) (value : Value) : Prop :=
  document.whole = true ∧ d.Presents document.root value

namespace Value

/-- What a text can be expected to keep: integers of 64 bits, finite numbers, keys that are not
repeated. -/
inductive IsStorable : Value → Prop
  | null : IsStorable .null
  | bool (b : Bool) : IsStorable (.bool b)
  | int {n : Int} (h : (Width.isSigned 64 n || Width.isUnsigned 64 n) = true) :
      IsStorable (.int n)
  | float {x : Float} (h : x.isFinite = true) : IsStorable (.float x)
  | text (s : String) : IsStorable (.text s)
  | list {items : List Value} (h : ∀ item ∈ items, IsStorable item) : IsStorable (.list items)
  | dict {entries : List (String × Value)} (hkeys : (entries.map Prod.fst).Nodup)
      (h : ∀ entry ∈ entries, IsStorable entry.2) : IsStorable (.dict entries)

theorem isStorable_dict {entries : List (String × Value)} :
    (Value.dict entries).IsStorable ↔
      (entries.map Prod.fst).Nodup ∧ ∀ entry ∈ entries, entry.2.IsStorable := by
  constructor
  · rintro (_ | _ | _ | _ | _ | _ | ⟨hkeys, h⟩)
    exact ⟨hkeys, h⟩
  · rintro ⟨hkeys, h⟩
    exact .dict hkeys h

def NestsWithin : (depth : Nat) → Value → Prop
  | 0, .list _ => False
  | 0, .dict _ => False
  | depth + 1, .list items => ∀ item ∈ items, item.NestsWithin depth
  | depth + 1, .dict entries => ∀ entry ∈ entries, entry.2.NestsWithin depth
  | _, _ => True

def decidableNestsWithin : (depth : Nat) → (value : Value) → Decidable (value.NestsWithin depth)
  | 0, .list _ | 0, .dict _ => .isFalse id
  | depth + 1, .list items =>
      have := decidableNestsWithin depth
      inferInstanceAs (Decidable (∀ item ∈ items, item.NestsWithin depth))
  | depth + 1, .dict entries =>
      have := decidableNestsWithin depth
      inferInstanceAs (Decidable (∀ entry ∈ entries, entry.2.NestsWithin depth))
  | 0, .null | 0, .bool _ | 0, .int _ | 0, .float _ | 0, .text _
  | _ + 1, .null | _ + 1, .bool _ | _ + 1, .int _ | _ + 1, .float _ | _ + 1, .text _ =>
      .isTrue trivial

instance (depth : Nat) (value : Value) : Decidable (value.NestsWithin depth) :=
  decidableNestsWithin depth value

end Value

namespace Dialect

variable {d : Dialect α} {depth : Nat} {leaf : α}

/-! Reading what is held. -/

theorem readLeaf_leaf {read : α → Except Fault.Cause β} {x : β} (wanted : String)
    (h : read leaf = .ok x) : readLeaf read wanted (.leaf leaf) = .ok x := by
  simp only [readLeaf, Tree.bare, h]
  rfl

theorem readText_leaf {s : String} (wanted : String) (h : d.Shows leaf (.text s)) :
    d.readText wanted (.leaf leaf) = .ok s :=
  readLeaf_leaf wanted (h.text s rfl wanted)

theorem readItemsFrom_eq_ok {read : Tree α → Except Fault β} {nodes : List (Tree α)} {xs : List β}
    (h : List.Forall₂ (fun node x => read node = .ok x) nodes xs) (index : Nat) :
    readItemsFrom read index nodes = .ok xs := by
  induction h generalizing index with
  | nil => rfl
  | cons hfirst hrest ih =>
      simp only [readItemsFrom, hfirst, ih]
      rfl

theorem readEntries_eq_ok (d : Dialect α) {κ : Type} {readKey : Tree α → Except Fault κ}
    {read : Tree α → Except Fault β} {nodes : List (Tree α × Tree α)} {entries : List (κ × β)}
    (hkeys : List.Forall₂ (fun node entry => readKey node.1 = .ok entry.1) nodes entries)
    (h : List.Forall₂ (fun node entry => read node.2 = .ok entry.2) nodes entries) :
    d.readEntries readKey read nodes = .ok entries := by
  induction hkeys with
  | nil => rfl
  | cons hkey hkeys ih =>
      obtain ⟨hfirst, hrest⟩ := List.forall₂_cons.mp h
      simp only [readEntries, hkey, hfirst, ih hrest]
      rfl

theorem isAbsent_eq_ok {value : Value} (h : d.Presents (.leaf leaf) value)
    (hvalue : value ≠ .null) : d.isAbsent leaf = .ok false := by
  cases h with
  | null => contradiction
  | bool h => exact h.isAbsent
  | int h => exact h.isAbsent
  | float h => exact h.isAbsent
  | text h => exact h.isAbsent

/-! Values of any kind. -/

structure Latitude.IsFaithful (l : Latitude) : Prop where
  float : ∀ x : Float, x.isFinite = true → l.float x = .float x

theorem buffered_isFaithful : buffered.IsFaithful where
  float _ _ := rfl

theorem readShallow_eq_ok {l : Latitude} {found : Found} {value : Value} (h : d.Shows leaf found)
    (hvalue : valueOf l found = .ok value) : d.readShallow l (.leaf leaf) = .ok value := by
  simp only [readShallow, Tree.hasOwnTag, Bool.false_eq_true, if_false, Tree.bare, h.look]
  exact congrArg settle hvalue

theorem readAny_leaf {l : Latitude} {found : Found} {value : Value} (h : d.Shows leaf found)
    (hvalue : valueOf l found = .ok value) : d.readAny l depth (.leaf leaf) = .ok value := by
  cases depth <;> simp [readAny, Tree.hasOwnTag, Tree.bare, readShallow_eq_ok h hvalue] <;> rfl

/-- What reading with this latitude does not change, and does not refuse. -/
inductive Latitude.Keeps (l : Latitude) : Value → Prop
  | null : Keeps l .null
  | bool (b : Bool) : Keeps l (.bool b)
  | int {n : Int} (h : (Width.isSigned 64 n || Width.isUnsigned 64 n) = true) : Keeps l (.int n)
  | float {x : Float} (h : l.float x = .float x) : Keeps l (.float x)
  | text (s : String) : Keeps l (.text s)
  | list {items : List Value} (h : ∀ item ∈ items, Keeps l item) : Keeps l (.list items)
  | dict {entries : List (String × Value)} (h : ∀ entry ∈ entries, Keeps l entry.2) :
      Keeps l (.dict entries)

theorem Latitude.IsFaithful.keeps {l : Latitude} (hl : l.IsFaithful) {value : Value}
    (h : value.IsStorable) : l.Keeps value := by
  induction h with
  | null => exact .null
  | bool b => exact .bool b
  | int hn => exact .int hn
  | float hx => exact .float (hl.float _ hx)
  | text s => exact .text s
  | list _ ih => exact .list ih
  | dict _ _ ih => exact .dict ih

theorem readAny_leaf_presents {l : Latitude} {value : Value}
    (h : d.Presents (.leaf leaf) value) (hkept : l.Keeps value) :
    d.readAny l depth (.leaf leaf) = .ok value := by
  cases h with
  | null h => exact readAny_leaf h rfl
  | bool h => exact readAny_leaf h rfl
  | text h => exact readAny_leaf h rfl
  | int h =>
      cases hkept with
      | int hn => exact readAny_leaf h (if_pos hn)
  | float h =>
      cases hkept with
      | float hx => exact readAny_leaf h (congrArg Except.ok hx)

def withTextKeys (entries : List (String × Value)) : List (Value × Value) :=
  entries.map fun entry => (.text entry.1, entry.2)

theorem readAnyEntries_eq_ok {l : Latitude} {read : Tree α → Except Fault Value}
    {nodes : List (Tree α × Tree α)} {entries : List (String × Value)}
    (hread : ∀ leaf s, d.Shows leaf (.text s) → read (.leaf leaf) = .ok (.text s))
    (hkeys : List.Forall₂
      (fun node entry => ∃ leaf, node.1 = .leaf leaf ∧ d.Shows leaf (.text entry.1)) nodes entries)
    (h : List.Forall₂ (fun node entry => read node.2 = .ok entry.2) nodes entries) :
    d.readAnyEntries l read nodes = .ok entries := by
  have htexts (wanted : String) : List.Forall₂
      (fun node entry => d.readText wanted node.1 = .ok entry.1) nodes entries :=
    hkeys.imp fun node entry ⟨leaf, hleaf, hshows⟩ => hleaf ▸ readText_leaf wanted hshows
  unfold readAnyEntries
  split
  · -- Keys are read as values of any kind, and turned into texts afterwards.
    have hpairs : d.readEntries read read nodes = .ok (withTextKeys entries) := by
      refine readEntries_eq_ok d (List.forall₂_map_right_iff.mpr ?_)
        (List.forall₂_map_right_iff.mpr h)
      exact hkeys.imp fun node entry ⟨leaf, hleaf, hshows⟩ => hleaf ▸ hread leaf _ hshows
    have hentries : (withTextKeys entries).map (fun pair => (keyText pair.1, pair.2)) = entries :=
      List.map_map.trans (List.map_id entries)
    rw [hpairs]
    exact congrArg Except.ok hentries
  · cases h with
    | nil => rfl
    | cons hfirst hrest =>
        obtain ⟨hkey, -⟩ := List.forall₂_cons.mp (htexts "a string key")
        obtain ⟨-, hothers⟩ := List.forall₂_cons.mp (htexts "a string")
        have hhead := readEntries_eq_ok d (.cons hkey .nil) (.cons hfirst .nil)
        have htail := readEntries_eq_ok d hothers hrest
        simp only [hhead, htail]
        rfl

theorem readAny_of_keeps {l : Latitude} {node : Tree α} {value : Value}
    (h : d.Presents node value) (hkept : l.Keeps value) (hdepth : value.NestsWithin depth) :
    d.readAny l depth node = .ok value := by
  induction depth generalizing node value with
  | zero =>
      cases node with
      | leaf leaf => exact readAny_leaf_presents h hkept
      | list nodes => cases h with | list h => exact hdepth.elim
      | dict nodes => cases h with | dict hkeys h => exact hdepth.elim
      | marked mark node => cases h
      | broken => cases h
  | succ depth ih =>
      cases node with
      | leaf leaf => exact readAny_leaf_presents h hkept
      | list nodes =>
          cases h with
          | list h =>
              cases hkept with
              | list hitems =>
                  have hread := forall₂_imp_of_forall_mem h fun node item hitem hnode =>
                    ih hnode (hitems item hitem) (hdepth item hitem)
                  simp only [readAny, Tree.hasOwnTag, Tree.bare, readItems,
                    readItemsFrom_eq_ok hread]
                  rfl
      | dict nodes =>
          cases h with
          | dict hkeys h =>
              cases hkept with
              | dict hentries =>
                  have hread := forall₂_imp_of_forall_mem h fun node entry hentry hnode =>
                    ih hnode (hentries entry hentry) (hdepth entry hentry)
                  have hkey (leaf : α) (s : String) (hshows : d.Shows leaf (.text s)) :
                      d.readAny l depth (.leaf leaf) = .ok (.text s) := readAny_leaf hshows rfl
                  simp only [readAny, Tree.hasOwnTag, Tree.bare,
                    readAnyEntries_eq_ok hkey hkeys hread]
                  rfl
      | marked mark node => cases h
      | broken => cases h

theorem readAny_presents {l : Latitude} (hl : l.IsFaithful) {node : Tree α} {value : Value}
    (h : d.Presents node value) (hstorable : value.IsStorable) (hdepth : value.NestsWithin depth) :
    d.readAny l depth node = .ok value :=
  readAny_of_keeps h (hl.keeps hstorable) hdepth

/-! Leaves that are what they look like. -/

theorem plain_shows {depth : Nat} {wording : Fault.Wording}
    {surplus : (given wanted : Nat) → Fault.Cause} {look : α → Except Fault.Cause Found}
    {found : Found} (h : look leaf = .ok found) :
    (plain depth wording surplus look).Shows leaf found where
  look := h
  isAbsent := by
    simp only [plain, h]
    cases found <;> rfl
  text := by
    rintro s rfl wanted
    simp only [plain, h]
    rfl
  bool := by
    rintro b rfl
    simp only [plain, h]
    rfl
  nat := by
    rintro n rfl hn
    simp only [plain, h]
    exact if_pos hn
  int := by
    rintro n rfl hn
    simp only [plain, h]
    exact if_pos hn
  float := by
    rintro x rfl
    simp only [plain, h]
    rfl

end Dialect

/-! Values as trees whose leaves are of any kind. -/

mutual

def Value.treeOf (leaf : Found → α) : Value → Tree α
  | .null => .leaf (leaf .null)
  | .bool b => .leaf (leaf (.bool b))
  | .int n => .leaf (leaf (.int n))
  | .float x => .leaf (leaf (.float x))
  | .text s => .leaf (leaf (.text s))
  | .list items => .list (Value.treesOf leaf items)
  | .dict entries => .dict (Value.entryTreesOf leaf entries)

def Value.treesOf (leaf : Found → α) : List Value → List (Tree α)
  | [] => []
  | value :: rest => value.treeOf leaf :: Value.treesOf leaf rest

def Value.entryTreesOf (leaf : Found → α) : List (String × Value) → List (Tree α × Tree α)
  | [] => []
  | (key, value) :: rest =>
      (.leaf (leaf (.text key)), value.treeOf leaf) :: Value.entryTreesOf leaf rest

end

namespace Value

variable {leaf : Found → α}

mutual

theorem treeOf_injective (h : Function.Injective leaf) : (value other : Value) →
    value.treeOf leaf = other.treeOf leaf → value = other
  | .null, other, heq | .bool _, other, heq | .int _, other, heq | .float _, other, heq
  | .text _, other, heq => by
      cases other <;> simp_all [treeOf, h.eq_iff]
  | .list items, other, heq => by
      cases other with
      | list others => exact congrArg list (treesOf_injective h items others (Tree.list.inj heq))
      | _ => simp [treeOf] at heq
  | .dict entries, other, heq => by
      cases other with
      | dict others =>
          exact congrArg dict (entryTreesOf_injective h entries others (Tree.dict.inj heq))
      | _ => simp [treeOf] at heq

theorem treesOf_injective (h : Function.Injective leaf) : (items others : List Value) →
    treesOf leaf items = treesOf leaf others → items = others
  | [], [], _ => rfl
  | item :: items, other :: others, heq => by
      obtain ⟨hfirst, hrest⟩ := List.cons.inj heq
      rw [treeOf_injective h item other hfirst, treesOf_injective h items others hrest]

theorem entryTreesOf_injective (h : Function.Injective leaf) :
    (entries others : List (String × Value)) →
      entryTreesOf leaf entries = entryTreesOf leaf others → entries = others
  | [], [], _ => rfl
  | (key, value) :: entries, (otherKey, other) :: others, heq => by
      obtain ⟨hfirst, hrest⟩ := List.cons.inj heq
      obtain ⟨hkey, hvalue⟩ := Prod.mk.inj hfirst
      obtain rfl := Found.text.inj (h (Tree.leaf.inj hkey))
      rw [treeOf_injective h value other hvalue, entryTreesOf_injective h entries others hrest]

end

end Value

namespace Dialect

variable {d : Dialect α} {leaf : Found → α}

theorem presents_keysOf (h : ∀ found, d.Shows (leaf found) found)
    (entries : List (String × Value)) :
    List.Forall₂
      (fun node entry => ∃ leaf, node.1 = .leaf leaf ∧ d.Shows leaf (.text entry.1))
      (Value.entryTreesOf leaf entries) entries := by
  induction entries with
  | nil => exact .nil
  | cons entry rest ih => exact .cons ⟨_, rfl, h _⟩ ih

mutual

theorem presents_treeOf (h : ∀ found, d.Shows (leaf found) found) : (value : Value) →
    d.Presents (value.treeOf leaf) value
  | .null => .null (h _)
  | .bool _ => .bool (h _)
  | .int _ => .int (h _)
  | .float _ => .float (h _)
  | .text _ => .text (h _)
  | .list items => .list (presents_treesOf h items)
  | .dict entries => .dict (presents_keysOf h entries) (presents_entryTreesOf h entries)

theorem presents_treesOf (h : ∀ found, d.Shows (leaf found) found) : (items : List Value) →
    List.Forall₂ d.Presents (Value.treesOf leaf items) items
  | [] => .nil
  | item :: rest => .cons (presents_treeOf h item) (presents_treesOf h rest)

theorem presents_entryTreesOf (h : ∀ found, d.Shows (leaf found) found) :
    (entries : List (String × Value)) →
      List.Forall₂ (fun node entry => d.Presents node.2 entry.2)
        (Value.entryTreesOf leaf entries) entries
  | [] => .nil
  | (_, value) :: rest => .cons (presents_treeOf h value) (presents_entryTreesOf h rest)

end

/-! Values that were read before. -/

mutual

theorem tree_eq_treeOf : (value : Value) → value.tree = value.treeOf id
  | .null | .bool _ | .int _ | .float _ | .text _ => rfl
  | .list items => congrArg Tree.list (trees_eq_treesOf items)
  | .dict entries => congrArg Tree.dict (entryTrees_eq_entryTreesOf entries)

theorem trees_eq_treesOf : (items : List Value) → Value.trees items = Value.treesOf id items
  | [] => rfl
  | item :: rest => congrArg₂ List.cons (tree_eq_treeOf item) (trees_eq_treesOf rest)

theorem entryTrees_eq_entryTreesOf : (entries : List (String × Value)) →
    Value.entryTrees entries = Value.entryTreesOf id entries
  | [] => rfl
  | (_, value) :: rest =>
      congrArg₂ List.cons (congrArg _ (tree_eq_treeOf value)) (entryTrees_eq_entryTreesOf rest)

end

theorem again_presents (wording : Fault.Wording) (value : Value) :
    (again wording).Presents value.tree value := by
  rw [tree_eq_treeOf]
  exact presents_treeOf (fun _ => plain_shows rfl) value

end Dialect

end DatasetPlan
