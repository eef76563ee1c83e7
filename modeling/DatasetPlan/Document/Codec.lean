import DatasetPlan.Dictionary
import DatasetPlan.Document.Data
import DatasetPlan.Document.Dialect

/-! A codec writes things of one type as values and reads them from documents in any dialect. -/

namespace DatasetPlan

open Fault (Cause)

structure Codec (β : Type) : Type 1 where
  write : β → Value
  read : {α : Type} → Dialect α → Reader α β

namespace Codec

/-- Reads a whole document. What is wrong with its root comes before what is wrong after it. -/
def readDocument (c : Codec β) (d : Dialect α) (document : Document α) : Except Fault β := do
  let value ← c.read d d.depth document.root
  if document.whole then pure value else fail .malformed

def text : Codec String where
  write := .text
  read d _ := d.readText "a string"

def bool : Codec Bool where
  write := .bool
  read d _ := Dialect.readLeaf d.bool "a boolean"

def nat : Codec Nat where
  write n := .int n
  read d _ := Dialect.readLeaf d.nat "usize"

def int : Codec Int64 where
  write n := .int n.toInt
  read d _ := Dialect.readLeaf d.int "i64"

def float : Codec Float where
  write := .float
  read d _ := Dialect.readLeaf d.float "f64"

def data : Codec Data where
  write := Data.value
  read d depth node := do return .ofValue (← d.readAny Dialect.opaqueData depth node)

def list (c : Codec β) : Codec (List β) where
  write items := .list (items.map c.write)
  read d depth node := located <|
    match node.bare, depth with
    | .list items, depth + 1 => Dialect.readItems (c.read d depth) items
    | .dict _, _ => unwanted .dict "a sequence"
    | .leaf value, _ =>
        if d.isBlank value then pure []
        else do unwanted (← Dialect.settle (d.look value)) "a sequence"
    | _, _ => fail .malformed

def dict (c : Codec β) : Codec (Dictionary β) where
  write d := .dict (d.entries.map fun entry => (entry.1, c.write entry.2))
  read d depth node := located <|
    match node.bare, depth with
    | .dict entries, depth + 1 => do
        pure (.ofList (← d.readEntries (d.readText "a string") (c.read d depth) entries))
    | .list _, _ => unwanted .list "a map"
    | .leaf value, _ =>
        if d.isBlank value then pure ∅
        else do unwanted (← Dialect.settle (d.look value)) "a map"
    | _, _ => fail .malformed

def option (c : Codec β) : Codec (Option β) where
  write
    | none => .null
    | some value => c.write value
  read d depth node := do
    let absent ←
      match node.hasOwnTag, node.bare with
      | false, .leaf value => Dialect.settle (d.isAbsent value)
      | _, _ => pure false
    if absent then pure none else some <$> c.read d depth node

def union (name : String) (write : β → Value) (ofValue? : Value → Option β) : Codec β where
  write := write
  read d depth node := do
    match ofValue? (← d.readAny Dialect.buffered depth node) with
    | some value => pure value
    | none => fail (.noVariant name)

end Codec

/-- One field of records of type `σ`; `put` reads a node into the field, `write` gives no value
where the field is left out. -/
structure Field (σ : Type) : Type 1 where
  name : String
  mandatory : Bool
  write : σ → Option Value
  put : {α : Type} → Dialect α → (depth : Nat) → Tree α → σ → Except Fault σ

namespace Field

def required (name : String) (c : Codec β) (get : σ → β) (set : σ → β → σ) : Field σ where
  name := name
  mandatory := true
  write x := some (c.write (get x))
  put d depth node x := return set x (← c.read d depth node)

/-- A field that may be missing, and is then as in the blank record. -/
def optional (name : String) (c : Codec β) (get : σ → β) (set : σ → β → σ) : Field σ :=
  { required name c get set with mandatory := false }

/-- An optional field that is left out where `skip` holds. -/
def sparse (name : String) (c : Codec β) (skip : β → Bool) (get : σ → β) (set : σ → β → σ) :
    Field σ :=
  { optional name c get set with
    write := fun x => if skip (get x) then none else some (c.write (get x)) }

end Field

structure Record (σ : Type) : Type 1 where
  title : String
  blank : σ
  fields : List (Field σ)

namespace Record

structure Draft (σ : Type) where
  record : σ
  seen : List String

def readEntry (r : Record σ) (d : Dialect α) (depth : Nat) (draft : Draft σ)
    (entry : Tree α × Tree α) : Except Fault (Draft σ) := do
  let name ← d.readText "field identifier" entry.1
  match r.fields.find? (·.name = name) with
  | none => pure draft
  | some field =>
      if name ∈ draft.seen then fail (.duplicateField name)
      else do
        let record ← (field.put d depth entry.2 draft.record).mapError
          (Fault.inside (d.segment entry.1))
        pure ⟨record, name :: draft.seen⟩

def requireFields (r : Record σ) (draft : Draft σ) : Except Fault σ :=
  match r.fields.find? fun field => field.mandatory && field.name ∉ draft.seen with
  | some field => fail (.missingField field.name)
  | none => pure draft.record

/-- Entries in any order; those that are no fields are passed over. Missing fields are looked for
at the end, in the order of the fields. -/
def readEntries (r : Record σ) (d : Dialect α) (depth : Nat)
    (entries : List (Tree α × Tree α)) : Except Fault σ := do
  r.requireFields (← entries.foldlM (r.readEntry d depth) ⟨r.blank, []⟩)

/-- The values of the fields in their order; those of optional fields may be missing at the
end. -/
def readItemsFrom (r : Record σ) (d : Dialect α) (depth : Nat) :
    (index : Nat) → List (Field σ) → List (Tree α) → σ → Except Fault σ
  | _, [], [], record => pure record
  | index, [], extra, _ => fail (d.surplus (index + extra.length) index)
  | index, field :: fields, [], record =>
      if field.mandatory then
        fail (.wrongLength index (r.title ++ " with " ++ countText r.fields.length))
      else r.readItemsFrom d depth (index + 1) fields [] record
  | index, field :: fields, item :: items, record => do
      let record ← (field.put d depth item record).mapError (Fault.inside (.item index))
      r.readItemsFrom d depth (index + 1) fields items record

def readItems (r : Record σ) (d : Dialect α) (depth : Nat) (items : List (Tree α)) :
    Except Fault σ :=
  r.readItemsFrom d depth 0 r.fields items r.blank

def read (r : Record σ) (d : Dialect α) : Reader α σ := fun depth node => located <|
  match node.bare, depth with
  | .dict entries, depth + 1 => r.readEntries d depth entries
  | .list items, depth + 1 =>
      if d.recordsAsLists then r.readItems d depth items else unwanted .list r.title
  | .list _, 0 => if d.recordsAsLists then fail .malformed else unwanted .list r.title
  | .leaf value, _ =>
      if d.isBlank value then r.readEntries d depth []
      else do unwanted (← Dialect.settle (d.look value)) r.title
  | _, _ => fail .malformed

def entries (r : Record σ) (x : σ) : List (String × Value) :=
  r.fields.filterMap fun field => (field.write x).map (field.name, ·)

def codec (r : Record σ) : Codec σ where
  write x := .dict (r.entries x)
  read := r.read

end Record

structure Variant (σ : Type) where
  name : String
  entries : σ → Option (List (String × Value))
  read : Dialect Found → Reader Found σ

def Record.variant (r : Record τ) (name : String) (wrap : τ → σ) (unwrap? : σ → Option τ) :
    Variant σ where
  name := name
  entries x := (unwrap? x).map r.entries
  read d depth node := wrap <$> r.read d depth node

namespace Variant

structure Draft (σ : Type) where
  kind : Option (Variant σ)
  entries : List (Tree Found × Tree Found)

def readKind (variants : List (Variant σ)) (d : Dialect α) (node : Tree α) :
    Except Fault (Variant σ) := do
  let name ← d.readText "variant identifier" node
  match variants.find? (·.name = name) with
  | some variant => pure variant
  | none => fail (.unknownVariant name (variants.map (·.name)))

def readEntry (key : String) (variants : List (Variant σ)) (d : Dialect α) (depth : Nat)
    (draft : Draft σ) (entry : Tree α × Tree α) : Except Fault (Draft σ) := do
  let name ← d.readAny Dialect.buffered depth entry.1
  let inside := Fault.inside (d.segment entry.1)
  if Dialect.keyText name = key then
    if draft.kind.isSome then fail (.duplicateField key)
    else do
      let kind ← (readKind variants d entry.2).mapError inside
      pure { draft with kind := some kind }
  else do
    let value ← (d.readAny Dialect.buffered depth entry.2).mapError inside
    pure { draft with entries := (name.tree, value.tree) :: draft.entries }

def readNode (key title : String) (variants : List (Variant σ)) (d : Dialect α) (depth : Nat)
    (node : Tree α) : Except Fault (Variant σ × Tree Found) :=
  match node.bare, depth with
  | .dict entries, depth + 1 => do
      let draft ← entries.foldlM (readEntry key variants d depth) ⟨none, []⟩
      match draft.kind with
      | some kind => pure (kind, .dict draft.entries.reverse)
      | none => fail (.missingField key)
  | .list [], _ + 1 => fail (.missingField key)
  | .list (first :: rest), depth + 1 => do
      let kind ← (readKind variants d first).mapError (Fault.inside (.item 0))
      let values ← Dialect.readItemsFrom (d.readAny Dialect.buffered depth) 1 rest
      pure (kind, .list (Value.trees values))
  | .leaf value, _ => do unwanted (← Dialect.settle (d.look value)) title
  | _, _ => fail .malformed

/-- Records that name their kind under `key`. The other entries are kept aside until the kind is
known; what is wrong with them then is not said to stand at a node of its own. -/
def codec (key title : String) (variants : List (Variant σ)) : Codec σ where
  write x :=
    match variants.findSome? fun v => (v.entries x).map (v.name, ·) with
    | some (name, entries) => .dict ((key, .text name) :: entries)
    | none => .null
  read d depth node := do
    let (kind, rest) ← located (readNode key title variants d depth node)
    (kind.read (.again d.wording) depth rest).mapError fun fault => .unlocated fault.cause

end Variant

end DatasetPlan
