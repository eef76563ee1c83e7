import DatasetPlan.Document.Fault
import DatasetPlan.Document.Tree
import DatasetPlan.Document.Value

/-! How a format's leaves answer when something particular is wanted of them, and the readings of
nodes that follow from it. -/

namespace DatasetPlan

open Fault (Cause)

structure Dialect (α : Type) where
  depth : Nat
  wording : Fault.Wording
  /-- What a leaf is when nothing particular is wanted. -/
  look : α → Except Cause Found
  text : (wanted : String) → α → Except Cause String
  bool : α → Except Cause Bool
  nat : α → Except Cause Nat
  int : α → Except Cause Int64
  float : α → Except Cause Float
  isAbsent : α → Except Cause Bool
  /-- Whether a leaf stands for an empty list, dictionary or record. -/
  isBlank : α → Bool
  /-- Whether a record may also be written as the list of its values. -/
  recordsAsLists : Bool
  /-- What is wrong when `given` items stand for a record of `wanted` fields. -/
  surplus : (given wanted : Nat) → Cause

abbrev Reader (α β : Type) := (depth : Nat) → Tree α → Except Fault β

def located (result : Except Fault β) : Except Fault β :=
  result.mapError Fault.locate

def fail (cause : Cause) : Except Fault β :=
  .error (.unlocated cause)

def unwanted (found : Found) (wanted : String) : Except Fault β :=
  fail (.wrongType found wanted)

namespace Dialect

def settle (result : Except Cause β) : Except Fault β :=
  result.mapError Fault.unlocated

def readLeaf (read : α → Except Cause β) (wanted : String) (node : Tree α) : Except Fault β :=
  located <|
    match node.bare with
    | .leaf value => settle (read value)
    | .list _ => unwanted .list wanted
    | .dict _ => unwanted .dict wanted
    | _ => fail .malformed

def readItemsFrom (read : Tree α → Except Fault β) : Nat → List (Tree α) → Except Fault (List β)
  | _, [] => pure []
  | index, item :: items => do
      let first ← (read item).mapError (Fault.inside (.item index))
      let rest ← readItemsFrom read (index + 1) items
      pure (first :: rest)

def readItems (read : Tree α → Except Fault β) (items : List (Tree α)) :
    Except Fault (List β) :=
  readItemsFrom read 0 items

/-- How an entry with this key is called in paths. A key that is no scalar, or is an alias, has no
name there. -/
def segment (d : Dialect α) (key : Tree α) : Fault.Segment :=
  match key.isAlias, key.bare with
  | false, .leaf value =>
      match d.text "a string" value with
      | .ok name => .key name
      | .error _ => .unnamed
  | _, _ => .unnamed

def readEntries {κ : Type} (d : Dialect α) (readKey : Tree α → Except Fault κ)
    (read : Tree α → Except Fault β) : List (Tree α × Tree α) → Except Fault (List (κ × β))
  | [] => pure []
  | (key, node) :: entries => do
      let name ← readKey key
      let value ← (read node).mapError (Fault.inside (d.segment key))
      let rest ← d.readEntries readKey read entries
      pure ((name, value) :: rest)

def readText (d : Dialect α) (wanted : String) : Tree α → Except Fault String :=
  readLeaf (d.text wanted) wanted

structure Latitude where
  wanted : String
  ownTag : Cause
  /-- What is wrong with an integer that fits neither in 64 bits nor, if negative, in 63. -/
  wideInt : Int → Cause
  float : Float → Value
  anyKey : Bool

def valueOf (l : Latitude) : Found → Except Cause Value
  | .null => pure .null
  | .bool b => pure (.bool b)
  | .int n =>
      if Width.isSigned 64 n || Width.isUnsigned 64 n then pure (.int n) else throw (l.wideInt n)
  | .float x => pure (l.float x)
  | .text s => pure (.text s)
  | .list => throw (.wrongType .list l.wanted)
  | .dict => throw (.wrongType .dict l.wanted)
  | .tagged => throw l.ownTag

def keyText : Value → String
  | .text s => s
  | _ => ""

/-- The first key is asked for in other words than the later ones. -/
def readAnyEntries (d : Dialect α) (l : Latitude) (read : Tree α → Except Fault Value)
    (entries : List (Tree α × Tree α)) : Except Fault (List (String × Value)) :=
  if l.anyKey then do
    let pairs ← d.readEntries read read entries
    pure (pairs.map fun pair => (keyText pair.1, pair.2))
  else
    match entries with
    | [] => pure []
    | (key, node) :: rest => do
        let first ← d.readEntries (d.readText "a string key") read [(key, node)]
        let others ← d.readEntries (d.readText "a string") read rest
        pure (first ++ others)

def readShallow (d : Dialect α) (l : Latitude) (node : Tree α) : Except Fault Value :=
  if node.hasOwnTag then fail l.ownTag
  else
    match node.bare with
    | .leaf value => settle do valueOf l (← d.look value)
    | _ => fail .malformed

def readAny (d : Dialect α) (l : Latitude) : Reader α Value
  | 0, node => located (d.readShallow l node)
  | depth + 1, node => located <|
      if node.hasOwnTag then fail l.ownTag
      else
        match node.bare with
        | .list items => do
            pure (.list (← readItems (d.readAny l depth) items))
        | .dict entries => do
            pure (.dict (← d.readAnyEntries l (d.readAny l depth) entries))
        | _ => d.readShallow l node

/-- Values that are kept aside until it is known what they are to be. -/
def buffered : Latitude where
  wanted := "any value"
  ownTag := .malformed
  wideInt n := .wrongType (.int n) "any value"
  float := .float
  anyKey := true

/-- Values that are kept for their own sake; numbers without a finite value become null. -/
def opaqueData : Latitude where
  wanted := "any valid JSON value"
  ownTag := .wrongType .tagged "any valid JSON value"
  wideInt _ := .malformed
  float x := if x.isFinite then .float x else .null
  anyKey := false

/-- The dialect of leaves that are read the same whatever is wanted of them. -/
def plain (depth : Nat) (wording : Fault.Wording) (surplus : (given wanted : Nat) → Cause)
    (look : α → Except Cause Found) : Dialect α where
  depth := depth
  wording := wording
  look := look
  text wanted value := do
    match ← look value with
    | .text s => pure s
    | found => throw (.wrongType found wanted)
  bool value := do
    match ← look value with
    | .bool b => pure b
    | found => throw (.wrongType found "a boolean")
  nat value := do
    match ← look value with
    | .int n =>
        if Width.isUnsigned 64 n then pure n.toNat else throw (.wrongValue (.int n) "usize")
    | found => throw (.wrongType found "usize")
  int value := do
    match ← look value with
    | .int n =>
        if Width.isSigned 64 n then pure (Int64.ofInt n)
        else throw (.wrongValue (.int n) "i64")
    | found => throw (.wrongType found "i64")
  float value := do
    match ← look value with
    | .float x => pure x
    | .int n => pure (Numeral.floatOfInt n)
    | found => throw (.wrongType found "f64")
  isAbsent value :=
    match look value with
    | .ok .null => pure true
    | _ => pure false
  isBlank _ := false
  recordsAsLists := true
  surplus := surplus

end Dialect

mutual

def Value.tree : Value → Tree Found
  | .null => .leaf .null
  | .bool b => .leaf (.bool b)
  | .int n => .leaf (.int n)
  | .float x => .leaf (.float x)
  | .text s => .leaf (.text s)
  | .list items => .list (Value.trees items)
  | .dict entries => .dict (Value.entryTrees entries)

def Value.trees : List Value → List (Tree Found)
  | [] => []
  | value :: rest => value.tree :: Value.trees rest

def Value.entryTrees : List (String × Value) → List (Tree Found × Tree Found)
  | [] => []
  | (key, value) :: rest => (.leaf (.text key), value.tree) :: Value.entryTrees rest

end

def countText (n : Nat) : String :=
  toString n ++ if n = 1 then " element" else " elements"

/-- Values that were read before, in the words of the format they were read from. -/
def Dialect.again (wording : Fault.Wording) : Dialect Found :=
  .plain 0 wording
    (fun given wanted => .wrongLength given (countText wanted ++ " in sequence")) pure

end DatasetPlan
