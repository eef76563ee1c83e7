import DatasetPlan.Document.Codec

/-! Values of hyperparameters: what is left of values when nulls and dictionaries are excluded and
integers have 64 bits. -/

namespace DatasetPlan

inductive HyperValue where
  | bool (value : Bool)
  | int (value : Int64)
  | float (value : Float)
  | text (value : String)
  | list (items : List HyperValue)
deriving Inhabited

namespace HyperValue

mutual

def value : HyperValue → Value
  | bool b => .bool b
  | int n => .int n.toInt
  | float x => .float x
  | text s => .text s
  | list items => .list (values items)

def values : List HyperValue → List Value
  | [] => []
  | item :: rest => item.value :: values rest

end

def ofInt (n : Int) : HyperValue :=
  if Width.isSigned 64 n then int (Int64.ofInt n) else float (Numeral.floatOfInt n)

mutual

/-- Integers beyond 64 bits are doubles. -/
def ofValue? : Value → Option HyperValue
  | .null => none
  | .bool b => some (bool b)
  | .int n => some (ofInt n)
  | .float x => some (float x)
  | .text s => some (text s)
  | .list items => list <$> ofValues? items
  | .dict _ => none

def ofValues? : List Value → Option (List HyperValue)
  | [] => some []
  | item :: rest => do
      let first ← ofValue? item
      let others ← ofValues? rest
      some (first :: others)

end

def codec : Codec HyperValue :=
  .union "HyperValue" value ofValue?

def indexLimit : Nat :=
  Width.signedBound 64 - 1

/-- An index beyond the integers is taken for the last of them. -/
def ofIndex (index : Nat) : HyperValue :=
  int (Int64.ofNat (min index indexLimit))

def ofIndices (indices : List Nat) : HyperValue :=
  list (indices.map ofIndex)

/-- The engine asks for at least one text, so an empty list is given an empty one. -/
def ofTexts (texts : List String) : HyperValue :=
  if texts.isEmpty then list [text ""] else list (texts.map text)

def asText? : HyperValue → Option String
  | text s => some s
  | _ => none

def asInt? : HyperValue → Option Int64
  | int n => some n
  | _ => none

def asInts? : HyperValue → Option (List Int64)
  | list items => items.mapM asInt?
  | _ => none

def asTexts? : HyperValue → Option (List String)
  | list items => items.mapM asText?
  | _ => none

end HyperValue

end DatasetPlan
