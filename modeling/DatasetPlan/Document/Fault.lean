import DatasetPlan.Decimal.Layout
import DatasetPlan.Text.Quoted
import DatasetPlan.Width

namespace DatasetPlan

/-- What stands at a place where something else is wanted. -/
inductive Found where
  | null
  | bool (value : Bool)
  | int (value : Int)
  | float (value : Float)
  | text (value : String)
  | list
  | dict
  | tagged

namespace Fault

inductive Cause where
  | malformed
  | missingField (name : String)
  | duplicateField (name : String)
  | wrongType (found : Found) (wanted : String)
  | wrongValue (found : Found) (wanted : String)
  | wrongLength (length : Nat) (wanted : String)
  | unknownVariant (name : String) (known : List String)
  | noVariant (union : String)

inductive Segment where
  | key (name : String)
  | item (index : Nat)
  | unnamed

end Fault

/-- A fault has no path until the node it belongs to is known. -/
structure Fault where
  cause : Fault.Cause
  path : Option (List Fault.Segment)

namespace Fault

def unlocated (cause : Cause) : Fault :=
  ⟨cause, none⟩

/-- Settles the node that is being read as the place of the fault, unless a node inside it has
already been settled. -/
def locate (fault : Fault) : Fault :=
  { fault with path := some (fault.path.getD []) }

def inside (segment : Segment) (fault : Fault) : Fault :=
  { fault with path := fault.path.map (segment :: ·) }

structure Wording where
  null : String
  float : FloatLayout
  showsPath : Bool

def integerText (value : Int) : String :=
  let number := "`" ++ toString value ++ "`"
  if value < -Width.signedBound 64 then "integer " ++ number ++ " as i128"
  else if Width.span 64 ≤ value then "integer " ++ number ++ " as u128"
  else "integer " ++ number

def foundText (w : Wording) : Found → String
  | .null => w.null
  | .bool value => "boolean `" ++ toString value ++ "`"
  | .int value => integerText value
  | .float value => "floating point `" ++ w.float.text value ++ "`"
  | .text value => "string " ++ Text.quoted value
  | .list => "sequence"
  | .dict => "map"
  | .tagged => "enum"

def namesText (names : List String) : String :=
  ", ".intercalate (names.map fun name => "`" ++ name ++ "`")

/-- A malformed document has no text of its own here but the one word. -/
def causeText (w : Wording) : Cause → String
  | .malformed => "syntax"
  | .missingField name => "missing field `" ++ name ++ "`"
  | .duplicateField name => "duplicate field `" ++ name ++ "`"
  | .wrongType found wanted => "invalid type: " ++ foundText w found ++ ", expected " ++ wanted
  | .wrongValue found wanted => "invalid value: " ++ foundText w found ++ ", expected " ++ wanted
  | .wrongLength length wanted => "invalid length " ++ toString length ++ ", expected " ++ wanted
  | .unknownVariant name known =>
      "unknown variant `" ++ name ++ "`, expected one of " ++ namesText known
  | .noVariant union => "data did not match any variant of untagged enum " ++ union

def Segment.extend (path : String) : Segment → String
  | .key name => path ++ "." ++ name
  | .item index => path ++ "[" ++ toString index ++ "]"
  | .unnamed => path ++ ".?"

/-- The root is a lone point, which is left out before a name. -/
def pathText : List Segment → String
  | [] => "."
  | .key name :: rest => rest.foldl Segment.extend name
  | .item index :: rest => rest.foldl Segment.extend (".[" ++ toString index ++ "]")
  | .unnamed :: rest => rest.foldl Segment.extend "?"

def message (w : Wording) (fault : Fault) : String :=
  let place := pathText (fault.path.getD [])
  let shown := match fault.cause with
    | .malformed => false
    | _ => w.showsPath && place != "."
  (if shown then place ++ ": " else "") ++ causeText w fault.cause

end Fault

end DatasetPlan
