import DatasetPlan.Decimal.Layout
import DatasetPlan.Document.Fault

/-! What plain YAML scalars stand for, by the core schema of YAML 1.2. -/

namespace DatasetPlan.Yaml

def isNullWord (text : String) : Bool :=
  text ∈ ["null", "Null", "NULL", "~"]

def bool? (text : String) : Option Bool :=
  if text ∈ ["true", "True", "TRUE"] then some true
  else if text ∈ ["false", "False", "FALSE"] then some false
  else none

def isSign (c : Char) : Bool :=
  c = '+' || c = '-'

def digitValue (c : Char) : Nat :=
  if '0' ≤ c ∧ c ≤ '9' then c.toNat - '0'.toNat
  else if 'a' ≤ c ∧ c ≤ 'z' then c.toNat - 'a'.toNat + 10
  else if 'A' ≤ c ∧ c ≤ 'Z' then c.toNat - 'A'.toNat + 10
  else 36

def digits? (radix limit : Nat) (cs : List Char) : Option Nat :=
  if cs.isEmpty || cs.any (radix ≤ digitValue ·) then none
  else
    let n := cs.foldl (fun n c => radix * n + digitValue c) 0
    if n < limit then some n else none

/-- Two digits or more after an optional sign, the first of them a zero: no number here, though
one elsewhere. -/
def isZeroPadded (cs : List Char) : Bool :=
  let body := match cs with
    | c :: rest => if isSign c then rest else cs
    | [] => cs
  match body with
  | '0' :: c :: rest => (c :: rest).all Numeral.isDigit
  | _ => false

def magnitude? (limit : Nat) : List Char → Option Nat
  | '0' :: 'x' :: rest => digits? 16 limit rest
  | '0' :: 'o' :: rest => digits? 8 limit rest
  | '0' :: 'b' :: rest => digits? 2 limit rest
  | cs => if isZeroPadded cs then none else digits? 10 limit cs

def natural? (limit : Nat) : List Char → Option Nat
  | '+' :: rest => magnitude? limit rest
  | cs => magnitude? limit cs

/-- A number after a minus sign, down to `-limit`. -/
def negative? (limit : Nat) : List Char → Option Int
  | '-' :: rest => (magnitude? (limit + 1) rest).map fun n => -n
  | _ => none

def integer? (above below : Nat) (cs : List Char) : Option Int :=
  ((natural? above cs).map fun n => (n : Int)) <|> negative? below cs

def infinity : Float := 1 / 0

/-- The not-a-number takes no sign, and a numeral that is out of range is no number. -/
def float? (cs : List Char) : Option Float :=
  let word := String.ofList cs
  if word ∈ [".inf", ".Inf", ".INF", "+.inf", "+.Inf", "+.INF"] then some infinity
  else if word ∈ ["-.inf", "-.Inf", "-.INF"] then some (-infinity)
  else if word ∈ [".nan", ".NaN", ".NAN"] then some (0 / 0)
  else
    match Numeral.float? cs with
    | some x => if x.isFinite then some x else none
    | none => none

/-- Integers may have up to 128 bits here; whether such a one is of use is for the reader to
say. -/
def resolve (text : String) : Found :=
  let cs := text.toList
  if cs.isEmpty || isNullWord text then .null
  else
    match bool? text with
    | some b => .bool b
    | none =>
        match integer? (Width.span 128) (Width.signedBound 128) cs with
        | some n => .int n
        | none =>
            if isZeroPadded cs then .text text
            else
              match float? cs with
              | some x => .float x
              | none => .text text

end DatasetPlan.Yaml
