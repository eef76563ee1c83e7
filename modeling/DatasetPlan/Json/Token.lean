import DatasetPlan.Decimal.Layout
import DatasetPlan.Document.Fault
import DatasetPlan.Document.Tree
import DatasetPlan.Width

namespace DatasetPlan.Json

/-- A scalar. None is one that is well formed and yet has no value: a number out of range, or a
text with half of a surrogate pair. -/
abbrev Leaf := Option Found

inductive Token where
  | enter (shape : Tree.Shape)
  | leave (shape : Tree.Shape)
  | colon
  | comma
  | text (value : Option String)
  | scalar (value : Leaf)
  | invalid

inductive CodeUnit where
  | whole (c : Char)
  | high (offset : Nat)
  | low (offset : Nat)

def hexDigit? (c : Char) : Option Nat :=
  if '0' ≤ c ∧ c ≤ '9' then some (c.toNat - '0'.toNat)
  else if 'a' ≤ c ∧ c ≤ 'f' then some (c.toNat - 'a'.toNat + 10)
  else if 'A' ≤ c ∧ c ≤ 'F' then some (c.toNat - 'A'.toNat + 10)
  else none

def codeUnit? (digits : List Char) : Option CodeUnit := do
  let n := (← digits.mapM hexDigit?).foldl (fun n d => 16 * n + d) 0
  if 0xD800 ≤ n ∧ n < 0xDC00 then some (.high (n - 0xD800))
  else if 0xDC00 ≤ n ∧ n < 0xE000 then some (.low (n - 0xDC00))
  else some (.whole (Char.ofNat n))

def escape? : Char → Option Char
  | '"' => some '"'
  | '\\' => some '\\'
  | '/' => some '/'
  | 'b' => some '\x08'
  | 'f' => some '\x0c'
  | 'n' => some '\n'
  | 'r' => some '\r'
  | 't' => some '\t'
  | _ => none

def codeUnits : List Char → Option (List CodeUnit × List Char)
  | [] => none
  | '"' :: rest => some ([], rest)
  | '\\' :: 'u' :: a :: b :: c :: d :: rest => do
      let unit ← codeUnit? [a, b, c, d]
      let (units, rest) ← codeUnits rest
      some (unit :: units, rest)
  | '\\' :: c :: rest => do
      let escaped ← escape? c
      let (units, rest) ← codeUnits rest
      some (.whole escaped :: units, rest)
  | c :: rest =>
      if c.toNat < 32 ∨ c = '\\' then none
      else do
        let (units, rest) ← codeUnits rest
        some (.whole c :: units, rest)

def joinUnits : List CodeUnit → Option (List Char)
  | [] => some []
  | .whole c :: units => (c :: ·) <$> joinUnits units
  | .high h :: .low l :: units =>
      (Char.ofNat (0x10000 + 0x400 * h + l) :: ·) <$> joinUnits units
  | _ => none

/-- The digits of a number that fit into 64 bits; of the others only the count is kept. -/
structure Significand where
  value : Nat
  scale : Int

namespace Significand

def fits (value : Nat) : Bool :=
  value < Width.span 64

/-- Digits before the point. One that is not kept counts, and so do all after it. -/
def addWhole (s : Significand) : List Char → Significand
  | [] => s
  | c :: rest =>
      let value := 10 * s.value + (c.toNat - '0'.toNat)
      if fits value then addWhole ⟨value, s.scale⟩ rest
      else ⟨s.value, s.scale + (rest.length + 1)⟩

/-- Digits after the point, up to the first that is not kept. -/
def addFraction (s : Significand) : List Char → Significand
  | [] => s
  | c :: rest =>
      let value := 10 * s.value + (c.toNat - '0'.toNat)
      if fits value then addFraction ⟨value, s.scale - 1⟩ rest else s

def powerOfTen (n : Nat) : Float :=
  Numeral.nearestFloat 1 n

/-- The value scaled in one rounded step, or in several where the power of ten is out of range;
none if it is out of range itself. -/
def scaled? : (steps : Nat) → Float → Int → Option Float
  | 0, x, _ => some x
  | steps + 1, x, scale =>
      if scale.natAbs ≤ 308 then
        if 0 ≤ scale then
          let product := x * powerOfTen scale.natAbs
          if product.isInf then none else some product
        else some (x / powerOfTen scale.natAbs)
      else if x == 0 then some x
      else if 0 ≤ scale then none
      else scaled? steps (x / powerOfTen 308) (scale + 308)

def float? (s : Significand) : Option Float :=
  scaled? 4 (Numeral.nearestFloat s.value 0) s.scale

end Significand

/-- Whole numbers outside of 64 bits are doubles, and so is the negative zero. -/
def wholeNumber (negative : Bool) (digits : List Char) : Leaf :=
  let s := Significand.addWhole ⟨0, 0⟩ digits
  if s.scale = 0 then
    if !negative then some (.int s.value)
    else if 0 < s.value ∧ s.value ≤ Width.signedBound 64 then some (.int (-s.value))
    else some (.float (-(Numeral.nearestFloat s.value 0)))
  else s.float?.map fun x => .float (if negative then -x else x)

def fractionalNumber (negative : Bool) (whole fraction : List Char) (exponent : Int) : Leaf :=
  let s := ((Significand.mk 0 0).addWhole whole).addFraction fraction
  (Significand.float? { s with scale := s.scale + exponent }).map fun x =>
    .float (if negative then -x else x)

def spanDigits (cs : List Char) : List Char × List Char :=
  (cs.takeWhile Numeral.isDigit, cs.dropWhile Numeral.isDigit)

def exponent? (cs : List Char) : Option (Int × List Char) :=
  let (negative, body) := Numeral.splitSign cs
  match spanDigits body with
  | ([], _) => none
  | (digits, rest) =>
      let n := Numeral.natOfDigits digits
      some (if negative then -(n : Int) else n, rest)

def number? (negative : Bool) (cs : List Char) : Option (Leaf × List Char) :=
  match spanDigits cs with
  | ([], _) => none
  | ('0' :: _ :: _, _) => none
  | (whole, '.' :: afterPoint) =>
      match spanDigits afterPoint with
      | ([], _) => none
      | (fraction, c :: afterFraction) =>
          if c = 'e' ∨ c = 'E' then do
            let (exponent, rest) ← exponent? afterFraction
            some (fractionalNumber negative whole fraction exponent, rest)
          else some (fractionalNumber negative whole fraction 0, c :: afterFraction)
      | (fraction, []) => some (fractionalNumber negative whole fraction 0, [])
  | (whole, c :: afterWhole) =>
      if c = 'e' ∨ c = 'E' then do
        let (exponent, rest) ← exponent? afterWhole
        some (fractionalNumber negative whole [] exponent, rest)
      else some (wholeNumber negative whole, c :: afterWhole)
  | (whole, []) => some (wholeNumber negative whole, [])

def isBlank (c : Char) : Bool :=
  c = ' ' || c = '\n' || c = '\t' || c = '\r'

namespace Token

def textFrom (cs : List Char) : Token × List Char :=
  match codeUnits cs with
  | some (units, rest) => (text ((joinUnits units).map String.ofList), rest)
  | none => (invalid, [])

def numberFrom (negative : Bool) (cs : List Char) : Token × List Char :=
  match number? negative cs with
  | some (leaf, rest) => (scalar leaf, rest)
  | none => (invalid, [])

def next? (cs : List Char) : Option (Token × List Char) :=
  match cs.dropWhile isBlank with
  | [] => none
  | '[' :: rest => some (enter .list, rest)
  | ']' :: rest => some (leave .list, rest)
  | '{' :: rest => some (enter .dict, rest)
  | '}' :: rest => some (leave .dict, rest)
  | ':' :: rest => some (colon, rest)
  | ',' :: rest => some (comma, rest)
  | '"' :: rest => some (textFrom rest)
  | '-' :: rest => some (numberFrom true rest)
  | 'n' :: 'u' :: 'l' :: 'l' :: rest => some (scalar (some .null), rest)
  | 't' :: 'r' :: 'u' :: 'e' :: rest => some (scalar (some (.bool true)), rest)
  | 'f' :: 'a' :: 'l' :: 's' :: 'e' :: rest => some (scalar (some (.bool false)), rest)
  | rest => some (numberFrom false rest)

def scanFrom : (fuel : Nat) → List Char → List Token
  | 0, _ => []
  | fuel + 1, cs =>
      match next? cs with
      | none => []
      | some (token, rest) => token :: scanFrom fuel rest

/-- Every token takes at least one character. -/
def scan (text : String) : List Token :=
  let cs := text.toList
  scanFrom cs.length cs

end Token

end DatasetPlan.Json
