import DatasetPlan.Decimal.Shortest

namespace DatasetPlan

/-- How doubles are laid out. `positional` bounds the exponents of the leading digit that are
written without an exponent mark; `none` writes every number so. -/
structure FloatLayout where
  positional : Option (Int × Int)
  /-- Whole numbers end in `.0`. -/
  pointZero : Bool
  /-- Positive exponents carry a plus sign. -/
  plus : Bool
  infinity : String
  nan : String

namespace FloatLayout

def writesPositional (l : FloatLayout) (lead : Int) : Bool :=
  match l.positional with
  | none => true
  | some (low, high) => low ≤ lead && lead < high

def zeros (n : Nat) : String :=
  String.ofList (List.replicate n '0')

def positionalText (l : FloatLayout) (digits : List Char) (lead : Int) : String :=
  if lead < 0 then "0." ++ zeros (-lead - 1).toNat ++ String.ofList digits
  else
    let width := lead.toNat + 1
    let fraction := digits.drop width
    String.ofList (digits.take width) ++ zeros (width - digits.length) ++
      if fraction.isEmpty then (if l.pointZero then ".0" else "")
      else "." ++ String.ofList fraction

def exponentText (l : FloatLayout) (digits : List Char) (lead : Int) : String :=
  let fraction := digits.drop 1
  String.ofList (digits.take 1) ++
    (if fraction.isEmpty then "" else "." ++ String.ofList fraction) ++
    "e" ++ (if 0 ≤ lead && l.plus then "+" else "") ++ toString lead

def magnitudeText (l : FloatLayout) (d : Decimal) : String :=
  let digits := (toString d.digits).toList
  let lead := digits.length + d.exponent - 1
  if l.writesPositional lead then l.positionalText digits lead else l.exponentText digits lead

def text (l : FloatLayout) (x : Float) : String :=
  if x.isNaN then l.nan
  else
    (if x.toBits < 0x8000000000000000 then "" else "-") ++
      if x.isInf then l.infinity else l.magnitudeText (.ofFloat x)

end FloatLayout

namespace Numeral

def isDigit (c : Char) : Bool :=
  '0' ≤ c && c ≤ '9'

def natOfDigits (digits : List Char) : Nat :=
  digits.foldl (fun n c => 10 * n + (c.toNat - '0'.toNat)) 0

def splitSign : List Char → Bool × List Char
  | '-' :: rest => (true, rest)
  | '+' :: rest => (false, rest)
  | rest => (false, rest)

/-- The digits of an optional exponent part that reaches to the end. -/
def exponent? : List Char → Option Int
  | [] => some 0
  | c :: rest =>
      if c = 'e' ∨ c = 'E' then
        let (negative, digits) := splitSign rest
        if digits.isEmpty || !digits.all isDigit then none
        else some (if negative then -(natOfDigits digits : Int) else natOfDigits digits)
      else none

def nearestFloat (digits : Nat) (exponent : Int) : Float :=
  Float.ofScientific digits (exponent < 0) exponent.natAbs

def floatOfInt (n : Int) : Float :=
  let magnitude := nearestFloat n.natAbs 0
  if n < 0 then -magnitude else magnitude

def float? (text : List Char) : Option Float :=
  let (negative, body) := splitSign text
  let whole := body.takeWhile isDigit
  let rest := body.dropWhile isDigit
  let (fraction, tail) := match rest with
    | '.' :: after => (after.takeWhile isDigit, after.dropWhile isDigit)
    | _ => ([], rest)
  if whole.isEmpty && fraction.isEmpty then none
  else do
    let exponent ← exponent? tail
    let magnitude := nearestFloat (natOfDigits (whole ++ fraction)) (exponent - fraction.length)
    pure (if negative then -magnitude else magnitude)

end Numeral

end DatasetPlan
