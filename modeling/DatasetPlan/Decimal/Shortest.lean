import DatasetPlan.Width

/-! The shortest decimal that reads back as a given double, in exact arithmetic on naturals. -/

namespace DatasetPlan

structure Decimal where
  digits : Nat
  exponent : Int
deriving DecidableEq, Repr

/-- The reals that round to one positive double, in units of `2 ^ scale`. The ends belong to it
when the significand is even. -/
structure RoundingInterval where
  low : Nat
  middle : Nat
  high : Nat
  scale : Int
  closed : Bool
deriving DecidableEq, Repr

namespace RoundingInterval

/-- Below a power of two the neighbouring double is only half as far away as above it. -/
def ofBits (bits : UInt64) : RoundingInterval :=
  let fraction := bits.toNat % Width.span 52
  let biased := bits.toNat / Width.span 52 % Width.span 11
  let significand := if biased = 0 then fraction else Width.span 52 + fraction
  { low := if fraction = 0 ∧ 1 < biased then 4 * significand - 1 else 4 * significand - 2
    middle := 4 * significand
    high := 4 * significand + 2
    scale := (max biased 1 : Nat) - 1077
    closed := significand % 2 = 0 }

/-- Multiplying decimals of this exponent by `decimalUnit` and points of the interval by
`binaryUnit` brings both onto one grid of natural numbers. -/
def decimalUnit (i : RoundingInterval) (exponent : Int) : Nat :=
  Nat.pow 10 exponent.toNat * Nat.pow 2 (-i.scale).toNat

@[inherit_doc decimalUnit]
def binaryUnit (i : RoundingInterval) (exponent : Int) : Nat :=
  Nat.pow 10 (-exponent).toNat * Nat.pow 2 i.scale.toNat

def holds (i : RoundingInterval) (d : Decimal) : Bool :=
  let point := d.digits * i.decimalUnit d.exponent
  let low := i.low * i.binaryUnit d.exponent
  let high := i.high * i.binaryUnit d.exponent
  if i.closed then low ≤ point && point ≤ high else low < point && point < high

/-- The decimal of this exponent that lies in the interval, the nearer one of two, the even one
of two that are equally near. -/
def nearest? (i : RoundingInterval) (exponent : Int) : Option Decimal :=
  let unit := i.decimalUnit exponent
  let target := i.middle * i.binaryUnit exponent
  let below : Decimal := ⟨target / unit, exponent⟩
  let above : Decimal := ⟨target / unit + 1, exponent⟩
  match i.holds below, i.holds above with
  | false, false => none
  | true, false => some below
  | false, true => some above
  | true, true =>
      let rest := 2 * (target % unit)
      if rest < unit ∨ rest = unit ∧ below.digits % 2 = 0 then some below else some above

/-- Tries exponents downward: the first that has a decimal in the interval needs the fewest
digits. -/
def shortestFrom (i : RoundingInterval) : Nat → Int → Decimal
  | 0, exponent => ⟨i.middle, exponent⟩
  | fuel + 1, exponent =>
      (i.nearest? exponent).getD (i.shortestFrom fuel (exponent - 1))

def topExponent (i : RoundingInterval) : Int :=
  (Nat.log2 i.high + 1 + i.scale) * 30103 / 100000 + 2

/-- Seventeen digits always suffice, and `topExponent` is at most four too large. -/
def shortest (i : RoundingInterval) : Decimal :=
  i.shortestFrom 32 i.topExponent

end RoundingInterval

def Decimal.ofFloat (x : Float) : Decimal :=
  let magnitude := x.abs.toBits
  if magnitude = 0 then ⟨0, 0⟩ else (RoundingInterval.ofBits magnitude).shortest

end DatasetPlan
