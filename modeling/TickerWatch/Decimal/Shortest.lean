import TickerWatch.Decimal.Binary

namespace TickerWatch.Decimal

/-- The number `digits · 10 ^ power`. -/
structure Digits where
  digits : Nat
  power : Int
  deriving DecidableEq, Repr

/-- The reals that round to one float, as fractions of `den`; `closed` says whether the ends do. -/
structure Span where
  low : Nat
  mid : Nat
  high : Nat
  den : Nat
  closed : Bool

def Span.ofBinary (mantissa : Nat) (exponent : Int) : Span :=
  let scale := Nat.pow 2 (exponent - 2).toNat
  let below := if mantissa = Nat.pow 2 52 ∧ -1074 < exponent then 1 else 2
  { low := (4 * mantissa - below) * scale
    mid := 4 * mantissa * scale
    high := (4 * mantissa + 2) * scale
    den := Nat.pow 2 (2 - exponent).toNat
    closed := mantissa % 2 == 0 }

def magnitude (num den : Nat) : Int :=
  if den ≤ num then (Nat.toDigits 10 (num / den)).length - 1
  else
    let places := (Nat.toDigits 10 (den / num)).length
    if den ≤ num * Nat.pow 10 (places - 1) then 1 - (places : Int) else -(places : Int)

def Span.holds (s : Span) (x : Digits) : Bool :=
  let size := x.digits * Nat.pow 10 x.power.toNat * s.den
  let unit := Nat.pow 10 (-x.power).toNat
  if s.closed then s.low * unit ≤ size && size ≤ s.high * unit
  else s.low * unit < size && size < s.high * unit

def Span.floorAt (s : Span) (power : Int) : Nat :=
  s.mid * Nat.pow 10 (-power).toNat / (s.den * Nat.pow 10 power.toNat)

def Span.roundsUp (s : Span) (d : Nat) (power : Int) : Bool :=
  let twice := 2 * s.mid * Nat.pow 10 (-power).toNat
  let half := (2 * d + 1) * s.den * Nat.pow 10 power.toNat
  half < twice || (half == twice && d % 2 == 1)

def Span.pick? (s : Span) (power : Int) : Option Digits :=
  let d := s.floorAt power
  match s.holds ⟨d, power⟩, s.holds ⟨d + 1, power⟩ with
  | true, true => some (if s.roundsUp d power then ⟨d + 1, power⟩ else ⟨d, power⟩)
  | true, false => some ⟨d, power⟩
  | false, true => some ⟨d + 1, power⟩
  | false, false => none

def Span.search (s : Span) : (grids : Nat) → (power : Int) → Digits
  | 0, power => ⟨s.floorAt power, power⟩
  | grids + 1, power => (s.pick? power).getD (s.search grids (power - 1))

def stripZeros : (places : Nat) → Digits → Digits
  | 0, x => x
  | places + 1, x =>
    if x.digits % 10 = 0 then stripZeros places ⟨x.digits / 10, x.power + 1⟩ else x

/-- The fewest digits that read back as the float, the nearest such digits, and of two equally near
ones the even. Seventeen are enough for every float. -/
def shortest (mantissa : Nat) (exponent : Int) : Digits :=
  if mantissa = 0 then ⟨0, 0⟩
  else
    let s := Span.ofBinary mantissa exponent
    stripZeros 2 (s.search 17 (magnitude s.mid s.den))

end TickerWatch.Decimal
