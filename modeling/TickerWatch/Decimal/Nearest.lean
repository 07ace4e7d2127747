import TickerWatch.Decimal.Places
import TickerWatch.Decimal.Shortest
import TickerWatch.Text.Digits

namespace TickerWatch.Decimal

open Text

def binaryMagnitude (num den : Nat) : Int :=
  let e := (num.log2 : Int) - den.log2
  if num * Nat.pow 2 (-e).toNat < den * Nat.pow 2 e.toNat then e - 1 else e

def infinityBits : Nat := 2047 * Nat.pow 2 52

/-- The bits of the float nearest to `num / den`. A mantissa that is rounded up to the next power of
two carries into the exponent. -/
def nearestBits (num den : Nat) : Nat :=
  let e := max (binaryMagnitude num den - 52) (-1074)
  let mantissa := roundHalfEven (num * Nat.pow 2 (-e).toNat) (den * Nat.pow 2 e.toNat)
  min ((e + 1074).toNat * Nat.pow 2 52 + mantissa) infinityBits

def leastDecade : Int := -330

def greatestDecade : Int := 310

def Digits.bits (x : Digits) : Nat :=
  let decade := x.power + (Nat.toDigits 10 x.digits).length
  if x.digits = 0 ∨ decade < leastDecade then 0
  else if greatestDecade < decade then infinityBits
  else nearestBits (x.digits * Nat.pow 10 x.power.toNat) (Nat.pow 10 (-x.power).toNat)

def ofSize (bits : Nat) : Float := Float.ofBits (UInt64.ofNat bits)

def readPower? : List Char → Option Int
  | [] => some 0
  | 'e' :: cs =>
    let (negative, cs) := splitSign cs
    match splitDigits cs with
    | (digits@(_ :: _), []) =>
      some (if negative then -(digitsValue digits : Int) else digitsValue digits)
    | _ => none
  | _ => none

def readDigits? (cs : List Char) : Option Digits :=
  let (whole, cs) := splitDigits cs
  let (fraction, cs) :=
    match cs with
    | '.' :: cs => splitDigits cs
    | cs => ([], cs)
  if whole.isEmpty && fraction.isEmpty then none
  else
    (readPower? cs).map fun power =>
      { digits := digitsValue (whole ++ fraction), power := power - fraction.length }

def infinityNames : List String := ["inf", "infinity"]

def nanName : String := "nan"

def readSize? (cs : List Char) : Option Float :=
  if infinityNames.contains (String.ofList cs) then some (ofSize infinityBits)
  else if String.ofList cs = nanName then some (0 / 0)
  else (readDigits? cs).map fun x => ofSize x.bits

def ofText? (s : String) : Option Float :=
  let (negative, cs) := splitSign (s.toList.map Char.toLower)
  (readSize? cs).map fun x => if negative then -x else x

end TickerWatch.Decimal
