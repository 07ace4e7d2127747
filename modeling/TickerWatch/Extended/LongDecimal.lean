import TickerWatch.Text.Digits
import TickerWatch.Text.Integer

namespace TickerWatch.Extended

inductive LongDecimal where
  | nan
  | infinite (negative : Bool)
  | finite (negative : Bool) (coefficient : Nat) (power : Int)
  deriving DecidableEq, Repr

namespace LongDecimal

def precision : Nat := 34

def leastPower : Int := -6176

def greatestPower : Int := 6111

structure Written where
  digits : List Char
  power : Int
  deriving DecidableEq, Repr

namespace Written

def isZero (w : Written) : Bool := w.digits == ['0']

def shortened? (w : Written) (count : Nat) : Option Written :=
  let kept := w.digits.length - count
  if count ≤ w.digits.length && (w.digits.drop kept).all (· = '0') then
    some ⟨w.digits.take kept, w.power + count⟩
  else none

def lengthened? (w : Written) (count : Nat) : Option Written :=
  if w.digits.length + count ≤ precision then
    some ⟨w.digits ++ List.replicate count '0', w.power - count⟩
  else none

def ranged? (w : Written) : Option Written :=
  if w.isZero then some { w with power := max leastPower (min w.power greatestPower) }
  else if w.power < leastPower then w.shortened? (leastPower - w.power).toNat
  else if greatestPower < w.power then w.lengthened? (w.power - greatestPower).toNat
  else some w

def fitted? (w : Written) : Option Written :=
  (w.shortened? (w.digits.length - precision)).bind ranged?

end Written

def withoutLeadingZeros (ds : List Char) : List Char :=
  match ds.dropWhile (· = '0') with
  | [] => ['0']
  | ds => ds

def splitAt? (c : Char) (cs : List Char) : Option (List Char × List Char) :=
  match cs.dropWhile (· ≠ c) with
  | [] => none
  | _ :: rest => some (cs.takeWhile (· ≠ c), rest)

def readPower? (cs : List Char) : Option Int :=
  (Text.readInteger (-32768) 32767 (String.ofList cs)).toOption

def lowered? (power : Int) (places : Nat) : Option Int :=
  if places ≤ 32767 ∧ -32768 ≤ power - places then some (power - places) else none

def Written.ofChars? (cs : List Char) : Option Written := do
  let (number, exponent) := (splitAt? 'e' cs).getD (cs, ['0'])
  let power ← readPower? exponent
  let (whole, fraction) := (splitAt? '.' number).getD (number, [])
  let power ← lowered? power fraction.length
  return ⟨withoutLeadingZeros (whole ++ fraction), power⟩

def ofText? (s : String) : Option LongDecimal := do
  let (negative, cs) := Text.splitSign (s.toList.map Char.toLower)
  let word := String.ofList cs
  if word = "nan" ∨ word = "snan" then return .nan
  else if word = "infinity" ∨ word = "inf" then return .infinite negative
  else
    let w ← (← Written.ofChars? cs).fitted?
    let coefficient ← (Text.readNat 128 (String.ofList w.digits)).toOption
    return .finite negative coefficient w.power

def bitField (bits low count : Nat) : Nat := bits / Nat.pow 2 low % Nat.pow 2 count

def ofExponent (negative : Bool) (exponent coefficient : Nat) : LongDecimal :=
  .finite negative (if coefficient < Nat.pow 10 precision then coefficient else 0)
    (exponent + leastPower)

/-- The sign stands first. Two set bits behind it announce a coefficient that is out of range, or no
finite number at all. -/
def ofBits (bits : Nat) : LongDecimal :=
  let negative := bitField bits 127 1 = 1
  if bitField bits 123 4 = 15 then
    if bitField bits 122 1 = 1 then .nan else .infinite negative
  else if bitField bits 125 2 = 3 then ofExponent negative (bitField bits 111 14) 0
  else ofExponent negative (bitField bits 113 14) (bitField bits 0 113)

def byteCount : Nat := 16

def ofBytes? (bytes : List Nat) : Option LongDecimal :=
  if bytes.length = byteCount then some (ofBits (bytes.foldr (fun b n => b + 256 * n) 0)) else none

/-- Positional for numbers that are not too small and have no zeros to fill up, with an exponent
otherwise. -/
def sizeText (ds : List Char) (power : Int) : List Char :=
  let count := ds.length
  let first := power + count - 1
  if power = 0 then ds
  else if power < 0 ∧ -6 ≤ first then
    let places := (-power).toNat
    if count ≤ places then '0' :: '.' :: List.replicate (places - count) '0' ++ ds
    else ds.take (count - places) ++ '.' :: ds.drop (count - places)
  else
    let tail := ds.drop 1
    ds.take 1 ++ (if tail.isEmpty then [] else '.' :: tail) ++
      ['E', if first < 0 then '-' else '+'] ++ Nat.toDigits 10 first.natAbs

def text : LongDecimal → String
  | nan => "NaN"
  | infinite negative => if negative then "-Infinity" else "Infinity"
  | finite negative coefficient power =>
    let size := sizeText (Nat.toDigits 10 coefficient) power
    String.ofList (if negative then '-' :: size else size)

end LongDecimal

end TickerWatch.Extended
