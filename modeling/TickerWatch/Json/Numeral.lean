import TickerWatch.Decimal.Scaled
import TickerWatch.Json.Fault
import TickerWatch.Text.Digits

namespace TickerWatch.Json

open Text

structure Exponent where
  negative : Bool
  digits : List Char

structure Numeral where
  negative : Bool
  whole : List Char
  fraction : List Char
  exponent : Option Exponent

def noDigit : List Char → Fault
  | [] => .endOfValue
  | _ => .invalidNumber

def readWhole (cs : List Char) : Except Fault (List Char × List Char) :=
  match splitDigits cs with
  | ([], rest) => .error (noDigit rest)
  | ('0' :: _ :: _, _) => .error .invalidNumber
  | (digits, rest) => .ok (digits, rest)

def readFraction : List Char → Except Fault (List Char × List Char)
  | '.' :: cs =>
    match splitDigits cs with
    | ([], rest) => .error (noDigit rest)
    | (digits, rest) => .ok (digits, rest)
  | cs => .ok ([], cs)

def readExponentDigits (cs : List Char) : Except Fault (Option Exponent × List Char) :=
  let (negative, cs) := splitSign cs
  match splitDigits cs with
  | ([], rest) => .error (noDigit rest)
  | (digits, rest) => .ok (some ⟨negative, digits⟩, rest)

def readExponent : List Char → Except Fault (Option Exponent × List Char)
  | 'e' :: cs => readExponentDigits cs
  | 'E' :: cs => readExponentDigits cs
  | cs => .ok (none, cs)

def readNumeral (cs : List Char) : Except Fault (Numeral × List Char) := do
  let (negative, cs) : Bool × List Char :=
    match cs with
    | '-' :: rest => (true, rest)
    | cs => (false, cs)
  let (whole, cs) ← readWhole cs
  let (fraction, cs) ← readFraction cs
  let (exponent, cs) ← readExponent cs
  return (⟨negative, whole, fraction, exponent⟩, cs)

def significandLimit : Nat := UInt64.size

def absorb (significand : Nat) : List Char → Nat × Nat
  | [] => (significand, 0)
  | c :: cs =>
    let next := 10 * significand + digitOf c
    if next < significandLimit then absorb next cs else (significand, cs.length + 1)

def signed (negative : Bool) (x : Float) : Float := if negative then -x else x

def exponentLimit : Nat := Nat.pow 2 31

/-- Digits of the whole part that did not fit raise the power of ten; digits of the fraction that
did fit lower it, and the others are left out. -/
def Numeral.real (n : Numeral) : Except Fault Float :=
  let (significand, left) := absorb 0 n.whole
  let (significand, unread) := absorb significand n.fraction
  let power : Int := left - (n.fraction.length - unread : Nat)
  let shift := n.exponent.map fun e => (e.negative, digitsValue e.digits)
  match shift with
  | some (lowered, size) =>
    if exponentLimit ≤ size then
      if lowered || significand = 0 then .ok (signed n.negative 0)
      else .error .numberOutOfRange
    else
      match Decimal.scaled? significand (if lowered then power - size else power + size) with
      | some x => .ok (signed n.negative x)
      | none => .error .numberOutOfRange
  | none =>
    match Decimal.scaled? significand power with
    | some x => .ok (signed n.negative x)
    | none => .error .numberOutOfRange

/-- Whole numbers that fit into 64 bits stay exact; minus zero is a float. -/
def Numeral.value (n : Numeral) : Except Fault Scalar :=
  if n.fraction.isEmpty && n.exponent.isNone && (absorb 0 n.whole).2 = 0 then
    let size := (absorb 0 n.whole).1
    if !n.negative then .ok (.integer size)
    else if size = 0 || Nat.pow 2 63 < size then .ok (.real (-(Float.ofNat size)))
    else .ok (.integer (-(size : Int)))
  else n.real.map .real

end TickerWatch.Json
