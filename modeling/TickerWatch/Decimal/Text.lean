import TickerWatch.Decimal.Shortest

namespace TickerWatch.Decimal

def leastPositional : Int := -5

def greatestPositional : Int := 15

def zeros (n : Nat) : List Char := List.replicate n '0'

def positional (ds : List Char) (first : Int) : List Char :=
  if first < 0 then '0' :: '.' :: zeros (-first - 1).toNat ++ ds
  else
    let whole := first.toNat + 1
    if ds.length ≤ whole then ds ++ zeros (whole - ds.length) ++ ['.', '0']
    else ds.take whole ++ '.' :: ds.drop whole

def scientific (ds : List Char) (first : Int) : List Char :=
  let tail := ds.drop 1
  ds.take 1 ++ (if tail.isEmpty then [] else '.' :: tail) ++
    ['e', if first < 0 then '-' else '+'] ++ Nat.toDigits 10 first.natAbs

def digitsText (x : Digits) : List Char :=
  let ds := Nat.toDigits 10 x.digits
  let first := x.power + ds.length - 1
  if leastPositional ≤ first ∧ first ≤ greatestPositional then positional ds first
  else scientific ds first

def plainDigits (x : Digits) : List Char :=
  let ds := Nat.toDigits 10 x.digits
  let places := (-x.power).toNat
  if 0 ≤ x.power then ds ++ zeros x.power.toNat
  else if ds.length ≤ places then '0' :: '.' :: zeros (places - ds.length) ++ ds
  else ds.take (ds.length - places) ++ '.' :: ds.drop (ds.length - places)

def plainText (x : Float) : String :=
  match Binary.ofFloat x with
  | .nan => "NaN"
  | .infinite negative => if negative then "-inf" else "inf"
  | .finite negative mantissa exponent =>
    let t := plainDigits (shortest mantissa exponent)
    String.ofList (if negative then '-' :: t else t)

def text? (x : Float) : Option (List Char) :=
  match Binary.ofFloat x with
  | .finite negative mantissa exponent =>
    let t := digitsText (shortest mantissa exponent)
    some (if negative then '-' :: t else t)
  | _ => none

end TickerWatch.Decimal
