import TickerWatch.Decimal.Binary

namespace TickerWatch.Decimal

def roundHalfEven (num den : Nat) : Nat :=
  let q := num / den
  let r := num % den
  if den < 2 * r ∨ (2 * r = den ∧ q % 2 = 1) then q + 1 else q

def hundredths (mantissa : Nat) (exponent : Int) : Nat :=
  roundHalfEven (mantissa * 100 * Nat.pow 2 exponent.toNat) (Nat.pow 2 (-exponent).toNat)

def placesText (n : Nat) : List Char :=
  Nat.toDigits 10 (n / 100) ++ '.' :: Nat.toDigits 10 (n / 10 % 10) ++ Nat.toDigits 10 (n % 10)

def twoPlaces (x : Float) : String :=
  match Binary.ofFloat x with
  | .nan => "NaN"
  | .infinite negative => if negative then "-inf" else "inf"
  | .finite negative mantissa exponent =>
    let t := placesText (hundredths mantissa exponent)
    String.ofList (if negative then '-' :: t else t)

end TickerWatch.Decimal
