namespace TickerWatch.Decimal

/-- A finite float is `± mantissa · 2 ^ exponent`, exactly. -/
inductive Binary where
  | nan
  | infinite (negative : Bool)
  | finite (negative : Bool) (mantissa : Nat) (exponent : Int)
  deriving DecidableEq, Repr

def Binary.ofBits (bits : Nat) : Binary :=
  let negative := decide (Nat.pow 2 63 ≤ bits)
  let field : Nat := bits / Nat.pow 2 52 % 2048
  let fraction : Nat := bits % Nat.pow 2 52
  if field = 2047 then if fraction = 0 then .infinite negative else .nan
  else if field = 0 then .finite negative fraction (-1074)
  else .finite negative (fraction + Nat.pow 2 52) (field - 1075)

def Binary.ofFloat (x : Float) : Binary := .ofBits x.toBits.toNat

def whole? (x : Float) : Option Int :=
  match Binary.ofFloat x with
  | .finite negative mantissa exponent =>
    let scale := Nat.pow 2 (-exponent).toNat
    let size := mantissa * Nat.pow 2 exponent.toNat
    if size % scale = 0 then
      some (if negative then -(size / scale : Nat) else (size / scale : Nat))
    else none
  | _ => none

end TickerWatch.Decimal
