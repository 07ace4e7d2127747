namespace TickerWatch.Decimal

def tenTo (n : Nat) : Float := Float.ofScientific 1 false n

def greatestPower : Nat := 308

def scaledDown (x : Float) (places : Nat) : Float :=
  if places ≤ greatestPower then x / tenTo places
  else if x == 0 then x
  else scaledDown (x / tenTo greatestPower) (places - greatestPower)
termination_by places
decreasing_by simp only [greatestPower] at *; omega

def scaledUp? (x : Float) (places : Nat) : Option Float :=
  if places ≤ greatestPower then
    let y := x * tenTo places
    if y.isInf then none else some y
  else if x == 0 then some x
  else none

/-- One product, or one quotient for every 308 places, so the result can differ from the nearest
float in its last places. -/
def scaled? (significand : Nat) (power : Int) : Option Float :=
  match power with
  | .ofNat places => scaledUp? (Float.ofNat significand) places
  | .negSucc n => some (scaledDown (Float.ofNat significand) (n + 1))

end TickerWatch.Decimal
