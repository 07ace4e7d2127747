namespace TickerWatch.Text

inductive IntegerFault where
  | empty
  | invalidDigit
  | tooLarge
  | tooSmall
  deriving DecidableEq, Repr

def IntegerFault.message : IntegerFault → String
  | .empty => "cannot parse integer from empty string"
  | .invalidDigit => "invalid digit found in string"
  | .tooLarge => "number too large to fit in target type"
  | .tooSmall => "number too small to fit in target type"

/-- The first digit that is none, or that carries the number out of the range, decides. -/
def readDigits (least greatest : Int) (negative : Bool) :
    (soFar : Int) → List Char → Except IntegerFault Int
  | n, [] => .ok n
  | n, c :: cs =>
    if !c.isDigit then .error .invalidDigit
    else
      let d : Int := (c.toNat - 48 : Nat)
      let next := if negative then 10 * n - d else 10 * n + d
      if next < least then .error .tooSmall
      else if greatest < next then .error .tooLarge
      else readDigits least greatest negative next cs

def readInteger (least greatest : Int) (s : String) : Except IntegerFault Int :=
  match s.toList with
  | [] => .error .empty
  | [c] => if c = '+' ∨ c = '-' then .error .invalidDigit
    else readDigits least greatest false 0 [c]
  | '+' :: cs => readDigits least greatest false 0 cs
  | '-' :: cs =>
    if least < 0 then readDigits least greatest true 0 cs else .error .invalidDigit
  | cs => readDigits least greatest false 0 cs

def readInt64 (s : String) : Except IntegerFault Int :=
  readInteger (-9223372036854775808) 9223372036854775807 s

def readNat (bits : Nat) (s : String) : Except IntegerFault Nat :=
  (readInteger 0 ((Nat.pow 2 bits : Int) - 1) s).map Int.toNat

end TickerWatch.Text
