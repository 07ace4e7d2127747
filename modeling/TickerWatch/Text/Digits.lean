namespace TickerWatch.Text

def splitDigits (cs : List Char) : List Char × List Char :=
  (cs.takeWhile Char.isDigit, cs.dropWhile Char.isDigit)

def splitSign : List Char → Bool × List Char
  | '+' :: cs => (false, cs)
  | '-' :: cs => (true, cs)
  | cs => (false, cs)

def digitOf (c : Char) : Nat := c.toNat - 48

def digitsValue (digits : List Char) : Nat := digits.foldl (fun n c => 10 * n + digitOf c) 0

end TickerWatch.Text
