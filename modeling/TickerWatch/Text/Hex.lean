namespace TickerWatch.Text

def hexDigit? (c : Char) : Option Nat :=
  if '0' ≤ c && c ≤ '9' then some (c.toNat - 48)
  else if 'a' ≤ c && c ≤ 'f' then some (c.toNat - 87)
  else if 'A' ≤ c && c ≤ 'F' then some (c.toNat - 55)
  else none

def hexDigit (n : Nat) : Char := Char.ofNat (if n < 10 then 48 + n else 87 + n)

def hexPadded : (places : Nat) → Nat → List Char
  | 0, _ => []
  | places + 1, n => hexPadded places (n / 16) ++ [hexDigit (n % 16)]

def hexValue? (cs : List Char) : Option Nat :=
  cs.foldl (fun acc c => acc.bind fun n => (hexDigit? c).map (16 * n + ·)) (some 0)

def hexBytes? : List Char → Option (List Nat)
  | [] => some []
  | h :: l :: rest => do
    let h ← hexDigit? h
    let l ← hexDigit? l
    return (16 * h + l) :: (← hexBytes? rest)
  | [_] => none

end TickerWatch.Text
