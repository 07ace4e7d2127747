import TickerWatch.Text.CaseTable

namespace TickerWatch.Text

def shifted (runs : List CaseRun) (c : Char) : Char :=
  match runs.find? (·.has c.toNat) with
  | some r => Char.ofNat (c.toNat + r.shift).toNat
  | none => c

def inRanges (ranges : List (Nat × Nat)) (c : Char) : Bool :=
  ranges.any fun r => r.1 ≤ c.toNat && c.toNat ≤ r.2

def upperChar (c : Char) : List Char :=
  if c.val < 128 then [c.toUpper]
  else
    match longCapitals.find? (·.1 == c.toNat) with
    | some (_, letters) => letters.map Char.ofNat
    | none => [shifted upperRuns c]

def upper (s : String) : String := String.ofList (s.toList.flatMap upperChar)

def lowerChar (c : Char) : List Char :=
  if c.val < 128 then [c.toLower]
  else if c.toNat = 0x130 then ['i', Char.ofNat 0x307]
  else [shifted lowerRuns c]

def meetsCased (cs : List Char) : Bool :=
  match cs.dropWhile (inRanges caselessRanges) with
  | c :: _ => inRanges casedRanges c
  | [] => false

/-- `before` holds the characters already passed, the nearest first. A sigma has its final form
where a word has begun and none goes on. -/
def lowerFrom (before : List Char) : List Char → List Char
  | [] => []
  | c :: rest =>
    (if c.toNat = 0x3a3 then
      [if meetsCased before && !meetsCased rest then Char.ofNat 0x3c2 else Char.ofNat 0x3c3]
    else lowerChar c) ++ lowerFrom (c :: before) rest

def lower (s : String) : String := String.ofList (lowerFrom [] s.toList)

end TickerWatch.Text
