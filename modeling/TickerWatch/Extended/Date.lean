import TickerWatch.Text.Digits

namespace TickerWatch.Extended

/-- Years begin in March here, so that the day that comes and goes is the last. -/
structure CivilDate where
  year : Int
  month : Nat
  day : Nat
  deriving DecidableEq, Repr

def daysPerEra : Int := 146097

def epochDay : Int := 719468

def CivilDate.ofDays (days : Int) : CivilDate :=
  let z := days + epochDay
  let era := z / daysPerEra
  let d := (z % daysPerEra).toNat
  let y := (d - d / 1460 + d / 36524 - d / 146096) / 365
  let dayOfYear := d - (365 * y + y / 4 - y / 100)
  let m := (5 * dayOfYear + 2) / 153
  let month := if m < 10 then m + 3 else m - 9
  { year := y + era * 400 + (if month ≤ 2 then 1 else 0)
    month
    day := dayOfYear - (153 * m + 2) / 5 + 1 }

def CivilDate.toDays (c : CivilDate) : Int :=
  let y := if c.month ≤ 2 then c.year - 1 else c.year
  let m := if c.month > 2 then c.month - 3 else c.month + 9
  let dayOfYear : Int := ((153 * m + 2) / 5 + c.day - 1 : Nat)
  y * 365 + y / 4 - y / 100 + y / 400 + dayOfYear - epochDay

def CivilDate.exists (c : CivilDate) : Bool := CivilDate.ofDays c.toDays == c

def padded (places n : Nat) : String :=
  let ds := Nat.toDigits 10 n
  String.ofList (List.replicate (places - ds.length) '0' ++ ds)

def yearText (year : Int) : String :=
  (if year < 0 then "-" else if 9999 < year then "+" else "") ++ padded 4 year.natAbs

def greatestYear : Nat := 999999

def fractionText (ms : Nat) : String :=
  if ms % 10 ≠ 0 then padded 3 ms
  else if ms % 100 ≠ 0 then padded 2 (ms / 10)
  else padded 1 (ms / 100)

def timeText (millis : Int) : String :=
  let c := CivilDate.ofDays (millis / 86400000)
  let ms := (millis % 86400000).toNat
  let s := ms / 1000
  if c.year.natAbs ≤ greatestYear then
    yearText c.year ++ "-" ++ padded 2 c.month ++ "-" ++ padded 2 c.day ++ " " ++
      padded 1 (s / 3600) ++ ":" ++ padded 2 (s / 60 % 60) ++ ":" ++ padded 2 (s % 60) ++ "." ++
      fractionText (ms % 1000) ++ " +00:00:00"
  else toString millis

def takeNumber? (places : Nat) (cs : List Char) : Option (Nat × List Char) :=
  let ds := cs.take places
  if ds.length = places && ds.all Char.isDigit then
    some (Text.digitsValue ds, cs.drop places)
  else none

def takeChar? (p : Char → Bool) : List Char → Option (List Char)
  | c :: cs => if p c then some cs else none
  | [] => none

def takeNanos? : List Char → Option (Nat × List Char)
  | '.' :: cs =>
    let ds := cs.takeWhile Char.isDigit
    if ds.isEmpty then none
    else some (Text.digitsValue ((ds ++ List.replicate 9 '0').take 9), cs.drop ds.length)
  | cs => some (0, cs)

def takeZone? : List Char → Option (Int × List Char)
  | 'Z' :: cs => some (0, cs)
  | 'z' :: cs => some (0, cs)
  | sign :: cs => do
    let (h, cs) ← takeNumber? 2 cs
    let cs ← takeChar? (· = ':') cs
    let (m, cs) ← takeNumber? 2 cs
    let size : Int := (3600 * h + 60 * m : Nat)
    if 23 < h || 59 < m then none
    else if sign = '+' then some (size, cs)
    else if sign = '-' then some (-size, cs)
    else none
  | [] => none

def endsMonth (second : Int) : Bool :=
  (second + 1) % 86400 == 0 && (CivilDate.ofDays ((second + 1) / 86400)).day == 1

/-- Reads `1970-01-01T00:00:00.0Z` and the like. Any ASCII character may stand between the date and
the time, and a leap second counts as the last instant of the second before it. -/
def millisOfText? (s : String) : Option Int := do
  let (year, cs) ← takeNumber? 4 s.toList
  let cs ← takeChar? (· = '-') cs
  let (month, cs) ← takeNumber? 2 cs
  let cs ← takeChar? (· = '-') cs
  let (day, cs) ← takeNumber? 2 cs
  let cs ← takeChar? (·.val < 128) cs
  let (hour, cs) ← takeNumber? 2 cs
  let cs ← takeChar? (· = ':') cs
  let (minute, cs) ← takeNumber? 2 cs
  let cs ← takeChar? (· = ':') cs
  let (written, cs) ← takeNumber? 2 cs
  let (fraction, cs) ← takeNanos? cs
  let (zone, cs) ← takeZone? cs
  let date : CivilDate := ⟨year, month, day⟩
  let leap := written == 60
  let (second, nanos) := if leap then (59, 999999999) else (written, fraction)
  let seconds := date.toDays * 86400 + (3600 * hour + 60 * minute + second : Nat) - zone
  if cs.isEmpty && date.exists && hour ≤ 23 && minute ≤ 59 && second ≤ 59 &&
      (!leap || endsMonth seconds) then
    some (Int.tdiv (seconds * 1000000000 + nanos) 1000000)
  else none

end TickerWatch.Extended
