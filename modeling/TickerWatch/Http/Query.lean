import TickerWatch.Http.Percent
import TickerWatch.Text.Integer

namespace TickerWatch.Http

/-- What is outside ASCII is in no key and no number, so one sign stands for all of it. -/
def asciiChar (b : UInt8) : Char := if b < 128 then Char.ofNat b.toNat else Char.ofNat 0xfffd

def formText (cs : List Char) : String :=
  let plain := cs.map fun c => if c = '+' then ' ' else c
  String.ofList ((percentDecode (String.ofList plain).toUTF8.toList).map asciiChar)

def splitPair (cs : List Char) : String × String :=
  (formText (cs.takeWhile (· ≠ '=')), formText ((cs.dropWhile (· ≠ '=')).drop 1))

def pairs (query : String) : List (String × String) :=
  ((query.splitOn "&").filter (!·.isEmpty)).map fun part => splitPair part.toList

inductive QueryFault where
  | number (f : Text.IntegerFault)
  | duplicate

def limitKey : String := "limit"

def QueryFault.message : QueryFault → String
  | number f => f.message
  | duplicate => "duplicate field `limit`"

def limitFrom : Option Int → List (String × String) → Except QueryFault (Option Int)
  | limit, [] => .ok limit
  | limit, (key, value) :: rest =>
    if key = limitKey then
      if limit.isSome then .error .duplicate
      else
        match Text.readInt64 value with
        | .error f => .error (.number f)
        | .ok n => limitFrom (some n) rest
    else limitFrom limit rest

def readLimit (query : String) : Except QueryFault (Option Int) := limitFrom none (pairs query)

end TickerWatch.Http
