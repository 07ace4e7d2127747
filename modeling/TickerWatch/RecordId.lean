import TickerWatch.Text.Hex

namespace TickerWatch

structure RecordId where
  number : Nat
  deriving DecidableEq, Repr

namespace RecordId

def digits : Nat := 24

def text (id : RecordId) : String := String.ofList (Text.hexPadded digits id.number)

def ofText? (s : String) : Option RecordId :=
  if s.length = digits then (Text.hexValue? s.toList).map RecordId.mk else none

def next (id : RecordId) : RecordId := ⟨id.number + 1⟩

end RecordId

end TickerWatch
