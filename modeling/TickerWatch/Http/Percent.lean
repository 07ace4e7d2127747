import TickerWatch.Text.Hex

namespace TickerWatch.Http

def hexByte? (b : UInt8) : Option Nat := Text.hexDigit? (Char.ofNat b.toNat)

def percentByte? (b x y : UInt8) : Option UInt8 :=
  if b = 0x25 then
    match hexByte? x, hexByte? y with
    | some h, some l => some (UInt8.ofNat (16 * h + l))
    | _, _ => none
  else none

def percentDecode : List UInt8 → List UInt8
  | b :: x :: y :: rest =>
    match percentByte? b x y with
    | some c => c :: percentDecode rest
    | none => b :: percentDecode (x :: y :: rest)
  | bs => bs

def decodedText? (s : String) : Option String :=
  String.fromUTF8? (percentDecode s.toUTF8.toList).toByteArray

end TickerWatch.Http
