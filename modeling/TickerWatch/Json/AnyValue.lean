import TickerWatch.Json.Compound

namespace TickerWatch.Json

def nestingLimit : Nat := 127

def anyScalar (s : Scalar) : Except Fault Value := .ok s.toValue

def anyValue (put : String → Value → List (String × Value) → List (String × Value)) :
    (depth : Nat) → Decoder Value
  | 0 => .ofShapes (.atBottom anyScalar)
  | depth + 1 =>
    .ofShapes
      { list := fun c s => (readList (anyValue put depth) c s).map fun (vs, s) => (.list vs, s)
        object := fun c s =>
          (readMapping put (anyValue put depth) c s).map fun (ms, s) => (.object ms, s)
        scalar := anyScalar }

def Value.ofText (s : String) : Except ReadError Value := readAll (anyValue setEntry nestingLimit) s

end TickerWatch.Json
