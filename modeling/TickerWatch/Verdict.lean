import TickerWatch.Condition
import TickerWatch.Decimal.Places
import TickerWatch.Market.Snapshot

namespace TickerWatch

structure Verdict where
  fired : Bool
  message : String
  deriving DecidableEq, Repr

def Verdict.miss (message : String) : Verdict := ⟨false, message⟩

def Verdict.hit (message : String) : Verdict := ⟨true, message⟩

def Field.value? (s : Snapshot) : Field → Option Float
  | priceChangePercent => some s.changePercent
  | closePrice => some s.closePrice
  | openPrice => some s.openPrice
  | highPrice => some s.highPrice
  | lowPrice => some s.lowPrice
  | preClosePrice => some s.preClosePrice
  | volume => some s.volume
  | volumeRatio => some s.volumeRatio
  | ma5 => some s.ma5
  | ma10 => some s.ma10
  | ma20 => some s.ma20
  | unknown _ => none

def Operator.compare? (op : Operator) (actual value sensitivity : Float) : Option Bool :=
  match op with
  | gt => some (value < actual)
  | gte => some (value ≤ actual)
  | lt => some (actual < value)
  | lte => some (actual ≤ value)
  | eq => some ((actual - value).abs ≤ sensitivity)
  | ne => some (sensitivity < (actual - value).abs)
  | unknown _ => none

structure Benchmark where
  base : Float
  reached : Bool
  verb : String

/-- The pairs of field and reference that are held against the history; any other pair is judged by
its literal value. -/
def benchmark? (s : Snapshot) (actual sensitivity : Float) :
    Field → Reference → Option Benchmark
  | .highPrice, .historicalHigh =>
    some ⟨s.historicalHigh, s.historicalHigh * (1 - sensitivity) < actual, "broke above"⟩
  | .lowPrice, .historicalLow =>
    some ⟨s.historicalLow, actual < s.historicalLow * (1 + sensitivity), "broke below"⟩
  | .ma5, .ma20 => some ⟨s.ma20, s.ma20 * (1 - sensitivity) ≤ actual, "crossed above"⟩
  | _, _ => none

/-- A base of 0 means that the history has nothing to say about the stock. -/
def Benchmark.verdict (b : Benchmark) (field : Field) (reference : Reference) (actual : Float) :
    Verdict :=
  if b.base ≤ 0 then .miss (reference.name ++ " unavailable")
  else
    let head := field.name ++ " " ++ Decimal.twoPlaces actual ++ " "
    let tail := reference.name ++ " " ++ Decimal.twoPlaces b.base
    if b.reached then .hit (head ++ b.verb ++ " " ++ tail)
    else .miss (head ++ "has not reached " ++ tail)

def Condition.literalVerdict (c : Condition) (actual sensitivity : Float) : Verdict :=
  match c.operator.compare? actual c.value sensitivity with
  | some fired =>
    ⟨fired, c.field.name ++ " " ++ Decimal.twoPlaces actual ++ " " ++ c.operator.symbol ++ " " ++
      Decimal.twoPlaces c.value⟩
  | none => .miss ("unsupported operator '" ++ c.operator.symbol ++ "'")

def Condition.verdict (c : Condition) (s : Snapshot) (sensitivity : Float) : Verdict :=
  match c.field.value? s with
  | none => .miss ("unknown field '" ++ c.field.name ++ "'")
  | some actual =>
    match c.reference with
    | none => c.literalVerdict actual sensitivity
    | some reference =>
      match benchmark? s actual sensitivity c.field reference with
      | some b => b.verdict c.field reference actual
      | none => c.literalVerdict actual sensitivity

/-- When all have to fire, the first that does not gives the verdict; when any may, the first that
does. -/
def Rule.verdict (r : Rule) (s : Snapshot) (sensitivity : Float) : Verdict :=
  let verdicts := r.conditions.map (·.verdict s sensitivity)
  match verdicts with
  | [] => .miss "no conditions"
  | first :: _ =>
    match r.logic with
    | .all => (verdicts.find? (!·.fired)).getD (.hit first.message)
    | .any =>
      (verdicts.find? (·.fired)).getD
        (.miss ("none of " ++ toString verdicts.length ++ " conditions met"))

end TickerWatch
