import TickerWatch.Market.Quote

namespace TickerWatch

structure Snapshot where
  code : String := ""
  closePrice : Float := 0
  openPrice : Float := 0
  highPrice : Float := 0
  lowPrice : Float := 0
  preClosePrice : Float := 0
  changePercent : Float := 0
  volume : Float := 0
  volumeRatio : Float := 0
  ma5 : Float := 0
  ma10 : Float := 0
  ma20 : Float := 0
  historicalHigh : Float := 0
  historicalLow : Float := 0
  fetchedAt : Int := 0

/-- A sum starts from minus zero, the number that changes no other when added. -/
def sum (xs : List Float) : Float := xs.foldl (· + ·) (-0.0)

def movingAverage (bars : List Bar) (n : Nat) : Float :=
  if n = 0 ∨ bars.length < n then 0
  else sum ((bars.drop (bars.length - n)).map Bar.close) / Float.ofNat n

/-- Anything that is not a number is passed over. -/
def larger (a b : Float) : Float := if a < b then b else a

def smaller (a b : Float) : Float := if b < a then b else a

def highest (bars : List Bar) : Float := (bars.map Bar.high).foldl larger 0

def lowest (bars : List Bar) : Float :=
  match (bars.map Bar.low).filter fun low => 0 < low with
  | [] => 0
  | low :: lows => lows.foldl smaller low

def Snapshot.build (code : String) (q : Quote) (bars : List Bar) (fetchedAt : Int) : Snapshot where
  code := code
  closePrice := q.price
  openPrice := q.openPrice
  highPrice := q.high
  lowPrice := q.low
  preClosePrice := q.preClose
  changePercent := q.changePercent
  volume := q.volume
  volumeRatio := q.volumeRatio
  ma5 := movingAverage bars 5
  ma10 := movingAverage bars 10
  ma20 := movingAverage bars 20
  historicalHigh := highest bars
  historicalLow := lowest bars
  fetchedAt := fetchedAt

end TickerWatch
