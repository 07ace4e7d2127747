import TickerWatch.Json.Compound
import TickerWatch.Market.Quote

namespace TickerWatch.Vendor

open Json

structure QuotePayload where
  current : Float
  change : Option Float
  changePercent : Option Float
  high : Float
  low : Float
  openPrice : Float
  preClose : Float
  time : Int

namespace QuotePayload

def decoder : Decoder QuotePayload :=
  (record "QuoteResponse"
    (.cons "c" real required
    (.cons "d" (optional real) nullable
    (.cons "dp" (optional real) nullable
    (.cons "h" real required
    (.cons "l" real required
    (.cons "o" real required
    (.cons "pc" real required
    (.cons "t" int64 required .nil))))))))).map
  fun (current, change, changePercent, high, low, openPrice, preClose, time, ()) =>
    { current, change, changePercent, high, low, openPrice, preClose, time }

def ofJson (s : String) : Except ReadError QuotePayload := readAll decoder s

def toQuote (p : QuotePayload) (code : String) : Except String Quote :=
  if !p.current.isFinite || p.current ≤ 0 then .error ("no quote for " ++ code)
  else
    .ok
      { price := p.current
        openPrice := p.openPrice
        high := p.high
        low := p.low
        preClose := p.preClose
        changePercent := p.changePercent.getD 0
        volume := 0
        volumeRatio := 0 }

end QuotePayload

structure CandlePayload where
  close : List Float
  high : List Float
  low : List Float
  openPrice : List Float
  time : List Int
  volume : List Float
  status : String

namespace CandlePayload

def decoder : Decoder CandlePayload :=
  (record "CandleResponse"
    (.cons "c" (list real) (byDefault [])
    (.cons "h" (list real) (byDefault [])
    (.cons "l" (list real) (byDefault [])
    (.cons "o" (list real) (byDefault [])
    (.cons "t" (list int64) (byDefault [])
    (.cons "v" (list real) (byDefault [])
    (.cons "s" text required .nil)))))))).map
  fun (close, high, low, openPrice, time, volume, status, ()) =>
    { close, high, low, openPrice, time, volume, status }

def ofJson (s : String) : Except ReadError CandlePayload := readAll decoder s

/-- Row by row, as long as there are a close, a high, a low and a time. A bar without an open price
opens at its close, and one without a volume has none. -/
def zipBars : (close high low : List Float) → (time : List Int) → (openPrice volume : List Float) →
    List Bar
  | c :: cs, h :: hs, l :: ls, t :: ts, openPrice, volume =>
    { time := t
      openPrice := openPrice.head?.getD c
      close := c
      high := h
      low := l
      volume := volume.head?.getD 0 } :: zipBars cs hs ls ts openPrice.tail volume.tail
  | _, _, _, _, _, _ => []

def bars (p : CandlePayload) : List Bar :=
  zipBars p.close p.high p.low p.time p.openPrice p.volume

def lastBars (p : CandlePayload) (code : String) (count : Nat) : Except String (List Bar) :=
  if p.status ≠ "ok" then .error ("no candles for " ++ code ++ ": " ++ p.status)
  else .ok (p.bars.drop (p.bars.length - count))

end CandlePayload

end TickerWatch.Vendor
