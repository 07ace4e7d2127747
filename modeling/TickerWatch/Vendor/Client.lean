import TickerWatch.Text.Blank
import TickerWatch.Vendor.Payload

namespace TickerWatch.Vendor

structure Resolution where
  letter : String
  seconds : Int
  deriving DecidableEq, Repr

def Resolution.ofPeriod : Period → Resolution
  | .daily => ⟨"D", 86400⟩
  | .weekly => ⟨"W", 7 * 86400⟩
  | .monthly => ⟨"M", 31 * 86400⟩

def lastCompleteSecond (now : Int) : Int := now - now % 86400 - 1

/-- How answers are had: of the quote of a code, and of its candles at a resolution between two
times. -/
structure Lines where
  quote : (key code : String) → Except String QuotePayload
  candles : (key code letter : String) → (start stop : Int) → Except String CandlePayload

structure Client where
  key : String
  lines : Lines

namespace Client

def missingKey : String := "FINNHUB_API_KEY is missing in .env"

def hasKey (c : Client) : Bool := !(Text.trim c.key).isEmpty

def quote (c : Client) (code : String) : Except String Quote :=
  if c.hasKey then
    match c.lines.quote c.key code with
    | .error reason => .error reason
    | .ok p => p.toQuote code
  else .error missingKey

def bars (c : Client) (now : Int) (code : String) (count : Nat) (period : Period) :
    Except String (List Bar) :=
  if c.hasKey then
    let r := Resolution.ofPeriod period
    let stop := lastCompleteSecond now
    match c.lines.candles c.key code r.letter (stop - r.seconds * count * 2) stop with
    | .error reason => .error reason
    | .ok p => p.lastBars code count
  else .error missingKey

end Client

end TickerWatch.Vendor
