import TickerWatch.Market.Snapshot

namespace TickerWatch

/-- `delay` is the time in milliseconds that a quote takes to come. A market without `bars` knows no
history. -/
structure Market where
  quote : String → Except String Quote
  bars : Option (String → (count : Nat) → Period → Except String (List Bar)) := none
  delay : String → Nat := fun _ => 0

inductive ProviderCall where
  | quote (code : String)
  | bars (code : String) (count : Nat) (period : Period)
  deriving DecidableEq, Repr

structure FetchOptions where
  historyBars : Nat := 60
  period : Period := .daily
  concurrency : Nat := 4

namespace Market

/-- The bars for a snapshot. A history that fails, or that nobody wants, counts as empty. -/
def history (m : Market) (o : FetchOptions) (code : String) : List Bar × List ProviderCall :=
  match m.bars with
  | none => ([], [])
  | some bars =>
    if o.historyBars = 0 then ([], [])
    else
      match bars code o.historyBars o.period with
      | .ok bs => (bs, [.bars code o.historyBars o.period])
      | .error _ => ([], [.bars code o.historyBars o.period])

def fetch (m : Market) (o : FetchOptions) (code : String) (now : Int) :
    Except String Snapshot × List ProviderCall :=
  match m.quote code with
  | .error reason => (.error reason, [])
  | .ok q =>
    let (bars, calls) := m.history o code
    (.ok (.build code q bars now), calls)

end Market

end TickerWatch
