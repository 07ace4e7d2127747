import TickerWatch.Market.Provider
import TickerWatch.Monitor.Watch
import TickerWatch.Wait

namespace TickerWatch

/-- `inFlight` holds the lookups that have begun, with the time in milliseconds when each ends;
`found` and `failed` those that have ended. -/
structure Pass where
  alerts : List Alert
  waiting : List String
  inFlight : List (String × Nat) := []
  found : List (String × Snapshot) := []
  failed : List (String × String) := []

def codesOf (alerts : List Alert) : List String :=
  (alerts.map Alert.code).eraseDups.mergeSort fun a b => a ≤ b

namespace Pass

def ofAlerts (alerts : List Alert) : Pass := { alerts, waiting := codesOf alerts }

def bound (o : FetchOptions) : Nat := max o.concurrency 1

def vacancies (p : Pass) (o : FetchOptions) : Nat := bound o - p.inFlight.length

def launch (p : Pass) (o : FetchOptions) (m : Market) (time : Nat) : Pass × List ProviderCall :=
  let codes := p.waiting.take (p.vacancies o)
  ({ p with
      waiting := p.waiting.drop (p.vacancies o)
      inFlight := p.inFlight ++ codes.map fun c => (c, waitEnd time (m.delay c)) },
    codes.map .quote)

def enter (p : Pass) (code : String) : Except String Snapshot → Pass
  | .ok s => { p with found := p.found ++ [(code, s)] }
  | .error reason => { p with failed := p.failed ++ [(code, reason)] }

def enterAll (o : FetchOptions) (m : Market) (now : Int) :
    Pass → List String → Pass × List ProviderCall
  | p, [] => (p, [])
  | p, code :: codes =>
    let (outcome, calls) := m.fetch o code now
    let (p, more) := enterAll o m now (p.enter code outcome) codes
    (p, calls ++ more)

def land (p : Pass) (o : FetchOptions) (m : Market) (time : Nat) (now : Int) :
    Pass × List ProviderCall :=
  let (due, later) := p.inFlight.partition fun l => l.2 ≤ time
  enterAll o m now { p with inFlight := later } (due.map Prod.fst)

def isStuck (p : Pass) (o : FetchOptions) (time : Nat) : Bool :=
  (p.waiting.isEmpty || p.vacancies o == 0) && p.inFlight.all fun l => time < l.2

/-- Every round ends at least one lookup, so there are no more rounds than lookups. -/
def rounds (o : FetchOptions) (m : Market) (time : Nat) (now : Int) :
    (fuel : Nat) → Pass → Pass × List ProviderCall
  | 0, p => (p, [])
  | fuel + 1, p =>
    if p.isStuck o time then (p, [])
    else
      let (p, quotes) := p.launch o m time
      let (p, bars) := p.land o m time now
      let (p, more) := rounds o m time now fuel p
      (p, quotes ++ bars ++ more)

def advance (p : Pass) (o : FetchOptions) (m : Market) (time : Nat) (now : Int) :
    Pass × List ProviderCall :=
  rounds o m time now (p.waiting.length + p.inFlight.length + 1) p

def isDone (p : Pass) : Bool := p.waiting.isEmpty && p.inFlight.isEmpty

def nextEnd? (p : Pass) : Option Nat := (p.inFlight.map Prod.snd).min?

def snapshot (p : Pass) (code : String) : Option Snapshot := p.found.lookup code

def codesFailed (p : Pass) : List String := (p.failed.map Prod.fst).mergeSort fun a b => a ≤ b

def codeCount (p : Pass) : Nat := (codesOf p.alerts).length

end Pass

namespace Watch

def judge (w : Watch) (e : Surroundings) (p : Pass) : Report × Watch :=
  let (ds, w) := w.processAll e p.snapshot p.alerts
  (.ofDecisions p.codeCount p.codesFailed ds, w)

def judgeOne (w : Watch) (e : Surroundings) (p : Pass) : Except AlertError Report × Watch :=
  match p.failed with
  | (_, reason) :: _ => (.error (.dataUnavailable reason), w)
  | [] =>
    let (r, w) := w.judge e p
    (.ok r, w)

def beginTick (w : Watch) (e : Surroundings) : Except AlertError Pass :=
  (w.desk.listActive e).map .ofAlerts

def beginCheck (w : Watch) (e : Surroundings) (code : String) : Except AlertError Pass :=
  (w.desk.listActiveOf e code).map .ofAlerts

end Watch

end TickerWatch
