import TickerWatch.Market.Quote
import TickerWatch.Text.Integer

namespace TickerWatch

inductive Storage where
  | mongo
  | memory
  deriving DecidableEq, Repr

structure Settings where
  mongodbUri : String
  mongodbDb : String
  host : String
  port : Nat
  finnhubApiKey : String
  storage : Storage
  checkIntervalSecs : Nat
  historyBars : Nat
  barPeriod : Period
  fetchConcurrency : Nat
  eventsCapacity : Nat

abbrev Variables := String → Option String

def Variables.number (v : Variables) (name : String) (bits default : Nat) : Nat :=
  match v name with
  | none => default
  | some s => (Text.readNat bits (Text.trim s)).toOption.getD default

def Variables.period (v : Variables) (name : String) (default : Period) : Period :=
  match v name with
  | none => default
  | some s => (Period.ofName s).toOption.getD default

def Variables.storage (v : Variables) (name : String) : Storage :=
  if (v name).map Text.trim = some "memory" then .memory else .mongo

def Settings.load (v : Variables) : Settings where
  mongodbUri := (v "MONGODB_URI").getD "mongodb://localhost:27017"
  mongodbDb := (v "MONGODB_DB").getD "market_alerts"
  host := (v "HOST").getD "127.0.0.1"
  port := v.number "PORT" 16 3000
  finnhubApiKey := (v "FINNHUB_API_KEY").getD ""
  storage := v.storage "ALERT_STORAGE"
  checkIntervalSecs := max (v.number "ALERT_CHECK_INTERVAL_SECS" 64 10) 1
  historyBars := v.number "ALERT_HISTORY_BARS" 64 60
  barPeriod := v.period "ALERT_BAR_PERIOD" .daily
  fetchConcurrency := max (v.number "ALERT_FETCH_CONCURRENCY" 64 4) 1
  eventsCapacity := max (v.number "ALERT_EVENTS_CAPACITY" 64 64) 1

end TickerWatch
