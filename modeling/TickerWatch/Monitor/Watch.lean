import TickerWatch.Desk.Firing
import TickerWatch.Monitor.Report

namespace TickerWatch

inductive Callback where
  | recording
  | panicking
  deriving DecidableEq, Repr

structure Watch where
  desk : Desk
  callback : Option Callback := none
  handed : List (Callback × Notification) := []

inductive Decision where
  | skipped
  | cooling
  | quiet
  | fired (n : Notification)

namespace Decision

def isSkipped : Decision → Bool
  | skipped => true
  | _ => false

def isCooling : Decision → Bool
  | cooling => true
  | _ => false

def notification? : Decision → Option Notification
  | fired n => some n
  | _ => none

def isFired (d : Decision) : Bool := d.notification?.isSome

def isEvaluated : Decision → Bool
  | quiet => true
  | fired _ => true
  | _ => false

end Decision

namespace Watch

/-- The callback is served before the feed. -/
def dispatch (w : Watch) (n : Notification) : Watch :=
  { w with
    desk := w.desk.send (.triggered n)
    handed := w.handed ++ (w.callback.map fun c => (c, n)).toList }

def process (w : Watch) (e : Surroundings) (a : Alert) (s : Snapshot) : Decision × Watch :=
  match w.desk.check e a s with
  | .error _ => (.skipped, w)
  | .ok none => (.cooling, w)
  | .ok (some v) =>
    if v.fired then
      let (n, desk) := w.desk.fire e a s v.message
      (.fired n, { w with desk := desk }.dispatch n)
    else (.quiet, w)

def processAll (w : Watch) (e : Surroundings) (snapshot : String → Option Snapshot) :
    List Alert → List Decision × Watch
  | [] => ([], w)
  | a :: as =>
    let (d, w) :=
      match snapshot a.code with
      | some s => w.process e a s
      | none => (.skipped, w)
    let (ds, w) := w.processAll e snapshot as
    (d :: ds, w)

end Watch

def Report.ofDecisions (codes : Nat) (codesFailed : List String) (ds : List Decision) : Report where
  alerts := ds.length
  codes := codes
  codesFailed := codesFailed
  evaluated := ds.countP (·.isEvaluated)
  cooling := ds.countP (·.isCooling)
  skipped := ds.countP (·.isSkipped)
  fired := ds.countP (·.isFired)

end TickerWatch
