import TickerWatch.Desk
import TickerWatch.Verdict

namespace TickerWatch

namespace Desk

/-- The caller's copy tells whether the alert is switched on, the store whether it is cooling. -/
def gate (d : Desk) (e : Surroundings) (a : Alert) : Except AlertError AlertState :=
  if !a.isActive then .ok .disabled
  else
    match e.outages.inCooldown d.store a.id e.now with
    | .error reason => .error (.repository reason)
    | .ok true => .ok .cooling
    | .ok false => .ok .armed

def check (d : Desk) (e : Surroundings) (a : Alert) (s : Snapshot) :
    Except AlertError (Option Verdict) :=
  match d.gate e a with
  | .error err => .error err
  | .ok .armed => .ok (some (a.rule.verdict s a.sensitivity))
  | .ok _ => .ok none

def historyEntry (id : RecordId) (a : Alert) (s : Snapshot) (message : String) (now : Int) :
    HistoryEntry where
  id := id
  alertId := a.id
  code := a.code
  name := a.name
  alertType := a.alertType
  triggerPrice := s.closePrice
  message := message
  triggeredAt := now

def notification (a : Alert) (s : Snapshot) (message : String) (now : Int) : Notification where
  alertId := a.id
  code := a.code
  name := a.name
  alertType := a.alertType
  triggerPrice := s.closePrice
  changePercent := s.changePercent
  message := message
  triggeredAt := now
  enableSound := a.enableSound
  enableDesktop := a.enableDesktop

/-- The first write of a fire. A write that fails is let be, here and below. -/
def record (d : Desk) (e : Surroundings) (a : Alert) (s : Snapshot) (message : String) : Desk :=
  let (id, d) := d.newId
  match e.outages.appendHistory d.store (historyEntry id a s message e.now) with
  | .error _ => d
  | .ok store => d.withStore store

def stamp (d : Desk) (e : Surroundings) (a : Alert) : Desk :=
  match e.outages.stampTrigger d.store a.id e.now with
  | .error _ => d
  | .ok store => d.withStore store

def retire (d : Desk) (e : Surroundings) (a : Alert) : Desk :=
  if a.postTrigger.disables then
    match e.outages.setActive d.store a.id false e.now with
    | .ok (some store) => d.commit store
    | _ => d
  else d

def fire (d : Desk) (e : Surroundings) (a : Alert) (s : Snapshot) (message : String) :
    Notification × Desk :=
  (notification a s message e.now, ((d.record e a s message).stamp e a).retire e a)

end Desk

end TickerWatch
