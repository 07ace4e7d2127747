import TickerWatch.Store

namespace TickerWatch

inductive Call where
  | insertAlert (id : RecordId)
  | updateAlert (id : RecordId)
  | deleteAlert (id : RecordId)
  | findAlert (id : RecordId)
  | listAlerts
  | listActive
  | listActiveOf (code : String)
  | appendHistory (alert : RecordId)
  | listHistory (alert : Option RecordId)
  | findTemplate (id : String)
  | listTemplates
  | inCooldown (id : RecordId)
  | stampTrigger (id : RecordId)
  | setActive (id : RecordId)

inductive Outage where
  | failure (reason : String)
  /-- A write that answers that there is no such alert. -/
  | missing

abbrev Outages := Call → Option Outage

namespace Outages

def none : Outages := fun _ => .none

def guard {α : Type} (o : Outages) (c : Call) (answer : Except String α) : Except String α :=
  match o c with
  | some (.failure reason) => .error reason
  | _ => answer

def guardWrite (o : Outages) (c : Call) (answer : Option Store) : Except String (Option Store) :=
  match o c with
  | some (.failure reason) => .error reason
  | some .missing => .ok .none
  | .none => .ok answer

variable (o : Outages) (s : Store)

def insert (a : Alert) : Except String Store := o.guard (.insertAlert a.id) (s.insert a)

def update (a : Alert) : Except String (Option Store) :=
  o.guardWrite (.updateAlert a.id) (s.replace? a)

def delete (id : RecordId) : Except String (Option Store) :=
  o.guard (.deleteAlert id) (.ok (s.erase? id))

def find (id : RecordId) : Except String (Option Alert) :=
  o.guard (.findAlert id) (.ok (s.find? id))

def list : Except String (List Alert) := o.guard .listAlerts (.ok s.list)

def listActive : Except String (List Alert) := o.guard .listActive (.ok s.listActive)

def listActiveOf (code : String) : Except String (List Alert) :=
  o.guard (.listActiveOf code) (.ok (s.listActiveOf code))

def appendHistory (h : HistoryEntry) : Except String Store :=
  o.guard (.appendHistory h.alertId) (.ok (s.appendHistory h))

def listHistory (alert : Option RecordId) (limit : Int) : Except String (List HistoryEntry) :=
  o.guard (.listHistory alert) (.ok (s.listHistory alert limit))

def findTemplate (id : String) : Except String (Option Template) :=
  o.guard (.findTemplate id) (.ok (s.findTemplate? id))

def listTemplates : Except String (List Template) := o.guard .listTemplates (.ok s.listTemplates)

def inCooldown (id : RecordId) (now : Int) : Except String Bool :=
  o.guard (.inCooldown id) (s.inCooldown id now)

def stampTrigger (id : RecordId) (now : Int) : Except String Store :=
  o.guard (.stampTrigger id) (s.stampTrigger id now)

def setActive (id : RecordId) (active : Bool) (now : Int) : Except String (Option Store) :=
  o.guardWrite (.setActive id) (s.setActive? id active now)

end Outages

end TickerWatch
