import TickerWatch.History
import TickerWatch.Template

namespace TickerWatch

/-- `history` holds its entries in the order in which they were appended. -/
structure Store where
  alerts : List Alert := []
  history : List HistoryEntry := []
  templates : List Template := []

namespace Store

def find? (s : Store) (id : RecordId) : Option Alert := s.alerts.find? (·.id = id)

def has (s : Store) (id : RecordId) : Bool := (s.find? id).isSome

def insert (s : Store) (a : Alert) : Except String Store :=
  if s.has a.id then .error ("duplicate alert id " ++ a.id.text)
  else .ok { s with alerts := s.alerts ++ [a] }

def modify? (s : Store) (id : RecordId) (f : Alert → Alert) : Option Store :=
  if s.has id then
    some { s with alerts := s.alerts.map fun a => if a.id = id then f a else a }
  else none

def replace? (s : Store) (a : Alert) : Option Store := s.modify? a.id fun _ => a

def erase? (s : Store) (id : RecordId) : Option Store :=
  if s.has id then some { s with alerts := s.alerts.filter (·.id ≠ id) } else none

/-- Newest first, and of those made at one time the greater id first. -/
def precedes (a b : Alert) : Bool :=
  b.createdAt < a.createdAt || (a.createdAt == b.createdAt && b.id.number ≤ a.id.number)

def list (s : Store) : List Alert := s.alerts.mergeSort precedes

def listActive (s : Store) : List Alert := (s.alerts.filter Alert.isActive).mergeSort precedes

def listActiveOf (s : Store) (code : String) : List Alert :=
  (s.alerts.filter fun a => a.isActive && a.code == code).mergeSort precedes

def appendHistory (s : Store) (h : HistoryEntry) : Store := { s with history := s.history ++ [h] }

def listHistory (s : Store) (alert : Option RecordId) (limit : Int) : List HistoryEntry :=
  (s.history.reverse.filter fun h => alert.all (· = h.alertId)).take limit.toNat

def findTemplate? (s : Store) (id : String) : Option Template := s.templates.find? (·.id == id)

def listTemplates (s : Store) : List Template := s.templates.mergeSort fun a b => a.id ≤ b.id

def noSuchAlert (id : RecordId) : String := "alert " ++ id.text ++ " not found"

def inCooldown (s : Store) (id : RecordId) (now : Int) : Except String Bool :=
  match s.find? id with
  | some a => .ok (a.inCooldown now)
  | none => .error (noSuchAlert id)

def stampTrigger (s : Store) (id : RecordId) (now : Int) : Except String Store :=
  match s.modify? id fun a => { a with lastTriggeredAt := some now, updatedAt := now } with
  | some s => .ok s
  | none => .error (noSuchAlert id)

def setActive? (s : Store) (id : RecordId) (active : Bool) (now : Int) : Option Store :=
  s.modify? id fun a => { a with isActive := active, updatedAt := now }

end Store

end TickerWatch
