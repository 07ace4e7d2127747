import TickerWatch.Feed
import TickerWatch.Store.Call

namespace TickerWatch

/-- What an operation finds when it runs: the time in seconds, and the calls that will fail. -/
structure Surroundings where
  now : Int
  outages : Outages := .none

structure Desk where
  store : Store
  feed : Feed
  nextId : RecordId

abbrev Outcome (α : Type) := Except AlertError α × Desk

namespace Desk

def send (d : Desk) (e : Event) : Desk := { d with feed := d.feed.send e }

def withStore (d : Desk) (s : Store) : Desk := { d with store := s }

def newId (d : Desk) : RecordId × Desk := (d.nextId, { d with nextId := d.nextId.next })

def commit (d : Desk) (s : Store) : Desk := (d.withStore s).send .updated

def reading {α : Type} : Except String α → Except AlertError α := Except.mapError .repository

def get (d : Desk) (e : Surroundings) (id : RecordId) : Except AlertError Alert :=
  match e.outages.find d.store id with
  | .error reason => .error (.repository reason)
  | .ok none => .error (.noAlert id)
  | .ok (some a) => .ok a

def list (d : Desk) (e : Surroundings) : Except AlertError (List Alert) :=
  reading (e.outages.list d.store)

def listActive (d : Desk) (e : Surroundings) : Except AlertError (List Alert) :=
  reading (e.outages.listActive d.store)

def normalCode (code : String) : String := Text.upper (Text.trim code)

def listActiveOf (d : Desk) (e : Surroundings) (code : String) : Except AlertError (List Alert) :=
  reading (e.outages.listActiveOf d.store (normalCode code))

def history (d : Desk) (e : Surroundings) (alert : Option RecordId) (limit : Int) :
    Except AlertError (List HistoryEntry) :=
  reading (e.outages.listHistory d.store alert (max limit 1))

def templates (d : Desk) (e : Surroundings) : Except AlertError (List Template) :=
  reading (e.outages.listTemplates d.store)

end Desk

end TickerWatch
