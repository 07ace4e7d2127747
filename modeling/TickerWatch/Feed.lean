import TickerWatch.Event

namespace TickerWatch

structure Feed where
  capacity : Nat
  sent : List Event := []

namespace Feed

/-- Room is made in powers of two, and for one event at least. -/
def room (f : Feed) : Nat := (max f.capacity 1).nextPowerOfTwo

def send (f : Feed) (e : Event) : Feed := { f with sent := f.sent ++ [e] }

abbrev Place := Nat

def join (f : Feed) : Place := f.sent.length

def pending (f : Feed) (p : Place) : Nat := f.sent.length - p

inductive Reading where
  | event (e : Event)
  | lagged (missed : Nat)

/-- The next reading and the place after it; nothing while there is no later event. A reader that
fell too far behind learns how many events it missed, and goes on with the oldest that is kept. -/
def read? (f : Feed) (p : Place) : Option (Reading × Place) :=
  let missed := f.pending p - f.room
  if 0 < missed then some (.lagged missed, p + missed)
  else f.sent[p]?.map fun e => (.event e, p + 1)

def readUpTo (f : Feed) : (limit : Nat) → Place → List Reading × Place
  | 0, p => ([], p)
  | limit + 1, p =>
    match f.read? p with
    | none => ([], p)
    | some (r, p) =>
      let (rs, p) := f.readUpTo limit p
      (r :: rs, p)

def readAll (f : Feed) (p : Place) : List Reading × Place := f.readUpTo (f.pending p + 1) p

end Feed

end TickerWatch
