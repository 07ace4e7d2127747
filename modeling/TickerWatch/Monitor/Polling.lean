import TickerWatch.Monitor.Pass

namespace TickerWatch

inductive Shutdown where
  | unattached
  | attached (requested : Bool)
  | dropped
  deriving DecidableEq, Repr

def Shutdown.isFinal : Shutdown → Bool
  | unattached => false
  | attached requested => requested
  | dropped => true

inductive Phase where
  | starting
  | waiting (due : Nat)
  | ticking (p : Pass)
  | leaving

structure Loop where
  generation : Nat
  stopSent : Bool := false
  phase : Phase := .starting

/-- `recorded` is the loop that was started last and not stopped since. The interval is in
milliseconds. -/
structure Polling where
  running : Bool := false
  recorded : Option Nat := none
  interval : Nat
  generation : Nat := 0
  loops : List Loop := []
  shutdown : Shutdown := .unattached

namespace Polling

def defaultInterval : Nat := 10000

def ofInterval (interval : Nat) (shutdown : Shutdown) : Polling :=
  { interval := if interval = 0 then defaultInterval else interval, shutdown }

def due (p : Polling) (time : Nat) : Nat := waitEnd time p.interval

def start (p : Polling) : Bool × Polling :=
  if p.running then (false, p)
  else
    let generation := p.generation + 1
    (true,
      { p with
        running := true
        recorded := some generation
        generation
        loops := p.loops ++ [{ generation }] })

def stop (p : Polling) : Bool × Polling :=
  (p.running,
    { p with
      running := false
      recorded := none
      loops := p.loops.map fun l =>
        if p.recorded = some l.generation then { l with stopSent := true } else l })

def setInterval (p : Polling) (interval : Nat) : Except AlertError Polling :=
  if interval = 0 then .error .zeroInterval else .ok { p with interval }

def setPhase (p : Polling) (generation : Nat) (phase : Phase) : Polling :=
  { p with loops := p.loops.map fun l => if l.generation = generation then { l with phase } else l }

/-- A loop that leaves clears the state only if no other loop has taken its place. -/
def leave (p : Polling) (generation : Nat) : Polling :=
  let loops := p.loops.filter fun l => l.generation ≠ generation
  if p.recorded = some generation then { p with loops, recorded := none, running := false }
  else { p with loops }

end Polling

inductive Wake where
  | timer
  | stop
  | shutdown
  deriving DecidableEq, Repr

def Wake.isReady (s : Shutdown) (stopSent : Bool) (due time : Nat) : Wake → Bool
  | timer => due ≤ time
  | stop => stopSent
  | shutdown => s.isFinal

def Wake.leadsToTick (stopSent : Bool) : Wake → Bool
  | timer => !stopSent
  | stop => false
  | shutdown => false

/-- Of several reasons to wake, an end goes before the timer. -/
def Wake.first? (s : Shutdown) (stopSent : Bool) (due time : Nat) : Option Wake :=
  [stop, shutdown, timer].find? (·.isReady s stopSent due time)

end TickerWatch
