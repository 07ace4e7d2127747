import TickerWatch.Monitor.Polling

namespace TickerWatch

/-- `clockOffset` is what the clock showed at time 0; `calls` holds the calls of providers, the
latest first. Nothing but waiting takes time, which is counted in milliseconds: at every instant all
is done that can be done before the time moves on. -/
structure Timeline where
  watch : Watch
  polling : Polling
  market : Market
  options : FetchOptions := {}
  outages : Outages := .none
  clockOffset : Int := 0
  time : Nat := 0
  calls : List ProviderCall := []

namespace Timeline

def clock (t : Timeline) : Int := t.clockOffset + (t.time / 1000 : Nat)

def surroundings (t : Timeline) : Surroundings := { now := t.clock, outages := t.outages }

def setClock (t : Timeline) (now : Int) : Timeline :=
  { t with clockOffset := now - (t.time / 1000 : Nat) }

def noteCalls (t : Timeline) (calls : List ProviderCall) : Timeline :=
  { t with calls := calls.reverse ++ t.calls }

def advance (t : Timeline) (p : Pass) : Pass × Timeline :=
  let (p, calls) := p.advance t.options t.market t.time t.clock
  (p, t.noteCalls calls)

def setPhase (t : Timeline) (generation : Nat) (phase : Phase) : Timeline :=
  { t with polling := t.polling.setPhase generation phase }

def beginTick (t : Timeline) (generation : Nat) : Timeline :=
  match t.watch.beginTick t.surroundings with
  | .error _ => t.setPhase generation .starting
  | .ok p => t.setPhase generation (.ticking p)

def endTick (t : Timeline) (generation : Nat) (p : Pass) : Timeline :=
  { t with watch := (t.watch.judge t.surroundings p).2 }.setPhase generation .starting

def wake (t : Timeline) (l : Loop) (w : Wake) : Timeline :=
  if w.leadsToTick l.stopSent then t.beginTick l.generation
  else t.setPhase l.generation .leaving

def stepLoop? (t : Timeline) (l : Loop) : Option Timeline :=
  match l.phase with
  | .starting => some (t.setPhase l.generation (.waiting (t.polling.due t.time)))
  | .waiting due => (Wake.first? t.polling.shutdown l.stopSent due t.time).map (t.wake l)
  | .ticking p =>
    if p.isDone then some (t.endTick l.generation p)
    else if p.isStuck t.options t.time then none
    else
      let (p, t) := t.advance p
      some (t.setPhase l.generation (.ticking p))
  | .leaving => some { t with polling := t.polling.leave l.generation }

def settleFrom : (fuel : Nat) → Timeline → Timeline
  | 0, t => t
  | fuel + 1, t =>
    match t.polling.loops.findSome? t.stepLoop? with
    | none => t
    | some t => settleFrom fuel t

/-- At one instant a loop takes a step from each phase to the next, and does not begin a second wait
that has ended already. -/
def stepsAtOnce : Nat := 8

def settle (t : Timeline) : Timeline := settleFrom (stepsAtOnce * t.polling.loops.length) t

def Phase.nextEnd? : Phase → Option Nat
  | .starting => none
  | .waiting due => some due
  | .ticking p => p.nextEnd?
  | .leaving => none

def nextEnd? (t : Timeline) : Option Nat :=
  (t.polling.loops.filterMap fun l => Phase.nextEnd? l.phase).min?

def runUntil (stop : Nat) : (fuel : Nat) → Timeline → Timeline
  | 0, t => t
  | fuel + 1, t =>
    match t.nextEnd? with
    | some time =>
      if time ≤ stop then runUntil stop fuel ({ t with time := max time t.time }.settle) else t
    | none => t

/-- Lets time pass. Every end of a wait comes at least a millisecond after the one before. -/
def sleep (t : Timeline) (duration : Nat) : Timeline :=
  let stop := waitEnd t.time duration
  { runUntil stop duration t with time := stop }

def complete : (fuel : Nat) → Timeline → Pass → Pass × Timeline
  | 0, t, p => (p, t)
  | fuel + 1, t, p =>
    let (p, t) := t.advance p
    match p.nextEnd? with
    | none => (p, t)
    | some time =>
      let next := max t.time (min time (t.nextEnd?.getD time))
      if next = time then complete fuel { t with time } p
      else complete fuel ({ t with time := next }.settle) p

/-- A pass takes no longer than its lookups one after another, and no instant takes more than two
turns. -/
def patience (t : Timeline) (p : Pass) : Nat := 2 * (p.waiting.map t.market.delay).foldl (· + ·) 0 + 2

def finish (t : Timeline) (p : Pass) : Pass × Timeline := t.complete (t.patience p) p

def tick (t : Timeline) : Except AlertError Report × Timeline :=
  match t.watch.beginTick t.surroundings with
  | .error err => (.error err, t)
  | .ok p =>
    let (p, t) := t.finish p
    let (r, watch) := t.watch.judge t.surroundings p
    (.ok r, { t with watch })

def checkStock (t : Timeline) (code : String) : Except AlertError Report × Timeline :=
  match t.watch.beginCheck t.surroundings code with
  | .error err => (.error err, t)
  | .ok p =>
    let (p, t) := t.finish p
    let (r, watch) := t.watch.judgeOne t.surroundings p
    (r, { t with watch })

def onDesk {α : Type} (t : Timeline) (op : Desk → Surroundings → Outcome α) :
    Except AlertError α × Timeline :=
  let (r, desk) := op t.watch.desk t.surroundings
  (r, { t with watch := { t.watch with desk } })

def ask {α : Type} (t : Timeline) (question : Desk → Surroundings → Except AlertError α) :
    Except AlertError α := question t.watch.desk t.surroundings

def start (t : Timeline) : Bool × Timeline :=
  let (r, polling) := t.polling.start
  (r, { t with polling })

def stop (t : Timeline) : Bool × Timeline :=
  let (r, polling) := t.polling.stop
  (r, { t with polling })

def setInterval (t : Timeline) (interval : Nat) : Except AlertError Unit × Timeline :=
  match t.polling.setInterval interval with
  | .error err => (.error err, t)
  | .ok polling => (.ok (), { t with polling })

end Timeline

end TickerWatch
