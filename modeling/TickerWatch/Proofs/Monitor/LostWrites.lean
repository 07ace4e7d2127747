import TickerWatch.Proofs.Desk.Ownership
import TickerWatch.Proofs.Monitor.Outcomes
import TickerWatch.Proofs.Monitor.Scene

namespace TickerWatch

structure Amendment where
  id : RecordId
  input : Definition
  checked : Checked
  accepted : input.check = .ok checked
  now : Int

def Amendment.redefines (m : Amendment) (a : Alert) : Alert := a.redefine m.input m.checked m.now

inductive Draft where
  | asks
  | holds (a : Alert)
  | ended

inductive Rival where
  | fire (copy : Alert) (x : Snapshot) (message : String) (now : Int)
  | toggle (now : Int)

inductive Rivalry where
  | fires (f : Firing) (now : Int)
  | asks (now : Int)
  | flips (a : Alert) (now : Int)
  | ended

def Rival.begin : Rival → Rivalry
  | fire copy x message now =>
    .fires { copy, snapshot := x, message, stored := none } now
  | toggle now => .asks now

def Rival.calls : Rival → Nat
  | fire _ _ _ _ => 3
  | toggle _ => 2

def Rival.About (id : RecordId) : Rival → Prop
  | fire copy _ _ _ => copy.id = id
  | toggle _ => True

def Alert.lifecycle (a : Alert) : Option Int × Bool := (a.lastTriggeredAt, a.isActive)

/-- What the calls from number `i` up to number `j` write, if the switch stood like this before. -/
def Rival.writes (switch : Bool) (i j : Nat) (l : Option Int × Bool) : Rival → Option Int × Bool
  | fire copy _ _ now =>
    (if i ≤ 1 ∧ 1 < j then some now else l.1,
      if copy.postTrigger.disables = true ∧ i ≤ 2 ∧ 2 < j then false else l.2)
  | toggle _ => (l.1, if i ≤ 1 ∧ 1 < j then !switch else l.2)

def Rival.leaves (lost : List Nat) (a : Alert) : Rival → Option Int × Bool
  | fire copy _ _ now =>
    (if 1 ∈ lost then a.lastTriggeredAt else some now,
      if copy.postTrigger.disables = true ∧ 2 ∉ lost then false else a.isActive)
  | toggle _ => (a.lastTriggeredAt, if 1 ∈ lost then a.isActive else !a.isActive)

theorem Rival.writes_none (rival : Rival) (switch : Bool) (k : Nat) (l : Option Int × Bool) :
    rival.writes switch k k l = l := by
  cases rival with
  | fire copy x message now =>
    have stamp : ¬ (k ≤ 1 ∧ 1 < k) := by omega
    have rest : ¬ (k ≤ 2 ∧ 2 < k) := by omega
    simp [writes, stamp, rest]
  | toggle now =>
    have flip : ¬ (k ≤ 1 ∧ 1 < k) := by omega
    simp [writes, flip]

theorem Rival.writes_trans (rival : Rival) (switch : Bool) {i j k : Nat} (l : Option Int × Bool)
    (first : i ≤ j) (second : j ≤ k) :
    rival.writes switch j k (rival.writes switch i j l) = rival.writes switch i k l := by
  have joined : ∀ n, (i ≤ n ∧ n < k) ↔ (j ≤ n ∧ n < k) ∨ (i ≤ n ∧ n < j) := by
    intro n
    omega
  cases rival with
  | fire copy x message now =>
    simp only [writes, joined]
    by_cases disables : copy.postTrigger.disables = true <;> grind
  | toggle now =>
    simp only [writes, joined]
    grind

theorem Rival.writes_leaves (rival : Rival) (a : Alert) {early mid late : Nat}
    (whole : rival.calls ≤ early + mid + late) :
    rival.writes a.isActive (early + mid) (early + mid + late)
        (rival.writes a.isActive 0 early a.lifecycle) =
      rival.leaves (List.range' early mid) a := by
  cases rival with
  | fire copy x message now =>
    simp only [calls] at whole
    simp only [writes, leaves, Alert.lifecycle, List.mem_range'_1]
    grind
  | toggle now =>
    simp only [calls] at whole
    simp only [writes, leaves, Alert.lifecycle, List.mem_range'_1]
    grind

def Rivalry.call (id : RecordId) (w : Watch) : Rivalry → Rivalry × Watch
  | fires f now =>
    let (next, w) := f.advance w { now }
    (match next with
      | some f => fires f now
      | none => ended, w)
  | asks now =>
    match w.desk.get { now } id with
    | .ok a => (flips a now, w)
    | .error _ => (ended, w)
  | flips a now => (ended, { w with desk := (w.desk.flip { now } a).2 })
  | ended => (ended, w)

structure Race where
  watch : Watch
  draft : Draft := .asks
  rivalry : Rivalry

namespace Race

inductive Turn where
  | update
  | rival
  deriving DecidableEq

variable {m : Amendment} {w : Watch} {r : Race} {rival : Rival} {a b : Alert} {id : RecordId}
  {switch : Bool} {k count early mid late : Nat}

abbrev store (r : Race) : Store := r.watch.desk.store

def step (m : Amendment) (r : Race) : Turn → Race
  | .update =>
    match r.draft with
    | .asks =>
      match r.watch.desk.get { now := m.now } m.id with
      | .ok a => { r with draft := .holds (m.redefines a) }
      | .error _ => { r with draft := .ended }
    | .holds a =>
      { r with
        watch := { r.watch with desk := (r.watch.desk.write { now := m.now } a).2 }
        draft := .ended }
    | .ended => r
  | .rival =>
    let (rivalry, watch) := r.rivalry.call m.id r.watch
    { r with watch, rivalry }

def run (m : Amendment) (r : Race) (turns : List Turn) : Race := turns.foldl (step m) r

theorem get_found {d : Desk} (now : Int) (found : d.store.find? id = some a) :
    d.get { now } id = .ok a := by
  have answer : Outages.none.find d.store id = .ok (some a) := by
    rw [Outages.find, found]
    rfl
  simp only [Desk.get, answer]

/-- Alone, the two calls are the update. -/
theorem run_update (m : Amendment) (w : Watch) (rival : Rivalry) :
    (run m { watch := w, rivalry := rival } [.update, .update]).watch.desk =
      (w.desk.update { now := m.now } m.id m.input).2 := by
  simp only [run, List.foldl_cons, List.foldl_nil, step, Desk.update, m.accepted]
  cases w.desk.get { now := m.now } m.id <;> rfl

theorem run_toggle (m : Amendment) (w : Watch) (now : Int) :
    (run m { watch := w, rivalry := (Rival.toggle now).begin } [.rival, .rival]).watch.desk =
      (w.desk.toggle { now } m.id).2 := by
  simp only [run, List.foldl_cons, List.foldl_nil, step, Rival.begin, Rivalry.call, Desk.toggle]
  cases w.desk.get { now } m.id <;> rfl

theorem run_fire (m : Amendment) (w : Watch) (a : Alert) (x : Snapshot) (message : String)
    (now : Int) :
    (run m { watch := w, rivalry := (Rival.fire a x message now).begin }
      [.rival, .rival, .rival, .rival]).watch = w.firing { now } a x message := rfl

inductive After (id : RecordId) (switch : Bool) : Rival → Nat → Rivalry → Prop
  | passed {copy : Alert} {x : Snapshot} {message : String} {now : Int} :
      After id switch (.fire copy x message now) 0
        (.fires { copy, snapshot := x, message, stored := none } now)
  | recorded {copy : Alert} {x : Snapshot} {message : String} {now : Int} :
      After id switch (.fire copy x message now) 1
        (.fires { copy, snapshot := x, message, stored := none, stage := .recorded now } now)
  | stamped {copy : Alert} {x : Snapshot} {message : String} {now : Int} :
      After id switch (.fire copy x message now) 2
        (.fires { copy, snapshot := x, message, stored := none, stage := .stamped now } now)
  | retired {copy : Alert} {x : Snapshot} {message : String} {now : Int} :
      After id switch (.fire copy x message now) 3
        (.fires { copy, snapshot := x, message, stored := none, stage := .retired now } now)
  | told {copy : Alert} {x : Snapshot} {message : String} {now : Int} {k : Nat} (past : 4 ≤ k) :
      After id switch (.fire copy x message now) k .ended
  | asks {now : Int} : After id switch (.toggle now) 0 (.asks now)
  | flips {now : Int} {seen : Alert} (named : seen.id = id) (switched : seen.isActive = switch) :
      After id switch (.toggle now) 1 (.flips seen now)
  | flipped {now : Int} {k : Nat} (past : 2 ≤ k) : After id switch (.toggle now) k .ended

theorem begin_after (id : RecordId) (switch : Bool) (rival : Rival) :
    After id switch rival 0 rival.begin := by
  cases rival with
  | fire copy x message now => exact .passed
  | toggle now => exact .asks

theorem flip_found {d : Desk} {now : Int} (found : d.store.find? a.id = some b) :
    (d.flip { now } a).2.store.find? a.id =
      some { b with isActive := !a.isActive, updatedAt := now } := by
  have written : (d.flip { now } a).2.store = (d.store.modify? a.id fun b =>
      { b with isActive := !a.isActive, updatedAt := now }).getD d.store := by
    unfold Desk.flip
    rw [Outages.setActive, Outages.guardWrite_answers rfl, Store.setActive?]
    cases d.store.modify? a.id _ <;> rfl
  rw [written, Desk.find?_modify fun _ same => by exact same, if_pos rfl, found, Option.map_some]

theorem write_found {d : Desk} {now : Int} (found : d.store.find? a.id = some b) :
    (d.write { now } a).2.store.find? a.id = some a := by
  have written : (d.write { now } a).2.store = (d.store.modify? a.id fun _ => a).getD d.store := by
    unfold Desk.write
    rw [Outages.update, Outages.guardWrite_answers rfl, Store.replace?]
    cases d.store.modify? a.id _ <;> rfl
  rw [written, Desk.find?_modify fun _ _ => rfl, if_pos rfl, found, Option.map_some]

theorem call_writes {rivalry : Rivalry} (after : After id switch rival k rivalry)
    (about : rival.About id) (found : w.desk.store.find? id = some b)
    (unread : k = 0 → b.isActive = switch) :
    After id switch rival (k + 1) (rivalry.call id w).1 ∧
      ∃ c, (rivalry.call id w).2.desk.store.find? id = some c ∧ b.SameDefinition c ∧
        c.lifecycle = rival.writes switch k (k + 1) b.lifecycle := by
  cases after with
  | @passed copy x message now =>
    refine ⟨.recorded, b, ?_, .of_lifecycle b _ _ _, by simp [Rival.writes]⟩
    exact (Desk.record_find? id).trans found
  | @recorded copy x message now =>
    obtain rfl : copy.id = id := about
    refine ⟨.stamped, Desk.stamping now b, ?_, .of_lifecycle b _ _ _, by
      simp [Rival.writes, Alert.lifecycle, Desk.stamping]⟩
    have stamped := w.desk.stamp_find? { now } copy copy.id
    rw [if_pos rfl, found] at stamped
    exact stamped
  | @stamped copy x message now =>
    obtain rfl : copy.id = id := about
    have retired := w.desk.retire_find? { now } copy copy.id
    rw [if_pos rfl, found, Option.map_some] at retired
    refine ⟨.retired, _, retired, ?_, ?_⟩
    · unfold Desk.rests
      split <;> exact .of_lifecycle b _ _ _
    · by_cases disables : copy.postTrigger.disables = true <;>
        simp [Rival.writes, Alert.lifecycle, Desk.rests, disables, Outages.none, Desk.resting]
  | retired =>
    exact ⟨.told (Nat.le_refl 4), b, found, .of_lifecycle b _ _ _, by simp [Rival.writes]⟩
  | told past =>
    have stamp : ¬ k ≤ 1 := by omega
    have rest : ¬ k ≤ 2 := by omega
    exact ⟨.told (Nat.le_succ_of_le past), b, found, .of_lifecycle b _ _ _, by
      simp [Rival.writes, stamp, rest]⟩
  | @asks now =>
    simp only [Rivalry.call, get_found now found]
    exact ⟨.flips (Store.id_of_find? found) (unread rfl), b, found, .of_lifecycle b _ _ _, by
      simp [Rival.writes]⟩
  | @flips now seen named switched =>
    obtain rfl := named
    refine ⟨.flipped (Nat.le_refl 2), _, flip_found found, .of_lifecycle b _ _ _, ?_⟩
    simp [Rival.writes, Alert.lifecycle, switched]
  | flipped past =>
    have flip : ¬ k ≤ 1 := by omega
    exact ⟨.flipped (Nat.le_succ_of_le past), b, found, .of_lifecycle b _ _ _, by
      simp [Rival.writes, flip]⟩

structure Stands (m : Amendment) (rival : Rival) (switch : Bool) (k : Nat) (definition : Alert)
    (l : Option Int × Bool) (r : Race) : Prop where
  after : After m.id switch rival k r.rivalry
  unread : k = 0 → l.2 = switch
  stored : ∃ b, r.store.find? m.id = some b ∧ definition.SameDefinition b ∧ b.lifecycle = l

namespace Stands

variable {definition c : Alert} {l : Option Int × Bool}

theorem rivals (stands : Stands m rival switch k definition l r) (about : rival.About m.id)
    (count : Nat) :
    (run m r (List.replicate count .rival)).draft = r.draft ∧
      Stands m rival switch (k + count) definition (rival.writes switch k (k + count) l)
        (run m r (List.replicate count .rival)) := by
  induction count generalizing r k l with
  | zero =>
    rw [Nat.add_zero, rival.writes_none]
    exact ⟨rfl, stands⟩
  | succ count ih =>
    obtain ⟨after, unread, b, stored, same, rfl⟩ := stands
    obtain ⟨next, c, left, still, wrote⟩ := call_writes after about stored unread
    have onward : Stands m rival switch (k + 1) definition
        (rival.writes switch k (k + 1) b.lifecycle) (step m r .rival) :=
      ⟨next, nofun, c, left, same.trans still, wrote⟩
    have rest := ih onward
    rw [rival.writes_trans switch _ (Nat.le_succ k) (by omega), Nat.add_assoc,
      Nat.add_comm 1 count] at rest
    exact rest

theorem reads (stands : Stands m rival switch k definition l r) (asks : r.draft = .asks) :
    ∃ c, (step m r .update).draft = .holds c ∧ c.id = m.id ∧
      (m.redefines definition).SameDefinition c ∧ c.lifecycle = l ∧
      Stands m rival switch k definition l (step m r .update) := by
  obtain ⟨after, unread, b, stored, same, lifecycle⟩ := stands
  have read : step m r .update = { r with draft := .holds (m.redefines b) } := by
    simp only [step, asks, get_found m.now stored]
  have named : b.id = m.id := Store.id_of_find? stored
  rw [read]
  exact ⟨m.redefines b, rfl, named, ⟨rfl, rfl, rfl, rfl, rfl, rfl, rfl, rfl, rfl⟩, lifecycle,
    after, unread, b, stored, same, lifecycle⟩

theorem writes (stands : Stands m rival switch k definition l r) (holds : r.draft = .holds c)
    (named : c.id = m.id) (unread : k = 0 → c.isActive = switch) :
    (step m r .update).draft = .ended ∧
      Stands m rival switch k c c.lifecycle (step m r .update) := by
  obtain ⟨after, -, b, stored, -, -⟩ := stands
  have wrote : step m r .update = { r with
      watch := { r.watch with desk := (r.watch.desk.write { now := m.now } c).2 }
      draft := .ended } := by
    simp only [step, holds]
  rw [← named] at stored
  have written : (r.watch.desk.write { now := m.now } c).2.store.find? c.id = some c :=
    write_found stored
  rw [named] at written
  rw [wrote]
  exact ⟨rfl, after, unread, c, written, .of_lifecycle c _ _ _, rfl⟩

end Stands

def schedule (early mid late : Nat) : List Turn :=
  List.replicate early .rival ++ .update ::
    (List.replicate mid .rival ++ .update :: List.replicate late .rival)

theorem first_update {turns : List Turn} {n : Nat} (some : turns.count .update = n + 1) :
    ∃ count rest, turns = List.replicate count .rival ++ .update :: rest ∧
      rest.count .update = n := by
  induction turns with
  | nil => cases some
  | cons turn turns ih =>
    cases turn with
    | update => exact ⟨0, turns, rfl, by simpa using some⟩
    | rival =>
      obtain ⟨count, rest, rfl, fewer⟩ := ih (by simpa using some)
      exact ⟨count + 1, rest, rfl, fewer⟩

theorem two_updates {turns : List Turn} (twice : turns.count .update = 2) :
    ∃ early mid late, turns = schedule early mid late := by
  obtain ⟨early, rest, rfl, once⟩ := first_update twice
  obtain ⟨mid, rest, rfl, none⟩ := first_update once
  have rivals : rest = List.replicate rest.length .rival := by
    refine List.eq_replicate_iff.mpr ⟨rfl, fun turn member => ?_⟩
    cases turn with
    | update => exact absurd member (List.count_eq_zero.mp none)
    | rival => rfl
  exact ⟨early, mid, rest.length, by rw [schedule, ← rivals]⟩

/-- The update writes back what it has read, with whatever its rival had written by then, and its
rival goes on from there. -/
theorem run_schedule (about : rival.About m.id) (found : w.desk.store.find? m.id = some a)
    (early mid late : Nat) :
    let u := run m { watch := w, rivalry := rival.begin } (schedule early mid late)
    u.draft = .ended ∧ ∃ b, u.store.find? m.id = some b ∧ (m.redefines a).SameDefinition b ∧
      b.lifecycle = rival.writes a.isActive (early + mid) (early + mid + late)
        (rival.writes a.isActive 0 early a.lifecycle) := by
  intro u
  have start : Stands m rival a.isActive 0 a a.lifecycle { watch := w, rivalry := rival.begin } :=
    ⟨begin_after m.id a.isActive rival, fun _ => rfl, a, found, .of_lifecycle a _ _ _, rfl⟩
  obtain ⟨asks, before⟩ := start.rivals about early
  rw [Nat.zero_add] at before
  obtain ⟨c, reads, named, same, read, meanwhile⟩ := before.reads asks
  obtain ⟨holds, beside⟩ := meanwhile.rivals about mid
  have unread : early + mid = 0 → c.isActive = a.isActive := by
    -- A toggle that has not begun reads the switch after the update, which kept it.
    intro none
    obtain rfl : early = 0 := by omega
    rw [rival.writes_none] at read
    exact congrArg Prod.snd read
  obtain ⟨ended, written⟩ := beside.writes (holds.trans reads) named unread
  obtain ⟨last, -, -, b, stored, still, left⟩ := written.rivals about late
  have ran : u = run m (step m (run m (step m (run m { watch := w, rivalry := rival.begin }
      (List.replicate early .rival)) .update) (List.replicate mid .rival)) .update)
      (List.replicate late .rival) := by
    simp only [u, run, schedule, List.foldl_append, List.foldl_cons]
  rw [read] at left
  rw [ran]
  exact ⟨last.trans ended, b, stored, same.trans still, left⟩

def between (turns : List Turn) : List Nat :=
  let rest := (turns.dropWhile (· == .rival)).tail
  List.range' (turns.takeWhile (· == .rival)).length (rest.takeWhile (· == .rival)).length

theorem between_schedule (early mid late : Nat) :
    between (schedule early mid late) = List.range' early mid := by
  have rivals : ∀ count, ∀ turn ∈ List.replicate count Turn.rival, (turn == .rival) = true := by
    intro count turn member
    rw [List.eq_of_mem_replicate member]
    rfl
  have taken : ∀ count rest, ((List.replicate count Turn.rival ++ Turn.update :: rest).takeWhile
      (· == Turn.rival)).length = count := by
    intro count rest
    rw [List.takeWhile_append_of_pos (rivals count)]
    simp
  have dropped : (schedule early mid late).dropWhile (· == .rival) =
      .update :: (List.replicate mid .rival ++ .update :: List.replicate late .rival) := by
    rw [schedule, List.dropWhile_append_of_pos (rivals early)]
    rfl
  rw [between, dropped, List.tail_cons, taken, schedule, taken]

/-- However the two calls of an update and the calls of a fire or a toggle of the same alert
interleave, the definition is in the end that of the update. The stamp and the switch are what the
fire or the toggle has written, except that its writes between the two calls are lost. -/
theorem writes_between_are_lost (m : Amendment) (w : Watch) (rival : Rival) (turns : List Turn)
    (a : Alert) (found : w.desk.store.find? m.id = some a) (about : rival.About m.id)
    (twice : turns.count .update = 2) (whole : rival.calls ≤ turns.count .rival) :
    ∃ b, (run m { watch := w, rivalry := rival.begin } turns).store.find? m.id = some b ∧
      (m.redefines a).SameDefinition b ∧ b.lifecycle = rival.leaves (between turns) a := by
  obtain ⟨early, mid, late, rfl⟩ := two_updates twice
  have count : (schedule early mid late).count .rival = early + (mid + late) := by
    simp [schedule]
  obtain ⟨-, b, stored, same, left⟩ := run_schedule about found early mid late
  refine ⟨b, stored, same, ?_⟩
  rw [left, between_schedule]
  exact rival.writes_leaves a (by omega)

def onceWatch : Watch where
  desk := {
    store := { alerts := [Timeline.riser 1 "600519" 0] }
    feed := { capacity := 16 }
    nextId := ⟨2⟩ }

def onceFires : Rival := .fire (Timeline.riser 1 "600519" 0) { changePercent := 6.2 } "up" 10

theorem rise_amends : ∃ m : Amendment, m.id = ⟨1⟩ ∧ m.input = .rise 1 .once := by
  have accepted : (Definition.rise 1 .once).check.isOk = true := by decide +kernel
  cases checks : (Definition.rise 1 .once).check with
  | error flaw =>
    rw [checks] at accepted
    cases accepted
  | ok checked =>
    exact ⟨{ id := ⟨1⟩, input := .rise 1 .once, checked, accepted := checks, now := 20 }, rfl, rfl⟩

theorem stamp_between_is_lost :
    ∃ m : Amendment, m.input = .rise 1 .once ∧
      ∃ b, (run m { watch := onceWatch, rivalry := onceFires.begin }
          [.rival, .update, .rival, .update, .rival]).store.find? ⟨1⟩ = some b ∧
        (m.redefines (Timeline.riser 1 "600519" 0)).SameDefinition b ∧
        b.lifecycle = (none, false) := by
  obtain ⟨m, named, input⟩ := rise_amends
  have found : onceWatch.desk.store.find? m.id = some (Timeline.riser 1 "600519" 0) := by
    rw [named]
    rfl
  obtain ⟨b, stored, same, left⟩ :=
    writes_between_are_lost m onceWatch onceFires [.rival, .update, .rival, .update, .rival]
      (Timeline.riser 1 "600519" 0) found named.symm (by decide) (by decide)
  rw [named] at stored
  exact ⟨m, input, b, stored, same, left⟩

theorem update_reverts_a_fire :
    ¬ ∀ (m : Amendment) (w : Watch) (rival : Rival) (turns : List Turn) (a : Alert),
      w.desk.store.find? m.id = some a → rival.About m.id → turns.count .update = 2 →
      rival.calls ≤ turns.count .rival →
      ∃ b, (run m { watch := w, rivalry := rival.begin } turns).store.find? m.id = some b ∧
        (m.redefines a).SameDefinition b ∧ b.lifecycle = rival.leaves [] a := by
  intro kept
  obtain ⟨m, named, -⟩ := rise_amends
  have found : onceWatch.desk.store.find? m.id = some (Timeline.riser 1 "600519" 0) := by
    rw [named]
    rfl
  have about : onceFires.About m.id := named.symm
  obtain ⟨b, stored, -, last⟩ := kept m onceWatch onceFires (schedule 0 3 0) _ found about
    (by decide) (by decide)
  obtain ⟨-, c, storedToo, -, left⟩ := run_schedule about found 0 3 0
  rw [stored] at storedToo
  cases storedToo
  rw [onceFires.writes_none, onceFires.writes_none, last] at left
  exact absurd (congrArg Prod.fst left) (by decide)

end Race

end TickerWatch
