import TickerWatch.Proofs.Desk.Ownership
import TickerWatch.Proofs.Monitor.Patience

namespace TickerWatch

structure Watch.Undergoes (w : Watch) (fires : List Fire) (after : Watch) : Prop where
  desk : w.desk.Undergoes fires after.desk
  told : after.desk.feed.notifications = w.desk.feed.notifications ++ fires.map Fire.notification

namespace Watch

variable {w mid after : Watch} {fires later : List Fire}

theorem Undergoes.none (w : Watch) : w.Undergoes [] w := ⟨.none w.desk, by simp⟩

theorem Undergoes.trans (first : w.Undergoes fires mid) (second : mid.Undergoes later after) :
    w.Undergoes (fires ++ later) after where
  desk := first.desk.trans second.desk
  told := by rw [second.told, first.told, List.map_append, List.append_assoc]

theorem process_undergoes (w : Watch) (e : Surroundings) (a : Alert) (x : Snapshot) :
    ∃ fires, (∀ f ∈ fires, f.e = e) ∧ w.Undergoes fires (w.process e a x).2 := by
  rw [process_eq]
  split
  · exact ⟨[], List.forall_mem_nil _, .none w⟩
  · exact ⟨[], List.forall_mem_nil _, .none w⟩
  · rename_i v _
    split
    · let f : Fire := { copy := a, snapshot := x, message := v.message, e }
      have told := w.firing_notifications e a x v.message
      exact ⟨[f], by simp [f], (Desk.fire_undergoes w.desk f).congr rfl, told⟩
    · exact ⟨[], List.forall_mem_nil _, .none w⟩

theorem processAll_undergoes (w : Watch) (e : Surroundings) (snapshot : String → Option Snapshot)
    (as : List Alert) :
    ∃ fires, (∀ f ∈ fires, f.e = e) ∧ w.Undergoes fires (w.processAll e snapshot as).2 := by
  induction as generalizing w with
  | nil => exact ⟨[], List.forall_mem_nil _, .none w⟩
  | cons a as ih =>
    cases seen : snapshot a.code with
    | none =>
      simp only [processAll, seen]
      exact ih w
    | some x =>
      simp only [processAll, seen]
      obtain ⟨fires, moment, first⟩ := w.process_undergoes e a x
      obtain ⟨later, momentToo, rest⟩ := ih (w.process e a x).2
      refine ⟨fires ++ later, fun f member => ?_, first.trans rest⟩
      rcases List.mem_append.mp member with before | after
      · exact moment f before
      · exact momentToo f after

theorem judgeOne_undergoes (w : Watch) (e : Surroundings) (p : Pass) :
    ∃ fires, (∀ f ∈ fires, f.e = e) ∧ w.Undergoes fires (w.judgeOne e p).2 := by
  unfold judgeOne
  split
  · exact ⟨[], List.forall_mem_nil _, .none w⟩
  · exact w.processAll_undergoes e p.snapshot p.alerts

end Watch

namespace Timeline

def surroundingsAt (t : Timeline) (time : Nat) : Surroundings := { t with time }.surroundings

structure Undergoes (t : Timeline) (fires : List Fire) (after : Timeline) : Prop where
  watch : t.watch.Undergoes fires after.watch
  forward : t.time ≤ after.time
  setting : after.outages = t.outages ∧ after.clockOffset = t.clockOffset
  moments : ∀ f ∈ fires, ∃ time, t.time ≤ time ∧ time ≤ after.time ∧ f.e = t.surroundingsAt time

variable {t u after : Timeline} {fires later : List Fire} {l : Loop} {doings : List Doing}
  {next : Option Phase} {p : Pass}

theorem Undergoes.quiet (watch : after.watch = t.watch) (forward : t.time ≤ after.time)
    (setting : after.outages = t.outages ∧ after.clockOffset = t.clockOffset) :
    t.Undergoes [] after :=
  ⟨watch ▸ .none t.watch, forward, setting, List.forall_mem_nil _⟩

theorem Undergoes.trans (first : t.Undergoes fires u) (second : u.Undergoes later after) :
    t.Undergoes (fires ++ later) after where
  watch := first.watch.trans second.watch
  forward := Nat.le_trans first.forward second.forward
  setting := ⟨second.setting.1.trans first.setting.1, second.setting.2.trans first.setting.2⟩
  moments f member := by
    have same : u.surroundingsAt = t.surroundingsAt := by
      funext time
      simp only [surroundingsAt, surroundings, clock, first.setting.1, first.setting.2]
    rcases List.mem_append.mp member with before | rest
    · obtain ⟨time, early, late, moment⟩ := first.moments f before
      exact ⟨time, early, Nat.le_trans late second.forward, moment⟩
    · obtain ⟨time, early, late, moment⟩ := second.moments f rest
      exact ⟨time, Nat.le_trans first.forward early, late, same ▸ moment⟩

theorem Undergoes.now {watch : Watch} (undergoes : t.watch.Undergoes fires watch)
    (moment : ∀ f ∈ fires, f.e = t.surroundings) (watched : after.watch = watch)
    (time : after.time = t.time)
    (setting : after.outages = t.outages ∧ after.clockOffset = t.clockOffset) :
    t.Undergoes fires after where
  watch := watched ▸ undergoes
  forward := Nat.le_of_eq time.symm
  setting := setting
  moments f member := ⟨t.time, Nat.le_refl _, Nat.le_of_eq time.symm, moment f member⟩

theorem Does.undergoes (does : t.Does l doings next after) : ∃ fires, t.Undergoes fires after := by
  cases does with
  | @ends p ticks done =>
    obtain ⟨fires, moment, undergoes⟩ :=
      t.watch.processAll_undergoes t.surroundings p.snapshot p.alerts
    exact ⟨fires, .now undergoes moment rfl rfl ⟨rfl, rfl⟩⟩
  | _ => exact ⟨[], .quiet rfl (Nat.le_refl _) ⟨rfl, rfl⟩⟩

theorem settleFrom_undergoes (fuel : Nat) (t : Timeline) :
    ∃ fires, t.Undergoes fires (settleFrom fuel t) := by
  induction fuel generalizing t with
  | zero => exact ⟨[], .quiet rfl (Nat.le_refl _) ⟨rfl, rfl⟩⟩
  | succ fuel ih =>
    unfold settleFrom
    cases found : t.polling.loops.findSome? t.stepLoop? with
    | none => exact ⟨[], .quiet rfl (Nat.le_refl _) ⟨rfl, rfl⟩⟩
    | some after =>
      obtain ⟨l, -, doings, next, does⟩ := findStep_does found
      obtain ⟨fires, first⟩ := does.undergoes
      obtain ⟨later, rest⟩ := ih after
      exact ⟨fires ++ later, first.trans rest⟩

theorem settle_later_undergoes (t : Timeline) {time : Nat} (forward : t.time ≤ time) :
    ∃ fires, t.Undergoes fires ({ t with time }.settle) := by
  have wait : t.Undergoes [] { t with time } := .quiet rfl forward ⟨rfl, rfl⟩
  obtain ⟨fires, settles⟩ := settleFrom_undergoes
    (stepsAtOnce * t.polling.loops.length) { t with time }
  exact ⟨[] ++ fires, wait.trans settles⟩

theorem advance_undergoes (t : Timeline) (p : Pass) : t.Undergoes [] (t.advance p).2 :=
  .quiet rfl (Nat.le_refl _) ⟨rfl, rfl⟩

theorem Resumes.undergoes (resumes : t.Resumes p u) : ∃ fires, t.Undergoes fires u := by
  have asked := t.advance_undergoes p
  cases resumes with
  | @due time ends first =>
    have forward := (Pass.slow_lt (m := t.market) (Pass.advance_stuck p) ends).1
    exact ⟨[], .quiet rfl (Nat.le_of_lt forward) ⟨rfl, rfl⟩⟩
  | @early time due ends next sooner =>
    obtain ⟨fires, settles⟩ :=
      (t.advance p).2.settle_later_undergoes (Nat.le_max_left t.time due)
    exact ⟨[] ++ fires, asked.trans settles⟩

theorem complete_undergoes (fuel : Nat) (t : Timeline) (p : Pass) :
    ∃ fires, t.Undergoes fires (complete fuel t p).2 := by
  induction fuel generalizing t p with
  | zero => exact ⟨[], .quiet rfl (Nat.le_refl _) ⟨rfl, rfl⟩⟩
  | succ fuel ih =>
    rcases complete_cases fuel t p with ⟨-, same⟩ | ⟨u, resumes, same⟩
    · rw [same]
      exact ⟨[], t.advance_undergoes p⟩
    · rw [same]
      obtain ⟨fires, first⟩ := resumes.undergoes
      obtain ⟨later, rest⟩ := ih u (t.advance p).1
      exact ⟨fires ++ later, first.trans rest⟩

theorem tick_undergoes (t : Timeline) : ∃ fires, t.Undergoes fires t.tick.2 := by
  unfold tick
  split
  · exact ⟨[], .quiet rfl (Nat.le_refl _) ⟨rfl, rfl⟩⟩
  · rename_i listing _
    obtain ⟨fires, waits⟩ := complete_undergoes (t.patience listing) t listing
    rw [← finish] at waits
    generalize t.finish listing = finished at waits
    obtain ⟨p, u⟩ := finished
    obtain ⟨later, moment, judges⟩ :=
      u.watch.processAll_undergoes u.surroundings p.snapshot p.alerts
    exact ⟨fires ++ later, waits.trans (.now judges moment rfl rfl ⟨rfl, rfl⟩)⟩

theorem checkStock_undergoes (t : Timeline) (code : String) :
    ∃ fires, t.Undergoes fires (t.checkStock code).2 := by
  unfold checkStock
  split
  · exact ⟨[], .quiet rfl (Nat.le_refl _) ⟨rfl, rfl⟩⟩
  · rename_i listing _
    obtain ⟨fires, waits⟩ := complete_undergoes (t.patience listing) t listing
    rw [← finish] at waits
    generalize t.finish listing = finished at waits
    obtain ⟨p, u⟩ := finished
    obtain ⟨later, moment, judges⟩ := u.watch.judgeOne_undergoes u.surroundings p
    exact ⟨fires ++ later, waits.trans (.now judges moment rfl rfl ⟨rfl, rfl⟩)⟩

theorem runUntil_undergoes {stop : Nat} (fuel : Nat) (forward : t.time ≤ stop) :
    ∃ fires, t.Undergoes fires (runUntil stop fuel t) ∧ (runUntil stop fuel t).time ≤ stop := by
  induction fuel generalizing t with
  | zero => exact ⟨[], .quiet rfl (Nat.le_refl _) ⟨rfl, rfl⟩, forward⟩
  | succ fuel ih =>
    unfold runUntil
    split
    · rename_i time _
      split
      · rename_i soon
        obtain ⟨fires, settles⟩ := t.settle_later_undergoes (Nat.le_max_right time t.time)
        have ahead : ({ t with time := max time t.time }.settle).time ≤ stop := by
          rw [settle_time]
          exact Nat.max_le.mpr ⟨soon, forward⟩
        obtain ⟨later, rest, ended⟩ := ih ahead
        exact ⟨fires ++ later, settles.trans rest, ended⟩
      · exact ⟨[], .quiet rfl (Nat.le_refl _) ⟨rfl, rfl⟩, forward⟩
    · exact ⟨[], .quiet rfl (Nat.le_refl _) ⟨rfl, rfl⟩, forward⟩

theorem sleep_undergoes (t : Timeline) (duration : Nat) :
    ∃ fires, t.Undergoes fires (t.sleep duration) := by
  have forward : t.time ≤ waitEnd t.time duration := Nat.le_add_right _ _
  obtain ⟨fires, runs, ended⟩ := runUntil_undergoes duration forward
  have wait : (runUntil (waitEnd t.time duration) duration t).Undergoes [] (t.sleep duration) :=
    .quiet rfl ended ⟨rfl, rfl⟩
  exact ⟨fires ++ [], runs.trans wait⟩

end Timeline

inductive Operation where
  | request (r : Request)
  | fire (copy : Alert) (x : Snapshot) (message : String)
  | tick
  | check (code : String)
  | wait (duration : Nat)

def Operation.request? : Operation → Option Request
  | request r => some r
  | _ => none

theorem Operation.request?_some {op : Operation} {r : Request} (asked : op.request? = some r) :
    op = .request r := by
  cases op with
  | request r => cases asked; rfl
  | _ => cases asked

namespace Timeline

variable {t after : Timeline} {fires : List Fire} {op : Operation}

def operate (t : Timeline) : Operation → Timeline
  | .request r => (t.onDesk fun d e => d.serve e r).2
  | .fire copy x message =>
    (t.onDesk fun d e =>
      let (n, d) := d.fire e copy x message
      (.ok n, d)).2
  | .tick => t.tick.2
  | .check code => (t.checkStock code).2
  | .wait duration => t.sleep duration

/-- The fires of an operation: none for a request, and otherwise the one that was called for or
those of which notifications were sent, each with the time that the clock showed then. -/
def Called (t : Timeline) (op : Operation) (fires : List Fire) : Prop :=
  match op with
  | .request _ => fires = []
  | .fire copy snapshot message => fires = [{ copy, snapshot, message, e := t.surroundings }]
  | _ =>
    (t.operate op).feed.notifications = t.feed.notifications ++ fires.map Fire.notification ∧
      ∀ f ∈ fires, ∃ time, t.time ≤ time ∧ time ≤ (t.operate op).time ∧
        f.e = t.surroundingsAt time

theorem operate_undergoes (t : Timeline) (other : op.request? = none) :
    ∃ fires, t.Called op fires ∧ t.watch.desk.Undergoes fires (t.operate op).watch.desk := by
  have passes : ∀ after : Timeline, (∃ fires, t.Undergoes fires after) →
      ∃ fires, (after.feed.notifications = t.feed.notifications ++ fires.map Fire.notification ∧
        ∀ f ∈ fires, ∃ time, t.time ≤ time ∧ time ≤ after.time ∧ f.e = t.surroundingsAt time) ∧
        t.watch.desk.Undergoes fires after.watch.desk := by
    rintro after ⟨fires, undergoes⟩
    exact ⟨fires, ⟨undergoes.watch.told, undergoes.moments⟩, undergoes.watch.desk⟩
  cases op with
  | request r => cases other
  | fire copy x message => exact ⟨_, rfl, Desk.fire_undergoes t.watch.desk ⟨copy, x, message, _⟩⟩
  | tick => exact passes _ t.tick_undergoes
  | check code => exact passes _ (t.checkStock_undergoes code)
  | wait duration => exact passes _ (t.sleep_undergoes duration)

theorem operate_grows (t : Timeline) (op : Operation) :
    ∃ entries, (t.operate op).store.history = t.store.history ++ entries := by
  cases asked : op.request? with
  | some r =>
    obtain rfl := Operation.request?_some asked
    refine ⟨[], ?_⟩
    rw [List.append_nil]
    exact (Desk.serve_frame t.watch.desk t.surroundings r).1
  | none =>
    obtain ⟨-, -, -, entries, grown, -⟩ := t.operate_undergoes asked
    exact ⟨entries, grown⟩

theorem run_grows (t : Timeline) (ops : List Operation) :
    ∃ entries, (ops.foldl operate t).store.history = t.store.history ++ entries := by
  induction ops generalizing t with
  | nil => exact ⟨[], (List.append_nil _).symm⟩
  | cons op ops ih =>
    obtain ⟨entries, grown⟩ := t.operate_grows op
    obtain ⟨more, rest⟩ := ih (t.operate op)
    exact ⟨entries ++ more, by rw [List.foldl_cons, rest, grown, List.append_assoc]⟩

end Timeline

end TickerWatch
