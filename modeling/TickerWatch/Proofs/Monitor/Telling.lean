import Mathlib.Data.List.Forall2
import TickerWatch.Proofs.Desk.Fires
import TickerWatch.Proofs.Monitor.Scene

namespace TickerWatch

structure HistoryEntry.Matches (h : HistoryEntry) (n : Notification) : Prop where
  alertId : h.alertId = n.alertId
  code : h.code = n.code
  name : h.name = n.name
  alertType : h.alertType = n.alertType
  triggerPrice : h.triggerPrice = n.triggerPrice
  message : h.message = n.message
  triggeredAt : h.triggeredAt = n.triggeredAt

def Firing.owed? (f : Firing) : Option Notification :=
  match f.stage with
  | .passed => none
  | .recorded now | .stamped now | .retired now =>
    some (Desk.notification f.copy f.snapshot f.message now)

def Firing.tells (f : Firing) : List Notification :=
  match f.stage with
  | .retired now => [Desk.notification f.copy f.snapshot f.message now]
  | _ => []

def toCallback (sent : List (Option Callback × Notification)) : List (Callback × Notification) :=
  sent.filterMap fun b => b.1.map fun c => (c, b.2)

theorem Firing.advance_sends (f : Firing) (w : Watch) (e : Surroundings) :
    (f.advance w e).2.desk.feed.notifications = w.desk.feed.notifications ++ f.tells ∧
      (f.advance w e).2.handed = w.handed ++ toCallback (f.tells.map fun n => (w.callback, n)) := by
  cases stage : f.stage with
  | passed => simp [advance, tells, stage, toCallback]
  | recorded now => simp [advance, tells, stage, toCallback]
  | stamped now =>
    have rewrites := Desk.retire_rewrites w.desk { e with now } f.copy
    simp [advance, tells, stage, toCallback, rewrites.notifications]
  | retired now =>
    cases callback : w.callback <;>
      simp [advance, tells, stage, toCallback, Watch.dispatch, Desk.send, callback]

/-- Every entry that a step writes has its notification owed from then on, until it is sent. -/
theorem Firing.advance_owes {f : Firing} {w : Watch} {e : Surroundings}
    (works : e.outages.Works (.appendHistory f.copy.id)) :
    ∃ entries told, (f.advance w e).2.desk.store.history = w.desk.store.history ++ entries ∧
      List.Forall₂ HistoryEntry.Matches entries told ∧
      f.owed?.toList ++ told = f.tells ++ ((f.advance w e).1.bind Firing.owed?).toList := by
  cases stage : f.stage with
  | passed =>
    have records : e.outages.fails (.appendHistory f.copy.id) = false :=
      Outages.fails_eq_false.mpr works
    have history := w.desk.record_history e f.copy f.snapshot f.message
    simp only [records, Bool.false_eq_true, ↓reduceIte] at history
    refine ⟨[Desk.historyEntry w.desk.nextId f.copy f.snapshot f.message e.now],
      [Desk.notification f.copy f.snapshot f.message e.now], ?_,
      .cons ⟨rfl, rfl, rfl, rfl, rfl, rfl, rfl⟩ .nil, by simp [owed?, tells, advance, stage]⟩
    simp only [advance, stage]
    exact history
  | recorded now =>
    have rewrites := Desk.stamp_rewrites w.desk { e with now } f.copy
    exact ⟨[], [], by simp [advance, stage, rewrites.history], .nil,
      by simp [owed?, tells, advance, stage]⟩
  | stamped now =>
    have rewrites := Desk.retire_rewrites w.desk { e with now } f.copy
    exact ⟨[], [], by simp [advance, stage, rewrites.history], .nil,
      by simp [owed?, tells, advance, stage]⟩
  | retired now =>
    exact ⟨[], [], by simp [advance, stage, Watch.dispatch, Desk.send], .nil,
      by simp [owed?, tells, advance, stage]⟩

inductive Move where
  | act (act : Act)
  | listen (callback : Option Callback)

def Move.Recorded : Move → Prop
  | act (.advance _ e) => ∀ id, e.outages.Works (.appendHistory id)
  | _ => True

namespace Scene

def move (s : Scene) : Move → Scene
  | .act a => s.step a
  | .listen callback => { s with watch := { s.watch with callback } }

def follow (s : Scene) : List Move → Scene
  | [] => s
  | m :: ms => (s.move m).follow ms

def Suits (s : Scene) : Move → Prop
  | .act a => s.Alone a
  | .listen _ => True

def Suiting (s : Scene) : List Move → Prop
  | [] => True
  | m :: ms => s.Suits m ∧ (s.move m).Suiting ms

instance (s : Scene) : ∀ m, Decidable (s.Suits m)
  | .act a => instDecidableAlone s a
  | .listen _ => .isTrue trivial

instance decidableSuiting (s : Scene) : ∀ moves, Decidable (s.Suiting moves)
  | [] => .isTrue trivial
  | m :: ms =>
    have := decidableSuiting (s.move m) ms
    inferInstanceAs (Decidable (s.Suits m ∧ (s.move m).Suiting ms))

def broadcast (s : Scene) (m : Move) : List (Option Callback × Notification) :=
  ((s.move m).desk.feed.notifications.drop s.desk.feed.notifications.length).map
    fun n => (s.watch.callback, n)

def broadcasts (s : Scene) : List Move → List (Option Callback × Notification)
  | [] => []
  | m :: ms => s.broadcast m ++ (s.move m).broadcasts ms

variable {s : Scene}

theorem follow_append (s : Scene) (before after : List Move) :
    s.follow (before ++ after) = (s.follow before).follow after := by
  induction before generalizing s with
  | nil => rfl
  | cons m ms ih => exact ih (s.move m)

theorem suiting_append {before after : List Move} :
    s.Suiting (before ++ after) ↔ s.Suiting before ∧ (s.follow before).Suiting after := by
  induction before generalizing s with
  | nil => simp [Suiting, follow]
  | cons m ms ih => simp only [List.cons_append, Suiting, follow, ih, and_assoc]

def telling (s : Scene) : Move → List Notification
  | .act (.advance i _) => s.firings[i]?.toList.flatMap Firing.tells
  | _ => []

theorem move_sends (s : Scene) (m : Move) :
    (s.move m).desk.feed.notifications = s.desk.feed.notifications ++ s.telling m ∧
      (s.move m).watch.handed =
        s.watch.handed ++ toCallback ((s.telling m).map fun n => (s.watch.callback, n)) := by
  cases m with
  | listen callback => simp [move, telling, toCallback, desk]
  | act a =>
    cases a with
    | request e r =>
      have frame := (Desk.serve_frame s.desk e r).2.1
      rcases frame with same | noted
      · simp [move, step, desk, telling, toCallback, same]
      · simp [move, step, desk, telling, toCallback, noted]
    | tick e => simp [move, step, desk, telling, toCallback]
    | check e code => simp [move, step, desk, telling, toCallback]
    | judge i snapshot e =>
      cases found : s.copies[i]? <;> simp [move, step, telling, toCallback, found]
    | advance i e =>
      cases found : s.firings[i]? with
      | none => simp [move, step, telling, toCallback, found]
      | some f =>
        obtain ⟨sent, handed⟩ := f.advance_sends s.watch e
        have moved : (s.move (.act (.advance i e))).watch = (f.advance s.watch e).2 :=
          step_advance found
        have told : s.telling (.act (.advance i e)) = f.tells := by simp [telling, found]
        rw [told]
        exact ⟨(congrArg (fun w => w.desk.feed.notifications) moved).trans sent,
          (congrArg Watch.handed moved).trans handed⟩

theorem broadcast_eq (s : Scene) (m : Move) :
    s.broadcast m = (s.telling m).map fun n => (s.watch.callback, n) := by
  rw [broadcast, (s.move_sends m).1, List.drop_left]

theorem follow_broadcasts (s : Scene) (moves : List Move) :
    (s.follow moves).desk.feed.notifications =
        s.desk.feed.notifications ++ (s.broadcasts moves).map Prod.snd ∧
      (s.follow moves).watch.handed = s.watch.handed ++ toCallback (s.broadcasts moves) := by
  induction moves generalizing s with
  | nil => simp [follow, broadcasts, toCallback]
  | cons m ms ih =>
    obtain ⟨sent, handed⟩ := s.move_sends m
    obtain ⟨sentLater, handedLater⟩ := ih (s.move m)
    rw [follow, sentLater, handedLater, sent, handed, ← broadcast_eq]
    simp [broadcasts, broadcast_eq, toCallback, Function.comp_def]

theorem move_single {m : Move} (single : s.firings.length ≤ 1) (suits : s.Suits m) :
    (s.move m).firings.length ≤ 1 := by
  cases m with
  | listen callback => exact single
  | act a =>
    cases a with
    | request e r => exact single
    | tick e =>
      obtain ⟨listing, -, listed⟩ := s.tick_lists e
      rw [move, listed]
      exact single
    | check e code =>
      obtain ⟨listing, -, listed⟩ := s.check_lists e code
      rw [move, listed]
      exact single
    | judge i snapshot e =>
      have alone : s.firings = [] := suits
      cases found : s.copies[i]? with
      | none => simpa [move, step, found] using single
      | some copy =>
        simp only [move, step, found, alone, List.nil_append]
        exact Option.length_toList_le
    | advance i e =>
      cases found : s.firings[i]? with
      | none => simpa [move, step, found] using single
      | some f =>
        obtain ⟨only, rfl⟩ := sole single found
        rw [move, advance_sole only]
        exact Option.length_toList_le

theorem follow_single {moves : List Move} (single : s.firings.length ≤ 1)
    (suits : s.Suiting moves) : (s.follow moves).firings.length ≤ 1 := by
  induction moves generalizing s with
  | nil => exact single
  | cons m ms ih => exact ih (move_single single suits.1) suits.2

def owed (s : Scene) : List Notification := s.firings.filterMap Firing.owed?

theorem owed_split {i : Nat} {f : Firing} (e : Surroundings) (found : s.firings[i]? = some f) :
    ∃ before after, s.owed = before ++ f.owed?.toList ++ after ∧
      (s.step (.advance i e)).owed =
        before ++ ((f.advance s.watch e).1.bind Firing.owed?).toList ++ after ∧
      (s.firings.length ≤ 1 → before = [] ∧ after = []) := by
  obtain ⟨bound, reached⟩ := List.getElem?_eq_some_iff.mp found
  have among : ∀ g : Option Firing,
      (s.firings.take i ++ (g.toList ++ s.firings.drop (i + 1))).filterMap Firing.owed? =
        (s.firings.take i).filterMap Firing.owed? ++ (g.bind Firing.owed?).toList ++
          (s.firings.drop (i + 1)).filterMap Firing.owed? := by
    intro g
    rw [List.filterMap_append, List.filterMap_append, List.append_assoc]
    cases g with
    | none => rfl
    | some g => cases owes : g.owed? <;> simp [owes]
  have here : s.firings =
      s.firings.take i ++ ((some f).toList ++ s.firings.drop (i + 1)) := by
    rw [Option.toList_some, List.singleton_append, ← reached, ← List.drop_eq_getElem_cons bound,
      List.take_append_drop]
  have later : (s.step (.advance i e)).firings = s.firings.take i ++
      ((f.advance s.watch e).1.toList ++ s.firings.drop (i + 1)) := by
    simp only [step, found]
    cases (f.advance s.watch e).1 with
    | none => exact List.eraseIdx_eq_take_drop_succ ..
    | some g =>
      have put : s.firings.set i g = s.firings.take i ++ g :: s.firings.drop (i + 1) := by
        rw [List.set_eq_take_append_cons_drop, if_pos bound]
      exact put
  refine ⟨_, _, (congrArg (List.filterMap Firing.owed?) here).trans (among (some f)),
    (congrArg (List.filterMap Firing.owed?) later).trans (among _), fun single => ?_⟩
  obtain ⟨only, rfl⟩ := sole single found
  simp [only]

/-- Between two scenes of a run, entries have been written and notifications sent. The entries match
what was sent or is owed now and was not owed before. -/
def Balanced (s after : Scene) (sent : List Notification) (orderly : Prop) : Prop :=
  ∃ entries told, after.store.history = s.store.history ++ entries ∧
    List.Forall₂ HistoryEntry.Matches entries told ∧
    (s.owed ++ told).Perm (sent ++ after.owed) ∧ (orderly → s.owed ++ told = sent ++ after.owed)

theorem Balanced.same {after : Scene} (orderly : Prop)
    (history : after.store.history = s.store.history) (owed : after.owed = s.owed) :
    s.Balanced after [] orderly :=
  ⟨[], [], by simp [history], .nil, by simp [owed], by simp [owed]⟩

theorem Balanced.trans {mid after : Scene} {sent sentLater : List Notification} {p q r : Prop}
    (first : s.Balanced mid sent p) (second : mid.Balanced after sentLater q)
    (orderly : r → p ∧ q) : s.Balanced after (sent ++ sentLater) r := by
  obtain ⟨entries, told, history, matched, perm, order⟩ := first
  obtain ⟨entriesLater, toldLater, historyLater, matchedLater, permLater, orderLater⟩ := second
  refine ⟨entries ++ entriesLater, told ++ toldLater, ?_, List.rel_append matched matchedLater,
    ?_, fun ordered => ?_⟩
  · rw [historyLater, history, List.append_assoc]
  · have both := perm.append_right toldLater
    rw [List.append_assoc, List.append_assoc] at both
    rw [List.append_assoc]
    exact both.trans (permLater.append_left sent)
  · rw [← List.append_assoc, order (orderly ordered).1, List.append_assoc,
      orderLater (orderly ordered).2, List.append_assoc]

theorem advance_balanced {i : Nat} {f : Firing} {e : Surroundings}
    (found : s.firings[i]? = some f) (works : e.outages.Works (.appendHistory f.copy.id)) :
    s.Balanced (s.step (.advance i e)) f.tells (s.firings.length ≤ 1) := by
  obtain ⟨entries, told, history, matched, balance⟩ := Firing.advance_owes (w := s.watch) works
  obtain ⟨before, after, owes, left, sole⟩ := owed_split e found
  refine ⟨entries, told, ?_, matched, ?_, fun single => ?_⟩
  · rw [← history, store, step_advance found]
  · have swapped : (before ++ (f.owed?.toList ++ told) ++ after).Perm
        (f.tells ++ (before ++ ((f.advance s.watch e).1.bind Firing.owed?).toList ++ after)) := by
      rw [balance, ← List.append_assoc, ← List.append_assoc, ← List.append_assoc]
      exact (List.perm_append_comm.append_right _).append_right _
    have first : (before ++ f.owed?.toList ++ after ++ told).Perm
        (before ++ (f.owed?.toList ++ told) ++ after) := by
      simp only [List.append_assoc]
      exact (List.perm_append_comm.append_left _).append_left _
    rw [owes, left]
    exact first.trans swapped
  · obtain ⟨rfl, rfl⟩ := sole single
    rw [owes, left]
    simpa using balance

theorem move_balanced {m : Move} (recorded : m.Recorded) :
    s.Balanced (s.move m) (s.telling m) (s.firings.length ≤ 1) := by
  -- Only the steps of fires write entries and send notifications.
  cases m with
  | listen callback => exact .same _ rfl rfl
  | act a =>
    cases a with
    | request e r => exact .same _ (s.step_history (.request e r) nofun) rfl
    | tick e =>
      obtain ⟨listing, -, listed⟩ := s.tick_lists e
      exact .same _ (s.step_history (.tick e) nofun) (by rw [move, listed]; rfl)
    | check e code =>
      obtain ⟨listing, -, listed⟩ := s.check_lists e code
      exact .same _ (s.step_history (.check e code) nofun) (by rw [move, listed]; rfl)
    | judge i snapshot e =>
      refine .same _ (s.step_history (.judge i snapshot e) nofun) ?_
      cases found : s.copies[i]? with
      | none => simp [move, step, found]
      | some copy =>
        have fresh : (snapshot.bind (s.watch.judgeCopy e copy)).toList.filterMap Firing.owed? =
            [] := by
          rw [List.filterMap_eq_nil_iff]
          intro f member
          obtain ⟨x, -, judged⟩ := Option.bind_eq_some_iff.mp (Option.mem_toList.mp member)
          have passed := (Watch.judgeCopy_some judged).2.1
          simp only [Firing.owed?, passed]
        simp only [move, step, found, owed, List.filterMap_append, fresh, List.append_nil]
    | advance i e =>
      cases found : s.firings[i]? with
      | none =>
        have still : s.move (.act (.advance i e)) = s := by simp only [move, step, found]
        have quiet : s.telling (.act (.advance i e)) = [] := by simp [telling, found]
        rw [still, quiet]
        exact .same _ rfl rfl
      | some f =>
        have tells : s.telling (.act (.advance i e)) = f.tells := by simp [telling, found]
        rw [tells]
        exact advance_balanced found (recorded f.copy.id)

theorem follow_balanced {moves : List Move} (recorded : ∀ m ∈ moves, m.Recorded) :
    s.Balanced (s.follow moves) ((s.broadcasts moves).map Prod.snd)
      (s.firings.length ≤ 1 ∧ s.Suiting moves) := by
  induction moves generalizing s with
  | nil => exact .same _ rfl rfl
  | cons m ms ih =>
    have first := s.move_balanced (recorded m List.mem_cons_self)
    have rest := ih (s := s.move m) fun m member => recorded m (List.mem_cons_of_mem _ member)
    have sends : (s.broadcasts (m :: ms)).map Prod.snd =
        s.telling m ++ ((s.move m).broadcasts ms).map Prod.snd := by
      simp [broadcasts, broadcast_eq, Function.comp_def]
    rw [sends]
    exact first.trans rest fun ⟨single, suits⟩ =>
      ⟨single, move_single single suits.1, suits.2⟩

/-- Requests and listings may come between two steps of a fire. All that they send are notes that
something has changed. -/
theorem move_between {f : Firing} {m : Move} (only : s.firings = [f]) (suits : s.Suits m)
    (still : ∀ i e, m ≠ .act (.advance i e)) :
    (s.move m).firings = [f] ∧ ∃ k, k ≤ 1 ∧
      (s.move m).desk.feed.sent = s.desk.feed.sent ++ List.replicate k .updated := by
  cases m with
  | listen callback => exact ⟨only, 0, Nat.zero_le 1, by simp [move, desk]⟩
  | act a =>
    cases a with
    | request e r =>
      refine ⟨only, ?_⟩
      show ∃ k, k ≤ 1 ∧ (s.desk.serve e r).2.feed.sent = _
      rcases (Desk.serve_frame s.desk e r).2.1 with same | noted
      · exact ⟨0, Nat.zero_le 1, by simp [same]⟩
      · exact ⟨1, Nat.le_refl 1, by simp [noted, Feed.send]⟩
    | tick e =>
      obtain ⟨listing, -, listed⟩ := s.tick_lists e
      rw [move, listed]
      exact ⟨only, 0, Nat.zero_le 1, by simp⟩
    | check e code =>
      obtain ⟨listing, -, listed⟩ := s.check_lists e code
      rw [move, listed]
      exact ⟨only, 0, Nat.zero_le 1, by simp⟩
    | judge i snapshot e =>
      have alone : s.firings = [] := suits
      rw [alone] at only
      cases only
    | advance i e => exact absurd rfl (still i e)

theorem follow_between {f : Firing} {moves : List Move} (only : s.firings = [f])
    (suits : s.Suiting moves) (still : ∀ i e, .act (.advance i e) ∉ moves) :
    (s.follow moves).firings = [f] ∧ ∃ k, k ≤ moves.length ∧
      (s.follow moves).desk.feed.sent = s.desk.feed.sent ++ List.replicate k .updated := by
  induction moves generalizing s with
  | nil => exact ⟨only, 0, Nat.le_refl 0, by simp [follow]⟩
  | cons m ms ih =>
    have first : ∀ i e, m ≠ .act (.advance i e) := by
      rintro i e rfl
      exact still i e List.mem_cons_self
    have rest : ∀ i e, .act (.advance i e) ∉ ms :=
      fun i e member => still i e (List.mem_cons_of_mem m member)
    obtain ⟨same, k, few, sent⟩ := move_between only suits.1 first
    obtain ⟨kept, l, fewLater, sentLater⟩ := ih same suits.2 rest
    refine ⟨kept, k + l, ?_, ?_⟩
    · rw [List.length_cons]
      omega
    · rw [follow, sentLater, sent, List.append_assoc, List.replicate_append_replicate]

theorem move_retires {e : Surroundings} {f : Firing} {now : Int} {written : Store}
    (only : s.firings = [f]) (stage : f.stage = .stamped now)
    (disables : f.copy.postTrigger.disables = true)
    (answers : e.outages.setActive s.store f.copy.id false now = .ok (some written)) :
    (s.move (.act (.advance 0 e))).firings = [{ f with stage := .retired now }] ∧
      (s.move (.act (.advance 0 e))).desk.feed.sent = s.desk.feed.sent ++ [.updated] := by
  have retired : s.desk.retire { e with now } f.copy = s.desk.commit written := by
    simp only [Desk.retire, disables, answers, ↓reduceIte]
  rw [move, advance_sole only]
  simp only [Firing.advance, stage, Option.toList_some, retired]
  exact ⟨trivial, rfl⟩

theorem move_tells {e : Surroundings} {f : Firing} {now : Int} (only : s.firings = [f])
    (stage : f.stage = .retired now) :
    (s.move (.act (.advance 0 e))).desk.feed.sent = s.desk.feed.sent ++
      [.triggered (Desk.notification f.copy f.snapshot f.message now)] := by
  rw [move, advance_sole only]
  simp only [Firing.advance, stage]
  rfl

/-- A fire that switches its alert off says so before it sends its notification. -/
theorem switch_noted {e later : Surroundings} {f : Firing} {now : Int} {between : List Move}
    {written : Store} (only : s.firings = [f]) (stage : f.stage = .stamped now)
    (disables : f.copy.postTrigger.disables = true)
    (answers : e.outages.setActive s.store f.copy.id false now = .ok (some written))
    (suits : (s.move (.act (.advance 0 e))).Suiting between)
    (still : ∀ i e, .act (.advance i e) ∉ between) :
    ∃ k, k ≤ between.length ∧
      (s.follow (.act (.advance 0 e) :: (between ++ [.act (.advance 0 later)]))).desk.feed.sent =
        s.desk.feed.sent ++ List.replicate (k + 1) .updated ++
          [.triggered (Desk.notification f.copy f.snapshot f.message now)] := by
  obtain ⟨one, noted⟩ := move_retires only stage disables answers
  obtain ⟨kept, k, few, sent⟩ := follow_between one suits still
  have told := move_tells (e := later) kept rfl
  refine ⟨k, few, ?_⟩
  rw [follow, follow_append, follow, follow, told, sent, noted]
  simp only [List.replicate_succ, List.append_assoc, List.cons_append, List.nil_append]

/-- However the acts of a run interleave, the callback is handed the notifications that are sent
while it is set, and if every entry is written and no fire is left under way, the entries that the
run has added to the history match its notifications one by one. If no two fires interleave, they do
so in order, and where the disabling write of a fire goes through, its note and those of requests
are all that is sent between it and the notification. -/
theorem fires_told_alike (s : Scene) (moves : List Move) (idle : s.firings = []) :
    (s.follow moves).desk.feed.notifications =
      s.desk.feed.notifications ++ (s.broadcasts moves).map Prod.snd ∧
    (s.follow moves).watch.handed = s.watch.handed ++ toCallback (s.broadcasts moves) ∧
    ((∀ m ∈ moves, m.Recorded) → (s.follow moves).firings = [] →
      ∃ entries told, (s.follow moves).store.history = s.store.history ++ entries ∧
        List.Forall₂ HistoryEntry.Matches entries told ∧
        told.Perm ((s.broadcasts moves).map Prod.snd) ∧
        (s.Suiting moves → told = (s.broadcasts moves).map Prod.snd)) ∧
    (s.Suiting moves → ∀ (before between after : List Move) (i : Nat) (e later : Surroundings)
      (f : Firing) (now : Int) (written : Store),
      moves = before ++ .act (.advance i e) :: (between ++ .act (.advance i later) :: after) →
      (s.follow before).firings[i]? = some f → f.stage = .stamped now →
      f.copy.postTrigger.disables = true →
      e.outages.setActive (s.follow before).store f.copy.id false now = .ok (some written) →
      (∀ j e', .act (.advance j e') ∉ between) →
      ∃ k, k ≤ between.length ∧
        (s.follow (before ++ .act (.advance i e) ::
          (between ++ [.act (.advance i later)]))).desk.feed.sent =
          (s.follow before).desk.feed.sent ++ List.replicate (k + 1) .updated ++
            [.triggered (Desk.notification f.copy f.snapshot f.message now)]) := by
  have single : s.firings.length ≤ 1 := by simp [idle]
  obtain ⟨sent, handed⟩ := s.follow_broadcasts moves
  refine ⟨sent, handed, ?_, ?_⟩
  · intro recorded ended
    obtain ⟨entries, told, history, matched, perm, order⟩ := s.follow_balanced recorded
    have none : s.owed = [] := by rw [owed, idle, List.filterMap_nil]
    have left : (s.follow moves).owed = [] := by rw [owed, ended, List.filterMap_nil]
    rw [none, left, List.nil_append, List.append_nil] at perm order
    exact ⟨entries, told, history, matched, perm, fun suits => order ⟨single, suits⟩⟩
  · rintro suits before between after i e later f now written rfl found stage disables answers still
    obtain ⟨early, first, rest⟩ := suiting_append.mp suits
    have middle := (suiting_append.mp rest).1
    obtain ⟨only, rfl⟩ := sole (follow_single single early) found
    rw [follow_append]
    exact switch_noted only stage disables answers middle still

def untilSwitch : List Move :=
  [.act (.request { now := 0 } (.create (.rise 0 .once))), .listen (some .recording),
    .act (.tick { now := 10 })] ++
    (turn 0 (some { changePercent := 6.2 }) { now := 20 } { now := 20 }).map .act ++
    [.act (.request { now := 30 } (.toggle ⟨1⟩)), .listen none, .act (.tick { now := 40 }),
      .act (.judge 0 (some { changePercent := 6.2 }) { now := 50 }),
      .act (.advance 0 { now := 51 }), .act (.advance 0 { now := 52 })]

def twoRises : List Move :=
  untilSwitch ++ .act (.advance 0 { now := 53 }) ::
    ([.act (.request { now := 54 } (.update ⟨1⟩ (.rise 0 .keepActive)))] ++
      [.act (.advance 0 { now := 55 })])

theorem untilSwitch_held :
    ∃ f written, (opening.follow untilSwitch).firings[0]? = some f ∧ f.stage = .stamped 51 ∧
      f.copy.postTrigger.disables = true ∧
      Outages.none.setActive (opening.follow untilSwitch).store f.copy.id false 51 =
        .ok (some written) := by
  let s := opening.follow untilSwitch
  have facts : (s.firings[0]?.bind fun f =>
      (Outages.none.setActive s.store f.copy.id false 51).toOption.join.map
        fun _ => (f.stage, f.copy.postTrigger.disables)) = some (.stamped 51, true) := by
    decide +kernel
  obtain ⟨f, found, facts⟩ := Option.bind_eq_some_iff.mp facts
  obtain ⟨written, answer, facts⟩ := Option.map_eq_some_iff.mp facts
  simp only [Prod.mk.injEq] at facts
  refine ⟨f, written, found, facts.1, facts.2, ?_⟩
  generalize Outages.none.setActive _ _ _ _ = outcome at answer
  cases outcome with
  | error reason => cases answer
  | ok held => exact congrArg _ answer

theorem two_rises_told_alike :
    (opening.broadcasts twoRises).map (fun b => (b.1, b.2.triggeredAt)) =
      [(some .recording, 20), (none, 51)] ∧
    (∃ entries, (opening.follow twoRises).store.history = [] ++ entries ∧
      List.Forall₂ HistoryEntry.Matches entries ((opening.broadcasts twoRises).map Prod.snd)) ∧
    (opening.follow twoRises).watch.handed = [] ++ toCallback (opening.broadcasts twoRises) ∧
    ∃ k n, (opening.follow twoRises).desk.feed.sent =
      (opening.follow untilSwitch).desk.feed.sent ++ List.replicate (k + 1) .updated ++
        [.triggered n] := by
  have suits : opening.Suiting twoRises := by decide +kernel
  have recorded : ∀ m ∈ twoRises, m.Recorded := by
    simp [twoRises, untilSwitch, turn, fire, Move.Recorded, Outages.Works, Outages.none]
  have idle : (opening.follow twoRises).firings = [] := by decide +kernel
  obtain ⟨-, handed, matching, switched⟩ := fires_told_alike opening twoRises rfl
  obtain ⟨entries, told, history, matched, -, order⟩ := matching recorded idle
  obtain ⟨f, written, found, stage, disables, answers⟩ := untilSwitch_held
  obtain ⟨k, -, sent⟩ := switched suits untilSwitch _ [] 0 { now := 53 } { now := 55 } f 51 written
    rfl found stage disables answers (by simp)
  exact ⟨by decide +kernel, ⟨entries, history, order suits ▸ matched⟩, handed, k, _, sent⟩

end Scene

end TickerWatch
