import TickerWatch.Http.Server
import TickerWatch.Proofs.Desk.Requests
import TickerWatch.Proofs.Json.Yields
import TickerWatch.Proofs.Monitor.Lapses

namespace TickerWatch

theorem Desk.Settles.untouched {α : Type} {d : Desk} {e : Surroundings} {r : Request}
    {receipt : α → Receipt} {o : Outcome α} {err : AlertError}
    (settles : d.Settles e r (handing receipt o)) (fails : o.1 = .error err) :
    d.Untouched o.2 := by
  obtain ⟨result, after⟩ := o
  obtain rfl : result = .error err := fails
  cases settles with
  | failed untouched => exact untouched

/-- Alerts, history, templates and events, and the settings of the monitor. -/
structure Timeline.Unaltered (t after : Timeline) : Prop where
  store : after.store = t.store
  feed : after.feed = t.feed
  callback : after.watch.callback = t.watch.callback
  handed : after.watch.handed = t.watch.handed
  polling : after.polling = t.polling

theorem Timeline.Unaltered.refl (t : Timeline) : t.Unaltered t := ⟨rfl, rfl, rfl, rfl, rfl⟩

theorem Timeline.Unaltered.of_silent {t after : Timeline} (same : t.silent = after.silent) :
    t.Unaltered after := by
  have watch : after.silent.watch = t.silent.watch := by rw [same]
  have watched : after.watch = t.watch := watch
  exact ⟨by rw [Timeline.store, watched], by rw [Timeline.feed, watched], by rw [watched],
    by rw [watched], (silent_polling same).symm⟩

namespace Http

variable {t after : Timeline} {r : Request} {a : Action} {result : Response × Timeline}

def Harmless (t : Timeline) (result : Response × Timeline) : Prop :=
  400 ≤ result.1.status → result.2.time = t.time ∧ t.Unaltered result.2

theorem harmless_same (response : Response) : Harmless t (response, t) :=
  fun _ => ⟨rfl, .refl t⟩

theorem harmless_done {response : Response} (succeeds : response.status < 400) :
    Harmless t (response, after) :=
  fun fails => absurd fails (Nat.not_le.mpr succeeds)

theorem onDesk_fails {α : Type} {op : Desk → Surroundings → Outcome α} {q : TickerWatch.Request}
    {receipt : α → Receipt} {err : AlertError}
    (settles : t.watch.desk.Settles t.surroundings q
      (Desk.handing receipt (op t.watch.desk t.surroundings)))
    (fails : t.onDesk op = (.error err, after)) : after.time = t.time ∧ t.Unaltered after := by
  have failed : (op t.watch.desk t.surroundings).1 = .error err := congrArg Prod.fst fails
  obtain rfl : (t.onDesk op).2 = after := congrArg Prod.snd fails
  obtain ⟨store, feed⟩ := (settles.untouched failed).frame
  exact ⟨rfl, store, feed, rfl, rfl, rfl⟩

theorem outcome_harmless {α : Type} {status : Nat} {f : α → Json.Value}
    (op : Desk → Surroundings → Outcome α) {q : TickerWatch.Request} {receipt : α → Receipt}
    (succeeds : status < 400)
    (settles : t.watch.desk.Settles t.surroundings q
      (Desk.handing receipt (op t.watch.desk t.surroundings))) :
    Harmless t (let (outcome, after) := t.onDesk op; (answer status f outcome, after)) := by
  split
  rename_i outcome after ran
  cases outcome with
  | ok value => exact harmless_done succeeds
  | error err => exact fun _ => onDesk_fails settles ran

section Handlers

variable {P : Response × Timeline → Prop} {handler : Except Rejection (Response × Timeline)}

def Answers (P : Response × Timeline → Prop)
    (handler : Except Rejection (Response × Timeline)) : Prop :=
  ∀ result, handler = .ok result → P result

theorem Answers.done (holds : P result) : Answers P (.ok result) := by
  rintro _ ⟨⟩
  exact holds

theorem Answers.reading {α : Type} {read : Except Rejection α}
    {f : α → Except Rejection (Response × Timeline)} (each : ∀ a, Answers P (f a)) :
    Answers P (read >>= f) := by
  intro result done
  obtain ⟨a, -, done⟩ := Json.bind_ok.mp done
  exact each a result done

theorem Answers.named {id : String} {f : RecordId → Response × Timeline}
    (each : ∀ id, P (f id)) (unnamed : P (.badId, t)) : Answers P (.ok (withId t id f)) := by
  apply Answers.done
  unfold withId
  split
  · exact each _
  · exact unnamed

theorem Answers.act (answers : Answers P (perform t r a)) (away : ∀ response, P (response, t)) :
    P (act t r a) := by
  unfold Http.act
  cases done : perform t r a with
  | ok result => exact answers result done
  | error rejection => exact away _

end Handlers

theorem perform_harmless (other : ∀ code, a ≠ .checkStock code) :
    Answers (Harmless t) (perform t r a) := by
  cases a with
  | checkStock code => exact absurd rfl (other code)
  | health | listAlerts | templates | status | openEvents => exact .done (harmless_same _)
  | start | stop => exact .done (harmless_done (show 200 < 400 by decide))
  | createAlert =>
    refine .reading fun input => .done ?_
    exact outcome_harmless (fun d e => d.create e input) (by decide)
      (Desk.create_settles (r := .create input) rfl)
  | getAlert id => exact .reading fun _ => .named (fun _ => harmless_same _) (harmless_same _)
  | updateAlert id =>
    refine .reading fun _ => .reading fun input => .named (fun id => ?_) (harmless_same _)
    exact outcome_harmless (fun d e => d.update e id input) (by decide)
      (Desk.update_settles id input)
  | deleteAlert id =>
    refine .reading fun _ => .named (fun id => ?_) (harmless_same _)
    split
    · exact harmless_done (show 204 < 400 by decide)
    · rename_i ran
      exact fun _ => onDesk_fails (Desk.delete_settles id) ran
  | toggleAlert id =>
    refine .reading fun _ => .named (fun id => ?_) (harmless_same _)
    exact outcome_harmless (fun d e => d.toggle e id) (by decide) (Desk.toggle_settles id)
  | alertHistory id =>
    exact .reading fun _ => .reading fun _ => .named (fun _ => harmless_same _) (harmless_same _)
  | history => exact .reading fun _ => .done (harmless_same _)
  | instantiate template =>
    refine .reading fun template => .reading fun asked => .done ?_
    exact outcome_harmless
      (fun d e => d.instantiate e template asked.code asked.name asked.params) (by decide)
      (Desk.instantiate_settles template asked.code asked.name asked.params)
  | setInterval =>
    refine .reading fun secs => ?_
    unfold Timeline.setInterval
    cases t.polling.setInterval (millisecondsPerSecond * secs) with
    | ok polling => exact .done (harmless_done (show 200 < 400 by decide))
    | error err => exact .done (harmless_same _)

theorem act_harmless (other : ∀ code, a ≠ .checkStock code) : Harmless t (act t r a) :=
  (perform_harmless other).act harmless_same

def Action.reads : Action → Bool
  | health | listAlerts | getAlert _ | alertHistory _ | history | templates | status | openEvents =>
    true
  | _ => false

theorem perform_reads (reads : a.reads = true) :
    Answers (fun result => result.2 = t) (perform t r a) := by
  cases a with
  | health | listAlerts | templates | status | openEvents => exact .done rfl
  | getAlert id => exact .reading fun _ => .named (fun _ => rfl) rfl
  | alertHistory id => exact .reading fun _ => .reading fun _ => .named (fun _ => rfl) rfl
  | history => exact .reading fun _ => .done rfl
  | _ => cases reads

theorem act_reads (reads : a.reads = true) : (act t r a).2 = t :=
  (perform_reads reads).act fun _ => rfl

def Waited (t after : Timeline) : Prop := ∃ u, Timeline.Lapses after.time t u ∧ u.Unaltered after

theorem waited_unaltered (time : after.time = t.time) (unaltered : t.Unaltered after) :
    Waited t after := ⟨t, .reached time.symm, unaltered⟩

theorem act_check {code : String} (fails : 400 ≤ (act t r (.checkStock code)).1.status) :
    Waited t (act t r (.checkStock code)).2 := by
  unfold act at fails ⊢
  cases done : perform t r (.checkStock code) with
  | error rejection => exact waited_unaltered rfl (.refl t)
  | ok result =>
    rw [done] at fails
    obtain ⟨text, -, done⟩ := Json.bind_ok.mp done
    split at done
    rename_i outcome after checked
    obtain rfl := Except.ok.inj done
    cases outcome with
    | ok report => exact absurd fails (show ¬ 400 ≤ 200 by decide)
    | error err =>
      have failed : (t.checkStock text).1 = .error err := by rw [checked]
      obtain ⟨u, lapses, alike⟩ := Timeline.checkStock_lapses failed
      rw [checked] at lapses alike
      exact ⟨u, lapses, .of_silent alike⟩

theorem action_get {route : Route} (asked : route.action? .get = some a) : a.reads = true := by
  cases route <;> cases asked <;> rfl

theorem action_check {route : Route} {method : Method} {code : String}
    (asked : route.action? method = some (.checkStock code)) : route = .stockCheck code := by
  cases route <;> cases method <;> cases asked
  rfl

/-- A request is turned away, or it is what its path and its method ask for that is done. -/
theorem serve_cases (t : Timeline) (r : Request) :
    (serve t r).2 = t ∨ ∃ route method a, Route.ofPath? r.path = some route ∧
      (r.method = .get ∨ r.method = .head → method = .get) ∧ route.action? method = some a ∧
      (serve t r).2 = (act t r a).2 ∧ (serve t r).1.status = (act t r a).1.status := by
  unfold serve
  cases found : Route.ofPath? r.path with
  | none => exact .inl rfl
  | some route =>
    dsimp only
    unfold respond
    split
    · exact .inl rfl
    · rename_i a head asked
      rw [if_pos head] at asked
      exact .inr ⟨route, .get, a, rfl, fun _ => rfl, asked, rfl, rfl⟩
    · rename_i a asked whole
      rw [if_neg whole] at asked
      refine .inr ⟨route, r.method, a, rfl, fun reading => ?_, asked, rfl, rfl⟩
      exact reading.resolve_right whole

theorem same_unaltered (same : after = t) : after.time = t.time ∧ t.Unaltered after := by
  subst same
  exact ⟨rfl, .refl after⟩

theorem serve_inert (inert : 400 ≤ (serve t r).1.status ∨ r.method = .get ∨ r.method = .head) :
    (∃ code, Route.ofPath? r.path = some (.stockCheck code) ∧ Waited t (serve t r).2) ∨
      (serve t r).2.time = t.time ∧ t.Unaltered (serve t r).2 := by
  rcases serve_cases t r with away | ⟨route, method, a, path, reading, asked, after, status⟩
  · exact .inr (same_unaltered away)
  · rw [after]
    rw [status] at inert
    rcases inert with fails | reads
    · by_cases check : ∃ code, a = .checkStock code
      · obtain ⟨code, rfl⟩ := check
        rw [action_check asked] at path
        exact .inl ⟨code, path, act_check fails⟩
      · exact .inr (act_harmless (fun code here => check ⟨code, here⟩) fails)
    · rw [reading reads] at asked
      exact .inr (same_unaltered (act_reads (action_get asked)))

/-- A request that fails, or that only reads, changes nothing. What else may have happened when it
is answered is what the polling loops would have done anyway, and only a check of a stock takes any
time. -/
theorem fails_or_reads_unaltered (t : Timeline) (r : Request)
    (inert : 400 ≤ (serve t r).1.status ∨ r.method = .get ∨ r.method = .head) :
    (∃ u, Timeline.Lapses (serve t r).2.time t u ∧
      (∀ v, Timeline.Lapses (serve t r).2.time t v → v = u) ∧ u.Unaltered (serve t r).2) ∧
    ((∀ due, t.nextEnd? = some due → (serve t r).2.time ≤ due) → t.Unaltered (serve t r).2) ∧
    ((∀ code, Route.ofPath? r.path ≠ some (.stockCheck code)) →
      (serve t r).2.time = t.time ∧ t.Unaltered (serve t r).2) := by
  have waited : Waited t (serve t r).2 := by
    rcases serve_inert inert with ⟨-, -, waited⟩ | ⟨time, unaltered⟩
    · exact waited
    · exact waited_unaltered time unaltered
  obtain ⟨u, lapses, unaltered⟩ := waited
  refine ⟨⟨u, lapses, fun v other => lapses.unique other, unaltered⟩, fun quiet => ?_,
    fun elsewhere => ?_⟩
  · rw [lapses.quiet quiet] at unaltered
    exact ⟨unaltered.store, unaltered.feed, unaltered.callback, unaltered.handed,
      unaltered.polling⟩
  · rcases serve_inert inert with ⟨code, path, -⟩ | settled
    · exact absurd path (elsewhere code)
    · exact settled

theorem halfMarket_unaltered :
    let reading : Request := { method := .get, target := "/alerts" }
    let refused : Request := { method := .other, target := "/alerts" }
    Timeline.halfMarket.Unaltered (serve Timeline.halfMarket reading).2 ∧
      400 ≤ (serve Timeline.halfMarket refused).1.status ∧
      Timeline.halfMarket.Unaltered (serve Timeline.halfMarket refused).2 := by
  intro reading refused
  have turnedAway : 400 ≤ (serve Timeline.halfMarket refused).1.status := by
    unfold serve
    cases Route.ofPath? refused.path with
    | none => exact (show 400 ≤ 404 by decide)
    | some route => cases route <;> exact (show 400 ≤ 405 by decide)
  have alone : ∀ time due : Nat, Timeline.halfMarket.nextEnd? = some due → time ≤ due := by
    intro time due going
    cases going
  have first := (fails_or_reads_unaltered Timeline.halfMarket reading (.inr (.inl rfl))).2.1
  have second := (fails_or_reads_unaltered Timeline.halfMarket refused (.inl turnedAway)).2.1
  exact ⟨first (alone _), turnedAway, second (alone _)⟩

end Http

end TickerWatch
