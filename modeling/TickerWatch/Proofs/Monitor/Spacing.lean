import TickerWatch.Proofs.Monitor.Scene

namespace TickerWatch

structure Passage where
  entry : HistoryEntry
  stored : Option Alert

def Follows (t u : Int) : Prop := t ≤ u ∧ u - t ≤ Int64.maxValue.toInt

def Passage.Apart (p q : Passage) : Prop :=
  p.entry.alertId = q.entry.alertId →
    ∃ stored, q.stored = some stored ∧
      3600 * stored.cooldownHours ≤ q.entry.triggeredAt - p.entry.triggeredAt

def Act.readings : Act → List Int
  | judge _ _ e => [e.now]
  | advance _ e => [e.now]
  | _ => []

namespace Scene

def StampsHold (s : Scene) : Act → Prop
  | .advance _ e => ∀ id, s.store.has id = true → e.outages.Works (.stampTrigger id)
  | _ => True

def gated (s : Scene) : Act → Option Alert
  | .advance i _ => s.firings[i]?.bind Firing.stored
  | _ => none

def entered (s : Scene) (act : Act) : List Passage :=
  ((s.step act).store.history.drop s.store.history.length).map fun entry =>
    { entry, stored := s.gated act }

def passages (s : Scene) : List Act → List Passage
  | [] => []
  | act :: acts => s.entered act ++ (s.step act).passages acts

theorem step_entered (s : Scene) (act : Act) :
    (s.step act).store.history = s.store.history ++ (s.entered act).map Passage.entry := by
  obtain ⟨entries, grown⟩ := s.history_grows act
  simp [entered, grown, Function.comp_def]

theorem run_passages (s : Scene) (acts : List Act) :
    (s.run acts).store.history = s.store.history ++ (s.passages acts).map Passage.entry := by
  induction acts generalizing s with
  | nil => simp [run, passages]
  | cons act acts ih =>
    rw [run, ih, step_entered, passages, List.map_append, List.append_assoc]

/-- Between its entry and its stamp, a fire is known to the history only. -/
def Unstamped (s : Scene) (id : RecordId) : Prop :=
  ∃ f ∈ s.firings, f.copy.id = id ∧ ∃ now, f.stage = .recorded now

end Scene

def Firing.Due (f : Firing) (log : List Passage) (ahead : List Int) : Prop :=
  match f.stage with
  | .passed =>
    ∃ stored, f.stored = some stored ∧
      ∀ p ∈ log, p.entry.alertId = f.copy.id → ∀ u ∈ ahead,
        p.entry.triggeredAt ≤ u ∧ 3600 * stored.cooldownHours ≤ u - p.entry.triggeredAt
  | .recorded now =>
    (∀ u ∈ ahead, Follows now u) ∧
      ∀ p ∈ log, p.entry.alertId = f.copy.id → p.entry.triggeredAt ≤ now
  | _ => True

/-- `log` holds the entries so far, `ahead` the readings still to come. Every entry is covered by
the last fire of its alert, as far as the alert is still stored. -/
structure Spaced (s : Scene) (log : List Passage) (ahead : List Int) : Prop where
  issued : ∀ a ∈ s.store.alerts, a.id.number < s.desk.nextId.number
  known : ∀ p ∈ log, p.entry.alertId.number < s.desk.nextId.number
  past : ∀ a ∈ s.store.alerts, ∀ t, a.lastTriggeredAt = some t → ∀ u ∈ ahead, Follows t u
  covered : ∀ p ∈ log, ∀ a ∈ s.store.alerts, a.id = p.entry.alertId →
    s.Unstamped a.id ∨ ∃ t, a.lastTriggeredAt = some t ∧ p.entry.triggeredAt ≤ t
  single : s.firings.length ≤ 1
  due : ∀ f ∈ s.firings, f.copy.id.number < s.desk.nextId.number ∧ f.Due log ahead
  apart : log.Pairwise Passage.Apart

namespace Spaced

variable {s : Scene} {log : List Passage} {ahead : List Int} {act : Act}

theorem later {rest : List Int} (spaced : Spaced s log ahead) (fewer : ∀ u ∈ rest, u ∈ ahead) :
    Spaced s log rest where
  issued := spaced.issued
  known := spaced.known
  past a member t last u later := spaced.past a member t last u (fewer u later)
  covered := spaced.covered
  single := spaced.single
  due f member := by
    obtain ⟨issued, due⟩ := spaced.due f member
    refine ⟨issued, ?_⟩
    unfold Firing.Due at due ⊢
    split
    · rename_i stage
      simp only [stage] at due
      obtain ⟨stored, seen, gap⟩ := due
      exact ⟨stored, seen, fun p logged same u later => gap p logged same u (fewer u later)⟩
    · rename_i now stage
      simp only [stage] at due
      exact ⟨fun u later => due.1 u (fewer u later), due.2⟩
    · trivial
  apart := spaced.apart

/-- A step keeps the invariant if every record after it is new and never fired, or stems from one
before it with the same last fire. -/
theorem stems {after : Scene} (spaced : Spaced s log ahead)
    (next : s.desk.nextId.number ≤ after.desk.nextId.number)
    (stems : ∀ b ∈ after.store.alerts,
      (s.desk.nextId.number ≤ b.id.number ∧ b.id.number < after.desk.nextId.number ∧
        b.lastTriggeredAt = none) ∨
      ∃ a ∈ s.store.alerts, a.id = b.id ∧ b.lastTriggeredAt = a.lastTriggeredAt)
    (unstamped : ∀ id, s.Unstamped id → after.Unstamped id) (single : after.firings.length ≤ 1)
    (due : ∀ f ∈ after.firings, f.copy.id.number < after.desk.nextId.number ∧ f.Due log ahead) :
    Spaced after log ahead where
  issued b member := by
    rcases stems b member with ⟨-, issued, -⟩ | ⟨a, before, same, -⟩
    · exact issued
    · have issued := spaced.issued a before
      rw [same] at issued
      omega
  known p logged := by
    have known := spaced.known p logged
    omega
  past b member t last := by
    rcases stems b member with ⟨-, -, never⟩ | ⟨a, before, -, sameLast⟩
    · rw [never] at last
      cases last
    · exact spaced.past a before t (sameLast.symm.trans last)
  covered p logged b member sameId := by
    rcases stems b member with ⟨fresh, -, -⟩ | ⟨a, before, same, sameLast⟩
    · have known := spaced.known p logged
      rw [← sameId] at known
      omega
    · rcases spaced.covered p logged a before (same.trans sameId) with pending | covered
      · exact .inl (same ▸ unstamped a.id pending)
      · exact .inr (by rw [sameLast]; exact covered)
  single := single
  due := due
  apart := spaced.apart

theorem request (spaced : Spaced s log ahead) (e : Surroundings) (r : Request) :
    Spaced (s.step (.request e r)) log ahead := by
  have next := (Desk.serve_frame s.desk e r).2.2
  refine spaced.stems next ?_ (fun _ pending => pending) spaced.single ?_
  · intro b member
    rcases Desk.serve_stems s.desk e r member with ⟨fresh, issued, never⟩ | ⟨a, old, same, last, -⟩
    · refine .inl ⟨Nat.le_of_eq (by rw [fresh]), ?_, never⟩
      change b.id.number < (s.desk.serve e r).2.nextId.number
      rw [fresh, issued]
      exact Nat.lt_succ_self _
    · exact .inr ⟨a, old, same, last⟩
  · intro f member
    obtain ⟨issued, due⟩ := spaced.due f member
    exact ⟨Nat.lt_of_lt_of_le issued next, due⟩

theorem enlist (spaced : Spaced s log ahead) (listing : Except AlertError Pass) :
    Spaced (s.enlist listing) log ahead := by
  cases listing with
  | error err => exact spaced
  | ok p =>
    exact spaced.stems (Nat.le_refl _) (fun b member => .inr ⟨b, member, rfl, rfl⟩)
      (fun _ pending => pending) spaced.single spaced.due

/-- The gate is where the stored stamp is held against the clock. -/
theorem judge {i : Nat} {snapshot : Option Snapshot} {e : Surroundings}
    (spaced : Spaced s log (e.now :: ahead)) (order : ∀ u ∈ ahead, Follows e.now u)
    (alone : s.firings = []) : Spaced (s.step (.judge i snapshot e)) log ahead := by
  have before : Spaced s log ahead := spaced.later fun u later => List.mem_cons_of_mem _ later
  have idle : ∀ id, ¬ s.Unstamped id := by
    rintro id ⟨f, member, -⟩
    rw [alone] at member
    cases member
  cases found : s.copies[i]? with
  | none => simpa only [Scene.step, found] using before
  | some copy =>
    cases judged : snapshot.bind (s.watch.judgeCopy e copy) with
    | none =>
      simp only [Scene.step, found, judged]
      exact before.stems (Nat.le_refl _) (fun b member => .inr ⟨b, member, rfl, rfl⟩)
        (fun id pending => absurd pending (idle id)) (by simp [alone]) (by simp [alone])
    | some f =>
      simp only [Scene.step, found, judged]
      obtain ⟨x, -, judged⟩ := Option.bind_eq_some_iff.mp judged
      obtain ⟨rfl, stage, -, stored, stands, seen, passed⟩ := Watch.judgeCopy_some judged
      have member := Store.mem_of_find? stands
      have sameId := Store.id_of_find? stands
      refine before.stems (Nat.le_refl _) (fun b member => .inr ⟨b, member, rfl, rfl⟩)
        (fun id pending => absurd pending (idle id)) (by simp [alone]) ?_
      intro g new
      have new : g = f := by simpa [alone] using new
      subst g
      refine ⟨sameId ▸ spaced.issued stored member, ?_⟩
      simp only [Firing.Due, stage]
      refine ⟨stored, seen, fun p logged same u later => ?_⟩
      -- No fire is under way, so the stored stamp is no earlier than the entry.
      rcases spaced.covered p logged stored member (sameId.trans same.symm) with pending | covered
      · exact absurd pending (idle _)
      · obtain ⟨t, last, after⟩ := covered
        obtain ⟨forward, fits⟩ := spaced.past stored member t last e.now List.mem_cons_self
        have window := Alert.inCooldown_false last forward fits passed
        have next := (order u later).1
        omega

/-- An entry keeps its distance from all before it, and is not stamped yet. -/
theorem enter {f : Firing} {e : Surroundings} (new : Option Passage)
    (spaced : Spaced s log (e.now :: ahead)) (order : ∀ u ∈ ahead, Follows e.now u)
    (only : s.firings = [f]) (stage : f.stage = .passed)
    (entry : ∀ q ∈ new, q.stored = f.stored ∧ q.entry.alertId = f.copy.id ∧
      q.entry.triggeredAt = e.now) :
    Spaced
      { s with
        watch := { s.watch with desk := s.desk.record e f.copy f.snapshot f.message }
        firings := [{ f with stage := .recorded e.now }] }
      (log ++ new.toList) ahead := by
  obtain ⟨issued, due⟩ := spaced.due f (by simp [only])
  simp only [Firing.Due, stage] at due
  obtain ⟨stored, seen, gap⟩ := due
  have gap := fun p logged same => gap p logged same e.now List.mem_cons_self
  have alerts := Desk.record_alerts s.desk e f.copy f.snapshot f.message
  have next : (s.desk.record e f.copy f.snapshot f.message).nextId.number =
      s.desk.nextId.number + 1 := by simp [RecordId.next]
  constructor
  · intro a member
    have known := spaced.issued a (alerts ▸ member)
    show a.id.number < (s.desk.record e f.copy f.snapshot f.message).nextId.number
    omega
  · intro p logged
    show p.entry.alertId.number < (s.desk.record e f.copy f.snapshot f.message).nextId.number
    rcases List.mem_append.mp logged with old | fresh
    · have known := spaced.known p old
      omega
    · rw [(entry p (by simpa using fresh)).2.1]
      omega
  · intro a member t last u later
    exact spaced.past a (alerts ▸ member) t last u (List.mem_cons_of_mem _ later)
  · intro p logged a member same
    rcases List.mem_append.mp logged with old | fresh
    · rcases spaced.covered p old a (alerts ▸ member) same with ⟨g, among, -, now, other⟩ | covered
      · rw [only, List.mem_singleton] at among
        rw [among, stage] at other
        cases other
      · exact .inr covered
    · have new := entry p (by simpa using fresh)
      exact .inl ⟨_, List.mem_singleton_self _, by rw [same, new.2.1], e.now, rfl⟩
  · simp
  · intro g among
    obtain rfl := List.mem_singleton.mp among
    refine ⟨?_, order, fun p logged same => ?_⟩
    · show f.copy.id.number < (s.desk.record e f.copy f.snapshot f.message).nextId.number
      omega
    · rcases List.mem_append.mp logged with old | fresh
      · exact (gap p old same).1
      · exact Int.le_of_eq (entry p (by simpa using fresh)).2.2
  · rw [List.pairwise_append]
    refine ⟨spaced.apart, by cases new <;> simp, fun p old q fresh same => ?_⟩
    obtain ⟨sameStored, sameAlert, now⟩ := entry q (by simpa using fresh)
    refine ⟨stored, sameStored.trans seen, ?_⟩
    rw [now]
    exact (gap p old (same.trans sameAlert)).2

theorem stamp {f : Firing} {e : Surroundings} {now : Int} (spaced : Spaced s log ahead)
    (only : s.firings = [f]) (stage : f.stage = .recorded now)
    (works : s.store.has f.copy.id = true → e.outages.Works (.stampTrigger f.copy.id)) :
    Spaced
      { s with
        watch := { s.watch with desk := s.desk.stamp { e with now } f.copy }
        firings := [{ f with stage := .stamped now }] }
      log ahead := by
  obtain ⟨issued, due⟩ := spaced.due f (by simp [only])
  simp only [Firing.Due, stage] at due
  obtain ⟨forward, before⟩ := due
  have rewrites := Desk.stamp_rewrites s.desk { e with now } f.copy
  have next := rewrites.nextId
  constructor
  · intro b member
    obtain ⟨c, old, same, -⟩ := rewrites.stems (fun _ => rfl) member
    rw [← same]
    exact next ▸ spaced.issued c old
  · exact next ▸ spaced.known
  · intro b member t last
    obtain ⟨c, old, same, rfl | ⟨-, rfl⟩⟩ := rewrites.stems (fun _ => rfl) member
    · exact spaced.past _ old t last
    · cases last
      exact forward
  · intro p logged b member same
    by_cases mine : b.id = f.copy.id
    · -- The entry that was waiting for this stamp, and all entries before it.
      have latest := Desk.stamp_latest (e := { e with now }) works b member mine
      exact .inr ⟨now, latest, before p logged (same.symm.trans mine)⟩
    · obtain ⟨c, old, sameId, rfl | ⟨written, -⟩⟩ := rewrites.stems (fun _ => rfl) member
      · rcases spaced.covered p logged _ old same with ⟨g, among, this, -⟩ | covered
        · rw [only, List.mem_singleton] at among
          exact absurd (by rw [← this, among]) mine
        · exact .inr covered
      · exact absurd written mine
  · simp
  · intro g among
    obtain rfl := List.mem_singleton.mp among
    exact ⟨next ▸ issued, trivial⟩
  · exact spaced.apart

theorem retire {f : Firing} {e : Surroundings} {now : Int} (spaced : Spaced s log ahead)
    (only : s.firings = [f]) (stage : f.stage = .stamped now) :
    Spaced
      { s with
        watch := { s.watch with desk := s.desk.retire { e with now } f.copy }
        firings := [{ f with stage := .retired now }] }
      log ahead := by
  have rewrites := Desk.retire_rewrites s.desk { e with now } f.copy
  have next := rewrites.nextId
  refine spaced.stems (Nat.le_of_eq (by rw [← next])) ?_ ?_ (by simp) ?_
  · intro b member
    obtain ⟨c, old, same, rfl | ⟨-, rfl⟩⟩ := rewrites.stems (fun _ => rfl) member
    · exact .inr ⟨_, old, rfl, rfl⟩
    · exact .inr ⟨c, old, rfl, rfl⟩
  · rintro id ⟨g, among, -, _, other⟩
    rw [only, List.mem_singleton] at among
    rw [among, stage] at other
    cases other
  · intro g among
    obtain rfl := List.mem_singleton.mp among
    exact ⟨next ▸ (spaced.due f (by simp [only])).1, trivial⟩

theorem announce {f : Firing} {n : Notification} {now : Int} (spaced : Spaced s log ahead)
    (only : s.firings = [f]) (stage : f.stage = .retired now) :
    Spaced { s with watch := s.watch.dispatch n, firings := [] } log ahead := by
  refine spaced.stems (Nat.le_refl _) (fun b member => .inr ⟨b, member, rfl, rfl⟩) ?_ (by simp) ?_
  · rintro id ⟨g, among, -, _, other⟩
    rw [only, List.mem_singleton] at among
    rw [among, stage] at other
    cases other
  · intro g among
    cases among

theorem quiet (same : (s.step act).store.history = s.store.history) : s.entered act = [] := by
  simp [Scene.entered, same]

theorem advance {i : Nat} {e : Surroundings} (spaced : Spaced s log (e.now :: ahead))
    (order : ∀ u ∈ ahead, Follows e.now u) (works : s.StampsHold (.advance i e)) :
    Spaced (s.step (.advance i e)) (log ++ s.entered (.advance i e)) ahead := by
  have before : Spaced s log ahead := spaced.later fun u later => List.mem_cons_of_mem _ later
  cases found : s.firings[i]? with
  | none =>
    have still : s.step (.advance i e) = s := by simp only [Scene.step, found]
    rw [quiet (by rw [still]), still, List.append_nil]
    exact before
  | some f =>
    obtain ⟨only, rfl⟩ := Scene.sole spaced.single found
    rcases Scene.advance_history e found with same | ⟨stage, grown⟩
    · rw [quiet same, Scene.advance_sole only]
      cases stage : f.stage with
      | passed =>
        simp only [Firing.advance, stage, Option.toList_some]
        exact spaced.enter none order only stage (by simp)
      | recorded now =>
        simp only [Firing.advance, stage, Option.toList_some, List.append_nil]
        exact before.stamp only stage (works f.copy.id)
      | stamped now =>
        simp only [Firing.advance, stage, Option.toList_some, List.append_nil]
        exact before.retire only stage
      | retired now =>
        simp only [Firing.advance, stage, Option.toList_none, List.append_nil]
        exact before.announce only stage
    · have one : s.entered (.advance 0 e) = [{
          entry := Desk.historyEntry s.desk.nextId f.copy f.snapshot f.message e.now
          stored := f.stored }] := by
        simp [Scene.entered, Scene.gated, grown, only]
      rw [one, Scene.advance_sole only]
      simp only [Firing.advance, stage, Option.toList_some]
      exact spaced.enter (some _) order only stage (by rintro q ⟨⟩; exact ⟨rfl, rfl, rfl⟩)

theorem step (spaced : Spaced s log (act.readings ++ ahead))
    (order : (act.readings ++ ahead).Pairwise Follows) (alone : s.Alone act)
    (works : s.StampsHold act) : Spaced (s.step act) (log ++ s.entered act) ahead := by
  cases act with
  | advance i e => exact spaced.advance (List.pairwise_cons.mp order).1 works
  | request e r =>
    rw [quiet (s.step_history (.request e r) nofun), List.append_nil]
    exact spaced.request e r
  | tick e =>
    rw [quiet (s.step_history (.tick e) nofun), List.append_nil]
    exact spaced.enlist (s.watch.beginTick e)
  | check e code =>
    rw [quiet (s.step_history (.check e code) nofun), List.append_nil]
    exact spaced.enlist (s.watch.beginCheck e code)
  | judge i snapshot e =>
    rw [quiet (s.step_history (.judge i snapshot e) nofun), List.append_nil]
    exact spaced.judge (List.pairwise_cons.mp order).1 alone

theorem run {acts : List Act} (spaced : Spaced s log (acts.flatMap Act.readings))
    (order : (acts.flatMap Act.readings).Pairwise Follows) (alone : s.Along Scene.Alone acts)
    (works : s.Along Scene.StampsHold acts) : (log ++ s.passages acts).Pairwise Passage.Apart := by
  induction acts generalizing s log with
  | nil => simpa [Scene.passages] using spaced.apart
  | cons act acts ih =>
    rw [List.flatMap_cons] at spaced order
    have next := spaced.step order alone.1 works.1
    have rest := ih next (List.pairwise_append.mp order).2.1 alone.2 works.2
    rwa [List.append_assoc] at rest

end Spaced

namespace Scene

/-- Entries of one alert are the window apart that was stored when the gate let the later one
through. -/
theorem fires_keep_the_window (s : Scene) (acts : List Act) (empty : s.store.alerts = [])
    (idle : s.firings = []) (forward : (acts.flatMap Act.readings).Pairwise Follows)
    (alone : s.Along Alone acts) (stamps : s.Along StampsHold acts) :
    (s.run acts).store.history = s.store.history ++ (s.passages acts).map Passage.entry ∧
      (s.passages acts).Pairwise Passage.Apart := by
  have spaced : Spaced s [] (acts.flatMap Act.readings) := by
    constructor <;> simp [empty, idle]
  have apart := spaced.run forward alone stamps
  rw [List.nil_append] at apart
  exact ⟨s.run_passages acts, apart⟩

def twoFires : List Act :=
  [.request { now := 0 } (.create (.rise 2 .keepActive)), .tick { now := 10 }] ++
    turn 0 (some { changePercent := 6.2 }) { now := 20 } { now := 30 } ++ [.tick { now := 7229 }] ++
    turn 0 (some { changePercent := 6.2 }) { now := 7230 } { now := 7231 }

theorem two_fires_keep_the_window :
    (opening.passages twoFires).map (fun p => (p.entry.alertId, p.entry.triggeredAt)) =
        [(⟨1⟩, 30), (⟨1⟩, 7231)] ∧
      (opening.passages twoFires).Pairwise Passage.Apart := by
  have forward : (twoFires.flatMap Act.readings).Pairwise Follows := by
    simp [twoFires, turn, fire, Act.readings, Follows]
    decide
  have alone : opening.Along Alone twoFires := by decide +kernel
  have stamps : opening.Along StampsHold twoFires := by
    simp [twoFires, turn, fire, Along, StampsHold, Outages.Works, Outages.none]
  exact ⟨by decide +kernel, (fires_keep_the_window _ _ rfl rfl forward alone stamps).2⟩

end Scene

end TickerWatch
