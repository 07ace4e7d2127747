import TickerWatch.Proofs.Monitor.Outcomes

namespace TickerWatch

namespace Market

variable {m n : Market} {o : FetchOptions}

def asksBars (m : Market) (o : FetchOptions) : Bool := m.bars.isSome && 0 < o.historyBars

structure Answers (m n : Market) : Prop where
  quote : n.quote = m.quote
  bars : n.bars = m.bars

theorem Answers.refl (m : Market) : m.Answers m := ⟨rfl, rfl⟩

theorem Answers.fetch (answers : m.Answers n) (o : FetchOptions) (code : String) (now : Int) :
    n.fetch o code now = m.fetch o code now := by
  simp only [Market.fetch, history, answers.quote, answers.bars]

theorem history_calls (m : Market) (o : FetchOptions) (code : String) :
    (m.history o code).2 =
      if m.asksBars o = true then [.bars code o.historyBars o.period] else [] := by
  unfold history asksBars
  cases provided : m.bars with
  | none => rfl
  | some bars =>
    by_cases none : o.historyBars = 0
    · simp [none]
    · have some : 0 < o.historyBars := Nat.pos_of_ne_zero none
      simp only [none, ↓reduceIte, Option.isSome_some, some, decide_true, Bool.and_self]
      split <;> rfl

theorem fetch_cases (m : Market) (o : FetchOptions) (code : String) (now : Int) :
    (∃ s, (m.quote code).isOk = true ∧ m.fetch o code now =
      (.ok s, if m.asksBars o = true then [.bars code o.historyBars o.period] else [])) ∨
    ∃ reason, (m.quote code).isOk = false ∧ m.fetch o code now = (.error reason, []) := by
  unfold Market.fetch
  rw [← history_calls m o code]
  cases quoted : m.quote code with
  | error reason => exact .inr ⟨reason, rfl, rfl⟩
  | ok q => exact .inl ⟨_, rfl, rfl⟩

end Market

namespace Pass

/-- One event among the lookups of a pass, with the calls that it makes. Any market may answer that
`among` admits. -/
inductive Turn (o : FetchOptions) (among : Market → Prop) (p : Pass) :
    List ProviderCall → Pass → Prop
  | begins {code : String} {rest : List String} (due : Nat) (next : p.waiting = code :: rest)
      (room : p.inFlight.length < bound o) :
      Turn o among p [.quote code]
        { p with waiting := rest, inFlight := p.inFlight ++ [(code, due)] }
  | ends {code : String} {due : Nat} {early late : List (String × Nat)} {m : Market}
      (admitted : among m) (now : Int) (underway : p.inFlight = early ++ (code, due) :: late) :
      Turn o among p (m.fetch o code now).2
        ({ p with inFlight := early ++ late }.enter code (m.fetch o code now).1)

inductive Course (o : FetchOptions) (among : Market → Prop) (p : Pass) :
    List ProviderCall → Pass → Prop
  | start : Course o among p [] p
  | on {calls more : List ProviderCall} {q r : Pass} (course : Course o among p calls q)
      (turn : Turn o among q more r) : Course o among p (calls ++ more) r

variable {o : FetchOptions} {among : Market → Prop} {m : Market} {alerts : List Alert}
  {p q r : Pass} {calls more : List ProviderCall} {asking : Bool} {time : Nat} {now : Int}

theorem Turn.course (turn : Turn o among p calls q) : Course o among p calls q :=
  .on .start turn

theorem Course.trans (first : Course o among p calls q) (second : Course o among q more r) :
    Course o among p (calls ++ more) r := by
  induction second with
  | start => rwa [List.append_nil]
  | on _ turn ih =>
    rw [← List.append_assoc]
    exact ih.on turn

structure Tallied (o : FetchOptions) (asking : Bool) (alerts : List Alert)
    (calls : List ProviderCall) (p : Pass) : Prop where
  room : p.inFlight.length ≤ bound o
  codes : p.codes.Perm (codesOf alerts)
  quotes : ∀ code, calls.count (.quote code) + p.waiting.count code = (codesOf alerts).count code
  bars : ∀ code count period, calls.count (.bars code count period) =
    if asking = true ∧ count = o.historyBars ∧ period = o.period
      then (p.found.map Prod.fst).count code else 0

theorem ofAlerts_tallied (o : FetchOptions) (asking : Bool) (alerts : List Alert) :
    (ofAlerts alerts).Tallied o asking alerts [] where
  room := Nat.zero_le _
  codes := by simp [ofAlerts, Pass.codes]
  quotes code := by simp [ofAlerts]
  bars code count period := by simp [ofAlerts]

theorem enter_codes {code : String} {due : Nat} {early late : List (String × Nat)}
    (underway : p.inFlight = early ++ (code, due) :: late) (outcome : Except String Snapshot) :
    (enter { p with inFlight := early ++ late } code outcome).codes.Perm p.codes := by
  refine List.perm_iff_count.mpr fun c => ?_
  cases outcome <;>
    simp only [Pass.codes, enter, underway, List.map_append, List.map_cons, List.map_nil,
      List.count_append, List.count_cons, List.count_nil] <;>
    omega

theorem Turn.codes (turn : Turn o among p calls q) : q.codes.Perm p.codes := by
  cases turn with
  | begins due next room =>
    refine List.perm_iff_count.mpr fun c => ?_
    simp only [Pass.codes, next, List.map_append, List.map_cons, List.map_nil, List.count_append,
      List.count_cons, List.count_nil]
    omega
  | ends admitted now underway => exact enter_codes underway _

theorem Turn.room (turn : Turn o among p calls q) (room : p.inFlight.length ≤ bound o) :
    q.inFlight.length ≤ bound o := by
  cases turn with
  | begins due next free =>
    rw [List.length_append]
    exact free
  | @ends code due early late m admitted now underway =>
    rw [(enter_waiting _ code _).2, List.length_append]
    rw [underway, List.length_append, List.length_cons] at room
    omega

theorem Turn.quotes (turn : Turn o among p more q) (code : String) :
    more.count (.quote code) + q.waiting.count code = p.waiting.count code := by
  cases turn with
  | begins due next room =>
    rw [next]
    simp only [List.count_cons, List.count_nil, beq_iff_eq, ProviderCall.quote.injEq]
    omega
  | @ends ended due early late m admitted now underway =>
    rw [(enter_waiting _ ended _).1]
    rcases m.fetch_cases o ended now with ⟨s, -, fetched⟩ | ⟨reason, -, fetched⟩
    · rw [fetched]
      split <;> simp
    · simp [fetched]

theorem Turn.bars (turn : Turn o among p more q)
    (asks : ∀ m, among m → m.asksBars o = asking) (code : String) (count : Nat) (period : Period) :
    more.count (.bars code count period) +
        (if asking = true ∧ count = o.historyBars ∧ period = o.period
          then (p.found.map Prod.fst).count code else 0) =
      if asking = true ∧ count = o.historyBars ∧ period = o.period
        then (q.found.map Prod.fst).count code else 0 := by
  cases turn with
  | begins due next room => simp
  | @ends ended due early late m admitted now underway =>
    rcases m.fetch_cases o ended now with ⟨s, -, fetched⟩ | ⟨reason, -, fetched⟩
    · rw [fetched, asks m admitted]
      by_cases asked : asking = true ∧ count = o.historyBars ∧ period = o.period
      · simp [asked, enter, List.count_cons, Nat.add_comm]
      · rw [if_neg asked, if_neg asked, Nat.add_zero, List.count_eq_zero]
        intro member
        split at member
        · rename_i all
          cases List.mem_singleton.mp member
          exact asked ⟨all, rfl, rfl⟩
        · cases member
    · simp [fetched, enter]

theorem Turn.tallied (turn : Turn o among p more q)
    (asks : ∀ m, among m → m.asksBars o = asking) (tallied : p.Tallied o asking alerts calls) :
    q.Tallied o asking alerts (calls ++ more) where
  room := turn.room tallied.room
  codes := turn.codes.trans tallied.codes
  quotes code := by
    rw [← tallied.quotes code, List.count_append, Nat.add_assoc, turn.quotes code]
  bars code count period := by
    rw [List.count_append, tallied.bars code count period, Nat.add_comm,
      turn.bars asks code count period]

theorem Course.tallied (course : Course o among p more q)
    (asks : ∀ m, among m → m.asksBars o = asking) (tallied : p.Tallied o asking alerts calls) :
    q.Tallied o asking alerts (calls ++ more) := by
  induction course with
  | start => rwa [List.append_nil]
  | on _ turn ih =>
    rw [← List.append_assoc]
    exact turn.tallied asks ih

theorem Tallied.distinct (tallied : p.Tallied o asking alerts calls) : p.codes.Nodup :=
  tallied.codes.nodup_iff.mpr (nodup_codesOf alerts)

/-- What was asked for in a pass whose lookups have all ended: one quote for each code among the
alerts, and bars for each of which a quote has come, if bars are asked for at all. -/
structure Asked (o : FetchOptions) (asking : Bool) (alerts : List Alert)
    (calls : List ProviderCall) (p : Pass) : Prop where
  quotes : ∀ code, calls.count (.quote code) = if code ∈ alerts.map Alert.code then 1 else 0
  bars : ∀ code count period, calls.count (.bars code count period) =
    if asking = true ∧ count = o.historyBars ∧ period = o.period ∧ code ∈ p.found.map Prod.fst
      then 1 else 0
  ended : ∀ code, code ∈ alerts.map Alert.code ↔
    code ∈ p.found.map Prod.fst ∨ code ∈ p.failed.map Prod.fst

theorem Tallied.asked (tallied : p.Tallied o asking alerts calls) (done : p.isDone = true) :
    p.Asked o asking alerts calls := by
  have codes := done_codes done
  have distinct := tallied.distinct
  rw [codes] at distinct
  have waiting : p.waiting = [] := by
    simp only [isDone, Bool.and_eq_true, List.isEmpty_iff] at done
    exact done.1
  constructor
  · intro code
    have quotes := tallied.quotes code
    rw [waiting, List.count_nil, Nat.add_zero, (nodup_codesOf alerts).count] at quotes
    simp only [quotes, mem_codesOf]
  · intro code count period
    rw [tallied.bars, (List.nodup_append.mp distinct).1.count, ← ite_and]
    simp only [and_assoc]
  · intro code
    rw [← mem_codesOf, ← tallied.codes.mem_iff, codes, List.mem_append]

theorem Course.codes (course : Course o among p calls q) : q.codes.Perm p.codes := by
  induction course with
  | start => exact .refl _
  | on _ turn ih => exact turn.codes.trans ih

theorem begins_course (due : String → Nat) (codes : List String) {rest : List String}
    (next : p.waiting = codes ++ rest) (room : p.inFlight.length + codes.length ≤ bound o) :
    Course o among p (codes.map .quote)
      { p with waiting := rest, inFlight := p.inFlight ++ codes.map fun c => (c, due c) } := by
  induction codes generalizing p with
  | nil =>
    have same : { p with waiting := rest, inFlight := p.inFlight ++ [] } = p := by
      rw [List.append_nil, ← List.nil_append rest, ← next]
    rw [List.map_nil, List.map_nil, same]
    exact .start
  | cons code codes ih =>
    rw [List.length_cons] at room
    have first : Turn o among p [.quote code]
        { p with waiting := codes ++ rest, inFlight := p.inFlight ++ [(code, due code)] } :=
      .begins (due code) next (by omega)
    have later := first.course.trans (ih rfl (by simpa using by omega))
    simpa using later

theorem launch_course (p : Pass) (o : FetchOptions) (m : Market) (time : Nat) :
    Course o among p (p.launch o m time).2 (p.launch o m time).1 := by
  have next := (List.take_append_drop (p.vacancies o) p.waiting).symm
  have taken : (p.waiting.take (p.vacancies o)).length ≤ bound o - p.inFlight.length :=
    List.length_take_le _ _
  by_cases room : p.inFlight.length ≤ bound o
  · exact begins_course (fun c => waitEnd time (m.delay c)) _ next (by omega)
  · -- No lookup begins, so nothing need be known of the room.
    have none : p.vacancies o = 0 := Nat.sub_eq_zero_of_le (by omega)
    have same : p.launch o m time = (p, []) := by simp [launch, none]
    rw [same]
    exact .start

theorem ends_course (admitted : among m) (time : Nat) (now : Int)
    (kept underway : List (String × Nat)) (same : p.inFlight = kept ++ underway) :
    let due := underway.filter fun l => l.2 ≤ time
    let left := { p with inFlight := kept ++ underway.filter fun l => time < l.2 }
    Course o among p (enterAll o m now left (due.map Prod.fst)).2
      (enterAll o m now left (due.map Prod.fst)).1 := by
  induction underway generalizing p kept with
  | nil =>
    have whole : { p with inFlight := kept ++ [] } = p := by rw [← same]
    simp only [List.filter_nil, List.map_nil, whole]
    exact .start
  | cons l underway ih =>
    obtain ⟨code, due⟩ := l
    by_cases past : due ≤ time
    · have first : Turn o among p _ _ := .ends admitted now same
      have later := first.course.trans
        (ih (p := enter { p with inFlight := kept ++ underway } code (m.fetch o code now).1) kept
          (enter_waiting _ _ _).2)
      have early : ¬ time < due := by omega
      simp only [List.filter_cons, past, early, decide_true, decide_false, Bool.false_eq_true,
        ↓reduceIte, List.map_cons, enterAll]
      cases fetched : (m.fetch o code now).1 <;> rw [fetched] at later <;> exact later
    · have later := ih (kept ++ [(code, due)]) (by simpa using same)
      have after : time < due := by omega
      simp only [List.append_assoc, List.singleton_append] at later
      simpa [List.filter_cons, past, after] using later

theorem land_course (admitted : among m) (p : Pass) (time : Nat) (now : Int) :
    Course o among p (p.land o m time now).2 (p.land o m time now).1 := by
  have course := ends_course (o := o) admitted time now [] p.inFlight rfl
  unfold land
  rw [List.partition_eq_filter_filter]
  have later : p.inFlight.filter (not ∘ fun l => decide (l.2 ≤ time)) =
      p.inFlight.filter fun l => time < l.2 := by
    apply List.filter_congr
    intro l _
    simp [← decide_not]
  rw [later]
  exact course

theorem rounds_course (admitted : among m) (time : Nat) (now : Int) (fuel : Nat) (p : Pass) :
    Course o among p (rounds o m time now fuel p).2 (rounds o m time now fuel p).1 := by
  induction fuel generalizing p with
  | zero => exact .start
  | succ fuel ih =>
    unfold rounds
    split
    · exact .start
    · exact ((launch_course p o m time).trans (land_course admitted _ time now)).trans (ih _)

theorem advance_course (admitted : among m) (p : Pass) (time : Nat) (now : Int) :
    Course o among p (p.advance o m time now).2 (p.advance o m time now).1 :=
  rounds_course admitted time now _ p

theorem Led.course (admitted : among m) (led : Led o m p q) :
    ∃ calls, Course o among p calls q := by
  induction led with
  | start => exact ⟨[], .start⟩
  | on _ time now ih =>
    obtain ⟨calls, course⟩ := ih
    exact ⟨_, course.trans (advance_course admitted _ time now)⟩

end Pass

end TickerWatch
