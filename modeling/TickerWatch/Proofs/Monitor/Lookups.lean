import Mathlib.Data.Finset.Card
import TickerWatch.Timeline

namespace TickerWatch

theorem nodup_eraseDups (codes : List String) : codes.eraseDups.Nodup := by
  induction size : codes.length using Nat.strongRecOn generalizing codes with
  | ind n ih =>
    cases codes with
    | nil => exact .nil
    | cons code rest =>
      rw [List.eraseDups_cons, List.nodup_cons, List.mem_eraseDups]
      refine ⟨by simp, ih _ ?_ _ rfl⟩
      have fewer := List.length_filter_le (fun c => !c == code) rest
      rw [List.length_cons] at size
      omega

theorem mem_codesOf {alerts : List Alert} {code : String} :
    code ∈ codesOf alerts ↔ code ∈ alerts.map Alert.code := by
  rw [codesOf, (List.mergeSort_perm _ _).mem_iff, List.mem_eraseDups]

theorem nodup_codesOf (alerts : List Alert) : (codesOf alerts).Nodup :=
  (List.mergeSort_perm _ _).nodup_iff.mpr (nodup_eraseDups _)

theorem length_codesOf (alerts : List Alert) :
    (codesOf alerts).length = (alerts.map Alert.code).toFinset.card := by
  rw [← List.toFinset_card_of_nodup (nodup_codesOf alerts)]
  congr 1
  ext code
  simp only [List.mem_toFinset, mem_codesOf]

theorem sorted_texts {texts : List String} (distinct : texts.Nodup) :
    (texts.mergeSort fun a b => a ≤ b).Pairwise (· < ·) := by
  have ordered : (texts.mergeSort fun a b => a ≤ b).Pairwise fun a b => decide (a ≤ b) = true := by
    apply List.pairwise_mergeSort
    · intro a b c first second
      simp only [decide_eq_true_eq] at first second ⊢
      exact String.le_trans first second
    · intro a b
      simpa using String.le_total a b
  have once : (texts.mergeSort fun a b => a ≤ b).Nodup :=
    (List.mergeSort_perm _ _).nodup_iff.mpr distinct
  refine (ordered.and once).imp ?_
  rintro a b ⟨below, other⟩
  by_contra above
  exact other (String.le_antisymm (by simpa using below) above)

theorem waitEnd_later {time delay : Nat} : time < waitEnd time delay ↔ 0 < delay := by
  have long : 0 < longestWait := by decide
  unfold waitEnd
  omega

namespace Pass

variable {o : FetchOptions} {m : Market} {p : Pass} {time : Nat} {now : Int}

def codes (p : Pass) : List String :=
  p.waiting ++ p.inFlight.map Prod.fst ++ p.found.map Prod.fst ++ p.failed.map Prod.fst

/-- What the lookups ended so far have found is what the market says. `apart` are codes whose lookup
has ended and is not entered yet. -/
structure Faithful (m : Market) (alerts : List Alert) (apart : List String) (p : Pass) : Prop where
  listed : p.alerts = alerts
  codes : (p.codes ++ apart).Perm (codesOf alerts)
  found : ∀ l ∈ p.found, (m.quote l.1).isOk = true
  failed : ∀ l ∈ p.failed, (m.quote l.1).isOk = false

variable {alerts : List Alert}

theorem ofAlerts_faithful (m : Market) (alerts : List Alert) :
    (ofAlerts alerts).Faithful m alerts [] where
  listed := rfl
  codes := by simp [ofAlerts, Pass.codes]
  found := nofun
  failed := nofun

theorem fetch_ok (m : Market) (o : FetchOptions) (code : String) (now : Int) :
    (∃ s calls, m.fetch o code now = (.ok s, calls) ∧ (m.quote code).isOk = true) ∨
    ∃ reason calls, m.fetch o code now = (.error reason, calls) ∧
      (m.quote code).isOk = false := by
  unfold Market.fetch
  cases quoted : m.quote code with
  | error reason => exact .inr ⟨reason, [], rfl, rfl⟩
  | ok q => exact .inl ⟨_, _, rfl, rfl⟩

theorem Faithful.enter {code : String} {apart : List String}
    (faithful : p.Faithful m alerts (code :: apart)) :
    (p.enter code (m.fetch o code now).1).Faithful m alerts apart := by
  -- Counts, because a code may go to either of two lists in the middle of the four.
  have order := List.perm_iff_count.mp faithful.codes
  rcases fetch_ok m o code now with
    ⟨s, calls, fetched, answered⟩ | ⟨reason, calls, fetched, refused⟩
  · rw [fetched]
    refine ⟨faithful.listed, List.perm_iff_count.mpr fun c => ?_, ?_, faithful.failed⟩
    · rw [← order c]
      simp only [Pass.codes, Pass.enter, List.map_append, List.map_cons, List.map_nil,
        List.count_append, List.count_cons, List.count_nil]
      omega
    · intro l member
      rcases List.mem_append.mp member with before | new
      · exact faithful.found l before
      · rw [List.mem_singleton.mp new]
        exact answered
  · rw [fetched]
    refine ⟨faithful.listed, List.perm_iff_count.mpr fun c => ?_, faithful.found, ?_⟩
    · rw [← order c]
      simp only [Pass.codes, Pass.enter, List.map_append, List.map_cons, List.map_nil,
        List.count_append, List.count_cons, List.count_nil]
      omega
    · intro l member
      rcases List.mem_append.mp member with before | new
      · exact faithful.failed l before
      · rw [List.mem_singleton.mp new]
        exact refused

theorem enter_waiting (p : Pass) (code : String) (outcome : Except String Snapshot) :
    (p.enter code outcome).waiting = p.waiting ∧ (p.enter code outcome).inFlight = p.inFlight := by
  cases outcome <;> exact ⟨rfl, rfl⟩

theorem Faithful.enterAll {ended : List String} (faithful : p.Faithful m alerts ended) :
    (enterAll o m now p ended).1.Faithful m alerts [] := by
  induction ended generalizing p with
  | nil => exact faithful
  | cons code ended ih => exact ih faithful.enter

theorem enterAll_waiting (o : FetchOptions) (m : Market) (now : Int) (p : Pass)
    (ended : List String) :
    (enterAll o m now p ended).1.waiting = p.waiting ∧
      (enterAll o m now p ended).1.inFlight = p.inFlight := by
  induction ended generalizing p with
  | nil => exact ⟨rfl, rfl⟩
  | cons code ended ih =>
    have kept := enter_waiting p code (m.fetch o code now).1
    rw [← kept.1, ← kept.2]
    exact ih _

theorem Faithful.launch (faithful : p.Faithful m alerts []) :
    (p.launch o m time).1.Faithful m alerts [] := by
  have order := List.perm_iff_count.mp faithful.codes
  refine ⟨faithful.listed, List.perm_iff_count.mpr fun c => ?_, faithful.found, faithful.failed⟩
  rw [← order c]
  have split := congrArg (List.count c) (List.take_append_drop (p.vacancies o) p.waiting)
  rw [List.count_append] at split
  simp only [Pass.codes, Pass.launch, List.map_append, List.map_map, Function.comp_def,
    List.map_id', List.count_append, List.count_nil]
  omega

theorem Faithful.land (faithful : p.Faithful m alerts []) :
    (p.land o m time now).1.Faithful m alerts [] := by
  have order := List.perm_iff_count.mp faithful.codes
  unfold Pass.land
  rw [List.partition_eq_filter_filter]
  refine Faithful.enterAll ⟨faithful.listed, List.perm_iff_count.mpr fun c => ?_, faithful.found,
    faithful.failed⟩
  rw [← order c]
  have split := ((List.filter_append_perm (fun l => decide (l.2 ≤ time)) p.inFlight).map
    Prod.fst).count_eq c
  rw [List.map_append, List.count_append] at split
  simp only [Pass.codes, List.count_append, List.count_nil]
  simp only [Function.comp_def] at split ⊢
  omega

theorem land_inFlight (o : FetchOptions) (m : Market) (time : Nat) (now : Int) (p : Pass) :
    (p.land o m time now).1.waiting = p.waiting ∧
      (p.land o m time now).1.inFlight = p.inFlight.filter fun l => time < l.2 := by
  unfold land
  rw [List.partition_eq_filter_filter]
  obtain ⟨waiting, inFlight⟩ := enterAll_waiting o m now
    { p with inFlight := p.inFlight.filter (not ∘ fun l => decide (l.2 ≤ time)) }
    ((p.inFlight.filter fun l => decide (l.2 ≤ time)).map Prod.fst)
  refine ⟨waiting, inFlight.trans ?_⟩
  apply List.filter_congr
  intro l _
  simp [← decide_not]

theorem isStuck_iff :
    p.isStuck o time = true ↔
      (p.waiting = [] ∨ bound o ≤ p.inFlight.length) ∧ ∀ l ∈ p.inFlight, time < l.2 := by
  simp [isStuck, vacancies, Nat.sub_eq_zero_iff_le]

/-- A round that ends no lookup leaves nothing to do. -/
theorem round_stuck_or_fewer (o : FetchOptions) (m : Market) (time : Nat) (now : Int) (p : Pass) :
    let q := ((p.launch o m time).1.land o m time now).1
    q.isStuck o time = true ∨
      q.waiting.length + q.inFlight.length < p.waiting.length + p.inFlight.length := by
  intro q
  obtain ⟨waiting, inFlight⟩ := land_inFlight o m time now (p.launch o m time).1
  have left : (p.launch o m time).1.waiting.length = p.waiting.length - p.vacancies o := by
    simp [launch]
  have begun : (p.launch o m time).1.inFlight.length =
      p.inFlight.length + min (p.vacancies o) p.waiting.length := by
    simp [launch]
  by_cases later : ∀ l ∈ (p.launch o m time).1.inFlight, time < l.2
  · have kept : q.inFlight = (p.launch o m time).1.inFlight :=
      inFlight.trans (List.filter_eq_self.mpr fun l member => by simpa using later l member)
    refine .inl (isStuck_iff.mpr ⟨?_, by rwa [kept]⟩)
    rw [waiting, kept, begun, ← List.length_eq_zero_iff, left]
    have vacancies : p.vacancies o = bound o - p.inFlight.length := rfl
    omega
  · right
    rw [waiting, inFlight, left]
    have ended : ((p.launch o m time).1.inFlight.filter fun l => decide (time < l.2)).length <
        (p.launch o m time).1.inFlight.length := by
      simp only [not_forall] at later
      obtain ⟨l, member, due⟩ := later
      exact List.length_filter_lt_length_iff_exists.mpr ⟨l, member, by simpa using due⟩
    omega

theorem rounds_stuck {fuel : Nat} (enough : p.waiting.length + p.inFlight.length < fuel) :
    (rounds o m time now fuel p).1.isStuck o time = true := by
  induction fuel generalizing p with
  | zero => omega
  | succ fuel ih =>
    unfold rounds
    by_cases stuck : p.isStuck o time = true
    · rw [if_pos stuck]
      exact stuck
    · rw [if_neg stuck]
      rcases round_stuck_or_fewer o m time now p with done | fewer
      · cases fuel with
        | zero => exact done
        | succ fuel =>
          show (rounds o m time now (fuel + 1) _).1.isStuck o time = true
          unfold rounds
          rw [if_pos done]
          exact done
      · exact ih (by omega)

theorem advance_stuck (p : Pass) : (p.advance o m time now).1.isStuck o time = true :=
  rounds_stuck (Nat.lt_succ_self _)

theorem Faithful.rounds {fuel : Nat} (faithful : p.Faithful m alerts []) :
    (rounds o m time now fuel p).1.Faithful m alerts [] := by
  induction fuel generalizing p with
  | zero => exact faithful
  | succ fuel ih =>
    unfold Pass.rounds
    split
    · exact faithful
    · exact ih faithful.launch.land

theorem Faithful.advance (faithful : p.Faithful m alerts []) :
    (p.advance o m time now).1.Faithful m alerts [] := faithful.rounds

def slow (m : Market) (time : Nat) (p : Pass) : Nat :=
  p.waiting.countP (fun c => 0 < m.delay c) + p.inFlight.countP (fun l => time < l.2)

theorem round_slow (p : Pass) :
    ((p.launch o m time).1.land o m time now).1.slow m time = p.slow m time := by
  obtain ⟨waiting, inFlight⟩ := land_inFlight o m time now (p.launch o m time).1
  have split := congrArg (List.countP fun c => decide (0 < m.delay c))
    (List.take_append_drop (p.vacancies o) p.waiting)
  rw [List.countP_append] at split
  unfold slow
  rw [waiting, inFlight]
  simp only [launch, List.countP_filter, Bool.and_self, List.countP_append, List.countP_map,
    Function.comp_def, waitEnd_later]
  omega

theorem rounds_slow (fuel : Nat) (p : Pass) :
    (rounds o m time now fuel p).1.slow m time = p.slow m time := by
  induction fuel generalizing p with
  | zero => rfl
  | succ fuel ih =>
    unfold rounds
    split
    · rfl
    · exact (ih _).trans (round_slow p)

theorem advance_slow (p : Pass) : (p.advance o m time now).1.slow m time = p.slow m time :=
  rounds_slow _ p

theorem isDone_of_stuck (stuck : p.isStuck o time = true) (last : p.nextEnd? = none) :
    p.isDone = true := by
  obtain ⟨free, -⟩ := isStuck_iff.mp stuck
  have landed : p.inFlight = [] := by simpa [nextEnd?] using last
  have room : 1 ≤ bound o := Nat.le_max_right _ _
  rcases free with waiting | full
  · simp [isDone, waiting, landed]
  · rw [landed, List.length_nil] at full
    omega

/-- At the next end of a lookup, one lookup fewer is left. -/
theorem slow_lt {next : Nat} (stuck : p.isStuck o time = true) (ends : p.nextEnd? = some next) :
    time < next ∧ p.slow m next < p.slow m time := by
  obtain ⟨-, later⟩ := isStuck_iff.mp stuck
  obtain ⟨member, least⟩ := List.min?_eq_some_iff.mp ends
  obtain ⟨l, flying, rfl⟩ := List.mem_map.mp member
  refine ⟨later l flying, ?_⟩
  unfold slow
  have all : p.inFlight.countP (fun k => decide (time < k.2)) = p.inFlight.length :=
    List.countP_eq_length.mpr fun k flying => by simpa using later k flying
  have fewer : p.inFlight.countP (fun k => decide (l.2 < k.2)) < p.inFlight.length := by
    refine Nat.lt_of_le_of_ne List.countP_le_length fun every => ?_
    have past := List.countP_eq_length.mp every l flying
    simp at past
  omega

theorem ofAlerts_slow (m : Market) (time : Nat) (alerts : List Alert) :
    (ofAlerts alerts).slow m time ≤
      ((ofAlerts alerts).waiting.map m.delay).foldl (· + ·) 0 := by
  have total : ∀ (codes : List String) (sum : Nat),
      codes.countP (fun c => 0 < m.delay c) + sum ≤ (codes.map m.delay).foldl (· + ·) sum := by
    intro codes
    induction codes with
    | nil => simp
    | cons code codes ih =>
      intro sum
      have rest := ih (sum + m.delay code)
      rw [List.map_cons, List.foldl_cons, List.countP_cons]
      split
      · rename_i takes
        simp only [decide_eq_true_eq] at takes
        omega
      · omega
  exact total _ 0

end Pass

namespace Timeline

variable {t : Timeline} {p : Pass} {alerts : List Alert}

def alone (t : Timeline) : Timeline := { t with polling := { t.polling with loops := [] } }

/-- No loop goes on before the pass, left to itself, is over. -/
def Undisturbed (t : Timeline) (p : Pass) : Prop :=
  ∀ due, t.nextEnd? = some due → (t.alone.finish p).2.time ≤ due

def resumed (t : Timeline) (p : Pass) (time : Nat) : Timeline := { (t.advance p).2 with time }

theorem complete_none (fuel : Nat) (last : (t.advance p).1.nextEnd? = none) :
    complete (fuel + 1) t p = t.advance p := by
  simp only [complete, last]

theorem complete_some {time : Nat} (fuel : Nat) (ends : (t.advance p).1.nextEnd? = some time)
    (quiet : ∀ due, t.nextEnd? = some due → time ≤ due) :
    complete (fuel + 1) t p = complete fuel (t.resumed p time) (t.advance p).1 := by
  have forward : t.time < time := (Pass.slow_lt (m := t.market) (Pass.advance_stuck p) ends).1
  have same : (t.advance p).2.nextEnd? = t.nextEnd? := rfl
  have now : (t.advance p).2.time = t.time := rfl
  have next : max t.time (min time (t.nextEnd?.getD time)) = time := by
    cases going : t.nextEnd? with
    | none =>
      simp only [Option.getD_none]
      omega
    | some due =>
      have later := quiet due going
      simp only [Option.getD_some]
      omega
  simp only [complete, ends, same, now, next, ↓reduceIte]
  rfl

theorem nextEnd?_alone (t : Timeline) : t.alone.nextEnd? = none := rfl

theorem complete_alone_some {time : Nat} (fuel : Nat)
    (ends : (t.advance p).1.nextEnd? = some time) :
    complete (fuel + 1) t.alone p = complete fuel (t.resumed p time).alone (t.advance p).1 := by
  have quiet : ∀ due, t.alone.nextEnd? = some due → time ≤ due := by
    rw [nextEnd?_alone]
    exact nofun
  exact complete_some (t := t.alone) fuel ends quiet

theorem complete_alone_time (fuel : Nat) (t : Timeline) (p : Pass) :
    t.time ≤ (complete fuel t.alone p).2.time := by
  induction fuel generalizing t p with
  | zero => exact Nat.le_refl _
  | succ fuel ih =>
    cases ends : (t.advance p).1.nextEnd? with
    | none =>
      rw [complete_none fuel (by exact ends)]
      exact Nat.le_refl _
    | some time =>
      have forward : t.time < time := (Pass.slow_lt (m := t.market) (Pass.advance_stuck p) ends).1
      rw [complete_alone_some fuel ends]
      exact Nat.le_trans (Nat.le_of_lt forward) (ih (t.resumed p time) _)

/-- A pass that nothing disturbs ends, and leaves all but the time as it was. -/
theorem complete_ends {fuel : Nat} (enough : p.slow t.market t.time < fuel)
    (faithful : p.Faithful t.market alerts [])
    (quiet : ∀ due, t.nextEnd? = some due → (complete fuel t.alone p).2.time ≤ due) :
    (complete fuel t p).1.isDone = true ∧
      (complete fuel t p).1.Faithful t.market alerts [] ∧
      (complete fuel t p).2.watch = t.watch ∧ (complete fuel t p).2.outages = t.outages := by
  -- The fuel pays for the ends of lookups: each leaves one slow lookup fewer.
  induction fuel generalizing t p with
  | zero => omega
  | succ fuel ih =>
    have stuck : (t.advance p).1.isStuck t.options t.time = true := Pass.advance_stuck p
    have slow : (t.advance p).1.slow t.market t.time = p.slow t.market t.time :=
      Pass.advance_slow p
    have still : (t.advance p).1.Faithful t.market alerts [] := faithful.advance
    cases ends : (t.advance p).1.nextEnd? with
    | none =>
      rw [complete_none fuel ends]
      exact ⟨Pass.isDone_of_stuck stuck ends, still, rfl, rfl⟩
    | some time =>
      obtain ⟨forward, fewer⟩ := Pass.slow_lt (m := t.market) stuck ends
      have later : ∀ due, t.nextEnd? = some due →
          (complete fuel (t.resumed p time).alone (t.advance p).1).2.time ≤ due := by
        rw [← complete_alone_some fuel ends]
        exact quiet
      have first : ∀ due, t.nextEnd? = some due → time ≤ due := by
        intro due going
        exact Nat.le_trans (complete_alone_time fuel (t.resumed p time) _) (later due going)
      have left : (t.advance p).1.slow t.market time < fuel := by omega
      rw [complete_some fuel ends first]
      exact ih (t := t.resumed p time) left still later

theorem finish_ends (undisturbed : t.Undisturbed (.ofAlerts alerts)) :
    ∃ p later, t.finish (.ofAlerts alerts) = (p, later) ∧ p.isDone = true ∧
      p.Faithful t.market alerts [] ∧ later.watch = t.watch ∧ later.outages = t.outages := by
  have slow := Pass.ofAlerts_slow t.market t.time alerts
  have enough : (Pass.ofAlerts alerts).slow t.market t.time < t.patience (.ofAlerts alerts) := by
    unfold patience
    omega
  exact ⟨_, _, rfl, complete_ends enough (Pass.ofAlerts_faithful t.market alerts) undisturbed⟩

end Timeline

end TickerWatch
