import TickerWatch.Proofs.Monitor.Patience
import TickerWatch.Proofs.Store.Listings

namespace TickerWatch

namespace Pass

variable {o : FetchOptions} {m : Market} {p : Pass} {time ending : Nat} {now : Int}

def Sole (p : Pass) : Prop := p.codes.length ≤ 1

theorem Sole.advance (sole : p.Sole) : (p.advance o m time now).1.Sole := by
  have course : Course o (fun _ => True) p _ (p.advance o m time now).1 :=
    advance_course trivial p time now
  rw [Sole, course.codes.length_eq]
  exact sole

theorem ofAlerts_sole {alerts : List Alert} {code : String} (same : ∀ a ∈ alerts, a.code = code) :
    (ofAlerts alerts).Sole := by
  have count : (codesOf alerts).length = if alerts = [] then 0 else 1 := by
    rw [length_codesOf, Timeline.one_code same]
  have codes : (ofAlerts alerts).codes = codesOf alerts := by simp [Pass.codes, ofAlerts]
  rw [Sole, codes, count]
  split <;> omega

theorem Sole.underway (sole : p.Sole) (ends : p.nextEnd? = some ending) :
    p.failed = [] ∧ p.remaining m time = ending - time := by
  obtain ⟨flying, -⟩ := List.min?_eq_some_iff.mp ends
  obtain ⟨l, member, rfl⟩ := List.mem_map.mp flying
  have some : 0 < p.inFlight.length := List.length_pos_of_mem member
  unfold Sole at sole
  simp only [Pass.codes, List.length_append, List.length_map] at sole
  have waiting : p.waiting = [] := List.eq_nil_of_length_eq_zero (by omega)
  have failed : p.failed = [] := List.eq_nil_of_length_eq_zero (by omega)
  obtain ⟨k, only⟩ := List.length_eq_one_iff.mp (show p.inFlight.length = 1 by omega)
  rw [only, List.mem_singleton] at member
  subst member
  exact ⟨failed, by simp [remaining, waiting, only]⟩

theorem remaining_done (done : p.isDone = true) : p.remaining m time = 0 := by
  simp only [isDone, Bool.and_eq_true, List.isEmpty_iff] at done
  simp [remaining, done.1, done.2]

end Pass

namespace Timeline

variable {t u v after : Timeline} {p : Pass} {fuel stop time : Nat} {code : String}

def silent (t : Timeline) : Timeline := { t with calls := [] }

theorem stepLoop?_silent (t : Timeline) (l : Loop) :
    (t.stepLoop? l).map silent = (t.silent.stepLoop? l).map silent := by
  unfold stepLoop?
  cases l.phase with
  | starting => rfl
  | leaving => rfl
  | waiting due =>
    dsimp only
    have woken : silent ∘ t.wake l = silent ∘ t.silent.wake l := by
      funext w
      simp only [Function.comp_apply, wake]
      split
      · have listing : t.silent.watch.beginTick t.silent.surroundings =
            t.watch.beginTick t.surroundings := rfl
        unfold beginTick
        rw [listing]
        split <;> rfl
      · rfl
    have ready : Wake.first? t.silent.polling.shutdown l.stopSent due t.silent.time =
        Wake.first? t.polling.shutdown l.stopSent due t.time := rfl
    rw [ready, Option.map_map, Option.map_map, woken]
  | ticking p =>
    have stuck : p.isStuck t.silent.options t.silent.time = p.isStuck t.options t.time := rfl
    simp only [stuck]
    split
    · rfl
    · split <;> rfl

theorem silent_time (same : t.silent = u.silent) : t.time = u.time := by
  have both : t.silent.time = u.silent.time := by rw [same]
  exact both

theorem silent_polling (same : t.silent = u.silent) : t.polling = u.polling := by
  have both : t.silent.polling = u.silent.polling := by rw [same]
  exact both

theorem silent_nextEnd? (same : t.silent = u.silent) : t.nextEnd? = u.nextEnd? := by
  rw [nextEnd?, silent_polling same, nextEnd?]

theorem silent_later (time : Nat) (same : t.silent = u.silent) :
    ({ t with time } : Timeline).silent = ({ u with time } : Timeline).silent := by
  have both : { t.silent with time } = { u.silent with time } := by rw [same]
  exact both

theorem settleFrom_silent (same : t.silent = u.silent) :
    (settleFrom fuel t).silent = (settleFrom fuel u).silent := by
  induction fuel generalizing t u with
  | zero => exact same
  | succ fuel ih =>
    have steps : Option.map silent ∘ t.stepLoop? = Option.map silent ∘ u.stepLoop? := by
      funext l
      have first := t.stepLoop?_silent l
      rw [same, ← u.stepLoop?_silent l] at first
      exact first
    have stepped : (t.polling.loops.findSome? t.stepLoop?).map silent =
        (u.polling.loops.findSome? u.stepLoop?).map silent := by
      rw [List.map_findSome?, List.map_findSome?, steps, silent_polling same]
    unfold settleFrom
    cases mine : t.polling.loops.findSome? t.stepLoop? with
    | none =>
      rw [mine, Option.map_none, eq_comm, Option.map_eq_none_iff] at stepped
      rw [stepped]
      exact same
    | some after =>
      rw [mine, Option.map_some, eq_comm, Option.map_eq_some_iff] at stepped
      obtain ⟨other, theirs, alike⟩ := stepped
      rw [theirs]
      exact ih alike.symm

theorem settle_silent (same : t.silent = u.silent) : t.settle.silent = u.settle.silent := by
  rw [settle, settle, silent_polling same]
  exact settleFrom_silent same

/-- What becomes of a timeline until `stop` if only the polling loops go on. Those that wait for
that very moment still wait. -/
inductive Lapses (stop : Nat) : Timeline → Timeline → Prop
  | reached {t : Timeline} (now : t.time = stop) : Lapses stop t t
  | idle {t : Timeline} (ahead : t.time < stop)
      (quiet : ∀ due, t.nextEnd? = some due → stop ≤ due) :
      Lapses stop t { t with time := stop }
  | turn {t u : Timeline} {due : Nat} (ahead : t.time < stop) (next : t.nextEnd? = some due)
      (early : due < stop) (rest : Lapses stop { t with time := max t.time due }.settle u) :
      Lapses stop t u

theorem Lapses.unique (first : Lapses stop t u) (second : Lapses stop t v) : v = u := by
  induction first with
  | reached now =>
    cases second with
    | reached _ => rfl
    | idle ahead _ => omega
    | turn ahead _ _ _ => omega
  | idle ahead quiet =>
    cases second with
    | reached now => omega
    | idle _ _ => rfl
    | turn _ next early _ =>
      have late := quiet _ next
      omega
  | turn ahead next early _ ih =>
    cases second with
    | reached now => omega
    | idle _ quiet =>
      have late := quiet _ next
      omega
    | turn _ known _ rest =>
      rw [next, Option.some.injEq] at known
      subst known
      exact ih rest

theorem Lapses.quiet (lapses : Lapses stop t u)
    (still : ∀ due, t.nextEnd? = some due → stop ≤ due) : u = { t with time := stop } := by
  cases lapses with
  | reached now => rw [← now]
  | idle _ _ => rfl
  | turn _ next early _ =>
    have late := still _ next
    omega

/-- The record of calls is kept beside all that happens. -/
theorem Lapses.silent (lapses : Lapses stop t u) (same : v.silent = t.silent) :
    ∃ w, Lapses stop v w ∧ w.silent = u.silent := by
  induction lapses generalizing v with
  | reached now => exact ⟨v, .reached ((silent_time same).trans now), same⟩
  | idle ahead quiet =>
    have next := silent_nextEnd? same
    exact ⟨_, .idle (silent_time same ▸ ahead) (next ▸ quiet), silent_later stop same⟩
  | @turn t u due ahead known early _ ih =>
    have time := silent_time same
    obtain ⟨w, rest, alike⟩ := ih (settle_silent (silent_later (max t.time due) same))
    rw [← time] at ahead rest
    exact ⟨w, .turn ahead ((silent_nextEnd? same).trans known) early rest, alike⟩

theorem Lapses.sooner (forward : t.time < time)
    (still : ∀ due, t.nextEnd? = some due → time ≤ due) (lapses : Lapses stop { t with time } u) :
    Lapses stop t u := by
  cases lapses with
  | reached now =>
    obtain rfl : time = stop := now
    exact .idle forward still
  | idle ahead quiet => exact .idle (Nat.lt_trans forward ahead) quiet
  | @turn _ _ due ahead next early rest =>
    have known : t.nextEnd? = some due := next
    have later := still due known
    have same : max t.time due = max time due := by omega
    exact .turn (Nat.lt_trans forward ahead) known early (same ▸ rest)

/-- A caller whose only lookup fails has waited for its end, and no longer. -/
theorem complete_lapses (fuel : Nat) (sole : p.Sole) (unfailed : p.failed = [])
    (fails : (complete fuel t p).1.failed ≠ []) :
    t.time + p.remaining t.market t.time ≤ (complete fuel t p).2.time ∧
      ∃ u, Lapses (complete fuel t p).2.time t u ∧ u.silent = (complete fuel t p).2.silent := by
  induction fuel generalizing t p with
  | zero => exact absurd unfailed fails
  | succ fuel ih =>
    have left : (t.advance p).1.remaining t.market t.time = p.remaining t.market t.time :=
      Pass.advance_remaining p
    rcases complete_cases fuel t p with ⟨last, same⟩ | ⟨u, resumes, same⟩
    · have done := Pass.isDone_of_stuck (Pass.advance_stuck p) last
      have finished : (t.advance p).1.remaining t.market t.time = 0 := Pass.remaining_done done
      have none : p.remaining t.market t.time = 0 := left.symm.trans finished
      rw [same, none]
      exact ⟨Nat.le_refl _, t, .reached rfl, rfl⟩
    · have alone : (t.advance p).1.Sole := sole.advance
      obtain ⟨market, -⟩ := resumes.sources
      rw [same] at fails ⊢
      cases resumes with
      | @due time ends first =>
        obtain ⟨none, rest⟩ : (t.advance p).1.failed = [] ∧
          (t.advance p).1.remaining t.market t.time = time - t.time := alone.underway ends
        have forward := (Pass.slow_lt (m := t.market) (Pass.advance_stuck p) ends).1
        obtain ⟨reached, v, lapses, alike⟩ := ih alone none fails
        have now : (t.resumed p time).time = time := rfl
        obtain ⟨w, mine, both⟩ := lapses.silent (v := { t with time }) rfl
        rw [← left, rest]
        exact ⟨by omega, w, mine.sooner forward first, both.trans alike⟩
      | @early time due ends next sooner =>
        obtain ⟨none, rest⟩ : (t.advance p).1.failed = [] ∧
          (t.advance p).1.remaining t.market t.time = time - t.time := alone.underway ends
        have forward := (Pass.slow_lt (m := t.market) (Pass.advance_stuck p) ends).1
        obtain ⟨reached, v, lapses, alike⟩ := ih alone none fails
        rw [(alone.underway ends).2, settle_time] at reached
        have now : (t.resumed p (max t.time due)).time = max t.time due := rfl
        have moved : ({ t with time := max t.time due } : Timeline).silent =
            (t.resumed p (max t.time due)).silent := rfl
        obtain ⟨w, mine, both⟩ := lapses.silent (settle_silent moved)
        rw [← left, rest]
        exact ⟨by omega, w, .turn (by omega) next (by omega) mine, both.trans alike⟩

/-- A check that fails has let time go by, and no more. -/
theorem checkStock_lapses {err : AlertError} (failed : (t.checkStock code).1 = .error err) :
    ∃ u, Lapses (t.checkStock code).2.time t u ∧ u.silent = (t.checkStock code).2.silent := by
  unfold checkStock at failed ⊢
  cases begun : t.watch.beginCheck t.surroundings code with
  | error err => exact ⟨t, .reached rfl, rfl⟩
  | ok p =>
    have sole : p.Sole := beginCheck_ok begun ▸ Pass.ofAlerts_sole Store.code_of_listActiveOf
    have unfailed : p.failed = [] := beginCheck_ok begun ▸ rfl
    have lapses := complete_lapses (t.patience p) (t := t) sole unfailed
    rw [← finish] at lapses
    cases finished : t.finish p with
    | mk q later =>
      rw [finished] at lapses
      simp only [begun, finished, Watch.judgeOne] at failed ⊢
      cases unfound : q.failed with
      | nil =>
        rw [unfound] at failed
        cases failed
      | cons l ls =>
        obtain ⟨-, u, waits, alike⟩ := lapses (by simp [unfound])
        exact ⟨u, waits, alike⟩

example : ((halfMarket.checkStock "000001").2.time, (halfMarket.checkStock "000001").2.calls) =
    (3, [.quote "000001"]) := by
  decide +kernel

end Timeline

end TickerWatch
