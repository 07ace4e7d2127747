import TickerWatch.Proofs.Monitor.Settling

namespace TickerWatch

namespace Pass

variable {o : FetchOptions} {m : Market} {p : Pass} {time now ending : Nat} {clock : Int}

def remaining (m : Market) (time : Nat) (p : Pass) : Nat :=
  (p.waiting.map fun c => min (m.delay c) longestWait).sum +
    (p.inFlight.map fun l => l.2 - time).sum

theorem launch_remaining (p : Pass) :
    (p.launch o m time).1.remaining m time = p.remaining m time := by
  have split := congrArg (fun codes => (codes.map fun c => min (m.delay c) longestWait).sum)
    (List.take_append_drop (p.vacancies o) p.waiting)
  have left : ∀ c, waitEnd time (m.delay c) - time = min (m.delay c) longestWait :=
    fun c => Nat.add_sub_cancel_left _ _
  simp only [List.map_append, List.sum_append] at split
  simp only [remaining, launch, List.map_append, List.map_map, Function.comp_def, left,
    List.sum_append]
  omega

theorem land_remaining (p : Pass) :
    (p.land o m time clock).1.remaining m time = p.remaining m time := by
  obtain ⟨waiting, inFlight⟩ := land_inFlight o m time clock p
  have zero : ∀ flights : List (String × Nat),
      ((flights.filter fun l => time < l.2).map fun l => l.2 - time).sum =
        (flights.map fun l => l.2 - time).sum := by
    intro flights
    induction flights with
    | nil => rfl
    | cons l flights ih =>
      by_cases later : time < l.2
      · simp [later, ih]
      · have past : l.2 - time = 0 := by omega
        simp [later, past, ih]
  rw [remaining, remaining, waiting, inFlight, zero]

theorem rounds_remaining (fuel : Nat) (p : Pass) :
    (rounds o m time clock fuel p).1.remaining m time = p.remaining m time := by
  induction fuel generalizing p with
  | zero => rfl
  | succ fuel ih =>
    unfold rounds
    split
    · rfl
    · exact (ih _).trans ((land_remaining _).trans (launch_remaining p))

theorem advance_remaining (p : Pass) :
    (p.advance o m time clock).1.remaining m time = p.remaining m time := rounds_remaining _ p

theorem remaining_le (now : Nat) (later : time ≤ now) (p : Pass) :
    p.remaining m now ≤ p.remaining m time := by
  refine Nat.add_le_add_left (List.sum_le_sum fun l _ => ?_) _
  omega

theorem remaining_lt (ends : p.nextEnd? = some ending) (forward : time < now) (soon : now ≤ ending) :
    p.remaining m now < p.remaining m time := by
  obtain ⟨member, least⟩ := List.min?_eq_some_iff.mp ends
  obtain ⟨l, flying, rfl⟩ := List.mem_map.mp member
  refine Nat.add_lt_add_left (List.sum_lt_sum _ _ (fun k _ => ?_) ⟨l, flying, ?_⟩) _ <;> omega

theorem ofAlerts_remaining (m : Market) (time : Nat) (alerts : List Alert) :
    (ofAlerts alerts).remaining m time ≤
      ((ofAlerts alerts).waiting.map m.delay).foldl (· + ·) 0 := by
  rw [← List.sum_eq_foldl]
  exact List.sum_le_sum fun c _ => Nat.min_le_left _ _

end Pass

namespace Timeline

variable {t u later : Timeline} {p q : Pass} {among : Market → Prop} {fuel : Nat}
  {calls : List ProviderCall} {log : List Entry}

/-- One turn of a caller who waits: on to the next end of one of his lookups, or to an earlier one
of the loops' waits. -/
inductive Resumes (t : Timeline) (p : Pass) : Timeline → Prop
  | due {time : Nat} (ends : (t.advance p).1.nextEnd? = some time)
      (first : ∀ due, t.nextEnd? = some due → time ≤ due) : Resumes t p (t.resumed p time)
  | early {time due : Nat} (ends : (t.advance p).1.nextEnd? = some time)
      (next : t.nextEnd? = some due) (sooner : due < time) :
      Resumes t p (t.resumed p (max t.time due)).settle

theorem complete_cases (fuel : Nat) (t : Timeline) (p : Pass) :
    ((t.advance p).1.nextEnd? = none ∧ complete (fuel + 1) t p = t.advance p) ∨
      ∃ u, t.Resumes p u ∧ complete (fuel + 1) t p = complete fuel u (t.advance p).1 := by
  cases ends : (t.advance p).1.nextEnd? with
  | none => exact .inl ⟨rfl, complete_none fuel ends⟩
  | some time =>
    right
    have forward : t.time < time := (Pass.slow_lt (m := t.market) (Pass.advance_stuck p) ends).1
    cases next : t.nextEnd? with
    | none => exact ⟨_, .due ends (by simp [next]), complete_some fuel ends (by simp [next])⟩
    | some due =>
      by_cases sooner : due < time
      · refine ⟨_, .early ends next sooner, ?_⟩
        have same : (t.advance p).2.nextEnd? = some due := next
        have now : (t.advance p).2.time = t.time := rfl
        have least : min time due = due := by omega
        have other : ¬ max t.time due = time := by omega
        simp only [complete, ends, same, now, Option.getD_some, least, other, ↓reduceIte]
        rfl
      · have quiet : ∀ going, t.nextEnd? = some going → time ≤ going := by
          intro going known
          rw [next, Option.some.injEq] at known
          omega
        exact ⟨_, .due ends quiet, complete_some fuel ends quiet⟩

theorem Resumes.sources (resumes : t.Resumes p u) :
    u.market = t.market ∧ u.options = t.options := by
  cases resumes with
  | due ends first => exact ⟨rfl, rfl⟩
  | early ends next sooner => exact settleFrom_sources _ _

theorem Resumes.sound (resumes : t.Resumes p u) (sound : t.polling.Sound) : u.polling.Sound := by
  cases resumes with
  | due ends first => exact sound
  | early ends next sooner => exact (settle_reaches (t.resumed p _)).sound sound

/-- Before each turn two more are left for every millisecond that the lookups may still take, and
one more if a loop goes on at this very moment. -/
theorem complete_done (sound : t.polling.Sound)
    (enough : 2 * p.remaining t.market t.time + 2 ≤ fuel ∨
      2 * p.remaining t.market t.time + 1 ≤ fuel ∧ ∀ due, t.nextEnd? = some due → t.time < due) :
    (complete fuel t p).1.isDone = true := by
  induction fuel generalizing t p with
  | zero => omega
  | succ fuel ih =>
    have stuck : (t.advance p).1.isStuck t.options t.time = true := Pass.advance_stuck p
    have left : (t.advance p).1.remaining t.market t.time = p.remaining t.market t.time :=
      Pass.advance_remaining p
    rcases complete_cases fuel t p with ⟨last, same⟩ | ⟨u, resumes, same⟩
    · rw [same]
      exact Pass.isDone_of_stuck stuck last
    · rw [same]
      have soundToo := resumes.sound sound
      obtain ⟨market, -⟩ := resumes.sources
      -- A turn for a loop may take no time, but after it no loop goes on at once.
      cases resumes with
      | @due time ends first =>
        have forward := (Pass.slow_lt (m := t.market) stuck ends).1
        have fewer := Pass.remaining_lt (m := t.market) ends forward (Nat.le_refl _)
        have least : (t.advance p).1.remaining (t.resumed p time).market (t.resumed p time).time <
            p.remaining t.market t.time := left ▸ fewer
        exact ih soundToo (.inl (by omega))
      | @early time due ends next sooner =>
        have forward := (Pass.slow_lt (m := t.market) stuck ends).1
        have now : (t.resumed p (max t.time due)).settle.time = max t.time due := settle_time _
        have rest : (t.resumed p (max t.time due)).settle.AtRest := settle_atRest sound
        refine ih soundToo (.inr ⟨?_, fun going known => rest.later known⟩)
        rw [market, now]
        by_cases passes : t.time < due
        · have passed : t.time < max t.time due := by omega
          have fewer := Pass.remaining_lt (m := t.market) ends passed (by omega)
          omega
        · have most := Pass.remaining_le (m := t.market) (max t.time due) (Nat.le_max_left _ _)
            (t.advance p).1
          rcases enough with roomy | ⟨-, ahead⟩
          · omega
          · exact absurd (ahead due next) passes

theorem advance_runs (t : Timeline) (p : Pass) : t.Runs [] (t.advance p).2 :=
  have noted : t.Passage [] (t.advance p).2 := .around rfl rfl rfl rfl
  noted.run

theorem Resumes.runs (resumes : t.Resumes p u) (calm : t.Calm) (sound : t.polling.Sound) :
    ∃ log, (t.advance p).2.Unattended log u ∧ u.Calm ∧
      (t.polling.loops = [] → log = [] ∧ u.polling.loops = []) := by
  have still : (t.advance p).2.Calm := calm.around rfl rfl rfl
  cases resumes with
  | @due time ends first =>
    have forward := (Pass.slow_lt (m := t.market) (Pass.advance_stuck p) ends).1
    obtain ⟨wait, calmToo⟩ := still.wait time (Nat.le_of_lt forward) first
    exact ⟨[], wait, calmToo, fun none => ⟨rfl, none⟩⟩
  | @early time due ends next sooner =>
    have ahead := calm.ahead due next
    obtain ⟨wait, -⟩ := still.wait (max t.time due) (Nat.le_max_left _ _) fun going known => by
      rw [show (t.advance p).2.nextEnd? = some due from next, Option.some.injEq] at known
      omega
    obtain ⟨log, settles⟩ := settle_runs (t.resumed p (max t.time due))
    have rest : (t.resumed p (max t.time due)).settle.AtRest := settle_atRest sound
    refine ⟨log, wait.trans settles, rest.calm, fun none => ?_⟩
    simp [nextEnd?, none] at next

structure Meanwhile (t : Timeline) (calls new : List ProviderCall) (log : List Entry) (u : Timeline) :
    Prop where
  run : t.Runs log u
  noted : u.calls = new.reverse ++ t.calls
  shares : new.Perm (calls ++ asked log)
  driven : ∀ e ∈ log, ∃ generation doing, e.note = .loop generation doing
  alone : t.polling.loops = [] → log = []

theorem complete_runs (fuel : Nat) (admitted : among t.market) (calm : t.Calm)
    (sound : t.polling.Sound) :
    ∃ calls new log, Pass.Course t.options among p calls (complete fuel t p).1 ∧
      t.Meanwhile calls new log (complete fuel t p).2 := by
  induction fuel generalizing t p with
  | zero => exact ⟨[], [], [], .start, .begin, rfl, .refl _, nofun, fun _ => rfl⟩
  | succ fuel ih =>
    have course : Pass.Course t.options among p (p.advance t.options t.market t.time t.clock).2
        (t.advance p).1 := Pass.advance_course admitted p t.time t.clock
    have noted : (t.advance p).2.calls =
      (p.advance t.options t.market t.time t.clock).2.reverse ++ t.calls := rfl
    generalize (p.advance t.options t.market t.time t.clock).2 = own at course noted
    rcases complete_cases fuel t p with ⟨last, same⟩ | ⟨u, resumes, same⟩
    · rw [same]
      exact ⟨own, own, [], course, advance_runs t p, noted, by simp [asked], nofun, fun _ => rfl⟩
    · obtain ⟨market, options⟩ := resumes.sources
      obtain ⟨log, between, calmToo, still⟩ := resumes.runs calm sound
      obtain ⟨rest, later, more, onward, further⟩ :=
        ih (t := u) (p := (t.advance p).1) (market ▸ admitted) calmToo (resumes.sound sound)
      rw [options] at onward
      rw [same]
      refine ⟨own ++ rest, own ++ asked log ++ later, log ++ more, course.trans onward,
        ((advance_runs t p).trans between.run).trans further.run, ?_, ?_, ?_, ?_⟩
      · rw [further.noted, between.calls, noted]
        simp only [List.reverse_append, List.append_assoc]
      · -- The loops have asked between this round of the pass and the next ones.
        have swap : (asked log ++ rest).Perm (rest ++ asked log) := List.perm_append_comm
        have apart := (further.shares.append_left (asked log)).trans
          (by simpa using swap.append_right (asked more))
        rw [asked_append, List.append_assoc, List.append_assoc]
        exact apart.append_left own
      · intro e member
        rcases List.mem_append.mp member with before | after
        · exact between.driven e before
        · exact further.driven e after
      · intro none
        obtain ⟨unnoted, noneToo⟩ := still none
        rw [unnoted, further.alone noneToo, List.append_nil]

theorem finish_runs {first : Pass} (admitted : among t.market) (calm : t.Calm)
    (sound : t.polling.Sound) (finished : t.finish first = (p, later)) :
    ∃ calls new log, Pass.Course t.options among first calls p ∧
      t.Meanwhile calls new log later := by
  have runs := complete_runs (p := first) (t.patience first) admitted calm sound
  rw [← finish, finished] at runs
  exact runs

theorem finish_done {alerts : List Alert} (sound : t.polling.Sound)
    (finished : t.finish (.ofAlerts alerts) = (p, later)) : p.isDone = true := by
  have most := Pass.ofAlerts_remaining t.market t.time alerts
  have enough : 2 * (Pass.ofAlerts alerts).remaining t.market t.time + 2 ≤
      t.patience (.ofAlerts alerts) := by
    unfold patience
    omega
  have done := complete_done sound (.inl enough)
  rw [← finish, finished] at done
  exact done

end Timeline

end TickerWatch
