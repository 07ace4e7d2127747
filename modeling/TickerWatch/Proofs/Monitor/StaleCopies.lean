import TickerWatch.Proofs.Monitor.Scene

namespace TickerWatch

theorem Alert.state_disabled (a : Alert) (now : Int) :
    a.state now = .disabled ↔ a.isActive = false := by
  unfold state
  cases a.isActive with
  | false => simp
  | true => cases a.inCooldown now <;> simp

theorem Alert.state_switch (a : Alert) (switch : Bool) (now : Int) :
    { a with isActive := switch }.state now = a.state now ↔ switch = a.isActive := by
  constructor
  · intro same
    have off : switch = false ↔ a.isActive = false := by
      rw [← state_disabled a now, ← same, state_disabled]
    cases switch with
    | false => exact (off.mp rfl).symm
    | true => simpa using off
  · rintro rfl
    rfl

theorem Desk.gate_armed_iff {d : Desk} {e : Surroundings} {a : Alert} (active : a.isActive = true)
    (works : e.outages.Works (.inCooldown a.id)) :
    d.gate e a = .ok .armed ↔
      ∃ stored, d.store.find? a.id = some stored ∧ stored.inCooldown e.now = false := by
  constructor
  · intro armed
    exact (gate_armed armed).2
  · rintro ⟨stored, found, passed⟩
    rw [gate_stored found works, active]
    simp only [Alert.inCooldown] at passed
    simp [Alert.state, Alert.inCooldown, passed]

theorem Watch.judgeCopy_isSome {w : Watch} {e : Surroundings} {copy : Alert} {x : Snapshot} :
    (w.judgeCopy e copy x).isSome = true ↔
      w.desk.gate e copy = .ok .armed ∧ (copy.rule.verdict x copy.sensitivity).fired = true := by
  unfold judgeCopy Desk.check
  cases w.desk.gate e copy with
  | error err => simp
  | ok state =>
    cases state <;> cases fired : (copy.rule.verdict x copy.sensitivity).fired <;> simp [fired]

namespace Scene

/-- Only listings add to the copies, and what is listed is active. -/
theorem step_copies {s : Scene} {act : Act} {copy : Alert} (member : copy ∈ (s.step act).copies) :
    copy ∈ s.copies ∨ copy.isActive = true := by
  cases act with
  | request e r => exact .inl member
  | tick e =>
    obtain ⟨listing, lists, opened⟩ := s.tick_lists e
    rw [opened] at member
    rcases List.mem_append.mp member with before | listed
    · exact .inl before
    · exact .inr (lists.active listed).2
  | check e code =>
    obtain ⟨listing, lists, opened⟩ := s.check_lists e code
    rw [opened] at member
    rcases List.mem_append.mp member with before | listed
    · exact .inl before
    · exact .inr (lists.active listed).2
  | judge i snapshot e =>
    cases found : s.copies[i]? with
    | none =>
      simp only [step, found] at member
      exact .inl member
    | some judged =>
      simp only [step, found] at member
      exact .inl (List.mem_of_mem_eraseIdx member)
  | advance i e =>
    cases found : s.firings[i]? <;> simp only [step, found] at member <;> exact .inl member

theorem copies_active {s : Scene} (active : ∀ copy ∈ s.copies, copy.isActive = true)
    (acts : List Act) : ∀ copy ∈ (s.run acts).copies, copy.isActive = true := by
  induction acts generalizing s with
  | nil => exact active
  | cons act acts ih =>
    apply ih
    intro copy member
    rcases step_copies member with before | listed
    · exact active copy before
    · exact listed

/-- A copy that is switched off is turned away unseen. Any other comes out as the stored record
would with the switch of the copy, and as it does only if the switches agree. A check that is under
way therefore fires an alert that was switched off meanwhile, but none that has gone or that has
fired within its window. -/
theorem copy_switch_stored_window :
    (∀ (d : Desk) (e : Surroundings) (copy : Alert),
      (copy.isActive = false → d.gate e copy = .ok .disabled) ∧
      (copy.isActive = true → d.store.find? copy.id = none →
        ∃ reason, d.gate e copy = .error (.repository reason)) ∧
      (e.outages.Works (.inCooldown copy.id) →
        ∀ stored, d.store.find? copy.id = some stored →
          d.gate e copy = .ok ({ stored with isActive := copy.isActive }.state e.now) ∧
          (d.gate e copy = .ok (stored.state e.now) ↔ copy.isActive = stored.isActive))) ∧
    ∀ (s : Scene) (acts : List Act), (∀ copy ∈ s.copies, copy.isActive = true) →
      ∀ (i : Nat) (copy : Alert) (x : Snapshot) (e : Surroundings),
        (s.run acts).copies[i]? = some copy →
          copy.isActive = true ∧
          (e.outages.Works (.inCooldown copy.id) →
            (((s.run acts).watch.judgeCopy e copy x).isSome = true ↔
              (∃ stored, (s.run acts).store.find? copy.id = some stored ∧
                stored.inCooldown e.now = false) ∧
              (copy.rule.verdict x copy.sensitivity).fired = true)) := by
  constructor
  · intro d e copy
    refine ⟨?_, Desk.gate_absent, fun works stored found => ?_⟩
    · intro off
      simp [Desk.gate, off]
    · have judged := Desk.gate_stored found works
      refine ⟨judged, ?_⟩
      rw [judged, Except.ok.injEq]
      exact stored.state_switch copy.isActive e.now
  · intro s acts active i copy x e held
    have on := copies_active active acts copy (List.mem_of_getElem? held)
    refine ⟨on, fun works => ?_⟩
    rw [Watch.judgeCopy_isSome, Desk.gate_armed_iff on works]

def switchedOff : List Act :=
  [.request { now := 0 } (.create (.rise 1 .keepActive)), .tick { now := 10 },
    .request { now := 20 } (.toggle ⟨1⟩)]

theorem switchedOff_held :
    ∃ copy stored, (opening.run switchedOff).copies[0]? = some copy ∧
      (opening.run switchedOff).store.find? copy.id = some stored ∧
      copy.isActive = true ∧ stored.isActive = false ∧ stored.inCooldown 30 = false ∧
      (copy.rule.verdict { changePercent := 6.2 } copy.sensitivity).fired = true := by
  have facts : ((opening.run switchedOff).copies[0]?.bind fun copy =>
      ((opening.run switchedOff).store.find? copy.id).map fun stored =>
        (copy.isActive, stored.isActive, stored.inCooldown 30,
          (copy.rule.verdict { changePercent := 6.2 } copy.sensitivity).fired)) =
      some (true, false, false, true) := by decide +kernel
  obtain ⟨copy, listed, facts⟩ := Option.bind_eq_some_iff.mp facts
  obtain ⟨stored, found, facts⟩ := Option.map_eq_some_iff.mp facts
  simp only [Prod.mk.injEq] at facts
  exact ⟨copy, stored, listed, found, facts⟩

/-- The stored record is disabled, and the copy fires. With nothing stored, the copy is disabled
once it is switched off itself. -/
theorem disabled_in_store_fires :
    ∃ copy stored, (opening.run switchedOff).copies[0]? = some copy ∧
      (opening.run switchedOff).store.find? copy.id = some stored ∧
      stored.state 30 = .disabled ∧
      (opening.run switchedOff).desk.gate { now := 30 } copy = .ok .armed ∧
      ((opening.run switchedOff).watch.judgeCopy { now := 30 } copy
        { changePercent := 6.2 }).isSome = true ∧
      opening.store.find? copy.id = none ∧
      opening.desk.gate { now := 30 } { copy with isActive := false } = .ok .disabled := by
  obtain ⟨copy, stored, listed, found, active, off, passed, fired⟩ := switchedOff_held
  generalize opening.run switchedOff = s at listed found ⊢
  have works : ({ now := 30 } : Surroundings).outages.Works (.inCooldown copy.id) := nofun
  have armed : s.desk.gate { now := 30 } copy = .ok .armed :=
    (Desk.gate_armed_iff active works).mpr ⟨stored, found, passed⟩
  exact ⟨copy, stored, listed, found, (stored.state_disabled 30).mpr off, armed,
    Watch.judgeCopy_isSome.mpr ⟨armed, fired⟩, rfl, rfl⟩

theorem held_rise_judged_by_stored_window :
    ∃ copy stored, (opening.run switchedOff).copies[0]? = some copy ∧
      (opening.run switchedOff).store.find? copy.id = some stored ∧
      (opening.run switchedOff).desk.gate { now := 30 } copy =
        .ok ({ stored with isActive := copy.isActive }.state 30) ∧
      ((opening.run switchedOff).watch.judgeCopy { now := 30 } copy
        { changePercent := 6.2 }).isSome = true ∧
      (∃ reason, opening.desk.gate { now := 30 } copy = .error (.repository reason)) ∧
      opening.desk.gate { now := 30 } { copy with isActive := false } = .ok .disabled := by
  obtain ⟨copy, stored, listed, found, active, off, passed, fired⟩ := switchedOff_held
  have works : ({ now := 30 } : Surroundings).outages.Works (.inCooldown copy.id) := nofun
  obtain ⟨-, -, judged⟩ :=
    copy_switch_stored_window.1 (opening.run switchedOff).desk { now := 30 } copy
  obtain ⟨-, gone, -⟩ := copy_switch_stored_window.1 opening.desk { now := 30 } copy
  obtain ⟨turned, -, -⟩ :=
    copy_switch_stored_window.1 opening.desk { now := 30 } { copy with isActive := false }
  obtain ⟨-, fires⟩ := copy_switch_stored_window.2 opening switchedOff (by simp [opening]) 0 copy
    { changePercent := 6.2 } { now := 30 } listed
  generalize opening.run switchedOff = s at listed found judged fires ⊢
  exact ⟨copy, stored, listed, found, (judged works stored found).1,
    (fires works).mpr ⟨⟨stored, found, passed⟩, fired⟩, gone active rfl, turned rfl⟩

end Scene

end TickerWatch
