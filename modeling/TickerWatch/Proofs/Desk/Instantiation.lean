import TickerWatch.Proofs.Decimal.Parts
import TickerWatch.Proofs.Desk.Requirements
import TickerWatch.Proofs.Rule.RoundTrip

namespace TickerWatch

open Json

structure Condition.MadeOf (placeholder : Condition) (params : Params) (c : Condition) : Prop where
  field : c.field = placeholder.field
  operator : c.operator = placeholder.operator
  reference : c.reference = placeholder.reference
  forAll : ∀ x, params.lookup "value" = some x → (c.value == x) = true
  forField : params.lookup "value" = none → ∀ x, params.lookup placeholder.field.name = some x →
    (c.value == x) = true
  kept : params.lookup "value" = none → params.lookup placeholder.field.name = none →
    (c.value == placeholder.value) = true

theorem Condition.finite_of_beq {cs cs' : List Condition} (same : (cs == cs') = true)
    (finite : ∀ c ∈ cs', c.value.isFinite = true) : ∀ c ∈ cs, c.value.isFinite = true := by
  induction cs generalizing cs' with
  | nil => exact nofun
  | cons c cs ih =>
    cases cs' with
    | nil => cases same
    | cons c' cs' =>
      rw [List.cons_beq_cons, Bool.and_eq_true, beq_iff] at same
      rw [List.forall_mem_cons] at finite ⊢
      exact ⟨Decimal.finite_of_beq same.1.2.2.1 finite.1, ih same.2 finite.2⟩

namespace Params

/-- The hours that are asked for: whole ones, up to a day, or one where nothing is asked. -/
def Hours (params : Params) (hours : Nat) : Prop :=
  match params.lookup "cooldown_hours" with
  | none => hours = 1
  | some x => hours ≤ 24 ∧ (x == Float.ofNat hours) = true

variable {params : Params}

theorem whole?_hour : ∀ hours < 25, Decimal.whole? (Float.ofNat hours) = some (hours : Int) := by
  decide +kernel

theorem whole?_hours {x : Float} {hours : Nat} (day : hours ≤ 24) :
    Decimal.whole? x = some (hours : Int) ↔ (x == Float.ofNat hours) = true := by
  have hour := whole?_hour hours (by omega)
  exact ⟨fun whole => Decimal.beq_of_whole? whole hour,
    fun same => Decimal.whole?_of_beq same hour⟩

/-- No number of hours comes into the range by being clamped. -/
theorem cooldownHours_allowed {n : Int} :
    (params.cooldownHours = .ok n ∧ 0 ≤ n ∧ n ≤ 24) ↔
      ∃ hours, params.Hours hours ∧ n = hours := by
  unfold cooldownHours Hours cooldownKey
  cases params.lookup "cooldown_hours" with
  | none =>
    constructor
    · rintro ⟨⟨⟩, -⟩
      exact ⟨1, rfl, rfl⟩
    · rintro ⟨hours, rfl, rfl⟩
      exact ⟨rfl, by omega, by omega⟩
  | some x =>
    constructor
    · rintro ⟨clamped, low, high⟩
      dsimp only at clamped
      split at clamped
      · rename_i m whole
        obtain rfl := Except.ok.inj clamped
        have inside : m = ((clampInt32 m).toNat : Int) := by
          unfold clampInt32 at low high ⊢
          omega
        have day : (clampInt32 m).toNat ≤ 24 := by omega
        rw [inside] at whole
        exact ⟨_, ⟨day, (whole?_hours day).mp whole⟩, by omega⟩
      · cases clamped
    · rintro ⟨hours, ⟨day, same⟩, rfl⟩
      have inside : clampInt32 hours = hours := by
        unfold clampInt32
        omega
      simp only [(whole?_hours day).mpr same, inside]
      exact ⟨trivial, by omega, by omega⟩

theorem Hours.le_day {hours : Nat} (asked : params.Hours hours) : hours ≤ 24 := by
  unfold Hours at asked
  split at asked
  · omega
  · exact asked.1

theorem valueOf_makes {placeholder c : Condition} (field : c.field = placeholder.field)
    (operator : c.operator = placeholder.operator) (reference : c.reference = placeholder.reference)
    (value : (c.value == params.valueOf placeholder) = true) : placeholder.MadeOf params c := by
  refine ⟨field, operator, reference, fun x forAll => ?_, fun absent x forField => ?_,
    fun absent silent => ?_⟩
  · simpa [valueOf, valueKey, forAll] using value
  · simpa [valueOf, valueKey, absent, forField] using value
  · simpa [valueOf, valueKey, absent, silent] using value

theorem applyTo_makes {placeholders cs : List Condition}
    (same : (cs == placeholders.map fun c => { c with value := params.valueOf c }) = true) :
    List.Forall₂ (fun placeholder c => placeholder.MadeOf params c) placeholders cs := by
  induction placeholders generalizing cs with
  | nil =>
    cases cs with
    | nil => exact .nil
    | cons c cs => cases same
  | cons placeholder placeholders ih =>
    cases cs with
    | nil => cases same
    | cons c cs =>
      rw [List.map_cons, List.cons_beq_cons, Bool.and_eq_true, Condition.beq_iff] at same
      obtain ⟨⟨field, operator, value, reference⟩, more⟩ := same
      exact .cons (valueOf_makes field operator reference value) (ih more)

end Params

/-- What a template and its parameters have to be like for an alert to come from them. -/
structure Template.Accepts (t : Template) (code name : String) (params : Params) : Prop where
  alertType : Text.trim t.alertType ≠ ""
  conditions : t.rule.conditions ≠ []
  cooldown : ∃ hours, params.Hours hours
  sensitivity : ∀ x, params.lookup "sensitivity" = some x → 0 ≤ x ∧ x ≤ 0.1
  code : Text.trim code ≠ ""
  name : Text.trim name ≠ ""
  values : ∀ c ∈ t.rule.conditions, (params.valueOf c).isFinite = true

structure Alert.MadeOf (a : Alert) (t : Template) (code name : String) (params : Params) : Prop where
  code : a.code = Text.upper (Text.trim code)
  name : a.name = Text.trim name
  alertType : a.alertType = Text.trim t.alertType
  cooldown : ∃ hours, params.Hours hours ∧ a.cooldownHours = hours
  sensitivity : a.sensitivity = (params.lookup "sensitivity").getD 0.001
  postTrigger : a.postTrigger = .keepActive
  active : a.isActive = true
  logic : a.rule.logic = t.rule.logic
  conditions : List.Forall₂ (fun placeholder c => placeholder.MadeOf params c) t.rule.conditions
    a.rule.conditions

namespace Params

variable {params : Params} {r rule : Rule}

/-- Every value that the parameters make, if it is finite, is read from its number text as an equal
one. -/
def Survive (params : Params) (r : Rule) : Prop :=
  ∀ c ∈ r.conditions, (params.valueOf c).isFinite = true →
    ∃ y, reading (params.valueOf c) = some y ∧ (y == params.valueOf c) = true

theorem applyTo_canonical (canonical : r.Canonical) : (params.applyTo r).Canonical := by
  intro c member
  obtain ⟨placeholder, among, rfl⟩ := List.mem_map.mp member
  obtain ⟨field, operator, reference⟩ := canonical placeholder among
  exact ⟨field, operator, reference⟩

/-- A rule with finite values is read back from its text equal. -/
theorem applyTo_restored (canonical : r.Canonical) (survive : params.Survive r)
    (finite : ∀ c ∈ r.conditions, (params.valueOf c).isFinite = true) :
    ∃ rule, Rule.ofJson (params.applyTo r).toJson = .ok rule ∧
      (rule == params.applyTo r) = true := by
  have safe : ∀ c ∈ (params.applyTo r).conditions,
      ∃ y, reading c.value = some y ∧ (y == c.value) = true := by
    intro c member
    obtain ⟨placeholder, among, rfl⟩ := List.mem_map.mp member
    exact survive placeholder among (finite placeholder among)
  have read := (params.applyTo r).ofJson_toJson
  obtain ⟨cs, renewed, equal⟩ := conditions_renewed safe
  rw [renewed] at read
  exact ⟨_, ok_of_toOption read, Rule.beq_iff.mpr ⟨rfl, equal.mpr (applyTo_canonical canonical)⟩⟩

/-- A rule with a value that is not finite is not read back. -/
theorem applyTo_finite (read : Rule.ofJson (params.applyTo r).toJson = .ok rule) :
    ∀ c ∈ r.conditions, (params.valueOf c).isFinite = true := by
  intro c among
  apply Classical.byContradiction
  intro infinite
  have member : { c with value := params.valueOf c } ∈ (params.applyTo r).conditions :=
    List.mem_map.mpr ⟨c, among, rfl⟩
  have refused := (params.applyTo r).ofJson_toJson
  rw [conditions_refused member (reading_not_finite (by simpa using infinite)), read] at refused
  cases refused

end Params

namespace Template

theorem builtin_canonical : ∀ t ∈ builtin, t.rule.Canonical := by
  have named : ∀ t ∈ builtin, ∀ c ∈ t.rule.conditions, Field.ofName c.field.name = c.field ∧
      Operator.ofSymbol c.operator.symbol = c.operator ∧
      ∀ r ∈ c.reference, Reference.ofName r.name = r := by
    decide +kernel
  intro t member c among
  obtain ⟨field, operator, reference⟩ := named t member c among
  exact ⟨c.field.ofName_name.mp field, c.operator.ofSymbol_symbol.mp operator,
    fun r some => r.ofName_name.mp (reference r some)⟩

variable {t : Template} {code name : String} {params : Params} {c : Checked}

def definition (t : Template) (code name : String) (params : Params) (hours : Int) : Definition where
  code := code
  name := name
  alertType := t.alertType
  conditions := (params.applyTo t.rule).toJson
  sensitivity := params.sensitivity
  cooldownHours := hours

theorem define_ok {input : Definition} : t.define code name params = .ok input ↔
    ∃ hours, params.cooldownHours = .ok hours ∧ input = t.definition code name params hours := by
  unfold define
  cases params.cooldownHours with
  | error f => exact ⟨nofun, nofun⟩
  | ok n => simp [Except.map, definition, eq_comm]

section Met

variable {hours : Nat} (canonical : t.rule.Canonical) (survive : params.Survive t.rule)
  (asked : params.Hours hours)

include canonical survive asked

theorem accepts_of_met (met : ∀ r, Requirement.Met (t.definition code name params hours) r) :
    t.Accepts code name params := by
  -- A value that is not finite leaves no rule to read, so all are finite where one is read.
  obtain ⟨rule, read⟩ := met .ruleText
  have finite := Params.applyTo_finite read
  refine ⟨met .alertType, fun empty => ?_, ⟨hours, asked⟩, fun x given => ?_, met .code,
    met .name, finite⟩
  · obtain ⟨rule', again, equal⟩ := Params.applyTo_restored canonical survive finite
    cases read.symm.trans again
    have same := (Rule.beq_iff.mp equal).2
    rw [Params.applyTo, empty] at same
    exact met .conditions rule read (by simpa using same)
  · have range := met .sensitivity
    simpa [Requirement.Met, definition, Params.sensitivity, Params.sensitivityKey, given]
      using range

theorem met_of_accepts (accepts : t.Accepts code name params) (r : Requirement) :
    Requirement.Met (t.definition code name params hours) r := by
  obtain ⟨rule, read, equal⟩ := Params.applyTo_restored canonical survive accepts.values
  have same := (Rule.beq_iff.mp equal).2
  have rules : ∀ rule', Rule.ofJson (params.applyTo t.rule).toJson = .ok rule' → rule' = rule :=
    fun rule' again => Except.ok.inj (again.symm.trans read)
  cases r with
  | code => exact accepts.code
  | name => exact accepts.name
  | alertType => exact accepts.alertType
  | ruleText => exact ⟨rule, read⟩
  | conditions =>
    intro rule' again empty
    rw [rules rule' again] at empty
    rw [empty] at same
    exact accepts.conditions (by simpa [Params.applyTo] using same)
  | values =>
    intro rule' again
    rw [rules rule' again]
    apply Condition.finite_of_beq same
    intro c member
    obtain ⟨placeholder, among, rfl⟩ := List.mem_map.mp member
    exact accepts.values placeholder among
  | sensitivity =>
    show 0 ≤ params.sensitivity ∧ params.sensitivity ≤ 0.1
    unfold Params.sensitivity Params.sensitivityKey
    cases given : params.lookup "sensitivity" with
    | none => decide +kernel
    | some x => exact accepts.sensitivity x given
  | cooldown =>
    have := asked.le_day
    exact ⟨Int.natCast_nonneg hours, by show (hours : Int) ≤ 24; omega⟩
  | postTrigger =>
    refine ⟨.keepActive, ?_⟩
    show PostTrigger.keepActive.name = Text.lower (Text.trim PostTrigger.keepActive.name)
    decide +kernel

end Met

theorem accepts_of_check {n : Int} (canonical : t.rule.Canonical) (survive : params.Survive t.rule)
    (settled : params.cooldownHours = .ok n)
    (accepted : (t.definition code name params n).check = .ok c) :
    t.Accepts code name params := by
  obtain ⟨met, -⟩ := Definition.check_ok accepted
  obtain ⟨hours, asked, rfl⟩ := Params.cooldownHours_allowed.mp ⟨settled, met .cooldown⟩
  exact accepts_of_met canonical survive asked met

theorem madeOf_define {n now : Int} {id : RecordId} (canonical : t.rule.Canonical)
    (survive : params.Survive t.rule) (settled : params.cooldownHours = .ok n)
    (accepted : (t.definition code name params n).check = .ok c) :
    (Alert.define id (t.definition code name params n) c now).MadeOf t code name params := by
  have accepts := accepts_of_check canonical survive settled accepted
  obtain ⟨met, yields⟩ := Definition.check_ok accepted
  obtain ⟨rule, read, equal⟩ := Params.applyTo_restored canonical survive accepts.values
  obtain rfl : rule = c.rule := Except.ok.inj (read.symm.trans yields.rule)
  obtain ⟨logic, conditions⟩ := Rule.beq_iff.mp equal
  constructor
  · exact yields.code
  · exact yields.name
  · exact yields.alertType
  · exact Params.cooldownHours_allowed.mp ⟨settled, met .cooldown⟩
  · rfl
  · apply PostTrigger.name_injective
    refine yields.postTrigger.trans ?_
    show Text.lower (Text.trim PostTrigger.keepActive.name) = PostTrigger.keepActive.name
    decide +kernel
  · rfl
  · exact logic
  · exact Params.applyTo_makes conditions

end Template

namespace Desk

variable {d : Desk} {e : Surroundings} {template code name : String} {params : Params} {a : Alert}

theorem instantiate_made (made : (d.instantiate e template code name params).1 = .ok a) :
    ∃ t hours c, d.store.findTemplate? template = some t ∧ params.cooldownHours = .ok hours ∧
      (t.definition code name params hours).check = .ok c ∧
      a = .define d.nextId (t.definition code name params hours) c e.now := by
  have settles := d.serve_settles e (.instantiate template code name params)
  have served : d.serve e (.instantiate template code name params) =
      (.ok (.stored a), (d.instantiate e template code name params).2) := by
    show handing .stored _ = _
    rw [handing, made]
    rfl
  rw [served] at settles
  generalize (d.instantiate e template code name params).2 = after at settles
  cases settles with
  | done served =>
    generalize receipt : Receipt.stored a = stored at served
    cases served with
    | defined defines checked =>
      obtain ⟨t, found, defined⟩ := defines
      obtain ⟨hours, asked, rfl⟩ := Template.define_ok.mp defined
      cases receipt
      exact ⟨t, hours, _, found, asked, checked, rfl⟩

theorem create_checked {input : Definition} {c : Checked} (checked : input.check = .ok c)
    (inserts : e.outages.Works (.insertAlert d.nextId)) (fresh : d.store.has d.nextId = false) :
    (d.create e input).1 = .ok (.define d.nextId input c e.now) := by
  have inserted : e.outages.insert d.store (.define d.nextId input c e.now) =
      .ok (d.store.adding (.define d.nextId input c e.now)) := by
    refine (Outages.guard_answers inserts).trans ?_
    simp [Store.insert, Alert.define, fresh, Store.adding]
  simp [create, checked, newId, inserted]

theorem instantiate_checked {t : Template} {hours : Int} {c : Checked}
    (finds : e.outages.Works (.findTemplate template))
    (inserts : e.outages.Works (.insertAlert d.nextId)) (fresh : d.store.has d.nextId = false)
    (found : d.store.findTemplate? template = some t) (asked : params.cooldownHours = .ok hours)
    (checked : (t.definition code name params hours).check = .ok c) :
    (d.instantiate e template code name params).1 =
      .ok (.define d.nextId (t.definition code name params hours) c e.now) := by
  unfold instantiate
  rw [Outages.findTemplate, Outages.guard_answers finds, found]
  dsimp only
  rw [Template.define_ok.mpr ⟨hours, asked, rfl⟩]
  exact create_checked checked inserts fresh

/-- An alert comes from a template exactly if the template is there and accepts what it is given;
the parameters and their absence then settle the parts of the alert. -/
theorem instantiate_ok_iff_accepts (finds : e.outages.Works (.findTemplate template))
    (inserts : e.outages.Works (.insertAlert d.nextId)) (fresh : d.store.has d.nextId = false)
    (canonical : ∀ t ∈ d.store.templates, t.rule.Canonical)
    (survive : ∀ t, d.store.findTemplate? template = some t → params.Survive t.rule) :
    ((∃ a, (d.instantiate e template code name params).1 = .ok a) ↔
      ∃ t, d.store.findTemplate? template = some t ∧ t.Accepts code name params) ∧
    ∀ a, (d.instantiate e template code name params).1 = .ok a →
      ∃ t, d.store.findTemplate? template = some t ∧ a.MadeOf t code name params := by
  have canonicalFound : ∀ t, d.store.findTemplate? template = some t → t.rule.Canonical :=
    fun t found => canonical t (List.mem_of_find?_eq_some found)
  refine ⟨⟨?_, ?_⟩, ?_⟩
  · rintro ⟨a, made⟩
    obtain ⟨t, n, c, found, settled, accepted, -⟩ := instantiate_made made
    exact ⟨t, found,
      Template.accepts_of_check (canonicalFound t found) (survive t found) settled accepted⟩
  · rintro ⟨t, found, accepts⟩
    obtain ⟨hours, asked⟩ := accepts.cooldown
    obtain ⟨settled, -⟩ := Params.cooldownHours_allowed.mpr ⟨hours, asked, rfl⟩
    obtain ⟨c, accepted⟩ := Definition.check_of_met
      (Template.met_of_accepts (canonicalFound t found) (survive t found) asked accepts)
    exact ⟨_, instantiate_checked finds inserts fresh found settled accepted⟩
  · intro a made
    obtain ⟨t, n, c, found, settled, accepted, rfl⟩ := instantiate_made made
    exact ⟨t, found,
      Template.madeOf_define (canonicalFound t found) (survive t found) settled accepted⟩

def supplied : Desk where
  store := { templates := Template.builtin }
  feed := { capacity := 16 }
  nextId := ⟨1⟩

def patient : Params := [("volume_ratio", 2.5), ("cooldown_hours", 24), ("sensitivity", 0.1)]

def tooPatient : Params := [("volume_ratio", 2.5), ("cooldown_hours", 4294967297)]

def volumeSpike : Template := Template.builtin[4]

theorem volume_spike_accepts_patient :
    (∃ a, (supplied.instantiate { now := 0 } "volume_spike" " sh600000" "Bank" patient).1 = .ok a ∧
      a.MadeOf volumeSpike " sh600000" "Bank" patient) ∧
    ¬ ∃ a, (supplied.instantiate { now := 0 } "volume_spike" "sh600000" "Bank" tooPatient).1 =
      .ok a := by
  have found : supplied.store.findTemplate? "volume_spike" = some volumeSpike := rfl
  have survive : ∀ params ∈ [patient, tooPatient], ∀ t,
      supplied.store.findTemplate? "volume_spike" = some t → params.Survive t.rule := by
    rintro params member t again
    cases found.symm.trans again
    have reads : ∀ params ∈ [patient, tooPatient], ∀ c ∈ volumeSpike.rule.conditions,
        (TickerWatch.reading (params.valueOf c)).any (· == params.valueOf c) = true := by
      decide +kernel
    intro c among _
    exact (Option.any_eq_true _ _).mp (reads params member c among)
  have accepted := @instantiate_ok_iff_accepts supplied { now := 0 } "volume_spike" " sh600000" "Bank"
    patient nofun nofun (by decide +kernel) Template.builtin_canonical (survive patient (by simp))
  have refused := @instantiate_ok_iff_accepts supplied { now := 0 } "volume_spike" "sh600000" "Bank"
    tooPatient nofun nofun (by decide +kernel) Template.builtin_canonical
    (survive tooPatient (by simp))
  have accepts : volumeSpike.Accepts " sh600000" "Bank" patient := by
    constructor
    · decide +kernel
    · decide +kernel
    · have day : 24 ≤ 24 ∧ ((24 : Float) == Float.ofNat 24) = true := by decide +kernel
      exact ⟨24, day⟩
    · rintro x ⟨⟩
      decide +kernel
    · decide +kernel
    · decide +kernel
    · decide +kernel
  obtain ⟨a, made⟩ := accepted.1.mpr ⟨volumeSpike, found, accepts⟩
  refine ⟨⟨a, made, ?_⟩, fun made => ?_⟩
  · obtain ⟨t, again, madeOf⟩ := accepted.2 a made
    cases found.symm.trans again
    exact madeOf
  · obtain ⟨t, -, accepts⟩ := refused.1.mp made
    obtain ⟨hours, day, same⟩ := accepts.cooldown
    have none : ∀ hours < 25, ((4294967297 : Float) == Float.ofNat hours) = false := by
      decide +kernel
    cases (none hours (by omega)).symm.trans same

end Desk

end TickerWatch
