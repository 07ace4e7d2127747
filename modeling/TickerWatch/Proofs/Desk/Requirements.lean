import TickerWatch.Proofs.Decimal.Order
import TickerWatch.Proofs.Desk.Acceptance

namespace TickerWatch

namespace Text

theorem longCapitals_letters : ∀ e ∈ longCapitals, e.2 ≠ [] := by decide

theorem upperChar_ne_nil (c : Char) : upperChar c ≠ [] := by
  unfold upperChar
  split
  · exact List.cons_ne_nil _ _
  · split
    · rename_i found
      intro none
      exact longCapitals_letters _ (List.mem_of_find?_eq_some found) (List.map_eq_nil_iff.mp none)
    · exact List.cons_ne_nil _ _

theorem upper_eq_empty {s : String} : upper s = "" ↔ s = "" := by
  have letters : s.toList.flatMap upperChar = [] ↔ s.toList = [] := by
    rw [List.flatMap_eq_nil_iff, List.eq_nil_iff_forall_not_mem]
    exact forall₂_congr fun c _ => iff_false_intro (upperChar_ne_nil c)
  rw [upper, String.ofList_eq_empty_iff, letters, String.toList_eq_nil_iff]

end Text

namespace PostTrigger

theorem known_names : ∀ e ∈ known, e.1 = e.2.name := by decide

theorem name_injective {p q : PostTrigger} (same : p.name = q.name) : p = q := by
  cases p <;> cases q <;> first | rfl | exact absurd same (by decide)

theorem lookup_name (p : PostTrigger) : known.lookup p.name = some p := by
  cases p <;> decide

theorem ofName_ok {s : String} {p : PostTrigger} :
    ofName s = .ok p ↔ p.name = Text.lower (Text.trim s) := by
  unfold ofName
  dsimp only
  constructor
  · intro h
    split at h
    · rename_i found
      cases h
      exact (known_names _ (mem_of_lookup found)).symm
    · cases h
  · intro same
    rw [← same, lookup_name]

theorem ofName_error {s : String} (other : ∀ p : PostTrigger, p.name ≠ Text.lower (Text.trim s)) :
    ofName s = .error (Text.lower (Text.trim s)) := by
  unfold ofName
  dsimp only
  split
  · rename_i p found
    exact absurd (known_names _ (mem_of_lookup found)).symm (other p)
  · rfl

end PostTrigger

inductive Requirement where
  | code
  | name
  | alertType
  | ruleText
  | conditions
  | values
  | sensitivity
  | cooldown
  | postTrigger

namespace Requirement

def place : Requirement → Nat
  | code => 0
  | name => 1
  | alertType => 2
  | ruleText => 3
  | conditions => 4
  | values => 5
  | sensitivity => 6
  | cooldown => 7
  | postTrigger => 8

theorem place_injective {r q : Requirement} (same : r.place = q.place) : r = q := by
  cases r <;> cases q <;> first | rfl | cases same

/-- The rule is meant that the text of the conditions is read as, if it is read at all. -/
def Met (d : Definition) : Requirement → Prop
  | code => Text.trim d.code ≠ ""
  | name => Text.trim d.name ≠ ""
  | alertType => Text.trim d.alertType ≠ ""
  | ruleText => ∃ rule, Rule.ofJson d.conditions = .ok rule
  | conditions => ∀ rule, Rule.ofJson d.conditions = .ok rule → rule.conditions ≠ []
  | values => ∀ rule, Rule.ofJson d.conditions = .ok rule →
      ∀ c ∈ rule.conditions, c.value.isFinite = true
  | sensitivity => 0 ≤ d.sensitivity ∧ d.sensitivity ≤ 0.1
  | cooldown => 0 ≤ d.cooldownHours ∧ d.cooldownHours ≤ 24
  | postTrigger => ∃ p : PostTrigger, p.name = Text.lower (Text.trim d.postTrigger)

def Blames (d : Definition) : Requirement → Flaw → Prop
  | code, f => f = .blankCode
  | name, f => f = .blankName
  | alertType, f => f = .blankType
  | ruleText, f => ∃ e, Rule.ofJson d.conditions = .error e ∧ f = .malformedRule e
  | conditions, f => f = .noConditions
  | values, f => ∃ rule c, Rule.ofJson d.conditions = .ok rule ∧
      rule.conditions.find? (!·.value.isFinite) = some c ∧ f = .notFinite c.field
  | sensitivity, f => f = .sensitivityRange
  | cooldown, f => f = .cooldownRange
  | postTrigger, f => f = .unknownPostTrigger (Text.lower (Text.trim d.postTrigger))

def MetBefore (d : Definition) (place : Nat) : Prop :=
  ∀ q : Requirement, q.place < place → Met d q

structure FirstUnmet (d : Definition) (r : Requirement) : Prop where
  unmet : ¬ Met d r
  earlier : MetBefore d r.place

variable {d : Definition} {r q : Requirement} {f g : Flaw}

theorem metBefore_zero : MetBefore d 0 := fun _ before => absurd before (Nat.not_lt_zero _)

theorem MetBefore.next (earlier : MetBefore d r.place) (met : Met d r) :
    MetBefore d (r.place + 1) := by
  intro q before
  rcases Nat.lt_succ_iff_lt_or_eq.mp before with before | same
  · exact earlier q before
  · exact place_injective same ▸ met

theorem FirstUnmet.unique (first : FirstUnmet d r) (other : FirstUnmet d q) : r = q := by
  rcases Nat.lt_trichotomy r.place q.place with before | same | behind
  · exact absurd (other.earlier r before) first.unmet
  · exact place_injective same
  · exact absurd (first.earlier q behind) other.unmet

theorem Blames.unique (blames : r.Blames d f) (other : r.Blames d g) : f = g := by
  cases r with
  | ruleText =>
    obtain ⟨e, refused, rfl⟩ := blames
    obtain ⟨e', again, rfl⟩ := other
    rw [refused] at again
    cases again
    rfl
  | values =>
    obtain ⟨rule, c, read, found, rfl⟩ := blames
    obtain ⟨rule', c', again, also, rfl⟩ := other
    rw [read] at again
    cases again
    rw [found] at also
    cases also
    rfl
  | _ => exact Eq.trans blames (Eq.symm other)

end Requirement

namespace Definition

open Requirement

structure Yields (d : Definition) (c : Checked) : Prop where
  code : c.code = Text.upper (Text.trim d.code)
  name : c.name = Text.trim d.name
  alertType : c.alertType = Text.trim d.alertType
  rule : Rule.ofJson d.conditions = .ok c.rule
  postTrigger : c.postTrigger.name = Text.lower (Text.trim d.postTrigger)

variable {d : Definition} {c : Checked} {f : Flaw} {rule : Rule}

theorem Yields.unique {c' : Checked} (yields : d.Yields c) (other : d.Yields c') : c = c' := by
  obtain ⟨code, name, alertType, rule, postTrigger⟩ := c
  obtain ⟨code', name', alertType', rule', postTrigger'⟩ := c'
  obtain ⟨rfl, rfl, rfl, read, action⟩ := yields
  obtain ⟨rfl, rfl, rfl, again, sameAction⟩ := other
  cases read.symm.trans again
  cases PostTrigger.name_injective (action.trans sameAction.symm)
  rfl

theorem allowedSensitivity_iff {x : Float} : allowedSensitivity x = true ↔ 0 ≤ x ∧ x ≤ 0.1 := by
  refine ⟨fun h => (allowedSensitivity_ok h).2, fun ⟨low, high⟩ => ?_⟩
  have finite : x.isFinite = true :=
    Decimal.finite_between (by decide +kernel) (by decide +kernel) low high
  have below : x ≤ maxSensitivity := high
  simp only [allowedSensitivity, finite, decide_eq_true low, decide_eq_true below, Bool.and_self]

theorem allowedCooldown_iff {hours : Int} :
    allowedCooldown hours = true ↔ 0 ≤ hours ∧ hours ≤ 24 := by
  refine ⟨allowedCooldown_ok, fun ⟨low, high⟩ => ?_⟩
  have below : hours ≤ maxCooldownHours := high
  simp only [allowedCooldown, decide_eq_true low, decide_eq_true below, Bool.and_self]

theorem readRule_parsed (read : d.readRule = .ok rule) : Rule.ofJson d.conditions = .ok rule := by
  unfold readRule at read
  split at read
  · cases read
  rename_i found parsed
  split at read
  · cases read
  split at read
  · cases read
  cases read
  exact parsed

theorem readRule_meets (read : d.readRule = .ok rule) :
    Met d .ruleText ∧ Met d .conditions ∧ Met d .values := by
  have parsed := readRule_parsed read
  obtain ⟨nonempty, finite, -⟩ := readRule_ok read
  refine ⟨⟨rule, parsed⟩, fun rule' again => ?_, fun rule' again => ?_⟩
  · cases parsed.symm.trans again
    exact nonempty
  · cases parsed.symm.trans again
    exact finite

/-- Of the requirements on the rule, the first that is not met is blamed. -/
theorem readRule_blames (refused : d.readRule = .error f) :
    ¬ Met d .ruleText ∧ Blames d .ruleText f ∨
      Met d .ruleText ∧ ¬ Met d .conditions ∧ Blames d .conditions f ∨
      Met d .ruleText ∧ Met d .conditions ∧ ¬ Met d .values ∧ Blames d .values f := by
  unfold readRule at refused
  split at refused
  · rename_i e unread
    cases refused
    refine .inl ⟨?_, e, unread, rfl⟩
    rintro ⟨rule, parsed⟩
    cases unread.symm.trans parsed
  rename_i rule parsed
  have text : Met d .ruleText := ⟨rule, parsed⟩
  split at refused
  · rename_i empty
    cases refused
    exact .inr (.inl ⟨text, fun met => met rule parsed (by simpa using empty), rfl⟩)
  rename_i nonempty
  have conditions : Met d .conditions := by
    intro rule' again
    cases parsed.symm.trans again
    simpa using nonempty
  split at refused
  · rename_i c found
    cases refused
    refine .inr (.inr ⟨text, conditions, fun met => ?_, rule, c, parsed, found, rfl⟩)
    have infinite := List.find?_some found
    rw [met rule parsed c (List.mem_of_find?_eq_some found)] at infinite
    cases infinite
  · cases refused

theorem readPostTrigger_ok {p : PostTrigger} :
    d.readPostTrigger = .ok p ↔ p.name = Text.lower (Text.trim d.postTrigger) :=
  Json.mapError_ok.trans PostTrigger.ofName_ok

theorem readPostTrigger_error (refused : d.readPostTrigger = .error f) :
    ¬ Met d .postTrigger ∧ Blames d .postTrigger f := by
  have unmet : ¬ Met d .postTrigger := by
    rintro ⟨p, same⟩
    cases refused.symm.trans (readPostTrigger_ok.mpr same)
  refine ⟨unmet, ?_⟩
  rw [readPostTrigger, PostTrigger.ofName_error fun p same => unmet ⟨p, same⟩] at refused
  cases refused
  rfl

inductive Judged (d : Definition) : Except Flaw Checked → Prop
  | accepted {c : Checked} (met : ∀ r, Met d r) (yields : d.Yields c) : Judged d (.ok c)
  | refused {f : Flaw} {r : Requirement} (first : FirstUnmet d r) (blames : Blames d r f) :
      Judged d (.error f)

theorem check_judged (d : Definition) : d.Judged d.check := by
  -- `earlier` grows with every test that is passed, down to the one that fails.
  unfold check
  dsimp only
  split
  · rename_i blank
    refine .refused (r := .code) ⟨fun met => met ?_, metBefore_zero⟩ rfl
    simpa [Text.upper_eq_empty] using blank
  rename_i code
  have earlier : MetBefore d (place .name) :=
    metBefore_zero.next (r := .code) fun blank => code (by simp [blank, Text.upper_eq_empty])
  split
  · rename_i blank
    exact .refused (r := .name) ⟨fun met => met (by simpa using blank), earlier⟩ rfl
  rename_i name
  replace earlier : MetBefore d (place .alertType) := earlier.next fun blank => name (by simp [blank])
  split
  · rename_i blank
    exact .refused (r := .alertType) ⟨fun met => met (by simpa using blank), earlier⟩ rfl
  rename_i alertType
  replace earlier : MetBefore d (place .ruleText) :=
    earlier.next fun blank => alertType (by simp [blank])
  split
  · rename_i f refused
    rcases readRule_blames refused with ⟨unmet, blames⟩ | ⟨text, unmet, blames⟩ |
      ⟨text, conditions, unmet, blames⟩
    · exact .refused ⟨unmet, earlier⟩ blames
    · exact .refused ⟨unmet, earlier.next text⟩ blames
    · exact .refused ⟨unmet, (earlier.next text).next (r := .conditions) conditions⟩ blames
  rename_i rule read
  obtain ⟨text, conditions, values⟩ := readRule_meets read
  replace earlier : MetBefore d (place .sensitivity) :=
    ((earlier.next text).next (r := .conditions) conditions).next (r := .values) values
  split
  · rename_i beyond
    refine .refused (r := .sensitivity) ⟨fun met => ?_, earlier⟩ rfl
    simp [allowedSensitivity_iff.mpr met] at beyond
  rename_i sensitivity
  replace earlier : MetBefore d (place .cooldown) :=
    earlier.next (allowedSensitivity_iff.mp (by simpa using sensitivity))
  split
  · rename_i beyond
    refine .refused (r := .cooldown) ⟨fun met => ?_, earlier⟩ rfl
    simp [allowedCooldown_iff.mpr met] at beyond
  rename_i cooldown
  replace earlier : MetBefore d (place .postTrigger) :=
    earlier.next (allowedCooldown_iff.mp (by simpa using cooldown))
  split
  · rename_i f refused
    obtain ⟨unmet, blames⟩ := readPostTrigger_error refused
    exact .refused ⟨unmet, earlier⟩ blames
  · rename_i action accepted
    have named := readPostTrigger_ok.mp accepted
    replace earlier := earlier.next ⟨action, named⟩
    refine .accepted (fun r => earlier r ?_) ⟨rfl, rfl, rfl, readRule_parsed read, named⟩
    cases r <;> decide

theorem check_ok (accepted : d.check = .ok c) : (∀ r, Met d r) ∧ d.Yields c := by
  have judged := d.check_judged
  rw [accepted] at judged
  cases judged with
  | accepted met yields => exact ⟨met, yields⟩

theorem check_error (refused : d.check = .error f) : ∃ r, FirstUnmet d r ∧ Blames d r f := by
  have judged := d.check_judged
  rw [refused] at judged
  cases judged with
  | refused first blames => exact ⟨_, first, blames⟩

theorem check_of_met (met : ∀ r, Met d r) : ∃ c, d.check = .ok c := by
  cases outcome : d.check with
  | ok c => exact ⟨c, rfl⟩
  | error f =>
    obtain ⟨r, first, -⟩ := check_error outcome
    exact absurd (met r) first.unmet

theorem check_of_firstUnmet {r : Requirement} (first : FirstUnmet d r) (blames : Blames d r f) :
    d.check = .error f := by
  cases outcome : d.check with
  | ok c => exact absurd ((check_ok outcome).1 r) first.unmet
  | error g =>
    obtain ⟨q, other, also⟩ := check_error outcome
    cases first.unique other
    rw [blames.unique also]

/-- A definition is accepted if it meets every requirement, and only then; what is kept of it is
fixed by what was supplied. Otherwise it is refused for the first requirement that it does not meet.
-/
theorem judged_by_requirements (d : Definition) :
    (∀ c, d.check = .ok c ↔ (∀ r, Met d r) ∧ d.Yields c) ∧
      ((∃ c, d.check = .ok c) ↔ ∀ r, Met d r) ∧
      ∀ f, d.check = .error f ↔ ∃ r, FirstUnmet d r ∧ Blames d r f := by
  refine ⟨fun c => ⟨check_ok, ?_⟩, ⟨?_, check_of_met⟩, fun f => ⟨check_error, ?_⟩⟩
  · rintro ⟨met, yields⟩
    obtain ⟨c', accepted⟩ := check_of_met met
    rw [accepted, yields.unique (check_ok accepted).2]
  · rintro ⟨c, accepted⟩
    exact (check_ok accepted).1
  · rintro ⟨r, first, blames⟩
    exact check_of_firstUnmet first blames

def extreme : Definition where
  code := "\u3000ß "
  name := "N"
  alertType := "t"
  conditions := "[\"and\",[[\"ma5\",\">\",0]]]"
  sensitivity := 0.1
  cooldownHours := 24
  postTrigger := " Once"

def blankNamed : Definition :=
  { extreme with name := "\u2003", sensitivity := 0 / 0, cooldownHours := 25 }

theorem extreme_judged_by_requirements :
    (∀ r, Met extreme r) ∧ (∃ c, extreme.check = .ok c ∧ c.code = "SS" ∧ c.postTrigger = .once) ∧
      FirstUnmet blankNamed .name ∧ blankNamed.check = .error .blankName := by
  have kept : (extreme.check.toOption.any fun c => c.code == "SS" && c.postTrigger == .once) := by
    decide +kernel
  obtain ⟨c, accepted⟩ : ∃ c, extreme.check = .ok c := by
    cases outcome : extreme.check with
    | error f => simp [outcome, Except.toOption] at kept
    | ok c => exact ⟨c, rfl⟩
  have named : Text.trim blankNamed.code ≠ "" := by decide +kernel
  have first : FirstUnmet blankNamed .name :=
    ⟨fun met => met (by decide +kernel), metBefore_zero.next (r := .code) named⟩
  refine ⟨(judged_by_requirements extreme).2.1.mp ⟨c, accepted⟩, ⟨c, accepted, ?_⟩, first, ?_⟩
  · simpa [accepted, Except.toOption] using kept
  · exact ((judged_by_requirements blankNamed).2.2 _).mpr ⟨.name, first, rfl⟩

end Definition

end TickerWatch
