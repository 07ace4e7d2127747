import TickerWatch.Verdict

namespace TickerWatch

structure Verdict.First (fired : Bool) (vs : List Verdict) (i : Nat) (v : Verdict) : Prop where
  here : vs[i]? = some v
  kind : v.fired = fired
  before : ∀ j < i, ∀ w, vs[j]? = some w → w.fired = !fired

theorem Verdict.First.of_find? {fired : Bool} {p : Verdict → Bool} {vs : List Verdict} {v : Verdict}
    (decides : ∀ w, p w = true ↔ w.fired = fired) (found : vs.find? p = some v) :
    ∃ i, First fired vs i v := by
  obtain ⟨kind, i, within, rfl, earlier⟩ := List.find?_eq_some_iff_getElem.mp found
  refine ⟨i, List.getElem?_eq_getElem within, (decides _).mp kind, fun j before w held => ?_⟩
  obtain ⟨inside, rfl⟩ := List.getElem?_eq_some_iff.mp held
  have passed : p vs[j] = false := by simpa using earlier j before
  refine Bool.eq_not.mpr fun same => ?_
  rw [(decides _).mpr same] at passed
  cases passed

def Rule.verdicts (r : Rule) (x : Snapshot) (sensitivity : Float) : List Verdict :=
  r.conditions.map (·.verdict x sensitivity)

namespace Rule

variable {x : Snapshot} {sensitivity : Float} {cs ds : List Condition}

theorem verdict_nil (logic : Logic) :
    Rule.verdict ⟨logic, []⟩ x sensitivity = .miss "no conditions" := rfl

theorem verdict_all (x : Snapshot) (sensitivity : Float) (nonempty : cs ≠ []) :
    let vs := Rule.verdicts ⟨.all, cs⟩ x sensitivity
    let v := Rule.verdict ⟨.all, cs⟩ x sensitivity
    (∃ i, Verdict.First false vs i v) ∨
      (∀ w ∈ vs, w.fired = true) ∧ ∃ first rest, vs = first :: rest ∧ v = .hit first.message := by
  intro vs v
  obtain ⟨c, rest, rfl⟩ := List.exists_cons_of_ne_nil nonempty
  have judged : v = (vs.find? (!·.fired)).getD (.hit (c.verdict x sensitivity).message) := rfl
  cases found : vs.find? (!·.fired) with
  | some w =>
    rw [found, Option.getD_some] at judged
    rw [judged]
    exact .inl (Verdict.First.of_find? (by simp) found)
  | none =>
    rw [found, Option.getD_none] at judged
    refine .inr ⟨fun w member => ?_, _, _, rfl, judged⟩
    simpa using List.find?_eq_none.mp found w member

theorem verdict_any (x : Snapshot) (sensitivity : Float) (nonempty : cs ≠ []) :
    let vs := Rule.verdicts ⟨.any, cs⟩ x sensitivity
    let v := Rule.verdict ⟨.any, cs⟩ x sensitivity
    (∃ i, Verdict.First true vs i v) ∨
      (∀ w ∈ vs, w.fired = false) ∧
        v = .miss ("none of " ++ toString cs.length ++ " conditions met") := by
  intro vs v
  obtain ⟨c, rest, rfl⟩ := List.exists_cons_of_ne_nil nonempty
  have count : vs.length = (c :: rest).length := List.length_map _
  have judged : v = (vs.find? (·.fired)).getD
      (.miss ("none of " ++ toString vs.length ++ " conditions met")) := rfl
  cases found : vs.find? (·.fired) with
  | some w =>
    rw [found, Option.getD_some] at judged
    rw [judged]
    exact .inl (Verdict.First.of_find? (by simp) found)
  | none =>
    rw [found, Option.getD_none, count] at judged
    refine .inr ⟨fun w member => ?_, judged⟩
    simpa using List.find?_eq_none.mp found w member

theorem all_fires_iff :
    (Rule.verdict ⟨.all, cs⟩ x sensitivity).fired = true ↔
      cs ≠ [] ∧ ∀ c ∈ cs, (c.verdict x sensitivity).fired = true := by
  by_cases nonempty : cs = []
  · subst nonempty
    simp [verdict_nil, Verdict.miss]
  have judged := verdict_all x sensitivity nonempty
  constructor
  · intro fires
    refine ⟨nonempty, fun c member => ?_⟩
    rcases judged with ⟨i, first⟩ | ⟨every, -⟩
    · cases fires.symm.trans first.kind
    · exact every _ (List.mem_map_of_mem member)
  · rintro ⟨-, every⟩
    rcases judged with ⟨i, first⟩ | ⟨-, c, rest, -, hit⟩
    · obtain ⟨c, member, same⟩ := List.mem_map.mp (List.mem_of_getElem? first.here)
      have fires := every c member
      rw [same, first.kind] at fires
      cases fires
    · rw [hit]
      rfl

theorem any_fires_iff :
    (Rule.verdict ⟨.any, cs⟩ x sensitivity).fired = true ↔
      ∃ c ∈ cs, (c.verdict x sensitivity).fired = true := by
  by_cases nonempty : cs = []
  · subst nonempty
    simp [verdict_nil, Verdict.miss]
  have judged := verdict_any x sensitivity nonempty
  constructor
  · intro fires
    rcases judged with ⟨i, first⟩ | ⟨-, miss⟩
    · obtain ⟨c, member, same⟩ := List.mem_map.mp (List.mem_of_getElem? first.here)
      exact ⟨c, member, (congrArg Verdict.fired same).trans fires⟩
    · rw [miss] at fires
      cases fires
  · rintro ⟨c, member, fires⟩
    rcases judged with ⟨i, first⟩ | ⟨none, -⟩
    · exact first.kind
    · cases fires.symm.trans (none _ (List.mem_map_of_mem member))

/-- Order and repetition of the conditions play no part in whether a rule fires. -/
theorem fires_congr (logic : Logic) (fewer : ds ⊆ cs) (more : cs ⊆ ds) :
    (Rule.verdict ⟨logic, ds⟩ x sensitivity).fired =
      (Rule.verdict ⟨logic, cs⟩ x sensitivity).fired := by
  have same : ∀ c, c ∈ ds ↔ c ∈ cs := fun c => ⟨@fewer c, @more c⟩
  have empty : ds = [] ↔ cs = [] := by
    simp only [List.eq_nil_iff_forall_not_mem, same]
  rw [Bool.eq_iff_iff]
  cases logic with
  | all => simp only [all_fires_iff, same, ne_eq, empty]
  | any => simp only [any_fires_iff, same]

theorem any_of_all (fires : (Rule.verdict ⟨.all, cs⟩ x sensitivity).fired = true) :
    (Rule.verdict ⟨.any, cs⟩ x sensitivity).fired = true := by
  obtain ⟨nonempty, every⟩ := all_fires_iff.mp fires
  obtain ⟨c, member⟩ := List.exists_mem_of_ne_nil cs nonempty
  exact any_fires_iff.mpr ⟨c, member, every c member⟩

/-- A rule fires as its conditions combine. Of those that all have to fire, the first that does not
speaks for the rule, and otherwise the first of all lends its message; of those that any may fire,
the first that does speaks for it. -/
theorem verdict_by_conditions (cs : List Condition) (x : Snapshot) (sensitivity : Float) :
    let vs := cs.map (·.verdict x sensitivity)
    let all := Rule.verdict ⟨.all, cs⟩ x sensitivity
    let any := Rule.verdict ⟨.any, cs⟩ x sensitivity
    (all.fired = true ↔ cs ≠ [] ∧ ∀ c ∈ cs, (c.verdict x sensitivity).fired = true) ∧
      (all.fired = true → ∃ first ∈ vs.head?, all = .hit first.message) ∧
      (cs ≠ [] → all.fired = false → ∃ i, Verdict.First false vs i all) ∧
      (any.fired = true ↔ ∃ c ∈ cs, (c.verdict x sensitivity).fired = true) ∧
      (any.fired = true → ∃ i, Verdict.First true vs i any) ∧
      (cs ≠ [] → any.fired = false →
        any = .miss ("none of " ++ toString cs.length ++ " conditions met")) ∧
      (cs = [] → all.fired = false ∧ any.fired = false) ∧
      (∀ logic ds, ds ⊆ cs → cs ⊆ ds →
        (Rule.verdict ⟨logic, ds⟩ x sensitivity).fired =
          (Rule.verdict ⟨logic, cs⟩ x sensitivity).fired) ∧
      (all.fired = true → any.fired = true) := by
  intro vs all any
  refine ⟨all_fires_iff, fun fires => ?_, fun nonempty quiet => ?_, any_fires_iff, fun fires => ?_,
    fun nonempty quiet => ?_, ?_, fun logic ds => fires_congr logic, any_of_all⟩
  · have nonempty := (all_fires_iff.mp fires).1
    rcases verdict_all x sensitivity nonempty with ⟨i, first⟩ | ⟨-, first, rest, vs, hit⟩
    · cases fires.symm.trans first.kind
    · exact ⟨first, List.head?_eq_some_iff.mpr ⟨rest, vs⟩, hit⟩
  · rcases verdict_all x sensitivity nonempty with first | ⟨-, first, rest, -, hit⟩
    · exact first
    · cases quiet.symm.trans (congrArg Verdict.fired hit)
  · have nonempty : cs ≠ [] := by
      rintro rfl
      cases fires
    rcases verdict_any x sensitivity nonempty with first | ⟨-, miss⟩
    · exact first
    · cases fires.symm.trans (congrArg Verdict.fired miss)
  · rcases verdict_any x sensitivity nonempty with ⟨i, first⟩ | ⟨-, miss⟩
    · cases quiet.symm.trans first.kind
    · exact miss
  · rintro rfl
    exact ⟨rfl, rfl⟩

def below (value : Float) : Condition := { field := .closePrice, operator := .lt, value }

def around : List Condition :=
  [{ field := .closePrice, operator := .gt, value := 5 }, below 8, below 12]

theorem around_by_conditions :
    let x : Snapshot := { closePrice := 10 }
    let vs := around.map (·.verdict x 0)
    around ≠ [] ∧ (Rule.verdict ⟨.all, around⟩ x 0).fired = false ∧
      (∃ i, Verdict.First false vs i (Rule.verdict ⟨.all, around⟩ x 0)) ∧
      (Rule.verdict ⟨.any, around⟩ x 0).fired = true ∧
      (∃ i, Verdict.First true vs i (Rule.verdict ⟨.any, around⟩ x 0)) ∧
      (Rule.verdict ⟨.all, around.eraseIdx 1⟩ x 0).fired = true ∧
      (Rule.verdict ⟨.any, around.eraseIdx 1⟩ x 0).fired = true ∧
      Rule.verdict ⟨.any, [below 8]⟩ x 0 = .miss "none of 1 conditions met" ∧
      (Rule.verdict ⟨.all, around.reverse ++ around⟩ x 0).fired =
        (Rule.verdict ⟨.all, around⟩ x 0).fired := by
  intro x vs
  have quiet : (Rule.verdict ⟨.all, around⟩ x 0).fired = false := by decide +kernel
  have fires : (Rule.verdict ⟨.any, around⟩ x 0).fired = true := by decide +kernel
  have every : (Rule.verdict ⟨.all, around.eraseIdx 1⟩ x 0).fired = true := by decide +kernel
  have alone : (Rule.verdict ⟨.any, [below 8]⟩ x 0).fired = false := by decide +kernel
  have nonempty : around ≠ [] := by simp [around]
  obtain ⟨-, -, spoken, -, heard, -, -, reordered, -⟩ := verdict_by_conditions around x 0
  obtain ⟨-, -, -, -, -, -, -, -, more⟩ := verdict_by_conditions (around.eraseIdx 1) x 0
  obtain ⟨-, -, -, -, -, miss, -⟩ := verdict_by_conditions [below 8] x 0
  exact ⟨nonempty, quiet, spoken nonempty quiet, fires, heard fires, every, more every,
    miss (by simp) alone, reordered .all _ (by simp) (by simp)⟩

end Rule

end TickerWatch
