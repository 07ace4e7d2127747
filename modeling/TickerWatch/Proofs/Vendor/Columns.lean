import TickerWatch.Vendor.Payload

namespace TickerWatch.Vendor.CandlePayload

def rows (p : CandlePayload) : Nat :=
  min (min p.close.length p.high.length) (min p.low.length p.time.length)

/-- The row at an index, looked up in one column after the other. An index out of range is a
failure, save in the columns that a bar can do without. -/
def row? (p : CandlePayload) (i : Nat) : Option Bar := do
  let time ← p.time[i]?
  let close ← p.close[i]?
  let high ← p.high[i]?
  let low ← p.low[i]?
  some
    { time
      openPrice := p.openPrice[i]?.getD close
      close
      high
      low
      volume := p.volume[i]?.getD 0 }

variable {p : CandlePayload} {i : Nat}

theorem lt_rows :
    i < p.rows ↔ i < p.close.length ∧ i < p.high.length ∧ i < p.low.length ∧ i < p.time.length := by
  simp only [rows, Nat.lt_min, and_assoc]

theorem row?_some {b : Bar} (found : p.row? i = some b) :
    p.time[i]? = some b.time ∧ p.close[i]? = some b.close ∧ p.high[i]? = some b.high ∧
      p.low[i]? = some b.low := by
  simp only [row?, Option.bind_eq_bind, Option.bind_eq_some_iff, Option.some.injEq] at found
  obtain ⟨time, timed, close, closed, high, raised, low, lowered, rfl⟩ := found
  exact ⟨timed, closed, raised, lowered⟩

theorem row?_isSome : (p.row? i).isSome = true ↔ i < p.rows := by
  rw [lt_rows]
  constructor
  · intro some
    obtain ⟨b, found⟩ := Option.isSome_iff_exists.mp some
    obtain ⟨time, close, high, low⟩ := row?_some found
    exact ⟨(List.getElem?_eq_some_iff.mp close).1, (List.getElem?_eq_some_iff.mp high).1,
      (List.getElem?_eq_some_iff.mp low).1, (List.getElem?_eq_some_iff.mp time).1⟩
  · rintro ⟨close, high, low, time⟩
    simp [row?, close, high, low, time]

theorem row?_eq_none : p.row? i = none ↔ p.rows ≤ i := by
  rw [← Option.not_isSome_iff_eq_none, row?_isSome, Nat.not_lt]

theorem zipBars_getElem? (close high low : List Float) (time : List Int)
    (openPrice volume : List Float) (status : String) (i : Nat) :
    (zipBars close high low time openPrice volume)[i]? =
      row? { close, high, low, openPrice, time, volume, status } i := by
  fun_induction zipBars close high low time openPrice volume generalizing i with
  | case1 c cs h hs l ls t ts openPrice volume ih =>
    cases i with
    | zero => simp [row?, List.head?_eq_getElem?]
    | succ i =>
      rw [List.getElem?_cons_succ, ih i]
      simp [row?]
  | case2 close high low time openPrice volume short =>
    have empty : ∀ status, rows { close, high, low, openPrice, time, volume, status } = 0 := by
      refine fun status => Nat.eq_zero_of_not_pos fun positive => ?_
      obtain ⟨closes, highs, lows, times⟩ := lt_rows.mp positive
      obtain ⟨c, cs, rfl⟩ := List.exists_cons_of_length_pos closes
      obtain ⟨h, hs, rfl⟩ := List.exists_cons_of_length_pos highs
      obtain ⟨l, ls, rfl⟩ := List.exists_cons_of_length_pos lows
      obtain ⟨t, ts, rfl⟩ := List.exists_cons_of_length_pos times
      exact short c cs h hs l ls t ts rfl rfl rfl rfl
    exact (row?_eq_none.mpr (empty status ▸ Nat.zero_le i)).symm

theorem bars_getElem? (p : CandlePayload) (i : Nat) : p.bars[i]? = p.row? i :=
  zipBars_getElem? p.close p.high p.low p.time p.openPrice p.volume p.status i

theorem length_bars (p : CandlePayload) : p.bars.length = p.rows := by
  have beyond : ∀ i, p.bars.length ≤ i ↔ p.rows ≤ i := by
    intro i
    rw [← List.getElem?_eq_none_iff, bars_getElem?, row?_eq_none]
  exact Nat.le_antisymm ((beyond _).mpr (Nat.le_refl _)) ((beyond _).mp (Nat.le_refl _))

theorem mapM_range_getElem? {α : Type} (xs : List α) {n : Nat} (within : n ≤ xs.length) :
    (List.range n).mapM (xs[·]?) = some (xs.take n) := by
  induction n with
  | zero => rfl
  | succ n ih =>
    rw [List.range_succ, List.mapM_append, ih (Nat.le_of_lt within), List.take_add_one]
    simp [List.getElem?_eq_getElem within]

theorem mapM_row? (p : CandlePayload) : (List.range p.rows).mapM p.row? = some p.bars := by
  have looked : p.row? = (p.bars[·]?) := funext fun i => (p.bars_getElem? i).symm
  rw [looked, ← length_bars, mapM_range_getElem? _ (Nat.le_refl _), List.take_length]

structure Lengths where
  close : Nat
  high : Nat
  low : Nat
  openPrice : Nat
  time : Nat
  volume : Nat

def cut (p : CandlePayload) (k : Lengths) : CandlePayload where
  close := p.close.take k.close
  high := p.high.take k.high
  low := p.low.take k.low
  openPrice := p.openPrice.take k.openPrice
  time := p.time.take k.time
  volume := p.volume.take k.volume
  status := p.status

def Lengths.rows (k : Lengths) : Nat := min (min k.close k.high) (min k.low k.time)

def core (b : Bar) : Int × Float × Float × Float := (b.time, b.close, b.high, b.low)

theorem rows_cut (p : CandlePayload) (k : Lengths) : (p.cut k).rows = min k.rows p.rows := by
  simp only [rows, cut, List.length_take, Lengths.rows]
  ac_rfl

theorem core_row?_cut {k : Lengths} (within : i < k.rows) :
    ((p.cut k).row? i).map core = (p.row? i).map core := by
  simp only [Lengths.rows, Nat.lt_min] at within
  obtain ⟨⟨close, high⟩, low, time⟩ := within
  simp only [row?, cut, List.getElem?_take_of_lt close, List.getElem?_take_of_lt high,
    List.getElem?_take_of_lt low, List.getElem?_take_of_lt time]
  simp [Option.map_bind, Function.comp_def, core]

theorem core_cut (p : CandlePayload) (k : Lengths) :
    (p.cut k).bars.map core = (p.bars.map core).take k.rows := by
  apply List.ext_getElem?
  intro i
  rw [List.getElem?_map, bars_getElem?, List.getElem?_take, List.getElem?_map, bars_getElem?]
  by_cases within : i < k.rows
  · rw [if_pos within, core_row?_cut within]
  · have beyond : (p.cut k).rows ≤ i := by
      rw [rows_cut]
      omega
    rw [if_neg within, row?_eq_none.mpr beyond, Option.map_none]

theorem bars_cut {k : Lengths} (enough : p.rows ≤ min k.rows (min k.openPrice k.volume)) :
    (p.cut k).bars = p.bars := by
  simp only [Nat.le_min] at enough
  obtain ⟨needed, openPrice, volume⟩ := enough
  apply List.ext_getElem?
  intro i
  rw [bars_getElem?, bars_getElem?]
  by_cases within : i < p.rows
  · have bounds := Nat.lt_of_lt_of_le within needed
    simp only [Lengths.rows, Nat.lt_min] at bounds
    obtain ⟨⟨close, high⟩, low, time⟩ := bounds
    simp only [row?, cut, List.getElem?_take_of_lt close, List.getElem?_take_of_lt high,
      List.getElem?_take_of_lt low, List.getElem?_take_of_lt time,
      List.getElem?_take_of_lt (Nat.lt_of_lt_of_le within openPrice),
      List.getElem?_take_of_lt (Nat.lt_of_lt_of_le within volume)]
  · have beyond : (p.cut k).rows ≤ i := by
      rw [rows_cut]
      omega
    rw [row?_eq_none.mpr beyond, row?_eq_none.mpr (Nat.le_of_not_lt within)]

theorem time_bars (p : CandlePayload) : p.bars.map Bar.time = p.time.take p.rows := by
  apply List.ext_getElem?
  intro i
  rw [List.getElem?_map, bars_getElem?, List.getElem?_take]
  cases found : p.row? i with
  | none => rw [if_neg (Nat.not_lt.mpr (row?_eq_none.mp found)), Option.map_none]
  | some b =>
    have within : i < p.rows := row?_isSome.mp (found ▸ rfl)
    rw [if_pos within, (row?_some found).1, Option.map_some]

/-- However long the columns are, no look-up of a row fails and the bars are the rows in their
order. Cutting columns costs rows at most: what is left of a bar's time, close, high and low is as
it was. -/
theorem bars_are_rows (p : CandlePayload) :
    p.bars.length = p.rows ∧
    (List.range p.rows).mapM p.row? = some p.bars ∧
    (∀ i, p.bars[i]? = p.row? i) ∧
    p.bars.map Bar.time = p.time.take p.rows ∧
    ∀ k : Lengths,
      (p.cut k).bars.map core = (p.bars.map core).take k.rows ∧
      (p.rows ≤ min k.rows (min k.openPrice k.volume) → (p.cut k).bars = p.bars) :=
  ⟨p.length_bars, p.mapM_row?, p.bars_getElem?, p.time_bars, fun k => ⟨p.core_cut k, bars_cut⟩⟩

def ragged : CandlePayload where
  close := [10, 11, 12]
  high := [10.5, 11.5]
  low := [9.5, 10.5, 11.5, 12.5]
  openPrice := [9.75]
  time := [1, 2, 3]
  volume := []
  status := "ok"

theorem ragged_bars_are_rows :
    (ragged.bars.map fun b => (b.time, b.openPrice == b.close, b.volume == 0)) =
        [(1, false, true), (2, true, true)] ∧
      ragged.rows = 2 ∧ ragged.bars.length = 2 ∧
      (ragged.cut ⟨2, 2, 2, 2, 2, 2⟩).bars = ragged.bars := by
  obtain ⟨length, -, -, -, cuts⟩ := ragged.bars_are_rows
  have cut := (cuts ⟨2, 2, 2, 2, 2, 2⟩).2 (by decide)
  exact ⟨by decide +kernel, by decide, length, cut⟩

end TickerWatch.Vendor.CandlePayload
