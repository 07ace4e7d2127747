import TickerWatch.Market.Snapshot
import TickerWatch.Proofs.Decimal.Ranking

namespace TickerWatch

open Decimal

/-- A strict comparison of floats, with the one that tells how far a choice by it has come. -/
structure Direction (Before UpTo : Float → Float → Prop) : Prop where
  self {a : Float} (number : a.isNaN = false) : UpTo a a
  step {a b : Float} (before : Before a b) : UpTo a b
  stay {a b : Float} (number : a.isNaN = false) (numberToo : b.isNaN = false)
    (not : ¬ Before a b) : UpTo b a
  number {a b : Float} (upTo : UpTo a b) : b.isNaN = false
  chain {a b c : Float} (upTo : UpTo a b) (further : UpTo b c) : UpTo a c

theorem rising : Direction (· < ·) (· ≤ ·) where
  self := le_self
  step := le_of_less
  stay := le_of_not_lt
  number upTo := (le_iff_place.mp upTo).2.1
  chain := le_chain

theorem falling : Direction (fun a b => b < a) (fun a b => b ≤ a) where
  self := le_self
  step := le_of_less
  stay number numberToo not := le_of_not_lt numberToo number not
  number upTo := (le_iff_place.mp upTo).1
  chain upTo further := le_chain further upTo

section Furthest

variable {Before UpTo : Float → Float → Prop} [DecidableRel Before]

def furthest (Before : Float → Float → Prop) [DecidableRel Before] (seed : Float)
    (xs : List Float) : Float := xs.foldl (fun a b => if Before a b then b else a) seed

theorem Direction.furthest_reached (direction : Direction Before UpTo) {seed : Float}
    (xs : List Float) (number : seed.isNaN = false) :
    UpTo seed (furthest Before seed xs) ∧
      (∀ x ∈ xs, x.isNaN = false → UpTo x (furthest Before seed xs)) ∧
      (furthest Before seed xs = seed ∨ furthest Before seed xs ∈ xs) := by
  induction xs generalizing seed with
  | nil => exact ⟨direction.self number, by simp, .inl rfl⟩
  | cons x xs ih =>
    by_cases before : Before seed x
    · have next : furthest Before seed (x :: xs) = furthest Before x xs := by
        rw [furthest, List.foldl_cons, if_pos before, furthest]
      have step := direction.step before
      obtain ⟨far, all, origin⟩ := ih (direction.number step)
      rw [next]
      refine ⟨direction.chain step far, ?_, .inr ?_⟩
      · exact List.forall_mem_cons.mpr ⟨fun _ => far, all⟩
      · exact List.mem_cons.mpr origin
    · have next : furthest Before seed (x :: xs) = furthest Before seed xs := by
        rw [furthest, List.foldl_cons, if_neg before, furthest]
      obtain ⟨far, all, origin⟩ := ih number
      rw [next]
      refine ⟨far, List.forall_mem_cons.mpr ⟨fun numberToo => ?_, all⟩, ?_⟩
      · exact direction.chain (direction.stay number numberToo before) far
      · exact origin.imp_right (List.mem_cons_of_mem x)

end Furthest

structure IsHighest (high : Float) (bars : List Bar) : Prop where
  number : high.isNaN = false
  nonneg : 0 ≤ high
  bound : ∀ b ∈ bars, b.high.isNaN = false → b.high ≤ high
  reached : high = 0 ∨ ∃ b ∈ bars, high = b.high

structure IsLowest (low : Float) (bars : List Bar) : Prop where
  none_iff : low = 0 ↔ ∀ b ∈ bars, ¬ 0 < b.low
  reached : low ≠ 0 → 0 < low ∧ ∃ b ∈ bars, low = b.low
  bound : ∀ b ∈ bars, 0 < b.low → low ≤ b.low

variable {bars others : List Bar} {low high : Float}

theorem highest_isHighest (bars : List Bar) : IsHighest (highest bars) bars := by
  have seed : (0 : Float).isNaN = false := by decide
  obtain ⟨far, all, origin⟩ := rising.furthest_reached (bars.map Bar.high) seed
  exact {
    number := rising.number far
    nonneg := far
    bound := fun b member => all b.high (List.mem_map_of_mem member)
    reached := origin.imp_right fun member => by
      obtain ⟨b, listed, same⟩ := List.mem_map.mp member
      exact ⟨b, listed, same.symm⟩ }

theorem lowest_eq (bars : List Bar) :
    (∀ b ∈ bars, ¬ 0 < b.low) ∧ lowest bars = 0 ∨
      (0 < lowest bars ∧ ∃ b ∈ bars, lowest bars = b.low) ∧
        ∀ b ∈ bars, 0 < b.low → lowest bars ≤ b.low := by
  have kept : ∀ x, (x ∈ (bars.map Bar.low).filter fun low => 0 < low) ↔
      (∃ b ∈ bars, b.low = x) ∧ 0 < x := by
    intro x
    rw [List.mem_filter, List.mem_map, decide_eq_true_iff]
  unfold lowest
  split
  · rename_i none
    refine .inl ⟨fun b member positive => ?_, rfl⟩
    have listed := (kept b.low).mpr ⟨⟨b, member, rfl⟩, positive⟩
    rw [none] at listed
    cases listed
  · rename_i first rest some
    rw [some] at kept
    have positive := ((kept first).mp List.mem_cons_self).2
    obtain ⟨far, all, origin⟩ := falling.furthest_reached rest (numbers_of_lt positive).2
    obtain ⟨⟨b, member, same⟩, above⟩ := (kept _).mp (List.mem_cons.mpr origin)
    refine .inr ⟨⟨above, b, member, same.symm⟩, fun b member positive => ?_⟩
    have listed := (kept b.low).mpr ⟨⟨b, member, rfl⟩, positive⟩
    rcases List.mem_cons.mp listed with head | tail
    · rw [head]
      exact far
    · exact all b.low tail (numbers_of_lt positive).2

theorem lowest_isLowest (bars : List Bar) : IsLowest (lowest bars) bars := by
  have above : ¬ (0 : Float) < 0 := by decide
  rcases lowest_eq bars with ⟨none, zero⟩ | ⟨⟨positive, b, member, same⟩, bound⟩
  · exact {
      none_iff := iff_of_true zero none
      reached := absurd zero
      bound := fun b member positive => absurd positive (none b member) }
  · have some : lowest bars ≠ 0 := fun zero => above (zero ▸ positive)
    exact {
      none_iff := iff_of_false some fun none => none b member (same ▸ positive)
      reached := fun _ => ⟨positive, b, member, same⟩
      bound := bound }

theorem IsHighest.le {more : Float} (highest : IsHighest high bars)
    (among : IsHighest more others) (listed : ∀ b ∈ bars, b ∈ others) : high ≤ more := by
  rcases highest.reached with rfl | ⟨b, member, rfl⟩
  · exact among.nonneg
  · exact among.bound b (listed b member) highest.number

theorem IsHighest.beq {same : Float} (highest : IsHighest high bars)
    (among : IsHighest same others) (perm : others.Perm bars) : (same == high) = true :=
  beq_of_le (among.le highest fun _ => perm.mem_iff.mp) (highest.le among fun _ => perm.mem_iff.mpr)

theorem IsLowest.le {less : Float} (lowest : IsLowest low bars) (among : IsLowest less others)
    (listed : ∀ b ∈ bars, b ∈ others) (some : low ≠ 0) : less ≤ low := by
  obtain ⟨positive, b, member, rfl⟩ := lowest.reached some
  exact among.bound b (listed b member) positive

theorem IsLowest.beq {same : Float} (lowest : IsLowest low bars) (among : IsLowest same others)
    (perm : others.Perm bars) : (same == low) = true := by
  have zeros : same = 0 ↔ low = 0 := by
    rw [among.none_iff, lowest.none_iff]
    simp only [perm.mem_iff]
  by_cases zero : low = 0
  · rw [zeros.mpr zero, zero]
    decide
  · have some : same ≠ 0 := fun zeroToo => zero (zeros.mp zeroToo)
    exact beq_of_le (lowest.le among (fun _ => perm.mem_iff.mpr) zero)
      (among.le lowest (fun _ => perm.mem_iff.mp) some)

def lastCloses (bars : List Bar) (n : Nat) : List Float :=
  (bars.drop (bars.length - n)).map Bar.close

theorem lastCloses_append (front : List Bar) {n : Nat} (enough : n ≤ bars.length) :
    lastCloses (front ++ bars) n = lastCloses bars n := by
  have skipped : (front ++ bars).length - n = front.length + (bars.length - n) := by
    rw [List.length_append]
    omega
  rw [lastCloses, skipped, List.drop_length_add_append, lastCloses]

theorem movingAverage_zero {n : Nat} (short : bars.length < n) : movingAverage bars n = 0 :=
  if_pos (.inr short)

theorem movingAverage_eq {n : Nat} (some : n ≠ 0) (enough : n ≤ bars.length) :
    movingAverage bars n = sum (lastCloses bars n) / Float.ofNat n :=
  if_neg (by omega)

namespace Snapshot

structure Quotes (x : Snapshot) (q : Quote) : Prop where
  price : x.closePrice = q.price
  openPrice : x.openPrice = q.openPrice
  high : x.highPrice = q.high
  low : x.lowPrice = q.low
  preClose : x.preClosePrice = q.preClose
  changePercent : x.changePercent = q.changePercent
  volume : x.volume = q.volume
  volumeRatio : x.volumeRatio = q.volumeRatio

def averages : List (Nat × (Snapshot → Float)) := [(5, ma5), (10, ma10), (20, ma20)]

theorem averages_build {average : Nat × (Snapshot → Float)} (listed : average ∈ averages)
    (code : String) (q : Quote) (bars : List Bar) (now : Int) :
    average.1 ≠ 0 ∧ average.2 (build code q bars now) = movingAverage bars average.1 := by
  simp only [averages, List.mem_cons, List.not_mem_nil, or_false] at listed
  rcases listed with rfl | rfl | rfl
  · exact ⟨by decide, rfl⟩
  · exact ⟨by decide, rfl⟩
  · exact ⟨by decide, rfl⟩

theorem averages_congr {average : Nat × (Snapshot → Float)} (listed : average ∈ averages)
    (enough : average.1 ≤ bars.length) (enoughToo : average.1 ≤ others.length)
    (closes : lastCloses others average.1 = lastCloses bars average.1) (code code' : String)
    (q q' : Quote) (now later : Int) :
    average.2 (build code' q' others later) = average.2 (build code q bars now) := by
  obtain ⟨some, value⟩ := averages_build listed code q bars now
  obtain ⟨-, valueToo⟩ := averages_build listed code' q' others later
  rw [value, valueToo, movingAverage_eq some enough, movingAverage_eq some enoughToo, closes]

/-- The quote is carried over, the extremes are those of the bars in whatever order these come, and
an average is 0 for want of bars and a function of the last closes otherwise. -/
theorem build_sums_up (code : String) (q : Quote) (bars : List Bar) (now : Int) :
    let x := build code q bars now
    x.Quotes q ∧ IsHighest x.historicalHigh bars ∧ IsLowest x.historicalLow bars ∧
      (∀ others : List Bar, others.Perm bars →
        let y := build code q others now
        (y.historicalHigh == x.historicalHigh) = true ∧
          (y.historicalLow == x.historicalLow) = true) ∧
      ∀ average ∈ averages,
        (bars.length < average.1 → average.2 x = 0) ∧
        (average.1 ≤ bars.length →
          (∀ (others : List Bar) (code' : String) (q' : Quote) (later : Int),
            average.1 ≤ others.length →
            lastCloses others average.1 = lastCloses bars average.1 →
            average.2 (build code' q' others later) = average.2 x) ∧
          ∀ front : List Bar, average.2 (build code q (front ++ bars) now) = average.2 x) := by
  refine ⟨⟨rfl, rfl, rfl, rfl, rfl, rfl, rfl, rfl⟩, highest_isHighest bars, lowest_isLowest bars,
    ?_, ?_⟩
  · intro others perm
    exact ⟨(highest_isHighest bars).beq (highest_isHighest others) perm,
      (lowest_isLowest bars).beq (lowest_isLowest others) perm⟩
  · intro average listed
    refine ⟨fun short => ?_, fun enough => ⟨?_, fun front => ?_⟩⟩
    · rw [(averages_build listed code q bars now).2]
      exact movingAverage_zero short
    · intro others code' q' later enoughToo closes
      exact averages_congr listed enough enoughToo closes code code' q q' now later
    · have enoughToo : average.1 ≤ (front ++ bars).length := by
        rw [List.length_append]
        omega
      exact averages_congr listed enough enoughToo (lastCloses_append front enough) code code q q now
        now

def unevenBars : List Bar :=
  [{ time := 1, close := 8, high := 0 / 0, low := -1 }, { time := 2, close := 9, high := -3 },
    { time := 3, close := 10, high := 12, low := 7.5 },
    { time := 4, close := 11, high := 11.5, low := 1 / 0 },
    { time := 5, close := 12, high := 0, low := 8 }]

theorem uneven_bars_summed_up :
    let x := build "600519" { price := 10.5 } unevenBars 0
    ((x.historicalHigh == 12) = true ∧ (x.historicalLow == 7.5) = true ∧ (x.ma5 == 10) = true) ∧
      x.closePrice = 10.5 ∧ x.ma10 = 0 ∧
      ((build "600519" { price := 10.5 } unevenBars.reverse 0).historicalLow ==
        x.historicalLow) = true ∧
      ∀ front : List Bar,
        (build "600519" { price := 10.5 } (front ++ unevenBars) 0).ma5 = x.ma5 := by
  obtain ⟨quotes, -, -, reordered, averaged⟩ :=
    build_sums_up "600519" { price := 10.5 } unevenBars 0
  have short := (averaged (10, ma10) (by simp [averages])).1 (by decide)
  have enough := (averaged (5, ma5) (by simp [averages])).2 (by decide)
  exact ⟨by decide +kernel, quotes.price, short, (reordered _ unevenBars.reverse_perm).2, enough.2⟩

end Snapshot

end TickerWatch
