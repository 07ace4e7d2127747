import TickerWatch.Json.Numeral
import TickerWatch.Proofs.Decimal.Text

namespace TickerWatch

namespace Json

open Text

def Exponent.chars (e : Exponent) : List Char :=
  'e' :: (if e.negative then '-' else '+') :: e.digits

def Numeral.chars (n : Numeral) : List Char :=
  (if n.negative then ['-'] else []) ++ n.whole ++
    (if n.fraction.isEmpty then [] else '.' :: n.fraction) ++
    (n.exponent.map Exponent.chars).getD []

def Numeral.amount (n : Numeral) : Decimal.Digits where
  digits := digitsValue (n.whole ++ n.fraction)
  power :=
    (n.exponent.map fun e =>
      if e.negative then -(digitsValue e.digits : Int) else digitsValue e.digits).getD 0 -
        n.fraction.length

/-- Digits, the first of which counts a power of ten, are written as they are, or with their zeros
up to the point and one behind it. -/
structure Numeral.Makes (n : Numeral) (x : Decimal.Digits) (first : Int) : Prop where
  amount : n.amount = x ∨
    0 ≤ x.power ∧ n.amount = ⟨x.digits * Nat.pow 10 (x.power.toNat + 1), -1⟩
  exponent : ∀ e, n.exponent = some e → digitsValue e.digits = first.natAbs
  real : n.fraction ≠ [] ∨ n.exponent ≠ none

def AreDigits (cs : List Char) : Prop := cs ≠ [] ∧ ∀ c ∈ cs, c.isDigit = true

theorem AreDigits.append {cs more : List Char} (digits : AreDigits cs)
    (others : ∀ c ∈ more, c.isDigit = true) : AreDigits (cs ++ more) := by
  refine ⟨by simp [digits.1], fun c member => ?_⟩
  rcases List.mem_append.mp member with first | second
  · exact digits.2 c first
  · exact others c second

theorem areDigits_zero : AreDigits ['0'] := by
  refine ⟨List.cons_ne_nil _ _, fun c member => ?_⟩
  obtain rfl := List.mem_singleton.mp member
  decide

structure Numeral.Proper (n : Numeral) : Prop where
  whole : AreDigits n.whole
  leading : n.whole.head? = some '0' → n.whole = ['0']
  fraction : ∀ c ∈ n.fraction, c.isDigit = true
  exponent : ∀ e, n.exponent = some e → AreDigits e.digits

def EndsNumeral (cs : List Char) : Prop :=
  ∀ c, cs.head? = some c → c.isDigit = false ∧ c ≠ '.' ∧ c ≠ 'e' ∧ c ≠ 'E'

variable {cs rest : List Char}

theorem splitDigits_append (digits : ∀ c ∈ cs, c.isDigit = true)
    (stops : ∀ c, rest.head? = some c → c.isDigit = false) :
    splitDigits (cs ++ rest) = (cs, rest) := by
  have front : rest.takeWhile Char.isDigit = [] ∧ rest.dropWhile Char.isDigit = rest := by
    cases rest with
    | nil => simp
    | cons c rest => simp [stops c rfl]
  rw [splitDigits, List.takeWhile_append_of_pos digits, List.dropWhile_append_of_pos digits,
    front.1, front.2, List.append_nil]

theorem readWhole_append (digits : AreDigits cs) (leading : cs.head? = some '0' → cs = ['0'])
    (stops : ∀ c, rest.head? = some c → c.isDigit = false) :
    readWhole (cs ++ rest) = .ok (cs, rest) := by
  rw [readWhole, splitDigits_append digits.2 stops]
  cases cs with
  | nil => exact absurd rfl digits.1
  | cons c more =>
    by_cases zero : c = '0'
    · subst c
      have only : more = [] := by simpa using leading rfl
      subst more
      rfl
    · cases more <;> simp [zero]

theorem readFraction_append (digits : ∀ c ∈ cs, c.isDigit = true)
    (stops : ∀ c, rest.head? = some c → c.isDigit = false ∧ c ≠ '.') :
    readFraction ((if cs.isEmpty then [] else '.' :: cs) ++ rest) = .ok (cs, rest) := by
  cases cs with
  | nil =>
    cases rest with
    | nil => rfl
    | cons c rest =>
      have other := (stops c rfl).2
      simp [readFraction, other]
  | cons c more =>
    simp only [List.isEmpty_cons, Bool.false_eq_true, ↓reduceIte, List.cons_append, readFraction]
    rw [← List.cons_append, splitDigits_append digits fun c front => (stops c front).1]

theorem readExponent_append {exponent : Option Exponent}
    (digits : ∀ e, exponent = some e → AreDigits e.digits) (ends : EndsNumeral rest) :
    readExponent ((exponent.map Exponent.chars).getD [] ++ rest) = .ok (exponent, rest) := by
  cases exponent with
  | none =>
    cases rest with
    | nil => rfl
    | cons c rest =>
      obtain ⟨-, -, small, capital⟩ := ends c rfl
      simp [readExponent, small, capital]
  | some e =>
    obtain ⟨nonempty, digits⟩ := digits e rfl
    have split : splitDigits (e.digits ++ rest) = (e.digits, rest) :=
      splitDigits_append digits fun c front => (ends c front).1
    have sign : splitSign ((if e.negative then '-' else '+') :: (e.digits ++ rest)) =
        (e.negative, e.digits ++ rest) := by
      cases e.negative <;> rfl
    simp only [Option.map_some, Option.getD_some, Exponent.chars, List.cons_append, readExponent,
      readExponentDigits, sign, split]

theorem exponent_front (exponent : Option Exponent) (ends : EndsNumeral rest) (c : Char)
    (front : ((exponent.map Exponent.chars).getD [] ++ rest).head? = some c) :
    c.isDigit = false ∧ c ≠ '.' := by
  cases exponent with
  | none =>
    obtain ⟨other, point, -⟩ := ends c front
    exact ⟨other, point⟩
  | some e =>
    obtain rfl : 'e' = c := by simpa [Exponent.chars] using front
    decide

theorem fraction_front (fraction : List Char) {tail : List Char}
    (stops : ∀ c, tail.head? = some c → c.isDigit = false ∧ c ≠ '.') (c : Char)
    (front : ((if fraction.isEmpty then [] else '.' :: fraction) ++ tail).head? = some c) :
    c.isDigit = false := by
  cases fraction with
  | nil => exact (stops c front).1
  | cons d more =>
    obtain rfl : '.' = c := by simpa using front
    decide

theorem readNumeral_append {n : Numeral} (proper : n.Proper) (ends : EndsNumeral rest) :
    readNumeral (n.chars ++ rest) = .ok (n, rest) := by
  obtain ⟨negative, whole, fraction, exponent⟩ := n
  obtain ⟨digits, leading, fractional, exponential⟩ := proper
  have last := readExponent_append exponential ends
  have middle := readFraction_append fractional (exponent_front exponent ends)
  have first := readWhole_append digits leading
    (fraction_front fraction (exponent_front exponent ends))
  have unsigned : ∀ cs : List Char, (whole ++ cs).head? ≠ some '-' := by
    intro cs front
    obtain ⟨nonempty, all⟩ := digits
    cases whole with
    | nil => exact nonempty rfl
    | cons c more =>
      obtain rfl : c = '-' := by simpa using front
      exact absurd (all '-' List.mem_cons_self) (by decide)
  cases negative with
  | true =>
    simp only [Numeral.chars, readNumeral, ↓reduceIte, List.cons_append, List.nil_append,
      List.append_assoc, first, middle, last, bind, Except.bind, pure, Except.pure]
  | false =>
    simp only [Numeral.chars, readNumeral, Bool.false_eq_true, ↓reduceIte, List.nil_append,
      List.append_assoc]
    split
    · rename_i more same
      exact absurd (by rw [same]; rfl) (unsigned _)
    · simp only [first, middle, last, bind, Except.bind, pure, Except.pure]

end Json

namespace Decimal

open Json Text

variable {ds : List Char}

theorem areDigits_toDigits (n : Nat) : AreDigits (Nat.toDigits 10 n) :=
  ⟨Nat.toDigits_ne_nil, fun _ member => Nat.isDigit_of_mem_toDigits (by decide) (by decide) member⟩

theorem zeros_digits (n : Nat) : ∀ c ∈ zeros n, c.isDigit = true := by
  intro c member
  rw [(List.mem_replicate.mp member).2]
  decide

theorem digitsValue_toDigits (n : Nat) : digitsValue (Nat.toDigits 10 n) = n :=
  Nat.ofDigitChars_ten_toDigits

theorem digitsValue_append (cs ds : List Char) :
    digitsValue (cs ++ ds) = Nat.ofDigitChars 10 ds (digitsValue cs) :=
  Nat.ofDigitChars_append 0

theorem digitsValue_zeros (n : Nat) : digitsValue (zeros n) = 0 :=
  Nat.ofDigitChars_replicate_zero

theorem zeros_append (n : Nat) (ds : List Char) :
    digitsValue (zeros n ++ ds) = digitsValue ds := by
  rw [digitsValue_append, digitsValue_zeros]
  rfl

theorem append_zeros (n : Nat) (ds : List Char) :
    digitsValue (ds ++ zeros n) = digitsValue ds * Nat.pow 10 n := by
  rw [digitsValue_append, zeros, Nat.ofDigitChars_replicate_zero]
  exact Nat.mul_comm _ _

def IsNumeral (cs ds : List Char) (first : Int) : Prop :=
  ∃ n : Numeral, n.Proper ∧ n.negative = false ∧ cs = n.chars ∧
    n.Makes ⟨digitsValue ds, first + 1 - ds.length⟩ first

section Layouts

variable {first : Int} (digits : AreDigits ds)

include digits

theorem zeros_in_front (small : first < 0) :
    IsNumeral ('0' :: '.' :: zeros (-first - 1).toNat ++ ds) ds first := by
  obtain ⟨nonempty, all⟩ := digits
  have fraction : ∀ c ∈ zeros (-first - 1).toNat ++ ds, c.isDigit = true := by
    intro c member
    rcases List.mem_append.mp member with zero | digit
    · exact zeros_digits _ c zero
    · exact all c digit
  have value : digitsValue (['0'] ++ (zeros (-first - 1).toNat ++ ds)) = digitsValue ds := by
    rw [show ['0'] = zeros 1 from rfl, zeros_append, zeros_append]
  have length : (zeros (-first - 1).toNat ++ ds).length = (-first - 1).toNat + ds.length := by
    rw [List.length_append, zeros, List.length_replicate]
  have power : 0 - ((zeros (-first - 1).toNat ++ ds).length : Int) = first + 1 - ds.length := by
    omega
  refine ⟨⟨false, ['0'], zeros (-first - 1).toNat ++ ds, none⟩, ?_, rfl, ?_, ?_⟩
  · exact ⟨areDigits_zero, fun _ => rfl, fraction, nofun⟩
  · simp [Numeral.chars, nonempty]
  · exact ⟨.inl (congr (congrArg Digits.mk value) power), nofun, .inl (by simp [nonempty])⟩

theorem zeros_behind (leading : ds.head? = some '0' → ds = ['0'] ∧ first = 0)
    (above : 0 ≤ first) (short : ds.length ≤ first.toNat + 1) :
    IsNumeral (ds ++ zeros (first.toNat + 1 - ds.length) ++ ['.', '0']) ds first := by
  have value : digitsValue (ds ++ zeros (first.toNat + 1 - ds.length) ++ ['0']) =
      digitsValue ds * Nat.pow 10 ((first + 1 - ds.length).toNat + 1) := by
    have places : first.toNat + 1 - ds.length + 1 = (first + 1 - ds.length).toNat + 1 := by
      omega
    rw [List.append_assoc, show ['0'] = zeros 1 from rfl, zeros, zeros,
      List.replicate_append_replicate, ← places]
    exact append_zeros _ ds
  have alone : (ds ++ zeros (first.toNat + 1 - ds.length)).head? = some '0' →
      ds ++ zeros (first.toNat + 1 - ds.length) = ['0'] := by
    intro front
    rw [List.head?_append, List.head?_eq_some_head digits.1, Option.some_or,
      ← List.head?_eq_some_head digits.1] at front
    obtain ⟨rfl, rfl⟩ := leading front
    rfl
  have power : 0 - ((['0'] : List Char).length : Int) = -1 := by decide
  have covered : 0 ≤ first + 1 - (ds.length : Int) := by omega
  refine ⟨⟨false, ds ++ zeros (first.toNat + 1 - ds.length), ['0'], none⟩, ?_, rfl, ?_, ?_⟩
  · exact ⟨digits.append (zeros_digits _), alone, areDigits_zero.2, nofun⟩
  · simp [Numeral.chars]
  · exact ⟨.inr ⟨covered, congr (congrArg Digits.mk value) power⟩, nofun,
      .inl (List.cons_ne_nil _ _)⟩

theorem point_within (leading : ds.head? = some '0' → ds = ['0'] ∧ first = 0)
    (above : 0 ≤ first) (long : first.toNat + 1 < ds.length) :
    IsNumeral (ds.take (first.toNat + 1) ++ '.' :: ds.drop (first.toNat + 1)) ds first := by
  obtain ⟨nonempty, all⟩ := digits
  have whole : AreDigits (ds.take (first.toNat + 1)) :=
    ⟨by simp [nonempty], fun c member => all c (List.mem_of_mem_take member)⟩
  have alone : (ds.take (first.toNat + 1)).head? = some '0' →
      ds.take (first.toNat + 1) = ['0'] := by
    intro front
    rw [List.head?_take, if_neg (Nat.succ_ne_zero _)] at front
    obtain ⟨rfl, -⟩ := leading front
    exact absurd long (Nat.not_lt.mpr (Nat.le_add_left 1 first.toNat))
  have fraction : ds.drop (first.toNat + 1) ≠ [] := by
    rw [ne_eq, List.drop_eq_nil_iff]
    exact Nat.not_le.mpr long
  have value : digitsValue (ds.take (first.toNat + 1) ++ ds.drop (first.toNat + 1)) =
      digitsValue ds := by
    rw [List.take_append_drop]
  have power : 0 - ((ds.drop (first.toNat + 1)).length : Int) = first + 1 - ds.length := by
    rw [List.length_drop]
    omega
  refine ⟨⟨false, ds.take (first.toNat + 1), ds.drop (first.toNat + 1), none⟩, ?_, rfl, ?_, ?_⟩
  · exact ⟨whole, alone, fun c member => all c (List.mem_of_mem_drop member), nofun⟩
  · simp [Numeral.chars, fraction]
  · exact ⟨.inl (congr (congrArg Digits.mk value) power), nofun, .inl fraction⟩

/-- The point stands right behind the first digit of zero. -/
theorem positional_numeral (leading : ds.head? = some '0' → ds = ['0'] ∧ first = 0) :
    IsNumeral (positional ds first) ds first := by
  unfold positional
  split
  · rename_i small
    exact zeros_in_front digits small
  · rename_i above
    dsimp only
    split
    · rename_i short
      exact zeros_behind digits leading (Int.not_lt.mp above) short
    · rename_i long
      exact point_within digits leading (Int.not_lt.mp above) (Nat.lt_of_not_le long)

theorem scientific_numeral (first : Int) : IsNumeral (scientific ds first) ds first := by
  obtain ⟨nonempty, all⟩ := digits
  obtain ⟨c, tail, rfl⟩ := List.exists_cons_of_ne_nil nonempty
  have whole : AreDigits [c] := by
    refine ⟨List.cons_ne_nil _ _, fun d member => ?_⟩
    exact all d (List.mem_singleton.mp member ▸ List.mem_cons_self)
  have shift : (if decide (first < 0) = true then
      -(digitsValue (Nat.toDigits 10 first.natAbs) : Int)
        else digitsValue (Nat.toDigits 10 first.natAbs)) = first := by
    rw [digitsValue_toDigits]
    rcases Int.lt_or_le first 0 with below | above
    · rw [if_pos (decide_eq_true below)]
      omega
    · rw [if_neg (by simpa using above)]
      omega
  have power : (if decide (first < 0) = true then
      -(digitsValue (Nat.toDigits 10 first.natAbs) : Int)
        else digitsValue (Nat.toDigits 10 first.natAbs)) - (tail.length : Int) =
      first + 1 - (c :: tail).length := by
    rw [shift, List.length_cons]
    omega
  refine ⟨⟨false, [c], tail, some ⟨first < 0, Nat.toDigits 10 first.natAbs⟩⟩, ?_, rfl, ?_, ?_⟩
  · refine ⟨whole, fun front => ?_, fun d member => all d (List.mem_cons_of_mem c member), ?_⟩
    · rw [Option.some.inj front]
    · rintro e ⟨⟩
      exact areDigits_toDigits _
  · simp [scientific, Numeral.chars, Exponent.chars]
  · refine ⟨.inl (congrArg (Digits.mk _) power), ?_, .inr (Option.some_ne_none _)⟩
    rintro e ⟨⟩
    exact digitsValue_toDigits _

end Layouts

theorem digitsText_numeral (x : Digits) (zero : x.digits = 0 → x.power = 0) :
    ∃ n : Numeral, n.Proper ∧ n.negative = false ∧ digitsText x = n.chars ∧
      n.Makes x (x.power + (Nat.toDigits 10 x.digits).length - 1) := by
  have digits := areDigits_toDigits x.digits
  have same : (⟨digitsValue (Nat.toDigits 10 x.digits),
      x.power + (Nat.toDigits 10 x.digits).length - 1 + 1 - (Nat.toDigits 10 x.digits).length⟩ :
        Digits) = x := by
    rw [digitsValue_toDigits]
    congr 1
    omega
  have numeral : IsNumeral (digitsText x) (Nat.toDigits 10 x.digits)
      (x.power + (Nat.toDigits 10 x.digits).length - 1) := by
    unfold digitsText
    dsimp only
    split
    · apply positional_numeral digits
      intro front
      have none : x.digits = 0 := by
        apply Nat.eq_zero_of_not_pos
        intro positive
        exact toDigits_head positive front
      rw [none, zero none]
      exact ⟨Nat.toDigits_zero 10, rfl⟩
    · exact scientific_numeral digits _
  obtain ⟨n, proper, unsigned, text, makes⟩ := numeral
  rw [same] at makes
  exact ⟨n, proper, unsigned, text, makes⟩

/-- The text of a finite float is a numeral of its shortest digits. -/
theorem text?_finite {x : Float} {negative : Bool} {mantissa : Nat} {exponent : Int}
    (parts : Binary.ofFloat x = .finite negative mantissa exponent) :
    ∃ n : Numeral, n.Proper ∧ n.negative = negative ∧ text? x = some n.chars ∧
      n.Makes (shortest mantissa exponent) ((shortest mantissa exponent).power +
        (Nat.toDigits 10 (shortest mantissa exponent).digits).length - 1) := by
  have zero : (shortest mantissa exponent).digits = 0 →
      (shortest mantissa exponent).power = 0 := by
    intro none
    rcases Nat.eq_zero_or_pos mantissa with rfl | positive
    · rfl
    · exact absurd none (shortest_digits positive exponent)
  obtain ⟨n, proper, unsigned, same, makes⟩ := digitsText_numeral _ zero
  refine ⟨{ n with negative := negative }, ?_, rfl, ?_, makes.amount, makes.exponent, makes.real⟩
  · exact ⟨proper.whole, proper.leading, proper.fraction, proper.exponent⟩
  · cases negative <;> simp [text?, parts, same, Numeral.chars, unsigned]

theorem text?_numeral {x : Float} {cs : List Char} (text : text? x = some cs) :
    ∃ n : Numeral, n.Proper ∧ cs = n.chars := by
  cases parts : Binary.ofFloat x with
  | finite negative mantissa exponent =>
    obtain ⟨n, proper, -, same, -⟩ := text?_finite parts
    exact ⟨n, proper, Option.some.inj (text.symm.trans same)⟩
  | _ => simp [text?, parts] at text

end Decimal

end TickerWatch
