import TickerWatch.Proofs.Json.Written

namespace TickerWatch.Json

def Graphic (cs : List Char) : Prop := ∀ c ∈ cs, ¬ c.val < 32

instance : DecidablePred Graphic := List.decidableBAll fun c : Char => ¬ c.val < 32

section Graphic

variable {cs more : List Char}

theorem Graphic.append (first : Graphic cs) (second : Graphic more) : Graphic (cs ++ more) :=
  fun c member => (List.mem_append.mp member).elim (first c) (second c)

theorem Graphic.cons {c : Char} (first : ¬ c.val < 32) (others : Graphic cs) : Graphic (c :: cs) :=
  List.forall_mem_cons.mpr ⟨first, others⟩

theorem digits_graphic (digits : ∀ c ∈ cs, c.isDigit = true) : Graphic cs := by
  intro c member control
  have digit := digits c member
  simp only [Char.isDigit, Bool.and_eq_true, decide_eq_true_eq] at digit
  have low : 48 ≤ c.val.toNat := digit.1
  have high : c.val.toNat < 32 := control
  omega

theorem Numeral.Proper.graphic {n : Numeral} (proper : n.Proper) : Graphic n.chars := by
  obtain ⟨negative, whole, fraction, exponent⟩ := n
  obtain ⟨⟨-, digits⟩, -, fractional, exponential⟩ := proper
  refine .append (.append (.append ?_ (digits_graphic digits)) ?_) ?_
  · cases negative <;> simp [Graphic]
  · cases fraction with
    | nil => exact nofun
    | cons c more => exact .cons (by decide) (digits_graphic fractional)
  · cases exponent with
    | none => exact nofun
    | some e =>
      refine .cons (by decide) (.cons ?_ (digits_graphic (exponential e rfl).2))
      cases e.negative <;> decide

theorem hexDigit_graphic : ∀ n < 16, ¬ (Text.hexDigit n).val < 32 := by decide

theorem hexPadded_graphic (places n : Nat) : Graphic (Text.hexPadded places n) := by
  induction places generalizing n with
  | zero => exact nofun
  | succ places ih =>
    exact (ih (n / 16)).append (.cons (hexDigit_graphic _ (Nat.mod_lt n (by decide))) nofun)

theorem escape_graphic (c : Char) : Graphic (escape c) := by
  unfold escape
  split
  case h_8 =>
    split
    · exact .cons (by decide) (.cons (by decide) (hexPadded_graphic 4 _))
    · rename_i graphic
      exact .cons graphic nofun
  all_goals exact .cons (by decide) (.cons (by decide) nofun)

theorem writeText_graphic (s : String) : Graphic (writeText s) := by
  refine .cons (by decide) (.append ?_ (.cons (by decide) nofun))
  intro c member
  obtain ⟨d, -, among⟩ := List.mem_flatMap.mp member
  exact escape_graphic d c among

end Graphic

theorem writeInt_numeral (n : Int) : ∃ k : Numeral, k.Proper ∧ writeInt n = k.chars := by
  refine ⟨⟨n < 0, Nat.toDigits 10 n.natAbs, [], none⟩,
    ⟨Decimal.areDigits_toDigits _, fun front => ?_, nofun, nofun⟩, ?_⟩
  · have zero : n.natAbs = 0 :=
      Nat.eq_zero_of_not_pos fun positive => Decimal.toDigits_head positive front
    simp [zero]
  · by_cases negative : n < 0 <;> simp [writeInt, Numeral.chars, negative]

theorem writeReal_numeral (x : Float) :
    writeReal x = writeNull ∨ ∃ k : Numeral, k.Proper ∧ writeReal x = k.chars := by
  unfold writeReal
  cases text : Decimal.text? x with
  | none => exact .inl rfl
  | some cs =>
    obtain ⟨k, proper, same⟩ := Decimal.text?_numeral text
    exact .inr ⟨k, proper, same⟩

theorem writeNull_graphic : Graphic writeNull := by decide

theorem writeFlag_graphic (b : Bool) : Graphic (writeFlag b) := by
  cases b <;> decide

mutual

theorem Value.write_graphic : (v : Value) → Graphic v.write
  | .null => writeNull_graphic
  | .flag b => writeFlag_graphic b
  | .integer n => by
    obtain ⟨k, proper, same⟩ := writeInt_numeral n
    rw [write, same]
    exact proper.graphic
  | .real x => by
    rw [write]
    rcases writeReal_numeral x with null | ⟨k, proper, same⟩
    · rw [null]
      exact writeNull_graphic
    · rw [same]
      exact proper.graphic
  | .text s => writeText_graphic s
  | .list [] => .cons (by decide) (.cons (by decide) nofun)
  | .list (v :: vs) => .cons (by decide) (v.write_graphic.append (Value.writeItems_graphic vs))
  | .object [] => .cons (by decide) (.cons (by decide) nofun)
  | .object (m :: ms) =>
    .cons (by decide) (((writeText_graphic m.1).append (.cons (by decide) m.2.write_graphic)).append
      (Value.writeMembers_graphic ms))

theorem Value.writeItems_graphic : (vs : List Value) → Graphic (writeItems vs)
  | [] => .cons (by decide) nofun
  | v :: vs => .cons (by decide) (v.write_graphic.append (Value.writeItems_graphic vs))

theorem Value.writeMembers_graphic : (ms : List (String × Value)) → Graphic (writeMembers ms)
  | [] => .cons (by decide) nofun
  | m :: ms =>
    .cons (by decide) (((writeText_graphic m.1).append (.cons (by decide) m.2.write_graphic)).append
      (Value.writeMembers_graphic ms))

end

theorem skip_numeral {n : Numeral} (proper : n.Proper) {rest : List Char} (ends : EndsValue rest) :
    skip (n.chars ++ rest) = .ok rest := by
  have read := readNumeral_append proper ends.numeral
  obtain ⟨c, cs, same, number⟩ := proper.front
  rw [same, List.cons_append] at read ⊢
  have null := not_number number (d := 'n') (by decide)
  have yes := not_number number (d := 't') (by decide)
  have no := not_number number (d := 'f') (by decide)
  have quote := not_number number (d := '"') (by decide)
  have square := not_number number (d := '[') (by decide)
  have curly := not_number number (d := '\x7b') (by decide)
  simp only [skip, skipValue, skipSpace_cons (number_solid number), Bracket.ofOpener?, square, curly,
    skipScalar, null, yes, no, quote, number, ↓reduceIte, skipNumber, read]

theorem ignored_answers {v : Value} (skips : ∀ rest, EndsValue rest →
    skip (v.write ++ rest) = .ok rest) : ignored.Answers v (some ()) := by
  intro rest ends
  simp [ignored, skips rest ends, lift, Except.map]

theorem ignored_numeral {v : Value} {n : Numeral} (proper : n.Proper) (written : v.write = n.chars) :
    ignored.Answers v (some ()) :=
  ignored_answers fun _ ends => written ▸ skip_numeral proper ends

theorem ignored_integer (n : Int) : ignored.Answers (.integer n) (some ()) := by
  obtain ⟨k, proper, same⟩ := writeInt_numeral n
  exact ignored_numeral proper (by rw [Value.write, same])

theorem ignored_real (x : Float) : ignored.Answers (.real x) (some ()) := by
  rcases writeReal_numeral x with null | ⟨k, proper, same⟩
  · refine ignored_answers fun rest _ => ?_
    rw [Value.write, null]
    rfl
  · exact ignored_numeral proper (by rw [Value.write, same])

theorem ignored_flag (b : Bool) : ignored.Answers (.flag b) (some ()) := by
  refine ignored_answers fun rest _ => ?_
  cases b <;> rfl

end TickerWatch.Json
