import TickerWatch.Json.Quoted
import TickerWatch.Json.Value

namespace TickerWatch

namespace Text

theorem hexDigit?_hexDigit : ∀ n < 16, hexDigit? (hexDigit n) = some n := by decide

theorem hexPadded_four (n : Nat) :
    hexPadded 4 n =
      [hexDigit (n / 4096 % 16), hexDigit (n / 256 % 16), hexDigit (n / 16 % 16),
        hexDigit (n % 16)] := by
  simp [hexPadded, Nat.div_div_eq_div_mul]

end Text

namespace Json

open Text

variable {rest done cs : List Char}

theorem hasFourBytes_four (a b c d : Char) : hasFourBytes (a :: b :: c :: d :: cs) = true := by
  have first := a.utf8Size_pos
  have second := b.utf8Size_pos
  have third := c.utf8Size_pos
  have fourth := d.utf8Size_pos
  simp [hasFourBytes]
  omega

theorem scanText_code {n : Nat} (small : n < 0xd800) :
    scanText true .opened done ('u' :: hexPadded 4 n ++ cs) =
      scanText true .none (Char.ofNat n :: done) cs := by
  have digits : ∀ m, hexDigit? (hexDigit (m % 16)) = some (m % 16) :=
    fun m => hexDigit?_hexDigit _ (Nat.mod_lt m (by decide))
  have value : 16 * (16 * (16 * (16 * 0 + n / 4096 % 16) + n / 256 % 16) + n / 16 % 16) + n % 16 =
      n := by omega
  have low : isLowSurrogate n = false := by simp [isLowSurrogate]; omega
  have high : isHighSurrogate n = false := by simp [isHighSurrogate]; omega
  rw [hexPadded_four]
  simp only [List.cons_append, List.nil_append, scanText, ↓reduceIte, hasFourBytes_four, digits,
    value, codeEnd, low, high, Nat.reduceSub, Nat.reduceLT, Bool.not_true, Bool.false_eq_true]

theorem scanText_plain {c : Char} (quote : c ≠ '"') (slash : c ≠ '\\') (graphic : ¬ c.val < 32) :
    scanText true .none done (c :: cs) = scanText true .none (c :: done) cs := by
  simp only [scanText, quote, slash, graphic, ↓reduceIte]

/-- However a character is written, it is read as itself. -/
theorem scanText_escape (c : Char) :
    scanText true .none done (escape c ++ cs) = scanText true .none (c :: done) cs := by
  unfold escape
  split
  -- Seven characters have an escape of one letter.
  · rfl
  · rfl
  · rfl
  · rfl
  · rfl
  · rfl
  · rfl
  · rename_i quote slash _ _ _ _ _
    split
    · rename_i control
      have small : c.toNat < 0xd800 := Nat.lt_trans control (by decide)
      have opened : scanText true .none done ('\\' :: 'u' :: hexPadded 4 c.toNat ++ cs) =
          scanText true .opened done ('u' :: hexPadded 4 c.toNat ++ cs) := rfl
      rw [opened, scanText_code small, Char.ofNat_toNat]
    · rename_i graphic
      exact scanText_plain quote slash graphic

theorem scanText_written (text : List Char) :
    scanText true .none done (text.flatMap escape ++ '"' :: rest) =
      .ok (done.reverse ++ text, rest) := by
  induction text generalizing done with
  | nil => simp [scanText]
  | cons c text ih =>
    rw [List.flatMap_cons, List.append_assoc, scanText_escape, ih]
    simp

theorem readTextTail_written (s : String) :
    readTextTail (s.toList.flatMap escape ++ '"' :: rest) = .ok (s, rest) := by
  rw [readTextTail, scanText_written]
  simp [Except.map]

end Json

end TickerWatch
