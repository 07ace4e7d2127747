import TickerWatch.Json.Compound
import TickerWatch.Proofs.Json.Numerals
import TickerWatch.Proofs.Json.Quoted

namespace TickerWatch

namespace Json

def EndsValue (cs : List Char) : Prop := ∀ c, cs.head? = some c → c = ',' ∨ c = ']' ∨ c = '\x7d'

/-- What is read from a written value, if anything is, with whatever comes behind it left over. -/
def Decoder.Answers {α : Type} (d : Decoder α) (v : Value) (x : Option α) : Prop :=
  ∀ rest, EndsValue rest → (d.text (v.write ++ rest)).toOption = x.map fun a => (a, rest)

section Outcomes

variable {ε ε' α β : Type}

@[simp] theorem toOption_ok (a : α) : (Except.ok a : Except ε α).toOption = some a := rfl

@[simp] theorem toOption_error (e : ε) : (Except.error e : Except ε α).toOption = none := rfl

@[simp] theorem toOption_bind (x : Except ε α) (f : α → Except ε β) :
    (x >>= f).toOption = x.toOption.bind fun a => (f a).toOption := by
  cases x <;> rfl

@[simp] theorem toOption_map (x : Except ε α) (f : α → β) :
    (x.map f).toOption = x.toOption.map f := by
  cases x <;> rfl

@[simp] theorem toOption_functor (x : Except ε α) (f : α → β) :
    (f <$> x).toOption = x.toOption.map f := by
  cases x <;> rfl

@[simp] theorem toOption_mapError (x : Except ε α) (f : ε → ε') :
    (x.mapError f).toOption = x.toOption := by
  cases x <;> rfl

theorem ok_of_toOption {x : Except ε α} {a : α} (some : x.toOption = some a) :
    x = .ok a := by
  cases x with
  | error e => cases some
  | ok b => exact congrArg Except.ok (Option.some.inj some)

theorem error_of_toOption {x : Except ε α} (none : x.toOption = none) :
    ∃ e, x = .error e := by
  cases x with
  | error e => exact ⟨e, rfl⟩
  | ok b => cases none

end Outcomes

theorem endsValue_nil : EndsValue [] := nofun

theorem endsValue_cons {c : Char} (ends : c = ',' ∨ c = ']' ∨ c = '\x7d') (cs : List Char) :
    EndsValue (c :: cs) := by
  rintro _ ⟨⟩
  exact ends

theorem EndsValue.numeral {cs : List Char} (ends : EndsValue cs) : EndsNumeral cs := by
  intro c front
  rcases ends c front with rfl | rfl | rfl <;> decide

theorem endsValue_items (vs : List Value) (rest : List Char) :
    EndsValue (Value.writeItems vs ++ rest) := by
  cases vs <;> exact endsValue_cons (by simp) _

theorem endsValue_members (ms : List (String × Value)) (rest : List Char) :
    EndsValue (Value.writeMembers ms ++ rest) := by
  cases ms <;> exact endsValue_cons (by simp) _

theorem skipSpace_cons {c : Char} (solid : isSpace c = false) (cs : List Char) :
    skipSpace (c :: cs) = c :: cs := by
  simp [skipSpace, solid]

variable {α β : Type} {d : Decoder α} {v : Value} {x : Option α}

theorem Decoder.Answers.readAll (answers : d.Answers v x) : (readAll d v.render).toOption = x := by
  have whole := answers [] endsValue_nil
  rw [List.append_nil] at whole
  unfold Json.readAll Value.render
  rw [String.toList_ofList]
  cases read : d.text v.write with
  | error err =>
    rw [read] at whole
    cases x with
    | none => rfl
    | some a => cases whole
  | ok front =>
    rw [read] at whole
    cases x with
    | none => cases whole
    | some a =>
      cases whole
      rfl

theorem Decoder.Answers.map (answers : d.Answers v x) (f : α → β) :
    (d.map f).Answers v (x.map f) := by
  intro rest ends
  have read := answers rest ends
  simp only [Decoder.map, toOption_map, read, Option.map_map]
  rfl

theorem Decoder.Answers.check (answers : d.Answers v x) (f : α → Except Fault β) :
    (d.check f).Answers v (x.bind fun a => (f a).toOption) := by
  intro rest ends
  have read := answers rest ends
  cases x with
  | none => simp [Decoder.check, read]
  | some a => simp [Decoder.check, read, lift]

theorem scalar_text {shapes : Shapes α} {c : Char} (solid : isSpace c = false) (square : c ≠ '[')
    (curly : c ≠ '\x7b') (cs : List Char) :
    ((Decoder.ofShapes shapes).text (c :: cs)).toOption =
      (readScalar (c :: cs)).toOption.bind fun found =>
        (shapes.scalar found.1).toOption.map fun a => (a, found.2) := by
  simp only [Decoder.ofShapes, skipSpace_cons solid]
  split
  · rename_i same
    exact absurd (List.cons.inj same).1 square
  · rename_i same
    exact absurd (List.cons.inj same).1 curly
  · simp [lift]

theorem write_text (s : String) (rest : List Char) :
    (Value.text s).write ++ rest = '"' :: (s.toList.flatMap escape ++ '"' :: rest) := by
  simp [Value.write, writeText]

theorem text_answers (s : String) : text.Answers (.text s) (some s) := by
  intro rest _
  have read : readScalar ('"' :: (s.toList.flatMap escape ++ '"' :: rest)) =
      .ok (.text s, rest) := by
    simp [readScalar, readTextTail_written, Except.map]
  rw [write_text, text, textAs, Decoder.leaf,
    scalar_text (by decide) (by decide) (by decide), read]
  rfl

theorem optional_answers {s : String} {x : Option α} (answers : d.Answers (.text s) x) :
    (optional d).Answers (.text s) (x.map some) := by
  intro rest ends
  have read := answers.map some rest ends
  rw [write_text] at read ⊢
  exact read

theorem choice_answers (names : List (String × α)) (s : String) :
    (choice names).Answers (.text s) (lookUp names s).toOption := by
  intro rest ends
  have read := (text_answers s).check (lookUp names) rest ends
  rw [write_text] at read ⊢
  exact read

theorem Numeral.Proper.front {n : Numeral} (proper : n.Proper) :
    ∃ c cs, n.chars = c :: cs ∧ startsNumber c = true := by
  obtain ⟨negative, whole, fraction, exponent⟩ := n
  obtain ⟨⟨nonempty, digits⟩, -⟩ := proper
  obtain ⟨c, more, rfl⟩ := List.exists_cons_of_ne_nil nonempty
  cases negative with
  | true => exact ⟨'-', _, by simp [Numeral.chars]; rfl, by decide⟩
  | false =>
    refine ⟨c, _, by simp [Numeral.chars]; rfl, ?_⟩
    simp [startsNumber, digits c List.mem_cons_self]

theorem not_number {c d : Char} (number : startsNumber c = true)
    (other : startsNumber d = false) : c ≠ d := by
  rintro rfl
  rw [number] at other
  cases other

theorem number_solid {c : Char} (number : startsNumber c = true) : isSpace c = false := by
  have blank := not_number number (d := ' ') (by decide)
  have line := not_number number (d := '\n') (by decide)
  have tab := not_number number (d := '\t') (by decide)
  have back := not_number number (d := '\r') (by decide)
  simp [isSpace, blank, line, tab, back]

theorem readScalar_numeral {n : Numeral} (proper : n.Proper) {rest : List Char}
    (ends : EndsValue rest) :
    readScalar (n.chars ++ rest) = n.value.map fun found => (found, rest) := by
  have read := readNumeral_append proper ends.numeral
  obtain ⟨c, cs, same, number⟩ := proper.front
  rw [same, List.cons_append] at read ⊢
  have null := not_number number (d := 'n') (by decide)
  have yes := not_number number (d := 't') (by decide)
  have no := not_number number (d := 'f') (by decide)
  have quote := not_number number (d := '"') (by decide)
  simp only [readScalar, null, yes, no, quote, number, ↓reduceIte, readNumber, read, bind,
    Except.bind]
  cases n.value <;> rfl

theorem leaf_numeral {n : Numeral} (proper : n.Proper) {rest : List Char} (ends : EndsValue rest)
    (wanted : String) (f : Scalar → Option α) :
    ((Decoder.leaf wanted f).text (n.chars ++ rest)).toOption =
      (n.value.toOption.bind f).map fun a => (a, rest) := by
  have read := readScalar_numeral proper ends
  obtain ⟨c, cs, same, number⟩ := proper.front
  have square := not_number number (d := '[') (by decide)
  have curly := not_number number (d := '\x7b') (by decide)
  rw [same, List.cons_append] at read ⊢
  rw [Decoder.leaf, scalar_text (number_solid number) square curly, read]
  cases n.value with
  | error err => rfl
  | ok found => cases made : f found <;> simp [Except.map, made]

/-- What is read from the text of a float is the same in front of others as alone, and nothing is
read from that of one that is not finite. -/
theorem real_answers (y : Float) :
    ∃ x, real.Answers (.real y) x ∧ (y.isFinite = false → x = none) := by
  cases text : Decimal.text? y with
  | none =>
    have written : (Value.real y).write = writeNull := by simp [Value.write, writeReal, text]
    refine ⟨none, fun rest ends => ?_, fun _ => rfl⟩
    rw [written]
    rfl
  | some cs =>
    obtain ⟨n, proper, rfl⟩ := Decimal.text?_numeral text
    have written : (Value.real y).write = n.chars := by simp [Value.write, writeReal, text]
    have read : ∃ x : Option Float, ∀ rest, EndsValue rest →
        (real.text (n.chars ++ rest)).toOption = x.map fun a => (a, rest) :=
      ⟨_, fun rest ends => leaf_numeral proper ends _ _⟩
    obtain ⟨x, read⟩ := read
    refine ⟨x, fun rest ends => ?_, fun infinite => ?_⟩
    · rw [written]
      exact read rest ends
    · rw [Decimal.text?_not_finite infinite] at text
      cases text

/-- A value begins with something that no reader of lists mistakes for a blank or an end. -/
theorem write_front (v : Value) :
    ∃ c cs, v.write = c :: cs ∧ isSpace c = false ∧ c ≠ ']' := by
  have numeral : ∀ {c}, startsNumber c = true → isSpace c = false ∧ c ≠ ']' := fun number =>
    ⟨number_solid number, not_number number (by decide)⟩
  cases v with
  | null => exact ⟨'n', _, by simp [Value.write, writeNull]; rfl, by decide⟩
  | flag b => cases b <;> exact ⟨_, _, rfl, by decide⟩
  | integer n =>
    have digits := Nat.toDigits_ne_nil (n := n.natAbs) (b := 10)
    obtain ⟨c, cs, same⟩ := List.exists_cons_of_ne_nil digits
    have digit : c.isDigit = true :=
      Nat.isDigit_of_mem_toDigits (b := 10) (n := n.natAbs) (by decide) (by decide) (by simp [same])
    by_cases negative : n < 0
    · exact ⟨'-', _, by simp [Value.write, writeInt, negative]; rfl, by decide⟩
    · have number : startsNumber c = true := by simp [startsNumber, digit]
      exact ⟨c, cs, by simp [Value.write, writeInt, negative, same], numeral number⟩
  | real y =>
    cases text : Decimal.text? y with
    | none => exact ⟨'n', _, by simp [Value.write, writeReal, text, writeNull]; rfl, by decide⟩
    | some cs =>
      obtain ⟨n, proper, rfl⟩ := Decimal.text?_numeral text
      obtain ⟨c, more, same, number⟩ := proper.front
      exact ⟨c, more, by simp [Value.write, writeReal, text, same], numeral number⟩
  | text s => exact ⟨'"', _, by simp [Value.write, writeText]; rfl, by decide⟩
  | list vs => cases vs <;> exact ⟨'[', _, by simp [Value.write]; rfl, by decide⟩
  | object ms => cases ms <;> exact ⟨'\x7b', _, by simp [Value.write]; rfl, by decide⟩

theorem nextItem_first (v : Value) (rest : List Char) :
    nextItem true (v.write ++ rest) = .ok (some (), v.write ++ rest) := by
  obtain ⟨c, cs, same, solid, inside⟩ := write_front v
  rw [same, List.cons_append, nextItem, skipSpace_cons solid]
  simp [inside]

theorem nextItem_later (v : Value) (rest : List Char) :
    nextItem false (',' :: v.write ++ rest) = .ok (some (), v.write ++ rest) := by
  obtain ⟨c, cs, same, solid, inside⟩ := write_front v
  have comma : skipSpace (',' :: (c :: (cs ++ rest))) = ',' :: c :: (cs ++ rest) :=
    skipSpace_cons (by decide) _
  rw [same, List.cons_append, List.cons_append, nextItem, comma]
  simp [skipSpace_cons solid, inside]

theorem nextItem_end (first : Bool) (rest : List Char) :
    nextItem first (']' :: rest) = .ok (none, ']' :: rest) := by
  rw [nextItem, skipSpace_cons (by decide)]
  rfl

variable {f : β → Value} {x : β → Option α} {bs : List β}

theorem readItems_step {fuel index : Nat} {first : Bool} {cs more : List Char} {y : Option α}
    (next : nextItem first cs = .ok (some (), v.write ++ more)) (answers : d.Answers v y)
    (ends : EndsValue more) :
    (readItems textItems d (fuel + 1) first index cs).toOption =
      y.bind fun a => (readItems textItems d fuel false (index + 1) more).toOption.map
        fun found => (a :: found.1, found.2) := by
  have read := answers more ends
  have cursor : lift (textItems.next first cs) = .ok (some (), v.write ++ more) := by
    show lift (nextItem first cs) = _
    rw [next]
    rfl
  have item : (textItems.read (.item index) d (v.write ++ more)).toOption =
      y.map fun a => (a, more) := by
    show (within (.item index) (d.text (v.write ++ more))).toOption = _
    rw [within, toOption_mapError, read]
  simp only [readItems, toOption_bind, cursor, toOption_ok, Option.bind_some, item]
  cases y with
  | none => rfl
  | some a =>
    simp only [Option.map_some, Option.bind_some]
    cases readItems textItems d fuel false (index + 1) more <;> rfl

theorem readItems_end (fuel index : Nat) (first : Bool) (rest : List Char) :
    readItems textItems d (fuel + 1) first index (']' :: rest) = .ok ([], ']' :: rest) := by
  have cursor : lift (textItems.next first (']' :: rest)) = .ok (none, ']' :: rest) := by
    show lift (nextItem first (']' :: rest)) = _
    rw [nextItem_end]
    rfl
  rw [readItems, cursor]
  rfl

theorem readItems_written (answers : ∀ b ∈ bs, d.Answers (f b) (x b)) (fuel index : Nat)
    (enough : bs.length < fuel) (rest : List Char) :
    (readItems textItems d fuel false index (Value.writeItems (bs.map f) ++ rest)).toOption =
      (bs.mapM x).map fun as => (as, ']' :: rest) := by
  induction bs generalizing fuel index with
  | nil =>
    obtain ⟨fuel, rfl⟩ := Nat.exists_eq_add_one_of_ne_zero (Nat.ne_of_gt enough)
    rw [List.map_nil, Value.writeItems, List.singleton_append, readItems_end]
    rfl
  | cons b bs ih =>
    obtain ⟨fuel, rfl⟩ :=
      Nat.exists_eq_add_one_of_ne_zero (Nat.ne_of_gt (Nat.zero_lt_of_lt enough))
    have next : nextItem false (Value.writeItems ((b :: bs).map f) ++ rest) =
        .ok (some (), (f b).write ++ (Value.writeItems (bs.map f) ++ rest)) := by
      rw [← nextItem_later]
      simp [Value.writeItems]
    have others := ih (fun b' among => answers b' (List.mem_cons_of_mem b among)) fuel (index + 1)
      (Nat.lt_of_succ_lt_succ enough)
    rw [readItems_step next (answers b List.mem_cons_self) (endsValue_items _ rest), others,
      List.mapM_cons]
    cases x b with
    | none => rfl
    | some a => cases bs.mapM x <;> rfl

theorem length_writeItems (vs : List Value) : vs.length < (Value.writeItems vs).length := by
  induction vs with
  | nil => decide
  | cons v vs ih =>
    simp only [Value.writeItems, List.length_cons, List.length_append]
    omega

theorem readItems_all (answers : ∀ b ∈ bs, d.Answers (f b) (x b)) (rest : List Char) :
    (readItems textItems d (((Value.list (bs.map f)).write.drop 1 ++ rest).length + 1) true 0
      ((Value.list (bs.map f)).write.drop 1 ++ rest)).toOption =
      (bs.mapM x).map fun as => (as, ']' :: rest) := by
  cases bs with
  | nil =>
    have read := readItems_end (d := d) (']' :: rest).length 0 true rest
    exact congrArg Except.toOption read
  | cons b bs =>
    have body : (Value.list ((b :: bs).map f)).write.drop 1 ++ rest =
        (f b).write ++ (Value.writeItems (bs.map f) ++ rest) := by
      simp [Value.write]
    have enough : bs.length < ((f b).write ++ (Value.writeItems (bs.map f) ++ rest)).length := by
      have shorter := length_writeItems (bs.map f)
      simp only [List.length_append, List.length_map] at shorter ⊢
      omega
    rw [body, readItems_step (nextItem_first (f b) _) (answers b List.mem_cons_self)
      (endsValue_items _ rest),
      readItems_written (fun b' among => answers b' (List.mem_cons_of_mem b among)) _ _ enough,
      List.mapM_cons]
    cases x b with
    | none => rfl
    | some a => cases bs.mapM x <;> rfl

theorem endList_end (rest : List Char) : endList (']' :: rest) = .ok rest := by
  rw [endList, skipSpace_cons (by decide)]
  rfl

/-- A list is read item by item, unless one of them is refused. -/
theorem list_answers (answers : ∀ b ∈ bs, d.Answers (f b) (x b)) :
    (list d).Answers (.list (bs.map f)) (bs.mapM x) := by
  intro rest ends
  -- Items are read from behind the bracket on, which an empty list has as well.
  have opened : ((list d).text ((Value.list (bs.map f)).write ++ rest)).toOption =
      (readList d textItems ((Value.list (bs.map f)).write.drop 1 ++ rest)).toOption := by
    cases bs <;> rfl
  have close : lift (textItems.close (']' :: rest)) = .ok rest := by
    show lift (endList (']' :: rest)) = _
    rw [endList_end]
    rfl
  have items := readItems_all answers rest
  rw [opened, readList, toOption_bind]
  show ((readItems textItems d (((Value.list (bs.map f)).write.drop 1 ++ rest).length + 1) true 0
    ((Value.list (bs.map f)).write.drop 1 ++ rest)).toOption.bind _) = _
  rw [items]
  cases bs.mapM x with
  | none => rfl
  | some as =>
    simp only [Option.map_some, Option.bind_some, toOption_bind, close]
    rfl

theorem nextKey_first (key : String) (rest : List Char) :
    nextKey true (writeText key ++ rest) = .ok (some key, rest) := by
  have quoted : writeText key ++ rest = '"' :: (key.toList.flatMap escape ++ '"' :: rest) := by
    simp [writeText]
  rw [quoted, nextKey, skipSpace_cons (by decide)]
  simp [readTextTail_written, Except.map]

theorem nextKey_later (key : String) (rest : List Char) :
    nextKey false (',' :: writeText key ++ rest) = .ok (some key, rest) := by
  have quoted : ',' :: writeText key ++ rest =
      ',' :: '"' :: (key.toList.flatMap escape ++ '"' :: rest) := by
    simp [writeText]
  rw [quoted, nextKey, skipSpace_cons (by decide)]
  simp [skipSpace_cons, isSpace, readTextTail_written, Except.map]

theorem nextKey_end (first : Bool) (rest : List Char) :
    nextKey first ('\x7d' :: rest) = .ok (none, '\x7d' :: rest) := by
  rw [nextKey, skipSpace_cons (by decide)]
  rfl

theorem endObject_end (rest : List Char) : endObject ('\x7d' :: rest) = .ok rest := by
  rw [endObject, skipSpace_cons (by decide)]
  rfl

variable {τ : Type} {member : String → τ → Except Fault (Decoder τ)}

/-- What a state becomes as members are read into it one by one, up to the first that is refused. -/
def Fills (member : String → τ → Except Fault (Decoder τ)) :
    τ → List (String × Value) → Option τ → Prop
  | t, [], y => y = some t
  | t, m :: ms, y =>
    ∃ d x, member m.1 t = .ok d ∧ d.Answers m.2 x ∧
      (x = none ∧ y = none ∨ ∃ t', x = some t' ∧ Fills member t' ms y)

theorem readMembers_step {fuel : Nat} {first : Bool} {key : String} {t : τ} {d : Decoder τ}
    {y : Option τ} {cs more : List Char}
    (next : nextKey first cs = .ok (some key, ':' :: v.write ++ more))
    (chosen : member key t = .ok d) (answers : d.Answers v y) (ends : EndsValue more) :
    (readMembers textMembers member (fuel + 1) first t cs).toOption =
      y.bind fun t' => (readMembers textMembers member fuel false t' more).toOption := by
  have read := answers more ends
  have cursor : within .unknown (lift (textMembers.next first cs)) =
      .ok (some key, ':' :: v.write ++ more) := by
    show within .unknown (lift (nextKey first cs)) = _
    rw [next]
    rfl
  have decoder : (lift (member key t) : Except ReadError (Decoder τ)) = .ok d := by
    rw [chosen]
    rfl
  have item : (textMembers.read (.member key) d (':' :: v.write ++ more)).toOption =
      y.map fun t' => (t', more) := by
    have colon : lift (colon (':' :: (v.write ++ more))) = .ok (v.write ++ more) := by
      rw [Json.colon, skipSpace_cons (by decide)]
      rfl
    show (lift (Json.colon (':' :: (v.write ++ more))) >>= fun cs =>
      within (.member key) (d.text cs)).toOption = _
    rw [colon, toOption_bind, toOption_ok, Option.bind_some, within, toOption_mapError, read]
  simp only [readMembers, toOption_bind, cursor, toOption_ok, Option.bind_some, decoder, item]
  cases y <;> rfl

theorem readMembers_end (fuel : Nat) (first : Bool) (t : τ) (rest : List Char) :
    readMembers textMembers member (fuel + 1) first t ('\x7d' :: rest) =
      .ok (t, '\x7d' :: rest) := by
  have cursor : within .unknown (lift (textMembers.next first ('\x7d' :: rest))) =
      .ok (none, '\x7d' :: rest) := by
    show within .unknown (lift (nextKey first ('\x7d' :: rest))) = _
    rw [nextKey_end]
    rfl
  rw [readMembers, cursor]
  rfl

theorem readMembers_written {t : τ} {ms : List (String × Value)} {y : Option τ}
    (fills : Fills member t ms y) (fuel : Nat) (enough : ms.length < fuel) (rest : List Char) :
    (readMembers textMembers member fuel false t (Value.writeMembers ms ++ rest)).toOption =
      y.map fun t' => (t', '\x7d' :: rest) := by
  induction ms generalizing t fuel with
  | nil =>
    obtain ⟨fuel, rfl⟩ := Nat.exists_eq_add_one_of_ne_zero (Nat.ne_of_gt enough)
    obtain rfl : y = some t := fills
    rw [Value.writeMembers, List.singleton_append, readMembers_end]
    rfl
  | cons m ms ih =>
    obtain ⟨fuel, rfl⟩ :=
      Nat.exists_eq_add_one_of_ne_zero (Nat.ne_of_gt (Nat.zero_lt_of_lt enough))
    obtain ⟨d, x, chosen, answers, others⟩ := fills
    have next : nextKey false (Value.writeMembers (m :: ms) ++ rest) =
        .ok (some m.1, ':' :: m.2.write ++ (Value.writeMembers ms ++ rest)) := by
      rw [← nextKey_later]
      simp [Value.writeMembers]
    rw [readMembers_step next chosen answers (endsValue_members ms rest)]
    rcases others with ⟨rfl, rfl⟩ | ⟨t', rfl, others⟩
    · rfl
    · exact ih others fuel (Nat.lt_of_succ_lt_succ enough)

theorem length_writeMembers (ms : List (String × Value)) :
    ms.length < (Value.writeMembers ms).length := by
  induction ms with
  | nil => decide
  | cons m ms ih =>
    simp only [Value.writeMembers, List.length_cons, List.length_append]
    omega

theorem readMembers_all {t : τ} {ms : List (String × Value)} {y : Option τ}
    (fills : Fills member t ms y) (rest : List Char) :
    (readMembers textMembers member (((Value.object ms).write.drop 1 ++ rest).length + 1) true t
      ((Value.object ms).write.drop 1 ++ rest)).toOption =
      y.map fun t' => (t', '\x7d' :: rest) := by
  cases ms with
  | nil =>
    obtain rfl : y = some t := fills
    exact congrArg Except.toOption (readMembers_end ('\x7d' :: rest).length true t rest)
  | cons m ms =>
    obtain ⟨d, x, chosen, answers, others⟩ := fills
    have next : nextKey true ((Value.object (m :: ms)).write.drop 1 ++ rest) =
        .ok (some m.1, ':' :: m.2.write ++ (Value.writeMembers ms ++ rest)) := by
      rw [← nextKey_first]
      simp [Value.write]
    have enough : ms.length < ((Value.object (m :: ms)).write.drop 1 ++ rest).length := by
      have shorter := length_writeMembers ms
      simp only [Value.write, List.cons_append, List.drop_succ_cons, List.drop_zero,
        List.length_append, List.length_cons]
      omega
    rw [readMembers_step next chosen answers (endsValue_members ms rest)]
    rcases others with ⟨rfl, rfl⟩ | ⟨t', rfl, others⟩
    · rfl
    · exact readMembers_written others _ enough rest

/-- A record is read from the members of an object, unless one is refused or a field is missing. -/
theorem record_answers {αs : List Type} {fields : Fields αs} {ms : List (String × Value)}
    {y : Option (Slots αs)} (name : String)
    (fills : Fills (fields.member false) fields.empty ms y) :
    (record name fields).Answers (.object ms)
      (y.bind fun slots => (fields.complete slots).toOption) := by
  intro rest ends
  have opened : ((record name fields).text ((Value.object ms).write ++ rest)).toOption =
      (fields.readObject false textMembers ((Value.object ms).write.drop 1 ++ rest)).toOption := by
    cases ms <;> rfl
  have close : lift (textMembers.close ('\x7d' :: rest)) = .ok rest := by
    show lift (endObject ('\x7d' :: rest)) = _
    rw [endObject_end]
    rfl
  have members := readMembers_all fills rest
  rw [opened, Fields.readObject, toOption_bind]
  show ((readMembers textMembers (fields.member false)
    (((Value.object ms).write.drop 1 ++ rest).length + 1) true fields.empty
    ((Value.object ms).write.drop 1 ++ rest)).toOption.bind _) = _
  rw [members]
  cases y with
  | none => rfl
  | some slots =>
    simp only [Option.map_some, Option.bind_some, toOption_bind, close]
    cases fields.complete slots <;> rfl

end Json

end TickerWatch
