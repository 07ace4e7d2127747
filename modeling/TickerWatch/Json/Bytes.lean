import TickerWatch.Json.Compound

namespace TickerWatch.Json

def codeBytes (n : Nat) : List Nat :=
  let tail (k : Nat) : Nat := 0x80 + n / Nat.pow 64 k % 64
  if n < 0x80 then [n]
  else if n < 0x800 then [0xc0 + n / 64, tail 0]
  else if n < 0x10000 then [0xe0 + n / Nat.pow 64 2, tail 1, tail 0]
  else [0xf0 + n / Nat.pow 64 3, tail 2, tail 1, tail 0]

inductive BytesState where
  | plain
  | paired (high : Nat)
  | opened (high : Option Nat)
  | code (high : Option Nat) (left : Nat) (value : Nat)

namespace BytesState

def afterCode (high : Option Nat) (n : Nat) : BytesState × List Nat :=
  let before := (high.map codeBytes).getD []
  match high, isLowSurrogate n with
  | some h, true => (plain, codeBytes (joinSurrogates h n).toNat)
  | _, _ => if isHighSurrogate n then (paired n, before) else (plain, before ++ codeBytes n)

def afterPlain (c : Char) : Option BytesState × List Nat :=
  if c = '"' then (none, [])
  else if c = '\\' then (opened none, [])
  else (plain, codeBytes c.toNat)

def next (c : Char) (rest : List Char) : BytesState → Except Fault (Option BytesState × List Nat)
  | plain => .ok (afterPlain c)
  | paired high =>
    if c = '\\' then .ok (opened (some high), [])
    else
      let (state, bytes) := afterPlain c
      .ok (state, codeBytes high ++ bytes)
  | opened high =>
    if c = 'u' then
      if hasFourBytes rest then .ok (code high 4 0, []) else .error .endOfText
    else
      match plainEscape? c with
      | some x => .ok (plain, (high.map codeBytes).getD [] ++ codeBytes x.toNat)
      | none => .error .invalidEscape
  | code high left value =>
    match Text.hexDigit? c with
    | none => .error .invalidEscape
    | some d =>
      if 1 < left then .ok (code high (left - 1) (16 * value + d), [])
      else
        let (state, bytes) := afterCode high (16 * value + d)
        .ok (state, bytes)

end BytesState

def scanBytes : BytesState → List Char → Except Fault (List Nat × List Char)
  | _, [] => .error .endOfText
  | state, c :: cs =>
    match state.next c cs with
    | .error f => .error f
    | .ok (none, bytes) => .ok (bytes, cs)
    | .ok (some state, bytes) => (scanBytes state cs).map fun (more, rest) => (bytes ++ more, rest)

def bytes : Decoder (List Nat) :=
  let numbers : Decoder (List Nat) :=
    .ofShapes { Shapes.refusing "byte array" with list := readList nat8 }
  { text := fun cs =>
      match skipSpace cs with
      | '"' :: rest => lift (scanBytes .plain rest)
      | cs => numbers.text cs
    value := fun
      | .text s => .ok (s.toList.flatMap fun c => codeBytes c.toNat)
      | v => numbers.value v }

end TickerWatch.Json
