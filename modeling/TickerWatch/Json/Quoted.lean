import TickerWatch.Json.Fault

namespace TickerWatch.Json

inductive Escape where
  | none
  | opened
  | code (high : Option Nat) (left : Nat) (value : Nat)
  | pair (high : Nat)
  | pairOpened (high : Nat)

def hasFourBytes (cs : List Char) : Bool := 4 ≤ ((cs.take 4).map Char.utf8Size).foldl (· + ·) 0

def plainEscape? : Char → Option Char
  | '"' => some '"'
  | '\\' => some '\\'
  | '/' => some '/'
  | 'b' => some '\x08'
  | 'f' => some '\x0c'
  | 'n' => some '\n'
  | 'r' => some '\r'
  | 't' => some '\t'
  | _ => none

def isHighSurrogate (n : Nat) : Bool := 0xd800 ≤ n && n ≤ 0xdbff

def isLowSurrogate (n : Nat) : Bool := 0xdc00 ≤ n && n ≤ 0xdfff

def joinSurrogates (high low : Nat) : Char :=
  Char.ofNat ((high - 0xd800) * 0x400 + (low - 0xdc00) + 0x10000)

inductive CodeEnd where
  | char (c : Char)
  | opensPair (high : Nat)

/-- What a complete character code stands for. A text whose value does not matter has its surrogates
unchecked. -/
def codeEnd (checked : Bool) (high : Option Nat) (n : Nat) : Except Fault CodeEnd :=
  match high with
  | some h => if isLowSurrogate n then .ok (.char (joinSurrogates h n)) else .error .unpairedSurrogate
  | none =>
    if !checked then .ok (.char (Char.ofNat n))
    else if isLowSurrogate n then .error .unpairedSurrogate
    else if isHighSurrogate n then .ok (.opensPair n)
    else .ok (.char (Char.ofNat n))

def scanText (checked : Bool) :
    Escape → (done : List Char) → List Char → Except Fault (List Char × List Char)
  | _, _, [] => .error .endOfText
  | .none, done, c :: cs =>
    if c = '"' then .ok (done.reverse, cs)
    else if c = '\\' then scanText checked .opened done cs
    else if c.val < 32 then .error .controlCharacter
    else scanText checked .none (c :: done) cs
  | .opened, done, c :: cs =>
    if c = 'u' then
      if hasFourBytes cs then scanText checked (.code none 4 0) done cs else .error .endOfText
    else
      match plainEscape? c with
      | some x => scanText checked .none (x :: done) cs
      | none => .error .invalidEscape
  | .code high left value, done, c :: cs =>
    match Text.hexDigit? c with
    | none => .error .invalidEscape
    | some d =>
      let value := 16 * value + d
      if 1 < left then scanText checked (.code high (left - 1) value) done cs
      else
        match codeEnd checked high value with
        | .error f => .error f
        | .ok (.char x) => scanText checked .none (x :: done) cs
        | .ok (.opensPair h) => scanText checked (.pair h) done cs
  | .pair high, done, c :: cs =>
    if c = '\\' then scanText checked (.pairOpened high) done cs else .error .unfinishedPair
  | .pairOpened high, done, c :: cs =>
    if c = 'u' then
      if hasFourBytes cs then scanText checked (.code (some high) 4 0) done cs else .error .endOfText
    else .error .unfinishedPair

def readTextTail (cs : List Char) : Except Fault (String × List Char) :=
  (scanText true .none [] cs).map fun (t, rest) => (String.ofList t, rest)

end TickerWatch.Json
