import TickerWatch.Json.Token

namespace TickerWatch.Json

def skipText (cs : List Char) : Except Fault (List Char) :=
  (scanText false .none [] cs).map Prod.snd

def skipNumber (cs : List Char) : Except Fault (List Char) :=
  match readNumeral cs with
  | .ok (_, rest) => .ok rest
  | .error _ => .error .invalidNumber

inductive Bracket where
  | square
  | curly

def Bracket.unclosed : Bracket → Fault
  | .square => .endOfList
  | .curly => .endOfObject

def Bracket.unfinished : Bracket → Fault
  | .square => .expectedCommaOrBracket
  | .curly => .expectedCommaOrBrace

def Bracket.closer : Bracket → Char
  | .square => ']'
  | .curly => '\x7d'

def Bracket.skipKey : Bracket → List Char → Except Fault (List Char)
  | .square, cs => .ok cs
  | .curly, cs =>
    match skipSpace cs with
    | '"' :: rest => skipText rest >>= colon
    | [] => .error .endOfObject
    | _ => .error .keyNotText

def skipScalar (c : Char) (cs : List Char) : Except Fault (List Char) :=
  if c = 'n' then expectWord ['u', 'l', 'l'] cs
  else if c = 't' then expectWord ['r', 'u', 'e'] cs
  else if c = 'f' then expectWord ['a', 'l', 's', 'e'] cs
  else if c = '"' then skipText cs
  else if startsNumber c then skipNumber (c :: cs)
  else .error .expectedValue

def Bracket.ofOpener? (c : Char) : Option Bracket :=
  if c = '[' then some .square else if c = '\x7b' then some .curly else none

mutual

/-- Every value takes at least one character, so the length of the text is fuel enough. -/
def skipValue : (fuel : Nat) → List Char → Except Fault (List Char)
  | 0, _ => .error .endOfValue
  | fuel + 1, cs =>
    match skipSpace cs with
    | [] => .error .endOfValue
    | c :: rest =>
      match Bracket.ofOpener? c with
      | none => skipScalar c rest
      | some b =>
        match skipSpace rest with
        | [] => .error b.unclosed
        | d :: after => if d = b.closer then .ok after else skipMore fuel b (d :: after)

def skipMore : (fuel : Nat) → Bracket → List Char → Except Fault (List Char)
  | 0, b, _ => .error b.unclosed
  | fuel + 1, b, cs =>
    match b.skipKey cs >>= skipValue fuel with
    | .error f => .error f
    | .ok rest =>
      match skipSpace rest with
      | [] => .error b.unclosed
      | c :: after =>
        if c = b.closer then .ok after
        else if c = ',' then skipMore fuel b after
        else .error b.unfinished

end

def skip (cs : List Char) : Except Fault (List Char) := skipValue (cs.length + 1) cs

end TickerWatch.Json
