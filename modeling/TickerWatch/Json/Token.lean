import TickerWatch.Json.Numeral
import TickerWatch.Json.Quoted

namespace TickerWatch.Json

def isSpace (c : Char) : Bool := c = ' ' || c = '\n' || c = '\t' || c = '\r'

def skipSpace (cs : List Char) : List Char := cs.dropWhile isSpace

def expectWord : (word : List Char) → List Char → Except Fault (List Char)
  | [], cs => .ok cs
  | _ :: _, [] => .error .endOfValue
  | w :: ws, c :: cs => if c = w then expectWord ws cs else .error .expectedWord

def startsNumber (c : Char) : Bool := c = '-' || c.isDigit

def readNumber (cs : List Char) : Except Fault (Scalar × List Char) := do
  let (n, rest) ← readNumeral cs
  return (← n.value, rest)

def readScalar : List Char → Except Fault (Scalar × List Char)
  | [] => .error .endOfValue
  | c :: cs =>
    if c = 'n' then (expectWord ['u', 'l', 'l'] cs).map fun rest => (.null, rest)
    else if c = 't' then (expectWord ['r', 'u', 'e'] cs).map fun rest => (.flag true, rest)
    else if c = 'f' then (expectWord ['a', 'l', 's', 'e'] cs).map fun rest => (.flag false, rest)
    else if c = '"' then (readTextTail cs).map fun (s, rest) => (.text s, rest)
    else if startsNumber c then readNumber (c :: cs)
    else .error .expectedValue

def colon (cs : List Char) : Except Fault (List Char) :=
  match skipSpace cs with
  | ':' :: rest => .ok rest
  | [] => .error .endOfObject
  | _ => .error .expectedColon

def nextItem (first : Bool) (cs : List Char) : Except Fault (Option Unit × List Char) :=
  match skipSpace cs with
  | [] => .error .endOfList
  | c :: rest =>
    if c = ']' then .ok (none, c :: rest)
    else if first then .ok (some (), c :: rest)
    else if c = ',' then
      match skipSpace rest with
      | [] => .error .endOfValue
      | ']' :: _ => .error .trailingComma
      | cs => .ok (some (), cs)
    else .error .expectedCommaOrBracket

def endList (cs : List Char) : Except Fault (List Char) :=
  match skipSpace cs with
  | ']' :: rest => .ok rest
  | ',' :: rest =>
    match skipSpace rest with
    | ']' :: _ => .error .trailingComma
    | _ => .error .trailingCharacters
  | [] => .error .endOfList
  | _ => .error .trailingCharacters

def nextKey (first : Bool) (cs : List Char) : Except Fault (Option String × List Char) :=
  match skipSpace cs with
  | [] => .error .endOfObject
  | c :: rest =>
    if c = '\x7d' then .ok (none, c :: rest)
    else if first then
      if c = '"' then (readTextTail rest).map fun (k, cs) => (some k, cs) else .error .keyNotText
    else if c = ',' then
      match skipSpace rest with
      | [] => .error .endOfValue
      | '"' :: rest => (readTextTail rest).map fun (k, cs) => (some k, cs)
      | '\x7d' :: _ => .error .trailingComma
      | _ => .error .keyNotText
    else .error .expectedCommaOrBrace

def endObject (cs : List Char) : Except Fault (List Char) :=
  match skipSpace cs with
  | '\x7d' :: rest => .ok rest
  | ',' :: _ => .error .trailingComma
  | [] => .error .endOfObject
  | _ => .error .trailingCharacters

def onlyKey (cs : List Char) : Except Fault (String × List Char) :=
  match skipSpace cs with
  | [] => .error .endOfObject
  | '"' :: rest => readTextTail rest
  | '\x7d' :: _ => .error .expectedValue
  | _ => .error .keyNotText

end TickerWatch.Json
