namespace TickerWatch.Http

def isTokenChar (c : Char) : Bool :=
  c.isAlphanum || "!#$%&'*+-.^_`|~".toList.contains c

def isQuotable (c : Char) : Bool := 31 < c.val && c.val ≠ 127

inductive ParamState where
  | start
  | name
  | valueStart
  | value
  | quotedStart
  | quoted
  | afterQuoted

def validParams : ParamState → List Char → Bool
  | .start, [] => true
  | .name, [] => false
  | .valueStart, [] => true
  | .value, [] => true
  | .quotedStart, [] => false
  | .quoted, [] => false
  | .afterQuoted, [] => true
  | .start, c :: cs =>
    if c = ' ' then validParams .start cs else isTokenChar c && validParams .name cs
  | .name, c :: cs =>
    if c = '=' then validParams .valueStart cs else isTokenChar c && validParams .name cs
  | .valueStart, c :: cs =>
    if c = '"' then validParams .quotedStart cs else isTokenChar c && validParams .value cs
  | .value, c :: cs =>
    if c = ';' then validParams .start cs else isTokenChar c && validParams .value cs
  | .quotedStart, c :: cs => isQuotable c && validParams .quoted cs
  | .quoted, c :: cs =>
    if c = '"' then validParams .afterQuoted cs else isQuotable c && validParams .quoted cs
  | .afterQuoted, c :: cs =>
    if c = ';' then validParams .start cs else c = ' ' && validParams .afterQuoted cs

def isToken (cs : List Char) : Bool := !cs.isEmpty && cs.all isTokenChar

def lowered (cs : List Char) : String := String.ofList (cs.map Char.toLower)

/-- The subtype up to its last plus, and what follows it. A plus at the very beginning counts as a
letter. -/
def splitSuffix (subtype : List Char) : List Char × Option (List Char) :=
  let tail := (subtype.drop 1).reverse.takeWhile (· ≠ '+')
  if tail.length + 1 < subtype.length then
    (subtype.take (subtype.length - tail.length - 1), some tail.reverse)
  else (subtype, none)

def isJson (contentType : String) : Bool :=
  let cs := contentType.toList
  let type := cs.takeWhile (· ≠ '/')
  let rest := (cs.dropWhile (· ≠ '/')).drop 1
  let subtype := rest.takeWhile (· ≠ ';')
  let params := (rest.dropWhile (· ≠ ';')).drop 1
  let (main, suffix) := splitSuffix subtype
  cs.all (·.val < 128) && type.length < cs.length && isToken type && isToken subtype &&
    validParams .start params && lowered type == "application" &&
    (lowered main == "json" || suffix.any (lowered · == "json"))

end TickerWatch.Http
