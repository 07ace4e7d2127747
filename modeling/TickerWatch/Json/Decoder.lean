import TickerWatch.Json.Token

namespace TickerWatch.Json

abbrev Reader (α : Type) := List Char → Except ReadError (α × List Char)

structure Decoder (α : Type) where
  text : Reader α
  value : Value → Except ReadError α

def fail {α : Type} (f : Fault) : Except ReadError α := .error { fault := f }

def lift {α : Type} : Except Fault α → Except ReadError α := Except.mapError fun f => { fault := f }

def within {α : Type} (s : Segment) : Except ReadError α → Except ReadError α :=
  Except.mapError fun e => { e with path := s :: e.path }

/-- A way through the items of a list, which have no keys, or through the members of an object.
`bound` is more than the number of parts. -/
structure Cursor (κ σ : Type) where
  next : (first : Bool) → σ → Except Fault (Option κ × σ)
  read : {α : Type} → Segment → Decoder α → σ → Except ReadError (α × σ)
  close : σ → Except Fault σ
  bound : σ → Nat

def textItems : Cursor Unit (List Char) where
  next := nextItem
  read s d cs := within s (d.text cs)
  close := endList
  bound cs := cs.length + 1

def textMembers : Cursor String (List Char) where
  next := nextKey
  read s d cs := do
    let cs ← lift (colon cs)
    within s (d.text cs)
  close := endObject
  bound cs := cs.length + 1

def valueItems (total : Nat) : Cursor Unit (List Value) where
  next _ vs := .ok (if vs.isEmpty then none else some (), vs)
  read s d
    | [] => fail .endOfList
    | v :: vs => (within s (d.value v)).map fun a => (a, vs)
  close vs := if vs.isEmpty then .ok vs else .error (.tooManyItems total)
  bound vs := vs.length + 1

def valueMembers (total : Nat) : Cursor String (List (String × Value)) where
  next _ ms := .ok (ms.head?.map Prod.fst, ms)
  read s d
    | [] => fail .endOfObject
    | m :: ms => (within s (d.value m.2)).map fun a => (a, ms)
  close ms := if ms.isEmpty then .ok ms else .error (.tooManyMembers total)
  bound ms := ms.length + 1

structure Shapes (α : Type) where
  list : {σ : Type} → Cursor Unit σ → σ → Except ReadError (α × σ)
  object : {σ : Type} → Cursor String σ → σ → Except ReadError (α × σ)
  scalar : Scalar → Except Fault α

def Shapes.refusing {α : Type} (wanted : String) : Shapes α where
  list _ _ := fail (.wrongType .sequence wanted)
  object _ _ := fail (.wrongType .mapping wanted)
  scalar s := .error (.wrongType (.scalar s) wanted)

def Shapes.atBottom {α : Type} (scalar : Scalar → Except Fault α) : Shapes α where
  list _ _ := fail .nestedTooDeep
  object _ _ := fail .nestedTooDeep
  scalar := scalar

namespace Decoder

variable {α β : Type}

def ofShapes (s : Shapes α) : Decoder α where
  text cs :=
    match skipSpace cs with
    | '[' :: rest => s.list textItems rest
    | '\x7b' :: rest => s.object textMembers rest
    | cs => do
      let (found, rest) ← lift (readScalar cs)
      return (← lift (s.scalar found), rest)
  value
    | .list vs => (s.list (valueItems vs.length) vs).map Prod.fst
    | .object ms => (s.object (valueMembers ms.length) ms).map Prod.fst
    | .null => lift (s.scalar .null)
    | .flag b => lift (s.scalar (.flag b))
    | .integer n => lift (s.scalar (.integer n))
    | .real x => lift (s.scalar (.real x))
    | .text t => lift (s.scalar (.text t))

def map (f : α → β) (d : Decoder α) : Decoder β where
  text cs := (d.text cs).map fun (a, rest) => (f a, rest)
  value v := (d.value v).map f

def check (d : Decoder α) (f : α → Except Fault β) : Decoder β where
  text cs := do
    let (a, rest) ← d.text cs
    return (← lift (f a), rest)
  value v := do lift (f (← d.value v))

def refusing (wanted : String) : Decoder α := .ofShapes (.refusing wanted)

def leaf (wanted : String) (f : Scalar → Option α) : Decoder α :=
  .ofShapes
    { Shapes.refusing wanted with
      scalar := fun s =>
        match f s with
        | some a => .ok a
        | none => .error (.wrongType (.scalar s) wanted) }

def objectOnly (wanted : String) (d : Decoder α) : Decoder α where
  text cs :=
    match skipSpace cs with
    | '\x7b' :: rest => d.text ('\x7b' :: rest)
    | cs => (refusing wanted).text cs
  value
    | .object ms => d.value (.object ms)
    | v => (refusing wanted).value v

def nested (depth : Nat) (d : Decoder α) : Decoder α where
  text cs :=
    match depth, skipSpace cs with
    | 0, '[' :: _ => fail .nestedTooDeep
    | 0, '\x7b' :: _ => fail .nestedTooDeep
    | _, cs => d.text cs
  value := d.value

end Decoder

def textAs (wanted : String) : Decoder String :=
  .leaf wanted fun
    | .text s => some s
    | _ => none

def text : Decoder String := textAs "a string"

def flag : Decoder Bool :=
  .leaf "a boolean" fun
    | .flag b => some b
    | _ => none

def unit : Decoder Unit :=
  .leaf "unit" fun
    | .null => some ()
    | _ => none

def real : Decoder Float :=
  .leaf "f64" fun
    | .integer n => some (.ofInt n)
    | .real x => some x
    | _ => none

def integer (wanted : String) (least greatest : Int) : Decoder Int :=
  (Decoder.leaf wanted fun
    | .integer n => some n
    | _ => none).check fun n =>
      if least ≤ n ∧ n ≤ greatest then .ok n else .error (.wrongValue (.integer n) wanted)

def nat8 : Decoder Nat := (integer "u8" 0 255).map Int.toNat

def nat32 : Decoder Nat := (integer "u32" 0 4294967295).map Int.toNat

def int32 : Decoder Int := integer "i32" (-2147483648) 2147483647

def int64 : Decoder Int := integer "i64" (-9223372036854775808) 9223372036854775807

def nat64 : Decoder Nat := (integer "u64" 0 18446744073709551615).map Int.toNat

def optional {α : Type} (d : Decoder α) : Decoder (Option α) where
  text cs :=
    match skipSpace cs with
    | 'n' :: rest => (unit.text ('n' :: rest)).map fun (_, rest) => (none, rest)
    | cs => (d.map some).text cs
  value
    | .null => .ok none
    | v => (d.value v).map some

def lookUp {α : Type} (names : List (String × α)) (s : String) : Except Fault α :=
  match names.find? (·.1 == s) with
  | some (_, a) => .ok a
  | none => .error (.unknownVariant s (names.map Prod.fst))

def soleKey {α : Type} (names : List (String × α)) : Reader α := fun cs => do
  let (s, rest) ← lift (onlyKey cs)
  let a ← lift (lookUp names s)
  let rest ← lift (colon rest)
  let (_, rest) ← unit.text rest
  match skipSpace rest with
  | '\x7d' :: rest => return (a, rest)
  | [] => fail .endOfObject
  | _ => fail .expectedValue

def choice {α : Type} (names : List (String × α)) : Decoder α where
  text cs :=
    match skipSpace cs with
    | [] => fail .endOfValue
    | '"' :: rest => (text.check (lookUp names)).text ('"' :: rest)
    | '\x7b' :: rest => soleKey names rest
    | _ => fail .expectedValue
  value
    | .object [m] => do
      let a ← lift (lookUp names m.1)
      unit.value m.2
      return a
    | .object _ => fail (.wrongValue .mapping "map with a single key")
    | v => ((textAs "string or map").check (lookUp names)).value v

def readAll {α : Type} (d : Decoder α) (s : String) : Except ReadError α :=
  match d.text s.toList with
  | .error e => .error e
  | .ok (a, rest) => if (skipSpace rest).isEmpty then .ok a else fail .trailingCharacters

/-- A text that begins with one value; what follows it is not looked at. -/
def readFront {α : Type} (d : Decoder α) (s : String) : Except ReadError α :=
  (d.text s.toList).map Prod.fst

end TickerWatch.Json
