import TickerWatch.Json.Decoder
import TickerWatch.Json.Skip

namespace TickerWatch.Json

def readItems {α σ : Type} (c : Cursor Unit σ) (d : Decoder α) :
    (fuel : Nat) → (first : Bool) → (index : Nat) → σ → Except ReadError (List α × σ)
  | 0, _, _, _ => fail .endOfList
  | fuel + 1, first, index, s => do
    let (key, s) ← lift (c.next first s)
    match key with
    | none => return ([], s)
    | some () =>
      let (a, s) ← c.read (.item index) d s
      let (as, s) ← readItems c d fuel false (index + 1) s
      return (a :: as, s)

def readList {α σ : Type} (d : Decoder α) (c : Cursor Unit σ) (s : σ) :
    Except ReadError (List α × σ) := do
  let (as, s) ← readItems c d (c.bound s) true 0 s
  return (as, ← lift (c.close s))

def list {α : Type} (d : Decoder α) : Decoder (List α) :=
  .ofShapes { Shapes.refusing "a sequence" with list := readList d }

/-- Reads the members of an object one by one into a state. A fault before a key lies in a member
that is not known yet, one between a key and its value in the object as a whole. -/
def readMembers {σ τ : Type} (c : Cursor String σ) (member : String → τ → Except Fault (Decoder τ)) :
    (fuel : Nat) → (first : Bool) → τ → σ → Except ReadError (τ × σ)
  | 0, _, _, _ => fail .endOfObject
  | fuel + 1, first, t, s => do
    let (key, s) ← within .unknown (lift (c.next first s))
    match key with
    | none => return (t, s)
    | some k =>
      let d ← lift (member k t)
      let (t, s) ← c.read (.member k) d s
      readMembers c member fuel false t s

def setEntry {α : Type} (key : String) (a : α) : List (String × α) → List (String × α)
  | [] => [(key, a)]
  | e :: rest => if e.1 = key then (key, a) :: rest else e :: setEntry key a rest

def appendEntry {α : Type} (key : String) (a : α) (entries : List (String × α)) :
    List (String × α) := entries ++ [(key, a)]

def readMapping {α σ : Type} (put : String → α → List (String × α) → List (String × α))
    (d : Decoder α) (c : Cursor String σ) (s : σ) : Except ReadError (List (String × α) × σ) := do
  let member (k : String) (entries : List (String × α)) : Except Fault (Decoder _) :=
    .ok (d.map fun a => put k a entries)
  let (entries, s) ← readMembers c member (c.bound s) true [] s
  return (entries, ← lift (c.close s))

def mapping {α : Type} (d : Decoder α) : Decoder (List (String × α)) :=
  .ofShapes { Shapes.refusing "a map" with object := readMapping setEntry d }

structure Absence (α : Type) where
  member : Option α := none
  item : Option α := none

def required {α : Type} : Absence α := {}

def byDefault {α : Type} (a : α) : Absence α := { member := some a, item := some a }

/-- In a list, a null has to hold the place of a value that is absent. -/
def nullable {α : Type} : Absence (Option α) := { member := some none }

inductive Fields : List Type → Type 1 where
  | nil : Fields []
  | cons {α : Type} {αs : List Type} (name : String) (decoder : Decoder α) (absence : Absence α)
      (rest : Fields αs) : Fields (α :: αs)

def Slots : List Type → Type
  | [] => Unit
  | α :: αs => Option α × Slots αs

def Row : List Type → Type
  | [] => Unit
  | α :: αs => α × Row αs

def ignored : Decoder Unit where
  text cs := lift ((skip cs).map fun rest => ((), rest))
  value _ := .ok ()

namespace Fields

variable {αs : List Type} {σ : Type}

def empty : {αs : List Type} → Fields αs → Slots αs
  | _, .nil => ()
  | _, .cons _ _ _ rest => (none, rest.empty)

def size : {αs : List Type} → Fields αs → Nat
  | _, .nil => 0
  | _, .cons _ _ _ rest => rest.size + 1

def slot? : {αs : List Type} → Fields αs → (key : String) → Slots αs →
    Option (Except Fault (Decoder (Slots αs)))
  | _, .nil, _, _ => none
  | _, .cons name d _ rest, key, (value, slots) =>
    if key = name then
      match value with
      | some _ => some (.error (.duplicateField name))
      | none => some (.ok (d.map fun a => (some a, slots)))
    else (rest.slot? key slots).map fun r => r.map fun d => d.map fun slots => (value, slots)

def names : {αs : List Type} → Fields αs → List String
  | _, .nil => []
  | _, .cons name _ _ rest => name :: rest.names

def member (strict : Bool) (fields : Fields αs) (key : String) (slots : Slots αs) :
    Except Fault (Decoder (Slots αs)) :=
  match fields.slot? key slots with
  | some r => r
  | none =>
    if strict then .error (.unknownField key fields.names) else .ok (ignored.map fun () => slots)

def complete : {αs : List Type} → Fields αs → Slots αs → Except Fault (Row αs)
  | _, .nil, _ => .ok ()
  | _, .cons name _ absence rest, (value, slots) =>
    match value <|> absence.member with
    | none => .error (.missingField name)
    | some a => (rest.complete slots).map fun row => (a, row)

def readItems (c : Cursor Unit σ) (record : String) (total : Nat) :
    {αs : List Type} → Fields αs → (first : Bool) → (index : Nat) → σ →
      Except ReadError (Row αs × σ)
  | _, .nil, _, _, s => .ok ((), s)
  | _, .cons _ d absence rest, first, index, s => do
    let (key, s) ← lift (c.next first s)
    match key, absence.item with
    | some (), _ =>
      let (a, s) ← c.read (.item index) d s
      let (row, s) ← rest.readItems c record total false (index + 1) s
      return ((a, row), s)
    | none, some a =>
      let (row, s) ← rest.readItems c record total first (index + 1) s
      return ((a, row), s)
    | none, none => fail (.wrongLength index record total)

def readList (record : String) (fields : Fields αs) (c : Cursor Unit σ) (s : σ) :
    Except ReadError (Row αs × σ) := do
  let (row, s) ← fields.readItems c record fields.size true 0 s
  return (row, ← lift (c.close s))

def readObject (strict : Bool) (fields : Fields αs) (c : Cursor String σ) (s : σ) :
    Except ReadError (Row αs × σ) := do
  let (slots, s) ← readMembers c (fields.member strict) (c.bound s) true fields.empty s
  let row ← lift (fields.complete slots)
  return (row, ← lift (c.close s))

end Fields

def recordWith {αs : List Type} (strict : Bool) (name : String) (fields : Fields αs) :
    Decoder (Row αs) :=
  .ofShapes
    { Shapes.refusing ("struct " ++ name) with
      list := fields.readList name
      object := fields.readObject strict }

def record {αs : List Type} (name : String) (fields : Fields αs) : Decoder (Row αs) :=
  recordWith false name fields

def strictRecord {αs : List Type} (name : String) (fields : Fields αs) : Decoder (Row αs) :=
  recordWith true name fields

end TickerWatch.Json
