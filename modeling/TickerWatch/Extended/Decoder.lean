import TickerWatch.Decimal.Nearest
import TickerWatch.Extended.Base64
import TickerWatch.Extended.Date
import TickerWatch.Extended.LongDecimal
import TickerWatch.Extended.Uuid
import TickerWatch.Json.AnyValue
import TickerWatch.Json.Bytes
import TickerWatch.RecordId

namespace TickerWatch.Extended

open Json

inductive Item where
  | id (id : RecordId)
  | document (text : String)
  | plain (text : String)

def Item.text : Item → String
  | .id i => "ObjectId(\"" ++ i.text ++ "\")"
  | .document text => text
  | .plain text => text

def idText : String := "24-character, big-endian hex string"

def idOfText (s : String) : Except Fault RecordId :=
  match RecordId.ofText? s with
  | some id => .ok id
  | none => .error (.wrongValue (.text s) idText)

def wholeNumber (least greatest : Int) (wanted s : String) : Except Fault Int :=
  (Text.readInteger least greatest s).mapError fun _ => .wrongValue (.text s) wanted

def long (wanted s : String) : Except Fault Int :=
  wholeNumber (-9223372036854775808) 9223372036854775807 wanted s

def plainInt (n : Int) : Item := .plain (toString n)

def double (s : String) : Except Fault Item :=
  match Decimal.ofText? s with
  | some x => .ok (.plain (Decimal.plainText x))
  | none => .error (.wrongValue (.text s) "64-bit signed integer as a string")

def decimal (s : String) : Except Fault Item :=
  match LongDecimal.ofText? s with
  | some d => .ok (.plain d.text)
  | none => .error (.wrongValue (.text s) "decimal128 as a string")

def decimalOfBytes (bytes : List Nat) : Except Fault Item :=
  match LongDecimal.ofBytes? bytes with
  | some d => .ok (.plain d.text)
  | none => .error .wrongByteCount

def binaryItem (kind : Nat) (digits : String) : Item :=
  .plain ("Binary(0x" ++ String.ofList (Nat.toDigits 16 kind) ++ ", " ++ digits ++ ")")

def binary : Decoder Item :=
  (strictRecord "BinaryBody"
    (.cons "base64" text required (.cons "subType" text required .nil))).check
  fun (digits, kind, ()) =>
    if isBase64 digits then
      match Text.hexBytes? kind.toList with
      | none => .error (.wrongValue (.text kind) "hexadecimal number as a string")
      | some [kind] => .ok (binaryItem kind digits)
      | some _ => .error (.wrongValue .bytes "one byte subtype")
    else .error (.wrongValue (.text digits) "base64 encoded bytes")

def uuid (s : String) : Except Fault Item :=
  match readUuid? s with
  | some bytes => .ok (binaryItem 4 (String.ofList (base64 bytes)))
  | none =>
    .error (.wrongValue (.text s)
      "$uuid value does not follow RFC 4122 format regarding length and hyphens")

def timestamp : Decoder Item :=
  (strictRecord "TimestampBody" (.cons "t" nat32 required (.cons "i" nat32 required .nil))).map
  fun (t, i, ()) => .plain ("Timestamp(" ++ toString t ++ ", " ++ toString i ++ ")")

def regularExpression : Decoder Item :=
  (strictRecord "RegexBody"
    (.cons "pattern" text required (.cons "options" text required .nil))).map
  fun (pattern, options, ()) =>
    let sorted := String.ofList (options.toList.mergeSort fun a b => a.val ≤ b.val)
    .plain ("/" ++ pattern ++ "/" ++ sorted)

def strayByte? (s : String) : Option (Char × Nat) :=
  (s.toUTF8.toList.map fun b => Char.ofNat b.toNat).zipIdx.find? fun (c, _) =>
    (Text.hexDigit? c).isNone

def idOfDigits (s : String) : Except Fault RecordId :=
  if s.utf8ByteSize % 2 = 1 then .error (.wrongIdLength s)
  else
    match strayByte? s, RecordId.ofText? s with
    | some (c, index), _ => .error (.notHexadecimal c index s)
    | none, some id => .ok id
    | none, none => .error (.wrongIdLength s)

def pointer (depth : Nat) : Decoder Item :=
  (strictRecord "DbPointerBody"
    (.cons "$ref" text required
    (.cons "$id"
      (Decoder.nested (depth - 1) (strictRecord "ObjectId" (.cons "$oid" text required .nil)))
      required .nil))).check
  fun (target, (id, ()), ()) =>
    (idOfDigits id).map fun id => .plain ("DbPointer(" ++ target ++ ", " ++ id.text ++ ")")

def dateItem (millis : Int) : Item := .plain ("DateTime(\"" ++ timeText millis ++ "\")")

def dateOf : Value → Except Fault Item
  | .object [("$numberLong", .text s)] => (long "i64 as a string" s).map dateItem
  | .list [.text s] => (long "i64 as a string" s).map dateItem
  | .text s =>
    match millisOfText? s with
    | some millis => .ok (dateItem millis)
    | none => .error (.wrongValue (.text s) "rfc3339 formatted utc datetime")
  | .integer n =>
    if n ≤ Int64.maxValue.toInt then .ok (dateItem n) else .error (.noVariant "DateTimeBody")
  | _ => .error (.noVariant "DateTimeBody")

def onlyOne (name shown : String) (n : Nat) : Except Fault Item :=
  if n = 1 then .ok (.plain shown)
  else .error (.wrongValue (.integer n) ("value of " ++ name ++ " should always be 1"))

def undefined (b : Bool) : Except Fault Item :=
  if b then .ok (.plain "undefined")
  else .error (.wrongValue (.scalar (.flag false)) "$undefined should always be true")

/-- The keys that announce a type, with decoders of what follows. `depth` is how many lists and
objects may still be opened. -/
def typed (depth : Nat) : List (String × Decoder Item) :=
  let nested (d : Decoder Item) : Decoder Item := d.nested depth
  [
    ("$oid", (((textAs "hexstring or byte array").check idOfText).map .id).nested depth),
    ("$symbol", text.map fun s => .plain ("Symbol(\"" ++ s ++ "\")")),
    ("$numberInt",
      (text.check (wholeNumber (-2147483648) 2147483647 "32-bit signed integer as a string")).map
        plainInt),
    ("$numberLong", (text.check (long "64-bit signed integer as a string")).map plainInt),
    ("$numberDouble", text.check double), ("$numberDecimal", text.check decimal),
    ("$numberDecimalBytes", nested (bytes.check decimalOfBytes)), ("$binary", nested binary),
    ("$uuid", text.check uuid), ("$timestamp", nested timestamp),
    ("$regularExpression", nested regularExpression), ("$dbPointer", nested (pointer depth)),
    ("$date", (anyValue appendEntry depth).check dateOf),
    ("$minKey", nat8.check (onlyOne "$minKey" "MinKey")),
    ("$maxKey", nat8.check (onlyOne "$maxKey" "MaxKey")), ("$undefined", flag.check undefined)
  ]

def codeKey : String := "$code"

def scopeKey : String := "$scope"

def documentOnly : Item → Except Fault Unit
  | .document _ => .ok ()
  | item =>
    .error (.wrongType .mapping
      ("expected document, found extended JSON data type: " ++ item.text))

def scope (inner : Decoder Item) : Decoder Unit :=
  Decoder.objectOnly "a Bson" (inner.check documentOnly)

section

variable {α σ : Type}

def otherPart (key : String) (d : Decoder α) (c : Cursor String σ) (s : σ) :
    Except ReadError (Option α × σ) := do
  let (next, s) ← lift (c.next false s)
  match next with
  | none => return (none, s)
  | some k =>
    if k = key then c.read (.member k) (d.map some) s else fail (.unknownField k [key])

def program (inner : Decoder Item) (c : Cursor String σ) (s : σ) : Except ReadError (Item × σ) := do
  let (code, s) ← c.read (.member codeKey) text s
  let (_, s) ← otherPart scopeKey (scope inner) c s
  return (.plain code, s)

def scopedProgram (inner : Decoder Item) (c : Cursor String σ) (s : σ) :
    Except ReadError (Item × σ) := do
  let ((), s) ← c.read (.member scopeKey) (scope inner) s
  match ← otherPart codeKey text c s with
  | (some code, s) => return (.plain code, s)
  | (none, _) => fail (.missingField codeKey)

def documentText : List (String × Item) → String
  | [] => "\x7b\x7d"
  | entries =>
    "\x7b " ++ ", ".intercalate (entries.map fun (k, item) => "\"" ++ k ++ "\": " ++ item.text) ++
      " \x7d"

def readMembers (depth : Nat) (inner : Decoder Item) (c : Cursor String σ) :
    (fuel : Nat) → (first : Bool) → List (String × Item) → σ → Except ReadError (Item × σ)
  | 0, _, _, _ => fail .endOfObject
  | fuel + 1, first, entries, s => do
    let (key, s) ← lift (c.next first s)
    match key with
    | none => return (.document (documentText entries), s)
    | some k =>
      if k = codeKey then program inner c s
      else if k = scopeKey then scopedProgram inner c s
      else
        match (typed depth).lookup k with
        | some d => c.read (.member k) d s
        | none =>
          let (item, s) ← c.read (.member k) inner s
          readMembers depth inner c fuel false (setEntry k item entries) s

/-- What is made of the item has to be right before the end of the object is looked at. -/
def readObject (depth : Nat) (inner : Decoder Item) (f : Item → Except Fault α)
    (c : Cursor String σ) (s : σ) : Except ReadError (α × σ) := do
  let (item, s) ← readMembers depth inner c (c.bound s) true [] s
  let a ← lift (f item)
  return (a, ← lift (c.close s))

end

def ofScalar : Scalar → Except Fault Item
  | .null => .ok (.plain "null")
  | .flag b => .ok (.plain (if b then "true" else "false"))
  | .integer n =>
    if n ≤ Int64.maxValue.toInt then .ok (plainInt n) else .error (.unsignedTooLarge n.toNat)
  | .real x => .ok (.plain (Decimal.plainText x))
  | .text s => .ok (.plain ("\"" ++ s ++ "\""))

def listText (items : List Item) : String := "[" ++ ", ".intercalate (items.map Item.text) ++ "]"

def item : (depth : Nat) → Decoder Item
  | 0 => .ofShapes (.atBottom ofScalar)
  | depth + 1 =>
    .ofShapes
      { list := fun c s =>
          (readList (item depth) c s).map fun (items, s) => (.plain (listText items), s)
        object := readObject depth (item depth) .ok
        scalar := ofScalar }

end TickerWatch.Extended
