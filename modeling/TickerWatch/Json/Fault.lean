import TickerWatch.Json.Value
import TickerWatch.Text.Citation

namespace TickerWatch.Json

inductive Found where
  | scalar (s : Scalar)
  | sequence
  | mapping
  | bytes

namespace Found

def text (s : String) : Found := .scalar (.text s)

def integer (n : Int) : Found := .scalar (.integer n)

end Found

def quoted (s : String) : String := "`" ++ s ++ "`"

def Scalar.message : Scalar → String
  | .null => "null"
  | .flag b => "boolean " ++ quoted (if b then "true" else "false")
  | .integer n => "integer " ++ quoted (toString n)
  | .real x => "floating point " ++ quoted (String.ofList ((Decimal.text? x).getD []))
  | .text s => "string " ++ Text.cited s

def Found.message : Found → String
  | .scalar s => s.message
  | .sequence => "sequence"
  | .mapping => "map"
  | .bytes => "byte array"

def alternatives : List String → String
  | [a] => quoted a
  | [a, b] => quoted a ++ " or " ++ quoted b
  | names => "one of " ++ ", ".intercalate (names.map quoted)

inductive Fault where
  | endOfValue
  | endOfObject
  | endOfList
  | endOfText
  | expectedValue
  | expectedWord
  | expectedColon
  | expectedCommaOrBrace
  | expectedCommaOrBracket
  | keyNotText
  | trailingComma
  | trailingCharacters
  | invalidNumber
  | numberOutOfRange
  | invalidEscape
  | unpairedSurrogate
  | unfinishedPair
  | controlCharacter
  | nestedTooDeep
  | missingField (name : String)
  | duplicateField (name : String)
  | unknownField (name : String) (allowed : List String)
  | wrongType (found : Found) (wanted : String)
  | wrongValue (found : Found) (wanted : String)
  | wrongLength (length : Nat) (record : String) (fields : Nat)
  | tooManyItems (length : Nat)
  | tooManyMembers (length : Nat)
  | unknownVariant (name : String) (allowed : List String)
  | noVariant (choice : String)
  | unsignedTooLarge (n : Nat)
  | notAnId (found : String)
  | notHexadecimal (c : Char) (index : Nat) (text : String)
  | wrongIdLength (text : String)
  | wrongByteCount

def Fault.message : Fault → String
  | .endOfValue => "EOF while parsing a value"
  | .endOfObject => "EOF while parsing an object"
  | .endOfList => "EOF while parsing a list"
  | .endOfText => "EOF while parsing a string"
  | .expectedValue => "expected value"
  | .expectedWord => "expected ident"
  | .expectedColon => "expected `:`"
  | .expectedCommaOrBrace => "expected `,` or `\x7d`"
  | .expectedCommaOrBracket => "expected `,` or `]`"
  | .keyNotText => "key must be a string"
  | .trailingComma => "trailing comma"
  | .trailingCharacters => "trailing characters"
  | .invalidNumber => "invalid number"
  | .numberOutOfRange => "number out of range"
  | .invalidEscape => "invalid escape"
  | .unpairedSurrogate => "lone leading surrogate in hex escape"
  | .unfinishedPair => "unexpected end of hex escape"
  | .controlCharacter => "control character (\\u0000-\\u001F) found while parsing a string"
  | .nestedTooDeep => "recursion limit exceeded"
  | .missingField name => "missing field " ++ quoted name
  | .duplicateField name => "duplicate field " ++ quoted name
  | .unknownField name allowed =>
    "unknown field " ++ quoted name ++ ", expected " ++ alternatives allowed
  | .wrongType found wanted => "invalid type: " ++ found.message ++ ", expected " ++ wanted
  | .wrongValue found wanted => "invalid value: " ++ found.message ++ ", expected " ++ wanted
  | .wrongLength length record fields =>
    "invalid length " ++ toString length ++ ", expected struct " ++ record ++ " with " ++
      toString fields ++ (if fields = 1 then " element" else " elements")
  | .tooManyItems length =>
    "invalid length " ++ toString length ++ ", expected fewer elements in array"
  | .tooManyMembers length =>
    "invalid length " ++ toString length ++ ", expected fewer elements in map"
  | .unknownVariant name allowed =>
    "unknown variant " ++ quoted name ++ ", expected " ++ alternatives allowed
  | .noVariant choice => "data did not match any variant of untagged enum " ++ choice
  | .unsignedTooLarge n => "cannot represent " ++ toString n ++ " as a signed number"
  | .notAnId found =>
    "expected map containing extended-JSON formatted ObjectId, instead found " ++ found
  | .notHexadecimal c index text =>
    "invalid character '" ++ c.toString ++ "' was found at index " ++ toString index ++
      " in the provided hex string: \"" ++ text ++ "\""
  | .wrongIdLength text =>
    "provided hex string representation must be exactly 12 bytes, instead got: \"" ++ text ++
      "\", length " ++ toString text.utf8ByteSize
  | .wrongByteCount => "could not convert slice to array"

def Fault.isMismatch : Fault → Bool
  | .missingField _ | .duplicateField _ | .unknownField .. | .wrongType .. | .wrongValue ..
  | .wrongLength .. | .tooManyItems _ | .tooManyMembers _ | .unknownVariant .. | .noVariant _
  | .unsignedTooLarge _ | .notAnId _ | .notHexadecimal .. | .wrongIdLength _
  | .wrongByteCount => true
  | _ => false

inductive Segment where
  | member (key : String)
  | item (index : Nat)
  | unknown
  deriving DecidableEq

def Segment.text : Segment → String
  | .member key => key
  | .item index => "[" ++ toString index ++ "]"
  | .unknown => "?"

def Segment.isItem : Segment → Bool
  | .item _ => true
  | _ => false

def pathText : List Segment → String
  | [] => ""
  | s :: rest =>
    s.text ++ String.join (rest.map fun r => if r.isItem then r.text else "." ++ r.text)

structure ReadError where
  fault : Fault
  path : List Segment := []

def ReadError.message (e : ReadError) : String := e.fault.message

def ReadError.located (e : ReadError) : String :=
  if e.path.all (· = .unknown) then e.message else pathText e.path ++ ": " ++ e.message

end TickerWatch.Json
