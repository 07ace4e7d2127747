import TickerWatch.Decimal.Text
import TickerWatch.Text.Hex

namespace TickerWatch.Json

inductive Value where
  | null
  | flag (b : Bool)
  | integer (n : Int)
  | real (x : Float)
  | text (s : String)
  | list (items : List Value)
  | object (members : List (String × Value))

inductive Scalar where
  | null
  | flag (b : Bool)
  | integer (n : Int)
  | real (x : Float)
  | text (s : String)

def Scalar.toValue : Scalar → Value
  | .null => .null
  | .flag b => .flag b
  | .integer n => .integer n
  | .real x => .real x
  | .text s => .text s

def escape (c : Char) : List Char :=
  match c with
  | '"' => ['\\', '"']
  | '\\' => ['\\', '\\']
  | '\n' => ['\\', 'n']
  | '\r' => ['\\', 'r']
  | '\t' => ['\\', 't']
  | '\x08' => ['\\', 'b']
  | '\x0c' => ['\\', 'f']
  | c => if c.val < 32 then '\\' :: 'u' :: Text.hexPadded 4 c.toNat else [c]

def writeText (s : String) : List Char := '"' :: s.toList.flatMap escape ++ ['"']

def writeInt (n : Int) : List Char :=
  if n < 0 then '-' :: Nat.toDigits 10 n.natAbs else Nat.toDigits 10 n.natAbs

def writeNull : List Char := ['n', 'u', 'l', 'l']

def writeReal (x : Float) : List Char := (Decimal.text? x).getD writeNull

def writeFlag (b : Bool) : List Char :=
  if b then ['t', 'r', 'u', 'e'] else ['f', 'a', 'l', 's', 'e']

mutual

def Value.write : Value → List Char
  | .null => writeNull
  | .flag b => writeFlag b
  | .integer n => writeInt n
  | .real x => writeReal x
  | .text s => writeText s
  | .list [] => ['[', ']']
  | .list (v :: vs) => '[' :: v.write ++ Value.writeItems vs
  | .object [] => ['{', '}']
  | .object (m :: ms) => '{' :: writeText m.1 ++ ':' :: m.2.write ++ Value.writeMembers ms

def Value.writeItems : List Value → List Char
  | [] => [']']
  | v :: vs => ',' :: v.write ++ Value.writeItems vs

def Value.writeMembers : List (String × Value) → List Char
  | [] => ['}']
  | m :: ms => ',' :: writeText m.1 ++ ':' :: m.2.write ++ Value.writeMembers ms

end

def Value.render (v : Value) : String := String.ofList v.write

end TickerWatch.Json
