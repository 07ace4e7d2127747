namespace TickerWatch.Extended

def base64Alphabet : List Char :=
  "ABCDEFGHIJKLMNOPQRSTUVWXYZabcdefghijklmnopqrstuvwxyz0123456789+/".toList

def base64Digit (n : Nat) : Char := base64Alphabet.getD n '='

def base64Value? (c : Char) : Option Nat := base64Alphabet.idxOf? c

def base64 : List Nat → List Char
  | a :: b :: c :: rest =>
    [a / 4, a % 4 * 16 + b / 16, b % 16 * 4 + c / 64, c % 64].map base64Digit ++ base64 rest
  | [a, b] => [a / 4, a % 4 * 16 + b / 16, b % 16 * 4].map base64Digit ++ ['=']
  | [a] => [a / 4, a % 4 * 16].map base64Digit ++ ['=', '=']
  | [] => []

def missingDigits (count : Nat) : Nat := (4 - count % 4) % 4

/-- The bits of the last digit that belong to no byte have to be zero. -/
def cleanEnd (values : List Nat) : Bool :=
  match values.length % 4, values.getLast? with
  | 0, _ => true
  | 2, some v => v % 16 == 0
  | 3, some v => v % 4 == 0
  | _, _ => false

def isBase64 (s : String) : Bool :=
  let digits := (s.toList.reverse.dropWhile (· = '=')).reverse
  s.length = digits.length + missingDigits digits.length &&
    (digits.mapM base64Value?).any cleanEnd

end TickerWatch.Extended
