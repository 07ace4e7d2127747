import TickerWatch.Text.Hex

namespace TickerWatch.Extended

def uuidGroups : List Nat := [8, 4, 4, 4, 12]

def uuidDigits : Nat := 32

def uuidScheme : List Char := "urn:uuid:".toList

def unwrapped (cs : List Char) : List Char :=
  if cs.head? = some '\x7b' && cs.getLast? = some '\x7d' then (cs.drop 1).dropLast
  else if (cs.take uuidScheme.length).map Char.toLower = uuidScheme then cs.drop uuidScheme.length
  else cs

def readUuid? (s : String) : Option (List Nat) :=
  let cs := s.toList
  if cs.length = uuidDigits then Text.hexBytes? cs
  else
    let groups := (unwrapped cs).splitOn '-'
    if groups.map List.length = uuidGroups then Text.hexBytes? groups.flatten else none

end TickerWatch.Extended
