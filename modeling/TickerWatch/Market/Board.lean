import TickerWatch.Market.Provider

namespace TickerWatch

structure Board where
  quotes : List (String × Quote) := []
  bars : List (String × List Bar) := []
  delays : List (String × Nat) := []

namespace Board

def put {α : Type} (entries : List (String × α)) (code : String) (value : Option α) :
    List (String × α) :=
  entries.filter (·.1 != code) ++ (value.map fun v => (code, v)).toList

def lastOf {α : Type} (count : Nat) (xs : List α) : List α := xs.drop (xs.length - count)

def market (b : Board) (withHistory : Bool) : Market where
  quote code :=
    match b.quotes.lookup code with
    | some q => .ok q
    | none => .error ("quote for " ++ code ++ " timed out")
  bars :=
    if withHistory then
      some fun code count _ =>
        match b.bars.lookup code with
        | some bs => .ok (lastOf count bs)
        | none => .error ("no bars for " ++ code)
    else none
  delay code := (b.delays.lookup code).getD 0

end Board

end TickerWatch
