import TickerWatch.Text.Blank
import TickerWatch.Text.Case

namespace TickerWatch

structure Quote where
  price : Float := 0
  openPrice : Float := 0
  high : Float := 0
  low : Float := 0
  preClose : Float := 0
  changePercent : Float := 0
  volume : Float := 0
  volumeRatio : Float := 0

structure Bar where
  time : Int := 0
  openPrice : Float := 0
  close : Float := 0
  high : Float := 0
  low : Float := 0
  volume : Float := 0

inductive Period where
  | daily
  | weekly
  | monthly
  deriving DecidableEq, Repr

namespace Period

def known : List (String × Period) :=
  [("daily", daily), ("d", daily), ("weekly", weekly), ("w", weekly), ("monthly", monthly),
    ("m", monthly)]

def ofName (s : String) : Except String Period :=
  let name := Text.lower (Text.trim s)
  match known.lookup name with
  | some p => .ok p
  | none => .error ("unknown bar period '" ++ name ++ "'")

end Period

end TickerWatch
