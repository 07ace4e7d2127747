import TickerWatch.Text.Blank
import TickerWatch.Text.Case

namespace TickerWatch

/-- A name that is not known is kept as it was written, here and below. -/
inductive Field where
  | priceChangePercent
  | closePrice
  | openPrice
  | highPrice
  | lowPrice
  | preClosePrice
  | volume
  | volumeRatio
  | ma5
  | ma10
  | ma20
  | unknown (name : String)
  deriving DecidableEq, Repr

namespace Field

def name : Field → String
  | priceChangePercent => "price_change_percent"
  | closePrice => "close_price"
  | openPrice => "open_price"
  | highPrice => "high_price"
  | lowPrice => "low_price"
  | preClosePrice => "pre_close_price"
  | volume => "volume"
  | volumeRatio => "volume_ratio"
  | ma5 => "ma5"
  | ma10 => "ma10"
  | ma20 => "ma20"
  | unknown name => name

def known : List (String × Field) :=
  [
    ("price_change_percent", priceChangePercent), ("change_percent", priceChangePercent),
    ("close_price", closePrice), ("price", closePrice), ("open_price", openPrice),
    ("high_price", highPrice), ("low_price", lowPrice), ("pre_close_price", preClosePrice),
    ("volume", volume), ("volume_ratio", volumeRatio), ("ma5", ma5), ("ma10", ma10),
    ("ma20", ma20)
  ]

def ofName (s : String) : Field := (known.lookup (Text.lower (Text.trim s))).getD (unknown s)

end Field

inductive Operator where
  | gt
  | gte
  | lt
  | lte
  | eq
  | ne
  | unknown (symbol : String)
  deriving DecidableEq, Repr

namespace Operator

def symbol : Operator → String
  | gt => ">"
  | gte => ">="
  | lt => "<"
  | lte => "<="
  | eq => "=="
  | ne => "!="
  | unknown symbol => symbol

def known : List (String × Operator) :=
  [(">", gt), (">=", gte), ("<", lt), ("<=", lte), ("==", eq), ("!=", ne)]

def ofSymbol (s : String) : Operator := (known.lookup (Text.trim s)).getD (unknown s)

end Operator

inductive Reference where
  | historicalHigh
  | historicalLow
  | ma20
  | unknown (name : String)
  deriving DecidableEq, Repr

namespace Reference

def name : Reference → String
  | historicalHigh => "historical_high"
  | historicalLow => "historical_low"
  | ma20 => "ma20"
  | unknown name => name

def known : List (String × Reference) :=
  [("historical_high", historicalHigh), ("historical_low", historicalLow), ("ma20", ma20)]

def ofName (s : String) : Reference := (known.lookup (Text.lower (Text.trim s))).getD (unknown s)

end Reference

structure Condition where
  field : Field
  operator : Operator
  value : Float
  reference : Option Reference := none
  deriving BEq

inductive Logic where
  | all
  | any
  deriving DecidableEq, Repr

structure Rule where
  logic : Logic := .all
  conditions : List Condition := []
  deriving BEq

end TickerWatch
