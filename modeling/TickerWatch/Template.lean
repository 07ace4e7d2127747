import TickerWatch.Decimal.Binary
import TickerWatch.Definition

namespace TickerWatch

structure Template where
  id : String
  name : String
  description : String
  alertType : String
  rule : Rule

open Json in
def Template.toValue (t : Template) : Value :=
  .object
    [("_id", .text t.id), ("name", .text t.name), ("description", .text t.description),
      ("alert_type", .text t.alertType), ("conditions", t.rule.toValue)]

namespace Template

def builtin : List Template :=
  [
    { id := "price_surge"
      name := "Price surge"
      description := "Daily change rises above a percentage."
      alertType := "price_change"
      rule := { conditions := [⟨.priceChangePercent, .gt, 5, none⟩] } },
    { id := "price_drop"
      name := "Price drop"
      description := "Daily change falls below a negative percentage."
      alertType := "price_change"
      rule := { conditions := [⟨.priceChangePercent, .lt, -5, none⟩] } },
    { id := "breakout_high"
      name := "Breakout above historical high"
      description := "Intraday high reaches the lookback-window high."
      alertType := "breakout"
      rule := { conditions := [⟨.highPrice, .gt, 0, some .historicalHigh⟩] } },
    { id := "breakdown_low"
      name := "Breakdown below historical low"
      description := "Intraday low reaches the lookback-window low."
      alertType := "breakout"
      rule := { conditions := [⟨.lowPrice, .lt, 0, some .historicalLow⟩] } },
    { id := "volume_spike"
      name := "Volume spike"
      description := "Volume ratio jumps while price is up."
      alertType := "volume"
      rule :=
        { conditions := [⟨.volumeRatio, .gt, 2, none⟩, ⟨.priceChangePercent, .gt, 0, none⟩] } },
    { id := "ma_golden_cross"
      name := "MA5 / MA20 golden cross"
      description := "MA5 climbs to within the sensitivity band of MA20."
      alertType := "ma_cross"
      rule := { conditions := [⟨.ma5, .gte, 0, some .ma20⟩] } }
  ]

end Template

abbrev Params := List (String × Float)

namespace Params

def valueKey : String := "value"

def sensitivityKey : String := "sensitivity"

def cooldownKey : String := "cooldown_hours"

def defaultSensitivity : Float := 0.001

def defaultCooldownHours : Int := 1

/-- The parameter for every condition wins over the one for conditions on this field. -/
def valueOf (params : Params) (c : Condition) : Float :=
  ((params.lookup valueKey) <|> (params.lookup c.field.name)).getD c.value

def applyTo (params : Params) (r : Rule) : Rule :=
  { r with conditions := r.conditions.map fun c => { c with value := params.valueOf c } }

def clampInt32 (n : Int) : Int := max (-2147483648) (min n 2147483647)

def cooldownHours (params : Params) : Except Flaw Int :=
  match params.lookup cooldownKey with
  | none => .ok defaultCooldownHours
  | some x =>
    match Decimal.whole? x with
    | some n => .ok (clampInt32 n)
    | none => .error .cooldownNotWhole

def sensitivity (params : Params) : Float := (params.lookup sensitivityKey).getD defaultSensitivity

end Params

def Template.define (t : Template) (code name : String) (params : Params) : Except Flaw Definition :=
  params.cooldownHours.map fun cooldownHours =>
    { code
      name
      alertType := t.alertType
      conditions := (params.applyTo t.rule).toJson
      sensitivity := params.sensitivity
      cooldownHours }

end TickerWatch
