import TickerWatch.Condition
import TickerWatch.Json.Compound

namespace TickerWatch

open Json

def Condition.decoder : Decoder Condition :=
  (record "Condition"
    (.cons "field" text required
    (.cons "operator" text required
    (.cons "value" real required
    (.cons "reference" (optional text) (byDefault none) .nil))))).map
  fun (field, operator, value, reference, ()) =>
    { field := .ofName field
      operator := .ofSymbol operator
      value := value
      reference := reference.map Reference.ofName }

def Logic.names : List (String × Logic) :=
  [("AND", .all), ("and", .all), ("OR", .any), ("or", .any)]

def Rule.decoder : Decoder Rule :=
  (record "ConditionGroup"
    (.cons "logic" (choice Logic.names) (byDefault .all)
    (.cons "conditions" (list Condition.decoder) (byDefault []) .nil))).map
  fun (logic, conditions, ()) => { logic := logic, conditions := conditions }

def Rule.ofJson (s : String) : Except ReadError Rule := readAll Rule.decoder s

def Logic.name : Logic → String
  | .all => "AND"
  | .any => "OR"

def Condition.toValue (c : Condition) : Value :=
  .object <|
    [("field", .text c.field.name), ("operator", .text c.operator.symbol),
      ("value", .real c.value)] ++
    (c.reference.map fun r => ("reference", .text r.name)).toList

def Rule.toValue (r : Rule) : Value :=
  .object [("logic", .text r.logic.name), ("conditions", .list (r.conditions.map Condition.toValue))]

def Rule.toJson (r : Rule) : String := r.toValue.render

end TickerWatch
