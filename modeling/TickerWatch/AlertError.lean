import TickerWatch.Condition
import TickerWatch.Json.Fault
import TickerWatch.PostTrigger
import TickerWatch.RecordId

namespace TickerWatch

inductive Flaw where
  | blankCode
  | blankName
  | blankType
  | malformedRule (e : Json.ReadError)
  | noConditions
  | notFinite (field : Field)
  | sensitivityRange
  | cooldownRange
  | cooldownNotWhole
  | unknownPostTrigger (name : String)

def Flaw.message : Flaw → String
  | blankCode => "code must not be empty"
  | blankName => "name must not be empty"
  | blankType => "alert type must not be empty"
  | malformedRule e => "malformed conditions: " ++ e.message
  | noConditions => "at least one condition is required"
  | notFinite field => "condition on " ++ field.name ++ " has a non-finite value"
  | sensitivityRange => "sensitivity must be within [0, 0.1]"
  | cooldownRange => "cooldown hours must be within [0, 24]"
  | cooldownNotWhole => "cooldown hours must be a whole number"
  | unknownPostTrigger name => unknownAction name

inductive AlertError where
  | invalid (flaw : Flaw)
  | noAlert (id : RecordId)
  | noTemplate (id : String)
  | repository (reason : String)
  | dataUnavailable (reason : String)
  | zeroInterval

def AlertError.message : AlertError → String
  | invalid flaw => "invalid alert: " ++ flaw.message
  | noAlert id => "not found: alert " ++ id.text
  | noTemplate id => "not found: template " ++ id
  | repository reason => "repository error: " ++ reason
  | dataUnavailable reason => "market data unavailable: " ++ reason
  | zeroInterval => "monitor config error: check interval must be positive"

end TickerWatch
