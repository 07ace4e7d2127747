import TickerWatch.Alert.Json
import TickerWatch.AlertError

namespace TickerWatch

structure Definition where
  code : String := ""
  name : String := ""
  alertType : String := ""
  conditions : String := ""
  sensitivity : Float := 0
  cooldownHours : Int := 0
  postTrigger : String := PostTrigger.keepActive.name
  enableSound : Bool := true
  enableDesktop : Bool := true

structure Checked where
  code : String
  name : String
  alertType : String
  rule : Rule
  postTrigger : PostTrigger

namespace Definition

def maxSensitivity : Float := 0.1

def maxCooldownHours : Int := 24

open Json in
def decoder : Decoder Definition :=
  (record "AlertInput"
    (.cons "code" text required
    (.cons "name" text required
    (.cons "alert_type" text required
    (.cons "conditions" text required
    (.cons "sensitivity" real (byDefault 0)
    (.cons "cooldown_hours" int32 (byDefault 0)
    (.cons "post_trigger_action" text (byDefault PostTrigger.keepActive.name)
    (.cons "enable_sound" flag (byDefault true)
    (.cons "enable_desktop" flag (byDefault true) .nil)))))))))).map
  fun (code, name, alertType, conditions, sensitivity, cooldownHours, postTrigger, enableSound,
      enableDesktop, ()) =>
    { code, name, alertType, conditions, sensitivity, cooldownHours, postTrigger, enableSound,
      enableDesktop }

def ofJson (s : String) : Except Json.ReadError Definition := Json.readAll decoder s

def readRule (d : Definition) : Except Flaw Rule :=
  match Rule.ofJson d.conditions with
  | .error e => .error (.malformedRule e)
  | .ok rule =>
    if rule.conditions.isEmpty then .error .noConditions
    else
      match rule.conditions.find? fun c => !c.value.isFinite with
      | some c => .error (.notFinite c.field)
      | none => .ok rule

def readPostTrigger (d : Definition) : Except Flaw PostTrigger :=
  (PostTrigger.ofName d.postTrigger).mapError .unknownPostTrigger

def allowedSensitivity (x : Float) : Bool := x.isFinite && 0 ≤ x && x ≤ maxSensitivity

def allowedCooldown (hours : Int) : Bool := 0 ≤ hours && hours ≤ maxCooldownHours

/-- The first flaw counts, in the order of the tests. -/
def check (d : Definition) : Except Flaw Checked :=
  let code := Text.upper (Text.trim d.code)
  let name := Text.trim d.name
  let alertType := Text.trim d.alertType
  if code.isEmpty then .error .blankCode
  else if name.isEmpty then .error .blankName
  else if alertType.isEmpty then .error .blankType
  else
    match d.readRule with
    | .error f => .error f
    | .ok rule =>
      if !allowedSensitivity d.sensitivity then .error .sensitivityRange
      else if !allowedCooldown d.cooldownHours then .error .cooldownRange
      else
        match d.readPostTrigger with
        | .error f => .error f
        | .ok postTrigger => .ok { code, name, alertType, rule, postTrigger }

end Definition

end TickerWatch
