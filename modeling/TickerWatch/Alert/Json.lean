import TickerWatch.Alert
import TickerWatch.RecordId.Json

namespace TickerWatch

open Json

def Alert.decoder : Decoder Alert :=
  (record "Alert"
    (.cons "_id" RecordId.decoder required
    (.cons "code" text required
    (.cons "name" text required
    (.cons "alert_type" text required
    (.cons "conditions" Rule.decoder required
    (.cons "is_active" flag required
    (.cons "sensitivity" real required
    (.cons "cooldown_hours" int32 required
    (.cons "post_trigger_action" (choice PostTrigger.known) required
    (.cons "enable_sound" flag required
    (.cons "enable_desktop" flag required
    (.cons "last_triggered_at" (optional int64) nullable
    (.cons "created_at" int64 required
    (.cons "updated_at" int64 required .nil))))))))))))))).map
  fun (id, code, name, alertType, rule, isActive, sensitivity, cooldownHours, postTrigger,
      enableSound, enableDesktop, lastTriggeredAt, createdAt, updatedAt, ()) =>
    { id, code, name, alertType, rule, isActive, sensitivity, cooldownHours, postTrigger,
      enableSound, enableDesktop, lastTriggeredAt, createdAt, updatedAt }

def Alert.ofJson (s : String) : Except ReadError Alert := readAll Alert.decoder s

def Alert.ofValue (v : Value) : Except ReadError Alert := Alert.decoder.value v

def orNull {α : Type} (f : α → Value) : Option α → Value
  | some a => f a
  | none => .null

def Alert.toValue (a : Alert) : Value :=
  .object
    [("_id", a.id.toValue), ("code", .text a.code), ("name", .text a.name),
      ("alert_type", .text a.alertType), ("conditions", a.rule.toValue),
      ("is_active", .flag a.isActive), ("sensitivity", .real a.sensitivity),
      ("cooldown_hours", .integer a.cooldownHours),
      ("post_trigger_action", .text a.postTrigger.name), ("enable_sound", .flag a.enableSound),
      ("enable_desktop", .flag a.enableDesktop),
      ("last_triggered_at", orNull .integer a.lastTriggeredAt),
      ("created_at", .integer a.createdAt), ("updated_at", .integer a.updatedAt)]

end TickerWatch
