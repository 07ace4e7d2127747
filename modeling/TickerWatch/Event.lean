import TickerWatch.Alert.Json

namespace TickerWatch

structure Notification where
  alertId : RecordId
  code : String
  name : String
  alertType : String
  triggerPrice : Float
  changePercent : Float
  message : String
  triggeredAt : Int
  enableSound : Bool
  enableDesktop : Bool

inductive Event where
  | triggered (n : Notification)
  | updated

open Json

def Notification.toValue (n : Notification) : Value :=
  .object
    [("alert_id", .text n.alertId.text), ("code", .text n.code), ("name", .text n.name),
      ("alert_type", .text n.alertType), ("trigger_price", .real n.triggerPrice),
      ("change_percent", .real n.changePercent), ("message", .text n.message),
      ("triggered_at", .integer n.triggeredAt), ("enable_sound", .flag n.enableSound),
      ("enable_desktop", .flag n.enableDesktop)]

def Event.name : Event → String
  | triggered _ => "alertTriggered"
  | updated => "alertsUpdated"

def Event.toValue (e : Event) : Value :=
  match e with
  | triggered n => .object [("type", .text e.name), ("data", n.toValue)]
  | updated => .object [("type", .text e.name)]

end TickerWatch
