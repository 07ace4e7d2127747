import TickerWatch.Event

namespace TickerWatch

structure HistoryEntry where
  id : RecordId
  alertId : RecordId
  code : String
  name : String
  alertType : String
  triggerPrice : Float
  message : String
  triggeredAt : Int

open Json in
def HistoryEntry.toValue (h : HistoryEntry) : Value :=
  .object
    [("_id", h.id.toValue), ("alert_id", h.alertId.toValue), ("code", .text h.code),
      ("name", .text h.name), ("alert_type", .text h.alertType),
      ("trigger_price", .real h.triggerPrice), ("message", .text h.message),
      ("triggered_at", .integer h.triggeredAt)]

end TickerWatch
