import TickerWatch.Http.Message

namespace TickerWatch.Http

inductive Route where
  | health
  | alerts
  | alert (id : String)
  | alertToggle (id : String)
  | alertHistory (id : String)
  | history
  | templates
  | instantiation (template : String)
  | monitorStatus
  | monitorStart
  | monitorStop
  | monitorInterval
  | stockCheck (code : String)
  | events
  deriving DecidableEq, Repr

def Route.ofParts? : List String → Option Route
  | ["health"] => some .health
  | ["alerts"] => some .alerts
  | ["alerts", id] => if id.isEmpty then none else some (.alert id)
  | ["alerts", id, "toggle"] => some (.alertToggle id)
  | ["alerts", id, "history"] => some (.alertHistory id)
  | ["history"] => some .history
  | ["templates"] => some .templates
  | ["templates", id, "instantiate"] => some (.instantiation id)
  | ["monitor", "status"] => some .monitorStatus
  | ["monitor", "start"] => some .monitorStart
  | ["monitor", "stop"] => some .monitorStop
  | ["monitor", "interval"] => some .monitorInterval
  | ["stocks", code, "check"] => some (.stockCheck code)
  | ["events"] => some .events
  | _ => none

def Route.ofPath? (path : String) : Option Route :=
  match path.splitOn "/" with
  | "" :: parts => ofParts? parts
  | _ => none

inductive Action where
  | health
  | listAlerts
  | createAlert
  | getAlert (id : String)
  | updateAlert (id : String)
  | deleteAlert (id : String)
  | toggleAlert (id : String)
  | alertHistory (id : String)
  | history
  | templates
  | instantiate (template : String)
  | status
  | start
  | stop
  | setInterval
  | checkStock (code : String)
  | openEvents

def Route.action? : Route → Method → Option Action
  | health, .get => some .health
  | alerts, .get => some .listAlerts
  | alerts, .post => some .createAlert
  | alert id, .get => some (.getAlert id)
  | alert id, .put => some (.updateAlert id)
  | alert id, .delete => some (.deleteAlert id)
  | alertToggle id, .post => some (.toggleAlert id)
  | alertHistory id, .get => some (.alertHistory id)
  | history, .get => some .history
  | templates, .get => some .templates
  | instantiation id, .post => some (.instantiate id)
  | monitorStatus, .get => some .status
  | monitorStart, .post => some .start
  | monitorStop, .post => some .stop
  | monitorInterval, .put => some .setInterval
  | stockCheck code, .post => some (.checkStock code)
  | events, .get => some .openEvents
  | _, _ => none

end TickerWatch.Http
