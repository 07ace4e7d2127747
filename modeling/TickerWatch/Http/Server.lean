import TickerWatch.Desk.Definitions
import TickerWatch.Http.MediaType
import TickerWatch.Http.Route
import TickerWatch.Timeline

namespace TickerWatch.Http

open Json

structure InstantiateRequest where
  code : String
  name : String
  params : Params

def InstantiateRequest.decoder : Decoder InstantiateRequest :=
  (record "InstantiateRequest"
    (.cons "code" text required
    (.cons "name" text required
    (.cons "params" (mapping real) (byDefault []) .nil)))).map
  fun (code, name, params, ()) => { code, name, params }

def intervalDecoder : Decoder Nat :=
  (record "IntervalForm" (.cons "secs" nat64 required .nil)).map fun (secs, ()) => secs

def readPath (key raw : String) : Except Rejection String :=
  match decodedText? raw with
  | some s => .ok s
  | none => .error (.pathText key)

def Request.readBody {α : Type} (r : Request) (decoder : Decoder α) : Except Rejection α :=
  if r.contentType.any isJson then (readFront decoder r.body).mapError .body
  else .error .mediaType

def Request.readLimit (r : Request) : Except Rejection (Option Int) :=
  (Http.readLimit r.query).mapError .query

def defaultLimit : Int := 50

def answer {α : Type} (status : Nat) (f : α → Value) : Except AlertError α → Response
  | .ok a => .json status (f a)
  | .error e => .ofError e

def withId {σ : Type} (s : σ) (id : String) (f : RecordId → Response × σ) : Response × σ :=
  match RecordId.ofText? id with
  | some id => f id
  | none => (.badId, s)

def statusValue (t : Timeline) : Value :=
  .object
    [("running", .flag t.polling.running),
      ("check_interval_secs", .integer (t.polling.interval / 1000 : Nat)),
      ("has_callback", .flag t.watch.callback.isSome)]

def listValue {α : Type} (f : α → Value) (items : List α) : Value := .list (items.map f)

def millisecondsPerSecond : Nat := 1000

/-- What is asked for, done on a timeline; the error is a rejection, and leaves all as it was. -/
def perform (t : Timeline) (r : Request) : Action → Except Rejection (Response × Timeline)
  | .health => return (.text 200 "ok", t)
  | .listAlerts => return (answer 200 (listValue Alert.toValue) (t.ask Desk.list), t)
  | .createAlert => do
    let input ← r.readBody Definition.decoder
    let (result, t) := t.onDesk fun d e => d.create e input
    return (answer 201 Alert.toValue result, t)
  | .getAlert id => do
    let id ← readPath "id" id
    return withId t id fun id => (answer 200 Alert.toValue (t.ask fun d e => d.get e id), t)
  | .updateAlert id => do
    let id ← readPath "id" id
    let input ← r.readBody Definition.decoder
    return withId t id fun id =>
      let (result, t) := t.onDesk fun d e => d.update e id input
      (answer 200 Alert.toValue result, t)
  | .deleteAlert id => do
    let id ← readPath "id" id
    return withId t id fun id =>
      match t.onDesk fun d e => d.delete e id with
      | (.ok (), t) => (.noContent, t)
      | (.error e, t) => (.ofError e, t)
  | .toggleAlert id => do
    let id ← readPath "id" id
    return withId t id fun id =>
      let (result, t) := t.onDesk fun d e => d.toggle e id
      (answer 200 Alert.toValue result, t)
  | .alertHistory id => do
    let id ← readPath "id" id
    let limit ← r.readLimit
    return withId t id fun id =>
      (answer 200 (listValue HistoryEntry.toValue)
        (t.ask fun d e => d.history e (some id) (limit.getD defaultLimit)), t)
  | .history => do
    let limit ← r.readLimit
    return (answer 200 (listValue HistoryEntry.toValue)
      (t.ask fun d e => d.history e none (limit.getD defaultLimit)), t)
  | .templates => return (answer 200 (listValue Template.toValue) (t.ask Desk.templates), t)
  | .instantiate template => do
    let template ← readPath "id" template
    let req ← r.readBody InstantiateRequest.decoder
    let (result, t) := t.onDesk fun d e => d.instantiate e template req.code req.name req.params
    return (answer 201 Alert.toValue result, t)
  | .status => return (.json 200 (statusValue t), t)
  | .start =>
    let (started, t) := t.start
    return (.json 200 (.object [("started", .flag started)]), t)
  | .stop =>
    let (stopped, t) := t.stop
    return (.json 200 (.object [("stopped", .flag stopped)]), t)
  | .setInterval => do
    let secs ← r.readBody intervalDecoder
    match t.setInterval (millisecondsPerSecond * secs) with
    | (.ok (), t) => return (.json 200 (statusValue t), t)
    | (.error e, t) => return (.ofError e, t)
  | .checkStock code => do
    let code ← readPath "code" code
    let (result, t) := t.checkStock code
    return (answer 200 Report.toValue result, t)
  | .openEvents => return (.eventStream, t)

def act (t : Timeline) (r : Request) (a : Action) : Response × Timeline :=
  match perform t r a with
  | .ok result => result
  | .error rejection => (rejection.response, t)

def respond (t : Timeline) (r : Request) (route : Route) : Response × Timeline :=
  match r.method, route.action? (if r.method = .head then .get else r.method) with
  | _, none => (.methodNotAllowed, t)
  | .head, some a =>
    let (response, t) := act t r a
    (response.withoutBody, t)
  | _, some a => act t r a

def serve (t : Timeline) (r : Request) : Response × Timeline :=
  match Route.ofPath? r.path with
  | none => (.notFound, t)
  | some route => respond t r route

end TickerWatch.Http
