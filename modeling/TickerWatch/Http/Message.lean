import TickerWatch.AlertError
import TickerWatch.Http.Query
import TickerWatch.Json.Value

namespace TickerWatch.Http

inductive Method where
  | get
  | head
  | post
  | put
  | delete
  | other
  deriving DecidableEq, Repr

def Method.ofName (s : String) : Method :=
  ([("GET", get), ("HEAD", head), ("POST", post), ("PUT", put), ("DELETE", delete)].lookup s).getD
    other

/-- `target` is a path, or a whole address with a scheme and a host, and the query behind it if
there is one. Bodies that are no UTF-8, or too long for the server, are left out. -/
structure Request where
  method : Method
  target : String
  contentType : Option String := none
  body : String := ""

def withoutHost (target : List Char) : List Char :=
  let rest := target.dropWhile fun c => c ≠ ':' && c ≠ '/'
  if "://".toList.isPrefixOf rest then
    (rest.drop 3).dropWhile fun c => c ≠ '/' && c ≠ '?'
  else target

def Request.address (r : Request) : List Char :=
  withoutHost (r.target.toList.takeWhile (· ≠ '#'))

def Request.path (r : Request) : String := String.ofList (r.address.takeWhile (· ≠ '?'))

def Request.query (r : Request) : String :=
  String.ofList ((r.address.dropWhile (· ≠ '?')).drop 1)

inductive Body where
  | empty
  | text (s : String)
  | json (v : Json.Value)

structure Response where
  status : Nat
  contentType : Option String := none
  body : Body := .empty

namespace Response

def json (status : Nat) (v : Json.Value) : Response := ⟨status, "application/json", .json v⟩

def text (status : Nat) (s : String) : Response := ⟨status, "text/plain; charset=utf-8", .text s⟩

def eventStream : Response := ⟨200, "text/event-stream", .empty⟩

def noContent : Response := { status := 204 }

def methodNotAllowed : Response := { status := 405 }

def error (status : Nat) (message : String) : Response :=
  json status (.object [("error", .text message)])

def notFound : Response := error 404 "not found"

def badId : Response := error 400 "bad id"

def withoutBody (r : Response) : Response := { r with body := .empty }

def ofError (e : AlertError) : Response :=
  let status :=
    match e with
    | .invalid _ | .zeroInterval => 400
    | .noAlert _ | .noTemplate _ => 404
    | .dataUnavailable _ => 502
    | .repository _ => 500
  error status e.message

end Response

inductive Rejection where
  | pathText (key : String)
  | query (f : QueryFault)
  | mediaType
  | body (e : Json.ReadError)

def Rejection.response : Rejection → Response
  | pathText key => .text 400 ("Invalid URL: Invalid UTF-8 in `" ++ key ++ "`")
  | query f => .text 400 ("Failed to deserialize query string: " ++ f.message)
  | mediaType => .text 415 "Expected request with `Content-Type: application/json`"
  | body e =>
    if e.fault.isMismatch then
      .text 422 ("Failed to deserialize the JSON body into the target type: " ++ e.located)
    else .text 400 ("Failed to parse the request body as JSON: " ++ e.located)

end TickerWatch.Http
