import RunLedger.Cli.Help
import RunLedger.Http.Address
import RunLedger.Sync.Report

/-!
# The HTTP interface

The program answers on two addresses: one tells that it is alive, the other syncs a run on demand. A
page of any origin may call it, so every answer says so, and questions about what is allowed are
answered before an address is looked up.
-/

namespace RunLedger.Http

open RunLedger (Json)
open RunLedger.Sync (Reconciler TriggerResponse)

/-- A request. -/
structure Request where
  method : String := "GET"
  address : String := "/"
deriving DecidableEq, Repr, Inhabited

/-- The content of an answer. -/
inductive Body where
  | empty
  | text (content : String)
  | json (content : Json)
deriving Repr, Inhabited

/-- An answer. -/
structure Response where
  status : Nat
  headers : List (String × String) := []
  body : Body := .empty
deriving Repr, Inhabited

/-- What an address stands for. -/
inductive Route where
  | health
  /-- The sync of the run that a segment of the path names. -/
  | sync (segment : List Char)
  | unknown
deriving DecidableEq, Repr, Inhabited

namespace Route

/-- Looks up an address. -/
def ofAddress (address : String) : Route :=
  match segments? (pathOf address) with
  | some [only] => if only = "health".toList then health else unknown
  | some [first, segment, last] =>
    if first = "runs".toList ∧ last = "sync".toList then sync segment else unknown
  | _ => unknown

/-- The methods that an address answers to. -/
def methods : Route → List String
  | health => ["GET", "HEAD"]
  | sync _ => ["POST"]
  | unknown => []

/-- The header that lists the methods of an address. -/
def allowHeader : Route → List (String × String)
  | unknown => []
  | route => [("allow", ",".intercalate route.methods)]

end Route

namespace Response

/-- An answer with a document. -/
def ofJson (status : Nat) (content : Json) : Response where
  status := status
  headers := [("content-type", "application/json")]
  body := .json content

/-- The answer on the address that tells that the program is alive. -/
def health : Response :=
  ofJson 200 (.obj [("status", .str "ok"), ("version", .str programVersion)])

/-- The answer on an address that stands for nothing. -/
def notFound : Response :=
  ofJson 404 (.obj [("error", .str "not found")])

/-- The answer to a run name whose bytes are no text. -/
def badRunId : Response where
  status := 400
  headers := [("content-type", "text/plain; charset=utf-8")]
  body := .text "Invalid URL: Invalid UTF-8 in \x60run_id\x60"

/-- The answer that tells of a sync on demand. -/
def ofTrigger (r : TriggerResponse) : Response :=
  let status := match r with
    | .synced .. => 200
    | .notFound _ => 404
    | .error _ => 502
  ofJson status r.toJson

/-- The answer to a method that an address does not answer to. -/
def methodNotAllowed (route : Route) : Response where
  status := 405
  headers := route.allowHeader

/-- The answer to the question what is allowed. -/
def preflight (route : Route) : Response where
  status := 200
  headers := ("access-control-allow-methods", "GET,POST") ::
    ("access-control-allow-headers", "*") :: route.allowHeader

/-- The answer without its content. -/
def withoutBody (r : Response) : Response :=
  { r with body := .empty }

/-- The answer as every origin may read it. -/
def shared (r : Response) : Response :=
  { r with headers := ("access-control-allow-origin", "*") :: r.headers }

end Response

section Respond

variable {m : Type → Type} [Monad m] {σ : Type}

/-- Answers a request that does not ask what is allowed. -/
def dispatch (r : Reconciler m σ) (method : String) (route : Route) : m Response :=
  match route with
  | .unknown => pure .notFound
  | .health => pure (if method ∈ route.methods then .health else .methodNotAllowed route)
  | .sync segment =>
    if method ∈ route.methods then
      match segmentText? segment with
      | some runId => Response.ofTrigger <$> r.trigger runId
      | none => pure .badRunId
    else pure (.methodNotAllowed route)

/-- Answers a request. -/
def respond (r : Reconciler m σ) (request : Request) : m Response := do
  let route := Route.ofAddress request.address
  if request.method = "OPTIONS" then pure (Response.preflight route).shared
  else
    let response ← dispatch r request.method route
    pure (if request.method = "HEAD" then response.withoutBody.shared else response.shared)

end Respond

end RunLedger.Http
