import RunLedger.Engine.Backoff
import RunLedger.Engine.Graphql.Answer
import RunLedger.Engine.Graphql.Query
import RunLedger.Json.Reader

/-!
# A client of a GraphQL engine

The client asks over a transport, which carries one request and one answer, and repeats a request
that failed for a passing reason. A run is asked for page by page, until the engine says that there
are no more events, gives no cursor, or gives the cursor that it was sent.

The engine excludes the upper bound of a list, so the bound is sent a millisecond later than it is
meant. At the end of the last year there is no later millisecond, and the listing is broken off.
-/

namespace RunLedger.Graphql

open RunLedger (Json)
open RunLedger.Time (Instant)

/-- A request to the endpoint of an engine. -/
structure Request where
  url : String
  /-- The value of the header that proves who asks. -/
  authorization : Option String
  query : Query
  /-- The values of the variables of the query. -/
  bindings : Json
deriving Repr, Inhabited

/-- An answer to a request. -/
structure Response where
  status : Nat
  body : String
deriving DecidableEq, Repr, Inhabited

/-- Carries requests and lets time pass. -/
structure Transport (m : Type → Type) where
  /-- The answer to a request, or why there is none. -/
  post : Request → m (Except String Response)
  /-- Waits for a number of nanoseconds. -/
  sleep : Nat → m Unit

/-- How an engine is reached. -/
structure Connection where
  baseUrl : String
  authToken : Option String := none
  /-- Nanoseconds that a request may take. -/
  timeout : Nat := 30000000000
  backoff : Backoff := {}
deriving DecidableEq, Repr, Inhabited

namespace Connection

/-- The address that queries go to. -/
def endpoint (c : Connection) : String :=
  String.ofList ((c.baseUrl.toList.reverse.dropWhile (· = '/')).reverse) ++ "/graphql"

/-- The request for a query. -/
def request (c : Connection) (query : Query) (bindings : Json) : Request where
  url := c.endpoint
  authorization := c.authToken.map ("Bearer " ++ ·)
  query := query
  bindings := bindings

end Connection

/-- The document that an answer carries. -/
def readResponse : Except String Response → Except EngineError Json
  | .error reason => .error (.transport reason)
  | .ok response =>
    if response.status ≥ 400 then .error (.http response.status)
    else
      match Json.read? response.body with
      | some j => .ok j
      | none => .error (unreadable "response is not JSON: " "not one document")

/-- There is no time a millisecond later than the bound of a list. -/
structure BoundOutOfRange where
  bound : Instant
deriving Repr, Inhabited

/-- The bound to send for a bound that is meant. -/
def boundToSend : Option Instant → Except BoundOutOfRange (Option Instant)
  | none => .ok none
  | some t =>
    match t.add? Instant.millisecond with
    | some later => .ok (some later)
    | none => .error ⟨t⟩

/-- The greatest number of pages that are asked for of one run. -/
def pageLimit : Nat := 1000

section Client

variable {m : Type → Type} [Monad m]

/-- Asks a query and opens the answer. -/
def ask (t : Transport m) (c : Connection) (query : Query) (bindings : Json) :
    m (Except EngineError Json) := do
  let answer ← c.backoff.run t.sleep (readResponse <$> t.post (c.request query bindings))
  pure (answer.bind openEnvelope)

/-- Asks for the page of a run after a cursor. -/
def askPage (t : Transport m) (c : Connection) (runId : String) (after : Option String) :
    m (Except EngineError RunPage) := do
  let data ← ask t c runDetailQuery (runDetailVariables runId after)
  pure (data.bind (decodeRunPage runId))

/-- Adds a page to what is known of a run: the first page describes the run, later ones add their
events. -/
def addPage (known : Option RunDetail) (page : RunPage) : RunDetail :=
  match known with
  | some d => { d with events := d.events ++ page.detail.events }
  | none => page.detail

/-- Asks for the pages of a run after a cursor, at most `fuel` of them. -/
def askPages (t : Transport m) (c : Connection) (runId : String) :
    (fuel : Nat) → (after : Option String) → (known : Option RunDetail) →
      m (Except EngineError RunDetail)
  | 0, _, some known => pure (.ok known)
  | 0, _, none => pure (.error (unreadable "no run detail page" ""))
  | fuel + 1, after, known => do
    match ← askPage t c runId after with
    | .error e => pure (.error e)
    | .ok page =>
      let known := addPage known page
      if page.hasMore && page.cursor.isSome && page.cursor != after then
        askPages t c runId fuel page.cursor (some known)
      else pure (.ok known)

/-- Asks for a run. -/
def askRun (t : Transport m) (c : Connection) (runId : String) :
    m (Except EngineError RunDetail) :=
  askPages t c runId pageLimit none none

/-- Asks for the runs that were updated last, with the bound as it is sent. -/
def askList (t : Transport m) (c : Connection) (limit : Nat) (after before : Option Instant) :
    m (Except EngineError (List RunSummary)) := do
  let data ← ask t c recentRunsQuery (recentRunsVariables limit after before)
  pure (data.bind decodeRunList)

/-- The engine behind a connection. -/
def engine (t : Transport m) (c : Connection) : Engine (ExceptT BoundOutOfRange m) where
  runDetail runId := (askRun t c runId : m _)
  recentRuns limit after before := do
    let sent ← (boundToSend before : Except BoundOutOfRange _)
    (askList t c limit after sent : m _)

end Client

end RunLedger.Graphql
