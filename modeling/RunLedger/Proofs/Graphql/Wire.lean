import RunLedger.Engine.Graphql.Client
import RunLedger.Proofs.Interleaving.Calls
import RunLedger.Proofs.Sync.Cursor
import RunLedger.Proofs.Sync.Paging

/-!
# A client over the wire

The reconciler of `wired` talks to a GraphQL engine: its calls are the requests that go over the
wire and the waits between them. A listing that the client returns was read from the answer to a
request for that listing, however often the request was repeated.
-/

namespace RunLedger.Interleaving

open RunLedger.Time (Instant)
open RunLedger.Graphql (Connection Request Response BoundOutOfRange)

/-- A call of a reconciler that follows a GraphQL engine. -/
inductive WireCall where
  | post (request : Request)
  | sleep (nanos : Nat)
  | now
  | store (call : StoreCall)

/-- What a call returns. -/
abbrev WireCall.Answer : WireCall → Type
  | post _ => Except String Response
  | sleep _ => Unit
  | now => Instant
  | store call => call.Answer

/-- A program over the wire, which breaks off where a bound cannot be expressed. -/
abbrev Wired : Type → Type := ExceptT BoundOutOfRange (Program WireCall.Answer)

open Program (question)

/-- The transport whose requests are calls. -/
def wire : Graphql.Transport (Program WireCall.Answer) where
  post request := question (WireCall.post request)
  sleep nanos := question (WireCall.sleep nanos)

/-- The reconciler that follows a GraphQL engine. -/
def wired (c : Connection) (pageSize : Nat) : Sync.Reconciler Wired Snapshot where
  engine := Graphql.engine wire c
  store := StoreCall.backend fun call => ExceptT.lift (question (WireCall.store call))
  clock := ExceptT.lift (question WireCall.now)
  pageSize := pageSize

/-- An exchange over the wire. -/
abbrev WireExchange : Type := Exchange WireCall.Answer

variable {c : Connection} {α β : Type} {exchanges : List WireExchange}

/-- A program goes on where its first part returned, and breaks off where that broke off. -/
theorem run_bind (x : Wired α) (f : α → Wired β) :
    (x >>= f).run = x.run >>= fun
      | .ok a => (f a).run
      | .error e => .done (.error e) := by
  show x.run >>= ExceptT.bindCont f = _
  congr 1
  funext result
  cases result <;> rfl

/-- A program over the wire returns if each of its parts does. -/
theorem returns_bind_iff {x : Wired α} {f : α → Wired β} {result : β} :
    (x >>= f).run.Runs exchanges (.ok result) ↔
      ∃ a before after, exchanges = before ++ after ∧ x.run.Runs before (.ok a) ∧
        (f a).run.Runs after (.ok result) := by
  rw [run_bind, Program.runs_bind_iff]
  constructor
  · rintro ⟨a, before, after, split, first, second⟩
    cases a with
    | ok a => exact ⟨a, before, after, split, first, second⟩
    | error e => exact nomatch (Program.runs_done_iff.mp second).2
  · rintro ⟨a, before, after, split, first, second⟩
    exact ⟨.ok a, before, after, split, first, second⟩

/-- A program that knows no bounds has the same conversations as before, and returns. -/
theorem runs_lift_iff {p : Program WireCall.Answer α} {result : Except BoundOutOfRange α} :
    (ExceptT.lift p : Wired α).run.Runs exchanges result ↔
      ∃ a, result = .ok a ∧ p.Runs exchanges a := by
  show (Except.ok <$> p).Runs exchanges result ↔ _
  rw [Program.map_eq, Program.runs_bind_iff]
  constructor
  · rintro ⟨a, before, after, rfl, first, second⟩
    obtain ⟨rfl, rfl⟩ := Program.runs_done_iff.mp second
    exact ⟨a, rfl, (List.append_nil before).symm ▸ first⟩
  · rintro ⟨a, rfl, first⟩
    exact ⟨a, exchanges, [], (List.append_nil _).symm, first, .done _⟩

/-! ## Repeated requests -/

/-- However often a request is repeated, it was posted at once, and its outcome is read from the
answer to a post. -/
theorem attempt_post {request : Request} {answer : Except EngineError Json} (p : Backoff)
    (left retry : Nat)
    (run : (p.attempt wire.sleep (Graphql.readResponse <$> wire.post request) left retry).Runs
      exchanges answer) :
    (∃ response rest, exchanges = ⟨.post request, response⟩ :: rest) ∧
      ∃ response, ⟨.post request, response⟩ ∈ exchanges ∧
        answer = Graphql.readResponse response := by
  have posted {next : Except EngineError Json → Program WireCall.Answer (Except EngineError Json)}
      {exchanges : List WireExchange}
      (run : (Graphql.readResponse <$> wire.post request >>= next).Runs exchanges answer) :
      ∃ response rest, exchanges = ⟨.post request, response⟩ :: rest ∧
        (next (Graphql.readResponse response)).Runs rest answer := by
    exact Program.runs_ask_iff.mp run
  induction left generalizing retry exchanges with
  | zero =>
    obtain ⟨response, rest, rfl, done⟩ := Program.runs_ask_iff.mp run
    obtain ⟨rfl, rfl⟩ := Program.runs_done_iff.mp done
    exact ⟨⟨response, [], rfl⟩, response, List.mem_singleton_self _, rfl⟩
  | succ left ih =>
    obtain ⟨response, rest, rfl, onwards⟩ := posted run
    refine ⟨⟨response, rest, rfl⟩, ?_⟩
    cases read : Graphql.readResponse response with
    | ok j =>
      rw [read] at onwards
      obtain ⟨rfl, rfl⟩ := Program.runs_done_iff.mp onwards
      exact ⟨response, List.mem_singleton_self _, read.symm⟩
    | error e =>
      rw [read] at onwards
      dsimp only at onwards
      split at onwards
      · obtain ⟨_, later, rfl, again⟩ := Program.runs_ask_iff.mp onwards
        obtain ⟨_, response', member, isRead⟩ := ih (retry + 1) again
        exact ⟨response', List.mem_cons_of_mem _ (List.mem_cons_of_mem _ member), isRead⟩
      · obtain ⟨rfl, rfl⟩ := Program.runs_done_iff.mp onwards
        exact ⟨response, List.mem_singleton_self _, read.symm⟩

/-- The data that an answer carries. -/
def dataOf (answer : Except String Response) : Except EngineError Json :=
  (Graphql.readResponse answer).bind Graphql.openEnvelope

/-- A query is posted at once, and its data are read from the answer to a post. -/
theorem ask_post {query : Graphql.Query} {bindings : Json} {data : Except EngineError Json}
    (run : (Graphql.ask wire c query bindings).Runs exchanges data) :
    (∃ answer rest, exchanges = ⟨.post (c.request query bindings), answer⟩ :: rest) ∧
      ∃ answer, ⟨.post (c.request query bindings), answer⟩ ∈ exchanges ∧ data = dataOf answer := by
  obtain ⟨read, before, after, rfl, asked, done⟩ := Program.runs_bind_iff.mp run
  obtain ⟨rfl, rfl⟩ := Program.runs_done_iff.mp done
  obtain ⟨first, answer, member, rfl⟩ := attempt_post c.backoff _ _ asked
  rw [List.append_nil]
  exact ⟨first, answer, member, rfl⟩

/-- An answer that can be read ends the repetitions. -/
theorem runs_attempt {request : Request} {j : Json} {answer : Except String Response}
    (p : Backoff) (left retry : Nat) (read : Graphql.readResponse answer = .ok j) :
    (p.attempt wire.sleep (Graphql.readResponse <$> wire.post request) left retry).Runs
      [⟨.post request, answer⟩] (.ok j) := by
  have posted : (Graphql.readResponse <$> wire.post request).Runs
      [⟨.post request, answer⟩] (.ok j) := .ask (read ▸ .done _)
  cases left with
  | zero => exact posted
  | succ left => exact Program.runs_bind_iff.mpr ⟨.ok j, _, [], rfl, posted, .done _⟩

/-- A request that is answered is posted once. -/
theorem runs_ask {query : Graphql.Query} {bindings j : Json} {answer : Except String Response}
    (read : Graphql.readResponse answer = .ok j) :
    (Graphql.ask wire c query bindings).Runs [⟨.post (c.request query bindings), answer⟩]
      (Graphql.openEnvelope j) :=
  Program.runs_bind_iff.mpr
    ⟨.ok j, _, [], rfl, runs_attempt c.backoff c.backoff.maxRetries 0 read, .done _⟩

/-- A request that failed for a passing reason is posted again after a wait. -/
theorem runs_ask_again {query : Graphql.Query} {bindings j : Json} {left : Nat} {e : EngineError}
    {failure answer : Except String Response} (repeats : c.backoff.maxRetries = left + 1)
    (failed : Graphql.readResponse failure = .error e) (passing : e.isRetriable = true)
    (read : Graphql.readResponse answer = .ok j) :
    (Graphql.ask wire c query bindings).Runs
      [⟨.post (c.request query bindings), failure⟩, ⟨.sleep (c.backoff.delay 1), ()⟩,
        ⟨.post (c.request query bindings), answer⟩] (Graphql.openEnvelope j) := by
  have posted : (Graphql.readResponse <$> wire.post (c.request query bindings)).Runs
      [⟨.post (c.request query bindings), failure⟩] (.error e) := .ask (failed ▸ .done _)
  have asked : (c.backoff.run wire.sleep (Graphql.readResponse <$>
      wire.post (c.request query bindings))).Runs
        [⟨.post (c.request query bindings), failure⟩, ⟨.sleep (c.backoff.delay 1), ()⟩,
          ⟨.post (c.request query bindings), answer⟩] (.ok j) := by
    unfold Backoff.run
    rw [repeats]
    refine Program.runs_bind_iff.mpr ⟨.error e, [_], [_, _], rfl, posted, ?_⟩
    dsimp only
    rw [if_pos passing]
    exact .ask (runs_attempt c.backoff left 1 read)
  exact Program.runs_bind_iff.mpr ⟨.ok j, _, [], rfl, asked, .done _⟩

/-! ## Queries of the reconciler -/

/-- The request for the listing that a search asks for. -/
def listRequest (c : Connection) (limit : Nat) (cursor sent : Option Instant) : Request :=
  c.request Graphql.recentRunsQuery (Graphql.recentRunsVariables limit cursor sent)

/-- The first request for a run. -/
def detailRequest (c : Connection) (runId : String) : Request :=
  c.request Graphql.runDetailQuery (Graphql.runDetailVariables runId none)

/-- A run was asked for. -/
def AskedFor (c : Connection) (exchanges : List WireExchange) (runId : String) : Prop :=
  ∃ answer, ⟨.post (detailRequest c runId), answer⟩ ∈ exchanges

/-- A listing was read from the answer to a request for it. -/
theorem recentRuns_post {limit : Nat} {cursor before : Option Instant} {page : List RunSummary}
    (run : ((Graphql.engine wire c).recentRuns limit cursor before : Wired _).run.Runs exchanges
      (.ok (.ok page))) :
    ∃ sent answer, Graphql.boundToSend before = .ok sent ∧
      ⟨.post (listRequest c limit cursor sent), answer⟩ ∈ exchanges ∧
      (dataOf answer).bind Graphql.decodeRunList = .ok page := by
  obtain ⟨sent, none, asked, rfl, first, second⟩ := returns_bind_iff.mp run
  obtain ⟨rfl, bounded⟩ := Program.runs_done_iff.mp first
  obtain ⟨_, ⟨⟩, listed⟩ := runs_lift_iff.mp second
  obtain ⟨data, before, after, rfl, posted, done⟩ := Program.runs_bind_iff.mp listed
  obtain ⟨rfl, decoded⟩ := Program.runs_done_iff.mp done
  obtain ⟨_, answer, member, rfl⟩ := ask_post posted
  refine ⟨sent, answer, bounded.symm, ?_, decoded.symm⟩
  rw [List.append_nil]
  exact member

/-- A call for a run asks for its first page. -/
theorem askedFor_of_runDetail {runId : String}
    {result : Except BoundOutOfRange (Except EngineError RunDetail)}
    (run : ((Graphql.engine wire c).runDetail runId : Wired _).run.Runs exchanges result) :
    AskedFor c exchanges runId := by
  obtain ⟨detail, rfl, asked⟩ := runs_lift_iff.mp run
  obtain ⟨page, before, after, rfl, first, _⟩ := Program.runs_bind_iff.mp asked
  obtain ⟨data, posts, none, rfl, posted, _⟩ := Program.runs_bind_iff.mp first
  obtain ⟨answer, rest, rfl⟩ := (ask_post posted).1
  exact ⟨answer, by simp [detailRequest]⟩

theorem AskedFor.mono {runId : String} {more : List WireExchange}
    (asked : AskedFor c exchanges runId) (subset : exchanges ⊆ more) : AskedFor c more runId := by
  obtain ⟨answer, member⟩ := asked
  exact ⟨answer, subset member⟩

end RunLedger.Interleaving
