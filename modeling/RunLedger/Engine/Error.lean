/-!
# Engine failures

How a query to an engine fails, and which failures are worth another attempt.
-/

namespace RunLedger

/-- What is wrong with an engine's answer. -/
structure DecodeFault where
  /-- What could not be read. -/
  headline : String
  /-- What was wrong with it. -/
  detail : String := ""
deriving DecidableEq, Repr, Inhabited

/-- A failed query. -/
inductive EngineError where
  /-- The engine has no such run. -/
  | runNotFound (runId : String)
  /-- The request got no answer. -/
  | transport (reason : String)
  /-- The answer has a status that says that the request failed. -/
  | http (status : Nat)
  /-- The answer has not the expected shape. -/
  | decode (fault : DecodeFault)
  /-- The engine reports an error of its own. -/
  | engine (reason : String)
  /-- The request was broken off. -/
  | join (reason : String)
deriving DecidableEq, Repr, Inhabited

namespace EngineError

def message : EngineError → String
  | runNotFound runId => "run not found: " ++ runId
  | transport reason => "engine transport error: " ++ reason
  | http status => "engine returned HTTP " ++ toString status
  | decode fault => "failed to decode engine response: " ++ fault.headline ++ fault.detail
  | engine reason => "engine error: " ++ reason
  | join reason => "engine request task failed: " ++ reason

/-- The statuses after which a request is worth repeating. -/
def retriableStatuses : List Nat := [429, 500, 502, 503, 504]

/-- Whether the request may succeed when it is repeated. -/
def isRetriable : EngineError → Bool
  | transport _ => true
  | http status => retriableStatuses.contains status
  | _ => false

end EngineError

end RunLedger
