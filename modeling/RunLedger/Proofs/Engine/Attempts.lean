import Mathlib.Order.Bounds.Basic
import RunLedger.Engine.Backoff

/-!
# Repeating a query

A query whose calls have given outcomes is repeated under a policy, and every call and every wait is
written down. The query is called up to the first outcome that is no passing failure, or until the
repetitions are used up; before each repetition there is the wait of its number, and the last
outcome is the result (`Backoff.run_exact`).
-/

namespace RunLedger

/-- Failures that may pass: there was no answer, or its status says that the engine could not answer
now. -/
inductive EngineError.Passing : EngineError → Prop where
  | transport (reason : String) : Passing (.transport reason)
  | http {status : Nat} (listed : status ∈ [429, 500, 502, 503, 504]) : Passing (.http status)

/-- A failure is worth another attempt exactly if it may pass. -/
theorem EngineError.isRetriable_iff {e : EngineError} : e.isRetriable = true ↔ e.Passing := by
  cases e with
  | transport reason => exact iff_of_true rfl (.transport reason)
  | http status =>
    rw [isRetriable, List.contains_iff_mem]
    exact ⟨.http, fun | .http listed => listed⟩
  | _ => exact iff_of_false nofun nofun

namespace Backoff

/-- What can be seen of a query that is repeated. -/
inductive Moment where
  | called
  | waited (nanoseconds : Nat)
deriving DecidableEq, Repr

variable {α : Type} {p : Backoff} {outcomes : Nat → Except EngineError α}

/-- A query with the given outcomes, the first call having outcome number 1. -/
def calling (outcomes : Nat → Except EngineError α) :
    StateM (List Moment) (Except EngineError α) :=
  fun past => (outcomes (past.count .called + 1), past ++ [.called])

def waiting (nanoseconds : Nat) : StateM (List Moment) Unit :=
  fun past => ((), past ++ [.waited nanoseconds])

/-- An outcome after which the query is not repeated. -/
def Settled : Except EngineError α → Prop
  | .ok _ => True
  | .error e => ¬ e.Passing

/-- A number of calls, each with the wait after it. -/
def retries (p : Backoff) (count : Nat) : List Moment :=
  (List.range' 1 count).flatMap fun n => [.called, .waited (p.delay n)]

/-- What is seen when the query is called a number of times. -/
def course (p : Backoff) (calls : Nat) : List Moment := p.retries (calls - 1) ++ [.called]

/-- One more repetition is one more call, and a wait after it. -/
theorem retries_succ (p : Backoff) (count : Nat) :
    p.retries (count + 1) = p.retries count ++ [.called, .waited (p.delay (count + 1))] := by
  unfold retries
  rw [List.range'_concat, List.flatMap_append, List.flatMap_singleton, Nat.one_mul,
    Nat.add_comm 1 count]

/-- There are as many calls as repetitions. -/
theorem count_called_retries (p : Backoff) (count : Nat) :
    (p.retries count).count .called = count := by
  induction count with
  | zero => rfl
  | succ count ih => rw [retries_succ, List.count_append, ih]; rfl

theorem calling_retries (p : Backoff) (outcomes : Nat → Except EngineError α) (count : Nat) :
    calling outcomes (p.retries count) = (outcomes (count + 1), p.course (count + 1)) := by
  rw [calling, count_called_retries]
  rfl

theorem waiting_course (p : Backoff) (count : Nat) :
    waiting (p.delay (count + 1)) (p.course (count + 1)) = ((), p.retries (count + 1)) := by
  rw [waiting, course, Nat.add_sub_cancel, List.append_assoc, retries_succ]
  rfl

/-- A call that does not use up the repetitions is the last one if its outcome settles the query,
and otherwise a wait and the next call follow. -/
theorem attempt_succ (p : Backoff) (outcomes : Nat → Except EngineError α) (left retry : Nat) :
    (Settled (outcomes (retry + 1)) ∧
      p.attempt waiting (calling outcomes) (left + 1) retry (p.retries retry) =
        (outcomes (retry + 1), p.course (retry + 1))) ∨
    (¬ Settled (outcomes (retry + 1)) ∧
      p.attempt waiting (calling outcomes) (left + 1) retry (p.retries retry) =
        p.attempt waiting (calling outcomes) left (retry + 1) (p.retries (retry + 1))) := by
  have step {f : Except EngineError α → StateM (List Moment) (Except EngineError α)} :
      (calling outcomes >>= f) (p.retries retry) =
        f (outcomes (retry + 1)) (p.course (retry + 1)) := by
    change f (calling outcomes (p.retries retry)).1 (calling outcomes (p.retries retry)).2 = _
    rw [calling_retries]
  rw [attempt, step]
  cases outcomes (retry + 1) with
  | ok a => exact .inl ⟨trivial, rfl⟩
  | error e =>
    dsimp only
    by_cases passing : e.isRetriable = true
    · right
      refine ⟨not_not.mpr (EngineError.isRetriable_iff.mp passing), ?_⟩
      rw [if_pos passing]
      change p.attempt waiting (calling outcomes) left (retry + 1)
        (waiting (p.delay (retry + 1)) (p.course (retry + 1))).2 = _
      rw [waiting_course]
    · left
      refine ⟨mt EngineError.isRetriable_iff.mpr passing, ?_⟩
      rw [if_neg passing]
      rfl

/-- What is left of a run after some passing failures. -/
theorem attempt_exact (p : Backoff) (outcomes : Nat → Except EngineError α) (left retry : Nat) :
    ∃ k, IsLeast {n | retry < n ∧ (Settled (outcomes n) ∨ n = retry + left + 1)} k ∧
      p.attempt waiting (calling outcomes) left retry (p.retries retry) =
        (outcomes k, p.course k) := by
  induction left generalizing retry with
  | zero =>
    refine ⟨retry + 1, ⟨⟨Nat.lt_succ_self retry, .inr rfl⟩, fun n later => later.1⟩, ?_⟩
    exact calling_retries p outcomes retry
  | succ left ih =>
    rcases p.attempt_succ outcomes left retry with ⟨settled, ended⟩ | ⟨passing, goesOn⟩
    · refine ⟨retry + 1, ⟨⟨Nat.lt_succ_self retry, .inl settled⟩, fun n later => later.1⟩, ended⟩
    · obtain ⟨k, ⟨⟨later, stops⟩, least⟩, ended⟩ := ih (retry + 1)
      refine ⟨k, ⟨⟨Nat.lt_of_succ_lt later, stops.imp_right fun last => ?_⟩, ?_⟩,
        goesOn.trans ended⟩
      · omega
      · rintro n ⟨after, stopsAt⟩
        -- The call after the failures that passed is not the last one.
        have beyond : retry + 1 < n := by
          rcases Nat.lt_or_eq_of_le (Nat.succ_le_of_lt after) with beyond | rfl
          · exact beyond
          · rcases stopsAt with settled | last
            · exact absurd settled passing
            · omega
        exact least ⟨beyond, stopsAt.imp_right fun last => by omega⟩

/-- A query is called up to the first outcome that settles it or uses up the repetitions; that
outcome is the result, and before each repetition there is the wait of its number. -/
theorem run_exact (p : Backoff) (outcomes : Nat → Except EngineError α) :
    ∃ k, IsLeast {n | 0 < n ∧ (Settled (outcomes n) ∨ n = p.maxRetries + 1)} k ∧
      p.run waiting (calling outcomes) [] = (outcomes k, p.course k) := by
  have whole := p.attempt_exact outcomes p.maxRetries 0
  rwa [Nat.zero_add] at whole

/-- Two failures pass before a query succeeds with its last repetition. -/
example : Backoff.run { maxRetries := 2 } waiting
    (calling fun n => if n < 3 then .error (.http 503) else .ok n) [] =
      (.ok 3, [.called, .waited 300000000, .called, .waited 600000000, .called]) := rfl

end Backoff

end RunLedger
