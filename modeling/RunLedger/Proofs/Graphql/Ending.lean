import Mathlib.Data.List.Nodup
import RunLedger.Proofs.Graphql.Conversation

/-!
# Whether a search ends

A search for candidates asks for one listing after another. It ends on every server at rest on which
fewer runs than a page holds follow a run within a millisecond. If more may follow, it need not end:
with a page of runs at one time and a page of runs shortly before, the bound falls to the earlier
time and rises to the later one again, forever.
-/

namespace RunLedger.Interleaving

open RunLedger.Sync
open RunLedger.Sync.Paging (widest IsOldest Advance)
open RunLedger.Time (Instant)
open RunLedger.Graphql (Connection BoundOutOfRange boundToSend)

/-- A number of listings always suffices to end the search on a server at rest; it is not broken off
if there is a later millisecond for every run. -/
def Ends (c : Connection) (pageSize : Nat) (cursor : Option Instant) (entries : List Json) : Prop :=
  ∃ most, ∀ fuel, most ≤ fuel → ∀ exchanges result,
    (collect (Graphql.engine wire c) pageSize cursor fuel (.start pageSize) : Wired _).run.Runs
      exchanges result → (∀ e ∈ exchanges, Honest c entries cursor e) →
    result ≠ .ok (.ok none) ∧
      ((∀ run ∈ usable entries, ∃ sent, boundToSend (some run.updateTime) = .ok sent) →
        ∃ outcome, result = .ok outcome)

variable {c : Connection} {pageSize fuel k n : Nat} {cursor before : Option Instant}
  {entries : List Json} {exchanges : List WireExchange} {p : Paging}

/-! ## Searches whose bound falls -/

/-- Only a bound that cannot be sent breaks a listing off. -/
theorem bound_of_recentRuns_error {limit : Nat} {e : BoundOutOfRange}
    (run : ((Graphql.engine wire c).recentRuns limit cursor before : Wired _).run.Runs exchanges
      (.error e)) : boundToSend before = .error e := by
  have run : ((ExceptT.mk (pure (boundToSend before)) : Wired _) >>= fun sent =>
      (ExceptT.lift (Graphql.askList wire c limit cursor sent) : Wired _)).run.Runs exchanges
        (.error e) := run
  rw [run_bind] at run
  obtain ⟨sent, first, rest, rfl, bounded, listed⟩ := Program.runs_bind_iff.mp run
  obtain ⟨rfl, rfl⟩ := Program.runs_done_iff.mp bounded
  cases sending : boundToSend before with
  | error e' =>
    rw [sending] at listed
    cases (Program.runs_done_iff.mp listed).2
    rfl
  | ok sent =>
    rw [sending] at listed
    obtain ⟨_, ⟨⟩, _⟩ := runs_lift_iff.mp listed

/-- A search whose bound falls ends within the requests that remain to it. -/
theorem ends_of_falling
    {result : Except BoundOutOfRange (Except EngineError (Option Candidates))}
    (spread : Spread (max pageSize 1) (usable entries) ∨ widest pageSize ≤ max pageSize 1)
    (falling : Falling pageSize (usable entries) p)
    (enough : remaining pageSize (usable entries) p < fuel)
    (run : (collect (Graphql.engine wire c) pageSize cursor fuel p : Wired _).run.Runs exchanges
      result)
    (honest : ∀ e ∈ exchanges, Honest c entries cursor e) :
    result ≠ .ok (.ok none) ∧
      ((∀ run ∈ usable entries, ∃ sent, boundToSend (some run.updateTime) = .ok sent) →
        ∃ outcome, result = .ok outcome) := by
  induction fuel generalizing p exchanges with
  | zero => omega
  | succ fuel ih =>
    rw [Paging.collect_succ, run_bind] at run
    obtain ⟨answered, listing, later, rfl, listed, onwards⟩ := Program.runs_bind_iff.mp run
    match answered with
    | .error e =>
      cases (Program.runs_done_iff.mp onwards).2
      refine ⟨nofun, fun sendable => ?_⟩
      have unsent := bound_of_recentRuns_error listed
      cases isBound : p.before with
      | none =>
        rw [isBound] at unsent
        cases unsent
      | some b =>
        obtain ⟨r, known, rfl⟩ := falling.bound_mem b isBound
        obtain ⟨sent, sending⟩ := sendable r known
        rw [isBound, sending] at unsent
        cases unsent
    | .ok (.error e) =>
      cases (Program.runs_done_iff.mp onwards).2
      exact ⟨nofun, fun _ => ⟨_, rfl⟩⟩
    | .ok (.ok page) =>
      obtain ⟨sent, answer, raw, bounded, _, _, lists, rfl⟩ := exists_listing listed
        (fun e member => honest e (List.mem_append_left _ member)) falling.bound_mem
      have isPage : p.limit ≤ (newestFirst (usable raw)).length →
          IsPage (usable entries) cursor p (newestFirst (usable raw)) :=
        fun full => isPage_of_lists lists bounded fun _ => uncut_of_full lists full
      have step := Paging.advance_spec pageSize (floorOf cursor) p (newestFirst (usable raw))
      change (Paging.resume (Graphql.engine wire c) pageSize cursor fuel p
        (.ok (newestFirst (usable raw))) : Wired _).run.Runs later result at onwards
      unfold Paging.resume at onwards
      dsimp only at onwards
      split at onwards
      · cases (Program.runs_done_iff.mp onwards).2
        exact ⟨nofun, fun _ => ⟨_, rfl⟩⟩
      · rename_i next requested
        rw [requested] at step
        obtain ⟨falls, fewer⟩ := falling.advance spread isPage step
        exact ih falls (by omega) onwards fun e member => honest e (List.mem_append_right _ member)

/-! ## A search that goes in circles -/

theorem nodup_twoTimes (n : Nat) : ((usable (twoTimes n n)).map (·.runId)).Nodup := by
  have names : (usable (twoTimes n n)).map (·.runId) = (List.range' 0 (n + n)).map nameOf := by
    rw [usable_twoTimes, List.map_append, runsAt, runsAt, List.map_map, List.map_map,
      ← List.range'_append_1, List.map_append, Nat.zero_add]
    rfl
  rw [names]
  exact List.Nodup.map (fun _ _ => nameOf_injective) List.nodup_range'

/-- At most the runs of the later time follow a run within a millisecond. -/
theorem spread_twoTimes (more : n < k) : Spread k (usable (twoTimes n n)) := by
  intro run member
  have above : early ≤ run.updateTime := by
    rcases early_or_late usable_twoTimes member with same | same <;> rw [same] <;> decide
  have none_early : (runsAt early n n).countP (soonAfter run.updateTime) = 0 := by
    refine List.countP_eq_zero.mpr fun r listed after => ?_
    have newer := of_decide_eq_true (Bool.and_eq_true_iff.mp after).1
    rw [updateTime_of_mem listed] at newer
    exact Instant.not_lt.mpr above newer
  have few : (runsAt late 0 n).countP (soonAfter run.updateTime) ≤ n :=
    Nat.le_trans List.countP_le_length (Nat.le_of_eq length_runsAt)
  rw [usable_twoTimes, List.countP_append, none_early]
  omega

theorem order_twoTimes : Order (twoTimes n n) (twoTimes n n) where
  perm := List.Perm.refl _
  sorted := sorted_twoTimes
  written := written_twoTimes

/-- The requests of the circle: a page with no bound or with either time as the bound, and a wider
page up to the later time. -/
inductive Circling (n : Nat) (p : Paging) : Prop where
  | narrow : p.limit = n → (∀ b ∈ p.before, b = early ∨ b = late) → Circling n p
  | wide : p.limit = min (n * 2) greatestCount → p.before = some late → Circling n p

/-- The page that answers a request of the circle. -/
def circlePage (n : Nat) (p : Paging) : List RunSummary :=
  newestFirst (usable ((twoTimes n n).take p.limit))

/-- The page holds all runs of the later time, and of the earlier ones as many as fit. -/
theorem mem_circlePage {run : RunSummary} (least : n ≤ p.limit) (most : p.limit ≤ n + n) :
    run ∈ circlePage n p ↔ run ∈ runsAt late 0 n ∨ run ∈ runsAt early n (p.limit - n) := by
  rw [circlePage, take_twoTimes least most, usable_twoTimes, mem_newestFirst, List.mem_append]

theorem length_circlePage (least : n ≤ p.limit) (most : p.limit ≤ n + n) :
    (circlePage n p).length = p.limit := by
  rw [circlePage, take_twoTimes least most, usable_twoTimes, length_newestFirst, List.length_append,
    length_runsAt, length_runsAt]
  omega

/-- A page of the smaller limit holds only runs of the later time. -/
theorem oldest_of_narrow {o : Instant} (same : p.limit = n)
    (isOldest : IsOldest (circlePage n p) o) : o = late := by
  obtain ⟨run, member, rfl⟩ := isOldest.mem
  rcases (mem_circlePage (by omega) (by omega)).mp member with first | second
  · exact updateTime_of_mem first
  · rw [same, Nat.sub_self] at second
    cases second

/-- A wider page reaches the earlier time. -/
theorem oldest_of_wide {o : Instant} (least : n < p.limit) (most : p.limit ≤ n + n)
    (isOldest : IsOldest (circlePage n p) o) : o = early := by
  obtain ⟨run, member, rfl⟩ := isOldest.mem
  rcases (mem_circlePage (Nat.le_of_lt least) most).mp member with first | second
  · have known : (⟨nameOf n, "", early, []⟩ : RunSummary) ∈ runsAt early n (p.limit - n) :=
      List.mem_map.mpr ⟨n, List.mem_range'_1.mpr (by omega), rfl⟩
    have below := isOldest.le _ ((mem_circlePage (Nat.le_of_lt least) most).mpr (.inr known))
    rw [updateTime_of_mem first] at below
    exact absurd (show late ≤ early from below) (by decide)
  · exact updateTime_of_mem second

/-- From any point of the circle the search goes on to another one. -/
theorem circling_advance (size : n = max pageSize 1) (narrow : pageSize < greatestCount)
    (circling : Circling n p) :
    ∃ next, Circling n next ∧
      p.advance pageSize (floorOf none) (circlePage n p) = .request next := by
  have greatest : 1 < greatestCount := by decide
  have listed (full : (circlePage n p).length = p.limit) (some_run : 0 < p.limit) :
      circlePage n p ≠ [] := by
    intro none
    rw [none, List.length_nil] at full
    omega
  cases circling with
  | narrow limit known =>
    have oldest (o : Instant) := oldest_of_narrow (o := o) limit
    have full := length_circlePage (n := n) (p := p) (by omega) (by omega)
    have listed := listed full (by omega)
    cases same : p.before == some late with
    | false =>
      refine ⟨_, ?_, Paging.advance_eq_moved (Nat.le_of_eq full.symm) listed oldest same⟩
      refine .narrow size.symm ?_
      rintro _ ⟨⟩
      exact .inr rfl
    | true =>
      have room : p.limit < widest pageSize := by
        unfold widest widestPages
        omega
      refine ⟨_, ?_, Paging.advance_eq_widened (Nat.le_of_eq full.symm) listed oldest same room⟩
      refine .wide (by rw [limit]) ?_
      obtain ⟨b, isBound, sameTime⟩ := Instant.beq_some_iff.mp same
      rcases known b isBound with rfl | rfl
      · exact absurd sameTime (by decide)
      · exact isBound
  | wide limit isBound =>
    have least : n < p.limit := by omega
    have most : p.limit ≤ n + n := by omega
    have oldest (o : Instant) := oldest_of_wide (o := o) least most
    have full := length_circlePage (Nat.le_of_lt least) most
    have listed := listed full (by omega)
    have different : (p.before == some early) = false := by
      rw [isBound]
      decide
    refine ⟨_, ?_, Paging.advance_eq_moved (Nat.le_of_eq full.symm) listed oldest different⟩
    refine .narrow size.symm ?_
    rintro _ ⟨⟩
    exact .inl rfl

/-- Every bound on the circle can be sent. -/
theorem boundToSend_of_circling (circling : Circling n p) :
    ∃ sent, boundToSend p.before = .ok sent := by
  cases isBound : p.before with
  | none => exact ⟨none, rfl⟩
  | some b =>
    have known : b = early ∨ b = late := by
      cases circling with
      | narrow _ known => exact known b isBound
      | wide _ same => exact .inr (Option.some.inj (isBound.symm.trans same))
    rcases known with rfl | rfl <;> exact ⟨_, rfl⟩

/-- However many listings it may ask for, a search in circles asks for all of them. -/
theorem exists_endless (c : Connection) (size : n = max pageSize 1)
    (narrow : pageSize < greatestCount) (fuel : Nat) (circling : Circling n p) :
    ∃ exchanges, (∀ e ∈ exchanges, Honest c (twoTimes n n) none e) ∧
      (collect (Graphql.engine wire c) pageSize none fuel p : Wired _).run.Runs exchanges
        (.ok (.ok none)) := by
  induction fuel generalizing p with
  | zero => exact ⟨[], fun e member => absurd member List.not_mem_nil, .done _⟩
  | succ fuel ih =>
    obtain ⟨next, onwards, step⟩ := circling_advance size narrow circling
    obtain ⟨sent, bounded⟩ := boundToSend_of_circling circling
    obtain ⟨rest, honest, run⟩ := ih onwards
    refine ⟨listed c p.limit sent (twoTimes n n) :: rest, fun e member => ?_,
      runs_collect_of_request bounded order_twoTimes step run⟩
    rcases List.mem_cons.mp member with rfl | later
    · exact honest_listed order_twoTimes usable_twoTimes
    · exact honest e later

/-! ## The condition -/

/-- On all servers at rest on which fewer than `k` runs follow a run within a millisecond the search
ends, exactly if a page has room for `k` runs or cannot be made wider. -/
theorem ends_iff (c : Connection) (pageSize k : Nat) :
    (∀ entries cursor, ((usable entries).map (·.runId)).Nodup → Spread k (usable entries) →
        Ends c pageSize cursor entries) ↔
      k ≤ max pageSize 1 ∨ greatestCount ≤ pageSize := by
  constructor
  · intro ends
    by_contra tight
    obtain ⟨more, narrow⟩ := not_or.mp tight
    obtain ⟨most, ended⟩ := ends (twoTimes (max pageSize 1) (max pageSize 1)) none
      (nodup_twoTimes _) (spread_twoTimes (Nat.lt_of_not_le more))
    obtain ⟨exchanges, honest, run⟩ := exists_endless c rfl (Nat.lt_of_not_le narrow) most
      (p := .start pageSize) (.narrow rfl nofun)
    exact (ended most (Nat.le_refl _) exchanges _ run honest).1 rfl
  · intro condition entries cursor _ spread
    have ends : Spread (max pageSize 1) (usable entries) ∨ widest pageSize ≤ max pageSize 1 := by
      refine condition.imp (fun fits run member => Nat.lt_of_lt_of_le (spread run member) fits) ?_
      intro great
      unfold widest
      omega
    refine ⟨remaining pageSize (usable entries) (.start pageSize) + 1,
      fun fuel enough exchanges result run honest => ?_⟩
    exact ends_of_falling ends (.start pageSize _) (by omega) run honest

end RunLedger.Interleaving
