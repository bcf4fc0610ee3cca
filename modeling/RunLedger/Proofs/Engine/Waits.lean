import RunLedger.Config.Basic
import RunLedger.Proofs.Time.Span

/-!
# The waits of a policy

The factor of a wait stops at the greatest 32-bit word, and a wait that cannot be expressed counts
as the cap. Neither shows if the greatest factor reaches the cap: then the waits are the base
doubled again and again, cut off at the cap (`Backoff.delay_exact_iff`). Every configured policy is
of that kind, because a base is a whole number of milliseconds and the cap is five seconds.
-/

namespace RunLedger

namespace Backoff

variable {p : Backoff}

/-- The factor of a wait: a power of two that stops at the greatest 32-bit word. -/
def factor (doublings : Nat) : Nat := if doublings < 32 then 2 ^ doublings else wordCount 32 - 1

/-- A wait is the base times a power of two, but not above the cap. -/
theorem delay_succ (p : Backoff) (n : Nat) :
    p.delay (n + 1) =
      if p.base * factor n < waitBound then min (p.base * factor n) p.cap else p.cap :=
  rfl

/-- A wait is cut off at the cap, whether or not it can be expressed. -/
theorem delay_succ_eq_min (expressible : p.cap ≤ waitBound) (n : Nat) :
    p.delay (n + 1) = min (p.base * factor n) p.cap := by
  rw [delay_succ]
  split
  · rfl
  · rename_i large
    exact (Nat.min_eq_right (Nat.le_trans expressible (Nat.le_of_not_lt large))).symm

/-- No wait is longer than the cap. -/
theorem delay_le_cap (p : Backoff) (n : Nat) : p.delay n ≤ p.cap := by
  cases n with
  | zero => exact Nat.zero_le _
  | succ n =>
    rw [delay_succ]
    split
    · exact Nat.min_le_right ..
    · exact Nat.le_refl _

/-- The waits are the base doubled again and again and cut off at the cap exactly if there is no
base to double or the greatest factor reaches the cap. -/
theorem delay_exact_iff (expressible : p.cap ≤ waitBound) :
    (∀ n, p.delay (n + 1) = min (p.base * 2 ^ n) p.cap) ↔
      p.base = 0 ∨ p.cap ≤ p.base * (wordCount 32 - 1) := by
  constructor
  · intro exact
    by_cases none : p.base = 0
    · exact .inl none
    · refine .inr (Nat.le_of_not_lt fun below => ?_)
      -- The first wait whose factor has stopped falls short.
      have stopped : p.base * (wordCount 32 - 1) < p.base * 2 ^ 32 :=
        Nat.mul_lt_mul_of_pos_left (by decide) (Nat.pos_of_ne_zero none)
      have wait := (delay_succ_eq_min expressible 32).symm.trans (exact 32)
      rw [show factor 32 = wordCount 32 - 1 from rfl, Nat.min_eq_left (Nat.le_of_lt below)] at wait
      exact absurd wait (Nat.ne_of_lt (Nat.lt_min.mpr ⟨stopped, below⟩))
  · intro reaches n
    rw [delay_succ_eq_min expressible, factor]
    split
    · rfl
    · rename_i late
      have greater : wordCount 32 - 1 ≤ 2 ^ n :=
        Nat.le_trans (Nat.sub_le ..) (Nat.pow_le_pow_right (by decide) (Nat.le_of_not_lt late))
      rcases reaches with none | reaches
      · rw [none, Nat.zero_mul, Nat.zero_mul]
      · rw [Nat.min_eq_right reaches,
          Nat.min_eq_right (Nat.le_trans reaches (Nat.mul_le_mul_left _ greater))]

/-- Waits that are exact never get shorter. -/
theorem delay_le_delay (exact : ∀ n, p.delay (n + 1) = min (p.base * 2 ^ n) p.cap) {m n : Nat}
    (le : m ≤ n) : p.delay m ≤ p.delay n := by
  cases m with
  | zero => exact Nat.zero_le _
  | succ m =>
    have positive : 0 < n := Nat.lt_of_lt_of_le m.succ_pos le
    obtain ⟨n, rfl⟩ := Nat.exists_eq_succ_of_ne_zero (Nat.ne_of_gt positive)
    have doubled : p.base * 2 ^ m ≤ p.base * 2 ^ n :=
      Nat.mul_le_mul_left _ (Nat.pow_le_pow_right (by decide) (Nat.le_of_succ_le_succ le))
    rw [exact, Nat.succ_eq_add_one, exact]
    exact Nat.le_min.mpr ⟨Nat.le_trans (Nat.min_le_left ..) doubled, Nat.min_le_right ..⟩

/-! ## Waits in words -/

/-- The wait before a repetition, worked out in words. There is no result if a difference is no
word. -/
def wordDelay (base cap : Span) (retry : UInt32) : Option Span :=
  if retry = 0 then some (.ofSeconds 0)
  else do
    let doublings ← difference? retry 1
    match base.times? (powerOfTwo doublings) with
    | some wait => some (wait.shorter cap)
    | none => some cap

/-- Working out a wait in words always comes to an end, and gives the wait of the policy. -/
theorem wordDelay_exact {base cap : Span} (isBase : p.base = base.nanoseconds)
    (isCap : p.cap = cap.nanoseconds) (retry : UInt32) :
    ∃ wait, wordDelay base cap retry = some wait ∧ wait.nanoseconds = p.delay retry.toNat := by
  unfold wordDelay
  by_cases first : retry = 0
  · subst first
    exact ⟨_, rfl, rfl⟩
  · have positive : retry.toNat ≠ 0 := fun zero => first (UInt32.toNat_inj.mp zero)
    have le : 1 ≤ retry := UInt32.le_iff_toNat_le.mpr (Nat.pos_of_ne_zero positive)
    obtain ⟨doublings, isDifference, exact⟩ := difference?_of_le le
    have number : retry.toNat = doublings.toNat + 1 := by
      rw [exact]
      exact (Nat.sub_add_cancel (UInt32.le_iff_toNat_le.mp le)).symm
    have product : (base.times? (powerOfTwo doublings)).map Span.nanoseconds =
        if p.base * factor doublings.toNat < waitBound
        then some (p.base * factor doublings.toNat) else none := by
      rw [base.map_nanoseconds_times?, toNat_powerOfTwo, isBase]
      rfl
    rw [if_neg first, isDifference, number, delay_succ, Option.bind_eq_bind, Option.bind_some]
    cases taken : base.times? (powerOfTwo doublings) with
    | some wait =>
      rw [taken] at product
      split at product
      · rename_i small
        refine ⟨_, rfl, ?_⟩
        rw [Span.nanoseconds_shorter, if_pos small, Option.some.inj product, isCap]
      · cases product
    | none =>
      rw [taken] at product
      split at product
      · cases product
      · rename_i large
        exact ⟨_, rfl, by rw [if_neg large, isCap]⟩

end Backoff

/-! ## Configured policies -/

/-- The policy of a connection is that of its configuration, with the usual cap. -/
theorem Config.backoff_of_connection {c : Config} {link : Graphql.Connection}
    (connected : c.connection = .ok link) :
    link.backoff =
      { maxRetries := c.engine.maxRetries, base := c.engine.backoffBaseMs * 1000000 } := by
  unfold connection at connected
  split at connected <;> cases connected
  rfl

open Backoff in
/-- For every configured base the waits are the base doubled again and again in exact arithmetic and
cut off at five seconds. So they never get shorter and none is longer than that, and working them
out in words always comes to an end. -/
theorem Config.delay_exact {c : Config} {link : Graphql.Connection} {ms : UInt64}
    (connected : c.connection = .ok link) (configured : c.engine.backoffBaseMs = ms.toNat) :
    (∀ n : UInt32, 1 ≤ n → link.backoff.delay n.toNat =
      min (ms.toNat * 1000000 * 2 ^ (n.toNat - 1)) 5000000000) ∧
    (∀ m n : UInt32, m ≤ n →
      link.backoff.delay m.toNat ≤ link.backoff.delay n.toNat) ∧
    (∀ n : UInt32, link.backoff.delay n.toNat ≤ 5000000000) ∧
    (∀ n : UInt32, ∃ wait, wordDelay (.ofMilliseconds ms) (.ofSeconds 5) n = some wait ∧
      wait.nanoseconds = link.backoff.delay n.toNat) := by
  have base : link.backoff.base = ms.toNat * 1000000 := by
    rw [backoff_of_connection connected, configured]
  have cap : link.backoff.cap = 5000000000 := by rw [backoff_of_connection connected]
  have reaches : link.backoff.base = 0 ∨
      link.backoff.cap ≤ link.backoff.base * (wordCount 32 - 1) := by
    rw [base, cap, show wordCount 32 - 1 = 4294967295 from rfl]
    omega
  have expressible : link.backoff.cap ≤ waitBound := by
    rw [cap]
    decide
  have exact := (delay_exact_iff expressible).mpr reaches
  refine ⟨fun n positive => ?_, fun m n le => ?_, fun n => cap ▸ delay_le_cap _ _, fun n => ?_⟩
  · have number : n.toNat = n.toNat - 1 + 1 :=
      (Nat.sub_add_cancel (UInt32.le_iff_toNat_le.mp positive)).symm
    rw [number, exact, base, cap, Nat.add_sub_cancel]
  · exact delay_le_delay exact (UInt32.le_iff_toNat_le.mp le)
  · refine wordDelay_exact ?_ ?_ n
    · rw [base, Span.nanoseconds_ofMilliseconds]
    · rw [cap]
      rfl

/-- The greatest base that can be configured. -/
def Config.slowest : Config :=
  { engine := { baseUrl := some "http://engine", backoffBaseMs := 18446744073709551615 } }

/-- The product of the greatest base and the greatest factor is no span of time. -/
theorem Config.delay_exact_slowest : ∃ link, slowest.connection = .ok link ∧
    slowest.engine.backoffBaseMs = UInt64.toNat 18446744073709551615 ∧
    Span.times? (.ofMilliseconds 18446744073709551615) 4294967295 = none ∧
    link.backoff.delay (UInt32.toNat 40) =
      min (UInt64.toNat 18446744073709551615 * 1000000 * 2 ^ 39) 5000000000 ∧
    (∃ wait, Backoff.wordDelay (.ofMilliseconds 18446744073709551615) (.ofSeconds 5) 4294967295 =
      some wait ∧ wait.nanoseconds = link.backoff.delay (UInt32.toNat 4294967295)) := by
  have connected : ∃ link, slowest.connection = .ok link := ⟨_, rfl⟩
  obtain ⟨link, connected⟩ := connected
  have configured : slowest.engine.backoffBaseMs = UInt64.toNat 18446744073709551615 := rfl
  obtain ⟨exact, _, _, worked⟩ := delay_exact connected configured
  exact ⟨link, connected, configured, by decide, exact 40 (by decide), worked 4294967295⟩

end RunLedger
