import Mathlib.Data.List.Perm.Basic
import Mathlib.Data.List.Perm.Subperm
import RunLedger.Proofs.Time.Order

/-!
# Listings

A listing holds the newest of some entries, at most so many of them. Which entries of one time it
cuts off is left open, and so is the place of an entry that has no time. What a listing leaves out
is not newer than what it holds, and a listing that is not full leaves out nothing.
-/

namespace RunLedger.Sync

open RunLedger.Time (Instant)

variable {α : Type} {time : α → Option Instant} {limit : Nat} {entries page : List α} {a b : α}
  {s t : Instant}

/-- `b` may follow `a` in a listing: it is not newer, if both have a time. -/
def MayFollow (time : α → Option Instant) (a b : α) : Prop :=
  ∀ s ∈ time a, ∀ t ∈ time b, t ≤ s

/-- The first `limit` entries in an order that has the newest first. -/
def IsListing (time : α → Option Instant) (limit : Nat) (entries page : List α) : Prop :=
  ∃ order : List α, order.Perm entries ∧ order.Pairwise (MayFollow time) ∧ page = order.take limit

namespace IsListing

/-- A listing holds as many entries as there are, up to the limit. -/
theorem length_eq (listing : IsListing time limit entries page) :
    page.length = min limit entries.length := by
  obtain ⟨order, perm, _, rfl⟩ := listing
  rw [List.length_take, perm.length_eq]

/-- A listing holds entries only, and each as often as it occurs at most. -/
theorem subperm (listing : IsListing time limit entries page) : page.Subperm entries := by
  obtain ⟨order, perm, _, rfl⟩ := listing
  exact (List.take_sublist limit order).subperm.trans perm.subperm

theorem mem (listing : IsListing time limit entries page) (listed : a ∈ page) : a ∈ entries :=
  listing.subperm.subset listed

/-- A listing holds no more of a kind than there are. -/
theorem countP_le (listing : IsListing time limit entries page) (p : α → Bool) :
    page.countP p ≤ entries.countP p :=
  listing.subperm.countP_le p

/-- A listing that is not full holds everything. -/
theorem perm_of_short (listing : IsListing time limit entries page) (short : page.length < limit) :
    page.Perm entries := by
  obtain ⟨order, perm, _, rfl⟩ := listing
  rw [List.length_take] at short
  rw [List.take_of_length_le (by omega)]
  exact perm

/-- What a listing leaves out is not newer than what it holds. -/
theorem le_of_not_mem (listing : IsListing time limit entries page) (known : a ∈ entries)
    (unlisted : a ∉ page) (listed : b ∈ page) (aTime : time a = some t) (bTime : time b = some s) :
    t ≤ s := by
  obtain ⟨order, perm, sorted, rfl⟩ := listing
  have cut : a ∈ order.drop limit := by
    have member : a ∈ order.take limit ++ order.drop limit := by
      rw [List.take_append_drop]
      exact perm.symm.subset known
    exact (List.mem_append.mp member).resolve_left unlisted
  rw [← List.take_append_drop limit order] at sorted
  exact (List.pairwise_append.mp sorted).2.2 b listed a cut s bTime t aTime

/-- Fewer than `limit` entries are newer than a listed one. -/
theorem countP_newer_lt (listing : IsListing time limit entries page) (listed : b ∈ page)
    (bTime : time b = some s) {p : α → Bool}
    (newer : ∀ a, p a = true → ∃ t, time a = some t ∧ s < t) :
    entries.countP p < limit := by
  obtain ⟨order, perm, sorted, rfl⟩ := listing
  obtain ⟨first, last, split⟩ := List.append_of_mem listed
  have bound : first.length < limit := by
    have lengths := congrArg List.length split
    simp only [List.length_take, List.length_append, List.length_cons] at lengths
    omega
  have whole : order = first ++ b :: (last ++ order.drop limit) := by
    rw [← List.cons_append, ← List.append_assoc, ← split, List.take_append_drop]
  -- Neither the entry itself nor what follows it is newer.
  have none_after : (b :: (last ++ order.drop limit)).countP p = 0 := by
    rw [List.countP_eq_zero]
    intro a member isNewer
    obtain ⟨t, aTime, after⟩ := newer a isNewer
    rcases List.mem_cons.mp member with rfl | member
    · cases aTime.symm.trans bTime
      exact Int.lt_irrefl _ after
    · rw [whole] at sorted
      have follows := (List.pairwise_cons.mp (List.pairwise_append.mp sorted).2.1).1 a member
      exact Instant.not_lt.mpr (follows s bTime t aTime) after
  calc entries.countP p = order.countP p := (perm.countP_eq p).symm
    _ = first.countP p := by rw [whole, List.countP_append, none_after, Nat.add_zero]
    _ ≤ first.length := List.countP_le_length
    _ < limit := bound

end IsListing

end RunLedger.Sync
