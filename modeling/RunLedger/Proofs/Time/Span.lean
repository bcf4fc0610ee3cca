import Mathlib.Algebra.Group.Nat.Defs
import RunLedger.Text.Digits

/-!
# Spans of time in words

A span of time is kept in two words: its whole seconds, and the nanoseconds beyond them. Its
operations work on words of 64 and 32 bits; what they do is told by the number of nanoseconds. A
product may be too long for a span, and then there is none.
-/

namespace RunLedger

/-! ## Words -/

/-- The product of two words, if it is a word. -/
def product? (a b : UInt64) : Option UInt64 :=
  if a.toNat * b.toNat < 2 ^ 64 then some (a * b) else none

/-- The sum of two words, if it is a word. -/
def sum? (a b : UInt64) : Option UInt64 :=
  if a.toNat + b.toNat < 2 ^ 64 then some (a + b) else none

/-- The difference of two words, if it is a word. -/
def difference? (a b : UInt32) : Option UInt32 := if b ≤ a then some (a - b) else none

/-- A power of two; one that is no word counts as the greatest word. -/
def powerOfTwo (n : UInt32) : UInt32 := if n < 32 then 1 <<< n else 4294967295

/-- A product of words is exact, or it does not fit and is refused. -/
theorem product?_cases (a b : UInt64) :
    (a.toNat * b.toNat < 2 ^ 64 ∧ ∃ c, product? a b = some c ∧ c.toNat = a.toNat * b.toNat) ∨
      (2 ^ 64 ≤ a.toNat * b.toNat ∧ product? a b = none) := by
  unfold product?
  split
  · rename_i small
    exact .inl ⟨small, _, rfl, by rw [UInt64.toNat_mul, Nat.mod_eq_of_lt small]⟩
  · rename_i large
    exact .inr ⟨Nat.le_of_not_lt large, rfl⟩

theorem sum?_cases (a b : UInt64) :
    (a.toNat + b.toNat < 2 ^ 64 ∧ ∃ c, sum? a b = some c ∧ c.toNat = a.toNat + b.toNat) ∨
      (2 ^ 64 ≤ a.toNat + b.toNat ∧ sum? a b = none) := by
  unfold sum?
  split
  · rename_i small
    exact .inl ⟨small, _, rfl, by rw [UInt64.toNat_add, Nat.mod_eq_of_lt small]⟩
  · rename_i large
    exact .inr ⟨Nat.le_of_not_lt large, rfl⟩

/-- A difference that is not negative is exact. -/
theorem difference?_of_le {a b : UInt32} (le : b ≤ a) :
    ∃ c, difference? a b = some c ∧ c.toNat = a.toNat - b.toNat :=
  ⟨a - b, if_pos le, UInt32.toNat_sub_of_le a b le⟩

/-- A power of two is exact below 32, and from there on the greatest word. -/
theorem toNat_powerOfTwo (n : UInt32) :
    (powerOfTwo n).toNat = if n.toNat < 32 then 2 ^ n.toNat else wordCount 32 - 1 := by
  unfold powerOfTwo
  by_cases small : n < 32
  · have below : n.toNat < 32 := UInt32.lt_iff_toNat_lt.mp small
    rw [if_pos small, if_pos below, UInt32.toNat_shiftLeft, Nat.mod_eq_of_lt below,
      UInt32.toNat_one, Nat.shiftLeft_eq, Nat.one_mul]
    exact Nat.mod_eq_of_lt (Nat.pow_lt_pow_right (by decide) below)
  · have above : ¬ n.toNat < 32 := fun below => small (UInt32.lt_iff_toNat_lt.mpr below)
    rw [if_neg small, if_neg above]
    rfl

/-! ## Spans -/

/-- Whole seconds, and the nanoseconds beyond them. -/
structure Span where
  seconds : UInt64
  nanos : UInt32
  nanos_lt : nanos.toNat < 1000000000

namespace Span

variable {d : Span} {factor : UInt32}

def nanoseconds (d : Span) : Nat := d.seconds.toNat * 1000000000 + d.nanos.toNat

def ofSeconds (seconds : UInt64) : Span := ⟨seconds, 0, by decide⟩

/-- The milliseconds past the last second, in nanoseconds, fit into a word. -/
theorem toNat_nanosOf (ms : UInt64) :
    ((ms % 1000).toUInt32 * 1000000).toNat = ms.toNat % 1000 * 1000000 := by
  have word : (ms % 1000).toNat = ms.toNat % 1000 := UInt64.toNat_mod ms 1000
  have small : ms.toNat % 1000 < 1000 := Nat.mod_lt _ (by decide)
  rw [UInt32.toNat_mul, UInt64.toNat_toUInt32, word]
  change ms.toNat % 1000 % 2 ^ 32 * 1000000 % 2 ^ 32 = _
  omega

def ofMilliseconds (ms : UInt64) : Span where
  seconds := ms / 1000
  nanos := (ms % 1000).toUInt32 * 1000000
  nanos_lt := by
    have small : ms.toNat % 1000 < 1000 := Nat.mod_lt _ (by decide)
    rw [toNat_nanosOf]
    omega

/-- The nanoseconds of a product that come of the nanoseconds of a span. -/
def smallProduct (d : Span) (factor : UInt32) : UInt64 := d.nanos.toUInt64 * factor.toUInt64

/-- The nanoseconds of a span times a factor fit into a word. -/
theorem toNat_smallProduct (d : Span) (factor : UInt32) :
    (d.smallProduct factor).toNat = d.nanos.toNat * factor.toNat := by
  have bound : d.nanos.toNat * factor.toNat < 1000000000 * 2 ^ 32 :=
    Nat.mul_lt_mul'' d.nanos_lt factor.toNat_lt
  rw [smallProduct, UInt64.toNat_mul, UInt32.toNat_toUInt64, UInt32.toNat_toUInt64]
  exact Nat.mod_eq_of_lt (Nat.lt_trans bound (by decide))

/-- What is left of that product below a second fits into a half word. -/
theorem toNat_smallProduct_mod (d : Span) (factor : UInt32) :
    (d.smallProduct factor % 1000000000).toUInt32.toNat =
      d.nanos.toNat * factor.toNat % 1000000000 := by
  have word : (d.smallProduct factor % 1000000000).toNat =
      d.nanos.toNat * factor.toNat % 1000000000 := by
    rw [UInt64.toNat_mod, toNat_smallProduct]
    rfl
  rw [UInt64.toNat_toUInt32, word]
  exact Nat.mod_eq_of_lt (Nat.lt_trans (Nat.mod_lt _ (by decide)) (by decide))

/-- A span taken a number of times. -/
def times? (d : Span) (factor : UInt32) : Option Span := do
  let seconds ← product? d.seconds factor.toUInt64
  let seconds ← sum? seconds (d.smallProduct factor / 1000000000)
  some
    { seconds := seconds
      nanos := (d.smallProduct factor % 1000000000).toUInt32
      nanos_lt := by
        rw [toNat_smallProduct_mod]
        exact Nat.mod_lt _ (by decide) }

/-- The shorter of two spans. -/
def shorter (a b : Span) : Span :=
  if a.seconds < b.seconds ∨ (a.seconds = b.seconds ∧ a.nanos ≤ b.nanos) then a else b

/-- A span given in milliseconds has as many nanoseconds as that. -/
theorem nanoseconds_ofMilliseconds (ms : UInt64) :
    (ofMilliseconds ms).nanoseconds = ms.toNat * 1000000 := by
  change (ms / 1000).toNat * 1000000000 + ((ms % 1000).toUInt32 * 1000000).toNat = _
  rw [toNat_nanosOf, UInt64.toNat_div]
  change ms.toNat / 1000 * 1000000000 + _ = _
  omega

/-- A multiple of a span, seconds and nanoseconds apart. -/
theorem nanoseconds_mul (d : Span) (factor : UInt32) :
    d.nanoseconds * factor.toNat =
      d.seconds.toNat * factor.toUInt64.toNat * 1000000000 + d.nanos.toNat * factor.toNat := by
  rw [nanoseconds, Nat.add_mul, Nat.mul_right_comm, UInt32.toNat_toUInt64]

/-- A product is exact, or it is too long for a span. -/
theorem map_nanoseconds_times? (d : Span) (factor : UInt32) :
    (d.times? factor).map nanoseconds =
      if d.nanoseconds * factor.toNat < wordCount 64 * 1000000000
      then some (d.nanoseconds * factor.toNat) else none := by
  rw [nanoseconds_mul, show wordCount 64 = 2 ^ 64 from rfl]
  have carried : (d.smallProduct factor / 1000000000).toNat =
      d.nanos.toNat * factor.toNat / 1000000000 := by
    rw [UInt64.toNat_div, toNat_smallProduct]
    rfl
  unfold times?
  rcases product?_cases d.seconds factor.toUInt64 with ⟨_, whole, isWhole, exact⟩ | ⟨large, isNone⟩
  · rw [isWhole, ← exact, Option.bind_eq_bind, Option.bind_some]
    rcases sum?_cases whole (d.smallProduct factor / 1000000000) with
      ⟨small, total, isTotal, exact⟩ | ⟨large, isNone⟩
    · rw [carried] at small exact
      rw [isTotal, Option.bind_some, Option.map_some, if_pos (by omega), nanoseconds,
        toNat_smallProduct_mod, exact, Option.some_inj]
      omega
    · rw [carried] at large
      rw [isNone, if_neg (by omega)]
      rfl
  · rw [isNone, if_neg (by omega)]
    rfl

theorem nanoseconds_shorter (a b : Span) :
    (a.shorter b).nanoseconds = min a.nanoseconds b.nanoseconds := by
  have first := a.nanos_lt
  have second := b.nanos_lt
  unfold shorter nanoseconds
  split
  · rename_i before
    rw [UInt64.lt_iff_toNat_lt, UInt32.le_iff_toNat_le, ← UInt64.toNat_inj] at before
    omega
  · rename_i behind
    rw [UInt64.lt_iff_toNat_lt, UInt32.le_iff_toNat_le, ← UInt64.toNat_inj] at behind
    omega

end Span

end RunLedger
