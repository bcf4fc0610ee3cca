import RunLedger.Time.Instant

/-!
# The order of instants

Instants are compared by the point in time alone, so all comparisons are comparisons of
nanoseconds. The earliest and the latest of a list are members of it that bound it.
-/

namespace RunLedger.Time.Instant

variable {a b c t : Instant} {ts : List Instant}

theorem le_def : a ≤ b ↔ a.nanos ≤ b.nanos := Iff.rfl

theorem lt_def : a < b ↔ a.nanos < b.nanos := Iff.rfl

theorem beq_def : (a == b) = (a.nanos == b.nanos) := rfl

/-- Instants are taken to be equal if they are the same point in time, on whatever clock. -/
@[simp] theorem beq_iff : (a == b) = true ↔ a.nanos = b.nanos := by
  rw [beq_def, beq_iff_eq]

theorem not_lt : ¬ a < b ↔ b ≤ a := Int.not_lt

theorem not_le : ¬ a ≤ b ↔ b < a := Int.not_le

theorem lt_of_lt_of_le (first : a < b) (second : b ≤ c) : a < c :=
  Int.lt_of_lt_of_le first second

theorem lt_of_le_of_lt (first : a ≤ b) (second : b < c) : a < c :=
  Int.lt_of_le_of_lt first second

theorem le_trans (first : a ≤ b) (second : b ≤ c) : a ≤ c :=
  Int.le_trans first second

theorem le_of_lt (before : a < b) : a ≤ b := Int.le_of_lt before

/-- Two optional instants agree when both are absent or both are the same point in time. -/
theorem beq_some_iff {before : Option Instant} :
    (before == some t) = true ↔ ∃ b, before = some b ∧ b.nanos = t.nanos := by
  cases before with
  | none => simp
  | some b => simp

/-- A time that is not the bound itself and does not lie after it lies before it. -/
theorem lt_of_different {before : Option Instant} (different : (before == some t) = false)
    (bounded : ∀ b ∈ before, t ≤ b) : ∀ b ∈ before, t < b := by
  intro b isBound
  refine Int.lt_iff_le_and_ne.mpr ⟨bounded b isBound, fun same => ?_⟩
  have repeated := beq_some_iff.mpr ⟨b, isBound, same.symm⟩
  exact Bool.false_ne_true (different.symm.trans repeated)

/-- A fold that picks one of two instants at a time ends with one of them. -/
private theorem foldl_pick_mem {pick : Instant → Instant → Instant}
    (picks : ∀ a b, pick a b = a ∨ pick a b = b) (ts : List Instant) (first : Instant) :
    ts.foldl pick first ∈ first :: ts := by
  induction ts generalizing first with
  | nil => exact List.mem_singleton.mpr rfl
  | cons next rest ih =>
    rw [List.foldl_cons]
    rcases picks first next with same | same
    · rw [same]
      rcases List.mem_cons.mp (ih first) with found | found
      · exact List.mem_cons.mpr (.inl found)
      · exact List.mem_cons_of_mem _ (List.mem_cons_of_mem _ found)
    · rw [same]
      exact List.mem_cons_of_mem _ (ih next)

/-- If each pick is related to both instants, the last one is related to all of them. -/
private theorem foldl_pick_bound {pick : Instant → Instant → Instant}
    {R : Instant → Instant → Prop} (refl : ∀ a, R a a)
    (trans : ∀ {a b c}, R a b → R b c → R a c)
    (bounds : ∀ a b, R (pick a b) a ∧ R (pick a b) b) (ts : List Instant)
    (first : Instant) : ∀ t ∈ first :: ts, R (ts.foldl pick first) t := by
  induction ts generalizing first with
  | nil =>
    intro t member
    rw [List.mem_singleton.mp member]
    exact refl first
  | cons next rest ih =>
    have last := ih (pick first next)
    have picked := last _ (List.mem_cons_self ..)
    intro t member
    rw [List.foldl_cons]
    rcases List.mem_cons.mp member with rfl | member
    · exact trans picked (bounds t next).1
    · rcases List.mem_cons.mp member with rfl | member
      · exact trans picked (bounds first t).2
      · exact last t (List.mem_cons_of_mem _ member)

theorem earliest?_eq_none : earliest? ts = none ↔ ts = [] := by
  cases ts <;> simp [earliest?]

/-- The earliest instant is one of them. -/
theorem earliest?_mem (found : earliest? ts = some t) : t ∈ ts := by
  cases ts with
  | nil => cases found
  | cons first rest =>
    cases found
    exact foldl_pick_mem (fun a b => by split <;> simp) rest first

/-- The earliest instant is not after any other. -/
theorem earliest?_le (found : earliest? ts = some t) {u : Instant} (member : u ∈ ts) : t ≤ u := by
  cases ts with
  | nil => cases found
  | cons first rest =>
    cases found
    refine foldl_pick_bound (R := fun a b => a ≤ b) (fun a => Int.le_refl _) le_trans ?_ rest
      first u member
    intro a b
    split <;> simp only [le_def, lt_def] at * <;> omega

theorem latest?_eq_none : latest? ts = none ↔ ts = [] := by
  cases ts <;> simp [latest?]

/-- The latest of some instants is one of them. -/
theorem latest?_mem (found : latest? ts = some t) : t ∈ ts := by
  cases ts with
  | nil => cases found
  | cons first rest =>
    cases found
    exact foldl_pick_mem (fun a b => by unfold max; split <;> simp) rest first

/-- The latest instant is not before any other. -/
theorem le_latest? (found : latest? ts = some t) {u : Instant} (member : u ∈ ts) : u ≤ t := by
  cases ts with
  | nil => cases found
  | cons first rest =>
    cases found
    refine foldl_pick_bound (R := fun a b => b ≤ a) (fun a => Int.le_refl _)
      (fun later later' => le_trans later' later) ?_ rest first u member
    intro a b
    unfold max
    split <;> simp only [le_def, lt_def] at * <;> omega

end RunLedger.Time.Instant
