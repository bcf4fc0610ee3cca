import Mathlib.Data.List.Nodup
import RunLedger.Store.Basic

/-!
# Tables

The steps and the log entries of a store are tables: lists of rows, each under a key of its own. A
`Merging` says how items are merged into the rows of a table. What a batch of items makes of a row
depends on that row and the items with its key alone, so a batch that changes no row when it is
merged again changes no table.
-/

namespace RunLedger

/-- How items are merged into rows that are known by a key. -/
structure Merging (α ι K : Type) where
  key : α → K
  /-- The key of the row that an item is merged into. -/
  keyOf : ι → K
  /-- The row after an item, given the row before, if there is one. -/
  merge : Option α → ι → α
  key_merge : ∀ row item, (∀ r, row = some r → key r = keyOf item) →
    key (merge row item) = keyOf item

namespace Merging

variable {α ι K : Type} (m : Merging α ι K)

/-- What a batch makes of a row. -/
def mergeAll (row : Option α) (items : List ι) : Option α :=
  items.foldl (fun row item => some (m.merge row item)) row

/-- After an item there is a row. -/
theorem mergeAll_ne_none {items : List ι} (nonempty : items ≠ []) (row : Option α) :
    m.mergeAll row items ≠ none := by
  induction items generalizing row with
  | nil => exact absurd rfl nonempty
  | cons first rest ih =>
    cases rest with
    | nil => exact Option.some_ne_none _
    | cons second rest => exact ih (List.cons_ne_nil _ _) _

variable [DecidableEq K] {row : α} {rows rows' : List α} {k : K}

/-- The first row with a key. -/
def find (k : K) (rows : List α) : Option α := rows.find? fun r => decide (m.key r = k)

/-- A row put in place of the first row with its key. -/
def put (row : α) (rows : List α) : List α :=
  putRow (fun a b => decide (m.key a = m.key b)) row rows

/-- A table after an item. -/
def upsert (rows : List α) (item : ι) : List α :=
  m.put (m.merge (m.find (m.keyOf item) rows) item) rows

/-- A table after a batch of items. -/
def upsertAll (rows : List α) (items : List ι) : List α := items.foldl m.upsert rows

/-- The items with a key. -/
def itemsOf (k : K) (items : List ι) : List ι := items.filter fun item => decide (m.keyOf item = k)

/-- The first item is one of those for a key exactly if it has the key. -/
theorem itemsOf_cons (k : K) (item : ι) (items : List ι) :
    m.itemsOf k (item :: items) =
      if m.keyOf item = k then item :: m.itemsOf k items else m.itemsOf k items := by
  simp only [itemsOf, List.filter_cons, decide_eq_true_eq]

/-- A row that is found has the key that was looked for. -/
theorem key_of_find (found : m.find k rows = some row) : m.key row = k :=
  of_decide_eq_true (List.find?_some (p := fun r => decide (m.key r = k)) found)

/-- Nothing is found exactly for the keys that no row has. -/
theorem find_eq_none_iff : m.find k rows = none ↔ k ∉ rows.map m.key := by
  simp [find]

theorem find_cons (row : α) (rows : List α) (k : K) :
    m.find k (row :: rows) = if m.key row = k then some row else m.find k rows := by
  unfold find
  rw [List.find?_cons]
  by_cases same : m.key row = k
  · simp [same]
  · rw [if_neg same, decide_eq_false same]

/-- A row takes the place of the first one if that has its key, and otherwise goes further down. -/
theorem put_cons (row r : α) (rows : List α) :
    m.put row (r :: rows) = if m.key row = m.key r then row :: rows else r :: m.put row rows := by
  unfold put
  rw [putRow]
  by_cases same : m.key row = m.key r
  · simp [same]
  · simp [same]

/-- Reading after a write. -/
theorem find_put (row : α) (rows : List α) (k : K) :
    m.find k (m.put row rows) = if m.key row = k then some row else m.find k rows := by
  induction rows with
  | nil => exact m.find_cons row [] k
  | cons r rest ih =>
    rw [put_cons]
    by_cases same : m.key row = m.key r
    · rw [if_pos same, find_cons, find_cons, ← same]
      by_cases asked : m.key row = k <;> simp [asked]
    · rw [if_neg same, find_cons, find_cons, ih]
      by_cases asked : m.key row = k
      · rw [if_pos asked, if_neg (fun other => same (asked.trans other.symm)), if_pos asked]
      · rw [if_neg asked, if_neg asked]

/-- A write keeps the keys of a table and adds that of the row if it is new. -/
theorem map_key_put (row : α) (rows : List α) :
    (m.put row rows).map m.key =
      if m.key row ∈ rows.map m.key then rows.map m.key else rows.map m.key ++ [m.key row] := by
  induction rows with
  | nil => rfl
  | cons r rest ih =>
    rw [put_cons]
    by_cases same : m.key row = m.key r
    · simp [same]
    · rw [if_neg same, List.map_cons, ih]
      by_cases known : m.key row ∈ rest.map m.key
      · rw [if_pos known, if_pos (by exact List.mem_cons_of_mem _ known), List.map_cons]
      · rw [if_neg known, if_neg (by simp [same, known]), List.map_cons, List.cons_append]

/-- A row that is put takes the place of the one with its key, so keys stay distinct. -/
theorem nodup_put (row : α) (distinct : (rows.map m.key).Nodup) :
    ((m.put row rows).map m.key).Nodup := by
  rw [map_key_put]
  split
  · exact distinct
  · rename_i new
    rw [List.nodup_append_comm]
    exact List.nodup_cons.mpr ⟨new, distinct⟩

theorem mem_put {r : α} (member : r ∈ m.put row rows) : r = row ∨ r ∈ rows := by
  induction rows with
  | nil => exact .inl (List.mem_singleton.mp member)
  | cons first rest ih =>
    rw [put_cons] at member
    split at member
    · exact (List.mem_cons.mp member).imp_right (List.mem_cons_of_mem _)
    · rcases List.mem_cons.mp member with rfl | member
      · exact .inr (List.mem_cons_self ..)
      · exact (ih member).imp_right (List.mem_cons_of_mem _)

/-- Two tables with the same keys and the same row under each are the same. -/
theorem ext_of_find (keys : rows.map m.key = rows'.map m.key) (distinct : (rows.map m.key).Nodup)
    (same : ∀ k, m.find k rows = m.find k rows') : rows = rows' := by
  induction rows generalizing rows' with
  | nil => exact (List.map_eq_nil_iff.mp keys.symm).symm
  | cons r rest ih =>
    cases rows' with
    | nil => exact absurd keys (List.cons_ne_nil _ _)
    | cons r' rest' =>
      obtain ⟨headKey, restKeys⟩ := List.cons.inj keys
      have head : r = r' := by
        have row := same (m.key r)
        rw [find_cons, find_cons, if_pos rfl, if_pos headKey.symm] at row
        exact Option.some.inj row
      rw [List.map_cons, List.nodup_cons] at distinct
      refine congrArg₂ List.cons head (ih restKeys distinct.2 fun k => ?_)
      by_cases other : m.key r = k
      · -- The rest of neither table has the key of the first row.
        rw [m.find_eq_none_iff.mpr (other ▸ distinct.1),
          m.find_eq_none_iff.mpr (other ▸ restKeys ▸ distinct.1)]
      · have row := same k
        rwa [find_cons, find_cons, if_neg other, if_neg (headKey ▸ other)] at row

/-! ## Items and batches -/

/-- Merging into the row with the key of an item leaves a row with that key. -/
theorem key_merge_find (item : ι) (rows : List α) :
    m.key (m.merge (m.find (m.keyOf item) rows) item) = m.keyOf item :=
  m.key_merge _ item fun _ found => m.key_of_find found

/-- Merging an item changes what is found under its own key alone. -/
theorem find_upsert (rows : List α) (item : ι) (k : K) :
    m.find k (m.upsert rows item) =
      if m.keyOf item = k then some (m.merge (m.find k rows) item) else m.find k rows := by
  rw [upsert, find_put, key_merge_find]
  by_cases same : m.keyOf item = k
  · rw [if_pos same, if_pos same, same]
  · rw [if_neg same, if_neg same]

/-- What a batch makes of a row depends on the items with its key alone. -/
theorem find_upsertAll (rows : List α) (items : List ι) (k : K) :
    m.find k (m.upsertAll rows items) =
      m.mergeAll (m.find k rows) (m.itemsOf k items) := by
  induction items generalizing rows with
  | nil => rfl
  | cons item rest ih =>
    rw [upsertAll, List.foldl_cons, ← upsertAll, ih, find_upsert, itemsOf_cons]
    by_cases same : m.keyOf item = k
    · rw [if_pos same, if_pos same]
      rfl
    · rw [if_neg same, if_neg same]

/-- Merging items keeps the keys distinct. -/
theorem nodup_upsertAll (items : List ι) (distinct : (rows.map m.key).Nodup) :
    ((m.upsertAll rows items).map m.key).Nodup := by
  induction items generalizing rows with
  | nil => exact distinct
  | cons item rest ih => exact ih (m.nodup_put _ distinct)

/-- Items for keys that are there bring no new key. -/
theorem map_key_upsertAll {items : List ι} (known : ∀ item ∈ items, m.keyOf item ∈ rows.map m.key) :
    (m.upsertAll rows items).map m.key = rows.map m.key := by
  induction items generalizing rows with
  | nil => rfl
  | cons item rest ih =>
    have keys : (m.upsert rows item).map m.key = rows.map m.key := by
      rw [upsert, map_key_put, key_merge_find, if_pos (known item (List.mem_cons_self ..))]
    rw [upsertAll, List.foldl_cons, ← upsertAll, ih, keys]
    rw [keys]
    exact fun item member => known item (List.mem_cons_of_mem _ member)

/-- Every item has a row in the end. -/
theorem mem_map_key_upsertAll {items : List ι} {item : ι} (member : item ∈ items) (rows : List α) :
    m.keyOf item ∈ (m.upsertAll rows items).map m.key := by
  by_contra missing
  rw [← find_eq_none_iff, find_upsertAll] at missing
  have batch : item ∈ m.itemsOf (m.keyOf item) items :=
    List.mem_filter.mpr ⟨member, decide_eq_true rfl⟩
  exact m.mergeAll_ne_none (List.ne_nil_of_mem batch) _ missing

/-- Merging a batch again changes nothing, if it does not change any row. -/
theorem upsertAll_upsertAll {items : List ι} (distinct : (rows.map m.key).Nodup)
    (stable : ∀ k, m.mergeAll (m.mergeAll (m.find k rows) (m.itemsOf k items)) (m.itemsOf k items) =
      m.mergeAll (m.find k rows) (m.itemsOf k items)) :
    m.upsertAll (m.upsertAll rows items) items = m.upsertAll rows items := by
  have keys : (m.upsertAll (m.upsertAll rows items) items).map m.key =
      (m.upsertAll rows items).map m.key :=
    m.map_key_upsertAll fun item member => m.mem_map_key_upsertAll member rows
  refine m.ext_of_find keys (keys ▸ m.nodup_upsertAll items distinct) fun k => ?_
  rw [find_upsertAll, find_upsertAll]
  exact stable k

/-! ## The part of a table -/

section Part

variable (q : K → Bool)

theorem find_filter (rows : List α) (k : K) :
    m.find k (rows.filter fun r => q (m.key r)) = if q k then m.find k rows else none := by
  induction rows with
  | nil => simp [find]
  | cons r rest ih =>
    by_cases same : m.key r = k
    · by_cases inside : q k = true
      · simp [find_cons, same, inside]
      · simp [same, inside, ih]
    · by_cases kept : q (m.key r) = true
      · simp [find_cons, same, kept, ih]
      · simp [find_cons, same, kept, ih]

/-- A row that is put into a table is put into the part to which its key belongs. -/
theorem filter_put (row : α) (rows : List α) :
    (m.put row rows).filter (fun r => q (m.key r)) =
      if q (m.key row) then m.put row (rows.filter fun r => q (m.key r))
      else rows.filter fun r => q (m.key r) := by
  induction rows with
  | nil => by_cases inside : q (m.key row) = true <;> simp [put, putRow, inside]
  | cons r rest ih =>
    rw [put_cons]
    by_cases same : m.key row = m.key r
    · by_cases inside : q (m.key r) = true <;> simp [same, inside, put_cons]
    · by_cases kept : q (m.key r) = true <;> by_cases inside : q (m.key row) = true <;>
        simp_all [put_cons]

/-- A part of a table changes with the items that have their keys in it. -/
theorem filter_upsertAll (rows : List α) (items : List ι) :
    (m.upsertAll rows items).filter (fun r => q (m.key r)) =
      m.upsertAll (rows.filter fun r => q (m.key r))
        (items.filter fun item => q (m.keyOf item)) := by
  induction items generalizing rows with
  | nil => rfl
  | cons item rest ih =>
    have first : (m.upsert rows item).filter (fun r => q (m.key r)) =
        if q (m.keyOf item) then m.upsert (rows.filter fun r => q (m.key r)) item
        else rows.filter fun r => q (m.key r) := by
      rw [upsert, filter_put, key_merge_find]
      by_cases inside : q (m.keyOf item) = true
      · rw [if_pos inside, if_pos inside, upsert, find_filter, if_pos inside]
      · rw [if_neg inside, if_neg inside]
    rw [upsertAll, List.foldl_cons, ← upsertAll, ih, first, List.filter_cons]
    split <;> rfl

end Part

end Merging

end RunLedger
