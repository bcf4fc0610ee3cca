import Mathlib.Data.List.Basic
import RunLedger.Proofs.Graphql.Server
import RunLedger.Proofs.Json.RoundTrip

/-!
# Answers in text

What a server writes and what the client reads from it: listings of entries, and the news that a run
does not exist.
-/

namespace RunLedger.Interleaving

open RunLedger.Json (Plain PlainKeys Unescaped)
open RunLedger.Time (Instant)
open RunLedger.Graphql (Response)

variable {entries : List Json}

/-- The answer with a document. -/
def answerWith (j : Json) : Except String Response := .ok ⟨200, j.compact⟩

/-- The document of an answer is read back. -/
theorem readResponse_answerWith {j : Json} (plain : Plain Json.maxDepth j) :
    Graphql.readResponse (answerWith j) = .ok j := by
  simp [answerWith, Graphql.readResponse, Json.read?_compact plain]

/-! ## Listings -/

/-- A document that lists entries. -/
def listingOf (entries : List Json) : Json :=
  .obj [("data", .obj [("runsOrError", .obj [("__typename", .str "Runs"),
    ("results", .arr entries)])])]

/-- An entry that the client can read, if only to pass over it, and that is written without
escapes. -/
structure Written (entry : Json) : Prop where
  plain : ∀ depth, Plain (depth + 1) entry
  readable : (Graphql.asEntry? entry).isSome

theorem plain_listingOf (written : ∀ entry ∈ entries, Written entry) :
    Plain Json.maxDepth (listingOf entries) := by
  have results : Plain 124 (.arr entries) := .arr fun entry member => (written entry member).plain _
  have typename {depth : Nat} : Plain depth (.str "Runs") := .str (by decide +kernel)
  have list : Plain 125 (.obj [("__typename", .str "Runs"), ("results", .arr entries)]) :=
    .ofMembers (show PlainKeys ["__typename", "results"] by decide +kernel)
      (List.forall_mem_cons.mpr ⟨typename, List.forall_mem_singleton.mpr results⟩)
  exact .one (by decide +kernel) (.one (by decide +kernel) list)

/-- Readable entries are read one by one. -/
theorem exists_mapM (readable : ∀ entry ∈ entries, (Graphql.asEntry? entry).isSome) :
    ∃ read, entries.mapM Graphql.asEntry? = some read := by
  induction entries with
  | nil => exact ⟨[], rfl⟩
  | cons entry rest ih =>
    obtain ⟨first, isFirst⟩ := Option.isSome_iff_exists.mp (readable entry (List.mem_cons_self ..))
    obtain ⟨later, isLater⟩ := ih fun e member => readable e (List.mem_cons_of_mem _ member)
    exact ⟨first :: later, by rw [List.mapM_cons, isFirst, isLater]; rfl⟩

/-- The answer that lists entries is read as the usable ones among them. -/
theorem decodeRunList_listingOf (written : ∀ entry ∈ entries, Written entry) :
    (Graphql.openEnvelope (listingOf entries)).bind Graphql.decodeRunList =
      .ok (newestFirst (usable entries)) := by
  obtain ⟨read, mapped⟩ := exists_mapM fun entry member => (written entry member).readable
  have list : Graphql.listOutcome? "Runs" (.obj [("results", .arr entries)]) =
      some (.ok (newestFirst (usable entries))) := by
    show Except.ok <$> (Graphql.listing <$> entries.mapM Graphql.asEntry?) = _
    rw [mapped, newestFirst, ← filterMap_of_mapM mapped]
    rfl
  have choice : Graphql.asChoice? "runsOrError" (.obj [("runsOrError",
      .obj [("__typename", .str "Runs"), ("results", .arr entries)])]) =
        some ("Runs", .obj [("results", .arr entries)]) := rfl
  show Graphql.decodeRunList (.obj [("runsOrError", _)]) = _
  rw [Graphql.decodeRunList, choice, Option.bind_some]
  dsimp only
  rw [list]

/-- The entries of a listing are those that were listed. -/
theorem entriesOf?_listingOf (written : ∀ entry ∈ entries, Written entry) :
    entriesOf? (answerWith (listingOf entries)) = some entries := by
  unfold entriesOf? dataOf
  rw [readResponse_answerWith (plain_listingOf written)]
  rfl

/-! ## Entries -/

/-- An entry with the name of a run and the text of its update time. -/
def entryOf (runId time : String) : Json := .obj [("runId", .str runId), ("updateTime", .str time)]

/-- An entry without an update time. -/
def timeless : Json := .obj [("runId", .str "")]

/-- The name of a run. -/
def nameOf (i : Nat) : String := .ofList (List.replicate i 'a')

/-- Different numbers give different names. -/
theorem nameOf_injective {i j : Nat} (same : nameOf i = nameOf j) : i = j := by
  have chars := congrArg (fun s => s.toList.length) same
  simpa [nameOf] using chars

/-- A text is read as a time. -/
structure Writes (text : String) (t : Instant) : Prop where
  unescaped : Unescaped text.toList
  reads : Time.epochSeconds? (.str text) = some t

theorem unescaped_nameOf (i : Nat) : Unescaped (nameOf i).toList := by
  intro ch member
  rw [nameOf, String.toList_ofList] at member
  rw [List.eq_of_mem_replicate member]
  decide

theorem written_entryOf {text : String} {t : Instant} (i : Nat) (writes : Writes text t) :
    Written (entryOf (nameOf i) text) where
  plain depth := .ofMembers (show PlainKeys ["runId", "updateTime"] by decide +kernel)
    (List.forall_mem_cons.mpr
      ⟨.str (unescaped_nameOf i), List.forall_mem_singleton.mpr (.str writes.unescaped)⟩)
  readable := rfl

/-- An entry with a readable time stands for the run that it names. -/
theorem usable?_entryOf {text : String} {t : Instant} (i : Nat) (writes : Writes text t) :
    usable? (entryOf (nameOf i) text) = some ⟨nameOf i, "", t, []⟩ := by
  have noTags : Graphql.tagsOf [] = [] := rfl
  simp [usable?, entryOf, Graphql.asEntry?, Json.asRecord?, Json.Record.defaulted,
    Json.Members.get?, List.lookup_cons, List.lookup_nil, Json.nullable, Json.asString?,
    Json.asDocument?, Graphql.timeOf, writes.reads, noTags]

theorem written_timeless : Written timeless where
  plain depth := .one (by decide +kernel) (.str (by decide +kernel))
  readable := rfl

theorem usable?_timeless : usable? timeless = none := rfl

/-- Entries for runs of one time, named by consecutive numbers. -/
def entriesAt (text : String) (start count : Nat) : List Json :=
  (List.range' start count).map fun i => entryOf (nameOf i) text

/-- The runs that these entries stand for. -/
def runsAt (t : Instant) (start count : Nat) : List RunSummary :=
  (List.range' start count).map fun i => ⟨nameOf i, "", t, []⟩

section EntriesAt

variable {text : String} {t : Instant} {start count : Nat}

theorem written_entriesAt (writes : Writes text t) :
    ∀ entry ∈ entriesAt text start count, Written entry := by
  intro entry member
  obtain ⟨i, _, rfl⟩ := List.mem_map.mp member
  exact written_entryOf i writes

/-- Entries of one time stand for as many runs of that time. -/
theorem usable_entriesAt (writes : Writes text t) :
    usable (entriesAt text start count) = runsAt t start count := by
  rw [usable, entriesAt, runsAt, List.filterMap_map, ← List.filterMap_eq_map]
  exact List.filterMap_congr fun i _ => usable?_entryOf i writes

theorem updateTime?_of_mem (writes : Writes text t) {entry : Json}
    (member : entry ∈ entriesAt text start count) : updateTime? entry = some t := by
  obtain ⟨i, _, rfl⟩ := List.mem_map.mp member
  rw [updateTime?, usable?_entryOf i writes]
  rfl

theorem take_entriesAt {limit : Nat} (few : limit ≤ count) :
    (entriesAt text start count).take limit = entriesAt text start limit := by
  rw [entriesAt, entriesAt, ← List.map_take, List.take_range'_of_length_ge few]

theorem length_entriesAt : (entriesAt text start count).length = count := by
  rw [entriesAt, List.length_map, List.length_range']

theorem length_runsAt : (runsAt t start count).length = count := by
  rw [runsAt, List.length_map, List.length_range']

theorem updateTime_of_mem {run : RunSummary} (member : run ∈ runsAt t start count) :
    run.updateTime = t := by
  obtain ⟨i, _, rfl⟩ := List.mem_map.mp member
  rfl

end EntriesAt

/-! ## Runs that do not exist -/

/-- The document that a run does not exist. -/
def missing : Json :=
  .obj [("data", .obj [("runOrError", .obj [("__typename", .str "RunNotFoundError")])])]

theorem plain_missing : Plain Json.maxDepth missing :=
  .one (by decide +kernel) (.one (by decide +kernel) (.one (by decide +kernel)
    (.str (by decide +kernel))))

/-- The news that a run does not exist lists nothing. -/
theorem entriesOf?_missing : entriesOf? (answerWith missing) = none := by
  unfold entriesOf? dataOf
  rw [readResponse_answerWith plain_missing]
  rfl

end RunLedger.Interleaving
