import RunLedger.Run.Codec

/-!
# Statuses in writing

A status leaves the ledger as a text: in a column of a table, in JSON, in an answer to a caller. The
engine speaks one vocabulary and the ledger another, and each of the two readers carries a word that
is not its own as `other`. So an engine's word that happens to be a word of the ledger is carried as
`other` first and becomes the ledger's own status when its text is read: an engine's `completed` is
no end of the run, and its text is one. `parse_text_ofEngine_iff` says that these words are the only
ones that do not survive; the text itself always does (`text_parse`).
-/

namespace RunLedger

namespace RunStatus

/-- The statuses for which the ledger has a word. -/
def known : List RunStatus :=
  [queued, running, cancelling, completed, failed, cancelled]

/-- The words of the ledger. -/
def words : List String :=
  known.map text

/-- The words of the ledger for a run that has ended. -/
def terminalWords : List String :=
  (known.filter isTerminal).map text

/-- The words of the engine that the ledger understands. -/
def engineWords : List String :=
  ["SUCCESS", "FAILURE", "CANCELED", "QUEUED", "NOT_STARTED", "STARTED", "STARTING", "RUNNING",
    "CANCELING"]

/-- The known statuses are all but the words that are carried along. -/
theorem mem_known_iff {status : RunStatus} : status ∈ known ↔ status.isOther = false := by
  cases status <;> simp [known, isOther]

/-- A known status is read back from its text. -/
theorem parse_text_of_mem_known {status : RunStatus} (mem : status ∈ known) :
    parse status.text = status := by
  simp only [known, List.mem_cons, List.not_mem_nil, or_false] at mem
  rcases mem with rfl | rfl | rfl | rfl | rfl | rfl <;> rfl

/-- A word that no known status has is carried along. -/
theorem parse_of_not_mem_words {word : String} (foreign : word ∉ words) :
    parse word = other word := by
  simp only [words, known, text, List.map_cons, List.map_nil, List.mem_cons, List.not_mem_nil,
    or_false, not_or] at foreign
  obtain ⟨notQueued, notRunning, notCancelling, notCompleted, notFailed, notCancelled⟩ := foreign
  simp only [parse, notQueued, notRunning, notCancelling, notCompleted, notFailed, notCancelled,
    if_false]

/-- The word of a known status is read as a known status. -/
theorem parse_mem_known {word : String} (mem : word ∈ words) : parse word ∈ known := by
  obtain ⟨status, listed, rfl⟩ := List.mem_map.mp mem
  rw [parse_text_of_mem_known listed]
  exact listed

/-- What was read is written as it was. -/
theorem text_parse (word : String) : (parse word).text = word := by
  by_cases mem : word ∈ words
  · obtain ⟨status, listed, rfl⟩ := List.mem_map.mp mem
    rw [parse_text_of_mem_known listed]
  · rw [parse_of_not_mem_words mem, text]

/-- A word is carried along exactly if no known status has it. -/
theorem parse_eq_other_iff {word : String} : parse word = other word ↔ word ∉ words := by
  constructor
  · intro carried mem
    have listed := parse_mem_known mem
    rw [carried, mem_known_iff] at listed
    cases listed
  · exact parse_of_not_mem_words

/-- Of all statuses only those fail to survive their text that carry a word of the ledger. -/
theorem parse_text_iff (status : RunStatus) :
    parse status.text = status ↔ ∀ word ∈ words, status ≠ other word := by
  cases status with
  | other word =>
      rw [text, parse_eq_other_iff]
      constructor
      · rintro foreign _ mem same
        cases same
        exact foreign mem
      · intro distinct mem
        exact distinct word mem rfl
  | queued | running | cancelling | completed | failed | cancelled =>
      refine iff_of_true (parse_text_of_mem_known (mem_known_iff.mpr rfl)) ?_
      intro _ _ same
      cases same

/-- A word that the engine does not use is carried along. -/
theorem ofEngine_of_not_mem {word : String} (foreign : word ∉ engineWords) :
    ofEngine word = other word := by
  simp only [engineWords, List.mem_cons, List.not_mem_nil, or_false, not_or] at foreign
  simp only [ofEngine, foreign, Bool.or_self, decide_false, Bool.false_eq_true, if_false]

/-- A word that the ledger understands becomes a status of its own. -/
theorem ofEngine_mem_known {word : String} (mem : word ∈ engineWords) : ofEngine word ∈ known := by
  simp only [engineWords, List.mem_cons, List.not_mem_nil, or_false] at mem
  rcases mem with rfl | rfl | rfl | rfl | rfl | rfl | rfl | rfl | rfl <;> decide

/-- The two vocabularies have no word in common. -/
theorem not_mem_engineWords {word : String} (mem : word ∈ words) : word ∉ engineWords := by
  simp only [words, known, text, List.map_cons, List.map_nil, List.mem_cons, List.not_mem_nil,
    or_false] at mem
  rcases mem with rfl | rfl | rfl | rfl | rfl | rfl <;> decide

/-- The engine's word is carried along, unchanged, exactly if it is not one of those that it
uses. -/
theorem ofEngine_eq_other_iff {word carried : String} :
    ofEngine word = other carried ↔ word ∉ engineWords ∧ word = carried := by
  by_cases mem : word ∈ engineWords
  · refine iff_of_false ?_ (fun both => both.1 mem)
    intro same
    have listed := ofEngine_mem_known mem
    rw [same, mem_known_iff] at listed
    cases listed
  · rw [ofEngine_of_not_mem mem, other.injEq]
    exact ⟨fun same => ⟨mem, same⟩, fun both => both.2⟩

/-- An engine's status survives its text exactly if its word is none of the ledger's. -/
theorem survives_iff (word : String) :
    parse (ofEngine word).text = ofEngine word ↔ word ∉ words := by
  rw [parse_text_iff]
  constructor
  · intro distinct mem
    exact distinct word mem (ofEngine_of_not_mem (not_mem_engineWords mem))
  · rintro foreign _ mem same
    obtain ⟨-, rfl⟩ := ofEngine_eq_other_iff.mp same
    exact foreign mem

/-- A status is read back from a document exactly if it is read back from its text. -/
theorem ofJson?_toJson_iff (status : RunStatus) :
    ofJson? status.toJson = some status ↔ parse status.text = status := by
  simp only [ofJson?, toJson, Json.asString?, Option.map_some, Option.some.injEq]

/-- A text is read as a status in which a run has ended exactly if it is the word of one. -/
theorem isTerminal_parse_iff {word : String} :
    (parse word).isTerminal = true ↔ word ∈ terminalWords := by
  constructor
  · intro ended
    refine List.mem_map.mpr ⟨parse word, List.mem_filter.mpr ⟨?_, ended⟩, text_parse word⟩
    cases read : parse word with
    | other carried => rw [read] at ended; cases ended
    | queued | running | cancelling | completed | failed | cancelled =>
        exact mem_known_iff.mpr rfl
  · intro mem
    obtain ⟨status, listed, rfl⟩ := List.mem_map.mp mem
    obtain ⟨isKnown, ended⟩ := List.mem_filter.mp listed
    rw [parse_text_of_mem_known isKnown]
    exact ended

/-- What becomes of an engine's status in writing, as a text and as JSON: it is read back as it was
exactly if the engine's word is none of the ledger's, and an open run comes back as ended exactly if
the engine's word is one of the ledger's for an end. -/
theorem parse_text_ofEngine_iff (word : String) :
    (parse (ofEngine word).text = ofEngine word ↔ word ∉ words) ∧
      (ofJson? (ofEngine word).toJson = some (ofEngine word) ↔ word ∉ words) ∧
      ((ofEngine word).isTerminal = false ∧ (parse (ofEngine word).text).isTerminal = true ↔
        word ∈ terminalWords) := by
  refine ⟨survives_iff word, (ofJson?_toJson_iff _).trans (survives_iff word), ?_⟩
  by_cases mem : word ∈ words
  · have carried := ofEngine_of_not_mem (not_mem_engineWords mem)
    rw [carried, text, isTerminal_parse_iff]
    exact and_iff_right rfl
  · rw [(survives_iff word).mpr mem]
    refine iff_of_false ?_ ?_
    · rintro ⟨isOpen, ended⟩
      rw [isOpen] at ended
      cases ended
    · intro terminal
      obtain ⟨status, listed, rfl⟩ := List.mem_map.mp terminal
      exact mem (List.mem_map_of_mem (List.mem_filter.mp listed).1)

/-- An unknown word of the engine comes back as an end. -/
example : ofEngine "completed" = other "completed" ∧
    parse (ofEngine "completed").text = completed := by
  decide

end RunStatus

end RunLedger
