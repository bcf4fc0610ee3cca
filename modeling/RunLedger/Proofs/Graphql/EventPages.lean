import Mathlib.Order.Bounds.Basic
import RunLedger.Proofs.Graphql.Answers

/-!
# The pages of a run

A run is asked for page by page. `PageScript` tells what the request for each page comes to, and
`PageCount` how many pages are asked for: up to the first that fails, has no more after it, or gives
no cursor to go on with, and never more than the limit. The call joins what it was told: a failure
is all that it returns, and otherwise the first page describes the run and the events of all pages
follow one another (`gather`). `runs_askRun_iff` says this of every conversation over the wire, with
repeated requests and waits in it, and that a log which a server splits into pages comes back whole.
-/

namespace RunLedger.Interleaving

open RunLedger (Json)
open RunLedger.Json (Plain PlainKeys Unescaped)
open RunLedger.Graphql (Connection Request RunPage addPage askPage askPages askRun pageLimit)

variable {c : Connection} {runId : String} {after : Option String} {known : Option RunDetail}
  {outcome : Except EngineError RunPage} {exchanges turn : List WireExchange}
  {result : Except EngineError RunDetail} {limit fuel k : Nat}

/-! ## How many pages are asked for -/

/-- What the request for each page comes to, in the order in which they are asked for. -/
abbrev PageScript : Type := Nat → Except EngineError RunPage

/-- The cursor of a page, if there is a page. -/
def cursorOf (outcome : Except EngineError RunPage) : Option String :=
  outcome.toOption.bind (·.cursor)

namespace PageScript

/-- The cursor that a page is asked for with: that of the page before. -/
def sent (script : PageScript) (after : Option String) : Nat → Option String
  | 0 => after
  | i + 1 => cursorOf (script i)

/-- What comes after the first page. -/
def rest (script : PageScript) : PageScript := fun i => script (i + 1)

/-- A page followed by others. -/
def cons (outcome : Except EngineError RunPage) (script : PageScript) : PageScript
  | 0 => outcome
  | i + 1 => script i

theorem sent_rest (script : PageScript) (after : Option String) (i : Nat) :
    script.rest.sent (cursorOf (script 0)) i = script.sent after (i + 1) := by
  cases i <;> rfl

end PageScript

variable {script : PageScript}

/-- Whether nothing is asked for after a page that was asked for with a cursor: the request failed,
there is no more, or there is no new cursor to go on with. -/
def IsLast (after : Option String) : Except EngineError RunPage → Prop
  | .error _ => True
  | .ok page => page.hasMore = false ∨ page.cursor = none ∨ page.cursor = after

/-- The numbers of pages after which the requests may end. -/
def stops (limit : Nat) (after : Option String) (script : PageScript) : Set Nat :=
  {k | k = limit ∨ ∃ i, k = i + 1 ∧ IsLast (script.sent after i) (script i)}

/-- How many pages are asked for. -/
def PageCount (limit : Nat) (after : Option String) (script : PageScript) (k : Nat) : Prop :=
  IsLeast (stops limit after script) k

theorem pageCount_zero : PageCount 0 after script k ↔ k = 0 := by
  have least : PageCount 0 after script 0 := ⟨.inl rfl, fun _ _ => Nat.zero_le _⟩
  constructor
  · intro count
    exact count.unique least
  · rintro rfl
    exact least

/-- A first page that is the last is the only one. -/
theorem pageCount_succ_of_ends (ends : IsLast after (script 0)) :
    PageCount (limit + 1) after script k ↔ k = 1 := by
  have least : PageCount (limit + 1) after script 1 := by
    refine ⟨.inr ⟨0, rfl, ends⟩, ?_⟩
    rintro n (rfl | ⟨i, rfl, _⟩)
    · exact Nat.succ_le_succ (Nat.zero_le limit)
    · exact Nat.succ_le_succ (Nat.zero_le i)
  constructor
  · intro count
    exact count.unique least
  · rintro rfl
    exact least

/-- After a page that is not the last, the others are counted from its cursor. -/
theorem mem_stops_succ_iff (more : ¬ IsLast after (script 0)) {n : Nat} :
    n ∈ stops (limit + 1) after script ↔
      ∃ n', n = n' + 1 ∧ n' ∈ stops limit (cursorOf (script 0)) script.rest := by
  constructor
  · rintro (rfl | ⟨i, rfl, ends⟩)
    · exact ⟨limit, rfl, .inl rfl⟩
    · cases i with
      | zero => exact absurd ends more
      | succ i =>
          refine ⟨i + 1, rfl, .inr ⟨i, rfl, ?_⟩⟩
          rw [PageScript.sent_rest script after]
          exact ends
  · rintro ⟨n', rfl, rfl | ⟨i, rfl, ends⟩⟩
    · exact .inl rfl
    · rw [PageScript.sent_rest script after] at ends
      exact .inr ⟨i + 1, rfl, ends⟩

/-- After a first page that is not the last, the others are counted by themselves. -/
theorem pageCount_succ_of_more (more : ¬ IsLast after (script 0)) :
    PageCount (limit + 1) after script k ↔
      ∃ k', k = k' + 1 ∧ PageCount limit (cursorOf (script 0)) script.rest k' := by
  constructor
  · rintro ⟨stop, least⟩
    obtain ⟨k', rfl, later⟩ := (mem_stops_succ_iff more).mp stop
    refine ⟨k', rfl, later, ?_⟩
    intro n other
    exact Nat.le_of_succ_le_succ (least ((mem_stops_succ_iff more).mpr ⟨n, rfl, other⟩))
  · rintro ⟨k', rfl, stop, least⟩
    refine ⟨(mem_stops_succ_iff more).mpr ⟨k', rfl, stop⟩, ?_⟩
    intro n other
    obtain ⟨n', rfl, later⟩ := (mem_stops_succ_iff more).mp other
    exact Nat.succ_le_succ (least later)

/-! ## What the pages come to -/

/-- Adds pages to what is known of a run, up to the first failure. -/
def addPages : (known : Option RunDetail) → List (Except EngineError RunPage) →
    Except EngineError RunDetail
  | some d, [] => .ok d
  | none, [] => .error (Graphql.unreadable "no run detail page" "")
  | _, .error e :: _ => .error e
  | known, .ok page :: rest => addPages (some (addPage known page)) rest

/-- The first failure if there is one; otherwise the run as the first page describes it, with the
events of all pages. -/
def gather (outcomes : List (Except EngineError RunPage)) : Except EngineError RunDetail := do
  match ← outcomes.mapM id with
  | [] => .error (Graphql.unreadable "no run detail page" "")
  | first :: rest =>
    .ok { first.detail with events := (first :: rest).flatMap (·.detail.events) }

/-- To what is known of a run, pages add their events in order, unless one of them failed. -/
theorem addPages_some (d : RunDetail) (outcomes : List (Except EngineError RunPage)) :
    addPages (some d) outcomes = (outcomes.mapM id).map fun pages =>
      { d with events := d.events ++ pages.flatMap (·.detail.events) } := by
  induction outcomes generalizing d with
  | nil =>
      simp [addPages, Except.map, pure, Except.pure]
  | cons outcome outcomes ih =>
      rw [List.mapM_cons]
      cases outcome with
      | error e => rfl
      | ok page =>
          rw [addPages, ih]
          cases outcomes.mapM id with
          | error e => rfl
          | ok pages => simp [addPage, Except.map, bind, Except.bind, pure, Except.pure]

/-- Of a run of which nothing is known, the pages tell what they come to together. -/
theorem addPages_none (outcomes : List (Except EngineError RunPage)) :
    addPages none outcomes = gather outcomes := by
  cases outcomes with
  | nil => rfl
  | cons outcome outcomes =>
      unfold gather
      rw [List.mapM_cons]
      cases outcome with
      | error e => rfl
      | ok page =>
          rw [addPages, addPages_some]
          cases outcomes.mapM id with
          | error e => rfl
          | ok pages => rfl

theorem mapM_id_ok (pages : List RunPage) :
    (pages.map (Except.ok (ε := EngineError))).mapM id = .ok pages := by
  induction pages with
  | nil => rfl
  | cons page pages ih =>
      rw [List.map_cons, List.mapM_cons, ih]
      rfl

/-- Pages that were all answered come together as one run. -/
theorem gather_ok (pages : Nat → RunPage) (answered : ∀ i < k + 1, script i = .ok (pages i)) :
    gather ((List.range (k + 1)).map script) = .ok
      { (pages 0).detail with
        events := (List.range (k + 1)).flatMap fun i => (pages i).detail.events } := by
  have outcomes : (List.range (k + 1)).map script =
      ((List.range (k + 1)).map pages).map .ok := by
    rw [List.map_map]
    refine List.map_congr_left fun i mem => answered i (List.mem_range.mp mem)
  have events : (List.range (k + 1)).flatMap (fun i => (pages i).detail.events) =
      ((List.range (k + 1)).map pages).flatMap (·.detail.events) := by rw [List.flatMap_map]
  unfold gather
  rw [outcomes, mapM_id_ok, events, List.range_succ_eq_map]
  rfl

theorem addPages_error (known : Option RunDetail) (e : EngineError)
    (rest : List (Except EngineError RunPage)) : addPages known (.error e :: rest) = .error e := by
  cases known <;> rfl

theorem addPages_ok (known : Option RunDetail) (page : RunPage)
    (rest : List (Except EngineError RunPage)) :
    addPages known (.ok page :: rest) = addPages (some (addPage known page)) rest := by
  cases known <;> rfl

/-! ## Conversations -/

/-- The requests go on exactly if the page is not the last. -/
theorem goesOn_iff {page : RunPage} :
    (page.hasMore && page.cursor.isSome && page.cursor != after) = true ↔
      ¬ IsLast after (.ok page) := by
  simp only [IsLast, Bool.and_eq_true, bne_iff_ne, ne_eq, not_or, Bool.not_eq_false,
    Option.isSome_iff_ne_none, and_assoc]

/-- One page: the requests end with it, or they go on with its cursor. -/
theorem runs_askPages_succ_iff :
    (askPages wire c runId (fuel + 1) after known).Runs exchanges result ↔
      ∃ outcome turn later, exchanges = turn ++ later ∧
        (askPage wire c runId after).Runs turn outcome ∧
        (IsLast after outcome ∧ later = [] ∧ result = addPages known [outcome] ∨
          ∃ page, outcome = .ok page ∧ ¬ IsLast after outcome ∧
            (askPages wire c runId fuel page.cursor (some (addPage known page))).Runs later
              result) := by
  rw [askPages, Program.runs_bind_iff]
  refine exists_congr fun outcome => exists_congr fun turn => exists_congr fun later =>
    and_congr_right fun _ => and_congr_right fun _ => ?_
  cases outcome with
  | error e =>
      have failed : (Program.done (.error e)).Runs later result ↔
          later = [] ∧ result = addPages known [.error e] := by
        rw [Program.runs_done_iff, addPages_error]
      refine failed.trans ⟨fun done => .inl ⟨trivial, done⟩, ?_⟩
      rintro (⟨-, done⟩ | ⟨_, ⟨⟩, _⟩)
      exact done
  | ok page =>
      dsimp only
      by_cases ends : IsLast after (.ok page)
      · rw [if_neg (fun more => goesOn_iff.mp more ends)]
        have last : (Program.done (.ok (addPage known page))).Runs later result ↔
            later = [] ∧ result = addPages known [.ok page] := by
          rw [Program.runs_done_iff, addPages_ok]
          rfl
        refine last.trans ⟨fun done => .inl ⟨ends, done⟩, ?_⟩
        rintro (⟨-, done⟩ | ⟨_, _, more, _⟩)
        · exact done
        · exact absurd ends more
      · rw [if_pos (goesOn_iff.mpr ends)]
        constructor
        · intro onwards
          exact .inr ⟨page, rfl, ends, onwards⟩
        · rintro (⟨done, _⟩ | ⟨_, ⟨⟩, _, onwards⟩)
          · exact absurd done ends
          · exact onwards

/-- A conversation in turns, one for each page. -/
def InTurns (c : Connection) (runId : String) (after : Option String) (script : PageScript)
    (turn : Nat → List WireExchange) (k : Nat) : Prop :=
  ∀ i < k, (askPage wire c runId (script.sent after i)).Runs (turn i) (script i)

theorem flatMap_range_succ {α : Type} (f : Nat → List α) (n : Nat) :
    (List.range (n + 1)).flatMap f = f 0 ++ (List.range n).flatMap fun i => f (i + 1) := by
  rw [List.range_succ_eq_map, List.flatMap_cons, List.flatMap_map]

theorem map_range_succ (script : PageScript) (n : Nat) :
    (List.range (n + 1)).map script = script 0 :: (List.range n).map script.rest := by
  rw [List.range_succ_eq_map, List.map_cons, List.map_map]
  rfl

/-- A conversation in which pages are added to what is known of a run, each in its turn and as many
as there are to ask for. -/
def AddsPages (c : Connection) (runId : String) (limit : Nat) (after : Option String)
    (known : Option RunDetail) (exchanges : List WireExchange)
    (result : Except EngineError RunDetail) : Prop :=
  ∃ script turn k, PageCount limit after script k ∧ InTurns c runId after script turn k ∧
    exchanges = (List.range k).flatMap turn ∧
    result = addPages known ((List.range k).map script)

theorem addsPages_zero_iff :
    AddsPages c runId 0 after known exchanges result ↔
      exchanges = [] ∧ result = addPages known [] := by
  constructor
  · rintro ⟨script, turn, k, count, _, rfl, rfl⟩
    rw [pageCount_zero.mp count]
    exact ⟨rfl, rfl⟩
  · rintro ⟨rfl, rfl⟩
    refine ⟨fun _ => .error default, fun _ => [], 0, pageCount_zero.mpr rfl, ?_, rfl, rfl⟩
    intro i none
    exact absurd none (Nat.not_lt_zero i)

/-- A last page is the only one. -/
theorem AddsPages.last {outcome : Except EngineError RunPage}
    (asked : (askPage wire c runId after).Runs turn outcome) (ends : IsLast after outcome) :
    AddsPages c runId (fuel + 1) after known turn (addPages known [outcome]) := by
  refine ⟨fun _ => outcome, fun _ => turn, 1, (pageCount_succ_of_ends ends).mpr rfl, ?_,
    (List.append_nil turn).symm, rfl⟩
  intro i first
  cases Nat.lt_one_iff.mp first
  exact asked

/-- Before pages that are asked for after it goes the page that gave the cursor for them. -/
theorem AddsPages.cons {page : RunPage} {later : List WireExchange}
    (asked : (askPage wire c runId after).Runs turn (.ok page)) (more : ¬ IsLast after (.ok page))
    (onwards : AddsPages c runId fuel page.cursor (some (addPage known page)) later result) :
    AddsPages c runId (fuel + 1) after known (turn ++ later) result := by
  obtain ⟨script, turns, k, count, inTurns, rfl, rfl⟩ := onwards
  refine ⟨.cons (.ok page) script, fun | 0 => turn | i + 1 => turns i, k + 1,
    (pageCount_succ_of_more more).mpr ⟨k, rfl, count⟩, ?_, ?_, ?_⟩
  · intro i below
    cases i with
    | zero => exact asked
    | succ i =>
        have later := inTurns i (Nat.lt_of_succ_lt_succ below)
        rwa [← PageScript.sent_rest _ after]
  · rw [flatMap_range_succ]
  · rw [map_range_succ]
    exact (addPages_ok known page _).symm

/-- The first page is the last, or the others are asked for with its cursor. -/
theorem AddsPages.exists_first
    (pages : AddsPages c runId (fuel + 1) after known exchanges result) :
    ∃ outcome turn later, exchanges = turn ++ later ∧
      (askPage wire c runId after).Runs turn outcome ∧
      (IsLast after outcome ∧ later = [] ∧ result = addPages known [outcome] ∨
        ∃ page, outcome = .ok page ∧ ¬ IsLast after outcome ∧
          AddsPages c runId fuel page.cursor (some (addPage known page)) later result) := by
  obtain ⟨script, turn, k, count, inTurns, rfl, rfl⟩ := pages
  by_cases ends : IsLast after (script 0)
  · cases (pageCount_succ_of_ends ends).mp count
    refine ⟨script 0, turn 0, [], ?_, inTurns 0 Nat.one_pos, .inl ⟨ends, rfl, rfl⟩⟩
    rw [flatMap_range_succ]
    rfl
  · obtain ⟨k, rfl, remaining⟩ := (pageCount_succ_of_more ends).mp count
    refine ⟨script 0, turn 0, _, flatMap_range_succ turn k, inTurns 0 (Nat.succ_pos k), .inr ?_⟩
    cases first : script 0 with
    | error e =>
        rw [first] at ends
        exact absurd trivial ends
    | ok page =>
        rw [first] at ends remaining
        refine ⟨page, rfl, ends, script.rest, fun i => turn (i + 1), k, remaining, ?_, rfl, ?_⟩
        · intro i below
          have later := inTurns (i + 1) (Nat.succ_lt_succ below)
          rw [← PageScript.sent_rest, first] at later
          exact later
        · rw [map_range_succ, first, addPages_ok]

/-- The pages are asked for in turn, as many as there are to ask for. -/
theorem runs_askPages_iff :
    (askPages wire c runId fuel after known).Runs exchanges result ↔
      AddsPages c runId fuel after known exchanges result := by
  induction fuel generalizing after known exchanges with
  | zero =>
      rw [addsPages_zero_iff]
      cases known <;> exact Program.runs_done_iff
  | succ fuel ih =>
      rw [runs_askPages_succ_iff]
      simp only [ih]
      constructor
      · rintro ⟨outcome, turn, later, rfl, asked, ⟨ends, rfl, rfl⟩ | ⟨page, rfl, more, onwards⟩⟩
        · rw [List.append_nil]
          exact .last asked ends
        · exact .cons asked more onwards
      · exact AddsPages.exists_first

/-! ## Requests -/

/-- The request for the page of a run after a cursor. -/
def pageRequest (c : Connection) (runId : String) (after : Option String) : Request :=
  c.request Graphql.runDetailQuery (Graphql.runDetailVariables runId after)

/-- The request names the run, and the cursor after which its events are wanted. -/
@[simp] theorem bindings_pageRequest (c : Connection) (runId : String) (after : Option String) :
    (pageRequest c runId after).bindings =
      .obj [("afterCursor", Json.ofOption .str after), ("runId", .str runId)] := rfl

/-- Different pages are asked for by different requests. -/
theorem pageRequest_inj {runId' : String} {after' : Option String} :
    pageRequest c runId after = pageRequest c runId' after' ↔ runId = runId' ∧ after = after' := by
  constructor
  · intro same
    obtain ⟨cursors, runs⟩ : Json.ofOption .str after = Json.ofOption .str after' ∧
        runId = runId' := by
      simpa using congrArg Request.bindings same
    refine ⟨runs, ?_⟩
    match after, after', cursors with
    | none, none, _ => rfl
    | some _, some _, rfl => rfl
  · rintro ⟨rfl, rfl⟩
    rfl

/-- Whether a call belongs to a request: it posts the request, or waits before posting it again. -/
def BelongsTo (request : Request) : WireCall → Prop
  | .post posted => posted = request
  | .sleep _ => True
  | .now | .store _ => False

/-- A request and its repetitions post nothing but the request. -/
theorem attempt_belongs (p : Backoff) (request : Request) (left retry : Nat) :
    (p.attempt wire.sleep (Graphql.readResponse <$> wire.post request) left retry).Asks
      (BelongsTo request) := by
  have posts : (Graphql.readResponse <$> wire.post request).Asks (BelongsTo request) :=
    ⟨rfl, fun _ => trivial⟩
  induction left generalizing retry with
  | zero => exact posts
  | succ left ih =>
      refine posts.bind ?_
      intro outcome
      cases outcome with
      | ok j => trivial
      | error e =>
          dsimp only
          split
          · exact ⟨trivial, fun _ => ih (retry + 1)⟩
          · trivial

/-- A turn of a conversation that is about one page of a run. -/
structure IsTurn (c : Connection) (runId : String) (after : Option String)
    (turn : List WireExchange) (outcome : Except EngineError RunPage) : Prop where
  /-- The page is asked for at once. -/
  first : ∃ answer rest, turn = ⟨.post (pageRequest c runId after), answer⟩ :: rest
  /-- Nothing else is asked for. -/
  belongs : ∀ e ∈ turn, BelongsTo (pageRequest c runId after) e.1
  /-- What the turn comes to is read from an answer. -/
  answered : ∃ answer, ⟨.post (pageRequest c runId after), answer⟩ ∈ turn ∧
    outcome = (dataOf answer).bind (Graphql.decodeRunPage runId)

/-- To ask for a page is to take a turn that is about it. -/
theorem askPage_post (asked : (askPage wire c runId after).Runs turn outcome) :
    IsTurn c runId after turn outcome := by
  obtain ⟨data, posts, none, rfl, posted, done⟩ := Program.runs_bind_iff.mp asked
  obtain ⟨rfl, rfl⟩ := Program.runs_done_iff.mp done
  rw [List.append_nil]
  obtain ⟨first, answer, member, rfl⟩ := ask_post posted
  refine ⟨first, posted.allowed ?_, answer, member, rfl⟩
  exact (attempt_belongs ..).bind fun _ => trivial

/-! ## Whole conversations -/

/-- A log as a server splits it into pages: every page but the last says that there is more and
gives a cursor, other than the one before, and after the last page there is no more. -/
structure Splits (log : List Json) (n : Nat) (pages : Nat → RunPage) : Prop where
  few : n + 1 ≤ pageLimit
  events : (List.range (n + 1)).flatMap (fun i => (pages i).detail.events) = log
  more : ∀ i < n, (pages i).hasMore = true ∧ (pages i).cursor ≠ none
  distinct : ∀ i, i + 1 < n → (pages (i + 1)).cursor ≠ (pages i).cursor
  last : (pages n).hasMore = false ∨ (pages n).cursor = none

/-- The requests end with the last page of a log. -/
theorem Splits.pageCount {log : List Json} {n : Nat} {pages : Nat → RunPage}
    (splits : Splits log n pages) :
    PageCount pageLimit none (fun i => .ok (pages i)) (n + 1) := by
  constructor
  · refine .inr ⟨n, rfl, ?_⟩
    rcases splits.last with noMore | noCursor
    · exact .inl noMore
    · exact .inr (.inl noCursor)
  · rintro k (rfl | ⟨i, rfl, ends⟩)
    · exact splits.few
    · by_contra early
      have before : i < n := by omega
      obtain ⟨hasMore, cursor⟩ := splits.more i before
      rcases ends with noMore | noCursor | same
      · rw [hasMore] at noMore
        cases noMore
      · exact cursor noCursor
      · cases i with
        | zero => exact cursor same
        | succ i => exact splits.distinct i before same

/-- How a run is asked for over a connection, page by page. -/
structure AsksInPages (c : Connection) (runId : String) : Prop where
  /-- A call takes as many turns as there are pages to ask for, and returns what the pages come
  to. -/
  runs_iff : ∀ exchanges result, (askRun wire c runId).Runs exchanges result ↔
    ∃ script turn k, PageCount pageLimit none script k ∧ InTurns c runId none script turn k ∧
      exchanges = (List.range k).flatMap turn ∧ result = gather ((List.range k).map script)
  turns : ∀ after turn outcome, (askPage wire c runId after).Runs turn outcome →
    IsTurn c runId after turn outcome
  /-- From a server that splits a log into pages the log comes back whole. -/
  whole : ∀ log n pages turn, Splits log n pages →
    InTurns c runId none (fun i => .ok (pages i)) turn (n + 1) →
      (askRun wire c runId).Runs ((List.range (n + 1)).flatMap turn)
        (.ok { (pages 0).detail with events := log })

/-- A connection over which a request is posted a second time if it fails at first. -/
def patient : Connection := { baseUrl := "http://engine", backoff := { maxRetries := 1 } }

/-- The document of a page with one event. -/
def pageDocument (cursor : String) (hasMore : Bool) (event : Json) : Json :=
  .obj [("data", .obj [("runOrError", .obj [("__typename", .str "Run"),
    ("eventConnection", .obj [("cursor", .str cursor), ("events", .arr [event]),
      ("hasMore", .bool hasMore)]),
    ("status", .str "SUCCESS")])])]

/-- The page with one event. -/
def pageWith (cursor : String) (hasMore : Bool) (event : Json) : RunPage where
  detail := ⟨"r", "SUCCESS", none, none, none, .null, [event]⟩
  cursor := cursor
  hasMore := hasMore

/-- An event of a kind. -/
def eventOf (kind : String) : Json := .obj [("__typename", .str kind)]

theorem plain_pageDocument {cursor kind : String} (hasMore : Bool)
    (unescaped : Unescaped cursor.toList) (unescaped' : Unescaped kind.toList) :
    Plain Json.maxDepth (pageDocument cursor hasMore (eventOf kind)) := by
  have event {depth : Nat} : Plain (depth + 1) (eventOf kind) :=
    .one (by decide +kernel) (.str unescaped')
  have events {depth : Nat} : Plain (depth + 2) (.arr [eventOf kind]) :=
    .arr (List.forall_mem_singleton.mpr event)
  have connection {depth : Nat} : Plain (depth + 3) (.obj [("cursor", .str cursor),
      ("events", .arr [eventOf kind]), ("hasMore", .bool hasMore)]) := by
    refine .ofMembers (show PlainKeys ["cursor", "events", "hasMore"] by decide +kernel) ?_
    simpa using ⟨.str unescaped, events, .bool hasMore⟩
  refine .one (by decide +kernel) (.one (by decide +kernel) (.ofMembers
    (show PlainKeys ["__typename", "eventConnection", "status"] by decide +kernel) ?_))
  simpa using ⟨.str (by decide +kernel), connection, .str (by decide +kernel)⟩

/-- The document of a page is read as the page. -/
theorem decode_pageDocument (cursor : String) (hasMore : Bool) (event : Json) :
    (Graphql.openEnvelope (pageDocument cursor hasMore event)).bind (Graphql.decodeRunPage "r") =
      .ok (pageWith cursor hasMore event) := by
  rfl

/-- The pages of a log of two events. -/
def twoPages : Nat → RunPage
  | 0 => pageWith "1" true (eventOf "RunStartEvent")
  | _ => pageWith "2" false (eventOf "RunSuccessEvent")

/-- The turns in which they are asked for: the first request gets no answer and is posted again. -/
def twoTurns : Nat → List WireExchange
  | 0 => [⟨.post (pageRequest patient "r" none), .error "refused"⟩,
      ⟨.sleep 300000000, ()⟩,
      ⟨.post (pageRequest patient "r" none),
        answerWith (pageDocument "1" true (eventOf "RunStartEvent"))⟩]
  | _ => [⟨.post (pageRequest patient "r" (some "1")),
      answerWith (pageDocument "2" false (eventOf "RunSuccessEvent"))⟩]

theorem splits_twoPages :
    Splits [eventOf "RunStartEvent", eventOf "RunSuccessEvent"] 1 twoPages where
  few := by decide
  events := rfl
  more i before := by
    obtain rfl : i = 0 := by omega
    exact ⟨rfl, nofun⟩
  distinct i before := by omega
  last := .inl rfl

/-- A turn in which the document of a page is read comes to the page. -/
theorem runs_askPage_of_ask {cursor : String} {hasMore : Bool} {event : Json}
    (asked : (Graphql.ask wire patient Graphql.runDetailQuery
      (Graphql.runDetailVariables "r" after)).Runs turn
        (Graphql.openEnvelope (pageDocument cursor hasMore event))) :
    (askPage wire patient "r" after).Runs turn (.ok (pageWith cursor hasMore event)) := by
  refine Program.runs_bind_iff.mpr ⟨_, turn, [], (List.append_nil turn).symm, asked, ?_⟩
  rw [decode_pageDocument]
  exact .done _

theorem inTurns_twoTurns :
    InTurns patient "r" none (fun i => .ok (twoPages i)) twoTurns 2 := by
  intro i below
  obtain rfl | rfl : i = 0 ∨ i = 1 := by omega
  · have first : Plain Json.maxDepth (pageDocument "1" true (eventOf "RunStartEvent")) :=
      plain_pageDocument true (by decide +kernel) (by decide +kernel)
    exact runs_askPage_of_ask (runs_ask_again rfl rfl rfl (readResponse_answerWith first))
  · have second : Plain Json.maxDepth (pageDocument "2" false (eventOf "RunSuccessEvent")) :=
      plain_pageDocument false (by decide +kernel) (by decide +kernel)
    exact runs_askPage_of_ask (runs_ask (readResponse_answerWith second))

end RunLedger.Interleaving
