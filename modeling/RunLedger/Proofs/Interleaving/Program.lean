/-!
# Programs that ask

A program asks one question after another, each in the light of the answers so far, and ends with a
result. Between two questions others may act, so a program is a tree of questions and says nothing
about time. `Program.Runs` holds the complete conversations of a program. `Program.Keeps` says what
a program keeps true in a world that others change between its questions: each answer takes the
world along a guarantee, and the result satisfies a condition.
-/

namespace RunLedger.Interleaving

/-- A program whose questions have answers of the types given by `Answer`. -/
inductive Program {Q : Type} (Answer : Q → Type) (α : Type) : Type where
  | done (result : α)
  | ask (question : Q) (next : Answer question → Program Answer α)

/-- A question with the answer that was given. -/
abbrev Exchange {Q : Type} (Answer : Q → Type) : Type := (question : Q) × Answer question

namespace Program

variable {Q : Type} {Answer : Q → Type} {α β : Type}

/-- Goes on with what a program has found out. -/
protected def bind : Program Answer α → (α → Program Answer β) → Program Answer β
  | .done a, f => f a
  | .ask question next, f => .ask question fun answer => (next answer).bind f

instance : Monad (Program Answer) where
  pure := .done
  bind := Program.bind

@[simp] theorem done_bind (a : α) (f : α → Program Answer β) :
    (Program.done a >>= f) = f a := rfl

@[simp] theorem ask_bind (question : Q) (next : Answer question → Program Answer α)
    (f : α → Program Answer β) :
    (Program.ask question next >>= f) = .ask question fun answer => next answer >>= f := rfl

/-- To change a result is to go on with a program that asks nothing. -/
theorem map_eq (f : α → β) (p : Program Answer α) : f <$> p = p >>= fun a => .done (f a) := rfl

/-- The program that asks one question and returns the answer. -/
def question (q : Q) : Program Answer (Answer q) := .ask q .done

/-! ## Questions that a program may ask -/

/-- Every question that a program may come to ask satisfies a condition. -/
def Asks (allowed : Q → Prop) : Program Answer α → Prop
  | .done _ => True
  | .ask question next => allowed question ∧ ∀ answer, Asks allowed (next answer)

theorem Asks.bind {allowed : Q → Prop} {p : Program Answer α} {f : α → Program Answer β}
    (first : p.Asks allowed) (second : ∀ a, (f a).Asks allowed) : (p >>= f).Asks allowed := by
  induction p with
  | done a => exact second a
  | ask question next ih => exact ⟨first.1, fun answer => ih answer (first.2 answer)⟩

theorem Asks.mono {allowed allowed' : Q → Prop} {p : Program Answer α} (asks : p.Asks allowed)
    (weaker : ∀ q, allowed q → allowed' q) : p.Asks allowed' := by
  induction p with
  | done a => trivial
  | ask question next ih =>
    exact ⟨weaker question asks.1, fun answer => ih answer (asks.2 answer)⟩

/-! ## Complete conversations -/

/-- `p.Runs exchanges result`: with these exchanges in this order the program ends in the result. -/
inductive Runs : Program Answer α → List (Exchange Answer) → α → Prop where
  | done (result : α) : Runs (.done result) [] result
  | ask {question : Q} {next : Answer question → Program Answer α} {answer : Answer question}
      {rest : List (Exchange Answer)} {result : α} :
      Runs (next answer) rest result → Runs (.ask question next) (⟨question, answer⟩ :: rest) result

/-- A program that is done asks nothing more. -/
theorem runs_done_iff {a b : α} {exchanges : List (Exchange Answer)} :
    (Program.done a).Runs exchanges b ↔ exchanges = [] ∧ b = a := by
  constructor
  · rintro ⟨⟩
    exact ⟨rfl, rfl⟩
  · rintro ⟨rfl, rfl⟩
    exact .done _

/-- A conversation begins with the question that is asked and goes on in the light of its answer. -/
theorem runs_ask_iff {question : Q} {next : Answer question → Program Answer α}
    {exchanges : List (Exchange Answer)} {result : α} :
    (Program.ask question next).Runs exchanges result ↔
      ∃ answer rest, exchanges = ⟨question, answer⟩ :: rest ∧ (next answer).Runs rest result := by
  constructor
  · rintro ⟨⟩
    exact ⟨_, _, rfl, by assumption⟩
  · rintro ⟨answer, rest, rfl, run⟩
    exact .ask run

/-- A conversation of two programs in turn is one of the first followed by one of the second. -/
theorem runs_bind_iff {p : Program Answer α} {f : α → Program Answer β}
    {exchanges : List (Exchange Answer)} {result : β} :
    (p >>= f).Runs exchanges result ↔
      ∃ a before after, exchanges = before ++ after ∧ p.Runs before a ∧
        (f a).Runs after result := by
  induction p generalizing exchanges with
  | done a =>
    rw [done_bind]
    constructor
    · exact fun run => ⟨a, [], exchanges, rfl, .done a, run⟩
    · rintro ⟨b, before, after, rfl, first, second⟩
      obtain ⟨rfl, rfl⟩ := runs_done_iff.mp first
      exact second
  | ask question next ih =>
    rw [ask_bind, runs_ask_iff]
    constructor
    · rintro ⟨answer, rest, rfl, run⟩
      obtain ⟨a, before, after, rfl, first, second⟩ := (ih answer).mp run
      exact ⟨a, ⟨question, answer⟩ :: before, after, rfl, .ask first, second⟩
    · rintro ⟨a, before, after, rfl, first, second⟩
      obtain ⟨answer, rest, rfl, step⟩ := runs_ask_iff.mp first
      exact ⟨answer, rest ++ after, rfl, (ih answer).mpr ⟨a, rest, after, rfl, step, second⟩⟩

/-- What a program never asks does not occur in its conversations. -/
theorem Runs.allowed {allowed : Q → Prop} {p : Program Answer α}
    {exchanges : List (Exchange Answer)} {result : α} (run : p.Runs exchanges result)
    (asks : p.Asks allowed) : ∀ e ∈ exchanges, allowed e.1 := by
  induction run with
  | done result => simp
  | @ask _ _ answer _ _ _ ih => exact List.forall_mem_cons.mpr ⟨asks.1, ih (asks.2 answer)⟩

/-- No conversation of a program is a part of the beginning of another one. -/
theorem Runs.eq_of_append_eq {p : Program Answer α} {a b c d : List (Exchange Answer)}
    {result result' : α} (first : p.Runs a result) (second : p.Runs b result')
    (same : a ++ c = b ++ d) : a = b ∧ result = result' := by
  induction first generalizing b with
  | done result =>
    obtain ⟨rfl, rfl⟩ := runs_done_iff.mp second
    exact ⟨rfl, rfl⟩
  | ask _ ih =>
    obtain ⟨answer, rest, rfl, onwards⟩ := runs_ask_iff.mp second
    obtain ⟨head, tail⟩ := List.cons.inj same
    cases head
    obtain ⟨rfl, rfl⟩ := ih onwards tail
    exact ⟨rfl, rfl⟩

/-! ## Reasoning about programs among others -/

/-- A world in which programs run: what others may do between two questions of a program, and how a
question may be answered. -/
structure Surroundings (Answer : Q → Type) (W : Type) where
  others : W → W → Prop
  answers : W → (question : Q) → Answer question → W → Prop

variable {W : Type} {env : Surroundings Answer W} {guarantee : W → W → Prop}

/-- Whatever others do, each answer to the program takes the world along the guarantee, and the
result and the world at the end satisfy the condition. -/
def Keeps (env : Surroundings Answer W) (guarantee : W → W → Prop) (post : α → W → Prop) :
    Program Answer α → W → Prop
  | .done a, w => post a w
  | .ask question next, w => ∀ now, env.others w now → ∀ answer after,
      env.answers now question answer after →
        guarantee now after ∧ Keeps env guarantee post (next answer) after

theorem Keeps.mono {post post' : α → W → Prop} {p : Program Answer α} {w : W}
    (kept : p.Keeps env guarantee post w) (weaker : ∀ a w, post a w → post' a w) :
    p.Keeps env guarantee post' w := by
  induction p generalizing w with
  | done a => exact weaker a w kept
  | ask question next ih =>
    intro now others answer after answered
    obtain ⟨step, rest⟩ := kept now others answer after answered
    exact ⟨step, ih answer rest⟩

/-- Of two programs in turn the second keeps what it does from where the first has ended. -/
theorem Keeps.bind {post : α → W → Prop} {post' : β → W → Prop} {p : Program Answer α}
    {f : α → Program Answer β} {w : W} (first : p.Keeps env guarantee post w)
    (second : ∀ a w, post a w → (f a).Keeps env guarantee post' w) :
    (p >>= f).Keeps env guarantee post' w := by
  induction p generalizing w with
  | done a => exact second a w first
  | ask question next ih =>
    rw [ask_bind]
    intro now others answer after answered
    obtain ⟨step, rest⟩ := first now others answer after answered
    exact ⟨step, ih answer rest⟩

/-- What others do before the next question of a program does not matter to it. -/
theorem Keeps.others {post : α → W → Prop} {p : Program Answer α} {w w' : W}
    (compose : ∀ {a b c}, env.others a b → env.others b c → env.others a c)
    (stable : ∀ a, post a w → post a w') (kept : p.Keeps env guarantee post w)
    (moved : env.others w w') : p.Keeps env guarantee post w' := by
  cases p with
  | done a => exact stable a kept
  | ask question next => exact fun now others => kept now (compose moved others)

/-! ## Conversations in a world -/

/-- `p.RunsIn env w exchanges result w'`: with these exchanges the program ends in the result, and
the world has become `w'`. -/
inductive RunsIn (env : Surroundings Answer W) :
    Program Answer α → W → List (Exchange Answer) → α → W → Prop where
  | done (result : α) (w : W) : RunsIn env (.done result) w [] result w
  | ask {question : Q} {next : Answer question → Program Answer α} {answer : Answer question}
      {rest : List (Exchange Answer)} {result : α} {w now mid after : W}
      (others : env.others w now) (answered : env.answers now question answer mid) :
      RunsIn env (next answer) mid rest result after →
      RunsIn env (.ask question next) w (⟨question, answer⟩ :: rest) result after

/-- A conversation in a world is a conversation. -/
theorem RunsIn.runs {p : Program Answer α} {w after : W} {exchanges : List (Exchange Answer)}
    {result : α} (run : p.RunsIn env w exchanges result after) : p.Runs exchanges result := by
  induction run with
  | done result w => exact .done result
  | ask _ _ _ ih => exact .ask ih

/-- Every answer in a conversation is one that the world gives. -/
theorem RunsIn.answered {p : Program Answer α} {w after : W} {exchanges : List (Exchange Answer)}
    {result : α} (run : p.RunsIn env w exchanges result after) :
    ∀ e ∈ exchanges, ∃ now mid, env.answers now e.1 e.2 mid := by
  induction run with
  | done result w => exact fun _ member => absurd member List.not_mem_nil
  | ask _ answered _ ih => exact List.forall_mem_cons.mpr ⟨⟨_, _, answered⟩, ih⟩

/-- What others and the answers to the questions of a program keep to, its conversations keep to. -/
theorem RunsIn.rel (rel : W → W → Prop) {allowed : Q → Prop} {p : Program Answer α} {w after : W}
    {exchanges : List (Exchange Answer)} {result : α} (refl : ∀ w, rel w w)
    (trans : ∀ a b c, rel a b → rel b c → rel a c) (others : ∀ a b, env.others a b → rel a b)
    (answers : ∀ a question answer b, allowed question → env.answers a question answer b → rel a b)
    (asks : p.Asks allowed) (run : p.RunsIn env w exchanges result after) : rel w after := by
  induction run with
  | done result w => exact refl w
  | @ask question _ answer _ _ w now mid after moved answered _ ih =>
    have called := answers now question answer mid asks.1 answered
    have onwards := ih (asks.2 answer)
    exact trans w now after (others w now moved) (trans now mid after called onwards)

/-- What others and the answers to the questions of a program leave as it is, its conversations leave
as it is. -/
theorem RunsIn.same {β : Type} (f : W → β) {allowed : Q → Prop} {p : Program Answer α} {w after : W}
    {exchanges : List (Exchange Answer)} {result : α}
    (others : ∀ a b, env.others a b → f b = f a)
    (answers : ∀ a question answer b, allowed question → env.answers a question answer b →
      f b = f a)
    (asks : p.Asks allowed) (run : p.RunsIn env w exchanges result after) : f after = f w :=
  run.rel (fun a b => f b = f a) (fun _ => rfl) (fun _ _ _ first second => second.trans first)
    others answers asks

/-- A conversation in a world begins after others have acted, with a question that the world
answers. -/
theorem runsIn_ask_iff {question : Q} {next : Answer question → Program Answer α} {w after : W}
    {exchanges : List (Exchange Answer)} {result : α} :
    (Program.ask question next).RunsIn env w exchanges result after ↔
      ∃ now answer mid rest, exchanges = ⟨question, answer⟩ :: rest ∧ env.others w now ∧
        env.answers now question answer mid ∧ (next answer).RunsIn env mid rest result after := by
  constructor
  · rintro ⟨⟩
    exact ⟨_, _, _, _, rfl, by assumption, by assumption, by assumption⟩
  · rintro ⟨now, answer, mid, rest, rfl, others, answered, run⟩
    exact .ask others answered run

/-- The second of two programs in turn starts in the world that the first has left. -/
theorem runsIn_bind_iff {p : Program Answer α} {f : α → Program Answer β} {w after : W}
    {exchanges : List (Exchange Answer)} {result : β} :
    (p >>= f).RunsIn env w exchanges result after ↔
      ∃ a mid first second, exchanges = first ++ second ∧ p.RunsIn env w first a mid ∧
        (f a).RunsIn env mid second result after := by
  induction p generalizing w exchanges with
  | done a =>
    rw [done_bind]
    constructor
    · exact fun run => ⟨a, w, [], exchanges, rfl, .done a w, run⟩
    · rintro ⟨b, mid, first, second, rfl, run, run'⟩
      cases run
      exact run'
  | ask question next ih =>
    rw [ask_bind, runsIn_ask_iff]
    constructor
    · rintro ⟨now, answer, mid, rest, rfl, others, answered, run⟩
      obtain ⟨a, mid', first, second, rfl, run, run'⟩ := (ih answer).mp run
      exact ⟨a, mid', ⟨question, answer⟩ :: first, second, rfl, .ask others answered run, run'⟩
    · rintro ⟨a, mid', first, second, rfl, run, run'⟩
      obtain ⟨now, answer, mid, rest, rfl, others, answered, run⟩ := runsIn_ask_iff.mp run
      exact ⟨now, answer, mid, rest ++ second, rfl, others, answered,
        (ih answer).mpr ⟨a, mid', rest, second, rfl, run, run'⟩⟩

end Program

end RunLedger.Interleaving
