import RunLedger.Cli.Run

/-!
# What a shown configuration tells of its secrets

A configuration has two secrets: the token for the engine and the password in the address of the
database. A password may hold any characters, also those at which an address is cut. Wherever the
cuts fall, the first colon after the scheme is the one behind the user and the last at sign is the
one behind the password or a later one. So what is cut out holds the whole password, and what is
shown is the same for all passwords.
-/

namespace RunLedger

/-! ## Cuts -/

namespace Text

variable {mark before after : List Char} {c : Char}

/-- A text is cut at the first mark if none begins before it. -/
theorem splitFirst?_append (nonempty : mark ≠ [])
    (first : ∀ s, s <:+ before → s ≠ [] → ¬ mark <+: s ++ (mark ++ after)) :
    splitFirst? mark (before ++ (mark ++ after)) = some (before, after) := by
  induction before with
  | nil =>
    obtain ⟨m, ms, rfl⟩ := List.exists_cons_of_ne_nil nonempty
    have here : (m :: ms).isPrefixOf (m :: (ms ++ after)) = true :=
      List.isPrefixOf_iff_prefix.mpr (List.prefix_append (m :: ms) after)
    have rest : (m :: (ms ++ after)).drop (m :: ms).length = after := by
      rw [← List.cons_append, List.drop_left]
    show splitFirst? (m :: ms) (m :: (ms ++ after)) = _
    rw [splitFirst?, if_pos here, rest]
  | cons d before ih =>
    have later : ¬ mark.isPrefixOf (d :: (before ++ (mark ++ after))) = true := fun here =>
      first (d :: before) List.suffix_rfl (List.cons_ne_nil d before)
        (List.isPrefixOf_iff_prefix.mp here)
    rw [List.cons_append, splitFirst?, if_neg later,
      ih fun s suffix => first s (suffix.trans (List.suffix_cons d before))]
    rfl

/-- A text is cut at the first place of a character. -/
theorem splitFirst?_singleton (absent : c ∉ before) :
    splitFirst? [c] (before ++ c :: after) = some (before, after) := by
  refine splitFirst?_append (List.cons_ne_nil c []) fun s suffix nonempty here => ?_
  obtain ⟨d, s, rfl⟩ := List.exists_cons_of_ne_nil nonempty
  obtain ⟨rfl, _⟩ := List.cons_prefix_cons.mp here
  exact absent (suffix.subset (List.mem_cons_self ..))

/-- The mark behind a scheme cannot begin in a scheme that does not hold it. -/
theorem splitFirst?_scheme (absent : ¬ "://".toList <:+: before) :
    splitFirst? "://".toList (before ++ ("://".toList ++ after)) = some (before, after) := by
  refine splitFirst?_append (by decide) fun s suffix nonempty here => ?_
  match s, nonempty with
  | [_], _ => simp at here
  | [_, _], _ => simp at here
  | a :: b :: d :: s, _ =>
    refine absent (List.IsInfix.trans ?_ suffix.isInfix)
    simp only [String.reduceToList, List.cons_append, List.cons_prefix_cons] at here ⊢
    obtain ⟨rfl, rfl, rfl, _⟩ := here
    exact (List.prefix_append [':', '/', '/'] s).isInfix

/-- What follows the last place of a character; the whole text if it has none. -/
def afterLast (c : Char) (cs : List Char) : List Char :=
  ((splitLast? c cs).map Prod.snd).getD cs

/-- The last cut of a text with the character falls on this place of it or on a later one. -/
theorem splitLast?_append_cons (c : Char) (before after : List Char) :
    ∃ more, splitLast? c (before ++ c :: after) = some (before ++ more, afterLast c after) := by
  induction before with
  | nil =>
    rw [List.nil_append, splitLast?, afterLast]
    cases splitLast? c after with
    | none => exact ⟨[], by simp⟩
    | some parts => exact ⟨c :: parts.1, rfl⟩
  | cons d before ih =>
    obtain ⟨more, cut⟩ := ih
    exact ⟨more, by rw [List.cons_append, splitLast?, cut]; rfl⟩

end Text

/-! ## Passwords -/

namespace Config

/-- Where a password may stand in an address: behind a scheme without the mark that ends it, and
behind a user without a colon. -/
structure Account where
  scheme : String
  user : String
  scheme_ends : ¬ "://".toList <:+: scheme.toList
  user_ends : ':' ∉ user.toList

/-- The address with a password and with what follows it. -/
def Account.address (a : Account) (password remainder : String) : String :=
  a.scheme ++ "://" ++ a.user ++ ":" ++ password ++ "@" ++ remainder

/-- What is shown of the remainder of an address. -/
def shownRemainder (remainder : String) : String :=
  String.ofList (Text.afterLast '@' remainder.toList)

variable (a : Account) (password remainder : String)

/-- An address cut at the places where a password is looked for. -/
theorem Account.toList_address : (a.address password remainder).toList =
    a.scheme.toList ++ ("://".toList ++
      ((a.user.toList ++ ':' :: password.toList) ++ '@' :: remainder.toList)) := by
  simp [address]

/-- The mask takes the place of the whole password, and of the remainder as far as its last at
sign. -/
theorem maskPassword_address :
    maskPassword (a.address password remainder) = a.address mask (shownRemainder remainder) := by
  obtain ⟨more, cut⟩ := Text.splitLast?_append_cons '@' (a.user.toList ++ ':' :: password.toList)
    remainder.toList
  have user : Text.splitFirst? [':'] (a.user.toList ++ ':' :: password.toList ++ more) =
      some (a.user.toList, password.toList ++ more) := by
    rw [List.append_assoc, List.cons_append]
    exact Text.splitFirst?_singleton a.user_ends
  unfold maskPassword
  rw [a.toList_address, Text.splitFirst?_scheme a.scheme_ends]
  dsimp only
  rw [cut]
  dsimp only
  rw [user]
  simp only [String.ofList_toList, Account.address, shownRemainder]

/-! ## Configurations -/

/-- Two addresses are the same, or the same but for the password. -/
inductive SameButPassword : Option String → Option String → Prop where
  | same (url : Option String) : SameButPassword url url
  | password (a : Account) (password password' remainder : String) :
      SameButPassword (some (a.address password remainder)) (some (a.address password' remainder))

/-- Two configurations that differ at most in the password and in the token, where there is one. -/
structure SameButSecrets (c c' : Config) : Prop where
  database : SameButPassword c.databaseUrl c'.databaseUrl
  token : c.engine.authToken.isSome = c'.engine.authToken.isSome
  others : { c with databaseUrl := none, engine := { c.engine with authToken := none } } =
    { c' with databaseUrl := none, engine := { c'.engine with authToken := none } }

variable {c c' : Config}

/-- Addresses that differ in their passwords alone are masked alike. -/
theorem SameButPassword.map_maskPassword {url url' : Option String}
    (alike : SameButPassword url url') : url.map maskPassword = url'.map maskPassword := by
  cases alike with
  | same => rfl
  | password a p p' remainder =>
    rw [Option.map_some, Option.map_some, maskPassword_address, maskPassword_address]

/-- Configurations that differ in secrets alone are redacted alike. -/
theorem SameButSecrets.redacted_eq (alike : SameButSecrets c c') : c.redacted = c'.redacted := by
  have database := alike.database.map_maskPassword
  have token : c.engine.authToken.map (fun _ => mask) = c'.engine.authToken.map fun _ => mask := by
    have present := alike.token
    revert present
    cases c.engine.authToken <;> cases c'.engine.authToken <;> simp
  have others := alike.others
  simp only [Config.mk.injEq, EngineSection.mk.injEq, true_and] at others
  obtain ⟨⟨baseUrl, timeout, retries, backoff⟩, sync, server⟩ := others
  simp only [redacted, database, token, baseUrl, timeout, retries, backoff, sync, server]

end Config

namespace Cli

open Config (Account SameButSecrets)

variable {m : Type → Type} [Monad m] [LawfulMonad m] {h : Host m} {i : Invocation} {c : Config}

/-- The configuration is shown as it is with its secrets masked. -/
theorem run_config (shows : i.command = .config)
    (loaded : loadConfig h i.configPath = pure (.ok c)) :
    i.run h = pure (.shown (c.redacted.toJson.pretty ++ "\n")) := by
  have need : i.command.need c = .ok .nothing := by
    rw [shows]
    rfl
  unfold Invocation.run
  rw [loaded, pure_bind]
  dsimp only
  rw [need]

/-- All passwords of an account look the same in an address that is shown, and so do all secrets in
a configuration that is shown. -/
theorem shown_of_sameButSecrets :
    (∀ (a : Account) (password password' remainder : String),
      Config.maskPassword (a.address password remainder) =
          Config.maskPassword (a.address password' remainder) ∧
        Config.maskPassword (a.address password remainder) =
          a.address Config.mask (Config.shownRemainder remainder)) ∧
    ∀ c c' : Config, SameButSecrets c c' → c.redacted = c'.redacted ∧
      ∀ {m : Type → Type} [Monad m] [LawfulMonad m] (h h' : Host m) (i : Invocation),
        i.command = .config → loadConfig h i.configPath = pure (.ok c) →
          loadConfig h' i.configPath = pure (.ok c') → i.run h = i.run h' := by
  refine ⟨fun a password password' remainder => ⟨?_, ?_⟩, fun c c' alike => ⟨?_, ?_⟩⟩
  · rw [Config.maskPassword_address, Config.maskPassword_address]
  · exact Config.maskPassword_address a password remainder
  · exact alike.redacted_eq
  · intro m _ _ h h' i shows loaded loaded'
    rw [run_config shows loaded, run_config shows loaded', alike.redacted_eq]

/-- The account of an application in a database. -/
def application : Account := ⟨"postgres", "app", by decide +kernel, by decide +kernel⟩

/-- A configuration with a password for the application and a token. -/
def secretive (password token : String) : Config where
  databaseUrl := some (application.address password "db@host:5432/runs")
  engine := { authToken := some token }

/-- A host that gives this configuration by its environment. -/
def secretiveHost (password token : String) : Host Id where
  file _ := .error .absent
  value name :=
    if name = "RUNSYNC_DATABASE_URL" then (secretive password token).databaseUrl
    else if name = "RUNSYNC_ENGINE_AUTH_TOKEN" then some token
    else none
  unreachable _ := .backend ""

/-- Passwords with all the characters at which an address is cut. -/
theorem shown_of_sameButSecrets_cutting :
    SameButSecrets (secretive "a@b://c:d" "first") (secretive "@" "second") ∧
      secretive "a@b://c:d" "first" ≠ secretive "@" "second" ∧
      Invocation.run (secretiveHost "a@b://c:d" "first") { command := .config } =
        Invocation.run (secretiveHost "@" "second") { command := .config } := by
  have alike : SameButSecrets (secretive "a@b://c:d" "first") (secretive "@" "second") :=
    ⟨.password .., rfl, rfl⟩
  refine ⟨alike, by decide +kernel, ?_⟩
  refine (shown_of_sameButSecrets.2 _ _ alike).2 _ _ _ rfl ?_ ?_
  · rfl
  · rfl

end Cli

end RunLedger
