import RecordSeal.Proofs.Settings.Precedence

set_option autoImplicit false

/-! # What failed loads leave

The environment sets its entries one after the other and stops at the first one that has no section
to stand in; what was set before stays (`Settings.Sets`). A set-up begins by putting the built-in
values in the place of the settings, so one that fails leaves those, or those with the file and the
entries before the failure (`Settings.Left`), and nothing of the settings before. A secrets file is
merged only after it was read as a whole, so one that fails leaves the settings as they were
(`Settings.kept_unless_setUp`). -/

namespace RecordSeal.Settings

variable {around : Surroundings} {s s' : Settings} {log log' : Log} {why : Failure}

/-! ## Entries in turn -/

/-- The settings with an entry: a value of its own, or one in a section that is there. -/
def place (values : Record) : List String × Value → Record
  | ([name], v) => values.insert name v
  | ([name, key], v) =>
    match values.get? name with
    | some (.object fields) => values.insert name (.object (Assoc.insert fields key v))
    | _ => values
  | _ => values

/-- The settings with entries that were set in turn. -/
def placeAll (values : Record) (entries : List (List String × Value)) : Record :=
  entries.foldl place values

theorem placeAll_append (values : Record) (entries entries' : List (List String × Value)) :
    placeAll values (entries ++ entries') = placeAll (placeAll values entries) entries' :=
  List.foldl_append

/-- Why nothing can be set in a section that is missing or is no object. -/
def sectionFailure (values : Record) (name : String) : Failure :=
  match values.get? name with
  | some w => .mismatched (.noAssignment w.kindName)
  | none => .noEntry (Text.quote name)

/-- Whether the first of the entries to come has no section to stand in, and the failure that this
is. -/
def Stops (values : Record) (entries : List (List String × Value)) (why : Failure) : Prop :=
  ∃ name key v others, entries = ([name, key], v) :: others ∧
    (∀ fields, values.get? name ≠ some (.object fields)) ∧ why = sectionFailure values name

/-- Whether an operation sets entries in turn, up to the first one that has no section. -/
def Sets (entries : List (List String × Value)) (act : Act Settings Unit) : Prop := ∀ s log,
  act.exec s log = (.ok (), { s with values := placeAll s.values entries }, log) ∨
    ∃ done rest why, entries = done ++ rest ∧ Stops (placeAll s.values done) rest why ∧
      act.exec s log = (.error why, { s with values := placeAll s.values done }, log)

theorem sets_pure : Sets [] (pure () : Act Settings Unit) := fun _ _ => .inl rfl

/-- Operations in turn set their entries in turn. What the first one stops at, all of them do. -/
theorem Sets.bind {entries entries' : List (List String × Value)} {act act' : Act Settings Unit}
    (first : Sets entries act) (second : Sets entries' act') :
    Sets (entries ++ entries') (do act; act') := by
  intro s log
  rw [Act.exec_bind]
  rcases first s log with ran | ⟨done, rest, why, parts, stops, ran⟩
  · rw [ran]
    rcases second { s with values := placeAll s.values entries } log with
      ran' | ⟨done, rest, why, parts, stops, ran'⟩
    · exact .inl (by rw [placeAll_append]; exact ran')
    · refine .inr ⟨entries ++ done, rest, why, by rw [parts, List.append_assoc], ?_, ?_⟩
      · rw [placeAll_append]
        exact stops
      · rw [placeAll_append]
        exact ran'
  · rw [ran]
    obtain ⟨name, key, v, others, first, noSection, cause⟩ := stops
    refine .inr ⟨done, rest ++ entries', why, by rw [parts, List.append_assoc], ?_, rfl⟩
    exact ⟨name, key, v, others ++ entries', by rw [first, List.cons_append], noSection, cause⟩

theorem sets_assign (name key : String) (v : Value) :
    Sets [([name, key], v)] (assign name key v) := by
  intro s log
  rw [assign, Act.exec_bind]
  simp only [Act.exec_get]
  split
  · next fields found =>
    refine .inl ?_
    simp only [placeAll, List.foldl_cons, List.foldl_nil, place, found]
    rfl
  · next w noObject found =>
    refine .inr ⟨[], _, _, rfl, ⟨name, key, v, [], rfl, ?_, ?_⟩, rfl⟩
    · intro fields is
      exact noObject fields (Option.some.inj (found.symm.trans is))
    · simp only [sectionFailure, placeAll, List.foldl_nil, found]
  · next missing =>
    refine .inr ⟨[], _, _, rfl, ⟨name, key, v, [], rfl, ?_, ?_⟩, rfl⟩
    · intro fields is
      cases missing.symm.trans is
    · simp only [sectionFailure, placeAll, List.foldl_nil, missing]

/-! ## The environment -/

theorem exec_applyMode (s : Settings) (log : Log) :
    (applyMode around).exec s log =
      (.ok (), { s with values := placeAll s.values (givenMode around) }, log) := by
  unfold applyMode givenMode
  cases around.findVariable "FIELDSEAL_MODE" with
  | none => rfl
  | some mode =>
    dsimp only
    split <;> rfl

theorem sets_applyLevel : Sets (givenLevel around) (applyLevel around) := by
  unfold applyLevel givenLevel
  cases around.findVariable "FIELDSEAL_LOG_LEVEL" with
  | none => exact sets_pure
  | some text => exact sets_assign "logging" "level" _

theorem sets_applyDatabase (overrides : List (String × String)) :
    Sets (givenDatabase around overrides) (applyDatabase around overrides) := by
  induction overrides with
  | nil => exact sets_pure
  | cons e rest ih =>
    obtain ⟨name, key⟩ := e
    rw [applyDatabase, givenDatabase, List.filterMap_cons]
    cases around.findVariable name with
    | none => exact sets_pure.bind ih
    | some text => exact (sets_assign "database" key (.text text)).bind ih

/-- A number of iterations that is not read is a failure; any other is set. -/
theorem sets_applyIterations :
    (∃ why, FailsOnIterations around why ∧
      ∀ s log, (applyIterations around).exec s log = (.error why, s, log)) ∨
    Sets (givenIterations around) (applyIterations around) := by
  unfold applyIterations givenIterations
  cases found : around.findVariable "FIELDSEAL_KEY_ITERATIONS" with
  | none => exact .inr sets_pure
  | some text =>
    dsimp only
    split
    · next digits =>
      cases read : Literal.read text.toList with
      | ok n => exact .inr (sets_assign "encryption" "key_iterations" (.int n))
      | error fault =>
        exact .inl ⟨_, ⟨text, fault, found, digits, read, rfl⟩, fun _ _ => rfl⟩
    · exact .inr sets_pure

/-- The environment sets what it gives, or stops: at the number of iterations, after the mode was
set, or at an entry without a section. -/
theorem exec_applyVariables (around : Surroundings) (s : Settings) (log : Log) :
    (applyVariables around).exec s log =
      (.ok (), { s with values := placeAll s.values (given around) }, log) ∨
    (∃ why, FailsOnIterations around why ∧ (applyVariables around).exec s log =
      (.error why, { s with values := placeAll s.values (givenMode around) }, log)) ∨
    ∃ done rest why, given around = done ++ rest ∧ Stops (placeAll s.values done) rest why ∧
      (applyVariables around).exec s log =
        (.error why, { s with values := placeAll s.values done }, log) := by
  have mode : Sets (givenMode around) (applyMode around) := fun s log => .inl (exec_applyMode s log)
  rcases @sets_applyIterations around with ⟨why, fails, ran⟩ | iterations
  · refine .inr (.inl ⟨why, fails, ?_⟩)
    rw [applyVariables, Act.exec_bind, exec_applyMode]
    dsimp only
    rw [Act.exec_bind, ran]
  · have all : Sets (given around) (applyVariables around) :=
      mode.bind (iterations.bind (sets_applyLevel.bind (sets_applyDatabase databaseVariables)))
    exact (all s log).imp_right .inr

/-! ## Set-ups that fail -/

/-- The settings that a set-up leaves when it fails. -/
inductive Left (around : Surroundings) (path : Value) : Failure → Record → Prop where
  /-- There is no file that can be taken: the built-in values. -/
  | unfiled {why : Failure} (missing : taken around path = none) : Left around path why builtIn
  /-- The number of iterations is not read: the built-in values with the file and the mode. -/
  | unread {why : Failure} {fields : Record} (took : taken around path = some fields)
    (fails : FailsOnIterations around why) :
    Left around path why (placeAll (merge builtIn fields) (givenMode around))
  /-- The file has no section for an entry of the environment: the built-in values with the file and
  the entries before that one. -/
  | stopped {why : Failure} {fields : Record} {done rest : List (List String × Value)}
    (took : taken around path = some fields) (parts : given around = done ++ rest)
    (stops : Stops (placeAll (merge builtIn fields) done) rest why) :
    Left around path why (placeAll (merge builtIn fields) done)

theorem left_of_setUp {path : Value}
    (ran : (setUp around path).exec s log = (.error why, s', log')) :
    s'.ready = s.ready ∧ Left around path why s'.values := by
  cases took : taken around path with
  | none =>
    obtain ⟨_, _, failed⟩ := exec_setUp_of_not_taken took s log
    cases ran.symm.trans failed
    exact ⟨rfl, .unfiled took⟩
  | some fields =>
    rw [exec_setUp took, complete, Act.exec_bind] at ran
    rcases exec_applyVariables around { s with values := merge builtIn fields } log with
      applied | ⟨_, fails, failed⟩ | ⟨done, rest, _, parts, stops, failed⟩
    · rw [applied] at ran
      cases ran
    · rw [failed] at ran
      cases ran
      exact ⟨rfl, .unread took fails⟩
    · rw [failed] at ran
      cases ran
      exact ⟨rfl, .stopped took parts stops⟩

/-! ## Secrets that fail -/

/-- Secrets that are not merged as a whole are not merged at all. -/
theorem eq_of_loadSecretsAs_error (ready : s.ready = true) {path shown : String}
    (ran : (loadSecretsAs around path shown).exec s log = (.error why, s', log')) : s' = s := by
  rw [loadSecretsAs, Act.exec_bind, exec_ensureReady_of_ready ready] at ran
  dsimp only at ran
  split at ran
  · cases ran
  · cases ran
    rfl
  · split at ran
    · cases ran
      rfl
    · next v read =>
      rw [Act.exec_bind] at ran
      cases given : fieldsOf v with
      | some fields =>
        rw [exec_mergeDocument (isNested_of_read read) given] at ran
        cases ran
      | none =>
        obtain ⟨_, failed⟩ := exec_mergeDocument_of_none given s log
        rw [failed] at ran
        cases ran
        rfl

theorem eq_of_loadSecrets_error (ready : s.ready = true) {path : Value}
    (ran : (loadSecrets around path).exec s log = (.error why, s', log')) : s' = s := by
  rw [loadSecrets, Act.exec_bind, exec_ensureReady_of_ready ready] at ran
  dsimp only at ran
  cases path with
  | text p => exact eq_of_loadSecretsAs_error ready ran
  | _ =>
    cases ran
    rfl

/-! ## Failed loads -/

/-- Secrets that cannot be loaded change nothing. A set-up that fails forgets the settings before
it, which were ready and stay so: every key is answered from the built-in values, the file, if it
could be taken, and what the environment gave before the failure. A key has the answer that it had
before just if those give it. -/
theorem kept_unless_setUp (ready : s.ready = true) :
    (∀ path log why s' log', (loadSecrets around path).exec s log = (.error why, s', log') →
      s' = s) ∧
    ∀ path log why s' log', (setUp around path).exec s log = (.error why, s', log') →
      s'.ready = true ∧ Left around path why s'.values ∧
      ∀ (around' : Surroundings) (key : String) (default : Value) (log log' : Log),
        ((query around' key default).exec s' log).1 =
          .ok ((lookup s'.values key).getD default) ∧
        (((query around' key default).exec s' log).1 = ((query around' key default).exec s log').1 ↔
          (lookup s'.values key).getD default = (lookup s.values key).getD default) := by
  refine ⟨fun path log why s' log' ran => eq_of_loadSecrets_error ready ran, ?_⟩
  intro path log why s' log' ran
  obtain ⟨same, left⟩ := left_of_setUp ran
  have ready' : s'.ready = true := same.trans ready
  refine ⟨ready', left, ?_⟩
  intro around' key default log₁ log₂
  rw [exec_query (exec_ensureReady_of_ready ready' log₁),
    exec_query (exec_ensureReady_of_ready ready log₂)]
  exact ⟨rfl, ⟨Except.ok.inj, congrArg _⟩⟩

/-- Surroundings with an address for the database, a file without a section for it, and secrets that
are no mapping. -/
def sampleFiles : Surroundings where
  environment := [("FIELDSEAL_MODE", "PROD"), ("FIELDSEAL_DB_URL", "http://db")]
  files := [(["c.yaml"], .document (.object [("database", .null)])),
    (["s.yaml"], .document (.list [.null]))]
  now := ⟨2024, 1, 2, 3, 4, 5, 0⟩
  entropy := Entropy.cyclic [1]

/-- Settings that were set up in these surroundings without a file. -/
def sampleReady : Settings where
  values := placeAll builtIn (given sampleFiles)
  ready := true

/-- The secrets leave the settings as they were. Without its file a set-up leaves the built-in
address in the place of the one that was in force, and with the file it stops at that address, after
the mode. -/
theorem kept_unless_setUp_sample :
    (∃ why s' log', (loadSecrets sampleFiles (.text "s.yaml")).exec sampleReady {} =
      (.error why, s', log') ∧ s' = sampleReady) ∧
    lookup sampleReady.values "database.url" = some (.text "http://db") ∧
    (∃ why s' log', (setUp sampleFiles (.text "missing.yaml")).exec sampleReady {} =
        (.error why, s', log') ∧ s'.values = builtIn ∧
      ((query sampleFiles "database.url" .null).exec s' {}).1 =
        .ok (.text "http://localhost:8529")) ∧
    ∃ why s' log', (setUp sampleFiles (.text "c.yaml")).exec sampleReady {} =
        (.error why, s', log') ∧
      s'.values = placeAll (merge builtIn [("database", .null)]) [(["mode"], .text "PROD")] := by
  obtain ⟨secrets, setUps⟩ := @kept_unless_setUp sampleFiles sampleReady rfl
  refine ⟨?_, rfl, ?_, ?_⟩
  · obtain ⟨why, s', log', ran⟩ : ∃ why s' log',
        (loadSecrets sampleFiles (.text "s.yaml")).exec sampleReady {} = (.error why, s', log') :=
      ⟨_, _, _, rfl⟩
    exact ⟨why, s', log', ran, secrets _ _ _ _ _ ran⟩
  · obtain ⟨why, s', log', ran⟩ : ∃ why s' log',
        (setUp sampleFiles (.text "missing.yaml")).exec sampleReady {} = (.error why, s', log') :=
      ⟨_, _, _, rfl⟩
    obtain ⟨-, left, answers⟩ := setUps _ _ _ _ _ ran
    have values : s'.values = builtIn := by
      generalize s'.values = values at left
      cases left with
      | unfiled => rfl
      | unread took => cases took
      | stopped took => cases took
    refine ⟨why, s', log', ran, values, ?_⟩
    rw [(answers sampleFiles "database.url" .null {} {}).1, values]
    rfl
  · obtain ⟨why, s', log', ran⟩ : ∃ why s' log',
        (setUp sampleFiles (.text "c.yaml")).exec sampleReady {} = (.error why, s', log') :=
      ⟨_, _, _, rfl⟩
    obtain ⟨-, left, -⟩ := setUps _ _ _ _ _ ran
    refine ⟨why, s', log', ran, ?_⟩
    generalize s'.values = values at left
    cases left with
    | unfiled missing => cases missing
    | unread _ fails =>
      obtain ⟨_, _, found, -⟩ := fails
      cases found
    | @stopped fields done rest took parts stops =>
      cases took
      obtain ⟨name, key, v, others, rfl, -⟩ := stops
      -- Of the two entries the second one stands in a section, so only the first one is set.
      have entries : [(["mode"], Value.text "PROD"), (["database", "url"], .text "http://db")] =
          done ++ ([name, key], v) :: others := parts
      rcases done with _ | ⟨e, _ | ⟨e', done⟩⟩
      · simp at entries
      · obtain ⟨rfl, -⟩ := List.cons.inj entries
        rfl
      · simp at entries

end RecordSeal.Settings
