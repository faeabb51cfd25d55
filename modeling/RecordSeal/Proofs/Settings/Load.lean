import RecordSeal.Proofs.Act
import RecordSeal.Proofs.Settings.Apart
import RecordSeal.Settings.Load

set_option autoImplicit false

/-! # What setting up leaves

A file is taken or it is not (`filed`); after one that is not, the built-in values are in force.
After one that is, the environment has set the mode, and nothing else that it sets is a master key
(`Overrides`). Only a number of iterations that cannot be read makes a set-up without a file fail
(`exec_ensureReady`). -/

namespace RecordSeal

/-- Whether the environment sets production mode. -/
def Surroundings.SetsProduction (around : Surroundings) : Prop :=
  around.findVariable "FIELDSEAL_MODE" = some "PROD"

namespace Settings

variable {around : Surroundings}

/-! ## Files -/

/-- The value of the file at a path, if it can be read. -/
def documentAt (around : Surroundings) (path : String) : Option Value :=
  match around.lookup path with
  | .found content => (Surroundings.read path content).toOption
  | _ => none

/-- The fields that a file's value merges into settings: none if it counts as not given. -/
def fieldsOf (v : Value) : Option Record := if v.isGiven then v.object? else some []

/-- The fields that the file at a path merges into settings, if it can be read and has fields or
counts as not given. -/
def filed (around : Surroundings) (path : Value) : Option Record :=
  (path.text?.bind (documentAt around)).bind fieldsOf

/-- The fields that a set-up takes: those of the file at its path, or none without a path. -/
def taken (around : Surroundings) (path : Value) : Option Record :=
  if path.isGiven then filed around path else some []

/-- What a reader makes has each name once. -/
theorem isNested_readValue : ∀ v : Value, (Surroundings.readValue v).IsNested
  | .object fields => by
    rw [Surroundings.readValue]
    exact .object (Assoc.distinct_ofList _)
      (Assoc.forall_mem_insertAll (by simp) (isNested_readFields fields))
  | .null | .bool _ | .int _ | .float _ | .text _ | .brokenText _ | .list _ | .bytes _
  | .foreign => .plain rfl
where
  isNested_readFields : ∀ fields : List (Name × Value),
      ∀ e ∈ Surroundings.readFields fields, e.2.IsNested
    | [], _, mem => by cases mem
    | (k, v) :: rest, e, mem => by
      rw [Surroundings.readFields] at mem
      rcases List.mem_cons.1 mem with rfl | mem
      · exact isNested_readValue v
      · exact isNested_readFields rest e mem

theorem isNested_of_read {path : String} {content : FileContent} {v : Value}
    (h : Surroundings.read path content = .ok v) : v.IsNested := by
  cases content with
  | document w =>
    cases h
    exact isNested_readValue w
  | _ => cases h

theorem isNested_of_documentAt {path : String} {v : Value}
    (h : documentAt around path = some v) : v.IsNested := by
  unfold documentAt at h
  split at h
  · next content _ =>
    cases read : Surroundings.read path content with
    | error text =>
      rw [read] at h
      cases h
    | ok w =>
      rw [read] at h
      cases h
      exact isNested_of_read read
  · cases h

theorem exec_mergeDocument {v : Value} (nested : v.IsNested) {fields : Record}
    (h : fieldsOf v = some fields) (s : Settings) (log : Log) :
    (mergeDocument v).exec s log = (.ok (), { s with values := merge s.values fields }, log) := by
  unfold fieldsOf at h
  unfold mergeDocument
  split at h
  · next given =>
    rw [if_pos given]
    cases v with
    | object fields =>
      cases h
      rw [← Memory.mergeApart_eq_merge _ nested]
      rfl
    | _ => cases h
  · next absent =>
    cases h
    rw [if_neg absent, merge]
    rfl

theorem exec_mergeDocument_of_none {v : Value} (h : fieldsOf v = none) (s : Settings) (log : Log) :
    ∃ why, (mergeDocument v).exec s log = (.error why, s, log) := by
  unfold fieldsOf at h
  unfold mergeDocument
  split at h
  · next given =>
    rw [if_pos given]
    cases v with
    | object fields => cases h
    | _ => exact ⟨_, rfl⟩
  · cases h

/-- What a set-up merges the file at a path into is the settings as they are; without a file it
fails. -/
theorem exec_loadFile (around : Surroundings) (path : String) (s : Settings) (log : Log) :
    (∃ v, documentAt around path = some v ∧
        (loadFile around path).exec s log = (mergeDocument v).exec s log) ∨
      documentAt around path = none ∧
        ∃ why log', (loadFile around path).exec s log = (.error why, s, log') := by
  unfold loadFile documentAt
  cases around.lookup path with
  | missing => exact .inr ⟨rfl, _, _, rfl⟩
  | tooLong => exact .inr ⟨rfl, _, _, rfl⟩
  | found content =>
    cases read : Surroundings.read path content with
    | error text =>
      simp only [read]
      exact .inr ⟨rfl, _, _, rfl⟩
    | ok v =>
      simp only [read]
      exact .inl ⟨v, rfl, rfl⟩

/-! ## Environment variables -/

/-- Whether the mode stays and every master key was there before. -/
structure Overrides (s s' : Settings) : Prop where
  ready : s'.ready = s.ready
  mode : s'.values.get? "mode" = s.values.get? "mode"
  key : ∀ key, Gives s'.values key → Gives s.values key

instance : Std.Refl Overrides := ⟨fun _ => ⟨rfl, rfl, fun _ h => h⟩⟩

instance : IsTrans Settings Overrides :=
  ⟨fun _ _ _ h h' => ⟨h'.ready.trans h.ready, h'.mode.trans h.mode,
    fun k hk => h.key k (h'.key k hk)⟩⟩

theorem keeps_assign {name key : String} (mode : name ≠ "mode")
    (other : name ≠ "encryption" ∨ key ≠ "key") (v : Value) :
    (assign name key v).Keeps Overrides := by
  intro s log
  rw [assign, Act.exec_bind]
  simp only [Act.exec_get]
  split
  · next fields found =>
    refine ⟨rfl, ?_, ?_⟩
    · show Assoc.get? (Assoc.insert _ _ _) _ = _
      rw [Assoc.get?_insert, if_neg (by simpa using mode)]
    · rintro k ⟨inner, holds, mem⟩
      rcases Assoc.mem_of_mem_insert holds with there | ⟨eq, same⟩
      · exact ⟨inner, there, mem⟩
      · cases eq
        obtain rfl : name = "encryption" := by
          rcases same with same | same
          · exact (Name.text.inj same).symm
          · simpa [eq_comm] using same
        rcases Assoc.mem_of_mem_insert mem with mem | ⟨-, same⟩
        · exact ⟨fields, Name.mem_of_get?_text found, mem⟩
        · simp [eq_comm, other.resolve_left (fun no => no rfl)] at same
  · exact refl_of Overrides s
  · exact refl_of Overrides s

theorem keeps_applyIterations : (applyIterations around).Keeps Overrides := by
  unfold applyIterations
  split
  · split
    · split
      · exact keeps_assign (by decide) (.inr (by decide)) _
      · exact Act.keeps_fail _
    · exact Act.keeps_pure _
  · exact Act.keeps_pure _

theorem keeps_applyLevel : (applyLevel around).Keeps Overrides := by
  unfold applyLevel
  split
  · exact keeps_assign (by decide) (.inl (by decide)) _
  · exact Act.keeps_pure _

theorem keeps_applyDatabase (overrides : List (String × String)) :
    (applyDatabase around overrides).Keeps Overrides := by
  induction overrides with
  | nil => exact Act.keeps_pure _
  | cons e rest ih =>
    obtain ⟨name, key⟩ := e
    rw [applyDatabase]
    split
    · exact (keeps_assign (by decide) (.inl (by decide)) _).bind fun _ => ih
    · exact (Act.keeps_pure ()).bind fun _ => ih

/-- What the environment overrides beside the mode. -/
def applyOthers (around : Surroundings) : Act Settings Unit := do
  applyIterations around
  applyLevel around
  applyDatabase around databaseVariables

theorem keeps_applyOthers (around : Surroundings) : (applyOthers around).Keeps Overrides :=
  keeps_applyIterations.bind fun _ => keeps_applyLevel.bind fun _ => keeps_applyDatabase _

/-- The end of a set-up: the environment overrides what there is, and the settings are ready. -/
def complete (around : Surroundings) : Act Settings Unit := do
  applyVariables around
  modify fun s => { s with ready := true }

/-- The settings in production mode. -/
def toProduction (s : Settings) : Settings :=
  { s with values := s.values.insert "mode" (.text "PROD") }

theorem exec_complete (prod : around.SetsProduction) (s : Settings)
    (log : Log) :
    (complete around).exec s log =
      match (applyOthers around).exec s.toProduction log with
      | (.ok _, s', log') => (.ok (), { s' with ready := true }, log')
      | (.error why, s', log') => (.error why, s', log') := by
  have mode : (applyMode around).exec s log = (.ok (), s.toProduction, log) := by
    rw [applyMode, show around.findVariable "FIELDSEAL_MODE" = some "PROD" from prod]
    rfl
  have parts : applyVariables around = (do applyMode around; applyOthers around) := rfl
  rw [complete, parts, Act.exec_bind, Act.exec_bind, mode]
  dsimp only
  rcases Act.exec (applyOthers around) s.toProduction log with ⟨result, s', log'⟩
  cases result <;> rfl

theorem get?_mode_toProduction (s : Settings) :
    s.toProduction.values.get? "mode" = some (.text "PROD") := by
  show Assoc.get? (Assoc.insert _ _ _) _ = _
  rw [Assoc.get?_insert, if_pos (by simp)]

theorem gives_of_toProduction {s : Settings} {key : Value} (h : Gives s.toProduction.values key) :
    Gives s.values key := by
  obtain ⟨inner, mem, hkey⟩ := h
  rcases Assoc.mem_of_mem_insert mem with mem | ⟨eq, -⟩
  · exact ⟨inner, mem, hkey⟩
  · cases eq

/-- Whether settings are in production mode, with no master key that fields do not give. -/
structure InProduction (fields : Record) (s : Settings) : Prop where
  mode : s.values.get? "mode" = some (.text "PROD")
  key : ∀ key, Gives s.values key → Gives fields key

/-- A set-up that gets to its end leaves production mode, and so does one that fails there. -/
theorem inProduction_complete (prod : around.SetsProduction)
    (s : Settings) (log : Log) :
    InProduction s.values ((complete around).exec s log).2.1 ∧
      (((complete around).exec s log).2.1.ready = s.ready ∨
        ((complete around).exec s log).2.1.ready = true) := by
  have overrides := keeps_applyOthers around s.toProduction log
  rw [exec_complete prod]
  have kept (s' : Settings) (h : Overrides s.toProduction s') : InProduction s.values s' :=
    ⟨h.mode.trans (get?_mode_toProduction s), fun key hk => gives_of_toProduction (h.key key hk)⟩
  split
  · next s' log' ran =>
    rw [ran] at overrides
    exact ⟨⟨(kept s' overrides).mode, (kept s' overrides).key⟩, .inr rfl⟩
  · next why s' log' ran =>
    rw [ran] at overrides
    exact ⟨kept s' overrides, .inl overrides.ready⟩

/-! ## Setting up -/

theorem exec_setUp {path : Value} {fields : Record} (h : taken around path = some fields)
    (s : Settings) (log : Log) :
    (setUp around path).exec s log =
      (complete around).exec { s with values := merge builtIn fields } log := by
  unfold taken at h
  rw [setUp, Act.exec_bind, Act.exec_modify]
  split at h
  · next given =>
    rw [if_pos given]
    cases path with
    | text p =>
      obtain ⟨v, there, hv⟩ := Option.bind_eq_some_iff.1 h
      have loaded : (loadFile around p).exec { s with values := builtIn } log =
          (.ok (), { s with values := merge builtIn fields }, log) := by
        rcases exec_loadFile around p { s with values := builtIn } log with
          ⟨v', found, ran⟩ | ⟨missing, -⟩
        · rw [ran]
          obtain rfl : v = v' := Option.some.inj (there.symm.trans found)
          exact exec_mergeDocument (isNested_of_documentAt there) hv _ log
        · exact absurd (there.symm.trans missing) (by simp)
      simp only [pathOf, Act.exec_bind, Act.exec_ofExcept, loaded]
      rw [complete, Act.exec_bind]
    | _ => cases h
  · next absent =>
    rw [if_neg absent]
    cases h
    simp only [Act.exec_bind]
    rw [merge, complete, Act.exec_bind]

theorem exec_setUp_of_not_taken {path : Value} (h : taken around path = none) (s : Settings)
    (log : Log) :
    ∃ why log', (setUp around path).exec s log =
      (.error why, { s with values := builtIn }, log') := by
  unfold taken at h
  rw [setUp, Act.exec_bind, Act.exec_modify]
  split at h
  · next given =>
    rw [if_pos given]
    cases path with
    | text p =>
      have failed : ∃ why log', (loadFile around p).exec { s with values := builtIn } log =
          (.error why, { s with values := builtIn }, log') := by
        rcases exec_loadFile around p { s with values := builtIn } log with
          ⟨v, found, ran⟩ | ⟨-, why, log', ran⟩
        · have none : fieldsOf v = none := by
            rw [filed, Value.text?, Option.bind_some, found] at h
            exact h
          obtain ⟨why, failed⟩ := exec_mergeDocument_of_none none { s with values := builtIn } log
          exact ⟨why, log, ran.trans failed⟩
        · exact ⟨why, log', ran⟩
      obtain ⟨why, log', failed⟩ := failed
      refine ⟨why, log', ?_⟩
      simp only [pathOf, Act.exec_bind, Act.exec_ofExcept, failed]
    | _ => exact ⟨_, _, rfl⟩
  · cases h

/-! ## Sections -/

/-- Whether the sections that the environment assigns to are objects. -/
def Sectioned (s : Settings) : Prop :=
  ∀ name ∈ ["encryption", "logging", "database"], ∃ fields,
    s.values.get? (.text name) = some (.object fields)

theorem Sectioned.insert {s : Settings} (h : s.Sectioned) {name : String} {v : Value}
    (isObject : name ∈ ["encryption", "logging", "database"] → ∃ fields, v = .object fields) :
    Sectioned { s with values := s.values.insert name v } := by
  intro other mem
  show ∃ fields, Assoc.get? (Assoc.insert _ _ _) _ = _
  rw [Assoc.get?_insert, Name.text_beq_text]
  by_cases same : name = other
  · subst same
    obtain ⟨fields, rfl⟩ := isObject mem
    exact ⟨fields, by simp⟩
  · rw [if_neg (by simpa using same)]
    exact h other mem

theorem sectioned_builtIn (ready : Bool) : Sectioned { values := builtIn, ready } := by
  simp [Sectioned, builtIn]

theorem Sectioned.exec_assign {s : Settings} (h : s.Sectioned) {name : String}
    (mem : name ∈ ["encryption", "logging", "database"]) (key : String) (v : Value) (log : Log) :
    ∃ s', (assign name key v).exec s log = (.ok (), s', log) ∧ s'.Sectioned := by
  obtain ⟨fields, found⟩ := h name mem
  rw [assign, Act.exec_bind]
  simp only [Act.exec_get, found]
  exact ⟨_, rfl, h.insert fun _ => ⟨_, rfl⟩⟩

theorem Sectioned.exec_applyLevel {s : Settings} (h : s.Sectioned) (around : Surroundings)
    (log : Log) :
    ∃ s', (applyLevel around).exec s log = (.ok (), s', log) ∧ s'.Sectioned := by
  unfold applyLevel
  split
  · exact h.exec_assign (by decide) ..
  · exact ⟨s, rfl, h⟩

theorem Sectioned.exec_applyDatabase {s : Settings} (h : s.Sectioned) (around : Surroundings)
    (overrides : List (String × String)) (log : Log) :
    ∃ s', (applyDatabase around overrides).exec s log = (.ok (), s', log) ∧ s'.Sectioned := by
  induction overrides generalizing s with
  | nil => exact ⟨s, rfl, h⟩
  | cons e rest ih =>
    obtain ⟨name, key⟩ := e
    rw [applyDatabase]
    split
    · next text found =>
      have isSection : "database" ∈ ["encryption", "logging", "database"] := by decide
      obtain ⟨s₁, ran, h₁⟩ := h.exec_assign isSection key (.text text) log
      rw [Act.exec_bind, ran]
      exact ih h₁
    · exact ih h

/-- Whether the environment gives a number of iterations by digits that are not read as a number,
and the failure that this is. -/
def FailsOnIterations (around : Surroundings) (why : Failure) : Prop :=
  ∃ text fault, around.findVariable "FIELDSEAL_KEY_ITERATIONS" = some text ∧
    Text.allDigits text = true ∧ Literal.read text.toList = .error fault ∧
    why = .refused (.notWhole text fault)

theorem Sectioned.exec_applyIterations {s : Settings} (h : s.Sectioned) (around : Surroundings)
    (log : Log) :
    (∃ s', (applyIterations around).exec s log = (.ok (), s', log) ∧ s'.Sectioned) ∨
      ∃ why, FailsOnIterations around why ∧
        (applyIterations around).exec s log = (.error why, s, log) := by
  unfold applyIterations
  split
  · next text found =>
    split
    · next digits =>
      split
      · exact .inl (h.exec_assign (by decide) ..)
      · next fault read => exact .inr ⟨_, ⟨text, fault, found, digits, read, rfl⟩, rfl⟩
    · exact .inl ⟨s, rfl, h⟩
  · exact .inl ⟨s, rfl, h⟩

theorem Sectioned.exec_applyOthers {s : Settings} (h : s.Sectioned) (around : Surroundings)
    (log : Log) :
    (∃ s', (applyOthers around).exec s log = (.ok (), s', log)) ∨
      ∃ why, FailsOnIterations around why ∧
        (applyOthers around).exec s log = (.error why, s, log) := by
  rw [applyOthers, Act.exec_bind]
  rcases h.exec_applyIterations around log with ⟨s₁, ran, h₁⟩ | ⟨why, fails, ran⟩
  · obtain ⟨s₂, ran₂, h₂⟩ := h₁.exec_applyLevel around log
    obtain ⟨s₃, ran₃, -⟩ := h₂.exec_applyDatabase around databaseVariables log
    rw [ran]
    simp only [Act.exec_bind, ran₂, ran₃]
    exact .inl ⟨s₃, rfl⟩
  · rw [ran]
    exact .inr ⟨why, fails, rfl⟩

/-! ## Settings that are set up when they are asked for -/

theorem exec_ensureReady_of_ready {s : Settings} (ready : s.ready = true) (log : Log) :
    (ensureReady around).exec s log = (.ok (), s, log) := by
  rw [ensureReady, Act.exec_bind]
  simp [ready]

/-- A query answers from the settings that were set up for it. -/
theorem exec_query {s s₁ : Settings} {log log₁ : Log}
    (begun : (ensureReady around).exec s log = (.ok (), s₁, log₁)) (key : String)
    (default : Value) :
    (query around key default).exec s log =
      (.ok ((lookup s₁.values key).getD default), s₁, log₁) := by
  rw [query, Act.exec_bind, begun]
  rfl

/-- Settings that are not ready are set up without a file, which leaves production mode and fails on
nothing but the number of iterations. -/
theorem exec_ensureReady (prod : around.SetsProduction) {s : Settings}
    (ready : s.ready = false) (log : Log) :
    (∃ s', (ensureReady around).exec s log = (.ok (), s', log) ∧ s'.ready = true ∧
        s'.InProduction builtIn) ∨
      ∃ why s', FailsOnIterations around why ∧
        (ensureReady around).exec s log = (.error why, s', log) ∧ s'.ready = false ∧
        s'.InProduction builtIn := by
  have begun : (ensureReady around).exec s log =
      (complete around).exec { s with values := builtIn } log := by
    rw [ensureReady, Act.exec_bind]
    simp only [Act.exec_get, ready, Bool.not_false, if_true]
    have without : taken around .null = some [] := rfl
    rw [exec_setUp without, merge, ready]
  have left := (inProduction_complete prod { s with values := builtIn } log).1
  rw [exec_complete prod] at begun left
  have sectioned : (toProduction { s with values := builtIn }).Sectioned :=
    (sectioned_builtIn s.ready).insert fun mem => by simp at mem
  rcases sectioned.exec_applyOthers around log with ⟨s', ran⟩ | ⟨why, fails, ran⟩
  · rw [ran] at begun left
    exact .inl ⟨_, begun, rfl, left⟩
  · rw [ran] at begun left
    exact .inr ⟨why, _, fails, begun, ready, left⟩

/-! ## Secrets -/

/-- What a secrets file merges goes into settings that are set up; without a file they stay as they
are. -/
theorem exec_loadSecretsAs {s : Settings} (ready : s.ready = true) (path shown : String)
    (log : Log) :
    ((loadSecretsAs around path shown).exec s log).2.1 =
      { s with values := merge s.values ((filed around (.text path)).getD []) } := by
  have same : s = { s with values := merge s.values [] } := by rw [merge]
  rw [loadSecretsAs, Act.exec_bind, exec_ensureReady_of_ready ready]
  dsimp only
  rw [filed, Value.text?, Option.bind_some, documentAt]
  cases around.lookup path with
  | missing => exact same
  | tooLong => exact same
  | found content =>
    cases content with
    | invalid | directory => exact same
    | document v =>
      simp only [Surroundings.read, Except.toOption, Option.bind_some]
      cases given : fieldsOf (Surroundings.readValue v) with
      | some fields =>
        simp only [Act.exec_bind, exec_mergeDocument (isNested_readValue v) given]
        rfl
      | none =>
        obtain ⟨why, failed⟩ := exec_mergeDocument_of_none given s log
        simp only [Act.exec_bind, failed]
        exact same

/-- Secrets are merged into the settings that were set up for them. -/
theorem exec_loadSecrets {path : Value} {s s₁ : Settings} {log log₁ : Log}
    (begun : (ensureReady around).exec s log = (.ok (), s₁, log₁)) (ready : s₁.ready = true) :
    ((loadSecrets around path).exec s log).2.1 =
      { s₁ with values := merge s₁.values ((filed around path).getD []) } := by
  have same : s₁ = { s₁ with values := merge s₁.values [] } := by rw [merge]
  rw [loadSecrets, Act.exec_bind, begun]
  cases path with
  | text p =>
    simp only [pathOf, Act.exec_bind, Act.exec_ofExcept]
    exact exec_loadSecretsAs ready p p log₁
  | _ => exact same

end Settings

end RecordSeal
