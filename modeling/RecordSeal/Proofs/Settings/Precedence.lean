import RecordSeal.CommandLine
import RecordSeal.Proofs.Result
import RecordSeal.Proofs.Settings.Production

set_option autoImplicit false

/-! # Which source of settings wins

Setting up gives every setting for which the environment has an accepted value that value, whatever
the settings file says (`Settings.valueAt_setUp`). The command line merges the secrets file after
that, so what the secrets say of a setting stands in the place of what the environment gave it, the
mode that was asked for by an option included (`CommandLine.environment_unless_secrets`). -/

namespace RecordSeal

namespace Settings

variable {around : Surroundings} {s s' : Settings} {log log' : Log}

/-! ## Settings by their paths -/

/-- The sections of settings that environment overrides reach into. -/
def sections : List String := ["encryption", "logging", "database"]

/-- Whether a path leads to the mode or into one of these sections. -/
def IsSetting : List String → Prop
  | [name] => name = "mode"
  | [name, _] => name ∈ sections
  | _ => False

/-- The value at a path of names. -/
def valueAt (s : Settings) (path : List String) : Option Value := atPath (.object s.values) path

theorem atPath_single (fields : Record) (name : String) :
    atPath (.object fields) [name] = fields.get? name := by
  simp only [atPath]
  cases fields.get? name <;> rfl

theorem atPath_pair (fields : Record) (name key : String) :
    atPath (.object fields) [name, key] =
      (fields.get? name).bind fun v => v.object?.bind fun inner => inner.get? key := by
  simp only [atPath]
  cases fields.get? name with
  | none => rfl
  | some v =>
    cases v with
    | object inner => exact atPath_single inner key
    | _ => rfl

/-! ## What operations put -/

/-- Whether an operation that ends well leaves these values at their paths and no other setting
changed. -/
def Puts (entries : List (List String × Value)) (act : Act Settings Unit) : Prop :=
  ∀ s log s' log', act.exec s log = (.ok (), s', log') →
    (∀ e ∈ entries, s'.valueAt e.1 = some e.2) ∧
      ∀ path, IsSetting path → (∀ e ∈ entries, e.1 ≠ path) → s'.valueAt path = s.valueAt path

theorem puts_pure : Puts [] (pure () : Act Settings Unit) := by
  intro s log s' log' ran
  cases ran
  simp

/-- Operations for different paths put what each of them puts. -/
theorem Puts.bind {entries entries' : List (List String × Value)} {act act' : Act Settings Unit}
    (first : Puts entries act) (second : Puts entries' act')
    (settings : ∀ e ∈ entries, IsSetting e.1)
    (apart : ∀ e ∈ entries, ∀ e' ∈ entries', e'.1 ≠ e.1) :
    Puts (entries ++ entries') (do act; act') := by
  intro s log s' log' ran
  obtain ⟨⟨⟩, s₁, log₁, ran₁, ran₂⟩ := Act.exec_bind_eq_ok ran
  obtain ⟨put, kept⟩ := first s log s₁ log₁ ran₁
  obtain ⟨put', kept'⟩ := second s₁ log₁ s' log' ran₂
  constructor
  · intro e he
    rcases List.mem_append.1 he with he | he
    · rw [kept' e.1 (settings e he) (apart e he), put e he]
    · exact put' e he
  · intro path isSetting other
    rw [kept' path isSetting fun e he => other e (List.mem_append_right _ he),
      kept path isSetting fun e he => other e (List.mem_append_left _ he)]

theorem puts_assign {name : String} (inSection : name ∈ sections) (key : String) (v : Value) :
    Puts [([name, key], v)] (assign name key v) := by
  intro s log s' log' ran
  rw [assign, Act.exec_bind] at ran
  simp only [Act.exec_get] at ran
  split at ran
  · next fields found =>
    cases ran
    constructor
    · intro e he
      obtain rfl := List.mem_singleton.1 he
      simp [valueAt, atPath_pair, Assoc.get?_insert, Value.object?]
    · intro path isSetting other
      have different : path ≠ [name, key] := fun same =>
        other _ (List.mem_singleton_self _) same.symm
      rcases path with _ | ⟨a, _ | ⟨b, _ | ⟨c, rest⟩⟩⟩
      · exact isSetting.elim
      · obtain rfl : a = "mode" := isSetting
        have outside : name ≠ "mode" := by
          rintro rfl
          simp [sections] at inSection
        simp [valueAt, atPath_single, Assoc.get?_insert, outside]
      · rw [valueAt, valueAt, atPath_pair, atPath_pair, Assoc.get?_insert, Name.text_beq_text]
        by_cases same : name = a
        · subst same
          have otherKey : key ≠ b := by
            rintro rfl
            exact different rfl
          simp [found, Value.object?, Assoc.get?_insert, otherKey]
        · rw [if_neg (by simpa using same)]
      · exact isSetting.elim
  · cases ran
  · cases ran

/-! ## What the environment gives -/

/-- The mode that the environment gives. -/
def givenMode (around : Surroundings) : List (List String × Value) :=
  match around.findVariable "FIELDSEAL_MODE" with
  | some mode => if mode = "DEV" ∨ mode = "PROD" then [(["mode"], .text mode)] else []
  | none => []

/-- The number of iterations that the environment gives in digits. -/
def givenIterations (around : Surroundings) : List (List String × Value) :=
  match around.findVariable "FIELDSEAL_KEY_ITERATIONS" with
  | some text =>
    if Text.allDigits text then
      match Literal.read text.toList with
      | .ok n => [(["encryption", "key_iterations"], .int n)]
      | .error _ => []
    else []
  | none => []

/-- The log level that the environment gives, in upper case. -/
def givenLevel (around : Surroundings) : List (List String × Value) :=
  match around.findVariable "FIELDSEAL_LOG_LEVEL" with
  | some text => [(["logging", "level"], .text (Text.upper text))]
  | none => []

/-- The database settings that the environment gives. -/
def givenDatabase (around : Surroundings) (overrides : List (String × String)) :
    List (List String × Value) :=
  overrides.filterMap fun e =>
    (around.findVariable e.1).map fun text => (["database", e.2], .text text)

/-- The settings that the environment gives accepted values. -/
def given (around : Surroundings) : List (List String × Value) :=
  givenMode around ++
    (givenIterations around ++ (givenLevel around ++ givenDatabase around databaseVariables))

theorem path_of_givenMode {e : List String × Value} (h : e ∈ givenMode around) :
    e.1 = ["mode"] ∧ ∃ text, e.2 = .text text := by
  unfold givenMode at h
  split at h
  · split at h
    · simp [List.mem_singleton.1 h]
    · cases h
  · cases h

theorem path_of_givenIterations {e : List String × Value} (h : e ∈ givenIterations around) :
    e.1 = ["encryption", "key_iterations"] ∧ ∃ n, e.2 = .int n := by
  unfold givenIterations at h
  split at h
  · split at h
    · split at h
      · simp [List.mem_singleton.1 h]
      · cases h
    · cases h
  · cases h

theorem path_of_givenLevel {e : List String × Value} (h : e ∈ givenLevel around) :
    e.1 = ["logging", "level"] ∧ ∃ text, e.2 = .text text := by
  unfold givenLevel at h
  split at h
  · simp [List.mem_singleton.1 h]
  · cases h

theorem path_of_givenDatabase {overrides : List (String × String)} {e : List String × Value}
    (h : e ∈ givenDatabase around overrides) :
    (∃ v ∈ overrides, e.1 = ["database", v.2]) ∧ ∃ text, e.2 = .text text := by
  obtain ⟨v, hv, made⟩ := List.mem_filterMap.1 h
  obtain ⟨text, -, rfl⟩ := Option.map_eq_some_iff.1 made
  exact ⟨⟨v, hv, rfl⟩, text, rfl⟩

theorem setting_of_given {e : List String × Value} (h : e ∈ given around) :
    IsSetting e.1 ∧ e.2.object? = none := by
  simp only [given, List.mem_append] at h
  rcases h with h | h | h | h
  · obtain ⟨path, text, v⟩ := path_of_givenMode h
    simp [path, v, IsSetting, Value.object?]
  · obtain ⟨path, n, v⟩ := path_of_givenIterations h
    simp [path, v, IsSetting, sections, Value.object?]
  · obtain ⟨path, text, v⟩ := path_of_givenLevel h
    simp [path, v, IsSetting, sections, Value.object?]
  · obtain ⟨⟨_, -, path⟩, text, v⟩ := path_of_givenDatabase h
    simp [path, v, IsSetting, sections, Value.object?]

theorem puts_applyMode : Puts (givenMode around) (applyMode around) := by
  rw [givenMode, applyMode]
  cases around.findVariable "FIELDSEAL_MODE" with
  | none => exact puts_pure
  | some mode =>
    dsimp only
    split
    · next accepted =>
      intro s log s' log' ran
      cases ran
      constructor
      · intro e he
        obtain rfl := List.mem_singleton.1 he
        simp [valueAt, atPath_single, Assoc.get?_insert]
      · intro path isSetting other
        have different : path ≠ ["mode"] := fun same =>
          other _ (List.mem_singleton_self _) same.symm
        rcases path with _ | ⟨a, _ | ⟨b, _ | ⟨c, rest⟩⟩⟩
        · exact isSetting.elim
        · exact absurd (congrArg (fun n => [n]) isSetting) different
        · have outside : "mode" ≠ a := by
            rintro rfl
            simp [IsSetting, sections] at isSetting
          simp [valueAt, atPath_pair, Assoc.get?_insert, outside]
        · exact isSetting.elim
    · exact puts_pure

theorem puts_applyIterations : Puts (givenIterations around) (applyIterations around) := by
  rw [givenIterations, applyIterations]
  cases around.findVariable "FIELDSEAL_KEY_ITERATIONS" with
  | none => exact puts_pure
  | some text =>
    dsimp only
    split
    · cases Literal.read text.toList with
      | ok n => exact puts_assign (by decide) "key_iterations" (.int n)
      | error fault =>
        intro s log s' log' ran
        cases ran
    · exact puts_pure

theorem puts_applyLevel : Puts (givenLevel around) (applyLevel around) := by
  rw [givenLevel, applyLevel]
  cases around.findVariable "FIELDSEAL_LOG_LEVEL" with
  | none => exact puts_pure
  | some text => exact puts_assign (by decide) "level" (.text (Text.upper text))

/-- Variables for different settings are applied one after the other. -/
theorem puts_applyDatabase {overrides : List (String × String)}
    (nodup : (overrides.map Prod.snd).Nodup) :
    Puts (givenDatabase around overrides) (applyDatabase around overrides) := by
  induction overrides with
  | nil => exact puts_pure
  | cons v rest ih =>
    obtain ⟨name, key⟩ := v
    rw [List.map_cons, List.nodup_cons] at nodup
    have others := ih nodup.2
    rw [givenDatabase, List.filterMap_cons, applyDatabase]
    cases found : around.findVariable name with
    | none => exact puts_pure.bind others (by simp) (by simp)
    | some text =>
      have first : Puts [(["database", key], .text text)] (assign "database" key (.text text)) :=
        puts_assign (by decide) key _
      refine first.bind others ?_ ?_
      · intro e he
        obtain rfl := List.mem_singleton.1 he
        simp [IsSetting, sections]
      · intro e he e' he' same
        obtain rfl := List.mem_singleton.1 he
        obtain ⟨⟨v, hv, path⟩, -⟩ := path_of_givenDatabase he'
        rw [path] at same
        simp only [List.cons.injEq, true_and, and_true] at same
        exact nodup.1 (List.mem_map.2 ⟨v, hv, same⟩)

theorem puts_applyVariables : Puts (given around) (applyVariables around) := by
  have database : Puts (givenDatabase around databaseVariables)
      (applyDatabase around databaseVariables) := puts_applyDatabase (by decide)
  have setting {e : List String × Value} (h : e ∈ given around) : IsSetting e.1 :=
    (setting_of_given h).1
  refine puts_applyMode.bind (puts_applyIterations.bind (puts_applyLevel.bind database ?_ ?_)
    ?_ ?_) ?_ ?_
  · intro e he
    exact setting (by simp [given, he])
  · intro e he e' he'
    obtain ⟨⟨_, -, path'⟩, -⟩ := path_of_givenDatabase he'
    rw [(path_of_givenLevel he).1, path']
    simp
  · intro e he
    exact setting (by simp [given, he])
  · intro e he e' he'
    rw [(path_of_givenIterations he).1]
    rcases List.mem_append.1 he' with he' | he'
    · simp [(path_of_givenLevel he').1]
    · obtain ⟨⟨_, -, path'⟩, -⟩ := path_of_givenDatabase he'
      simp [path']
  · intro e he
    exact setting (by simp [given, he])
  · intro e he e' he'
    rw [(path_of_givenMode he).1]
    simp only [List.mem_append] at he'
    rcases he' with he' | he' | he'
    · simp [(path_of_givenIterations he').1]
    · simp [(path_of_givenLevel he').1]
    · obtain ⟨⟨_, -, path'⟩, -⟩ := path_of_givenDatabase he'
      simp [path']

/-- A set-up that ends well leaves what the environment gives, whatever the settings file says. -/
theorem valueAt_setUp {path : Value} (ran : (setUp around path).exec s log = (.ok (), s', log')) :
    s'.ready = true ∧ ∀ e ∈ given around, s'.valueAt e.1 = some e.2 := by
  cases took : taken around path with
  | none =>
    obtain ⟨why, _, failed⟩ := exec_setUp_of_not_taken took s log
    cases ran.symm.trans failed
  | some fields =>
    rw [exec_setUp took, complete] at ran
    obtain ⟨⟨⟩, s₁, log₁, applied, finished⟩ := Act.exec_bind_eq_ok ran
    cases finished
    exact ⟨rfl, (puts_applyVariables _ _ _ _ applied).1⟩

/-! ## Secrets -/

/-- Whether the fields of a file are those of a mapping with distinct names whose sections are
mappings again. -/
structure Sectional (fields : Record) : Prop where
  distinct : fields.Distinct
  objects : ∀ name ∈ sections, ∀ v, fields.get? (.text name) = some v →
    ∃ inner, v = .object inner ∧ Assoc.Distinct inner

theorem get?_merge_of_plain {m fields : Record} (distinct : fields.Distinct) {q : Name} {v : Value}
    (plain : v.object? = none) (there : m.get? q = some v) :
    (merge m fields).get? q = some ((fields.get? q).getD v) := by
  rw [get?_merge distinct, there]
  cases fields.get? q with
  | none => rfl
  | some w => simp [mergeValue_of_plain plain]

/-- What a file of sections says of a setting takes the place of what stood there. -/
theorem atPath_merge {m fields : Record} (sectional : Sectional fields) {path : List String}
    (isSetting : IsSetting path) {v : Value} (plain : v.object? = none)
    (there : atPath (.object m) path = some v) :
    atPath (.object (merge m fields)) path = some ((atPath (.object fields) path).getD v) := by
  rcases path with _ | ⟨name, _ | ⟨key, _ | ⟨c, rest⟩⟩⟩
  · exact isSetting.elim
  · rw [atPath_single] at there ⊢
    rw [atPath_single, get?_merge_of_plain sectional.distinct plain there]
  · rw [atPath_pair] at there ⊢
    rw [atPath_pair, get?_merge sectional.distinct]
    obtain ⟨old, found, inside⟩ := Option.bind_eq_some_iff.1 there
    obtain ⟨inner, isObject, held⟩ := Option.bind_eq_some_iff.1 inside
    cases said : fields.get? name with
    | none =>
      dsimp only
      rw [there]
      rfl
    | some w =>
      obtain ⟨fields', rfl, distinct⟩ := sectional.objects name isSetting w said
      cases old with
      | object oldFields =>
        obtain rfl : oldFields = inner := Option.some.inj isObject
        have merged := get?_merge_of_plain distinct plain held
        simpa [found, mergeValue, Value.object?] using merged
      | _ => cases isObject
  · exact isSetting.elim

/-- Whether settings that are ready stay as they are. -/
def Rests (s s' : Settings) : Prop := s.ready = true → s' = s

instance : Std.Refl Rests := ⟨fun _ _ => rfl⟩

instance : IsTrans Settings Rests := by
  refine ⟨fun s s' s'' h h' ready => ?_⟩
  obtain rfl := h ready
  exact h' ready

theorem rests_query (key : String) (default : Value) : (query around key default).Keeps Rests := by
  intro s log ready
  rw [exec_query (exec_ensureReady_of_ready ready log)]

theorem rests_configureLog (level : Value) : (configureLog around level).Keeps Rests := by
  have asked : (logLevel around).Keeps Rests :=
    (rests_query _ _).bind fun _ => Act.keeps_pure _
  unfold configureLog
  dsimp only
  split <;> split
  all_goals
    refine Act.Keeps.bind ?_ fun name => ?_
    · first | exact asked | exact Act.keeps_pure _ | exact Act.keeps_fail _
    · -- However the name was found, the level is refused or the log is adjusted.
      split
      · exact Act.keeps_fail _
      · exact fun s _ => refl_of Rests s

end Settings

namespace CommandLine

open Settings (secretsAt)

variable {o : Options} {σ σ' : Session} {log log' : Log}

/-! ## Options -/

/-- A mode that options ask for is one of the two. -/
def Options.Accepted (o : Options) : Prop := ∀ mode ∈ o.mode, mode = "DEV" ∨ mode = "PROD"

theorem Options.Accepted.take {o o' : Options} (h : o.Accepted) {name : OptionName} {v : String}
    (taken : o.take name v = .ok o') : o'.Accepted := by
  unfold Options.take at taken
  split at taken
  case h_2 =>
    split at taken
    · cases taken
      exact h
    · cases taken
  case h_4 =>
    split at taken
    · next accepted =>
      cases taken
      intro mode asked
      cases asked
      exact accepted
    · cases taken
  all_goals
    cases taken
    try exact h

theorem accepted_of_readFrom {o o' : Options} {stray : Bool} {args : List String}
    (h : o.Accepted) (read : readFrom o stray args = .ok o') : o'.Accepted := by
  -- An option with a value takes it, whether it came with it or after it.
  have taken {o : Options} {name : OptionName} {v : String} {stray : Bool} {rest : List String}
      (h : o.Accepted)
      (ih : ∀ o : Options, o.Accepted → readFrom o stray rest = .ok o' → o'.Accepted)
      (read : (o.take name v).bind (fun o => readFrom o stray rest) = .ok o') : o'.Accepted := by
    obtain ⟨o₁, took, read⟩ := exists_of_bind_eq_ok read
    exact ih o₁ (h.take took) read
  fun_induction readFrom o stray args with
  | case1 | case3 | case4 | case8 | case9 => cases read
  | case2 =>
    cases read
    exact h
  | case5 o stray arg rest _ _ ih => exact ih h read
  | case6 o stray arg rest _ name v _ ih => exact taken h ih read
  | case7 o stray arg _ name _ _ _ v rest _ ih => exact taken h ih read
  | case10 o stray arg rest _ _ _ _ _ ih => exact ih h read

/-- Options that were read ask for one of the two modes or for none. -/
theorem accepted_of_read {args : List String} (read : Options.read args = .ok o) : o.Accepted := by
  unfold Options.read at read
  split at read
  · cases read
  · refine accepted_of_readFrom ?_ read
    intro mode none
    cases none

/-! ## Setting up -/

/-- The surroundings of a run: a mode that is asked for is set in the environment. -/
def surroundings (o : Options) (around : Surroundings) : Surroundings :=
  match o.mode with
  | some mode => around.setVariable "FIELDSEAL_MODE" mode
  | none => around

theorem mode_mem_given {mode : String} (accepted : o.Accepted) (asked : o.mode = some mode)
    (around : Surroundings) : (["mode"], .text mode) ∈ Settings.given (surroundings o around) := by
  have known : mode = "DEV" ∨ mode = "PROD" := accepted mode asked
  have found : (surroundings o around).findVariable "FIELDSEAL_MODE" = some mode := by
    have there : (surroundings o around).environment.get? "FIELDSEAL_MODE" = some mode := by
      rw [surroundings, asked]
      show Assoc.get? (Assoc.insert _ _ _) _ = _
      simp [Assoc.get?_insert]
    rw [Surroundings.findVariable, there]
    rcases known with rfl | rfl <;> rfl
  simp [Settings.given, Settings.givenMode, found, known]

/-- What is done with the settings of a session is done in its surroundings. -/
theorem exists_of_onSettings {α : Type} {act : Surroundings → Act Settings α} {a : α}
    (ran : (Session.onSettings act).exec σ log = (.ok a, σ', log')) :
    ∃ settings, (act σ.around).exec σ.settings log = (.ok a, settings, log') ∧
      σ' = { σ with settings } := by
  have parts : (Session.onSettings act).exec σ log =
      (((act σ.around).exec σ.settings log).1,
        { σ with settings := ((act σ.around).exec σ.settings log).2.1 },
        ((act σ.around).exec σ.settings log).2.2) := rfl
  rw [parts, Prod.mk.injEq, Prod.mk.injEq] at ran
  obtain ⟨ended, rfl, rfl⟩ := ran
  exact ⟨_, by rw [← ended], rfl⟩

theorem secretsAt_of_not_there {around : Surroundings} {path : String}
    (absent : ¬ around.isThere path = true) : secretsAt around (.text path) = [] := by
  unfold Surroundings.isThere at absent
  rw [secretsAt, Settings.filed, Value.text?, Option.bind_some, Settings.documentAt]
  split at absent
  · exact absurd rfl absent
  · next other =>
    cases found : around.lookup path with
    | found content => exact absurd found (other content)
    | _ => rfl

/-- What setting up does once the mode is in the environment. -/
def setUpWithin (o : Options) : Act Session Unit := do
  Session.onSettings fun around => Settings.setUp around (.ofText? o.config)
  Session.onSettings fun around => Settings.configureLog around .null
  let around := (← get).around
  if around.isThere secretsPlace then
    Session.onSettings fun around =>
      Settings.loadSecretsAs around secretsPlace s!"{around.home}/{secretsPlace}"

theorem exec_setUp (o : Options) (σ : Session) (log : Log) :
    (setUp o).exec σ log =
      (setUpWithin o).exec { σ with around := surroundings o σ.around } log := by
  unfold setUp surroundings
  cases o.mode <;> rfl

/-- The settings that are left are those of a set-up, with the secrets merged into them. -/
theorem exists_of_setUpWithin (ran : (setUpWithin o).exec σ log = (.ok (), σ', log')) :
    ∃ settings : Settings, (∀ e ∈ Settings.given σ.around, settings.valueAt e.1 = some e.2) ∧
      σ'.settings.values =
        Settings.merge settings.values (secretsAt σ.around (.text secretsPlace)) := by
  unfold setUpWithin at ran
  obtain ⟨⟨⟩, _, log₁, begun, ran⟩ := Act.exec_bind_eq_ok ran
  obtain ⟨settings, ran₁, rfl⟩ := exists_of_onSettings begun
  obtain ⟨ready, given⟩ := Settings.valueAt_setUp ran₁
  obtain ⟨⟨⟩, _, log₂, logged, ran⟩ := Act.exec_bind_eq_ok ran
  obtain ⟨settings', ran₂, rfl⟩ := exists_of_onSettings logged
  -- The log is set up by the settings and leaves them.
  obtain rfl : settings' = settings := by
    have rests := @Settings.rests_configureLog σ.around .null settings log₁
    rw [ran₂] at rests
    exact rests ready
  refine ⟨settings', given, ?_⟩
  rw [Act.exec_bind, Act.exec_get] at ran
  dsimp only at ran
  split at ran
  · obtain ⟨merged, ran₃, rfl⟩ := exists_of_onSettings ran
    have secrets := @Settings.exec_loadSecretsAs σ.around settings' ready secretsPlace
      s!"{σ.around.home}/{secretsPlace}" log₂
    rw [ran₃] at secrets
    exact congrArg Settings.values secrets
  · next absent =>
    cases ran
    rw [secretsAt_of_not_there absent, Settings.merge]

/-- After the command line has set up settings and log and merged the secrets, every setting that
the environment or the mode option gives an accepted value has what the secrets say of it, and the
given value only if they say nothing. -/
theorem environment_unless_secrets {args : List String} (read : Options.read args = .ok o)
    {secrets : Record}
    (said : secretsAt (surroundings o σ.around) (.text secretsPlace) = secrets)
    (sectional : Settings.Sectional secrets) (ran : (setUp o).exec σ log = (.ok (), σ', log')) :
    (∀ e ∈ Settings.given (surroundings o σ.around), σ'.settings.valueAt e.1 =
      some ((Settings.atPath (.object secrets) e.1).getD e.2)) ∧
    ∀ mode, o.mode = some mode → Settings.lookup σ'.settings.values "mode" =
      some ((secrets.get? "mode").getD (.text mode)) := by
  rw [exec_setUp] at ran
  obtain ⟨settings, begun, merged⟩ := exists_of_setUpWithin ran
  have values (e : List String × Value) (he : e ∈ Settings.given (surroundings o σ.around)) :
      σ'.settings.valueAt e.1 = some ((Settings.atPath (.object secrets) e.1).getD e.2) := by
    obtain ⟨isSetting, plain⟩ := Settings.setting_of_given he
    rw [Settings.valueAt, merged, said]
    exact Settings.atPath_merge sectional isSetting plain (begun e he)
  refine ⟨values, ?_⟩
  intro mode asked
  have there := values _ (mode_mem_given (accepted_of_read read) asked σ.around)
  rwa [Settings.valueAt, Settings.atPath_single, Settings.atPath_single, ← Settings.lookup_mode]
    at there

/-- Secrets that set development mode. -/
def sampleSecrets : Record := [("mode", .text "DEV")]

/-- A session with these secrets in their place and a password in the environment. -/
def sampleRun : Session where
  around :=
    { environment := [("FIELDSEAL_DB_PASSWORD", "p")],
      files := [([".secrets"], .directory),
        ([".secrets", "fieldseal.yaml"], .document (.object sampleSecrets))],
      now := ⟨2024, 1, 2, 3, 4, 5, 0⟩, entropy := Entropy.cyclic [1] }

/-- The password is what the environment gives, the mode what the secrets say and not what was asked
for. -/
theorem environment_unless_secrets_sample : ∃ o σ' log',
    Options.read ["--mode", "PROD"] = .ok o ∧
    (setUp o).exec sampleRun {} = (.ok (), σ', log') ∧
    σ'.settings.valueAt ["database", "password"] = some (.text "p") ∧
    Settings.lookup σ'.settings.values "mode" = some (.text "DEV") := by
  have read : Options.read ["--mode", "PROD"] = .ok { mode := some "PROD" } := rfl
  have said : secretsAt (surroundings { mode := some "PROD" } sampleRun.around)
      (.text secretsPlace) = sampleSecrets := rfl
  have given : Settings.given (surroundings { mode := some "PROD" } sampleRun.around) =
      [(["mode"], .text "PROD"), (["database", "password"], .text "p")] := rfl
  have sectional : Settings.Sectional sampleSecrets := by
    constructor
    · simp [Assoc.Distinct, Assoc.keys, sampleSecrets]
    · simp [Settings.sections, sampleSecrets]
  obtain ⟨σ', log', ran⟩ : ∃ σ' log',
      (setUp { mode := some "PROD" }).exec sampleRun {} = (.ok (), σ', log') := ⟨_, _, rfl⟩
  obtain ⟨values, mode⟩ := environment_unless_secrets read said sectional ran
  refine ⟨_, σ', log', read, ran, ?_, mode "PROD" rfl⟩
  exact values (["database", "password"], .text "p") (by simp [given])

end CommandLine

end RecordSeal
