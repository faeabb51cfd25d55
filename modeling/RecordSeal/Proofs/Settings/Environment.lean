import RecordSeal.Proofs.Number.Literal
import RecordSeal.Proofs.Seal.Outcome
import RecordSeal.Proofs.Settings.Failure
import RecordSeal.Proofs.Settings.Production

set_option autoImplicit false

/-! # What an environment can break

A set-up without a file takes from the environment what it accepts and keeps the built-in values
otherwise. One variable can make it fail: a number of iterations in digits that cannot be read
(`Surroundings.Misleads`). Whatever number is read becomes the setting, and a sealer that is made
with a master key alone takes it from there; keys can be derived unless it is zero or too large
(`Settings.setUp_unless_misled`). -/

namespace RecordSeal

/-- Whether the environment gives a number of iterations in digits that cannot be read. -/
def Surroundings.Misleads (around : Surroundings) (text : String) : Prop :=
  around.findVariable "FIELDSEAL_KEY_ITERATIONS" = some text ∧ Text.allDigits text = true ∧
    ¬ Literal.IsReadable text

/-- The number of iterations that is in force without a file. -/
def Surroundings.iterations (around : Surroundings) : Nat :=
  match around.findVariable "FIELDSEAL_KEY_ITERATIONS" with
  | some text => if Text.allDigits text then Text.number text else 100000
  | none => 100000

namespace Settings

variable {around : Surroundings} {s : Settings} {log : Log}

/-- The settings that the environment makes of the built-in ones. -/
def fromEnvironment (around : Surroundings) : Settings where
  values := placeAll builtIn (given around)
  ready := true

/-! ## Setting up -/

/-- A number that cannot be read ends a set-up after the mode. -/
theorem exec_setUp_of_misleads {text : String} (misleads : around.Misleads text) (s : Settings)
    (log : Log) : ∃ fault, (setUp around .null).exec s log =
      (.error (.refused (.notWhole text fault)),
        { s with values := placeAll builtIn (givenMode around) }, log) := by
  obtain ⟨found, digits, unreadable⟩ := misleads
  obtain ⟨fault, read⟩ := Literal.exists_fault_of_not_isReadable digits unreadable
  have stops (s : Settings) : (applyIterations around).exec s log =
      (.error (.refused (.notWhole text fault)), s, log) := by
    rw [applyIterations, found]
    simp only [digits, if_true, read]
    rfl
  have without : taken around .null = some [] := rfl
  refine ⟨fault, ?_⟩
  rw [exec_setUp without, merge, complete, applyVariables]
  simp only [Act.exec_bind, exec_applyMode, stops]

theorem sectioned_givenMode (around : Surroundings) (ready : Bool) :
    Sectioned { values := placeAll builtIn (givenMode around), ready } := by
  have plain := sectioned_builtIn ready
  rw [givenMode]
  split
  · next mode _ =>
    split
    · exact @Sectioned.insert _ plain "mode" (.text mode) fun mem => absurd mem (by decide)
    · exact plain
  · exact plain

/-- The built-in settings have a section for everything that the environment gives. -/
theorem exec_applyVariables_builtIn (around : Surroundings) (ready : Bool) (log : Log) :
    (applyVariables around).exec { values := builtIn, ready } log =
      (.ok (), { values := placeAll builtIn (given around), ready }, log) ∨
    ∃ why, FailsOnIterations around why ∧
      (applyVariables around).exec { values := builtIn, ready } log =
        (.error why, { values := placeAll builtIn (givenMode around), ready }, log) := by
  have parts : (applyVariables around).exec { values := builtIn, ready } log =
      (applyOthers around).exec { values := placeAll builtIn (givenMode around), ready } log := by
    have order : applyVariables around = (do applyMode around; applyOthers around) := rfl
    rw [order, Act.exec_bind, exec_applyMode]
  rcases (sectioned_givenMode around ready).exec_applyOthers around log with
    ⟨s', ran⟩ | ⟨why, fails, ran⟩
  · left
    rw [← parts] at ran
    -- It ended well, so it neither stopped at the number nor at a section.
    rcases exec_applyVariables around { values := builtIn, ready } log with
      applied | ⟨_, -, failed⟩ | ⟨_, _, _, -, -, failed⟩
    · exact applied
    · cases ran.symm.trans failed
    · cases ran.symm.trans failed
  · right
    exact ⟨why, fails, parts.trans ran⟩

theorem exec_setUp_of_not_misleads (h : ∀ text, ¬ around.Misleads text) (s : Settings) (log : Log) :
    (setUp around .null).exec s log = (.ok (), fromEnvironment around, log) := by
  have without : taken around .null = some [] := rfl
  rw [exec_setUp without, merge, complete, Act.exec_bind]
  rcases exec_applyVariables_builtIn around s.ready log with ran | ⟨why, fails, -⟩
  · rw [ran]
    rfl
  · obtain ⟨text, fault, found, digits, read, -⟩ := fails
    refine absurd ⟨found, digits, ?_⟩ (h text)
    intro readable
    rw [Literal.read_of_isReadable digits readable] at read
    cases read

/-! ## The settings then -/

/-- Every setting that the environment gives is in force, any other one is the built-in one. -/
theorem valueAt_fromEnvironment (h : ∀ text, ¬ around.Misleads text) :
    (∀ e ∈ given around, (fromEnvironment around).valueAt e.1 = some e.2) ∧
      ∀ path, IsSetting path → (∀ e ∈ given around, e.1 ≠ path) →
        (fromEnvironment around).valueAt path = valueAt { values := builtIn } path := by
  have ran := exec_setUp_of_not_misleads h { values := builtIn } {}
  have without : taken around .null = some [] := rfl
  rw [exec_setUp without, merge, complete] at ran
  obtain ⟨⟨⟩, s₁, log₁, applied, finished⟩ := Act.exec_bind_eq_ok ran
  obtain ⟨put, kept⟩ := puts_applyVariables _ _ _ _ applied
  have same : s₁.values = (fromEnvironment around).values := congrArg (·.2.1.values) finished
  simp only [valueAt, same] at put kept
  exact ⟨put, kept⟩

theorem mem_givenIterations {e : List String × Value} (he : e ∈ given around) {key : String}
    (path : e.1 = ["encryption", key]) : e ∈ givenIterations around ∧ key = "key_iterations" := by
  simp only [given, List.mem_append] at he
  rcases he with he | he | he | he
  · simp [(path_of_givenMode he).1] at path
  · refine ⟨he, ?_⟩
    rw [(path_of_givenIterations he).1] at path
    simp only [List.cons.injEq, true_and, and_true] at path
    exact path.symm
  · simp [(path_of_givenLevel he).1] at path
  · obtain ⟨⟨_, -, path'⟩, -⟩ := path_of_givenDatabase he
    simp [path'] at path

theorem algorithm_fromEnvironment (h : ∀ text, ¬ around.Misleads text) :
    (fromEnvironment around).valueAt ["encryption", "algorithm"] = some (.text "AES-GCM") := by
  rw [(valueAt_fromEnvironment h).2 _ (by simp [IsSetting, sections])]
  · rfl
  · intro e he path
    exact absurd (mem_givenIterations he path).2 (by decide)

theorem iterations_fromEnvironment (h : ∀ text, ¬ around.Misleads text) :
    (fromEnvironment around).valueAt ["encryption", "key_iterations"] =
      some (.int around.iterations) := by
  obtain ⟨put, kept⟩ := valueAt_fromEnvironment h
  -- Where no number is given, the built-in one stays.
  have plain (none : givenIterations around = []) :
      (fromEnvironment around).valueAt ["encryption", "key_iterations"] = some (.int 100000) := by
    rw [kept _ (by simp [IsSetting, sections])]
    · rfl
    · intro e he path
      have mine := (mem_givenIterations he path).1
      rw [none] at mine
      cases mine
  rw [Surroundings.iterations]
  cases found : around.findVariable "FIELDSEAL_KEY_ITERATIONS" with
  | none => exact plain (by rw [givenIterations, found])
  | some text =>
    dsimp only
    by_cases digits : Text.allDigits text = true
    · have readable : Literal.IsReadable text := by
        by_contra unreadable
        exact h text ⟨found, digits, unreadable⟩
      rw [if_pos digits]
      refine put (["encryption", "key_iterations"], .int (Text.number text)) ?_
      have mine : givenIterations around =
          [(["encryption", "key_iterations"], .int (Text.number text))] := by
        rw [givenIterations, found]
        simp only [digits, if_true, Literal.read_of_isReadable digits readable]
      simp [given, mine]
    · rw [if_neg digits]
      refine plain ?_
      rw [givenIterations, found]
      exact if_neg digits

end Settings

/-! ## Sealers then -/

namespace Sealer

open Settings

variable {around : Surroundings}

/-- Keys are derived from a master key that has bytes, unless the number of iterations is zero or
too large. -/
theorem deriveKeys_of_iterations {s : Sealer} {n : Nat} (iterations : s.iterations = n)
    (salt : List UInt8) :
    (0 < n → n < s.limits.iterations →
      ((∃ keys, s.deriveKeys salt = .ok keys) ↔ ∃ bytes, s.masterKey.encoded = .ok bytes)) ∧
    (n = 0 → s.deriveKeys salt = .error (.refused .noIterations)) ∧
    (s.limits.iterations ≤ n → s.deriveKeys salt = .error (.exceeded .tooLarge)) := by
  refine ⟨?_, ?_, ?_⟩
  · intro some bounded
    have fails {why : Failure} :
        s.deriveKeys salt = .error why ↔ s.masterKey.encoded = .error why := by
      rw [deriveKeys_eq_error_iff (by omega), iterations]
      simp [Nat.not_le.2 bounded, bounded]
    cases derived : s.deriveKeys salt with
    | ok keys =>
      cases encoded : s.masterKey.encoded with
      | ok bytes => simp
      | error why => cases derived.symm.trans (fails.2 encoded)
    | error why => simp [fails.1 derived]
  · rintro rfl
    have positive : ¬ (s.limits.iterations : Int) ≤ (0 : Nat) := by
      have := s.limits.iterations_pos
      omega
    rw [deriveKeys, checkedIterations, iterations, if_neg (by omega), if_neg positive]
    rfl
  · intro large
    have positive := s.limits.iterations_pos
    refine (deriveKeys_eq_error_iff (by omega)).2 (.inl ⟨?_, rfl⟩)
    rw [iterations]
    exact_mod_cast large

/-- What is not given to a sealer and stands at the path of a key is taken from there. -/
theorem exec_orQuery_of_valueAt (around : Surroundings) {s : Settings} (ready : s.ready = true)
    {key : String} {path : List String} (pieces : Text.pieces '.' key = path) {v : Value}
    (there : s.valueAt path = some v) (default : Value) (log : Log) :
    (orQuery around .null key default).exec s log = (.ok v, s, log) := by
  have found : lookup s.values key = some v := by
    rw [lookup, pieces]
    exact there
  rw [orQuery, if_neg (by simp [Value.isGiven]),
    exec_query (exec_ensureReady_of_ready ready log), found, Option.getD_some]

/-- A sealer that is made with a master key alone has the number of iterations of the settings. -/
theorem exec_create_fromEnvironment (h : ∀ text, ¬ around.Misleads text) (around' : Surroundings)
    {masterKey : Value} (present : masterKey.isGiven = true) (log : Log) :
    ∃ sealer, (create around' { masterKey }).exec (fromEnvironment around) log =
        (.ok sealer, fromEnvironment around, log) ∧
      sealer.masterKey = masterKey ∧ sealer.iterations = around.iterations ∧
        sealer.limits = around'.limits := by
  have algorithm := @exec_orQuery_of_valueAt around' (fromEnvironment around) rfl
    "encryption.algorithm" _ (by decide) _ (algorithm_fromEnvironment h) (.text "AES-GCM") log
  have iterations := @exec_orQuery_of_valueAt around' (fromEnvironment around) rfl
    "encryption.key_iterations" _ (by decide) _ (iterations_fromEnvironment h) (.int 100000) log
  obtain ⟨signatureName, signature⟩ := @exec_orQuery (fromEnvironment around) around' rfl .null
    "encryption.signature_field" (.text "*field_seal_sig*") log
  obtain ⟨descriptionName, description⟩ := @exec_orQuery (fromEnvironment around) around' rfl .null
    "encryption.material_description_field" (.text "*field_seal_desc*") log
  have known : Algorithm.ofValue (.text "AES-GCM") = .ok .aesGcm := rfl
  have counted : Value.toInt (.int around.iterations) = .ok (around.iterations : Int) := rfl
  rw [create_eq, masterKeyFor, if_pos present, Act.exec_bind, Act.exec_pure]
  simp only [present, if_true, finish, Act.exec_bind, algorithm, Act.exec_ofExcept, known,
    iterations, counted, signature, description, Act.exec_pure]
  exact ⟨_, rfl, rfl, rfl, rfl⟩

end Sealer

namespace Settings

/-- A set-up without a file fails if and only if the environment gives a number of iterations in
digits that cannot be read, and then it leaves the built-in settings and the mode. Otherwise every
accepted value is in force and every other setting is the built-in one. The number of iterations is
a whole number then, and a sealer that is made with a master key alone derives keys with it for any
salt if the master key has bytes, unless it is zero or too large. -/
theorem setUp_unless_misled (around : Surroundings) (s : Settings) (log : Log) :
    (∀ text, around.Misleads text → ∃ fault, (setUp around .null).exec s log =
      (.error (.refused (.notWhole text fault)),
        { s with values := placeAll builtIn (givenMode around) }, log)) ∧
    ((∀ text, ¬ around.Misleads text) → ∃ s', (setUp around .null).exec s log = (.ok (), s', log) ∧
      s'.ready = true ∧ (∀ e ∈ given around, s'.valueAt e.1 = some e.2) ∧
      (∀ path, IsSetting path → (∀ e ∈ given around, e.1 ≠ path) →
        s'.valueAt path = valueAt { values := builtIn } path) ∧
      s'.valueAt ["encryption", "key_iterations"] = some (.int around.iterations) ∧
      ∀ (around' : Surroundings) (masterKey : Value), masterKey.isGiven = true → ∀ log, ∃ sealer,
        (Sealer.create around' { masterKey }).exec s' log = (.ok sealer, s', log) ∧
        ∀ salt,
          (0 < around.iterations → around.iterations < around'.limits.iterations →
            ((∃ keys, sealer.deriveKeys salt = .ok keys) ↔
              ∃ bytes, masterKey.encoded = .ok bytes)) ∧
          (around.iterations = 0 → sealer.deriveKeys salt = .error (.refused .noIterations)) ∧
          (around'.limits.iterations ≤ around.iterations →
            sealer.deriveKeys salt = .error (.exceeded .tooLarge))) := by
  constructor
  · intro text misleads
    exact exec_setUp_of_misleads misleads s log
  · intro h
    obtain ⟨put, kept⟩ := valueAt_fromEnvironment h
    refine ⟨fromEnvironment around, exec_setUp_of_not_misleads h s log, rfl, put, kept,
      iterations_fromEnvironment h, ?_⟩
    intro around' masterKey present log
    obtain ⟨sealer, made, rfl, iterations, limits⟩ :=
      Sealer.exec_create_fromEnvironment h around' present log
    rw [← limits]
    exact ⟨sealer, made, Sealer.deriveKeys_of_iterations iterations⟩

/-- An environment that gives a number of iterations and a mode. -/
def sampleAround (iterations mode : String) : Surroundings where
  environment := [("FIELDSEAL_KEY_ITERATIONS", iterations), ("FIELDSEAL_MODE", mode)]
  files := []
  now := ⟨2024, 1, 2, 3, 4, 5, 0⟩
  entropy := Entropy.cyclic [1]

/-- A superscript two is a digit but no number. With zero a set-up ends well and no keys are
derived; with seven they are, and a mode that is neither of the two leaves the built-in one. -/
theorem setUp_unless_misled_sample :
    (∃ fault s', (setUp (sampleAround "²" "PROD") .null).exec {} {} =
      (.error (.refused (.notWhole "²" fault)), s', {}) ∧
      s'.values.get? "mode" = some (.text "PROD")) ∧
    (∃ s' sealer, (setUp (sampleAround "0" "PROD") .null).exec {} {} = (.ok (), s', {}) ∧
      (Sealer.create (sampleAround "0" "PROD") { masterKey := .text "k" }).exec s' {} =
        (.ok sealer, s', {}) ∧ sealer.deriveKeys [1] = .error (.refused .noIterations)) ∧
    ∃ s' sealer keys, (setUp (sampleAround "7" "prod") .null).exec {} {} = (.ok (), s', {}) ∧
      s'.valueAt ["mode"] = some (.text "DEV") ∧
      (Sealer.create (sampleAround "7" "prod") { masterKey := .text "k" }).exec s' {} =
        (.ok sealer, s', {}) ∧ sealer.deriveKeys [1] = .ok keys := by
  have readable (c : Char) (decimal : (Text.decimalValue? c).isSome = true) :
      Literal.IsReadable (String.singleton c) := by
    refine ⟨?_, by simp [Literal.maxDigits]⟩
    intro d hd
    obtain rfl : d = c := by simpa using hd
    exact decimal
  have sound {text : String} (readable : Literal.IsReadable text) (mode : String)
      (found : (sampleAround text mode).findVariable "FIELDSEAL_KEY_ITERATIONS" = some text) :
      ∀ other, ¬ (sampleAround text mode).Misleads other := by
    rintro other ⟨found', -, unreadable⟩
    obtain rfl := Option.some.inj (found.symm.trans found')
    exact unreadable readable
  refine ⟨?_, ?_, ?_⟩
  · obtain ⟨fault, ran⟩ := (setUp_unless_misled (sampleAround "²" "PROD") {} {}).1 "²"
      ⟨rfl, rfl, fun readable => Bool.false_ne_true (readable.decimal '²' (by simp))⟩
    exact ⟨fault, _, ran, rfl⟩
  · obtain ⟨s', ran, -, -, -, -, sealers⟩ := (setUp_unless_misled (sampleAround "0" "PROD") {} {}).2
      (sound (readable '0' rfl) "PROD" rfl)
    obtain ⟨sealer, made, derived⟩ := sealers (sampleAround "0" "PROD") (.text "k") rfl {}
    exact ⟨s', sealer, ran, made, (derived [1]).2.1 rfl⟩
  · obtain ⟨s', ran, -, -, kept, -, sealers⟩ :=
      (setUp_unless_misled (sampleAround "7" "prod") {} {}).2
        (sound (readable '7' rfl) "prod" rfl)
    obtain ⟨sealer, made, derived⟩ := sealers (sampleAround "7" "prod") (.text "k") rfl {}
    have seven : (sampleAround "7" "prod").iterations = 7 := rfl
    obtain ⟨keys, same⟩ := ((derived [1]).1 (by rw [seven]; decide) (by rw [seven]; decide)).2
      ⟨_, rfl⟩
    refine ⟨s', sealer, keys, ran, ?_, made, same⟩
    have mine : given (sampleAround "7" "prod") =
        [(["encryption", "key_iterations"], .int 7)] := rfl
    rw [kept ["mode"] rfl]
    · rfl
    · simp [mine]

end Settings

end RecordSeal
