import RecordSeal.Proofs.Settings.Load
import RecordSeal.Seal.Setup

set_option autoImplicit false

/-! # The development key in production

A program whose environment sets production mode sets its settings up, merges secrets files and
makes sealers, in any order and with any of it failing. Its mode lapses to development mode in two
ways: a settings file cannot be taken after an earlier set-up, or a secrets file sets the mode
(`Call.Lapsed`). Where no master key is given, the development key stands in for one if and only if
the mode has lapsed (`Sealer.create_in_production`). -/

namespace RecordSeal

variable {around : Surroundings}

/-! ## The mode and the key that settings track -/

namespace Settings

/-- Whether settings stayed as they were, or were set up in production mode without a file. -/
def Settles (s s' : Settings) : Prop := s' = s ∨ s.ready = false ∧ s'.InProduction builtIn

instance : Std.Refl Settles := ⟨fun _ => .inl rfl⟩

instance : IsTrans Settings Settles := by
  refine ⟨fun s s' s'' h h' => ?_⟩
  rcases h' with rfl | ⟨unready', production'⟩
  · exact h
  · rcases h with rfl | ⟨unready, -⟩
    · exact .inr ⟨unready', production'⟩
    · exact .inr ⟨unready, production'⟩

theorem keeps_ensureReady (prod : around.SetsProduction) :
    (ensureReady around).Keeps Settles := by
  intro s log
  cases ready : s.ready with
  | true =>
    rw [exec_ensureReady_of_ready ready]
    exact .inl rfl
  | false =>
    rcases exec_ensureReady prod ready log with
      ⟨s', ran, -, production⟩ | ⟨why, s', -, ran, -, production⟩
    all_goals
      rw [ran]
      exact .inr ⟨ready, production⟩

theorem keeps_query (prod : around.SetsProduction) (key : String)
    (default : Value) : (query around key default).Keeps Settles :=
  (keeps_ensureReady prod).bind fun _ => Act.keeps_get.bind fun _ => Act.keeps_pure _

theorem keeps_orQuery (prod : around.SetsProduction) (given : Value)
    (key : String) (default : Value) : (orQuery around given key default).Keeps Settles := by
  unfold orQuery
  split
  · exact Act.keeps_pure _
  · exact keeps_query prod key default

theorem keeps_isDevMode (prod : around.SetsProduction) :
    (isDevMode around).Keeps Settles := by
  refine (keeps_query prod "mode" .null).bind fun mode => ?_
  split
  · exact Act.keeps_pure _
  · exact Act.keeps_pure _

/-- Whether settings that are ready are in development mode just if a condition holds, and have no
master key of a kind that none of some files gives. -/
structure Tracks (lapsed : Prop) (documents : List Record) (s : Settings) : Prop where
  mode : lapsed ↔ s.ready = true ∧ s.values.get? "mode" = some (.text "DEV")
  key : ∀ P, Inherited P → GivesSome P s.values → ∃ d ∈ documents, GivesSome P d

variable {lapsed : Prop} {documents : List Record} {s : Settings}

theorem InProduction.not_dev {fields : Record} (h : s.InProduction fields) :
    s.values.get? "mode" ≠ some (.text "DEV") := by
  simp [h.mode]

theorem InProduction.not_givesSome (h : s.InProduction builtIn) (P : Value → Prop) :
    ¬ GivesSome P s.values := by
  rintro ⟨key, given, -⟩
  exact not_gives_builtIn key (h.key key given)

theorem Tracks.settles (h : Tracks lapsed documents s) {s' : Settings} (settles : s.Settles s') :
    Tracks lapsed documents s' := by
  rcases settles with rfl | ⟨unready, production⟩
  · exact h
  · refine ⟨⟨fun l => ?_, fun dev => absurd dev.2 production.not_dev⟩, fun P _ given => ?_⟩
    · have ready := (h.mode.1 l).1
      rw [unready] at ready
      cases ready
    · exact absurd given (production.not_givesSome P)

/-! ## What each request does to them -/

theorem Tracks.setUp (prod : around.SetsProduction) (path : Value) (log : Log) :
    Tracks (s.ready = true ∧ taken around path = none) (taken around path).toList
      ((setUp around path).exec s log).2.1 := by
  cases took : taken around path with
  | some fields =>
    obtain ⟨production, -⟩ :=
      inProduction_complete prod { s with values := merge builtIn fields } log
    rw [exec_setUp took]
    refine ⟨⟨fun l => absurd l.2 (by simp), fun dev => absurd dev.2 production.not_dev⟩, ?_⟩
    rintro P inherited ⟨key, given, hP⟩
    rcases gives_of_merge inherited ⟨key, production.key key given, hP⟩ with ⟨k, no, -⟩ | there
    · exact absurd no (not_gives_builtIn k)
    · exact ⟨fields, by simp, there⟩
  | none =>
    obtain ⟨why, log', ran⟩ := exec_setUp_of_not_taken took s log
    rw [ran]
    refine ⟨⟨fun l => ⟨l.1, rfl⟩, fun dev => ⟨dev.1, rfl⟩⟩, ?_⟩
    rintro P - ⟨key, no, -⟩
    exact absurd no (not_gives_builtIn key)

/-- The fields that the secrets file at a path merges; none if there is no such file. -/
def secretsAt (around : Surroundings) (path : Value) : Record := (filed around path).getD []

theorem Tracks.ensureReady (prod : around.SetsProduction) (h : Tracks lapsed documents s)
    (log : Log) :
    (∃ s', (ensureReady around).exec s log = (.ok (), s', log) ∧ s'.ready = true ∧
        s'.Tracks lapsed documents) ∨
      ∃ why s', s.ready = false ∧ FailsOnIterations around why ∧
        (ensureReady around).exec s log = (.error why, s', log) ∧ s'.ready = false ∧
        s'.Tracks lapsed documents := by
  cases ready : s.ready with
  | true => exact .inl ⟨s, exec_ensureReady_of_ready ready log, ready, h⟩
  | false =>
    refine (exec_ensureReady prod ready log).imp ?_ ?_
    · rintro ⟨s', ran, ready', production⟩
      exact ⟨s', ran, ready', h.settles (.inr ⟨ready, production⟩)⟩
    · rintro ⟨why, s', fails, ran, unready, production⟩
      exact ⟨why, s', rfl, fails, ran, unready, h.settles (.inr ⟨ready, production⟩)⟩

theorem Tracks.loadSecrets (prod : around.SetsProduction) (h : Tracks lapsed documents s)
    (path : Value) (log : Log) :
    Tracks
      (((loadSecrets around path).exec s log).2.1.ready = true ∧
        ((Assoc.ofList (secretsAt around path)).get? "mode" = some (.text "DEV") ∨
          (Assoc.ofList (secretsAt around path)).get? "mode" = none ∧ lapsed))
      (secretsAt around path :: documents) ((loadSecrets around path).exec s log).2.1 := by
  rcases h.ensureReady prod log with ⟨s₁, begun, ready, h₁⟩ | ⟨why, s₁, -, -, begun, unready, h₁⟩
  · rw [exec_loadSecrets begun ready]
    refine ⟨?_, fun P inherited given => ?_⟩
    · have lapses : s₁.values.get? "mode" = some (.text "DEV") ↔ lapsed :=
        ⟨fun dev => h₁.mode.2 ⟨ready, dev⟩, fun l => (h₁.mode.1 l).2⟩
      rw [get?_merge_eq_text, lapses]
      exact Iff.rfl
    · rcases gives_of_merge inherited given with before | new
      · obtain ⟨d, mem, there⟩ := h₁.key P inherited before
        exact ⟨d, List.mem_cons_of_mem _ mem, there⟩
      · exact ⟨_, List.mem_cons_self .., new⟩
  · have failed : ((Settings.loadSecrets around path).exec s log).2.1 = s₁ := by
      rw [Settings.loadSecrets, Act.exec_bind, begun]
    rw [failed]
    refine ⟨⟨fun l => absurd l.1 (by simp [unready]), fun dev => absurd dev.1 (by simp [unready])⟩,
      fun P inherited given => ?_⟩
    obtain ⟨d, mem, there⟩ := h₁.key P inherited given
    exact ⟨d, List.mem_cons_of_mem _ mem, there⟩

end Settings

/-! ## Making a sealer -/

namespace Sealer

open Settings

variable {lapsed : Prop} {documents : List Record} {s : Settings}

theorem keeps_findMasterKey (prod : around.SetsProduction) :
    (findMasterKey around).Keeps Settles := by
  unfold findMasterKey
  split
  · exact Act.keeps_pure _
  · refine (keeps_query prod "encryption.key" .null).bind fun key => ?_
    split
    · exact Act.keeps_pure _
    · refine (keeps_isDevMode prod).bind fun dev => ?_
      split
      · exact (Act.keeps_note _ _ _).bind fun _ => Act.keeps_pure _
      · exact Act.keeps_pure _

/-- What a sealer with a master key is made from beside it. -/
def finish (around : Surroundings) (options : Options) (masterKey : Value) :
    Act Settings Sealer := do
  let algorithm ← Act.ofExcept <| Algorithm.ofValue
    (← orQuery around options.algorithm "encryption.algorithm" (.text "AES-GCM"))
  let iterations ← Act.ofExcept <| Value.toInt
    (← orQuery around options.iterations "encryption.key_iterations" (.int 100000))
  let signatureName ← orQuery around options.signatureName "encryption.signature_field"
    (.text "*field_seal_sig*")
  let descriptionName ← orQuery around options.descriptionName
    "encryption.material_description_field" (.text "*field_seal_desc*")
  pure { masterKey, algorithm, iterations, signatureName, descriptionName, limits := around.limits }

/-- The master key that is given or found. -/
def masterKeyFor (around : Surroundings) (options : Options) : Act Settings Value :=
  if options.masterKey.isGiven then pure options.masterKey else findMasterKey around

/-- Ends the program for want of a master key. -/
def refuse : Act Settings Sealer := do
  Act.note .critical source "No master encryption key provided or found in environment"
  Act.fail (.exit 1)

theorem create_eq (around : Surroundings) (options : Options) :
    create around options = masterKeyFor around options >>= fun masterKey =>
      if masterKey.isGiven then finish around options masterKey else refuse := by
  have ends (masterKey : Value) :
      (if masterKey.isGiven then finish around options masterKey else refuse) = (do
        if !masterKey.isGiven then
          Act.note .critical source "No master encryption key provided or found in environment"
          Act.fail (.exit 1)
        finish around options masterKey) := by
    cases masterKey.isGiven <;> rfl
  simp only [masterKeyFor, ends]
  by_cases given : options.masterKey.isGiven = true
  · rw [if_pos given, create, if_pos given]
    rfl
  · rw [if_neg given, create, if_neg given]
    rfl

theorem keeps_finish (prod : around.SetsProduction) (options : Options) (masterKey : Value) :
    (finish around options masterKey).Keeps Settles := by
  unfold finish
  refine (keeps_orQuery prod _ _ _).bind fun _ => (Act.keeps_ofExcept _).bind fun _ => ?_
  refine (keeps_orQuery prod _ _ _).bind fun _ => (Act.keeps_ofExcept _).bind fun _ => ?_
  refine (keeps_orQuery prod _ _ _).bind fun _ => (keeps_orQuery prod _ _ _).bind fun _ => ?_
  exact Act.keeps_pure _

theorem keeps_create (prod : around.SetsProduction) (options : Options) :
    (create around options).Keeps Settles := by
  rw [create_eq]
  refine Act.Keeps.bind ?_ fun masterKey => ?_
  · unfold masterKeyFor
    split
    · exact Act.keeps_pure _
    · exact keeps_findMasterKey prod
  · split
    · exact keeps_finish prod options masterKey
    · exact (Act.keeps_note _ _ _).bind fun _ => Act.keeps_fail _

/-- The master key that settings have for a sealer: theirs, the development key or none. -/
inductive Finds (s : Settings) : Value → Prop where
  | key {key : Value} (found : lookup s.values "encryption.key" = some key)
    (given : key.isGiven = true) : Finds s key
  | development (mode : s.values.get? "mode" = some (.text "DEV")) : Finds s (.text developmentKey)
  | nothing (mode : s.values.get? "mode" ≠ some (.text "DEV")) : Finds s .null

theorem exec_isDevMode (around : Surroundings) (ready : s.ready = true) (log : Log) :
    ∃ dev, (isDevMode around).exec s log = (.ok dev, s, log) ∧
      (dev = true ↔ s.values.get? "mode" = some (.text "DEV")) := by
  rw [isDevMode, Act.exec_bind, exec_query (exec_ensureReady_of_ready ready log), lookup_mode]
  cases found : s.values.get? "mode" with
  | none => exact ⟨false, rfl, by simp⟩
  | some v =>
    cases v with
    | text mode => exact ⟨decide (mode = "DEV"), rfl, by simp⟩
    | _ => exact ⟨false, rfl, by simp⟩

theorem exec_findMasterKey (absent : around.findVariable "FIELDSEAL_ENCRYPTION_KEY" = none)
    {s₁ : Settings} {log log₁ : Log} (ready : s₁.ready = true)
    (begun : (ensureReady around).exec s log = (.ok (), s₁, log₁)) :
    ∃ key log', Finds s₁ key ∧ (findMasterKey around).exec s log = (.ok key, s₁, log') := by
  rw [findMasterKey, absent]
  dsimp only
  rw [Act.exec_bind, exec_query begun]
  dsimp only
  split
  · next given =>
    cases found : lookup s₁.values "encryption.key" with
    | none =>
      rw [found] at given
      cases given
    | some key =>
      rw [found] at given
      exact ⟨key, log₁, .key found given, rfl⟩
  · obtain ⟨dev, ran, mode⟩ := exec_isDevMode around ready log₁
    rw [Act.exec_bind, ran]
    cases dev with
    | true => exact ⟨_, _, .development (mode.1 rfl), rfl⟩
    | false => exact ⟨_, _, .nothing (fun is => Bool.noConfusion (mode.2 is)), rfl⟩

theorem masterKey_of_finish {options : Options} {masterKey : Value} {s s' : Settings}
    {log log' : Log} {sealer : Sealer}
    (ran : (finish around options masterKey).exec s log = (.ok sealer, s', log')) :
    sealer.masterKey = masterKey := by
  unfold finish at ran
  obtain ⟨_, _, _, -, ran⟩ := Act.exec_bind_eq_ok ran
  obtain ⟨_, _, _, -, ran⟩ := Act.exec_bind_eq_ok ran
  obtain ⟨_, _, _, -, ran⟩ := Act.exec_bind_eq_ok ran
  obtain ⟨_, _, _, -, ran⟩ := Act.exec_bind_eq_ok ran
  obtain ⟨_, _, _, -, ran⟩ := Act.exec_bind_eq_ok ran
  obtain ⟨_, _, _, -, ran⟩ := Act.exec_bind_eq_ok ran
  cases ran
  rfl

theorem exec_orQuery (around : Surroundings) (ready : s.ready = true) (given : Value)
    (key : String) (default : Value) (log : Log) :
    ∃ v, (orQuery around given key default).exec s log = (.ok v, s, log) := by
  unfold orQuery
  split
  · exact ⟨_, rfl⟩
  · exact ⟨_, exec_query (exec_ensureReady_of_ready ready log) key default⟩

theorem isExit_ofValue {v : Value} {why : Failure} (h : Algorithm.ofValue v = .error why) :
    why.isExit = false := by
  unfold Algorithm.ofValue Algorithm.ofValue.refuse at h
  grind [Failure.isExit]

theorem isExit_toInt {v : Value} {why : Failure} (h : v.toInt = .error why) :
    why.isExit = false := by
  unfold Value.toInt at h
  split at h
  case h_4 t =>
    cases read : Literal.read t.toList with
    | error fault =>
      rw [read] at h
      cases h
      rfl
    | ok n =>
      rw [read] at h
      cases h
  all_goals grind [Failure.isExit]

/-- Settings that are ready do not end the program when a sealer with a master key is made. -/
theorem not_exit_of_finish {options : Options} {masterKey : Value} (ready : s.ready = true)
    {log : Log} {why : Failure}
    (failed : ((finish around options masterKey).exec s log).1 = .error why) :
    why.isExit = false := by
  obtain ⟨algorithm, ran₁⟩ := exec_orQuery around ready options.algorithm
    "encryption.algorithm" (.text "AES-GCM") log
  obtain ⟨iterations, ran₂⟩ := exec_orQuery around ready options.iterations
    "encryption.key_iterations" (.int 100000) log
  obtain ⟨signatureName, ran₃⟩ := exec_orQuery around ready options.signatureName
    "encryption.signature_field" (.text "*field_seal_sig*") log
  obtain ⟨descriptionName, ran₄⟩ := exec_orQuery around ready options.descriptionName
    "encryption.material_description_field" (.text "*field_seal_desc*") log
  rw [finish, Act.exec_bind, ran₁] at failed
  cases named : Algorithm.ofValue algorithm with
  | error why' =>
    simp only [Act.exec_bind, Act.exec_ofExcept, named] at failed
    cases failed
    exact isExit_ofValue named
  | ok a =>
    cases counted : iterations.toInt with
    | error why' =>
      simp only [Act.exec_bind, Act.exec_ofExcept, named, ran₂, counted] at failed
      cases failed
      exact isExit_toInt counted
    | ok n =>
      simp only [Act.exec_bind, Act.exec_ofExcept, named, ran₂, counted, ran₃, ran₄] at failed
      cases failed

/-- A sealer is made from what the settings have for it, once they are ready. -/
theorem exec_create (prod : around.SetsProduction) (h : s.Tracks lapsed documents)
    {options : Options} (unnamed : options.masterKey.isGiven = false)
    (absent : around.findVariable "FIELDSEAL_ENCRYPTION_KEY" = none) (log : Log) :
    (∃ s₁ key log₁, s₁.ready = true ∧ s₁.Tracks lapsed documents ∧ Finds s₁ key ∧
        (create around options).exec s log =
          (if key.isGiven then finish around options key else refuse).exec s₁ log₁) ∨
      ∃ why, s.ready = false ∧ FailsOnIterations around why ∧
        ((create around options).exec s log).1 = .error why := by
  rw [create_eq, masterKeyFor, unnamed, if_neg Bool.false_ne_true, Act.exec_bind]
  rcases h.ensureReady prod log with ⟨s₁, begun, ready, h₁⟩ | ⟨why, s₁, unready, fails, begun, -, -⟩
  · obtain ⟨key, log₁, finds, ran⟩ := exec_findMasterKey absent ready begun
    rw [ran]
    exact .inl ⟨s₁, key, log₁, ready, h₁, finds, rfl⟩
  · refine .inr ⟨why, unready, fails, ?_⟩
    rw [findMasterKey, absent]
    dsimp only
    rw [Act.exec_bind, query, Act.exec_bind, begun]

theorem lapsed_or_given (prod : around.SetsProduction) (h : s.Tracks lapsed documents)
    {options : Options} (unnamed : options.masterKey.isGiven = false) {log : Log} {sealer : Sealer}
    (made : ((create around options).exec s log).1 = .ok sealer)
    (development : sealer.masterKey = .text developmentKey) :
    lapsed ∨ around.findVariable "FIELDSEAL_ENCRYPTION_KEY" = some developmentKey ∨
      ∃ d ∈ documents, Gives d (.text developmentKey) := by
  have holds {key : Value} {s₁ : Settings} {log₁ : Log}
      (made : ((if key.isGiven then finish around options key else refuse).exec s₁ log₁).1 =
        .ok sealer) : key = .text developmentKey := by
    split at made
    · rw [← masterKey_of_finish (Prod.ext made rfl), development]
    · cases made
  cases environment : around.findVariable "FIELDSEAL_ENCRYPTION_KEY" with
  | some k =>
    rw [create_eq, masterKeyFor, unnamed, if_neg Bool.false_ne_true, Act.exec_bind, findMasterKey,
      environment] at made
    exact .inr (.inl (congrArg some (Value.text.inj (holds made))))
  | none =>
    rcases exec_create prod h unnamed environment log with
      ⟨s₁, key, log₁, ready, h₁, finds, ran⟩ | ⟨why, -, -, failed⟩
    · rw [ran] at made
      have eq := holds made
      cases finds with
      | key found given =>
        rw [eq] at found
        obtain ⟨d, mem, key, gives, rfl⟩ :=
          h₁.key _ (inherited_text developmentKey) ⟨_, gives_of_lookup found, rfl⟩
        exact .inr (.inr ⟨d, mem, gives⟩)
      | development mode => exact .inl (h₁.mode.2 ⟨ready, mode⟩)
      | nothing mode => cases eq
    · rw [failed] at made
      cases made

/-- What is found where no file gives a master key depends on the mode alone. -/
theorem Finds.keyless {key : Value} (finds : Finds s key) (ready : s.ready = true)
    (h : s.Tracks lapsed documents)
    (files : ∀ d ∈ documents, ∀ key, Gives d key → key.isGiven = false) :
    lapsed ∧ key = .text developmentKey ∨ ¬ lapsed ∧ key = .null := by
  cases finds with
  | key found given =>
    obtain ⟨d, mem, k, gives, given'⟩ :=
      h.key _ inherited_isGiven ⟨_, gives_of_lookup found, given⟩
    rw [files d mem k gives] at given'
    cases given'
  | development mode => exact .inl ⟨h.mode.2 ⟨ready, mode⟩, rfl⟩
  | nothing mode => exact .inr ⟨fun l => mode (h.mode.1 l).2, rfl⟩

end Sealer

/-! ## Runs -/

/-- What a program asks of its settings. -/
inductive Request where
  | setUp (path : Value)
  | loadSecrets (path : Value)
  | create (options : Sealer.Options)

/-- A request and the surroundings it is made in. -/
structure Call where
  around : Surroundings
  request : Request

namespace Call

/-- Does what is asked for; of a sealer that is made only the settings are kept. -/
def act (c : Call) : Act Settings Unit :=
  match c.request with
  | .setUp path => Settings.setUp c.around path
  | .loadSecrets path => Settings.loadSecrets c.around path
  | .create options => do
    let _ ← Sealer.create c.around options

/-- The settings and the log after calls, the latest of which comes first. A call that fails is
followed by the next one all the same. -/
def after (log : Log) : List Call → Settings × Log
  | [] => ({}, log)
  | c :: earlier => (c.act.exec (after log earlier).1 (after log earlier).2).2

/-- The fields of the files that have been merged since the latest set-up. -/
def documents : List Call → List Record
  | [] => []
  | c :: earlier =>
    match c.request with
    | .setUp path => (Settings.taken c.around path).toList
    | .loadSecrets path => Settings.secretsAt c.around path :: documents earlier
    | .create _ => documents earlier

/-- Whether the mode has lapsed to development mode: the latest set-up was asked for a file that it
could not take, where an earlier one had made the settings ready, or a secrets file set the mode and
no later one set it otherwise. -/
def Lapsed (log : Log) : List Call → Prop
  | [] => False
  | c :: earlier =>
    match c.request with
    | .setUp path => (after log earlier).1.ready = true ∧ Settings.taken c.around path = none
    | .loadSecrets path =>
      (after log (c :: earlier)).1.ready = true ∧
        ((Assoc.ofList (Settings.secretsAt c.around path)).get? "mode" = some (.text "DEV") ∨
          (Assoc.ofList (Settings.secretsAt c.around path)).get? "mode" = none ∧ Lapsed log earlier)
    | .create _ => Lapsed log earlier

/-- The mode and the master key that calls leave are known from what they were. -/
theorem tracks_after (log : Log) {calls : List Call} (prod : ∀ c ∈ calls, c.around.SetsProduction) :
    (after log calls).1.Tracks (Lapsed log calls) (documents calls) := by
  induction calls with
  | nil =>
    refine ⟨⟨False.elim, fun dev => by cases dev.1⟩, ?_⟩
    rintro P - ⟨key, ⟨inner, mem, -⟩, -⟩
    cases mem
  | cons c earlier ih =>
    obtain ⟨first, others⟩ := List.forall_mem_cons.1 prod
    have before := ih others
    obtain ⟨around, request⟩ := c
    cases request with
    | setUp path => exact Settings.Tracks.setUp first path _
    | loadSecrets path => exact before.loadSecrets first path _
    | create options =>
      have settles : (Call.act ⟨around, .create options⟩).Keeps Settings.Settles :=
        (Sealer.keeps_create first options).bind fun _ => Act.keeps_pure _
      exact before.settles (settles _ _)

end Call

/-- Whether neither the environment nor a file that has been merged gives a master key. -/
structure Call.Keyless (around : Surroundings) (calls : List Call) : Prop where
  environment : around.findVariable "FIELDSEAL_ENCRYPTION_KEY" = none
  files : ∀ d ∈ documents calls, ∀ key, Settings.Gives d key → key.isGiven = false

namespace Sealer

open Settings

/-- In production a sealer that is asked for without a master key holds the development key only
where that text was given for a key or the mode has lapsed. Where no key is given at all, the
program ends, or the settings still have to be set up and fail on the number of iterations, unless
the mode has lapsed: then the program does not end, and every sealer that is made holds the
development key. -/
theorem create_in_production {log₀ : Log} {calls : List Call}
    (before : ∀ c ∈ calls, c.around.SetsProduction) {around : Surroundings}
    (now : around.SetsProduction) (options : Options) (unnamed : options.masterKey.isGiven = false)
    (log : Log) :
    let result := ((create around options).exec (Call.after log₀ calls).1 log).1
    (∀ sealer, result = .ok sealer → sealer.masterKey = .text developmentKey →
        Call.Lapsed log₀ calls ∨
          around.findVariable "FIELDSEAL_ENCRYPTION_KEY" = some developmentKey ∨
          ∃ d ∈ Call.documents calls, Gives d (.text developmentKey)) ∧
      (Call.Keyless around calls → ¬ Call.Lapsed log₀ calls →
        result = .error (.exit 1) ∨
          (Call.after log₀ calls).1.ready = false ∧ ∃ why, FailsOnIterations around why ∧
            result = .error why) ∧
      (Call.Keyless around calls → Call.Lapsed log₀ calls →
        (∀ why, result = .error why → why.isExit = false) ∧
          ∀ sealer, result = .ok sealer → sealer.masterKey = .text developmentKey) := by
  have tracks := Call.tracks_after log₀ before
  refine ⟨fun sealer made development => lapsed_or_given now tracks unnamed made development,
      ?_, ?_⟩
  · rintro ⟨environment, files⟩ kept
    rcases exec_create now tracks unnamed environment log with
      ⟨s₁, key, log₁, ready, h₁, finds, ran⟩ | ⟨why, unready, fails, failed⟩
    · obtain ⟨lapsed, -⟩ | ⟨-, rfl⟩ := finds.keyless ready h₁ files
      · exact absurd lapsed kept
      · rw [ran]
        exact .inl rfl
    · exact .inr ⟨unready, why, fails, failed⟩
  · rintro ⟨environment, files⟩ lapsed
    rcases exec_create now tracks unnamed environment log with
      ⟨s₁, key, log₁, ready, h₁, finds, ran⟩ | ⟨why, unready, -, -⟩
    · obtain ⟨-, rfl⟩ | ⟨kept, -⟩ := finds.keyless ready h₁ files
      · have given : (Value.text developmentKey).isGiven = true := by decide
        rw [ran, given, if_pos rfl]
        exact ⟨fun why failed => not_exit_of_finish ready failed,
          fun sealer made => masterKey_of_finish (Prod.ext made rfl)⟩
      · exact absurd lapsed kept
    · exact absurd (tracks.mode.1 lapsed).1 (by simp [unready])

/-- Surroundings with production mode set and no files. -/
def bareProduction : Surroundings :=
  { environment := [("FIELDSEAL_MODE", "PROD")], now := ⟨2024, 1, 2, 3, 4, 5, 0⟩,
    entropy := Entropy.cyclic [1] }

theorem setsProduction_bareProduction : bareProduction.SetsProduction := rfl

/-- The settings set up. -/
def sampleCalls : List Call := [⟨bareProduction, .setUp .null⟩]

/-- The settings set up, then once more from a file that is not there. -/
def sampleLapse : List Call := ⟨bareProduction, .setUp (.text "none.yaml")⟩ :: sampleCalls

theorem setsProduction_sampleLapse : ∀ c ∈ sampleLapse, c.around.SetsProduction := by
  simp [sampleLapse, sampleCalls, setsProduction_bareProduction]

/-- After a set-up, asking for a sealer without a key ends the program; after one more from a file
that is not there a sealer is made, with the development key. -/
theorem create_in_production_sample :
    ((create bareProduction {}).exec (Call.after {} sampleCalls).1 {}).1 = .error (.exit 1) ∧
      ∃ sealer, ((create bareProduction {}).exec (Call.after {} sampleLapse).1 {}).1 = .ok sealer ∧
        sealer.masterKey = .text developmentKey := by
  have first : ∀ c ∈ sampleCalls, c.around.SetsProduction :=
    fun c mem => setsProduction_sampleLapse c (List.mem_cons_of_mem _ mem)
  constructor
  · have keyless : Call.Keyless bareProduction sampleCalls :=
      ⟨rfl, by simp [sampleCalls, Call.documents, taken, Value.isGiven, Gives]⟩
    have kept : ¬ Call.Lapsed {} sampleCalls := fun lapsed => by cases lapsed.2
    have ends := (create_in_production first setsProduction_bareProduction {} rfl
      {}).2.1 keyless kept
    exact ends.resolve_right fun unready => by cases unready.1
  · have keyless : Call.Keyless bareProduction sampleLapse :=
      ⟨rfl, fun d mem => by cases mem⟩
    have lapsed : Call.Lapsed {} sampleLapse := ⟨rfl, rfl⟩
    have made := (create_in_production setsProduction_sampleLapse setsProduction_bareProduction
      {} rfl {}).2.2 keyless lapsed
    exact ⟨_, rfl, made.2 _ rfl⟩

end Sealer

end RecordSeal
