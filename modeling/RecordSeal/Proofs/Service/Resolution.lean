import RecordSeal.Proofs.Service
import RecordSeal.Proofs.Session
import RecordSeal.Proofs.Settings.Precedence
import RecordSeal.Proofs.Settings.Production

set_option autoImplicit false

/-! # What the service resolves

The service resolves the flags of a stored record as hooks do when they load it: both reconcile the
policy of the type with the names of the record (`Catalog.reconciled`). They leave out the same
names if the service was told of the encryptor. If it was not, it takes them from the settings as
sealers do, but where the settings have no entry sealers fall back on built-in names and the service
on none. It then lists attributes with those names that hooks leave out
(`Service.resolve_agrees`). -/

namespace RecordSeal

/-! ## Reserved names in settings -/

namespace Settings

variable {around : Surroundings} {s s' : Settings} {log log' : Log}

/-- The reserved names that the settings give, with other ones where they have no entry. -/
def reservedNames (s : Settings) (signature description : Value) : Value × Value :=
  ((lookup s.values "encryption.signature_field").getD signature,
    (lookup s.values "encryption.material_description_field").getD description)

/-- The built-in names that stand in for entries that the settings do not have. -/
def fallbacks (s : Settings) : List Name :=
  (if (lookup s.values "encryption.signature_field").isNone then [Name.text "*field_seal_sig*"]
    else []) ++
  (if (lookup s.values "encryption.material_description_field").isNone
    then [Name.text "*field_seal_desc*"] else [])

theorem exists_of_query_eq_ok {key : String} {default v : Value}
    (ran : (query around key default).exec s log = (.ok v, s', log')) :
    s'.ready = true ∧ v = (lookup s'.values key).getD default := by
  obtain ⟨⟨⟩, s₁, log₁, begun, ran⟩ := Act.exec_bind_eq_ok ran
  cases ran
  refine ⟨?_, rfl⟩
  cases ready : s.ready with
  | true =>
    rw [exec_ensureReady_of_ready ready] at begun
    cases begun
    exact ready
  | false =>
    rw [ensureReady, Act.exec_bind] at begun
    simp only [Act.exec_get, ready, Bool.not_false, if_true] at begun
    exact (valueAt_setUp begun).1

theorem orQuery_of_not_given {given : Value} (unnamed : given.isGiven = false) (key : String)
    (default : Value) : orQuery around given key default = query around key default := by
  rw [orQuery, if_neg (by simp [unnamed])]

/-- One reserved name, with the built-in one or null where there is no entry. -/
theorem toName_getD (entry : Option Value) (builtIn : String) :
    (∃ why, (entry.getD (.text builtIn)).toName = .error why ∧
      (entry.getD .null).toName = .error why) ∨
    ∃ k k', (entry.getD (.text builtIn)).toName = .ok k ∧ (entry.getD .null).toName = .ok k' ∧
      ∀ n : Name, n.IsAttribute → (n == k) =
        (n == k' || (if entry.isNone then [Name.text builtIn] else []).contains n) := by
  cases entry with
  | none =>
    refine .inr ⟨.text builtIn, .null, rfl, rfl, ?_⟩
    intro n text
    have other : (n == Name.null) = false := by
      refine Bool.eq_false_of_not_eq_true fun same => ?_
      rw [Name.beq_iff, text.canonical_eq] at same
      subst same
      exact text
    simp [other]
  | some v =>
    rw [Option.getD_some, Option.getD_some]
    cases named : v.toName with
    | error why => exact .inl ⟨why, rfl, rfl⟩
    | ok k => exact .inr ⟨k, k, rfl, rfl, fun n _ => by simp⟩

/-- The names that sealers reserve are those that the settings give and those they fall back on. -/
theorem namesOf_reservedNames (s : Settings) :
    (∃ why, namesOf [(s.reservedNames (.text "*field_seal_sig*") (.text "*field_seal_desc*")).1,
        (s.reservedNames (.text "*field_seal_sig*") (.text "*field_seal_desc*")).2] = .error why ∧
      namesOf [(s.reservedNames .null .null).1, (s.reservedNames .null .null).2] = .error why) ∨
    ∃ reserved reserved',
      namesOf [(s.reservedNames (.text "*field_seal_sig*") (.text "*field_seal_desc*")).1,
        (s.reservedNames (.text "*field_seal_sig*") (.text "*field_seal_desc*")).2] = .ok reserved ∧
      namesOf [(s.reservedNames .null .null).1, (s.reservedNames .null .null).2] = .ok reserved' ∧
      ∀ n : Name, n.IsAttribute →
        reserved.contains n = (reserved'.contains n || s.fallbacks.contains n) := by
  simp only [reservedNames, namesOf, bind, Except.bind]
  rcases toName_getD (lookup s.values "encryption.signature_field") "*field_seal_sig*" with
    ⟨why, named, named'⟩ | ⟨k, k', named, named', first⟩
  · exact .inl ⟨why, by rw [named], by rw [named']⟩
  rw [named, named']
  rcases toName_getD (lookup s.values "encryption.material_description_field")
    "*field_seal_desc*" with ⟨why, named, named'⟩ | ⟨l, l', named, named', second⟩
  · exact .inl ⟨why, by rw [named], by rw [named']⟩
  rw [named, named']
  refine .inr ⟨[k, l], [k', l'], rfl, rfl, ?_⟩
  intro n text
  rw [fallbacks, List.contains_append, List.contains_cons, List.contains_cons, List.contains_cons,
    List.contains_cons, first n text, second n text, List.contains_nil, Bool.or_false,
    Bool.or_false]
  ac_rfl

end Settings

/-- Whether an encryptor is a sealer that was made under settings without names for what it
reserves. -/
def Encryptor.MadeUnder (e : Encryptor) (settings : Settings) : Prop :=
  ∃ around options s settings₀ log₀ log, options.signatureName.isGiven = false ∧
    options.descriptionName.isGiven = false ∧
    (Sealer.create around options).exec settings₀ log₀ = (.ok s, settings, log) ∧ e = .sealer s

/-- A sealer reserves what the settings name, and built-in names where they name nothing. -/
theorem Encryptor.MadeUnder.reservedNames {e : Encryptor} {settings : Settings}
    (h : e.MadeUnder settings) (w : Workshop) : settings.ready = true ∧ e.reservedNames w =
      settings.reservedNames (.text "*field_seal_sig*") (.text "*field_seal_desc*") := by
  obtain ⟨around, options, s, settings₀, log₀, log, unnamed, unnamed', made, rfl⟩ := h
  rw [Sealer.create_eq] at made
  obtain ⟨masterKey, s₁, log₁, -, made⟩ := Act.exec_bind_eq_ok made
  split at made
  · obtain ⟨_, s₂, log₂, -, made⟩ := Act.exec_bind_eq_ok made
    obtain ⟨_, s₃, log₃, -, made⟩ := Act.exec_bind_eq_ok made
    obtain ⟨_, s₄, log₄, -, made⟩ := Act.exec_bind_eq_ok made
    obtain ⟨_, s₅, log₅, -, made⟩ := Act.exec_bind_eq_ok made
    obtain ⟨signature, s₆, log₆, first, made⟩ := Act.exec_bind_eq_ok made
    obtain ⟨description, s₇, log₇, second, made⟩ := Act.exec_bind_eq_ok made
    cases made
    rw [Settings.orQuery_of_not_given unnamed] at first
    rw [Settings.orQuery_of_not_given unnamed'] at second
    obtain ⟨ready, rfl⟩ := Settings.exists_of_query_eq_ok first
    -- Settings that are ready stay as they are.
    rw [Settings.exec_query (Settings.exec_ensureReady_of_ready ready log₆)] at second
    cases second
    exact ⟨ready, rfl⟩
  · cases made

/-! ## Reconciled policies -/

namespace Catalog

/-- The policies for a stored record of a type with these names, if some are reserved. No name of an
exempt type is. -/
def reconciled (c : Catalog) (k : CacheId) (model : ModelId) (names : List Name)
    (reserved : Value × Value) : Except Failure FieldPolicies := do
  let policy ← c.policyOf k model
  if policy.doNotTouch then pure policy.fields
  else (namesOf [reserved.1, reserved.2]).map (policy.reconcile names)

/-- The flags that the type of a record declares. -/
def declared (c : Catalog) (k : CacheId) (model : ModelId) : FieldPolicies :=
  match c.policyOf k model with
  | .ok policy => policy.fields
  | .error _ => []

variable (c : Catalog) (k : CacheId) (model : ModelId) {names : List Name}

/-- With the names that sealers fall back on, what is declared stays and the rest is left out. -/
theorem reconciled_fallbacks (texts : ∀ n ∈ names, n.IsAttribute) (s : Settings) :
    c.reconciled k model names
        (s.reservedNames (.text "*field_seal_sig*") (.text "*field_seal_desc*")) =
      (c.reconciled k model names (s.reservedNames .null .null)).map
        (ClassPolicy.leaveOut (c.declared k model) s.fallbacks) := by
  rw [reconciled, reconciled, declared]
  cases c.policyOf k model with
  | error why => rfl
  | ok policy =>
    simp only [bind, Except.bind]
    cases active : policy.doNotTouch with
    | true => simp [pure, Except.pure, Except.map]
    | false =>
      simp only [Bool.false_eq_true, if_false]
      rcases s.namesOf_reservedNames with
        ⟨why, named, named'⟩ | ⟨reserved, reserved', named, named', more⟩
      · rw [named, named']
        rfl
      · rw [named, named']
        simp only [Except.map, ClassPolicy.reconcile_of_active active]
        rw [ClassPolicy.extend_eq_leaveOut fun n hn => more n (texts n hn)]

end Catalog

/-- Hooks give the reconciled policies without the names of their encryptor. -/
theorem Hooks.exec_effectivePolicies (h : Hooks) (t : Transform) (σ : Session) (log : Log) :
    ∃ σ' log', σ.Asked σ' ∧ (h.effectivePolicies t).exec σ log =
      (σ.catalog.reconciled h.cache t.model t.record.keys (h.encryptor.reservedNames σ.workshop),
        σ', log') := by
  rw [Catalog.reconciled]
  cases answer : h.policyOf σ.catalog t.model with
  | error why =>
    obtain ⟨σ', log', asked, ran⟩ := h.exec_policy σ log t.model
    refine ⟨σ', log', asked, ?_⟩
    rw [effectivePolicies, Act.exec_bind, ran, answer, ← policyOf, answer]
    rfl
  | ok p =>
    rw [← policyOf, answer]
    cases active : p.doNotTouch with
    | true =>
      obtain ⟨σ', log', asked, ran⟩ := h.exec_policy σ log t.model
      refine ⟨σ', log', asked, ?_⟩
      rw [effectivePolicies, Act.exec_bind, ran, answer]
      simp only [active, if_true, bind, Except.bind]
      rfl
    | false =>
      obtain ⟨σ', log', asked, ran⟩ := h.exec_effectivePolicies_of_active t log answer active
      refine ⟨σ', log', asked, ran.trans ?_⟩
      simp only [bind, Except.bind, active, Bool.false_eq_true, if_false]

/-- Whether a name is a text. -/
def Name.isText : Name → Bool
  | .text _ => true
  | .brokenText _ => true
  | _ => false

theorem Name.IsAttribute.isText {n : Name} (h : n.IsAttribute) : n.isText = true := by
  cases n <;> first | rfl | exact h.elim

theorem Name.IsAttribute.name?_ofName {n : Name} (h : n.IsAttribute) :
    (Value.ofName n).name? = some n := by
  cases n <;> first | rfl | exact h.elim

namespace Service

/-- An answer of the service; all names in it must be texts. -/
def answerable (policies : FieldPolicies) : Except Failure FieldPolicies :=
  if policies.keys.all Name.isText then .ok policies
  else .error (.invalid (nameIssues "policies" policies))

theorem nameIssues_of_isText {title : String} {policies : FieldPolicies}
    (texts : policies.keys.all Name.isText = true) : nameIssues title policies = [] := by
  rw [nameIssues, List.filterMap_eq_nil_iff]
  intro e he
  rw [List.all_eq_true] at texts
  have text := texts e.1 (List.mem_map_of_mem he)
  obtain ⟨k, flags⟩ := e
  cases k with
  | text s => rfl
  | brokenText ps => rfl
  | _ => cases text

theorem nameIssues_ne_nil {title : String} {policies : FieldPolicies}
    (texts : policies.keys.all Name.isText = false) : nameIssues title policies ≠ [] := by
  rw [nameIssues, ne_eq, List.filterMap_eq_nil_iff]
  intro none
  obtain ⟨k, hk, other⟩ := List.all_eq_false.1 texts
  obtain ⟨e, he, rfl⟩ := List.mem_map.1 hk
  have issue := none e he
  obtain ⟨k, flags⟩ := e
  cases k with
  | text s => exact other rfl
  | brokenText ps => exact other rfl
  | _ => cases issue

theorem answerable_eq (policies : FieldPolicies) :
    (checkIssues (nameIssues "policies" policies)).map (fun _ => policies) =
      answerable policies := by
  rw [answerable]
  cases texts : policies.keys.all Name.isText with
  | true =>
    rw [nameIssues_of_isText texts]
    rfl
  | false =>
    have issues : nameIssues "policies" policies ≠ [] := nameIssues_ne_nil texts
    cases found : nameIssues "policies" policies with
    | nil => exact (issues found).elim
    | cons issue rest => rfl

theorem resolved_of_answerable {resolved : Except Failure FieldPolicies} {policies : FieldPolicies}
    (answered : resolved.bind answerable = .ok policies) : resolved = .ok policies := by
  cases resolved with
  | error why => cases answered
  | ok found =>
    simp only [Except.bind, answerable] at answered
    split at answered
    · exact answered
    · cases answered

/-- Reconciled policies of a type that declares texts are an answer. -/
theorem answerable_reconciled {c : Catalog} {k : CacheId} {model : ModelId} {names : List Name}
    {reserved : Value × Value} (texts : ∀ n ∈ names, n.IsAttribute)
    (declared : Assoc.OfAttributes (c.declared k model)) :
    (c.reconciled k model names reserved).bind answerable =
      c.reconciled k model names reserved := by
  have isText {policies : FieldPolicies} (h : ∀ n ∈ policies.keys, n.IsAttribute) :
      answerable policies = .ok policies := by
    rw [answerable, if_pos]
    exact List.all_eq_true.2 fun n hn => (h n hn).isText
  rw [Catalog.declared] at declared
  rw [Catalog.reconciled]
  cases answer : c.policyOf k model with
  | error why => rfl
  | ok policy =>
    rw [answer] at declared
    show Except.bind (if policy.doNotTouch = true then _ else _) answerable =
      if policy.doNotTouch = true then _ else _
    cases active : policy.doNotTouch with
    | true => exact isText declared
    | false =>
      rw [if_neg Bool.false_ne_true]
      cases namesOf [reserved.1, reserved.2] with
      | error why => rfl
      | ok left =>
        refine isText ?_
        rw [ClassPolicy.reconcile_of_active active]
        exact ClassPolicy.forall_keys_extend declared fun n hn _ => texts n hn

theorem attributeNames_ofName {names : List Name} (texts : ∀ n ∈ names, n.IsAttribute) :
    attributeNames (.list (names.map .ofName)) = .ok names := by
  have taken (i : Nat) : Acceptance.texts [.key "attributes"] i (names.map .ofName) =
      .ok (names.map .ofName) := by
    induction names generalizing i with
    | nil => rfl
    | cons n names ih =>
      obtain ⟨text, others⟩ := List.forall_mem_cons.1 texts
      have first : Acceptance.text (.ofName n) = .ok (.ofName n) := by
        cases n <;> first | rfl | exact text.elim
      rw [List.map_cons, Acceptance.texts, first, ih others]
  simp only [attributeNames, taken, bind, Except.bind, Except.mapError, pure, Except.pure,
    List.filterMap_map]
  have named : names.filterMap (Value.name? ∘ Value.ofName) = names.filterMap some :=
    List.filterMap_congr fun n hn => (texts n hn).name?_ofName
  rw [named, List.filterMap_some]

variable {σ : Session} {log : Log}

theorem exec_reservedNames_of_told {names : Value × Value} (told : σ.reserved = some names) :
    reservedNames.exec σ log = (.ok names, σ, log) := by
  rw [reservedNames, Act.exec_bind, Act.exec_get]
  dsimp only
  rw [told]
  rfl

theorem exec_query (ready : σ.settings.ready = true) (key : String) (default : Value) :
    (Session.onSettings fun around => Settings.query around key default).exec σ log =
      (.ok ((Settings.lookup σ.settings.values key).getD default), σ, log) := by
  rw [Session.onSettings, Act.exec_bind, Act.exec_get]
  dsimp only
  rw [Act.exec_on, Settings.exec_query (Settings.exec_ensureReady_of_ready ready log)]

theorem exec_reservedNames_of_ready (told : σ.reserved = none)
    (ready : σ.settings.ready = true) :
    reservedNames.exec σ log = (.ok (σ.settings.reservedNames .null .null), σ, log) := by
  rw [reservedNames, Act.exec_bind, Act.exec_get]
  dsimp only
  rw [told]
  dsimp only
  rw [Act.exec_bind, exec_query ready]
  dsimp only
  rw [Act.exec_bind, exec_query ready]
  rfl

/-- The service answers the reconciled policies without the names that it leaves out. -/
theorem exec_resolve {name : Value} {names : List Name} {model : ModelId} {reserved : Value × Value}
    (texts : ∀ n ∈ names, n.IsAttribute)
    (known : (σ.catalog.registryAt Catalog.sharedRegistry).modelType name = .ok model)
    (named : ∀ τ log, σ.Asked τ → reservedNames.exec τ log = (.ok reserved, τ, log)) (log : Log) :
    ∃ σ' log', σ.Asked σ' ∧ (resolve name (.list (names.map .ofName))).exec σ log =
      ((σ.catalog.reconciled Catalog.sharedCache model names reserved).bind answerable,
        σ', log') := by
  obtain ⟨σ', log', asked, ran⟩ := Session.exec_asking
    (Catalog.exec_policy Catalog.sharedCache model σ.catalog log)
  refine ⟨σ', log', asked, ?_⟩
  have answers (policies : FieldPolicies) : (do
      Act.ofExcept (checkIssues (nameIssues "policies" policies))
      pure policies : Act Session FieldPolicies).exec σ' log' =
        (answerable policies, σ', log') := by
    rw [Act.exec_bind, Act.exec_ofExcept, ← answerable_eq]
    cases checkIssues (nameIssues "policies" policies) <;> rfl
  rw [resolve, Act.exec_bind, Act.exec_ofExcept, attributeNames_ofName texts]
  dsimp only
  rw [Act.exec_bind, exec_modelType, modelOf, known]
  dsimp only
  rw [Act.exec_bind, ran, Catalog.reconciled]
  cases σ.catalog.policyOf Catalog.sharedCache model with
  | error why => rfl
  | ok policy =>
    dsimp only
    rw [Act.exec_bind, named σ' log' asked]
    show (if policy.doNotTouch = true then _ else _ : Act Session FieldPolicies).exec σ' log' =
      (Except.bind (if policy.doNotTouch = true then _ else _) answerable, σ', log')
    cases active : policy.doNotTouch with
    | true =>
      have all : policy.reconcile names [] = policy.fields := by
        rw [ClassPolicy.reconcile, if_pos active]
      rw [if_pos rfl, if_pos rfl, Act.exec_bind, Act.exec_pure]
      exact all ▸ answers (policy.reconcile names [])
    | false =>
      rw [if_neg Bool.false_ne_true, if_neg Bool.false_ne_true, Act.exec_bind, Act.exec_ofExcept]
      cases namesOf [reserved.1, reserved.2] with
      | error why => rfl
      | ok left => exact answers (policy.reconcile names left)

/-! ## Agreement -/

/-- The service resolves the flags that hooks of an encryptor on the shared cache give a stored
record, the policies of its type reconciled with its names, if it was last told of that encryptor.
If it was told of none, and the encryptor is a sealer that was made under the settings, hooks give
what the service resolves, but for the names that the sealer falls back on and the type does not
declare: hooks leave them out. What is resolved is answered if the type declares texts, and the
names of flags are answered in order. -/
theorem resolve_agrees {σ : Session} {last : Option Encryptor} (reached : σ.Reached last)
    {e : Encryptor} (told : last = some e ∨ last = none ∧ e.MadeUnder σ.settings)
    (provider : Provider) {t : Transform} {name : Value}
    (known : (σ.catalog.registryAt Catalog.sharedRegistry).modelType name = .ok t.model)
    (texts : Assoc.OfAttributes t.record) :
    ∃ resolved effective,
      (∀ log, ∃ σ' log', σ.Asked σ' ∧
        (resolve name (.list (t.record.keys.map .ofName))).exec σ log =
          (resolved.bind answerable, σ', log')) ∧
      (∀ log, ∃ σ' log', σ.Asked σ' ∧
        (Hooks.effectivePolicies ⟨e, Catalog.sharedCache, provider⟩ t).exec σ log =
          (effective, σ', log')) ∧
      effective = σ.catalog.reconciled Catalog.sharedCache t.model t.record.keys
        (e.reservedNames σ.workshop) ∧
      (Assoc.OfAttributes (σ.catalog.declared Catalog.sharedCache t.model) →
        resolved.bind answerable = resolved) ∧
      (∀ flags : Flags, flags.names.Pairwise fun a b => a.toList < b.toList) ∧
      (last = some e ∨ σ.settings.fallbacks = [] → resolved = effective) ∧
      (last = none → effective = resolved.map (ClassPolicy.leaveOut
        (σ.catalog.declared Catalog.sharedCache t.model) σ.settings.fallbacks)) := by
  have remembers := reached.remembers
  have hooks (log : Log) :=
    Hooks.exec_effectivePolicies ⟨e, Catalog.sharedCache, provider⟩ t σ log
  rcases told with rfl | ⟨rfl, made⟩
  · obtain ⟨-, names⟩ := remembers
    have told (τ : Session) (log : Log) (asked : σ.Asked τ) :
        reservedNames.exec τ log = (.ok (e.reservedNames σ.workshop), τ, log) :=
      exec_reservedNames_of_told (asked.reserved.trans names)
    exact ⟨_, _, exec_resolve texts known told, hooks, rfl, answerable_reconciled texts,
      Flags.pairwise_names, fun _ => rfl, nofun⟩
  · obtain ⟨ready, names⟩ := made.reservedNames σ.workshop
    have told (τ : Session) (log : Log) (asked : σ.Asked τ) :
        reservedNames.exec τ log = (.ok (σ.settings.reservedNames .null .null), τ, log) := by
      rw [← asked.settings]
      exact exec_reservedNames_of_ready (asked.reserved.trans remembers) (asked.settings ▸ ready)
    have agree := σ.catalog.reconciled_fallbacks Catalog.sharedCache t.model texts σ.settings
    rw [← names] at agree
    refine ⟨_, _, exec_resolve texts known told, hooks, rfl, answerable_reconciled texts,
      Flags.pairwise_names, ?_, fun _ => agree⟩
    rintro (other | none)
    · cases other
    · rw [agree, none, show ClassPolicy.leaveOut _ [] = id from funext ClassPolicy.leaveOut_nil]
      cases σ.catalog.reconciled Catalog.sharedCache t.model t.record.keys
        (σ.settings.reservedNames .null .null) <;> rfl

/-- A type that takes unknown attributes. -/
def defineNote : Act Catalog Unit := do
  let id ← Catalog.define Forest.sealedRoot "Note" "models" none [
    { name := "id", type := .text, markers := { hashKey := .bool true } }]
  Catalog.mark id [.handleUnknown]

/-- Settings whose file replaces the section of reserved names by null. -/
def setUpNull (around : Surroundings) : Act Settings Unit := do
  Settings.setUp around .null
  Settings.mergeDocument (.object [("encryption", .null)])

/-- The surroundings of a program that has no settings from outside. -/
def noteStart : Surroundings :=
  { now := ⟨2024, 1, 1, 0, 0, 0, 0⟩, entropy := { stream := fun _ => 0 } }

/-- A program with that type and these settings. -/
def noteSession : Session :=
  ((Session.Request.catalog defineNote).act.exec
    ((Session.Request.settings setUpNull).act.exec { around := noteStart } {}).2.1 {}).2.1

/-- The attributes of a stored record of that type. -/
def noteRecord : Record := [
  ("id", .text "a"), ("*field_seal_sig*", .text "s"), ("*field_seal_desc*", .text "d")]

/-- A load of that record. -/
def noteLoad : Transform :=
  { model := ⟨6⟩, table := .text "Note", hashKey := .text "id", rangeKey := .null
    record := noteRecord }

/-- A sealer that was made under these settings. -/
def noteSealer : Sealer :=
  { Sealer.sample with
    signatureName := .text "*field_seal_sig*", descriptionName := .text "*field_seal_desc*" }

/-- The service lists the name of the signature among the flags of a stored record that was loaded
under settings without reserved names; hooks leave it out. -/
theorem resolve_agrees_note : ∃ answer effective σ log σ' log',
    (resolve (.text "Note") (.list [.text "id", .text "*field_seal_sig*",
      .text "*field_seal_desc*"])).exec noteSession {} = (.ok answer, σ, log) ∧
    (Hooks.effectivePolicies ⟨.sealer noteSealer, Catalog.sharedCache, .registry ⟨0⟩⟩
      noteLoad).exec noteSession {} = (.ok effective, σ', log') ∧
    answer.contains "*field_seal_sig*" = true ∧ effective = [(Name.text "id", ⟨false, true⟩)] := by
  have reached : noteSession.Reached none := .request (.request (.start noteStart) _ {}) _ {}
  have made : (Encryptor.sealer noteSealer).MadeUnder noteSession.settings :=
    ⟨noteStart, { masterKey := .text "key", iterations := .int 1 }, noteSealer,
      noteSession.settings, {}, {}, rfl, rfl, rfl, rfl⟩
  have known : (noteSession.catalog.registryAt Catalog.sharedRegistry).modelType (.text "Note") =
      .ok noteLoad.model := rfl
  have texts : Assoc.OfAttributes noteLoad.record := by
    simp [noteLoad, noteRecord, Assoc.OfAttributes, Assoc.keys, Name.IsAttribute]
  obtain ⟨resolved, effective, service, hooks, -, -, -, -, agree⟩ :=
    resolve_agrees reached (.inr ⟨rfl, made⟩) (.registry ⟨0⟩) known texts
  obtain ⟨σ, log, -, ran⟩ := service {}
  obtain ⟨σ', log', -, ran'⟩ := hooks {}
  obtain ⟨τ, log'', answered⟩ : ∃ τ log'', (resolve (.text "Note")
      (.list (noteLoad.record.keys.map .ofName))).exec noteSession {} = (.ok [("id", ⟨false, true⟩),
        ("*field_seal_sig*", ⟨true, true⟩), ("*field_seal_desc*", ⟨true, true⟩)], τ, log'') :=
    ⟨_, _, rfl⟩
  obtain rfl : resolved = .ok [("id", ⟨false, true⟩), ("*field_seal_sig*", ⟨true, true⟩),
      ("*field_seal_desc*", ⟨true, true⟩)] := resolved_of_answerable
    (congrArg Prod.fst (ran.symm.trans answered))
  refine ⟨_, _, _, _, _, _, answered, ran'.trans (congrArg (·, σ', log') (agree rfl)), rfl, rfl⟩

end Service

end RecordSeal
