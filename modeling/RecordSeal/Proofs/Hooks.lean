import RecordSeal.Hooks
import RecordSeal.Proofs.Catalog
import RecordSeal.Proofs.Policy
import RecordSeal.Proofs.Seal.RoundTrip

set_option autoImplicit false

/-! # What hooks ask and what they tell

Hooks ask for the policy of a type, which changes no answer of the session (`Session.Asked`), and
tell their encryptor the record, its policies and its context (`Hooks.exec_encode_of_active`,
`Hooks.exec_decode_of_active`). With a sealer, what `encode` and `decode` give is a function of the
session (`Hooks.encoded`, `Hooks.decoded`); they leave a session that answers the same and has the
same servers and stores (`Session.Follows`). -/

namespace RecordSeal

/-- A session after something that only asked for policies and took random bytes. -/
structure Session.Follows (σ σ' : Session) : Prop where
  catalog : σ.catalog.Agrees σ'.catalog
  servers : σ'.servers = σ.servers
  stores : σ'.stores = σ.stores

theorem Session.Follows.trans {σ σ' σ'' : Session} (h : σ.Follows σ') (h' : σ'.Follows σ'') :
    σ.Follows σ'' :=
  ⟨h.catalog.trans h'.catalog, h'.servers.trans h.servers, h'.stores.trans h.stores⟩

/-- A session after something that only asked for policies. -/
def Session.Asked (σ σ' : Session) : Prop :=
  ∃ c, σ.catalog.Agrees c ∧ σ' = { σ with catalog := c }

theorem Session.Asked.refl (σ : Session) : σ.Asked σ := ⟨σ.catalog, .refl _, rfl⟩

theorem Session.Asked.trans {σ σ' σ'' : Session} (h : σ.Asked σ') (h' : σ'.Asked σ'') :
    σ.Asked σ'' := by
  obtain ⟨c, agrees, rfl⟩ := h
  obtain ⟨c', agrees', rfl⟩ := h'
  exact ⟨c', agrees.trans agrees', rfl⟩

theorem Session.Asked.catalog {σ σ' : Session} (h : σ.Asked σ') : σ.catalog.Agrees σ'.catalog := by
  obtain ⟨c, agrees, rfl⟩ := h
  exact agrees

theorem Session.Asked.around {σ σ' : Session} (h : σ.Asked σ') : σ'.around = σ.around := by
  obtain ⟨c, -, rfl⟩ := h
  rfl

theorem Session.Asked.workshop {σ σ' : Session} (h : σ.Asked σ') :
    σ'.workshop = σ.workshop := by
  obtain ⟨c, -, rfl⟩ := h
  rfl

theorem Session.Asked.settings {σ σ' : Session} (h : σ.Asked σ') : σ'.settings = σ.settings := by
  obtain ⟨c, -, rfl⟩ := h
  rfl

theorem Session.Asked.reserved {σ σ' : Session} (h : σ.Asked σ') : σ'.reserved = σ.reserved := by
  obtain ⟨c, -, rfl⟩ := h
  rfl

theorem Session.Asked.follows {σ σ' : Session} (h : σ.Asked σ') : σ.Follows σ' := by
  obtain ⟨c, agrees, rfl⟩ := h
  exact ⟨agrees, rfl, rfl⟩

theorem Session.exec_asking {α : Type} {act : Act Catalog α} {σ : Session} {log : Log}
    {answer : Except Failure α}
    (h : ∃ c' log', σ.catalog.Agrees c' ∧ act.exec σ.catalog log = (answer, c', log')) :
    ∃ σ' log', σ.Asked σ' ∧ (onCatalog act).exec σ log = (answer, σ', log') := by
  obtain ⟨c', log', agrees, ran⟩ := h
  refine ⟨{ σ with catalog := c' }, log', ⟨c', agrees, rfl⟩, ?_⟩
  rw [onCatalog, Act.exec_on, ran]

theorem Session.exec_onCatalog {α : Type} {act : Act Catalog α} {σ : Session} {log : Log}
    {answer : Except Failure α}
    (h : ∃ c' log', σ.catalog.Agrees c' ∧ act.exec σ.catalog log = (answer, c', log')) :
    ∃ σ' log', σ.Follows σ' ∧ σ'.around = σ.around ∧
      (onCatalog act).exec σ log = (answer, σ', log') := by
  obtain ⟨σ', log', asked, ran⟩ := exec_asking h
  exact ⟨σ', log', asked.follows, asked.around, ran⟩

namespace Hooks

variable (h : Hooks) (s : Sealer) (t : Transform) (σ : Session) (log : Log)

/-- The policy of a type under hooks. -/
def policyOf (c : Catalog) (model : ModelId) : Except Failure ClassPolicy :=
  c.policyOf h.cache model

/-- What the signature of a transform is bound to under hooks. -/
def binding (c : Catalog) (t : Transform) : Context :=
  (t.context (h.provider.markers c t.model).tableOverride).binding

/-- The context of a transform under hooks. -/
def contextOf (c : Catalog) (t : Transform) : EncryptionContext :=
  t.context (h.provider.markers c t.model).tableOverride

/-- The record that hooks of a sealer give to the store. -/
def encoded : Except Failure Record := do
  let policy ← h.policyOf σ.catalog t.model
  if policy.doNotTouch then pure t.record
  else
    (s.sealRecord σ.around.now t.record policy.fields (h.binding σ.catalog t) σ.around.entropy).1
      |>.mapError (asMapping .encrypt (σ.catalog.forest.typeAt t.model).name)

/-- The record that hooks of a sealer take from the store. -/
def decoded (c : Catalog) (reserved : List Name) : Except Failure Record := do
  let policy ← h.policyOf c t.model
  if policy.doNotTouch then pure t.record
  else
    (s.openRecord t.record (policy.reconcile t.record.keys reserved) (h.binding c t))
      |>.mapError (asMapping .decrypt (c.forest.typeAt t.model).name)

variable {h s t σ} in
/-- What hooks of a type that is not exempt encode is what the sealer makes of the record. -/
theorem encoded_eq_ok_iff {p : ClassPolicy} (policy : h.policyOf σ.catalog t.model = .ok p)
    (active : p.doNotTouch = false) {stored : Record} :
    h.encoded s t σ = .ok stored ↔
      (s.sealRecord σ.around.now t.record p.fields (h.binding σ.catalog t) σ.around.entropy).1 =
        .ok stored := by
  rw [encoded, policy]
  simp only [bind, Except.bind, active, Bool.false_eq_true, if_false]
  exact mapError_eq_ok_iff

variable {h s t} in
/-- What hooks of a type that is not exempt decode is what the sealer opens under its reconciled
policy. -/
theorem decoded_eq_ok_iff {c : Catalog} {p : ClassPolicy} (policy : h.policyOf c t.model = .ok p)
    (active : p.doNotTouch = false) {reserved : List Name} {r : Record} :
    h.decoded s t c reserved = .ok r ↔
      s.openRecord t.record (p.reconcile t.record.keys reserved) (h.binding c t) = .ok r := by
  rw [decoded, policy]
  simp only [bind, Except.bind, active, Bool.false_eq_true, if_false]
  exact mapError_eq_ok_iff

theorem exec_policy (model : ModelId) :
    ∃ σ' log', σ.Asked σ' ∧
      (h.policy model).exec σ log = (h.policyOf σ.catalog model, σ', log') :=
  Session.exec_asking (Catalog.exec_policy h.cache model σ.catalog log)

variable {s σ}

theorem policyOf_agrees {c c' : Catalog} (agrees : c.Agrees c') (model : ModelId) :
    h.policyOf c' model = h.policyOf c model :=
  agrees.policies h.cache model

theorem binding_agrees {c c' : Catalog} (agrees : c.Agrees c') :
    h.binding c' t = h.binding c t := by
  rw [binding, binding, agrees.markers]

theorem contextOf_agrees {c c' : Catalog} (agrees : c.Agrees c') :
    h.contextOf c' t = h.contextOf c t := by
  rw [contextOf, contextOf, agrees.markers]

theorem decoded_agrees {c c' : Catalog} (agrees : c.Agrees c') (reserved : List Name) :
    h.decoded s t c' reserved = h.decoded s t c reserved := by
  rw [decoded, decoded, h.policyOf_agrees agrees, h.binding_agrees t agrees, agrees.forest]

/-! ## What the encryptor is told -/

theorem exec_modelName :
    (modelName t).exec σ log = (.ok (σ.catalog.forest.typeAt t.model).name, σ, log) :=
  rfl

theorem exec_context_bind {α : Type} (f : EncryptionContext → Act Session α) :
    (h.context t >>= f).exec σ log = (f (h.contextOf σ.catalog t)).exec σ log := by
  rw [Act.exec_bind]
  rfl

section

variable {p : ClassPolicy} (answer : h.policyOf σ.catalog t.model = .ok p)
  (active : p.doNotTouch = false)

include answer active

/-- Encoding under a type that is not exempt is what the encryptor makes of the record, its policies
and its context. -/
theorem exec_encode_of_active : ∃ σ' log', σ.Asked σ' ∧
    (h.encode t).exec σ log =
      (Act.mapFailure (asMapping .encrypt (σ.catalog.forest.typeAt t.model).name)
        (Session.onWorkshop (h.encryptor.encrypt σ.around.now t.record p.fields
          (h.contextOf σ.catalog t)))).exec σ' log' := by
  obtain ⟨σ', log', asked, ran⟩ := h.exec_policy σ log t.model
  have touch : ¬ p.doNotTouch = true := by simp [active]
  rw [← asked.around, ← h.contextOf_agrees t asked.catalog, ← asked.catalog.forest]
  unfold encode
  rw [Act.exec_bind, ran, answer]
  dsimp only
  rw [if_neg touch, Act.exec_bind]
  have told (log : Log) : (do
        let now := (← (get : Act Session Session)).around.now
        Act.mapFailure (asMapping .encrypt (σ'.catalog.forest.typeAt t.model).name) do
          let context ← h.context t
          Session.onWorkshop (h.encryptor.encrypt now t.record p.fields context)).exec σ' log =
      (Act.mapFailure (asMapping .encrypt (σ'.catalog.forest.typeAt t.model).name)
        (Session.onWorkshop (h.encryptor.encrypt σ'.around.now t.record p.fields
          (h.contextOf σ'.catalog t)))).exec σ' log := by
    rw [Act.exec_bind, Act.exec_get]
    dsimp only
    rw [Act.exec_mapFailure, Act.exec_mapFailure, exec_context_bind]
  show ∃ σ₁ log₁, σ.Asked σ₁ ∧
    (if t.isPartial = true then _ else _ : Act Session Record).exec σ' log' = _
  -- The note on a partial update changes the log only.
  cases t.isPartial with
  | false => exact ⟨σ', log', asked, told log'⟩
  | true =>
    simp only [if_true, Act.exec_bind _ _ σ' log', Act.exec_note]
    exact ⟨σ', _, asked, told _⟩

/-- The policies for a stored record are those of the type, reconciled with the record. -/
theorem exec_effectivePolicies_of_active : ∃ σ' log', σ.Asked σ' ∧
    (h.effectivePolicies t).exec σ log =
      ((namesOf [(h.encryptor.reservedNames σ.workshop).1,
        (h.encryptor.reservedNames σ.workshop).2]).map (p.reconcile t.record.keys), σ', log') := by
  obtain ⟨σ', log', asked, ran⟩ := h.exec_policy σ log t.model
  have touch : ¬ p.doNotTouch = true := by simp [active]
  refine ⟨σ', log', asked, ?_⟩
  rw [← asked.workshop]
  unfold effectivePolicies
  rw [Act.exec_bind, ran, answer]
  dsimp only
  rw [if_neg touch, Act.exec_bind, Act.exec_get]
  dsimp only
  rw [Act.exec_bind, Act.exec_ofExcept]
  cases namesOf [(h.encryptor.reservedNames σ'.workshop).1,
    (h.encryptor.reservedNames σ'.workshop).2] <;> rfl

/-- Decoding under a type that is not exempt is what the encryptor makes of the record, its
reconciled policies and its context. -/
theorem exec_decode_of_active {reserved : List Name}
    (names : namesOf [(h.encryptor.reservedNames σ.workshop).1,
      (h.encryptor.reservedNames σ.workshop).2] = .ok reserved) : ∃ σ' log', σ.Asked σ' ∧
    (h.decode t).exec σ log =
      (Act.mapFailure (asMapping .decrypt (σ.catalog.forest.typeAt t.model).name)
        (Session.onWorkshop (h.encryptor.decrypt t.record (p.reconcile t.record.keys reserved)
          (h.contextOf σ.catalog t)))).exec σ' log' := by
  obtain ⟨σ₁, log₁, asked, ran⟩ := h.exec_policy σ log t.model
  -- The policy is asked for a second time, and is the same.
  have again : h.policyOf σ₁.catalog t.model = .ok p :=
    (h.policyOf_agrees asked.catalog t.model).trans answer
  obtain ⟨σ₂, log₂, asked₂, policies⟩ := h.exec_effectivePolicies_of_active t log₁ again active
  have both := asked.trans asked₂
  have touch : ¬ p.doNotTouch = true := by simp [active]
  refine ⟨σ₂, log₂, both, ?_⟩
  rw [asked.workshop, names] at policies
  rw [← h.contextOf_agrees t both.catalog, ← both.catalog.forest]
  unfold decode
  rw [Act.exec_bind, ran, answer]
  dsimp only
  rw [if_neg touch, Act.exec_bind, policies]
  dsimp only [Except.map]
  rw [Act.exec_bind, exec_modelName]
  dsimp only
  rw [Act.exec_mapFailure, Act.exec_mapFailure, exec_context_bind]

end

/-! ## Sealers -/

/-- Sealing takes random bytes of the session and changes nothing else. -/
theorem exec_sealWith (now : Timestamp) (record : Record) (policies : FieldPolicies)
    (context : EncryptionContext) (σ : Session) (log : Log) :
    (Session.onWorkshop ((Encryptor.sealer s).encrypt now record policies context)).exec σ log =
      ((s.sealRecord now record policies context.binding σ.around.entropy).1,
        { σ with around := { σ.around with entropy :=
          (s.sealRecord now record policies context.binding σ.around.entropy).2 } }, log) :=
  rfl

theorem exec_encode (seals : h.encryptor = .sealer s) :
    ∃ σ' log', σ.Follows σ' ∧ (h.encode t).exec σ log = (h.encoded s t σ, σ', log') := by
  cases answer : h.policyOf σ.catalog t.model with
  | error why =>
    obtain ⟨σ', log', asked, ran⟩ := h.exec_policy σ log t.model
    refine ⟨σ', log', asked.follows, ?_⟩
    rw [encode, encoded, Act.exec_bind, ran, answer]
    rfl
  | ok p =>
    cases active : p.doNotTouch with
    | true =>
      obtain ⟨σ', log', asked, ran⟩ := h.exec_policy σ log t.model
      refine ⟨σ', log', asked.follows, ?_⟩
      rw [encode, encoded, Act.exec_bind, ran, answer]
      simp only [active, if_true, bind, Except.bind]
      rfl
    | false =>
      obtain ⟨σ', log', asked, ran⟩ := h.exec_encode_of_active t log answer active
      have told : h.encoded s t σ =
          (s.sealRecord σ'.around.now t.record p.fields (h.contextOf σ.catalog t).binding
            σ'.around.entropy).1.mapError
              (asMapping .encrypt (σ.catalog.forest.typeAt t.model).name) := by
        rw [encoded, answer, asked.around]
        simp only [bind, Except.bind, active, Bool.false_eq_true, if_false]
        rfl
      rw [ran, seals, told, ← asked.around, Act.exec_mapFailure, exec_sealWith]
      obtain ⟨result, entropy, made⟩ : ∃ result entropy,
          s.sealRecord σ'.around.now t.record p.fields
          (h.contextOf σ.catalog t).binding σ'.around.entropy = (result, entropy) := ⟨_, _, rfl⟩
      rw [made]
      exact ⟨{ σ' with around := { σ'.around with entropy } }, log',
        asked.follows.trans ⟨.refl _, rfl, rfl⟩, rfl⟩

/-- Decoding gives what it should, in a session that answers the same. -/
theorem exec_decode (seals : h.encryptor = .sealer s) {signature description : Name}
    (names : s.Reserves signature description) :
    ∃ σ' log', σ.Follows σ' ∧
      (h.decode t).exec σ log = (h.decoded s t σ.catalog [signature, description], σ', log') := by
  cases answer : h.policyOf σ.catalog t.model with
  | error why =>
    obtain ⟨σ', log', asked, ran⟩ := h.exec_policy σ log t.model
    refine ⟨σ', log', asked.follows, ?_⟩
    rw [decode, decoded, Act.exec_bind, ran, answer]
    rfl
  | ok p =>
    cases active : p.doNotTouch with
    | true =>
      obtain ⟨σ', log', asked, ran⟩ := h.exec_policy σ log t.model
      refine ⟨σ', log', asked.follows, ?_⟩
      rw [decode, decoded, Act.exec_bind, ran, answer]
      simp only [active, if_true, bind, Except.bind]
      rfl
    | false =>
      have reserved : namesOf [(h.encryptor.reservedNames σ.workshop).1,
          (h.encryptor.reservedNames σ.workshop).2] = .ok [signature, description] := by
        rw [seals]
        simp [Encryptor.reservedNames, namesOf, names.signature_eq, names.description_eq, bind,
          Except.bind, pure, Except.pure]
      obtain ⟨σ', log', asked, ran⟩ := h.exec_decode_of_active t log answer active reserved
      have told : h.decoded s t σ.catalog [signature, description] =
          (s.openRecord t.record (p.reconcile t.record.keys [signature, description])
            (h.contextOf σ.catalog t).binding).mapError
              (asMapping .decrypt (σ.catalog.forest.typeAt t.model).name) := by
        rw [decoded, answer]
        simp only [bind, Except.bind, active, Bool.false_eq_true, if_false]
        rfl
      rw [ran, seals, told]
      exact ⟨_, _, asked.follows, rfl⟩

end Hooks

end RecordSeal
