import RecordSeal.Proofs.Hooks
import RecordSeal.Proofs.Seal.Tamper

set_option autoImplicit false

/-! # Records read under another type

What is read back is looked at under a reconciled policy. It gives the attributes of the record
the flags under which they were written if the reader declares those or gives them to unknown
attributes; then the record is found again (`Hooks.reads_of_encode`). -/

namespace RecordSeal

namespace Sealer

variable {s : Sealer} {signature description : Name} (names : s.Reserves signature description)
  {record stored : Record} {policies : FieldPolicies} {context : Context} {salt : List UInt8}

include names

omit names in
theorem not_beq_reserved (free : ∀ n ∈ [signature, description], record.contains n = false)
    {n : Name} (hn : n ∈ record.keys) {k : Name} (hk : k ∈ [signature, description]) :
    (n == k) = false :=
  Assoc.not_beq_of_not_contains (free k hk) hn

/-- What holds of the names of a type and of those of a record holds of all names of the policy that
is reconciled with what was sealed. -/
theorem IsSealed.forall_keys_reconcile {p : ClassPolicy} {P : Name → Prop}
    (h : s.IsSealed signature description policies context salt record stored)
    (active : p.doNotTouch = false)
    (free : ∀ n ∈ [signature, description], record.contains n = false)
    (declared : ∀ k ∈ p.fields.keys, P k) (present : ∀ k ∈ record.keys, P k) :
    ∀ k ∈ (p.reconcile stored.keys [signature, description]).keys, P k := by
  rw [ClassPolicy.reconcile_of_active active]
  refine ClassPolicy.forall_keys_extend declared ?_
  intro n hn unreserved
  rw [h.keys_eq names free, List.mem_append] at hn
  rcases hn with hn | hn
  · exact present n hn
  · simp only [List.mem_cons, List.not_mem_nil, or_false] at hn
    rcases hn with rfl | rfl <;> simp at unreserved

/-- A policy that is reconciled with what was sealed has the declared flags of an attribute of the
record, or those of unknown attributes. -/
theorem IsSealed.flagsOf_reconcile {p : ClassPolicy}
    (h : s.IsSealed signature description policies context salt record stored)
    (active : p.doNotTouch = false)
    (free : ∀ n ∈ [signature, description], record.contains n = false) {n : Name}
    (hn : n ∈ record.keys) :
    FieldPolicies.flagsOf (p.reconcile stored.keys [signature, description]) n =
      (p.fields.get? n).getD p.unknown := by
  have listed : n ∈ stored.keys := by
    rw [h.keys_eq names free]
    exact List.mem_append_left _ hn
  have unreserved : [signature, description].contains n = false := by
    have other (k : Name) (hk : k ∈ [signature, description]) : (n == k) = false :=
      not_beq_reserved free hn hk
    simp [other]
  rw [ClassPolicy.reconcile_of_active active, ClassPolicy.flagsOf_extend listed unreserved]

/-- A sealed record opens under the reconciled policy of a type that declares the same flags or
gives them to unknown attributes. -/
theorem IsSealed.openRecord_reconcile {p : ClassPolicy}
    (h : s.IsSealed signature description policies context salt record stored)
    (active : p.doNotTouch = false) (hr : record.Distinct) (hp : policies.Distinct)
    (hp' : p.fields.Distinct) (textsr : Assoc.OfAttributes record)
    (texts : Assoc.OfAttributes policies) (texts' : Assoc.OfAttributes p.fields)
    (free : ∀ n ∈ [signature, description],
      record.contains n = false ∧ policies.contains n = false ∧ p.fields.contains n = false)
    (same : ∀ n ∈ record.keys, policies.flagsOf n = (p.fields.get? n).getD p.unknown)
    (read : ∀ n v, (policies.flagsOf n).encrypt = true → record.get? n = some v → v.IsRead) :
    s.openRecord stored (p.reconcile stored.keys [signature, description]) context =
      .ok record := by
  have freer (n : Name) (hn : n ∈ [signature, description]) : record.contains n = false :=
    (free n hn).1
  have distinct : Assoc.Distinct (p.reconcile stored.keys [signature, description]) := by
    rw [ClassPolicy.reconcile_of_active active]
    exact ClassPolicy.distinct_extend hp'
  have unflagged {n : Name} (hn : n ∈ [signature, description]) :
      FieldPolicies.flagsOf (p.reconcile stored.keys [signature, description]) n = .none := by
    rw [ClassPolicy.reconcile_of_active active]
    exact FieldPolicies.flagsOf_of_not_contains (ClassPolicy.contains_extend (free n hn).2.2 hn)
  refine h.openRecord_of_flags names hr hp distinct texts ?_ freer ?_ ?_ ?_ read
  · exact h.forall_keys_reconcile names active freer texts' textsr
  · rw [unflagged (by simp)]
    rfl
  · rw [unflagged (by simp), FieldPolicies.flagsOf_of_not_contains (free description (by simp)).2.1]
  · intro n hn
    rw [h.flagsOf_reconcile names active freer hn, same n hn]

omit names in
/-- What is signed of a sealed record is JSON if the record is. -/
theorem IsSealed.isJson_of_signed
    (h : s.IsSealed signature description policies context salt record stored)
    (json : ∀ n v, record.get? n = some v → v.IsJson) (other : FieldPolicies) (n : Name) (v : Value)
    (found : signedValue stored other n = some v) : v.IsJson := by
  rw [signedValue] at found
  split at found
  · rcases h.text_or_plain found with ⟨t, rfl⟩ | plain
    · exact .text t
    · exact json n v plain
  · cases found

/-- An undeclared attribute of a sealed record is signed under the reconciled policy of a type that
signs unknown attributes. -/
theorem IsSealed.signedValue_of_undeclared {p : ClassPolicy}
    (h : s.IsSealed signature description p.fields context salt record stored)
    (active : p.doNotTouch = false) (unknown : p.unknown.sign = true)
    (free : ∀ n ∈ [signature, description], record.contains n = false) {n : Name}
    (hn : n ∈ record.keys) (undeclared : p.fields.contains n = false) :
    (signedValue stored (p.reconcile stored.keys [signature, description]) n).isSome = true := by
  have plain : (FieldPolicies.flagsOf p.fields n).encrypt = false := by
    rw [FieldPolicies.flagsOf_of_not_contains undeclared]
    rfl
  have kept : stored.get? n = record.get? n := by
    refine h.get?_of_plain plain ?_
    intro k hk
    rw [BEq.comm]
    exact not_beq_reserved free hn hk
  have there : (record.get? n).isSome = true := by
    rw [← Assoc.contains, Assoc.contains_eq_any_keys]
    exact List.any_eq_true.2 ⟨n, hn, BEq.rfl⟩
  rw [signedValue, h.flagsOf_reconcile names active free hn,
    Assoc.get?_of_not_contains undeclared, Option.getD_none, if_pos unknown, kept]
  exact there

/-- If a record with an undeclared attribute opens under a type that signs unknown attributes, then
the bytes that were signed have the code of others. -/
theorem IsSealed.collide_of_reconcile {p : ClassPolicy}
    (h : s.IsSealed signature description p.fields context salt record stored)
    (active : p.doNotTouch = false) (unknown : p.unknown.sign = true) (hp : p.fields.Distinct)
    (texts : ∀ k ∈ p.fields.keys, ∃ t, k = .text t) (textsr : ∀ k ∈ record.keys, ∃ t, k = .text t)
    (free : ∀ n ∈ [signature, description],
      record.contains n = false ∧ p.fields.contains n = false)
    (json : ∀ n v, record.get? n = some v → v.IsJson) (named : context.IsNamed) {n : Name}
    (hn : n ∈ record.keys) (undeclared : p.fields.contains n = false) {opened : Record}
    (opens : s.openRecord stored (p.reconcile stored.keys [signature, description]) context =
      .ok opened) :
    ∃ described, s.SignedCollide salt described context context stored stored p.fields
      (p.reconcile stored.keys [signature, description]) := by
  have freer (n : Name) (hn : n ∈ [signature, description]) : record.contains n = false :=
    (free n hn).1
  have distinct : Assoc.Distinct (p.reconcile stored.keys [signature, description]) := by
    rw [ClassPolicy.reconcile_of_active active]
    exact ClassPolicy.distinct_extend hp
  have unsigned : (p.fields.flagsOf signature).sign = false := by
    rw [FieldPolicies.flagsOf_of_not_contains (free signature (by simp)).2]
    rfl
  have texts' := h.forall_keys_reconcile names active freer texts textsr
  rcases h.alike_or_collide names hp distinct texts texts' unsigned (h.isJson_of_signed json _)
    (h.isJson_of_signed json _) named named rfl rfl opens with alike | ⟨described, -, collide⟩
  · -- The attribute is signed on one side only.
    exfalso
    have related := alike.attributes n
    obtain ⟨v, found⟩ := Option.isSome_iff_exists.1
      (h.signedValue_of_undeclared names active unknown freer hn undeclared)
    have absent : signedValue stored p.fields n = none := by
      rw [signedValue, FieldPolicies.flagsOf_of_not_contains undeclared]
      rfl
    rw [absent, found] at related
    cases related
  · exact ⟨described, collide⟩

end Sealer

namespace Hooks

/-- A type that hooks protect under a policy: it is not exempt, and its policy lists texts, each of
them once and none of them reserved. -/
structure Protects (h : Hooks) (c : Catalog) (model : ModelId) (reserved : List Name)
    (p : ClassPolicy) : Prop where
  policy : h.policyOf c model = .ok p
  active : p.doNotTouch = false
  distinct : p.fields.Distinct
  texts : Assoc.OfAttributes p.fields
  free : ∀ n ∈ reserved, p.fields.contains n = false

theorem Protects.follows {h : Hooks} {σ σ' : Session} {model : ModelId} {reserved : List Name}
    {p : ClassPolicy} (protected_ : h.Protects σ.catalog model reserved p)
    (follows : σ.Follows σ') : h.Protects σ'.catalog model reserved p :=
  { protected_ with policy := (h.policyOf_agrees follows.catalog model).trans protected_.policy }

/-- Whether hooks read a record from what is stored, with the parameters of a transform. -/
def Reads (h : Hooks) (σ : Session) (t : Transform) (stored record : Record) : Prop :=
  ∀ log, ((h.decode { t with record := stored }).exec σ log).1 = .ok record

variable {s : Sealer} {signature description : Name} {h h' : Hooks} {σ σ' : Session}
  {t t' : Transform} {p p' : ClassPolicy} {stored : Record}

/-- What hooks of a type that is not exempt give to the store was sealed. -/
theorem sealRecord_of_encoded (policy : h.policyOf σ.catalog t.model = .ok p)
    (active : p.doNotTouch = false) (encoded : h.encoded s t σ = .ok stored) :
    ∃ after, s.sealRecord σ.around.now t.record p.fields (h.binding σ.catalog t)
      σ.around.entropy = (.ok stored, after) := by
  exact ⟨_, Prod.ext ((encoded_eq_ok_iff policy active).1 encoded) rfl⟩

/-- What hooks of a protected type give to the store is a sealed record. -/
theorem exists_isSealed_of_encoded (names : s.Reserves signature description)
    {reserved : List Name} (writer : h.Protects σ.catalog t.model reserved p)
    (encoded : h.encoded s t σ = .ok stored) :
    ∃ salt, s.IsSealed signature description p.fields (h.binding σ.catalog t) salt t.record
      stored := by
  obtain ⟨_, made⟩ := sealRecord_of_encoded writer.policy writer.active encoded
  exact ⟨_, Sealer.isSealed_of_sealRecord names writer.distinct made⟩

/-- A sealed record is opened under every protected type that gives its attributes the flags it
was sealed with. -/
theorem decoded_of_isSealed (names : s.Reserves signature description) {c : Catalog}
    (reader : h.Protects c t.model [signature, description] p) {record : Record}
    {policies : FieldPolicies} {salt : List UInt8}
    (sealed_ : s.IsSealed signature description policies (h.binding c t) salt record stored)
    (hr : record.Distinct) (hp : policies.Distinct) (textsr : Assoc.OfAttributes record)
    (texts : Assoc.OfAttributes policies)
    (free : ∀ n ∈ [signature, description],
      record.contains n = false ∧ policies.contains n = false)
    (same : ∀ n ∈ record.keys, policies.flagsOf n = (p.fields.get? n).getD p.unknown)
    (read : ∀ n v, (policies.flagsOf n).encrypt = true → record.get? n = some v → v.IsRead) :
    h.decoded s { t with record := stored } c [signature, description] = .ok record := by
  have opened := sealed_.openRecord_reconcile names reader.active hr hp reader.distinct textsr texts
    reader.texts (fun n hn => ⟨(free n hn).1, (free n hn).2, reader.free n hn⟩) same read
  exact (decoded_eq_ok_iff (t := { t with record := stored }) reader.policy reader.active).2 opened

/-- What is encoded under one type is decoded under another one if the flags that the writer
declares are those that the reader declares or gives to unknown attributes. Under one type this
asks for declared attributes only, or for no protection of unknown ones; a type with an override
may be read from any table. -/
theorem reads_of_encode (names : s.Reserves signature description)
    (seals : h.encryptor = .sealer s)
    (writer : h.Protects σ.catalog t.model [signature, description] p)
    (distinct : t.record.Distinct) (texts : Assoc.OfAttributes t.record)
    (free : ∀ n ∈ [signature, description], t.record.contains n = false)
    (json : ∀ n v, (p.fields.flagsOf n).encrypt = true → t.record.get? n = some v → v.IsJson)
    {log log₁ : Log} {σ₁ : Session} (encoded : (h.encode t).exec σ log = (.ok stored, σ₁, log₁)) :
    (∀ (h' : Hooks) (σ' : Session) (t' : Transform) (p' : ClassPolicy),
      h'.encryptor = .sealer s → h'.Protects σ'.catalog t'.model [signature, description] p' →
      h'.binding σ'.catalog t' = h.binding σ.catalog t →
      (∀ a ∈ t.record.keys, p.fields.flagsOf a = (p'.fields.get? a).getD p'.unknown) →
      h'.Reads σ' t' stored t.record) ∧
    ((∀ a ∈ t.record.keys, p.fields.contains a = true) ∨ p.unknown = .none →
      h.Reads σ₁ t stored t.record ∧
      ((h.provider.markers σ.catalog t.model).tableOverride.isSome = true →
        ∀ table, h.Reads σ₁ { t with table } stored t.record)) := by
  obtain ⟨σ₂, log₂, follows, ran⟩ := h.exec_encode t log seals
  rw [encoded, Prod.mk.injEq, Prod.mk.injEq] at ran
  obtain ⟨given, rfl, rfl⟩ := ran
  obtain ⟨salt, sealed_⟩ := exists_isSealed_of_encoded names writer given.symm
  have reads (h' : Hooks) (σ' : Session) (t' : Transform) (p' : ClassPolicy)
      (seals : h'.encryptor = .sealer s)
      (reader : h'.Protects σ'.catalog t'.model [signature, description] p')
      (bound : h'.binding σ'.catalog t' = h.binding σ.catalog t)
      (same : ∀ a ∈ t.record.keys, p.fields.flagsOf a = (p'.fields.get? a).getD p'.unknown) :
      h'.Reads σ' t' stored t.record := by
    intro log
    have decoded := decoded_of_isSealed names reader (bound ▸ sealed_) distinct writer.distinct
      texts writer.texts (fun n hn => ⟨free n hn, writer.free n hn⟩) same
      fun n v encrypt found => (json n v encrypt found).isRead
    obtain ⟨σ₃, log₃, -, ran⟩ := h'.exec_decode { t' with record := stored } log seals names
    rw [ran, decoded]
  refine ⟨reads, ?_⟩
  intro declared
  have same (a : Name) (ha : a ∈ t.record.keys) :
      p.fields.flagsOf a = (p.fields.get? a).getD p.unknown := by
    rw [FieldPolicies.flagsOf]
    rcases declared with declared | none
    · obtain ⟨flags, found⟩ := Option.isSome_iff_exists.1 (declared a ha)
      rw [found]
      rfl
    · rw [none]
  have again (table : Value)
      (bound : h.binding σ.catalog { t with table } = h.binding σ.catalog t) :
      h.Reads σ₁ { t with table } stored t.record :=
    reads h σ₁ { t with table } p seals (writer.follows follows)
      ((h.binding_agrees _ follows.catalog).trans bound) same
  refine ⟨again t.table rfl, ?_⟩
  intro override table
  refine again table ?_
  -- The override stands for the table in the context, whatever the table is.
  obtain ⟨name, found⟩ := Option.isSome_iff_exists.1 override
  simp only [binding, Transform.context, found, Option.getD_some]

/-! ## A sample -/

/-- A type that declares the key and the body of the sample record, and one that declares the key
and the byte string and protects what it does not declare. -/
def sampleSession : Session where
  around := { now := ⟨2024, 1, 1, 0, 0, 0, 0⟩, entropy := { stream := fun _ => 0 } }
  catalog :=
    { registries := [{
        mappings := [
          (⟨0⟩, [
            { name := .text "id", attributeName := .text "id",
              markers := { hashKey := .bool true } },
            { name := .text "body", attributeName := .text "body" }]),
          (⟨1⟩, [
            { name := .text "id", attributeName := .text "id",
              markers := { hashKey := .bool true } },
            { name := .text "blob", attributeName := .text "blob",
              markers := { doNotTouch := .bool true } }])]
        markers := [(⟨1⟩, { handleUnknown := true })] }] }

/-- Hooks of the sample sealer. -/
def sampleHooks : Hooks := ⟨.sealer .sample, ⟨0⟩, .registry ⟨0⟩⟩

/-- The parameters of the sample record under a type. -/
def sampleTransform (model : ModelId) : Transform :=
  { model, table := .text "t", hashKey := .text "id", rangeKey := .null,
    record := Sealer.sampleRecord }

/-- The policy of the type that reads the sample record. -/
def readerPolicy : ClassPolicy :=
  { fields := [("id", ⟨false, true⟩), ("blob", .none)], unknown := ⟨true, true⟩ }

theorem protects_writer : sampleHooks.Protects sampleSession.catalog ⟨0⟩ ["*sig*", "*desc*"]
    { fields := Sealer.samplePolicies } :=
  ⟨rfl, rfl, Sealer.distinct_sample.2.1, Sealer.ofAttributes_sample.1,
    fun n hn => (Sealer.free_sample n hn).2.1⟩

theorem protects_reader :
    sampleHooks.Protects sampleSession.catalog ⟨1⟩ ["*sig*", "*desc*"] readerPolicy := by
  refine ⟨rfl, rfl, ?_, ?_, ?_⟩
  · simp [Assoc.Distinct, Assoc.keys, readerPolicy]
  · simp [Assoc.OfAttributes, Assoc.keys, readerPolicy, Name.IsAttribute]
  · simp [Assoc.contains, readerPolicy]

theorem encoded_sample : ∃ stored,
    sampleHooks.encoded .sample (sampleTransform ⟨0⟩) sampleSession = .ok stored :=
  ⟨_, rfl⟩

theorem encode_sample : ∃ stored after log,
    (sampleHooks.encode (sampleTransform ⟨0⟩)).exec sampleSession {} =
      (.ok stored, after, log) := by
  obtain ⟨stored, given⟩ := encoded_sample
  obtain ⟨after, log, -, ran⟩ : ∃ σ log, sampleSession.Follows σ ∧
      (sampleHooks.encode (sampleTransform ⟨0⟩)).exec sampleSession {} =
        (sampleHooks.encoded .sample (sampleTransform ⟨0⟩) sampleSession, σ, log) :=
    sampleHooks.exec_encode (sampleTransform ⟨0⟩) {} rfl
  exact ⟨stored, after, log, by rw [ran, given]⟩

/-- The sample record is read under its own type and under the one that knows its body only as an
unknown attribute. -/
theorem reads_of_encode_sample : ∃ stored after log,
    (sampleHooks.encode (sampleTransform ⟨0⟩)).exec sampleSession {} = (.ok stored, after, log) ∧
    sampleHooks.Reads sampleSession (sampleTransform ⟨1⟩) stored Sealer.sampleRecord ∧
    sampleHooks.Reads after (sampleTransform ⟨0⟩) stored Sealer.sampleRecord := by
  obtain ⟨stored, after, log, ran⟩ := encode_sample
  have round := reads_of_encode Sealer.reserves_sample rfl protects_writer
    Sealer.distinct_sample.1 (by simp [Assoc.OfAttributes, Assoc.keys, sampleTransform,
      Sealer.sampleRecord, Name.IsAttribute])
    (fun n hn => (Sealer.free_sample n hn).1)
    (fun n v encrypt => Sealer.isJson_sample n v (by rw [Flags.isAny, encrypt]; rfl)) ran
  refine ⟨stored, after, log, ran, ?_, (round.2 (.inr rfl)).1⟩
  refine round.1 sampleHooks sampleSession (sampleTransform ⟨1⟩) readerPolicy rfl
    protects_reader rfl ?_
  intro a ha
  simp only [sampleTransform, Sealer.sampleRecord, Assoc.keys, List.map_cons, List.map_nil,
    List.mem_cons, List.not_mem_nil, or_false] at ha
  rcases ha with rfl | rfl | rfl <;>
    simp [Sealer.samplePolicies, readerPolicy, FieldPolicies.flagsOf, Flags.none]

end Hooks

end RecordSeal
