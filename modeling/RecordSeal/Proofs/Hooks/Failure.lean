import RecordSeal.Proofs.Hooks.RoundTrip
import RecordSeal.Proofs.Seal.Obstacle

set_option autoImplicit false

/-! # When encoding fails

Hooks of a sealer fail to encode a record just when a protected attribute holds something that has
no JSON form, or when a limit is exceeded; what they fail with names the type and has the reason as
its cause. Attributes that are not protected may hold anything: they do not make encoding fail, and
come back as they were if the type leaves alone what it does not declare
(`Hooks.fails_iff_formless_or_exceeds`). -/

namespace RecordSeal

namespace Hooks

variable {s : Sealer} {signature description : Name} {h : Hooks} {σ : Session} {t : Transform}
  {p : ClassPolicy}

theorem encoded_eq_error_iff (policy : h.policyOf σ.catalog t.model = .ok p)
    (active : p.doNotTouch = false) {why : Failure} :
    h.encoded s t σ = .error why ↔ ∃ cause,
      (s.sealRecord σ.around.now t.record p.fields (h.binding σ.catalog t) σ.around.entropy).1 =
        .error cause ∧
      why = asMapping .encrypt (σ.catalog.forest.typeAt t.model).name cause := by
  rw [encoded, policy]
  simp only [bind, Except.bind, active, Bool.false_eq_true, if_false]
  rw [mapError_eq_error_iff]
  simp only [eq_comm]

section

variable (names : s.Reserves signature description) (iterated : 1 ≤ s.iterations)
  (type : h.Protects σ.catalog t.model [signature, description] p)
  (named : (h.binding σ.catalog t).IsNamed)

include names iterated type named

theorem not_prevents_of_encoded {stored : Record} (encoded : h.encoded s t σ = .ok stored)
    (why : Failure) : ¬ s.Prevents t.record p.fields why := by
  obtain ⟨_, made⟩ := sealRecord_of_encoded type.policy type.active encoded
  exact Sealer.not_prevents_of_sealRecord names type.distinct type.texts
    (type.free description (by simp)) named iterated made why

variable (mixed : ∀ f ∈ p.fields, f.2.isAny = true → ∀ v, t.record.get? f.1 = some v → v.IsMixed)

include mixed

/-- Encoding fails with a mapping failure that has what prevented sealing as its cause. -/
theorem prevents_of_encoded (text : s.masterKey.kindName = "str") {why : Failure}
    (failed : h.encoded s t σ = .error why) :
    ∃ cause, why = .mapping .encrypt (σ.catalog.forest.typeAt t.model).name cause ∧
      s.Prevents t.record p.fields cause := by
  obtain ⟨cause, unsealed, rfl⟩ := (encoded_eq_error_iff type.policy type.active).1 failed
  have prevents := Sealer.prevents_of_sealRecord names type.distinct type.texts
    (type.free description (by simp)) named text iterated mixed (Prod.ext unsealed rfl)
  refine ⟨cause, ?_, prevents⟩
  rw [asMapping, prevents.isExit_eq]
  rfl

theorem isRead_of_encoded {stored : Record} (encoded : h.encoded s t σ = .ok stored) (n : Name)
    (v : Value) (encrypt : (p.fields.flagsOf n).encrypt = true)
    (held : t.record.get? n = some v) : v.IsRead := by
  obtain ⟨f, hf, beq, flag⟩ := FieldPolicies.exists_of_encrypt encrypt
  have isAny : f.2.isAny = true := by simp [Flags.isAny, flag]
  rw [← Assoc.get?_congr t.record beq] at held
  refine (mixed f hf isAny v held).isRead fun n w occurs formless => ?_
  exact not_prevents_of_encoded names iterated type named encoded _
    (.inl ⟨w, ⟨formless, f, hf, isAny, v, held, n, occurs⟩, rfl⟩)

end

/-- Encoding a record fails if and only if a protected attribute holds something without a JSON
form, or a limit is exceeded, and it fails with that as the cause of a mapping failure. A record
that was encoded is read again if its type protects no unknown attributes. Only what protected
attributes hold is asked to be a nesting of JSON values, byte strings and foreign objects. -/
theorem fails_iff_formless_or_exceeds (h : Hooks) (s : Sealer) (signature description : Name)
    (σ : Session) (t : Transform) (p : ClassPolicy) (log : Log)
    (names : s.Reserves signature description) (seals : h.encryptor = .sealer s)
    (text : s.masterKey.kindName = "str") (iterated : 1 ≤ s.iterations)
    (type : h.Protects σ.catalog t.model [signature, description] p)
    (named : (h.binding σ.catalog t).IsNamed) (distinct : t.record.Distinct)
    (texts : Assoc.OfAttributes t.record)
    (free : ∀ n ∈ [signature, description], t.record.contains n = false)
    (mixed : ∀ f ∈ p.fields, f.2.isAny = true → ∀ v, t.record.get? f.1 = some v → v.IsMixed) :
    ((∃ why, ((h.encode t).exec σ log).1 = .error why) ↔
      (∃ w, ProtectsFormless p.fields t.record w) ∨ ∃ cause, s.Exceeds t.record p.fields cause) ∧
    (∀ why, ((h.encode t).exec σ log).1 = .error why → ∃ cause,
      why = .mapping .encrypt (σ.catalog.forest.typeAt t.model).name cause ∧
      ((∃ w, ProtectsFormless p.fields t.record w ∧
          cause = .unwritable (.kind (.value w.kindName))) ∨
        s.Exceeds t.record p.fields cause)) ∧
    ∀ stored σ' log', (h.encode t).exec σ log = (.ok stored, σ', log') → p.unknown = .none →
      h.Reads σ' t stored t.record := by
  obtain ⟨σ', log', follows, ran⟩ := h.exec_encode t log seals
  rw [ran]
  refine ⟨⟨?_, ?_⟩, fun why => prevents_of_encoded names iterated type named mixed text, ?_⟩
  · rintro ⟨why, failed⟩
    obtain ⟨cause, -, ⟨w, formless, -⟩ | exceeds⟩ :=
      prevents_of_encoded names iterated type named mixed text failed
    · exact .inl ⟨w, formless⟩
    · exact .inr ⟨cause, exceeds⟩
  · intro prevented
    cases encoded : h.encoded s t σ with
    | error why => exact ⟨why, rfl⟩
    | ok stored =>
      have clear := not_prevents_of_encoded names iterated type named encoded
      rcases prevented with ⟨w, formless⟩ | ⟨cause, exceeds⟩
      · exact (clear _ (.inl ⟨w, formless, rfl⟩)).elim
      · exact (clear cause (.inr exceeds)).elim
  · intro stored σ₁ log₁ same none
    obtain ⟨encoded, rfl, rfl⟩ : h.encoded s t σ = .ok stored ∧ σ' = σ₁ ∧ log' = log₁ := by
      simpa using same
    obtain ⟨salt, sealed_⟩ := exists_isSealed_of_encoded names type encoded
    have flags (n : Name) : p.fields.flagsOf n = (p.fields.get? n).getD p.unknown := by
      rw [FieldPolicies.flagsOf, none]
    intro log
    have decoded := decoded_of_isSealed names (type.follows follows) (t := t)
      (h.binding_agrees t follows.catalog ▸ sealed_) distinct type.distinct texts type.texts
      (fun n hn => ⟨free n hn, type.free n hn⟩) (fun n _ => flags n)
      (isRead_of_encoded names iterated type named mixed encoded)
    obtain ⟨σ₂, log₂, -, ran⟩ := h.exec_decode { t with record := stored } log seals names
    rw [ran, decoded]

/-- The parameters of a record whose body, which is protected, is a list with a byte string in it.
-/
def formlessTransform : Transform :=
  { sampleTransform ⟨0⟩ with record := [("id", .text "a"), ("body", .list [.bytes [1]])] }

theorem isMixed_sample (record : Record)
    (mixed : ∀ v, record.get? "id" = some v ∨ record.get? "body" = some v → v.IsMixed) :
    ∀ f ∈ Sealer.samplePolicies, f.2.isAny = true → ∀ v, record.get? f.1 = some v → v.IsMixed := by
  simp only [Sealer.samplePolicies, List.forall_mem_cons]
  exact ⟨fun _ v held => mixed v (.inl held), fun _ v held => mixed v (.inr held), by simp⟩

theorem protectsFormless_sample :
    ProtectsFormless Sealer.samplePolicies formlessTransform.record (.bytes [1]) :=
  ⟨trivial, ("body", ⟨true, true⟩), by simp [Sealer.samplePolicies], rfl, _, rfl, 1,
    .item (List.mem_singleton.2 rfl) .here⟩

/-- A byte string in a list makes encoding fail where the list is protected; where a byte string is
not protected it comes back. -/
theorem fails_iff_formless_or_exceeds_sample :
    (∃ cause, ((sampleHooks.encode formlessTransform).exec sampleSession {}).1 =
      .error (.mapping .encrypt "object" cause)) ∧
    ∃ stored after log,
      (sampleHooks.encode (sampleTransform ⟨0⟩)).exec sampleSession {} = (.ok stored, after, log) ∧
      sampleHooks.Reads after (sampleTransform ⟨0⟩) stored Sealer.sampleRecord := by
  have named : (sampleHooks.binding sampleSession.catalog (sampleTransform ⟨0⟩)).IsNamed :=
    ⟨⟨some "t", rfl⟩, ⟨some "id", rfl⟩, ⟨none, rfl⟩⟩
  constructor
  · have mixed := isMixed_sample formlessTransform.record (by
      rintro v (held | held) <;> cases held
      · exact Value.isMixed_text "a"
      · exact .list (by simp [Value.IsMixed.bytes]))
    obtain ⟨fails, cause, -⟩ := fails_iff_formless_or_exceeds sampleHooks .sample "*sig*" "*desc*"
      sampleSession formlessTransform { fields := Sealer.samplePolicies } {} Sealer.reserves_sample
      rfl rfl (by decide) protects_writer named
      (by simp [Assoc.Distinct, Assoc.keys, formlessTransform])
      (by simp [Assoc.OfAttributes, Assoc.keys, formlessTransform, Name.IsAttribute])
      (by simp [Assoc.contains, formlessTransform]) mixed
    obtain ⟨why, failed⟩ := fails.2 (.inl ⟨_, protectsFormless_sample⟩)
    obtain ⟨cause, rfl, -⟩ := cause why failed
    exact ⟨cause, failed⟩
  · have mixed := isMixed_sample Sealer.sampleRecord (by
      rintro v (held | held) <;> cases held
      · exact Value.isMixed_text "a"
      · refine .object (by simp [Assoc.Distinct, Assoc.keys]) ?_ ?_
        · simp [Name.isRead_text]
        · simp [Value.IsMixed.null, Value.isMixed_text])
    obtain ⟨stored, after, log, ran⟩ := encode_sample
    obtain ⟨-, -, reads⟩ := fails_iff_formless_or_exceeds sampleHooks .sample "*sig*" "*desc*"
      sampleSession (sampleTransform ⟨0⟩) { fields := Sealer.samplePolicies } {}
      Sealer.reserves_sample rfl rfl (by decide) protects_writer named Sealer.distinct_sample.1
      (by simp [Assoc.OfAttributes, Assoc.keys, sampleTransform, Sealer.sampleRecord,
        Name.IsAttribute])
      (fun n hn => (Sealer.free_sample n hn).1) mixed
    exact ⟨stored, after, log, ran, reads stored after log ran rfl⟩

/-- A sealer with more iterations than the derivation of keys takes. -/
def tireless : Sealer := { Sealer.sample with iterations := twoTo 64 }

/-- Hooks of that sealer. -/
def tirelessHooks : Hooks := ⟨.sealer tireless, ⟨0⟩, .registry ⟨0⟩⟩

/-- With too many iterations, those are why encoding fails, though a protected attribute holds a
byte string. -/
theorem exceeded_of_tireless :
    tireless.masterKey.kindName = "str" ∧ 1 ≤ tireless.iterations ∧
    tireless.Reserves "*sig*" "*desc*" ∧
    tirelessHooks.Protects sampleSession.catalog ⟨0⟩ ["*sig*", "*desc*"]
      { fields := Sealer.samplePolicies } ∧
    ProtectsFormless Sealer.samplePolicies formlessTransform.record (.bytes [1]) ∧
    ((tirelessHooks.encode formlessTransform).exec sampleSession {}).1 =
      .error (.mapping .encrypt "object" (.exceeded .tooLarge)) ∧
    ∀ kind, Failure.exceeded .tooLarge ≠ .unwritable (.kind kind) :=
  ⟨rfl, by decide, ⟨rfl, rfl, by simp⟩, { protects_writer with policy := rfl },
    protectsFormless_sample, rfl, nofun⟩

end Hooks

end RecordSeal
