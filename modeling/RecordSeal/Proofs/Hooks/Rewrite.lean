import RecordSeal.Proofs.Hooks.RoundTrip
import RecordSeal.Proofs.Seal.Opened
import RecordSeal.Proofs.Seal.Reserved

set_option autoImplicit false

/-! # Records read, written back and read again

Reading gives undeclared attributes the flags of unknown ones, writing gives them none. So what was
read under a type that signs unknown attributes is found again after it was written back if the type
declares all of it; an attribute that it does not declare stands unprotected in what is written and
is asked for when it is read (`Hooks.reads_rewritten`). -/

namespace RecordSeal

namespace Sealer

variable {s : Sealer} {signature description : Name} (names : s.Reserves signature description)
  {record stored : Record} {p : ClassPolicy} {context : Context} {salt : List UInt8}
  (h : s.IsSealed signature description p.fields context salt record stored)
  (active : p.doNotTouch = false) (hp : p.fields.Distinct)
  (free : ∀ n ∈ [signature, description], record.contains n = false)

include names h active hp free

/-- What is sealed with the flags that a type declares opens under the reconciled policy of the type
if it declares all attributes. -/
theorem IsSealed.openRecord_of_declared (hr : record.Distinct) (textsr : Assoc.OfAttributes record)
    (texts : Assoc.OfAttributes p.fields) (unsigned : (p.fields.flagsOf signature).sign = false)
    (read : ∀ n v, (p.fields.flagsOf n).encrypt = true → record.get? n = some v → v.IsRead)
    (declared : ∀ a ∈ record.keys, p.fields.contains a = true) :
    s.openRecord stored (p.reconcile stored.keys [signature, description]) context =
      .ok record := by
  have distinct : Assoc.Distinct (p.reconcile stored.keys [signature, description]) := by
    rw [ClassPolicy.reconcile_of_active active]
    exact ClassPolicy.distinct_extend hp
  refine h.openRecord_of_flags names hr hp distinct texts
    (h.forall_keys_reconcile names active free texts textsr) free ?_ ?_ ?_ read
  · rw [ClassPolicy.reconcile_of_active active, ClassPolicy.flagsOf_extend_of_mem (by simp),
      unsigned]
  · rw [ClassPolicy.reconcile_of_active active, ClassPolicy.flagsOf_extend_of_mem (by simp)]
  · intro n hn
    obtain ⟨flags, found⟩ := Option.isSome_iff_exists.1 (declared n hn)
    rw [h.flagsOf_reconcile names active free hn, FieldPolicies.flagsOf, found]
    rfl

/-- If a type signs unknown attributes, then what is sealed with the flags that it declares opens
under its reconciled policy only by a collision once an attribute is undeclared or the signature
itself is signed. -/
theorem IsSealed.collide_of_uncovered (unknown : p.unknown.sign = true)
    (uncovered : (∃ a ∈ record.keys, p.fields.contains a = false) ∨
      (p.fields.flagsOf signature).sign = true) {opened : Record}
    (opens : s.openRecord stored (p.reconcile stored.keys [signature, description]) context =
      .ok opened) :
    ∃ described, stored.get? description = some described ∧
      s.SignedCollide salt described context context (stored.erase signature) stored p.fields
        (p.reconcile stored.keys [signature, description]) := by
  have distinct : Assoc.Distinct (p.reconcile stored.keys [signature, description]) := by
    rw [ClassPolicy.reconcile_of_active active]
    exact ClassPolicy.distinct_extend hp
  have covered {n : Name} (hn : n ∈ record.keys) (undeclared : p.fields.contains n = false) :=
    h.signedValue_of_undeclared names active unknown free hn undeclared
  have kept : FieldPolicies.flagsOf (p.reconcile stored.keys [signature, description]) signature =
      p.fields.flagsOf signature := by
    rw [ClassPolicy.reconcile_of_active active, ClassPolicy.flagsOf_extend_of_mem (by simp)]
  -- The reconciled policy is the declared one and more.
  obtain ⟨more, extended⟩ : ∃ more,
      p.reconcile stored.keys [signature, description] = p.fields ++ more := by
    rw [ClassPolicy.reconcile_of_active active]
    exact ClassPolicy.exists_extend_eq_append _ _ _ _
  rw [extended] at distinct covered kept opens ⊢
  have absent : record.contains signature = false := free signature (by simp)
  rcases uncovered with ⟨a, ha, undeclared⟩ | sign
  · refine h.collide_of_more names distinct absent ?_ (covered ha undeclared) opens
    rw [signedValue, FieldPolicies.flagsOf_of_not_contains undeclared]
    rfl
  · exact h.collide_of_signed names distinct absent (by rw [kept, sign]) opens

end Sealer

namespace Hooks

variable {s : Sealer} {signature description : Name} {h : Hooks} {σ σ₁ σ₂ : Session}
  {t : Transform} {p : ClassPolicy} {r stored : Record} {log log₁ log₂ : Log}

theorem Protects.distinct_reconcile {c : Catalog} {model : ModelId} {reserved : List Name}
    (type : h.Protects c model reserved p) (names names' : List Name) :
    Assoc.Distinct (p.reconcile names names') := by
  rw [ClassPolicy.reconcile_of_active type.active]
  exact ClassPolicy.distinct_extend type.distinct

/-- What hooks of a type that is not exempt decode was opened under its reconciled policy. -/
theorem decode_eq_ok_iff (names : s.Reserves signature description)
    (seals : h.encryptor = .sealer s) (policy : h.policyOf σ.catalog t.model = .ok p)
    (active : p.doNotTouch = false) :
    ((h.decode t).exec σ log).1 = .ok r ↔
      s.openRecord t.record (p.reconcile t.record.keys [signature, description])
        (h.binding σ.catalog t) = .ok r := by
  obtain ⟨_, _, -, ran⟩ := h.exec_decode t log seals names
  rw [ran]
  exact decoded_eq_ok_iff policy active

/-- A record that was read under a type and written back under it: it has no signature, can be
encrypted and decrypted again, and was sealed with the flags that the type declares. -/
structure Rewritten (s : Sealer) (signature description : Name) (p : ClassPolicy)
    (context : Context) (r stored : Record) : Prop where
  distinct : r.Distinct
  texts : Assoc.OfAttributes r
  unsigned : r.contains signature = false
  read : ∀ n v, (p.fields.flagsOf n).encrypt = true → r.get? n = some v → v.IsRead
  sealed_ : ∃ salt, s.IsSealed signature description p.fields context salt r stored

section

variable (names : s.Reserves signature description) (seals : h.encryptor = .sealer s)
  (type : h.Protects σ.catalog t.model [] p) (later : σ.Follows σ₁)
  (wrote : (h.encode { t with record := r }).exec σ₁ log₁ = (.ok stored, σ₂, log₂))

include names seals type later wrote

theorem rewritten_of_encode (distinct : t.record.Distinct) (texts : Assoc.OfAttributes t.record)
    (read : ((h.decode t).exec σ log).1 = .ok r) :
    Rewritten s signature description p (h.binding σ.catalog t) r stored := by
  have opened := (decode_eq_ok_iff names seals type.policy type.active).1 read
  have listed := type.distinct_reconcile t.record.keys [signature, description]
  refine ⟨?_, ?_, ?_, ?_, ?_⟩
  · exact Sealer.distinct_of_openRecord opened listed distinct
  · exact Sealer.ofAttributes_of_openRecord opened listed texts
  · exact Sealer.contains_signature_of_openRecord opened listed names.signature_eq
  · intro n v encrypt
    refine Sealer.isRead_of_openRecord opened listed ?_
    rw [ClassPolicy.reconcile_of_active type.active, ClassPolicy.encrypt_extend encrypt]
  · obtain ⟨_, _, -, ran⟩ := h.exec_encode { t with record := r } log₁ seals
    rw [wrote, Prod.mk.injEq] at ran
    have writer : h.Protects σ₁.catalog ({ t with record := r } : Transform).model [] p :=
      type.follows later
    obtain ⟨salt, sealed_⟩ := exists_isSealed_of_encoded names writer ran.1.symm
    rw [h.binding_agrees _ later.catalog] at sealed_
    exact ⟨salt, sealed_⟩

/-- What was written back is read under the policy that is reconciled with it. -/
theorem decode_rewritten_iff (log : Log) (out : Record) :
    ((h.decode { t with record := stored }).exec σ₂ log).1 = .ok out ↔
      s.openRecord stored (p.reconcile stored.keys [signature, description])
        (h.binding σ.catalog t) = .ok out := by
  obtain ⟨_, _, follows, ran⟩ := h.exec_encode { t with record := r } log₁ seals
  rw [wrote, Prod.mk.injEq, Prod.mk.injEq] at ran
  obtain ⟨-, rfl, -⟩ := ran
  have both := later.trans follows
  have reader : h.Protects σ₂.catalog ({ t with record := stored } : Transform).model [] p :=
    type.follows both
  rw [decode_eq_ok_iff names seals reader.policy reader.active, h.binding_agrees _ both.catalog]
  exact Iff.rfl

end

/-- What was read under a type that signs unknown attributes is written back and read again. It is
found again if the type declares all its attributes, none of them is reserved and the signature is
not signed. An attribute under the name of the description is lost. Otherwise reading fails, unless
different bytes have the same code. In any case the undeclared attributes are written as they are,
and the signature does not cover them. -/
theorem reads_rewritten (names : s.Reserves signature description)
    (seals : h.encryptor = .sealer s) (type : h.Protects σ.catalog t.model [] p)
    (unknown : p.unknown.sign = true) (distinct : t.record.Distinct)
    (texts : Assoc.OfAttributes t.record) (read : ((h.decode t).exec σ log).1 = .ok r)
    (later : σ.Follows σ₁)
    (wrote : (h.encode { t with record := r }).exec σ₁ log₁ = (.ok stored, σ₂, log₂)) :
    ((∀ a ∈ r.keys, p.fields.contains a = true) → r.contains description = false →
      (p.fields.flagsOf signature).sign = false → h.Reads σ₂ t stored r) ∧
    (r.contains description = true → ∀ log again,
      ((h.decode { t with record := stored }).exec σ₂ log).1 = .ok again →
        again.contains description = false) ∧
    (r.contains description = false →
      (∃ a ∈ r.keys, p.fields.contains a = false) ∨ (p.fields.flagsOf signature).sign = true →
      ∀ log again, ((h.decode { t with record := stored }).exec σ₂ log).1 = .ok again →
        ∃ salt described, stored.get? description = some described ∧
          s.SignedCollide salt described (h.binding σ.catalog t) (h.binding σ.catalog t)
            (stored.erase signature) stored p.fields
            (p.reconcile stored.keys [signature, description])) ∧
    (∀ a, p.fields.contains a = false → (∀ n ∈ [signature, description], (n == a) = false) →
      stored.get? a = r.get? a ∧ signedValue stored p.fields a = none) := by
  have rewritten := rewritten_of_encode names seals type later wrote distinct texts read
  have rereads := decode_rewritten_iff names seals type later wrote
  obtain ⟨salt, sealed_⟩ := rewritten.sealed_
  have free (described : r.contains description = false) :
      ∀ n ∈ [signature, description], r.contains n = false := by
    simp [rewritten.unsigned, described]
  refine ⟨?_, ?_, ?_, ?_⟩
  · intro declared undescribed plain log
    refine (rereads log r).2 ?_
    exact sealed_.openRecord_of_declared names type.active type.distinct (free undescribed)
      rewritten.distinct rewritten.texts type.texts plain rewritten.read declared
  · intro _ log again reread
    exact Sealer.contains_description_of_openRecord ((rereads log again).1 reread)
      (type.distinct_reconcile _ _) names.signature_eq names.description_eq
      sealed_.contains_signature
  · intro undescribed uncovered log again reread
    obtain ⟨described, held, collide⟩ := sealed_.collide_of_uncovered names type.active
      type.distinct (free undescribed) unknown uncovered ((rereads log again).1 reread)
    exact ⟨salt, described, held, collide⟩
  · intro a undeclared other
    have none := FieldPolicies.flagsOf_of_not_contains undeclared
    refine ⟨sealed_.get?_of_plain (by rw [none]; rfl) other, ?_⟩
    rw [signedValue, none]
    rfl

/-! ## A sample -/

/-- What was sealed from the sample record is read under the type that does not declare its body. -/
theorem decoded_sample {stored : Record}
    (given : sampleHooks.encoded .sample (sampleTransform ⟨0⟩) sampleSession = .ok stored) :
    (stored.Distinct ∧ Assoc.OfAttributes stored) ∧
    ((sampleHooks.decode { sampleTransform ⟨1⟩ with record := stored }).exec sampleSession {}).1 =
      .ok Sealer.sampleRecord := by
  obtain ⟨salt, sealed_⟩ := exists_isSealed_of_encoded Sealer.reserves_sample protects_writer given
  have keys : stored.keys = ["id", "body", "blob", "*desc*", "*sig*"] :=
    sealed_.keys_eq Sealer.reserves_sample fun n hn => (Sealer.free_sample n hn).1
  constructor
  · constructor
    · simp [Assoc.Distinct, keys]
    · simp [Assoc.OfAttributes, keys, Name.IsAttribute]
  · have decoded := decoded_of_isSealed Sealer.reserves_sample (t := sampleTransform ⟨1⟩)
      protects_reader sealed_ Sealer.distinct_sample.1 Sealer.distinct_sample.2.1
      (by simp [Assoc.OfAttributes, Assoc.keys, sampleTransform, Sealer.sampleRecord,
        Name.IsAttribute]) Sealer.ofAttributes_sample.1
      (fun n hn => ⟨(Sealer.free_sample n hn).1, (Sealer.free_sample n hn).2.1⟩) ?_
      fun n v encrypt found =>
        (Sealer.isJson_sample n v (by rw [Flags.isAny, encrypt]; rfl) found).isRead
    · obtain ⟨_, _, -, ran⟩ := sampleHooks.exec_decode
        { sampleTransform ⟨1⟩ with record := stored } {} rfl Sealer.reserves_sample
      rw [ran]
      exact decoded
    · intro a ha
      simp only [sampleTransform, Sealer.sampleRecord, Assoc.keys, List.map_cons, List.map_nil,
        List.mem_cons, List.not_mem_nil, or_false] at ha
      rcases ha with rfl | rfl | rfl <;>
        simp [Sealer.samplePolicies, readerPolicy, FieldPolicies.flagsOf, Flags.none]

/-- Written back under that type, the sample record is stored with its body in the clear and is read
again only by a collision. -/
theorem reads_rewritten_sample : ∃ first stored after log,
    sampleHooks.encoded .sample (sampleTransform ⟨0⟩) sampleSession = .ok first ∧
    ((sampleHooks.decode { sampleTransform ⟨1⟩ with record := first }).exec sampleSession {}).1 =
      .ok Sealer.sampleRecord ∧
    (sampleHooks.encode { sampleTransform ⟨1⟩ with record := Sealer.sampleRecord }).exec
      sampleSession {} = (.ok stored, after, log) ∧
    stored.get? "body" = Sealer.sampleRecord.get? "body" ∧
    ∀ log again, ((sampleHooks.decode { sampleTransform ⟨1⟩ with record := stored }).exec
      after log).1 = .ok again → ∃ salt described,
        Sealer.sample.SignedCollide salt described Sealer.sampleContext Sealer.sampleContext
          (stored.erase "*sig*") stored readerPolicy.fields
          (readerPolicy.reconcile stored.keys ["*sig*", "*desc*"]) := by
  obtain ⟨first, given⟩ := encoded_sample
  obtain ⟨⟨distinct, texts⟩, read⟩ := decoded_sample given
  obtain ⟨stored, sealed_⟩ : ∃ stored, sampleHooks.encoded .sample
      { sampleTransform ⟨1⟩ with record := Sealer.sampleRecord } sampleSession = .ok stored :=
    ⟨_, rfl⟩
  obtain ⟨after, log, -, wrote⟩ : ∃ σ log, sampleSession.Follows σ ∧
      (sampleHooks.encode { sampleTransform ⟨1⟩ with record := Sealer.sampleRecord }).exec
        sampleSession {} = (sampleHooks.encoded .sample
          { sampleTransform ⟨1⟩ with record := Sealer.sampleRecord } sampleSession, σ, log) :=
    sampleHooks.exec_encode _ {} rfl
  rw [sealed_] at wrote
  have type : sampleHooks.Protects sampleSession.catalog ⟨1⟩ [] readerPolicy :=
    { protects_reader with free := by simp }
  obtain ⟨-, -, collide, plain⟩ :=
    reads_rewritten (t := { sampleTransform ⟨1⟩ with record := first }) Sealer.reserves_sample rfl
      type rfl distinct texts read ⟨.refl _, rfl, rfl⟩ wrote
  refine ⟨first, stored, after, log, given, read, wrote, ?_, ?_⟩
  · exact (plain "body" (by decide) (by decide)).1
  · intro log again reread
    obtain ⟨salt, described, -, collision⟩ := collide (by decide)
      (.inl ⟨"body", by simp [Assoc.keys, Sealer.sampleRecord], by decide⟩) log again reread
    exact ⟨salt, described, collision⟩

end Hooks

end RecordSeal
