import RecordSeal.Proofs.Seal.RoundTrip

set_option autoImplicit false

/-! # Altered records

A record that carries the seal of another one opens only if its signed bytes have the code of the
other's. Equal bytes stand for the same context and alike signed attributes, different ones are a
collision (`alike_or_collision`). -/

namespace RecordSeal.Sealer

open Crypto

variable {s : Sealer} {signature description : Name}

/-- Whether two records belong to one context and have the same signed attributes, up to the order
of fields in their values. -/
structure SignedAlike (context context' : Context) (record record' : Record)
    (policies policies' : FieldPolicies) : Prop where
  context : context = context'
  attributes : ∀ name,
    Option.Rel Value.Alike (signedValue record policies name) (signedValue record' policies' name)

/-- Whether the signed bytes of two records are different ones with the same code under the signing
key that a salt gives. -/
def SignedCollide (s : Sealer) (salt : List UInt8) (description : Value)
    (context context' : Context) (record record' : Record) (policies policies' : FieldPolicies) :
    Prop :=
  ∃ encryption signing payload payload',
    s.deriveKeys salt = .ok (encryption, signing) ∧
    signingPayload s.limits.verifying record policies context description = .ok payload ∧
    signingPayload s.limits.verifying record' policies' context' description = .ok payload' ∧
    payload ≠ payload' ∧ Hmac.mac signing payload = Hmac.mac signing payload'

/-- What a sealed record holds is a text or stood in the record. -/
theorem IsSealed.text_or_plain {policies : FieldPolicies} {context : Context} {salt : List UInt8}
    {record stored : Record}
    (h : s.IsSealed signature description policies context salt record stored) {name : Name}
    {v : Value} (found : stored.get? name = some v) :
    (∃ t, v = .text t) ∨ record.get? name = some v := by
  obtain ⟨now, encryption, signing, encrypted, payload, keys, encrypts, signed, rfl⟩ := h
  rw [Assoc.get?_insert, Assoc.get?_insert] at found
  -- The seal itself is made of texts.
  split at found
  · cases found
    exact .inl ⟨_, rfl⟩
  split at found
  · cases found
    exact .inl ⟨_, rfl⟩
  cases encrypt : (policies.flagsOf name).encrypt with
  | true =>
    obtain ⟨f, -, u, -, -, nonce, label, text, -, -, -, rfl⟩ := encrypts.cipher encrypt found
    exact .inl ⟨_, rfl⟩
  | false =>
    right
    rw [← encrypts.plain name encrypt, found]

/-- The signed values of a sealed record are those of the record or texts. -/
theorem IsSealed.isJson_signedValue {policies : FieldPolicies} {context : Context}
    {salt : List UInt8} {record stored : Record}
    (h : s.IsSealed signature description policies context salt record stored)
    (json : ∀ name v, signedValue record policies name = some v → v.IsJson) (name : Name)
    (v : Value) (found : signedValue stored policies name = some v) : v.IsJson := by
  rw [signedValue] at found
  split at found
  · next sign =>
    rcases h.text_or_plain found with ⟨t, rfl⟩ | plain
    · exact .text t
    · exact json name v (by rw [signedValue, if_pos sign, plain])
  · cases found

/-- A sealed record holds the salt and the code of its own signed bytes. -/
theorem IsSealed.seal (names : s.Reserves signature description) {record stored : Record}
    {policies : FieldPolicies} {context : Context} {salt : List UInt8}
    (h : s.IsSealed signature description policies context salt record stored)
    (hp : policies.Distinct) (unsigned : (policies.flagsOf signature).sign = false) :
    ∃ now encryption signing payload, s.deriveKeys salt = .ok (encryption, signing) ∧
      stored.get? description = some (s.describe now salt) ∧
      stored.get? signature = some (.text (Base64.encodeText (Hmac.mac signing payload))) ∧
      signingPayload s.limits.verifying stored policies context (s.describe now salt) =
        .ok payload := by
  obtain ⟨now, encryption, signing, encrypted, payload, keys, -, signed, form⟩ := h
  refine ⟨now, encryption, signing, payload, keys, ?_, ?_, ?_⟩
  · rw [form, Assoc.get?_insert, if_neg (by simp [names.different]), Assoc.get?_insert,
      if_pos BEq.rfl]
  · rw [form, Assoc.get?_insert, if_pos BEq.rfl]
  · -- The signature itself is not signed, so the stored record has the bytes that were signed.
    have part : signedPart stored policies =
        signedPart (encrypted.insert description (s.describe now salt)) policies := by
      refine signedPart_congr hp ?_
      intro name sign
      have other : ¬ (signature == name) = true := by
        intro same
        rw [← policies.flagsOf_congr same, unsigned] at sign
        cases sign
      rw [form, Assoc.get?_insert, if_neg other]
    refine signingPayload_of_within s.limits.signing_within ?_
    rw [← signed, signingPayload, signingPayload, signingObject, signingObject, part]

/-- A record with the seal of a sealed one opens only if the signed bytes of both have one code. -/
theorem IsSealed.alike_or_collide (names : s.Reserves signature description)
    {record stored stored' opened : Record} {policies policies' : FieldPolicies}
    {context context' : Context} {salt : List UInt8}
    (h : s.IsSealed signature description policies context salt record stored)
    (hp : policies.Distinct) (hp' : policies'.Distinct)
    (texts : ∀ k ∈ policies.keys, ∃ t, k = .text t)
    (texts' : ∀ k ∈ policies'.keys, ∃ t, k = .text t)
    (unsigned : (policies.flagsOf signature).sign = false)
    (json : ∀ name v, signedValue stored policies name = some v → v.IsJson)
    (json' : ∀ name v, signedValue stored' policies' name = some v → v.IsJson)
    (named : context.IsNamed) (named' : context'.IsNamed)
    (sameSignature : stored'.get? signature = stored.get? signature)
    (sameDescription : stored'.get? description = stored.get? description)
    (opens : s.openRecord stored' policies' context' = .ok opened) :
    SignedAlike context context' stored stored' policies policies' ∨
      ∃ described, stored.get? description = some described ∧
        s.SignedCollide salt described context context' stored stored' policies policies' := by
  obtain ⟨now, encryption, signing, payload, keys, described, coded, own⟩ :=
    h.seal names hp unsigned
  rw [openRecord_of_seal names (sameSignature.trans coded) (sameDescription.trans described) keys]
    at opens
  cases payload' : signingPayload s.limits.verifying stored' policies' context'
      (s.describe now salt) with
  | error why =>
    rw [payload'] at opens
    cases opens
  | ok bytes =>
    rw [payload'] at opens
    by_cases same : payload = bytes
    · left
      subst same
      obtain ⟨one, -, alike⟩ := signed_of_signingPayload_eq hp hp' texts texts' json json' named
        named' (.text _) (.text _) own payload'
      exact ⟨one, alike⟩
    · right
      refine ⟨_, described, encryption, signing, payload, bytes, keys, own, payload', same, ?_⟩
      by_contra differ
      simp [Ne.symm differ] at opens

/-- If a record opens that carries the seal of a sealed one, then both belong to one context and
have alike signed attributes, or their signed bytes are different ones with the same code. -/
theorem alike_or_collision (names : s.Reserves signature description)
    {record stored stored' opened : Record} {policies policies' : FieldPolicies}
    {context context' : Context} (hp : policies.Distinct) (hp' : policies'.Distinct)
    (texts : ∀ k ∈ policies.keys, ∃ t, k = .text t)
    (texts' : ∀ k ∈ policies'.keys, ∃ t, k = .text t)
    (unsigned : (policies.flagsOf signature).sign = false)
    (json : ∀ name v, signedValue record policies name = some v → v.IsJson)
    (json' : ∀ name v, signedValue stored' policies' name = some v → v.IsJson)
    (named : context.IsNamed) (named' : context'.IsNamed) {now : Timestamp} {e e' : Entropy}
    (h : s.sealRecord now record policies context e = (.ok stored, e'))
    (sameSignature : stored'.get? signature = stored.get? signature)
    (sameDescription : stored'.get? description = stored.get? description)
    (opens : s.openRecord stored' policies' context' = .ok opened) :
    SignedAlike context context' stored stored' policies policies' ∨
      ∃ described, stored.get? description = some described ∧
        s.SignedCollide (e.next saltSize) described context context' stored stored' policies
          policies' := by
  have sealed_ := isSealed_of_sealRecord names hp h
  exact sealed_.alike_or_collide names hp hp' texts texts' unsigned
    (sealed_.isJson_signedValue json) json' named named' sameSignature sameDescription
    opens

theorem isJson_signedValue_sample (name : Name) (v : Value)
    (found : signedValue sampleRecord samplePolicies name = some v) : v.IsJson := by
  rw [signedValue] at found
  split at found
  · next sign => exact isJson_sample name v (by rw [Flags.isAny, sign, Bool.or_true]) found
  · cases found

/-- The sealed sample record opens under more policies, which sign nothing else. -/
theorem alike_or_collision_sample : ∃ stored after opened,
    sample.sealRecord ⟨2024, 1, 1, 0, 0, 0, 0⟩ sampleRecord samplePolicies sampleContext
      { stream := fun _ => 0 } = (.ok stored, after) ∧
    sample.openRecord stored morePolicies sampleContext = .ok opened ∧
    (SignedAlike sampleContext sampleContext stored stored samplePolicies morePolicies ∨
      ∃ described, stored.get? "*desc*" = some described ∧
        sample.SignedCollide (Entropy.next { stream := fun _ => 0 } saltSize) described
          sampleContext sampleContext stored stored samplePolicies morePolicies) := by
  obtain ⟨stored, after, h⟩ := sealRecord_sample
  have sealed_ := isSealed_of_sealRecord reserves_sample distinct_sample.2.1 h
  have opens := sealed_.openRecord_eq reserves_sample distinct_sample.1 distinct_sample.2.1
    distinct_sample.2.2 ofAttributes_sample.1 ofAttributes_sample.2 free_sample flagsOf_sample
    (fun n v encrypt => isJson_sample n v (by rw [Flags.isAny, encrypt]; rfl))
  have json := sealed_.isJson_signedValue isJson_signedValue_sample
  have same (name : Name) :
      signedValue stored samplePolicies name = signedValue stored morePolicies name := by
    obtain ⟨now, encryption, signing, encrypted, payload, -, encrypts, -, rfl⟩ := sealed_
    obtain ⟨⟨-, hs, hs'⟩, -, hd, hd'⟩ :=
      And.intro (free_sample "*sig*" (by simp)) (free_sample "*desc*" (by simp))
    rw [← signedValue_sealed hs hd hs hd fun _ _ => rfl]
    refine signedValue_sealed hs hd hs' hd' ?_ _ _ name
    intro n hn
    exact flagsOf_eq_of_contains flagsOf_sample (Assoc.contains_congr_keys encrypts.keys n ▸ hn)
  refine ⟨stored, after, sampleRecord, h, opens, ?_⟩
  refine alike_or_collision reserves_sample distinct_sample.2.1 distinct_sample.2.2 ?_ ?_ ?_
    isJson_signedValue_sample (fun name v found => json name v ((same name).trans found)) ?_ ?_ h
    rfl rfl opens
  · simp [samplePolicies, Assoc.keys]
  · simp [morePolicies, Assoc.keys]
  · simp [samplePolicies, FieldPolicies.flagsOf, Flags.none]
  · exact ⟨⟨some "t", rfl⟩, ⟨some "id", rfl⟩, ⟨none, rfl⟩⟩
  · exact ⟨⟨some "t", rfl⟩, ⟨some "id", rfl⟩, ⟨none, rfl⟩⟩

end RecordSeal.Sealer
