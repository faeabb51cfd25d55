import RecordSeal.Proofs.Json.Reread
import RecordSeal.Proofs.Seal.Dependence
import RecordSeal.Proofs.Seal.Length
import RecordSeal.Proofs.Seal.Tamper

set_option autoImplicit false

/-! # Reserved attributes in records and policies

The description and the signature are written over what a record holds under their names, and
opening drops both names. So a record that has an attribute under one of them opens without it, and
a policy that signs the signature asks for a code that depends on itself. With one name for both the
signature is found where the description is looked for, and no base64 text describes anything.
`Sealer.openRecord_sealed` says what becomes of a sealed record in all these cases. -/

namespace RecordSeal

open Crypto

/-! ## One name for both -/

theorem Base64.digit_not_mem_delimiters :
    ∀ n < 64, Base64.digit n ∉ Json.delimiters := by
  decide

theorem Base64.head_not_mem_delimiters (bs : List UInt8) :
    ∀ c ∈ (Base64.encode bs).head?, c ∉ Json.delimiters := by
  have first (a : UInt8) : Base64.digit (a.toNat / 4) ∉ Json.delimiters := by
    have := a.toNat_lt
    exact Base64.digit_not_mem_delimiters _ (by omega)
  fun_cases Base64.encode bs <;> simp [first]

theorem MaterialDescription.exists_error_of_isAtom {v : Value} (h : Json.IsAtom v) :
    ∃ why, MaterialDescription.ofValue v = .error why := by
  cases v with
  | null | bool _ | int _ | float _ => exact ⟨_, rfl⟩
  | _ => exact h.elim

namespace Sealer

/-- A text that holds a signature does not describe any key material. -/
theorem exists_error_of_readSeal (lim : Json.Limits) (bytes : List UInt8) (given : Value) :
    ∃ why, readSeal lim (.text (Base64.encodeText bytes)) given = .error why := by
  rw [readSeal]
  cases read : (Value.text (Base64.encodeText bytes)).readJson lim with
  | error why => exact ⟨why, rfl⟩
  | ok v =>
    have atom : Json.IsAtom v := by
      rw [Value.readJson, Base64.encodeText, String.toList_ofList, mapError_eq_ok_iff] at read
      exact Json.isAtom_of_readUnmarked (Base64.head_not_mem_delimiters bytes) read
    obtain ⟨why, refused⟩ := MaterialDescription.exists_error_of_isAtom atom
    refine ⟨why, ?_⟩
    simp [refused, bind, Except.bind]

section

variable {s : Sealer} {signature description : Name} {record stored : Record}
  {policies : FieldPolicies} {context : Context} {salt : List UInt8}
  (h : s.IsSealed signature description policies context salt record stored)

include h

theorem IsSealed.contains_signature : stored.contains signature = true := by
  obtain ⟨now, encryption, signing, encrypted, payload, -, -, -, rfl⟩ := h
  rw [Assoc.contains_insert, BEq.rfl, Bool.true_or]

/-- What is sealed with one name for signature and description never opens. -/
theorem IsSealed.not_opens_of_same (hs : s.signatureName.toName = .ok signature)
    (hd : s.descriptionName.toName = .ok description) (same : (signature == description) = true)
    (policies' : FieldPolicies) (context' : Context) :
    ∃ why, s.openRecord stored policies' context' = .error why := by
  obtain ⟨now, encryption, signing, encrypted, payload, -, -, -, rfl⟩ := h
  generalize Hmac.mac signing payload = code
  have signed : ((encrypted.insert description (s.describe now salt)).insert signature
      (.text (Base64.encodeText code))).get? signature = some (.text (Base64.encodeText code)) := by
    rw [Assoc.get?_insert, if_pos BEq.rfl]
  -- The signature was written last, so it stands where the description should.
  have described := signed
  rw [Assoc.get?_congr _ same] at described
  obtain ⟨why, refused⟩ :=
    exists_error_of_readSeal s.limits.describing code (.text (Base64.encodeText code))
  refine ⟨asMalformed why, ?_⟩
  rw [openRecord_of_signed hs signed, hd]
  simp only [Except.bind, described]
  rw [openSigned, refused]
  rfl

end

/-! ## Two names -/

/-- What was encrypted is decrypted, also after attributes were removed. -/
theorem decryptAttributes_erase {l m : Json.Limits} (within : l.Within m) {key : List UInt8}
    (hk : key.length = 32) {p : FieldPolicies} (hp : p.Distinct) {record out : Record}
    (distinct : record.Distinct) (h : Encrypts l key p record out)
    (read : ∀ n v, (p.flagsOf n).encrypt = true → record.get? n = some v → v.IsRead)
    (names : Name × Name) :
    decryptAttributes m key p ((out.erase names.1).erase names.2) =
      .ok ((record.erase names.1).erase names.2) := by
  refine decryptAttributes_of_decrypts hp distinct.erase.erase ⟨?_, ?_, ?_⟩
  · simp [Assoc.keys_erase, h.keys]
  · intro f hf encrypt v w found found'
    rw [get?_erase_erase] at found found'
    split at found
    · cases found
    · next free =>
      rw [if_neg free] at found'
      have flag : (p.flagsOf f.1).encrypt = true := by
        rw [FieldPolicies.flagsOf_of_mem hp hf, encrypt]
      obtain ⟨w', held, cipher⟩ := h.ciphers f hf encrypt v found
      obtain rfl : w' = w := Option.some.inj (held.symm.trans found')
      exact cipher.decryptValue within hk (read f.1 v flag found)
  · intro n plain
    rw [get?_erase_erase, get?_erase_erase, h.plain n plain]

theorem erase_erase_eq_self_iff (record : Record) (names : Name × Name) :
    (record.erase names.1).erase names.2 = record ↔
      record.contains names.1 = false ∧ record.contains names.2 = false := by
  constructor
  · intro same
    have gone (n : Name) (h : (names.1 == n || names.2 == n) = true) :
        record.contains n = false := by
      rw [← same, Assoc.contains, get?_erase_erase, if_pos h]
      rfl
    exact ⟨gone _ (by simp), gone _ (by simp)⟩
  · rintro ⟨first, second⟩
    rw [Assoc.erase_of_not_contains first, Assoc.erase_of_not_contains second]

section

variable {s : Sealer} {signature description : Name} (names : s.Reserves signature description)
  {record stored opened : Record} {policies : FieldPolicies} {context : Context}
  {salt : List UInt8}
  (h : s.IsSealed signature description policies context salt record stored)

include names h

section

variable (distinct : record.Distinct) (hp : policies.Distinct)
  (read : ∀ n v, (policies.flagsOf n).encrypt = true → record.get? n = some v → v.IsRead)

include distinct hp read

/-- Under the policies that it was sealed with, a record opens to what it was sealed from without
the reserved attributes, or it does not open. -/
theorem IsSealed.eq_erase_of_opens (opens : s.openRecord stored policies context = .ok opened) :
    opened = (record.erase signature).erase description := by
  obtain ⟨now, encryption, signing, encrypted, payload, keys, encrypts, -, rfl⟩ := h
  have decrypted := decryptAttributes_erase s.limits.encrypting_within (length_of_deriveKeys keys)
    hp distinct encrypts read (signature, description)
  rw [openRecord_of_seal names (by rw [Assoc.get?_insert, if_pos BEq.rfl])
    (by rw [Assoc.get?_insert, if_neg (by simp [names.different]), Assoc.get?_insert,
      if_pos BEq.rfl]) keys, erase_seal, decrypted] at opens
  split at opens
  · cases opens
  · split at opens
    · cases opens
    · exact (Except.ok.inj opens).symm

theorem IsSealed.openRecord_eq_erase (unsigned : (policies.flagsOf signature).sign = false) :
    s.openRecord stored policies context = .ok ((record.erase signature).erase description) := by
  have verified : ∃ out, s.openRecord stored policies context = .ok out := by
    obtain ⟨now, encryption, signing, payload, keys, described, coded, own⟩ :=
      h.seal names hp unsigned
    obtain ⟨_, _, _, encrypted, _, keys', encrypts, -, rfl⟩ := h
    cases keys.symm.trans keys'
    have decrypted := decryptAttributes_erase s.limits.encrypting_within
      (length_of_deriveKeys keys) hp distinct encrypts read (signature, description)
    rw [openRecord_of_seal names coded described keys, own, erase_seal, decrypted]
    simp only [ne_eq, not_true, if_false]
    exact ⟨_, rfl⟩
  obtain ⟨out, opens⟩ := verified
  rw [opens, h.eq_erase_of_opens names distinct hp read opens]

end

/-- If a record opens under its own policies and more, which sign an attribute that was not signed,
then the bytes that were signed have the code of longer ones. -/
theorem IsSealed.collide_of_more {more : FieldPolicies} (hp : Assoc.Distinct (policies ++ more))
    (absent : record.contains signature = false) {n : Name}
    (unsigned : signedValue (stored.erase signature) policies n = none)
    (covered : (signedValue stored (policies ++ more) n).isSome = true)
    (opens : s.openRecord stored (policies ++ more) context = .ok opened) :
    ∃ described, stored.get? description = some described ∧
      s.SignedCollide salt described context context (stored.erase signature) stored policies
        (policies ++ more) := by
  have own : policies.Distinct :=
    List.Pairwise.sublist ((List.sublist_append_left policies more).map Prod.fst) hp
  have differ :
      signedPart (stored.erase signature) policies ≠ signedPart stored (policies ++ more) := by
    intro same
    rw [← get?_signedPart stored hp, ← same, get?_signedPart _ own, unsigned] at covered
    cases covered
  obtain ⟨now, encryption, signing, encrypted, payload, keys, encrypts, signed, form⟩ := h
  have lacks : (encrypted.insert description (s.describe now salt)).contains signature = false := by
    rw [Assoc.contains_insert, BEq.comm, names.different, Bool.false_or,
      Assoc.contains_congr_keys encrypts.keys, absent]
  -- Without its signature the stored record is the one whose bytes were signed.
  have before : stored.erase signature = encrypted.insert description (s.describe now salt) := by
    rw [form, Assoc.erase_insert, Assoc.erase_of_not_contains lacks]
  have described : stored.get? description = some (s.describe now salt) := by
    rw [form, Assoc.get?_insert, if_neg (by simp [names.different]), Assoc.get?_insert,
      if_pos BEq.rfl]
  have coded :
      stored.get? signature = some (.text (Base64.encodeText (Hmac.mac signing payload))) := by
    rw [form, Assoc.get?_insert, if_pos BEq.rfl]
  rw [← before] at signed
  have signed := signingPayload_of_within s.limits.signing_within signed
  have sub : (signedPart (stored.erase signature) policies).Sublist
      (signedPart stored (policies ++ more)) := by
    refine signedPart_sublist more ?_
    intro e _ _ v found
    rw [Assoc.get?_erase] at found
    split at found
    · cases found
    · exact found
  rw [openRecord_of_seal names coded described keys] at opens
  cases signed' : signingPayload s.limits.verifying stored (policies ++ more) context
      (s.describe now salt) with
  | error why =>
    rw [signed'] at opens
    cases opens
  | ok payload' =>
    rw [signed'] at opens
    refine ⟨_, described, encryption, signing, payload, payload', keys, signed, signed', ?_, ?_⟩
    · exact signingPayload_ne_of_sublist sub differ signed signed'
    · by_contra unequal
      simp [Ne.symm unequal] at opens

/-- If policies sign the signature of a record that had none, then it opens only if its signed bytes
have the code of longer ones. -/
theorem IsSealed.collide_of_signed {more : FieldPolicies}
    (hp : Assoc.Distinct (policies ++ more)) (absent : record.contains signature = false)
    (sign : (FieldPolicies.flagsOf (policies ++ more) signature).sign = true)
    (opens : s.openRecord stored (policies ++ more) context = .ok opened) :
    ∃ described, stored.get? description = some described ∧
      s.SignedCollide salt described context context (stored.erase signature) stored policies
        (policies ++ more) := by
  have unsigned : signedValue (stored.erase signature) policies signature = none := by
    rw [signedValue, Assoc.get?_erase, if_pos BEq.rfl, ite_self]
  have covered : (signedValue stored (policies ++ more) signature).isSome = true := by
    rw [signedValue, if_pos sign, ← Assoc.contains, h.contains_signature]
  exact h.collide_of_more names hp absent unsigned covered opens

end

/-- What becomes of a record that is sealed and opened again under the same policies, whatever
reserved names it and the policies hold. With one name for signature and description it does not
open, under any policies. With two names, what it opens to is the record without its reserved
attributes, and so not the record itself if it has some. It does open unless the policies sign the
signature; a record without a signature then opens only if other bytes have the same code. -/
theorem openRecord_sealed (s : Sealer) {record stored : Record} {policies : FieldPolicies}
    {context : Context} (distinct : record.Distinct) (hp : policies.Distinct)
    (read : ∀ n v, (policies.flagsOf n).encrypt = true → record.get? n = some v → v.IsRead)
    {now : Timestamp} {e e' : Entropy}
    (made : s.sealRecord now record policies context e = (.ok stored, e')) :
    ∃ signature description, s.signatureName.toName = .ok signature ∧
      s.descriptionName.toName = .ok description ∧
      ((signature == description) = true →
        ∀ policies' context', ∃ why, s.openRecord stored policies' context' = .error why) ∧
      ((signature == description) = false →
        (∀ opened, s.openRecord stored policies context = .ok opened →
          opened = (record.erase signature).erase description ∧
          (opened = record ↔
            record.contains signature = false ∧ record.contains description = false)) ∧
        ((policies.flagsOf signature).sign = false →
          s.openRecord stored policies context =
            .ok ((record.erase signature).erase description)) ∧
        ((policies.flagsOf signature).sign = true → record.contains signature = false →
          ∀ opened, s.openRecord stored policies context = .ok opened →
            ∃ described, stored.get? description = some described ∧
              s.SignedCollide (e.next saltSize) described context context (stored.erase signature)
                stored policies policies)) := by
  obtain ⟨signature, description, hs, hd, sealed_⟩ := exists_isSealed_of_sealRecord hp made
  refine ⟨signature, description, hs, hd, ?_, ?_⟩
  · intro same
    exact sealed_.not_opens_of_same hs hd same
  · intro different
    have names : s.Reserves signature description := ⟨hs, hd, different⟩
    refine ⟨?_, ?_, ?_⟩
    · intro opened opens
      obtain rfl := sealed_.eq_erase_of_opens names distinct hp read opens
      exact ⟨rfl, erase_erase_eq_self_iff record (signature, description)⟩
    · exact sealed_.openRecord_eq_erase names distinct hp read
    · intro sign absent opened opens
      rw [← List.append_nil policies] at hp sign opens
      have collide := sealed_.collide_of_signed names hp absent sign opens
      rwa [List.append_nil] at collide

/-- A record with an attribute under the name of the description. -/
def reservedRecord : Record := [("id", .text "a"), ("*desc*", .text "mine")]

/-- The record opens without the attribute. -/
theorem openRecord_sealed_sample : ∃ stored after,
    sample.sealRecord ⟨2024, 1, 1, 0, 0, 0, 0⟩ reservedRecord samplePolicies sampleContext
      { stream := fun _ => 0 } = (.ok stored, after) ∧
    sample.openRecord stored samplePolicies sampleContext = .ok [("id", .text "a")] := by
  obtain ⟨stored, after, made⟩ : ∃ stored after,
      sample.sealRecord ⟨2024, 1, 1, 0, 0, 0, 0⟩ reservedRecord samplePolicies sampleContext
        { stream := fun _ => 0 } = (.ok stored, after) := ⟨_, _, rfl⟩
  have texts (n : Name) (v : Value) (found : reservedRecord.get? n = some v) : v.IsRead := by
    obtain ⟨l, -, hl⟩ := Assoc.mem_of_get? found
    simp only [reservedRecord, List.mem_cons, Prod.mk.injEq, List.not_mem_nil, or_false] at hl
    rcases hl with ⟨-, rfl⟩ | ⟨-, rfl⟩ <;> exact (Value.IsJson.text _).isRead
  obtain ⟨_, _, hs, hd, -, two⟩ := openRecord_sealed sample
    (by simp [Assoc.Distinct, Assoc.keys, reservedRecord]) distinct_sample.2.1
    (fun n v _ found => texts n v found) made
  cases hs
  cases hd
  obtain ⟨-, opens, -⟩ := two (by decide)
  exact ⟨stored, after, made, opens (by decide)⟩

end Sealer

end RecordSeal
