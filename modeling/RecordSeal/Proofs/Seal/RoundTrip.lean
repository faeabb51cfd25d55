import RecordSeal.Proofs.Seal.Description
import RecordSeal.Proofs.Seal.Payload

set_option autoImplicit false

/-! # Sealed records open again

Encrypting keeps the attributes in their places and changes only the flagged ones (`Encrypts`);
decrypting undoes it whatever the order of the policies (`decryptAttributes_of_decrypts`).
`Sealer.IsSealed` says what a sealed record consists of. With the seal read back and the signed
bytes unchanged, such a record opens to the one that was sealed (`IsSealed.openRecord_eq`). -/

namespace RecordSeal

open Crypto

/-! ## Encrypted attributes -/

/-- Whether an attribute may hold `w` as the encrypted form of `v`. -/
def IsCipher (lim : Json.Limits) (key : List UInt8) (name : Name) (v w : Value) : Prop :=
  ∃ nonce label json, nonce.length = nonceSize ∧ (Value.ofName name).encoded = .ok label ∧
    v.json lim Json.spaced = .ok json ∧ w = .text (encryptText key nonce label json)

theorem IsCipher.decryptValue {l m : Json.Limits} (within : l.Within m) {key : List UInt8}
    (hk : key.length = 32) {name : Name} {v w : Value} (hv : v.IsRead)
    (h : IsCipher l key name v w) : decryptValue m key name w = .ok v := by
  obtain ⟨nonce, label, json, hn, named, written, rfl⟩ := h
  exact decryptValue_encryptText within hk hn named hv written

/-- The attributes stand in their places, each flagged one in an encrypted form and the others as
they are. -/
structure Encrypts (lim : Json.Limits) (key : List UInt8) (p : FieldPolicies)
    (record out : Record) : Prop where
  keys : out.keys = record.keys
  ciphers : ∀ f ∈ p, f.2.encrypt = true → ∀ v, record.get? f.1 = some v →
    ∃ w, out.get? f.1 = some w ∧ IsCipher lim key f.1 v w
  plain : ∀ n, (p.flagsOf n).encrypt = false → out.get? n = record.get? n

variable {lim : Json.Limits}

@[simp] theorem Entropy.length_next (e : Entropy) (n : Nat) : (e.next n).length = n := by
  simp [Entropy.next]

theorem FieldPolicies.exists_of_encrypt {p : FieldPolicies} {name : Name}
    (h : (p.flagsOf name).encrypt = true) :
    ∃ e ∈ p, (e.1 == name) = true ∧ e.2.encrypt = true := by
  rw [flagsOf] at h
  cases found : Assoc.get? p name with
  | none => simp [found, Flags.none] at h
  | some flags =>
    obtain ⟨l, beq, hl⟩ := Assoc.mem_of_get? found
    exact ⟨(l, flags), hl, beq, by simpa [found] using h⟩

theorem FieldPolicies.encrypt_tail {e : Name × Flags} {p : FieldPolicies}
    (h : Assoc.Distinct (e :: p)) {n : Name} (plain : (flagsOf (e :: p) n).encrypt = false) :
    (p.flagsOf n).encrypt = false := by
  rw [flagsOf_cons] at plain
  split at plain
  · next same =>
    rw [← p.flagsOf_congr same, flagsOf_of_not_contains h.head_not_contains]
    rfl
  · exact plain

/-- What stands under a flagged name is an encrypted form of what stood there. -/
theorem Encrypts.cipher {key : List UInt8} {p : FieldPolicies} {record out : Record}
    (h : Encrypts lim key p record out) {name : Name} (encrypt : (p.flagsOf name).encrypt = true)
    {w : Value} (found : out.get? name = some w) :
    ∃ f ∈ p.keys, ∃ v, (f == name) = true ∧ record.get? name = some v ∧ IsCipher lim key f v w := by
  obtain ⟨f, hf, beq, flag⟩ := FieldPolicies.exists_of_encrypt encrypt
  have contained : record.contains name = true := by
    rw [← Assoc.contains_congr_keys h.keys]
    simp [Assoc.contains, found]
  obtain ⟨v, hv⟩ := Option.isSome_iff_exists.1 contained
  obtain ⟨w', found', cipher⟩ := h.ciphers f hf flag v (by rw [Assoc.get?_congr record beq, hv])
  rw [Assoc.get?_congr out beq, found] at found'
  exact ⟨f.1, List.mem_map_of_mem hf, v, beq, hv, Option.some.inj found' ▸ cipher⟩

/-- A policy that finds nothing to encrypt is passed over. -/
theorem Encrypts.skip {key : List UInt8} {f : Name × Flags} {p : FieldPolicies}
    (hp : Assoc.Distinct (f :: p)) {record out : Record} (h : Encrypts lim key p record out)
    (none : f.2.encrypt = true → record.get? f.1 = none) :
    Encrypts lim key (f :: p) record out := by
  refine ⟨h.keys, List.forall_mem_cons.2 ⟨?_, h.ciphers⟩, ?_⟩
  · intro encrypt v found
    rw [none encrypt] at found
    cases found
  · intro n hn
    exact h.plain n (FieldPolicies.encrypt_tail hp hn)

/-- A policy that encrypts puts the encrypted form where the value was; the later policies leave it
there, since they are for other names. -/
theorem Encrypts.step {key : List UInt8} {name : Name} {flags : Flags} {p : FieldPolicies}
    (hp : Assoc.Distinct ((name, flags) :: p)) {record out : Record} {v w : Value}
    (h : Encrypts lim key p (record.insert name w) out) (encrypt : flags.encrypt = true)
    (found : record.get? name = some v) (cipher : IsCipher lim key name v w) :
    Encrypts lim key ((name, flags) :: p) record out := by
  have contained : record.contains name = true := by simp [Assoc.contains, found]
  have absent : (FieldPolicies.flagsOf p name).encrypt = false := by
    rw [FieldPolicies.flagsOf_of_not_contains hp.head_not_contains]
    rfl
  refine ⟨h.keys.trans (Assoc.keys_insert_of_contains contained _),
    List.forall_mem_cons.2 ⟨?_, ?_⟩, ?_⟩
  · intro _ u found'
    obtain rfl : v = u := Option.some.inj (found.symm.trans found')
    refine ⟨w, ?_, cipher⟩
    rw [h.plain name absent, Assoc.get?_insert, if_pos BEq.rfl]
  · intro f hf encrypt' u found'
    have other : (name == f.1) = false := hp.head (List.mem_map_of_mem hf)
    refine h.ciphers f hf encrypt' u ?_
    rw [Assoc.get?_insert, if_neg (by simp [other]), found']
  · intro n hn
    have other : ¬ (name == n) = true := by
      intro same
      rw [FieldPolicies.flagsOf_cons, if_pos same, encrypt] at hn
      cases hn
    rw [h.plain n (FieldPolicies.encrypt_tail hp hn), Assoc.get?_insert, if_neg other]

/-- Whether a record stands in another one in encrypted form: under the flagged names stand values
that decrypt to those of the record, under the others those values themselves. -/
structure Decrypts (lim : Json.Limits) (key : List UInt8) (p : FieldPolicies)
    (original record : Record) : Prop where
  keys : record.keys = original.keys
  ciphers : ∀ f ∈ p, f.2.encrypt = true → ∀ v w, original.get? f.1 = some v →
    record.get? f.1 = some w → decryptValue lim key f.1 w = .ok v
  plain : ∀ n, (p.flagsOf n).encrypt = false → record.get? n = original.get? n

/-- A policy that finds nothing to decrypt may be dropped. -/
theorem Decrypts.skip {key : List UInt8} {name : Name} {flags : Flags} {p : FieldPolicies}
    {original record : Record} (h : Decrypts lim key ((name, flags) :: p) original record)
    (none : flags.encrypt = true → record.get? name = none) :
    Decrypts lim key p original record := by
  refine ⟨h.keys, fun f hf => h.ciphers f (List.mem_cons_of_mem _ hf), ?_⟩
  intro n hn
  by_cases same : (name == n) = true
  · by_cases encrypt : flags.encrypt = true
    · have absent : original.contains name = false := by
        rw [← Assoc.contains_congr_keys h.keys name, Assoc.contains, none encrypt]
        rfl
      rw [← Assoc.get?_congr record same, ← Assoc.get?_congr original same, none encrypt,
        Assoc.get?_of_not_contains absent]
    · refine h.plain n ?_
      rw [FieldPolicies.flagsOf_cons, if_pos same]
      exact Bool.eq_false_of_not_eq_true encrypt
  · refine h.plain n ?_
    rwa [FieldPolicies.flagsOf_cons, if_neg same]

/-- Once the value under a name is decrypted, the policy for the name may be dropped. -/
theorem Decrypts.step {key : List UInt8} {name : Name} {flags : Flags} {p : FieldPolicies}
    (hp : Assoc.Distinct ((name, flags) :: p)) {original record : Record}
    (h : Decrypts lim key ((name, flags) :: p) original record) {v w : Value}
    (found : original.get? name = some v) (held : record.get? name = some w) :
    Decrypts lim key p original (record.insert name v) := by
  refine ⟨?_, ?_, ?_⟩
  · rw [Assoc.keys_insert_of_contains, h.keys]
    simp [Assoc.contains, held]
  · intro f hf encrypt u w' founds founds'
    have other : (name == f.1) = false := hp.head (List.mem_map_of_mem hf)
    refine h.ciphers f (List.mem_cons_of_mem _ hf) encrypt u w' founds ?_
    rwa [Assoc.get?_insert, if_neg (by simp [other])] at founds'
  · intro n hn
    rw [Assoc.get?_insert]
    by_cases same : (name == n) = true
    · rw [if_pos same, ← Assoc.get?_congr original same, found]
    · rw [if_neg same]
      refine h.plain n ?_
      rwa [FieldPolicies.flagsOf_cons, if_neg same]

namespace Sealer

/-- Encrypting keeps the attributes in their places, gives each flagged one an encrypted form and
leaves the others as they are. -/
theorem encrypts_of_encryptAttributes {key : List UInt8} {p : FieldPolicies} (hp : p.Distinct)
    {record out : Record} {e e' : Entropy}
    (h : encryptAttributes lim key p record e = (.ok out, e')) : Encrypts lim key p record out := by
  induction p generalizing record e with
  | nil =>
    cases h
    exact ⟨rfl, by simp, fun _ _ => rfl⟩
  | cons f p ih =>
    obtain ⟨name, flags⟩ := f
    rw [encryptAttributes] at h
    split at h
    · next encrypt =>
      split at h
      · next absent => exact (ih hp.tail h).skip hp fun _ => absent
      · next v found =>
        split at h
        · cases h
        · next json written =>
          split at h
          · cases h
          · next label named =>
            have cipher : IsCipher lim key name v
                (.text (encryptText key (e.next nonceSize) label json)) :=
              ⟨e.next nonceSize, label, json, e.length_next _, named, written, rfl⟩
            exact (ih hp.tail h).step hp encrypt found cipher
    · next plain => exact (ih hp.tail h).skip hp fun encrypt => absurd encrypt plain

/-- Decrypting finds a record again that stands in what is decrypted, whatever the order of the
policies. -/
theorem decryptAttributes_of_decrypts {key : List UInt8} {p : FieldPolicies} (hp : p.Distinct)
    {original record : Record} (distinct : original.Distinct)
    (h : Decrypts lim key p original record) :
    decryptAttributes lim key p record = .ok original := by
  induction p generalizing record with
  | nil =>
    -- No name is flagged now, so the two records hold the same.
    have same : original = record :=
      distinct.ext h.keys.symm fun n _ => (h.plain n rfl).symm
    rw [decryptAttributes, same]
  | cons f p ih =>
    obtain ⟨name, flags⟩ := f
    rw [decryptAttributes]
    by_cases encrypt : flags.encrypt = true
    · rw [if_pos encrypt]
      cases held : record.get? name with
      | none => exact ih hp.tail (h.skip fun _ => held)
      | some w =>
        have contained : original.contains name = true := by
          rw [← Assoc.contains_congr_keys h.keys name]
          simp [Assoc.contains, held]
        obtain ⟨v, found⟩ := Option.isSome_iff_exists.1 contained
        have decrypted := h.ciphers _ (List.mem_cons_self ..) encrypt v w found held
        show (decryptValue lim key name w >>= _) = _
        rw [decrypted]
        exact ih hp.tail (h.step hp found held)
    · rw [if_neg encrypt]
      exact ih hp.tail (h.skip fun flag => absurd flag encrypt)

/-! ## Seals -/

/-- The two reserved names of a sealer, which are not the same. -/
structure Reserves (s : Sealer) (signature description : Name) : Prop where
  signature_eq : s.signatureName.toName = .ok signature
  description_eq : s.descriptionName.toName = .ok description
  different : (signature == description) = false

theorem length_of_deriveKeys {s : Sealer} {salt encryption signing : List UInt8}
    (h : s.deriveKeys salt = .ok (encryption, signing)) : encryption.length = 32 := by
  unfold deriveKeys at h
  cases iterations : s.checkedIterations with
  | error why => simp [iterations, bind, Except.bind] at h
  | ok n =>
    cases master : s.masterKey.encoded with
    | error why => simp [iterations, master, bind, Except.bind] at h
    | ok password =>
      simp only [iterations, master, bind, Except.bind, pure, Except.pure, Except.ok.injEq,
        Prod.mk.injEq] at h
      rw [← h.1, List.length_take, Crypto.length_stretch]
      rfl

/-- What a record consists of once it is sealed: its attributes, the flagged ones encrypted, then a
description of the salt, then the code of all that is signed. -/
def IsSealed (s : Sealer) (signature description : Name) (policies : FieldPolicies)
    (context : Context) (salt : List UInt8) (record stored : Record) : Prop :=
  ∃ now encryption signing encrypted payload,
    s.deriveKeys salt = .ok (encryption, signing) ∧
    Encrypts s.limits.encrypting encryption policies record encrypted ∧
    signingPayload s.limits.signing (encrypted.insert description (s.describe now salt)) policies
      context (s.describe now salt) = .ok payload ∧
    stored = (encrypted.insert description (s.describe now salt)).insert signature
      (.text (Base64.encodeText (Hmac.mac signing payload)))

/-- What sealing did if it succeeded: it derived keys from the first random bytes, encrypted with
the next ones, and wrote the description and the signature last. -/
theorem exists_of_sealRecord {s : Sealer} {record stored : Record} {policies : FieldPolicies}
    {context : Context} {now : Timestamp} {e e' : Entropy}
    (h : s.sealRecord now record policies context e = (.ok stored, e')) :
    ∃ signature description encryption signing encrypted payload,
      s.signatureName.toName = .ok signature ∧ s.descriptionName.toName = .ok description ∧
      s.deriveKeys (e.next saltSize) = .ok (encryption, signing) ∧
      encryptAttributes s.limits.encrypting encryption policies record (e.skip saltSize) =
        (.ok encrypted, e') ∧
      signingPayload s.limits.signing
        (encrypted.insert description (s.describe now (e.next saltSize))) policies context
        (s.describe now (e.next saltSize)) = .ok payload ∧
      stored = (encrypted.insert description (s.describe now (e.next saltSize))).insert signature
        (.text (Base64.encodeText (Hmac.mac signing payload))) := by
  unfold sealRecord at h
  cases keys : s.deriveKeys (e.next saltSize) with
  | error why => simp [keys] at h
  | ok pair =>
    obtain ⟨encryption, signing⟩ := pair
    cases walk : encryptAttributes s.limits.encrypting encryption policies record
        (e.skip saltSize) with
    | mk result after =>
      cases result with
      | error why => simp [keys, walk] at h
      | ok encrypted =>
        simp only [keys, walk, Prod.mk.injEq, sign, bind, Except.bind, pure, Except.pure,
          Sealer.signature] at h
        obtain ⟨signed, rfl⟩ := h
        cases named : s.descriptionName.toName with
        | error why =>
          rw [named] at signed
          cases signed
        | ok description =>
          cases payload : signingPayload s.limits.signing (encrypted.insert description
              (s.describe now (e.next saltSize))) policies context
              (s.describe now (e.next saltSize)) with
          | error why => simp [named, payload, Except.map] at signed
          | ok bytes =>
            cases named' : s.signatureName.toName with
            | error why => simp [named, named', payload, Except.map] at signed
            | ok signature =>
              simp only [named, named', payload, Except.map, Except.ok.injEq] at signed
              exact ⟨signature, description, encryption, signing, encrypted, bytes, rfl, rfl, rfl,
                walk, payload, signed.symm⟩

/-- What sealing gives is a sealed record, under the names that the sealer has. -/
theorem exists_isSealed_of_sealRecord {s : Sealer} {record stored : Record}
    {policies : FieldPolicies} {context : Context} (hp : policies.Distinct) {now : Timestamp}
    {e e' : Entropy} (h : s.sealRecord now record policies context e = (.ok stored, e')) :
    ∃ signature description, s.signatureName.toName = .ok signature ∧
      s.descriptionName.toName = .ok description ∧
      s.IsSealed signature description policies context (e.next saltSize) record stored := by
  obtain ⟨signature, description, encryption, signing, encrypted, payload, hs, hd, keys, walk,
    signed, form⟩ := exists_of_sealRecord h
  exact ⟨signature, description, hs, hd, now, encryption, signing, encrypted, payload, keys,
    encrypts_of_encryptAttributes hp walk, signed, form⟩

section

variable {s : Sealer} {signature description : Name} (names : s.Reserves signature description)
  {record stored : Record} {policies : FieldPolicies} {context : Context}

include names

theorem isSealed_of_sealRecord (hp : policies.Distinct) {now : Timestamp} {e e' : Entropy}
    (h : s.sealRecord now record policies context e = (.ok stored, e')) :
    s.IsSealed signature description policies context (e.next saltSize) record stored := by
  obtain ⟨signature', description', hs, hd, sealed_⟩ := exists_isSealed_of_sealRecord hp h
  obtain rfl : signature = signature' := Except.ok.inj (names.signature_eq.symm.trans hs)
  obtain rfl : description = description' := Except.ok.inj (names.description_eq.symm.trans hd)
  exact sealed_

/-- A sealed record has its attributes first, then the reserved ones. -/
theorem IsSealed.keys_eq {salt : List UInt8}
    (h : s.IsSealed signature description policies context salt record stored)
    (free : ∀ n ∈ [signature, description], record.contains n = false) :
    stored.keys = record.keys ++ [description, signature] := by
  obtain ⟨now, encryption, signing, encrypted, payload, -, encrypts, -, rfl⟩ := h
  have contains (n : Name) : encrypted.contains n = record.contains n :=
    Assoc.contains_congr_keys encrypts.keys n
  have described : encrypted.contains description = false := by rw [contains, free _ (by simp)]
  have signed :
      (encrypted.insert description (s.describe now salt)).contains signature = false := by
    rw [Assoc.contains_insert, BEq.comm, names.different, Bool.false_or, contains,
      free _ (by simp)]
  rw [Assoc.keys_insert, if_neg (by simp [signed]), Assoc.keys_insert, if_neg (by simp [described]),
    encrypts.keys, List.append_assoc]
  rfl

omit names in
/-- A sealed record holds what is not encrypted as it was. -/
theorem IsSealed.get?_of_plain {salt : List UInt8}
    (h : s.IsSealed signature description policies context salt record stored) {n : Name}
    (plain : (policies.flagsOf n).encrypt = false)
    (free : ∀ k ∈ [signature, description], (k == n) = false) : stored.get? n = record.get? n := by
  obtain ⟨now, encryption, signing, encrypted, payload, -, encrypts, -, rfl⟩ := h
  rw [Assoc.get?_insert, if_neg (by simp [free signature]), Assoc.get?_insert,
    if_neg (by simp [free description]), encrypts.plain n plain]

/-- Opening a record whose seal was made from a salt and a code. -/
theorem openRecord_of_seal {now : Timestamp} {salt code encryption signing : List UInt8}
    (signed : stored.get? signature = some (.text (Base64.encodeText code)))
    (described : stored.get? description = some (s.describe now salt))
    (keys : s.deriveKeys salt = .ok (encryption, signing)) :
    s.openRecord stored policies context =
      match signingPayload s.limits.verifying stored policies context (s.describe now salt) with
      | .error why => .error why
      | .ok payload =>
        if Hmac.mac signing payload ≠ code then .error .wrongSignature
        else
          decryptAttributes s.limits.decrypting encryption policies
            ((stored.erase signature).erase description) := by
  have read := readSeal_describe s now salt code
  simp only [openRecord, openSigned, names.signature_eq, names.description_eq, signed, described,
    read, keys, Except.mapError, bind, Except.bind, Sealer.signature]
  cases signingPayload s.limits.verifying stored policies context (s.describe now salt) with
  | error why => rfl
  | ok payload =>
    simp only [Except.map]
    split <;> rfl

omit names in
theorem flagsOf_eq_of_contains {p p' : FieldPolicies}
    (same : ∀ n ∈ record.keys, p'.flagsOf n = p.flagsOf n) {name : Name}
    (h : record.contains name = true) : p'.flagsOf name = p.flagsOf name := by
  rw [Assoc.contains_eq_any_keys, List.any_eq_true] at h
  obtain ⟨n, hn, beq⟩ := h
  rw [← p.flagsOf_congr beq, ← p'.flagsOf_congr beq]
  exact same n hn

omit names in
/-- Removing the reserved attributes leaves no trace of what a seal put there. -/
theorem erase_seal (record : Record) (v w : Value) :
    (((record.insert description v).insert signature w).erase signature).erase description =
      (record.erase signature).erase description := by
  rw [Assoc.erase_insert, Assoc.erase_comm, Assoc.erase_insert, Assoc.erase_comm]

omit names in
theorem signedValue_congr (record : Record) (p : FieldPolicies) {m n : Name}
    (h : (m == n) = true) : signedValue record p m = signedValue record p n := by
  rw [signedValue, signedValue, p.flagsOf_congr h, Assoc.get?_congr record h]

omit names in
/-- The signed values of a record and of what it is sealed to, if the signature itself is not signed
and all else has the same flags. -/
theorem signedValue_sealed_of_flags {p p' : FieldPolicies} (v w : Value)
    (unsigned : signedValue (record.insert description v) p signature = none)
    (unsigned' : (p'.flagsOf signature).sign = false)
    (described : p'.flagsOf description = p.flagsOf description)
    (same : ∀ name, record.contains name = true → p'.flagsOf name = p.flagsOf name)
    (name : Name) :
    signedValue (record.insert description v) p name =
      signedValue ((record.insert description v).insert signature w) p' name := by
  by_cases isSignature : (signature == name) = true
  · rw [← signedValue_congr _ p isSignature, ← signedValue_congr _ p' isSignature, unsigned,
      signedValue, unsigned']
    rfl
  by_cases isDescription : (description == name) = true
  · have other : ¬ (signature == description) = true := fun h =>
      isSignature (BEq.trans h isDescription)
    rw [← signedValue_congr _ p isDescription, ← signedValue_congr _ p' isDescription, signedValue,
      signedValue, described, Assoc.get?_insert _ signature, if_neg other]
  · simp only [signedValue, Assoc.get?_insert, if_neg isSignature, if_neg isDescription]
    cases found : record.get? name with
    | none => simp
    | some u => rw [same name (by simp [Assoc.contains, found])]

omit names in
/-- The signed values of a record and of what it is sealed to, under policies for other names. -/
theorem signedValue_sealed {p p' : FieldPolicies} (hs : p.contains signature = false)
    (hd : p.contains description = false) (hs' : p'.contains signature = false)
    (hd' : p'.contains description = false)
    (same : ∀ name, record.contains name = true → p'.flagsOf name = p.flagsOf name) (v w : Value)
    (name : Name) :
    signedValue (record.insert description v) p name =
      signedValue ((record.insert description v).insert signature w) p' name := by
  have unflagged {q : FieldPolicies} {n : Name} (free : q.contains n = false) :
      q.flagsOf n = .none := FieldPolicies.flagsOf_of_not_contains free
  refine signedValue_sealed_of_flags v w ?_ ?_ ?_ same name
  · rw [signedValue, unflagged hs]
    rfl
  · rw [unflagged hs']
    rfl
  · rw [unflagged hd, unflagged hd']

/-- A sealed record opens to the record that was sealed if that has no reserved attribute, under any
policies that do not sign the signature and give the description and the attributes of the record
the same flags. -/
theorem IsSealed.openRecord_of_flags {policies' : FieldPolicies} {salt : List UInt8}
    (h : s.IsSealed signature description policies context salt record stored)
    (hr : record.Distinct) (hp : policies.Distinct) (hp' : policies'.Distinct)
    (texts : Assoc.OfAttributes policies) (texts' : Assoc.OfAttributes policies')
    (free : ∀ n ∈ [signature, description], record.contains n = false)
    (unsigned : (policies'.flagsOf signature).sign = false)
    (described : policies'.flagsOf description = policies.flagsOf description)
    (same : ∀ n ∈ record.keys, policies'.flagsOf n = policies.flagsOf n)
    (read : ∀ n v, (policies.flagsOf n).encrypt = true → record.get? n = some v → v.IsRead) :
    s.openRecord stored policies' context = .ok record := by
  obtain ⟨now, encryption, signing, encrypted, payload, keys, encrypts, signed, rfl⟩ := h
  have hs := free signature (by simp)
  have hd := free description (by simp)
  have flags (name : Name) (h : record.contains name = true) :
      policies'.flagsOf name = policies.flagsOf name := flagsOf_eq_of_contains same h
  have contains (name : Name) : encrypted.contains name = record.contains name :=
    Assoc.contains_congr_keys encrypts.keys name
  have unsealed : signedValue (encrypted.insert description (s.describe now salt)) policies
      signature = none := by
    have other : ¬ (description == signature) = true := by
      rw [BEq.comm, names.different]
      simp
    rw [signedValue, Assoc.get?_insert, if_neg other,
      Assoc.get?_of_not_contains ((contains signature).trans hs), ite_self]
  -- The signed bytes of the stored record are those that were signed.
  have payload' := signingPayload_congr hp hp' texts texts'
    (signedValue_sealed_of_flags _ (.text (Base64.encodeText (Hmac.mac signing payload)))
      unsealed unsigned described fun n hn => flags n (contains n ▸ hn)) signed
  have seal_ : ((encrypted.insert description (s.describe now salt)).insert
      signature (.text (Base64.encodeText (Hmac.mac signing payload)))).get? description =
      some (s.describe now salt) := by
    rw [Assoc.get?_insert, if_neg (by simp [names.different]), Assoc.get?_insert, if_pos BEq.rfl]
  rw [openRecord_of_seal names (by rw [Assoc.get?_insert, if_pos BEq.rfl]) seal_ keys,
    signingPayload_of_within s.limits.signing_within payload']
  simp only [ne_eq, not_true, if_false]
  have noSignature : encrypted.erase signature = encrypted :=
    Assoc.erase_of_not_contains ((contains signature).trans hs)
  have noDescription : encrypted.erase description = encrypted :=
    Assoc.erase_of_not_contains ((contains description).trans hd)
  rw [erase_seal, noSignature, noDescription]
  refine decryptAttributes_of_decrypts hp' hr ⟨encrypts.keys, ?_, ?_⟩
  · intro f hf encrypt v w found found'
    have contained : record.contains f.1 = true := by simp [Assoc.contains, found]
    have flag : (policies.flagsOf f.1).encrypt = true := by
      rw [← flags f.1 contained, FieldPolicies.flagsOf_of_mem hp' hf, encrypt]
    -- The name was authenticated as the writing policy spells it, which is how this one does.
    obtain ⟨g, hg, u, beq, found'', cipher⟩ := encrypts.cipher flag found'
    obtain rfl : v = u := Option.some.inj (found.symm.trans found'')
    obtain rfl : g = f.1 := ((texts g hg).beq_iff (texts' _ (List.mem_map_of_mem hf))).1 beq
    exact cipher.decryptValue s.limits.encrypting_within (length_of_deriveKeys keys)
      (read f.1 v flag found)
  · intro n hn
    by_cases contained : record.contains n = true
    · exact encrypts.plain n (flags n contained ▸ hn)
    · have absent := Bool.eq_false_of_not_eq_true contained
      rw [Assoc.get?_of_not_contains absent, Assoc.get?_of_not_contains (by rw [contains, absent])]

/-- A sealed record opens to the record that was sealed, under any policies that give its
attributes the same flags, if no policy is for a reserved attribute. -/
theorem IsSealed.openRecord_eq {policies' : FieldPolicies} {salt : List UInt8}
    (h : s.IsSealed signature description policies context salt record stored)
    (hr : record.Distinct) (hp : policies.Distinct) (hp' : policies'.Distinct)
    (texts : Assoc.OfAttributes policies) (texts' : Assoc.OfAttributes policies')
    (free : ∀ n ∈ [signature, description],
      record.contains n = false ∧ policies.contains n = false ∧ policies'.contains n = false)
    (same : ∀ n ∈ record.keys, policies'.flagsOf n = policies.flagsOf n)
    (json : ∀ n v, (policies.flagsOf n).encrypt = true → record.get? n = some v → v.IsJson) :
    s.openRecord stored policies' context = .ok record := by
  obtain ⟨⟨-, -, hs'⟩, ⟨-, hd, hd'⟩⟩ :=
    And.intro (free signature (by simp)) (free description (by simp))
  refine h.openRecord_of_flags names hr hp hp' texts texts' (fun n hn => (free n hn).1) ?_ ?_ same
    fun n v encrypt found => (json n v encrypt found).isRead
  · rw [FieldPolicies.flagsOf_of_not_contains hs']
    rfl
  · rw [FieldPolicies.flagsOf_of_not_contains hd, FieldPolicies.flagsOf_of_not_contains hd']

/-- Sealing a record and opening what came of it gives the record, under any policies that give its
attributes the same flags, at any time and with any random bytes. -/
theorem openRecord_sealRecord {policies' : FieldPolicies} (hr : record.Distinct)
    (hp : policies.Distinct) (hp' : policies'.Distinct) (texts : Assoc.OfAttributes policies)
    (texts' : Assoc.OfAttributes policies')
    (free : ∀ n ∈ [signature, description],
      record.contains n = false ∧ policies.contains n = false ∧ policies'.contains n = false)
    (same : ∀ n ∈ record.keys, policies'.flagsOf n = policies.flagsOf n)
    (json : ∀ n v, (policies.flagsOf n).encrypt = true → record.get? n = some v → v.IsJson)
    {now : Timestamp} {e e' : Entropy}
    (h : s.sealRecord now record policies context e = (.ok stored, e')) :
    s.openRecord stored policies' context = .ok record :=
  (isSealed_of_sealRecord names hp h).openRecord_eq names hr hp hp' texts texts' free same json

end

/-! ## A sample -/

/-- A sealer that derives its keys in one iteration. -/
def sample : Sealer := ⟨.text "key", .aesGcm, 1, .text "*sig*", .text "*desc*", .standard⟩

/-- A record with a key, a nested value to encrypt and a byte string that is left alone. -/
def sampleRecord : Record := [
  ("id", .text "a"), ("body", .object [("y", .null), ("x", .text "b")]), ("blob", .bytes [1])]

/-- Policies for the sample record. -/
def samplePolicies : FieldPolicies := [("id", ⟨false, true⟩), ("body", ⟨true, true⟩)]

/-- The same policies in another order and with one more. -/
def morePolicies : FieldPolicies := [
  ("body", ⟨true, true⟩), ("new", ⟨true, true⟩), ("id", ⟨false, true⟩)]

/-- The context of the sample record. -/
def sampleContext : Context := ⟨.text "t", .text "id", .null⟩

theorem reserves_sample : sample.Reserves "*sig*" "*desc*" := ⟨rfl, rfl, by simp⟩

theorem distinct_sample :
    sampleRecord.Distinct ∧ samplePolicies.Distinct ∧ morePolicies.Distinct := by
  simp [Assoc.Distinct, Assoc.keys, sampleRecord, samplePolicies, morePolicies]

theorem ofAttributes_sample :
    Assoc.OfAttributes samplePolicies ∧ Assoc.OfAttributes morePolicies := by
  simp [Assoc.OfAttributes, Assoc.keys, samplePolicies, morePolicies, Name.IsAttribute]

theorem free_sample (n : Name) (h : n ∈ [Name.text "*sig*", .text "*desc*"]) :
    sampleRecord.contains n = false ∧ samplePolicies.contains n = false ∧
      morePolicies.contains n = false := by
  simp only [List.mem_cons, List.not_mem_nil, or_false] at h
  rcases h with rfl | rfl <;>
    simp [Assoc.contains, sampleRecord, samplePolicies, morePolicies]

theorem flagsOf_sample (n : Name) (h : n ∈ sampleRecord.keys) :
    morePolicies.flagsOf n = samplePolicies.flagsOf n := by
  simp only [sampleRecord, Assoc.keys, List.map_cons, List.map_nil, List.mem_cons,
    List.not_mem_nil, or_false] at h
  rcases h with rfl | rfl | rfl <;> simp [samplePolicies, morePolicies, FieldPolicies.flagsOf]

theorem isJson_sample (n : Name) (v : Value) (flag : (samplePolicies.flagsOf n).isAny = true)
    (found : sampleRecord.get? n = some v) : v.IsJson := by
  obtain ⟨l, beq, hl⟩ := Assoc.mem_of_get? found
  rw [← samplePolicies.flagsOf_congr beq] at flag
  simp only [sampleRecord, List.mem_cons, Prod.mk.injEq, List.not_mem_nil, or_false] at hl
  rcases hl with ⟨rfl, rfl⟩ | ⟨rfl, rfl⟩ | ⟨rfl, rfl⟩
  · exact .text "a"
  · refine .object (by simp [Assoc.Distinct, Assoc.keys]) (by simp) ?_
    simp only [List.forall_mem_cons, List.not_mem_nil, false_imp_iff, implies_true, and_true]
    exact ⟨.null, .text "b"⟩
  · cases flag

theorem sealRecord_sample : ∃ stored after,
    sample.sealRecord ⟨2024, 1, 1, 0, 0, 0, 0⟩ sampleRecord samplePolicies sampleContext
      { stream := fun _ => 0 } = (.ok stored, after) :=
  ⟨_, _, rfl⟩

/-- The sample record opens under its policies in another order and with one more. -/
theorem openRecord_sealRecord_sample : ∃ stored after,
    sample.sealRecord ⟨2024, 1, 1, 0, 0, 0, 0⟩ sampleRecord samplePolicies sampleContext
      { stream := fun _ => 0 } = (.ok stored, after) ∧
    sample.openRecord stored morePolicies sampleContext = .ok sampleRecord := by
  obtain ⟨stored, after, h⟩ := sealRecord_sample
  refine ⟨stored, after, h, ?_⟩
  exact openRecord_sealRecord reserves_sample distinct_sample.1 distinct_sample.2.1
    distinct_sample.2.2 ofAttributes_sample.1 ofAttributes_sample.2 free_sample flagsOf_sample
    (fun n v encrypt => isJson_sample n v (by rw [Flags.isAny, encrypt]; rfl)) h

end Sealer

end RecordSeal
