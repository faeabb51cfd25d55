import RecordSeal.Proofs.Seal.RoundTrip

set_option autoImplicit false

/-! # What sealing leaves behind

Sealing takes its random bytes in a fixed order: first the salt, then one nonce for each attribute
that it encrypts, in the order of the policies (`Draws`). In the record it touches only those
attributes and adds the two reserved ones (`Sealer.Footprint`). So two attributes of a record have
the same nonce only if the stream of random bytes repeats itself. -/

namespace RecordSeal

/-! ## Texts are not empty -/

theorem Decimal.ofNat_ne_nil (n : Nat) : Decimal.ofNat n ≠ [] := by
  rw [Decimal.ofNat]
  split <;> simp

theorem Binary64.layDigits_ne_nil (lay : Layout) (ds : List Char) (point : Int) :
    layDigits lay ds point ≠ [] := by
  unfold layDigits
  split
  · split
    · simp
    · split <;> simp
  · simp

theorem Binary64.textWith_ne_nil (x : Binary64) : x.textWith Json.numberLayout ≠ [] := by
  cases x with
  | undefined => simp [textWith, Json.numberLayout]
  | number negative place =>
    rw [textWith]
    split
    · simp
    · split
      · simp [Json.numberLayout]
      · simp
      · exact layDigits_ne_nil _ _ _

theorem Json.print_ne_nil (sep : Separators) {digits depth : Nat} {v : Value}
    (clear : obstacle? digits depth v = none) : print sep v ≠ [] := by
  cases v with
  | null => simp [print, printAtom]
  | bool b => cases b <;> simp [print, printAtom]
  | int n =>
    rw [print, printAtom, Decimal.ofInt]
    · split <;> simp [Decimal.ofNat_ne_nil]
    all_goals simp
  | float x => simp [print, printAtom, Binary64.textWith_ne_nil]
  | text s => simp [print, printAtom, printText]
  | brokenText ps => simp [print, printAtom, printText]
  | bytes bs => cases depth <;> simp [obstacle?] at clear
  | list items => simp [print]
  | object fields => simp [print]
  | foreign => cases depth <;> simp [obstacle?] at clear

theorem Text.utf8_ne_nil {cs : List Char} (h : cs ≠ []) : utf8 cs ≠ [] := by
  cases cs with
  | nil => exact absurd rfl h
  | cons c cs =>
    have first : 0 < (String.utf8EncodeChar c).length := by
      rw [String.length_utf8EncodeChar]
      exact c.utf8Size_pos
    intro none
    have empty := (List.append_eq_nil_iff.1 none).1
    rw [empty] at first
    cases first

/-! ## Bytes inside values -/

/-- Whether a value is base64 text of some bytes, which either grade of reading gives. -/
def Value.Holds (w : Value) (bytes : List UInt8) : Prop :=
  ∃ t, w = .text t ∧ ∀ strict, Base64.decode strict t.toList = .ok bytes

theorem Value.holds_encodeText (bytes : List UInt8) :
    (Value.text (Base64.encodeText bytes)).Holds bytes := by
  refine ⟨_, rfl, ?_⟩
  intro strict
  rw [Base64.encodeText, String.toList_ofList, Base64.decode_encode]

theorem Value.Holds.unique {w : Value} {bytes bytes' : List UInt8} (h : w.Holds bytes)
    (h' : w.Holds bytes') : bytes = bytes' := by
  obtain ⟨t, rfl, decoded⟩ := h
  obtain ⟨t', same, decoded'⟩ := h'
  cases same
  exact Except.ok.inj ((decoded false).symm.trans (decoded' false))

/-- An encrypted attribute holds its nonce in front of at least one byte and a tag. -/
theorem exists_holds_encryptText {key nonce : List UInt8} (hk : key.length = 32)
    (hn : nonce.length = nonceSize) (label : List UInt8) {lim : Json.Limits} {v : Value}
    {json : List Char} (written : v.json lim Json.spaced = .ok json) :
    ∃ body, (Value.text (encryptText key nonce label json)).Holds (nonce ++ body) ∧
      tagSize < body.length := by
  have some : 0 < (Text.utf8 json).length := by
    unfold Value.json at written
    split at written
    · cases written
    · next clear =>
      cases written
      exact List.length_pos_of_ne_nil (Text.utf8_ne_nil (Json.print_ne_nil _ clear))
  have tag := Crypto.length_sealText_tag hk hn label (Text.utf8 json)
  have cipher := Crypto.length_sealText_cipher hk hn label (Text.utf8 json)
  have holds := Value.holds_encodeText (nonce ++
    (Crypto.Gcm.sealText key nonce label (Text.utf8 json)).1 ++
    (Crypto.Gcm.sealText key nonce label (Text.utf8 json)).2)
  rw [List.append_assoc] at holds
  unfold encryptText
  generalize Crypto.Gcm.sealText key nonce label (Text.utf8 json) = parts at *
  refine ⟨parts.1 ++ parts.2, ?_, ?_⟩
  · simpa only [List.append_assoc] using holds
  · rw [List.length_append, tag, cipher]
    omega

/-! ## The order of random bytes -/

/-- The nonce that is taken after `i` others. -/
def Entropy.nonce (e : Entropy) (i : Nat) : List UInt8 := (e.skip (nonceSize * i)).next nonceSize

theorem Entropy.skip_skip (e : Entropy) (m n : Nat) : (e.skip m).skip n = e.skip (m + n) := by
  simp [skip, Nat.add_assoc]

theorem Entropy.nonce_succ (e : Entropy) (i : Nat) :
    e.nonce (i + 1) = (e.skip nonceSize).nonce i := by
  rw [nonce, nonce, skip_skip, Nat.mul_succ, Nat.add_comm]

/-- The names under which something is encrypted, in the order in which that happens. -/
def FieldPolicies.encrypted (p : FieldPolicies) (record : Record) : List Name :=
  Assoc.keys (p.filter fun e => e.2.encrypt && record.contains e.1)

theorem FieldPolicies.encrypted_cons (name : Name) (flags : Flags) (p : FieldPolicies)
    (record : Record) :
    encrypted ((name, flags) :: p) record =
      if flags.encrypt && record.contains name then name :: p.encrypted record
      else p.encrypted record := by
  rw [encrypted, List.filter_cons]
  split <;> rfl

theorem FieldPolicies.encrypted_congr (p : FieldPolicies) {record record' : Record}
    (h : record.keys = record'.keys) : p.encrypted record = p.encrypted record' := by
  rw [encrypted, encrypted]
  congr 2
  funext e
  rw [Assoc.contains_congr_keys h]

theorem FieldPolicies.mem_keys_of_encrypted {p : FieldPolicies} {record : Record} {n : Name}
    (h : n ∈ p.encrypted record) : n ∈ p.keys := by
  obtain ⟨e, he, rfl⟩ := List.mem_map.1 h
  exact List.mem_map_of_mem (List.mem_filter.1 he).1

/-- Encrypting a record takes one nonce after the other, and each encrypted attribute holds the one
that was taken for it. -/
structure Draws (p : FieldPolicies) (record out : Record) (e e' : Entropy) : Prop where
  after : e' = e.skip (nonceSize * (p.encrypted record).length)
  nonces : ∀ i n, (p.encrypted record)[i]? = some n →
    ∃ w body, out.get? n = some w ∧ w.Holds (e.nonce i ++ body) ∧ tagSize < body.length

/-- A policy that finds nothing to encrypt takes no nonce. -/
theorem Draws.skip {name : Name} {flags : Flags} {p : FieldPolicies} {record out : Record}
    {e e' : Entropy} (h : Draws p record out e e')
    (idle : (flags.encrypt && record.contains name) = false) :
    Draws ((name, flags) :: p) record out e e' := by
  have same : FieldPolicies.encrypted ((name, flags) :: p) record = p.encrypted record := by
    rw [FieldPolicies.encrypted_cons, if_neg (by simp [idle])]
  refine ⟨?_, ?_⟩
  · rw [same]
    exact h.after
  · rw [same]
    exact h.nonces

/-- A policy that encrypts takes the next nonce; what it writes is still there in the end, and the
others count from the nonce after it. -/
theorem Draws.step {name : Name} {flags : Flags} {p : FieldPolicies} {record out : Record}
    {e e' : Entropy} {w : Value} {body : List UInt8}
    (busy : (flags.encrypt && record.contains name) = true)
    (h : Draws p (record.insert name w) out (e.skip nonceSize) e') (kept : out.get? name = some w)
    (holds : w.Holds (e.next nonceSize ++ body)) (size : tagSize < body.length) :
    Draws ((name, flags) :: p) record out e e' := by
  have contained : record.contains name = true := (Bool.and_eq_true_iff.1 busy).2
  have rest : p.encrypted (record.insert name w) = p.encrypted record :=
    p.encrypted_congr (Assoc.keys_insert_of_contains contained w)
  have names : FieldPolicies.encrypted ((name, flags) :: p) record =
      name :: p.encrypted record := by
    rw [FieldPolicies.encrypted_cons, if_pos busy]
  obtain ⟨after, nonces⟩ := h
  rw [rest] at after nonces
  refine ⟨?_, ?_⟩
  · rw [names, after, Entropy.skip_skip, List.length_cons, Nat.mul_succ, Nat.add_comm]
  · intro i n hn
    rw [names] at hn
    cases i with
    | zero =>
      obtain rfl : name = n := Option.some.inj hn
      exact ⟨w, body, kept, holds, size⟩
    | succ i =>
      rw [Entropy.nonce_succ]
      exact nonces i n hn

namespace Sealer

theorem draws_of_encryptAttributes {lim : Json.Limits} {key : List UInt8} (hk : key.length = 32)
    {p : FieldPolicies} (hp : p.Distinct) {record out : Record} {e e' : Entropy}
    (h : encryptAttributes lim key p record e = (.ok out, e')) : Draws p record out e e' := by
  induction p generalizing record e with
  | nil =>
    cases h
    exact ⟨rfl, by simp [FieldPolicies.encrypted, Assoc.keys]⟩
  | cons f p ih =>
    obtain ⟨name, flags⟩ := f
    rw [encryptAttributes] at h
    split at h
    · next encrypt =>
      split at h
      · next absent => exact (ih hp.tail h).skip (by simp [Assoc.contains, absent])
      · next v found =>
        split at h
        · cases h
        · next json written =>
          split at h
          · cases h
          · next label named =>
            obtain ⟨body, holds, size⟩ :=
              exists_holds_encryptText hk (e.length_next nonceSize) label written
            -- The later policies are for other names, so they leave the cipher text alone.
            have unflagged : (FieldPolicies.flagsOf p name).encrypt = false := by
              rw [FieldPolicies.flagsOf_of_not_contains hp.head_not_contains]
              rfl
            have kept := (encrypts_of_encryptAttributes hp.tail h).plain name unflagged
            rw [Assoc.get?_insert, if_pos BEq.rfl] at kept
            exact (ih hp.tail h).step (by simp [encrypt, Assoc.contains, found]) kept holds size
    · next plain => exact (ih hp.tail h).skip (by simp [plain])

/-! ## Footprints -/

/-- Whether a description is JSON text of an object whose salt holds some bytes, under any limits
that let an object in. -/
def Describes (described : Value) (salt : List UInt8) : Prop :=
  ∃ fields text,
    (∀ lim : Json.Limits, 0 < lim.depth → described.readJson lim = .ok (.object fields)) ∧
    Assoc.get? fields "salt" = some text ∧ text.Holds salt

theorem describes_describe (s : Sealer) (now : Timestamp) (salt : List UInt8) :
    Describes (s.describe now salt) salt :=
  ⟨_, _, fun _ some =>
      MaterialDescription.readJson_text some s.algorithm (Base64.encodeText salt) now.text "1.0",
    rfl, Value.holds_encodeText salt⟩

/-- What sealing leaves in a record and takes of the random bytes. -/
structure Footprint (signature description : Name) (policies : FieldPolicies)
    (record stored : Record) (e e' : Entropy) : Prop where
  /-- The attributes of the record stand in their order, then the reserved ones. -/
  keys : stored.keys = record.keys ++ [description, signature]
  /-- What is not to be encrypted stays as it is. -/
  plain : ∀ n ∈ record.keys, (policies.flagsOf n).encrypt = false → stored.get? n = record.get? n
  /-- A policy for an attribute that the record lacks does not make one. -/
  absent : ∀ n ∈ policies.keys, record.contains n = false → stored.contains n = false
  /-- The salt is the first bytes of the stream. -/
  salt : ∃ described, stored.get? description = some described ∧
    Describes described (e.next saltSize)
  /-- The nonces follow the salt in the order of the policies. -/
  nonces : ∀ i n, (policies.encrypted record)[i]? = some n →
    ∃ w bytes, stored.get? n = some w ∧ w.Holds bytes ∧ nonceSize + tagSize < bytes.length ∧
      bytes.take nonceSize = (e.skip saltSize).nonce i
  /-- Nothing else is taken of the stream. -/
  after : e' = e.skip (saltSize + nonceSize * (policies.encrypted record).length)

/-- Two nonces that are the same are the same twelve bytes of the stream, or the stream repeats
them. -/
theorem stream_eq_of_nonce_eq {e : Entropy} {i j : Nat} (same : e.nonce i = e.nonce j) {m : Nat}
    (hm : m < nonceSize) : e.stream (e.position + nonceSize * i + m) =
      e.stream (e.position + nonceSize * j + m) := by
  have entry := congrArg (·[m]?) same
  simpa [Entropy.nonce, Entropy.next, Entropy.skip, hm] using entry

section

variable {s : Sealer} {signature description : Name} (names : s.Reserves signature description)
  {record stored : Record} {policies : FieldPolicies} (hp : policies.Distinct) {context : Context}
  (free : ∀ n ∈ [signature, description],
    record.contains n = false ∧ policies.contains n = false)
  {now : Timestamp} {e e' : Entropy}
  (h : s.sealRecord now record policies context e = (.ok stored, e'))

include names hp free h

/-- What an encrypted attribute holds is not touched by the seal. -/
theorem draws_of_sealRecord : Draws policies record stored (e.skip saltSize) e' := by
  obtain ⟨signature', description', encryption, signing, encrypted, payload, hs, hd, keys, walk, -,
    rfl⟩ := exists_of_sealRecord h
  obtain rfl : signature = signature' := Except.ok.inj (names.signature_eq.symm.trans hs)
  obtain rfl : description = description' := Except.ok.inj (names.description_eq.symm.trans hd)
  have draws := draws_of_encryptAttributes (length_of_deriveKeys keys) hp walk
  refine ⟨draws.after, ?_⟩
  intro i n hn
  obtain ⟨w, body, found, holds, size⟩ := draws.nonces i n hn
  have other (k : Name) (hk : k ∈ [signature, description]) : ¬ (k == n) = true := by
    have mem := FieldPolicies.mem_keys_of_encrypted (List.mem_of_getElem? hn)
    rw [BEq.comm, Assoc.not_beq_of_not_contains (free k hk).2 mem]
    simp
  refine ⟨w, body, ?_, holds, size⟩
  rw [Assoc.get?_insert, if_neg (other signature (by simp)), Assoc.get?_insert,
    if_neg (other description (by simp)), found]

/-- Sealing leaves its footprint and no more: the attributes of the record and the reserved ones,
what is not to be encrypted as it was, and the random bytes taken in order. So two attributes hold
the same nonce only if the stream repeats those bytes. -/
theorem footprint_of_sealRecord :
    Footprint signature description policies record stored e e' ∧
      ∀ i j n n' w w' bytes bytes', i ≠ j →
        (policies.encrypted record)[i]? = some n → (policies.encrypted record)[j]? = some n' →
        stored.get? n = some w → stored.get? n' = some w' → w.Holds bytes → w'.Holds bytes' →
        bytes.take nonceSize = bytes'.take nonceSize → ∀ m < nonceSize,
          e.stream (e.position + saltSize + nonceSize * i + m) =
            e.stream (e.position + saltSize + nonceSize * j + m) := by
  have sealed_ := isSealed_of_sealRecord names hp h
  have draws := draws_of_sealRecord names hp free h
  have keys := sealed_.keys_eq names fun n hn => (free n hn).1
  have footprint : Footprint signature description policies record stored e e' := by
    refine ⟨keys, ?_, ?_, ?_, ?_, ?_⟩
    · intro n hn plain
      refine sealed_.get?_of_plain plain ?_
      intro k hk
      rw [BEq.comm]
      exact Assoc.not_beq_of_not_contains (free k hk).1 hn
    · intro n hn lacking
      have unreserved (k : Name) (hk : k ∈ [signature, description]) : (k == n) = false := by
        rw [BEq.comm]
        exact Assoc.not_beq_of_not_contains (free k hk).2 hn
      rw [Assoc.contains_eq_any_keys] at lacking ⊢
      rw [keys, List.any_append, lacking]
      simp [unreserved]
    · obtain ⟨now, _, _, _, _, -, -, -, rfl⟩ := sealed_
      refine ⟨_, ?_, describes_describe s now _⟩
      rw [Assoc.get?_insert, if_neg (by simp [names.different]), Assoc.get?_insert, if_pos BEq.rfl]
    · intro i n hn
      obtain ⟨w, body, found, holds, size⟩ := draws.nonces i n hn
      have length : ((e.skip saltSize).nonce i).length = nonceSize := Entropy.length_next _ _
      refine ⟨w, _, found, holds, ?_, List.take_left' length⟩
      rw [List.length_append, length]
      omega
    · rw [draws.after, Entropy.skip_skip]
  refine ⟨footprint, ?_⟩
  intro i j n n' w w' bytes bytes' _ hi hj found found' holds holds' same m hm
  obtain ⟨u, taken, held, inside, -, first⟩ := footprint.nonces i n hi
  obtain ⟨u', taken', held', inside', -, first'⟩ := footprint.nonces j n' hj
  obtain rfl : u = w := Option.some.inj (held.symm.trans found)
  obtain rfl : u' = w' := Option.some.inj (held'.symm.trans found')
  obtain rfl := inside.unique holds
  obtain rfl := inside'.unique holds'
  exact stream_eq_of_nonce_eq (first.symm.trans (same.trans first')) hm

end

/-- Policies that encrypt two attributes of the sample record and one that it lacks. -/
def twoPolicies : FieldPolicies := [
  ("body", ⟨true, true⟩), ("new", ⟨true, true⟩), ("id", ⟨true, false⟩)]

/-- A stream that counts, at its sixth byte. -/
def counting : Entropy := { stream := UInt8.ofNat, position := 5 }

/-- The second attribute of the sample record that is encrypted takes the last of 40 bytes. -/
theorem footprint_of_sealRecord_two : ∃ stored after,
    sample.sealRecord ⟨2024, 1, 1, 0, 0, 0, 0⟩ sampleRecord twoPolicies sampleContext counting =
      (.ok stored, after) ∧
    stored.keys = ["id", "body", "blob", "*desc*", "*sig*"] ∧
    stored.get? "blob" = some (.bytes [1]) ∧ stored.contains "new" = false ∧
    after.position = 45 ∧
    ∃ w bytes, stored.get? "id" = some w ∧ w.Holds bytes ∧
      bytes.take 12 = [33, 34, 35, 36, 37, 38, 39, 40, 41, 42, 43, 44] := by
  obtain ⟨stored, after, made⟩ : ∃ stored after,
      sample.sealRecord ⟨2024, 1, 1, 0, 0, 0, 0⟩ sampleRecord twoPolicies sampleContext counting =
        (.ok stored, after) := ⟨_, _, rfl⟩
  have distinct : twoPolicies.Distinct := by simp [Assoc.Distinct, Assoc.keys, twoPolicies]
  have free (n : Name) (hn : n ∈ [Name.text "*sig*", .text "*desc*"]) :
      sampleRecord.contains n = false ∧ twoPolicies.contains n = false := by
    refine ⟨(free_sample n hn).1, ?_⟩
    simp only [List.mem_cons, List.not_mem_nil, or_false] at hn
    rcases hn with rfl | rfl <;> simp [Assoc.contains, twoPolicies]
  obtain ⟨footprint, -⟩ := footprint_of_sealRecord reserves_sample distinct free made
  obtain ⟨w, bytes, found, holds, -, first⟩ := footprint.nonces 1 "id" (by decide)
  refine ⟨stored, after, made, footprint.keys, ?_, ?_, ?_, w, bytes, found, holds, ?_⟩
  · exact footprint.plain "blob" (by simp [sampleRecord, Assoc.keys]) (by decide)
  · exact footprint.absent "new" (by simp [twoPolicies, Assoc.keys]) (by decide)
  · rw [footprint.after]
    rfl
  · exact first.trans (by decide)

end Sealer

end RecordSeal
