import RecordSeal.Proofs.Seal.Outcome

set_option autoImplicit false

/-! # What keeps a record from being sealed

A record is written in pieces when it is sealed: each encrypted value on its own, and all that is
signed in one object, where encrypted values are texts by then. So sealing fails if a protected
value holds a byte string or a foreign object at any depth (`ProtectsFormless`), or if something
goes beyond the limits of writing or of key derivation (`Sealer.Exceeds`), and for no other reason
(`Sealer.prevents_of_sealRecord`, `Sealer.not_prevents_of_sealRecord`). -/

namespace RecordSeal

/-! ## Nested values -/

theorem Name.IsRead.isAttribute {n : Name} (h : n.IsRead) : n.IsAttribute := by
  obtain ⟨ps, -, rfl⟩ := h
  unfold ofPoints
  split
  · trivial
  · next none => exact none

/-- Nestings of values that JSON texts describe, byte strings and foreign objects. -/
inductive Value.IsMixed : Value → Prop where
  | null : IsMixed .null
  | bool (b : Bool) : IsMixed (.bool b)
  | int (n : Int) : IsMixed (.int n)
  | float (x : Binary64) : IsMixed (.float x)
  | text {ps : List Text.Point} (unpaired : Text.Unpaired ps) : IsMixed (.ofPoints ps)
  | bytes (bs : List UInt8) : IsMixed (.bytes bs)
  | foreign : IsMixed .foreign
  | list {items : List Value} (all : ∀ v ∈ items, IsMixed v) : IsMixed (.list items)
  | object {fields : List (Name × Value)} (distinct : Assoc.Distinct fields)
      (names : ∀ e ∈ fields, e.1.IsRead) (all : ∀ e ∈ fields, IsMixed e.2) :
      IsMixed (.object fields)

namespace Value

variable {v : Value}

theorem isMixed_text (t : String) : (Value.text t).IsMixed := by
  have form : ofPoints (Text.points t.toList) = .text t := by simp [ofPoints]
  rw [← form]
  exact .text (Text.unpaired_points _)

theorem IsMixed.isRead (h : v.IsMixed)
    (formed : ∀ n (w : Value), w.Occurs n v → ¬ w.IsFormless) : v.IsRead := by
  induction h with
  | null => exact .null
  | bool b => exact .bool b
  | int n => exact .int n
  | float x => exact .float x
  | text unpaired => exact .text unpaired
  | bytes bs => exact absurd trivial (formed 0 _ .here)
  | foreign => exact absurd trivial (formed 0 _ .here)
  | list all ih =>
    exact .list fun v hv => ih v hv fun n w occurs => formed (n + 1) w (.item hv occurs)
  | object distinct names all ih =>
    exact .object distinct names fun e he =>
      ih e he fun n w occurs => formed (n + 1) w (.field he occurs)

/-- There is an order between all names of one object in such a value. -/
theorem IsMixed.misfit?_eq_none (h : v.IsMixed) : v.misfit? = none := by
  induction h with
  | @text ps unpaired =>
    unfold ofPoints
    split <;> rfl
  | list all ih =>
    rw [misfit?, misfitItem?_eq_none]
    exact ih
  | @object fields distinct names all ih =>
    have texts : Assoc.OfAttributes fields := by
      intro k hk
      obtain ⟨e, he, rfl⟩ := List.mem_map.1 hk
      exact (names e he).isAttribute
    exact (misfit?_object texts).2 ih
  | _ => rfl

/-- The objects in such a value have texts for names, so no name is without a form. -/
theorem IsMixed.not_isFormless_key (h : v.IsMixed) {n : Nat} {fields : List (Name × Value)}
    (occurs : (Value.object fields).Occurs n v) {k : Name} (named : k ∈ Assoc.keys fields) :
    ¬ k.IsFormless := by
  induction h generalizing n with
  | @text ps unpaired =>
    unfold ofPoints at occurs
    split at occurs <;> cases occurs
  | list all ih =>
    cases occurs with
    | item member inside => exact ih _ member inside
  | object distinct names all ih =>
    cases occurs with
    | here =>
      obtain ⟨e, he, rfl⟩ := List.mem_map.1 named
      exact (names e he).isAttribute.not_isFormless
    | field member inside => exact ih _ member inside
  | _ => cases occurs

theorem json_eq_error_iff {lim : Json.Limits} {sep : Json.Separators} {why : Failure} :
    v.json lim sep = .error why ↔ ∃ obstacle, why = .unwritable obstacle ∧
      Json.obstacle? lim.digits lim.depth v = some obstacle := by
  rw [json]
  split
  · next obstacle found => simp [found, eq_comm]
  · next clear => simp [clear]

theorem obstacle?_eq_none_of_json {lim : Json.Limits} {sep : Json.Separators} {cs : List Char}
    (written : v.json lim sep = .ok cs) : Json.obstacle? lim.digits lim.depth v = none := by
  rw [json] at written
  split at written
  · cases written
  · assumption

end Value

/-! ## What is signed -/

theorem mem_signedPart {record : Record} {p : FieldPolicies} {e : Name × Value} :
    e ∈ signedPart record p ↔
      ∃ f ∈ p, f.2.sign = true ∧ record.get? f.1 = some e.2 ∧ f.1 = e.1 := by
  rw [signedPart, List.mem_filterMap]
  refine exists_congr fun f => and_congr_right fun _ => ?_
  obtain ⟨name, v⟩ := e
  cases sign : f.2.sign <;> simp [sign]

section

variable {record : Record} {p : FieldPolicies} {context : Context} (t : String) {lim : Json.Limits}

/-- What is in the way of writing what is signed is in the way of writing a signed value, which
stands in two objects. -/
theorem blocks_signingObject_iff (texts : Assoc.OfAttributes p) (named : context.IsNamed)
    {digits depth : Nat} {why : Json.Obstacle} :
    Json.Blocks digits (depth + 2) (signingObject record p context (.text t)) why ↔
      ∃ e ∈ signedPart record p, Json.Blocks digits depth e.2 why := by
  obtain ⟨⟨_, table⟩, ⟨_, hashKey⟩, ⟨_, rangeKey⟩⟩ := named
  have top : Assoc.OfAttributes [
      (Name.text "table", context.table), ("hash_key", context.hashKey),
      ("range_key", context.rangeKey), ("material_description", .text t),
      ("attributes", .object (signedPart record p))] := by
    simp [Assoc.OfAttributes, Assoc.keys, Name.IsAttribute]
  have clear (s : Option String) : ¬ Json.Blocks digits (depth + 1) (.ofText? s) why := by
    cases s with
    | none => exact Json.obstacle?_eq_none_iff.1 rfl why
    | some s => exact Json.not_blocks_text s
  rw [signingObject, Json.blocks_object_iff top]
  simp only [List.exists_mem_cons_iff, table, hashKey, rangeKey, clear, Json.not_blocks_text,
    Json.blocks_object_iff (OfAttributes.signedPart texts record), false_or]
  simp

/-- There are no signed bytes only because of what is in the way of writing a signed value. -/
theorem exists_blocks_of_signingPayload (deep : 2 ≤ lim.depth) (texts : Assoc.OfAttributes p)
    (named : context.IsNamed) (mixed : ∀ e ∈ signedPart record p, e.2.misfit? = none)
    {why : Failure} (failed : signingPayload lim record p context (.text t) = .error why) :
    ∃ e ∈ signedPart record p, ∃ obstacle, why = .unwritable obstacle ∧
      Json.Blocks lim.digits (lim.depth - 2) e.2 obstacle := by
  have fits : (signingObject record p context (.text t)).misfit? = none := by
    obtain ⟨⟨t, table⟩, ⟨k, hashKey⟩, ⟨r, rangeKey⟩⟩ := named
    have plain (s : Option String) : (Value.ofText? s).misfit? = none := by cases s <;> rfl
    rw [misfit?_signingObject texts, table, hashKey, rangeKey]
    exact ⟨⟨plain t, plain k, plain r, rfl⟩, mixed⟩
  rw [signingPayload, Value.signed, fits] at failed
  dsimp only at failed
  cases written : (signingObject record p context (.text t)).sorted.json lim Json.compact with
  | ok cs =>
    rw [written] at failed
    cases failed
  | error why' =>
    rw [written] at failed
    cases failed
    obtain ⟨obstacle, rfl, found⟩ := Value.json_eq_error_iff.1 written
    have whole := Json.blocks_sorted.1 (Json.blocks_of_obstacle? found)
    rw [← Nat.sub_add_cancel deep] at whole
    obtain ⟨e, signed, blocks⟩ := (blocks_signingObject_iff t texts named).1 whole
    exact ⟨e, signed, obstacle, rfl, blocks⟩

/-- If there are signed bytes, nothing was in the way of writing the signed values. -/
theorem not_blocks_of_signingPayload (deep : 2 ≤ lim.depth) (texts : Assoc.OfAttributes p)
    (named : context.IsNamed) {bytes : List UInt8}
    (signed : signingPayload lim record p context (.text t) = .ok bytes) {e : Name × Value}
    (he : e ∈ signedPart record p) (obstacle : Json.Obstacle) :
    ¬ Json.Blocks lim.digits (lim.depth - 2) e.2 obstacle := by
  intro blocks
  obtain ⟨clear, -⟩ := Value.written_of_signed signed
  have whole := (blocks_signingObject_iff t texts named).2 ⟨e, he, blocks⟩
  rw [Nat.sub_add_cancel deep] at whole
  exact Json.obstacle?_eq_none_iff.1 clear obstacle (Json.blocks_sorted.2 whole)

end

/-! ## What prevents sealing -/

/-- Whether a value without a JSON form stands, at any depth, in an attribute that a policy protects
and a record has. -/
def ProtectsFormless (p : FieldPolicies) (record : Record) (w : Value) : Prop :=
  w.IsFormless ∧ ∃ f ∈ p, f.2.isAny = true ∧ ∃ v, record.get? f.1 = some v ∧ ∃ n, w.Occurs n v

namespace Sealer

variable {s : Sealer} {record : Record} {p : FieldPolicies} {context : Context}

/-- The limits that keep a record from being sealed, and what sealing fails with then: there are too
many iterations; the master key has no bytes, or the name of an encrypted attribute; an encrypted
value, or one that is only signed, is nested too deep or holds a number that is too long. -/
inductive Exceeds (s : Sealer) (record : Record) (p : FieldPolicies) : Failure → Prop where
  | iterations (many : s.limits.iterations ≤ s.iterations) :
      Exceeds s record p (.exceeded .tooLarge)
  | masterKey {fault : Text.EncodeFault}
      (unencoded : s.masterKey.encoded = .error (.unencodable fault)) :
      Exceeds s record p (.unencodable fault)
  | attributeName {f : Name × Flags} {v : Value} {fault : Text.EncodeFault} (listed : f ∈ p)
      (encrypt : f.2.encrypt = true) (held : record.get? f.1 = some v)
      (unencoded : (Value.ofName f.1).encoded = .error (.unencodable fault)) :
      Exceeds s record p (.unencodable fault)
  | encrypted {f : Name × Flags} {v : Value} {obstacle : Json.Obstacle} (listed : f ∈ p)
      (encrypt : f.2.encrypt = true) (held : record.get? f.1 = some v) (limit : obstacle.IsLimit)
      (blocks : Json.Blocks s.limits.digits s.limits.encryptDepth v obstacle) :
      Exceeds s record p (.unwritable obstacle)
  | signed {f : Name × Flags} {v : Value} {obstacle : Json.Obstacle} (listed : f ∈ p)
      (sign : f.2.sign = true) (plain : f.2.encrypt = false) (held : record.get? f.1 = some v)
      (limit : obstacle.IsLimit)
      (blocks : Json.Blocks s.limits.digits s.limits.signedDepth v obstacle) :
      Exceeds s record p (.unwritable obstacle)

/-- What keeps a record from being sealed, and what sealing fails with then. -/
def Prevents (s : Sealer) (record : Record) (p : FieldPolicies) (why : Failure) : Prop :=
  (∃ w, ProtectsFormless p record w ∧ why = .unwritable (.kind (.value w.kindName))) ∨
    s.Exceeds record p why

theorem Prevents.isExit_eq {why : Failure} (h : s.Prevents record p why) : why.isExit = false := by
  rcases h with ⟨w, -, rfl⟩ | exceeds
  · rfl
  · cases exceeds <;> rfl

theorem prevents_of_encrypted {f : Name × Flags} {v : Value} {obstacle : Json.Obstacle}
    (listed : f ∈ p) (encrypt : f.2.encrypt = true) (held : record.get? f.1 = some v)
    (mixed : v.IsMixed)
    (blocks : Json.Blocks s.limits.digits s.limits.encryptDepth v obstacle) :
    s.Prevents record p (.unwritable obstacle) := by
  cases id blocks with
  | kind occurs formless =>
    have isAny : f.2.isAny = true := by simp [Flags.isAny, encrypt]
    exact .inl ⟨_, ⟨formless, f, listed, isAny, v, held, _, occurs⟩, rfl⟩
  | key occurs named formless => exact (mixed.not_isFormless_key occurs named formless).elim
  | _ => exact .inr (.encrypted listed encrypt held trivial blocks)

theorem prevents_of_signed {f : Name × Flags} {v : Value} {obstacle : Json.Obstacle}
    (listed : f ∈ p) (sign : f.2.sign = true) (plain : f.2.encrypt = false)
    (held : record.get? f.1 = some v) (mixed : v.IsMixed)
    (blocks : Json.Blocks s.limits.digits s.limits.signedDepth v obstacle) :
    s.Prevents record p (.unwritable obstacle) := by
  cases id blocks with
  | kind occurs formless =>
    have isAny : f.2.isAny = true := by simp [Flags.isAny, sign]
    exact .inl ⟨_, ⟨formless, f, listed, isAny, v, held, _, occurs⟩, rfl⟩
  | key occurs named formless => exact (mixed.not_isFormless_key occurs named formless).elim
  | _ => exact .inr (.signed listed sign plain held trivial blocks)

/-! ## Encrypting -/

/-- Encrypting fails at a flagged attribute whose value is not written or whose name has no bytes.
-/
theorem exists_of_encryptAttributes_eq_error {lim : Json.Limits} {key : List UInt8}
    (hp : p.Distinct) {e e' : Entropy} {why : Failure}
    (h : encryptAttributes lim key p record e = (.error why, e')) :
    ∃ f ∈ p, f.2.encrypt = true ∧ ∃ v, record.get? f.1 = some v ∧
      (v.json lim Json.spaced = .error why ∨ (Value.ofName f.1).encoded = .error why) := by
  induction p generalizing record e with
  | nil => cases h
  | cons f p ih =>
    obtain ⟨name, flags⟩ := f
    -- What a later policy fails at stood there from the start.
    have later {next : Record} {e : Entropy}
        (fails : encryptAttributes lim key p next e = (.error why, e'))
        (kept : ∀ n, (name == n) = false → next.get? n = record.get? n) :
        ∃ f ∈ (name, flags) :: p, f.2.encrypt = true ∧ ∃ v, record.get? f.1 = some v ∧
          (v.json lim Json.spaced = .error why ∨ (Value.ofName f.1).encoded = .error why) := by
      obtain ⟨f, hf, encrypt, v, held, stops⟩ := ih hp.tail fails
      rw [kept f.1 (hp.head (List.mem_map_of_mem hf))] at held
      exact ⟨f, List.mem_cons_of_mem _ hf, encrypt, v, held, stops⟩
    rw [encryptAttributes] at h
    split at h
    · next encrypt =>
      split at h
      · exact later h fun _ _ => rfl
      · next v held =>
        split at h
        · next why' unwritten =>
          cases h
          exact ⟨_, List.mem_cons_self .., encrypt, v, held, .inl unwritten⟩
        · split at h
          · next why' unencoded =>
            cases h
            exact ⟨_, List.mem_cons_self .., encrypt, v, held, .inr unencoded⟩
          · refine later h fun n other => ?_
            rw [Assoc.get?_insert, if_neg (by simp [other])]
    · exact later h fun _ _ => rfl

/-- Encrypting fails with what prevents sealing. -/
theorem prevents_of_encryptAttributes {key : List UInt8} (hp : p.Distinct)
    (texts : Assoc.OfAttributes p)
    (mixed : ∀ f ∈ p, f.2.isAny = true → ∀ v, record.get? f.1 = some v → v.IsMixed)
    {e e' : Entropy} {why : Failure}
    (h : encryptAttributes s.limits.encrypting key p record e = (.error why, e')) :
    s.Prevents record p why := by
  obtain ⟨f, hf, encrypt, v, held, unwritten | unencoded⟩ :=
    exists_of_encryptAttributes_eq_error hp h
  · obtain ⟨obstacle, rfl, found⟩ := Value.json_eq_error_iff.1 unwritten
    have isAny : f.2.isAny = true := by simp [Flags.isAny, encrypt]
    exact prevents_of_encrypted hf encrypt held (mixed f hf isAny v held)
      (Json.blocks_of_obstacle? found)
  · have text := (texts f.1 (List.mem_map_of_mem hf)).kindName_ofName
    obtain ⟨fault, rfl⟩ := Value.exists_of_encoded_eq_error text unencoded
    exact .inr (.attributeName hf encrypt held unencoded)

/-- What a signature covers of a record whose flagged attributes are encrypted: a text, or the value
of an attribute that is signed and not encrypted. -/
theorem text_or_plain_of_signedPart {lim : Json.Limits} {key : List UInt8} {encrypted : Record}
    (hp : p.Distinct) (encrypts : Encrypts lim key p record encrypted)
    {description : Name} {d : Value}
    (free : p.contains description = false) {e : Name × Value}
    (he : e ∈ signedPart (encrypted.insert description d) p) :
    (∃ t, e.2 = .text t) ∨
      ∃ f ∈ p, f.2.sign = true ∧ f.2.encrypt = false ∧ record.get? f.1 = some e.2 := by
  obtain ⟨f, hf, sign, held, -⟩ := mem_signedPart.1 he
  have other : ¬ (description == f.1) = true := by
    rw [BEq.comm, Assoc.not_beq_of_not_contains free (List.mem_map_of_mem hf)]
    simp
  have flags : p.flagsOf f.1 = f.2 := FieldPolicies.flagsOf_of_mem hp hf
  rw [Assoc.get?_insert, if_neg other] at held
  cases encrypt : f.2.encrypt with
  | true =>
    obtain ⟨_, -, _, -, -, _, _, _, -, -, -, text⟩ := encrypts.cipher (by rw [flags, encrypt]) held
    exact .inl ⟨_, text⟩
  | false =>
    rw [encrypts.plain f.1 (by rw [flags, encrypt])] at held
    exact .inr ⟨f, hf, sign, encrypt, held⟩

/-! ## Sealing -/

section

variable {signature description : Name} (names : s.Reserves signature description)
  (hp : p.Distinct) (texts : Assoc.OfAttributes p) (free : p.contains description = false)
  (named : context.IsNamed) {now : Timestamp} {e e' : Entropy}

include names hp texts free named

/-- Signing fails with what prevents sealing. -/
theorem prevents_of_sign {lim : Json.Limits} {encryption key : List UInt8} {encrypted : Record}
    (encrypts : Encrypts lim encryption p record encrypted)
    (mixed : ∀ f ∈ p, f.2.isAny = true → ∀ v, record.get? f.1 = some v → v.IsMixed) {t : String}
    {why : Failure} (h : s.sign key encrypted p context (.text t) = .error why) :
    s.Prevents record p why := by
  have plain {e : Name × Value} (he : e ∈ signedPart (encrypted.insert description (.text t)) p) :=
    text_or_plain_of_signedPart hp encrypts free he
  have fits : ∀ e ∈ signedPart (encrypted.insert description (.text t)) p,
      e.2.misfit? = none := by
    intro e signed
    rcases plain signed with ⟨_, text⟩ | ⟨f, hf, sign, -, held⟩
    · rw [text]
      rfl
    · exact (mixed f hf (by simp [Flags.isAny, sign]) _ held).misfit?_eq_none
  simp only [sign, names.description_eq, names.signature_eq, Sealer.signature, bind, Except.bind,
    pure, Except.pure] at h
  cases payload : signingPayload s.limits.signing (encrypted.insert description (.text t)) p
      context (.text t) with
  | ok bytes =>
    simp only [payload, Except.map] at h
    cases h
  | error why' =>
    simp only [payload, Except.map] at h
    cases h
    obtain ⟨e, signed, obstacle, rfl, blocks⟩ :=
      exists_blocks_of_signingPayload t s.limits.two_le_sign texts named fits payload
    rcases plain signed with ⟨_, text⟩ | ⟨f, hf, sign, unencrypted, held⟩
    · rw [text] at blocks
      exact (Json.not_blocks_text _ blocks).elim
    · have isAny : f.2.isAny = true := by simp [Flags.isAny, sign]
      exact prevents_of_signed hf sign unencrypted held (mixed f hf isAny _ held) blocks

/-- Sealing fails with what prevents it. -/
theorem prevents_of_sealRecord (text : s.masterKey.kindName = "str") (iterated : 1 ≤ s.iterations)
    (mixed : ∀ f ∈ p, f.2.isAny = true → ∀ v, record.get? f.1 = some v → v.IsMixed)
    {why : Failure} (h : s.sealRecord now record p context e = (.error why, e')) :
    s.Prevents record p why := by
  unfold sealRecord at h
  cases derived : s.deriveKeys (e.next saltSize) with
  | error why' =>
    simp only [derived] at h
    cases h
    rcases (deriveKeys_eq_error_iff iterated).1 derived with ⟨many, rfl⟩ | ⟨-, unencoded⟩
    · exact .inr (.iterations many)
    · obtain ⟨fault, rfl⟩ := Value.exists_of_encoded_eq_error text unencoded
      exact .inr (.masterKey unencoded)
  | ok keys =>
    simp only [derived] at h
    cases walk : encryptAttributes s.limits.encrypting keys.1 p record (e.skip saltSize) with
    | mk result after =>
      cases result with
      | error why' =>
        simp only [walk] at h
        cases h
        exact prevents_of_encryptAttributes hp texts mixed walk
      | ok encrypted =>
        simp only [walk] at h
        have encrypts := encrypts_of_encryptAttributes hp walk
        exact prevents_of_sign names hp texts free named encrypts mixed (Prod.mk.inj h).1

theorem not_prevents_of_sealRecord (iterated : 1 ≤ s.iterations) {stored : Record}
    (h : s.sealRecord now record p context e = (.ok stored, e')) (why : Failure) :
    ¬ s.Prevents record p why := by
  obtain ⟨signature', description', encryption, signing, encrypted, payload, -, described, derived,
    walk, signed, -⟩ := exists_of_sealRecord h
  cases described.symm.trans names.description_eq
  have encrypts := encrypts_of_encryptAttributes hp walk
  have derives (why : Failure) :
      ¬ ((s.limits.iterations ≤ s.iterations ∧ why = .exceeded .tooLarge) ∨
      (s.iterations < s.limits.iterations ∧ s.masterKey.encoded = .error why)) := by
    intro fails
    cases derived.symm.trans ((deriveKeys_eq_error_iff iterated).2 fails)
  have written {f : Name × Flags} (hf : f ∈ p) (encrypt : f.2.encrypt = true) {v : Value}
      (held : record.get? f.1 = some v) (obstacle : Json.Obstacle) :
      ¬ Json.Blocks s.limits.digits s.limits.encryptDepth v obstacle := by
    obtain ⟨_, -, _, _, _, -, -, json, -⟩ := encrypts.ciphers f hf encrypt v held
    exact Json.obstacle?_eq_none_iff.1 (Value.obstacle?_eq_none_of_json json) obstacle
  have covered {f : Name × Flags} (hf : f ∈ p) (sign : f.2.sign = true)
      (plain : f.2.encrypt = false) {v : Value} (held : record.get? f.1 = some v)
      (obstacle : Json.Obstacle) :
      ¬ Json.Blocks s.limits.digits s.limits.signedDepth v obstacle := by
    refine not_blocks_of_signingPayload _ s.limits.two_le_sign texts named signed
      (e := (f.1, v)) ?_ obstacle
    have other : ¬ (description == f.1) = true := by
      rw [BEq.comm, Assoc.not_beq_of_not_contains free (List.mem_map_of_mem hf)]
      simp
    have kept := encrypts.plain f.1 (by rw [FieldPolicies.flagsOf_of_mem hp hf, plain])
    refine mem_signedPart.2 ⟨f, hf, sign, ?_, rfl⟩
    rw [Assoc.get?_insert, if_neg other, kept, held]
  rintro (⟨w, ⟨formless, f, hf, protected_, v, held, n, occurs⟩, -⟩ | exceeds)
  · cases encrypt : f.2.encrypt with
    | true => exact written hf encrypt held _ (.kind occurs formless)
    | false =>
      have sign : f.2.sign = true := by simpa [Flags.isAny, encrypt] using protected_
      exact covered hf sign encrypt held _ (.kind occurs formless)
  · cases exceeds with
    | iterations many => exact derives _ (.inl ⟨many, rfl⟩)
    | masterKey unencoded =>
      rcases lt_or_ge s.iterations (s.limits.iterations) with few | many
      · exact derives _ (.inr ⟨few, unencoded⟩)
      · exact derives _ (.inl ⟨many, rfl⟩)
    | attributeName listed encrypt held unencoded =>
      obtain ⟨_, -, _, _, _, -, encoded, -⟩ := encrypts.ciphers _ listed encrypt _ held
      rw [unencoded] at encoded
      cases encoded
    | encrypted listed encrypt held limit blocks => exact written listed encrypt held _ blocks
    | signed listed sign plain held limit blocks => exact covered listed sign plain held _ blocks

end

end Sealer

end RecordSeal
