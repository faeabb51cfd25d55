import RecordSeal.Proofs.Json.Obstacle
import RecordSeal.Proofs.Seal.Dependence

set_option autoImplicit false

/-! # How opening ends

Opening is to give a record, or to fail because the signature is missing, malformed or wrong,
because an attribute cannot be decrypted, or because what was decrypted is not the JSON text of a
value (`Sealer.Documented`). What goes beyond the limits of its parts makes it fail otherwise: texts
and values that are nested too deep, numbers with too many digits, too many iterations, names that
have no bytes (`Sealer.Undocumented`). There are no more ways than these, and the two exclude each
other (`Sealer.documented_iff`). -/

namespace RecordSeal

/-! ## What is in the way of writing -/

theorem Value.IsStorable.not_isFormless {v w : Value} {n : Nat} (hv : v.IsStorable)
    (occurs : w.Occurs n v) : ¬ w.IsFormless := by
  induction occurs with
  | here => cases hv <;> exact id
  | item member _ ih =>
    cases hv with
    | list all => exact ih (all _ member)
  | field member _ ih =>
    cases hv with
    | object _ _ all => exact ih (all _ member)

theorem Value.IsStorable.ofAttributes {v : Value} {fields : List (Name × Value)} {n : Nat}
    (hv : v.IsStorable) (occurs : (Value.object fields).Occurs n v) :
    Assoc.OfAttributes fields := by
  induction occurs with
  | here =>
    cases hv with
    | object _ names _ => exact names
  | item member _ ih =>
    cases hv with
    | list all => exact ih (all _ member)
  | field member _ ih =>
    cases hv with
    | object _ _ all => exact ih (all _ member)

theorem Name.IsAttribute.not_isFormless {k : Name} (h : k.IsAttribute) : ¬ k.IsFormless := by
  cases k <;> first | exact h.elim | exact id

namespace Json

/-- Only its size is in the way of writing a value that documents hold, with its fields in order. -/
theorem isLimit_of_obstacle? {digits depth : Nat} {why : Obstacle} {v : Value} (hv : v.IsStorable)
    (h : obstacle? digits depth v.sorted = some why) : why.IsLimit := by
  cases blocks_sorted.1 (blocks_of_obstacle? h) with
  | kind occurs formless => exact hv.not_isFormless occurs formless
  | key occurs named formless => exact (hv.ofAttributes occurs _ named).not_isFormless formless
  | _ => trivial

/-! ## What is nested too deep to be read -/

theorem readValue_replicate (digits depth fuel : Nat) (ps : List Text.Point) :
    readValue (2 * depth + 1 + fuel) ⟨digits, depth⟩
      (List.replicate (depth + 1) (.char '[') ++ ps) = .error (.tooDeep .array) := by
  induction depth with
  | zero => simp [readValue, Nat.add_comm 1 fuel]
  | succ depth ih =>
    have first := skipBlanks_cons (c := '[') (by decide)
      (List.replicate depth (.char '[') ++ ps)
    have steps : 2 * (depth + 1) + 1 + fuel = 2 * depth + 1 + fuel + 1 + 1 := by omega
    rw [List.replicate_succ, List.cons_append] at ih ⊢
    rw [steps, List.replicate_succ, List.cons_append]
    simp [readValue, readItems, first, ih, bind, Except.bind, Except.map]

end Json

/-- A text that opens more lists than the depth allows, and closes none, is not read. -/
theorem Value.readJson_replicate {lim : Json.Limits} {n : Nat} (deep : lim.depth < n) :
    (Value.text (String.ofList (List.replicate n '['))).readJson lim =
      .error (.malformedJson (.tooDeep .array)) := by
  obtain ⟨digits, depth⟩ := lim
  obtain ⟨more, rfl⟩ := Nat.exists_eq_add_of_lt deep
  dsimp only
  have size : depth + more + 1 = depth + 1 + more := by omega
  have text : Text.points (List.replicate (depth + more + 1) '[') =
      List.replicate (depth + 1) (.char '[') ++ List.replicate more (.char '[') := by
    rw [Text.points, List.map_replicate, List.replicate_append_replicate, size]
  have first : List.replicate (depth + 1) (Text.Point.char '[') ++
      List.replicate more (.char '[') =
        .char '[' :: (List.replicate (depth + more) (.char '[')) := by
    rw [List.replicate_append_replicate, ← size, List.replicate_succ]
  have fuel : 2 * (depth + more + 1) + 2 = 2 * depth + 1 + (2 * more + 3) := by omega
  have stops := Json.readValue_replicate digits depth (2 * more + 3)
    (List.replicate more (.char '['))
  rw [← fuel, first] at stops
  have read : Json.readUnmarked ⟨digits, depth⟩ (Text.points
      (List.replicate (depth + more + 1) '[')) = .error (.tooDeep .array) := by
    rw [text, first, Json.readUnmarked, if_neg (by simp), Json.read, Json.readAll,
      Json.skipBlanks_cons (by decide), List.length_cons, List.length_replicate]
    simp only [stops, bind, Except.bind, Except.mapError, Json.Stop.fault]
  simp only [Value.readJson, String.toList_ofList, read, Except.mapError]

/-! ## What is signed -/

/-- The parts of a context are values that documents hold. -/
structure Context.IsStorable (c : Context) : Prop where
  table : c.table.IsStorable
  hashKey : c.hashKey.IsStorable
  rangeKey : c.rangeKey.IsStorable

theorem Record.storable_of_forall {record : Record} {P : Name → Prop}
    (h : ∀ e ∈ record, e.2.IsStorable) : record.Storable P := by
  intro n v _ found
  obtain ⟨l, -, hl⟩ := Assoc.mem_of_get? found
  exact h (l, v) hl

section

variable {record : Record} {p : FieldPolicies} {context : Context} {d : Value}

theorem isStorable_signingObject (hp : p.Distinct) (texts : Assoc.OfAttributes p)
    (storable : record.Storable fun n => (p.flagsOf n).sign = true) (named : context.IsStorable)
    (hd : d.IsStorable) : (signingObject record p context d).IsStorable := by
  have part : (Value.object (signedPart record p)).IsStorable := by
    refine .object (distinct_signedPart record hp) (OfAttributes.signedPart texts record) ?_
    intro e he
    have found := Assoc.get?_of_mem (distinct_signedPart record hp) he
    rw [get?_signedPart record hp, signedValue] at found
    split at found
    · next sign => exact storable _ _ sign found
    · cases found
  refine .object ?_ ?_ ?_
  · simp [Assoc.Distinct, Assoc.keys]
  · simp [Assoc.OfAttributes, Assoc.keys, Name.IsAttribute]
  · simp only [List.forall_mem_cons, List.not_mem_nil, false_imp_iff, implies_true, and_true]
    exact ⟨named.table, named.hashKey, named.rangeKey, hd, part⟩

/-- There are no signed bytes only if a value is too deep or a number too long. -/
theorem exists_isLimit_of_signingPayload (hp : p.Distinct) (texts : Assoc.OfAttributes p)
    (storable : record.Storable fun n => (p.flagsOf n).sign = true) (named : context.IsStorable)
    (hd : d.IsStorable) {lim : Json.Limits} {why : Failure}
    (h : signingPayload lim record p context d = .error why) :
    ∃ obstacle : Json.Obstacle, obstacle.IsLimit ∧ why = .unwritable obstacle := by
  have whole := isStorable_signingObject hp texts storable named hd
  rw [signingPayload, Value.signed, whole.misfit?_eq_none] at h
  dsimp only [Value.json] at h
  split at h
  · next obstacle found =>
    cases h
    exact ⟨obstacle, Json.isLimit_of_obstacle? whole found, rfl⟩
  · cases h

end

/-! ## Names and texts as bytes -/

theorem Value.toName_eq_error {v : Value} {why : Failure} (h : v.toName = .error why) :
    why = .mismatched (.notName v.kindName) := by
  unfold toName at h
  split at h
  · cases h
  · exact (Except.error.inj h).symm

theorem Value.exists_of_encoded_eq_error {v : Value} (text : v.kindName = "str") {why : Failure}
    (h : v.encoded = .error why) : ∃ fault, why = .unencodable fault := by
  cases v with
  | text s => cases h
  | brokenText ps =>
    rw [encoded] at h
    cases bytes : Text.utf8OfPoints ps with
    | error fault =>
      rw [bytes] at h
      exact ⟨fault, (Except.error.inj h).symm⟩
    | ok bs =>
      rw [bytes] at h
      cases h
  | _ => simp [kindName] at text

theorem Name.IsAttribute.kindName_ofName {n : Name} (h : n.IsAttribute) :
    (Value.ofName n).kindName = "str" := by
  cases n <;> first | rfl | exact h.elim

/-! ## Decrypting one attribute -/

/-- Whether the bytes of an encrypted attribute are those that were encrypted under a key and the
name of the attribute, as far as the tag tells. -/
def Authentic (key : List UInt8) (name : Name) (v : Value) (plain : List UInt8) : Prop :=
  ∃ bs label, cipherBytes name v = .ok bs ∧ (Value.ofName name).encoded = .ok label ∧
    Crypto.Gcm.openText? key (bs.take nonceSize) label
      ((bs.drop nonceSize).take ((bs.drop nonceSize).length - tagSize))
      ((bs.drop nonceSize).drop ((bs.drop nonceSize).length - tagSize)) = some plain

section

variable {lim : Json.Limits} {key plain : List UInt8} {name : Name} {v : Value} {why : Failure}

/-- What is authentic is read as the JSON text of a value. -/
theorem Authentic.decryptValue_eq (h : Authentic key name v plain) :
    decryptValue lim key name v = (do
      let cs ← (Text.ofUtf8 plain).mapError Failure.malformedText
      (Json.readUnmarked lim (Text.points cs)).mapError .malformedJson) := by
  obtain ⟨bs, label, bytes, named, opened⟩ := h
  simp only [decryptValue, bytes, named, bind, Except.bind, opened]

theorem exists_of_cipherBytes_eq_error (h : cipherBytes name v = .error why) :
    ∃ fault, why = .undecryptable name.shown fault := by
  unfold cipherBytes at h
  dsimp only at h
  split at h
  · split at h
    · cases h
      exact ⟨_, rfl⟩
    · split at h
      · cases h
        exact ⟨_, rfl⟩
      · cases h
  · cases h
    exact ⟨_, rfl⟩
  · cases h
    exact ⟨_, rfl⟩

/-- An attribute is not decrypted because it is not what was encrypted, because its name has no
bytes, or because what was encrypted is not read. -/
theorem decryptValue_eq_error_cases (text : name.IsAttribute)
    (h : decryptValue lim key name v = .error why) :
    (∃ fault, why = .undecryptable name.shown fault) ∨
      (∃ bs fault, cipherBytes name v = .ok bs ∧
        (Value.ofName name).encoded = .error (.unencodable fault) ∧ why = .unencodable fault) ∨
      ∃ plain, Authentic key name v plain ∧
        ((∃ fault, Text.ofUtf8 plain = .error fault ∧ why = .malformedText fault) ∨
          ∃ cs fault, Text.ofUtf8 plain = .ok cs ∧
            Json.readUnmarked lim (Text.points cs) = .error fault ∧
            why = .malformedJson fault) := by
  cases bytes : cipherBytes name v with
  | error why' =>
    simp only [decryptValue, bytes, bind, Except.bind] at h
    cases h
    exact .inl (exists_of_cipherBytes_eq_error bytes)
  | ok bs =>
    cases named : (Value.ofName name).encoded with
    | error why' =>
      simp only [decryptValue, bytes, named, bind, Except.bind] at h
      cases h
      obtain ⟨fault, rfl⟩ := Value.exists_of_encoded_eq_error text.kindName_ofName named
      exact .inr (.inl ⟨bs, fault, rfl, rfl, rfl⟩)
    | ok label =>
      simp only [decryptValue, bytes, named, bind, Except.bind] at h
      split at h
      · cases h
        exact .inl ⟨_, rfl⟩
      · next plain opened =>
        refine .inr (.inr ⟨plain, ⟨bs, label, bytes, named, opened⟩, ?_⟩)
        cases decoded : Text.ofUtf8 plain with
        | error fault =>
          simp only [decoded, Except.mapError] at h
          exact .inl ⟨fault, rfl, (Except.error.inj h).symm⟩
        | ok cs =>
          simp only [decoded, Except.mapError] at h
          cases read : Json.readUnmarked lim (Text.points cs) with
          | error fault =>
            simp only [read] at h
            exact .inr ⟨cs, fault, rfl, read, (Except.error.inj h).symm⟩
          | ok u =>
            simp only [read] at h
            cases h

end

namespace Sealer

variable {s : Sealer} {record : Record} {p : FieldPolicies} {context : Context} {why : Failure}
  {lim : Json.Limits} {key : List UInt8}

/-! ## Decrypting one attribute after the other -/

theorem decryptAttributes_append (p q : FieldPolicies) (record : Record) :
    decryptAttributes lim key (p ++ q) record =
      (decryptAttributes lim key p record).bind (decryptAttributes lim key q) := by
  induction p generalizing record with
  | nil => rfl
  | cons f p ih =>
    obtain ⟨name, flags⟩ := f
    rw [List.cons_append, decryptAttributes, decryptAttributes]
    split
    · split
      · exact ih record
      · next v held =>
        cases decryptValue lim key name v with
        | error why => rfl
        | ok u => exact ih _
    · exact ih record

/-- Whether decryption gets as far as an attribute and finds a value there. -/
def Reaches (lim : Json.Limits) (key : List UInt8) (p : FieldPolicies) (record : Record)
    (name : Name) (v : Value) : Prop :=
  ∃ before flags after opened, p = before ++ (name, flags) :: after ∧ flags.encrypt = true ∧
    decryptAttributes lim key before record = .ok opened ∧ record.get? name = some v

/-- An attribute that is reached and is not decrypted ends decryption. -/
theorem Reaches.decryptAttributes_eq {name : Name} {v : Value} (hp : p.Distinct)
    (reached : Reaches lim key p record name v) (h : decryptValue lim key name v = .error why) :
    decryptAttributes lim key p record = .error why := by
  obtain ⟨before, flags, after, opened, rfl, encrypt, ran, held⟩ := reached
  rw [Assoc.Distinct, Assoc.keys, List.map_append, List.pairwise_append] at hp
  obtain ⟨once, -, apart⟩ := hp
  have absent : Assoc.contains before name = false := by
    rw [Assoc.contains_eq_any_keys, List.any_eq_false]
    intro k hk
    simp [apart k hk name (by simp)]
  have plain : (FieldPolicies.flagsOf before name).encrypt = false := by
    rw [FieldPolicies.flagsOf_of_not_contains absent]
    rfl
  have there : opened.get? name = some v :=
    ((decrypts_of_decryptAttributes once ran).plain name plain).symm.trans held
  rw [decryptAttributes_append, ran]
  show decryptAttributes lim key ((name, flags) :: after) opened = _
  rw [decryptAttributes, if_pos encrypt, there]
  simp only [h, bind, Except.bind]

theorem exists_reaches_of_decryptAttributes_eq_error (hp : p.Distinct)
    (h : decryptAttributes lim key p record = .error why) :
    ∃ name v, Reaches lim key p record name v ∧ decryptValue lim key name v = .error why := by
  induction p generalizing record with
  | nil => cases h
  | cons f p ih =>
    obtain ⟨name, flags⟩ := f
    -- A policy that is passed is one more before the attribute.
    have passed {next : Record} (fails : decryptAttributes lim key p next = .error why)
        (step : ∀ q, decryptAttributes lim key ((name, flags) :: q) record =
          decryptAttributes lim key q next)
        (kept : ∀ n, (name == n) = false → next.get? n = record.get? n) :
        ∃ n v, Reaches lim key ((name, flags) :: p) record n v ∧
          decryptValue lim key n v = .error why := by
      obtain ⟨n, v, ⟨before, flags', after, opened, rfl, encrypt, ran, held⟩, stops⟩ :=
        ih hp.tail fails
      refine ⟨n, v, ⟨(name, flags) :: before, flags', after, opened, rfl, encrypt, ?_, ?_⟩, stops⟩
      · rw [step, ran]
      · rw [← kept n (hp.head (by simp [Assoc.keys])), held]
    rw [decryptAttributes] at h
    split at h
    · next encrypt =>
      split at h
      · next absent =>
        refine passed h (fun q => ?_) fun _ _ => rfl
        rw [decryptAttributes, if_pos encrypt, absent]
      · next v held =>
        cases decrypted : decryptValue lim key name v with
        | error why' =>
          simp only [decrypted, bind, Except.bind] at h
          cases h
          exact ⟨name, v, ⟨[], flags, p, record, rfl, encrypt, rfl, held⟩, decrypted⟩
        | ok u =>
          simp only [decrypted, bind, Except.bind] at h
          refine passed h (fun q => ?_) fun n other => ?_
          · rw [decryptAttributes, if_pos encrypt, held]
            simp only [decrypted, bind, Except.bind]
          · rw [Assoc.get?_insert, if_neg (by simp [other])]
    · next plain =>
      refine passed h (fun q => ?_) fun _ _ => rfl
      rw [decryptAttributes, if_neg plain]

/-! ## Reading the seal -/

theorem exists_of_readBase64_eq_error {v : Value} (h : readBase64 v = .error why) :
    (∃ fault, why = .malformedBase64 fault) ∨ ∃ kind, why = .mismatched (.notBase64Text kind) := by
  unfold readBase64 at h
  split at h
  · obtain ⟨fault, -, rfl⟩ := mapError_eq_error_iff.1 h
    exact .inl ⟨fault, rfl⟩
  · cases h
    exact .inl ⟨_, rfl⟩
  · obtain ⟨fault, -, rfl⟩ := mapError_eq_error_iff.1 h
    exact .inl ⟨fault, rfl⟩
  · cases h
    exact .inr ⟨_, rfl⟩

theorem entry_ne_malformedJson {v : Value} {name : String} {fault : Json.Fault} :
    MaterialDescription.entry v name ≠ .error (.malformedJson fault) := by
  unfold MaterialDescription.entry
  split
  · split <;> nofun
  · nofun

theorem ofValue_ne_malformedJson {v : Value} {fault : Json.Fault} :
    MaterialDescription.ofValue v ≠ .error (.malformedJson fault) := by
  intro h
  rw [MaterialDescription.ofValue] at h
  obtain h | ⟨w, -, h⟩ := bind_eq_error_iff.1 h
  · exact entry_ne_malformedJson h
  obtain h | ⟨_, -, h⟩ := bind_eq_error_iff.1 h
  · unfold Algorithm.ofValue Algorithm.ofValue.refuse at h
    split at h
    · split at h <;> cases h
    · cases h
  obtain h | ⟨_, -, h⟩ := bind_eq_error_iff.1 h
  · exact entry_ne_malformedJson h
  obtain h | ⟨_, -, h⟩ := bind_eq_error_iff.1 h
  · exact entry_ne_malformedJson h
  cases h

/-- Only the JSON text of a description is JSON that is read of a seal. -/
theorem readSeal_eq_malformedJson_iff {d given : Value} {fault : Json.Fault} :
    readSeal lim d given = .error (.malformedJson fault) ↔
      d.readJson lim = .error (.malformedJson fault) := by
  rw [readSeal, bind_eq_error_iff]
  refine ⟨?_, .inl⟩
  rintro (read | ⟨v, -, h⟩)
  · exact read
  obtain h | ⟨_, -, h⟩ := bind_eq_error_iff.1 h
  · exact (ofValue_ne_malformedJson h).elim
  obtain h | ⟨_, -, h⟩ := bind_eq_error_iff.1 h
  · obtain ⟨_, other⟩ | ⟨_, other⟩ := exists_of_readBase64_eq_error h <;> cases other
  obtain h | ⟨_, -, h⟩ := bind_eq_error_iff.1 h
  · obtain ⟨_, other⟩ | ⟨_, other⟩ := exists_of_readBase64_eq_error h <;> cases other
  cases h

/-- A failure to read a seal is one of the seal, or nesting that is too deep. -/
theorem asMalformed_cases (why : Failure) :
    (∃ container, why = .malformedJson (.tooDeep container) ∧ asMalformed why = why) ∨
      asMalformed why = .malformedDescription why := by
  unfold asMalformed
  split
  · exact .inl ⟨_, rfl, rfl⟩
  · exact .inr rfl

/-! ## Keys -/

/-- With at least one iteration there are no keys only if there are too many iterations, or if the
master key has no bytes. -/
theorem deriveKeys_eq_error_iff (iterated : 1 ≤ s.iterations) {salt : List UInt8} :
    s.deriveKeys salt = .error why ↔
      (s.limits.iterations ≤ s.iterations ∧ why = .exceeded .tooLarge) ∨
        (s.iterations < s.limits.iterations ∧ s.masterKey.encoded = .error why) := by
  have positive : ¬ s.iterations < 0 := by omega
  have given : ¬ s.iterations = 0 := by omega
  rw [deriveKeys, checkedIterations, if_neg positive]
  by_cases many : s.limits.iterations ≤ s.iterations
  · rw [if_pos many]
    simp only [many, Int.not_lt.2 many, bind, Except.bind, true_and, false_and, or_false]
    exact ⟨fun h => (Except.error.inj h).symm, fun h => congrArg Except.error h.symm⟩
  · rw [if_neg many, if_neg given]
    simp only [many, Int.not_le.1 many, bind, Except.bind, true_and, false_and, false_or]
    cases s.masterKey.encoded with
    | error why' =>
      exact ⟨fun h => congrArg Except.error (Except.error.inj h),
        fun h => congrArg Except.error (Except.error.inj h)⟩
    | ok bytes => exact ⟨nofun, nofun⟩

/-! ## Verification -/

/-- Verification fails because the seal is not read, because there are no keys or no signed bytes,
or because the signature is wrong. -/
theorem verifiedKey_eq_error_iff {d given : Value} :
    s.verifiedKey record p context d given = .error why ↔
      (∃ cause, readSeal s.limits.describing d given = .error cause ∧ asMalformed cause = why) ∨
        ∃ salt code, readSeal s.limits.describing d given = .ok (salt, code) ∧
          (s.deriveKeys salt = .error why ∨
            ∃ keys, s.deriveKeys salt = .ok keys ∧
              (signingPayload s.limits.verifying record p context d = .error why ∨
                ∃ payload, signingPayload s.limits.verifying record p context d = .ok payload ∧
                  Crypto.Hmac.mac keys.2 payload ≠ code ∧ why = .wrongSignature)) := by
  unfold verifiedKey
  cases readSeal s.limits.describing d given with
  | error cause => simp [Except.mapError, bind, Except.bind]
  | ok parts =>
    obtain ⟨salt, code⟩ := parts
    cases derived : s.deriveKeys salt with
    | error why' => simp [Except.mapError, bind, Except.bind, derived]
    | ok keys =>
      obtain ⟨encryption, signing⟩ := keys
      cases signed : signingPayload s.limits.verifying record p context d with
      | error why' =>
        simp [Except.mapError, bind, Except.bind, derived, signature, signed, Except.map]
      | ok payload =>
        by_cases same : Crypto.Hmac.mac signing payload = code
        · simp [Except.mapError, bind, Except.bind, derived, signature, signed, Except.map, same,
            pure, Except.pure]
        · simp [Except.mapError, bind, Except.bind, derived, signature, signed, Except.map, same,
            throw, throwThe, MonadExceptOf.throw, eq_comm (a := why)]

/-- Whether a record is made up of a signature, a description and other attributes. -/
def Carries (s : Sealer) (record : Record) (given d : Value) (body : Record) : Prop :=
  ∃ signature description, s.signatureName.toName = .ok signature ∧
    s.descriptionName.toName = .ok description ∧ record.get? signature = some given ∧
    record.get? description = some d ∧ body = (record.erase signature).erase description

/-- A record with a seal is verified and then decrypted. -/
theorem Carries.openRecord_eq {given d : Value} {body : Record}
    (h : s.Carries record given d body) :
    s.openRecord record p context =
      (s.verifiedKey record p context d given).bind fun key =>
        decryptAttributes s.limits.decrypting key p body := by
  obtain ⟨signature, description, named, named', signed, described, rfl⟩ := h
  rw [openRecord_of_signed named signed, named']
  simp only [Except.bind, described]
  exact openSigned_eq _ _ _

/-- Whether the signature of a record was found to be right, so that the other attributes are
decrypted with a key. -/
def Verified (s : Sealer) (record : Record) (p : FieldPolicies) (context : Context)
    (key : List UInt8) (body : Record) : Prop :=
  ∃ given d, s.Carries record given d body ∧ s.verifiedKey record p context d given = .ok key

theorem Verified.openRecord_eq {body : Record} (h : s.Verified record p context key body) :
    s.openRecord record p context = decryptAttributes s.limits.decrypting key p body := by
  obtain ⟨given, d, carried, verified⟩ := h
  rw [carried.openRecord_eq, verified]
  rfl

/-! ## Ends -/

/-- The ends of opening that it promises. A record comes out if there was nothing to protect or
after its signature was verified. The failures are a signature that is missing, malformed or wrong
and, after it was verified, an attribute that is not decrypted, or whose plain text is not the JSON
text of a value. -/
inductive Documented (s : Sealer) (record : Record) (p : FieldPolicies) (context : Context) :
    Except Failure Record → Prop where
  | unprotected {signature : Name} (named : s.signatureName.toName = .ok signature)
      (unsigned : record.get? signature = none) (unflagged : ∀ e ∈ p, e.2.isAny = false) :
      Documented s record p context (.ok record)
  | opened {key : List UInt8} {body out : Record} (verified : s.Verified record p context key body)
      (decrypted : decryptAttributes s.limits.decrypting key p body = .ok out) :
      Documented s record p context (.ok out)
  | notSigned (missing : ∀ given d body, ¬ s.Carries record given d body) :
      Documented s record p context (.error .notSigned)
  | malformed {given d : Value} {body : Record} {cause : Failure}
      (carried : s.Carries record given d body)
      (unread : readSeal s.limits.describing d given = .error cause) :
      Documented s record p context (.error (.malformedDescription cause))
  | wrongSignature {given d : Value} {body : Record} (carried : s.Carries record given d body)
      (refused : s.verifiedKey record p context d given = .error .wrongSignature) :
      Documented s record p context (.error .wrongSignature)
  | undecryptable {key : List UInt8} {body : Record} {name : Name} {v : Value} {fault : CipherFault}
      (verified : s.Verified record p context key body)
      (reached : Reaches s.limits.decrypting key p body name v) :
      Documented s record p context (.error (.undecryptable name.shown fault))
  | notUtf8 {key plain : List UInt8} {body : Record} {name : Name} {v : Value}
      {fault : Text.DecodeFault} (verified : s.Verified record p context key body)
      (reached : Reaches s.limits.decrypting key p body name v)
      (authentic : Authentic key name v plain)
      (unread : Text.ofUtf8 plain = .error fault) :
      Documented s record p context (.error (.malformedText fault))
  | notJson {key plain : List UInt8} {body : Record} {name : Name} {v : Value} {cs : List Char}
      {fault : Json.Fault} (verified : s.Verified record p context key body)
      (reached : Reaches s.limits.decrypting key p body name v)
      (authentic : Authentic key name v plain)
      (decoded : Text.ofUtf8 plain = .ok cs)
      (unread : Json.readUnmarked s.limits.decrypting (Text.points cs) = .error fault)
      (shallow : ∀ container, fault ≠ .tooDeep container) :
      Documented s record p context (.error (.malformedJson fault))

/-- The other failures of opening, and what brings each of them about: the name of the signature or
of the description cannot be a name; the description is nested too deep; there are too many
iterations; the master key has no bytes; what is signed is nested too deep or holds a number that is
too long; the name of an encrypted attribute has no bytes; what was encrypted is nested too deep. -/
inductive Undocumented (s : Sealer) (record : Record) (p : FieldPolicies) (context : Context) :
    Failure → Prop where
  | signatureName {kind : String}
      (unnamed : s.signatureName.toName = .error (.mismatched (.notName kind))) :
      Undocumented s record p context (.mismatched (.notName kind))
  | descriptionName {signature : Name} {given : Value} {kind : String}
      (named : s.signatureName.toName = .ok signature) (signed : record.get? signature = some given)
      (unnamed : s.descriptionName.toName = .error (.mismatched (.notName kind))) :
      Undocumented s record p context (.mismatched (.notName kind))
  | description {given d : Value} {body : Record} {container : Json.Container}
      (carried : s.Carries record given d body)
      (deep : d.readJson s.limits.describing = .error (.malformedJson (.tooDeep container))) :
      Undocumented s record p context (.malformedJson (.tooDeep container))
  | iterations {given d : Value} {body : Record} {parts : List UInt8 × List UInt8}
      (carried : s.Carries record given d body)
      (read : readSeal s.limits.describing d given = .ok parts)
      (many : s.limits.iterations ≤ s.iterations) :
      Undocumented s record p context (.exceeded .tooLarge)
  | masterKey {given d : Value} {body : Record} {parts : List UInt8 × List UInt8}
      {fault : Text.EncodeFault} (carried : s.Carries record given d body)
      (read : readSeal s.limits.describing d given = .ok parts)
      (few : s.iterations < s.limits.iterations)
      (unencoded : s.masterKey.encoded = .error (.unencodable fault)) :
      Undocumented s record p context (.unencodable fault)
  | signedPart {given d : Value} {body : Record} {salt code : List UInt8}
      {keys : List UInt8 × List UInt8} {obstacle : Json.Obstacle}
      (carried : s.Carries record given d body)
      (read : readSeal s.limits.describing d given = .ok (salt, code))
      (derived : s.deriveKeys salt = .ok keys) (limit : obstacle.IsLimit)
      (unwritten : signingPayload s.limits.verifying record p context d =
        .error (.unwritable obstacle)) :
      Undocumented s record p context (.unwritable obstacle)
  | attributeName {key bs : List UInt8} {body : Record} {name : Name} {v : Value}
      {fault : Text.EncodeFault} (verified : s.Verified record p context key body)
      (reached : Reaches s.limits.decrypting key p body name v)
      (bytes : cipherBytes name v = .ok bs)
      (unencoded : (Value.ofName name).encoded = .error (.unencodable fault)) :
      Undocumented s record p context (.unencodable fault)
  | plain {key plain : List UInt8} {body : Record} {name : Name} {v : Value} {cs : List Char}
      {container : Json.Container} (verified : s.Verified record p context key body)
      (reached : Reaches s.limits.decrypting key p body name v)
      (authentic : Authentic key name v plain)
      (decoded : Text.ofUtf8 plain = .ok cs)
      (deep : Json.readUnmarked s.limits.decrypting (Text.points cs) =
        .error (.tooDeep container)) :
      Undocumented s record p context (.malformedJson (.tooDeep container))

theorem Undocumented.not_documented (h : s.Undocumented record p context why) :
    ¬ s.Documented record p context (.error why) := by
  intro documented
  cases documented with
  | notJson _ _ _ _ _ shallow =>
    cases h with
    | description => exact shallow _ rfl
    | plain => exact shallow _ rfl
  | _ => cases h

/-- What brings a failure about makes opening fail so. -/
theorem Undocumented.openRecord_eq (iterated : 1 ≤ s.iterations) (hp : p.Distinct)
    (h : s.Undocumented record p context why) : s.openRecord record p context = .error why := by
  have unverified {given d : Value} {body : Record} {why : Failure}
      (carried : s.Carries record given d body)
      (failed : s.verifiedKey record p context d given = .error why) :
      s.openRecord record p context = .error why := by
    rw [carried.openRecord_eq, failed]
    rfl
  cases h with
  | signatureName unnamed => simp only [openRecord, unnamed, bind, Except.bind]
  | descriptionName named signed unnamed =>
    rw [openRecord_of_signed named signed, unnamed]
    rfl
  | description carried deep =>
    exact unverified carried (verifiedKey_eq_error_iff.2
      (.inl ⟨_, readSeal_eq_malformedJson_iff.2 deep, rfl⟩))
  | iterations carried read many =>
    exact unverified carried (verifiedKey_eq_error_iff.2
      (.inr ⟨_, _, read, .inl ((deriveKeys_eq_error_iff iterated).2 (.inl ⟨many, rfl⟩))⟩))
  | masterKey carried read few unencoded =>
    exact unverified carried (verifiedKey_eq_error_iff.2
      (.inr ⟨_, _, read, .inl ((deriveKeys_eq_error_iff iterated).2 (.inr ⟨few, unencoded⟩))⟩))
  | signedPart carried read derived _ unwritten =>
    exact unverified carried (verifiedKey_eq_error_iff.2
      (.inr ⟨_, _, read, .inr ⟨_, derived, .inl unwritten⟩⟩))
  | attributeName verified reached bytes unencoded =>
    rw [verified.openRecord_eq]
    refine reached.decryptAttributes_eq hp ?_
    simp only [decryptValue, bytes, unencoded, bind, Except.bind]
  | plain verified reached authentic decoded deep =>
    rw [verified.openRecord_eq]
    refine reached.decryptAttributes_eq hp ?_
    rw [authentic.decryptValue_eq, decoded]
    simp only [Except.mapError, bind, Except.bind, deep]

section

variable (text : s.masterKey.kindName = "str") (iterated : 1 ≤ s.iterations) (hp : p.Distinct)
  (texts : Assoc.OfAttributes p) (storable : record.Storable fun _ => True)
  (stored : context.IsStorable)

include text iterated hp texts storable stored

/-- Verification fails with one of the ends of opening. -/
theorem documented_or_undocumented_of_unverified {given d : Value} {body : Record}
    (carried : s.Carries record given d body)
    (h : s.verifiedKey record p context d given = .error why) :
    s.Documented record p context (.error why) ∨ s.Undocumented record p context why := by
  obtain ⟨cause, unread, rfl⟩ | ⟨salt, code, read, failed⟩ := verifiedKey_eq_error_iff.1 h
  · rcases asMalformed_cases cause with ⟨container, rfl, same⟩ | malformed
    · rw [same]
      exact .inr (.description carried (readSeal_eq_malformedJson_iff.1 unread))
    · rw [malformed]
      exact .inl (.malformed carried unread)
  rcases failed with underived | ⟨keys, derived, unsigned | ⟨payload, signed, differ, rfl⟩⟩
  · rcases (deriveKeys_eq_error_iff iterated).1 underived with ⟨many, rfl⟩ | ⟨few, unencoded⟩
    · exact .inr (.iterations carried read many)
    · obtain ⟨fault, rfl⟩ := Value.exists_of_encoded_eq_error text unencoded
      exact .inr (.masterKey carried read few unencoded)
  · obtain ⟨-, description, -, -, -, described, -⟩ := id carried
    obtain ⟨obstacle, limit, rfl⟩ := exists_isLimit_of_signingPayload hp texts
      (storable.mono fun _ _ => trivial) stored (storable description d trivial described) unsigned
    exact .inr (.signedPart carried read derived limit unsigned)
  · exact .inl (.wrongSignature carried h)

omit text iterated storable stored in
/-- Decryption fails with one of the ends of opening. -/
theorem documented_or_undocumented_of_undecrypted {body : Record}
    (verified : s.Verified record p context key body)
    (h : decryptAttributes s.limits.decrypting key p body = .error why) :
    s.Documented record p context (.error why) ∨ s.Undocumented record p context why := by
  obtain ⟨name, v, reached, stops⟩ := exists_reaches_of_decryptAttributes_eq_error hp h
  obtain ⟨before, flags, after, -, listed, -, -, -⟩ := id reached
  have isText : name.IsAttribute := texts name (by simp [listed, Assoc.keys])
  rcases decryptValue_eq_error_cases isText stops with
    ⟨fault, rfl⟩ | ⟨bs, fault, bytes, unencoded, rfl⟩ | ⟨plain, authentic, unread⟩
  · exact .inl (.undecryptable verified reached)
  · exact .inr (.attributeName verified reached bytes unencoded)
  rcases unread with ⟨fault, broken, rfl⟩ | ⟨cs, fault, decoded, unread, rfl⟩
  · exact .inl (.notUtf8 verified reached authentic broken)
  · cases fault with
    | tooDeep container => exact .inr (.plain verified reached authentic decoded unread)
    | _ =>
      refine .inl (.notJson verified reached authentic decoded unread ?_)
      intro container same
      cases same

/-- Opening has no other ends. -/
theorem documented_or_undocumented :
    s.Documented record p context (s.openRecord record p context) ∨
      ∃ why, s.Undocumented record p context why := by
  cases named : s.signatureName.toName with
  | error why =>
    obtain rfl := Value.toName_eq_error named
    exact .inr ⟨_, .signatureName named⟩
  | ok signature =>
    cases signed : record.get? signature with
    | none =>
      rw [openRecord_of_unsigned named signed]
      split
      · refine .inl (.notSigned ?_)
        rintro given d body ⟨_, -, other, -, found, -⟩
        cases named.symm.trans other
        cases signed.symm.trans found
      · next unflagged =>
        refine .inl (.unprotected named signed ?_)
        simpa using unflagged
    | some given =>
      cases named' : s.descriptionName.toName with
      | error why =>
        obtain rfl := Value.toName_eq_error named'
        exact .inr ⟨_, .descriptionName named signed named'⟩
      | ok description =>
        cases described : record.get? description with
        | none =>
          rw [openRecord_of_signed named signed, named']
          simp only [Except.bind, described]
          refine .inl (.notSigned ?_)
          rintro given' d body ⟨-, _, -, other, -, found, -⟩
          cases named'.symm.trans other
          cases described.symm.trans found
        | some d =>
          have carried : s.Carries record given d ((record.erase signature).erase description) :=
            ⟨signature, description, named, named', signed, described, rfl⟩
          rw [carried.openRecord_eq]
          cases verified : s.verifiedKey record p context d given with
          | error why =>
            exact (documented_or_undocumented_of_unverified text iterated hp texts storable stored
              carried verified).imp_right fun h => ⟨why, h⟩
          | ok key =>
            have verified : s.Verified record p context key _ := ⟨given, d, carried, verified⟩
            show Documented _ _ _ _ (decryptAttributes s.limits.decrypting key p _) ∨ _
            cases ran : decryptAttributes s.limits.decrypting key p
                ((record.erase signature).erase description) with
            | error why =>
              exact (documented_or_undocumented_of_undecrypted hp texts verified ran).imp_right
                fun h => ⟨why, h⟩
            | ok out => exact .inl (.opened verified ran)

end

/-- With a text as master key and at least one iteration, opening a record of values that documents
hold ends as it promises, unless something that brings another failure about is there, which it then
fails with. -/
theorem documented_iff (s : Sealer) (record : Record) (p : FieldPolicies) (context : Context)
    (text : s.masterKey.kindName = "str") (iterated : 1 ≤ s.iterations) (hp : p.Distinct)
    (texts : Assoc.OfAttributes p) (storable : record.Storable fun _ => True)
    (stored : context.IsStorable) :
    (s.Documented record p context (s.openRecord record p context) ↔
        ∀ why, ¬ s.Undocumented record p context why) ∧
      ∀ why, s.Undocumented record p context why → s.openRecord record p context = .error why := by
  refine ⟨⟨?_, ?_⟩, fun why h => h.openRecord_eq iterated hp⟩
  · intro documented why h
    rw [h.openRecord_eq iterated hp] at documented
    exact h.not_documented documented
  · intro none
    rcases documented_or_undocumented text iterated hp texts storable stored with h | ⟨why, h⟩
    · exact h
    · exact (none why h).elim

/-- A record whose description is nested too deep. -/
def sampleDeep : Record := [
  ("id", .text "a"),
  ("*desc*", .text (String.ofList (List.replicate (sample.limits.describeDepth + 1) '['))),
  ("*sig*", .text "AAAA")]

/-- A description that is nested too deep is not reported as a malformed one, a signature that is
missing is. -/
theorem documented_iff_sample :
    sample.openRecord sampleDeep samplePolicies sampleContext =
        .error (.malformedJson (.tooDeep .array)) ∧
      ¬ sample.Documented sampleDeep samplePolicies sampleContext
        (sample.openRecord sampleDeep samplePolicies sampleContext) ∧
      sample.Documented [("id", .text "a")] samplePolicies sampleContext
        (sample.openRecord [("id", .text "a")] samplePolicies sampleContext) := by
  have context : sampleContext.IsStorable := ⟨.text _, .text _, .null⟩
  have deep : sample.Undocumented sampleDeep samplePolicies sampleContext
      (.malformedJson (.tooDeep .array)) := by
    exact .description ⟨"*sig*", "*desc*", rfl, rfl, rfl, rfl, rfl⟩
      (Value.readJson_replicate (Nat.lt_succ_self _))
  have both (record : Record) (storable : ∀ e ∈ record, e.2.IsStorable) :=
    documented_iff sample record samplePolicies sampleContext rfl (by decide) distinct_sample.2.1
      ofAttributes_sample.1 (Record.storable_of_forall storable) context
  obtain ⟨documented, fails⟩ := both sampleDeep (by simp [sampleDeep, Value.IsStorable.text])
  refine ⟨fails _ deep, fun h => documented.1 h _ deep, ?_⟩
  refine (both [("id", .text "a")] (by simp [Value.IsStorable.text])).1.2 ?_
  have bare {given d : Value} {body : Record}
      (carried : sample.Carries [("id", .text "a")] given d body) : False := by
    obtain ⟨signature, -, named, -, signed, -⟩ := carried
    cases named
    cases signed
  intro why h
  cases h with
  | signatureName unnamed => cases unnamed
  | descriptionName named signed unnamed => cases unnamed
  | description carried => exact bare carried
  | iterations carried => exact bare carried
  | masterKey carried => exact bare carried
  | signedPart carried => exact bare carried
  | attributeName verified =>
    obtain ⟨_, _, carried, -⟩ := verified
    exact bare carried
  | plain verified =>
    obtain ⟨_, _, carried, -⟩ := verified
    exact bare carried

end Sealer
end RecordSeal
