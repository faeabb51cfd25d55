import RecordSeal.Proofs.Catalog.Effective
import RecordSeal.Proofs.Mapper.Protection

set_option autoImplicit false

/-! # Keys in plain

Key lookup takes the last mapping that is marked as a key, and classification takes, for every
stored name, the last mapping that is stored under it. So a key is in plain unless a later mapping
that is no key is stored under its name, and what a save leaves in plain are the values that the
document key was made of (`Mapper.keys_plain_unless_shared`). -/

namespace RecordSeal

/-! ## Key names -/

theorem exists_split_of_getLast?_filter {α : Type} {f : α → Bool} {l : List α} {a : α}
    (h : (l.filter f).getLast? = some a) :
    ∃ before after, l = before ++ a :: after ∧ f a = true ∧ ∀ b ∈ after, f b = false := by
  obtain ⟨front, kept⟩ := List.getLast?_eq_some_iff.1 h
  obtain ⟨l₁, l₂, rfl, -, last⟩ := List.filter_eq_append_iff.1 kept
  obtain ⟨between, after, rfl, -, marked, none⟩ := List.filter_eq_cons_iff.1 last
  refine ⟨l₁ ++ between, after, by rw [List.append_assoc], marked, ?_⟩
  simpa using none

/-- The last mapping that is marked, with the mappings after it. -/
def LastMarked (isMarked : FieldMapping → Bool) (mappings : List FieldMapping) (m : FieldMapping)
    (after : List FieldMapping) : Prop :=
  (∃ before, mappings = before ++ m :: after) ∧ isMarked m = true ∧ ∀ k ∈ after, isMarked k = false

/-- The flags of a key: its own, which never encrypt, unless a later mapping is stored under its
name; then those of the last one that is. -/
structure KeyFlags (signedOnly : Bool) (m : FieldMapping) (after : List FieldMapping) (n : Name)
    (flags : Flags) : Prop where
  own : (storedNames after).contains n = false → flags.encrypt = false ∧
    (flags.sign = true ↔ m.markers.doNotTouch.isGiven = false)
  shared : ∀ between k rest l, after = between ++ k :: rest → k.attributeName.toName = .ok l →
    (l == n) = true → (storedNames rest).contains n = false →
      (flags.sign = true ↔ k.markers.doNotTouch.isGiven = false) ∧
      (flags.encrypt = true ↔ k.markers.doNotTouch.isGiven = false ∧ signedOnly = false ∧
        k.markers.doNotEncrypt.isGiven = false ∧ k.markers.hashKey.isGiven = false ∧
        k.markers.rangeKey.isGiven = false ∧ k.markers.version.isGiven = false)

/-- What policies say of the key name that is looked up among mappings, if one is found. -/
def KeyAgrees (isMarked : FieldMapping → Bool) (signedOnly : Bool) (mappings : List FieldMapping)
    (name : Value) (policies : FieldPolicies) : Prop :=
  name ≠ .null → ∃ m after n, LastMarked isMarked mappings m after ∧ m.attributeName = name ∧
    name.toName = .ok n ∧ KeyFlags signedOnly m after n (policies.flagsOf n)

section

variable {markers : Markers} {mappings : List FieldMapping} {p : ClassPolicy}

/-- The flags of a name are those of the last mapping that is stored under it. -/
theorem flagsOf_of_classifyWith {before after : List FieldMapping} {m : FieldMapping} {l n : Name}
    (h : classifyWith markers (before ++ m :: after) = .ok p)
    (named : m.attributeName.toName = .ok l)
    (same : (l == n) = true) (last : (storedNames after).contains n = false) :
    p.fields.flagsOf n = m.flags markers.doNotEncrypt := by
  rw [← ClassPolicy.contains_congr same] at last
  rw [FieldPolicies.flagsOf, ← Assoc.get?_congr p.fields same, get?_of_classifyWith h named last]
  rfl

theorem keyAgrees_of_classifyWith (h : classifyWith markers mappings = .ok p)
    (named : ∀ m ∈ mappings, ∃ n, m.attributeName.toName = .ok n) {isMarked : FieldMapping → Bool}
    (isKey : ∀ m, isMarked m = true → m.isKey = true) :
    KeyAgrees isMarked markers.doNotEncrypt mappings
      (((mappings.filter isMarked).getLast?.map (·.attributeName)).getD .null) p.fields := by
  intro given
  cases found : (mappings.filter isMarked).getLast? with
  | none =>
    rw [found] at given
    exact absurd rfl given
  | some m =>
    obtain ⟨before, after, rfl, marked, none⟩ := exists_split_of_getLast?_filter found
    obtain ⟨n, hn⟩ := named m (by simp)
    refine ⟨m, after, n, ⟨⟨before, rfl⟩, marked, none⟩, rfl, hn, ?_, ?_⟩
    · intro alone
      rw [flagsOf_of_classifyWith h hn BEq.rfl alone]
      exact ⟨FieldMapping.encrypt_of_isKey (isKey m marked) _, m.sign_flags _⟩
    · rintro between k rest l rfl hl same last
      have split : before ++ m :: (between ++ k :: rest) =
          (before ++ m :: between) ++ k :: rest := by simp
      rw [split] at h
      rw [flagsOf_of_classifyWith h hl same last]
      exact ⟨k.sign_flags _, k.encrypt_flags _⟩

end

/-! ## Keys of what is saved -/

namespace Mapper

variable {m : Mapper} {s : Sealer} {c : Catalog} {given : Instance} {isPartial : Bool}
  {key : String} {stored : Record}

/-- The document key of what is stored was made of its dump. -/
theorem Stores.exists_keyOf (h : m.Stores s c given isPartial key stored) {hashKey rangeKey : Value}
    (keys : m.keyNamesOf c given.model = .ok (hashKey, rangeKey)) :
    ∃ dumped, given.dump (c.forest.typeAt given.model) isPartial = .ok dumped ∧
      keyOf ⟨given.model, m.tableOf c given.model, hashKey, rangeKey, dumped, isPartial⟩ =
        .ok key := by
  obtain ⟨dumped, t, -, dump, parameters, made, -⟩ := h
  obtain ⟨_, _, keys', -, rfl⟩ := transformOf_eq_ok parameters
  cases keys.symm.trans keys'
  exact ⟨dumped, dump, made⟩

/-- What is not encrypted is stored as it is dumped, unless its name is reserved. -/
theorem Stores.get?_of_plain (h : m.Stores s c given isPartial key stored) {p : ClassPolicy}
    (policy : m.hooks.policyOf c given.model = .ok p)
    (active : p.doNotTouch = false ∧ p.fields.Distinct) {dumped : Record}
    (dump : given.dump (c.forest.typeAt given.model) isPartial = .ok dumped) {n : Name}
    (plain : (p.fields.flagsOf n).encrypt = false) (unreserved : ¬ s.IsReserved n) :
    stored.get? n = dumped.get? n := by
  obtain ⟨p', dumped', policy', dump', sealing⟩ := h.exists_isSealed
  obtain rfl : p = p' := Except.ok.inj (policy.symm.trans policy')
  obtain rfl : dumped = dumped' := Except.ok.inj (dump.symm.trans dump')
  obtain ⟨signature, description, context, salt, hs, hd, sealed_⟩ := sealing active.1 active.2
  exact sealed_.get?_of_plain plain ((Sealer.not_isReserved_iff hs hd n).1 unreserved)

/-- Key lookup and classification agree on the keys of a type unless a later mapping is stored under
the name of a key: keys are not encrypted, and they are signed unless they are exempt. Whatever a
mapper saves holds the keys that are not encrypted, if their names are not reserved, as they were
when the document key was made of them. -/
theorem keys_plain_unless_shared (place : RegistryId) (c : Catalog) (id : ModelId) (log : Log)
    {mappings : List FieldMapping}
    (active : ((Provider.registry place).markers c id).doNotTouch = false)
    (held : (((Provider.registry place).fieldMappings id).exec c log).1 = .ok mappings)
    (named : ∀ m ∈ mappings, ∃ n, m.attributeName.toName = .ok n) :
    ∃ p hashKey rangeKey c₁ c₂,
      ((Provider.registry place).classify id).exec c log = (.ok p, c₁, log) ∧
      (Catalog.onRegistry place (Registry.keyNames c.forest id)).exec c log =
        (.ok (hashKey, rangeKey), c₂, log) ∧
      KeyAgrees (·.markers.hashKey.isGiven) ((Provider.registry place).markers c id).doNotEncrypt
        mappings hashKey p.fields ∧
      KeyAgrees (·.markers.rangeKey.isGiven) ((Provider.registry place).markers c id).doNotEncrypt
        mappings rangeKey p.fields ∧
      ∀ (m : Mapper) (s : Sealer) (given : Instance) (isPartial : Bool) (σ σ' : Session)
          (log log' : Log) (key : String),
        m.registry = place → m.hooks.policyOf c id = .ok p → m.hooks.encryptor = .sealer s →
        c.Agrees σ.catalog → σ.Holds m.store → given.model = id →
        (m.save given isPartial).exec σ log = (.ok key, σ', log') →
        ∃ table d dumped, (m.tableOf c id).toName = .ok table ∧
          (σ'.documents m.store table).get? (.text key) = some d ∧
          given.dump (c.forest.typeAt id) isPartial = .ok dumped ∧
          keyOf ⟨id, m.tableOf c id, hashKey, rangeKey, dumped, isPartial⟩ = .ok key ∧
          ∀ name n, name = hashKey ∨ name = rangeKey → name.toName = .ok n →
            (p.fields.flagsOf n).encrypt = false → ¬ s.IsReserved n →
            d.record.get? n = dumped.get? n := by
  have found := Provider.mappingsOf_of_exec held
  obtain ⟨p, worked⟩ :=
    exists_classifyWith ((Provider.registry place).markers c id) named
  obtain ⟨c₁, -, classified⟩ := Catalog.exec_classify (.registry place) id c log
  obtain ⟨c₂, -, keyed⟩ := Catalog.exec_onRegistry
    (Registry.exec_keyNames c.forest id (c.registryAt place) log)
  have policy : (Provider.registry place).classified c id = .ok p := by
    rw [Provider.classified, if_neg (by simp [active]), found]
    exact worked
  have keys : ((c.registryAt place).mappingsOf c.forest id).map Registry.keyNamesOf =
      .ok (Registry.keyNamesOf mappings) := congrArg (Except.map _) found
  rw [policy] at classified
  rw [keys] at keyed
  refine ⟨p, _, _, c₁, c₂, classified, keyed, ?_, ?_, ?_⟩
  · exact keyAgrees_of_classifyWith worked named
      fun m marked => by simp [FieldMapping.isKey, marked]
  · exact keyAgrees_of_classifyWith worked named
      fun m marked => by simp [FieldMapping.isKey, marked]
  rintro m s given isPartial σ σ' log log' key rfl hooks seals agrees present rfl ran
  obtain ⟨table, d, tabled, stores, there⟩ :=
    exists_document_of_save log agrees present seals ran
  obtain ⟨dumped, dump, made⟩ := stores.exists_keyOf (keys : m.keyNamesOf c given.model = _)
  refine ⟨table, d, dumped, tabled, there, dump, made, ?_⟩
  intro name n _ hn plain unreserved
  exact stores.get?_of_plain hooks (active_of_classifyWith worked) dump plain unreserved

/-- The key of the sample instance is stored as it was when the document key was made of it. -/
theorem keys_plain_unless_shared_sample : ∃ σ log d,
    (sampleMapper.save sampleInstance false).exec sampleStart {} = (.ok "a", σ, log) ∧
    (σ.documents sampleMapper.store "Note").get? (.text "a") = some d ∧
    d.record.get? "id" = some (.text "a") := by
  obtain ⟨σ, log, ran⟩ := save_sample
  have named : ∀ m ∈ sampleMappings, ∃ n, m.attributeName.toName = .ok n := by
    simp only [sampleMappings, List.forall_mem_cons]
    exact ⟨⟨_, rfl⟩, ⟨_, rfl⟩, by simp⟩
  have held : (((Provider.registry ⟨0⟩).fieldMappings ⟨6⟩).exec sampleStart.catalog {}).1 =
      .ok sampleMappings := rfl
  obtain ⟨p, hashKey, rangeKey, c₁, c₂, classified, keys, hash, -, saved⟩ :=
    keys_plain_unless_shared ⟨0⟩ sampleStart.catalog ⟨6⟩ {} rfl held named
  have policy : sampleMapper.hooks.policyOf sampleStart.catalog ⟨6⟩ = .ok p :=
    congrArg Prod.fst classified
  obtain ⟨hashed, -⟩ : Value.text "id" = hashKey ∧ Value.null = rangeKey :=
    Prod.mk.inj (Except.ok.inj (congrArg Prod.fst keys))
  subst hashed
  obtain ⟨m, after, n, ⟨⟨before, split⟩, marked, -⟩, -, hn, flags⟩ := hash (by simp)
  cases hn
  have plain : (p.fields.flagsOf "id").encrypt = false := by
    -- The hash key is the first mapping, and the one after it has another name.
    cases before with
    | nil =>
      cases split
      exact (flags.own rfl).1
    | cons first before =>
      have later : m ∈ sampleMappings.tail := by
        rw [split]
        simp
      obtain rfl := List.mem_singleton.1 later
      cases marked
  obtain ⟨table, d, dumped, tabled, there, dump, -, kept⟩ :=
    saved sampleMapper .sample sampleInstance false sampleStart σ {} log "a"
      rfl policy rfl (.refl _)
      ⟨by decide, by decide⟩ rfl ran
  cases tabled
  cases dump
  have unreserved : ¬ Sealer.sample.IsReserved "id" := by
    rw [Sealer.isReserved_iff rfl rfl]
    decide
  exact ⟨σ, log, d, ran, there, kept _ "id" (.inl rfl) rfl plain unreserved⟩

end Mapper

end RecordSeal
