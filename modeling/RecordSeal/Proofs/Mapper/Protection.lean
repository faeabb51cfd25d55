import RecordSeal.Proofs.Catalog.History
import RecordSeal.Proofs.Mapper.Refinement
import RecordSeal.Proofs.Seal.Dependence

set_option autoImplicit false

/-! # What a save leaves in plain

The policy of a type that nobody registers lists the names that classification expects its fields to
be stored under, and a dump writes each field under a name of its own. The two are the same unless a
field is written under the empty name (`Field.storedName_eq_writeKey`). So a save encrypts every
field that its markers do not exempt, and leaves a field of the empty name as it is
(`Mapper.ciphers_of_save`). -/

namespace RecordSeal

/-! ## Names of fields -/

theorem Field.storedName_eq_writeKey {f : Field} (declared : f.IsDeclared)
    (named : f.writeName ≠ some "") (name : String) : f.storedName name = f.writeKey name := by
  rw [storedName, writeKey]
  cases written : f.writeName with
  | none =>
    rw [declared written]
    rfl
  | some key =>
    have given : key ≠ "" := by
      rintro rfl
      exact named written
    simp [Option.filter, given]

theorem Field.storedName_ne_empty (f : Field) {name : String} (named : name ≠ "") :
    f.storedName name ≠ "" := by
  rw [storedName]
  have given (o : Option String) : o.filter (· ≠ "") ≠ some "" := by
    intro found
    simpa using (Option.filter_eq_some_iff.1 found).2
  cases written : f.writeName.filter (· ≠ "") with
  | some key =>
    intro empty
    exact given f.writeName (written.trans (congrArg some empty))
  | none =>
    cases alias_ : f.aliasName.filter (· ≠ "") with
    | some key =>
      intro empty
      exact given f.aliasName (alias_.trans (congrArg some empty))
    | none => exact named

/-! ## Mappings of fields -/

namespace FieldMapping

theorem attributeName_of_ofField {name : String} {f : Field} {m : FieldMapping}
    (h : ofField name f = .ok m) : m.attributeName = .text (f.storedName name) := by
  rw [ofField] at h
  split at h
  · split at h
    · cases h
    · rw [ofArguments] at h
      dsimp only at h
      split at h
      · cases h
      · split at h
        · cases h
          rfl
        · cases h
  · cases h

/-- Whether the markers of a field do not exempt it from encryption. -/
structure IsProtected (m : FieldMapping) : Prop where
  key : m.isKey = false
  version : m.markers.version.isGiven = false
  doNotEncrypt : m.markers.doNotEncrypt.isGiven = false
  doNotTouch : m.markers.doNotTouch.isGiven = false

theorem IsProtected.flags_eq {m : FieldMapping} (h : m.IsProtected) :
    m.flags false = ⟨true, true⟩ := by
  rw [flags, h.doNotTouch, h.doNotEncrypt, h.key, h.version]
  rfl

end FieldMapping

/-- Every field has a mapping, under the name that it is expected to be stored under. -/
theorem Registry.mappingsOfFields_spec {fields : List (String × Field)}
    {mappings : List FieldMapping} (h : mappingsOfFields fields = .ok mappings) :
    storedNames mappings = fields.map (fun e => .text (e.2.storedName e.1)) ∧
      ∀ e ∈ fields, ∃ m ∈ mappings, FieldMapping.ofField e.1 e.2 = .ok m := by
  induction fields generalizing mappings with
  | nil =>
    cases h
    exact ⟨rfl, by simp⟩
  | cons e rest ih =>
    obtain ⟨name, field⟩ := e
    rw [mappingsOfFields] at h
    obtain ⟨m, first, h⟩ := exists_of_bind_eq_ok h
    obtain ⟨tail, others, h⟩ := exists_of_bind_eq_ok h
    cases h
    obtain ⟨names, all⟩ := ih others
    refine ⟨?_, List.forall_mem_cons.2 ⟨⟨m, List.mem_cons_self .., first⟩, ?_⟩⟩
    · rw [storedNames, List.filterMap_cons, FieldMapping.attributeName_of_ofField first,
        ← storedNames, names]
      rfl
    · intro e he
      obtain ⟨m', hm, made⟩ := all e he
      exact ⟨m', List.mem_cons_of_mem _ hm, made⟩

theorem Registry.mappingsOfFields_of_worked {f : Forest} {id : ModelId}
    {mappings : List FieldMapping} (h : ({} : Registry).mappingsOf f id = .ok mappings) :
    mappingsOfFields (f.typeAt id).fields = .ok mappings := by
  change (if (f.typeAt id).isDocument then mappingsOfFields (f.typeAt id).fields
    else .error _) = _ at h
  split at h
  · exact h
  · cases h

/-! ## Policies of fields -/

/-- The fields of a type are protected as their markers say, if no two of them are written under one
name and none under the empty one. -/
theorem classified_of_fields {fields : List (String × Field)} {mappings : List FieldMapping}
    {markers : Markers} {p : ClassPolicy} (made : Registry.mappingsOfFields fields = .ok mappings)
    (classified : classifyWith markers mappings = .ok p)
    (declared : ∀ e ∈ fields, e.2.IsDeclared)
    (apart : (fields.map fun e => e.2.writeKey e.1).Nodup)
    (named : ∀ e ∈ fields, e.2.writeName ≠ some "") :
    ∀ e ∈ fields, ∃ m, FieldMapping.ofField e.1 e.2 = .ok m ∧
      p.fields.flagsOf (.text (e.2.writeKey e.1)) = m.flags markers.doNotEncrypt := by
  obtain ⟨stored, all⟩ := Registry.mappingsOfFields_spec made
  have keys : storedNames mappings = (fields.map fun e => e.2.writeKey e.1).map Name.text := by
    rw [stored, List.map_map]
    refine List.map_congr_left ?_
    intro e he
    rw [Field.storedName_eq_writeKey (declared e he) (named e he)]
    rfl
  have wellNamed : WellNamed [] mappings := by
    refine ⟨?_, ?_, by simp⟩
    · rw [keys, List.pairwise_map]
      refine List.Pairwise.imp ?_ apart
      intro k l different
      simpa using different
    · intro n hn
      rw [keys] at hn
      obtain ⟨key, -, rfl⟩ := List.mem_map.1 hn
      exact ⟨key, rfl⟩
  intro e he
  obtain ⟨m, hm, mapped⟩ := all e he
  obtain ⟨n, hn, flags⟩ := (classified_of_classifyWith wellNamed classified).flags m hm
  refine ⟨m, mapped, ?_⟩
  rw [FieldMapping.attributeName_of_ofField mapped,
    Field.storedName_eq_writeKey (declared e he) (named e he)] at hn
  cases hn
  exact flags

/-- No policy of fields lists the empty name. -/
theorem get?_empty_of_fields {fields : List (String × Field)} {mappings : List FieldMapping}
    {markers : Markers} {p : ClassPolicy} (made : Registry.mappingsOfFields fields = .ok mappings)
    (classified : classifyWith markers mappings = .ok p) (named : ∀ e ∈ fields, e.1 ≠ "") :
    p.fields.get? (.text "") = none := by
  obtain ⟨pairs, flagged, rfl⟩ := exists_of_classifyWith classified
  refine Assoc.get?_ofList_of_not_mem ?_
  intro k hk
  rw [keys_namedFlags flagged, (Registry.mappingsOfFields_spec made).1] at hk
  obtain ⟨e, he, rfl⟩ := List.mem_map.1 hk
  simpa using Field.storedName_ne_empty e.2 (named e he)

/-! ## Sealed records -/

namespace Sealer

variable {s : Sealer} {signature description : Name} {policies : FieldPolicies}
  {context : Context} {salt : List UInt8} {dumped stored : Record}

/-- Whether a record that was sealed with a salt holds the encrypted form of what was dumped. -/
def HoldsCipher (s : Sealer) (salt : List UInt8) (dumped stored : Record) (n : Name) : Prop :=
  ∃ encryption signing v w, s.deriveKeys salt = .ok (encryption, signing) ∧
    dumped.get? n = some v ∧ stored.get? n = some w ∧
      IsCipher s.limits.encrypting encryption n v w

/-- A sealed record holds what is flagged in encrypted form, if its name is not reserved. -/
theorem IsSealed.holdsCipher
    (h : s.IsSealed signature description policies context salt dumped stored) {n : Name}
    {v : Value} {flags : Flags} (listed : (n, flags) ∈ policies) (encrypt : flags.encrypt = true)
    (found : dumped.get? n = some v) (free : ∀ k ∈ [signature, description], (k == n) = false) :
    s.HoldsCipher salt dumped stored n := by
  obtain ⟨now, encryption, signing, encrypted, payload, keys, encrypts, -, rfl⟩ := h
  obtain ⟨w, there, cipher⟩ := encrypts.ciphers _ listed encrypt v found
  refine ⟨encryption, signing, v, w, keys, found, ?_, cipher⟩
  rw [Assoc.get?_insert, if_neg (by simp [free signature]), Assoc.get?_insert,
    if_neg (by simp [free description]), there]

end Sealer

namespace Mapper

variable {m : Mapper} {s : Sealer} {c : Catalog} {given : Instance} {isPartial : Bool}
  {key : String} {stored : Record}

/-- What is stored of an instance whose type is not exempt is its dump, sealed. -/
theorem Stores.exists_isSealed (h : m.Stores s c given isPartial key stored) :
    ∃ p dumped, m.hooks.policyOf c given.model = .ok p ∧
      given.dump (c.forest.typeAt given.model) isPartial = .ok dumped ∧
      (p.doNotTouch = false → p.fields.Distinct → ∃ signature description context salt,
        s.signatureName.toName = .ok signature ∧ s.descriptionName.toName = .ok description ∧
        s.IsSealed signature description p.fields context salt dumped stored) := by
  obtain ⟨dumped, t, σ, dump, parameters, -, agrees, encoded⟩ := h
  obtain ⟨hashKey, rangeKey, -, -, rfl⟩ := transformOf_eq_ok parameters
  obtain ⟨p, policy, -⟩ := exists_of_bind_eq_ok encoded
  refine ⟨p, dumped, ?_, dump, ?_⟩
  · rw [← m.hooks.policyOf_agrees agrees]
    exact policy
  · intro active distinct
    obtain ⟨_, made⟩ := Hooks.sealRecord_of_encoded policy active encoded
    obtain ⟨signature, description, hs, hd, sealed_⟩ :=
      Sealer.exists_isSealed_of_sealRecord distinct made
    exact ⟨signature, description, _, _, hs, hd, sealed_⟩

/-- A save of an instance whose type nobody registered, and which is neither exempt nor signed only,
stores every field encrypted and signed that its own markers do not exempt, if no field is written
under the empty name and no two under one. The seal takes the place of what is written under a
reserved name. What is written under the empty name is stored as it is dumped. -/
theorem ciphers_of_save {σ σ' : Session} {log log' : Log} {key : String}
    (history : Catalog.History given.model σ.catalog)
    (touched : (σ.catalog.forest.markersOf given.model).doNotTouch = false)
    (plain : (σ.catalog.forest.markersOf given.model).doNotEncrypt = false)
    (apart : ((σ.catalog.forest.typeAt given.model).fields.map fun e => e.2.writeKey e.1).Nodup)
    (asks : ∃ r, (σ.catalog.cacheAt m.hooks.cache).provider = .registry r)
    (seals : m.hooks.encryptor = .sealer s) (present : σ.Holds m.store)
    (ran : (m.save given false).exec σ log = (.ok key, σ', log')) :
    ∃ table d p dumped salt, (m.tableOf σ.catalog given.model).toName = .ok table ∧
      (σ'.documents m.store table).get? (.text key) = some d ∧
      m.hooks.policyOf σ.catalog given.model = .ok p ∧
      given.dump (σ.catalog.forest.typeAt given.model) false = .ok dumped ∧
      ((∀ e ∈ (σ.catalog.forest.typeAt given.model).fields, e.2.writeName ≠ some "") →
        ∀ e ∈ (σ.catalog.forest.typeAt given.model).fields,
          ∃ mapping, FieldMapping.ofField e.1 e.2 = .ok mapping ∧ (mapping.IsProtected →
            p.fields.flagsOf (.text (e.2.writeKey e.1)) = ⟨true, true⟩ ∧
            (¬ s.IsReserved (.text (e.2.writeKey e.1)) →
              s.HoldsCipher salt dumped d.record (.text (e.2.writeKey e.1))))) ∧
      ((∀ e ∈ (σ.catalog.forest.typeAt given.model).fields, e.1 ≠ "") →
        ¬ s.IsReserved (.text "") → d.record.get? (.text "") = dumped.get? (.text "")) := by
  have introspects := Catalog.introspects_of_history history
  obtain ⟨table, d, tabled, stores, found⟩ :=
      exists_document_of_save log (.refl _) present seals ran
  obtain ⟨p, dumped, policy, dump, sealing⟩ := stores.exists_isSealed
  obtain ⟨r, provider⟩ := asks
  obtain ⟨markers, within, exempt | ⟨-, mappings, worked, classified⟩⟩ :=
    introspects.policies m.hooks.cache r p provider policy
  · -- No marker is ever taken away, so the type was not exempt earlier either.
    rw [within.doNotTouch exempt.1] at touched
    cases touched
  have encrypts : markers.doNotEncrypt = false := by
    refine Bool.eq_false_of_not_eq_true fun signedOnly => ?_
    rw [within.doNotEncrypt signedOnly] at plain
    cases plain
  have made := Registry.mappingsOfFields_of_worked worked
  obtain ⟨active, distinct⟩ := active_of_classifyWith classified
  obtain ⟨signature, description, context, salt, hs, hd, sealed_⟩ := sealing active distinct
  have free (n : Name) := (Sealer.not_isReserved_iff hs hd n).1
  refine ⟨table, d, p, dumped, salt, tabled, found, policy, dump, ?_, ?_⟩
  · intro named e he
    obtain ⟨mapping, mapped, flags⟩ :=
      classified_of_fields made classified (introspects.built.declared _) apart named e he
    refine ⟨mapping, mapped, fun isProtected => ?_⟩
    rw [encrypts, isProtected.flags_eq] at flags
    refine ⟨flags, fun unreserved => ?_⟩
    obtain ⟨v, -, there⟩ := Instance.get?_dump dump apart he
    obtain ⟨listed, hl, same, encrypt⟩ := FieldPolicies.exists_of_encrypt (by rw [flags])
    obtain ⟨n, f⟩ := listed
    obtain rfl := Name.eq_of_text_beq (BEq.symm same)
    exact sealed_.holdsCipher hl encrypt there (free _ unreserved)
  · intro named unreserved
    refine sealed_.get?_of_plain ?_ (free _ unreserved)
    rw [FieldPolicies.flagsOf, get?_empty_of_fields made classified named]
    rfl

/-- The declarations of the fields of the sample type. -/
def sampleDeclarations : List Declaration := [
  { name := "id", type := .text, markers := { hashKey := .bool true } },
  { name := "body", type := .text }]

/-- The sample type is defined, and nobody registers it. -/
theorem history_sample : Catalog.History ⟨6⟩ sampleStart.catalog := by
  have defined : Catalog.History ⟨6⟩ _ := .define .start (show
    (Catalog.define Forest.sealedRoot "Note" "notes" none sampleDeclarations).exec {} {} =
      _ from rfl)
  exact .clear defined (show
    (Catalog.onRegistry Catalog.sharedRegistry Registry.clear).exec _ {} = _ from rfl)

/-- The body of the sample instance is stored encrypted. -/
theorem ciphers_of_save_sample : ∃ σ log d salt,
    (sampleMapper.save sampleInstance false).exec sampleStart {} = (.ok "a", σ, log) ∧
    (σ.documents sampleMapper.store "Note").get? (.text "a") = some d ∧
    Sealer.sample.HoldsCipher salt [("id", .text "a"), ("body", .text "b")] d.record "body" := by
  obtain ⟨σ, log, ran⟩ := save_sample
  have fields : (sampleStart.catalog.forest.typeAt sampleInstance.model).fields =
      sampleType.fields := rfl
  obtain ⟨table, d, p, dumped, salt, tabled, found, -, dump, ciphers, -⟩ :=
    ciphers_of_save history_sample rfl rfl (by rw [fields]; simp [sampleType, Field.writeKey])
      ⟨_, rfl⟩ rfl ⟨by decide, by decide⟩ ran
  cases tabled
  cases dump
  obtain ⟨mapping, mapped, encrypted⟩ := ciphers (by rw [fields]; simp [sampleType]) _
    (.tail _ (.head _))
  cases mapped
  have unreserved : ¬ Sealer.sample.IsReserved (.text "body") := by
    rw [Sealer.isReserved_iff rfl rfl]
    decide
  exact ⟨σ, log, d, salt, ran, found, (encrypted ⟨rfl, rfl, rfl, rfl⟩).2 unreserved⟩

end Mapper

end RecordSeal
