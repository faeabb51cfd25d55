import RecordSeal.Proofs.Hooks.RoundTrip
import RecordSeal.Proofs.Instance
import RecordSeal.Proofs.Mapper
import RecordSeal.Proofs.Seal.Tamper

set_option autoImplicit false

/-! # What mappers store of instances

What is stored of an instance holds the values that its document key was made of in plain
(`Mapper.Stores.keyOf_eq`). It opens to what validation makes of the dump if its type is readable
(`Mapper.Stores.opened_eq`), and by a collision of codes at most if it is not
(`Mapper.Stores.collide_of_opened`). -/

namespace RecordSeal

namespace Mapper

theorem mem_of_keyNamesOf {mappings : List FieldMapping} {name : Value}
    (h : name = (Registry.keyNamesOf mappings).1 ∨ name = (Registry.keyNamesOf mappings).2) :
    name = .null ∨ ∃ m ∈ mappings, m.isKey = true ∧ m.attributeName = name := by
  have last (isMarked : FieldMapping → Bool) (marked : ∀ m, isMarked m = true → m.isKey = true)
      (h : name = ((mappings.filter isMarked).getLast?.map (·.attributeName)).getD .null) :
      name = .null ∨ ∃ m ∈ mappings, m.isKey = true ∧ m.attributeName = name := by
    cases found : (mappings.filter isMarked).getLast? with
    | none =>
      rw [found] at h
      exact .inl h
    | some m =>
      rw [found] at h
      obtain ⟨hm, mark⟩ := List.mem_filter.1 (List.mem_of_getLast? found)
      exact .inr ⟨m, hm, marked m mark, h.symm⟩
  rcases h with h | h
  · exact last _ (fun m mark => by rw [FieldMapping.isKey, mark, Bool.true_or]) h
  · exact last _ (fun m mark => by rw [FieldMapping.isKey, mark, Bool.or_true]) h

/-- The document key depends on nothing but the attributes that the keys are named after. -/
theorem keyOf_congr {t : Transform} {record : Record}
    (same : ∀ name, name = t.hashKey ∨ name = t.rangeKey ∧ name.isGiven = true →
      ∀ n, name.toName = .ok n → record.get? n = t.record.get? n) :
    keyOf { t with record } = keyOf t := by
  have value (name : Value) (h : name = t.hashKey ∨ name = t.rangeKey ∧ name.isGiven = true) :
      valueUnder record name = valueUnder t.record name := by
    unfold valueUnder
    cases named : name.toName with
    | error why => rfl
    | ok n =>
      show Except.ok ((record.get? n).getD .null) = Except.ok ((t.record.get? n).getD .null)
      rw [same name h n named]
  have range : rangeValue record t.rangeKey = rangeValue t.record t.rangeKey := by
    unfold rangeValue
    by_cases given : t.rangeKey.isGiven = true
    · rw [if_pos given, if_pos given]
      exact value t.rangeKey (.inr ⟨rfl, given⟩)
    · rw [if_neg given, if_neg given]
  unfold keyOf
  rw [value t.hashKey (.inl rfl), range]

/-! ## Types that a mapper keeps -/

/-- The mappings of a type, as the registry of a mapper answers. -/
def mappingsOf (m : Mapper) (c : Catalog) (model : ModelId) : Except Failure (List FieldMapping) :=
  (c.registryAt m.registry).mappingsOf c.forest model

/-- The markers of a type, as the registry of a mapper answers. -/
def markersOf (m : Mapper) (c : Catalog) (model : ModelId) : Markers :=
  (c.registryAt m.registry).markersOf c.forest model

/-- Whether the names of a type do what a mapper needs: stored names are texts, no two of them the
same, nothing is stored or written under a reserved one, and the hooks have the policy that the
registry of the mapper gives. -/
structure Suits (m : Mapper) (c : Catalog) (reserved : List Name) (model : ModelId) : Prop where
  policy : m.hooks.policyOf c model = (Provider.registry m.registry).classified c model
  named : ∀ mappings, m.mappingsOf c model = .ok mappings → WellNamed reserved mappings
  written : ∀ e ∈ (c.forest.typeAt model).fields, ∀ k ∈ reserved,
    (k == .text (e.2.writeKey e.1)) = false

/-- Whether a type finds no unknown attribute in what it wrote: it is exempt, it leaves unknown
attributes alone, or every name that it writes a field under is a stored name. -/
def Readable (m : Mapper) (c : Catalog) (model : ModelId) : Prop :=
  (m.markersOf c model).doNotTouch = false → (m.markersOf c model).handleUnknown = true →
    ∀ mappings, m.mappingsOf c model = .ok mappings →
      ∀ e ∈ (c.forest.typeAt model).fields,
        ∃ n ∈ storedNames mappings, (n == .text (e.2.writeKey e.1)) = true

variable {m : Mapper} {s : Sealer} {signature description : Name} {c : Catalog} {model : ModelId}

/-- A type that suits a mapper is exempt, or is protected as classification of its mappings says. -/
theorem Suits.exempt_or_protects (suits : m.Suits c [signature, description] model)
    {p : ClassPolicy} (h : m.hooks.policyOf c model = .ok p) :
    (p.doNotTouch = true ∧ (m.markersOf c model).doNotTouch = true) ∨
      ∃ mappings, m.mappingsOf c model = .ok mappings ∧
        WellNamed [signature, description] mappings ∧
        (m.markersOf c model).doNotTouch = false ∧
        Classified (m.markersOf c model) mappings p ∧
        m.hooks.Protects c model [signature, description] p := by
  have classified := suits.policy.symm.trans h
  rw [Provider.classified] at classified
  split at classified
  · next exempt =>
    cases classified
    exact .inl ⟨rfl, exempt⟩
  · next active =>
    right
    obtain ⟨mappings, found, classified⟩ := exists_of_bind_eq_ok classified
    have named := suits.named mappings found
    have done := classified_of_classifyWith named classified
    refine ⟨mappings, found, named, Bool.eq_false_of_not_eq_true active, done, h, done.active,
      done.distinct, ?_, ?_⟩
    · intro k hk
      obtain ⟨t, rfl⟩ := named.texts k (done.keys ▸ hk)
      exact trivial
    · intro k hk
      rw [Assoc.contains_eq_any_keys, List.any_eq_false, done.keys]
      intro n hn
      rw [named.free n hn k hk]
      simp

/-- What is stored of an instance is its dump, or seals its dump under a policy of the type. -/
theorem Stores.eq_or_isSealed (names : s.Reserves signature description)
    (suits : m.Suits c [signature, description] model) {given : Instance}
    (own : given.model = model) {isPartial : Bool} {key : String} {stored : Record}
    (h : m.Stores s c given isPartial key stored) :
    ∃ dumped hashKey rangeKey p, given.dump (c.forest.typeAt model) isPartial = .ok dumped ∧
      m.keyNamesOf c model = .ok (hashKey, rangeKey) ∧ hashKey.isNull = false ∧
      keyOf ⟨model, m.tableOf c model, hashKey, rangeKey, dumped, isPartial⟩ = .ok key ∧
      m.hooks.policyOf c model = .ok p ∧
      (p.doNotTouch = true ∧ stored = dumped ∨
        p.doNotTouch = false ∧ ∃ salt, s.IsSealed signature description p.fields
          (m.hooks.binding c ⟨model, m.tableOf c model, hashKey, rangeKey, dumped, isPartial⟩) salt
          dumped stored) := by
  subst own
  obtain ⟨dumped, t, σ, dump, parameters, keyed, agrees, encoded⟩ := h
  obtain ⟨hashKey, rangeKey, keyNames, present, rfl⟩ := transformOf_eq_ok parameters
  obtain ⟨p, there, form⟩ := exists_of_bind_eq_ok encoded
  have policy := (m.hooks.policyOf_agrees agrees given.model).symm.trans there
  refine ⟨dumped, hashKey, rangeKey, p, dump, keyNames, present, keyed, policy, ?_⟩
  rcases suits.exempt_or_protects policy with ⟨exempt, -⟩ | ⟨-, -, -, -, -, protects⟩
  · left
    rw [if_pos exempt] at form
    cases form
    exact ⟨exempt, rfl⟩
  · right
    rw [← m.hooks.binding_agrees _ agrees]
    refine ⟨protects.active, ?_⟩
    exact Hooks.exists_isSealed_of_encoded names { protects with policy := there } encoded

/-- The key names of a type are those of its mappings. -/
theorem keyNamesOf_eq {mappings : List FieldMapping} {hashKey rangeKey : Value}
    (found : m.mappingsOf c model = .ok mappings)
    (keyNames : m.keyNamesOf c model = .ok (hashKey, rangeKey)) :
    Registry.keyNamesOf mappings = (hashKey, rangeKey) := by
  rw [keyNamesOf, ← mappingsOf, found] at keyNames
  exact Except.ok.inj keyNames

/-- Keys are stored names that are not encrypted. -/
theorem plain_of_keyName {mappings : List FieldMapping} {markers : Markers} {p : ClassPolicy}
    (done : Classified markers mappings p) {name : Value}
    (isKeyName : name = (Registry.keyNamesOf mappings).1 ∨
      name = (Registry.keyNamesOf mappings).2)
    (given : name ≠ .null) {n : Name} (hn : name.toName = .ok n) :
    n ∈ storedNames mappings ∧ (p.fields.flagsOf n).encrypt = false := by
  rcases mem_of_keyNamesOf isKeyName with isNull | ⟨mapping, hm, isKey, rfl⟩
  · exact absurd isNull given
  · refine ⟨List.mem_filterMap.2 ⟨mapping, hm, Value.toName_eq_ok.1 hn⟩, ?_⟩
    obtain ⟨n', hn', flags⟩ := done.flags mapping hm
    obtain rfl : n = n' := Except.ok.inj (hn.symm.trans hn')
    rw [flags]
    exact FieldMapping.encrypt_of_isKey isKey _

/-- Keys are not encrypted, so a sealed record holds them as they were. -/
theorem get?_of_keyName {mappings : List FieldMapping} {markers : Markers}
    {p : ClassPolicy} (named : WellNamed [signature, description] mappings)
    (done : Classified markers mappings p) {context : Context} {salt : List UInt8}
    {dumped stored : Record}
    (sealed_ : s.IsSealed signature description p.fields context salt dumped stored) {name : Value}
    (isKeyName : name = (Registry.keyNamesOf mappings).1 ∨
      name = (Registry.keyNamesOf mappings).2)
    (given : name ≠ .null) {n : Name} (hn : name.toName = .ok n) :
    stored.get? n = dumped.get? n := by
  obtain ⟨isStored, plain⟩ := plain_of_keyName done isKeyName given hn
  refine sealed_.get?_of_plain plain ?_
  intro k hk
  rw [BEq.comm]
  exact named.free n isStored k hk

/-- The document key of what is stored is made of the key attributes in it. -/
theorem Stores.keyOf_eq (names : s.Reserves signature description)
    (suits : m.Suits c [signature, description] model) {given : Instance}
    (own : given.model = model) {isPartial : Bool} {key : String} {stored : Record}
    (h : m.Stores s c given isPartial key stored) :
    ∃ hashKey rangeKey, m.keyNamesOf c model = .ok (hashKey, rangeKey) ∧
      keyOf ⟨model, m.tableOf c model, hashKey, rangeKey, stored, isPartial⟩ = .ok key := by
  obtain ⟨dumped, hashKey, rangeKey, p, -, keyNames, present, keyed, policy, form⟩ :=
    h.eq_or_isSealed names suits own
  refine ⟨hashKey, rangeKey, keyNames, ?_⟩
  rcases form with ⟨-, rfl⟩ | ⟨active, salt, sealed_⟩
  · exact keyed
  rcases suits.exempt_or_protects policy with ⟨exempt, -⟩ | ⟨mappings, found, named, -, done, -⟩
  · rw [active] at exempt
    cases exempt
  rw [← keyed]
  refine keyOf_congr (t := ⟨model, m.tableOf c model, hashKey, rangeKey, dumped, isPartial⟩) ?_
  intro name isName n hn
  dsimp only at isName
  have isKeyName : name = (Registry.keyNamesOf mappings).1 ∨
      name = (Registry.keyNamesOf mappings).2 := by
    rw [keyNamesOf_eq found keyNames]
    exact isName.imp_right And.left
  refine get?_of_keyName named done sealed_ isKeyName ?_ hn
  -- The hash key was checked, and no range key is looked up under null.
  rintro rfl
  rcases isName with isName | ⟨-, given⟩
  · rw [← isName] at present
    cases present
  · cases given

/-- Nothing of a dump is reserved. -/
theorem not_contains_dump {reserved : List Name} (suits : m.Suits c reserved model)
    {given : Instance} {isPartial : Bool} {dumped : Record}
    (dump : given.dump (c.forest.typeAt model) isPartial = .ok dumped) {k : Name}
    (hk : k ∈ reserved) : dumped.contains k = false := by
  rw [Assoc.contains_eq_any_keys, List.any_eq_false]
  intro n hn
  obtain ⟨e, he, rfl⟩ := Instance.keys_dump dump n hn
  rw [BEq.comm, suits.written e he k hk]
  simp

theorem transformOf_eq {hashKey rangeKey : Value}
    (keyNames : m.keyNamesOf c model = .ok (hashKey, rangeKey)) (present : hashKey.isNull = false)
    (record : Record) (isPartial : Bool) :
    m.transformOf c model record isPartial =
      .ok ⟨model, m.tableOf c model, hashKey, rangeKey, record, isPartial⟩ := by
  rw [transformOf, keyNames]
  exact if_neg (by simp [present])

/-- What a readable type writes has declared flags, or those of unknown attributes, which are then
the same. -/
theorem Readable.flagsOf_dump (readable : m.Readable c model) {mappings : List FieldMapping}
    (found : m.mappingsOf c model = .ok mappings)
    (touched : (m.markersOf c model).doNotTouch = false) {p : ClassPolicy}
    (done : Classified (m.markersOf c model) mappings p) {given : Instance} {isPartial : Bool}
    {dumped : Record} (dump : given.dump (c.forest.typeAt model) isPartial = .ok dumped) {n : Name}
    (hn : n ∈ dumped.keys) :
    p.fields.flagsOf n = (p.fields.get? n).getD p.unknown := by
  rw [FieldPolicies.flagsOf, done.unknown, Markers.unknownFlags]
  by_cases handles : (m.markersOf c model).handleUnknown = true
  · obtain ⟨e, he, rfl⟩ := Instance.keys_dump dump n hn
    obtain ⟨l, hl, same⟩ := readable touched handles mappings found e he
    have listed : p.fields.contains (.text (e.2.writeKey e.1)) = true := by
      rw [Assoc.contains_eq_any_keys, done.keys]
      exact List.any_eq_true.2 ⟨l, hl, same⟩
    obtain ⟨flags, there⟩ := Option.isSome_iff_exists.1 listed
    rw [there]
    rfl
  · rw [if_neg handles]

/-- What is stored of an instance of a readable type opens to what validation makes of its dump. -/
theorem Stores.opened_eq (names : s.Reserves signature description)
    (suits : m.Suits c [signature, description] model)
    (readable : m.Readable c model)
    {given : Instance} (own : given.model = model) {key : String} {stored : Record}
    (json : ∀ dumped, given.dump (c.forest.typeAt model) false = .ok dumped →
      ∀ e ∈ dumped, e.2.IsJson)
    (h : m.Stores s c given false key stored) :
    m.opened s [signature, description] c model stored =
      (given.dump (c.forest.typeAt model) false).bind (c.forest.validate model) := by
  obtain ⟨dumped, hashKey, rangeKey, p, dump, keyNames, present, -, policy, form⟩ :=
    h.eq_or_isSealed names suits own
  suffices decoded : m.hooks.decoded s ⟨model, m.tableOf c model, hashKey, rangeKey, stored, false⟩
      c [signature, description] = .ok dumped by
    rw [opened, transformOf_eq keyNames present, dump]
    show (m.hooks.decoded s _ c _).bind _ = _
    rw [decoded]
  rcases form with ⟨exempt, rfl⟩ | ⟨active, salt, sealed_⟩
  · rw [Hooks.decoded, policy]
    exact if_pos exempt
  rcases suits.exempt_or_protects policy with
    ⟨exempt, -⟩ | ⟨mappings, found, named, touched, done, protects⟩
  · rw [active] at exempt
    cases exempt
  refine Hooks.decoded_of_isSealed names
    (t := ⟨model, m.tableOf c model, hashKey, rangeKey, dumped, false⟩) protects sealed_
    (Instance.distinct_dump dump) protects.distinct ?_ protects.texts ?_ ?_ ?_
  · intro n hn
    obtain ⟨e, -, rfl⟩ := Instance.keys_dump dump n hn
    exact trivial
  · intro k hk
    exact ⟨not_contains_dump suits dump hk, protects.free k hk⟩
  · intro n hn
    exact readable.flagsOf_dump found touched done dump hn
  · intro n v _ there
    obtain ⟨l, -, hl⟩ := Assoc.mem_of_get? there
    exact (json dumped dump _ hl).isRead

/-- What the signature of a type is bound to instead of a table. -/
def boundTable (m : Mapper) (c : Catalog) (model : ModelId) : Value :=
  (m.hooks.provider.markers c model).tableOverride.getD (m.tableOf c model)

/-- The stored names of keys are texts if there are any. -/
theorem exists_eq_ofText? {reserved : List Name} {mappings : List FieldMapping}
    {p : ClassPolicy} {markers : Markers} (named : WellNamed reserved mappings)
    (done : Classified markers mappings p) {name : Value}
    (h : name = (Registry.keyNamesOf mappings).1 ∨ name = (Registry.keyNamesOf mappings).2) :
    ∃ t, name = Value.ofText? t := by
  rcases mem_of_keyNamesOf h with rfl | ⟨mapping, hm, -, rfl⟩
  · exact ⟨none, rfl⟩
  obtain ⟨n, hn, -⟩ := done.flags mapping hm
  have found := Value.toName_eq_ok.1 hn
  obtain ⟨t, rfl⟩ := named.texts n (List.mem_filterMap.2 ⟨mapping, hm, found⟩)
  refine ⟨some t, ?_⟩
  cases value : mapping.attributeName <;> rw [value] at found <;> cases found
  rfl

/-- A signature is bound to texts: the names of keys, and a table or what stands for one. -/
theorem isNamed_binding {reserved : List Name} {mappings : List FieldMapping} {p : ClassPolicy}
    {markers : Markers} (named : WellNamed reserved mappings)
    (done : Classified markers mappings p) {hashKey rangeKey : Value}
    (keyNames : Registry.keyNamesOf mappings = (hashKey, rangeKey))
    (bound : ∃ t, m.boundTable c model = .text t) (record : Record) (isPartial : Bool) :
    (m.hooks.binding c
      ⟨model, m.tableOf c model, hashKey, rangeKey, record, isPartial⟩).IsNamed := by
  obtain ⟨t, table⟩ := bound
  refine ⟨⟨some t, table⟩, ?_, ?_⟩
  · exact exists_eq_ofText? named done (.inl (congrArg Prod.fst keyNames.symm))
  · exact exists_eq_ofText? named done (.inr (congrArg Prod.snd keyNames.symm))

/-- What opens was decoded and validated. -/
theorem exists_decoded_of_opened {hashKey rangeKey : Value}
    (keyNames : m.keyNamesOf c model = .ok (hashKey, rangeKey)) (present : hashKey.isNull = false)
    {reserved : List Name} {stored : Record} {back : Instance}
    (opens : m.opened s reserved c model stored = .ok back) :
    ∃ record, m.hooks.decoded s ⟨model, m.tableOf c model, hashKey, rangeKey, stored, false⟩ c
        reserved = .ok record ∧
      c.forest.validate model record = .ok back := by
  rw [opened, transformOf_eq keyNames present] at opens
  exact exists_of_bind_eq_ok opens

/-- What opens under a type that is not exempt was opened by the sealer. -/
theorem openRecord_of_opened {hashKey rangeKey : Value}
    (keyNames : m.keyNamesOf c model = .ok (hashKey, rangeKey)) (present : hashKey.isNull = false)
    {p : ClassPolicy} (policy : m.hooks.policyOf c model = .ok p) (active : p.doNotTouch = false)
    {reserved : List Name} {stored : Record} {back : Instance}
    (opens : m.opened s reserved c model stored = .ok back) :
    ∃ record, s.openRecord stored (p.reconcile stored.keys reserved)
      (m.hooks.binding c ⟨model, m.tableOf c model, hashKey, rangeKey, stored, false⟩) =
        .ok record := by
  obtain ⟨record, decoded, -⟩ := exists_decoded_of_opened keyNames present opens
  exact ⟨record, (Hooks.decoded_eq_ok_iff policy active).1 decoded⟩

/-- What is stored of an instance of a type that is not readable does not open, unless the bytes
that were signed have the code of the other bytes that opening looks at. -/
theorem Stores.collide_of_opened (names : s.Reserves signature description)
    (suits : m.Suits c [signature, description] model) (unreadable : ¬ m.Readable c model)
    (bound : ∃ t, m.boundTable c model = .text t)
    {given : Instance} (own : given.model = model) {key : String} {stored : Record}
    (json : ∀ dumped, given.dump (c.forest.typeAt model) false = .ok dumped →
      ∀ e ∈ dumped, e.2.IsJson)
    (h : m.Stores s c given false key stored) {back : Instance}
    (opens : m.opened s [signature, description] c model stored = .ok back) :
    ∃ p context salt described, m.hooks.policyOf c model = .ok p ∧
      s.SignedCollide salt described context context stored stored p.fields
        (p.reconcile stored.keys [signature, description]) := by
  obtain ⟨dumped, hashKey, rangeKey, p, dump, keyNames, present, -, policy, form⟩ :=
    h.eq_or_isSealed names suits own
  -- Some field is written under a name that is not a stored one.
  simp only [Readable, not_forall, not_exists, not_and] at unreadable
  obtain ⟨touched, handles, mappings, found, e, he, undeclared⟩ := unreadable
  rcases suits.exempt_or_protects policy with
    ⟨-, exempt⟩ | ⟨mappings', found', named, -, done, protects⟩
  · rw [touched] at exempt
    cases exempt
  obtain rfl : mappings = mappings' := Except.ok.inj (found.symm.trans found')
  rcases form with ⟨exempt, -⟩ | ⟨active, salt, sealed_⟩
  · rw [protects.active] at exempt
    cases exempt
  have unlisted : p.fields.contains (.text (e.2.writeKey e.1)) = false := by
    rw [Assoc.contains_eq_any_keys, List.any_eq_false, done.keys]
    exact undeclared
  have unknown : p.unknown.sign = true := by
    rw [done.unknown, Markers.unknownFlags, if_pos handles]
  have isNamed := isNamed_binding (m := m) named done (keyNamesOf_eq found keyNames) bound dumped
    false
  have declaredTexts : ∀ k ∈ p.fields.keys, ∃ t, k = .text t := by
    intro k hk
    exact named.texts k (done.keys ▸ hk)
  have dumpedTexts : ∀ k ∈ dumped.keys, ∃ t, k = .text t := by
    intro k hk
    obtain ⟨e', -, rfl⟩ := Instance.keys_dump dump k hk
    exact ⟨_, rfl⟩
  have free : ∀ k ∈ [signature, description],
      dumped.contains k = false ∧ p.fields.contains k = false := by
    intro k hk
    exact ⟨not_contains_dump suits dump hk, protects.free k hk⟩
  have jsonDumped : ∀ k v, dumped.get? k = some v → v.IsJson := by
    intro k v there
    obtain ⟨l, -, hl⟩ := Assoc.mem_of_get? there
    exact json dumped dump _ hl
  obtain ⟨record, opensRecord⟩ := openRecord_of_opened keyNames present policy protects.active opens
  obtain ⟨described, collide⟩ := sealed_.collide_of_reconcile names protects.active unknown
    protects.distinct declaredTexts dumpedTexts free jsonDumped isNamed
    (Instance.mem_keys_dump dump he) unlisted opensRecord
  exact ⟨p, _, salt, described, policy, collide⟩

end Mapper

end RecordSeal
