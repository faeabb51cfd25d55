import RecordSeal.Proofs.Mapper.Refinement
import RecordSeal.Proofs.Seal.Dependence

set_option autoImplicit false

/-! # Document keys of hash and range values

A document key joins a hash value and a range value by a separator that may stand in either of them.
Two pairs of texts have one document key if and only if they overlap around the separator
(`Mapper.documentKey_eq_iff`). Instances whose pairs do not overlap never get in each other's way,
and those whose pairs do share a document (`Mapper.apart_unless_overlapping`). -/

namespace RecordSeal

/-! ## Texts that are joined -/

/-- Whether the first text of one pair and the second one of another meet in a middle part that the
other two leave out. -/
def OverlapInto (h r h' r' : String) : Prop :=
  ∃ middle, h' = h ++ ":" ++ middle ∧ r = middle ++ ":" ++ r'

/-- Whether two pairs overlap, in either direction. -/
def Overlap (h r h' r' : String) : Prop := OverlapInto h r h' r' ∨ OverlapInto h' r' h r

/-- What is left of a joined text when the beginning of another is taken away. -/
theorem join_eq_join_iff {a b c d : List Char} :
    a ++ ':' :: b = c ++ ':' :: d ↔
      (a = c ∧ b = d) ∨ (∃ m, c = a ++ ':' :: m ∧ b = m ++ ':' :: d) ∨
        ∃ m, a = c ++ ':' :: m ∧ d = m ++ ':' :: b := by
  constructor
  · intro same
    rcases List.append_eq_append_iff.1 same with ⟨m, rfl, rest⟩ | ⟨m, rfl, rest⟩
    all_goals
      cases m with
      | nil => simp_all
      | cons x m =>
        obtain ⟨rfl, rfl⟩ := List.cons.inj rest
        simp
  · rintro (⟨rfl, rfl⟩ | ⟨m, rfl, rfl⟩ | ⟨m, rfl, rfl⟩) <;> simp

/-- Whether an instance has a text as its hash value and a text as its range value. -/
def Instance.HasKeys (given : Instance) (hash range h r : String) : Prop :=
  given.values.get? (.text hash) = some (.text h) ∧ given.values.get? (.text range) = some (.text r)

namespace Mapper

theorem documentKey_eq_iff (h r h' r' : String) :
    documentKey (.text h) (.text r) = documentKey (.text h') (.text r') ↔
      (h = h' ∧ r = r') ∨ Overlap h r h' r' := by
  have chars (h r : String) :
      (documentKey (.text h) (.text r)).toList = h.toList ++ ':' :: r.toList := by
    simp [documentKey, Value.shown, toString]
  have into (h r h' r' : String) : OverlapInto h r h' r' ↔
      ∃ m, h'.toList = h.toList ++ ':' :: m ∧ r.toList = m ++ ':' :: r'.toList := by
    constructor
    · rintro ⟨middle, rfl, rfl⟩
      exact ⟨middle.toList, by simp, by simp⟩
    · rintro ⟨m, left, right⟩
      refine ⟨String.ofList m, String.toList_inj.1 ?_, String.toList_inj.1 ?_⟩
      · simp [left]
      · simp [right]
  rw [← String.toList_inj, chars, chars, join_eq_join_iff, Overlap, into, into, String.toList_inj,
    String.toList_inj]

/-! ## Types with two keys -/

/-- Whether a field of texts is a key: it is read under the name that it is written under, and that
name is the key name. -/
def IsKeyField (fields : Assoc String Field) (name key : String) : Prop :=
  ∃ f, (name, f) ∈ fields ∧ f.type = .text ∧ f.writeKey name = key ∧ f.readName.getD name = key

/-- Whether a type has a hash field and a range field of texts. No two of its fields have one name
or are written under one. -/
structure Keyed (m : Mapper) (c : Catalog) (model : ModelId) (hash range : String) : Prop where
  distinct : Assoc.Distinct (c.forest.typeAt model).fields
  apart : ((c.forest.typeAt model).fields.map fun e => e.2.writeKey e.1).Nodup
  keys : ∃ hashKey rangeKey, m.keyNamesOf c model = .ok (.text hashKey, .text rangeKey) ∧
    rangeKey ≠ "" ∧ IsKeyField (c.forest.typeAt model).fields hash hashKey ∧
    IsKeyField (c.forest.typeAt model).fields range rangeKey

variable {m : Mapper} {s : Sealer} {signature description : Name} {c : Catalog} {model : ModelId}
  {hash range : String}

/-- A key field is dumped as it is. -/
theorem IsKeyField.get?_dump {t : ModelType} {name key : String}
    (field : IsKeyField t.fields name key)
    (apart : (t.fields.map fun e => e.2.writeKey e.1).Nodup) {given : Instance} {dumped : Record}
    (dump : given.dump t false = .ok dumped) {text : String}
    (value : given.values.get? (.text name) = some (.text text)) :
    dumped.get? (.text key) = some (.text text) := by
  obtain ⟨f, hf, type, rfl, -⟩ := field
  obtain ⟨v, written, found⟩ := Instance.get?_dump dump apart hf
  rw [found]
  rw [type, value] at written
  exact congrArg some (Except.ok.inj written).symm

/-- A key field is read as it is stored. -/
theorem IsKeyField.get?_validate {forest : Forest} {name key : String}
    (field : IsKeyField (forest.typeAt model).fields name key)
    (distinct : Assoc.Distinct (forest.typeAt model).fields) {record : Record} {back : Instance}
    (valid : forest.validate model record = .ok back) {text : String}
    (found : record.get? (.text key) = some (.text text)) :
    back.values.get? (.text name) = some (.text text) := by
  obtain ⟨f, hf, type, -, rfl⟩ := field
  rw [Forest.validate] at valid
  split at valid
  · split at valid
    · next values provided fields =>
      cases valid
      obtain ⟨v, given, read, there⟩ := get?_readFields fields distinct (name, f) hf
      rw [Field.read_of_get? found, type] at read
      cases read
      exact there
    · cases valid
  · cases valid

/-- An instance is stored under the document key of its own hash and range values. -/
theorem Stores.key_eq (keyed : m.Keyed c model hash range) {given : Instance}
    (own : given.model = model) {key : String} {stored : Record}
    (h : m.Stores s c given false key stored) {hashText rangeText : String}
    (keys : given.HasKeys hash range hashText rangeText) :
    key = documentKey (.text hashText) (.text rangeText) := by
  subst own
  obtain ⟨dumped, t, -, dump, parameters, made, -⟩ := h
  obtain ⟨hashKey, rangeKey, keyNames, given_, hashField, rangeField⟩ := keyed.keys
  obtain ⟨_, _, names, -, rfl⟩ := transformOf_eq_ok parameters
  cases keyNames.symm.trans names
  have hashValue := hashField.get?_dump keyed.apart dump keys.1
  have rangeValue_ := rangeField.get?_dump keyed.apart dump keys.2
  have value {k t : String} (found : dumped.get? (.text k) = some (.text t)) :
      valueUnder dumped (.text k) = .ok (.text t) := by
    show Except.ok ((dumped.get? (.text k)).getD .null) = _
    rw [found]
    rfl
  have isGiven : (Value.text rangeKey).isGiven = true := by
    simpa [Value.isGiven] using given_
  rw [keyOf, value hashValue, rangeValue, if_pos isGiven, value rangeValue_] at made
  exact (Except.ok.inj made).symm

/-- The hooks leave key attributes as they are stored. -/
theorem get?_decoded_of_keyName (names : s.Reserves signature description)
    (suits : m.Suits c [signature, description] model) {hashKey rangeKey : Value}
    (keyNames : m.keyNamesOf c model = .ok (hashKey, rangeKey)) {stored record : Record}
    (decoded : m.hooks.decoded s ⟨model, m.tableOf c model, hashKey, rangeKey, stored, false⟩ c
      [signature, description] = .ok record) {n : String}
    (isKeyName : .text n = hashKey ∨ .text n = rangeKey) :
    record.get? (.text n) = stored.get? (.text n) := by
  obtain ⟨p, policy, given⟩ := exists_of_bind_eq_ok decoded
  rcases suits.exempt_or_protects policy with
    ⟨exempt, -⟩ | ⟨mappings, found, named, -, done, protects⟩
  · rw [if_pos exempt] at given
    cases given
    rfl
  · have opened := (Hooks.decoded_eq_ok_iff policy protects.active).1 decoded
    have keyName : .text n = (Registry.keyNamesOf mappings).1 ∨
        .text n = (Registry.keyNamesOf mappings).2 := by
      rw [keyNamesOf_eq found keyNames]
      exact isKeyName
    obtain ⟨isStored, plain⟩ := plain_of_keyName done keyName (by simp) rfl
    have listed : p.fields.contains (.text n) = true := by
      rw [Assoc.contains_eq_any_keys, done.keys]
      exact List.any_eq_true.2 ⟨_, isStored, BEq.rfl⟩
    obtain ⟨flags, there⟩ := Option.isSome_iff_exists.1 listed
    rw [ClassPolicy.reconcile_of_active protects.active] at opened
    refine Sealer.get?_openRecord_of_plain (ClassPolicy.distinct_extend protects.distinct)
      opened ?_ ?_
    · refine (Sealer.not_isReserved_iff names.signature_eq names.description_eq _).2 ?_
      intro k hk
      rw [BEq.comm]
      exact named.free _ isStored k hk
    · -- What is declared keeps its flags.
      rw [FieldPolicies.flagsOf, ClassPolicy.get?_extend, there, Option.some_or]
      rw [FieldPolicies.flagsOf, there] at plain
      exact plain

/-- What is stored of an instance holds its key attributes as they are dumped. -/
theorem Stores.get?_of_keyName (names : s.Reserves signature description)
    (suits : m.Suits c [signature, description] model) {given : Instance}
    (own : given.model = model) {key : String} {dumped stored : Record}
    (h : m.Stores s c given false key stored)
    (dump : given.dump (c.forest.typeAt model) false = .ok dumped) {hashKey rangeKey : Value}
    (keyNames : m.keyNamesOf c model = .ok (hashKey, rangeKey)) {n : String}
    (isKeyName : .text n = hashKey ∨ .text n = rangeKey) :
    stored.get? (.text n) = dumped.get? (.text n) := by
  obtain ⟨dumped', hashKey', rangeKey', p, dump', keyNames', -, -, policy, form⟩ :=
    h.eq_or_isSealed names suits own
  obtain rfl : dumped = dumped' := Except.ok.inj (dump.symm.trans dump')
  cases keyNames.symm.trans keyNames'
  rcases form with ⟨-, rfl⟩ | ⟨active, salt, sealed_⟩
  · rfl
  rcases suits.exempt_or_protects policy with ⟨exempt, -⟩ | ⟨mappings, found, named, -, done, -⟩
  · rw [active] at exempt
    cases exempt
  have isKeyName' : .text n = (Registry.keyNamesOf mappings).1 ∨
      .text n = (Registry.keyNamesOf mappings).2 := by
    rw [keyNamesOf_eq found keyNames]
    exact isKeyName
  exact Mapper.get?_of_keyName named done sealed_ isKeyName' (by simp) rfl

/-- What is loaded of a stored instance has the keys of that instance. -/
theorem Stores.hasKeys_of_opened (names : s.Reserves signature description)
    (suits : m.Suits c [signature, description] model) (keyed : m.Keyed c model hash range)
    {given : Instance} (own : given.model = model) {key : String} {stored : Record}
    (h : m.Stores s c given false key stored) {hashText rangeText : String}
    (keys : given.HasKeys hash range hashText rangeText) {back : Instance}
    (opens : m.opened s [signature, description] c model stored = .ok back) :
    back.HasKeys hash range hashText rangeText := by
  obtain ⟨dumped, _, -, dump, -⟩ := id h
  rw [own] at dump
  obtain ⟨hashKey, rangeKey, keyNames, -, hashField, rangeField⟩ := keyed.keys
  obtain ⟨record, decoded, valid⟩ := exists_decoded_of_opened keyNames rfl opens
  -- A key attribute is the same in the dump, in the store and in what is validated.
  have kept {n t : String}
      (isKeyName : Value.text n = .text hashKey ∨ Value.text n = .text rangeKey)
      (there : dumped.get? (.text n) = some (.text t)) :
      record.get? (.text n) = some (.text t) := by
    rw [get?_decoded_of_keyName names suits keyNames decoded isKeyName,
      h.get?_of_keyName names suits own dump keyNames isKeyName, there]
  exact ⟨hashField.get?_validate keyed.distinct valid
      (kept (.inl rfl) (hashField.get?_dump keyed.apart dump keys.1)),
    rangeField.get?_validate keyed.distinct valid
      (kept (.inr rfl) (rangeField.get?_dump keyed.apart dump keys.2))⟩

/-! ## Loads after saves and deletes under other keys -/

/-- Whether loading under a pair of texts answers in one session as in another. -/
def LoadsAlike (m : Mapper) (model : ModelId) (h r : String) (σ σ' : Session) : Prop :=
  ∀ log, ((m.load model (.text h) (.text r)).exec σ' log).1 =
    ((m.load model (.text h) (.text r)).exec σ log).1

section

variable {table : Name} {σ σ' : Session} {h r h' r' : String} {log log' : Log}
  (named : (m.tableOf c model).toName = .ok table) (stands : m.Stands c σ)
  (seals : m.hooks.encryptor = .sealer s) (names : s.Reserves signature description)

include named stands seals names

/-- Loads are alike if the document that is looked up is the same. -/
theorem loadsAlike_of_get? (stands' : m.Stands c σ')
    (same : (σ'.documents m.store table).get? (.text (documentKey (.text h) (.text r))) =
      (σ.documents m.store table).get? (.text (documentKey (.text h) (.text r)))) :
    m.LoadsAlike model h r σ σ' := by
  intro log
  obtain ⟨_, _, -, -, before⟩ := exec_load named stands log seals names (.text h) (.text r)
  obtain ⟨_, _, -, -, afterwards⟩ := exec_load named stands' log seals names (.text h) (.text r)
  rw [before, afterwards, same]

/-- A save under another document key disturbs no load. -/
theorem loadsAlike_of_save (keyed : m.Keyed c model hash range) {given : Instance}
    (own : given.model = model) (keys : given.HasKeys hash range h' r')
    (apart : documentKey (.text h) (.text r) ≠ documentKey (.text h') (.text r'))
    {result : Except Failure String}
    (ran : (m.save given false).exec σ log = (result, σ', log')) :
    m.LoadsAlike model h r σ σ' := by
  obtain ⟨result', σ₁, log₁, stands₁, saved, effect⟩ := exec_save named stands log seals own false
  cases saved.symm.trans ran
  refine loadsAlike_of_get? named stands seals names stands₁ ?_
  cases result with
  | error why => rw [effect]
  | ok key =>
    obtain ⟨d, stored, changed⟩ := effect
    obtain rfl := stored.key_eq keyed own keys
    rw [changed, if_pos BEq.rfl, Assoc.get?_insert, if_neg]
    rw [Name.text_beq_text, decide_eq_true_iff]
    exact apart.symm

/-- A delete under another document key disturbs no load. -/
theorem loadsAlike_of_delete
    (apart : documentKey (.text h) (.text r) ≠ documentKey (.text h') (.text r'))
    {result : Except Failure Unit}
    (ran : (m.delete model (.text h') (.text r')).exec σ log = (result, σ', log')) :
    m.LoadsAlike model h r σ σ' := by
  obtain ⟨σ₁, log₁, stands₁, changed, deleted⟩ :=
    exec_delete named stands log (.text h') (.text r')
  cases deleted.symm.trans ran
  refine loadsAlike_of_get? named stands seals names stands₁ ?_
  rw [changed, if_pos BEq.rfl, Assoc.get?_erase, if_neg]
  rw [Name.text_beq_text, decide_eq_true_iff]
  exact apart.symm

/-- A delete under the same document key leaves nothing to load. -/
theorem load_of_delete
    (shared : documentKey (.text h) (.text r) = documentKey (.text h') (.text r'))
    {result : Except Failure Unit}
    (ran : (m.delete model (.text h') (.text r')).exec σ log = (result, σ', log')) (log₂ : Log) :
    ((m.load model (.text h) (.text r)).exec σ' log₂).1 =
      .error (.refused (.notFound (documentKey (.text h) (.text r)) table.shown)) := by
  obtain ⟨σ₁, log₁, stands₁, changed, deleted⟩ :=
    exec_delete named stands log (.text h') (.text r')
  cases deleted.symm.trans ran
  obtain ⟨_, _, -, -, loaded⟩ := exec_load named stands₁ log₂ seals names (.text h) (.text r)
  rw [loaded, changed, if_pos BEq.rfl, shared, Assoc.get?_erase, if_pos BEq.rfl]

/-- What is loaded after a save under the same document key is the saved instance, by its keys. -/
theorem hasKeys_of_load_of_save (suits : m.Suits c [signature, description] model)
    (keyed : m.Keyed c model hash range) {given : Instance} (own : given.model = model)
    (keys : given.HasKeys hash range h' r')
    (shared : documentKey (.text h) (.text r) = documentKey (.text h') (.text r')) {key : String}
    (ran : (m.save given false).exec σ log = (.ok key, σ', log')) {log₂ : Log} {back : Instance}
    (loads : ((m.load model (.text h) (.text r)).exec σ' log₂).1 = .ok back) :
    back.HasKeys hash range h' r' := by
  obtain ⟨result', σ₁, log₁, stands₁, saved, effect⟩ := exec_save named stands log seals own false
  cases saved.symm.trans ran
  obtain ⟨d, stored, changed⟩ := effect
  obtain rfl := stored.key_eq keyed own keys
  obtain ⟨_, _, -, -, loaded⟩ := exec_load named stands₁ log₂ seals names (.text h) (.text r)
  rw [loaded, changed, if_pos BEq.rfl, shared, Assoc.get?_insert, if_pos BEq.rfl] at loads
  exact stored.hasKeys_of_opened names suits keyed own keys loads

end

/-- What is loaded after any history has the keys of an instance that has the same document key. -/
theorem Mirrors.hasKeys_of_load {types : ModelId → Prop} {models : Instance → Prop}
    {tables : ModelId → String} {shelf : Shelf} {σ : Session}
    (mirrors : m.Mirrors s c types models tables shelf σ)
    (setUp : m.IsSetUp s [signature, description] c types tables)
    (names : s.Reserves signature description) (own : types model)
    (keyed : m.Keyed c model hash range)
    (texts : ∀ given, models given → given.model = model → ∃ h r, given.HasKeys hash range h r)
    {h r : String} {log : Log} {back : Instance}
    (loads : ((m.load model (.text h) (.text r)).exec σ log).1 = .ok back) :
    ∃ h' r', back.HasKeys hash range h' r' ∧
      documentKey (.text h) (.text r) = documentKey (.text h') (.text r') := by
  obtain ⟨_, _, -, -, loaded⟩ := exec_load (setUp.named own) mirrors.stands log setUp.seals names
    (.text h) (.text r)
  rw [loaded] at loads
  cases there : shelf model (documentKey (.text h) (.text r)) with
  | none =>
    rw [mirrors.get?_eq_none setUp own there] at loads
    cases loads
  | some given =>
    obtain ⟨same, good, d, found, stored⟩ := mirrors.filed _ _ _ own there
    obtain ⟨h', r', keys⟩ := texts given good same
    rw [found] at loads
    exact ⟨h', r', stored.hasKeys_of_opened names (setUp.suits _ own) keyed same keys loads,
      stored.key_eq keyed same keys⟩

/-- Instances of a type with a hash and a range key of texts, whose pairs of keys are different, are
saved, loaded and deleted independently unless the pairs overlap around the separator, and only
then is a pair loaded that was not asked for. Pairs that overlap have one document: what is saved
under the one is loaded under the other, and what is deleted under the one is gone under the
other. -/
theorem apart_unless_overlapping {types : ModelId → Prop} {tables : ModelId → String}
    {start : Session} (names : s.Reserves signature description)
    (setUp : m.IsSetUp s [signature, description] start.catalog types tables) (own : types model)
    (keyed : m.Keyed start.catalog model hash range) :
    (∀ h r h' r', documentKey (.text h) (.text r) = documentKey (.text h') (.text r') ↔
      (h = h' ∧ r = r') ∨ Overlap h r h' r') ∧
    (∀ σ σ' log log' h r h' r', m.Stands start.catalog σ → ¬ (h = h' ∧ r = r') →
      (∀ given result, given.model = model → given.HasKeys hash range h' r' →
        (m.save given false).exec σ log = (result, σ', log') →
        (¬ Overlap h r h' r' → m.LoadsAlike model h r σ σ') ∧
        (Overlap h r h' r' → ∀ key, result = .ok key → ∀ log₂ back,
          ((m.load model (.text h) (.text r)).exec σ' log₂).1 = .ok back →
          back.HasKeys hash range h' r')) ∧
      (∀ result, (m.delete model (.text h') (.text r')).exec σ log = (result, σ', log') →
        (¬ Overlap h r h' r' → m.LoadsAlike model h r σ σ') ∧
        (Overlap h r h' r' → ∀ log₂, ((m.load model (.text h) (.text r)).exec σ' log₂).1 =
          .error (.refused (.notFound (documentKey (.text h) (.text r)) (tables model)))))) ∧
    (∀ models shelf σ,
      (∀ given, models given → given.model = model → ∃ h r, given.HasKeys hash range h r) →
      start.Serves m.store → (∀ table, start.documents m.store table = []) →
      m.History types models start shelf σ →
      ∀ h r log back, ((m.load model (.text h) (.text r)).exec σ log).1 = .ok back →
        ∃ h' r', back.HasKeys hash range h' r' ∧ ((h = h' ∧ r = r') ∨ Overlap h r h' r')) := by
  have table := setUp.named own
  have seals := setUp.seals
  refine ⟨documentKey_eq_iff, ?_, ?_⟩
  · intro σ σ' log log' h r h' r' stands different
    have apart (disjoint : ¬ Overlap h r h' r') :
        documentKey (.text h) (.text r) ≠ documentKey (.text h') (.text r') := fun same =>
      ((documentKey_eq_iff h r h' r').1 same).elim different disjoint
    have shared (overlap : Overlap h r h' r') :
        documentKey (.text h) (.text r) = documentKey (.text h') (.text r') :=
      (documentKey_eq_iff h r h' r').2 (.inr overlap)
    refine ⟨?_, ?_⟩
    · intro given result same keys ran
      refine ⟨fun disjoint => ?_, ?_⟩
      · exact loadsAlike_of_save table stands seals names keyed same keys (apart disjoint) ran
      · rintro overlap key rfl log₂ back loads
        exact hasKeys_of_load_of_save table stands seals names (setUp.suits _ own) keyed same keys
          (shared overlap) ran loads
    · intro result ran
      refine ⟨fun disjoint => ?_, fun overlap log₂ => ?_⟩
      · exact loadsAlike_of_delete table stands seals names (apart disjoint) ran
      · exact load_of_delete table stands seals names (shared overlap) ran log₂
  · intro models shelf σ texts serves empty history h r log back loads
    have mirrors := mirrors_of_history setUp names rfl serves empty history
    obtain ⟨h', r', keys, same⟩ :=
      mirrors.hasKeys_of_load setUp names own keyed texts loads
    exact ⟨h', r', keys, (documentKey_eq_iff h r h' r').1 same⟩

/-! ## A sample -/

/-- A type with a hash and a range key and a field that is encrypted. -/
def samplePart : ModelType where
  name := "Part"
  module := "parts"
  kind := .sealedDocument
  lineage := [⟨6⟩, Forest.sealedRoot, Forest.documentRoot, Forest.plainRoot]
  fields := [
    ("h", { type := .text, default := none, writeName := none, readName := none,
            markers := .object { hashKey := .bool true : FieldMarkers }.toValue }),
    ("r", { type := .text, default := none, writeName := none, readName := none,
            markers := .object { rangeKey := .bool true : FieldMarkers }.toValue }),
    ("body", { type := .text, default := none, writeName := none, readName := none,
               markers := .object ({} : FieldMarkers).toValue })]

/-- A session with that type and an empty server. -/
def partStart : Session :=
  { sampleStart with catalog := { forest := ⟨Forest.roots.types ++ [samplePart]⟩ } }

/-- An instance with a separator in its hash value. -/
def samplePartInstance : Instance where
  model := ⟨6⟩
  values := [("h", .text "a:b"), ("r", .text "c"), ("body", .text "x")]
  provided := ["h", "r", "body"]

/-- The mappings of that type. -/
def partMappings : List FieldMapping := [
  { name := .text "h", attributeName := .text "h", markers := { hashKey := .bool true } },
  { name := .text "r", attributeName := .text "r", markers := { rangeKey := .bool true } },
  { name := .text "body", attributeName := .text "body" }]

theorem mappingsOf_part : sampleMapper.mappingsOf partStart.catalog ⟨6⟩ = .ok partMappings := rfl

theorem fields_part : (partStart.catalog.forest.typeAt ⟨6⟩).fields = samplePart.fields := rfl

theorem suits_part : sampleMapper.Suits partStart.catalog ["*sig*", "*desc*"] ⟨6⟩ := by
  have stored : storedNames partMappings = ["h", "r", "body"] := rfl
  refine ⟨rfl, ?_, ?_⟩
  · intro mappings found
    rw [mappingsOf_part] at found
    cases found
    constructor <;> rw [stored] <;> simp
  · rw [fields_part]
    simp [samplePart, Field.writeKey]

theorem isSetUp_part : sampleMapper.IsSetUp .sample ["*sig*", "*desc*"] partStart.catalog
    (· = ⟨6⟩) fun _ => "Part" := by
  constructor
  · rfl
  · rintro _ rfl
    exact suits_part
  · rintro _ rfl
    rfl
  · rintro _ _ rfl rfl -
    rfl

theorem keyed_part : sampleMapper.Keyed partStart.catalog ⟨6⟩ "h" "r" := by
  have hashField : IsKeyField (partStart.catalog.forest.typeAt ⟨6⟩).fields "h" "h" :=
    ⟨_, .head _, rfl, rfl, rfl⟩
  have rangeField : IsKeyField (partStart.catalog.forest.typeAt ⟨6⟩).fields "r" "r" :=
    ⟨_, .tail _ (.head _), rfl, rfl, rfl⟩
  refine ⟨?_, ?_, "h", "r", rfl, by simp, hashField, rangeField⟩ <;> rw [fields_part]
  · simp [samplePart, Assoc.Distinct, Assoc.keys]
  · simp [samplePart, Field.writeKey]

theorem save_part : ∃ after log,
    (sampleMapper.save samplePartInstance false).exec partStart {} = (.ok "a:b:c", after, log) :=
  ⟨_, _, rfl⟩

/-- An instance under `a:b` and `c` is lost when one under `a` and `b:c` is deleted, and the
deletion of one under `x` and `y` does not disturb it. -/
theorem apart_unless_overlapping_sample : ∃ σ log,
    (sampleMapper.save samplePartInstance false).exec partStart {} = (.ok "a:b:c", σ, log) ∧
    (∀ result σ' log',
      (sampleMapper.delete ⟨6⟩ (.text "a") (.text "b:c")).exec σ {} = (result, σ', log') →
      ((sampleMapper.load ⟨6⟩ (.text "a:b") (.text "c")).exec σ' {}).1 =
        .error (.refused (.notFound "a:b:c" "Part"))) ∧
    ∀ result σ' log',
      (sampleMapper.delete ⟨6⟩ (.text "x") (.text "y")).exec σ {} = (result, σ', log') →
      sampleMapper.LoadsAlike ⟨6⟩ "a:b" "c" σ σ' := by
  obtain ⟨σ, log, ran⟩ := save_part
  have start : sampleMapper.Stands partStart.catalog partStart :=
    ⟨.refl _, by decide, by decide, rfl, List.not_mem_nil⟩
  have own : samplePartInstance.model = ⟨6⟩ := rfl
  obtain ⟨_, _, _, stands, saved, -⟩ := exec_save (isSetUp_part.named rfl) start {}
    isSetUp_part.seals own false
  cases saved.symm.trans ran
  have apart := (apart_unless_overlapping Sealer.reserves_sample isSetUp_part rfl keyed_part).2.1
  refine ⟨σ, log, ran, ?_, ?_⟩
  · intro result σ' log' deleted
    have lost := ((apart σ σ' {} log' "a:b" "c" "a" "b:c" stands (by decide)).2 result deleted).2
    exact lost (.inr ⟨"b", by decide, by decide⟩) {}
  · intro result σ' log' deleted
    have kept := ((apart σ σ' {} log' "a:b" "c" "x" "y" stands (by decide)).2 result deleted).1
    refine kept fun overlap => ?_
    have same := (documentKey_eq_iff "a:b" "c" "x" "y").2 (.inr overlap)
    exact absurd same (by decide)

end Mapper

end RecordSeal
