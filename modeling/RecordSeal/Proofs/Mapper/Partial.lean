import RecordSeal.Proofs.Mapper.Protection

set_option autoImplicit false

/-! # Document keys of whole and of partial saves

The document key of a save is made of what stands under the key names in the dump, so it depends on
which fields were provided. What stands under a name is the written value of the last kept field
that is written under it, and null if there is none (`Instance.under`). A partial save therefore has
the key of a whole one if the fields of the keys were provided, and null in place of those that were
not (`Mapper.address_of_save`). -/

namespace RecordSeal

/-! ## What stands under a name in a dump -/

namespace Field

/-- The last kept field that is written under a name. -/
def lastUnder (keep : String → Bool) (fields : Assoc String Field) (n : Name) :
    Option (String × Field) :=
  fields.findRev? fun e => keep e.1 && Name.text (e.2.writeKey e.1) == n

variable {keep : String → Bool} {fields : Assoc String Field} {n : Name} {e : String × Field}

theorem lastUnder_cons (keep : String → Bool) (e : String × Field) (fields : Assoc String Field)
    (n : Name) : lastUnder keep (e :: fields) n = (lastUnder keep fields n).or
      (if keep e.1 && Name.text (e.2.writeKey e.1) == n then some e else none) := by
  rw [lastUnder, List.findRev?, lastUnder]
  cases List.findRev? _ fields <;> rfl

theorem of_lastUnder (h : lastUnder keep fields n = some e) :
    e ∈ fields ∧ keep e.1 = true ∧ (Name.text (e.2.writeKey e.1) == n) = true := by
  rw [lastUnder, List.findRev?_eq_find?_reverse] at h
  have found := List.find?_some h
  rw [Bool.and_eq_true] at found
  exact ⟨List.mem_reverse.1 (List.mem_of_find?_eq_some h), found⟩

/-- Keeping fewer fields changes nothing as long as the last one is kept. -/
theorem lastUnder_of_kept (h : ∀ e, lastUnder (fun _ => true) fields n = some e → keep e.1 = true) :
    lastUnder keep fields n = lastUnder (fun _ => true) fields n := by
  induction fields with
  | nil => rfl
  | cons e rest ih =>
    rw [lastUnder_cons, lastUnder_cons]
    rw [lastUnder_cons] at h
    cases later : lastUnder (fun _ => true) rest n with
    | some e' =>
      simp only [later, Option.some_or] at h ih ⊢
      rw [ih h, Option.some_or]
    | none =>
      simp only [later, Option.none_or, Bool.true_and] at h ih ⊢
      rw [ih (by simp), Option.none_or]
      by_cases own : (Name.text (e.2.writeKey e.1) == n) = true
      · rw [if_pos own, if_pos (by rw [own, h e (if_pos own)]; rfl)]
      · rw [if_neg own, if_neg (by simp [own])]

theorem lastUnder_eq_none (h : ∀ e ∈ fields, (Name.text (e.2.writeKey e.1) == n) = true →
    keep e.1 = false) : lastUnder keep fields n = none := by
  cases found : lastUnder keep fields n with
  | none => rfl
  | some e =>
    obtain ⟨he, kept, same⟩ := of_lastUnder found
    rw [h e he same] at kept
    cases kept

end Field

/-- A dump answers a name by the last kept field that is written under it. -/
theorem get?_dumpFields_lastUnder {values : Record} {keep : String → Bool}
    {fields : Assoc String Field} {out record : Record}
    (dump : dumpFields values keep fields out = .ok record) (n : Name) :
    match Field.lastUnder keep fields n with
    | some e => ∃ v, e.2.type.write ((values.get? e.1).getD .null) = .ok v ∧ record.get? n = some v
    | none => record.get? n = out.get? n := by
  induction fields generalizing out with
  | nil =>
    cases dump
    rfl
  | cons e rest ih =>
    obtain ⟨name, field⟩ := e
    rw [Field.lastUnder_cons]
    rw [dumpFields] at dump
    by_cases kept : keep name = true
    · rw [if_pos kept] at dump
      obtain ⟨v, written, dump⟩ := exists_of_bind_eq_ok dump
      have after := ih dump
      cases later : Field.lastUnder keep rest n with
      | some e' =>
        rw [later] at after
        exact after
      | none =>
        rw [later] at after
        rw [kept]
        rw [Assoc.get?_insert] at after
        by_cases same : (Name.text (field.writeKey name) == n) = true
        · rw [if_pos same] at after
          simpa [same] using ⟨v, written, after⟩
        · rw [if_neg same] at after
          simpa [same] using after
    · rw [if_neg kept] at dump
      have after := ih dump
      simpa [kept] using after

namespace Instance

variable {given : Instance} {t : ModelType} {isPartial : Bool} {n : Name}

/-- What stands under a name in the dump of an instance, and null if nothing does: the written value
of the last field that is written under it, of those that were provided if the dump is partial. -/
def under (given : Instance) (t : ModelType) (isPartial : Bool) (n : Name) : Except Failure Value :=
  match Field.lastUnder (fun name => !isPartial || given.provided.contains name) t.fields n with
  | some e => e.2.type.write ((given.values.get? e.1).getD .null)
  | none => .ok .null

theorem get?_dump_eq_under {record : Record} (dump : given.dump t isPartial = .ok record)
    (n : Name) : given.under t isPartial n = .ok ((record.get? n).getD .null) := by
  have found := get?_dumpFields_lastUnder dump n
  rw [under]
  split at found
  · obtain ⟨v, written, there⟩ := found
    rw [there]
    exact written
  · rw [found]
    rfl

/-- Whether the field whose value stands under a name in a whole dump was provided. -/
def Provides (given : Instance) (t : ModelType) (n : Name) : Prop :=
  ∀ e, Field.lastUnder (fun _ => true) t.fields n = some e → given.provided.contains e.1 = true

theorem Provides.under_eq (h : given.Provides t n) :
    given.under t true n = given.under t false n := by
  have kept : Field.lastUnder (fun name => given.provided.contains name) t.fields n =
      Field.lastUnder (fun _ => true) t.fields n := Field.lastUnder_of_kept h
  simp only [under, Bool.not_true, Bool.false_or, Bool.not_false, Bool.true_or, kept]

/-- Where no field that is written under a name was provided, a partial dump has null. -/
theorem under_eq_null (h : ∀ e ∈ t.fields, (Name.text (e.2.writeKey e.1) == n) = true →
    given.provided.contains e.1 = false) : given.under t true n = .ok .null := by
  have none : Field.lastUnder (fun name => !true || given.provided.contains name) t.fields n =
      none := Field.lastUnder_eq_none h
  rw [under, none]

/-- Whether a value is that of the field whose value stands under a name in a whole dump, and is
written as it is. -/
def Shows (given : Instance) (t : ModelType) (n : Name) (v : Value) : Prop :=
  ∃ e, Field.lastUnder (fun _ => true) t.fields n = some e ∧ given.values.get? e.1 = some v ∧
    e.2.type.write v = .ok v

theorem Shows.under_eq {v : Value} (h : given.Shows t n v) : given.under t false n = .ok v := by
  obtain ⟨e, last, value, written⟩ := h
  have last : Field.lastUnder (fun name => !false || given.provided.contains name) t.fields n =
      some e := last
  rw [under, last]
  dsimp only
  rw [value, Option.getD_some, written]

end Instance

/-! ## Document keys of saves -/

namespace Mapper

variable {m : Mapper} {s : Sealer} {c : Catalog} {given : Instance} {isPartial : Bool}

/-- The value of a key in the dump of an instance. -/
def hashPart (given : Instance) (t : ModelType) (isPartial : Bool) (name : Value) :
    Except Failure Value := do
  given.under t isPartial (← name.toName)

/-- The same for a range key; a name that does not count as given names none. -/
def rangePart (given : Instance) (t : ModelType) (isPartial : Bool) (name : Value) :
    Except Failure Value :=
  if name.isGiven then hashPart given t isPartial name else .ok .null

/-- The document key of a save of an instance. -/
def addressOf (m : Mapper) (c : Catalog) (given : Instance) (isPartial : Bool) :
    Except Failure String := do
  let t := c.forest.typeAt given.model
  let (hashKey, rangeKey) ← m.keyNamesOf c given.model
  let hashValue ← hashPart given t isPartial hashKey
  pure (documentKey hashValue (← rangePart given t isPartial rangeKey))

theorem valueUnder_dump {t : ModelType} {record : Record}
    (dump : given.dump t isPartial = .ok record) (name : Value) :
    valueUnder record name = hashPart given t isPartial name := by
  rw [valueUnder, hashPart]
  cases name.toName with
  | error why => rfl
  | ok n => exact (Instance.get?_dump_eq_under dump n).symm

theorem Stores.addressOf_eq {key : String} {stored : Record}
    (h : m.Stores s c given isPartial key stored) : m.addressOf c given isPartial = .ok key := by
  obtain ⟨dumped, t, -, dump, parameters, made, -⟩ := h
  obtain ⟨hashKey, rangeKey, names, -, rfl⟩ := transformOf_eq_ok parameters
  rw [← made, keyOf, addressOf, names, rangeValue, valueUnder_dump dump, valueUnder_dump dump]
  rfl

/-- If the fields of the keys were provided, partial and whole saves have one address. -/
theorem addressOf_partial_eq (provides : ∀ hashKey rangeKey n,
      m.keyNamesOf c given.model = .ok (hashKey, rangeKey) →
      hashKey.toName = .ok n ∨ rangeKey.isGiven = true ∧ rangeKey.toName = .ok n →
      given.Provides (c.forest.typeAt given.model) n) :
    m.addressOf c given true = m.addressOf c given false := by
  rw [addressOf, addressOf]
  cases names : m.keyNamesOf c given.model with
  | error why => rfl
  | ok keys =>
    obtain ⟨hashKey, rangeKey⟩ := keys
    have parts (name : Value) (h : ∀ n, name.toName = .ok n →
        given.Provides (c.forest.typeAt given.model) n) :
        hashPart given (c.forest.typeAt given.model) true name =
          hashPart given (c.forest.typeAt given.model) false name := by
      rw [hashPart, hashPart]
      cases named : name.toName with
      | error why => rfl
      | ok n => exact (h n named).under_eq
    have hash := parts hashKey fun n named => provides _ _ n names (.inl named)
    have range : rangePart given (c.forest.typeAt given.model) true rangeKey =
        rangePart given (c.forest.typeAt given.model) false rangeKey := by
      rw [rangePart, rangePart]
      by_cases isGiven : rangeKey.isGiven = true
      · rw [if_pos isGiven, if_pos isGiven]
        exact parts rangeKey fun n named => provides _ _ n names (.inr ⟨isGiven, named⟩)
      · rw [if_neg isGiven, if_neg isGiven]
    simp only [bind, Except.bind, hash, range]

/-- Whether values are the hash and the range value of an instance, as they are written. -/
def IsShownBy (m : Mapper) (c : Catalog) (given : Instance) (hashValue rangeValue : Value) : Prop :=
  ∃ hashKey rangeKey h, m.keyNamesOf c given.model = .ok (hashKey, rangeKey) ∧
    hashKey.toName = .ok h ∧ given.Shows (c.forest.typeAt given.model) h hashValue ∧
    if rangeKey.isGiven then ∃ r, rangeKey.toName = .ok r ∧
      given.Shows (c.forest.typeAt given.model) r rangeValue
    else rangeValue = .null

theorem IsShownBy.addressOf_eq {hashValue rangeValue : Value}
    (shown : m.IsShownBy c given hashValue rangeValue) :
    m.addressOf c given false = .ok (documentKey hashValue rangeValue) := by
  obtain ⟨hashKey, rangeKey, h, names, named, hash, range⟩ := shown
  have hash : hashPart given (c.forest.typeAt given.model) false hashKey = .ok hashValue := by
    rw [hashPart, named]
    exact hash.under_eq
  have range : rangePart given (c.forest.typeAt given.model) false rangeKey = .ok rangeValue := by
    rw [rangePart]
    by_cases isGiven : rangeKey.isGiven = true
    · rw [if_pos isGiven] at range ⊢
      obtain ⟨r, named, shows⟩ := range
      rw [hashPart, named]
      exact shows.under_eq
    · rw [if_neg isGiven] at range ⊢
      rw [range]
  rw [addressOf, names]
  simp only [bind, Except.bind, hash, range]
  rfl

/-- Without its hash value the address of a partial save begins with what stands for null. -/
theorem addressOf_of_unset {hashKey rangeKey : Value} {h : Name} {key : String}
    (names : m.keyNamesOf c given.model = .ok (hashKey, rangeKey)) (named : hashKey.toName = .ok h)
    (unset : ∀ e ∈ (c.forest.typeAt given.model).fields,
      (Name.text (e.2.writeKey e.1) == h) = true → given.provided.contains e.1 = false)
    (address : m.addressOf c given true = .ok key) : ∃ v, key = documentKey .null v := by
  have hash : hashPart given (c.forest.typeAt given.model) true hashKey = .ok .null := by
    rw [hashPart, named]
    exact Instance.under_eq_null unset
  rw [addressOf, names] at address
  simp only [bind, Except.bind, hash] at address
  split at address
  · cases address
  · next v _ => exact ⟨v, (Except.ok.inj address).symm⟩

/-- A save that succeeds gives the address of the instance, whole or of what was provided, and
changes the document under it and no other. The two addresses are the same if the fields that the
keys are taken from were provided. If no field was that is written under the name of the hash key,
its default does not count: the partial save goes to the document of null. The whole save goes to
the document of the instance's own values if they are written as they are, the one that loads and
deletes address by these. -/
theorem address_of_save {table : Name} (seals : m.hooks.encryptor = .sealer s)
    (named : (m.tableOf c given.model).toName = .ok table) :
    (∀ isPartial σ σ' log log' key, m.Stands c σ →
      (m.save given isPartial).exec σ log = (.ok key, σ', log') →
      m.addressOf c given isPartial = .ok key ∧
      ∃ d, ∀ n, σ'.documents m.store n =
        if table == n then (σ.documents m.store table).insert (.text key) d
        else σ.documents m.store n) ∧
    ((∀ hashKey rangeKey n, m.keyNamesOf c given.model = .ok (hashKey, rangeKey) →
        hashKey.toName = .ok n ∨ rangeKey.isGiven = true ∧ rangeKey.toName = .ok n →
        given.Provides (c.forest.typeAt given.model) n) →
      m.addressOf c given true = m.addressOf c given false) ∧
    (∀ hashKey rangeKey h key, m.keyNamesOf c given.model = .ok (hashKey, rangeKey) →
      hashKey.toName = .ok h →
      (∀ e ∈ (c.forest.typeAt given.model).fields,
        (Name.text (e.2.writeKey e.1) == h) = true → given.provided.contains e.1 = false) →
      m.addressOf c given true = .ok key → ∃ v, key = documentKey .null v) ∧
    ∀ hashValue rangeValue,
      (m.IsShownBy c given hashValue rangeValue →
        m.addressOf c given false = .ok (documentKey hashValue rangeValue)) ∧
      (∀ σ log, m.Stands c σ → ∃ σ' log',
        (m.delete given.model hashValue rangeValue).exec σ log = (.ok (), σ', log') ∧
        ∀ n, σ'.documents m.store n = if table == n then
            (σ.documents m.store table).erase (.text (documentKey hashValue rangeValue))
          else σ.documents m.store n) ∧
      ∀ signature description σ log, s.Reserves signature description → m.Stands c σ →
        ((m.load given.model hashValue rangeValue).exec σ log).1 =
          match (σ.documents m.store table).get? (.text (documentKey hashValue rangeValue)) with
          | some d => m.opened s [signature, description] c given.model d.record
          | none => .error
              (.refused (.notFound (documentKey hashValue rangeValue) table.shown)) := by
  refine ⟨?_, addressOf_partial_eq, fun _ _ _ _ => addressOf_of_unset, ?_⟩
  · intro isPartial σ σ' log log' key stands ran
    obtain ⟨_, _, _, -, saved, effect⟩ := exec_save named stands log seals rfl isPartial
    cases saved.symm.trans ran
    obtain ⟨d, stored, changed⟩ := effect
    exact ⟨stored.addressOf_eq, d, changed⟩
  · intro hashValue rangeValue
    refine ⟨IsShownBy.addressOf_eq, ?_, ?_⟩
    · intro σ log stands
      obtain ⟨σ', log', -, changed, deleted⟩ := exec_delete named stands log hashValue rangeValue
      exact ⟨σ', log', deleted, changed⟩
    · intro signature description σ log reserves stands
      obtain ⟨_, _, -, -, loaded⟩ :=
        exec_load named stands log seals reserves hashValue rangeValue
      exact congrArg Prod.fst loaded

/-! ## A sample -/

/-- A type whose hash key has a default. -/
def sampleDraft : ModelType where
  name := "Draft"
  module := "drafts"
  kind := .sealedDocument
  lineage := [⟨6⟩, Forest.sealedRoot, Forest.documentRoot, Forest.plainRoot]
  fields := [
    ("id", { type := .text, default := some (.text "n-1"), writeName := none, readName := none,
             markers := .object { hashKey := .bool true : FieldMarkers }.toValue }),
    ("body", { type := .text, default := none, writeName := none, readName := none,
               markers := .object ({} : FieldMarkers).toValue })]

/-- A session with that type and an empty server. -/
def draftStart : Session :=
  { sampleStart with catalog := { forest := ⟨Forest.roots.types ++ [sampleDraft]⟩ } }

/-- An instance that has the default for its hash value. -/
def sampleDraftInstance : Instance where
  model := ⟨6⟩
  values := [("id", .text "n-1"), ("body", .text "x")]
  provided := ["body"]

theorem save_draft (isPartial : Bool) : ∃ after log,
    (sampleMapper.save sampleDraftInstance isPartial).exec draftStart {} =
      (.ok (if isPartial then "None" else "n-1"), after, log) := by
  cases isPartial <;> exact ⟨_, _, rfl⟩

/-- The whole save goes to the document that is loaded by the hash value, the partial one elsewhere.
-/
theorem address_of_save_sample :
    sampleMapper.IsShownBy draftStart.catalog sampleDraftInstance (.text "n-1") .null ∧
    sampleMapper.addressOf draftStart.catalog sampleDraftInstance false =
      .ok (documentKey (.text "n-1") .null) ∧
    sampleMapper.addressOf draftStart.catalog sampleDraftInstance true = .ok "None" := by
  have stands : sampleMapper.Stands draftStart.catalog draftStart :=
    ⟨.refl _, by decide, by decide, rfl, List.not_mem_nil⟩
  have shown : sampleMapper.IsShownBy draftStart.catalog sampleDraftInstance (.text "n-1") .null :=
    ⟨.text "id", .null, "id", rfl, rfl, ⟨_, rfl, rfl, rfl⟩, rfl⟩
  obtain ⟨saves, -, -, own⟩ :=
    @address_of_save sampleMapper .sample draftStart.catalog sampleDraftInstance "Draft" rfl rfl
  obtain ⟨after, log, ran⟩ := save_draft true
  exact ⟨shown, (own _ _).1 shown, (saves _ _ _ _ _ _ stands ran).1⟩

end Mapper

end RecordSeal
