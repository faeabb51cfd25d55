import RecordSeal.Proofs.Mapper.Stored

set_option autoImplicit false

/-! # Mappers refine a map from document keys to instances

A shelf says which instance of a type was last saved under a document key and not deleted since
(`Shelf`). Whatever was saved, loaded and deleted, in whatever order, the documents on the server
mirror the shelf (`Mapper.Mirrors`), so loading answers with it (`Mapper.refines_shelf`). -/

namespace RecordSeal

/-- The instances of each type by document key. -/
abbrev Shelf := ModelId → String → Option Instance

namespace Shelf

/-- A shelf without instances. -/
def empty : Shelf := fun _ _ => none

/-- Changes what is under one key of a type. -/
def put (shelf : Shelf) (model : ModelId) (key : String) (entry : Option Instance) : Shelf :=
  fun other k => if other = model ∧ k = key then entry else shelf other k

/-- A shelf after a save, which may have failed. -/
def saved (shelf : Shelf) (given : Instance) : Except Failure String → Shelf
  | .ok key => shelf.put given.model key (some given)
  | .error _ => shelf

theorem put_other {shelf : Shelf} {model other : ModelId} {key k : String}
    {entry : Option Instance} (h : ¬ (other = model ∧ k = key)) :
    shelf.put model key entry other k = shelf other k := if_neg h

end Shelf

/-- An instance that validation finds again in its dump, which holds JSON values. -/
structure Instance.Faithful (f : Forest) (given : Instance) : Prop where
  restored : ∀ dumped, given.dump (f.typeAt given.model) false = .ok dumped →
    ∃ back, f.validate given.model dumped = .ok back ∧ back.values = given.values
  json : ∀ dumped, given.dump (f.typeAt given.model) false = .ok dumped → ∀ e ∈ dumped, e.2.IsJson

theorem Forest.model_of_validate {f : Forest} {model : ModelId} {record : Record} {back : Instance}
    (h : f.validate model record = .ok back) : back.model = model := by
  rw [validate] at h
  split at h
  · split at h
    · cases h
      rfl
    · cases h
  · cases h

namespace Mapper

/-- The sessions that saves, loads and deletes of some types lead to, with what they leave on the
shelf. Meanwhile time may pass, random bytes be taken and policies be asked for. -/
inductive History (m : Mapper) (types : ModelId → Prop) (models : Instance → Prop)
    (start : Session) : Shelf → Session → Prop
  | start : History m types models start .empty start
  | save {shelf : Shelf} {σ σ' : Session} {given : Instance} {log log' : Log}
      {result : Except Failure String} (before : History m types models start shelf σ)
      (own : types given.model) (good : ∀ key, result = .ok key → models given)
      (ran : (m.save given false).exec σ log = (result, σ', log')) :
      History m types models start (shelf.saved given result) σ'
  | load {shelf : Shelf} {σ σ' : Session} {model : ModelId} {hashValue rangeValue : Value}
      {log log' : Log} {result : Except Failure Instance}
      (before : History m types models start shelf σ) (own : types model)
      (ran : (m.load model hashValue rangeValue).exec σ log = (result, σ', log')) :
      History m types models start shelf σ'
  | delete {shelf : Shelf} {σ σ' : Session} {model : ModelId} {hashValue rangeValue : Value}
      {log log' : Log} {result : Except Failure Unit}
      (before : History m types models start shelf σ) (own : types model)
      (ran : (m.delete model hashValue rangeValue).exec σ log = (result, σ', log')) :
      History m types models start (shelf.put model (documentKey hashValue rangeValue) none) σ'
  | wait {shelf : Shelf} {σ σ' : Session} (before : History m types models start shelf σ)
      (follows : σ.Follows σ') : History m types models start shelf σ'

/-- A mapper of a sealer for types whose tables are different and whose names suit it. -/
structure IsSetUp (m : Mapper) (s : Sealer) (reserved : List Name) (c : Catalog)
    (types : ModelId → Prop) (tables : ModelId → String) : Prop where
  seals : m.hooks.encryptor = .sealer s
  suits : ∀ model, types model → m.Suits c reserved model
  table : ∀ model, types model → m.tableOf c model = .text (tables model)
  apart : ∀ model other, types model → types other → tables model = tables other → model = other

/-- Whether the documents on the server are those of what is on the shelf. -/
structure Mirrors (m : Mapper) (s : Sealer) (c : Catalog) (types : ModelId → Prop)
    (models : Instance → Prop) (tables : ModelId → String) (shelf : Shelf) (σ : Session) :
    Prop where
  stands : m.Stands c σ
  filed : ∀ model key given, types model → shelf model key = some given →
    given.model = model ∧ models given ∧
    ∃ d, (σ.documents m.store (.text (tables model))).get? (.text key) = some d ∧
      m.Stores s c given false key d.record
  only : ∀ table q d, (σ.documents m.store table).get? q = some d →
    ∃ model key, types model ∧ table = .text (tables model) ∧ q = .text key ∧
      (shelf model key).isSome = true

section

variable {m : Mapper} {s : Sealer} {signature description : Name} {c : Catalog}
  {types : ModelId → Prop} {models : Instance → Prop} {tables : ModelId → String} {shelf : Shelf}
  {σ σ' : Session}

theorem Mirrors.of_documents (h : m.Mirrors s c types models tables shelf σ)
    (stands : m.Stands c σ') (same : ∀ n, σ'.documents m.store n = σ.documents m.store n) :
    m.Mirrors s c types models tables shelf σ' := by
  refine ⟨stands, ?_, ?_⟩
  · intro model key given own there
    rw [same]
    exact h.filed model key given own there
  · intro table q d found
    rw [same] at found
    exact h.only table q d found

variable (setUp : m.IsSetUp s [signature, description] c types tables)

include setUp

theorem IsSetUp.named {model : ModelId} (own : types model) :
    (m.tableOf c model).toName = .ok (.text (tables model)) := by
  rw [setUp.table model own]
  rfl

/-- If at most the document under one key changes, the shelf with that key changed mirrors the
documents again. -/
theorem Mirrors.change (h : m.Mirrors s c types models tables shelf σ) (stands : m.Stands c σ')
    {model : ModelId} (own : types model) {key : String} {entry : Option Instance}
    {after : Assoc Name Document}
    (changed : ∀ n, σ'.documents m.store n =
      if Name.text (tables model) == n then after else σ.documents m.store n)
    (others : ∀ q, ¬ (Name.text key == q) = true →
      after.get? q = (σ.documents m.store (.text (tables model))).get? q)
    (filed : ∀ given, entry = some given → given.model = model ∧ models given ∧
      ∃ d, after.get? (.text key) = some d ∧ m.Stores s c given false key d.record)
    (only : ∀ d, after.get? (.text key) = some d → entry.isSome = true) :
    m.Mirrors s c types models tables (shelf.put model key entry) σ' := by
  refine ⟨stands, ?_, ?_⟩
  · intro other k given own' there
    by_cases here : other = model ∧ k = key
    · obtain ⟨rfl, rfl⟩ := here
      rw [Shelf.put, if_pos ⟨rfl, rfl⟩] at there
      rw [changed, if_pos BEq.rfl]
      exact filed given there
    · rw [Shelf.put_other here] at there
      have same : (σ'.documents m.store (.text (tables other))).get? (.text k) =
          (σ.documents m.store (.text (tables other))).get? (.text k) := by
        rw [changed]
        by_cases shared : (Name.text (tables model) == .text (tables other)) = true
        · -- Tables tell types apart, so it is the key that differs.
          rw [if_pos shared]
          rw [Name.text_beq_text, decide_eq_true_iff] at shared
          obtain rfl := setUp.apart _ _ own own' shared
          refine others (.text k) ?_
          rw [Name.text_beq_text, decide_eq_true_iff]
          exact fun keys => here ⟨rfl, keys.symm⟩
        · rw [if_neg shared]
      rw [same]
      exact h.filed other k given own' there
  · intro table q d found
    rw [changed] at found
    by_cases same : (Name.text (tables model) == table) = true
    · rw [if_pos same] at found
      obtain rfl := Name.eq_of_text_beq same
      by_cases here : (Name.text key == q) = true
      · obtain rfl := Name.eq_of_text_beq here
        refine ⟨model, key, own, rfl, rfl, ?_⟩
        rw [Shelf.put, if_pos ⟨rfl, rfl⟩]
        exact only d found
      · rw [others q here] at found
        obtain ⟨other, k, own', table_, rfl, there⟩ := h.only _ q d found
        refine ⟨other, k, own', table_, rfl, ?_⟩
        rw [Shelf.put_other, there]
        rintro ⟨-, rfl⟩
        exact here BEq.rfl
    · rw [if_neg same] at found
      obtain ⟨other, k, own', rfl, rfl, there⟩ := h.only table q d found
      refine ⟨other, k, own', rfl, rfl, ?_⟩
      rw [Shelf.put_other, there]
      rintro ⟨rfl, -⟩
      exact same BEq.rfl

/-- A document that takes the place under a key is mirrored by the shelf with its instance. -/
theorem Mirrors.put (h : m.Mirrors s c types models tables shelf σ) (stands : m.Stands c σ')
    {given : Instance} (own : types given.model) (good : models given) {key : String}
    {d : Document} (stored : m.Stores s c given false key d.record)
    (changed : ∀ n, σ'.documents m.store n =
      if Name.text (tables given.model) == n then
        (σ.documents m.store (.text (tables given.model))).insert (.text key) d
      else σ.documents m.store n) :
    m.Mirrors s c types models tables (shelf.put given.model key (some given)) σ' := by
  refine h.change setUp stands own changed ?_ ?_ ?_
  · intro q other
    rw [Assoc.get?_insert, if_neg other]
  · intro given' same
    obtain rfl := Option.some.inj same
    exact ⟨rfl, good, d, by rw [Assoc.get?_insert, if_pos BEq.rfl], stored⟩
  · intro _ _
    rfl

/-- Once the document under a key is gone, nothing is on the shelf there. -/
theorem Mirrors.erase (h : m.Mirrors s c types models tables shelf σ) (stands : m.Stands c σ')
    {model : ModelId} (own : types model) {key : String}
    (changed : ∀ n, σ'.documents m.store n =
      if Name.text (tables model) == n then
        (σ.documents m.store (.text (tables model))).erase (.text key)
      else σ.documents m.store n) :
    m.Mirrors s c types models tables (shelf.put model key none) σ' := by
  refine h.change setUp stands own changed ?_ ?_ ?_
  · intro q other
    rw [Assoc.get?_erase, if_neg other]
  · intro given gone
    cases gone
  · intro d found
    rw [Assoc.get?_erase, if_pos BEq.rfl] at found
    cases found

/-- Every history leaves documents that mirror the shelf. -/
theorem mirrors_of_history (names : s.Reserves signature description) {start : Session}
    (here : c = start.catalog) (serves : start.Serves m.store)
    (empty : ∀ table, start.documents m.store table = [])
    (history : m.History types models start shelf σ) :
    m.Mirrors s c types models tables shelf σ := by
  induction history with
  | start =>
    subst here
    refine ⟨⟨.refl _, serves⟩, ?_, ?_⟩
    · intro model key given own there
      cases there
    · intro table q d found
      rw [empty] at found
      cases found
  | @save shelf σ σ' given log log' result before own good ran ih =>
    obtain ⟨result', σ₁, log₁, stands, saved, effect⟩ := exec_save (setUp.named own) ih.stands log
      setUp.seals rfl false
    obtain ⟨rfl, rfl, rfl⟩ : result' = result ∧ σ₁ = σ' ∧ log₁ = log' := by
      simpa using saved.symm.trans ran
    cases result' with
    | error why =>
      -- The shelf stays as it is.
      exact ih.of_documents stands effect
    | ok key =>
      obtain ⟨d, stored, changed⟩ := effect
      exact ih.put setUp stands own (good key rfl) stored changed
  | load before own ran ih =>
    obtain ⟨σ₁, log₁, stands, same, loaded⟩ := exec_load (setUp.named own) ih.stands _ setUp.seals
      names _ _
    rw [loaded] at ran
    cases ran
    exact ih.of_documents stands same
  | delete before own ran ih =>
    obtain ⟨σ₁, log₁, stands, changed, deleted⟩ := exec_delete (setUp.named own) ih.stands _ _ _
    rw [deleted] at ran
    cases ran
    exact ih.erase setUp stands own changed
  | wait before follows ih =>
    -- Nothing of what happens meanwhile touches a document.
    exact ih.of_documents (ih.stands.follows follows) (follows.documents m.store)

/-- Whether the signed bytes of a stored record and those that its own type looks at when it is
opened are different ones with the same code. -/
def Collides (m : Mapper) (s : Sealer) (reserved : List Name) (c : Catalog) (model : ModelId)
    (stored : Record) : Prop :=
  ∃ p context salt described, m.hooks.policyOf c model = .ok p ∧
    s.SignedCollide salt described context context stored stored p.fields
      (p.reconcile stored.keys reserved)

theorem Mirrors.get?_eq_none (h : m.Mirrors s c types models tables shelf σ) {model : ModelId}
    (own : types model) {key : String} (there : shelf model key = none) :
    (σ.documents m.store (.text (tables model))).get? (.text key) = none := by
  cases found : (σ.documents m.store (.text (tables model))).get? (.text key) with
  | none => rfl
  | some d =>
    exfalso
    obtain ⟨other, k, own', table_, key_, filed⟩ := h.only _ _ d found
    obtain rfl := setUp.apart _ _ own own' (Name.text.inj table_)
    obtain rfl := Name.text.inj key_
    rw [there] at filed
    cases filed

/-- What is stored under a key opens to the instance on the shelf if the type is readable, and opens
only by a collision if it is not. -/
theorem Mirrors.opened (names : s.Reserves signature description)
    (h : m.Mirrors s c types models tables shelf σ)
    (faithful : ∀ given, models given → given.Faithful c.forest) {model : ModelId}
    (own : types model) {key : String} {given : Instance} (there : shelf model key = some given) :
    ∃ d, (σ.documents m.store (.text (tables model))).get? (.text key) = some d ∧
      (m.Readable c model → ∃ back,
        m.opened s [signature, description] c model d.record = .ok back ∧
        back.model = given.model ∧ back.values = given.values) ∧
      (¬ m.Readable c model → (∃ t, m.boundTable c model = .text t) → ∀ back,
        m.opened s [signature, description] c model d.record = .ok back →
        m.Collides s [signature, description] c model d.record) := by
  obtain ⟨rfl, good, d, found, stored⟩ := h.filed _ _ given own there
  refine ⟨d, found, ?_, ?_⟩
  · intro readable
    have ⟨dumped, _, _, dump, _⟩ := stored
    obtain ⟨back, restored, values⟩ := (faithful given good).restored dumped dump
    refine ⟨back, ?_, Forest.model_of_validate restored, values⟩
    rw [stored.opened_eq names (setUp.suits _ own) readable rfl (faithful given good).json, dump]
    exact restored
  · intro unreadable bound back opens
    exact stored.collide_of_opened names (setUp.suits _ own) unreadable bound rfl
      (faithful given good).json opens

/-- A save that fails changes what no load gives. -/
theorem Mirrors.load_of_failed_save (names : s.Reserves signature description)
    (h : m.Mirrors s c types models tables shelf σ) {given : Instance} (own : types given.model)
    {log log' : Log} {why : Failure}
    (failed : (m.save given false).exec σ log = (.error why, σ', log')) {model : ModelId}
    (own' : types model) (hashValue rangeValue : Value) (log₂ : Log) :
    ((m.load model hashValue rangeValue).exec σ' log₂).1 =
      ((m.load model hashValue rangeValue).exec σ log₂).1 := by
  obtain ⟨result, σ₁, log₁, stands, saved, effect⟩ := exec_save (setUp.named own) h.stands log
    setUp.seals rfl false
  obtain ⟨rfl, rfl, rfl⟩ : result = .error why ∧ σ₁ = σ' ∧ log₁ = log' := by
    simpa using saved.symm.trans failed
  obtain ⟨σ₂, log₂', -, -, before⟩ := exec_load (setUp.named own') h.stands log₂ setUp.seals names
    hashValue rangeValue
  obtain ⟨σ₃, log₃, -, -, afterwards⟩ := exec_load (setUp.named own') stands log₂ setUp.seals names
    hashValue rangeValue
  rw [before, afterwards, effect]

/-- A document stands under the key that is made of its own key attributes. -/
theorem Mirrors.keyOf_document (names : s.Reserves signature description)
    (h : m.Mirrors s c types models tables shelf σ) {table q : Name} {d : Document}
    (found : (σ.documents m.store table).get? q = some d) :
    ∃ model key hashKey rangeKey, types model ∧ table = .text (tables model) ∧ q = .text key ∧
      m.keyNamesOf c model = .ok (hashKey, rangeKey) ∧
      keyOf ⟨model, .text (tables model), hashKey, rangeKey, d.record, false⟩ = .ok key := by
  obtain ⟨model, key, own, rfl, rfl, filed⟩ := h.only table q d found
  obtain ⟨given, there⟩ := Option.isSome_iff_exists.1 filed
  obtain ⟨same, -, d', found', stored⟩ := h.filed _ _ given own there
  obtain rfl : d = d' := Option.some.inj (found.symm.trans found')
  obtain ⟨hashKey, rangeKey, keyNames, keyed⟩ := stored.keyOf_eq names (setUp.suits _ own) same
  refine ⟨model, key, hashKey, rangeKey, own, rfl, rfl, keyNames, ?_⟩
  rw [← setUp.table model own]
  exact keyed

end

/-- After any history of saves, loads and deletes, loading finds what is on the shelf, or reports
that nothing is there. An instance of a type that is not readable is the exception: collisions
apart, it is not loaded again. A save that fails changes no later load. Every document stands under
the key that is made of its own key attributes. -/
theorem refines_shelf {m : Mapper} {s : Sealer} {signature description : Name}
    {types : ModelId → Prop} {models : Instance → Prop} {tables : ModelId → String}
    {start σ : Session} {shelf : Shelf} (names : s.Reserves signature description)
    (setUp : m.IsSetUp s [signature, description] start.catalog types tables)
    (faithful : ∀ given, models given → given.Faithful start.catalog.forest)
    (serves : start.Serves m.store) (empty : ∀ table, start.documents m.store table = [])
    (history : m.History types models start shelf σ) :
    (∀ model hashValue rangeValue log result after, types model →
      (m.load model hashValue rangeValue).exec σ log = (result, after) →
      match shelf model (documentKey hashValue rangeValue) with
      | none =>
        result = .error (.refused (.notFound (documentKey hashValue rangeValue) (tables model)))
      | some given =>
        (m.Readable start.catalog model →
          ∃ back, result = .ok back ∧ back.model = given.model ∧ back.values = given.values) ∧
        (¬ m.Readable start.catalog model → (∃ t, m.boundTable start.catalog model = .text t) →
          ∀ back, result = .ok back →
            ∃ d, (σ.documents m.store (.text (tables model))).get?
                (.text (documentKey hashValue rangeValue)) = some d ∧
              m.Collides s [signature, description] start.catalog model d.record)) ∧
    (∀ given log why σ' log', types given.model →
      (m.save given false).exec σ log = (.error why, σ', log') →
      ∀ model hashValue rangeValue, types model → ∀ log,
        ((m.load model hashValue rangeValue).exec σ' log).1 =
          ((m.load model hashValue rangeValue).exec σ log).1) ∧
    (∀ table q d, (σ.documents m.store table).get? q = some d →
      ∃ model key hashKey rangeKey, types model ∧ table = .text (tables model) ∧ q = .text key ∧
        m.keyNamesOf start.catalog model = .ok (hashKey, rangeKey) ∧
        keyOf ⟨model, .text (tables model), hashKey, rangeKey, d.record, false⟩ = .ok key) := by
  have mirrors := mirrors_of_history setUp names rfl serves empty history
  refine ⟨?_, ?_, fun table q d found => mirrors.keyOf_document setUp names found⟩
  · intro model hashValue rangeValue log result after own ran
    obtain ⟨σ₁, log₁, -, -, loaded⟩ := exec_load (setUp.named own) mirrors.stands log setUp.seals
      names hashValue rangeValue
    rw [loaded, Prod.mk.injEq] at ran
    obtain ⟨rfl, -⟩ := ran
    cases there : shelf model (documentKey hashValue rangeValue) with
    | none =>
      rw [mirrors.get?_eq_none setUp own there]
      rfl
    | some given =>
      obtain ⟨d, found, opens, collides⟩ := mirrors.opened setUp names faithful own there
      rw [found]
      refine ⟨opens, ?_⟩
      intro unreadable bound back loads
      exact ⟨d, rfl, collides unreadable bound back loads⟩
  · -- What a load gives depends on the catalog and the documents only.
    intro given log why σ' log' own failed model hashValue rangeValue own' log₂
    exact mirrors.load_of_failed_save setUp names own failed own' hashValue rangeValue log₂

/-! ## A sample -/

/-- A type with a hash key and a field that is encrypted. -/
def sampleType : ModelType where
  name := "Note"
  module := "notes"
  kind := .sealedDocument
  lineage := [⟨6⟩, Forest.sealedRoot, Forest.documentRoot, Forest.plainRoot]
  fields := [
    ("id", { type := .text, default := none, writeName := none, readName := none,
             markers := .object { hashKey := .bool true : FieldMarkers }.toValue }),
    ("body", { type := .text, default := none, writeName := none, readName := none,
               markers := .object ({} : FieldMarkers).toValue })]

/-- A session with the sample type and an empty server. -/
def sampleStart : Session where
  around := { now := ⟨2024, 1, 1, 0, 0, 0, 0⟩, entropy := { stream := fun _ => 0 } }
  catalog := { forest := ⟨Forest.roots.types ++ [sampleType]⟩ }
  servers := [{}]
  stores := [{ server := ⟨0⟩ }]

/-- A mapper on the server of the sample session. -/
def sampleMapper : Mapper := ⟨⟨.sealer .sample, ⟨0⟩, .registry ⟨0⟩⟩, ⟨0⟩, ⟨0⟩⟩

/-- An instance of the sample type. -/
def sampleInstance : Instance where
  model := ⟨6⟩
  values := [("id", .text "a"), ("body", .text "b")]
  provided := ["id", "body"]

/-- The mappings of the sample type. -/
def sampleMappings : List FieldMapping := [
  { name := .text "id", attributeName := .text "id", markers := { hashKey := .bool true } },
  { name := .text "body", attributeName := .text "body" }]

theorem mappingsOf_sample :
    sampleMapper.mappingsOf sampleStart.catalog ⟨6⟩ = .ok sampleMappings := rfl

theorem storedNames_sample : storedNames sampleMappings = ["id", "body"] := rfl

theorem suits_sample : sampleMapper.Suits sampleStart.catalog ["*sig*", "*desc*"] ⟨6⟩ := by
  refine ⟨rfl, ?_, ?_⟩
  · intro mappings found
    rw [mappingsOf_sample] at found
    cases found
    constructor <;> rw [storedNames_sample] <;> simp
  · have fields : (sampleStart.catalog.forest.typeAt ⟨6⟩).fields = sampleType.fields := rfl
    rw [fields]
    simp [sampleType, Field.writeKey]

theorem isSetUp_sample : sampleMapper.IsSetUp .sample ["*sig*", "*desc*"] sampleStart.catalog
    (· = ⟨6⟩) fun _ => "Note" := by
  constructor
  · rfl
  · rintro _ rfl
    exact suits_sample
  · rintro _ rfl
    rfl
  · rintro _ _ rfl rfl -
    rfl

theorem faithful_sample : sampleInstance.Faithful sampleStart.catalog.forest := by
  have dump : sampleInstance.dump (sampleStart.catalog.forest.typeAt sampleInstance.model) false =
      .ok [("id", .text "a"), ("body", .text "b")] := rfl
  constructor
  · intro dumped h
    rw [dump] at h
    cases h
    exact ⟨_, rfl, rfl⟩
  · intro dumped h
    rw [dump] at h
    cases h
    simp [Value.IsJson.text]

theorem save_sample : ∃ after log,
    (sampleMapper.save sampleInstance false).exec sampleStart {} = (.ok "a", after, log) :=
  ⟨_, _, rfl⟩

/-- The sample instance is saved and loaded again. -/
theorem refines_shelf_sample : ∃ σ back after,
    sampleMapper.History (· = ⟨6⟩) (· = sampleInstance) sampleStart
      (Shelf.empty.put ⟨6⟩ "a" (some sampleInstance)) σ ∧
    (sampleMapper.load ⟨6⟩ (.text "a") .null).exec σ {} = (.ok back, after) ∧
    back.model = ⟨6⟩ ∧ back.values = sampleInstance.values := by
  obtain ⟨σ, log, ran⟩ := save_sample
  have history : sampleMapper.History (· = ⟨6⟩) (· = sampleInstance) sampleStart
      (Shelf.empty.put ⟨6⟩ "a" (some sampleInstance)) σ := by
    show sampleMapper.History _ _ _ (Shelf.empty.saved sampleInstance (.ok "a")) σ
    exact .save .start rfl (fun _ _ => rfl) ran
  have loads := (refines_shelf Sealer.reserves_sample isSetUp_sample
    (by rintro _ rfl; exact faithful_sample) ⟨by decide, by decide, rfl, List.not_mem_nil⟩
    (fun _ => rfl) history).1 ⟨6⟩ (.text "a") .null {} _ _ rfl rfl
  have readable : sampleMapper.Readable sampleStart.catalog ⟨6⟩ := by
    intro _ handles
    cases handles
  obtain ⟨back, result, model, values⟩ := loads.1 readable
  exact ⟨σ, back, _, history, Prod.ext result rfl, model, values⟩

end Mapper

end RecordSeal
