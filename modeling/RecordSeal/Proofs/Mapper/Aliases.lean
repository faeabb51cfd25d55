import RecordSeal.Proofs.Mapper.Protection

set_option autoImplicit false

/-! # What is loaded after a save

Fields are written under one name and read under another if their declarations say so. After a save
a load gives each field what it is read back as (`Instance.ReadsBack`): its own value if its
declaration does not split its names (`Declaration.IsSplit`), and the value of another field, its
default or nothing at all if that is where the name it is read under leads
(`Mapper.restored_unless_split`). -/

namespace RecordSeal

/-! ## Declarations of names -/

/-- Whether a declaration has a field written under one name and read under another. -/
def Declaration.IsSplit (d : Declaration) : Prop :=
  d.kind = .plain ∧
    (d.writeAlias.bind Value.text?).or (d.aliasName.bind Value.text?) ≠
      (d.readAlias.bind Value.text?).or (d.aliasName.bind Value.text?)

/-- Unless its declaration splits its names, a field is read under the name it is written under. -/
theorem Field.readName_eq_writeName {d : Declaration} {f : Field} (made : ofDeclaration d = .ok f)
    (unsplit : ¬ d.IsSplit) : f.readName = f.writeName := by
  rw [ofDeclaration] at made
  split at made
  · cases made
    rfl
  · next plain =>
    have same := not_ne_iff.1 fun different => unsplit ⟨plain, different⟩
    rw [ofPlain] at made
    split at made
    · cases made
    · cases made
      dsimp only
      rw [same]
      cases d.readAlias <;> rfl
  · rw [ofMarked] at made
    simp only [bind, Except.bind, pure, Except.pure] at made
    split at made
    · cases made
    · split at made
      · cases made
      · split at made
        · cases made
        · cases made
          rfl

/-! ## Values that are read back -/

namespace Instance

/-- Whether an instance has a standard value for every field. -/
def IsWhole (given : Instance) (t : ModelType) : Prop :=
  ∀ e ∈ t.fields, ∃ v, given.values.get? e.1 = some v ∧ v.IsStandard

/-- What a field of an instance is read back as: what its type takes of the written value of its
source, or its default if it has no source. -/
def ReadsBack (given : Instance) (byName : Bool) (fields : Assoc String Field)
    (e : String × Field) (u : Value) : Prop :=
  match Field.sourceIn byName fields e with
  | some e' => ∃ v w, given.values.get? e'.1 = some v ∧ e'.2.type.write v = .ok w ∧
      e.2.type.Takes w u
  | none => e.2.default = some u

variable {given : Instance} {byName : Bool} {t : ModelType} {e : String × Field} {dumped : Record}

/-- A field that is its own source is read back as its value if that is one that its type takes. -/
theorem IsWhole.readsBack_self (whole : given.IsWhole t) (he : e ∈ t.fields)
    (source : Field.sourceIn byName t.fields e = some e) {v : Value}
    (value : given.values.get? e.1 = some v) (taken : e.2.type.Takes v v) :
    given.ReadsBack byName t.fields e v := by
  obtain ⟨v', found, standard⟩ := whole e he
  obtain rfl := Option.some.inj (value.symm.trans found)
  rw [ReadsBack, source]
  exact ⟨v, v, value, FieldType.write_of_takes taken standard, taken⟩

/-- What a field is read back as is what validation reads in the dump. -/
theorem IsWhole.read_dump_iff (whole : given.IsWhole t) (dump : given.dump t false = .ok dumped)
    (apart : (t.fields.map fun e => e.2.writeKey e.1).Nodup) (u : Value) :
    (∃ provided, e.2.read byName e.1 dumped = .ok (u, provided)) ↔
      given.ReadsBack byName t.fields e u := by
  rw [ReadsBack]
  cases source : Field.sourceIn byName t.fields e with
  | none =>
    rw [read_of_no_source dump source]
    cases e.2.default <;> simp
  | some e' =>
    obtain ⟨w, written, read⟩ := read_of_source dump apart source
    obtain ⟨v, found, -⟩ := whole e' (Field.mem_of_sourceIn source)
    rw [found] at written
    rw [read]
    constructor
    · rintro ⟨provided, read⟩
      obtain ⟨u', accepted, same⟩ := exists_of_map_eq_ok read
      obtain ⟨rfl, -⟩ := Prod.mk.inj same
      exact ⟨v, w, found, written, (FieldType.takes_of_accept accepted).1⟩
    · rintro ⟨v', w', found', written', taken⟩
      obtain rfl := Option.some.inj (found.symm.trans found')
      obtain rfl := Except.ok.inj (written.symm.trans written')
      exact ⟨true, by rw [taken]; rfl⟩

theorem IsWhole.isJson_dump (whole : given.IsWhole t) (dump : given.dump t false = .ok dumped)
    (apart : (t.fields.map fun e => e.2.writeKey e.1).Nodup) : ∀ l ∈ dumped, l.2.IsJson := by
  rintro ⟨k, w⟩ hl
  obtain ⟨e, he, rfl⟩ := keys_dump dump k (List.mem_map_of_mem hl)
  obtain ⟨w', written, found⟩ := get?_dump dump apart he
  obtain ⟨v, value, standard⟩ := whole e he
  rw [value] at written
  obtain rfl := Option.some.inj ((Assoc.get?_of_mem (distinct_dump dump) hl).symm.trans found)
  exact (FieldType.isStandard_of_write standard written).isJson

/-- The instances that validation makes of a dump are those of what the fields are read back as. -/
theorem IsWhole.validate_dump_iff {f : Forest} {id : ModelId} (whole : given.IsWhole (f.typeAt id))
    (document : (f.typeAt id).isDocument) (distinct : Assoc.Distinct (f.typeAt id).fields)
    (apart : ((f.typeAt id).fields.map fun e => e.2.writeKey e.1).Nodup)
    (dump : given.dump (f.typeAt id) false = .ok dumped) {values : Record}
    (names : values.keys = (f.typeAt id).fields.map fun e => .text e.1) :
    (∃ back, f.validate id dumped = .ok back ∧ back.model = id ∧ back.values = values) ↔
      ∀ e ∈ (f.typeAt id).fields, ∃ u, values.get? e.1 = some u ∧
        given.ReadsBack ((f.typeAt id).kind = .sealedDocument) (f.typeAt id).fields e u := by
  rw [Forest.validate_eq_ok_iff document distinct names]
  refine forall₂_congr fun e he => exists_congr fun u => ?_
  rw [← whole.read_dump_iff dump apart, exists_and_right, and_comm]

/-- A field without a source and without a default is missing in the dump. -/
theorem exists_missing_of_validate {f : Forest} {id : ModelId}
    (document : (f.typeAt id).isDocument) (dump : given.dump (f.typeAt id) false = .ok dumped)
    (he : e ∈ (f.typeAt id).fields)
    (source : Field.sourceIn ((f.typeAt id).kind = .sealedDocument) (f.typeAt id).fields e = none)
    (bare : e.2.default = none) :
    ∃ issues, f.validate id dumped = .error (.invalid issues) ∧
      ⟨[.key (e.2.readName.getD e.1)], "missing"⟩ ∈ issues := by
  have refused := read_of_no_source dump source
  rw [bare] at refused
  obtain ⟨issues, all, within⟩ := exists_issues_readFields he refused
  refine ⟨issues, ?_, within (List.mem_singleton_self _)⟩
  rw [Forest.validate, if_pos document, all]

/-- Whether a value of an instance is written under a key name. -/
def HoldsKey (given : Instance) (t : ModelType) (name v : Value) : Prop :=
  ∃ e ∈ t.fields, name = .text (e.2.writeKey e.1) ∧ given.values.get? e.1 = some v ∧
    e.2.type.Takes v v

/-- A key value stands in the dump under its key name. -/
theorem HoldsKey.valueUnder_dump {name v : Value} (h : given.HoldsKey t name v)
    (whole : given.IsWhole t) (dump : given.dump t false = .ok dumped)
    (apart : (t.fields.map fun e => e.2.writeKey e.1).Nodup) :
    Mapper.valueUnder dumped name = .ok v := by
  obtain ⟨e, he, rfl, value, taken⟩ := h
  obtain ⟨w, written, found⟩ := get?_dump dump apart he
  obtain ⟨v', value', standard⟩ := whole e he
  obtain rfl := Option.some.inj (value.symm.trans value')
  rw [value, Option.getD_some, FieldType.write_of_takes taken standard] at written
  obtain rfl := Except.ok.inj written
  show Except.ok ((dumped.get? _).getD .null) = _
  rw [found]
  rfl

end Instance

namespace Mapper

variable {m : Mapper} {s : Sealer} {signature description : Name} {c : Catalog} {given : Instance}

/-- A type whose mappings are those of its fields is readable if none of the fields is written under
the empty name. -/
theorem readable_of_fields {model : ModelId}
    (introspected : ∀ mappings, m.mappingsOf c model = .ok mappings →
      Registry.mappingsOfFields (c.forest.typeAt model).fields = .ok mappings)
    (declared : ∀ e ∈ (c.forest.typeAt model).fields, ∃ d, Field.ofDeclaration d = .ok e.2)
    (named : ∀ e ∈ (c.forest.typeAt model).fields, e.2.writeName ≠ some "") :
    m.Readable c model := by
  intro _ _ mappings found e he
  obtain ⟨d, made⟩ := declared e he
  rw [(Registry.mappingsOfFields_spec (introspected mappings found)).1]
  refine ⟨_, List.mem_map_of_mem he, ?_⟩
  rw [Field.storedName_eq_writeKey (Field.isDeclared_ofDeclaration made) (named e he)]
  exact BEq.rfl

/-- Whether values are the hash and the range value of an instance. -/
def IsKeyedBy (m : Mapper) (c : Catalog) (given : Instance) (hashValue rangeValue : Value) : Prop :=
  ∃ hashKey rangeKey, m.keyNamesOf c given.model = .ok (hashKey, rangeKey) ∧
    given.HoldsKey (c.forest.typeAt given.model) hashKey hashValue ∧
    if rangeKey.isGiven then given.HoldsKey (c.forest.typeAt given.model) rangeKey rangeValue
    else rangeValue = .null

/-- An instance is stored under the document key of its hash and range values. -/
theorem Stores.key_of_isKeyedBy {key : String} {stored : Record}
    (h : m.Stores s c given false key stored)
    (whole : given.IsWhole (c.forest.typeAt given.model))
    (apart : ((c.forest.typeAt given.model).fields.map fun e => e.2.writeKey e.1).Nodup)
    {hashValue rangeValue : Value} (keyed : m.IsKeyedBy c given hashValue rangeValue) :
    documentKey hashValue rangeValue = key := by
  obtain ⟨dumped, t, -, dump, parameters, made, -⟩ := h
  obtain ⟨hashKey, rangeKey, keyNames, hash, range⟩ := keyed
  obtain ⟨_, _, names, -, rfl⟩ := transformOf_eq_ok parameters
  cases keyNames.symm.trans names
  have ranged : Mapper.rangeValue dumped rangeKey = .ok rangeValue := by
    rw [Mapper.rangeValue]
    split at range
    · next isGiven => rw [if_pos isGiven, range.valueUnder_dump whole dump apart]
    · next absent => rw [if_neg absent, range]
  rw [keyOf, hash.valueUnder_dump whole dump apart] at made
  change (Mapper.rangeValue dumped rangeKey).bind _ = _ at made
  rw [ranged] at made
  exact Except.ok.inj made

/-- What is loaded under the document key that a save gives is what the stored record opens to. -/
theorem exists_opened_of_save {σ σ' : Session} {log log' : Log} {key : String}
    (names : s.Reserves signature description) (seals : m.hooks.encryptor = .sealer s)
    (stands : m.Stands c σ) (ran : (m.save given false).exec σ log = (.ok key, σ', log')) :
    ∃ table d, (m.tableOf c given.model).toName = .ok table ∧
      (σ'.documents m.store table).get? (.text key) = some d ∧
      m.Stores s c given false key d.record ∧
      ∀ hashValue rangeValue log₂, documentKey hashValue rangeValue = key →
        ((m.load given.model hashValue rangeValue).exec σ' log₂).1 =
          m.opened s [signature, description] c given.model d.record := by
  obtain ⟨table, -, named, -, -⟩ :=
    exists_document_of_save log stands.catalog stands.serves.holds seals ran
  obtain ⟨_, _, _, stands', saved, effect⟩ := exec_save named stands log seals rfl false
  cases saved.symm.trans ran
  obtain ⟨d, stored, changed⟩ := effect
  have found : (σ'.documents m.store table).get? (.text key) = some d := by
    rw [changed, if_pos BEq.rfl, Assoc.get?_insert, if_pos BEq.rfl]
  refine ⟨table, d, named, found, stored, ?_⟩
  rintro hashValue rangeValue log₂ rfl
  obtain ⟨_, _, -, -, loaded⟩ := exec_load named stands' log₂ seals names hashValue rangeValue
  rw [loaded, found]

/-- After a save that succeeds, a load under the hash and range values of the instance gives exactly
what the fields are read back as, and is refused where a field without a default is missing. A
field is read back as its value if its type takes that and it is its own source, as every field is
whose declaration does not split its names. A type that is not readable is the exception: collisions
apart, nothing is loaded. One whose mappings are those of its fields is readable unless a field is
written under the empty name. -/
theorem restored_unless_split {σ σ' : Session} {log log' : Log} {key : String}
    (names : s.Reserves signature description) (seals : m.hooks.encryptor = .sealer s)
    (suits : m.Suits c [signature, description] given.model)
    (document : (c.forest.typeAt given.model).isDocument)
    (distinct : Assoc.Distinct (c.forest.typeAt given.model).fields)
    (apart : ((c.forest.typeAt given.model).fields.map fun e => e.2.writeKey e.1).Nodup)
    (whole : given.IsWhole (c.forest.typeAt given.model)) (stands : m.Stands c σ)
    (ran : (m.save given false).exec σ log = (.ok key, σ', log')) :
    let fields := (c.forest.typeAt given.model).fields
    let byName : Bool := (c.forest.typeAt given.model).kind = .sealedDocument
    (∀ hashValue rangeValue, m.IsKeyedBy c given hashValue rangeValue →
      documentKey hashValue rangeValue = key) ∧
    (∀ hashValue rangeValue log₂ result after, documentKey hashValue rangeValue = key →
      (m.load given.model hashValue rangeValue).exec σ' log₂ = (result, after) →
      (m.Readable c given.model →
        (∀ values : Record, values.keys = fields.map (fun e => .text e.1) →
          ((∃ back, result = .ok back ∧ back.model = given.model ∧ back.values = values) ↔
            ∀ e ∈ fields, ∃ u, values.get? e.1 = some u ∧ given.ReadsBack byName fields e u)) ∧
        (∀ e ∈ fields, Field.sourceIn byName fields e = none → e.2.default = none →
          ∃ issues, result = .error (.invalid issues) ∧
            ⟨[.key (e.2.readName.getD e.1)], "missing"⟩ ∈ issues)) ∧
      (¬ m.Readable c given.model → (∃ t, m.boundTable c given.model = .text t) →
        ∀ back, result = .ok back → ∃ table d, (m.tableOf c given.model).toName = .ok table ∧
          (σ'.documents m.store table).get? (.text key) = some d ∧
          m.Collides s [signature, description] c given.model d.record)) ∧
    (∀ e ∈ fields, ∀ v, given.values.get? e.1 = some v → e.2.type.Takes v v →
      (Field.sourceIn byName fields e = some e ∨
        ∃ d, Field.ofDeclaration d = .ok e.2 ∧ ¬ d.IsSplit) →
      given.ReadsBack byName fields e v) ∧
    ((∀ mappings, m.mappingsOf c given.model = .ok mappings →
        Registry.mappingsOfFields fields = .ok mappings) →
      (∀ e ∈ fields, ∃ d, Field.ofDeclaration d = .ok e.2) →
      (∀ e ∈ fields, e.2.writeName ≠ some "") → m.Readable c given.model) := by
  intro fields byName
  obtain ⟨table, d, named, found, stored, answers⟩ := exists_opened_of_save names seals stands ran
  obtain ⟨dumped, -, -, dump, -⟩ := id stored
  have json : ∀ dumped, given.dump (c.forest.typeAt given.model) false = .ok dumped →
      ∀ l ∈ dumped, l.2.IsJson := fun _ dump => whole.isJson_dump dump apart
  refine ⟨fun _ _ keyed => stored.key_of_isKeyedBy whole apart keyed, ?_, ?_, readable_of_fields⟩
  · intro hashValue rangeValue log₂ result after same loads
    have opens := answers hashValue rangeValue log₂ same
    rw [loads] at opens
    refine ⟨fun readable => ?_, fun unreadable bound back loaded => ?_⟩
    · rw [stored.opened_eq names suits readable rfl json, dump] at opens
      rw [show result = c.forest.validate given.model dumped from opens]
      refine ⟨fun values order => ?_, fun e he source bare => ?_⟩
      · exact whole.validate_dump_iff document distinct apart dump order
      · exact Instance.exists_missing_of_validate document dump he source bare
    · refine ⟨table, d, named, found, ?_⟩
      exact stored.collide_of_opened names suits unreadable bound rfl json (opens.symm.trans loaded)
  · intro e he v value taken source
    refine whole.readsBack_self he ?_ value taken
    rcases source with source | ⟨declaration, made, unsplit⟩
    · exact source
    · refine Field.sourceIn_eq_self apart he ?_
      rw [Field.readName_eq_writeName made unsplit, Field.writeKey]

/-! ## A sample -/

/-- A type with a field that is written under an alias and read under its own name. -/
def sampleMember : ModelType where
  name := "Member"
  module := "members"
  kind := .sealedDocument
  lineage := [⟨6⟩, Forest.sealedRoot, Forest.documentRoot, Forest.plainRoot]
  fields := [
    ("id", { type := .text, default := none, writeName := none, readName := none,
             markers := .object { hashKey := .bool true : FieldMarkers }.toValue }),
    ("ssn", { type := .text, default := some (.text "n/a"), writeName := some "SSN",
              readName := none, markers := .object [] })]

/-- A session with that type and an empty server. -/
def memberStart : Session :=
  { sampleStart with catalog := { forest := ⟨Forest.roots.types ++ [sampleMember]⟩ } }

/-- An instance of that type. -/
def sampleMemberInstance : Instance where
  model := ⟨6⟩
  values := [("id", .text "m-1"), ("ssn", .text "123-45-6789")]
  provided := ["id", "ssn"]

/-- The values that it has after it was saved and loaded. -/
def memberRead : Record := [("id", .text "m-1"), ("ssn", .text "n/a")]

/-- The mappings of that type. -/
def memberMappings : List FieldMapping := [
  { name := .text "id", attributeName := .text "id", markers := { hashKey := .bool true } },
  { name := .text "ssn", attributeName := .text "SSN" }]

theorem fields_member : (memberStart.catalog.forest.typeAt ⟨6⟩).fields = sampleMember.fields := rfl

theorem suits_member : sampleMapper.Suits memberStart.catalog ["*sig*", "*desc*"] ⟨6⟩ := by
  have stored : storedNames memberMappings = ["id", "SSN"] := rfl
  have mappingsOf : sampleMapper.mappingsOf memberStart.catalog ⟨6⟩ = .ok memberMappings := rfl
  refine ⟨rfl, ?_, ?_⟩
  · intro mappings found
    rw [mappingsOf] at found
    cases found
    constructor <;> rw [stored] <;> simp
  · rw [fields_member]
    simp [sampleMember, Field.writeKey]

theorem isWhole_member :
    sampleMemberInstance.IsWhole (memberStart.catalog.forest.typeAt ⟨6⟩) := by
  intro e he
  rw [fields_member] at he
  simp only [sampleMember, List.mem_cons, List.not_mem_nil, or_false] at he
  rcases he with rfl | rfl
  · exact ⟨_, rfl, .text _⟩
  · exact ⟨_, rfl, .text _⟩

/-- The alias leads nowhere when the type is read, so the default is read back. -/
theorem readsBack_member : ∀ e ∈ (memberStart.catalog.forest.typeAt ⟨6⟩).fields, ∃ u,
    memberRead.get? e.1 = some u ∧
      sampleMemberInstance.ReadsBack true (memberStart.catalog.forest.typeAt ⟨6⟩).fields e u := by
  intro e he
  rw [fields_member] at he
  simp only [sampleMember, List.mem_cons, List.not_mem_nil, or_false] at he
  rcases he with rfl | rfl
  · exact ⟨_, rfl, _, _, rfl, rfl, fun _ => rfl⟩
  · exact ⟨_, rfl, rfl⟩

theorem save_member : ∃ after log,
    (sampleMapper.save sampleMemberInstance false).exec memberStart {} = (.ok "m-1", after, log) :=
  ⟨_, _, rfl⟩

/-- What was written under the alias is lost: the default takes its place. -/
theorem restored_unless_split_sample : ∃ σ log back after,
    (sampleMapper.save sampleMemberInstance false).exec memberStart {} = (.ok "m-1", σ, log) ∧
    (sampleMapper.load ⟨6⟩ (.text "m-1") .null).exec σ {} = (.ok back, after) ∧
    back.values = memberRead := by
  obtain ⟨σ, log, ran⟩ := save_member
  have readable : sampleMapper.Readable memberStart.catalog ⟨6⟩ := by
    intro _ handles
    cases handles
  have fields : (memberStart.catalog.forest.typeAt sampleMemberInstance.model).fields =
      sampleMember.fields := rfl
  have loads := (restored_unless_split Sealer.reserves_sample rfl suits_member rfl
    (by rw [fields]; simp [sampleMember, Assoc.Distinct, Assoc.keys])
    (by rw [fields]; simp [sampleMember, Field.writeKey])
    isWhole_member ⟨.refl _, by decide, by decide, rfl, List.not_mem_nil⟩ ran).2.1
      (.text "m-1") .null {} _ _ rfl rfl
  obtain ⟨back, result, -, values⟩ := ((loads.1 readable).1 memberRead rfl).2 readsBack_member
  exact ⟨σ, log, back, _, ran, Prod.ext result rfl, values⟩

end Mapper

end RecordSeal
