import RecordSeal.Model.Instance
import RecordSeal.Proofs.Json.RoundTrip
import RecordSeal.Proofs.Result

set_option autoImplicit false

/-! # What instances are read as and written as

A value that a field took is written as it is and taken again (`FieldType.write_of_takes`,
`FieldType.takes_self`). A dump holds every field under the key that it is written under
(`Instance.get?_dump`). When it is validated, each field is read from the entry of a field, perhaps
another one (`Field.sourceIn`), and is missing if there is none. This rests on what each of the
types of `FieldType` takes and writes, and is said of fields of these types only. -/

namespace RecordSeal

/-! ## Standard values -/

/-- JSON values in which every number is finite. -/
inductive Value.IsStandard : Value → Prop where
  | null : IsStandard .null
  | bool (b : Bool) : IsStandard (.bool b)
  | int (n : Int) : IsStandard (.int n)
  | float {x : Binary64} (finite : x.isFinite = true) : IsStandard (.float x)
  | text (s : String) : IsStandard (.text s)
  | list {items : List Value} (all : ∀ v ∈ items, IsStandard v) : IsStandard (.list items)
  | object {fields : List (Name × Value)} (distinct : Assoc.Distinct fields)
      (texts : ∀ e ∈ fields, ∃ s, e.1 = .text s) (all : ∀ e ∈ fields, IsStandard e.2) :
      IsStandard (.object fields)

namespace Value

theorem IsStandard.isJson {v : Value} (h : v.IsStandard) : v.IsJson := by
  induction h with
  | null => exact .null
  | bool b => exact .bool b
  | int n => exact .int n
  | float => exact .float _
  | text s => exact .text s
  | list _ ih => exact .list ih
  | object distinct texts _ ih => exact .object distinct texts ih

theorem writtenItems_eq_self {items : List Value} (all : ∀ v ∈ items, v.written = .ok v) :
    writtenItems items = .ok items := by
  induction items with
  | nil => rfl
  | cons v rest ih =>
    obtain ⟨first, others⟩ := List.forall_mem_cons.1 all
    rw [writtenItems, first, ih others]
    rfl

theorem writtenFields_eq_self {fields : List (Name × Value)}
    (all : ∀ e ∈ fields, e.2.written = .ok e.2) : writtenFields fields = .ok fields := by
  induction fields with
  | nil => rfl
  | cons e rest ih =>
    obtain ⟨first, others⟩ := List.forall_mem_cons.1 all
    rw [writtenFields, first, ih others]
    rfl

theorem IsStandard.written_eq {v : Value} (h : v.IsStandard) : v.written = .ok v := by
  induction h with
  | float finite => rw [written, if_pos finite]
  | list _ ih => rw [written, writtenItems_eq_self ih, Except.map]
  | object _ _ _ ih => rw [written, writtenFields_eq_self ih, Except.map]
  | _ => rw [written] <;> simp

end Value

/-! ## Values that fields take -/

namespace Acceptance

theorem text_self {v w : Value} (h : text v = .ok w) : text w = .ok w := by
  unfold text at h
  split at h
  · cases h
    rfl
  · cases h
    rfl
  · obtain ⟨cs, -, rfl⟩ := exists_of_map_eq_ok (mapError_eq_ok_iff.1 h)
    rfl
  · cases h

/-- The texts that are taken do not depend on the place, and are taken as they are. -/
theorem texts_self {place : List Step} {i : Nat} {vs ws : List Value}
    (h : texts place i vs = .ok ws) (place' : List Step) (j : Nat) :
    texts place' j vs = .ok ws ∧ texts place' j ws = .ok ws := by
  induction vs generalizing ws i j with
  | nil =>
    cases h
    exact ⟨rfl, rfl⟩
  | cons v rest ih =>
    rw [texts] at h
    split at h
    · next w ws first others =>
      cases h
      obtain ⟨again, itself⟩ := ih others (j + 1)
      refine ⟨?_, ?_⟩
      · rw [texts, first, again]
      · rw [texts, text_self first, itself]
    -- A text that is refused is an issue.
    all_goals cases h

theorem exists_int_of_ok {v w : Value} (h : int v = .ok w) : ∃ n, w = .int n := by
  unfold int at h
  split at h
  · cases h
    exact ⟨_, rfl⟩
  · cases h
    exact ⟨_, rfl⟩
  -- What a text spells and what a floating-point number is are whole numbers, too.
  all_goals
    obtain ⟨n, -, rfl⟩ := exists_of_map_eq_ok h
    exact ⟨n, rfl⟩

theorem exists_float_of_near {n : Int} {w : Value} (h : floatNear n = .ok w) :
    ∃ x, w = .float x := by
  unfold floatNear at h
  dsimp only at h
  split at h
  · cases h
    exact ⟨_, rfl⟩
  · cases h

theorem exists_float_of_ok {v w : Value} (h : float v = .ok w) : ∃ x, w = .float x := by
  unfold float at h
  split at h
  · cases h
    exact ⟨_, rfl⟩
  · exact exists_float_of_near h
  · exact exists_float_of_near h
  · obtain ⟨x, -, rfl⟩ := exists_of_map_eq_ok h
    exact ⟨x, rfl⟩

theorem exists_bool_of_truth {n : Int} {w : Value} (h : truthOf n = .ok w) : ∃ b, w = .bool b := by
  unfold truthOf at h
  split_ifs at h <;> cases h <;> exact ⟨_, rfl⟩

theorem exists_bool_of_ok {v w : Value} (h : bool v = .ok w) : ∃ b, w = .bool b := by
  unfold bool at h
  split at h
  · cases h
    exact ⟨_, rfl⟩
  · exact exists_bool_of_truth h
  · split at h
    · exact exists_bool_of_truth h
    · cases h
  · obtain ⟨b, -, rfl⟩ := exists_of_map_eq_ok h
    exact ⟨b, rfl⟩

theorem int_self {v w : Value} (h : int v = .ok w) : int w = .ok w := by
  obtain ⟨n, rfl⟩ := exists_int_of_ok h
  rfl

theorem float_self {v w : Value} (h : float v = .ok w) : float w = .ok w := by
  obtain ⟨x, rfl⟩ := exists_float_of_ok h
  rfl

theorem bool_self {v w : Value} (h : bool v = .ok w) : bool w = .ok w := by
  obtain ⟨b, rfl⟩ := exists_bool_of_ok h
  rfl

end Acceptance

namespace FieldType

/-- Whether a field of a type takes a value for a given one, wherever it stands. -/
def Takes (type : FieldType) (v w : Value) : Prop := ∀ place, type.accept place v = .ok w

/-- What a check of one value takes does not depend on the place; if it takes that as it is, so does
the type. -/
theorem takes_of_check {type : FieldType} {check : Value → Except String Value}
    (accepts : ∀ place v,
      type.accept place v = (check v).mapError fun problem => [⟨place, problem⟩])
    (self : ∀ {v w}, check v = .ok w → check w = .ok w) {place : List Step} {v w : Value}
    (h : type.accept place v = .ok w) : type.Takes v w ∧ type.Takes w w := by
  rw [accepts, mapError_eq_ok_iff] at h
  refine ⟨fun place' => ?_, fun place' => ?_⟩
  · rw [accepts, mapError_eq_ok_iff, h]
  · rw [accepts, mapError_eq_ok_iff, self h]

/-- What is taken at one place is taken at every place, and it is taken as it is. -/
theorem takes_of_accept {type : FieldType} {place : List Step} {v w : Value}
    (h : type.accept place v = .ok w) : type.Takes v w ∧ type.Takes w w := by
  cases type with
  | text => exact takes_of_check (fun _ _ => rfl) Acceptance.text_self h
  | int => exact takes_of_check (fun _ _ => rfl) Acceptance.int_self h
  | float => exact takes_of_check (fun _ _ => rfl) Acceptance.float_self h
  | bool => exact takes_of_check (fun _ _ => rfl) Acceptance.bool_self h
  | any =>
    cases h
    exact ⟨fun _ => rfl, fun _ => rfl⟩
  | optionalText =>
    by_cases none : v.isNull = true
    · have null : Value.null = w := by simpa [accept, none] using h
      subst null
      exact ⟨fun _ => by simp [accept, none], fun _ => rfl⟩
    · have text : FieldType.text.accept place v = .ok w := by simpa [accept, none] using h
      obtain ⟨taken, self⟩ := takes_of_check (fun _ _ => rfl) Acceptance.text_self text
      refine ⟨fun place' => ?_, fun place' => ?_⟩
      · simpa [accept, none] using taken place'
      · cases w <;> first | rfl | exact self place'
  | texts =>
    cases v with
    | list vs =>
      obtain ⟨ws, taken, rfl⟩ := exists_of_map_eq_ok h
      have self := Acceptance.texts_self taken
      refine ⟨fun place' => ?_, fun place' => ?_⟩
      · rw [accept, (self place' 0).1, Except.map]
      · rw [accept, (self place' 0).2, Except.map]
    | _ => cases h
  | object =>
    cases v with
    | object fields =>
      cases h
      exact ⟨fun _ => rfl, fun _ => rfl⟩
    | _ => cases h

theorem write_of_takes {type : FieldType} {v : Value} (h : type.Takes v v)
    (standard : v.IsStandard) : type.write v = .ok v := by
  have written := standard.written_eq
  cases type with
  | float =>
    -- Only floating-point numbers are taken as they are.
    obtain ⟨x, rfl⟩ := Acceptance.exists_float_of_ok (mapError_eq_ok_iff.1 (h []))
    rfl
  | int =>
    obtain ⟨n, rfl⟩ := Acceptance.exists_int_of_ok (mapError_eq_ok_iff.1 (h []))
    exact written
  | _ => simp [write, written]

theorem isStandard_floatOf {n : Int} {w : Value} (h : floatOf n = .ok w) : w.IsStandard := by
  unfold floatOf at h
  dsimp only at h
  split at h
  · next finite =>
    cases h
    exact .float finite
  · cases h

theorem isStandard_of_write {type : FieldType} {v w : Value} (standard : v.IsStandard)
    (h : type.write v = .ok w) : w.IsStandard := by
  unfold write at h
  split at h
  · cases h
    exact standard
  · exact isStandard_floatOf h
  · exact isStandard_floatOf h
  · cases h
    exact .int _
  · rw [standard.written_eq] at h
    cases h
    exact standard

end FieldType

/-! ## Dumps -/

/-- A dump has the keys that fields are written under, each of them once. -/
theorem dumpFields_spec {values : Record} {keep : String → Bool} {fields : List (String × Field)}
    {out record : Record} (h : dumpFields values keep fields out = .ok record)
    (distinct : out.Distinct) {P : Name → Prop} (start : ∀ k ∈ out.keys, P k)
    (written : ∀ e ∈ fields, P (.text (e.2.writeKey e.1))) :
    record.Distinct ∧ ∀ k ∈ record.keys, P k := by
  induction fields generalizing out with
  | nil =>
    cases h
    exact ⟨distinct, start⟩
  | cons e rest ih =>
    obtain ⟨name, field⟩ := e
    obtain ⟨first, others⟩ := List.forall_mem_cons.1 written
    rw [dumpFields] at h
    split at h
    · obtain ⟨v, -, h⟩ := exists_of_bind_eq_ok h
      refine ih h (distinct.insert _ v) ?_ others
      intro k hk
      rw [Assoc.keys_insert] at hk
      by_cases there : out.contains (.text (field.writeKey name)) = true
      · rw [if_pos there] at hk
        exact start k hk
      · rw [if_neg there] at hk
        rcases List.mem_append.1 hk with hk | hk
        · exact start k hk
        · obtain rfl := List.mem_singleton.1 hk
          exact first
    · -- A field that is left out adds no key.
      exact ih h distinct start others

/-- A dump keeps the keys that are there and adds those of the fields. -/
theorem dumpFields_contains {values : Record} {fields : List (String × Field)} {out record : Record}
    (h : dumpFields values (fun _ => true) fields out = .ok record) :
    (∀ n, out.contains n = true → record.contains n = true) ∧
      ∀ e ∈ fields, record.contains (.text (e.2.writeKey e.1)) = true := by
  induction fields generalizing out with
  | nil =>
    cases h
    exact ⟨fun _ there => there, by simp⟩
  | cons e rest ih =>
    obtain ⟨name, field⟩ := e
    rw [dumpFields, if_pos rfl] at h
    obtain ⟨v, -, h⟩ := exists_of_bind_eq_ok h
    obtain ⟨kept, written⟩ := ih h
    have inserted (n : Name) (there : out.contains n = true ∨
        (Name.text (field.writeKey name) == n) = true) : record.contains n = true := by
      apply kept
      rw [Assoc.contains_insert, Bool.or_eq_true]
      exact there.symm
    refine ⟨fun n there => inserted n (.inl there), List.forall_mem_cons.2 ⟨?_, written⟩⟩
    exact inserted _ (.inr BEq.rfl)

/-- A dump holds every field in its written form, if no two are written under one key. -/
theorem get?_dumpFields {values : Record} {fields : List (String × Field)} {out record : Record}
    (h : dumpFields values (fun _ => true) fields out = .ok record)
    (apart : (fields.map fun e => e.2.writeKey e.1).Nodup) :
    (∀ n, (∀ e ∈ fields, (Name.text (e.2.writeKey e.1) == n) = false) →
      record.get? n = out.get? n) ∧
    ∀ e ∈ fields, ∃ v, e.2.type.write ((values.get? e.1).getD .null) = .ok v ∧
      record.get? (.text (e.2.writeKey e.1)) = some v := by
  induction fields generalizing out with
  | nil =>
    cases h
    exact ⟨fun _ _ => rfl, by simp⟩
  | cons e rest ih =>
    obtain ⟨name, field⟩ := e
    obtain ⟨first, others⟩ := List.nodup_cons.1 apart
    rw [dumpFields, if_pos rfl] at h
    obtain ⟨v, value, h⟩ := exists_of_bind_eq_ok h
    obtain ⟨kept, written⟩ := ih h others
    refine ⟨?_, List.forall_mem_cons.2 ⟨⟨v, value, ?_⟩, written⟩⟩
    · intro n other
      obtain ⟨here, there⟩ := List.forall_mem_cons.1 other
      rw [kept n there, Assoc.get?_insert, if_neg (by simp [here])]
    · -- No later field takes the place of this one.
      rw [kept, Assoc.get?_insert, if_pos BEq.rfl]
      intro e' he'
      rw [Name.text_beq_text, decide_eq_false_iff_not]
      intro same
      exact first (List.mem_map.2 ⟨e', he', same⟩)

namespace Instance

variable {given : Instance} {t : ModelType} {isPartial : Bool} {record : Record}

theorem distinct_dump (h : given.dump t isPartial = .ok record) : record.Distinct :=
  (dumpFields_spec (P := fun _ => True) h List.Pairwise.nil (by simp) (by simp)).1

theorem keys_dump (h : given.dump t isPartial = .ok record) :
    ∀ k ∈ record.keys, ∃ e ∈ t.fields, k = .text (e.2.writeKey e.1) :=
  (dumpFields_spec h List.Pairwise.nil (by simp [Assoc.keys]) fun e he => ⟨e, he, rfl⟩).2

theorem mem_keys_dump (h : given.dump t false = .ok record) {e : String × Field}
    (he : e ∈ t.fields) : Name.text (e.2.writeKey e.1) ∈ record.keys := by
  have there := (dumpFields_contains h).2 e he
  rw [Assoc.contains_eq_any_keys, List.any_eq_true] at there
  obtain ⟨n, hn, same⟩ := there
  obtain ⟨e', -, rfl⟩ := keys_dump h n hn
  rw [Name.text_beq_text, decide_eq_true_iff] at same
  rwa [same] at hn

/-- A whole dump has the written form of every field under its key. -/
theorem get?_dump (h : given.dump t false = .ok record)
    (apart : (t.fields.map fun e => e.2.writeKey e.1).Nodup) {e : String × Field}
    (he : e ∈ t.fields) :
    ∃ v, e.2.type.write ((given.values.get? e.1).getD .null) = .ok v ∧
      record.get? (.text (e.2.writeKey e.1)) = some v :=
  (get?_dumpFields h apart).2 e he

end Instance

/-! ## Fields that are read -/

/-- What a field is read as, if the record holds the name that it is read under. -/
theorem Field.read_of_get? {f : Field} {byName : Bool} {name : String} {record : Record} {v : Value}
    (found : record.get? (.text (f.readName.getD name)) = some v) :
    f.read byName name record =
      (f.type.accept [.key (f.readName.getD name)] v).map fun w => (w, true) := by
  have key : f.keyIn byName name record = some (f.readName.getD name) := by
    rw [keyIn]
    exact if_pos (by rw [Assoc.contains, found]; rfl)
  rw [read, key]
  dsimp only
  rw [found]
  rfl

/-- What is read holds every field as it is read. -/
theorem get?_readFields {byName : Bool} {record values : Record} {provided : List String}
    {fields : List (String × Field)} (h : readFields byName record fields = .ok (values, provided))
    (distinct : Assoc.Distinct fields) :
    ∀ e ∈ fields, ∃ v given, e.2.read byName e.1 record = .ok (v, given) ∧
      values.get? e.1 = some v := by
  induction fields generalizing values provided with
  | nil => simp
  | cons e rest ih =>
    obtain ⟨name, field⟩ := e
    rw [readFields] at h
    split at h
    · next v given values provided first others =>
      cases h
      refine List.forall_mem_cons.2 ⟨⟨v, given, first, ?_⟩, ?_⟩
      · rw [Assoc.get?_cons, if_pos BEq.rfl]
      · intro e he
        obtain ⟨w, given', there, found⟩ := ih others distinct.tail e he
        have other : (name == e.1) = false := distinct.head (List.mem_map_of_mem he)
        refine ⟨w, given', there, ?_⟩
        rw [Assoc.get?_cons, if_neg (by simpa using other), found]
    -- Where a field cannot be read there are no values.
    all_goals cases h

/-- What is read has the fields in their order. -/
theorem keys_readFields {byName : Bool} {record values : Record} {provided : List String}
    {fields : List (String × Field)}
    (h : readFields byName record fields = .ok (values, provided)) :
    values.keys = fields.map fun e => .text e.1 := by
  induction fields generalizing values provided with
  | nil =>
    cases h
    rfl
  | cons e rest ih =>
    obtain ⟨name, field⟩ := e
    rw [readFields] at h
    split at h
    · next v given values provided first others =>
      cases h
      exact congrArg (Name.text name :: ·) (ih others)
    all_goals cases h

theorem exists_readFields {byName : Bool} {record : Record} {fields : List (String × Field)}
    (all : ∀ e ∈ fields, ∃ v given, e.2.read byName e.1 record = .ok (v, given)) :
    ∃ values provided, readFields byName record fields = .ok (values, provided) := by
  induction fields with
  | nil => exact ⟨[], [], rfl⟩
  | cons e rest ih =>
    obtain ⟨⟨v, given, first⟩, others⟩ := List.forall_mem_cons.1 all
    obtain ⟨values, provided, read⟩ := ih others
    rw [readFields, first, read]
    exact ⟨_, _, rfl⟩

/-- Everything that is wrong with a field is among what is wrong with all of them. -/
theorem exists_issues_readFields {byName : Bool} {record : Record} {fields : List (String × Field)}
    {e : String × Field} (he : e ∈ fields) {issues : List Issue}
    (refused : e.2.read byName e.1 record = .error issues) :
    ∃ all, readFields byName record fields = .error all ∧ issues ⊆ all := by
  induction fields with
  | nil => cases he
  | cons e' rest ih =>
    rw [readFields]
    rcases List.mem_cons.1 he with rfl | he
    · rw [refused]
      cases readFields byName record rest with
      | ok read => exact ⟨issues, rfl, List.Subset.refl _⟩
      | error more => exact ⟨issues ++ more, rfl, List.subset_append_left ..⟩
    · obtain ⟨all, others, within⟩ := ih he
      rw [others]
      cases e'.2.read byName e'.1 record with
      | ok read => exact ⟨all, rfl, within⟩
      | error first =>
        exact ⟨first ++ all, rfl, fun _ h => List.mem_append_right _ (within h)⟩

/-- Validation gives exactly the values that the fields are read as. -/
theorem Forest.validate_eq_ok_iff {f : Forest} {id : ModelId} (document : (f.typeAt id).isDocument)
    (distinct : Assoc.Distinct (f.typeAt id).fields) {record values : Record}
    (names : values.keys = (f.typeAt id).fields.map fun e => .text e.1) :
    (∃ back, f.validate id record = .ok back ∧ back.model = id ∧ back.values = values) ↔
      ∀ e ∈ (f.typeAt id).fields, ∃ v given,
        e.2.read ((f.typeAt id).kind = .sealedDocument) e.1 record = .ok (v, given) ∧
        values.get? e.1 = some v := by
  rw [Forest.validate, if_pos document]
  constructor
  · rintro ⟨back, read, -, rfl⟩ e he
    split at read
    · next values provided fields =>
      cases read
      exact get?_readFields fields distinct e he
    · cases read
  · intro all
    obtain ⟨values', provided, read⟩ := exists_readFields fun e he =>
      (all e he).imp fun v h => h.imp fun given h => h.1
    rw [read]
    refine ⟨_, rfl, rfl, ?_⟩
    -- The same keys answer in both tables what their fields are read as.
    have distinctValues : values'.Distinct := by
      rw [Assoc.Distinct, keys_readFields read, List.pairwise_map]
      exact List.Pairwise.imp (by simp) (List.pairwise_map.1 distinct)
    refine distinctValues.ext ((keys_readFields read).trans names.symm) ?_
    intro k hk
    rw [keys_readFields read] at hk
    obtain ⟨e, he, rfl⟩ := List.mem_map.1 hk
    obtain ⟨v, given, there, found⟩ := get?_readFields read distinct e he
    obtain ⟨v', given', there', found'⟩ := all e he
    cases there.symm.trans there'
    rw [found, found']

/-! ## Reading a dump -/

namespace Field

/-- The field that is written under a key. -/
def writtenUnder (fields : Assoc String Field) (key : String) : Option (String × Field) :=
  fields.find? fun e => e.2.writeKey e.1 = key

/-- The field from whose entry of a dump a field is read: the one that is written under the name it
is read under, else, where that is allowed, the one that is written under its own name. -/
def sourceIn (byName : Bool) (fields : Assoc String Field) (e : String × Field) :
    Option (String × Field) :=
  (writtenUnder fields (e.2.readName.getD e.1)).or
    (if byName then writtenUnder fields e.1 else none)

variable {byName : Bool} {fields : Assoc String Field} {e e' : String × Field} {key : String}

theorem of_writtenUnder (h : writtenUnder fields key = some e) :
    e ∈ fields ∧ e.2.writeKey e.1 = key :=
  ⟨List.mem_of_find?_eq_some h, by simpa using List.find?_some h⟩

theorem writtenUnder_writeKey (apart : (fields.map fun e => e.2.writeKey e.1).Nodup)
    (he : e ∈ fields) : writtenUnder fields (e.2.writeKey e.1) = some e := by
  cases found : writtenUnder fields (e.2.writeKey e.1) with
  | none => simpa using List.find?_eq_none.1 found e he
  | some e' =>
    obtain ⟨he', same⟩ := of_writtenUnder found
    rw [List.inj_on_of_nodup_map apart he' he same]

/-- A field that is read under the name that it is written under is read from its own entry. -/
theorem sourceIn_eq_self (apart : (fields.map fun e => e.2.writeKey e.1).Nodup) (he : e ∈ fields)
    (joined : e.2.readName.getD e.1 = e.2.writeKey e.1) : sourceIn byName fields e = some e := by
  rw [sourceIn, joined, writtenUnder_writeKey apart he, Option.some_or]

theorem mem_of_sourceIn (h : sourceIn byName fields e = some e') : e' ∈ fields := by
  rcases Option.or_eq_some_iff.1 h with found | ⟨-, found⟩
  · exact (of_writtenUnder found).1
  · split at found
    · exact (of_writtenUnder found).1
    · cases found

end Field

section

variable {byName : Bool} {given : Instance} {t : ModelType} {dumped : Record}
  {e e' : String × Field}

theorem Instance.contains_dump (h : given.dump t false = .ok dumped) (key : String) :
    dumped.contains (.text key) = (Field.writtenUnder t.fields key).isSome := by
  rw [Bool.eq_iff_iff, Field.writtenUnder, List.find?_isSome, Assoc.contains_eq_any_keys,
    List.any_eq_true]
  constructor
  · rintro ⟨k, hk, same⟩
    obtain ⟨e, he, rfl⟩ := keys_dump h k hk
    exact ⟨e, he, by simpa using same⟩
  · rintro ⟨e, he, same⟩
    exact ⟨_, mem_keys_dump h he, by simpa using same⟩

/-- The key under which a dump holds a field is the one that its source is written under. -/
theorem Instance.keyIn_dump (h : given.dump t false = .ok dumped) :
    e.2.keyIn byName e.1 dumped =
      (Field.sourceIn byName t.fields e).map fun e' => e'.2.writeKey e'.1 := by
  rw [Field.keyIn, Field.sourceIn, contains_dump h, contains_dump h]
  cases read : Field.writtenUnder t.fields (e.2.readName.getD e.1) with
  | some e' => simp [(Field.of_writtenUnder read).2]
  | none =>
    cases own : Field.writtenUnder t.fields e.1 with
    | some e' => cases byName <;> simp [(Field.of_writtenUnder own).2]
    | none => cases byName <;> simp

/-- A field is read from the written form of its source. -/
theorem Instance.read_of_source (h : given.dump t false = .ok dumped)
    (apart : (t.fields.map fun e => e.2.writeKey e.1).Nodup)
    (source : Field.sourceIn byName t.fields e = some e') :
    ∃ w, e'.2.type.write ((given.values.get? e'.1).getD .null) = .ok w ∧
      e.2.read byName e.1 dumped =
        (e.2.type.accept [.key (e'.2.writeKey e'.1)] w).map fun v => (v, true) := by
  obtain ⟨w, written, found⟩ := get?_dump h apart (Field.mem_of_sourceIn source)
  refine ⟨w, written, ?_⟩
  rw [Field.read, keyIn_dump h, source]
  dsimp only [Option.map]
  rw [found]
  rfl

/-- A field without a source has its default, or is missing. -/
theorem Instance.read_of_no_source (h : given.dump t false = .ok dumped)
    (source : Field.sourceIn byName t.fields e = none) :
    e.2.read byName e.1 dumped =
      match e.2.default with
      | some v => .ok (v, false)
      | none => .error [⟨[.key (e.2.readName.getD e.1)], "missing"⟩] := by
  rw [Field.read, keyIn_dump h, source]
  rfl

end

end RecordSeal
