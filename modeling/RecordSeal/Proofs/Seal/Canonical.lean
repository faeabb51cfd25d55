import RecordSeal.Proofs.Seal.Obstacle

set_option autoImplicit false

/-! # One text for one content

The signed bytes of two inputs are the same if and only if the inputs say the same: they belong to
one context, have one description, and their signed attributes are the same up to the order of
fields in their values (`SigningInput.payload_eq_iff_sameContent`). That equal bytes say the same
was proved by reading them back; that the same content has equal bytes comes from sorting, since
values that say the same have one sorted form. -/

namespace RecordSeal

/-! ## Alike objects -/

namespace Value

theorem IsJson.isStorable {v : Value} (h : v.IsJson) : v.IsStorable := by
  induction h with
  | null => exact .null
  | bool b => exact .bool b
  | int n => exact .int n
  | float x => exact .float x
  | text s => exact .text s
  | list all ih => exact .list ih
  | @object fields distinct texts all ih =>
    refine .object distinct ?_ ih
    intro k hk
    obtain ⟨e, he, rfl⟩ := List.mem_map.1 hk
    obtain ⟨s, name⟩ := texts e he
    simp [name, Name.IsAttribute]

theorem IsJson.alike_self {v : Value} (h : v.IsJson) : v.Alike v := alike_of_sorted_eq h h rfl

/-- Objects that answer alike are alike. -/
theorem alike_object_of_rel {fields fields' : Record} (distinct : fields.Distinct)
    (distinct' : fields'.Distinct) (names : fields.OfAttributes) (names' : fields'.OfAttributes)
    (rel : ∀ k, Option.Rel Alike (fields.get? k) (fields'.get? k)) :
    (Value.object fields).Alike (.object fields') := by
  have same : ∀ k, fields.contains k = fields'.contains k := by
    intro k
    rcases rel_cases (rel k) with ⟨left, right⟩ | ⟨v, w, left, right, -⟩
    · simp [Assoc.contains, left, right]
    · simp [Assoc.contains, left, right]
  -- Equally many fields, since the same names are on both sides.
  have keys : fields.keys.Perm fields'.keys := by
    have nodup : ∀ {m : Record}, m.Distinct → m.keys.Nodup := fun h =>
      h.imp fun {k l} different equal => by simp [equal] at different
    have found : ∀ {m : Record}, m.OfAttributes → ∀ k, k.IsAttribute →
        (k ∈ m.keys ↔ m.contains k = true) := by
      intro m hm k hk
      rw [Assoc.contains_eq_any_keys, List.any_eq_true]
      constructor
      · intro listed
        exact ⟨k, listed, BEq.rfl⟩
      · rintro ⟨l, listed, beq⟩
        rwa [((hm l listed).beq_iff hk).1 beq] at listed
    refine (List.perm_ext_iff_of_nodup (nodup distinct) (nodup distinct')).2 fun k => ?_
    constructor
    · intro hk
      have isText := names k hk
      rw [found names' k isText, ← same, ← found names k isText]
      exact hk
    · intro hk
      have isText := names' k hk
      rw [found names k isText, same, ← found names' k isText]
      exact hk
  refine ⟨by simpa [Assoc.keys] using keys.length_eq, alikeFields_of_forall ?_⟩
  intro e he
  have answer := rel e.1
  rw [Assoc.get?_of_mem distinct he] at answer
  cases answer' : fields'.get? e.1 with
  | none =>
    rw [answer'] at answer
    cases answer
  | some w =>
    rw [answer'] at answer
    cases answer with
    | some alike => exact ⟨w, rfl, alike⟩

end Value

/-! ## Inputs of signing -/

/-- What a signature is made for: the signed attributes of a record under policies, in a context,
with a description. -/
structure SigningInput where
  record : Record
  policies : FieldPolicies
  context : Context
  description : String

namespace SigningInput

/-- The value that is signed under a name, if there is one. -/
def signed (i : SigningInput) (name : Name) : Option Value := signedValue i.record i.policies name

/-- The signed bytes, under the limits of the host. -/
def payload (lim : Json.Limits) (i : SigningInput) : Except Failure (List UInt8) :=
  signingPayload lim i.record i.policies i.context (.text i.description)

/-- Whether names are texts, of which the context may lack some, and signed values are those that
JSON texts describe. Every attribute has one policy. -/
structure IsJson (i : SigningInput) : Prop where
  distinct : i.policies.Distinct
  names : ∀ k ∈ i.policies.keys, ∃ s, k = .text s
  context : i.context.IsNamed
  values : ∀ name v, i.signed name = some v → v.IsJson

/-- Whether two inputs say the same: one context, one description, and the same signed attributes,
with values that are equal up to the order of fields. -/
structure SameContent (i j : SigningInput) : Prop where
  context : i.context = j.context
  description : i.description = j.description
  attributes : ∀ name, Option.Rel Value.Alike (i.signed name) (j.signed name)

/-- Whether no signed value goes beyond the limits of writing, where it stands in two objects. -/
structure IsWritable (lim : Json.Limits) (i : SigningInput) : Prop where
  deep : 2 ≤ lim.depth
  values : ∀ name v obstacle, i.signed name = some v →
    ¬ Json.Blocks lim.digits (lim.depth - 2) v obstacle

variable {i j : SigningInput} {lim : Json.Limits}

theorem IsJson.ofAttributes (hi : i.IsJson) : Assoc.OfAttributes i.policies := by
  intro k hk
  obtain ⟨s, rfl⟩ := hi.names k hk
  trivial

theorem IsJson.signed_of_mem (hi : i.IsJson) {e : Name × Value}
    (he : e ∈ signedPart i.record i.policies) : i.signed e.1 = some e.2 := by
  rw [signed, ← get?_signedPart i.record hi.distinct]
  exact Assoc.get?_of_mem (distinct_signedPart i.record hi.distinct) he

theorem IsJson.isJson_object (hi : i.IsJson) :
    (signingObject i.record i.policies i.context (.text i.description)).IsJson :=
  isJson_signingObject hi.distinct hi.names hi.values hi.context (.text _)

/-! ## The same content -/

/-- Inputs that say the same are signed as objects that are alike. -/
theorem SameContent.alike_object (hi : i.IsJson) (hj : j.IsJson) (same : i.SameContent j) :
    (signingObject i.record i.policies i.context (.text i.description)).Alike
      (signingObject j.record j.policies j.context (.text j.description)) := by
  have part : (Value.object (signedPart i.record i.policies)).Alike
      (.object (signedPart j.record j.policies)) := by
    refine Value.alike_object_of_rel (distinct_signedPart _ hi.distinct)
      (distinct_signedPart _ hj.distinct) (OfAttributes.signedPart hi.ofAttributes _)
      (OfAttributes.signedPart hj.ofAttributes _) ?_
    intro name
    rw [get?_signedPart _ hi.distinct, get?_signedPart _ hj.distinct]
    exact same.attributes name
  have plain (s : Option String) : (Value.ofText? s).Alike (.ofText? s) :=
    (Value.isJson_ofText? s).alike_self
  obtain ⟨⟨t, table⟩, ⟨k, hashKey⟩, ⟨r, rangeKey⟩⟩ := hi.context
  rw [signingObject, signingObject, ← same.context, ← same.description, table, hashKey, rangeKey]
  exact ⟨rfl, plain t, plain k, plain r, rfl, part, trivial⟩

/-- Inputs that say the same are signed by the same bytes, or there are none for the same reason. -/
theorem SameContent.payload_eq (lim : Json.Limits) (hi : i.IsJson) (hj : j.IsJson)
    (same : i.SameContent j) : i.payload lim = j.payload lim := by
  have sorted := Value.sorted_eq_of_alike hi.isJson_object.isStorable hj.isJson_object.isStorable
    (same.alike_object hi hj)
  rw [payload, payload, signingPayload, signingPayload, Value.signed, Value.signed,
    hi.isJson_object.isStorable.misfit?_eq_none,
    hj.isJson_object.isStorable.misfit?_eq_none, sorted]

/-- Inputs that are signed by the same bytes say the same. -/
theorem sameContent_of_payload_eq (hi : i.IsJson) (hj : j.IsJson) {bytes : List UInt8}
    (first : i.payload lim = .ok bytes) (second : j.payload lim = .ok bytes) :
    i.SameContent j := by
  obtain ⟨context, description, attributes⟩ := signed_of_signingPayload_eq hi.distinct hj.distinct
    hi.names hj.names hi.values hj.values hi.context hj.context (.text _) (.text _) first second
  exact ⟨context, Value.text.inj description, attributes⟩

/-- Inputs that sign the same values say the same in one context with one description. -/
theorem IsJson.sameContent_of_signed_eq (hi : i.IsJson) (context : i.context = j.context)
    (description : i.description = j.description)
    (equal : ∀ name, j.signed name = i.signed name) : i.SameContent j := by
  refine ⟨context, description, ?_⟩
  intro name
  rw [equal]
  cases found : i.signed name with
  | none => exact .none
  | some v => exact .some (hi.values name v found).alike_self

/-- There are signed bytes only where the signed attributes may stand in two objects. -/
theorem two_le_of_payload {bytes : List UInt8} (some : i.payload lim = .ok bytes) :
    2 ≤ lim.depth := by
  by_contra shallow
  obtain ⟨clear, -⟩ := Value.written_of_signed some
  refine Json.obstacle?_eq_none_iff.1 clear .tooDeep (Json.blocks_sorted.2 ?_)
  have depth : lim.depth = 0 ∨ lim.depth = 1 := by omega
  rcases depth with none | one
  · rw [none]
    exact .tooDeep .here trivial
  · rw [one, signingObject]
    have last : (Name.text "attributes", Value.object (signedPart i.record i.policies)) ∈ [
        (Name.text "table", i.context.table), ("hash_key", i.context.hashKey),
        ("range_key", i.context.rangeKey), ("material_description", .text i.description),
        ("attributes", .object (signedPart i.record i.policies))] := by simp
    exact .tooDeep (.field last .here) trivial

theorem IsJson.exists_payload_iff (hi : i.IsJson) :
    (∃ bytes, i.payload lim = .ok bytes) ↔ i.IsWritable lim := by
  constructor
  · rintro ⟨bytes, some⟩
    refine ⟨two_le_of_payload some, ?_⟩
    intro name v obstacle found
    rw [signed, ← get?_signedPart i.record hi.distinct] at found
    obtain ⟨l, -, listed⟩ := Assoc.mem_of_get? found
    exact not_blocks_of_signingPayload _ (two_le_of_payload some) hi.ofAttributes hi.context some
      listed obstacle
  · rintro ⟨deep, writable⟩
    cases ended : i.payload lim with
    | ok bytes => exact ⟨bytes, rfl⟩
    | error why =>
      have sortable : ∀ e ∈ signedPart i.record i.policies, e.2.misfit? = none := fun e he =>
        (hi.values e.1 e.2 (hi.signed_of_mem he)).isStorable.misfit?_eq_none
      obtain ⟨e, he, obstacle, -, blocks⟩ :=
        exists_blocks_of_signingPayload _ deep hi.ofAttributes hi.context sortable ended
      exact absurd blocks (writable e.1 e.2 obstacle (hi.signed_of_mem he))

/-- Two inputs that are signed at all are signed by the same bytes if and only if they say the same,
and an input is signed just if its signed values keep the limits of writing. Whatever the outcome
is, it is the same for inputs that say the same: attributes that are not signed, policies for
attributes that the record lacks, and the order of either do not matter. -/
theorem payload_eq_iff_sameContent (lim : Json.Limits) (hi : i.IsJson) (hj : j.IsJson) :
    (∀ bytes bytes', i.payload lim = .ok bytes → j.payload lim = .ok bytes' →
      (bytes = bytes' ↔ i.SameContent j)) ∧
    ((∃ bytes, i.payload lim = .ok bytes) ↔ i.IsWritable lim) ∧
    (i.SameContent j → i.payload lim = j.payload lim) ∧
    (∀ record : Record,
      (∀ name, (i.policies.flagsOf name).sign = true → record.get? name = i.record.get? name) →
      payload lim { i with record } = i.payload lim) ∧
    ∀ policies : FieldPolicies, policies.Distinct → (∀ k ∈ policies.keys, ∃ s, k = .text s) →
      (∀ name, i.record.contains name = true →
        (policies.flagsOf name).sign = (i.policies.flagsOf name).sign) →
      payload lim { i with policies } = i.payload lim := by
  refine ⟨?_, hi.exists_payload_iff, SameContent.payload_eq lim hi hj, ?_, ?_⟩
  · intro bytes bytes' first second
    constructor
    · rintro rfl
      exact sameContent_of_payload_eq hi hj first second
    · intro same
      rw [same.payload_eq lim hi hj, second] at first
      exact (Except.ok.inj first).symm
  · intro record agree
    have equal : ∀ name, signed { i with record } name = i.signed name := by
      intro name
      rw [signed, signed, signedValue, signedValue]
      split
      · next sign => exact agree name sign
      · rfl
    have json : IsJson { i with record } :=
      ⟨hi.distinct, hi.names, hi.context, fun name v found =>
        hi.values name v ((equal name).symm.trans found)⟩
    have same : i.SameContent { i with record } := hi.sameContent_of_signed_eq rfl rfl equal
    exact (same.payload_eq lim hi json).symm
  · intro policies distinct names agree
    have equal : ∀ name, signed { i with policies } name = i.signed name := by
      intro name
      rw [signed, signed, signedValue, signedValue]
      cases found : i.record.get? name with
      | none => simp
      | some v =>
        rw [agree name (by simp [Assoc.contains, found])]
    have json : IsJson { i with policies } :=
      ⟨distinct, names, hi.context, fun name v found =>
        hi.values name v ((equal name).symm.trans found)⟩
    have same : i.SameContent { i with policies } := hi.sameContent_of_signed_eq rfl rfl equal
    exact (same.payload_eq lim hi json).symm

/-! ## A sample -/

/-- An input with a nested value. -/
def sampleInput : SigningInput where
  record := [("id", .int 1), ("body", .object [("y", .null), ("x", .text "b")])]
  policies := [("id", ⟨false, true⟩), ("body", ⟨false, true⟩)]
  context := { table := .text "t", hashKey := .text "id", rangeKey := .null }
  description := "d"

/-- The same in another order, with an attribute that is not signed and a policy for none. -/
def shuffledInput : SigningInput :=
  { sampleInput with
    record := [("note", .bool true), ("body", .object [("x", .text "b"), ("y", .null)]),
      ("id", .int 1)]
    policies := [("more", ⟨true, true⟩), ("body", ⟨false, true⟩), ("id", ⟨false, true⟩)] }

/-- The same but for a number that is a truth value here. -/
def alteredInput : SigningInput :=
  { sampleInput with
    record := [("id", .bool true), ("body", .object [("y", .null), ("x", .text "b")])] }

theorem isJson_of_forall (distinct : i.policies.Distinct)
    (names : ∀ k ∈ i.policies.keys, ∃ s, k = .text s) (context : i.context.IsNamed)
    (values : ∀ e ∈ i.record, e.2.IsJson) : i.IsJson := by
  refine ⟨distinct, names, context, ?_⟩
  intro name v found
  rw [signed, signedValue] at found
  split at found
  · obtain ⟨l, -, listed⟩ := Assoc.mem_of_get? found
    exact values _ listed
  · cases found

theorem isJson_sampleInputs :
    sampleInput.IsJson ∧ shuffledInput.IsJson ∧ alteredInput.IsJson := by
  have named : sampleInput.context.IsNamed := ⟨⟨some "t", rfl⟩, ⟨some "id", rfl⟩, ⟨none, rfl⟩⟩
  have body : (Value.object [("y", .null), ("x", .text "b")]).IsJson :=
    .object (by simp [Assoc.Distinct, Assoc.keys]) (by simp)
      (by simp [Value.IsJson.null, Value.IsJson.text])
  have turned : (Value.object [("x", .text "b"), ("y", .null)]).IsJson :=
    .object (by simp [Assoc.Distinct, Assoc.keys]) (by simp)
      (by simp [Value.IsJson.null, Value.IsJson.text])
  refine ⟨isJson_of_forall ?_ ?_ named ?_, isJson_of_forall ?_ ?_ named ?_,
    isJson_of_forall ?_ ?_ named ?_⟩
  all_goals
    simp [sampleInput, shuffledInput, alteredInput, Assoc.Distinct, Assoc.keys, body, turned,
      Value.IsJson.int, Value.IsJson.bool]

/-- Limits that just let the sample inputs pass. -/
def sampleLimits : Json.Limits := ⟨1, 3⟩

/-- The shuffled input says the same and is signed by the same bytes; the altered one is signed by
others. -/
theorem payload_eq_iff_sameContent_sample : ∃ bytes bytes',
    sampleInput.payload sampleLimits = .ok bytes ∧ shuffledInput.payload sampleLimits = .ok bytes ∧
    alteredInput.payload sampleLimits = .ok bytes' ∧ sampleInput.SameContent shuffledInput ∧
    ¬ sampleInput.SameContent alteredInput := by
  obtain ⟨first, second, third⟩ := isJson_sampleInputs
  have exists_payload (x : SigningInput) (some : (x.payload sampleLimits).toOption.isSome = true) :
      ∃ bytes, x.payload sampleLimits = .ok bytes := by
    cases ended : x.payload sampleLimits with
    | ok bytes => exact ⟨bytes, rfl⟩
    | error why => simp [ended, Except.toOption] at some
  obtain ⟨bytes, plain⟩ := exists_payload sampleInput (by decide +kernel)
  obtain ⟨other, shuffled⟩ := exists_payload shuffledInput (by decide +kernel)
  obtain ⟨bytes', altered⟩ := exists_payload alteredInput (by decide +kernel)
  have equal : (sampleInput.payload sampleLimits).toOption =
      (shuffledInput.payload sampleLimits).toOption := by decide +kernel
  have different : (sampleInput.payload sampleLimits).toOption ≠
      (alteredInput.payload sampleLimits).toOption := by decide +kernel
  obtain rfl : bytes = other := by simpa [plain, shuffled, Except.toOption] using equal
  have unequal : bytes ≠ bytes' := by simpa [plain, altered, Except.toOption] using different
  refine ⟨bytes, bytes', plain, shuffled, altered, ?_, ?_⟩
  · exact ((payload_eq_iff_sameContent _ first second).1 bytes bytes plain shuffled).1 rfl
  · intro content
    have same := (payload_eq_iff_sameContent _ first third).1 bytes bytes' plain altered
    exact unequal (same.2 content)

end SigningInput

end RecordSeal
