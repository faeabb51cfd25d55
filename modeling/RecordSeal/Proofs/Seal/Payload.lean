import RecordSeal.Proofs.Json.Obstacle
import RecordSeal.Proofs.Text.Utf8
import RecordSeal.Seal.Payload

set_option autoImplicit false

/-! # What signed bytes say

The signed bytes of a record depend on what the signed attributes are, not on the order of the
policies (`signingPayload_congr`). They say which table and keys the record belongs to and, up to
the order of fields, what its signed attributes are (`signed_of_signingPayload_eq`). -/

namespace RecordSeal

/-! ## Signed attributes -/

namespace FieldPolicies

theorem flagsOf_of_mem {p : FieldPolicies} (h : p.Distinct) {e : Name × Flags} (he : e ∈ p) :
    p.flagsOf e.1 = e.2 := by
  rw [flagsOf, Assoc.get?_of_mem h he]
  rfl

theorem flagsOf_of_not_contains {p : FieldPolicies} {name : Name} (h : p.contains name = false) :
    p.flagsOf name = .none := by
  rw [flagsOf, Assoc.get?_of_not_contains h]
  rfl

theorem flagsOf_congr (p : FieldPolicies) {m n : Name} (h : (m == n) = true) :
    p.flagsOf m = p.flagsOf n := by
  rw [flagsOf, flagsOf, Assoc.get?_congr p h]

theorem flagsOf_perm {p q : FieldPolicies} (h : p.Distinct) (perm : p.Perm q) (n : Name) :
    p.flagsOf n = q.flagsOf n := by
  rw [flagsOf, flagsOf, h.get?_perm perm]

theorem flagsOf_cons (name : Name) (flags : Flags) (p : FieldPolicies) (n : Name) :
    flagsOf ((name, flags) :: p) n = if name == n then flags else p.flagsOf n := by
  rw [flagsOf, Assoc.get?_cons]
  split <;> rfl

end FieldPolicies

/-- The value that a signature covers under a name, if there is one. -/
def signedValue (record : Record) (policies : FieldPolicies) (name : Name) : Option Value :=
  if (policies.flagsOf name).sign then record.get? name else none

theorem signedPart_eq_choose (record : Record) (p : FieldPolicies) :
    signedPart record p =
      Assoc.choose (fun name flags => if flags.sign then record.get? name else none) p := by
  refine List.filterMap_congr ?_
  intro e _
  dsimp only
  split <;> simp

theorem distinct_signedPart (record : Record) {p : FieldPolicies} (h : p.Distinct) :
    (signedPart record p).Distinct := by
  rw [signedPart_eq_choose]
  exact h.choose _

/-- The signed attributes answer with the values that a signature covers. -/
theorem get?_signedPart (record : Record) {p : FieldPolicies} (h : p.Distinct) (name : Name) :
    (signedPart record p).get? name = signedValue record p name := by
  rw [signedPart_eq_choose, h.get?_choose, signedValue, FieldPolicies.flagsOf]
  · cases Assoc.get? p name <;> rfl
  · intro m n flags same
    rw [Assoc.get?_congr record same]

/-- Attributes that are not signed may change. -/
theorem signedPart_congr {record record' : Record} {p : FieldPolicies} (h : p.Distinct)
    (same : ∀ name, (p.flagsOf name).sign = true → record.get? name = record'.get? name) :
    signedPart record p = signedPart record' p := by
  refine List.filterMap_congr ?_
  intro e he
  have flags : p.flagsOf e.1 = e.2 := FieldPolicies.flagsOf_of_mem h he
  dsimp only
  split
  · next sign => rw [same e.1 (flags ▸ sign)]
  · rfl

theorem OfAttributes.signedPart {p : FieldPolicies} (h : Assoc.OfAttributes p) (record : Record) :
    (signedPart record p).OfAttributes := by
  rw [signedPart_eq_choose]
  exact fun k hk => h k ((Assoc.keys_choose _ p).subset hk)

/-- Policies that sign the same values differ in nothing but the order of what they sign. -/
theorem perm_signedPart {record record' : Record} {p p' : FieldPolicies} (h : p.Distinct)
    (h' : p'.Distinct) (names : Assoc.OfAttributes p) (names' : Assoc.OfAttributes p')
    (same : ∀ name, signedValue record p name = signedValue record' p' name) :
    (signedPart record p).Perm (signedPart record' p') := by
  refine (distinct_signedPart record h).perm_of_get? (distinct_signedPart record' h') ?_ ?_
  · intro k hk l hl beq
    exact ((OfAttributes.signedPart names record k hk).beq_iff
      (OfAttributes.signedPart names' record' l hl)).1 beq
  · intro name
    rw [get?_signedPart record h, get?_signedPart record' h', same]

/-! ## The order of policies -/

namespace Value

theorem name_misfit?_eq_none {names : List Name} (h : ∀ k ∈ names, k.IsAttribute) :
    Name.misfit? names = none := by
  have comparable {m n : Name} (hm : m.IsAttribute) (hn : n.IsAttribute) :
      m.isComparable n = true := by
    cases m <;> cases n <;> first | rfl | exact hm.elim | exact hn.elim
  fun_induction Name.misfit? names with
  | case1 m n rest fits ih => exact ih fun k hk => h k (List.mem_cons_of_mem _ hk)
  | case2 m n rest misfit => exact absurd (comparable (h m (by simp)) (h n (by simp))) misfit
  | case3 => rfl

theorem misfitField?_eq_none (fields : List (Name × Value)) :
    misfitField? fields = none ↔ ∀ e ∈ fields, e.2.misfit? = none := by
  induction fields with
  | nil => simp [misfitField?]
  | cons e fields ih => simp [misfitField?, Option.or_eq_none_iff, ih]

theorem misfit?_object {fields : List (Name × Value)} (h : Assoc.OfAttributes fields) :
    (Value.object fields).misfit? = none ↔ ∀ e ∈ fields, e.2.misfit? = none := by
  rw [misfit?, name_misfit?_eq_none h, Option.none_or, misfitField?_eq_none]

/-- Objects of the same fields are sorted into one. -/
theorem sorted_object_eq_of_perm {fields fields' : List (Name × Value)}
    (h : Assoc.OfAttributes fields) (distinct : Assoc.Distinct fields)
    (perm : fields.Perm fields') :
    (Value.object fields).sorted = (Value.object fields').sorted := by
  rw [sorted, sorted, sortedFields_eq, sortedFields_eq]
  congr 1
  refine Assoc.sort_eq_of_perm ?_ ?_ (perm.map _)
  · rw [Assoc.OfAttributes, Assoc.keys_mapValues]
    exact h
  · rw [Assoc.Distinct, Assoc.keys_mapValues]
    exact distinct

end Value

/-- What is signed can be sorted if the context, the description and each signed value can be. -/
theorem misfit?_signingObject {record : Record} {p : FieldPolicies} (names : Assoc.OfAttributes p)
    (context : Context) (description : Value) :
    (signingObject record p context description).misfit? = none ↔
      (context.table.misfit? = none ∧ context.hashKey.misfit? = none ∧
        context.rangeKey.misfit? = none ∧ description.misfit? = none) ∧
      ∀ e ∈ signedPart record p, e.2.misfit? = none := by
  have top : Assoc.OfAttributes [
      (Name.text "table", context.table), ("hash_key", context.hashKey),
      ("range_key", context.rangeKey), ("material_description", description),
      ("attributes", .object (signedPart record p))] := by
    simp [Assoc.OfAttributes, Assoc.keys, Name.IsAttribute]
  have inner := Value.misfit?_object (OfAttributes.signedPart names record)
  rw [signingObject, Value.misfit?_object top]
  simp only [List.forall_mem_cons, inner, List.not_mem_nil, false_imp_iff, implies_true, and_true]
  tauto

/-- The signed bytes do not depend on the order of the policies. -/
theorem signingPayload_congr {record record' : Record} {p p' : FieldPolicies} (h : p.Distinct)
    (h' : p'.Distinct) (names : Assoc.OfAttributes p) (names' : Assoc.OfAttributes p')
    (same : ∀ name, signedValue record p name = signedValue record' p' name) {context : Context}
    {lim : Json.Limits} {description : Value} {bytes : List UInt8}
    (signed : signingPayload lim record p context description = .ok bytes) :
    signingPayload lim record' p' context description = .ok bytes := by
  have perm := perm_signedPart h h' names names' same
  have sorted : (signingObject record p context description).sorted =
      (signingObject record' p' context description).sorted := by
    have attributes := Value.sorted_object_eq_of_perm (OfAttributes.signedPart names record)
      (distinct_signedPart record h) perm
    simp only [signingObject, Value.sorted, Value.sortedFields] at attributes ⊢
    rw [attributes]
  unfold signingPayload Value.signed at signed ⊢
  split at signed
  · cases signed
  · next fits =>
    have fits' : (signingObject record' p' context description).misfit? = none := by
      rw [misfit?_signingObject names] at fits
      rw [misfit?_signingObject names']
      exact ⟨fits.1, fun e he => fits.2 e (perm.mem_iff.2 he)⟩
    rw [fits', ← sorted]
    exact signed

/-! ## What the bytes determine -/

/-- The names of a context are texts or missing. -/
structure Context.IsNamed (c : Context) : Prop where
  table : ∃ s, c.table = .ofText? s
  hashKey : ∃ s, c.hashKey = .ofText? s
  rangeKey : ∃ s, c.rangeKey = .ofText? s

theorem Value.isJson_ofText? (s : Option String) : (Value.ofText? s).IsJson := by
  cases s with
  | none => exact .null
  | some s => exact .text s

theorem Value.eq_of_alike_ofText? {s t : Option String}
    (h : (Value.ofText? s).Alike (Value.ofText? t)) : Value.ofText? s = Value.ofText? t := by
  cases s <;> cases t <;> exact h

/-- Signed bytes are those of the text of a sorted value, which can be written. -/
theorem Value.written_of_signed {lim : Json.Limits} {v : Value} {bytes : List UInt8}
    (signed : v.signed lim = .ok bytes) :
    Json.obstacle? lim.digits lim.depth v.sorted = none ∧
      Text.utf8 (Json.print Json.compact v.sorted) = bytes := by
  unfold Value.signed Value.json at signed
  split at signed
  · cases signed
  · split at signed
    · cases signed
    · next clear => exact ⟨clear, Except.ok.inj signed⟩

/-- The bytes that are signed under some limits are those that are verified under wider ones. -/
theorem signingPayload_of_within {l m : Json.Limits} (within : l.Within m) {record : Record}
    {p : FieldPolicies} {context : Context} {description : Value} {bytes : List UInt8}
    (signed : signingPayload l record p context description = .ok bytes) :
    signingPayload m record p context description = .ok bytes := by
  rw [signingPayload] at signed ⊢
  obtain ⟨clear, rfl⟩ := Value.written_of_signed signed
  have fits : (signingObject record p context description).misfit? = none := by
    unfold Value.signed at signed
    split at signed
    · cases signed
    · assumption
  simp only [Value.signed, fits, Value.json, Json.obstacle?_eq_none_of_within within clear,
    Except.map]

theorem Value.sorted_eq_of_signed {lim : Json.Limits} {v w : Value} (hv : v.IsJson)
    (hw : w.IsJson) {bytes : List UInt8} (signedV : v.signed lim = .ok bytes)
    (signedW : w.signed lim = .ok bytes) : v.sorted = w.sorted := by
  obtain ⟨clearV, bytesV⟩ := written_of_signed signedV
  obtain ⟨clearW, bytesW⟩ := written_of_signed signedW
  exact Json.print_injective Json.isPlain_compact hv.sorted.isRead hw.sorted.isRead clearV clearW
    (Text.utf8_injective (bytesV.trans bytesW.symm))

section

variable {record record' : Record} {p p' : FieldPolicies} {context context' : Context}
  {description description' : Value}

theorem isJson_signedPart (h : p.Distinct) (names : ∀ k ∈ p.keys, ∃ s, k = .text s)
    (json : ∀ name v, signedValue record p name = some v → v.IsJson) :
    (Value.object (signedPart record p)).IsJson := by
  have keys : ∀ e ∈ signedPart record p, e.1 ∈ p.keys := by
    intro e he
    rw [signedPart_eq_choose] at he
    exact (Assoc.keys_choose _ p).subset (List.mem_map_of_mem he)
  refine .object (distinct_signedPart record h) (fun e he => names e.1 (keys e he)) ?_
  intro e he
  apply json e.1
  rw [← get?_signedPart record h]
  exact Assoc.get?_of_mem (distinct_signedPart record h) he

theorem isJson_signingObject (h : p.Distinct) (names : ∀ k ∈ p.keys, ∃ s, k = .text s)
    (json : ∀ name v, signedValue record p name = some v → v.IsJson) (named : context.IsNamed)
    (described : description.IsJson) : (signingObject record p context description).IsJson := by
  obtain ⟨⟨t, table⟩, ⟨k, hashKey⟩, ⟨r, rangeKey⟩⟩ := named
  refine .object ?_ ?_ ?_
  · simp [Assoc.Distinct, Assoc.keys]
  · simp
  · simp only [List.forall_mem_cons, List.not_mem_nil, false_imp_iff, implies_true, and_true,
      table, hashKey, rangeKey]
    exact ⟨Value.isJson_ofText? t, Value.isJson_ofText? k, Value.isJson_ofText? r, described,
      isJson_signedPart h names json⟩

/-- Alike signed objects are about the same context, alike descriptions and alike signed
attributes. -/
theorem parts_of_alike (h : (signingObject record p context description).Alike
      (signingObject record' p' context' description')) :
    context.table.Alike context'.table ∧ context.hashKey.Alike context'.hashKey ∧
      context.rangeKey.Alike context'.rangeKey ∧ description.Alike description' ∧
      (Value.object (signedPart record p)).Alike (.object (signedPart record' p')) := by
  obtain ⟨-, table, hashKey, rangeKey, described, attributes, -⟩ := h
  exact ⟨table, hashKey, rangeKey, described, attributes⟩

/-- Signed bytes determine the context and, up to the order of fields, the description and the
signed attributes. -/
theorem signed_of_signingPayload_eq (h : p.Distinct) (h' : p'.Distinct)
    (names : ∀ k ∈ p.keys, ∃ s, k = .text s) (names' : ∀ k ∈ p'.keys, ∃ s, k = .text s)
    (json : ∀ name v, signedValue record p name = some v → v.IsJson)
    (json' : ∀ name v, signedValue record' p' name = some v → v.IsJson)
    (named : context.IsNamed) (named' : context'.IsNamed) (described : description.IsJson)
    (described' : description'.IsJson) {lim : Json.Limits} {bytes : List UInt8}
    (signed : signingPayload lim record p context description = .ok bytes)
    (signed' : signingPayload lim record' p' context' description' = .ok bytes) :
    context = context' ∧ description.Alike description' ∧
      ∀ name, Option.Rel Value.Alike (signedValue record p name) (signedValue record' p' name) := by
  have object := isJson_signingObject h names json named described
  have object' := isJson_signingObject h' names' json' named' described'
  have sorted := Value.sorted_eq_of_signed object object' signed signed'
  obtain ⟨table, hashKey, rangeKey, same, -, there⟩ :=
    parts_of_alike (Value.alike_of_sorted_eq object object' sorted)
  obtain ⟨-, -, -, -, -, back⟩ :=
    parts_of_alike (Value.alike_of_sorted_eq object' object sorted.symm)
  refine ⟨?_, same, ?_⟩
  · obtain ⟨t, k, r⟩ := context
    obtain ⟨t', k', r'⟩ := context'
    obtain ⟨⟨t, rfl⟩, ⟨k, rfl⟩, ⟨r, rfl⟩⟩ := named
    obtain ⟨⟨t', rfl⟩, ⟨k', rfl⟩, ⟨r', rfl⟩⟩ := named'
    rw [Value.eq_of_alike_ofText? table, Value.eq_of_alike_ofText? hashKey,
      Value.eq_of_alike_ofText? rangeKey]
  · -- Alikeness of objects only says that one side is found on the other, so both sides are used.
    intro name
    rw [← get?_signedPart record h, ← get?_signedPart record' h']
    cases found : (signedPart record p).get? name with
    | some v =>
      obtain ⟨w, found', alike⟩ := Value.get?_of_alikeFields there found
      rw [found']
      exact .some alike
    | none =>
      cases found' : (signedPart record' p').get? name with
      | none => exact .none
      | some w =>
        obtain ⟨v, absurd, -⟩ := Value.get?_of_alikeFields back found'
        rw [found] at absurd
        cases absurd

end

end RecordSeal
