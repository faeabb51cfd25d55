import RecordSeal.Proofs.Seal.Payload

set_option autoImplicit false

/-! # More signed attributes make more signed bytes

The text of an object is as long as its fields are together, in whatever order they are written
(`Json.length_print_sorted`). So a signature that covers the attributes of another one and some more
is over other bytes (`signingPayload_ne_of_sublist`), whatever the attributes hold. -/

namespace RecordSeal

namespace Json

/-- How many characters a field takes, with what stands around its name and after its value. -/
def fieldLength (sep : Separators) (e : Name × Value) : Nat :=
  (printName e.1).length + sep.name.length + (print sep e.2).length + sep.item.length

theorem lt_fieldLength (sep : Separators) (e : Name × Value) :
    sep.item.length < fieldLength sep e := by
  have quoted : 0 < (printName e.1).length := Nat.succ_pos _
  rw [fieldLength]
  omega

/-- Fields take the sum of what each of them takes, but for the separator after the last one. -/
theorem length_printFields (sep : Separators) {fields : List (Name × Value)} (some : fields ≠ []) :
    (printFields sep fields).length + sep.item.length = (fields.map (fieldLength sep)).sum := by
  induction fields with
  | nil => exact absurd rfl some
  | cons e fields ih =>
    obtain ⟨k, v⟩ := e
    cases fields with
    | nil =>
      rw [printFields_single]
      simp [fieldLength, Nat.add_assoc]
    | cons f fields =>
      have rest := ih (List.cons_ne_nil _ _)
      rw [List.map_cons, List.sum_cons, ← rest, printFields_cons, fieldLength]
      simp only [List.length_append]
      omega

/-- The length of the text of a sorted object does not depend on the order of its fields. -/
theorem length_print_sorted (sep : Separators) {fields : List (Name × Value)}
    (some : fields ≠ []) :
    (print sep (Value.object fields).sorted).length + sep.item.length =
      2 + (fields.map fun e => fieldLength sep (e.1, e.2.sorted)).sum := by
  have perm := Assoc.perm_sort (Assoc.mapValues Value.sorted fields)
  have some' : Assoc.sort (Assoc.mapValues Value.sorted fields) ≠ [] := by
    intro none
    rw [none] at perm
    have empty := List.map_eq_nil_iff.1 (List.nil_perm.1 perm)
    exact some empty
  have sum := length_printFields sep some'
  rw [(perm.map _).sum_eq, Assoc.mapValues, List.map_map] at sum
  change _ = (fields.map fun e => fieldLength sep (e.1, e.2.sorted)).sum at sum
  rw [Value.sorted, Value.sortedFields_eq, print, Assoc.mapValues]
  simp only [List.cons_append, List.length_cons, List.length_append, List.length_nil]
  omega

/-- An object with more fields has a longer text. -/
theorem length_print_lt_of_sublist (sep : Separators) {fields fields' : List (Name × Value)}
    (sub : fields.Sublist fields') (more : fields ≠ fields') :
    (print sep (Value.object fields).sorted).length <
      (print sep (Value.object fields').sorted).length := by
  have weights : (fields.map fun e => fieldLength sep (e.1, e.2.sorted)).sum + sep.item.length <
      (fields'.map fun e => fieldLength sep (e.1, e.2.sorted)).sum := by
    induction sub with
    | slnil => exact absurd rfl more
    | @cons fields fields' e sub ih =>
      have first := lt_fieldLength sep (e.1, e.2.sorted)
      rw [List.map_cons, List.sum_cons]
      by_cases same : fields = fields'
      · subst same
        omega
      · have := ih same
        omega
    | @cons_cons fields fields' e sub ih =>
      have rest := ih (fun same => more (congrArg (e :: ·) same))
      rw [List.map_cons, List.map_cons, List.sum_cons, List.sum_cons]
      omega
  have some' : fields' ≠ [] := by
    rintro rfl
    simp at weights
  have right := length_print_sorted sep some'
  cases fields with
  | nil =>
    have left : (print sep (Value.object []).sorted).length = 2 := rfl
    simp only [List.map_nil, List.sum_nil] at weights
    omega
  | cons e fields =>
    have left := length_print_sorted sep (List.cons_ne_nil e fields)
    omega

end Json

theorem signedPart_sublist {record record' : Record} {p : FieldPolicies} (more : FieldPolicies)
    (kept : ∀ e ∈ p, e.2.sign = true → ∀ v, record.get? e.1 = some v → record'.get? e.1 = some v) :
    (signedPart record p).Sublist (signedPart record' (p ++ more)) := by
  induction p with
  | nil => exact List.nil_sublist _
  | cons e p ih =>
    obtain ⟨name, flags⟩ := e
    obtain ⟨first, rest⟩ := List.forall_mem_cons.1 kept
    have others := ih rest
    rw [List.cons_append, signedPart, signedPart, List.filterMap_cons, List.filterMap_cons]
    dsimp only
    by_cases sign : flags.sign = true
    · rw [if_pos sign, if_pos sign]
      cases found : record.get? name with
      | none =>
        cases record'.get? name with
        | none => exact others
        | some v => exact others.cons _
      | some v =>
        rw [first sign v found]
        exact others.cons_cons _
    · rw [if_neg sign, if_neg sign]
      exact others

/-- The bytes that a signature covers are other ones if it covers the same attributes and more. -/
theorem signingPayload_ne_of_sublist {record record' : Record} {p p' : FieldPolicies}
    {context : Context} {lim : Json.Limits} {description : Value} {bytes bytes' : List UInt8}
    (sub : (signedPart record p).Sublist (signedPart record' p'))
    (more : signedPart record p ≠ signedPart record' p')
    (signed : signingPayload lim record p context description = .ok bytes)
    (signed' : signingPayload lim record' p' context description = .ok bytes') :
    bytes ≠ bytes' := by
  rintro rfl
  have same := Text.utf8_injective
    ((Value.written_of_signed signed).2.trans (Value.written_of_signed signed').2.symm)
  have inner := Json.length_print_lt_of_sublist Json.compact sub more
  have left := Json.length_print_sorted Json.compact (List.cons_ne_nil
    (Name.text "table", context.table) [("hash_key", context.hashKey),
      ("range_key", context.rangeKey), ("material_description", description),
      ("attributes", .object (signedPart record p))])
  have right := Json.length_print_sorted Json.compact (List.cons_ne_nil
    (Name.text "table", context.table) [("hash_key", context.hashKey),
      ("range_key", context.rangeKey), ("material_description", description),
      ("attributes", .object (signedPart record' p'))])
  rw [← signingObject] at left right
  rw [← same, left] at right
  simp only [List.map_cons, List.map_nil, List.sum_cons, List.sum_nil, Json.fieldLength] at right
  omega

end RecordSeal
