import RecordSeal.Classification
import RecordSeal.Proofs.Json.Sorted
import RecordSeal.Proofs.Result
import RecordSeal.Proofs.Seal.Payload

set_option autoImplicit false

/-! # Policies of types and of stored records

A reconciled policy says what the policy of the type says, and of the attributes that are neither
declared nor reserved what the type says of unknown ones (`ClassPolicy.get?_extend`). If no two
mappings have one stored name, classification gives every mapping its own flags
(`classified_of_classifyWith`). -/

namespace RecordSeal

theorem Flags.pairwise_names (f : Flags) :
    f.names.Pairwise fun a b => a.toList < b.toList := by
  obtain ⟨encrypt, sign⟩ := f
  cases encrypt <;> cases sign <;> decide

namespace ClassPolicy

variable {unknown : Flags} {reserved names : List Name} {p : FieldPolicies}

theorem contains_congr {m n : Name} (h : (m == n) = true) (l : List Name) :
    l.contains m = l.contains n := by
  induction l with
  | nil => rfl
  | cons k l ih =>
    rw [List.contains_cons, List.contains_cons, ih, BEq.congr_left h]

theorem contains_of_mem {n : Name} {l : List Name} (h : n ∈ l) : l.contains n = true := by
  rw [List.contains_eq_any_beq, List.any_eq_true]
  exact ⟨n, h, BEq.rfl⟩

/-- The declared flags come first; then those of unknown attributes, for the names that are not
reserved. -/
theorem get?_extend (n : Name) :
    (extend unknown reserved p names).get? n =
      (p.get? n).or
        (if names.any (· == n) && !reserved.contains n then some unknown else none) := by
  induction names generalizing p with
  | nil => simp [extend]
  | cons name rest ih =>
    rw [extend]
    by_cases same : (name == n) = true
    · have listed : p.contains name = (p.get? n).isSome := by
        rw [Assoc.contains, Assoc.get?_congr p same]
      have kept : reserved.contains name = reserved.contains n := contains_congr same reserved
      by_cases skipped : (p.contains name || reserved.contains name) = true
      · rw [if_pos skipped, ih]
        rw [listed, kept, Bool.or_eq_true] at skipped
        rcases skipped with declared | reserved_
        · obtain ⟨flags, found⟩ := Option.isSome_iff_exists.1 declared
          rw [found, Option.some_or, Option.some_or]
        · simp [reserved_]
      · have added := skipped
        rw [if_neg skipped]
        rw [listed, kept, Bool.or_eq_true, not_or] at added
        have absent : p.get? n = none := by simpa using added.1
        rw [ih, Assoc.get?_insert, if_pos same, absent]
        simp [same, added.2]
    · -- A name that is not asked for changes no answer, whether it is added or not.
      have skip (q : FieldPolicies) (h : q.get? n = p.get? n) :
          (extend unknown reserved q rest).get? n = (p.get? n).or
            (if (name :: rest).any (· == n) && !reserved.contains n then some unknown
              else none) := by
        rw [ih, h, List.any_cons, Bool.eq_false_of_not_eq_true same, Bool.false_or]
      split
      · exact skip p rfl
      · exact skip _ (by rw [Assoc.get?_insert, if_neg same])

theorem exists_extend_eq_append (unknown : Flags) (reserved names : List Name) (p : FieldPolicies) :
    ∃ more, extend unknown reserved p names = p ++ more := by
  induction names generalizing p with
  | nil => exact ⟨[], by simp [extend]⟩
  | cons name rest ih =>
    rw [extend]
    split
    · exact ih p
    · next added =>
      have absent : p.contains name = false := by
        rw [Bool.or_eq_true, not_or] at added
        exact Bool.eq_false_of_not_eq_true added.1
      obtain ⟨more, extended⟩ := ih (p.insert name unknown)
      refine ⟨(name, unknown) :: more, ?_⟩
      rw [extended, Assoc.insert_of_not_contains absent, List.append_assoc]
      rfl

theorem distinct_extend (h : p.Distinct) : (extend unknown reserved p names).Distinct := by
  induction names generalizing p with
  | nil => exact h
  | cons name rest ih =>
    rw [extend]
    split
    · exact ih h
    · exact ih (h.insert name unknown)

theorem forall_keys_extend {P : Name → Prop} (h : ∀ k ∈ Assoc.keys p, P k)
    (all : ∀ n ∈ names, reserved.contains n = false → P n) :
    ∀ k ∈ Assoc.keys (extend unknown reserved p names), P k := by
  induction names generalizing p with
  | nil => exact h
  | cons name rest ih =>
    obtain ⟨first, others⟩ := List.forall_mem_cons.1 all
    rw [extend]
    split
    · exact ih h others
    · next added =>
      rw [Bool.or_eq_true, not_or] at added
      refine ih ?_ others
      intro k hk
      rw [Assoc.keys_insert, if_neg added.1] at hk
      rcases List.mem_append.1 hk with hk | hk
      · exact h k hk
      · obtain rfl := List.mem_singleton.1 hk
        exact first (Bool.eq_false_of_not_eq_true added.2)

theorem contains_extend {n : Name} (h : p.contains n = false) (hn : n ∈ reserved) :
    (extend unknown reserved p names).contains n = false := by
  rw [Assoc.contains, get?_extend, Assoc.get?_of_not_contains h, contains_of_mem hn]
  simp

theorem flagsOf_extend {n : Name} (hn : n ∈ names) (free : reserved.contains n = false) :
    FieldPolicies.flagsOf (extend unknown reserved p names) n = (p.get? n).getD unknown := by
  have listed : names.any (· == n) = true := List.any_eq_true.2 ⟨n, hn, BEq.rfl⟩
  rw [FieldPolicies.flagsOf, get?_extend, listed, free]
  cases p.get? n <;> rfl

theorem encrypt_extend {n : Name} (h : (p.flagsOf n).encrypt = true) :
    (FieldPolicies.flagsOf (extend unknown reserved p names) n).encrypt = true := by
  rw [FieldPolicies.flagsOf] at h ⊢
  rw [get?_extend]
  cases found : p.get? n with
  | none =>
    rw [found] at h
    cases h
  | some flags => simpa [found] using h

theorem flagsOf_extend_of_mem {n : Name} (hn : n ∈ reserved) :
    FieldPolicies.flagsOf (extend unknown reserved p names) n = p.flagsOf n := by
  rw [FieldPolicies.flagsOf, FieldPolicies.flagsOf, get?_extend, contains_of_mem hn]
  simp

/-- Leaves names out of policies unless they are declared. -/
def leaveOut (declared : FieldPolicies) (missing : List Name) (q : FieldPolicies) :
    FieldPolicies :=
  q.filter fun e => declared.contains e.1 || !missing.contains e.1

variable {missing : List Name}

@[simp] theorem leaveOut_nil (q : FieldPolicies) : leaveOut p [] q = q := by
  simp [leaveOut]

/-- What is declared stays. -/
@[simp] theorem leaveOut_self : leaveOut p missing p = p := by
  rw [leaveOut, List.filter_eq_self]
  intro e he
  rw [Assoc.contains_eq_any_keys, Bool.or_eq_true, List.any_eq_true]
  exact .inl ⟨e.1, List.mem_map_of_mem he, BEq.rfl⟩

theorem contains_leaveOut (q : FieldPolicies) (n : Name) :
    (leaveOut p missing q).contains n =
      (q.contains n && (p.contains n || !missing.contains n)) := by
  refine Assoc.contains_filter (f := fun n => p.contains n || !missing.contains n) ?_ q n
  intro m n h
  simp only [contains_congr h, Assoc.contains, Assoc.get?_congr p h]

/-- Leaving a name out on the way or in the end, if it is reserved for one and missing for the
other. -/
theorem extend_leaveOut {reserved' : List Name} (q : FieldPolicies)
    (more : ∀ n ∈ names, reserved.contains n = (reserved'.contains n || missing.contains n))
    (listed : ∀ n, p.contains n = true → q.contains n = true) :
    extend unknown reserved (leaveOut p missing q) names =
      leaveOut p missing (extend unknown reserved' q names) := by
  induction names generalizing q with
  | nil => rfl
  | cons name rest ih =>
    obtain ⟨first, others⟩ := List.forall_mem_cons.1 more
    rw [extend, extend, first, contains_leaveOut]
    cases there : q.contains name with
    | true =>
      -- A name that was left out before is one that is missing.
      have skipped : ((p.contains name || !missing.contains name) ||
          (reserved'.contains name || missing.contains name)) = true := by
        cases p.contains name <;> cases missing.contains name <;> simp
      rw [Bool.true_and, Bool.true_or, if_pos rfl, if_pos skipped]
      exact ih q others listed
    | false =>
      rw [Bool.false_and, Bool.false_or, Bool.false_or]
      cases reserved'.contains name with
      | true => exact ih q others listed
      | false =>
        have undeclared : p.contains name = false := by
          by_contra declared
          rw [listed name (Bool.eq_true_of_not_eq_false declared)] at there
          cases there
        have listed' (n : Name) (h : p.contains n = true) :
            (q.insert name unknown).contains n = true := by
          rw [Assoc.contains_insert, listed n h, Bool.or_true]
        have absent : (leaveOut p missing q).contains name = false := by
          rw [contains_leaveOut, there, Bool.false_and]
        have next := ih (q.insert name unknown) others listed'
        rw [if_neg Bool.false_ne_true, ← next, Assoc.insert_of_not_contains there,
          Assoc.insert_of_not_contains absent]
        cases missed : missing.contains name <;> simp [leaveOut, undeclared, missed]

/-- If more names are reserved, those of them that are not declared are left out. -/
theorem extend_eq_leaveOut {reserved' : List Name}
    (more : ∀ n ∈ names, reserved.contains n = (reserved'.contains n || missing.contains n)) :
    extend unknown reserved p names = leaveOut p missing (extend unknown reserved' p names) := by
  rw [← extend_leaveOut p more fun _ h => h, leaveOut_self]

theorem reconcile_of_active {p : ClassPolicy} (active : p.doNotTouch = false) :
    p.reconcile names reserved = extend p.unknown reserved p.fields names := by
  unfold reconcile
  rw [if_neg]
  simp [active]

end ClassPolicy

/-! ## Classification -/

/-- The names under which mappings are stored. -/
def storedNames (mappings : List FieldMapping) : List Name :=
  mappings.filterMap (·.attributeName.name?)

theorem Value.toName_eq_ok {v : Value} {n : Name} : v.toName = .ok n ↔ v.name? = some n := by
  rw [Value.toName]
  cases v.name? <;> simp

/-- Mappings whose stored names are texts, no two of them the same and none of them reserved. -/
structure WellNamed (reserved : List Name) (mappings : List FieldMapping) : Prop where
  apart : (storedNames mappings).Pairwise fun k l => (k == l) = false
  texts : ∀ n ∈ storedNames mappings, ∃ t, n = .text t
  free : ∀ n ∈ storedNames mappings, ∀ k ∈ reserved, (n == k) = false

section

variable {signedOnly : Bool} {mappings : List FieldMapping} {pairs : List (Name × Flags)}

theorem namedFlags_cons_eq_ok {m : FieldMapping}
    (h : namedFlags signedOnly (m :: mappings) = .ok pairs) :
    ∃ name tail, m.attributeName.toName = .ok name ∧ namedFlags signedOnly mappings = .ok tail ∧
      pairs = (name, m.flags signedOnly) :: tail := by
  rw [namedFlags] at h
  obtain ⟨name, named, h⟩ := exists_of_bind_eq_ok h
  obtain ⟨tail, others, h⟩ := exists_of_bind_eq_ok h
  cases h
  exact ⟨name, tail, named, others, rfl⟩

theorem keys_namedFlags (h : namedFlags signedOnly mappings = .ok pairs) :
    Assoc.keys pairs = storedNames mappings := by
  induction mappings generalizing pairs with
  | nil =>
    cases h
    rfl
  | cons m rest ih =>
    -- A name that is none would have been refused, so no mapping is left out.
    obtain ⟨name, tail, named, others, rfl⟩ := namedFlags_cons_eq_ok h
    rw [storedNames, List.filterMap_cons, Value.toName_eq_ok.1 named, ← storedNames, ← ih others]
    rfl

theorem exists_mem_of_namedFlags (h : namedFlags signedOnly mappings = .ok pairs)
    {m : FieldMapping} (hm : m ∈ mappings) :
    ∃ name, m.attributeName.toName = .ok name ∧ (name, m.flags signedOnly) ∈ pairs := by
  induction mappings generalizing pairs with
  | nil => cases hm
  | cons first rest ih =>
    obtain ⟨name, tail, named, others, rfl⟩ := namedFlags_cons_eq_ok h
    rcases List.mem_cons.1 hm with rfl | hm
    · exact ⟨name, named, List.mem_cons_self ..⟩
    · obtain ⟨name, named, found⟩ := ih others hm
      exact ⟨name, named, List.mem_cons_of_mem _ found⟩

end

/-- What classification makes of well-named mappings: every one has its own flags, and the rest is
up to the type. -/
structure Classified (markers : Markers) (mappings : List FieldMapping) (p : ClassPolicy) :
    Prop where
  active : p.doNotTouch = false
  unknown : p.unknown = markers.unknownFlags
  keys : p.fields.keys = storedNames mappings
  distinct : p.fields.Distinct
  flags : ∀ m ∈ mappings, ∃ n, m.attributeName.toName = .ok n ∧
    p.fields.flagsOf n = m.flags markers.doNotEncrypt

/-- What is classified is the table of the mappings' flags, with what the type says of unknown
attributes. -/
theorem exists_of_classifyWith {markers : Markers} {mappings : List FieldMapping} {p : ClassPolicy}
    (h : classifyWith markers mappings = .ok p) :
    ∃ pairs, namedFlags markers.doNotEncrypt mappings = .ok pairs ∧
      p = { fields := Assoc.ofList pairs, unknown := markers.unknownFlags } := by
  obtain ⟨fields, made, rfl⟩ := exists_of_map_eq_ok h
  obtain ⟨pairs, flagged, rfl⟩ := exists_of_map_eq_ok made
  exact ⟨pairs, flagged, rfl⟩

/-- What classification makes of mappings is a policy that is not exempt and lists every name once.
-/
theorem active_of_classifyWith {mappings : List FieldMapping} {markers : Markers} {p : ClassPolicy}
    (classified : classifyWith markers mappings = .ok p) :
    p.doNotTouch = false ∧ p.fields.Distinct := by
  obtain ⟨pairs, -, rfl⟩ := exists_of_classifyWith classified
  exact ⟨rfl, Assoc.distinct_ofList pairs⟩

theorem classified_of_classifyWith {markers : Markers} {reserved : List Name}
    {mappings : List FieldMapping} {p : ClassPolicy} (named : WellNamed reserved mappings)
    (h : classifyWith markers mappings = .ok p) : Classified markers mappings p := by
  obtain ⟨pairs, flagged, rfl⟩ := exists_of_classifyWith h
  have keys := keys_namedFlags flagged
  have distinct : Assoc.Distinct pairs := by
    rw [Assoc.Distinct, keys]
    exact named.apart
  refine ⟨rfl, rfl, ?_, ?_, ?_⟩ <;> dsimp only <;> rw [Assoc.ofList_of_distinct distinct]
  · exact keys
  · exact distinct
  · intro m hm
    obtain ⟨n, hn, found⟩ := exists_mem_of_namedFlags flagged hm
    exact ⟨n, hn, FieldPolicies.flagsOf_of_mem distinct found⟩

theorem FieldMapping.encrypt_of_isKey {m : FieldMapping} (h : m.isKey = true) (signedOnly : Bool) :
    (m.flags signedOnly).encrypt = false := by
  rw [flags]
  split
  · rfl
  · simp [h]

end RecordSeal
