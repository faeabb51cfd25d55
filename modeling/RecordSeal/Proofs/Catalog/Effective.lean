import RecordSeal.Proofs.Catalog
import RecordSeal.Proofs.Policy

set_option autoImplicit false

/-! # Effective policies

What classification gives for a type, extended to the attributes of a record, is known in full from
the markers and mappings that the provider answers with (`IsEffective`): which attributes it lists,
in which order, and with which flags. Of mappings with one stored name the last one counts. -/

namespace RecordSeal

/-! ## Flags -/

section

variable (m : FieldMapping) (signedOnly : Bool)

theorem FieldMapping.sign_flags :
    (m.flags signedOnly).sign = true ↔ m.markers.doNotTouch.isGiven = false := by
  rw [flags]
  cases m.markers.doNotTouch.isGiven <;> simp [Flags.none]

/-- A field is encrypted unless its type or itself is signed only, or it is exempt, a key or a
version. -/
theorem FieldMapping.encrypt_flags :
    (m.flags signedOnly).encrypt = true ↔
      m.markers.doNotTouch.isGiven = false ∧ signedOnly = false ∧
        m.markers.doNotEncrypt.isGiven = false ∧ m.markers.hashKey.isGiven = false ∧
        m.markers.rangeKey.isGiven = false ∧ m.markers.version.isGiven = false := by
  rw [flags, isKey]
  cases m.markers.doNotTouch.isGiven <;> simp [Flags.none, and_assoc]

end

section

variable (m : Markers)

theorem Markers.sign_unknownFlags : m.unknownFlags.sign = true ↔ m.handleUnknown = true := by
  rw [unknownFlags]
  cases m.handleUnknown <;> simp [Flags.none]

theorem Markers.encrypt_unknownFlags :
    m.unknownFlags.encrypt = true ↔ m.handleUnknown = true ∧ m.doNotEncrypt = false := by
  rw [unknownFlags]
  cases m.handleUnknown <;> simp [Flags.none]

end

/-- What is encrypted is signed. -/
def Flags.Sound (f : Flags) : Prop := f.encrypt = true → f.sign = true

theorem FieldMapping.sound_flags (m : FieldMapping) (signedOnly : Bool) :
    (m.flags signedOnly).Sound :=
  fun h => (m.sign_flags signedOnly).2 ((m.encrypt_flags signedOnly).1 h).1

theorem Markers.sound_unknownFlags (m : Markers) : m.unknownFlags.Sound :=
  fun h => m.sign_unknownFlags.2 (m.encrypt_unknownFlags.1 h).1

/-! ## Classification -/

section

variable {signedOnly : Bool} {pairs : List (Name × Flags)}

theorem exists_namedFlags (signedOnly : Bool) {mappings : List FieldMapping}
    (named : ∀ m ∈ mappings, ∃ n, m.attributeName.toName = .ok n) :
    ∃ pairs, namedFlags signedOnly mappings = .ok pairs := by
  induction mappings with
  | nil => exact ⟨[], rfl⟩
  | cons m rest ih =>
    obtain ⟨⟨n, first⟩, others⟩ := List.forall_mem_cons.1 named
    obtain ⟨tail, rest⟩ := ih others
    refine ⟨(n, m.flags signedOnly) :: tail, ?_⟩
    rw [namedFlags, first, rest]
    rfl

/-- Flags stand where their mappings stand. -/
theorem exists_split_of_namedFlags {before after : List FieldMapping} {m : FieldMapping}
    (h : namedFlags signedOnly (before ++ m :: after) = .ok pairs) :
    ∃ front n back, m.attributeName.toName = .ok n ∧
      pairs = front ++ (n, m.flags signedOnly) :: back ∧ Assoc.keys back = storedNames after := by
  induction before generalizing pairs with
  | nil =>
    obtain ⟨n, back, named, others, rfl⟩ := namedFlags_cons_eq_ok h
    exact ⟨[], n, back, named, rfl, keys_namedFlags others⟩
  | cons first before ih =>
    obtain ⟨k, tail, -, others, rfl⟩ := namedFlags_cons_eq_ok h
    obtain ⟨front, n, back, named, rfl, keys⟩ := ih others
    exact ⟨(k, first.flags signedOnly) :: front, n, back, named, rfl, keys⟩

theorem sound_of_namedFlags {mappings : List FieldMapping}
    (h : namedFlags signedOnly mappings = .ok pairs) : ∀ e ∈ pairs, e.2.Sound := by
  induction mappings generalizing pairs with
  | nil =>
    cases h
    simp
  | cons m rest ih =>
    obtain ⟨n, tail, -, others, rfl⟩ := namedFlags_cons_eq_ok h
    exact List.forall_mem_cons.2 ⟨m.sound_flags signedOnly, ih others⟩

end

section

variable {markers : Markers} {mappings : List FieldMapping} {p : ClassPolicy}

theorem exists_classifyWith (markers : Markers)
    (named : ∀ m ∈ mappings, ∃ n, m.attributeName.toName = .ok n) :
    ∃ p, classifyWith markers mappings = .ok p := by
  obtain ⟨pairs, flagged⟩ := exists_namedFlags markers.doNotEncrypt named
  exact ⟨_, by rw [classifyWith, policiesOf, flagged]; rfl⟩

theorem keys_of_classifyWith (h : classifyWith markers mappings = .ok p) :
    p.fields.keys = (storedNames mappings).eraseDups := by
  obtain ⟨pairs, flagged, rfl⟩ := exists_of_classifyWith h
  rw [← keys_namedFlags flagged]
  exact Assoc.keys_ofList pairs

theorem contains_of_classifyWith (h : classifyWith markers mappings = .ok p) (n : Name) :
    p.fields.contains n = (storedNames mappings).contains n := by
  obtain ⟨pairs, flagged, rfl⟩ := exists_of_classifyWith h
  rw [Assoc.contains_ofList, Assoc.contains_eq_any_keys, keys_namedFlags flagged,
    List.contains_eq_any_beq]
  simp only [BEq.comm]

/-- Of mappings with one stored name the last one counts. -/
theorem get?_of_classifyWith {before after : List FieldMapping} {m : FieldMapping} {n : Name}
    (h : classifyWith markers (before ++ m :: after) = .ok p)
    (named : m.attributeName.toName = .ok n) (last : (storedNames after).contains n = false) :
    p.fields.get? n = some (m.flags markers.doNotEncrypt) := by
  obtain ⟨pairs, flagged, rfl⟩ := exists_of_classifyWith h
  obtain ⟨front, k, back, named', rfl, keys⟩ := exists_split_of_namedFlags flagged
  obtain rfl : n = k := Except.ok.inj (named.symm.trans named')
  refine Assoc.get?_ofList_append _ ?_
  rw [Assoc.contains_eq_any_keys, keys]
  simpa only [List.contains_eq_any_beq, BEq.comm] using last

theorem sound_of_classifyWith (h : classifyWith markers mappings = .ok p) :
    ∀ e ∈ p.fields, e.2.Sound := by
  obtain ⟨pairs, flagged, rfl⟩ := exists_of_classifyWith h
  exact Assoc.forall_insertAll (fun _ he => by cases he) (sound_of_namedFlags flagged)

end

/-! ## Extension to the attributes of a record -/

namespace ClassPolicy

variable {unknown : Flags} {reserved names : List Name} {p : FieldPolicies}

/-- Names are added in turn, those that are reserved left out. -/
theorem extend_eq_foldl (p : FieldPolicies) :
    extend unknown reserved p names =
      (names.filter fun n => !reserved.contains n).foldl
        (fun q n => if q.contains n then q else q.insert n unknown) p := by
  induction names generalizing p with
  | nil => rfl
  | cons n rest ih =>
    rw [extend, List.filter_cons]
    cases reserved.contains n with
    | true => rw [Bool.or_true, if_pos rfl, ih, if_neg (by simp)]
    | false =>
      rw [Bool.or_false, Bool.not_false, if_pos rfl, List.foldl_cons]
      split
      · exact ih p
      · exact ih _

/-- New names stand at the end, in the order in which they first come. -/
theorem keys_extend (p : FieldPolicies) :
    Assoc.keys (extend unknown reserved p names) = p.keys ++
      (names.filter fun n => !p.contains n && !reserved.contains n).eraseDups := by
  have adds (q : FieldPolicies) (n : Name) :
      Assoc.keys (if q.contains n then q else q.insert n unknown) =
        if q.contains n then q.keys else q.keys ++ [n] := by
    split
    · rfl
    · next new => rw [Assoc.keys_insert, if_neg new]
  rw [extend_eq_foldl, Assoc.keys_foldl adds, List.map_id', List.filter_filter]

theorem extend_eq_self (h : ∀ n ∈ names, p.contains n = true ∨ reserved.contains n = true) :
    extend unknown reserved p names = p := by
  induction names with
  | nil => rfl
  | cons n rest ih =>
    obtain ⟨first, others⟩ := List.forall_mem_cons.1 h
    rw [extend, if_pos (by simpa using first), ih others]

theorem extend_extend {names' : List Name} (within : names' ⊆ names) :
    extend unknown reserved (extend unknown reserved p names) names' =
      extend unknown reserved p names := by
  refine extend_eq_self ?_
  intro n hn
  have listed : names.any (· == n) = true := List.any_eq_true.2 ⟨n, within hn, BEq.rfl⟩
  rw [Assoc.contains, get?_extend, listed]
  cases reserved.contains n with
  | true => exact .inr rfl
  | false => exact .inl (by cases p.get? n <;> rfl)

/-- A policy that was extended to the names of a record is not extended to them again. -/
theorem reconcile_reconcile {p : ClassPolicy} {names' : List Name} (active : p.doNotTouch = false)
    (within : names' ⊆ names) :
    { p with fields := p.reconcile names reserved }.reconcile names' reserved =
      p.reconcile names reserved := by
  have extended (q : FieldPolicies) :
      { p with fields := q }.reconcile names' reserved = extend p.unknown reserved q names' :=
    reconcile_of_active (p := { p with fields := q }) active
  rw [extended, reconcile_of_active active, extend_extend within]

theorem get?_extend_congr {names' : List Name} (same : ∀ n, n ∈ names ↔ n ∈ names') (n : Name) :
    (extend unknown reserved p names).get? n = (extend unknown reserved p names').get? n := by
  have listed : names.any (· == n) = names'.any (· == n) := by
    rw [Bool.eq_iff_iff, List.any_eq_true, List.any_eq_true]
    simp only [same]
  rw [get?_extend, get?_extend, listed]

theorem sound_extend (declared : ∀ e ∈ p, e.2.Sound) (h : unknown.Sound) :
    ∀ e ∈ extend unknown reserved p names, e.2.Sound := by
  induction names generalizing p with
  | nil => exact declared
  | cons n rest ih =>
    rw [extend]
    split
    · exact ih declared
    · exact ih (Assoc.forall_insert declared h)

end ClassPolicy

/-! ## Effective policies -/

/-- Flags by attribute name, for a record with the given names, as the markers and the mappings of
its type ask for them. -/
structure IsEffective (markers : Markers) (mappings : List FieldMapping)
    (names reserved : List Name) (policies : FieldPolicies) : Prop where
  keys : policies.keys = (storedNames mappings).eraseDups ++
    (names.filter fun n =>
      !(storedNames mappings).contains n && !reserved.contains n).eraseDups
  mapped : ∀ before m after n, mappings = before ++ m :: after → m.attributeName.toName = .ok n →
    (storedNames after).contains n = false → ∃ flags, policies.get? n = some flags ∧
      (flags.sign = true ↔ m.markers.doNotTouch.isGiven = false) ∧
      (flags.encrypt = true ↔ m.markers.doNotTouch.isGiven = false ∧
        markers.doNotEncrypt = false ∧ m.markers.doNotEncrypt.isGiven = false ∧
        m.markers.hashKey.isGiven = false ∧ m.markers.rangeKey.isGiven = false ∧
        m.markers.version.isGiven = false)
  unmapped : ∀ n ∈ names, (storedNames mappings).contains n = false →
    reserved.contains n = false → ∃ flags, policies.get? n = some flags ∧
      (flags.sign = true ↔ markers.handleUnknown = true) ∧
      (flags.encrypt = true ↔ markers.handleUnknown = true ∧ markers.doNotEncrypt = false)

theorem isEffective_of_classifyWith {markers : Markers} {mappings : List FieldMapping}
    {p : ClassPolicy} (h : classifyWith markers mappings = .ok p) (names reserved : List Name) :
    IsEffective markers mappings names reserved
      (ClassPolicy.extend p.unknown reserved p.fields names) := by
  have unknown : p.unknown = markers.unknownFlags := by
    obtain ⟨-, -, rfl⟩ := exists_of_classifyWith h
    rfl
  refine ⟨?_, ?_, ?_⟩
  · rw [ClassPolicy.keys_extend, keys_of_classifyWith h]
    simp only [contains_of_classifyWith h]
  · rintro before m after n rfl named last
    refine ⟨m.flags markers.doNotEncrypt, ?_, m.sign_flags _, m.encrypt_flags _⟩
    rw [ClassPolicy.get?_extend, get?_of_classifyWith h named last, Option.some_or]
  · intro n hn undeclared free
    have absent : p.fields.get? n = none :=
      Assoc.get?_of_not_contains ((contains_of_classifyWith h n).trans undeclared)
    have listed : names.any (· == n) = true := List.any_eq_true.2 ⟨n, hn, BEq.rfl⟩
    refine ⟨markers.unknownFlags, ?_, markers.sign_unknownFlags, markers.encrypt_unknownFlags⟩
    rw [ClassPolicy.get?_extend, absent, listed, free, unknown]
    rfl

/-! ## What classification gives -/

namespace Provider

theorem mappingsOf_of_exec {p : Provider} {c : Catalog} {id : ModelId} {log : Log}
    {mappings : List FieldMapping} (h : ((p.fieldMappings id).exec c log).1 = .ok mappings) :
    p.mappingsOf c id = .ok mappings := by
  obtain ⟨c', -, ran⟩ := Catalog.exec_fieldMappings p id c log
  rw [ran] at h
  exact h

/-- A type is classified, and its policy is extended to the attributes of any record just as its
markers and mappings ask. An exempt type has no policy. What is encrypted is signed, the names of
the record may come in any order and number, what is declared stands, and nothing is added twice. -/
theorem effective_of_classify (p : Provider) (c : Catalog) (id : ModelId) (log : Log)
    {mappings : List FieldMapping}
    (asked : (p.markers c id).doNotTouch = false →
      ((p.fieldMappings id).exec c log).1 = .ok mappings)
    (named : ∀ m ∈ mappings, ∃ n, m.attributeName.toName = .ok n) :
    ∃ policy c', (p.classify id).exec c log = (.ok policy, c', log) ∧
      ((p.markers c id).doNotTouch = true →
        ∀ names reserved, policy.reconcile names reserved = []) ∧
      ((p.markers c id).doNotTouch = false → ∀ names reserved,
        IsEffective (p.markers c id) mappings names reserved (policy.reconcile names reserved)) ∧
      (∀ names reserved, ∀ e ∈ policy.reconcile names reserved, e.2.Sound) ∧
      (∀ names names' reserved, (∀ n, n ∈ names ↔ n ∈ names') → ∀ n,
        (policy.reconcile names reserved).get? n = (policy.reconcile names' reserved).get? n) ∧
      (∀ names reserved n, policy.fields.contains n = true →
        (policy.reconcile names reserved).get? n = policy.fields.get? n) ∧
      ∀ names names' reserved, names' ⊆ names →
        { policy with fields := policy.reconcile names reserved }.reconcile names' reserved =
          policy.reconcile names reserved := by
  obtain ⟨c', -, ran⟩ := Catalog.exec_classify p id c log
  cases exempt : (p.markers c id).doNotTouch with
  | true =>
    have classified : p.classified c id = .ok .exempt := by rw [classified, if_pos exempt]
    have empty (names reserved : List Name) : ClassPolicy.exempt.reconcile names reserved = [] :=
        rfl
    refine ⟨.exempt, c', by rw [ran, classified], fun _ => empty, by simp, ?_, ?_, ?_, ?_⟩
    · intro names reserved e he
      cases he
    · exact fun _ _ _ _ _ => rfl
    · exact fun _ _ _ _ => rfl
    · exact fun _ _ _ _ => rfl
  | false =>
    obtain ⟨policy, worked⟩ := exists_classifyWith (p.markers c id) named
    have classified : p.classified c id = .ok policy := by
      rw [classified, if_neg (by simp [exempt]), mappingsOf_of_exec (asked exempt)]
      exact worked
    have active := (active_of_classifyWith worked).1
    have unknown : policy.unknown.Sound := by
      obtain ⟨-, -, rfl⟩ := exists_of_classifyWith worked
      exact Markers.sound_unknownFlags _
    have reconciled (names reserved : List Name) : policy.reconcile names reserved =
        ClassPolicy.extend policy.unknown reserved policy.fields names :=
      ClassPolicy.reconcile_of_active active
    refine ⟨policy, c', by rw [ran, classified], by simp, ?_, ?_, ?_, ?_, ?_⟩
    · intro _ names reserved
      rw [reconciled]
      exact isEffective_of_classifyWith worked names reserved
    · intro names reserved
      rw [reconciled]
      exact ClassPolicy.sound_extend (sound_of_classifyWith worked) unknown
    · intro names names' reserved same n
      rw [reconciled, reconciled]
      exact ClassPolicy.get?_extend_congr same n
    · intro names reserved n declared
      obtain ⟨flags, found⟩ := Option.isSome_iff_exists.1 declared
      rw [reconciled, ClassPolicy.get?_extend, found, Option.some_or]
    · intro names names' reserved within
      exact ClassPolicy.reconcile_reconcile active within

/-- A key, and a body and a version that are stored under one name. -/
def sampleMappings : List FieldMapping :=
  [⟨.text "id", .text "pk", { hashKey := .bool true }⟩, ⟨.text "body", .text "b", {}⟩,
    ⟨.text "edition", .text "b", { version := .bool true }⟩]

/-- A catalog in which the root of the plain types is registered with these mappings, its unknown
attributes being protected. -/
def sampleCatalog : Catalog :=
  { registries := [{ mappings := [(Forest.plainRoot, sampleMappings)]
                     markers := [(Forest.plainRoot, { handleUnknown := true })] }] }

theorem named_sample : ∀ m ∈ sampleMappings, ∃ n, m.attributeName.toName = .ok n := by
  simp only [sampleMappings, List.forall_mem_cons]
  exact ⟨⟨_, rfl⟩, ⟨_, rfl⟩, ⟨_, rfl⟩, by simp⟩

/-- The mapping of the version counts, so what is stored under its name is only signed. -/
theorem effective_of_classify_sample :
    ∃ policy c', ((registry ⟨0⟩).classify Forest.plainRoot).exec sampleCatalog {} =
        (.ok policy, c', {}) ∧
      (policy.reconcile ["extra", "b", "extra", "sig"] ["sig"]).keys =
        [Name.text "pk", .text "b", .text "extra"] ∧
      ∃ flags, (policy.reconcile ["extra", "b", "extra", "sig"] ["sig"]).get? "b" = some flags ∧
        flags.sign = true ∧ flags.encrypt = false := by
  obtain ⟨policy, c', ran, -, effective, -⟩ :=
    effective_of_classify (registry ⟨0⟩) sampleCatalog Forest.plainRoot {} (fun _ => rfl)
      named_sample
  have shown := effective rfl ["extra", "b", "extra", "sig"] ["sig"]
  obtain ⟨flags, found, sign, encrypt⟩ :=
    shown.mapped (sampleMappings.take 2) ⟨.text "edition", .text "b", { version := .bool true }⟩ []
      "b" rfl rfl rfl
  refine ⟨policy, c', ran, shown.keys.trans (by decide), flags, found, sign.2 rfl, ?_⟩
  simpa [Value.isGiven] using encrypt

end Provider

end RecordSeal
