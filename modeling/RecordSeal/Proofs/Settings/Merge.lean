import RecordSeal.Proofs.Json.Sorted
import RecordSeal.Settings

set_option autoImplicit false

/-! # What merging settings brings in

Merging is said of values here (`merge`), which is what it comes to in place unless objects are
shared. A text stands under a name after a merge if the fields merged give it, or if they give
nothing under the name and it stood there before (`get?_merge_eq_text`). A master key comes from the
fields merged or was there before (`gives_of_merge`), which is so for every property of keys that
merging does not make up (`Inherited`). -/

namespace RecordSeal

/-! ## Nested values -/

/-- Values in which every object reached through objects has each name once. -/
inductive Value.IsNested : Value → Prop where
  | plain {v : Value} (plain : v.object? = none) : IsNested v
  | object {fields : Record} (distinct : fields.Distinct) (all : ∀ e ∈ fields, IsNested e.2) :
      IsNested (.object fields)

theorem Value.IsNested.of_mem {fields : Record} (h : IsNested (.object fields)) {k : Name}
    {v : Value} (mem : (k, v) ∈ fields) : v.IsNested := by
  cases h with
  | plain plain => cases plain
  | object _ all => exact all _ mem

theorem Value.IsNested.get? {fields : Record} (h : IsNested (.object fields)) {k : Name} {v : Value}
    (found : fields.get? k = some v) : v.IsNested := by
  obtain ⟨l, -, mem⟩ := Assoc.mem_of_get? found
  exact h.of_mem mem

theorem Value.IsNested.distinct {fields : Record} (h : IsNested (.object fields)) :
    fields.Distinct := by
  cases h with
  | plain plain => cases plain
  | object distinct _ => exact distinct

namespace Settings

/-! ## Merging -/

mutual

/-- The value that takes the place of an old one: two objects are merged, else the new one
counts. -/
def mergeValue (old : Option Value) : Value → Value
  | .object fields =>
    match old with
    | some (.object oldFields) => .object (merge oldFields fields)
    | _ => .object fields
  | v => v

/-- Merges fields into an object: known names keep their place, new ones follow. -/
def merge (target : Record) : List (Name × Value) → Record
  | [] => target
  | (k, v) :: rest => merge (target.insert k (mergeValue (target.get? k) v)) rest

end

/-- A text is merged in as it is, and no other value becomes one. -/
theorem mergeValue_eq_text {old : Option Value} {v : Value} {t : String} :
    mergeValue old v = .text t ↔ v = .text t := by
  unfold mergeValue
  split
  · split <;> simp
  · rfl

theorem mergeValue_of_plain {old : Value} (plain : old.object? = none) (v : Value) :
    mergeValue (some old) v = v := by
  unfold mergeValue
  split
  · split
    · next fields same =>
      cases same
      cases plain
    · rfl
  · rfl

theorem mergeValue_plain {v : Value} (plain : v.object? = none) (old : Option Value) :
    mergeValue old v = v := by
  cases v with
  | object fields => cases plain
  | _ => rfl

theorem mergeValue_of_no_object {old : Option Value} (none : ∀ t, old ≠ some (.object t))
    (v : Value) : mergeValue old v = v := by
  cases old with
  | none =>
    unfold mergeValue
    split <;> rfl
  | some w =>
    refine mergeValue_of_plain ?_ v
    cases w with
    | object t => exact absurd rfl (none t)
    | _ => rfl

theorem mergeValue_objects (t s : Record) :
    mergeValue (some (.object t)) (.object s) = .object (merge t s) := rfl

/-- What stands under a name after a merge. -/
theorem get?_merge {m fields : Record} (distinct : fields.Distinct) (q : Name) :
    (merge m fields).get? q =
      match fields.get? q with
      | none => m.get? q
      | some v => some (mergeValue (m.get? q) v) := by
  induction fields generalizing m with
  | nil => rw [merge, Assoc.get?_nil]
  | cons e fields ih =>
    obtain ⟨k, v⟩ := e
    rw [merge, ih distinct.tail, Assoc.get?_insert, Assoc.get?_cons]
    by_cases same : (k == q) = true
    · have once : Assoc.get? fields q = none := by
        rw [← Assoc.get?_congr fields same, Assoc.get?_of_not_contains distinct.head_not_contains]
      rw [if_pos same, if_pos same, once, Assoc.get?_congr m same]
    · rw [if_neg same, if_neg same]

/-- Where only texts are looked for, merging is setting every field in turn. -/
theorem get?_merge_iff_insertAll {m m' : Record} {q : Name} {t : String}
    (same : m.get? q = some (.text t) ↔ m'.get? q = some (.text t)) (fields : Record) :
    (merge m fields).get? q = some (.text t) ↔ (m'.insertAll fields).get? q = some (.text t) := by
  induction fields generalizing m m' with
  | nil =>
    rw [merge]
    exact same
  | cons e fields ih =>
    obtain ⟨k, v⟩ := e
    rw [merge]
    have inserted : (m.insert k (mergeValue (m.get? k) v)).get? q = some (.text t) ↔
        (m'.insert k v).get? q = some (.text t) := by
      rw [Assoc.get?_insert, Assoc.get?_insert]
      by_cases hit : (k == q) = true
      · rw [if_pos hit, if_pos hit, Option.some.injEq, Option.some.injEq, mergeValue_eq_text]
      · rw [if_neg hit, if_neg hit]
        exact same
    exact ih inserted

theorem get?_merge_eq_text {m : Record} {q : Name} {t : String} (fields : Record) :
    (merge m fields).get? q = some (.text t) ↔
      (Assoc.ofList fields).get? q = some (.text t) ∨
        (Assoc.ofList fields).get? q = none ∧ m.get? q = some (.text t) := by
  rw [get?_merge_iff_insertAll Iff.rfl, Assoc.get?_insertAll, Option.or_eq_some_iff]

/-- Whether a value has a property after a merge only if one of the two that were merged had it. -/
def Inherited (P : Value → Prop) : Prop :=
  ∀ old v, P (mergeValue old v) → P v ∨ ∃ o, old = some o ∧ P o

theorem inherited_text (t : String) : Inherited (· = .text t) :=
  fun _ _ h => .inl (mergeValue_eq_text.1 h)

theorem inherited_isGiven : Inherited (·.isGiven = true) := by
  intro old v h
  cases v with
  | object fields =>
    cases fields with
    | cons e rest => exact .inl rfl
    | nil =>
      -- An empty object leaves the old one as it was.
      unfold mergeValue at h
      split at h
      · next oldFields =>
        rw [merge] at h
        exact .inr ⟨_, rfl, h⟩
      · cases h
  | _ => exact .inl h

/-- What stands under a text with an inherited property was given it by one of the sides. -/
theorem mem_merge {P : Value → Prop} (inherited : Inherited P) {m : Record} {t : String}
    {fields : Record} {w : Value} (mem : (Name.text t, w) ∈ merge m fields) (hw : P w) :
    (∃ v, (Name.text t, v) ∈ m ∧ P v) ∨ ∃ v, (Name.text t, v) ∈ fields ∧ P v := by
  induction fields generalizing m with
  | nil =>
    rw [merge] at mem
    exact .inl ⟨w, mem, hw⟩
  | cons e fields ih =>
    obtain ⟨k, v⟩ := e
    rw [merge] at mem
    rcases ih mem with ⟨u, hu, hPu⟩ | ⟨u, hu, hPu⟩
    · rcases Assoc.mem_of_mem_insert hu with hu | ⟨rfl, same⟩
      · exact .inl ⟨u, hu, hPu⟩
      · obtain rfl : k = .text t := same.elim Eq.symm Name.eq_of_text_beq
        rcases inherited _ _ hPu with hv | ⟨o, old, ho⟩
        · exact .inr ⟨v, List.mem_cons_self .., hv⟩
        · exact .inl ⟨o, Name.mem_of_get?_text old, ho⟩
    · exact .inr ⟨u, List.mem_cons_of_mem _ hu, hPu⟩

/-! ## Master keys -/

/-- Whether the fields of settings, or of a file for them, have a value for the master key. -/
def Gives (fields : Record) (key : Value) : Prop :=
  ∃ inner, (Name.text "encryption", .object inner) ∈ fields ∧ (Name.text "key", key) ∈ inner

/-- Whether the fields of settings, or of a file for them, have a value for the master key with a
property. -/
def GivesSome (P : Value → Prop) (fields : Record) : Prop := ∃ key, Gives fields key ∧ P key

theorem gives_of_merge {P : Value → Prop} (inherited : Inherited P) {m fields : Record}
    (h : GivesSome P (merge m fields)) : GivesSome P m ∨ GivesSome P fields := by
  obtain ⟨key, ⟨inner, hinner, hkey⟩, hP⟩ := h
  -- A section that holds such a key is itself what one of the sides has, or a merge of two.
  have sections : Inherited fun v => ∃ inner, v = .object inner ∧
      ∃ key, (Name.text "key", key) ∈ inner ∧ P key := by
    rintro old v ⟨inner, eq, key, hkey, hP⟩
    unfold mergeValue at eq
    split at eq
    · next fields =>
      split at eq
      · next oldFields =>
        cases eq
        rcases mem_merge inherited hkey hP with ⟨key, hkey, hP⟩ | ⟨key, hkey, hP⟩
        · exact .inr ⟨_, rfl, oldFields, rfl, key, hkey, hP⟩
        · exact .inl ⟨fields, rfl, key, hkey, hP⟩
      · exact .inl ⟨inner, eq, key, hkey, hP⟩
    · exact .inl ⟨inner, eq, key, hkey, hP⟩
  refine (mem_merge sections hinner ⟨inner, rfl, key, hkey, hP⟩).imp ?_ ?_ <;>
  · rintro ⟨v, hv, inner, rfl, key, hkey, hP⟩
    exact ⟨key, ⟨inner, hv, hkey⟩, hP⟩

theorem not_gives_builtIn (key : Value) : ¬ Gives builtIn key := by
  simp [Gives, builtIn]

/-! ## Look-up -/

theorem lookup_mode (values : Record) : lookup values "mode" = values.get? "mode" := by
  have pieces : Text.pieces '.' "mode" = ["mode"] := by decide
  rw [lookup, pieces]
  simp only [atPath]
  cases values.get? "mode" <;> rfl

theorem gives_of_lookup {values : Record} {key : Value}
    (h : lookup values "encryption.key" = some key) : Gives values key := by
  have pieces : Text.pieces '.' "encryption.key" = ["encryption", "key"] := by decide
  rw [lookup, pieces] at h
  simp only [atPath] at h
  split at h
  · next v hv =>
    cases v with
    | object inner =>
      simp only [atPath] at h
      split at h
      · next u hu =>
        cases h
        exact ⟨inner, Name.mem_of_get?_text hv, Name.mem_of_get?_text hu⟩
      · cases h
    | _ => cases h
  · cases h

end Settings

end RecordSeal
