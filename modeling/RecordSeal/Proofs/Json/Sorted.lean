import RecordSeal.Json.Sorted
import RecordSeal.Proofs.Json.RoundTrip

set_option autoImplicit false

/-! # Sorted values

Fields with texts for names have one order by their names (`Assoc.sort_eq_of_perm`), so tables that
answer alike are sorted into the same fields. Sorting keeps the fields of every object in a value:
values with equal sorted forms are alike (`Value.alike_of_sorted_eq`), which is to say that they
differ at most in the order of fields. -/

namespace RecordSeal

/-! ## Texts as names -/

namespace Name

/-- Whether a name is a text; lone surrogates are in it only if it has no form without them. -/
def IsAttribute : Name → Prop
  | .text _ => True
  | .brokenText ps => Text.chars? ps = none
  | _ => False

theorem IsAttribute.canonical_eq {n : Name} (h : n.IsAttribute) : n.canonical = n := by
  cases n <;> first | rfl | exact h.elim

theorem IsAttribute.beq_iff {m n : Name} (hm : m.IsAttribute) (hn : n.IsAttribute) :
    (m == n) = true ↔ m = n := by
  rw [Name.beq_iff, hm.canonical_eq, hn.canonical_eq]

theorem eq_of_text_beq {t : String} {n : Name} (h : (Name.text t == n) = true) :
    n = .text t := by
  rw [Name.beq_iff] at h
  cases n with
  | text u => exact h.symm
  | float x =>
    simp only [Name.canonical] at h
    split at h <;> cases h
  | _ => cases h

theorem mem_of_get?_text {α : Type} {m : Assoc Name α} {t : String} {a : α}
    (h : m.get? (.text t) = some a) : (Name.text t, a) ∈ m := by
  obtain ⟨l, same, hl⟩ := Assoc.mem_of_get? h
  rw [BEq.comm] at same
  rwa [eq_of_text_beq same] at hl

theorem code_injective {p q : Text.Point} (h : p.code = q.code) : p = q := by
  cases p with
  | char c =>
    have range := Json.toNat_range c
    cases q with
    | char d => exact congrArg _ (Char.toNat_inj.1 h)
    | lone offset =>
      simp only [Text.Point.code] at h
      omega
  | lone offset =>
    cases q with
    | char d =>
      have range := Json.toNat_range d
      simp only [Text.Point.code] at h
      omega
    | lone offset' =>
      simp only [Text.Point.code] at h
      exact congrArg _ (Fin.ext (by omega))

theorem IsAttribute.ofPoints_nameText {n : Name} (h : n.IsAttribute) :
    ofPoints (Json.nameText n) = n := by
  cases n with
  | text s => exact Json.ofPoints_points s
  | brokenText ps =>
    have none : Text.chars? ps = none := h
    simp [ofPoints, Json.nameText, none]
  | _ => exact h.elim

theorem IsAttribute.eq_of_codes {m n : Name} (hm : m.IsAttribute) (hn : n.IsAttribute)
    (h : m.codes = n.codes) : m = n := by
  have points : Json.nameText m = Json.nameText n :=
    List.map_injective_iff.2 (fun _ _ => code_injective) h
  rw [← hm.ofPoints_nameText, points, hn.ofPoints_nameText]

theorem IsAttribute.isBefore_eq {m : Name} (hm : m.IsAttribute) (n : Name) :
    m.isBefore n = decide (m.codes < n.codes) := by
  have none : m.height? = none := by
    cases m <;> first | rfl | exact hm.elim
  simp [isBefore, none]

end Name

/-! ## Sorting by texts -/

namespace Assoc

variable {α : Type}

/-- Whether all names of a table are texts. -/
def OfAttributes (m : Assoc Name α) : Prop := ∀ k ∈ m.keys, k.IsAttribute

theorem OfAttributes.tail {e : Name × α} {m : Assoc Name α} (h : OfAttributes (e :: m)) :
    m.OfAttributes := fun k hk => h k (List.mem_cons_of_mem _ hk)

theorem OfAttributes.perm {m n : Assoc Name α} (h : m.OfAttributes) (p : m.Perm n) :
    n.OfAttributes := fun k hk => h k ((p.map Prod.fst).mem_iff.2 hk)

theorem perm_insertSorted (k : Name) (a : α) (m : Assoc Name α) :
    (insertSorted k a m).Perm ((k, a) :: m) := by
  induction m with
  | nil => exact List.Perm.refl _
  | cons e m ih =>
    obtain ⟨l, b⟩ := e
    rw [insertSorted]
    split
    · exact (List.Perm.cons _ ih).trans (List.Perm.swap _ _ _)
    · exact List.Perm.refl _

theorem perm_sort (m : Assoc Name α) : (sort m).Perm m := by
  induction m with
  | nil => exact List.Perm.refl _
  | cons e m ih => exact (perm_insertSorted e.1 e.2 (sort m)).trans (List.Perm.cons _ ih)

theorem mem_keys_sort {k : Name} {m : Assoc Name α} : k ∈ (sort m).keys ↔ k ∈ m.keys :=
  ((perm_sort m).map Prod.fst).mem_iff

theorem keys_mapValues {κ β : Type} (f : α → β) (m : Assoc κ α) :
    (m.mapValues f).keys = m.keys := by
  simp [keys, mapValues]

/-- Fields stand in the order of their names. -/
def InOrder (m : Assoc Name α) : Prop := m.Pairwise fun e f => e.1.codes ≤ f.1.codes

theorem InOrder.insertSorted {m : Assoc Name α} (h : m.InOrder) (hm : m.OfAttributes) (k : Name)
    (a : α) : (insertSorted k a m).InOrder := by
  induction m with
  | nil => exact List.pairwise_singleton _ _
  | cons e m ih =>
    obtain ⟨l, b⟩ := e
    have hl : l.IsAttribute := hm l (List.mem_cons_self ..)
    have parts := List.pairwise_cons.1 h
    rw [Assoc.insertSorted, hl.isBefore_eq]
    split
    · next before =>
      have below : l.codes ≤ k.codes := le_of_lt (of_decide_eq_true before)
      refine List.pairwise_cons.2 ⟨?_, ih parts.2 hm.tail⟩
      intro e he
      rcases List.mem_cons.1 ((perm_insertSorted k a m).mem_iff.1 he) with rfl | he
      · exact below
      · exact parts.1 e he
    · next after =>
      have above : k.codes ≤ l.codes := by simpa using after
      refine List.pairwise_cons.2 ⟨?_, h⟩
      intro e he
      rcases List.mem_cons.1 he with rfl | he
      · exact above
      · exact le_trans above (parts.1 e he)

theorem inOrder_sort {m : Assoc Name α} (hm : m.OfAttributes) : (sort m).InOrder := by
  induction m with
  | nil => exact List.Pairwise.nil
  | cons e m ih =>
    exact (ih hm.tail).insertSorted (hm.tail.perm (perm_sort m).symm) e.1 e.2

theorem sort_eq_of_perm {m n : Assoc Name α} (hm : m.OfAttributes) (h : m.Distinct)
    (p : m.Perm n) : sort m = sort n := by
  have across : (sort m).Perm (sort n) := (perm_sort m).trans (p.trans (perm_sort n).symm)
  refine across.eq_of_pairwise ?_ (inOrder_sort hm) (inOrder_sort (hm.perm p))
  -- Two fields at one place have one name, and names are distinct.
  intro e f he hf below above
  have he : e ∈ m := (perm_sort m).mem_iff.1 he
  have hf : f ∈ m := p.mem_iff.2 ((perm_sort n).mem_iff.1 hf)
  have name : e.1 = f.1 :=
    (hm _ (List.mem_map_of_mem he)).eq_of_codes (hm _ (List.mem_map_of_mem hf))
      (le_antisymm below above)
  have entry := get?_of_mem h (show (e.1, e.2) ∈ m from he)
  rw [name, get?_of_mem h (show (f.1, f.2) ∈ m from hf)] at entry
  exact Prod.ext name (Option.some.inj entry).symm

end Assoc

namespace Value

/-! ## Values up to the order of fields -/

mutual

/-- Whether two values differ at most in the order of fields: objects have equally many fields, and
each field of one is in the other. -/
def Alike : Value → Value → Prop
  | .list items, .list items' => AlikeItems items items'
  | .object fields, .object fields' => fields.length = fields'.length ∧ AlikeFields fields fields'
  | v, w => v = w

/-- Whether items are alike one by one. -/
def AlikeItems : List Value → List Value → Prop
  | [], [] => True
  | v :: items, w :: items' => v.Alike w ∧ AlikeItems items items'
  | _, _ => False

/-- Whether every field is found, with an alike value, among others. -/
def AlikeFields : List (Name × Value) → List (Name × Value) → Prop
  | [], _ => True
  | (k, v) :: fields, others =>
    (match Assoc.get? others k with
      | some w => v.Alike w
      | none => False) ∧ AlikeFields fields others

end

theorem sortedItems_eq (items : List Value) : sortedItems items = items.map sorted := by
  induction items with
  | nil => rw [sortedItems]; rfl
  | cons v items ih => rw [sortedItems, ih]; rfl

theorem sortedFields_eq (fields : List (Name × Value)) :
    sortedFields fields = Assoc.mapValues sorted fields := by
  induction fields with
  | nil => rw [sortedFields]; rfl
  | cons e fields ih => rw [sortedFields, ih]; rfl

theorem alikeItems_of_sorted_eq {items items' : List Value}
    (alike : ∀ v ∈ items, ∀ w ∈ items', v.sorted = w.sorted → v.Alike w)
    (h : sortedItems items = sortedItems items') : AlikeItems items items' := by
  rw [sortedItems_eq, sortedItems_eq] at h
  induction items generalizing items' with
  | nil =>
    cases items' with
    | nil => exact trivial
    | cons w items' => cases h
  | cons v items ih =>
    cases items' with
    | nil => cases h
    | cons w items' =>
      obtain ⟨first, rest⟩ := List.cons.inj h
      refine ⟨alike v (List.mem_cons_self ..) w (List.mem_cons_self ..) first, ?_⟩
      refine ih ?_ rest
      intro v hv w hw
      exact alike v (List.mem_cons_of_mem _ hv) w (List.mem_cons_of_mem _ hw)

theorem alikeFields_of_forall {fields others : List (Name × Value)}
    (h : ∀ e ∈ fields, ∃ w, Assoc.get? others e.1 = some w ∧ e.2.Alike w) :
    AlikeFields fields others := by
  induction fields with
  | nil => exact trivial
  | cons e fields ih =>
    obtain ⟨k, v⟩ := e
    obtain ⟨w, found, alike⟩ := h (k, v) (List.mem_cons_self ..)
    refine ⟨?_, ih fun e he => h e (List.mem_cons_of_mem _ he)⟩
    rw [found]
    exact alike

/-- Every answer of fields that are found among others has an alike answer there. -/
theorem get?_of_alikeFields {fields others : List (Name × Value)} (h : AlikeFields fields others)
    {k : Name} {v : Value} (found : Assoc.get? fields k = some v) :
    ∃ w, Assoc.get? others k = some w ∧ v.Alike w := by
  induction fields with
  | nil => cases found
  | cons e fields ih =>
    obtain ⟨l, u⟩ := e
    obtain ⟨first, rest⟩ := h
    rw [Assoc.get?_cons] at found
    split at found
    · next same =>
      cases found
      rw [Assoc.get?_congr others same] at first
      cases answer : Assoc.get? others k with
      | none =>
        rw [answer] at first
        exact first.elim
      | some w =>
        rw [answer] at first
        exact ⟨w, rfl, first⟩
    · exact ih rest found

/-- Fields of one sorted form answer each other. -/
theorem alike_object_of_sorted_eq {fields fields' : List (Name × Value)}
    (distinct : Assoc.Distinct fields')
    (alike : ∀ e ∈ fields, ∀ e' ∈ fields', e.2.sorted = e'.2.sorted → e.2.Alike e'.2)
    (h : Assoc.sort (sortedFields fields) = Assoc.sort (sortedFields fields')) :
    (Value.object fields).Alike (.object fields') := by
  have perm : (sortedFields fields).Perm (sortedFields fields') :=
    (Assoc.perm_sort _).symm.trans (h ▸ Assoc.perm_sort _)
  -- A field is found on the other side by its name, with a value of the same sorted form.
  rw [sortedFields_eq, sortedFields_eq] at perm
  refine ⟨by simpa [Assoc.mapValues] using perm.length_eq, alikeFields_of_forall ?_⟩
  intro e he
  have found : (e.1, e.2.sorted) ∈ Assoc.mapValues sorted fields' :=
    perm.mem_iff.1 (List.mem_map_of_mem he)
  obtain ⟨e', he', same⟩ := List.mem_map.1 found
  obtain ⟨name, value⟩ := Prod.mk.inj same
  refine ⟨e'.2, ?_, alike e he e' he' value.symm⟩
  rw [← name]
  exact Assoc.get?_of_mem distinct he'

/-- Values of equal sorted forms are alike. -/
theorem alike_of_sorted_eq {v w : Value} (hv : v.IsJson) (hw : w.IsJson)
    (h : v.sorted = w.sorted) : v.Alike w := by
  induction hv generalizing w with
  | @list items all ih =>
    cases hw <;> simp only [sorted, reduceCtorEq] at h
    next items' all' =>
      exact alikeItems_of_sorted_eq (fun v hv w hw => ih v hv (all' w hw)) (Value.list.inj h)
  | @object fields distinct texts all ih =>
    cases hw <;> simp only [sorted, reduceCtorEq] at h
    next fields' distinct' texts' all' =>
      exact alike_object_of_sorted_eq distinct' (fun e he e' he' => ih e he (all' e' he'))
        (Value.object.inj h)
  | null => cases hw <;> first | exact h | simp [sorted] at h
  | bool b => cases hw <;> first | exact h | simp [sorted] at h
  | int n => cases hw <;> first | exact h | simp [sorted] at h
  | float x => cases hw <;> first | exact h | simp [sorted] at h
  | text s => cases hw <;> first | exact h | simp [sorted] at h

theorem IsJson.sorted {v : Value} (h : v.IsJson) : v.sorted.IsJson := by
  induction h with
  | @list items all ih =>
    rw [Value.sorted, sortedItems_eq]
    refine .list ?_
    intro v hv
    obtain ⟨w, hw, rfl⟩ := List.mem_map.1 hv
    exact ih w hw
  | @object fields distinct texts all ih =>
    rw [Value.sorted, sortedFields_eq]
    have origin : ∀ e ∈ Assoc.sort (Assoc.mapValues Value.sorted fields),
        ∃ f ∈ fields, (f.1, f.2.sorted) = e :=
      fun e he => List.mem_map.1 ((Assoc.perm_sort _).mem_iff.1 he)
    refine .object ?_ ?_ ?_
    · have mapped : Assoc.Distinct (Assoc.mapValues Value.sorted fields) := by
        rw [Assoc.Distinct, Assoc.keys_mapValues]
        exact distinct
      exact mapped.perm (Assoc.perm_sort _).symm
    · intro e he
      obtain ⟨f, hf, rfl⟩ := origin e he
      exact texts f hf
    · intro e he
      obtain ⟨f, hf, rfl⟩ := origin e he
      exact ih f hf
  | null => exact .null
  | bool b => exact .bool b
  | int n => exact .int n
  | float x => exact .float x
  | text s => exact .text s

end Value

end RecordSeal
