import Mathlib.Data.List.Nodup
import Mathlib.Data.List.Perm.Basic
import RecordSeal.Assoc

set_option autoImplicit false

/-! # Tables whose keys are distinct

Such a table is known by its keys in order and by what it answers (`Distinct.ext`). A key that is
new goes to the end, and what is set leaves no trace when its key is removed (`erase_insert`). -/

namespace RecordSeal.Assoc

variable {κ α β : Type} [BEq κ]

/-! ## Keys -/

theorem not_beq_of_not_contains {m : Assoc κ α} {k : κ} (h : m.contains k = false) {l : κ}
    (hl : l ∈ m.keys) : (l == k) = false := by
  rw [contains_eq_any_keys, List.any_eq_false] at h
  simpa using h l hl

/-- What a filter by keys keeps, if it does not tell apart keys that are the same. -/
theorem contains_filter {f : κ → Bool} (same : ∀ k l, (k == l) = true → f k = f l)
    (m : Assoc κ α) (k : κ) : contains (m.filter fun e => f e.1) k = (m.contains k && f k) := by
  rw [contains_eq_any_keys, contains_eq_any_keys, keys, keys, List.any_map, List.any_map,
    List.any_filter]
  induction m with
  | nil => rfl
  | cons e m ih =>
    rw [List.any_cons, List.any_cons, ih]
    cases found : e.1 == k with
    | false => simp [found]
    | true => simp [found, same e.1 k found]

theorem get?_of_not_contains {m : Assoc κ α} {k : κ} (h : m.contains k = false) :
    m.get? k = none := by
  simpa [contains] using h

theorem contains_congr_keys {m : Assoc κ α} {n : Assoc κ β} (h : m.keys = n.keys) (k : κ) :
    m.contains k = n.contains k := by
  rw [contains_eq_any_keys, contains_eq_any_keys, h]

theorem keys_insert_of_contains {m : Assoc κ α} {k : κ} (h : m.contains k = true) (a : α) :
    (m.insert k a).keys = m.keys := by
  rw [keys_insert, if_pos h]

theorem insert_of_not_contains {m : Assoc κ α} {k : κ} (h : m.contains k = false) (a : α) :
    m.insert k a = m ++ [(k, a)] := by
  induction m with
  | nil => rfl
  | cons e m ih =>
    have first : (e.1 == k) = false := not_beq_of_not_contains h (by simp [keys])
    obtain ⟨l, b⟩ := e
    have rest : contains m k = false := by
      rw [contains, get?_cons, first] at h
      exact h
    rw [insert, if_neg (by simp [first]), ih rest]
    rfl

theorem erase_of_not_contains {m : Assoc κ α} {k : κ} (h : m.contains k = false) :
    m.erase k = m := by
  refine List.filter_eq_self.2 ?_
  intro e he
  simp [not_beq_of_not_contains h (List.mem_map_of_mem he)]

theorem keys_erase (m : Assoc κ α) (k : κ) :
    (m.erase k).keys = m.keys.filter fun l => !(l == k) := by
  rw [keys, keys, erase, List.filter_map]
  rfl

theorem erase_comm (m : Assoc κ α) (k l : κ) : (m.erase k).erase l = (m.erase l).erase k := by
  simp [erase, List.filter_filter, Bool.and_comm]

/-- What is set under a key leaves no trace when the key is removed. -/
theorem erase_insert [ReflBEq κ] (m : Assoc κ α) (k : κ) (a : α) :
    (m.insert k a).erase k = m.erase k := by
  induction m with
  | nil => simp [insert, erase]
  | cons e m ih =>
    obtain ⟨l, b⟩ := e
    rw [insert]
    by_cases same : (l == k) = true
    · simp [erase, same]
    · rw [if_neg same, erase, erase, List.filter_cons, List.filter_cons, ← erase, ← erase, ih]

theorem mem_of_get? {m : Assoc κ α} {k : κ} {a : α} (h : m.get? k = some a) :
    ∃ l, (l == k) = true ∧ (l, a) ∈ m := by
  induction m with
  | nil => cases h
  | cons e m ih =>
    obtain ⟨l, b⟩ := e
    rw [get?_cons] at h
    split at h
    · next same =>
      cases h
      exact ⟨l, same, List.mem_cons_self ..⟩
    · obtain ⟨l', same, hm⟩ := ih h
      exact ⟨l', same, List.mem_cons_of_mem _ hm⟩

theorem insert_eq_self {m : Assoc κ α} {k : κ} {a : α} (h : m.get? k = some a) :
    m.insert k a = m := by
  induction m with
  | nil => cases h
  | cons e m ih =>
    obtain ⟨l, b⟩ := e
    rw [get?_cons] at h
    rw [insert]
    split at h
    · next same =>
      cases h
      rw [if_pos same]
    · next other => rw [if_neg other, ih h]

theorem mem_of_mem_insert {m : Assoc κ α} {k q : κ} {a w : α}
    (h : (q, w) ∈ m.insert k a) : (q, w) ∈ m ∨ w = a ∧ (q = k ∨ (q == k) = true) := by
  induction m with
  | nil =>
    rw [insert, List.mem_singleton] at h
    cases h
    exact .inr ⟨rfl, .inl rfl⟩
  | cons e m ih =>
    obtain ⟨l, b⟩ := e
    rw [insert] at h
    split at h
    · next same =>
      rcases List.mem_cons.1 h with h | h
      · cases h
        exact .inr ⟨rfl, .inr same⟩
      · exact .inl (List.mem_cons_of_mem _ h)
    · rcases List.mem_cons.1 h with h | h
      · cases h
        exact .inl (List.mem_cons_self ..)
      · exact (ih h).imp_left (List.mem_cons_of_mem _)

theorem forall_mem_insertAll {P : α → Prop} {m pairs : Assoc κ α} (old : ∀ e ∈ m, P e.2)
    (new : ∀ e ∈ pairs, P e.2) : ∀ e ∈ m.insertAll pairs, P e.2 := by
  induction pairs generalizing m with
  | nil => exact old
  | cons pair pairs ih =>
    obtain ⟨first, rest⟩ := List.forall_mem_cons.1 new
    refine ih (fun e he => ?_) rest
    obtain ⟨k, a⟩ := e
    rcases mem_of_mem_insert he with there | ⟨rfl, -⟩
    · exact old _ there
    · exact first

theorem forall_insert {P : α → Prop} {m : Assoc κ α} (h : ∀ e ∈ m, P e.2)
    {k : κ} {a : α} (ha : P a) : ∀ e ∈ m.insert k a, P e.2 := by
  induction m with
  | nil => simpa [insert] using ha
  | cons e m ih =>
    obtain ⟨first, rest⟩ := List.forall_mem_cons.1 h
    rw [insert]
    split
    · exact List.forall_mem_cons.2 ⟨ha, rest⟩
    · exact List.forall_mem_cons.2 ⟨first, ih rest⟩

theorem forall_insertAll {P : α → Prop} {m pairs : Assoc κ α}
    (h : ∀ e ∈ m, P e.2) (h' : ∀ e ∈ pairs, P e.2) : ∀ e ∈ m.insertAll pairs, P e.2 := by
  induction pairs generalizing m with
  | nil => exact h
  | cons e pairs ih =>
    obtain ⟨first, rest⟩ := List.forall_mem_cons.1 h'
    exact ih (forall_insert h first) rest

theorem forall_keys_insertAll {P : κ → Prop} {m pairs : Assoc κ α} (h : ∀ k ∈ m.keys, P k)
    (h' : ∀ k ∈ pairs.keys, P k) : ∀ k ∈ (m.insertAll pairs).keys, P k := by
  induction pairs generalizing m with
  | nil => exact h
  | cons e pairs ih =>
    obtain ⟨first, rest⟩ := List.forall_mem_cons.1 h'
    refine @ih (m.insert e.1 e.2) ?_ rest
    intro k hk
    rw [keys_insert] at hk
    split at hk
    · exact h k hk
    · rcases List.mem_append.1 hk with hk | hk
      · exact h k hk
      · exact List.mem_singleton.1 hk ▸ first

theorem Distinct.tail {e : κ × α} {m : Assoc κ α} (h : Distinct (e :: m)) : m.Distinct :=
  (List.pairwise_cons.1 h).2

theorem Distinct.head {e : κ × α} {m : Assoc κ α} (h : Distinct (e :: m)) {l : κ}
    (hl : l ∈ m.keys) : (e.1 == l) = false :=
  (List.pairwise_cons.1 h).1 l hl

theorem insertAll_of_distinct {m pairs : Assoc κ α} (h : Distinct (m ++ pairs)) :
    m.insertAll pairs = m ++ pairs := by
  induction pairs generalizing m with
  | nil => simp [insertAll]
  | cons e pairs ih =>
    obtain ⟨k, a⟩ := e
    have absent : m.contains k = false := by
      rw [contains_eq_any_keys, List.any_eq_false]
      intro l hl
      have parts := h
      rw [Distinct, keys, List.map_append, List.pairwise_append] at parts
      simpa using parts.2.2 l hl k (by simp)
    have split : m ++ (k, a) :: pairs = (m ++ [(k, a)]) ++ pairs := by simp
    rw [split] at h ⊢
    rw [← ih h, ← insert_of_not_contains absent]
    rfl

theorem ofList_of_distinct {pairs : Assoc κ α} (h : Distinct pairs) : ofList pairs = pairs :=
  insertAll_of_distinct h

theorem Distinct.erase {m : Assoc κ α} (h : m.Distinct) {k : κ} : (m.erase k).Distinct :=
  List.Pairwise.sublist (List.filter_sublist.map Prod.fst) h

variable [EquivBEq κ]

/-! ## Entries -/

theorem get?_congr (m : Assoc κ α) {k l : κ} (h : (k == l) = true) : m.get? k = m.get? l := by
  induction m with
  | nil => rfl
  | cons e m ih =>
    have same : (e.1 == k) = (e.1 == l) := BEq.congr_right h
    show (if e.1 == k then some e.2 else get? m k) = if e.1 == l then some e.2 else get? m l
    rw [same, ih]

theorem contains_congr (m : Assoc κ α) {k l : κ} (h : (k == l) = true) :
    m.contains k = m.contains l := by
  rw [contains, contains, get?_congr m h]

theorem contains_insert (m : Assoc κ α) (k : κ) (a : α) (q : κ) :
    (m.insert k a).contains q = (k == q || m.contains q) := by
  rw [contains, get?_insert]
  split
  · next same => simp [same]
  · next other => simp [other, contains]

theorem Distinct.head_not_contains {e : κ × α} {m : Assoc κ α} (h : Distinct (e :: m)) :
    m.contains e.1 = false := by
  rw [contains_eq_any_keys, List.any_eq_false]
  intro l hl
  rw [BEq.comm, h.head hl]
  simp

theorem get?_of_mem {m : Assoc κ α} (h : m.Distinct) {k : κ} {a : α} (hm : (k, a) ∈ m) :
    m.get? k = some a := by
  induction m with
  | nil => cases hm
  | cons e m ih =>
    obtain ⟨l, b⟩ := e
    rcases List.mem_cons.1 hm with hm | hm
    · cases hm
      simp
    · have other : (l == k) = false := h.head (List.mem_map_of_mem hm)
      simp [other, ih h.tail hm]

/-- Keys in order and answers determine a table. -/
theorem Distinct.ext {m n : Assoc κ α} (h : m.Distinct) (keys : m.keys = n.keys)
    (answers : ∀ k ∈ m.keys, m.get? k = n.get? k) : m = n := by
  induction m generalizing n with
  | nil =>
    cases n with
    | nil => rfl
    | cons e n => cases keys
  | cons e m ih =>
    cases n with
    | nil => cases keys
    | cons e' n =>
      obtain ⟨k, a⟩ := e
      obtain ⟨k', a'⟩ := e'
      obtain ⟨rfl, others⟩ : k = k' ∧ Assoc.keys m = Assoc.keys n := List.cons.inj keys
      have first := answers k (List.mem_cons_self ..)
      simp only [get?_cons, BEq.refl, if_true, Option.some.injEq] at first
      have rest : m = n := by
        refine ih h.tail others ?_
        intro l hl
        have other : (k == l) = false := h.head hl
        simpa [other] using answers l (List.mem_cons_of_mem _ hl)
      rw [first, rest]

omit [EquivBEq κ] in
theorem distinct_insertAll {m : Assoc κ α} (h : m.Distinct) (pairs : List (κ × α)) :
    (m.insertAll pairs).Distinct := by
  induction pairs generalizing m with
  | nil => exact h
  | cons e pairs ih => exact ih (h.insert e.1 e.2)

omit [EquivBEq κ] in
theorem distinct_ofList (pairs : List (κ × α)) : (ofList pairs).Distinct :=
  distinct_insertAll (m := []) List.Pairwise.nil pairs

theorem get?_insertAll_of_not_mem {m : Assoc κ α} {pairs : Assoc κ α} {q : κ}
    (h : ∀ k ∈ pairs.keys, (k == q) = false) : (m.insertAll pairs).get? q = m.get? q := by
  induction pairs generalizing m with
  | nil => rfl
  | cons e pairs ih =>
    obtain ⟨first, rest⟩ := List.forall_mem_cons.1 h
    have inserted : (m.insert e.1 e.2).get? q = m.get? q := by
      rw [get?_insert, if_neg (by simp [first])]
    exact (ih rest).trans inserted

theorem get?_ofList_of_not_mem {pairs : Assoc κ α} {q : κ}
    (h : ∀ k ∈ pairs.keys, (k == q) = false) : (ofList pairs).get? q = none :=
  get?_insertAll_of_not_mem h

theorem get?_insertAll (m pairs : Assoc κ α) (q : κ) :
    (m.insertAll pairs).get? q = ((ofList pairs).get? q).or (m.get? q) := by
  induction pairs generalizing m with
  | nil => rfl
  | cons e pairs ih =>
    obtain ⟨k, a⟩ := e
    have first : (m.insertAll ((k, a) :: pairs)).get? q =
        ((ofList pairs).get? q).or ((m.insert k a).get? q) := ih _
    have alone : (ofList ((k, a) :: pairs)).get? q =
        ((ofList pairs).get? q).or (get? [(k, a)] q) := ih _
    have inserted : (m.insert k a).get? q = (get? [(k, a)] q).or (m.get? q) := by
      rw [get?_insert, get?_cons]
      by_cases hit : (k == q) = true
      · rw [if_pos hit, if_pos hit, Option.some_or]
      · rw [if_neg hit, if_neg hit, get?_nil, Option.none_or]
    rw [first, alone, inserted, Option.or_assoc]

/-! ## Keys in the order in which they come -/

theorem eraseDups_of_pairwise {l : List κ} (h : l.Pairwise fun k k' => (k == k') = false) :
    l.eraseDups = l := by
  induction l with
  | nil => rfl
  | cons k l ih =>
    obtain ⟨first, rest⟩ := List.pairwise_cons.1 h
    have others : (l.filter fun q => !q == k) = l := by
      refine List.filter_eq_self.2 fun q hq => ?_
      rw [BEq.comm, first q hq]
      rfl
    rw [List.eraseDups_cons, others, ih rest]

section

variable {step : Assoc κ α → β → Assoc κ α} {key : β → κ}
  (adds : ∀ m b, (step m b).keys = if m.contains (key b) then m.keys else m.keys ++ [key b])

include adds

theorem contains_step (m : Assoc κ α) (b : β) (q : κ) :
    (step m b).contains q = (m.contains q || key b == q) := by
  rw [contains_eq_any_keys, adds]
  cases there : m.contains (key b) with
  | true =>
    rw [if_pos rfl, ← contains_eq_any_keys]
    cases same : key b == q with
    | true => rw [contains, ← get?_congr m same, ← contains, there, Bool.or_true]
    | false => exact (Bool.or_false _).symm
  | false => simp [contains_eq_any_keys]

theorem contains_foldl (m : Assoc κ α) (l : List β) (q : κ) :
    (l.foldl step m).contains q = (m.contains q || (l.map key).any (· == q)) := by
  induction l generalizing m with
  | nil => exact (Bool.or_false _).symm
  | cons b l ih =>
    rw [List.foldl_cons, ih, contains_step adds, List.map_cons, List.any_cons, Bool.or_assoc]

/-- What a step adds to a table is left out of what comes later. -/
theorem filter_not_contains_step (m : Assoc κ α) (b : β) (l : List κ) :
    (l.filter fun q => !(step m b).contains q) =
      (l.filter fun q => !m.contains q).filter fun q => !q == key b := by
  rw [List.filter_filter]
  refine List.filter_congr ?_
  intro q _
  rw [contains_step adds, Bool.not_or, Bool.and_comm, BEq.comm]

/-- If every step adds at most its key, keys stand in the order in which they first come. -/
theorem keys_foldl (m : Assoc κ α) (l : List β) :
    (l.foldl step m).keys = m.keys ++ ((l.map key).filter fun q => !m.contains q).eraseDups := by
  induction l generalizing m with
  | nil => exact (List.append_nil _).symm
  | cons b l ih =>
    rw [List.foldl_cons, ih, filter_not_contains_step adds, adds, List.map_cons, List.filter_cons]
    cases there : m.contains (key b) with
    | true =>
      -- What is the same as a key of the table is left out already.
      have again : (((l.map key).filter fun q => !m.contains q).filter fun q => !q == key b) =
          (l.map key).filter fun q => !m.contains q := by
        refine List.filter_eq_self.2 ?_
        intro q hq
        by_contra same
        have equal : (q == key b) = true := by simpa using same
        have new := (List.mem_filter.1 hq).2
        rw [contains, get?_congr m equal, ← contains, there] at new
        cases new
      rw [if_pos rfl, if_neg (by simp), again]
    | false =>
      rw [if_neg Bool.false_ne_true, if_pos (by simp), List.eraseDups_cons, List.append_assoc]
      rfl

end

theorem keys_insertAll (m : Assoc κ α) (pairs : Assoc κ α) :
    (m.insertAll pairs).keys = m.keys ++ (pairs.keys.filter fun q => !m.contains q).eraseDups :=
  keys_foldl (fun m e => keys_insert m e.1 e.2) m pairs

theorem keys_ofList (pairs : Assoc κ α) : (ofList pairs).keys = pairs.keys.eraseDups := by
  rw [ofList, keys_insertAll]
  simp [keys, contains]

theorem contains_ofList (pairs : Assoc κ α) (k : κ) :
    (ofList pairs).contains k = pairs.contains k := by
  rw [contains_eq_any_keys pairs]
  exact contains_foldl (fun m e => keys_insert m e.1 e.2) [] pairs k

theorem get?_ofList_append {before after : Assoc κ α} {k : κ} (a : α)
    (last : after.contains k = false) :
    (ofList (before ++ (k, a) :: after)).get? k = some a := by
  have split : ofList (before ++ (k, a) :: after) =
      ((ofList before).insert k a).insertAll after :=
    List.foldl_append
  have others : ∀ l ∈ after.keys, (l == k) = false := fun l => not_beq_of_not_contains last
  rw [split, get?_insertAll_of_not_mem others, get?_insert, if_pos BEq.rfl]

/-! ## Choosing entries -/

/-- The entries that a function gives for some of the keys, in order. -/
def choose (f : κ → α → Option β) (m : Assoc κ α) : Assoc κ β :=
  m.filterMap fun e => (f e.1 e.2).map (e.1, ·)

omit [EquivBEq κ] [BEq κ] in
theorem choose_cons (f : κ → α → Option β) (k : κ) (a : α) (m : Assoc κ α) :
    choose f ((k, a) :: m) =
      match f k a with
      | some b => (k, b) :: choose f m
      | none => choose f m := by
  cases h : f k a <;> simp [choose, h]

omit [EquivBEq κ] [BEq κ] in
theorem keys_choose (f : κ → α → Option β) (m : Assoc κ α) : (choose f m).keys.Sublist m.keys := by
  induction m with
  | nil => exact List.Sublist.refl _
  | cons e m ih =>
    obtain ⟨k, a⟩ := e
    rw [choose_cons]
    cases f k a with
    | none => exact ih.cons _
    | some b => exact ih.cons_cons _

omit [EquivBEq κ] in
theorem Distinct.choose {m : Assoc κ α} (h : m.Distinct) (f : κ → α → Option β) :
    (choose f m).Distinct :=
  List.Pairwise.sublist (keys_choose f m) h

/-- What is chosen answers with what the function gives, if it gives the same under keys that are
the same. -/
theorem Distinct.get?_choose {m : Assoc κ α} (h : m.Distinct) {f : κ → α → Option β}
    (congr : ∀ k l a, (k == l) = true → f k a = f l a) (k : κ) :
    (Assoc.choose f m).get? k = (m.get? k).bind (f k) := by
  induction m with
  | nil => rfl
  | cons e m ih =>
    obtain ⟨l, a⟩ := e
    have rest := ih h.tail
    rw [choose_cons, get?_cons]
    by_cases same : (l == k) = true
    · have absent : (Assoc.choose f m).get? k = none := by
        rw [rest, ← get?_congr m same, get?_of_not_contains h.head_not_contains]
        rfl
      rw [if_pos same, Option.bind_some, ← congr l k a same]
      cases f l a with
      | none => exact absent
      | some b => simp [same]
    · rw [if_neg same, ← rest]
      cases f l a with
      | none => rfl
      | some b => simp [same]

/-! ## Order -/

theorem Distinct.perm {m n : Assoc κ α} (h : m.Distinct) (p : m.Perm n) : n.Distinct := by
  refine (p.map Prod.fst).pairwise h ?_
  intro k l hkl
  rwa [BEq.comm]

/-- The order of a table does not matter for what it answers. -/
theorem Distinct.get?_perm {m n : Assoc κ α} (h : m.Distinct) (p : m.Perm n) (k : κ) :
    m.get? k = n.get? k := by
  cases found : m.get? k with
  | some a =>
    obtain ⟨l, same, hl⟩ := mem_of_get? found
    rw [← get?_congr n same, get?_of_mem (h.perm p) (p.mem_iff.1 hl)]
  | none =>
    cases found' : n.get? k with
    | none => rfl
    | some a =>
      obtain ⟨l, same, hl⟩ := mem_of_get? found'
      rw [← get?_congr m same, get?_of_mem h (p.mem_iff.2 hl)] at found
      cases found

theorem Distinct.nodup {m : Assoc κ α} (h : m.Distinct) : m.Nodup := by
  refine List.Nodup.of_map Prod.fst (List.Pairwise.imp ?_ h)
  intro k l hkl
  rintro rfl
  simp at hkl

/-- Tables that answer alike have the same entries if keys that are the same are equal. -/
theorem Distinct.perm_of_get? {m n : Assoc κ α} (hm : m.Distinct) (hn : n.Distinct)
    (strict : ∀ k ∈ m.keys, ∀ l ∈ n.keys, (k == l) = true → k = l)
    (answers : ∀ k, m.get? k = n.get? k) : m.Perm n := by
  refine (List.perm_ext_iff_of_nodup hm.nodup hn.nodup).2 ?_
  rintro ⟨k, a⟩
  constructor
  · intro he
    obtain ⟨l, same, hl⟩ := mem_of_get? ((answers k).symm.trans (get?_of_mem hm he))
    rw [strict k (List.mem_map_of_mem he) l (List.mem_map_of_mem hl) (BEq.symm same)]
    exact hl
  · intro he
    obtain ⟨l, same, hl⟩ := mem_of_get? ((answers k).trans (get?_of_mem hn he))
    rw [← strict l (List.mem_map_of_mem hl) k (List.mem_map_of_mem he) same]
    exact hl

end RecordSeal.Assoc
