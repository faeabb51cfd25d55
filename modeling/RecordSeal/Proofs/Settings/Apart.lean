import RecordSeal.Proofs.Settings.InPlace

set_option autoImplicit false

/-! # Merging values in a memory of their own

A value that is laid out in memory is read back as it is, and no place is met twice in it, whatever
is laid out after it (`Memory.laid_value`). So two values lie apart, and merging them in place gives
what merging them as values gives (`Memory.mergeApart_eq_merge`). -/

namespace RecordSeal.Memory

/-- Whether something is laid out between two memories: it is read as it was in every memory that
goes on from the second one, over places between the two that are met once each. -/
structure Laid {α : Type} (m m' : Memory) (value : (Nat → Option Record) → Option α)
    (placesOf : (Nat → Multiset Nat) → Multiset Nat) (a : α) : Prop where
  grows : m <+: m'
  read : ∀ (w : Memory) depth, m' <+: w → m'.length ≤ m.length + depth →
    value (w.read depth) = some a
  places : ∀ (w : Memory) depth, m' <+: w → m'.length ≤ m.length + depth →
    (placesOf (w.places depth)).Nodup ∧
      ∀ x ∈ placesOf (w.places depth), m.length ≤ x ∧ x < m'.length

theorem getElem?_of_onward {m w : Memory} {table : Assoc Name Slot} (onward : m ++ [table] <+: w) :
    w[m.length]? = some table := by
  obtain ⟨after, rfl⟩ := onward
  simp

namespace Laid

variable {α β γ : Type} {m m₁ m₂ : Memory} {value : (Nat → Option Record) → Option α}
  {placesOf : (Nat → Multiset Nat) → Multiset Nat} {a : α}

theorem plain (m : Memory) (a : α) : Laid m m (fun _ => some a) (fun _ => 0) a where
  grows := List.prefix_rfl
  read _ _ _ _ := rfl
  places _ _ _ _ := by simp

theorem map (f : α → β) (h : Laid m m₁ value placesOf a) :
    Laid m m₁ (fun g => (value g).map f) placesOf (f a) where
  grows := h.grows
  read w depth onward deep := by rw [h.read w depth onward deep, Option.map_some]
  places := h.places

/-- What is laid out in turn lies at different places. -/
theorem both {value' : (Nat → Option Record) → Option β}
    {places' : (Nat → Multiset Nat) → Multiset Nat} {b : β} (f : α → β → γ)
    (h : Laid m m₁ value placesOf a) (h' : Laid m₁ m₂ value' places' b) :
    Laid m m₂ (fun g => (value g).bind fun a => (value' g).map (f a))
      (fun g => placesOf g + places' g) (f a b) where
  grows := h.grows.trans h'.grows
  read w depth onward deep := by
    have first := h.grows.length_le
    have second := h'.grows.length_le
    rw [h.read w depth (h'.grows.trans onward) (by omega),
      h'.read w depth onward (by omega)]
    rfl
  places w depth onward deep := by
    have first := h.grows.length_le
    have second := h'.grows.length_le
    obtain ⟨once, between⟩ := h.places w depth (h'.grows.trans onward) (by omega)
    obtain ⟨once', between'⟩ := h'.places w depth onward (by omega)
    refine ⟨Multiset.nodup_add.2 ⟨once, once', Multiset.disjoint_left.2 ?_⟩, fun x hx => ?_⟩
    · intro x hx hx'
      have := between x hx
      have := between' x hx'
      omega
    · rcases Multiset.mem_add.1 hx with hx | hx
      · have := between x hx
        omega
      · have := between' x hx
        omega

/-- An object is laid out at the place after what is in it. -/
theorem object {table : Assoc Name Slot} {t : Record}
    (h : Laid m m₁ (Memory.fields · table) (placesUnder · table) t) :
    Laid m (m₁ ++ [table]) (· m₁.length) (· m₁.length) t where
  grows := h.grows.trans (List.prefix_append ..)
  read w depth onward deep := by
    have first := h.grows.length_le
    rw [List.length_append, List.length_singleton] at deep
    obtain ⟨depth, rfl⟩ : ∃ d, depth = d + 1 := ⟨depth - 1, by omega⟩
    rw [Memory.read, getElem?_of_onward onward, Option.bind_some]
    exact h.read w depth ((List.prefix_append ..).trans onward) (by omega)
  places w depth onward deep := by
    have first := h.grows.length_le
    rw [List.length_append, List.length_singleton] at deep ⊢
    obtain ⟨depth, rfl⟩ : ∃ d, depth = d + 1 := ⟨depth - 1, by omega⟩
    obtain ⟨once, between⟩ := h.places w depth ((List.prefix_append ..).trans onward) (by omega)
    rw [places_succ (getElem?_of_onward onward)]
    refine ⟨Multiset.nodup_cons.2 ⟨fun mem => ?_, once⟩, fun x hx => ?_⟩
    · have := between _ mem
      omega
    · rcases Multiset.mem_cons.1 hx with rfl | hx
      · omega
      · have := between x hx
        omega

end Laid

mutual

theorem laid_value (m : Memory) : ∀ v : Value,
    Laid m (layValue m v).2 (fun g => (layValue m v).1.value g)
      (fun g => (layValue m v).1.places g) v
  | .null | .bool _ | .int _ | .float _ | .text _ | .brokenText _ | .bytes _ | .foreign =>
    Laid.plain m _
  | .list items => (laid_items m items).map Value.list
  | .object fields => (laid_fields m fields).object.map Value.object

theorem laid_items (m : Memory) : ∀ items : List Value,
    Laid m (layItems m items).2 (fun g => Slot.values g (layItems m items).1)
      (fun g => Slot.placesOfAll g (layItems m items).1) items
  | [] => Laid.plain m _
  | v :: rest => (laid_value m v).both List.cons (laid_items (layValue m v).2 rest)

theorem laid_fields (m : Memory) : ∀ fields : List (Name × Value),
    Laid m (layFields m fields).2 (Memory.fields · (layFields m fields).1)
      (placesUnder · (layFields m fields).1) fields
  | [] => Laid.plain m _
  | (k, v) :: rest =>
    (laid_value m v).both (fun v others => (k, v) :: others) (laid_fields (layValue m v).2 rest)

end

theorem laid_object (m : Memory) (fields : Record) :
    Laid m (layObject m fields).2 (· (layObject m fields).1) (· (layObject m fields).1) fields :=
  (laid_fields m fields).object

/-- Merging nested fields in a memory of their own is merging them as values. -/
theorem mergeApart_eq_merge (target : Record) {source : Record}
    (nested : Value.IsNested (.object source)) :
    mergeApart target source = Settings.merge target source := by
  have below := laid_object [] target
  have above := laid_object (layObject [] target).2 source
  unfold mergeApart
  generalize layObject [] target = laid at *
  obtain ⟨place, m₁⟩ := laid
  dsimp only at *
  generalize layObject m₁ source = laid at *
  obtain ⟨given, m⟩ := laid
  dsimp only at *
  have le : m₁.length ≤ ([] : Memory).length + m.length := by
    rw [List.length_nil, Nat.zero_add]
    exact above.grows.length_le
  obtain ⟨once, between⟩ := below.places m m.length above.grows le
  obtain ⟨-, between'⟩ := above.places m m.length List.prefix_rfl (Nat.le_add_left ..)
  have apart (x : Nat) (hx : x ∈ m.places m.length place) : x ∉ m.places m.length given := by
    intro hx'
    have := between x hx
    have := between' x hx'
    omega
  obtain ⟨m', ran, read, -⟩ := merges_merge le_rfl (below.read m m.length above.grows le)
    (above.read m m.length List.prefix_rfl (Nat.le_add_left ..)) once apart nested
  rw [ran]
  dsimp only
  rw [read, Option.getD_some]

end RecordSeal.Memory
