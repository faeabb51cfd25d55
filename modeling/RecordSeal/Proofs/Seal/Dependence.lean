import RecordSeal.Proofs.Seal.RoundTrip

set_option autoImplicit false

/-! # What opening depends on

Opening looks at the attributes that have flags and at the reserved ones, and at their values up to
the order of fields. Two records that agree on these fail alike or open alike, whatever else they
hold and in whatever order (`Sealer.openRecord_alike`). The reason is that the sorted form of a
value does not tell alike values apart (`Value.sorted_eq_of_alike`) and that each attribute is
decrypted on its own. -/

namespace RecordSeal

/-- Values that documents hold: those that JSON texts describe, and texts with lone surrogates. -/
inductive Value.IsStorable : Value → Prop where
  | null : IsStorable .null
  | bool (b : Bool) : IsStorable (.bool b)
  | int (n : Int) : IsStorable (.int n)
  | float (x : Binary64) : IsStorable (.float x)
  | text (s : String) : IsStorable (.text s)
  | brokenText (ps : List Text.Point) : IsStorable (.brokenText ps)
  | list {items : List Value} (all : ∀ v ∈ items, IsStorable v) : IsStorable (.list items)
  | object {fields : List (Name × Value)} (distinct : Assoc.Distinct fields)
      (names : Assoc.OfAttributes fields) (all : ∀ e ∈ fields, IsStorable e.2) :
      IsStorable (.object fields)

namespace Value

/-! ## Alike values -/

theorem Alike.eq_or_parts {v w : Value} (h : v.Alike w) :
    v = w ∨ (∃ items items', v = .list items ∧ w = .list items') ∨
      ∃ fields fields', v = .object fields ∧ w = .object fields' := by
  unfold Alike at h
  split at h
  · exact .inr (.inl ⟨_, _, rfl, rfl⟩)
  · exact .inr (.inr ⟨_, _, rfl, rfl⟩)
  · exact .inl h

theorem sortedItems_eq_of_alike {items items' : List Value}
    (sorted : ∀ v ∈ items, ∀ w ∈ items', v.Alike w → v.sorted = w.sorted)
    (h : AlikeItems items items') : sortedItems items = sortedItems items' := by
  induction items generalizing items' with
  | nil =>
    cases items' with
    | nil => rfl
    | cons w items' => exact h.elim
  | cons v items ih =>
    cases items' with
    | nil => exact h.elim
    | cons w items' =>
      obtain ⟨first, rest⟩ := h
      rw [sortedItems, sortedItems, sorted v (by simp) w (by simp) first]
      congr 1
      refine ih ?_ rest
      intro v hv w hw
      exact sorted v (List.mem_cons_of_mem _ hv) w (List.mem_cons_of_mem _ hw)

/-- Every field that is found among others stands there under its very name. -/
theorem mem_of_alikeFields {fields others : List (Name × Value)} (distinct : Assoc.Distinct fields)
    (names : Assoc.OfAttributes fields) (names' : Assoc.OfAttributes others)
    (h : AlikeFields fields others) {e : Name × Value} (he : e ∈ fields) :
    ∃ w, (e.1, w) ∈ others ∧ e.2.Alike w := by
  obtain ⟨w, found, alike⟩ := get?_of_alikeFields h (Assoc.get?_of_mem distinct he)
  obtain ⟨l, same, hl⟩ := Assoc.mem_of_get? found
  have name : l = e.1 :=
    ((names' l (List.mem_map_of_mem hl)).beq_iff (names e.1 (List.mem_map_of_mem he))).1 same
  exact ⟨w, name ▸ hl, alike⟩

/-- Alike objects have the same fields once their values are sorted. -/
theorem perm_sortedFields_of_alike {fields fields' : List (Name × Value)}
    (distinct : Assoc.Distinct fields) (names : Assoc.OfAttributes fields)
    (names' : Assoc.OfAttributes fields')
    (sorted : ∀ e ∈ fields, ∀ e' ∈ fields', e.2.Alike e'.2 → e.2.sorted = e'.2.sorted)
    (h : (Value.object fields).Alike (.object fields')) :
    (Assoc.mapValues Value.sorted fields).Perm (Assoc.mapValues Value.sorted fields') := by
  obtain ⟨length, alike⟩ := h
  have once : Assoc.Distinct (Assoc.mapValues Value.sorted fields) := by
    rw [Assoc.Distinct, Assoc.keys_mapValues]
    exact distinct
  have inside : Assoc.mapValues Value.sorted fields ⊆ Assoc.mapValues Value.sorted fields' := by
    intro f hf
    obtain ⟨e, he, rfl⟩ := List.mem_map.1 hf
    obtain ⟨w, hw, same⟩ := mem_of_alikeFields distinct names names' alike he
    exact List.mem_map.2 ⟨(e.1, w), hw, by rw [sorted e he _ hw same]⟩
  refine (List.subperm_of_subset once.nodup inside).perm_of_length_le ?_
  simp [Assoc.mapValues, length]

theorem sorted_eq_of_alike {v w : Value} (hv : v.IsStorable) (hw : w.IsStorable)
    (h : v.Alike w) : v.sorted = w.sorted := by
  induction hv generalizing w with
  | @list items all ih =>
    cases hw with
    | @list items' all' =>
      rw [Value.sorted, Value.sorted,
          sortedItems_eq_of_alike (fun v hv w hw => ih v hv (all' w hw)) h]
    | _ => cases h
  | @object fields distinct names all ih =>
    cases hw with
    | @object fields' distinct' names' all' =>
      have perm := perm_sortedFields_of_alike distinct names names'
        (fun e he e' he' => ih e he (all' e' he')) h
      rw [Value.sorted, Value.sorted, sortedFields_eq, sortedFields_eq]
      congr 1
      refine Assoc.sort_eq_of_perm ?_ ?_ perm
      · rw [Assoc.OfAttributes, Assoc.keys_mapValues]
        exact names
      · rw [Assoc.Distinct, Assoc.keys_mapValues]
        exact distinct
    | _ => cases h
  -- A value without parts is alike to itself only.
  | _ => rcases h.eq_or_parts with rfl | ⟨_, _, h, -⟩ | ⟨_, _, h, -⟩ <;> first | rfl | cases h

theorem misfitItem?_eq_none (items : List Value) :
    misfitItem? items = none ↔ ∀ v ∈ items, v.misfit? = none := by
  induction items with
  | nil => simp [misfitItem?]
  | cons v items ih => simp [misfitItem?, Option.or_eq_none_iff, ih]

/-- There is an order between all names of a value that documents hold. -/
theorem IsStorable.misfit?_eq_none {v : Value} (h : v.IsStorable) : v.misfit? = none := by
  induction h with
  | list all ih =>
    rw [misfit?, misfitItem?_eq_none]
    exact ih
  | object distinct names all ih => exact (misfit?_object names).2 ih
  | _ => rfl

end Value

/-! ## What is read of alike values -/

section

variable {v w : Value} (h : v.Alike w)

include h

theorem readJson_alike (lim : Json.Limits) : v.readJson lim = w.readJson lim := by
  obtain rfl | ⟨_, _, rfl, rfl⟩ | ⟨_, _, rfl, rfl⟩ := h.eq_or_parts <;> rfl

theorem readBase64_alike : Sealer.readBase64 v = Sealer.readBase64 w := by
  obtain rfl | ⟨_, _, rfl, rfl⟩ | ⟨_, _, rfl, rfl⟩ := h.eq_or_parts <;> rfl

/-- Only a text decrypts to something, and alike texts are equal. -/
theorem decryptValue_alike (lim : Json.Limits) (key : List UInt8) (name : Name) :
    decryptValue lim key name v = decryptValue lim key name w := by
  obtain rfl | ⟨_, _, rfl, rfl⟩ | ⟨_, _, rfl, rfl⟩ := h.eq_or_parts <;> rfl

end

/-! ## Signed bytes -/

/-- Whether a record holds storable values under the names that a predicate picks. -/
def Record.Storable (record : Record) (P : Name → Prop) : Prop :=
  ∀ n v, P n → record.get? n = some v → v.IsStorable

theorem Record.Storable.mono {record : Record} {P Q : Name → Prop} (h : record.Storable P)
    (sub : ∀ n, Q n → P n) : record.Storable Q := fun n v hn => h n v (sub n hn)

theorem Value.rel_cases {a b : Option Value} (h : Option.Rel Value.Alike a b) :
    (a = none ∧ b = none) ∨ ∃ v w, a = some v ∧ b = some w ∧ v.Alike w := by
  cases h with
  | none => exact .inl ⟨rfl, rfl⟩
  | some alike => exact .inr ⟨_, _, rfl, rfl, alike⟩

theorem Value.map_sorted_of_rel {a b : Option Value} (h : Option.Rel Value.Alike a b)
    (storable : ∀ v, a = some v → v.IsStorable) (storable' : ∀ w, b = some w → w.IsStorable) :
    a.map Value.sorted = b.map Value.sorted := by
  cases h with
  | none => rfl
  | some alike =>
    exact congrArg some (Value.sorted_eq_of_alike (storable _ rfl) (storable' _ rfl) alike)

section

variable {record record' : Record} {p : FieldPolicies} (hp : p.Distinct)
  (storable : record.Storable fun n => (p.flagsOf n).sign = true)

include hp storable

theorem misfit?_signedPart (texts : Assoc.OfAttributes p) :
    (Value.object (signedPart record p)).misfit? = none := by
  refine (Value.misfit?_object (OfAttributes.signedPart texts record)).2 ?_
  intro e he
  have found := Assoc.get?_of_mem (distinct_signedPart record hp) he
  rw [get?_signedPart record hp, signedValue] at found
  split at found
  · next sign => exact (storable _ _ sign found).misfit?_eq_none
  · cases found

variable (same : ∀ n, (p.flagsOf n).sign = true →
    Option.Rel Value.Alike (record.get? n) (record'.get? n))
  (storable' : record'.Storable fun n => (p.flagsOf n).sign = true)

include same storable'

/-- The signed parts list the same names in the same order, with values of one sorted form. -/
theorem sortedFields_signedPart_alike :
    Value.sortedFields (signedPart record p) = Value.sortedFields (signedPart record' p) := by
  rw [Value.sortedFields_eq, Value.sortedFields_eq, Assoc.mapValues, Assoc.mapValues, signedPart,
    signedPart, List.map_filterMap, List.map_filterMap]
  refine List.filterMap_congr ?_
  intro e he
  have flags : p.flagsOf e.1 = e.2 := FieldPolicies.flagsOf_of_mem hp he
  dsimp only
  split
  · next sign =>
    have signed : (p.flagsOf e.1).sign = true := flags ▸ sign
    have sorted := Value.map_sorted_of_rel (same e.1 signed) (fun v => storable e.1 v signed)
      (fun w => storable' e.1 w signed)
    have named := congrArg (Option.map fun v => (e.1, v)) sorted
    rw [Option.map_map, Option.map_map] at named ⊢
    exact named
  · rfl

/-- The signed bytes of records that agree on what is signed are the same. -/
theorem signingPayload_alike (lim : Json.Limits) (texts : Assoc.OfAttributes p)
    (context : Context) {d d' : Value} (hd : d.IsStorable) (hd' : d'.IsStorable)
    (described : d.Alike d') :
    signingPayload lim record p context d = signingPayload lim record' p context d' := by
  have sorted : (signingObject record p context d).sorted =
      (signingObject record' p context d').sorted := by
    simp only [signingObject, Value.sorted, Value.sortedFields,
      sortedFields_signedPart_alike hp storable same storable',
      Value.sorted_eq_of_alike hd hd' described]
  have misfit : (signingObject record p context d).misfit? =
      (signingObject record' p context d').misfit? := by
    have fits := misfit?_signedPart hp storable texts
    have fits' := misfit?_signedPart hp storable' texts
    rw [signingObject, signingObject, Value.misfit?, Value.misfit?]
    simp only [Value.misfitField?, hd.misfit?_eq_none, hd'.misfit?_eq_none, fits, fits']
    rfl
  rw [signingPayload, signingPayload, Value.signed, Value.signed, misfit, sorted]

end

/-! ## Policies one after the other -/

theorem FieldPolicies.isAny_flagsOf_of_any {p : FieldPolicies}
    (h : p.any (fun e => e.2.isAny) = false) (n : Name) : (p.flagsOf n).isAny = false := by
  rw [List.any_eq_false] at h
  rw [FieldPolicies.flagsOf]
  cases found : Assoc.get? p n with
  | none => rfl
  | some flags =>
    obtain ⟨l, -, hl⟩ := Assoc.mem_of_get? found
    exact Bool.eq_false_of_not_eq_true (h (l, flags) hl)

/-- Adding a policy that finds nothing to decrypt. -/
theorem Decrypts.cons_skip {lim : Json.Limits} {key : List UInt8} {f : Name × Flags}
    {p : FieldPolicies} (hp : Assoc.Distinct (f :: p)) {original record : Record}
    (h : Decrypts lim key p original record)
    (none : f.2.encrypt = true → record.get? f.1 = none) :
    Decrypts lim key (f :: p) original record := by
  refine ⟨h.keys, List.forall_mem_cons.2 ⟨?_, h.ciphers⟩, ?_⟩
  · intro encrypt v w _ held
    rw [none encrypt] at held
    cases held
  · intro n hn
    exact h.plain n (FieldPolicies.encrypt_tail hp hn)

/-- Adding a policy for a value that was decrypted before the others. -/
theorem Decrypts.cons_step {lim : Json.Limits} {key : List UInt8} {name : Name} {flags : Flags}
    {p : FieldPolicies} (hp : Assoc.Distinct ((name, flags) :: p)) {original record : Record}
    {v w : Value}
    (h : Decrypts lim key p original (record.insert name v)) (encrypt : flags.encrypt = true)
    (held : record.get? name = some w) (decrypted : decryptValue lim key name w = .ok v) :
    Decrypts lim key ((name, flags) :: p) original record := by
  have contained : record.contains name = true := by simp [Assoc.contains, held]
  have absent : (FieldPolicies.flagsOf p name).encrypt = false := by
    rw [FieldPolicies.flagsOf_of_not_contains hp.head_not_contains]
    rfl
  refine ⟨(Assoc.keys_insert_of_contains contained v).symm.trans h.keys,
    List.forall_mem_cons.2 ⟨?_, ?_⟩, ?_⟩
  · intro _ u w' found held'
    obtain rfl : w = w' := Option.some.inj (held.symm.trans held')
    have there := h.plain name absent
    rw [Assoc.get?_insert, if_pos BEq.rfl, found] at there
    rw [decrypted, Option.some.inj there]
  · intro f hf encrypt' u w' found held'
    have other : (name == f.1) = false := hp.head (List.mem_map_of_mem hf)
    refine h.ciphers f hf encrypt' u w' found ?_
    rw [Assoc.get?_insert, if_neg (by simp [other]), held']
  · intro n hn
    have other : ¬ (name == n) = true := by
      intro same
      rw [FieldPolicies.flagsOf_cons, if_pos same, encrypt] at hn
      cases hn
    rw [← h.plain n (FieldPolicies.encrypt_tail hp hn), Assoc.get?_insert, if_neg other]

namespace Sealer

variable {s : Sealer} {p : FieldPolicies} {context : Context} {record record' : Record}
  {lim : Json.Limits}

/-! ## Verification -/

/-- The key that a record is decrypted with, once its signature is found to be right. -/
def verifiedKey (s : Sealer) (record : Record) (policies : FieldPolicies) (context : Context)
    (description given : Value) : Except Failure (List UInt8) := do
  let (salt, given) ← (readSeal s.limits.describing description given).mapError asMalformed
  let (encryptionKey, signingKey) ← s.deriveKeys salt
  let code ← signature s.limits.verifying signingKey record policies context description
  if code ≠ given then throw .wrongSignature
  pure encryptionKey

/-- Opening is verification followed by decryption. -/
theorem openSigned_eq (names : Name × Name) (description given : Value) :
    s.openSigned record p context names description given =
      (s.verifiedKey record p context description given).bind fun key =>
        decryptAttributes s.limits.decrypting key p
          ((record.erase names.1).erase names.2) := by
  unfold openSigned verifiedKey
  cases (readSeal s.limits.describing description given).mapError asMalformed with
  | error why => rfl
  | ok seal_ =>
    obtain ⟨salt, code⟩ := seal_
    cases keys : s.deriveKeys salt with
    | error why => simp [keys, bind, Except.bind]
    | ok pair =>
      obtain ⟨encryption, signing⟩ := pair
      cases signed : signature s.limits.verifying signing record p context description with
      | error why => simp [keys, signed, bind, Except.bind]
      | ok code' =>
        simp only [keys, signed, bind, Except.bind]
        split <;> rfl

/-- Verification does not tell records apart that agree on what is signed and on the seal. -/
theorem verifiedKey_alike (hp : p.Distinct) (texts : Assoc.OfAttributes p)
    (storable : record.Storable fun n => (p.flagsOf n).sign = true)
    (storable' : record'.Storable fun n => (p.flagsOf n).sign = true)
    (same : ∀ n, (p.flagsOf n).sign = true →
      Option.Rel Value.Alike (record.get? n) (record'.get? n))
    {d d' given given' : Value} (hd : d.IsStorable) (hd' : d'.IsStorable) (described : d.Alike d')
    (signed : given.Alike given') :
    s.verifiedKey record p context d given = s.verifiedKey record' p context d' given' := by
  have seal_ : readSeal s.limits.describing d given = readSeal s.limits.describing d' given' := by
    rw [readSeal, readSeal, readJson_alike described, readBase64_alike signed]
  have code (key : List UInt8) :
      signature s.limits.verifying key record p context d =
        signature s.limits.verifying key record' p context d' := by
    rw [signature, signature,
      signingPayload_alike hp storable same storable' _ texts context hd hd' described]
  simp only [verifiedKey, seal_, code]

/-- Verification does not depend on the order of the policies. -/
theorem verifiedKey_perm {q : FieldPolicies} (hp : p.Distinct) (texts : Assoc.OfAttributes p)
    (perm : p.Perm q) {d given : Value} {key : List UInt8}
    (verified : s.verifiedKey record p context d given = .ok key) :
    s.verifiedKey record q context d given = .ok key := by
  have flags (n : Name) : p.flagsOf n = q.flagsOf n := FieldPolicies.flagsOf_perm hp perm n
  unfold verifiedKey at verified ⊢
  cases seal_ : (readSeal s.limits.describing d given).mapError asMalformed with
  | error why =>
    rw [seal_] at verified
    cases verified
  | ok pair =>
    obtain ⟨salt, code⟩ := pair
    cases keys : s.deriveKeys salt with
    | error why => simp [seal_, keys, bind, Except.bind] at verified
    | ok pair =>
      obtain ⟨encryption, signing⟩ := pair
      cases payload : signingPayload s.limits.verifying record p context d with
      | error why =>
        simp [seal_, keys, signature, payload, bind, Except.bind, Except.map] at verified
      | ok bytes =>
        have payload' : signingPayload s.limits.verifying record q context d = .ok bytes := by
          refine signingPayload_congr hp (hp.perm perm) texts (texts.perm perm) ?_ payload
          intro n
          rw [signedValue, signedValue, flags]
        simpa only [seal_, keys, signature, payload, payload'] using verified

/-! ## Decryption -/

/-- Whether two records are decrypted alike: what is under the names to decrypt is the same, and all
else is as it was. -/
structure DecryptedAlike (p : FieldPolicies) (record record' out out' : Record) : Prop where
  decrypted : ∀ n, (p.flagsOf n).encrypt = true → out.get? n = out'.get? n
  plain : ∀ n, (p.flagsOf n).encrypt = false →
    out.get? n = record.get? n ∧ out'.get? n = record'.get? n

/-- A policy that comes first leaves the same value under its name if it decrypts, and changes
nothing under other names. -/
theorem DecryptedAlike.cons {name : Name} {flags : Flags}
    (hp : Assoc.Distinct ((name, flags) :: p)) {first first' out out' : Record}
    (h : DecryptedAlike p first first' out out')
    (same : flags.encrypt = true → first.get? name = first'.get? name)
    (kept : ∀ n, (flags.encrypt = true → (name == n) = false) →
      first.get? n = record.get? n ∧ first'.get? n = record'.get? n) :
    DecryptedAlike ((name, flags) :: p) record record' out out' := by
  have later {n : Name} (beq : (name == n) = true) : (p.flagsOf n).encrypt = false := by
    rw [← p.flagsOf_congr beq, FieldPolicies.flagsOf_of_not_contains hp.head_not_contains]
    rfl
  constructor
  · intro n encrypt
    rw [FieldPolicies.flagsOf_cons] at encrypt
    split at encrypt
    · next beq =>
      obtain ⟨left, right⟩ := h.plain n (later beq)
      rw [left, right, ← Assoc.get?_congr first beq, ← Assoc.get?_congr first' beq, same encrypt]
    · exact h.decrypted n encrypt
  · intro n plain
    rw [FieldPolicies.flagsOf_cons] at plain
    have untouched : (p.flagsOf n).encrypt = false := by
      split at plain
      · next beq => exact later beq
      · exact plain
    obtain ⟨left, right⟩ := h.plain n untouched
    rw [left, right]
    refine kept n ?_
    intro encrypt
    refine Bool.eq_false_of_not_eq_true ?_
    intro beq
    rw [if_pos beq, encrypt] at plain
    cases plain

/-- Attributes are decrypted one by one: if those to decrypt are alike in two records, then both
fail alike or are decrypted alike. -/
theorem decryptAttributes_alike (lim : Json.Limits) (key : List UInt8) (hp : p.Distinct)
    (same : ∀ e ∈ p, e.2.encrypt = true →
      Option.Rel Value.Alike (record.get? e.1) (record'.get? e.1)) :
    (∃ why, decryptAttributes lim key p record = .error why ∧
      decryptAttributes lim key p record' = .error why) ∨
    ∃ out out', decryptAttributes lim key p record = .ok out ∧
      decryptAttributes lim key p record' = .ok out' ∧
      DecryptedAlike p record record' out out' := by
  induction p generalizing record record' with
  | nil => exact .inr ⟨record, record', rfl, rfl, fun _ h => (by cases h), fun _ _ => ⟨rfl, rfl⟩⟩
  | cons f p ih =>
    obtain ⟨name, flags⟩ := f
    obtain ⟨first, rest⟩ := List.forall_mem_cons.1 same
    -- Whatever the first policy makes of the records, the others go on with what it leaves.
    have go {next next' : Record} (equal : flags.encrypt = true → next.get? name = next'.get? name)
        (kept : ∀ n, (flags.encrypt = true → (name == n) = false) →
          next.get? n = record.get? n ∧ next'.get? n = record'.get? n) :
        (∃ why, decryptAttributes lim key p next = .error why ∧
          decryptAttributes lim key p next' = .error why) ∨
        ∃ out out', decryptAttributes lim key p next = .ok out ∧
          decryptAttributes lim key p next' = .ok out' ∧
          DecryptedAlike ((name, flags) :: p) record record' out out' := by
      have alike (e : Name × Flags) (he : e ∈ p) (encrypt : e.2.encrypt = true) :
          Option.Rel Value.Alike (next.get? e.1) (next'.get? e.1) := by
        obtain ⟨left, right⟩ := kept e.1 fun _ => hp.head (List.mem_map_of_mem he)
        rw [left, right]
        exact rest e he encrypt
      rcases ih hp.tail alike with failed | ⟨out, out', ran, ran', done⟩
      · exact .inl failed
      · exact .inr ⟨out, out', ran, ran', done.cons hp equal kept⟩
    rw [decryptAttributes, decryptAttributes]
    by_cases encrypt : flags.encrypt = true
    · rw [if_pos encrypt, if_pos encrypt]
      rcases Value.rel_cases (first encrypt) with
        ⟨found, found'⟩ | ⟨v, w, found, found', alike⟩
      · rw [found, found']
        exact go (fun _ => found.trans found'.symm) fun _ _ => ⟨rfl, rfl⟩
      · rw [found, found']
        simp only [decryptValue_alike alike lim key name]
        cases decryptValue lim key name w with
        | error why => exact .inl ⟨why, rfl, rfl⟩
        | ok u =>
          refine @go (record.insert name u) (record'.insert name u) ?_ ?_
          · intro _
            rw [Assoc.get?_insert, Assoc.get?_insert, if_pos BEq.rfl, if_pos BEq.rfl]
          · intro n other
            have different := other encrypt
            rw [Assoc.get?_insert, Assoc.get?_insert, if_neg (by simp [different]),
              if_neg (by simp [different])]
            exact ⟨rfl, rfl⟩
    · rw [if_neg encrypt, if_neg encrypt]
      exact go (fun flag => absurd flag encrypt) fun _ _ => ⟨rfl, rfl⟩

theorem decrypts_of_decryptAttributes {key : List UInt8} (hp : p.Distinct) {out : Record}
    (h : decryptAttributes lim key p record = .ok out) : Decrypts lim key p out record := by
  induction p generalizing record with
  | nil =>
    cases h
    exact ⟨rfl, by simp, fun _ _ => rfl⟩
  | cons f p ih =>
    obtain ⟨name, flags⟩ := f
    rw [decryptAttributes] at h
    split at h
    · next encrypt =>
      split at h
      · next absent => exact (ih hp.tail h).cons_skip hp fun _ => absent
      · next w held =>
        obtain ⟨v, decrypted, h⟩ := exists_of_bind_eq_ok h
        exact (ih hp.tail h).cons_step hp encrypt held decrypted
    · next plain => exact (ih hp.tail h).cons_skip hp fun encrypt => absurd encrypt plain

/-- Decryption does not depend on the order of the policies. -/
theorem decryptAttributes_perm {key : List UInt8} {q : FieldPolicies} (hp : p.Distinct)
    (perm : p.Perm q) (distinct : record.Distinct) {out : Record}
    (h : decryptAttributes lim key p record = .ok out) :
    decryptAttributes lim key q record = .ok out := by
  have decrypts := decrypts_of_decryptAttributes hp h
  have once : out.Distinct := by
    rw [Assoc.Distinct, ← decrypts.keys]
    exact distinct
  refine decryptAttributes_of_decrypts (hp.perm perm) once ⟨decrypts.keys, ?_, ?_⟩
  · intro f hf
    exact decrypts.ciphers f (perm.mem_iff.2 hf)
  · intro n plain
    exact decrypts.plain n (FieldPolicies.flagsOf_perm hp perm n ▸ plain)

theorem get?_decryptAttributes_eq_none {key : List UInt8} (hp : p.Distinct) {out : Record}
    (h : decryptAttributes lim key p record = .ok out) {n : Name} (absent : record.get? n = none) :
    out.get? n = none := by
  refine Assoc.get?_of_not_contains ?_
  rw [Assoc.contains_congr_keys (decrypts_of_decryptAttributes hp h).keys.symm, Assoc.contains,
    absent]
  rfl

/-! ## Opening -/

/-- Whether a name is that of the signature or of the description. -/
def IsReserved (s : Sealer) (n : Name) : Prop :=
  ∃ k, (s.signatureName.toName = .ok k ∨ s.descriptionName.toName = .ok k) ∧ (k == n) = true

/-- Whether two records were opened alike: decrypted attributes are equal, those that are signed
only have alike values, and what is neither flagged nor reserved is as it is stored. -/
structure OpenedAlike (s : Sealer) (p : FieldPolicies) (record record' out out' : Record) :
    Prop where
  decrypted : ∀ n, ¬ s.IsReserved n → (p.flagsOf n).encrypt = true → out.get? n = out'.get? n
  signed : ∀ n, ¬ s.IsReserved n → (p.flagsOf n).encrypt = false → (p.flagsOf n).sign = true →
    Option.Rel Value.Alike (out.get? n) (out'.get? n)
  plain : ∀ n, ¬ s.IsReserved n → (p.flagsOf n).isAny = false →
    out.get? n = record.get? n ∧ out'.get? n = record'.get? n
  reserved : ∀ k, s.signatureName.toName = .ok k → record.contains k = true →
    ∀ n, s.IsReserved n → out.get? n = none ∧ out'.get? n = none

theorem get?_erase_erase (record : Record) (names : Name × Name) (n : Name) :
    ((record.erase names.1).erase names.2).get? n =
      if names.1 == n || names.2 == n then none else record.get? n := by
  rw [Assoc.get?_erase, Assoc.get?_erase]
  cases names.1 == n <;> cases names.2 == n <;> rfl

section

variable {given description : Name} (hs : s.signatureName.toName = .ok given)
  (hd : s.descriptionName.toName = .ok description)

include hs hd

theorem isReserved_iff (n : Name) :
    s.IsReserved n ↔ (given == n || description == n) = true := by
  rw [Bool.or_eq_true]
  constructor
  · rintro ⟨k, named | named, same⟩
    · obtain rfl : given = k := Except.ok.inj (hs.symm.trans named)
      exact .inl same
    · obtain rfl : description = k := Except.ok.inj (hd.symm.trans named)
      exact .inr same
  · rintro (same | same)
    · exact ⟨given, .inl hs, same⟩
    · exact ⟨description, .inr hd, same⟩

theorem not_isReserved_iff (n : Name) :
    ¬ s.IsReserved n ↔ ∀ k ∈ [given, description], (k == n) = false := by
  rw [isReserved_iff hs hd]
  simp

/-- Records without the reserved attributes that are decrypted alike are opened alike. -/
theorem DecryptedAlike.openedAlike (hp : p.Distinct) {key : List UInt8} {out out' : Record}
    (same : ∀ n, (p.flagsOf n).isAny = true →
      Option.Rel Value.Alike (record.get? n) (record'.get? n))
    (ran : decryptAttributes lim key p ((record.erase given).erase description) = .ok out)
    (ran' : decryptAttributes lim key p ((record'.erase given).erase description) = .ok out')
    (h : DecryptedAlike p ((record.erase given).erase description)
      ((record'.erase given).erase description) out out') :
    OpenedAlike s p record record' out out' := by
  have kept {n : Name} (free : ¬ s.IsReserved n) (record : Record) :
      ((record.erase given).erase description).get? n = record.get? n := by
    rw [get?_erase_erase record (given, description),
      if_neg fun reserved => free ((isReserved_iff hs hd n).2 reserved)]
  have gone {n : Name} (reserved : s.IsReserved n) (record : Record) :
      ((record.erase given).erase description).get? n = none := by
    rw [get?_erase_erase record (given, description),
      if_pos ((isReserved_iff hs hd n).1 reserved)]
  constructor
  · intro n _
    exact h.decrypted n
  · intro n free plain sign
    obtain ⟨left, right⟩ := h.plain n plain
    rw [left, right, kept free, kept free]
    exact same n (by rw [Flags.isAny, sign, Bool.or_true])
  · intro n free unflagged
    rw [Flags.isAny, Bool.or_eq_false_iff] at unflagged
    obtain ⟨left, right⟩ := h.plain n unflagged.1
    rw [left, right, kept free, kept free]
    exact ⟨rfl, rfl⟩
  · intro _ _ _ n reserved
    exact ⟨get?_decryptAttributes_eq_none hp ran (gone reserved record),
      get?_decryptAttributes_eq_none hp ran' (gone reserved record')⟩

/-- Records that carry a signature and agree on what is protected fail alike or open alike. -/
theorem openSigned_alike (hp : p.Distinct) (texts : Assoc.OfAttributes p)
    (storable : record.Storable fun n => (p.flagsOf n).isAny = true)
    (storable' : record'.Storable fun n => (p.flagsOf n).isAny = true)
    (same : ∀ n, (p.flagsOf n).isAny = true →
      Option.Rel Value.Alike (record.get? n) (record'.get? n))
    {d d' v v' : Value} (hd' : d.IsStorable) (hd'' : d'.IsStorable) (described : d.Alike d')
    (signed : v.Alike v') :
    (∃ why, s.openSigned record p context (given, description) d v = .error why ∧
      s.openSigned record' p context (given, description) d' v' = .error why) ∨
    ∃ out out', s.openSigned record p context (given, description) d v = .ok out ∧
      s.openSigned record' p context (given, description) d' v' = .ok out' ∧
      OpenedAlike s p record record' out out' := by
  have isAny {n : Name} (sign : (p.flagsOf n).sign = true) : (p.flagsOf n).isAny = true := by
    rw [Flags.isAny, sign, Bool.or_true]
  have verified : s.verifiedKey record p context d v = s.verifiedKey record' p context d' v' :=
    verifiedKey_alike hp texts (storable.mono fun _ => isAny) (storable'.mono fun _ => isAny)
      (fun n sign => same n (isAny sign)) hd' hd'' described signed
  rw [openSigned_eq, openSigned_eq, verified]
  cases s.verifiedKey record' p context d' v' with
  | error why => exact .inl ⟨why, rfl, rfl⟩
  | ok key =>
    have alike (e : Name × Flags) (he : e ∈ p) (encrypt : e.2.encrypt = true) :
        Option.Rel Value.Alike (((record.erase given).erase description).get? e.1)
          (((record'.erase given).erase description).get? e.1) := by
      rw [get?_erase_erase record (given, description),
        get?_erase_erase record' (given, description)]
      split
      · exact .none
      · refine same e.1 ?_
        rw [FieldPolicies.flagsOf_of_mem hp he, Flags.isAny, encrypt, Bool.true_or]
    rcases decryptAttributes_alike s.limits.decrypting key hp alike with
      ⟨why, failed, failed'⟩ | ⟨out, out', ran, ran', done⟩
    · exact .inl ⟨why, failed, failed'⟩
    · exact .inr ⟨out, out', ran, ran', DecryptedAlike.openedAlike hs hd hp same ran ran' done⟩

end

/-- A record without a signature is returned as it is, if nothing is to be protected. -/
theorem openRecord_of_unsigned {given : Name} (named : s.signatureName.toName = .ok given)
    (absent : record.get? given = none) :
    s.openRecord record p context =
      if p.any (fun e => e.2.isAny) then .error .notSigned else .ok record := by
  simp only [openRecord, named, bind, Except.bind, absent]
  rfl

/-- A record with a signature needs a description, and is opened with it. -/
theorem openRecord_of_signed {given : Name} (named : s.signatureName.toName = .ok given) {v : Value}
    (signed : record.get? given = some v) :
    s.openRecord record p context =
      s.descriptionName.toName.bind fun description =>
        match record.get? description with
        | none => .error .notSigned
        | some d => s.openSigned record p context (given, description) d v := by
  simp only [openRecord, named, bind, Except.bind, signed]
  rfl

/-- A record that opens has no signature and nothing to protect, or was verified and decrypted. -/
theorem exists_of_openRecord_eq_ok {out : Record}
    (h : s.openRecord record p context = .ok out) :
    ∃ given, s.signatureName.toName = .ok given ∧
      ((record.get? given = none ∧ p.any (fun e => e.2.isAny) = false ∧ out = record) ∨
        ∃ v description d key, record.get? given = some v ∧
          s.descriptionName.toName = .ok description ∧ record.get? description = some d ∧
          s.verifiedKey record p context d v = .ok key ∧
          decryptAttributes s.limits.decrypting key p ((record.erase given).erase description) =
            .ok out) := by
  cases named : s.signatureName.toName with
  | error why =>
    rw [openRecord, named] at h
    cases h
  | ok given =>
    refine ⟨given, rfl, ?_⟩
    cases signed : record.get? given with
    | none =>
      rw [openRecord_of_unsigned named signed] at h
      split at h
      · cases h
      · next unflagged =>
        cases h
        exact .inl ⟨rfl, Bool.eq_false_of_not_eq_true unflagged, rfl⟩
    | some v =>
      rw [openRecord_of_signed named signed] at h
      cases named' : s.descriptionName.toName with
      | error why =>
        rw [named'] at h
        cases h
      | ok description =>
        simp only [named', Except.bind] at h
        cases described : record.get? description with
        | none =>
          rw [described] at h
          cases h
        | some d =>
          simp only [described, openSigned_eq] at h
          obtain ⟨key, verified, h⟩ := exists_of_bind_eq_ok h
          exact .inr ⟨v, description, d, key, rfl, rfl, described, verified, h⟩

theorem openRecord_perm {q : FieldPolicies} (hp : p.Distinct) (texts : Assoc.OfAttributes p)
    (perm : p.Perm q) (distinct : record.Distinct) {out : Record}
    (h : s.openRecord record p context = .ok out) : s.openRecord record q context = .ok out := by
  obtain ⟨given, named, ⟨unsigned, unflagged, rfl⟩ |
    ⟨v, description, d, key, signed, named', described, verified, decrypted⟩⟩ :=
    exists_of_openRecord_eq_ok h
  · have any : q.any (fun e => e.2.isAny) = p.any fun e => e.2.isAny := by
      rw [Bool.eq_iff_iff, List.any_eq_true, List.any_eq_true]
      simp only [perm.mem_iff]
    rw [openRecord_of_unsigned named unsigned, any, unflagged]
    rfl
  · rw [openRecord_of_signed named signed, named']
    simp only [Except.bind, described, openSigned_eq]
    rw [verifiedKey_perm hp texts perm verified]
    exact decryptAttributes_perm hp perm distinct.erase.erase decrypted

/-- Opening leaves what is neither encrypted nor reserved as it is stored. -/
theorem get?_openRecord_of_plain (hp : p.Distinct) {out : Record}
    (h : s.openRecord record p context = .ok out) {n : Name} (free : ¬ s.IsReserved n)
    (plain : (p.flagsOf n).encrypt = false) : out.get? n = record.get? n := by
  obtain ⟨given, named, ⟨-, -, rfl⟩ | ⟨_, description, _, _, -, named', -, -, decrypted⟩⟩ :=
    exists_of_openRecord_eq_ok h
  · rfl
  · rw [← (decrypts_of_decryptAttributes hp decrypted).plain n plain,
      get?_erase_erase record (given, description),
      if_neg fun reserved => free ((isReserved_iff named named' n).2 reserved)]

theorem openedAlike_of_unsigned {given : Name} (named : s.signatureName.toName = .ok given)
    (absent : record.get? given = none) (unflagged : ∀ n, (p.flagsOf n).isAny = false) :
    OpenedAlike s p record record' record record' := by
  have flagless {n : Name} {f : Bool} (h : (p.flagsOf n).isAny = f) (hf : f = true) : False := by
    rw [unflagged n] at h
    subst h
    cases hf
  constructor
  · intro n _ encrypt
    exact (flagless (n := n) (by rw [Flags.isAny, encrypt, Bool.true_or]) rfl).elim
  · intro n _ _ sign
    exact (flagless (n := n) (by rw [Flags.isAny, sign, Bool.or_true]) rfl).elim
  · intro n _ _
    exact ⟨rfl, rfl⟩
  · intro k named' contained
    obtain rfl : given = k := Except.ok.inj (named.symm.trans named')
    rw [Assoc.contains, absent] at contained
    cases contained

/-- Opening depends on the flagged and the reserved attributes only, with their values up to the
order of fields: records that agree on these fail alike or open alike. And a record that opens gives
the same under the policies in any other order. -/
theorem openRecord_alike (s : Sealer) (p : FieldPolicies) (context : Context)
    (record record' : Record) (hp : p.Distinct) (texts : Assoc.OfAttributes p)
    (distinct : record.Distinct)
    (storable : record.Storable fun n => s.IsReserved n ∨ (p.flagsOf n).isAny = true)
    (storable' : record'.Storable fun n => s.IsReserved n ∨ (p.flagsOf n).isAny = true)
    (same : ∀ n, s.IsReserved n ∨ (p.flagsOf n).isAny = true →
      Option.Rel Value.Alike (record.get? n) (record'.get? n)) :
    ((∃ why, s.openRecord record p context = .error why ∧
        s.openRecord record' p context = .error why) ∨
      ∃ out out', s.openRecord record p context = .ok out ∧
        s.openRecord record' p context = .ok out' ∧ OpenedAlike s p record record' out out') ∧
    ∀ q : FieldPolicies, p.Perm q → ∀ out, s.openRecord record p context = .ok out →
      s.openRecord record q context = .ok out := by
  refine ⟨?_, fun q perm out h => openRecord_perm hp texts perm distinct h⟩
  have reserved {k : Name}
      (named : s.signatureName.toName = .ok k ∨ s.descriptionName.toName = .ok k) :
      s.IsReserved k := ⟨k, named, BEq.rfl⟩
  cases named : s.signatureName.toName with
  | error why => exact .inl ⟨why, by rw [openRecord, named]; rfl, by rw [openRecord, named]; rfl⟩
  | ok given =>
    rcases Value.rel_cases (same given (.inl (reserved (.inl named)))) with
      ⟨signed, signed'⟩ | ⟨v, v', signed, signed', alike⟩
    · rw [openRecord_of_unsigned named signed, openRecord_of_unsigned named signed']
      by_cases any : p.any (fun e => e.2.isAny) = true
      · rw [if_pos any, if_pos any]
        exact .inl ⟨_, rfl, rfl⟩
      · rw [if_neg any, if_neg any]
        refine .inr ⟨record, record', rfl, rfl, openedAlike_of_unsigned named signed fun n => ?_⟩
        exact FieldPolicies.isAny_flagsOf_of_any (Bool.eq_false_of_not_eq_true any) n
    · rw [openRecord_of_signed named signed, openRecord_of_signed named signed']
      cases named' : s.descriptionName.toName with
      | error why => exact .inl ⟨why, rfl, rfl⟩
      | ok description =>
        have kept := reserved (.inr named')
        rcases Value.rel_cases (same description (.inl kept)) with
          ⟨described, described'⟩ | ⟨d, d', described, described', like⟩
        · simp only [Except.bind, described, described']
          exact .inl ⟨_, rfl, rfl⟩
        · simp only [Except.bind, described, described']
          exact openSigned_alike named named' hp texts (storable.mono fun _ => .inr)
            (storable'.mono fun _ => .inr) (fun n any => same n (.inr any))
            (storable description d (.inl kept) described)
            (storable' description d' (.inl kept) described') like alike

/-- What sealing makes of the sample record, with the values that are computed left open. -/
def sampleStored (body description code : String) : Record := [
  ("id", .text "a"), ("body", .text body), ("blob", .bytes [1]), ("*desc*", .text description),
  ("*sig*", .text code)]

/-- The same protected content in another order, with the rest changed. -/
def sampleChanged (body description code : String) : Record := [
  ("*sig*", .text code), ("more", .bytes [2]), ("body", .text body), ("id", .text "a"),
  ("*desc*", .text description), ("blob", .null)]

theorem sealRecord_sampleStored : ∃ body description code after,
    sample.sealRecord ⟨2024, 1, 1, 0, 0, 0, 0⟩ sampleRecord samplePolicies sampleContext
      { stream := fun _ => 0 } = (.ok (sampleStored body description code), after) :=
  ⟨_, _, _, _, rfl⟩

theorem mem_names_sample {n : Name}
    (h : sample.IsReserved n ∨ (samplePolicies.flagsOf n).isAny = true) :
    n ∈ [Name.text "*sig*", .text "*desc*", .text "id", .text "body"] := by
  rcases h with ⟨k, named | named, same⟩ | any
  · cases named
    simp [← Name.eq_of_text_beq same]
  · cases named
    simp [← Name.eq_of_text_beq same]
  · rw [FieldPolicies.flagsOf] at any
    cases found : Assoc.get? samplePolicies n with
    | none =>
      rw [found] at any
      cases any
    | some flags =>
      obtain ⟨l, same, hl⟩ := Assoc.mem_of_get? found
      simp only [samplePolicies, List.mem_cons, Prod.mk.injEq, List.not_mem_nil, or_false] at hl
      rcases hl with ⟨rfl, -⟩ | ⟨rfl, -⟩ <;> simp [← Name.eq_of_text_beq same]

/-- The sealed sample record and the changed one open alike. -/
theorem openRecord_alike_sample : ∃ body description code after,
    sample.sealRecord ⟨2024, 1, 1, 0, 0, 0, 0⟩ sampleRecord samplePolicies sampleContext
      { stream := fun _ => 0 } = (.ok (sampleStored body description code), after) ∧
    ∃ out, sample.openRecord (sampleChanged body description code) samplePolicies sampleContext =
      .ok out ∧ OpenedAlike sample samplePolicies (sampleStored body description code)
        (sampleChanged body description code) sampleRecord out := by
  obtain ⟨body, description, code, after, h⟩ := sealRecord_sampleStored
  refine ⟨body, description, code, after, h, ?_⟩
  have isSealed := isSealed_of_sealRecord reserves_sample distinct_sample.2.1 h
  have opens := isSealed.openRecord_eq reserves_sample distinct_sample.1
    distinct_sample.2.1 distinct_sample.2.1 ofAttributes_sample.1 ofAttributes_sample.1
    (fun n hn => ⟨(free_sample n hn).1, (free_sample n hn).2.1, (free_sample n hn).2.1⟩)
    (fun _ _ => rfl) (fun n v encrypt => isJson_sample n v (by rw [Flags.isAny, encrypt]; rfl))
  have texts {n : Name} (hn : sample.IsReserved n ∨ (samplePolicies.flagsOf n).isAny = true) :
      ∃ t, (sampleStored body description code).get? n = some (.text t) ∧
        (sampleChanged body description code).get? n = some (.text t) := by
    have listed := mem_names_sample hn
    simp only [List.mem_cons, List.not_mem_nil, or_false] at listed
    rcases listed with rfl | rfl | rfl | rfl <;> exact ⟨_, rfl, rfl⟩
  obtain ⟨⟨why, failed, -⟩ | ⟨out, out', ran, ran', alike⟩, -⟩ :=
    openRecord_alike sample samplePolicies sampleContext (sampleStored body description code)
      (sampleChanged body description code) distinct_sample.2.1 ofAttributes_sample.1
      (by simp [Assoc.Distinct, Assoc.keys, sampleStored])
      (fun n v hn found => by
        obtain ⟨t, same, -⟩ := texts hn
        cases found.symm.trans same
        exact .text t)
      (fun n v hn found => by
        obtain ⟨t, -, same⟩ := texts hn
        cases found.symm.trans same
        exact .text t)
      (fun n hn => by
        obtain ⟨t, same, same'⟩ := texts hn
        rw [same, same']
        exact .some rfl)
  · cases opens.symm.trans failed
  · cases opens.symm.trans ran
    exact ⟨out', ran', alike⟩

end Sealer

end RecordSeal
