import RecordSeal.Classification

set_option autoImplicit false

/-! # Answers of catalogs

Registries work out mappings and caches work out policies when they are first asked, and keep them.
What they would answer is a function of the catalog (`Catalog.policyOf`); asking gives just that and
leaves a catalog that would answer the same (`Catalog.Agrees`). -/

namespace RecordSeal

/-! ## Places -/

section

variable {α : Type} (l : List α) (a d : α) (f : α → α) (i j : Nat)

theorem getD_append : (l ++ [a]).getD i d = l.getD i d ∨ (l ++ [a]).getD i d = a := by
  simp only [List.getD_eq_getElem?_getD, List.getElem?_append]
  split
  · exact .inl rfl
  · next outside =>
    rw [List.getElem?_eq_none (by omega : l.length ≤ i)]
    cases i - l.length with
    | zero => exact .inr rfl
    | succ k => exact .inl rfl

/-- An entry of a list in which one is set is an old one or that one. Nothing is set outside. -/
theorem getD_set : (l.set i a).getD j d = l.getD j d ∨ j = i ∧ (l.set i a).getD j d = a := by
  simp only [List.getD_eq_getElem?_getD, List.getElem?_set]
  by_cases same : i = j
  · by_cases inside : j < l.length <;> simp [same, inside]
  · exact .inl (by rw [if_neg same])

theorem getD_modify :
    (l.modify i f).getD j d = l.getD j d ∨
      j = i ∧ (l.modify i f).getD j d = f (l.getD j d) := by
  simp only [List.getD_eq_getElem?_getD, List.getElem?_modify]
  by_cases same : i = j
  · by_cases inside : j < l.length <;> simp [same, inside]
  · simp [same]

end

/-! ## Registries -/

namespace Registry

/-- The mappings that a registry would answer with. -/
def mappingsOf (r : Registry) (f : Forest) (id : ModelId) : Except Failure (List FieldMapping) :=
  match r.mappings.get? id with
  | some mappings => .ok mappings
  | none =>
    if (f.typeAt id).isDocument then mappingsOfFields (f.typeAt id).fields
    else .error (.mismatched (.notClassifiable (f.typeAt id).shown))

/-- Two registries that answer the same. -/
structure Agrees (f : Forest) (r r' : Registry) : Prop where
  mappings : ∀ id, r'.mappingsOf f id = r.mappingsOf f id
  markers : r'.markers = r.markers
  tables : r'.tables = r.tables

theorem Agrees.refl (f : Forest) (r : Registry) : r.Agrees f r := ⟨fun _ => rfl, rfl, rfl⟩

theorem Agrees.trans {f : Forest} {r r' r'' : Registry} (h : r.Agrees f r') (h' : r'.Agrees f r'') :
    r.Agrees f r'' :=
  ⟨fun id => (h'.mappings id).trans (h.mappings id), h'.markers.trans h.markers,
    h'.tables.trans h.tables⟩

/-- Keeping what would be worked out anyway changes no answer. -/
theorem agrees_insert {f : Forest} {r : Registry} {id : ModelId} {mappings : List FieldMapping}
    (h : r.mappingsOf f id = .ok mappings) :
    r.Agrees f { r with mappings := r.mappings.insert id mappings } := by
  refine ⟨?_, rfl, rfl⟩
  intro other
  by_cases same : id = other
  · subst same
    rw [h, mappingsOf, Assoc.get?_insert, if_pos BEq.rfl]
  · rw [mappingsOf, Assoc.get?_insert, if_neg (by simpa using same), mappingsOf]

theorem exec_fieldMappings (f : Forest) (id : ModelId) (r : Registry) (log : Log) :
    ∃ r', r.Agrees f r' ∧ (fieldMappings f id).exec r log = (r.mappingsOf f id, r', log) := by
  unfold fieldMappings
  rw [Act.exec_bind, Act.exec_get]
  dsimp only
  cases found : r.mappings.get? id with
  | some mappings =>
    refine ⟨r, .refl f r, ?_⟩
    rw [mappingsOf, found]
    rfl
  | none =>
    have answer : r.mappingsOf f id =
        if (f.typeAt id).isDocument then mappingsOfFields (f.typeAt id).fields
        else .error (.mismatched (.notClassifiable (f.typeAt id).shown)) := by
      rw [mappingsOf, found]
    dsimp only
    by_cases document : (f.typeAt id).isDocument = true
    · rw [if_pos document] at answer ⊢
      rw [Act.exec_bind, Act.exec_ofExcept]
      cases worked : mappingsOfFields (f.typeAt id).fields with
      | error why => exact ⟨r, .refl f r, by rw [answer, worked]⟩
      | ok mappings =>
        rw [worked] at answer
        exact ⟨_, agrees_insert answer, by rw [answer]; rfl⟩
    · rw [if_neg document] at answer ⊢
      exact ⟨r, .refl f r, by rw [answer]; rfl⟩

theorem exec_keyNames (f : Forest) (id : ModelId) (r : Registry) (log : Log) :
    ∃ r', r.Agrees f r' ∧
      (keyNames f id).exec r log = ((r.mappingsOf f id).map keyNamesOf, r', log) := by
  obtain ⟨r', agrees, answer⟩ := exec_fieldMappings f id r log
  refine ⟨r', agrees, ?_⟩
  unfold keyNames
  rw [Act.exec_bind, answer]
  cases r.mappingsOf f id <;> rfl

theorem fieldMappings_eq (r : Registry) (f : Forest) (id : ModelId) (log : Log) :
    ((fieldMappings f id).exec r log).1 = r.mappingsOf f id := by
  obtain ⟨r', -, ran⟩ := exec_fieldMappings f id r log
  rw [ran]

theorem keyNames_eq (r : Registry) (f : Forest) (id : ModelId) (log : Log) :
    ((keyNames f id).exec r log).1 = (r.mappingsOf f id).map keyNamesOf := by
  obtain ⟨r', -, ran⟩ := exec_keyNames f id r log
  rw [ran]

end Registry

/-! ## Catalogs -/

/-- The mappings that a provider would answer with. -/
def Provider.mappingsOf (p : Provider) (c : Catalog) (id : ModelId) :
    Except Failure (List FieldMapping) :=
  match p with
  | .fixed answers => answers.mappings
  | .registry r => (c.registryAt r).mappingsOf c.forest id

/-- The policy that classification would give. -/
def Provider.classified (p : Provider) (c : Catalog) (id : ModelId) : Except Failure ClassPolicy :=
  if (p.markers c id).doNotTouch then .ok .exempt
  else (p.mappingsOf c id).bind (classifyWith (p.markers c id))

namespace Catalog

/-- The policy that a cache would answer with: the one it keeps, else what classification gives. -/
def policyOf (c : Catalog) (k : CacheId) (id : ModelId) : Except Failure ClassPolicy :=
  match (c.cacheAt k).policies.get? id with
  | some policy => .ok policy
  | none => (c.cacheAt k).provider.classified c id

/-- Two catalogs that answer the same. -/
structure Agrees (c c' : Catalog) : Prop where
  forest : c'.forest = c.forest
  registries : ∀ r, (c.registryAt r).Agrees c.forest (c'.registryAt r)
  providers : ∀ k, (c'.cacheAt k).provider = (c.cacheAt k).provider
  policies : ∀ k id, c'.policyOf k id = c.policyOf k id

theorem Agrees.refl (c : Catalog) : c.Agrees c :=
  ⟨rfl, fun _ => .refl _ _, fun _ => rfl, fun _ _ => rfl⟩

theorem Agrees.trans {c c' c'' : Catalog} (h : c.Agrees c') (h' : c'.Agrees c'') : c.Agrees c'' :=
  ⟨h'.forest.trans h.forest, fun r => (h.registries r).trans (h.forest ▸ h'.registries r),
    fun k => (h'.providers k).trans (h.providers k),
    fun k id => (h'.policies k id).trans (h.policies k id)⟩

theorem Agrees.tableName {c c' : Catalog} (h : c.Agrees c') (r : RegistryId) (id : ModelId) :
    (c'.registryAt r).tableName c'.forest id = (c.registryAt r).tableName c.forest id := by
  rw [Registry.tableName, (h.registries r).tables, h.forest]
  rfl

section

variable {c c' : Catalog} (registries : ∀ r, (c.registryAt r).Agrees c.forest (c'.registryAt r))
  (forest : c'.forest = c.forest) (p : Provider) (id : ModelId)

include registries forest

theorem markers_congr : p.markers c' id = p.markers c id := by
  cases p with
  | fixed answers => rfl
  | registry r =>
    rw [Provider.markers, Registry.markersOf, (registries r).markers, forest]
    rfl

theorem mappingsOf_congr : p.mappingsOf c' id = p.mappingsOf c id := by
  cases p with
  | fixed answers => rfl
  | registry r => rw [Provider.mappingsOf, Provider.mappingsOf, forest, (registries r).mappings]

theorem classified_congr : p.classified c' id = p.classified c id := by
  unfold Provider.classified
  rw [markers_congr registries forest, mappingsOf_congr registries forest]

end

theorem Agrees.markers {c c' : Catalog} (h : c.Agrees c') (p : Provider) (id : ModelId) :
    p.markers c' id = p.markers c id :=
  markers_congr h.registries h.forest p id

theorem agrees_set {c : Catalog} {place : RegistryId} {r : Registry}
    (h : (c.registryAt place).Agrees c.forest r) :
    c.Agrees { c with registries := c.registries.set place.index r } := by
  have registries (j : RegistryId) : (c.registryAt j).Agrees c.forest
      (registryAt { c with registries := c.registries.set place.index r } j) := by
    rcases getD_set c.registries r {} place.index j.index with old | ⟨same, new⟩
    · rw [registryAt, registryAt, old]
      exact .refl _ _
    · rw [registryAt, registryAt, new, same]
      exact h
  refine ⟨rfl, registries, fun _ => rfl, ?_⟩
  intro k id
  have classified : (c.cacheAt k).provider.classified
      { c with registries := c.registries.set place.index r } id =
        (c.cacheAt k).provider.classified c id := classified_congr registries rfl _ id
  unfold policyOf
  rw [← classified]
  rfl

theorem exec_onRegistry {α : Type} {id : RegistryId} {act : Act Registry α} {c : Catalog}
    {log : Log} {answer : Except Failure α}
    (h : ∃ r', (c.registryAt id).Agrees c.forest r' ∧
      act.exec (c.registryAt id) log = (answer, r', log)) :
    ∃ c', c.Agrees c' ∧ (onRegistry id act).exec c log = (answer, c', log) := by
  obtain ⟨r', agrees, ran⟩ := h
  refine ⟨_, agrees_set agrees, ?_⟩
  rw [onRegistry, Act.exec_on, ran]

theorem exec_fieldMappings (p : Provider) (id : ModelId) (c : Catalog) (log : Log) :
    ∃ c', c.Agrees c' ∧ (p.fieldMappings id).exec c log = (p.mappingsOf c id, c', log) := by
  cases p with
  | fixed answers => exact ⟨c, .refl c, rfl⟩
  | registry r => exact exec_onRegistry (Registry.exec_fieldMappings c.forest id _ log)

theorem exec_ownMappings (id : ModelId) (c : Catalog) (log : Log) :
    ∃ answer c', c.Agrees c' ∧ (Catalog.ownMappings id).exec c log = (answer, c', log) := by
  rw [Catalog.ownMappings, Act.exec_bind, Act.exec_get]
  dsimp only
  cases (c.forest.typeAt id).kind with
  | sealedDocument =>
    obtain ⟨c', agrees, ran⟩ := exec_onRegistry
      (Registry.exec_fieldMappings c.forest id (c.registryAt sharedRegistry) log)
    exact ⟨_, c', agrees, ran⟩
  | document => exact ⟨_, c, .refl c, rfl⟩
  | plain => exact ⟨_, c, .refl c, rfl⟩

theorem exec_classify (p : Provider) (id : ModelId) (c : Catalog) (log : Log) :
    ∃ c', c.Agrees c' ∧ (p.classify id).exec c log = (p.classified c id, c', log) := by
  unfold Provider.classify Provider.classified
  rw [Act.exec_bind, Act.exec_get]
  dsimp only
  split
  · exact ⟨c, .refl c, rfl⟩
  · obtain ⟨c', agrees, ran⟩ := exec_fieldMappings p id c log
    refine ⟨c', agrees, ?_⟩
    rw [Act.exec_bind, ran]
    cases p.mappingsOf c id <;> rfl

theorem agrees_keep {c : Catalog} {k : CacheId} {id : ModelId} {policy : ClassPolicy}
    (h : c.policyOf k id = .ok policy) : c.Agrees (Cache.keep k id policy c) := by
  have cacheAt (j : CacheId) : (Cache.keep k id policy c).cacheAt j = c.cacheAt j ∨
      j = k ∧ (Cache.keep k id policy c).cacheAt j =
        { c.cacheAt j with policies := (c.cacheAt j).policies.insert id policy } := by
    refine (getD_modify c.caches _ _ k.index j.index).imp_right ?_
    rintro ⟨same, kept⟩
    cases j
    cases k
    cases same
    exact ⟨rfl, kept⟩
  refine ⟨rfl, fun _ => .refl _ _, ?_, ?_⟩
  · intro j
    rcases cacheAt j with same | ⟨-, kept⟩
    · rw [same]
    · rw [kept]
  · intro j other
    have classified (p : Provider) : p.classified (Cache.keep k id policy c) other =
        p.classified c other := classified_congr (fun _ => .refl _ _) rfl p other
    rcases cacheAt j with same | ⟨rfl, kept⟩
    · rw [policyOf, same, classified, policyOf]
    · rw [policyOf, kept]
      dsimp only
      rw [Assoc.get?_insert, classified]
      by_cases beq : (id == other) = true
      · obtain rfl := eq_of_beq beq
        rw [if_pos beq, h]
      · rw [if_neg beq, policyOf]

theorem exec_policy (k : CacheId) (id : ModelId) (c : Catalog) (log : Log) :
    ∃ c' log', c.Agrees c' ∧ (Cache.policy k id).exec c log = (c.policyOf k id, c', log') := by
  unfold Cache.policy
  rw [Act.exec_bind, Act.exec_get]
  dsimp only
  cases found : (c.cacheAt k).policies.get? id with
  | some policy => exact ⟨c, log, .refl c, by rw [policyOf, found]; rfl⟩
  | none =>
    have answer : c.policyOf k id = (c.cacheAt k).provider.classified c id := by
      rw [policyOf, found]
    obtain ⟨c', agrees, ran⟩ := exec_classify (c.cacheAt k).provider id c log
    dsimp only
    rw [Act.exec_bind, ran, answer]
    cases worked : (c.cacheAt k).provider.classified c id with
    | error why =>
      -- A failure is not kept, and comes again when the policy is next asked for.
      exact ⟨c', log, agrees, rfl⟩
    | ok policy =>
      rw [worked] at answer
      exact ⟨_, _, agrees.trans (agrees_keep ((agrees.policies k id).trans answer)), rfl⟩

end Catalog

theorem classify_eq (p : Provider) (id : ModelId) (c : Catalog) (log : Log) :
    ((p.classify id).exec c log).1 = p.classified c id := by
  obtain ⟨c', -, ran⟩ := Catalog.exec_classify p id c log
  rw [ran]

end RecordSeal
