import RecordSeal.Proofs.Settings.Load

set_option autoImplicit false

/-! # Layers of settings

Merging lays one nested object over another. Wherever the upper one leads to a value, that value has
been merged into what the lower one leads to there (`Settings.resolve_merge`); where it leads
nowhere, the lower one is seen, unless something of the upper one stands in between. So what any
path leads to follows from what it leads to in each of the two (`Memory.layers_of_merge`), as long
as every object of the lower one is met once and the upper one has none of them. An object that is
met twice changes wherever it is met, and then a value is seen on a path that it was not given for
(`Memory.not_layers_of_aliased`). -/

namespace RecordSeal

namespace Settings

/-! ## Paths of names -/

/-- What a path of names leads to. -/
def resolve : Value → List Name → Option Value
  | v, [] => some v
  | .object fields, name :: rest =>
    match Assoc.get? fields name with
    | some v => resolve v rest
    | none => none
  | _, _ :: _ => none

theorem atPath_eq_resolve (v : Value) (path : List String) :
    atPath v path = resolve v (path.map .text) := by
  induction path generalizing v with
  | nil => rfl
  | cons name rest ih =>
    cases v with
    | object fields =>
      simp only [atPath, resolve, List.map_cons]
      cases Assoc.get? fields (.text name) with
      | none => rfl
      | some w => exact ih w
    | _ => rfl

theorem resolve_cons (fields : Record) (k : Name) (p : List Name) :
    resolve (.object fields) (k :: p) = (fields.get? k).bind (resolve · p) := by
  rw [resolve]
  cases fields.get? k <;> rfl

theorem resolve_of_plain {v : Value} (plain : v.object? = none) (k : Name) (p : List Name) :
    resolve v (k :: p) = none := by
  cases v with
  | object fields => cases plain
  | _ => rfl

theorem resolve_append (v : Value) (p q : List Name) :
    resolve v (p ++ q) = (resolve v p).bind (resolve · q) := by
  induction p generalizing v with
  | nil => rfl
  | cons k p ih =>
    cases v with
    | object fields =>
      rw [List.cons_append, resolve_cons, resolve_cons]
      cases Assoc.get? fields k with
      | none => rfl
      | some w => exact ih w
    | _ => rfl

theorem exists_object_of_resolve {v : Value} {p q : List Name} {fields : Record}
    (h : resolve v (p ++ q) = some (.object fields)) :
    ∃ inner, resolve v p = some (.object inner) := by
  rw [resolve_append] at h
  obtain ⟨w, reached, rest⟩ := Option.bind_eq_some_iff.1 h
  cases q with
  | nil =>
    cases rest
    exact ⟨fields, reached⟩
  | cons k q =>
    cases w with
    | object inner => exact ⟨inner, reached⟩
    | _ => cases rest

/-! ## Merged values -/

/-- What stands under the first name of a path decides where the path goes after a merge. -/
theorem resolve_merge_cons {s : Record} (distinct : s.Distinct) (t : Record) (k : Name)
    (p : List Name) :
    resolve (.object (merge t s)) (k :: p) =
      match s.get? k with
      | none => resolve (.object t) (k :: p)
      | some v => resolve (mergeValue (t.get? k) v) p := by
  rw [resolve_cons, resolve_cons, get?_merge distinct]
  cases s.get? k <;> rfl

/-- Wherever the upper object leads, its value is merged into what the lower one leads to. -/
theorem resolve_merge {t s : Record} (nested : Value.IsNested (.object s))
    {p : List Name} {v : Value}
    (reached : resolve (.object s) p = some v) :
    resolve (.object (merge t s)) p = some (mergeValue (resolve (.object t) p) v) := by
  induction p generalizing t s with
  | nil =>
    cases reached
    rfl
  | cons k p ih =>
    rw [resolve_cons] at reached
    obtain ⟨w, found, reached⟩ := Option.bind_eq_some_iff.1 reached
    rw [resolve_merge_cons nested.distinct, found]
    dsimp only
    by_cases objects : ∃ t', t.get? k = some (.object t')
    · obtain ⟨t', below⟩ := objects
      rw [resolve_cons, below, Option.bind_some]
      cases w with
      | object s' => exact ih (nested.get? found) reached
      | _ =>
        -- Nothing is reached through such a value, so the path ends at it.
        cases p with
        | nil =>
          cases reached
          rfl
        | cons => cases reached
    · have none (t' : Record) : t.get? k ≠ some (.object t') := fun is => objects ⟨t', is⟩
      rw [mergeValue_of_no_object none, reached]
      -- The lower object has no object on this path, and so none at its end.
      refine congrArg some (mergeValue_of_no_object ?_ v).symm
      intro t' is
      obtain ⟨inner, first⟩ := exists_object_of_resolve (p := [k]) is
      rw [resolve_cons] at first
      obtain ⟨u, there, ends⟩ := Option.bind_eq_some_iff.1 first
      cases ends
      exact none inner there

/-! ## Names in order -/

theorem merge_eq_foldl (t s : Record) :
    merge t s = s.foldl (fun m e => m.insert e.1 (mergeValue (m.get? e.1) e.2)) t := by
  induction s generalizing t with
  | nil => rw [merge, List.foldl_nil]
  | cons e s ih => rw [merge, List.foldl_cons, ih]

/-- Names that are there keep their place, and new ones follow in the order in which they come. -/
theorem keys_merge {s : Record} (distinct : s.Distinct) (t : Record) :
    Assoc.keys (merge t s) = t.keys ++ s.keys.filter fun k => !t.contains k := by
  have adds (m : Record) (e : Name × Value) :
      Assoc.keys (m.insert e.1 (mergeValue (m.get? e.1) e.2)) =
        if m.contains e.1 then m.keys else m.keys ++ [e.1] := Assoc.keys_insert m e.1 _
  have apart : (s.keys.filter fun k => !t.contains k).eraseDups =
      s.keys.filter fun k => !t.contains k :=
    Assoc.eraseDups_of_pairwise (distinct.sublist List.filter_sublist)
  rw [merge_eq_foldl, Assoc.keys_foldl adds, ← apart]
  rfl

/-! ## The layered law -/

/-- Whether fields are what is seen where `s` lies over `t`, on every path of names. -/
structure Layers (t s m : Record) : Prop where
  /-- Where `s` leads to a value that is no object, that value is seen. -/
  plain : ∀ p v, resolve (.object s) p = some v → v.object? = none → resolve (.object m) p = some v
  /-- Where both lead to objects, they are seen merged, the names of `t` in their places and new
  ones after them in the order of `s`. -/
  both : ∀ p (t' s' : Record), resolve (.object t) p = some (.object t') →
    resolve (.object s) p = some (.object s') →
    resolve (.object m) p = some (.object (merge t' s')) ∧
      Assoc.keys (merge t' s') = t'.keys ++ s'.keys.filter fun k => !t'.contains k
  /-- Where `s` alone leads to an object, that object is seen. -/
  alone : ∀ p s', resolve (.object s) p = some (.object s') →
    (∀ t', resolve (.object t) p ≠ some (.object t')) →
    resolve (.object m) p = some (.object s')
  /-- Where `s` has something other than an object on the way, nothing is seen. -/
  blocked : ∀ q k r v, resolve (.object s) q = some v → v.object? = none →
    resolve (.object m) (q ++ k :: r) = none
  /-- Where the way of `s` runs out, what `t` leads to is seen if it has objects all along that
  way. -/
  below : ∀ q k r (s' : Record), resolve (.object s) q = some (.object s') → s'.get? k = none →
    (∀ q', q' <+: q → ∃ t', resolve (.object t) q' = some (.object t')) →
    resolve (.object m) (q ++ k :: r) = resolve (.object t) (q ++ k :: r)
  /-- Where the way of `s` runs out and `t` lacks an object along it, nothing is seen. -/
  absent : ∀ q k r (s' : Record), resolve (.object s) q = some (.object s') → s'.get? k = none →
    (∃ q', q' <+: q ∧ ∀ t', resolve (.object t) q' ≠ some (.object t')) →
    resolve (.object m) (q ++ k :: r) = none

theorem isNested_of_resolve {v w : Value} (nested : v.IsNested) {p : List Name}
    (reached : resolve v p = some w) : w.IsNested := by
  induction p generalizing v with
  | nil =>
    cases reached
    exact nested
  | cons k p ih =>
    cases v with
    | object fields =>
      rw [resolve_cons] at reached
      obtain ⟨u, found, reached⟩ := Option.bind_eq_some_iff.1 reached
      exact ih (nested.get? found) reached
    | _ => cases reached

/-- Behind the end of the way of `s` a merge shows what lies in the merged value. -/
theorem resolve_merge_append {t s : Record} (nested : Value.IsNested (.object s)) {q : List Name}
    {v : Value} (reached : resolve (.object s) q = some v) (r : List Name) :
    resolve (.object (merge t s)) (q ++ r) =
      resolve (mergeValue (resolve (.object t) q) v) r := by
  rw [resolve_append, resolve_merge nested reached, Option.bind_some]

theorem layers_merge (t : Record) {s : Record} (nested : Value.IsNested (.object s)) :
    Layers t s (merge t s) where
  plain p v reached plain := by rw [resolve_merge nested reached, mergeValue_plain plain]
  both p t' s' below above := by
    refine ⟨?_, keys_merge (isNested_of_resolve nested above).distinct t'⟩
    rw [resolve_merge nested above, below, mergeValue_objects]
  alone p s' above none := by rw [resolve_merge nested above, mergeValue_of_no_object none]
  blocked q k r v reached plain := by
    rw [resolve_merge_append nested reached, mergeValue_plain plain, resolve_of_plain plain]
  below q k r s' reached ends objects := by
    obtain ⟨t', there⟩ := objects q List.prefix_rfl
    have distinct := (isNested_of_resolve nested reached).distinct
    rw [resolve_merge_append nested reached, there, mergeValue_objects,
      resolve_merge_cons distinct, ends, resolve_append, there, Option.bind_some]
  absent q k r s' reached ends lacks := by
    obtain ⟨q', ⟨rest, rfl⟩, none⟩ := lacks
    have end_none (t' : Record) : resolve (.object t) (q' ++ rest) ≠ some (.object t') := by
      intro there
      obtain ⟨inner, before⟩ := exists_object_of_resolve there
      exact none inner before
    rw [resolve_merge_append nested reached, mergeValue_of_no_object end_none, resolve_cons, ends,
      Option.bind_none]

/-- Settings that are ready answer names joined by dots with what these lead to, or with the
default. -/
theorem exec_query_joined {around : Surroundings} {settings : Settings}
    (ready : settings.ready = true) (log : Log) {names : List String} (nonempty : names ≠ [])
    (dotless : ∀ n ∈ names, '.' ∉ n.toList) (default : Value) :
    (query around (Text.joined '.' names) default).exec settings log =
      (.ok ((resolve (.object settings.values) (names.map .text)).getD default), settings,
        log) := by
  rw [exec_query (exec_ensureReady_of_ready ready log), lookup,
    Text.pieces_joined nonempty dotless, atPath_eq_resolve]

end Settings

namespace Memory

open Settings

/-! ## Objects that are apart -/

/-- Merging lays the fields of one object over those of another, on every path and at any depth, if
no object of the target is met twice or is in the source, and the calls that are allowed suffice.
The source stays as it is, and merging it a second time changes nothing, if the calls suffice for
that. Settings that are ready and have what was merged answer names joined by dots with what these
lead to, or with the default. -/
theorem layers_of_merge {m : Memory} {depth calls target source : Nat} {t s : Record}
    (below : m.read depth target = some t) (above : m.read depth source = some s)
    (once : (m.places depth target).Nodup)
    (apart : ∀ x ∈ m.places depth target, x ∉ m.places depth source)
    (nested : Value.IsNested (.object s))
    (reached : (merge calls target source m).1 ≠ .error .tooDeep) :
    ∃ m' fields, merge calls target source m = (.ok (), m') ∧
      m'.read depth target = some fields ∧ Layers t s fields ∧
      m'.places depth target ≤ m.places depth target + m.places depth source ∧
      m'.read depth source = some s ∧
      (∀ calls', (merge calls' target source m').1 ≠ .error .tooDeep →
        merge calls' target source m' = (.ok (), m')) ∧
      ∀ (around : Surroundings) (settings : Settings) (log : Log), settings.ready = true →
        settings.values = fields → ∀ (names : List String) (default : Value), names ≠ [] →
        (∀ n ∈ names, '.' ∉ n.toList) →
        (query around (Text.joined '.' names) default).exec settings log =
          (.ok ((resolve (.object fields) (names.map .text)).getD default), settings, log) := by
  have deep : depth ≤ max calls depth := Nat.le_max_right ..
  obtain ⟨m', ran, read, places, -⟩ := merges_merge deep below above once apart nested
  obtain ⟨kept, again⟩ := merge_again deep below above once apart nested ran
  rw [merge_of_le (Nat.le_max_left ..) reached] at ran
  refine ⟨m', Settings.merge t s, ran, read, layers_merge t nested, places, kept, again, ?_⟩
  intro around settings log ready has names default nonempty dotless
  rw [exec_query_joined ready log nonempty dotless, has]

/-- Fields as a file may give them for the built-in settings: a key and another number of
iterations, a plain value for a section, and a section that is new. -/
def sampleLayer : Record := [
  ("encryption", .object [("key_iterations", .int 5), ("key", .text "k")]),
  ("logging", .text "off"),
  ("limits", .object [(.bytes [1], .object [("size", .int 9)])])]

theorem isNested_sampleLayer : Value.IsNested (.object sampleLayer) := by
  refine .object (by simp [Assoc.Distinct, Assoc.keys, sampleLayer]) ?_
  simp only [sampleLayer, List.forall_mem_cons]
  refine ⟨.object (by simp [Assoc.Distinct, Assoc.keys]) ?_, .plain rfl,
    .object (by simp [Assoc.Distinct, Assoc.keys]) ?_, by simp⟩
  · simp only [List.forall_mem_cons]
    exact ⟨.plain rfl, .plain rfl, by simp⟩
  · simp only [List.forall_mem_cons]
    refine ⟨.object (by simp [Assoc.Distinct, Assoc.keys]) ?_, by simp⟩
    simpa using Value.IsNested.plain (v := .int 9) rfl

/-- The built-in settings, at place 4, and the sample fields, at place 8. -/
def sampleMemory : Memory := (layObject (layObject [] builtIn).2 sampleLayer).2

/-- The given values are seen, in the sections as well, and what was not given is still there, but
for the section that a plain value stands for. -/
theorem layers_of_merge_sample :
    ∃ m' fields, merge 3 4 8 sampleMemory = (.ok (), m') ∧ m'.read 3 4 = some fields ∧
      resolve (.object fields) ["encryption", "key_iterations"] = some (.int 5) ∧
      resolve (.object fields) ["encryption", "algorithm"] = some (.text "AES-GCM") ∧
      resolve (.object fields) ["logging", "level"] = none ∧
      resolve (.object fields) ["limits", .bytes [1]] = some (.object [("size", .int 9)]) ∧
      merge 3 4 8 m' = (.ok (), m') := by
  have below : sampleMemory.read 3 4 = some builtIn := rfl
  have above : sampleMemory.read 3 8 = some sampleLayer := rfl
  have once : (sampleMemory.places 3 4).Nodup := by decide
  have apart : ∀ x ∈ sampleMemory.places 3 4, x ∉ sampleMemory.places 3 8 := by decide
  have reached : (merge 3 4 8 sampleMemory).1 ≠ .error .tooDeep := by decide
  obtain ⟨m', fields, ran, reads, layers, -, -, again, -⟩ :=
    layers_of_merge below above once apart isNested_sampleLayer reached
  refine ⟨m', fields, ran, reads, layers.plain _ _ rfl rfl, ?_, ?_, ?_, again 3 ?_⟩
  · refine (layers.below ["encryption"] "algorithm" [] _ rfl rfl ?_).trans rfl
    intro q' hq
    obtain ⟨rest, whole⟩ := hq
    exact exists_object_of_resolve (q := rest) (by rw [whole]; rfl)
  · exact layers.blocked ["logging"] "level" [] _ rfl rfl
  · have none : resolve (.object builtIn) ["limits", .bytes [1]] = none := rfl
    refine layers.alone _ _ rfl ?_
    rw [none]
    simp
  · obtain rfl : m' = (merge 3 4 8 sampleMemory).2 := by rw [ran]
    decide

/-! ## Objects that are shared -/

/-- Settings, at place 1, whose replica is their primary under another name, and fields for them, at
place 3, with a password for the primary. -/
def aliased : Memory := [
  [("host", .leaf (.text "h") rfl), ("password", .leaf (.text "") rfl)],
  [("primary", .object 0), ("replica", .object 0)],
  [("password", .leaf (.text "s3cret") rfl)],
  [("primary", .object 2)]]

/-- Settings, at place 1, and fields for them, at place 3, that have the primary of the settings as
their replica and a host for the primary. -/
def borrowed : Memory := [
  [("host", .leaf (.text "h") rfl)],
  [("primary", .object 0)],
  [("host", .leaf (.text "g") rfl)],
  [("primary", .object 2), ("replica", .object 0)]]

/-- Surroundings with a file that sets a mode and takes a section away, and a log level for that
section. -/
def sampleLevel : Surroundings where
  environment := [("FIELDSEAL_LOG_LEVEL", "debug")]
  files := [(["a.yaml"], .document (.object [("mode", .text "PROD"), ("logging", .null)]))]
  now := ⟨2024, 1, 2, 3, 4, 5, 0⟩
  entropy := Entropy.cyclic [1]

/-- What is merged into an object is seen wherever the object is met. So the password is seen on the
path of the replica, which no field leads to, and the host on the path of a replica for which
another one is given. With too few calls the merge fails. And settings that are not ready when they
are asked, as a set-up that fails behind its file leaves them, do not answer from what was merged.
-/
theorem not_layers_of_aliased :
    (∃ t s fields m', aliased.read 2 1 = some t ∧ aliased.read 2 3 = some s ∧
      merge 2 1 3 aliased = (.ok (), m') ∧ m'.read 2 1 = some fields ∧
      resolve (.object s) ["replica"] = none ∧
      resolve (.object t) ["replica", "password"] = some (.text "") ∧
      resolve (.object fields) ["replica", "password"] = some (.text "s3cret") ∧
      ¬ Layers t s fields) ∧
    (∃ t s fields m', borrowed.read 2 1 = some t ∧ borrowed.read 2 3 = some s ∧
      merge 2 1 3 borrowed = (.ok (), m') ∧ m'.read 2 1 = some fields ∧
      resolve (.object s) ["replica", "host"] = some (.text "h") ∧
      resolve (.object fields) ["replica", "host"] = some (.text "g") ∧
      ¬ Layers t s fields) ∧
    (merge 1 1 3 aliased).1 = .error .tooDeep ∧
    ∃ why settings log, (setUp sampleLevel (.text "a.yaml")).exec {} {} =
        (.error why, settings, log) ∧
      settings.values = Settings.merge builtIn [("mode", .text "PROD"), ("logging", .null)] ∧
      resolve (.object settings.values) ["mode"] = some (.text "PROD") ∧
      ((query sampleLevel "mode" .null).exec settings log).1 = .ok (.text "DEV") := by
  refine ⟨⟨_, _, _, _, rfl, rfl, rfl, rfl, rfl, rfl, rfl, fun layers => ?_⟩,
    ⟨_, _, _, _, rfl, rfl, rfl, rfl, rfl, rfl, fun layers => ?_⟩, rfl, _, _, _, rfl, rfl, rfl, rfl⟩
  · have seen : some (Value.text "s3cret") = some (.text "") := by
      refine layers.below [] "replica" ["password"] _ rfl rfl fun q' hq => ?_
      obtain rfl := List.prefix_nil.1 hq
      exact ⟨_, rfl⟩
    simp at seen
  · have seen : some (Value.text "g") = some (.text "h") :=
      layers.plain ["replica", "host"] (.text "h") rfl rfl
    simp at seen

end Memory

end RecordSeal
