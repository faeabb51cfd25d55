import Mathlib.Data.List.Induction
import RecordSeal.Proofs.Catalog.Coherence
import RecordSeal.Proofs.Hooks
import RecordSeal.Proofs.Hooks.Keeps

set_option autoImplicit false

/-! # Caches over whole sessions

A program defines, marks and registers types, and asks for policies through any number of caches and
hooks (`Session.Call`). Registries keep mappings and caches keep policies from the first time that
they are asked. Whatever a cache keeps was given by classification when it was entered
(`Session.Entry`), and classification still gives it unless the type was touched since
(`Session.entry_of_kept`). -/

namespace RecordSeal.Session

/-! ## Calls -/

/-- Whether the catalog of one session answers as that of another. -/
def SameAnswers (σ σ' : Session) : Prop := σ.catalog.Agrees σ'.catalog

instance : Std.Refl SameAnswers := ⟨fun σ => .refl σ.catalog⟩

instance : IsTrans Session SameAnswers := ⟨fun _ _ _ h h' => Catalog.Agrees.trans h h'⟩

/-- What a program may do with types, registries, caches and hooks. -/
inductive Call where
  | catalog (request : Catalog.Request)
  | createHooks (e : Encryptor) (provider : Option Provider) (cache : Option CacheId)
  | policy (h : Hooks) (id : ModelId)
  | encode (h : Hooks) (t : Transform)
  | decode (h : Hooks) (t : Transform)
  | effectivePolicies (h : Hooks) (t : Transform)

namespace Call

/-- Does what is called for. -/
def act : Call → Act Session Unit
  | catalog request => onCatalog request.act
  | createHooks e provider cache => do let _ ← Hooks.create e provider cache
  | policy h id => do let _ ← h.policy id
  | encode h t => do let _ ← h.encode t
  | decode h t => do let _ ← h.decode t
  | effectivePolicies h t => do let _ ← h.effectivePolicies t

/-- Whether a call changes what a provider knows of a type. -/
def Touches (call : Call) (p : Provider) (id : ModelId) (c : Catalog) : Prop :=
  match call with
  | catalog request => request.Touches p id c
  | _ => False

theorem keeps_policy (h : Hooks) (id : ModelId) : (h.policy id).Keeps SameAnswers := by
  intro σ log
  obtain ⟨σ', log', asked, ran⟩ := h.exec_policy σ log id
  rw [ran]
  exact asked.catalog

theorem keeps_onWorkshop {α : Type} (act : Act Workshop α) : (onWorkshop act).Keeps SameAnswers :=
  fun σ _ => Catalog.Agrees.refl σ.catalog

/-- Hooks that are made have a new cache at most. -/
theorem catalog_create (e : Encryptor) (provider : Option Provider) (cache : Option CacheId)
    (σ : Session) (log : Log) :
    ((Hooks.create e provider cache).exec σ log).2.1.catalog = σ.catalog ∨
      ∃ p, ((Hooks.create e provider cache).exec σ log).2.1.catalog =
        ((Catalog.newCache p).exec σ.catalog log).2.1 := by
  cases cache with
  | some id => exact .inl rfl
  | none =>
    cases provider with
    | none => exact .inl rfl
    | some p => exact .inr ⟨p, rfl⟩

/-- Every call does to the catalog what a request may do. -/
theorem steps (call : Call) {σ : Session} (built : σ.catalog.forest.WellBuilt) (log : Log) :
    Catalog.Steps σ.catalog (call.act.exec σ log).2.1.catalog
      fun p id => call.Touches p id σ.catalog := by
  have asking {α : Type} {act : Act Session α} (h : act.Keeps SameAnswers)
      {touched : Provider → ModelId → Prop} :
      Catalog.Steps σ.catalog ((do let _ ← act : Act Session Unit).exec σ log).2.1.catalog
        touched := by
    rw [Act.exec_silent]
    exact Catalog.steps_of_agrees built (h σ log)
  cases call with
  | catalog request => exact request.steps built log
  | createHooks e provider cache =>
    rw [act, Act.exec_silent]
    rcases catalog_create e provider cache σ log with same | ⟨p, new⟩
    · rw [same]
      exact Catalog.steps_of_agrees built (.refl _)
    · rw [new]
      exact Catalog.steps_newCache built p log
  | policy h id => exact asking (keeps_policy h id)
  | encode h t =>
    exact asking (h.keeps_encode t (keeps_policy h t.model) fun _ _ _ _ => keeps_onWorkshop _)
  | decode h t =>
    exact asking (h.keeps_decode t (keeps_policy h t.model) fun _ _ _ => keeps_onWorkshop _)
  | effectivePolicies h t => exact asking (h.keeps_effectivePolicies t (keeps_policy h t.model))

end Call

/-! ## Runs -/

/-- The session and the log after calls, whether they ended well or failed. -/
def run (s : Session × Log) (calls : List Call) : Session × Log :=
  calls.foldl (fun s call => (call.act.exec s.1 s.2).2) s

/-- The catalog after calls. -/
def catalogAfter (s : Session × Log) (calls : List Call) : Catalog := (run s calls).1.catalog

/-- Whether no call of a run changes what a provider knows of a type. -/
def Untouched (p : Provider) (id : ModelId) : Session × Log → List Call → Prop
  | _, [] => True
  | s, call :: rest =>
    ¬ call.Touches p id s.1.catalog ∧ Untouched p id (call.act.exec s.1 s.2).2 rest

/-- How a policy came into a cache: at some call the cache kept none for the type, classification by
the provider of the cache gave this one, and the cache has kept it since. Unless the type was
touched since, classification and the cache give it now. -/
structure Entry (start : Session × Log) (k : CacheId) (id : ModelId) (policy : ClassPolicy)
    (before : List Call) (call : Call) (later : List Call) : Prop where
  absent : (catalogAfter start before).kept k id = none
  classified : ∀ log, ((((catalogAfter start before).cacheAt k).provider.classify id).exec
    (catalogAfter start before) log).1 = .ok policy
  provider : ((catalogAfter start (before ++ call :: later)).cacheAt k).provider =
    ((catalogAfter start before).cacheAt k).provider
  held : ∀ more, more <+: later →
    (catalogAfter start (before ++ call :: more)).kept k id = some policy
  current : Untouched ((catalogAfter start before).cacheAt k).provider id
      (run start (before ++ [call])) later →
    ∀ log, ((((catalogAfter start before).cacheAt k).provider.classify id).exec
      (catalogAfter start (before ++ call :: later)) log).1 = .ok policy

section

variable {start : Session × Log} {k : CacheId} {id : ModelId} {policy : ClassPolicy}
  {calls before later : List Call} {call : Call}

theorem run_append_singleton (start : Session × Log) (calls : List Call) (call : Call) :
    run start (calls ++ [call]) =
      (call.act.exec (run start calls).1 (run start calls).2).2 := by
  rw [run, List.foldl_append]
  rfl

theorem untouched_append_singleton (p : Provider) (s : Session × Log) :
    Untouched p id s (calls ++ [call]) ↔
      Untouched p id s calls ∧ ¬ call.Touches p id (catalogAfter s calls) := by
  induction calls generalizing s with
  | nil => simp [Untouched, catalogAfter, run]
  | cons first rest ih =>
    have next : catalogAfter s (first :: rest) =
        catalogAfter (first.act.exec s.1 s.2).2 rest := rfl
    rw [List.cons_append, Untouched, Untouched, ih, next, and_assoc]

/-- Every call of a run does what a request may do, in a forest that is well built. -/
theorem steps_run (built : start.1.catalog.forest.WellBuilt) (calls : List Call) (call : Call) :
    Catalog.Steps (catalogAfter start calls) (catalogAfter start (calls ++ [call]))
      fun p id => call.Touches p id (catalogAfter start calls) := by
  have wellBuilt : (catalogAfter start calls).forest.WellBuilt := by
    induction calls using List.reverseRecOn with
    | nil => exact built
    | append_singleton calls call ih =>
      rw [catalogAfter, run_append_singleton]
      exact (call.steps ih _).built
  rw [catalogAfter, catalogAfter, run_append_singleton]
  exact call.steps wellBuilt _

/-- A policy that is entered by a call was entered there. -/
theorem entry_of_entered (built : start.1.catalog.forest.WellBuilt)
    (absent : (catalogAfter start calls).kept k id = none)
    (kept : (catalogAfter start (calls ++ [call])).kept k id = some policy) :
    Entry start k id policy calls call [] := by
  obtain ⟨provider, before | ⟨-, classified, same⟩⟩ :=
      (steps_run built calls call).entered k id policy kept
  · rw [absent] at before
    cases before
  · refine ⟨absent, fun log => (classify_eq _ _ _ log).trans classified, provider, ?_, ?_⟩
    · intro more none
      rw [List.prefix_nil.1 none]
      exact kept
    · intro _ log
      rw [classify_eq]
      exact (same _ id).classified.trans classified

/-- An entry stays one while the cache keeps the policy. -/
theorem Entry.append (built : start.1.catalog.forest.WellBuilt)
    (entry : Entry start k id policy before call later) {next : Call}
    (kept : (catalogAfter start (before ++ call :: (later ++ [next]))).kept k id = some policy) :
    Entry start k id policy before call (later ++ [next]) := by
  have joined : before ++ call :: (later ++ [next]) = (before ++ call :: later) ++ [next] := by simp
  have step := steps_run built (before ++ call :: later) next
  rw [← joined] at step
  refine ⟨entry.absent, entry.classified, ?_, ?_, ?_⟩
  · exact (step.entered k id policy kept).1.trans entry.provider
  · intro more inside
    rcases List.prefix_concat_iff.1 inside with rfl | inside
    · exact kept
    · exact entry.held more inside
  · intro untouched log
    have split : catalogAfter (run start (before ++ [call])) later =
        catalogAfter start (before ++ call :: later) := by
      rw [catalogAfter, catalogAfter, run, run, run, ← List.foldl_append, List.append_assoc]
      rfl
    obtain ⟨since, last⟩ := (untouched_append_singleton _ _).1 untouched
    rw [split] at last
    rw [classify_eq, (step.same _ id last).classified, ← classify_eq _ _ _ log]
    exact entry.current since log

/-- What a cache keeps was entered. -/
theorem exists_entry (built : start.1.catalog.forest.WellBuilt)
    (empty : start.1.catalog.kept k id = none)
    (kept : (catalogAfter start calls).kept k id = some policy) :
    ∃ before call later, calls = before ++ call :: later ∧
      Entry start k id policy before call later := by
  induction calls using List.reverseRecOn with
  | nil =>
    rw [catalogAfter, run, List.foldl_nil, empty] at kept
    cases kept
  | append_singleton calls call ih =>
    obtain ⟨-, old | ⟨absent, -⟩⟩ := (steps_run built calls call).entered k id policy kept
    · obtain ⟨before, first, later, rfl, entry⟩ := ih old
      refine ⟨before, first, later ++ [call], by simp, entry.append built ?_⟩
      rw [List.append_assoc] at kept
      exact kept
    · exact ⟨calls, call, [], rfl, entry_of_entered built absent kept⟩

end

/-- At any moment of any session, whatever a cache keeps for a type was entered: classification gave
it then, the cache has kept it since and answers with it, and classification still gives it unless
the type was touched since. Where a cache keeps nothing it answers what classification gives, and a
classification that fails enters nothing. Hooks get what their cache answers. -/
theorem entry_of_kept (start : Session) (fresh : start.catalog = {}) (log : Log)
    (calls : List Call) (k : CacheId) (id : ModelId) :
    (∀ policy, (catalogAfter (start, log) calls).kept k id = some policy →
      (∃ before call later, calls = before ++ call :: later ∧
        Entry (start, log) k id policy before call later) ∧
      ∀ log', ((Cache.policy k id).exec (catalogAfter (start, log) calls) log').1 = .ok policy) ∧
    ((catalogAfter (start, log) calls).kept k id = none → ∀ log',
      ((Cache.policy k id).exec (catalogAfter (start, log) calls) log').1 =
        ((((catalogAfter (start, log) calls).cacheAt k).provider.classify id).exec
          (catalogAfter (start, log) calls) log').1 ∧
      ∀ why, ((((catalogAfter (start, log) calls).cacheAt k).provider.classify id).exec
          (catalogAfter (start, log) calls) log').1 = .error why →
        ∀ call, (catalogAfter (start, log) (calls ++ [call])).kept k id = none) ∧
    ∀ (h : Hooks) (log' : Log), h.cache = k →
      ((h.policy id).exec (run (start, log) calls).1 log').1 =
        ((Cache.policy k id).exec (catalogAfter (start, log) calls) log').1 := by
  have built : start.catalog.forest.WellBuilt := by
    rw [fresh]
    exact Forest.wellBuilt_roots
  have empty : start.catalog.kept k id = none := by
    rw [fresh]
    cases k with
    | mk i => cases i <;> rfl
  have answer (log' : Log) :
      ((Cache.policy k id).exec (catalogAfter (start, log) calls) log').1 =
        (catalogAfter (start, log) calls).policyOf k id := by
    obtain ⟨c', log₁, -, ran⟩ := Catalog.exec_policy k id (catalogAfter (start, log) calls) log'
    rw [ran]
  refine ⟨?_, ?_, ?_⟩
  · intro policy kept
    refine ⟨exists_entry built empty kept, fun log' => ?_⟩
    rw [answer, Catalog.policyOf, ← Catalog.kept, kept]
  · intro absent log'
    refine ⟨?_, ?_⟩
    · rw [answer, classify_eq, Catalog.policyOf, ← Catalog.kept, absent]
    · intro why failed call
      rw [classify_eq] at failed
      by_contra found
      obtain ⟨policy, kept⟩ := Option.ne_none_iff_exists'.1 found
      obtain ⟨-, old | ⟨-, given, -⟩⟩ :=
        (steps_run built calls call).entered k id policy kept
      · rw [absent] at old
        cases old
      · rw [failed] at given
        cases given
  · rintro h log' rfl
    rfl

/-- A session in which no type is defined yet. -/
def emptySession : Session where
  around := { now := ⟨2024, 1, 1, 0, 0, 0, 0⟩, entropy := { stream := fun _ => 0 } }

/-- A type is defined, hooks on the shared cache get its policy, and another type is defined and
marked. -/
def sampleCalls : List Call := [
  .catalog (.define Forest.sealedRoot "Note" "notes" none [{ name := "body", type := .text }]),
  .policy ⟨.rehearsal ⟨0⟩, Catalog.sharedCache, .registry Catalog.sharedRegistry⟩ ⟨6⟩,
  .catalog (.define Forest.sealedRoot "Book" "books" none [{ name := "title", type := .text }]),
  .catalog (.mark ⟨7⟩ [.doNotTouch])]

/-- The policy of the first type is entered by the second call, and what is done to the other type
does not outdate it. -/
theorem entry_of_kept_sample : ∃ policy,
    (catalogAfter (emptySession, {}) sampleCalls).kept Catalog.sharedCache ⟨6⟩ = some policy ∧
    ∀ log, (((Provider.registry Catalog.sharedRegistry).classify ⟨6⟩).exec
      (catalogAfter (emptySession, {}) sampleCalls) log).1 = .ok policy := by
  have kept : ((catalogAfter (emptySession, {}) sampleCalls).kept
      Catalog.sharedCache ⟨6⟩).isSome = true := by decide
  obtain ⟨policy, kept⟩ := Option.isSome_iff_exists.1 kept
  obtain ⟨⟨before, call, later, split, entry⟩, -⟩ :=
    (entry_of_kept emptySession rfl {} sampleCalls Catalog.sharedCache ⟨6⟩).1 policy kept
  refine ⟨policy, kept, ?_⟩
  match before, split with
  | [], split =>
    cases split
    cases entry.held [] List.nil_prefix
  | [_], split =>
    cases split
    have apart : ModelId.mk 7 ∉
        [⟨6⟩, Forest.sealedRoot, Forest.documentRoot, Forest.plainRoot] := by decide
    exact entry.current ⟨(by decide : ¬ 6 = 7), apart, trivial⟩
  | [_, _], split | [_, _, _], split =>
    cases split
    cases entry.absent
  | _ :: _ :: _ :: _ :: _, split => simp [sampleCalls] at split

end RecordSeal.Session
