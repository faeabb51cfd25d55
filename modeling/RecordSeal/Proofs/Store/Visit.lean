import Mathlib.Logic.Function.Iterate
import RecordSeal.Proofs.Store

set_option autoImplicit false

/-! # Visits to a collection

A store that does something in a collection first makes sure that the collection is there, which
takes up to three calls to the server. Between any two of them other stores can have their turn.
Here the operation is cut at its calls: a visit is at a stage (`Stage`), and an advance makes one
call, or looks at or adds to what the store knows (`Errand.advance`). Left to itself, a visit does
what the whole operation does (`Errand.exec_whole`). What an advance may do is said once (`Move`),
so that what holds of visits in turn is proved from there. -/

namespace RecordSeal

/-! ## What two connections have in common -/

namespace Connection

/-- Whether two connections have the same collections, and their stores know the same tables. -/
structure Same (c c' : Connection) : Prop where
  tables : c'.tables = c.tables
  contains : ∀ n, c'.server.collections.contains n = c.server.collections.contains n

/-- Whether the second connection has the collection of a name beside those of the first. -/
structure Gains (c : Connection) (name : Name) (c' : Connection) : Prop where
  tables : c'.tables = c.tables
  contains : ∀ n, c'.server.collections.contains n =
    (name == n || c.server.collections.contains n)

/-- Whether the store of the second connection knows one more table than that of the first. -/
structure Learns (c : Connection) (name : Name) (c' : Connection) : Prop where
  tables : c'.tables = c.tables ++ [name]
  contains : ∀ n, c'.server.collections.contains n = c.server.collections.contains n

end Connection

namespace Store

/-! ## Stages -/

/-- What a collection is visited for: to make sure that it is there, and maybe to do one thing in
it. -/
inductive Errand where
  | ensure
  | put (now : Timestamp) (key : Value) (record : Record)
  | fetch (key : Value)
  | delete (key : Value)

/-- How far a visit is. -/
inductive Stage where
  /-- About to look whether the store knows the table. -/
  | entering
  /-- About to ask the server for the collection. -/
  | looking
  /-- There was no collection; about to create it. -/
  | creating
  /-- It was not created; about to ask for it again. -/
  | rechecking (why : Failure)
  /-- The collection is there; about to remember the table. -/
  | remembering
  /-- The collection was made sure of; about to do the errand in it. -/
  | ready
  /-- Making sure of the collection failed. -/
  | raised (why : Failure)
  | done (answer : Except Failure (Option Record))

namespace Stage

/-- What a visit ended with, if it has ended. -/
def answer? : Stage → Option (Except Failure (Option Record))
  | .raised why => some (.error why)
  | .done answer => some answer
  | _ => none

/-- How many advances are left at most. -/
def left : Stage → Nat
  | .entering => 6
  | .looking => 5
  | .creating => 4
  | .rechecking _ => 3
  | .remembering => 2
  | .ready => 1
  | .raised _ => 0
  | .done _ => 0

/-- Whether the collection of the table was seen to be there. -/
def IsSure : Stage → Prop
  | .remembering => True
  | .ready => True
  | .done _ => True
  | _ => False

end Stage

namespace Errand

/-- The whole operation. -/
def whole (table : Value) : Errand → Act Connection (Option Record)
  | .ensure => do
    let _ ← ensureTable table
    pure none
  | .put now key record => do
    Store.put now table key record
    pure none
  | .fetch key => do
    let record ← Store.fetch table key
    pure (some record)
  | .delete key => do
    Store.delete table key
    pure none

/-- What is left of the operation once the collection was made sure of. -/
def serve (name : Name) : Errand → Act Connection (Option Record)
  | .ensure => pure none
  | .put now key record => do
    let key ← Act.ofExcept key.toName
    onServer fun s => ((), s.insert name key { storedAt := now.text, record })
    pure none
  | .fetch key => do
    let key ← Act.ofExcept key.toName
    match ← onServer (·.get name key) with
    | some d => pure (some d.record)
    | none => Act.fail (.refused (.notFound key.shown name.shown))
  | .delete key => do
    let key ← Act.ofExcept key.toName
    onServer fun s => ((), s.delete name key)
    pure none

/-- One advance of a visit to the collection of a name. -/
def advance (e : Errand) (name : Name) : Stage × Connection × Log → Stage × Connection × Log
  | (.entering, c, log) => (if c.tables.contains name then .ready else .looking, c, log)
  | (.looking, c, log) =>
    let (there, server) := c.server.hasCollection name
    (if there then .remembering else .creating, { c with server }, log)
  | (.creating, c, log) =>
    let log := log.add ⟨.info, source, s!"Creating collection: {name.shown}"⟩
    match c.server.createCollection name with
    | (.ok (), server) => (.remembering, { c with server }, log)
    | (.error why, server) => (.rechecking why, { c with server }, log)
  | (.rechecking why, c, log) =>
    let (there, server) := c.server.hasCollection name
    if there then
      (.remembering, { c with server },
        log.add ⟨.debug, source, s!"Collection {name.shown} already created: {why.message}"⟩)
    else (.raised why, { c with server }, log)
  | (.remembering, c, log) => (.ready, { c with tables := c.tables ++ [name] }, log)
  | (.ready, c, log) =>
    let (answer, c, log) := (e.serve name).exec c log
    (.done answer, c, log)
  | (.raised why, c, log) => (.raised why, c, log)
  | (.done answer, c, log) => (.done answer, c, log)

/-! ## A visit left to itself -/

variable {table : Value} {name : Name}

theorem exec_whole_eq (e : Errand) (table : Value) (c : Connection) (log : Log) :
    (e.whole table).exec c log =
      (do let name ← ensureTable table
          e.serve name : Act Connection (Option Record)).exec c log := by
  cases e with
  | ensure => rfl
  | put now key record =>
    simp only [whole, serve, Store.put, Act.exec_bind]
    rcases (ensureTable table).exec c log with ⟨_ | name, c₁, log₁⟩
    · rfl
    · simp only [Act.exec_ofExcept]
      cases key.toName <;> rfl
  | fetch key =>
    simp only [whole, serve, Store.fetch, Act.exec_bind]
    rcases (ensureTable table).exec c log with ⟨_ | name, c₁, log₁⟩
    · rfl
    · simp only [Act.exec_ofExcept]
      cases key.toName with
      | error why => rfl
      | ok key =>
        simp only [exec_onServer]
        cases (c₁.server.get name key).1 <;> rfl
  | delete key =>
    simp only [whole, serve, Store.delete, Act.exec_bind]
    rcases (ensureTable table).exec c log with ⟨_ | name, c₁, log₁⟩
    · rfl
    · simp only [Act.exec_ofExcept]
      cases key.toName <;> rfl

/-- Left to itself, a visit ends after at most six advances, as the whole operation does: with the
same answer, on the same connection and with the same log. -/
theorem exec_whole (e : Errand) (named : table.toName = .ok name) (c : Connection) (log : Log) :
    ∃ stage answer c' log', (e.advance name)^[6] (.entering, c, log) = (stage, c', log') ∧
      stage.answer? = some answer ∧ (e.whole table).exec c log = (answer, c', log') := by
  rw [exec_whole_eq, Act.exec_bind, ensureTable, named]
  simp only [Act.exec_bind, Act.exec_ofExcept, Act.exec_get, Function.iterate_succ_apply, advance]
  by_cases known : c.tables.contains name = true
  · rw [if_pos known, if_pos known]
    exact ⟨_, _, _, _, rfl, rfl, rfl⟩
  rw [if_neg known, if_neg known]
  simp only [Act.exec_bind, exec_onServer]
  rcases c.server.hasCollection name with ⟨_ | _, server⟩
  · simp only [Bool.not_false, if_true, Bool.false_eq_true, if_false, Act.exec_bind, Act.exec_note,
      exec_onServer]
    rcases server.createCollection name with ⟨why | _, server⟩
    · simp only [Act.exec_bind, exec_onServer]
      rcases server.hasCollection name with ⟨_ | _, server⟩
      · exact ⟨_, _, _, _, rfl, rfl, rfl⟩
      · exact ⟨_, _, _, _, rfl, rfl, rfl⟩
    · exact ⟨_, _, _, _, rfl, rfl, rfl⟩
  · exact ⟨_, _, _, _, rfl, rfl, rfl⟩

end Errand

/-! ## What an advance may do -/

/-- What an advance may do on a server that tells the truth about its collections and has decided on
the next creation: the stages before and after it, what it depends on and what it changes. -/
inductive Move (e : Errand) (name : Name) (outcome : CreateOutcome) (c c' : Connection) :
    Stage → Stage → Prop
  | known (remembered : c.tables.contains name = true) (same : c.Same c') :
      Move e name outcome c c' .entering .ready
  | unknown (forgotten : c.tables.contains name = false) (same : c.Same c') :
      Move e name outcome c c' .entering .looking
  | found (there : c.server.collections.contains name = true) (same : c.Same c') :
      Move e name outcome c c' .looking .remembering
  | missing (absent : c.server.collections.contains name = false) (same : c.Same c') :
      Move e name outcome c c' .looking .creating
  | created (agreed : outcome = .created) (gains : c.Gains name c') :
      Move e name outcome c c' .creating .remembering
  | lost {why : Failure} (raced : outcome = .race) (gains : c.Gains name c') :
      Move e name outcome c c' .creating (.rechecking why)
  | refused {why : Failure} (declined : outcome = .refused) (same : c.Same c') :
      Move e name outcome c c' .creating (.rechecking why)
  | foundLate {why : Failure} (there : c.server.collections.contains name = true)
      (same : c.Same c') : Move e name outcome c c' (.rechecking why) .remembering
  | stillMissing {why : Failure} (absent : c.server.collections.contains name = false)
      (same : c.Same c') : Move e name outcome c c' (.rechecking why) (.raised why)
  | remembered (learns : c.Learns name c') : Move e name outcome c c' .remembering .ready
  | served {answer : Except Failure (Option Record)} (log : Log)
      (answers : ((e.serve name).exec c log).1 = answer) (touched : c.Same c' ∨ c.Gains name c') :
      Move e name outcome c c' .ready (.done answer)

namespace Errand

variable (e : Errand) (name : Name)

/-- An errand in a collection makes no other one, and the store knows the same tables after it. -/
theorem serve_touches (c : Connection) (log : Log) :
    c.Same ((e.serve name).exec c log).2.1 ∨ c.Gains name ((e.serve name).exec c log).2.1 := by
  cases e with
  | ensure => exact .inl ⟨rfl, fun _ => rfl⟩
  | put now key record =>
    rw [serve, Act.exec_bind, Act.exec_ofExcept]
    cases key.toName with
    | error why => exact .inl ⟨rfl, fun _ => rfl⟩
    | ok key => exact .inr ⟨rfl, c.server.contains_insert name key _⟩
  | fetch key =>
    rw [serve, Act.exec_bind, Act.exec_ofExcept]
    cases key.toName with
    | error why => exact .inl ⟨rfl, fun _ => rfl⟩
    | ok key =>
      refine .inr ?_
      simp only [Act.exec_bind, exec_onServer]
      cases (c.server.get name key).1 with
      | none => exact ⟨rfl, c.server.contains_get name key⟩
      | some d => exact ⟨rfl, c.server.contains_get name key⟩
  | delete key =>
    rw [serve, Act.exec_bind, Act.exec_ofExcept]
    cases key.toName with
    | error why => exact .inl ⟨rfl, fun _ => rfl⟩
    | ok key => exact .inr ⟨rfl, c.server.contains_delete name key⟩

/-- An advance is one of the moves. -/
theorem move_advance {c : Connection} {stage : Stage} {outcome : CreateOutcome}
    (truthful : c.server.lookups = []) (decided : c.server.creations = [outcome])
    (unfinished : stage.answer? = none) (log : Log) :
    Move e name outcome c (e.advance name (stage, c, log)).2.1 stage
      (e.advance name (stage, c, log)).1 := by
  have still : c.Same { c with server := c.server.record (.hasCollection name) } :=
    ⟨rfl, fun _ => rfl⟩
  have asked : c.server.hasCollection name =
      (c.server.collections.contains name, c.server.record (.hasCollection name)) := by
    simp [Server.hasCollection, Server.record, truthful]
  cases stage with
  | entering =>
    rw [advance]
    split
    · next known => exact .known known ⟨rfl, fun _ => rfl⟩
    · next unknown => exact .unknown (by simpa using unknown) ⟨rfl, fun _ => rfl⟩
  | looking =>
    rw [advance, asked]
    dsimp only
    split
    · next there => exact .found there still
    · next absent => exact .missing (by simpa using absent) still
  | creating =>
    have next : c.server.creations.headD .created = outcome := by rw [decided, List.headD_cons]
    rw [advance, Server.createCollection]
    simp only [Server.record, next]
    cases outcome with
    | created => exact .created rfl ⟨rfl, Server.contains_withCollection_eq _ name⟩
    | race => exact .lost rfl ⟨rfl, Server.contains_withCollection_eq _ name⟩
    | refused => exact .refused rfl ⟨rfl, fun _ => rfl⟩
  | rechecking why =>
    rw [advance, asked]
    dsimp only
    split
    · next there => exact .foundLate there still
    · next absent => exact .stillMissing (by simpa using absent) still
  | remembering => exact .remembered ⟨rfl, fun _ => rfl⟩
  | ready => exact .served log rfl (e.serve_touches name c log)
  | raised why => cases unfinished
  | done answer => cases unfinished

end Errand

/-! ## What moves keep -/

namespace Move

variable {e : Errand} {name : Name} {outcome : CreateOutcome} {c c' : Connection}
  {stage stage' : Stage}

theorem left_lt (move : Move e name outcome c c' stage stage') : stage'.left < stage.left := by
  cases move <;> simp [Stage.left]

/-- The three things that a move may change. A store learns of a table only when it has seen the
collection. -/
theorem effect (move : Move e name outcome c c' stage stage') :
    c.Same c' ∨ c.Gains name c' ∨ stage = .remembering ∧ c.Learns name c' := by
  cases move with
  | known _ same => exact .inl same
  | unknown _ same => exact .inl same
  | found _ same => exact .inl same
  | missing _ same => exact .inl same
  | created _ gains => exact .inr (.inl gains)
  | lost _ gains => exact .inr (.inl gains)
  | refused _ same => exact .inl same
  | foundLate _ same => exact .inl same
  | stillMissing _ same => exact .inl same
  | remembered learns => exact .inr (.inr ⟨rfl, learns⟩)
  | served _ _ touched => exact touched.imp_right .inl

theorem contains_mono (move : Move e name outcome c c' stage stage') {n : Name}
    (there : c.server.collections.contains n = true) :
    c'.server.collections.contains n = true := by
  rcases move.effect with same | gains | ⟨-, learns⟩
  · rw [same.contains, there]
  · rw [gains.contains, there, Bool.or_true]
  · rw [learns.contains, there]

/-- A visit is sure of a collection only when it is there, if that was so before. -/
theorem contains_of_isSure (move : Move e name outcome c c' stage stage')
    (known : c.tables.contains name = true → c.server.collections.contains name = true)
    (sure : stage.IsSure → c.server.collections.contains name = true) (h : stage'.IsSure) :
    c'.server.collections.contains name = true := by
  have kept := move.contains_mono (n := name)
  cases move with
  | known remembered _ => exact kept (known remembered)
  | found there _ => exact kept there
  | created _ gains => rw [gains.contains, BEq.rfl, Bool.true_or]
  | foundLate there _ => exact kept there
  | remembered _ => exact kept (sure trivial)
  | served => exact kept (sure trivial)
  | unknown => cases h
  | missing => cases h
  | lost => cases h
  | refused => cases h
  | stillMissing => cases h

theorem contains_of_ready (move : Move e name outcome c c' stage .ready) :
    c'.tables.contains name = true := by
  cases move with
  | known remembered same => rw [same.tables, remembered]
  | remembered learns => simp [learns.tables]

/-- A visit asks again only after its creation failed, which may still have made the collection. -/
theorem of_rechecking {why : Failure} (move : Move e name outcome c c' stage (.rechecking why)) :
    outcome = .race ∧ c.Gains name c' ∨ outcome = .refused ∧ c.Same c' := by
  cases move with
  | lost raced gains => exact .inl ⟨raced, gains⟩
  | refused declined same => exact .inr ⟨declined, same⟩

theorem of_raised {why : Failure} (move : Move e name outcome c c' stage (.raised why)) :
    stage = .rechecking why ∧ c.server.collections.contains name = false ∧ c.Same c' := by
  cases move with
  | stillMissing absent same => exact ⟨rfl, absent, same⟩

theorem answer_of_ensure {answer : Except Failure (Option Record)}
    (move : Move .ensure name outcome c c' stage (.done answer)) : answer = .ok none := by
  cases move with
  | served log answers touched => exact answers.symm

end Move

end Store

end RecordSeal
