import Mathlib.Algebra.GroupWithZero.Nat
import Mathlib.Logic.Function.Basic
import Mathlib.Logic.Relation
import RecordSeal.Proofs.Store.Visit
import RecordSeal.Session

set_option autoImplicit false

/-! # Stores that race for collections

Any number of stores visit collections of one server, and any of them may have its turn next
(`Step`). What holds however the turns fall is an invariant of the step: the tables that a store
knows have collections, and a visit that goes on to its errand finds its collection there
(`Crowd.Sound`). A server decides what a creation does by its temper. One that refuses just the
collections that are there fails no visit and creates each collection once (`Crowd.Calm`); another
one may fail a visit, but then the collection is missing and the store does not take it for known
(`Crowd.creation_tolerates_races`). -/

namespace RecordSeal.Store

/-- One operation of a store under way. -/
structure Visit where
  store : StoreId
  table : Name
  errand : Errand
  stage : Stage := .entering

/-- Who is under way, where and what for. -/
def Visit.task (v : Visit) : StoreId × Name × Errand := (v.store, v.table, v.errand)

/-- The table whose creation succeeds if the visit goes on to a stage. -/
def Visit.creation (v : Visit) (stage : Stage) : List Name :=
  match v.stage, stage with
  | .creating, .remembering => [v.table]
  | _, _ => []

/-- Stores that share a server, and their operations under way. -/
structure Crowd where
  server : Server
  /-- The tables that each store knows. -/
  known : StoreId → List Name
  visits : List Visit
  log : Log := {}
  /-- The tables of the creations that succeeded, in their order. -/
  created : List Name := []

/-- What a server may decide about the creation of a collection. -/
abbrev Temper := Server → Name → CreateOutcome → Prop

namespace Temper

/-- To refuse it just if the collection is there. -/
def plain : Temper := fun s table outcome =>
  outcome = if s.collections.contains table then .refused else .created

/-- To refuse it if the collection is there, and maybe for other reasons. -/
def moody : Temper := fun s table outcome =>
  s.collections.contains table = true → outcome ≠ .created

end Temper

namespace Crowd

/-- Whether the collection of a table is there. -/
def has (c : Crowd) (table : Name) : Bool := c.server.collections.contains table

/-- Whether a store knows a table. -/
def knows (c : Crowd) (store : StoreId) (table : Name) : Bool := (c.known store).contains table

/-- The server as a store sees it: asked for collections it tells the truth, and what the next
creation does is decided. -/
def connection (c : Crowd) (store : StoreId) (outcome : CreateOutcome) : Connection where
  server := { c.server with lookups := [], creations := [outcome] }
  tables := c.known store

/-- The turn of a visit. -/
def turn (c : Crowd) (i : Nat) (v : Visit) (outcome : CreateOutcome) : Crowd :=
  let (stage, after, log) :=
    v.errand.advance v.table (v.stage, c.connection v.store outcome, c.log)
  { server := after.server
    known := Function.update c.known v.store after.tables
    visits := c.visits.set i { v with stage }
    log
    created := c.created ++ v.creation stage }

/-- How many turns are left at most. -/
def left (c : Crowd) : Nat := (c.visits.map (·.stage.left)).sum

/-- Whether all visits are about to begin and stores know only tables whose collections are there.
-/
structure Fresh (c : Crowd) : Prop where
  entering : ∀ v ∈ c.visits, v.stage = .entering
  known : ∀ store table, c.knows store table = true → c.has table = true
  created : c.created = []

end Crowd

/-- The visit at a place has its turn. -/
inductive Step (temper : Temper) (i : Nat) (c : Crowd) : Crowd → Prop
  | turn {v : Visit} {outcome : CreateOutcome} (here : c.visits[i]? = some v)
      (unfinished : v.stage.answer? = none) (allowed : temper c.server v.table outcome) :
      Step temper i c (c.turn i v outcome)

/-- Visits have their turns, in any order. -/
def Reaches (temper : Temper) : Crowd → Crowd → Prop :=
  Relation.ReflTransGen fun c c' => ∃ i, Step temper i c c'

/-- Whether no visit can go on. -/
def Crowd.Still (temper : Temper) (c : Crowd) : Prop := ∀ i c', ¬ Step temper i c c'

/-! ## One turn -/

theorem sum_map_set_lt {α : Type} (f : α → Nat) {l : List α} {i : Nat} {a b : α}
    (here : l[i]? = some a) (less : f b < f a) : ((l.set i b).map f).sum < (l.map f).sum := by
  induction l generalizing i with
  | nil => cases here
  | cons x l ih =>
    cases i with
    | zero =>
      obtain rfl := Option.some.inj here
      simpa using less
    | succ i => simpa using ih here

/-- What a turn is: a move of one visit through the connection of its store. -/
structure Turn (temper : Temper) (i : Nat) (c c' : Crowd) (v : Visit) (outcome : CreateOutcome)
    (stage : Stage) : Prop where
  here : c.visits[i]? = some v
  allowed : temper c.server v.table outcome
  move : Move v.errand v.table outcome (c.connection v.store outcome) ⟨c'.server, c'.known v.store⟩
    v.stage stage
  visits : c'.visits = c.visits.set i { v with stage }
  others : ∀ store, store ≠ v.store → c'.known store = c.known store
  created : c'.created = c.created ++ v.creation stage

theorem Step.exists_turn {temper : Temper} {i : Nat} {c c' : Crowd} (step : Step temper i c c') :
    ∃ v outcome stage, Turn temper i c c' v outcome stage := by
  cases step with
  | @turn v outcome here unfinished allowed =>
    have move :=
      v.errand.move_advance v.table (c := c.connection v.store outcome) rfl rfl unfinished
      c.log
    refine ⟨v, outcome, _, here, allowed, ?_, rfl, ?_, rfl⟩
    · have own : (c.turn i v outcome).known v.store = _ := Function.update_self ..
      rw [own]
      exact move
    · intro store other
      exact Function.update_of_ne other ..

namespace Turn

variable {temper : Temper} {i : Nat} {c c' : Crowd} {v : Visit} {outcome : CreateOutcome}
  {stage : Stage} (t : Turn temper i c c' v outcome stage)

include t

theorem index_lt : i < c.visits.length := (List.getElem?_eq_some_iff.1 t.here).1

theorem mem : v ∈ c.visits := List.mem_of_getElem? t.here

theorem here_after : c'.visits[i]? = some { v with stage } := by
  rw [t.visits, List.getElem?_set_self t.index_lt]

theorem mem_after {w : Visit} (hw : w ∈ c'.visits) : w ∈ c.visits ∨ w = { v with stage } := by
  rw [t.visits] at hw
  exact List.mem_or_eq_of_mem_set hw

theorem has_mono {table : Name} (there : c.has table = true) : c'.has table = true :=
  t.move.contains_mono there

/-- What a store knows after a turn, it knew before, or it was told so by a visit that was sure. -/
theorem knows_after {store : StoreId} {table : Name} (known : c'.knows store table = true) :
    c.knows store table = true ∨ v.stage = .remembering ∧ (v.table == table) = true := by
  by_cases own : store = v.store
  · subst own
    rcases t.move.effect with same | gains | ⟨sure, learns⟩
    · exact .inl ((congrArg (·.contains table) same.tables).symm.trans known)
    · exact .inl ((congrArg (·.contains table) gains.tables).symm.trans known)
    · have either := (congrArg (·.contains table) learns.tables).symm.trans known
      simp only [List.contains_append, List.contains_cons, List.contains_nil, Bool.or_false,
        Bool.or_eq_true] at either
      exact either.imp_right fun told => ⟨sure, BEq.symm told⟩
  · rw [Crowd.knows, t.others store own] at known
    exact .inl known

theorem knows_mono {store : StoreId} {table : Name} (known : c.knows store table = true) :
    c'.knows store table = true := by
  by_cases own : store = v.store
  · subst own
    rcases t.move.effect with same | gains | ⟨-, learns⟩
    · exact (congrArg (·.contains table) same.tables).trans known
    · exact (congrArg (·.contains table) gains.tables).trans known
    · refine (congrArg (·.contains table) learns.tables).trans ?_
      simp only [List.contains_append, Bool.or_eq_true]
      exact .inl known
  · rw [Crowd.knows, t.others store own]
    exact known

theorem knows_of_ready (ready : stage = .ready) : c'.knows v.store v.table = true := by
  subst ready
  exact t.move.contains_of_ready

theorem task_eq : c'.visits.map Visit.task = c.visits.map Visit.task := by
  rw [t.visits, List.map_set]
  apply List.ext_getElem?
  intro j
  by_cases own : i = j
  · subst own
    rw [List.getElem?_set_self (by simpa using t.index_lt), List.getElem?_map, t.here]
    rfl
  · rw [List.getElem?_set_ne own]

theorem left_lt : c'.left < c.left := by
  rw [Crowd.left, Crowd.left, t.visits]
  exact sum_map_set_lt (fun w : Visit => w.stage.left) t.here t.move.left_lt

end Turn

/-! ## What holds after every turn -/

namespace Crowd

/-- What holds whatever the server decides: stores know only collections that are there, a visit
that is sure of its collection is right, one that goes on to its errand has told its store, and one
that was only to make sure ends well. -/
structure Sound (c : Crowd) : Prop where
  known : ∀ store table, c.knows store table = true → c.has table = true
  sure : ∀ v ∈ c.visits, v.stage.IsSure → c.has v.table = true
  ready : ∀ v ∈ c.visits, v.stage = .ready → c.knows v.store v.table = true
  ensured : ∀ v ∈ c.visits, v.errand = .ensure → ∀ answer, v.stage = .done answer →
    answer = .ok none

theorem Fresh.sound {c : Crowd} (fresh : c.Fresh) : c.Sound := by
  refine ⟨fresh.known, ?_, ?_, ?_⟩
  · intro v hv sure
    rw [fresh.entering v hv] at sure
    cases sure
  · intro v hv ready
    rw [fresh.entering v hv] at ready
    cases ready
  · intro v hv _ answer done
    rw [fresh.entering v hv] at done
    cases done

theorem has_congr (c : Crowd) {table other : Name} (same : (table == other) = true) :
    c.has table = c.has other := Assoc.contains_congr _ same

end Crowd

namespace Turn

variable {temper : Temper} {i : Nat} {c c' : Crowd} {v : Visit} {outcome : CreateOutcome}
  {stage : Stage} (t : Turn temper i c c' v outcome stage)

include t

theorem sound (sound : c.Sound) : c'.Sound := by
  constructor
  · intro store table known
    rcases t.knows_after known with known | ⟨remembering, same⟩
    · exact t.has_mono (sound.known store table known)
    · rw [← c'.has_congr same]
      exact t.has_mono (sound.sure v t.mem (by rw [remembering]; trivial))
  · intro w hw sure
    rcases t.mem_after hw with old | rfl
    · exact t.has_mono (sound.sure w old sure)
    · exact t.move.contains_of_isSure (sound.known v.store v.table) (sound.sure v t.mem) sure
  · intro w hw ready
    rcases t.mem_after hw with old | rfl
    · exact t.knows_mono (sound.ready w old ready)
    · exact t.knows_of_ready ready
  · intro w hw ensure answer done
    rcases t.mem_after hw with old | rfl
    · exact sound.ensured w old ensure answer done
    · have move := t.move
      have errand : v.errand = .ensure := ensure
      have after : stage = .done answer := done
      rw [errand, after] at move
      exact move.answer_of_ensure

/-- A visit fails only if its collection is missing, and then its store does not know the table. -/
theorem missing_of_raised (sound : c.Sound) {why : Failure} (raised : stage = .raised why) :
    c'.has v.table = false ∧ c'.knows v.store v.table = false := by
  have absent : c'.has v.table = false := by
    subst raised
    obtain ⟨-, absent, same⟩ := t.move.of_raised
    exact (same.contains v.table).trans absent
  refine ⟨absent, ?_⟩
  by_contra known
  rw [Bool.not_eq_false] at known
  rw [(t.sound sound).known _ _ known] at absent
  cases absent

end Turn

/-! ## A server that refuses just what is there -/

namespace Crowd

/-- What holds on such a server beside: a refused visit finds the collection, no visit fails, and
the creations that succeed are those of the collections that are new. -/
structure Calm (start c : Crowd) : Prop where
  rechecking : ∀ v ∈ c.visits, ∀ why, v.stage = .rechecking why → c.has v.table = true
  spared : ∀ v ∈ c.visits, ∀ why, v.stage ≠ .raised why
  kept : ∀ table, start.has table = true → c.has table = true
  created : ∀ table, c.created.count table = if !start.has table && c.has table then 1 else 0

theorem Fresh.calm {c : Crowd} (fresh : c.Fresh) : c.Calm c := by
  refine ⟨?_, ?_, fun _ there => there, ?_⟩
  · intro v hv why at_
    rw [fresh.entering v hv] at at_
    cases at_
  · intro v hv why at_
    rw [fresh.entering v hv] at at_
    cases at_
  · intro table
    simp [fresh.created]

end Crowd

namespace Turn

variable {i : Nat} {c c' : Crowd} {v : Visit} {outcome : CreateOutcome} {stage : Stage}
  (t : Turn .plain i c c' v outcome stage)

include t

/-- A turn creates a collection that was missing, or all collections stay as they are. -/
theorem creates_or_keeps (sound : c.Sound) :
    v.creation stage = [v.table] ∧ c.has v.table = false ∧
      (∀ n, c'.has n = (v.table == n || c.has n)) ∨
    v.creation stage = [] ∧ ∀ n, c'.has n = c.has n := by
  have sure := sound.sure v t.mem
  have allowed : outcome = if c.has v.table then .refused else .created := t.allowed
  have same (h : (c.connection v.store outcome).Same ⟨c'.server, c'.known v.store⟩) :
      ∀ n, c'.has n = c.has n := h.contains
  have gains (h : (c.connection v.store outcome).Gains v.table ⟨c'.server, c'.known v.store⟩) :
      ∀ n, c'.has n = (v.table == n || c.has n) := h.contains
  have move := t.move
  unfold Visit.creation
  generalize v.stage = before at move sure
  cases move with
  | created agreed grown =>
    refine .inl ⟨rfl, ?_, gains grown⟩
    by_contra there
    rw [allowed, if_pos (by simpa using there)] at agreed
    cases agreed
  | lost raced _ =>
    rw [allowed] at raced
    split at raced <;> cases raced
  | served _ _ touched =>
    refine .inr ⟨rfl, ?_⟩
    rcases touched with kept | grown
    · exact same kept
    · intro n
      rw [gains grown n]
      cases other : v.table == n with
      | false => rfl
      | true => rw [← c.has_congr other, sure trivial]; rfl
  | known _ kept => exact .inr ⟨rfl, same kept⟩
  | unknown _ kept => exact .inr ⟨rfl, same kept⟩
  | found _ kept => exact .inr ⟨rfl, same kept⟩
  | missing _ kept => exact .inr ⟨rfl, same kept⟩
  | refused _ kept => exact .inr ⟨rfl, same kept⟩
  | foundLate _ kept => exact .inr ⟨rfl, same kept⟩
  | stillMissing _ kept => exact .inr ⟨rfl, same kept⟩
  | remembered learns => exact .inr ⟨rfl, learns.contains⟩

theorem has_of_rechecking {why : Failure} (rechecking : stage = .rechecking why) :
    c'.has v.table = true := by
  have allowed : outcome = if c.has v.table then .refused else .created := t.allowed
  subst rechecking
  rcases t.move.of_rechecking with ⟨-, gains⟩ | ⟨declined, same⟩
  · exact (gains.contains v.table).trans (by simp)
  · refine (same.contains v.table).trans ?_
    by_contra absent
    have absent : ¬ c.has v.table = true := absent
    rw [allowed, if_neg absent] at declined
    cases declined

theorem calm {start : Crowd} (sound : c.Sound) (calm : start.Calm c) : start.Calm c' := by
  refine ⟨?_, ?_, fun table there => t.has_mono (calm.kept table there), ?_⟩
  · intro w hw why rechecking
    rcases t.mem_after hw with old | rfl
    · exact t.has_mono (calm.rechecking w old why rechecking)
    · exact t.has_of_rechecking rechecking
  · intro w hw why raised
    rcases t.mem_after hw with old | rfl
    · exact calm.spared w old why raised
    · have raised : stage = .raised why := raised
      subst raised
      obtain ⟨rechecking, absent, -⟩ := t.move.of_raised
      have absent : c.has v.table = false := absent
      rw [calm.rechecking v t.mem why rechecking] at absent
      cases absent
  · intro table
    have before := calm.created table
    rcases t.creates_or_keeps sound with ⟨created, absent, grown⟩ | ⟨none, same⟩
    · rw [t.created, created, List.count_append, before, grown, List.count_singleton]
      cases own : v.table == table with
      | false => simp
      | true =>
        rw [c.has_congr own] at absent
        have new : start.has table = false := by
          by_contra old
          rw [calm.kept table (by simpa using old)] at absent
          cases absent
        simp [new, absent]
    · rw [t.created, none, List.append_nil, before, same]

end Turn

/-! ## Turns in any order -/

section Runs

variable {temper : Temper} {start c c' : Crowd}

theorem Temper.moody_of_plain {s : Server} {table : Name} {outcome : CreateOutcome}
    (h : plain s table outcome) : moody s table outcome := by
  intro there
  rw [h, if_pos there]
  simp

theorem Reaches.moody (run : Reaches .plain c c') : Reaches .moody c c' := by
  refine Relation.ReflTransGen.mono ?_ _ _ run
  rintro c c' ⟨i, ⟨here, unfinished, allowed⟩⟩
  exact ⟨i, .turn here unfinished (Temper.moody_of_plain allowed)⟩

theorem Reaches.sound (run : Reaches temper start c) (sound : start.Sound) : c.Sound := by
  induction run with
  | refl => exact sound
  | tail _ step ih =>
    obtain ⟨i, step⟩ := step
    obtain ⟨v, outcome, stage, t⟩ := step.exists_turn
    exact t.sound ih

theorem Reaches.task_eq (run : Reaches temper start c) :
    c.visits.map Visit.task = start.visits.map Visit.task := by
  induction run with
  | refl => rfl
  | tail _ step ih =>
    obtain ⟨i, step⟩ := step
    obtain ⟨v, outcome, stage, t⟩ := step.exists_turn
    rw [t.task_eq, ih]

theorem Reaches.calm (run : Reaches .plain start c) (fresh : start.Fresh) : start.Calm c := by
  induction run with
  | refl => exact fresh.calm
  | tail before step ih =>
    obtain ⟨i, step⟩ := step
    obtain ⟨v, outcome, stage, t⟩ := step.exists_turn
    exact t.calm (Reaches.sound before fresh.sound) ih

theorem Step.left_lt {i : Nat} (step : Step temper i c c') : c'.left < c.left := by
  obtain ⟨v, outcome, stage, t⟩ := step.exists_turn
  exact t.left_lt

/-- A visit that has not ended can go on, as the server decides somehow. -/
theorem Crowd.Still.answer?_isSome (still : c.Still temper)
    (decides : ∀ s table, ∃ outcome, temper s table outcome) {v : Visit} (hv : v ∈ c.visits) :
    v.stage.answer?.isSome = true := by
  obtain ⟨i, here⟩ := List.mem_iff_getElem?.1 hv
  obtain ⟨outcome, allowed⟩ := decides c.server v.table
  cases unfinished : v.stage.answer? with
  | some answer => rfl
  | none => exact absurd (.turn here unfinished allowed) (still i _)

theorem Temper.plain_decides (s : Server) (table : Name) : ∃ outcome, plain s table outcome :=
  ⟨_, rfl⟩

theorem Temper.moody_decides (s : Server) (table : Name) : ∃ outcome, moody s table outcome :=
  ⟨.refused, fun _ => by simp⟩

/-- However the turns fall, they come to an end. -/
theorem exists_still (temper : Temper) (c : Crowd) :
    ∃ c', Reaches temper c c' ∧ c'.Still temper := by
  by_cases still : c.Still temper
  · exact ⟨c, .refl, still⟩
  · simp only [Crowd.Still, not_forall, not_not] at still
    obtain ⟨i, next, step⟩ := still
    obtain ⟨c', run, last⟩ := exists_still temper next
    exact ⟨c', .head ⟨i, step⟩ run, last⟩
termination_by c.left
decreasing_by exact step.left_lt

end Runs

/-! ## Races -/

/-- Stores that make sure of collections at the same time, whatever the order of their calls.

If the server may refuse creations for any reason, the tables that a store knows have collections at
any time, and so has the table of a visit that goes on to its errand. Every turn is a step towards
the end, at which each visit has an answer. A visit gets ready in its turn only if its collection is
there, and then its store knows the table; if it fails, the collection is missing and its store does
not.

If the server refuses just the creation of collections that are there, no visit is refused. At the
end all have done their errands in collections that are there, those that were only to make sure of
them ended well, and every collection that was missing before was created once.

Each visit is an operation of a store, cut at its calls. -/
theorem creation_tolerates_races {c : Crowd} (fresh : c.Fresh) :
    (∀ c', Reaches .moody c c' →
      c'.visits.map Visit.task = c.visits.map Visit.task ∧
      (∀ store table, c'.knows store table = true → c'.has table = true) ∧
      (∀ v ∈ c'.visits, v.stage = .ready → c'.has v.table = true) ∧
      (∀ i c'', Step .moody i c' c'' → c''.left < c'.left ∧ ∀ v, c''.visits[i]? = some v →
        (v.stage = .ready → c''.has v.table = true ∧ c''.knows v.store v.table = true) ∧
        ∀ why, v.stage = .raised why →
          c''.has v.table = false ∧ c''.knows v.store v.table = false) ∧
      (c'.Still .moody → ∀ v ∈ c'.visits, v.stage.answer?.isSome = true)) ∧
    (∀ c', Reaches .plain c c' →
      Reaches .moody c c' ∧
      (∀ v ∈ c'.visits, ∀ why, v.stage ≠ .raised why) ∧
      (∀ table, c'.created.count table = if !c.has table && c'.has table then 1 else 0) ∧
      (c'.Still .plain → ∀ v ∈ c'.visits, c'.has v.table = true ∧
        ∃ answer, v.stage = .done answer ∧ (v.errand = .ensure → answer = .ok none))) ∧
    ∀ (e : Errand) (table : Value) (name : Name), table.toName = .ok name →
      ∀ (connection : Connection) (log : Log), ∃ stage answer connection' log',
        (e.advance name)^[6] (.entering, connection, log) = (stage, connection', log') ∧
        stage.answer? = some answer ∧
        (e.whole table).exec connection log = (answer, connection', log') := by
  refine ⟨?_, ?_, fun e _ _ named connection log => e.exec_whole named connection log⟩
  · intro c' run
    have sound := run.sound fresh.sound
    refine ⟨run.task_eq, sound.known,
      fun v hv ready => sound.sure v hv (by rw [ready]; trivial), ?_,
      fun still v hv => still.answer?_isSome Temper.moody_decides hv⟩
    intro i c'' step
    obtain ⟨v, outcome, stage, t⟩ := step.exists_turn
    refine ⟨t.left_lt, ?_⟩
    intro w here
    obtain rfl : { v with stage } = w := Option.some.inj (t.here_after.symm.trans here)
    have after := t.sound sound
    refine ⟨?_, fun why raised => t.missing_of_raised sound raised⟩
    intro ready
    have known := t.knows_of_ready ready
    exact ⟨after.known _ _ known, known⟩
  · intro c' run
    have calm := run.calm fresh
    refine ⟨run.moody, calm.spared, calm.created, ?_⟩
    intro still v hv
    have sound := run.sound fresh.sound
    have answered := still.answer?_isSome Temper.plain_decides hv
    have spared := calm.spared v hv
    have sure := sound.sure v hv
    have ensured := sound.ensured v hv
    generalize v.stage = stage at answered spared sure ensured
    cases stage with
    | done answer => exact ⟨sure trivial, answer, rfl, fun ensure => ensured ensure answer rfl⟩
    | raised why => exact absurd rfl (spared why)
    | _ => cases answered

/-- Two stores that are about to create the same collection. -/
def rivals : Crowd where
  server := {}
  known := fun _ => []
  visits := [{ store := ⟨0⟩, table := "t", errand := .ensure },
    { store := ⟨1⟩, table := "t", errand := .delete (.text "k") }]

/-- However their turns fall, both go on to their errands, and the collection is created once. -/
theorem creation_tolerates_races_sample : rivals.Fresh ∧ (∃ c', Reaches .plain rivals c' ∧
      c'.Still .plain) ∧ ∀ c', Reaches .plain rivals c' → c'.Still .plain →
      (∀ v ∈ c'.visits, ∃ answer, v.stage = .done answer ∧
        (v.errand = .ensure → answer = .ok none)) ∧ c'.created.count (.text "t") = 1 := by
  have fresh : rivals.Fresh := by
    refine ⟨by simp [rivals], ?_, rfl⟩
    intro store table known
    cases known
  refine ⟨fresh, exists_still .plain rivals, ?_⟩
  intro c' run still
  obtain ⟨tasks, -⟩ := (creation_tolerates_races fresh).1 c' run.moody
  obtain ⟨-, -, created, last⟩ := (creation_tolerates_races fresh).2.1 c' run
  refine ⟨fun v hv => (last still v hv).2, ?_⟩
  have task : (⟨0⟩, .text "t", .ensure) ∈ c'.visits.map Visit.task := tasks ▸ List.mem_cons_self
  obtain ⟨v, hv, task⟩ := List.mem_map.1 task
  have there : c'.has (.text "t") = true := by
    have own : v.table = .text "t" := congrArg (·.2.1) task
    rw [← own]
    exact (last still v hv).1
  rw [created, there]
  rfl

end RecordSeal.Store
