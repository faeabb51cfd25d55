import RecordSeal.Proofs.Act
import RecordSeal.Proofs.Catalog.History

set_option autoImplicit false

/-! # Registries with a history

A registry is told of types, works out mappings and forgets, in any order (`Registry.run`). A
registration replaces the mappings and the markers of its type whatever came before
(`Registry.alike_of_register`) and leaves those of other types alone. With tables it is different: a
registration without a table name replaces none, and a type has the table that was last named for it
since everything was last forgotten (`Registry.get?_tables_after`). -/

namespace RecordSeal

namespace Registry

/-! ## Calls -/

/-- What may be asked of a registry. -/
inductive Call where
  | register (id : ModelId) (given : Registration)
  | registerModel (id : ModelId)
  | fieldMappings (id : ModelId)
  | clear

namespace Call

/-- Does what is called for, with the types that there are. -/
def act (f : Forest) : Call → Act Registry Unit
  | register id given => Registry.register f id given
  | registerModel id => Registry.registerModel f id
  | fieldMappings id => do let _ ← Registry.fieldMappings f id
  | clear => Registry.clear

/-- The table that a call names for a type. -/
def tableFor (id : ModelId) : Call → Option Value
  | register other given =>
    if other = id ∧ given.table.isGiven = true then some given.table else none
  | _ => none

/-- Whether everything is forgotten by a call. -/
def forgets : Call → Bool
  | clear => true
  | _ => false

@[simp]
theorem forgets_register (id : ModelId) (given : Registration) :
    (register id given).forgets = false := rfl

end Call

/-- A registry and the log after calls, each with the types that there are then, whether they ended
well or failed. -/
def run (s : Registry × Log) (calls : List (Forest × Call)) : Registry × Log :=
  calls.foldl (fun s call => ((call.2.act call.1).exec s.1 s.2).2) s

/-- What calls make of an empty registry. -/
def after (calls : List (Forest × Call)) (log : Log) : Registry := (run ({}, log) calls).1

/-- The table that was last named for a type since everything was last forgotten. -/
def lastTable (id : ModelId) (calls : List (Forest × Call)) : Option Value :=
  (calls.reverse.takeWhile fun call => !call.2.forgets).findSome? fun call => call.2.tableFor id

/-! ## Tables -/

variable {id : ModelId}

theorem lastTable_append (id : ModelId) (calls : List (Forest × Call)) (f : Forest) (call : Call) :
    lastTable id (calls ++ [(f, call)]) =
      if call.forgets then none else (call.tableFor id).or (lastTable id calls) := by
  rw [lastTable, List.reverse_append, List.reverse_singleton, List.singleton_append,
    List.takeWhile_cons]
  cases call.forgets with
  | true => rfl
  | false =>
    rw [if_pos Bool.not_false, if_neg Bool.false_ne_true, List.findSome?_cons, lastTable]
    cases call.tableFor id <;> rfl

theorem lastTable_register (id other : ModelId) (calls : List (Forest × Call)) (f : Forest)
    (given : Registration) :
    lastTable id (calls ++ [(f, .register other given)]) =
      if other = id ∧ given.table.isGiven = true then some given.table
      else lastTable id calls := by
  rw [lastTable_append, Call.forgets_register, if_neg Bool.false_ne_true, Call.tableFor]
  split <;> rfl

theorem Call.get?_tables (call : Call) (f : Forest) (r : Registry) (log : Log) (id : ModelId) :
    (((call.act f).exec r log).2.1).tables.get? id =
      if call.forgets then none else (call.tableFor id).or (r.tables.get? id) := by
  cases call with
  | register other given =>
    obtain ⟨models, log', registered⟩ := Catalog.exec_register f other given r log
    rw [act, registered, forgets_register, if_neg Bool.false_ne_true, tableFor]
    dsimp only
    by_cases named : given.table.isGiven = true
    · rw [if_pos named, Assoc.get?_insert]
      by_cases same : other = id
      · simp [same, named]
      · simp [same]
    · simp [named]
  | registerModel other =>
    obtain ⟨models, log', named⟩ := Catalog.exec_registerModel f other r log
    rw [act, named]
    rfl
  | fieldMappings other =>
    obtain ⟨r', agrees, asked⟩ := exec_fieldMappings f other r log
    rw [act, Act.exec_silent, asked]
    exact congrArg (Assoc.get? · id) agrees.tables
  | clear => rfl

theorem run_append (s : Registry × Log) (calls : List (Forest × Call)) (f : Forest) (call : Call) :
    run s (calls ++ [(f, call)]) =
      ((call.act f).exec (run s calls).1 (run s calls).2).2 := by
  rw [run, List.foldl_append]
  rfl

theorem get?_tables_after (id : ModelId) (calls : List (Forest × Call)) (log : Log) :
    (after calls log).tables.get? id = lastTable id calls := by
  induction calls using List.reverseRecOn with
  | nil => rfl
  | append_singleton calls call ih =>
    obtain ⟨f, call⟩ := call
    rw [after, run_append, call.get?_tables, lastTable_append, ← ih]
    rfl

/-! ## The last registration -/

/-- Whether two registries answer alike about a type, its table apart, whatever types there are. -/
structure Alike (r r' : Registry) (id : ModelId) : Prop where
  mappings : ∀ f, r.mappingsOf f id = r'.mappingsOf f id
  markers : ∀ f, r.markersOf f id = r'.markersOf f id

theorem alike_of_get? {r r' : Registry} (mappings : r.mappings.get? id = r'.mappings.get? id)
    (markers : r.markers.get? id = r'.markers.get? id) : r.Alike r' id :=
  ⟨fun f => by rw [mappingsOf, mappingsOf, mappings],
    fun f => by rw [markersOf, markersOf, markers]⟩

theorem after_register (calls : List (Forest × Call)) (f : Forest) (id : ModelId)
    (given : Registration) (log : Log) :
    (after (calls ++ [(f, .register id given)]) log).mappings =
        (after calls log).mappings.insert id given.mappings ∧
      (after (calls ++ [(f, .register id given)]) log).markers =
        (after calls log).markers.insert id given.markers := by
  obtain ⟨models, log', registered⟩ :=
    Catalog.exec_register f id given (run ({}, log) calls).1 (run ({}, log) calls).2
  rw [after, run_append, Call.act, registered]
  exact ⟨rfl, rfl⟩

/-- Whatever two registries were told before, and whatever types there were, they answer alike about
a type that was then registered with both in the same way. -/
theorem alike_of_register (calls calls' : List (Forest × Call)) (f f' : Forest) (id : ModelId)
    (given : Registration) (log log' : Log) :
    (after (calls ++ [(f, .register id given)]) log).Alike
      (after (calls' ++ [(f', .register id given)]) log') id := by
  obtain ⟨mappings, markers⟩ := after_register calls f id given log
  obtain ⟨mappings', markers'⟩ := after_register calls' f' id given log'
  refine alike_of_get? ?_ ?_
  · rw [mappings, mappings', Assoc.get?_insert, Assoc.get?_insert, if_pos BEq.rfl, if_pos BEq.rfl]
  · rw [markers, markers', Assoc.get?_insert, Assoc.get?_insert, if_pos BEq.rfl, if_pos BEq.rfl]

/-- A registration leaves the answers about other types as they were, also about their tables. -/
theorem alike_of_register_other (calls : List (Forest × Call)) (f : Forest) {id other : ModelId}
    (apart : other ≠ id) (given : Registration) (log : Log) :
    (after (calls ++ [(f, .register id given)]) log).Alike (after calls log) other ∧
      ∀ g, (after (calls ++ [(f, .register id given)]) log).tableName g other =
        (after calls log).tableName g other := by
  obtain ⟨mappings, markers⟩ := after_register calls f id given log
  have different : ¬ (id == other) = true := fun same => apart (eq_of_beq same).symm
  refine ⟨alike_of_get? ?_ ?_, fun g => ?_⟩
  · rw [mappings, Assoc.get?_insert, if_neg different]
  · rw [markers, Assoc.get?_insert, if_neg different]
  · have named : lastTable other (calls ++ [(f, .register id given)]) = lastTable other calls := by
      rw [lastTable_register, if_neg fun same => apart same.1.symm]
    rw [tableName, tableName, get?_tables_after, get?_tables_after, named]

/-- A type has the table that its last registration names, else the one that was named before, else
its own. -/
theorem tableName_of_register (calls : List (Forest × Call)) (f : Forest) (id : ModelId)
    (given : Registration) (log : Log) (g : Forest) :
    (after (calls ++ [(f, .register id given)]) log).tableName g id =
      if given.table.isGiven then given.table
      else (lastTable id calls).getD ((g.tableOf id).orElse (.text (g.typeAt id).name)) := by
  rw [tableName, get?_tables_after, lastTable_register]
  by_cases named : given.table.isGiven = true
  · rw [if_pos ⟨rfl, named⟩, if_pos named]
  · rw [if_neg fun both => named both.2, if_neg named]
    cases lastTable id calls <;> rfl

end Registry

/-! ## Classification -/

/-- Registries that answer alike about a type have it classified alike. -/
theorem Provider.classified_alike {c c' : Catalog} {place place' : RegistryId} {id : ModelId}
    (forest : c.forest = c'.forest)
    (alike : (c.registryAt place).Alike (c'.registryAt place') id) :
    (Provider.registry place).classified c id = (Provider.registry place').classified c' id := by
  have markers : (Provider.registry place).markers c id =
      (Provider.registry place').markers c' id := by
    rw [Provider.markers, Provider.markers, forest, alike.markers]
  have mappings : (Provider.registry place).mappingsOf c id =
      (Provider.registry place').mappingsOf c' id := by
    rw [Provider.mappingsOf, Provider.mappingsOf, forest, alike.mappings]
  rw [Provider.classified, Provider.classified, markers, mappings]

end RecordSeal
