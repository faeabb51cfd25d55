import RecordSeal.Proofs.Table
import RecordSeal.Store.Client

set_option autoImplicit false

/-! # What stores do to a server

A server is obliging if it tells the truth about its collections and refuses to create none. On
such a server every operation of a store succeeds, but for looking up a missing document, and
changes at most the document it is about. -/

namespace RecordSeal

namespace Server

/-- Whether a server answers look-ups with the truth and creates every collection. -/
structure Obliging (s : Server) : Prop where
  lookups : s.lookups = []
  creations : .refused ∉ s.creations

theorem documents_insert (s : Server) (table key : Name) (d : Document) (n : Name) :
    (s.insert table key d).documents n =
      if table == n then (s.documents table).insert key d else s.documents n := by
  rw [insert, documents, Assoc.get?_insert]
  split <;> rfl

theorem documents_delete (s : Server) (table key n : Name) :
    (s.delete table key).documents n =
      if table == n then (s.documents table).erase key else s.documents n := by
  rw [delete, documents, Assoc.get?_insert]
  split <;> rfl

@[simp] theorem documents_record (s : Server) (call : ServerCall) (n : Name) :
    (s.record call).documents n = s.documents n := rfl

/-- A new collection has no documents. -/
@[simp] theorem documents_withCollection (s : Server) (table n : Name) :
    (s.withCollection table).documents n = s.documents n := by
  unfold withCollection
  split
  · rfl
  · next absent =>
    rw [documents, Assoc.get?_insert]
    split
    · next same =>
      rw [documents, ← Assoc.get?_congr s.collections same,
        Assoc.get?_of_not_contains (by simpa using absent)]
      rfl
    · rfl

theorem contains_withCollection_eq (s : Server) (table n : Name) :
    (s.withCollection table).collections.contains n =
      (table == n || s.collections.contains n) := by
  unfold withCollection
  split
  · next there =>
    cases same : table == n with
    | false => rfl
    | true => rw [← Assoc.contains_congr _ same, there, Bool.true_or]
  · exact Assoc.contains_insert ..

theorem contains_withCollection (s : Server) (table : Name) :
    (s.withCollection table).collections.contains table = true := by
  rw [contains_withCollection_eq, BEq.rfl, Bool.true_or]

theorem contains_insert (s : Server) (table key : Name) (d : Document) (n : Name) :
    (s.insert table key d).collections.contains n = (table == n || s.collections.contains n) :=
  Assoc.contains_insert ..

theorem contains_get (s : Server) (table key n : Name) :
    (s.get table key).2.collections.contains n = (table == n || s.collections.contains n) :=
  contains_withCollection_eq (s.record (.get table key)) table n

theorem contains_delete (s : Server) (table key n : Name) :
    (s.delete table key).collections.contains n = (table == n || s.collections.contains n) :=
  Assoc.contains_insert ..

theorem withCollection_obliging {s : Server} (h : s.Obliging) (table : Name) :
    (s.withCollection table).Obliging := by
  unfold withCollection
  split
  · exact h
  · exact ⟨h.lookups, h.creations⟩

theorem get_obliging {s : Server} (h : s.Obliging) (table key : Name) :
    (s.get table key).2.Obliging := by
  have asked : (s.record (.get table key)).Obliging := ⟨h.lookups, h.creations⟩
  exact withCollection_obliging asked table

theorem documents_get (s : Server) (table key n : Name) :
    (s.get table key).2.documents n = s.documents n := by
  simp [get]

theorem get_fst (s : Server) (table key : Name) :
    (s.get table key).1 = (s.documents table).get? key := by
  simp [get]

theorem hasCollection_obliging {s : Server} (h : s.Obliging) (table : Name) :
    s.hasCollection table =
      (s.collections.contains table, s.record (.hasCollection table)) := by
  unfold hasCollection
  dsimp only
  split
  · next answer rest found =>
    have none : (s.record (.hasCollection table)).lookups = [] := h.lookups
    rw [none] at found
    cases found
  · rfl

/-- A collection that an obliging server was asked to create is there, even if somebody else
created it. -/
theorem createCollection_obliging {s : Server} (h : s.Obliging) (table : Name) :
    (s.createCollection table).2.Obliging ∧
      (s.createCollection table).2.collections.contains table = true ∧
      ∀ n, (s.createCollection table).2.documents n = s.documents n := by
  have left : ({ s.record (.createCollection table) with
      creations := s.creations.tail } : Server).Obliging :=
    ⟨h.lookups, fun refused => h.creations (List.mem_of_mem_tail refused)⟩
  have outcome : s.creations.headD .created ≠ .refused := by
    cases creations : s.creations with
    | nil => simp
    | cons first rest =>
      intro refused
      refine h.creations ?_
      rw [creations, List.mem_cons]
      exact .inl refused.symm
  have made := withCollection_obliging left table
  have there := contains_withCollection
    { s.record (.createCollection table) with creations := s.creations.tail } table
  have same (n : Name) := documents_withCollection
    { s.record (.createCollection table) with creations := s.creations.tail } table n
  unfold createCollection
  dsimp only
  split
  · exact ⟨made, there, same⟩
  · exact ⟨made, there, same⟩
  · next refused => exact absurd refused outcome

end Server

namespace Store

@[simp] theorem exec_onServer {α : Type} (f : Server → α × Server) (c : Connection) (log : Log) :
    (onServer f).exec c log = (.ok (f c.server).1, { c with server := (f c.server).2 }, log) := rfl

theorem toName_of_ensureTable {table : Value} {name : Name} {c c' : Connection} {log log' : Log}
    (h : (ensureTable table).exec c log = (.ok name, c', log')) : table.toName = .ok name := by
  obtain ⟨n, c₁, log₁, named, h⟩ := Act.exec_bind_eq_ok h
  rw [Act.exec_ofExcept, Prod.mk.injEq] at named
  suffices same : n = name from same ▸ named.1
  have done {c : Connection} {log : Log} (h : (do
      modify fun (c : Connection) => { c with tables := c.tables ++ [n] }
      return n : Act Connection Name).exec c log = (.ok name, c', log')) : n = name := by
    cases h
    rfl
  rw [Act.exec_bind, Act.exec_get] at h
  dsimp only at h
  split at h
  · cases h
    rfl
  obtain ⟨known, c₂, log₂, -, h⟩ := Act.exec_bind_eq_ok h
  split at h
  · obtain ⟨_, c₃, log₃, -, h⟩ := Act.exec_bind_eq_ok h
    obtain ⟨created, c₄, log₄, -, h⟩ := Act.exec_bind_eq_ok h
    split at h
    · exact done h
    · obtain ⟨known', c₅, log₅, -, h⟩ := Act.exec_bind_eq_ok h
      split at h
      · cases h
      · obtain ⟨_, c₆, log₆, -, h⟩ := Act.exec_bind_eq_ok h
        exact done h
  · exact done h

/-- Whatever the server answers: a record that was stored is found under its key. -/
theorem get?_of_put {table : Value} {now : Timestamp} {key : String} {record : Record}
    {c c' : Connection} {log log' : Log}
    (h : (put now table (.text key) record).exec c log = (.ok (), c', log')) :
    ∃ name, table.toName = .ok name ∧
      (c'.server.documents name).get? (.text key) = some ⟨now.text, record⟩ := by
  obtain ⟨name, c₁, log₁, ensured, h⟩ := Act.exec_bind_eq_ok h
  refine ⟨name, toName_of_ensureTable ensured, ?_⟩
  cases h
  rw [Server.documents_insert, if_pos BEq.rfl, Assoc.get?_insert, if_pos BEq.rfl]

variable {table : Value} {name : Name} (named : table.toName = .ok name) {c : Connection}
  (obliging : c.server.Obliging) (log : Log)

include named obliging

/-- The collection of a table is found or made, and no document changes. -/
theorem exec_ensureTable :
    ∃ c' log', c'.server.Obliging ∧ (∀ n, c'.server.documents n = c.server.documents n) ∧
      (ensureTable table).exec c log = (.ok name, c', log') := by
  unfold ensureTable
  rw [named, Act.exec_bind, Act.exec_ofExcept]
  dsimp only
  rw [Act.exec_bind, Act.exec_get]
  dsimp only
  split
  · exact ⟨c, log, obliging, fun _ => rfl, rfl⟩
  rw [Act.exec_bind, exec_onServer, Server.hasCollection_obliging obliging]
  dsimp only
  have asked : (c.server.record (.hasCollection name)).Obliging :=
    ⟨obliging.lookups, obliging.creations⟩
  split
  · obtain ⟨created, there, same⟩ := Server.createCollection_obliging asked name
    simp only [Act.exec_bind, Act.exec_note, exec_onServer]
    cases result : (c.server.record (.hasCollection name)).createCollection name with
    | mk answer server =>
      rw [result] at created there same
      cases answer with
      | ok done =>
        exact ⟨{ c with server, tables := c.tables ++ [name] }, _, created, same, rfl⟩
      | error why =>
        -- Somebody else was faster; now the collection is there.
        simp only [Act.exec_bind, exec_onServer, Server.hasCollection_obliging created, there]
        exact ⟨{ server := server.record (.hasCollection name), tables := c.tables ++ [name] }, _,
          ⟨created.lookups, created.creations⟩, same, rfl⟩
  · exact ⟨{ c with server := c.server.record (.hasCollection name), tables := c.tables ++ [name] },
      log, asked, fun n => rfl, rfl⟩

/-- A record is stored under a key, in place of any other. -/
theorem exec_put (now : Timestamp) (key : String) (record : Record) :
    ∃ c' log', c'.server.Obliging ∧
      (∀ n, c'.server.documents n =
        if name == n then (c.server.documents name).insert (.text key) ⟨now.text, record⟩
        else c.server.documents n) ∧
      (put now table (.text key) record).exec c log = (.ok (), c', log') := by
  obtain ⟨c₁, log₁, obliging₁, same, ensured⟩ := exec_ensureTable named obliging log
  refine ⟨{ c₁ with server := c₁.server.insert name (.text key) ⟨now.text, record⟩ }, log₁,
    ⟨obliging₁.lookups, obliging₁.creations⟩, ?_, ?_⟩
  · intro n
    rw [Server.documents_insert, same, same]
  · unfold put
    rw [Act.exec_bind, ensured]
    rfl

/-- What is looked up is the record under the key; a missing one is reported. -/
theorem exec_fetch (key : String) :
    ∃ c' log', c'.server.Obliging ∧ (∀ n, c'.server.documents n = c.server.documents n) ∧
      (fetch table (.text key)).exec c log =
        (match (c.server.documents name).get? (.text key) with
          | some d => .ok d.record
          | none => .error (.refused (.notFound key name.shown)), c', log') := by
  obtain ⟨c₁, log₁, obliging₁, same, ensured⟩ := exec_ensureTable named obliging log
  refine ⟨{ c₁ with server := (c₁.server.get name (.text key)).2 }, log₁,
    Server.get_obliging obliging₁ name (.text key), ?_, ?_⟩
  · intro n
    rw [Server.documents_get, same]
  · unfold fetch
    rw [Act.exec_bind, ensured]
    dsimp only
    have key_ : (Value.text key).toName = .ok (.text key) := rfl
    rw [key_, Act.exec_bind, Act.exec_ofExcept]
    dsimp only
    rw [Act.exec_bind, exec_onServer, ← same name, ← Server.get_fst]
    cases (c₁.server.get name (.text key)).1 <;> rfl

/-- The record under a key is gone. -/
theorem exec_delete (key : String) :
    ∃ c' log', c'.server.Obliging ∧
      (∀ n, c'.server.documents n =
        if name == n then (c.server.documents name).erase (.text key) else c.server.documents n) ∧
      (delete table (.text key)).exec c log = (.ok (), c', log') := by
  obtain ⟨c₁, log₁, obliging₁, same, ensured⟩ := exec_ensureTable named obliging log
  refine ⟨{ c₁ with server := c₁.server.delete name (.text key) }, log₁,
    ⟨obliging₁.lookups, obliging₁.creations⟩, ?_, ?_⟩
  · intro n
    rw [Server.documents_delete, same, same]
  · unfold delete
    rw [Act.exec_bind, ensured]
    rfl

end Store

end RecordSeal
