import Mathlib.Data.List.GetD
import RecordSeal.CommandLine
import RecordSeal.Mapper
import RecordSeal.Proofs.Hooks.Keeps

set_option autoImplicit false

/-! # What a session remembers of an encryptor

A program does one thing after the other in a session (`Session.Request`), and tells the service at
times which encryptor it uses. Nothing else changes the reserved names that the service was told,
and nothing changes those of an encryptor (`Session.Request.keeps`). So the service always has the
names of the encryptor that it was told of last (`Session.Reached.remembers`). -/

namespace RecordSeal

/-- The reserved names of a rehearsal. -/
def Rehearsal.names (r : Rehearsal) : Name × Name := (r.signatureName, r.descriptionName)

/-- Whether an encryptor is one of a session. -/
def Encryptor.IsIn (e : Encryptor) (σ : Session) : Prop :=
  match e with
  | .sealer _ => True
  | .rehearsal id => id.index < σ.rehearsals.length

namespace Session

/-! ## What operations retain -/

/-- Whether what the service was told and the names of rehearsals are as they were; there may be
more rehearsals. -/
structure Retains (σ σ' : Session) : Prop where
  reserved : σ'.reserved = σ.reserved
  rehearsals : σ.rehearsals.map Rehearsal.names <+: σ'.rehearsals.map Rehearsal.names

theorem retains_of_eq {σ σ' : Session} (reserved : σ'.reserved = σ.reserved)
    (rehearsals : σ'.rehearsals = σ.rehearsals) : σ.Retains σ' :=
  ⟨reserved, rehearsals ▸ List.prefix_refl _⟩

instance : Std.Refl Retains := ⟨fun _ => retains_of_eq rfl rfl⟩

instance : IsTrans Session Retains :=
  ⟨fun _ _ _ h h' => ⟨h'.reserved.trans h.reserved, h.rehearsals.trans h'.rehearsals⟩⟩

theorem Retains.reservedNames {σ σ' : Session} (h : σ.Retains σ') {e : Encryptor}
    (there : e.IsIn σ) : e.IsIn σ' ∧ e.reservedNames σ'.workshop = e.reservedNames σ.workshop := by
  cases e with
  | sealer s => exact ⟨trivial, rfl⟩
  | rehearsal id =>
    obtain ⟨more, same⟩ := h.rehearsals
    replace there : id.index < σ.rehearsals.length := there
    have length := congrArg List.length same
    rw [List.length_append, List.length_map, List.length_map] at length
    have names : (σ'.workshop.rehearsalAt id).names = (σ.workshop.rehearsalAt id).names := by
      show (σ'.rehearsals.getD id.index {}).names = (σ.rehearsals.getD id.index {}).names
      rw [← List.getD_map _ _ Rehearsal.names, ← List.getD_map _ _ Rehearsal.names, ← same,
        List.getD_append]
      rw [List.length_map]
      exact there
    obtain ⟨signature, description⟩ := Prod.mk.inj names
    refine ⟨show id.index < σ'.rehearsals.length by omega, ?_⟩
    rw [Encryptor.reservedNames, Encryptor.reservedNames]
    simp only [signature, description]

/-! ## Operations on parts -/

section

variable {α : Type}

theorem keeps_onSettings (act : Surroundings → Act Settings α) : (onSettings act).Keeps Retains :=
  fun _ _ => retains_of_eq rfl rfl

theorem keeps_onCatalog (act : Act Catalog α) : (onCatalog act).Keeps Retains :=
  fun _ _ => retains_of_eq rfl rfl

theorem keeps_onServer (id : ServerId) (act : Act Server α) : (onServer id act).Keeps Retains :=
  fun _ _ => retains_of_eq rfl rfl

theorem keeps_onStore (id : StoreId) (act : Act Connection α) : (onStore id act).Keeps Retains :=
  fun _ _ => retains_of_eq rfl rfl

theorem keeps_addServer (server : Server) : (addServer server).Keeps Retains :=
  fun _ _ => retains_of_eq rfl rfl

theorem keeps_askForServer (url : Value) : (askForServer url).Keeps Retains :=
  fun _ _ => retains_of_eq rfl rfl

theorem keeps_onWorkshop {act : Act Workshop α}
    (names : ∀ w log, ((act.exec w log).2.1).rehearsals.map Rehearsal.names =
      w.rehearsals.map Rehearsal.names) : (onWorkshop act).Keeps Retains := by
  intro σ log
  refine ⟨rfl, ?_⟩
  show _ <+: ((act.exec σ.workshop log).2.1).rehearsals.map Rehearsal.names
  rw [names]
  exact List.prefix_refl _

theorem keeps_openStore (server : Option ServerId) : (openStore server).Keeps Retains := by
  have added (id : ServerId) : (do
      let s ← get
      set { s with stores := s.stores ++ [({ server := id } : Store)] }
      pure (⟨s.stores.length⟩ : StoreId) : Act Session StoreId).Keeps Retains :=
    fun _ _ => retains_of_eq rfl rfl
  refine (keeps_onSettings _).bind fun credentials => (keeps_onSettings _).bind fun url => ?_
  cases server with
  | some id => exact (Act.keeps_pure _).bind fun id => (keeps_onServer _ _).bind fun _ => added id
  | none =>
    exact (keeps_askForServer url).bind fun id => (keeps_onServer _ _).bind fun _ => added id

end

end Session

open Session (Retains keeps_onSettings keeps_onCatalog keeps_onWorkshop keeps_onStore)

/-! ## Encryptors -/

theorem set_getD {α : Type} (l : List α) (i : Nat) (d : α) : l.set i (l.getD i d) = l := by
  induction l generalizing i with
  | nil => rfl
  | cons a l ih =>
    cases i with
    | zero => rfl
    | succ i => exact congrArg (a :: ·) (ih i)

theorem map_modify {α β : Type} {f : α → α} {g : α → β} (unseen : ∀ a, g (f a) = g a) (l : List α)
    (i : Nat) : (l.modify i f).map g = l.map g := by
  induction l generalizing i with
  | nil => cases i <;> rfl
  | cons a l ih =>
    cases i with
    | zero => exact congrArg (· :: l.map g) (unseen a)
    | succ i => exact congrArg (g a :: ·) (ih i)

namespace Encryptor

theorem names_rehearse (id : RehearsalId) (call : EncryptorCall) (w : Workshop) (log : Log) :
    (((rehearse id call).exec w log).2.1).rehearsals.map Rehearsal.names =
      w.rehearsals.map Rehearsal.names := by
  have written : (((rehearse id call).exec w log).2.1).rehearsals =
      w.rehearsals.set id.index ((w.rehearsalAt id).take call).2 := by
    unfold rehearse
    rw [Act.exec_bind, Act.exec_get]
    dsimp only
    rw [Act.exec_bind, Act.exec_set]
    dsimp only
    rw [Act.exec_bind, Act.exec_ofExcept]
    cases ((w.rehearsalAt id).take call).1 <;> rfl
  have same : ((w.rehearsalAt id).take call).2.names = (w.rehearsals.getD id.index {}).names := rfl
  rw [written, List.map_set, same, ← List.getD_map _ _ Rehearsal.names, set_getD]

theorem names_sealWith (s : Sealer) (now : Timestamp) (record : Record) (policies : FieldPolicies)
    (context : Context) (w : Workshop) (log : Log) :
    (((sealWith s now record policies context).exec w log).2.1).rehearsals = w.rehearsals :=
  rfl

theorem keeps_encrypt (e : Encryptor) (now : Timestamp) (record : Record) (policies : FieldPolicies)
    (context : EncryptionContext) :
    (Session.onWorkshop (e.encrypt now record policies context)).Keeps Retains := by
  refine keeps_onWorkshop fun w log => ?_
  cases e with
  | sealer s => exact congrArg _ (names_sealWith s now record policies context.binding w log)
  | rehearsal id => exact names_rehearse id _ w log

theorem keeps_decrypt (e : Encryptor) (record : Record) (policies : FieldPolicies)
    (context : EncryptionContext) :
    (Session.onWorkshop (e.decrypt record policies context)).Keeps Retains := by
  refine keeps_onWorkshop fun w log => ?_
  cases e with
  | sealer s => rfl
  | rehearsal id => exact names_rehearse id _ w log

end Encryptor

/-! ## Hooks and mappers -/

namespace Hooks

variable (h : Hooks) (t : Transform)

theorem retains_create (e : Encryptor) (provider : Option Provider) (cache : Option CacheId) :
    (create e provider cache).Keeps Retains :=
  keeps_create (fun _ => keeps_onCatalog _) e provider cache

theorem retains_encode : (h.encode t).Keeps Retains :=
  h.keeps_encode t (keeps_onCatalog _) h.encryptor.keeps_encrypt

theorem retains_effectivePolicies : (h.effectivePolicies t).Keeps Retains :=
  h.keeps_effectivePolicies t (keeps_onCatalog _)

theorem retains_decode : (h.decode t).Keeps Retains :=
  h.keeps_decode t (keeps_onCatalog _) h.encryptor.keeps_decrypt

end Hooks

namespace Mapper

variable (m : Mapper)

theorem keeps_create (hooks : Hooks) (store : Option StoreId) (registry : Option RegistryId) :
    (create hooks store registry).Keeps Retains := by
  cases store with
  | some id => exact (Act.keeps_pure _).bind fun _ => Act.keeps_pure _
  | none => exact (Session.keeps_openStore none).bind fun _ => Act.keeps_pure _

theorem keeps_table (model : ModelId) : (m.table model).Keeps Retains :=
  fun _ _ => refl_of Retains _

theorem keeps_transform (model : ModelId) (record : Record) (isPartial : Bool) :
    (m.transform model record isPartial).Keeps Retains := by
  refine Act.keeps_get.bind fun σ => (keeps_onCatalog _).bind fun names => ?_
  have made : (do
      pure { model, table := ← m.table model, hashKey := names.1, rangeKey := names.2, record,
             isPartial } : Act Session Transform).Keeps Retains :=
    (m.keeps_table model).bind fun _ => Act.keeps_pure _
  show Act.Keeps Retains (if names.1.isNull = true then _ else _ : Act Session Transform)
  split
  · exact (Act.keeps_fail _).bind fun _ => made
  · exact made

theorem keeps_save (given : Instance) (isPartial : Bool) :
    (m.save given isPartial).Keeps Retains := by
  refine Act.keeps_get.bind fun σ => (Act.keeps_ofExcept _).bind fun record => ?_
  refine (m.keeps_transform _ _ _).bind fun t => (Act.keeps_ofExcept _).bind fun key => ?_
  refine (m.hooks.retains_encode t).bind fun stored => Act.keeps_get.bind fun σ' => ?_
  exact (keeps_onStore _ _).bind fun _ => (Act.keeps_note _ _ _).bind fun _ => Act.keeps_pure _

theorem keeps_load (model : ModelId) (hashValue rangeValue : Value) :
    (m.load model hashValue rangeValue).Keeps Retains := by
  refine (m.keeps_table model).bind fun table => (keeps_onStore _ _).bind fun stored => ?_
  refine (m.keeps_transform _ _ _).bind fun t => (m.hooks.retains_decode t).bind fun record => ?_
  exact Act.keeps_get.bind fun σ => Act.keeps_ofExcept _

theorem keeps_delete (model : ModelId) (hashValue rangeValue : Value) :
    (m.delete model hashValue rangeValue).Keeps Retains :=
  (m.keeps_table model).bind fun _ => keeps_onStore _ _

end Mapper

/-! ## Service and command line -/

namespace Service

theorem keeps_reservedNames : reservedNames.Keeps Retains := by
  refine Act.keeps_get.bind fun σ => ?_
  split
  · exact Act.keeps_pure _
  · exact (keeps_onSettings _).bind fun _ => (keeps_onSettings _).bind fun _ => Act.keeps_pure _

theorem keeps_modelType (name : Value) : (modelType name).Keeps Retains := by
  refine Act.keeps_get.bind fun σ => ?_
  split
  · exact Act.keeps_pure _
  · exact Act.keeps_fail _
  · exact Act.keeps_fail _

theorem keeps_reportOn (model : String) (id : ModelId) : (reportOn model id).Keeps Retains :=
  (keeps_onCatalog _).bind fun _ => Act.keeps_get.bind fun _ => Act.keeps_pure _

theorem keeps_policyOf (name : Value) : (policyOf name).Keeps Retains :=
  (keeps_modelType name).bind fun _ => (keeps_reportOn _ _).bind fun _ =>
    (Act.keeps_ofExcept _).bind fun _ => Act.keeps_pure _

theorem keeps_resolve (name attributes : Value) : (resolve name attributes).Keeps Retains := by
  refine (Act.keeps_ofExcept _).bind fun names => (keeps_modelType name).bind fun id => ?_
  refine (keeps_onCatalog _).bind fun policy => keeps_reservedNames.bind fun reserved => ?_
  have answered (reserved : List Name) : (do
      let policies := policy.reconcile names reserved
      Act.ofExcept (checkIssues (nameIssues "policies" policies))
      pure policies : Act Session FieldPolicies).Keeps Retains :=
    (Act.keeps_ofExcept _).bind fun _ => Act.keeps_pure _
  show Act.Keeps Retains (if policy.doNotTouch = true then _ else _ : Act Session FieldPolicies)
  split
  · exact (Act.keeps_pure _).bind answered
  · exact (Act.keeps_ofExcept _).bind answered

end Service

namespace CommandLine

theorem keeps_setUp (o : Options) : (setUp o).Keeps Retains := by
  have configured : (do
      Session.onSettings fun around => Settings.setUp around (.ofText? o.config)
      Session.onSettings fun around => Settings.configureLog around .null
      let around := (← get).around
      if around.isThere secretsPlace then
        Session.onSettings fun around =>
          Settings.loadSecretsAs around secretsPlace s!"{around.home}/{secretsPlace}" :
      Act Session Unit).Keeps Retains := by
    refine (keeps_onSettings _).bind fun _ => (keeps_onSettings _).bind fun _ => ?_
    refine Act.keeps_get.bind fun σ => ?_
    dsimp only
    split
    · exact keeps_onSettings _
    · exact Act.keeps_pure _
  unfold setUp
  cases o.mode with
  | none => exact (Act.keeps_pure ()).bind fun _ => configured
  | some mode =>
    have set : (modify fun (σ : Session) =>
        { σ with around := σ.around.setVariable "FIELDSEAL_MODE" mode } :
        Act Session Unit).Keeps Retains := fun _ _ => Session.retains_of_eq rfl rfl
    exact set.bind fun _ => configured

theorem keeps_showPolicy (path : String) : (showPolicy path).Keeps Retains :=
  Act.keeps_get.bind fun _ => Act.keeps_currentLog.bind fun _ =>
    (Act.keeps_ofExcept _).bind fun _ => (Service.keeps_reportOn _ _).bind fun _ =>
    Act.keeps_pure _

theorem keeps_servingFor (o : Options) : (servingFor o).Keeps Retains := by
  refine (keeps_onSettings _).bind fun host => ?_
  split
  · exact (Act.keeps_pure _).bind fun _ => Act.keeps_pure _
  · exact (keeps_onSettings _).bind fun _ => (Act.keeps_ofExcept _).bind fun _ => Act.keeps_pure _

theorem keeps_serve (o : Options) (interrupted : Bool) : (serve o interrupted).Keeps Retains := by
  refine Act.keeps_get.bind fun σ => (Act.keeps_ofExcept _).bind fun _ => ?_
  refine (keeps_servingFor o).bind fun serving => (keeps_onSettings _).bind fun mode => ?_
  refine (Act.keeps_note _ _ _).bind fun _ => ((Act.keeps_note _ _ _).bind fun _ =>
    Act.keeps_pure serving).bind fun served => ?_
  split
  · exact (Act.keeps_note _ _ _).bind fun _ => (Act.keeps_fail _).bind fun _ => Act.keeps_pure _
  · exact Act.keeps_pure _

theorem keeps_run (args : List String) (interrupted : Bool) :
    (run args interrupted).Keeps Retains := by
  refine (Act.keeps_ofExcept _).bind fun o => (keeps_setUp o).bind fun _ => ?_
  split
  · exact keeps_showPolicy _
  · exact keeps_serve o interrupted

end CommandLine

/-! ## Requests -/

namespace Session

/-- What a program may ask of a session, beside telling the service of an encryptor. -/
inductive Request where
  /-- The surroundings change. -/
  | outside (around : Surroundings)
  | settings (act : Surroundings → Act Settings Unit)
  | catalog (act : Act Catalog Unit)
  | server (id : ServerId) (act : Act Server Unit)
  | store (id : StoreId) (act : Act Connection Unit)
  | addServer (server : Server)
  | openStore (server : Option ServerId)
  | addRehearsal (r : Rehearsal)
  | forgetCalls (id : RehearsalId)
  | encrypt (e : Encryptor) (now : Timestamp) (record : Record) (policies : FieldPolicies)
      (context : EncryptionContext)
  | decrypt (e : Encryptor) (record : Record) (policies : FieldPolicies)
      (context : EncryptionContext)
  | createHooks (e : Encryptor) (provider : Option Provider) (cache : Option CacheId)
  | encode (h : Hooks) (t : Transform)
  | decode (h : Hooks) (t : Transform)
  | effectivePolicies (h : Hooks) (t : Transform)
  | createMapper (h : Hooks) (store : Option StoreId) (registry : Option RegistryId)
  | save (m : Mapper) (given : Instance) (isPartial : Bool)
  | load (m : Mapper) (model : ModelId) (hashValue rangeValue : Value)
  | delete (m : Mapper) (model : ModelId) (hashValue rangeValue : Value)
  | policyOf (name : Value)
  | resolve (name attributes : Value)
  | run (args : List String) (interrupted : Bool)

/-- Does what is asked for. -/
def Request.act : Request → Act Session Unit
  | outside around => modify fun σ => { σ with around }
  | settings act => onSettings act
  | catalog act => onCatalog act
  | server id act => onServer id act
  | store id act => onStore id act
  | addServer s => do let _ ← Session.addServer s
  | openStore s => do let _ ← Session.openStore s
  | addRehearsal r => onWorkshop (modify fun w => (w.addRehearsal r).2)
  | forgetCalls id => onWorkshop (modify fun w => w.forgetCalls id)
  | encrypt e now record policies context => do
    let _ ← onWorkshop (e.encrypt now record policies context)
  | decrypt e record policies context => do
    let _ ← onWorkshop (e.decrypt record policies context)
  | createHooks e provider cache => do let _ ← Hooks.create e provider cache
  | encode h t => do let _ ← h.encode t
  | decode h t => do let _ ← h.decode t
  | effectivePolicies h t => do let _ ← h.effectivePolicies t
  | createMapper h place registry => do let _ ← Mapper.create h place registry
  | save m given isPartial => do let _ ← m.save given isPartial
  | load m model hashValue rangeValue => do let _ ← m.load model hashValue rangeValue
  | delete m model hashValue rangeValue => m.delete model hashValue rangeValue
  | policyOf name => do let _ ← Service.policyOf name
  | resolve name attributes => do let _ ← Service.resolve name attributes
  | run args interrupted => do let _ ← CommandLine.run args interrupted

theorem Request.keeps (request : Request) : request.act.Keeps Retains := by
  have silent {α : Type} {act : Act Session α} (h : act.Keeps Retains) :
      (do let _ ← act : Act Session Unit).Keeps Retains := h.bind fun _ => Act.keeps_pure _
  cases request with
  | outside around => exact fun _ _ => retains_of_eq rfl rfl
  | settings act => exact keeps_onSettings act
  | catalog act => exact keeps_onCatalog act
  | server id act => exact keeps_onServer id act
  | store id act => exact keeps_onStore id act
  | addServer server => exact silent (keeps_addServer server)
  | openStore server => exact silent (keeps_openStore server)
  | addRehearsal r =>
    refine fun σ log => ⟨rfl, ?_⟩
    show _ <+: (σ.rehearsals ++ [r]).map Rehearsal.names
    rw [List.map_append]
    exact List.prefix_append _ _
  | forgetCalls id =>
    refine keeps_onWorkshop fun w log => ?_
    refine map_modify ?_ w.rehearsals id.index
    intro r
    rfl
  | encrypt e now record policies context =>
    exact silent (e.keeps_encrypt now record policies context)
  | decrypt e record policies context => exact silent (e.keeps_decrypt record policies context)
  | createHooks e provider cache => exact silent (Hooks.retains_create e provider cache)
  | encode h t => exact silent (h.retains_encode t)
  | decode h t => exact silent (h.retains_decode t)
  | effectivePolicies h t => exact silent (h.retains_effectivePolicies t)
  | createMapper h store registry => exact silent (Mapper.keeps_create h store registry)
  | save m given isPartial => exact silent (m.keeps_save given isPartial)
  | load m model hashValue rangeValue => exact silent (m.keeps_load model hashValue rangeValue)
  | delete m model hashValue rangeValue => exact m.keeps_delete model hashValue rangeValue
  | policyOf name => exact silent (Service.keeps_policyOf name)
  | resolve name attributes => exact silent (Service.keeps_resolve name attributes)
  | run args interrupted => exact silent (CommandLine.keeps_run args interrupted)

/-! ## Reached sessions -/

/-- Whether a program may come to a session in which the service was last told of an encryptor, or
of none. -/
inductive Reached : Session → Option Encryptor → Prop where
  | start (around : Surroundings) : Reached { around } none
  | use {σ : Session} {last : Option Encryptor} (reached : Reached σ last) (e : Option Encryptor)
      (there : ∀ encryptor ∈ e, encryptor.IsIn σ) (log : Log) :
      Reached ((Service.useEncryptor e).exec σ log).2.1 e
  | request {σ : Session} {last : Option Encryptor} (reached : Reached σ last) (request : Request)
      (log : Log) : Reached (request.act.exec σ log).2.1 last

/-- Whether the service has the names of an encryptor of the session, or none if there is none. -/
def Remembers (σ : Session) : Option Encryptor → Prop
  | none => σ.reserved = none
  | some e => e.IsIn σ ∧ σ.reserved = some (e.reservedNames σ.workshop)

theorem Remembers.retains {σ σ' : Session} {last : Option Encryptor} (h : σ.Remembers last)
    (retains : σ.Retains σ') : σ'.Remembers last := by
  cases last with
  | none => exact retains.reserved.trans h
  | some e =>
    obtain ⟨there, names⟩ := h
    obtain ⟨there', same⟩ := retains.reservedNames there
    exact ⟨there', by rw [retains.reserved, names, same]⟩

/-- The service has the names of the encryptor that it was last told of. -/
theorem Reached.remembers {σ : Session} {last : Option Encryptor} (h : σ.Reached last) :
    σ.Remembers last := by
  induction h with
  | start around => rfl
  | use _ e there log _ =>
    cases e with
    | none => rfl
    | some e => exact ⟨((Std.Refl.refl _ : Retains _ _).reservedNames (there e rfl)).1, rfl⟩
  | request _ request log ih => exact ih.retains (request.keeps _ log)

end Session

end RecordSeal
