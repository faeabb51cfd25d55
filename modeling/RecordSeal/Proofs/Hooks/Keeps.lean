import RecordSeal.Hooks
import RecordSeal.Proofs.Act

set_option autoImplicit false

/-! # What hooks keep

Hooks ask their cache for a policy, look at the session, and let the encryptor work. What these
keep, encoding and decoding keep. -/

namespace RecordSeal.Hooks

variable {R : Session → Session → Prop} [Std.Refl R] (h : Hooks) (t : Transform)

theorem keeps_context : (h.context t).Keeps R := fun σ _ => refl_of R σ

theorem keeps_modelName : (modelName t).Keeps R := fun σ _ => refl_of R σ

variable [IsTrans Session R]

theorem keeps_create (caches : ∀ p, (Session.onCatalog (Catalog.newCache p)).Keeps R)
    (e : Encryptor)
    (provider : Option Provider) (cache : Option CacheId) : (create e provider cache).Keeps R := by
  have made (id : CacheId) : (do
      let own := ((← get).catalog.cacheAt id).provider
      pure { encryptor := e, cache := id, provider := provider.getD own } :
      Act Session Hooks).Keeps R := fun σ _ => refl_of R σ
  cases cache with
  | some id => exact (Act.keeps_pure _).bind made
  | none =>
    cases provider with
    | none => exact (Act.keeps_pure _).bind made
    | some p => exact (caches p).bind made

variable (asks : (h.policy t.model).Keeps R)

include asks

theorem keeps_encode (encrypts : ∀ now record policies context,
      (Session.onWorkshop (h.encryptor.encrypt now record policies context)).Keeps R) :
    (h.encode t).Keeps R := by
  have told (p : ClassPolicy) (name : String) : (do
      let now := (← (get : Act Session Session)).around.now
      Act.mapFailure (asMapping .encrypt name) do
        let context ← h.context t
        Session.onWorkshop (h.encryptor.encrypt now t.record p.fields context) :
      Act Session Record).Keeps R :=
    Act.keeps_get.bind fun σ => Act.Keeps.mapFailure
      ((h.keeps_context t).bind fun context => encrypts _ _ _ context) _
  refine asks.bind fun p => ?_
  split
  · exact Act.keeps_pure _
  · refine (keeps_modelName t).bind fun name => ?_
    show Act.Keeps R (if t.isPartial = true then _ else _ : Act Session Record)
    split
    · exact (Act.keeps_note _ _ _).bind fun _ => told p name
    · exact told p name

theorem keeps_effectivePolicies : (h.effectivePolicies t).Keeps R := by
  refine asks.bind fun p => ?_
  split
  · exact Act.keeps_pure _
  · exact Act.keeps_get.bind fun σ => (Act.keeps_ofExcept _).bind fun _ => Act.keeps_pure _

theorem keeps_decode (decrypts : ∀ record policies context,
      (Session.onWorkshop (h.encryptor.decrypt record policies context)).Keeps R) :
    (h.decode t).Keeps R := by
  refine asks.bind fun p => ?_
  split
  · exact Act.keeps_pure _
  · refine (h.keeps_effectivePolicies t asks).bind fun policies => ?_
    refine (keeps_modelName t).bind fun name => ?_
    exact Act.Keeps.mapFailure
      ((h.keeps_context t).bind fun context => decrypts _ _ context) _

end RecordSeal.Hooks
