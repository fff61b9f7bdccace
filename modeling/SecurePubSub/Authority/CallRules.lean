import SecurePubSub.Authority.Process
import SecurePubSub.Data.Contract

namespace SecurePubSub.Authority

open SecurePubSub.Data SecurePubSub.Data.Program SecurePubSub.Protocol

/-! Which calls the parts of `process` make.

Every part keeps to a contract that lets it read the store and take subscriptions out of it,
once the contract allows what that part stores or sends.
-/

/-- What every part of `process` may ask of the store. -/
structure AllowsReads (contract : Contract caInterface) : Prop where
  keys : ∀ agent, contract.guarantee (.keys agent)
  environment : ∀ agent, contract.guarantee (.environment agent)
  subscriptionsFor : ∀ typeId, contract.guarantee (.subscriptionsFor typeId)
  claimSubscription : ∀ subscription, contract.guarantee (.claimSubscription subscription)

/-- The contract lets a publication be sent to the subscriber of an entry. -/
def AllowsDelivery (contract : Contract caInterface) (publication : Publication)
    (subscription : StoredSubscription) : Prop :=
  ∀ keys, contract.rely (.keys subscription.subscriber) (.ok keys) →
    contract.guarantee (.delivery publication.publisher subscription.subscriber
      subscription.handler publication.typeId publication.value keys.x25519)

variable {contract : Contract caInterface}

theorem ofExcept_obeys {α : Type} (computed : Except Error α) :
    Obeys contract (fun _ => True) (ofExcept computed : CaProgram α) :=
  obeys_ofExcept fun _ _ => trivial

theorem effect_obeys {request : CaCall} (allowed : contract.guarantee request) :
    Obeys contract (fun _ => True) (@perform caInterface request) :=
  obeys_perform allowed fun _ _ => trivial

namespace CertificateAuthority

variable {authority : CertificateAuthority}

theorem processSetEnvironment_obeys {envelope : EnvelopeRef} {plaintext : Bytes}
    (reads : AllowsReads contract)
    (stores : contract.guarantee (.setEnvironment envelope.sender plaintext))
    (proposed : EnvironmentRef) :
    Obeys contract (fun _ => True)
      (authority.processSetEnvironment envelope plaintext proposed) := by
  apply obeys_bind (ofExcept_obeys _)
  intro _ _
  apply obeys_bind (effect_obeys (reads.environment _))
  intro _ _
  apply obeys_bind (ofExcept_obeys _)
  intro _ _
  apply obeys_bind (ofExcept_obeys _)
  intro _ _
  exact obeys_bind (effect_obeys stores) fun _ _ => obeys_pure trivial

theorem validateStoredEnvironment_obeys (reads : AllowsReads contract) (agent : AgentId) :
    Obeys contract (fun _ => True) (authority.validateStoredEnvironment agent) := by
  apply obeys_bind (effect_obeys (reads.environment _))
  intro stored _
  cases stored with
  | none => exact obeys_fail _
  | some encoded => exact obeys_bind (ofExcept_obeys _) fun _ _ => ofExcept_obeys _

theorem processSubscribe_obeys {envelope : EnvelopeRef} {plaintext : Bytes} {typeId : TypeId}
    {kind : SubscriptionKind} (reads : AllowsReads contract)
    (stores : contract.guarantee
      (.putSubscription ⟨envelope.sender, typeId, envelope.handler, kind, plaintext⟩)) :
    Obeys contract (fun _ => True)
      (authority.processSubscribe envelope plaintext typeId kind) := by
  apply obeys_bind (ofExcept_obeys _)
  intro _ _
  apply obeys_bind (validateStoredEnvironment_obeys reads _)
  intro _ _
  exact obeys_bind (effect_obeys stores) fun _ _ => obeys_pure trivial

/-- An iteration only sends after it has read the recipient's keys. -/
theorem offer_obeys {publication : Publication} {subscription : StoredSubscription}
    (reads : AllowsReads contract) (sends : AllowsDelivery contract publication subscription) :
    Obeys contract (fun _ => True) (authority.offer publication subscription) := by
  apply obeys_bind (ofExcept_obeys _)
  intro predicate _
  split
  · exact obeys_pure trivial
  · apply obeys_bind (effect_obeys (reads.environment _))
    intro stored _
    cases stored with
    | none => exact obeys_pure trivial
    | some encoded =>
        apply obeys_bind (ofExcept_obeys _)
        intro environment _
        split
        · exact obeys_pure trivial
        · split
          · exact obeys_pure trivial
          · apply obeys_bind (obeys_perform (reads.keys _) fun _ relied => relied)
            intro recipientKeys known
            apply obeys_bind (effect_obeys (sends recipientKeys known))
            intro frame _
            apply obeys_bind (effect_obeys (reads.claimSubscription _))
            intro claimed _
            split
            · exact obeys_pure trivial
            · exact obeys_pure trivial

theorem deliverAll_obeys {publication : Publication} {subscriptions : List StoredSubscription}
    (reads : AllowsReads contract)
    (sends : ∀ entry ∈ subscriptions, AllowsDelivery contract publication entry) :
    Obeys contract (fun _ => True) (authority.deliverAll publication subscriptions) := by
  induction subscriptions with
  | nil => exact obeys_pure trivial
  | cons subscription rest ih =>
      apply obeys_bind (offer_obeys reads (sends subscription List.mem_cons_self))
      intro pushed _
      apply obeys_bind (ih fun entry member => sends entry (List.mem_cons_of_mem _ member))
      intro later _
      exact obeys_pure trivial

theorem processPublish_obeys {envelope : EnvelopeRef} {typeId : TypeId} {predicate : PredicateRef}
    {value : Bytes} (reads : AllowsReads contract)
    (sends : ∀ subscriptions, contract.rely (.subscriptionsFor typeId) (.ok subscriptions) →
      ∀ entry ∈ subscriptions, ∀ environment,
        AllowsDelivery contract ⟨envelope.sender, environment, typeId, predicate, value⟩ entry) :
    Obeys contract (fun _ => True)
      (authority.processPublish envelope typeId predicate value) := by
  apply obeys_bind (ofExcept_obeys _)
  intro _ _
  apply obeys_bind (effect_obeys (reads.environment _))
  intro stored _
  cases stored with
  | none => exact obeys_fail _
  | some encoded =>
      apply obeys_bind (ofExcept_obeys _)
      intro environment _
      apply obeys_bind (ofExcept_obeys _)
      intro _ _
      apply obeys_bind (obeys_perform (reads.subscriptionsFor _) fun _ relied => relied)
      intro subscriptions listed
      apply obeys_bind (deliverAll_obeys reads fun entry member =>
        sends subscriptions listed entry member environment)
      intro frames _
      exact obeys_pure trivial

end CertificateAuthority

end SecurePubSub.Authority
