import SecurePubSub.Authority.Publishing
import SecurePubSub.Authority.SnapshotFormat

namespace SecurePubSub.Authority

open SecurePubSub.Data SecurePubSub.Data.Fallible SecurePubSub.Data.Program SecurePubSub.Protocol

/-! How many deliveries one request can generate.

A publication is matched with stored subscriptions only, and no store holds more
of them than its limit, whatever it was opened from.
-/

theorem SubscriptionTable.forType_length_le (table : SubscriptionTable) (typeId : TypeId) :
    (table.forType typeId).length ≤ table.count := by
  have counted := table.count_setBucket typeId [] (fun _ member => nomatch member)
  simp only [List.length_nil] at counted
  omega

def Store.WithinCapacity (store : Store) : Prop :=
  store.state.subscriptions.count ≤ store.limits.subscriptions

theorem Store.WithinCapacity.of_same {store after : Store} (within : store.WithinCapacity)
    (limits : after.limits = store.limits)
    (same : after.state.subscriptions = store.state.subscriptions) : after.WithinCapacity := by
  unfold WithinCapacity
  rw [limits, same]
  exact within

section Calls

variable {ρ : Type} {random : CryptoRandom ρ} {authority : CertificateAuthority}

theorem withinCapacity_putSubscription {store : Store} (within : store.WithinCapacity)
    (subscription : StoredSubscription) : (store.putSubscription subscription).2.WithinCapacity := by
  have limits := store.putSubscription_limits subscription
  have bounded := SubscriptionTable.count_put_le subscription within
  unfold Store.WithinCapacity
  rw [limits]
  rcases store.putSubscription_cases subscription with
    ⟨_, _, result⟩ | ⟨_, _, kept | ⟨_, result⟩⟩
  · rw [result]
    exact bounded
  · rw [kept]
    exact within
  · rw [result]
    exact bounded

theorem withinCapacity_claimSubscription {store : Store} (within : store.WithinCapacity)
    (subscription : StoredSubscription) :
    (store.claimSubscription subscription).2.WithinCapacity := by
  have limits := store.claimSubscription_limits subscription
  have fewer := SubscriptionTable.count_claim_le store.state.subscriptions subscription
  unfold Store.WithinCapacity
  rw [limits]
  rcases store.claimSubscription_cases subscription with ⟨_, result⟩ | ⟨_, _, kept⟩
  · rw [result]
    exact fewer.trans within
  · rw [kept]
    exact within

theorem withinCapacity_perform {world : World ρ} (within : world.store.WithinCapacity)
    (call : CaCall) : (authority.perform random call world).2.store.WithinCapacity := by
  cases call with
  | keys agent => exact within
  | environment agent => exact within
  | subscriptionsFor typeId => exact within
  | delivery => exact within
  | checkAndMark sender session nowSeconds =>
      apply within.of_same (world.store.checkAndMark_limits sender session nowSeconds)
      have marked := congrArg StoreState.subscriptions
        (world.marked_state sender session nowSeconds)
      exact marked
  | setEnvironment agent encoded =>
      apply within.of_same (world.store.setEnvironment_limits agent encoded)
      rcases world.store.setEnvironment_cases agent encoded with
        ⟨next, edited, _, result⟩ | ⟨_, _, kept⟩
      · obtain ⟨_, rfl⟩ := StoreState.setEnvironment_eq_ok edited
        have edited := congrArg StoreState.subscriptions result
        exact edited
      · exact congrArg StoreState.subscriptions kept
  | putSubscription subscription => exact withinCapacity_putSubscription within subscription
  | claimSubscription subscription => exact withinCapacity_claimSubscription within subscription

theorem withinCapacity_handle {world : World ρ} (within : world.store.WithinCapacity)
    (frame : Bytes) (nowSeconds : UInt64) :
    (authority.handle random frame nowSeconds world).2.store.WithinCapacity :=
  run_preserves (fun current : World ρ => current.store.WithinCapacity)
    (fun call _ kept => withinCapacity_perform kept call)
    (authority.process frame nowSeconds) within

theorem withinCapacity_reconcileAgents {store : PersistentStore}
    (within : (Store.persistent store).WithinCapacity)
    (configured : List (AgentId × PublicKeys)) :
    (Store.persistent (store.reconcileAgents configured).2).WithinCapacity := by
  unfold PersistentStore.reconcileAgents
  split
  · exact within
  · simp only [Store.WithinCapacity, Store.limits, store.transact_limits]
    rcases store.transact_cases
      ((StoreState.configuredKeys configured .empty).map store.state.reconcile) with
      ⟨next, edited, _, result⟩ | ⟨_, _, kept⟩
    · obtain ⟨keys, _, rfl⟩ := map_eq_ok.mp edited
      simp only [Store.state, result]
      exact (SubscriptionTable.count_retain_le _ _).trans within
    · simp only [Store.state, kept]
      exact within

theorem withinCapacity_open {snapshot : SnapshotFile} {limits : StoreLimits} {readFails : Bool}
    {store : PersistentStore} (opened : PersistentStore.open snapshot limits readFails = .ok store) :
    (Store.persistent store).WithinCapacity ∧ store.limits = limits := by
  obtain ⟨loaded, _, opened⟩ := bind_eq_ok.mp opened
  cases loaded with
  | none =>
      cases opened
      exact ⟨Nat.zero_le _, rfl⟩
  | some bytes =>
      obtain ⟨state, read, opened⟩ := bind_eq_ok.mp opened
      cases opened
      obtain ⟨_, _, _, subscriptions, _⟩ := decodeState_written read
      exact ⟨subscriptions, rfl⟩

/-! ## Generated deliveries -/

theorem offer_frame_bounded {world after : World ρ} {publication : Publication}
    {subscription : StoredSubscription} {frame : Bytes}
    (ran : run (authority.perform random) (authority.offer publication subscription) world =
      (.ok (some frame), after)) : frame.length ≤ maxFrameLen := by
  rw [run_offer] at ran
  split at ran
  · cases ran
  · cases ran
  · rename_i recipientKeys _
    rw [run_deliverTo] at ran
    split at ran
    · cases ran
    · rename_i sealed middle drawn
      split at ran
      · cases ran
      · cases ran
        have made : (authority.delivery random publication.publisher subscription.subscriber
            subscription.handler publication.typeId publication.value recipientKeys.x25519
            world.rng).1 = .ok frame := congrArg Prod.fst drawn
        obtain ⟨_, _, ciphertext, _, _, _, _, _, _, message, written⟩ := delivery_eq_ok made
        have short : ciphertext.length ≤ maxPlaintextLen := message.length_eq ▸ message.short
        rw [written, EnvelopeHeader.frame_length]
        simp only [frameLen, maxFrameLen]
        omega
      · cases ran

theorem deliverAll_bounded {world after : World ρ} {publication : Publication}
    {subscriptions : List StoredSubscription} {frames : List Bytes}
    (ran : run (authority.perform random) (authority.deliverAll publication subscriptions) world =
      (.ok frames, after)) :
    frames.length ≤ subscriptions.length ∧ ∀ frame ∈ frames, frame.length ≤ maxFrameLen := by
  induction subscriptions generalizing world frames with
  | nil =>
      cases ran
      exact ⟨Nat.le_refl _, nofun⟩
  | cons subscription rest ih =>
      rw [run_deliverAll_cons] at ran
      split at ran
      · cases ran
      · rename_i pushed middle offered
        split at ran
        · cases ran
        · rename_i later last looped
          cases ran
          obtain ⟨shorter, bounded⟩ := ih looped
          cases pushed with
          | none => exact ⟨by simpa using Nat.le_succ_of_le shorter, by simpa using bounded⟩
          | some frame =>
              have first := offer_frame_bounded offered
              exact ⟨by simpa using shorter, by simpa using ⟨first, bounded⟩⟩

/-- One request generates at most as many deliveries as subscriptions are stored, and each fits
in a frame. -/
theorem deliveries_bounded {world : World ρ} {frame : Bytes} {nowSeconds : UInt64}
    {frames : List Bytes}
    (answer : (authority.handle random frame nowSeconds world).1 = .ok (.deliveries frames)) :
    frames.length ≤ world.store.state.subscriptions.count ∧
      ∀ frame ∈ frames, frame.length ≤ maxFrameLen := by
  obtain ⟨request, publication, reaches⟩ := reachesLoop_of_deliveries random ⟨frames, answer⟩
  have ran := @handle_of_reachesLoop _ random authority world frame nowSeconds request publication
    reaches
  rw [ran] at answer
  dsimp only at answer
  have same := congrArg StoreState.subscriptions
    (world.marked_state request.envelope.sender request.envelope.sessionId nowSeconds)
  rcases looped : run (authority.perform random) (authority.deliverAll publication
      ((world.marked request.envelope.sender request.envelope.sessionId
        nowSeconds).store.state.subscriptions.forType publication.typeId))
      (world.marked request.envelope.sender request.envelope.sessionId nowSeconds) with
    ⟨result, after⟩
  rw [looped] at answer
  cases result with
  | error error => cases answer
  | ok pushed =>
      cases answer
      obtain ⟨shorter, bounded⟩ := deliverAll_bounded looped
      rw [same] at shorter
      exact ⟨shorter.trans (SubscriptionTable.forType_length_le _ _), bounded⟩

end Calls

end SecurePubSub.Authority
