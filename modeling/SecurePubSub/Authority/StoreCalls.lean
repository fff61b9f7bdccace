import SecurePubSub.Authority.Reopening

namespace SecurePubSub.Authority

open SecurePubSub.Data SecurePubSub.Data.Fallible SecurePubSub.Protocol

/-! A call to the file-backed store commits one candidate state or leaves the file alone. -/

/-- The answer of a call whose candidate was committed or not. -/
def StoreCall.committed : StoreCall → Except Error Unit → StoreAnswer
  | .claimSubscription _, result => .claimed (result.map (fun _ => true))
  | _, result => .done result

namespace PersistentStore

/-- The state that a call commits, unless it is answered without one. -/
def candidate (store : PersistentStore) : StoreCall → Option StoreState
  | .provision agent keys => (store.state.provision store.limits agent keys).toOption
  | .reconcileAgents configured =>
      if configured.length > store.limits.agents then none
      else ((StoreState.configuredKeys configured .empty).map store.state.reconcile).toOption
  | .setEnvironment agent encoded =>
      if StateCursor.isEnvironment encoded then
        (store.state.setEnvironment store.limits agent encoded).toOption
      else none
  | .putSubscription subscription =>
      if StateCursor.subscriptionKind subscription.encoded subscription.typeId =
          some subscription.kind then
        let stored := store.state.putSubscription store.limits subscription
        (stored.1.map (fun _ => stored.2)).toOption
      else none
  | .claimSubscription subscription =>
      let claimed := store.state.claimSubscription subscription
      match subscription.kind, claimed.1 with
      | .oneShot, true => some claimed.2
      | _, _ => none
  | .checkAndMark sender session nowSeconds =>
      let marked := store.state.checkAndMark sender session nowSeconds
      (marked.1.map (fun _ => marked.2)).toOption
  | _ => none

theorem transact_of_some {store : PersistentStore} {edited : Except Error StoreState}
    {next : StoreState} (accepted : edited.toOption = some next) :
    store.transact edited = store.commit next := by
  cases edited with
  | error error => cases accepted
  | ok found =>
      cases accepted
      rfl

theorem error_of_toOption {edited : Except Error StoreState} (rejected : edited.toOption = none) :
    ∃ error, edited = .error error := by
  cases edited with
  | error error => exact ⟨error, rfl⟩
  | ok next => cases rejected

/-- A call without a candidate changes neither memory nor the file, and its answer does not depend
on the file. -/
theorem run_of_none {state : StoreState} {limits : StoreLimits} {file : SnapshotFile}
    {call : StoreCall} (absent : candidate ⟨state, file, limits⟩ call = none) :
    ∃ answer, ∀ snapshot, run ⟨state, snapshot, limits⟩ call = (answer, ⟨state, snapshot, limits⟩) := by
  cases call with
  | keys agent => exact ⟨.keys (state.keysOf agent), fun _ => rfl⟩
  | environment agent => exact ⟨.environment (state.environments.get agent), fun _ => rfl⟩
  | subscriptionsFor typeId =>
      exact ⟨.subscriptions (state.subscriptions.forType typeId), fun _ => rfl⟩
  | provision agent keys =>
      obtain ⟨error, rejected⟩ := error_of_toOption absent
      refine ⟨.done (.error error), fun snapshot => ?_⟩
      rw [run, provision, rejected]
      rfl
  | reconcileAgents configured =>
      rw [candidate] at absent
      split at absent
      · rename_i large
        refine ⟨.done (.error .capacity), fun snapshot => ?_⟩
        rw [run, reconcileAgents, if_pos large]
        rfl
      · rename_i small
        obtain ⟨error, rejected⟩ := error_of_toOption absent
        refine ⟨.done (.error error), fun snapshot => ?_⟩
        rw [run, reconcileAgents, if_neg small, rejected]
        rfl
  | setEnvironment agent encoded =>
      rw [candidate] at absent
      split at absent
      · rename_i valid
        obtain ⟨error, rejected⟩ := error_of_toOption absent
        refine ⟨.done (.error error), fun snapshot => ?_⟩
        rw [run, setEnvironment, if_pos valid, rejected]
        rfl
      · rename_i invalid
        refine ⟨.done (.error .malformed), fun snapshot => ?_⟩
        rw [run, setEnvironment, if_neg invalid]
        rfl
  | putSubscription subscription =>
      rw [candidate] at absent
      split at absent
      · rename_i valid
        obtain ⟨error, rejected⟩ := error_of_toOption absent
        refine ⟨.done (.error error), fun snapshot => ?_⟩
        rw [run, putSubscription, if_pos valid]
        dsimp only at rejected ⊢
        rw [rejected]
        rfl
      · rename_i invalid
        refine ⟨.done (.error .malformed), fun snapshot => ?_⟩
        rw [run, putSubscription, if_neg invalid]
        rfl
  | claimSubscription subscription =>
      rw [candidate] at absent
      simp only [run, claimSubscription]
      cases kind : subscription.kind with
      | permanent => exact ⟨_, fun _ => rfl⟩
      | oneShot =>
          cases held : (state.claimSubscription subscription).1 with
          | false => exact ⟨_, fun _ => rfl⟩
          | true =>
              simp only [kind, held] at absent
              cases absent
  | checkAndMark sender session nowSeconds =>
      obtain ⟨error, rejected⟩ := error_of_toOption absent
      refine ⟨.done (.error error), fun snapshot => ?_⟩
      rw [run, checkAndMark]
      dsimp only at rejected ⊢
      rw [rejected]
      rfl

theorem run_of_some {store : PersistentStore} {call : StoreCall} {next : StoreState}
    (present : store.candidate call = some next) :
    store.run call = (store.commit next).map call.committed id := by
  cases call with
  | keys agent => cases present
  | environment agent => cases present
  | subscriptionsFor typeId => cases present
  | provision agent keys =>
      rw [run, provision, transact_of_some present]
      rfl
  | reconcileAgents configured =>
      rw [candidate] at present
      split at present
      · cases present
      · rename_i small
        rw [run, reconcileAgents, if_neg small, transact_of_some present]
        rfl
  | setEnvironment agent encoded =>
      rw [candidate] at present
      split at present
      · rename_i valid
        rw [run, setEnvironment, if_pos valid, transact_of_some present]
        rfl
      · cases present
  | putSubscription subscription =>
      rw [candidate] at present
      split at present
      · rename_i valid
        rw [run, putSubscription, if_pos valid]
        dsimp only
        rw [transact_of_some present]
        rfl
      · cases present
  | claimSubscription subscription =>
      rw [candidate] at present
      rw [run, claimSubscription]
      cases kind : subscription.kind with
      | permanent =>
          simp only [kind] at present
          cases present
      | oneShot =>
          cases held : (store.state.claimSubscription subscription).1 with
          | false =>
              simp only [kind, held] at present
              cases present
          | true =>
              simp only [kind, held] at present ⊢
              cases present
              rfl
  | checkAndMark sender session nowSeconds =>
      rw [run, checkAndMark, transact_of_some present]
      rfl

end PersistentStore

end SecurePubSub.Authority
