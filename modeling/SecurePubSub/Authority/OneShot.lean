import Mathlib.Algebra.Order.BigOperators.Group.List
import Mathlib.Algebra.Order.Group.Nat
import SecurePubSub.Authority.Reachability
import SecurePubSub.Data.Interleaving

namespace SecurePubSub.Authority

open SecurePubSub.Data SecurePubSub.Data.Program SecurePubSub.Protocol

/-! One-shot subscriptions under concurrent requests.

Each effect of `process` is atomic, and requests of any number of threads
interleave between them. A one-shot subscription is a unit of stock: a successful
`put_subscription` adds at most one, and a claim that returns true takes one.
-/

/-! ## What the calls of a request register and deliver -/

def isOneShot (subscriber : AgentId) (typeId : TypeId) (handler : HandlerId)
    (subscription : StoredSubscription) : Bool :=
  subscription.kind = .oneShot ∧ subscription.subscriber = subscriber ∧
    subscription.typeId = typeId ∧ subscription.handler = handler

def stored (event : caInterface.Event) : Option StoredSubscription :=
  match event with
  | ⟨.putSubscription subscription, .ok _⟩ => some subscription
  | _ => none

def claimed (event : caInterface.Event) : Option StoredSubscription :=
  match event with
  | ⟨.claimSubscription subscription, .ok true⟩ => some subscription
  | _ => none

/-- The frame that a call sealed, if it is for this subscription. -/
def sealedFor (subscription : StoredSubscription) (event : caInterface.Event) : Option Bytes :=
  match event with
  | ⟨.delivery _ recipient handler typeId _ _, .ok frame⟩ =>
      if recipient = subscription.subscriber ∧ handler = subscription.handler ∧
          typeId = subscription.typeId then some frame
      else none
  | _ => none

/-- What two calls in a row deliver: a frame and then the claim of its subscription. -/
def pushOf (first second : caInterface.Event) : Option (StoredSubscription × Bytes) := do
  let subscription ← claimed second
  let frame ← sealedFor subscription first
  pure (subscription, frame)

def pushes : List caInterface.Event → List (StoredSubscription × Bytes)
  | [] => []
  | [_] => []
  | first :: second :: rest => (pushOf first second).toList ++ pushes (second :: rest)

def Quiet (event : caInterface.Event) : Prop := ∀ subscription, sealedFor subscription event = none

theorem pushes_cons {event : caInterface.Event} (quiet : Quiet event)
    (rest : List caInterface.Event) : pushes (event :: rest) = pushes rest := by
  cases rest with
  | nil => rfl
  | cons second rest =>
      have nothing : pushOf event second = none := by
        rw [pushOf]
        cases claimed second with
        | none => rfl
        | some subscription => exact congrArg (Option.bind · _) (quiet subscription)
      rw [pushes, nothing]
      rfl

theorem pushes_append {front : List caInterface.Event} (quiet : ∀ event ∈ front, Quiet event)
    (back : List caInterface.Event) : pushes (front ++ back) = pushes back := by
  induction front with
  | nil => rfl
  | cons event rest ih =>
      rw [List.cons_append, pushes_cons (quiet event List.mem_cons_self),
        ih (fun other member => quiet other (List.mem_cons_of_mem _ member))]

/-- How many subscriptions of a kind a call took part in. -/
def weigh (part : caInterface.Event → Option StoredSubscription)
    (wanted : StoredSubscription → Bool) (event : caInterface.Event) : Nat :=
  (part event).toList.countP wanted

/-- Every delivery has a claim of its own that returned true. -/
theorem countP_pushes_le (wanted : StoredSubscription → Bool) (first : caInterface.Event)
    (rest : List caInterface.Event) :
    (pushes (first :: rest)).countP (fun push => wanted push.1) ≤
      (rest.map (weigh claimed wanted)).sum := by
  induction rest generalizing first with
  | nil => exact Nat.le_refl _
  | cons second rest ih =>
      have pushed : (pushOf first second).toList.countP (fun push => wanted push.1) ≤
          weigh claimed wanted second := by
        rw [pushOf, weigh]
        cases claimed second with
        | none => exact Nat.le_refl _
        | some subscription =>
            cases found : sealedFor subscription first with
            | none => simp [found]
            | some frame => simp [found, List.countP_cons]
      have later := ih second
      rw [pushes, List.countP_append, List.map_cons, List.sum_cons]
      omega

/-! ## The deliveries of a request are those of its calls -/

section Programs

variable {authority : CertificateAuthority} {publication : Publication}
  {subscription : StoredSubscription} {history : List caInterface.Event}

theorem deliverTo_pushes {recipientKeys : PublicKeys} {pushed : Option Bytes}
    (own : subscription.typeId = publication.typeId)
    (consumed : Consumes (CertificateAuthority.deliverTo publication subscription recipientKeys)
      history (.done pushed)) (back : List caInterface.Event) :
    pushes (history ++ back) =
      pushed.toList.map (fun frame => (subscription, frame)) ++ pushes back := by
  obtain ⟨_, _, frame, rfl, sealing, consumed⟩ := consumed.bind_done
  obtain ⟨_, _, held, rfl, claiming, finished⟩ := consumed.bind_done
  cases sealing.perform_done
  cases claiming.perform_done
  have quiet : Quiet ⟨.claimSubscription subscription, .ok held⟩ := fun _ => rfl
  cases held with
  | true =>
      cases finished
      have push : pushOf ⟨.delivery publication.publisher subscription.subscriber
          subscription.handler publication.typeId publication.value recipientKeys.x25519,
          .ok frame⟩ ⟨.claimSubscription subscription, .ok true⟩ = some (subscription, frame) := by
        simp [pushOf, claimed, sealedFor, own]
      simp only [List.append_nil, List.cons_append, List.nil_append]
      rw [pushes, push, pushes_cons quiet]
      rfl
  | false =>
      cases finished
      simp only [List.append_nil, List.cons_append, List.nil_append]
      rw [pushes, pushes_cons quiet]
      rfl

theorem offer_pushes {pushed : Option Bytes} (own : subscription.typeId = publication.typeId)
    (consumed : Consumes (authority.offer publication subscription) history (.done pushed))
    (back : List caInterface.Event) :
    pushes (history ++ back) =
      pushed.toList.map (fun frame => (subscription, frame)) ++ pushes back := by
  obtain ⟨_, _, predicate, rfl, parsing, evaluated⟩ := consumed.bind_done
  obtain ⟨rfl, _⟩ := parsing.ofExcept_done
  rw [List.nil_append]
  split at evaluated
  · cases evaluated
    rfl
  · obtain ⟨_, _, environment, rfl, reading, found⟩ := evaluated.bind_done
    cases reading.perform_done
    rw [List.append_assoc, List.cons_append, List.nil_append, pushes_cons (fun _ => rfl)]
    cases environment with
    | none =>
        cases found
        rfl
    | some encoded =>
        obtain ⟨_, _, subscriberEnvironment, rfl, parsing, matched⟩ := found.bind_done
        obtain ⟨rfl, _⟩ := parsing.ofExcept_done
        rw [List.nil_append]
        split at matched
        · cases matched
          rfl
        · split at matched
          · cases matched
            rfl
          · obtain ⟨_, _, recipientKeys, rfl, reading, delivered⟩ := matched.bind_done
            cases reading.perform_done
            rw [List.append_assoc, List.cons_append, List.nil_append, pushes_cons (fun _ => rfl)]
            exact deliverTo_pushes own delivered back

/-- The frames of the delivery loop are those that its calls generated. -/
theorem deliverAll_pushes {subscriptions : List StoredSubscription} {frames : List Bytes}
    (own : ∀ entry ∈ subscriptions, entry.typeId = publication.typeId)
    (consumed : Consumes (authority.deliverAll publication subscriptions) history (.done frames))
    : (pushes history).map Prod.snd = frames := by
  induction subscriptions generalizing history frames with
  | nil =>
      cases consumed
      rfl
  | cons subscription rest ih =>
      obtain ⟨front, back, pushed, rfl, first, continued⟩ := consumed.bind_done
      obtain ⟨middle, last, later, rfl, remaining, finished⟩ := continued.bind_done
      cases finished
      rw [offer_pushes (own subscription List.mem_cons_self) first, List.append_nil,
        List.map_append, ih (fun entry member => own entry (List.mem_cons_of_mem _ member))
          remaining]
      cases pushed <;> rfl

theorem admission_quiet {frame : Bytes} {nowSeconds : UInt64} {request : CertificateAuthority.Admitted}
    (consumed : Consumes (authority.admission frame nowSeconds) history (.done request)) :
    ∀ event ∈ history, Quiet event := by
  obtain ⟨_, _, envelope, rfl, accepting, accepted⟩ := consumed.bind_done
  obtain ⟨_, _, publicKeys, rfl, reading, known⟩ := accepted.bind_done
  obtain ⟨_, _, ⟨⟩, rfl, verifying, verified⟩ := known.bind_done
  obtain ⟨_, _, ⟨⟩, rfl, marking, marked⟩ := verified.bind_done
  obtain ⟨_, _, opened, rfl, opening, finished⟩ := marked.bind_done
  obtain ⟨rfl, _⟩ := accepting.ofExcept_done
  obtain ⟨rfl, _⟩ := verifying.ofExcept_done
  obtain ⟨rfl, _⟩ := opening.ofExcept_done
  cases reading.perform_done
  cases marking.perform_done
  cases finished
  intro event member
  simp only [List.append_nil, List.nil_append, List.mem_append, List.mem_singleton] at member
  obtain same | same := member
  · subst same
    exact fun _ => rfl
  · subst same
    exact fun _ => rfl

/-- Environments and subscriptions are answered without deliveries. -/
theorem processSetEnvironment_accepted {envelope : EnvelopeRef} {plaintext : Bytes}
    {proposed : EnvironmentRef} {result : ProcessResult}
    (consumed : Consumes (authority.processSetEnvironment envelope plaintext proposed) history
      (.done result)) : result = .accepted := by
  obtain ⟨_, _, _, _, _, allowed⟩ := consumed.bind_done
  obtain ⟨_, _, _, _, _, found⟩ := allowed.bind_done
  obtain ⟨_, _, _, _, _, parsed⟩ := found.bind_done
  obtain ⟨_, _, _, _, _, valid⟩ := parsed.bind_done
  obtain ⟨_, _, _, _, _, finished⟩ := valid.bind_done
  cases finished
  rfl

theorem processSubscribe_accepted {envelope : EnvelopeRef} {plaintext : Bytes} {typeId : TypeId}
    {kind : SubscriptionKind} {result : ProcessResult}
    (consumed : Consumes (authority.processSubscribe envelope plaintext typeId kind) history
      (.done result)) : result = .accepted := by
  obtain ⟨_, _, _, _, _, allowed⟩ := consumed.bind_done
  obtain ⟨_, _, _, _, _, valid⟩ := allowed.bind_done
  obtain ⟨_, _, _, _, _, finished⟩ := valid.bind_done
  cases finished
  rfl

variable {ρ : Type} {random : CryptoRandom ρ}

theorem processPublish_pushes {envelope : EnvelopeRef} {typeId : TypeId}
    {predicate : PredicateRef} {value : Bytes} {frames : List Bytes}
    (consumed : Consumes (authority.processPublish envelope typeId predicate value) history
      (.done (.deliveries frames)))
    (answered : ∀ event ∈ history, ∃ world,
      event.reply = (authority.perform random event.call world).1) :
    (pushes history).map Prod.snd = frames := by
  obtain ⟨_, _, ⟨⟩, rfl, checking, allowed⟩ := consumed.bind_done
  obtain ⟨_, _, environment, rfl, reading, found⟩ := allowed.bind_done
  obtain ⟨rfl, _⟩ := checking.ofExcept_done
  cases reading.perform_done
  cases environment with
  | none => cases found
  | some encoded =>
      obtain ⟨_, _, stored, rfl, parsing, parsed⟩ := found.bind_done
      obtain ⟨_, _, ⟨⟩, rfl, validating, valid⟩ := parsed.bind_done
      obtain ⟨_, _, subscriptions, rfl, listing, listed⟩ := valid.bind_done
      obtain ⟨_, _, pushed, rfl, delivering, finished⟩ := listed.bind_done
      obtain ⟨rfl, _⟩ := parsing.ofExcept_done
      obtain ⟨rfl, _⟩ := validating.ofExcept_done
      cases listing.perform_done
      cases finished
      obtain ⟨world, reply⟩ := answered ⟨.subscriptionsFor typeId, .ok subscriptions⟩ (by simp)
      have own : ∀ entry ∈ subscriptions, entry.typeId = typeId := by
        intro entry member
        cases reply
        exact SubscriptionTable.typeId_of_mem member
      simp only [List.append_nil, List.nil_append, List.cons_append]
      rw [pushes_cons (fun _ => rfl), pushes_cons (fun _ => rfl)]
      exact deliverAll_pushes own delivering

/-- The frames that a request returns are those that its calls generated, in order. -/
theorem process_pushes {frame : Bytes} {nowSeconds : UInt64} {frames : List Bytes}
    (consumed : Consumes (authority.process frame nowSeconds) history
      (.done (.deliveries frames)))
    (answered : ∀ event ∈ history, ∃ world,
      event.reply = (authority.perform random event.call world).1) :
    (pushes history).map Prod.snd = frames := by
  obtain ⟨front, back, request, rfl, admitted, dispatched⟩ := consumed.bind_done
  rw [pushes_append (admission_quiet admitted)]
  rw [CertificateAuthority.dispatch] at dispatched
  split at dispatched
  · cases processSetEnvironment_accepted dispatched
  · cases processSubscribe_accepted dispatched
  · cases processSubscribe_accepted dispatched
  · exact processPublish_pushes dispatched fun event member =>
      answered event (List.mem_append.mpr (.inr member))
  · cases dispatched

end Programs

/-! ## The stock of one-shot subscriptions -/

/-- How many one-shot subscriptions of a key the store holds. -/
def held (subscriber : AgentId) (typeId : TypeId) (handler : HandlerId) (state : StoreState) : Nat :=
  (state.subscriptions.forType typeId).countP (isOneShot subscriber typeId handler)

section Stock

variable {subscriber : AgentId} {typeId : TypeId} {handler : HandlerId} {store : Store}
  {subscription : StoredSubscription}

theorem countP_upsert_le (wanted : StoredSubscription → Bool) {count maximum : Nat}
    {bucket after : List StoredSubscription}
    (accepted : upsert count maximum bucket subscription = .ok after) :
    after.countP wanted ≤ [subscription].countP wanted + bucket.countP wanted := by
  obtain ⟨front, old, back, split, result, _⟩ | ⟨_, _, result⟩ := upsert_eq_ok accepted
  · rw [split, result]
    simp only [List.countP_append, List.countP_cons, List.countP_nil]
    omega
  · rw [result, sortBucket, (List.perm_insertionSort _ _).countP_eq, List.countP_append]
    omega

theorem putSubscription_held (store : Store) (subscription : StoredSubscription) :
    held subscriber typeId handler (store.putSubscription subscription).2.state ≤
      weigh stored (isOneShot subscriber typeId handler)
        ⟨.putSubscription subscription, (store.putSubscription subscription).1⟩ +
        held subscriber typeId handler store.state := by
  have edited := store.state.subscriptions.put_cases store.limits.subscriptions subscription
  have table : (store.state.putSubscription store.limits subscription).2.subscriptions =
      (store.state.subscriptions.put store.limits.subscriptions subscription).2 := rfl
  obtain ⟨accepted, reply, result⟩ | ⟨error, reply, kept | ⟨refused, result⟩⟩ :=
    store.putSubscription_cases subscription
  · rw [reply, result]
    obtain ⟨bucket, upserted, _, buckets⟩ | ⟨error, failed, _⟩ := edited
    · rw [held, table, buckets]
      split
      · rename_i same
        have grown := countP_upsert_le (isOneShot subscriber typeId handler) upserted
        rw [held, same] at *
        exact grown
      · exact Nat.le_add_left _ _
    · cases failed.symm.trans accepted
  · rw [kept]
    exact Nat.le_add_left _ _
  · rw [result]
    obtain ⟨bucket, _, accepted, _⟩ | ⟨_, _, buckets⟩ := edited
    · cases refused.symm.trans accepted
    · rw [held, table, buckets]
      exact Nat.le_add_left _ _

/-- A claim that returns true takes the subscription it claims, if that is one-shot. -/
theorem claimSubscription_held (store : Store) (subscription : StoredSubscription) :
    weigh claimed (isOneShot subscriber typeId handler)
        ⟨.claimSubscription subscription, (store.claimSubscription subscription).1⟩ +
        held subscriber typeId handler (store.claimSubscription subscription).2.state ≤
      held subscriber typeId handler store.state := by
  have table : (store.state.claimSubscription subscription).2.subscriptions =
      (store.state.subscriptions.claim subscription).2 := rfl
  have shrinks : held subscriber typeId handler (store.state.claimSubscription subscription).2 ≤
      held subscriber typeId handler store.state := by
    rw [held, table, SubscriptionTable.forType_claim]
    split
    · exact List.erase_sublist.countP_le
    · exact Nat.le_refl _
  obtain ⟨reply, result⟩ | ⟨error, reply, kept⟩ := store.claimSubscription_cases subscription
  · rw [reply, result]
    cases taken : (store.state.claimSubscription subscription).1 with
    | false => exact (Nat.zero_add _).trans_le shrinks
    | true =>
        have present := SubscriptionTable.claim_eq_true.mp taken
        change [subscription].countP (isOneShot subscriber typeId handler) + _ ≤ _
        cases wanted : isOneShot subscriber typeId handler subscription with
        | false =>
            rw [List.countP_singleton, wanted]
            exact (Nat.zero_add _).trans_le shrinks
        | true =>
            obtain ⟨oneShot, _, rfl, _⟩ := of_decide_eq_true wanted
            have left : (store.state.claimSubscription subscription).2.subscriptions.forType
                subscription.typeId =
                  (store.state.subscriptions.forType subscription.typeId).erase subscription := by
              rw [table, SubscriptionTable.forType_claim]
              exact if_pos ⟨rfl, oneShot⟩
            rw [held, held, left, (List.perm_cons_erase present).countP_eq]
            simp only [List.countP_cons, List.countP_nil]
            omega
  · rw [reply, kept]
    exact (Nat.zero_add _).le

/-- No call takes more than the store held and took in. -/
theorem perform_held {ρ : Type} (random : CryptoRandom ρ) (authority : CertificateAuthority)
    (call : CaCall) (world : World ρ) :
    weigh claimed (isOneShot subscriber typeId handler)
        ⟨call, (authority.perform random call world).1⟩ +
        held subscriber typeId handler (authority.perform random call world).2.store.state ≤
      weigh stored (isOneShot subscriber typeId handler)
        ⟨call, (authority.perform random call world).1⟩ +
        held subscriber typeId handler world.store.state := by
  cases call with
  | putSubscription subscription =>
      exact (Nat.zero_add _).trans_le (putSubscription_held world.store subscription)
  | claimSubscription subscription =>
      exact (claimSubscription_held world.store subscription).trans (Nat.le_add_left _ _)
  | keys agent => exact Nat.le_refl _
  | environment agent => exact Nat.le_refl _
  | subscriptionsFor typeId => exact Nat.le_refl _
  | delivery => exact Nat.le_refl _
  | checkAndMark sender session nowSeconds =>
      change 0 + held subscriber typeId handler
        (world.marked sender session nowSeconds).store.state ≤ 0 + _
      rw [World.marked_state]
      exact Nat.le_refl _
  | setEnvironment agent encoded =>
      change 0 + held subscriber typeId handler (world.store.setEnvironment agent encoded).2.state ≤
        0 + _
      obtain ⟨_, edited, _, result⟩ | ⟨_, _, kept⟩ := world.store.setEnvironment_cases agent encoded
      · rw [result, (StoreState.setEnvironment_eq_ok edited).2]
        exact Nat.le_refl _
      · rw [kept]

end Stock

/-! ## Claims from a stale snapshot -/

/-- No bucket holds two entries of one subscriber and handler. -/
def Ordered (state : StoreState) : Prop :=
  ∀ typeId, BucketSorted (state.subscriptions.forType typeId)

/-- The entry was replaced by one of another kind or with another predicate. -/
def Superseded (state : StoreState) (subscription : StoredSubscription) : Prop :=
  ∃ entry ∈ state.subscriptions.forType subscription.typeId, entry.slot = subscription.slot ∧
    (entry.kind ≠ subscription.kind ∨ storedPredicate subscription.typeId entry ≠
      storedPredicate subscription.typeId subscription)

section Stale

variable {ρ : Type} (random : CryptoRandom ρ) (authority : CertificateAuthority)
  {subscription : StoredSubscription}

theorem Superseded.absent {state : StoreState} (superseded : Superseded state subscription)
    (ordered : Ordered state) :
    subscription ∉ state.subscriptions.forType subscription.typeId := by
  obtain ⟨entry, member, slot, different⟩ := superseded
  intro present
  have distinct : ((state.subscriptions.forType subscription.typeId).map
      StoredSubscription.slot).Nodup :=
    (bucketSorted_iff_map.mp (ordered subscription.typeId)).imp ne_of_lt
  cases List.inj_on_of_nodup_map distinct member present slot
  exact different.elim (fun differs => differs rfl) (fun differs => differs rfl)

/-- A claim delivers only for an entry that is stored as it was read, and otherwise changes no
subscription. -/
theorem claimSubscription_exact (store : Store) :
    ((store.claimSubscription subscription).1 = .ok true →
        subscription ∈ store.state.subscriptions.forType subscription.typeId) ∧
      (subscription ∉ store.state.subscriptions.forType subscription.typeId →
        (store.claimSubscription subscription).2.state = store.state) := by
  have taken := @SubscriptionTable.claim_eq_true store.state.subscriptions subscription
  obtain ⟨reply, result⟩ | ⟨error, reply, kept⟩ := store.claimSubscription_cases subscription
  · refine ⟨fun accepted => taken.mp (Except.ok.inj (reply.symm.trans accepted)), fun absent => ?_⟩
    have refused := Bool.eq_false_iff.mpr (mt taken.mp absent)
    rw [result, StoreState.claimSubscription]
    dsimp only
    rw [SubscriptionTable.claim_unchanged (.inl refused)]
  · refine ⟨fun accepted => ?_, fun _ => kept⟩
    cases reply.symm.trans accepted

theorem perform_ordered (call : CaCall) {world : World ρ} (ordered : Ordered world.store.state) :
    Ordered (authority.perform random call world).2.store.state := by
  intro typeId
  cases call with
  | keys agent => exact ordered typeId
  | environment agent => exact ordered typeId
  | subscriptionsFor _ => exact ordered typeId
  | delivery => exact ordered typeId
  | checkAndMark sender session nowSeconds =>
      change BucketSorted
        ((world.marked sender session nowSeconds).store.state.subscriptions.forType typeId)
      rw [World.marked_state]
      exact ordered typeId
  | setEnvironment agent encoded =>
      change BucketSorted
        ((world.store.setEnvironment agent encoded).2.state.subscriptions.forType typeId)
      obtain ⟨_, edited, _, result⟩ | ⟨_, _, kept⟩ := world.store.setEnvironment_cases agent encoded
      · rw [result, (StoreState.setEnvironment_eq_ok edited).2]
        exact ordered typeId
      · rw [kept]
        exact ordered typeId
  | putSubscription subscription =>
      have table : (world.store.state.putSubscription world.store.limits
          subscription).2.subscriptions =
        (world.store.state.subscriptions.put world.store.limits.subscriptions subscription).2 := rfl
      have sorted : BucketSorted ((world.store.state.putSubscription world.store.limits
          subscription).2.subscriptions.forType typeId) := by
        obtain ⟨bucket, upserted, _, buckets⟩ | ⟨_, _, buckets⟩ :=
          world.store.state.subscriptions.put_cases world.store.limits.subscriptions subscription
        · rw [table, buckets]
          split
          · exact bucketSorted_upsert (ordered _) upserted
          · exact ordered typeId
        · rw [table, buckets]
          exact ordered typeId
      change BucketSorted
        ((world.store.putSubscription subscription).2.state.subscriptions.forType typeId)
      obtain ⟨_, _, result⟩ | ⟨_, _, kept | ⟨_, result⟩⟩ :=
        world.store.putSubscription_cases subscription
      · rw [result]
        exact sorted
      · rw [kept]
        exact ordered typeId
      · rw [result]
        exact sorted
  | claimSubscription subscription =>
      change BucketSorted
        ((world.store.claimSubscription subscription).2.state.subscriptions.forType typeId)
      obtain ⟨_, result⟩ | ⟨_, _, kept⟩ := world.store.claimSubscription_cases subscription
      · have table : (world.store.state.claimSubscription subscription).2.subscriptions =
            (world.store.state.subscriptions.claim subscription).2 := rfl
        rw [result, table, SubscriptionTable.forType_claim]
        split
        · exact bucketSorted_erase (ordered typeId) subscription
        · exact ordered typeId
      · rw [kept]
        exact ordered typeId

end Stale

/-! ## Any interleaving of requests -/

def IsRequest (authority : CertificateAuthority) (program : CaProgram ProcessResult) : Prop :=
  ∃ frame nowSeconds, program = authority.process frame nowSeconds

section Requests

variable {ρ : Type} {random : CryptoRandom ρ} {authority : CertificateAuthority} {world : World ρ}

/-- How many deliveries were generated from one-shot subscriptions of a key. -/
def generated (subscriber : AgentId) (typeId : TypeId) (handler : HandlerId)
    (pool : Pool caInterface (World ρ) ProcessResult) : Nat :=
  (pool.threads.map (fun thread => (pushes thread.history).countP
    (fun push => isOneShot subscriber typeId handler push.1))).sum

def registered (subscriber : AgentId) (typeId : TypeId) (handler : HandlerId)
    (pool : Pool caInterface (World ρ) ProcessResult) : Nat :=
  pool.total (weigh stored (isOneShot subscriber typeId handler))

theorem generated_le (subscriber : AgentId) (typeId : TypeId) (handler : HandlerId)
    (pool : Pool caInterface (World ρ) ProcessResult) :
    generated subscriber typeId handler pool ≤
      pool.total (weigh claimed (isOneShot subscriber typeId handler)) := by
  refine List.sum_le_sum fun thread _ => ?_
  cases thread.history with
  | nil => exact Nat.le_refl _
  | cons first rest =>
      have each := countP_pushes_le (isOneShot subscriber typeId handler) first rest
      rw [List.map_cons, List.sum_cons]
      omega

/-- In every interleaving of requests over an empty subscription table a one-shot subscription is
delivered for at most once, the frames that a request returns are the deliveries it generated, and
a claim of an entry that was replaced neither delivers nor removes anything. -/
theorem one_shots_claimed_once {pool : Pool caInterface (World ρ) ProcessResult}
    (fresh : ∀ typeId, world.store.state.subscriptions.forType typeId = [])
    (reached : Pool.Reachable (authority.perform random) (IsRequest authority) (.idle world) pool) :
    (∀ subscriber typeId handler, generated subscriber typeId handler pool ≤
        registered subscriber typeId handler pool) ∧
      (∀ thread ∈ pool.threads, ∀ frames, thread.left = .done (.deliveries frames) →
        (pushes thread.history).map Prod.snd = frames) ∧
      (∀ subscription, Superseded pool.shared.store.state subscription →
        (pool.shared.store.claimSubscription subscription).1 ≠ .ok true ∧
        (pool.shared.store.claimSubscription subscription).2.state = pool.shared.store.state) := by
  refine ⟨?_, ?_, ?_⟩
  · intro subscriber typeId handler
    have balanced := reached.balanced _ _ (fun current : World ρ =>
      held subscriber typeId handler current.store.state) (perform_held random authority)
    have empty : held subscriber typeId handler world.store.state = 0 := by
      rw [held, fresh]
      rfl
    have claims := generated_le subscriber typeId handler pool
    rw [registered]
    omega
  · intro thread member frames finished
    obtain ⟨⟨frame, nowSeconds, program⟩, consumed, answered⟩ := reached.follows thread member
    rw [program, finished] at consumed
    exact process_pushes consumed answered
  · intro subscription superseded
    have ordered : Ordered pool.shared.store.state :=
      reached.shared (fun current => Ordered current.store.state)
        (fun call _ kept => perform_ordered random authority call kept)
        (fun typeId => by rw [Pool.idle, fresh]; exact .nil)
    have absent := superseded.absent ordered
    obtain ⟨exactly, unchanged⟩ := @claimSubscription_exact subscription pool.shared.store
    exact ⟨mt exactly absent, unchanged absent⟩

end Requests

/-! ## Two publications that race for one subscription -/

namespace Sample

def settled : CaSystem Nat :=
  (provisioned zeroSecret).serve .counting
    [frame 1 (.setEnvironment []) 10, frame 2 (.setEnvironment []) 20] 10

def contended : Pool caInterface (World Nat) ProcessResult :=
  (((Pool.idle settled.world).spawn
    (authority.process (frame 2 (.subscribe typeId handler []) 40) 10)).spawn
    (authority.process (frame 1 (.publish typeId [] [42]) 60) 10)).spawn
    (authority.process (frame 1 (.publish typeId [] [43]) 70) 10)

/-- Both publications have read the subscription before either claims it. -/
def raced : Pool caInterface (World Nat) ProcessResult :=
  contended.schedule (authority.perform .counting)
    [0, 0, 0, 0, 1, 2, 1, 2, 1, 2, 1, 2, 1, 2, 1, 2, 1, 2, 1, 2]

theorem settled_fresh (wanted : TypeId) :
    settled.world.store.state.subscriptions.forType wanted = [] := by
  have empty : settled.world.store.state.subscriptions.buckets.entries.isEmpty = true := by
    decide +kernel
  have none : settled.world.store.state.subscriptions.buckets = .empty :=
    SortedMap.ext (List.isEmpty_iff.mp empty)
  rw [SubscriptionTable.forType, none]
  rfl

theorem raced_reachable : Pool.Reachable (authority.perform .counting) (IsRequest authority)
    (.idle settled.world) raced := by
  refine Pool.reachable_schedule _ ?_
  exact ((Relation.ReflTransGen.refl.tail (.start _ ⟨_, _, rfl⟩)).tail
    (.start _ ⟨_, _, rfl⟩)).tail (.start _ ⟨_, _, rfl⟩)

end Sample

theorem sample_one_shots :
    registered (Sample.agent 2).id Sample.typeId Sample.handler Sample.raced = 1 ∧
      generated (Sample.agent 2).id Sample.typeId Sample.handler Sample.raced ≤
        registered (Sample.agent 2).id Sample.typeId Sample.handler Sample.raced :=
  ⟨by decide +kernel,
    (one_shots_claimed_once Sample.settled_fresh Sample.raced_reachable).1 _ _ _⟩

example : generated (Sample.agent 2).id Sample.typeId Sample.handler Sample.raced = 1 := by
  decide +kernel

end SecurePubSub.Authority
