import SecurePubSub.Authority.Publishing

namespace SecurePubSub.Authority

open SecurePubSub.Data SecurePubSub.Data.Fallible SecurePubSub.Data.Program SecurePubSub.Protocol

/-! What the records of one Agent change about the publications of the others. -/

/-! ## States that differ in one Agent -/

/-- `extended` differs from `state` only in what belongs to `agent`; sessions that have expired by
`nowSeconds` or belong to nobody do not count. -/
structure Extends (agent : AgentId) (nowSeconds : UInt64) (state extended : StoreState) : Prop where
  keys : ∀ other, other ≠ agent → extended.keys.get other = state.keys.get other
  environments : ∀ other, other ≠ agent →
    extended.environments.get other = state.environments.get other
  subscriptions : ∀ typeId,
    (extended.subscriptions.forType typeId).filter (fun entry => decide (entry.subscriber ≠ agent)) =
      (state.subscriptions.forType typeId).filter (fun entry => decide (entry.subscriber ≠ agent))
  replay : ∀ key : ReplayKey, (ofLex key).1 ≠ agent →
    state.keys.contains (ofLex key).1 = true →
    (extended.replay.purge nowSeconds).entries.get key =
      (state.replay.purge nowSeconds).entries.get key

/-- The records of `agent` are ones that the CA accepted from it. -/
structure OwnRecords (agent : AgentId) (state : StoreState) : Prop where
  environment : ∀ encoded, state.environments.get agent = some encoded →
    ∃ environment, parseOperation encoded = .ok (.setEnvironment environment)
  subscriptions : ∀ typeId, ∀ subscription ∈ state.subscriptions.forType typeId,
    subscription.subscriber = agent →
      subscription.Parses ∧ state.keys.contains subscription.subscriber = true

theorem StoreState.WellFormed.ownRecords {state : StoreState} {limits : StoreLimits}
    (sound : state.WellFormed limits) (agent : AgentId) : OwnRecords agent state where
  environment := fun encoded stored => sound.environments_parse agent encoded stored
  subscriptions := fun typeId subscription member _ =>
    ⟨(sound.subscriptions_parse typeId subscription member).2.1,
      sound.subscribers_known typeId subscription member⟩

section Extending

variable {agent : AgentId} {nowSeconds : UInt64} {state middle extended : StoreState}

theorem Extends.refl (state : StoreState) : Extends agent nowSeconds state state :=
  ⟨fun _ _ => rfl, fun _ _ => rfl, fun _ => rfl, fun _ _ _ => rfl⟩

theorem Extends.trans (first : Extends agent nowSeconds state middle)
    (second : Extends agent nowSeconds middle extended) :
    Extends agent nowSeconds state extended where
  keys := fun other different => (second.keys other different).trans (first.keys other different)
  environments := fun other different =>
    (second.environments other different).trans (first.environments other different)
  subscriptions := fun typeId => (second.subscriptions typeId).trans (first.subscriptions typeId)
  replay := fun key different known => by
    have still : middle.keys.contains (ofLex key).1 = true := by
      rw [SortedMap.contains_eq, first.keys _ different]
      exact known
    exact (second.replay key different still).trans (first.replay key different known)

theorem Extends.provision {limits : StoreLimits} {keys : PublicKeys}
    (edited : state.provision limits agent keys = .ok extended) :
    Extends agent nowSeconds state extended := by
  obtain ⟨_, _, result⟩ := StoreState.provision_eq_ok edited
  subst result
  exact { Extends.refl state with
    keys := fun other different => by simp [different] }

theorem Extends.setEnvironment {limits : StoreLimits} {encoded : Bytes}
    (edited : state.setEnvironment limits agent encoded = .ok extended) :
    Extends agent nowSeconds state extended := by
  obtain ⟨_, result⟩ := StoreState.setEnvironment_eq_ok edited
  subst result
  exact { Extends.refl state with
    environments := fun other different => by simp [different] }

/-- Sorting a bucket keeps the entries of the other subscribers in their order. -/
theorem filter_upsert {count maximum : Nat} {bucket after : List StoredSubscription}
    {subscription : StoredSubscription} (sorted : BucketSorted bucket)
    (stored : upsert count maximum bucket subscription = .ok after) :
    after.filter (fun entry => decide (entry.subscriber ≠ subscription.subscriber)) =
      bucket.filter (fun entry => decide (entry.subscriber ≠ subscription.subscriber)) := by
  obtain ⟨front, old, back, split, result, same⟩ | ⟨absent, _, result⟩ := upsert_eq_ok stored
  · have subscriber : old.subscriber = subscription.subscriber :=
      congrArg (fun slot => (ofLex slot).1) same
    rw [split, result]
    simp [List.filter_append, subscriber]
  · have ordered := bucketSorted_upsert sorted stored
    rw [result] at ordered ⊢
    have moved : (sortBucket (bucket ++ [subscription])).Perm (bucket ++ [subscription]) :=
      List.perm_insertionSort _ _
    have kept := moved.filter (fun entry => decide (entry.subscriber ≠ subscription.subscriber))
    have own : [subscription].filter
        (fun entry => decide (entry.subscriber ≠ subscription.subscriber)) = [] := by simp
    rw [List.filter_append, own, List.append_nil] at kept
    exact kept.eq_of_pairwise (fun _ _ _ _ below above => absurd below (lt_asymm above))
      (ordered.sublist List.filter_sublist) (sorted.sublist List.filter_sublist)

theorem Extends.putSubscription {limits : StoreLimits} {subscription : StoredSubscription}
    (sorted : BucketSorted (state.subscriptions.forType subscription.typeId))
    (own : subscription.subscriber = agent) :
    Extends agent nowSeconds state (state.putSubscription limits subscription).2 := by
  refine { Extends.refl state with subscriptions := fun typeId => ?_ }
  rw [StoreState.putSubscription]
  dsimp only
  obtain ⟨bucket, stored, _, buckets⟩ | ⟨_, _, buckets⟩ :=
    state.subscriptions.put_cases limits.subscriptions subscription
  · rw [buckets]
    split
    · rename_i same
      rw [same, ← own]
      exact filter_upsert sorted stored
    · rfl
  · rw [buckets]

/-- Reconciling with a configuration that changes one Agent's keys only. -/
theorem Extends.reconcile {limits : StoreLimits} {keys : SortedMap AgentId PublicKeys}
    (sound : state.WellFormed limits)
    (others : ∀ other, other ≠ agent → keys.get other = state.keys.get other) :
    Extends agent nowSeconds state (state.reconcile keys) := by
  have stays : ∀ other, other ≠ agent → state.keys.contains other = true →
      StoreState.unchanged state.keys keys other = true := by
    intro other different known
    rw [SortedMap.contains_eq, Option.isSome_iff_exists] at known
    obtain ⟨held, found⟩ := known
    simp only [StoreState.unchanged, others other different, found, decide_true]
  refine ⟨others, fun other different => ?_, fun typeId => ?_, fun key different known => ?_⟩
  · rw [StoreState.reconcile, SortedMap.get_retain]
    cases found : state.environments.get other with
    | none => rfl
    | some encoded =>
        have known := sound.environments_owned other (by rw [SortedMap.contains_eq, found]; rfl)
        simp [Option.filter, stays other different known]
  · rw [StoreState.reconcile, SubscriptionTable.forType_retain, List.filter_filter]
    refine List.filter_congr (fun entry member => ?_)
    by_cases different : entry.subscriber = agent
    · simp [different]
    · simp [different, stays _ different (sound.subscribers_known typeId entry member)]
  · rw [ReplayCache.purge_get, ReplayCache.purge_get, StoreState.reconcile, SortedMap.get_retain,
      stays _ different known]
    cases state.replay.entries.get key <;> rfl

/-- A session of the agent itself, checked no later than `nowSeconds`. -/
theorem Extends.marked {ρ : Type} {world : World ρ} (session : SessionId) {earlier : UInt64}
    (before : earlier ≤ nowSeconds) :
    Extends agent nowSeconds world.store.state
      (world.marked agent session earlier).store.state := by
  have purged : ∀ key, ((world.store.state.replay.purge earlier).purge nowSeconds).entries.get key =
      (world.store.state.replay.purge nowSeconds).entries.get key := by
    intro key
    rw [ReplayCache.purge_get, ReplayCache.purge_get, ReplayCache.purge_get]
    cases world.store.state.replay.entries.get key with
    | none => rfl
    | some expires =>
        by_cases live : nowSeconds < expires
        · have live' := UInt64.lt_of_le_of_lt before live
          simp [Option.filter, live, live']
        · by_cases old : earlier < expires <;> simp [Option.filter, live, old]
  have refl : Extends agent nowSeconds world.store.state world.store.state := .refl _
  obtain ⟨_, _, _, marked⟩ | ⟨_, _, kept | dropped⟩ :=
    world.store.checkAndMark_cases agent session earlier
  · rw [World.marked, marked]
    refine { refl with replay := fun key different known => ?_ }
    have other : key ≠ replayKey agent session :=
      fun same => different (congrArg (fun key => (ofLex key).1) same)
    rw [ReplayCache.purge_get, ReplayCache.mark_get, if_neg other, ← ReplayCache.purge_get]
    exact purged key
  · rw [World.marked, kept]
    exact refl
  · rw [World.marked, dropped]
    exact { refl with replay := fun key _ _ => purged key }

/-- A request of the agent itself that is not a publication. -/
theorem Extends.handle {ρ : Type} {random : CryptoRandom ρ} {authority : CertificateAuthority}
    {world : World ρ} {limits : StoreLimits} {frame : Bytes} {earlier : UInt64}
    (sound : world.store.state.WellFormed limits)
    (own : ∀ envelope, CertificateAuthority.acceptEnvelope frame = .ok envelope →
      envelope.sender = agent ∧ envelope.messageType ≠ .publish)
    (before : earlier ≤ nowSeconds) :
    Extends agent nowSeconds world.store.state
      (authority.handle random frame earlier world).2.store.state := by
  have handled : Handled random authority world frame earlier
      (authority.handle random frame earlier world) := handle_handled frame earlier
  generalize authority.handle random frame earlier world = outcome at handled
  cases handled with
  | refused error => exact .refl _
  | rejected error envelope accepted =>
      rw [(own envelope accepted).1]
      exact .marked _ before
  | environment request publicKeys proposed admits messageType operation =>
      dsimp only
      rw [continueStore_store, (own _ admits.accepted).1]
      refine (Extends.marked request.envelope.sessionId before).trans ?_
      obtain ⟨next, edited, _, result⟩ | ⟨_, _, kept⟩ :=
        (world.marked agent request.envelope.sessionId earlier).store.setEnvironment_cases agent
          request.plaintext
      · rw [result]
        exact .setEnvironment edited
      · rw [kept]
        exact .refl _
  | subscription request publicKeys typeId predicate kind admits operation handler =>
      dsimp only
      rw [continueStore_store, (own _ admits.accepted).1]
      refine (Extends.marked request.envelope.sessionId before).trans ?_
      have sorted : BucketSorted ((world.marked agent request.envelope.sessionId
          earlier).store.state.subscriptions.forType typeId) := by
        rw [World.marked_state]
        exact sound.sorted typeId
      obtain ⟨_, _, result⟩ | ⟨_, _, kept | ⟨_, result⟩⟩ :=
        (world.marked agent request.envelope.sessionId earlier).store.putSubscription_cases
          ⟨agent, typeId, request.envelope.handler, kind, request.plaintext⟩
      · rw [result]
        exact .putSubscription sorted rfl
      · rw [kept]
        exact .refl _
      · rw [result]
        exact .putSubscription sorted rfl
  | publication request publication reaches =>
      obtain ⟨publicKeys, admits⟩ := reaches.admits
      exact absurd reaches.messageType (own _ admits.accepted).2

end Extending

/-! ## Two runs of one publication -/

/-- The store has room for one more session, and the file system takes the commit of that session
and those of `consumed` subscriptions after it. -/
structure Store.Takes (store : Store) (sender : AgentId) (session : SessionId)
    (nowSeconds : UInt64) (consumed : Nat) : Prop where
  room : (store.state.replay.purge nowSeconds).entries.size < store.state.replay.maximum
  fits : match store with
    | .memory _ => True
    | .persistent store => store.snapshot.temporary = none ∧ ∃ bytes,
        encodeState { store.state with
          replay := (store.state.replay.purge nowSeconds).mark sender session nowSeconds } =
            .ok bytes ∧ bytes.length ≤ maxSnapshotLen
  faults : ∀ used ≤ consumed, (store.faults.drop used).headD .none = .none

theorem ReplayCache.checkAndMark_eq_ok {cache : ReplayCache} {sender : AgentId}
    {session : SessionId} {nowSeconds : UInt64} :
    (cache.checkAndMark sender session nowSeconds).1 = .ok () ↔
      (cache.purge nowSeconds).entries.contains (replayKey sender session) = false ∧
        (cache.purge nowSeconds).entries.size < cache.maximum := by
  have maximum : (cache.purge nowSeconds).maximum = cache.maximum := rfl
  simp only [ReplayCache.checkAndMark]
  split
  · rename_i present
    simp [present]
  · rename_i absent
    split
    · rename_i full
      simp only [reduceCtorEq, false_iff, not_and]
      omega
    · rename_i room
      simp only [true_iff]
      exact ⟨Bool.eq_false_iff.mpr absent, by omega⟩

theorem Store.checkAndMark_eq_ok {store : Store} {sender : AgentId} {session : SessionId}
    {nowSeconds : UInt64} :
    (store.checkAndMark sender session nowSeconds).1 = .ok () ↔
      (store.state.replay.purge nowSeconds).entries.contains (replayKey sender session) = false ∧
        store.Takes sender session nowSeconds 0 := by
  have checked := @ReplayCache.checkAndMark_eq_ok store.state.replay sender session nowSeconds
  cases store with
  | memory store =>
      refine checked.trans (and_congr_right fun _ => ⟨fun room => ⟨room, trivial, ?_⟩,
        fun takes => takes.room⟩)
      intro used _
      simp [faults]
  | persistent store =>
      simp only [checkAndMark, PersistentStore.checkAndMark, StoreState.checkAndMark, state,
        Prod.map, id] at checked ⊢
      obtain ⟨error, rejected⟩ | ⟨absent, room, accepted⟩ :=
        store.state.replay.checkAndMark_cases sender session nowSeconds
      · rw [rejected] at checked ⊢
        simp only [reduceCtorEq, false_iff] at checked
        constructor
        · intro failed
          cases failed
        · intro both
          exact absurd ⟨both.1, both.2.room⟩ checked
      · simp only [accepted, Except.map, PersistentStore.transact, PersistentStore.commit_eq_ok,
          SnapshotFile.commit_eq_ok, absent, true_and]
        constructor
        · rintro ⟨bytes, encoded, fits, temporary, fault⟩
          refine ⟨room, ⟨temporary, bytes, encoded, fits⟩, fun used few => ?_⟩
          rw [Nat.le_zero.mp few]
          exact fault
        · rintro ⟨_, ⟨temporary, bytes, encoded, fits⟩, schedule⟩
          exact ⟨bytes, encoded, fits, temporary, schedule 0 (Nat.le_refl 0)⟩

section TwoRuns

variable {agent : AgentId} {authority : CertificateAuthority} {state extended : StoreState}
  {nowSeconds : UInt64} {publication : Publication} {subscription : StoredSubscription}

theorem Extends.route (extension : Extends agent nowSeconds state extended)
    (different : subscription.subscriber ≠ agent) (policy : EnvironmentPolicy) :
    Authority.route policy extended publication subscription =
      Authority.route policy state publication subscription := by
  simp only [Authority.route, StoreState.keysOf, extension.keys _ different,
    extension.environments _ different]

theorem Extends.selects (extension : Extends agent nowSeconds state extended)
    (different : subscription.subscriber ≠ agent) (policy : EnvironmentPolicy) :
    Authority.selects policy extended publication subscription =
      Authority.selects policy state publication subscription := by
  rw [Authority.selects, extension.route different, Authority.selects]

theorem OwnRecords.route (own : OwnRecords agent extended)
    (member : subscription ∈ extended.subscriptions.forType publication.typeId)
    (same : subscription.subscriber = agent) (policy : EnvironmentPolicy) :
    ∃ decision, Authority.route policy extended publication subscription = .ok decision := by
  obtain ⟨parses, known⟩ := own.subscriptions _ subscription member same
  exact route_of_records policy (SubscriptionTable.typeId_of_mem member) parses known
    (same ▸ own.environment)

/-- The agent has an authorized match of a publication and a key that nothing can be sealed to. -/
def Poisons (authority : CertificateAuthority) (state : StoreState) (publication : Publication)
    (agent : AgentId) : Prop :=
  ∃ recipientKeys, state.keysOf agent = .ok recipientKeys ∧
    authority.suite.LowOrder recipientKeys.x25519 ∧
    ∃ subscription ∈ state.subscriptions.forType publication.typeId,
      subscription.subscriber = agent ∧ Matches authority.policy state publication subscription

/-- The delivery that the loop makes for a subscription. -/
def Publication.addressed (publication : Publication) (subscription : StoredSubscription) :
    Addressed :=
  ⟨subscription.subscriber, subscription.handler, publication.typeId, publication.publisher,
    publication.value⟩

/-- A frame holds a delivery, sealed to the stored key of its recipient. -/
def Carries (authority : CertificateAuthority) (state : StoreState) (delivery : Addressed)
    (frame : Bytes) : Prop :=
  ∃ recipientKeys, state.keysOf delivery.recipient = .ok recipientKeys ∧
    Seals authority delivery recipientKeys.x25519 frame

theorem Pushes.carries {ρ : Type} {random : CryptoRandom ρ} {frame : Bytes}
    (pushes : Pushes random authority state publication subscription frame) :
    Carries authority state (publication.addressed subscription) frame := by
  obtain ⟨recipientKeys, rng, routed, sealing⟩ := pushes
  exact ⟨recipientKeys, (route_eq_some.mp routed).2, delivery_eq_ok sealing⟩

/-- Two lists of frames hold the same deliveries to everyone but one agent, in the same order. -/
def SameForOthers (authority : CertificateAuthority) (agent : AgentId) (state extended : StoreState)
    (frames others : List Bytes) : Prop :=
  ∃ deliveries after : List Addressed,
    List.Forall₂ (Carries authority state) deliveries frames ∧
    List.Forall₂ (Carries authority extended) after others ∧
    after.filter (fun delivery => decide (delivery.recipient ≠ agent)) =
      deliveries.filter (fun delivery => decide (delivery.recipient ≠ agent))

/-- The selected subscriptions of the other agents are the same ones. -/
theorem Extends.selected (extension : Extends agent nowSeconds state extended)
    (policy : EnvironmentPolicy) (publication : Publication) (typeId : TypeId) :
    ((extended.subscriptions.forType typeId).filter
        (Authority.selects policy extended publication)).filter
          (fun entry => decide (entry.subscriber ≠ agent)) =
      ((state.subscriptions.forType typeId).filter
        (Authority.selects policy state publication)).filter
          (fun entry => decide (entry.subscriber ≠ agent)) := by
  rw [List.filter_comm, extension.subscriptions, List.filter_comm _
    (Authority.selects policy state publication)]
  refine List.filter_congr (fun entry member => ?_)
  exact extension.selects (of_decide_eq_true (List.mem_filter.mp member).2) policy

theorem exists_split_of_lt_countP {α : Type} {keep : α → Bool} {items : List α} {index : Nat}
    (inside : index < items.countP keep) :
    ∃ front item back, items = front ++ item :: back ∧ keep item = true ∧
      front.countP keep = index := by
  induction items generalizing index with
  | nil => cases inside
  | cons head rest ih =>
      by_cases kept : keep head = true
      · cases index with
        | zero => exact ⟨[], head, rest, rfl, kept, rfl⟩
        | succ index =>
            rw [List.countP_cons_of_pos kept] at inside
            obtain ⟨front, item, back, split, found, counted⟩ := ih (Nat.lt_of_succ_lt_succ inside)
            refine ⟨head :: front, item, back, by rw [split]; rfl, found, ?_⟩
            rw [List.countP_cons_of_pos kept, counted]
      · rw [List.countP_cons_of_neg kept] at inside
        obtain ⟨front, item, back, split, found, counted⟩ := ih inside
        refine ⟨head :: front, item, back, by rw [split]; rfl, found, ?_⟩
        rw [List.countP_cons_of_neg kept, counted]

section Loops

variable {ρ : Type} {random : CryptoRandom ρ} {rng : ρ} {faults : List CommitFault}
  {snapshot : List StoredSubscription}

/-- What a loop without a failing position established about each subscription. -/
theorem Clear.decided
    (clear : Clear (FailsAt random authority state rng faults publication) [] snapshot)
    (member : subscription ∈ snapshot) :
    (∃ decision, Authority.route authority.policy state publication subscription = .ok decision) ∧
      ∀ recipientKeys, Authority.route authority.policy state publication subscription =
          .ok (some recipientKeys) → ¬ authority.suite.LowOrder recipientKeys.x25519 := by
  obtain ⟨front, back, split⟩ := List.append_of_mem member
  have passes := clear front subscription back split
  rw [FailsAt] at passes
  cases routed : Authority.route authority.policy state publication subscription with
  | error error =>
      rw [routed] at passes
      exact absurd trivial passes
  | ok decision =>
      refine ⟨⟨decision, rfl⟩, fun recipientKeys same low => ?_⟩
      cases same
      rw [routed] at passes
      exact passes (.inl (delivery_error random low _))

end Loops

end TwoRuns

section Publications

variable {ρ : Type} {random : CryptoRandom ρ} {agent : AgentId} {authority : CertificateAuthority}
  {world other : World ρ} {frame : Bytes} {nowSeconds : UInt64}
  {request : CertificateAuthority.Admitted} {publication : Publication}

/-- The number of subscriptions that a publication consumes. -/
def consumedBy (authority : CertificateAuthority) (state : StoreState) (publication : Publication) :
    Nat :=
  (state.subscriptions.forType publication.typeId).countP
    (consumes authority.policy state publication)

/-- The other state lets the same publication reach its loop if its session is accepted. -/
theorem ReachesLoop.extended
    (reaches : ReachesLoop authority world.store frame nowSeconds request publication)
    (extension : Extends agent nowSeconds world.store.state other.store.state)
    (foreign : request.envelope.sender ≠ agent)
    (accepted : (other.store.checkAndMark request.envelope.sender request.envelope.sessionId
      nowSeconds).1 = .ok ()) :
    ReachesLoop authority other.store frame nowSeconds request publication := by
  obtain ⟨⟨publicKeys, admits⟩, messageType, operation, publishes⟩ := reaches
  refine ⟨⟨publicKeys, { admits with known := ?_, marked := accepted }⟩, messageType, operation,
    { publishes with stored := ?_ }⟩
  · rw [StoreState.keysOf, extension.keys _ foreign]
    exact admits.known
  · rw [extension.environments _ foreign]
    exact publishes.stored

theorem ReachesLoop.fresh
    (reaches : ReachesLoop authority world.store frame nowSeconds request publication)
    (extension : Extends agent nowSeconds world.store.state other.store.state)
    (foreign : request.envelope.sender ≠ agent) :
    (other.store.state.replay.purge nowSeconds).entries.contains
      (replayKey request.envelope.sender request.envelope.sessionId) = false := by
  obtain ⟨publicKeys, admits⟩ := reaches.admits
  have fresh := (Store.checkAndMark_eq_ok.mp admits.marked).1
  have known := StoreState.contains_of_keysOf admits.known
  rw [SortedMap.contains_eq, extension.replay
    (replayKey request.envelope.sender request.envelope.sessionId) foreign known]
  exact fresh

theorem Store.Takes.mono {store : Store} {sender : AgentId} {session : SessionId} {few many : Nat}
    (takes : store.Takes sender session nowSeconds many) (fewer : few ≤ many) :
    store.Takes sender session nowSeconds few :=
  ⟨takes.room, takes.fits, fun used within => takes.faults used (Nat.le_trans within fewer)⟩

/-- With the agent's records no position fails when the store takes the publication and the agent
does not poison it. -/
theorem Extends.passes (total : authority.suite.Total) (decides : authority.suite.OrderDecides)
    (extension : Extends agent nowSeconds world.store.state other.store.state)
    (own : OwnRecords agent other.store.state)
    (short : publication.value.length ≤ maxValueBytes)
    (clear : Clear (FailsAt random authority world.store.state world.rng world.store.faults.tail
      publication) [] (world.store.state.subscriptions.forType publication.typeId))
    (faults : ∀ used ≤ consumedBy authority other.store.state publication,
      (other.store.faults.drop used).headD .none = .none)
    (harmless : ¬ Poisons authority other.store.state publication agent)
    {earlier later : List StoredSubscription} {failing : StoredSubscription}
    (split : other.store.state.subscriptions.forType publication.typeId =
      earlier ++ failing :: later) :
    ¬ FailsAt random authority other.store.state other.rng other.store.faults.tail publication
      earlier failing := by
  have member : failing ∈ other.store.state.subscriptions.forType publication.typeId := by
    rw [split]
    exact List.mem_append_right _ List.mem_cons_self
  have established : (∃ decision, Authority.route authority.policy other.store.state publication
        failing = .ok decision) ∧
      ∀ recipientKeys, Authority.route authority.policy other.store.state publication failing =
          .ok (some recipientKeys) → ¬ authority.suite.LowOrder recipientKeys.x25519 := by
    by_cases same : failing.subscriber = agent
    · refine ⟨own.route member same authority.policy, fun recipientKeys routed low => ?_⟩
      obtain ⟨wanted, known⟩ := route_eq_some.mp routed
      exact harmless ⟨recipientKeys, same ▸ known, low, failing, member, same, wanted⟩
    · rw [extension.route same]
      refine clear.decided ?_
      have kept : failing ∈ (other.store.state.subscriptions.forType publication.typeId).filter
          (fun entry => decide (entry.subscriber ≠ agent)) :=
        List.mem_filter.mpr ⟨member, decide_eq_true same⟩
      rw [extension.subscriptions] at kept
      exact (List.mem_filter.mp kept).1
  refine not_failsAt total short established.1 (fun recipientKeys routed => ?_) (fun consumed => ?_)
  · exact (decides recipientKeys.x25519).resolve_left (established.2 recipientKeys routed)
  · rw [← List.drop_one, List.drop_drop]
    refine faults _ ?_
    rw [consumedBy, split, List.countP_append, List.countP_cons_of_pos consumed]
    omega

/-- A publication that reaches its end was taken by the store and not poisoned. -/
theorem ReachesLoop.taken
    (reaches : ReachesLoop authority other.store frame nowSeconds request publication)
    (clear : Clear (FailsAt random authority other.store.state other.rng other.store.faults.tail
      publication) [] (other.store.state.subscriptions.forType publication.typeId)) :
    other.store.Takes request.envelope.sender request.envelope.sessionId nowSeconds
        (consumedBy authority other.store.state publication) ∧
      ¬ Poisons authority other.store.state publication agent := by
  obtain ⟨publicKeys, admits⟩ := reaches.admits
  obtain ⟨_, takes⟩ := Store.checkAndMark_eq_ok.mp admits.marked
  constructor
  · refine ⟨takes.room, takes.fits, fun used within => ?_⟩
    cases used with
    | zero => exact takes.faults 0 (Nat.le_refl 0)
    | succ used =>
        obtain ⟨front, entry, back, split, consumed, counted⟩ := exists_split_of_lt_countP within
        have passes := clear front entry back split
        rw [List.nil_append, FailsAt] at passes
        simp only [consumes, Authority.selects, Bool.and_eq_true, decide_eq_true_eq] at consumed
        obtain ⟨selected, kind⟩ := consumed
        cases routed : Authority.route authority.policy other.store.state publication entry with
        | error error => simp [routed] at selected
        | ok decision =>
            cases decision with
            | none => simp [routed] at selected
            | some recipientKeys =>
                rw [routed] at passes
                obtain ⟨_, committed⟩ := not_or.mp passes
                rw [counted, ← List.drop_one, List.drop_drop, Nat.add_comm] at committed
                exact not_not.mp (fun faulty => committed ⟨kind, faulty⟩)
  · rintro ⟨recipientKeys, known, low, entry, member, same, wanted⟩
    have routed := route_eq_some.mpr ⟨wanted, same ▸ known⟩
    exact (clear.decided member).2 recipientKeys routed low

variable (random) in
/-- Where a publication succeeds without the records of an agent, it succeeds with them, and with
the same deliveries to the others, exactly when the store takes it and the agent does not poison
it. -/
theorem isolated_iff (total : authority.suite.Total) (decides : authority.suite.OrderDecides)
    (extension : Extends agent nowSeconds world.store.state other.store.state)
    (own : OwnRecords agent other.store.state)
    (reaches : ReachesLoop authority world.store frame nowSeconds request publication)
    (foreign : request.envelope.sender ≠ agent) {frames : List Bytes}
    (served : (authority.handle random frame nowSeconds world).1 = .ok (.deliveries frames)) :
    (∃ others, (authority.handle random frame nowSeconds other).1 = .ok (.deliveries others) ∧
        SameForOthers authority agent world.store.state other.store.state frames others) ↔
      other.store.Takes request.envelope.sender request.envelope.sessionId nowSeconds
          (consumedBy authority other.store.state publication) ∧
        ¬ Poisons authority other.store.state publication agent := by
  obtain ⟨publicKeys, admits⟩ := reaches.admits
  have parsed := parseOperation_of_admits admits
  rw [reaches.operation] at parsed
  have short := parseOperation_publish_short parsed
  obtain ⟨_, _, _, _, _, _, _, _, _, _, ran, _⟩ | ⟨held, after, clear, ran, _, pushed⟩ :=
    handle_publication random reaches
  · rw [ran] at served
    cases served
  · rw [ran] at served
    cases served
    constructor
    · intro ⟨others, answer, _⟩
      obtain ⟨again, _, reachesAgain⟩ := reachesLoop_of_deliveries random ⟨others, answer⟩
      obtain ⟨_, admitsAgain⟩ := reachesAgain.admits
      have marked := admitsAgain.marked
      have sameEnvelope := Except.ok.inj (admits.accepted.symm.trans admitsAgain.accepted)
      rw [← sameEnvelope] at marked
      have reachesOther := reaches.extended extension foreign marked
      obtain ⟨_, _, _, _, _, _, _, _, _, _, ranOther, _⟩ | ⟨_, _, clearOther, _⟩ :=
        handle_publication random reachesOther
      · rw [ranOther] at answer
        cases answer
      · exact reachesOther.taken clearOther
    · intro ⟨takes, harmless⟩
      have accepted := Store.checkAndMark_eq_ok.mpr ⟨reaches.fresh extension foreign,
        takes.mono (Nat.zero_le _)⟩
      have reachesOther := reaches.extended extension foreign accepted
      obtain ⟨earlier, failing, later, _, _, _, split, _, fails, _⟩ |
        ⟨others, last, _, ranOther, _, pushedOther⟩ := handle_publication random reachesOther
      · exact absurd fails
          (extension.passes total decides own short clear takes.faults harmless split)
      · rw [ranOther]
        refine ⟨others, rfl, _, _, (List.forall₂_map_left_iff.mpr
            (pushed.imp fun _ _ pushes => pushes.carries)),
          (List.forall₂_map_left_iff.mpr (pushedOther.imp fun _ _ pushes => pushes.carries)), ?_⟩
        rw [List.filter_map, List.filter_map]
        exact congrArg (List.map publication.addressed)
          (extension.selected authority.policy publication publication.typeId)

end Publications

/-! ## A key of low order -/

namespace Sample

/-- Agent 3's subscription changes nothing that belongs to the others. -/
theorem subscribed_extends :
    Extends (agent 3).id 10 (awaiting zeroSecret).world.store.state
        (subscribed zeroSecret).world.store.state ∧
      OwnRecords (agent 3).id (subscribed zeroSecret).world.store.state := by
  have own : (match CertificateAuthority.acceptEnvelope
      (frame 3 (.subscribePermanent typeId handler []) 50) with
      | .ok envelope => decide (envelope.sender = (agent 3).id ∧ envelope.messageType ≠ .publish)
      | .error _ => true) = true := by decide +kernel
  have before := (reachable_awaiting zeroSecret).sound start_initial
  have after := (reachable_subscribed zeroSecret).sound start_initial
  refine ⟨?_, after.1.ownRecords _⟩
  rw [subscribed_world]
  refine Extends.handle before.1 (fun envelope accepted => ?_) (UInt64.le_refl 10)
  rw [accepted] at own
  exact of_decide_eq_true own

/-- Without that subscription the publication of agent 1 is served. -/
theorem awaiting_served : ∃ request publication frames,
    ReachesLoop authority (awaiting zeroSecret).world.store Sample.publication 10 request
      publication ∧ request.envelope.sender ≠ (agent 3).id ∧
    (authority.handle .counting Sample.publication 10 (awaiting zeroSecret).world).1 =
      .ok (.deliveries frames) := by
  have sender : ((CertificateAuthority.acceptEnvelope publication).toOption.all
      fun envelope => envelope.sender ≠ (agent 3).id) = true := by decide +kernel
  have answered : isDelivering (authority.handle .counting publication 10
      (awaiting zeroSecret).world).1 = true := by decide +kernel
  obtain ⟨frames, served⟩ := exists_of_isDelivering answered
  obtain ⟨request, matched, reaches⟩ := reachesLoop_of_deliveries .counting ⟨frames, served⟩
  obtain ⟨_, admits⟩ := reaches.admits
  rw [admits.accepted] at sender
  exact ⟨request, matched, frames, reaches, of_decide_eq_true sender, served⟩

end Sample

theorem sample_isolated_iff :
    ∃ (request : CertificateAuthority.Admitted) (publication : Publication) (frames : List Bytes),
    ReachesLoop Sample.authority (Sample.awaiting zeroSecret).world.store Sample.publication 10
        request publication ∧
      (Sample.authority.handle .counting Sample.publication 10
        (Sample.awaiting zeroSecret).world).1 = .ok (.deliveries frames) ∧
      ((∃ others, (Sample.authority.handle .counting Sample.publication 10
          (Sample.subscribed zeroSecret).world).1 = .ok (.deliveries others) ∧
        SameForOthers Sample.authority (Sample.agent 3).id
          (Sample.awaiting zeroSecret).world.store.state
          (Sample.subscribed zeroSecret).world.store.state frames others) ↔
      (Sample.subscribed zeroSecret).world.store.Takes request.envelope.sender
          request.envelope.sessionId 10 (consumedBy Sample.authority
            (Sample.subscribed zeroSecret).world.store.state publication) ∧
        ¬ Poisons Sample.authority (Sample.subscribed zeroSecret).world.store.state publication
          (Sample.agent 3).id) := by
  obtain ⟨request, publication, frames, reaches, foreign, served⟩ := Sample.awaiting_served
  obtain ⟨extension, own⟩ := Sample.subscribed_extends
  exact ⟨request, publication, frames, reaches, served, isolated_iff .counting
    CryptoSuite.transparent_total CryptoSuite.transparent_orderDecides extension own reaches foreign
    served⟩

/-- Agent 3's subscription makes the publication of agent 1 fail. -/
theorem publication_not_isolated :
    ¬ ∀ (agent : AgentId) (world other : World Nat) (frame : Bytes) (nowSeconds : UInt64)
      (request : CertificateAuthority.Admitted) (publication : Publication) (frames : List Bytes),
      Extends agent nowSeconds world.store.state other.store.state →
      OwnRecords agent other.store.state →
      ReachesLoop Sample.authority world.store frame nowSeconds request publication →
      request.envelope.sender ≠ agent →
      (Sample.authority.handle .counting frame nowSeconds world).1 = .ok (.deliveries frames) →
      ∃ others, (Sample.authority.handle .counting frame nowSeconds other).1 =
          .ok (.deliveries others) ∧
        SameForOthers Sample.authority agent world.store.state other.store.state frames others := by
  intro isolated
  obtain ⟨request, publication, frames, reaches, foreign, served⟩ := Sample.awaiting_served
  obtain ⟨extension, own⟩ := Sample.subscribed_extends
  obtain ⟨others, answer, _⟩ := isolated _ _ _ _ _ _ _ _ extension own reaches foreign served
  have failed : (Sample.authority.handle .counting Sample.publication 10
      (Sample.subscribed zeroSecret).world).1 = .error .cryptoFailure := by decide +kernel
  cases failed.symm.trans answer

end SecurePubSub.Authority
