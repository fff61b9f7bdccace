import Mathlib.Logic.Relation
import SecurePubSub.Authority.Runs
import SecurePubSub.Protocol.PayloadRoundTrip

namespace SecurePubSub.Authority

open SecurePubSub.Data SecurePubSub.Data.Fallible SecurePubSub.Data.Program SecurePubSub.Protocol

/-! What holds of a store in every state the CA can reach. -/

/-- A record that parses to the operation of its recorded kind with its own type. -/
def StoredSubscription.Parses (subscription : StoredSubscription) : Prop :=
  ∃ predicate, parseOperation subscription.encoded =
    .ok (match subscription.kind with
      | .oneShot => .subscribe subscription.typeId predicate
      | .permanent => .subscribePermanent subscription.typeId predicate)

/-- The contents of the four tables and their sizes. -/
structure StoreState.WellFormed (state : StoreState) (limits : StoreLimits) : Prop where
  environments_parse : ∀ agent encoded, state.environments.get agent = some encoded →
    ∃ environment, parseOperation encoded = .ok (.setEnvironment environment)
  subscriptions_parse : ∀ typeId, ∀ subscription ∈ state.subscriptions.forType typeId,
    subscription.typeId = typeId ∧ subscription.Parses ∧ subscription.handler ≠ .none
  sorted : ∀ typeId, BucketSorted (state.subscriptions.forType typeId)
  environments_owned : ∀ agent, state.environments.contains agent = true →
    state.keys.contains agent = true
  subscribers_known : ∀ typeId, ∀ subscription ∈ state.subscriptions.forType typeId,
    state.keys.contains subscription.subscriber = true
  agents_bounded : state.keys.size ≤ limits.agents
  environments_bounded : state.environments.size ≤ limits.environments
  subscriptions_bounded : state.subscriptions.count ≤ limits.subscriptions
  replays_bounded : state.replay.entries.size ≤ limits.replays
  replays_limited : state.replay.maximum = limits.replays

namespace StoreState

theorem wellFormed_empty (limits : StoreLimits) : (StoreState.empty limits).WellFormed limits where
  environments_parse := fun _ _ found => nomatch found
  subscriptions_parse := fun _ _ member => nomatch member
  sorted := fun _ => List.Pairwise.nil
  environments_owned := fun _ present => nomatch present
  subscribers_known := fun _ _ member => nomatch member
  agents_bounded := Nat.zero_le _
  environments_bounded := Nat.zero_le _
  subscriptions_bounded := Nat.zero_le _
  replays_bounded := Nat.zero_le _
  replays_limited := rfl

variable {state : StoreState} {limits : StoreLimits}

theorem keysOf_eq_ok {agent : AgentId} {keys : PublicKeys} :
    state.keysOf agent = .ok keys ↔ state.keys.get agent = some keys := by
  rw [keysOf]
  cases state.keys.get agent <;> simp

theorem contains_of_keysOf {agent : AgentId} {keys : PublicKeys}
    (known : state.keysOf agent = .ok keys) : state.keys.contains agent = true := by
  rw [SortedMap.contains_eq, keysOf_eq_ok.mp known, Option.isSome_some]

theorem WellFormed.with_replay (sound : state.WellFormed limits) {replay : ReplayCache}
    (bounded : replay.entries.size ≤ limits.replays) (limited : replay.maximum = limits.replays) :
    ({ state with replay } : StoreState).WellFormed limits :=
  { sound with replays_bounded := bounded, replays_limited := limited }

theorem WellFormed.provision {next : StoreState} {agent : AgentId} {keys : PublicKeys}
    (sound : state.WellFormed limits) (edited : state.provision limits agent keys = .ok next) :
    next.WellFormed limits := by
  obtain ⟨_, room, result⟩ := provision_eq_ok edited
  subst result
  exact { sound with
    environments_owned := fun owner present => SortedMap.contains_insert (sound.environments_owned owner present)
    subscribers_known := fun typeId subscription member =>
      SortedMap.contains_insert (sound.subscribers_known typeId subscription member)
    agents_bounded := SortedMap.size_insert_le_of_room sound.agents_bounded room }

theorem WellFormed.setEnvironment {next : StoreState} {agent : AgentId} {encoded : Bytes}
    {environment : EnvironmentRef} (sound : state.WellFormed limits)
    (edited : state.setEnvironment limits agent encoded = .ok next)
    (known : state.keys.contains agent = true)
    (parsed : parseOperation encoded = .ok (.setEnvironment environment)) :
    next.WellFormed limits := by
  obtain ⟨room, result⟩ := setEnvironment_eq_ok edited
  subst result
  refine { sound with
    environments_parse := fun owner stored found => ?_
    environments_owned := fun owner present => ?_
    environments_bounded := SortedMap.size_insert_le_of_room sound.environments_bounded room }
  · rw [SortedMap.get_insert] at found
    split at found
    · cases found
      exact ⟨environment, parsed⟩
    · exact sound.environments_parse owner stored found
  · rw [SortedMap.contains_eq, SortedMap.get_insert] at present
    split at present
    · rename_i same
      exact same ▸ known
    · exact sound.environments_owned owner present

theorem WellFormed.putSubscription {subscription : StoredSubscription}
    (sound : state.WellFormed limits)
    (known : state.keys.contains subscription.subscriber = true)
    (valid : subscription.Parses ∧ subscription.handler ≠ .none) :
    (state.putSubscription limits subscription).2.WellFormed limits := by
  have counted := SubscriptionTable.count_put_le subscription sound.subscriptions_bounded
  obtain ⟨bucket, stored, _, buckets⟩ | ⟨error, _, buckets⟩ :=
    state.subscriptions.put_cases limits.subscriptions subscription
  · have kept : ∀ typeId, ∀ entry ∈ (state.putSubscription limits
        subscription).2.subscriptions.forType typeId,
        (entry = subscription ∧ typeId = subscription.typeId) ∨
          entry ∈ state.subscriptions.forType typeId := by
      intro typeId entry member
      rw [StoreState.putSubscription, buckets] at member
      split at member
      · rename_i same
        cases mem_of_mem_upsert stored member with
        | inl own => exact .inl ⟨own, same⟩
        | inr old => exact .inr (same ▸ old)
      · exact .inr member
    refine { sound with
      subscriptions_parse := fun typeId entry member => ?_
      sorted := fun typeId => ?_
      subscribers_known := fun typeId entry member => ?_
      subscriptions_bounded := counted }
    · obtain ⟨own, same⟩ | old := kept typeId entry member
      · subst own
        exact ⟨same.symm, valid⟩
      · exact sound.subscriptions_parse typeId entry old
    · rw [StoreState.putSubscription, buckets]
      split
      · exact bucketSorted_upsert (sound.sorted subscription.typeId) stored
      · exact sound.sorted typeId
    · obtain ⟨own, _⟩ | old := kept typeId entry member
      · subst own
        exact known
      · exact sound.subscribers_known typeId entry old
  · refine { sound with
      subscriptions_parse := fun typeId entry member => ?_
      sorted := fun typeId => ?_
      subscribers_known := fun typeId entry member => ?_
      subscriptions_bounded := counted }
    · rw [StoreState.putSubscription, buckets] at member
      exact sound.subscriptions_parse typeId entry member
    · rw [StoreState.putSubscription, buckets]
      exact sound.sorted typeId
    · rw [StoreState.putSubscription, buckets] at member
      exact sound.subscribers_known typeId entry member

theorem forType_claim_sublist (subscription : StoredSubscription) (typeId : TypeId) :
    ((state.claimSubscription subscription).2.subscriptions.forType typeId).Sublist
      (state.subscriptions.forType typeId) := by
  rw [claimSubscription, SubscriptionTable.forType_claim]
  split
  · exact List.erase_sublist
  · exact List.Sublist.refl _

theorem WellFormed.claimSubscription (sound : state.WellFormed limits)
    (subscription : StoredSubscription) :
    (state.claimSubscription subscription).2.WellFormed limits := by
  have part := @forType_claim_sublist state subscription
  exact { sound with
    subscriptions_parse := fun typeId entry member =>
      sound.subscriptions_parse typeId entry ((part typeId).subset member)
    sorted := fun typeId => (sound.sorted typeId).sublist (part typeId)
    subscribers_known := fun typeId entry member =>
      sound.subscribers_known typeId entry ((part typeId).subset member)
    subscriptions_bounded := Nat.le_trans (SubscriptionTable.count_claim_le _ _)
      sound.subscriptions_bounded }

theorem configuredKeys_size {configured : List (AgentId × PublicKeys)}
    {known keys : SortedMap AgentId PublicKeys}
    (accepted : configuredKeys configured known = .ok keys) :
    keys.size ≤ known.size + configured.length := by
  induction configured generalizing known with
  | nil => cases accepted; exact Nat.le_refl _
  | cons head rest ih =>
      simp only [configuredKeys] at accepted
      split at accepted
      · cases accepted
      · have later := ih accepted
        have one := SortedMap.size_insert_le known head.1 head.2
        simp only [List.length_cons]
        omega

theorem unchanged_contains {previous next : SortedMap AgentId PublicKeys} {agent : AgentId}
    (kept : unchanged previous next agent = true) : next.contains agent = true := by
  rw [unchanged] at kept
  rw [SortedMap.contains_eq]
  cases old : previous.get agent with
  | none => simp only [old, Bool.false_eq_true] at kept
  | some before =>
      cases new : next.get agent with
      | none => simp only [old, new, Bool.false_eq_true] at kept
      | some after => rfl

theorem WellFormed.reconcile (sound : state.WellFormed limits)
    {keys : SortedMap AgentId PublicKeys} (bounded : keys.size ≤ limits.agents) :
    (state.reconcile keys).WellFormed limits where
  environments_parse := fun agent encoded found => by
    rw [StoreState.reconcile, SortedMap.get_retain] at found
    exact sound.environments_parse agent encoded (Option.filter_eq_some_iff.mp found).1
  subscriptions_parse := fun typeId subscription member => by
    rw [StoreState.reconcile, SubscriptionTable.forType_retain] at member
    exact sound.subscriptions_parse typeId subscription (List.mem_filter.mp member).1
  sorted := fun typeId => by
    rw [StoreState.reconcile, SubscriptionTable.forType_retain]
    exact (sound.sorted typeId).sublist List.filter_sublist
  environments_owned := fun agent present => by
    rw [StoreState.reconcile, SortedMap.contains_eq, SortedMap.get_retain] at present
    obtain ⟨encoded, found⟩ := Option.isSome_iff_exists.mp present
    exact unchanged_contains (Option.filter_eq_some_iff.mp found).2
  subscribers_known := fun typeId subscription member => by
    rw [StoreState.reconcile, SubscriptionTable.forType_retain] at member
    exact unchanged_contains (List.mem_filter.mp member).2
  agents_bounded := bounded
  environments_bounded := Nat.le_trans (SortedMap.size_retain_le _ _) sound.environments_bounded
  subscriptions_bounded := Nat.le_trans (SubscriptionTable.count_retain_le _ _)
    sound.subscriptions_bounded
  replays_bounded := Nat.le_trans (SortedMap.size_retain_le _ _) sound.replays_bounded
  replays_limited := sound.replays_limited

end StoreState

/-! ## Stored records never fail a request -/

theorem storedPredicate_of_parses {subscription : StoredSubscription}
    (parses : subscription.Parses) :
    ∃ predicate, storedPredicate subscription.typeId subscription = .ok predicate := by
  obtain ⟨predicate, parsed⟩ := parses
  refine ⟨predicate, ?_⟩
  rw [storedPredicate, parsed, ok_bind]
  cases subscription.kind with
  | oneShot => exact if_pos rfl
  | permanent => exact if_pos rfl

theorem storedEnvironment_of_parses {encoded : Bytes} {environment : EnvironmentRef}
    (parsed : parseOperation encoded = .ok (.setEnvironment environment)) :
    storedEnvironment encoded = .ok environment := by
  rw [storedEnvironment, parsed]
  rfl

/-- Routing succeeds when the records it reads parse and the subscriber has keys. -/
theorem route_of_records (policy : EnvironmentPolicy) {state : StoreState}
    {publication : Publication} {subscription : StoredSubscription}
    (sameType : subscription.typeId = publication.typeId) (parses : subscription.Parses)
    (known : state.keys.contains subscription.subscriber = true)
    (readable : ∀ encoded, state.environments.get subscription.subscriber = some encoded →
      ∃ environment, parseOperation encoded = .ok (.setEnvironment environment)) :
    ∃ decision, route policy state publication subscription = .ok decision := by
  obtain ⟨predicate, read⟩ := storedPredicate_of_parses parses
  rw [SortedMap.contains_eq] at known
  obtain ⟨keys, found⟩ := Option.isSome_iff_exists.mp known
  have keysRead := StoreState.keysOf_eq_ok.mpr found
  rw [route, ← sameType, read, ok_bind]
  split
  · exact ⟨none, rfl⟩
  · cases stored : state.environments.get subscription.subscriber with
    | none => exact ⟨none, rfl⟩
    | some encoded =>
        obtain ⟨environment, parsed⟩ := readable _ stored
        dsimp only
        rw [storedEnvironment_of_parses parsed, ok_bind]
        split
        · exact ⟨none, rfl⟩
        · split
          · exact ⟨none, rfl⟩
          · rw [keysRead]
            exact ⟨some keys, rfl⟩

/-- In a well-formed state no decision is an error. -/
theorem route_of_wellFormed (policy : EnvironmentPolicy) {state : StoreState}
    {limits : StoreLimits} (sound : state.WellFormed limits) (publication : Publication)
    {subscription : StoredSubscription}
    (member : subscription ∈ state.subscriptions.forType publication.typeId) :
    ∃ decision, route policy state publication subscription = .ok decision := by
  obtain ⟨sameType, parses, _⟩ := sound.subscriptions_parse _ _ member
  exact route_of_records policy sameType parses (sound.subscribers_known _ _ member)
    (sound.environments_parse _)

section Failures

variable {ρ : Type} {random : CryptoRandom ρ} {authority : CertificateAuthority} {world : World ρ}

theorem run_seq_fails {α β : Type} {allowed : Error → Prop} {program : CaProgram α}
    {next : α → CaProgram β}
    (early : FailsOnly allowed (run (authority.perform random) program world).1)
    (late : ∀ value middle, run (authority.perform random) program world = (.ok value, middle) →
      FailsOnly allowed (run (authority.perform random) (next value) middle).1) :
    FailsOnly allowed (run (authority.perform random) (program >>= next) world).1 :=
  run_bind_fails (authority.perform random) world early late

variable (random authority) in
theorem delivery_fails (publisher recipient : AgentId) (handler : HandlerId) (typeId : TypeId)
    (value : Bytes) (recipientX25519 : Key32) (state : ρ) :
    FailsOnly (fun error => error = .oversized ∨ error = .cryptoFailure)
      (authority.delivery random publisher recipient handler typeId value recipientX25519 state).1 := by
  rw [CertificateAuthority.delivery]
  cases encoded : encodeResponse (maxFrameLen - headerLen) typeId publisher value with
  | error error => exact failsOnly_error (.inl (encodeResponse_fails _ _ _ _ error encoded))
  | ok plaintext => exact CryptoSuite.sealInPlace_fails _ _ _ _ _ _ _ _ _ _ _

theorem run_offer_fails {allowed : Error → Prop}
    (sealing : allowed .oversized ∧ allowed .cryptoFailure ∧ allowed .capacity)
    {publication : Publication} {subscription : StoredSubscription}
    (routed : FailsOnly allowed (route authority.policy world.store.state publication subscription)) :
    FailsOnly allowed
      (run (authority.perform random) (authority.offer publication subscription) world).1 := by
  rw [run_offer]
  split
  · rename_i error failed
    exact failsOnly_error (routed error failed)
  · exact failsOnly_ok _
  · rename_i recipientKeys _
    have drawnFails := delivery_fails random authority publication.publisher
      subscription.subscriber subscription.handler publication.typeId publication.value
      recipientKeys.x25519 world.rng
    rw [run_deliverTo, World.drawn]
    dsimp only
    cases drawn : (authority.delivery random publication.publisher subscription.subscriber
        subscription.handler publication.typeId publication.value recipientKeys.x25519
        world.rng).1 with
    | error error =>
        refine failsOnly_error ?_
        obtain large | degenerate := drawnFails error drawn
        · exact large ▸ sealing.1
        · exact degenerate ▸ sealing.2.1
    | ok frame =>
        have claimFails := world.store.claimSubscription_fails subscription
        simp only [World.claimed]
        cases claimed : (world.store.claimSubscription subscription).1 with
        | error error =>
            refine failsOnly_error ?_
            obtain large | full := claimFails error claimed
            · exact large ▸ sealing.1
            · exact full ▸ sealing.2.2
        | ok held => cases held <;> exact failsOnly_ok _

theorem claimed_tables (world : World ρ) (subscription : StoredSubscription) :
    (world.claimed subscription).2.store.state.environments = world.store.state.environments ∧
      (world.claimed subscription).2.store.state.keys = world.store.state.keys := by
  obtain ⟨_, edited⟩ | ⟨_, _, kept⟩ := world.store.claimSubscription_cases subscription
  · rw [World.claimed, edited]
    exact ⟨rfl, rfl⟩
  · rw [World.claimed, kept]
    exact ⟨rfl, rfl⟩

/-- The loop fails only as routing, sealing or storage can. -/
theorem run_deliverAll_fails {allowed : Error → Prop}
    (sealing : allowed .oversized ∧ allowed .cryptoFailure ∧ allowed .capacity)
    {publication : Publication} {subscriptions : List StoredSubscription}
    (routed : ∀ subscription ∈ subscriptions,
      FailsOnly allowed (route authority.policy world.store.state publication subscription)) :
    FailsOnly allowed (run (authority.perform random)
      (authority.deliverAll publication subscriptions) world).1 := by
  induction subscriptions generalizing world with
  | nil => exact failsOnly_ok []
  | cons subscription rest ih =>
      rw [CertificateAuthority.deliverAll]
      refine run_seq_fails (run_offer_fails sealing (routed subscription List.mem_cons_self)) ?_
      intro pushed middle ran
      have tables : middle.store.state.environments = world.store.state.environments ∧
          middle.store.state.keys = world.store.state.keys := by
        have start : world.store.state.environments = world.store.state.environments ∧
            world.store.state.keys = world.store.state.keys := ⟨rfl, rfl⟩
        have kept := run_offer_preserves random authority
          (fun current => current.store.state.environments = world.store.state.environments ∧
            current.store.state.keys = world.store.state.keys)
          (fun _ _ same => same)
          (fun current entry same => ⟨(claimed_tables current entry).1.trans same.1,
            (claimed_tables current entry).2.trans same.2⟩)
          publication subscription start
        rw [ran] at kept
        exact kept
      apply run_seq_fails
      · apply ih
        intro entry member
        rw [route_congr tables.1 tables.2]
        exact routed entry (List.mem_cons_of_mem _ member)
      · exact fun _ _ _ => failsOnly_ok _

theorem run_ofExcept_fails {α : Type} {allowed : Error → Prop} {result : Except Error α}
    (early : FailsOnly allowed result) :
    FailsOnly allowed (run (authority.perform random) (ofExcept result : CaProgram α) world).1 := by
  rw [run_ofExcept]
  exact early

theorem run_ofExcept_ok {α : Type} {result : Except Error α} {value : α} {middle : World ρ}
    (ran : run (authority.perform random) (ofExcept result : CaProgram α) world =
      (.ok value, middle)) : result = .ok value ∧ middle = world := by
  rw [run_ofExcept] at ran
  cases ran
  exact ⟨rfl, rfl⟩

theorem validateEnvironment_fails (agent : AgentId) (current : Option EnvironmentRef)
    (proposed : EnvironmentRef) :
    FailsOnly Error.BlamesNoRecord (authority.validateEnvironment agent current proposed) := by
  rw [CertificateAuthority.validateEnvironment]
  cases authority.policy.validateEnvironment agent current proposed with
  | error reason =>
      have blameless : Error.BlamesNoRecord .unauthorizedEnvironment := by decide
      exact failsOnly_error blameless
  | ok valid => exact failsOnly_ok _

theorem storedEnvironment_fails {limits : StoreLimits} {agent : AgentId} {encoded : Bytes}
    (sound : world.store.state.WellFormed limits)
    (stored : world.store.state.environments.get agent = some encoded) :
    FailsOnly Error.BlamesNoRecord (storedEnvironment encoded) := by
  obtain ⟨environment, parsed⟩ := sound.environments_parse agent encoded stored
  rw [storedEnvironment_of_parses parsed]
  exact failsOnly_ok environment

theorem processSetEnvironment_fails {limits : StoreLimits} {envelope : EnvelopeRef}
    {plaintext : Bytes} {proposed : EnvironmentRef}
    (sound : world.store.state.WellFormed limits)
    (parsed : parseOperation plaintext = .ok (.setEnvironment proposed)) :
    FailsOnly Error.BlamesNoRecord (run (authority.perform random)
      (authority.processSetEnvironment envelope plaintext proposed) world).1 := by
  have valid : StateCursor.isEnvironment plaintext = true := by
    rw [StateCursor.isEnvironment, parsed]
  rw [CertificateAuthority.processSetEnvironment]
  refine run_seq_fails (run_ofExcept_fails (failsOnly_rejectIf (by decide))) ?_
  intro passed middle ran
  obtain ⟨_, rfl⟩ := run_ofExcept_ok ran
  rw [run_environment]
  have current : FailsOnly Error.BlamesNoRecord
      ((middle.store.state.environments.get envelope.sender).mapM storedEnvironment) := by
    cases stored : middle.store.state.environments.get envelope.sender with
    | none => exact failsOnly_ok none
    | some encoded =>
        exact failsOnly_bind (storedEnvironment_fails sound stored) fun _ => failsOnly_ok _
  refine run_seq_fails (run_ofExcept_fails current) ?_
  intro read middle ran
  obtain ⟨_, rfl⟩ := run_ofExcept_ok ran
  refine run_seq_fails (run_ofExcept_fails (validateEnvironment_fails _ _ _)) ?_
  intro passed middle ran
  obtain ⟨_, rfl⟩ := run_ofExcept_ok ran
  rw [run_setEnvironment, continueStore]
  have storing := middle.store.setEnvironment_fails envelope.sender valid
  cases stored : (middle.store.setEnvironment envelope.sender plaintext).1 with
  | error error => exact failsOnly_error (storing error stored)
  | ok accepted => exact failsOnly_ok _

theorem validateStoredEnvironment_fails {limits : StoreLimits}
    (sound : world.store.state.WellFormed limits) (agent : AgentId) :
    FailsOnly Error.BlamesNoRecord (run (authority.perform random)
      (authority.validateStoredEnvironment agent) world).1 := by
  rw [CertificateAuthority.validateStoredEnvironment, run_environment]
  cases stored : world.store.state.environments.get agent with
  | none => exact failsOnly_error (by decide)
  | some encoded =>
      refine run_seq_fails (run_ofExcept_fails (storedEnvironment_fails sound stored)) ?_
      intro environment middle ran
      exact run_ofExcept_fails (validateEnvironment_fails _ _ _)

theorem processSubscribe_fails {limits : StoreLimits} {envelope : EnvelopeRef}
    {plaintext : Bytes} {typeId : TypeId} {kind : SubscriptionKind}
    (sound : world.store.state.WellFormed limits)
    (valid : StateCursor.subscriptionKind plaintext typeId = some kind) :
    FailsOnly Error.BlamesNoRecord (run (authority.perform random)
      (authority.processSubscribe envelope plaintext typeId kind) world).1 := by
  rw [CertificateAuthority.processSubscribe]
  refine run_seq_fails (run_ofExcept_fails (failsOnly_rejectIf (by decide))) ?_
  intro passed middle ran
  obtain ⟨_, rfl⟩ := run_ofExcept_ok ran
  refine run_seq_fails (validateStoredEnvironment_fails sound envelope.sender) ?_
  intro checked last _
  rw [run_putSubscription, continueStore]
  have storing : FailsOnly Error.BlamesNoRecord (last.store.putSubscription
      ⟨envelope.sender, typeId, envelope.handler, kind, plaintext⟩).1 :=
    last.store.putSubscription_fails valid
  cases stored : (last.store.putSubscription
      ⟨envelope.sender, typeId, envelope.handler, kind, plaintext⟩).1 with
  | error error => exact failsOnly_error (storing error stored)
  | ok accepted => exact failsOnly_ok _

/-- A publication blames a record only when its own publisher has none. -/
theorem processPublish_fails {limits : StoreLimits} {envelope : EnvelopeRef} {typeId : TypeId}
    {predicate : PredicateRef} {value : Bytes} (sound : world.store.state.WellFormed limits) :
    FailsOnly (fun error => error.BlamesNoRecord ∨
        error = .malformed ∧ world.store.state.environments.get envelope.sender = none)
      (run (authority.perform random)
        (authority.processPublish envelope typeId predicate value) world).1 := by
  rw [CertificateAuthority.processPublish]
  refine run_seq_fails (run_ofExcept_fails (failsOnly_rejectIf (.inl (by decide)))) ?_
  intro passed middle ran
  obtain ⟨_, rfl⟩ := run_ofExcept_ok ran
  rw [run_environment]
  cases stored : middle.store.state.environments.get envelope.sender with
  | none => exact failsOnly_error (.inr ⟨rfl, rfl⟩)
  | some encoded =>
      refine run_seq_fails (run_ofExcept_fails fun error failed =>
        .inl (storedEnvironment_fails sound stored error failed)) ?_
      intro environment last ran
      obtain ⟨_, rfl⟩ := run_ofExcept_ok ran
      refine run_seq_fails (run_ofExcept_fails fun error failed =>
        .inl (validateEnvironment_fails _ _ _ error failed)) ?_
      intro valid final ran
      obtain ⟨_, rfl⟩ := run_ofExcept_ok ran
      rw [run_subscriptionsFor]
      apply run_seq_fails
      · refine run_deliverAll_fails ⟨.inl (by decide), .inl (by decide), .inl (by decide)⟩
          fun subscription member => ?_
        obtain ⟨decision, routed⟩ := route_of_wellFormed authority.policy sound
          ⟨envelope.sender, environment, typeId, predicate, value⟩ member
        rw [routed]
        exact failsOnly_ok decision
      · exact fun _ _ _ => failsOnly_ok _

end Failures

end SecurePubSub.Authority
