import SecurePubSub.Authority.DeliveryLoop
import SecurePubSub.Authority.Reachability

namespace SecurePubSub.Authority

open SecurePubSub.Data SecurePubSub.Data.Fallible SecurePubSub.Data.Program SecurePubSub.Protocol

/-! What a request that fails leaves behind. -/

/-- The tables are as before, but for expired sessions and the session of the request itself. -/
structure Intact (before after : StoreState) (frame : Bytes) (nowSeconds : UInt64) : Prop where
  keys : after.keys = before.keys
  environments : after.environments = before.environments
  subscriptions : ∀ typeId,
    after.subscriptions.forType typeId = before.subscriptions.forType typeId
  replay : ∀ key, after.replay.entries.get key = before.replay.entries.get key ∨
    (∃ expires, before.replay.entries.get key = some expires ∧ expires ≤ nowSeconds ∧
      after.replay.entries.get key = none) ∨
    (∃ envelope, CertificateAuthority.acceptEnvelope frame = .ok envelope ∧
      key = replayKey envelope.sender envelope.sessionId ∧
      after.replay.entries.get key = some (saturatingAdd nowSeconds before.replay.ttlSeconds) ∧
      ∀ expires, before.replay.entries.get key = some expires → expires ≤ nowSeconds)

section Intactness

variable {before middle after : StoreState} {frame : Bytes} {nowSeconds : UInt64}

theorem Intact.refl (state : StoreState) : Intact state state frame nowSeconds :=
  ⟨rfl, rfl, fun _ => rfl, fun _ => .inl rfl⟩

theorem Intact.trans_same (intact : Intact before middle frame nowSeconds)
    (keys : after.keys = middle.keys) (environments : after.environments = middle.environments)
    (subscriptions : ∀ typeId,
      after.subscriptions.forType typeId = middle.subscriptions.forType typeId)
    (replay : after.replay = middle.replay) : Intact before after frame nowSeconds where
  keys := keys.trans intact.keys
  environments := environments.trans intact.environments
  subscriptions := fun typeId => (subscriptions typeId).trans (intact.subscriptions typeId)
  replay := fun key => by
    rw [replay]
    exact intact.replay key

theorem purge_get_cases (cache : ReplayCache) (nowSeconds : UInt64) (key : ReplayKey) :
    (cache.purge nowSeconds).entries.get key = cache.entries.get key ∨
      ∃ expires, cache.entries.get key = some expires ∧ expires ≤ nowSeconds ∧
        (cache.purge nowSeconds).entries.get key = none := by
  rw [ReplayCache.purge_get]
  cases found : cache.entries.get key with
  | none => exact .inl rfl
  | some expires =>
      by_cases live : nowSeconds < expires
      · exact .inl (by simp [Option.filter, live])
      · exact .inr ⟨expires, rfl, UInt64.not_lt.mp live, by simp [Option.filter, live]⟩

theorem intact_purged (state : StoreState) :
    Intact state { state with replay := state.replay.purge nowSeconds } frame nowSeconds :=
  ⟨rfl, rfl, fun _ => rfl, fun key =>
    (purge_get_cases state.replay nowSeconds key).imp id .inl⟩

/-- Checking the session of a request keeps the tables intact. -/
theorem World.marked_intact {ρ : Type} (world : World ρ) {envelope : EnvelopeRef}
    (accepted : CertificateAuthority.acceptEnvelope frame = .ok envelope) :
    Intact world.store.state
      (world.marked envelope.sender envelope.sessionId nowSeconds).store.state frame nowSeconds := by
  obtain ⟨absent, _, _, marked⟩ | ⟨_, _, kept | purged⟩ :=
    world.store.checkAndMark_cases envelope.sender envelope.sessionId nowSeconds
  · rw [World.marked, marked]
    refine ⟨rfl, rfl, fun _ => rfl, fun key => ?_⟩
    dsimp only
    rw [ReplayCache.mark_get]
    by_cases own : key = replayKey envelope.sender envelope.sessionId
    · rw [if_pos own]
      refine .inr (.inr ⟨envelope, accepted, own, rfl, fun expires found => ?_⟩)
      rw [SortedMap.contains_eq, ← own] at absent
      obtain same | ⟨held, stored, expired, _⟩ :=
        purge_get_cases world.store.state.replay nowSeconds key
      · rw [same, found] at absent
        cases absent
      · cases found.symm.trans stored
        exact expired
    · rw [if_neg own]
      exact (purge_get_cases world.store.state.replay nowSeconds key).imp id .inl
  · rw [World.marked, kept]
    exact .refl _
  · rw [World.marked, purged]
    exact intact_purged _

end Intactness

section Requests

variable {ρ : Type} (random : CryptoRandom ρ) (authority : CertificateAuthority) (world : World ρ)

/-- The delivery loop fails behind a one-shot subscription that it has consumed. -/
def LosesClaim (frame : Bytes) (nowSeconds : UInt64) : Prop :=
  ∃ request publication, ReachesLoop authority world.store frame nowSeconds request publication ∧
    ∃ earlier failing later,
      world.store.state.subscriptions.forType publication.typeId = earlier ++ failing :: later ∧
      (∃ claimed ∈ earlier,
        consumes authority.policy world.store.state publication claimed = true) ∧
      Clear (FailsAt random authority world.store.state world.rng world.store.faults.tail
        publication) [] earlier ∧
      FailsAt random authority world.store.state world.rng world.store.faults.tail publication
        earlier failing

variable {random authority world} {frame : Bytes} {nowSeconds : UInt64}

theorem continueStore_error {γ : Type} {answer : Except Error γ × Store} {value : ProcessResult}
    {error : Error}
    (failed : (continueStore world answer (fun _ after => (.ok value, after))).1 = .error error) :
    answer.1 = .error error := by
  rw [continueStore] at failed
  cases result : answer.1 with
  | error reason => rw [result] at failed; cases failed; rfl
  | ok done => rw [result] at failed; cases failed

theorem setEnvironment_intact {before : StoreState} {store : Store} {agent : AgentId}
    {encoded : Bytes} {error : Error} (intact : Intact before store.state frame nowSeconds)
    (failed : (store.setEnvironment agent encoded).1 = .error error) :
    Intact before (store.setEnvironment agent encoded).2.state frame nowSeconds := by
  obtain ⟨_, _, stored, _⟩ | ⟨_, _, kept⟩ := store.setEnvironment_cases agent encoded
  · cases stored.symm.trans failed
  · rw [kept]
    exact intact

theorem putSubscription_intact {before : StoreState} {store : Store}
    {subscription : StoredSubscription} {error : Error}
    (intact : Intact before store.state frame nowSeconds)
    (failed : (store.putSubscription subscription).1 = .error error) :
    Intact before (store.putSubscription subscription).2.state frame nowSeconds := by
  obtain ⟨_, stored, _⟩ | ⟨_, _, kept | ⟨rejected, result⟩⟩ :=
    store.putSubscription_cases subscription
  · cases stored.symm.trans failed
  · rw [kept]
    exact intact
  · rw [result]
    refine intact.trans_same rfl rfl (fun typeId => ?_) rfl
    obtain ⟨_, _, accepted, _⟩ | ⟨_, _, buckets⟩ :=
      store.state.subscriptions.put_cases store.limits.subscriptions subscription
    · cases accepted.symm.trans rejected
    · exact buckets typeId

theorem consumes_marked (policy : EnvironmentPolicy) (sender : AgentId) (session : SessionId)
    (publication : Publication) :
    consumes policy (world.marked sender session nowSeconds).store.state publication =
      consumes policy world.store.state publication := by
  rw [World.marked_state]
  rfl

/-- A failed request leaves the tables intact unless its loop loses a claim, and then it does not. -/
theorem handle_intact_iff (frame : Bytes) (nowSeconds : UInt64) :
    (∀ error, (authority.handle random frame nowSeconds world).1 = .error error →
        Intact world.store.state (authority.handle random frame nowSeconds world).2.store.state
          frame nowSeconds) ↔
      ¬ LosesClaim random authority world frame nowSeconds := by
  constructor
  · intro intact ⟨request, publication, reaches, earlier, failing, later, split,
      ⟨claimed, member, consumed⟩, clear, fails⟩
    obtain ⟨front, item, back, middle, error, after, splitAgain, clearAgain, failsAgain, reached,
      ran, kept⟩ | ⟨frames, after, clearAll, _⟩ := handle_publication random reaches
    · have same := clear_unique splitAgain clearAgain failsAgain split clear fails
      subst same
      rw [ran] at intact
      have bucket := (intact error rfl).subscriptions publication.typeId
      rw [kept, reached.bucket, splitAgain] at bucket
      have whole := List.append_cancel_right bucket
      have stays := (List.filter_eq_self.mp whole) claimed member
      rw [consumes_marked, consumed] at stays
      cases stays
    · exact clearAll earlier failing later split fails
  · intro keeps error failed
    have handled : Handled random authority world frame nowSeconds
        (authority.handle random frame nowSeconds world) := handle_handled frame nowSeconds
    generalize authority.handle random frame nowSeconds world = result at handled failed
    cases handled with
    | refused reason => exact .refl _
    | rejected reason envelope accepted => exact world.marked_intact accepted
    | environment request publicKeys proposed admits messageType operation =>
        dsimp only at failed ⊢
        rw [continueStore_store]
        exact setEnvironment_intact (world.marked_intact admits.accepted)
          (continueStore_error failed)
    | subscription request publicKeys typeId predicate kind admits operation handler =>
        dsimp only at failed ⊢
        rw [continueStore_store]
        exact putSubscription_intact (world.marked_intact admits.accepted)
          (continueStore_error failed)
    | publication request publication reaches =>
        dsimp only at failed ⊢
        rw [← handle_of_reachesLoop reaches] at failed ⊢
        obtain ⟨earlier, failing, later, middle, reason, after, split, clear, fails, reached, ran,
          kept⟩ | ⟨frames, after, _, ran, _⟩ := handle_publication random reaches
        · have unclaimed : ∀ entry ∈ earlier, (!consumes authority.policy
              (world.marked request.envelope.sender request.envelope.sessionId
                nowSeconds).store.state publication entry) = true := by
            intro entry member
            rw [consumes_marked, Bool.not_eq_true']
            exact Bool.eq_false_iff.mpr fun consumed => keeps ⟨request, publication, reaches,
              earlier, failing, later, split, ⟨entry, member, consumed⟩, clear, fails⟩
          obtain ⟨publicKeys, admits⟩ := reaches.admits
          rw [ran]
          dsimp only
          rw [kept]
          refine (world.marked_intact admits.accepted).trans_same reached.keys reached.environments
            (fun typeId => ?_) reached.replay
          by_cases own : typeId = publication.typeId
          · rw [own, reached.bucket, List.filter_eq_self.mpr unclaimed, ← split, World.marked_state]
          · exact reached.others typeId own
        · rw [ran] at failed
          cases failed

end Requests

/-! ## A one-shot subscription that is lost -/

/-- The publication fails at agent 3 when agent 2's subscription is gone already. -/
theorem failed_publication_not_intact :
    ¬ ∀ (authority : CertificateAuthority) (random : CryptoRandom Nat) (world : World Nat)
      (frame : Bytes) (nowSeconds : UInt64) (error : Error),
      (authority.handle random frame nowSeconds world).1 = .error error →
        Intact world.store.state (authority.handle random frame nowSeconds world).2.store.state
          frame nowSeconds := by
  intro intact
  obtain ⟨failed, changed⟩ : (Sample.authority.handle .counting Sample.publication 10
      (Sample.subscribed zeroSecret).world).1 = .error .cryptoFailure ∧
      (Sample.authority.handle .counting Sample.publication 10
        (Sample.subscribed zeroSecret).world).2.store.state.subscriptions.forType Sample.typeId ≠
          (Sample.subscribed zeroSecret).world.store.state.subscriptions.forType Sample.typeId := by
    decide +kernel
  exact changed ((intact _ _ _ _ _ _ failed).subscriptions Sample.typeId)

end SecurePubSub.Authority
