import SecurePubSub.Cad.BrokerLink

namespace SecurePubSub.Cad

open SecurePubSub.Data SecurePubSub.Data.Fallible SecurePubSub.Protocol SecurePubSub.Authority
  SecurePubSub.Link

/-! The deliveries that the CA daemon holds are those of one request.

While some are pending, `currentRequest` names the request that generated all of
them, and no other request is processed. The next group therefore finds the whole
capacity free, which covers every subscription that the store can hold.
-/

namespace LinkState

variable {ρ : Type} {random : CryptoRandom ρ} {state : LinkState ρ}

/-- Deliveries are queued behind what is pending, one frame each, under the ids drawn. -/
theorem queueDeliveries_eq_ok {draws : List MessageId} {deliveries : List Bytes}
    {pending after : PendingFrames LinkFrame} {frames : List LinkFrame}
    (queued : queueDeliveries draws deliveries pending = .ok (frames, after)) :
    after.maximum = pending.maximum ∧
      after.entries = pending.entries ++ frames.map (fun frame => (frame.id, frame)) ∧
      frames.map LinkFrame.payload = deliveries ∧
      (frames.map LinkFrame.id).Sublist draws ∧
      ∀ frame ∈ frames, frame.kind = .delivery := by
  induction deliveries generalizing draws pending frames with
  | nil =>
      rw [queueDeliveries.eq_def] at queued
      cases queued
      simp
  | cons delivery rest ih =>
      cases draws with
      | nil => cases queued
      | cons id draws =>
          obtain ⟨frame, built, queued⟩ := bind_eq_ok.mp queued
          obtain ⟨acquired, inserted, queued⟩ := bind_eq_ok.mp queued
          obtain ⟨⟨later, last⟩, queuedLater, queued⟩ := bind_eq_ok.mp queued
          cases queued
          obtain ⟨kind, named, payload⟩ := LinkFrame.build_eq_ok built
          obtain ⟨_, maximum, entries⟩ := PendingFrames.of_insert inserted
          obtain ⟨maximumLater, entriesLater, payloads, ids, kinds⟩ := ih queuedLater
          refine ⟨maximumLater.trans maximum, ?_, ?_, ?_, ?_⟩
          · rw [entriesLater, entries]
            simp [named]
          · simp [payload, payloads]
          · simpa [named] using ids
          · intro other member
            rcases List.mem_cons.mp member with same | member
            · rw [same, kind]
            · exact kinds other member

/-- Deliveries can be queued when they fit, one by one and all together, and enough fresh ids are
drawn. -/
theorem queueDeliveries_ok {draws : List MessageId} {deliveries : List Bytes}
    {pending : PendingFrames LinkFrame} (separate : draws.Nodup)
    (fresh : ∀ id ∈ draws, id ∉ pending.entries.map Prod.fst)
    (enough : deliveries.length ≤ draws.length)
    (room : pending.entries.length + deliveries.length ≤ pending.maximum)
    (short : ∀ delivery ∈ deliveries, delivery.length ≤ maxFrameLen) :
    ∃ queue, queueDeliveries draws deliveries pending = .ok queue := by
  induction deliveries generalizing draws pending with
  | nil => exact ⟨_, by rw [queueDeliveries.eq_def]; rfl⟩
  | cons delivery rest ih =>
      cases draws with
      | nil => cases enough
      | cons id draws =>
          obtain ⟨new, separate⟩ := List.nodup_cons.mp separate
          simp only [List.length_cons] at enough room
          let frame : LinkFrame :=
            ⟨.delivery, id, delivery, short delivery List.mem_cons_self, fun ack => by cases ack⟩
          have built : LinkFrame.build .delivery id delivery = .ok frame :=
            LinkFrame.build_short id frame.bounded rfl
          obtain ⟨acquired, inserted, maximum, entries⟩ :=
            @PendingFrames.insert_eq_ok _ pending id frame (fresh id List.mem_cons_self) (by omega)
          have unknown : ∀ other ∈ draws, other ∉ acquired.entries.map Prod.fst := by
            intro other member known
            rw [entries, List.map_append, List.mem_append] at known
            rcases known with old | same
            · exact fresh other (List.mem_cons_of_mem _ member) old
            · rw [List.map_cons, List.map_nil, List.mem_singleton] at same
              have named : other = id := same
              exact new (named ▸ member)
          have free : acquired.entries.length + rest.length ≤ acquired.maximum := by
            rw [entries, maximum, List.length_append, List.length_singleton]
            omega
          obtain ⟨⟨frames, last⟩, queued⟩ := ih separate unknown (by omega) free
            (fun later member => short later (List.mem_cons_of_mem _ member))
          refine ⟨(frame :: frames, last), ?_⟩
          rw [queueDeliveries, built, ok_bind, inserted, ok_bind, queued]
          rfl

/-- The ways in which a new request can be processed. -/
inductive Processed (random : CryptoRandom ρ) (state : LinkState ρ) (request : MessageId)
    (payload : Bytes) (nowSeconds : UInt64) (draws : List MessageId) : Round ρ → Prop where
  | exit (round : Round ρ) (ending : round.ending = .exit) :
      Processed random state request payload nowSeconds draws round
  | abandon (round : Round ρ) (deliveries : List Bytes)
      (answer : (state.system.authority.handle random payload nowSeconds state.system.world).1 =
        .ok (.deliveries deliveries))
      (overflow : state.pendingDeliveries.remaining < deliveries.length) :
      Processed random state request payload nowSeconds draws round
  | quiet (call : ProcessCall) (acquired : DedupWindow) (id : call.id = request)
      (sent : call.payload = payload) (nothing : call.deliveries = []) (none : call.frames = [])
      (recorded : state.acquiredRequests.insert request = .ok acquired) :
      Processed random state request payload nowSeconds draws
        ⟨{ state with
            system := (state.called random request payload nowSeconds).system
            acquiredRequests := acquired
            calls := state.calls ++ [call] }, [LinkFrame.ack request], .stay⟩
  | group (call : ProcessCall) (acquired : DedupWindow) (pending : PendingFrames LinkFrame)
      (id : call.id = request) (sent : call.payload = payload) (some : call.frames ≠ [])
      (whole : call.frames.map LinkFrame.payload = call.deliveries)
      (drawn : (call.frames.map LinkFrame.id).Sublist draws)
      (kinds : ∀ frame ∈ call.frames, frame.kind = .delivery)
      (maximum : pending.maximum = state.pendingDeliveries.maximum)
      (entries : pending.entries = state.pendingDeliveries.entries ++
        call.frames.map (fun frame => (frame.id, frame)))
      (recorded : state.acquiredRequests.insert request = .ok acquired) :
      Processed random state request payload nowSeconds draws
        ⟨{ system := (state.called random request payload nowSeconds).system
           pendingDeliveries := pending
           acquiredRequests := acquired
           currentRequest := Option.some request
           calls := state.calls ++ [call] }, call.frames, .stay⟩

theorem processed (request : MessageId) (payload : Bytes) (nowSeconds : UInt64)
    (draws : List MessageId) :
    Processed random state request payload nowSeconds draws
      (state.process random request payload nowSeconds draws) := by
  have acquire (call : ProcessCall) (id : call.id = request) (sent : call.payload = payload)
      (nothing : call.deliveries = []) (none : call.frames = []) :
      Processed random state request payload nowSeconds draws
        (acquire { state with
          system := (state.called random request payload nowSeconds).system
          calls := state.calls ++ [call] } request) := by
    unfold LinkState.acquire
    dsimp only
    cases recorded : state.acquiredRequests.insert request with
    | error fault => exact .exit _ rfl
    | ok acquired => exact .quiet call acquired id sent nothing none recorded
  cases answer : (state.system.authority.handle random payload nowSeconds
      state.system.world).1 with
  | error fault =>
      have called : state.called random request payload nowSeconds = { state with
          system := (state.called random request payload nowSeconds).system
          calls := state.calls ++ [⟨request, payload, .error fault, []⟩] } := by
        simp only [LinkState.called, answer]
      unfold process
      simp only [answer]
      rw [called]
      exact acquire _ rfl rfl rfl rfl
  | ok result =>
      have called : state.called random request payload nowSeconds = { state with
          system := (state.called random request payload nowSeconds).system
          calls := state.calls ++ [⟨request, payload, .ok result, []⟩] } := by
        simp only [LinkState.called, answer]
      unfold process
      simp only [answer]
      cases result with
      | accepted =>
          rw [called]
          exact acquire _ rfl rfl rfl rfl
      | deliveries deliveries =>
          simp only
          split
          · rename_i overflow
            exact .abandon _ deliveries answer overflow
          · cases queued : queueDeliveries draws deliveries state.pendingDeliveries with
            | error fault => exact .exit _ rfl
            | ok queue =>
                obtain ⟨frames, pending⟩ := queue
                obtain ⟨maximum, entries, whole, drawn, kinds⟩ := queueDeliveries_eq_ok queued
                simp only
                split
                · rename_i none
                  rw [List.isEmpty_iff] at none
                  subst none
                  subst whole
                  rw [List.map_nil, queueDeliveries.eq_def] at queued
                  cases queued
                  exact acquire ⟨request, payload, .ok (.deliveries []), []⟩ rfl rfl rfl rfl
                · rename_i some
                  rw [List.isEmpty_iff] at some
                  dsimp only [LinkState.called]
                  cases recorded : state.acquiredRequests.insert request with
                  | error fault => exact .exit _ rfl
                  | ok acquired =>
                      exact .group ⟨request, payload, .ok (.deliveries deliveries), frames⟩
                        acquired pending rfl rfl some whole drawn kinds maximum entries recorded

/-- An acknowledgement completes the current request when nothing is left pending. -/
theorem onAck_cases (id : MessageId) :
    (∃ request, state.currentRequest = some request ∧
      (state.pendingDeliveries.acknowledge id).entries = [] ∧
      state.onAck id = ⟨{ state with
        pendingDeliveries := state.pendingDeliveries.acknowledge id
        currentRequest := none }, [LinkFrame.ack request], .stay⟩) ∨
    ((state.currentRequest = none ∨ (state.pendingDeliveries.acknowledge id).entries ≠ []) ∧
      state.onAck id =
        ⟨{ state with pendingDeliveries := state.pendingDeliveries.acknowledge id }, [], .stay⟩) := by
  have empty := @PendingFrames.isEmpty_iff _ (state.pendingDeliveries.acknowledge id)
  unfold onAck
  dsimp only
  cases current : state.currentRequest with
  | none =>
      refine .inr ⟨.inl rfl, ?_⟩
      split
      · rename_i impossible
        cases impossible
      · simp
  | some request =>
      cases left : (state.pendingDeliveries.acknowledge id).isEmpty with
      | true => exact .inl ⟨request, rfl, empty.mp left, rfl⟩
      | false =>
          have more : (state.pendingDeliveries.acknowledge id).entries ≠ [] := by
            intro none
            rw [empty.mpr none] at left
            cases left
          exact .inr ⟨.inr more, by simp⟩

/-! ## The group of the current request -/

/-- What is pending was generated by the last call of `process`, which was made for a request. -/
def Serves (state : LinkState ρ) (request : MessageId) : Prop :=
  ∃ earlier call, state.calls = earlier ++ [call] ∧ call.id = request ∧
    call.frames.map LinkFrame.payload = call.deliveries ∧
    ∀ entry ∈ state.pendingDeliveries.entries, entry.1 = entry.2.id ∧ entry.2 ∈ call.frames

structure Grouped (state : LinkState ρ) : Prop where
  group : (state.currentRequest = none ∧ state.pendingDeliveries.entries = []) ∨
    ∃ request, state.currentRequest = some request ∧ state.pendingDeliveries.entries ≠ [] ∧
      state.Serves request
  covered : state.system.world.store.limits.subscriptions ≤ state.pendingDeliveries.maximum
  within : state.system.world.store.WithinCapacity

namespace Grouped

theorem pending_iff (grouped : state.Grouped) :
    state.pendingDeliveries.entries ≠ [] ↔ ∃ request, state.currentRequest = some request := by
  rcases grouped.group with ⟨idle, nothing⟩ | ⟨request, current, pending, _⟩
  · simp [idle, nothing]
  · simp [current, pending]

theorem serves (grouped : state.Grouped) {request : MessageId}
    (current : state.currentRequest = some request) : state.Serves request := by
  rcases grouped.group with ⟨idle, _⟩ | ⟨other, same, _, serves⟩
  · rw [idle] at current
    cases current
  · rw [same] at current
    cases current
    exact serves

theorem nothing_pending (grouped : state.Grouped) (idle : state.currentRequest = none) :
    state.pendingDeliveries.entries = [] := by
  rcases grouped.group with ⟨_, nothing⟩ | ⟨request, current, _⟩
  · exact nothing
  · rw [idle] at current
    cases current

theorem onAck (grouped : state.Grouped) (id : MessageId) : (state.onAck id).state.Grouped := by
  have remaining := @PendingFrames.entries_acknowledge _ state.pendingDeliveries id
  rcases @onAck_cases _ state id with ⟨_, _, nothing, acked⟩ | ⟨still, acked⟩
  · rw [acked]
    exact ⟨.inl ⟨rfl, nothing⟩, grouped.covered, grouped.within⟩
  · rw [acked]
    refine ⟨?_, grouped.covered, grouped.within⟩
    rcases grouped.group with ⟨idle, nothing⟩ | ⟨request, current, _, serves⟩
    · exact .inl ⟨idle, by rw [remaining, nothing, List.filter_nil]⟩
    · obtain ⟨earlier, call, calls, id, whole, each⟩ := serves
      refine .inr ⟨request, current, ?_, earlier, call, calls, id, whole, ?_⟩
      · rcases still with idle | some
        · rw [idle] at current
          cases current
        · exact some
      · intro entry member
        rw [remaining] at member
        exact each entry (List.mem_filter.mp member).1

/-- A request is processed only with the whole capacity free, which its deliveries fit. -/
theorem not_overflow (grouped : state.Grouped) (idle : state.currentRequest = none)
    {payload : Bytes} {nowSeconds : UInt64} {deliveries : List Bytes}
    (answer : (state.system.authority.handle random payload nowSeconds state.system.world).1 =
      .ok (.deliveries deliveries)) :
    deliveries.length ≤ state.pendingDeliveries.remaining := by
  have stored := (deliveries_bounded answer).1
  have within : state.system.world.store.state.subscriptions.count ≤
      state.system.world.store.limits.subscriptions := grouped.within
  have covered := grouped.covered
  rw [PendingFrames.remaining, PendingFrames.len_eq, grouped.nothing_pending idle]
  simp only [List.length_nil]
  omega

theorem process (grouped : state.Grouped) (idle : state.currentRequest = none)
    (request : MessageId) (payload : Bytes) (nowSeconds : UInt64) (draws : List MessageId) :
    (state.process random request payload nowSeconds draws).ending = .exit ∨
      (state.process random request payload nowSeconds draws).ending = .stay ∧
        (state.process random request payload nowSeconds draws).state.Grouped := by
  have nothing := grouped.nothing_pending idle
  have limits := @handle_limits _ random state.system.authority payload nowSeconds
    state.system.world
  have within := @withinCapacity_handle _ random state.system.authority _ grouped.within payload
    nowSeconds
  have covered :
      (state.called random request payload nowSeconds).system.world.store.limits.subscriptions ≤
        state.pendingDeliveries.maximum := by
    change (state.system.authority.handle random payload nowSeconds
      state.system.world).2.store.limits.subscriptions ≤ _
    rw [limits]
    exact grouped.covered
  have ways := @processed _ random state request payload nowSeconds draws
  generalize state.process random request payload nowSeconds draws = round at ways ⊢
  cases ways with
  | exit _ ending => exact .inl ending
  | abandon _ deliveries answer overflow =>
      have fits := grouped.not_overflow idle answer
      omega
  | quiet call acquired id sent nothing none recorded =>
      exact .inr ⟨rfl, .inl ⟨idle, grouped.nothing_pending idle⟩, covered, within⟩
  | group call acquired pending id sent some whole _ _ maximum entries recorded =>
      rw [grouped.nothing_pending idle, List.nil_append] at entries
      refine .inr ⟨rfl, .inr ⟨request, rfl, ?_, state.calls, call, rfl, id, whole, ?_⟩, ?_, within⟩
      · simpa [entries] using some
      · intro entry member
        simp only [entries, List.mem_map] at member
        obtain ⟨frame, generated, rfl⟩ := member
        exact ⟨rfl, generated⟩
      · rw [maximum]
        exact covered

/-- The daemon goes on when it can draw an id for each delivery and record the request. -/
theorem process_stays (grouped : state.Grouped) (idle : state.currentRequest = none)
    (positive : 0 < state.acquiredRequests.maximum) (request : MessageId) (payload : Bytes)
    (nowSeconds : UInt64) {draws : List MessageId} (separate : draws.Nodup)
    (enough : ∀ deliveries, (state.system.authority.handle random payload nowSeconds
      state.system.world).1 = .ok (.deliveries deliveries) → deliveries.length ≤ draws.length) :
    (state.process random request payload nowSeconds draws).ending ≠ .exit := by
  obtain ⟨acquired, recorded, _⟩ :=
    @DedupWindow.insert_eq_ok state.acquiredRequests positive request
  have nothing := grouped.nothing_pending idle
  unfold LinkState.process
  cases answer : (state.system.authority.handle random payload nowSeconds
      state.system.world).1 with
  | error fault => simp [answer, acquire, called, recorded]
  | ok result =>
      cases result with
      | accepted => simp [answer, acquire, called, recorded]
      | deliveries deliveries =>
          have fits := grouped.not_overflow idle answer
          have short := (deliveries_bounded answer).2
          have room : state.pendingDeliveries.entries.length + deliveries.length ≤
              state.pendingDeliveries.maximum := by
            rw [PendingFrames.remaining, PendingFrames.len_eq, nothing] at fits
            simpa [nothing] using fits
          obtain ⟨⟨frames, pending⟩, queued⟩ := queueDeliveries_ok separate
            (by simp [nothing]) (enough deliveries answer) room short
          simp only [answer, queued]
          rw [if_neg (Nat.not_lt.mpr fits)]
          split
          · simp [acquire, called, recorded]
          · simp [called, recorded]

theorem onFrame (grouped : state.Grouped) (frame : LinkFrame) (nowSeconds : UInt64)
    (draws : List MessageId) :
    (state.onFrame random frame nowSeconds draws).ending = .exit ∨
      (state.onFrame random frame nowSeconds draws).ending ≠ .abandon ∧
        (state.onFrame random frame nowSeconds draws).state.Grouped := by
  have closed : (⟨state, [], .closed⟩ : Round ρ).ending ≠ .abandon := nofun
  unfold LinkState.onFrame
  split
  · refine .inr ⟨?_, grouped.onAck frame.id⟩
    unfold LinkState.onAck
    dsimp only
    split <;> nofun
  · unfold onRequest
    split
    · exact .inr ⟨nofun, grouped⟩
    · split
      · exact .inr ⟨nofun, grouped⟩
      · split
        · rename_i idle
          rcases @process _ random state grouped idle frame.id frame.payload nowSeconds draws with
            exits | ⟨stays, kept⟩
          · exact .inl exits
          · exact .inr ⟨by rw [stays]; nofun, kept⟩
        · exact .inr ⟨closed, grouped⟩
  · exact .inr ⟨closed, grouped⟩

theorem onBytes (grouped : state.Grouped) (bytes : Bytes) (nowSeconds : UInt64)
    (draws : List MessageId) :
    (state.onBytes random bytes nowSeconds draws).ending = .exit ∨
      (state.onBytes random bytes nowSeconds draws).ending ≠ .abandon ∧
        (state.onBytes random bytes nowSeconds draws).state.Grouped := by
  unfold LinkState.onBytes
  split
  · exact .inr ⟨nofun, grouped⟩
  · exact grouped.onFrame _ nowSeconds draws

theorem reload (grouped : state.Grouped)
    (candidate : Option (EnvironmentPolicy × List (AgentId × PublicKeys))) :
    (state.reload candidate).Grouped := by
  obtain ⟨group, covered, within⟩ := grouped
  unfold LinkState.reload
  split
  · rename_i policy agents store found
    rw [found] at covered within
    have kept := withinCapacity_reconcileAgents within agents
    have limits := store.reconcileAgents_limits agents
    have stillCovered : (Store.persistent (store.reconcileAgents agents).2).limits.subscriptions ≤
        state.pendingDeliveries.maximum := by
      simpa [Store.limits, limits] using covered
    dsimp only
    split
    · exact ⟨group, stillCovered, kept⟩
    · exact ⟨group, stillCovered, kept⟩
  · exact ⟨group, covered, within⟩

end Grouped

@[simp] theorem calls_onAck (id : MessageId) : (state.onAck id).state.calls = state.calls := by
  unfold onAck
  dsimp only
  split <;> rfl

/-- Nothing is processed while a request is current. -/
theorem calls_onBytes {request : MessageId} (busy : state.currentRequest = some request)
    (bytes : Bytes) (nowSeconds : UInt64) (draws : List MessageId) :
    (state.onBytes random bytes nowSeconds draws).state.calls = state.calls := by
  unfold onBytes
  split
  · rfl
  · unfold onFrame
    split
    · exact calls_onAck _
    · unfold onRequest
      split
      · rfl
      · split
        · rfl
        · rw [if_neg (by simp [busy])]
    · rfl

end LinkState

/-! ## Runs of the daemon -/

namespace Daemon

variable {ρ : Type} {random : CryptoRandom ρ} {daemon : Daemon ρ}

/-- The daemon has left its loop, or what it holds is grouped. -/
def Grouped (daemon : Daemon ρ) : Prop := daemon.phase ≠ .exited → daemon.link.Grouped

theorem grouped_finish {round : Round ρ}
    (kept : round.ending = .exit ∨ round.ending ≠ .abandon ∧ round.state.Grouped)
    (written : Option Nat) : (round.finish written).1.Grouped := by
  intro running
  unfold Round.finish at running ⊢
  rcases kept with exits | ⟨_, grouped⟩
  · simp only [exits] at running
    exact absurd rfl running
  · dsimp only at running ⊢
    split
    · exact grouped
    · rename_i exits
      simp only [exits] at running
      exact absurd rfl running
    · exact grouped

theorem grouped_step (grouped : daemon.Grouped) (input : Input) :
    (daemon.step random input).1.Grouped := by
  have resent (active : daemon.phase ≠ .exited) (written : Option Nat) :
      (daemon.link.resend.finish written).1.Grouped :=
    grouped_finish (.inr ⟨Ending.noConfusion, grouped active⟩) written
  cases input with
  | accept written =>
      dsimp only [step]
      split
      · rename_i accepting
        exact resent (by simp [accepting]) written
      · exact grouped
  | incoming received nowSeconds draws written =>
      dsimp only [step]
      split
      · rename_i connected
        have before := grouped (by simp [connected])
        cases received with
        | none => exact fun _ => before
        | some bytes => exact grouped_finish (before.onBytes bytes nowSeconds draws) written
      · exact grouped
  | retry written =>
      dsimp only [step]
      split
      · rename_i ticking
        exact resent (by simp [ticking.1]) written
      · exact grouped
  | reload candidate =>
      dsimp only [step]
      split
      · rename_i connected
        exact fun _ => (grouped (by simp [connected])).reload candidate
      · exact grouped

theorem startup_eq_ok {config : LinkConfig} {authority : CertificateAuthority}
    {snapshot : SnapshotFile} {readFails : Bool} {rng : ρ}
    (started : startup config authority snapshot readFails rng = .ok daemon) :
    config.limits.subscriptions ≤ config.brokerPendingDeliveries ∧
      ∃ store, PersistentStore.open snapshot config.limits readFails = .ok store ∧
        daemon = ⟨{
          system := ⟨authority, ⟨.persistent (store.reconcileAgents config.agents).2, rng⟩⟩
          pendingDeliveries := .new config.brokerPendingDeliveries
          acquiredRequests := .new config.brokerDedupEntries
          currentRequest := none
          calls := [] }, .accepting⟩ := by
  obtain ⟨_, covers, started⟩ := bind_eq_ok.mp started
  obtain ⟨store, opened, started⟩ := bind_eq_ok.mp started
  obtain ⟨_, _, started⟩ := bind_eq_ok.mp started
  cases started
  exact ⟨Nat.not_lt.mp (rejectIf_eq_ok.mp covers), store, mapError_eq_ok.mp opened, rfl⟩

theorem grouped_startup {config : LinkConfig} {authority : CertificateAuthority}
    {snapshot : SnapshotFile} {readFails : Bool} {rng : ρ}
    (started : startup config authority snapshot readFails rng = .ok daemon) : daemon.Grouped := by
  obtain ⟨covers, store, opened, rfl⟩ := startup_eq_ok started
  obtain ⟨within, limits⟩ := withinCapacity_open opened
  refine fun _ => ⟨.inl ⟨rfl, rfl⟩, ?_, withinCapacity_reconcileAgents within config.agents⟩
  change (store.reconcileAgents config.agents).2.limits.subscriptions ≤
    config.brokerPendingDeliveries
  rw [store.reconcileAgents_limits, limits]
  exact covers

end Daemon

/-- Delivery groups always fit and are never mixed. -/
theorem delivery_groups_fit {ρ : Type} (random : CryptoRandom ρ) {config : LinkConfig}
    {authority : CertificateAuthority} {snapshot : SnapshotFile} {readFails : Bool} {rng : ρ}
    {daemon : Daemon ρ} (started : startup config authority snapshot readFails rng = .ok daemon)
    (inputs : List Input) :
    let reached := Machine.run (fun daemon input => (daemon.step random input).1) daemon inputs
    reached.phase ≠ .exited →
      (reached.link.pendingDeliveries.entries ≠ [] ↔
        ∃ request, reached.link.currentRequest = some request) ∧
      (∀ request, reached.link.currentRequest = some request → reached.link.Serves request) ∧
      ∀ bytes nowSeconds draws,
        ((reached.link.onBytes random bytes nowSeconds draws).state.calls ≠ reached.link.calls →
          reached.link.pendingDeliveries.entries = []) ∧
        (reached.link.onBytes random bytes nowSeconds draws).ending ≠ .abandon := by
  intro reached running
  have grouped : reached.link.Grouped := Machine.run_preserves Daemon.Grouped
    (fun _ input kept => Daemon.grouped_step kept input) (Daemon.grouped_startup started) running
  refine ⟨grouped.pending_iff, fun _ => grouped.serves, fun bytes nowSeconds draws => ⟨?_, ?_⟩⟩
  · intro processed
    rcases grouped.group with ⟨_, nothing⟩ | ⟨request, busy, _⟩
    · exact nothing
    · exact absurd (LinkState.calls_onBytes busy bytes nowSeconds draws) processed
  · rcases @LinkState.Grouped.onBytes _ random _ grouped bytes nowSeconds draws with
      exits | ⟨fits, _⟩
    · rw [exits]
      nofun
    · exact fits

/-! ## A daemon that serves a publication -/

namespace Sample

def config : LinkConfig where
  brokerPendingDeliveries := 8
  brokerDedupEntries := 2
  limits := Authority.Sample.limits
  agents := [1, 2, 3].map (fun number =>
    (⟨.fill 16 number⟩, ⟨.fill 32 number, .fill 32 number⟩))

def started : Except StartError (Daemon Nat) :=
  startup config Authority.Sample.authority ⟨none, none, []⟩ false 0

def id (number : UInt8) : MessageId := ⟨.fill 16 number⟩

def bytes (kind : FrameKind) (number : UInt8) (payload : Bytes) : Bytes :=
  ((encode kind (id number) payload).toOption).getD []

/-- The requests that precede the sample publication, with two subscriptions among them. -/
def requests : List Bytes :=
  [Authority.Sample.frame 1 (.setEnvironment []) 10, Authority.Sample.frame 2 (.setEnvironment []) 20,
    Authority.Sample.frame 3 (.setEnvironment []) 30,
    Authority.Sample.frame 2 (.subscribe Authority.Sample.typeId Authority.Sample.handler []) 40,
    Authority.Sample.frame 3 (.subscribePermanent Authority.Sample.typeId Authority.Sample.handler [])
      50,
    Authority.Sample.publication]

/-- A connection that brings the requests under ids counted from one. -/
def inputs : List Input :=
  .accept none :: requests.zipIdx.map (fun (payload, place) =>
    .incoming (some (bytes .request (.ofNat (place + 1)) payload)) 10 [id 11, id 12] none)

theorem exists_started {condition : Daemon Nat → Bool}
    (evaluated : (match started with | .ok daemon => condition daemon | .error _ => false) = true) :
    ∃ daemon, started = .ok daemon ∧ condition daemon = true := by
  split at evaluated
  · rename_i daemon ok
    exact ⟨daemon, ok, evaluated⟩
  · cases evaluated

end Sample

theorem sample_delivery_groups_fit : ∃ daemon, Sample.started = .ok daemon ∧
    (Machine.run (fun daemon input => (daemon.step .counting input).1) daemon
      Sample.inputs).link.Serves (Sample.id 6) := by
  obtain ⟨daemon, started, evaluated⟩ := @Sample.exists_started (fun daemon =>
    let reached := Machine.run (fun daemon input => (daemon.step .counting input).1) daemon
      Sample.inputs
    decide (reached.phase ≠ .exited ∧ reached.link.currentRequest = some (Sample.id 6)))
    (by decide +kernel)
  obtain ⟨running, current⟩ := of_decide_eq_true evaluated
  obtain ⟨_, serves, _⟩ := delivery_groups_fit .counting started Sample.inputs running
  exact ⟨daemon, started, serves _ current⟩

end SecurePubSub.Cad
