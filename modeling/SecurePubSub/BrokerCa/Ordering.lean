import SecurePubSub.BrokerCa.Deliveries
import SecurePubSub.Data.Retransmission

namespace SecurePubSub.BrokerCa

open SecurePubSub.Data SecurePubSub.Protocol SecurePubSub.Authority SecurePubSub.Link
  SecurePubSub.Broker SecurePubSub.Cad

/-! The order in which deliveries are routed while both processes live.

The CA sends its deliveries in the order in which it made them, and again from the
first that may not have arrived. What is on its way to the Broker therefore goes on
where the Broker stands, whatever was sent before.
-/

/-- The deliveries among the frames. -/
def deliveries (frames : List LinkFrame) : List LinkFrame :=
  frames.filter (fun frame => frame.kind = .delivery)

theorem deliveries_append (front back : List LinkFrame) :
    deliveries (front ++ back) = deliveries front ++ deliveries back := by
  simp [deliveries]

theorem deliveries_of_none {frames : List LinkFrame}
    (none : ∀ frame ∈ frames, frame.kind ≠ .delivery) : deliveries frames = [] := by
  simpa [deliveries] using none

theorem deliveries_of_all {frames : List LinkFrame}
    (all : ∀ frame ∈ frames, frame.kind = .delivery) : deliveries frames = frames := by
  simpa [deliveries] using all

/-- What the CA holds is in the order in which it was made. -/
def Queued {ρ : Type} (link : LinkState ρ) : Prop :=
  (link.pendingDeliveries.entries.map Prod.snd).Sublist (generated link.calls)

/-- Deliveries were routed in their order, and what is on its way goes on there. -/
structure Sequenced {ρ : Type} (network : Network ρ) : Prop where
  routed : network.broker.routed <+: generated network.cad.link.calls
  flight : network.session ≠ .out → Continues (generated network.cad.link.calls)
    network.broker.routed.length (deliveries network.toBroker)

/-- No group of deliveries is larger than the window of the Broker. -/
def Short {ρ : Type} (network : Network ρ) : Prop :=
  ∀ call ∈ network.cad.link.calls, call.frames.length ≤ network.config.caDedupDepth

section Steps

variable {ρ : Type} {random : CryptoRandom ρ} {network : Network ρ} {link : LinkState ρ}

namespace Queued

theorem onAck (queued : Queued link) (id : MessageId) : Queued (link.onAck id).state := by
  have fewer : ((link.pendingDeliveries.acknowledge id).entries.map Prod.snd).Sublist
      (generated link.calls) := by
    rw [PendingFrames.entries_acknowledge]
    exact (List.filter_sublist.map Prod.snd).trans queued
  rcases @LinkState.onAck_cases _ link id with ⟨_, _, _, result⟩ | ⟨_, result⟩
  · rw [result]
    exact fewer
  · rw [result]
    exact fewer

theorem process (queued : Queued link) (grouped : link.Grouped) (idle : link.currentRequest = none)
    {request : MessageId} {payload : Bytes} {nowSeconds : UInt64} {draws : List MessageId}
    (runs : (link.process random request payload nowSeconds draws).ending ≠ .exit) :
    Queued (link.process random request payload nowSeconds draws).state := by
  have ways := @LinkState.processed _ random link request payload nowSeconds draws
  generalize link.process random request payload nowSeconds draws = round at ways runs
  cases ways with
  | exit _ ending => exact absurd ending runs
  | abandon _ deliveries answer overflow =>
      have fits := grouped.not_overflow idle answer
      omega
  | quiet call acquired id sent empty none =>
      simpa [Queued, none] using queued
  | group call acquired pending id sent some whole drawn kinds maximum entries =>
      have held : pending.entries.map Prod.snd = call.frames := by
        rw [entries, grouped.nothing_pending idle]
        simp [Function.comp_def]
      simp only [Queued, held, generated_append]
      exact List.sublist_append_right _ _

theorem onFrame (queued : Queued link) (grouped : link.Grouped) {frame : LinkFrame}
    {nowSeconds : UInt64} {draws : List MessageId}
    (runs : (link.onFrame random frame nowSeconds draws).ending ≠ .exit) :
    Queued (link.onFrame random frame nowSeconds draws).state := by
  unfold LinkState.onFrame at runs ⊢
  split
  · exact queued.onAck frame.id
  · rename_i kind
    simp only [kind] at runs
    unfold LinkState.onRequest at runs ⊢
    split
    · exact queued
    · split
      · exact queued
      · rename_i other unknown
        rw [if_neg other, if_neg unknown] at runs
        split
        · rename_i idle
          rw [if_pos idle] at runs
          exact queued.process grouped idle runs
        · exact queued
  · exact queued

theorem effect (queued : Queued network.cad.link) (linked : Linked network) {later : Network ρ}
    (effect : Effect random network later) : Queued later.cad.link := by
  cases effect with
  | accepts daemon sent out same part =>
      dsimp only
      rw [same]
      exact queued
  | sends daemon sent same part =>
      dsimp only
      rw [same]
      exact queued
  | reloads daemon candidate same =>
      obtain ⟨system, changed⟩ := network.cad.link.reload_eq candidate
      dsimp only
      rw [same, changed]
      exact queued
  | receives daemon frame rest nowSeconds draws written next separate unused runs same =>
      dsimp only
      rw [same]
      exact queued.onFrame linked.served.grouped runs
  | _ => exact queued

end Queued

namespace Sequenced

theorem distinct {routed : List LinkFrame} {used : List MessageId}
    (served : Served link routed used) : (generated link.calls).Nodup :=
  served.separate.of_map _

/-- The Broker has routed the first deliveries. -/
theorem take (sequenced : Sequenced network) :
    (generated network.cad.link.calls).take network.broker.routed.length =
      network.broker.routed :=
  (List.prefix_iff_eq_take.mp sequenced.routed).symm

/-- What the CA sends again goes on where the Broker stands. -/
theorem resend (sequenced : Sequenced network) (linked : Linked network)
    (queued : Queued network.cad.link) {sent : List LinkFrame}
    (part : sent <+: network.cad.link.pendingDeliveries.snapshot) :
    Continues (generated network.cad.link.calls) network.broker.routed.length
      (deliveries sent) := by
  have served := linked.served
  obtain ⟨unsent, whole⟩ := part
  rw [PendingFrames.snapshot_eq] at whole
  have kinds : ∀ frame ∈ sent, frame.kind = .delivery := by
    intro frame member
    have listed : frame ∈ network.cad.link.pendingDeliveries.entries.map Prod.snd := by
      rw [← whole]
      exact List.mem_append_left _ member
    obtain ⟨entry, pending, rfl⟩ := List.mem_map.mp listed
    exact served.kinds _ (served.generated_of_pending pending).2
  rw [deliveries_of_all kinds]
  apply Continues.front
  rw [whole]
  apply Continues.resend queued (distinct served)
  -- What has not been routed is still pending.
  intro frame missing
  obtain ⟨call, made, generated⟩ := mem_generated.mp (List.mem_of_mem_drop missing)
  rcases served.owed call made frame generated with routed | ⟨_, pending⟩
  · have apart := List.disjoint_take_drop (distinct served)
      (Nat.le_refl network.broker.routed.length)
    rw [sequenced.take] at apart
    exact absurd missing (apart routed)
  · exact List.mem_map_of_mem pending

/-- Everything was routed when the CA serves no request. -/
theorem caught_up (sequenced : Sequenced network) (linked : Linked network)
    (idle : network.cad.link.currentRequest = none) :
    network.broker.routed = generated network.cad.link.calls := by
  have all : generated network.cad.link.calls ⊆ network.broker.routed := by
    intro frame made
    obtain ⟨call, member, generated⟩ := mem_generated.mp made
    exact linked.served.routed_of_completed member (by rw [idle]; nofun) frame generated
  apply sequenced.routed.eq_of_length_le
  exact ((distinct linked.served).subperm all).length_le

theorem receives (sequenced : Sequenced network) (linked : Linked network) {frame : LinkFrame}
    {rest sent : List LinkFrame} {draws : List MessageId} {round : Round ρ}
    (received : Linked.Received network frame rest draws round) (part : sent <+: round.frames) :
    network.broker.routed <+: generated round.state.calls ∧
      (network.session ≠ .out → Continues (generated round.state.calls)
        network.broker.routed.length (deliveries (network.toBroker ++ sent))) := by
  obtain ⟨routed, flight⟩ := sequenced
  -- Acknowledgements do not matter.
  have quiet (acks : ∀ answer ∈ round.frames, answer.kind = .ack) :
      deliveries (network.toBroker ++ sent) = deliveries network.toBroker := by
    have none : ∀ answer ∈ sent, answer.kind ≠ .delivery := by
      intro answer member
      rw [acks answer (part.subset member)]
      nofun
    rw [deliveries_append, deliveries_of_none none, List.append_nil]
  have acked {id : MessageId} : ∀ answer ∈ [LinkFrame.ack id], answer.kind = .ack := by
    intro answer member
    rw [List.mem_singleton.mp member]
    rfl
  cases received with
  | receipt acquired later =>
      rcases @LinkState.onAck_cases _ network.cad.link frame.id with
        ⟨_, _, _, result⟩ | ⟨_, result⟩
      · rw [result] at quiet ⊢
        rw [quiet acked]
        exact ⟨routed, flight⟩
      · rw [result] at quiet ⊢
        rw [quiet (List.forall_mem_nil _)]
        exact ⟨routed, flight⟩
  | repeated stale current later =>
      rw [quiet (List.forall_mem_nil _)]
      exact ⟨routed, flight⟩
  | known stale completed later =>
      rw [quiet acked]
      exact ⟨routed, flight⟩
  | processed _ call fresh idle id payload calls stays ways served later =>
      have done := caught_up ⟨routed, flight⟩ linked idle
      rw [calls, generated_append]
      refine ⟨routed.trans (List.prefix_append _ _), fun inside => ?_⟩
      have before := (flight inside).extend call.frames
      rcases ways with ⟨_, answered⟩ | ⟨_, answered⟩
      · rw [quiet (answered ▸ acked)]
        exact before
      · have kinds : ∀ delivery ∈ sent, delivery.kind = .delivery := by
          intro delivery member
          apply served.kinds
          rw [calls, generated_append]
          exact List.mem_append_right _ (answered ▸ part.subset member)
        obtain ⟨unsent, whole⟩ := part
        rw [deliveries_append, deliveries_of_all kinds]
        apply before.append
        apply Continues.front
        rw [whole, answered, done]
        exact .next_all (by simp)
  | busy fresh other later =>
      rw [quiet (List.forall_mem_nil _)]
      exact ⟨routed, flight⟩

/-- A delivery of the last group that the window does not know was not routed. -/
theorem unrouted (short : Short network) (linked : Linked network) (delivering : Delivering network)
    (inside : network.session ≠ .out) {frame : LinkFrame} {rest : List LinkFrame}
    (next : network.toBroker = frame :: rest)
    (made : frame ∈ generated network.cad.link.calls)
    (unknown : frame.id ∉ network.broker.acquiredDeliveries.order) :
    frame ∉ network.broker.routed := by
  intro routed
  have flight := delivering.flight inside
  rw [next] at flight
  obtain ⟨call, last, generated, _⟩ :=
    flight.current frame List.mem_cons_self (linked.served.kinds frame made)
  have fits := short call (List.mem_of_getLast? last)
  rw [← linked.asked.window] at fits
  obtain ⟨earlier, older, recent, ids, order, _, outside⟩ := delivering.once.window call last fits
  have named : frame.id ∈ network.broker.routed.map LinkFrame.id := List.mem_map_of_mem routed
  rw [ids] at named
  rcases List.mem_append.mp named with early | late
  · exact outside frame.id (List.mem_map_of_mem generated) early
  · apply unknown
    rw [order]
    exact List.mem_append_right _ late

theorem hears (sequenced : Sequenced network) (short : Short network) (linked : Linked network)
    (delivering : Delivering network) (connected : network.session = .connected)
    {frame : LinkFrame} {rest : List LinkFrame} (next : network.toBroker = frame :: rest)
    {round : CaRound} (heard : Linked.Heard network frame round) :
    round.link.routed <+: generated network.cad.link.calls ∧
      (round.closes = false → Continues (generated network.cad.link.calls)
        round.link.routed.length (deliveries rest)) := by
  have inside : network.session ≠ .out := by
    rw [connected]
    nofun
  have flight := sequenced.flight inside
  rw [next] at flight
  have first (made : frame ∈ generated network.cad.link.calls) :
      deliveries (frame :: rest) = frame :: deliveries rest := by
    simp [deliveries, linked.served.kinds frame made]
  cases heard with
  | completes kind done completed =>
      refine ⟨sequenced.routed, fun _ => ?_⟩
      have skipped : deliveries (frame :: rest) = deliveries rest := by
        simp [deliveries, kind]
      rw [skipped] at flight
      exact flight
  | duplicate made known =>
      refine ⟨sequenced.routed, fun _ => ?_⟩
      rw [first made] at flight
      apply flight.tail_of_known (distinct linked.served)
      obtain ⟨delivery, routed, named⟩ := linked.asked.acquired _ known
      rw [sequenced.take, ← linked.served.distinct delivery
        (linked.served.origin delivery routed) frame made named]
      exact routed
  | routes made unknown acquired recorded =>
      rw [first made] at flight
      have new := unrouted short linked delivering inside next made unknown
      rw [← sequenced.take] at new
      obtain ⟨longer, later⟩ := flight.tail_of_new new
      rw [sequenced.take] at longer
      dsimp only
      rw [← longer, List.length_take_of_le]
      · exact ⟨List.take_prefix _ _, fun _ => later⟩
      · have enough := congrArg List.length longer
        rw [List.length_take, List.length_append, List.length_singleton] at enough
        omega
  | rejects made unknown full =>
      refine ⟨sequenced.routed, fun stays => ?_⟩
      cases stays

theorem effect (sequenced : Sequenced network) (short : Short network) (linked : Linked network)
    (delivering : Delivering network) (queued : Queued network.cad.link) {later : Network ρ}
    (effect : Effect random network later) : Sequenced later := by
  obtain ⟨routed, flight⟩ := sequenced
  have resent {sent : List LinkFrame}
      (part : sent <+: network.cad.link.pendingDeliveries.snapshot) :=
    resend ⟨routed, flight⟩ linked queued part
  cases effect with
  | idle => exact ⟨routed, flight⟩
  | accepts daemon sent out same part =>
      have sends := resent part
      rw [← same] at routed sends
      exact ⟨routed, fun _ => sends⟩
  | sends daemon sent same part =>
      have sends := resent part
      rw [← same] at routed flight sends
      refine ⟨routed, fun inside => ?_⟩
      rw [deliveries_append]
      exact (flight inside).append sends
  | reloads daemon candidate same =>
      obtain ⟨system, changed⟩ := network.cad.link.reload_eq candidate
      have calls : daemon.link.calls = network.cad.link.calls := by rw [same, changed]
      rw [← calls] at routed flight
      exact ⟨routed, flight⟩
  | receives daemon frame rest nowSeconds draws written next separate unused runs same =>
      obtain ⟨routedLater, flightLater⟩ := receives ⟨routed, flight⟩ linked
        (linked.received next nowSeconds separate unused runs) (write_front _ written)
      rw [← same] at routedLater flightLater
      exact ⟨routedLater, flightLater⟩
  | asks written inside => exact ⟨routed, fun _ => flight inside⟩
  | hears frame rest written connected next =>
      obtain ⟨routedLater, flightLater⟩ := hears ⟨routed, flight⟩ short linked delivering connected
        next (linked.heard next)
      refine ⟨routedLater, fun inside => flightLater ?_⟩
      by_contra closes
      simp [Network.brokerRound, closes] at inside
  | takes id written connected unused =>
      have inside : network.session ≠ .out := by
        rw [connected]
        nofun
      rcases CaLink.takeRequest_cases id linked.asked.short with ⟨result, _⟩ |
        ⟨_, _, _, _, _, _, _, _, _, _, _, _, result⟩
      · simp only [Network.brokerRound, result]
        exact ⟨routed, fun _ => flight inside⟩
      · simp only [Network.brokerRound, result]
        exact ⟨routed, fun _ => flight inside⟩
  | cuts => exact ⟨routed, fun inside => absurd rfl inside⟩
  | threads router feeds => exact ⟨routed, flight⟩

end Sequenced

/-- The CA only ever adds calls. -/
theorem Effect.calls (linked : Linked network) {later : Network ρ}
    (effect : Effect random network later) :
    ∀ call ∈ network.cad.link.calls, call ∈ later.cad.link.calls := by
  cases effect with
  | accepts daemon sent out same part =>
      dsimp only
      rw [same]
      exact fun _ => id
  | sends daemon sent same part =>
      dsimp only
      rw [same]
      exact fun _ => id
  | reloads daemon candidate same =>
      obtain ⟨system, changed⟩ := network.cad.link.reload_eq candidate
      dsimp only
      rw [same, changed]
      exact fun _ => id
  | receives daemon frame rest nowSeconds draws written next separate unused runs same =>
      have received := linked.received next nowSeconds separate unused runs
      dsimp only
      rw [same]
      generalize network.cad.link.onFrame random frame nowSeconds draws = round at received
      cases received with
      | receipt acquired later =>
          rw [LinkState.calls_onAck]
          exact fun _ => id
      | processed _ call fresh idle id payload calls =>
          rw [calls]
          exact fun _ => List.mem_append_left _
      | _ => exact fun _ => id
  | _ => exact fun _ => id

/-- All that holds of the link while both processes live. -/
structure Steady (network : Network ρ) : Prop where
  linked : Linked network
  inOrder : InOrder network.cad.link network.broker
  delivering : Delivering network
  queued : Queued network.cad.link
  sequenced : Short network → Sequenced network

theorem Steady.step (steady : Steady network) {event : Event}
    (lasting : Lasting random network event) : Steady (network.step random event) := by
  obtain ⟨linked, inOrder, delivering, queued, sequenced⟩ := steady
  have effect := lasting.1.effect lasting.2
  refine ⟨linked.effect effect, inOrder.effect linked effect,
    delivering.effect linked inOrder effect, queued.effect linked effect, fun shortLater => ?_⟩
  have short : Short network := by
    intro call made
    have fits := shortLater call (effect.calls linked call made)
    rwa [Network.step_config] at fits
  exact (sequenced short).effect short linked delivering queued effect

theorem steady_start (starts : Starts network) : Steady network := by
  have linked := linked_start starts
  have nothing : network.broker.routed = [] ∧ network.toBroker = [] := by
    rw [starts.initial]
    exact ⟨rfl, rfl⟩
  have idle : network.cad.link.currentRequest = none := by
    cases current : network.cad.link.currentRequest with
    | none => rfl
    | some id =>
        have last := linked.served.current id current
        rw [starts.calls] at last
        cases last
  have inOrder : InOrder network.cad.link network.broker := by
    refine ⟨.inl ?_, fun id current => ?_⟩
    · rw [starts.calls, starts.initial]
      rfl
    · rw [idle] at current
      cases current
  have delivering : Delivering network := by
    refine ⟨fun _ => ?_, ?_, ?_⟩
    · rw [nothing.2]
      exact .quiet (List.forall_mem_nil _)
    · rw [starts.calls]
      exact List.forall_mem_nil _
    · intro call last
      rw [starts.calls] at last
      cases last
  refine ⟨linked, inOrder, delivering, ?_, fun _ => ⟨?_, fun _ => ?_⟩⟩
  · rw [Queued, linked.served.grouped.nothing_pending idle]
    exact List.nil_sublist _
  · rw [nothing.1]
    exact List.nil_prefix
  · rw [nothing.2]
    exact .nil _

end Steps

/-! ## Runs -/

section Runs

variable {ρ : Type} (random : CryptoRandom ρ) {network : Network ρ} {events : List Event}

theorem steady_run (starts : Starts network)
    (lasting : Machine.Along (Network.step random) (Lasting random) network events) :
    Steady (Machine.run (Network.step random) network events) :=
  lasting.preserves Steady (fun _ _ steady fits => steady.step fits) (steady_start starts)

/-- The link is a reliable FIFO for deliveries too, if no group is larger than the Broker's
window. -/
theorem routed_in_order_of_generation (starts : Starts network)
    (lasting : Machine.Along (Network.step random) (Lasting random) network events) :
    let reached := Machine.run (Network.step random) network events
    (∀ call ∈ reached.cad.link.calls, call.frames.length ≤ reached.config.caDedupDepth) →
      reached.broker.routed <+: generated reached.cad.link.calls ∧
      ((generated reached.cad.link.calls).map LinkFrame.id).Nodup ∧
      (reached.cad.link.currentRequest = none →
        reached.broker.routed = generated reached.cad.link.calls) := by
  intro reached short
  have steady : Steady reached := steady_run random starts lasting
  have sequenced := steady.sequenced short
  exact ⟨sequenced.routed, steady.linked.served.separate, sequenced.caught_up steady.linked⟩

end Runs

/-- Deliveries that were routed before their acknowledgements were lost are routed no more. -/
theorem sample_routed_in_order_of_generation : ∃ daemon, Cad.Sample.started = .ok daemon ∧
    let reached := Machine.run (Network.step .counting) (.start Sample.wide daemon) Sample.repeated
    reached.broker.routed <+: generated reached.cad.link.calls := by
  obtain ⟨daemon, started, evaluated⟩ := @Cad.Sample.exists_started (fun daemon =>
    let reached := Machine.run (Network.step .counting) (.start Sample.wide daemon) Sample.repeated
    decide (Machine.Along (Network.step .counting) (Lasting .counting) (.start Sample.wide daemon)
        Sample.repeated ∧
      ∀ call ∈ reached.cad.link.calls, call.frames.length ≤ reached.config.caDedupDepth))
    (by decide +kernel)
  obtain ⟨lasting, short⟩ := of_decide_eq_true evaluated
  have starts : Starts (.start Sample.wide daemon) :=
    ⟨⟨_, _, _, _, _, started, by decide⟩, rfl, show 0 < Sample.wide.caDedupDepth by decide⟩
  exact ⟨daemon, started, (routed_in_order_of_generation .counting starts lasting short).1⟩

end SecurePubSub.BrokerCa
