import SecurePubSub.BrokerCa.Requests

namespace SecurePubSub.BrokerCa

open SecurePubSub.Data SecurePubSub.Protocol SecurePubSub.Authority SecurePubSub.Link
  SecurePubSub.Broker SecurePubSub.Cad

/-! How often a delivery is routed while both processes live.

Only deliveries of the request processed last are ever in flight, and the Broker
still holds that request. Its window therefore evicts none of them, unless the
group is larger than the window.
-/

/-- The requests that the Broker waits for. -/
def awaited (broker : CaLink) : List MessageId := broker.pending.entries.map Prod.fst

/-! ## Deliveries in flight -/

/-- A delivery of the request processed last, for which the Broker still waits. -/
def Current (calls : List ProcessCall) (broker : CaLink) (frame : LinkFrame) : Prop :=
  ∃ call, calls.getLast? = some call ∧ frame ∈ call.frames ∧ call.id ∈ awaited broker

/-- Every delivery is a current one, and none follows an acknowledgement that ends the wait. -/
structure Flight (calls : List ProcessCall) (broker : CaLink) (frames : List LinkFrame) : Prop where
  current : ∀ frame ∈ frames, frame.kind = .delivery → Current calls broker frame
  sorted : frames.Pairwise (fun first second =>
    second.kind = .delivery → first.kind = .ack → first.id ∉ awaited broker)

namespace Flight

variable {calls : List ProcessCall} {broker later : CaLink} {frame : LinkFrame}
  {frames rest sent : List LinkFrame}

theorem quiet (none : ∀ frame ∈ frames, frame.kind ≠ .delivery) : Flight calls broker frames where
  current frame member kind := absurd kind (none frame member)
  sorted := List.pairwise_of_forall_mem_list fun _ _ second member kind =>
    absurd kind (none second member)

theorem of_same (flight : Flight calls broker frames) (same : awaited later = awaited broker) :
    Flight calls later frames := by
  constructor
  · simpa only [Current, same] using flight.current
  · simpa only [same] using flight.sorted

theorem tail (flight : Flight calls broker (frame :: rest)) : Flight calls broker rest where
  current other member := flight.current other (List.mem_cons_of_mem _ member)
  sorted := (List.pairwise_cons.mp flight.sorted).2

/-- Acknowledgements are sent behind everything. -/
theorem answer (flight : Flight calls broker frames) (acks : ∀ frame ∈ sent, frame.kind = .ack) :
    Flight calls broker (frames ++ sent) where
  current frame member kind := by
    rcases List.mem_append.mp member with old | new
    · exact flight.current frame old kind
    · rw [acks frame new] at kind
      cases kind
  sorted := by
    have last (second : LinkFrame) (new : second ∈ sent) : second.kind ≠ .delivery := by
      rw [acks second new]
      nofun
    have behind : Flight calls broker sent := quiet last
    exact List.pairwise_append.mpr ⟨flight.sorted, behind.sorted,
      fun _ _ second new kind => absurd kind (last second new)⟩

/-- Current deliveries are sent while no acknowledgement ends the wait. -/
theorem deliver (flight : Flight calls broker frames)
    (waits : ∀ frame ∈ frames, frame.kind = .ack → frame.id ∉ awaited broker)
    (kinds : ∀ frame ∈ sent, frame.kind = .delivery)
    (current : ∀ frame ∈ sent, Current calls broker frame) :
    Flight calls broker (frames ++ sent) where
  current frame member kind :=
    (List.mem_append.mp member).elim (fun old => flight.current frame old kind) (current frame)
  sorted := by
    refine List.pairwise_append.mpr ⟨flight.sorted, ?_, fun first old _ _ _ => waits first old⟩
    apply List.pairwise_of_forall_mem_list
    intro first new _ _ _ kind
    rw [kinds first new] at kind
    cases kind

/-- The wait for a request ends behind all deliveries. -/
theorem acknowledge (flight : Flight calls broker (frame :: rest)) (kind : frame.kind = .ack) :
    Flight calls { broker with pending := broker.pending.acknowledge frame.id } rest := by
  by_cases ends : frame.id ∈ awaited broker
  · apply quiet
    intro other member delivery
    exact (List.pairwise_cons.mp flight.sorted).1 other member delivery kind ends
  · apply flight.tail.of_same
    have kept : ∀ entry ∈ broker.pending.entries, decide (entry.1 ≠ frame.id) = true := by
      intro entry pending
      rw [decide_eq_true_eq]
      rintro same
      exact ends (same ▸ List.mem_map_of_mem pending)
    simp only [awaited, PendingFrames.entries_acknowledge, List.filter_eq_self.mpr kept]

end Flight

/-! ## Deliveries routed -/

/-- The deliveries of a group that is no larger than the window were routed once, and the window
holds those of the last group. -/
structure Once (calls : List ProcessCall) (broker : CaLink) : Prop where
  once : ∀ call ∈ calls, call.frames.length ≤ broker.acquiredDeliveries.maximum →
    ∀ frame ∈ call.frames, (broker.routed.map LinkFrame.id).count frame.id ≤ 1
  window : ∀ call, calls.getLast? = some call →
    call.frames.length ≤ broker.acquiredDeliveries.maximum →
    ∃ earlier older recent, broker.routed.map LinkFrame.id = earlier ++ recent ∧
      broker.acquiredDeliveries.order = older ++ recent ∧
      (∀ id ∈ recent, id ∈ call.frames.map LinkFrame.id) ∧
      ∀ id ∈ call.frames.map LinkFrame.id, id ∉ earlier

namespace Once

variable {ρ : Type} {link : LinkState ρ} {broker : CaLink} {used : List MessageId}

theorem process (once : Once link.calls broker) {later : LinkState ρ} {call : ProcessCall}
    {more : List MessageId} (served : Served link broker.routed used)
    (calls : later.calls = link.calls ++ [call])
    (servedLater : Served later broker.routed more) : Once later.calls broker := by
  have separate := servedLater.separate
  rw [calls, generated_append, List.map_append] at separate
  have fresh : ∀ id ∈ call.frames.map LinkFrame.id, id ∉ broker.routed.map LinkFrame.id := by
    intro id new old
    obtain ⟨frame, routed, rfl⟩ := List.mem_map.mp old
    exact (List.nodup_append.mp separate).2.2 frame.id
      (List.mem_map_of_mem (served.origin frame routed)) frame.id new rfl
  rw [calls]
  constructor
  · intro other member short frame generated
    rcases List.mem_append.mp member with old | new
    · exact once.once other old short frame generated
    · rw [List.mem_singleton.mp new] at generated
      rw [List.count_eq_zero.mpr (fresh frame.id (List.mem_map_of_mem generated))]
      exact Nat.zero_le _
  · intro other last short
    rw [List.getLast?_concat] at last
    cases last
    exact ⟨_, _, [], (List.append_nil _).symm, (List.append_nil _).symm, nofun, fresh⟩

/-- A delivery of the last group that the window does not know is routed. -/
theorem route (once : Once link.calls broker) (served : Served link broker.routed used)
    {frame : LinkFrame} {last : ProcessCall} (latest : link.calls.getLast? = some last)
    (generated : frame ∈ last.frames) (unknown : frame.id ∉ broker.acquiredDeliveries.order)
    {acquired : DedupWindow}
    (recorded : broker.acquiredDeliveries.insert frame.id = .ok acquired) :
    Once link.calls { broker with
      router := (broker.router.routeCaDelivery frame.payload).2
      acquiredDeliveries := acquired
      routed := broker.routed ++ [frame] } := by
  obtain ⟨maximum, _, _⟩ := DedupWindow.of_insert recorded
  constructor
  · intro call member short other made
    rw [List.map_append, List.map_singleton, List.count_append]
    rw [maximum] at short
    have before := once.once call member short other made
    by_cases same : other.id = frame.id
    · have group := served.same_call member (List.mem_of_getLast? latest)
        (List.mem_map_of_mem made) (same ▸ List.mem_map_of_mem generated)
      rw [group] at short
      obtain ⟨earlier, older, recent, routed, order, _, outside⟩ := once.window last latest short
      rw [order, List.mem_append, not_or] at unknown
      have first := outside frame.id (List.mem_map_of_mem generated)
      rw [same, routed, List.count_append, List.count_eq_zero.mpr first,
        List.count_eq_zero.mpr unknown.2]
      simp
    · have others : [frame.id].count other.id = 0 := by simp [Ne.symm same]
      rw [others]
      exact before
  · intro call named short
    rw [maximum] at short
    rw [latest] at named
    cases named
    obtain ⟨earlier, older, recent, routed, order, inside, outside⟩ := once.window last latest short
    have distinct := broker.acquiredDeliveries.distinct
    rw [order] at distinct unknown
    have room : recent.length < broker.acquiredDeliveries.maximum := by
      have group : (frame.id :: recent).Nodup := List.nodup_cons.mpr
        ⟨fun known => unknown (List.mem_append_right _ known), (List.nodup_append.mp distinct).2.1⟩
      have within : frame.id :: recent ⊆ last.frames.map LinkFrame.id :=
        List.cons_subset.mpr ⟨List.mem_map_of_mem generated, inside⟩
      have shorter := (group.subperm within).length_le
      simp only [List.length_cons, List.length_map] at shorter
      omega
    rw [← order] at unknown
    obtain ⟨rest, kept⟩ := DedupWindow.insert_recent recorded unknown order room
    refine ⟨earlier, rest, recent ++ [frame.id], ?_, kept, ?_, outside⟩
    · simp [routed]
    · intro id member
      rcases List.mem_append.mp member with old | new
      · exact inside id old
      · rw [List.mem_singleton.mp new]
        exact List.mem_map_of_mem generated

end Once

/-! ## One event -/

structure Delivering {ρ : Type} (network : Network ρ) : Prop where
  flight : network.session ≠ .out → Flight network.cad.link.calls network.broker network.toBroker
  once : Once network.cad.link.calls network.broker

section Steps

variable {ρ : Type} {random : CryptoRandom ρ} {network : Network ρ}

/-- What the CA still holds is sent again. -/
theorem Flight.resend {link : LinkState ρ} {broker : CaLink} {used : List MessageId}
    {frames sent : List LinkFrame} (flight : Flight link.calls broker frames)
    (served : Served link broker.routed used) (held : Held link broker)
    (answers : ∀ frame ∈ frames, Answer link frame)
    (part : sent <+: link.pendingDeliveries.snapshot) :
    Flight link.calls broker (frames ++ sent) := by
  have pending : ∀ frame ∈ sent, ∃ entry ∈ link.pendingDeliveries.entries, entry.2 = frame := by
    intro frame member
    have listed := part.subset member
    rw [PendingFrames.snapshot_eq] at listed
    exact List.mem_map.mp listed
  rcases served.grouped.group with ⟨_, nothing⟩ | ⟨request, current, _, serves⟩
  · rw [PendingFrames.snapshot_eq, nothing] at part
    rw [List.prefix_nil.mp part, List.append_nil]
    exact flight
  · obtain ⟨earlier, call, calls, named, _, each⟩ := serves
    obtain ⟨asked, entries⟩ := held request current
    have waits : awaited broker = [request] := by rw [awaited, entries]; rfl
    apply flight.deliver
    · intro frame member kind
      rw [waits, List.mem_singleton]
      rcases answers frame member with ⟨_, _, completed⟩ | made
      · exact fun same => completed (same ▸ current)
      · rw [served.kinds frame made] at kind
        cases kind
    · intro frame member
      obtain ⟨entry, listed, rfl⟩ := pending frame member
      exact served.kinds _ (served.generated_of_pending listed).2
    · intro frame member
      obtain ⟨entry, listed, rfl⟩ := pending frame member
      exact ⟨call, by rw [calls, List.getLast?_concat], (each entry listed).2,
        by rw [waits, named]; exact List.mem_singleton_self _⟩

namespace Delivering

/-- The CA sends answers to what it receives, and nothing else is in flight when it processes a
request. -/
theorem receives (linked : Linked network) (inOrder : InOrder network.cad.link network.broker)
    (flight : Flight network.cad.link.calls network.broker network.toBroker)
    {frame : LinkFrame} {rest sent : List LinkFrame} {draws : List MessageId} {round : Round ρ}
    (received : Linked.Received network frame rest draws round) (part : sent <+: round.frames) :
    Flight round.state.calls network.broker (network.toBroker ++ sent) := by
  cases received with
  | receipt acquired later =>
      rcases @LinkState.onAck_cases _ network.cad.link frame.id with
        ⟨request, _, _, result⟩ | ⟨_, result⟩
      · rw [result] at part ⊢
        apply flight.answer
        intro answer member
        rw [List.mem_singleton.mp (part.subset member)]
        rfl
      · rw [result] at part ⊢
        exact flight.answer fun _ member => nomatch part.subset member
  | repeated stale current later =>
      exact flight.answer fun _ member => nomatch part.subset member
  | known stale completed later =>
      apply flight.answer
      intro answer member
      rw [List.mem_singleton.mp (part.subset member)]
      rfl
  | processed _ call fresh idle id payload calls stays ways served later =>
      obtain ⟨asked, entries, _⟩ := inOrder.pending_of_fresh fresh
      have waits : awaited network.broker = [frame.id] := by rw [awaited, entries]; rfl
      have none : ∀ other ∈ network.toBroker, other.kind ≠ .delivery := by
        intro other member kind
        obtain ⟨last, ended, _, waited⟩ := flight.current other member kind
        rw [waits, List.mem_singleton] at waited
        exact fresh.2.1 (waited ▸ List.mem_map_of_mem (List.mem_of_getLast? ended))
      have before : Flight round.state.calls network.broker network.toBroker := .quiet none
      rcases ways with ⟨_, sends⟩ | ⟨_, sends⟩
      · rw [sends] at part
        apply before.answer
        intro answer member
        rw [List.mem_singleton.mp (part.subset member)]
        rfl
      · rw [sends] at part
        apply before.deliver
        · intro answer member kind
          rw [waits, List.mem_singleton]
          rcases linked.answers answer member with ⟨_, done, _⟩ | made
          · exact fun same => fresh.2.1 (same ▸ done)
          · exact absurd (linked.served.kinds answer made) (none answer member)
        · intro delivery member
          apply served.kinds
          rw [calls, generated_append]
          exact List.mem_append_right _ (part.subset member)
        · intro delivery member
          exact ⟨call, by rw [calls, List.getLast?_concat], part.subset member,
            by rw [waits, id]; exact List.mem_singleton_self _⟩
  | busy fresh other later =>
      exact flight.answer fun _ member => nomatch part.subset member

theorem routes (once : Once network.cad.link.calls network.broker) {frame : LinkFrame}
    {rest : List LinkFrame} {draws : List MessageId} {round : Round ρ} (linked : Linked network)
    (received : Linked.Received network frame rest draws round) :
    Once round.state.calls network.broker := by
  cases received with
  | receipt acquired later =>
      rcases @LinkState.onAck_cases _ network.cad.link frame.id with
        ⟨_, _, _, result⟩ | ⟨_, result⟩
      · rw [result]
        exact once
      · rw [result]
        exact once
  | repeated stale current later => exact once
  | known stale completed later => exact once
  | processed _ call fresh idle id payload calls stays ways served later =>
      exact once.process linked.served calls served
  | busy fresh other later => exact once

/-- The Broker routes a current delivery, or completes a request behind all of its deliveries. -/
theorem hears (delivering : Delivering network) (linked : Linked network) {frame : LinkFrame}
    {rest : List LinkFrame} (connected : network.session = .connected)
    (next : network.toBroker = frame :: rest) {round : CaRound}
    (heard : Linked.Heard network frame round) :
    Flight network.cad.link.calls round.link rest ∧ Once network.cad.link.calls round.link := by
  have flight := delivering.flight (by rw [connected]; nofun)
  have once := delivering.once
  rw [next] at flight
  cases heard with
  | completes kind done completed =>
      exact ⟨flight.acknowledge kind, ⟨once.once, once.window⟩⟩
  | duplicate made known => exact ⟨flight.tail, once⟩
  | routes made unknown acquired recorded =>
      obtain ⟨call, last, generated, _⟩ :=
        flight.current frame List.mem_cons_self (linked.served.kinds frame made)
      exact ⟨flight.tail.of_same rfl,
        once.route linked.served last generated unknown recorded⟩
  | rejects made unknown full => exact ⟨flight.tail.of_same rfl, ⟨once.once, once.window⟩⟩

/-- A request is taken only while no delivery is in flight. -/
theorem takes (delivering : Delivering network) (linked : Linked network)
    (connected : network.session = .connected) (id : MessageId) :
    let round := network.broker.takeRequest (some id)
    Flight network.cad.link.calls round.link network.toBroker ∧
      Once network.cad.link.calls round.link := by
  intro round
  have flight := delivering.flight (by rw [connected]; nofun)
  have once := delivering.once
  rcases CaLink.takeRequest_cases id linked.asked.short with ⟨result, _⟩ |
    ⟨_, _, _, _, nothing, _, _, _, _, _, _, _, result⟩
  · simp only [round, result]
    exact ⟨flight, once⟩
  · simp only [round, result]
    refine ⟨.quiet fun frame member kind => ?_, ⟨once.once, once.window⟩⟩
    obtain ⟨_, _, _, waited⟩ := flight.current frame member kind
    rw [awaited, nothing] at waited
    cases waited

theorem effect (delivering : Delivering network) (linked : Linked network)
    (inOrder : InOrder network.cad.link network.broker) {later : Network ρ}
    (effect : Effect random network later) : Delivering later := by
  obtain ⟨flight, once⟩ := delivering
  cases effect with
  | idle => exact ⟨flight, once⟩
  | accepts daemon sent out same part =>
      have nothing : Flight network.cad.link.calls network.broker [] := .quiet nofun
      have resent := nothing.resend linked.served inOrder.held nofun part
      rw [← same] at once resent
      exact ⟨fun _ => resent, once⟩
  | sends daemon sent same part =>
      have resent (inside : network.session ≠ .out) :=
        (flight inside).resend linked.served inOrder.held linked.answers part
      rw [← same] at once resent
      exact ⟨resent, once⟩
  | reloads daemon candidate same =>
      obtain ⟨system, changed⟩ := network.cad.link.reload_eq candidate
      rw [changed] at same
      have calls : daemon.link.calls = network.cad.link.calls := by rw [same]
      rw [← calls] at flight once
      exact ⟨flight, once⟩
  | receives daemon frame rest nowSeconds draws written next separate unused runs same =>
      have received := linked.received next nowSeconds separate unused runs
      have answered (inside : network.session ≠ .out) :=
        receives linked inOrder (flight inside) received (write_front _ written)
      have routed := routes once linked received
      rw [← same] at answered routed
      exact ⟨answered, routed⟩
  | asks written inside => exact ⟨fun _ => flight inside, once⟩
  | hears frame rest written connected next =>
      obtain ⟨flightLater, onceLater⟩ :=
        Delivering.hears ⟨flight, once⟩ linked connected next (linked.heard next)
      exact ⟨fun _ => flightLater, onceLater⟩
  | takes id written connected unused =>
      obtain ⟨flightLater, onceLater⟩ := Delivering.takes ⟨flight, once⟩ linked connected id
      exact ⟨fun _ => flightLater, onceLater⟩
  | cuts => exact ⟨fun inside => absurd rfl inside, once⟩
  | threads router feeds =>
      exact ⟨fun inside => (flight inside).of_same rfl, ⟨once.once, once.window⟩⟩

end Delivering

end Steps

/-! ## Runs -/

section Runs

variable {ρ : Type} (random : CryptoRandom ρ) {network : Network ρ} {events : List Event}

theorem delivering_run (starts : Starts network)
    (lasting : Machine.Along (Network.step random) (Lasting random) network events) :
    let reached := Machine.run (Network.step random) network events
    Linked reached ∧ Delivering reached ∧ reached.config = network.config := by
  have result := lasting.preserves (fun current =>
    (Linked current ∧ InOrder current.cad.link current.broker) ∧ Delivering current ∧
      current.config = network.config) ?_ ?_
  · exact ⟨result.1.1, result.2⟩
  · rintro current event ⟨⟨linked, inOrder⟩, delivering, config⟩ ⟨fits, unbroken⟩
    have effect := fits.effect unbroken
    exact ⟨⟨linked.effect effect, inOrder.effect linked effect⟩,
      delivering.effect linked inOrder effect, by rw [Network.step_config, config]⟩
  · have nothing : network.toBroker = [] := by
      rw [starts.initial]
      rfl
    refine ⟨@inOrder_run _ random _ [] starts trivial, ⟨fun _ => ?_, ?_, ?_⟩, rfl⟩
    · rw [nothing]
      exact .quiet nofun
    · rw [starts.calls]
      nofun
    · rw [starts.calls]
      nofun

/-- A delivery is routed at most once if its group is no larger than the Broker's window. -/
theorem delivered_at_most_once (starts : Starts network)
    (lasting : Machine.Along (Network.step random) (Lasting random) network events) :
    let reached := Machine.run (Network.step random) network events
    ∀ id, (∀ call ∈ reached.cad.link.calls, id ∈ call.frames.map LinkFrame.id →
        call.frames.length ≤ network.config.caDedupDepth) →
      (reached.broker.routed.map LinkFrame.id).count id ≤ 1 := by
  intro reached id short
  obtain ⟨linked, delivering, config⟩ := delivering_run random starts lasting
  by_cases routed : id ∈ reached.broker.routed.map LinkFrame.id
  · obtain ⟨frame, member, rfl⟩ := List.mem_map.mp routed
    obtain ⟨call, made, generated⟩ := mem_generated.mp (linked.served.origin frame member)
    apply delivering.once.once call made _ frame generated
    rw [linked.asked.window, config]
    exact short call made (List.mem_map_of_mem generated)
  · rw [List.count_eq_zero.mpr routed]
    exact Nat.zero_le _

end Runs

/-! ## A group larger than the window -/

namespace Sample

def wide : BrokerConfig := ⟨4, 4, 4, 8, 2⟩

/-- Both deliveries of a group are routed, but no acknowledgement of them reaches the CA. -/
def repeated : List Event :=
  agents ++ session ++
    ([1, 2, 3, 4, 5].map (fun number => exchange number [] ++ [.brokerReceives none])).flatten ++
    exchange 6 [Cad.Sample.id 11, Cad.Sample.id 12] ++
    [.brokerReceives none, .brokerReceives none, .brokerLeaves, .caLeaves] ++ session ++
    [.brokerReceives none]

end Sample

/-- A window of one id forgets the first of two deliveries, which is then routed again. -/
theorem evicted_delivery_routed_twice : ∃ daemon, Cad.Sample.started = .ok daemon ∧
    let reached := Machine.run (Network.step .counting) (Sample.network daemon) Sample.repeated
    Starts (Sample.network daemon) ∧ 1 ≤ Sample.config.caDedupDepth ∧
      Machine.Along (Network.step .counting) (Lasting .counting) (Sample.network daemon)
        Sample.repeated ∧
      (reached.broker.routed.map LinkFrame.id).count (Cad.Sample.id 11) = 2 := by
  obtain ⟨daemon, started, evaluated⟩ := @Cad.Sample.exists_started (fun daemon =>
    let reached := Machine.run (Network.step .counting) (Sample.network daemon) Sample.repeated
    decide (1 ≤ Sample.config.caDedupDepth ∧
      Machine.Along (Network.step .counting) (Lasting .counting) (Sample.network daemon)
        Sample.repeated ∧
      (reached.broker.routed.map LinkFrame.id).count (Cad.Sample.id 11) = 2)) (by decide +kernel)
  exact ⟨daemon, started, Sample.starts started, of_decide_eq_true evaluated⟩

/-- A window of two ids suffices for the same run. -/
theorem sample_delivered_at_most_once : ∃ daemon, Cad.Sample.started = .ok daemon ∧
    let reached := Machine.run (Network.step .counting) (.start Sample.wide daemon) Sample.repeated
    ∀ id, (reached.broker.routed.map LinkFrame.id).count id ≤ 1 := by
  obtain ⟨daemon, started, evaluated⟩ := @Cad.Sample.exists_started (fun daemon =>
    let reached := Machine.run (Network.step .counting) (.start Sample.wide daemon) Sample.repeated
    decide (Machine.Along (Network.step .counting) (Lasting .counting) (.start Sample.wide daemon)
        Sample.repeated ∧
      ∀ call ∈ reached.cad.link.calls, call.frames.length ≤ Sample.wide.caDedupDepth))
    (by decide +kernel)
  obtain ⟨lasting, short⟩ := of_decide_eq_true evaluated
  have starts : Starts (.start Sample.wide daemon) :=
    ⟨⟨_, _, _, _, _, started, by decide⟩, rfl, show 0 < Sample.wide.caDedupDepth by decide⟩
  exact ⟨daemon, started, fun id => delivered_at_most_once .counting starts lasting id
    fun call made _ => short call made⟩

end SecurePubSub.BrokerCa
