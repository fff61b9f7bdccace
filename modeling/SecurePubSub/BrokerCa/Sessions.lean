import SecurePubSub.BrokerCa.Requests

namespace SecurePubSub.BrokerCa

open SecurePubSub.Data SecurePubSub.Protocol SecurePubSub.Authority SecurePubSub.Link
  SecurePubSub.Broker SecurePubSub.Cad

/-! When a session can end although nothing fails.

The CA serves one request at a time and the Broker keeps one pending. A restarted
Broker has forgotten which one that is, and offers the CA another.
-/

/-- The ids that handling a frame needs: one for each delivery that it generates. -/
def drawsNeeded {ρ : Type} (random : CryptoRandom ρ) (link : LinkState ρ) (frame : LinkFrame)
    (nowSeconds : UInt64) : Nat :=
  if frame.kind = .request ∧ link.currentRequest = none then
    match (link.system.authority.handle random frame.payload nowSeconds link.system.world).1 with
    | .ok (.deliveries deliveries) => deliveries.length
    | _ => 0
  else 0

/-- The event neither ends the connection nor breaks it nor starts anything anew. -/
def Event.faultless : Event → Bool
  | .caReceives _ _ none | .caRetries none | .caReloads _ | .brokerReceives none
  | .brokerRetries none | .brokerTakes _ none | .agentSends _ _ | .otherThreads _ => true
  | _ => false

namespace Network

variable {ρ : Type} (random : CryptoRandom ρ) (network : Network ρ)

/-- A new session over a connection that does not fail. -/
def opened : Network ρ := (network.step random (.accept none)).step random (.connect none)

/-- Both endpoints are in the session. -/
def Intact : Prop := network.session = .connected ∧ network.cad.phase = .connected

/-- The delivery that the Broker reads next, if it is one and new, is routed. -/
def RoutesNext : Prop :=
  ∀ frame ∈ network.toBroker.head?, frame.kind = .delivery →
    network.broker.acquiredDeliveries.contains frame.id = false →
    (network.broker.router.routeCaDelivery frame.payload).1 = .ok ()

/-- Enough ids are drawn for what the CA reads next. -/
def DrawsEnough (nowSeconds : UInt64) (draws : List MessageId) : Prop :=
  ∀ frame ∈ network.toCa.head?,
    drawsNeeded random network.cad.link frame nowSeconds ≤ draws.length

def Unhindered : Event → Prop
  | .caReceives nowSeconds draws _ => network.DrawsEnough random nowSeconds draws
  | .brokerReceives _ => network.RoutesNext
  | _ => True

/-- The event belongs to a session in which neither the connection nor routing a delivery nor
drawing an id fails. -/
def FaultFree (event : Event) : Prop :=
  event.faultless = true ∧ network.Allowed event ∧ network.Unhindered random event

instance : Decidable network.Intact := inferInstanceAs (Decidable (_ ∧ _))

instance : ∀ event, Decidable (network.Unhindered random event)
  | .caReceives nowSeconds draws _ => inferInstanceAs (Decidable (∀ frame ∈ network.toCa.head?,
      drawsNeeded random network.cad.link frame nowSeconds ≤ draws.length))
  | .brokerReceives _ => inferInstanceAs (Decidable (∀ frame ∈ network.toBroker.head?,
      frame.kind = .delivery → network.broker.acquiredDeliveries.contains frame.id = false →
      (network.broker.router.routeCaDelivery frame.payload).1 = .ok ()))
  | .accept _ | .connect _ | .caLeaves | .brokerLeaves | .caRetries _ | .caReloads _
  | .brokerRetries _ | .brokerTakes _ _ | .agentSends _ _ | .otherThreads _ | .brokerRestarts =>
      .isTrue trivial

instance (event : Event) : Decidable (network.FaultFree random event) :=
  inferInstanceAs (Decidable (_ ∧ _))

end Network

namespace Linked

variable {ρ : Type} {random : CryptoRandom ρ} {network : Network ρ}

/-- In a session, a new request finds the CA without another one if the Broker has that pending. -/
theorem idle_of_fresh (linked : Linked network) (held : Held network.cad.link network.broker)
    {frame : LinkFrame}
    (fresh : Fresh network.cad.link.calls network.broker network.session frame) :
    network.cad.link.currentRequest = none := by
  cases current : network.cad.link.currentRequest with
  | none => rfl
  | some id =>
      obtain ⟨entry, entries⟩ := held id current
      rcases linked.asked.pending with nothing | ⟨pending, same, last, _⟩
      · rw [nothing] at entries
        cases entries
      · have named : pending.id = id := by
          rw [same] at entries
          simp only [List.cons.injEq, Prod.mk.injEq] at entries
          exact entries.1.1
        have done := latest_mem (linked.served.current id current)
        rw [← named, last.unique fresh.1] at done
        exact absurd done fresh.2.1

/-- The CA goes on when enough ids are drawn. -/
theorem stays (linked : Linked network) {frame : LinkFrame} {nowSeconds : UInt64}
    {draws : List MessageId} (separate : draws.Nodup)
    (enough : drawsNeeded random network.cad.link frame nowSeconds ≤ draws.length) :
    (network.cad.link.onFrame random frame nowSeconds draws).ending ≠ .exit := by
  unfold LinkState.onFrame
  split
  · rcases @LinkState.onAck_cases _ network.cad.link frame.id with ⟨_, _, _, result⟩ | ⟨_, result⟩
    · rw [result]
      nofun
    · rw [result]
      nofun
  · rename_i kind
    unfold LinkState.onRequest
    split
    · nofun
    · split
      · nofun
      · split
        · rename_i idle
          apply linked.served.grouped.process_stays idle linked.served.positive _ _ _ separate
          intro deliveries answer
          rw [drawsNeeded, if_pos ⟨kind, idle⟩, answer] at enough
          exact enough
        · nofun
  · nofun

theorem received_stays (linked : Linked network) (held : Held network.cad.link network.broker)
    {frame : LinkFrame} {rest : List LinkFrame} {draws : List MessageId} {round : Round ρ}
    (received : Received network frame rest draws round) : round.ending = .stay := by
  cases received with
  | receipt acquired later =>
      rcases @LinkState.onAck_cases _ network.cad.link frame.id with
        ⟨_, _, _, result⟩ | ⟨_, result⟩
      · rw [result]
      · rw [result]
  | repeated stale current later => rfl
  | known stale completed later => rfl
  | processed _ call fresh idle id payload calls stays ways served later => exact stays
  | busy fresh other later => exact absurd (linked.idle_of_fresh held fresh) other

end Linked

/-! ## A session without faults -/

/-- A session that has not ended. -/
structure Going {ρ : Type} (network : Network ρ) : Prop where
  linked : Linked network
  intact : network.Intact
  held : Held network.cad.link network.broker

namespace Going

variable {ρ : Type} {random : CryptoRandom ρ} {network : Network ρ} {event : Event}

/-- A round in which every frame is written keeps the Broker in its session. -/
theorem intact_brokerRound {round : CaRound} (phase : network.cad.phase = .connected)
    (open_ : round.closes = false) : (network.brokerRound round none).Intact := by
  simp [Network.Intact, Network.brokerRound, phase, open_]

/-- The Broker goes on when the delivery that it reads is routed. -/
theorem stays_open (going : Going network) {frame : LinkFrame} {rest : List LinkFrame}
    (next : network.toBroker = frame :: rest) (routes : network.RoutesNext) :
    (network.broker.onFrame frame).closes = false := by
  have heard := going.linked.heard next
  generalize network.broker.onFrame frame = round at heard
  cases heard with
  | completes kind done completed => rfl
  | duplicate made known => rfl
  | routes made unknown acquired recorded => rfl
  | rejects made unknown full =>
      have routed := routes frame (by rw [next]; rfl) (going.linked.served.kinds frame made) unknown
      exact absurd (Router.routeCaDelivery_eq_ok.mp routed) full

/-- Nothing that happens without a fault ends the session. -/
theorem intact_step (going : Going network) (faultFree : network.FaultFree random event) :
    (network.step random event).Intact := by
  obtain ⟨connected, phase⟩ := going.intact
  obtain ⟨faultless, allowed, unhindered⟩ := faultFree
  cases event with
  | caReceives nowSeconds draws written =>
      cases written with
      | some count => cases faultless
      | none =>
          obtain ⟨separate, unused⟩ := allowed
          simp only [Network.step, if_pos phase]
          cases next : network.toCa with
          | nil => exact going.intact
          | cons frame rest =>
              have enough := unhindered frame (by rw [next]; rfl)
              have runs := going.linked.stays separate enough
              have stays := going.linked.received_stays going.held
                (going.linked.received next nowSeconds separate unused runs)
              simp only [Network.caStep, Daemon.step, if_pos phase, LinkState.onBytes_encoded]
              exact ⟨connected, Round.finish_stay stays⟩
  | caRetries written =>
      cases written with
      | some count => cases faultless
      | none =>
          simp only [Network.step, Network.caStep, Daemon.step]
          split
          · exact ⟨connected, Round.finish_stay rfl⟩
          · exact going.intact
  | caReloads candidate =>
      simp only [Network.step, Network.caStep, Daemon.step, if_pos phase]
      exact ⟨connected, phase⟩
  | brokerReceives written =>
      cases written with
      | some count => cases faultless
      | none =>
          simp only [Network.step, if_pos connected]
          cases next : network.toBroker with
          | nil => exact going.intact
          | cons frame rest =>
              simp only [CaLink.onBytes_encoded]
              exact intact_brokerRound phase (going.stays_open next unhindered)
  | brokerRetries written =>
      cases written with
      | some count => cases faultless
      | none =>
          simp only [Network.step]
          split
          · exact intact_brokerRound phase rfl
          · exact going.intact
  | brokerTakes draw written =>
      cases written with
      | some count => cases faultless
      | none =>
          cases draw with
          | none => exact absurd allowed id
          | some id =>
              simp only [Network.step, if_pos connected]
              apply intact_brokerRound phase
              rcases CaLink.takeRequest_cases id going.linked.asked.short with
                ⟨result, _⟩ | ⟨_, _, _, _, _, _, _, _, _, _, _, _, result⟩
              · rw [result]
              · rw [result]
  | agentSends identity frame => exact going.intact
  | otherThreads router => exact going.intact
  | accept written => cases faultless
  | connect written => cases faultless
  | caLeaves => cases faultless
  | brokerLeaves => cases faultless
  | brokerRestarts => cases faultless

/-- The Broker holds the request that the CA processes in the session. -/
theorem held_receives (going : Going network) {frame : LinkFrame} {rest : List LinkFrame}
    {draws : List MessageId} {round : Round ρ}
    (received : Linked.Received network frame rest draws round) :
    Held round.state network.broker := by
  cases received with
  | receipt acquired later =>
      rcases @LinkState.onAck_cases _ network.cad.link frame.id with
        ⟨_, _, _, result⟩ | ⟨_, result⟩
      · rw [result]
        exact going.held.of_same (.inl rfl)
      · rw [result]
        exact going.held.of_same (.inr rfl)
  | repeated stale current later => exact going.held
  | known stale completed later => exact going.held
  | processed _ call fresh idle id payload calls stays ways served later =>
      intro other current
      rcases ways with ⟨completed, _⟩ | ⟨named, _⟩
      · rw [completed] at current
        cases current
      · rw [named] at current
        cases current
        have some := fresh.2.2 going.intact.1
        rcases going.linked.asked.pending with nothing | ⟨entry, entries, last, _⟩
        · exact absurd nothing some
        · rw [last.unique fresh.1] at entries
          exact ⟨frame, entries⟩
  | busy fresh other later => exact going.held

theorem held_effect (going : Going network) {later : Network ρ}
    (effect : Effect random network later) : Held later.cad.link later.broker := by
  have held := going.held
  cases effect with
  | idle => exact held
  | accepts daemon sent out same part => exact held.of_same (.inr (by rw [same]))
  | sends daemon sent same part => exact held.of_same (.inr (by rw [same]))
  | reloads daemon candidate same =>
      obtain ⟨system, changed⟩ := network.cad.link.reload_eq candidate
      rw [changed] at same
      exact held.of_same (.inr (by rw [same]))
  | receives daemon frame rest nowSeconds draws written next separate unused runs same =>
      dsimp only
      rw [same]
      exact going.held_receives (going.linked.received next nowSeconds separate unused runs)
  | asks written inside => exact held
  | hears frame rest written connected next => exact held.hears (going.linked.heard next)
  | takes id written connected unused => exact held.takes going.linked id
  | cuts => exact held
  | threads router feeds => exact held

theorem step (going : Going network) (faultFree : network.FaultFree random event) :
    Going (network.step random event) := by
  have intact := going.intact_step faultFree
  have alive : (network.step random event).cad.phase ≠ .exited := by
    rw [intact.2]
    nofun
  have unbroken : event.restarts = false := by
    have faultless := faultFree.1
    cases event with
    | brokerRestarts => cases faultless
    | _ => rfl
  have effect := Network.Proper.effect ⟨alive, faultFree.2.1⟩ unbroken
  exact ⟨going.linked.effect effect, intact, going.held_effect effect⟩

theorem run (going : Going network) {events : List Event}
    (faultFree : Machine.Along (Network.step random) (Network.FaultFree random) network events) :
    (Machine.run (Network.step random) network events).Intact :=
  (faultFree.preserves Going (fun _ _ going fits => going.step fits) going).intact

end Going

/-! ## Opening a session -/

section Opened

variable {ρ : Type} {random : CryptoRandom ρ} {network : Network ρ}

/-- Each party starts a session by sending again what it has pending. -/
theorem Network.opened_eq (out : network.session = .out) (accepting : network.cad.phase = .accepting) :
    network.opened random = { network with
      cad := ⟨network.cad.link, .connected⟩
      session := .connected
      toCa := network.broker.pending.snapshot
      toBroker := network.cad.link.pendingDeliveries.snapshot } := by
  simp [Network.opened, Network.step, Network.caStep, Network.brokerRound, Daemon.step, out,
    accepting, Round.finish, LinkState.resend, CaLink.resend]

theorem Linked.opened (linked : Linked network) (out : network.session = .out)
    (accepting : network.cad.phase = .accepting) : Linked (network.opened random) := by
  have waits : network.Proper random (.accept none) := by
    refine ⟨?_, trivial⟩
    simp [Network.step, Network.caStep, Daemon.step, out, accepting, Round.finish,
      LinkState.resend]
  have joins : (network.step random (.accept none)).Proper random (.connect none) := by
    refine ⟨?_, trivial⟩
    rw [← Network.opened, Network.opened_eq out accepting]
    intro left
    cases left
  exact (linked.step waits).step joins

theorem Linked.opened_going (linked : Linked network) (out : network.session = .out)
    (accepting : network.cad.phase = .accepting) (held : Held network.cad.link network.broker) :
    Going (network.opened random) := by
  have opened := @Linked.opened _ random _ linked out accepting
  rw [Network.opened_eq out accepting] at opened ⊢
  exact ⟨opened, ⟨rfl, rfl⟩, held⟩

/-- The CA refuses a new request while it holds the deliveries of another one. -/
theorem Network.refuses {frame : LinkFrame} {rest : List LinkFrame} {id : MessageId}
    (phase : network.cad.phase = .connected) (next : network.toCa = frame :: rest)
    (kind : frame.kind = .request) (current : network.cad.link.currentRequest = some id)
    (other : frame.id ≠ id) (unknown : frame.id ∉ network.cad.link.acquiredRequests.order) :
    network.FaultFree random (.caReceives 0 [] none) ∧
      ¬ (network.step random (.caReceives 0 [] none)).Intact := by
  have busy : network.cad.link.onFrame random frame 0 [] = ⟨network.cad.link, [], .closed⟩ := by
    have different : ¬ id = frame.id := fun same => other same.symm
    have new : network.cad.link.acquiredRequests.contains frame.id = false := by
      rw [← Bool.not_eq_true, DedupWindow.contains_iff]
      exact unknown
    simp [LinkState.onFrame, LinkState.onRequest, kind, current, different, new]
  refine ⟨⟨rfl, ⟨List.nodup_nil, nofun⟩, fun first named => ?_⟩, fun intact => ?_⟩
  · simp [drawsNeeded, current]
  · have closed := intact.2
    simp [Network.step, Network.caStep, Daemon.step, phase, next, busy, Round.finish] at closed

/-- A request that the Broker takes while it has forgotten which one the CA serves is refused. -/
theorem Linked.forgets (linked : Linked network) (intact : network.Intact) {id current : MessageId}
    (serves : network.cad.link.currentRequest = some current)
    (forgotten : network.broker.pending.entries = []) (empty : network.toCa = [])
    (waiting : network.broker.router.caRequests.frames ≠ []) (unused : id ∉ network.used) :
    let events := [Event.brokerTakes (some id) none, .caReceives 0 [] none]
    Machine.Along (Network.step random) (Network.FaultFree random) network events ∧
      ¬ (Machine.run (Network.step random) network events).Intact := by
  intro events
  have done := latest_mem (linked.served.current current serves)
  have other : id ≠ current := by
    rintro rfl
    exact unused (linked.asked.processed_used done)
  obtain ⟨call, made, _⟩ := List.mem_map.mp done
  have room := linked.asked.room (List.ne_nil_of_mem (linked.asked.taken call made))
  rcases CaLink.takeRequest_cases id linked.asked.short with ⟨_, blocked⟩ |
    ⟨request, rest, frame, pending, _, _, _, kind, named, _, _, _, result⟩
  · rcases blocked with some | zero | nothing
    · exact absurd forgotten some
    · omega
    · exact absurd nothing waiting
  · have takes : network.FaultFree random (.brokerTakes (some id) none) := ⟨rfl, unused, trivial⟩
    have unknown : id ∉ network.cad.link.acquiredRequests.order := fun known =>
      unused (linked.asked.processed_used (linked.served.recorded id known))
    obtain ⟨receives, closed⟩ := @Network.refuses _ random
      (network.step random (.brokerTakes (some id) none)) frame [] current
      (by simp [Network.step, intact.1, Network.brokerRound, intact.2])
      (by simp [Network.step, intact.1, Network.brokerRound, result, empty]) kind
      (by simp [Network.step, intact.1, Network.brokerRound, serves]) (named ▸ other)
      (by simp [Network.step, intact.1, Network.brokerRound, named, unknown])
    exact ⟨⟨takes, receives, trivial⟩, closed⟩

/-- Whatever the channel to the CA holds, an agent can send a request, and one waits then. -/
theorem Linked.request_waits (linked : Linked network) (taken : network.broker.taken ≠ []) :
    ∃ identity frame,
      (network.broker.router.routeAgentRequest identity frame).2.caRequests.frames ≠ [] := by
  obtain ⟨depth, positive, opened⟩ := linked.asked.channel
  have room := linked.asked.room taken
  rw [linked.asked.depth] at room
  by_cases empty : network.broker.router.caRequests.frames = []
  · let header : EnvelopeHeader :=
      { sampleHeader with messageType := .subscribe, sender := sampleAgent, recipient := .ca }
    have accepted := @Router.routeAgentRequest_frame network.broker.router header []
      (.fill tagLen 0) (.fill signatureLen 0) (Nat.zero_le _) (by decide) rfl nofun
      (by omega) opened (by simpa [empty] using positive)
    exact ⟨header.sender, _, by rw [accepted]; simp⟩
  · refine ⟨sampleAgent, [], ?_⟩
    rcases @Router.routeAgentRequest_cases network.broker.router sampleAgent [] with
      ⟨_, result⟩ | ⟨_, _, result⟩
    · rw [result]
      exact empty
    · rw [result]
      simp

/-- A Broker that has forgotten which request the CA serves can end the next session. -/
theorem Linked.wedges (linked : Linked network) (out : network.session = .out)
    (accepting : network.cad.phase = .accepting) {id : MessageId} (unused : id ∉ network.used)
    (lost : ¬ Held network.cad.link network.broker) :
    ∃ events, Machine.Along (Network.step random) (Network.FaultFree random)
        (network.opened random) events ∧
      ¬ (Machine.run (Network.step random) (network.opened random) events).Intact := by
  simp only [Held, not_forall, not_exists] at lost
  obtain ⟨current, serves, forgotten⟩ := lost
  have opened := @Linked.opened _ random _ linked out accepting
  have shape := @Network.opened_eq _ random _ out accepting
  rcases linked.asked.pending with nothing | ⟨frame, entries, last, known⟩
  · obtain ⟨call, made, _⟩ := List.mem_map.mp (latest_mem (linked.served.current current serves))
    obtain ⟨identity, frame, waiting⟩ :=
      linked.request_waits (List.ne_nil_of_mem (linked.asked.taken call made))
    have asks : (network.opened random).FaultFree random (.agentSends identity frame) :=
      ⟨rfl, trivial, trivial⟩
    have asked := @Linked.step _ random _ opened (.agentSends identity frame)
      ⟨by simp [Network.step, shape], trivial⟩
    obtain ⟨along, closed⟩ := @Linked.forgets _ random _ asked
      (by simp [Network.step, Network.Intact, shape]) id current
      (by simp [Network.step, shape, serves])
      (by simp [Network.step, shape, nothing])
      (by simp [Network.step, shape, PendingFrames.snapshot_eq, nothing])
      (by simpa [Network.step, shape] using waiting) (by simp [Network.step, shape, unused])
    exact ⟨[.agentSends identity frame, .brokerTakes (some id) none,
      .caReceives 0 [] none], ⟨asks, along⟩, closed⟩
  · have other : frame.id ≠ current := fun same => forgotten frame (same ▸ entries)
    have unknown : frame.id ∉ network.cad.link.acquiredRequests.order := by
      intro recorded
      have done := linked.served.recorded _ recorded
      have latest := known.resolve_left (fun fresh => fresh done)
      rw [linked.served.current current serves] at latest
      exact other (Option.some.inj latest).symm
    obtain ⟨receives, closed⟩ := @Network.refuses _ random (network.opened random) frame [] current
      (by simp [shape]) (by simp [shape, PendingFrames.snapshot_eq, entries]) last.1
      (by simp [shape, serves]) other (by simp [shape, unknown])
    exact ⟨[.caReceives 0 [] none], ⟨receives, trivial⟩, closed⟩

end Opened

/-! ## When a session never closes itself -/

section Runs

variable {ρ : Type} (random : CryptoRandom ρ) {network : Network ρ} {events : List Event}

/-- Whether a session can close itself is decided when it starts: it cannot exactly if the Broker
has the request pending, and only that, whose deliveries the CA still holds. -/
theorem session_never_closes_iff (starts : Starts network)
    (proper : Machine.Along (Network.step random) (Network.Proper random) network events) :
    let reached := Machine.run (Network.step random) network events
    reached.session = .out → reached.cad.phase = .accepting → (∃ id, id ∉ reached.used) →
      ((∀ later, Machine.Along (Network.step random) (Network.FaultFree random)
            (reached.opened random) later →
          (Machine.run (Network.step random) (reached.opened random) later).Intact) ↔
        Held reached.cad.link reached.broker) := by
  intro reached out accepting ⟨id, unused⟩
  have linked : Linked reached := linked_run random starts proper
  constructor
  · intro intact
    by_contra lost
    obtain ⟨later, faultFree, closed⟩ := @Linked.wedges _ random _ linked out accepting id unused lost
    exact closed (intact later faultFree)
  · intro held later faultFree
    exact (linked.opened_going out accepting held).run faultFree

/-- While the Broker's process goes on, no session closes itself. -/
theorem session_never_closes_without_restart (starts : Starts network)
    (lasting : Machine.Along (Network.step random) (Lasting random) network events) :
    let reached := Machine.run (Network.step random) network events
    reached.session = .out → reached.cad.phase = .accepting →
      ∀ later, Machine.Along (Network.step random) (Network.FaultFree random)
          (reached.opened random) later →
        (Machine.run (Network.step random) (reached.opened random) later).Intact := by
  intro reached out accepting later faultFree
  obtain ⟨linked, _, held⟩ := inOrder_run random starts lasting
  exact (linked.opened_going out accepting held).run faultFree

end Runs

/-! ## A request refused after a restart -/

namespace Sample

def delivering : List Event :=
  agents ++ session ++
    ([1, 2, 3, 4, 5].map (fun number => exchange number [] ++ [.brokerReceives none])).flatten ++
    exchange 6 [Cad.Sample.id 11, Cad.Sample.id 12]

def remembered : List Event := delivering ++ [.brokerLeaves, .caLeaves]

def forgotten : List Event := delivering ++ [.brokerRestarts, .caLeaves]

/-- The restarted Broker takes the request of another agent. -/
def another : List Event :=
  .agentSends (Authority.Sample.agent 2).id (Authority.Sample.frame 2 (.setEnvironment []) 60) ::
    exchange 7 []

end Sample

/-- A session without faults ends because the CA is asked for something else than the Broker was
waiting for before its restart. -/
theorem restart_closes_session : ∃ daemon, Cad.Sample.started = .ok daemon ∧
    let reached := Machine.run (Network.step .counting) (Sample.network daemon) Sample.forgotten
    Starts (Sample.network daemon) ∧
      Machine.Along (Network.step .counting) (Network.Proper .counting) (Sample.network daemon)
        Sample.forgotten ∧
      reached.session = .out ∧ reached.cad.phase = .accepting ∧
      Machine.Along (Network.step .counting) (Network.FaultFree .counting)
        (reached.opened .counting) Sample.another ∧
      ¬ (Machine.run (Network.step .counting) (reached.opened .counting) Sample.another).Intact := by
  obtain ⟨daemon, started, evaluated⟩ := @Cad.Sample.exists_started (fun daemon =>
    let reached := Machine.run (Network.step .counting) (Sample.network daemon) Sample.forgotten
    decide (Machine.Along (Network.step .counting) (Network.Proper .counting)
        (Sample.network daemon) Sample.forgotten ∧
      reached.session = .out ∧ reached.cad.phase = .accepting ∧
      Machine.Along (Network.step .counting) (Network.FaultFree .counting)
        (reached.opened .counting) Sample.another ∧
      ¬ (Machine.run (Network.step .counting) (reached.opened .counting) Sample.another).Intact))
    (by decide +kernel)
  exact ⟨daemon, started, Sample.starts started, of_decide_eq_true evaluated⟩

/-- Both parties leave with the same request and meet again. -/
theorem sample_session_never_closes_iff : ∃ daemon, Cad.Sample.started = .ok daemon ∧
    let reached := Machine.run (Network.step .counting) (Sample.network daemon) Sample.remembered
    ∀ later, Machine.Along (Network.step .counting) (Network.FaultFree .counting)
        (reached.opened .counting) later →
      (Machine.run (Network.step .counting) (reached.opened .counting) later).Intact := by
  obtain ⟨daemon, started, evaluated⟩ := @Cad.Sample.exists_started (fun daemon =>
    let reached := Machine.run (Network.step .counting) (Sample.network daemon) Sample.remembered
    decide (Machine.Along (Network.step .counting) (Network.Proper .counting)
        (Sample.network daemon) Sample.remembered ∧
      reached.session = .out ∧ reached.cad.phase = .accepting ∧ Cad.Sample.id 7 ∉ reached.used ∧
      reached.cad.link.currentRequest = some (Cad.Sample.id 6) ∧
      reached.broker.pending.entries.map Prod.fst = [Cad.Sample.id 6])) (by decide +kernel)
  obtain ⟨proper, out, accepting, unused, serves, ids⟩ := of_decide_eq_true evaluated
  refine ⟨daemon, started, (session_never_closes_iff .counting (Sample.starts started) proper out
    accepting ⟨_, unused⟩).mpr fun id current => ?_⟩
  rw [serves] at current
  cases current
  obtain ⟨entry, entries, named⟩ := List.map_eq_singleton_iff.mp ids
  exact ⟨entry.2, by rw [entries, ← named]⟩

end SecurePubSub.BrokerCa
