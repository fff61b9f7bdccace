import SecurePubSub.BrokerCa.Sessions
import SecurePubSub.Data.Fairness

namespace SecurePubSub.BrokerCa

open SecurePubSub.Data SecurePubSub.Protocol SecurePubSub.Authority SecurePubSub.Link
  SecurePubSub.Broker SecurePubSub.Cad

/-! What a session without faults accomplishes when neither party is left alone for ever.

Whatever a party waits for is in flight: the request of the Broker or its
acknowledgement, unless the CA serves that request, and each delivery of the CA or
its acknowledgement. Every frame in flight is read some time.
-/

/-- The CA reads a frame. -/
def Event.caReads : Event → Bool
  | .caReceives _ _ _ => true
  | _ => false

/-- The Broker reads a frame. -/
def Event.brokerReads : Event → Bool
  | .brokerReceives _ => true
  | _ => false

/-- The Broker looks for a request to take. -/
def Event.takes : Event → Bool
  | .brokerTakes _ _ => true
  | _ => false

/-! ## One event of a session without faults -/

/-- What an event does in a session that it leaves intact. -/
inductive Calm {ρ : Type} (network : Network ρ) : Event → Network ρ → Prop where
  | receivesNone (nowSeconds : UInt64) (draws : List MessageId) (empty : network.toCa = []) :
      Calm network (.caReceives nowSeconds draws none) network
  | receives (nowSeconds : UInt64) (draws : List MessageId) (frame : LinkFrame)
      (rest : List LinkFrame) (round : Round ρ) (next : network.toCa = frame :: rest)
      (received : Linked.Received network frame rest draws round) (stays : round.ending = .stay) :
      Calm network (.caReceives nowSeconds draws none)
        { network with
          cad := ⟨round.state, .connected⟩
          toCa := rest
          toBroker := network.toBroker ++ round.frames
          used := network.used ++ draws }
  | hearsNone (empty : network.toBroker = []) : Calm network (.brokerReceives none) network
  | hears (frame : LinkFrame) (rest : List LinkFrame) (round : CaRound)
      (next : network.toBroker = frame :: rest) (heard : Linked.Heard network frame round)
      (stays : round.closes = false) :
      Calm network (.brokerReceives none)
        { network with
          broker := round.link
          toCa := network.toCa ++ round.frames
          toBroker := rest }
  | resends (sent : List LinkFrame) :
      Calm network (.caRetries none) { network with toBroker := network.toBroker ++ sent }
  | asks (sent : List LinkFrame) :
      Calm network (.brokerRetries none) { network with toCa := network.toCa ++ sent }
  | reloads (candidate : Option (EnvironmentPolicy × List (AgentId × PublicKeys)))
      (system : CaSystem ρ) :
      Calm network (.caReloads candidate)
        { network with cad := ⟨{ network.cad.link with system }, .connected⟩ }
  | takesNone (id : MessageId)
      (blocked : network.broker.pending.entries ≠ [] ∨ network.broker.pending.maximum = 0 ∨
        network.broker.router.caRequests.frames = []) :
      Calm network (.brokerTakes (some id) none) { network with used := network.used ++ [id] }
  | takes (id : MessageId) (request : Bytes) (rest : List Bytes) (frame : LinkFrame)
      (pending : PendingFrames LinkFrame) (nothing : network.broker.pending.entries = [])
      (waiting : network.broker.router.caRequests.frames = request :: rest)
      (kind : frame.kind = .request) (entries : pending.entries = [(id, frame)])
      (named : frame.id = id) :
      Calm network (.brokerTakes (some id) none)
        { network with
          broker := { network.broker with
            router := { network.broker.router with
              caRequests := { network.broker.router.caRequests with frames := rest } }
            pending
            taken := network.broker.taken ++ [(some id, request)] }
          toCa := network.toCa ++ [frame]
          used := network.used ++ [id] }
  | threads (event : Event) (router : Router) (more : List Bytes)
      (unread : event.caReads = false ∧ event.brokerReads = false ∧ event.takes = false)
      (queued : router.caRequests.frames = network.broker.router.caRequests.frames ++ more) :
      Calm network event { network with broker := { network.broker with router } }

namespace Going

variable {ρ : Type} {random : CryptoRandom ρ} {network : Network ρ} {event : Event}

theorem calm (going : Going network) (faultFree : network.FaultFree random event) :
    Calm network event (network.step random event) := by
  obtain ⟨connected, phase⟩ := going.intact
  obtain ⟨faultless, allowed, unhindered⟩ := faultFree
  have cad : network.cad = ⟨network.cad.link, .connected⟩ := by
    rw [← phase]
  cases event with
  | caReceives nowSeconds draws written =>
      cases written with
      | some count => cases faultless
      | none =>
          simp only [Network.step, if_pos phase]
          cases next : network.toCa with
          | nil => exact .receivesNone nowSeconds draws next
          | cons frame rest =>
              have enough := unhindered frame (by rw [next]; rfl)
              have received := going.linked.received next nowSeconds allowed.1 allowed.2
                (going.linked.stays allowed.1 enough)
              have stays := going.linked.received_stays going.held received
              have result := Calm.receives nowSeconds draws frame rest _ next received stays
              simpa [Network.caStep, Daemon.step, phase, Round.finish, stays] using result
  | caRetries written =>
      cases written with
      | some count => cases faultless
      | none =>
          simp only [Network.step, Network.caStep, Daemon.step]
          split
          · simp only [Round.finish, LinkState.resend, write_none, if_true, ← cad]
            exact .resends _
          · exact .resends []
  | caReloads candidate =>
      obtain ⟨system, reloaded⟩ := network.cad.link.reload_eq candidate
      simp only [Network.step, Network.caStep, Daemon.step, phase, reloaded, if_true,
        List.append_nil]
      exact .reloads candidate system
  | brokerReceives written =>
      cases written with
      | some count => cases faultless
      | none =>
          simp only [Network.step, if_pos connected]
          cases next : network.toBroker with
          | nil => exact .hearsNone next
          | cons frame rest =>
              have stays := going.stays_open next unhindered
              have result := Calm.hears frame rest _ next (going.linked.heard next) stays
              simpa [Network.brokerRound, stays, connected] using result
  | brokerRetries written =>
      cases written with
      | some count => cases faultless
      | none =>
          simp only [Network.step]
          split
          · have result : Calm network _ _ := .asks network.broker.pending.snapshot
            simpa [Network.brokerRound, CaLink.resend, connected] using result
          · have result : Calm network _ _ := .asks []
            rw [List.append_nil] at result
            exact result
  | brokerTakes draw written =>
      cases written with
      | some count => cases faultless
      | none =>
          cases draw with
          | none => exact absurd allowed id
          | some id =>
              simp only [Network.step, if_pos connected]
              rcases CaLink.takeRequest_cases id going.linked.asked.short with
                ⟨result, blocked⟩ | ⟨request, rest, frame, pending, nothing, _, waiting, kind, named,
                  _, _, entries, result⟩
              · have calm := Calm.takesNone id blocked
                simpa [result, Network.brokerRound, connected] using calm
              · have calm := Calm.takes id request rest frame pending nothing waiting kind entries named
                simpa [result, Network.brokerRound, connected] using calm
  | agentSends identity frame =>
      rcases @Router.routeAgentRequest_cases network.broker.router identity frame with
        ⟨_, result⟩ | ⟨_, _, result⟩
      · simp only [Network.step, result]
        exact .threads _ _ [] ⟨rfl, rfl, rfl⟩ (List.append_nil _).symm
      · simp only [Network.step, result]
        exact .threads _ _ [frame] ⟨rfl, rfl, rfl⟩ rfl
  | otherThreads router =>
      have same := congrArg Channel.frames allowed.2
      exact .threads _ router [] ⟨rfl, rfl, rfl⟩ (by rw [same, List.append_nil])
  | accept written => cases faultless
  | connect written => cases faultless
  | caLeaves => cases faultless
  | brokerLeaves => cases faultless
  | brokerRestarts => cases faultless

end Going

/-! ## What is waited for is in flight -/

/-- The request that the Broker holds travels to the CA, is served there, or its acknowledgement
travels back; likewise for the deliveries that the CA holds. -/
structure InFlight {ρ : Type} (network : Network ρ) : Prop where
  requests : ∀ entry ∈ network.broker.pending.entries,
    (∃ frame ∈ network.toCa, frame.kind = .request ∧ frame.id = entry.1) ∨
      LinkFrame.ack entry.1 ∈ network.toBroker ∨ network.cad.link.currentRequest = some entry.1
  deliveries : ∀ entry ∈ network.cad.link.pendingDeliveries.entries,
    entry.2 ∈ network.toBroker ∨ LinkFrame.ack entry.1 ∈ network.toCa

namespace InFlight

variable {ρ : Type} {network later : Network ρ} {event : Event}

/-- More frames in flight do not matter to what is pending already. -/
theorem of_same (inFlight : InFlight network)
    (broker : later.broker.pending = network.broker.pending)
    (cad : later.cad.link.pendingDeliveries = network.cad.link.pendingDeliveries)
    (current : later.cad.link.currentRequest = network.cad.link.currentRequest)
    (toCa : ∀ frame ∈ network.toCa, frame ∈ later.toCa)
    (toBroker : ∀ frame ∈ network.toBroker, frame ∈ later.toBroker) : InFlight later := by
  constructor
  · intro entry pending
    rw [broker] at pending
    rw [current]
    rcases inFlight.requests entry pending with ⟨frame, sent, same⟩ | answered | served
    · exact .inl ⟨frame, toCa frame sent, same⟩
    · exact .inr (.inl (toBroker _ answered))
    · exact .inr (.inr served)
  · intro entry pending
    rw [cad] at pending
    exact (inFlight.deliveries entry pending).imp (toBroker _) (toCa _)

/-- The CA reads a frame. -/
theorem receives (inFlight : InFlight network) {frame : LinkFrame}
    {rest : List LinkFrame} {draws : List MessageId} {round : Round ρ}
    (next : network.toCa = frame :: rest)
    (received : Linked.Received network frame rest draws round) (stays : round.ending = .stay) :
    InFlight { network with
      cad := ⟨round.state, .connected⟩
      toCa := rest
      toBroker := network.toBroker ++ round.frames
      used := network.used ++ draws } := by
  -- Either the frame read is the one in flight, or that is still to be read.
  have request : ∀ entry ∈ network.broker.pending.entries,
      (frame.kind = .request ∧ frame.id = entry.1) ∨
        (∃ other ∈ rest, other.kind = .request ∧ other.id = entry.1) ∨
          LinkFrame.ack entry.1 ∈ network.toBroker ∨
            network.cad.link.currentRequest = some entry.1 := by
    intro entry pending
    rcases inFlight.requests entry pending with ⟨other, sent, kind, named⟩ | known
    · rw [next] at sent
      rcases List.mem_cons.mp sent with rfl | sent
      · exact .inl ⟨kind, named⟩
      · exact .inr (.inl ⟨other, sent, kind, named⟩)
    · exact .inr (.inr known)
  have delivery : ∀ entry ∈ network.cad.link.pendingDeliveries.entries,
      frame = LinkFrame.ack entry.1 ∨ entry.2 ∈ network.toBroker ∨ LinkFrame.ack entry.1 ∈ rest := by
    intro entry pending
    rcases inFlight.deliveries entry pending with sent | answered
    · exact .inr (.inl sent)
    · rw [next] at answered
      exact (List.mem_cons.mp answered).imp Eq.symm .inr
  cases received with
  | receipt acquired later =>
      have asked : ∀ entry ∈ network.broker.pending.entries,
          (∃ other ∈ rest, other.kind = .request ∧ other.id = entry.1) ∨
            LinkFrame.ack entry.1 ∈ network.toBroker ∨
              network.cad.link.currentRequest = some entry.1 := by
        intro entry pending
        refine (request entry pending).resolve_left fun read => ?_
        rw [acquired.1] at read
        cases read.1
      have owed : ∀ entry ∈ (network.cad.link.pendingDeliveries.acknowledge frame.id).entries,
          entry.2 ∈ network.toBroker ∨ LinkFrame.ack entry.1 ∈ rest := by
        intro entry pending
        rw [PendingFrames.entries_acknowledge, List.mem_filter, decide_eq_true_eq] at pending
        refine (delivery entry pending.1).resolve_left fun read => pending.2 ?_
        rw [read]
        rfl
      rcases @LinkState.onAck_cases _ network.cad.link frame.id with
        ⟨id, current, _, result⟩ | ⟨_, result⟩
      · rw [result]
        refine ⟨fun entry pending => ?_,
          fun entry pending => (owed entry pending).imp_left (List.mem_append_left _)⟩
        rcases asked entry pending with sent | answered | served
        · exact .inl sent
        · exact .inr (.inl (List.mem_append_left _ answered))
        · rw [current] at served
          cases served
          exact .inr (.inl (List.mem_append_right _ List.mem_cons_self))
      · rw [result]
        exact ⟨fun entry pending => (asked entry pending).imp_right
            (.imp_left (List.mem_append_left _)),
          fun entry pending => (owed entry pending).imp_left (List.mem_append_left _)⟩
  | repeated stale current later =>
      refine ⟨fun entry pending => ?_, fun entry pending => ?_⟩
      · rcases request entry pending with ⟨_, named⟩ | known
        · exact .inr (.inr (named ▸ current))
        · exact known.imp_right (.imp_left (List.mem_append_left _))
      · rcases delivery entry pending with read | known
        · rw [read] at stale
          cases stale.1
        · exact known.imp_left (List.mem_append_left _)
  | known stale completed later =>
      refine ⟨fun entry pending => ?_, fun entry pending => ?_⟩
      · rcases request entry pending with ⟨_, named⟩ | known
        · exact .inr (.inl (List.mem_append_right _ (named ▸ List.mem_cons_self)))
        · exact known.imp_right (.imp_left (List.mem_append_left _))
      · rcases delivery entry pending with read | known
        · rw [read] at stale
          cases stale.1
        · exact known.imp_left (List.mem_append_left _)
  | processed _ call fresh idle id payload calls _ ways served later =>
      refine ⟨fun entry pending => ?_, fun entry pending => ?_⟩
      · rcases request entry pending with ⟨_, named⟩ | sent | answered | current
        · rcases ways with ⟨_, acked⟩ | ⟨current, _⟩
          · rw [acked, ← named]
            exact .inr (.inl (List.mem_append_right _ List.mem_cons_self))
          · exact .inr (.inr (named ▸ current))
        · exact .inl sent
        · exact .inr (.inl (List.mem_append_left _ answered))
        · rw [idle] at current
          cases current
      · rcases ways with ⟨none, _⟩ | ⟨current, sent⟩
        · have nothing := served.grouped.nothing_pending none
          rw [nothing] at pending
          cases pending
        · obtain ⟨earlier, last, history, _, _, each⟩ := served.grouped.serves current
          rw [calls] at history
          have same := (List.append_inj' history rfl).2
          simp only [List.cons.injEq, and_true] at same
          rw [sent, same]
          exact .inl (List.mem_append_right _ (each entry pending).2)
  | busy fresh other later => cases stays

/-- The Broker reads a frame. -/
theorem hears (inFlight : InFlight network) (going : Going network) {frame : LinkFrame}
    {rest : List LinkFrame} {round : CaRound} (next : network.toBroker = frame :: rest)
    (heard : Linked.Heard network frame round) (stays : round.closes = false) :
    InFlight { network with
      broker := round.link
      toCa := network.toCa ++ round.frames
      toBroker := rest } := by
  have request : ∀ entry ∈ network.broker.pending.entries,
      frame = LinkFrame.ack entry.1 ∨
        (∃ other ∈ network.toCa, other.kind = .request ∧ other.id = entry.1) ∨
          LinkFrame.ack entry.1 ∈ rest ∨ network.cad.link.currentRequest = some entry.1 := by
    intro entry pending
    rcases inFlight.requests entry pending with sent | answered | current
    · exact .inr (.inl sent)
    · rw [next] at answered
      rcases List.mem_cons.mp answered with read | answered
      · exact .inl read.symm
      · exact .inr (.inr (.inl answered))
    · exact .inr (.inr (.inr current))
  have delivery : ∀ entry ∈ network.cad.link.pendingDeliveries.entries,
      (frame = entry.2 ∧ frame.kind = .delivery ∧ entry.1 = frame.id) ∨
        entry.2 ∈ rest ∨ LinkFrame.ack entry.1 ∈ network.toCa := by
    intro entry pending
    obtain ⟨named, made⟩ := going.linked.served.generated_of_pending pending
    rcases inFlight.deliveries entry pending with sent | answered
    · rw [next] at sent
      rcases List.mem_cons.mp sent with same | sent
      · exact .inl ⟨same.symm, same ▸ going.linked.served.kinds _ made, same ▸ named⟩
      · exact .inr (.inl sent)
    · exact .inr (.inr answered)
  have wider {other : LinkFrame} (member : other ∈ network.toCa) :
      other ∈ network.toCa ++ round.frames := List.mem_append_left _ member
  -- A delivery that is read is acknowledged, and no acknowledgement is.
  have read (kind : frame.kind = .delivery) (pending : round.link.pending = network.broker.pending)
      (sent : LinkFrame.ack frame.id ∈ round.frames) :
      InFlight { network with
        broker := round.link
        toCa := network.toCa ++ round.frames
        toBroker := rest } := by
    refine ⟨fun entry held => ?_, fun entry held => ?_⟩
    · rw [pending] at held
      rcases request entry held with read | ⟨other, member, same⟩ | known
      · rw [read] at kind
        cases kind
      · exact .inl ⟨other, wider member, same⟩
      · exact .inr known
    · rcases delivery entry held with ⟨_, _, named⟩ | later | answered
      · exact .inr (List.mem_append_right _ (named ▸ sent))
      · exact .inl later
      · exact .inr (wider answered)
  cases heard with
  | completes kind done completed =>
      refine ⟨fun entry held => ?_, fun entry held => ?_⟩
      · rw [PendingFrames.entries_acknowledge, List.mem_filter, decide_eq_true_eq] at held
        rcases request entry held.1 with read | ⟨other, member, same⟩ | known
        · rw [read] at held
          exact absurd rfl held.2
        · exact .inl ⟨other, wider member, same⟩
        · exact .inr known
      · rcases delivery entry held with ⟨_, delivered, _⟩ | later | answered
        · rw [kind] at delivered
          cases delivered
        · exact .inl later
        · exact .inr (wider answered)
  | duplicate made known => exact read (going.linked.served.kinds frame made) rfl List.mem_cons_self
  | routes made unknown acquired recorded =>
      exact read (going.linked.served.kinds frame made) rfl List.mem_cons_self
  | rejects made unknown full => cases stays

theorem step (inFlight : InFlight network) (going : Going network)
    (calm : Calm network event later) : InFlight later := by
  have kept {frames sent : List LinkFrame} : ∀ frame ∈ frames, frame ∈ frames ++ sent :=
    fun _ member => List.mem_append_left _ member
  have same {frames : List LinkFrame} : ∀ frame ∈ frames, frame ∈ frames := fun _ member => member
  cases calm with
  | receivesNone => exact inFlight
  | receives nowSeconds draws frame rest round next received stays =>
      exact inFlight.receives next received stays
  | hearsNone => exact inFlight
  | hears frame rest round next heard stays => exact inFlight.hears going next heard stays
  | resends sent => exact inFlight.of_same rfl rfl rfl same kept
  | asks sent => exact inFlight.of_same rfl rfl rfl kept same
  | reloads candidate system => exact inFlight.of_same rfl rfl rfl same same
  | takesNone id blocked => exact inFlight.of_same rfl rfl rfl same same
  | takes id request rest frame pending nothing waiting kind entries named =>
      refine ⟨fun entry held => ?_, fun entry held => ?_⟩
      · simp only [entries, List.mem_singleton] at held
        rw [held]
        exact .inl ⟨frame, List.mem_append_right _ List.mem_cons_self, kind, named⟩
      · exact (inFlight.deliveries entry held).imp_right (kept _)
  | threads event router more unread queued =>
      exact inFlight.of_same rfl rfl rfl same same

end InFlight

/-! ## How the queues and the Broker's request change -/

namespace Calm

variable {ρ : Type} {network later : Network ρ} {event : Event}

theorem toCa (calm : Calm network event later) :
    ∃ back, later.toCa =
      (if event.caReads = true then network.toCa.tail else network.toCa) ++ back := by
  cases calm with
  | receivesNone nowSeconds draws empty => exact ⟨[], by simp [empty]⟩
  | receives nowSeconds draws frame rest round next received stays =>
      exact ⟨[], by simp [Event.caReads, next]⟩
  | hearsNone => exact ⟨[], (List.append_nil _).symm⟩
  | hears frame rest round => exact ⟨round.frames, rfl⟩
  | resends sent => exact ⟨[], (List.append_nil _).symm⟩
  | asks sent => exact ⟨sent, rfl⟩
  | reloads candidate system => exact ⟨[], (List.append_nil _).symm⟩
  | takesNone id blocked => exact ⟨[], (List.append_nil _).symm⟩
  | takes id request rest frame => exact ⟨[frame], rfl⟩
  | threads event router more unread => exact ⟨[], by simp [unread.1]⟩

theorem toBroker (calm : Calm network event later) :
    ∃ back, later.toBroker =
      (if event.brokerReads = true then network.toBroker.tail else network.toBroker) ++ back := by
  cases calm with
  | receivesNone => exact ⟨[], (List.append_nil _).symm⟩
  | receives nowSeconds draws frame rest round => exact ⟨round.frames, rfl⟩
  | hearsNone empty => exact ⟨[], by simp [empty]⟩
  | hears frame rest round next => exact ⟨[], by simp [Event.brokerReads, next]⟩
  | resends sent => exact ⟨sent, rfl⟩
  | asks sent => exact ⟨[], (List.append_nil _).symm⟩
  | reloads candidate system => exact ⟨[], (List.append_nil _).symm⟩
  | takesNone id blocked => exact ⟨[], (List.append_nil _).symm⟩
  | takes id request rest frame => exact ⟨[], (List.append_nil _).symm⟩
  | threads event router more unread => exact ⟨[], by simp [unread.2.1]⟩

theorem heard_channel {frame : LinkFrame} {round : CaRound}
    (heard : Linked.Heard network frame round) : round.link.taken = network.broker.taken ∧
      round.link.router.caDepth = network.broker.router.caDepth ∧
        round.link.router.caRequests = network.broker.router.caRequests := by
  have same := network.broker.router.routeCaDelivery_channel frame.payload
  cases heard with
  | completes => exact ⟨rfl, rfl, rfl⟩
  | duplicate => exact ⟨rfl, rfl, rfl⟩
  | routes => exact ⟨rfl, same⟩
  | rejects => exact ⟨rfl, same⟩

/-- The requests taken and those that wait for it only become more. -/
theorem incoming (calm : Calm network event later) :
    network.broker.taken.map Prod.snd ++ network.broker.router.caRequests.frames <+:
      later.broker.taken.map Prod.snd ++ later.broker.router.caRequests.frames := by
  cases calm with
  | hears frame rest round next heard =>
      obtain ⟨taken, _, channel⟩ := heard_channel heard
      simp only [taken, channel]
      exact List.prefix_refl _
  | takes id request rest frame pending nothing waiting =>
      simp [waiting]
  | threads event router more unread queued =>
      dsimp only
      rw [queued, ← List.append_assoc]
      exact List.prefix_append _ _
  | _ => exact List.prefix_refl _

/-- A request is taken only while none is pending. -/
theorem taken (calm : Calm network event later) : later.broker.taken = network.broker.taken ∨
    network.broker.pending.entries = [] ∧
      ∃ taken, later.broker.taken = network.broker.taken ++ [taken] := by
  cases calm with
  | hears frame rest round next heard => exact .inl (heard_channel heard).1
  | takes id request rest frame pending nothing => exact .inr ⟨nothing, _, rfl⟩
  | _ => exact .inl rfl

/-- What is pending stays so until the Broker reads an acknowledgement. -/
theorem pending (calm : Calm network event later) {entry : MessageId × LinkFrame}
    (pending : network.broker.pending.entries = [entry]) :
    later.broker.pending.entries = [entry] ∨ later.broker.pending.entries = [] := by
  cases calm with
  | hears frame rest round next heard =>
      cases heard with
      | completes kind done completed =>
          by_cases same : entry.1 = frame.id
          · exact .inr (by simp [PendingFrames.entries_acknowledge, pending, same])
          · exact .inl (by simp [PendingFrames.entries_acknowledge, pending, same])
      | _ => exact .inl pending
  | takes id request rest frame after nothing =>
      rw [nothing] at pending
      cases pending
  | _ => exact .inl pending

/-- The Broker takes the request that waits when it looks for one, or goes on waiting for it. -/
theorem idle (calm : Calm network event later) (nothing : network.broker.pending.entries = [])
    (room : 0 < network.broker.pending.maximum)
    (waiting : network.broker.router.caRequests.frames ≠ []) :
    if event.takes = true then ∃ taken, later.broker.taken = network.broker.taken ++ [taken]
    else later.broker.pending.entries = [] ∧ later.broker.router.caRequests.frames ≠ [] := by
  cases calm with
  | hears frame rest round next heard =>
      have channel := (heard_channel heard).2.2
      refine ⟨?_, by simpa [channel] using waiting⟩
      cases heard with
      | completes kind done completed => simp [PendingFrames.entries_acknowledge, nothing]
      | _ => exact nothing
  | takesNone id blocked =>
      rcases blocked with some | none | empty
      · exact absurd nothing some
      · omega
      · exact absurd empty waiting
  | takes id request rest frame pending => exact ⟨_, rfl⟩
  | threads event router more unread queued =>
      rw [if_neg (by simp [unread.2.2])]
      exact ⟨nothing, by simp [queued, waiting]⟩
  | _ => exact ⟨nothing, waiting⟩

/-- A request is served until its last delivery is acknowledged, and then its acknowledgement is
sent. -/
theorem serving (calm : Calm network event later) {id : MessageId}
    (current : network.cad.link.currentRequest = some id) :
    LinkFrame.ack id ∈ later.toBroker ∨ later.cad.link.currentRequest = some id ∧
      later.cad.link.pendingDeliveries.entries.Sublist
        network.cad.link.pendingDeliveries.entries := by
  cases calm with
  | receives nowSeconds draws frame rest round next received stays =>
      cases received with
      | receipt acquired later =>
          rcases @LinkState.onAck_cases _ network.cad.link frame.id with
            ⟨request, same, _, result⟩ | ⟨_, result⟩
          · rw [current] at same
            cases same
            rw [result]
            exact .inl (List.mem_append_right _ List.mem_cons_self)
          · rw [result]
            refine .inr ⟨current, ?_⟩
            rw [PendingFrames.entries_acknowledge]
            exact List.filter_sublist
      | processed _ call fresh idle =>
          rw [idle] at current
          cases current
      | _ => exact .inr ⟨current, List.Sublist.refl _⟩
  | _ => exact .inr ⟨current, List.Sublist.refl _⟩

end Calm

/-! ## Endless sessions -/

/-- The requests that were completed. -/
def finished (broker : CaLink) : List (Option MessageId × Bytes) :=
  if broker.pending.entries = [] then broker.taken else broker.taken.dropLast

theorem finished_front (broker : CaLink) : finished broker <+: broker.taken := by
  unfold finished
  split
  · exact List.prefix_refl _
  · exact List.dropLast_prefix _

/-- Neither party is left alone for ever: with a frame to read, or with a request to take while
none is pending. -/
structure Fair {ρ : Type} (trace : Nat → Network ρ) (events : Nat → Event) : Prop where
  caReads : WeaklyFair (fun time => (trace time).toCa ≠ [])
    (fun time => (events time).caReads = true)
  brokerReads : WeaklyFair (fun time => (trace time).toBroker ≠ [])
    (fun time => (events time).brokerReads = true)
  takes : WeaklyFair
    (fun time => (trace time).broker.pending.entries = [] ∧
      (trace time).broker.router.caRequests.frames ≠ [])
    (fun time => (events time).takes = true)

/-- A session that goes on for ever, and what holds in each of its states. -/
structure Onward {ρ : Type} (trace : Nat → Network ρ) (events : Nat → Event) : Prop where
  going : ∀ time, Going (trace time)
  inFlight : ∀ time, InFlight (trace time)
  calm : ∀ time, Calm (trace time) (events time) (trace (time + 1))
  fair : Fair trace events

namespace Onward

variable {ρ : Type} {trace : Nat → Network ρ} {events : Nat → Event} {start : Nat}

theorem toCa (onward : Onward trace events) :
    Fifo (fun time => (trace time).toCa) (fun time => (events time).caReads = true) where
  serves time reads := by
    obtain ⟨back, queue⟩ := (onward.calm time).toCa
    rw [if_pos reads] at queue
    exact ⟨back, queue⟩
  keeps time unread := by
    obtain ⟨back, queue⟩ := (onward.calm time).toCa
    rw [if_neg unread] at queue
    exact ⟨back, queue⟩
  fair := onward.fair.caReads

theorem toBroker (onward : Onward trace events) :
    Fifo (fun time => (trace time).toBroker) (fun time => (events time).brokerReads = true) where
  serves time reads := by
    obtain ⟨back, queue⟩ := (onward.calm time).toBroker
    rw [if_pos reads] at queue
    exact ⟨back, queue⟩
  keeps time unread := by
    obtain ⟨back, queue⟩ := (onward.calm time).toBroker
    rw [if_neg unread] at queue
    exact ⟨back, queue⟩
  fair := onward.fair.brokerReads

/-- What is on its way to the CA is read there. -/
theorem received (onward : Onward trace events) {frame : LinkFrame}
    (sent : frame ∈ (trace start).toCa) :
    ∃ time rest draws round, start ≤ time ∧
      Linked.Received (trace time) frame rest draws round ∧ round.ending = .stay ∧
      (trace (time + 1)).cad.link = round.state ∧
      (trace (time + 1)).toBroker = (trace time).toBroker ++ round.frames := by
  obtain ⟨time, rest, after, reads, next⟩ := onward.toCa.reaches_front sent
  have calm := onward.calm time
  generalize same : trace (time + 1) = later at calm
  generalize events time = event at calm reads
  cases calm with
  | receivesNone nowSeconds draws empty =>
      rw [empty] at next
      cases next
  | receives nowSeconds draws other more round here received stays =>
      rw [here] at next
      cases next
      exact ⟨time, rest, draws, round, after, received, stays, by rw [same], by rw [same]⟩
  | threads event router more unread =>
      rw [unread.1] at reads
      cases reads
  | _ => cases reads

/-- What is on its way to the Broker is read there. -/
theorem heard (onward : Onward trace events) {frame : LinkFrame}
    (sent : frame ∈ (trace start).toBroker) :
    ∃ time round, start ≤ time ∧ Linked.Heard (trace time) frame round ∧ round.closes = false ∧
      (trace (time + 1)).broker = round.link ∧
      (trace (time + 1)).toCa = (trace time).toCa ++ round.frames := by
  obtain ⟨time, rest, after, reads, next⟩ := onward.toBroker.reaches_front sent
  have calm := onward.calm time
  generalize same : trace (time + 1) = later at calm
  generalize events time = event at calm reads
  cases calm with
  | hearsNone empty =>
      rw [empty] at next
      cases next
  | hears other more round here heard stays =>
      rw [here] at next
      cases next
      exact ⟨time, round, after, heard, stays, by rw [same], by rw [same]⟩
  | threads event router more unread =>
      rw [unread.2.1] at reads
      cases reads
  | _ => cases reads

/-- A delivery that the CA holds is acknowledged. -/
theorem delivered (onward : Onward trace events) {entry : MessageId × LinkFrame}
    (pending : entry ∈ (trace start).cad.link.pendingDeliveries.entries) :
    ∃ time, start ≤ time ∧ entry ∉ (trace time).cad.link.pendingDeliveries.entries := by
  have acknowledged {since : Nat} (sent : LinkFrame.ack entry.1 ∈ (trace since).toCa) :
      ∃ time, since ≤ time ∧ entry ∉ (trace time).cad.link.pendingDeliveries.entries := by
    obtain ⟨time, _, _, _, after, received, _, state, _⟩ := onward.received sent
    refine ⟨time + 1, Nat.le_succ_of_le after, ?_⟩
    rw [state]
    cases received with
    | receipt acquired later =>
        rcases @LinkState.onAck_cases _ (trace time).cad.link entry.1 with
          ⟨_, _, _, result⟩ | ⟨_, result⟩ <;>
        · simp only [LinkFrame.ack, result, PendingFrames.entries_acknowledge, List.mem_filter]
          simp
    | repeated stale => cases stale.1
    | known stale => cases stale.1
    | processed _ call fresh => cases fresh.1.1
    | busy fresh => cases fresh.1.1
  rcases (onward.inFlight start).deliveries entry pending with sent | answered
  · obtain ⟨named, made⟩ := (onward.going start).linked.served.generated_of_pending pending
    obtain ⟨time, round, after, heard, stays, _, toCa⟩ := onward.heard sent
    have answered : LinkFrame.ack entry.1 ∈ (trace (time + 1)).toCa := by
      rw [toCa, named]
      apply List.mem_append_right
      cases heard with
      | completes kind =>
          rw [(onward.going start).linked.served.kinds _ made] at kind
          cases kind
      | duplicate => exact List.mem_cons_self
      | routes => exact List.mem_cons_self
      | rejects => cases stays
    obtain ⟨later, onwards, absent⟩ := acknowledged answered
    exact ⟨later, Nat.le_trans (Nat.le_succ_of_le after) onwards, absent⟩
  · exact acknowledged answered

/-- A request that the CA serves is acknowledged behind its last delivery. -/
theorem served (onward : Onward trace events) {id : MessageId}
    (current : (trace start).cad.link.currentRequest = some id) :
    ∃ time, start ≤ time ∧ LinkFrame.ack id ∈ (trace time).toBroker := by
  by_contra never
  have unanswered (time : Nat) (after : start ≤ time) :
      LinkFrame.ack id ∉ (trace time).toBroker := fun answered => never ⟨time, after, answered⟩
  -- Until then the request stays current and its deliveries become fewer.
  have serving {time : Nat} (after : start ≤ time) :
      (trace time).cad.link.currentRequest = some id := by
    induction after with
    | refl => exact current
    | step after ih =>
        exact (((onward.calm _).serving ih).resolve_left
          (unanswered _ (Nat.le_succ_of_le after))).1
  have fewer {time later : Nat} (after : start ≤ time) (onwards : time ≤ later) :
      (trace later).cad.link.pendingDeliveries.entries.Sublist
        (trace time).cad.link.pendingDeliveries.entries := by
    induction onwards with
    | refl => exact List.Sublist.refl _
    | @step later onwards ih =>
        have since := Nat.le_trans after onwards
        exact (((onward.calm later).serving (serving since)).resolve_left
          (unanswered _ (Nat.le_succ_of_le since))).2.trans ih
  apply never
  refine eventually_of_rank
    (fun time => (trace time).cad.link.pendingDeliveries.entries.length) fun time after => .inr ?_
  have some := (onward.going time).linked.served.grouped.pending_iff.mpr ⟨id, serving after⟩
  obtain ⟨entry, pending⟩ := List.exists_mem_of_ne_nil _ some
  obtain ⟨later, onwards, absent⟩ := onward.delivered pending
  have part := fewer after onwards
  refine ⟨later, onwards, Nat.lt_of_le_of_ne part.length_le fun same => absent ?_⟩
  rw [part.eq_of_length same]
  exact pending

/-- The Broker's request is completed. -/
theorem completed (onward : Onward trace events) (start : Nat) :
    ∃ time, start ≤ time ∧ (trace time).broker.pending.entries = [] := by
  by_contra never
  have waits (time : Nat) (after : start ≤ time) : (trace time).broker.pending.entries ≠ [] :=
    fun nothing => never ⟨time, after, nothing⟩
  rcases (onward.going start).linked.asked.pending with nothing | ⟨asked, entries, _⟩
  · exact waits start le_rfl nothing
  · have same {time : Nat} (after : start ≤ time) :
        (trace time).broker.pending.entries = [(asked.id, asked)] := by
      induction after with
      | refl => exact entries
      | step after ih =>
          exact ((onward.calm _).pending ih).resolve_right (waits _ (Nat.le_succ_of_le after))
    -- The acknowledgement would end the wait.
    have answered {time : Nat} (after : start ≤ time) :
        LinkFrame.ack asked.id ∉ (trace time).toBroker := by
      intro sent
      obtain ⟨later, round, onwards, heard, _, broker, _⟩ := onward.heard sent
      have since := Nat.le_trans after onwards
      cases heard with
      | completes kind done completed =>
          apply waits (later + 1) (Nat.le_succ_of_le since)
          simp [broker, PendingFrames.entries_acknowledge, same since, LinkFrame.ack]
      | duplicate made => cases (onward.going later).linked.served.kinds _ made
      | routes made => cases (onward.going later).linked.served.kinds _ made
      | rejects made => cases (onward.going later).linked.served.kinds _ made
    have idle {time : Nat} (after : start ≤ time) :
        (trace time).cad.link.currentRequest ≠ some asked.id := by
      intro current
      obtain ⟨later, onwards, sent⟩ := onward.served current
      exact answered (Nat.le_trans after onwards) sent
    rcases (onward.inFlight start).requests (asked.id, asked) (by simp [entries]) with
      ⟨frame, sent, kind, named⟩ | sent | current
    · obtain ⟨time, rest, draws, round, after, received, stays, state, toBroker⟩ :=
        onward.received sent
      have later : start ≤ time + 1 := Nat.le_succ_of_le after
      dsimp only at named
      cases received with
      | receipt acquired =>
          rw [acquired.1] at kind
          cases kind
      | repeated stale current => exact idle after (named ▸ current)
      | known =>
          apply answered later
          rw [toBroker, named]
          exact List.mem_append_right _ List.mem_cons_self
      | processed _ call fresh _ _ _ _ _ ways =>
          rcases ways with ⟨_, acked⟩ | ⟨current, _⟩
          · apply answered later
            rw [toBroker, acked, named]
            exact List.mem_append_right _ List.mem_cons_self
          · apply idle later
            rw [state, current, named]
      | busy => cases stays
    · exact answered le_rfl sent
    · exact idle le_rfl current

/-- The request that is pending was taken. -/
theorem finished_shorter (onward : Onward trace events) {time : Nat}
    (waits : (trace time).broker.pending.entries ≠ []) :
    (finished (trace time).broker).length < (trace time).broker.taken.length := by
  rcases (onward.going time).linked.asked.pending with nothing | ⟨_, _, last, _⟩
  · exact absurd nothing waits
  · have some : (trace time).broker.taken ≠ [] := by
      intro empty
      have ended := last.2
      rw [empty] at ended
      cases ended
    have positive := List.length_pos_iff.mpr some
    rw [finished, if_neg waits, List.length_dropLast]
    omega

/-- Every request that was taken is completed. -/
theorem catches_up (onward : Onward trace events) (start : Nat) :
    ∃ time, start ≤ time ∧ finished (trace time).broker = (trace time).broker.taken ∧
      (trace start).broker.taken.length ≤ (trace time).broker.taken.length := by
  have grows {time : Nat} (after : start ≤ time) :
      (trace start).broker.taken.length ≤ (trace time).broker.taken.length := by
    induction after with
    | refl => exact le_rfl
    | step after ih =>
        rcases (onward.calm _).taken with same | ⟨_, _, more⟩
        · rw [same]
          exact ih
        · rw [more, List.length_append]
          omega
  obtain ⟨time, after, nothing⟩ := onward.completed start
  exact ⟨time, after, by rw [finished, if_pos nothing], grows after⟩

/-- The next request is taken when none is pending. -/
theorem takes_next (onward : Onward trace events)
    (room : ∀ time, (trace time).broker.router.caRequests.frames ≠ [] →
      0 < (trace time).broker.pending.maximum)
    (nothing : (trace start).broker.pending.entries = [])
    (waiting : (trace start).broker.router.caRequests.frames ≠ []) :
    ∃ time, start ≤ time ∧
      (trace start).broker.taken.length < (trace time).broker.taken.length := by
  by_contra never
  have untaken {time : Nat} (after : start ≤ time) :
      (trace time).broker.taken.length ≤ (trace start).broker.taken.length :=
    Nat.not_lt.mp fun more => never ⟨time, after, more⟩
  have state {time : Nat} (after : start ≤ time) :
      (trace time).broker.pending.entries = [] ∧
        (trace time).broker.router.caRequests.frames ≠ [] ∧
          (trace time).broker.taken = (trace start).broker.taken := by
    induction after with
    | refl => exact ⟨nothing, waiting, rfl⟩
    | @step time after ih =>
        have taken : (trace (time + 1)).broker.taken = (trace start).broker.taken := by
          rcases (onward.calm time).taken with same | ⟨_, _, more⟩
          · rw [same, ih.2.2]
          · have longer := untaken (Nat.le_succ_of_le after)
            rw [more, ih.2.2, List.length_append, List.length_singleton] at longer
            omega
        have next := (onward.calm time).idle ih.1 (room time ih.2.1) ih.2.1
        split at next
        · obtain ⟨_, more⟩ := next
          rw [taken, ih.2.2] at more
          have longer := congrArg List.length more
          rw [List.length_append, List.length_singleton] at longer
          omega
        · exact ⟨next.1, next.2, taken⟩
  obtain ⟨time, after, takes⟩ :=
    onward.fair.takes start fun time after => ⟨(state after).1, (state after).2.1⟩
  obtain ⟨none, some, _⟩ := state after
  have next := (onward.calm time).idle none (room time some) some
  rw [if_pos takes] at next
  obtain ⟨_, more⟩ := next
  have longer := untaken (Nat.le_succ_of_le after)
  rw [more, (state after).2.2, List.length_append, List.length_singleton] at longer
  omega

/-- Whatever waits for the CA is taken and completed in its turn. -/
theorem works_off (onward : Onward trace events)
    (room : ∀ time, (trace time).broker.router.caRequests.frames ≠ [] →
      0 < (trace time).broker.pending.maximum) (start : Nat) :
    ∃ time, start ≤ time ∧
      (trace start).broker.taken.map Prod.snd ++ (trace start).broker.router.caRequests.frames <+:
        (finished (trace time).broker).map Prod.snd := by
  refine worked_off (fun time => (onward.calm time).incoming)
    (fun time => ((finished_front _).map Prod.snd).trans (List.prefix_append _ _))
    (fun time left => ?_) start
  simp only [List.length_map]
  by_cases nothing : (trace time).broker.pending.entries = []
  · have taken : finished (trace time).broker = (trace time).broker.taken := if_pos nothing
    have waiting : (trace time).broker.router.caRequests.frames ≠ [] := by
      intro empty
      rw [taken, empty, List.append_nil] at left
      exact left rfl
    obtain ⟨middle, after, more⟩ := onward.takes_next room nothing waiting
    obtain ⟨later, onwards, done, all⟩ := onward.catches_up middle
    refine ⟨later, Nat.le_trans after onwards, ?_⟩
    rw [taken, done]
    exact Nat.lt_of_lt_of_le more all
  · obtain ⟨later, onwards, done, all⟩ := onward.catches_up time
    refine ⟨later, onwards, ?_⟩
    rw [done]
    exact Nat.lt_of_lt_of_le (onward.finished_shorter nothing) all

end Onward

/-! ## What the CA made of the completed requests -/

section Runs

variable {ρ : Type} {random : CryptoRandom ρ} {network : Network ρ} {event : Event}

/-- The channel to the CA stays empty where nothing may be pending. -/
def Fed (router : Router) : Prop := router.caDepth = 0 → router.caRequests.frames = []

theorem Fed.step (fed : Fed network.broker.router) (linked : Linked network)
    (allowed : network.Allowed event) : Fed (network.step random event).broker.router := by
  cases event with
  | accept written =>
      simp only [Network.step]
      split <;> exact fed
  | connect written =>
      simp only [Network.step]
      split <;> exact fed
  | caLeaves => exact fed
  | brokerLeaves => exact fed
  | caReceives nowSeconds draws written =>
      simp only [Network.step]
      split
      · cases network.toCa with
        | nil => exact fed
        | cons frame rest => exact fed
      · exact fed
  | caRetries written => exact fed
  | caReloads candidate => exact fed
  | brokerReceives written =>
      simp only [Network.step]
      split
      · cases next : network.toBroker with
        | nil => exact fed
        | cons frame rest =>
            obtain ⟨_, depth, channel⟩ := Calm.heard_channel (linked.heard next)
            simpa only [Network.brokerRound, CaLink.onBytes_encoded, Fed, depth, channel] using fed
      · exact fed
  | brokerRetries written =>
      simp only [Network.step]
      split <;> exact fed
  | brokerTakes draw written =>
      cases draw with
      | none => exact absurd allowed id
      | some id =>
          simp only [Network.step]
          split
          · rcases CaLink.takeRequest_cases id linked.asked.short with ⟨result, _⟩ |
              ⟨_, rest, _, _, _, _, waiting, _, _, _, _, _, result⟩
            · simpa only [Network.brokerRound, result] using fed
            · simp only [Network.brokerRound, result]
              intro zero
              have empty := fed zero
              rw [waiting] at empty
              cases empty
          · exact fed
  | agentSends identity frame =>
      intro zero
      rcases @Router.routeAgentRequest_cases network.broker.router identity frame with
        ⟨_, result⟩ | ⟨envelope, parsed, result⟩
      · simp only [Network.step, result] at zero ⊢
        exact fed zero
      · -- The router accepts nothing for a channel of no depth.
        have depth : network.broker.router.caDepth = 0 := by
          simpa only [Network.step, result] using zero
        have refused : (network.broker.router.routeAgentRequest identity frame).1 ≠ .ok () := by
          intro accepted
          simp only [Router.routeAgentRequest, parsed, depth, if_true] at accepted
          split at accepted
          · cases accepted
          · split at accepted <;> cases accepted
        rw [result] at refused
        exact absurd rfl refused
  | otherThreads router =>
      obtain ⟨same, channel⟩ := allowed
      simpa only [Network.step, Fed, same, channel] using fed
  | brokerRestarts => exact fun _ => rfl

/-- The requests that were completed were processed in their order, once each, and all deliveries
made for them were routed. -/
theorem finished_calls (linked : Linked network)
    (inOrder : InOrder network.cad.link network.broker) :
    ∃ calls, calls <+: network.cad.link.calls ∧
      finished network.broker = calls.map request ∧
      ∀ call ∈ calls, call.frames.map LinkFrame.payload = call.deliveries ∧
        ∀ frame ∈ call.frames, frame ∈ network.broker.routed := by
  have served := linked.served
  -- A call whose request is not the current one owes nothing.
  have settled {calls : List ProcessCall} (front : calls <+: network.cad.link.calls)
      (done : ∀ call ∈ calls, network.cad.link.currentRequest ≠ some call.id) :
      ∀ call ∈ calls, call.frames.map LinkFrame.payload = call.deliveries ∧
        ∀ frame ∈ call.frames, frame ∈ network.broker.routed :=
    fun call member => ⟨served.whole call (front.subset member),
      served.routed_of_completed (front.subset member) (done call member)⟩
  have current (call : ProcessCall) (named : network.cad.link.currentRequest = some call.id) :
      ∃ frame, network.broker.pending.entries = [(call.id, frame)] := inOrder.held call.id named
  unfold finished
  by_cases nothing : network.broker.pending.entries = []
  · rw [if_pos nothing]
    rcases inOrder.order with taken | ⟨frame, entries, _⟩
    · refine ⟨_, List.prefix_refl _, taken, settled (List.prefix_refl _) fun call _ named => ?_⟩
      obtain ⟨frame, entries⟩ := current call named
      rw [nothing] at entries
      cases entries
    · rw [nothing] at entries
      cases entries
  · rw [if_neg nothing]
    rcases inOrder.order with taken | ⟨frame, entries, taken, new⟩
    · have front := List.dropLast_prefix network.cad.link.calls
      refine ⟨_, front, by rw [taken, List.map_dropLast], settled front fun call member named => ?_⟩
      -- The current request is the last one, which is not among the others.
      have once := served.once
      rw [← List.dropLast_append_getLast? _ (served.current call.id named), processed,
        ← List.map_dropLast] at once
      have apart := (List.nodup_append.mp once).2.2
      exact apart call.id (List.mem_map_of_mem member) call.id List.mem_cons_self rfl
    · refine ⟨_, List.prefix_refl _, by rw [taken, List.dropLast_concat],
        settled (List.prefix_refl _) fun call member named => ?_⟩
      obtain ⟨other, same⟩ := current call named
      rw [entries] at same
      simp only [List.cons.injEq, Prod.mk.injEq] at same
      exact new (same.1.1 ▸ List.mem_map_of_mem member)

/-- What is pending is sent again when a session is opened. -/
theorem InFlight.opened (linked : Linked network) (out : network.session = .out)
    (accepting : network.cad.phase = .accepting) : InFlight (network.opened random) := by
  rw [Network.opened_eq out accepting]
  refine ⟨fun entry pending => ?_, fun entry pending => .inl ?_⟩
  · rcases linked.asked.pending with nothing | ⟨frame, entries, last, _⟩
    · dsimp only at pending
      rw [nothing] at pending
      cases pending
    · dsimp only at pending ⊢
      rw [entries, List.mem_singleton] at pending
      rw [pending, PendingFrames.snapshot_eq, entries]
      exact .inl ⟨frame, List.mem_cons_self, last.1, rfl⟩
  · dsimp only
    rw [PendingFrames.snapshot_eq]
    exact List.mem_map_of_mem pending

theorem Going.inOrder (going : Going network) (inOrder : InOrder network.cad.link network.broker)
    (faultFree : network.FaultFree random event) :
    let later := network.step random event
    InOrder later.cad.link later.broker := by
  have alive : (network.step random event).cad.phase ≠ .exited := by
    rw [(going.step faultFree).intact.2]
    nofun
  have unbroken : event.restarts = false := by
    have faultless := faultFree.1
    cases event with
    | brokerRestarts => cases faultless
    | _ => rfl
  exact inOrder.effect going.linked (Network.Proper.effect ⟨alive, faultFree.2.1⟩ unbroken)

variable (random) {events : List Event}

/-- In a session without faults in which neither party is left alone for ever, every request in the
channel to the CA is taken and processed in its turn, and the deliveries made for it are routed. -/
theorem requests_complete (starts : Starts network)
    (lasting : Machine.Along (Network.step random) (Lasting random) network events) :
    let reached := Machine.run (Network.step random) network events
    reached.session = .out → reached.cad.phase = .accepting →
      ∀ later, Machine.Throughout (Network.step random) (Network.FaultFree random)
          (reached.opened random) later →
        let trace := Machine.states (Network.step random) (reached.opened random) later
        Fair trace later → ∀ start, ∃ time, start ≤ time ∧
          ∃ calls, calls <+: (trace time).cad.link.calls ∧
            (trace start).broker.taken.map Prod.snd ++
                (trace start).broker.router.caRequests.frames <+:
              calls.map ProcessCall.payload ∧
            ∀ call ∈ calls, call.frames.map LinkFrame.payload = call.deliveries ∧
              ∀ frame ∈ call.frames, frame ∈ (trace time).broker.routed := by
  intro reached out accepting later throughout trace fair start
  obtain ⟨linked, inOrder⟩ := inOrder_run random starts lasting
  have fed : Fed reached.broker.router := by
    refine (lasting.preserves (fun network => Linked network ∧ Fed network.broker.router)
      (fun _ _ ⟨linked, fed⟩ ⟨fits, _⟩ => ⟨linked.step fits, fed.step linked fits.2⟩)
      ⟨linked_start starts, ?_⟩).2
    rw [starts.initial]
    exact fun _ => rfl
  have initially : (Going (reached.opened random) ∧
      InOrder (reached.opened random).cad.link (reached.opened random).broker) ∧
        InFlight (reached.opened random) ∧ Fed (reached.opened random).broker.router := by
    refine ⟨⟨linked.opened_going out accepting inOrder.held, ?_⟩,
      InFlight.opened linked out accepting, ?_⟩
    · rw [Network.opened_eq out accepting]
      exact inOrder
    · rw [Network.opened_eq out accepting]
      exact fed
  have state (time : Nat) := throughout.preserves (fun network =>
      (Going network ∧ InOrder network.cad.link network.broker) ∧ InFlight network ∧
        Fed network.broker.router)
    (fun _ _ ⟨⟨going, inOrder⟩, inFlight, fed⟩ faultFree =>
      ⟨⟨going.step faultFree, going.inOrder inOrder faultFree⟩,
        inFlight.step going (going.calm faultFree), fed.step going.linked faultFree.2.1⟩)
    initially time
  have onward : Onward trace later :=
    ⟨fun time => (state time).1.1, fun time => (state time).2.1,
      fun time => (state time).1.1.calm (throughout time), fair⟩
  have room (time : Nat) (waiting : (trace time).broker.router.caRequests.frames ≠ []) :
      0 < (trace time).broker.pending.maximum := by
    have asked := (state time).1.1.linked.asked
    rw [asked.depth, ← asked.channel.1]
    exact Nat.pos_of_ne_zero fun zero => waiting ((state time).2.2 zero)
  obtain ⟨time, after, worked⟩ := onward.works_off room start
  obtain ⟨calls, front, finished, each⟩ := finished_calls (state time).1.1.linked (state time).1.2
  rw [finished, List.map_map] at worked
  exact ⟨time, after, calls, front, worked, each⟩

end Runs

/-! ## A session that comes to rest -/

/-- A tick of the retry timer changes nothing while nothing is pending. -/
theorem Network.rests {ρ : Type} {random : CryptoRandom ρ} {network : Network ρ}
    (nothing : network.cad.link.pendingDeliveries.isEmpty = true) :
    network.step random (.caRetries none) = network := by
  simp [Network.step, Network.caStep, Daemon.step, nothing]

theorem Fair.of_rest {ρ : Type} {trace : Nat → Network ρ} {events : Nat → Event}
    {network : Network ρ} {limit : Nat} (rests : ∀ time, limit ≤ time → trace time = network)
    (toCa : network.toCa.length = 0) (toBroker : network.toBroker.length = 0)
    (channel : network.broker.router.caRequests.frames.length = 0) : Fair trace events := by
  have never {possible done : Nat → Prop} (ended : ∀ time, limit ≤ time → ¬ possible time) :
      WeaklyFair possible done := fun start always =>
    absurd (always (max start limit) (Nat.le_max_left _ _)) (ended _ (Nat.le_max_right _ _))
  refine ⟨never fun time after some => ?_, never fun time after some => ?_,
    never fun time after ready => ?_⟩
  · rw [rests time after] at some
    exact some (List.length_eq_zero_iff.mp toCa)
  · rw [rests time after] at some
    exact some (List.length_eq_zero_iff.mp toBroker)
  · rw [rests time after] at ready
    exact ready.2 (List.length_eq_zero_iff.mp channel)

namespace Sample

/-- The rest of the session that delivers the sample publication. -/
def delivered : List Event :=
  ([1, 2, 3, 4, 5].map (fun number => exchange number [] ++ [.brokerReceives none])).flatten ++
    exchange 6 [Cad.Sample.id 11, Cad.Sample.id 12] ++
    [.brokerReceives none, .brokerReceives none, .caReceives 10 [] none, .caReceives 10 [] none,
      .brokerReceives none]

end Sample

/-- The sample requests are completed in a session that goes on for ever. -/
theorem sample_requests_complete : ∃ daemon, Cad.Sample.started = .ok daemon ∧
    let reached := Machine.run (Network.step .counting) (Sample.network daemon) Sample.agents
    let trace := Machine.states (Network.step .counting) (reached.opened .counting)
      (Machine.padded Sample.delivered (.caRetries none))
    ∃ time calls, calls <+: (trace time).cad.link.calls ∧
      (trace 0).broker.taken.map Prod.snd ++ (trace 0).broker.router.caRequests.frames <+:
        calls.map ProcessCall.payload := by
  obtain ⟨daemon, started, evaluated⟩ := @Cad.Sample.exists_started (fun daemon =>
    let reached := Machine.run (Network.step .counting) (Sample.network daemon) Sample.agents
    let ended := Machine.run (Network.step .counting) (reached.opened .counting) Sample.delivered
    decide ((Machine.Along (Network.step .counting) (Lasting .counting) (Sample.network daemon)
        Sample.agents ∧ reached.session = .out ∧ reached.cad.phase = .accepting) ∧
      Machine.Along (Network.step .counting) (Network.FaultFree .counting)
        (reached.opened .counting) Sample.delivered ∧
      ended.toCa.length = 0 ∧ ended.toBroker.length = 0 ∧
        ended.broker.router.caRequests.frames.length = 0 ∧
        ended.cad.link.pendingDeliveries.isEmpty = true)) (by decide +kernel)
  obtain ⟨⟨lasting, out, accepting⟩, along, toCa, toBroker, channel, nothing⟩ :=
    of_decide_eq_true evaluated
  obtain ⟨throughout, rests⟩ := Machine.throughout_padded along
    (Network.rests nothing) ⟨rfl, trivial, trivial⟩
  obtain ⟨time, _, calls, front, asked, _⟩ := requests_complete .counting (Sample.starts started)
    lasting out accepting _ throughout (.of_rest rests toCa toBroker channel) 0
  exact ⟨daemon, started, time, calls, front, asked⟩

end SecurePubSub.BrokerCa
