import SecurePubSub.BrokerCa.Ordering
import SecurePubSub.BrokerCa.Progress
import SecurePubSub.Broker.Deliveries

namespace SecurePubSub.BrokerCa

open SecurePubSub.Data SecurePubSub.Protocol SecurePubSub.Authority SecurePubSub.Link
  SecurePubSub.Broker SecurePubSub.Cad

/-! The Broker between its Agents and the CA.

The tasks that serve the Agents' sockets and the one that serves the link share the
router. What an Agent sends reaches the CA through the channel of requests, and what
the CA makes for it reaches it through its line in the router.
-/

/-- The payloads of the frames that are for an Agent. -/
def payloadsFor (agent : AgentId) (frames : List LinkFrame) : List Bytes :=
  (frames.map LinkFrame.payload).filter
    (fun payload => decide (Router.deliveryRecipient payload = .ok agent))

/-- Both parties of the link and the sessions of the Agents, with what was handed out to each Agent
and the requests accepted from them. -/
structure Deployment (ρ : Type) where
  network : Network ρ
  sessions : List Broker.Session
  handedOut : AgentId → List Bytes
  requests : List (AgentId × Bytes)

/-- What happens on the link, what an Agent's session does with the router, or a request that it
reads from its socket. -/
inductive Happening where
  | link (event : Event)
  | session (operation : Broker.Operation)
  | request (place : Nat) (frame : Bytes)

/-- Neither what sessions do nor a restart. -/
def Event.ofLink : Event → Bool
  | .agentSends _ _ | .otherThreads _ | .brokerRestarts => false
  | _ => true

/-- What a session does by itself: deliveries are routed by the link. -/
def ofSession : Broker.Operation → Bool
  | .route _ => false
  | _ => true

namespace Deployment

variable {ρ : Type} (random : CryptoRandom ρ) (deployment : Deployment ρ)

def start (network : Network ρ) : Deployment ρ := ⟨network, [], fun _ => [], []⟩

/-- The Broker as its sessions see it. -/
def brokerd : Brokerd where
  router := deployment.network.broker.router
  sessions := deployment.sessions
  accepted agent := payloadsFor agent deployment.network.broker.routed
  handedOut := deployment.handedOut

def step : Happening → Deployment ρ
  | .link event => { deployment with network := deployment.network.step random event }
  | .session operation =>
      let later := deployment.brokerd.step operation
      { deployment with
        network := deployment.network.step random (.otherThreads later.router)
        sessions := later.sessions
        handedOut := later.handedOut }
  | .request place frame =>
      match deployment.brokerd.active place with
      | none => deployment
      | some session =>
          let identity := session.registration.identity
          let answer := deployment.network.broker.router.routeAgentRequest identity frame
          { deployment with
            network := deployment.network.step random (.agentSends identity frame)
            requests := deployment.requests ++
              if answer.1 = .ok () then [(identity, frame)] else [] }

/-- Both processes go on, and each part does what is its own. -/
def Fits (happening : Happening) : Prop :=
  (deployment.step random happening).network.cad.phase ≠ .exited ∧
    match happening with
    | .link event => event.ofLink = true ∧ deployment.network.Allowed event
    | .session operation => ofSession operation = true
    | .request _ _ => True

/-- A session of the Agent that disconnects finds room for what it holds. -/
def Requeues (agent : AgentId) (deployment : Deployment ρ) : Happening → Prop
  | .session operation => Brokerd.RoomToRequeue agent deployment.brokerd operation
  | _ => True

instance : ∀ happening, Decidable (deployment.Fits random happening)
  | .link _ => inferInstanceAs (Decidable (_ ∧ _ ∧ _))
  | .session _ => inferInstanceAs (Decidable (_ ∧ _))
  | .request _ _ => inferInstanceAs (Decidable (_ ∧ True))

instance (agent : AgentId) : ∀ happening, Decidable (Requeues agent deployment happening)
  | .session (.disconnect place writeFailed) =>
      inferInstanceAs (Decidable (∀ session ∈ deployment.brokerd.active place,
        session.registration.identity = agent →
        (session.undelivered writeFailed).toList.length + session.registration.pending.length +
            (deployment.brokerd.router.channel place).frames.length +
            (deployment.brokerd.router.offline.queue agent).length ≤
          deployment.brokerd.router.offline.depth))
  | .link _ | .request _ _ | .session (.register _) | .session (.route _) | .session (.receive _)
  | .session (.drop _) => .isTrue trivial

end Deployment

/-! ## The channel of requests -/

section Channel

variable {ρ : Type} {random : CryptoRandom ρ} {network : Network ρ} {event : Event}

/-- What the Broker took from the channel and what is left in it. -/
def incoming (broker : CaLink) : List Bytes :=
  broker.taken.map Prod.snd ++ broker.router.caRequests.frames

/-- What reading a frame does to the router. -/
theorem onFrame_router (link : CaLink) (frame : LinkFrame) :
    ((link.onFrame frame).link.router = link.router ∧
      (link.onFrame frame).link.routed = link.routed) ∨
    ((link.onFrame frame).link.router = (link.router.routeCaDelivery frame.payload).2 ∧
      (link.onFrame frame).link.routed = link.routed ++
        if (link.router.routeCaDelivery frame.payload).1 = .ok () then [frame] else []) := by
  unfold CaLink.onFrame
  split
  · exact .inl ⟨rfl, rfl⟩
  · unfold CaLink.onDelivery
    split
    · exact .inl ⟨rfl, rfl⟩
    · refine .inr ?_
      dsimp only
      cases (link.router.routeCaDelivery frame.payload).1 with
      | error fault => exact ⟨rfl, (List.append_nil _).symm⟩
      | ok accepted =>
          cases link.acquiredDeliveries.insert frame.id with
          | error fault => exact ⟨rfl, rfl⟩
          | ok acquired => exact ⟨rfl, rfl⟩
  · exact .inl ⟨rfl, rfl⟩

/-- What an event of the link does to the router: a request is taken from its channel, or a
delivery is routed. -/
inductive Feeding (broker later : CaLink) : Prop where
  | taken (frames : List Bytes) (incoming : incoming later = incoming broker)
      (routed : later.routed = broker.routed)
      (router : later.router =
        { broker.router with caRequests := { broker.router.caRequests with frames } })
  | delivers (frame : LinkFrame) (incoming : incoming later = incoming broker)
      (router : later.router = (broker.router.routeCaDelivery frame.payload).2)
      (routed : later.routed = broker.routed ++
        if (broker.router.routeCaDelivery frame.payload).1 = .ok () then [frame] else [])

theorem Feeding.refl (broker : CaLink) : Feeding broker broker := .taken _ rfl rfl rfl

theorem feeding_step (linked : Linked network) (allowed : network.Allowed event)
    (ofLink : event.ofLink = true) :
    Feeding network.broker (network.step random event).broker := by
  cases event with
  | accept written =>
      simp only [Network.step]
      split <;> exact .refl _
  | connect written =>
      simp only [Network.step]
      split <;> exact .refl _
  | caLeaves => exact .refl _
  | brokerLeaves => exact .refl _
  | caReceives nowSeconds draws written =>
      simp only [Network.step]
      split
      · cases network.toCa with
        | nil => exact .refl _
        | cons frame rest => exact .refl _
      · exact .refl _
  | caRetries written => exact .refl _
  | caReloads candidate => exact .refl _
  | brokerReceives written =>
      simp only [Network.step]
      split
      · cases next : network.toBroker with
        | nil => exact .refl _
        | cons frame rest =>
            obtain ⟨taken, _, channel⟩ := Calm.heard_channel (linked.heard next)
            have same : incoming (network.broker.onFrame frame).link = incoming network.broker := by
              simp only [incoming, taken, channel]
            simp only [Network.brokerRound, CaLink.onBytes_encoded]
            rcases onFrame_router network.broker frame with ⟨router, routed⟩ | ⟨router, routed⟩
            · exact .taken _ same routed router
            · exact .delivers frame same router routed
      · exact .refl _
  | brokerRetries written =>
      simp only [Network.step]
      split <;> exact .refl _
  | brokerTakes draw written =>
      cases draw with
      | none => exact absurd allowed id
      | some id =>
          simp only [Network.step]
          split
          · rcases CaLink.takeRequest_cases id linked.asked.short with ⟨result, _⟩ |
              ⟨request, rest, _, _, _, _, waiting, _, _, _, _, _, result⟩
            · simp only [Network.brokerRound, result]
              exact .refl _
            · simp only [Network.brokerRound, result]
              exact .taken rest (by simp [incoming, waiting]) rfl rfl
          · exact .refl _
  | agentSends identity frame => cases ofLink
  | otherThreads router => cases ofLink
  | brokerRestarts => cases ofLink

end Channel

/-! ## One happening -/

namespace Deployment

variable {ρ : Type} {random : CryptoRandom ρ} {deployment : Deployment ρ}

/-- What holds between the Agents and the CA. -/
structure Sound (deployment : Deployment ρ) : Prop where
  steady : Steady deployment.network
  consistent : deployment.brokerd.Consistent
  ordered : ∀ agent, (deployment.brokerd.line agent).Ordered
  incoming : incoming deployment.network.broker = deployment.requests.map Prod.snd
  senders : ∀ sent ∈ deployment.requests, ∃ envelope, parseEnvelope sent.2 = .ok envelope ∧
    envelope.sender = sent.1 ∧ envelope.sender ≠ .ca ∧ envelope.recipient = .ca

theorem payloadsFor_append (agent : AgentId) (front back : List LinkFrame) :
    payloadsFor agent (front ++ back) = payloadsFor agent front ++ payloadsFor agent back := by
  simp [payloadsFor]

/-- The Broker accepts a delivery that it routes for the recipient that the delivery names. -/
theorem acceptedFor_eq (broker : Brokerd) (frame : Bytes) :
    broker.acceptedFor frame =
      if (broker.router.routeCaDelivery frame).1 = .ok () then
        (Router.deliveryRecipient frame).toOption
      else none := by
  unfold Brokerd.acceptedFor
  split
  · rename_i routed parsed
    rw [routed, parsed, if_pos rfl]
    rfl
  · rename_i refused
    split
    · rename_i routed
      obtain ⟨recipient, parsed, _⟩ := Router.routeCaDelivery_eq_ok.mp routed
      exact (refused recipient routed parsed).elim
    · rfl

/-- A delivery that the link routes is one that the router's sessions see routed. -/
theorem brokerd_delivers {later : Deployment ρ} {frame : LinkFrame}
    (router : later.network.broker.router =
      (deployment.network.broker.router.routeCaDelivery frame.payload).2)
    (routed : later.network.broker.routed = deployment.network.broker.routed ++
      if (deployment.network.broker.router.routeCaDelivery frame.payload).1 = .ok () then [frame]
      else [])
    (sessions : later.sessions = deployment.sessions)
    (handedOut : later.handedOut = deployment.handedOut) :
    later.brokerd = deployment.brokerd.step (.route frame.payload) := by
  have accepted (agent : AgentId) :
      payloadsFor agent later.network.broker.routed =
        payloadsFor agent deployment.network.broker.routed ++
          if deployment.brokerd.acceptedFor frame.payload = some agent then [frame.payload]
          else [] := by
    rw [routed, payloadsFor_append, acceptedFor_eq]
    congr 1
    dsimp only [brokerd]
    by_cases answer : (deployment.network.broker.router.routeCaDelivery frame.payload).1 = .ok ()
    · obtain ⟨recipient, parsed, _⟩ := Router.routeCaDelivery_eq_ok.mp answer
      by_cases same : recipient = agent
      · simp [payloadsFor, answer, parsed, same, Except.toOption]
      · simp [payloadsFor, answer, parsed, same, Except.toOption]
    · simp [payloadsFor, answer]
  simp only [brokerd, Brokerd.step, router, sessions, handedOut, Brokerd.mk.injEq, true_and,
    and_true]
  funext agent
  exact accepted agent

/-- Requests in the channel to the CA do not matter to the sessions. -/
theorem brokerd_of_channel (later : Deployment ρ) {channel : Channel}
    (router : later.network.broker.router =
      { deployment.network.broker.router with caRequests := channel })
    (routed : later.network.broker.routed = deployment.network.broker.routed)
    (sessions : later.sessions = deployment.sessions)
    (handedOut : later.handedOut = deployment.handedOut) :
    later.brokerd = { deployment.brokerd with
      router := { deployment.brokerd.router with caRequests := channel } } := by
  simp only [brokerd, router, routed, sessions, handedOut]

theorem line_of_channel (later : Deployment ρ) {channel : Channel}
    (router : later.network.broker.router =
      { deployment.network.broker.router with caRequests := channel })
    (routed : later.network.broker.routed = deployment.network.broker.routed)
    (sessions : later.sessions = deployment.sessions)
    (handedOut : later.handedOut = deployment.handedOut) (agent : AgentId) :
    later.brokerd.line agent = deployment.brokerd.line agent := by
  rw [brokerd_of_channel later router routed sessions handedOut]
  rfl

theorem Sound.of_channel (sound : deployment.Sound) (later : Deployment ρ) {channel : Channel}
    (router : later.network.broker.router =
      { deployment.network.broker.router with caRequests := channel })
    (routed : later.network.broker.routed = deployment.network.broker.routed)
    (sessions : later.sessions = deployment.sessions)
    (handedOut : later.handedOut = deployment.handedOut) :
    later.brokerd.Consistent ∧ ∀ agent, (later.brokerd.line agent).Ordered := by
  refine ⟨?_, fun agent => ?_⟩
  · rw [brokerd_of_channel later router routed sessions handedOut]
    exact sound.consistent.of_contents rfl rfl rfl rfl (fun _ => rfl) (fun _ _ _ none => none)
  · rw [line_of_channel later router routed sessions handedOut]
    exact sound.ordered agent

theorem lasting_of_link {network : Network ρ} {event : Event} (ofLink : event.ofLink = true)
    (alive : (network.step random event).cad.phase ≠ .exited) (allowed : network.Allowed event) :
    Lasting random network event := by
  refine ⟨⟨alive, allowed⟩, ?_⟩
  cases event with
  | brokerRestarts => cases ofLink
  | _ => rfl

theorem own_of_session {operation : Broker.Operation} (session : ofSession operation = true)
    (frame : Bytes) : operation ≠ .route frame := by
  rintro rfl
  cases session

theorem brokerd_session (consistent : deployment.brokerd.Consistent) {operation : Broker.Operation}
    (session : ofSession operation = true) :
    (deployment.step random (.session operation)).brokerd = deployment.brokerd.step operation := by
  have accepted := (consistent.own_step (own_of_session session)).1
  change Brokerd.mk _ _ deployment.brokerd.accepted _ = _
  rw [← accepted]
  rfl

/-- A request of an Agent is put at the end of the channel to the CA. -/
structure Puts (random : CryptoRandom ρ) (deployment later : Deployment ρ) (identity : AgentId)
    (frame : Bytes) : Prop where
  checked : ∃ envelope, parseEnvelope frame = .ok envelope ∧ envelope.sender = identity ∧
    envelope.sender ≠ .ca ∧ envelope.recipient = .ca
  network : later.network = deployment.network.step random (.agentSends identity frame)
  router : later.network.broker.router = { deployment.network.broker.router with
    caRequests := { deployment.network.broker.router.caRequests with
      frames := deployment.network.broker.router.caRequests.frames ++ [frame] } }
  taken : later.network.broker.taken = deployment.network.broker.taken
  routed : later.network.broker.routed = deployment.network.broker.routed
  sessions : later.sessions = deployment.sessions
  handedOut : later.handedOut = deployment.handedOut
  requests : later.requests = deployment.requests ++ [(identity, frame)]

theorem step_request_cases (place : Nat) (frame : Bytes) :
    deployment.step random (.request place frame) = deployment ∨
    ∃ identity, Puts random deployment (deployment.step random (.request place frame)) identity
      frame := by
  cases found : deployment.brokerd.active place with
  | none => exact .inl (by simp [step, found])
  | some session =>
      rcases deployment.network.broker.router.routeAgentRequest_cases
          session.registration.identity frame with
        ⟨fault, refused⟩ | ⟨_, _, accepted⟩
      · exact .inl (by simp [step, found, refused, Network.step])
      · have checked := Router.routeAgentRequest_checked (congrArg Prod.fst accepted)
        refine .inr ⟨_, checked, ?_, ?_, ?_, ?_, ?_, ?_, ?_⟩ <;>
          simp [step, found, accepted, Network.step]

theorem Sound.step (sound : deployment.Sound) {happening : Happening}
    (fits : deployment.Fits random happening) : (deployment.step random happening).Sound := by
  obtain ⟨alive, own⟩ := fits
  cases happening with
  | link event =>
      obtain ⟨ofLink, allowed⟩ := own
      have steady := sound.steady.step (lasting_of_link ofLink alive allowed)
      have feeding : Feeding _ (deployment.step random (.link event)).network.broker :=
        feeding_step sound.steady.linked allowed ofLink
      cases feeding with
      | taken frames channel routed router =>
          have ⟨consistent, ordered⟩ := sound.of_channel _ router routed rfl rfl
          exact ⟨steady, consistent, ordered, channel.trans sound.incoming, sound.senders⟩
      | delivers frame channel router routed =>
          have delivered := brokerd_delivers router routed rfl rfl
          refine ⟨steady, ?_, fun agent => ?_, channel.trans sound.incoming, sound.senders⟩
          · rw [delivered]
            exact sound.consistent.step _
          · rw [delivered]
            exact sound.consistent.ordered_step (sound.ordered agent) _
  | session operation =>
      obtain ⟨_, depth, channel⟩ := sound.consistent.own_step (own_of_session own)
      have lasting : Lasting random deployment.network
          (.otherThreads (deployment.brokerd.step operation).router) :=
        ⟨⟨alive, depth, channel⟩, rfl⟩
      have stepped : (deployment.step random (.session operation)).brokerd = _ :=
        brokerd_session sound.consistent own
      refine ⟨sound.steady.step lasting, ?_, fun agent => ?_, ?_, sound.senders⟩
      · rw [stepped]
        exact sound.consistent.step operation
      · rw [stepped]
        exact sound.consistent.ordered_step (sound.ordered agent) operation
      · have frames := congrArg Channel.frames channel
        exact (congrArg (deployment.network.broker.taken.map Prod.snd ++ ·) frames).trans
          sound.incoming
  | request place frame =>
      rcases @step_request_cases _ random deployment place frame with same | ⟨identity, puts⟩
      · rw [same]
        exact sound
      · rw [puts.network] at alive
        have steady := sound.steady.step ⟨⟨alive, trivial⟩, rfl⟩
        rw [← puts.network] at steady
        have ⟨consistent, ordered⟩ :=
          sound.of_channel _ puts.router puts.routed puts.sessions puts.handedOut
        refine ⟨steady, consistent, ordered, ?_, fun sent member => ?_⟩
        · rw [puts.requests, List.map_append, ← sound.incoming]
          simp [BrokerCa.incoming, puts.taken, puts.router]
        · rw [puts.requests] at member
          rcases List.mem_append.mp member with old | new
          · exact sound.senders sent old
          · rw [List.mem_singleton.mp new]
            exact puts.checked

/-- The line of an Agent is cut by none but a disconnection without room. -/
theorem Sound.missing_step (sound : deployment.Sound) {happening : Happening}
    (fits : deployment.Fits random happening) (agent : AgentId) :
    ((deployment.step random happening).brokerd.line agent).missing = 0 ↔
      (deployment.brokerd.line agent).missing = 0 ∧ Requeues agent deployment happening := by
  obtain ⟨_, own⟩ := fits
  cases happening with
  | link event =>
      obtain ⟨ofLink, allowed⟩ := own
      have feeding : Feeding _ (deployment.step random (.link event)).network.broker :=
        feeding_step sound.steady.linked allowed ofLink
      cases feeding with
      | taken frames channel routed router =>
          rw [line_of_channel _ router routed rfl rfl]
          exact (and_iff_left trivial).symm
      | delivers frame channel router routed =>
          rw [brokerd_delivers router routed rfl rfl]
          exact sound.consistent.missing_step (sound.ordered agent) (.route frame.payload)
  | session operation =>
      rw [brokerd_session sound.consistent own]
      exact sound.consistent.missing_step (sound.ordered agent) operation
  | request place frame =>
      rcases @step_request_cases _ random deployment place frame with same | ⟨identity, puts⟩
      · rw [same]
        exact (and_iff_left trivial).symm
      · rw [line_of_channel _ puts.router puts.routed puts.sessions puts.handedOut]
        exact (and_iff_left trivial).symm

theorem brokerd_start {network : Network ρ} (starts : Starts network) :
    (start network).brokerd = .start network.config.maxConnections network.config.onlineQueueDepth
      network.config.offlineQueueDepth network.config.caQueueDepth := by
  have initial := starts.initial
  have broker : network.broker = network.config.start [] [] := by
    rw [initial]
    rfl
  simp only [start, brokerd, broker, Brokerd.start]
  rfl

theorem sound_start {network : Network ρ} (starts : Starts network) :
    (start network).Sound := by
  have initial := starts.initial
  refine ⟨steady_start starts, ?_, fun agent => ?_, ?_, List.forall_mem_nil _⟩
  · rw [brokerd_start starts]
    exact .start _ _ _ _
  · rw [brokerd_start starts, Brokerd.line_start]
    exact .start
  · rw [initial]
    rfl

theorem missing_run (sound : deployment.Sound) {happenings : List Happening}
    (fits : Machine.Along (Deployment.step random) (Deployment.Fits random) deployment happenings)
    (agent : AgentId) :
    ((Machine.run (Deployment.step random) deployment happenings).brokerd.line agent).missing = 0 ↔
      (deployment.brokerd.line agent).missing = 0 ∧
        Machine.Along (Deployment.step random) (Deployment.Requeues agent) deployment
          happenings := by
  induction happenings generalizing deployment with
  | nil => simp [Machine.Along]
  | cons first rest ih =>
      obtain ⟨here, later⟩ := fits
      rw [Machine.run_cons, ih (sound.step here) later, sound.missing_step here]
      simp [Machine.Along, and_assoc]

end Deployment

/-! ## Runs -/

section Runs

variable {ρ : Type} (random : CryptoRandom ρ) {network : Network ρ} {happenings : List Happening}

end Runs

/-! ## Two deliveries for Agents that connected -/

namespace Sample

/-- The CA serves the sample requests and the Broker reads both deliveries. -/
def exchanges : List Event :=
  session ++
    ([1, 2, 3, 4, 5].map (fun number => exchange number [] ++ [.brokerReceives none])).flatten ++
    exchange 6 [Cad.Sample.id 11, Cad.Sample.id 12] ++ [.brokerReceives none, .brokerReceives none]

/-- The Agents connect and ask, and the CA serves them. -/
def served : List Happening :=
  [1, 2, 3].map (fun number => .session (.register (Authority.Sample.agent number).id)) ++
    (List.zip [0, 1, 2, 1, 2, 0] Cad.Sample.requests).map
      (fun (place, frame) => .request place frame) ++
    exchanges.map .link

/-- A session fails to write what it was handed. -/
def returned : List Happening := [.session (.receive 1), .session (.disconnect 1 true)]

/-- The CA reads that its deliveries were acknowledged. -/
def acknowledged : List Happening :=
  [.link (.caReceives 10 [] none), .link (.caReceives 10 [] none)]

end Sample

end SecurePubSub.BrokerCa
