import SecurePubSub.Broker.CaLink
import SecurePubSub.Cad.DeliveryGroups

namespace SecurePubSub.BrokerCa

open SecurePubSub.Data SecurePubSub.Protocol SecurePubSub.Authority SecurePubSub.Link
  SecurePubSub.Broker SecurePubSub.Cad

/-! The Broker and the CA as two parties of their link.

A connection is a FIFO in each direction. Either end may leave it at any time and
the other may go on reading what is in flight; what it does not read is lost when
the CA accepts the next connection, for which the Broker must have left this one.
-/

/-- The part of the Broker's configuration that bounds its router and its link. -/
structure BrokerConfig where
  maxConnections : Nat
  onlineQueueDepth : Nat
  offlineQueueDepth : Nat
  caQueueDepth : Nat
  caDedupDepth : Nat

def BrokerConfig.start (config : BrokerConfig) (taken : List (Option MessageId × Bytes))
    (routed : List LinkFrame) : CaLink where
  router := .withLimits config.maxConnections config.onlineQueueDepth config.offlineQueueDepth
    config.caQueueDepth
  pending := .new config.caQueueDepth
  acquiredDeliveries := .new config.caDedupDepth
  taken
  routed

/-- Where the Broker is: without a connection, waiting to be accepted, or in a session. -/
inductive Session where
  | out
  | waiting
  | connected
deriving DecidableEq

/-- Both parties, the frames in flight and the ids drawn so far. -/
structure Network (ρ : Type) where
  config : BrokerConfig
  cad : Daemon ρ
  broker : CaLink
  session : Session
  toCa : List LinkFrame
  toBroker : List LinkFrame
  used : List MessageId

/-- What can happen next; `written` counts the frames written before a write fails. -/
inductive Event where
  | accept (written : Option Nat)
  | connect (written : Option Nat)
  | caLeaves
  | brokerLeaves
  | caReceives (nowSeconds : UInt64) (draws : List MessageId) (written : Option Nat)
  | caRetries (written : Option Nat)
  | caReloads (candidate : Option (EnvironmentPolicy × List (AgentId × PublicKeys)))
  | brokerReceives (written : Option Nat)
  | brokerRetries (written : Option Nat)
  | brokerTakes (draw : Option MessageId) (written : Option Nat)
  | agentSends (identity : AgentId) (frame : Bytes)
  | otherThreads (router : Router)
  | brokerRestarts

def Event.restarts : Event → Bool
  | .brokerRestarts => true
  | _ => false

namespace Network

variable {ρ : Type} (random : CryptoRandom ρ) (network : Network ρ)

def start (config : BrokerConfig) (cad : Daemon ρ) : Network ρ :=
  ⟨config, cad, config.start [] [], .out, [], [], []⟩

def caStep (input : Input) : Network ρ :=
  let answer := network.cad.step random input
  { network with cad := answer.1, toBroker := network.toBroker ++ answer.2 }

def brokerRound (round : CaRound) (written : Option Nat) : Network ρ :=
  let (sent, complete) := write round.frames written
  { network with
    broker := round.link
    session := if complete = true ∧ round.closes = false then .connected else .out
    toCa := network.toCa ++ sent }

def step : Event → Network ρ
  | .accept written =>
      if network.session = .out ∧ network.cad.phase = .accepting then
        { network with session := .waiting, toCa := [], toBroker := [] }.caStep random
          (.accept written)
      else network
  | .connect written =>
      if network.session = .waiting then network.brokerRound network.broker.resend written
      else network
  | .caLeaves => network.caStep random (.incoming none 0 [] none)
  | .brokerLeaves => { network with session := .out }
  | .caReceives nowSeconds draws written =>
      if network.cad.phase = .connected then
        match network.toCa with
        | [] => network
        | frame :: rest =>
            { network with toCa := rest, used := network.used ++ draws }.caStep random
              (.incoming (some frame.encoded) nowSeconds draws written)
      else network
  | .caRetries written => network.caStep random (.retry written)
  | .caReloads candidate => network.caStep random (.reload candidate)
  | .brokerReceives written =>
      if network.session = .connected then
        match network.toBroker with
        | [] => network
        | frame :: rest =>
            { network with toBroker := rest }.brokerRound
              (network.broker.onBytes frame.encoded) written
      else network
  | .brokerRetries written =>
      if network.session = .connected ∧ network.broker.pending.isEmpty = false then
        network.brokerRound network.broker.resend written
      else network
  | .brokerTakes draw written =>
      if network.session = .connected then
        { network with used := network.used ++ draw.toList }.brokerRound
          (network.broker.takeRequest draw) written
      else network
  | .agentSends identity frame =>
      let answer := network.broker.router.routeAgentRequest identity frame
      { network with broker := { network.broker with router := answer.2 } }
  | .otherThreads router => { network with broker := { network.broker with router } }
  | .brokerRestarts =>
      { network with
        broker := network.config.start network.broker.taken network.broker.routed
        session := .out }

/-- Ids are drawn fresh, and what threads do to the router besides sending requests of Agents leaves
the channel to the CA alone. -/
def Allowed : Event → Prop
  | .caReceives _ draws _ => draws.Nodup ∧ ∀ id ∈ draws, id ∉ network.used
  | .brokerTakes (some id) _ => id ∉ network.used
  | .brokerTakes none _ => False
  | .otherThreads router =>
      router.caDepth = network.broker.router.caDepth ∧
        router.caRequests = network.broker.router.caRequests
  | _ => True

instance : ∀ event, Decidable (network.Allowed event)
  | .caReceives _ _ _ => inferInstanceAs (Decidable (_ ∧ _))
  | .brokerTakes (some _) _ => inferInstanceAs (Decidable (¬ _))
  | .brokerTakes none _ => .isFalse id
  | .otherThreads _ => inferInstanceAs (Decidable (_ ∧ _))
  | .accept _ | .connect _ | .caLeaves | .brokerLeaves | .caRetries _ | .caReloads _
  | .brokerReceives _ | .brokerRetries _ | .agentSends _ _ | .brokerRestarts => .isTrue trivial

/-- The event is allowed and the CA stays alive. -/
def Proper (event : Event) : Prop :=
  (network.step random event).cad.phase ≠ .exited ∧ network.Allowed event

instance (event : Event) : Decidable (network.Proper random event) :=
  inferInstanceAs (Decidable (_ ∧ _))

end Network

/-! ## What an event does -/

/-- What one event does while the Broker's process goes on. -/
inductive Effect {ρ : Type} (random : CryptoRandom ρ) (network : Network ρ) : Network ρ → Prop where
  | idle : Effect random network network
  | accepts (daemon : Daemon ρ) (sent : List LinkFrame) (out : network.session = .out)
      (same : daemon.link = network.cad.link)
      (part : sent <+: network.cad.link.pendingDeliveries.snapshot) :
      Effect random network
        { network with cad := daemon, session := .waiting, toCa := [], toBroker := sent }
  | sends (daemon : Daemon ρ) (sent : List LinkFrame) (same : daemon.link = network.cad.link)
      (part : sent <+: network.cad.link.pendingDeliveries.snapshot) :
      Effect random network { network with cad := daemon, toBroker := network.toBroker ++ sent }
  | reloads (daemon : Daemon ρ)
      (candidate : Option (EnvironmentPolicy × List (AgentId × PublicKeys)))
      (same : daemon.link = network.cad.link.reload candidate) :
      Effect random network { network with cad := daemon }
  | receives (daemon : Daemon ρ) (frame : LinkFrame) (rest : List LinkFrame)
      (nowSeconds : UInt64) (draws : List MessageId) (written : Option Nat)
      (next : network.toCa = frame :: rest) (separate : draws.Nodup)
      (unused : ∀ id ∈ draws, id ∉ network.used)
      (runs : (network.cad.link.onFrame random frame nowSeconds draws).ending ≠ .exit)
      (same : daemon.link = (network.cad.link.onFrame random frame nowSeconds draws).state) :
      Effect random network
        { network with
          cad := daemon
          toCa := rest
          toBroker := network.toBroker ++
            (write (network.cad.link.onFrame random frame nowSeconds draws).frames written).1
          used := network.used ++ draws }
  | asks (written : Option Nat) (inside : network.session ≠ .out) :
      Effect random network (network.brokerRound network.broker.resend written)
  | hears (frame : LinkFrame) (rest : List LinkFrame) (written : Option Nat)
      (connected : network.session = .connected) (next : network.toBroker = frame :: rest) :
      Effect random network
        ({ network with toBroker := rest }.brokerRound (network.broker.onFrame frame) written)
  | takes (id : MessageId) (written : Option Nat) (connected : network.session = .connected)
      (unused : id ∉ network.used) :
      Effect random network ({ network with used := network.used ++ [id] }.brokerRound
        (network.broker.takeRequest (some id)) written)
  | cuts : Effect random network { network with session := .out }
  | threads (router : Router) (feeds : Router.Feeds network.broker.router router) :
      Effect random network { network with broker := { network.broker with router } }

theorem Network.Proper.effect {ρ : Type} {random : CryptoRandom ρ} {network : Network ρ}
    {event : Event} (proper : network.Proper random event) (unbroken : event.restarts = false) :
    Effect random network (network.step random event) := by
  obtain ⟨alive, allowed⟩ := proper
  cases event with
  | accept written =>
      simp only [Network.step, Network.caStep, Daemon.step]
      by_cases ready : network.session = .out ∧ network.cad.phase = .accepting
      · rw [if_pos ready, if_pos ready.2, List.nil_append, Round.finish_sent]
        exact .accepts _ _ ready.1 (Round.finish_link _ _) (write_front _ _)
      · rw [if_neg ready]
        exact .idle
  | connect written =>
      simp only [Network.step]
      by_cases waiting : network.session = .waiting
      · rw [if_pos waiting]
        exact .asks written (by simp [waiting])
      · rw [if_neg waiting]
        exact .idle
  | caLeaves =>
      simp only [Network.step, Network.caStep, Daemon.step]
      by_cases connected : network.cad.phase = .connected
      · rw [if_pos connected]
        exact .sends _ [] rfl (List.nil_prefix)
      · rw [if_neg connected]
        exact .sends _ [] rfl (List.nil_prefix)
  | brokerLeaves => exact .cuts
  | caReceives nowSeconds draws written =>
      simp only [Network.step, Network.caStep, Daemon.step] at alive ⊢
      by_cases connected : network.cad.phase = .connected
      · rw [if_pos connected] at alive ⊢
        cases next : network.toCa with
        | nil => exact .idle
        | cons frame rest =>
            simp only [next, if_pos connected, LinkState.onBytes_encoded, ne_eq,
              Round.finish_exited] at alive ⊢
            rw [Round.finish_sent]
            exact .receives _ frame rest nowSeconds draws written next allowed.1 allowed.2 alive
              (Round.finish_link _ _)
      · rw [if_neg connected]
        exact .idle
  | caRetries written =>
      simp only [Network.step, Network.caStep, Daemon.step]
      split
      · rw [Round.finish_sent]
        exact .sends _ _ (Round.finish_link _ _) (write_front _ _)
      · exact .sends _ [] rfl (List.nil_prefix)
  | caReloads candidate =>
      simp only [Network.step, Network.caStep, Daemon.step]
      split
      · rw [List.append_nil]
        exact .reloads _ candidate rfl
      · rw [List.append_nil]
        exact .idle
  | brokerReceives written =>
      simp only [Network.step]
      by_cases connected : network.session = .connected
      · rw [if_pos connected]
        cases next : network.toBroker with
        | nil => exact .idle
        | cons frame rest =>
            simp only [CaLink.onBytes_encoded]
            exact .hears frame rest written connected next
      · rw [if_neg connected]
        exact .idle
  | brokerRetries written =>
      simp only [Network.step]
      by_cases ready : network.session = .connected ∧ network.broker.pending.isEmpty = false
      · rw [if_pos ready]
        exact .asks written (by simp [ready.1])
      · rw [if_neg ready]
        exact .idle
  | brokerTakes draw written =>
      cases draw with
      | none => exact absurd allowed id
      | some id =>
          simp only [Network.step]
          by_cases connected : network.session = .connected
          · rw [if_pos connected]
            exact .takes id written connected allowed
          · rw [if_neg connected]
            exact .idle
  | agentSends identity frame =>
      exact .threads _ (network.broker.router.feeds_routeAgentRequest identity frame)
  | otherThreads router => exact .threads router (.of_same allowed.1 allowed.2)
  | brokerRestarts => cases unbroken

@[simp] theorem Network.step_config {ρ : Type} {random : CryptoRandom ρ} {network : Network ρ}
    (event : Event) : (network.step random event).config = network.config := by
  cases event with
  | accept | connect | brokerReceives | brokerRetries | brokerTakes | caReceives =>
      simp only [Network.step]
      split
      · try split
        all_goals rfl
      · rfl
  | caLeaves | brokerLeaves | caRetries | caReloads | agentSends | otherThreads | brokerRestarts =>
      rfl

end SecurePubSub.BrokerCa
