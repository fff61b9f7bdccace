import SecurePubSub.BrokerCa.Linked

namespace SecurePubSub.BrokerCa

open SecurePubSub.Data SecurePubSub.Protocol SecurePubSub.Authority SecurePubSub.Link
  SecurePubSub.Broker SecurePubSub.Cad

/-! Requests cross the link once each and in order while both processes live.

At most the request taken last has not been processed, and the Broker holds it then.
It also holds the request whose deliveries the CA still holds.
-/

/-- What a call of `process` was made for, as the Broker records the requests that it takes. -/
def request (call : ProcessCall) : Option MessageId × Bytes := (some call.id, call.payload)

/-- The Broker has the request pending whose deliveries the CA holds. -/
def Held {ρ : Type} (link : LinkState ρ) (broker : CaLink) : Prop :=
  ∀ id, link.currentRequest = some id → ∃ frame, broker.pending.entries = [(id, frame)]

structure InOrder {ρ : Type} (link : LinkState ρ) (broker : CaLink) : Prop where
  order : broker.taken = link.calls.map request ∨
    ∃ frame, broker.pending.entries = [(frame.id, frame)] ∧
      broker.taken = link.calls.map request ++ [(some frame.id, frame.payload)] ∧
      frame.id ∉ processed link.calls
  held : Held link broker

section Steps

variable {ρ : Type} {random : CryptoRandom ρ} {network : Network ρ} {link later : LinkState ρ}
  {broker : CaLink}

namespace Held

theorem of_same (held : Held link broker)
    (current : later.currentRequest = none ∨ later.currentRequest = link.currentRequest) :
    Held later broker := by
  intro id named
  rcases current with idle | same
  · rw [idle] at named
    cases named
  · exact held id (same ▸ named)

/-- The Broker completes no request but one whose deliveries it has acknowledged. -/
theorem hears (held : Held network.cad.link network.broker) {frame : LinkFrame} {round : CaRound}
    (heard : Linked.Heard network frame round) : Held network.cad.link round.link := by
  cases heard with
  | completes kind done completed =>
      intro id current
      obtain ⟨pending, entries⟩ := held id current
      have other : id ≠ frame.id := fun same => completed (same ▸ current)
      exact ⟨pending, by simp [PendingFrames.entries_acknowledge, entries, other]⟩
  | duplicate made known => exact held
  | routes made unknown acquired recorded => exact held
  | rejects made unknown full => exact held

theorem takes (linked : Linked network) (held : Held network.cad.link network.broker)
    (id : MessageId) : Held network.cad.link (network.broker.takeRequest (some id)).link := by
  rcases CaLink.takeRequest_cases id linked.asked.short with ⟨result, _⟩ |
    ⟨_, _, _, _, nothing, _⟩
  · rw [result]
    exact held
  · intro other current
    obtain ⟨_, some⟩ := held other current
    rw [nothing] at some
    cases some

end Held

namespace InOrder

theorem of_same (inOrder : InOrder link broker) (calls : later.calls = link.calls)
    (current : later.currentRequest = none ∨ later.currentRequest = link.currentRequest) :
    InOrder later broker := by
  have order := inOrder.order
  rw [← calls] at order
  exact ⟨order, inOrder.held.of_same current⟩

/-- The Broker holds a request that is new to the CA, and took it after all the others. -/
theorem pending_of_fresh (inOrder : InOrder link broker) {session : Session} {frame : LinkFrame}
    (fresh : Fresh link.calls broker session frame) :
    ∃ pending, broker.pending.entries = [(frame.id, pending)] ∧
      broker.taken = link.calls.map request ++ [(some frame.id, frame.payload)] := by
  obtain ⟨last, new, _⟩ := fresh
  have ended := last.2
  rcases inOrder.order with taken | ⟨pending, entries, taken, _⟩
  · -- The request taken last was processed, so this one is not new.
    rw [taken, List.getLast?_map, Option.map_eq_some_iff] at ended
    obtain ⟨previous, found, same⟩ := ended
    have done : frame.id ∈ processed link.calls := by
      rw [← Option.some.inj (congrArg Prod.fst same)]
      exact List.mem_map_of_mem (List.mem_of_getLast? found)
    exact absurd done new
  · rw [taken, List.getLast?_concat] at ended
    simp only [Option.some.injEq, Prod.mk.injEq] at ended
    rw [ended.1] at entries taken
    exact ⟨pending, entries, by rw [taken, ended.2]⟩

theorem receives (inOrder : InOrder network.cad.link network.broker)
    {frame : LinkFrame} {rest : List LinkFrame} {draws : List MessageId} {round : Round ρ}
    (received : Linked.Received network frame rest draws round) :
    InOrder round.state network.broker := by
  cases received with
  | receipt acquired later =>
      rcases @LinkState.onAck_cases _ network.cad.link frame.id with
        ⟨_, _, _, result⟩ | ⟨_, result⟩
      · rw [result]
        exact inOrder.of_same rfl (.inl rfl)
      · rw [result]
        exact inOrder.of_same rfl (.inr rfl)
  | repeated stale current later => exact inOrder
  | known stale completed later => exact inOrder
  | processed _ call fresh idle id payload calls stays ways served later =>
      obtain ⟨pending, entries, taken⟩ := inOrder.pending_of_fresh fresh
      refine ⟨.inl ?_, fun other current => ⟨pending, ?_⟩⟩
      · rw [taken, calls]
        simp [request, id, payload]
      · rcases ways with ⟨completed, _⟩ | ⟨named, _⟩
        · rw [completed] at current
          cases current
        · rw [named] at current
          cases current
          exact entries
  | busy fresh other later => exact inOrder

theorem hears (inOrder : InOrder network.cad.link network.broker)
    {frame : LinkFrame} {round : CaRound} (heard : Linked.Heard network frame round) :
    InOrder network.cad.link round.link := by
  refine ⟨?_, inOrder.held.hears heard⟩
  cases heard with
  | completes kind done completed =>
      refine inOrder.order.imp_right ?_
      rintro ⟨pending, entries, taken, new⟩
      have other : pending.id ≠ frame.id := fun same => new (same ▸ done)
      exact ⟨pending, by simp [PendingFrames.entries_acknowledge, entries, other], taken, new⟩
  | duplicate made known => exact inOrder.order
  | routes made unknown acquired recorded => exact inOrder.order
  | rejects made unknown full => exact inOrder.order

theorem takes (linked : Linked network) (inOrder : InOrder network.cad.link network.broker)
    {id : MessageId} (unused : id ∉ network.used) :
    InOrder network.cad.link (network.broker.takeRequest (some id)).link := by
  refine ⟨?_, inOrder.held.takes linked id⟩
  rcases CaLink.takeRequest_cases id linked.asked.short with ⟨result, _⟩ |
    ⟨request, rest, frame, pending, nothing, _, _, _, named, payload, _, entries, result⟩
  · rw [result]
    exact inOrder.order
  · rw [result]
    have taken : network.broker.taken = network.cad.link.calls.map BrokerCa.request := by
      rcases inOrder.order with taken | ⟨_, some, _⟩
      · exact taken
      · rw [nothing] at some
        cases some
    refine .inr ⟨frame, by rw [named]; exact entries, by rw [named, payload, ← taken], ?_⟩
    rw [named]
    exact fun done => unused (linked.asked.processed_used done)

theorem effect (linked : Linked network) (inOrder : InOrder network.cad.link network.broker)
    {later : Network ρ} (effect : Effect random network later) :
    InOrder later.cad.link later.broker := by
  cases effect with
  | idle => exact inOrder
  | accepts daemon sent out same part => exact inOrder.of_same (by rw [same]) (.inr (by rw [same]))
  | sends daemon sent same part => exact inOrder.of_same (by rw [same]) (.inr (by rw [same]))
  | reloads daemon candidate same =>
      obtain ⟨system, changed⟩ := network.cad.link.reload_eq candidate
      rw [changed] at same
      exact inOrder.of_same (by rw [same]) (.inr (by rw [same]))
  | receives daemon frame rest nowSeconds draws written next separate unused runs same =>
      dsimp only
      rw [same]
      exact inOrder.receives (linked.received next nowSeconds separate unused runs)
  | asks written inside => exact inOrder
  | hears frame rest written connected next => exact inOrder.hears (linked.heard next)
  | takes id written connected unused => exact inOrder.takes linked unused
  | cuts => exact inOrder
  | threads router feeds => exact ⟨inOrder.order, inOrder.held⟩

end InOrder

end Steps

/-- The event is proper and both processes go on. -/
def Lasting {ρ : Type} (random : CryptoRandom ρ) (network : Network ρ) (event : Event) : Prop :=
  network.Proper random event ∧ event.restarts = false

instance {ρ : Type} (random : CryptoRandom ρ) (network : Network ρ) (event : Event) :
    Decidable (Lasting random network event) :=
  inferInstanceAs (Decidable (_ ∧ _))

section Runs

variable {ρ : Type} (random : CryptoRandom ρ) {network : Network ρ} {events : List Event}

theorem inOrder_run (starts : Starts network)
    (proper : Machine.Along (Network.step random) (Lasting random) network events) :
    let reached := Machine.run (Network.step random) network events
    Linked reached ∧ InOrder reached.cad.link reached.broker := by
  apply proper.preserves (fun network => Linked network ∧ InOrder network.cad.link network.broker)
  · intro current event ⟨linked, inOrder⟩ ⟨fits, unbroken⟩
    have effect := fits.effect unbroken
    exact ⟨linked.effect effect, inOrder.effect linked effect⟩
  · have linked := linked_start starts
    refine ⟨linked, .inl ?_, fun id current => ?_⟩
    · rw [starts.calls, starts.initial]
      rfl
    · have last := linked.served.current id current
      rw [starts.calls] at last
      cases last

/-- The link is a reliable FIFO for requests. -/
theorem requests_in_order (starts : Starts network)
    (proper : Machine.Along (Network.step random) (Lasting random) network events) :
    let reached := Machine.run (Network.step random) network events
    reached.cad.link.calls.map request <+: reached.broker.taken ∧
      (processed reached.cad.link.calls).Nodup ∧
      ∀ taken ∈ reached.broker.taken,
        taken.1 ∉ reached.broker.pending.entries.map (fun entry => some entry.1) →
        ∃ call ∈ reached.cad.link.calls, request call = taken ∧
          call.frames.map LinkFrame.payload = call.deliveries ∧
          ∀ frame ∈ call.frames, frame ∈ reached.broker.routed := by
  intro reached
  obtain ⟨linked, order, held⟩ := inOrder_run random starts proper
  refine ⟨?_, linked.served.once, fun taken member dropped => ?_⟩
  · rcases order with same | ⟨frame, _, more, _⟩
    · exact same ▸ List.prefix_refl _
    · exact more ▸ List.prefix_append _ _
  · have done : taken ∈ reached.cad.link.calls.map request := by
      rcases order with same | ⟨frame, entries, more, _⟩
      · exact same ▸ member
      · rw [more] at member
        rcases List.mem_append.mp member with old | last
        · exact old
        · rw [List.mem_singleton.mp last] at dropped
          simp [reached, entries] at dropped
    obtain ⟨call, made, rfl⟩ := List.mem_map.mp done
    refine ⟨call, made, rfl, linked.served.whole call made, ?_⟩
    apply linked.served.routed_of_completed made
    intro current
    obtain ⟨frame, entries⟩ := held call.id current
    simp [reached, entries, request] at dropped

end Runs

/-! ## A request that is sent twice and processed once -/

namespace Sample

/-- The acknowledgement of the first request is lost with its connection. -/
def resent : List Event :=
  agents ++ session ++ exchange 1 [] ++ [.brokerLeaves, .caLeaves] ++
    session ++ [.caReceives 10 [] none, .brokerReceives none] ++ exchange 2 []

end Sample

theorem sample_requests_in_order : ∃ daemon, Cad.Sample.started = .ok daemon ∧
    let reached := Machine.run (Network.step .counting) (Sample.network daemon) Sample.resent
    reached.cad.link.calls.map request <+: reached.broker.taken := by
  obtain ⟨daemon, started, proper⟩ := @Cad.Sample.exists_started (fun daemon =>
    decide (Machine.Along (Network.step .counting) (Lasting .counting) (Sample.network daemon)
      Sample.resent)) (by decide +kernel)
  exact ⟨daemon, started,
    (requests_in_order .counting (Sample.starts started) (of_decide_eq_true proper)).1⟩

end SecurePubSub.BrokerCa
