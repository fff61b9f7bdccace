import SecurePubSub.BrokerCa.Histories

namespace SecurePubSub.BrokerCa

open SecurePubSub.Data SecurePubSub.Protocol SecurePubSub.Authority SecurePubSub.Link
  SecurePubSub.Broker SecurePubSub.Cad

/-! What is in flight between the two parties, whatever happened before.

Requests reach the CA in the order in which they were taken, so in front of a
request that is new to it there are only retransmissions of the one before.
-/

/-! ## Frames in flight -/

/-- An acknowledgement of a delivery that was routed. -/
def Receipt (routed : List LinkFrame) (frame : LinkFrame) : Prop :=
  frame.kind = .ack ∧ Acquired routed frame.id

/-- A retransmission of the request processed last. -/
def Stale (calls : List ProcessCall) (frame : LinkFrame) : Prop :=
  frame.kind = .request ∧ latest calls = some frame.id

/-- A request that is new to the CA; in a session, the Broker still holds it. -/
def Fresh (calls : List ProcessCall) (broker : CaLink) (session : Session) (frame : LinkFrame) :
    Prop :=
  TakenLast broker frame ∧ frame.id ∉ processed calls ∧
    (session = .connected → broker.pending.entries ≠ [])

/-- What travels to the CA: old requests and then a new one. -/
def Inbound (calls : List ProcessCall) (broker : CaLink) (session : Session)
    (frames : List LinkFrame) : Prop :=
  ∃ front back, frames = front ++ back ∧
    (∀ frame ∈ front, Receipt broker.routed frame ∨ Stale calls frame) ∧
    ∀ frame ∈ back, Receipt broker.routed frame ∨ Fresh calls broker session frame

/-- What travels to the Broker: deliveries and acknowledgements of completed requests. -/
def Answer {ρ : Type} (link : LinkState ρ) (frame : LinkFrame) : Prop :=
  (frame.kind = .ack ∧ frame.id ∈ processed link.calls ∧ link.currentRequest ≠ some frame.id) ∨
    frame ∈ generated link.calls

theorem TakenLast.unique {broker : CaLink} {left right : LinkFrame} (first : TakenLast broker left)
    (second : TakenLast broker right) : left = right := by
  have same := first.2.symm.trans second.2
  simp only [Option.some.injEq, Prod.mk.injEq] at same
  exact LinkFrame.ext (first.1.trans second.1.symm) same.1 same.2

namespace Inbound

variable {config : BrokerConfig} {calls : List ProcessCall} {broker later : CaLink}
  {session : Session} {frame : LinkFrame} {frames rest : List LinkFrame} {used : List MessageId}

theorem nil : Inbound calls broker session [] := ⟨[], [], rfl, nofun, nofun⟩

theorem head (inbound : Inbound calls broker session (frame :: rest)) :
    ((Receipt broker.routed frame ∨ Stale calls frame) ∧ Inbound calls broker session rest) ∨
      (Fresh calls broker session frame ∧
        ∀ other ∈ rest, Receipt broker.routed other ∨ Fresh calls broker session other) := by
  obtain ⟨front, back, split, old, new⟩ := inbound
  cases front with
  | nil =>
      rw [List.nil_append] at split
      subst split
      have others : ∀ other ∈ rest, Receipt broker.routed other ∨ Fresh calls broker session other :=
        fun other member => new other (List.mem_cons_of_mem _ member)
      rcases new frame List.mem_cons_self with receipt | fresh
      · exact .inl ⟨.inl receipt, [], rest, rfl, nofun, others⟩
      · exact .inr ⟨fresh, others⟩
  | cons first front =>
      cases split
      exact .inl ⟨old _ List.mem_cons_self, front, back, rfl,
        fun other member => old other (List.mem_cons_of_mem _ member), new⟩

/-- What the Broker does without taking or completing a request does not matter in flight. -/
theorem of_same (inbound : Inbound calls broker session frames)
    (taken : later.taken = broker.taken) (pending : later.pending = broker.pending)
    (routed : ∀ frame ∈ broker.routed, frame ∈ later.routed) :
    Inbound calls later session frames := by
  obtain ⟨front, back, split, old, new⟩ := inbound
  have receipt {frame : LinkFrame} (received : Receipt broker.routed frame) :
      Receipt later.routed frame := by
    obtain ⟨kind, delivery, member, named⟩ := received
    exact ⟨kind, delivery, routed delivery member, named⟩
  refine ⟨front, back, split, fun frame member => (old frame member).imp_left receipt,
    fun frame member => (new frame member).imp receipt ?_⟩
  intro ⟨last, fresh, held⟩
  exact ⟨by rw [TakenLast, taken]; exact last, fresh, by rw [pending]; exact held⟩

theorem out (inbound : Inbound calls broker session frames) : Inbound calls broker .out frames := by
  obtain ⟨front, back, split, old, new⟩ := inbound
  refine ⟨front, back, split, old, fun frame member => (new frame member).imp_right ?_⟩
  intro ⟨last, fresh, _⟩
  exact ⟨last, fresh, nofun⟩

theorem receipt (inbound : Inbound calls broker session frames)
    (received : Receipt broker.routed frame) :
    Inbound calls broker session (frames ++ [frame]) := by
  obtain ⟨front, back, rfl, old, new⟩ := inbound
  refine ⟨front, back ++ [frame], List.append_assoc _ _ _, old, fun other member => ?_⟩
  rcases List.mem_append.mp member with before | last
  · exact new other before
  · rw [List.mem_singleton.mp last]
    exact .inl received

theorem sent_receipt (inbound : Inbound calls broker session frames)
    (received : Receipt broker.routed frame) (written : Option Nat) :
    Inbound calls broker session (frames ++ (write [frame] written).1) := by
  rcases write_single frame written with none | sent
  · rw [none, List.append_nil]
    exact inbound
  · rw [sent]
    exact inbound.receipt received

theorem resend (inbound : Inbound calls broker session frames)
    (asked : Asked config calls broker used) (written : Option Nat) :
    Inbound calls broker session (frames ++ (write broker.pending.snapshot written).1) := by
  rcases asked.pending with nothing | ⟨entry, entries, last, known⟩
  · rw [PendingFrames.snapshot_eq, nothing, List.map_nil, write_nil, List.append_nil]
    exact inbound
  · rw [PendingFrames.snapshot_eq, entries, List.map_cons, List.map_nil]
    rcases write_single entry written with none | sent
    · rw [none, List.append_nil]
      exact inbound
    · rw [sent]
      obtain ⟨front, back, rfl, old, new⟩ := inbound
      rcases known with fresh | stale
      · refine ⟨front, back ++ [entry], List.append_assoc _ _ _, old, fun other member => ?_⟩
        rcases List.mem_append.mp member with before | appended
        · exact new other before
        · rw [List.mem_singleton.mp appended]
          exact .inr ⟨last, fresh, fun _ => by rw [entries]; nofun⟩
      · -- The request was processed, so nothing in flight is new to the CA.
        refine ⟨front ++ back ++ [entry], [], (List.append_nil _).symm, fun other member => ?_, nofun⟩
        rcases List.mem_append.mp member with before | appended
        · rcases List.mem_append.mp before with first | second
          · exact old other first
          · rcases new other second with receipt | ⟨taken, fresh, _⟩
            · exact .inl receipt
            · rw [taken.unique last] at fresh
              exact absurd (latest_mem stale) fresh
        · rw [List.mem_singleton.mp appended]
          exact .inr ⟨last.1, stale⟩

/-- Completing a request that was processed takes nothing from one that is new to the CA. -/
theorem acknowledge (inbound : Inbound calls broker session frames)
    (asked : Asked config calls broker used) {id : MessageId} (done : id ∈ processed calls) :
    Inbound calls { broker with pending := broker.pending.acknowledge id } session frames := by
  obtain ⟨front, back, split, old, new⟩ := inbound
  refine ⟨front, back, split, old, fun frame member => (new frame member).imp_right ?_⟩
  rintro ⟨last, fresh, held⟩
  refine ⟨last, fresh, fun connected => ?_⟩
  rcases asked.pending with nothing | ⟨entry, entries, taken, _⟩
  · exact absurd nothing (held connected)
  · have other : entry.id ≠ id := by
      rw [taken.unique last]
      exact fun same => fresh (same ▸ done)
    simp [PendingFrames.entries_acknowledge, entries, other]

/-- The CA processed the new request: what follows are retransmissions of it. -/
theorem process (fresh : Fresh calls broker session frame)
    (others : ∀ other ∈ rest, Receipt broker.routed other ∨ Fresh calls broker session other)
    {call : ProcessCall} (id : call.id = frame.id) :
    Inbound (calls ++ [call]) broker session rest := by
  refine ⟨rest, [], (List.append_nil _).symm, fun other member => ?_, nofun⟩
  rcases others other member with receipt | ⟨last, _⟩
  · exact .inl receipt
  · rw [last.unique fresh.1]
    exact .inr ⟨fresh.1.1, by rw [latest_append, id]⟩

end Inbound

namespace Answer

variable {ρ : Type} {link later : LinkState ρ} {frame : LinkFrame}

theorem of_same (answer : Answer link frame) (calls : later.calls = link.calls)
    (current : later.currentRequest = none ∨ later.currentRequest = link.currentRequest) :
    Answer later frame := by
  rw [Answer, calls]
  rcases answer with ⟨kind, done, completed⟩ | made
  · refine .inl ⟨kind, done, ?_⟩
    rcases current with idle | same
    · rw [idle]
      nofun
    · rw [same]
      exact completed
  · exact .inr made

theorem process (answer : Answer link frame) {call : ProcessCall}
    (fresh : call.id ∉ processed link.calls) (calls : later.calls = link.calls ++ [call])
    (current : later.currentRequest = none ∨ later.currentRequest = some call.id) :
    Answer later frame := by
  rw [Answer, calls, processed_append, generated_append]
  rcases answer with ⟨kind, done, _⟩ | made
  · refine .inl ⟨kind, List.mem_append_left _ done, ?_⟩
    rcases current with idle | same
    · rw [idle]
      nofun
    · rw [same]
      intro named
      exact fresh (Option.some.inj named ▸ done)
  · exact .inr (List.mem_append_left _ made)

end Answer

/-! ## One event -/

/-- What holds of the link whatever happened to its connections and to the Broker. -/
structure Linked {ρ : Type} (network : Network ρ) : Prop where
  served : Served network.cad.link network.broker.routed network.used
  asked : Asked network.config network.cad.link.calls network.broker network.used
  inbound : Inbound network.cad.link.calls network.broker network.session network.toCa
  answers : ∀ frame ∈ network.toBroker, Answer network.cad.link frame
  waiting : network.session = .waiting → network.toCa = []
  dedup : 0 < network.config.caDedupDepth

namespace Linked

variable {ρ : Type} {random : CryptoRandom ρ} {network : Network ρ}

theorem pending_answers (linked : Linked network) {sent : List LinkFrame}
    (part : sent <+: network.cad.link.pendingDeliveries.snapshot) :
    ∀ frame ∈ sent, Answer network.cad.link frame := by
  intro frame member
  have pending := part.subset member
  rw [PendingFrames.snapshot_eq, List.mem_map] at pending
  obtain ⟨entry, pending, rfl⟩ := pending
  exact .inr (linked.served.generated_of_pending pending).2

/-- The CA sends answers and changes no more than its phase. -/
theorem sends (linked : Linked network) {daemon : Daemon ρ} {sent : List LinkFrame}
    (same : daemon.link = network.cad.link) (answers : ∀ frame ∈ sent, Answer network.cad.link frame) :
    Linked { network with cad := daemon, toBroker := network.toBroker ++ sent } := by
  obtain ⟨served, asked, inbound, old, waiting, dedup⟩ := linked
  rw [← same] at served asked inbound old answers
  refine ⟨served, asked, inbound, fun frame member => ?_, waiting, dedup⟩
  exact (List.mem_append.mp member).elim (old frame) (answers frame)

/-- How the CA handles the next frame on its way, in front of the others. -/
inductive Received (network : Network ρ) (frame : LinkFrame) (rest : List LinkFrame)
    (draws : List MessageId) : Round ρ → Prop where
  | receipt (acquired : Receipt network.broker.routed frame)
      (later : Inbound network.cad.link.calls network.broker network.session rest) :
      Received network frame rest draws (network.cad.link.onAck frame.id)
  | repeated (stale : Stale network.cad.link.calls frame)
      (current : network.cad.link.currentRequest = some frame.id)
      (later : Inbound network.cad.link.calls network.broker network.session rest) :
      Received network frame rest draws ⟨network.cad.link, [], .stay⟩
  | known (stale : Stale network.cad.link.calls frame)
      (completed : network.cad.link.currentRequest ≠ some frame.id)
      (later : Inbound network.cad.link.calls network.broker network.session rest) :
      Received network frame rest draws ⟨network.cad.link, [LinkFrame.ack frame.id], .stay⟩
  | processed (round : Round ρ) (call : ProcessCall)
      (fresh : Fresh network.cad.link.calls network.broker network.session frame)
      (idle : network.cad.link.currentRequest = none) (id : call.id = frame.id)
      (payload : call.payload = frame.payload)
      (calls : round.state.calls = network.cad.link.calls ++ [call])
      (stays : round.ending = .stay)
      (ways : (round.state.currentRequest = none ∧ round.frames = [LinkFrame.ack frame.id]) ∨
        (round.state.currentRequest = some frame.id ∧ round.frames = call.frames))
      (served : Served round.state network.broker.routed (network.used ++ draws))
      (later : Inbound round.state.calls network.broker network.session rest) :
      Received network frame rest draws round
  | busy (fresh : Fresh network.cad.link.calls network.broker network.session frame)
      (other : network.cad.link.currentRequest ≠ none)
      (later : Inbound network.cad.link.calls network.broker network.session rest) :
      Received network frame rest draws ⟨network.cad.link, [], .closed⟩

theorem received (linked : Linked network) {frame : LinkFrame} {rest : List LinkFrame}
    (next : network.toCa = frame :: rest) (nowSeconds : UInt64) {draws : List MessageId}
    (separate : draws.Nodup) (unused : ∀ id ∈ draws, id ∉ network.used)
    (runs : (network.cad.link.onFrame random frame nowSeconds draws).ending ≠ .exit) :
    Received network frame rest draws
      (network.cad.link.onFrame random frame nowSeconds draws) := by
  have served := linked.served
  have inbound := linked.inbound
  rw [next] at inbound
  unfold LinkState.onFrame at runs ⊢
  rcases inbound.head with ⟨receipt | stale, later⟩ | ⟨fresh, others⟩
  · simp only [receipt.1]
    exact .receipt receipt later
  · simp only [stale.1]
    have known := DedupWindow.contains_iff.mpr (served.recent frame.id stale.2)
    unfold LinkState.onRequest
    by_cases current : network.cad.link.currentRequest = some frame.id
    · rw [if_pos current]
      exact .repeated stale current later
    · rw [if_neg current, if_pos known]
      exact .known stale current later
  · have last := fresh.1
    have new := fresh.2.1
    have unknown : ¬ network.cad.link.acquiredRequests.contains frame.id = true :=
      fun known => new (served.recorded _ (DedupWindow.contains_iff.mp known))
    have other : network.cad.link.currentRequest ≠ some frame.id :=
      fun current => new (latest_mem (served.current _ current))
    simp only [last.1] at runs ⊢
    unfold LinkState.onRequest at runs ⊢
    rw [if_neg other, if_neg unknown] at runs ⊢
    by_cases idle : network.cad.link.currentRequest = none
    · rw [if_pos idle] at runs ⊢
      obtain ⟨later, stays, call, id, payload, calls, ways⟩ := @Served.process _ random _ _ _
        served idle frame.id new frame.payload nowSeconds draws separate unused runs
      refine .processed _ call fresh idle id payload calls stays ways later ?_
      rw [calls]
      exact Inbound.process fresh others id
    · rw [if_neg idle]
      exact .busy fresh idle ⟨[], rest, rfl, nofun, others⟩

/-- What handling a frame comes to. -/
structure Handled (network : Network ρ) (rest : List LinkFrame) (draws : List MessageId)
    (round : Round ρ) : Prop where
  served : Served round.state network.broker.routed (network.used ++ draws)
  asked : Asked network.config round.state.calls network.broker (network.used ++ draws)
  inbound : Inbound round.state.calls network.broker network.session rest
  kept : ∀ frame, Answer network.cad.link frame → Answer round.state frame
  sent : ∀ frame ∈ round.frames, Answer round.state frame

theorem handled (linked : Linked network) {frame : LinkFrame} {rest : List LinkFrame}
    {draws : List MessageId} {round : Round ρ}
    (received : Received network frame rest draws round) : Handled network rest draws round := by
  have grown : ∀ id ∈ network.used, id ∈ network.used ++ draws :=
    fun id member => List.mem_append_left draws member
  have served := linked.served.with_used grown
  have asked := linked.asked.with_used grown
  cases received with
  | receipt acquired later =>
      have acked := served.onAck acquired.2
      rcases @LinkState.onAck_cases _ network.cad.link frame.id with
        ⟨request, current, nothing, result⟩ | ⟨_, result⟩
      · rw [result] at acked ⊢
        refine ⟨acked, asked, later, fun _ answer => answer.of_same rfl (.inl rfl), ?_⟩
        intro answer member
        rw [List.mem_singleton.mp member]
        exact .inl ⟨rfl, latest_mem (served.current request current),
          (Option.some_ne_none _).symm⟩
      · rw [result] at acked ⊢
        exact ⟨acked, asked, later, fun _ answer => answer.of_same rfl (.inr rfl),
          List.forall_mem_nil _⟩
  | repeated stale current later =>
      exact ⟨served, asked, later, fun _ answer => answer, List.forall_mem_nil _⟩
  | known stale completed later =>
      refine ⟨served, asked, later, fun _ answer => answer, fun answer member => ?_⟩
      rw [List.mem_singleton.mp member]
      exact .inl ⟨rfl, latest_mem stale.2, completed⟩
  | processed _ call fresh idle id payload calls stays ways served later =>
      have current := ways.imp And.left (fun named => named.1.trans (congrArg some id.symm))
      have new := fresh.2.1
      rw [← id] at new
      refine ⟨served, ?_, later, fun _ answer => answer.process new calls current, ?_⟩
      · rw [calls]
        exact asked.process fresh.1 id payload
      · intro answer member
        rcases ways with ⟨completed, sent⟩ | ⟨_, sent⟩
        · rw [sent, List.mem_singleton] at member
          rw [member, Answer, calls, processed_append, completed]
          exact .inl ⟨rfl, List.mem_append_right _ (by simp [id, LinkFrame.ack]),
            (Option.some_ne_none _).symm⟩
        · rw [sent] at member
          refine .inr ?_
          rw [calls, generated_append]
          exact List.mem_append_right _ member
  | busy fresh other later =>
      exact ⟨served, asked, later, fun _ answer => answer, List.forall_mem_nil _⟩

/-- A round of the Broker's session. -/
theorem of_brokerRound {round : CaRound} {written : Option Nat}
    (served : Served network.cad.link round.link.routed network.used)
    (asked : Asked network.config network.cad.link.calls round.link network.used)
    (inbound : Inbound network.cad.link.calls round.link .connected
      (network.toCa ++ (write round.frames written).1))
    (answers : ∀ frame ∈ network.toBroker, Answer network.cad.link frame)
    (dedup : 0 < network.config.caDedupDepth) : Linked (network.brokerRound round written) := by
  unfold Network.brokerRound
  dsimp only
  split
  · exact ⟨served, asked, inbound, answers, nofun, dedup⟩
  · exact ⟨served, asked, inbound.out, answers, nofun, dedup⟩

/-- How the Broker handles the next frame on its way. -/
inductive Heard (network : Network ρ) (frame : LinkFrame) : CaRound → Prop where
  | completes (kind : frame.kind = .ack) (done : frame.id ∈ processed network.cad.link.calls)
      (completed : network.cad.link.currentRequest ≠ some frame.id) :
      Heard network frame
        ⟨{ network.broker with pending := network.broker.pending.acknowledge frame.id }, [], false⟩
  | duplicate (made : frame ∈ generated network.cad.link.calls)
      (known : frame.id ∈ network.broker.acquiredDeliveries.order) :
      Heard network frame ⟨network.broker, [LinkFrame.ack frame.id], false⟩
  | routes (made : frame ∈ generated network.cad.link.calls)
      (unknown : frame.id ∉ network.broker.acquiredDeliveries.order) (acquired : DedupWindow)
      (recorded : network.broker.acquiredDeliveries.insert frame.id = .ok acquired) :
      Heard network frame
        ⟨{ network.broker with
            router := (network.broker.router.routeCaDelivery frame.payload).2
            acquiredDeliveries := acquired
            routed := network.broker.routed ++ [frame] }, [LinkFrame.ack frame.id], false⟩
  | rejects (made : frame ∈ generated network.cad.link.calls)
      (unknown : network.broker.acquiredDeliveries.contains frame.id = false)
      (full : ¬ network.broker.Fits frame) :
      Heard network frame
        ⟨{ network.broker with
            router := (network.broker.router.routeCaDelivery frame.payload).2 }, [], true⟩

theorem heard (linked : Linked network) {frame : LinkFrame} {rest : List LinkFrame}
    (next : network.toBroker = frame :: rest) :
    Heard network frame (network.broker.onFrame frame) := by
  have answer := linked.answers frame (by rw [next]; exact List.mem_cons_self)
  unfold CaLink.onFrame
  rcases answer with ⟨kind, done, completed⟩ | made
  · simp only [kind]
    exact .completes kind done completed
  · have positive := linked.dedup
    rw [← linked.asked.window] at positive
    simp only [linked.served.kinds frame made]
    rcases CaLink.onDelivery_cases positive frame with
      ⟨known, result⟩ | ⟨unknown, _, acquired, recorded, result⟩ |
        ⟨unknown, full, result⟩
    · rw [result]
      exact .duplicate made (DedupWindow.contains_iff.mp known)
    · rw [result]
      refine .routes made (fun known => ?_) acquired recorded
      rw [DedupWindow.contains_iff.mpr known] at unknown
      cases unknown
    · rw [result]
      exact .rejects made unknown full

theorem hears (linked : Linked network) {frame : LinkFrame} {rest : List LinkFrame}
    (connected : network.session = .connected) (next : network.toBroker = frame :: rest)
    (written : Option Nat) :
    Linked ({ network with toBroker := rest }.brokerRound (network.broker.onFrame frame)
      written) := by
  have heard := linked.heard next
  have inbound := linked.inbound
  have answers : ∀ answer ∈ rest, Answer network.cad.link answer := fun answer member =>
    linked.answers answer (by rw [next]; exact List.mem_cons_of_mem _ member)
  rw [connected] at inbound
  generalize network.broker.onFrame frame = round at heard ⊢
  cases heard with
  | completes kind done completed =>
      refine of_brokerRound linked.served (linked.asked.acknowledge frame.id) ?_ answers
        linked.dedup
      simpa using inbound.acknowledge linked.asked done
  | duplicate made known =>
      have receipt : Receipt network.broker.routed (LinkFrame.ack frame.id) :=
        ⟨rfl, linked.asked.acquired _ known⟩
      refine of_brokerRound linked.served linked.asked ?_ answers linked.dedup
      exact inbound.sent_receipt receipt written
  | routes made unknown acquired recorded =>
      have served := linked.served.route made
      have asked := linked.asked.route recorded
      have receipt : Receipt (network.broker.routed ++ [frame]) (LinkFrame.ack frame.id) :=
        ⟨rfl, frame, List.mem_append_right _ List.mem_cons_self, rfl⟩
      refine of_brokerRound served asked ?_ answers linked.dedup
      apply Inbound.sent_receipt _ receipt written
      exact inbound.of_same rfl rfl (fun _ => List.mem_append_left _)
  | rejects made unknown full =>
      have asked := linked.asked.with_router (Router.feeds_routeCaDelivery frame.payload)
      refine of_brokerRound linked.served asked ?_ answers linked.dedup
      rw [write_nil, List.append_nil]
      exact inbound.of_same rfl rfl (fun _ => id)

theorem takes (linked : Linked network) (connected : network.session = .connected)
    {id : MessageId} (unused : id ∉ network.used) (written : Option Nat) :
    Linked ({ network with used := network.used ++ [id] }.brokerRound
      (network.broker.takeRequest (some id)) written) := by
  have grown : ∀ other ∈ network.used, other ∈ network.used ++ [id] :=
    fun other member => List.mem_append_left _ member
  have served := linked.served.with_used grown
  have inbound := linked.inbound
  rw [connected] at inbound
  rcases CaLink.takeRequest_cases id linked.asked.short with ⟨result, _⟩ |
    ⟨request, rest, frame, pending, nothing, positive, waiting, kind, named, payload, maximum,
      entries, result⟩
  · rw [result]
    refine of_brokerRound served (linked.asked.with_used grown) ?_ linked.answers linked.dedup
    simpa using inbound
  · have fresh : frame.id ∉ processed network.cad.link.calls := by
      rw [named]
      exact fun done => unused (linked.asked.processed_used done)
    have kept : ∀ other ∈ rest, other ∈ network.broker.router.caRequests.frames :=
      fun other member => waiting ▸ List.mem_cons_of_mem _ member
    have asked := linked.asked.take unused kind named maximum positive entries kept
    rw [result, ← payload]
    refine of_brokerRound served asked ?_ linked.answers linked.dedup
    -- Nothing was pending, so nothing in flight was new to the CA.
    obtain ⟨front, back, split, old, new⟩ := inbound
    dsimp only
    rw [split]
    refine ⟨front ++ back, _, rfl, fun other member => ?_, fun other member => ?_⟩
    · rcases List.mem_append.mp member with first | second
      · exact old other first
      · exact (new other second).imp_right (fun held => absurd nothing (held.2.2 rfl))
    · have same := (write_front _ _).subset member
      rw [List.mem_singleton.mp same]
      refine .inr ⟨⟨kind, ?_⟩, fresh, fun _ => ?_⟩
      · simp [named]
      · rw [entries]
        nofun

theorem asks (linked : Linked network) (inside : network.session ≠ .out) (written : Option Nat) :
    Linked (network.brokerRound network.broker.resend written) := by
  refine of_brokerRound linked.served linked.asked ?_ linked.answers linked.dedup
  have inbound := linked.inbound
  cases session : network.session with
  | out => exact absurd session inside
  | waiting =>
      rw [linked.waiting session]
      exact Inbound.nil.resend linked.asked written
  | connected =>
      rw [session] at inbound
      exact inbound.resend linked.asked written

/-- An event keeps the invariant while the Broker's process goes on. -/
theorem effect (linked : Linked network) {later : Network ρ}
    (effect : Effect random network later) : Linked later := by
  cases effect with
  | idle => exact linked
  | accepts daemon sent out same part =>
      have answers := linked.pending_answers part
      rw [← same] at answers
      have served := linked.served
      have asked := linked.asked
      rw [← same] at served asked
      exact ⟨served, asked, .nil, answers, fun _ => rfl, linked.dedup⟩
  | sends daemon sent same part => exact linked.sends same (linked.pending_answers part)
  | reloads daemon candidate same =>
      obtain ⟨system, changed⟩ := network.cad.link.reload_eq candidate
      have served := linked.served.reload candidate
      rw [changed] at same served
      rw [← same] at served
      have calls : daemon.link.calls = network.cad.link.calls := by rw [same]
      have current : daemon.link.currentRequest = network.cad.link.currentRequest := by rw [same]
      have asked := linked.asked
      have inbound := linked.inbound
      rw [← calls] at asked inbound
      exact ⟨served, asked, inbound, fun frame member => (linked.answers frame member).of_same calls
        (.inr current), linked.waiting, linked.dedup⟩
  | receives daemon frame rest nowSeconds draws written next separate unused runs same =>
      obtain ⟨served, asked, inbound, kept, sent⟩ :=
        linked.handled (linked.received next nowSeconds separate unused runs)
      rw [← same] at served asked inbound kept sent
      refine ⟨served, asked, inbound, fun answer member => ?_, fun waiting => ?_, linked.dedup⟩
      · rcases List.mem_append.mp member with old | new
        · exact kept answer (linked.answers answer old)
        · exact sent answer ((write_front _ _).subset new)
      · have none := linked.waiting waiting
        rw [next] at none
        cases none
  | asks written inside => exact linked.asks inside written
  | hears frame rest written connected next => exact linked.hears connected next written
  | takes id written connected unused => exact linked.takes connected unused written
  | cuts =>
      exact ⟨linked.served, linked.asked, linked.inbound.out, linked.answers, nofun, linked.dedup⟩
  | threads router feeds =>
      exact ⟨linked.served, linked.asked.with_router feeds,
        linked.inbound.of_same rfl rfl (fun _ => id), linked.answers, linked.waiting,
        linked.dedup⟩

theorem brokerRestarts (linked : Linked network) : Linked (network.step random .brokerRestarts) := by
  refine ⟨linked.served, linked.asked.restart, ?_, linked.answers, nofun, linked.dedup⟩
  obtain ⟨front, back, split, old, new⟩ := linked.inbound
  refine ⟨front, back, split, old, fun frame member => (new frame member).imp_right ?_⟩
  rintro ⟨last, fresh, _⟩
  exact ⟨last, fresh, nofun⟩

theorem step (linked : Linked network) {event : Event} (proper : network.Proper random event) :
    Linked (network.step random event) := by
  cases restarts : event.restarts with
  | false => exact linked.effect (proper.effect restarts)
  | true =>
      cases event <;> cases restarts
      exact linked.brokerRestarts

end Linked

/-! ## Runs -/

/-- Both processes have just started, with room for at least one id in either window. -/
structure Starts {ρ : Type} (network : Network ρ) : Prop where
  daemon : ∃ config authority snapshot readFails rng,
    startup config authority snapshot readFails rng = .ok network.cad ∧
      0 < config.brokerDedupEntries
  initial : network = .start network.config network.cad
  dedup : 0 < network.config.caDedupDepth

theorem Starts.calls {ρ : Type} {network : Network ρ} (starts : Starts network) :
    network.cad.link.calls = [] := by
  obtain ⟨⟨_, _, _, _, _, started, positive⟩, _⟩ := starts
  exact (served_startup started positive).2

theorem linked_start {ρ : Type} {network : Network ρ} (starts : Starts network) :
    Linked network := by
  obtain ⟨⟨config, authority, snapshot, readFails, rng, started, positive⟩, initial, dedup⟩ := starts
  obtain ⟨served, none⟩ := served_startup started positive
  rw [initial] at dedup ⊢
  refine ⟨served, ?_, .nil, nofun, fun _ => rfl, dedup⟩
  change Asked network.config network.cad.link.calls (network.config.start [] []) []
  rw [none]
  exact asked_start

/-- The invariant of the link holds in every state that a proper run reaches. -/
theorem linked_run {ρ : Type} (random : CryptoRandom ρ) {network : Network ρ}
    (starts : Starts network) {events : List Event}
    (proper : Machine.Along (Network.step random) (Network.Proper random) network events) :
    Linked (Machine.run (Network.step random) network events) :=
  proper.preserves Linked (fun _ _ linked fits => linked.step fits) (linked_start starts)

/-! ## A sample network -/

namespace Sample

def config : BrokerConfig := ⟨4, 4, 4, 8, 1⟩

def network (daemon : Daemon Nat) : Network Nat := .start config daemon

/-- Agents send the requests that precede the sample publication, and then that. -/
def agents : List Event :=
  (List.zip [1, 2, 3, 2, 3, 1] Cad.Sample.requests).map (fun (number, request) =>
    .agentSends (Authority.Sample.agent number).id request)

/-- The next request is taken under the id of a number and the CA handles it. -/
def exchange (number : UInt8) (draws : List MessageId) : List Event :=
  [.brokerTakes (some (Cad.Sample.id number)) none, .caReceives 10 draws none]

def session : List Event := [.accept none, .connect none]

theorem starts {daemon : Daemon Nat} (started : Cad.Sample.started = .ok daemon) :
    Starts (network daemon) :=
  ⟨⟨_, _, _, _, _, started, by decide⟩, rfl, show 0 < config.caDedupDepth by decide⟩

end Sample

end SecurePubSub.BrokerCa
