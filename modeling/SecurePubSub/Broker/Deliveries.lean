import SecurePubSub.Broker.Lines

namespace SecurePubSub.Broker

open SecurePubSub.Data SecurePubSub.Protocol

/-! What becomes of accepted deliveries in the Broker.

Order, bounds and the absence of duplicates hold in every run. A delivery is lost
exactly when a session disconnects with more frames than the offline queue holds.
-/

namespace Brokerd

variable {broker : Brokerd}

/-! ## Conservation -/

/-- Every delivery accepted for an Agent was handed out to it or still waits for it. -/
def Conserved (broker : Brokerd) (agent : AgentId) : Prop :=
  ∀ frame, (broker.accepted agent).count frame ≤
    (broker.handedOut agent).count frame + (broker.waiting agent).count frame

/-- A session of the Agent that disconnects finds room for all it holds in the offline queue. -/
def RoomToRequeue (agent : AgentId) (broker : Brokerd) : Operation → Prop
  | .disconnect place writeFailed =>
      ∀ session, broker.active place = some session → session.registration.identity = agent →
        (session.undelivered writeFailed).toList.length + session.registration.pending.length +
            (broker.router.channel place).frames.length +
            (broker.router.offline.queue agent).length ≤ broker.router.offline.depth
  | _ => True

theorem conserved_iff {agent : AgentId} (ordered : (broker.line agent).Ordered) :
    broker.Conserved agent ↔ (broker.line agent).missing = 0 :=
  Line.conserved_iff_missing ordered

namespace Consistent

theorem ordered_step (consistent : broker.Consistent) {agent : AgentId}
    (ordered : (broker.line agent).Ordered) (operation : Operation) :
    ((broker.step operation).line agent).Ordered := by
  rw [consistent.line_step]
  exact ordered.run _

/-- A disconnection cuts the line of its Agent exactly when there is no room to requeue. -/
theorem missing_disconnect (consistent : broker.Consistent) {agent : AgentId}
    (ordered : (broker.line agent).Ordered) (place : Nat) (writeFailed : Bool) :
    ((broker.step (.disconnect place writeFailed)).line agent).missing = 0 ↔
      (broker.line agent).missing = 0 ∧
        RoomToRequeue agent broker (.disconnect place writeFailed) := by
  rw [consistent.line_step]
  cases found : broker.active place with
  | none => simp [moves, found, RoomToRequeue]
  | some session =>
      simp only [moves, found, RoomToRequeue, Option.some.injEq, forall_eq']
      by_cases same : session.registration.identity = agent
      · subst same
        have waiting := consistent.waiting_of_active found
        have stored := consistent.unstored (consistent.connected found)
        simp only [forall_const, if_true, stored, List.length_nil, Nat.add_zero]
        cases undelivered : session.undelivered writeFailed with
        | none =>
            obtain ⟨grows, cuts⟩ :=
              Line.missing_move ordered (.keep broker.router.offline.depth)
            simp only [Line.Cuts, line, waiting, List.length_append] at cuts
            simp only [Option.isSome_none, Bool.false_eq_true, if_false, List.nil_append,
              Line.run_cons, Line.run_nil, Option.toList_none, List.length_nil]
            simp only [line, waiting] at grows ⊢
            omega
        | some frame =>
            have dequeued := Session.dequeued_of_undelivered undelivered
            obtain ⟨earlier, last⟩ := consistent.dequeued found dequeued
            obtain ⟨growsBack, cutsBack⟩ := Line.missing_move ordered .giveBack
            have orderedBack := ordered.move .giveBack
            obtain ⟨grows, cuts⟩ :=
              Line.missing_move orderedBack (.keep broker.router.offline.depth)
            rw [Line.move_giveBack last] at grows cuts cutsBack growsBack
            simp only [Line.Cuts, line, waiting, List.length_append, List.length_cons,
              false_iff] at cuts cutsBack growsBack grows
            simp only [Option.isSome_some, if_true, List.cons_append, List.nil_append,
              Line.run_cons, Line.run_nil, Option.toList_some, List.length_cons, List.length_nil]
            rw [Line.move_giveBack last]
            simp only [line, waiting] at cuts cutsBack growsBack grows ⊢
            omega
      · simp [same]

theorem missing_step (consistent : broker.Consistent) {agent : AgentId}
    (ordered : (broker.line agent).Ordered) (operation : Operation) :
    ((broker.step operation).line agent).missing = 0 ↔
      (broker.line agent).missing = 0 ∧ RoomToRequeue agent broker operation := by
  have keeps (made : Move Bytes) (uncut : ¬ (broker.line agent).Cuts made) :
      ((broker.line agent).move made).missing = (broker.line agent).missing := by
    obtain ⟨grows, cuts⟩ := Line.missing_move ordered made
    have same := mt cuts.mpr uncut
    omega
  cases operation with
  | register identity => simp [consistent.line_register, RoomToRequeue]
  | route frame =>
      rw [consistent.line_step]
      simp only [moves, RoomToRequeue, and_true]
      split
      · simp [keeps (.accept frame) (fun cut => cut)]
      · rfl
  | receive place =>
      rw [consistent.line_step]
      simp only [moves, RoomToRequeue, and_true]
      split
      · rfl
      · split
        · simp [keeps .handOut (fun cut => cut)]
        · rfl
  | disconnect place writeFailed => exact consistent.missing_disconnect ordered place writeFailed
  | drop place => simp [consistent.line_drop, RoomToRequeue]

theorem missing_run (consistent : broker.Consistent) {agent : AgentId}
    (ordered : (broker.line agent).Ordered) (operations : List Operation) :
    ((Machine.run Brokerd.step broker operations).line agent).missing = 0 ↔
      (broker.line agent).missing = 0 ∧
        Machine.Along Brokerd.step (RoomToRequeue agent) broker operations := by
  induction operations generalizing broker with
  | nil => simp [Machine.Along]
  | cons first rest ih =>
      have next := ih (consistent.step first) (consistent.ordered_step ordered first)
      rw [Machine.run_cons, next, consistent.missing_step ordered]
      simp [Machine.Along, and_assoc]

theorem ordered_run (consistent : broker.Consistent) {agent : AgentId}
    (ordered : (broker.line agent).Ordered) (operations : List Operation) :
    ((Machine.run Brokerd.step broker operations).line agent).Ordered := by
  induction operations generalizing broker with
  | nil => exact ordered
  | cons first rest ih => exact ih (consistent.step first) (consistent.ordered_step ordered first)

end Consistent

theorem line_start (maximum onlineDepth offlineDepth caQueueDepth : Nat) (agent : AgentId) :
    (start maximum onlineDepth offlineDepth caQueueDepth).line agent = .start := rfl

/-- Deliveries are conserved in every state of a run exactly when every session that disconnected
in it could requeue all it held. -/
theorem deliveries_conserved_iff (maximum onlineDepth offlineDepth caQueueDepth : Nat)
    (operations : List Operation) (agent : AgentId) :
    (∀ before after, operations = before ++ after →
      (Machine.run step (start maximum onlineDepth offlineDepth caQueueDepth) before).Conserved
        agent) ↔
    Machine.Along step (RoomToRequeue agent)
      (start maximum onlineDepth offlineDepth caQueueDepth) operations := by
  have consistent := Consistent.start maximum onlineDepth offlineDepth caQueueDepth
  have ordered :
      ((start maximum onlineDepth offlineDepth caQueueDepth).line agent).Ordered :=
    Line.Ordered.start
  have reached (before : List Operation) :
      (Machine.run step (start maximum onlineDepth offlineDepth caQueueDepth) before).Conserved
          agent ↔
        Machine.Along step (RoomToRequeue agent)
          (start maximum onlineDepth offlineDepth caQueueDepth) before := by
    rw [conserved_iff (consistent.ordered_run ordered before), consistent.missing_run ordered]
    simp [line_start, Line.missing, Line.start, Line.known]
  constructor
  · intro always
    exact (reached operations).mp (always operations [] (List.append_nil _).symm)
  · intro along before after split
    rw [split, Machine.along_append] at along
    exact (reached before).mpr along.1

/-- A session that captured stored deliveries and then received live ones can hold more than the
offline queue takes back. -/
theorem requeued_delivery_lost : ¬ ∀ (maximum onlineDepth offlineDepth caQueueDepth : Nat),
    0 < maximum → 0 < onlineDepth → 0 < offlineDepth → 0 < caQueueDepth →
    ∀ (operations : List Operation) (agent : AgentId),
      (Machine.run step (start maximum onlineDepth offlineDepth caQueueDepth)
        operations).Conserved agent := by
  intro always
  let operations : List Operation :=
    [.route (sampleDelivery 1), .register sampleAgent, .route (sampleDelivery 2),
      .disconnect 0 false]
  have lost := always 1 1 1 1 Nat.one_pos Nat.one_pos Nat.one_pos Nat.one_pos operations
    sampleAgent (sampleDelivery 2)
  revert lost
  decide +kernel

/-! ## Order and bounds -/

/-- A call by a session that has disconnected already. -/
inductive LateCall where
  | unregister (place : Nat)
  | disconnectAndRequeue (place : Nat) (first : Option Bytes)

def late (broker : Brokerd) : LateCall → Brokerd
  | .unregister place =>
      match broker.sessions[place]? with
      | some session =>
          if session.ended then
            { broker with
              router := broker.router.unregister session.registration.identity
                session.registration.generation }
          else broker
      | none => broker
  | .disconnectAndRequeue place first =>
      match broker.sessions[place]? with
      | some session =>
          if session.ended then
            let (_, later, router) :=
              broker.router.disconnectAndRequeue session.registration first
            { broker with
              router
              sessions := broker.sessions.set place { session with registration := later } }
          else broker
      | none => broker

inductive Call where
  | operation (made : Operation)
  | late (made : LateCall)

def call (broker : Brokerd) : Call → Brokerd
  | .operation made => broker.step made
  | .late made => broker.late made

/-- Generations number the registrations. -/
structure Numbered (broker : Brokerd) : Prop where
  next : broker.router.generation = (broker.sessions.length + 1) % 2 ^ 64
  generation : ∀ ⦃place : Nat⦄ ⦃session : Session⦄, broker.sessions[place]? = some session →
    session.registration.generation = (place + 1) % 2 ^ 64

/-- No queue holds more than its depth. -/
structure Bounded (onlineDepth offlineDepth : Nat) (broker : Brokerd) : Prop where
  capacity : broker.router.onlineDepth = onlineDepth
  depth : broker.router.offline.depth = offlineDepth
  online : ∀ place, (broker.router.channel place).capacity ≤ onlineDepth ∧
    (broker.router.channel place).frames.length ≤ onlineDepth
  offline : ∀ agent, (broker.router.offline.queue agent).length ≤ offlineDepth

theorem numbered_set (numbered : broker.Numbered) {place : Nat} {session later : Session}
    (found : broker.active place = some session)
    (same : later.registration.generation = session.registration.generation) {router : Router}
    (kept : router.generation = broker.router.generation)
    (accepted handedOut : AgentId → List Bytes) :
    (⟨router, broker.sessions.set place later, accepted, handedOut⟩ : Brokerd).Numbered := by
  constructor
  · rw [kept, List.length_set]
    exact numbered.next
  · intro other another listed
    simp only [List.getElem?_set] at listed
    split at listed
    · rename_i here
      rw [if_pos (active_lt found)] at listed
      cases listed
      rw [same, ← here]
      exact numbered.generation (active_eq_some.mp found).1
    · exact numbered.generation listed

theorem numbered_step (consistent : broker.Consistent) (numbered : broker.Numbered)
    (operation : Operation) : (broker.step operation).Numbered := by
  cases operation with
  | register identity =>
      rcases broker.router.register_cases identity with ⟨fault, refused⟩ | ⟨_, _, registered⟩
      · simp only [step, refused]
        exact numbered
      · simp only [step, registered]
        constructor
        · simp [numbered.next]
        · intro place session listed
          rw [List.getElem?_append] at listed
          split at listed
          · exact numbered.generation listed
          · obtain ⟨inside, rfl⟩ := List.getElem?_eq_some_iff.mp listed
            have last : place = broker.sessions.length := by
              simp only [List.length_singleton] at inside
              omega
            simp [last, numbered.next]
  | route frame =>
      have same : (broker.router.routeCaDelivery frame).2.generation = broker.router.generation := by
        rcases consistent.route_cases frame with
          ⟨_, same⟩ | ⟨_, _, _, _, _, sent⟩ | ⟨_, _, _, _, kept, _⟩
        · rw [same]
        · rw [sent]
          rfl
        · rw [kept]
      exact ⟨same.trans numbered.next, numbered.generation⟩
  | receive place =>
      cases found : broker.active place with
      | none =>
          simp only [step, found]
          exact numbered
      | some session =>
          rcases consistent.receive_cases found with ⟨same, _⟩ | ⟨_, _, _, _, _, received⟩
          · rw [same]
            exact numbered
          · rw [received]
            refine numbered_set numbered found ?_ ?_ _ _ <;> rfl
  | disconnect place writeFailed =>
      cases found : broker.active place with
      | none =>
          simp only [step, found]
          exact numbered
      | some session =>
          rw [consistent.step_disconnect found]
          refine numbered_set numbered found ?_ ?_ _ _ <;> rfl
  | drop place =>
      simp only [step]
      split
      · split
        · exact ⟨numbered.next, numbered.generation⟩
        · exact numbered
      · exact numbered

section Bounds

variable {onlineDepth offlineDepth : Nat}

/-- Filling one channel within its capacity and leaving the offline queues alone. -/
theorem Bounded.of_channel (bounded : broker.Bounded onlineDepth offlineDepth) {later : Brokerd}
    {place : Nat} {frames : List Bytes} {closed : Bool}
    (inside : place < broker.router.channels.length)
    (within : frames.length ≤ onlineDepth)
    (channels : ∀ other, later.router.channel other =
      (broker.router.setChannel place
        ⟨(broker.router.channel place).capacity, frames, closed⟩).channel other)
    (capacity : later.router.onlineDepth = broker.router.onlineDepth)
    (depth : later.router.offline.depth = broker.router.offline.depth)
    (offline : ∀ agent, (later.router.offline.queue agent).length ≤ offlineDepth) :
    later.Bounded onlineDepth offlineDepth := by
  constructor
  · rw [capacity, bounded.capacity]
  · rw [depth, bounded.depth]
  · intro other
    rw [channels, Router.channel_setChannel inside]
    split
    · exact ⟨(bounded.online place).1, within⟩
    · exact bounded.online other
  · exact offline

theorem bounded_register (bounded : broker.Bounded onlineDepth offlineDepth)
    (identity : AgentId) : (broker.step (.register identity)).Bounded onlineDepth offlineDepth := by
  rcases broker.router.register_cases identity with ⟨fault, refused⟩ | ⟨_, _, registered⟩
  · simp only [step, refused]
    exact bounded
  · simp only [step, registered]
    refine ⟨bounded.capacity, bounded.depth, fun place => ?_, fun agent => ?_⟩
    · have old := bounded.online place
      simp only [Router.channel, List.getD_eq_getElem?_getD, List.getElem?_append] at old ⊢
      split
      · rename_i inside
        simpa [inside] using old
      · cases place - broker.router.channels.length with
        | zero => simp [Channel.new, bounded.capacity]
        | succ beyond => simp
    · rw [MemoryOfflineQueueStore.queue_take]
      split
      · exact Nat.zero_le _
      · exact bounded.offline agent

theorem bounded_route (consistent : broker.Consistent)
    (bounded : broker.Bounded onlineDepth offlineDepth) (frame : Bytes) :
    (broker.step (.route frame)).Bounded onlineDepth offlineDepth := by
  simp only [step]
  rcases consistent.route_cases frame with
    ⟨_, same⟩ | ⟨_, connection, _, online, room, sent⟩ |
      ⟨recipient, stored, _, _, kept, room, depth, queues⟩
  · rw [same]
    exact ⟨bounded.capacity, bounded.depth, bounded.online, bounded.offline⟩
  · rw [sent]
    have capacity := (bounded.online connection.sender).1
    refine bounded.of_channel (consistent.sender_lt online) ?_ (fun _ => rfl) rfl rfl
      bounded.offline
    simp only [List.length_append, List.length_singleton]
    omega
  · rw [kept]
    refine ⟨bounded.capacity, depth.trans bounded.depth, bounded.online, fun agent => ?_⟩
    simp only [queues]
    split
    · have depth := bounded.depth
      simp only [List.length_append, List.length_singleton]
      omega
    · exact bounded.offline agent

theorem bounded_step (consistent : broker.Consistent)
    (bounded : broker.Bounded onlineDepth offlineDepth) (operation : Operation) :
    (broker.step operation).Bounded onlineDepth offlineDepth := by
  cases operation with
  | register identity => exact bounded_register bounded identity
  | route frame => exact bounded_route consistent bounded frame
  | receive place =>
      cases found : broker.active place with
      | none =>
          simp only [step, found]
          exact bounded
      | some session =>
          rcases consistent.receive_cases found with
            ⟨same, _⟩ | ⟨frame, pending, rest, _, shorter, received⟩
          · rw [same]
            exact bounded
          · rw [received]
            exact bounded.of_channel (consistent.inside_of_active found)
              (shorter.length_le.trans (bounded.online place).2) (fun _ => rfl) rfl rfl
              bounded.offline
  | disconnect place writeFailed =>
      cases found : broker.active place with
      | none =>
          simp only [step, found]
          exact bounded
      | some session =>
          rw [consistent.step_disconnect found]
          refine bounded.of_channel (consistent.inside_of_active found) (Nat.zero_le _)
            (fun _ => rfl) rfl rfl (fun agent => ?_)
          rw [MemoryOfflineQueueStore.queue_prepend]
          split
          · rw [← bounded.depth]
            exact List.length_take_le _ _
          · exact bounded.offline agent
  | drop place =>
      simp only [step]
      cases listed : broker.sessions[place]? with
      | none => exact bounded
      | some session =>
          simp only
          split
          · have inside : session.registration.receiver < broker.router.channels.length := by
              rw [consistent.receiver listed, consistent.channels]
              exact (List.getElem?_eq_some_iff.mp listed).1
            exact bounded.of_channel inside (bounded.online _).2 (fun _ => rfl) rfl rfl
              bounded.offline
          · exact bounded

end Bounds

/-- The generation of a session that has disconnected is stale. -/
theorem current_of_ended (consistent : broker.Consistent) (numbered : broker.Numbered)
    (fewer : broker.sessions.length < 2 ^ 64) {place : Nat} {session : Session}
    (listed : broker.sessions[place]? = some session) (ended : session.ended = true) :
    broker.router.current session.registration.identity session.registration.generation = false := by
  rw [Bool.eq_false_iff]
  intro current
  obtain ⟨connection, online, generation⟩ := Router.current_eq_true.mp current
  obtain ⟨another, found, _, same⟩ := consistent.online online
  obtain ⟨foundOther, unended⟩ := active_eq_some.mp found
  have inside : place < broker.sessions.length := (List.getElem?_eq_some_iff.mp listed).1
  have insideOther := active_lt found
  have here := numbered.generation listed
  have there := numbered.generation foundOther
  have places : connection.sender = place := by omega
  rw [places, listed] at foundOther
  cases foundOther
  rw [ended] at unended
  cases unended

/-- A late call changes nothing. -/
theorem late_eq (consistent : broker.Consistent) (numbered : broker.Numbered)
    (fewer : broker.sessions.length < 2 ^ 64) (made : LateCall) : broker.late made = broker := by
  cases made with
  | unregister place =>
      simp only [late]
      split
      · rename_i session listed
        split
        · rename_i ended
          simp [Router.unregister, current_of_ended consistent numbered fewer listed ended]
        · rfl
      · rfl
  | disconnectAndRequeue place first =>
      simp only [late]
      split
      · rename_i session listed
        split
        · rename_i ended
          have stale := current_of_ended consistent numbered fewer listed ended
          obtain ⟨inside, same⟩ := List.getElem?_eq_some_iff.mp listed
          have unchanged :
              broker.router.disconnectAndRequeue session.registration first =
                (.ok (), session.registration, broker.router) := by
            simp [Router.disconnectAndRequeue, stale]
          have kept : broker.sessions.set place session = broker.sessions := by
            rw [← same]
            exact List.set_getElem_self inside
          simp only [unchanged, kept]
        · rfl
      · rfl

theorem sessions_call (made : Call) :
    broker.sessions.length ≤ (broker.call made).sessions.length := by
  cases made with
  | operation made =>
      cases made with
      | register identity =>
          rcases broker.router.register_cases identity with ⟨fault, refused⟩ | ⟨_, _, registered⟩
          · simp [call, step, refused]
          · simp [call, step, registered]
      | route frame => exact Nat.le_refl _
      | receive place =>
          simp only [call, step]
          split
          · exact Nat.le_refl _
          · split <;> simp
      | disconnect place writeFailed =>
          simp only [call, step]
          split <;> simp
      | drop place =>
          simp only [call, step]
          split
          · split <;> exact Nat.le_refl _
          · exact Nat.le_refl _
  | late made =>
      cases made with
      | unregister place =>
          simp only [call, late]
          split
          · split <;> exact Nat.le_refl _
          · exact Nat.le_refl _
      | disconnectAndRequeue place first =>
          simp only [call, late]
          split
          · split <;> simp
          · exact Nat.le_refl _

/-- What holds of the Broker as long as generations do not repeat. -/
structure Sound (onlineDepth offlineDepth : Nat) (broker : Brokerd) : Prop where
  consistent : broker.Consistent
  numbered : broker.Numbered
  bounded : broker.Bounded onlineDepth offlineDepth
  ordered : ∀ agent, (broker.line agent).Ordered

theorem Sound.call {onlineDepth offlineDepth : Nat} (sound : broker.Sound onlineDepth offlineDepth)
    (fewer : broker.sessions.length < 2 ^ 64) (made : Call) :
    (broker.call made).Sound onlineDepth offlineDepth := by
  obtain ⟨consistent, numbered, bounded, ordered⟩ := sound
  cases made with
  | operation made =>
      exact ⟨consistent.step made, numbered_step consistent numbered made,
        bounded_step consistent bounded made,
        fun agent => consistent.ordered_step (ordered agent) made⟩
  | late made =>
      have same : broker.call (.late made) = broker := late_eq consistent numbered fewer made
      rw [same]
      exact ⟨consistent, numbered, bounded, ordered⟩

theorem sound_start (maximum onlineDepth offlineDepth caQueueDepth : Nat) :
    (start maximum onlineDepth offlineDepth caQueueDepth).Sound onlineDepth offlineDepth := by
  refine ⟨.start maximum onlineDepth offlineDepth caQueueDepth, ⟨rfl, nofun⟩, ⟨rfl, rfl, ?_, ?_⟩,
    fun agent => .start⟩
  · intro place
    simp [start, Router.withLimits, Router.channel]
  · intro agent
    exact Nat.zero_le _

/-- In every run, late calls included, each Agent is handed deliveries in the order of their
acceptance and none twice, the queues stay within their depths, and late calls change nothing. -/
theorem deliveries_in_order (maximum onlineDepth offlineDepth caQueueDepth : Nat)
    (calls : List Call)
    (fewer : (Machine.run call (start maximum onlineDepth offlineDepth caQueueDepth)
      calls).sessions.length < 2 ^ 64) :
    let broker := Machine.run call (start maximum onlineDepth offlineDepth caQueueDepth) calls
    (∀ agent, (broker.handedOut agent).Sublist (broker.accepted agent)) ∧
      (∀ agent, broker.router.offlineLen agent ≤ offlineDepth) ∧
      (∀ agent connection, broker.router.connections.get agent = some connection →
        (broker.router.channel connection.sender).frames.length ≤ onlineDepth) ∧
      ∀ stale, broker.late stale = broker := by
  intro broker
  have sound : broker.sessions.length < 2 ^ 64 → broker.Sound onlineDepth offlineDepth := by
    refine Machine.run_preserves
      (fun reached : Brokerd =>
        reached.sessions.length < 2 ^ 64 → reached.Sound onlineDepth offlineDepth)
      ?_ (fun _ => sound_start maximum onlineDepth offlineDepth caQueueDepth)
    intro current made holds few
    have before : current.sessions.length < 2 ^ 64 := (sessions_call made).trans_lt few
    exact (holds before).call before made
  obtain ⟨consistent, numbered, bounded, ordered⟩ := sound fewer
  exact ⟨fun agent => (ordered agent).handedOut, bounded.offline,
    fun _ connection _ => (bounded.online connection.sender).2,
    late_eq consistent numbered fewer⟩

def sampleCalls : List Call :=
  [.operation (.route (sampleDelivery 1)), .operation (.register sampleAgent),
    .operation (.receive 0), .operation (.disconnect 0 true),
    .operation (.register sampleAgent), .late (.disconnectAndRequeue 0 none),
    .operation (.receive 1)]

theorem sample_deliveries_in_order :
    let broker := Machine.run call (start 1 1 1 1) sampleCalls
    (∀ agent, (broker.handedOut agent).Sublist (broker.accepted agent)) ∧
      (∀ agent, broker.router.offlineLen agent ≤ 1) ∧
      (∀ agent connection, broker.router.connections.get agent = some connection →
        (broker.router.channel connection.sender).frames.length ≤ 1) ∧
      ∀ stale, broker.late stale = broker :=
  deliveries_in_order 1 1 1 1 sampleCalls (by decide +kernel)

end Brokerd

end SecurePubSub.Broker
