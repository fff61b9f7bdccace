import SecurePubSub.Broker.Sessions

namespace SecurePubSub.Broker

open SecurePubSub.Data SecurePubSub.Protocol

/-! Each operation of the Broker moves the waiting line of each Agent.

A registration carries the line over unchanged, a routed delivery joins it at the
back, a session takes from its front, and a disconnection returns the failed frame
to the front and keeps what the offline queue has room for.
-/

namespace Brokerd

variable {broker later : Brokerd}

/-- A line stays as it is when the parts it is read from stay. -/
theorem waiting_congr {agent : AgentId}
    (connections : later.router.connections.get agent = broker.router.connections.get agent)
    (captured : ∀ connection, broker.router.connections.get agent = some connection →
      later.captured connection = broker.captured connection)
    (frames : ∀ connection, broker.router.connections.get agent = some connection →
      (later.router.channel connection.sender).frames =
        (broker.router.channel connection.sender).frames)
    (queue : later.router.offline.queue agent = broker.router.offline.queue agent) :
    later.waiting agent = broker.waiting agent := by
  unfold waiting
  rw [connections, queue]
  cases online : broker.router.connections.get agent with
  | none => rfl
  | some connection => simp only [captured connection online, frames connection online]

namespace Consistent

/-- The channel of one Agent is not that of another Agent's session. -/
theorem sender_ne (consistent : broker.Consistent) {place : Nat} {session : Session}
    (found : broker.active place = some session) {agent : AgentId} {connection : Connection}
    (online : broker.router.connections.get agent = some connection)
    (other : session.registration.identity ≠ agent) : connection.sender ≠ place := by
  rintro rfl
  obtain ⟨another, foundOther, identified, _⟩ := consistent.online online
  rw [found] at foundOther
  cases foundOther
  exact other identified

theorem line_register (consistent : broker.Consistent) (identity agent : AgentId) :
    (broker.step (.register identity)).line agent = broker.line agent := by
  rcases broker.router.register_cases identity with ⟨fault, refused⟩ | ⟨absent, _, registered⟩
  · simp only [Brokerd.step, refused]
  · simp only [Brokerd.step, registered, line, Line.mk.injEq, true_and]
    by_cases same : agent = identity
    · subst same
      simp [waiting, captured, absent, consistent.channels, Router.channel, Channel.new]
    · apply waiting_congr
      · simp [same]
      · intro connection online
        have inside := consistent.sender_lt online
        rw [consistent.channels] at inside
        simp [captured, List.getElem?_append_left inside]
      · intro connection online
        have inside := consistent.sender_lt online
        simp [Router.channel, List.getElem?_append_left inside]
      · simp [same]

theorem line_route (consistent : broker.Consistent) (frame : Bytes) (agent : AgentId) :
    (broker.step (.route frame)).line agent =
      (broker.line agent).run (broker.moves agent (.route frame)) := by
  rcases consistent.route_cases frame with
    ⟨refused, same⟩ | ⟨recipient, connection, accepted, online, _, sent⟩ |
      ⟨recipient, stored, accepted, offline, kept, _, _, queues⟩
  · simp [Brokerd.step, moves, refused, same, line, waiting, captured]
  · by_cases same : recipient = agent
    · subst same
      have inside := consistent.sender_lt online
      have empty := consistent.unstored online
      simp [Brokerd.step, moves, accepted, sent, line, waiting, captured, online, Line.move,
        Router.channel_setChannel inside, empty]
    · simp only [Brokerd.step, moves, accepted, sent, Option.some.injEq, if_neg same, Line.run_nil,
        line, List.append_nil, Line.mk.injEq, true_and]
      refine waiting_congr rfl (fun _ _ => rfl) ?_ rfl
      intro other onlineOther
      obtain ⟨session, found, identified, _⟩ := consistent.online online
      have apart := consistent.sender_ne found onlineOther (identified ▸ same)
      simp only [Router.channel_setChannel (consistent.sender_lt online), if_neg apart]
  · by_cases same : recipient = agent
    · subst same
      simp [Brokerd.step, moves, accepted, kept, line, waiting, offline, Line.move, queues]
    · simp only [Brokerd.step, moves, accepted, kept, Option.some.injEq, if_neg same, Line.run_nil,
        line, List.append_nil, Line.mk.injEq, true_and]
      refine waiting_congr rfl (fun _ _ => rfl) (fun _ _ => rfl) ?_
      simp only [queues, if_neg (Ne.symm same)]

theorem line_receive (consistent : broker.Consistent) (place : Nat) (agent : AgentId) :
    (broker.step (.receive place)).line agent =
      (broker.line agent).run (broker.moves agent (.receive place)) := by
  cases found : broker.active place with
  | none => simp [Brokerd.step, moves, found]
  | some session =>
      have connected := consistent.connected found
      have listed := (active_eq_some.mp found).1
      have waiting := consistent.waiting_of_active found
      rcases consistent.receive_cases found with
        ⟨same, captured, live⟩ | ⟨frame, pending, rest, split, _, received⟩
      · rw [same]
        simp only [moves, found]
        split
        · rename_i same
          subst same
          rw [captured, live] at waiting
          simp [Line.move, line, waiting]
        · rfl
      · rw [received]
        simp only [moves, found]
        split
        · rename_i same
          subst same
          rw [split] at waiting
          have inside := consistent.inside_of_active found
          have before : broker.line session.registration.identity =
              ⟨broker.accepted session.registration.identity,
                broker.handedOut session.registration.identity, frame :: (pending ++ rest)⟩ := by
            rw [line, waiting]
          rw [before]
          simp [Line.move, line, Brokerd.waiting, captured, connected,
            List.getElem?_set_self (active_lt found), Router.channel_setChannel inside,
            consistent.unstored connected]
        · rename_i other
          simp only [line, Line.run_nil, if_neg (Ne.symm other), List.append_nil, Line.mk.injEq,
            true_and]
          refine waiting_congr rfl ?_ ?_ rfl
          · intro connection online
            have apart := consistent.sender_ne found online other
            simp [captured, List.getElem?_set_ne apart.symm]
          · intro connection online
            have apart := consistent.sender_ne found online other
            simp only [Router.channel_setChannel (consistent.inside_of_active found), if_neg apart]

theorem line_disconnect (consistent : broker.Consistent) (place : Nat) (writeFailed : Bool)
    (agent : AgentId) :
    (broker.step (.disconnect place writeFailed)).line agent =
      (broker.line agent).run (broker.moves agent (.disconnect place writeFailed)) := by
  cases found : broker.active place with
  | none => simp [Brokerd.step, moves, found]
  | some session =>
      have connected := consistent.connected found
      have waiting := consistent.waiting_of_active found
      rw [consistent.step_disconnect found]
      simp only [moves, found]
      split
      · rename_i same
        subst same
        have stored := consistent.unstored connected
        have before : broker.line session.registration.identity =
            ⟨broker.accepted session.registration.identity,
              broker.handedOut session.registration.identity,
              session.registration.pending ++ (broker.router.channel place).frames⟩ := by
          rw [line, waiting]
        rw [before]
        cases undelivered : session.undelivered writeFailed with
        | none =>
            simp [line, Line.move, Brokerd.waiting, SortedMap.get_erase, stored]
        | some frame =>
            have dequeued := Session.dequeued_of_undelivered undelivered
            obtain ⟨earlier, last⟩ := consistent.dequeued found dequeued
            simp [line, Line.move, Brokerd.waiting, SortedMap.get_erase, stored, last]
      · rename_i other
        simp only [line, Line.run_nil, Ne.symm other, false_and, if_false, Line.mk.injEq, true_and]
        apply waiting_congr
        · simp [SortedMap.get_erase, Ne.symm other]
        · intro connection online
          have apart := consistent.sender_ne found online other
          simp [captured, List.getElem?_set_ne apart.symm]
        · intro connection online
          have apart := consistent.sender_ne found online other
          have same := Router.channel_setChannel (consistent.inside_of_active found)
            { broker.router.channel place with frames := [] } connection.sender
          rw [if_neg apart] at same
          exact congrArg Channel.frames same
        · simp [Ne.symm other]

theorem line_drop (consistent : broker.Consistent) (place : Nat) (agent : AgentId) :
    (broker.step (.drop place)).line agent = broker.line agent := by
  simp only [Brokerd.step]
  cases listed : broker.sessions[place]? with
  | none => rfl
  | some session =>
      simp only
      split
      · have receiver := consistent.receiver listed
        have inside : place < broker.router.channels.length := by
          rw [consistent.channels]
          exact (List.getElem?_eq_some_iff.mp listed).1
        simp only [line, Line.mk.injEq, true_and]
        refine waiting_congr rfl (fun _ _ => rfl) ?_ rfl
        intro connection online
        simp only [receiver, Router.dropReceiver, Router.channel_setChannel inside]
        split
        · rename_i same
          rw [same]
        · rfl
      · rfl

/-- Every operation moves the line of every Agent. -/
theorem line_step (consistent : broker.Consistent) (operation : Operation) (agent : AgentId) :
    (broker.step operation).line agent =
      (broker.line agent).run (broker.moves agent operation) := by
  cases operation with
  | register identity => exact consistent.line_register identity agent
  | route frame => exact consistent.line_route frame agent
  | receive place => exact consistent.line_receive place agent
  | disconnect place writeFailed => exact consistent.line_disconnect place writeFailed agent
  | drop place => exact consistent.line_drop place agent

end Consistent

end Brokerd

end SecurePubSub.Broker
