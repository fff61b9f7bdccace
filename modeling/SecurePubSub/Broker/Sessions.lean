import Mathlib.Logic.Function.Basic
import SecurePubSub.Broker.Router
import SecurePubSub.Data.Line
import SecurePubSub.Data.Machine

namespace SecurePubSub.Broker

open SecurePubSub.Data SecurePubSub.Protocol

/-! The router as the Broker uses it, one whole operation at a time.

Every accepted registration is owned by one session, which receives through it,
disconnects it once and then drops it. Sessions are listed in the order of their
registration, so a session has the place of its channel.
-/

/-- The task of one Agent socket, with the frame it dequeued last. -/
structure Session where
  registration : AgentRegistration
  dequeued : Option Bytes
  ended : Bool

/-- The router and its sessions, with the deliveries accepted for each Agent and those handed out
to it and not given back. -/
structure Brokerd where
  router : Router
  sessions : List Session
  accepted : AgentId → List Bytes
  handedOut : AgentId → List Bytes

inductive Operation where
  | register (identity : AgentId)
  | route (frame : Bytes)
  | receive (place : Nat)
  | disconnect (place : Nat) (writeFailed : Bool)
  | drop (place : Nat)

/-- The frame that a session gives back when it disconnects. -/
def Session.undelivered (session : Session) (writeFailed : Bool) : Option Bytes :=
  if writeFailed then session.dequeued else none

theorem Session.dequeued_of_undelivered {session : Session} {writeFailed : Bool} {frame : Bytes}
    (undelivered : session.undelivered writeFailed = some frame) :
    session.dequeued = some frame := by
  rw [Session.undelivered] at undelivered
  split at undelivered
  · exact undelivered
  · cases undelivered

namespace Brokerd

def start (maximum onlineDepth offlineDepth caQueueDepth : Nat) : Brokerd :=
  ⟨.withLimits maximum onlineDepth offlineDepth caQueueDepth, [], fun _ => [], fun _ => []⟩

/-- The session at a place that has not disconnected yet. -/
def active (broker : Brokerd) (place : Nat) : Option Session :=
  (broker.sessions[place]?).filter (fun session => !session.ended)

/-- The Agent for which routing a frame now would be accepted. -/
def acceptedFor (broker : Brokerd) (frame : Bytes) : Option AgentId :=
  match (broker.router.routeCaDelivery frame).1, Router.deliveryRecipient frame with
  | .ok (), .ok recipient => some recipient
  | _, _ => none

def step (broker : Brokerd) : Operation → Brokerd
  | .register identity =>
      match broker.router.register identity with
      | (.ok registration, router) =>
          ⟨router, broker.sessions ++ [⟨registration, none, false⟩], broker.accepted,
            broker.handedOut⟩
      | (.error _, router) => { broker with router }
  | .route frame =>
      ⟨(broker.router.routeCaDelivery frame).2, broker.sessions,
        fun agent => broker.accepted agent ++
          if broker.acceptedFor frame = some agent then [frame] else [],
        broker.handedOut⟩
  | .receive place =>
      match broker.active place with
      | none => broker
      | some session =>
          match broker.router.receive session.registration with
          | none => broker
          | some (frame, later, router) =>
              ⟨router, broker.sessions.set place ⟨later, some frame, false⟩, broker.accepted,
                fun agent => broker.handedOut agent ++
                  if agent = later.identity then [frame] else []⟩
  | .disconnect place writeFailed =>
      match broker.active place with
      | none => broker
      | some session =>
          let first := session.undelivered writeFailed
          let (_, later, router) := broker.router.disconnectAndRequeue session.registration first
          ⟨router, broker.sessions.set place ⟨later, none, true⟩, broker.accepted,
            fun agent =>
              if agent = later.identity ∧ first.isSome then (broker.handedOut agent).dropLast
              else broker.handedOut agent⟩
  | .drop place =>
      match broker.sessions[place]? with
      | some session =>
          if session.ended then
            { broker with router := broker.router.dropReceiver session.registration.receiver }
          else broker
      | none => broker

/-- The frames that the registration of a connection captured and has not handed out. -/
def captured (broker : Brokerd) (connection : Connection) : List Bytes :=
  match broker.sessions[connection.sender]? with
  | some session => session.registration.pending
  | none => []

/-- The deliveries that wait for an Agent, in the order in which they would be handed out. -/
def waiting (broker : Brokerd) (agent : AgentId) : List Bytes :=
  match broker.router.connections.get agent with
  | some connection =>
      broker.captured connection ++ (broker.router.channel connection.sender).frames ++
        broker.router.offline.queue agent
  | none => broker.router.offline.queue agent

def line (broker : Brokerd) (agent : AgentId) : Line Bytes :=
  ⟨broker.accepted agent, broker.handedOut agent, broker.waiting agent⟩

/-- What an operation does to the line of one Agent. -/
def moves (broker : Brokerd) (agent : AgentId) : Operation → List (Move Bytes)
  | .register _ => []
  | .route frame => if broker.acceptedFor frame = some agent then [.accept frame] else []
  | .receive place =>
      match broker.active place with
      | none => []
      | some session =>
          if session.registration.identity = agent then [.handOut] else []
  | .disconnect place writeFailed =>
      match broker.active place with
      | none => []
      | some session =>
          if session.registration.identity = agent then
            (if (session.undelivered writeFailed).isSome then [.giveBack] else []) ++
              [.keep broker.router.offline.depth]
          else []
  | .drop _ => []

/-- How sessions, connections, channels and stored deliveries fit together. -/
structure Consistent (broker : Brokerd) : Prop where
  channels : broker.router.channels.length = broker.sessions.length
  receiver : ∀ ⦃place : Nat⦄ ⦃session : Session⦄, broker.sessions[place]? = some session →
    session.registration.receiver = place
  online : ∀ ⦃agent connection⦄, broker.router.connections.get agent = some connection →
    ∃ session, broker.active connection.sender = some session ∧
      session.registration.identity = agent ∧
      session.registration.generation = connection.generation
  connected : ∀ ⦃place session⦄, broker.active place = some session →
    broker.router.connections.get session.registration.identity =
      some ⟨session.registration.generation, place⟩
  unclosed : ∀ ⦃place session⦄, broker.active place = some session →
    (broker.router.channel place).closed = false
  unstored : ∀ ⦃agent connection⦄, broker.router.connections.get agent = some connection →
    broker.router.offline.queue agent = []
  dequeued : ∀ ⦃place session frame⦄, broker.active place = some session →
    session.dequeued = some frame →
    ∃ earlier, broker.handedOut session.registration.identity = earlier ++ [frame]

variable {broker : Brokerd}

theorem active_eq_some {place : Nat} {session : Session} :
    broker.active place = some session ↔
      broker.sessions[place]? = some session ∧ session.ended = false := by
  simp [active, Option.filter_eq_some_iff]

theorem active_lt {place : Nat} {session : Session} (found : broker.active place = some session) :
    place < broker.sessions.length :=
  (List.getElem?_eq_some_iff.mp (active_eq_some.mp found).1).1

theorem active_set {place : Nat} {session : Session} (found : broker.active place = some session)
    (later : Session) (router : Router) (accepted handedOut : AgentId → List Bytes) (other : Nat) :
    (⟨router, broker.sessions.set place later, accepted, handedOut⟩ : Brokerd).active other =
      if other = place then (if later.ended then none else some later) else broker.active other := by
  have inside := active_lt found
  unfold active
  simp only [List.getElem?_set]
  by_cases same : place = other
  · subst same
    cases ended : later.ended <;> simp [inside, ended]
  · simp [same, Ne.symm same]

theorem active_append (registration : AgentRegistration) (router : Router)
    (accepted handedOut : AgentId → List Bytes) (other : Nat) :
    (⟨router, broker.sessions ++ [⟨registration, none, false⟩], accepted, handedOut⟩ :
        Brokerd).active other =
      if other = broker.sessions.length then some ⟨registration, none, false⟩
      else broker.active other := by
  unfold active
  simp only [List.getElem?_append]
  by_cases before : other < broker.sessions.length
  · simp [before, before.ne]
  · by_cases last : other = broker.sessions.length
    · subst last
      simp
    · have beyond : broker.sessions[other]? = none := List.getElem?_eq_none (by omega)
      have outside : other - broker.sessions.length ≠ 0 := by omega
      simp [before, last, outside]

namespace Consistent

theorem receiver_of_active (consistent : broker.Consistent) {place : Nat} {session : Session}
    (found : broker.active place = some session) : session.registration.receiver = place :=
  consistent.receiver (active_eq_some.mp found).1

theorem active_unique (consistent : broker.Consistent) {place other : Nat}
    {session another : Session} (found : broker.active place = some session)
    (foundOther : broker.active other = some another)
    (same : another.registration.identity = session.registration.identity) : other = place := by
  have here := consistent.connected found
  have there := consistent.connected foundOther
  rw [same, here] at there
  have connections := Option.some.inj there
  exact (Connection.mk.inj connections).2.symm

theorem waiting_of_active (consistent : broker.Consistent) {place : Nat} {session : Session}
    (found : broker.active place = some session) :
    broker.waiting session.registration.identity =
      session.registration.pending ++ (broker.router.channel place).frames := by
  have connected := consistent.connected found
  have listed := (active_eq_some.mp found).1
  simp [waiting, captured, connected, listed, consistent.unstored connected]

theorem register (consistent : broker.Consistent) (identity : AgentId) :
    (broker.step (.register identity)).Consistent := by
  rcases broker.router.register_cases identity with ⟨fault, refused⟩ | ⟨absent, _, registered⟩
  · simp only [step, refused]
    exact consistent
  · have others {place : Nat} {session : Session} (found : broker.active place = some session) :
        session.registration.identity ≠ identity := by
      intro same
      have connected := consistent.connected found
      rw [same, absent] at connected
      cases connected
    have fresh {place : Nat} {session : Session} (found : broker.active place = some session) :
        place ≠ broker.sessions.length := (active_lt found).ne
    simp only [step, registered]
    constructor
    · simp [consistent.channels]
    · intro place session found
      rw [List.getElem?_append] at found
      split at found
      · exact consistent.receiver found
      · obtain ⟨inside, rfl⟩ := List.getElem?_eq_some_iff.mp found
        simp only [List.length_singleton, Nat.lt_one_iff] at inside
        simp only [inside, List.getElem_cons_zero, consistent.channels]
        omega
    · intro agent connection online
      simp only [SortedMap.get_insert] at online
      simp only [active_append]
      split at online
      · rename_i same
        cases online
        exact ⟨_, if_pos consistent.channels, same.symm, rfl⟩
      · obtain ⟨session, found, identified, generation⟩ := consistent.online online
        exact ⟨session, by rw [if_neg (fresh found)]; exact found, identified, generation⟩
    · intro place session found
      simp only [active_append] at found
      split at found
      · rename_i last
        cases found
        simp [consistent.channels, last]
      · simp [others found, consistent.connected found]
    · intro place session found
      simp only [active_append] at found
      split at found
      · rename_i last
        simp [Router.channel, last, ← consistent.channels, Channel.new]
      · have unclosed := consistent.unclosed found
        have inside := active_lt found
        rw [← consistent.channels] at inside
        simpa [Router.channel, List.getElem?_append_left inside] using unclosed
    · intro agent connection online
      simp only [SortedMap.get_insert] at online
      simp only [MemoryOfflineQueueStore.queue_take]
      split at online
      · rename_i same
        exact if_pos same
      · rename_i other
        rw [if_neg other]
        exact consistent.unstored online
    · intro place session frame found dequeued
      simp only [active_append] at found
      split at found
      · cases found
        cases dequeued
      · exact consistent.dequeued found dequeued

/-- A routed delivery is refused, or joins the channel of its recipient's connection, or joins the
offline queue of a recipient without one. -/
theorem route_cases (consistent : broker.Consistent) (frame : Bytes) :
    (broker.acceptedFor frame = none ∧
      (broker.router.routeCaDelivery frame).2 = broker.router) ∨
    (∃ recipient connection, broker.acceptedFor frame = some recipient ∧
      broker.router.connections.get recipient = some connection ∧
      (broker.router.channel connection.sender).frames.length <
        (broker.router.channel connection.sender).capacity ∧
      (broker.router.routeCaDelivery frame).2 =
        broker.router.setChannel connection.sender
          { broker.router.channel connection.sender with
            frames := (broker.router.channel connection.sender).frames ++ [frame] }) ∨
    (∃ recipient stored, broker.acceptedFor frame = some recipient ∧
      broker.router.connections.get recipient = none ∧
      (broker.router.routeCaDelivery frame).2 = { broker.router with offline := stored } ∧
      (broker.router.offline.queue recipient).length < broker.router.offline.depth ∧
      stored.depth = broker.router.offline.depth ∧
      ∀ agent, stored.queue agent =
        if agent = recipient then broker.router.offline.queue recipient ++ [frame]
        else broker.router.offline.queue agent) := by
  unfold acceptedFor Router.routeCaDelivery
  rcases broker.router.routeLive_cases frame with
    ⟨fault, refused⟩ | ⟨recipient, connection, sent, parsed, online, tried, finished⟩ |
      ⟨recipient, parsed, offline, storing⟩ | ⟨recipient, connection, parsed, online, tried, _⟩
  · simp only [refused]
    exact .inl ⟨trivial, trivial⟩
  · obtain ⟨_, room, rfl⟩ := Channel.trySend_eq_ok tried
    simp only [finished, parsed]
    exact .inr (.inl ⟨recipient, connection, rfl, online, room, rfl⟩)
  · simp only [storing, parsed]
    rcases broker.router.storeOffline_cases recipient frame with
      ⟨fault, refused⟩ | ⟨stored, accepted, room, depth, queues⟩
    · simp only [refused]
      exact .inl ⟨trivial, trivial⟩
    · simp only [accepted]
      exact .inr (.inr ⟨recipient, stored, rfl, offline, rfl, room, depth, queues⟩)
  · obtain ⟨session, found, _, _⟩ := consistent.online online
    have unclosed := consistent.unclosed found
    unfold Channel.trySend at tried
    rw [unclosed] at tried
    simp only [Bool.false_eq_true, if_false] at tried
    split at tried <;> cases tried

/-- Changing the frames in channels and the queues of unconnected Agents keeps everything. -/
theorem of_contents (consistent : broker.Consistent) {later : Brokerd}
    (sessions : later.sessions = broker.sessions) (handedOut : later.handedOut = broker.handedOut)
    (connections : later.router.connections = broker.router.connections)
    (channels : later.router.channels.length = broker.router.channels.length)
    (unclosed : ∀ place, (later.router.channel place).closed = (broker.router.channel place).closed)
    (unstored : ∀ ⦃agent connection⦄, broker.router.connections.get agent = some connection →
      broker.router.offline.queue agent = [] → later.router.offline.queue agent = []) :
    later.Consistent := by
  have active (place : Nat) : later.active place = broker.active place := by
    unfold Brokerd.active
    rw [sessions]
  constructor
  · rw [channels, sessions, consistent.channels]
  · rw [sessions]
    exact consistent.receiver
  · intro agent connection online
    rw [connections] at online
    simp only [active]
    exact consistent.online online
  · intro place session found
    rw [active] at found
    rw [connections]
    exact consistent.connected found
  · intro place session found
    rw [active] at found
    rw [unclosed]
    exact consistent.unclosed found
  · intro agent connection online
    rw [connections] at online
    exact unstored online (consistent.unstored online)
  · intro place session frame found dequeued
    rw [active] at found
    rw [handedOut]
    exact consistent.dequeued found dequeued

theorem sender_lt (consistent : broker.Consistent) {agent : AgentId} {connection : Connection}
    (online : broker.router.connections.get agent = some connection) :
    connection.sender < broker.router.channels.length := by
  obtain ⟨session, found, _, _⟩ := consistent.online online
  rw [consistent.channels]
  exact active_lt found

theorem route (consistent : broker.Consistent) (frame : Bytes) :
    (broker.step (.route frame)).Consistent := by
  simp only [step]
  rcases consistent.route_cases frame with
    ⟨_, same⟩ | ⟨recipient, connection, _, online, _, sent⟩ |
      ⟨recipient, stored, _, offline, kept, _, _, queues⟩
  · rw [same]
    exact consistent.of_contents rfl rfl rfl rfl (fun _ => rfl) (fun _ _ _ empty => empty)
  · rw [sent]
    refine consistent.of_contents rfl rfl rfl ?_ ?_ ?_
    · simp [Router.setChannel]
    · intro place
      rw [Router.channel_setChannel (consistent.sender_lt online)]
      split
      · rename_i same
        rw [same]
      · rfl
    · exact fun _ _ _ empty => empty
  · rw [kept]
    refine consistent.of_contents rfl rfl rfl rfl (fun _ => rfl) ?_
    intro agent connection online empty
    have other : agent ≠ recipient := by
      rintro rfl
      rw [offline] at online
      cases online
    simp only [queues, if_neg other, empty]

theorem current_of_active (consistent : broker.Consistent) {place : Nat} {session : Session}
    (found : broker.active place = some session) :
    broker.router.current session.registration.identity session.registration.generation = true :=
  Router.current_eq_true.mpr ⟨_, consistent.connected found, rfl⟩

theorem inside_of_active (consistent : broker.Consistent) {place : Nat} {session : Session}
    (found : broker.active place = some session) : place < broker.router.channels.length := by
  rw [consistent.channels]
  exact active_lt found

theorem receive_cases (consistent : broker.Consistent) {place : Nat} {session : Session}
    (found : broker.active place = some session) :
    (broker.step (.receive place) = broker ∧ session.registration.pending = [] ∧
      (broker.router.channel place).frames = []) ∨
    ∃ frame pending rest, session.registration.pending ++ (broker.router.channel place).frames =
        frame :: (pending ++ rest) ∧
      rest <:+ (broker.router.channel place).frames ∧
      broker.step (.receive place) =
        ⟨broker.router.setChannel place { broker.router.channel place with frames := rest },
          broker.sessions.set place
            ⟨{ session.registration with pending := pending }, some frame, false⟩,
          broker.accepted,
          fun agent => broker.handedOut agent ++
            if agent = session.registration.identity then [frame] else []⟩ := by
  have receiver := consistent.receiver_of_active found
  simp only [step, found]
  cases received : broker.router.receive session.registration with
  | none =>
      unfold Router.receive at received
      rw [receiver] at received
      cases tried : session.registration.tryRecv (broker.router.channel place) with
      | none =>
          obtain ⟨captured, live⟩ := AgentRegistration.tryRecv_eq_none tried
          exact .inl ⟨rfl, captured, live⟩
      | some result => simp [tried] at received
  | some result =>
      obtain ⟨frame, later, router⟩ := result
      obtain ⟨rest, split, sameLater, rfl, shorter⟩ := Router.receive_eq_some received
      rw [receiver] at split shorter
      obtain ⟨identity, generation, pending, own⟩ := later
      simp only [AgentRegistration.mk.injEq, true_and] at sameLater
      obtain ⟨rfl, rfl, rfl⟩ := sameLater
      exact .inr ⟨frame, pending, rest, split, shorter, by simp only [receiver]⟩

theorem step_disconnect (consistent : broker.Consistent) {place : Nat} {session : Session}
    (found : broker.active place = some session) (writeFailed : Bool) :
    broker.step (.disconnect place writeFailed) =
      ⟨{ broker.router.setChannel place { broker.router.channel place with frames := [] } with
          connections := broker.router.connections.erase session.registration.identity
          offline := (broker.router.offline.prepend session.registration.identity
            ((session.undelivered writeFailed).toList ++
              (session.registration.pending ++ (broker.router.channel place).frames))).2 },
        broker.sessions.set place ⟨{ session.registration with pending := [] }, none, true⟩,
        broker.accepted,
        fun agent =>
          if agent = session.registration.identity ∧ (session.undelivered writeFailed).isSome then
            (broker.handedOut agent).dropLast
          else broker.handedOut agent⟩ := by
  have receiver := consistent.receiver_of_active found
  have current := consistent.current_of_active found
  simp only [step, found]
  rcases broker.router.disconnectAndRequeue_cases session.registration
      (session.undelivered writeFailed) with ⟨stale, _⟩ | ⟨result, _, requeued⟩
  · rw [current] at stale
    cases stale
  · simp only [requeued, receiver]

theorem receiver_set (consistent : broker.Consistent) {place : Nat} {session replaced : Session}
    (found : broker.active place = some session)
    (kept : replaced.registration.receiver = session.registration.receiver) {other : Nat}
    {another : Session} (foundOther : (broker.sessions.set place replaced)[other]? = some another) :
    another.registration.receiver = other := by
  rw [List.getElem?_set] at foundOther
  split at foundOther
  · rename_i same
    rw [if_pos (active_lt found)] at foundOther
    cases foundOther
    rw [kept, consistent.receiver_of_active found, same]
  · exact consistent.receiver foundOther

theorem receive (consistent : broker.Consistent) (place : Nat) :
    (broker.step (.receive place)).Consistent := by
  cases found : broker.active place with
  | none =>
      simp only [step, found]
      exact consistent
  | some session =>
      rcases consistent.receive_cases found with ⟨same, _⟩ | ⟨frame, pending, rest, _, _, received⟩
      · rw [same]
        exact consistent
      · have inside := consistent.inside_of_active found
        have channels := @Router.channel_setChannel broker.router place inside
        rw [received]
        constructor
        · simp [Router.setChannel, consistent.channels]
        · intro other another foundOther
          exact consistent.receiver_set found (by rfl) foundOther
        · intro agent connection online
          obtain ⟨another, foundOther, identified, generation⟩ := consistent.online online
          simp only [active_set found]
          split
          · rename_i same
            rw [same, found] at foundOther
            cases foundOther
            exact ⟨_, rfl, identified, generation⟩
          · exact ⟨another, foundOther, identified, generation⟩
        · intro other another foundOther
          simp only [active_set found] at foundOther
          split at foundOther
          · rename_i same
            cases foundOther
            have connected := consistent.connected found
            rw [same]
            exact connected
          · exact consistent.connected foundOther
        · intro other another foundOther
          simp only [active_set found] at foundOther
          simp only [channels]
          split at foundOther
          · rename_i same
            rw [if_pos same]
            exact consistent.unclosed found
          · rename_i different
            rw [if_neg different]
            exact consistent.unclosed foundOther
        · exact consistent.unstored
        · intro other another last foundOther dequeued
          simp only [active_set found] at foundOther
          split at foundOther
          · cases foundOther
            cases dequeued
            exact ⟨broker.handedOut session.registration.identity, by simp⟩
          · rename_i different
            have otherAgent : another.registration.identity ≠ session.registration.identity :=
              fun same => different (consistent.active_unique found foundOther same)
            simp only [if_neg otherAgent, List.append_nil]
            exact consistent.dequeued foundOther dequeued

theorem disconnect (consistent : broker.Consistent) (place : Nat) (writeFailed : Bool) :
    (broker.step (.disconnect place writeFailed)).Consistent := by
  cases found : broker.active place with
  | none =>
      simp only [step, found]
      exact consistent
  | some session =>
      have inside := consistent.inside_of_active found
      have channels := @Router.channel_setChannel broker.router place inside
      rw [consistent.step_disconnect found]
      constructor
      · simp [Router.setChannel, consistent.channels]
      · intro other another foundOther
        exact consistent.receiver_set found (by rfl) foundOther
      · intro agent connection online
        simp only [SortedMap.get_erase] at online
        split at online
        · cases online
        · rename_i different
          obtain ⟨another, foundOther, identified, generation⟩ := consistent.online online
          simp only [active_set found]
          rw [if_neg]
          · exact ⟨another, foundOther, identified, generation⟩
          · intro same
            rw [same, found] at foundOther
            cases foundOther
            exact different identified.symm
      · intro other another foundOther
        simp only [active_set found, if_true] at foundOther
        split at foundOther
        · cases foundOther
        · rename_i different
          have otherAgent : another.registration.identity ≠ session.registration.identity :=
            fun same => different (consistent.active_unique found foundOther same)
          simp only [SortedMap.get_erase, if_neg otherAgent]
          exact consistent.connected foundOther
      · intro other another foundOther
        simp only [active_set found, if_true] at foundOther
        split at foundOther
        · cases foundOther
        · rename_i different
          have unclosed := consistent.unclosed foundOther
          have same := channels { broker.router.channel place with frames := [] } other
          rw [if_neg different] at same
          rw [← same] at unclosed
          exact unclosed
      · intro agent connection online
        simp only [SortedMap.get_erase] at online
        split at online
        · cases online
        · rename_i different
          simp only [MemoryOfflineQueueStore.queue_prepend, if_neg different]
          exact consistent.unstored online
      · intro other another last foundOther dequeued
        simp only [active_set found, if_true] at foundOther
        split at foundOther
        · cases foundOther
        · rename_i different
          have otherAgent : another.registration.identity ≠ session.registration.identity :=
            fun same => different (consistent.active_unique found foundOther same)
          simp only [otherAgent, false_and, if_false]
          exact consistent.dequeued foundOther dequeued

theorem drop (consistent : broker.Consistent) (place : Nat) :
    (broker.step (.drop place)).Consistent := by
  simp only [step]
  cases listed : broker.sessions[place]? with
  | none => exact consistent
  | some session =>
      simp only
      split
      · rename_i ended
        have receiver := consistent.receiver listed
        have inside : place < broker.router.channels.length := by
          rw [consistent.channels]
          exact (List.getElem?_eq_some_iff.mp listed).1
        have channels := @Router.channel_setChannel broker.router place inside
        have others {other : Nat} {another : Session}
            (found : broker.active other = some another) : other ≠ place := by
          rintro rfl
          obtain ⟨foundOther, unended⟩ := active_eq_some.mp found
          rw [listed] at foundOther
          cases foundOther
          rw [ended] at unended
          cases unended
        rw [receiver]
        constructor
        · simp [Router.dropReceiver, Router.setChannel, consistent.channels]
        · exact consistent.receiver
        · exact consistent.online
        · exact consistent.connected
        · intro other another found
          simp only [Router.dropReceiver, channels, if_neg (others found)]
          exact consistent.unclosed found
        · exact consistent.unstored
        · exact consistent.dequeued
      · exact consistent

theorem step (consistent : broker.Consistent) (operation : Operation) :
    (broker.step operation).Consistent := by
  cases operation with
  | register identity => exact consistent.register identity
  | route frame => exact consistent.route frame
  | receive place => exact consistent.receive place
  | disconnect place writeFailed => exact consistent.disconnect place writeFailed
  | drop place => exact consistent.drop place

theorem start (maximum onlineDepth offlineDepth caQueueDepth : Nat) :
    (start maximum onlineDepth offlineDepth caQueueDepth).Consistent := by
  constructor <;> simp [Brokerd.start, Router.withLimits, active]

/-- What a session does with the router leaves the channel to the CA and what was accepted alone. -/
theorem own_step (consistent : broker.Consistent) {operation : Operation}
    (own : ∀ frame, operation ≠ .route frame) :
    (broker.step operation).accepted = broker.accepted ∧
      (broker.step operation).router.caDepth = broker.router.caDepth ∧
      (broker.step operation).router.caRequests = broker.router.caRequests := by
  cases operation with
  | register identity =>
      rcases broker.router.register_cases identity with ⟨fault, refused⟩ | ⟨_, _, registered⟩
      · simp [Brokerd.step, refused]
      · simp [Brokerd.step, registered]
  | route frame => exact absurd rfl (own frame)
  | receive place =>
      cases found : broker.active place with
      | none => simp [Brokerd.step, found]
      | some session =>
          rcases consistent.receive_cases found with ⟨same, _⟩ | ⟨_, _, _, _, _, received⟩
          · simp [same]
          · rw [received]
            exact ⟨rfl, rfl, rfl⟩
  | disconnect place writeFailed =>
      cases found : broker.active place with
      | none => simp [Brokerd.step, found]
      | some session =>
          rw [consistent.step_disconnect found]
          exact ⟨rfl, rfl, rfl⟩
  | drop place =>
      simp only [Brokerd.step]
      split
      · split
        · exact ⟨rfl, rfl, rfl⟩
        · exact ⟨rfl, rfl, rfl⟩
      · exact ⟨rfl, rfl, rfl⟩

end Consistent

end Brokerd

end SecurePubSub.Broker
