import SecurePubSub.Data.SortedMap
import SecurePubSub.Protocol.Envelope

namespace SecurePubSub.Broker

open SecurePubSub.Data SecurePubSub.Data.Fallible SecurePubSub.Protocol

/-! The routing core of the Broker: bounded queues, registrations and routing.

An operation returns its result and the router after it. The part of a routed
delivery that holds the state lock is `routeLive`; every other operation of the
router is one locked section.
-/

/-- Observable routing failure. -/
inductive RouteError where
  | protocol (fault : Error)
  | reservedIdentity
  | duplicateConnection
  | connectionLimit
  | caQueueFull
  | onlineQueueFull
  | offlineQueueFull
deriving DecidableEq

/-! ## Bounded channels -/

/-- A bounded FIFO channel; it is closed once its receiver was dropped. -/
structure Channel where
  capacity : Nat
  frames : List Bytes
  closed : Bool
deriving DecidableEq

inductive TrySendError where
  | full
  | closed
deriving DecidableEq

def Channel.new (capacity : Nat) : Channel := ⟨capacity, [], false⟩

def Channel.trySend (channel : Channel) (frame : Bytes) : Except TrySendError Channel :=
  if channel.closed then .error .closed
  else if channel.frames.length < channel.capacity then
    .ok { channel with frames := channel.frames ++ [frame] }
  else .error .full

theorem Channel.trySend_eq_ok {channel sent : Channel} {frame : Bytes}
    (accepted : channel.trySend frame = .ok sent) :
    channel.closed = false ∧ channel.frames.length < channel.capacity ∧
      sent = { channel with frames := channel.frames ++ [frame] } := by
  unfold trySend at accepted
  split at accepted
  · cases accepted
  · rename_i opened
    split at accepted
    · rename_i room
      cases accepted
      exact ⟨by simpa using opened, room, rfl⟩
    · cases accepted

/-! ## Offline queues -/

/-- Bounded in-memory offline queue storage. -/
structure MemoryOfflineQueueStore where
  depth : Nat
  queues : SortedMap AgentId (List Bytes)

namespace MemoryOfflineQueueStore

def new (depth : Nat) : MemoryOfflineQueueStore := ⟨depth, .empty⟩

def queue (store : MemoryOfflineQueueStore) (identity : AgentId) : List Bytes :=
  (store.queues.get identity).getD []

def enqueue (store : MemoryOfflineQueueStore) (identity : AgentId) (frame : Bytes) :
    Except RouteError Unit × MemoryOfflineQueueStore :=
  if store.depth = 0 then (.error .offlineQueueFull, store)
  else if (store.queue identity).length ≥ store.depth then (.error .offlineQueueFull, store)
  else (.ok (), ⟨store.depth, store.queues.insert identity (store.queue identity ++ [frame])⟩)

def take (store : MemoryOfflineQueueStore) (identity : AgentId) :
    List Bytes × MemoryOfflineQueueStore :=
  (store.queue identity, ⟨store.depth, store.queues.erase identity⟩)

def prepend (store : MemoryOfflineQueueStore) (identity : AgentId) (frames : List Bytes) :
    Except RouteError Unit × MemoryOfflineQueueStore :=
  let all := frames ++ store.queue identity
  let removed := store.queues.erase identity
  let kept := all.take store.depth
  let stored := if kept.isEmpty then removed else removed.insert identity kept
  (if all.length > store.depth then .error .offlineQueueFull else .ok (), ⟨store.depth, stored⟩)

def len (store : MemoryOfflineQueueStore) (identity : AgentId) : Nat :=
  (store.queue identity).length

variable {store : MemoryOfflineQueueStore}

@[simp] theorem queue_new (depth : Nat) (agent : AgentId) : (new depth).queue agent = [] := rfl

@[simp] theorem queue_take (identity agent : AgentId) :
    (store.take identity).2.queue agent = if agent = identity then [] else store.queue agent := by
  by_cases same : agent = identity <;> simp [take, queue, SortedMap.get_erase, same]

@[simp] theorem queue_prepend (identity agent : AgentId) (frames : List Bytes) :
    (store.prepend identity frames).2.queue agent =
      if agent = identity then (frames ++ store.queue identity).take store.depth
      else store.queue agent := by
  unfold prepend
  simp only
  cases kept : (frames ++ store.queue identity).take store.depth with
  | nil =>
      simp only [List.isEmpty_nil, if_true, queue]
      by_cases same : agent = identity <;> simp [SortedMap.get_erase, same]
  | cons first rest =>
      simp only [List.isEmpty_cons, Bool.false_eq_true, if_false, queue]
      by_cases same : agent = identity <;> simp [SortedMap.get_erase, same]

/-- An enqueue appends one frame to one queue that has room, or changes nothing. -/
theorem enqueue_cases (identity : AgentId) (frame : Bytes) :
    (store.enqueue identity frame = (.error .offlineQueueFull, store) ∧
      store.depth ≤ (store.queue identity).length) ∨
    ∃ stored, store.enqueue identity frame = (.ok (), stored) ∧
      (store.queue identity).length < store.depth ∧ stored.depth = store.depth ∧
      ∀ agent, stored.queue agent =
        if agent = identity then store.queue identity ++ [frame] else store.queue agent := by
  unfold enqueue
  split
  · rename_i zero
    exact .inl ⟨rfl, by omega⟩
  · split
    · rename_i full
      exact .inl ⟨rfl, full⟩
    · rename_i room
      refine .inr ⟨_, rfl, by omega, rfl, fun agent => ?_⟩
      by_cases same : agent = identity <;> simp [queue, same]

end MemoryOfflineQueueStore

/-! ## Registrations -/

/-- One active Agent registration; `receiver` is the place of its channel. -/
structure AgentRegistration where
  identity : AgentId
  generation : Nat
  pending : List Bytes
  receiver : Nat

namespace AgentRegistration

/-- Tries to remove one pending or live delivery. `recv_best_effort` waits where this has none. -/
def tryRecv (registration : AgentRegistration) (channel : Channel) :
    Option (Bytes × AgentRegistration × Channel) :=
  match registration.pending with
  | frame :: rest => some (frame, { registration with pending := rest }, channel)
  | [] =>
      match channel.frames with
      | frame :: rest => some (frame, registration, { channel with frames := rest })
      | [] => none

def drain : Nat → AgentRegistration → Channel → List Bytes →
    List Bytes × AgentRegistration × Channel
  | 0, registration, channel, unsent => (unsent, registration, channel)
  | fuel + 1, registration, channel, unsent =>
      match registration.tryRecv channel with
      | some (frame, registration, channel) => drain fuel registration channel (unsent ++ [frame])
      | none => (unsent, registration, channel)

variable {registration : AgentRegistration} {channel : Channel}

/-- What is received is the first of the pending frames and then those in the channel. -/
theorem tryRecv_eq_some {frame : Bytes} {later : AgentRegistration} {rest : Channel}
    (received : registration.tryRecv channel = some (frame, later, rest)) :
    registration.pending ++ channel.frames = frame :: (later.pending ++ rest.frames) ∧
      later = { registration with pending := later.pending } ∧
      rest = { channel with frames := rest.frames } ∧ rest.frames <:+ channel.frames := by
  unfold tryRecv at received
  split at received
  · rename_i first others captured
    cases received
    exact ⟨by simp [captured], rfl, rfl, List.suffix_refl _⟩
  · rename_i captured
    split at received
    · rename_i first others live
      cases received
      exact ⟨by simp [captured, live], by simp, rfl, live ▸ List.suffix_cons _ _⟩
    · cases received

theorem tryRecv_eq_none (nothing : registration.tryRecv channel = none) :
    registration.pending = [] ∧ channel.frames = [] := by
  unfold tryRecv at nothing
  split at nothing
  · cases nothing
  · rename_i captured
    split at nothing
    · cases nothing
    · rename_i live
      exact ⟨captured, live⟩

theorem drain_eq {fuel : Nat} (enough : registration.pending.length + channel.frames.length ≤ fuel)
    (unsent : List Bytes) :
    registration.drain fuel channel unsent =
      (unsent ++ (registration.pending ++ channel.frames), { registration with pending := [] },
        { channel with frames := [] }) := by
  induction fuel generalizing registration channel unsent with
  | zero =>
      have captured : registration.pending = [] := List.eq_nil_of_length_eq_zero (by omega)
      have live : channel.frames = [] := List.eq_nil_of_length_eq_zero (by omega)
      obtain ⟨identity, generation, pending, receiver⟩ := registration
      obtain ⟨capacity, frames, closed⟩ := channel
      cases captured
      cases live
      simp [drain]
  | succ fuel ih =>
      unfold drain
      cases received : registration.tryRecv channel with
      | none =>
          obtain ⟨captured, live⟩ := tryRecv_eq_none received
          obtain ⟨identity, generation, pending, receiver⟩ := registration
          obtain ⟨capacity, frames, closed⟩ := channel
          cases captured
          cases live
          simp
      | some result =>
          obtain ⟨frame, later, rest⟩ := result
          obtain ⟨split, sameLater, sameRest, _⟩ := tryRecv_eq_some received
          have lengths := congrArg List.length split
          simp only [List.length_append, List.length_cons] at lengths
          have smaller : later.pending.length + rest.frames.length ≤ fuel := by omega
          have left := ih smaller (unsent ++ [frame])
          simp only [left, split]
          rw [sameLater, sameRest]
          simp

end AgentRegistration

/-! ## The router -/

/-- The sending half of an Agent's channel. -/
structure Connection where
  generation : Nat
  sender : Nat
deriving DecidableEq

/-- The router; `channels` are the channels made for Agents so far. -/
structure Router where
  maximum : Nat
  onlineDepth : Nat
  caDepth : Nat
  connections : SortedMap AgentId Connection
  offline : MemoryOfflineQueueStore
  generation : Nat
  caRequests : Channel
  channels : List Channel

namespace Router

def withLimits (maximum onlineDepth offlineDepth caQueueDepth : Nat) : Router where
  maximum
  onlineDepth
  caDepth := caQueueDepth
  connections := .empty
  offline := .new offlineDepth
  generation := 1
  caRequests := .new (max caQueueDepth 1)
  channels := []

/-- The channel at a place; there is none whose receiver could be alive beyond those made. -/
def channel (router : Router) (place : Nat) : Channel := router.channels.getD place ⟨0, [], true⟩

def setChannel (router : Router) (place : Nat) (channel : Channel) : Router :=
  { router with channels := router.channels.set place channel }

def register (router : Router) (identity : AgentId) :
    Except RouteError AgentRegistration × Router :=
  if identity = .ca then (.error .reservedIdentity, router)
  else if router.maximum = 0 ∨ router.onlineDepth = 0 then (.error .connectionLimit, router)
  else if router.connections.contains identity then (.error .duplicateConnection, router)
  else if router.connections.size ≥ router.maximum then (.error .connectionLimit, router)
  else
    let place := router.channels.length
    let taken := router.offline.take identity
    (.ok ⟨identity, router.generation, taken.1, place⟩,
      { router with
        generation := (router.generation + 1) % 2 ^ 64
        channels := router.channels ++ [.new router.onlineDepth]
        connections := router.connections.insert identity ⟨router.generation, place⟩
        offline := taken.2 })

/-- Whether the live connection of an identity is of this generation. -/
def current (router : Router) (identity : AgentId) (generation : Nat) : Bool :=
  (router.connections.get identity).any (fun connection => connection.generation == generation)

def unregister (router : Router) (identity : AgentId) (generation : Nat) : Router :=
  if router.current identity generation then
    { router with connections := router.connections.erase identity }
  else router

/-- Removes a connection and returns its unsent frames to the front of its offline FIFO. -/
def disconnectAndRequeue (router : Router) (registration : AgentRegistration)
    (first : Option Bytes) : Except RouteError Unit × AgentRegistration × Router :=
  if router.current registration.identity registration.generation then
    let channel := router.channel registration.receiver
    let fuel := registration.pending.length + channel.frames.length
    let drained := registration.drain fuel channel first.toList
    let stored := router.offline.prepend registration.identity drained.1
    (stored.1, drained.2.1,
      { router.setChannel registration.receiver drained.2.2 with
        connections := router.connections.erase registration.identity
        offline := stored.2 })
  else (.ok (), registration, router)

/-- Routes an Agent request to the dedicated CA channel. -/
def routeAgentRequest (router : Router) (connectionIdentity : AgentId) (frame : Bytes) :
    Except RouteError Unit × Router :=
  match parseEnvelope frame with
  | .error fault => (.error (.protocol fault), router)
  | .ok envelope =>
      if envelope.sender ≠ connectionIdentity then (.error (.protocol .badSignature), router)
      else if envelope.messageType = .publicationResponse ∨ envelope.sender = .ca ∨
          envelope.recipient ≠ .ca then (.error (.protocol .wrongMessageType), router)
      else if router.caDepth = 0 then (.error .caQueueFull, router)
      else
        match router.caRequests.trySend frame with
        | .ok sent => (.ok (), { router with caRequests := sent })
        | .error _ => (.error .caQueueFull, router)

/-- The Agent a CA delivery is for. -/
def deliveryRecipient (frame : Bytes) : Except RouteError AgentId :=
  match parseEnvelope frame with
  | .error fault => .error (.protocol fault)
  | .ok envelope =>
      if envelope.sender ≠ .ca ∨ envelope.recipient = .ca ∨
          envelope.messageType ≠ .publicationResponse then .error (.protocol .wrongMessageType)
      else .ok envelope.recipient

/-- How the locked section of a routed delivery ends. -/
inductive Live where
  | finished (result : Except RouteError Unit)
  | storing (recipient : AgentId) (frame : Bytes)

/-- The section of a routed delivery that holds the state lock. -/
def routeLive (router : Router) (frame : Bytes) : Live × Router :=
  match deliveryRecipient frame with
  | .error fault => (.finished (.error fault), router)
  | .ok recipient =>
      match router.connections.get recipient with
      | none => (.storing recipient frame, router)
      | some connection =>
          match (router.channel connection.sender).trySend frame with
          | .ok sent => (.finished (.ok ()), router.setChannel connection.sender sent)
          | .error .full => (.finished (.error .onlineQueueFull), router)
          | .error .closed =>
              (.storing recipient frame,
                { router with connections := router.connections.erase recipient })

/-- Stores a delivery, without the state lock. -/
def storeOffline (router : Router) (recipient : AgentId) (frame : Bytes) :
    Except RouteError Unit × Router :=
  let stored := router.offline.enqueue recipient frame
  (stored.1, { router with offline := stored.2 })

/-- Routes a CA delivery to a live Agent or its bounded offline FIFO. -/
def routeCaDelivery (router : Router) (frame : Bytes) : Except RouteError Unit × Router :=
  match router.routeLive frame with
  | (.finished result, router) => (result, router)
  | (.storing recipient frame, router) => router.storeOffline recipient frame

/-- Receives through a registration, without the state lock. -/
def receive (router : Router) (registration : AgentRegistration) :
    Option (Bytes × AgentRegistration × Router) :=
  match registration.tryRecv (router.channel registration.receiver) with
  | some (frame, later, rest) => some (frame, later, router.setChannel registration.receiver rest)
  | none => none

/-- The owner of a registration drops it. -/
def dropReceiver (router : Router) (place : Nat) : Router :=
  router.setChannel place { router.channel place with closed := true }

/-- Whether the queue to which a delivery to the Agent goes has room for it. -/
def hasRoom (router : Router) (agent : AgentId) : Bool :=
  let stores := decide ((router.offline.queue agent).length < router.offline.depth)
  match router.connections.get agent with
  | none => stores
  | some connection =>
      let live := router.channel connection.sender
      if live.closed then stores else decide (live.frames.length < live.capacity)

def connectionCount (router : Router) : Nat := router.connections.size

def offlineLen (router : Router) (identity : AgentId) : Nat := router.offline.len identity

variable {router : Router}

@[simp] theorem connections_setChannel (place : Nat) (channel : Channel) :
    (router.setChannel place channel).connections = router.connections := rfl

@[simp] theorem offline_setChannel (place : Nat) (channel : Channel) :
    (router.setChannel place channel).offline = router.offline := rfl

theorem channel_setChannel {place : Nat} (inside : place < router.channels.length)
    (channel : Channel) (other : Nat) :
    (router.setChannel place channel).channel other =
      if other = place then channel else router.channel other := by
  unfold Router.channel setChannel
  rw [List.getD_eq_getElem?_getD, List.getD_eq_getElem?_getD, List.getElem?_set]
  by_cases same : place = other
  · simp [same, same ▸ inside]
  · simp [same, Ne.symm same]

theorem current_eq_true {identity : AgentId} {generation : Nat} :
    router.current identity generation = true ↔
      ∃ connection, router.connections.get identity = some connection ∧
        connection.generation = generation := by
  simp [current, Option.any_eq_true]

/-- A registration either fails and changes nothing or connects an absent identity, which takes
its offline queue along. -/
theorem register_cases (identity : AgentId) :
    (∃ fault, router.register identity = (.error fault, router)) ∨
    (router.connections.get identity = none ∧ 0 < router.onlineDepth ∧
      router.register identity =
        (.ok ⟨identity, router.generation, router.offline.queue identity, router.channels.length⟩,
          { router with
            generation := (router.generation + 1) % 2 ^ 64
            channels := router.channels ++ [.new router.onlineDepth]
            connections := router.connections.insert identity
              ⟨router.generation, router.channels.length⟩
            offline := (router.offline.take identity).2 })) := by
  unfold register
  split
  · exact .inl ⟨_, rfl⟩
  · split
    · exact .inl ⟨_, rfl⟩
    · rename_i positive
      split
      · exact .inl ⟨_, rfl⟩
      · rename_i absent
        split
        · exact .inl ⟨_, rfl⟩
        · rw [SortedMap.contains_eq, Bool.not_eq_true, Option.isSome_eq_false_iff,
            Option.isNone_iff_eq_none] at absent
          exact .inr ⟨absent, by omega, rfl⟩

/-- A requeue by a registration that is not current changes nothing; one by the current
registration disconnects it and stores what it had not handed out, as far as there is room. -/
theorem disconnectAndRequeue_cases (registration : AgentRegistration) (first : Option Bytes) :
    (router.current registration.identity registration.generation = false ∧
      router.disconnectAndRequeue registration first = (.ok (), registration, router)) ∨
    ∃ result, router.current registration.identity registration.generation = true ∧
      router.disconnectAndRequeue registration first =
        (result, { registration with pending := [] },
          { router.setChannel registration.receiver
              { router.channel registration.receiver with frames := [] } with
            connections := router.connections.erase registration.identity
            offline := (router.offline.prepend registration.identity
              (first.toList ++ (registration.pending ++
                (router.channel registration.receiver).frames))).2 }) := by
  unfold disconnectAndRequeue
  split
  · rename_i live
    simp only [AgentRegistration.drain_eq (Nat.le_refl _)]
    exact .inr ⟨_, live, rfl⟩
  · rename_i stale
    exact .inl ⟨by simpa using stale, rfl⟩

/-- The locked section of a delivery refuses it, sends it to the live connection, or leaves it to
be stored once no live connection is there. -/
theorem routeLive_cases (frame : Bytes) :
    (∃ fault, router.routeLive frame = (.finished (.error fault), router)) ∨
    (∃ recipient connection sent, deliveryRecipient frame = .ok recipient ∧
      router.connections.get recipient = some connection ∧
      (router.channel connection.sender).trySend frame = .ok sent ∧
      router.routeLive frame = (.finished (.ok ()), router.setChannel connection.sender sent)) ∨
    (∃ recipient, deliveryRecipient frame = .ok recipient ∧
      router.connections.get recipient = none ∧
      router.routeLive frame = (.storing recipient frame, router)) ∨
    (∃ recipient connection, deliveryRecipient frame = .ok recipient ∧
      router.connections.get recipient = some connection ∧
      (router.channel connection.sender).trySend frame = .error .closed ∧
      router.routeLive frame = (.storing recipient frame,
        { router with connections := router.connections.erase recipient })) := by
  unfold routeLive
  cases parsed : deliveryRecipient frame with
  | error fault => exact .inl ⟨fault, rfl⟩
  | ok recipient =>
      simp only
      cases live : router.connections.get recipient with
      | none => exact .inr (.inr (.inl ⟨recipient, rfl, live, rfl⟩))
      | some connection =>
          simp only
          cases tried : (router.channel connection.sender).trySend frame with
          | ok sent => exact .inr (.inl ⟨recipient, connection, sent, rfl, live, tried, rfl⟩)
          | error fault =>
              cases fault with
              | full => exact .inl ⟨_, rfl⟩
              | closed => exact .inr (.inr (.inr ⟨recipient, connection, rfl, live, tried, rfl⟩))

/-- A stored delivery appends one frame to its recipient's queue, or changes nothing. -/
theorem storeOffline_cases (recipient : AgentId) (frame : Bytes) :
    (∃ fault, router.storeOffline recipient frame = (.error fault, router)) ∨
    ∃ stored, router.storeOffline recipient frame = (.ok (), { router with offline := stored }) ∧
      (router.offline.queue recipient).length < router.offline.depth ∧
      stored.depth = router.offline.depth ∧
      ∀ agent, stored.queue agent =
        if agent = recipient then router.offline.queue recipient ++ [frame]
        else router.offline.queue agent := by
  unfold storeOffline
  rcases @MemoryOfflineQueueStore.enqueue_cases router.offline recipient frame with
    ⟨refused, _⟩ | ⟨stored, accepted, room, depth, queues⟩
  · exact .inl ⟨.offlineQueueFull, by rw [refused]⟩
  · exact .inr ⟨stored, by rw [accepted], room, depth, queues⟩

theorem storeOffline_eq_ok {recipient : AgentId} {frame : Bytes} :
    (router.storeOffline recipient frame).1 = .ok () ↔
      (router.offline.queue recipient).length < router.offline.depth := by
  unfold storeOffline
  rcases @MemoryOfflineQueueStore.enqueue_cases router.offline recipient frame with
    ⟨refused, full⟩ | ⟨stored, accepted, room, _⟩
  · simp [refused, full]
  · simp [accepted, room]

/-- A delivery is routed exactly when it names a recipient whose queue has room. -/
theorem routeCaDelivery_eq_ok {frame : Bytes} :
    (router.routeCaDelivery frame).1 = .ok () ↔
      ∃ recipient, deliveryRecipient frame = .ok recipient ∧ router.hasRoom recipient = true := by
  unfold routeCaDelivery routeLive
  cases parsed : deliveryRecipient frame with
  | error fault => simp
  | ok recipient =>
      simp only [Except.ok.injEq, exists_eq_left', hasRoom]
      cases live : router.connections.get recipient with
      | none => simpa using storeOffline_eq_ok
      | some connection =>
          unfold Channel.trySend
          by_cases closed : (router.channel connection.sender).closed = true
          · simpa [closed] using storeOffline_eq_ok
          · by_cases room : (router.channel connection.sender).frames.length <
                (router.channel connection.sender).capacity
            · simp [closed, room]
            · simp [closed, room]

/-! ## The channel to the CA -/

/-- What happens to the channel to the CA besides that requests are taken from it: it stays as wide
and open as it is, and what is put into it fits in a frame. -/
structure Feeds (before after : Router) : Prop where
  depth : after.caDepth = before.caDepth
  capacity : after.caRequests.capacity = before.caRequests.capacity
  closed : after.caRequests.closed = before.caRequests.closed
  short : ∀ request ∈ after.caRequests.frames,
    request ∈ before.caRequests.frames ∨ request.length ≤ maxFrameLen

theorem Feeds.of_same {before after : Router} (depth : after.caDepth = before.caDepth)
    (channel : after.caRequests = before.caRequests) : Feeds before after :=
  ⟨depth, by rw [channel], by rw [channel], fun _ member => .inl (channel ▸ member)⟩

/-- Routing a delivery leaves the channel to the CA alone. -/
theorem routeCaDelivery_channel (frame : Bytes) :
    (router.routeCaDelivery frame).2.caDepth = router.caDepth ∧
      (router.routeCaDelivery frame).2.caRequests = router.caRequests := by
  unfold routeCaDelivery
  rcases @routeLive_cases router frame with ⟨_, result⟩ | ⟨_, _, _, _, _, _, result⟩ |
    ⟨_, _, _, result⟩ | ⟨_, _, _, _, _, result⟩ <;> rw [result] <;> exact ⟨rfl, rfl⟩

theorem feeds_routeCaDelivery (frame : Bytes) : Feeds router (router.routeCaDelivery frame).2 :=
  .of_same (routeCaDelivery_channel frame).1 (routeCaDelivery_channel frame).2

/-- A request that is accepted is put at the end of the channel to the CA. -/
theorem routeAgentRequest_cases (identity : AgentId) (frame : Bytes) :
    (∃ fault, router.routeAgentRequest identity frame = (.error fault, router)) ∨
    ∃ envelope, parseEnvelope frame = .ok envelope ∧
      router.routeAgentRequest identity frame = (.ok (), { router with
        caRequests := { router.caRequests with
          frames := router.caRequests.frames ++ [frame] } }) := by
  unfold routeAgentRequest
  cases parsed : parseEnvelope frame with
  | error fault => exact .inl ⟨_, rfl⟩
  | ok envelope =>
      simp only
      split
      · exact .inl ⟨_, rfl⟩
      · split
        · exact .inl ⟨_, rfl⟩
        · split
          · exact .inl ⟨_, rfl⟩
          · cases tried : router.caRequests.trySend frame with
            | error fault => exact .inl ⟨_, rfl⟩
            | ok sent =>
                obtain ⟨_, _, rfl⟩ := Channel.trySend_eq_ok tried
                exact .inr ⟨envelope, rfl, rfl⟩

/-- A request that is accepted is for the CA and names the Agent of its connection as sender. -/
theorem routeAgentRequest_checked {identity : AgentId} {frame : Bytes}
    (accepted : (router.routeAgentRequest identity frame).1 = .ok ()) :
    ∃ envelope, parseEnvelope frame = .ok envelope ∧ envelope.sender = identity ∧
      envelope.sender ≠ .ca ∧ envelope.recipient = .ca := by
  unfold routeAgentRequest at accepted
  cases parsed : parseEnvelope frame with
  | error fault => simp [parsed] at accepted
  | ok envelope =>
      simp only [parsed] at accepted
      split at accepted
      · cases accepted
      · rename_i own
        split at accepted
        · cases accepted
        · rename_i directed
          simp only [not_or, not_not] at own directed
          exact ⟨envelope, rfl, own, directed.2.1, directed.2.2⟩

/-- An agent's request is accepted while the channel to the CA has room. -/
theorem routeAgentRequest_frame (header : EnvelopeHeader) {ciphertext : Bytes}
    (tag : FixedBytes tagLen) (signature : FixedBytes signatureLen)
    (short : ciphertext.length ≤ maxPlaintextLen) (sender : header.sender ≠ .ca)
    (recipient : header.recipient = .ca) (messageType : header.messageType ≠ .publicationResponse)
    (depth : router.caDepth ≠ 0) (opened : router.caRequests.closed = false)
    (room : router.caRequests.frames.length < router.caRequests.capacity) :
    router.routeAgentRequest header.sender (header.frame ciphertext tag signature) =
      (.ok (), { router with
        caRequests := { router.caRequests with
          frames := router.caRequests.frames ++ [header.frame ciphertext tag signature] } }) := by
  unfold routeAgentRequest
  rw [parseEnvelope_frame header tag signature short]
  simp [EnvelopeHeader.view, sender, recipient, messageType, depth, Channel.trySend, opened, room]

theorem feeds_routeAgentRequest (identity : AgentId) (frame : Bytes) :
    Feeds router (router.routeAgentRequest identity frame).2 := by
  rcases @routeAgentRequest_cases router identity frame with ⟨_, result⟩ | ⟨_, parsed, result⟩
  · rw [result]
    exact .of_same rfl rfl
  · rw [result]
    refine ⟨rfl, rfl, rfl, fun request member => ?_⟩
    rcases List.mem_append.mp member with old | new
    · exact .inl old
    · rw [List.mem_singleton.mp new]
      exact .inr (parseEnvelope_short parsed)

theorem receive_eq_some {registration later : AgentRegistration} {frame : Bytes} {after : Router}
    (received : router.receive registration = some (frame, later, after)) :
    ∃ rest : List Bytes, registration.pending ++ (router.channel registration.receiver).frames =
        frame :: (later.pending ++ rest) ∧
      later = { registration with pending := later.pending } ∧
      after = router.setChannel registration.receiver
        { router.channel registration.receiver with frames := rest } ∧
      rest <:+ (router.channel registration.receiver).frames := by
  unfold receive at received
  cases tried : registration.tryRecv (router.channel registration.receiver) with
  | none => simp [tried] at received
  | some result =>
      obtain ⟨first, remaining, rest⟩ := result
      simp only [tried, Option.some.injEq, Prod.mk.injEq] at received
      obtain ⟨rfl, rfl, rfl⟩ := received
      obtain ⟨split, sameLater, sameRest, shorter⟩ := AgentRegistration.tryRecv_eq_some tried
      exact ⟨rest.frames, split, sameLater, by rw [← sameRest], shorter⟩

end Router

/-! ## Sample deliveries -/

def sampleAgent : AgentId := ⟨.fill 16 1⟩

def sampleHeader : EnvelopeHeader where
  messageType := .publicationResponse
  sender := .ca
  recipient := sampleAgent
  handler := ⟨.fill 16 2⟩
  sessionId := ⟨.fill 16 3⟩
  ephemeralPublic := .fill 32 0
  salt := .fill 32 0

def sampleDelivery (marker : UInt8) : Bytes :=
  sampleHeader.frame [marker] (.fill tagLen 0) (.fill signatureLen 0)

end SecurePubSub.Broker
