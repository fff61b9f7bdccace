import SecurePubSub.Broker.Router
import SecurePubSub.Data.Machine

namespace SecurePubSub.Broker

open SecurePubSub.Data SecurePubSub.Protocol

/-! The router under concurrent threads, one locked section at a time.

A delivery to an Agent without a connection is decided in one section and stored
in a later one. Between the two, the Agent may register.
-/

/-- The router, the registrations its threads hold and the deliveries they have yet to store, with
the deliveries that were accepted, those handed out and those a requeue had no room for. -/
structure Threads where
  router : Router
  registrations : List AgentRegistration
  storing : List (AgentId × Bytes)
  accepted : List Bytes
  handedOut : List Bytes
  cut : List Bytes

/-- One section of one thread; registrations and deliveries are named by their place. -/
inductive Section where
  | register (identity : AgentId)
  | unregister (identity : AgentId) (generation : Nat)
  | disconnectAndRequeue (place : Nat) (first : Option Bytes)
  | receive (place : Nat)
  | dropReceiver (place : Nat)
  | routeLive (frame : Bytes)
  | storeOffline (place : Nat)

namespace Threads

/-- What a requeue takes back or finds stored and has no room for. -/
def excess (threads : Threads) (registration : AgentRegistration) (first : Option Bytes) :
    List Bytes :=
  if threads.router.current registration.identity registration.generation then
    (first.toList ++ (registration.pending ++
      (threads.router.channel registration.receiver).frames) ++
        threads.router.offline.queue registration.identity).drop threads.router.offline.depth
  else []

def step (threads : Threads) : Section → Threads
  | .register identity =>
      match threads.router.register identity with
      | (.ok registration, router) =>
          { threads with router, registrations := threads.registrations ++ [registration] }
      | (.error _, router) => { threads with router }
  | .unregister identity generation =>
      { threads with router := threads.router.unregister identity generation }
  | .disconnectAndRequeue place first =>
      match threads.registrations[place]? with
      | none => threads
      | some registration =>
          let (_, later, router) := threads.router.disconnectAndRequeue registration first
          { threads with
            router
            registrations := threads.registrations.set place later
            cut := threads.cut ++ threads.excess registration first }
  | .receive place =>
      match threads.registrations[place]? with
      | none => threads
      | some registration =>
          match threads.router.receive registration with
          | none => threads
          | some (frame, later, router) =>
              { threads with
                router
                registrations := threads.registrations.set place later
                handedOut := threads.handedOut ++ [frame] }
  | .dropReceiver place =>
      match threads.registrations[place]? with
      | none => threads
      | some registration =>
          { threads with router := threads.router.dropReceiver registration.receiver }
  | .routeLive frame =>
      match threads.router.routeLive frame with
      | (.finished (.ok _), router) =>
          { threads with router, accepted := threads.accepted ++ [frame] }
      | (.finished (.error _), router) => { threads with router }
      | (.storing recipient frame, router) =>
          { threads with router, storing := threads.storing ++ [(recipient, frame)] }
  | .storeOffline place =>
      match threads.storing[place]? with
      | none => threads
      | some (recipient, frame) =>
          match threads.router.storeOffline recipient frame with
          | (.ok _, router) =>
              { threads with
                router
                storing := threads.storing.eraseIdx place
                accepted := threads.accepted ++ [frame] }
          | (.error _, router) =>
              { threads with router, storing := threads.storing.eraseIdx place }

def start (maximum onlineDepth offlineDepth caQueueDepth : Nat) : Threads where
  router := .withLimits maximum onlineDepth offlineDepth caQueueDepth
  registrations := []
  storing := []
  accepted := []
  handedOut := []
  cut := []

def Online (threads : Threads) (agent : AgentId) : Prop :=
  (threads.router.connections.get agent).isSome

/-- No delivery to the identity is between its two sections. -/
def Settled (threads : Threads) (agent : AgentId) : Prop :=
  ∀ frame, (agent, frame) ∉ threads.storing

/-- The section does not add to the stored deliveries of a recipient that came online in the
meantime. -/
def StoresOffline (threads : Threads) : Section → Prop
  | .storeOffline place =>
      ∀ recipient frame, threads.storing[place]? = some (recipient, frame) →
        (threads.router.offline.queue recipient).length < threads.router.offline.depth →
        ¬ threads.Online recipient
  | _ => True

def captured (threads : Threads) (connection : Connection) : List Bytes :=
  match threads.registrations[connection.sender]? with
  | some registration => registration.pending
  | none => []

def live (threads : Threads) (connection : Connection) : List Bytes :=
  (threads.router.channel connection.sender).frames

/-- The registration at a place is the Agent's and has not handed out the delivery. -/
def HeldAt (threads : Threads) (agent : AgentId) (frame : Bytes) (place : Nat) : Prop :=
  ∃ registration, threads.registrations[place]? = some registration ∧
    registration.identity = agent ∧
    frame ∈ registration.pending ++ (threads.router.channel registration.receiver).frames

/-- A registration of the Agent that is not that of its connection still holds the delivery: it
was disconnected without a requeue. -/
def LeftBehind (threads : Threads) (agent : AgentId) (connection : Connection) (frame : Bytes) :
    Prop :=
  ∃ place, place ≠ connection.sender ∧ threads.HeldAt agent frame place

/-- Only Agents without a connection have stored deliveries. -/
def Unstranded (threads : Threads) : Prop :=
  ∀ agent, threads.Online agent → threads.router.offline.queue agent = []

variable {threads : Threads}

theorem unstranded_start (maximum onlineDepth offlineDepth caQueueDepth : Nat) :
    (start maximum onlineDepth offlineDepth caQueueDepth).Unstranded := by
  intro agent _
  rfl

/-- What keeps or cuts connections and leaves the stored deliveries alone strands nothing. -/
theorem Unstranded.of_fewer {later : Threads} (unstranded : threads.Unstranded)
    (fewer : ∀ agent, later.Online agent → threads.Online agent)
    (kept : later.router.offline = threads.router.offline) : later.Unstranded := by
  intro agent online
  rw [kept]
  exact unstranded agent (fewer agent online)

theorem online_erase {router : Router} {identity agent : AgentId}
    (online : (((router.connections.erase identity).get agent)).isSome) :
    agent ≠ identity ∧ (router.connections.get agent).isSome := by
  rw [SortedMap.get_erase] at online
  split at online
  · cases online
  · rename_i other
    exact ⟨other, online⟩

theorem unstranded_register (unstranded : threads.Unstranded) (identity : AgentId) :
    (threads.step (.register identity)).Unstranded := by
  rcases threads.router.register_cases identity with ⟨fault, refused⟩ | ⟨absent, _, registered⟩
  · simp only [step, refused]
    exact unstranded
  · simp only [step, registered]
    intro agent online
    simp only [Online, SortedMap.get_insert] at online
    rw [MemoryOfflineQueueStore.queue_take]
    split
    · rfl
    · rename_i other
      rw [if_neg other] at online
      exact unstranded agent online

theorem unstranded_disconnect (unstranded : threads.Unstranded) (place : Nat)
    (first : Option Bytes) :
    (threads.step (.disconnectAndRequeue place first)).Unstranded := by
  simp only [step]
  cases found : threads.registrations[place]? with
  | none => exact unstranded
  | some registration =>
      rcases threads.router.disconnectAndRequeue_cases registration first with
        ⟨_, stale⟩ | ⟨result, _, requeued⟩
      · simp only [stale]
        exact unstranded
      · simp only [requeued]
        intro agent online
        obtain ⟨other, before⟩ := online_erase online
        rw [MemoryOfflineQueueStore.queue_prepend, if_neg other]
        exact unstranded agent before

theorem unstranded_routeLive (unstranded : threads.Unstranded) (frame : Bytes) :
    (threads.step (.routeLive frame)).Unstranded := by
  rcases threads.router.routeLive_cases frame with
    ⟨fault, refused⟩ | ⟨recipient, connection, sent, _, _, _, finished⟩ |
      ⟨recipient, _, _, storing⟩ | ⟨recipient, connection, _, _, _, storing⟩
  · simp only [step, refused]
    exact unstranded
  · simp only [step, finished]
    exact unstranded
  · simp only [step, storing]
    exact unstranded
  · simp only [step, storing]
    exact unstranded.of_fewer (fun agent online => (online_erase online).2) rfl

theorem unstranded_storeOffline (unstranded : threads.Unstranded) {place : Nat}
    (offline : threads.StoresOffline (.storeOffline place)) :
    (threads.step (.storeOffline place)).Unstranded := by
  simp only [step]
  cases found : threads.storing[place]? with
  | none => exact unstranded
  | some delivery =>
      obtain ⟨recipient, frame⟩ := delivery
      rcases threads.router.storeOffline_cases recipient frame with
        ⟨fault, refused⟩ | ⟨stored, accepted, room, _, queues⟩
      · simp only [refused]
        exact unstranded
      · simp only [accepted]
        intro agent online
        have other : agent ≠ recipient := by
          rintro rfl
          exact offline agent frame found room online
        rw [queues, if_neg other]
        exact unstranded agent online

theorem unstranded_step (unstranded : threads.Unstranded) {made : Section}
    (offline : threads.StoresOffline made) : (threads.step made).Unstranded := by
  cases made with
  | register identity => exact unstranded_register unstranded identity
  | unregister identity generation =>
      simp only [step, Router.unregister]
      split
      · exact unstranded.of_fewer (fun agent online => (online_erase online).2) rfl
      · exact unstranded
  | disconnectAndRequeue place first => exact unstranded_disconnect unstranded place first
  | receive place =>
      simp only [step]
      cases found : threads.registrations[place]? with
      | none => exact unstranded
      | some registration =>
          simp only
          cases received : threads.router.receive registration with
          | none => exact unstranded
          | some result =>
              obtain ⟨frame, later, router⟩ := result
              obtain ⟨rest, _, _, rfl, _⟩ := Router.receive_eq_some received
              exact unstranded
  | dropReceiver place =>
      simp only [step]
      cases found : threads.registrations[place]? with
      | none => exact unstranded
      | some registration => exact unstranded
  | routeLive frame => exact unstranded_routeLive unstranded frame
  | storeOffline place => exact unstranded_storeOffline unstranded offline

/-! ## Where the accepted deliveries are -/

/-- A registration receives from the channel made with it, a connection sends to the channel of a
registration of its Agent, and a delivery is stored for its recipient. -/
structure Consistent (threads : Threads) : Prop where
  made : threads.registrations.length = threads.router.channels.length
  receivers : ∀ (place : Nat) (registration : AgentRegistration),
    threads.registrations[place]? = some registration → registration.receiver = place
  connected : ∀ agent connection, threads.router.connections.get agent = some connection →
    ∃ registration, threads.registrations[connection.sender]? = some registration ∧
      registration.identity = agent
  storing : ∀ recipient frame, (recipient, frame) ∈ threads.storing →
    Router.deliveryRecipient frame = .ok recipient

/-- A delivery to the Agent is in its offline queue or held by one of its registrations. -/
def Queued (threads : Threads) (agent : AgentId) (frame : Bytes) : Prop :=
  frame ∈ threads.router.offline.queue agent ∨ ∃ place, threads.HeldAt agent frame place

/-- A delivery to the Agent was handed out, was cut by a requeue or is queued. -/
def Traced (threads : Threads) (agent : AgentId) (frame : Bytes) : Prop :=
  frame ∈ threads.handedOut ∨ frame ∈ threads.cut ∨ threads.Queued agent frame

/-- No accepted delivery is lost track of. -/
def Accounted (threads : Threads) : Prop :=
  ∀ frame ∈ threads.accepted, ∀ agent, Router.deliveryRecipient frame = .ok agent →
    threads.Traced agent frame

theorem consistent_start (maximum onlineDepth offlineDepth caQueueDepth : Nat) :
    (start maximum onlineDepth offlineDepth caQueueDepth).Consistent := by
  constructor
  · rfl
  · intro place registration found
    simp [start] at found
  · intro agent connection found
    cases found
  · intro recipient frame member
    cases member

theorem Consistent.inside (consistent : threads.Consistent) {place : Nat}
    {registration : AgentRegistration} (found : threads.registrations[place]? = some registration) :
    place < threads.router.channels.length := by
  rw [← consistent.made]
  exact (List.getElem?_eq_some_iff.mp found).1

/-- Handling one registration with its channel keeps the threads consistent. -/
theorem Consistent.update (consistent : threads.Consistent) {later : Threads} {place : Nat}
    {before after : AgentRegistration} (found : threads.registrations[place]? = some before)
    (registrations : later.registrations = threads.registrations.set place after)
    (identity : after.identity = before.identity) (receiver : after.receiver = before.receiver)
    (channels : later.router.channels.length = threads.router.channels.length)
    (connections : ∀ agent connection, later.router.connections.get agent = some connection →
      threads.router.connections.get agent = some connection)
    (storing : later.storing = threads.storing) : later.Consistent := by
  have held : place < threads.registrations.length := (List.getElem?_eq_some_iff.mp found).1
  constructor
  · rw [registrations, List.length_set, channels, consistent.made]
  · intro other registration present
    rw [registrations, List.getElem?_set] at present
    split at present
    · rename_i same
      cases present
      rw [receiver, consistent.receivers place before found, same]
    · exact consistent.receivers other registration present
  · intro agent connection live
    obtain ⟨registration, present, own⟩ := consistent.connected agent connection
      (connections agent connection live)
    rw [registrations, List.getElem?_set]
    split
    · rename_i same
      rw [← same, found] at present
      cases present
      exact ⟨after, rfl, identity.trans own⟩
    · exact ⟨registration, present, own⟩
  · rw [storing]
    exact consistent.storing

/-- Giving up connections keeps the threads consistent. -/
theorem Consistent.of_fewer (consistent : threads.Consistent) {later : Threads}
    (registrations : later.registrations = threads.registrations)
    (channels : later.router.channels.length = threads.router.channels.length)
    (connections : ∀ agent connection, later.router.connections.get agent = some connection →
      threads.router.connections.get agent = some connection)
    (storing : ∀ recipient frame, (recipient, frame) ∈ later.storing →
      (recipient, frame) ∈ threads.storing ∨ Router.deliveryRecipient frame = .ok recipient) :
    later.Consistent := by
  constructor
  · rw [registrations, channels, consistent.made]
  · rw [registrations]
    exact consistent.receivers
  · intro agent connection live
    rw [registrations]
    exact consistent.connected agent connection (connections agent connection live)
  · intro recipient frame member
    cases storing recipient frame member with
    | inl old => exact consistent.storing recipient frame old
    | inr checked => exact checked

theorem get_erase_some {router : Router} {identity agent : AgentId} {connection : Connection}
    (live : (router.connections.erase identity).get agent = some connection) :
    router.connections.get agent = some connection := by
  rw [SortedMap.get_erase] at live
  split at live
  · cases live
  · exact live

theorem consistent_register (consistent : threads.Consistent) (identity : AgentId) :
    (threads.step (.register identity)).Consistent := by
  rcases threads.router.register_cases identity with ⟨fault, refused⟩ | ⟨_, _, registered⟩
  · simp only [step, refused]
    exact consistent
  · simp only [step, registered]
    constructor
    · simp [consistent.made]
    · intro place registration found
      simp only [List.getElem?_append] at found
      split at found
      · exact consistent.receivers place registration found
      · rename_i beyond
        obtain ⟨here, rfl⟩ := List.getElem?_eq_some_iff.mp found
        simp only [List.length_singleton] at here
        simp only [List.getElem_singleton]
        rw [← consistent.made]
        omega
    · intro agent connection live
      simp only [SortedMap.get_insert] at live
      split at live
      · rename_i same
        cases live
        simp [← consistent.made, same]
      · obtain ⟨registration, present, own⟩ := consistent.connected agent connection live
        refine ⟨registration, ?_, own⟩
        rw [List.getElem?_append_left (List.getElem?_eq_some_iff.mp present).1]
        exact present
    · exact consistent.storing

theorem consistent_step (consistent : threads.Consistent) (made : Section) :
    (threads.step made).Consistent := by
  cases made with
  | register identity => exact consistent_register consistent identity
  | unregister identity generation =>
      simp only [step, Router.unregister]
      split
      · exact consistent.of_fewer rfl rfl (fun _ _ live => get_erase_some live)
          (fun _ _ member => .inl member)
      · exact consistent
  | disconnectAndRequeue place first =>
      simp only [step]
      cases found : threads.registrations[place]? with
      | none => exact consistent
      | some registration =>
          rcases threads.router.disconnectAndRequeue_cases registration first with
            ⟨current, stale⟩ | ⟨result, _, requeued⟩
          · simp only [stale]
            exact consistent.update found rfl rfl rfl rfl (fun _ _ live => live) rfl
          · simp only [requeued]
            exact consistent.update found rfl rfl rfl (by simp [Router.setChannel])
              (fun _ _ live => get_erase_some live) rfl
  | receive place =>
      simp only [step]
      cases found : threads.registrations[place]? with
      | none => exact consistent
      | some registration =>
          simp only
          cases received : threads.router.receive registration with
          | none => exact consistent
          | some result =>
              obtain ⟨frame, later, router⟩ := result
              obtain ⟨rest, _, sameLater, rfl, _⟩ := Router.receive_eq_some received
              exact consistent.update found rfl (by rw [sameLater]) (by rw [sameLater])
                (by simp [Router.setChannel]) (fun _ _ live => live) rfl
  | dropReceiver place =>
      simp only [step]
      cases found : threads.registrations[place]? with
      | none => exact consistent
      | some registration =>
          exact consistent.of_fewer rfl (by simp [Router.dropReceiver, Router.setChannel])
            (fun _ _ live => live) (fun _ _ member => .inl member)
  | routeLive frame =>
      rcases threads.router.routeLive_cases frame with
        ⟨fault, refused⟩ | ⟨recipient, connection, sent, _, _, _, finished⟩ |
          ⟨recipient, checked, _, storing⟩ | ⟨recipient, connection, checked, _, _, storing⟩
      · simp only [step, refused]
        exact consistent
      · simp only [step, finished]
        exact consistent.of_fewer rfl (by simp [Router.setChannel]) (fun _ _ live => live)
          (fun _ _ member => .inl member)
      · simp only [step, storing]
        refine consistent.of_fewer rfl rfl (fun _ _ live => live) fun other delivery member => ?_
        cases List.mem_append.mp member with
        | inl old => exact .inl old
        | inr last =>
            cases List.mem_singleton.mp last
            exact .inr checked
      · simp only [step, storing]
        refine consistent.of_fewer rfl rfl (fun _ _ live => get_erase_some live)
          fun other delivery member => ?_
        cases List.mem_append.mp member with
        | inl old => exact .inl old
        | inr last =>
            cases List.mem_singleton.mp last
            exact .inr checked
  | storeOffline place =>
      simp only [step]
      cases found : threads.storing[place]? with
      | none => exact consistent
      | some delivery =>
          obtain ⟨recipient, frame⟩ := delivery
          rcases threads.router.storeOffline_cases recipient frame with
            ⟨fault, refused⟩ | ⟨stored, accepted, _, _, _⟩
          · simp only [refused]
            exact consistent.of_fewer rfl rfl (fun _ _ live => live)
              (fun _ _ member => .inl (List.mem_of_mem_eraseIdx member))
          · simp only [accepted]
            exact consistent.of_fewer rfl rfl (fun _ _ live => live)
              (fun _ _ member => .inl (List.mem_of_mem_eraseIdx member))

/-- A step that accepts nothing keeps the deliveries accounted for if it hands out or cuts what
leaves the queues. -/
theorem Accounted.of_traced (accounted : threads.Accounted) {later : Threads}
    (accepted : later.accepted = threads.accepted)
    (handedOut : threads.handedOut ⊆ later.handedOut) (cut : threads.cut ⊆ later.cut)
    (queued : ∀ agent frame, threads.Queued agent frame → later.Traced agent frame) :
    later.Accounted := by
  intro frame member agent recipient
  rw [accepted] at member
  rcases accounted frame member agent recipient with out | lost | kept
  · exact .inl (handedOut out)
  · exact .inr (.inl (cut lost))
  · exact queued agent frame kept

/-- A step that leaves the queues of the Agents as they are but for an accepted delivery. -/
theorem Accounted.of_accepted (accounted : threads.Accounted) {later : Threads} {added : Bytes}
    {recipient : AgentId} (checked : Router.deliveryRecipient added = .ok recipient)
    (accepted : later.accepted = threads.accepted ++ [added])
    (handedOut : later.handedOut = threads.handedOut) (cut : later.cut = threads.cut)
    (queued : ∀ agent frame, threads.Queued agent frame → later.Queued agent frame)
    (stored : later.Queued recipient added) : later.Accounted := by
  intro frame member agent named
  rw [accepted] at member
  cases List.mem_append.mp member with
  | inl old =>
      rcases accounted frame old agent named with out | lost | kept
      · exact .inl (handedOut ▸ out)
      · exact .inr (.inl (cut ▸ lost))
      · exact .inr (.inr (queued agent frame kept))
  | inr last =>
      cases List.mem_singleton.mp last
      rw [checked] at named
      cases named
      exact .inr (.inr stored)

/-- An unchanged registration whose channel lost nothing holds what it held. -/
theorem HeldAt.of_subset {agent : AgentId} {frame : Bytes} {place : Nat}
    (held : threads.HeldAt agent frame place) (consistent : threads.Consistent) {later : Threads}
    (registration : later.registrations[place]? = threads.registrations[place]?)
    (channel : (threads.router.channel place).frames ⊆ (later.router.channel place).frames) :
    later.HeldAt agent frame place := by
  obtain ⟨before, present, own, member⟩ := held
  have receiver : before.receiver = place := consistent.receivers place before present
  refine ⟨before, registration.trans present, own, ?_⟩
  rw [receiver] at member ⊢
  cases List.mem_append.mp member with
  | inl captured => exact List.mem_append_left _ captured
  | inr live => exact List.mem_append_right _ (channel live)

theorem accounted_register (consistent : threads.Consistent) (accounted : threads.Accounted)
    (identity : AgentId) : (threads.step (.register identity)).Accounted := by
  rcases threads.router.register_cases identity with ⟨fault, refused⟩ | ⟨_, _, registered⟩
  · simp only [step, refused]
    exact accounted
  · simp only [step, registered]
    refine accounted.of_traced rfl (List.Subset.refl _) (List.Subset.refl _)
      fun agent frame queued => .inr (.inr ?_)
    cases queued with
    | inl stored =>
        by_cases same : agent = identity
        · subst same
          -- the stored deliveries go to the new registration
          refine .inr ⟨threads.registrations.length, ?_⟩
          refine ⟨⟨agent, threads.router.generation, threads.router.offline.queue agent,
            threads.router.channels.length⟩, by simp, rfl, ?_⟩
          exact List.mem_append_left _ stored
        · refine .inl ?_
          rw [MemoryOfflineQueueStore.queue_take, if_neg same]
          exact stored
    | inr kept =>
        obtain ⟨place, held⟩ := kept
        obtain ⟨before, present, _⟩ := id held
        have inside : place < threads.registrations.length :=
          (List.getElem?_eq_some_iff.mp present).1
        refine .inr ⟨place, held.of_subset consistent ?_ ?_⟩
        · exact List.getElem?_append_left inside
        · rw [consistent.made] at inside
          simp [Router.channel, List.getD_eq_getElem?_getD, List.getElem?_append_left inside]

/-- Handling one registration with its channel: what the others hold stays where it is. -/
theorem Accounted.update (accounted : threads.Accounted) (consistent : threads.Consistent)
    {later : Threads} {place : Nat} {before after : AgentRegistration}
    (found : threads.registrations[place]? = some before)
    (registrations : later.registrations = threads.registrations.set place after)
    (channels : ∀ other, other ≠ place →
      later.router.channel other = threads.router.channel other)
    (accepted : later.accepted = threads.accepted)
    (handedOut : threads.handedOut ⊆ later.handedOut) (cut : threads.cut ⊆ later.cut)
    (stored : ∀ agent frame, frame ∈ threads.router.offline.queue agent →
      later.Traced agent frame)
    (handled : ∀ frame ∈ before.pending ++ (threads.router.channel before.receiver).frames,
      later.Traced before.identity frame) : later.Accounted := by
  refine accounted.of_traced accepted handedOut cut fun agent frame queued => ?_
  rcases queued with waiting | ⟨other, held⟩
  · exact stored agent frame waiting
  · by_cases same : other = place
    · subst same
      obtain ⟨registration, present, own, member⟩ := held
      rw [found] at present
      cases present
      exact own ▸ handled frame member
    · refine .inr (.inr (.inr ⟨other, held.of_subset consistent ?_ ?_⟩))
      · rw [registrations, List.getElem?_set_ne (Ne.symm same)]
      · rw [channels other same]
        exact List.Subset.refl _

theorem stored_or_cut {frames : List Bytes} {frame : Bytes} (depth : Nat)
    (member : frame ∈ frames) : frame ∈ frames.take depth ∨ frame ∈ frames.drop depth := by
  rw [← List.take_append_drop depth frames] at member
  exact List.mem_append.mp member

theorem accounted_disconnect (consistent : threads.Consistent) (accounted : threads.Accounted)
    {place : Nat} {registration : AgentRegistration}
    (found : threads.registrations[place]? = some registration) (first : Option Bytes) :
    (threads.step (.disconnectAndRequeue place first)).Accounted := by
  have receiver := consistent.receivers place registration found
  have inside := consistent.inside found
  have listed : place < threads.registrations.length := consistent.made ▸ inside
  simp only [step, found]
  rcases threads.router.disconnectAndRequeue_cases registration first with
    ⟨_, stale⟩ | ⟨result, current, requeued⟩
  · simp only [stale]
    refine accounted.update consistent found rfl (fun _ _ => rfl) rfl (List.Subset.refl _)
      (List.subset_append_left _ _) ?_ ?_
    · intro agent frame stored
      exact .inr (.inr (.inl stored))
    · intro frame member
      exact .inr (.inr (.inr ⟨place, registration, by simp [listed], rfl, member⟩))
  · simp only [requeued, excess, current, if_true]
    refine accounted.update consistent found rfl ?_ rfl (List.Subset.refl _)
      (List.subset_append_left _ _) ?_ ?_
    · intro other different
      rw [receiver]
      exact (Router.channel_setChannel inside _ other).trans (if_neg different)
    · intro agent frame stored
      by_cases same : agent = registration.identity
      · subst same
        cases stored_or_cut threads.router.offline.depth (List.mem_append_right _ stored) with
        | inl kept =>
            refine .inr (.inr (.inl ?_))
            rw [MemoryOfflineQueueStore.queue_prepend, if_pos rfl]
            exact kept
        | inr lost => exact .inr (.inl (List.mem_append_right _ lost))
      · refine .inr (.inr (.inl ?_))
        rw [MemoryOfflineQueueStore.queue_prepend, if_neg same]
        exact stored
    · intro frame member
      cases stored_or_cut threads.router.offline.depth
        (List.mem_append_left _ (List.mem_append_right _ member)) with
      | inl kept =>
          refine .inr (.inr (.inl ?_))
          rw [MemoryOfflineQueueStore.queue_prepend, if_pos rfl]
          exact kept
      | inr lost => exact .inr (.inl (List.mem_append_right _ lost))

theorem accounted_receive (consistent : threads.Consistent) (accounted : threads.Accounted)
    {place : Nat} {registration later : AgentRegistration} {frame : Bytes} {router : Router}
    (found : threads.registrations[place]? = some registration)
    (received : threads.router.receive registration = some (frame, later, router)) :
    (threads.step (.receive place)).Accounted := by
  have receiver := consistent.receivers place registration found
  have inside := consistent.inside found
  have listed : place < threads.registrations.length := consistent.made ▸ inside
  obtain ⟨rest, split, sameLater, rfl, _⟩ := Router.receive_eq_some received
  simp only [step, found, received]
  refine accounted.update consistent found rfl ?_ rfl (List.subset_append_left _ _)
    (List.Subset.refl _) ?_ ?_
  · intro other different
    rw [receiver, Router.channel_setChannel inside, if_neg different]
  · intro agent delivery stored
    exact .inr (.inr (.inl stored))
  · intro delivery member
    rw [split] at member
    cases List.mem_cons.mp member with
    | inl same => exact .inl (List.mem_append_right _ (List.mem_singleton.mpr same))
    | inr others =>
        refine .inr (.inr (.inr ⟨place, later, by simp [listed], by rw [sameLater], ?_⟩))
        rw [sameLater, receiver, Router.channel_setChannel inside, if_pos rfl]
        exact others

theorem accounted_routeLive (consistent : threads.Consistent) (accounted : threads.Accounted)
    (frame : Bytes) : (threads.step (.routeLive frame)).Accounted := by
  rcases threads.router.routeLive_cases frame with
    ⟨fault, refused⟩ | ⟨recipient, connection, sent, checked, live, accepted, finished⟩ |
      ⟨recipient, _, _, storing⟩ | ⟨recipient, connection, _, _, _, storing⟩
  · simp only [step, refused]
    exact accounted
  · simp only [step, finished]
    obtain ⟨registration, present, own⟩ := consistent.connected recipient connection live
    have inside := consistent.inside present
    have receiver := consistent.receivers _ _ present
    obtain ⟨_, _, rfl⟩ := Channel.trySend_eq_ok accepted
    refine accounted.of_accepted checked rfl rfl rfl ?_ ?_
    · intro agent delivery queued
      rcases queued with stored | ⟨place, held⟩
      · exact .inl stored
      · refine .inr ⟨place, held.of_subset consistent rfl ?_⟩
        rw [Router.channel_setChannel (inside)]
        split
        · rename_i same
          exact same ▸ List.subset_append_left _ _
        · exact List.Subset.refl _
    · refine .inr ⟨connection.sender, registration, present, own, ?_⟩
      rw [receiver, Router.channel_setChannel inside, if_pos rfl]
      simp
  · simp only [step, storing]
    exact accounted
  · simp only [step, storing]
    exact accounted

theorem accounted_storeOffline (consistent : threads.Consistent) (accounted : threads.Accounted)
    (place : Nat) : (threads.step (.storeOffline place)).Accounted := by
  simp only [step]
  cases found : threads.storing[place]? with
  | none => exact accounted
  | some delivery =>
      obtain ⟨recipient, frame⟩ := delivery
      have checked := consistent.storing recipient frame (List.mem_of_getElem? found)
      rcases threads.router.storeOffline_cases recipient frame with
        ⟨fault, refused⟩ | ⟨stored, accepted, _, _, queues⟩
      · simp only [refused]
        exact accounted
      · simp only [accepted]
        refine accounted.of_accepted checked rfl rfl rfl ?_ ?_
        · intro agent other queued
          rcases queued with waiting | held
          · refine .inl ?_
            rw [queues]
            split
            · rename_i same
              exact List.mem_append_left _ (same ▸ waiting)
            · exact waiting
          · exact .inr held
        · refine .inl ?_
          rw [queues, if_pos rfl]
          simp

theorem accounted_step (consistent : threads.Consistent) (accounted : threads.Accounted)
    (made : Section) : (threads.step made).Accounted := by
  cases made with
  | register identity => exact accounted_register consistent accounted identity
  | unregister identity generation =>
      simp only [step, Router.unregister]
      split
      · exact accounted
      · exact accounted
  | disconnectAndRequeue place first =>
      cases found : threads.registrations[place]? with
      | none => simpa only [step, found] using accounted
      | some registration => exact accounted_disconnect consistent accounted found first
  | receive place =>
      cases found : threads.registrations[place]? with
      | none => simpa only [step, found] using accounted
      | some registration =>
          cases received : threads.router.receive registration with
          | none => simpa only [step, found, received] using accounted
          | some result =>
              obtain ⟨frame, later, router⟩ := result
              exact accounted_receive consistent accounted found received
  | dropReceiver place =>
      cases found : threads.registrations[place]? with
      | none => simpa only [step, found] using accounted
      | some registration =>
          simp only [step, found]
          refine accounted.of_traced rfl (List.Subset.refl _) (List.Subset.refl _)
            fun agent frame queued => .inr (.inr ?_)
          rcases queued with stored | ⟨other, held⟩
          · exact .inl stored
          · refine .inr ⟨other, held.of_subset consistent rfl ?_⟩
            have receiver := consistent.receivers place registration found
            rw [receiver, Router.dropReceiver,
              Router.channel_setChannel (consistent.inside found)]
            split
            · rename_i same
              exact same ▸ List.Subset.refl _
            · exact List.Subset.refl _
  | routeLive frame => exact accounted_routeLive consistent accounted frame
  | storeOffline place => exact accounted_storeOffline consistent accounted place

/-- In a run that never stores a delivery for an Agent that came online, none is stranded: what
was accepted for an Agent with a connection waits in that connection, was handed out, had no room
in a requeue or was left with an earlier connection. -/
theorem online_agents_hold_their_deliveries (maximum onlineDepth offlineDepth caQueueDepth : Nat)
    (sections : List Section)
    (offline : Machine.Along step StoresOffline
      (start maximum onlineDepth offlineDepth caQueueDepth) sections) :
    let threads := Machine.run step (start maximum onlineDepth offlineDepth caQueueDepth) sections
    ∀ agent connection, threads.router.connections.get agent = some connection →
      threads.router.offlineLen agent = 0 ∧
        ∀ frame ∈ threads.accepted, Router.deliveryRecipient frame = .ok agent →
          frame ∈ threads.captured connection ∨ frame ∈ threads.live connection ∨
            frame ∈ threads.handedOut ∨ frame ∈ threads.cut ∨
            threads.LeftBehind agent connection frame := by
  intro threads agent connection online
  have unstranded : threads.Unstranded :=
    offline.preserves Unstranded (fun _ _ kept condition => unstranded_step kept condition)
      (unstranded_start maximum onlineDepth offlineDepth caQueueDepth)
  have tracked : threads.Consistent ∧ threads.Accounted :=
    Machine.run_preserves (fun threads : Threads => threads.Consistent ∧ threads.Accounted)
      (fun _ made sound => ⟨consistent_step sound.1 made, accounted_step sound.1 sound.2 made⟩)
      ⟨consistent_start maximum onlineDepth offlineDepth caQueueDepth,
        by intro frame member; cases member⟩
  have empty : threads.router.offline.queue agent = [] := by
    apply unstranded agent
    simp [Online, online]
  constructor
  · simp [Router.offlineLen, MemoryOfflineQueueStore.len, empty]
  · intro frame accepted recipient
    rcases tracked.2 frame accepted agent recipient with out | lost | stored | ⟨place, held⟩
    · exact .inr (.inr (.inl out))
    · exact .inr (.inr (.inr (.inl lost)))
    · rw [empty] at stored
      cases stored
    · by_cases own : place = connection.sender
      · obtain ⟨registration, present, _, member⟩ := held
        rw [tracked.1.receivers place registration present] at member
        rw [own] at present member
        cases List.mem_append.mp member with
        | inl waiting => exact .inl (by simpa [captured, present] using waiting)
        | inr waiting => exact .inr (.inl waiting)
      · exact .inr (.inr (.inr (.inr ⟨place, own, held⟩)))

def sampleSections : List Section :=
  [.routeLive (sampleDelivery 1), .storeOffline 0, .register sampleAgent]

theorem sample_agent_holds_its_deliveries :
    let threads := Machine.run step (start 1 1 1 1) sampleSections
    threads.router.offlineLen sampleAgent = 0 ∧
      ∀ frame ∈ threads.accepted, Router.deliveryRecipient frame = .ok sampleAgent →
        frame ∈ threads.captured ⟨1, 0⟩ ∨ frame ∈ threads.live ⟨1, 0⟩ ∨
          frame ∈ threads.handedOut ∨ frame ∈ threads.cut ∨
          threads.LeftBehind sampleAgent ⟨1, 0⟩ frame := by
  have apart : Machine.Along step StoresOffline (start 1 1 1 1) sampleSections := by
    refine ⟨trivial, ?_, trivial, trivial⟩
    intro recipient frame _ _ online
    have nobody : (step (start 1 1 1 1) (.routeLive (sampleDelivery 1))).router.connections.entries =
      [] := by decide +kernel
    simp [Online, SortedMap.get, nobody, SortedMap.lookupEntry] at online
  apply online_agents_hold_their_deliveries 1 1 1 1 sampleSections apart sampleAgent ⟨1, 0⟩
  decide +kernel

/-- A delivery decided while its Agent is offline and stored once the Agent has registered stays
in the offline queue. -/
theorem delivery_stranded : ¬ ∀ (maximum onlineDepth offlineDepth caQueueDepth : Nat)
    (sections : List Section),
    let threads := Machine.run step (start maximum onlineDepth offlineDepth caQueueDepth) sections
    ∀ agent, threads.Online agent → threads.Settled agent → threads.router.offlineLen agent = 0 := by
  intro always
  let sections : List Section :=
    [.routeLive (sampleDelivery 1), .register sampleAgent, .storeOffline 0]
  have stored : (Machine.run step (start 1 1 1 1) sections).storing = [] := by decide +kernel
  have emptied := always 1 1 1 1 sections sampleAgent (by unfold Online; decide +kernel)
    (by simp [Settled, stored])
  revert emptied
  decide +kernel

end Threads

end SecurePubSub.Broker
