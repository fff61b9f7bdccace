import SecurePubSub.Authority.Capacity
import SecurePubSub.Data.Machine
import SecurePubSub.Link.Pending

namespace SecurePubSub.Cad

open SecurePubSub.Data SecurePubSub.Data.Fallible SecurePubSub.Protocol SecurePubSub.Authority
  SecurePubSub.Link

/-! The loop in which the CA daemon serves the link to the Broker.

A round handles one event: it changes the state, has frames to send and says how
it ends. Sending can stop anywhere, which ends the connection and nothing else.
-/

/-- One call of `process`, with the frames that its deliveries were queued in. -/
structure ProcessCall where
  id : MessageId
  payload : Bytes
  result : Except Error ProcessResult
  frames : List LinkFrame

def ProcessCall.deliveries (call : ProcessCall) : List Bytes :=
  match call.result with
  | .ok (.deliveries frames) => frames
  | _ => []

/-- What outlives a connection, with the calls of `process` made so far. -/
structure LinkState (ρ : Type) where
  system : CaSystem ρ
  pendingDeliveries : PendingFrames LinkFrame
  acquiredRequests : DedupWindow
  currentRequest : Option MessageId
  calls : List ProcessCall

/-- How a round ends: the connection stays or is closed, closed over deliveries that do not fit,
or the daemon exits. -/
inductive Ending where
  | stay
  | closed
  | abandon
  | exit
deriving DecidableEq

structure Round (ρ : Type) where
  state : LinkState ρ
  frames : List LinkFrame
  ending : Ending

namespace LinkState

variable {ρ : Type} (random : CryptoRandom ρ) (state : LinkState ρ)

def onAck (id : MessageId) : Round ρ :=
  let pending := state.pendingDeliveries.acknowledge id
  match pending.isEmpty, state.currentRequest with
  | true, some request =>
      ⟨{ state with pendingDeliveries := pending, currentRequest := none },
        [LinkFrame.ack request], .stay⟩
  | _, _ => ⟨{ state with pendingDeliveries := pending }, [], .stay⟩

def acquire (request : MessageId) : Round ρ :=
  match state.acquiredRequests.insert request with
  | .error _ => ⟨state, [], .exit⟩
  | .ok acquired =>
      ⟨{ state with acquiredRequests := acquired }, [LinkFrame.ack request], .stay⟩

/-- Queues deliveries under the ids drawn for them. -/
def queueDeliveries : List MessageId → List Bytes → PendingFrames LinkFrame →
    Except LinkError (List LinkFrame × PendingFrames LinkFrame)
  | _, [], pending => pure ([], pending)
  | [], _ :: _, _ => .error .authentication
  | id :: draws, delivery :: rest, pending => do
      let frame ← LinkFrame.build .delivery id delivery
      let pending ← pending.insert id frame
      let (frames, pending) ← queueDeliveries draws rest pending
      pure (frame :: frames, pending)

/-- The state after `process` ran on a request, before its result is looked at. -/
def called (request : MessageId) (payload : Bytes) (nowSeconds : UInt64) : LinkState ρ :=
  let answer := state.system.authority.handle random payload nowSeconds state.system.world
  { state with
    system := { state.system with world := answer.2 }
    calls := state.calls ++ [⟨request, payload, answer.1, []⟩] }

def process (request : MessageId) (payload : Bytes) (nowSeconds : UInt64)
    (draws : List MessageId) : Round ρ :=
  let answer := state.system.authority.handle random payload nowSeconds state.system.world
  let called := state.called random request payload nowSeconds
  match answer.1 with
  | .ok .accepted => called.acquire request
  | .error _ => called.acquire request
  | .ok (.deliveries deliveries) =>
      if deliveries.length > state.pendingDeliveries.remaining then ⟨called, [], .abandon⟩
      else
        match queueDeliveries draws deliveries state.pendingDeliveries with
        | .error _ => ⟨called, [], .exit⟩
        | .ok (frames, pending) =>
            let queued : LinkState ρ :=
              { called with
                pendingDeliveries := pending
                calls := state.calls ++ [⟨request, payload, answer.1, frames⟩] }
            if frames.isEmpty then queued.acquire request
            else
              match queued.acquiredRequests.insert request with
              | .error _ => ⟨queued, [], .exit⟩
              | .ok acquired =>
                  ⟨{ queued with acquiredRequests := acquired, currentRequest := some request },
                    frames, .stay⟩

def onRequest (request : MessageId) (payload : Bytes) (nowSeconds : UInt64)
    (draws : List MessageId) : Round ρ :=
  if state.currentRequest = some request then ⟨state, [], .stay⟩
  else if state.acquiredRequests.contains request then ⟨state, [LinkFrame.ack request], .stay⟩
  else if state.currentRequest = none then state.process random request payload nowSeconds draws
  else ⟨state, [], .closed⟩

def onFrame (frame : LinkFrame) (nowSeconds : UInt64) (draws : List MessageId) : Round ρ :=
  match frame.kind with
  | .ack => state.onAck frame.id
  | .request => state.onRequest random frame.id frame.payload nowSeconds draws
  | _ => ⟨state, [], .closed⟩

def onBytes (bytes : Bytes) (nowSeconds : UInt64) (draws : List MessageId) : Round ρ :=
  match decode bytes with
  | .error _ => ⟨state, [], .closed⟩
  | .ok frame => state.onFrame random frame nowSeconds draws

@[simp] theorem onBytes_encoded (frame : LinkFrame) (nowSeconds : UInt64)
    (draws : List MessageId) :
    state.onBytes random frame.encoded nowSeconds draws =
      state.onFrame random frame nowSeconds draws := by
  rw [onBytes, frame.decode_encoded]

/-- Sends everything that is pending, on a new connection or at a tick of the retry timer. -/
def resend : Round ρ := ⟨state, state.pendingDeliveries.snapshot, .stay⟩

/-- Applies a reloaded configuration, if it could be read and its keys could be stored. -/
def reload (candidate : Option (EnvironmentPolicy × List (AgentId × PublicKeys))) : LinkState ρ :=
  match candidate, state.system.world.store with
  | some (policy, agents), .persistent store =>
      let answer := store.reconcileAgents agents
      let system := state.system.withStore (.persistent answer.2)
      match answer.1 with
      | .ok _ =>
          { state with system := { system with authority := { system.authority with policy } } }
      | .error _ => { state with system }
  | _, _ => state

/-- A reload changes the system only. -/
theorem reload_eq (candidate : Option (EnvironmentPolicy × List (AgentId × PublicKeys))) :
    ∃ system, state.reload candidate = { state with system } := by
  unfold reload
  split
  · dsimp only
    split
    · exact ⟨_, rfl⟩
    · exact ⟨_, rfl⟩
  · exact ⟨state.system, rfl⟩

end LinkState

/-! ## The daemon -/

inductive Phase where
  | accepting
  | connected
  | exited
deriving DecidableEq

structure Daemon (ρ : Type) where
  link : LinkState ρ
  phase : Phase

/-- What can happen to the daemon. Where it sends, `written` counts the frames written before a
write fails; without it every write succeeds. -/
inductive Input where
  | accept (written : Option Nat)
  | incoming (received : Option Bytes) (nowSeconds : UInt64) (draws : List MessageId)
      (written : Option Nat)
  | retry (written : Option Nat)
  | reload (candidate : Option (EnvironmentPolicy × List (AgentId × PublicKeys)))

/-- The frames that are written and whether these are all. -/
def write (frames : List LinkFrame) (written : Option Nat) : List LinkFrame × Bool :=
  match written with
  | none => (frames, true)
  | some count => if count < frames.length then (frames.take count, false) else (frames, true)

@[simp] theorem write_none (frames : List LinkFrame) : write frames none = (frames, true) := rfl

theorem write_front (frames : List LinkFrame) (written : Option Nat) :
    (write frames written).1 <+: frames := by
  unfold write
  split
  · exact List.prefix_refl _
  · split
    · exact List.take_prefix _ _
    · exact List.prefix_refl _

@[simp] theorem write_nil (written : Option Nat) : write [] written = ([], true) := by
  cases written <;> rfl

theorem write_single (frame : LinkFrame) (written : Option Nat) :
    (write [frame] written).1 = [] ∨ (write [frame] written).1 = [frame] := by
  unfold write
  split
  · exact .inr rfl
  · split
    · rename_i count cut
      rw [List.length_singleton, Nat.lt_one_iff] at cut
      rw [cut]
      exact .inl rfl
    · exact .inr rfl

def Round.finish {ρ : Type} (round : Round ρ) (written : Option Nat) : Daemon ρ × List LinkFrame :=
  let (sent, complete) := write round.frames written
  match round.ending with
  | .stay => (⟨round.state, if complete then .connected else .accepting⟩, sent)
  | .exit => (⟨round.state, .exited⟩, sent)
  | _ => (⟨round.state, .accepting⟩, sent)

@[simp] theorem Round.finish_link {ρ : Type} (round : Round ρ) (written : Option Nat) :
    (round.finish written).1.link = round.state := by
  unfold finish
  dsimp only
  split <;> rfl

@[simp] theorem Round.finish_sent {ρ : Type} (round : Round ρ) (written : Option Nat) :
    (round.finish written).2 = (write round.frames written).1 := by
  unfold finish
  dsimp only
  split <;> rfl

theorem Round.finish_stay {ρ : Type} {round : Round ρ} (stay : round.ending = .stay) :
    (round.finish none).1.phase = .connected := by
  simp [finish, stay]

theorem Round.finish_exited {ρ : Type} {round : Round ρ} {written : Option Nat} :
    (round.finish written).1.phase = .exited ↔ round.ending = .exit := by
  unfold finish
  by_cases complete : (write round.frames written).2 = true <;> cases round.ending <;>
    simp [complete]

namespace Daemon

variable {ρ : Type} (random : CryptoRandom ρ) (daemon : Daemon ρ)

/-- One event in the life of the daemon, with the frames it sends. -/
def step : Input → Daemon ρ × List LinkFrame
  | .accept written =>
      if daemon.phase = .accepting then daemon.link.resend.finish written else (daemon, [])
  | .incoming received nowSeconds draws written =>
      if daemon.phase = .connected then
        match received with
        | none => (⟨daemon.link, .accepting⟩, [])
        | some bytes => (daemon.link.onBytes random bytes nowSeconds draws).finish written
      else (daemon, [])
  | .retry written =>
      if daemon.phase = .connected ∧ daemon.link.pendingDeliveries.isEmpty = false then
        daemon.link.resend.finish written
      else (daemon, [])
  | .reload candidate =>
      if daemon.phase = .connected then (⟨daemon.link.reload candidate, daemon.phase⟩, [])
      else (daemon, [])

end Daemon

/-- Why the daemon does not start. -/
inductive StartError where
  | pendingDeliveries
  | store (error : Error)

/-- The link's part of the configuration. -/
structure LinkConfig where
  brokerPendingDeliveries : Nat
  brokerDedupEntries : Nat
  limits : StoreLimits
  agents : List (AgentId × PublicKeys)

def startup {ρ : Type} (config : LinkConfig) (authority : CertificateAuthority)
    (snapshot : SnapshotFile) (readFails : Bool) (rng : ρ) : Except StartError (Daemon ρ) := do
  rejectIf (config.brokerPendingDeliveries < config.limits.subscriptions) .pendingDeliveries
  let store ← (PersistentStore.open snapshot config.limits readFails).mapError .store
  let reconciled := store.reconcileAgents config.agents
  let _ ← reconciled.1.mapError .store
  pure ⟨{
    system := ⟨authority, ⟨.persistent reconciled.2, rng⟩⟩
    pendingDeliveries := .new config.brokerPendingDeliveries
    acquiredRequests := .new config.brokerDedupEntries
    currentRequest := none
    calls := [] }, .accepting⟩

end SecurePubSub.Cad
