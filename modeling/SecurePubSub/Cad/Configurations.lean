import SecurePubSub.Authority.Authenticity
import SecurePubSub.Authority.Reconciliation
import SecurePubSub.Authority.ReplayWindow
import SecurePubSub.Cad.DeliveryGroups

namespace SecurePubSub.Cad

open SecurePubSub.Data SecurePubSub.Data.Fallible SecurePubSub.Data.Program SecurePubSub.Protocol
  SecurePubSub.Authority SecurePubSub.Link

/-! The configuration that the daemon works under.

A reload reconciles the directory and replaces the policy or does neither, so the
two are always those of one configuration. What a call of `process` answers is
compared with the configuration at that moment.
-/

/-- A policy and the agents that are configured with it. -/
abbrev Configuration := EnvironmentPolicy × List (AgentId × PublicKeys)

section Calls

variable {ρ : Type}

structure InForce (configuration : Configuration) (system : CaSystem ρ) : Prop where
  policy : system.authority.policy = configuration.1
  directory : system.world.store.state.keys.entries.Perm configuration.2

/-- What a call answers is for a configured agent that signed the request, and its deliveries are
for configured agents that the policy lets this agent deliver to. -/
structure Obeys (configuration : Configuration) (system : CaSystem ρ) (call : ProcessCall) :
    Prop where
  signed : ∀ result, call.result = .ok result → ∃ envelope keys,
    parseEnvelope call.payload = .ok envelope ∧ (envelope.sender, keys) ∈ configuration.2 ∧
      system.authority.suite.verifyStrict keys.ed25519 envelope.signedBytes envelope.signature = true
  allowed : ∀ frame ∈ call.deliveries, ∃ envelope delivery keys publisher subscriber,
    parseEnvelope call.payload = .ok envelope ∧ delivery.publisher = envelope.sender ∧
      (delivery.recipient, keys) ∈ configuration.2 ∧
      Seals system.authority delivery keys.x25519 frame ∧
      StoredFor system.world.store.state delivery.publisher publisher ∧
      StoredFor system.world.store.state delivery.recipient subscriber ∧
      configuration.1.authorizeDelivery delivery.publisher publisher delivery.recipient subscriber
        delivery.typeId = true

variable {random : CryptoRandom ρ} {configuration : Configuration} {system : CaSystem ρ}

theorem InForce.known (inForce : InForce configuration system) {agent : AgentId}
    {keys : PublicKeys} (found : system.world.store.state.keysOf agent = .ok keys) :
    (agent, keys) ∈ configuration.2 := by
  have stored := SortedMap.get_eq_some.mp (StoreState.keysOf_eq_ok.mp found)
  exact inForce.directory.mem_iff.mp stored

/-- Only a request that was admitted is answered with a result. -/
theorem admits_of_ok {authority : CertificateAuthority} {world : World ρ} {frame : Bytes}
    {nowSeconds : UInt64} {result : ProcessResult}
    (answer : (authority.handle random frame nowSeconds world).1 = .ok result) :
    ∃ request keys, Admits authority world.store frame nowSeconds request keys := by
  obtain ⟨request, keys, admits, _⟩ | ⟨error, after, ran, _⟩ :=
    run_admission random authority world frame nowSeconds
  · exact ⟨request, keys, admits⟩
  · rw [CertificateAuthority.handle, CertificateAuthority.process, run_bind, ran] at answer
    cases answer

/-- A frame that the loop pushed was sealed to a recipient that the policy allows. -/
theorem pushed_allowed {authority : CertificateAuthority} {state : StoreState}
    {publication : Publication} {subscription : StoredSubscription} {frame : Bytes}
    (pushes : Pushes random authority state publication subscription frame) :
    ∃ keys subscriber, state.keysOf subscription.subscriber = .ok keys ∧
      Seals authority ⟨subscription.subscriber, subscription.handler, publication.typeId,
        publication.publisher, publication.value⟩ keys.x25519 frame ∧
      StoredFor state subscription.subscriber subscriber ∧
      authority.policy.authorizeDelivery publication.publisher publication.environment
        subscription.subscriber subscriber publication.typeId = true := by
  obtain ⟨keys, rng, routed, sealing⟩ := pushes
  obtain ⟨⟨_, encoded, subscriber, _, _, stored, parsed, _, allowed⟩, known⟩ :=
    route_eq_some.mp routed
  exact ⟨keys, subscriber, known, delivery_eq_ok sealing, ⟨encoded, stored, parsed⟩, allowed⟩

/-- Every call obeys the configuration that is in force when it is made. -/
theorem InForce.obeys (inForce : InForce configuration system) (id : MessageId) (payload : Bytes)
    (nowSeconds : UInt64) (frames : List LinkFrame) :
    Obeys configuration system ⟨id, payload,
      (system.authority.handle random payload nowSeconds system.world).1, frames⟩ where
  signed := by
    intro result answer
    obtain ⟨request, keys, admits⟩ := admits_of_ok answer
    have parsed := (acceptEnvelope_eq_ok admits.accepted).1
    have verified := (rejectIf_bind_eq_ok admits.verified).2
    exact ⟨request.envelope, keys, parsed, inForce.known admits.known,
      CryptoSuite.verifyEnvelopeSignature_eq_ok.mp verified⟩
  allowed := by
    intro frame member
    have answered : ∃ deliveries, (system.authority.handle random payload nowSeconds
        system.world).1 = .ok (.deliveries deliveries) ∧ frame ∈ deliveries := by
      unfold ProcessCall.deliveries at member
      dsimp only at member
      split at member
      · rename_i deliveries answer
        exact ⟨deliveries, answer, member⟩
      · cases member
    obtain ⟨deliveries, answer, inside⟩ := answered
    obtain ⟨request, publication, subscription, reaches, _, pushes⟩ :=
      pushes_of_deliveries answer inside
    obtain ⟨keys, subscriber, known, sealing, stored, allowed⟩ := pushed_allowed pushes
    obtain ⟨publicKeys, admits⟩ := reaches.admits
    obtain ⟨encoded, found, read⟩ := reaches.publishes.stored
    have sender : publication.publisher = request.envelope.sender := by
      rw [reaches.publishes.publication_eq]
    rw [inForce.policy] at allowed
    have parsed := (acceptEnvelope_eq_ok admits.accepted).1
    have own : StoredFor system.world.store.state publication.publisher publication.environment :=
      ⟨encoded, sender ▸ found, storedEnvironment_eq_ok.mp read⟩
    exact ⟨request.envelope, _, keys, publication.environment, subscriber, parsed, sender,
      inForce.known known, sealing, own, stored, allowed⟩

end Calls

/-! ## Rounds -/

namespace LinkState

variable {ρ : Type} {random : CryptoRandom ρ} {state : LinkState ρ}

/-- Whatever becomes of its result, `process` is called once and changes what it changes. -/
theorem process_called (request : MessageId) (payload : Bytes) (nowSeconds : UInt64)
    (draws : List MessageId) :
    let round := state.process random request payload nowSeconds draws
    let answer := state.system.authority.handle random payload nowSeconds state.system.world
    round.state.system = { state.system with world := answer.2 } ∧
      ∃ frames, round.state.calls = state.calls ++ [⟨request, payload, answer.1, frames⟩] := by
  have acquired (called : LinkState ρ) : (called.acquire request).state.system = called.system ∧
      (called.acquire request).state.calls = called.calls := by
    unfold acquire
    split <;> exact ⟨rfl, rfl⟩
  intro round answer
  have shape : round = state.process random request payload nowSeconds draws := rfl
  unfold process at shape
  dsimp only at shape
  split at shape
  · obtain ⟨system, calls⟩ := acquired (state.called random request payload nowSeconds)
    rw [shape]
    exact ⟨system, [], calls⟩
  · obtain ⟨system, calls⟩ := acquired (state.called random request payload nowSeconds)
    rw [shape]
    exact ⟨system, [], calls⟩
  · split at shape
    · rw [shape]
      exact ⟨rfl, [], rfl⟩
    · split at shape
      · rw [shape]
        exact ⟨rfl, [], rfl⟩
      · rename_i frames pending queued
        split at shape
        · rw [shape]
          obtain ⟨system, calls⟩ := acquired _
          exact ⟨system, frames, calls⟩
        · split at shape
          · rw [shape]
            exact ⟨rfl, frames, rfl⟩
          · rw [shape]
            exact ⟨rfl, frames, rfl⟩

/-- A round leaves the system alone or makes one call of `process`. -/
theorem onBytes_called (bytes : Bytes) (nowSeconds : UInt64) (draws : List MessageId) :
    let round := state.onBytes random bytes nowSeconds draws
    (round.state.system = state.system ∧ round.state.calls = state.calls) ∨
      ∃ payload, 
        let answer := state.system.authority.handle random payload nowSeconds state.system.world
        round.state.system = { state.system with world := answer.2 } ∧
          ∃ id frames, round.state.calls = state.calls ++ [⟨id, payload, answer.1, frames⟩] := by
  intro round
  have shape : round = state.onBytes random bytes nowSeconds draws := rfl
  unfold onBytes at shape
  split at shape
  · exact .inl (by rw [shape]; exact ⟨rfl, rfl⟩)
  · rename_i frame decoded
    unfold onFrame at shape
    split at shape
    · rw [shape]
      refine .inl ⟨?_, calls_onAck frame.id⟩
      unfold onAck
      dsimp only
      split <;> rfl
    · unfold onRequest at shape
      split at shape
      · exact .inl (by rw [shape]; exact ⟨rfl, rfl⟩)
      · split at shape
        · exact .inl (by rw [shape]; exact ⟨rfl, rfl⟩)
        · split at shape
          · obtain ⟨system, frames, calls⟩ :=
              @process_called _ random state frame.id frame.payload nowSeconds draws
            rw [shape]
            exact .inr ⟨frame.payload, system, frame.id, frames, calls⟩
          · exact .inl (by rw [shape]; exact ⟨rfl, rfl⟩)
    · exact .inl (by rw [shape]; exact ⟨rfl, rfl⟩)

end LinkState

/-! ## Reloads -/

namespace Daemon

variable {ρ : Type} {random : CryptoRandom ρ} {daemon : Daemon ρ} {configuration : Configuration}

/-- The configuration that an event brings into force, if its directory can be stored. -/
def applies (daemon : Daemon ρ) : Input → Option Configuration
  | .reload (some (policy, agents)) =>
      match daemon.link.system.world.store with
      | .persistent store =>
          if daemon.phase = .connected ∧ (store.reconcileAgents agents).1.isOk = true then
            some (policy, agents)
          else none
      | .memory _ => none
  | _ => none

variable (random) in
/-- The configuration in force after some events: the last that was applied. -/
def inForce (configuration : Configuration) : Daemon ρ → List Input → Configuration
  | _, [] => configuration
  | daemon, input :: rest =>
      inForce ((daemon.applies input).getD configuration) (daemon.step random input).1 rest

theorem reload_inForce (inForce : InForce configuration daemon.link.system)
    (connected : daemon.phase = .connected) (candidate : Option Configuration) :
    InForce ((daemon.applies (.reload candidate)).getD configuration)
      (daemon.link.reload candidate).system := by
  cases candidate with
  | none => exact inForce
  | some applied =>
      obtain ⟨policy, agents⟩ := applied
      unfold applies LinkState.reload
      dsimp only
      cases held : daemon.link.system.world.store with
      | memory store => exact inForce
      | persistent store =>
          dsimp only
          cases done : (store.reconcileAgents agents).1 with
          | error error =>
              rw [if_neg (by simp [Except.isOk, Except.toBool])]
              have same := (store.reconcileAgents_of_error done).1
              obtain ⟨policies, directory⟩ := inForce
              rw [held] at directory
              refine ⟨policies, ?_⟩
              change (store.reconcileAgents agents).2.state.keys.entries.Perm _
              rw [same]
              exact directory
          | ok finished =>
              rw [if_pos ⟨connected, rfl⟩]
              exact ⟨rfl, (PersistentStore.reconcileAgents_of_ok done).1.directory⟩

/-- One event keeps a whole configuration in force and makes at most one call, which obeys the one
that was in force. -/
theorem step_obeys (inForce : InForce configuration daemon.link.system) (input : Input) :
    let next := (daemon.step random input).1
    InForce ((daemon.applies input).getD configuration) next.link.system ∧
      (next.link.calls = daemon.link.calls ∨
        ∃ call, next.link.calls = daemon.link.calls ++ [call] ∧
          Obeys configuration daemon.link.system call) := by
  have resent (written : Option Nat) :
      InForce configuration (daemon.link.resend.finish written).1.link.system ∧
        (daemon.link.resend.finish written).1.link.calls = daemon.link.calls := by
    rw [Round.finish_link]
    exact ⟨inForce, rfl⟩
  cases input with
  | accept written =>
      dsimp only [step]
      split
      · exact ⟨(resent written).1, .inl (resent written).2⟩
      · exact ⟨inForce, .inl rfl⟩
  | retry written =>
      dsimp only [step]
      split
      · exact ⟨(resent written).1, .inl (resent written).2⟩
      · exact ⟨inForce, .inl rfl⟩
  | reload candidate =>
      dsimp only [step]
      split
      · rename_i connected
        refine ⟨reload_inForce inForce connected candidate, .inl ?_⟩
        obtain ⟨system, changed⟩ := daemon.link.reload_eq candidate
        rw [changed]
      · rename_i idle
        refine ⟨?_, .inl rfl⟩
        have ignored : daemon.applies (.reload candidate) = none := by
          unfold applies
          split
          · split
            · exact if_neg fun applied => idle applied.1
            · rfl
          · rfl
        rw [ignored]
        exact inForce
  | incoming received nowSeconds draws written =>
      dsimp only [step]
      split
      · cases received with
        | none => exact ⟨inForce, .inl rfl⟩
        | some bytes =>
            dsimp only
            rw [Round.finish_link]
            obtain ⟨system, calls⟩ | ⟨payload, system, id, frames, calls⟩ :=
              @LinkState.onBytes_called _ random daemon.link bytes nowSeconds draws
            · rw [system]
              exact ⟨inForce, .inl calls⟩
            · rw [system]
              refine ⟨⟨inForce.policy, ?_⟩, .inr ⟨_, calls, ?_⟩⟩
              · change (daemon.link.system.authority.handle random payload nowSeconds
                  daemon.link.system.world).2.store.state.keys.entries.Perm _
                rw [handle_keys]
                exact inForce.directory
              · exact inForce.obeys id payload nowSeconds frames
      · exact ⟨inForce, .inl rfl⟩

/-- What a run adds to the calls obeys the configuration at the event that made it. -/
theorem run_obeys (inForce : InForce configuration daemon.link.system) (inputs : List Input) :
    let after := Machine.run (fun daemon input => (daemon.step random input).1) daemon
    InForce (daemon.inForce random configuration inputs) (after inputs).link.system ∧
      ∀ call ∈ (after inputs).link.calls, call ∈ daemon.link.calls ∨
        ∃ earlier input, earlier ++ [input] <+: inputs ∧
          (after (earlier ++ [input])).link.calls = (after earlier).link.calls ++ [call] ∧
          Obeys (daemon.inForce random configuration earlier) (after earlier).link.system call := by
  induction inputs generalizing daemon configuration with
  | nil => exact ⟨inForce, fun call member => .inl member⟩
  | cons input rest ih =>
      intro after
      obtain ⟨next, one⟩ := step_obeys inForce input
      obtain ⟨last, more⟩ := ih next
      refine ⟨last, fun call member => ?_⟩
      rcases more call member with present | ⟨earlier, made, front, calls, obeys⟩
      · rcases one with same | ⟨added, calls, obeys⟩
        · exact .inl (same ▸ present)
        · rw [calls] at present
          rcases List.mem_append.mp present with old | new
          · exact .inl old
          · cases List.mem_singleton.mp new
            have front : [] ++ [input] <+: input :: rest := ⟨rest, rfl⟩
            exact .inr ⟨[], input, front, calls, obeys⟩
      · exact .inr ⟨input :: earlier, made, (List.prefix_cons_inj input).mpr front, calls, obeys⟩

theorem inForce_startup {config : LinkConfig} {authority : CertificateAuthority}
    {snapshot : SnapshotFile} {readFails : Bool} {rng : ρ}
    (started : startup config authority snapshot readFails rng = .ok daemon) :
    InForce (authority.policy, config.agents) daemon.link.system ∧ daemon.link.calls = [] := by
  obtain ⟨_, _, started⟩ := bind_eq_ok.mp started
  obtain ⟨store, _, started⟩ := bind_eq_ok.mp started
  obtain ⟨_, reconciled, started⟩ := bind_eq_ok.mp started
  cases started
  have done := mapError_eq_ok.mp reconciled
  exact ⟨⟨rfl, (PersistentStore.reconcileAgents_of_ok done).1.directory⟩, rfl⟩

end Daemon

/-- At every moment of every run the policy and the directory are those of the configuration that
was applied last, and each call of `process` obeys the configuration at its moment. -/
theorem calls_obey_configuration {ρ : Type} (random : CryptoRandom ρ) {config : LinkConfig}
    {authority : CertificateAuthority} {snapshot : SnapshotFile} {readFails : Bool} {rng : ρ}
    {daemon : Daemon ρ} (started : startup config authority snapshot readFails rng = .ok daemon)
    (inputs : List Input) :
    let after := Machine.run (fun daemon input => (daemon.step random input).1) daemon
    let inForce := daemon.inForce random (authority.policy, config.agents)
    InForce (inForce inputs) (after inputs).link.system ∧
      ∀ call ∈ (after inputs).link.calls, ∃ earlier input, earlier ++ [input] <+: inputs ∧
        (after (earlier ++ [input])).link.calls = (after earlier).link.calls ++ [call] ∧
        Obeys (inForce earlier) (after earlier).link.system call := by
  intro after inForce
  obtain ⟨initially, none⟩ := Daemon.inForce_startup started
  obtain ⟨last, each⟩ := @Daemon.run_obeys _ random _ _ initially inputs
  refine ⟨last, fun call member => ?_⟩
  rcases each call member with old | made
  · rw [none] at old
    cases old
  · exact made

/-! ## A reload that removes a subscriber -/

namespace Sample

def remaining : List (AgentId × PublicKeys) := config.agents.take 2

/-- Agent 3 is no longer configured when the publication arrives. -/
def reloading : List Input :=
  inputs.dropLast ++ .reload (some (Authority.Sample.authority.policy, remaining)) ::
    inputs.drop (inputs.length - 1)

end Sample

theorem sample_calls_obey_configuration : ∃ daemon, Sample.started = .ok daemon ∧
    ∃ earlier call, call.deliveries.length = 1 ∧ Obeys
      (daemon.inForce .counting (Authority.Sample.authority.policy, Sample.config.agents) earlier)
      (Machine.run (fun daemon input => (daemon.step .counting input).1) daemon
        earlier).link.system call := by
  obtain ⟨daemon, started, evaluated⟩ := @Sample.exists_started (fun daemon =>
    let reached := Machine.run (fun daemon input => (daemon.step .counting input).1) daemon
      Sample.reloading
    reached.link.calls.any (fun call => decide (call.deliveries.length = 1)))
    (by decide +kernel)
  obtain ⟨call, member, one⟩ := List.any_eq_true.mp evaluated
  obtain ⟨_, each⟩ := calls_obey_configuration .counting started Sample.reloading
  obtain ⟨earlier, _, _, _, obeys⟩ := each call member
  exact ⟨daemon, started, earlier, call, of_decide_eq_true one, obeys⟩

end SecurePubSub.Cad
