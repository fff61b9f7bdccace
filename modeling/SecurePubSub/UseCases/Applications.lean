import SecurePubSub.Authority.Authenticity
import SecurePubSub.UseCases.Boundaries

namespace SecurePubSub.UseCases

open SecurePubSub.Data SecurePubSub.Data.Fallible SecurePubSub.Protocol SecurePubSub.Authority

/-! What the deployable Agents publish and subscribe to, and whom the CA brings together for them.

An application chains calls on a builder and gives up at the first that fails.
-/

/-! ## Chained calls -/

/-- Calls that are chained with `?`. -/
def chain {Builder Call : Type} (apply : Builder → Call → Except ModelError Unit × Builder)
    (builder : Builder) : List Call → Except ModelError Builder
  | [] => .ok builder
  | call :: rest =>
      match apply builder call with
      | (.error error, _) => .error error
      | (.ok (), after) => chain apply after rest

/-- What each call preserves of the calls so far and the builder holds after a chain. -/
theorem chain_run {Builder Call : Type} {apply : Builder → Call → Except ModelError Unit × Builder}
    {holds : List Call → Builder → Prop} {builder after : Builder} {calls : List Call}
    (each : ∀ made builder call after, holds made builder → apply builder call = (.ok (), after) →
      holds (made ++ [call]) after)
    (initially : holds [] builder) (chained : chain apply builder calls = .ok after) :
    holds calls after := by
  have whole : ∀ made, holds made builder → holds (made ++ calls) after := by
    clear initially
    induction calls generalizing builder with
    | nil =>
        cases chained
        intro made now
        rw [List.append_nil]
        exact now
    | cons call rest ih =>
        intro made now
        unfold chain at chained
        split at chained
        · cases chained
        · rename_i next applied
          have later := ih chained (made ++ [call]) (each made builder call next now applied)
          rw [List.append_assoc, List.singleton_append] at later
          exact later
  exact whole [] initially

section Chained

variable {Domain : Type}

/-- What is built has these clauses, which fit the protocol. -/
def Makes (built : Except ModelError (PredicateBuilder Domain)) (clauses : List ClauseRef) : Prop :=
  ∀ predicate, built = .ok predicate → predicate.clauses = clauses ∧ BoundedClauses clauses

theorem makes_bounded (marker : BytesAttribute Domain) (value : Bytes) :
    Makes (PredicateBuilder.bounded marker value) [⟨marker.id, .eq, .bytes value⟩] := by
  intro predicate built
  have clauses := (PredicateBuilder.bounded_eq_ok built).2
  exact ⟨clauses, clauses ▸ (PredicateBuilder.bounded_requires built).bounded⟩

theorem Makes.chained {built : Except ModelError (PredicateBuilder Domain)}
    {clauses : List ClauseRef} (makes : Makes built clauses)
    (calls : List (PredicateBuilder.Call Domain)) :
    Makes (do let first ← built; chain PredicateBuilder.apply first calls)
      (clauses ++ calls.map PredicateBuilder.Call.clause) := by
  intro predicate done
  obtain ⟨first, made, chained⟩ := bind_eq_ok.mp done
  obtain ⟨same, bounded⟩ := makes first made
  have each (made : List (PredicateBuilder.Call Domain)) (builder : PredicateBuilder Domain)
      (call : PredicateBuilder.Call Domain) (after : PredicateBuilder Domain)
      (holds : builder.Requires [] ∧
        builder.clauses = clauses ++ made.map PredicateBuilder.Call.clause)
      (applied : builder.apply call = (.ok (), after)) : after.Requires [] ∧
        after.clauses = clauses ++ (made ++ [call]).map PredicateBuilder.Call.clause := by
    have kept := holds.1.apply call
    rw [applied] at kept
    refine ⟨kept, ?_⟩
    rw [PredicateBuilder.apply_eq_ok applied, holds.2, List.map_append, List.append_assoc]
    rfl
  have whole := chain_run each ⟨⟨same ▸ bounded, List.nil_subset _⟩, by simp [same]⟩ chained
  exact ⟨whole.2, whole.2 ▸ whole.1.bounded⟩

end Chained

/-! ## The applications -/

namespace SmartBuilding

def sensorReading : TypeId := ⟨0x1001⟩

def certifiedDevice : BoolAttribute Domain := ⟨⟨0x1004⟩, .caIssued⟩

def userRole : I64Attribute Domain := ⟨⟨0x1005⟩, .caIssued⟩

inductive UserRole where
  | controlOperator
  | maintenanceOperator
  | observer

def UserRole.value : UserRole → Int64
  | controlOperator => 1
  | maintenanceOperator => 2
  | observer => 3

/-- The audience of a sensor, on a board or not. -/
def sensorAudience (building : Bytes) : Except ModelError (AudienceBuilder Domain) := do
  let predicate ← audience building
  chain PredicateBuilder.apply predicate [.i64 userRole .eq UserRole.controlOperator.value]

def panelSubscription (building : Bytes) : Except ModelError (SubscriptionBuilder Domain) := do
  let predicate ← subscription building
  chain PredicateBuilder.apply predicate [.bool certifiedDevice .eq true]

end SmartBuilding

namespace MultiTenant

def domainEvent : TypeId := ⟨0x3001⟩

def serviceRole : I64Attribute Domain := ⟨⟨0x3004⟩, .caIssued⟩

def clearanceLevel : I64Attribute Domain := ⟨⟨0x3005⟩, .caIssued⟩

inductive ServiceRole where
  | publisher
  | consumer
  | auditor
  | securityOperator

def ServiceRole.value : ServiceRole → Int64
  | publisher => 1
  | consumer => 2
  | auditor => 3
  | securityOperator => 4

def eventAudience (tenant : Bytes) : Except ModelError (AudienceBuilder Domain) := do
  let predicate ← audience tenant
  chain PredicateBuilder.apply predicate
    [.i64 serviceRole .eq ServiceRole.consumer.value, .i64 clearanceLevel .ge 1]

def consumerSubscription (tenant : Bytes) : Except ModelError (SubscriptionBuilder Domain) := do
  let predicate ← subscription tenant
  chain PredicateBuilder.apply predicate [.i64 serviceRole .eq ServiceRole.publisher.value]

end MultiTenant

namespace RobotSwarm

def droneTelemetry : TypeId := ⟨0x2001⟩

def targetDetected : TypeId := ⟨0x2002⟩

def taskAssignment : TypeId := ⟨0x2004⟩

def robotRole : I64Attribute Domain := ⟨⟨0x2003⟩, .caIssued⟩

def capability : I64Attribute Domain := ⟨⟨0x2004⟩, .caIssued⟩

def operational : BoolAttribute Domain := ⟨⟨0x2006⟩, .selfDeclared⟩

def batteryLevel : I64Attribute Domain := ⟨⟨0x2007⟩, .selfDeclared⟩

def recipientId : BytesAttribute Domain := ⟨⟨0x200a⟩, .caIssued⟩

inductive RobotRole where
  | coordinator
  | scout
  | responder
  | relay

def RobotRole.value : RobotRole → Int64
  | coordinator => 1
  | scout => 2
  | responder => 3
  | relay => 4

/-- `Capability::Transport`. -/
def transport : Int64 := 3

/-- What a scout publishes for a line of its input: a target that it names or telemetry. -/
def scoutReport (line : Bytes) : TypeId × Bytes :=
  match (asBytes "target ").isPrefixOf? line with
  | some target => (targetDetected, target)
  | none => (droneTelemetry, line)

def scoutAudience (swarm : Bytes) (epoch : Int64) (typeId : TypeId) :
    Except ModelError (AudienceBuilder Domain) := do
  let predicate ← audience swarm epoch
  let role := if typeId = droneTelemetry then RobotRole.coordinator else RobotRole.responder
  chain PredicateBuilder.apply predicate [.i64 robotRole .eq role.value]

def coordinatorSubscription (swarm : Bytes) (epoch : Int64) :
    Except ModelError (SubscriptionBuilder Domain) := do
  let predicate ← subscription swarm epoch
  chain PredicateBuilder.apply predicate [.i64 robotRole .eq RobotRole.scout.value]

/-- The audience of a task that a coordinator assigns to one responder. -/
def taskAudience (swarm : Bytes) (epoch : Int64) (recipient : Bytes) :
    Except ModelError (AudienceBuilder Domain) := do
  let predicate ← audience swarm epoch
  chain PredicateBuilder.apply predicate [.i64 robotRole .eq RobotRole.responder.value,
    .i64 capability .eq transport, .bool operational .eq true, .i64 batteryLevel .ge 25,
    .bytes recipientId .eq recipient]

def responderSubscription (swarm : Bytes) (epoch : Int64) :
    Except ModelError (SubscriptionBuilder Domain) := do
  let predicate ← subscription swarm epoch
  chain PredicateBuilder.apply predicate [.i64 robotRole .eq RobotRole.coordinator.value]

end RobotSwarm

/-! ## Deliveries of one publication -/

section Deliveries

variable {ρ : Type} {random : CryptoRandom ρ} {authority : CertificateAuthority} {world : World ρ}
  {publisher : AgentCore.Agent} {typeId : TypeId} {audience : List ClauseRef} {value : Bytes}
  {frame : Bytes} {nowSeconds : UInt64}

/-- What one delivery of a publication says about its two ends. -/
structure Connects (authority : CertificateAuthority) (state : StoreState) (publisher : AgentId)
    (typeId : TypeId) (value : Bytes) (sent : Bytes) (subscription : StoredSubscription)
    (publishing subscribing : EnvironmentRef) : Prop where
  stored : subscription ∈ state.subscriptions.forType typeId
  sealing : ∃ keys, state.keysOf subscription.subscriber = .ok keys ∧
    Seals authority ⟨subscription.subscriber, subscription.handler, typeId, publisher, value⟩
      keys.x25519 sent
  publisher : StoredFor state publisher publishing
  subscriber : StoredFor state subscription.subscriber subscribing

/-- A stored subscription that was made with a predicate. -/
def Asks (subscription : StoredSubscription) (predicate : List ClauseRef) : Prop :=
  subscription.encoded = (subscription.kind.request subscription.typeId subscription.handler
    predicate).plaintext

/-- A publication that an Agent built is admitted as that, if the CA has the Agent's keys. -/
theorem admitted_as_built (correct : authority.suite.Correct)
    (trusted : publisher.ca.x25519 = authority.suite.x25519Public authority.keys.x25519)
    (built : AgentCore.BuiltFrame authority.suite publisher (.publish typeId audience value) frame)
    {request : CertificateAuthority.Admitted} {keys : PublicKeys}
    (admits : Admits authority world.store frame nowSeconds request keys) :
    request.envelope.sender = publisher.id ∧
      request.operation = .publish typeId (predicateRef audience) value := by
  let evidence : Evidence := ⟨world.store.state.keys, fun agent request =>
    agent = publisher.id ∧ request = .publish typeId audience value⟩
  have genuine : Genuine authority evidence frame := by
    intro envelope others accepted _ _
    obtain ⟨_, _, whole, _⟩ := parseEnvelope_eq_ok (acceptEnvelope_eq_ok accepted).1
    have signed : envelope.signedBytes = signedPart frame := by
      rw [signedPart, whole, List.length_append, FixedBytes.length_bytes, Nat.add_sub_cancel]
      exact List.take_left.symm
    exact ⟨publisher, _, frame, built, trusted, signed, rfl, rfl⟩
  obtain ⟨meant, ⟨sender, same⟩, _, _, _, means⟩ := genuine.meant correct admits.accepted
    (StoreState.keysOf_eq_ok.mp admits.known) admits.verified admits.opened
  rw [same] at means
  exact ⟨sender, means⟩

theorem Asks.parsed {subscription : StoredSubscription} {predicate : List ClauseRef}
    (asks : Asks subscription predicate) (bounded : BoundedClauses predicate) :
    parseOperation subscription.encoded = .ok (match subscription.kind with
      | .oneShot => .subscribe subscription.typeId (predicateRef predicate)
      | .permanent => .subscribePermanent subscription.typeId (predicateRef predicate)) := by
  rw [asks]
  cases subscription.kind with
  | oneShot => exact parseOperation_subscribe bounded.1 bounded.2
  | permanent => exact parseOperation_subscribePermanent bounded.1 bounded.2

theorem Asks.predicate_eq {subscription : StoredSubscription} {interest : List ClauseRef}
    {predicate : PredicateRef} (asks : Asks subscription interest)
    (bounded : BoundedClauses interest)
    (parsed : parseOperation subscription.encoded = .ok (match subscription.kind with
      | .oneShot => .subscribe typeId predicate
      | .permanent => .subscribePermanent typeId predicate)) :
    predicate = predicateRef interest := by
  have stated := (asks.parsed bounded).symm.trans parsed
  cases kind : subscription.kind with
  | oneShot =>
      rw [kind] at stated
      exact (OperationRef.subscribe.inj (Except.ok.inj stated)).2.symm
  | permanent =>
      rw [kind] at stated
      exact (OperationRef.subscribePermanent.inj (Except.ok.inj stated)).2.symm

/-- What the loop is run for is the publication that was built. -/
theorem published_as_built (correct : authority.suite.Correct)
    (trusted : publisher.ca.x25519 = authority.suite.x25519Public authority.keys.x25519)
    (built : AgentCore.BuiltFrame authority.suite publisher (.publish typeId audience value) frame)
    {request : CertificateAuthority.Admitted} {publication : Publication}
    (reaches : ReachesLoop authority world.store frame nowSeconds request publication) :
    ∃ environment, StoredFor world.store.state publisher.id environment ∧
      publication = ⟨publisher.id, environment, typeId, predicateRef audience, value⟩ := by
  obtain ⟨publicKeys, admits⟩ := reaches.admits
  obtain ⟨sender, operation⟩ := admitted_as_built correct trusted built admits
  obtain ⟨encoded, found, read⟩ := reaches.publishes.stored
  have same := OperationRef.publish.inj (reaches.operation.symm.trans operation)
  refine ⟨publication.environment, ⟨encoded, sender ▸ found, storedEnvironment_eq_ok.mp read⟩, ?_⟩
  have whole := reaches.publishes.publication_eq
  rw [sender, same.1, same.2.1, same.2.2] at whole
  exact whole

/-- Deliveries stay within the audience, and within what a subscription asks for. -/
theorem delivered_within (correct : authority.suite.Correct)
    (trusted : publisher.ca.x25519 = authority.suite.x25519Public authority.keys.x25519)
    (built : AgentCore.BuiltFrame authority.suite publisher (.publish typeId audience value) frame)
    (bounded : BoundedClauses audience) {frames : List Bytes}
    (answer : (authority.handle random frame nowSeconds world).1 = .ok (.deliveries frames))
    {sent : Bytes} (member : sent ∈ frames) :
    ∃ subscription publishing subscribing,
      Connects authority world.store.state publisher.id typeId value sent subscription publishing
        subscribing ∧
      (∀ clause ∈ audience, clause.HoldsIn subscribing) ∧
      ∀ interest, BoundedClauses interest → Asks subscription interest →
        ∀ clause ∈ interest, clause.HoldsIn publishing := by
  obtain ⟨request, publication, subscription, reaches, stored, pushes⟩ :=
    pushes_of_deliveries answer member
  obtain ⟨publishing, publishes, rfl⟩ := published_as_built correct trusted built reaches
  obtain ⟨keys, rng, routed, sealing⟩ := pushes
  obtain ⟨⟨predicate, held, subscribing, parsed, wanted, present, environment, reached, _⟩, known⟩ :=
    route_eq_some.mp routed
  refine ⟨subscription, publishing, subscribing,
    ⟨stored, ⟨keys, known, delivery_eq_ok sealing⟩, publishes, ⟨held, present, environment⟩⟩,
    (evaluate_predicateRef bounded).mp reached, ?_⟩
  intro interest small asks
  rw [asks.predicate_eq small parsed] at wanted
  exact (evaluate_predicateRef small).mp wanted

end Deliveries

/-! ## Flows -/

/-- What the CA delivers of the publications that are built with an audience goes to Agents where
`reached` holds, and by a subscription with the given interest only if `heard` holds at the
publisher. -/
def Flow {Domain : Type} (typeId : TypeId) (audience : Except ModelError (AudienceBuilder Domain))
    (interest : Except ModelError (SubscriptionBuilder Domain)) (reached heard : List ClauseRef) :
    Prop :=
  ∀ (ρ σ : Type) (random : CryptoRandom ρ) (drawn : CryptoRandom σ)
    (authority : CertificateAuthority) (world : World ρ) (publisher : AgentCore.Agent)
    (predicate : AudienceBuilder Domain) (outputLen : Nat) (value frame : Bytes) (state : σ)
    (nowSeconds : UInt64) (frames : List Bytes),
    authority.suite.Correct →
    publisher.ca.x25519 = authority.suite.x25519Public authority.keys.x25519 →
    audience = .ok predicate →
    (AgentCore.publishInto authority.suite drawn publisher outputLen typeId predicate.clauses value
      state).1 = .ok frame →
    (authority.handle random frame nowSeconds world).1 = .ok (.deliveries frames) →
    ∀ sent ∈ frames, ∃ subscription publishing subscribing,
      Connects authority world.store.state publisher.id typeId value sent subscription publishing
        subscribing ∧
      (∀ clause ∈ reached, clause.HoldsIn subscribing) ∧
      ∀ wanted, interest = .ok wanted → Asks subscription wanted.clauses →
        ∀ clause ∈ heard, clause.HoldsIn publishing

theorem Flow.of_makes {Domain : Type} {typeId : TypeId} {reached heard : List ClauseRef}
    {audience interest : Except ModelError (PredicateBuilder Domain)}
    (audienceMakes : Makes audience reached) (interestMakes : Makes interest heard) :
    Flow typeId audience interest reached heard := by
  intro ρ σ random drawn authority world publisher predicate outputLen value frame state nowSeconds
    frames correct trusted made published answer sent member
  obtain ⟨clauses, bounded⟩ := audienceMakes predicate made
  rw [clauses] at published
  have built : AgentCore.BuiltFrame authority.suite publisher (.publish typeId reached value)
      frame := AgentCore.build_eq_ok published
  obtain ⟨subscription, publishing, subscribing, connects, within, asked⟩ :=
    delivered_within correct trusted built bounded answer member
  refine ⟨subscription, publishing, subscribing, connects, within, ?_⟩
  intro wanted same asks
  obtain ⟨wants, small⟩ := interestMakes wanted same
  exact asked heard small (wants ▸ asks)

theorem RobotSwarm.makes_constrained (swarm : Bytes) (epoch : Int64) :
    Makes (RobotSwarm.constrained swarm epoch)
      [⟨RobotSwarm.swarmId.id, .eq, .bytes swarm⟩,
        ⟨RobotSwarm.missionEpoch.id, .eq, .i64 epoch⟩] := by
  intro predicate built
  obtain ⟨first, made, done⟩ := bind_eq_ok.mp built
  have clauses := (PredicateBuilder.bounded_eq_ok made).2
  have bounded := (RobotSwarm.constrained_requires built).bounded
  obtain ⟨error, failed⟩ | ⟨after, pushed, appended⟩ :=
    PredicateBuilder.push_cases RobotSwarm.missionEpoch.id .eq (.i64 epoch) first
  · rw [PredicateBuilder.i64, failed] at done
    cases done
  · rw [PredicateBuilder.i64, pushed] at done
    cases done
    rw [clauses] at appended
    rw [appended] at bounded
    exact ⟨appended, bounded⟩

/-- Every publication of an application stays within its building, tenant or swarm and mission
and reaches the roles that it is meant for, and every subscription hears the roles it asks for. -/
theorem application_flows_confined :
    (∀ building own, Flow SmartBuilding.sensorReading (SmartBuilding.sensorAudience building)
      (SmartBuilding.panelSubscription own)
      [⟨SmartBuilding.buildingId.id, .eq, .bytes building⟩,
        ⟨SmartBuilding.userRole.id, .eq, .i64 SmartBuilding.UserRole.controlOperator.value⟩]
      [⟨SmartBuilding.buildingId.id, .eq, .bytes own⟩,
        ⟨SmartBuilding.certifiedDevice.id, .eq, .bool true⟩]) ∧
    (∀ tenant own, Flow MultiTenant.domainEvent (MultiTenant.eventAudience tenant)
      (MultiTenant.consumerSubscription own)
      [⟨MultiTenant.tenantId.id, .eq, .bytes tenant⟩,
        ⟨MultiTenant.serviceRole.id, .eq, .i64 MultiTenant.ServiceRole.consumer.value⟩,
        ⟨MultiTenant.clearanceLevel.id, .ge, .i64 1⟩]
      [⟨MultiTenant.tenantId.id, .eq, .bytes own⟩,
        ⟨MultiTenant.serviceRole.id, .eq, .i64 MultiTenant.ServiceRole.publisher.value⟩]) ∧
    (∀ swarm epoch ownSwarm ownEpoch line, Flow (RobotSwarm.scoutReport line).1
      (RobotSwarm.scoutAudience swarm epoch (RobotSwarm.scoutReport line).1)
      (RobotSwarm.coordinatorSubscription ownSwarm ownEpoch)
      [⟨RobotSwarm.swarmId.id, .eq, .bytes swarm⟩, ⟨RobotSwarm.missionEpoch.id, .eq, .i64 epoch⟩,
        ⟨RobotSwarm.robotRole.id, .eq,
          .i64 (if (RobotSwarm.scoutReport line).1 = RobotSwarm.droneTelemetry then
            RobotSwarm.RobotRole.coordinator else RobotSwarm.RobotRole.responder).value⟩]
      [⟨RobotSwarm.swarmId.id, .eq, .bytes ownSwarm⟩,
        ⟨RobotSwarm.missionEpoch.id, .eq, .i64 ownEpoch⟩,
        ⟨RobotSwarm.robotRole.id, .eq, .i64 RobotSwarm.RobotRole.scout.value⟩]) ∧
    ∀ swarm epoch recipient ownSwarm ownEpoch, Flow RobotSwarm.taskAssignment
      (RobotSwarm.taskAudience swarm epoch recipient)
      (RobotSwarm.responderSubscription ownSwarm ownEpoch)
      [⟨RobotSwarm.swarmId.id, .eq, .bytes swarm⟩, ⟨RobotSwarm.missionEpoch.id, .eq, .i64 epoch⟩,
        ⟨RobotSwarm.robotRole.id, .eq, .i64 RobotSwarm.RobotRole.responder.value⟩,
        ⟨RobotSwarm.capability.id, .eq, .i64 RobotSwarm.transport⟩,
        ⟨RobotSwarm.operational.id, .eq, .bool true⟩,
        ⟨RobotSwarm.batteryLevel.id, .ge, .i64 25⟩,
        ⟨RobotSwarm.recipientId.id, .eq, .bytes recipient⟩]
      [⟨RobotSwarm.swarmId.id, .eq, .bytes ownSwarm⟩,
        ⟨RobotSwarm.missionEpoch.id, .eq, .i64 ownEpoch⟩,
        ⟨RobotSwarm.robotRole.id, .eq, .i64 RobotSwarm.RobotRole.coordinator.value⟩] := by
  refine ⟨?_, ?_, ?_, ?_⟩
  · intro building own
    exact Flow.of_makes ((makes_bounded _ _).chained _) ((makes_bounded _ _).chained _)
  · intro tenant own
    exact Flow.of_makes ((makes_bounded _ _).chained _) ((makes_bounded _ _).chained _)
  · intro swarm epoch ownSwarm ownEpoch line
    exact Flow.of_makes ((RobotSwarm.makes_constrained _ _).chained _)
      ((RobotSwarm.makes_constrained _ _).chained _)
  · intro swarm epoch recipient ownSwarm ownEpoch
    exact Flow.of_makes ((RobotSwarm.makes_constrained _ _).chained _)
      ((RobotSwarm.makes_constrained _ _).chained _)

namespace Sample

open Authority.Sample

def building : Bytes := asBytes "north"

def sensor : EnvironmentBuilder SmartBuilding.Domain :=
  SmartBuilding.environment.run [.bytes SmartBuilding.buildingId building,
    .bool SmartBuilding.certifiedDevice true]

def panel : EnvironmentBuilder SmartBuilding.Domain :=
  SmartBuilding.environment.run [.bytes SmartBuilding.buildingId building,
    .i64 SmartBuilding.userRole SmartBuilding.UserRole.controlOperator.value]

def clauses (built : Except ModelError (PredicateBuilder SmartBuilding.Domain)) :
    PredicateBuilder SmartBuilding.Domain :=
  built.toOption.getD (.new _)

/-- A sensor and a panel of one building set their environments, and the panel subscribes. -/
def watchedWith (sensor panel : List AttributeRef) : CaSystem Nat :=
  (provision 2 (.fill 32 2) (provision 1 (.fill 32 1) start)).serve .counting
    [frame 1 (.setEnvironment sensor) 10, frame 2 (.setEnvironment panel) 20,
      frame 2 (.subscribePermanent SmartBuilding.sensorReading handler
        (clauses (SmartBuilding.panelSubscription building)).clauses) 40] 10

def watched : CaSystem Nat := watchedWith sensor.attributes panel.attributes

def reading : Bytes :=
  frame 1 (.publish SmartBuilding.sensorReading
    (clauses (SmartBuilding.sensorAudience building)).clauses [21]) 60

theorem eq_ok_of_isOk {ε α : Type} {result : Except ε α} (default : α) (isOk : result.isOk = true) :
    result = .ok (result.toOption.getD default) := by
  cases result with
  | error error => cases isOk
  | ok value => rfl

def deliveries (answer : Except Error ProcessResult) : List Bytes :=
  match answer with
  | .ok (.deliveries frames) => frames
  | _ => []

theorem answer_of_deliveries {answer : Except Error ProcessResult}
    (some : deliveries answer ≠ []) : answer = .ok (.deliveries (deliveries answer)) := by
  cases answer with
  | error error => exact absurd rfl some
  | ok result =>
      cases result with
      | accepted => exact absurd rfl some
      | deliveries frames => rfl

end Sample

theorem sample_application_flows_confined :
    ∃ frames, (Authority.Sample.authority.handle .counting Sample.reading 10
        Sample.watched.world).1 = .ok (.deliveries frames) ∧ frames ≠ [] ∧
      ∀ sent ∈ frames, ∃ subscription publishing subscribing,
        Connects Authority.Sample.authority Sample.watched.world.store.state
          (Authority.Sample.agent 1).id SmartBuilding.sensorReading [21] sent subscription
          publishing subscribing ∧
        ClauseRef.HoldsIn ⟨SmartBuilding.userRole.id, .eq,
          .i64 SmartBuilding.UserRole.controlOperator.value⟩ subscribing := by
  have made : SmartBuilding.sensorAudience Sample.building =
      .ok (Sample.clauses (SmartBuilding.sensorAudience Sample.building)) :=
    Sample.eq_ok_of_isOk _ (by decide +kernel)
  have published : (AgentCore.publishInto CryptoSuite.transparent .counting
      (Authority.Sample.agent 1) maxFrameLen SmartBuilding.sensorReading
      (Sample.clauses (SmartBuilding.sensorAudience Sample.building)).clauses [21] 60).1 =
        .ok Sample.reading :=
    Sample.eq_ok_of_isOk [] (by decide +kernel)
  have delivering : Sample.deliveries (Authority.Sample.authority.handle .counting Sample.reading 10
      Sample.watched.world).1 ≠ [] := by decide +kernel
  have answered := Sample.answer_of_deliveries delivering
  refine ⟨_, answered, delivering, fun sent member => ?_⟩
  obtain ⟨subscription, publishing, subscribing, connects, reached, _⟩ :=
    application_flows_confined.1 Sample.building Sample.building Nat Nat .counting .counting
      Authority.Sample.authority Sample.watched.world (Authority.Sample.agent 1) _ maxFrameLen [21]
      Sample.reading 60 10 _ CryptoSuite.transparent_correct rfl made published answered sent member
  exact ⟨subscription, publishing, subscribing, connects,
    reached _ (List.mem_cons_of_mem _ List.mem_cons_self)⟩

end SecurePubSub.UseCases
