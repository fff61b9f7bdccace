import SecurePubSub.UseCases.Applications

namespace SecurePubSub.UseCases

open SecurePubSub.Data SecurePubSub.Data.Fallible SecurePubSub.Protocol SecurePubSub.Authority

/-! The environments that the deployable Agents declare, and which Agents meet.

Whether the CA delivers what one Agent of an application publishes to another is decided by
their configurations.
-/

/-! ## Declared environments -/

/-- `map_err(invalid)?`. -/
def orInvalid {α : Type} (invalid : String) (result : Except ModelError α) : Except String α :=
  result.mapError (fun _ => invalid)

section Declared

variable {Domain : Type}

/-- What is built has these attributes, which fit the protocol. -/
def Declares {ε : Type} (built : Except ε (EnvironmentBuilder Domain))
    (attributes : List AttributeRef) : Prop :=
  ∀ builder, built = .ok builder → builder.attributes = attributes ∧ BoundedAttributes attributes

theorem declares_chain {builder : EnvironmentBuilder Domain} {attributes : List AttributeRef}
    (same : builder.attributes = attributes) (bounded : BoundedAttributes attributes)
    (calls : List (EnvironmentBuilder.Call Domain)) :
    Declares (chain EnvironmentBuilder.apply builder calls)
      (attributes ++ calls.map EnvironmentBuilder.Call.entry) := by
  intro last chained
  have each (made : List (EnvironmentBuilder.Call Domain)) (builder : EnvironmentBuilder Domain)
      (call : EnvironmentBuilder.Call Domain) (after : EnvironmentBuilder Domain)
      (holds : BoundedAttributes builder.attributes ∧
        builder.attributes = attributes ++ made.map EnvironmentBuilder.Call.entry)
      (applied : builder.apply call = (.ok (), after)) : BoundedAttributes after.attributes ∧
        after.attributes = attributes ++ (made ++ [call]).map EnvironmentBuilder.Call.entry := by
    have kept := EnvironmentBuilder.bounded_apply holds.1 call
    rw [applied] at kept
    refine ⟨kept, ?_⟩
    rw [EnvironmentBuilder.apply_eq_ok applied, holds.2, List.map_append, List.append_assoc]
    rfl
  have whole := chain_run each ⟨same ▸ bounded, by simp [same]⟩ chained
  exact ⟨whole.2, whole.2 ▸ whole.1⟩

theorem declares_new (calls : List (EnvironmentBuilder.Call Domain)) :
    Declares (chain EnvironmentBuilder.apply (.new Domain) calls)
      (calls.map EnvironmentBuilder.Call.entry) := by
  have empty : (EnvironmentBuilder.new Domain).attributes = [] := rfl
  exact declares_chain empty (EnvironmentBuilder.bounded_new Domain) calls

theorem orInvalid_eq_ok {α : Type} {invalid : String} {result : Except ModelError α} {value : α} :
    orInvalid invalid result = .ok value ↔ result = .ok value := by
  cases result with
  | error error => simp [orInvalid, Except.mapError]
  | ok value => simp [orInvalid, Except.mapError]

theorem Declares.checked {built : Except ModelError (EnvironmentBuilder Domain)}
    {attributes : List AttributeRef} (declares : Declares built attributes) (invalid : String) :
    Declares (orInvalid invalid built) attributes :=
  fun builder valid => declares builder (orInvalid_eq_ok.mp valid)

theorem Declares.extended {built : Except String (EnvironmentBuilder Domain)}
    {attributes : List AttributeRef} (declares : Declares built attributes) (invalid : String)
    (calls : List (EnvironmentBuilder.Call Domain)) :
    Declares (do
        let first ← built
        orInvalid invalid (chain EnvironmentBuilder.apply first calls))
      (attributes ++ calls.map EnvironmentBuilder.Call.entry) := by
  intro last done
  obtain ⟨first, made, chained⟩ := bind_eq_ok.mp done
  obtain ⟨same, bounded⟩ := declares first made
  exact (declares_chain same bounded calls).checked invalid last chained

/-- A clause on a declared attribute holds if its value passes the comparison. -/
theorem holdsIn_of_mem {attributes : List AttributeRef} (bounded : BoundedAttributes attributes)
    {id : AttributeId} {held : ValueRef} (member : ⟨id, held⟩ ∈ attributes) {operator : Operator}
    {value : ValueRef} :
    ClauseRef.HoldsIn ⟨id, operator, value⟩ (environmentRef attributes) ↔
      compareValues held operator value = true := by
  have found := get_environmentRef_of_mem bounded.1 bounded.2.2 bounded.2.1 member
  simp only [ClauseRef.HoldsIn, found, Option.some.injEq, exists_eq_left']

theorem holdsIn_eq {attributes : List AttributeRef} (bounded : BoundedAttributes attributes)
    {id : AttributeId} {held : ValueRef} (member : ⟨id, held⟩ ∈ attributes) {value : ValueRef} :
    ClauseRef.HoldsIn ⟨id, .eq, value⟩ (environmentRef attributes) ↔ held = value := by
  rw [holdsIn_of_mem bounded member, compareValues_eq_iff]

theorem holdsIn_ge {attributes : List AttributeRef} (bounded : BoundedAttributes attributes)
    {id : AttributeId} {held least : Int64} (member : ⟨id, .i64 held⟩ ∈ attributes) :
    ClauseRef.HoldsIn ⟨id, .ge, .i64 least⟩ (environmentRef attributes) ↔ least ≤ held := by
  rw [holdsIn_of_mem bounded member, compareValues_iff, Int64.le_iff_lt_or_eq,
    Int64.lt_iff_toInt_lt, eq_comm]
  rfl

end Declared

/-! ## The configurations -/

namespace SmartBuilding

def floorId : I64Attribute Domain := ⟨⟨0x1002⟩, .caIssued⟩

def deviceClass : I64Attribute Domain := ⟨⟨0x1003⟩, .caIssued⟩

def operational : BoolAttribute Domain := ⟨⟨0x1006⟩, .selfDeclared⟩

def temperature : I64Attribute Domain := ⟨⟨0x1007⟩, .selfDeclared⟩

def alertZone : BytesAttribute Domain := ⟨⟨0x1009⟩, .caIssued⟩

inductive DeviceClass where
  | sensor
  | controlPanel
  | maintenanceTerminal

def DeviceClass.value : DeviceClass → Int64
  | sensor => 1
  | controlPanel => 2
  | maintenanceTerminal => 3

inductive Role where
  | sensor
  | controlPanel
  | maintenanceTerminal

structure Config where
  role : Role
  buildingId : String
  floorId : Option Int64
  alertZone : String
  operational : Bool
  temperatureCentiCelsius : Int64

def invalid : String := "invalid smart-building configuration"

namespace Config

variable (config : Config)

/-- What every role declares. -/
def common : List (EnvironmentBuilder.Call Domain) :=
  [.bytes SmartBuilding.buildingId (asBytes config.buildingId),
    .bytes SmartBuilding.alertZone (asBytes config.alertZone),
    .bool SmartBuilding.operational config.operational]

def environment : Except String (EnvironmentBuilder Domain) := do
  let environment ← orInvalid invalid
    (chain EnvironmentBuilder.apply SmartBuilding.environment config.common)
  match config.role with
  | .sensor =>
      match config.floorId with
      | none => .error "sensor requires floor_id"
      | some floor =>
          orInvalid invalid (chain EnvironmentBuilder.apply environment
            [.i64 SmartBuilding.floorId floor, .i64 deviceClass DeviceClass.sensor.value,
              .bool certifiedDevice true, .i64 temperature config.temperatureCentiCelsius])
  | .controlPanel =>
      orInvalid invalid (chain EnvironmentBuilder.apply environment
        [.i64 deviceClass DeviceClass.controlPanel.value,
          .i64 userRole UserRole.controlOperator.value])
  | .maintenanceTerminal =>
      orInvalid invalid (chain EnvironmentBuilder.apply environment
        [.i64 deviceClass DeviceClass.maintenanceTerminal.value,
          .i64 userRole UserRole.maintenanceOperator.value])

variable {config} {builder : EnvironmentBuilder Domain}

theorem sensor_declares (role : config.role = .sensor) (built : config.environment = .ok builder) :
    BoundedAttributes builder.attributes ∧
      ⟨SmartBuilding.buildingId.id, .bytes (asBytes config.buildingId)⟩ ∈ builder.attributes ∧
      ⟨certifiedDevice.id, .bool true⟩ ∈ builder.attributes := by
  cases floor : config.floorId with
  | none =>
      obtain ⟨first, made, failed⟩ := bind_eq_ok.mp built
      rw [role, floor] at failed
      cases failed
  | some floorId =>
      have declares := ((declares_new config.common).checked invalid).extended invalid
        [.i64 SmartBuilding.floorId floorId, .i64 deviceClass DeviceClass.sensor.value,
          .bool certifiedDevice true, .i64 temperature config.temperatureCentiCelsius]
      simp only [environment, role, floor] at built
      obtain ⟨attributes, bounded⟩ := declares builder built
      rw [attributes]
      refine ⟨bounded, ?_⟩
      simp [common, EnvironmentBuilder.Call.entry]

theorem controlPanel_declares (role : config.role = .controlPanel)
    (built : config.environment = .ok builder) :
    BoundedAttributes builder.attributes ∧
      ⟨SmartBuilding.buildingId.id, .bytes (asBytes config.buildingId)⟩ ∈ builder.attributes ∧
      ⟨userRole.id, .i64 UserRole.controlOperator.value⟩ ∈ builder.attributes := by
  have declares := ((declares_new config.common).checked invalid).extended invalid
    [.i64 deviceClass DeviceClass.controlPanel.value,
      .i64 userRole UserRole.controlOperator.value]
  simp only [environment, role] at built
  obtain ⟨attributes, bounded⟩ := declares builder built
  rw [attributes]
  refine ⟨bounded, ?_⟩
  simp [common, EnvironmentBuilder.Call.entry]

end Config

/-- The configuration of a sensor on a board. -/
structure SensorConfig where
  buildingId : Bytes
  alertZone : Bytes
  floorId : Int64
  operational : Bool
  initialTemperature : Int64

/-- The environment that `initialize` sets. -/
def SensorConfig.environment (config : SensorConfig) : Except ModelError (EnvironmentBuilder Domain) :=
  chain EnvironmentBuilder.apply SmartBuilding.environment
    [.bytes SmartBuilding.buildingId config.buildingId,
      .bytes SmartBuilding.alertZone config.alertZone, .i64 SmartBuilding.floorId config.floorId,
      .i64 deviceClass DeviceClass.sensor.value, .bool certifiedDevice true,
      .bool SmartBuilding.operational config.operational,
      .i64 temperature config.initialTemperature]

theorem SensorConfig.declares {config : SensorConfig} {builder : EnvironmentBuilder Domain}
    (built : config.environment = .ok builder) :
    BoundedAttributes builder.attributes ∧
      ⟨SmartBuilding.buildingId.id, .bytes config.buildingId⟩ ∈ builder.attributes ∧
      ⟨certifiedDevice.id, .bool true⟩ ∈ builder.attributes := by
  obtain ⟨attributes, bounded⟩ := declares_new _ builder built
  rw [attributes]
  refine ⟨bounded, ?_⟩
  simp [EnvironmentBuilder.Call.entry]

end SmartBuilding

namespace MultiTenant

def serviceId : BytesAttribute Domain := ⟨⟨0x3002⟩, .caIssued⟩

def deploymentEnvironment : I64Attribute Domain := ⟨⟨0x3003⟩, .caIssued⟩

def serviceHealth : BoolAttribute Domain := ⟨⟨0x3006⟩, .selfDeclared⟩

def region : BytesAttribute Domain := ⟨⟨0x3007⟩, .caIssued⟩

inductive Role where
  | publisher
  | consumer

def Role.service : Role → ServiceRole
  | publisher => .publisher
  | consumer => .consumer

structure Config where
  role : Role
  tenantId : String
  serviceId : String
  deploymentEnvironment : Int64
  clearanceLevel : Int64
  region : String
  serviceHealth : Bool

namespace Config

variable (config : Config)

def environment : Except String (EnvironmentBuilder Domain) :=
  orInvalid "invalid multi-tenant configuration"
    (chain EnvironmentBuilder.apply MultiTenant.environment
      [.bytes MultiTenant.tenantId (asBytes config.tenantId),
        .bytes MultiTenant.serviceId (asBytes config.serviceId),
        .i64 MultiTenant.deploymentEnvironment config.deploymentEnvironment,
        .i64 serviceRole config.role.service.value,
        .i64 MultiTenant.clearanceLevel config.clearanceLevel,
        .bool MultiTenant.serviceHealth config.serviceHealth,
        .bytes MultiTenant.region (asBytes config.region)])

variable {config} {builder : EnvironmentBuilder Domain}

theorem declares (built : config.environment = .ok builder) :
    BoundedAttributes builder.attributes ∧
      ⟨MultiTenant.tenantId.id, .bytes (asBytes config.tenantId)⟩ ∈ builder.attributes ∧
      ⟨serviceRole.id, .i64 config.role.service.value⟩ ∈ builder.attributes ∧
      ⟨MultiTenant.clearanceLevel.id, .i64 config.clearanceLevel⟩ ∈ builder.attributes := by
  obtain ⟨attributes, bounded⟩ := (declares_new _).checked _ builder built
  rw [attributes]
  refine ⟨bounded, ?_⟩
  simp [EnvironmentBuilder.Call.entry]

end Config

end MultiTenant

namespace RobotSwarm

def payloadCapacity : I64Attribute Domain := ⟨⟨0x2005⟩, .caIssued⟩

def zone : BytesAttribute Domain := ⟨⟨0x2008⟩, .selfDeclared⟩

def assignedTask : BytesAttribute Domain := ⟨⟨0x2009⟩, .caIssued⟩

inductive Role where
  | scout
  | coordinator
  | responder

def Role.robot : Role → RobotRole
  | scout => .scout
  | coordinator => .coordinator
  | responder => .responder

structure Config where
  role : Role
  swarmId : String
  missionEpoch : Int64
  capability : Int64
  payloadCapacity : Int64
  batteryLevel : Int64
  operational : Bool
  zone : String

namespace Config

variable (config : Config)

/-- The environment of the Agent whose id is `agent_id` in its configuration. -/
def environment (agentId : AgentId) : Except String (EnvironmentBuilder Domain) :=
  orInvalid "invalid robot-swarm configuration"
    (chain EnvironmentBuilder.apply RobotSwarm.environment
      [.bytes RobotSwarm.swarmId (asBytes config.swarmId),
        .i64 RobotSwarm.missionEpoch config.missionEpoch,
        .i64 robotRole config.role.robot.value,
        .i64 RobotSwarm.capability config.capability,
        .i64 RobotSwarm.payloadCapacity config.payloadCapacity,
        .bool RobotSwarm.operational config.operational,
        .i64 RobotSwarm.batteryLevel config.batteryLevel,
        .bytes RobotSwarm.zone (asBytes config.zone), .bytes assignedTask (asBytes "none"),
        .bytes recipientId agentId.value.bytes])

variable {config} {agentId : AgentId} {builder : EnvironmentBuilder Domain}

theorem declares (built : config.environment agentId = .ok builder) :
    BoundedAttributes builder.attributes ∧
      ⟨RobotSwarm.swarmId.id, .bytes (asBytes config.swarmId)⟩ ∈ builder.attributes ∧
      ⟨RobotSwarm.missionEpoch.id, .i64 config.missionEpoch⟩ ∈ builder.attributes ∧
      ⟨robotRole.id, .i64 config.role.robot.value⟩ ∈ builder.attributes ∧
      ⟨RobotSwarm.capability.id, .i64 config.capability⟩ ∈ builder.attributes ∧
      ⟨RobotSwarm.operational.id, .bool config.operational⟩ ∈ builder.attributes ∧
      ⟨RobotSwarm.batteryLevel.id, .i64 config.batteryLevel⟩ ∈ builder.attributes ∧
      ⟨recipientId.id, .bytes agentId.value.bytes⟩ ∈ builder.attributes := by
  obtain ⟨attributes, bounded⟩ := (declares_new _).checked _ builder built
  rw [attributes]
  refine ⟨bounded, ?_⟩
  simp [EnvironmentBuilder.Call.entry]

end Config

end RobotSwarm

/-! ## Meetings -/

/-- What the CA delivers of the publications of one role goes to these subscriptions of another:
the ones whose Agents `agree` and to which the policy lets the publisher deliver. -/
def Meet {Domain ε δ : Type} (typeId : TypeId)
    (audience : Except ModelError (AudienceBuilder Domain))
    (publishing : AgentId → Except ε (EnvironmentBuilder Domain))
    (interest : Except ModelError (SubscriptionBuilder Domain))
    (subscribing : AgentId → Except δ (EnvironmentBuilder Domain)) (agree : AgentId → Prop) :
    Prop :=
  ∀ (ρ σ : Type) (random : CryptoRandom ρ) (drawn : CryptoRandom σ)
    (authority : CertificateAuthority) (world : World ρ) (publisher : AgentCore.Agent)
    (predicate : AudienceBuilder Domain) (declared : EnvironmentBuilder Domain) (outputLen : Nat)
    (value frame : Bytes) (state : σ) (nowSeconds : UInt64) (frames : List Bytes),
    authority.suite.Correct →
    publisher.ca.x25519 = authority.suite.x25519Public authority.keys.x25519 →
    audience = .ok predicate →
    (AgentCore.publishInto authority.suite drawn publisher outputLen typeId predicate.clauses value
      state).1 = .ok frame →
    publishing publisher.id = .ok declared →
    StoredFor world.store.state publisher.id (environmentRef declared.attributes) →
    (authority.handle random frame nowSeconds world).1 = .ok (.deliveries frames) →
    ∃ selected : StoredSubscription → Bool,
      List.Forall₂ (fun subscription sent => ∃ keys,
          world.store.state.keysOf subscription.subscriber = .ok keys ∧
          Seals authority ⟨subscription.subscriber, subscription.handler, typeId, publisher.id,
            value⟩ keys.x25519 sent)
        ((world.store.state.subscriptions.forType typeId).filter selected) frames ∧
      ∀ subscription ∈ world.store.state.subscriptions.forType typeId, ∀ wanted held keys,
        interest = .ok wanted → Asks subscription wanted.clauses →
        subscribing subscription.subscriber = .ok held →
        StoredFor world.store.state subscription.subscriber (environmentRef held.attributes) →
        world.store.state.keysOf subscription.subscriber = .ok keys →
        (selected subscription = true ↔ agree subscription.subscriber ∧
          authority.policy.authorizeDelivery publisher.id (environmentRef declared.attributes)
            subscription.subscriber (environmentRef held.attributes) typeId = true)

theorem StoredFor.unique {state : StoreState} {agent : AgentId} {left right : EnvironmentRef}
    (first : StoredFor state agent left) (second : StoredFor state agent right) : left = right := by
  obtain ⟨encoded, found, parsed⟩ := first
  obtain ⟨same, foundAgain, parsedAgain⟩ := second
  cases found.symm.trans foundAgain
  exact OperationRef.setEnvironment.inj (Except.ok.inj (parsed.symm.trans parsedAgain))

/-- A publication matches a subscription that was made with a predicate if both predicates hold
and the policy allows the delivery. -/
theorem matches_iff {policy : EnvironmentPolicy} {state : StoreState} {publication : Publication}
    {subscription : StoredSubscription} {reached heard : List ClauseRef}
    {subscribing : EnvironmentRef} (asked : publication.predicate = predicateRef reached)
    (reachedBounded : BoundedClauses reached) (asks : Asks subscription heard)
    (heardBounded : BoundedClauses heard) (sameType : subscription.typeId = publication.typeId)
    (stored : StoredFor state subscription.subscriber subscribing) :
    Matches policy state publication subscription ↔
      ((∀ clause ∈ heard, clause.HoldsIn publication.environment) ∧
        ∀ clause ∈ reached, clause.HoldsIn subscribing) ∧
      policy.authorizeDelivery publication.publisher publication.environment
        subscription.subscriber subscribing publication.typeId = true := by
  constructor
  · rintro ⟨predicate, encoded, environment, parsed, wanted, found, read, audience, allowed⟩
    have same : environment = subscribing := StoredFor.unique ⟨encoded, found, read⟩ stored
    rw [asks.predicate_eq heardBounded parsed, evaluate_predicateRef heardBounded] at wanted
    rw [asked, evaluate_predicateRef reachedBounded, same] at audience
    exact ⟨⟨wanted, audience⟩, same ▸ allowed⟩
  · rintro ⟨⟨wanted, audience⟩, allowed⟩
    obtain ⟨encoded, found, read⟩ := stored
    have parsed := asks.parsed heardBounded
    rw [sameType] at parsed
    refine ⟨predicateRef heard, encoded, subscribing, parsed,
      (evaluate_predicateRef heardBounded).mpr wanted, found, read, ?_, allowed⟩
    rw [asked]
    exact (evaluate_predicateRef reachedBounded).mpr audience

theorem Meet.of_makes {Domain ε δ : Type} {typeId : TypeId} {reached heard : List ClauseRef}
    {audience interest : Except ModelError (PredicateBuilder Domain)}
    {publishing : AgentId → Except ε (EnvironmentBuilder Domain)}
    {subscribing : AgentId → Except δ (EnvironmentBuilder Domain)} {agree : AgentId → Prop}
    (audienceMakes : Makes audience reached) (interestMakes : Makes interest heard)
    (decided : ∀ publisher subscriber declared held, publishing publisher = .ok declared →
      subscribing subscriber = .ok held →
      (((∀ clause ∈ heard, clause.HoldsIn (environmentRef declared.attributes)) ∧
        ∀ clause ∈ reached, clause.HoldsIn (environmentRef held.attributes)) ↔
          agree subscriber)) :
    Meet typeId audience publishing interest subscribing agree := by
  intro ρ σ random drawn authority world publisher predicate declared outputLen value frame state
    nowSeconds frames correct trusted made published declares storedDeclared answer
  obtain ⟨clauses, reachedBounded⟩ := audienceMakes predicate made
  rw [clauses] at published
  have built : AgentCore.BuiltFrame authority.suite publisher (.publish typeId reached value)
      frame := AgentCore.build_eq_ok published
  obtain ⟨request, publication, reaches⟩ := reachesLoop_of_deliveries random ⟨frames, answer⟩
  obtain ⟨environment, stored, rfl⟩ := published_as_built correct trusted built reaches
  obtain rfl := StoredFor.unique stored storedDeclared
  refine ⟨selects authority.policy world.store.state ⟨publisher.id,
    environmentRef declared.attributes, typeId, predicateRef reached, value⟩, ?_, ?_⟩
  · obtain ⟨_, _, _, _, error, after, _, _, _, _, ran, _⟩ | ⟨pushed, after, _, ran, _, each⟩ :=
      handle_publication random reaches
    · rw [ran] at answer
      cases answer
    · rw [ran] at answer
      cases answer
      refine each.imp fun subscription sent pushes => ?_
      obtain ⟨keys, rng, routed, sealing⟩ := pushes
      exact ⟨keys, (route_eq_some.mp routed).2, delivery_eq_ok sealing⟩
  · intro subscription member wanted held keys interested asks holds storedHeld known
    obtain ⟨wants, heardBounded⟩ := interestMakes wanted interested
    rw [wants] at asks
    rw [selects_iff, matches_iff rfl reachedBounded asks heardBounded
      (SubscriptionTable.typeId_of_mem member) storedHeld,
      decided publisher.id _ declared held declares holds]
    exact and_iff_left ⟨keys, known⟩

/-! ## The roles -/

namespace SmartBuilding

theorem sensors_meet_panels {sensor panel : Config} (sensing : sensor.role = .sensor)
    (controlling : panel.role = .controlPanel) :
    Meet sensorReading (sensorAudience (asBytes sensor.buildingId)) (fun _ => sensor.environment)
      (panelSubscription (asBytes panel.buildingId)) (fun _ => panel.environment)
      (fun _ => sensor.buildingId = panel.buildingId) := by
  refine Meet.of_makes ((makes_bounded _ _).chained _) ((makes_bounded _ _).chained _) ?_
  intro _ _ declared held declares holds
  obtain ⟨bounded, building, certified⟩ := Config.sensor_declares sensing declares
  obtain ⟨small, own, operator⟩ := Config.controlPanel_declares controlling holds
  simp only [List.map_cons, List.map_nil, List.singleton_append, PredicateBuilder.Call.clause,
    List.forall_mem_cons, List.not_mem_nil, false_implies, implies_true, and_true,
    holdsIn_eq bounded building, holdsIn_eq bounded certified, holdsIn_eq small own,
    holdsIn_eq small operator, ValueRef.bytes.injEq, asBytes_inj]
  exact ⟨And.left, fun same => ⟨same, same.symm⟩⟩

theorem boards_meet_panels {sensor : SensorConfig} {panel : Config}
    (controlling : panel.role = .controlPanel) :
    Meet sensorReading (sensorAudience sensor.buildingId) (fun _ => sensor.environment)
      (panelSubscription (asBytes panel.buildingId)) (fun _ => panel.environment)
      (fun _ => sensor.buildingId = asBytes panel.buildingId) := by
  refine Meet.of_makes ((makes_bounded _ _).chained _) ((makes_bounded _ _).chained _) ?_
  intro _ _ declared held declares holds
  obtain ⟨bounded, building, certified⟩ := SensorConfig.declares declares
  obtain ⟨small, own, operator⟩ := Config.controlPanel_declares controlling holds
  simp only [List.map_cons, List.map_nil, List.singleton_append, PredicateBuilder.Call.clause,
    List.forall_mem_cons, List.not_mem_nil, false_implies, implies_true, and_true,
    holdsIn_eq bounded building, holdsIn_eq bounded certified, holdsIn_eq small own,
    holdsIn_eq small operator, ValueRef.bytes.injEq]
  exact ⟨And.left, fun same => ⟨same, same.symm⟩⟩

end SmartBuilding

theorem MultiTenant.publishers_meet_consumers {publisher consumer : Config}
    (publishing : publisher.role = .publisher) (consuming : consumer.role = .consumer) :
    Meet domainEvent (eventAudience (asBytes publisher.tenantId)) (fun _ => publisher.environment)
      (consumerSubscription (asBytes consumer.tenantId)) (fun _ => consumer.environment)
      (fun _ => publisher.tenantId = consumer.tenantId ∧ 1 ≤ consumer.clearanceLevel) := by
  refine Meet.of_makes ((makes_bounded _ _).chained _) ((makes_bounded _ _).chained _) ?_
  intro _ _ declared held declares holds
  obtain ⟨bounded, tenant, service, _⟩ := Config.declares declares
  obtain ⟨small, own, role, clearance⟩ := Config.declares holds
  rw [publishing] at service
  rw [consuming] at role
  simp only [List.map_cons, List.map_nil, List.singleton_append, PredicateBuilder.Call.clause,
    List.forall_mem_cons, List.not_mem_nil, false_implies, implies_true, and_true,
    holdsIn_eq bounded tenant, holdsIn_eq bounded service, holdsIn_eq small own,
    holdsIn_eq small role, holdsIn_ge small clearance, ValueRef.bytes.injEq, asBytes_inj,
    Role.service, true_and]
  exact ⟨fun both => ⟨both.1, both.2.2⟩, fun both => ⟨both.1, both.1.symm, both.2⟩⟩

namespace RobotSwarm

theorem scouts_meet_coordinators {scout coordinator : Config} (scouting : scout.role = .scout)
    (coordinating : coordinator.role = .coordinator) :
    Meet droneTelemetry (scoutAudience (asBytes scout.swarmId) scout.missionEpoch droneTelemetry)
      scout.environment
      (coordinatorSubscription (asBytes coordinator.swarmId) coordinator.missionEpoch)
      coordinator.environment
      (fun _ => scout.swarmId = coordinator.swarmId ∧
        scout.missionEpoch = coordinator.missionEpoch) := by
  refine Meet.of_makes ((makes_constrained _ _).chained _) ((makes_constrained _ _).chained _) ?_
  intro _ _ declared held declares holds
  obtain ⟨bounded, swarm, epoch, role, _⟩ := Config.declares declares
  obtain ⟨small, ownSwarm, ownEpoch, ownRole, _⟩ := Config.declares holds
  rw [scouting] at role
  rw [coordinating] at ownRole
  simp only [List.map_cons, List.map_nil, List.cons_append, List.nil_append, if_pos,
    PredicateBuilder.Call.clause, List.forall_mem_cons, List.not_mem_nil, false_implies,
    implies_true, and_true,
    holdsIn_eq bounded swarm, holdsIn_eq bounded epoch, holdsIn_eq bounded role,
    holdsIn_eq small ownSwarm, holdsIn_eq small ownEpoch, holdsIn_eq small ownRole,
    ValueRef.bytes.injEq, ValueRef.i64.injEq, asBytes_inj, Role.robot]
  exact ⟨And.left, fun same => ⟨same, same.1.symm, same.2.symm⟩⟩

theorem coordinators_meet_responders {coordinator responder : Config} {recipient : AgentId}
    (coordinating : coordinator.role = .coordinator) (responding : responder.role = .responder) :
    Meet taskAssignment (taskAudience (asBytes coordinator.swarmId) coordinator.missionEpoch
        recipient.value.bytes) coordinator.environment
      (responderSubscription (asBytes responder.swarmId) responder.missionEpoch)
      responder.environment
      (fun subscriber => coordinator.swarmId = responder.swarmId ∧
        coordinator.missionEpoch = responder.missionEpoch ∧ responder.capability = transport ∧
        responder.operational = true ∧ 25 ≤ responder.batteryLevel ∧
        recipient = subscriber) := by
  refine Meet.of_makes ((makes_constrained _ _).chained _) ((makes_constrained _ _).chained _) ?_
  intro _ subscriber declared held declares holds
  obtain ⟨bounded, swarm, epoch, role, _⟩ := Config.declares declares
  obtain ⟨small, ownSwarm, ownEpoch, ownRole, capable, works, battery, own⟩ :=
    Config.declares holds
  rw [coordinating] at role
  rw [responding] at ownRole
  simp only [List.map_cons, List.map_nil, List.cons_append, List.nil_append,
    PredicateBuilder.Call.clause, List.forall_mem_cons, List.not_mem_nil, false_implies,
    implies_true, and_true, true_and,
    holdsIn_eq bounded swarm, holdsIn_eq bounded epoch, holdsIn_eq bounded role,
    holdsIn_eq small ownSwarm, holdsIn_eq small ownEpoch, holdsIn_eq small ownRole,
    holdsIn_eq small capable, holdsIn_eq small works, holdsIn_ge small battery,
    holdsIn_eq small own, ValueRef.bytes.injEq, ValueRef.i64.injEq, ValueRef.bool.injEq,
    asBytes_inj, Role.robot]
  constructor
  · rintro ⟨⟨sameSwarm, sameEpoch⟩, _, _, transports, able, charged, named⟩
    exact ⟨sameSwarm, sameEpoch, transports, able, charged,
      congrArg AgentId.mk (FixedBytes.ext named.symm)⟩
  · rintro ⟨sameSwarm, sameEpoch, transports, able, charged, rfl⟩
    exact ⟨⟨sameSwarm, sameEpoch⟩, sameSwarm.symm, sameEpoch.symm, transports, able, charged, rfl⟩

end RobotSwarm

/-- What sensors publish reaches the panels of their building, what services publish reaches the
cleared consumers of their tenant, telemetry reaches the coordinators of the mission, and a task
reaches the responder that it names if that one can carry it out. -/
theorem applications_meet :
    (∀ sensor panel : SmartBuilding.Config, sensor.role = .sensor → panel.role = .controlPanel →
      Meet SmartBuilding.sensorReading (SmartBuilding.sensorAudience (asBytes sensor.buildingId))
        (fun _ => sensor.environment)
        (SmartBuilding.panelSubscription (asBytes panel.buildingId)) (fun _ => panel.environment)
        (fun _ => sensor.buildingId = panel.buildingId)) ∧
    (∀ (sensor : SmartBuilding.SensorConfig) (panel : SmartBuilding.Config),
      panel.role = .controlPanel →
      Meet SmartBuilding.sensorReading (SmartBuilding.sensorAudience sensor.buildingId)
        (fun _ => sensor.environment)
        (SmartBuilding.panelSubscription (asBytes panel.buildingId)) (fun _ => panel.environment)
        (fun _ => sensor.buildingId = asBytes panel.buildingId)) ∧
    (∀ publisher consumer : MultiTenant.Config, publisher.role = .publisher →
      consumer.role = .consumer →
      Meet MultiTenant.domainEvent (MultiTenant.eventAudience (asBytes publisher.tenantId))
        (fun _ => publisher.environment)
        (MultiTenant.consumerSubscription (asBytes consumer.tenantId))
        (fun _ => consumer.environment)
        (fun _ => publisher.tenantId = consumer.tenantId ∧ 1 ≤ consumer.clearanceLevel)) ∧
    (∀ scout coordinator : RobotSwarm.Config, scout.role = .scout →
      coordinator.role = .coordinator →
      Meet RobotSwarm.droneTelemetry (RobotSwarm.scoutAudience (asBytes scout.swarmId)
          scout.missionEpoch RobotSwarm.droneTelemetry) scout.environment
        (RobotSwarm.coordinatorSubscription (asBytes coordinator.swarmId)
          coordinator.missionEpoch) coordinator.environment
        (fun _ => scout.swarmId = coordinator.swarmId ∧
          scout.missionEpoch = coordinator.missionEpoch)) ∧
    ∀ (coordinator responder : RobotSwarm.Config) (recipient : AgentId),
      coordinator.role = .coordinator → responder.role = .responder →
      Meet RobotSwarm.taskAssignment (RobotSwarm.taskAudience (asBytes coordinator.swarmId)
          coordinator.missionEpoch recipient.value.bytes) coordinator.environment
        (RobotSwarm.responderSubscription (asBytes responder.swarmId) responder.missionEpoch)
        responder.environment
        (fun subscriber => coordinator.swarmId = responder.swarmId ∧
          coordinator.missionEpoch = responder.missionEpoch ∧
          responder.capability = RobotSwarm.transport ∧ responder.operational = true ∧
          25 ≤ responder.batteryLevel ∧ recipient = subscriber) :=
  ⟨fun _ _ => SmartBuilding.sensors_meet_panels, fun _ _ => SmartBuilding.boards_meet_panels,
    fun _ _ => MultiTenant.publishers_meet_consumers, fun _ _ => RobotSwarm.scouts_meet_coordinators,
    fun _ _ _ => RobotSwarm.coordinators_meet_responders⟩

namespace Sample

open Authority.Sample

def sensorConfig : SmartBuilding.Config := ⟨.sensor, "north", some 2, "zone-a", true, 2150⟩

def panelConfig : SmartBuilding.Config := ⟨.controlPanel, "north", none, "zone-a", true, 0⟩

def declared (config : SmartBuilding.Config) : EnvironmentBuilder SmartBuilding.Domain :=
  config.environment.toOption.getD (.new _)

def met : CaSystem Nat :=
  watchedWith (declared sensorConfig).attributes (declared panelConfig).attributes

end Sample

theorem sample_applications_meet :
    ∃ frames, (Authority.Sample.authority.handle .counting Sample.reading 10
        Sample.met.world).1 = .ok (.deliveries frames) ∧
      ∃ selected : StoredSubscription → Bool,
        frames.length = ((Sample.met.world.store.state.subscriptions.forType
          SmartBuilding.sensorReading).filter selected).length ∧
        ∀ subscription ∈ Sample.met.world.store.state.subscriptions.forType
          SmartBuilding.sensorReading, selected subscription = true := by
  have made : SmartBuilding.sensorAudience Sample.building =
      .ok (Sample.clauses (SmartBuilding.sensorAudience Sample.building)) :=
    Sample.eq_ok_of_isOk _ (by decide +kernel)
  have interested : SmartBuilding.panelSubscription Sample.building =
      .ok (Sample.clauses (SmartBuilding.panelSubscription Sample.building)) :=
    Sample.eq_ok_of_isOk _ (by decide +kernel)
  have declares : Sample.sensorConfig.environment = .ok (Sample.declared Sample.sensorConfig) :=
    Sample.eq_ok_of_isOk _ (by decide +kernel)
  have holds : Sample.panelConfig.environment = .ok (Sample.declared Sample.panelConfig) :=
    Sample.eq_ok_of_isOk _ (by decide +kernel)
  have published : (AgentCore.publishInto CryptoSuite.transparent .counting
      (Authority.Sample.agent 1) maxFrameLen SmartBuilding.sensorReading
      (Sample.clauses (SmartBuilding.sensorAudience Sample.building)).clauses [21] 60).1 =
        .ok Sample.reading :=
    Sample.eq_ok_of_isOk [] (by decide +kernel)
  have delivering : Sample.deliveries (Authority.Sample.authority.handle .counting Sample.reading 10
      Sample.met.world).1 ≠ [] := by decide +kernel
  have stored (number : UInt8) (config : SmartBuilding.Config)
      (bounded : BoundedAttributes (Sample.declared config).attributes)
      (found : Sample.met.world.store.state.environments.get (Authority.Sample.agent number).id =
        some (environmentBytes (Sample.declared config).attributes)) :
      StoredFor Sample.met.world.store.state (Authority.Sample.agent number).id
        (environmentRef (Sample.declared config).attributes) :=
    ⟨_, found, parseOperation_environment bounded.1 bounded.2.1 bounded.2.2⟩
  have answered := Sample.answer_of_deliveries delivering
  obtain ⟨selected, delivered, exact⟩ := applications_meet.1 Sample.sensorConfig Sample.panelConfig
    rfl rfl Nat Nat .counting .counting Authority.Sample.authority Sample.met.world
    (Authority.Sample.agent 1) _ _ maxFrameLen [21] Sample.reading 60 10 _
    CryptoSuite.transparent_correct rfl made published declares
    (stored 1 _ (SmartBuilding.Config.sensor_declares rfl declares).1 (by decide +kernel)) answered
  have asks : ∀ subscription ∈ Sample.met.world.store.state.subscriptions.forType
      SmartBuilding.sensorReading, subscription.subscriber = (Authority.Sample.agent 2).id ∧
        subscription.encoded = (subscription.kind.request subscription.typeId subscription.handler
          (Sample.clauses (SmartBuilding.panelSubscription Sample.building)).clauses).plaintext := by
    decide +kernel
  refine ⟨_, answered, selected, delivered.length_eq.symm, fun subscription member => ?_⟩
  obtain ⟨own, asked⟩ := asks subscription member
  have kept := stored 2 _ (SmartBuilding.Config.controlPanel_declares rfl holds).1
    (by decide +kernel)
  have known : Sample.met.world.store.state.keysOf (Authority.Sample.agent 2).id = .ok _ :=
    Sample.eq_ok_of_isOk ⟨.fill 32 2, .fill 32 2⟩ (by decide +kernel)
  rw [← own] at kept known
  exact (exact subscription member _ _ _ interested asked holds kept known).mpr ⟨rfl, rfl⟩

end SecurePubSub.UseCases
