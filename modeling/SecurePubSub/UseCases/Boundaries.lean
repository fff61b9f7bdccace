import SecurePubSub.UseCases.Builders

namespace SecurePubSub.UseCases

open SecurePubSub.Data SecurePubSub.Data.Fallible SecurePubSub.Protocol

/-! What is built stays within the protocol limits and within the boundary of its domain. -/

variable {Domain : Type}

/-! ## Environments -/

namespace EnvironmentBuilder

variable {builder : EnvironmentBuilder Domain}

theorem push_cases (id : AttributeId) (value : ValueRef) (builder : EnvironmentBuilder Domain) :
    (∃ error, builder.push id value = (.error error, builder)) ∨
      ∃ after, builder.push id value = (.ok (), after) ∧
        id ∉ builder.attributes.map AttributeRef.id ∧
        after.attributes = builder.attributes ++ [⟨id, value⟩] := by
  rw [push]
  split
  · exact .inl ⟨_, rfl⟩
  · rename_i fresh
    cases pushed : builder.entries.push ⟨id, value⟩ with
    | none => exact .inl ⟨_, rfl⟩
    | some entries =>
        refine .inr ⟨⟨entries⟩, rfl, ?_, Slots.filled_push pushed⟩
        intro present
        apply fresh
        obtain ⟨entry, member, same⟩ := List.mem_map.mp present
        exact List.any_eq_true.mpr ⟨entry, member, decide_eq_true same⟩

/-- What a call adds. -/
def Call.entry : Call Domain → AttributeRef
  | .bool marker value => ⟨marker.id, .bool value⟩
  | .i64 marker value => ⟨marker.id, .i64 value⟩
  | .bytes marker value => ⟨marker.id, .bytes value⟩

theorem apply_cases (builder : EnvironmentBuilder Domain) (call : Call Domain) :
    (∃ error, builder.apply call = (.error error, builder)) ∨
      ∃ after, builder.apply call = (.ok (), after) ∧
        call.entry.id ∉ builder.attributes.map AttributeRef.id ∧
        call.entry.value.Bounded maxAttributeBytes ∧
        after.attributes = builder.attributes ++ [call.entry] := by
  cases call with
  | bool marker value =>
      obtain failed | ⟨after, pushed, fresh, appended⟩ := push_cases marker.id (.bool value) builder
      · exact .inl failed
      · exact .inr ⟨after, pushed, fresh, trivial, appended⟩
  | i64 marker value =>
      obtain failed | ⟨after, pushed, fresh, appended⟩ := push_cases marker.id (.i64 value) builder
      · exact .inl failed
      · exact .inr ⟨after, pushed, fresh, trivial, appended⟩
  | bytes marker value =>
      rw [apply, bytes]
      split
      · exact .inl ⟨_, rfl⟩
      · rename_i short
        obtain failed | ⟨after, pushed, fresh, appended⟩ :=
          push_cases marker.id (.bytes value) builder
        · exact .inl failed
        · exact .inr ⟨after, pushed, fresh, Nat.not_lt.mp short, appended⟩

theorem apply_eq_ok {after : EnvironmentBuilder Domain} {call : Call Domain}
    (applied : builder.apply call = (.ok (), after)) :
    after.attributes = builder.attributes ++ [call.entry] := by
  obtain ⟨error, failed⟩ | ⟨pushed, done, _, _, appended⟩ := builder.apply_cases call
  · cases failed.symm.trans applied
  · cases done.symm.trans applied
    exact appended

theorem bounded_apply (bounded : BoundedAttributes builder.attributes) (call : Call Domain) :
    BoundedAttributes (builder.apply call).2.attributes := by
  obtain ⟨error, failed⟩ | ⟨after, applied, fresh, small, appended⟩ :=
    builder.apply_cases call
  · rw [failed]
    exact bounded
  · rw [applied]
    refine ⟨after.entries.length_filled_le, ?_, ?_⟩
    · rw [appended, List.map_append, List.map_singleton]
      exact List.nodup_append_comm.mp (List.nodup_cons.mpr ⟨fresh, bounded.2.1⟩)
    · intro other member
      rw [appended] at member
      rcases List.mem_append.mp member with earlier | added
      · exact bounded.2.2 other earlier
      · rw [List.mem_singleton.mp added]
        exact small

theorem bounded_run (bounded : BoundedAttributes builder.attributes) (calls : List (Call Domain)) :
    BoundedAttributes (builder.run calls).attributes := by
  induction calls generalizing builder with
  | nil => exact bounded
  | cons call rest ih => exact ih (bounded_apply bounded call)

theorem bounded_new (Domain : Type) : BoundedAttributes (new Domain).attributes :=
  ⟨Nat.zero_le _, List.nodup_nil, fun _ member => by cases member⟩

end EnvironmentBuilder

/-! ## Predicates -/

namespace PredicateBuilder

variable {predicate : PredicateBuilder Domain} {required : List ClauseRef}

theorem push_cases (attributeId : AttributeId) (operator : Operator) (value : ValueRef)
    (predicate : PredicateBuilder Domain) :
    (∃ error, predicate.push attributeId operator value = (.error error, predicate)) ∨
      ∃ after, predicate.push attributeId operator value = (.ok (), after) ∧
        after.clauses = predicate.clauses ++ [⟨attributeId, operator, value⟩] := by
  rw [push, ClauseBuilder.push]
  cases pushed : predicate.builder.clauses.push ⟨attributeId, operator, value⟩ with
  | none => exact .inl ⟨_, rfl⟩
  | some clauses => exact .inr ⟨⟨⟨clauses⟩⟩, rfl, Slots.filled_push pushed⟩

theorem bytes_cases (marker : BytesAttribute Domain) (operator : Operator) (value : Bytes)
    (predicate : PredicateBuilder Domain) :
    (∃ error, predicate.bytes marker operator value = (.error error, predicate)) ∨
      ∃ after, predicate.bytes marker operator value = (.ok (), after) ∧
        value.length ≤ maxAttributeBytes ∧
        after.clauses = predicate.clauses ++ [⟨marker.id, operator, .bytes value⟩] := by
  rw [bytes]
  split
  · exact .inl ⟨_, rfl⟩
  · rename_i short
    obtain failed | ⟨after, pushed, appended⟩ :=
      push_cases marker.id operator (.bytes value) predicate
    · exact .inl failed
    · exact .inr ⟨after, pushed, Nat.not_lt.mp short, appended⟩

/-- What a call adds. -/
def Call.clause : Call Domain → ClauseRef
  | .bool marker operator value => ⟨marker.id, operator, .bool value⟩
  | .i64 marker operator value => ⟨marker.id, operator, .i64 value⟩
  | .bytes marker operator value => ⟨marker.id, operator, .bytes value⟩

theorem apply_cases (predicate : PredicateBuilder Domain) (call : Call Domain) :
    (∃ error, predicate.apply call = (.error error, predicate)) ∨
      ∃ after, predicate.apply call = (.ok (), after) ∧
        call.clause.value.Bounded maxAttributeBytes ∧
        after.clauses = predicate.clauses ++ [call.clause] := by
  cases call with
  | bool marker operator value =>
      obtain failed | ⟨after, pushed, appended⟩ :=
        push_cases marker.id operator (.bool value) predicate
      · exact .inl failed
      · exact .inr ⟨after, pushed, trivial, appended⟩
  | i64 marker operator value =>
      obtain failed | ⟨after, pushed, appended⟩ :=
        push_cases marker.id operator (.i64 value) predicate
      · exact .inl failed
      · exact .inr ⟨after, pushed, trivial, appended⟩
  | bytes marker operator value =>
      obtain failed | ⟨after, pushed, short, appended⟩ :=
        bytes_cases marker operator value predicate
      · exact .inl failed
      · exact .inr ⟨after, pushed, short, appended⟩

theorem apply_eq_ok {after : PredicateBuilder Domain} {call : Call Domain}
    (applied : predicate.apply call = (.ok (), after)) :
    after.clauses = predicate.clauses ++ [call.clause] := by
  obtain ⟨error, failed⟩ | ⟨pushed, done, _, appended⟩ := predicate.apply_cases call
  · cases failed.symm.trans applied
  · cases done.symm.trans applied
    exact appended

/-- The clauses fit the protocol, and those that the domain demands are among them. -/
structure Requires (predicate : PredicateBuilder Domain) (required : List ClauseRef) : Prop where
  bounded : BoundedClauses predicate.clauses
  present : required ⊆ predicate.clauses

theorem Requires.apply (requires : predicate.Requires required) (call : Call Domain) :
    (predicate.apply call).2.Requires required := by
  obtain ⟨error, failed⟩ | ⟨after, applied, small, appended⟩ := predicate.apply_cases call
  · rw [failed]
    exact requires
  · rw [applied]
    refine ⟨⟨after.builder.clauses.length_filled_le, ?_⟩, ?_⟩
    · intro other member
      rw [appended] at member
      rcases List.mem_append.mp member with earlier | added
      · exact requires.bounded.2 other earlier
      · rw [List.mem_singleton.mp added]
        exact small
    · rw [appended]
      exact fun other member => List.mem_append_left _ (requires.present member)

theorem Requires.run (requires : predicate.Requires required) (calls : List (Call Domain)) :
    (predicate.run calls).Requires required := by
  induction calls generalizing predicate with
  | nil => exact requires
  | cons call rest ih => exact ih (requires.apply call)

theorem bounded_eq_ok {marker : BytesAttribute Domain} {value : Bytes}
    (built : bounded marker value = .ok predicate) :
    value.length ≤ maxAttributeBytes ∧ predicate.clauses = [⟨marker.id, .eq, .bytes value⟩] := by
  rw [bounded] at built
  obtain ⟨error, failed⟩ | ⟨after, pushed, short, appended⟩ :=
    bytes_cases marker .eq value (new Domain)
  · rw [failed] at built
    cases built
  · rw [pushed] at built
    cases built
    exact ⟨short, appended⟩

theorem bounded_requires {marker : BytesAttribute Domain} {value : Bytes}
    (built : bounded marker value = .ok predicate) :
    predicate.Requires [⟨marker.id, .eq, .bytes value⟩] := by
  obtain ⟨short, clauses⟩ := bounded_eq_ok built
  refine ⟨⟨?_, ?_⟩, ?_⟩
  · rw [clauses, List.length_singleton]
    decide
  · rw [clauses]
    intro clause member
    rw [List.mem_singleton.mp member]
    exact short
  · rw [clauses]
    exact fun _ member => member

end PredicateBuilder

theorem RobotSwarm.constrained_requires {swarmId : Bytes} {missionEpoch : Int64}
    {predicate : PredicateBuilder RobotSwarm.Domain}
    (built : RobotSwarm.constrained swarmId missionEpoch = .ok predicate) :
    predicate.Requires [⟨RobotSwarm.swarmId.id, .eq, .bytes swarmId⟩,
      ⟨RobotSwarm.missionEpoch.id, .eq, .i64 missionEpoch⟩] := by
  obtain ⟨first, swarm, built⟩ := bind_eq_ok.mp built
  have requires := PredicateBuilder.bounded_requires swarm
  obtain ⟨error, failed⟩ | ⟨after, pushed, appended⟩ :=
    PredicateBuilder.push_cases RobotSwarm.missionEpoch.id .eq (.i64 missionEpoch) first
  · rw [PredicateBuilder.i64, failed] at built
    cases built
  · rw [PredicateBuilder.i64, pushed] at built
    cases built
    have kept := requires.apply (.i64 RobotSwarm.missionEpoch .eq missionEpoch)
    rw [PredicateBuilder.apply, PredicateBuilder.i64, pushed] at kept
    refine ⟨kept.bounded, ?_⟩
    rw [appended]
    intro clause member
    rcases List.mem_cons.mp member with rfl | last
    · exact List.mem_append_left _ (requires.present List.mem_cons_self)
    · exact List.mem_append_right _ last

/-! ## Boundaries -/

/-- The predicate is true only where the given attributes have the given values. -/
def Bounds (boundary : List AttributeRef) (predicate : PredicateRef) : Prop :=
  ∀ environment : EnvironmentRef, predicate.evaluate environment = true →
    ∀ entry ∈ boundary, environment.get entry.id = some entry.value

/-- Every encoder accepts the clauses, whatever the buffer that has room for them, and what is
parsed again keeps to the boundary. -/
structure Confined (boundary : List AttributeRef) (clauses : List ClauseRef) : Prop where
  subscribe : ∀ typeId, ∃ encoded predicate, encoded.length ≤ maxPlaintextLen ∧
    (∀ capacity, encoded.length ≤ capacity →
      encodeSubscribe capacity typeId clauses = .ok encoded) ∧
    parseOperation encoded = .ok (.subscribe typeId predicate) ∧ Bounds boundary predicate
  subscribePermanent : ∀ typeId, ∃ encoded predicate, encoded.length ≤ maxPlaintextLen ∧
    (∀ capacity, encoded.length ≤ capacity →
      encodeSubscribePermanent capacity typeId clauses = .ok encoded) ∧
    parseOperation encoded = .ok (.subscribePermanent typeId predicate) ∧
    Bounds boundary predicate
  publish : ∀ typeId value, value.length ≤ maxValueBytes →
    ∃ encoded predicate, encoded.length ≤ maxPlaintextLen ∧
      (∀ capacity, encoded.length ≤ capacity →
        encodePublish capacity typeId clauses value = .ok encoded) ∧
      parseOperation encoded = .ok (.publish typeId predicate value) ∧ Bounds boundary predicate

/-- The clause that demands the value of an attribute. -/
def demand (entry : AttributeRef) : ClauseRef := ⟨entry.id, .eq, entry.value⟩

theorem bounds_of_demands {boundary : List AttributeRef} {clauses : List ClauseRef}
    (bounded : BoundedClauses clauses) (demands : boundary.map demand ⊆ clauses) :
    Bounds boundary (predicateRef clauses) := by
  intro environment evaluated entry member
  have all := (evaluate_predicateRef bounded).mp evaluated
  obtain ⟨held, found, passes⟩ := all (demand entry) (demands (List.mem_map_of_mem member))
  have same : held = entry.value := compareValues_eq_iff.mp passes
  rw [← same]
  exact found

theorem confined_of_demands {boundary : List AttributeRef} {clauses : List ClauseRef}
    (bounded : BoundedClauses clauses) (demands : boundary.map demand ⊆ clauses) :
    Confined boundary clauses where
  subscribe typeId := by
    have valid : (Operation.subscribe typeId clauses).Valid := bounded
    exact ⟨_, _, Operation.bytes_length valid, fun _ room => Operation.encode_of_room valid room,
      parseOperation_bytes valid, bounds_of_demands bounded demands⟩
  subscribePermanent typeId := by
    have valid : (Operation.subscribePermanent typeId clauses).Valid := bounded
    exact ⟨_, _, Operation.bytes_length valid, fun _ room => Operation.encode_of_room valid room,
      parseOperation_bytes valid, bounds_of_demands bounded demands⟩
  publish typeId value short := by
    have valid : (Operation.publish typeId clauses value).Valid := ⟨bounded, short⟩
    exact ⟨_, _, Operation.bytes_length valid, fun _ room => Operation.encode_of_room valid room,
      parseOperation_bytes valid, bounds_of_demands bounded demands⟩

theorem PredicateBuilder.Requires.confined {predicate : PredicateBuilder Domain}
    {boundary : List AttributeRef} (requires : predicate.Requires (boundary.map demand))
    (calls : List (PredicateBuilder.Call Domain)) :
    Confined boundary (predicate.run calls).clauses := by
  have after := requires.run calls
  exact confined_of_demands after.bounded after.present

/-- Whatever is called on a builder, its predicate keeps to one building, one tenant or one
swarm and mission, and every environment that is built can be sent. -/
theorem builders_confined :
    (∀ buildingId builder calls,
      SmartBuilding.subscription buildingId = .ok builder ∨
        SmartBuilding.audience buildingId = .ok builder →
      Confined [⟨SmartBuilding.buildingId.id, .bytes buildingId⟩] (builder.run calls).clauses) ∧
    (∀ tenantId builder calls,
      MultiTenant.subscription tenantId = .ok builder ∨
        MultiTenant.audience tenantId = .ok builder →
      Confined [⟨MultiTenant.tenantId.id, .bytes tenantId⟩] (builder.run calls).clauses) ∧
    (∀ swarmId missionEpoch builder calls,
      RobotSwarm.subscription swarmId missionEpoch = .ok builder ∨
        RobotSwarm.audience swarmId missionEpoch = .ok builder →
      Confined [⟨RobotSwarm.swarmId.id, .bytes swarmId⟩,
        ⟨RobotSwarm.missionEpoch.id, .i64 missionEpoch⟩] (builder.run calls).clauses) ∧
    ∀ (Domain : Type) calls, ∃ encoded, encoded.length ≤ maxPlaintextLen ∧
      ∀ capacity, encoded.length ≤ capacity →
        encodeEnvironment capacity ((EnvironmentBuilder.new Domain).run calls).attributes =
          .ok encoded := by
  refine ⟨?_, ?_, ?_, ?_⟩
  · intro buildingId builder calls built
    exact (PredicateBuilder.bounded_requires (built.elim id id)).confined calls
  · intro tenantId builder calls built
    exact (PredicateBuilder.bounded_requires (built.elim id id)).confined calls
  · intro swarmId missionEpoch builder calls built
    exact (RobotSwarm.constrained_requires (built.elim id id)).confined calls
  · intro Domain calls
    have bounded := EnvironmentBuilder.bounded_run (EnvironmentBuilder.bounded_new Domain) calls
    have valid : (Operation.setEnvironment _).Valid := bounded
    exact ⟨_, Operation.bytes_length valid, fun _ room => Operation.encode_of_room valid room⟩

/-- A call that fails and one that appends a clause. -/
def sampleCalls (Domain : Type) : List (PredicateBuilder.Call Domain) :=
  [.bytes ⟨⟨9⟩, .selfDeclared⟩ .eq (.replicate 65 0), .i64 ⟨⟨8⟩, .caIssued⟩ .ge 3]

theorem sample_builders_confined :
    (∃ builder, SmartBuilding.subscription [1] = .ok builder ∧
      (builder.run (sampleCalls _)).clauses.length = 2 ∧
      Confined [⟨SmartBuilding.buildingId.id, .bytes [1]⟩]
        (builder.run (sampleCalls _)).clauses) ∧
    (∃ builder, MultiTenant.audience [2] = .ok builder ∧
      (builder.run (sampleCalls _)).clauses.length = 2 ∧
      Confined [⟨MultiTenant.tenantId.id, .bytes [2]⟩] (builder.run (sampleCalls _)).clauses) ∧
    ∃ builder, RobotSwarm.audience [3] 4 = .ok builder ∧
      (builder.run (sampleCalls _)).clauses.length = 3 ∧
      Confined [⟨RobotSwarm.swarmId.id, .bytes [3]⟩, ⟨RobotSwarm.missionEpoch.id, .i64 4⟩]
        (builder.run (sampleCalls _)).clauses := by
  obtain ⟨building, tenant, swarm, _⟩ := builders_confined
  refine ⟨⟨_, rfl, ?_, building [1] _ (sampleCalls _) (.inl rfl)⟩,
    ⟨_, rfl, ?_, tenant [2] _ (sampleCalls _) (.inr rfl)⟩,
    ⟨_, rfl, ?_, swarm [3] 4 _ (sampleCalls _) (.inr rfl)⟩⟩
  · decide +kernel
  · decide +kernel
  · decide +kernel

end SecurePubSub.UseCases
