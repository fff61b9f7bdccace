import SecurePubSub.Data.Slots
import SecurePubSub.Protocol.Evaluation

namespace SecurePubSub.UseCases

open SecurePubSub.Data SecurePubSub.Data.Fallible SecurePubSub.Protocol

/-! Typed builders of the application models and the boundaries of their domains.

A builder is changed in place, so a call returns its result together with the builder it
leaves. A domain only tells attributes of different applications apart.
-/

/-- Attribute provenance expected by the application model. -/
inductive Authority where
  | selfDeclared
  | caIssued

/-- Builder or schema validation error. -/
inductive ModelError where
  | capacity
  | duplicateAttribute
  | attributeTooLong
  | unknownAttribute
  | wrongAttributeType
deriving DecidableEq

structure BoolAttribute (Domain : Type) where
  id : AttributeId
  authority : Authority

structure I64Attribute (Domain : Type) where
  id : AttributeId
  authority : Authority

structure BytesAttribute (Domain : Type) where
  id : AttributeId
  authority : Authority

/-! ## Environments -/

/-- Fixed-capacity typed environment builder. -/
structure EnvironmentBuilder (Domain : Type) where
  entries : Slots AttributeRef maxAttributes

namespace EnvironmentBuilder

variable {Domain : Type}

def new (Domain : Type) : EnvironmentBuilder Domain := ⟨.new maxAttributes ⟨⟨0⟩, .bool false⟩⟩

def push (id : AttributeId) (value : ValueRef) (builder : EnvironmentBuilder Domain) :
    Except ModelError Unit × EnvironmentBuilder Domain :=
  if builder.entries.filled.any (fun entry => decide (entry.id = id)) then
    (.error .duplicateAttribute, builder)
  else
    match builder.entries.push ⟨id, value⟩ with
    | none => (.error .capacity, builder)
    | some entries => (.ok (), ⟨entries⟩)

def bool (marker : BoolAttribute Domain) (value : Bool) (builder : EnvironmentBuilder Domain) :
    Except ModelError Unit × EnvironmentBuilder Domain :=
  builder.push marker.id (.bool value)

def i64 (marker : I64Attribute Domain) (value : Int64) (builder : EnvironmentBuilder Domain) :
    Except ModelError Unit × EnvironmentBuilder Domain :=
  builder.push marker.id (.i64 value)

def bytes (marker : BytesAttribute Domain) (value : Bytes)
    (builder : EnvironmentBuilder Domain) :
    Except ModelError Unit × EnvironmentBuilder Domain :=
  if maxAttributeBytes < value.length then (.error .attributeTooLong, builder)
  else builder.push marker.id (.bytes value)

def attributes (builder : EnvironmentBuilder Domain) : List AttributeRef := builder.entries.filled

/-- One call of a method. -/
inductive Call (Domain : Type) where
  | bool (marker : BoolAttribute Domain) (value : Bool)
  | i64 (marker : I64Attribute Domain) (value : Int64)
  | bytes (marker : BytesAttribute Domain) (value : Bytes)

def apply (builder : EnvironmentBuilder Domain) :
    Call Domain → Except ModelError Unit × EnvironmentBuilder Domain
  | .bool marker value => builder.bool marker value
  | .i64 marker value => builder.i64 marker value
  | .bytes marker value => builder.bytes marker value

def run (builder : EnvironmentBuilder Domain) (calls : List (Call Domain)) :
    EnvironmentBuilder Domain :=
  calls.foldl (fun builder call => (builder.apply call).2) builder

end EnvironmentBuilder

/-! ## Predicates -/

structure ClauseBuilder (Domain : Type) where
  clauses : Slots ClauseRef maxClauses

namespace ClauseBuilder

variable {Domain : Type}

def new (Domain : Type) : ClauseBuilder Domain := ⟨.new maxClauses ⟨⟨0⟩, .eq, .bool false⟩⟩

def push (attributeId : AttributeId) (operator : Operator) (value : ValueRef)
    (builder : ClauseBuilder Domain) : Except ModelError Unit × ClauseBuilder Domain :=
  match builder.clauses.push ⟨attributeId, operator, value⟩ with
  | none => (.error .capacity, builder)
  | some clauses => (.ok (), ⟨clauses⟩)

end ClauseBuilder

/-- What the source generates twice, for subscriptions and for audiences. -/
structure PredicateBuilder (Domain : Type) where
  builder : ClauseBuilder Domain

namespace PredicateBuilder

variable {Domain : Type}

def new (Domain : Type) : PredicateBuilder Domain := ⟨.new Domain⟩

def push (attributeId : AttributeId) (operator : Operator) (value : ValueRef)
    (predicate : PredicateBuilder Domain) : Except ModelError Unit × PredicateBuilder Domain :=
  let (result, builder) := predicate.builder.push attributeId operator value
  (result, ⟨builder⟩)

def bool (marker : BoolAttribute Domain) (operator : Operator) (value : Bool)
    (predicate : PredicateBuilder Domain) : Except ModelError Unit × PredicateBuilder Domain :=
  predicate.push marker.id operator (.bool value)

def i64 (marker : I64Attribute Domain) (operator : Operator) (value : Int64)
    (predicate : PredicateBuilder Domain) : Except ModelError Unit × PredicateBuilder Domain :=
  predicate.push marker.id operator (.i64 value)

def bytes (marker : BytesAttribute Domain) (operator : Operator) (value : Bytes)
    (predicate : PredicateBuilder Domain) : Except ModelError Unit × PredicateBuilder Domain :=
  if maxAttributeBytes < value.length then (.error .attributeTooLong, predicate)
  else predicate.push marker.id operator (.bytes value)

def clauses (predicate : PredicateBuilder Domain) : List ClauseRef :=
  predicate.builder.clauses.filled

/-- One call of a method. -/
inductive Call (Domain : Type) where
  | bool (marker : BoolAttribute Domain) (operator : Operator) (value : Bool)
  | i64 (marker : I64Attribute Domain) (operator : Operator) (value : Int64)
  | bytes (marker : BytesAttribute Domain) (operator : Operator) (value : Bytes)

def apply (predicate : PredicateBuilder Domain) :
    Call Domain → Except ModelError Unit × PredicateBuilder Domain
  | .bool marker operator value => predicate.bool marker operator value
  | .i64 marker operator value => predicate.i64 marker operator value
  | .bytes marker operator value => predicate.bytes marker operator value

def run (predicate : PredicateBuilder Domain) (calls : List (Call Domain)) :
    PredicateBuilder Domain :=
  calls.foldl (fun predicate call => (predicate.apply call).2) predicate

/-- A new builder with one clause that its domain demands. -/
def bounded (marker : BytesAttribute Domain) (value : Bytes) :
    Except ModelError (PredicateBuilder Domain) :=
  match (new Domain).bytes marker .eq value with
  | (.error error, _) => .error error
  | (.ok (), predicate) => .ok predicate

end PredicateBuilder

abbrev SubscriptionBuilder (Domain : Type) := PredicateBuilder Domain

abbrev AudienceBuilder (Domain : Type) := PredicateBuilder Domain

/-! ## Domains -/

namespace SmartBuilding

inductive Domain where

def buildingId : BytesAttribute Domain := ⟨⟨0x1001⟩, .caIssued⟩

def environment : EnvironmentBuilder Domain := .new Domain

def subscription (buildingId : Bytes) : Except ModelError (SubscriptionBuilder Domain) :=
  PredicateBuilder.bounded SmartBuilding.buildingId buildingId

def audience (buildingId : Bytes) : Except ModelError (AudienceBuilder Domain) :=
  PredicateBuilder.bounded SmartBuilding.buildingId buildingId

end SmartBuilding

namespace MultiTenant

inductive Domain where

def tenantId : BytesAttribute Domain := ⟨⟨0x3001⟩, .caIssued⟩

def environment : EnvironmentBuilder Domain := .new Domain

def subscription (tenantId : Bytes) : Except ModelError (SubscriptionBuilder Domain) :=
  PredicateBuilder.bounded MultiTenant.tenantId tenantId

def audience (tenantId : Bytes) : Except ModelError (AudienceBuilder Domain) :=
  PredicateBuilder.bounded MultiTenant.tenantId tenantId

end MultiTenant

namespace RobotSwarm

inductive Domain where

def swarmId : BytesAttribute Domain := ⟨⟨0x2001⟩, .caIssued⟩

def missionEpoch : I64Attribute Domain := ⟨⟨0x2002⟩, .caIssued⟩

def environment : EnvironmentBuilder Domain := .new Domain

/-- A new builder with the clauses for swarm and mission. -/
def constrained (swarmId : Bytes) (missionEpoch : Int64) :
    Except ModelError (PredicateBuilder Domain) := do
  let predicate ← PredicateBuilder.bounded RobotSwarm.swarmId swarmId
  match predicate.i64 RobotSwarm.missionEpoch .eq missionEpoch with
  | (.error error, _) => .error error
  | (.ok (), predicate) => .ok predicate

def subscription (swarmId : Bytes) (missionEpoch : Int64) :
    Except ModelError (SubscriptionBuilder Domain) :=
  constrained swarmId missionEpoch

def audience (swarmId : Bytes) (missionEpoch : Int64) :
    Except ModelError (AudienceBuilder Domain) :=
  constrained swarmId missionEpoch

end RobotSwarm

end SecurePubSub.UseCases
