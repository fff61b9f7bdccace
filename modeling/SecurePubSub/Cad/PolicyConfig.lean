import SecurePubSub.Authority.PolicyApprovals

namespace SecurePubSub.Cad

open SecurePubSub.Data SecurePubSub.Data.Fallible SecurePubSub.Protocol SecurePubSub.Authority

/-! The policy section of the CA daemon's configuration and the policy built from it.

The decoder of hexadecimal text is a dependency of the daemon and a parameter
here: it returns the bytes or nothing.
-/

inductive Kind where
  | bool
  | i64
  | bytes
deriving DecidableEq

def Kind.attributeType : Kind → AttributeType
  | bool => .bool
  | i64 => .i64
  | bytes => .bytes

inductive ConfiguredValue where
  | bool (value : Bool)
  | i64 (value : Int64)
  | bytes (value : String)
  | hex (value : String)
deriving DecidableEq

/-- One entry of `attributes`. -/
structure AttributeRule where
  id : UInt16
  kind : Kind
  authority : AttributeAuthority
  allowed : List ConfiguredValue

structure Approval where
  agent : String
  attributeId : UInt16
  value : ConfiguredValue

structure Isolation where
  typeId : UInt32
  attributes : List UInt16

structure SubscriberRequirement where
  typeId : UInt32
  attributeId : UInt16
  values : List ConfiguredValue

structure PolicyConfig where
  attributes : List AttributeRule
  approvals : List Approval
  isolations : List Isolation
  subscriberRequirements : List SubscriberRequirement

/-- Why a configuration is refused. -/
inductive ConfigError where
  | policy (error : EnvironmentPolicyError)
  | invalidHex
  | incorrectLength
deriving DecidableEq

/-- The conversion that `?` applies to an error of the policy. -/
def fromPolicy {α : Type} (result : Except EnvironmentPolicyError α) : Except ConfigError α :=
  result.mapError ConfigError.policy

theorem fromPolicy_eq_ok {α : Type} {result : Except EnvironmentPolicyError α} {value : α} :
    fromPolicy result = .ok value ↔ result = .ok value :=
  mapError_eq_ok

section HexDecode

variable (hexDecode : String → Option Bytes)

/-- `hex::decode(value)?`. -/
def hexBytes (text : String) : Except ConfigError Bytes :=
  match hexDecode text with
  | some bytes => .ok bytes
  | none => .error .invalidHex

/-- Decodes a fixed-size hexadecimal value. -/
def decodeHex (width : Nat) (text : String) : Except ConfigError (FixedBytes width) := do
  let bytes ← hexBytes hexDecode text
  match FixedBytes.ofSlice? width bytes with
  | some array => pure array
  | none => .error .incorrectLength

def value : ConfiguredValue → Except ConfigError AttributeValue
  | .bool value => .ok (.bool value)
  | .i64 value => .ok (.i64 value)
  | .bytes value => fromPolicy (AttributeValue.ofBytes (asBytes value))
  | .hex value => do
      let bytes ← hexBytes hexDecode value
      fromPolicy (AttributeValue.ofBytes bytes)

def allowConfigured (attributeId : AttributeId) (policy : StaticEnvironmentPolicy)
    (allowed : ConfiguredValue) : Except ConfigError StaticEnvironmentPolicy := do
  let configured ← value hexDecode allowed
  fromPolicy (policy.allowValue attributeId configured)

def registerAttribute (policy : StaticEnvironmentPolicy) (rule : AttributeRule) :
    Except ConfigError StaticEnvironmentPolicy := do
  let kind := rule.kind.attributeType
  let policy ← fromPolicy (match rule.authority with
    | .selfDeclared => policy.registerSelfDeclared ⟨rule.id⟩ kind
    | .caIssued => policy.registerCaIssued ⟨rule.id⟩ kind)
  rule.allowed.foldlM (allowConfigured hexDecode ⟨rule.id⟩) policy

def approveConfigured (policy : StaticEnvironmentPolicy) (approval : Approval) :
    Except ConfigError StaticEnvironmentPolicy := do
  let agent ← decodeHex hexDecode 16 approval.agent
  let configured ← value hexDecode approval.value
  fromPolicy (policy.approve ⟨agent⟩ ⟨approval.attributeId⟩ configured)

def isolateConfigured (policy : StaticEnvironmentPolicy) (isolation : Isolation) :
    Except ConfigError StaticEnvironmentPolicy :=
  let attributes := isolation.attributes.map AttributeId.mk
  fromPolicy (policy.isolate ⟨isolation.typeId⟩ attributes)

def admitConfigured (typeId : TypeId) (attributeId : AttributeId)
    (policy : StaticEnvironmentPolicy) (allowed : ConfiguredValue) :
    Except ConfigError StaticEnvironmentPolicy := do
  let configured ← value hexDecode allowed
  fromPolicy (policy.allowSubscriberValue typeId attributeId configured)

def requireConfigured (policy : StaticEnvironmentPolicy) (requirement : SubscriberRequirement) :
    Except ConfigError StaticEnvironmentPolicy :=
  requirement.values.foldlM
    (admitConfigured hexDecode ⟨requirement.typeId⟩ ⟨requirement.attributeId⟩) policy

def buildPolicy (config : PolicyConfig) : Except ConfigError StaticEnvironmentPolicy := do
  let policy ← config.attributes.foldlM (registerAttribute hexDecode) .new
  let policy ← config.approvals.foldlM (approveConfigured hexDecode) policy
  let policy ← config.isolations.foldlM isolateConfigured policy
  config.subscriberRequirements.foldlM (requireConfigured hexDecode) policy

end HexDecode

end SecurePubSub.Cad
