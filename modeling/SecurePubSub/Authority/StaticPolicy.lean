import SecurePubSub.Authority.Policy
import SecurePubSub.Data.SortedMap
import SecurePubSub.Protocol.EnvironmentView

namespace SecurePubSub.Authority

open SecurePubSub.Data SecurePubSub.Data.Fallible SecurePubSub.Protocol

/-! The declarative policy of the daemons and what its builder can put into it.

A builder call makes all its checks before its one change, so a failed call
leaves the policy as it was.
-/

/-- Runtime type of an environment attribute. -/
inductive AttributeType where
  | bool
  | i64
  | bytes
deriving DecidableEq

def AttributeType.matches : AttributeType → ValueRef → Bool
  | .bool, .bool _ => true
  | .i64, .i64 _ => true
  | .bytes, .bytes _ => true
  | _, _ => false

/-- Authority allowed to establish an attribute value. -/
inductive AttributeAuthority where
  | selfDeclared
  | caIssued
deriving DecidableEq

/-- Owned attribute value of a static policy. -/
inductive AttributeValue where
  | bool (value : Bool)
  | i64 (value : Int64)
  | bytes (value : Bytes)
deriving DecidableEq

namespace AttributeValue

/-- `AttributeValue::bytes`, which bounds its argument. -/
def ofBytes (value : Bytes) : Except EnvironmentPolicyError AttributeValue :=
  if value.length > maxAttributeBytes then .error .invalidConfiguration else .ok (.bytes value)

def attributeType : AttributeValue → AttributeType
  | bool _ => .bool
  | i64 _ => .i64
  | bytes _ => .bytes

def matchesRef : AttributeValue → ValueRef → Bool
  | bool left, .bool right => left = right
  | i64 left, .i64 right => left = right
  | bytes left, .bytes right => left = right
  | _, _ => false

/-- The only borrowed value that an owned one matches. -/
def asRef : AttributeValue → ValueRef
  | bool value => .bool value
  | i64 value => .i64 value
  | bytes value => .bytes value

theorem matchesRef_iff {value : AttributeValue} {held : ValueRef} :
    value.matchesRef held = true ↔ held = value.asRef := by
  cases value <;> cases held <;> simp [matchesRef, asRef, eq_comm]

end AttributeValue

structure AttributeRule where
  attributeType : AttributeType
  authority : AttributeAuthority
deriving DecidableEq

abbrev ApprovalKey := AgentId ×ₗ AttributeId

abbrev RequirementKey := TypeId ×ₗ AttributeId

/-- Declarative bounded-environment policy. -/
structure StaticEnvironmentPolicy where
  rules : SortedMap AttributeId AttributeRule
  allowedValues : SortedMap AttributeId (List AttributeValue)
  approvals : SortedMap ApprovalKey AttributeValue
  isolation : SortedMap TypeId (List AttributeId)
  subscriberRequirements : SortedMap RequirementKey (List AttributeValue)

namespace StaticEnvironmentPolicy

/-! ## The builder -/

def new : StaticEnvironmentPolicy := ⟨.empty, .empty, .empty, .empty, .empty⟩

def registerRule (policy : StaticEnvironmentPolicy) (attributeId : AttributeId)
    (attributeType : AttributeType) (authority : AttributeAuthority) :
    Except EnvironmentPolicyError StaticEnvironmentPolicy :=
  match policy.rules.get attributeId with
  | some existing =>
      if existing.attributeType ≠ attributeType ∨ existing.authority ≠ authority then
        .error .invalidConfiguration
      else .ok policy
  | none =>
      .ok { policy with rules := policy.rules.insert attributeId ⟨attributeType, authority⟩ }

/-- Registers a self-declarable attribute and its required runtime type. -/
def registerSelfDeclared (policy : StaticEnvironmentPolicy) (attributeId : AttributeId)
    (attributeType : AttributeType) : Except EnvironmentPolicyError StaticEnvironmentPolicy :=
  policy.registerRule attributeId attributeType .selfDeclared

def registerCaIssued (policy : StaticEnvironmentPolicy) (attributeId : AttributeId)
    (attributeType : AttributeType) : Except EnvironmentPolicyError StaticEnvironmentPolicy :=
  policy.registerRule attributeId attributeType .caIssued

/-- `self.rules.get(&attribute).ok_or(InvalidConfiguration)`. -/
def ruleFor (policy : StaticEnvironmentPolicy) (attributeId : AttributeId) :
    Except EnvironmentPolicyError AttributeRule :=
  match policy.rules.get attributeId with
  | some rule => .ok rule
  | none => .error .invalidConfiguration

/-- `if !values.contains(&value) { values.push(value) }`. -/
def pushNew (values : List AttributeValue) (value : AttributeValue) : List AttributeValue :=
  if value ∈ values then values else values ++ [value]

theorem mem_pushNew {values : List AttributeValue} {value other : AttributeValue} :
    other ∈ pushNew values value ↔ other ∈ values ∨ other = value := by
  rw [pushNew]
  split
  · rename_i known
    constructor
    · exact .inl
    · rintro (old | rfl)
      · exact old
      · exact known
  · simp

/-- Adds an admitted value for an attribute. No entries means any value of the right type. -/
def allowValue (policy : StaticEnvironmentPolicy) (attributeId : AttributeId)
    (value : AttributeValue) : Except EnvironmentPolicyError StaticEnvironmentPolicy := do
  let rule ← policy.ruleFor attributeId
  rejectIf (rule.attributeType ≠ value.attributeType) .invalidConfiguration
  let values := (policy.allowedValues.get attributeId).getD []
  pure { policy with
    allowedValues := policy.allowedValues.insert attributeId (pushNew values value) }

def validateConfiguredValue (policy : StaticEnvironmentPolicy) (attributeId : AttributeId)
    (value : AttributeValue) : Except EnvironmentPolicyError Unit := do
  let rule ← policy.ruleFor attributeId
  rejectIf (rule.attributeType ≠ value.attributeType) .invalidConfiguration
  rejectIf ((policy.allowedValues.get attributeId).any
    (fun values => !values.isEmpty && !values.contains value)) .valueNotAllowed

/-- Approves one exact CA-issued value for an authenticated identity. -/
def approve (policy : StaticEnvironmentPolicy) (agent : AgentId) (attributeId : AttributeId)
    (value : AttributeValue) : Except EnvironmentPolicyError StaticEnvironmentPolicy := do
  let rule ← policy.ruleFor attributeId
  rejectIf (rule.authority ≠ .caIssued) .invalidConfiguration
  policy.validateConfiguredValue attributeId value
  pure { policy with approvals := policy.approvals.insert (toLex (agent, attributeId)) value }

/-- The loop of `isolate` over the listed attributes. -/
def requireCaIssued (policy : StaticEnvironmentPolicy) :
    List AttributeId → Except EnvironmentPolicyError Unit
  | [] => .ok ()
  | attributeId :: rest => do
      let rule ← policy.ruleFor attributeId
      rejectIf (rule.authority ≠ .caIssued) .invalidConfiguration
      policy.requireCaIssued rest

/-- Requires equality of the listed attributes for one publication type. -/
def isolate (policy : StaticEnvironmentPolicy) (typeId : TypeId) (attributes : List AttributeId) :
    Except EnvironmentPolicyError StaticEnvironmentPolicy := do
  rejectIf (attributes.isEmpty ∨ attributes.length > maxClauses) .invalidConfiguration
  policy.requireCaIssued attributes
  pure { policy with isolation := policy.isolation.insert typeId attributes }

/-- Admits one subscriber attribute value for a publication type. -/
def allowSubscriberValue (policy : StaticEnvironmentPolicy) (typeId : TypeId)
    (attributeId : AttributeId) (value : AttributeValue) :
    Except EnvironmentPolicyError StaticEnvironmentPolicy := do
  let rule ← policy.ruleFor attributeId
  rejectIf (rule.authority ≠ .caIssued ∨ rule.attributeType ≠ value.attributeType)
    .invalidConfiguration
  policy.validateConfiguredValue attributeId value
  let values := (policy.subscriberRequirements.get (toLex (typeId, attributeId))).getD []
  pure { policy with subscriberRequirements :=
    policy.subscriberRequirements.insert (toLex (typeId, attributeId)) (pushNew values value) }

/-! ## The two decisions -/

/-- One round of the loop over the proposed attributes. -/
def checkAttribute (policy : StaticEnvironmentPolicy) (agent : AgentId)
    (entry : AttributeRef) : Except EnvironmentPolicyError Unit :=
  match policy.rules.get entry.id with
  | none => .error .unknownAttribute
  | some rule => do
      rejectIf (!rule.attributeType.matches entry.value) .wrongAttributeType
      rejectIf ((policy.allowedValues.get entry.id).any (fun allowed =>
        !allowed.isEmpty && !allowed.any (fun value => value.matchesRef entry.value)))
        .valueNotAllowed
      rejectIf (rule.authority = .caIssued ∧
        !(policy.approvals.get (toLex (agent, entry.id))).any
          (fun approved => approved.matchesRef entry.value)) .caApprovalRequired

def checkAttributes (policy : StaticEnvironmentPolicy) (agent : AgentId) :
    List AttributeRef → Except EnvironmentPolicyError Unit
  | [] => .ok ()
  | entry :: rest => do
      policy.checkAttribute agent entry
      policy.checkAttributes agent rest

/-- An approval of this agent that the proposed environment does not show. -/
def missesApproval (agent : AgentId) (proposed : EnvironmentRef)
    (approval : ApprovalKey × AttributeValue) : Bool :=
  (ofLex approval.1).1 = agent &&
    !(proposed.get (ofLex approval.1).2).any (fun candidate => approval.2.matchesRef candidate)

def validateEnvironment (policy : StaticEnvironmentPolicy) (agent : AgentId)
    (_current : Option EnvironmentRef) (proposed : EnvironmentRef) :
    Except EnvironmentPolicyError Unit := do
  policy.checkAttributes agent proposed.iter
  rejectIf (policy.approvals.entries.any (missesApproval agent proposed)) .caApprovalRequired

/-- `left.zip(right).is_some_and(|(left, right)| left == right)`. -/
def bothEqual (left right : Option ValueRef) : Bool :=
  match left, right with
  | some left, some right => left = right
  | _, _ => false

def allowsDelivery (policy : StaticEnvironmentPolicy) (typeId : TypeId)
    (publisher subscriber : EnvironmentRef) : Bool :=
  let isolated := (policy.isolation.get typeId).all (fun attributes =>
    attributes.all (fun attributeId =>
      bothEqual (publisher.get attributeId) (subscriber.get attributeId)))
  isolated &&
    (policy.subscriberRequirements.entries.filter
      (fun entry => (ofLex entry.1).1 = typeId)).all (fun entry =>
        (subscriber.get (ofLex entry.1).2).any (fun candidate =>
          entry.2.any (fun value => value.matchesRef candidate)))

theorem bothEqual_iff {left right : Option ValueRef} :
    bothEqual left right = true ↔ ∃ held, left = some held ∧ right = some held := by
  cases left <;> cases right <;> simp [bothEqual, eq_comm]

/-- A delivery is allowed when the isolated attributes agree and every requirement on the
type is met by one of its values. -/
theorem allowsDelivery_iff {policy : StaticEnvironmentPolicy} {typeId : TypeId}
    {publisher subscriber : EnvironmentRef} :
    policy.allowsDelivery typeId publisher subscriber = true ↔
      (∀ attributes, policy.isolation.get typeId = some attributes → ∀ attributeId ∈ attributes,
        ∃ held, publisher.get attributeId = some held ∧ subscriber.get attributeId = some held) ∧
      (∀ attributeId values,
        policy.subscriberRequirements.get (toLex (typeId, attributeId)) = some values →
          ∃ value ∈ values, subscriber.get attributeId = some value.asRef) := by
  rw [allowsDelivery, Bool.and_eq_true]
  refine and_congr ?_ ?_
  · simp only [Option.all_eq_true, List.all_eq_true, bothEqual_iff]
  · simp only [List.all_eq_true, List.mem_filter, decide_eq_true_eq, and_imp,
      Option.any_eq_true, List.any_eq_true, AttributeValue.matchesRef_iff]
    constructor
    · intro met attributeId values found
      have listed := SortedMap.get_eq_some.mp found
      obtain ⟨candidate, held, value, member, same⟩ := met _ listed rfl
      exact ⟨value, member, same ▸ held⟩
    · intro met entry listed sameType
      obtain ⟨⟨typeId', attributeId⟩, values⟩ := entry
      cases sameType
      obtain ⟨value, member, held⟩ := met attributeId values (SortedMap.get_eq_some.mpr listed)
      exact ⟨_, held, value, member, rfl⟩

/-- The policy as the CA engine consults it. -/
def toEnvironmentPolicy (policy : StaticEnvironmentPolicy) : EnvironmentPolicy where
  validateEnvironment := policy.validateEnvironment
  allowsDelivery := policy.allowsDelivery

end StaticEnvironmentPolicy

end SecurePubSub.Authority
