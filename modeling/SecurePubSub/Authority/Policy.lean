import SecurePubSub.Protocol.Payload

namespace SecurePubSub.Authority

open SecurePubSub.Protocol

/-! The environment policy that the CA engine consults. -/

/-- Reason for a policy rejection or an invalid policy setup. -/
inductive EnvironmentPolicyError where
  | unknownAttribute
  | wrongAttributeType
  | caApprovalRequired
  | valueNotAllowed
  | invalidConfiguration
deriving DecidableEq

/-- CA policy applied to environments and deliveries. -/
structure EnvironmentPolicy where
  validateEnvironment : AgentId → Option EnvironmentRef → EnvironmentRef →
    Except EnvironmentPolicyError Unit
  /-- Publication type, publisher's environment and subscriber's environment. -/
  allowsDelivery : TypeId → EnvironmentRef → EnvironmentRef → Bool := fun _ _ _ => true
  /-- Revalidates both stored environments and applies delivery constraints as one decision. -/
  authorizeDelivery : AgentId → EnvironmentRef → AgentId → EnvironmentRef → TypeId → Bool :=
    fun publisherId publisher subscriberId subscriber typeId =>
      (validateEnvironment publisherId none publisher).isOk &&
        (validateEnvironment subscriberId none subscriber).isOk &&
        allowsDelivery typeId publisher subscriber

/-- Compatibility policy that accepts every structurally valid environment. -/
def allowAllEnvironmentPolicy : EnvironmentPolicy where
  validateEnvironment := fun _ _ _ => .ok ()

end SecurePubSub.Authority
