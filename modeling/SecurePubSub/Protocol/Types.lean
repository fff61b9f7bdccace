import SecurePubSub.Data.Bytes
import Mathlib.Data.Prod.Lex

namespace SecurePubSub.Protocol

open SecurePubSub.Data

/-! Protocol constants and the small wire identifiers of the protocol core. -/

/-- `as_bytes()` of a string. -/
def asBytes (text : String) : Bytes := text.toUTF8.data.toList

theorem asBytes_inj {left right : String} : asBytes left = asBytes right ↔ left = right := by
  constructor
  · intro same
    exact String.toByteArray_inj.mp (ByteArray.ext (Array.toList_inj.mp same))
  · rintro rfl
    rfl

/-- `b"SPUBSUB\0"`. -/
def magic : Bytes := asBytes "SPUBSUB" ++ [0]

def protocolId : Bytes := asBytes "SecurePubSub/v1"

def version : UInt8 := 1

def headerLen : Nat := 148

def tagLen : Nat := 16

def signatureLen : Nat := 64

def maxPlaintextLen : Nat := 4096

def maxFrameLen : Nat := headerLen + maxPlaintextLen + tagLen + signatureLen

def maxAttributes : Nat := 16

def maxClauses : Nat := 8

def maxAttributeBytes : Nat := 64

def maxValueBytes : Nat := 3072

abbrev Key32 := FixedBytes 32

/-- Stable 128-bit agent identity. -/
structure AgentId where
  value : FixedBytes 16

/-- Random 128-bit identifier of a one-message session. -/
structure SessionId where
  value : FixedBytes 16

/-- Application handler identity. -/
structure HandlerId where
  value : FixedBytes 16

instance : LinearOrder AgentId :=
  LinearOrder.lift' AgentId.value (fun left right same => by
    cases left; cases right; simpa using same)

instance : LinearOrder SessionId :=
  LinearOrder.lift' SessionId.value (fun left right same => by
    cases left; cases right; simpa using same)

instance : LinearOrder HandlerId :=
  LinearOrder.lift' HandlerId.value (fun left right same => by
    cases left; cases right; simpa using same)

/-- Reserved identity of the certificate authority. -/
def AgentId.ca : AgentId := ⟨.fill 16 0⟩

/-- The empty handler of operations that carry none. -/
def HandlerId.none : HandlerId := ⟨.fill 16 0⟩

structure TypeId where
  value : UInt32

structure AttributeId where
  value : UInt16

instance : LinearOrder TypeId :=
  LinearOrder.lift' (fun typeId => typeId.value.toNat) (fun left right same => by
    cases left
    cases right
    simpa [UInt32.toNat_inj] using same)

instance : LinearOrder AttributeId :=
  LinearOrder.lift' (fun identifier => identifier.value.toNat) (fun left right same => by
    cases left
    cases right
    simpa [UInt16.toNat_inj] using same)

/-- Signed and KDF-bound purpose of an envelope. -/
inductive MessageType where
  | setEnvironment
  | subscribePermanent
  | publish
  | publicationResponse
  | subscribe
deriving DecidableEq

namespace MessageType

def toU8 : MessageType → UInt8
  | setEnvironment => 1
  | subscribePermanent => 2
  | publish => 3
  | publicationResponse => 4
  | subscribe => 5

def fromU8 (value : UInt8) : Option MessageType :=
  match value with
  | 1 => some setEnvironment
  | 2 => some subscribePermanent
  | 3 => some publish
  | 4 => some publicationResponse
  | 5 => some subscribe
  | _ => none

/-- Direction encoded into the KDF context. -/
def direction : MessageType → UInt8
  | publicationResponse => 2
  | _ => 1

/-- Domain string encoded into the KDF context. -/
def domain : MessageType → Bytes
  | setEnvironment => asBytes "env"
  | subscribePermanent => asBytes "subscription"
  | subscribe => asBytes "subscription-one-shot"
  | publish => asBytes "publication-request"
  | publicationResponse => asBytes "publication-response"

@[simp] theorem fromU8_toU8 (messageType : MessageType) :
    fromU8 messageType.toU8 = some messageType := by
  cases messageType <;> rfl

end MessageType

/-- Comparison operator of a clause. -/
inductive Operator where
  | eq
  | ne
  | lt
  | le
  | gt
  | ge
deriving DecidableEq

namespace Operator

def toU8 : Operator → UInt8
  | eq => 1
  | ne => 2
  | lt => 3
  | le => 4
  | gt => 5
  | ge => 6

def fromU8 (value : UInt8) : Option Operator :=
  match value with
  | 1 => some eq
  | 2 => some ne
  | 3 => some lt
  | 4 => some le
  | 5 => some gt
  | 6 => some ge
  | _ => none

@[simp] theorem fromU8_toU8 (operator : Operator) : fromU8 operator.toU8 = some operator := by
  cases operator <;> rfl

end Operator

/-- Public protocol errors; cryptographic failures share one variant. -/
inductive Error where
  | malformed
  | unsupportedVersion
  | oversized
  | badSignature
  | replay
  | cryptoFailure
  | wrongRecipient
  | wrongMessageType
  | wrongHandler
  | randomFailure
  | capacity
  | unauthorizedEnvironment
deriving DecidableEq

/-- Neither of the errors that a bad stored record or a missing key would give. -/
def Error.BlamesNoRecord (error : Error) : Prop := error ≠ .malformed ∧ error ≠ .badSignature

instance (error : Error) : Decidable error.BlamesNoRecord := inferInstanceAs (Decidable (_ ∧ _))

/-- `u64::saturating_add`. -/
def saturatingAdd (left right : UInt64) : UInt64 :=
  if left.toNat + right.toNat < 2 ^ 64 then left + right else .ofNat (2 ^ 64 - 1)

end SecurePubSub.Protocol
