import Mathlib.Data.Finset.Card
import Mathlib.Data.Finset.Insert
import SecurePubSub.Data.Fallible
import SecurePubSub.Data.Layout
import SecurePubSub.Data.SortedMap
import SecurePubSub.Protocol.Types

namespace SecurePubSub.Link

open SecurePubSub.Data SecurePubSub.Data.Fallible SecurePubSub.Protocol

/-! Frames of the link between Broker and CA and the bounded state kept about them.

A frame is valid by construction. What the source keeps and sends encoded is kept
here as the frame itself; `decode_encoded` says that the bytes give it back.
-/

def linkHeaderLen : Nat := 28

def maxLinkFrameLen : Nat := linkHeaderLen + maxFrameLen

def magic : Bytes := asBytes "SPLK"

def version : UInt8 := 1

/-- Random link-level identifier. -/
structure MessageId where
  value : FixedBytes 16

instance : LinearOrder MessageId :=
  LinearOrder.lift' MessageId.value (fun left right same => by
    cases left; cases right; simpa using same)

inductive LinkError where
  | invalidFrame
  | oversized
  | queueFull
  | authentication
deriving DecidableEq

def MessageId.read (bytes : Bytes) : Except LinkError MessageId :=
  match FixedBytes.ofSlice? 16 bytes with
  | some value => .ok ⟨value⟩
  | none => .error .invalidFrame

@[simp] theorem MessageId.read_bytes (id : MessageId) : read id.value.bytes = .ok id := by
  simp [read]

/-- Internal frame purpose. -/
inductive FrameKind where
  | request
  | delivery
  | ack
  | authChallenge
  | authResponse
  | authOk
deriving DecidableEq

namespace FrameKind

def toU8 : FrameKind → UInt8
  | request => 1
  | delivery => 2
  | ack => 3
  | authChallenge => 4
  | authResponse => 5
  | authOk => 6

def parse (value : UInt8) : Except LinkError FrameKind :=
  match value with
  | 1 => .ok request
  | 2 => .ok delivery
  | 3 => .ok ack
  | 4 => .ok authChallenge
  | 5 => .ok authResponse
  | 6 => .ok authOk
  | _ => .error .invalidFrame

/-- Frames of this kind carry no payload. -/
def bare : FrameKind → Bool
  | ack => true
  | authOk => true
  | _ => false

@[simp] theorem parse_toU8 (kind : FrameKind) : parse kind.toU8 = .ok kind := by
  cases kind <;> rfl

end FrameKind

/-- A valid internal frame. -/
structure LinkFrame where
  kind : FrameKind
  id : MessageId
  payload : Bytes
  bounded : payload.length ≤ maxFrameLen
  bare : kind.bare = true → payload = []

namespace LinkFrame

@[ext] theorem ext {left right : LinkFrame} (kind : left.kind = right.kind)
    (id : left.id = right.id) (payload : left.payload = right.payload) : left = right := by
  cases left
  cases right
  cases kind
  cases id
  cases payload
  rfl

/-- The checks of `encode`. -/
def build (kind : FrameKind) (id : MessageId) (payload : Bytes) : Except LinkError LinkFrame :=
  if bounded : payload.length ≤ maxFrameLen then
    if bare : kind.bare = true → payload = [] then .ok ⟨kind, id, payload, bounded, bare⟩
    else .error .invalidFrame
  else .error .oversized

def fields (frame : LinkFrame) : List Bytes :=
  [magic, [version], [frame.kind.toU8], beBytes 2 0, frame.id.value.bytes,
    beBytes 4 frame.payload.length, frame.payload]

def encoded (frame : LinkFrame) : Bytes := frame.fields.flatten

def ack (id : MessageId) : LinkFrame := ⟨.ack, id, [], Nat.zero_le _, fun _ => rfl⟩

theorem build_eq_ok {kind : FrameKind} {id : MessageId} {payload : Bytes} {frame : LinkFrame}
    (built : build kind id payload = .ok frame) :
    frame.kind = kind ∧ frame.id = id ∧ frame.payload = payload := by
  unfold build at built
  split at built
  · split at built
    · cases built
      exact ⟨rfl, rfl, rfl⟩
    · cases built
  · cases built

theorem build_short {kind : FrameKind} (id : MessageId) {payload : Bytes}
    (short : payload.length ≤ maxFrameLen) (full : kind.bare = false) :
    build kind id payload =
      .ok ⟨kind, id, payload, short, fun bare => by rw [full] at bare; cases bare⟩ := by
  unfold build
  rw [dif_pos short, dif_pos]

end LinkFrame

def encode (kind : FrameKind) (id : MessageId) (payload : Bytes) : Except LinkError Bytes :=
  (LinkFrame.build kind id payload).map LinkFrame.encoded

def decode (input : Bytes) : Except LinkError LinkFrame := do
  rejectIf (input.length < linkHeaderLen) .invalidFrame
  rejectIf (input.length > maxLinkFrameLen) .oversized
  rejectIf (slice input 0 4 ≠ magic ∨ byteAt input 4 ≠ version ∨ slice input 6 8 ≠ [0, 0])
    .invalidFrame
  let kind ← FrameKind.parse (byteAt input 5)
  let id ← MessageId.read (slice input 8 24)
  let payloadLen := beNat (slice input 24 28)
  let payload := slice input linkHeaderLen input.length
  if shape : linkHeaderLen + payloadLen = input.length ∧ payloadLen ≤ maxFrameLen then
    if bare : kind.bare = true → payload = [] then
      pure ⟨kind, id, payload, by simp only [payload, slice_length]; omega, bare⟩
    else .error .invalidFrame
  else .error .invalidFrame

namespace LinkFrame

theorem magic_length : magic.length = 4 := by decide

theorem encoded_length (frame : LinkFrame) :
    frame.encoded.length = linkHeaderLen + frame.payload.length := by
  simp [encoded, fields, magic_length, linkHeaderLen]
  omega

/-- Every frame is read back from its bytes. -/
theorem decode_encoded (frame : LinkFrame) : decode frame.encoded = .ok frame := by
  have length := frame.encoded_length
  have bounded := frame.bounded
  have field {part : Bytes} (index start stop : Nat) (found : frame.fields[index]? = some part)
      (begins : (frame.fields.take index).flatten.length = start)
      (ends : start + part.length = stop) : slice frame.encoded start stop = part :=
    slice_flatten index found begins ends
  have magicRead : slice frame.encoded 0 4 = magic := field 0 0 4 rfl rfl (by decide)
  have versionRead : slice frame.encoded 4 5 = [version] :=
    field 1 4 5 rfl (by simp [fields, magic_length]) rfl
  have kindRead : slice frame.encoded 5 6 = [frame.kind.toU8] :=
    field 2 5 6 rfl (by simp [fields, magic_length]) rfl
  have reservedRead : slice frame.encoded 6 8 = [0, 0] :=
    field 3 6 8 rfl (by simp [fields, magic_length]) rfl
  have idRead : slice frame.encoded 8 24 = frame.id.value.bytes :=
    field 4 8 24 rfl (by simp [fields, magic_length]) (by simp)
  have lengthRead : slice frame.encoded 24 28 = beBytes 4 frame.payload.length :=
    field 5 24 28 rfl (by simp [fields, magic_length]) (by simp)
  have payloadRead : slice frame.encoded linkHeaderLen frame.encoded.length = frame.payload :=
    field 6 28 _ rfl (by simp [fields, magic_length]) length.symm
  have representable : frame.payload.length < 256 ^ 4 := by
    have limit : maxFrameLen < 256 ^ 4 := by decide
    omega
  have enough : ¬ frame.encoded.length < linkHeaderLen := by omega
  have within : ¬ frame.encoded.length > maxLinkFrameLen := by
    unfold maxLinkFrameLen
    omega
  have header : ¬ (slice frame.encoded 0 4 ≠ magic ∨ byteAt frame.encoded 4 ≠ version ∨
      slice frame.encoded 6 8 ≠ [0, 0]) := by
    simp [magicRead, byteAt_of_slice versionRead, reservedRead]
  unfold decode
  rw [rejectIf_pass _ enough, ok_bind, rejectIf_pass _ within, ok_bind, rejectIf_pass _ header,
    ok_bind, byteAt_of_slice kindRead, FrameKind.parse_toU8, ok_bind, idRead,
    MessageId.read_bytes, ok_bind]
  simp only [payloadRead, lengthRead, beNat_beBytes 4 representable]
  rw [dif_pos ⟨length.symm, bounded⟩, dif_pos frame.bare]
  rfl

end LinkFrame

end SecurePubSub.Link
