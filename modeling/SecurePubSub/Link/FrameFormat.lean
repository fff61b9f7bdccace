import SecurePubSub.Link.Frames

namespace SecurePubSub.Link

open SecurePubSub.Data SecurePubSub.Data.Fallible SecurePubSub.Protocol

/-! The frame format is a bijection between the frames that can be sent and the
byte strings that are accepted.

An accepted string is put together again from its slices, each of which the
checks of `decode` determine.
-/

theorem FrameKind.parse_eq_ok {value : UInt8} {kind : FrameKind}
    (parsed : FrameKind.parse value = .ok kind) : kind.toU8 = value := by
  unfold parse at parsed
  split at parsed
  all_goals cases parsed
  all_goals rfl

theorem MessageId.read_eq_ok {bytes : Bytes} {id : MessageId}
    (read : MessageId.read bytes = .ok id) : id.value.bytes = bytes := by
  unfold MessageId.read at read
  cases converted : FixedBytes.ofSlice? 16 bytes with
  | none =>
      rw [converted] at read
      cases read
  | some value =>
      rw [converted] at read
      cases read
      exact FixedBytes.ofSlice?_eq_some converted

namespace LinkFrame

/-- What the checks establish about the slices of an accepted string. -/
structure ReadFrom (frame : LinkFrame) (input : Bytes) : Prop where
  magic : slice input 0 4 = magic
  version : slice input 4 5 = [version]
  kind : slice input 5 6 = [frame.kind.toU8]
  reserved : slice input 6 8 = beBytes 2 0
  id : slice input 8 24 = frame.id.value.bytes
  length : slice input 24 28 = beBytes 4 frame.payload.length
  payload : slice input 28 input.length = frame.payload
  whole : input.length = linkHeaderLen + frame.payload.length

theorem readFrom_of_decode {input : Bytes} {frame : LinkFrame}
    (decoded : decode input = .ok frame) : frame.ReadFrom input := by
  obtain ⟨enough, decoded⟩ := rejectIf_bind_eq_ok decoded
  obtain ⟨_, decoded⟩ := rejectIf_bind_eq_ok decoded
  obtain ⟨header, decoded⟩ := rejectIf_bind_eq_ok decoded
  obtain ⟨kind, kindRead, decoded⟩ := bind_eq_ok.mp decoded
  obtain ⟨id, idRead, decoded⟩ := bind_eq_ok.mp decoded
  simp only [not_or, not_not] at header
  obtain ⟨magicRead, versionRead, reservedRead⟩ := header
  have long : 28 ≤ input.length := Nat.not_lt.mp enough
  dsimp only at decoded
  split at decoded
  · rename_i shape
    split at decoded
    · cases decoded
      have digits : (slice input 24 28).length = 4 := slice_length_of_le long
      have canonical := beBytes_beNat (slice input 24 28)
      have payloadLength : (slice input linkHeaderLen input.length).length =
          beNat (slice input 24 28) := by
        rw [slice_length_of_le (Nat.le_refl _)]
        omega
      rw [digits] at canonical
      constructor
      · exact magicRead
      · rw [slice_succ (by omega), versionRead]
      · rw [slice_succ (by omega), FrameKind.parse_eq_ok kindRead]
      · exact reservedRead
      · exact (MessageId.read_eq_ok idRead).symm
      · rw [payloadLength, canonical]
      · rfl
      · rw [payloadLength]
        exact shape.1.symm
    · cases decoded
  · cases decoded

theorem ReadFrom.encoded_eq {input : Bytes} {frame : LinkFrame} (read : frame.ReadFrom input) :
    frame.encoded = input := by
  have long : 28 ≤ input.length := by
    rw [read.whole]
    exact Nat.le_add_right _ _
  calc frame.encoded
      = slice input 0 4 ++ (slice input 4 5 ++ (slice input 5 6 ++ (slice input 6 8 ++
          (slice input 8 24 ++ (slice input 24 28 ++ slice input 28 input.length))))) := by
        rw [read.magic, read.version, read.kind, read.reserved, read.id, read.length, read.payload]
        simp [encoded, fields]
    _ = input := by
        rw [slice_append_slice (by decide) long, slice_append_slice (by decide) (by omega),
          slice_append_slice (by decide) (by omega), slice_append_slice (by decide) (by omega),
          slice_append_slice (by decide) (by omega), slice_append_slice (by decide) (by omega),
          slice_zero_length]

/-- A string is decoded to a frame exactly when it is the encoding of the frame. -/
theorem decode_iff {input : Bytes} {frame : LinkFrame} :
    decode input = .ok frame ↔ frame.encoded = input := by
  constructor
  · intro decoded
    exact (readFrom_of_decode decoded).encoded_eq
  · rintro rfl
    exact frame.decode_encoded

theorem build_self (frame : LinkFrame) : build frame.kind frame.id frame.payload = .ok frame := by
  rw [build, dif_pos frame.bounded, dif_pos frame.bare]

end LinkFrame

theorem encode_eq_ok {kind : FrameKind} {id : MessageId} {payload bytes : Bytes} :
    encode kind id payload = .ok bytes ↔ ∃ frame : LinkFrame, frame.encoded = bytes ∧
      frame.kind = kind ∧ frame.id = id ∧ frame.payload = payload := by
  constructor
  · intro encoded
    obtain ⟨frame, built, same⟩ := map_eq_ok.mp encoded
    exact ⟨frame, same, LinkFrame.build_eq_ok built⟩
  · rintro ⟨frame, rfl, rfl, rfl, rfl⟩
    rw [encode, frame.build_self]
    rfl

/-- Two accepted strings agree in the fixed part of the header, and in length exactly when they
agree in their length bytes. -/
theorem accepted_headers {input other : Bytes} {frame otherFrame : LinkFrame}
    (decoded : decode input = .ok frame) (otherDecoded : decode other = .ok otherFrame) :
    slice other 0 5 = slice input 0 5 ∧ slice other 6 8 = slice input 6 8 ∧
      (slice other 24 28 = slice input 24 28 ↔ other.length = input.length) := by
  have read := LinkFrame.readFrom_of_decode decoded
  have otherRead := LinkFrame.readFrom_of_decode otherDecoded
  refine ⟨?_, ?_, ?_⟩
  · rw [← @slice_append_slice other 0 4 5 (by decide) (by decide),
      ← @slice_append_slice input 0 4 5 (by decide) (by decide), read.magic, read.version,
      otherRead.magic, otherRead.version]
  · rw [read.reserved, otherRead.reserved]
  · have limit : maxFrameLen < 256 ^ 4 := by decide
    have small := Nat.lt_of_le_of_lt frame.bounded limit
    have otherSmall := Nat.lt_of_le_of_lt otherFrame.bounded limit
    rw [read.length, otherRead.length, read.whole, otherRead.whole, Nat.add_left_cancel_iff]
    constructor
    · intro same
      rw [← beNat_beBytes 4 small, ← beNat_beBytes 4 otherSmall, same]
    · intro same
      rw [same]

/-- No accepted string continues another one. -/
theorem accepted_alone {input other : Bytes} {frame otherFrame : LinkFrame}
    (decoded : decode input = .ok frame) (otherDecoded : decode other = .ok otherFrame)
    (continues : other <+: input) : other = input := by
  have long : 28 ≤ other.length := by
    rw [(LinkFrame.readFrom_of_decode otherDecoded).whole]
    exact Nat.le_add_right _ _
  obtain ⟨_, _, lengths⟩ := accepted_headers decoded otherDecoded
  apply continues.eq_of_length
  apply lengths.mp
  obtain ⟨rest, rfl⟩ := continues
  rw [slice, slice, List.take_append_of_le_length long]

theorem rejected_of_not_ok {input : Bytes} (not : ∀ frame, decode input ≠ .ok frame) :
    ∃ error, decode input = .error error := by
  cases decoded : decode input with
  | error error => exact ⟨error, rfl⟩
  | ok frame => exact absurd decoded (not frame)

/-- Decoding and encoding are inverse, and a string that differs from an accepted one in the fixed
header bytes, or in only one of its length and its length bytes, or by having an end cut off or
added, is rejected. -/
theorem frame_format_bijective :
    (∀ bytes kind id payload,
      (∃ frame, decode bytes = .ok frame ∧ frame.kind = kind ∧ frame.id = id ∧
        frame.payload = payload) ↔ encode kind id payload = .ok bytes) ∧
    (∀ kind id payload bytes, encode kind id payload = .ok bytes →
      ∃ frame, decode bytes = .ok frame ∧ frame.kind = kind ∧ frame.id = id ∧
        frame.payload = payload) ∧
    (∀ left right frame, decode left = .ok frame → decode right = .ok frame → left = right) ∧
    ∀ bytes frame, decode bytes = .ok frame → ∀ changed : Bytes,
      slice changed 0 5 ≠ slice bytes 0 5 ∨ slice changed 6 8 ≠ slice bytes 6 8 ∨
        ¬ (slice changed 24 28 = slice bytes 24 28 ↔ changed.length = bytes.length) ∨
        changed ≠ bytes ∧ (changed <+: bytes ∨ bytes <+: changed) →
      ∃ error, decode changed = .error error := by
  have exact : ∀ bytes kind id payload,
      (∃ frame, decode bytes = .ok frame ∧ frame.kind = kind ∧ frame.id = id ∧
        frame.payload = payload) ↔ encode kind id payload = .ok bytes := by
    intro bytes kind id payload
    rw [encode_eq_ok]
    simp only [LinkFrame.decode_iff]
  refine ⟨exact, ?_, ?_, ?_⟩
  · intro kind id payload bytes encoded
    exact (exact bytes kind id payload).mpr encoded
  · intro left right frame leftDecoded rightDecoded
    rw [← LinkFrame.decode_iff.mp leftDecoded, LinkFrame.decode_iff.mp rightDecoded]
  · intro bytes frame decoded changed altered
    apply rejected_of_not_ok
    intro other otherDecoded
    obtain ⟨fixed, reserved, lengths⟩ := accepted_headers decoded otherDecoded
    rcases altered with header | reserve | length | ⟨different, cut | extended⟩
    · exact header fixed
    · exact reserve reserved
    · exact length lengths
    · exact different (accepted_alone decoded otherDecoded cut)
    · exact different (accepted_alone otherDecoded decoded extended).symm

end SecurePubSub.Link
