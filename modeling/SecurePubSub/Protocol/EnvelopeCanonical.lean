import SecurePubSub.Protocol.Envelope

namespace SecurePubSub.Protocol

open SecurePubSub.Data SecurePubSub.Data.Fallible

/-! The envelope format is canonical, and parsing one never slices out of range.

The sliced readings of the parser and of the header writer say what the plain ones
leave out: a slice of the source panics when its range does not lie inside the buffer.
-/

/-- A computation that ends with a result or panics. -/
abbrev Panicking (α : Type) := ExceptT Error Option α

namespace Panicking

variable {α β : Type}

def ofResult (result : Except Error α) : Panicking α := some result

/-- `&input[start..stop]`. -/
def sliceOf (input : Bytes) (start stop : Nat) : Panicking Bytes :=
  if start ≤ stop ∧ stop ≤ input.length then ofResult (.ok (slice input start stop)) else none

/-- `input[index]`. -/
def byteOf (input : Bytes) (index : Nat) : Panicking UInt8 :=
  if index < input.length then ofResult (.ok (byteAt input index)) else none

/-- `output[start..stop].copy_from_slice(bytes)`. -/
def copyInto (output : Bytes) (start stop : Nat) (bytes : Bytes) : Panicking Bytes :=
  if start ≤ stop ∧ stop ≤ output.length ∧ bytes.length = stop - start then
    ofResult (.ok (output.take start ++ bytes ++ output.drop stop))
  else none

theorem ofResult_bind {result : Except Error α} {next : α → Panicking β}
    {plain : α → Except Error β}
    (rest : ∀ value, result = .ok value → next value = ofResult (plain value)) :
    (ofResult result >>= next) = ofResult (result >>= plain) := by
  cases result with
  | error error => rfl
  | ok value => exact rest value rfl

theorem sliceOf_bind {input : Bytes} {start stop : Nat} (next : Bytes → Panicking β)
    (ordered : start ≤ stop) (within : stop ≤ input.length) :
    (sliceOf input start stop >>= next) = next (slice input start stop) := by
  rw [sliceOf, if_pos ⟨ordered, within⟩]
  rfl

theorem byteOf_bind {input : Bytes} {index : Nat} (next : UInt8 → Panicking β)
    (within : index < input.length) : (byteOf input index >>= next) = next (byteAt input index) := by
  rw [byteOf, if_pos within]
  rfl

/-- Writing the next part of a layout behind the parts already written. -/
theorem copyInto_bind {parts : List Bytes} {output bytes : Bytes} {start stop : Nat}
    (next : Bytes → Panicking β) (begins : parts.flatten.length = start)
    (ends : start + bytes.length = stop) (within : stop ≤ output.length) :
    (copyInto (parts.flatten ++ output.drop start) start stop bytes >>= next) =
      next ((parts ++ [bytes]).flatten ++ output.drop stop) := by
  subst begins ends
  have room : parts.flatten.length + bytes.length ≤
      (parts.flatten ++ output.drop parts.flatten.length).length := by
    rw [List.length_append, List.length_drop]
    omega
  have front : (parts.flatten ++ output.drop parts.flatten.length).take parts.flatten.length =
      parts.flatten := List.take_left' rfl
  have back : (parts.flatten ++ output.drop parts.flatten.length).drop
      (parts.flatten.length + bytes.length) =
        output.drop (parts.flatten.length + bytes.length) := by
    rw [← List.drop_drop, List.drop_left' rfl, List.drop_drop]
  rw [copyInto, if_pos ⟨Nat.le_add_right _ _, room, (Nat.add_sub_cancel_left ..).symm⟩, front,
    back, List.flatten_append, List.flatten_singleton]
  rfl

end Panicking

open Panicking

/-- `encodeHeader` with the header written into the output where the source writes it. -/
def encodeHeaderInto (output : Bytes) (header : EnvelopeHeader) (ciphertextLen : Nat) :
    Panicking (Bytes × Nat) := do
  ofResult (rejectIf (ciphertextLen > maxPlaintextLen) .oversized)
  let totalLen := frameLen ciphertextLen
  ofResult (rejectIf (output.length < headerLen ∨ totalLen > maxFrameLen) .oversized)
  let output ← copyInto output 0 8 magic
  let output ← copyInto output 8 9 [version]
  let output ← copyInto output 9 10 [header.messageType.toU8]
  let output ← copyInto output 10 12 (beBytes 2 0)
  let output ← copyInto output 12 16 (beBytes 4 totalLen)
  let output ← copyInto output 16 32 header.sender.value.bytes
  let output ← copyInto output 32 48 header.recipient.value.bytes
  let output ← copyInto output 48 64 header.handler.value.bytes
  let output ← copyInto output 64 80 header.sessionId.value.bytes
  let output ← copyInto output 80 112 header.ephemeralPublic.bytes
  let output ← copyInto output 112 144 header.salt.bytes
  let output ← copyInto output 144 148 (beBytes 4 ciphertextLen)
  ofResult (.ok (output, totalLen))

/-- The header is written without a panic, in front of what the output held behind it. -/
theorem encodeHeaderInto_eq (output : Bytes) (header : EnvelopeHeader) (ciphertextLen : Nat) :
    encodeHeaderInto output header ciphertextLen =
      ofResult ((encodeHeader output.length header ciphertextLen).map
        fun (bytes, totalLen) => (bytes ++ output.drop headerLen, totalLen)) := by
  rw [encodeHeaderInto, encodeHeader]
  by_cases short : ciphertextLen > maxPlaintextLen
  · rw [rejectIf_fail _ short]
    rfl
  simp only
  by_cases room : output.length < headerLen ∨ frameLen ciphertextLen > maxFrameLen
  · rw [rejectIf_pass _ short, rejectIf_fail _ room]
    rfl
  have long : 148 ≤ output.length := Nat.not_lt.mp fun small => room (.inl small)
  rw [rejectIf_pass _ short, rejectIf_pass _ room]
  change (copyInto (([] : List Bytes).flatten ++ output.drop 0) 0 8 magic >>= _) = _
  iterate 12 rw [copyInto_bind _ (by simp [magic_length]) (by simp [magic_length]) (by omega)]
  rfl

/-- `parseEnvelope` with the slices as the source takes them. -/
def parseEnvelopeSliced (input : Bytes) : Panicking EnvelopeRef := do
  ofResult (rejectIf (input.length < headerLen + tagLen + signatureLen) .malformed)
  ofResult (rejectIf (input.length > maxFrameLen) .oversized)
  ofResult (rejectIf (slice input 0 8 ≠ magic) .malformed)
  let versionByte ← byteOf input 8
  ofResult (rejectIf (versionByte ≠ version) .unsupportedVersion)
  let typeByte ← byteOf input 9
  let messageType ← ofResult (readMessageType typeByte)
  let reserved ← sliceOf input 10 12
  ofResult (rejectIf (reserved ≠ [0, 0]) .malformed)
  let totalBytes ← sliceOf input 12 16
  let totalLen ← ofResult (readU32 totalBytes)
  ofResult (rejectIf (totalLen ≠ input.length) .malformed)
  let lengthBytes ← sliceOf input 144 148
  let ciphertextLen ← ofResult (readU32 lengthBytes)
  ofResult (rejectIf (ciphertextLen > maxPlaintextLen) .oversized)
  ofResult (rejectIf (frameLen ciphertextLen ≠ totalLen) .malformed)
  let ciphertextEnd := headerLen + ciphertextLen
  let tagEnd := ciphertextEnd + tagLen
  let ephemeralBytes ← sliceOf input 80 112
  let ephemeralPublic ← ofResult (arrayCopy 32 ephemeralBytes)
  let saltBytes ← sliceOf input 112 144
  let salt ← ofResult (arrayCopy 32 saltBytes)
  let tagBytes ← sliceOf input ciphertextEnd tagEnd
  let tag ← ofResult (arrayCopy tagLen tagBytes)
  let signatureBytes ← sliceOf input tagEnd totalLen
  let signature ← ofResult (arrayCopy signatureLen signatureBytes)
  let senderBytes ← sliceOf input 16 32
  let sender ← ofResult (arrayCopy 16 senderBytes)
  let recipientBytes ← sliceOf input 32 48
  let recipient ← ofResult (arrayCopy 16 recipientBytes)
  let handlerBytes ← sliceOf input 48 64
  let handler ← ofResult (arrayCopy 16 handlerBytes)
  let sessionBytes ← sliceOf input 64 80
  let sessionId ← ofResult (arrayCopy 16 sessionBytes)
  let ciphertext ← sliceOf input headerLen ciphertextEnd
  let header ← sliceOf input 0 headerLen
  let signedBytes ← sliceOf input 0 tagEnd
  ofResult (.ok {
    messageType
    sender := ⟨sender⟩
    recipient := ⟨recipient⟩
    handler := ⟨handler⟩
    sessionId := ⟨sessionId⟩
    ephemeralPublic
    salt
    ciphertext
    tag
    signature
    header
    signedBytes
  })

/-- No input makes a slice of the parser panic. -/
theorem parseEnvelopeSliced_eq (input : Bytes) :
    parseEnvelopeSliced input = ofResult (parseEnvelope input) := by
  rw [parseEnvelopeSliced, parseEnvelope]
  apply ofResult_bind
  intro _ long
  have long : 148 + 16 + 64 ≤ input.length := Nat.not_lt.mp (rejectIf_eq_ok.mp long)
  refine ofResult_bind fun _ _ => ofResult_bind fun _ _ => ?_
  rw [byteOf_bind _ (by omega)]
  refine ofResult_bind fun _ _ => ?_
  rw [byteOf_bind _ (by omega)]
  refine ofResult_bind fun messageType _ => ?_
  rw [sliceOf_bind _ (by omega) (by omega)]
  refine ofResult_bind fun _ _ => ?_
  rw [sliceOf_bind _ (by omega) (by omega)]
  refine ofResult_bind fun totalLen _ => ofResult_bind fun _ total => ?_
  rw [sliceOf_bind _ (by omega) (by omega)]
  refine ofResult_bind fun ciphertextLen _ => ofResult_bind fun _ _ =>
    ofResult_bind fun _ consistent => ?_
  -- From here on the two length fields agree with the length of the input.
  have total : totalLen = input.length := not_not.mp (rejectIf_eq_ok.mp total)
  have frame : 148 + ciphertextLen + (16 + 64) = totalLen :=
    not_not.mp (rejectIf_eq_ok.mp consistent)
  have tagWidth : tagLen = 16 := rfl
  have headerWidth : headerLen = 148 := rfl
  simp only [tagWidth, headerWidth]
  rw [sliceOf_bind _ (by omega) (by omega)]
  refine ofResult_bind fun ephemeralPublic _ => ?_
  rw [sliceOf_bind _ (by omega) (by omega)]
  refine ofResult_bind fun salt _ => ?_
  rw [sliceOf_bind _ (by omega) (by omega)]
  refine ofResult_bind fun tag _ => ?_
  rw [sliceOf_bind _ (by omega) (by omega)]
  refine ofResult_bind fun signature _ => ?_
  rw [sliceOf_bind _ (by omega) (by omega)]
  refine ofResult_bind fun sender _ => ?_
  rw [sliceOf_bind _ (by omega) (by omega)]
  refine ofResult_bind fun recipient _ => ?_
  rw [sliceOf_bind _ (by omega) (by omega)]
  refine ofResult_bind fun handler _ => ?_
  rw [sliceOf_bind _ (by omega) (by omega)]
  refine ofResult_bind fun sessionId _ => ?_
  rw [sliceOf_bind _ (by omega) (by omega), sliceOf_bind _ (by omega) (by omega),
    sliceOf_bind _ (by omega) (by omega)]
  rfl

/-- The parts of an envelope are consecutive slices of the input, from its first to its last byte. -/
structure EnvelopeRef.Partitions (envelope : EnvelopeRef) (input : Bytes) : Prop where
  header : slice input 0 headerLen = envelope.header
  ciphertext :
    slice input headerLen (headerLen + envelope.ciphertext.length) = envelope.ciphertext
  tag : slice input (headerLen + envelope.ciphertext.length)
    (headerLen + envelope.ciphertext.length + tagLen) = envelope.tag.bytes
  signature : slice input (headerLen + envelope.ciphertext.length + tagLen) input.length =
    envelope.signature.bytes
  widths : envelope.header.length = headerLen ∧
    headerLen + envelope.ciphertext.length + tagLen + signatureLen = input.length
  signed : envelope.signedBytes ++ envelope.signature.bytes = input

/-- The input is the frame of the envelope, with the header as `encodeHeader` writes it. -/
structure EnvelopeRef.IsFrame (envelope : EnvelopeRef) (input : Bytes) : Prop where
  short : envelope.ciphertext.length ≤ maxPlaintextLen
  written : ∀ output : Bytes, headerLen ≤ output.length →
    encodeHeaderInto output envelope.toEnvelopeHeader envelope.ciphertext.length =
      ofResult (.ok (envelope.header ++ output.drop headerLen, input.length))
  joined : input = envelope.header ++ envelope.ciphertext ++ envelope.tag.bytes ++
    envelope.signature.bytes
  signed : envelope.signedBytes = envelope.header ++ envelope.ciphertext ++ envelope.tag.bytes

/-- What `encodeHeader` writes is the canonical header alone. -/
theorem written_iff {envelope : EnvelopeRef} {total : Nat}
    (short : envelope.ciphertext.length ≤ maxPlaintextLen) :
    (∀ output : Bytes, headerLen ≤ output.length →
      encodeHeaderInto output envelope.toEnvelopeHeader envelope.ciphertext.length =
        ofResult (.ok (envelope.header ++ output.drop headerLen, total))) ↔
      envelope.header = envelope.toEnvelopeHeader.encoded envelope.ciphertext.length ∧
        total = frameLen envelope.ciphertext.length := by
  have encoded : ∀ output : Bytes, headerLen ≤ output.length →
      encodeHeaderInto output envelope.toEnvelopeHeader envelope.ciphertext.length =
        ofResult (.ok (envelope.toEnvelopeHeader.encoded envelope.ciphertext.length ++
          output.drop headerLen, frameLen envelope.ciphertext.length)) := by
    intro output room
    have plain := encodeHeader_eq_ok.mpr ⟨short, room, @rfl _
      (envelope.toEnvelopeHeader.encoded envelope.ciphertext.length), rfl⟩
    rw [encodeHeaderInto_eq, plain]
    rfl
  constructor
  · intro written
    have room : headerLen ≤ (List.replicate headerLen (0 : UInt8)).length := by
      rw [List.length_replicate]
    have same := (written _ room).symm.trans (encoded _ room)
    have pair := Prod.mk.inj (Except.ok.inj (Option.some.inj same))
    exact ⟨List.append_cancel_right pair.1, pair.2⟩
  · intro ⟨header, length⟩ output room
    rw [header, length, encoded output room]

theorem EnvelopeRef.IsFrame.frame {envelope : EnvelopeRef} {input : Bytes}
    (isFrame : envelope.IsFrame input) :
    input = envelope.toEnvelopeHeader.frame envelope.ciphertext envelope.tag envelope.signature ∧
      envelope =
        envelope.toEnvelopeHeader.view envelope.ciphertext envelope.tag envelope.signature := by
  have header := ((written_iff isFrame.short).mp isFrame.written).1
  constructor
  · rw [EnvelopeHeader.frame, ← header]
    exact isFrame.joined
  · obtain ⟨fields, ciphertext, tag, signature, bytes, signedBytes⟩ := envelope
    have signed := isFrame.signed
    simp only at header signed
    rw [EnvelopeHeader.view, signed, header]

theorem parseEnvelope_iff_isFrame {input : Bytes} {envelope : EnvelopeRef} :
    parseEnvelope input = .ok envelope ↔ envelope.IsFrame input := by
  constructor
  · intro parsed
    obtain ⟨header, signed, whole, short⟩ := parseEnvelope_eq_ok parsed
    have joined : input = envelope.toEnvelopeHeader.frame envelope.ciphertext envelope.tag
        envelope.signature := by
      rw [EnvelopeHeader.frame, ← header, ← signed]
      exact whole
    have length : input.length = frameLen envelope.ciphertext.length := by
      rw [joined, EnvelopeHeader.frame_length]
    exact ⟨short, (written_iff short).mpr ⟨header, length⟩, signed ▸ whole, signed⟩
  · intro isFrame
    obtain ⟨framed, viewed⟩ := isFrame.frame
    rw [framed, viewed]
    exact parseEnvelope_frame _ _ _ isFrame.short

theorem EnvelopeRef.IsFrame.partitions {envelope : EnvelopeRef} {input : Bytes}
    (isFrame : envelope.IsFrame input) : envelope.Partitions input := by
  have framed := isFrame.frame.1
  obtain ⟨header, length⟩ := (written_iff isFrame.short).mp isFrame.written
  obtain ⟨headerSlice, ciphertextSlice, tagSlice, signatureSlice⟩ :=
    envelope.toEnvelopeHeader.slice_frame_trailer envelope.ciphertext envelope.tag
      envelope.signature
  rw [← framed] at headerSlice ciphertextSlice tagSlice signatureSlice
  exact {
    header := headerSlice.trans header.symm
    ciphertext := ciphertextSlice
    tag := tagSlice
    signature := by rw [length]; exact signatureSlice
    widths := by
      rw [header, EnvelopeHeader.encoded_length, length, frameLen]
      exact ⟨rfl, Nat.add_assoc _ _ _⟩
    signed := by rw [isFrame.signed]; exact isFrame.joined.symm
  }

/-- The accepted inputs are the frames of their envelopes, each cut up without gap or overlap,
and neither reading nor writing slices out of range. -/
theorem envelope_canonical (input : Bytes) :
    (∀ envelope, parseEnvelope input = .ok envelope ↔ envelope.IsFrame input) ∧
      (∀ envelope, parseEnvelope input = .ok envelope → envelope.Partitions input) ∧
      parseEnvelopeSliced input = ofResult (parseEnvelope input) ∧
      ∀ header ciphertextLen, ∃ result,
        encodeHeaderInto input header ciphertextLen = ofResult result :=
  ⟨fun _ => parseEnvelope_iff_isFrame,
    fun _ parsed => (parseEnvelope_iff_isFrame.mp parsed).partitions,
    parseEnvelopeSliced_eq input,
    fun header ciphertextLen => ⟨_, encodeHeaderInto_eq input header ciphertextLen⟩⟩

end SecurePubSub.Protocol
