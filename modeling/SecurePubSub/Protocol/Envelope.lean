import SecurePubSub.Data.Fallible
import SecurePubSub.Data.Layout
import SecurePubSub.Protocol.Types

namespace SecurePubSub.Protocol

open SecurePubSub.Data SecurePubSub.Data.Fallible

/-! The canonical envelope codec. -/

/-- The header fields of an envelope other than its lengths. -/
structure EnvelopeHeader where
  messageType : MessageType
  sender : AgentId
  recipient : AgentId
  handler : HandlerId
  sessionId : SessionId
  ephemeralPublic : Key32
  salt : Key32

/-- View of a validated complete envelope. -/
structure EnvelopeRef extends EnvelopeHeader where
  ciphertext : Bytes
  tag : FixedBytes tagLen
  signature : FixedBytes signatureLen
  /-- Canonical header used as associated data. -/
  header : Bytes
  /-- Canonical signed transcript: header, ciphertext and tag. -/
  signedBytes : Bytes

def frameLen (ciphertextLen : Nat) : Nat := headerLen + ciphertextLen + (tagLen + signatureLen)

def EnvelopeHeader.fields (header : EnvelopeHeader) (ciphertextLen : Nat) : List Bytes :=
  [magic, [version], [header.messageType.toU8], beBytes 2 0, beBytes 4 (frameLen ciphertextLen),
    header.sender.value.bytes, header.recipient.value.bytes, header.handler.value.bytes,
    header.sessionId.value.bytes, header.ephemeralPublic.bytes, header.salt.bytes,
    beBytes 4 ciphertextLen]

def EnvelopeHeader.encoded (header : EnvelopeHeader) (ciphertextLen : Nat) : Bytes :=
  (header.fields ciphertextLen).flatten

/-- The header written into a buffer of `outputLen` bytes and the complete envelope length. -/
def encodeHeader (outputLen : Nat) (header : EnvelopeHeader) (ciphertextLen : Nat) :
    Except Error (Bytes × Nat) := do
  rejectIf (ciphertextLen > maxPlaintextLen) .oversized
  let totalLen := frameLen ciphertextLen
  rejectIf (outputLen < headerLen ∨ totalLen > maxFrameLen) .oversized
  pure (header.encoded ciphertextLen, totalLen)

def arrayCopy (width : Nat) (bytes : Bytes) : Except Error (FixedBytes width) :=
  match FixedBytes.ofSlice? width bytes with
  | some array => .ok array
  | none => .error .malformed

def readU32 (bytes : Bytes) : Except Error Nat := do
  let digits ← arrayCopy 4 bytes
  pure (beNat digits.bytes)

def readMessageType (code : UInt8) : Except Error MessageType :=
  match MessageType.fromU8 code with
  | some messageType => .ok messageType
  | none => .error .malformed

def parseEnvelope (input : Bytes) : Except Error EnvelopeRef := do
  rejectIf (input.length < headerLen + tagLen + signatureLen) .malformed
  rejectIf (input.length > maxFrameLen) .oversized
  rejectIf (slice input 0 8 ≠ magic) .malformed
  rejectIf (byteAt input 8 ≠ version) .unsupportedVersion
  let messageType ← readMessageType (byteAt input 9)
  rejectIf (slice input 10 12 ≠ [0, 0]) .malformed
  let totalLen ← readU32 (slice input 12 16)
  rejectIf (totalLen ≠ input.length) .malformed
  let ciphertextLen ← readU32 (slice input 144 148)
  rejectIf (ciphertextLen > maxPlaintextLen) .oversized
  rejectIf (frameLen ciphertextLen ≠ totalLen) .malformed
  let ciphertextEnd := headerLen + ciphertextLen
  let tagEnd := ciphertextEnd + tagLen
  let ephemeralPublic ← arrayCopy 32 (slice input 80 112)
  let salt ← arrayCopy 32 (slice input 112 144)
  let tag ← arrayCopy tagLen (slice input ciphertextEnd tagEnd)
  let signature ← arrayCopy signatureLen (slice input tagEnd totalLen)
  let sender ← arrayCopy 16 (slice input 16 32)
  let recipient ← arrayCopy 16 (slice input 32 48)
  let handler ← arrayCopy 16 (slice input 48 64)
  let sessionId ← arrayCopy 16 (slice input 64 80)
  pure {
    messageType
    sender := ⟨sender⟩
    recipient := ⟨recipient⟩
    handler := ⟨handler⟩
    sessionId := ⟨sessionId⟩
    ephemeralPublic
    salt
    ciphertext := slice input headerLen ciphertextEnd
    tag
    signature
    header := slice input 0 headerLen
    signedBytes := slice input 0 tagEnd
  }

theorem arrayCopy_eq_ok {width : Nat} {bytes : Bytes} {array : FixedBytes width}
    (copied : arrayCopy width bytes = .ok array) : array.bytes = bytes := by
  simp only [arrayCopy] at copied
  split at copied
  · rename_i found
    cases copied
    exact FixedBytes.ofSlice?_eq_some found
  · cases copied

@[simp] theorem arrayCopy_bytes {width : Nat} (array : FixedBytes width) :
    arrayCopy width array.bytes = .ok array := by
  simp [arrayCopy]

theorem readU32_eq_ok {bytes : Bytes} {value : Nat} (read : readU32 bytes = .ok value) :
    bytes = beBytes 4 value := by
  obtain ⟨digits, copied, result⟩ := bind_eq_ok.mp read
  cases result
  have canonical := beBytes_beNat digits.bytes
  rw [digits.length_eq] at canonical
  rw [canonical, arrayCopy_eq_ok copied]

theorem readU32_beBytes {value : Nat} (bounded : value < 256 ^ 4) :
    readU32 (beBytes 4 value) = .ok value := by
  have copied := arrayCopy_bytes ⟨beBytes 4 value, beBytes_length 4 value⟩
  rw [readU32, copied, ok_bind, beNat_beBytes 4 bounded]
  rfl

theorem readMessageType_eq_ok {code : UInt8} {messageType : MessageType}
    (read : readMessageType code = .ok messageType) : messageType.toU8 = code := by
  simp only [readMessageType] at read
  split at read
  · rename_i decoded found
    cases read
    revert found
    simp only [MessageType.fromU8]
    split <;> simp <;> rintro rfl <;> rfl
  · cases read

theorem magic_length : magic.length = 8 := by decide

@[simp] theorem EnvelopeHeader.encoded_length (header : EnvelopeHeader) (ciphertextLen : Nat) :
    (header.encoded ciphertextLen).length = headerLen := by
  simp [EnvelopeHeader.encoded, EnvelopeHeader.fields, magic_length, headerLen]

def EnvelopeHeader.frame (header : EnvelopeHeader) (ciphertext : Bytes) (tag : FixedBytes tagLen)
    (signature : FixedBytes signatureLen) : Bytes :=
  header.encoded ciphertext.length ++ ciphertext ++ tag.bytes ++ signature.bytes

theorem parseEnvelope_length {input : Bytes} {envelope : EnvelopeRef}
    (parsed : parseEnvelope input = .ok envelope) :
    headerLen + tagLen + signatureLen ≤ input.length := by
  obtain ⟨long, _⟩ := rejectIf_bind_eq_ok parsed
  exact Nat.not_lt.mp long

theorem parseEnvelope_short {input : Bytes} {envelope : EnvelopeRef}
    (parsed : parseEnvelope input = .ok envelope) : input.length ≤ maxFrameLen := by
  obtain ⟨_, parsed⟩ := rejectIf_bind_eq_ok parsed
  obtain ⟨within, _⟩ := rejectIf_bind_eq_ok parsed
  exact Nat.not_lt.mp within

/-- An accepted frame is the canonical frame of what was read from it. -/
theorem parseEnvelope_eq_ok {input : Bytes} {envelope : EnvelopeRef}
    (parsed : parseEnvelope input = .ok envelope) :
    envelope.header = envelope.toEnvelopeHeader.encoded envelope.ciphertext.length ∧
      envelope.signedBytes = envelope.header ++ envelope.ciphertext ++ envelope.tag.bytes ∧
      input = envelope.signedBytes ++ envelope.signature.bytes ∧
      envelope.ciphertext.length ≤ maxPlaintextLen := by
  have long : 148 + 16 + 64 ≤ input.length := parseEnvelope_length parsed
  obtain ⟨_, parsed⟩ := rejectIf_bind_eq_ok parsed
  obtain ⟨_, parsed⟩ := rejectIf_bind_eq_ok parsed
  obtain ⟨magicRead, parsed⟩ := rejectIf_bind_eq_ok parsed
  obtain ⟨versionRead, parsed⟩ := rejectIf_bind_eq_ok parsed
  obtain ⟨messageType, typeRead, parsed⟩ := bind_eq_ok.mp parsed
  obtain ⟨reservedRead, parsed⟩ := rejectIf_bind_eq_ok parsed
  obtain ⟨totalLen, totalRead, parsed⟩ := bind_eq_ok.mp parsed
  obtain ⟨exactLength, parsed⟩ := rejectIf_bind_eq_ok parsed
  obtain ⟨ciphertextLen, lengthRead, parsed⟩ := bind_eq_ok.mp parsed
  obtain ⟨short, parsed⟩ := rejectIf_bind_eq_ok parsed
  obtain ⟨consistent, parsed⟩ := rejectIf_bind_eq_ok parsed
  obtain ⟨ephemeralPublic, ephemeralRead, parsed⟩ := bind_eq_ok.mp parsed
  obtain ⟨salt, saltRead, parsed⟩ := bind_eq_ok.mp parsed
  obtain ⟨tag, tagRead, parsed⟩ := bind_eq_ok.mp parsed
  obtain ⟨signature, signatureRead, parsed⟩ := bind_eq_ok.mp parsed
  obtain ⟨sender, senderRead, parsed⟩ := bind_eq_ok.mp parsed
  obtain ⟨recipient, recipientRead, parsed⟩ := bind_eq_ok.mp parsed
  obtain ⟨handler, handlerRead, parsed⟩ := bind_eq_ok.mp parsed
  obtain ⟨sessionId, sessionRead, result⟩ := bind_eq_ok.mp parsed
  cases result
  have total : totalLen = input.length := not_not.mp exactLength
  have frame : 148 + ciphertextLen + (16 + 64) = input.length := (not_not.mp consistent).trans total
  have bounded : ciphertextLen ≤ 4096 := Nat.not_lt.mp short
  subst total
  have versionByte : slice input 8 9 = [version] := by
    rw [slice_succ (by omega), not_not.mp versionRead]
  have typeByte : slice input 9 10 = [messageType.toU8] := by
    rw [slice_succ (by omega), readMessageType_eq_ok typeRead]
  have ciphertextSize : (slice input headerLen (headerLen + ciphertextLen)).length =
      ciphertextLen := by
    rw [slice_length_of_le (by simp only [headerLen]; omega)]
    omega
  have header : slice input 0 headerLen = EnvelopeHeader.encoded
      ⟨messageType, ⟨sender⟩, ⟨recipient⟩, ⟨handler⟩, ⟨sessionId⟩, ephemeralPublic, salt⟩
      ciphertextLen := by
    simp only [EnvelopeHeader.encoded, EnvelopeHeader.fields, List.flatten_cons, List.flatten_nil,
      List.append_nil, not_not.mp consistent, ← not_not.mp magicRead, ← versionByte, ← typeByte,
      ← readU32_eq_ok totalRead, ← readU32_eq_ok lengthRead, arrayCopy_eq_ok senderRead,
      arrayCopy_eq_ok recipientRead, arrayCopy_eq_ok handlerRead, arrayCopy_eq_ok sessionRead,
      arrayCopy_eq_ok ephemeralRead, arrayCopy_eq_ok saltRead]
    rw [show beBytes 2 0 = slice input 10 12 from (not_not.mp reservedRead).symm]
    simp (disch := decide) only [slice_append_slice, headerLen]
  refine ⟨?_, ?_, ?_, ?_⟩
  · simp only [ciphertextSize, header]
  · simp only [arrayCopy_eq_ok tagRead]
    rw [slice_append_slice (Nat.zero_le _) (Nat.le_add_right _ _),
      slice_append_slice (Nat.zero_le _) (Nat.le_add_right _ _)]
  · simp only [arrayCopy_eq_ok signatureRead]
    rw [slice_append_slice (Nat.zero_le _) (by simp only [headerLen, tagLen]; omega),
      slice_zero_length]
  · simp only [ciphertextSize]
    exact Nat.not_lt.mp short

/-- The view that parsing a frame gives. -/
def EnvelopeHeader.view (header : EnvelopeHeader) (ciphertext : Bytes) (tag : FixedBytes tagLen)
    (signature : FixedBytes signatureLen) : EnvelopeRef where
  toEnvelopeHeader := header
  ciphertext := ciphertext
  tag := tag
  signature := signature
  header := header.encoded ciphertext.length
  signedBytes := header.encoded ciphertext.length ++ ciphertext ++ tag.bytes

theorem EnvelopeHeader.frame_eq_flatten (header : EnvelopeHeader) (ciphertext : Bytes)
    (tag : FixedBytes tagLen) (signature : FixedBytes signatureLen) :
    header.frame ciphertext tag signature =
      (header.fields ciphertext.length ++ [ciphertext, tag.bytes, signature.bytes]).flatten := by
  simp [EnvelopeHeader.frame, EnvelopeHeader.encoded]

theorem EnvelopeHeader.frame_length (header : EnvelopeHeader) (ciphertext : Bytes)
    (tag : FixedBytes tagLen) (signature : FixedBytes signatureLen) :
    (header.frame ciphertext tag signature).length = frameLen ciphertext.length := by
  simp only [EnvelopeHeader.frame, List.length_append, EnvelopeHeader.encoded_length,
    FixedBytes.length_bytes, frameLen]
  omega

def fieldWidths : List Nat := [8, 1, 1, 2, 4, 16, 16, 16, 16, 32, 32, 4]

theorem EnvelopeHeader.fields_widths (header : EnvelopeHeader) (ciphertextLen : Nat) :
    (header.fields ciphertextLen).map List.length = fieldWidths := by
  simp [EnvelopeHeader.fields, fieldWidths, magic_length]

theorem EnvelopeHeader.slice_frame_header (header : EnvelopeHeader) (ciphertext : Bytes)
    (tag : FixedBytes tagLen) (signature : FixedBytes signatureLen) (index : Nat)
    {start stop : Nat} {part : Bytes} (found : (header.fields ciphertext.length)[index]? = some part)
    (begins : (fieldWidths.take index).sum = start) (ends : start + part.length = stop) :
    slice (header.frame ciphertext tag signature) start stop = part := by
  have inside : index < (header.fields ciphertext.length).length :=
    (List.getElem?_eq_some_iff.mp found).1
  rw [header.frame_eq_flatten]
  refine slice_flatten index ?_ ?_ ends
  · rw [List.getElem?_append_left inside, found]
  · rw [List.take_append_of_le_length inside.le, List.length_flatten, List.map_take,
      header.fields_widths, begins]

theorem EnvelopeHeader.slice_frame_trailer (header : EnvelopeHeader) (ciphertext : Bytes)
    (tag : FixedBytes tagLen) (signature : FixedBytes signatureLen) :
    let input := header.frame ciphertext tag signature
    let tagEnd := headerLen + ciphertext.length + tagLen
    slice input 0 headerLen = header.encoded ciphertext.length ∧
      slice input headerLen (headerLen + ciphertext.length) = ciphertext ∧
      slice input (headerLen + ciphertext.length) tagEnd = tag.bytes ∧
      slice input tagEnd (frameLen ciphertext.length) = signature.bytes := by
  have split : header.frame ciphertext tag signature =
      [header.encoded ciphertext.length, ciphertext, tag.bytes, signature.bytes].flatten := by
    simp [EnvelopeHeader.frame]
  simp only [split]
  refine ⟨slice_flatten 0 rfl rfl ?_, slice_flatten 1 rfl ?_ rfl,
    slice_flatten 2 rfl ?_ ?_, slice_flatten 3 rfl ?_ ?_⟩
  all_goals simp [frameLen]
  all_goals omega

/-- Every well-formed frame is accepted and read back. -/
theorem parseEnvelope_frame (header : EnvelopeHeader) {ciphertext : Bytes}
    (tag : FixedBytes tagLen) (signature : FixedBytes signatureLen)
    (short : ciphertext.length ≤ maxPlaintextLen) :
    parseEnvelope (header.frame ciphertext tag signature) =
      .ok (header.view ciphertext tag signature) := by
  have length := header.frame_length ciphertext tag signature
  have bounded : ciphertext.length ≤ 4096 := short
  have total : frameLen ciphertext.length = 148 + ciphertext.length + (16 + 64) := rfl
  have representable : frameLen ciphertext.length < 256 ^ 4 := by rw [total]; omega
  have representableCiphertext : ciphertext.length < 256 ^ 4 := by omega
  have field := header.slice_frame_header ciphertext tag signature
  obtain ⟨headerRead, ciphertextRead, tagRead, signatureRead⟩ :=
    header.slice_frame_trailer ciphertext tag signature
  generalize header.frame ciphertext tag signature = input at *
  have magicRead : slice input 0 8 = magic := field 0 rfl rfl (by decide)
  have versionRead : slice input 8 9 = [version] := field 1 rfl rfl rfl
  have typeRead : slice input 9 10 = [header.messageType.toU8] := field 2 rfl rfl rfl
  have reservedRead : slice input 10 12 = [0, 0] := field 3 rfl rfl rfl
  have totalRead : slice input 12 16 = beBytes 4 (frameLen ciphertext.length) := field 4 rfl rfl rfl
  have senderRead : slice input 16 32 = header.sender.value.bytes := field 5 rfl rfl (by simp)
  have recipientRead : slice input 32 48 = header.recipient.value.bytes :=
    field 6 rfl rfl (by simp)
  have handlerRead : slice input 48 64 = header.handler.value.bytes := field 7 rfl rfl (by simp)
  have sessionRead : slice input 64 80 = header.sessionId.value.bytes := field 8 rfl rfl (by simp)
  have ephemeralRead : slice input 80 112 = header.ephemeralPublic.bytes :=
    field 9 rfl rfl (by simp)
  have saltRead : slice input 112 144 = header.salt.bytes := field 10 rfl rfl (by simp)
  have lengthRead : slice input 144 148 = beBytes 4 ciphertext.length := field 11 rfl rfl rfl
  have signedRead : slice input 0 (headerLen + ciphertext.length + tagLen) =
      header.encoded ciphertext.length ++ ciphertext ++ tag.bytes := by
    rw [← slice_append_slice (Nat.zero_le (headerLen + ciphertext.length))
      (Nat.le_add_right _ tagLen), tagRead,
      ← slice_append_slice (Nat.zero_le headerLen) (Nat.le_add_right _ ciphertext.length),
      ciphertextRead, headerRead]
  have enough : 148 + 16 + 64 ≤ input.length := by omega
  have atMost : input.length ≤ 148 + 4096 + 16 + 64 := by omega
  have long : ¬ input.length < headerLen + tagLen + signatureLen := Nat.not_lt.mpr enough
  have within : ¬ input.length > maxFrameLen := Nat.not_lt.mpr atMost
  have versionByte := byteAt_of_slice versionRead
  have typeByte := byteAt_of_slice typeRead
  have typed : readMessageType header.messageType.toU8 = .ok header.messageType := by
    rw [readMessageType, MessageType.fromU8_toU8]
  rw [parseEnvelope, rejectIf_pass _ long, ok_bind, rejectIf_pass _ within, ok_bind,
    rejectIf_pass _ (not_not.mpr magicRead), ok_bind, rejectIf_pass _ (not_not.mpr versionByte),
    ok_bind, typeByte, typed, ok_bind, rejectIf_pass _ (not_not.mpr reservedRead), ok_bind, totalRead,
    readU32_beBytes representable, ok_bind, rejectIf_pass _ (not_not.mpr length.symm), ok_bind,
    lengthRead, readU32_beBytes representableCiphertext, ok_bind,
    rejectIf_pass _ (Nat.not_lt.mpr short), ok_bind, rejectIf_pass _ (not_not.mpr rfl), ok_bind]
  simp only [ephemeralRead, saltRead, tagRead, signatureRead, senderRead, recipientRead, handlerRead,
    sessionRead, arrayCopy_bytes, ok_bind, ciphertextRead, headerRead, signedRead]
  rfl

/-- The signed transcript of an accepted frame fixes everything read from it but the signature. -/
theorem parseEnvelope_of_signedBytes {input : Bytes} {envelope : EnvelopeRef}
    {header : EnvelopeHeader} {ciphertext : Bytes} {tag : FixedBytes tagLen}
    (parsed : parseEnvelope input = .ok envelope)
    (signed : envelope.signedBytes = header.encoded ciphertext.length ++ ciphertext ++ tag.bytes)
    (short : ciphertext.length ≤ maxPlaintextLen) :
    envelope = header.view ciphertext tag envelope.signature := by
  obtain ⟨_, _, whole, _⟩ := parseEnvelope_eq_ok parsed
  have frame : input = header.frame ciphertext tag envelope.signature := by
    rw [whole, signed]
    rfl
  rw [frame, parseEnvelope_frame header tag envelope.signature short] at parsed
  exact (Except.ok.inj parsed).symm

theorem encodeHeader_eq_ok {outputLen ciphertextLen totalLen : Nat} {header : EnvelopeHeader}
    {bytes : Bytes} :
    encodeHeader outputLen header ciphertextLen = .ok (bytes, totalLen) ↔
      ciphertextLen ≤ maxPlaintextLen ∧ headerLen ≤ outputLen ∧
        bytes = header.encoded ciphertextLen ∧ totalLen = frameLen ciphertextLen := by
  constructor
  · intro encoded
    obtain ⟨short, encoded⟩ := rejectIf_bind_eq_ok encoded
    obtain ⟨fits, result⟩ := rejectIf_bind_eq_ok encoded
    cases result
    exact ⟨Nat.not_lt.mp short, Nat.not_lt.mp (fun small => fits (.inl small)), rfl, rfl⟩
  · intro ⟨short, room, sameBytes, sameLength⟩
    have bounded : ciphertextLen ≤ 4096 := short
    have within : ¬ (outputLen < headerLen ∨ frameLen ciphertextLen > maxFrameLen) := by
      simp only [frameLen, maxFrameLen, headerLen, maxPlaintextLen, tagLen, signatureLen] at room ⊢
      omega
    rw [encodeHeader, rejectIf_pass _ (Nat.not_lt.mpr short), ok_bind, sameBytes, sameLength]
    exact congrArg (· >>= fun _ => _) (rejectIf_pass _ within)

end SecurePubSub.Protocol
