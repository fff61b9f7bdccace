import SecurePubSub.Protocol.Crypto

namespace SecurePubSub.Protocol

open SecurePubSub.Data SecurePubSub.Data.Fallible

/-! The inputs of key derivation do not collide.

The context has one part of variable length, the domain, and the label follows
without a delimiter. The byte of the message type stands at a fixed place before
the domain and determines it, so everything after it can be split off again.
-/

/-- The `info` string of one derivation. -/
def EnvelopeHeader.info (header : EnvelopeHeader) (label : Bytes) : Bytes := header.context ++ label

theorem MessageType.toU8_injective : Function.Injective MessageType.toU8 := by
  intro left right same
  have read := MessageType.fromU8_toU8 left
  rw [same, MessageType.fromU8_toU8] at read
  exact (Option.some.inj read).symm

/-- The parts of an `info` string from the message type on. -/
theorem EnvelopeHeader.info_eq (header : EnvelopeHeader) (label : Bytes) :
    header.info label = (protocolId ++ [version]) ++
      ([header.messageType.direction, header.messageType.toU8] ++
        (header.messageType.domain ++ (header.sender.value.bytes ++
          (header.recipient.value.bytes ++ (header.ephemeralPublic.bytes ++
            (header.sessionId.value.bytes ++ label)))))) := by
  simp only [info, context, List.append_assoc]

theorem fixed_append_inj {width : Nat} {left right : FixedBytes width} {rest other : Bytes}
    (same : left.bytes ++ rest = right.bytes ++ other) : left = right ∧ rest = other := by
  have widths : left.bytes.length = right.bytes.length := by simp
  obtain ⟨bytes, later⟩ := List.append_inj same widths
  exact ⟨FixedBytes.ext bytes, later⟩

/-- Every field that enters a derivation, and its label, can be read back from the string. -/
theorem EnvelopeHeader.info_injective {header other : EnvelopeHeader} {label otherLabel : Bytes}
    (same : header.info label = other.info otherLabel) :
    header.messageType = other.messageType ∧ header.sender = other.sender ∧
      header.recipient = other.recipient ∧ header.ephemeralPublic = other.ephemeralPublic ∧
      header.sessionId = other.sessionId ∧ label = otherLabel := by
  rw [header.info_eq, other.info_eq] at same
  have afterVersion := List.append_cancel_left same
  obtain ⟨bytes, afterType⟩ := List.append_inj afterVersion rfl
  have messageType : header.messageType = other.messageType := by
    apply MessageType.toU8_injective
    simpa using (List.cons.inj bytes).2
  rw [messageType] at afterType
  have afterDomain := List.append_cancel_left afterType
  obtain ⟨sender, afterSender⟩ := fixed_append_inj afterDomain
  obtain ⟨recipient, afterRecipient⟩ := fixed_append_inj afterSender
  obtain ⟨ephemeralPublic, afterEphemeral⟩ := fixed_append_inj afterRecipient
  obtain ⟨sessionId, labels⟩ := fixed_append_inj afterEphemeral
  exact ⟨messageType, congrArg AgentId.mk sender, congrArg AgentId.mk recipient, ephemeralPublic,
    congrArg SessionId.mk sessionId, labels⟩

theorem EnvelopeHeader.info_congr {header other : EnvelopeHeader} (label : Bytes)
    (messageType : header.messageType = other.messageType) (sender : header.sender = other.sender)
    (recipient : header.recipient = other.recipient)
    (ephemeralPublic : header.ephemeralPublic = other.ephemeralPublic)
    (sessionId : header.sessionId = other.sessionId) : header.info label = other.info label := by
  rw [header.info_eq, other.info_eq, messageType, sender, recipient, ephemeralPublic, sessionId]

theorem labels_ne : aeadKeyLabel ≠ aeadNonceLabel := by decide

/-! ## The strings fit and are the ones that are expanded -/

namespace CryptoSuite

variable {suite : CryptoSuite}

theorem info_length_le (header : EnvelopeHeader) {label : Bytes} (short : label.length ≤ 32) :
    (header.info label).length ≤ 160 := by
  have context := context_length_le header
  rw [EnvelopeHeader.info, List.length_append]
  omega

theorem deriveKeyNonce_eq_ok {shared key : Key32} {nonce : FixedBytes 12}
    {header : EnvelopeHeader} : suite.deriveKeyNonce shared header = .ok (key, nonce) ↔
      suite.hkdfExpand header.salt shared (header.info aeadKeyLabel) 32 = some key ∧
        suite.hkdfExpand header.salt shared (header.info aeadNonceLabel) 12 = some nonce := by
  rw [EnvelopeHeader.info, EnvelopeHeader.info, ← expandLabel_eq_ok keyLabel_short,
    ← expandLabel_eq_ok nonceLabel_short, deriveKeyNonce, deriveContext_eq, ok_bind, bind_eq_ok]
  constructor
  · rintro ⟨found, keyExpanded, later⟩
    obtain ⟨other, nonceExpanded, result⟩ := bind_eq_ok.mp later
    cases result
    exact ⟨keyExpanded, nonceExpanded⟩
  · rintro ⟨keyExpanded, nonceExpanded⟩
    refine ⟨key, keyExpanded, ?_⟩
    rw [nonceExpanded]
    rfl

theorem deriveKeyNonce_error {shared : Key32} {header : EnvelopeHeader} :
    (∃ error, suite.deriveKeyNonce shared header = .error error) ↔
      suite.hkdfExpand header.salt shared (header.info aeadKeyLabel) 32 = none ∨
        suite.hkdfExpand header.salt shared (header.info aeadNonceLabel) 12 = none := by
  cases derived : suite.deriveKeyNonce shared header with
  | ok pair =>
      obtain ⟨key, nonce⟩ := pair
      obtain ⟨keyExpanded, nonceExpanded⟩ := deriveKeyNonce_eq_ok.mp derived
      simp [keyExpanded, nonceExpanded]
  | error error =>
      simp only [Except.error.injEq, exists_eq', true_iff]
      by_contra both
      rw [not_or] at both
      obtain ⟨key, keyExpanded⟩ := Option.ne_none_iff_exists'.mp both.1
      obtain ⟨nonce, nonceExpanded⟩ := Option.ne_none_iff_exists'.mp both.2
      have succeeded := deriveKeyNonce_eq_ok.mpr ⟨keyExpanded, nonceExpanded⟩
      rw [derived] at succeeded
      cases succeeded

/-- The strings of all derivations are distinct unless they are for the same purpose of the same
message, they fit their buffers, and they are what a derivation expands and all it depends on. -/
theorem derivation_inputs_separate :
    (∀ (header other : EnvelopeHeader) (label otherLabel : Bytes),
      header.info label = other.info otherLabel ↔
        header.messageType = other.messageType ∧ header.sender = other.sender ∧
          header.recipient = other.recipient ∧
          header.ephemeralPublic = other.ephemeralPublic ∧
          header.sessionId = other.sessionId ∧ label = otherLabel) ∧
    (∀ header other : EnvelopeHeader, header.info aeadKeyLabel ≠ other.info aeadNonceLabel) ∧
    (∀ header : EnvelopeHeader, deriveContext header = .ok header.context ∧
      header.context.length ≤ 128 ∧ (header.info aeadKeyLabel).length ≤ 160 ∧
      (header.info aeadNonceLabel).length ≤ 160) ∧
    ∀ (suite : CryptoSuite) (shared : Key32) (header : EnvelopeHeader),
      (∀ key nonce, suite.deriveKeyNonce shared header = .ok (key, nonce) ↔
        suite.hkdfExpand header.salt shared (header.info aeadKeyLabel) 32 = some key ∧
          suite.hkdfExpand header.salt shared (header.info aeadNonceLabel) 12 = some nonce) ∧
      ((∃ error, suite.deriveKeyNonce shared header = .error error) ↔
        suite.hkdfExpand header.salt shared (header.info aeadKeyLabel) 32 = none ∨
          suite.hkdfExpand header.salt shared (header.info aeadNonceLabel) 12 = none) := by
  refine ⟨?_, ?_, ?_, ?_⟩
  · intro header other label otherLabel
    constructor
    · exact EnvelopeHeader.info_injective
    · rintro ⟨messageType, sender, recipient, ephemeralPublic, sessionId, rfl⟩
      exact EnvelopeHeader.info_congr label messageType sender recipient ephemeralPublic sessionId
  · intro header other same
    obtain ⟨_, _, _, _, _, labels⟩ := EnvelopeHeader.info_injective same
    exact labels_ne labels
  · intro header
    exact ⟨deriveContext_eq header, context_length_le header,
      info_length_le header keyLabel_short, info_length_le header nonceLabel_short⟩
  · intro suite shared header
    exact ⟨fun key nonce => deriveKeyNonce_eq_ok, deriveKeyNonce_error⟩

end CryptoSuite

end SecurePubSub.Protocol
