import SecurePubSub.Protocol.Crypto
import Mathlib.Data.Set.Insert

namespace SecurePubSub.Protocol

open SecurePubSub.Data SecurePubSub.Data.Fallible

/-! Sealing and opening agree, and nothing else opens. -/

namespace CryptoSuite

variable {suite : CryptoSuite}

/-- A signature verifies exactly for the messages and signatures that the owner of the key
produced. -/
def VerifiesOnly (suite : CryptoSuite) (verifyingKey : Key32)
    (produced : Set (Bytes × FixedBytes signatureLen)) : Prop :=
  ∀ message signature,
    suite.verifyStrict verifyingKey message signature = true ↔ (message, signature) ∈ produced

theorem openInPlace_error {frame : Bytes} {expectedRecipient : AgentId}
    {expectedType : MessageType} {senderVerifyingKey recipientSecret : Key32}
    (rejected : ∀ plaintext, suite.openInPlace frame expectedRecipient expectedType
      senderVerifyingKey recipientSecret ≠ .ok plaintext) :
    ∃ error, suite.openInPlace frame expectedRecipient expectedType senderVerifyingKey
      recipientSecret = .error error := by
  cases opened : suite.openInPlace frame expectedRecipient expectedType senderVerifyingKey
      recipientSecret with
  | error error => exact ⟨error, rfl⟩
  | ok plaintext => exact absurd opened (rejected plaintext)

/-- What opens is a transcript and a signature that verify, one behind the other. -/
theorem openInPlace_verified {frame plaintext : Bytes} {expectedRecipient : AgentId}
    {expectedType : MessageType} {senderVerifyingKey recipientSecret : Key32}
    (opened : suite.openInPlace frame expectedRecipient expectedType senderVerifyingKey
      recipientSecret = .ok plaintext) :
    ∃ message signature, suite.verifyStrict senderVerifyingKey message signature = true ∧
      frame = message ++ signature.bytes := by
  obtain ⟨envelope, _, _, _, parsed, _, _, verified, _⟩ := openInPlace_eq_ok opened
  obtain ⟨_, _, whole, _⟩ := parseEnvelope_eq_ok parsed
  exact ⟨envelope.signedBytes, envelope.signature, verified, whole⟩

/-- Nothing but the one signed message opens. -/
theorem openInPlace_only {senderVerifyingKey : Key32} {message input : Bytes}
    {signature : FixedBytes signatureLen}
    (only : suite.VerifiesOnly senderVerifyingKey {(message, signature)})
    (other : input ≠ message ++ signature.bytes) (expectedRecipient : AgentId)
    (expectedType : MessageType) (recipientSecret : Key32) :
    ∃ error, suite.openInPlace input expectedRecipient expectedType senderVerifyingKey
      recipientSecret = .error error := by
  apply openInPlace_error
  intro plaintext opened
  obtain ⟨found, foundSignature, verified, whole⟩ := openInPlace_verified opened
  have produced := (only found foundSignature).mp verified
  have same := Prod.mk.inj (Set.mem_singleton_iff.mp produced)
  exact other (by rw [whole, same.1, same.2])

/-- A frame opens only for the recipient and the type in its header. -/
theorem openInPlace_addressed {header : EnvelopeHeader} {ciphertext : Bytes}
    {tag : FixedBytes tagLen} {signature : FixedBytes signatureLen}
    (short : ciphertext.length ≤ maxPlaintextLen) {expectedRecipient : AgentId}
    {expectedType : MessageType}
    (different : expectedRecipient ≠ header.recipient ∨ expectedType ≠ header.messageType)
    (senderVerifyingKey recipientSecret : Key32) :
    ∃ error, suite.openInPlace (header.frame ciphertext tag signature) expectedRecipient
      expectedType senderVerifyingKey recipientSecret = .error error := by
  apply openInPlace_error
  intro plaintext opened
  obtain ⟨envelope, _, _, _, parsed, recipient, messageType, _⟩ := openInPlace_eq_ok opened
  rw [parseEnvelope_frame header tag signature short] at parsed
  cases parsed
  cases different with
  | inl otherRecipient => exact otherRecipient recipient.symm
  | inr otherType => exact otherType messageType.symm

section

variable {plaintext : Bytes} {messageType : MessageType} {sender recipient : AgentId}
  {handler : HandlerId} {sessionId : SessionId}
  {salt ephemeralSecret recipientSecret signingKey : Key32} {outputLen : Nat}

/-- The sealed frame opens to its plaintext for its recipient and type, for no other recipient
or type, and if it is all that was ever signed, nothing else opens. -/
theorem seal_open_agree (total : suite.Total)
    (symmetric : suite.diffieHellman recipientSecret (suite.x25519Public ephemeralSecret) =
      suite.diffieHellman ephemeralSecret (suite.x25519Public recipientSecret))
    (contributes : suite.diffieHellman ephemeralSecret (suite.x25519Public recipientSecret) ≠
      zeroSecret)
    (decrypts : ∀ {key nonce associated plaintext ciphertext tag},
      suite.encryptDetached key nonce associated plaintext = some (ciphertext, tag) →
        suite.decryptDetached key nonce associated ciphertext tag = some plaintext)
    (short : plaintext.length ≤ maxPlaintextLen) (room : frameLen plaintext.length ≤ outputLen) :
    ∃ frame signed,
      suite.sealInPlace outputLen plaintext messageType sender recipient handler sessionId salt
        ephemeralSecret (suite.x25519Public recipientSecret) signingKey = .ok frame ∧
      frame = signed ++ (suite.sign signingKey signed).bytes ∧
      frame.length = frameLen plaintext.length ∧
      ∀ senderVerifyingKey produced, suite.VerifiesOnly senderVerifyingKey produced →
        (signed, suite.sign signingKey signed) ∈ produced →
        suite.openInPlace frame recipient messageType senderVerifyingKey recipientSecret =
          .ok plaintext ∧
        (∀ expectedRecipient expectedType anySecret,
          expectedRecipient ≠ recipient ∨ expectedType ≠ messageType →
          ∃ error, suite.openInPlace frame expectedRecipient expectedType senderVerifyingKey
            anySecret = .error error) ∧
        (produced = {(signed, suite.sign signingKey signed)} →
          ∀ input, input ≠ frame → ∀ expectedRecipient expectedType anySecret,
            ∃ error, suite.openInPlace input expectedRecipient expectedType senderVerifyingKey
              anySecret = .error error) := by
  obtain ⟨frame, written⟩ := @sealInPlace_ok suite total outputLen plaintext messageType sender
    recipient handler sessionId salt ephemeralSecret (suite.x25519Public recipientSecret)
    signingKey short room contributes
  obtain ⟨header, ciphertext, tag, fields, message, whole⟩ := sealInPlace_eq_ok written
  have shortCiphertext : ciphertext.length ≤ maxPlaintextLen := message.length_eq ▸ message.short
  have parsed := parseEnvelope_frame header tag (suite.sign signingKey
    (header.encoded ciphertext.length ++ ciphertext ++ tag.bytes)) shortCiphertext
  rw [← whole] at parsed
  have recipientEq : header.recipient = recipient := by rw [fields]
  have typeEq : header.messageType = messageType := by rw [fields]
  refine ⟨frame, header.encoded ciphertext.length ++ ciphertext ++ tag.bytes, written, whole, ?_, ?_⟩
  · rw [whole, EnvelopeHeader.frame_length, message.length_eq]
  · intro senderVerifyingKey produced only inProduced
    have verified := (only _ _).mpr inProduced
    refine ⟨?_, ?_, ?_⟩
    · rw [← recipientEq, ← typeEq]
      exact message.opens_of symmetric decrypts parsed rfl verified
    · intro expectedRecipient expectedType anySecret different
      rw [whole]
      rw [← recipientEq, ← typeEq] at different
      exact openInPlace_addressed shortCiphertext different _ _
    · intro single input other expectedRecipient expectedType anySecret
      rw [single] at only
      exact openInPlace_only only (fun same => other (same.trans whole.symm)) _ _ _

end

def sampleFields : EnvelopeHeader where
  messageType := .publish
  sender := ⟨.fill 16 1⟩
  recipient := .ca
  handler := .none
  sessionId := ⟨.fill 16 7⟩
  ephemeralPublic := transparent.x25519Public (.fill 32 3)
  salt := .fill 32 4

def sampleTranscript : Bytes := sampleFields.encoded 1 ++ [42] ++ (FixedBytes.fill tagLen 0).bytes

/-- The transparent suite after its signer signed one message. -/
def signedOnce : CryptoSuite :=
  { transparent with
    verifyStrict := fun _ message signature =>
      decide (message = sampleTranscript ∧
        signature = transparent.sign (.fill 32 5) sampleTranscript) }

theorem signedOnce_only : signedOnce.VerifiesOnly (.fill 32 5)
    {(sampleTranscript, signedOnce.sign (.fill 32 5) sampleTranscript)} := by
  intro message signature
  rw [Set.mem_singleton_iff, Prod.mk.injEq]
  exact decide_eq_true_iff

theorem sample_seal_open_agree :
    ∃ frame, signedOnce.sealInPlace 229 [42] .publish ⟨.fill 16 1⟩ .ca .none ⟨.fill 16 7⟩
        (.fill 32 4) (.fill 32 3) (signedOnce.x25519Public (.fill 32 6)) (.fill 32 5) = .ok frame ∧
      signedOnce.openInPlace frame .ca .publish (.fill 32 5) (.fill 32 6) = .ok [42] ∧
      ∀ input, input ≠ frame → ∀ expectedRecipient expectedType anySecret,
        ∃ error, signedOnce.openInPlace input expectedRecipient expectedType (.fill 32 5)
          anySecret = .error error := by
  obtain ⟨frame, signed, written, whole, length, rest⟩ :=
    @seal_open_agree signedOnce [42] .publish ⟨.fill 16 1⟩ .ca .none ⟨.fill 16 7⟩ (.fill 32 4)
      (.fill 32 3) (.fill 32 6) (.fill 32 5) 229 ⟨fun _ _ _ _ _ => rfl, fun _ _ _ _ _ => rfl⟩
      (by decide +kernel) (by decide +kernel) (fun encrypted => by cases encrypted; rfl)
      (by decide) (by decide)
  have computed : signedOnce.sealInPlace 229 [42] .publish ⟨.fill 16 1⟩ .ca .none ⟨.fill 16 7⟩
      (.fill 32 4) (.fill 32 3) (signedOnce.x25519Public (.fill 32 6)) (.fill 32 5) =
        .ok (sampleTranscript ++ (signedOnce.sign (.fill 32 5) sampleTranscript).bytes) := by
    decide +kernel
  have same : signed = sampleTranscript := by
    rw [computed] at written
    have equal := (Except.ok.inj written).trans whole
    exact (List.append_inj' equal (by rw [FixedBytes.length_bytes, FixedBytes.length_bytes])).1.symm
  rw [same] at rest
  obtain ⟨opens, _, nothingElse⟩ := rest _ _ signedOnce_only rfl
  exact ⟨frame, written, opens, nothingElse rfl⟩

end CryptoSuite

end SecurePubSub.Protocol
