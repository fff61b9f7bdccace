import SecurePubSub.Protocol.Envelope

namespace SecurePubSub.Protocol

open SecurePubSub.Data SecurePubSub.Data.Fallible

/-! The authenticated hybrid construction over its cryptographic primitives.

The primitives come from other packages and are a parameter of everything that
seals or opens. A secret is the byte array it is loaded from.
-/

/-- The primitives that the construction calls. -/
structure CryptoSuite where
  /-- Ed25519 public key of a signing seed. -/
  verifyingKey : Key32 → Key32
  /-- Whether the bytes of a public key decode to a verifying key. -/
  decodesKey : Key32 → Bool
  sign : Key32 → Bytes → FixedBytes signatureLen
  verifyStrict : Key32 → Bytes → FixedBytes signatureLen → Bool
  x25519Public : Key32 → Key32
  diffieHellman : Key32 → Key32 → Key32
  /-- HKDF-SHA256: salt, input key material, info and output length. -/
  hkdfExpand : Key32 → Key32 → Bytes → (length : Nat) → Option (FixedBytes length)
  /-- Key, nonce, associated data and plaintext to ciphertext and tag. -/
  encryptDetached : Key32 → FixedBytes 12 → Bytes → Bytes → Option (Bytes × FixedBytes tagLen)
  decryptDetached : Key32 → FixedBytes 12 → Bytes → Bytes → FixedBytes tagLen → Option Bytes
  /-- Encryption happens in place, so it keeps the length. -/
  encrypt_length : ∀ {key nonce associated plaintext ciphertext tag},
    encryptDetached key nonce associated plaintext = some (ciphertext, tag) →
      ciphertext.length = plaintext.length

/-- An initialized random generator with states of type `ρ`. -/
structure CryptoRandom (ρ : Type) where
  fillBytes : (length : Nat) → ρ → FixedBytes length × ρ

def zeroSecret : Key32 := .fill 32 0

def aeadKeyLabel : Bytes := asBytes "aead-key/chacha20poly1305"

def aeadNonceLabel : Bytes := asBytes "aead-nonce/one-message"

def append (capacity : Nat) (output input : Bytes) : Except Error Bytes :=
  if output.length + input.length ≤ capacity then .ok (output ++ input) else .error .cryptoFailure

/-- The context that both derivations of a message share. -/
def EnvelopeHeader.context (header : EnvelopeHeader) : Bytes :=
  protocolId ++ [version] ++ [header.messageType.direction, header.messageType.toU8] ++
    header.messageType.domain ++ header.sender.value.bytes ++ header.recipient.value.bytes ++
    header.ephemeralPublic.bytes ++ header.sessionId.value.bytes

namespace CryptoSuite

variable (suite : CryptoSuite)

def agree (secret peer : Key32) : Except Error Key32 := do
  let shared := suite.diffieHellman secret peer
  rejectIf (shared = zeroSecret) .cryptoFailure
  pure shared

def expandLabel (salt shared : Key32) (context label : Bytes) (length : Nat) :
    Except Error (FixedBytes length) := do
  let info ← append 160 [] context
  let info ← append 160 info label
  match suite.hkdfExpand salt shared info length with
  | some output => .ok output
  | none => .error .cryptoFailure

def deriveContext (header : EnvelopeHeader) : Except Error Bytes := do
  let context ← append 128 [] protocolId
  let context ← append 128 context [version]
  let context ← append 128 context [header.messageType.direction, header.messageType.toU8]
  let context ← append 128 context header.messageType.domain
  let context ← append 128 context header.sender.value.bytes
  let context ← append 128 context header.recipient.value.bytes
  let context ← append 128 context header.ephemeralPublic.bytes
  append 128 context header.sessionId.value.bytes

def deriveKeyNonce (shared : Key32) (header : EnvelopeHeader) :
    Except Error (Key32 × FixedBytes 12) := do
  let context ← deriveContext header
  let key ← suite.expandLabel header.salt shared context aeadKeyLabel 32
  let nonce ← suite.expandLabel header.salt shared context aeadNonceLabel 12
  pure (key, nonce)

/-- The sealed frame at the front of an output buffer of `outputLen` bytes. -/
def sealInPlace (outputLen : Nat) (plaintext : Bytes) (messageType : MessageType)
    (sender recipient : AgentId) (handler : HandlerId) (sessionId : SessionId) (salt : Key32)
    (ephemeralSecret recipientX25519 signingKey : Key32) : Except Error Bytes := do
  let ephemeralPublic := suite.x25519Public ephemeralSecret
  let fields : EnvelopeHeader :=
    { messageType, sender, recipient, handler, sessionId, ephemeralPublic, salt }
  let (header, totalLen) ← encodeHeader outputLen fields plaintext.length
  rejectIf (outputLen < totalLen) .oversized
  let shared ← suite.agree ephemeralSecret recipientX25519
  let (key, nonce) ← suite.deriveKeyNonce shared fields
  match suite.encryptDetached key nonce header plaintext with
  | none => .error .cryptoFailure
  | some (ciphertext, tag) => do
      let signed := header ++ ciphertext ++ tag.bytes
      let signature := suite.sign signingKey signed
      pure (signed ++ signature.bytes)

def verifyEnvelopeSignature (envelope : EnvelopeRef) (verifyingKey : Key32) : Except Error Unit :=
  rejectIf (suite.verifyStrict verifyingKey envelope.signedBytes envelope.signature = false)
    .badSignature

def openInPlace (frame : Bytes) (expectedRecipient : AgentId) (expectedType : MessageType)
    (senderVerifyingKey recipientSecret : Key32) : Except Error Bytes := do
  let envelope ← parseEnvelope frame
  rejectIf (envelope.recipient ≠ expectedRecipient) .wrongRecipient
  rejectIf (envelope.messageType ≠ expectedType) .wrongMessageType
  suite.verifyEnvelopeSignature envelope senderVerifyingKey
  let shared ← suite.agree recipientSecret envelope.ephemeralPublic
  let (key, nonce) ← suite.deriveKeyNonce shared envelope.toEnvelopeHeader
  match suite.decryptDetached key nonce envelope.header envelope.ciphertext envelope.tag with
  | none => .error .cryptoFailure
  | some plaintext => .ok plaintext

/-! ## What sealing and opening establish -/

/-- A ciphertext and tag that sealing `plaintext` under `header` produced. -/
structure Sealed (header : EnvelopeHeader) (ephemeralSecret recipientX25519 : Key32)
    (plaintext ciphertext : Bytes) (tag : FixedBytes tagLen) : Prop where
  ephemeral : header.ephemeralPublic = suite.x25519Public ephemeralSecret
  length_eq : ciphertext.length = plaintext.length
  short : plaintext.length ≤ maxPlaintextLen
  encrypted : ∃ shared key nonce, suite.agree ephemeralSecret recipientX25519 = .ok shared ∧
    suite.deriveKeyNonce shared header = .ok (key, nonce) ∧
    suite.encryptDetached key nonce (header.encoded ciphertext.length) plaintext =
      some (ciphertext, tag)

/-- Documented properties of the primitives that make sealed messages readable and signatures
verify. -/
structure Correct : Prop where
  agreement : ∀ left right, suite.diffieHellman left (suite.x25519Public right) =
    suite.diffieHellman right (suite.x25519Public left)
  decryption : ∀ {key nonce associated plaintext ciphertext tag},
    suite.encryptDetached key nonce associated plaintext = some (ciphertext, tag) →
      suite.decryptDetached key nonce associated ciphertext tag = some plaintext
  decoding : ∀ seed, suite.decodesKey (suite.verifyingKey seed) = true
  verification : ∀ seed message,
    suite.verifyStrict (suite.verifyingKey seed) message (suite.sign seed message) = true

/-- Documented input ranges in which key derivation and encryption do not fail. -/
structure Total : Prop where
  expands : ∀ salt shared info length, length ≤ 255 * 32 →
    (suite.hkdfExpand salt shared info length).isSome
  encrypts : ∀ key nonce associated plaintext, plaintext.length ≤ 2 ^ 38 - 64 →
    (suite.encryptDetached key nonce associated plaintext).isSome

/-- A public key with which every agreement yields the all-zero secret. -/
def LowOrder (key : Key32) : Prop := ∀ secret, suite.diffieHellman secret key = zeroSecret

/-- Whether an agreement contributes depends on the public key only, as clamping ensures. -/
def OrderDecides : Prop :=
  ∀ key, suite.LowOrder key ∨ ∀ secret, suite.diffieHellman secret key ≠ zeroSecret

variable {suite}

theorem agree_eq_ok {secret peer shared : Key32} :
    suite.agree secret peer = .ok shared ↔
      suite.diffieHellman secret peer = shared ∧ shared ≠ zeroSecret := by
  by_cases zero : suite.diffieHellman secret peer = zeroSecret
  · have failed : suite.agree secret peer = .error .cryptoFailure := by
      rw [agree, rejectIf_fail _ zero, error_bind]
    rw [failed]
    simp only [reduceCtorEq, false_iff, not_and, not_not]
    exact fun same => same ▸ zero
  · have agreed : suite.agree secret peer = .ok (suite.diffieHellman secret peer) := by
      rw [agree, rejectIf_pass _ zero, ok_bind]
      rfl
    rw [agreed]
    simp only [Except.ok.injEq]
    exact ⟨fun same => ⟨same, same ▸ zero⟩, fun both => both.1⟩

theorem sealInPlace_eq_ok {outputLen : Nat} {plaintext : Bytes} {messageType : MessageType}
    {sender recipient : AgentId} {handler : HandlerId} {sessionId : SessionId} {salt : Key32}
    {ephemeralSecret recipientX25519 signingKey : Key32} {frame : Bytes}
    (written : suite.sealInPlace outputLen plaintext messageType sender recipient handler sessionId
      salt ephemeralSecret recipientX25519 signingKey = .ok frame) :
    ∃ header ciphertext tag, header = EnvelopeHeader.mk messageType sender recipient handler
        sessionId (suite.x25519Public ephemeralSecret) salt ∧
      suite.Sealed header ephemeralSecret recipientX25519 plaintext ciphertext tag ∧
      frame = header.frame ciphertext tag
        (suite.sign signingKey (header.encoded ciphertext.length ++ ciphertext ++ tag.bytes)) := by
  obtain ⟨⟨header, totalLen⟩, encoded, written⟩ := bind_eq_ok.mp written
  obtain ⟨short, _, headerEq, _⟩ := encodeHeader_eq_ok.mp encoded
  obtain ⟨_, written⟩ := rejectIf_bind_eq_ok written
  obtain ⟨shared, agreed, written⟩ := bind_eq_ok.mp written
  obtain ⟨⟨key, nonce⟩, derived, written⟩ := bind_eq_ok.mp written
  simp only at written
  split at written
  · cases written
  · rename_i ciphertext tag encrypted
    cases written
    have length := suite.encrypt_length encrypted
    subst headerEq
    rw [← length] at encrypted
    refine ⟨_, ciphertext, tag, rfl, ⟨rfl, length, short, shared, key, nonce, agreed, derived,
      encrypted⟩, ?_⟩
    rw [EnvelopeHeader.frame, length]

theorem verifyEnvelopeSignature_eq_ok {envelope : EnvelopeRef} {verifyingKey : Key32} :
    suite.verifyEnvelopeSignature envelope verifyingKey = .ok () ↔
      suite.verifyStrict verifyingKey envelope.signedBytes envelope.signature = true := by
  rw [verifyEnvelopeSignature, rejectIf_eq_ok, Bool.not_eq_false]

theorem openInPlace_eq_ok {frame plaintext : Bytes} {expectedRecipient : AgentId}
    {expectedType : MessageType} {senderVerifyingKey recipientSecret : Key32}
    (opened : suite.openInPlace frame expectedRecipient expectedType senderVerifyingKey
      recipientSecret = .ok plaintext) :
    ∃ envelope shared key nonce, parseEnvelope frame = .ok envelope ∧
      envelope.recipient = expectedRecipient ∧ envelope.messageType = expectedType ∧
      suite.verifyStrict senderVerifyingKey envelope.signedBytes envelope.signature = true ∧
      suite.agree recipientSecret envelope.ephemeralPublic = .ok shared ∧
      suite.deriveKeyNonce shared envelope.toEnvelopeHeader = .ok (key, nonce) ∧
      suite.decryptDetached key nonce envelope.header envelope.ciphertext envelope.tag =
        some plaintext := by
  obtain ⟨envelope, parsed, opened⟩ := bind_eq_ok.mp opened
  obtain ⟨recipient, opened⟩ := rejectIf_bind_eq_ok opened
  obtain ⟨messageType, opened⟩ := rejectIf_bind_eq_ok opened
  obtain ⟨⟨⟩, verified, opened⟩ := bind_eq_ok.mp opened
  obtain ⟨shared, agreed, opened⟩ := bind_eq_ok.mp opened
  obtain ⟨⟨key, nonce⟩, derived, opened⟩ := bind_eq_ok.mp opened
  simp only at opened
  split at opened
  · cases opened
  · rename_i found decrypted
    cases opened
    exact ⟨envelope, shared, key, nonce, parsed, not_not.mp recipient, not_not.mp messageType,
      verifyEnvelopeSignature_eq_ok.mp verified, agreed, derived, decrypted⟩

/-- What opening needs of the recipient's agreement and of decryption for the keys in use. -/
theorem Sealed.opens_of {header : EnvelopeHeader} {ephemeralSecret recipientX25519 : Key32}
    {recipientSecret : Key32} {plaintext ciphertext : Bytes} {tag : FixedBytes tagLen}
    {frame : Bytes} {envelope : EnvelopeRef} {senderVerifyingKey : Key32}
    (message : suite.Sealed header ephemeralSecret recipientX25519 plaintext ciphertext tag)
    (symmetric : suite.diffieHellman recipientSecret (suite.x25519Public ephemeralSecret) =
      suite.diffieHellman ephemeralSecret recipientX25519)
    (decrypts : ∀ {key nonce associated plaintext ciphertext tag},
      suite.encryptDetached key nonce associated plaintext = some (ciphertext, tag) →
        suite.decryptDetached key nonce associated ciphertext tag = some plaintext)
    (parsed : parseEnvelope frame = .ok envelope)
    (transcript : envelope.signedBytes =
      header.encoded ciphertext.length ++ ciphertext ++ tag.bytes)
    (verified : suite.verifyStrict senderVerifyingKey envelope.signedBytes envelope.signature = true) :
    suite.openInPlace frame header.recipient header.messageType senderVerifyingKey recipientSecret =
      .ok plaintext := by
  obtain ⟨shared, key, nonce, agreed, derived, encrypted⟩ := message.encrypted
  have short : ciphertext.length ≤ maxPlaintextLen := message.length_eq ▸ message.short
  have view := parseEnvelope_of_signedBytes parsed transcript short
  have signature := verifyEnvelopeSignature_eq_ok.mpr verified
  have opposite : suite.agree recipientSecret header.ephemeralPublic = .ok shared := by
    obtain ⟨same, nonzero⟩ := agree_eq_ok.mp agreed
    rw [agree_eq_ok, message.ephemeral, symmetric]
    exact ⟨same, nonzero⟩
  generalize envelope.signature = signatureBytes at view
  subst view
  have recipient : (header.view ciphertext tag signatureBytes).recipient = header.recipient := rfl
  have messageType : (header.view ciphertext tag signatureBytes).messageType =
      header.messageType := rfl
  rw [openInPlace, parsed, ok_bind, rejectIf_pass _ (not_not.mpr recipient), ok_bind,
    rejectIf_pass _ (not_not.mpr messageType), ok_bind, signature, ok_bind]
  simp only [EnvelopeHeader.view, opposite, ok_bind, derived, decrypts encrypted]

/-- A frame with the transcript of a sealed message opens to its plaintext. -/
theorem Sealed.opens {header : EnvelopeHeader} {ephemeralSecret recipientSecret : Key32}
    {plaintext ciphertext : Bytes} {tag : FixedBytes tagLen} {frame : Bytes}
    {envelope : EnvelopeRef} {senderVerifyingKey : Key32}
    (message : suite.Sealed header ephemeralSecret (suite.x25519Public recipientSecret) plaintext
      ciphertext tag)
    (correct : suite.Correct) (parsed : parseEnvelope frame = .ok envelope)
    (transcript : envelope.signedBytes =
      header.encoded ciphertext.length ++ ciphertext ++ tag.bytes)
    (verified : suite.verifyStrict senderVerifyingKey envelope.signedBytes envelope.signature = true) :
    suite.openInPlace frame header.recipient header.messageType senderVerifyingKey recipientSecret =
      .ok plaintext :=
  message.opens_of (correct.agreement _ _) correct.decryption parsed transcript verified

/-! ## When sealing succeeds -/

theorem append_ok {capacity : Nat} {output input : Bytes}
    (room : output.length + input.length ≤ capacity) :
    append capacity output input = .ok (output ++ input) :=
  if_pos room

theorem domain_length_le (messageType : MessageType) : messageType.domain.length ≤ 21 := by
  cases messageType <;> decide

theorem context_length_le (header : EnvelopeHeader) : header.context.length ≤ 128 := by
  have domain := domain_length_le header.messageType
  have protocol : protocolId.length = 15 := by decide
  simp only [EnvelopeHeader.context, List.length_append, List.length_cons, List.length_nil, protocol,
    FixedBytes.length_bytes]
  omega

theorem deriveContext_eq (header : EnvelopeHeader) : deriveContext header = .ok header.context := by
  have domain := domain_length_le header.messageType
  have protocol : protocolId.length = 15 := by decide
  simp only [deriveContext]
  repeat
    rw [append_ok (by
      simp only [List.length_append, List.length_cons, List.length_nil, protocol,
        FixedBytes.length_bytes]
      omega)]
    try rw [ok_bind]
  rfl

/-- One derivation expands the context and its label; only the expansion can fail. -/
theorem expandLabel_eq_ok {salt shared : Key32} {header : EnvelopeHeader} {label : Bytes}
    {length : Nat} {output : FixedBytes length} (short : label.length ≤ 32) :
    suite.expandLabel salt shared header.context label length = .ok output ↔
      suite.hkdfExpand salt shared (header.context ++ label) length = some output := by
  have context := context_length_le header
  have first : append 160 [] header.context = .ok header.context :=
    append_ok (by simp only [List.length_nil]; omega)
  rw [expandLabel, first, ok_bind, append_ok (by omega), ok_bind]
  cases suite.hkdfExpand salt shared (header.context ++ label) length with
  | none => simp
  | some expanded => simp

theorem keyLabel_short : aeadKeyLabel.length ≤ 32 := by decide

theorem nonceLabel_short : aeadNonceLabel.length ≤ 32 := by decide

theorem expandLabel_ok (total : suite.Total) (salt shared : Key32) (header : EnvelopeHeader)
    {label : Bytes} {length : Nat} (short : label.length ≤ 32) (narrow : length ≤ 32) :
    ∃ output, suite.expandLabel salt shared header.context label length = .ok output := by
  have context := context_length_le header
  have expands := total.expands salt shared (header.context ++ label) length (by omega)
  obtain ⟨output, expanded⟩ := Option.isSome_iff_exists.mp expands
  exact ⟨output, (expandLabel_eq_ok short).mpr expanded⟩

theorem deriveKeyNonce_ok (total : suite.Total) (shared : Key32) (header : EnvelopeHeader) :
    ∃ derived, suite.deriveKeyNonce shared header = .ok derived := by
  have narrow : 12 ≤ 32 := by decide
  obtain ⟨key, keyExpanded⟩ :=
    expandLabel_ok total header.salt shared header keyLabel_short le_rfl
  obtain ⟨nonce, nonceExpanded⟩ :=
    expandLabel_ok total header.salt shared header nonceLabel_short narrow
  rw [deriveKeyNonce, deriveContext_eq, ok_bind, keyExpanded, ok_bind, nonceExpanded]
  exact ⟨(key, nonce), rfl⟩

/-- Sealing fails only in the key agreement when the buffer holds the frame. -/
theorem sealInPlace_ok (total : suite.Total) {outputLen : Nat} {plaintext : Bytes}
    {messageType : MessageType} {sender recipient : AgentId} {handler : HandlerId}
    {sessionId : SessionId} {salt ephemeralSecret recipientX25519 signingKey : Key32}
    (short : plaintext.length ≤ maxPlaintextLen) (room : frameLen plaintext.length ≤ outputLen)
    (contributes : suite.diffieHellman ephemeralSecret recipientX25519 ≠ zeroSecret) :
    ∃ frame, suite.sealInPlace outputLen plaintext messageType sender recipient handler sessionId
      salt ephemeralSecret recipientX25519 signingKey = .ok frame := by
  have limit : plaintext.length ≤ 4096 := short
  have headerRoom : headerLen ≤ outputLen := by
    simp only [frameLen] at room
    omega
  let fields : EnvelopeHeader :=
    ⟨messageType, sender, recipient, handler, sessionId, suite.x25519Public ephemeralSecret, salt⟩
  obtain ⟨⟨key, nonce⟩, derived⟩ := deriveKeyNonce_ok total
    (suite.diffieHellman ephemeralSecret recipientX25519) fields
  have agreed := agree_eq_ok.mpr ⟨rfl, contributes⟩
  have header (fields : EnvelopeHeader) : encodeHeader outputLen fields plaintext.length =
      .ok (fields.encoded plaintext.length, frameLen plaintext.length) :=
    encodeHeader_eq_ok.mpr ⟨short, headerRoom, rfl, rfl⟩
  obtain ⟨⟨ciphertext, tag⟩, encrypted⟩ := Option.isSome_iff_exists.mp
    (total.encrypts key nonce (fields.encoded plaintext.length) plaintext (by omega))
  simp only [fields] at derived encrypted
  simp only [sealInPlace, header, ok_bind, rejectIf_pass _ (Nat.not_lt.mpr room), agreed, derived,
    encrypted]
  exact ⟨_, rfl⟩

/-- A recipient key without a contribution cannot be sealed to. -/
theorem sealInPlace_error {outputLen : Nat} {plaintext : Bytes} {messageType : MessageType}
    {sender recipient : AgentId} {handler : HandlerId} {sessionId : SessionId}
    {salt ephemeralSecret recipientX25519 signingKey : Key32}
    (degenerate : suite.diffieHellman ephemeralSecret recipientX25519 = zeroSecret) :
    ∃ error, suite.sealInPlace outputLen plaintext messageType sender recipient handler sessionId
      salt ephemeralSecret recipientX25519 signingKey = .error error := by
  cases written : suite.sealInPlace outputLen plaintext messageType sender recipient handler
      sessionId salt ephemeralSecret recipientX25519 signingKey with
  | error error => exact ⟨error, rfl⟩
  | ok frame =>
      obtain ⟨header, ciphertext, tag, _, message, _⟩ := sealInPlace_eq_ok written
      obtain ⟨shared, key, nonce, agreed, _⟩ := message.encrypted
      obtain ⟨same, nonzero⟩ := agree_eq_ok.mp agreed
      exact absurd (same.symm.trans degenerate) nonzero

/-! ## What sealing can fail with -/

theorem append_fails (capacity : Nat) (output input : Bytes) :
    FailsOnly (· = .cryptoFailure) (append capacity output input) := by
  rw [append]
  split
  · exact failsOnly_ok _
  · exact failsOnly_error rfl

theorem expandLabel_fails (salt shared : Key32) (context label : Bytes) (length : Nat) :
    FailsOnly (· = .cryptoFailure) (suite.expandLabel salt shared context label length) :=
  failsOnly_bind (append_fails _ _ _) fun _ => failsOnly_bind (append_fails _ _ _) fun info => by
    cases suite.hkdfExpand salt shared info length with
    | none => exact failsOnly_error rfl
    | some output => exact failsOnly_ok output

theorem deriveKeyNonce_fails (shared : Key32) (header : EnvelopeHeader) :
    FailsOnly (· = .cryptoFailure) (suite.deriveKeyNonce shared header) := by
  rw [deriveKeyNonce, deriveContext_eq, ok_bind]
  exact failsOnly_bind (expandLabel_fails _ _ _ _ _) fun _ =>
    failsOnly_bind (expandLabel_fails _ _ _ _ _) fun _ => failsOnly_ok _

theorem sealInPlace_fails (outputLen : Nat) (plaintext : Bytes) (messageType : MessageType)
    (sender recipient : AgentId) (handler : HandlerId) (sessionId : SessionId)
    (salt ephemeralSecret recipientX25519 signingKey : Key32) :
    FailsOnly (fun error => error = .oversized ∨ error = .cryptoFailure)
      (suite.sealInPlace outputLen plaintext messageType sender recipient handler sessionId salt
        ephemeralSecret recipientX25519 signingKey) := by
  refine failsOnly_bind ?_ fun written => failsOnly_bind (failsOnly_rejectIf (.inl rfl)) fun _ =>
    failsOnly_bind ?_ fun shared => failsOnly_bind ?_ fun derived => ?_
  · exact failsOnly_bind (failsOnly_rejectIf (.inl rfl)) fun _ =>
      failsOnly_bind (failsOnly_rejectIf (.inl rfl)) fun _ => failsOnly_ok _
  · exact failsOnly_bind (failsOnly_rejectIf (.inr rfl)) fun _ => failsOnly_ok _
  · exact fun error failed => .inr (deriveKeyNonce_fails _ _ error failed)
  · dsimp only
    cases suite.encryptDetached derived.1 derived.2 written.1 plaintext with
    | none => exact failsOnly_error (.inr rfl)
    | some sealedParts => exact failsOnly_ok _

/-! ## The laws are satisfiable -/

/-- A suite whose ciphertexts are the plaintexts and in which every peer but the all-zero one
contributes to the shared secret. -/
def transparent : CryptoSuite where
  verifyingKey := id
  decodesKey := fun _ => true
  sign := fun seed _ => ⟨seed.bytes ++ seed.bytes, by simp [signatureLen]⟩
  verifyStrict := fun key _ signature => decide (signature.bytes = key.bytes ++ key.bytes)
  x25519Public := fun secret => if secret = zeroSecret then .fill 32 9 else secret
  diffieHellman := fun _ peer => if peer = zeroSecret then zeroSecret else .fill 32 1
  hkdfExpand := fun _ _ _ length => some (.fill length 0)
  encryptDetached := fun _ _ _ plaintext => some (plaintext, .fill tagLen 0)
  decryptDetached := fun _ _ _ ciphertext _ => some ciphertext
  encrypt_length := fun encrypted => by cases encrypted; rfl

/-- Public keys of that suite are never degenerate. -/
theorem transparent_x25519Public_ne (secret : Key32) :
    transparent.x25519Public secret ≠ zeroSecret := by
  simp only [transparent]
  split
  · decide
  · assumption

theorem transparent_correct : transparent.Correct where
  agreement := fun left right => by
    have first := transparent_x25519Public_ne right
    have second := transparent_x25519Public_ne left
    simp only [transparent] at first second ⊢
    rw [if_neg first, if_neg second]
  decryption := fun encrypted => by cases encrypted; rfl
  decoding := fun _ => rfl
  verification := fun _ _ => decide_eq_true rfl

theorem transparent_total : transparent.Total where
  expands := fun _ _ _ _ _ => rfl
  encrypts := fun _ _ _ _ _ => rfl

theorem transparent_orderDecides : transparent.OrderDecides := by
  intro key
  by_cases zero : key = zeroSecret
  · exact .inl fun _ => if_pos zero
  · exact .inr fun _ => (if_neg zero).trans_ne (by decide)

end CryptoSuite

/-- A generator that counts its calls and fills each answer with the count. -/
def CryptoRandom.counting : CryptoRandom Nat where
  fillBytes := fun length calls => (.fill length (UInt8.ofNat calls), calls + 1)

end SecurePubSub.Protocol
