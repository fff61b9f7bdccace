import SecurePubSub.Protocol.Crypto
import SecurePubSub.Protocol.PayloadRoundTrip

namespace SecurePubSub.AgentCore

open SecurePubSub.Data SecurePubSub.Data.Fallible SecurePubSub.Protocol

/-! The Agent facade: building requests and receiving deliveries.

A request builder returns the frame it leaves in its output buffer together
with the state of the random generator; `receive` returns its result together
with the state of the caller's replay protector.
-/

/-- Long-term secrets of one Agent. -/
structure AgentKeys where
  signing : Key32
  x25519 : Key32

/-- Public keys of the provisioned trust anchor. -/
structure CaPublicKeys where
  ed25519 : Key32
  x25519 : Key32

/-- An Agent bound to one provisioned identity and CA. -/
structure Agent where
  id : AgentId
  keys : AgentKeys
  ca : CaPublicKeys

/-- Authenticated publication delivered by the CA. -/
structure Delivery where
  typeId : TypeId
  publisher : AgentId
  handler : HandlerId
  value : Bytes

/-- The replay state an Agent is given, with states of type `R`. -/
structure ReplayProtector (R : Type) where
  checkAndMark : AgentId → SessionId → UInt64 → R → Except Error Unit × R

section Requests

variable {ρ : Type} (suite : CryptoSuite) (random : CryptoRandom ρ) (agent : Agent)

def requestInto (outputLen : Nat) (messageType : MessageType) (handler : HandlerId)
    (encode : Nat → Except Error Bytes) (state : ρ) : Except Error Bytes × ρ :=
  if outputLen < maxFrameLen then (.error .oversized, state)
  else
    match encode (maxFrameLen - headerLen) with
    | .error error => (.error error, state)
    | .ok plaintext =>
        let (session, state) := random.fillBytes 16 state
        let (salt, state) := random.fillBytes 32 state
        let (ephemeralSecret, state) := random.fillBytes 32 state
        (suite.sealInPlace outputLen plaintext messageType agent.id .ca handler ⟨session⟩ salt
          ephemeralSecret agent.ca.x25519 agent.keys.signing, state)

def setEnvironmentInto (outputLen : Nat) (attributes : List AttributeRef) (state : ρ) :
    Except Error Bytes × ρ :=
  requestInto suite random agent outputLen .setEnvironment .none
    (fun capacity => encodeEnvironment capacity attributes) state

def subscribeInto (outputLen : Nat) (typeId : TypeId) (handler : HandlerId)
    (predicate : List ClauseRef) (state : ρ) : Except Error Bytes × ρ :=
  if handler = .none then (.error .wrongHandler, state)
  else
    requestInto suite random agent outputLen .subscribe handler
      (fun capacity => encodeSubscribe capacity typeId predicate) state

def subscribePermanentInto (outputLen : Nat) (typeId : TypeId) (handler : HandlerId)
    (predicate : List ClauseRef) (state : ρ) : Except Error Bytes × ρ :=
  if handler = .none then (.error .wrongHandler, state)
  else
    requestInto suite random agent outputLen .subscribePermanent handler
      (fun capacity => encodeSubscribePermanent capacity typeId predicate) state

def publishInto (outputLen : Nat) (typeId : TypeId) (predicate : List ClauseRef) (value : Bytes)
    (state : ρ) : Except Error Bytes × ρ :=
  requestInto suite random agent outputLen .publish .none
    (fun capacity => encodePublish capacity typeId predicate value) state

/-- The arguments of one call to a request builder. -/
inductive Request where
  | setEnvironment (attributes : List AttributeRef)
  | subscribe (typeId : TypeId) (handler : HandlerId) (predicate : List ClauseRef)
  | subscribePermanent (typeId : TypeId) (handler : HandlerId) (predicate : List ClauseRef)
  | publish (typeId : TypeId) (predicate : List ClauseRef) (value : Bytes)

/-- Calls the builder of a request. -/
def build (outputLen : Nat) (request : Request) (state : ρ) : Except Error Bytes × ρ :=
  match request with
  | .setEnvironment attributes => setEnvironmentInto suite random agent outputLen attributes state
  | .subscribe typeId handler predicate =>
      subscribeInto suite random agent outputLen typeId handler predicate state
  | .subscribePermanent typeId handler predicate =>
      subscribePermanentInto suite random agent outputLen typeId handler predicate state
  | .publish typeId predicate value =>
      publishInto suite random agent outputLen typeId predicate value state

end Requests

section Receiving

variable {R : Type} (suite : CryptoSuite) (protector : ReplayProtector R) (agent : Agent)

/-- The checks of `receive` before the replay protector is asked. -/
def authenticate (frame : Bytes) (expectedHandler : HandlerId) : Except Error EnvelopeRef := do
  rejectIf (suite.decodesKey agent.ca.ed25519 = false) .badSignature
  let envelope ← parseEnvelope frame
  rejectIf (envelope.recipient ≠ agent.id) .wrongRecipient
  rejectIf (envelope.messageType ≠ .publicationResponse) .wrongMessageType
  rejectIf (envelope.handler ≠ expectedHandler ∨ expectedHandler = .none) .wrongHandler
  suite.verifyEnvelopeSignature envelope agent.ca.ed25519
  pure envelope

/-- What `receive` does once the replay protector has accepted the session. -/
def openDelivery (frame : Bytes) (expectedHandler : HandlerId) : Except Error Delivery := do
  let plaintext ← suite.openInPlace frame agent.id .publicationResponse agent.ca.ed25519
    agent.keys.x25519
  match ← parseOperation plaintext with
  | .publicationResponse typeId publisher value =>
      pure { typeId, publisher, handler := expectedHandler, value }
  | _ => .error .wrongMessageType

/-- Verifies replay, recipient and handler, decrypts, and parses one CA delivery. -/
def receive (frame : Bytes) (expectedHandler : HandlerId) (nowSeconds : UInt64) (replay : R) :
    Except Error Delivery × R :=
  match authenticate suite agent frame expectedHandler with
  | .error error => (.error error, replay)
  | .ok envelope =>
      match protector.checkAndMark envelope.sender envelope.sessionId nowSeconds replay with
      | (.error error, replay) => (.error error, replay)
      | (.ok _, replay) => (openDelivery suite agent frame expectedHandler, replay)

end Receiving

/-! ## What a built request is -/

namespace Request

def messageType : Request → MessageType
  | setEnvironment .. => .setEnvironment
  | subscribe .. => .subscribe
  | subscribePermanent .. => .subscribePermanent
  | publish .. => .publish

def handler : Request → HandlerId
  | setEnvironment .. => .none
  | subscribe _ handler _ => handler
  | subscribePermanent _ handler _ => handler
  | publish .. => .none

/-- The canonical plaintext of a request. -/
def plaintext : Request → Bytes
  | setEnvironment attributes => environmentBytes attributes
  | subscribe typeId _ predicate => subscriptionBytes opSubscribe typeId predicate
  | subscribePermanent typeId _ predicate => subscriptionBytes opSubscribePermanent typeId predicate
  | publish typeId predicate value => publishBytes typeId predicate value

/-- What the parser makes of the plaintext of a request, unless that sets an environment. -/
def Means : Request → OperationRef → Prop
  | setEnvironment _, _ => True
  | subscribe typeId _ predicate, operation =>
      operation = .subscribe typeId (predicateRef predicate)
  | subscribePermanent typeId _ predicate, operation =>
      operation = .subscribePermanent typeId (predicateRef predicate)
  | publish typeId predicate value, operation =>
      operation = .publish typeId (predicateRef predicate) value

end Request

/-- A frame that `agent` sealed and signed for the CA. -/
structure BuiltFrame (suite : CryptoSuite) (agent : Agent) (request : Request) (frame : Bytes) :
    Prop where
  framed : ∃ header ephemeralSecret ciphertext tag,
    header.messageType = request.messageType ∧ header.sender = agent.id ∧
    header.recipient = .ca ∧ header.handler = request.handler ∧
    suite.Sealed header ephemeralSecret agent.ca.x25519 request.plaintext ciphertext tag ∧
    frame = header.frame ciphertext tag (suite.sign agent.keys.signing
      (header.encoded ciphertext.length ++ ciphertext ++ tag.bytes))
  meaning : ∀ operation, parseOperation request.plaintext = .ok operation → request.Means operation

section Building

variable {ρ : Type} {suite : CryptoSuite} {random : CryptoRandom ρ} {agent : Agent}
  {outputLen : Nat} {state : ρ} {frame : Bytes}

theorem requestInto_eq_ok {messageType : MessageType} {handler : HandlerId}
    {encode : Nat → Except Error Bytes}
    (built : (requestInto suite random agent outputLen messageType handler encode state).1 =
      .ok frame) :
    ∃ plaintext header ephemeralSecret ciphertext tag,
      encode (maxFrameLen - headerLen) = .ok plaintext ∧ header.messageType = messageType ∧
      header.sender = agent.id ∧ header.recipient = .ca ∧ header.handler = handler ∧
      suite.Sealed header ephemeralSecret agent.ca.x25519 plaintext ciphertext tag ∧
      frame = header.frame ciphertext tag (suite.sign agent.keys.signing
        (header.encoded ciphertext.length ++ ciphertext ++ tag.bytes)) := by
  simp only [requestInto] at built
  split at built
  · cases built
  · split at built
    · cases built
    · rename_i plaintext encoded
      obtain ⟨header, ciphertext, tag, fields, message, written⟩ :=
        CryptoSuite.sealInPlace_eq_ok built
      subst fields
      exact ⟨plaintext, _, _, ciphertext, tag, encoded, rfl, rfl, rfl, rfl, message, written⟩

/-- Every frame that a builder returns is sealed and signed by its Agent and means its request. -/
theorem build_eq_ok {request : Request}
    (built : (build suite random agent outputLen request state).1 = .ok frame) :
    BuiltFrame suite agent request frame := by
  cases request with
  | setEnvironment attributes =>
      obtain ⟨plaintext, header, ephemeralSecret, ciphertext, tag, encoded, facts⟩ :=
        requestInto_eq_ok built
      obtain ⟨rfl, _⟩ := encodeEnvironment_eq_ok encoded
      exact ⟨⟨header, ephemeralSecret, ciphertext, tag, facts⟩, fun _ _ => trivial⟩
  | subscribe typeId handler predicate =>
      simp only [build, subscribeInto] at built
      split at built
      · cases built
      · obtain ⟨plaintext, header, ephemeralSecret, ciphertext, tag, encoded, facts⟩ :=
          requestInto_eq_ok built
        obtain ⟨rfl, few, bounded⟩ := encodeSubscription_eq_ok encoded
        refine ⟨⟨header, ephemeralSecret, ciphertext, tag, facts⟩, fun operation parsed => ?_⟩
        exact Except.ok.inj (parsed.symm.trans (parseOperation_subscribe few bounded))
  | subscribePermanent typeId handler predicate =>
      simp only [build, subscribePermanentInto] at built
      split at built
      · cases built
      · obtain ⟨plaintext, header, ephemeralSecret, ciphertext, tag, encoded, facts⟩ :=
          requestInto_eq_ok built
        obtain ⟨rfl, few, bounded⟩ := encodeSubscription_eq_ok encoded
        refine ⟨⟨header, ephemeralSecret, ciphertext, tag, facts⟩, fun operation parsed => ?_⟩
        exact Except.ok.inj (parsed.symm.trans (parseOperation_subscribePermanent few bounded))
  | publish typeId predicate value =>
      obtain ⟨plaintext, header, ephemeralSecret, ciphertext, tag, encoded, facts⟩ :=
        requestInto_eq_ok built
      obtain ⟨rfl, few, bounded, short⟩ := encodePublish_eq_ok encoded
      refine ⟨⟨header, ephemeralSecret, ciphertext, tag, facts⟩, fun operation parsed => ?_⟩
      exact Except.ok.inj (parsed.symm.trans (parseOperation_publish few bounded short))

end Building

section Opening

variable {R : Type} {suite : CryptoSuite} {protector : ReplayProtector R} {agent : Agent}
  {frame : Bytes} {expectedHandler : HandlerId} {nowSeconds : UInt64} {replay : R}

theorem authenticate_eq_ok {envelope : EnvelopeRef} :
    authenticate suite agent frame expectedHandler = .ok envelope ↔
      suite.decodesKey agent.ca.ed25519 = true ∧ parseEnvelope frame = .ok envelope ∧
      envelope.recipient = agent.id ∧ envelope.messageType = .publicationResponse ∧
      envelope.handler = expectedHandler ∧ expectedHandler ≠ .none ∧
      suite.verifyStrict agent.ca.ed25519 envelope.signedBytes envelope.signature = true := by
  constructor
  · intro authenticated
    obtain ⟨decodes, authenticated⟩ := rejectIf_bind_eq_ok authenticated
    obtain ⟨parsedEnvelope, parsed, authenticated⟩ := bind_eq_ok.mp authenticated
    obtain ⟨recipient, authenticated⟩ := rejectIf_bind_eq_ok authenticated
    obtain ⟨messageType, authenticated⟩ := rejectIf_bind_eq_ok authenticated
    obtain ⟨handler, authenticated⟩ := rejectIf_bind_eq_ok authenticated
    obtain ⟨⟨⟩, verified, result⟩ := bind_eq_ok.mp authenticated
    cases result
    obtain ⟨handlerEq, nonempty⟩ := not_or.mp handler
    exact ⟨Bool.not_eq_false _ ▸ decodes, parsed, not_not.mp recipient, not_not.mp messageType,
      not_not.mp handlerEq, nonempty, CryptoSuite.verifyEnvelopeSignature_eq_ok.mp verified⟩
  · intro ⟨decodes, parsed, recipient, messageType, handler, nonempty, verified⟩
    have accepted : ¬ (envelope.handler ≠ expectedHandler ∨ expectedHandler = .none) :=
      not_or.mpr ⟨not_not.mpr handler, nonempty⟩
    rw [authenticate, rejectIf_pass _ (by simp [decodes]), ok_bind, parsed, ok_bind,
      rejectIf_pass _ (not_not.mpr recipient), ok_bind, rejectIf_pass _ (not_not.mpr messageType),
      ok_bind, rejectIf_pass _ accepted, ok_bind,
      CryptoSuite.verifyEnvelopeSignature_eq_ok.mpr verified, ok_bind]
    rfl

/-- A delivery that was returned came from a frame the CA's key verifies. -/
theorem receive_eq_ok {delivery : Delivery}
    (received : (receive suite protector agent frame expectedHandler nowSeconds replay).1 =
      .ok delivery) :
    ∃ envelope, authenticate suite agent frame expectedHandler = .ok envelope ∧
      openDelivery suite agent frame expectedHandler = .ok delivery := by
  simp only [receive] at received
  split at received
  · cases received
  · rename_i envelope authenticated
    split at received
    · cases received
    · exact ⟨envelope, authenticated, received⟩

/-- An authentic frame with a fresh session is received. -/
theorem receive_ok {envelope : EnvelopeRef} {delivery : Delivery}
    (authenticated : authenticate suite agent frame expectedHandler = .ok envelope)
    (fresh : (protector.checkAndMark envelope.sender envelope.sessionId nowSeconds replay).1 =
      .ok ()) (opened : openDelivery suite agent frame expectedHandler = .ok delivery) :
    (receive suite protector agent frame expectedHandler nowSeconds replay).1 = .ok delivery := by
  simp only [receive, authenticated]
  rcases marked : protector.checkAndMark envelope.sender envelope.sessionId nowSeconds replay with
    ⟨result, after⟩
  rw [marked] at fresh
  cases fresh
  exact opened

theorem openDelivery_eq_ok {delivery : Delivery}
    (opened : openDelivery suite agent frame expectedHandler = .ok delivery) :
    ∃ plaintext, suite.openInPlace frame agent.id .publicationResponse agent.ca.ed25519
        agent.keys.x25519 = .ok plaintext ∧
      parseOperation plaintext =
        .ok (.publicationResponse delivery.typeId delivery.publisher delivery.value) ∧
      delivery.handler = expectedHandler := by
  obtain ⟨plaintext, decrypted, opened⟩ := bind_eq_ok.mp opened
  obtain ⟨operation, parsed, opened⟩ := bind_eq_ok.mp opened
  cases operation with
  | publicationResponse typeId publisher value =>
      cases opened
      exact ⟨plaintext, decrypted, parsed, rfl⟩
  | setEnvironment environment => cases opened
  | subscribe typeId predicate => cases opened
  | subscribePermanent typeId predicate => cases opened
  | publish typeId predicate value => cases opened

theorem openDelivery_ok {plaintext : Bytes} {typeId : TypeId} {publisher : AgentId} {value : Bytes}
    (decrypted : suite.openInPlace frame agent.id .publicationResponse agent.ca.ed25519
      agent.keys.x25519 = .ok plaintext)
    (parsed : parseOperation plaintext = .ok (.publicationResponse typeId publisher value)) :
    openDelivery suite agent frame expectedHandler =
      .ok ⟨typeId, publisher, expectedHandler, value⟩ := by
  rw [openDelivery, decrypted, ok_bind, parsed, ok_bind]
  rfl

end Opening

end SecurePubSub.AgentCore
