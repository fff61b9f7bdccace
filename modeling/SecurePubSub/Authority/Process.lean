import SecurePubSub.Authority.Policy
import SecurePubSub.Authority.Store
import SecurePubSub.Data.Program
import SecurePubSub.Protocol.Crypto

namespace SecurePubSub.Authority

open SecurePubSub.Data SecurePubSub.Data.Fallible SecurePubSub.Data.Program SecurePubSub.Protocol

/-! `CertificateAuthority::process` as a program over its effects.

The effects are the store calls, each of them atomic, and the sealing of one
delivery, which draws from the random generator. Everything between two of them
is a pure computation on what they returned.
-/

/-- The effects of processing one request. -/
inductive CaCall where
  | keys (agent : AgentId)
  | checkAndMark (sender : AgentId) (session : SessionId) (nowSeconds : UInt64)
  | environment (agent : AgentId)
  | setEnvironment (agent : AgentId) (encoded : Bytes)
  | putSubscription (subscription : StoredSubscription)
  | subscriptionsFor (typeId : TypeId)
  | claimSubscription (subscription : StoredSubscription)
  | delivery (publisher recipient : AgentId) (handler : HandlerId) (typeId : TypeId)
      (value : Bytes) (recipientX25519 : Key32)

/-- What each effect returns. -/
abbrev CaCall.Value : CaCall → Type
  | keys _ => PublicKeys
  | checkAndMark .. => Unit
  | environment _ => Option Bytes
  | setEnvironment .. => Unit
  | putSubscription _ => Unit
  | subscriptionsFor _ => List StoredSubscription
  | claimSubscription _ => Bool
  | delivery .. => Bytes

abbrev caInterface : Interface := ⟨CaCall, CaCall.Value, Error⟩

abbrev CaProgram : Type → Type := Program caInterface

/-! One effect each; its error ends the request. -/

namespace Effect

def keys (agent : AgentId) : CaProgram PublicKeys := @perform caInterface (.keys agent)

def checkAndMark (sender : AgentId) (session : SessionId) (nowSeconds : UInt64) : CaProgram Unit :=
  @perform caInterface (.checkAndMark sender session nowSeconds)

def environment (agent : AgentId) : CaProgram (Option Bytes) :=
  @perform caInterface (.environment agent)

def setEnvironment (agent : AgentId) (encoded : Bytes) : CaProgram Unit :=
  @perform caInterface (.setEnvironment agent encoded)

def putSubscription (subscription : StoredSubscription) : CaProgram Unit :=
  @perform caInterface (.putSubscription subscription)

def subscriptionsFor (typeId : TypeId) : CaProgram (List StoredSubscription) :=
  @perform caInterface (.subscriptionsFor typeId)

def claimSubscription (subscription : StoredSubscription) : CaProgram Bool :=
  @perform caInterface (.claimSubscription subscription)

def delivery (publisher recipient : AgentId) (handler : HandlerId) (typeId : TypeId)
    (value : Bytes) (recipientX25519 : Key32) : CaProgram Bytes :=
  @perform caInterface (.delivery publisher recipient handler typeId value recipientX25519)

end Effect

/-- CA long-term secrets. -/
structure CaKeys where
  signing : Key32
  x25519 : Key32

/-- Result of one CA request. -/
inductive ProcessResult where
  | accepted
  | deliveries (frames : List Bytes)
deriving DecidableEq

/-- The protocol CA; its store is the state that its programs run against. -/
structure CertificateAuthority where
  suite : CryptoSuite
  keys : CaKeys
  policy : EnvironmentPolicy

/-- The environment of a stored environment operation. -/
def storedEnvironment (encoded : Bytes) : Except Error EnvironmentRef := do
  match ← parseOperation encoded with
  | .setEnvironment environment => pure environment
  | _ => .error .malformed

/-- The predicate of a stored subscription, which must be of its recorded kind and type. -/
def storedPredicate (typeId : TypeId) (subscription : StoredSubscription) :
    Except Error PredicateRef := do
  match subscription.kind, ← parseOperation subscription.encoded with
  | .oneShot, .subscribe storedType predicate =>
      if storedType = typeId then pure predicate else .error .malformed
  | .permanent, .subscribePermanent storedType predicate =>
      if storedType = typeId then pure predicate else .error .malformed
  | _, _ => .error .malformed

/-- What an accepted publication is matched with. -/
structure Publication where
  publisher : AgentId
  environment : EnvironmentRef
  typeId : TypeId
  predicate : PredicateRef
  value : Bytes

namespace CertificateAuthority

variable (authority : CertificateAuthority)

def validateEnvironment (agent : AgentId) (current : Option EnvironmentRef)
    (proposed : EnvironmentRef) : Except Error Unit :=
  (authority.policy.validateEnvironment agent current proposed).mapError
    (fun _ => .unauthorizedEnvironment)

/-- The role checks on an envelope before its sender is looked up. -/
def acceptEnvelope (frame : Bytes) : Except Error EnvelopeRef := do
  let envelope ← parseEnvelope frame
  rejectIf (envelope.recipient ≠ .ca ∨ envelope.sender = .ca) .wrongRecipient
  rejectIf (envelope.messageType = .publicationResponse) .wrongMessageType
  pure envelope

def verifySender (envelope : EnvelopeRef) (publicKeys : PublicKeys) : Except Error Unit := do
  rejectIf (authority.suite.decodesKey publicKeys.ed25519 = false) .badSignature
  authority.suite.verifyEnvelopeSignature envelope publicKeys.ed25519

/-- Decrypts and parses the request of an authenticated sender. -/
def openRequest (frame : Bytes) (envelope : EnvelopeRef) (publicKeys : PublicKeys) :
    Except Error (Bytes × OperationRef) := do
  let plaintext ← authority.suite.openInPlace frame .ca envelope.messageType publicKeys.ed25519
    authority.keys.x25519
  let operation ← parseOperation plaintext
  pure (plaintext, operation)

/-- An authenticated request: its envelope, its plaintext and what that means. -/
structure Admitted where
  envelope : EnvelopeRef
  plaintext : Bytes
  operation : OperationRef

/-- The part of `process` that is common to all requests. -/
def admission (frame : Bytes) (nowSeconds : UInt64) : CaProgram Admitted := do
  let envelope ← ofExcept (acceptEnvelope frame)
  let publicKeys ← Effect.keys envelope.sender
  ofExcept (authority.verifySender envelope publicKeys)
  Effect.checkAndMark envelope.sender envelope.sessionId nowSeconds
  let opened ← ofExcept (authority.openRequest frame envelope publicKeys)
  pure ⟨envelope, opened.1, opened.2⟩

def validateStoredEnvironment (agent : AgentId) : CaProgram Unit := do
  match ← Effect.environment agent with
  | none => fail .unauthorizedEnvironment
  | some encoded => do
      let environment ← ofExcept (storedEnvironment encoded)
      ofExcept (authority.validateEnvironment agent none environment)

def processSetEnvironment (envelope : EnvelopeRef) (plaintext : Bytes)
    (proposed : EnvironmentRef) : CaProgram ProcessResult := do
  ofExcept (rejectIf (envelope.handler ≠ .none) .wrongHandler)
  let stored ← Effect.environment envelope.sender
  let current ← ofExcept (stored.mapM storedEnvironment)
  ofExcept (authority.validateEnvironment envelope.sender current proposed)
  Effect.setEnvironment envelope.sender plaintext
  pure .accepted

/-- Both subscription arms, which differ in the kind they store. -/
def processSubscribe (envelope : EnvelopeRef) (plaintext : Bytes) (typeId : TypeId)
    (kind : SubscriptionKind) : CaProgram ProcessResult := do
  ofExcept (rejectIf (envelope.handler = .none) .wrongHandler)
  authority.validateStoredEnvironment envelope.sender
  Effect.putSubscription ⟨envelope.sender, typeId, envelope.handler, kind, plaintext⟩
  pure .accepted

/-- Seals the delivery for a matched subscription and claims that before pushing it. -/
def deliverTo (publication : Publication) (subscription : StoredSubscription)
    (recipientKeys : PublicKeys) : CaProgram (Option Bytes) := do
  let delivery ← Effect.delivery publication.publisher subscription.subscriber
    subscription.handler publication.typeId publication.value recipientKeys.x25519
  let claimed ← Effect.claimSubscription subscription
  if claimed then pure (some delivery) else pure none

/-- One iteration of the delivery loop: the frame it pushes, if any. -/
def offer (publication : Publication) (subscription : StoredSubscription) :
    CaProgram (Option Bytes) := do
  let predicate ← ofExcept (storedPredicate publication.typeId subscription)
  if predicate.evaluate publication.environment = false then pure none
  else do
    match ← Effect.environment subscription.subscriber with
    | none => pure none
    | some encoded => do
        let subscriberEnvironment ← ofExcept (storedEnvironment encoded)
        if publication.predicate.evaluate subscriberEnvironment = false then pure none
        else if authority.policy.authorizeDelivery publication.publisher publication.environment
            subscription.subscriber subscriberEnvironment publication.typeId = false then pure none
        else do
          let recipientKeys ← Effect.keys subscription.subscriber
          deliverTo publication subscription recipientKeys

/-- The delivery loop over a snapshot of the subscriptions. -/
def deliverAll (publication : Publication) : List StoredSubscription → CaProgram (List Bytes)
  | [] => pure []
  | subscription :: rest => do
      let pushed ← authority.offer publication subscription
      let later ← deliverAll publication rest
      pure (pushed.toList ++ later)

def processPublish (envelope : EnvelopeRef) (typeId : TypeId) (predicate : PredicateRef)
    (value : Bytes) : CaProgram ProcessResult := do
  ofExcept (rejectIf (envelope.handler ≠ .none) .wrongHandler)
  match ← Effect.environment envelope.sender with
  | none => fail .malformed
  | some encoded => do
      let environment ← ofExcept (storedEnvironment encoded)
      ofExcept (authority.validateEnvironment envelope.sender none environment)
      let subscriptions ← Effect.subscriptionsFor typeId
      let publication : Publication := ⟨envelope.sender, environment, typeId, predicate, value⟩
      let frames ← authority.deliverAll publication subscriptions
      pure (.deliveries frames)

/-- The arms of the final match on message type and operation. -/
def dispatch (request : Admitted) : CaProgram ProcessResult :=
  match request.envelope.messageType, request.operation with
  | .setEnvironment, .setEnvironment proposed =>
      authority.processSetEnvironment request.envelope request.plaintext proposed
  | .subscribe, .subscribe typeId _ =>
      authority.processSubscribe request.envelope request.plaintext typeId .oneShot
  | .subscribePermanent, .subscribePermanent typeId _ =>
      authority.processSubscribe request.envelope request.plaintext typeId .permanent
  | .publish, .publish typeId predicate value =>
      authority.processPublish request.envelope typeId predicate value
  | _, _ => fail .wrongMessageType

/-- Authenticates, replay-checks, decrypts, authorizes and processes one request. -/
def process (frame : Bytes) (nowSeconds : UInt64) : CaProgram ProcessResult := do
  let request ← authority.admission frame nowSeconds
  authority.dispatch request

end CertificateAuthority

/-! ## Running against a store -/

/-- What the effects act on: the store and the random generator. -/
structure World (ρ : Type) where
  store : Store
  rng : ρ

namespace CertificateAuthority

variable {ρ : Type} (random : CryptoRandom ρ) (authority : CertificateAuthority)

/-- One separately encrypted delivery frame. -/
def delivery (publisher recipient : AgentId) (handler : HandlerId) (typeId : TypeId)
    (value : Bytes) (recipientX25519 : Key32) (state : ρ) : Except Error Bytes × ρ :=
  match encodeResponse (maxFrameLen - headerLen) typeId publisher value with
  | .error error => (.error error, state)
  | .ok plaintext =>
      let (session, state) := random.fillBytes 16 state
      let (salt, state) := random.fillBytes 32 state
      let (ephemeralSecret, state) := random.fillBytes 32 state
      (authority.suite.sealInPlace maxFrameLen plaintext .publicationResponse .ca recipient handler
        ⟨session⟩ salt ephemeralSecret recipientX25519 authority.keys.signing, state)

/-- Performs one effect on a world. -/
def perform : Handler caInterface (World ρ) := fun call world =>
  match call with
  | .keys agent => (world.store.state.keysOf agent, world)
  | .environment agent => (.ok (world.store.state.environments.get agent), world)
  | .subscriptionsFor typeId => (.ok (world.store.state.subscriptions.forType typeId), world)
  | .checkAndMark sender session nowSeconds =>
      let answer := world.store.checkAndMark sender session nowSeconds
      (answer.1, { world with store := answer.2 })
  | .setEnvironment agent encoded =>
      let answer := world.store.setEnvironment agent encoded
      (answer.1, { world with store := answer.2 })
  | .putSubscription subscription =>
      let answer := world.store.putSubscription subscription
      (answer.1, { world with store := answer.2 })
  | .claimSubscription subscription =>
      let answer := world.store.claimSubscription subscription
      (answer.1, { world with store := answer.2 })
  | .delivery publisher recipient handler typeId value recipientX25519 =>
      let answer := authority.delivery random publisher recipient handler typeId value
        recipientX25519 world.rng
      (answer.1, { world with rng := answer.2 })

/-- One call of `process` that nothing interleaves with. -/
def handle (frame : Bytes) (nowSeconds : UInt64) (world : World ρ) :
    Except Error ProcessResult × World ρ :=
  (authority.process frame nowSeconds).run (authority.perform random) world

end CertificateAuthority

end SecurePubSub.Authority
