import SecurePubSub.Data.Contract
import SecurePubSub.Data.Journal
import SecurePubSub.Link.Frames

namespace SecurePubSub.Link

open SecurePubSub.Data SecurePubSub.Data.Fallible SecurePubSub.Data.Program SecurePubSub.Protocol

/-! The challenge and response that open a connection between Broker and CA.

Any number of connections run at once. What arrives on a connection is up to whoever
controls the network, who also sees everything that was sent.
-/

/-! ## The MAC -/

/-- One block of HMAC's key, padded with zeros before the constant is added. -/
def hmacKey (constant : UInt8) (secret : FixedBytes 32) : Bytes :=
  secret.bytes.map (fun byte => constant ^^^ byte) ++ List.replicate 32 constant

/-- The hash function is a parameter; `mac sha256 secret challenge` is `authentication_mac`. -/
def authenticationMac (sha256 : Bytes → FixedBytes 32) (secret challenge : FixedBytes 32) :
    FixedBytes 32 :=
  let inner := sha256
    (hmacKey 0x36 secret ++ asBytes "SecurePubSub/Broker-CA/v1" ++ challenge.bytes)
  sha256 (hmacKey 0x5c secret ++ inner.bytes)

def verifyAuthentication (sha256 : Bytes → FixedBytes 32) (secret challenge : FixedBytes 32)
    (response : Bytes) : Except LinkError Unit :=
  let expected := authenticationMac sha256 secret challenge
  if response.length = expected.bytes.length ∧ expected.bytes = response then .ok ()
  else .error .authentication

theorem verifyAuthentication_eq_ok {sha256 : Bytes → FixedBytes 32}
    {secret challenge : FixedBytes 32} {response : Bytes} :
    verifyAuthentication sha256 secret challenge response = .ok () ↔
      response = (authenticationMac sha256 secret challenge).bytes := by
  rw [verifyAuthentication]
  constructor
  · intro accepted
    split at accepted
    · rename_i both
      exact both.2.symm
    · cases accepted
  · intro same
    exact if_pos ⟨congrArg List.length same, same.symm⟩

/-! ## The two programs -/

/-- What the two parties do; a connection is known by a number. Computing a MAC is a call so that
it shows who did. -/
inductive AuthCall where
  | randomLinkId
  | fill
  | authenticationMac (secret challenge : FixedBytes 32)
  | send (framed : Nat) (frame : Bytes)
  | next (framed : Nat)

abbrev AuthCall.Value : AuthCall → Type
  | randomLinkId => MessageId
  | fill => FixedBytes 32
  | authenticationMac .. => FixedBytes 32
  | send .. => Unit
  | next _ => Bytes

abbrev authInterface : Interface := ⟨AuthCall, AuthCall.Value, LinkError⟩

abbrev AuthProgram : Type → Type := Program authInterface

/-- Makes a call whose failure, by timeout or otherwise, is reported as one error. -/
def orFail (error : LinkError) (request : AuthCall) : AuthProgram request.Value :=
  .call request fun reply => ofExcept (reply.mapError fun _ => error)

/-- The side of `cad`, which accepts the connection. -/
def authenticateBroker (sha256 : Bytes → FixedBytes 32) (framed : Nat) (psk : FixedBytes 32) :
    AuthProgram Unit := do
  let challenge ← orFail .authentication .randomLinkId
  let challengeBytes ← orFail .authentication .fill
  let encoded ← ofExcept (encode .authChallenge challenge challengeBytes.bytes)
  orFail .invalidFrame (.send framed encoded)
  let incoming ← orFail .authentication (.next framed)
  let response ← ofExcept (decode incoming)
  ofExcept (rejectIf (response.kind ≠ .authResponse ∨ response.id ≠ challenge) .authentication)
  ofExcept (verifyAuthentication sha256 psk challengeBytes response.payload)
  let accepted ← ofExcept (encode .authOk challenge [])
  orFail .invalidFrame (.send framed accepted)

/-- What is left of `authenticate_ca` once the challenge is known. -/
def answerChallenge (framed : Nat) (psk : FixedBytes 32) (challenge : MessageId)
    (challengeBytes : FixedBytes 32) : AuthProgram Unit := do
  let mac ← orFail .authentication (.authenticationMac psk challengeBytes)
  let response ← ofExcept (encode .authResponse challenge mac.bytes)
  orFail .authentication (.send framed response)
  let incoming ← orFail .authentication (.next framed)
  let accepted ← ofExcept (decode incoming)
  ofExcept (rejectIf (¬ (accepted.kind = .authOk ∧ accepted.id = challenge)) .authentication)

/-- The side of `brokerd`, which made the connection. -/
def authenticateCa (framed : Nat) (psk : FixedBytes 32) : AuthProgram Unit := do
  let incoming ← orFail .authentication (.next framed)
  let challenge ← ofExcept (decode incoming)
  ofExcept (rejectIf (challenge.kind ≠ .authChallenge ∨ challenge.payload.length ≠ 32)
    .authentication)
  match FixedBytes.ofSlice? 32 challenge.payload with
  | none => fail .authentication
  | some challengeBytes => answerChallenge framed psk challenge.id challengeBytes

theorem Consumes.orFail_done {error : LinkError} {request : AuthCall}
    {history : List authInterface.Event} {value : request.Value}
    (consumed : Consumes (orFail error request) history (.done value)) :
    history = [⟨request, .ok value⟩] := by
  cases consumed with
  | @step _ _ reply _ _ tail =>
      obtain ⟨rfl, mapped⟩ := tail.ofExcept_done
      rw [mapError_eq_ok.mp mapped]

/-! ## What the programs have done -/

section Histories

variable {sha256 : Bytes → FixedBytes 32} {framed : Nat} {psk : FixedBytes 32}
  {history : List authInterface.Event}

/-- An accepted connection, from the first call to the last. -/
theorem authenticateBroker_done
    (consumed : Consumes (authenticateBroker sha256 framed psk) history (.done ())) :
    ∃ challenge challengeBytes encoded incoming response accepted,
      history = [⟨.randomLinkId, .ok challenge⟩, ⟨.fill, .ok challengeBytes⟩,
        ⟨.send framed encoded, .ok ()⟩, ⟨.next framed, .ok incoming⟩,
        ⟨.send framed accepted, .ok ()⟩] ∧
      decode incoming = .ok response ∧ response.kind = .authResponse ∧ response.id = challenge ∧
      response.payload = (authenticationMac sha256 psk challengeBytes).bytes := by
  obtain ⟨_, _, challenge, rfl, drawn, consumed⟩ := consumed.bind_done
  obtain ⟨_, _, challengeBytes, rfl, filled, consumed⟩ := consumed.bind_done
  obtain ⟨_, _, encoded, rfl, written, consumed⟩ := consumed.bind_done
  obtain ⟨_, _, _, rfl, sent, consumed⟩ := consumed.bind_done
  obtain ⟨_, _, incoming, rfl, arrived, consumed⟩ := consumed.bind_done
  obtain ⟨_, _, response, rfl, decoded, consumed⟩ := consumed.bind_done
  obtain ⟨_, _, _, rfl, checked, consumed⟩ := consumed.bind_done
  obtain ⟨_, _, _, rfl, verified, consumed⟩ := consumed.bind_done
  obtain ⟨_, _, accepted, rfl, acknowledged, finished⟩ := consumed.bind_done
  cases Consumes.orFail_done drawn
  cases Consumes.orFail_done filled
  cases Consumes.orFail_done sent
  cases Consumes.orFail_done arrived
  cases Consumes.orFail_done finished
  obtain ⟨rfl, _⟩ := written.ofExcept_done
  obtain ⟨rfl, reads⟩ := decoded.ofExcept_done
  obtain ⟨rfl, expected⟩ := checked.ofExcept_done
  obtain ⟨rfl, matched⟩ := verified.ofExcept_done
  obtain ⟨rfl, _⟩ := acknowledged.ofExcept_done
  obtain ⟨kind, id⟩ := not_or.mp (rejectIf_eq_ok.mp expected)
  exact ⟨challenge, challengeBytes, encoded, incoming, response, accepted, rfl, reads,
    not_not.mp kind, not_not.mp id, verifyAuthentication_eq_ok.mp matched⟩

end Histories

/-! ## Any number of connections -/

/-- A connection of either program with the deployment secret. -/
inductive IsParty (sha256 : Bytes → FixedBytes 32) (psk : FixedBytes 32) : AuthProgram Unit → Prop
    where
  | cad (framed : Nat) : IsParty sha256 psk (authenticateBroker sha256 framed psk)
  | brokerd (framed : Nat) : IsParty sha256 psk (authenticateCa framed psk)

def drew (challenge : FixedBytes 32) : authInterface.Event := ⟨.fill, .ok challenge⟩

def computed (sha256 : Bytes → FixedBytes 32) (psk challenge : FixedBytes 32) :
    authInterface.Event :=
  ⟨.authenticationMac psk challenge, .ok (authenticationMac sha256 psk challenge)⟩

def isDraw (challenge : FixedBytes 32) (event : authInterface.Event) : Bool :=
  match event with
  | ⟨.fill, .ok drawn⟩ => drawn = challenge
  | _ => false

/-- The assumptions on randomness and on the MAC. No challenge is drawn that was drawn or used
before, and no frame carries the MAC of a drawn challenge unless a party has computed it. -/
structure Ideal (sha256 : Bytes → FixedBytes 32) (psk : FixedBytes 32)
    (answers : Answers authInterface) : Prop where
  mac : ∀ secret challenge log, answers (.authenticationMac secret challenge) log =
    .ok (authenticationMac sha256 secret challenge)
  fresh : ∀ log challenge, Causal (Given answers) log → answers .fill log = .ok challenge →
    drew challenge ∉ log ∧ computed sha256 psk challenge ∉ log
  unforgeable : ∀ log framed incoming frame challenge, Causal (Given answers) log →
    answers (.next framed) log = .ok incoming → decode incoming = .ok frame →
    drew challenge ∈ log → frame.payload = (authenticationMac sha256 psk challenge).bytes →
    computed sha256 psk challenge ∈ log

/-- `cad` took the connection for one of the Broker. -/
def Accepts (sha256 : Bytes → FixedBytes 32) (psk : FixedBytes 32)
    (thread : Thread authInterface Unit) (challenge : FixedBytes 32) : Prop :=
  ∃ framed, thread.program = authenticateBroker sha256 framed psk ∧ thread.left = .done () ∧
    drew challenge ∈ thread.history

section Connections

variable {sha256 : Bytes → FixedBytes 32} {psk : FixedBytes 32} {answers : Answers authInterface}
  {pool : Pool authInterface (List authInterface.Event) Unit}
  {thread : Thread authInterface Unit} {challenge other : FixedBytes 32}

/-- An accepted connection drew one challenge and then received its MAC. -/
theorem Accepts.received (accepts : Accepts sha256 psk thread challenge)
    (follows : Pool.Thread.Follows (journal answers) (IsParty sha256 psk) thread) :
    ∃ framed incoming response,
      [drew challenge, ⟨.next framed, .ok incoming⟩].Sublist thread.history ∧
      decode incoming = .ok response ∧
      response.payload = (authenticationMac sha256 psk challenge).bytes ∧
      ∀ known, drew known ∈ thread.history → known = challenge := by
  obtain ⟨framed, program, finished, drawn⟩ := accepts
  have consumed := follows.consumed
  rw [program, finished] at consumed
  obtain ⟨id, own, encoded, incoming, response, accepted, history, reads, kind, sameId, payload⟩ :=
    authenticateBroker_done consumed
  have only (known : FixedBytes 32) (member : drew known ∈ thread.history) : known = own := by
    rw [history] at member
    simp only [drew, List.mem_cons, List.not_mem_nil, or_false] at member
    rcases member with impossible | same | impossible | impossible | impossible
    · cases impossible
    · cases same
      rfl
    · cases impossible
    · cases impossible
    · cases impossible
  cases only challenge drawn
  refine ⟨framed, incoming, response, ?_, reads, payload, only⟩
  rw [history]
  exact .cons _ (.cons_cons _ (.cons _ (.cons_cons _ (.cons _ .slnil))))

end Connections

/-! ## One connection of each side, and a network that passes frames on -/

namespace Sample

def psk : FixedBytes 32 := .fill 32 1

def challenge : FixedBytes 32 := .fill 32 2

def linkId : MessageId := ⟨.fill 16 3⟩

/-- SHA-256 on the two inputs of this exchange, which differ in their length. -/
def sha256 (input : Bytes) : FixedBytes 32 :=
  if input.length = 121 then
    ⟨[0xc0, 0x2c, 0x5b, 0x3c, 0x5e, 0x28, 0x1c, 0x99, 0x33, 0x7d, 0x4, 0x3b, 0x40, 0x99, 0x16, 0x84,
      0xee, 0xe1, 0x90, 0x5e, 0x7a, 0x59, 0x4b, 0x5a, 0xb5, 0xd0, 0x71, 0x3f, 0xa2, 0x74, 0x63, 0xf3], rfl⟩
  else
    ⟨[0xe2, 0x13, 0x72, 0xb7, 0xd4, 0x1b, 0x4, 0xb4, 0xa8, 0x18, 0x72, 0xfd, 0x26, 0xcf, 0xb, 0x90,
      0xc8, 0x1, 0x5f, 0x1e, 0x24, 0x13, 0x6c, 0x71, 0x99, 0x66, 0x3a, 0xb1, 0x41, 0x53, 0xb2, 0xeb], rfl⟩

def challengeFrame : LinkFrame :=
  ⟨.authChallenge, linkId, challenge.bytes, by decide, fun bare => nomatch bare⟩

def responseFrame : LinkFrame :=
  ⟨.authResponse, linkId, (authenticationMac sha256 psk challenge).bytes, by
    rw [FixedBytes.length_bytes]; decide, fun bare => nomatch bare⟩

def okFrame : LinkFrame := ⟨.authOk, linkId, [], Nat.zero_le _, fun _ => rfl⟩

def draws (event : authInterface.Event) : Bool :=
  match event.call with
  | .fill => true
  | _ => false

def computes (event : authInterface.Event) : Bool :=
  match event.call with
  | .authenticationMac secret known => secret = psk ∧ known = challenge
  | _ => false

/-- Connection 0 is that of `cad`; what one side has sent arrives at the other. -/
def relay : Answers authInterface := fun call log =>
  match call with
  | .randomLinkId => .ok linkId
  | .fill => if log.any draws || log.any computes then .error .authentication else .ok challenge
  | .authenticationMac secret known => .ok (authenticationMac sha256 secret known)
  | .send .. => .ok ()
  | .next framed =>
      if log.any computes then
        .ok (if framed = 0 then responseFrame.encoded else okFrame.encoded)
      else if framed = 0 then .error .authentication
      else if log.any draws then .ok challengeFrame.encoded
      else .error .authentication

def completed (thread : Thread authInterface Unit) : Bool :=
  match thread.left with
  | .done _ => thread.history.any (isDraw challenge)
  | _ => false

end Sample

end SecurePubSub.Link
