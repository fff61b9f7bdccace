import SecurePubSub.Agent.ReplayCache

namespace SecurePubSub.AgentCore

open SecurePubSub.Data SecurePubSub.Protocol SecurePubSub.Authority

/-! Runs of `receive` calls of one Agent on one replay protector. -/

/-- The arguments of one call. -/
structure ReceiveCall where
  frame : Bytes
  expectedHandler : HandlerId
  nowSeconds : UInt64

section Runs

variable {R : Type} (suite : CryptoSuite) (protector : ReplayProtector R) (agent : Agent)

def receives : List ReceiveCall → R → List (Except Error Delivery) × R
  | [], replay => ([], replay)
  | call :: rest, replay =>
      let (result, replay) :=
        receive suite protector agent call.frame call.expectedHandler call.nowSeconds replay
      let (results, replay) := receives rest replay
      (result :: results, replay)

/-- A publication response to this Agent under the CA's signature, for the expected handler. -/
structure CaDelivery (frame : Bytes) (expectedHandler : HandlerId) (envelope : EnvelopeRef) :
    Prop where
  parsed : parseEnvelope frame = .ok envelope
  recipient : envelope.recipient = agent.id
  messageType : envelope.messageType = .publicationResponse
  handler : envelope.handler = expectedHandler
  nonempty : expectedHandler ≠ .none
  key : suite.decodesKey agent.ca.ed25519 = true
  signed : suite.verifyStrict agent.ca.ed25519 envelope.signedBytes envelope.signature = true

/-- The call at a position of a run returned a delivery of the session of a sender. -/
def Receives (calls : List ReceiveCall) (replay : R) (index : Nat) (sender : AgentId)
    (session : SessionId) (nowSeconds : UInt64) : Prop :=
  ∃ call delivery envelope, calls[index]? = some call ∧ call.nowSeconds = nowSeconds ∧
    (receives suite protector agent calls replay).1[index]? = some (.ok delivery) ∧
    parseEnvelope call.frame = .ok envelope ∧ envelope.sender = sender ∧
    envelope.sessionId = session

/-- Foreign frames change nothing, and a delivery is accepted once in each window. -/
structure ReceivesOnce (ttlSeconds : R → UInt64) : Prop where
  unchanged : ∀ frame expectedHandler nowSeconds replay,
    (¬ ∃ envelope, CaDelivery suite agent frame expectedHandler envelope) →
    (receive suite protector agent frame expectedHandler nowSeconds replay).2 = replay
  once : ∀ calls replay, (calls.map ReceiveCall.nowSeconds).Pairwise (· ≤ ·) →
    ∀ first second sender session nowSeconds laterSeconds, first ≠ second →
    Receives suite protector agent calls replay first sender session nowSeconds →
    nowSeconds ≤ laterSeconds → laterSeconds < saturatingAdd nowSeconds (ttlSeconds replay) →
    ¬ Receives suite protector agent calls replay second sender session laterSeconds

end Runs

section Window

variable {R : Type} {suite : CryptoSuite} {protector : ReplayProtector R} {agent : Agent}
  {ttlSeconds : R → UInt64} {holds : R → AgentId → SessionId → UInt64 → Prop} {replay : R}
  {call : ReceiveCall} {calls : List ReceiveCall} {frame : Bytes} {expectedHandler : HandlerId}
  {nowSeconds laterSeconds expires : UInt64} {index : Nat} {sender : AgentId} {session : SessionId}

theorem caDelivery_iff {envelope : EnvelopeRef} :
    CaDelivery suite agent frame expectedHandler envelope ↔
      authenticate suite agent frame expectedHandler = .ok envelope := by
  rw [authenticate_eq_ok]
  constructor
  · intro delivery
    exact ⟨delivery.key, delivery.parsed, delivery.recipient, delivery.messageType,
      delivery.handler, delivery.nonempty, delivery.signed⟩
  · intro ⟨key, parsed, recipient, messageType, handler, nonempty, signed⟩
    exact ⟨parsed, recipient, messageType, handler, nonempty, key, signed⟩

/-- A call either leaves the protector alone and fails, or asks it about the frame's session. -/
theorem receive_cases (suite : CryptoSuite) (protector : ReplayProtector R) (agent : Agent)
    (frame : Bytes) (expectedHandler : HandlerId) (nowSeconds : UInt64) (replay : R) :
    (∃ error, receive suite protector agent frame expectedHandler nowSeconds replay =
      (.error error, replay)) ∨
    ∃ envelope, CaDelivery suite agent frame expectedHandler envelope ∧
      (receive suite protector agent frame expectedHandler nowSeconds replay).2 =
        (protector.checkAndMark envelope.sender envelope.sessionId nowSeconds replay).2 ∧
      ∀ {delivery}, (receive suite protector agent frame expectedHandler nowSeconds replay).1 =
        .ok delivery →
        (protector.checkAndMark envelope.sender envelope.sessionId nowSeconds replay).1 = .ok () := by
  cases checked : authenticate suite agent frame expectedHandler with
  | error error =>
      refine .inl ⟨error, ?_⟩
      rw [receive, checked]
  | ok envelope =>
      refine .inr ⟨envelope, caDelivery_iff.mpr checked, ?_⟩
      rcases marked : protector.checkAndMark envelope.sender envelope.sessionId nowSeconds replay
        with ⟨result, after⟩
      rw [receive, checked]
      simp only [marked]
      cases result with
      | error error => exact ⟨rfl, fun received => by cases received⟩
      | ok passed => exact ⟨rfl, fun _ => rfl⟩

theorem Receives.cons (received : Receives suite protector agent (call :: calls) replay
      (index + 1) sender session laterSeconds) :
    Receives suite protector agent calls
      (receive suite protector agent call.frame call.expectedHandler call.nowSeconds replay).2
      index sender session laterSeconds := by
  obtain ⟨later, delivery, envelope, found, time, result, parsed⟩ := received
  exact ⟨later, delivery, envelope, found, time, result, parsed⟩

theorem Receives.head (received : Receives suite protector agent (call :: calls) replay 0 sender
      session nowSeconds) :
    call.nowSeconds = nowSeconds ∧
      (protector.checkAndMark sender session nowSeconds replay).1 = .ok () ∧
      (receive suite protector agent call.frame call.expectedHandler nowSeconds replay).2 =
        (protector.checkAndMark sender session nowSeconds replay).2 := by
  obtain ⟨found, delivery, envelope, head, rfl, result, parsed, rfl, rfl⟩ := received
  obtain rfl : call = found := Option.some.inj head
  have returned : (receive suite protector agent call.frame call.expectedHandler call.nowSeconds
      replay).1 = .ok delivery := Option.some.inj result
  obtain ⟨error, refused⟩ | ⟨other, authentic, left, accepts⟩ :=
    receive_cases suite protector agent call.frame call.expectedHandler call.nowSeconds replay
  · rw [refused] at returned
    cases returned
  · obtain rfl : other = envelope := Except.ok.inj (authentic.parsed.symm.trans parsed)
    exact ⟨rfl, accepts returned, left⟩

theorem receive_unchanged
    (foreign : ¬ ∃ envelope, CaDelivery suite agent frame expectedHandler envelope) :
    (receive suite protector agent frame expectedHandler nowSeconds replay).2 = replay := by
  obtain ⟨error, refused⟩ | ⟨envelope, authentic, _⟩ :=
    receive_cases suite protector agent frame expectedHandler nowSeconds replay
  · rw [refused]
  · exact absurd ⟨envelope, authentic⟩ foreign

theorem receive_holds (remembers : Remembers protector ttlSeconds holds)
    (held : holds replay sender session expires) (live : nowSeconds < expires) :
    holds (receive suite protector agent frame expectedHandler nowSeconds replay).2 sender session
      expires := by
  obtain ⟨error, refused⟩ | ⟨envelope, _, left, _⟩ :=
    receive_cases suite protector agent frame expectedHandler nowSeconds replay
  · rw [refused]
    exact held
  · rw [left]
    exact remembers.kept _ _ held live

theorem receive_ttl (remembers : Remembers protector ttlSeconds holds) :
    ttlSeconds (receive suite protector agent frame expectedHandler nowSeconds replay).2 =
      ttlSeconds replay := by
  obtain ⟨error, refused⟩ | ⟨envelope, _, left, _⟩ :=
    receive_cases suite protector agent frame expectedHandler nowSeconds replay
  · rw [refused]
  · rw [left]
    exact remembers.ttl _ _ _

theorem Receives.time_mem (received : Receives suite protector agent calls replay index sender
      session nowSeconds) : nowSeconds ∈ calls.map ReceiveCall.nowSeconds := by
  obtain ⟨call, _, _, found, rfl, _⟩ := received
  exact List.mem_map_of_mem (List.mem_of_getElem? found)

/-- While a session is remembered, no call of a run returns a delivery of it. -/
theorem Receives.expired (remembers : Remembers protector ttlSeconds holds)
    (held : holds replay sender session expires)
    (ordered : (calls.map ReceiveCall.nowSeconds).Pairwise (· ≤ ·))
    (received : Receives suite protector agent calls replay index sender session laterSeconds) :
    expires ≤ laterSeconds := by
  induction calls generalizing replay index with
  | nil =>
      obtain ⟨call, _, _, found, _⟩ := received
      cases found
  | cons call rest ih =>
      apply UInt64.not_lt.mp
      intro live
      cases index with
      | zero => exact remembers.refused held live received.head.2.1
      | succ index =>
          obtain ⟨first, others⟩ := List.pairwise_cons.mp ordered
          have before := first laterSeconds received.cons.time_mem
          have kept : holds (receive suite protector agent call.frame call.expectedHandler
              call.nowSeconds replay).2 sender session expires :=
            receive_holds remembers held (UInt64.lt_of_le_of_lt before live)
          exact UInt64.not_lt.mpr (ih kept others received.cons) live

theorem Receives.once (remembers : Remembers protector ttlSeconds holds)
    (ordered : (calls.map ReceiveCall.nowSeconds).Pairwise (· ≤ ·)) {first second : Nat}
    (before : first < second)
    (accepted : Receives suite protector agent calls replay first sender session nowSeconds)
    (repeated : Receives suite protector agent calls replay second sender session laterSeconds) :
    saturatingAdd nowSeconds (ttlSeconds replay) ≤ laterSeconds := by
  induction calls generalizing replay first second with
  | nil =>
      obtain ⟨call, _, _, found, _⟩ := accepted
      cases found
  | cons call rest ih =>
      obtain ⟨second, rfl⟩ := Nat.exists_eq_add_one.mpr (Nat.zero_lt_of_lt before)
      have others := (List.pairwise_cons.mp ordered).2
      cases first with
      | zero =>
          obtain ⟨rfl, marked, left⟩ := accepted.head
          have held := remembers.marked marked
          rw [← left] at held
          exact repeated.cons.expired remembers held others
      | succ first =>
          have later := ih others (Nat.lt_of_succ_lt_succ before) accepted.cons repeated.cons
          rwa [receive_ttl remembers] at later

theorem Receives.ordered (ordered : (calls.map ReceiveCall.nowSeconds).Pairwise (· ≤ ·))
    {first second : Nat} (before : first < second)
    (accepted : Receives suite protector agent calls replay first sender session nowSeconds)
    (repeated : Receives suite protector agent calls replay second sender session laterSeconds) :
    nowSeconds ≤ laterSeconds := by
  obtain ⟨call, _, _, found, rfl, _⟩ := accepted
  obtain ⟨later, _, _, foundLater, rfl, _⟩ := repeated
  obtain ⟨inside, rfl⟩ := List.getElem?_eq_some_iff.mp found
  obtain ⟨insideLater, rfl⟩ := List.getElem?_eq_some_iff.mp foundLater
  have both := List.pairwise_iff_getElem.mp ordered first second (by simpa using inside)
    (by simpa using insideLater) before
  simpa using both

theorem Remembers.receivesOnce (suite : CryptoSuite) (agent : Agent)
    (remembers : Remembers protector ttlSeconds holds) :
    ReceivesOnce suite protector agent ttlSeconds where
  unchanged _ _ _ _ foreign := receive_unchanged foreign
  once := by
    intro calls replay ordered first second sender session nowSeconds laterSeconds different
      accepted notBefore inside repeated
    rcases Nat.lt_or_gt_of_ne different with before | after
    · exact UInt64.not_lt.mpr (accepted.once remembers ordered before repeated) inside
    · -- the two calls are made at the same time
      have same := UInt64.le_antisymm notBefore (repeated.ordered ordered after accepted)
      subst same
      exact UInt64.not_lt.mpr (repeated.once remembers ordered after accepted) inside

/-- Whatever frames an Agent is given, those that are no deliveries of its CA leave either kind
of replay cache as it is, and a session of a sender is accepted once in its window. -/
theorem deliveries_once_per_window (suite : CryptoSuite) (agent : Agent) :
    (∀ slots, ReceivesOnce suite (FixedReplayCache.protector slots) agent
      FixedReplayCache.ttlSeconds) ∧
      ReceivesOnce suite replayCacheProtector agent ReplayCache.ttlSeconds := by
  constructor
  · intro slots
    exact (FixedReplayCache.remembers slots).receivesOnce suite agent
  · exact replayCache_remembers.receivesOnce suite agent

theorem Receives.of_computed (call : ReceiveCall)
    (called : calls[index]? = some call)
    (returned : ((receives suite protector agent calls replay).1[index]?.bind
      Except.toOption).isSome = true)
    (parses : (parseEnvelope call.frame).toOption.map
      (fun envelope => (envelope.sender, envelope.sessionId)) = some (sender, session)) :
    Receives suite protector agent calls replay index sender session call.nowSeconds := by
  obtain ⟨delivery, found⟩ := Option.isSome_iff_exists.mp returned
  obtain ⟨result, at', ok⟩ := Option.bind_eq_some_iff.mp found
  cases result with
  | error error => cases ok
  | ok delivery =>
      cases parsed : parseEnvelope call.frame with
      | error error =>
          rw [parsed] at parses
          cases parses
      | ok envelope =>
          rw [parsed] at parses
          cases parses
          exact ⟨call, delivery, envelope, called, rfl, at', parsed, rfl, rfl⟩

end Window

/-! ## One session under two senders -/

namespace Sample

def subscriber : Agent := ⟨⟨.fill 16 1⟩, ⟨.fill 32 1, .fill 32 1⟩, ⟨.fill 32 7, .fill 32 8⟩⟩

def handler : HandlerId := ⟨.fill 16 9⟩

def session : SessionId := ⟨.fill 16 10⟩

/-- A response under the CA's signature that names any sender. -/
def response (sender : AgentId) : Bytes :=
  (((encodeResponse maxPlaintextLen ⟨5⟩ ⟨.fill 16 2⟩ [42]).bind fun plaintext =>
    CryptoSuite.transparent.sealInPlace maxFrameLen plaintext .publicationResponse sender
      subscriber.id handler session (.fill 32 4) (.fill 32 3) subscriber.keys.x25519
      subscriber.ca.ed25519).toOption).getD []

def calls : List ReceiveCall :=
  [⟨response .ca, handler, 5⟩, ⟨response ⟨.fill 16 2⟩, handler, 6⟩]

end Sample

/-- The window belongs to a session of one sender, not to the session alone. -/
theorem session_of_two_senders :
    ¬ ∀ (suite : CryptoSuite) (agent : Agent) (slots : Nat) (calls : List ReceiveCall)
      (replay : FixedReplayCache slots), (calls.map ReceiveCall.nowSeconds).Pairwise (· ≤ ·) →
      ∀ first second sender otherSender session nowSeconds laterSeconds, first ≠ second →
      Receives suite (FixedReplayCache.protector slots) agent calls replay first sender session
        nowSeconds →
      nowSeconds ≤ laterSeconds → laterSeconds < saturatingAdd nowSeconds replay.ttlSeconds →
      ¬ Receives suite (FixedReplayCache.protector slots) agent calls replay second otherSender
        session laterSeconds := by
  intro once
  have first : Receives .transparent (FixedReplayCache.protector 2) Sample.subscriber Sample.calls
      (.new 2 60) 0 .ca Sample.session 5 :=
    .of_computed ⟨Sample.response .ca, Sample.handler, 5⟩ rfl (by decide +kernel) (by decide +kernel)
  have second : Receives .transparent (FixedReplayCache.protector 2) Sample.subscriber Sample.calls
      (.new 2 60) 1 ⟨.fill 16 2⟩ Sample.session 6 :=
    .of_computed ⟨Sample.response ⟨.fill 16 2⟩, Sample.handler, 6⟩ rfl (by decide +kernel)
      (by decide +kernel)
  exact once _ _ 2 _ _ (by decide +kernel) 0 1 _ _ _ _ _ (by decide) first (by decide)
    (by decide) second

end SecurePubSub.AgentCore
