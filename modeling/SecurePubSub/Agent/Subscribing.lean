import SecurePubSub.Agent.Receiving
import SecurePubSub.Embassy.Transport

namespace SecurePubSub.AgentCore

open SecurePubSub.Data SecurePubSub.Protocol SecurePubSub.Embassy

/-! The loop that follows a subscription over a transport.

A call of the transport that never completes is `none`. The clock is read once for
each frame received, and the loop takes one of the readings a round: when they are
used up it still goes on.
-/

/-- Framed transport; `receive` returns what it claims to have put into a buffer of the length. -/
structure AsyncTransport (T Failure : Type) where
  send : Bytes → T → Option (Except Failure Unit × T)
  receive : Nat → T → Option (Except Failure Bytes × T)

/-- Failure of a subscription. -/
inductive SubscriptionError (Failure : Type) where
  | transport (reason : Failure)
  | protocol (fault : Error)
deriving DecidableEq

/-- How far a subscription got: what its handler was called with, and how it ended unless it still
goes on or waits. -/
structure Followed (T R Failure : Type) where
  handed : List Delivery
  ended : Option (SubscriptionError Failure)
  stream : T
  replay : R

section Subscriptions

variable {ρ T R Failure : Type} (suite : CryptoSuite) (random : CryptoRandom ρ) (agent : Agent)
  (transport : AsyncTransport T Failure) (protector : ReplayProtector R) (outputLen : Nat)
  (typeId : TypeId) (handler : HandlerId) (predicate : List ClauseRef)

/-- One round of both subscriptions: receives a frame, and checks and opens the delivery in it. -/
def nextDelivery (nowSeconds : UInt64) (stream : T) (replay : R) :
    Option (Except (SubscriptionError Failure) Delivery × T × R) :=
  match transport.receive outputLen stream with
  | none => none
  | some (.error reason, stream) => some (.error (.transport reason), stream, replay)
  | some (.ok frame, stream) =>
      if outputLen < frame.length then some (.error (.protocol .oversized), stream, replay)
      else
        match receive suite protector agent frame handler nowSeconds replay with
        | (.error fault, replay) => some (.error (.protocol fault), stream, replay)
        | (.ok delivery, replay) =>
            if delivery.typeId ≠ typeId then
              some (.error (.protocol .wrongMessageType), stream, replay)
            else some (.ok delivery, stream, replay)

/-- The loop of a permanent subscription. -/
def followDeliveries : List UInt64 → T → R → Followed T R Failure
  | [], stream, replay => ⟨[], none, stream, replay⟩
  | nowSeconds :: later, stream, replay =>
      match nextDelivery suite agent transport protector outputLen typeId handler nowSeconds stream
        replay with
      | none => ⟨[], none, stream, replay⟩
      | some (.error failure, stream, replay) => ⟨[], some failure, stream, replay⟩
      | some (.ok delivery, stream, replay) =>
          let rest := followDeliveries later stream replay
          { rest with handed := delivery :: rest.handed }

/-- Registers a subscription once, then calls the handler for every matching delivery. -/
def subscribePermanent (times : List UInt64) (stream : T) (replay : R) (state : ρ) :
    Followed T R Failure :=
  match (subscribePermanentInto suite random agent outputLen typeId handler predicate state).1 with
  | .error fault => ⟨[], some (.protocol fault), stream, replay⟩
  | .ok request =>
      match transport.send request stream with
      | none => ⟨[], none, stream, replay⟩
      | some (.error reason, stream) => ⟨[], some (.transport reason), stream, replay⟩
      | some (.ok (), stream) =>
          followDeliveries suite agent transport protector outputLen typeId handler times stream
            replay

/-- Registers a one-shot subscription and waits for its first matching delivery. -/
def subscribeOnce (nowSeconds : UInt64) (stream : T) (replay : R) (state : ρ) :
    Option (Except (SubscriptionError Failure) Delivery × T × R) :=
  match (subscribeInto suite random agent outputLen typeId handler predicate state).1 with
  | .error fault => some (.error (.protocol fault), stream, replay)
  | .ok request =>
      match transport.send request stream with
      | none => none
      | some (.error reason, stream) => some (.error (.transport reason), stream, replay)
      | some (.ok (), stream) =>
          nextDelivery suite agent transport protector outputLen typeId handler nowSeconds stream
            replay

end Subscriptions

/-! ## What a transport yields -/

section Following

variable {T R Failure : Type} {suite : CryptoSuite} {agent : Agent}
  {transport : AsyncTransport T Failure} {protector : ReplayProtector R} {outputLen : Nat}
  {typeId : TypeId} {handler : HandlerId} {stream last : T} {frames : List Bytes}
  {ended : Option (SubscriptionError Failure)}

/-- What a round makes of the frame that it received. -/
def checkedType (typeId : TypeId) :
    Except Error Delivery → Except (SubscriptionError Failure) Delivery
  | .error fault => .error (.protocol fault)
  | .ok delivery =>
      if delivery.typeId = typeId then .ok delivery else .error (.protocol .wrongMessageType)

theorem nextDelivery_received {frame : Bytes} {after : T}
    (received : transport.receive outputLen stream = some (.ok frame, after))
    (fits : frame.length ≤ outputLen) (now : UInt64) (replay : R) :
    nextDelivery suite agent transport protector outputLen typeId handler now stream replay =
      some (checkedType typeId (receive suite protector agent frame handler now replay).1, after,
        (receive suite protector agent frame handler now replay).2) := by
  simp only [nextDelivery, received, if_neg (Nat.not_lt.mpr fits)]
  rcases receive suite protector agent frame handler now replay with ⟨result, replayLater⟩
  cases result with
  | error fault => rfl
  | ok delivery => by_cases same : delivery.typeId = typeId <;> simp [checkedType, same]

variable {ρ : Type} {random : CryptoRandom ρ} {predicate : List ClauseRef} {rng : ρ}
  {times : List UInt64} {replay : R}

end Following

end SecurePubSub.AgentCore

/-! ## The Embassy transport -/

namespace SecurePubSub.Embassy.EmbassyIo

open SecurePubSub.Data SecurePubSub.Protocol SecurePubSub.AgentCore

variable {State Failure : Type} {io : EmbassyIo State Failure} {written remaining : State → Bytes}
  {reads outputLen : Nat} {state : State}

/-- The transport over a stream whose buffers are filled with at most `reads` reads each. -/
def transport (io : EmbassyIo State Failure) (reads : Nat) :
    AsyncTransport State (TransportError Failure) where
  send frame state := some (io.send frame state)
  receive outputLen state := io.receive reads outputLen state

/-- Both directions of the stream are apart. -/
structure Duplex (io : EmbassyIo State Failure) (written remaining : State → Bytes) : Prop where
  read : ∀ wanted state, written (io.read wanted state).2 = written state
  writeAll : ∀ bytes state, remaining (io.writeAll bytes state).2 = remaining state
  flush : ∀ state, remaining (io.flush state).2 = remaining state

theorem Duplex.send (duplex : io.Duplex written remaining) (frame : Bytes) (state : State) :
    remaining (io.send frame state).2 = remaining state := by
  unfold EmbassyIo.send
  split
  · rfl
  · have first := duplex.writeAll (beBytes 4 frame.length) state
    rcases wrotePrefix : io.writeAll (beBytes 4 frame.length) state with ⟨_ | _, prefixed⟩
    · rw [wrotePrefix] at first
      simpa [writeFrame, wrotePrefix] using first
    · have second := duplex.writeAll frame prefixed
      rw [wrotePrefix] at first
      rcases wroteFrame : io.writeAll frame prefixed with ⟨_ | _, filled⟩
      · rw [wroteFrame] at second
        simpa [writeFrame, wrotePrefix, wroteFrame] using second.trans first
      · have third := duplex.flush filled
        rw [wroteFrame] at second
        rcases flushed : io.flush filled with ⟨_ | _, after⟩
        · rw [flushed] at third
          simpa [writeFrame, wrotePrefix, wroteFrame, flushed] using
            third.trans (second.trans first)
        · rw [flushed] at third
          simpa [writeFrame, wrotePrefix, wroteFrame, flushed] using
            third.trans (second.trans first)

theorem Duplex.fill (duplex : io.Duplex written remaining) {Error : Type} {failed : Failure → Error}
    {ended : Error} {wanted : Nat} {result : Except Error Bytes} {after : State}
    (filled : io.fill failed ended reads wanted state = some (result, after)) :
    written after = written state := by
  induction reads generalizing wanted state result with
  | zero =>
      cases wanted with
      | zero =>
          cases filled
          rfl
      | succ wanted => cases filled
  | succ reads ih =>
      cases wanted with
      | zero =>
          cases filled
          rfl
      | succ wanted =>
          have kept := duplex.read (wanted + 1) state
          rcases read : io.read (wanted + 1) state with ⟨answer, next⟩
          rw [read] at kept
          unfold ByteReader.fill at filled
          rw [read] at filled
          cases answer with
          | error reason =>
              cases filled
              exact kept
          | ok bytes =>
              cases bytes with
              | nil =>
                  cases filled
                  exact kept
              | cons byte chunk =>
                  obtain ⟨⟨rest, last⟩, others, same⟩ := Option.map_eq_some_iff.mp filled
                  cases same
                  exact (ih others).trans kept

theorem Duplex.receive (duplex : io.Duplex written remaining)
    {result : Except (TransportError Failure) Bytes} {after : State}
    (received : io.receive reads outputLen state = some (result, after)) :
    written after = written state := by
  obtain ⟨⟨frame, last⟩, read, same⟩ := Option.map_eq_some_iff.mp received
  cases same
  unfold readFrame at read
  split at read
  · rename_i bytes prefixed announced
    have kept : written prefixed = written state := duplex.fill announced
    dsimp only at read
    split at read
    · cases read
      exact kept
    · exact (duplex.fill read).trans kept
  · exact duplex.fill read

/-- A buffer that fits every frame is as good as any. -/
theorem receive_large (large : maxFrameLen ≤ outputLen) (state : State) :
    io.receive reads outputLen state = io.receive reads maxFrameLen state := by
  unfold receive readFrame
  congr 1
  split
  · rename_i bytes after announced
    have same : maxFrameLen < beNat bytes ∨ outputLen < beNat bytes ↔
        maxFrameLen < beNat bytes ∨ maxFrameLen < beNat bytes := by omega
    simp only [same]
  · rfl

end SecurePubSub.Embassy.EmbassyIo

namespace SecurePubSub.AgentCore

open SecurePubSub.Data SecurePubSub.Protocol SecurePubSub.Embassy

/-! ## Subscriptions over the Embassy transport -/

section Embassy

variable {ρ R State Failure : Type} {suite : CryptoSuite} {random : CryptoRandom ρ} {agent : Agent}
  {protector : ReplayProtector R} {io : EmbassyIo State Failure} {written remaining : State → Bytes}
  {outputLen reads : Nat} {typeId : TypeId} {handler : HandlerId} {predicate : List ClauseRef}
  {rng : ρ} {stream : State} {request : Bytes}

/-- What is sealed fits in a frame. -/
theorem sealed_short {header : EnvelopeHeader} {secret key : Key32} {plaintext ciphertext : Bytes}
    {tag : FixedBytes tagLen} (sealing : suite.Sealed header secret key plaintext ciphertext tag)
    (signature : FixedBytes signatureLen) :
    (header.frame ciphertext tag signature).length ≤ maxFrameLen := by
  have short := sealing.length_eq ▸ sealing.short
  rw [header.frame_length]
  simp only [frameLen, maxFrameLen, headerLen, maxPlaintextLen, tagLen, signatureLen] at short ⊢
  omega

theorem BuiltFrame.short {built : Request} (frame : BuiltFrame suite agent built request) :
    request.length ≤ maxFrameLen := by
  obtain ⟨⟨header, secret, ciphertext, tag, _, _, _, _, sealing, rfl⟩, _⟩ := frame
  exact sealed_short sealing _

/-- Requests are built in buffers that fit every frame. -/
theorem requestInto_large {messageType : MessageType} {encode : Nat → Except Error Bytes}
    (built : (requestInto suite random agent outputLen messageType handler encode rng).1 =
      .ok request) : maxFrameLen ≤ outputLen := by
  unfold requestInto at built
  split at built
  · cases built
  · omega

theorem subscribeInto_large
    (built : (subscribeInto suite random agent outputLen typeId handler predicate rng).1 =
      .ok request) : maxFrameLen ≤ outputLen := by
  unfold subscribeInto at built
  split at built
  · cases built
  · exact requestInto_large built

/-- A one-shot subscription takes the first frame that arrives and leaves the others unread. -/
theorem subscribeOnce_takes_first (writes : io.Writes written) (delivers : io.Delivers remaining)
    (duplex : io.Duplex written remaining) (enough : maxFrameLen ≤ reads)
    (built : (subscribeInto suite random agent outputLen typeId handler predicate rng).1 =
      .ok request)
    {frame : Bytes} {frames : List Bytes} (bounded : frame.length ≤ maxFrameLen)
    (arrives : remaining stream = framed frame ++ frames.flatMap framed) (now : UInt64)
    (replay : R) :
    ∃ last, written last = written stream ++ framed request ∧
      remaining last = frames.flatMap framed ∧
      subscribeOnce suite random agent (io.transport reads) protector outputLen typeId handler
          predicate now stream replay rng =
        some (checkedType typeId (receive suite protector agent frame handler now replay).1, last,
          (receive suite protector agent frame handler now replay).2) := by
  have short : BuiltFrame suite agent (.subscribe typeId handler predicate) request :=
    build_eq_ok built
  obtain ⟨after, sent, appended⟩ := writes.send short.short stream
  have same := duplex.send request stream
  rw [sent] at same
  obtain ⟨last, received, left⟩ :=
    EmbassyIo.receive_complete delivers enough bounded (same.trans arrives)
  have large := subscribeInto_large built
  rw [← EmbassyIo.receive_large large] at received
  have taken : nextDelivery suite agent (io.transport reads) protector outputLen typeId handler now
      after replay = _ :=
    nextDelivery_received received (Nat.le_trans bounded large) now replay
  refine ⟨last, (duplex.receive received).trans appended, left, ?_⟩
  rw [← taken]
  simp only [subscribeOnce, built, EmbassyIo.transport, sent]

end Embassy

theorem fragmented_duplex (Failure : Type) :
    (EmbassyIo.fragmented Failure).Duplex Prod.snd (fun state => state.1.2) where
  read _ _ := rfl
  writeAll _ _ := rfl
  flush _ := rfl

namespace Sample

def request : Bytes :=
  ((subscribePermanentInto .transparent .counting subscriber maxFrameLen ⟨5⟩ handler []
    0).1.toOption).getD []

theorem built : (subscribePermanentInto .transparent .counting subscriber maxFrameLen ⟨5⟩ handler []
    0).1 = .ok request := by decide +kernel

def onceRequest : Bytes :=
  ((subscribeInto .transparent .counting subscriber maxFrameLen ⟨5⟩ handler [] 0).1.toOption).getD []

/-- A delivery, a frame of no one and another delivery. -/
def interrupted : List Bytes := [response .ca, [1, 2, 3], response ⟨.fill 16 2⟩]

end Sample

/-- The first delivery is returned, and the next one stays on the stream. -/
theorem sample_subscribeOnce_takes_first : ∃ delivery last replay,
    delivery.value = [42] ∧ last.1.2 = framed (Sample.response ⟨.fill 16 2⟩) ∧
      subscribeOnce .transparent .counting Sample.subscriber
          ((EmbassyIo.fragmented Empty).transport maxFrameLen) (FixedReplayCache.protector 2)
          maxFrameLen ⟨5⟩ Sample.handler [] 5 (([1, 2, 200], framed (Sample.response .ca) ++
            framed (Sample.response ⟨.fill 16 2⟩)), []) (.new 2 60) 0 =
        some (.ok delivery, last, replay) := by
  have request : (subscribeInto .transparent .counting Sample.subscriber maxFrameLen ⟨5⟩
      Sample.handler [] 0).1 = .ok Sample.onceRequest := by decide +kernel
  have whole : ((([1, 2, 200] : List Nat), framed (Sample.response .ca) ++
      framed (Sample.response ⟨.fill 16 2⟩)), ([] : Bytes)).1.2 = framed (Sample.response .ca) ++
        [Sample.response ⟨.fill 16 2⟩].flatMap framed := by
    rw [List.flatMap_singleton]
  obtain ⟨last, _, left, taken⟩ := subscribeOnce_takes_first (EmbassyIo.fragmented_writes Empty)
    (EmbassyIo.fragmented_delivers Empty) (fragmented_duplex Empty) (Nat.le_refl _) request
    (by decide +kernel) whole 5 (FixedReplayCache.new 2 60)
  have accepted : (@checkedType (TransportError Empty) ⟨5⟩ (receive .transparent
      (FixedReplayCache.protector 2) Sample.subscriber (Sample.response .ca) Sample.handler 5
        (FixedReplayCache.new 2 60)).1).toOption.map Delivery.value = some [42] := by
    decide +kernel
  generalize checkedType ⟨5⟩ _ = answer at accepted taken
  cases answer with
  | error error => cases accepted
  | ok delivery =>
      exact ⟨delivery, last, _, Option.some.inj accepted, left.trans (List.flatMap_singleton ..),
        taken⟩

end SecurePubSub.AgentCore
