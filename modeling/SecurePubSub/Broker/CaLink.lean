import SecurePubSub.Broker.Router
import SecurePubSub.Link.Pending

namespace SecurePubSub.Broker

open SecurePubSub.Data SecurePubSub.Protocol SecurePubSub.Link

/-! The Broker's end of the link to the CA, one round of its session loop at a time.

A round changes the state, has frames to send and may end the session. What the
rounds did is recorded: every request taken from the channel, with the id that it
was sent under, and every delivery that the router accepted.
-/

/-- What outlives a session, with the record of the rounds so far. -/
structure CaLink where
  router : Router
  pending : PendingFrames LinkFrame
  acquiredDeliveries : DedupWindow
  taken : List (Option MessageId × Bytes)
  routed : List LinkFrame

structure CaRound where
  link : CaLink
  frames : List LinkFrame
  closes : Bool

namespace CaLink

/-- The link of a new process, which knows nothing of earlier ones. -/
def new (router : Router) (pendingDepth dedupDepth : Nat) : CaLink :=
  ⟨router, .new pendingDepth, .new dedupDepth, [], []⟩

variable (link : CaLink)

/-- Sends everything that is pending, in a new session or at a tick of the retry timer. -/
def resend : CaRound := ⟨link, link.pending.snapshot, false⟩

/-- The request at the front of the channel was taken and is sent under the id drawn for it. -/
def send (request : Bytes) (draw : Option MessageId) : CaRound :=
  let lost : CaRound := ⟨{ link with taken := link.taken ++ [(none, request)] }, [], false⟩
  match draw with
  | none => lost
  | some id =>
      match LinkFrame.build .request id request with
      | .error _ => lost
      | .ok frame =>
          match link.pending.insert id frame with
          | .error _ => lost
          | .ok pending =>
              ⟨{ link with pending, taken := link.taken ++ [(some id, request)] }, [frame], false⟩

/-- Takes the next request, which happens only while nothing is pending. -/
def takeRequest (draw : Option MessageId) : CaRound :=
  if link.pending.isEmpty = true ∧ link.pending.isFull = false then
    match link.router.caRequests.frames with
    | [] => ⟨link, [], false⟩
    | request :: rest =>
        let caRequests := { link.router.caRequests with frames := rest }
        { link with router := { link.router with caRequests } }.send request draw
  else ⟨link, [], false⟩

def onDelivery (frame : LinkFrame) : CaRound :=
  if link.acquiredDeliveries.contains frame.id then ⟨link, [LinkFrame.ack frame.id], false⟩
  else
    let answer := link.router.routeCaDelivery frame.payload
    let later := { link with router := answer.2 }
    match answer.1 with
    | .error _ => ⟨later, [], true⟩
    | .ok () =>
        let later := { later with routed := link.routed ++ [frame] }
        match link.acquiredDeliveries.insert frame.id with
        | .error _ => ⟨later, [], true⟩
        | .ok acquiredDeliveries =>
            ⟨{ later with acquiredDeliveries }, [LinkFrame.ack frame.id], false⟩

def onFrame (frame : LinkFrame) : CaRound :=
  match frame.kind with
  | .ack => ⟨{ link with pending := link.pending.acknowledge frame.id }, [], false⟩
  | .delivery => link.onDelivery frame
  | _ => ⟨link, [], true⟩

def onBytes (bytes : Bytes) : CaRound :=
  match decode bytes with
  | .error _ => ⟨link, [], true⟩
  | .ok frame => link.onFrame frame

@[simp] theorem onBytes_encoded (frame : LinkFrame) :
    link.onBytes frame.encoded = link.onFrame frame := by
  rw [onBytes, frame.decode_encoded]

/-- The queue of the delivery's recipient has room for it. -/
def Fits (frame : LinkFrame) : Prop :=
  ∃ recipient, Router.deliveryRecipient frame.payload = .ok recipient ∧
    link.router.hasRoom recipient = true

variable {link : CaLink}

/-- A delivery is known already, or it fits and is routed, or it ends the session. -/
theorem onDelivery_cases (positive : 0 < link.acquiredDeliveries.maximum) (frame : LinkFrame) :
    (link.acquiredDeliveries.contains frame.id = true ∧
      link.onDelivery frame = ⟨link, [LinkFrame.ack frame.id], false⟩) ∨
    (link.acquiredDeliveries.contains frame.id = false ∧ link.Fits frame ∧
      ∃ acquired, link.acquiredDeliveries.insert frame.id = .ok acquired ∧
        link.onDelivery frame =
          ⟨{ link with
              router := (link.router.routeCaDelivery frame.payload).2
              acquiredDeliveries := acquired
              routed := link.routed ++ [frame] }, [LinkFrame.ack frame.id], false⟩) ∨
    (link.acquiredDeliveries.contains frame.id = false ∧ ¬ link.Fits frame ∧
      link.onDelivery frame =
        ⟨{ link with router := (link.router.routeCaDelivery frame.payload).2 }, [], true⟩) := by
  have fits : link.Fits frame ↔ (link.router.routeCaDelivery frame.payload).1 = .ok () :=
    Router.routeCaDelivery_eq_ok.symm
  obtain ⟨acquired, recorded, _⟩ :=
    @DedupWindow.insert_eq_ok link.acquiredDeliveries positive frame.id
  rw [fits]
  unfold onDelivery
  cases known : link.acquiredDeliveries.contains frame.id with
  | true => exact .inl ⟨rfl, rfl⟩
  | false =>
      cases answer : (link.router.routeCaDelivery frame.payload).1 with
      | error fault => exact .inr (.inr ⟨rfl, nofun, by simp [answer]⟩)
      | ok _ => exact .inr (.inl ⟨rfl, rfl, acquired, recorded, by simp [answer, recorded]⟩)

/-- Taking a request does nothing, or it makes the request at the front of the channel the only
one that is pending. -/
theorem takeRequest_cases (id : MessageId)
    (short : ∀ request ∈ link.router.caRequests.frames, request.length ≤ maxFrameLen) :
    (link.takeRequest (some id) = ⟨link, [], false⟩ ∧
      (link.pending.entries ≠ [] ∨ link.pending.maximum = 0 ∨
        link.router.caRequests.frames = [])) ∨
    ∃ request rest frame pending, link.pending.entries = [] ∧ 0 < link.pending.maximum ∧
      link.router.caRequests.frames = request :: rest ∧
      frame.kind = .request ∧ frame.id = id ∧ frame.payload = request ∧
      pending.maximum = link.pending.maximum ∧ pending.entries = [(id, frame)] ∧
      link.takeRequest (some id) =
        ⟨{ link with
            router := { link.router with
              caRequests := { link.router.caRequests with frames := rest } }
            pending
            taken := link.taken ++ [(some id, request)] }, [frame], false⟩ := by
  have free : link.pending.isFull = false ↔ link.pending.entries.length < link.pending.maximum := by
    simp [PendingFrames.isFull, PendingFrames.len_eq]
  unfold takeRequest
  by_cases ready : link.pending.isEmpty = true ∧ link.pending.isFull = false
  · rw [if_pos ready]
    have nothing := PendingFrames.isEmpty_iff.mp ready.1
    have room := free.mp ready.2
    cases waiting : link.router.caRequests.frames with
    | nil => exact .inl ⟨rfl, .inr (.inr rfl)⟩
    | cons request rest =>
        have fits : request.length ≤ maxFrameLen :=
          short request (by rw [waiting]; exact List.mem_cons_self)
        have built := LinkFrame.build_short id fits (show FrameKind.request.bare = false from rfl)
        obtain ⟨pending, inserted, maximum, entries⟩ :=
          @PendingFrames.insert_eq_ok _ link.pending id ⟨.request, id, request, fits, nofun⟩
            (by simp [nothing]) room
        refine .inr ⟨request, rest, _, pending, nothing, by simpa [nothing] using room, rfl, rfl,
          rfl, rfl, maximum, by rw [entries, nothing]; rfl, ?_⟩
        simp only [send, built, inserted]
  · rw [if_neg ready]
    refine .inl ⟨rfl, ?_⟩
    by_contra blocked
    simp only [not_or, not_not] at blocked
    obtain ⟨nothing, maximum, _⟩ := blocked
    refine ready ⟨PendingFrames.isEmpty_iff.mpr nothing, free.mpr ?_⟩
    rw [nothing]
    exact Nat.pos_of_ne_zero maximum

/-! ## A retransmitted snapshot -/

end CaLink

/-! ## A full queue in front of one with room -/

namespace Sample

def deliveryTo (number : UInt8) : Bytes :=
  { sampleHeader with recipient := ⟨.fill 16 number⟩ }.frame [42] (.fill tagLen 0)
    (.fill signatureLen 0)

/-- Every queue holds one delivery and that of agent 1 is full. -/
def blocked : CaLink :=
  .new (Router.routeCaDelivery (.withLimits 1 1 1 1) (deliveryTo 1)).2 1 2

end Sample

end SecurePubSub.Broker
