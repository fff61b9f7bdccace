import SecurePubSub.Agent.Interchange
import SecurePubSub.Agent.Subscribing
import SecurePubSub.Authority.Publishing

namespace SecurePubSub.AgentCore

open SecurePubSub.Data SecurePubSub.Protocol SecurePubSub.Embassy SecurePubSub.Authority

/-! A subscriber is handed what the CA publishes to it.

A frame that the CA seals for the subscription is received if its session is new to the
replay cache and the cache has a slot for it.
-/

namespace FixedReplayCache

variable {slots : Nat} {cache : FixedReplayCache slots} {sender : AgentId} {session : SessionId}
  {nowSeconds : UInt64}

/-- The sessions that the cache remembers. -/
def sessions (cache : FixedReplayCache slots) : List SessionId :=
  cache.occupied.map ReplayEntry.session

theorem sessions_reclaim : (cache.reclaim nowSeconds).sessions.Sublist cache.sessions := by
  unfold sessions
  rw [occupied_reclaim]
  exact List.filter_sublist.map _

/-- A new session is accepted while there is room, and no other session is remembered for it. -/
theorem checkAndMark_new (new : session ∉ cache.sessions) (room : cache.sessions.length < slots) :
    (cache.checkAndMark sender session nowSeconds).1 = .ok () ∧
      (cache.checkAndMark sender session nowSeconds).2.sessions.length ≤
        cache.sessions.length + 1 ∧
      ∀ other ∈ (cache.checkAndMark sender session nowSeconds).2.sessions,
        other = session ∨ other ∈ cache.sessions := by
  have fewer := @sessions_reclaim _ cache nowSeconds
  have absent : (cache.reclaim nowSeconds).contains sender session = false := by
    rw [Bool.eq_false_iff]
    intro present
    obtain ⟨_, filed, key⟩ := List.mem_map.mp (contains_iff.mp present)
    obtain ⟨entry, held, rfl⟩ := List.mem_map.mp filed
    obtain ⟨_, same⟩ := replayKey_inj.mp key
    exact new (fewer.subset (List.mem_map.mpr ⟨entry, held, same⟩))
  have lengths := fewer.length_le
  simp only [sessions, List.length_map] at lengths room
  cases occupied : (cache.reclaim nowSeconds).occupy
      ⟨sender, session, saturatingAdd nowSeconds (cache.reclaim nowSeconds).ttlSeconds⟩ with
  | none =>
      have filled := occupy_eq_none.mp occupied
      omega
  | some after =>
      have result : cache.checkAndMark sender session nowSeconds = (.ok (), after) := by
        simp only [checkAndMark, absent, occupied, Bool.false_eq_true, if_false]
      have added := (occupied_occupy occupied).1.map ReplayEntry.session
      rw [result]
      refine ⟨rfl, ?_, fun other held => ?_⟩
      · have grown := added.length_eq
        simp only [List.length_map, List.length_cons] at grown
        simp only [sessions, List.length_map]
        omega
      · rcases List.mem_cons.mp (added.mem_iff.mp held) with same | old
        · exact .inl same
        · exact .inr (fewer.subset old)

end FixedReplayCache

/-- The session of a frame. -/
def sessionOf (frame : Bytes) : Option SessionId :=
  (parseEnvelope frame).toOption.map (fun envelope => envelope.sessionId)

/-- The CA sealed a publication into the frame for the Agent's subscription. -/
def Carries (authority : CertificateAuthority) (agent : Agent) (typeId : TypeId)
    (handler : HandlerId) (publication : AgentId × Bytes) (frame : Bytes) : Prop :=
  Seals authority ⟨agent.id, handler, typeId, publication.1, publication.2⟩
    (authority.suite.x25519Public agent.keys.x25519) frame

/-- What the subscriber makes of a publication. -/
def deliveryOf (typeId : TypeId) (handler : HandlerId) (publication : AgentId × Bytes) : Delivery :=
  ⟨typeId, publication.1, handler, publication.2⟩

section Receiving

variable {authority : CertificateAuthority} {agent : Agent} {typeId : TypeId} {handler : HandlerId}
  {slots : Nat} {publications : List (AgentId × Bytes)} {frames : List Bytes}

theorem Carries.short {publication : AgentId × Bytes} {frame : Bytes}
    (carries : Carries authority agent typeId handler publication frame) :
    frame.length ≤ maxFrameLen := by
  obtain ⟨header, secret, ciphertext, tag, _, _, _, _, _, sealing, rfl⟩ := carries
  exact sealed_short sealing _

theorem Carries.received {publication : AgentId × Bytes} {frame : Bytes}
    (carries : Carries authority agent typeId handler publication frame)
    (correct : authority.suite.Correct)
    (trusted : agent.ca.ed25519 = authority.suite.verifyingKey authority.keys.signing)
    (nonempty : handler ≠ .none) {cache : FixedReplayCache slots}
    (new : ∀ session ∈ cache.sessions, sessionOf frame ≠ some session)
    (room : cache.sessions.length < slots) (nowSeconds : UInt64) :
    ∃ session later, sessionOf frame = some session ∧
      receive authority.suite (FixedReplayCache.protector slots) agent frame handler nowSeconds
        cache = (.ok (deliveryOf typeId handler publication), later) ∧
      later.sessions.length ≤ cache.sessions.length + 1 ∧
      ∀ other ∈ later.sessions, other = session ∨ other ∈ cache.sessions := by
  obtain ⟨envelope, parsed, receives⟩ := Seals.received carries correct rfl trusted nonempty
  have named : sessionOf frame = some envelope.sessionId := by
    simp [sessionOf, parsed, Except.toOption]
  have unheld : envelope.sessionId ∉ cache.sessions := fun held => new _ held named
  obtain ⟨accepted, grown, held⟩ :=
    @FixedReplayCache.checkAndMark_new _ _ envelope.sender _ nowSeconds unheld room
  have returned := receives (FixedReplayCache.protector slots) nowSeconds cache accepted
  obtain ⟨error, refused⟩ | ⟨other, authentic, left, _⟩ :=
    receive_cases authority.suite (FixedReplayCache.protector slots) agent frame handler nowSeconds
      cache
  · rw [refused] at returned
    cases returned
  · cases authentic.parsed.symm.trans parsed
    exact ⟨_, _, named, Prod.ext returned left, grown, held⟩

end Receiving

section Subscribing

variable {ρ State Failure : Type} {random : CryptoRandom ρ} {authority : CertificateAuthority}
  {agent : Agent} {io : EmbassyIo State Failure} {written remaining : State → Bytes}
  {slots outputLen reads : Nat} {typeId : TypeId} {handler : HandlerId}
  {predicate : List ClauseRef} {rng : ρ} {stream : State} {request : Bytes}
  {publications : List (AgentId × Bytes)} {frames : List Bytes}

end Subscribing

namespace Sample

/-- What the CA seals for the sample subscription, drawing from a state of its generator. -/
def sealing (publication : AgentId × Bytes) (state : Nat) : Except Error Bytes :=
  (Authority.Sample.authority.delivery .counting publication.1 subscriber.id handler ⟨5⟩
    publication.2 (CryptoSuite.transparent.x25519Public subscriber.keys.x25519) state).1

def publications : List (AgentId × Bytes) := [(⟨.fill 16 2⟩, [1, 2]), (⟨.fill 16 3⟩, [])]

def frames : List Bytes :=
  (List.zip publications [100, 200]).map (fun (publication, state) =>
    (sealing publication state).toOption.getD [])

theorem carries_sealing {publication : AgentId × Bytes} {state : Nat}
    (made : (sealing publication state).toOption.isSome = true) :
    Carries Authority.Sample.authority subscriber ⟨5⟩ handler publication
      ((sealing publication state).toOption.getD []) := by
  cases result : sealing publication state with
  | error error =>
      rw [result] at made
      cases made
  | ok frame => exact delivery_eq_ok result

theorem carried :
    List.Forall₂ (Carries Authority.Sample.authority subscriber ⟨5⟩ handler) publications frames :=
  .cons (carries_sealing (by decide +kernel)) (.cons (carries_sealing (by decide +kernel)) .nil)

end Sample

end SecurePubSub.AgentCore
