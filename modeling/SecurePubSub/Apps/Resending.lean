import SecurePubSub.Authority.Authenticity
import SecurePubSub.Authority.ReplayWindow
import SecurePubSub.Data.Retransmission

namespace SecurePubSub.Apps

open SecurePubSub.Data SecurePubSub.Protocol SecurePubSub.Authority

/-! Agents that send their requests again after a socket failure.

A write that failed may have reached the Broker, and one that succeeded may be lost with
its connection. Connecting is retried for ever, so each attempt has a connection; what
becomes of the attempts is given, and the sender still tries when they are used up.
-/

/-- What becomes of one attempt to send: whether the frame arrives, and what the sender is told. -/
structure Attempt where
  arrives : Bool
  succeeds : Bool

/-- The frames that arrive, and the attempts that are left once one has succeeded. -/
def sendAgentFrame (frame : Bytes) : List Attempt → List Bytes × Option (List Attempt)
  | [] => ([], none)
  | attempt :: later =>
      let arrived := if attempt.arrives then [frame] else []
      if attempt.succeeds then (arrived, some later)
      else
        let rest := sendAgentFrame frame later
        (arrived ++ rest.1, rest.2)

/-- Sends an ordered batch during one on-demand connection. -/
def sendOnDemandFrames : List Bytes → List Attempt → List Bytes × Option (List Attempt)
  | [], attempts => ([], some attempts)
  | frame :: frames, attempts =>
      match sendAgentFrame frame attempts with
      | (arrived, none) => (arrived, none)
      | (arrived, some attempts) =>
          let rest := sendOnDemandFrames frames attempts
          (arrived ++ rest.1, rest.2)

/-- A run of the CA in which the sender is not revoked, with the frames that it processed and those
whose sessions passed the replay check, each with its time. -/
inductive Serving {ρ : Type} (random : CryptoRandom ρ) (sender : AgentId) :
    TimedCa ρ → List (Bytes × UInt64) → List (Bytes × UInt64) → TimedCa ρ → Prop where
  | done (ca : TimedCa ρ) : Serving random sender ca [] [] ca
  | other {ca next later : TimedCa ρ} {action : CaAction} {processed passed : List (Bytes × UInt64)}
      (step : TimedCa.Step random ca action next) (kept : ¬ TimedCa.Revokes sender ca action)
      (silent : ∀ frame nowSeconds, action ≠ .process frame nowSeconds)
      (rest : Serving random sender next processed passed later) :
      Serving random sender ca processed passed later
  | refuses {ca next later : TimedCa ρ} {frame : Bytes} {nowSeconds : UInt64}
      {processed passed : List (Bytes × UInt64)}
      (step : TimedCa.Step random ca (.process frame nowSeconds) next)
      (refused : ca.accepts frame nowSeconds = none)
      (rest : Serving random sender next processed passed later) :
      Serving random sender ca ((frame, nowSeconds) :: processed) passed later
  | passes {ca next later : TimedCa ρ} {frame : Bytes} {nowSeconds : UInt64} {agent : AgentId}
      {session : SessionId} {ed25519 : Key32} {processed passed : List (Bytes × UInt64)}
      (step : TimedCa.Step random ca (.process frame nowSeconds) next)
      (passes : ca.Passes frame nowSeconds agent session ed25519)
      (rest : Serving random sender next processed passed later) :
      Serving random sender ca ((frame, nowSeconds) :: processed) ((frame, nowSeconds) :: passed)
        later

section Serving

variable {ρ : Type} {random : CryptoRandom ρ} {sender : AgentId} {session : SessionId}
  {start ca later : TimedCa ρ} {limits : StoreLimits} {expires : UInt64}
  {processed passed : List (Bytes × UInt64)}

theorem process_keeps (frame : Bytes) (nowSeconds : UInt64) :
    ¬ TimedCa.Revokes sender ca (.process frame nowSeconds) := by
  rintro ⟨_, _, same, _⟩
  cases same

/-- A frame that passes is a request of the sender whose session is marked. -/
theorem parsed_of_passes {frame : Bytes} {nowSeconds : UInt64} {ed25519 : Key32}
    (passes : ca.Passes frame nowSeconds sender session ed25519) :
    ∃ envelope, parseEnvelope frame = .ok envelope ∧ envelope.sender = sender ∧
      envelope.sessionId = session ∧
      (ca.store.checkAndMark sender session nowSeconds).1 = .ok () := by
  obtain ⟨envelope, publicKeys, checked, rfl, rfl, _⟩ := TimedCa.passes_iff.mp passes
  obtain ⟨accepted, _, _, marked⟩ := replayCheck_eq_ok.mp checked
  exact ⟨envelope, (acceptEnvelope_eq_ok accepted).1, rfl, rfl, marked⟩

/-- A session that is remembered does not pass. -/
theorem refused_of_remembers (remembers : ca.Remembers limits sender session expires)
    {nowSeconds : UInt64} (ordered : ca.clock ≤ nowSeconds) (inside : nowSeconds < expires) :
    (ca.store.checkAndMark sender session nowSeconds).1 ≠ .ok () := by
  intro accepted
  rcases remembers.remembered with expired | ⟨_, held⟩
  · exact absurd inside (UInt64.not_lt.mpr (UInt64.le_trans expired ordered))
  · rcases ca.store.checkAndMark_cases sender session nowSeconds with
      ⟨absent, _⟩ | ⟨error, failed, _⟩
    · rw [SortedMap.contains_eq, ReplayCache.purge_get, held] at absent
      simp [inside] at absent
    · rw [accepted] at failed
      cases failed

/-- What passes after a session was remembered is of another session, or passes when it expired. -/
theorem Serving.expired (serving : Serving random sender ca processed passed later)
    (remembers : ca.Remembers limits sender session expires) :
    ∀ entry ∈ passed, ∀ envelope, parseEnvelope entry.1 = .ok envelope →
      envelope.sender = sender → envelope.sessionId = session → expires ≤ entry.2 := by
  induction serving with
  | done ca => exact List.forall_mem_nil _
  | other step kept _ _ ih => exact ih (step.remembers kept remembers)
  | refuses step _ _ ih => exact ih (step.remembers (process_keeps _ _) remembers)
  | @passes ca next later frame nowSeconds agent marked ed25519 processed passed step passes _ ih =>
      intro entry member envelope parsed own same
      rcases List.mem_cons.mp member with rfl | others
      · obtain ⟨found, again, rfl, rfl, accepted⟩ := parsed_of_passes passes
        cases again.symm.trans parsed
        rw [own, same] at accepted
        apply UInt64.not_lt.mp
        intro inside
        cases step with
        | process _ _ ordered => exact refused_of_remembers remembers ordered inside accepted
      · exact ih (step.remembers (process_keeps _ _) remembers) entry others envelope parsed own same

/-- A frame of the sender passes again only when its session has expired. -/
theorem Serving.apart (serving : Serving random sender ca processed passed later)
    (durable : ca.store.Durable limits) :
    passed.Pairwise (fun first second => ∀ envelope, parseEnvelope first.1 = .ok envelope →
      envelope.sender = sender → first.1 = second.1 →
      saturatingAdd first.2 limits.replayTtlSeconds ≤ second.2) := by
  induction serving with
  | done ca => exact .nil
  | other step _ _ _ ih => exact ih (step.durable durable)
  | refuses step _ _ ih => exact ih (step.durable durable)
  | @passes ca next later frame nowSeconds agent session ed25519 processed passed step passes rest
      ih =>
      refine List.pairwise_cons.mpr ⟨?_, ih (step.durable durable)⟩
      intro entry member envelope parsed own same
      obtain ⟨found, again, rfl, rfl, _⟩ := parsed_of_passes passes
      cases again.symm.trans parsed
      subst own
      have remembers := passes.remembers durable step
      exact rest.expired remembers entry member envelope (same ▸ parsed) rfl rfl

theorem Serving.part (serving : Serving random sender ca processed passed later) :
    passed.Sublist processed := by
  induction serving with
  | done ca => exact .slnil
  | other _ _ _ _ ih => exact ih
  | refuses _ _ _ ih => exact ih.cons _
  | passes _ _ _ ih => exact ih.cons_cons _

end Serving

/-! ## A request that is sent twice -/

namespace Sample

open SecurePubSub.Authority.Sample (agent fresh request configured processed configured_passes)

/-- The first attempt arrives although the sender is told that it failed. -/
def attempts : List Attempt := [⟨true, false⟩, ⟨true, true⟩]

def again : TimedCa Nat :=
  ⟨{ (processed configured).system with
    world := ((processed configured).system.authority.handle .counting request 60
      (processed configured).system.world).2 }, 60⟩

theorem serving : Serving .counting (agent 1).id configured [(request, 10), (request, 60)]
    [(request, 10)] again := by
  have second : Serving .counting (agent 1).id (processed configured) [(request, 60)] [] again :=
    .refuses (.process _ _ (by decide)) (by decide +kernel) (.done _)
  exact .passes (.process _ _ (by decide)) configured_passes second

theorem arrived (frame : Bytes) :
    (([frame, frame]).filter (fun other => decide (other ∈ [frame]))).Sublist
      (sendOnDemandFrames [frame] attempts).1 := by
  simp [attempts, sendOnDemandFrames, sendAgentFrame]

theorem window (frame : Bytes) : [(frame, (10 : UInt64)), (frame, 60)].Pairwise
    (fun first second => first.1 ∈ [frame] → first.1 = second.1 →
      second.2 < saturatingAdd first.2 fresh.store.limits.replayTtlSeconds) := by
  have inside : (60 : UInt64) < saturatingAdd 10 fresh.store.limits.replayTtlSeconds := by
    decide
  simp [inside]

end Sample

end SecurePubSub.Apps
