import SecurePubSub.Authority.CallRules
import SecurePubSub.Authority.Locking
import SecurePubSub.Authority.SnapshotFormat

namespace SecurePubSub.Authority

open SecurePubSub.Data SecurePubSub.Data.Program SecurePubSub.Protocol

/-! What the file at the snapshot path is worth while calls are in progress.

Commits may fail at any operation. Whenever the process stops, between any two steps of
any thread, the file can be opened and holds the state that was visible, or the one that
the holder of `transaction` was about to make visible.
-/

/-! ## What is accepted satisfies the reader's conditions -/

namespace StateCursor

theorem keys_ordinary {remaining : Nat} {known result : SortedMap AgentId PublicKeys}
    {input rest : Bytes} (read : keys remaining known input = .ok (result, rest))
    (absent : known.contains .ca = false) : result.contains .ca = false := by
  induction remaining generalizing known input with
  | zero =>
      cases read
      exact absent
  | succ remaining ih =>
      obtain ⟨agent, _, _, read⟩ := Cursor.bind_eq_ok read
      split at read
      · cases read
      · rename_i ordinary
        obtain ⟨ed25519, _, _, read⟩ := Cursor.bind_eq_ok read
        obtain ⟨x25519, _, _, read⟩ := Cursor.bind_eq_ok read
        split at read
        · cases read
        · refine ih read ?_
          rw [SortedMap.contains_eq, SortedMap.get_insert, if_neg (Ne.symm ordinary)]
          exact absent

theorem environments_parse {remaining : Nat} {known result : SortedMap AgentId Bytes}
    {input rest : Bytes} (read : environments remaining known input = .ok (result, rest))
    (before : ∀ agent encoded, known.get agent = some encoded → isEnvironment encoded = true) :
    ∀ agent encoded, result.get agent = some encoded → isEnvironment encoded = true := by
  induction remaining generalizing known input with
  | zero =>
      cases read
      exact before
  | succ remaining ih =>
      obtain ⟨agent, _, _, read⟩ := Cursor.bind_eq_ok read
      obtain ⟨encoded, _, _, read⟩ := Cursor.bind_eq_ok read
      split at read
      · cases read
      · rename_i accepted
        refine ih read fun owner stored found => ?_
        rw [SortedMap.get_insert] at found
        split at found
        · cases found
          exact Bool.not_eq_false _ ▸ (not_or.mp accepted).1
        · exact before owner stored found

theorem subscriptions_parse {remaining : Nat} {table result : SubscriptionTable}
    {input rest : Bytes} (read : subscriptions remaining table input = .ok (result, rest))
    (before : ∀ typeId, ∀ entry ∈ table.forType typeId, entry.Parses ∧ entry.handler ≠ .none) :
    ∀ typeId, ∀ entry ∈ result.forType typeId, entry.Parses ∧ entry.handler ≠ .none := by
  induction remaining generalizing table input with
  | zero =>
      cases read
      exact before
  | succ remaining ih =>
      obtain ⟨subscriber, _, _, read⟩ := Cursor.bind_eq_ok read
      obtain ⟨typeId, _, _, read⟩ := Cursor.bind_eq_ok read
      obtain ⟨handler, _, _, read⟩ := Cursor.bind_eq_ok read
      obtain ⟨encoded, _, _, read⟩ := Cursor.bind_eq_ok read
      cases parsed : subscriptionKind encoded ⟨UInt32.ofNat typeId⟩ with
      | none =>
          rw [parsed] at read
          cases read
      | some kind =>
          rw [parsed] at read
          dsimp only at read
          split at read
          · cases read
          · rename_i named
            refine ih read fun wanted entry member => ?_
            rw [forType_push] at member
            rcases List.mem_append.mp member with old | new
            · exact before _ entry old
            · cases List.mem_singleton.mp (List.mem_filter.mp new).1
              exact ⟨subscriptionKind_iff.mp parsed, named⟩

end StateCursor

/-- A snapshot that is accepted can be written and accepted again. -/
theorem decodeState_recoverable {bytes : Bytes} {limits : StoreLimits} {state : StoreState}
    (read : decodeState bytes limits = .ok state) : state.Recoverable limits := by
  obtain ⟨_, agents, environments, subscriptions, replays⟩ := decodeState_written read
  have whole := decodeState_eq_ok.mp read
  obtain ⟨magic, _, _, whole⟩ := Cursor.bind_eq_ok whole
  split at whole
  · cases whole
  · obtain ⟨_, _, _, whole⟩ := Cursor.bind_eq_ok whole
    obtain ⟨keysRead, _, keysDone, whole⟩ := Cursor.bind_eq_ok whole
    obtain ⟨_, _, _, whole⟩ := Cursor.bind_eq_ok whole
    obtain ⟨environmentsRead, _, environmentsDone, whole⟩ := Cursor.bind_eq_ok whole
    obtain ⟨_, _, _, whole⟩ := Cursor.bind_eq_ok whole
    obtain ⟨subscriptionsRead, _, subscriptionsDone, whole⟩ := Cursor.bind_eq_ok whole
    obtain ⟨_, _, _, whole⟩ := Cursor.bind_eq_ok whole
    obtain ⟨_, _, _, whole⟩ := Cursor.bind_eq_ok whole
    cases whole
    have parsed := StateCursor.environments_parse environmentsDone
      fun agent encoded (found : none = some encoded) => nomatch found
    have filed := StateCursor.subscriptions_parse subscriptionsDone
      fun typeId entry (member : entry ∈ []) => nomatch member
    exact ⟨{
      ca_absent := StateCursor.keys_ordinary keysDone rfl
      environments_parse := fun agent encoded found =>
        isEnvironment_iff.mp (parsed agent encoded found)
      subscriptions_parse := fun typeId entry member => (filed typeId entry member).1
      handlers_named := fun typeId entry member => (filed typeId entry member).2
      agents_bounded := agents
      environments_bounded := environments
      subscriptions_bounded := subscriptions
      replays_bounded := replays }, rfl, rfl⟩

/-! ## Files that give a state back -/

/-- Opening the file gives the state, but for empty subscription buckets. -/
def SnapshotFile.Recovers (snapshot : SnapshotFile) (limits : StoreLimits) (state : StoreState) :
    Prop :=
  ∃ reopened, PersistentStore.open snapshot limits false = .ok reopened ∧
    reopened.state.Matches state

/-- A state that could be read from a snapshot, and a file it can be read from. -/
structure Recorded (limits : StoreLimits) (state : StoreState) (snapshot : SnapshotFile) : Prop where
  recoverable : state.Recoverable limits
  recovers : snapshot.Recovers limits state

namespace SnapshotFile.Recovers

variable {snapshot later : SnapshotFile} {limits : StoreLimits} {state : StoreState}

/-- Only the contents count. -/
theorem of_contents (recovers : snapshot.Recovers limits state)
    (same : later.contents = snapshot.contents) : later.Recovers limits state := by
  obtain ⟨reopened, opened, matched⟩ := recovers
  have load : later.load false = snapshot.load false := by
    rw [SnapshotFile.load, SnapshotFile.load, same]
  refine ⟨{ reopened with snapshot := later }, ?_, matched⟩
  rw [PersistentStore.open] at opened
  obtain ⟨contents, loaded, opened⟩ := Fallible.bind_eq_ok.mp opened
  rw [loaded] at load
  cases contents with
  | none =>
      cases opened
      simp only [PersistentStore.open, load, Fallible.ok_bind]
      rfl
  | some bytes =>
      obtain ⟨restored, read, opened⟩ := Fallible.bind_eq_ok.mp opened
      cases opened
      simp only [PersistentStore.open, load, Fallible.ok_bind, read]
      rfl

theorem of_encoded (recoverable : state.Recoverable limits) {bytes : Bytes}
    (written : encodeState state = .ok bytes) (fits : bytes.length ≤ maxSnapshotLen)
    (contents : later.contents = some bytes) : later.Recovers limits state := by
  obtain ⟨reopened, read⟩ := recoverable.readable.decodes written
  refine ⟨⟨reopened, later, limits⟩, ?_, ?_⟩
  · simp only [PersistentStore.open, SnapshotFile.load, contents, Bool.false_eq_true, if_false,
      if_pos fits, Fallible.ok_bind, read]
    rfl
  · have same := recoverable.readable.reads_back written read
    obtain ⟨_, _, replay, _⟩ := decodeState_encodeState written read
    refine ⟨same.keys, same.environments, same.subscriptions, ?_⟩
    rw [replay, ← recoverable.maximum, ← recoverable.ttl]

end SnapshotFile.Recovers

namespace PersistentStore

variable {ρ : Type} {limits : StoreLimits} {random : CryptoRandom ρ}
  {authority : CertificateAuthority} {state next : StoreState} {snapshot durable : SnapshotFile}

theorem recorded_of_open {store : PersistentStore}
    (opened : «open» snapshot limits false = .ok store) :
    Recorded limits store.state store.snapshot ∧ store.snapshot = snapshot ∧
      store.limits = limits := by
  have recovered := opened
  rw [«open»] at opened
  obtain ⟨contents, loaded, opened⟩ := Fallible.bind_eq_ok.mp opened
  cases contents with
  | none =>
      cases opened
      exact ⟨⟨.empty limits, _, recovered, rfl, rfl, fun _ => rfl, rfl⟩, rfl, rfl⟩
  | some bytes =>
      obtain ⟨restored, read, opened⟩ := Fallible.bind_eq_ok.mp opened
      cases opened
      exact ⟨⟨decodeState_recoverable read, _, recovered, rfl, rfl, fun _ => rfl, rfl⟩, rfl, rfl⟩

/-- A snapshot that was written gives back the state it was written of. -/
theorem recovers_of_persist (recoverable : next.Recoverable limits)
    (persisted : persist next snapshot = (.ok (), durable)) : durable.Recovers limits next := by
  rw [persist] at persisted
  cases written : encodeState next with
  | error error =>
      rw [written] at persisted
      cases persisted
  | ok bytes =>
      rw [written] at persisted
      dsimp only at persisted
      have committed : (snapshot.commit bytes).1 = .ok () := by rw [persisted]
      have contents := SnapshotFile.commit_of_ok committed
      rw [persisted] at contents
      exact .of_encoded recoverable written (SnapshotFile.commit_eq_ok.mp committed).1
        (congrArg SnapshotFile.contents contents)

/-- One that could not be written leaves what was there. -/
theorem contents_of_persist_error {error : Error}
    (failed : persist next snapshot = (.error error, durable)) :
    durable.contents = snapshot.contents := by
  rw [persist] at failed
  cases written : encodeState next with
  | error other =>
      rw [written] at failed
      cases failed
      rfl
  | ok bytes =>
      rw [written] at failed
      dsimp only at failed
      have rejected : (snapshot.commit bytes).1 = .error error := by rw [failed]
      have kept := SnapshotFile.commit_of_error rejected
      rw [failed] at kept
      exact kept

/-! ## What calls keep -/

/-- A subscription is stored with a handler. -/
def Named : DaemonCall → Prop
  | .effect (.putSubscription subscription) => subscription.handler ≠ .none
  | _ => True

theorem proposal_eq_inr {edited : Except Error StoreState} {reply : Except Error Unit}
    (proposed : proposal edited = .inr (next, reply)) : edited = .ok next := by
  cases edited with
  | error error => cases proposed
  | ok other =>
      cases proposed
      rfl

theorem locking_recoverable {call : DaemonCall}
    {edit : StoreState → daemonInterface.Reply call ⊕ StoreState × daemonInterface.Reply call}
    {reply : daemonInterface.Reply call} (named : Named call)
    (planned : locking limits random authority call = .update edit)
    (edited : edit state = .inr (next, reply)) (sound : state.Recoverable limits) :
    next.Recoverable limits := by
  cases call with
  | provision agent keys =>
      rw [locking] at planned
      split at planned
      · cases planned
      · cases planned
        exact sound.provision (proposal_eq_inr edited)
  | reconcileAgents configured =>
      rw [locking] at planned
      split at planned
      · cases planned
      · rename_i few
        split at planned
        · cases planned
        · rename_i keys accepted
          cases planned
          cases edited
          have size := StoreState.configuredKeys_size accepted
          have start : (SortedMap.empty : SortedMap AgentId PublicKeys).size = 0 := rfl
          exact sound.reconcile (StoreState.Recoverable.configuredKeys_ordinary rfl accepted)
            (by omega)
  | effect request =>
      cases request with
      | keys agent => cases planned
      | environment agent => cases planned
      | subscriptionsFor typeId => cases planned
      | delivery => cases planned
      | checkAndMark sender session nowSeconds =>
          cases planned
          obtain ⟨_, _, rfl⟩ := Fallible.map_eq_ok.mp (proposal_eq_inr edited)
          exact sound.checkAndMark sender session nowSeconds
      | setEnvironment agent encoded =>
          rw [locking] at planned
          split at planned
          · rename_i valid
            cases planned
            exact sound.setEnvironment valid (proposal_eq_inr edited)
          · cases planned
      | putSubscription subscription =>
          rw [locking] at planned
          split at planned
          · rename_i kind
            cases planned
            obtain ⟨_, _, rfl⟩ := Fallible.map_eq_ok.mp (proposal_eq_inr edited)
            exact sound.putSubscription ⟨subscriptionKind_iff.mp kind, named⟩
          · cases planned
      | claimSubscription subscription =>
          rw [locking] at planned
          split at planned
          · cases planned
          · cases planned
            dsimp only at edited
            split at edited
            · cases edited
              exact sound.claimSubscription subscription
            · cases edited

theorem atomic_recorded {call : DaemonCall} {guarded : Guarded StoreState SnapshotFile ρ}
    (named : Named call) (recorded : Recorded limits guarded.visible guarded.durable) :
    Recorded limits ((transactional limits random authority).atomic call guarded).2.visible
      ((transactional limits random authority).atomic call guarded).2.durable := by
  rw [Transactional.atomic]
  cases planned : (transactional limits random authority).plan call with
  | glance look => exact recorded
  | update edit =>
      dsimp only
      cases edited : edit guarded.visible with
      | inl reply => exact recorded
      | inr proposed =>
          obtain ⟨next, reply⟩ := proposed
          have recoverable := locking_recoverable named planned edited recorded.recoverable
          rw [Transactional.conclude]
          cases written : (transactional limits random authority).persist next guarded.durable with
          | mk result durable =>
              cases result with
              | error fault =>
                  exact ⟨recorded.recoverable,
                    recorded.recovers.of_contents (contents_of_persist_error written)⟩
              | ok done => exact ⟨recoverable, recovers_of_persist recoverable written⟩

end PersistentStore

/-! ## The programs of the daemon -/

section Daemon

variable {authority : CertificateAuthority} {α : Type}

def namedSubscriptions : Contract caInterface where
  rely := fun _ _ => True
  guarantee := fun call => PersistentStore.Named (.effect call)

theorem namedSubscriptions_allowsReads : AllowsReads namedSubscriptions where
  keys := fun _ => trivial
  environment := fun _ => trivial
  subscriptionsFor := fun _ => trivial
  claimSubscription := fun _ => trivial

/-- The handler was checked before the subscription is stored. -/
theorem processSubscribe_named (envelope : EnvelopeRef) (plaintext : Bytes) (typeId : TypeId)
    (kind : SubscriptionKind) : Obeys namedSubscriptions (fun _ => True)
      (authority.processSubscribe envelope plaintext typeId kind) := by
  have checked : Obeys namedSubscriptions (fun _ => envelope.handler ≠ .none)
      (ofExcept (Fallible.rejectIf (envelope.handler = .none) .wrongHandler)) := by
    refine obeys_ofExcept fun value accepted => ?_
    have bound : (Fallible.rejectIf (envelope.handler = .none) Error.wrongHandler >>=
        fun _ => .ok value) = .ok value := by rw [accepted, Fallible.ok_bind]
    exact (Fallible.rejectIf_bind_eq_ok bound).1
  refine obeys_bind checked fun _ handled => ?_
  refine obeys_bind (CertificateAuthority.validateStoredEnvironment_obeys
    namedSubscriptions_allowsReads _) fun _ _ => ?_
  exact obeys_bind (effect_obeys handled) fun _ _ => obeys_pure trivial

theorem process_named (frame : Bytes) (nowSeconds : UInt64) :
    Obeys namedSubscriptions (fun _ => True) (authority.process frame nowSeconds) := by
  have admitted : Obeys namedSubscriptions (fun _ => True)
      (authority.admission frame nowSeconds) := by
    refine obeys_bind (ofExcept_obeys _) fun _ _ => ?_
    refine obeys_bind (effect_obeys trivial) fun _ _ => ?_
    refine obeys_bind (ofExcept_obeys _) fun _ _ => ?_
    refine obeys_bind (effect_obeys trivial) fun _ _ => ?_
    exact obeys_bind (ofExcept_obeys _) fun _ _ => obeys_pure trivial
  refine obeys_bind admitted fun request _ => ?_
  rw [CertificateAuthority.dispatch]
  split
  · exact CertificateAuthority.processSetEnvironment_obeys namedSubscriptions_allowsReads trivial _
  · exact processSubscribe_named _ _ _ _
  · exact processSubscribe_named _ _ _ _
  · apply CertificateAuthority.processPublish_obeys namedSubscriptions_allowsReads
    exact fun _ _ _ _ _ _ _ => trivial
  · exact obeys_fail _

theorem consumes_onBehalf {program : CaProgram α} {history : List daemonInterface.Event}
    {left : Program daemonInterface α} (consumed : Consumes (onBehalf program) history left) :
    ∃ made rest, Consumes program made rest ∧ left = onBehalf rest := by
  induction program generalizing history with
  | done value =>
      cases consumed
      exact ⟨[], _, .here, rfl⟩
  | fail fault =>
      cases consumed
      exact ⟨[], _, .here, rfl⟩
  | call request resume ih =>
      cases consumed with
      | here => exact ⟨[], _, .here, rfl⟩
      | @step _ _ reply _ _ tail =>
          obtain ⟨made, rest, consumed, same⟩ := ih reply tail
          exact ⟨_, rest, .step consumed, same⟩

/-- A request, or one of the daemon's own calls. -/
inductive IsDaemon (authority : CertificateAuthority) :
    Program daemonInterface ProcessResult → Prop where
  | request (frame : Bytes) (nowSeconds : UInt64) :
      IsDaemon authority (onBehalf (authority.process frame nowSeconds))
  | provision (agent : AgentId) (keys : PublicKeys)
      (answer : Except Error Unit → Except Error ProcessResult) :
      IsDaemon authority (.call (.provision agent keys) (fun reply => ofExcept (answer reply)))
  | reconcile (configured : List (AgentId × PublicKeys))
      (answer : Except Error Unit → Except Error ProcessResult) :
      IsDaemon authority (.call (.reconcileAgents configured) (fun reply => ofExcept (answer reply)))

theorem IsDaemon.named {program : Program daemonInterface ProcessResult}
    (isDaemon : IsDaemon authority program) {history : List daemonInterface.Event}
    {request : DaemonCall} {resume : daemonInterface.Reply request → Program daemonInterface _}
    (consumed : Consumes program history (.call request resume)) :
    PersistentStore.Named request := by
  have once {first : DaemonCall} {answer : daemonInterface.Reply first → Except Error ProcessResult}
      (named : PersistentStore.Named first)
      (consumed : Consumes (.call first (fun reply => ofExcept (answer reply))) history
        (.call request resume)) : PersistentStore.Named request := by
    cases consumed with
    | here => exact named
    | @step _ _ reply _ _ tail =>
        change Consumes (@ofExcept daemonInterface _ (answer reply)) _ _ at tail
        cases result : answer reply with
        | error fault =>
            rw [result] at tail
            cases tail
        | ok value =>
            rw [result] at tail
            cases tail
  cases isDaemon with
  | provision agent keys answer => exact @once (.provision agent keys) answer trivial consumed
  | reconcile configured answer => exact @once (.reconcileAgents configured) answer trivial consumed
  | request frame nowSeconds =>
      obtain ⟨made, rest, consumed, same⟩ := consumes_onBehalf consumed
      have left := (process_named frame nowSeconds).left consumed fun _ _ => trivial
      cases rest with
      | done value => cases same
      | fail fault => cases same
      | call first continued =>
          cases same
          exact left.1

end Daemon

/-- At any moment of any run under the locks, however commits fail, the file can be opened again: it
holds the visible state, or the successor that the holder of `transaction` has computed from it. -/
theorem locked_file_recovers {ρ : Type} {limits : StoreLimits} {random : CryptoRandom ρ}
    {authority : CertificateAuthority} {snapshot : SnapshotFile} {store : PersistentStore}
    (opened : PersistentStore.open snapshot limits false = .ok store) (rng : ρ)
    {system : Transactional.System daemonInterface StoreState SnapshotFile ρ ProcessResult}
    (reached : Transactional.Reachable (PersistentStore.transactional limits random authority)
      (IsDaemon authority) (.idle ⟨store.state, snapshot, rng⟩) system) :
    system.state.durable.Recovers limits system.state.visible ∨
      ∃ worker ∈ system.workers, ∃ request resume next reply edit,
        worker.stage = .written request resume next reply ∧
        PersistentStore.locking limits random authority request = .update edit ∧
        edit system.state.visible = .inr (next, reply) ∧
        system.state.durable.Recovers limits next := by
  obtain ⟨initially, rfl, _⟩ := PersistentStore.recorded_of_open opened
  obtain ⟨pool, run, stands⟩ := (Transactional.stands_idle
    (PersistentStore.transactional limits random authority)
    ⟨store.state, store.snapshot, rng⟩).run reached
  have recorded : Recorded limits pool.shared.visible pool.shared.durable :=
    run.shared_within (fun guarded => Recorded limits guarded.visible guarded.durable)
      PersistentStore.Named (fun _ _ _ _ isDaemon consumed => isDaemon.named consumed)
      (fun _ _ named before => PersistentStore.atomic_recorded named before) initially
  rw [stands.visible] at recorded
  by_cases quiet : ∀ worker ∈ system.workers, worker.writing = false
  · rw [stands.settled quiet] at recorded
    exact .inl recorded.recovers
  · simp only [not_forall] at quiet
    obtain ⟨worker, member, writing⟩ := quiet
    have sound := stands.sound worker member
    obtain ⟨program, history, stage⟩ := worker
    cases stage with
    | running left => exact absurd rfl writing
    | holding request resume => exact absurd rfl writing
    | copied request resume copy => exact absurd rfl writing
    | answered request resume reply => exact absurd rfl writing
    | written request resume next reply =>
        obtain ⟨⟨edit, planned, edited⟩, persisted⟩ := sound
        have follows := run.follows ⟨program, history, .call request resume⟩ (by
          rw [stands.threads]
          exact List.mem_map_of_mem member)
        have named := follows.allowed.named follows.consumed
        have recoverable :=
          PersistentStore.locking_recoverable named planned edited recorded.recoverable
        exact .inr ⟨_, member, request, resume, next, reply, edit, rfl, planned, edited,
          PersistentStore.recovers_of_persist recoverable persisted⟩

/-! ## A process that stops between writing and publishing -/

namespace Sample

/-- The first commit has failed to write; the second is written and not published. -/
def interrupted : Transactional.System daemonInterface StoreState SnapshotFile Nat ProcessResult :=
  .schedule (PersistentStore.transactional limits .counting authority)
    ⟨.empty limits, ⟨none, none, [.openFails]⟩, 0⟩
    [.call (.provision (agent 1).id ⟨.fill 32 1, .fill 32 1⟩)
        (fun reply => ofExcept (reply.map fun _ => .accepted)),
      .call (.reconcileAgents [((agent 2).id, ⟨.fill 32 2, .fill 32 2⟩)])
        (fun reply => ofExcept (reply.map fun _ => .accepted))]
    [0, 0, 0, 0, 1, 1, 1]

end Sample

theorem sample_locked_file_recovers :
    Sample.interrupted.state.visible.keys.size = 0 ∧
      (Sample.interrupted.state.durable.Recovers Sample.limits Sample.interrupted.state.visible ∨
        ∃ worker ∈ Sample.interrupted.workers, ∃ request resume next reply edit,
          worker.stage = .written request resume next reply ∧
          PersistentStore.locking Sample.limits .counting Sample.authority request =
            .update edit ∧
          edit Sample.interrupted.state.visible = .inr (next, reply) ∧
          Sample.interrupted.state.durable.Recovers Sample.limits next) := by
  refine ⟨by decide +kernel, ?_⟩
  have opened : PersistentStore.open ⟨none, none, [.openFails]⟩ Sample.limits false =
      .ok ⟨.empty Sample.limits, ⟨none, none, [.openFails]⟩, Sample.limits⟩ := rfl
  refine locked_file_recovers opened 0 (Transactional.reachable_schedule _ ?_ _)
  intro program member
  rcases List.mem_cons.mp member with rfl | rest
  · exact .provision _ _ _
  · cases List.mem_singleton.mp rest
    exact .reconcile _ _

end SecurePubSub.Authority
