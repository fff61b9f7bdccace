import Mathlib.Data.List.Flatten
import SecurePubSub.Authority.Tables
import SecurePubSub.Protocol.Payload

namespace SecurePubSub.Authority

open SecurePubSub.Data SecurePubSub.Data.Fallible SecurePubSub.Protocol

/-! The snapshot format and the file that a snapshot is committed to. -/

/-- `b"SPSTATE1"`. -/
def stateMagic : Bytes := asBytes "SPSTATE1"

/-! ## Writing a snapshot -/

def encodeU32 (value : Nat) : Except Error Bytes := do
  rejectIf (2 ^ 32 ≤ value) .oversized
  pure (beBytes 4 value)

def encodeBytes (value : Bytes) : Except Error Bytes := do
  let length ← encodeU32 value.length
  pure (length ++ value)

def encodeKeyEntry (entry : AgentId × PublicKeys) : Bytes :=
  entry.1.value.bytes ++ (entry.2.ed25519.bytes ++ entry.2.x25519.bytes)

def encodeEnvironmentEntry (entry : AgentId × Bytes) : Except Error Bytes := do
  let encoded ← encodeBytes entry.2
  pure (entry.1.value.bytes ++ encoded)

def encodeSubscriptionEntry (subscription : StoredSubscription) : Except Error Bytes := do
  let encoded ← encodeBytes subscription.encoded
  pure (subscription.subscriber.value.bytes ++ (beBytes 4 subscription.typeId.value.toNat ++
    (subscription.handler.value.bytes ++ encoded)))

def encodeReplayEntry (entry : ReplayKey × UInt64) : Bytes :=
  (ofLex entry.1).1.value.bytes ++ ((ofLex entry.1).2.value.bytes ++ beBytes 8 entry.2.toNat)

/-- The subscriptions of all buckets in the order of their types. -/
def SubscriptionTable.listed (table : SubscriptionTable) : List StoredSubscription :=
  table.buckets.values.flatten

def encodeState (state : StoreState) : Except Error Bytes := do
  let keyCount ← encodeU32 state.keys.size
  let keys := state.keys.entries.flatMap encodeKeyEntry
  let environmentCount ← encodeU32 state.environments.size
  let environments ← state.environments.entries.mapM encodeEnvironmentEntry
  let subscriptionCount ← encodeU32 state.subscriptions.count
  let subscriptions ← state.subscriptions.listed.mapM encodeSubscriptionEntry
  let replayCount ← encodeU32 state.replay.entries.size
  let replay := state.replay.entries.entries.flatMap encodeReplayEntry
  pure (stateMagic ++ (keyCount ++ (keys ++ (environmentCount ++ (environments.flatten ++
    (subscriptionCount ++ (subscriptions.flatten ++ (replayCount ++ replay))))))))

theorem encodeU32_fails (value : Nat) : FailsOnly (· = .oversized) (encodeU32 value) :=
  failsOnly_bind (failsOnly_rejectIf rfl) fun _ => failsOnly_ok _

theorem encodeBytes_fails (value : Bytes) : FailsOnly (· = .oversized) (encodeBytes value) :=
  failsOnly_bind (encodeU32_fails _) fun _ => failsOnly_ok _

theorem encodeState_fails (state : StoreState) : FailsOnly (· = .oversized) (encodeState state) :=
  failsOnly_bind (encodeU32_fails _) fun _ => failsOnly_bind (encodeU32_fails _) fun _ =>
    failsOnly_bind
      (failsOnly_mapM (fun _ => failsOnly_bind (encodeBytes_fails _) fun _ => failsOnly_ok _) _)
      fun _ => failsOnly_bind (encodeU32_fails _) fun _ =>
        failsOnly_bind
          (failsOnly_mapM (fun _ => failsOnly_bind (encodeBytes_fails _) fun _ => failsOnly_ok _) _)
          fun _ => failsOnly_bind (encodeU32_fails _) fun _ => failsOnly_ok _

/-! ## What a written snapshot holds -/

theorem encodeU32_eq_ok {value : Nat} {written : Bytes} :
    encodeU32 value = .ok written ↔ value < 2 ^ 32 ∧ written = beBytes 4 value := by
  by_cases fits : value < 2 ^ 32
  · have passed : encodeU32 value = .ok (beBytes 4 value) := by
      rw [encodeU32, rejectIf_pass _ (Nat.not_le.mpr fits), ok_bind]
      rfl
    rw [passed]
    simp only [Except.ok.injEq, fits, true_and, eq_comm]
  · have failed : encodeU32 value = .error .oversized := by
      rw [encodeU32, rejectIf_fail _ (Nat.not_lt.mp fits), error_bind]
    rw [failed]
    simp only [reduceCtorEq, fits, false_and]

theorem encodeBytes_eq_ok {value written : Bytes} :
    encodeBytes value = .ok written ↔
      value.length < 2 ^ 32 ∧ written = beBytes 4 value.length ++ value := by
  constructor
  · intro encoded
    obtain ⟨length, counted, same⟩ := bind_eq_ok.mp encoded
    obtain ⟨small, rfl⟩ := encodeU32_eq_ok.mp counted
    cases same
    exact ⟨small, rfl⟩
  · intro ⟨small, same⟩
    rw [encodeBytes, encodeU32_eq_ok.mpr ⟨small, rfl⟩, ok_bind, same]
    rfl

/-- What an entry does with its encoded field. -/
theorem encodeBytes_bind_eq_ok {value written : Bytes} {entry : Bytes → Bytes} :
    (encodeBytes value >>= fun field => .ok (entry field)) = .ok written ↔
      value.length < 2 ^ 32 ∧ written = entry (beBytes 4 value.length ++ value) := by
  constructor
  · intro encoded
    obtain ⟨field, fieldWritten, same⟩ := bind_eq_ok.mp encoded
    obtain ⟨small, rfl⟩ := encodeBytes_eq_ok.mp fieldWritten
    cases same
    exact ⟨small, rfl⟩
  · intro ⟨small, same⟩
    rw [encodeBytes_eq_ok.mpr ⟨small, rfl⟩, ok_bind, same]

theorem encodeEnvironmentEntry_eq_ok {entry : AgentId × Bytes} {written : Bytes} :
    encodeEnvironmentEntry entry = .ok written ↔ entry.2.length < 2 ^ 32 ∧
      written = entry.1.value.bytes ++ (beBytes 4 entry.2.length ++ entry.2) :=
  @encodeBytes_bind_eq_ok entry.2 written (fun field => entry.1.value.bytes ++ field)

theorem encodeSubscriptionEntry_eq_ok {subscription : StoredSubscription} {written : Bytes} :
    encodeSubscriptionEntry subscription = .ok written ↔ subscription.encoded.length < 2 ^ 32 ∧
      written = subscription.subscriber.value.bytes ++
        (beBytes 4 subscription.typeId.value.toNat ++ (subscription.handler.value.bytes ++
          (beBytes 4 subscription.encoded.length ++ subscription.encoded))) :=
  @encodeBytes_bind_eq_ok subscription.encoded written (fun field =>
    subscription.subscriber.value.bytes ++ (beBytes 4 subscription.typeId.value.toNat ++
      (subscription.handler.value.bytes ++ field)))

/-- The sections of a snapshot, each behind its count. -/
theorem encodeState_eq_ok {state : StoreState} {bytes : Bytes} :
    encodeState state = .ok bytes ↔
      ∃ environments subscriptions,
        state.environments.entries.mapM encodeEnvironmentEntry = .ok environments ∧
        state.subscriptions.listed.mapM encodeSubscriptionEntry = .ok subscriptions ∧
        state.keys.size < 2 ^ 32 ∧ state.environments.size < 2 ^ 32 ∧
        state.subscriptions.count < 2 ^ 32 ∧ state.replay.entries.size < 2 ^ 32 ∧
        bytes = stateMagic ++ (beBytes 4 state.keys.size ++
          (state.keys.entries.flatMap encodeKeyEntry ++ (beBytes 4 state.environments.size ++
            (environments.flatten ++ (beBytes 4 state.subscriptions.count ++
              (subscriptions.flatten ++ (beBytes 4 state.replay.entries.size ++
                state.replay.entries.entries.flatMap encodeReplayEntry))))))) := by
  constructor
  · intro encoded
    obtain ⟨keyCount, keysCounted, encoded⟩ := bind_eq_ok.mp encoded
    obtain ⟨environmentCount, environmentsCounted, encoded⟩ := bind_eq_ok.mp encoded
    obtain ⟨environments, environmentsEncoded, encoded⟩ := bind_eq_ok.mp encoded
    obtain ⟨subscriptionCount, subscriptionsCounted, encoded⟩ := bind_eq_ok.mp encoded
    obtain ⟨subscriptions, subscriptionsEncoded, encoded⟩ := bind_eq_ok.mp encoded
    obtain ⟨replayCount, replayCounted, encoded⟩ := bind_eq_ok.mp encoded
    obtain ⟨keysFew, rfl⟩ := encodeU32_eq_ok.mp keysCounted
    obtain ⟨environmentsFew, rfl⟩ := encodeU32_eq_ok.mp environmentsCounted
    obtain ⟨subscriptionsFew, rfl⟩ := encodeU32_eq_ok.mp subscriptionsCounted
    obtain ⟨replayFew, rfl⟩ := encodeU32_eq_ok.mp replayCounted
    exact ⟨environments, subscriptions, environmentsEncoded, subscriptionsEncoded, keysFew,
      environmentsFew, subscriptionsFew, replayFew, (Except.ok.inj encoded).symm⟩
  · intro ⟨environments, subscriptions, environmentsEncoded, subscriptionsEncoded, keysFew,
      environmentsFew, subscriptionsFew, replayFew, bytesEq⟩
    rw [encodeState, encodeU32_eq_ok.mpr ⟨keysFew, rfl⟩, ok_bind,
      encodeU32_eq_ok.mpr ⟨environmentsFew, rfl⟩, ok_bind, environmentsEncoded, ok_bind,
      encodeU32_eq_ok.mpr ⟨subscriptionsFew, rfl⟩, ok_bind, subscriptionsEncoded, ok_bind,
      encodeU32_eq_ok.mpr ⟨replayFew, rfl⟩, ok_bind, bytesEq]
    rfl

theorem SubscriptionTable.listed_claim (table : SubscriptionTable)
    (subscription : StoredSubscription) :
    (table.claim subscription).2.listed.Sublist table.listed := by
  unfold claim
  dsimp only
  split
  · split
    · exact SortedMap.flatten_insertEntry table.buckets.sorted List.erase_sublist
    · exact List.Sublist.refl _
  · exact List.Sublist.refl _

/-- A state with fewer subscriptions has a snapshot too, and not a longer one. -/
theorem encodeState_shrinks {state : StoreState} {bytes : Bytes} {fewer : SubscriptionTable}
    (encoded : encodeState state = .ok bytes)
    (listed : fewer.listed.Sublist state.subscriptions.listed)
    (count : fewer.count ≤ state.subscriptions.count) :
    ∃ shorter, encodeState { state with subscriptions := fewer } = .ok shorter ∧
      shorter.length ≤ bytes.length := by
  obtain ⟨environments, subscriptions, environmentsEncoded, subscriptionsEncoded, keysFew,
    environmentsFew, subscriptionsFew, replayFew, bytesEq⟩ := encodeState_eq_ok.mp encoded
  obtain ⟨kept, keptEncoded, part⟩ := mapM_sublist listed subscriptionsEncoded
  refine ⟨_, encodeState_eq_ok.mpr ⟨environments, kept, environmentsEncoded, keptEncoded, keysFew,
    environmentsFew, Nat.lt_of_le_of_lt count subscriptionsFew, replayFew, rfl⟩, ?_⟩
  have flattened : kept.flatten.length ≤ subscriptions.flatten.length := part.flatten.length_le
  subst bytesEq
  simp only [List.length_append, beBytes_length]
  omega

/-! ## Reading a snapshot -/

namespace StateCursor

open SecurePubSub.Data.Cursor

def count (maximum : Nat) : Cursor Error Nat := do
  let value ← number Error.malformed 4
  if value > maximum then fail .capacity else pure value

def bytes (maximum : Nat) : Cursor Error Bytes := do
  let length ← count maximum
  take .malformed length

def keys : Nat → SortedMap AgentId PublicKeys → Cursor Error (SortedMap AgentId PublicKeys)
  | 0, known => pure known
  | remaining + 1, known => do
      let agent ← array Error.malformed 16
      if (⟨agent⟩ : AgentId) = .ca then fail .malformed
      else do
        let ed25519 ← array Error.malformed 32
        let x25519 ← array Error.malformed 32
        if known.contains ⟨agent⟩ then fail .malformed
        else keys remaining (known.insert ⟨agent⟩ ⟨ed25519, x25519⟩)

def isEnvironment (encoded : Bytes) : Bool :=
  match parseOperation encoded with
  | .ok (.setEnvironment _) => true
  | _ => false

def environments : Nat → SortedMap AgentId Bytes → Cursor Error (SortedMap AgentId Bytes)
  | 0, known => pure known
  | remaining + 1, known => do
      let agent ← array Error.malformed 16
      let encoded ← bytes maxPlaintextLen
      if isEnvironment encoded = false ∨ known.contains ⟨agent⟩ then fail .malformed
      else environments remaining (known.insert ⟨agent⟩ encoded)

/-- The kind of an encoded subscription, which must be of the given type. -/
def subscriptionKind (encoded : Bytes) (typeId : TypeId) : Option SubscriptionKind :=
  match parseOperation encoded with
  | .ok (.subscribe parsed _) => if parsed = typeId then some .oneShot else none
  | .ok (.subscribePermanent parsed _) => if parsed = typeId then some .permanent else none
  | _ => none

end StateCursor

def SubscriptionTable.push (table : SubscriptionTable) (subscription : StoredSubscription) :
    SubscriptionTable :=
  table.setBucket subscription.typeId (table.forType subscription.typeId ++ [subscription]) (by
    intro entry member
    cases List.mem_append.mp member with
    | inl old => exact typeId_of_mem old
    | inr last => rw [List.mem_singleton.mp last])

namespace StateCursor

open SecurePubSub.Data.Cursor

def subscriptions : Nat → SubscriptionTable → Cursor Error SubscriptionTable
  | 0, table => pure table
  | remaining + 1, table => do
      let subscriber ← array Error.malformed 16
      let typeId ← number Error.malformed 4
      let handler ← array Error.malformed 16
      let encoded ← bytes maxPlaintextLen
      match subscriptionKind encoded ⟨UInt32.ofNat typeId⟩ with
      | none => fail .malformed
      | some kind =>
          let subscription : StoredSubscription :=
            ⟨⟨subscriber⟩, ⟨UInt32.ofNat typeId⟩, ⟨handler⟩, kind, encoded⟩
          if subscription.handler = .none then fail .malformed
          else subscriptions remaining (table.push subscription)

def replay : Nat → SortedMap ReplayKey UInt64 → Cursor Error (SortedMap ReplayKey UInt64)
  | 0, known => pure known
  | remaining + 1, known => do
      let sender ← array Error.malformed 16
      let session ← array Error.malformed 16
      let expires ← number Error.malformed 8
      let key := replayKey ⟨sender⟩ ⟨session⟩
      if known.contains key then fail .malformed
      else replay remaining (known.insert key (UInt64.ofNat expires))

def state (limits : StoreLimits) : Cursor Error StoreState := do
  let magicRead ← take .malformed 8
  if magicRead ≠ stateMagic then fail .malformed
  else do
    let keyCount ← count limits.agents
    let keysRead ← keys keyCount .empty
    let environmentCount ← count limits.environments
    let environmentsRead ← environments environmentCount .empty
    let subscriptionCount ← count limits.subscriptions
    let subscriptionsRead ← subscriptions subscriptionCount .empty
    let replayCount ← count limits.replays
    let replayRead ← replay replayCount .empty
    pure ⟨keysRead, environmentsRead, subscriptionsRead,
      ⟨replayRead, limits.replays, limits.replayTtlSeconds⟩⟩

end StateCursor

def decodeState (input : Bytes) (limits : StoreLimits) : Except Error StoreState :=
  match StateCursor.state limits input with
  | .ok (state, []) => .ok state
  | .ok (_, _ :: _) => .error .malformed
  | .error error => .error error

/-- A snapshot is accepted when it is read to its end. -/
theorem decodeState_eq_ok {input : Bytes} {limits : StoreLimits} {state : StoreState} :
    decodeState input limits = .ok state ↔ StateCursor.state limits input = .ok (state, []) := by
  rw [decodeState]
  constructor
  · intro read
    split at read
    · rename_i accepted
      cases read
      exact accepted
    · cases read
    · cases read
  · intro accepted
    rw [accepted]

/-! ## The snapshot file -/

/-- What the file system does to one commit. -/
inductive CommitFault where
  | none
  | openFails
  | writeFails (written : Nat)
  | syncFails
  | renameFails

/-- A snapshot path, its temporary sibling and what will happen to the next commits. -/
structure SnapshotFile where
  contents : Option Bytes
  temporary : Option Bytes
  faults : List CommitFault

def maxSnapshotLen : Nat := 16 * 1024 * 1024

namespace SnapshotFile

/-- Writes the temporary file, which must not exist yet, and renames it over the snapshot. -/
def commit (file : SnapshotFile) (bytes : Bytes) : Except Error Unit × SnapshotFile :=
  if bytes.length > maxSnapshotLen then (.error .oversized, file)
  else
    let fault := file.faults.headD .none
    let file := { file with faults := file.faults.tail }
    match file.temporary, fault with
    | some _, _ => (.error .capacity, file)
    | none, .openFails => (.error .capacity, file)
    | none, .writeFails written =>
        (.error .capacity, { file with temporary := some (bytes.take written) })
    | none, .syncFails => (.error .capacity, { file with temporary := some bytes })
    | none, .renameFails => (.error .capacity, { file with temporary := some bytes })
    | none, .none => (.ok (), { file with contents := some bytes, temporary := none })

/-- Reads a bounded snapshot; `readFails` stands for any error but an absent file. -/
def load (file : SnapshotFile) (readFails : Bool) : Except Error (Option Bytes) :=
  if readFails then .error .capacity
  else
    match file.contents with
    | none => .ok none
    | some bytes => if bytes.length ≤ maxSnapshotLen then .ok (some bytes) else .error .oversized

theorem load_eq_ok {file : SnapshotFile} {readFails : Bool} {contents : Option Bytes}
    (loaded : file.load readFails = .ok contents) : file.contents = contents := by
  unfold load at loaded
  split at loaded
  · cases loaded
  · split at loaded
    · rename_i absent
      cases loaded
      exact absent
    · rename_i bytes present
      split at loaded
      · cases loaded
        exact present
      · cases loaded

theorem commit_eq_ok {file : SnapshotFile} {bytes : Bytes} :
    (file.commit bytes).1 = .ok () ↔ bytes.length ≤ maxSnapshotLen ∧ file.temporary = none ∧
      file.faults.headD .none = .none := by
  unfold commit
  split
  · rename_i large
    simp only [reduceCtorEq, Nat.not_le.mpr large, false_and]
  · rename_i fits
    simp only [Nat.not_lt.mp fits, true_and]
    split
    · rename_i held absent
      simp only [absent, reduceCtorEq, false_and]
    all_goals
      rename_i absent fault
      simp only [absent, fault, reduceCtorEq, and_false, and_self]

theorem commit_of_ok {file : SnapshotFile} {bytes : Bytes}
    (committed : (file.commit bytes).1 = .ok ()) :
    (file.commit bytes).2 = ⟨some bytes, none, file.faults.tail⟩ := by
  obtain ⟨fits, absent, fault⟩ := commit_eq_ok.mp committed
  simp only [commit, if_neg (Nat.not_lt.mpr fits), absent, fault]

theorem commit_of_error {file : SnapshotFile} {bytes : Bytes} {error : Error}
    (failed : (file.commit bytes).1 = .error error) :
    (file.commit bytes).2.contents = file.contents := by
  unfold commit at failed ⊢
  split
  · rfl
  · dsimp only at failed ⊢
    split <;> first | rfl | simp_all

theorem commit_fails (file : SnapshotFile) (bytes : Bytes) :
    FailsOnly (fun error => error = .oversized ∨ error = .capacity) (file.commit bytes).1 := by
  unfold commit
  split
  · exact failsOnly_error (.inl rfl)
  · dsimp only
    split
    · exact failsOnly_error (.inr rfl)
    · exact failsOnly_error (.inr rfl)
    · exact failsOnly_error (.inr rfl)
    · exact failsOnly_error (.inr rfl)
    · exact failsOnly_error (.inr rfl)
    · exact failsOnly_ok ()

/-- Nothing goes wrong with the file itself from now on. -/
def FaultFree (file : SnapshotFile) : Prop :=
  file.temporary = none ∧ ∀ fault ∈ file.faults, fault = .none

end SnapshotFile

end SecurePubSub.Authority
