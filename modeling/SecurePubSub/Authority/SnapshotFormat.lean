import SecurePubSub.Authority.SnapshotRoundTrip
import SecurePubSub.Authority.Store

namespace SecurePubSub.Authority

open SecurePubSub.Data SecurePubSub.Data.Fallible SecurePubSub.Protocol

/-! What an accepted snapshot guarantees, for bytes from any source.

The reader rejects a repeated agent, environment or session. It files the
subscription records as they come, so their order and their uniqueness are those
of the file.
-/

/-- The records of a snapshot in file order; the kind of a subscription is not written. -/
structure SnapshotRecords where
  keys : List (AgentId × PublicKeys)
  environments : List (AgentId × Bytes)
  subscriptions : List StoredSubscription
  replay : List (ReplayKey × UInt64)

/-- The bytes are the four sections of these records. -/
def SnapshotRecords.Written (records : SnapshotRecords) (input : Bytes) : Prop :=
  ∃ environments subscriptions,
    records.environments.mapM encodeEnvironmentEntry = .ok environments ∧
    records.subscriptions.mapM encodeSubscriptionEntry = .ok subscriptions ∧
    records.keys.length < 2 ^ 32 ∧ records.environments.length < 2 ^ 32 ∧
    records.subscriptions.length < 2 ^ 32 ∧ records.replay.length < 2 ^ 32 ∧
    input = stateMagic ++ (beBytes 4 records.keys.length ++
      (records.keys.flatMap encodeKeyEntry ++ (beBytes 4 records.environments.length ++
        (environments.flatten ++ (beBytes 4 records.subscriptions.length ++
          (subscriptions.flatten ++ (beBytes 4 records.replay.length ++
            records.replay.flatMap encodeReplayEntry)))))))

/-- The subscription records of each type stand in strictly ascending slot order. -/
def SubscriptionsAscend (input : Bytes) : Prop :=
  ∃ records : SnapshotRecords, records.Written input ∧
    ∀ typeId, BucketSorted (records.subscriptions.filter (fun entry => entry.typeId = typeId))

/-- The representation invariant of a store. -/
structure StoreState.Valid (state : StoreState) (limits : StoreLimits) : Prop where
  agents_unique : (state.keys.entries.map Prod.fst).Nodup
  environments_unique : (state.environments.entries.map Prod.fst).Nodup
  replays_unique : (state.replay.entries.entries.map Prod.fst).Nodup
  slots_unique : ∀ typeId,
    ((state.subscriptions.forType typeId).map StoredSubscription.slot).Nodup
  sorted : ∀ typeId, (state.subscriptions.forType typeId).Pairwise
    (fun left right => left.slot ≤ right.slot)
  agents_bounded : state.keys.size ≤ limits.agents
  environments_bounded : state.environments.size ≤ limits.environments
  subscriptions_bounded : state.subscriptions.count ≤ limits.subscriptions
  replays_bounded : state.replay.entries.size ≤ limits.replays

/-- A one-shot subscription is claimed no second time. -/
def StoreState.ClaimsOnce (state : StoreState) : Prop :=
  ∀ subscription : StoredSubscription, subscription.kind = .oneShot →
    (state.claimSubscription subscription).1 = true →
      ((state.claimSubscription subscription).2.claimSubscription subscription).1 = false

/-! ## What was read was written so -/

namespace StateCursor

open SecurePubSub.Data.Cursor

theorem count_eq_ok {maximum value : Nat} {input rest : Bytes}
    (read : count maximum input = .ok (value, rest)) :
    input = beBytes 4 value ++ rest ∧ value < 2 ^ 32 ∧ value ≤ maximum := by
  obtain ⟨number, middle, digits, read⟩ := Cursor.bind_eq_ok read
  obtain ⟨split, small⟩ := number_eq_ok digits
  split at read
  · cases read
  · rename_i within
    cases read
    exact ⟨split, small, Nat.not_lt.mp within⟩

theorem bytes_eq_ok {maximum : Nat} {input value rest : Bytes}
    (read : bytes maximum input = .ok (value, rest)) :
    input = beBytes 4 value.length ++ (value ++ rest) ∧ value.length < 2 ^ 32 := by
  obtain ⟨length, middle, counted, read⟩ := Cursor.bind_eq_ok read
  obtain ⟨split, small, _⟩ := count_eq_ok counted
  obtain ⟨splitRest, exact⟩ := take_eq_ok read
  subst exact splitRest
  exact ⟨split, small⟩

theorem keys_written {remaining : Nat} {known result : SortedMap AgentId PublicKeys}
    {input rest : Bytes} (read : keys remaining known input = .ok (result, rest)) :
    ∃ entries : List (AgentId × PublicKeys), entries.length = remaining ∧
      input = entries.flatMap encodeKeyEntry ++ rest ∧ result.size ≤ known.size + remaining := by
  induction remaining generalizing known input with
  | zero =>
      cases read
      exact ⟨[], rfl, rfl, Nat.le_refl _⟩
  | succ remaining ih =>
      obtain ⟨agent, afterAgent, agentRead, read⟩ := Cursor.bind_eq_ok read
      split at read
      · cases read
      · obtain ⟨ed25519, afterFirst, firstRead, read⟩ := Cursor.bind_eq_ok read
        obtain ⟨x25519, afterSecond, secondRead, read⟩ := Cursor.bind_eq_ok read
        split at read
        · cases read
        · obtain ⟨entries, length, split, size⟩ := ih read
          have grown := known.size_insert_le ⟨agent⟩ ⟨ed25519, x25519⟩
          refine ⟨(⟨agent⟩, ⟨ed25519, x25519⟩) :: entries, congrArg (· + 1) length, ?_, by omega⟩
          rw [array_eq_ok agentRead, array_eq_ok firstRead, array_eq_ok secondRead, split,
            List.flatMap_cons, encodeKeyEntry]
          simp only [List.append_assoc]

theorem environments_written {remaining : Nat} {known result : SortedMap AgentId Bytes}
    {input rest : Bytes} (read : environments remaining known input = .ok (result, rest)) :
    ∃ (entries : List (AgentId × Bytes)) (encoded : List Bytes), entries.length = remaining ∧
      entries.mapM encodeEnvironmentEntry = .ok encoded ∧ input = encoded.flatten ++ rest ∧
      result.size ≤ known.size + remaining := by
  induction remaining generalizing known input with
  | zero =>
      cases read
      exact ⟨[], [], rfl, rfl, rfl, Nat.le_refl _⟩
  | succ remaining ih =>
      obtain ⟨agent, afterAgent, agentRead, read⟩ := Cursor.bind_eq_ok read
      obtain ⟨environment, afterBytes, bytesRead, read⟩ := Cursor.bind_eq_ok read
      split at read
      · cases read
      · obtain ⟨entries, encoded, length, written, split, size⟩ := ih read
        obtain ⟨field, small⟩ := bytes_eq_ok bytesRead
        have grown := known.size_insert_le ⟨agent⟩ environment
        refine ⟨(⟨agent⟩, environment) :: entries,
          (agent.bytes ++ (beBytes 4 environment.length ++ environment)) :: encoded,
          congrArg (· + 1) length, ?_, ?_, by omega⟩
        · apply Fallible.mapM_cons_eq_ok.mpr
          exact ⟨_, _, encodeEnvironmentEntry_eq_ok.mpr ⟨small, rfl⟩, written, rfl⟩
        · rw [array_eq_ok agentRead, field, split, List.flatten_cons]
          simp only [List.append_assoc]

theorem count_push (table : SubscriptionTable) (subscription : StoredSubscription) :
    (table.push subscription).count = table.count + 1 := by
  have traded := table.count_setBucket subscription.typeId
    (table.forType subscription.typeId ++ [subscription]) (by
      intro entry member
      cases List.mem_append.mp member with
      | inl old => exact SubscriptionTable.typeId_of_mem old
      | inr last => rw [List.mem_singleton.mp last])
  rw [List.length_append, List.length_singleton] at traded
  rw [SubscriptionTable.push]
  omega

theorem subscriptions_written {remaining : Nat} {table result : SubscriptionTable}
    {input rest : Bytes} (read : subscriptions remaining table input = .ok (result, rest)) :
    ∃ (entries : List StoredSubscription) (encoded : List Bytes), entries.length = remaining ∧
      entries.mapM encodeSubscriptionEntry = .ok encoded ∧ input = encoded.flatten ++ rest ∧
      result.count = table.count + remaining ∧ ∀ typeId, result.forType typeId =
        table.forType typeId ++ entries.filter (fun entry => entry.typeId = typeId) := by
  induction remaining generalizing table input with
  | zero =>
      cases read
      exact ⟨[], [], rfl, rfl, rfl, rfl, fun _ => (List.append_nil _).symm⟩
  | succ remaining ih =>
      obtain ⟨subscriber, afterSubscriber, subscriberRead, read⟩ := Cursor.bind_eq_ok read
      obtain ⟨typeId, afterType, typeRead, read⟩ := Cursor.bind_eq_ok read
      obtain ⟨handler, afterHandler, handlerRead, read⟩ := Cursor.bind_eq_ok read
      obtain ⟨content, afterBytes, bytesRead, read⟩ := Cursor.bind_eq_ok read
      cases kind : subscriptionKind content ⟨UInt32.ofNat typeId⟩ with
      | none => simp only [kind, fail_apply, reduceCtorEq] at read
      | some parsed =>
          simp only [kind] at read
          split at read
          · cases read
          · obtain ⟨entries, encoded, length, written, split, counted, filed⟩ := ih read
            obtain ⟨field, small⟩ := bytes_eq_ok bytesRead
            obtain ⟨typeField, typeSmall⟩ := number_eq_ok typeRead
            have typeKept : (UInt32.ofNat typeId).toNat = typeId := by
              have small : typeId < 2 ^ 32 := typeSmall
              rw [UInt32.toNat_ofNat', Nat.mod_eq_of_lt small]
            refine ⟨⟨⟨subscriber⟩, ⟨UInt32.ofNat typeId⟩, ⟨handler⟩, parsed, content⟩ :: entries,
              (subscriber.bytes ++ (beBytes 4 (UInt32.ofNat typeId).toNat ++
                (handler.bytes ++ (beBytes 4 content.length ++ content)))) :: encoded,
              congrArg (· + 1) length, ?_, ?_, ?_, fun wanted => ?_⟩
            · apply Fallible.mapM_cons_eq_ok.mpr
              exact ⟨_, _, encodeSubscriptionEntry_eq_ok.mpr ⟨small, rfl⟩, written, rfl⟩
            · rw [array_eq_ok subscriberRead, typeField, array_eq_ok handlerRead, field, split,
                List.flatten_cons, typeKept]
              simp only [List.append_assoc]
            · rw [counted, count_push]
              omega
            · rw [filed, forType_push, List.append_assoc, ← List.filter_append]
              rfl

theorem replay_written {remaining : Nat} {known result : SortedMap ReplayKey UInt64}
    {input rest : Bytes} (read : replay remaining known input = .ok (result, rest)) :
    ∃ entries : List (ReplayKey × UInt64), entries.length = remaining ∧
      input = entries.flatMap encodeReplayEntry ++ rest ∧
      result.size ≤ known.size + remaining := by
  induction remaining generalizing known input with
  | zero =>
      cases read
      exact ⟨[], rfl, rfl, Nat.le_refl _⟩
  | succ remaining ih =>
      obtain ⟨sender, afterSender, senderRead, read⟩ := Cursor.bind_eq_ok read
      obtain ⟨session, afterSession, sessionRead, read⟩ := Cursor.bind_eq_ok read
      obtain ⟨expires, afterExpires, expiresRead, read⟩ := Cursor.bind_eq_ok read
      dsimp only at read
      split at read
      · cases read
      · obtain ⟨entries, length, split, size⟩ := ih read
        obtain ⟨field, expiresSmall⟩ := number_eq_ok expiresRead
        have kept : (UInt64.ofNat expires).toNat = expires := by
          have small : expires < 2 ^ 64 := expiresSmall
          rw [UInt64.toNat_ofNat', Nat.mod_eq_of_lt small]
        have grown := known.size_insert_le (replayKey ⟨sender⟩ ⟨session⟩) (UInt64.ofNat expires)
        refine ⟨(replayKey ⟨sender⟩ ⟨session⟩, UInt64.ofNat expires) :: entries,
          congrArg (· + 1) length, ?_, by omega⟩
        rw [array_eq_ok senderRead, array_eq_ok sessionRead, field, split, List.flatMap_cons,
          encodeReplayEntry, kept]
        simp only [List.append_assoc]
        rfl

/-! ## Sections are read to their end, in whatever order they are -/

theorem keys_rest {entries : List (AgentId × PublicKeys)} {known result : SortedMap AgentId PublicKeys}
    {rest left : Bytes} (read : keys entries.length known (entries.flatMap encodeKeyEntry ++ rest) =
      .ok (result, left)) : left = rest := by
  induction entries generalizing known with
  | nil =>
      cases read
      rfl
  | cons head tail ih =>
      rw [List.flatMap_cons, encodeKeyEntry, List.append_assoc, List.append_assoc,
        List.append_assoc] at read
      have read := Cursor.bind_of_ok read (array_append Error.malformed head.1.value _)
      split at read
      · cases read
      · have read := Cursor.bind_of_ok read (array_append Error.malformed head.2.ed25519 _)
        have read := Cursor.bind_of_ok read (array_append Error.malformed head.2.x25519 _)
        split at read
        · cases read
        · exact ih read

theorem environments_rest {entries : List (AgentId × Bytes)} {encoded : List Bytes}
    {known result : SortedMap AgentId Bytes} {rest left : Bytes}
    (written : entries.mapM encodeEnvironmentEntry = .ok encoded)
    (read : environments entries.length known (encoded.flatten ++ rest) = .ok (result, left)) :
    left = rest := by
  induction entries generalizing known encoded with
  | nil =>
      cases written
      cases read
      rfl
  | cons head tail ih =>
      obtain ⟨first, later, headWritten, tailWritten, rfl⟩ := Fallible.mapM_cons_eq_ok.mp written
      obtain ⟨small, rfl⟩ := encodeEnvironmentEntry_eq_ok.mp headWritten
      simp only [List.flatten_cons, List.append_assoc] at read
      have read := Cursor.bind_of_ok read (array_append Error.malformed head.1.value _)
      obtain ⟨stored, middle, bytesRead, read⟩ := Cursor.bind_eq_ok read
      obtain ⟨rfl, rfl⟩ := bytes_eq small bytesRead
      split at read
      · cases read
      · exact ih tailWritten read

end StateCursor

/-- What is accepted was written of some records, which the buckets hold in file order. -/
theorem decodeState_written {bytes : Bytes} {limits : StoreLimits} {state : StoreState}
    (read : decodeState bytes limits = .ok state) :
    (∃ records : SnapshotRecords, records.Written bytes ∧ ∀ typeId,
      state.subscriptions.forType typeId =
        records.subscriptions.filter (fun entry => entry.typeId = typeId)) ∧
      state.keys.size ≤ limits.agents ∧ state.environments.size ≤ limits.environments ∧
      state.subscriptions.count ≤ limits.subscriptions ∧
      state.replay.entries.size ≤ limits.replays := by
  have whole := decodeState_eq_ok.mp read
  obtain ⟨magic, afterMagic, magicRead, whole⟩ := Cursor.bind_eq_ok whole
  obtain ⟨magicSplit, _⟩ := Cursor.take_eq_ok magicRead
  split at whole
  · cases whole
  · rename_i sameMagic
    obtain ⟨keyCount, _, keysCounted, whole⟩ := Cursor.bind_eq_ok whole
    obtain ⟨keysRead, _, keysDone, whole⟩ := Cursor.bind_eq_ok whole
    obtain ⟨environmentCount, _, environmentsCounted, whole⟩ := Cursor.bind_eq_ok whole
    obtain ⟨environmentsRead, _, environmentsDone, whole⟩ := Cursor.bind_eq_ok whole
    obtain ⟨subscriptionCount, _, subscriptionsCounted, whole⟩ := Cursor.bind_eq_ok whole
    obtain ⟨subscriptionsRead, _, subscriptionsDone, whole⟩ := Cursor.bind_eq_ok whole
    obtain ⟨replayCount, _, replayCounted, whole⟩ := Cursor.bind_eq_ok whole
    obtain ⟨replayRead, _, replayDone, whole⟩ := Cursor.bind_eq_ok whole
    cases whole
    obtain ⟨split₁, keysSmall, keysFew⟩ := StateCursor.count_eq_ok keysCounted
    obtain ⟨keys, rfl, split₂, keysSize⟩ := StateCursor.keys_written keysDone
    obtain ⟨split₃, environmentsSmall, environmentsFew⟩ :=
      StateCursor.count_eq_ok environmentsCounted
    obtain ⟨environments, environmentsEncoded, rfl, environmentsWritten, split₄, environmentsSize⟩ :=
      StateCursor.environments_written environmentsDone
    obtain ⟨split₅, subscriptionsSmall, subscriptionsFew⟩ :=
      StateCursor.count_eq_ok subscriptionsCounted
    obtain ⟨subscriptions, subscriptionsEncoded, rfl, subscriptionsWritten, split₆, counted, filed⟩ :=
      StateCursor.subscriptions_written subscriptionsDone
    obtain ⟨split₇, replaySmall, replayFew⟩ := StateCursor.count_eq_ok replayCounted
    obtain ⟨replay, rfl, split₈, replaySize⟩ := StateCursor.replay_written replayDone
    refine ⟨⟨⟨keys, environments, subscriptions, replay⟩, ⟨environmentsEncoded,
      subscriptionsEncoded, environmentsWritten, subscriptionsWritten, keysSmall,
      environmentsSmall, subscriptionsSmall, replaySmall, ?_⟩, filed⟩, ?_, ?_, ?_, ?_⟩
    · rw [magicSplit, not_not.mp sameMagic, split₁, split₂, split₃, split₄, split₅, split₆,
        split₇, split₈, List.append_nil]
    · exact Nat.le_trans keysSize (by simpa [SortedMap.size] using keysFew)
    · exact Nat.le_trans environmentsSize (by simpa [SortedMap.size] using environmentsFew)
    · have start : SubscriptionTable.empty.count = 0 := rfl
      change subscriptionsRead.count ≤ _
      omega
    · exact Nat.le_trans replaySize (by simpa [SortedMap.size] using replayFew)

/-- The buckets hold the records of any layout of the bytes, with the kinds that were parsed. -/
theorem decodeState_of_written {records : SnapshotRecords} {bytes : Bytes} {limits : StoreLimits}
    {state : StoreState} (written : records.Written bytes)
    (read : decodeState bytes limits = .ok state) (typeId : TypeId) :
    state.subscriptions.forType typeId =
      (records.subscriptions.filter (fun entry => entry.typeId = typeId)).map
        StateCursor.rekind := by
  obtain ⟨environments, subscriptions, environmentsWritten, subscriptionsWritten, keysFew,
    environmentsFew, subscriptionsFew, replayFew, rfl⟩ := written
  have whole := decodeState_eq_ok.mp read
  have magic : stateMagic.length = 8 := by decide
  have whole := Cursor.bind_of_ok whole (Cursor.take_append Error.malformed _ magic)
  split at whole
  · exact absurd rfl ‹_›
  · obtain ⟨keyCount, _, counted, whole⟩ := Cursor.bind_eq_ok whole
    obtain ⟨rfl, rfl, _⟩ := StateCursor.count_eq keysFew counted
    obtain ⟨keys, _, keysRead, whole⟩ := Cursor.bind_eq_ok whole
    cases StateCursor.keys_rest keysRead
    obtain ⟨environmentCount, _, counted, whole⟩ := Cursor.bind_eq_ok whole
    obtain ⟨rfl, rfl, _⟩ := StateCursor.count_eq environmentsFew counted
    obtain ⟨stored, _, environmentsRead, whole⟩ := Cursor.bind_eq_ok whole
    cases StateCursor.environments_rest environmentsWritten environmentsRead
    obtain ⟨subscriptionCount, _, counted, whole⟩ := Cursor.bind_eq_ok whole
    obtain ⟨rfl, rfl, _⟩ := StateCursor.count_eq subscriptionsFew counted
    obtain ⟨table, _, subscriptionsRead, whole⟩ := Cursor.bind_eq_ok whole
    obtain ⟨_, filed⟩ := StateCursor.subscriptions_eq subscriptionsWritten subscriptionsRead
    obtain ⟨_, _, _, whole⟩ := Cursor.bind_eq_ok whole
    obtain ⟨_, _, _, whole⟩ := Cursor.bind_eq_ok whole
    cases whole
    exact filed typeId

/-! ## Validity -/

theorem bucketSorted_iff {bucket : List StoredSubscription} :
    BucketSorted bucket ↔ (bucket.map StoredSubscription.slot).Nodup ∧
      bucket.Pairwise (fun left right => left.slot ≤ right.slot) := by
  rw [List.Nodup, List.pairwise_map, BucketSorted]
  constructor
  · exact fun sorted => ⟨sorted.imp (fun below => below.ne), sorted.imp (fun below => below.le)⟩
  · rintro ⟨distinct, ordered⟩
    exact (distinct.and ordered).imp (fun both => lt_of_le_of_ne both.2 both.1)

/-- Ascending slots leave no second copy behind a claim. -/
theorem claimsOnce_of_sorted {state : StoreState}
    (sorted : ∀ typeId, BucketSorted (state.subscriptions.forType typeId)) : state.ClaimsOnce := by
  intro subscription oneShot claimed
  have distinct : (state.subscriptions.forType subscription.typeId).Nodup :=
    (sorted subscription.typeId).imp (fun below same =>
      below.ne (congrArg StoredSubscription.slot same))
  refine Bool.eq_false_iff.mpr (fun again => ?_)
  have remains := SubscriptionTable.claim_eq_true.mp again
  rw [StoreState.claimSubscription, SubscriptionTable.forType_claim, if_pos ⟨rfl, oneShot⟩] at remains
  exact (List.Nodup.not_mem_erase distinct) remains

/-- An accepted snapshot is a valid store exactly when its subscription records ascend. -/
theorem decodeState_valid_iff {bytes : Bytes} {limits : StoreLimits} {state : StoreState}
    (read : decodeState bytes limits = .ok state) :
    state.Valid limits ∧ state.ClaimsOnce ↔ SubscriptionsAscend bytes := by
  obtain ⟨⟨records, written, filed⟩, agents, environments, subscriptions, replays⟩ :=
    decodeState_written read
  constructor
  · intro ⟨valid, _⟩
    refine ⟨records, written, fun typeId => ?_⟩
    rw [← filed]
    exact bucketSorted_iff.mpr ⟨valid.slots_unique typeId, valid.sorted typeId⟩
  · intro ⟨others, otherWritten, ascending⟩
    have sorted : ∀ typeId, BucketSorted (state.subscriptions.forType typeId) := by
      intro typeId
      rw [decodeState_of_written otherWritten read, BucketSorted, List.pairwise_map]
      exact ascending typeId
    exact ⟨⟨SortedMap.keys_nodup _, SortedMap.keys_nodup _, SortedMap.keys_nodup _,
      fun typeId => (bucketSorted_iff.mp (sorted typeId)).1,
      fun typeId => (bucketSorted_iff.mp (sorted typeId)).2, agents, environments, subscriptions,
      replays⟩, claimsOnce_of_sorted sorted⟩

def repeatedSubscription (count : Nat) : Bytes :=
  let entry := (⟨.fill 16 2⟩ : AgentId).value.bytes ++ (beBytes 4 5 ++ (beBytes 16 9 ++
    (beBytes 4 6 ++ subscriptionBytes opSubscribe ⟨5⟩ [])))
  stateMagic ++ (beBytes 4 0 ++ (beBytes 4 0 ++ (beBytes 4 count ++
    ((List.replicate count entry).flatten ++ beBytes 4 0))))

def repeatedOneShot : StoredSubscription :=
  ⟨⟨.fill 16 2⟩, ⟨5⟩, ⟨beBytes 16 9, beBytes_length 16 9⟩, .oneShot,
    subscriptionBytes opSubscribe ⟨5⟩ []⟩

theorem repeated_subscription_accepted :
    ¬ ∀ (bytes : Bytes) (limits : StoreLimits) (state : StoreState),
      decodeState bytes limits = .ok state → state.Valid limits ∧ state.ClaimsOnce := by
  intro claimed
  have computed : (decodeState (repeatedSubscription 2) ⟨8, 8, 8, 8, 100⟩).map (fun state =>
      ((state.claimSubscription repeatedOneShot).1,
        ((state.claimSubscription repeatedOneShot).2.claimSubscription repeatedOneShot).1)) =
      .ok (true, true) := by decide +kernel
  obtain ⟨state, read, twice⟩ := map_eq_ok.mp computed
  obtain ⟨first, second⟩ := Prod.mk.inj twice
  have once := (claimed _ _ _ read).2 repeatedOneShot rfl first
  rw [second] at once
  cases once

theorem sample_valid : ∃ state,
    decodeState (repeatedSubscription 1) ⟨8, 8, 8, 8, 100⟩ = .ok state ∧
      (state.Valid ⟨8, 8, 8, 8, 100⟩ ∧ state.ClaimsOnce ↔
        SubscriptionsAscend (repeatedSubscription 1)) := by
  have accepted : (decodeState (repeatedSubscription 1) ⟨8, 8, 8, 8, 100⟩).map (fun _ => ()) =
      .ok () := by decide +kernel
  obtain ⟨state, read, _⟩ := map_eq_ok.mp accepted
  exact ⟨state, read, decodeState_valid_iff read⟩

end SecurePubSub.Authority
