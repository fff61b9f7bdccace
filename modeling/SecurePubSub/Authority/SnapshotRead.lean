import SecurePubSub.Authority.Snapshot

namespace SecurePubSub.Authority

open SecurePubSub.Data SecurePubSub.Data.Fallible SecurePubSub.Protocol

/-! What is read back from a snapshot that the store wrote.

A section that is accepted is read to its end and to the entries it was written
from; each lemma says so for the bytes of one section with anything behind them.
-/

namespace StateCursor

open SecurePubSub.Data.Cursor

theorem count_eq {maximum value result : Nat} {rest left : Bytes} (small : value < 2 ^ 32)
    (read : count maximum (beBytes 4 value ++ rest) = .ok (result, left)) :
    result = value ∧ left = rest ∧ value ≤ maximum := by
  have fits : value < 256 ^ 4 := small
  have read := Cursor.bind_of_ok read (number_append Error.malformed fits rest)
  split at read
  · cases read
  · rename_i within
    cases read
    exact ⟨rfl, rfl, Nat.not_lt.mp within⟩

theorem bytes_eq {maximum : Nat} {value result rest left : Bytes} (small : value.length < 2 ^ 32)
    (read : bytes maximum (beBytes 4 value.length ++ (value ++ rest)) = .ok (result, left)) :
    result = value ∧ left = rest := by
  obtain ⟨length, middle, counted, read⟩ := Cursor.bind_eq_ok read
  obtain ⟨rfl, rfl, _⟩ := count_eq small counted
  rw [take_append Error.malformed rest rfl] at read
  cases read
  exact ⟨rfl, rfl⟩

theorem contains_of_below {κ α : Type} [LinearOrder κ] {known : SortedMap κ α} {key : κ}
    (below : ∀ entry ∈ known.entries, entry.1 < key) : known.contains key = false := by
  rw [SortedMap.contains_eq, SortedMap.get_eq_none.mpr fun value member =>
    lt_irrefl key (below (key, value) member)]
  rfl

theorem keys_eq {entries : List (AgentId × PublicKeys)} {known result : SortedMap AgentId PublicKeys}
    {rest left : Bytes}
    (sorted : (known.entries ++ entries).Pairwise (fun left right => left.1 < right.1))
    (read : keys entries.length known (entries.flatMap encodeKeyEntry ++ rest) =
      .ok (result, left)) : result.entries = known.entries ++ entries ∧ left = rest := by
  induction entries generalizing known with
  | nil =>
      cases read
      exact ⟨(List.append_nil _).symm, rfl⟩
  | cons head tail ih =>
      obtain ⟨agent, ed25519, x25519⟩ := head
      rw [List.flatMap_cons, encodeKeyEntry, List.append_assoc, List.append_assoc,
        List.append_assoc] at read
      have read := Cursor.bind_of_ok read (array_append Error.malformed agent.value _)
      have below : ∀ entry ∈ known.entries, entry.1 < agent := fun entry member =>
        (List.pairwise_append.mp sorted).2.2 entry member _ List.mem_cons_self
      split at read
      · cases read
      · have read := Cursor.bind_of_ok read (array_append Error.malformed ed25519 _)
        have read := Cursor.bind_of_ok read (array_append Error.malformed x25519 _)
        split at read
        · cases read
        · have grown : (known.insert agent ⟨ed25519, x25519⟩).entries =
              known.entries ++ [(agent, ⟨ed25519, x25519⟩)] := SortedMap.insertEntry_above below
          have later := ih (by rw [grown, List.append_assoc]; exact sorted) read
          rw [grown, List.append_assoc] at later
          exact later

theorem environments_eq {entries : List (AgentId × Bytes)} {encoded : List Bytes}
    {known result : SortedMap AgentId Bytes} {rest left : Bytes}
    (written : entries.mapM encodeEnvironmentEntry = .ok encoded)
    (sorted : (known.entries ++ entries).Pairwise (fun left right => left.1 < right.1))
    (read : environments entries.length known (encoded.flatten ++ rest) = .ok (result, left)) :
    result.entries = known.entries ++ entries ∧ left = rest := by
  induction entries generalizing known encoded with
  | nil =>
      cases written
      cases read
      exact ⟨(List.append_nil _).symm, rfl⟩
  | cons head tail ih =>
      obtain ⟨agent, environment⟩ := head
      obtain ⟨first, later, headWritten, tailWritten, rfl⟩ := Fallible.mapM_cons_eq_ok.mp written
      obtain ⟨small, rfl⟩ := encodeEnvironmentEntry_eq_ok.mp headWritten
      simp only [List.flatten_cons, List.append_assoc] at read
      have read := Cursor.bind_of_ok read (array_append Error.malformed agent.value _)
      obtain ⟨stored, middle, bytesRead, read⟩ := Cursor.bind_eq_ok read
      obtain ⟨rfl, rfl⟩ := bytes_eq small bytesRead
      have below : ∀ entry ∈ known.entries, entry.1 < agent := fun entry member =>
        (List.pairwise_append.mp sorted).2.2 entry member _ List.mem_cons_self
      split at read
      · cases read
      · have grown : (known.insert agent stored).entries = known.entries ++ [(agent, stored)] :=
          SortedMap.insertEntry_above below
        have finished := ih tailWritten (by rw [grown, List.append_assoc]; exact sorted) read
        rw [grown, List.append_assoc] at finished
        exact finished

/-- The kind a record is read back with, which its encoded operation determines. -/
def rekind (subscription : StoredSubscription) : StoredSubscription :=
  { subscription with
    kind := (subscriptionKind subscription.encoded subscription.typeId).getD subscription.kind }

theorem forType_push (table : SubscriptionTable) (subscription : StoredSubscription)
    (typeId : TypeId) :
    (table.push subscription).forType typeId =
      table.forType typeId ++ [subscription].filter (fun entry => entry.typeId = typeId) := by
  rw [SubscriptionTable.push, SubscriptionTable.forType_setBucket]
  by_cases same : typeId = subscription.typeId
  · simp [same]
  · simp [same, Ne.symm same]

/-- The subscriptions are read to their end and filed by type in the order of the snapshot. -/
theorem subscriptions_eq {entries : List StoredSubscription} {encoded : List Bytes}
    {table result : SubscriptionTable} {rest left : Bytes}
    (written : entries.mapM encodeSubscriptionEntry = .ok encoded)
    (read : subscriptions entries.length table (encoded.flatten ++ rest) = .ok (result, left)) :
    left = rest ∧ ∀ typeId, result.forType typeId =
      table.forType typeId ++ (entries.filter (fun entry => entry.typeId = typeId)).map rekind := by
  induction entries generalizing table encoded with
  | nil =>
      cases written
      cases read
      exact ⟨rfl, fun _ => (List.append_nil _).symm⟩
  | cons head tail ih =>
      obtain ⟨first, later, headWritten, tailWritten, rfl⟩ := Fallible.mapM_cons_eq_ok.mp written
      obtain ⟨small, rfl⟩ := encodeSubscriptionEntry_eq_ok.mp headWritten
      simp only [List.flatten_cons, List.append_assoc] at read
      have read := Cursor.bind_of_ok read (array_append Error.malformed head.subscriber.value _)
      have read := Cursor.bind_of_ok read
        (number_append Error.malformed head.typeId.value.toNat_lt _)
      have read := Cursor.bind_of_ok read (array_append Error.malformed head.handler.value _)
      obtain ⟨stored, middle, bytesRead, read⟩ := Cursor.bind_eq_ok read
      obtain ⟨rfl, rfl⟩ := bytes_eq small bytesRead
      rw [UInt32.ofNat_toNat] at read
      cases kind : subscriptionKind head.encoded head.typeId with
      | none => simp only [kind, fail_apply, reduceCtorEq] at read
      | some kind' =>
          simp only [kind] at read
          split at read
          · cases read
          · obtain ⟨rest, filed⟩ := ih tailWritten read
            refine ⟨rest, fun typeId => ?_⟩
            have same : rekind head =
                ⟨head.subscriber, head.typeId, head.handler, kind', head.encoded⟩ := by
              rw [rekind, kind]
              rfl
            rw [filed, forType_push, List.filter_cons, List.append_assoc]
            by_cases own : head.typeId = typeId <;> simp [own, same]

theorem replay_eq {entries : List (ReplayKey × UInt64)} {known result : SortedMap ReplayKey UInt64}
    {rest left : Bytes}
    (sorted : (known.entries ++ entries).Pairwise (fun left right => left.1 < right.1))
    (read : replay entries.length known (entries.flatMap encodeReplayEntry ++ rest) =
      .ok (result, left)) : result.entries = known.entries ++ entries ∧ left = rest := by
  induction entries generalizing known with
  | nil =>
      cases read
      exact ⟨(List.append_nil _).symm, rfl⟩
  | cons head tail ih =>
      obtain ⟨key, expires⟩ := head
      rw [List.flatMap_cons, encodeReplayEntry, List.append_assoc, List.append_assoc,
        List.append_assoc] at read
      have read := Cursor.bind_of_ok read (array_append Error.malformed (ofLex key).1.value _)
      have read := Cursor.bind_of_ok read (array_append Error.malformed (ofLex key).2.value _)
      have read := Cursor.bind_of_ok read (number_append Error.malformed expires.toNat_lt _)
      have below : ∀ entry ∈ known.entries, entry.1 < key := fun entry member =>
        (List.pairwise_append.mp sorted).2.2 entry member _ List.mem_cons_self
      have sameKey : replayKey ⟨(ofLex key).1.value⟩ ⟨(ofLex key).2.value⟩ = key := rfl
      split at read
      · cases read
      · rw [sameKey, UInt64.ofNat_toNat] at read
        have grown : (known.insert key expires).entries = known.entries ++ [(key, expires)] :=
          SortedMap.insertEntry_above below
        have finished := ih (by rw [grown, List.append_assoc]; exact sorted) read
        rw [grown, List.append_assoc] at finished
        exact finished

end StateCursor

theorem SubscriptionTable.count_eq_listed (table : SubscriptionTable) :
    table.count = table.listed.length := by
  rw [count, listed, SortedMap.total, List.length_flatten]

theorem SubscriptionTable.listed_filter (table : SubscriptionTable) (typeId : TypeId) :
    table.listed.filter (fun entry => entry.typeId = typeId) = table.forType typeId := by
  obtain ⟨⟨entries, sorted⟩, filed⟩ := table
  rw [listed, forType]
  simp only [SortedMap.values, SortedMap.get]
  change ∀ entry ∈ entries, ∀ subscription ∈ entry.2, subscription.typeId = entry.1 at filed
  induction entries with
  | nil => rfl
  | cons head rest ih =>
      obtain ⟨current, bucket⟩ := head
      obtain ⟨above, restSorted⟩ := List.pairwise_cons.mp sorted
      have later := ih restSorted (fun entry member => filed entry (List.mem_cons_of_mem _ member))
      have own := filed (current, bucket) List.mem_cons_self
      rw [List.map_cons, List.flatten_cons, List.filter_append, later, SortedMap.lookupEntry]
      by_cases same : typeId = current
      · subst same
        have whole : bucket.filter (fun entry => entry.typeId = typeId) = bucket :=
          List.filter_eq_self.mpr (fun entry member => by simpa using own entry member)
        have absent : SortedMap.lookupEntry typeId rest = none :=
          SortedMap.lookupEntry_eq_none.mpr (fun value member => lt_irrefl typeId (above (typeId, value) member))
        simp [whole, absent]
      · have foreign : bucket.filter (fun entry => entry.typeId = typeId) = [] :=
          List.filter_eq_nil_iff.mpr (fun entry member => by
            simpa [own entry member] using Ne.symm same)
        simp [foreign, same]

/-- Sessions read from a snapshot get the time to live of the store that reads it. -/
theorem decodeState_ttl {bytes : Bytes} {limits : StoreLimits} {state : StoreState}
    (read : decodeState bytes limits = .ok state) :
    state.replay.ttlSeconds = limits.replayTtlSeconds := by
  obtain ⟨magic, _, _, whole⟩ := Cursor.bind_eq_ok (decodeState_eq_ok.mp read)
  split at whole
  · cases whole
  · obtain ⟨_, _, _, whole⟩ := Cursor.bind_eq_ok whole
    obtain ⟨_, _, _, whole⟩ := Cursor.bind_eq_ok whole
    obtain ⟨_, _, _, whole⟩ := Cursor.bind_eq_ok whole
    obtain ⟨_, _, _, whole⟩ := Cursor.bind_eq_ok whole
    obtain ⟨_, _, _, whole⟩ := Cursor.bind_eq_ok whole
    obtain ⟨_, _, _, whole⟩ := Cursor.bind_eq_ok whole
    obtain ⟨_, _, _, whole⟩ := Cursor.bind_eq_ok whole
    obtain ⟨_, _, _, whole⟩ := Cursor.bind_eq_ok whole
    cases whole
    rfl

/-- A snapshot that is accepted gives back the keys, the environments, the subscriptions and the
sessions it was written from. -/
theorem decodeState_encodeState {state reopened : StoreState} {bytes : Bytes} {limits : StoreLimits}
    (written : encodeState state = .ok bytes) (read : decodeState bytes limits = .ok reopened) :
    reopened.keys = state.keys ∧ reopened.environments = state.environments ∧
      reopened.replay = ⟨state.replay.entries, limits.replays, limits.replayTtlSeconds⟩ ∧
      ∀ typeId, reopened.subscriptions.forType typeId =
        (state.subscriptions.forType typeId).map StateCursor.rekind := by
  obtain ⟨environments, subscriptions, environmentsWritten, subscriptionsWritten, keysFew,
    environmentsFew, subscriptionsFew, replayFew, rfl⟩ := encodeState_eq_ok.mp written
  have whole := decodeState_eq_ok.mp read
  have magic : stateMagic.length = 8 := by decide
  have whole := Cursor.bind_of_ok whole (Cursor.take_append Error.malformed _ magic)
  split at whole
  · exact absurd rfl ‹_›
  · obtain ⟨keyCount, _, counted, whole⟩ := Cursor.bind_eq_ok whole
    obtain ⟨rfl, rfl, _⟩ := StateCursor.count_eq keysFew counted
    obtain ⟨keys, _, keysRead, whole⟩ := Cursor.bind_eq_ok whole
    obtain ⟨keysEq, rfl⟩ := StateCursor.keys_eq (by exact state.keys.sorted) keysRead
    obtain ⟨environmentCount, _, counted, whole⟩ := Cursor.bind_eq_ok whole
    obtain ⟨rfl, rfl, _⟩ := StateCursor.count_eq environmentsFew counted
    obtain ⟨stored, _, environmentsRead, whole⟩ := Cursor.bind_eq_ok whole
    obtain ⟨environmentsEq, rfl⟩ := StateCursor.environments_eq environmentsWritten
      (by exact state.environments.sorted) environmentsRead
    obtain ⟨subscriptionCount, _, counted, whole⟩ := Cursor.bind_eq_ok whole
    obtain ⟨rfl, rfl, _⟩ := StateCursor.count_eq subscriptionsFew counted
    obtain ⟨table, _, subscriptionsRead, whole⟩ := Cursor.bind_eq_ok whole
    rw [state.subscriptions.count_eq_listed] at subscriptionsRead
    obtain ⟨rfl, filed⟩ := StateCursor.subscriptions_eq subscriptionsWritten subscriptionsRead
    obtain ⟨replayCount, _, counted, whole⟩ := Cursor.bind_eq_ok whole
    obtain ⟨rfl, rfl, _⟩ := StateCursor.count_eq replayFew counted
    obtain ⟨sessions, _, replayRead, whole⟩ := Cursor.bind_eq_ok whole
    rw [← List.append_nil (List.flatMap _ _)] at replayRead
    obtain ⟨replayEq, rfl⟩ := StateCursor.replay_eq
      (by exact state.replay.entries.sorted) replayRead
    cases whole
    refine ⟨SortedMap.ext keysEq, SortedMap.ext environmentsEq,
      congrArg (fun entries => (⟨entries, _, _⟩ : ReplayCache)) (SortedMap.ext replayEq),
      fun typeId => ?_⟩
    exact (filed typeId).trans (by rw [SubscriptionTable.listed_filter]; rfl)

end SecurePubSub.Authority
