import SecurePubSub.Authority.Invariants
import SecurePubSub.Authority.SnapshotRead
import SecurePubSub.Protocol.PayloadCanonical

namespace SecurePubSub.Authority

open SecurePubSub.Data SecurePubSub.Data.Fallible SecurePubSub.Protocol

/-! The reader accepts what the writer wrote, and nothing shorter or longer.

A state that satisfies every condition of the reader is written, is read back to
its own contents, and its bytes are no front of another accepted snapshot.
-/

/-- Every condition that the reader checks. -/
structure StoreState.Readable (state : StoreState) (limits : StoreLimits) : Prop where
  ca_absent : state.keys.contains .ca = false
  environments_parse : ∀ agent encoded, state.environments.get agent = some encoded →
    ∃ environment, parseOperation encoded = .ok (.setEnvironment environment)
  subscriptions_parse : ∀ typeId, ∀ subscription ∈ state.subscriptions.forType typeId,
    subscription.Parses
  handlers_named : ∀ typeId, ∀ subscription ∈ state.subscriptions.forType typeId,
    subscription.handler ≠ .none
  agents_bounded : state.keys.size ≤ limits.agents
  environments_bounded : state.environments.size ≤ limits.environments
  subscriptions_bounded : state.subscriptions.count ≤ limits.subscriptions
  replays_bounded : state.replay.entries.size ≤ limits.replays

theorem isEnvironment_iff {encoded : Bytes} : StateCursor.isEnvironment encoded = true ↔
    ∃ environment, parseOperation encoded = .ok (.setEnvironment environment) := by
  rw [StateCursor.isEnvironment]
  split
  · rename_i environment parsed
    exact ⟨fun _ => ⟨environment, parsed⟩, fun _ => rfl⟩
  · rename_i other
    constructor
    · intro accepted
      cases accepted
    · rintro ⟨environment, parsed⟩
      exact absurd parsed (other environment)

theorem subscriptionKind_iff {subscription : StoredSubscription} :
    StateCursor.subscriptionKind subscription.encoded subscription.typeId =
      some subscription.kind ↔ subscription.Parses := by
  rw [StateCursor.subscriptionKind, StoredSubscription.Parses]
  cases parsed : parseOperation subscription.encoded with
  | error error => simp
  | ok operation =>
      cases operation with
      | subscribe typeId predicate => cases subscription.kind <;> simp [eq_comm]
      | subscribePermanent typeId predicate => cases subscription.kind <;> simp [eq_comm]
      | setEnvironment environment => cases subscription.kind <;> simp
      | publish typeId predicate value => cases subscription.kind <;> simp
      | publicationResponse typeId publisher value => cases subscription.kind <;> simp

theorem environment_length {encoded : Bytes}
    (valid : StateCursor.isEnvironment encoded = true) : encoded.length ≤ maxPlaintextLen := by
  obtain ⟨environment, parsed⟩ := isEnvironment_iff.mp valid
  exact parseOperation_length parsed

theorem StoredSubscription.Parses.length {subscription : StoredSubscription}
    (parses : subscription.Parses) : subscription.encoded.length ≤ maxPlaintextLen := by
  obtain ⟨predicate, parsed⟩ := parses
  exact parseOperation_length parsed

/-! ## Acceptance of each section -/

namespace StateCursor

open SecurePubSub.Data.Cursor

theorem count_append {maximum value : Nat} (within : value ≤ maximum) (small : value < 2 ^ 32)
    (rest : Bytes) : count maximum (beBytes 4 value ++ rest) = .ok (value, rest) := by
  have fits : value < 256 ^ 4 := small
  rw [count, bind_ok (number_append _ fits rest), if_neg (Nat.not_lt.mpr within)]
  rfl

theorem bytes_append {maximum : Nat} {value : Bytes} (within : value.length ≤ maximum)
    (small : value.length < 2 ^ 32) (rest : Bytes) :
    bytes maximum (beBytes 4 value.length ++ (value ++ rest)) = .ok (value, rest) := by
  rw [bytes, bind_ok (count_append within small _)]
  exact take_append _ rest rfl

theorem keys_accepts {entries : List (AgentId × PublicKeys)} {known : SortedMap AgentId PublicKeys}
    (sorted : (known.entries ++ entries).Pairwise (fun left right => left.1 < right.1))
    (ordinary : ∀ entry ∈ entries, entry.1 ≠ .ca) (rest : Bytes) :
    ∃ result, keys entries.length known (entries.flatMap encodeKeyEntry ++ rest) =
      .ok (result, rest) := by
  induction entries generalizing known with
  | nil => exact ⟨_, rfl⟩
  | cons head tail ih =>
      obtain ⟨agent, ed25519, x25519⟩ := head
      have below : ∀ entry ∈ known.entries, entry.1 < agent := fun entry member =>
        (List.pairwise_append.mp sorted).2.2 entry member _ List.mem_cons_self
      have notCa : agent ≠ .ca := ordinary _ List.mem_cons_self
      have grown : (known.insert agent ⟨ed25519, x25519⟩).entries =
          known.entries ++ [(agent, ⟨ed25519, x25519⟩)] := SortedMap.insertEntry_above below
      have fresh : ¬ known.contains agent = true := by rw [contains_of_below below]; nofun
      rw [List.flatMap_cons, encodeKeyEntry, List.append_assoc, List.append_assoc,
        List.append_assoc, List.length_cons, keys, bind_ok (array_append _ agent.value _),
        if_neg notCa, bind_ok (array_append _ ed25519 _), bind_ok (array_append _ x25519 _),
        if_neg fresh]
      exact ih (by rw [grown, List.append_assoc]; exact sorted)
        (fun entry member => ordinary entry (List.mem_cons_of_mem _ member))

theorem environments_accepts {entries : List (AgentId × Bytes)} {encoded : List Bytes}
    {known : SortedMap AgentId Bytes}
    (written : entries.mapM encodeEnvironmentEntry = .ok encoded)
    (sorted : (known.entries ++ entries).Pairwise (fun left right => left.1 < right.1))
    (parse : ∀ entry ∈ entries, isEnvironment entry.2 = true) (rest : Bytes) :
    ∃ result, environments entries.length known (encoded.flatten ++ rest) =
      .ok (result, rest) := by
  induction entries generalizing known encoded with
  | nil =>
      cases written
      exact ⟨_, rfl⟩
  | cons head tail ih =>
      obtain ⟨agent, environment⟩ := head
      obtain ⟨first, later, headWritten, tailWritten, rfl⟩ := Fallible.mapM_cons_eq_ok.mp written
      obtain ⟨small, rfl⟩ := encodeEnvironmentEntry_eq_ok.mp headWritten
      have below : ∀ entry ∈ known.entries, entry.1 < agent := fun entry member =>
        (List.pairwise_append.mp sorted).2.2 entry member _ List.mem_cons_self
      have valid : isEnvironment environment = true := parse _ List.mem_cons_self
      have grown : (known.insert agent environment).entries =
          known.entries ++ [(agent, environment)] := SortedMap.insertEntry_above below
      have fresh : ¬ (isEnvironment environment = false ∨ known.contains agent = true) := by
        rw [contains_of_below below, valid]
        simp
      simp only [List.flatten_cons, List.append_assoc]
      rw [List.length_cons, environments, bind_ok (array_append _ agent.value _),
        bind_ok (bytes_append (environment_length valid) small _), if_neg fresh]
      exact ih tailWritten (by rw [grown, List.append_assoc]; exact sorted)
        (fun entry member => parse entry (List.mem_cons_of_mem _ member))

theorem subscriptions_accepts {entries : List StoredSubscription} {encoded : List Bytes}
    {table : SubscriptionTable} (written : entries.mapM encodeSubscriptionEntry = .ok encoded)
    (parse : ∀ entry ∈ entries, entry.Parses) (named : ∀ entry ∈ entries, entry.handler ≠ .none)
    (rest : Bytes) :
    ∃ result, subscriptions entries.length table (encoded.flatten ++ rest) =
      .ok (result, rest) := by
  induction entries generalizing table encoded with
  | nil =>
      cases written
      exact ⟨_, rfl⟩
  | cons head tail ih =>
      obtain ⟨first, later, headWritten, tailWritten, rfl⟩ := Fallible.mapM_cons_eq_ok.mp written
      obtain ⟨small, rfl⟩ := encodeSubscriptionEntry_eq_ok.mp headWritten
      have parses := parse head List.mem_cons_self
      have handlerNamed : head.handler ≠ .none := named head List.mem_cons_self
      simp only [List.flatten_cons, List.append_assoc]
      rw [List.length_cons, subscriptions, bind_ok (array_append _ head.subscriber.value _),
        bind_ok (number_append _ head.typeId.value.toNat_lt _),
        bind_ok (array_append _ head.handler.value _),
        bind_ok (bytes_append parses.length small _), UInt32.ofNat_toNat,
        subscriptionKind_iff.mpr parses]
      simp only [if_neg handlerNamed]
      exact ih tailWritten (fun entry member => parse entry (List.mem_cons_of_mem _ member))
        (fun entry member => named entry (List.mem_cons_of_mem _ member))

theorem replay_accepts {entries : List (ReplayKey × UInt64)} {known : SortedMap ReplayKey UInt64}
    (sorted : (known.entries ++ entries).Pairwise (fun left right => left.1 < right.1))
    (rest : Bytes) :
    ∃ result, replay entries.length known (entries.flatMap encodeReplayEntry ++ rest) =
      .ok (result, rest) := by
  induction entries generalizing known with
  | nil => exact ⟨_, rfl⟩
  | cons head tail ih =>
      obtain ⟨key, expires⟩ := head
      have below : ∀ entry ∈ known.entries, entry.1 < key := fun entry member =>
        (List.pairwise_append.mp sorted).2.2 entry member _ List.mem_cons_self
      have sameKey : replayKey ⟨(ofLex key).1.value⟩ ⟨(ofLex key).2.value⟩ = key := rfl
      have grown : (known.insert key expires).entries = known.entries ++ [(key, expires)] :=
        SortedMap.insertEntry_above below
      have fresh : ¬ known.contains key = true := by rw [contains_of_below below]; nofun
      rw [List.flatMap_cons, encodeReplayEntry, List.append_assoc, List.append_assoc,
        List.append_assoc, List.length_cons, replay, bind_ok (array_append _ (ofLex key).1.value _),
        bind_ok (array_append _ (ofLex key).2.value _),
        bind_ok (number_append _ expires.toNat_lt _), sameKey, UInt64.ofNat_toNat]
      simp only [if_neg fresh]
      exact ih (by rw [grown, List.append_assoc]; exact sorted)

/-! ## The snapshot as a whole -/

theorem local_count (maximum : Nat) : Local (count maximum) :=
  local_bind (local_number _ 4) (fun _ => local_ite (local_fail _) (local_pure _))

theorem local_bytes (maximum : Nat) : Local (bytes maximum) :=
  local_bind (local_count maximum) (fun length => local_take _ length)

theorem local_keys (remaining : Nat) (known : SortedMap AgentId PublicKeys) :
    Local (keys remaining known) := by
  induction remaining generalizing known with
  | zero => exact local_pure known
  | succ remaining ih =>
      refine local_bind (local_array _ 16) (fun agent => local_ite (local_fail _) ?_)
      refine local_bind (local_array _ 32) (fun ed25519 => local_bind (local_array _ 32) ?_)
      exact fun x25519 => local_ite (local_fail _) (ih _)

theorem local_environments (remaining : Nat) (known : SortedMap AgentId Bytes) :
    Local (environments remaining known) := by
  induction remaining generalizing known with
  | zero => exact local_pure known
  | succ remaining ih =>
      refine local_bind (local_array _ 16) (fun agent => local_bind (local_bytes _) ?_)
      exact fun encoded => local_ite (local_fail _) (ih _)

theorem local_subscriptions (remaining : Nat) (table : SubscriptionTable) :
    Local (subscriptions remaining table) := by
  induction remaining generalizing table with
  | zero => exact local_pure table
  | succ remaining ih =>
      refine local_bind (local_array _ 16) (fun subscriber => local_bind (local_number _ 4) ?_)
      refine fun typeId => local_bind (local_array _ 16) (fun handler => ?_)
      refine local_bind (local_bytes _) (fun encoded => ?_)
      cases subscriptionKind encoded ⟨UInt32.ofNat typeId⟩ with
      | none => exact local_fail _
      | some kind => exact local_ite (local_fail _) (ih _)

theorem local_replay (remaining : Nat) (known : SortedMap ReplayKey UInt64) :
    Local (replay remaining known) := by
  induction remaining generalizing known with
  | zero => exact local_pure known
  | succ remaining ih =>
      refine local_bind (local_array _ 16) (fun sender => local_bind (local_array _ 16) ?_)
      refine fun session => local_bind (local_number _ 8) (fun expires => ?_)
      exact local_ite (local_fail _) (ih _)

theorem local_state (limits : StoreLimits) : Local (state limits) := by
  refine local_bind (local_take _ 8) (fun magic => local_ite (local_fail _) ?_)
  refine local_bind (local_count _) (fun _ => local_bind (local_keys _ _) (fun _ => ?_))
  refine local_bind (local_count _) (fun _ => local_bind (local_environments _ _) (fun _ => ?_))
  refine local_bind (local_count _) (fun _ => local_bind (local_subscriptions _ _) (fun _ => ?_))
  refine local_bind (local_count _) (fun _ => local_bind (local_replay _ _) (fun _ => ?_))
  exact local_pure _

end StateCursor

namespace StoreState

variable {state : StoreState} {limits : StoreLimits}

/-- Counts that the format can write. -/
structure Countable (limits : StoreLimits) : Prop where
  agents : limits.agents < 2 ^ 32
  environments : limits.environments < 2 ^ 32
  subscriptions : limits.subscriptions < 2 ^ 32
  replays : limits.replays < 2 ^ 32

theorem parses_of_listed (readable : state.Readable limits) {subscription : StoredSubscription}
    (member : subscription ∈ state.subscriptions.listed) :
    subscription.Parses ∧ subscription.handler ≠ .none := by
  have filed : subscription ∈ state.subscriptions.forType subscription.typeId := by
    rw [← SubscriptionTable.listed_filter]
    exact List.mem_filter.mpr ⟨member, by simp⟩
  exact ⟨readable.subscriptions_parse _ subscription filed,
    readable.handlers_named _ subscription filed⟩

theorem environment_of_entry (readable : state.Readable limits) {entry : AgentId × Bytes}
    (member : entry ∈ state.environments.entries) :
    StateCursor.isEnvironment entry.2 = true :=
  isEnvironment_iff.mpr (readable.environments_parse entry.1 entry.2 (SortedMap.get_eq_some.mpr member))

theorem length_small {value : Bytes} (short : value.length ≤ maxPlaintextLen) :
    value.length < 2 ^ 32 :=
  Nat.lt_of_le_of_lt short (by decide)

/-- A readable state is written when the format can write its counts. -/
theorem Readable.encodes (readable : state.Readable limits) (countable : Countable limits) :
    ∃ bytes, encodeState state = .ok bytes := by
  obtain ⟨environments, environmentsWritten⟩ := @mapM_ok _ _ _ encodeEnvironmentEntry
    state.environments.entries (fun entry member => by
      have short := environment_length (environment_of_entry readable member)
      exact ⟨_, encodeEnvironmentEntry_eq_ok.mpr ⟨length_small short, rfl⟩⟩)
  obtain ⟨subscriptions, subscriptionsWritten⟩ := @mapM_ok _ _ _ encodeSubscriptionEntry
    state.subscriptions.listed (fun entry member => by
      have short := (parses_of_listed readable member).1.length
      exact ⟨_, encodeSubscriptionEntry_eq_ok.mpr ⟨length_small short, rfl⟩⟩)
  exact ⟨_, encodeState_eq_ok.mpr ⟨environments, subscriptions, environmentsWritten,
    subscriptionsWritten, Nat.lt_of_le_of_lt readable.agents_bounded countable.agents,
    Nat.lt_of_le_of_lt readable.environments_bounded countable.environments,
    Nat.lt_of_le_of_lt readable.subscriptions_bounded countable.subscriptions,
    Nat.lt_of_le_of_lt readable.replays_bounded countable.replays, rfl⟩⟩

/-- Whatever was written of a readable state is accepted. -/
theorem Readable.decodes (readable : state.Readable limits) {bytes : Bytes}
    (written : encodeState state = .ok bytes) :
    ∃ reopened, decodeState bytes limits = .ok reopened := by
  obtain ⟨environments, subscriptions, environmentsWritten, subscriptionsWritten, keysFew,
    environmentsFew, subscriptionsFew, replayFew, rfl⟩ := encodeState_eq_ok.mp written
  have ordinary : ∀ entry ∈ state.keys.entries, entry.1 ≠ .ca := by
    intro entry member same
    have held := SortedMap.get_eq_some.mpr member
    have absent := readable.ca_absent
    rw [SortedMap.contains_eq, ← same, held] at absent
    cases absent
  obtain ⟨keys, keysRead⟩ := @StateCursor.keys_accepts _ .empty state.keys.sorted ordinary _
  obtain ⟨stored, environmentsRead⟩ := @StateCursor.environments_accepts _ _ .empty
    environmentsWritten state.environments.sorted
    (fun entry member => environment_of_entry readable member) _
  obtain ⟨table, subscriptionsRead⟩ := @StateCursor.subscriptions_accepts _ _ .empty
    subscriptionsWritten (fun entry member => (parses_of_listed readable member).1)
    (fun entry member => (parses_of_listed readable member).2) _
  obtain ⟨sessions, replayRead⟩ := @StateCursor.replay_accepts _ .empty
    state.replay.entries.sorted []
  rw [List.append_nil] at replayRead
  have magic : stateMagic.length = 8 := by decide
  refine ⟨⟨keys, stored, table, ⟨sessions, limits.replays, limits.replayTtlSeconds⟩⟩,
    decodeState_eq_ok.mpr ?_⟩
  rw [StateCursor.state, Cursor.bind_ok (Cursor.take_append _ _ magic), if_neg (not_not.mpr rfl)]
  refine (Cursor.bind_ok (StateCursor.count_append readable.agents_bounded keysFew _)).trans ?_
  refine (Cursor.bind_ok keysRead).trans ?_
  refine (Cursor.bind_ok
    (StateCursor.count_append readable.environments_bounded environmentsFew _)).trans ?_
  refine (Cursor.bind_ok environmentsRead).trans ?_
  refine (Cursor.bind_ok
    (StateCursor.count_append readable.subscriptions_bounded subscriptionsFew _)).trans ?_
  rw [state.subscriptions.count_eq_listed]
  refine (Cursor.bind_ok subscriptionsRead).trans ?_
  refine (Cursor.bind_ok (StateCursor.count_append readable.replays_bounded replayFew _)).trans ?_
  exact Cursor.bind_ok replayRead

/-- The conditions of the reader, checked entry by entry. -/
theorem readable_of_entries
    (keys : ∀ entry ∈ state.keys.entries, entry.1 ≠ .ca)
    (environments : ∀ entry ∈ state.environments.entries,
      StateCursor.isEnvironment entry.2 = true)
    (subscriptions : ∀ entry ∈ state.subscriptions.listed,
      StateCursor.subscriptionKind entry.encoded entry.typeId = some entry.kind ∧
        entry.handler ≠ .none)
    (counts : state.keys.size ≤ limits.agents ∧ state.environments.size ≤ limits.environments ∧
      state.subscriptions.count ≤ limits.subscriptions ∧
      state.replay.entries.size ≤ limits.replays) : state.Readable limits where
  ca_absent := by
    have absent : state.keys.get .ca = none :=
      SortedMap.get_eq_none.mpr (fun held member => keys (.ca, held) member rfl)
    rw [SortedMap.contains_eq, absent]
    rfl
  environments_parse := fun agent encoded found =>
    isEnvironment_iff.mp (environments (agent, encoded) (SortedMap.get_eq_some.mp found))
  subscriptions_parse := fun typeId subscription member => by
    rw [← SubscriptionTable.listed_filter] at member
    exact subscriptionKind_iff.mp (subscriptions _ (List.mem_filter.mp member).1).1
  handlers_named := fun typeId subscription member => by
    rw [← SubscriptionTable.listed_filter] at member
    exact (subscriptions _ (List.mem_filter.mp member).1).2
  agents_bounded := counts.1
  environments_bounded := counts.2.1
  subscriptions_bounded := counts.2.2.1
  replays_bounded := counts.2.2.2

/-- The same four tables up to empty subscription buckets. -/
structure SameContents (left right : StoreState) : Prop where
  keys : left.keys = right.keys
  environments : left.environments = right.environments
  subscriptions : ∀ typeId, left.subscriptions.forType typeId = right.subscriptions.forType typeId
  replay : left.replay.entries = right.replay.entries

/-- A readable state is read back to its own contents. -/
theorem Readable.reads_back (readable : state.Readable limits) {bytes : Bytes}
    {reopened : StoreState} (written : encodeState state = .ok bytes)
    (read : decodeState bytes limits = .ok reopened) : reopened.SameContents state := by
  obtain ⟨keys, environments, replay, filed⟩ := decodeState_encodeState written read
  refine ⟨keys, environments, fun typeId => ?_, by rw [replay]⟩
  rw [filed]
  have same : (state.subscriptions.forType typeId).map StateCursor.rekind =
      (state.subscriptions.forType typeId).map id := by
    refine List.map_congr_left (fun subscription member => ?_)
    have kind := subscriptionKind_iff.mpr (readable.subscriptions_parse typeId subscription member)
    rw [StateCursor.rekind, kind]
    rfl
  rw [same, List.map_id]

/-- An accepted snapshot is no strict front of another one. -/
theorem decodeState_rejects_other_lengths {bytes : Bytes} {reopened : StoreState}
    (read : decodeState bytes limits = .ok reopened) :
    (∀ front other, front <+: bytes → front ≠ bytes → decodeState front limits ≠ .ok other) ∧
      ∀ extra other, extra ≠ [] → decodeState (bytes ++ extra) limits ≠ .ok other := by
  have whole := decodeState_eq_ok.mp read
  have sound := StateCursor.local_state limits
  refine ⟨fun front other cut shorter accepted => ?_, fun extra other longer accepted => ?_⟩
  · exact sound.no_prefix whole cut shorter (decodeState_eq_ok.mp accepted)
  · exact sound.no_extension whole longer (decodeState_eq_ok.mp accepted)

end StoreState

/-- Decoding undoes encoding, and only the exact bytes are accepted. -/
theorem decodeState_undoes_encodeState {state : StoreState} {limits : StoreLimits}
    (readable : state.Readable limits) (countable : StoreState.Countable limits) :
    ∃ bytes reopened, encodeState state = .ok bytes ∧ decodeState bytes limits = .ok reopened ∧
      reopened.SameContents state ∧
      (∀ front other, front <+: bytes → front ≠ bytes → decodeState front limits ≠ .ok other) ∧
      ∀ extra other, extra ≠ [] → decodeState (bytes ++ extra) limits ≠ .ok other := by
  obtain ⟨bytes, written⟩ := readable.encodes countable
  obtain ⟨reopened, read⟩ := readable.decodes written
  exact ⟨bytes, reopened, written, read, readable.reads_back written read,
    StoreState.decodeState_rejects_other_lengths read⟩

/-- Two agents, an environment, a subscription of either kind and a session. -/
def sampleState : StoreState where
  keys := (SortedMap.empty.insert ⟨.fill 16 1⟩ ⟨.fill 32 1, .fill 32 1⟩).insert ⟨.fill 16 2⟩
    ⟨.fill 32 2, .fill 32 2⟩
  environments := SortedMap.empty.insert ⟨.fill 16 1⟩ (environmentBytes [⟨⟨3⟩, .bool true⟩])
  subscriptions :=
    let oneShot : StoredSubscription :=
      ⟨⟨.fill 16 2⟩, ⟨5⟩, ⟨.fill 16 9⟩, .oneShot, subscriptionBytes opSubscribe ⟨5⟩ []⟩
    let permanent : StoredSubscription :=
      ⟨⟨.fill 16 1⟩, ⟨6⟩, ⟨.fill 16 9⟩, .permanent,
        subscriptionBytes opSubscribePermanent ⟨6⟩ [⟨⟨3⟩, .eq, .bool true⟩]⟩
    (SubscriptionTable.empty.push oneShot).push permanent
  replay := ⟨SortedMap.empty.insert (replayKey ⟨.fill 16 1⟩ ⟨.fill 16 4⟩) 700, 8, 100⟩

theorem sample_undoes_encodeState : ∃ bytes reopened,
    encodeState sampleState = .ok bytes ∧ decodeState bytes ⟨8, 8, 8, 8, 100⟩ = .ok reopened ∧
      reopened.SameContents sampleState ∧
      (∀ front other, front <+: bytes → front ≠ bytes →
        decodeState front ⟨8, 8, 8, 8, 100⟩ ≠ .ok other) ∧
      ∀ extra other, extra ≠ [] → decodeState (bytes ++ extra) ⟨8, 8, 8, 8, 100⟩ ≠ .ok other :=
  decodeState_undoes_encodeState
    (StoreState.readable_of_entries (by decide +kernel) (by decide +kernel) (by decide +kernel)
      (by decide +kernel))
    ⟨by decide, by decide, by decide, by decide⟩

end SecurePubSub.Authority
