import SecurePubSub.Authority.SnapshotRoundTrip
import SecurePubSub.Authority.Store

namespace SecurePubSub.Authority

open SecurePubSub.Data SecurePubSub.Data.Fallible SecurePubSub.Protocol

/-! A store that is opened again from its snapshot goes on as the store that was closed.

Two stores with the same contents up to empty subscription buckets cannot be told
apart by any sequence of calls, and the snapshot of every reachable store is
either absent or the encoding of its state.
-/

/-! ## The operations of a store -/

inductive StoreCall where
  | keys (agent : AgentId)
  | environment (agent : AgentId)
  | subscriptionsFor (typeId : TypeId)
  | provision (agent : AgentId) (keys : PublicKeys)
  | reconcileAgents (configured : List (AgentId × PublicKeys))
  | setEnvironment (agent : AgentId) (encoded : Bytes)
  | putSubscription (subscription : StoredSubscription)
  | claimSubscription (subscription : StoredSubscription)
  | checkAndMark (sender : AgentId) (session : SessionId) (nowSeconds : UInt64)

inductive StoreAnswer where
  | keys (found : Except Error PublicKeys)
  | environment (stored : Option Bytes)
  | subscriptions (bucket : List StoredSubscription)
  | done (result : Except Error Unit)
  | claimed (result : Except Error Bool)

namespace PersistentStore

def run (store : PersistentStore) : StoreCall → StoreAnswer × PersistentStore
  | .keys agent => (.keys (store.state.keysOf agent), store)
  | .environment agent => (.environment (store.state.environments.get agent), store)
  | .subscriptionsFor typeId => (.subscriptions (store.state.subscriptions.forType typeId), store)
  | .provision agent keys => (store.provision agent keys).map .done id
  | .reconcileAgents configured => (store.reconcileAgents configured).map .done id
  | .setEnvironment agent encoded => (store.setEnvironment agent encoded).map .done id
  | .putSubscription subscription => (store.putSubscription subscription).map .done id
  | .claimSubscription subscription => (store.claimSubscription subscription).map .claimed id
  | .checkAndMark sender session nowSeconds =>
      (store.checkAndMark sender session nowSeconds).map .done id

def after (store : PersistentStore) (calls : List StoreCall) : PersistentStore :=
  calls.foldl (fun store call => (store.run call).2) store

def answers (store : PersistentStore) : List StoreCall → List StoreAnswer
  | [] => []
  | call :: later => (store.run call).1 :: (store.run call).2.answers later

/-- A store on a path that holds no file yet, with a file system that does not fail. -/
def fresh (limits : StoreLimits) : PersistentStore := ⟨.empty limits, ⟨none, none, []⟩, limits⟩

end PersistentStore

/-! ## Stores that cannot be told apart -/

/-- The same buckets, whether or not an empty one is stored. -/
def SubscriptionTable.Same (left right : SubscriptionTable) : Prop :=
  ∀ typeId, left.forType typeId = right.forType typeId

namespace SubscriptionTable.Same

variable {left right : SubscriptionTable}

/-- A listing is that of the table without its empty buckets. -/
theorem listed_retain (table : SubscriptionTable) :
    (table.retain (fun _ => true)).listed = table.listed := by
  obtain ⟨⟨entries, sorted⟩, filed⟩ := table
  simp only [listed, retain, SortedMap.values, SortedMap.retain, SortedMap.mapValues]
  clear filed sorted
  induction entries with
  | nil => rfl
  | cons head rest ih =>
      obtain ⟨typeId, bucket⟩ := head
      have whole : List.filter (fun _ => true) bucket = bucket :=
        List.filter_eq_self.mpr (fun _ _ => rfl)
      rw [List.map_cons, List.filter_cons, whole]
      cases bucket with
      | nil => exact ih
      | cons first others => exact congrArg ((first :: others) ++ ·) ih

theorem listed_eq (same : left.Same right) : left.listed = right.listed := by
  have pruned : left.retain (fun _ => true) = right.retain (fun _ => true) := by
    have buckets : (left.retain (fun _ => true)).buckets =
        (right.retain (fun _ => true)).buckets := by
      refine SortedMap.eq_of_get (fun typeId => ?_)
      have here := same typeId
      simp only [retain, SortedMap.get_retain, SortedMap.get_mapValues]
      simp only [forType] at here
      cases found : left.buckets.get typeId with
      | none =>
          rw [found] at here
          cases other : right.buckets.get typeId with
          | none => rfl
          | some bucket =>
              rw [other] at here
              have empty : bucket = [] := here.symm
              simp [Option.filter, empty]
      | some bucket =>
          rw [found] at here
          cases other : right.buckets.get typeId with
          | none =>
              rw [other] at here
              have empty : bucket = [] := here
              simp [Option.filter, empty]
          | some held =>
              rw [other] at here
              have equal : bucket = held := here
              rw [equal]
    cases leftPruned : left.retain (fun _ => true)
    cases rightPruned : right.retain (fun _ => true)
    rw [leftPruned, rightPruned] at buckets
    cases buckets
    rfl
  rw [← listed_retain left, pruned, listed_retain]

theorem count_eq (same : left.Same right) : left.count = right.count := by
  rw [left.count_eq_listed, right.count_eq_listed, same.listed_eq]

theorem put (same : left.Same right) (maximum : Nat) (subscription : StoredSubscription) :
    (left.put maximum subscription).1 = (right.put maximum subscription).1 ∧
      (left.put maximum subscription).2.Same (right.put maximum subscription).2 := by
  have here := same subscription.typeId
  cases stored : upsert left.count maximum (left.forType subscription.typeId) subscription with
  | ok bucket =>
      have other := stored
      rw [same.count_eq, here] at other
      rw [put_ok stored, put_ok other]
      refine ⟨rfl, fun typeId => ?_⟩
      rw [forType_setBucket, forType_setBucket, same typeId]
  | error error =>
      have other := stored
      rw [same.count_eq, here] at other
      rw [put_error stored, put_error other]
      refine ⟨rfl, fun typeId => ?_⟩
      rw [forType_setBucket, forType_setBucket, same typeId, here]

theorem claim (same : left.Same right) (subscription : StoredSubscription) :
    (left.claim subscription).1 = (right.claim subscription).1 ∧
      (left.claim subscription).2.Same (right.claim subscription).2 := by
  refine ⟨Bool.eq_iff_iff.mpr ?_, fun typeId => ?_⟩
  · rw [claim_eq_true, claim_eq_true, same]
  · rw [forType_claim, forType_claim, same]

theorem retain (same : left.Same right) (keep : StoredSubscription → Bool) :
    (left.retain keep).Same (right.retain keep) := by
  intro typeId
  rw [forType_retain, forType_retain, same]

end SubscriptionTable.Same

/-- Equal tables but for empty subscription buckets. -/
structure StoreState.Matches (left right : StoreState) : Prop where
  keys : left.keys = right.keys
  environments : left.environments = right.environments
  subscriptions : left.subscriptions.Same right.subscriptions
  replay : left.replay = right.replay

namespace StoreState.Matches

variable {left right : StoreState}

theorem encodeState_eq (matched : left.Matches right) : encodeState left = encodeState right := by
  rw [encodeState, encodeState, matched.keys, matched.environments, matched.replay,
    matched.subscriptions.count_eq, matched.subscriptions.listed_eq]

theorem reconcile (matched : left.Matches right) (keys : SortedMap AgentId PublicKeys) :
    (left.reconcile keys).Matches (right.reconcile keys) := by
  simp only [StoreState.reconcile, matched.keys, matched.environments, matched.replay]
  exact ⟨rfl, rfl, matched.subscriptions.retain _, rfl⟩

end StoreState.Matches

/-- Two edits reject alike or lead to states that match. -/
def MatchingEdits : Except Error StoreState → Except Error StoreState → Prop
  | .ok left, .ok right => left.Matches right
  | .error left, .error right => left = right
  | _, _ => False

def SnapshotFile.Quiet (file : SnapshotFile) : Prop := file.temporary = none ∧ file.faults = []

theorem SnapshotFile.Quiet.commit {file : SnapshotFile} (quiet : file.Quiet) (bytes : Bytes) :
    file.commit bytes = if bytes.length > maxSnapshotLen then (.error .oversized, file)
      else (.ok (), ⟨some bytes, none, []⟩) := by
  obtain ⟨contents, temporary, faults⟩ := file
  obtain ⟨rfl, rfl⟩ := quiet
  rfl

namespace PersistentStore

/-- The same limits and contents, on file systems that do not fail. -/
structure Alike (left right : PersistentStore) : Prop where
  limits : left.limits = right.limits
  state : left.state.Matches right.state
  quiet : left.snapshot.Quiet ∧ right.snapshot.Quiet

namespace Alike

variable {left right : PersistentStore}

theorem commit (alike : left.Alike right) {next other : StoreState} (matched : next.Matches other) :
    (left.commit next).1 = (right.commit other).1 ∧
      (left.commit next).2.Alike (right.commit other).2 := by
  obtain ⟨limits, state, quietLeft, quietRight⟩ := alike
  rw [PersistentStore.commit, PersistentStore.commit, matched.encodeState_eq]
  cases written : encodeState other with
  | error error => exact ⟨rfl, limits, state, quietLeft, quietRight⟩
  | ok bytes =>
      dsimp only
      rw [quietLeft.commit, quietRight.commit]
      by_cases large : bytes.length > maxSnapshotLen
      · rw [if_pos large, if_pos large]
        exact ⟨rfl, limits, state, quietLeft, quietRight⟩
      · rw [if_neg large, if_neg large]
        exact ⟨rfl, limits, matched, ⟨rfl, rfl⟩, ⟨rfl, rfl⟩⟩

theorem transact (alike : left.Alike right) {edited other : Except Error StoreState}
    (matched : MatchingEdits edited other) :
    (left.transact edited).1 = (right.transact other).1 ∧
      (left.transact edited).2.Alike (right.transact other).2 := by
  cases edited with
  | ok next =>
      cases other with
      | ok otherNext => exact alike.commit matched
      | error error => exact matched.elim
  | error error =>
      cases other with
      | ok otherNext => exact matched.elim
      | error otherError =>
          have same : error = otherError := matched
          exact ⟨congrArg Except.error same, alike⟩

theorem provision_edits (alike : left.Alike right) (agent : AgentId) (keys : PublicKeys) :
    MatchingEdits (left.state.provision left.limits agent keys)
      (right.state.provision right.limits agent keys) := by
  rw [StoreState.provision, StoreState.provision, alike.limits, alike.state.keys]
  by_cases reserved : agent = .ca
  · rw [rejectIf_fail _ reserved]
    exact rfl
  · rw [rejectIf_pass _ reserved]
    by_cases full : right.state.keys.contains agent = false ∧
        right.limits.agents ≤ right.state.keys.size
    · rw [rejectIf_fail _ full]
      exact rfl
    · rw [rejectIf_pass _ full]
      exact ⟨rfl, alike.state.environments, alike.state.subscriptions, alike.state.replay⟩

theorem setEnvironment_edits (alike : left.Alike right) (agent : AgentId) (encoded : Bytes) :
    MatchingEdits (left.state.setEnvironment left.limits agent encoded)
      (right.state.setEnvironment right.limits agent encoded) := by
  rw [StoreState.setEnvironment, StoreState.setEnvironment, alike.limits, alike.state.environments]
  by_cases full : right.state.environments.contains agent = false ∧
      right.limits.environments ≤ right.state.environments.size
  · rw [rejectIf_fail _ full]
    exact rfl
  · rw [rejectIf_pass _ full]
    exact ⟨alike.state.keys, rfl, alike.state.subscriptions, alike.state.replay⟩

theorem setEnvironment (alike : left.Alike right) (agent : AgentId) (encoded : Bytes) :
    (left.setEnvironment agent encoded).1 = (right.setEnvironment agent encoded).1 ∧
      (left.setEnvironment agent encoded).2.Alike (right.setEnvironment agent encoded).2 := by
  rw [PersistentStore.setEnvironment, PersistentStore.setEnvironment]
  split
  · exact alike.transact (alike.setEnvironment_edits agent encoded)
  · exact ⟨rfl, alike⟩

theorem matching_map {α : Type} {result other : Except Error α} {next otherNext : StoreState}
    (same : result = other) (matched : next.Matches otherNext) :
    MatchingEdits (result.map (fun _ => next)) (other.map (fun _ => otherNext)) := by
  subst same
  cases result with
  | ok value => exact matched
  | error error => exact rfl

theorem putSubscription (alike : left.Alike right) (subscription : StoredSubscription) :
    (left.putSubscription subscription).1 = (right.putSubscription subscription).1 ∧
      (left.putSubscription subscription).2.Alike (right.putSubscription subscription).2 := by
  rw [PersistentStore.putSubscription, PersistentStore.putSubscription]
  split
  · obtain ⟨result, tables⟩ :=
      alike.state.subscriptions.put left.limits.subscriptions subscription
    rw [alike.limits] at result tables
    refine alike.transact (matching_map ?_ ?_)
    · rw [alike.limits]
      exact result
    · rw [alike.limits]
      exact ⟨alike.state.keys, alike.state.environments, tables, alike.state.replay⟩
  · exact ⟨rfl, alike⟩

theorem claimSubscription (alike : left.Alike right) (subscription : StoredSubscription) :
    (left.claimSubscription subscription).1 = (right.claimSubscription subscription).1 ∧
      (left.claimSubscription subscription).2.Alike (right.claimSubscription subscription).2 := by
  obtain ⟨result, tables⟩ := alike.state.subscriptions.claim subscription
  have answer : (left.state.claimSubscription subscription).1 =
      (right.state.claimSubscription subscription).1 := result
  have matched : (left.state.claimSubscription subscription).2.Matches
      (right.state.claimSubscription subscription).2 :=
    ⟨alike.state.keys, alike.state.environments, tables, alike.state.replay⟩
  rw [PersistentStore.claimSubscription, PersistentStore.claimSubscription, ← answer]
  dsimp only
  cases subscription.kind with
  | permanent => exact ⟨rfl, alike⟩
  | oneShot =>
      cases (left.state.claimSubscription subscription).1 with
      | false => exact ⟨rfl, alike⟩
      | true =>
          obtain ⟨committed, later⟩ := alike.commit matched
          exact ⟨congrArg (Except.map (fun _ => true)) committed, later⟩

theorem checkAndMark (alike : left.Alike right) (sender : AgentId) (session : SessionId)
    (nowSeconds : UInt64) :
    (left.checkAndMark sender session nowSeconds).1 =
        (right.checkAndMark sender session nowSeconds).1 ∧
      (left.checkAndMark sender session nowSeconds).2.Alike
        (right.checkAndMark sender session nowSeconds).2 := by
  have replay := alike.state.replay
  refine alike.transact (matching_map ?_ ?_)
  · rw [StoreState.checkAndMark, StoreState.checkAndMark, replay]
  · rw [StoreState.checkAndMark, StoreState.checkAndMark, replay]
    exact ⟨alike.state.keys, alike.state.environments, alike.state.subscriptions, rfl⟩

theorem reconcileAgents (alike : left.Alike right) (configured : List (AgentId × PublicKeys)) :
    (left.reconcileAgents configured).1 = (right.reconcileAgents configured).1 ∧
      (left.reconcileAgents configured).2.Alike (right.reconcileAgents configured).2 := by
  rw [PersistentStore.reconcileAgents, PersistentStore.reconcileAgents, alike.limits]
  split
  · exact ⟨rfl, alike⟩
  · refine alike.transact ?_
    cases StoreState.configuredKeys configured .empty with
    | ok keys => exact alike.state.reconcile keys
    | error error => exact rfl

/-- Every call is answered alike and leaves the stores alike. -/
theorem run (alike : left.Alike right) (call : StoreCall) :
    (left.run call).1 = (right.run call).1 ∧ (left.run call).2.Alike (right.run call).2 := by
  have done : ∀ {α : Type} {answer : α → StoreAnswer} {first second : α × PersistentStore},
      first.1 = second.1 ∧ first.2.Alike second.2 →
        (first.map answer id).1 = (second.map answer id).1 ∧
          (first.map answer id).2.Alike (second.map answer id).2 :=
    @fun α answer first second both => ⟨congrArg answer both.1, both.2⟩
  cases call with
  | keys agent =>
      refine ⟨?_, alike⟩
      simp only [PersistentStore.run, StoreState.keysOf, alike.state.keys]
  | environment agent =>
      refine ⟨?_, alike⟩
      simp only [PersistentStore.run, alike.state.environments]
  | subscriptionsFor typeId =>
      exact ⟨congrArg StoreAnswer.subscriptions (alike.state.subscriptions typeId), alike⟩
  | provision agent keys => exact done (alike.transact (alike.provision_edits agent keys))
  | reconcileAgents configured => exact done (alike.reconcileAgents configured)
  | setEnvironment agent encoded => exact done (alike.setEnvironment agent encoded)
  | putSubscription subscription => exact done (alike.putSubscription subscription)
  | claimSubscription subscription => exact done (alike.claimSubscription subscription)
  | checkAndMark sender session nowSeconds =>
      exact done (alike.checkAndMark sender session nowSeconds)

theorem answers_eq (alike : left.Alike right) (calls : List StoreCall) :
    left.answers calls = right.answers calls := by
  induction calls generalizing left right with
  | nil => rfl
  | cons call later ih =>
      obtain ⟨answer, next⟩ := alike.run call
      rw [answers, answers, answer, ih next]

end Alike

end PersistentStore

/-! ## Every reachable store can be opened again -/

/-- The state satisfies the reader and its session table is the one the limits ask for. -/
structure StoreState.Recoverable (state : StoreState) (limits : StoreLimits) : Prop where
  readable : state.Readable limits
  maximum : state.replay.maximum = limits.replays
  ttl : state.replay.ttlSeconds = limits.replayTtlSeconds

namespace StoreState.Recoverable

variable {state : StoreState} {limits : StoreLimits}

theorem empty (limits : StoreLimits) : (StoreState.empty limits).Recoverable limits := by
  refine ⟨readable_of_entries (fun _ member => nomatch member) (fun _ member => nomatch member)
    (fun _ member => nomatch member) ?_, rfl, rfl⟩
  exact ⟨Nat.zero_le _, Nat.zero_le _, Nat.zero_le _, Nat.zero_le _⟩

theorem provision (sound : state.Recoverable limits) {next : StoreState} {agent : AgentId}
    {keys : PublicKeys} (edited : state.provision limits agent keys = .ok next) :
    next.Recoverable limits := by
  obtain ⟨ordinary, room, rfl⟩ := provision_eq_ok edited
  refine ⟨{ sound.readable with
    ca_absent := ?_
    agents_bounded := SortedMap.size_insert_le_of_room sound.readable.agents_bounded room },
    sound.maximum, sound.ttl⟩
  rw [SortedMap.contains_eq, SortedMap.get_insert, if_neg ordinary.symm]
  exact sound.readable.ca_absent

theorem setEnvironment (sound : state.Recoverable limits) {next : StoreState} {agent : AgentId}
    {encoded : Bytes} (valid : StateCursor.isEnvironment encoded = true)
    (edited : state.setEnvironment limits agent encoded = .ok next) : next.Recoverable limits := by
  obtain ⟨room, rfl⟩ := setEnvironment_eq_ok edited
  refine ⟨{ sound.readable with
    environments_parse := fun owner stored found => ?_
    environments_bounded :=
      SortedMap.size_insert_le_of_room sound.readable.environments_bounded room },
    sound.maximum, sound.ttl⟩
  rw [SortedMap.get_insert] at found
  split at found
  · cases found
    exact isEnvironment_iff.mp valid
  · exact sound.readable.environments_parse owner stored found

/-- Fewer subscriptions, or ones that the reader accepts, keep a state recoverable. -/
theorem with_subscriptions (sound : state.Recoverable limits) {table : SubscriptionTable}
    (each : ∀ typeId, ∀ entry ∈ table.forType typeId,
      entry.Parses ∧ entry.handler ≠ .none ∨ entry ∈ state.subscriptions.forType typeId)
    (bounded : table.count ≤ limits.subscriptions) :
    ({ state with subscriptions := table } : StoreState).Recoverable limits := by
  refine ⟨{ sound.readable with
    subscriptions_parse := fun typeId entry member => ?_
    handlers_named := fun typeId entry member => ?_
    subscriptions_bounded := bounded }, sound.maximum, sound.ttl⟩
  · cases each typeId entry member with
    | inl valid => exact valid.1
    | inr old => exact sound.readable.subscriptions_parse typeId entry old
  · cases each typeId entry member with
    | inl valid => exact valid.2
    | inr old => exact sound.readable.handlers_named typeId entry old

theorem putSubscription (sound : state.Recoverable limits) {subscription : StoredSubscription}
    (valid : subscription.Parses ∧ subscription.handler ≠ .none) :
    (state.putSubscription limits subscription).2.Recoverable limits := by
  refine sound.with_subscriptions (fun typeId entry member => ?_)
    (SubscriptionTable.count_put_le subscription sound.readable.subscriptions_bounded)
  obtain ⟨bucket, stored, _, buckets⟩ | ⟨_, _, buckets⟩ :=
    state.subscriptions.put_cases limits.subscriptions subscription
  · rw [buckets] at member
    split at member
    · rename_i same
      cases mem_of_mem_upsert stored member with
      | inl own => exact .inl (own ▸ valid)
      | inr old => exact .inr (same ▸ old)
    · exact .inr member
  · rw [buckets] at member
    exact .inr member

theorem claimSubscription (sound : state.Recoverable limits) (subscription : StoredSubscription) :
    (state.claimSubscription subscription).2.Recoverable limits :=
  sound.with_subscriptions
    (fun typeId _ member => .inr ((forType_claim_sublist subscription typeId).subset member))
    (Nat.le_trans (SubscriptionTable.count_claim_le _ _) sound.readable.subscriptions_bounded)

theorem checkAndMark (sound : state.Recoverable limits) (sender : AgentId) (session : SessionId)
    (nowSeconds : UInt64) :
    (state.checkAndMark sender session nowSeconds).2.Recoverable limits := by
  obtain ⟨maximum, ttl⟩ := state.replay.checkAndMark_bounds sender session nowSeconds
  have size := state.replay.checkAndMark_size sender session nowSeconds
    (sound.maximum ▸ sound.readable.replays_bounded)
  rw [sound.maximum] at size
  exact ⟨{ sound.readable with replays_bounded := size }, maximum.trans sound.maximum,
    ttl.trans sound.ttl⟩

theorem configuredKeys_ordinary {configured : List (AgentId × PublicKeys)}
    {known keys : SortedMap AgentId PublicKeys} (absent : known.contains .ca = false)
    (accepted : configuredKeys configured known = .ok keys) : keys.contains .ca = false := by
  induction configured generalizing known with
  | nil => cases accepted; exact absent
  | cons head rest ih =>
      simp only [configuredKeys] at accepted
      split at accepted
      · cases accepted
      · rename_i ordinary
        refine ih ?_ accepted
        have different : AgentId.ca ≠ head.1 := fun same => ordinary (.inl same.symm)
        rw [SortedMap.contains_eq, SortedMap.get_insert, if_neg different]
        exact absent

theorem reconcile (sound : state.Recoverable limits) {keys : SortedMap AgentId PublicKeys}
    (absent : keys.contains .ca = false) (bounded : keys.size ≤ limits.agents) :
    (state.reconcile keys).Recoverable limits := by
  have kept := @with_subscriptions _ _ sound (state.subscriptions.retain
      (fun subscription => unchanged state.keys keys subscription.subscriber))
    (fun typeId entry member => by
      rw [SubscriptionTable.forType_retain] at member
      exact .inr (List.mem_filter.mp member).1)
    (Nat.le_trans (SubscriptionTable.count_retain_le _ _) sound.readable.subscriptions_bounded)
  refine ⟨{ kept.readable with
    ca_absent := absent
    environments_parse := fun agent encoded found => ?_
    agents_bounded := bounded
    environments_bounded :=
      Nat.le_trans (SortedMap.size_retain_le _ _) sound.readable.environments_bounded
    replays_bounded := Nat.le_trans (SortedMap.size_retain_le _ _) sound.readable.replays_bounded },
    sound.maximum, sound.ttl⟩
  rw [StoreState.reconcile, SortedMap.get_retain] at found
  exact sound.readable.environments_parse agent encoded (Option.filter_eq_some_iff.mp found).1

end StoreState.Recoverable

namespace PersistentStore

/-- The state is recoverable and the file is absent or holds its encoding. -/
structure Restorable (store : PersistentStore) : Prop where
  recoverable : store.state.Recoverable store.limits
  quiet : store.snapshot.Quiet
  saved : (store.snapshot.contents = none ∧ store.state = .empty store.limits) ∨
    ∃ bytes, store.snapshot.contents = some bytes ∧ bytes.length ≤ maxSnapshotLen ∧
      encodeState store.state = .ok bytes

namespace Restorable

variable {store : PersistentStore}

theorem fresh (limits : StoreLimits) : (PersistentStore.fresh limits).Restorable :=
  ⟨.empty limits, ⟨rfl, rfl⟩, .inl ⟨rfl, rfl⟩⟩

/-- What is opened again cannot be told apart from what was closed. -/
theorem reopens (sound : store.Restorable) :
    ∃ reopened, «open» store.snapshot store.limits false = .ok reopened ∧
      reopened.Alike store := by
  obtain ⟨⟨readable, maximum, ttl⟩, quiet, saved⟩ := sound
  obtain ⟨absent, untouched⟩ | ⟨bytes, present, short, written⟩ := saved
  · refine ⟨⟨.empty store.limits, store.snapshot, store.limits⟩, ?_, rfl, ?_, quiet, quiet⟩
    · simp only [«open», SnapshotFile.load, absent]
      rfl
    · rw [untouched]
      exact ⟨rfl, rfl, fun _ => rfl, rfl⟩
  · obtain ⟨reopened, read⟩ := readable.decodes written
    refine ⟨⟨reopened, store.snapshot, store.limits⟩, ?_, rfl, ?_, quiet, quiet⟩
    · rw [«open», SnapshotFile.load, present]
      simp only [Bool.false_eq_true, if_false, if_pos short, ok_bind, read]
      rfl
    · have contents := readable.reads_back written read
      obtain ⟨_, _, replay, _⟩ := decodeState_encodeState written read
      refine ⟨contents.keys, contents.environments, contents.subscriptions, ?_⟩
      rw [replay, ← maximum, ← ttl]

theorem commit (sound : store.Restorable) {next : StoreState}
    (recoverable : next.Recoverable store.limits) : (store.commit next).2.Restorable := by
  rw [PersistentStore.commit]
  cases written : encodeState next with
  | error error => exact sound
  | ok bytes =>
      dsimp only
      rw [sound.quiet.commit]
      by_cases large : bytes.length > maxSnapshotLen
      · rw [if_pos large]
        exact sound
      · rw [if_neg large]
        exact ⟨recoverable, ⟨rfl, rfl⟩, .inr ⟨bytes, rfl, Nat.not_lt.mp large, written⟩⟩

theorem transact (sound : store.Restorable) {edited : Except Error StoreState}
    (recoverable : ∀ next, edited = .ok next → next.Recoverable store.limits) :
    (store.transact edited).2.Restorable := by
  cases edited with
  | ok next => exact sound.commit (recoverable next rfl)
  | error error => exact sound

end Restorable

/-- Any call but a request, granted or not, to store a subscription whose operation parses as
recorded and that carries no handler. -/
def Harmless : StoreCall → Prop
  | .putSubscription subscription => subscription.Parses → subscription.handler ≠ .none
  | _ => True

theorem Restorable.run {store : PersistentStore} (sound : store.Restorable) {call : StoreCall}
    (harmless : Harmless call) : (store.run call).2.Restorable := by
  have recoverable := sound.recoverable
  cases call with
  | keys agent => exact sound
  | environment agent => exact sound
  | subscriptionsFor typeId => exact sound
  | provision agent keys => exact sound.transact (fun next edited => recoverable.provision edited)
  | reconcileAgents configured =>
      change (store.reconcileAgents configured).2.Restorable
      rw [PersistentStore.reconcileAgents]
      split
      · exact sound
      · rename_i fits
        refine sound.transact (fun next edited => ?_)
        obtain ⟨keys, accepted, rfl⟩ := map_eq_ok.mp edited
        refine recoverable.reconcile
          (StoreState.Recoverable.configuredKeys_ordinary rfl accepted) ?_
        have size := StoreState.configuredKeys_size accepted
        have start : (SortedMap.empty : SortedMap AgentId PublicKeys).size = 0 := rfl
        omega
  | setEnvironment agent encoded =>
      change (store.setEnvironment agent encoded).2.Restorable
      rw [PersistentStore.setEnvironment]
      split
      · rename_i valid
        exact sound.transact (fun next edited => recoverable.setEnvironment valid edited)
      · exact sound
  | putSubscription subscription =>
      change (store.putSubscription subscription).2.Restorable
      rw [PersistentStore.putSubscription]
      split
      · rename_i kind
        have parses := subscriptionKind_iff.mp kind
        refine sound.transact (fun next edited => ?_)
        obtain ⟨_, _, rfl⟩ := map_eq_ok.mp edited
        exact recoverable.putSubscription ⟨parses, harmless parses⟩
      · exact sound
  | claimSubscription subscription =>
      change (store.claimSubscription subscription).2.Restorable
      rw [PersistentStore.claimSubscription]
      dsimp only
      split
      · exact sound
      · exact sound
      · exact sound.commit (recoverable.claimSubscription subscription)
  | checkAndMark sender session nowSeconds =>
      refine sound.transact (fun next edited => ?_)
      obtain ⟨_, _, rfl⟩ := map_eq_ok.mp edited
      exact recoverable.checkAndMark sender session nowSeconds

theorem Restorable.after {store : PersistentStore} (sound : store.Restorable)
    {calls : List StoreCall} (harmless : ∀ call ∈ calls, Harmless call) :
    (store.after calls).Restorable := by
  induction calls generalizing store with
  | nil => exact sound
  | cons call later ih =>
      exact ih (sound.run (harmless call List.mem_cons_self))
        (fun other member => harmless other (List.mem_cons_of_mem _ member))

@[simp] theorem run_limits (store : PersistentStore) (call : StoreCall) :
    (store.run call).2.limits = store.limits := by
  cases call with
  | keys agent => rfl
  | environment agent => rfl
  | subscriptionsFor typeId => rfl
  | provision agent keys => exact store.transact_limits _
  | reconcileAgents configured => exact store.reconcileAgents_limits configured
  | setEnvironment agent encoded =>
      exact (Store.persistent store).setEnvironment_limits agent encoded
  | putSubscription subscription => exact (Store.persistent store).putSubscription_limits subscription
  | claimSubscription subscription =>
      exact (Store.persistent store).claimSubscription_limits subscription
  | checkAndMark sender session nowSeconds => exact store.transact_limits _

@[simp] theorem after_limits (store : PersistentStore) (calls : List StoreCall) :
    (store.after calls).limits = store.limits := by
  induction calls generalizing store with
  | nil => rfl
  | cons call later ih => exact (ih (store.run call).2).trans (store.run_limits call)

/-- In every run in which no subscription that parses comes without a handler, the store can be
opened again from its snapshot and answers as before. -/
theorem reopened_answers (limits : StoreLimits) {calls : List StoreCall}
    (harmless : ∀ call ∈ calls, Harmless call) :
    ∃ reopened, «open» ((fresh limits).after calls).snapshot limits false = .ok reopened ∧
      ∀ later, reopened.answers later = ((fresh limits).after calls).answers later := by
  have sound := (Restorable.fresh limits).after harmless
  have kept : ((fresh limits).after calls).limits = limits := after_limits _ _
  obtain ⟨reopened, opened, alike⟩ := sound.reopens
  rw [kept] at opened
  exact ⟨reopened, opened, alike.answers_eq⟩

def sampleSubscription (handler : HandlerId) : StoredSubscription :=
  ⟨⟨.fill 16 1⟩, ⟨5⟩, handler, .oneShot, subscriptionBytes opSubscribe ⟨5⟩ []⟩

theorem unnamed_handler_blocks_reopening :
    ¬ ∀ (limits : StoreLimits) (calls : List StoreCall),
      ∃ reopened, «open» ((fresh limits).after calls).snapshot limits false = .ok reopened ∧
        ∀ later, reopened.answers later = ((fresh limits).after calls).answers later := by
  intro claimed
  obtain ⟨reopened, opened, _⟩ :=
    claimed ⟨8, 8, 8, 8, 100⟩ [.putSubscription (sampleSubscription .none)]
  have refused : («open» ((fresh ⟨8, 8, 8, 8, 100⟩).after
      [.putSubscription (sampleSubscription .none)]).snapshot ⟨8, 8, 8, 8, 100⟩ false).isOk =
      false := by decide +kernel
  rw [opened] at refused
  cases refused

/-- A run with a claim, a rejected call and calls of every other kind. -/
def sampleRun : List StoreCall :=
  [.reconcileAgents [(⟨.fill 16 1⟩, ⟨.fill 32 1, .fill 32 1⟩)],
    .setEnvironment ⟨.fill 16 1⟩ (environmentBytes [⟨⟨3⟩, .bool true⟩]),
    .putSubscription (sampleSubscription ⟨.fill 16 9⟩), .setEnvironment ⟨.fill 16 1⟩ [],
    .checkAndMark ⟨.fill 16 1⟩ ⟨.fill 16 4⟩ 600,
    .claimSubscription (sampleSubscription ⟨.fill 16 9⟩)]

theorem sample_reopened_answers :
    ∃ reopened, «open» ((fresh ⟨8, 8, 8, 8, 100⟩).after sampleRun).snapshot ⟨8, 8, 8, 8, 100⟩
        false = .ok reopened ∧
      ∀ later, reopened.answers later =
        ((fresh ⟨8, 8, 8, 8, 100⟩).after sampleRun).answers later := by
  refine @reopened_answers ⟨8, 8, 8, 8, 100⟩ sampleRun (fun call member => ?_)
  simp only [sampleRun, List.mem_cons, List.not_mem_nil, or_false] at member
  obtain rfl | rfl | rfl | rfl | rfl | rfl := member
  · trivial
  · trivial
  · exact fun _ => by decide
  · trivial
  · trivial
  · trivial

end PersistentStore

end SecurePubSub.Authority
