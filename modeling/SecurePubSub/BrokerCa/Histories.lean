import Mathlib.Data.List.Pairwise
import SecurePubSub.BrokerCa.Network

namespace SecurePubSub.BrokerCa

open SecurePubSub.Data SecurePubSub.Protocol SecurePubSub.Authority SecurePubSub.Link
  SecurePubSub.Broker SecurePubSub.Cad

/-! What the two parties have recorded and what they still owe each other.

`Served` is about the calls of `process` and the deliveries they generated, `Asked`
about the requests that the Broker took. Neither mentions what is in flight, so both
survive every disconnection, and they survive a restart of the Broker.
-/

/-! ## The calls of `process` -/

def processed (calls : List ProcessCall) : List MessageId := calls.map ProcessCall.id

def generated (calls : List ProcessCall) : List LinkFrame := calls.flatMap ProcessCall.frames

def latest (calls : List ProcessCall) : Option MessageId := (processed calls).getLast?

section Calls

variable {calls : List ProcessCall} {call : ProcessCall}

@[simp] theorem processed_append : processed (calls ++ [call]) = processed calls ++ [call.id] := by
  simp [processed]

@[simp] theorem generated_append :
    generated (calls ++ [call]) = generated calls ++ call.frames := by
  simp [generated]

@[simp] theorem latest_append : latest (calls ++ [call]) = some call.id := by
  simp [latest]

theorem mem_generated {frame : LinkFrame} :
    frame ∈ generated calls ↔ ∃ call ∈ calls, frame ∈ call.frames :=
  List.mem_flatMap

theorem latest_mem {id : MessageId} (last : latest calls = some id) : id ∈ processed calls :=
  List.mem_of_getLast? last

end Calls

/-- What the CA has processed, and that it owes no delivery but those it holds. -/
structure Served {ρ : Type} (link : LinkState ρ) (routed : List LinkFrame)
    (used : List MessageId) : Prop where
  grouped : link.Grouped
  whole : ∀ call ∈ link.calls, call.frames.map LinkFrame.payload = call.deliveries
  kinds : ∀ frame ∈ generated link.calls, frame.kind = .delivery
  drawn : ∀ frame ∈ generated link.calls, frame.id ∈ used
  separate : ((generated link.calls).map LinkFrame.id).Nodup
  owed : ∀ call ∈ link.calls, ∀ frame ∈ call.frames, frame ∈ routed ∨
    link.currentRequest = some call.id ∧ (frame.id, frame) ∈ link.pendingDeliveries.entries
  origin : ∀ frame ∈ routed, frame ∈ generated link.calls
  once : (processed link.calls).Nodup
  recorded : ∀ id ∈ link.acquiredRequests.order, id ∈ processed link.calls
  recent : ∀ id, latest link.calls = some id → id ∈ link.acquiredRequests.order
  current : ∀ id, link.currentRequest = some id → latest link.calls = some id
  positive : 0 < link.acquiredRequests.maximum

/-- The delivery with this id was routed. -/
def Acquired (routed : List LinkFrame) (id : MessageId) : Prop := ∃ frame ∈ routed, frame.id = id

namespace Served

variable {ρ : Type} {random : CryptoRandom ρ} {link : LinkState ρ} {routed : List LinkFrame}
  {used : List MessageId}

theorem with_used (served : Served link routed used) {more : List MessageId}
    (grown : ∀ id ∈ used, id ∈ more) : Served link routed more :=
  { served with drawn := fun frame member => grown _ (served.drawn frame member) }

theorem distinct (served : Served link routed used) : ∀ left ∈ generated link.calls,
    ∀ right ∈ generated link.calls, left.id = right.id → left = right :=
  List.inj_on_of_nodup_map served.separate

theorem same_call (served : Served link routed used) {left right : ProcessCall}
    (first : left ∈ link.calls) (second : right ∈ link.calls) {id : MessageId}
    (inLeft : id ∈ left.frames.map LinkFrame.id) (inRight : id ∈ right.frames.map LinkFrame.id) :
    left = right := by
  have separate := served.separate
  rw [generated, List.map_flatMap, List.nodup_flatMap] at separate
  have symmetric : Std.Symm (Function.onFun List.Disjoint
      fun call : ProcessCall => call.frames.map LinkFrame.id) := ⟨fun _ _ apart => apart.symm⟩
  by_contra different
  exact separate.2.forall first second different inLeft inRight

/-- A request that is not current owes nothing. -/
theorem routed_of_completed (served : Served link routed used) {call : ProcessCall}
    (member : call ∈ link.calls) (completed : link.currentRequest ≠ some call.id) :
    ∀ frame ∈ call.frames, frame ∈ routed := by
  intro frame generated
  rcases served.owed call member frame generated with done | ⟨current, _⟩
  · exact done
  · exact absurd current completed

theorem generated_of_pending (served : Served link routed used) {entry : MessageId × LinkFrame}
    (pending : entry ∈ link.pendingDeliveries.entries) :
    entry.1 = entry.2.id ∧ entry.2 ∈ generated link.calls := by
  have some : link.pendingDeliveries.entries ≠ [] := List.ne_nil_of_mem pending
  obtain ⟨request, current⟩ := served.grouped.pending_iff.mp some
  obtain ⟨earlier, call, calls, _, _, each⟩ := served.grouped.serves current
  obtain ⟨id, member⟩ := each entry pending
  refine ⟨id, mem_generated.mpr ⟨call, ?_, member⟩⟩
  rw [calls]
  exact List.mem_append_right _ List.mem_cons_self

theorem route (served : Served link routed used) {frame : LinkFrame}
    (made : frame ∈ generated link.calls) : Served link (routed ++ [frame]) used where
  grouped := served.grouped
  whole := served.whole
  kinds := served.kinds
  drawn := served.drawn
  separate := served.separate
  owed call member frame generated :=
    (served.owed call member frame generated).imp_left (List.mem_append_left _)
  origin other member := by
    rcases List.mem_append.mp member with old | new
    · exact served.origin other old
    · rw [List.mem_singleton.mp new]
      exact made
  once := served.once
  recorded := served.recorded
  recent := served.recent
  current := served.current
  positive := served.positive

theorem reload (served : Served link routed used)
    (candidate : Option (EnvironmentPolicy × List (AgentId × PublicKeys))) :
    Served (link.reload candidate) routed used := by
  have grouped := served.grouped.reload candidate
  obtain ⟨system, same⟩ := link.reload_eq candidate
  rw [same] at grouped ⊢
  exact { served with grouped }

/-- An acknowledgement of a routed delivery leaves what is still owed pending. -/
theorem onAck (served : Served link routed used) {id : MessageId} (done : Acquired routed id) :
    Served (link.onAck id).state routed used := by
  have grouped := served.grouped.onAck id
  have remaining := @PendingFrames.entries_acknowledge _ link.pendingDeliveries id
  have owed : ∀ call ∈ link.calls, ∀ frame ∈ call.frames, frame ∈ routed ∨
      link.currentRequest = some call.id ∧
        (frame.id, frame) ∈ (link.pendingDeliveries.acknowledge id).entries := by
    intro call member frame generated
    rcases served.owed call member frame generated with routed | ⟨current, pending⟩
    · exact .inl routed
    · by_cases same : frame.id = id
      · obtain ⟨delivery, routed, named⟩ := done
        have made := mem_generated.mpr ⟨call, member, generated⟩
        rw [served.distinct frame made delivery (served.origin delivery routed)
          (same.trans named.symm)]
        exact .inl routed
      · rw [remaining]
        exact .inr ⟨current, List.mem_filter.mpr ⟨pending, by simpa using same⟩⟩
  rcases @LinkState.onAck_cases _ link id with ⟨request, current, nothing, acked⟩ | ⟨_, acked⟩
  · rw [acked] at grouped ⊢
    refine { served with grouped, owed := ?_, current := nofun }
    intro call member frame generated
    rcases owed call member frame generated with routed | ⟨_, pending⟩
    · exact .inl routed
    · rw [nothing] at pending
      cases pending
  · rw [acked] at grouped ⊢
    exact { served with grouped, owed }

/-- The histories with one more call, whose deliveries carry ids that were never used. -/
theorem with_call (served : Served link routed used) {call : ProcessCall} {draws : List MessageId}
    (once : call.id ∉ processed link.calls)
    (whole : call.frames.map LinkFrame.payload = call.deliveries)
    (kinds : ∀ frame ∈ call.frames, frame.kind = .delivery)
    (drawn : (call.frames.map LinkFrame.id).Sublist draws) (separate : draws.Nodup)
    (unused : ∀ id ∈ draws, id ∉ used) {later : LinkState ρ}
    (calls : later.calls = link.calls ++ [call]) (grouped : later.Grouped)
    (owed : ∀ call ∈ later.calls, ∀ frame ∈ call.frames, frame ∈ routed ∨
      later.currentRequest = some call.id ∧ (frame.id, frame) ∈ later.pendingDeliveries.entries)
    (current : ∀ id, later.currentRequest = some id → latest later.calls = some id)
    (recorded : link.acquiredRequests.insert call.id = .ok later.acquiredRequests) :
    Served later routed (used ++ draws) := by
  obtain ⟨maximum, member, added⟩ := DedupWindow.of_insert recorded
  have fresh : ∀ frame ∈ call.frames, frame.id ∈ draws :=
    fun frame member => drawn.subset (List.mem_map_of_mem member)
  refine ⟨grouped, ?_, ?_, ?_, ?_, owed, ?_, ?_, ?_, ?_, current, maximum ▸ served.positive⟩
  · intro other member
    rw [calls] at member
    rcases List.mem_append.mp member with old | new
    · exact served.whole other old
    · rw [List.mem_singleton.mp new]
      exact whole
  · intro frame made
    rw [calls, generated_append] at made
    exact (List.mem_append.mp made).elim (served.kinds frame) (kinds frame)
  · intro frame made
    rw [calls, generated_append] at made
    rcases List.mem_append.mp made with old | new
    · exact List.mem_append_left _ (served.drawn frame old)
    · exact List.mem_append_right _ (fresh frame new)
  · rw [calls, generated_append, List.map_append]
    apply served.separate.append (separate.sublist drawn)
    intro id old new
    obtain ⟨frame, made, rfl⟩ := List.mem_map.mp old
    exact unused _ (drawn.subset new) (served.drawn frame made)
  · intro frame member
    rw [calls, generated_append]
    exact List.mem_append_left _ (served.origin frame member)
  · rw [calls, processed_append, ← List.concat_eq_append]
    exact served.once.concat once
  · intro id listed
    rw [calls, processed_append, List.mem_append, List.mem_singleton]
    exact (added id listed).symm.imp_left (served.recorded id)
  · intro id last
    rw [calls, latest_append] at last
    cases last
    exact member

/-- A new request was processed and, if it generated deliveries, they are pending. -/
theorem process (served : Served link routed used) (idle : link.currentRequest = none)
    {request : MessageId} (fresh : request ∉ processed link.calls) (payload : Bytes)
    (nowSeconds : UInt64) {draws : List MessageId} (separate : draws.Nodup)
    (unused : ∀ id ∈ draws, id ∉ used)
    (runs : (link.process random request payload nowSeconds draws).ending ≠ .exit) :
    let round := link.process random request payload nowSeconds draws
    Served round.state routed (used ++ draws) ∧ round.ending = .stay ∧
      ∃ call, call.id = request ∧ call.payload = payload ∧
        round.state.calls = link.calls ++ [call] ∧
        ((round.state.currentRequest = none ∧ round.frames = [LinkFrame.ack request]) ∨
          (round.state.currentRequest = some request ∧ round.frames = call.frames)) := by
  intro round
  have nothing := served.grouped.nothing_pending idle
  have done : ∀ call ∈ link.calls, ∀ frame ∈ call.frames, frame ∈ routed :=
    fun call member => served.routed_of_completed member (by rw [idle]; nofun)
  obtain ⟨stays, grouped⟩ := (@LinkState.Grouped.process _ random link served.grouped idle request
    payload nowSeconds draws).resolve_left runs
  have ways := @LinkState.processed _ random link request payload nowSeconds draws
  change round.ending = .stay at stays
  change round.state.Grouped at grouped
  change LinkState.Processed random link request payload nowSeconds draws round at ways
  change round.ending ≠ .exit at runs
  clear_value round
  cases ways with
  | exit _ ending => exact absurd ending runs
  | abandon _ deliveries answer overflow =>
      have fits := served.grouped.not_overflow idle answer
      omega
  | quiet call acquired id sent empty none inserted =>
      refine ⟨?_, rfl, call, id, sent, rfl, .inl ⟨idle, rfl⟩⟩
      apply served.with_call (id ▸ fresh) (by rw [none, empty]; rfl) (by rw [none]; nofun)
        (by rw [none]; exact List.nil_sublist _) separate unused rfl grouped ?_ ?_ (id ▸ inserted)
      · intro other member frame generated
        rcases List.mem_append.mp member with old | new
        · exact .inl (done other old frame generated)
        · rw [List.mem_singleton.mp new, none] at generated
          cases generated
      · intro other current
        rw [idle] at current
        cases current
  | group call acquired pending id sent some whole drawn kinds maximum entries inserted =>
      refine ⟨?_, rfl, call, id, sent, rfl, .inr ⟨rfl, rfl⟩⟩
      apply served.with_call (id ▸ fresh) whole kinds drawn separate unused rfl grouped ?_ ?_
        (id ▸ inserted)
      · intro other member frame generated
        rcases List.mem_append.mp member with old | new
        · exact .inl (done other old frame generated)
        · rw [List.mem_singleton.mp new] at generated ⊢
          rw [id, entries, nothing, List.nil_append]
          exact .inr ⟨rfl, List.mem_map.mpr ⟨frame, generated, rfl⟩⟩
      · intro other current
        rw [latest_append, id]
        exact current

end Served

/-! ## The requests of the Broker -/

/-- The frame carries the request that was taken last. -/
def TakenLast (broker : CaLink) (frame : LinkFrame) : Prop :=
  frame.kind = .request ∧ broker.taken.getLast? = some (some frame.id, frame.payload)

/-- What is pending of the Broker is the request taken last, which is either new to the CA or the
one that it processed last. -/
structure Asked (config : BrokerConfig) (calls : List ProcessCall) (broker : CaLink)
    (used : List MessageId) : Prop where
  taken : ∀ call ∈ calls, (some call.id, call.payload) ∈ broker.taken
  drawn : ∀ id payload, (some id, payload) ∈ broker.taken → id ∈ used
  pending : broker.pending.entries = [] ∨ ∃ frame, broker.pending.entries = [(frame.id, frame)] ∧
    TakenLast broker frame ∧ (frame.id ∉ processed calls ∨ latest calls = some frame.id)
  room : broker.taken ≠ [] → 0 < broker.pending.maximum
  depth : broker.pending.maximum = config.caQueueDepth
  channel : broker.router.caDepth = config.caQueueDepth ∧
    0 < broker.router.caRequests.capacity ∧ broker.router.caRequests.closed = false
  short : ∀ request ∈ broker.router.caRequests.frames, request.length ≤ maxFrameLen
  acquired : ∀ id ∈ broker.acquiredDeliveries.order, Acquired broker.routed id
  window : broker.acquiredDeliveries.maximum = config.caDedupDepth

namespace Asked

variable {config : BrokerConfig} {calls : List ProcessCall} {broker : CaLink}
  {used : List MessageId}

theorem with_used (asked : Asked config calls broker used) {more : List MessageId}
    (grown : ∀ id ∈ used, id ∈ more) : Asked config calls broker more :=
  { asked with drawn := fun id payload member => grown _ (asked.drawn id payload member) }

theorem processed_used (asked : Asked config calls broker used) {id : MessageId}
    (done : id ∈ processed calls) : id ∈ used := by
  obtain ⟨call, member, rfl⟩ := List.mem_map.mp done
  exact asked.drawn _ _ (asked.taken call member)

/-- The CA processed the request taken last. -/
theorem process (asked : Asked config calls broker used) {call : ProcessCall} {frame : LinkFrame}
    (last : TakenLast broker frame) (id : call.id = frame.id)
    (payload : call.payload = frame.payload) :
    Asked config (calls ++ [call]) broker used where
  taken other member := by
    rcases List.mem_append.mp member with old | new
    · exact asked.taken other old
    · rw [List.mem_singleton.mp new, id, payload]
      exact List.mem_of_getLast? last.2
  drawn := asked.drawn
  pending := by
    rcases asked.pending with nothing | ⟨entry, entries, taken, _⟩
    · exact .inl nothing
    · have same := taken.2.symm.trans last.2
      simp only [Option.some.injEq, Prod.mk.injEq] at same
      exact .inr ⟨entry, entries, taken, .inr (by rw [latest_append, id, same.1])⟩
  room := asked.room
  depth := asked.depth
  channel := asked.channel
  short := asked.short
  acquired := asked.acquired
  window := asked.window

theorem acknowledge (asked : Asked config calls broker used) (id : MessageId) :
    Asked config calls { broker with pending := broker.pending.acknowledge id } used := by
  refine ⟨asked.taken, asked.drawn, ?_, asked.room, asked.depth, asked.channel, asked.short,
    asked.acquired, asked.window⟩
  have remaining := @PendingFrames.entries_acknowledge _ broker.pending id
  rcases asked.pending with nothing | ⟨frame, entries, last, known⟩
  · exact .inl (by rw [remaining, nothing, List.filter_nil])
  · by_cases same : frame.id = id
    · exact .inl (by simp [remaining, entries, same])
    · exact .inr ⟨frame, by simp [remaining, entries, same], last, known⟩

theorem with_router (asked : Asked config calls broker used) {router : Router}
    (feeds : Router.Feeds broker.router router) :
    Asked config calls { broker with router } used := by
  obtain ⟨depth, positive, opened⟩ := asked.channel
  refine ⟨asked.taken, asked.drawn, asked.pending, asked.room, asked.depth,
    ⟨feeds.depth.trans depth, by rw [feeds.capacity]; exact positive,
      feeds.closed.trans opened⟩, fun request member => ?_, asked.acquired, asked.window⟩
  exact (feeds.short request member).elim (asked.short request) id

/-- A delivery was routed and recorded. -/
theorem route (asked : Asked config calls broker used) {frame : LinkFrame} {acquired : DedupWindow}
    (recorded : broker.acquiredDeliveries.insert frame.id = .ok acquired) :
    Asked config calls { broker with
      router := (broker.router.routeCaDelivery frame.payload).2
      acquiredDeliveries := acquired
      routed := broker.routed ++ [frame] } used := by
  obtain ⟨maximum, _, added⟩ := DedupWindow.of_insert recorded
  have fed := asked.with_router (Router.feeds_routeCaDelivery frame.payload)
  refine ⟨asked.taken, asked.drawn, asked.pending, asked.room, asked.depth, fed.channel, fed.short,
    fun id listed => ?_, maximum.trans asked.window⟩
  rcases added id listed with same | old
  · exact ⟨frame, List.mem_append_right _ List.mem_cons_self, same.symm⟩
  · obtain ⟨delivery, routed, named⟩ := asked.acquired id old
    exact ⟨delivery, List.mem_append_left _ routed, named⟩

/-- A new request was taken under an id that was never used. -/
theorem take (asked : Asked config calls broker used) {id : MessageId} (unused : id ∉ used)
    {frame : LinkFrame} {pending : PendingFrames LinkFrame} {rest : List Bytes}
    (kind : frame.kind = .request) (named : frame.id = id)
    (maximum : pending.maximum = broker.pending.maximum) (positive : 0 < broker.pending.maximum)
    (entries : pending.entries = [(id, frame)])
    (waiting : ∀ request ∈ rest, request ∈ broker.router.caRequests.frames) :
    Asked config calls { broker with
      router := { broker.router with caRequests := { broker.router.caRequests with frames := rest } }
      pending
      taken := broker.taken ++ [(some id, frame.payload)] } (used ++ [id]) where
  taken call member := List.mem_append_left _ (asked.taken call member)
  drawn other payload member := by
    rcases List.mem_append.mp member with old | new
    · exact List.mem_append_left _ (asked.drawn other payload old)
    · simp only [List.mem_singleton, Prod.mk.injEq, Option.some.injEq] at new
      exact List.mem_append_right _ (List.mem_singleton.mpr new.1)
  pending := by
    refine .inr ⟨frame, by rw [named]; exact entries, ⟨kind, by simp [named]⟩, .inl ?_⟩
    rw [named]
    exact fun done => unused (asked.processed_used done)
  room _ := by
    rw [maximum]
    exact positive
  depth := maximum.trans asked.depth
  channel := asked.channel
  short request member := asked.short request (waiting request member)
  acquired := asked.acquired
  window := asked.window

theorem restart (asked : Asked config calls broker used) :
    Asked config calls (config.start broker.taken broker.routed) used where
  taken := asked.taken
  drawn := asked.drawn
  pending := .inl rfl
  room taken := by
    have positive := asked.room taken
    rw [asked.depth] at positive
    exact positive
  depth := rfl
  channel := ⟨rfl, Nat.lt_of_lt_of_le Nat.one_pos (Nat.le_max_right _ _), rfl⟩
  short := nofun
  acquired := nofun
  window := rfl

end Asked

/-! ## Before the first connection -/

theorem served_startup {ρ : Type} {config : LinkConfig} {authority : CertificateAuthority}
    {snapshot : SnapshotFile} {readFails : Bool} {rng : ρ} {daemon : Daemon ρ}
    (started : startup config authority snapshot readFails rng = .ok daemon)
    (positive : 0 < config.brokerDedupEntries) :
    Served daemon.link [] [] ∧ daemon.link.calls = [] := by
  have grouped := Daemon.grouped_startup started
  obtain ⟨_, store, _, rfl⟩ := Daemon.startup_eq_ok started
  exact ⟨⟨grouped nofun, nofun, nofun, nofun, List.nodup_nil, nofun, nofun, List.nodup_nil, nofun,
    nofun, nofun, positive⟩, rfl⟩

theorem asked_start {config : BrokerConfig} : Asked config [] (config.start [] []) [] :=
  ⟨nofun, nofun, .inl rfl, fun some => absurd rfl some, rfl,
    ⟨rfl, Nat.lt_of_lt_of_le Nat.one_pos (Nat.le_max_right _ _), rfl⟩, nofun, nofun, rfl⟩

end SecurePubSub.BrokerCa
