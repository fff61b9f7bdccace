import SecurePubSub.Protocol.Payload

namespace SecurePubSub.Protocol

open SecurePubSub.Data SecurePubSub.Data.Fallible

/-! The canonical bytes of each operation.

Every encoder that succeeds writes exactly these bytes, and the parser reads
them back, so a request means at the receiver what its builder was given.
-/

/-- A byte string within its length limit; other values have no limit. -/
def ValueRef.Bounded (maximumBytes : Nat) : ValueRef → Prop
  | .bytes content => content.length ≤ maximumBytes
  | _ => True

def ValueRef.encoded : ValueRef → Bytes
  | .bool flag => beBytes 1 1 ++ beBytes 1 (if flag then 1 else 0)
  | .i64 word => beBytes 1 2 ++ beBytes 8 word.toUInt64.toNat
  | .bytes content => beBytes 1 3 ++ (beBytes 2 content.length ++ content)

def AttributeRef.encoded (entry : AttributeRef) : Bytes :=
  beBytes 2 entry.id.value.toNat ++ entry.value.encoded

def ClauseRef.encoded (entry : ClauseRef) : Bytes :=
  beBytes 2 entry.attributeId.value.toNat ++
    (beBytes 1 entry.operator.toU8.toNat ++ entry.value.encoded)

def environmentBytes (attributes : List AttributeRef) : Bytes :=
  beBytes 1 1 ++ (beBytes 1 attributes.length ++ attributes.flatMap AttributeRef.encoded)

def predicateBytes (clauses : List ClauseRef) : Bytes :=
  beBytes 1 clauses.length ++ clauses.flatMap ClauseRef.encoded

/-- The bytes of either kind of subscription, which differ in their tag only. -/
def subscriptionBytes (tag : UInt8) (typeId : TypeId) (clauses : List ClauseRef) : Bytes :=
  beBytes 1 tag.toNat ++ (beBytes 4 typeId.value.toNat ++ predicateBytes clauses)

def publishBytes (typeId : TypeId) (clauses : List ClauseRef) (value : Bytes) : Bytes :=
  beBytes 1 3 ++ (beBytes 4 typeId.value.toNat ++
    (predicateBytes clauses ++ (beBytes 2 value.length ++ value)))

def responseBytes (typeId : TypeId) (publisher : AgentId) (value : Bytes) : Bytes :=
  beBytes 1 4 ++ (beBytes 4 typeId.value.toNat ++
    (publisher.value.bytes ++ (beBytes 2 value.length ++ value)))

/-- The predicate that the parser returns for a list of clauses. -/
def predicateRef (clauses : List ClauseRef) : PredicateRef :=
  ⟨clauses.flatMap ClauseRef.encoded, UInt8.ofNat clauses.length⟩

/-! ## What an encoder writes -/

namespace Writer

def push (writer : Writer) (value : Bytes) : Writer :=
  { writer with output := writer.output ++ value }

@[simp] theorem push_output (writer : Writer) (value : Bytes) :
    (writer.push value).output = writer.output ++ value := rfl

theorem push_push (writer : Writer) (front back : Bytes) :
    (writer.push front).push back = writer.push (front ++ back) := by
  simp [push, List.append_assoc]

theorem raw_eq_ok {writer after : Writer} {value : Bytes}
    (written : writer.raw value = .ok after) : after = writer.push value := by
  simp only [raw] at written
  split at written
  · cases written; rfl
  · cases written

theorem raw_fits {writer : Writer} {value : Bytes}
    (room : writer.output.length + value.length ≤ writer.capacity) :
    writer.raw value = .ok (writer.push value) := by
  simp only [raw, if_pos room, push]

theorem bytesU16_eq_ok {writer after : Writer} {value : Bytes} {maximum : Nat}
    (written : writer.bytesU16 value maximum = .ok after) :
    after = writer.push (beBytes 2 value.length ++ value) ∧ value.length ≤ maximum := by
  obtain ⟨within, written⟩ := rejectIf_bind_eq_ok written
  obtain ⟨small, written⟩ := rejectIf_bind_eq_ok written
  obtain ⟨middle, lengthWritten, contentWritten⟩ := bind_eq_ok.mp written
  have lengthKept : (UInt16.ofNat value.length).toNat = value.length := by
    simp only [UInt16.toNat_ofNat', Nat.reducePow]
    omega
  rw [u16, lengthKept] at lengthWritten
  have front := raw_eq_ok lengthWritten
  have back := raw_eq_ok contentWritten
  subst front
  rw [push_push] at back
  exact ⟨back, by omega⟩

theorem value_eq_ok {writer after : Writer} {held : ValueRef} {maximumBytes : Nat}
    (written : writer.value held maximumBytes = .ok after) :
    after = writer.push held.encoded ∧ held.Bounded maximumBytes := by
  cases held with
  | bool flag =>
      obtain ⟨middle, tagWritten, flagWritten⟩ := bind_eq_ok.mp written
      have front := raw_eq_ok tagWritten
      have back := raw_eq_ok flagWritten
      subst front
      rw [push_push] at back
      refine ⟨?_, trivial⟩
      cases flag <;> exact back
  | i64 word =>
      obtain ⟨middle, tagWritten, wordWritten⟩ := bind_eq_ok.mp written
      have front := raw_eq_ok tagWritten
      have back := raw_eq_ok wordWritten
      subst front
      rw [push_push] at back
      exact ⟨back, trivial⟩
  | bytes content =>
      obtain ⟨middle, tagWritten, contentWritten⟩ := bind_eq_ok.mp written
      have front := raw_eq_ok tagWritten
      obtain ⟨back, bounded⟩ := bytesU16_eq_ok contentWritten
      subst front
      rw [push_push] at back
      exact ⟨back, bounded⟩

theorem attributeEntry_eq_ok {writer after : Writer} {entry : AttributeRef}
    (written : writer.attributeEntry entry = .ok after) :
    after = writer.push entry.encoded ∧ entry.value.Bounded maxAttributeBytes := by
  obtain ⟨middle, idWritten, valueWritten⟩ := bind_eq_ok.mp written
  have front := raw_eq_ok idWritten
  obtain ⟨back, bounded⟩ := value_eq_ok valueWritten
  subst front
  rw [push_push] at back
  exact ⟨back, bounded⟩

theorem clause_eq_ok {writer after : Writer} {entry : ClauseRef}
    (written : writer.clause entry = .ok after) :
    after = writer.push entry.encoded ∧ entry.value.Bounded maxAttributeBytes := by
  obtain ⟨middle, idWritten, rest⟩ := bind_eq_ok.mp written
  obtain ⟨later, operatorWritten, valueWritten⟩ := bind_eq_ok.mp rest
  have front := raw_eq_ok idWritten
  have code := raw_eq_ok operatorWritten
  obtain ⟨back, bounded⟩ := value_eq_ok valueWritten
  subst front
  subst code
  rw [push_push, push_push] at back
  exact ⟨back, bounded⟩

theorem foldlM_eq_ok {α : Type} {write : Writer → α → Except Error Writer} (encode : α → Bytes)
    (valid : α → Prop)
    (each : ∀ {writer after item}, write writer item = .ok after →
      after = writer.push (encode item) ∧ valid item)
    {items : List α} {writer after : Writer} (written : items.foldlM write writer = .ok after) :
    after = writer.push (items.flatMap encode) ∧ ∀ item ∈ items, valid item := by
  induction items generalizing writer with
  | nil =>
      cases written
      exact ⟨by simp [push], by simp⟩
  | cons head tail ih =>
      rw [List.foldlM_cons] at written
      obtain ⟨middle, headWritten, tailWritten⟩ := bind_eq_ok.mp written
      obtain ⟨front, headValid⟩ := each headWritten
      obtain ⟨back, tailValid⟩ := ih tailWritten
      subst front
      rw [push_push] at back
      refine ⟨by rw [List.flatMap_cons]; exact back, fun item member => ?_⟩
      cases List.mem_cons.mp member with
      | inl same => exact same ▸ headValid
      | inr later => exact tailValid item later

theorem predicate_eq_ok {writer after : Writer} {clauses : List ClauseRef}
    (written : writer.predicate clauses = .ok after) :
    after = writer.push (predicateBytes clauses) ∧ clauses.length ≤ maxClauses ∧
      ∀ clause ∈ clauses, clause.value.Bounded maxAttributeBytes := by
  obtain ⟨within, written⟩ := rejectIf_bind_eq_ok written
  obtain ⟨middle, countWritten, clausesWritten⟩ := bind_eq_ok.mp written
  have few : clauses.length ≤ 8 := Nat.not_lt.mp within
  have countKept : (UInt8.ofNat clauses.length).toNat = clauses.length := by
    simp only [UInt8.toNat_ofNat', Nat.reducePow]
    omega
  rw [u8, countKept] at countWritten
  have front := raw_eq_ok countWritten
  obtain ⟨back, bounded⟩ := foldlM_eq_ok ClauseRef.encoded
    (fun clause => clause.value.Bounded maxAttributeBytes) clause_eq_ok clausesWritten
  subst front
  rw [push_push] at back
  exact ⟨back, few, bounded⟩

end Writer

theorem encodeEnvironment_eq_ok {capacity : Nat} {attributes : List AttributeRef} {bytes : Bytes}
    (encoded : encodeEnvironment capacity attributes = .ok bytes) :
    bytes = environmentBytes attributes ∧ attributes.length ≤ maxAttributes ∧
      (attributes.map AttributeRef.id).Nodup ∧
      ∀ entry ∈ attributes, entry.value.Bounded maxAttributeBytes := by
  obtain ⟨within, encoded⟩ := rejectIf_bind_eq_ok encoded
  obtain ⟨⟨⟩, unique, encoded⟩ := bind_eq_ok.mp encoded
  obtain ⟨tagged, tagWritten, encoded⟩ := bind_eq_ok.mp encoded
  obtain ⟨counted, countWritten, encoded⟩ := bind_eq_ok.mp encoded
  obtain ⟨complete, entriesWritten, result⟩ := bind_eq_ok.mp encoded
  have few : attributes.length ≤ 16 := Nat.not_lt.mp within
  have countKept : (UInt8.ofNat attributes.length).toNat = attributes.length := by
    simp only [UInt8.toNat_ofNat', Nat.reducePow]
    omega
  have distinct : (attributes.map AttributeRef.id).Nodup := by
    simp only [ensureUniqueAttributes] at unique
    split at unique
    · assumption
    · cases unique
  have front := Writer.raw_eq_ok tagWritten
  rw [Writer.u8, countKept] at countWritten
  have count := Writer.raw_eq_ok countWritten
  obtain ⟨back, bounded⟩ := Writer.foldlM_eq_ok AttributeRef.encoded
    (fun entry => entry.value.Bounded maxAttributeBytes) Writer.attributeEntry_eq_ok entriesWritten
  subst front count back
  cases result
  exact ⟨by simp [Writer.new, environmentBytes, opEnvironment], few, distinct, bounded⟩

theorem encodeSubscription_eq_ok {capacity : Nat} {tag : UInt8} {typeId : TypeId}
    {clauses : List ClauseRef} {bytes : Bytes}
    (encoded : (do
      let writer ← (Writer.new capacity).u8 tag
      let writer ← writer.u32 typeId.value
      let writer ← writer.predicate clauses
      pure writer.output : Except Error Bytes) = .ok bytes) :
    bytes = subscriptionBytes tag typeId clauses ∧ clauses.length ≤ maxClauses ∧
      ∀ clause ∈ clauses, clause.value.Bounded maxAttributeBytes := by
  obtain ⟨tagged, tagWritten, encoded⟩ := bind_eq_ok.mp encoded
  obtain ⟨typed, typeWritten, encoded⟩ := bind_eq_ok.mp encoded
  obtain ⟨complete, clausesWritten, result⟩ := bind_eq_ok.mp encoded
  have front := Writer.raw_eq_ok tagWritten
  have middle := Writer.raw_eq_ok typeWritten
  obtain ⟨back, few, bounded⟩ := Writer.predicate_eq_ok clausesWritten
  subst front middle back
  cases result
  exact ⟨by simp [Writer.new, subscriptionBytes], few, bounded⟩

theorem encodePublish_eq_ok {capacity : Nat} {typeId : TypeId} {clauses : List ClauseRef}
    {value bytes : Bytes} (encoded : encodePublish capacity typeId clauses value = .ok bytes) :
    bytes = publishBytes typeId clauses value ∧ clauses.length ≤ maxClauses ∧
      (∀ clause ∈ clauses, clause.value.Bounded maxAttributeBytes) ∧
      value.length ≤ maxValueBytes := by
  obtain ⟨within, encoded⟩ := rejectIf_bind_eq_ok encoded
  obtain ⟨tagged, tagWritten, encoded⟩ := bind_eq_ok.mp encoded
  obtain ⟨typed, typeWritten, encoded⟩ := bind_eq_ok.mp encoded
  obtain ⟨audience, clausesWritten, encoded⟩ := bind_eq_ok.mp encoded
  obtain ⟨complete, valueWritten, result⟩ := bind_eq_ok.mp encoded
  have front := Writer.raw_eq_ok tagWritten
  have middle := Writer.raw_eq_ok typeWritten
  obtain ⟨clausesBack, few, bounded⟩ := Writer.predicate_eq_ok clausesWritten
  obtain ⟨valueBack, short⟩ := Writer.bytesU16_eq_ok valueWritten
  subst front middle clausesBack valueBack
  cases result
  exact ⟨by simp [Writer.new, publishBytes, opPublish], few, bounded, short⟩

theorem encodeResponse_eq_ok {capacity : Nat} {typeId : TypeId} {publisher : AgentId}
    {value bytes : Bytes} (encoded : encodeResponse capacity typeId publisher value = .ok bytes) :
    bytes = responseBytes typeId publisher value ∧ value.length ≤ maxValueBytes := by
  obtain ⟨within, encoded⟩ := rejectIf_bind_eq_ok encoded
  obtain ⟨tagged, tagWritten, encoded⟩ := bind_eq_ok.mp encoded
  obtain ⟨typed, typeWritten, encoded⟩ := bind_eq_ok.mp encoded
  obtain ⟨named, publisherWritten, encoded⟩ := bind_eq_ok.mp encoded
  obtain ⟨complete, valueWritten, result⟩ := bind_eq_ok.mp encoded
  have front := Writer.raw_eq_ok tagWritten
  have middle := Writer.raw_eq_ok typeWritten
  have name := Writer.raw_eq_ok publisherWritten
  obtain ⟨back, short⟩ := Writer.bytesU16_eq_ok valueWritten
  subst front middle name back
  cases result
  exact ⟨by simp [Writer.new, responseBytes, opResponse], short⟩

theorem Writer.raw_fails (writer : Writer) (value : Bytes) :
    FailsOnly (· = .oversized) (writer.raw value) := by
  rw [raw]
  split
  · exact failsOnly_ok _
  · exact failsOnly_error rfl

theorem encodeResponse_fails (capacity : Nat) (typeId : TypeId) (publisher : AgentId)
    (value : Bytes) :
    FailsOnly (· = .oversized) (encodeResponse capacity typeId publisher value) :=
  failsOnly_bind (failsOnly_rejectIf rfl) fun _ =>
    failsOnly_bind (Writer.raw_fails _ _) fun _ =>
      failsOnly_bind (Writer.raw_fails _ _) fun _ =>
        failsOnly_bind (Writer.raw_fails _ _) fun _ =>
          failsOnly_bind
            (failsOnly_bind (failsOnly_rejectIf rfl) fun _ =>
              failsOnly_bind (failsOnly_rejectIf rfl) fun _ =>
                failsOnly_bind (Writer.raw_fails _ _) fun _ => Writer.raw_fails _ _)
            fun _ => failsOnly_ok _

/-! ## What the parser reads back -/

namespace Cursor

open SecurePubSub.Data.Cursor

theorem u8_append (code : UInt8) (rest : Bytes) :
    u8 (beBytes 1 code.toNat ++ rest) = .ok (code, rest) := by
  rw [u8, bind_ok (number_append _ code.toNat_lt rest)]
  simp

theorem u8_append_count {count : Nat} (few : count < 256) (rest : Bytes) :
    u8 (beBytes 1 count ++ rest) = .ok (UInt8.ofNat count, rest) := by
  rw [u8, bind_ok (number_append _ few rest)]
  rfl

theorem u16_append (word : UInt16) (rest : Bytes) :
    u16 (beBytes 2 word.toNat ++ rest) = .ok (word, rest) := by
  rw [u16, bind_ok (number_append _ word.toNat_lt rest)]
  simp

theorem u32_append (word : UInt32) (rest : Bytes) :
    u32 (beBytes 4 word.toNat ++ rest) = .ok (word, rest) := by
  rw [u32, bind_ok (number_append _ word.toNat_lt rest)]
  simp

theorem bytesU16_append {content : Bytes} {maximum : Nat} (short : content.length ≤ maximum)
    (representable : maximum < 2 ^ 16) (rest : Bytes) :
    bytesU16 maximum (beBytes 2 content.length ++ (content ++ rest)) = .ok (content, rest) := by
  have length := u16_append (UInt16.ofNat content.length) (content ++ rest)
  have kept : (UInt16.ofNat content.length).toNat = content.length := by
    simp only [UInt16.toNat_ofNat', Nat.reducePow]
    omega
  rw [kept] at length
  rw [bytesU16, bind_ok length, kept, if_neg (Nat.not_lt.mpr short)]
  exact take_append _ rest rfl

theorem value_append {held : ValueRef} (bounded : held.Bounded maxAttributeBytes) (rest : Bytes) :
    value maxAttributeBytes (held.encoded ++ rest) = .ok (held, rest) := by
  cases held with
  | bool flag =>
      have tag := u8_append 1 (beBytes 1 (if flag then 1 else 0) ++ rest)
      rw [ValueRef.encoded, List.append_assoc, value]
      refine (bind_ok tag).trans ?_
      cases flag with
      | false => exact bind_ok (u8_append 0 rest)
      | true => exact bind_ok (u8_append 1 rest)
  | i64 word =>
      have tag := u8_append 2 (beBytes 8 word.toUInt64.toNat ++ rest)
      have range : word.toUInt64.toNat < 256 ^ 8 := word.toUInt64.toNat_lt
      have digits := number_append Error.malformed range rest
      rw [ValueRef.encoded, List.append_assoc, value]
      refine (bind_ok tag).trans ((bind_ok digits).trans ?_)
      simp [Int64.ofNat]
  | bytes content =>
      have tag := u8_append 3 (beBytes 2 content.length ++ content ++ rest)
      have read := bytesU16_append bounded (by decide) rest
      rw [ValueRef.encoded, List.append_assoc, value]
      refine (bind_ok tag).trans ?_
      rw [List.append_assoc]
      exact bind_ok read

theorem attributeEntry_append {entry : AttributeRef}
    (bounded : entry.value.Bounded maxAttributeBytes) (rest : Bytes) :
    attributeEntry (entry.encoded ++ rest) = .ok (entry, rest) := by
  rw [AttributeRef.encoded, List.append_assoc, attributeEntry, bind_ok (u16_append _ _),
    bind_ok (value_append bounded rest), pure_apply]

theorem clause_append {entry : ClauseRef} (bounded : entry.value.Bounded maxAttributeBytes)
    (rest : Bytes) : clause (entry.encoded ++ rest) = .ok (entry, rest) := by
  rw [ClauseRef.encoded, List.append_assoc, List.append_assoc, clause, bind_ok (u16_append _ _),
    bind_ok (u8_append _ _), Operator.fromU8_toU8]
  exact bind_ok (value_append bounded rest)

theorem predicate_append {clauses : List ClauseRef} (few : clauses.length ≤ maxClauses)
    (bounded : ∀ clause ∈ clauses, clause.value.Bounded maxAttributeBytes) (rest : Bytes) :
    predicate (predicateBytes clauses ++ rest) = .ok (predicateRef clauses, rest) := by
  have kept : (UInt8.ofNat clauses.length).toNat = clauses.length := by
    have small : clauses.length ≤ 8 := few
    simp only [UInt8.toNat_ofNat', Nat.reducePow]
    omega
  have count := u8_append_count (Nat.lt_of_le_of_lt few (by decide))
    (clauses.flatMap ClauseRef.encoded ++ rest)
  have items := repeated_append (fun entry member => clause_append (bounded entry member)) rest
  rw [predicateBytes, List.append_assoc, predicate, bind_ok count, kept,
    if_neg (Nat.not_lt.mpr few), bind_ok (spanning_append items)]
  rfl

end Cursor

/-- An operation that the cursor reads to the last byte is what the whole input means. -/
theorem parseOperation_of_read {input : Bytes} {parsed : OperationRef}
    (read : Cursor.operation input = .ok (parsed, [])) : parseOperation input = .ok parsed := by
  rw [parseOperation, read]

theorem parseOperation_subscribe {typeId : TypeId} {clauses : List ClauseRef}
    (few : clauses.length ≤ maxClauses)
    (bounded : ∀ clause ∈ clauses, clause.value.Bounded maxAttributeBytes) :
    parseOperation (subscriptionBytes opSubscribe typeId clauses) =
      .ok (.subscribe typeId (predicateRef clauses)) := by
  apply parseOperation_of_read
  have clausesRead := Cursor.predicate_append few bounded []
  rw [List.append_nil] at clausesRead
  rw [subscriptionBytes, Cursor.operation, Cursor.bind_ok (Cursor.u8_append _ _)]
  exact (Cursor.bind_ok (Cursor.u32_append _ _)).trans (Cursor.bind_ok clausesRead)

theorem parseOperation_subscribePermanent {typeId : TypeId} {clauses : List ClauseRef}
    (few : clauses.length ≤ maxClauses)
    (bounded : ∀ clause ∈ clauses, clause.value.Bounded maxAttributeBytes) :
    parseOperation (subscriptionBytes opSubscribePermanent typeId clauses) =
      .ok (.subscribePermanent typeId (predicateRef clauses)) := by
  apply parseOperation_of_read
  have clausesRead := Cursor.predicate_append few bounded []
  rw [List.append_nil] at clausesRead
  rw [subscriptionBytes, Cursor.operation, Cursor.bind_ok (Cursor.u8_append _ _)]
  exact (Cursor.bind_ok (Cursor.u32_append _ _)).trans (Cursor.bind_ok clausesRead)

theorem parseOperation_publish {typeId : TypeId} {clauses : List ClauseRef} {value : Bytes}
    (few : clauses.length ≤ maxClauses)
    (bounded : ∀ clause ∈ clauses, clause.value.Bounded maxAttributeBytes)
    (short : value.length ≤ maxValueBytes) :
    parseOperation (publishBytes typeId clauses value) =
      .ok (.publish typeId (predicateRef clauses) value) := by
  apply parseOperation_of_read
  have clausesRead := Cursor.predicate_append few bounded (beBytes 2 value.length ++ value)
  have valueRead := Cursor.bytesU16_append short (by decide) []
  rw [List.append_nil] at valueRead
  rw [publishBytes, Cursor.operation]
  refine (Cursor.bind_ok (Cursor.u8_append opPublish _)).trans ?_
  refine (Cursor.bind_ok (Cursor.u32_append _ _)).trans ?_
  exact (Cursor.bind_ok clausesRead).trans (Cursor.bind_ok valueRead)

theorem parseOperation_response {typeId : TypeId} {publisher : AgentId} {value : Bytes}
    (short : value.length ≤ maxValueBytes) :
    parseOperation (responseBytes typeId publisher value) =
      .ok (.publicationResponse typeId publisher value) := by
  apply parseOperation_of_read
  have nameRead := Cursor.array_append Error.malformed publisher.value
    (beBytes 2 value.length ++ value)
  have valueRead := Cursor.bytesU16_append short (by decide) []
  rw [List.append_nil] at valueRead
  rw [responseBytes, Cursor.operation]
  refine (Cursor.bind_ok (Cursor.u8_append opResponse _)).trans ?_
  refine (Cursor.bind_ok (Cursor.u32_append _ _)).trans ?_
  exact (Cursor.bind_ok nameRead).trans (Cursor.bind_ok valueRead)

end SecurePubSub.Protocol
