import SecurePubSub.Protocol.PayloadCodec

namespace SecurePubSub.Protocol

open SecurePubSub.Data SecurePubSub.Data.Fallible

/-! The operation format is a bijection.

An operation with its lists spelled out is what the encoders take; the parser
returns it as views into its input. Within the protocol limits the two
correspond, byte string by byte string.
-/

/-! ## Writing within the limits -/

namespace Writer

variable {α : Type}

/-- In a buffer with room for them, exactly these bytes are appended. -/
def Puts (write : Writer → Except Error Writer) (bytes : Bytes) : Prop :=
  ∀ writer : Writer, writer.output.length + bytes.length ≤ writer.capacity →
    write writer = .ok (writer.push bytes)

theorem Puts.append {first later : Writer → Except Error Writer} {front back : Bytes}
    (putsFront : Puts first front) (putsBack : Puts later back) :
    Puts (fun writer => first writer >>= later) (front ++ back) := by
  intro writer room
  rw [List.length_append] at room
  have roomBack : (writer.push front).output.length + back.length ≤ writer.capacity := by
    rw [push_output, List.length_append]
    omega
  have written := putsFront writer (by omega)
  have writtenBack := putsBack (writer.push front) roomBack
  simp only [written, ok_bind, writtenBack, push_push]

theorem puts_raw (bytes : Bytes) : Puts (fun writer => writer.raw bytes) bytes :=
  fun _ room => raw_fits room

theorem puts_count {count : Nat} (few : count < 256) :
    Puts (fun writer => writer.u8 (UInt8.ofNat count)) (beBytes 1 count) := by
  intro writer room
  change writer.u8 (UInt8.ofNat count) = _
  rw [u8, UInt8.toNat_ofNat_of_lt' few]
  exact raw_fits room

theorem puts_bytesU16 {content : Bytes} {maximum : Nat} (short : content.length ≤ maximum)
    (representable : maximum < 2 ^ 16) :
    Puts (fun writer => writer.bytesU16 content maximum) (beBytes 2 content.length ++ content) := by
  have small : content.length < 2 ^ 16 := Nat.lt_of_le_of_lt short representable
  have length := puts_raw (beBytes 2 (UInt16.ofNat content.length).toNat)
  rw [UInt16.toNat_ofNat_of_lt' small] at length
  intro writer room
  have puts := length.append (puts_raw content) writer room
  change writer.bytesU16 content maximum = _
  rw [bytesU16, rejectIf_pass _ (Nat.not_lt.mpr short), ok_bind,
    rejectIf_pass _ (Nat.not_le.mpr small), ok_bind, u16, UInt16.toNat_ofNat_of_lt' small]
  exact puts

theorem puts_value {held : ValueRef} (bounded : held.Bounded maxAttributeBytes) :
    Puts (fun writer => writer.value held maxAttributeBytes) held.encoded := by
  cases held with
  | bool flag =>
      have puts := (puts_raw (beBytes 1 1)).append (puts_raw (beBytes 1 (if flag then 1 else 0)))
      cases flag <;> exact puts
  | i64 word => exact (puts_raw (beBytes 1 2)).append (puts_raw (beBytes 8 word.toUInt64.toNat))
  | bytes content => exact (puts_raw (beBytes 1 3)).append (puts_bytesU16 bounded (by decide))

theorem puts_attributeEntry {entry : AttributeRef}
    (bounded : entry.value.Bounded maxAttributeBytes) :
    Puts (fun writer => writer.attributeEntry entry) entry.encoded :=
  (puts_raw (beBytes 2 entry.id.value.toNat)).append (puts_value bounded)

theorem puts_clause {entry : ClauseRef} (bounded : entry.value.Bounded maxAttributeBytes) :
    Puts (fun writer => writer.clause entry) entry.encoded :=
  (puts_raw (beBytes 2 entry.attributeId.value.toNat)).append
    ((puts_raw (beBytes 1 entry.operator.toU8.toNat)).append (puts_value bounded))

theorem puts_foldlM {write : Writer → α → Except Error Writer} {encode : α → Bytes}
    {items : List α} (each : ∀ item ∈ items, Puts (fun writer => write writer item) (encode item)) :
    Puts (fun writer => items.foldlM write writer) (items.flatMap encode) := by
  induction items with
  | nil =>
      intro writer _
      rw [List.flatMap_nil, push, List.append_nil]
      rfl
  | cons head tail ih =>
      have later := ih fun item member => each item (List.mem_cons_of_mem _ member)
      have puts := (each head List.mem_cons_self).append later
      intro writer room
      change (head :: tail).foldlM write writer = _
      rw [List.flatMap_cons] at room ⊢
      rw [List.foldlM_cons]
      exact puts writer room

theorem puts_predicate {clauses : List ClauseRef} (few : clauses.length ≤ maxClauses)
    (bounded : ∀ clause ∈ clauses, clause.value.Bounded maxAttributeBytes) :
    Puts (fun writer => writer.predicate clauses) (predicateBytes clauses) := by
  have count := puts_count (Nat.lt_of_le_of_lt few (by decide))
  have entries := puts_foldlM fun clause member => puts_clause (bounded clause member)
  intro writer room
  change writer.predicate clauses = _
  rw [predicate, rejectIf_pass _ (Nat.not_lt.mpr few), ok_bind]
  exact count.append entries writer room

theorem Puts.output {write : Writer → Except Error Writer} {bytes : Bytes} {capacity : Nat}
    (puts : Puts write bytes) (room : bytes.length ≤ capacity) :
    (write (Writer.new capacity) >>= fun writer => pure writer.output) = .ok bytes := by
  have space : (Writer.new capacity).output.length + bytes.length ≤ capacity := by
    rw [new, List.length_nil, Nat.zero_add]
    exact room
  have written := puts (Writer.new capacity) space
  rw [written]
  exact congrArg Except.ok (List.nil_append _)

end Writer

/-! ## Operations and their bytes -/

/-- An operation with its lists spelled out. -/
inductive Operation where
  | setEnvironment (attributes : List AttributeRef)
  | subscribe (typeId : TypeId) (clauses : List ClauseRef)
  | subscribePermanent (typeId : TypeId) (clauses : List ClauseRef)
  | publish (typeId : TypeId) (clauses : List ClauseRef) (value : Bytes)
  | publicationResponse (typeId : TypeId) (publisher : AgentId) (value : Bytes)

def BoundedClauses (clauses : List ClauseRef) : Prop :=
  clauses.length ≤ maxClauses ∧ ∀ clause ∈ clauses, clause.value.Bounded maxAttributeBytes

def BoundedAttributes (attributes : List AttributeRef) : Prop :=
  attributes.length ≤ maxAttributes ∧ (attributes.map AttributeRef.id).Nodup ∧
    ∀ entry ∈ attributes, entry.value.Bounded maxAttributeBytes

namespace Operation

/-- The protocol limits. -/
def Valid : Operation → Prop
  | setEnvironment attributes => BoundedAttributes attributes
  | subscribe _ clauses => BoundedClauses clauses
  | subscribePermanent _ clauses => BoundedClauses clauses
  | publish _ clauses value => BoundedClauses clauses ∧ value.length ≤ maxValueBytes
  | publicationResponse _ _ value => value.length ≤ maxValueBytes

/-- The encoder of each operation. -/
def encode (capacity : Nat) : Operation → Except Error Bytes
  | setEnvironment attributes => encodeEnvironment capacity attributes
  | subscribe typeId clauses => encodeSubscribe capacity typeId clauses
  | subscribePermanent typeId clauses => encodeSubscribePermanent capacity typeId clauses
  | publish typeId clauses value => encodePublish capacity typeId clauses value
  | publicationResponse typeId publisher value => encodeResponse capacity typeId publisher value

def bytes : Operation → Bytes
  | setEnvironment attributes => environmentBytes attributes
  | subscribe typeId clauses => subscriptionBytes opSubscribe typeId clauses
  | subscribePermanent typeId clauses => subscriptionBytes opSubscribePermanent typeId clauses
  | publish typeId clauses value => publishBytes typeId clauses value
  | publicationResponse typeId publisher value => responseBytes typeId publisher value

/-- The views that the parser returns. -/
def views : Operation → OperationRef
  | setEnvironment attributes => .setEnvironment (environmentRef attributes)
  | subscribe typeId clauses => .subscribe typeId (predicateRef clauses)
  | subscribePermanent typeId clauses => .subscribePermanent typeId (predicateRef clauses)
  | publish typeId clauses value => .publish typeId (predicateRef clauses) value
  | publicationResponse typeId publisher value => .publicationResponse typeId publisher value

end Operation

namespace PredicateRef

def clausesFrom : Nat → Bytes → List ClauseRef
  | 0, _ => []
  | count + 1, input =>
      match Cursor.clause input with
      | .error _ => []
      | .ok (clause, rest) => clause :: clausesFrom count rest

/-- The clauses in the order in which `evaluate` reads them. -/
def clauses (predicate : PredicateRef) : List ClauseRef :=
  clausesFrom predicate.count.toNat predicate.bytes

end PredicateRef

/-- What a reader sees of a parsed operation: the items its views give one after the other. -/
def OperationRef.content : OperationRef → Operation
  | .setEnvironment environment => .setEnvironment environment.iter
  | .subscribe typeId predicate => .subscribe typeId predicate.clauses
  | .subscribePermanent typeId predicate => .subscribePermanent typeId predicate.clauses
  | .publish typeId predicate value => .publish typeId predicate.clauses value
  | .publicationResponse typeId publisher value => .publicationResponse typeId publisher value

theorem clausesFrom_append {clauses : List ClauseRef}
    (bounded : ∀ clause ∈ clauses, clause.value.Bounded maxAttributeBytes) (rest : Bytes) :
    PredicateRef.clausesFrom clauses.length (clauses.flatMap ClauseRef.encoded ++ rest) =
      clauses := by
  induction clauses with
  | nil => rfl
  | cons clause later ih =>
      have read := Cursor.clause_append (bounded clause List.mem_cons_self)
        (later.flatMap ClauseRef.encoded ++ rest)
      have laterRead := ih fun other member => bounded other (List.mem_cons_of_mem _ member)
      rw [List.length_cons, List.flatMap_cons, List.append_assoc, PredicateRef.clausesFrom, read]
      simp only [laterRead]

theorem predicateRef_count {clauses : List ClauseRef} (few : clauses.length ≤ maxClauses) :
    (UInt8.ofNat clauses.length).toNat = clauses.length := by
  have small : clauses.length < 256 := Nat.lt_of_le_of_lt few (by decide)
  exact UInt8.toNat_ofNat_of_lt' small

theorem clauses_predicateRef {clauses : List ClauseRef} (bounded : BoundedClauses clauses) :
    (predicateRef clauses).clauses = clauses := by
  have read := clausesFrom_append bounded.2 []
  rw [List.append_nil] at read
  rw [PredicateRef.clauses, predicateRef, predicateRef_count bounded.1]
  exact read

theorem Operation.content_views {operation : Operation} (valid : operation.Valid) :
    operation.views.content = operation := by
  cases operation with
  | setEnvironment attributes =>
      exact congrArg Operation.setEnvironment (iter_environmentRef valid.1 valid.2.2)
  | subscribe typeId clauses =>
      exact congrArg (Operation.subscribe typeId) (clauses_predicateRef valid)
  | subscribePermanent typeId clauses =>
      exact congrArg (Operation.subscribePermanent typeId) (clauses_predicateRef valid)
  | publish typeId clauses value =>
      exact congrArg (Operation.publish typeId · value) (clauses_predicateRef valid.1)
  | publicationResponse typeId publisher value => rfl

theorem parseOperation_bytes {operation : Operation} (valid : operation.Valid) :
    parseOperation operation.bytes = .ok operation.views := by
  cases operation with
  | setEnvironment attributes => exact parseOperation_environment valid.1 valid.2.1 valid.2.2
  | subscribe typeId clauses => exact parseOperation_subscribe valid.1 valid.2
  | subscribePermanent typeId clauses => exact parseOperation_subscribePermanent valid.1 valid.2
  | publish typeId clauses value => exact parseOperation_publish valid.1.1 valid.1.2 valid.2
  | publicationResponse typeId publisher value => exact parseOperation_response valid

/-! ## Lengths -/

theorem ValueRef.encoded_length {held : ValueRef} (bounded : held.Bounded maxAttributeBytes) :
    held.encoded.length ≤ 67 := by
  cases held with
  | bool flag => simp [ValueRef.encoded]
  | i64 word => simp [ValueRef.encoded]
  | bytes content =>
      have short : content.length ≤ 64 := bounded
      simp only [ValueRef.encoded, List.length_append, beBytes_length]
      omega

theorem length_flatMap_le {α : Type} {encode : α → Bytes} {bound : Nat} {items : List α}
    (each : ∀ item ∈ items, (encode item).length ≤ bound) :
    (items.flatMap encode).length ≤ items.length * bound := by
  induction items with
  | nil => exact Nat.zero_le _
  | cons head tail ih =>
      have first := each head List.mem_cons_self
      have later := ih fun item member => each item (List.mem_cons_of_mem _ member)
      rw [List.flatMap_cons, List.length_append, List.length_cons, Nat.add_mul]
      omega

theorem environmentBytes_length {attributes : List AttributeRef}
    (bounded : BoundedAttributes attributes) :
    (environmentBytes attributes).length ≤ maxPlaintextLen := by
  have few : attributes.length ≤ 16 := bounded.1
  have entries := @length_flatMap_le _ AttributeRef.encoded 69 attributes fun entry member => by
    have held := ValueRef.encoded_length (bounded.2.2 entry member)
    rw [AttributeRef.encoded, List.length_append, beBytes_length]
    omega
  simp only [environmentBytes, List.length_append, beBytes_length, maxPlaintextLen]
  omega

theorem predicateBytes_length {clauses : List ClauseRef} (bounded : BoundedClauses clauses) :
    (predicateBytes clauses).length ≤ 561 := by
  have few : clauses.length ≤ 8 := bounded.1
  have entries := @length_flatMap_le _ ClauseRef.encoded 70 clauses fun clause member => by
    have held := ValueRef.encoded_length (bounded.2 clause member)
    simp only [ClauseRef.encoded, List.length_append, beBytes_length]
    omega
  simp only [predicateBytes, List.length_append, beBytes_length]
  omega

theorem subscriptionBytes_length {tag : UInt8} {typeId : TypeId} {clauses : List ClauseRef}
    (bounded : BoundedClauses clauses) :
    (subscriptionBytes tag typeId clauses).length ≤ maxPlaintextLen := by
  have audience := predicateBytes_length bounded
  simp only [subscriptionBytes, List.length_append, beBytes_length, maxPlaintextLen]
  omega

theorem Operation.bytes_length {operation : Operation} (valid : operation.Valid) :
    operation.bytes.length ≤ maxPlaintextLen := by
  cases operation with
  | setEnvironment attributes => exact environmentBytes_length valid
  | subscribe typeId clauses => exact subscriptionBytes_length valid
  | subscribePermanent typeId clauses => exact subscriptionBytes_length valid
  | publish typeId clauses value =>
      have audience := predicateBytes_length valid.1
      have short : value.length ≤ 3072 := valid.2
      simp only [Operation.bytes, publishBytes, List.length_append, beBytes_length,
        maxPlaintextLen]
      omega
  | publicationResponse typeId publisher value =>
      have short : value.length ≤ 3072 := valid
      simp only [Operation.bytes, responseBytes, List.length_append, beBytes_length,
        FixedBytes.length_bytes, maxPlaintextLen]
      omega

/-! ## The encoders within the limits -/

theorem encodeEnvironment_ok {capacity : Nat} {attributes : List AttributeRef}
    (bounded : BoundedAttributes attributes)
    (room : (environmentBytes attributes).length ≤ capacity) :
    encodeEnvironment capacity attributes = .ok (environmentBytes attributes) := by
  have count := Writer.puts_count (Nat.lt_of_le_of_lt bounded.1 (by decide))
  have entries := Writer.puts_foldlM fun entry member =>
    Writer.puts_attributeEntry (bounded.2.2 entry member)
  have puts := (Writer.puts_raw (beBytes 1 1)).append (count.append entries)
  rw [encodeEnvironment, rejectIf_pass _ (Nat.not_lt.mpr bounded.1), ok_bind,
    ensureUniqueAttributes, if_pos bounded.2.1, ok_bind]
  have written := puts.output room
  simp only [bind_assoc] at written
  exact written

theorem encodeSubscription_ok {capacity : Nat} (tag : UInt8) {typeId : TypeId}
    {clauses : List ClauseRef} (bounded : BoundedClauses clauses)
    (room : (subscriptionBytes tag typeId clauses).length ≤ capacity) :
    (do
      let writer ← (Writer.new capacity).u8 tag
      let writer ← writer.u32 typeId.value
      let writer ← writer.predicate clauses
      pure writer.output : Except Error Bytes) = .ok (subscriptionBytes tag typeId clauses) := by
  have audience := Writer.puts_predicate bounded.1 bounded.2
  have puts := (Writer.puts_raw (beBytes 1 tag.toNat)).append
    ((Writer.puts_raw (beBytes 4 typeId.value.toNat)).append audience)
  have written := puts.output room
  simp only [bind_assoc] at written
  exact written

theorem encodePublish_ok {capacity : Nat} {typeId : TypeId} {clauses : List ClauseRef}
    {value : Bytes} (bounded : BoundedClauses clauses) (short : value.length ≤ maxValueBytes)
    (room : (publishBytes typeId clauses value).length ≤ capacity) :
    encodePublish capacity typeId clauses value = .ok (publishBytes typeId clauses value) := by
  have audience := Writer.puts_predicate bounded.1 bounded.2
  have content := Writer.puts_bytesU16 short (by decide)
  have puts := (Writer.puts_raw (beBytes 1 3)).append
    ((Writer.puts_raw (beBytes 4 typeId.value.toNat)).append (audience.append content))
  rw [encodePublish, rejectIf_pass _ (Nat.not_lt.mpr short), ok_bind]
  have written := puts.output room
  simp only [bind_assoc] at written
  exact written

theorem encodeResponse_ok {capacity : Nat} {typeId : TypeId} {publisher : AgentId} {value : Bytes}
    (short : value.length ≤ maxValueBytes)
    (room : (responseBytes typeId publisher value).length ≤ capacity) :
    encodeResponse capacity typeId publisher value =
      .ok (responseBytes typeId publisher value) := by
  have content := Writer.puts_bytesU16 short (by decide)
  have puts := (Writer.puts_raw (beBytes 1 4)).append
    ((Writer.puts_raw (beBytes 4 typeId.value.toNat)).append
      ((Writer.puts_raw publisher.value.bytes).append content))
  rw [encodeResponse, rejectIf_pass _ (Nat.not_lt.mpr short), ok_bind]
  have written := puts.output room
  simp only [bind_assoc] at written
  exact written

/-- Every buffer that has room for the bytes of a valid operation will do. -/
theorem Operation.encode_of_room {operation : Operation} {capacity : Nat}
    (valid : operation.Valid) (room : operation.bytes.length ≤ capacity) :
    operation.encode capacity = .ok operation.bytes := by
  cases operation with
  | setEnvironment attributes => exact encodeEnvironment_ok valid room
  | subscribe typeId clauses => exact encodeSubscription_ok opSubscribe valid room
  | subscribePermanent typeId clauses => exact encodeSubscription_ok opSubscribePermanent valid room
  | publish typeId clauses value => exact encodePublish_ok valid.1 valid.2 room
  | publicationResponse typeId publisher value => exact encodeResponse_ok valid room

theorem Operation.encode_eq_bytes {operation : Operation} {capacity : Nat}
    (valid : operation.Valid) (room : maxPlaintextLen ≤ capacity) :
    operation.encode capacity = .ok operation.bytes := by
  apply Operation.encode_of_room valid
  exact Nat.le_trans (operation.bytes_length valid) room

/-! ## What is accepted -/

theorem Cursor.subscription_canonical {tag : UInt8} {input middle rest : Bytes}
    {found : OperationRef} {build : TypeId → PredicateRef → OperationRef}
    (split : input = beBytes 1 tag.toNat ++ middle)
    (read : (Cursor.u32 >>= fun typeId => Cursor.predicate >>= fun entries =>
      (pure (build ⟨typeId⟩ entries) : Cursor.Payload OperationRef)) middle = .ok (found, rest)) :
    ∃ typeId clauses, BoundedClauses clauses ∧ found = build typeId (predicateRef clauses) ∧
      input = subscriptionBytes tag typeId clauses ++ rest := by
  obtain ⟨typeId, last, typeRead, read⟩ := Cursor.bind_eq_ok read
  obtain ⟨entries, final, entriesRead, result⟩ := Cursor.bind_eq_ok read
  have splitType := (Cursor.u32_codec.canonical typeRead).2
  obtain ⟨clauses, few, bounded, same, splitEntries⟩ := Cursor.predicate_canonical entriesRead
  cases result
  refine ⟨⟨typeId⟩, clauses, ⟨few, bounded⟩, by rw [same], ?_⟩
  rw [split, splitType, splitEntries, subscriptionBytes, List.append_assoc, List.append_assoc]

/-- What the cursor reads is the encoding of a valid operation, and it returns the views of it. -/
theorem Cursor.operation_canonical {input rest : Bytes} {found : OperationRef}
    (read : Cursor.operation input = .ok (found, rest)) :
    ∃ operation : Operation, operation.Valid ∧ found = operation.views ∧
      input = operation.bytes ++ rest := by
  obtain ⟨tag, middle, tagRead, read⟩ := Cursor.bind_eq_ok read
  have split := (Cursor.u8_codec.canonical tagRead).2
  by_cases environment : tag = opEnvironment
  · rw [if_pos environment] at read
    obtain ⟨held, last, heldRead, result⟩ := Cursor.bind_eq_ok read
    obtain ⟨attributes, few, distinct, bounded, same, splitHeld⟩ :=
      Cursor.environment_canonical heldRead
    cases result
    refine ⟨.setEnvironment attributes, ⟨few, distinct, bounded⟩, by rw [same]; rfl, ?_⟩
    rw [split, splitHeld, environment, Operation.bytes, environmentBytes, ← List.append_assoc]
    rfl
  rw [if_neg environment] at read
  by_cases oneShot : tag = opSubscribe
  · rw [if_pos oneShot] at read
    obtain ⟨typeId, clauses, valid, same, whole⟩ := Cursor.subscription_canonical split read
    rw [oneShot] at whole
    exact ⟨.subscribe typeId clauses, valid, same, whole⟩
  rw [if_neg oneShot] at read
  by_cases permanent : tag = opSubscribePermanent
  · rw [if_pos permanent] at read
    obtain ⟨typeId, clauses, valid, same, whole⟩ := Cursor.subscription_canonical split read
    rw [permanent] at whole
    exact ⟨.subscribePermanent typeId clauses, valid, same, whole⟩
  rw [if_neg permanent] at read
  by_cases publish : tag = opPublish
  · rw [if_pos publish] at read
    obtain ⟨typeId, last, typeRead, read⟩ := Cursor.bind_eq_ok read
    obtain ⟨entries, later, entriesRead, read⟩ := Cursor.bind_eq_ok read
    obtain ⟨content, final, contentRead, result⟩ := Cursor.bind_eq_ok read
    have splitType := (Cursor.u32_codec.canonical typeRead).2
    obtain ⟨clauses, few, bounded, same, splitEntries⟩ := Cursor.predicate_canonical entriesRead
    obtain ⟨short, splitContent⟩ := (Cursor.bytesU16_codec (by decide)).canonical contentRead
    cases result
    refine ⟨.publish ⟨typeId⟩ clauses content, ⟨⟨few, bounded⟩, short⟩, by rw [same]; rfl, ?_⟩
    rw [split, splitType, splitEntries, splitContent, publish, Operation.bytes, publishBytes]
    simp only [List.append_assoc]
    rfl
  rw [if_neg publish] at read
  by_cases response : tag = opResponse
  · rw [if_pos response] at read
    obtain ⟨typeId, last, typeRead, read⟩ := Cursor.bind_eq_ok read
    obtain ⟨publisher, later, publisherRead, read⟩ := Cursor.bind_eq_ok read
    obtain ⟨content, final, contentRead, result⟩ := Cursor.bind_eq_ok read
    have splitType := (Cursor.u32_codec.canonical typeRead).2
    have splitPublisher := Cursor.array_eq_ok publisherRead
    obtain ⟨short, splitContent⟩ := (Cursor.bytesU16_codec (by decide)).canonical contentRead
    cases result
    refine ⟨.publicationResponse ⟨typeId⟩ ⟨publisher⟩ content, short, rfl, ?_⟩
    rw [split, splitType, splitPublisher, splitContent, response, Operation.bytes, responseBytes]
    simp only [List.append_assoc]
    rfl
  rw [if_neg response] at read
  cases read

namespace Cursor

open SecurePubSub.Data.Cursor

theorem local_environment : Local environment := by
  apply local_bind u8_codec.isLocal
  intro count
  apply local_ite (local_fail _)
  exact local_bind (distinctAttributes_codec [] List.nodup_nil _).spanning.isLocal
    fun _ => local_pure _

theorem local_predicate : Local predicate := by
  apply local_bind u8_codec.isLocal
  intro count
  apply local_ite (local_fail _)
  exact local_bind (clause_codec.repeated _).spanning.isLocal fun _ => local_pure _

theorem local_subscription (build : TypeId → PredicateRef → OperationRef) :
    Local (u32 >>= fun typeId => predicate >>= fun entries =>
      (pure (build ⟨typeId⟩ entries) : Payload OperationRef)) :=
  local_bind u32_codec.isLocal fun _ => local_bind local_predicate fun _ => local_pure _

theorem local_content : Local (bytesU16 maxValueBytes) := (bytesU16_codec (by decide)).isLocal

theorem local_operation : Local operation := by
  apply local_bind u8_codec.isLocal
  intro tag
  apply local_ite (local_bind local_environment fun _ => local_pure _)
  apply local_ite (local_subscription .subscribe)
  apply local_ite (local_subscription .subscribePermanent)
  apply local_ite
  · exact local_bind u32_codec.isLocal fun _ => local_bind local_predicate fun _ =>
      local_bind local_content fun _ => local_pure _
  apply local_ite
  · exact local_bind u32_codec.isLocal fun _ => local_bind (local_array _ 16) fun _ =>
      local_bind local_content fun _ => local_pure _
  · exact local_fail _

end Cursor

/-- Anything but the whole of an accepted input read is an error. -/
theorem parseOperation_error {input : Bytes}
    (rejected : ∀ found, Cursor.operation input ≠ .ok (found, [])) :
    ∃ error, parseOperation input = .error error := by
  cases parsed : parseOperation input with
  | error error => exact ⟨error, rfl⟩
  | ok found => exact absurd (parseOperation_read parsed) (rejected found)

theorem parseOperation_cut {input : Bytes} {found : OperationRef}
    (parsed : parseOperation input = .ok found) :
    (∀ front, front <+: input → front ≠ input → ∃ error, parseOperation front = .error error) ∧
      ∀ extra, extra ≠ [] → ∃ error, parseOperation (input ++ extra) = .error error := by
  have whole := parseOperation_read parsed
  constructor
  · intro front cut shorter
    exact parseOperation_error fun _ => Cursor.local_operation.no_prefix whole cut shorter
  · intro extra longer
    exact parseOperation_error fun _ => Cursor.local_operation.no_extension whole longer

theorem parseOperation_canonical {input : Bytes} {found : OperationRef}
    (parsed : parseOperation input = .ok found) :
    found.content.Valid ∧ found.content.bytes = input ∧ found.content.views = found := by
  obtain ⟨operation, valid, same, split⟩ := Cursor.operation_canonical (parseOperation_read parsed)
  rw [List.append_nil] at split
  rw [same, operation.content_views valid]
  exact ⟨valid, split.symm, rfl⟩

theorem parseOperation_length {input : Bytes} {found : OperationRef}
    (parsed : parseOperation input = .ok found) : input.length ≤ maxPlaintextLen := by
  obtain ⟨valid, bytes, _⟩ := parseOperation_canonical parsed
  rw [← bytes]
  exact found.content.bytes_length valid

/-- A value that was parsed is short enough to be delivered. -/
theorem parseOperation_publish_short {input value : Bytes} {typeId : TypeId}
    {predicate : PredicateRef}
    (parsed : parseOperation input = .ok (.publish typeId predicate value)) :
    value.length ≤ maxValueBytes := by
  have valid : (Operation.publish typeId predicate.clauses value).Valid :=
    (parseOperation_canonical parsed).1
  exact valid.2

/-- Valid operations and accepted byte strings are two views of one set. -/
theorem operation_format_bijective :
    (∀ operation : Operation, operation.Valid → ∀ capacity, maxPlaintextLen ≤ capacity →
      ∃ bytes found, operation.encode capacity = .ok bytes ∧ bytes.length ≤ maxPlaintextLen ∧
        parseOperation bytes = .ok found ∧ found.content = operation) ∧
    (∀ input found, parseOperation input = .ok found →
      found.content.Valid ∧
      (∀ capacity, maxPlaintextLen ≤ capacity → found.content.encode capacity = .ok input) ∧
      (∀ other otherFound, parseOperation other = .ok otherFound →
        otherFound.content = found.content → other = input) ∧
      (∀ front, front <+: input → front ≠ input → ∃ error, parseOperation front = .error error) ∧
      ∀ extra, extra ≠ [] → ∃ error, parseOperation (input ++ extra) = .error error) := by
  constructor
  · intro operation valid capacity room
    exact ⟨operation.bytes, operation.views, operation.encode_eq_bytes valid room,
      operation.bytes_length valid, parseOperation_bytes valid, operation.content_views valid⟩
  · intro input found parsed
    obtain ⟨valid, bytes, _⟩ := parseOperation_canonical parsed
    refine ⟨valid, ?_, ?_, parseOperation_cut parsed⟩
    · intro capacity room
      rw [found.content.encode_eq_bytes valid room, bytes]
    · intro other otherFound otherParsed same
      obtain ⟨_, otherBytes, _⟩ := parseOperation_canonical otherParsed
      rw [← otherBytes, same, bytes]

end SecurePubSub.Protocol
