import SecurePubSub.Data.Cursor
import SecurePubSub.Data.Fallible
import SecurePubSub.Protocol.Types

namespace SecurePubSub.Protocol

open SecurePubSub.Data SecurePubSub.Data.Fallible

/-! The bounded application payload codec and the predicate evaluator.

An encoder writes into the front of a buffer, so the buffer is its capacity and
the bytes written so far. A parsed environment or predicate keeps the raw slice
it was read from, as the borrowed views of the source do, and is read again
whenever it is used.
-/

def opEnvironment : UInt8 := 1

def opSubscribePermanent : UInt8 := 2

def opPublish : UInt8 := 3

def opResponse : UInt8 := 4

def opSubscribe : UInt8 := 5

inductive ValueRef where
  | bool (value : Bool)
  | i64 (value : Int64)
  | bytes (value : Bytes)
deriving DecidableEq

structure AttributeRef where
  id : AttributeId
  value : ValueRef
deriving DecidableEq

/-- One clause in a conjunction. -/
structure ClauseRef where
  attributeId : AttributeId
  operator : Operator
  value : ValueRef
deriving DecidableEq

/-- Validated environment: its raw attributes and their count. -/
structure EnvironmentRef where
  bytes : Bytes
  count : UInt8
deriving DecidableEq

/-- Validated conjunction: its raw clauses and their count. -/
structure PredicateRef where
  bytes : Bytes
  count : UInt8
deriving DecidableEq

/-- Fully validated application operation. -/
inductive OperationRef where
  | setEnvironment (environment : EnvironmentRef)
  | subscribe (typeId : TypeId) (predicate : PredicateRef)
  | subscribePermanent (typeId : TypeId) (predicate : PredicateRef)
  | publish (typeId : TypeId) (predicate : PredicateRef) (value : Bytes)
  | publicationResponse (typeId : TypeId) (publisher : AgentId) (value : Bytes)
deriving DecidableEq

/-! ## Reading -/

namespace Cursor

open SecurePubSub.Data.Cursor

abbrev Payload (α : Type) := Cursor Error α

def u8 : Payload UInt8 := do
  let value ← number Error.malformed 1
  pure (UInt8.ofNat value)

def u16 : Payload UInt16 := do
  let value ← number Error.malformed 2
  pure (UInt16.ofNat value)

def u32 : Payload UInt32 := do
  let value ← number Error.malformed 4
  pure (UInt32.ofNat value)

def bytesU16 (maximum : Nat) : Payload Bytes := do
  let length ← u16
  if length.toNat > maximum then fail .oversized else take .malformed length.toNat

def value (maximumBytes : Nat) : Payload ValueRef := do
  let tag ← u8
  match tag with
  | 1 => do
      let flag ← u8
      match flag with
      | 0 => pure (.bool false)
      | 1 => pure (.bool true)
      | _ => fail .malformed
  | 2 => do
      let word ← number Error.malformed 8
      pure (.i64 (Int64.ofNat word))
  | 3 => do
      let content ← bytesU16 maximumBytes
      pure (.bytes content)
  | _ => fail .malformed

def attributeEntry : Payload AttributeRef := do
  let id ← u16
  let held ← value maxAttributeBytes
  pure ⟨⟨id⟩, held⟩

def clause : Payload ClauseRef := do
  let id ← u16
  let code ← u8
  match Operator.fromU8 code with
  | none => fail .malformed
  | some operator => do
      let held ← value maxAttributeBytes
      pure ⟨⟨id⟩, operator, held⟩

/-- The attribute loop of `parse_operation`; `ids` are those already read. -/
def distinctAttributes (ids : List AttributeId) : Nat → Payload (List AttributeRef)
  | 0 => pure []
  | count + 1 => do
      let id ← u16
      if (⟨id⟩ : AttributeId) ∈ ids then fail .malformed
      else do
        let held ← value maxAttributeBytes
        let later ← distinctAttributes (ids ++ [⟨id⟩]) count
        pure (⟨⟨id⟩, held⟩ :: later)

def environment : Payload EnvironmentRef := do
  let count ← u8
  if count.toNat > maxAttributes then fail .oversized
  else do
    let read ← spanning (distinctAttributes [] count.toNat)
    pure ⟨read.2, count⟩

def predicate : Payload PredicateRef := do
  let count ← u8
  if count.toNat > maxClauses then fail .oversized
  else do
    let read ← spanning (repeated clause count.toNat)
    pure ⟨read.2, count⟩

def operation : Payload OperationRef := do
  let tag ← u8
  if tag = opEnvironment then do
    let read ← environment
    pure (.setEnvironment read)
  else if tag = opSubscribe then do
    let typeId ← u32
    let read ← predicate
    pure (.subscribe ⟨typeId⟩ read)
  else if tag = opSubscribePermanent then do
    let typeId ← u32
    let read ← predicate
    pure (.subscribePermanent ⟨typeId⟩ read)
  else if tag = opPublish then do
    let typeId ← u32
    let read ← predicate
    let content ← bytesU16 maxValueBytes
    pure (.publish ⟨typeId⟩ read content)
  else if tag = opResponse then do
    let typeId ← u32
    let publisher ← array Error.malformed 16
    let content ← bytesU16 maxValueBytes
    pure (.publicationResponse ⟨typeId⟩ ⟨publisher⟩ content)
  else fail .malformed

end Cursor

def parseOperation (input : Bytes) : Except Error OperationRef :=
  match Cursor.operation input with
  | .ok (parsed, []) => .ok parsed
  | .ok (_, _ :: _) => .error .malformed
  | .error error => .error error

theorem parseOperation_read {input : Bytes} {operation : OperationRef}
    (parsed : parseOperation input = .ok operation) :
    Cursor.operation input = .ok (operation, []) := by
  rw [parseOperation] at parsed
  split at parsed
  · rename_i whole read
    cases parsed
    exact read
  · cases parsed
  · cases parsed

namespace EnvironmentRef

def getFrom (wanted : AttributeId) : Nat → Bytes → Option ValueRef
  | 0, _ => none
  | count + 1, input =>
      match Cursor.attributeEntry input with
      | .error _ => none
      | .ok (entry, rest) => if entry.id = wanted then some entry.value else getFrom wanted count rest

def get (environment : EnvironmentRef) (wanted : AttributeId) : Option ValueRef :=
  getFrom wanted environment.count.toNat environment.bytes

def iterFrom : Nat → Bytes → List AttributeRef
  | 0, _ => []
  | count + 1, input =>
      match Cursor.attributeEntry input with
      | .error _ => []
      | .ok (entry, rest) => entry :: iterFrom count rest

def iter (environment : EnvironmentRef) : List AttributeRef :=
  iterFrom environment.count.toNat environment.bytes

end EnvironmentRef

/-- A comparison is false when the two values differ in type. -/
def compareValues (lhs : ValueRef) (operator : Operator) (rhs : ValueRef) : Bool :=
  let ordering : Option Ordering :=
    match lhs, rhs with
    | .bool left, .bool right => some (compare left right)
    | .i64 left, .i64 right => some (compare left right)
    | .bytes left, .bytes right => some (compare left right)
    | _, _ => none
  match ordering with
  | none => false
  | some ordering =>
      match operator with
      | .eq => ordering == .eq
      | .ne => ordering != .eq
      | .lt => ordering == .lt
      | .le => ordering == .lt || ordering == .eq
      | .gt => ordering == .gt
      | .ge => ordering == .gt || ordering == .eq

namespace PredicateRef

def evaluateFrom (environment : EnvironmentRef) : Nat → Bytes → Bool
  | 0, _ => true
  | count + 1, input =>
      match Cursor.clause input with
      | .error _ => false
      | .ok (clause, rest) =>
          match environment.get clause.attributeId with
          | none => false
          | some lhs =>
              if compareValues lhs clause.operator clause.value then
                evaluateFrom environment count rest
              else false

def evaluate (predicate : PredicateRef) (environment : EnvironmentRef) : Bool :=
  evaluateFrom environment predicate.count.toNat predicate.bytes

end PredicateRef

/-! ## Writing -/

/-- The front of an output buffer: how much fits and what has been written. -/
structure Writer where
  capacity : Nat
  output : Bytes

namespace Writer

def new (capacity : Nat) : Writer := ⟨capacity, []⟩

def raw (writer : Writer) (value : Bytes) : Except Error Writer :=
  if writer.output.length + value.length ≤ writer.capacity then
    .ok { writer with output := writer.output ++ value }
  else .error .oversized

def u8 (writer : Writer) (value : UInt8) : Except Error Writer :=
  writer.raw (beBytes 1 value.toNat)

def u16 (writer : Writer) (value : UInt16) : Except Error Writer :=
  writer.raw (beBytes 2 value.toNat)

def u32 (writer : Writer) (value : UInt32) : Except Error Writer :=
  writer.raw (beBytes 4 value.toNat)

def bytesU16 (writer : Writer) (value : Bytes) (maximum : Nat) : Except Error Writer := do
  rejectIf (value.length > maximum) .oversized
  rejectIf (2 ^ 16 ≤ value.length) .oversized
  let writer ← writer.u16 (UInt16.ofNat value.length)
  writer.raw value

def value (writer : Writer) (held : ValueRef) (maximumBytes : Nat) : Except Error Writer :=
  match held with
  | .bool flag => do
      let writer ← writer.u8 1
      writer.u8 (if flag then 1 else 0)
  | .i64 word => do
      let writer ← writer.u8 2
      writer.raw (beBytes 8 word.toUInt64.toNat)
  | .bytes content => do
      let writer ← writer.u8 3
      writer.bytesU16 content maximumBytes

def attributeEntry (writer : Writer) (entry : AttributeRef) : Except Error Writer := do
  let writer ← writer.u16 entry.id.value
  writer.value entry.value maxAttributeBytes

def clause (writer : Writer) (entry : ClauseRef) : Except Error Writer := do
  let writer ← writer.u16 entry.attributeId.value
  let writer ← writer.u8 entry.operator.toU8
  writer.value entry.value maxAttributeBytes

def predicate (writer : Writer) (clauses : List ClauseRef) : Except Error Writer := do
  rejectIf (clauses.length > maxClauses) .oversized
  let writer ← writer.u8 (UInt8.ofNat clauses.length)
  clauses.foldlM clause writer

end Writer

/-- No attribute repeats an id of an earlier one. -/
def ensureUniqueAttributes (attributes : List AttributeRef) : Except Error Unit :=
  if (attributes.map AttributeRef.id).Nodup then .ok () else .error .malformed

/-- The bytes an encoder leaves at the front of a buffer of `capacity` bytes. -/
def encodeEnvironment (capacity : Nat) (attributes : List AttributeRef) : Except Error Bytes := do
  rejectIf (attributes.length > maxAttributes) .oversized
  ensureUniqueAttributes attributes
  let writer ← (Writer.new capacity).u8 opEnvironment
  let writer ← writer.u8 (UInt8.ofNat attributes.length)
  let writer ← attributes.foldlM Writer.attributeEntry writer
  pure writer.output

def encodeSubscribe (capacity : Nat) (typeId : TypeId) (clauses : List ClauseRef) :
    Except Error Bytes := do
  let writer ← (Writer.new capacity).u8 opSubscribe
  let writer ← writer.u32 typeId.value
  let writer ← writer.predicate clauses
  pure writer.output

def encodeSubscribePermanent (capacity : Nat) (typeId : TypeId) (clauses : List ClauseRef) :
    Except Error Bytes := do
  let writer ← (Writer.new capacity).u8 opSubscribePermanent
  let writer ← writer.u32 typeId.value
  let writer ← writer.predicate clauses
  pure writer.output

def encodePublish (capacity : Nat) (typeId : TypeId) (clauses : List ClauseRef) (value : Bytes) :
    Except Error Bytes := do
  rejectIf (value.length > maxValueBytes) .oversized
  let writer ← (Writer.new capacity).u8 opPublish
  let writer ← writer.u32 typeId.value
  let writer ← writer.predicate clauses
  let writer ← writer.bytesU16 value maxValueBytes
  pure writer.output

def encodeResponse (capacity : Nat) (typeId : TypeId) (publisher : AgentId) (value : Bytes) :
    Except Error Bytes := do
  rejectIf (value.length > maxValueBytes) .oversized
  let writer ← (Writer.new capacity).u8 opResponse
  let writer ← writer.u32 typeId.value
  let writer ← writer.raw publisher.value.bytes
  let writer ← writer.bytesU16 value maxValueBytes
  pure writer.output

end SecurePubSub.Protocol
