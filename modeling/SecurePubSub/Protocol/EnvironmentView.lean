import SecurePubSub.Protocol.PayloadRoundTrip
import Mathlib.Data.List.Perm.Subperm
import Mathlib.Data.List.Nodup

namespace SecurePubSub.Protocol

open SecurePubSub.Data SecurePubSub.Data.Fallible

/-! Lookup in a validated environment and its agreement with the iterator.

The encoder and the parser agree on environments as they do on the other
operations: what was written as a list of attributes is looked up as that list.
-/

namespace EnvironmentRef

theorem getFrom_eq_find (wanted : AttributeId) (count : Nat) (input : Bytes) :
    getFrom wanted count input =
      ((iterFrom count input).find? (fun entry => entry.id = wanted)).map AttributeRef.value := by
  induction count generalizing input with
  | zero => rfl
  | succ count ih =>
      simp only [getFrom, iterFrom]
      split
      · rfl
      · rename_i entry rest read
        by_cases hit : entry.id = wanted
        · simp [hit]
        · simp [hit, ih]

theorem get_eq_find (environment : EnvironmentRef) (wanted : AttributeId) :
    environment.get wanted =
      (environment.iter.find? (fun entry => entry.id = wanted)).map AttributeRef.value :=
  getFrom_eq_find wanted environment.count.toNat environment.bytes

theorem mem_iter_of_get {environment : EnvironmentRef} {wanted : AttributeId} {held : ValueRef}
    (found : environment.get wanted = some held) : ⟨wanted, held⟩ ∈ environment.iter := by
  rw [get_eq_find, Option.map_eq_some_iff] at found
  obtain ⟨entry, first, value⟩ := found
  have member := List.mem_of_find?_eq_some first
  have same : entry.id = wanted := by simpa using List.find?_some first
  subst same value
  exact member

theorem length_iterFrom_le (count : Nat) (input : Bytes) :
    (iterFrom count input).length ≤ count := by
  induction count generalizing input with
  | zero => exact Nat.le_refl _
  | succ count ih =>
      simp only [iterFrom]
      split
      · exact Nat.zero_le _
      · rename_i entry rest read
        exact Nat.succ_le_succ (ih rest)

/-- What some accepted operation carries; no other value of this type can be built. -/
def Parsed (environment : EnvironmentRef) : Prop :=
  ∃ input, parseOperation input = .ok (.setEnvironment environment)

end EnvironmentRef

theorem Cursor.environment_count {input rest : Bytes} {environment : EnvironmentRef}
    (read : Cursor.environment input = .ok (environment, rest)) :
    environment.count.toNat ≤ maxAttributes := by
  obtain ⟨count, middle, _, read⟩ := Cursor.bind_eq_ok read
  split at read
  · cases read
  · rename_i within
    obtain ⟨pair, last, _, read⟩ := Cursor.bind_eq_ok read
    cases read
    exact Nat.not_lt.mp within

theorem Cursor.operation_setEnvironment {input rest : Bytes} {environment : EnvironmentRef}
    (read : Cursor.operation input = .ok (.setEnvironment environment, rest)) :
    ∃ middle last, Cursor.environment middle = .ok (environment, last) := by
  obtain ⟨tag, middle, _, read⟩ := Cursor.bind_eq_ok read
  split at read
  · obtain ⟨found, last, entries, read⟩ := Cursor.bind_eq_ok read
    cases read
    exact ⟨middle, _, entries⟩
  · split at read
    · obtain ⟨_, _, _, read⟩ := Cursor.bind_eq_ok read
      obtain ⟨_, _, _, read⟩ := Cursor.bind_eq_ok read
      cases read
    · split at read
      · obtain ⟨_, _, _, read⟩ := Cursor.bind_eq_ok read
        obtain ⟨_, _, _, read⟩ := Cursor.bind_eq_ok read
        cases read
      · split at read
        · obtain ⟨_, _, _, read⟩ := Cursor.bind_eq_ok read
          obtain ⟨_, _, _, read⟩ := Cursor.bind_eq_ok read
          obtain ⟨_, _, _, read⟩ := Cursor.bind_eq_ok read
          cases read
        · split at read
          · obtain ⟨_, _, _, read⟩ := Cursor.bind_eq_ok read
            obtain ⟨_, _, _, read⟩ := Cursor.bind_eq_ok read
            obtain ⟨_, _, _, read⟩ := Cursor.bind_eq_ok read
            cases read
          · cases read

theorem EnvironmentRef.Parsed.count_le {environment : EnvironmentRef}
    (parsed : environment.Parsed) : environment.count.toNat ≤ maxAttributes := by
  obtain ⟨input, parsed⟩ := parsed
  rw [parseOperation] at parsed
  split at parsed
  · rename_i operation whole
    cases parsed
    obtain ⟨middle, last, entries⟩ := Cursor.operation_setEnvironment whole
    exact Cursor.environment_count entries
  · cases parsed
  · cases parsed

/-- The ids that an environment holds are few. -/
theorem EnvironmentRef.Parsed.length_le {environment : EnvironmentRef}
    (parsed : environment.Parsed) {ids : List AttributeId} (distinct : ids.Nodup)
    (held : ∀ id ∈ ids, (environment.get id).isSome) : ids.length ≤ maxAttributes := by
  have inside : ids ⊆ environment.iter.map AttributeRef.id := by
    intro id member
    obtain ⟨value, found⟩ := Option.isSome_iff_exists.mp (held id member)
    exact List.mem_map.mpr ⟨_, EnvironmentRef.mem_iter_of_get found, rfl⟩
  calc ids.length
      ≤ (environment.iter.map AttributeRef.id).length := (List.subperm_of_subset distinct inside).length_le
    _ = environment.iter.length := List.length_map _
    _ ≤ environment.count.toNat := EnvironmentRef.length_iterFrom_le _ _
    _ ≤ maxAttributes := parsed.count_le

/-! ## What the parser reads back -/

/-- The environment that the parser returns for a list of attributes. -/
def environmentRef (attributes : List AttributeRef) : EnvironmentRef :=
  ⟨attributes.flatMap AttributeRef.encoded, UInt8.ofNat attributes.length⟩

theorem environmentRef_count {attributes : List AttributeRef}
    (few : attributes.length ≤ maxAttributes) :
    (UInt8.ofNat attributes.length).toNat = attributes.length := by
  have small : attributes.length ≤ 16 := few
  simp only [UInt8.toNat_ofNat', Nat.reducePow]
  omega

namespace Cursor

open SecurePubSub.Data.Cursor

theorem distinctAttributes_append {attributes : List AttributeRef} {ids : List AttributeId}
    (distinct : (ids ++ attributes.map AttributeRef.id).Nodup)
    (bounded : ∀ entry ∈ attributes, entry.value.Bounded maxAttributeBytes) (rest : Bytes) :
    distinctAttributes ids attributes.length (attributes.flatMap AttributeRef.encoded ++ rest) =
      .ok (attributes, rest) := by
  induction attributes generalizing ids with
  | nil => rfl
  | cons entry later ih =>
      have fresh : entry.id ∉ ids := by
        intro member
        have apart := (List.nodup_append.mp distinct).2.2
        exact apart _ member _ List.mem_cons_self rfl
      have laterDistinct : (ids ++ [entry.id] ++ later.map AttributeRef.id).Nodup := by
        rw [List.append_assoc]
        exact distinct
      have laterRead := ih laterDistinct
        (fun other member => bounded other (List.mem_cons_of_mem _ member))
      have valueRead := value_append (bounded entry List.mem_cons_self)
        (later.flatMap AttributeRef.encoded ++ rest)
      rw [List.length_cons, List.flatMap_cons, List.append_assoc, AttributeRef.encoded,
        List.append_assoc, distinctAttributes, bind_ok (u16_append _ _), if_neg fresh,
        bind_ok valueRead, bind_ok laterRead]
      rfl

theorem environment_append {attributes : List AttributeRef}
    (few : attributes.length ≤ maxAttributes) (distinct : (attributes.map AttributeRef.id).Nodup)
    (bounded : ∀ entry ∈ attributes, entry.value.Bounded maxAttributeBytes) (rest : Bytes) :
    environment (beBytes 1 attributes.length ++
      (attributes.flatMap AttributeRef.encoded ++ rest)) = .ok (environmentRef attributes, rest) := by
  have count := u8_append_count (Nat.lt_of_le_of_lt few (by decide))
    (attributes.flatMap AttributeRef.encoded ++ rest)
  have entries := @distinctAttributes_append attributes [] distinct bounded rest
  rw [environment, bind_ok count, environmentRef_count few, if_neg (Nat.not_lt.mpr few),
    bind_ok (spanning_append entries)]
  rfl

end Cursor

theorem parseOperation_environment {attributes : List AttributeRef}
    (few : attributes.length ≤ maxAttributes) (distinct : (attributes.map AttributeRef.id).Nodup)
    (bounded : ∀ entry ∈ attributes, entry.value.Bounded maxAttributeBytes) :
    parseOperation (environmentBytes attributes) =
      .ok (.setEnvironment (environmentRef attributes)) := by
  apply parseOperation_of_read
  have entriesRead := Cursor.environment_append few distinct bounded []
  rw [List.append_nil] at entriesRead
  rw [environmentBytes, Cursor.operation]
  exact (Cursor.bind_ok (Cursor.u8_append opEnvironment _)).trans (Cursor.bind_ok entriesRead)

theorem iterFrom_append {attributes : List AttributeRef}
    (bounded : ∀ entry ∈ attributes, entry.value.Bounded maxAttributeBytes) (rest : Bytes) :
    EnvironmentRef.iterFrom attributes.length (attributes.flatMap AttributeRef.encoded ++ rest) =
      attributes := by
  induction attributes with
  | nil => rfl
  | cons entry later ih =>
      have read := Cursor.attributeEntry_append (bounded entry List.mem_cons_self)
        (later.flatMap AttributeRef.encoded ++ rest)
      have laterRead := ih (fun other member => bounded other (List.mem_cons_of_mem _ member))
      rw [List.length_cons, List.flatMap_cons, List.append_assoc, EnvironmentRef.iterFrom, read]
      simp only [laterRead]

/-- The attributes of a list are the ones that its environment holds. -/
theorem iter_environmentRef {attributes : List AttributeRef}
    (few : attributes.length ≤ maxAttributes)
    (bounded : ∀ entry ∈ attributes, entry.value.Bounded maxAttributeBytes) :
    (environmentRef attributes).iter = attributes := by
  have read := iterFrom_append bounded []
  rw [List.append_nil] at read
  rw [EnvironmentRef.iter, environmentRef, environmentRef_count few]
  exact read

section Lookup

variable {attributes : List AttributeRef} (few : attributes.length ≤ maxAttributes)
    (bounded : ∀ entry ∈ attributes, entry.value.Bounded maxAttributeBytes)
include few bounded

theorem get_environmentRef (wanted : AttributeId) :
    (environmentRef attributes).get wanted =
      (attributes.find? (fun entry => entry.id = wanted)).map AttributeRef.value := by
  rw [EnvironmentRef.get_eq_find, iter_environmentRef few bounded]

theorem get_environmentRef_of_mem (distinct : (attributes.map AttributeRef.id).Nodup)
    {entry : AttributeRef} (member : entry ∈ attributes) :
    (environmentRef attributes).get entry.id = some entry.value := by
  rw [get_environmentRef few bounded]
  cases found : attributes.find? (fun other => other.id = entry.id) with
  | none => simpa using List.find?_eq_none.mp found entry member
  | some other =>
      have same : other.id = entry.id := by simpa using List.find?_some found
      have equal := List.inj_on_of_nodup_map distinct (List.mem_of_find?_eq_some found) member same
      rw [equal]
      rfl

theorem get_environmentRef_of_absent {wanted : AttributeId}
    (absent : wanted ∉ attributes.map AttributeRef.id) :
    (environmentRef attributes).get wanted = none := by
  rw [get_environmentRef few bounded, Option.map_eq_none_iff, List.find?_eq_none]
  intro entry member same
  exact absent (List.mem_map.mpr ⟨entry, member, by simpa using same⟩)

end Lookup

/-- The environment that holds the chosen value of each listed attribute. -/
def environmentOf (chosen : AttributeId → ValueRef) (ids : List AttributeId) : EnvironmentRef :=
  environmentRef (ids.map (fun id => ⟨id, chosen id⟩))

section EnvironmentOf

variable {chosen : AttributeId → ValueRef} {ids : List AttributeId} (distinct : ids.Nodup)
    (few : ids.length ≤ maxAttributes) (bounded : ∀ id, (chosen id).Bounded maxAttributeBytes)
include bounded

theorem mem_environmentOf {entry : AttributeRef}
    (member : entry ∈ ids.map (fun id => (⟨id, chosen id⟩ : AttributeRef))) :
    entry.value.Bounded maxAttributeBytes := by
  obtain ⟨id, _, same⟩ := List.mem_map.mp member
  exact same ▸ bounded id

include distinct few

theorem parsed_environmentOf : (environmentOf chosen ids).Parsed := by
  refine ⟨_, parseOperation_environment ?_ ?_ (fun entry => mem_environmentOf bounded)⟩
  · rwa [List.length_map]
  · rwa [List.map_map, Function.comp_def, List.map_id']

theorem get_environmentOf (wanted : AttributeId) :
    (environmentOf chosen ids).get wanted = if wanted ∈ ids then some (chosen wanted) else none := by
  have short : (ids.map (fun id => (⟨id, chosen id⟩ : AttributeRef))).length ≤ maxAttributes := by
    rwa [List.length_map]
  have names : (ids.map (fun id => (⟨id, chosen id⟩ : AttributeRef))).map AttributeRef.id = ids := by
    rw [List.map_map, Function.comp_def, List.map_id']
  split
  · rename_i member
    exact @get_environmentRef_of_mem _ short (fun _ => mem_environmentOf bounded)
      (by rwa [names]) ⟨wanted, chosen wanted⟩ (List.mem_map.mpr ⟨wanted, member, rfl⟩)
  · rename_i absent
    exact get_environmentRef_of_absent short (fun _ => mem_environmentOf bounded)
      (by rwa [names])

end EnvironmentOf

end SecurePubSub.Protocol
