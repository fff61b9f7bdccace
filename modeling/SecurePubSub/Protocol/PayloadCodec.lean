import SecurePubSub.Data.CursorCodec
import SecurePubSub.Protocol.EnvironmentView

namespace SecurePubSub.Protocol

open SecurePubSub.Data SecurePubSub.Data.Cursor SecurePubSub.Data.Fallible

/-! The reading side of the payload format as canonical codecs. -/

namespace Cursor

theorem u8_codec : Codec u8 (fun value => beBytes 1 value.toNat) (fun _ => True) :=
  Codec.word Error.malformed 1 UInt8.toNat_lt (fun _ => UInt8.ofNat_toNat)
    fun _ small => UInt8.toNat_ofNat_of_lt' small

theorem u16_codec : Codec u16 (fun value => beBytes 2 value.toNat) (fun _ => True) :=
  Codec.word Error.malformed 2 UInt16.toNat_lt (fun _ => UInt16.ofNat_toNat)
    fun _ small => UInt16.toNat_ofNat_of_lt' small

theorem u32_codec : Codec u32 (fun value => beBytes 4 value.toNat) (fun _ => True) :=
  Codec.word Error.malformed 4 UInt32.toNat_lt (fun _ => UInt32.ofNat_toNat)
    fun _ small => UInt32.toNat_ofNat_of_lt' small

theorem bytesU16_codec {maximum : Nat} (representable : maximum < 2 ^ 16) :
    Codec (bytesU16 maximum) (fun content => beBytes 2 content.length ++ content)
      (fun content => content.length ≤ maximum) where
  reads := by
    intro content short rest
    rw [List.append_assoc]
    exact bytesU16_append short representable rest
  canonical := by
    intro input rest content read
    obtain ⟨length, middle, lengthRead, contentRead⟩ := bind_eq_ok read
    have split := (u16_codec.canonical lengthRead).2
    split at contentRead
    · cases contentRead
    · rename_i within
      obtain ⟨splitContent, exact⟩ := take_eq_ok contentRead
      rw [exact, split, splitContent, List.append_assoc]
      exact ⟨Nat.not_lt.mp within, rfl⟩

theorem value_codec :
    Codec (value maxAttributeBytes) ValueRef.encoded (ValueRef.Bounded maxAttributeBytes) where
  reads := fun bounded rest => value_append bounded rest
  canonical := by
    intro input rest held read
    obtain ⟨tag, middle, tagRead, bodyRead⟩ := bind_eq_ok read
    have split := (u8_codec.canonical tagRead).2
    split at bodyRead
    · obtain ⟨flag, last, flagRead, result⟩ := bind_eq_ok bodyRead
      have splitFlag := (u8_codec.canonical flagRead).2
      rw [split, splitFlag, ← List.append_assoc]
      split at result
      · cases result
        exact ⟨trivial, rfl⟩
      · cases result
        exact ⟨trivial, rfl⟩
      · cases result
    · obtain ⟨word, last, wordRead, result⟩ := bind_eq_ok bodyRead
      obtain ⟨splitWord, small⟩ := number_eq_ok wordRead
      have kept : (Int64.ofNat word).toUInt64.toNat = word := by
        simp only [Int64.ofNat]
        exact Nat.mod_eq_of_lt small
      cases result
      rw [split, splitWord, ← List.append_assoc, ValueRef.encoded, kept]
      exact ⟨trivial, rfl⟩
    · obtain ⟨content, last, contentRead, result⟩ := bind_eq_ok bodyRead
      obtain ⟨short, splitContent⟩ := (bytesU16_codec (by decide)).canonical contentRead
      cases result
      rw [split, splitContent, ← List.append_assoc]
      exact ⟨short, rfl⟩
    · cases bodyRead

theorem operator_toU8_of_fromU8 {code : UInt8} {operator : Operator}
    (decoded : Operator.fromU8 code = some operator) : operator.toU8 = code := by
  revert decoded
  simp only [Operator.fromU8]
  split <;> simp <;> rintro rfl <;> rfl

theorem clause_codec :
    Codec clause ClauseRef.encoded (fun entry => entry.value.Bounded maxAttributeBytes) where
  reads := fun bounded rest => clause_append bounded rest
  canonical := by
    intro input rest entry read
    obtain ⟨id, middle, idRead, read⟩ := bind_eq_ok read
    obtain ⟨code, later, codeRead, read⟩ := bind_eq_ok read
    have split := (u16_codec.canonical idRead).2
    have splitCode := (u8_codec.canonical codeRead).2
    cases decoded : Operator.fromU8 code with
    | none => rw [decoded] at read; cases read
    | some operator =>
      rw [decoded] at read
      obtain ⟨held, last, heldRead, result⟩ := bind_eq_ok read
      obtain ⟨bounded, splitHeld⟩ := value_codec.canonical heldRead
      cases result
      rw [split, splitCode, splitHeld, ← operator_toU8_of_fromU8 decoded, ClauseRef.encoded,
        List.append_assoc, List.append_assoc]
      exact ⟨bounded, rfl⟩

/-- The attribute loop reads a list without any of the ids already seen. -/
theorem distinctAttributes_codec (ids : List AttributeId) (distinct : ids.Nodup) (count : Nat) :
    Codec (distinctAttributes ids count) (List.flatMap AttributeRef.encoded)
      (fun attributes => attributes.length = count ∧
        (ids ++ attributes.map AttributeRef.id).Nodup ∧
        ∀ entry ∈ attributes, entry.value.Bounded maxAttributeBytes) where
  reads := by
    intro attributes ⟨length, fresh, bounded⟩ rest
    subst length
    exact distinctAttributes_append fresh bounded rest
  canonical := by
    induction count generalizing ids with
    | zero =>
        intro input rest attributes read
        cases read
        exact ⟨⟨rfl, by simpa using distinct, fun _ member => nomatch member⟩, rfl⟩
    | succ count ih =>
        intro input rest attributes read
        obtain ⟨id, middle, idRead, read⟩ := bind_eq_ok read
        have split := (u16_codec.canonical idRead).2
        split at read
        · cases read
        · rename_i fresh
          obtain ⟨held, later, heldRead, read⟩ := bind_eq_ok read
          obtain ⟨tail, last, tailRead, result⟩ := bind_eq_ok read
          obtain ⟨bounded, splitHeld⟩ := value_codec.canonical heldRead
          have extended : (ids ++ [(⟨id⟩ : AttributeId)]).Nodup := by
            rw [← List.concat_eq_append]
            exact distinct.concat fresh
          obtain ⟨⟨length, apart, tailBounded⟩, splitTail⟩ := ih _ extended tailRead
          cases result
          refine ⟨⟨by rw [List.length_cons, length], ?_, ?_⟩, ?_⟩
          · rwa [List.append_assoc] at apart
          · intro entry member
            cases List.mem_cons.mp member with
            | inl same => exact same ▸ bounded
            | inr inside => exact tailBounded entry inside
          · rw [split, splitHeld, splitTail, List.flatMap_cons, AttributeRef.encoded,
              List.append_assoc, List.append_assoc]

/-- A count byte below its limit stands for the number of items behind it. -/
theorem ofNat_of_toNat {count : UInt8} {length : Nat} (same : length = count.toNat) :
    UInt8.ofNat length = count := by
  rw [same, UInt8.ofNat_toNat]

theorem environment_canonical {input rest : Bytes} {found : EnvironmentRef}
    (read : environment input = .ok (found, rest)) :
    ∃ attributes : List AttributeRef, attributes.length ≤ maxAttributes ∧
      (attributes.map AttributeRef.id).Nodup ∧
      (∀ entry ∈ attributes, entry.value.Bounded maxAttributeBytes) ∧
      found = environmentRef attributes ∧
      input = beBytes 1 attributes.length ++ attributes.flatMap AttributeRef.encoded ++ rest := by
  obtain ⟨count, middle, countRead, read⟩ := bind_eq_ok read
  have split := (u8_codec.canonical countRead).2
  split at read
  · cases read
  · rename_i few
    obtain ⟨⟨attributes, bytes⟩, last, entriesRead, result⟩ := bind_eq_ok read
    obtain ⟨⟨⟨length, distinct, bounded⟩, spanned⟩, splitEntries⟩ :=
      (distinctAttributes_codec [] List.nodup_nil _).spanning.canonical entriesRead
    cases result
    simp only at length distinct bounded spanned splitEntries
    refine ⟨attributes, by omega, distinct, bounded, ?_, ?_⟩
    · rw [environmentRef, spanned, ofNat_of_toNat length]
    · rw [split, splitEntries, spanned, length, List.append_assoc]

theorem predicate_canonical {input rest : Bytes} {found : PredicateRef}
    (read : predicate input = .ok (found, rest)) :
    ∃ clauses : List ClauseRef, clauses.length ≤ maxClauses ∧
      (∀ entry ∈ clauses, entry.value.Bounded maxAttributeBytes) ∧
      found = predicateRef clauses ∧ input = predicateBytes clauses ++ rest := by
  obtain ⟨count, middle, countRead, read⟩ := bind_eq_ok read
  have split := (u8_codec.canonical countRead).2
  split at read
  · cases read
  · rename_i few
    obtain ⟨⟨clauses, bytes⟩, last, entriesRead, result⟩ := bind_eq_ok read
    obtain ⟨⟨⟨length, bounded⟩, spanned⟩, splitEntries⟩ :=
      (clause_codec.repeated _).spanning.canonical entriesRead
    cases result
    simp only at length bounded spanned splitEntries
    refine ⟨clauses, by omega, bounded, ?_, ?_⟩
    · rw [predicateRef, spanned, ofNat_of_toNat length]
    · rw [split, splitEntries, spanned, predicateBytes, length, List.append_assoc]

end Cursor

end SecurePubSub.Protocol
