import SecurePubSub.Data.Comparison
import SecurePubSub.Protocol.PayloadCanonical

namespace SecurePubSub.Protocol

open SecurePubSub.Data SecurePubSub.Data.Fallible

/-! What a predicate means: the conjunction of the clauses it was encoded from.

A predicate and an environment are read again from their bytes at every use. For
parsed ones this reading never fails, and what it computes is the conjunction
of typed comparisons between two lists, in which no order of entries matters.
-/

/-- The environment has the attribute of a clause and its value passes the comparison. -/
def ClauseRef.HoldsIn (clause : ClauseRef) (environment : EnvironmentRef) : Prop :=
  ∃ held, environment.get clause.attributeId = some held ∧
    compareValues held clause.operator clause.value = true

/-- Equality is equality of type and value. -/
theorem compareValues_eq_iff {lhs rhs : ValueRef} : compareValues lhs .eq rhs = true ↔ lhs = rhs := by
  cases lhs <;> cases rhs <;> simp [compareValues, beq_iff_eq]

theorem evaluateFrom_append {environment : EnvironmentRef} {clauses : List ClauseRef}
    (bounded : ∀ clause ∈ clauses, clause.value.Bounded maxAttributeBytes) (rest : Bytes) :
    PredicateRef.evaluateFrom environment clauses.length
        (clauses.flatMap ClauseRef.encoded ++ rest) = true ↔
      ∀ clause ∈ clauses, clause.HoldsIn environment := by
  induction clauses with
  | nil =>
      constructor
      · intro _ clause member
        cases member
      · intro _
        rfl
  | cons clause later ih =>
      have read := Cursor.clause_append (bounded clause List.mem_cons_self)
        (later.flatMap ClauseRef.encoded ++ rest)
      have laterHolds := ih fun other member => bounded other (List.mem_cons_of_mem _ member)
      rw [List.length_cons, List.flatMap_cons, List.append_assoc, PredicateRef.evaluateFrom, read,
        List.forall_mem_cons]
      dsimp only
      cases found : environment.get clause.attributeId with
      | none =>
          constructor
          · intro evaluated
            cases evaluated
          · intro ⟨⟨held, present, _⟩, _⟩
            rw [found] at present
            cases present
      | some held =>
          have first : clause.HoldsIn environment ↔
              compareValues held clause.operator clause.value = true := by
            rw [ClauseRef.HoldsIn, found]
            exact ⟨fun ⟨_, same, passes⟩ => Option.some.inj same ▸ passes,
              fun passes => ⟨held, rfl, passes⟩⟩
          rw [first]
          dsimp only
          cases passes : compareValues held clause.operator clause.value with
          | false => simp
          | true => simpa using laterHolds

/-- A predicate that was encoded from clauses is true exactly where all of them hold. -/
theorem evaluate_predicateRef {environment : EnvironmentRef} {clauses : List ClauseRef}
    (bounded : BoundedClauses clauses) :
    (predicateRef clauses).evaluate environment = true ↔
      ∀ clause ∈ clauses, clause.HoldsIn environment := by
  have read := @evaluateFrom_append environment clauses bounded.2 []
  rw [List.append_nil] at read
  rw [PredicateRef.evaluate, predicateRef, predicateRef_count bounded.1]
  exact read

/-! ## Typed comparison -/

/-- How an operator relates two values of one type, from the strict order of that type. -/
def Operator.Relates {α : Type} (operator : Operator) (less : α → α → Prop) (left right : α) : Prop :=
  match operator with
  | .eq => left = right
  | .ne => left ≠ right
  | .lt => less left right
  | .le => less left right ∨ left = right
  | .gt => less right left
  | .ge => less right left ∨ left = right

/-- The answers of a comparison that an operator accepts. -/
def Operator.accepts (operator : Operator) (ordering : Ordering) : Bool :=
  match operator with
  | .eq => ordering == .eq
  | .ne => ordering != .eq
  | .lt => ordering == .lt
  | .le => ordering == .lt || ordering == .eq
  | .gt => ordering == .gt
  | .ge => ordering == .gt || ordering == .eq

theorem Operator.accepts_iff {α : Type} {cmp : α → α → Ordering} {less : α → α → Prop}
    (decides : Decides cmp less) (operator : Operator) {left right : α} :
    operator.accepts (cmp left right) = true ↔ operator.Relates less left right := by
  cases operator with
  | eq => simp [accepts, Relates, decides.eq]
  | ne => simp [accepts, Relates, decides.eq]
  | lt => simp [accepts, Relates, decides.lt]
  | le => simp [accepts, Relates, decides.lt, decides.eq]
  | gt => simp [accepts, Relates, decides.gt]
  | ge => simp [accepts, Relates, decides.gt, decides.eq]

namespace ValueRef

inductive Kind where
  | bool
  | i64
  | bytes
deriving DecidableEq

def kind : ValueRef → Kind
  | bool _ => .bool
  | i64 _ => .i64
  | bytes _ => .bytes

/-- Two values of one type, related by the operator in the order of their type. -/
def Related (operator : Operator) : ValueRef → ValueRef → Prop
  | bool left, bool right => operator.Relates (fun x y => x = false ∧ y = true) left right
  | i64 left, i64 right => operator.Relates (fun x y => x.toInt < y.toInt) left right
  | bytes left, bytes right =>
      operator.Relates (List.Lex fun x y : UInt8 => x.toNat < y.toNat) left right
  | _, _ => False

theorem decides_bool :
    Decides (compare : Bool → Bool → Ordering) (fun x y => x = false ∧ y = true) where
  lt := by decide
  eq := by decide
  gt := by decide

theorem decides_i64 :
    Decides (compare : Int64 → Int64 → Ordering) (fun x y => x.toInt < y.toInt) where
  lt := by
    intro left right
    rw [Std.compare_eq_lt, Int64.lt_iff_toInt_lt]
  eq := Std.compare_eq_iff_eq
  gt := by
    intro left right
    rw [Std.compare_eq_gt, Int64.lt_iff_toInt_lt]

theorem decides_byte :
    Decides (compare : UInt8 → UInt8 → Ordering) (fun x y => x.toNat < y.toNat) where
  lt := by
    intro left right
    rw [Std.compare_eq_lt, UInt8.lt_iff_toNat_lt]
  eq := Std.compare_eq_iff_eq
  gt := by
    intro left right
    rw [Std.compare_eq_gt, UInt8.lt_iff_toNat_lt]

variable {left right : ValueRef} {operator : Operator}

theorem Related.kind_eq (related : left.Related operator right) : left.kind = right.kind := by
  cases left <;> cases right <;> first | rfl | cases related

end ValueRef

/-- The comparison of the source computes the typed relation. -/
theorem compareValues_iff {left right : ValueRef} {operator : Operator} :
    compareValues left operator right = true ↔ left.Related operator right := by
  cases left with
  | bool x =>
      cases right with
      | bool y =>
          rw [ValueRef.Related, ← operator.accepts_iff ValueRef.decides_bool]
          cases operator <;> rfl
      | i64 y => simp [compareValues, ValueRef.Related]
      | bytes y => simp [compareValues, ValueRef.Related]
  | i64 x =>
      cases right with
      | bool y => simp [compareValues, ValueRef.Related]
      | i64 y =>
          rw [ValueRef.Related, ← operator.accepts_iff ValueRef.decides_i64]
          cases operator <;> rfl
      | bytes y => simp [compareValues, ValueRef.Related]
  | bytes x =>
      cases right with
      | bool y => simp [compareValues, ValueRef.Related]
      | i64 y => simp [compareValues, ValueRef.Related]
      | bytes y =>
          rw [ValueRef.Related, ← operator.accepts_iff ValueRef.decides_byte.lexicographic]
          cases operator <;> rfl

/-! ## What the parser returns -/

/-- The predicate of an operation that carries one. -/
def OperationRef.predicate? : OperationRef → Option PredicateRef
  | .subscribe _ predicate => some predicate
  | .subscribePermanent _ predicate => some predicate
  | .publish _ predicate _ => some predicate
  | _ => none

/-- What some accepted operation carries; no other value of this type can be built. -/
def PredicateRef.Parsed (predicate : PredicateRef) : Prop :=
  ∃ input operation, parseOperation input = .ok operation ∧ operation.predicate? = some predicate

theorem PredicateRef.Parsed.canonical {predicate : PredicateRef} (parsed : predicate.Parsed) :
    BoundedClauses predicate.clauses ∧ predicateRef predicate.clauses = predicate := by
  obtain ⟨input, operation, parsed, carried⟩ := parsed
  obtain ⟨valid, _, views⟩ := parseOperation_canonical parsed
  cases operation with
  | setEnvironment environment => cases carried
  | subscribe typeId found =>
      cases carried
      exact ⟨valid, (OperationRef.subscribe.inj views).2⟩
  | subscribePermanent typeId found =>
      cases carried
      exact ⟨valid, (OperationRef.subscribePermanent.inj views).2⟩
  | publish typeId found value =>
      cases carried
      exact ⟨valid.1, (OperationRef.publish.inj views).2.1⟩
  | publicationResponse typeId publisher value => cases carried

theorem EnvironmentRef.Parsed.canonical {environment : EnvironmentRef}
    (parsed : environment.Parsed) :
    BoundedAttributes environment.iter ∧ environmentRef environment.iter = environment := by
  obtain ⟨input, parsed⟩ := parsed
  obtain ⟨valid, _, views⟩ := parseOperation_canonical parsed
  exact ⟨valid, OperationRef.setEnvironment.inj views⟩

/-- A parsed predicate is its clauses, one after the other. -/
theorem PredicateRef.Parsed.view {predicate : PredicateRef} (parsed : predicate.Parsed) :
    predicate.bytes = predicate.clauses.flatMap ClauseRef.encoded ∧
      predicate.clauses.length = predicate.count.toNat := by
  obtain ⟨bounded, same⟩ := parsed.canonical
  have counted := predicateRef_count bounded.1
  constructor
  · exact (congrArg PredicateRef.bytes same).symm
  · exact counted.symm.trans (congrArg (fun view => view.count.toNat) same)

theorem EnvironmentRef.Parsed.view {environment : EnvironmentRef} (parsed : environment.Parsed) :
    environment.bytes = environment.iter.flatMap AttributeRef.encoded ∧
      environment.iter.length = environment.count.toNat := by
  obtain ⟨bounded, same⟩ := parsed.canonical
  have counted := environmentRef_count bounded.1
  constructor
  · exact (congrArg EnvironmentRef.bytes same).symm
  · exact counted.symm.trans (congrArg (fun view => view.count.toNat) same)

/-- The attributes of a parsed environment have distinct ids, so each is the one looked up. -/
theorem EnvironmentRef.Parsed.get_iff {environment : EnvironmentRef}
    (parsed : environment.Parsed) {wanted : AttributeId} {held : ValueRef} :
    environment.get wanted = some held ↔ ⟨wanted, held⟩ ∈ environment.iter := by
  constructor
  · exact mem_iter_of_get
  · intro member
    obtain ⟨⟨few, distinct, bounded⟩, same⟩ := parsed.canonical
    have found := get_environmentRef_of_mem few bounded distinct member
    rwa [same] at found

/-- The meaning of a clause: a listed attribute with its id has a value related to its operand. -/
def ClauseRef.Satisfied (clause : ClauseRef) (attributes : List AttributeRef) : Prop :=
  ∃ entry ∈ attributes, entry.id = clause.attributeId ∧
    entry.value.Related clause.operator clause.value

theorem ClauseRef.holdsIn_iff {clause : ClauseRef} {environment : EnvironmentRef}
    (parsed : environment.Parsed) :
    clause.HoldsIn environment ↔ clause.Satisfied environment.iter := by
  constructor
  · rintro ⟨held, found, passes⟩
    have member := parsed.get_iff.mp found
    have related := compareValues_iff.mp passes
    exact ⟨⟨clause.attributeId, held⟩, member, rfl, related⟩
  · rintro ⟨⟨id, held⟩, member, same, related⟩
    cases same
    have found := parsed.get_iff.mpr member
    have passes := compareValues_iff.mpr related
    exact ⟨held, found, passes⟩

theorem PredicateRef.Parsed.evaluate_iff {predicate : PredicateRef} {environment : EnvironmentRef}
    (predicateParsed : predicate.Parsed) (environmentParsed : environment.Parsed) :
    predicate.evaluate environment = true ↔
      ∀ clause ∈ predicate.clauses, clause.Satisfied environment.iter := by
  obtain ⟨bounded, same⟩ := predicateParsed.canonical
  have conjunction := @evaluate_predicateRef environment _ bounded
  rw [same] at conjunction
  rw [conjunction]
  apply forall₂_congr
  intro clause _
  exact ClauseRef.holdsIn_iff environmentParsed

/-! ## Reading again never fails -/

/-- The lookup loop with an unreadable entry reported. -/
def EnvironmentRef.tryGetFrom (wanted : AttributeId) : Nat → Bytes → Except Error (Option ValueRef)
  | 0, _ => .ok none
  | count + 1, input =>
      match Cursor.attributeEntry input with
      | .error error => .error error
      | .ok (entry, rest) =>
          if entry.id = wanted then .ok (some entry.value) else tryGetFrom wanted count rest

def EnvironmentRef.tryGet (environment : EnvironmentRef) (wanted : AttributeId) :
    Except Error (Option ValueRef) :=
  tryGetFrom wanted environment.count.toNat environment.bytes

/-- The evaluation loop with an unreadable clause or attribute reported. -/
def PredicateRef.tryEvaluateFrom (environment : EnvironmentRef) : Nat → Bytes → Except Error Bool
  | 0, _ => .ok true
  | count + 1, input =>
      match Cursor.clause input with
      | .error error => .error error
      | .ok (clause, rest) =>
          match environment.tryGet clause.attributeId with
          | .error error => .error error
          | .ok none => .ok false
          | .ok (some lhs) =>
              if compareValues lhs clause.operator clause.value then
                tryEvaluateFrom environment count rest
              else .ok false

def PredicateRef.tryEvaluate (predicate : PredicateRef) (environment : EnvironmentRef) :
    Except Error Bool :=
  tryEvaluateFrom environment predicate.count.toNat predicate.bytes

theorem tryGetFrom_append (wanted : AttributeId) {attributes : List AttributeRef}
    (bounded : ∀ entry ∈ attributes, entry.value.Bounded maxAttributeBytes) (rest : Bytes) :
    EnvironmentRef.tryGetFrom wanted attributes.length
        (attributes.flatMap AttributeRef.encoded ++ rest) =
      .ok (EnvironmentRef.getFrom wanted attributes.length
        (attributes.flatMap AttributeRef.encoded ++ rest)) := by
  induction attributes with
  | nil => rfl
  | cons entry later ih =>
      have read := Cursor.attributeEntry_append (bounded entry List.mem_cons_self)
        (later.flatMap AttributeRef.encoded ++ rest)
      have laterRead := ih fun other member => bounded other (List.mem_cons_of_mem _ member)
      rw [List.length_cons, List.flatMap_cons, List.append_assoc, EnvironmentRef.tryGetFrom,
        EnvironmentRef.getFrom, read]
      by_cases hit : entry.id = wanted
      · simp [hit]
      · simp [hit, laterRead]

theorem EnvironmentRef.Parsed.tryGet_eq {environment : EnvironmentRef}
    (parsed : environment.Parsed) (wanted : AttributeId) :
    environment.tryGet wanted = .ok (environment.get wanted) := by
  obtain ⟨⟨few, _, bounded⟩, same⟩ := parsed.canonical
  have read := tryGetFrom_append wanted bounded []
  rw [List.append_nil] at read
  rw [← same, EnvironmentRef.tryGet, EnvironmentRef.get, environmentRef, environmentRef_count few]
  exact read

theorem tryEvaluateFrom_append {environment : EnvironmentRef} (parsed : environment.Parsed)
    {clauses : List ClauseRef}
    (bounded : ∀ clause ∈ clauses, clause.value.Bounded maxAttributeBytes) (rest : Bytes) :
    PredicateRef.tryEvaluateFrom environment clauses.length
        (clauses.flatMap ClauseRef.encoded ++ rest) =
      .ok (PredicateRef.evaluateFrom environment clauses.length
        (clauses.flatMap ClauseRef.encoded ++ rest)) := by
  induction clauses with
  | nil => rfl
  | cons clause later ih =>
      have read := Cursor.clause_append (bounded clause List.mem_cons_self)
        (later.flatMap ClauseRef.encoded ++ rest)
      have laterRead := ih fun other member => bounded other (List.mem_cons_of_mem _ member)
      rw [List.length_cons, List.flatMap_cons, List.append_assoc, PredicateRef.tryEvaluateFrom,
        PredicateRef.evaluateFrom, read]
      dsimp only
      rw [parsed.tryGet_eq]
      cases environment.get clause.attributeId with
      | none => rfl
      | some held =>
          dsimp only
          cases compareValues held clause.operator clause.value with
          | false => rfl
          | true => exact laterRead

theorem PredicateRef.Parsed.tryEvaluate_eq {predicate : PredicateRef}
    {environment : EnvironmentRef} (predicateParsed : predicate.Parsed)
    (environmentParsed : environment.Parsed) :
    predicate.tryEvaluate environment = .ok (predicate.evaluate environment) := by
  obtain ⟨bounded, same⟩ := predicateParsed.canonical
  have read := tryEvaluateFrom_append environmentParsed bounded.2 []
  rw [List.append_nil] at read
  rw [← same, PredicateRef.tryEvaluate, PredicateRef.evaluate, predicateRef,
    predicateRef_count bounded.1]
  exact read

/-! ## The typed conjunction -/

theorem PredicateRef.Parsed.evaluate_perm {predicate otherPredicate : PredicateRef}
    {environment otherEnvironment : EnvironmentRef} (predicateParsed : predicate.Parsed)
    (otherPredicateParsed : otherPredicate.Parsed) (environmentParsed : environment.Parsed)
    (otherEnvironmentParsed : otherEnvironment.Parsed)
    (clauses : otherPredicate.clauses.Perm predicate.clauses)
    (attributes : otherEnvironment.iter.Perm environment.iter) :
    otherPredicate.evaluate otherEnvironment = predicate.evaluate environment := by
  rw [Bool.eq_iff_iff, otherPredicateParsed.evaluate_iff otherEnvironmentParsed,
    predicateParsed.evaluate_iff environmentParsed]
  simp only [ClauseRef.Satisfied, clauses.mem_iff, attributes.mem_iff]

theorem PredicateRef.Parsed.evaluate_of_mismatch {predicate : PredicateRef}
    {environment : EnvironmentRef} (predicateParsed : predicate.Parsed)
    (environmentParsed : environment.Parsed) {clause : ClauseRef}
    (member : clause ∈ predicate.clauses)
    (mismatch : ∀ entry ∈ environment.iter, entry.id = clause.attributeId →
      entry.value.kind ≠ clause.value.kind) : predicate.evaluate environment = false := by
  rw [← Bool.not_eq_true, predicateParsed.evaluate_iff environmentParsed]
  intro all
  obtain ⟨entry, listed, same, related⟩ := all clause member
  exact mismatch entry listed same related.kind_eq

/-- On parsed views evaluation is the conjunction of typed comparisons: every byte is read, a
missing attribute or one of another type fails its clause, and no order of entries matters. -/
theorem evaluate_typed_conjunction {environment : EnvironmentRef} {predicate : PredicateRef}
    (environmentParsed : environment.Parsed) (predicateParsed : predicate.Parsed) :
    (environment.bytes = environment.iter.flatMap AttributeRef.encoded ∧
      environment.iter.length = environment.count.toNat ∧
      predicate.bytes = predicate.clauses.flatMap ClauseRef.encoded ∧
      predicate.clauses.length = predicate.count.toNat) ∧
    (predicate.evaluate environment = true ↔
      ∀ clause ∈ predicate.clauses, ∃ entry ∈ environment.iter,
        entry.id = clause.attributeId ∧ entry.value.Related clause.operator clause.value) ∧
    (∀ clause ∈ predicate.clauses,
      (∀ entry ∈ environment.iter, entry.id = clause.attributeId →
        entry.value.kind ≠ clause.value.kind) → predicate.evaluate environment = false) ∧
    predicate.tryEvaluate environment = .ok (predicate.evaluate environment) ∧
    ∀ (otherEnvironment : EnvironmentRef) (otherPredicate : PredicateRef),
      otherEnvironment.Parsed → otherPredicate.Parsed →
      otherEnvironment.iter.Perm environment.iter →
      otherPredicate.clauses.Perm predicate.clauses →
      otherPredicate.evaluate otherEnvironment = predicate.evaluate environment := by
  obtain ⟨attributesRead, attributesCounted⟩ := environmentParsed.view
  obtain ⟨clausesRead, clausesCounted⟩ := predicateParsed.view
  refine ⟨⟨attributesRead, attributesCounted, clausesRead, clausesCounted⟩, ?_, ?_, ?_, ?_⟩
  · exact predicateParsed.evaluate_iff environmentParsed
  · intro clause member mismatch
    exact predicateParsed.evaluate_of_mismatch environmentParsed member mismatch
  · exact predicateParsed.tryEvaluate_eq environmentParsed
  · intro otherEnvironment otherPredicate otherEnvironmentParsed otherPredicateParsed
      attributes clauses
    exact predicateParsed.evaluate_perm otherPredicateParsed environmentParsed
      otherEnvironmentParsed clauses attributes

theorem evaluate_typed_conjunction_swapped :
    (predicateRef [⟨⟨2⟩, .ge, .bytes [100, 5]⟩, ⟨⟨1⟩, .lt, .i64 3⟩]).evaluate
        (environmentRef [⟨⟨2⟩, .bytes [200]⟩, ⟨⟨1⟩, .i64 (-2)⟩]) =
      (predicateRef [⟨⟨1⟩, .lt, .i64 3⟩, ⟨⟨2⟩, .ge, .bytes [100, 5]⟩]).evaluate
        (environmentRef [⟨⟨1⟩, .i64 (-2)⟩, ⟨⟨2⟩, .bytes [200]⟩]) := by
  have whole := @evaluate_typed_conjunction
    (environmentRef [⟨⟨1⟩, .i64 (-2)⟩, ⟨⟨2⟩, .bytes [200]⟩])
    (predicateRef [⟨⟨1⟩, .lt, .i64 3⟩, ⟨⟨2⟩, .ge, .bytes [100, 5]⟩])
    ⟨[1, 2, 0, 1, 2, 255, 255, 255, 255, 255, 255, 255, 254, 0, 2, 3, 0, 1, 200],
      by decide +kernel⟩
    ⟨[5, 0, 0, 0, 7, 2, 0, 1, 3, 2, 0, 0, 0, 0, 0, 0, 0, 3, 0, 2, 6, 3, 0, 2, 100, 5],
      .subscribe ⟨7⟩ _, by decide +kernel, rfl⟩
  apply whole.2.2.2.2
  · exact ⟨[1, 2, 0, 2, 3, 0, 1, 200, 0, 1, 2, 255, 255, 255, 255, 255, 255, 255, 254],
      by decide +kernel⟩
  · exact ⟨[5, 0, 0, 0, 7, 2, 0, 2, 6, 3, 0, 2, 100, 5, 0, 1, 3, 2, 0, 0, 0, 0, 0, 0, 0, 3],
      .subscribe ⟨7⟩ _, by decide +kernel, rfl⟩
  · decide +kernel
  · decide +kernel

end SecurePubSub.Protocol
