import Mathlib.Algebra.GroupWithZero.Nat
import Mathlib.Order.Lattice
import Mathlib.Data.List.Basic

namespace SecurePubSub.Data

/-! Finite maps with ordered keys, as their list of entries in key order.

The order of the entries is part of the type, so two maps with the same lookups
are equal and a traversal visits the keys in order.
-/

structure SortedMap (κ : Type) (α : Type) [LinearOrder κ] where
  entries : List (κ × α)
  sorted : entries.Pairwise (fun left right => left.1 < right.1)

namespace SortedMap

variable {κ α β : Type} [LinearOrder κ]

@[ext] theorem ext {left right : SortedMap κ α} (same : left.entries = right.entries) :
    left = right := by
  cases left
  cases right
  cases same
  rfl

/-- The entries with `key` set to `value`, at the key's place in the order. -/
def insertEntry (key : κ) (value : α) : List (κ × α) → List (κ × α)
  | [] => [(key, value)]
  | (current, held) :: rest =>
      if key < current then (key, value) :: (current, held) :: rest
      else if key = current then (key, value) :: rest
      else (current, held) :: insertEntry key value rest

def lookupEntry (key : κ) : List (κ × α) → Option α
  | [] => none
  | (current, held) :: rest => if key = current then some held else lookupEntry key rest

theorem mem_insertEntry {key : κ} {value : α} {entries : List (κ × α)} {entry : κ × α}
    (member : entry ∈ insertEntry key value entries) : entry = (key, value) ∨ entry ∈ entries := by
  induction entries with
  | nil => exact .inl (List.mem_singleton.mp member)
  | cons head rest ih =>
      obtain ⟨current, held⟩ := head
      simp only [insertEntry] at member
      split at member
      · exact List.mem_cons.mp member
      · split at member
        · cases List.mem_cons.mp member with
          | inl same => exact .inl same
          | inr rest => exact .inr (List.mem_cons_of_mem _ rest)
        · cases List.mem_cons.mp member with
          | inl same => exact .inr (same ▸ List.mem_cons_self)
          | inr later =>
              cases ih later with
              | inl same => exact .inl same
              | inr rest => exact .inr (List.mem_cons_of_mem _ rest)

theorem insertEntry_sorted (key : κ) (value : α) {entries : List (κ × α)}
    (sorted : entries.Pairwise (fun left right => left.1 < right.1)) :
    (insertEntry key value entries).Pairwise (fun left right => left.1 < right.1) := by
  induction entries with
  | nil => exact List.pairwise_singleton _ _
  | cons head rest ih =>
      obtain ⟨current, held⟩ := head
      obtain ⟨above, restSorted⟩ := List.pairwise_cons.mp sorted
      simp only [insertEntry]
      split
      · rename_i below
        refine List.pairwise_cons.mpr ⟨fun entry member => ?_, sorted⟩
        cases List.mem_cons.mp member with
        | inl same => exact same ▸ below
        | inr later => exact below.trans (above entry later)
      · split
        · rename_i same
          subst same
          exact List.pairwise_cons.mpr ⟨above, restSorted⟩
        · rename_i notBelow different
          refine List.pairwise_cons.mpr ⟨fun entry member => ?_, ih restSorted⟩
          cases mem_insertEntry member with
          | inl same =>
              subst same
              exact lt_of_le_of_ne (not_lt.mp notBelow) (Ne.symm different)
          | inr later => exact above entry later

def empty : SortedMap κ α := ⟨[], List.Pairwise.nil⟩

def get (map : SortedMap κ α) (key : κ) : Option α := lookupEntry key map.entries

def contains (map : SortedMap κ α) (key : κ) : Bool := (map.get key).isSome

def size (map : SortedMap κ α) : Nat := map.entries.length

def insert (map : SortedMap κ α) (key : κ) (value : α) : SortedMap κ α :=
  ⟨insertEntry key value map.entries, insertEntry_sorted key value map.sorted⟩

def retain (map : SortedMap κ α) (keep : κ → α → Bool) : SortedMap κ α :=
  ⟨map.entries.filter (fun entry => keep entry.1 entry.2), map.sorted.filter _⟩

def erase (map : SortedMap κ α) (key : κ) : SortedMap κ α :=
  map.retain (fun current _ => decide (current ≠ key))

def mapValues (map : SortedMap κ α) (change : α → β) : SortedMap κ β :=
  ⟨map.entries.map (fun entry => (entry.1, change entry.2)), by
    rw [List.pairwise_map]
    exact map.sorted⟩

def values (map : SortedMap κ α) : List α := map.entries.map Prod.snd

@[simp] theorem get_empty (key : κ) : (empty : SortedMap κ α).get key = none := rfl

@[simp] theorem entries_empty : (empty : SortedMap κ α).entries = [] := rfl

theorem contains_eq (map : SortedMap κ α) (key : κ) : map.contains key = (map.get key).isSome := rfl

theorem lookupEntry_insertEntry (key wanted : κ) (value : α) (entries : List (κ × α)) :
    lookupEntry wanted (insertEntry key value entries) =
      if wanted = key then some value else lookupEntry wanted entries := by
  induction entries with
  | nil => rfl
  | cons head rest ih =>
      obtain ⟨current, held⟩ := head
      simp only [insertEntry]
      split
      · rfl
      · split
        · rename_i same
          subst same
          by_cases hit : wanted = key <;> simp [lookupEntry, hit]
        · rename_i different
          by_cases hit : wanted = current
          · subst hit
            simp [lookupEntry, Ne.symm different]
          · simp [lookupEntry, hit, ih]

@[simp] theorem get_insert (map : SortedMap κ α) (key wanted : κ) (value : α) :
    (map.insert key value).get wanted = if wanted = key then some value else map.get wanted :=
  lookupEntry_insertEntry key wanted value map.entries

theorem contains_insert {map : SortedMap κ α} {key wanted : κ} {value : α}
    (present : map.contains wanted = true) : (map.insert key value).contains wanted = true := by
  rw [contains_eq] at present ⊢
  rw [get_insert]
  split
  · rfl
  · exact present

theorem lookupEntry_eq_some {entries : List (κ × α)}
    (sorted : entries.Pairwise (fun left right => left.1 < right.1)) {key : κ} {value : α} :
    lookupEntry key entries = some value ↔ (key, value) ∈ entries := by
  induction entries with
  | nil => simp [lookupEntry]
  | cons head rest ih =>
      obtain ⟨current, held⟩ := head
      obtain ⟨above, restSorted⟩ := List.pairwise_cons.mp sorted
      by_cases hit : key = current
      · subst hit
        have fresh : ∀ other, (key, other) ∉ rest := fun _ member => lt_irrefl key (above _ member)
        simp [lookupEntry, fresh, eq_comm]
      · simp [lookupEntry, hit, ih restSorted]

theorem get_eq_some {map : SortedMap κ α} {key : κ} {value : α} :
    map.get key = some value ↔ (key, value) ∈ map.entries :=
  lookupEntry_eq_some map.sorted

theorem lookupEntry_eq_none {entries : List (κ × α)} {key : κ} :
    lookupEntry key entries = none ↔ ∀ value, (key, value) ∉ entries := by
  induction entries with
  | nil => simp [lookupEntry]
  | cons head rest ih =>
      obtain ⟨current, held⟩ := head
      by_cases hit : key = current
      · subst hit
        simp only [lookupEntry, if_true, reduceCtorEq, false_iff]
        exact fun absent => absent held List.mem_cons_self
      · simp [lookupEntry, hit, ih]

theorem get_eq_none {map : SortedMap κ α} {key : κ} :
    map.get key = none ↔ ∀ value, (key, value) ∉ map.entries :=
  lookupEntry_eq_none

theorem get_retain (map : SortedMap κ α) (keep : κ → α → Bool) (key : κ) :
    (map.retain keep).get key = (map.get key).filter (keep key) := by
  cases found : map.get key with
  | none =>
      have absent := get_eq_none.mp found
      refine get_eq_none.mpr (fun value member => ?_)
      exact absent value (List.mem_filter.mp member).1
  | some value =>
      have member := get_eq_some.mp found
      by_cases kept : keep key value
      · simp only [Option.filter, kept, if_true]
        exact get_eq_some.mpr (List.mem_filter.mpr ⟨member, kept⟩)
      · simp only [Option.filter, kept]
        refine get_eq_none.mpr (fun other stays => ?_)
        obtain ⟨original, keeps⟩ := List.mem_filter.mp stays
        have same : some other = some value := (get_eq_some.mpr original).symm.trans found
        cases same
        exact kept keeps

theorem get_erase (map : SortedMap κ α) (key wanted : κ) :
    (map.erase key).get wanted = if wanted = key then none else map.get wanted := by
  rw [erase, get_retain]
  by_cases hit : wanted = key
  · subst hit
    cases map.get wanted <;> simp [Option.filter]
  · cases map.get wanted <;> simp [Option.filter, hit]

theorem lookupEntry_map (change : α → β) (key : κ) (entries : List (κ × α)) :
    lookupEntry key (entries.map (fun entry => (entry.1, change entry.2))) =
      (lookupEntry key entries).map change := by
  induction entries with
  | nil => rfl
  | cons head rest ih =>
      obtain ⟨current, held⟩ := head
      by_cases hit : key = current <;> simp [lookupEntry, hit, ih]

@[simp] theorem get_mapValues (map : SortedMap κ α) (change : α → β) (key : κ) :
    (map.mapValues change).get key = (map.get key).map change :=
  lookupEntry_map change key map.entries

theorem insertEntry_above {key : κ} {value : α} {entries : List (κ × α)}
    (above : ∀ entry ∈ entries, entry.1 < key) :
    insertEntry key value entries = entries ++ [(key, value)] := by
  induction entries with
  | nil => rfl
  | cons head rest ih =>
      obtain ⟨current, held⟩ := head
      have below : current < key := above _ List.mem_cons_self
      rw [insertEntry, if_neg (not_lt.mpr below.le), if_neg below.ne',
        ih (fun entry member => above entry (List.mem_cons_of_mem _ member))]
      rfl

/-- Maps with the same lookups hold the same entries in the same order. -/
theorem eq_of_get {left right : SortedMap κ α} (same : ∀ key, left.get key = right.get key) :
    left = right := by
  suffices equal : left.entries = right.entries from ext equal
  have inside : ∀ entry, entry ∈ left.entries ↔ entry ∈ right.entries := by
    intro entry
    obtain ⟨key, value⟩ := entry
    rw [← get_eq_some, ← get_eq_some, same]
  have distinct : ∀ {map : SortedMap κ α}, map.entries.Nodup := fun {map} =>
    map.sorted.imp (fun below equal => absurd (congrArg Prod.fst equal) below.ne)
  exact List.Perm.eq_of_pairwise (fun _ _ _ _ below above => absurd below (lt_asymm above))
    left.sorted right.sorted ((List.perm_ext_iff_of_nodup distinct distinct).mpr inside)

theorem insertEntry_length_le (key : κ) (value : α) (entries : List (κ × α)) :
    (insertEntry key value entries).length ≤ entries.length + 1 := by
  induction entries with
  | nil => exact Nat.le_refl _
  | cons head rest ih =>
      simp only [insertEntry]
      split
      · exact Nat.le_refl _
      · split
        · exact Nat.le_succ _
        · simpa using ih

theorem insertEntry_length_of_mem {key : κ} {value held : α} {entries : List (κ × α)}
    (sorted : entries.Pairwise (fun left right => left.1 < right.1))
    (present : (key, held) ∈ entries) :
    (insertEntry key value entries).length = entries.length := by
  induction entries with
  | nil => cases present
  | cons head rest ih =>
      obtain ⟨current, other⟩ := head
      obtain ⟨above, restSorted⟩ := List.pairwise_cons.mp sorted
      cases List.mem_cons.mp present with
      | inl same => cases same; simp [insertEntry]
      | inr later =>
          have below := above _ later
          simp [insertEntry, not_lt.mpr below.le, below.ne', ih restSorted later]

theorem size_insert_le (map : SortedMap κ α) (key : κ) (value : α) :
    (map.insert key value).size ≤ map.size + 1 :=
  insertEntry_length_le key value map.entries

theorem size_insert_of_contains {map : SortedMap κ α} {key : κ} (value : α)
    (present : map.contains key = true) : (map.insert key value).size = map.size := by
  rw [contains_eq, Option.isSome_iff_exists] at present
  obtain ⟨held, found⟩ := present
  exact insertEntry_length_of_mem map.sorted (get_eq_some.mp found)

theorem size_retain_le (map : SortedMap κ α) (keep : κ → α → Bool) :
    (map.retain keep).size ≤ map.size :=
  List.length_filter_le _ _

/-- An insertion guarded by a capacity check stays within the capacity. -/
theorem size_insert_le_of_room {map : SortedMap κ α} {key : κ} {value : α} {maximum : Nat}
    (bounded : map.size ≤ maximum) (room : map.contains key = true ∨ map.size < maximum) :
    (map.insert key value).size ≤ maximum := by
  cases room with
  | inl present => exact (size_insert_of_contains value present) ▸ bounded
  | inr room => exact Nat.le_trans (size_insert_le map key value) room

theorem lookupEntry_below {key current : κ} {held : α} {rest : List (κ × α)}
    (above : ∀ entry ∈ rest, current < entry.1) (below : key < current) :
    lookupEntry key ((current, held) :: rest) = none := by
  refine lookupEntry_eq_none.mpr (fun other member => ?_)
  cases List.mem_cons.mp member with
  | inl same => cases same; exact lt_irrefl key below
  | inr inRest => exact lt_asymm below (above _ inRest)

theorem keys_nodup (map : SortedMap κ α) : (map.entries.map Prod.fst).Nodup := by
  have ascending : (map.entries.map Prod.fst).Pairwise (· < ·) := List.pairwise_map.mpr map.sorted
  exact ascending.imp (fun below => below.ne)

def total (map : SortedMap κ α) (measure : α → Nat) : Nat := (map.values.map measure).sum

theorem sum_insertEntry (measure : α → Nat) (key : κ) (value : α) {entries : List (κ × α)}
    (sorted : entries.Pairwise (fun left right => left.1 < right.1)) :
    (((insertEntry key value entries).map Prod.snd).map measure).sum +
        (lookupEntry key entries).elim 0 measure =
      ((entries.map Prod.snd).map measure).sum + measure value := by
  induction entries with
  | nil => simp [insertEntry, lookupEntry]
  | cons head rest ih =>
      obtain ⟨current, held⟩ := head
      obtain ⟨above, restSorted⟩ := List.pairwise_cons.mp sorted
      have later := ih restSorted
      simp only [insertEntry]
      split
      · rename_i below
        simp only [lookupEntry_below above below, Option.elim_none, List.map_cons, List.sum_cons]
        omega
      · split
        · rename_i same
          simp only [lookupEntry, if_pos same, Option.elim_some, List.map_cons, List.sum_cons]
          omega
        · rename_i different
          simp only [lookupEntry, if_neg different, List.map_cons, List.sum_cons]
          omega

/-- Setting a key trades the old value's measure for the new one's. -/
theorem total_insert (map : SortedMap κ α) (measure : α → Nat) (key : κ) (value : α) :
    (map.insert key value).total measure + (map.get key).elim 0 measure =
      map.total measure + measure value :=
  sum_insertEntry measure key value map.sorted

theorem total_retain_le (map : SortedMap κ α) (measure : α → Nat) (keep : κ → α → Bool) :
    (map.retain keep).total measure ≤ map.total measure := by
  obtain ⟨entries, sorted⟩ := map
  simp only [total, values, retain]
  clear sorted
  induction entries with
  | nil => exact Nat.le_refl _
  | cons head rest ih =>
      rw [List.filter_cons]
      split
      · simp only [List.map_cons, List.sum_cons]
        omega
      · simp only [List.map_cons, List.sum_cons]
        omega

theorem total_mapValues_le (map : SortedMap κ α) (measure : β → Nat) (bound : α → Nat)
    {change : α → β} (smaller : ∀ value, measure (change value) ≤ bound value) :
    (map.mapValues change).total measure ≤ map.total bound := by
  obtain ⟨entries, sorted⟩ := map
  simp only [total, values, mapValues, List.map_map]
  clear sorted
  induction entries with
  | nil => exact Nat.le_refl _
  | cons head rest ih =>
      have here := smaller head.2
      simp only [List.map_cons, List.sum_cons, Function.comp_apply] at ih ⊢
      omega

/-- Shrinking one list value shrinks the concatenation of all of them. -/
theorem flatten_insertEntry {key : κ} {part : List α} {entries : List (κ × List α)}
    (sorted : entries.Pairwise (fun left right => left.1 < right.1))
    (shrunk : part.Sublist ((lookupEntry key entries).getD [])) :
    ((insertEntry key part entries).map Prod.snd).flatten.Sublist
      (entries.map Prod.snd).flatten := by
  induction entries with
  | nil => simpa [insertEntry, lookupEntry] using shrunk
  | cons head rest ih =>
      obtain ⟨current, held⟩ := head
      obtain ⟨above, restSorted⟩ := List.pairwise_cons.mp sorted
      simp only [insertEntry]
      split
      · rename_i below
        rw [lookupEntry_below above below, Option.getD_none] at shrunk
        rw [List.eq_nil_of_sublist_nil shrunk]
        exact List.Sublist.refl _
      · split
        · rename_i same
          simp only [lookupEntry, if_pos same, Option.getD_some] at shrunk
          exact shrunk.append (List.Sublist.refl _)
        · rename_i different
          simp only [lookupEntry, if_neg different] at shrunk
          exact (List.Sublist.refl held).append (ih restSorted shrunk)

theorem insertEntry_perm {key : κ} {value : α} {entries : List (κ × α)}
    (fresh : lookupEntry key entries = none) :
    (insertEntry key value entries).Perm ((key, value) :: entries) := by
  induction entries with
  | nil => exact List.Perm.refl _
  | cons head rest ih =>
      obtain ⟨current, held⟩ := head
      by_cases hit : key = current
      · simp [lookupEntry, hit] at fresh
      · rw [lookupEntry, if_neg hit] at fresh
        rw [insertEntry, if_neg hit]
        split
        · exact List.Perm.refl _
        · exact ((ih fresh).cons _).trans (List.Perm.swap _ _ _)

theorem entries_insert_perm {map : SortedMap κ α} {key : κ} {value : α}
    (fresh : map.contains key = false) :
    (map.insert key value).entries.Perm ((key, value) :: map.entries) := by
  rw [contains_eq, Option.isSome_eq_false_iff, Option.isNone_iff_eq_none] at fresh
  exact insertEntry_perm fresh

end SortedMap

end SecurePubSub.Data
