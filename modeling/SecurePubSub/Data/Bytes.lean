import Mathlib.Algebra.GroupWithZero.Nat
import Mathlib.Data.List.Induction
import Mathlib.Data.List.Lex
import Mathlib.Order.Basic

namespace SecurePubSub.Data

/-! Byte strings, byte arrays of a fixed width and big-endian numbers.

Nothing here knows a wire format. A fixed-width array carries its length, so a
parser that produces one has already checked it, and arrays of one width are
ordered lexicographically by unsigned byte value.
-/

abbrev Bytes := List UInt8

/-- A byte array whose length is part of its type. -/
structure FixedBytes (width : Nat) where
  bytes : Bytes
  length_eq : bytes.length = width

namespace FixedBytes

variable {width : Nat}

@[ext] theorem ext {left right : FixedBytes width} (same : left.bytes = right.bytes) :
    left = right := by
  cases left
  cases right
  simpa using same

@[simp] theorem length_bytes (array : FixedBytes width) : array.bytes.length = width :=
  array.length_eq

theorem octets_injective :
    Function.Injective (fun array : FixedBytes width => array.bytes.map UInt8.toNat) := by
  intro left right same
  have injective : Function.Injective UInt8.toNat := fun _ _ equal => UInt8.toNat_inj.mp equal
  exact FixedBytes.ext (List.map_injective_iff.mpr injective same)

/-- Lexicographic order by unsigned byte value. -/
instance : LinearOrder (FixedBytes width) :=
  LinearOrder.lift' (fun array => array.bytes.map UInt8.toNat) octets_injective

def fill (width : Nat) (byte : UInt8) : FixedBytes width :=
  ⟨List.replicate width byte, List.length_replicate⟩

/-- Conversion of a slice, which fails on any other length. -/
def ofSlice? (width : Nat) (slice : Bytes) : Option (FixedBytes width) :=
  if exact : slice.length = width then some ⟨slice, exact⟩ else none

@[simp] theorem ofSlice?_bytes (array : FixedBytes width) :
    ofSlice? width array.bytes = some array := by
  simp [ofSlice?]

theorem ofSlice?_eq_some {slice : Bytes} {array : FixedBytes width}
    (converted : ofSlice? width slice = some array) : array.bytes = slice := by
  simp only [ofSlice?] at converted
  split at converted
  · cases converted; rfl
  · contradiction

end FixedBytes

/-- The big-endian encoding of a number in a fixed number of bytes. -/
def beBytes : Nat → Nat → Bytes
  | 0, _ => []
  | width + 1, value => beBytes width (value / 256) ++ [UInt8.ofNat value]

/-- The number a big-endian byte string denotes. -/
def beNat (bytes : Bytes) : Nat :=
  bytes.foldl (fun high byte => high * 256 + byte.toNat) 0

@[simp] theorem beBytes_length (width value : Nat) : (beBytes width value).length = width := by
  induction width generalizing value with
  | zero => rfl
  | succ width ih => simp [beBytes, ih]

@[simp] theorem beNat_nil : beNat [] = 0 := rfl

@[simp] theorem beNat_snoc (bytes : Bytes) (byte : UInt8) :
    beNat (bytes ++ [byte]) = beNat bytes * 256 + byte.toNat := by
  simp [beNat]

theorem beNat_beBytes (width : Nat) {value : Nat} (bounded : value < 256 ^ width) :
    beNat (beBytes width value) = value := by
  induction width generalizing value with
  | zero => simp at bounded; simp [beBytes, bounded]
  | succ width ih =>
      have high : value / 256 < 256 ^ width := by
        rw [Nat.pow_succ] at bounded
        omega
      simp only [beBytes, beNat_snoc, ih high, UInt8.toNat_ofNat', Nat.reducePow]
      omega

theorem beBytes_beNat (bytes : Bytes) : beBytes bytes.length (beNat bytes) = bytes := by
  induction bytes using List.reverseRecOn with
  | nil => rfl
  | append_singleton bytes byte ih =>
      have low := byte.toNat_lt
      have high : (beNat bytes * 256 + byte.toNat) / 256 = beNat bytes := by omega
      have digit : UInt8.ofNat (beNat bytes * 256 + byte.toNat) = byte := by
        apply UInt8.toNat_inj.mp
        simp only [UInt8.toNat_ofNat', Nat.reducePow]
        omega
      simp only [List.length_append, List.length_singleton, beBytes, beNat_snoc, high, ih, digit]

theorem beNat_lt (bytes : Bytes) : beNat bytes < 256 ^ bytes.length := by
  induction bytes using List.reverseRecOn with
  | nil => simp
  | append_singleton bytes byte ih =>
      have low := byte.toNat_lt
      rw [beNat_snoc, List.length_append, List.length_singleton, Nat.pow_succ]
      omega

end SecurePubSub.Data
