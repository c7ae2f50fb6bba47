import Mathlib.Data.List.Basic
import Mathlib.Data.Nat.Bitwise
import Mathlib.Data.Nat.ModEq
import Mathlib.Tactic.Ring

/-!
# Strings of bits

A string of bits is read from its most significant bit on. `valueOf` is its value, and `byteBits`
are the bits of a byte.

An Exp-Golomb code is a number of zeros, a one, and as many bits as there are zeros.
-/

namespace BitString

def valueOf (bits : List Bool) : ℕ :=
  bits.foldl (fun value bit ↦ 2 * value + bit.toNat) 0

theorem foldl_valueOf (bits : List Bool) (value : ℕ) :
    bits.foldl (fun value bit ↦ 2 * value + bit.toNat) value =
      value * 2 ^ bits.length + valueOf bits := by
  induction bits generalizing value with
  | nil => simp [valueOf]
  | cons bit rest ih =>
    have hcons : valueOf (bit :: rest) = bit.toNat * 2 ^ rest.length + valueOf rest := by
      rw [valueOf, List.foldl_cons, ih, Nat.mul_zero, Nat.zero_add]
    rw [List.foldl_cons, ih, hcons, List.length_cons, pow_succ]
    ring

theorem valueOf_append (bits others : List Bool) :
    valueOf (bits ++ others) = valueOf bits * 2 ^ others.length + valueOf others := by
  rw [valueOf, List.foldl_append, foldl_valueOf]
  rfl

@[simp] theorem valueOf_singleton (bit : Bool) : valueOf [bit] = bit.toNat :=
  Nat.zero_add _

def byteBits (byte : UInt8) : List Bool :=
  (List.range 8).map fun index ↦ byte.toNat.testBit (7 - index)

@[simp] theorem length_byteBits (byte : UInt8) : (byteBits byte).length = 8 :=
  rfl

theorem valueOf_byteBits (byte : UInt8) : valueOf (byteBits byte) = byte.toNat := by
  have hall : ∀ value < 256,
      valueOf ((List.range 8).map fun index ↦ value.testBit (7 - index)) = value := by
    decide +kernel
  exact hall byte.toNat byte.toNat_lt

def bitsOf (bytes : List UInt8) : List Bool :=
  bytes.flatMap byteBits

@[simp] theorem length_bitsOf (bytes : List UInt8) : (bitsOf bytes).length = 8 * bytes.length := by
  induction bytes with
  | nil => rfl
  | cons byte rest ih =>
    rw [bitsOf, List.flatMap_cons, List.length_append, length_byteBits, List.length_cons]
    rw [bitsOf] at ih
    rw [ih]
    omega

theorem bitsOf_cons (byte : UInt8) (rest : List UInt8) :
    bitsOf (byte :: rest) = byteBits byte ++ bitsOf rest :=
  rfl

/-- A bit of the first byte. -/
theorem drop_bitsOf_cons (byte : UInt8) (rest : List UInt8) {index : ℕ} (hindex : index < 8) :
    (bitsOf (byte :: rest)).drop index =
      byte.toNat.testBit (7 - index) :: (bitsOf (byte :: rest)).drop (index + 1) := by
  rw [bitsOf_cons, List.drop_append_of_le_length (by rw [length_byteBits]; exact hindex.le),
    List.drop_append_of_le_length (by rw [length_byteBits]; exact hindex),
    List.drop_eq_getElem_cons (by rw [length_byteBits]; exact hindex), List.cons_append]
  simp [byteBits]

def splitAtOne : ℕ → List Bool → Option (ℕ × List Bool)
  | _, [] => none
  | zeros, true :: rest => some (zeros, rest)
  | zeros, false :: rest => splitAtOne (zeros + 1) rest

theorem le_of_splitAtOne {zeros : ℕ} {bits : List Bool} {split : ℕ × List Bool}
    (hsplit : splitAtOne zeros bits = some split) : zeros ≤ split.1 := by
  induction bits generalizing zeros with
  | nil => cases hsplit
  | cons bit rest ih =>
    cases bit with
    | true =>
      cases hsplit
      exact le_rfl
    | false => exact (Nat.le_succ zeros).trans (ih hsplit)

/-- The number of the first Exp-Golomb code. -/
def codeNum (zeros : ℕ) (rest : List Bool) : ℕ :=
  2 ^ zeros - 1 + valueOf (rest.take zeros)

end BitString
