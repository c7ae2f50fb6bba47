import Mathlib.Algebra.Group.Nat.Defs
import Mathlib.Data.List.Basic

/-!
# Characters in UTF-16 and in UTF-8

A character is one or two codes in UTF-16, a pair of surrogates when it is above 0xFFFF, and one to
four bytes in UTF-8. A string in UTF-16 is well formed when it is made of the codes of some
characters (`IsWellFormed`).
-/

namespace Unicode

def utf16 (code : ℕ) : List UInt16 :=
  if code < 0x10000 then [UInt16.ofNat code]
  else
    [UInt16.ofNat (0xD800 + (code - 0x10000) / 0x400),
      UInt16.ofNat (0xDC00 + (code - 0x10000) % 0x400)]

def utf8 (code : ℕ) : List UInt8 :=
  if code < 0x80 then [UInt8.ofNat code]
  else if code < 0x800 then
    [UInt8.ofNat (0xC0 + code / 0x40), UInt8.ofNat (0x80 + code % 0x40)]
  else if code < 0x10000 then
    [UInt8.ofNat (0xE0 + code / 0x1000), UInt8.ofNat (0x80 + code / 0x40 % 0x40),
      UInt8.ofNat (0x80 + code % 0x40)]
  else
    [UInt8.ofNat (0xF0 + code / 0x40000), UInt8.ofNat (0x80 + code / 0x1000 % 0x40),
      UInt8.ofNat (0x80 + code / 0x40 % 0x40), UInt8.ofNat (0x80 + code % 0x40)]

def encode16 (chars : List Char) : List UInt16 :=
  chars.flatMap fun char ↦ utf16 char.toNat

def encode8 (chars : List Char) : List UInt8 :=
  chars.flatMap fun char ↦ utf8 char.toNat

/-- A string in UTF-16 that is made of the codes of characters. -/
def IsWellFormed (codes : List UInt16) : Prop :=
  ∃ chars : List Char, codes = encode16 chars

/-- The code of a character: not a surrogate, and at most 0x10FFFF. -/
theorem toNat_cases (char : Char) :
    char.toNat < 0xD800 ∨ 0xDFFF < char.toNat ∧ char.toNat < 0x110000 :=
  char.valid

theorem utf16_ne_nil (code : ℕ) : utf16 code ≠ [] := by
  unfold utf16
  split_ifs <;> exact List.cons_ne_nil _ _

theorem utf8_ne_nil (code : ℕ) : utf8 code ≠ [] := by
  unfold utf8
  split_ifs <;> exact List.cons_ne_nil _ _

theorem and_mask (value width : ℕ) : value &&& (2 ^ width - 1) = value % 2 ^ width :=
  Nat.and_two_pow_sub_one_eq_mod value width

theorem or_low (high : ℕ) {low width : ℕ} (hlow : low < 2 ^ width) :
    2 ^ width * high ||| low = 2 ^ width * high + low :=
  (Nat.two_pow_add_eq_or_of_lt hlow high).symm

/-- The high bits of a value of a limited width are those of its quotient. -/
theorem and_high {value low high : ℕ} (hvalue : value < 2 ^ (low + high)) :
    value &&& (2 ^ low * (2 ^ high - 1)) = 2 ^ low * (value / 2 ^ low) := by
  have hquotient : value / 2 ^ low < 2 ^ high := by
    rw [Nat.div_lt_iff_lt_mul (Nat.two_pow_pos low), ← Nat.pow_add, Nat.add_comm high low]
    exact hvalue
  apply Nat.eq_of_testBit_eq
  intro index
  rw [Nat.testBit_and, Nat.testBit_two_pow_mul, Nat.testBit_two_pow_mul, Nat.testBit_two_pow_sub_one,
    Nat.testBit_div_two_pow]
  by_cases hindex : low ≤ index
  · have hsum : index - low + low = index := by omega
    simp only [hindex, decide_true, Bool.true_and, hsum]
    by_cases hwide : index - low < high
    · simp [hwide]
    · have hzero : value.testBit index = false := by
        apply Nat.testBit_lt_two_pow
        apply Nat.lt_of_lt_of_le hvalue
        apply Nat.pow_le_pow_right (by decide)
        omega
      simp [hzero]
  · simp [hindex]

end Unicode
