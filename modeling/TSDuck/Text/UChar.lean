import TSDuck.Text.UTF8
import TSDuck.Xml.UString
import Mathlib.Algebra.Order.Ring.Int

/-!
# Characters and integers in strings

The characteristics of the characters, the conversion of a string into an integer and the one of an integer
into a string in decimal. `toInt64_decimal` states that a 64-bit integer is found again in its decimal
string, unless it is the smallest one, which has no opposite.

Scope. An overflow in the conversion of a string wraps around, as it does for an unsigned integer.
-/

namespace TSDuck

def LINE_FEED : UChar := 0x000A

def CARRIAGE_RETURN : UChar := 0x000D

def QUOTATION_MARK : UChar := 0x0022

def APOSTROPHE : UChar := 0x0027

def SOLIDUS : UChar := 0x002F

def REVERSE_SOLIDUS : UChar := 0x005C

def BACKSPACE : UChar := 0x0008

def FORM_FEED : UChar := 0x000C

def HORIZONTAL_TABULATION : UChar := 0x0009

namespace UChar

def isSpace (unit : UChar) : Bool := UString.spaceCodes.contains unit.toNat

def isDigit (unit : UChar) : Bool := 0x30 ≤ unit.toNat && unit.toNat ≤ 0x39

def isHexa (unit : UChar) : Bool :=
  isDigit unit || (0x41 ≤ unit.toNat && unit.toNat ≤ 0x46) ||
    (0x61 ≤ unit.toNat && unit.toNat ≤ 0x66)

def letterRanges : List (ℕ × ℕ) :=
  [(0x0041, 0x005A), (0x0061, 0x007A), (0x00C0, 0x00D6), (0x00D8, 0x00F6), (0x00F8, 0x0113),
    (0x0116, 0x012B), (0x012E, 0x0131), (0x0134, 0x013E), (0x0141, 0x0148), (0x014A, 0x014D),
    (0x0150, 0x017E), (0x0192, 0x0192), (0x0218, 0x021B), (0x02C6, 0x02C6), (0x0363, 0x036F),
    (0x0386, 0x0386), (0x0388, 0x038A), (0x038C, 0x038C), (0x038E, 0x03A1), (0x03A3, 0x03CE),
    (0x03D1, 0x03D2), (0x03D6, 0x03D6), (0x0401, 0x040C), (0x040E, 0x044F), (0x0451, 0x045C),
    (0x045E, 0x045F), (0x05D0, 0x05EA), (0x0621, 0x063A), (0x0641, 0x064A), (0x0E01, 0x0E3A),
    (0x0E40, 0x0E4F), (0x0E5A, 0x0E5B), (0x1E02, 0x1E03), (0x1E0A, 0x1E0B), (0x1E1E, 0x1E1F),
    (0x1E40, 0x1E41), (0x1E56, 0x1E57), (0x1E60, 0x1E61), (0x1E6A, 0x1E6B), (0x1E80, 0x1E85),
    (0x1EF2, 0x1EF3), (0x2111, 0x2111), (0x2118, 0x2118), (0x211C, 0x211C)]

def isAlpha (unit : UChar) : Bool :=
  letterRanges.any fun range ↦ range.1 ≤ unit.toNat && unit.toNat ≤ range.2

def toDigit (base : ℕ) (unit : UChar) : Option ℕ :=
  let digit :=
    if 0x30 ≤ unit.toNat ∧ unit.toNat ≤ 0x39 then some (unit.toNat - 0x30)
    else if 0x61 ≤ unit.toNat ∧ unit.toNat ≤ 0x7A then some (10 + (unit.toNat - 0x61))
    else if 0x41 ≤ unit.toNat ∧ unit.toNat ≤ 0x5A then some (10 + (unit.toNat - 0x41))
    else none
  digit.filter (· < base)

end UChar

namespace U16String

open UChar

def ofASCII (text : String) : U16String := text.toList.map fun char ↦ UInt16.ofNat char.toNat

def trim (text : U16String) : U16String := (text.dropWhile isSpace).rdropWhile isSpace

def decodeDigits (modulus base : ℕ) : U16String → ℕ → Option ℕ
  | [], value => some value
  | unit :: rest, value =>
    (toDigit base unit).bind fun digit ↦
      decodeDigits modulus base rest ((value * base + digit) % modulus)

def decodeUnsigned (modulus : ℕ) (text : U16String) : Option ℕ :=
  if text.head? = some 0x30 ∧ (text[1]? = some 0x78 ∨ text[1]? = some 0x58) then
    if text.length = 2 then none else decodeDigits modulus 16 (text.drop 2) 0
  else if text = [] then none
  else decodeDigits modulus 10 text 0

/-- Converts a string, after the sign, modulo some number. -/
def toInteger (isSigned : Bool) (modulus : ℕ) (text : U16String) : Option (Bool × ℕ) :=
  let trimmed := trim text
  if trimmed.head? = some 0x2B then
    (decodeUnsigned modulus (trimmed.drop 1)).map fun value ↦ (false, value)
  else if trimmed.head? = some 0x2D then
    if isSigned then (decodeUnsigned modulus (trimmed.drop 1)).map fun value ↦ (true, value)
    else none
  else (decodeUnsigned modulus trimmed).map fun value ↦ (false, value)

def toInt64 (text : U16String) : Option Int64 :=
  (toInteger true (2 ^ 64) text).map fun read ↦
    if read.1 then -Int64.ofNat read.2 else Int64.ofNat read.2

def toUChar (text : U16String) : Option UChar :=
  (toInteger false (2 ^ 16) text).map fun read ↦ UInt16.ofNat read.2

/-- The digits in reverse order, in a number of turns. -/
def decimalReversed : ℕ → ℤ → U16String
  | 0, _ => []
  | turns + 1, value =>
    if value = 0 then []
    else (0x30 + UInt16.ofInt (value.tmod 10)) :: decimalReversed turns (value.tdiv 10)

def decimal (value : Int64) : U16String :=
  let ivalue := if value < 0 then -value else value
  let digits := if ivalue = 0 then [0x30] else decimalReversed 20 ivalue.toInt
  (digits ++ if value < 0 then [0x2D] else []).reverse

/-! ### The round trip of an integer -/

theorem toDigit_digit {digit : ℕ} (hdigit : digit < 10) :
    isDigit (0x30 + UInt16.ofNat digit) = true ∧
      toDigit 10 (0x30 + UInt16.ofNat digit) = some digit := by
  have hall : ∀ digit < 10, isDigit (0x30 + UInt16.ofNat digit) = true ∧
      toDigit 10 (0x30 + UInt16.ofNat digit) = some digit := by
    decide
  exact hall digit hdigit

theorem of_isDigit {unit : UChar} (hdigit : isDigit unit = true) :
    isSpace unit = false ∧ unit ≠ 0x2B ∧ unit ≠ 0x2D ∧ unit ≠ 0x78 ∧ unit ≠ 0x58 := by
  have hall : ∀ code < 0x3A, 0x30 ≤ code → isSpace (UInt16.ofNat code) = false ∧
      UInt16.ofNat code ≠ 0x2B ∧ UInt16.ofNat code ≠ 0x2D ∧ UInt16.ofNat code ≠ 0x78 ∧
        UInt16.ofNat code ≠ 0x58 := by
    decide
  unfold isDigit at hdigit
  rw [Bool.and_eq_true, decide_eq_true_iff, decide_eq_true_iff] at hdigit
  have hcode := hall unit.toNat (by omega) hdigit.1
  rw [UInt16.ofNat_toNat] at hcode
  exact hcode

theorem decimalReversed_succ {value : ℕ} (hvalue : value ≠ 0) (turns : ℕ) :
    decimalReversed (turns + 1) value =
      (0x30 + UInt16.ofNat (value % 10)) :: decimalReversed turns (value / 10 : ℕ) := by
  have hquotient : (value : ℤ).tdiv 10 = (value / 10 : ℕ) := (Int.ofNat_tdiv value 10).symm
  have hremainder : (value : ℤ).tmod 10 = (value % 10 : ℕ) := (Int.ofNat_tmod value 10).symm
  have hdigit : UInt16.ofInt (value % 10 : ℕ) = UInt16.ofNat (value % 10) := by
    have hsmall : ((value % 10 : ℕ) : ℤ) % 2 ^ 16 = (value % 10 : ℕ) := by omega
    rw [UInt16.ofInt, hsmall, Int.toNat_natCast]
  rw [decimalReversed, if_neg (by omega), hquotient, hremainder, hdigit]

theorem isDigit_decimalReversed (turns : ℕ) (value : ℕ) :
    ∀ unit ∈ decimalReversed turns value, isDigit unit = true := by
  induction turns generalizing value with
  | zero => nofun
  | succ turns ih =>
    by_cases hvalue : value = 0
    · rw [hvalue]
      nofun
    · rw [decimalReversed_succ hvalue]
      intro unit hunit
      rcases List.mem_cons.mp hunit with rfl | hunit
      · exact (toDigit_digit (Nat.mod_lt _ (by decide))).1
      · exact ih _ unit hunit

theorem decodeDigits_decimalReversed {modulus : ℕ} (turns : ℕ) {value : ℕ} (hturns : value < 10 ^ turns)
    (hvalue : value < modulus) (rest : U16String) :
    decodeDigits modulus 10 ((decimalReversed turns value).reverse ++ rest) 0 =
      decodeDigits modulus 10 rest value := by
  induction turns generalizing value rest with
  | zero =>
    obtain rfl : value = 0 := by omega
    rfl
  | succ turns ih =>
    by_cases hzero : value = 0
    · rw [hzero]
      rfl
    · have hdigit := (toDigit_digit (Nat.mod_lt value (by decide : 10 > 0))).2
      have hsum : (value / 10 * 10 + value % 10) % modulus = value := by
        rw [Nat.div_add_mod']
        exact Nat.mod_eq_of_lt hvalue
      rw [pow_succ] at hturns
      rw [decimalReversed_succ hzero, List.reverse_cons, List.append_assoc,
        ih (by omega) (by omega), List.singleton_append, decodeDigits, hdigit, Option.bind_some, hsum]

theorem decimal_eq {value : Int64} (hvalue : value ≠ Int64.minValue) :
    ∃ digits : U16String, decimal value = (if value < 0 then [0x2D] else []) ++ digits ∧
      digits ≠ [] ∧ (∀ unit ∈ digits, isDigit unit = true) ∧
        decodeDigits (2 ^ 64) 10 digits 0 = some value.toInt.natAbs := by
  have hmin := value.minValue_le_toInt
  have hmax := value.toInt_lt
  rw [Int64.toInt_minValue] at hmin
  have hne : value.toInt ≠ -2 ^ 63 := fun h ↦ hvalue (Int64.toInt_inj.mp (h.trans rfl))
  have habs : (if value < 0 then -value else value).toInt = (value.toInt.natAbs : ℤ) := by
    by_cases hneg : value < 0
    · have hlt : value.toInt < 0 := Int64.lt_iff_toInt_lt.mp hneg
      rw [if_pos hneg, Int64.toInt_neg, Int.bmod_eq_of_le (by omega) (by omega)]
      omega
    · have hle : 0 ≤ value.toInt := Int64.le_iff_toInt_le.mp (Int64.not_lt.mp hneg)
      rw [if_neg hneg]
      omega
  have hzero : (if value < 0 then -value else value) = 0 ↔ value.toInt.natAbs = 0 := by
    rw [← Int64.toInt_inj, habs]
    show (_ : ℤ) = 0 ↔ _
    omega
  unfold decimal
  dsimp only
  by_cases hvanish : value.toInt.natAbs = 0
  · refine ⟨[0x30], ?_, List.cons_ne_nil _ _, List.all_eq_true.mp rfl, ?_⟩
    · rw [if_pos (hzero.mpr hvanish), List.reverse_append]
      split_ifs <;> rfl
    · rw [hvanish]
      rfl
  · have hdecode := decodeDigits_decimalReversed 20 (show value.toInt.natAbs < 10 ^ 20 by omega)
      (show value.toInt.natAbs < 2 ^ 64 by omega) []
    rw [List.append_nil] at hdecode
    refine ⟨(decimalReversed 20 value.toInt.natAbs).reverse, ?_, ?_, ?_, hdecode⟩
    · rw [if_neg (fun h ↦ hvanish (hzero.mp h)), List.reverse_append, habs]
      split_ifs <;> rfl
    · rw [decimalReversed_succ hvanish, List.reverse_cons]
      exact List.append_ne_nil_of_right_ne_nil _ (List.cons_ne_nil _ _)
    · intro unit hunit
      exact isDigit_decimalReversed 20 _ unit (List.mem_reverse.mp hunit)

theorem trim_eq_self {text : U16String} (htext : ∀ unit ∈ text, isSpace unit = false) :
    trim text = text := by
  have hkeep : ∀ text : U16String, (∀ unit ∈ text, isSpace unit = false) →
      text.dropWhile isSpace = text := by
    intro text htext
    cases text with
    | nil => rfl
    | cons unit rest =>
      rw [List.dropWhile_cons_of_neg (by rw [htext unit List.mem_cons_self]; decide)]
  unfold trim
  rw [hkeep text htext, List.rdropWhile,
    hkeep _ (fun unit hunit ↦ htext unit (List.mem_reverse.mp hunit)), List.reverse_reverse]

theorem toInt64_decimal {value : Int64} (hvalue : value ≠ Int64.minValue) :
    toInt64 (decimal value) = some value := by
  obtain ⟨digits, hdecimal, hne, hdigits, hdecode⟩ := decimal_eq hvalue
  have hunsigned : decodeUnsigned (2 ^ 64) digits = some value.toInt.natAbs := by
    obtain ⟨first, rest, rfl⟩ := List.exists_cons_of_ne_nil hne
    have hlead : ¬ (rest[0]? = some 0x78 ∨ rest[0]? = some 0x58) := by
      rintro (h | h)
      · exact (of_isDigit (hdigits _ (List.mem_cons_of_mem _ (List.mem_of_getElem? h)))).2.2.2.1 rfl
      · exact (of_isDigit (hdigits _ (List.mem_cons_of_mem _ (List.mem_of_getElem? h)))).2.2.2.2 rfl
    unfold decodeUnsigned
    rw [if_neg (fun h ↦ hlead h.2), if_neg hne, hdecode]
  have htrim : trim (decimal value) = decimal value := by
    apply trim_eq_self
    rw [hdecimal]
    intro unit hunit
    rcases List.mem_append.mp hunit with hunit | hunit
    · split_ifs at hunit
      · rw [List.mem_singleton.mp hunit]
        rfl
      · cases hunit
    · exact (of_isDigit (hdigits unit hunit)).1
  unfold toInt64 toInteger
  rw [htrim, hdecimal]
  by_cases hneg : value < 0
  · have hlt : value.toInt < 0 := Int64.lt_iff_toInt_lt.mp hneg
    have hnatural : -((value.toInt.natAbs : ℕ) : ℤ) = value.toInt := by omega
    have hopposite : -Int64.ofNat value.toInt.natAbs = value := by
      rw [Int64.neg_ofNat, hnatural, Int64.ofInt_toInt]
    rw [if_pos hneg, List.singleton_append]
    show Option.map _ ((decodeUnsigned (2 ^ 64) digits).map _) = _
    rw [hunsigned]
    exact congrArg some hopposite
  · have hle : 0 ≤ value.toInt := Int64.le_iff_toInt_le.mp (Int64.not_lt.mp hneg)
    have hnatural : ((value.toInt.natAbs : ℕ) : ℤ) = value.toInt := by omega
    have hsame : Int64.ofNat value.toInt.natAbs = value := by
      rw [← Int64.ofInt_eq_ofNat, hnatural, Int64.ofInt_toInt]
    obtain ⟨first, rest, rfl⟩ := List.exists_cons_of_ne_nil hne
    obtain ⟨-, hplus, hminus, -⟩ := of_isDigit (hdigits first List.mem_cons_self)
    have hhead : ∀ sign : UChar, first ≠ sign → (first :: rest).head? ≠ some sign :=
      fun sign hsign h ↦ hsign (Option.some.inj h)
    rw [if_neg hneg, List.nil_append, if_neg (hhead _ hplus), if_neg (hhead _ hminus), hunsigned]
    exact congrArg some hsame

end U16String

end TSDuck
