import TSDuck.Text.IntegerParser
import Mathlib.Data.Nat.Digits.Lemmas

/-!
# Integers of any type in decimal

`decimalOf` formats an integer of some type in decimal: its digits in groups of three with a
separator, a sign, and a padding on the left or on the right.

`roundTrips_iff` gives the values and separators for which the string is converted into the integer:
all values but this smallest one, when the separator has no digit.

Scope. See `IntType`. An overflow wraps around, also in a signed type.
-/

namespace TSDuck

namespace U16String

open UChar

/-- The digits in reverse order, after some digits. -/
def separatedReversed (separator : U16String) : ℕ → ℕ → ℤ → U16String
  | 0, _, _ => []
  | turns + 1, count, value =>
    if value = 0 then []
    else
      let next := value.tdiv 10
      (0x30 + UInt16.ofInt (value.tmod 10)) ::
        ((if (count + 1) % 3 = 0 ∧ next ≠ 0 then separator else []) ++
          separatedReversed separator turns (count + 1) next)

/-- An integer has no more digits than bits. -/
def decimalOf (type : IntType) (value : ℤ) (minWidth : ℕ) (rightJustified : Bool)
    (separator : U16String) (forceSign : Bool) (pad : UChar) : U16String :=
  let negative := decide (value ≠ 0 ∧ value < 1)
  let ivalue := if negative then type.wrap (-value) else value
  let digits :=
    if ivalue = 0 then [0x30] else separatedReversed separator.reverse type.width 0 ivalue
  let sign := if negative then [0x2D] else if forceSign then [0x2B] else []
  let text := (digits ++ sign).reverse
  if text.length < minWidth then
    let padding := List.replicate (minWidth - text.length) pad
    if rightJustified then padding ++ text else text ++ padding
  else text

/-! ### The groups of digits -/

/-- The digits in groups, after some digits. -/
def grouped {Unit : Type*} (written : ℕ → List Unit) (separator : List Unit) :
    ℕ → List ℕ → List Unit
  | _, [] => []
  | count, digit :: digits =>
    written digit ++ ((if (count + 1) % 3 = 0 ∧ digits ≠ [] then separator else []) ++
      grouped written separator (count + 1) digits)

section Grouped

variable {Unit Other : Type*} (written : ℕ → List Unit) (separator : List Unit)

theorem filterMap_grouped (change : Unit → Option Other) (count : ℕ) (digits : List ℕ) :
    (grouped written separator count digits).filterMap change =
      grouped (fun digit ↦ (written digit).filterMap change) (separator.filterMap change) count
        digits := by
  induction digits generalizing count with
  | nil => rfl
  | cons digit digits ih =>
    rw [grouped, grouped, List.filterMap_append, List.filterMap_append, ih]
    split_ifs <;> rfl

theorem mem_grouped {unit : Unit} {count : ℕ} {digits : List ℕ}
    (hunit : unit ∈ grouped written separator count digits) :
    (∃ digit ∈ digits, unit ∈ written digit) ∨ unit ∈ separator := by
  induction digits generalizing count with
  | nil => cases hunit
  | cons digit digits ih =>
    rw [grouped, List.mem_append, List.mem_append] at hunit
    obtain hunit | hunit | hunit := hunit
    · exact .inl ⟨digit, List.mem_cons_self, hunit⟩
    · split_ifs at hunit
      · exact .inr hunit
      · cases hunit
    · obtain ⟨other, hother, hwritten⟩ | hseparator := ih hunit
      · exact .inl ⟨other, List.mem_cons_of_mem _ hother, hwritten⟩
      · exact .inr hseparator

theorem mem_grouped_of_mem {unit : Unit} {digit : ℕ} (count : ℕ) {digits : List ℕ}
    (hdigit : digit ∈ digits) (hunit : unit ∈ written digit) :
    unit ∈ grouped written separator count digits := by
  induction digits generalizing count with
  | nil => cases hdigit
  | cons first digits ih =>
    rw [grouped, List.mem_append, List.mem_append]
    obtain rfl | hothers := List.mem_cons.mp hdigit
    · exact .inl hunit
    · exact .inr (.inr (ih _ hothers))

theorem grouped_nil (count : ℕ) (digits : List ℕ) :
    grouped written [] count digits = digits.flatMap written := by
  induction digits generalizing count with
  | nil => rfl
  | cons digit digits ih =>
    rw [grouped, ih, ite_self, List.nil_append, List.flatMap_cons]

theorem grouped_of_length_le {digits : List ℕ} (hlength : digits.length ≤ 3) :
    grouped written separator 0 digits = digits.flatMap written := by
  match digits, hlength with
  | [], _ => rfl
  | [_], _ => simp [grouped]
  | [_, _], _ => simp [grouped]
  | [_, _, _], _ => simp [grouped]

end Grouped

/-- The character of a positive or a negative remainder. -/
def writtenUnit (negative : Bool) (digit : ℕ) : UChar :=
  0x30 + UInt16.ofInt (signed negative digit)

theorem separatedReversed_eq (separator : U16String) (negative : Bool) (turns count : ℕ) {value : ℕ}
    (hturns : value < 10 ^ turns) :
    separatedReversed separator turns count (signed negative value) =
      grouped (fun digit ↦ [writtenUnit negative digit]) separator count (Nat.digits 10 value) := by
  induction turns generalizing count value with
  | zero =>
    obtain rfl : value = 0 := by omega
    rw [Nat.digits_zero]
    rfl
  | succ turns ih =>
    by_cases hzero : value = 0
    · subst hzero
      rw [Nat.digits_zero, separatedReversed, if_pos (by cases negative <;> rfl)]
      rfl
    · have hquotient : (signed negative value).tdiv 10 = signed negative (value / 10) := by
        cases negative with
        | false => exact (Int.ofNat_tdiv value 10).symm
        | true =>
          show (-(value : ℤ)).tdiv 10 = -((value / 10 : ℕ) : ℤ)
          rw [Int.neg_tdiv]
          exact congrArg _ (Int.ofNat_tdiv value 10).symm
      have hremainder : (signed negative value).tmod 10 = signed negative (value % 10) := by
        cases negative with
        | false => exact (Int.ofNat_tmod value 10).symm
        | true =>
          show (-(value : ℤ)).tmod 10 = -((value % 10 : ℕ) : ℤ)
          rw [Int.neg_tmod]
          exact congrArg _ (Int.ofNat_tmod value 10).symm
      have hsigned (number : ℕ) : signed negative number = 0 ↔ number = 0 := by
        rw [signed]
        split_ifs <;> omega
      have hdigits : Nat.digits 10 (value / 10) = [] ↔ value / 10 = 0 :=
        Nat.digits_eq_nil_iff_eq_zero
      rw [pow_succ] at hturns
      have hvalue : Nat.digits 10 value = value % 10 :: Nat.digits 10 (value / 10) :=
        Nat.digits_def' (by decide) (Nat.pos_of_ne_zero hzero)
      have hrest := ih (count + 1) (show value / 10 < 10 ^ turns by omega)
      rw [separatedReversed, if_neg (fun h ↦ hzero ((hsigned value).mp h)), hquotient, hremainder]
      dsimp only
      rw [hrest, hvalue, grouped]
      simp only [ne_eq, hsigned, hdigits]
      rfl

/-! ### What is written -/

def decimalDigits (number : ℕ) : List ℕ := if number = 0 then [0] else Nat.digits 10 number

theorem decimalDigits_lt {number digit : ℕ} (hdigit : digit ∈ decimalDigits number) :
    digit < 10 := by
  rw [decimalDigits] at hdigit
  split_ifs at hdigit
  · rw [List.mem_singleton.mp hdigit]
    decide
  · exact Nat.digits_lt_base (by decide) hdigit

theorem ofDigits_decimalDigits (number : ℕ) : Nat.ofDigits 10 (decimalDigits number) = number := by
  rw [decimalDigits]
  split_ifs with hzero
  · rw [hzero]
    rfl
  · exact Nat.ofDigits_digits 10 number

theorem decimalDigits_ne_nil (number : ℕ) : decimalDigits number ≠ [] := by
  rw [decimalDigits]
  split_ifs with hzero
  · exact List.cons_ne_nil _ _
  · exact Nat.digits_ne_nil_iff_ne_zero.mpr hzero

def isSmallest (type : IntType) (value : ℤ) : Bool :=
  type.isSigned && decide (value = type.minValue)

def writtenReversed (type : IntType) (separator : U16String) (value : ℤ) : U16String :=
  grouped (fun digit ↦ [writtenUnit (isSmallest type value) digit]) separator.reverse 0
    (decimalDigits value.natAbs)

def writtenSign (value : ℤ) (forceSign : Bool) : U16String :=
  if value < 0 then [0x2D] else if forceSign then [0x2B] else []

theorem neg_of_isSmallest (type : IntType) {value : ℤ} (hsmallest : isSmallest type value = true) :
    value < 0 := by
  rw [isSmallest, Bool.and_eq_true, decide_eq_true_iff, IntType.minValue] at hsmallest
  rw [hsmallest.2, if_pos hsmallest.1]
  exact neg_neg_of_pos (Int.pow_pos (by decide))

section Written

variable (type : IntType) {value : ℤ} (hvalue : type.InRange value)

theorem size_eq : type.size = 2 * 2 ^ (type.width - 1) := by
  rw [IntType.size, ← pow_succ']
  congr 1
  have hwidth := type.width_ge
  omega

include hvalue

theorem ivalue_eq :
    (if decide (value ≠ 0 ∧ value < 1) = true then type.wrap (-value) else value) =
      signed (isSmallest type value) value.natAbs := by
  have hhalf : (0 : ℤ) < 2 ^ (type.width - 1) := Int.pow_pos (by decide)
  have hsize := size_eq type
  obtain ⟨hmin, hmax⟩ := hvalue
  by_cases hnegative : value ≠ 0 ∧ value < 1
  · rw [if_pos (decide_eq_true hnegative), signed, isSmallest]
    by_cases hsigned : type.isSigned = true
    · have hminValue : type.minValue = -2 ^ (type.width - 1) := by
        rw [IntType.minValue, if_pos hsigned]
      by_cases hsmallest : value = type.minValue
      · rw [hsigned, decide_eq_true hsmallest, Bool.and_self, if_pos rfl]
        have hmod : -value ≡ value [ZMOD type.size] := by
          rw [hsmallest, hminValue, hsize]
          apply Int.modEq_of_dvd
          exact ⟨-1, by ring⟩
        have hwrap : type.wrap (-value) = type.wrap value := type.wrap_eq_wrap_iff.mpr hmod
        rw [hwrap, type.wrap_of_inRange ⟨hmin, hmax⟩]
        omega
      · have hrange : type.InRange (-value) := by
          rw [IntType.InRange]
          omega
        rw [hsigned, decide_eq_false hsmallest, Bool.and_false, if_neg Bool.false_ne_true,
          type.wrap_of_inRange hrange]
        omega
    · have hminValue : type.minValue = 0 := by
        rw [IntType.minValue, if_neg hsigned]
      omega
  · have hsmallest : isSmallest type value = false := by
      rw [isSmallest, Bool.and_eq_false_iff, decide_eq_false_iff_not, IntType.minValue]
      by_cases hsigned : type.isSigned = true
      · right
        rw [if_pos hsigned]
        omega
      · exact .inl (Bool.eq_false_iff.mpr hsigned)
    rw [if_neg (by rw [decide_eq_true_iff]; exact hnegative), hsmallest, signed,
      if_neg Bool.false_ne_true]
    omega

theorem natAbs_lt : value.natAbs < 10 ^ type.width := by
  have hpow : 2 ^ type.width ≤ 10 ^ type.width := Nat.pow_le_pow_left (by decide) _
  have hsize : type.size = (2 ^ type.width : ℕ) := by
    rw [IntType.size]
    push_cast
    rfl
  have hhalf : (0 : ℤ) < 2 ^ (type.width - 1) := Int.pow_pos (by decide)
  have hdouble := size_eq type
  obtain ⟨hmin, hmax⟩ := hvalue
  rw [IntType.minValue] at hmin hmax
  split_ifs at hmin hmax <;> omega

theorem decimalOf_padded (minWidth : ℕ) (rightJustified : Bool) (separator : U16String)
    (forceSign : Bool) (pad : UChar) :
    decimalOf type value minWidth rightJustified separator forceSign pad =
      let text := writtenSign value forceSign ++ (writtenReversed type separator value).reverse
      if text.length < minWidth then
        let padding := List.replicate (minWidth - text.length) pad
        if rightJustified then padding ++ text else text ++ padding
      else text := by
  have hdigits : (if signed (isSmallest type value) value.natAbs = 0 then ([0x30] : U16String)
      else separatedReversed separator.reverse type.width 0
        (signed (isSmallest type value) value.natAbs)) = writtenReversed type separator value := by
    rw [separatedReversed_eq _ _ _ _ (natAbs_lt type hvalue), writtenReversed, decimalDigits]
    have hsigned : signed (isSmallest type value) value.natAbs = 0 ↔ value.natAbs = 0 := by
      rw [signed]
      split_ifs <;> omega
    by_cases hzero : value.natAbs = 0
    · rw [if_pos (hsigned.mpr hzero), if_pos hzero]
      cases isSmallest type value <;> rfl
    · rw [if_neg (fun h ↦ hzero (hsigned.mp h)), if_neg hzero]
  have hsign : (if decide (value ≠ 0 ∧ value < 1) = true then ([0x2D] : U16String)
      else if forceSign then [0x2B] else []) = writtenSign value forceSign := by
    have hiff : value ≠ 0 ∧ value < 1 ↔ value < 0 := by omega
    rw [writtenSign]
    simp only [hiff, decide_eq_true_iff]
  have hreverse : (writtenReversed type separator value ++ writtenSign value forceSign).reverse =
      writtenSign value forceSign ++ (writtenReversed type separator value).reverse := by
    rw [List.reverse_append]
    congr 1
    rw [writtenSign]
    split_ifs <;> rfl
  rw [decimalOf]
  dsimp only
  rw [ivalue_eq type hvalue, hdigits, hsign, hreverse]

theorem decimalOf_eq (minWidth : ℕ) (rightJustified : Bool) (separator : U16String)
    (forceSign : Bool) (pad : UChar) :
    ∃ before after : ℕ, decimalOf type value minWidth rightJustified separator forceSign pad =
      List.replicate before pad ++
        (writtenSign value forceSign ++ (writtenReversed type separator value).reverse) ++
          List.replicate after pad := by
  rw [decimalOf_padded type hvalue]
  dsimp only
  split_ifs
  · exact ⟨_, 0, (List.append_nil _).symm⟩
  · exact ⟨0, _, rfl⟩
  · exact ⟨0, 0, (List.append_nil _).symm⟩

end Written

/-! ### The ends of what is written -/

/-- No remainder is written as a space, and only zero as zero. -/
theorem writtenUnit_spec (negative : Bool) {digit : ℕ} (hdigit : digit < 10) :
    isSpace (writtenUnit negative digit) = false ∧ (writtenUnit negative digit = 0x30 ↔ digit = 0) ∧
      toDigit 10 (writtenUnit negative digit) =
        if negative = true ∧ digit ≠ 0 then none else some digit := by
  have hall : ∀ negative : Bool, ∀ digit < 10, isSpace (writtenUnit negative digit) = false ∧
      (writtenUnit negative digit = 0x30 ↔ digit = 0) ∧
      toDigit 10 (writtenUnit negative digit) =
        if negative = true ∧ digit ≠ 0 then none else some digit := by
    decide
  exact hall negative digit hdigit

theorem writtenUnit_ne_sign {digit : ℕ} (hdigit : digit < 10) :
    writtenUnit false digit ≠ 0x2B ∧ writtenUnit false digit ≠ 0x2D := by
  have hall : ∀ digit < 10, writtenUnit false digit ≠ 0x2B ∧ writtenUnit false digit ≠ 0x2D := by
    decide
  exact hall digit hdigit

theorem exists_grouped_eq {Unit : Type*} (written : ℕ → List Unit) (separator : List Unit)
    (count : ℕ) {digits : List ℕ} (hdigits : digits ≠ []) :
    ∃ front, grouped written separator count digits = front ++ written (digits.getLast hdigits) := by
  induction digits generalizing count with
  | nil => exact absurd rfl hdigits
  | cons digit digits ih =>
    rw [grouped]
    cases digits with
    | nil => exact ⟨[], by simp [grouped]⟩
    | cons next digits =>
      obtain ⟨front, hfront⟩ := ih (count + 1) (List.cons_ne_nil _ _)
      rw [hfront, List.getLast_cons (List.cons_ne_nil _ _), ← List.append_assoc, ← List.append_assoc]
      exact ⟨_, rfl⟩

section Ends

variable (type : IntType) (separator : U16String) (value : ℤ)

theorem exists_reverse_writtenReversed :
    ∃ (first : ℕ) (rest : U16String), first < 10 ∧ (writtenReversed type separator value).reverse =
        writtenUnit (isSmallest type value) first :: rest ∧
      (first = 0 → rest = []) := by
  have hdigits := decimalDigits_ne_nil value.natAbs
  obtain ⟨front, hfront⟩ := exists_grouped_eq
    (fun digit ↦ [writtenUnit (isSmallest type value) digit]) separator.reverse 0 hdigits
  refine ⟨(decimalDigits value.natAbs).getLast hdigits, front.reverse,
    decimalDigits_lt (List.getLast_mem hdigits), ?_, ?_⟩
  · rw [writtenReversed, hfront, List.reverse_append]
    rfl
  · intro hzero
    by_cases hvalue : value.natAbs = 0
    · have hlength := congrArg List.length hfront
      have hone : decimalDigits value.natAbs = [0] := by rw [decimalDigits, if_pos hvalue]
      rw [List.length_append, List.length_singleton, hone] at hlength
      have hfrontLength : front.length = 0 := (Nat.succ.inj hlength).symm
      rw [List.length_eq_zero_iff.mp hfrontLength]
      rfl
    · have hne := Nat.getLast_digit_ne_zero 10 hvalue
      simp only [decimalDigits, if_neg hvalue] at hzero
      exact absurd hzero hne

theorem exists_reverse_writtenReversed_eq_append :
    ∃ (front : U16String) (last : ℕ), last < 10 ∧ (writtenReversed type separator value).reverse =
        front ++ [writtenUnit (isSmallest type value) last] := by
  obtain ⟨last, digits, hdigits⟩ := List.exists_cons_of_ne_nil (decimalDigits_ne_nil value.natAbs)
  have hlast : last < 10 := decimalDigits_lt (by rw [hdigits]; exact List.mem_cons_self)
  obtain ⟨rest, hrest⟩ : ∃ rest, writtenReversed type separator value =
      [writtenUnit (isSmallest type value) last] ++ rest := by
    rw [writtenReversed, hdigits]
    exact ⟨_, rfl⟩
  rw [hrest, List.reverse_append]
  exact ⟨rest.reverse, last, hlast, rfl⟩

theorem trim_padded {pad : UChar} (hpad : isSpace pad = true) (before after : ℕ) {text : U16String}
    (hfirst : ∀ unit ∈ text.head?, isSpace unit = false)
    (hlast : ∀ unit ∈ text.getLast?, isSpace unit = false) (hne : text ≠ []) :
    trim (List.replicate before pad ++ text ++ List.replicate after pad) = text := by
  have hreplicate (count : ℕ) : ∀ unit ∈ List.replicate count pad, isSpace unit = true := by
    intro unit hunit
    rw [List.eq_of_mem_replicate hunit]
    exact hpad
  have hkeep : ∀ text : U16String, (∀ unit ∈ text.head?, isSpace unit = false) → text ≠ [] →
      ∀ rest, (text ++ rest).dropWhile isSpace = text ++ rest := by
    intro text hhead hne rest
    obtain ⟨unit, text, rfl⟩ := List.exists_cons_of_ne_nil hne
    rw [List.cons_append, List.dropWhile_cons_of_neg (by rw [hhead unit rfl]; decide)]
  have hreverse : ∀ unit ∈ text.reverse.head?, isSpace unit = false := by
    rw [List.head?_reverse]
    exact hlast
  rw [trim, List.append_assoc, List.dropWhile_append_of_pos (hreplicate before),
    hkeep text hfirst hne, List.rdropWhile, List.reverse_append,
    List.dropWhile_append_of_pos (by rw [List.reverse_replicate]; exact hreplicate after)]
  have hrest := hkeep text.reverse hreverse (by rwa [ne_eq, List.reverse_eq_nil_iff]) []
  rw [List.append_nil] at hrest
  rw [hrest, List.reverse_reverse]

end Ends

/-! ### The round trip -/

/-- The integer is converted back with the same separator. -/
def RoundTrips (type : IntType) (value : ℤ) (minWidth : ℕ) (rightJustified : Bool)
    (separator : U16String) (forceSign : Bool) (pad : UChar) : Prop :=
  toIntegerOf type separator
    (decimalOf type value minWidth rightJustified separator forceSign pad) = (true, value)

/-- The number which is spelled, digits of separators included. -/
def spelled (type : IntType) (separator : U16String) (value : ℤ) : ℕ :=
  Nat.ofDigits 10 (grouped
    (fun digit ↦ if isSmallest type value = true ∧ digit ≠ 0 then [] else [digit])
    (digitsIn 10 separator).reverse 0 (decimalDigits value.natAbs))

theorem accumulate_reverse (base : ℕ) (digits : List ℕ) :
    accumulate base digits.reverse 0 = Nat.ofDigits base digits := by
  rw [accumulate, List.foldl_reverse, Nat.ofDigits_eq_foldr]
  congr 1
  funext digit number
  rw [Nat.cast_id, Nat.add_comm, Nat.mul_comm]

section RoundTrip

variable (type : IntType) (separator : U16String) (value : ℤ)

theorem accumulate_digitsIn_reverse :
    accumulate 10 (digitsIn 10 (writtenReversed type separator value).reverse) 0 =
      spelled type separator value := by
  have hdigits : ∀ digits : List ℕ, (∀ digit ∈ digits, digit < 10) → ∀ count,
      grouped (fun digit ↦ [writtenUnit (isSmallest type value) digit].filterMap (toDigit 10))
        (digitsIn 10 separator).reverse count digits =
      grouped (fun digit ↦ if isSmallest type value = true ∧ digit ≠ 0 then [] else [digit])
        (digitsIn 10 separator).reverse count digits := by
    intro digits hdigits
    induction digits with
    | nil => exact fun _ ↦ rfl
    | cons digit digits ih =>
      rw [List.forall_mem_cons] at hdigits
      intro count
      rw [grouped, grouped, ih hdigits.2, List.filterMap_cons,
        (writtenUnit_spec (isSmallest type value) hdigits.1).2.2]
      split_ifs <;> rfl
  rw [digitsIn, List.filterMap_reverse, accumulate_reverse, writtenReversed, filterMap_grouped,
    List.filterMap_reverse]
  exact congrArg _ (hdigits _ (fun _ ↦ decimalDigits_lt) 0)

/-- Only digits and separators, unless for the smallest value. -/
theorem isSeparated_reverse_iff :
    IsSeparated separator 10 (writtenReversed type separator value).reverse ↔
      (isSmallest type value = true → ∀ digit ∈ decimalDigits value.natAbs, digit ≠ 0 →
        writtenUnit true digit ∈ separator) := by
  rw [IsSeparated]
  constructor
  · intro hseparated hsmallest digit hdigit hne
    have hmem : writtenUnit true digit ∈ (writtenReversed type separator value).reverse := by
      rw [List.mem_reverse, writtenReversed, hsmallest]
      exact mem_grouped_of_mem _ _ 0 hdigit (List.mem_singleton_self _)
    apply (hseparated _ hmem).resolve_left
    rw [(writtenUnit_spec true (decimalDigits_lt hdigit)).2.2, if_pos ⟨rfl, hne⟩]
    exact Bool.false_ne_true
  · intro hunits unit hunit
    rw [List.mem_reverse] at hunit
    obtain ⟨digit, hdigit, hwritten⟩ | hseparator := mem_grouped _ _ hunit
    · rw [List.mem_singleton.mp hwritten,
        (writtenUnit_spec (isSmallest type value) (decimalDigits_lt hdigit)).2.2]
      by_cases hskipped : isSmallest type value = true ∧ digit ≠ 0
      · right
        rw [hskipped.1]
        exact hunits hskipped.1 digit hdigit hskipped.2
      · rw [if_neg hskipped]
        exact .inl rfl
    · exact .inr (List.mem_reverse.mp hseparator)

theorem spelled_of_not_smallest (hsmallest : isSmallest type value = false)
    (hseparator : digitsIn 10 separator = [] ∨ value.natAbs < 1000) :
    spelled type separator value = value.natAbs := by
  have hwritten : (fun digit ↦ if isSmallest type value = true ∧ digit ≠ 0 then [] else [digit]) =
      (fun digit : ℕ ↦ [digit]) := by
    funext digit
    rw [hsmallest, if_neg (fun h ↦ Bool.false_ne_true h.1)]
  have hgrouped : grouped (fun digit : ℕ ↦ [digit]) (digitsIn 10 separator).reverse 0
      (decimalDigits value.natAbs) = (decimalDigits value.natAbs).flatMap fun digit ↦ [digit] := by
    obtain hnone | hshort := hseparator
    · rw [hnone, List.reverse_nil, grouped_nil]
    · apply grouped_of_length_le
      rw [decimalDigits]
      split_ifs
      · decide
      · exact (Nat.digits_length_le_iff (by decide) _).mpr hshort
  rw [spelled, hwritten, hgrouped, List.flatMap_singleton', ofDigits_decimalDigits]

theorem spelled_of_smallest (hsmallest : isSmallest type value = true)
    (hseparator : digitsIn 10 separator = []) : spelled type separator value = 0 := by
  have hzeroes : ∀ digits : List ℕ, Nat.ofDigits 10 (digits.flatMap fun digit ↦
      if isSmallest type value = true ∧ digit ≠ 0 then [] else [digit]) = 0 := by
    intro digits
    induction digits with
    | nil => rfl
    | cons digit digits ih =>
      rw [List.flatMap_cons]
      by_cases hskipped : isSmallest type value = true ∧ digit ≠ 0
      · rw [if_pos hskipped, List.nil_append, ih]
      · have hzero : digit = 0 := by
          by_contra hne
          exact hskipped ⟨hsmallest, hne⟩
        rw [if_neg hskipped, List.singleton_append, Nat.ofDigits_cons, ih, hzero]
  rw [spelled, hseparator, List.reverse_nil, grouped_nil, hzeroes]

variable {value} (hvalue : type.InRange value)

include hvalue

theorem skip_decimalOf (minWidth : ℕ) (rightJustified forceSign : Bool) {pad : UChar}
    (hpad : isSpace pad = true) :
    skipSign (trim (decimalOf type value minWidth rightJustified separator forceSign pad)) =
        (decide (value < 0), (writtenReversed type separator value).reverse) ∧
      skipPrefix (writtenReversed type separator value).reverse =
        (10, (writtenReversed type separator value).reverse) := by
  obtain ⟨before, after, hdecimal⟩ :=
    decimalOf_eq type hvalue minWidth rightJustified separator forceSign pad
  obtain ⟨first, rest, hfirst, hhead, hzero⟩ := exists_reverse_writtenReversed type separator value
  obtain ⟨front, last, hlast, hend⟩ :=
    exists_reverse_writtenReversed_eq_append type separator value
  have hspec := writtenUnit_spec (isSmallest type value) hfirst
  have hfirstSpace : ∀ unit ∈ (writtenSign value forceSign ++
      (writtenReversed type separator value).reverse).head?, isSpace unit = false := by
    rw [writtenSign]
    split_ifs
    · rintro unit ⟨⟩
      rfl
    · rintro unit ⟨⟩
      rfl
    · rw [List.nil_append, hhead]
      rintro unit ⟨⟩
      exact hspec.1
  have hlastSpace : ∀ unit ∈ (writtenSign value forceSign ++
      (writtenReversed type separator value).reverse).getLast?, isSpace unit = false := by
    rw [hend, ← List.append_assoc, List.getLast?_concat]
    rintro unit ⟨⟩
    exact (writtenUnit_spec (isSmallest type value) hlast).1
  have hne : writtenSign value forceSign ++ (writtenReversed type separator value).reverse ≠ [] := by
    rw [hhead]
    exact List.append_ne_nil_of_right_ne_nil _ (List.cons_ne_nil _ _)
  have htrim := trim_padded hpad before after hfirstSpace hlastSpace hne
  rw [hdecimal, htrim]
  constructor
  · rw [writtenSign]
    by_cases hnegative : value < 0
    · rw [if_pos hnegative, decide_eq_true hnegative]
      rfl
    · rw [if_neg hnegative, decide_eq_false hnegative]
      cases forceSign with
      | true => rfl
      | false =>
        have hsmallest : isSmallest type value = false := by
          rw [← Bool.not_eq_true]
          intro hsmallest
          exact hnegative (neg_of_isSmallest type hsmallest)
        rw [hsmallest] at hhead
        obtain ⟨hplus, hminus⟩ := writtenUnit_ne_sign hfirst
        rw [if_neg Bool.false_ne_true, List.nil_append, hhead, skipSign,
          List.head?_cons, if_neg (fun h ↦ hplus (Option.some.inj h)),
          if_neg (fun h ↦ hminus (Option.some.inj h))]
  · rw [skipPrefix, if_neg]
    rw [hhead]
    rintro ⟨hdigit, hletter⟩
    rw [hzero (hspec.2.1.mp (Option.some.inj hdigit))] at hletter
    obtain hletter | hletter := hletter
    · cases hletter
    · cases hletter

/-- The number that is spelled is the absolute value, up to an overflow. -/
theorem roundTrips_iff_spelled (minWidth : ℕ) (rightJustified forceSign : Bool) {pad : UChar}
    (hpad : isSpace pad = true) :
    RoundTrips type value minWidth rightJustified separator forceSign pad ↔
      (isSmallest type value = true → ∀ digit ∈ decimalDigits value.natAbs, digit ≠ 0 →
        writtenUnit true digit ∈ separator) ∧
      (spelled type separator value : ℤ) ≡ value.natAbs [ZMOD type.size] := by
  obtain ⟨hsign, hlead⟩ :=
    skip_decimalOf type separator hvalue minWidth rightJustified forceSign hpad
  obtain ⟨first, rest, -, hhead, -⟩ := exists_reverse_writtenReversed type separator value
  have hunsigned : ¬ (decide (value < 0) = true ∧ type.isSigned = false) := by
    rintro ⟨hnegative, hunsigned⟩
    have hmin := hvalue.1
    rw [IntType.minValue, hunsigned, if_neg Bool.false_ne_true] at hmin
    exact absurd (of_decide_eq_true hnegative) (not_lt.mpr hmin)
  have hne : (writtenReversed type separator value).reverse ≠ [] := by
    rw [hhead]
    exact List.cons_ne_nil _ _
  have hwrap (number : ℕ) : value = type.wrap (signed (decide (value < 0)) number) ↔
      (number : ℤ) ≡ value.natAbs [ZMOD type.size] := by
    have hself : type.wrap value = value := type.wrap_of_inRange hvalue
    have hboth : value = type.wrap (signed (decide (value < 0)) number) ↔
        type.wrap (signed (decide (value < 0)) number) = type.wrap value := by
      rw [hself, eq_comm]
    rw [hboth, IntType.wrap_eq_wrap_iff, signed]
    by_cases hnegative : value < 0
    · have habs : (value.natAbs : ℤ) = -value := by omega
      rw [decide_eq_true hnegative, if_pos rfl, habs]
      constructor
      · intro hmod
        have hneg := hmod.neg
        rwa [neg_neg] at hneg
      · intro hmod
        have hneg := hmod.neg
        rwa [neg_neg] at hneg
    · have habs : (value.natAbs : ℤ) = value := by omega
      rw [decide_eq_false hnegative, if_neg Bool.false_ne_true, habs]
  have hbody : skipPrefix (skipSign (trim
      (decimalOf type value minWidth rightJustified separator forceSign pad))).2 =
        (10, (writtenReversed type separator value).reverse) := by
    rw [hsign]
    exact hlead
  rw [RoundTrips, toIntegerOf_eq_true_iff type separator _ value (congrArg Prod.fst hsign)
    hbody, isSeparated_reverse_iff, accumulate_digitsIn_reverse, hwrap]
  constructor
  · rintro ⟨-, -, hunits, hmod⟩
    exact ⟨hunits, hmod⟩
  · rintro ⟨hunits, hmod⟩
    exact ⟨hunsigned, hne, hunits, hmod⟩

theorem not_modEq_zero_of_isSmallest (hsmallest : isSmallest type value = true) :
    ¬ ((0 : ℕ) : ℤ) ≡ value.natAbs [ZMOD type.size] := by
  intro hmod
  have hnegative := neg_of_isSmallest type hsmallest
  have hdvd := hmod.dvd
  have habs : (value.natAbs : ℤ) - (0 : ℕ) = -value := by omega
  have hhalf : (0 : ℤ) < 2 ^ (type.width - 1) := Int.pow_pos (by decide)
  have hsize := size_eq type
  have hmin := hvalue.1
  rw [isSmallest, Bool.and_eq_true] at hsmallest
  rw [IntType.minValue, if_pos hsmallest.1] at hmin
  rw [habs] at hdvd
  have hle := Int.le_of_dvd (by omega) hdvd
  omega

/-- In particular, if it is not the smallest value of a signed type and there is no digit in the
separator or no separator, and this smallest value is not if there is no digit in the separator. -/
theorem decimalOf_roundTrips_iff (minWidth : ℕ) (rightJustified forceSign : Bool) {pad : UChar}
    (hpad : isSpace pad = true) :
    (RoundTrips type value minWidth rightJustified separator forceSign pad ↔
      (isSmallest type value = true → ∀ digit ∈ decimalDigits value.natAbs, digit ≠ 0 →
        writtenUnit true digit ∈ separator) ∧
      (spelled type separator value : ℤ) ≡ value.natAbs [ZMOD type.size]) ∧
    (isSmallest type value = false → digitsIn 10 separator = [] ∨ value.natAbs < 1000 →
      RoundTrips type value minWidth rightJustified separator forceSign pad) ∧
    (isSmallest type value = true → digitsIn 10 separator = [] →
      ¬ RoundTrips type value minWidth rightJustified separator forceSign pad) := by
  have hiff :=
    roundTrips_iff_spelled type separator hvalue minWidth rightJustified forceSign hpad
  refine ⟨hiff, ?_, ?_⟩
  · intro hsmallest hseparator
    rw [hiff, spelled_of_not_smallest type separator value hsmallest hseparator]
    refine ⟨fun h ↦ ?_, Int.ModEq.refl _⟩
    rw [hsmallest] at h
    exact absurd h Bool.false_ne_true
  · intro hsmallest hseparator hroundTrips
    obtain ⟨-, hmod⟩ := hiff.mp hroundTrips
    rw [spelled_of_smallest type separator value hsmallest hseparator] at hmod
    exact not_modEq_zero_of_isSmallest type hvalue hsmallest hmod

end RoundTrip

def int8 : IntType := { uint8 with isSigned := true }

/-- A byte is converted back from its decimal format. -/
theorem decimalOf_roundTrips_minus_ten :
    RoundTrips int8 (-10) 8 true (ofASCII ",") true 0x20 := by
  have hvalue : int8.InRange (-10) := by decide
  exact (decimalOf_roundTrips_iff int8 (ofASCII ",") hvalue 8 true true (by decide)).2.1
    (by decide) (.inr (by decide))

/-- The smallest signed byte is not converted back. -/
theorem not_decimalOf_roundTrips_smallest :
    ¬ ∀ type value minWidth rightJustified separator forceSign pad, type.InRange value →
      isSpace pad = true →
        RoundTrips type value minWidth rightJustified separator forceSign pad := by
  intro hroundTrips
  have hsmallest := hroundTrips int8 (-128) 0 true (ofASCII ",") false 0x20 (by decide) (by decide)
  rw [RoundTrips] at hsmallest
  exact absurd hsmallest (by decide)

end U16String

end TSDuck
