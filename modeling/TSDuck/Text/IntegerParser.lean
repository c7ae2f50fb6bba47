import TSDuck.Text.UChar
import Mathlib.Data.Int.ModEq

/-!
# Integers of any type in strings

`toInteger` converts a string into an integer of some type: spaces around it, a sign, a hexadecimal
prefix, digits and ignored thousands separators. The integer that a string denotes is defined apart
(`Denotes`), over all integers and with at least one digit.

A string which is converted denotes the integer that is found, unless it has no digit or denotes an
integer out of the range of the type (`isSound_iff`).

Scope. The types are those of 8 bits or more. An overflow wraps around, also in a signed type.
-/

namespace TSDuck

structure IntType where
  isSigned : Bool
  width : ℕ
  width_ge : 8 ≤ width

namespace IntType

variable (type : IntType)

def size : ℤ := 2 ^ type.width

def minValue : ℤ := if type.isSigned then -2 ^ (type.width - 1) else 0

/-- The integer is a value of the type. -/
def InRange (value : ℤ) : Prop := type.minValue ≤ value ∧ value < type.minValue + type.size

instance (value : ℤ) : Decidable (type.InRange value) :=
  inferInstanceAs (Decidable (_ ∧ _))

def wrap (value : ℤ) : ℤ := (value - type.minValue) % type.size + type.minValue

theorem size_pos : 0 < type.size := Int.pow_pos (by decide)

theorem inRange_wrap (value : ℤ) : type.InRange (type.wrap value) := by
  have hnonneg := Int.emod_nonneg (value - type.minValue) type.size_pos.ne'
  have hlt := Int.emod_lt_of_pos (value - type.minValue) type.size_pos
  rw [InRange, wrap]
  omega

theorem wrap_modEq (value : ℤ) : type.wrap value ≡ value [ZMOD type.size] := by
  have hmod := (Int.mod_modEq (value - type.minValue) type.size).add_right type.minValue
  rwa [Int.sub_add_cancel] at hmod

theorem eq_of_modEq {first second : ℤ} (hfirst : type.InRange first) (hsecond : type.InRange second)
    (hmod : first ≡ second [ZMOD type.size]) : first = second := by
  have hdvd := hmod.dvd
  have hsize := type.size_pos
  rw [InRange] at hfirst hsecond
  have hzero : second - first = 0 := by
    apply Int.eq_zero_of_abs_lt_dvd hdvd
    rw [abs_lt]
    omega
  omega

theorem wrap_of_inRange {value : ℤ} (hvalue : type.InRange value) : type.wrap value = value :=
  type.eq_of_modEq (type.inRange_wrap value) hvalue (type.wrap_modEq value)

theorem wrap_zero : type.wrap 0 = 0 := by
  refine type.wrap_of_inRange ?_
  have hpow : (0 : ℤ) < 2 ^ (type.width - 1) := Int.pow_pos (by decide)
  have hsize : type.size = 2 * 2 ^ (type.width - 1) := by
    rw [size, ← pow_succ', Nat.sub_add_cancel ((by decide : 1 ≤ 8).trans type.width_ge)]
  rw [InRange, minValue, hsize]
  split_ifs <;> omega

theorem wrap_eq_wrap_iff {first second : ℤ} :
    type.wrap first = type.wrap second ↔ first ≡ second [ZMOD type.size] := by
  constructor
  · intro hwrap
    have hsecond := type.wrap_modEq second
    rw [← hwrap] at hsecond
    exact (type.wrap_modEq first).symm.trans hsecond
  · intro hmod
    exact type.eq_of_modEq (type.inRange_wrap first) (type.inRange_wrap second)
      ((type.wrap_modEq first).trans (hmod.trans (type.wrap_modEq second).symm))

theorem wrap_eq_self_iff {value : ℤ} : type.wrap value = value ↔ type.InRange value := by
  constructor
  · intro hwrap
    rw [← hwrap]
    exact type.inRange_wrap value
  · exact type.wrap_of_inRange

end IntType

namespace U16String

open UChar

def skipSign (text : U16String) : Bool × U16String :=
  if text.head? = some 0x2B then (false, text.drop 1)
  else if text.head? = some 0x2D then (true, text.drop 1)
  else (false, text)

def skipPrefix (text : U16String) : ℕ × U16String :=
  if text.head? = some 0x30 ∧ (text[1]? = some 0x78 ∨ text[1]? = some 0x58) then
    (16, text.drop 2)
  else (10, text)

def decodeSeparatedDigits (type : IntType) (separators : U16String) (base : ℕ) :
    U16String → ℤ → U16String × ℤ
  | [], value => ([], value)
  | unit :: rest, value =>
    match toDigit base unit with
    | some digit =>
      decodeSeparatedDigits type separators base rest (type.wrap (value * base + digit))
    | none =>
      if unit ∈ separators then decodeSeparatedDigits type separators base rest value
      else (unit :: rest, value)

def toIntegerOf (type : IntType) (separators text : U16String) : Bool × ℤ :=
  let sign := skipSign (trim text)
  if sign.1 = true ∧ type.isSigned = false then (false, 0)
  else
    let body := skipPrefix sign.2
    if body.2 = [] then (false, 0)
    else
      let decoded := decodeSeparatedDigits type separators body.1 body.2 0
      (decoded.1.isEmpty, if sign.1 then type.wrap (-decoded.2) else decoded.2)

def digitsIn (base : ℕ) (text : U16String) : List ℕ := text.filterMap (toDigit base)

def accumulate (base : ℕ) (digits : List ℕ) (value : ℕ) : ℕ :=
  digits.foldl (fun number digit ↦ number * base + digit) value

/-- The string is made of digits and thousands separators. -/
def IsSeparated (separators : U16String) (base : ℕ) (text : U16String) : Prop :=
  ∀ unit ∈ text, (toDigit base unit).isSome = true ∨ unit ∈ separators

def signed (negative : Bool) (number : ℕ) : ℤ := if negative then -number else number

/-- A sign and digits, without spaces and separators. -/
structure Denotes (separators text : U16String) (value : ℤ) : Prop where
  isSeparated : IsSeparated separators (skipPrefix (skipSign (trim text)).2).1
    (skipPrefix (skipSign (trim text)).2).2
  digits_ne_nil : digitsIn (skipPrefix (skipSign (trim text)).2).1
    (skipPrefix (skipSign (trim text)).2).2 ≠ []
  value_eq : value = signed (skipSign (trim text)).1
    (accumulate (skipPrefix (skipSign (trim text)).2).1
      (digitsIn (skipPrefix (skipSign (trim text)).2).1
        (skipPrefix (skipSign (trim text)).2).2) 0)

section Conversion

variable (type : IntType) (separators : U16String)

theorem decodeSeparatedDigits_of_isSeparated {base : ℕ} {text : U16String}
    (htext : IsSeparated separators base text) (value : ℕ) :
    decodeSeparatedDigits type separators base text (type.wrap value) =
      ([], type.wrap (accumulate base (digitsIn base text) value)) := by
  induction text generalizing value with
  | nil => rfl
  | cons unit rest ih =>
    rw [IsSeparated, List.forall_mem_cons] at htext
    rw [decodeSeparatedDigits, digitsIn, List.filterMap_cons]
    cases hdigit : toDigit base unit with
    | some digit =>
      have hstep : type.wrap (type.wrap value * base + digit) =
          type.wrap (value * base + digit : ℕ) := by
        rw [IntType.wrap_eq_wrap_iff]
        push_cast
        exact ((type.wrap_modEq value).mul_right _).add_right _
      dsimp only
      rw [hstep, ih htext.2]
      rfl
    | none =>
      dsimp only
      rw [hdigit, Option.isSome_none] at htext
      rw [if_pos (htext.1.resolve_left Bool.false_ne_true), ih htext.2]
      rfl

theorem decodeSeparatedDigits_ne_nil {base : ℕ} {text : U16String}
    (htext : ¬ IsSeparated separators base text) (value : ℤ) :
    (decodeSeparatedDigits type separators base text value).1 ≠ [] := by
  induction text generalizing value with
  | nil =>
    rw [IsSeparated] at htext
    exact absurd (List.forall_mem_nil _) htext
  | cons unit rest ih =>
    rw [IsSeparated, List.forall_mem_cons, not_and_or] at htext
    rw [decodeSeparatedDigits]
    cases hdigit : toDigit base unit with
    | some digit =>
      rw [hdigit, Option.isSome_some] at htext
      exact ih (htext.resolve_left (fun h ↦ h (.inl rfl))) _
    | none =>
      dsimp only
      by_cases hunit : unit ∈ separators
      · rw [if_pos hunit]
        exact ih (htext.resolve_left (fun h ↦ h (.inr hunit))) _
      · rw [if_neg hunit]
        exact List.cons_ne_nil _ _

theorem wrap_neg_wrap (value : ℤ) : type.wrap (-type.wrap value) = type.wrap (-value) := by
  rw [IntType.wrap_eq_wrap_iff]
  exact (type.wrap_modEq value).neg

/-- A string of digits is converted with wrap around. -/
theorem toIntegerOf_eq_true_iff (text : U16String) (value : ℤ) {negative : Bool} {base : ℕ}
    {body : U16String} (hsign : (skipSign (trim text)).1 = negative)
    (hbody : skipPrefix (skipSign (trim text)).2 = (base, body)) :
    toIntegerOf type separators text = (true, value) ↔
      ¬ (negative = true ∧ type.isSigned = false) ∧ body ≠ [] ∧ IsSeparated separators base body ∧
        value = type.wrap (signed negative (accumulate base (digitsIn base body) 0)) := by
  rw [toIntegerOf]
  dsimp only
  rw [hsign, hbody]
  by_cases hminus : negative = true ∧ type.isSigned = false
  · rw [if_pos hminus]
    constructor
    · intro h
      cases h
    · rintro ⟨h, -⟩
      exact absurd hminus h
  · rw [if_neg hminus]
    by_cases hempty : body = []
    · rw [if_pos hempty]
      constructor
      · intro h
        cases h
      · rintro ⟨-, h, -⟩
        exact absurd hempty h
    · rw [if_neg hempty, Prod.mk.injEq]
      by_cases hseparated : IsSeparated separators base body
      · have hzero : type.wrap (0 : ℕ) = 0 := by
          apply type.wrap_of_inRange
          have hpos : (0 : ℤ) < 2 ^ (type.width - 1) := Int.pow_pos (by decide)
          have hsize : type.size = 2 * 2 ^ (type.width - 1) := by
            rw [IntType.size, ← pow_succ']
            congr 1
            have hwidth := type.width_ge
            omega
          rw [IntType.InRange, IntType.minValue, hsize]
          push_cast
          split_ifs <;> omega
        have hdecode := decodeSeparatedDigits_of_isSeparated type separators hseparated 0
        rw [hzero] at hdecode
        rw [hdecode]
        have hvalue : (if negative = true then
            type.wrap (-type.wrap (accumulate base (digitsIn base body) 0 : ℕ))
            else type.wrap (accumulate base (digitsIn base body) 0 : ℕ)) =
            type.wrap (signed negative (accumulate base (digitsIn base body) 0)) := by
          rw [signed]
          split_ifs
          · exact wrap_neg_wrap type _
          · rfl
        rw [hvalue]
        constructor
        · rintro ⟨-, h⟩
          exact ⟨hminus, hempty, hseparated, h.symm⟩
        · rintro ⟨-, -, -, h⟩
          exact ⟨rfl, h.symm⟩
      · constructor
        · rintro ⟨h, -⟩
          exact absurd (List.isEmpty_iff.mp h)
            (decodeSeparatedDigits_ne_nil type separators hseparated 0)
        · rintro ⟨-, -, h, -⟩
          exact absurd h hseparated

/-- A string which is converted denotes the integer that is found. -/
def IsSound (text : U16String) : Prop :=
  ∀ value, toIntegerOf type separators text = (true, value) → Denotes separators text value

/-- There are only separators after the sign and the prefix. -/
def HasNoDigit (text : U16String) : Prop :=
  (skipPrefix (skipSign (trim text)).2).2 ≠ [] ∧ ∀ unit ∈ (skipPrefix (skipSign (trim text)).2).2,
      toDigit (skipPrefix (skipSign (trim text)).2).1 unit = none ∧ unit ∈ separators

/-- Exactly when the string has a minus sign and the type is unsigned, or when it has a digit if it
has any separator, and what it denotes is in the range of the type. -/
theorem isSound_iff (text : U16String) :
    IsSound type separators text ↔ (skipSign (trim text)).1 = true ∧ type.isSigned = false ∨
        ¬ HasNoDigit separators text ∧
          ∀ value, Denotes separators text value → type.InRange value := by
  have hparts : skipPrefix (skipSign (trim text)).2 =
      ((skipPrefix (skipSign (trim text)).2).1, (skipPrefix (skipSign (trim text)).2).2) := rfl
  have htrue (value : ℤ) := toIntegerOf_eq_true_iff type separators text value rfl hparts
  by_cases hminus : (skipSign (trim text)).1 = true ∧ type.isSigned = false
  · constructor
    · intro hsound
      exact .inl hminus
    · intro hcondition value hvalue
      exact absurd hminus ((htrue value).mp hvalue).1
  · constructor
    · intro hsound
      right
      constructor
      · rintro ⟨hbody, hunits⟩
        have hseparated : IsSeparated separators (skipPrefix (skipSign (trim text)).2).1
            (skipPrefix (skipSign (trim text)).2).2 := fun unit hunit ↦ .inr (hunits unit hunit).2
        have hdenotes := hsound _ ((htrue _).mpr ⟨hminus, hbody, hseparated, rfl⟩)
        apply hdenotes.digits_ne_nil
        rw [digitsIn, List.filterMap_eq_nil_iff]
        intro unit hunit
        exact (hunits unit hunit).1
      · intro value hdenotes
        have hbody : (skipPrefix (skipSign (trim text)).2).2 ≠ [] := by
          intro hempty
          have hdigits := hdenotes.digits_ne_nil
          rw [hempty] at hdigits
          exact hdigits rfl
        have hwrap := (hsound (type.wrap value) ((htrue _).mpr
          ⟨hminus, hbody, hdenotes.isSeparated, by rw [hdenotes.value_eq]⟩)).value_eq
        rw [← hdenotes.value_eq] at hwrap
        exact type.wrap_eq_self_iff.mp hwrap
    · intro hcondition value hvalue
      obtain ⟨-, hbody, hseparated, hvalue⟩ := (htrue value).mp hvalue
      obtain ⟨hdigit, hrange⟩ := hcondition.resolve_left hminus
      have hdigits : digitsIn (skipPrefix (skipSign (trim text)).2).1
          (skipPrefix (skipSign (trim text)).2).2 ≠ [] := by
        intro hnil
        rw [digitsIn, List.filterMap_eq_nil_iff] at hnil
        apply hdigit
        refine ⟨hbody, fun unit hunit ↦ ⟨hnil unit hunit, ?_⟩⟩
        apply (hseparated unit hunit).resolve_left
        rw [hnil unit hunit]
        exact Bool.false_ne_true
      have hdenotes : Denotes separators text (signed (skipSign (trim text)).1
          (accumulate (skipPrefix (skipSign (trim text)).2).1
            (digitsIn (skipPrefix (skipSign (trim text)).2).1
              (skipPrefix (skipSign (trim text)).2).2) 0)) := ⟨hseparated, hdigits, rfl⟩
      rw [type.wrap_of_inRange (hrange _ hdenotes)] at hvalue
      rw [hvalue]
      exact hdenotes

end Conversion

def uint8 : IntType := ⟨false, 8, le_refl 8⟩

/-- The string 256 is converted into a byte which is zero. -/
theorem not_isSound_overflow : ¬ ∀ type separators text, IsSound type separators text := by
  intro hsound
  have hvalue := (hsound uint8 [] (ofASCII "256") 0 (by decide)).value_eq
  exact absurd hvalue (by decide)

end U16String

end TSDuck
