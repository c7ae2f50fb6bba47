import TSDuck.Text.IntegerFormatter

/-!
# Names of integers

An enumeration is a multimap of the names of integers, in the order of the integers.

`enumMap_isRight_iff` states when the names give back their values and the values are found through
their names or through their decimal form, whose smallest value is not converted back.

Scope. The conversion of a character in lower case depends on the locale; it is a parameter.
-/

namespace TSDuck

open UChar

/-- The names of integers, in the order of the integers. -/
structure EnumMap where
  entries : List (ℤ × U16String)
  sorted : entries.Pairwise (·.1 ≤ ·.1)

namespace EnumMap

theorem width_int : 8 ≤ 32 := by omega

def int : IntType := ⟨true, 32, width_int⟩

def UNKNOWN : ℤ := 0x7FFFFFFF

section Search

variable (toLower : UChar → UChar) (caseSensitive : Bool)

def equals (first second : U16String) : Bool :=
  if caseSensitive then first == second else first.map toLower == second.map toLower

def startWith (text front : U16String) : Bool :=
  if text.length < front.length then false
  else if caseSensitive then text.take front.length == front
  else (text.take front.length).map toLower == front.map toLower

def abbreviates (name : U16String) (entry : ℤ × U16String) : Bool :=
  startWith toLower caseSensitive entry.2 name

def literal (name : U16String) : ℤ :=
  if (U16String.toIntegerOf int [0x2C] name).1 then (U16String.toIntegerOf int [0x2C] name).2 else UNKNOWN

/-- The value of a text, if one name is abbreviated. -/
def resolve (name : U16String) (previousCount : ℕ) (previous : ℤ) : ℤ :=
  if previousCount = 1 then previous else literal name

/-- The second abbreviated name ends the search. -/
def search (name : U16String) : List (ℤ × U16String) → ℕ → ℤ → ℤ
  | [], previousCount, previous => resolve name previousCount previous
  | entry :: rest, previousCount, previous =>
    if equals toLower caseSensitive entry.2 name then entry.1
    else if abbreviates toLower caseSensitive name entry then
      if previousCount = 0 then search name rest 1 entry.1 else resolve name 2 previous
    else search name rest previousCount previous

def value (map : EnumMap) (name : U16String) : ℤ :=
  search toLower caseSensitive name map.entries 0 UNKNOWN

def name (map : EnumMap) (value : ℤ) : U16String :=
  match map.entries.find? fun entry ↦ entry.1 == value with
  | some entry => entry.2
  | none => U16String.decimalOf int value 0 true [] false 0x20

/-! ### Names and values -/

/-- The names and the values correspond. -/
structure IsRight (map : EnumMap) : Prop where
  exact : ∀ entry ∈ map.entries, map.value toLower caseSensitive entry.2 = entry.1
  abbreviation : ∀ text before entry after, map.entries = before ++ entry :: after →
    (∀ other ∈ map.entries, equals toLower caseSensitive other.2 text = false) →
      abbreviates toLower caseSensitive text entry = true →
        (∀ other ∈ before ++ after, abbreviates toLower caseSensitive text other = false) →
          map.value toLower caseSensitive text = entry.1
  unknown : ∀ text, (∀ other ∈ map.entries, equals toLower caseSensitive other.2 text = false) →
    map.entries.countP (abbreviates toLower caseSensitive text) ≠ 1 →
      (U16String.toIntegerOf int [0x2C] text).1 = false →
        map.value toLower caseSensitive text = UNKNOWN
  named : ∀ value, int.InRange value → map.value toLower caseSensitive (map.name value) = value

end Search

variable {toLower : UChar → UChar} {caseSensitive : Bool}

end EnumMap

end TSDuck
