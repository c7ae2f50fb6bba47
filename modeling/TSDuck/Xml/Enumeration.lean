import TSDuck.Xml.Element
import TSDuck.Xml.Scan

/-!
# Enumerations

An enumeration gives names to integers. A value without a name is written in decimal. A text is the
name of a value without regard to the case, an abbreviation of one name only, or an integer.
-/

namespace TSDuck

abbrev Enumeration := List (UString × ℤ)

namespace Enumeration

def unknown : ℤ := 0x7FFFFFFF

def toInteger (text : UString) : Option ℤ :=
  match UString.trim text with
  | '+' :: rest => (UString.decodeUnsigned (2 ^ 32) rest).map fun value ↦ UString.int32.wrap value
  | '-' :: rest => (UString.decodeUnsigned (2 ^ 32) rest).map fun value ↦ UString.int32.wrap (-value)
  | other => (UString.decodeUnsigned (2 ^ 32) other).map fun value ↦ UString.int32.wrap value

/-- The only name which is abbreviated, or an integer. -/
def abbreviated (text : UString) (count : ℕ) (previous : ℤ) : ℤ :=
  if count = 1 then previous else (toInteger text).getD unknown

def search (text : UString) : List (UString × ℤ) → ℕ → ℤ → ℤ
  | [], count, previous => abbreviated text count previous
  | (name, value) :: rest, count, previous =>
    if name.map Char.toLower = text.map Char.toLower then value
    else if (text.map Char.toLower).isPrefixOf (name.map Char.toLower) then
      if count = 0 then search text rest 1 value else abbreviated text 2 previous
    else search text rest count previous

def value (names : Enumeration) (text : UString) : ℤ := search text names 0 unknown

def name (names : Enumeration) (value : ℤ) : UString :=
  match names.find? fun entry ↦ entry.2 == value with
  | some entry => entry.1
  | none => UString.formatDecimal 0 value

end Enumeration

/-- The value of an attribute in an enumeration. -/
def XmlNode.getIntEnumAttribute (node : XmlNode) (names : Enumeration) (attributeName : UString)
    (required : Bool) (modulus defValue : ℕ) : Option ℕ :=
  match node.getAttribute attributeName required (UString.decimal defValue) with
  | none => none
  | some str =>
    if names.value str = Enumeration.unknown then none
    else some (names.value str % modulus).toNat

end TSDuck
