import TSDuck.Library.JsonGrammar
import TSDuck.Library.SortedMap
import TSDuck.Text.TextParser
import Mathlib.Data.List.Lex

/-!
# JSON parser

The fields of an object are in a map whose keys are in order: of several fields with the same name,
the last one is kept.
-/

namespace TSDuck

/-- The order of the characters is the one of their codes. -/
instance : LinearOrder UChar where
  le_refl := UInt16.le_refl
  le_trans _ _ _ := UInt16.le_trans
  lt_iff_le_not_ge _ _ := by
    rw [UInt16.lt_iff_toNat_lt, UInt16.le_iff_toNat_le, UInt16.le_iff_toNat_le]
    omega
  le_antisymm _ _ := UInt16.le_antisymm
  le_total := UInt16.le_total
  toDecidableLE := inferInstance

/-- A JSON value. The fields of an object are in the order of their names. -/
inductive JsonValue
  | null
  | boolean (value : Bool)
  | number (value : Int64)
  | string (value : U16String)
  | object (fields : List (U16String × JsonValue))
  | array (elements : List JsonValue)

namespace JsonValue

open TextLines U16String

abbrev Fields := SortedMap U16String JsonValue

/-- The value of a numeric literal, null if not an integer. -/
def ofLiteral (literal : U16String) : JsonValue :=
  match toInt64 literal with
  | some value => .number value
  | none => .null

def parseScalar (lines : TextLines) : Option (JsonValue × TextLines) :=
  match matchText (ofASCII "null") lines with
  | some rest => some (.null, rest)
  | none =>
    match matchText (ofASCII "true") lines with
    | some rest => some (.boolean true, rest)
    | none =>
      match matchText (ofASCII "false") lines with
      | some rest => some (.boolean false, rest)
      | none =>
        match parseJSONStringLiteral lines with
        | some (str, rest) => some (.string str, rest)
        | none =>
          (parseNumericLiteral false true lines).map fun read ↦ (ofLiteral read.1, read.2)

mutual

def parseValue : ℕ → TextLines → Option (JsonValue × TextLines)
  | 0, _ => none
  | turns + 1, lines =>
    let start := skipWhiteSpace lines
    match parseScalar start with
    | some read => some read
    | none =>
      match matchText (ofASCII "\x7b") start with
      | some rest => (parseFields turns .empty rest).map fun read ↦ (.object read.1.entries, read.2)
      | none =>
        match matchText (ofASCII "[") start with
        | some rest => (parseElements turns [] rest).map fun read ↦ (.array read.1, read.2)
        | none => none

def parseFields : ℕ → Fields → TextLines → Option (Fields × TextLines)
  | 0, _, _ => none
  | turns + 1, fields, lines =>
    let start := skipWhiteSpace lines
    match matchText (ofASCII "\x7d") start with
    | some rest => some (fields, rest)
    | none =>
      (parseJSONStringLiteral start).bind fun name ↦
        (matchText (ofASCII ":") (skipWhiteSpace name.2)).bind fun afterColon ↦
          (parseValue turns (skipWhiteSpace afterColon)).bind fun element ↦
            let next := skipWhiteSpace element.2
            match matchText (ofASCII "\x7d") next with
            | some rest => some (fields.update name.1 fun _ ↦ element.1, rest)
            | none =>
              (matchText (ofASCII ",") next).bind fun rest ↦
                parseFields turns (fields.update name.1 fun _ ↦ element.1) rest

def parseElements : ℕ → List JsonValue → TextLines → Option (List JsonValue × TextLines)
  | 0, _, _ => none
  | turns + 1, elements, lines =>
    let start := skipWhiteSpace lines
    match matchText (ofASCII "]") start with
    | some rest => some (elements, rest)
    | none =>
      (parseValue turns start).bind fun element ↦
        let next := skipWhiteSpace element.2
        match matchText (ofASCII "]") next with
        | some rest => some (elements ++ [element.1], rest)
        | none =>
          (matchText (ofASCII ",") next).bind fun rest ↦
            parseElements turns (elements ++ [element.1]) rest

end

/-- Parses a value with white space around it. -/
def parse (text : U16String) : Option JsonValue :=
  (parseValue (2 * text.length + 1) (loadDocument text)).bind fun read ↦
    if eof (skipWhiteSpace read.2) then some read.1 else none

end JsonValue

end TSDuck
