import TSDuck.Text.UChar

/-!
# Strings in JSON

A string is written in JSON with ASCII characters only: `convertToJSON` puts a backslash before some
characters, has a letter for some controls, and the hexadecimal code of all others.
`convertFromJSON` is the inverse (`convertFromJSON_convertToJSON`).
-/

namespace TSDuck

namespace U16String

/-- The character after a backslash, if there is one. -/
def quotedUnit (unit : UChar) : Option UChar :=
  if unit = QUOTATION_MARK ∨ unit = REVERSE_SOLIDUS then some unit
  else if unit = BACKSPACE then some 0x62
  else if unit = FORM_FEED then some 0x66
  else if unit = LINE_FEED then some 0x6E
  else if unit = CARRIAGE_RETURN then some 0x72
  else if unit = HORIZONTAL_TABULATION then some 0x74
  else none

def hexaUnit (nibble : ℕ) : UChar :=
  if nibble < 10 then 0x30 + UInt16.ofNat nibble else 0x41 + UInt16.ofNat (nibble - 10)

def hexaCode (unit : UChar) : U16String :=
  [hexaUnit (unit.toNat / 0x1000), hexaUnit (unit.toNat / 0x100 % 16),
    hexaUnit (unit.toNat / 0x10 % 16), hexaUnit (unit.toNat % 16)]

def unitToJSON (unit : UChar) : U16String :=
  match quotedUnit unit with
  | some quoted => [REVERSE_SOLIDUS, quoted]
  | none =>
    if 0x0020 ≤ unit.toNat ∧ unit.toNat ≤ 0x007E then [unit]
    else REVERSE_SOLIDUS :: 0x75 :: hexaCode unit

def convertToJSON (text : U16String) : U16String := text.flatMap unitToJSON

def unquotedUnit (unit : UChar) : Option UChar :=
  if unit = QUOTATION_MARK ∨ unit = REVERSE_SOLIDUS ∨ unit = SOLIDUS then some unit
  else if unit = 0x62 then some BACKSPACE
  else if unit = 0x66 then some FORM_FEED
  else if unit = 0x6E then some LINE_FEED
  else if unit = 0x72 then some CARRIAGE_RETURN
  else if unit = 0x74 then some HORIZONTAL_TABULATION
  else none

def hexaSequence : U16String → Option UChar
  | letter :: first :: second :: third :: fourth :: _ =>
    if letter = 0x75 then toUChar (ofASCII "0x" ++ [first, second, third, fourth]) else none
  | _ => none

def convertFromJSON : U16String → U16String
  | [] => []
  | unit :: rest =>
    if unit = REVERSE_SOLIDUS then
      match rest with
      | [] => [unit]
      | letter :: after =>
        match hexaSequence (letter :: after) with
        | some unquoted =>
          match after with
          | _ :: _ :: _ :: _ :: others => unquoted :: convertFromJSON others
          | _ => [unquoted]
        | none =>
          match unquotedUnit letter with
          | some unquoted => unquoted :: convertFromJSON after
          | none => unit :: convertFromJSON (letter :: after)
    else unit :: convertFromJSON rest

/-! ### The round trip of a string -/

theorem toDigit_hexaUnit {nibble : ℕ} (hnibble : nibble < 16) :
    UChar.isSpace (hexaUnit nibble) = false ∧ UChar.toDigit 16 (hexaUnit nibble) = some nibble := by
  have hall : ∀ nibble < 16, UChar.isSpace (hexaUnit nibble) = false ∧
      UChar.toDigit 16 (hexaUnit nibble) = some nibble := by
    decide
  exact hall nibble hnibble

theorem hexaSequence_hexaCode (unit : UChar) (rest : U16String) :
    hexaSequence (0x75 :: (hexaCode unit ++ rest)) = some unit := by
  have hunit := unit.toNat_lt
  obtain ⟨hspace₁, hdigit₁⟩ := toDigit_hexaUnit (show unit.toNat / 0x1000 < 16 by omega)
  obtain ⟨hspace₂, hdigit₂⟩ := toDigit_hexaUnit (Nat.mod_lt (unit.toNat / 0x100) (by decide : 16 > 0))
  obtain ⟨hspace₃, hdigit₃⟩ := toDigit_hexaUnit (Nat.mod_lt (unit.toNat / 0x10) (by decide : 16 > 0))
  obtain ⟨hspace₄, hdigit₄⟩ := toDigit_hexaUnit (Nat.mod_lt unit.toNat (by decide : 16 > 0))
  have htrim : trim (ofASCII "0x" ++ hexaCode unit) = ofASCII "0x" ++ hexaCode unit := by
    apply trim_eq_self
    intro other hother
    rcases List.mem_append.mp hother with hother | hother
    · have hall : (ofASCII "0x").all (fun other ↦ !UChar.isSpace other) = true := by decide
      have hspace := List.all_eq_true.mp hall other hother
      rwa [Bool.not_eq_true'] at hspace
    · simp only [hexaCode, List.mem_cons, List.not_mem_nil, or_false] at hother
      rcases hother with rfl | rfl | rfl | rfl
      · exact hspace₁
      · exact hspace₂
      · exact hspace₃
      · exact hspace₄
  have hdecode : decodeDigits (2 ^ 16) 16 (hexaCode unit) 0 = some unit.toNat := by
    unfold hexaCode
    rw [decodeDigits, hdigit₁, Option.bind_some, decodeDigits, hdigit₂, Option.bind_some, decodeDigits,
      hdigit₃, Option.bind_some, decodeDigits, hdigit₄, Option.bind_some, decodeDigits]
    congr 1
    omega
  show toUChar (ofASCII "0x" ++ hexaCode unit) = some unit
  unfold toUChar toInteger
  rw [htrim]
  show Option.map _ (Option.map _ (decodeDigits (2 ^ 16) 16 (hexaCode unit) 0)) = _
  rw [hdecode]
  exact congrArg some UInt16.ofNat_toNat

theorem unquotedUnit_of_quotedUnit {unit quoted : UChar} (hquoted : quotedUnit unit = some quoted) :
    unquotedUnit quoted = some unit ∧ quoted ≠ 0x75 := by
  unfold quotedUnit at hquoted
  split_ifs at hquoted with hself hback hfeed hline hreturn htab
  · obtain rfl := Option.some.inj hquoted
    rcases hself with rfl | rfl <;> decide
  · obtain rfl := Option.some.inj hquoted
    rw [hback]
    decide
  · obtain rfl := Option.some.inj hquoted
    rw [hfeed]
    decide
  · obtain rfl := Option.some.inj hquoted
    rw [hline]
    decide
  · obtain rfl := Option.some.inj hquoted
    rw [hreturn]
    decide
  · obtain rfl := Option.some.inj hquoted
    rw [htab]
    decide

theorem convertFromJSON_unitToJSON (unit : UChar) (rest : U16String) :
    convertFromJSON (unitToJSON unit ++ rest) = unit :: convertFromJSON rest := by
  unfold unitToJSON
  cases hquoted : quotedUnit unit with
  | some quoted =>
    obtain ⟨hunquoted, hletter⟩ := unquotedUnit_of_quotedUnit hquoted
    have hnone : hexaSequence (quoted :: rest) = none := by
      unfold hexaSequence
      split
      · rename_i hcons
        rw [List.cons.injEq] at hcons
        rw [← hcons.1, if_neg hletter]
      · rfl
    show convertFromJSON (REVERSE_SOLIDUS :: quoted :: rest) = _
    rw [convertFromJSON.eq_def]
    dsimp only
    rw [if_pos rfl, hnone]
    dsimp only
    rw [hunquoted]
  | none =>
    dsimp only
    split_ifs with hplain
    · have hne : unit ≠ REVERSE_SOLIDUS := by
        rintro rfl
        cases hquoted
      rw [List.singleton_append, convertFromJSON.eq_def]
      dsimp only
      rw [if_neg hne]
    · show convertFromJSON (REVERSE_SOLIDUS :: 0x75 :: (hexaCode unit ++ rest)) = _
      rw [convertFromJSON.eq_def]
      dsimp only
      rw [if_pos rfl, hexaSequence_hexaCode]
      rfl

theorem convertFromJSON_convertToJSON (text : U16String) :
    convertFromJSON (convertToJSON text) = text := by
  induction text with
  | nil => rfl
  | cons unit rest ih =>
    show convertFromJSON (unitToJSON unit ++ convertToJSON rest) = _
    rw [convertFromJSON_unitToJSON, ih]

end U16String

end TSDuck
