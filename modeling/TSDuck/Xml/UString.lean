import TSDuck.Mpeg.Bytes
import Mathlib.Data.List.DropRight

/-!
# Texts

The texts of an XML element are integers, booleans and dumps of bytes.

`hexaDecode_dump` is the round trip of a dump: only spaces are inserted between the digits, and the
spaces do not change what is decoded (`hexaDecodeLoop_filter`).

Only the letters and the spaces which the code of the tables uses matter here: the conversion to
lower case is the one of ASCII letters.
-/

namespace TSDuck

abbrev UString := List Char

namespace UString

def spaceCodes : List ℕ :=
  [0x09, 0x0A, 0x0B, 0x0C, 0x0D, 0x20, 0xA0, 0x2002, 0x2003, 0x2009]

def isSpace (char : Char) : Bool := spaceCodes.contains char.toNat

def lineFeed : Char := Char.ofNat 0x0A

def trim (text : UString) : UString := (text.dropWhile isSpace).rdropWhile isSpace

/-- Two strings are the same without regard to the case and to the spaces. -/
def similar (first second : UString) : Bool :=
  (first.filter (!isSpace ·)).map Char.toLower == (second.filter (!isSpace ·)).map Char.toLower

def toDigit (base : ℕ) (char : Char) : Option ℕ :=
  let digit :=
    if '0' ≤ char ∧ char ≤ '9' then some (char.toNat - '0'.toNat)
    else if 'a' ≤ char ∧ char ≤ 'z' then some (10 + (char.toNat - 'a'.toNat))
    else if 'A' ≤ char ∧ char ≤ 'Z' then some (10 + (char.toNat - 'A'.toNat))
    else none
  digit.filter (· < base)

def hexaDigit (nibble : ℕ) : Char :=
  if nibble < 10 then Char.ofNat ('0'.toNat + nibble) else Char.ofNat ('A'.toNat + (nibble - 10))

def hexaReversed : ℕ → ℕ → UString
  | 0, _ => []
  | width + 1, value => hexaDigit (value % 16) :: hexaReversed width (value / 16)

def hexaDigits (width value : ℕ) : UString := (hexaReversed width value).reverse

def hexa (width value : ℕ) : UString := '0' :: 'x' :: hexaDigits width value

/-- The digits in reverse order, after some digits. -/
def decimalReversed : ℕ → ℕ → ℕ → UString
  | 0, _, _ => []
  | turns + 1, count, value =>
    let digit := Char.ofNat ('0'.toNat + value % 10)
    if value / 10 = 0 then [digit]
    else if (count + 1) % 3 = 0 then digit :: ',' :: decimalReversed turns (count + 1) (value / 10)
    else digit :: decimalReversed turns (count + 1) (value / 10)

def decimal (value : ℕ) : UString := (decimalReversed (value + 1) 0 value).reverse

/-- Decodes digits and separators, modulo some number. -/
def decodeDigits (modulus base : ℕ) : UString → ℕ → Option ℕ
  | [], value => some value
  | char :: rest, value =>
    match toDigit base char with
    | some digit => decodeDigits modulus base rest ((value * base + digit) % modulus)
    | none => if char = ',' then decodeDigits modulus base rest value else none

def decodeUnsigned (modulus : ℕ) : UString → Option ℕ
  | [] => none
  | '0' :: 'x' :: rest => if rest = [] then none else decodeDigits modulus 16 rest 0
  | '0' :: 'X' :: rest => if rest = [] then none else decodeDigits modulus 16 rest 0
  | text => decodeDigits modulus 10 text 0

/-- Converts a string into an unsigned integer. -/
def toInteger (modulus : ℕ) (text : UString) : Option ℕ :=
  match trim text with
  | '+' :: rest => decodeUnsigned modulus rest
  | '-' :: _ => none
  | other => decodeUnsigned modulus other

def trueFalse (value : Bool) : UString := if value then "true".toList else "false".toList

def dumpLine (indent bytesPerLine : ℕ) (line : ByteBlock) : UString :=
  List.replicate indent ' ' ++ (line.mapIdx fun index byte ↦
    hexaDigits 2 byte.toNat ++ if index + 1 < bytesPerLine then [' '] else []).flatten

def appendDumpLines (indent bytesPerLine : ℕ) : ℕ → UString → ByteBlock → UString
  | 0, text, _ => text
  | turns + 1, text, data =>
    if data = [] then text
    else
      appendDumpLines indent bytesPerLine turns
        ((text ++ dumpLine indent bytesPerLine (data.take bytesPerLine)).rdropWhile (· == ' ') ++
          [lineFeed]) (data.drop bytesPerLine)

/-- The dump of an area, in lines of some bytes. -/
def dump (data : ByteBlock) (indent lineWidth : ℕ) : UString :=
  appendDumpLines indent (if lineWidth = 0 then 8 else lineWidth) data.length [] data

def hexaDecodeLoop : UString → Option UInt8 → ByteBlock → Option ByteBlock
  | [], none, result => some result
  | [], some _, _ => none
  | char :: rest, first, result =>
    if isSpace char then hexaDecodeLoop rest first result
    else
      match toDigit 16 char with
      | none => none
      | some nibble =>
        match first with
        | some byte => hexaDecodeLoop rest none (result ++ [byte ||| UInt8.ofNat nibble])
        | none => hexaDecodeLoop rest (some (UInt8.ofNat nibble <<< 4)) result

def hexaDecode (text : UString) : Option ByteBlock := hexaDecodeLoop text none []

theorem hexaDecodeLoop_filter (text : UString) (first : Option UInt8) (result : ByteBlock) :
    hexaDecodeLoop (text.filter (!isSpace ·)) first result = hexaDecodeLoop text first result := by
  induction text generalizing first result with
  | nil => rfl
  | cons char rest ih =>
    cases hspace : isSpace char with
    | true =>
      rw [List.filter_cons_of_neg (by rw [hspace]; decide), hexaDecodeLoop, if_pos hspace]
      exact ih first result
    | false =>
      rw [List.filter_cons_of_pos (by rw [hspace]; rfl), hexaDecodeLoop, hexaDecodeLoop]
      simp only [ih]

theorem filter_dropWhile {remove : Char → Bool} (hspace : ∀ char, remove char → isSpace char)
    (text : UString) : (text.dropWhile remove).filter (!isSpace ·) = text.filter (!isSpace ·) := by
  induction text with
  | nil => rfl
  | cons char rest ih =>
    cases hremove : remove char with
    | true =>
      rw [List.dropWhile_cons_of_pos hremove, List.filter_cons_of_neg (by
        rw [hspace char hremove]
        decide), ih]
    | false =>
      rw [List.dropWhile_cons_of_neg (by rw [hremove]; decide)]

theorem filter_rdropWhile {remove : Char → Bool} (hspace : ∀ char, remove char → isSpace char)
    (text : UString) : (text.rdropWhile remove).filter (!isSpace ·) = text.filter (!isSpace ·) := by
  rw [List.rdropWhile, List.filter_reverse, filter_dropWhile hspace, List.filter_reverse,
    List.reverse_reverse]

theorem hexaDecode_trim (text : UString) : hexaDecode (trim text) = hexaDecode text := by
  unfold hexaDecode trim
  rw [← hexaDecodeLoop_filter, filter_rdropWhile fun _ hremove ↦ hremove,
    filter_dropWhile fun _ hremove ↦ hremove, hexaDecodeLoop_filter]

theorem hexaDigits_byte (byte : UInt8) :
    hexaDigits 2 byte.toNat = [hexaDigit (byte.toNat / 16 % 16), hexaDigit (byte.toNat % 16)] :=
  rfl

theorem toDigit_hexaDigit {nibble : ℕ} (hnibble : nibble < 16) :
    isSpace (hexaDigit nibble) = false ∧ toDigit 16 (hexaDigit nibble) = some nibble := by
  have hall : ∀ nibble < 16,
      isSpace (hexaDigit nibble) = false ∧ toDigit 16 (hexaDigit nibble) = some nibble := by
    decide
  exact hall nibble hnibble

theorem filter_hexaDigits (byte : UInt8) :
    (hexaDigits 2 byte.toNat).filter (!isSpace ·) = hexaDigits 2 byte.toNat := by
  obtain ⟨hhigh, -⟩ := toDigit_hexaDigit (Nat.mod_lt (byte.toNat / 16) (by decide : 16 > 0))
  obtain ⟨hlow, -⟩ := toDigit_hexaDigit (Nat.mod_lt byte.toNat (by decide : 16 > 0))
  rw [hexaDigits_byte, List.filter_cons_of_pos (by rw [hhigh]; rfl),
    List.filter_cons_of_pos (by rw [hlow]; rfl), List.filter_nil]

theorem hexaDecodeLoop_flatMap (data : ByteBlock) (result : ByteBlock) :
    hexaDecodeLoop (data.flatMap fun byte ↦ hexaDigits 2 byte.toNat) none result =
      some (result ++ data) := by
  induction data generalizing result with
  | nil =>
    rw [List.append_nil]
    rfl
  | cons byte rest ih =>
    have hbyte := byte.toNat_lt
    obtain ⟨hhigh, hhighDigit⟩ := toDigit_hexaDigit (Nat.mod_lt (byte.toNat / 16) (by decide : 16 > 0))
    obtain ⟨hlow, hlowDigit⟩ := toDigit_hexaDigit (Nat.mod_lt byte.toNat (by decide : 16 > 0))
    have hvalue : (UInt8.ofNat (byte.toNat / 16 % 16) <<< 4) ||| UInt8.ofNat (byte.toNat % 16) =
        byte := by
      have hall : ∀ high < 16, ∀ low < 16,
          (UInt8.ofNat high <<< 4) ||| UInt8.ofNat low = UInt8.ofNat (16 * high + low) := by
        decide
      have hsum : 16 * (byte.toNat / 16 % 16) + byte.toNat % 16 = byte.toNat := by omega
      rw [hall _ (Nat.mod_lt _ (by decide)) _ (Nat.mod_lt _ (by decide)), hsum, UInt8.ofNat_toNat]
    rw [List.flatMap_cons, hexaDigits_byte, List.cons_append, List.cons_append, List.nil_append,
      hexaDecodeLoop, hhigh, hhighDigit]
    simp only [Bool.false_eq_true, if_false]
    rw [hexaDecodeLoop, hlow, hlowDigit]
    simp only [Bool.false_eq_true, if_false]
    rw [hvalue, ih, List.append_assoc]
    rfl

theorem filter_dumpLine (indent bytesPerLine : ℕ) (line : ByteBlock) :
    (dumpLine indent bytesPerLine line).filter (!isSpace ·) =
      line.flatMap fun byte ↦ hexaDigits 2 byte.toNat := by
  have hindent : (List.replicate indent ' ').filter (!isSpace ·) = [] :=
    List.filter_eq_nil_iff.mpr fun char hchar ↦ by
      rw [(List.mem_replicate.mp hchar).2]
      decide
  have hseparator : ∀ index : ℕ,
      (if index + 1 < bytesPerLine then [' '] else []).filter (!isSpace ·) = [] := by
    intro index
    split_ifs
    · rfl
    · rfl
  have hbytes : ∀ (line : ByteBlock) (start : ℕ), ((line.mapIdx fun index byte ↦
      hexaDigits 2 byte.toNat ++
        if start + index + 1 < bytesPerLine then [' '] else []).flatten).filter (!isSpace ·) =
          line.flatMap fun byte ↦ hexaDigits 2 byte.toNat := by
    intro line
    induction line with
    | nil =>
      intro _
      rfl
    | cons byte rest ih =>
      intro start
      have hnext := ih (start + 1)
      simp only [Nat.add_assoc, Nat.add_comm 1] at hnext
      rw [List.mapIdx_cons, List.flatten_cons, List.filter_append, List.filter_append,
        filter_hexaDigits, hseparator, List.append_nil, List.flatMap_cons]
      simp only [Nat.add_assoc]
      rw [hnext]
  have hline := hbytes line 0
  simp only [Nat.zero_add] at hline
  rw [dumpLine, List.filter_append, hindent, List.nil_append, hline]

theorem filter_appendDumpLines (indent : ℕ) {bytesPerLine : ℕ} (hline : 0 < bytesPerLine)
    {turns : ℕ} (text : UString) {data : ByteBlock} (hturns : data.length ≤ turns) :
    (appendDumpLines indent bytesPerLine turns text data).filter (!isSpace ·) =
      text.filter (!isSpace ·) ++ data.flatMap fun byte ↦ hexaDigits 2 byte.toNat := by
  induction turns generalizing text data with
  | zero =>
    obtain rfl := List.eq_nil_of_length_eq_zero (Nat.le_zero.mp hturns)
    rw [List.flatMap_nil, List.append_nil]
    rfl
  | succ turns ih =>
    unfold appendDumpLines
    by_cases hempty : data = []
    · rw [if_pos hempty, hempty, List.flatMap_nil, List.append_nil]
    · have hpositive := List.length_pos_iff.mpr hempty
      have hspace : ∀ char : Char, (char == ' ') = true → isSpace char = true := by
        intro char hchar
        rw [beq_iff_eq.mp hchar]
        rfl
      rw [if_neg hempty, ih _ (by rw [List.length_drop]; omega), List.filter_append,
        filter_rdropWhile hspace, List.filter_append, filter_dumpLine]
      show _ ++ [] ++ _ = _
      rw [List.append_nil, List.append_assoc, ← List.flatMap_append, List.take_append_drop]

theorem hexaDecode_dump (data : ByteBlock) (indent lineWidth : ℕ) {before after : UString}
    (hbefore : ∀ char ∈ before, isSpace char) (hafter : ∀ char ∈ after, isSpace char) :
    hexaDecode (before ++ dump data indent lineWidth ++ after) = some data := by
  have hnone : ∀ text : UString, (∀ char ∈ text, isSpace char) → text.filter (!isSpace ·) = [] := by
    intro text htext
    apply List.filter_eq_nil_iff.mpr
    intro char hchar
    rw [htext char hchar]
    decide
  have hline : 0 < if lineWidth = 0 then 8 else lineWidth := by
    split_ifs <;> omega
  unfold hexaDecode dump
  rw [← hexaDecodeLoop_filter, List.filter_append, List.filter_append, hnone before hbefore,
    hnone after hafter, filter_appendDumpLines indent hline [] (le_refl _)]
  show hexaDecodeLoop ([] ++ ([] ++ _) ++ []) none [] = _
  rw [List.append_nil, List.nil_append, List.nil_append, hexaDecodeLoop_flatMap, List.nil_append]

theorem hexaDigits_succ (width value : ℕ) :
    hexaDigits (width + 1) value = hexaDigits width (value / 16) ++ [hexaDigit (value % 16)] :=
  List.reverse_cons

theorem decodeDigits_hexaDigits {modulus value : ℕ} (width : ℕ) (hvalue : value < 16 ^ width)
    (hmodulus : value < modulus) (rest : UString) :
    decodeDigits modulus 16 (hexaDigits width value ++ rest) 0 =
      decodeDigits modulus 16 rest value := by
  induction width generalizing value rest with
  | zero =>
    obtain rfl : value = 0 := Nat.lt_one_iff.mp hvalue
    rfl
  | succ width ih =>
    have hdigit := (toDigit_hexaDigit (Nat.mod_lt value (by decide : 16 > 0))).2
    have hsmall : value / 16 < 16 ^ width := by
      rw [pow_succ] at hvalue
      exact Nat.div_lt_of_lt_mul (by rw [Nat.mul_comm]; exact hvalue)
    have hsum : (value / 16 * 16 + value % 16) % modulus = value := by
      rw [Nat.div_add_mod']
      exact Nat.mod_eq_of_lt hmodulus
    rw [hexaDigits_succ, List.append_assoc, ih hsmall (by omega), List.singleton_append,
      decodeDigits, hdigit]
    simp only [hsum]

theorem trim_hexa (width value : ℕ) : trim (hexa (width + 1) value) = hexa (width + 1) value := by
  have hlast := (toDigit_hexaDigit (Nat.mod_lt value (by decide : 16 > 0))).1
  have hsplit : hexa (width + 1) value =
      ('0' :: 'x' :: hexaDigits width (value / 16)) ++ [hexaDigit (value % 16)] := by
    rw [hexa, hexaDigits_succ]
    rfl
  have hfirst : (hexa (width + 1) value).dropWhile isSpace = hexa (width + 1) value :=
    List.dropWhile_cons_of_neg (by decide)
  rw [trim, hfirst, hsplit, List.rdropWhile_concat_neg _ _ _ (by rw [hlast]; decide)]

theorem toInteger_hexa {modulus value : ℕ} (width : ℕ) (hvalue : value < 16 ^ (width + 1))
    (hmodulus : value < modulus) : toInteger modulus (hexa (width + 1) value) = some value := by
  have hdigits : hexaDigits (width + 1) value ≠ [] := by
    rw [hexaDigits_succ]
    exact List.append_ne_nil_of_right_ne_nil _ (List.cons_ne_nil _ _)
  have hdecoded := decodeDigits_hexaDigits (width + 1) hvalue hmodulus []
  rw [List.append_nil] at hdecoded
  unfold toInteger
  rw [trim_hexa]
  show (if hexaDigits (width + 1) value = [] then none
    else decodeDigits modulus 16 (hexaDigits (width + 1) value) 0) = some value
  rw [if_neg hdigits, hdecoded]
  rfl

theorem toDigit_decimalDigit {digit : ℕ} (hdigit : digit < 10) :
    let char := Char.ofNat ('0'.toNat + digit)
    isSpace char = false ∧ toDigit 10 char = some digit ∧ char ∉ ['+', '-', 'x', 'X'] := by
  have hall : ∀ digit < 10, isSpace (Char.ofNat ('0'.toNat + digit)) = false ∧
      toDigit 10 (Char.ofNat ('0'.toNat + digit)) = some digit ∧
        Char.ofNat ('0'.toNat + digit) ∉ ['+', '-', 'x', 'X'] := by
    decide
  exact hall digit hdigit

theorem decimalReversed_chars (turns count value : ℕ) {char : Char}
    (hchar : char ∈ decimalReversed turns count value) :
    isSpace char = false ∧ char ∉ ['+', '-', 'x', 'X'] := by
  induction turns generalizing count value with
  | zero => exact absurd hchar List.not_mem_nil
  | succ turns ih =>
    obtain ⟨hspace, -, hsign⟩ := toDigit_decimalDigit (Nat.mod_lt value (by decide : 10 > 0))
    unfold decimalReversed at hchar
    dsimp only at hchar
    split_ifs at hchar with hlast hseparator
    · rw [List.mem_singleton.mp hchar]
      exact ⟨hspace, hsign⟩
    · rcases List.mem_cons.mp hchar with rfl | hchar
      · exact ⟨hspace, hsign⟩
      · rcases List.mem_cons.mp hchar with rfl | hchar
        · decide
        · exact ih _ _ hchar
    · rcases List.mem_cons.mp hchar with rfl | hchar
      · exact ⟨hspace, hsign⟩
      · exact ih _ _ hchar

theorem decodeDigits_decimalReversed {modulus turns value : ℕ} (count : ℕ) (hturns : value < turns)
    (hmodulus : value < modulus) (rest : UString) :
    decodeDigits modulus 10 ((decimalReversed turns count value).reverse ++ rest) 0 =
      decodeDigits modulus 10 rest value := by
  induction turns generalizing count value rest with
  | zero => exact absurd hturns (Nat.not_lt_zero _)
  | succ turns ih =>
    have hdigit := (toDigit_decimalDigit (Nat.mod_lt value (by decide : 10 > 0))).2.1
    have hsum : (value / 10 * 10 + value % 10) % modulus = value := by
      rw [Nat.div_add_mod']
      exact Nat.mod_eq_of_lt hmodulus
    unfold decimalReversed
    dsimp only
    split_ifs with hlast hseparator
    · rw [hlast, Nat.zero_mul, Nat.zero_add] at hsum
      rw [List.reverse_singleton, List.singleton_append, decodeDigits, hdigit]
      simp only [Nat.zero_mul, Nat.zero_add, hsum]
    · have hskip : toDigit 10 ',' = none := by decide
      rw [List.reverse_cons, List.reverse_cons, List.append_assoc, List.append_assoc,
        ih _ (by omega) (by omega), List.singleton_append, decodeDigits, hskip]
      simp only [if_true]
      rw [List.singleton_append, decodeDigits, hdigit]
      simp only [hsum]
    · rw [List.reverse_cons, List.append_assoc, ih _ (by omega) (by omega), List.singleton_append,
        decodeDigits, hdigit]
      simp only [hsum]

theorem trim_of_not_isSpace {text : UString} (htext : ∀ char ∈ text, isSpace char = false) :
    trim text = text := by
  have hdrop : ∀ text : UString, (∀ char ∈ text, isSpace char = false) →
      text.dropWhile isSpace = text := by
    intro text htext
    cases text with
    | nil => rfl
    | cons char rest =>
      rw [List.dropWhile_cons_of_neg (by rw [htext char List.mem_cons_self]; decide)]
  rw [trim, hdrop text htext, List.rdropWhile,
    hdrop _ fun char hchar ↦ htext char (List.mem_reverse.mp hchar), List.reverse_reverse]

theorem toInteger_decimal {modulus value : ℕ} (hmodulus : value < modulus) :
    toInteger modulus (decimal value) = some value := by
  have hchars : ∀ char ∈ decimal value, isSpace char = false ∧ char ∉ ['+', '-', 'x', 'X'] :=
    fun char hchar ↦ decimalReversed_chars _ _ _ (List.mem_reverse.mp hchar)
  have hdecoded := decodeDigits_decimalReversed 0 (Nat.lt_succ_self value) hmodulus []
  rw [List.append_nil] at hdecoded
  have hdigits : decodeDigits modulus 10 (decimal value) 0 = some value := hdecoded
  have hunsigned : decodeUnsigned modulus (decimal value) = some value := by
    unfold decodeUnsigned
    split
    · next hempty =>
      rw [decimal, List.reverse_eq_nil_iff, decimalReversed] at hempty
      split_ifs at hempty
    · next rest hlead =>
      exact absurd (hchars 'x' (by rw [hlead]; simp)).2 (by decide)
    · next rest hlead =>
      exact absurd (hchars 'X' (by rw [hlead]; simp)).2 (by decide)
    · exact hdigits
  unfold toInteger
  rw [trim_of_not_isSpace fun char hchar ↦ (hchars char hchar).1]
  split
  · next rest hsign =>
    exact absurd (hchars '+' (by rw [hsign]; exact List.mem_cons_self)).2 (by decide)
  · next rest hsign =>
    exact absurd (hchars '-' (by rw [hsign]; exact List.mem_cons_self)).2 (by decide)
  · exact hunsigned

end UString

end TSDuck
