import TSDuck.Library.Unicode
import TSDuck.Mpeg.Bytes

/-!
# Conversions between UTF-16 and UTF-8

The strings of the code are in UTF-16. They are converted to and from UTF-8 by two loops which stop
at the end of the output buffer (`convertUTF16ToUTF8`, `convertUTF8ToUTF16`); a character which does
not fit in it is left in the input.

`fromUTF8_toUTF8_iff` states when a string is found again after both conversions.

Scope. The pointers to the input and to the output are what remains of the input and the room in the
output. A `char` is a byte.
-/

namespace TSDuck

abbrev UChar := UInt16

abbrev U16String := List UChar

def written {Input Output : Type} (output : List Output) (result : List Output × List Input) :
    List Output × List Input :=
  (output ++ result.1, result.2)

/-- The output in some room, and what is left of the input. -/
def convertUTF16ToUTF8 : U16String → ℕ → ByteBlock × U16String
  | [], _ => ([], [])
  | unit :: rest, room =>
    if room = 0 then ([], unit :: rest)
    else
      let code := unit.toNat
      if code &&& 0xFC00 = 0xD800 then
        -- a leading surrogate, which must be followed by a trailing one
        match rest with
        | [] => ([], [])
        | surr :: after =>
          if room < 4 then ([], unit :: surr :: after)
          else if surr.toNat &&& 0xFC00 = 0xDC00 then
            let code := 0x010000 + (((code - 0xD800) <<< 10) ||| (surr.toNat - 0xDC00))
            written [UInt8.ofNat (0xF0 ||| ((code >>> 18) &&& 0x07)),
              UInt8.ofNat (0x80 ||| ((code >>> 12) &&& 0x3F)),
              UInt8.ofNat (0x80 ||| ((code >>> 6) &&& 0x3F)),
              UInt8.ofNat (0x80 ||| (code &&& 0x3F))] (convertUTF16ToUTF8 after (room - 4))
          else convertUTF16ToUTF8 after room
      else if code &&& 0xFC00 ≠ 0xDC00 then
        if code < 0x80 then
          written [UInt8.ofNat code] (convertUTF16ToUTF8 rest (room - 1))
        else if code < 0x800 ∧ 1 < room then
          written [UInt8.ofNat (0xC0 ||| ((code >>> 6) &&& 0x1F)),
            UInt8.ofNat (0x80 ||| (code &&& 0x3F))] (convertUTF16ToUTF8 rest (room - 2))
        else if 0x800 ≤ code ∧ 2 < room then
          written [UInt8.ofNat (0xE0 ||| ((code >>> 12) &&& 0x0F)),
            UInt8.ofNat (0x80 ||| ((code >>> 6) &&& 0x3F)),
            UInt8.ofNat (0x80 ||| (code &&& 0x3F))] (convertUTF16ToUTF8 rest (room - 3))
        else ([], unit :: rest)
      else convertUTF16ToUTF8 rest room

def convertUTF8ToUTF16 : ByteBlock → ℕ → U16String × ByteBlock
  | [], _ => ([], [])
  | byte :: rest, room =>
    if room = 0 then ([], byte :: rest)
    else
      let code := byte.toNat
      if code < 0x80 then
        written [UInt16.ofNat code] (convertUTF8ToUTF16 rest (room - 1))
      else if code &&& 0xE0 = 0xC0 then
        match rest with
        | second :: after =>
          written [UInt16.ofNat (((code &&& 0x1F) <<< 6) ||| (second.toNat &&& 0x3F))]
            (convertUTF8ToUTF16 after (room - 1))
        | [] => ([], [])
      else if code &&& 0xF0 = 0xE0 then
        match rest with
        | second :: third :: after =>
          written [UInt16.ofNat (((code &&& 0x0F) <<< 12) |||
            ((second.toNat &&& 0x3F) <<< 6) ||| (third.toNat &&& 0x3F))]
            (convertUTF8ToUTF16 after (room - 1))
        | _ => ([], [])
      else if code &&& 0xF8 = 0xF0 then
        match rest with
        | second :: third :: fourth :: after =>
          if room < 2 then ([], byte :: second :: third :: fourth :: after)
          else
            let code := ((code &&& 0x07) <<< 18) ||| ((second.toNat &&& 0x3F) <<< 12) |||
              ((third.toNat &&& 0x3F) <<< 6) ||| (fourth.toNat &&& 0x3F)
            -- the subtraction wraps in 32 bits
            let code := (code + 0x100000000 - 0x10000) % 0x100000000
            written [UInt16.ofNat (0xD800 + (code >>> 10)), UInt16.ofNat (0xDC00 + (code &&& 0x03FF))]
              (convertUTF8ToUTF16 after (room - 2))
        | _ => ([], [])
      else convertUTF8ToUTF16 rest room

def toUTF8 (text : U16String) : ByteBlock :=
  (convertUTF16ToUTF8 text (2 * text.length)).1

def fromUTF8 (utf8 : ByteBlock) : U16String :=
  (convertUTF8ToUTF16 utf8 utf8.length).1

open Unicode

/-! ### One character to UTF-8 -/

theorem high6_eq {code : ℕ} (hcode : code < 0x10000) : code &&& 0xFC00 = 0x400 * (code / 0x400) := by
  have hhigh : code &&& (2 ^ 10 * (2 ^ 6 - 1)) = 2 ^ 10 * (code / 2 ^ 10) := and_high hcode
  exact hhigh

theorem marked_bits (marker code shift width : ℕ) :
    2 ^ width * marker ||| ((code >>> shift) &&& (2 ^ width - 1)) =
      2 ^ width * marker + code / 2 ^ shift % 2 ^ width := by
  rw [Nat.shiftRight_eq_div_pow, and_mask]
  exact or_low marker (Nat.mod_lt _ (Nat.two_pow_pos width))

theorem continuation_eq (code : ℕ) :
    0x80 ||| (code &&& 0x3F) = 0x80 + code % 0x40 ∧
      0x80 ||| ((code >>> 6) &&& 0x3F) = 0x80 + code / 0x40 % 0x40 ∧
      0x80 ||| ((code >>> 12) &&& 0x3F) = 0x80 + code / 0x1000 % 0x40 := by
  refine ⟨?_, marked_bits 2 code 6 6, marked_bits 2 code 12 6⟩
  have hfirst := marked_bits 2 code 0 6
  rw [Nat.shiftRight_zero, Nat.pow_zero, Nat.div_one] at hfirst
  exact hfirst

theorem firstByte_eq (code : ℕ) :
    0xC0 ||| ((code >>> 6) &&& 0x1F) = 0xC0 + code / 0x40 % 0x20 ∧
      0xE0 ||| ((code >>> 12) &&& 0x0F) = 0xE0 + code / 0x1000 % 0x10 ∧
      0xF0 ||| ((code >>> 18) &&& 0x07) = 0xF0 + code / 0x40000 % 0x08 :=
  ⟨marked_bits 6 code 6 5, marked_bits 14 code 12 4, marked_bits 30 code 18 3⟩

/-- A pair of surrogates gives four bytes if they fit. -/
theorem convertUTF16ToUTF8_pair {high low : ℕ} (hhigh : high < 0x400) (hlow : low < 0x400)
    (rest : U16String) (room : ℕ) :
    convertUTF16ToUTF8
        (UInt16.ofNat (0xD800 + high) :: UInt16.ofNat (0xDC00 + low) :: rest) room =
      if 4 ≤ room then
        written (utf8 (0x10000 + (0x400 * high + low))) (convertUTF16ToUTF8 rest (room - 4))
      else ([], UInt16.ofNat (0xD800 + high) :: UInt16.ofNat (0xDC00 + low) :: rest) := by
  have hlead : (UInt16.ofNat (0xD800 + high)).toNat = 0xD800 + high := by
    rw [UInt16.toNat_ofNat']
    omega
  have htrail : (UInt16.ofNat (0xDC00 + low)).toNat = 0xDC00 + low := by
    rw [UInt16.toNat_ofNat']
    omega
  rw [convertUTF16ToUTF8]
  by_cases hroom : 4 ≤ room
  · rw [if_pos hroom, if_neg (by omega), hlead]
    dsimp only
    rw [high6_eq (by omega), if_pos (by omega), if_neg (by omega), htrail, high6_eq (by omega),
      if_pos (by omega)]
    have hcode : 0x10000 + (((0xD800 + high - 0xD800) <<< 10) ||| (0xDC00 + low - 0xDC00)) =
        0x10000 + (0x400 * high + low) := by
      rw [Nat.add_sub_cancel_left, Nat.add_sub_cancel_left, Nat.shiftLeft_eq, Nat.mul_comm]
      congr 1
      exact or_low high hlow
    rw [hcode]
    generalize hcodeEq : 0x10000 + (0x400 * high + low) = code
    obtain ⟨hfirst, hsecond, hthird⟩ := continuation_eq code
    obtain ⟨-, -, hmarker⟩ := firstByte_eq code
    rw [hfirst, hsecond, hthird, hmarker, Nat.mod_eq_of_lt (show code / 0x40000 < 8 by omega)]
    unfold utf8
    rw [if_neg (by omega), if_neg (by omega), if_neg (by omega)]
  · rw [if_neg hroom]
    by_cases hzero : room = 0
    · rw [if_pos hzero]
    · rw [if_neg hzero, hlead]
      dsimp only
      rw [high6_eq (by omega), if_pos (by omega), if_pos (by omega)]

theorem convertUTF16ToUTF8_single {code : ℕ} (hcode : code < 0x10000)
    (hsurrogate : code < 0xD800 ∨ 0xDFFF < code) (rest : U16String) (room : ℕ) :
    convertUTF16ToUTF8 (UInt16.ofNat code :: rest) room = if (utf8 code).length ≤ room then
        written (utf8 code) (convertUTF16ToUTF8 rest (room - (utf8 code).length))
      else ([], UInt16.ofNat code :: rest) := by
  have hunit : (UInt16.ofNat code).toNat = code := by
    rw [UInt16.toNat_ofNat']
    omega
  have hpositive := List.length_pos_of_ne_nil (utf8_ne_nil code)
  obtain ⟨hfirst, hsecond, -⟩ := continuation_eq code
  obtain ⟨htwo, hthree, -⟩ := firstByte_eq code
  rw [convertUTF16ToUTF8]
  by_cases hzero : room = 0
  · rw [if_pos hzero, if_neg (by omega)]
  rw [if_neg hzero, hunit]
  dsimp only
  rw [high6_eq hcode, if_neg (by omega), if_pos (by omega), hfirst, hsecond, htwo, hthree]
  unfold utf8
  by_cases hone : code < 0x80
  · rw [if_pos hone, if_pos hone]
    simp only [List.length_cons, List.length_nil]
    rw [if_pos (by omega)]
  · rw [if_neg hone, if_neg hone]
    by_cases hshort : code < 0x800
    · rw [if_pos hshort, Nat.mod_eq_of_lt (show code / 0x40 < 0x20 by omega)]
      simp only [List.length_cons, List.length_nil]
      by_cases hroom : 1 < room
      · rw [if_pos ⟨hshort, hroom⟩, if_pos (by omega)]
      · rw [if_neg (by omega), if_neg (by omega), if_neg (by omega)]
    · rw [if_neg hshort, if_neg (by omega), if_pos hcode,
        Nat.mod_eq_of_lt (show code / 0x1000 < 0x10 by omega)]
      simp only [List.length_cons, List.length_nil]
      by_cases hroom : 2 < room
      · rw [if_pos ⟨by omega, hroom⟩, if_pos (by omega)]
      · rw [if_neg (by omega), if_neg (by omega)]

variable (char : Char)

theorem convertUTF16ToUTF8_char (rest : U16String) (room : ℕ) :
    convertUTF16ToUTF8 (utf16 char.toNat ++ rest) room = if (utf8 char.toNat).length ≤ room then
        written (utf8 char.toNat) (convertUTF16ToUTF8 rest (room - (utf8 char.toNat).length))
      else ([], utf16 char.toNat ++ rest) := by
  have hvalid := toNat_cases char
  generalize char.toNat = code at hvalid
  by_cases hpair : code < 0x10000
  · have hunits : utf16 code = [UInt16.ofNat code] := if_pos hpair
    rw [hunits]
    exact convertUTF16ToUTF8_single hpair (by omega) rest room
  · have hunits : utf16 code = [UInt16.ofNat (0xD800 + (code - 0x10000) / 0x400),
        UInt16.ofNat (0xDC00 + (code - 0x10000) % 0x400)] := if_neg hpair
    have hlength : (utf8 code).length = 4 := by
      unfold utf8
      rw [if_neg (by omega), if_neg (by omega), if_neg hpair]
      rfl
    have hwhole : 0x10000 + (0x400 * ((code - 0x10000) / 0x400) + (code - 0x10000) % 0x400) =
        code := by
      omega
    have hconvert := convertUTF16ToUTF8_pair (show (code - 0x10000) / 0x400 < 0x400 by omega)
      (show (code - 0x10000) % 0x400 < 0x400 by omega) rest room
    rw [hwhole] at hconvert
    rw [hunits, hlength]
    exact hconvert

/-! ### One character from UTF-8 -/

theorem high_bits_of_byte {byte : ℕ} (hbyte : byte < 0x100) :
    byte &&& 0xE0 = 0x20 * (byte / 0x20) ∧ byte &&& 0xF0 = 0x10 * (byte / 0x10) ∧
      byte &&& 0xF8 = 0x08 * (byte / 0x08) := by
  have htwo : byte &&& (2 ^ 5 * (2 ^ 3 - 1)) = 2 ^ 5 * (byte / 2 ^ 5) := and_high hbyte
  have hthree : byte &&& (2 ^ 4 * (2 ^ 4 - 1)) = 2 ^ 4 * (byte / 2 ^ 4) := and_high hbyte
  have hfour : byte &&& (2 ^ 3 * (2 ^ 5 - 1)) = 2 ^ 3 * (byte / 2 ^ 3) := and_high hbyte
  exact ⟨htwo, hthree, hfour⟩

theorem low_bits_of_byte (byte : ℕ) :
    byte &&& 0x3F = byte % 0x40 ∧ byte &&& 0x1F = byte % 0x20 ∧ byte &&& 0x0F = byte % 0x10 ∧
      byte &&& 0x07 = byte % 0x08 :=
  ⟨and_mask byte 6, and_mask byte 5, and_mask byte 4, and_mask byte 3⟩

theorem joined_bits (first : ℕ) {second third fourth : ℕ} (hsecond : second < 0x40)
    (hthird : third < 0x40) (hfourth : fourth < 0x40) :
    (first <<< 6) ||| second = 0x40 * first + second ∧
      (first <<< 12) ||| (second <<< 6) ||| third = 0x1000 * first + 0x40 * second + third ∧
      (first <<< 18) ||| (second <<< 12) ||| (third <<< 6) ||| fourth =
        0x40000 * first + 0x1000 * second + 0x40 * third + fourth := by
  have hjoin : ∀ high low width, low < 2 ^ width → (high <<< width) ||| low =
      2 ^ width * high + low := by
    intro high low width hlow
    rw [Nat.shiftLeft_eq, Nat.mul_comm]
    exact or_low high hlow
  refine ⟨hjoin first second 6 hsecond, ?_, ?_⟩
  · rw [Nat.or_assoc, hjoin second third 6 hthird, hjoin first _ 12 (by omega)]
    omega
  · rw [Nat.or_assoc, Nat.or_assoc, hjoin third fourth 6 hfourth, hjoin second _ 12 (by omega),
      hjoin first _ 18 (by omega)]
    omega

theorem toNat_byte {value : ℕ} (hvalue : value < 0x100) : (UInt8.ofNat value).toNat = value := by
  rw [UInt8.toNat_ofNat']
  omega

theorem convertUTF8ToUTF16_single {code : ℕ} (hcode : code < 0x10000) (rest : ByteBlock)
    (room : ℕ) :
    convertUTF8ToUTF16 (utf8 code ++ rest) room =
      if 1 ≤ room then written [UInt16.ofNat code] (convertUTF8ToUTF16 rest (room - 1))
      else ([], utf8 code ++ rest) := by
  by_cases hroom : 1 ≤ room
  case neg =>
    rw [if_neg hroom]
    obtain ⟨first, others, hcons⟩ := List.exists_cons_of_ne_nil (utf8_ne_nil code)
    rw [hcons, List.cons_append, convertUTF8ToUTF16, if_pos (by omega)]
  rw [if_pos hroom]
  unfold utf8
  by_cases hone : code < 0x80
  · rw [if_pos hone, List.cons_append, List.nil_append, convertUTF8ToUTF16, if_neg (by omega),
      toNat_byte (by omega)]
    exact if_pos hone
  by_cases htwo : code < 0x800
  · obtain ⟨hhigh, -, -⟩ := high_bits_of_byte (show 0xC0 + code / 0x40 < 0x100 by omega)
    obtain ⟨-, hlow, -, -⟩ := low_bits_of_byte (0xC0 + code / 0x40)
    obtain ⟨hlast, -, -, -⟩ := low_bits_of_byte (0x80 + code % 0x40)
    obtain ⟨hjoined, -, -⟩ := joined_bits ((0xC0 + code / 0x40) % 0x20)
      (show (0x80 + code % 0x40) % 0x40 < 0x40 by omega) (show 0 < 0x40 by decide)
      (show 0 < 0x40 by decide)
    rw [if_neg hone, if_pos htwo, List.cons_append, List.cons_append, List.nil_append,
      convertUTF8ToUTF16, if_neg (by omega), toNat_byte (by omega)]
    dsimp only
    rw [if_neg (by omega), hhigh, if_pos (by omega), toNat_byte (by omega), hlow, hlast, hjoined]
    congr 3
    omega
  · obtain ⟨hhigh, hhigh', -⟩ := high_bits_of_byte (show 0xE0 + code / 0x1000 < 0x100 by omega)
    obtain ⟨-, -, hlow, -⟩ := low_bits_of_byte (0xE0 + code / 0x1000)
    obtain ⟨hmiddle, -, -, -⟩ := low_bits_of_byte (0x80 + code / 0x40 % 0x40)
    obtain ⟨hlast, -, -, -⟩ := low_bits_of_byte (0x80 + code % 0x40)
    obtain ⟨-, hjoined, -⟩ := joined_bits ((0xE0 + code / 0x1000) % 0x10)
      (show (0x80 + code / 0x40 % 0x40) % 0x40 < 0x40 by omega)
      (show (0x80 + code % 0x40) % 0x40 < 0x40 by omega) (show 0 < 0x40 by decide)
    rw [if_neg hone, if_neg htwo, if_pos hcode, List.cons_append, List.cons_append,
      List.cons_append, List.nil_append, convertUTF8ToUTF16, if_neg (by omega),
      toNat_byte (by omega)]
    dsimp only
    rw [if_neg (by omega), hhigh, if_neg (by omega), hhigh', if_pos (by omega),
      toNat_byte (by omega), toNat_byte (by omega), hlow, hmiddle, hlast, hjoined]
    congr 3
    omega

/-- A code above 0xFFFF is a pair if there is room for both. -/
theorem convertUTF8ToUTF16_pair {code : ℕ} (hlarge : 0x10000 ≤ code) (hcode : code < 0x110000)
    (rest : ByteBlock) (room : ℕ) :
    convertUTF8ToUTF16 (utf8 code ++ rest) room = if 2 ≤ room then
        written [UInt16.ofNat (0xD800 + (code - 0x10000) / 0x400),
          UInt16.ofNat (0xDC00 + (code - 0x10000) % 0x400)] (convertUTF8ToUTF16 rest (room - 2))
      else ([], utf8 code ++ rest) := by
  obtain ⟨hhigh, hhigh', hhigh''⟩ :=
    high_bits_of_byte (show 0xF0 + code / 0x40000 < 0x100 by omega)
  obtain ⟨-, -, -, hlow⟩ := low_bits_of_byte (0xF0 + code / 0x40000)
  obtain ⟨hsecond, -, -, -⟩ := low_bits_of_byte (0x80 + code / 0x1000 % 0x40)
  obtain ⟨hthird, -, -, -⟩ := low_bits_of_byte (0x80 + code / 0x40 % 0x40)
  obtain ⟨hlast, -, -, -⟩ := low_bits_of_byte (0x80 + code % 0x40)
  obtain ⟨-, -, hjoined⟩ := joined_bits ((0xF0 + code / 0x40000) % 0x08)
    (show (0x80 + code / 0x1000 % 0x40) % 0x40 < 0x40 by omega)
    (show (0x80 + code / 0x40 % 0x40) % 0x40 < 0x40 by omega)
    (show (0x80 + code % 0x40) % 0x40 < 0x40 by omega)
  have hwhole : 0x40000 * ((0xF0 + code / 0x40000) % 0x08) +
      0x1000 * ((0x80 + code / 0x1000 % 0x40) % 0x40) +
        0x40 * ((0x80 + code / 0x40 % 0x40) % 0x40) + (0x80 + code % 0x40) % 0x40 = code := by
    omega
  have hwrapped : (code + 0x100000000 - 0x10000) % 0x100000000 = code - 0x10000 := by
    omega
  unfold utf8
  rw [if_neg (by omega), if_neg (by omega), if_neg (by omega)]
  simp only [List.cons_append, List.nil_append]
  rw [convertUTF8ToUTF16]
  by_cases hzero : room = 0
  · rw [if_pos hzero, if_neg (by omega)]
  rw [if_neg hzero, toNat_byte (by omega)]
  dsimp only
  rw [if_neg (by omega), hhigh, if_neg (by omega), hhigh', if_neg (by omega), hhigh'',
    if_pos (by omega), toNat_byte (by omega), toNat_byte (by omega), toNat_byte (by omega), hlow,
    hsecond, hthird, hlast, hjoined, hwhole, hwrapped]
  by_cases hroom : 2 ≤ room
  · have hupper : (code - 65536) >>> 10 = (code - 65536) / 1024 := Nat.shiftRight_eq_div_pow _ 10
    have hlower : (code - 65536) &&& 0x03FF = (code - 65536) % 1024 := and_mask _ 10
    rw [if_neg (by omega), if_pos hroom, hupper, hlower]
  · rw [if_pos (by omega), if_neg hroom]

theorem convertUTF8ToUTF16_char (rest : ByteBlock) (room : ℕ) :
    convertUTF8ToUTF16 (utf8 char.toNat ++ rest) room = if (utf16 char.toNat).length ≤ room then
        written (utf16 char.toNat) (convertUTF8ToUTF16 rest (room - (utf16 char.toNat).length))
      else ([], utf8 char.toNat ++ rest) := by
  have hvalid := toNat_cases char
  generalize char.toNat = code at hvalid
  by_cases hpair : code < 0x10000
  · have hunits : utf16 code = [UInt16.ofNat code] := if_pos hpair
    rw [hunits]
    exact convertUTF8ToUTF16_single hpair rest room
  · have hunits : utf16 code = [UInt16.ofNat (0xD800 + (code - 0x10000) / 0x400),
        UInt16.ofNat (0xDC00 + (code - 0x10000) % 0x400)] := if_neg hpair
    rw [hunits]
    exact convertUTF8ToUTF16_pair (by omega) (by omega) rest room

/-! ### Strings -/

variable (chars : List Char)

theorem convertUTF16ToUTF8_encode16 (room : ℕ) :
    ∃ taken left, chars = taken ++ left ∧
      convertUTF16ToUTF8 (encode16 chars) room = (encode8 taken, encode16 left) ∧
        (left = [] ↔ (encode8 chars).length ≤ room) := by
  induction chars generalizing room with
  | nil => exact ⟨[], [], rfl, rfl, iff_of_true rfl (Nat.zero_le _)⟩
  | cons char chars ih =>
    have hcons : encode16 (char :: chars) = utf16 char.toNat ++ encode16 chars := rfl
    have hlength : (encode8 (char :: chars)).length =
        (utf8 char.toNat).length + (encode8 chars).length :=
      List.length_append
    rw [hcons, convertUTF16ToUTF8_char, hlength]
    by_cases hfits : (utf8 char.toNat).length ≤ room
    · obtain ⟨taken, left, rfl, hconvert, hleft⟩ := ih (room - (utf8 char.toNat).length)
      refine ⟨char :: taken, left, rfl, ?_, hleft.trans ?_⟩
      · rw [if_pos hfits, hconvert]
        rfl
      · omega
    · refine ⟨[], char :: chars, rfl, if_neg hfits, iff_of_false (List.cons_ne_nil _ _) ?_⟩
      omega

theorem convertUTF8ToUTF16_encode8 {room : ℕ} (hroom : (encode16 chars).length ≤ room) :
    convertUTF8ToUTF16 (encode8 chars) room = (encode16 chars, []) := by
  induction chars generalizing room with
  | nil => rfl
  | cons char chars ih =>
    have hcons : encode8 (char :: chars) = utf8 char.toNat ++ encode8 chars := rfl
    have hlength : (encode16 (char :: chars)).length =
        (utf16 char.toNat).length + (encode16 chars).length :=
      List.length_append
    rw [hlength] at hroom
    rw [hcons, convertUTF8ToUTF16_char, if_pos (by omega), ih (by omega)]
    rfl

theorem length_utf16_le (code : ℕ) : (utf16 code).length ≤ (utf8 code).length := by
  unfold utf16 utf8
  split_ifs <;> simp only [List.length_cons, List.length_nil] <;> omega

theorem length_encode16_le :
    (encode16 chars).length ≤ (encode8 chars).length := by
  induction chars with
  | nil => exact le_rfl
  | cons char chars ih =>
    have hchar := length_utf16_le char.toNat
    show (utf16 char.toNat ++ encode16 chars).length ≤ (utf8 char.toNat ++ encode8 chars).length
    rw [List.length_append, List.length_append]
    omega

theorem fromUTF8_encode8 : fromUTF8 (encode8 chars) = encode16 chars := by
  unfold fromUTF8
  rw [convertUTF8ToUTF16_encode8 chars (length_encode16_le chars)]

def isASCII (unit : UChar) : Bool := unit.toNat < 0x80

def isWide (unit : UChar) : Bool :=
  0x800 ≤ unit.toNat && !(0xD800 ≤ unit.toNat && unit.toNat ≤ 0xDFFF)

theorem length_utf8_add :
    (utf8 char.toNat).length + (utf16 char.toNat).countP isASCII =
      2 * (utf16 char.toNat).length + (utf16 char.toNat).countP isWide := by
  have hvalid := toNat_cases char
  generalize char.toNat = code at hvalid
  have hunit : ∀ value, value < 0x10000 → (UInt16.ofNat value).toNat = value := by
    intro value hvalue
    rw [UInt16.toNat_ofNat']
    omega
  unfold utf16 utf8
  by_cases hpair : code < 0x10000
  · rw [if_pos hpair, if_pos hpair, List.countP_singleton, List.countP_singleton]
    unfold isASCII isWide
    rw [hunit code hpair]
    simp only [decide_eq_true_eq, Bool.and_eq_true, Bool.not_eq_true', Bool.and_eq_false_iff,
      decide_eq_false_iff_not, List.length_singleton]
    split_ifs <;> simp only [List.length_cons, List.length_nil] <;> omega
  · rw [if_neg hpair, if_neg hpair, if_neg (by omega), if_neg (by omega), List.countP_cons,
      List.countP_singleton, List.countP_cons, List.countP_singleton]
    unfold isASCII isWide
    rw [hunit _ (by omega), hunit _ (by omega)]
    simp only [decide_eq_true_eq, Bool.and_eq_true, Bool.not_eq_true', Bool.and_eq_false_iff,
      decide_eq_false_iff_not, List.length_cons, List.length_nil]
    split_ifs <;> omega

theorem length_encode8_add :
    (encode8 chars).length + (encode16 chars).countP isASCII =
      2 * (encode16 chars).length + (encode16 chars).countP isWide := by
  induction chars with
  | nil => rfl
  | cons char chars ih =>
    have hchar := length_utf8_add char
    show (utf8 char.toNat ++ encode8 chars).length + (utf16 char.toNat ++ encode16 chars).countP _ =
      2 * (utf16 char.toNat ++ encode16 chars).length + (utf16 char.toNat ++ encode16 chars).countP _
    rw [List.length_append, List.length_append, List.countP_append, List.countP_append]
    omega

/-- Assumes: a well-formed string. It is found again if and only if it has at most as many
characters from U+0800 to U+FFFF as ASCII characters. -/
theorem fromUTF8_toUTF8_iff {text : U16String} (hwell : IsWellFormed text) :
    fromUTF8 (toUTF8 text) = text ↔ text.countP isWide ≤ text.countP isASCII := by
  obtain ⟨chars, rfl⟩ := hwell
  obtain ⟨taken, left, rfl, hconvert, hleft⟩ :=
    convertUTF16ToUTF8_encode16 chars (2 * (encode16 chars).length)
  have hcount := length_encode8_add (taken ++ left)
  have htext : toUTF8 (encode16 (taken ++ left)) = encode8 taken := congrArg Prod.fst hconvert
  have happend : encode16 (taken ++ left) = encode16 taken ++ encode16 left := List.flatMap_append
  rw [htext, fromUTF8_encode8]
  calc encode16 taken = encode16 (taken ++ left) ↔ encode16 left = [] := by
        rw [happend, List.self_eq_append_right]
    _ ↔ left = [] := by
        constructor
        · intro hnil
          cases left with
          | nil => rfl
          | cons char others =>
            exact absurd (List.append_eq_nil_iff.mp hnil).1 (utf16_ne_nil char.toNat)
        · rintro rfl
          rfl
    _ ↔ (encode8 (taken ++ left)).length ≤ 2 * (encode16 (taken ++ left)).length := hleft
    _ ↔ _ := by omega

/-- A character of three bytes and one of one byte. -/
theorem fromUTF8_toUTF8_wide_ascii : fromUTF8 (toUTF8 [0x4E2D, 0x41]) = [0x4E2D, 0x41] := by
  have hwell : IsWellFormed [0x4E2D, 0x41] := ⟨[Char.ofNat 0x4E2D, 'A'], by decide⟩
  exact (fromUTF8_toUTF8_iff hwell).mpr (by decide)

/-- A character of three bytes on its own is lost. -/
theorem fromUTF8_toUTF8_wide : IsWellFormed [0x4E2D] ∧ fromUTF8 (toUTF8 [0x4E2D]) ≠ [0x4E2D] :=
  ⟨⟨[Char.ofNat 0x4E2D], by decide⟩, by decide⟩

end TSDuck
