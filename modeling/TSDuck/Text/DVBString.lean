import TSDuck.Text.DVBCharsetSingleByte

/-!
# Strings in DVB structures

A string of a DVB structure starts with the code of its character set, except in the default one,
and its characters follow.

`fromDVB_toDVB_iff` is the condition under which a string is read again without its carriage returns
and otherwise unchanged.

Scope. The number of characters to encode is absent for the largest size, which means up to the end
of the string.
-/

namespace TSDuck

/-- A character set of DVB strings. -/
inductive DVBCharset
  | singleByte (charset : DVBCharsetSingleByte)
  | UTF_8
  | UNICODE
deriving DecidableEq

def DVB_CODEPOINT_CRLF : UChar := 0xE08A

def FULL_STOP : UChar := 0x002E

def getUInt24 (data : ByteBlock) (offset : ℕ) : ℕ :=
  (byteAt data offset).toNat * 65536 + getUInt16 data (offset + 1)

def putUInt24 (value : ℕ) : ByteBlock :=
  UInt8.ofNat (value / 65536) :: putUInt16 value

def substr (text : U16String) (start : ℕ) : Option ℕ → U16String
  | none => text.drop start
  | some count => (text.drop start).take count

/-- Encodes a string in UTF-8 as long as its characters fit in the buffer. -/
def encodeUTF8 : ℕ → U16String → ByteBlock × ℕ
  | _, [] => ([], 0)
  | size, unit :: rest =>
    if size = 0 then ([], 0)
    else if unit ≠ CARRIAGE_RETURN then
      let utf8 := toUTF8 [unit]
      if size < utf8.length then ([], 0)
      else
        let result := encodeUTF8 (size - utf8.length) rest
        (utf8 ++ result.1, result.2 + 1)
    else encodeUTF8 size rest

def encodeUTF16 : ℕ → U16String → ByteBlock × ℕ
  | _, [] => ([], 0)
  | size, unit :: rest =>
    if size ≤ 1 then ([], 0)
    else if unit ≠ CARRIAGE_RETURN then
      let result := encodeUTF16 (size - 2) rest
      (putUInt16 (if unit = LINE_FEED then DVB_CODEPOINT_CRLF else unit).toNat ++ result.1,
        result.2 + 1)
    else encodeUTF16 size rest

/-- Decodes two bytes for each character. -/
def decodeUTF16 : ByteBlock → U16String
  | high :: low :: rest =>
    let unit := UInt16.ofNat (getUInt16 [high, low] 0)
    (if unit = DVB_CODEPOINT_CRLF then LINE_FEED else unit) :: decodeUTF16 rest
  | _ => []

namespace DVBCharset

def tableCode : DVBCharset → ℕ
  | singleByte charset => charset.tableCode
  | UTF_8 => 0x000015
  | UNICODE => 0x000011

def decode : DVBCharset → ByteBlock → U16String
  | singleByte charset => charset.decode
  | UTF_8 => fromUTF8
  | UNICODE => decodeUTF16

def canEncode : DVBCharset → U16String → Bool
  | singleByte charset => charset.canEncode
  | UTF_8 => fun _ ↦ true
  | UNICODE => fun _ ↦ true

/-- Encodes while there is space: the bytes and a count. -/
def encode : DVBCharset → ℕ → U16String → ByteBlock × ℕ
  | singleByte charset => charset.encode
  | UTF_8 => encodeUTF8
  | UNICODE => encodeUTF16

/-- The code of a character set, cut in the buffer. -/
def encodeTableCode (charset : DVBCharset) (size : ℕ) : ByteBlock :=
  let code := charset.tableCode
  let buf :=
    if code = 0 then []
    else if code < 0x1F ∧ code ≠ 0x10 then [UInt8.ofNat code]
    else if code &&& 0xFFFFFF00 = 0x00001F00 then putUInt16 code
    else if code &&& 0xFFFF0000 = 0x00100000 then putUInt24 code
    else []
  buf.take size

open DVBCharsetSingleByte in
def repository : List DVBCharset :=
  [singleByte ISO_6937, singleByte ISO_8859_1, singleByte ISO_8859_2, singleByte ISO_8859_3,
    singleByte ISO_8859_4, singleByte ISO_8859_5, singleByte ISO_8859_6, singleByte ISO_8859_7,
    singleByte ISO_8859_8, singleByte ISO_8859_9, singleByte ISO_8859_10, singleByte ISO_8859_11,
    singleByte ISO_8859_13, singleByte ISO_8859_14, singleByte ISO_8859_15, UTF_8, UNICODE]

def getCharset (tableCode : ℕ) : Option DVBCharset :=
  repository.find? (·.tableCode = tableCode)

/-- The code in front of a string and its size. -/
def getCharCodeTable : ByteBlock → Option (ℕ × ℕ)
  | [] => some (0, 0)
  | first :: rest =>
    if 0x20 ≤ first.toNat then some (0, 0)
    else if first = 0x1F then none
    else if first = 0x10 then
      if 3 ≤ (first :: rest).length then some (getUInt24 (first :: rest) 0, 3) else none
    else some (first.toNat, 1)

end DVBCharset

abbrev RegisteredCharset := {charset : DVBCharset // charset ∈ DVBCharset.repository}

open DVBCharset

/-- Reads a string, with a default character set. -/
def fromDVB (dvb : ByteBlock) (charset : Option DVBCharset) : U16String :=
  match getCharCodeTable dvb with
  | none => []
  | some (code, codeSize) =>
    match if code ≠ 0 ∨ charset = none then getCharset code else charset with
    | none => (dvb.drop codeSize).map fun byte ↦
        if 0x20 ≤ byte.toNat ∧ byte.toNat ≤ 0x7E then UInt16.ofNat byte.toNat else FULL_STOP
    | some charset => charset.decode (dvb.drop codeSize)

def dvbEncoders : List DVBCharset :=
  [.singleByte DVBCharsetSingleByte.ISO_6937, .singleByte DVBCharsetSingleByte.ISO_8859_15, .UTF_8]

/-- The character set that encodes a string: the preferred one if it can. -/
def selectCharset (preferred : Option DVBCharset) (text : U16String) : Option DVBCharset :=
  match preferred with
  | some charset =>
    if charset.canEncode text then some charset
    else (dvbEncoders.find? (·.canEncode text)).or preferred
  | none => dvbEncoders.find? (·.canEncode text)

/-- Writes a string: the bytes, and a size. -/
def toDVBBuffer (text : U16String) (size start : ℕ) (count : Option ℕ)
    (preferred : Option DVBCharset) : ByteBlock × ℕ :=
  if size = 0 ∨ text.length ≤ start then ([], 0)
  else
    match selectCharset preferred text with
    | none => ([], 0)
    | some charset =>
      let code := charset.encodeTableCode size
      let body := charset.encode (size - code.length) (substr text start count)
      (code ++ body.1, code.length + body.2)

def UTF8_CHAR_MAX_SIZE : ℕ := 4

def toDVB (text : U16String) (start : ℕ) (count : Option ℕ) (preferred : Option DVBCharset) :
    ByteBlock :=
  if text.length ≤ start then []
  else (toDVBBuffer text (UTF8_CHAR_MAX_SIZE * (substr text start count).length) start count
    preferred).1

/-! ### The codes of the character sets -/

theorem find?_key {α β : Type} [DecidableEq β] {key : α → β} {elements : List α}
    (hnodup : (elements.map key).Nodup) {element : α} (hmem : element ∈ elements) :
    elements.find? (key · = key element) = some element := by
  induction elements with
  | nil => cases hmem
  | cons head elements ih =>
    rw [List.map_cons, List.nodup_cons] at hnodup
    rcases List.mem_cons.mp hmem with rfl | htail
    · exact List.find?_cons_of_pos (decide_eq_true rfl)
    · have hne : key head ≠ key element := fun heq ↦
        hnodup.1 (heq ▸ List.mem_map_of_mem htail)
      rw [List.find?_cons_of_neg (by rw [decide_eq_true_eq]; exact hne)]
      exact ih hnodup.2 htail

variable (charset : RegisteredCharset)

theorem getCharset_tableCode :
    getCharset charset.1.tableCode = some charset.1 :=
  find?_key (by decide) charset.2

/-- The formats of the registered codes. -/
theorem tableCode_cases :
    charset.1.tableCode = 0 ∨
      (0 < charset.1.tableCode ∧ charset.1.tableCode < 0x1F ∧ charset.1.tableCode ≠ 0x10) ∨
        (0x100000 ≤ charset.1.tableCode ∧ charset.1.tableCode < 0x110000) := by
  have hcodes : ∀ charset ∈ repository, charset.tableCode = 0 ∨
      (0 < charset.tableCode ∧ charset.tableCode < 0x1F ∧ charset.tableCode ≠ 0x10) ∨
        (0x100000 ≤ charset.tableCode ∧ charset.tableCode < 0x110000) := by
    decide
  exact hcodes charset.1 charset.2

variable {size : ℕ} {text : U16String}

theorem getCharCodeTable_encodeTableCode (hsize : 3 ≤ size) {body : ByteBlock}
    (hbody : charset.1.tableCode = 0 → ∀ byte ∈ body, 0x20 ≤ byte.toNat) :
    getCharCodeTable (charset.1.encodeTableCode size ++ body) =
      some (charset.1.tableCode, (charset.1.encodeTableCode size).length) := by
  have hcases := tableCode_cases charset
  unfold encodeTableCode
  generalize charset.1.tableCode = code at hcases hbody
  dsimp only
  rcases hcases with rfl | ⟨hpos, hsmall, hreserved⟩ | ⟨hlow, hhigh⟩
  · rw [if_pos rfl, List.take_nil, List.nil_append]
    cases body with
    | nil => rfl
    | cons first body => exact if_pos (hbody rfl first List.mem_cons_self)
  · have hfirst : (UInt8.ofNat code).toNat = code := by
      rw [UInt8.toNat_ofNat']
      omega
    have hne : ∀ other : UInt8, code ≠ other.toNat → UInt8.ofNat code ≠ other := by
      intro other hother heq
      apply hother
      rw [← heq, hfirst]
    rw [if_neg (by omega), if_pos ⟨hsmall, hreserved⟩, List.take_of_length_le (by
      rw [List.length_singleton]; omega), List.cons_append, getCharCodeTable, hfirst,
      if_neg (by omega), if_neg (hne 0x1F (show code ≠ 0x1F by omega)), if_neg (hne 0x10 hreserved)]
    rfl
  · have hmask : code &&& (2 ^ 8 * (2 ^ 24 - 1)) = 2 ^ 8 * (code / 2 ^ 8) :=
      Unicode.and_high (by omega)
    have hmask' : code &&& (2 ^ 16 * (2 ^ 16 - 1)) = 2 ^ 16 * (code / 2 ^ 16) :=
      Unicode.and_high (by omega)
    have htwo : code &&& 0xFFFFFF00 ≠ 0x00001F00 := by
      rw [show (0xFFFFFF00 : ℕ) = 2 ^ 8 * (2 ^ 24 - 1) from rfl, hmask]
      omega
    have hthree : code &&& 0xFFFF0000 = 0x00100000 := by
      rw [show (0xFFFF0000 : ℕ) = 2 ^ 16 * (2 ^ 16 - 1) from rfl, hmask']
      omega
    have hput : putUInt24 code = [0x10, UInt8.ofNat (code / 256), UInt8.ofNat code] := by
      rw [putUInt24, show code / 65536 = 0x10 by omega]
      rfl
    have hget : getUInt24 (0x10 :: UInt8.ofNat (code / 256) :: UInt8.ofNat code :: body) 0 =
        code := by
      show 0x10 * 65536 + ((UInt8.ofNat (code / 256)).toNat * 256 + (UInt8.ofNat code).toNat) = code
      rw [UInt8.toNat_ofNat', UInt8.toNat_ofNat']
      omega
    rw [if_neg (by omega), if_neg (by omega), if_neg htwo, if_pos hthree, hput,
      List.take_of_length_le hsize]
    simp only [List.cons_append, List.nil_append]
    rw [getCharCodeTable, if_neg (by decide), if_neg (by decide), if_pos rfl,
      if_pos (by simp only [List.length_cons]; omega), hget]
    rfl

/-! ### The characters in UTF-8 -/

theorem length_utf8_le_two (code : ℕ) : (Unicode.utf8 code).length ≤ 2 ↔ code < 0x800 := by
  unfold Unicode.utf8
  split_ifs <;> simp only [List.length_cons, List.length_nil] <;> omega

theorem toUTF8_singleton (unit : UChar) :
    toUTF8 [unit] = if unit.toNat < 0x800 then Unicode.utf8 unit.toNat else [] := by
  have hunit := unit.toNat_lt
  by_cases hsurrogate : unit.toNat < 0xD800 ∨ 0xDFFF < unit.toNat
  · have hconvert := convertUTF16ToUTF8_single hunit hsurrogate [] 2
    rw [UInt16.ofNat_toNat] at hconvert
    show (convertUTF16ToUTF8 [unit] 2).1 = _
    rw [hconvert]
    by_cases hshort : unit.toNat < 0x800
    · rw [if_pos ((length_utf8_le_two unit.toNat).mpr hshort), if_pos hshort, convertUTF16ToUTF8]
      exact List.append_nil _
    · rw [if_neg (mt (length_utf8_le_two unit.toNat).mp hshort), if_neg hshort]
  · show (convertUTF16ToUTF8 [unit] 2).1 = _
    rw [convertUTF16ToUTF8, if_neg (by decide)]
    dsimp only
    rw [high6_eq hunit, if_neg (show ¬unit.toNat < 0x800 by omega)]
    by_cases hlead : 0x400 * (unit.toNat / 0x400) = 0xD800
    · rw [if_pos hlead]
    · rw [if_neg hlead, if_neg (by omega), convertUTF16ToUTF8]

theorem encodeUTF8_eq (hsize : 2 * text.length ≤ size) :
    (encodeUTF8 size text).1 =
      (text.filter fun unit ↦ unit ≠ CARRIAGE_RETURN ∧ unit.toNat < 0x800).flatMap
        fun unit ↦ Unicode.utf8 unit.toNat := by
  induction text generalizing size with
  | nil => rfl
  | cons unit text ih =>
    rw [List.length_cons] at hsize
    rw [encodeUTF8, if_neg (by omega)]
    by_cases hreturn : unit = CARRIAGE_RETURN
    · rw [if_neg (not_not.mpr hreturn), List.filter_cons_of_neg (by
        rw [decide_eq_true_eq]; exact fun hboth ↦ hboth.1 hreturn)]
      exact ih (by omega)
    rw [if_pos hreturn, toUTF8_singleton]
    by_cases hshort : unit.toNat < 0x800
    · have hlength := (length_utf8_le_two unit.toNat).mpr hshort
      rw [if_pos hshort, List.filter_cons_of_pos (by
        rw [decide_eq_true_eq]; exact ⟨hreturn, hshort⟩), List.flatMap_cons]
      dsimp only
      rw [if_neg (by omega), ih (by omega)]
    · rw [if_neg hshort, List.filter_cons_of_neg (by
        rw [decide_eq_true_eq]; exact fun hboth ↦ hshort hboth.2)]
      dsimp only
      rw [List.length_nil, if_neg (Nat.not_lt_zero size), Nat.sub_zero, ih (by omega),
        List.nil_append]

theorem convertUTF8ToUTF16_flatMap {units : U16String} {room : ℕ} (hroom : units.length ≤ room) :
    convertUTF8ToUTF16 (units.flatMap fun unit ↦ Unicode.utf8 unit.toNat) room = (units, []) := by
  induction units generalizing room with
  | nil => rfl
  | cons unit units ih =>
    rw [List.length_cons] at hroom
    rw [List.flatMap_cons, convertUTF8ToUTF16_single unit.toNat_lt, if_pos (by omega),
      ih (by omega), UInt16.ofNat_toNat]
    rfl

theorem length_le_flatMap_utf8 (units : U16String) :
    units.length ≤ (units.flatMap fun unit ↦ Unicode.utf8 unit.toNat).length := by
  induction units with
  | nil => exact le_rfl
  | cons unit units ih =>
    have hpositive := List.length_pos_of_ne_nil (Unicode.utf8_ne_nil unit.toNat)
    rw [List.length_cons, List.flatMap_cons, List.length_append]
    omega

theorem fromUTF8_encodeUTF8 (hsize : 2 * text.length ≤ size) :
    fromUTF8 (encodeUTF8 size text).1 =
      text.filter fun unit ↦ unit ≠ CARRIAGE_RETURN ∧ unit.toNat < 0x800 := by
  unfold fromUTF8
  rw [encodeUTF8_eq hsize, convertUTF8ToUTF16_flatMap (length_le_flatMap_utf8 _)]

def decodedUTF16 (unit : UChar) : UChar :=
  if unit = DVB_CODEPOINT_CRLF then LINE_FEED else unit

theorem decodedUTF16_eq_self_iff (unit : UChar) :
    decodedUTF16 unit = unit ↔ unit ≠ DVB_CODEPOINT_CRLF := by
  unfold decodedUTF16
  by_cases hcode : unit = DVB_CODEPOINT_CRLF
  · rw [if_pos hcode, hcode]
    decide
  · rw [if_neg hcode]
    exact iff_of_true rfl hcode

theorem decodeUTF16_encodeUTF16 (hsize : 2 * text.length ≤ size) :
    decodeUTF16 (encodeUTF16 size text).1 =
      (text.filter (· ≠ CARRIAGE_RETURN)).map decodedUTF16 := by
  induction text generalizing size with
  | nil => rfl
  | cons unit text ih =>
    rw [List.length_cons] at hsize
    rw [encodeUTF16, if_neg (by omega)]
    by_cases hreturn : unit = CARRIAGE_RETURN
    · rw [if_neg (not_not.mpr hreturn), List.filter_cons_of_neg (by
        rw [decide_eq_true_eq]; exact not_not.mpr hreturn)]
      exact ih (by omega)
    have hread : ∀ written : UChar,
        decodeUTF16 (putUInt16 written.toNat ++ (encodeUTF16 (size - 2) text).1) =
          decodedUTF16 written :: decodeUTF16 (encodeUTF16 (size - 2) text).1 := by
      intro written
      have hvalue : UInt16.ofNat (getUInt16 (putUInt16 written.toNat) 0) = written := by
        have hwritten := written.toNat_lt
        have hget : getUInt16 (putUInt16 written.toNat) 0 = written.toNat := by
          show (UInt8.ofNat (written.toNat / 256)).toNat * 256 +
            (UInt8.ofNat written.toNat).toNat = written.toNat
          rw [UInt8.toNat_ofNat', UInt8.toNat_ofNat']
          omega
        rw [hget, UInt16.ofNat_toNat]
      show decodedUTF16 (UInt16.ofNat (getUInt16 (putUInt16 written.toNat) 0)) :: _ = _
      rw [hvalue]
      rfl
    rw [if_pos hreturn, List.filter_cons_of_pos (by rw [decide_eq_true_eq]; exact hreturn),
      List.map_cons]
    dsimp only
    rw [hread, ih (by omega)]
    congr 1
    by_cases hfeed : unit = LINE_FEED
    · rw [if_pos hfeed, hfeed]
      decide
    · rw [if_neg hfeed]

/-! ### The round trip -/

/-- The characters which are read again. -/
def readBack : DVBCharset → U16String → U16String
  | .singleByte _, text => text.filter (· ≠ CARRIAGE_RETURN)
  | .UTF_8, text => text.filter fun unit ↦ unit ≠ CARRIAGE_RETURN ∧ unit.toNat < 0x800
  | .UNICODE, text => (text.filter (· ≠ CARRIAGE_RETURN)).map decodedUTF16

def width : DVBCharset → ℕ
  | .singleByte _ => 1
  | .UTF_8 => 2
  | .UNICODE => 2

theorem decode_encode {charset : DVBCharset} (hcan : charset.canEncode text = true)
    (hsize : width charset * text.length ≤ size) :
    charset.decode (charset.encode size text).1 = readBack charset text := by
  cases charset with
  | singleByte charset =>
    show charset.decode (charset.encode size text).1 = _
    have hlength : (text.filterMap charset.encodeUnit).length ≤ size :=
      (List.length_filterMap_le _ _).trans (Nat.one_mul text.length ▸ hsize)
    rw [DVBCharsetSingleByte.encode_eq, List.take_of_length_le hlength]
    exact DVBCharsetSingleByte.decode_encode hcan
  | UTF_8 => exact fromUTF8_encodeUTF8 hsize
  | UNICODE => exact decodeUTF16_encodeUTF16 hsize

variable (preferred : Option RegisteredCharset)

/-- A registered character set which can encode the string. -/
theorem selectCharset_spec (text : U16String) :
    ∃ charset : RegisteredCharset, selectCharset (preferred.map Subtype.val) text = some charset.1 ∧
        charset.1.canEncode text = true := by
  have hencoders : ∃ charset : RegisteredCharset,
      dvbEncoders.find? (·.canEncode text) = some charset.1 ∧ charset.1.canEncode text = true := by
    have hsome : (dvbEncoders.find? (·.canEncode text)).isSome := by
      rw [List.find?_isSome]
      exact ⟨.UTF_8, by decide, rfl⟩
    obtain ⟨charset, hfind⟩ := Option.isSome_iff_exists.mp hsome
    have hregistered : ∀ encoder ∈ dvbEncoders, encoder ∈ repository := by
      decide
    have hcan := List.find?_some hfind
    exact ⟨⟨charset, hregistered charset (List.mem_of_find?_eq_some hfind)⟩, hfind, hcan⟩
  obtain ⟨encoder, hfind, hencoder⟩ := hencoders
  cases preferred with
  | none => exact ⟨encoder, hfind, hencoder⟩
  | some charset =>
    show ∃ charset' : RegisteredCharset, (if charset.1.canEncode text then some charset.1
      else (dvbEncoders.find? (·.canEncode text)).or (some charset.1)) = some charset'.1 ∧ _
    by_cases hcan : charset.1.canEncode text = true
    · exact ⟨charset, if_pos hcan, hcan⟩
    · exact ⟨encoder, by rw [if_neg hcan, hfind]; rfl, hencoder⟩

theorem length_encodeTableCode_add_width (charset : DVBCharset) (size : ℕ) :
    (charset.encodeTableCode size).length + width charset ≤ 4 := by
  cases charset with
  | singleByte charset =>
    apply Nat.succ_le_succ
    unfold encodeTableCode
    apply (List.length_take_le' _ _).trans
    split_ifs
    all_goals simp [putUInt24, putUInt16]
  | UTF_8 =>
    have hcode : (DVBCharset.UTF_8.encodeTableCode size).length ≤ 1 := List.length_take_le' _ _
    exact Nat.add_le_add_right (hcode.trans (by decide)) 2
  | UNICODE =>
    have hcode : (DVBCharset.UNICODE.encodeTableCode size).length ≤ 1 := List.length_take_le' _ _
    exact Nat.add_le_add_right (hcode.trans (by decide)) 2

theorem le_encode_of_tableCode_eq_zero {charset : RegisteredCharset}
    (hdefault : charset.1.tableCode = 0) (size : ℕ) (text : U16String) :
    ∀ byte ∈ (charset.1.encode size text).1, 0x20 ≤ byte.toNat := by
  have hsingle : ∀ charset ∈ repository, charset.tableCode = 0 →
      charset = .singleByte DVBCharsetSingleByte.ISO_6937 := by
    decide
  rw [hsingle charset.1 charset.2 hdefault]
  intro byte hbyte
  change byte ∈ (DVBCharsetSingleByte.ISO_6937.encode size text).1 at hbyte
  rw [DVBCharsetSingleByte.encode_eq] at hbyte
  obtain ⟨unit, -, hunit⟩ := List.mem_filterMap.mp (List.mem_of_mem_take hbyte)
  exact (DVBCharsetSingleByte.decodeByte_of_encodeUnit hunit).2.2

theorem fromDVB_toDVB (text : U16String) {charset : RegisteredCharset}
    (hselect : selectCharset (preferred.map Subtype.val) text = some charset.1)
    (hcan : charset.1.canEncode text = true) :
    fromDVB (toDVB text 0 none (preferred.map Subtype.val)) none = readBack charset.1 text := by
  cases text with
  | nil =>
    have hnil : ∀ charset : DVBCharset, readBack charset [] = [] := by
      intro charset
      cases charset <;> rfl
    rw [hnil]
    rfl
  | cons unit rest =>
    generalize htext : unit :: rest = text at hselect hcan
    have hlength : 1 ≤ text.length := by
      rw [← htext, List.length_cons]
      omega
    have hwritten : toDVB text 0 none (preferred.map Subtype.val) =
        charset.1.encodeTableCode (4 * text.length) ++ (charset.1.encode (4 * text.length -
            (charset.1.encodeTableCode (4 * text.length)).length) text).1 := by
      unfold toDVB toDVBBuffer
      rw [if_neg (by omega), hselect, if_neg (show ¬(UTF8_CHAR_MAX_SIZE *
        (substr text 0 none).length = 0 ∨ text.length ≤ 0) by
          show ¬(4 * text.length = 0 ∨ text.length ≤ 0)
          omega)]
      rfl
    have hroom : width charset.1 * text.length +
        (charset.1.encodeTableCode (4 * text.length)).length ≤ 4 * text.length := by
      have hcode := length_encodeTableCode_add_width charset.1 (4 * text.length)
      have hscaled := Nat.mul_le_mul_right text.length hcode
      rw [Nat.add_mul] at hscaled
      have hone := Nat.le_mul_of_pos_right
        (charset.1.encodeTableCode (4 * text.length)).length hlength
      omega
    have hread := getCharCodeTable_encodeTableCode charset (show 3 ≤ 4 * text.length by omega)
      fun hdefault ↦ le_encode_of_tableCode_eq_zero hdefault
        (4 * text.length - (charset.1.encodeTableCode (4 * text.length)).length) text
    unfold fromDVB
    rw [hwritten, hread]
    dsimp only
    rw [if_pos (Or.inr rfl), getCharset_tableCode]
    dsimp only
    rw [List.drop_left]
    exact decode_encode hcan (Nat.le_sub_of_add_le hroom)

/-- A single-byte character set can encode the string. -/
def IsSingleByte (preferred : Option DVBCharset) (text : U16String) : Prop :=
  ∃ charset : DVBCharsetSingleByte, charset.canEncode text = true ∧
    (preferred = some (.singleByte charset) ∨ charset = DVBCharsetSingleByte.ISO_6937 ∨
      charset = DVBCharsetSingleByte.ISO_8859_15)

/-- The strings that lose no character. -/
def IsKept (preferred : Option DVBCharset) (text : U16String) : Prop :=
  if preferred = some .UNICODE then DVB_CODEPOINT_CRLF ∉ text
  else (preferred ≠ some .UTF_8 ∧ IsSingleByte preferred text) ∨ ∀ unit ∈ text, unit.toNat < 0x800

/-- Nothing but the carriage returns is lost of a string in single bytes. -/
theorem readBack_eq_iff (charset : DVBCharset) (text : U16String) :
    readBack charset text = text.filter (· ≠ CARRIAGE_RETURN) ↔
      (charset = .UTF_8 → ∀ unit ∈ text, unit.toNat < 0x800) ∧
        (charset = .UNICODE → DVB_CODEPOINT_CRLF ∉ text) := by
  cases charset with
  | singleByte charset =>
    exact iff_of_true rfl ⟨nofun, nofun⟩
  | UTF_8 =>
    have hfilter : readBack .UTF_8 text =
        (text.filter (· ≠ CARRIAGE_RETURN)).filter fun unit ↦ unit.toNat < 0x800 := by
      rw [List.filter_filter]
      show text.filter _ = _
      congr 1
      funext unit
      rw [Bool.decide_and, Bool.and_comm]
    rw [hfilter, List.filter_eq_self]
    constructor
    · intro hall
      refine ⟨fun _ unit hunit ↦ ?_, nofun⟩
      by_cases hreturn : unit = CARRIAGE_RETURN
      · rw [hreturn]
        decide
      · exact of_decide_eq_true (hall unit (List.mem_filter.mpr ⟨hunit, decide_eq_true hreturn⟩))
    · rintro ⟨hall, -⟩ unit hunit
      exact decide_eq_true (hall rfl unit (List.mem_filter.mp hunit).1)
  | UNICODE =>
    have hmap : readBack .UNICODE text = text.filter (· ≠ CARRIAGE_RETURN) ↔
        ∀ unit ∈ text.filter (· ≠ CARRIAGE_RETURN), decodedUTF16 unit = unit := by
      show (text.filter _).map decodedUTF16 = _ ↔ _
      conv_lhs => rhs; rw [← List.map_id (text.filter (· ≠ CARRIAGE_RETURN))]
      exact List.map_inj_left
    rw [hmap]
    constructor
    · intro hall
      refine ⟨nofun, fun _ hmem ↦ ?_⟩
      have hkept := hall DVB_CODEPOINT_CRLF (List.mem_filter.mpr ⟨hmem, by decide⟩)
      exact (decodedUTF16_eq_self_iff _).mp hkept rfl
    · rintro ⟨-, hmem⟩ unit hunit
      apply (decodedUTF16_eq_self_iff unit).mpr
      rintro rfl
      exact hmem rfl (List.mem_filter.mp hunit).1

theorem find?_dvbEncoders (text : U16String) :
    dvbEncoders.find? (·.canEncode text) = if DVBCharsetSingleByte.ISO_6937.canEncode text then
        some (.singleByte DVBCharsetSingleByte.ISO_6937)
      else if DVBCharsetSingleByte.ISO_8859_15.canEncode text then
        some (.singleByte DVBCharsetSingleByte.ISO_8859_15)
      else some .UTF_8 := by
  unfold dvbEncoders
  rw [List.find?_cons, List.find?_cons]
  cases h6937 : DVBCharsetSingleByte.ISO_6937.canEncode text with
  | true =>
    have hcan : (DVBCharset.singleByte DVBCharsetSingleByte.ISO_6937).canEncode text = true := h6937
    rw [hcan, if_pos rfl]
  | false =>
    have hcan : (DVBCharset.singleByte DVBCharsetSingleByte.ISO_6937).canEncode text = false := h6937
    rw [hcan, if_neg Bool.false_ne_true]
    cases h8859 : DVBCharsetSingleByte.ISO_8859_15.canEncode text with
    | true =>
      have hcan' : (DVBCharset.singleByte DVBCharsetSingleByte.ISO_8859_15).canEncode text = true :=
        h8859
      rw [hcan', if_pos rfl]
    | false =>
      have hcan' : (DVBCharset.singleByte DVBCharsetSingleByte.ISO_8859_15).canEncode text = false :=
        h8859
      rw [hcan', if_neg Bool.false_ne_true]
      rfl

theorem selectCharset_eq (preferred : Option DVBCharset) {charset : DVBCharset}
    (hselect : selectCharset preferred text = some charset) :
    (charset = .UNICODE ↔ preferred = some .UNICODE) ∧
      (charset = .UTF_8 ↔ preferred ≠ some .UNICODE ∧
        ¬(preferred ≠ some .UTF_8 ∧ IsSingleByte preferred text)) := by
  have hsearch : (∀ single, preferred = some (.singleByte single) → single.canEncode text = false) →
      preferred ≠ some .UNICODE → preferred ≠ some .UTF_8 →
      dvbEncoders.find? (·.canEncode text) = some charset →
      (charset = .UNICODE ↔ preferred = some .UNICODE) ∧
        (charset = .UTF_8 ↔ preferred ≠ some .UNICODE ∧
          ¬(preferred ≠ some .UTF_8 ∧ IsSingleByte preferred text)) := by
    intro hpreferred hunicode hutf hfind
    rw [find?_dvbEncoders] at hfind
    by_cases h6937 : DVBCharsetSingleByte.ISO_6937.canEncode text = true
    · rw [if_pos h6937, Option.some_inj] at hfind
      subst hfind
      exact ⟨iff_of_false nofun hunicode,
        iff_of_false nofun fun hboth ↦ hboth.2 ⟨hutf, _, h6937, Or.inr (Or.inl rfl)⟩⟩
    rw [if_neg h6937] at hfind
    by_cases h8859 : DVBCharsetSingleByte.ISO_8859_15.canEncode text = true
    · rw [if_pos h8859, Option.some_inj] at hfind
      subst hfind
      exact ⟨iff_of_false nofun hunicode,
        iff_of_false nofun fun hboth ↦ hboth.2 ⟨hutf, _, h8859, Or.inr (Or.inr rfl)⟩⟩
    · rw [if_neg h8859, Option.some_inj] at hfind
      subst hfind
      refine ⟨iff_of_false nofun hunicode, iff_of_true rfl ⟨hunicode, ?_⟩⟩
      rintro ⟨-, single, hcan, hsingle | rfl | rfl⟩
      · exact absurd hcan (Bool.eq_false_iff.mp (hpreferred single hsingle))
      · exact h6937 hcan
      · exact h8859 hcan
  cases preferred with
  | none =>
    exact hsearch (fun single hsingle ↦ nomatch hsingle) nofun nofun hselect
  | some preferred =>
    unfold selectCharset at hselect
    dsimp only at hselect
    cases preferred with
    | UTF_8 =>
      obtain rfl : DVBCharset.UTF_8 = charset := Option.some.inj hselect
      exact ⟨iff_of_false nofun nofun, iff_of_true rfl ⟨nofun, fun hboth ↦ hboth.1 rfl⟩⟩
    | UNICODE =>
      obtain rfl : DVBCharset.UNICODE = charset := Option.some.inj hselect
      exact ⟨iff_of_true rfl rfl, iff_of_false nofun fun hboth ↦ hboth.1 rfl⟩
    | singleByte single =>
      by_cases hcan : single.canEncode text = true
      · have hown : (DVBCharset.singleByte single).canEncode text = true := hcan
        rw [if_pos hown, Option.some_inj] at hselect
        subst hselect
        exact ⟨iff_of_false nofun nofun,
          iff_of_false nofun fun hboth ↦ hboth.2 ⟨nofun, single, hcan, Or.inl rfl⟩⟩
      · have hown : ¬(DVBCharset.singleByte single).canEncode text = true := hcan
        rw [if_neg hown] at hselect
        apply hsearch
        · intro other hother
          obtain rfl : single = other := DVBCharset.singleByte.inj (Option.some.inj hother)
          exact Bool.eq_false_iff.mpr hcan
        · exact nofun
        · exact nofun
        · rw [find?_dvbEncoders] at hselect ⊢
          split_ifs at hselect ⊢ <;> exact hselect

/-- Exactly when no character is lost in the selected character set. -/
theorem fromDVB_toDVB_iff (preferred : Option RegisteredCharset) (text : U16String) :
    fromDVB (toDVB text 0 none (preferred.map Subtype.val)) none =
        text.filter (· ≠ CARRIAGE_RETURN) ↔
      IsKept (preferred.map Subtype.val) text := by
  obtain ⟨charset, hselect, hcan⟩ := selectCharset_spec preferred text
  obtain ⟨hunicode, hutf⟩ := selectCharset_eq (preferred.map Subtype.val) hselect
  rw [fromDVB_toDVB preferred text hselect hcan, readBack_eq_iff, hunicode, hutf]
  unfold IsKept
  by_cases hpreferred : preferred.map Subtype.val = some .UNICODE
  · rw [if_pos hpreferred]
    exact ⟨fun hkept ↦ hkept.2 hpreferred,
      fun hkept ↦ ⟨fun hboth ↦ absurd hpreferred hboth.1, fun _ ↦ hkept⟩⟩
  · rw [if_neg hpreferred]
    constructor
    · rintro ⟨hkept, -⟩
      exact or_iff_not_imp_left.mpr fun hsingle ↦ hkept ⟨hpreferred, hsingle⟩
    · intro hkept
      exact ⟨fun hboth ↦ hkept.resolve_left hboth.2, fun hsame ↦ absurd hsame hpreferred⟩

/-- The control characters. -/
def IsControl (unit : UChar) : Prop :=
  unit.toNat < 0x20 ∨ (0x7F ≤ unit.toNat ∧ unit.toNat ≤ 0x9F)

/-- A Chinese character is written in UTF-8 and lost. -/
theorem fromDVB_toDVB_ideograph :
    ¬(∀ (text : U16String) (preferred : Option RegisteredCharset), Unicode.IsWellFormed text →
      (∀ unit ∈ text, IsControl unit → unit = CARRIAGE_RETURN ∨ unit = LINE_FEED) →
      fromDVB (toDVB text 0 none (preferred.map Subtype.val)) none =
        text.filter (· ≠ CARRIAGE_RETURN)) := by
  intro hkept
  have hwritten : toDVB [0x4E2D] 0 none none = [0x15] := by
    decide +kernel
  have hcontrol : ∀ unit ∈ ([0x4E2D] : U16String), IsControl unit →
      unit = CARRIAGE_RETURN ∨ unit = LINE_FEED := by
    intro unit hunit hcontrol
    rw [List.mem_singleton.mp hunit] at hcontrol
    exact absurd hcontrol (by unfold IsControl; decide)
  have hlost := hkept [0x4E2D] none ⟨['中'], by decide⟩ hcontrol
  rw [show (none : Option RegisteredCharset).map Subtype.val = none from rfl, hwritten] at hlost
  revert hlost
  decide +kernel

end TSDuck
