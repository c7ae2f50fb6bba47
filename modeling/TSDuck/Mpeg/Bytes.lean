import Mathlib.Data.List.Basic
import Mathlib.Data.Nat.Bitwise

/-!
# Byte blocks and CRC32

The binary data of sections and packets are lists of bytes. Integers are read from them and written
to them in big-endian order, and bytes are written over those of a block (`writeBytes`). `crc32` is
the MPEG-2 cyclic redundancy check at the end of long sections, computed from the same table as the
code.
-/

namespace TSDuck

/-- There are 16-bit values. -/
instance neZero_uint16 : NeZero 65536 := ⟨by decide⟩

instance neZero_pid : NeZero 8192 := ⟨by decide⟩

abbrev ByteBlock := List UInt8

def byteAt (data : ByteBlock) (offset : ℕ) : UInt8 :=
  data.getD offset 0

def getUInt16 (data : ByteBlock) (offset : ℕ) : ℕ :=
  (byteAt data offset).toNat * 256 + (byteAt data (offset + 1)).toNat

def getUInt32 (data : ByteBlock) (offset : ℕ) : ℕ :=
  getUInt16 data offset * 65536 + getUInt16 data (offset + 2)

def putUInt16 (value : ℕ) : ByteBlock :=
  [UInt8.ofNat (value / 256), UInt8.ofNat value]

def putUInt32 (value : ℕ) : ByteBlock :=
  putUInt16 (value / 65536) ++ putUInt16 value

variable {offset other : ℕ} {data bytes : ByteBlock}

theorem byteAt_append_left {front : ByteBlock} (back : ByteBlock) (hoffset : offset < front.length) :
    byteAt (front ++ back) offset = byteAt front offset := by
  rw [byteAt, byteAt, List.getD_append _ _ _ _ hoffset]

theorem byteAt_take (data : ByteBlock) {size : ℕ} (hoffset : offset < size) :
    byteAt (data.take size) offset = byteAt data offset := by
  rw [byteAt, byteAt, List.getD_eq_getElem?_getD, List.getD_eq_getElem?_getD,
    List.getElem?_take_of_lt hoffset]

theorem byteAt_drop (data : ByteBlock) (size offset : ℕ) :
    byteAt (data.drop size) offset = byteAt data (size + offset) := by
  rw [byteAt, byteAt, List.getD_eq_getElem?_getD, List.getD_eq_getElem?_getD, List.getElem?_drop]

theorem byteAt_set_of_ne (data : ByteBlock) (hne : offset ≠ other) (value : UInt8) :
    byteAt (data.set offset value) other = byteAt data other := by
  rw [byteAt, byteAt, List.getD_eq_getElem?_getD, List.getD_eq_getElem?_getD,
    List.getElem?_set_ne hne]

theorem byteAt_set_self (hoffset : offset < data.length) (value : UInt8) :
    byteAt (data.set offset value) offset = value := by
  rw [byteAt, List.getD_eq_getElem?_getD, List.getElem?_set_self hoffset, Option.getD_some]

theorem getUInt16_congr {first second : ByteBlock} (hhigh : byteAt first offset = byteAt second offset)
    (hlow : byteAt first (offset + 1) = byteAt second (offset + 1)) :
    getUInt16 first offset = getUInt16 second offset := by
  rw [getUInt16, getUInt16, hhigh, hlow]

/-- Remainders by the generator polynomial. -/
def fcstab32 : List ℕ :=
  [0x00000000, 0x04C11DB7, 0x09823B6E, 0x0D4326D9, 0x130476DC, 0x17C56B6B,
    0x1A864DB2, 0x1E475005, 0x2608EDB8, 0x22C9F00F, 0x2F8AD6D6, 0x2B4BCB61,
    0x350C9B64, 0x31CD86D3, 0x3C8EA00A, 0x384FBDBD, 0x4C11DB70, 0x48D0C6C7,
    0x4593E01E, 0x4152FDA9, 0x5F15ADAC, 0x5BD4B01B, 0x569796C2, 0x52568B75,
    0x6A1936C8, 0x6ED82B7F, 0x639B0DA6, 0x675A1011, 0x791D4014, 0x7DDC5DA3,
    0x709F7B7A, 0x745E66CD, 0x9823B6E0, 0x9CE2AB57, 0x91A18D8E, 0x95609039,
    0x8B27C03C, 0x8FE6DD8B, 0x82A5FB52, 0x8664E6E5, 0xBE2B5B58, 0xBAEA46EF,
    0xB7A96036, 0xB3687D81, 0xAD2F2D84, 0xA9EE3033, 0xA4AD16EA, 0xA06C0B5D,
    0xD4326D90, 0xD0F37027, 0xDDB056FE, 0xD9714B49, 0xC7361B4C, 0xC3F706FB,
    0xCEB42022, 0xCA753D95, 0xF23A8028, 0xF6FB9D9F, 0xFBB8BB46, 0xFF79A6F1,
    0xE13EF6F4, 0xE5FFEB43, 0xE8BCCD9A, 0xEC7DD02D, 0x34867077, 0x30476DC0,
    0x3D044B19, 0x39C556AE, 0x278206AB, 0x23431B1C, 0x2E003DC5, 0x2AC12072,
    0x128E9DCF, 0x164F8078, 0x1B0CA6A1, 0x1FCDBB16, 0x018AEB13, 0x054BF6A4,
    0x0808D07D, 0x0CC9CDCA, 0x7897AB07, 0x7C56B6B0, 0x71159069, 0x75D48DDE,
    0x6B93DDDB, 0x6F52C06C, 0x6211E6B5, 0x66D0FB02, 0x5E9F46BF, 0x5A5E5B08,
    0x571D7DD1, 0x53DC6066, 0x4D9B3063, 0x495A2DD4, 0x44190B0D, 0x40D816BA,
    0xACA5C697, 0xA864DB20, 0xA527FDF9, 0xA1E6E04E, 0xBFA1B04B, 0xBB60ADFC,
    0xB6238B25, 0xB2E29692, 0x8AAD2B2F, 0x8E6C3698, 0x832F1041, 0x87EE0DF6,
    0x99A95DF3, 0x9D684044, 0x902B669D, 0x94EA7B2A, 0xE0B41DE7, 0xE4750050,
    0xE9362689, 0xEDF73B3E, 0xF3B06B3B, 0xF771768C, 0xFA325055, 0xFEF34DE2,
    0xC6BCF05F, 0xC27DEDE8, 0xCF3ECB31, 0xCBFFD686, 0xD5B88683, 0xD1799B34,
    0xDC3ABDED, 0xD8FBA05A, 0x690CE0EE, 0x6DCDFD59, 0x608EDB80, 0x644FC637,
    0x7A089632, 0x7EC98B85, 0x738AAD5C, 0x774BB0EB, 0x4F040D56, 0x4BC510E1,
    0x46863638, 0x42472B8F, 0x5C007B8A, 0x58C1663D, 0x558240E4, 0x51435D53,
    0x251D3B9E, 0x21DC2629, 0x2C9F00F0, 0x285E1D47, 0x36194D42, 0x32D850F5,
    0x3F9B762C, 0x3B5A6B9B, 0x0315D626, 0x07D4CB91, 0x0A97ED48, 0x0E56F0FF,
    0x1011A0FA, 0x14D0BD4D, 0x19939B94, 0x1D528623, 0xF12F560E, 0xF5EE4BB9,
    0xF8AD6D60, 0xFC6C70D7, 0xE22B20D2, 0xE6EA3D65, 0xEBA91BBC, 0xEF68060B,
    0xD727BBB6, 0xD3E6A601, 0xDEA580D8, 0xDA649D6F, 0xC423CD6A, 0xC0E2D0DD,
    0xCDA1F604, 0xC960EBB3, 0xBD3E8D7E, 0xB9FF90C9, 0xB4BCB610, 0xB07DABA7,
    0xAE3AFBA2, 0xAAFBE615, 0xA7B8C0CC, 0xA379DD7B, 0x9B3660C6, 0x9FF77D71,
    0x92B45BA8, 0x9675461F, 0x8832161A, 0x8CF30BAD, 0x81B02D74, 0x857130C3,
    0x5D8A9099, 0x594B8D2E, 0x5408ABF7, 0x50C9B640, 0x4E8EE645, 0x4A4FFBF2,
    0x470CDD2B, 0x43CDC09C, 0x7B827D21, 0x7F436096, 0x7200464F, 0x76C15BF8,
    0x68860BFD, 0x6C47164A, 0x61043093, 0x65C52D24, 0x119B4BE9, 0x155A565E,
    0x18197087, 0x1CD86D30, 0x029F3D35, 0x065E2082, 0x0B1D065B, 0x0FDC1BEC,
    0x3793A651, 0x3352BBE6, 0x3E119D3F, 0x3AD08088, 0x2497D08D, 0x2056CD3A,
    0x2D15EBE3, 0x29D4F654, 0xC5A92679, 0xC1683BCE, 0xCC2B1D17, 0xC8EA00A0,
    0xD6AD50A5, 0xD26C4D12, 0xDF2F6BCB, 0xDBEE767C, 0xE3A1CBC1, 0xE760D676,
    0xEA23F0AF, 0xEEE2ED18, 0xF0A5BD1D, 0xF464A0AA, 0xF9278673, 0xFDE69BC4,
    0x89B8FD09, 0x8D79E0BE, 0x803AC667, 0x84FBDBD0, 0x9ABC8BD5, 0x9E7D9662,
    0x933EB0BB, 0x97FFAD0C, 0xAFB010B1, 0xAB710D06, 0xA6322BDF, 0xA2F33668,
    0xBCB4666D, 0xB8757BDA, 0xB5365D03, 0xB1F740B4]

def crc32Step (fcs : UInt32) (byte : UInt8) : UInt32 :=
  (fcs <<< 8) ^^^
    UInt32.ofNat (fcstab32.getD (((fcs >>> 24) ^^^ byte.toUInt32) &&& 0xFF).toNat 0)

def crc32 (data : ByteBlock) : UInt32 :=
  data.foldl crc32Step 0xFFFFFFFF

theorem putUInt32_getUInt32 (hoffset : offset + 4 = data.length) :
    putUInt32 (getUInt32 data offset) = data.drop offset := by
  have hbyte : ∀ index, offset ≤ index → index < data.length →
      data.drop index = byteAt data index :: data.drop (index + 1) := by
    intro index _ hindex
    rw [byteAt, List.getD_eq_getElem _ _ hindex]
    exact List.drop_eq_getElem_cons hindex
  rw [hbyte offset (by omega) (by omega), hbyte (offset + 1) (by omega) (by omega),
    show offset + 1 + 1 = offset + 2 from rfl, hbyte (offset + 2) (by omega) (by omega),
    hbyte (offset + 2 + 1) (by omega) (by omega), List.drop_eq_nil_of_le (by omega)]
  have hfirst := (byteAt data offset).toNat_lt
  have hsecond := (byteAt data (offset + 1)).toNat_lt
  have hthird := (byteAt data (offset + 2)).toNat_lt
  have hfourth := (byteAt data (offset + 2 + 1)).toNat_lt
  simp only [putUInt32, putUInt16, getUInt32, getUInt16, List.cons_append, List.nil_append,
    List.cons.injEq, and_true]
  have hofNat : ∀ (value : ℕ) (byte : UInt8), value % 256 = byte.toNat →
      UInt8.ofNat value = byte := by
    intro value byte hvalue
    apply UInt8.toNat_inj.mp
    rw [UInt8.toNat_ofNat', hvalue]
  exact ⟨hofNat _ _ (by omega), hofNat _ _ (by omega), hofNat _ _ (by omega), hofNat _ _ (by omega)⟩

/-! ### Writing in a block -/

def writeBytes (data : ByteBlock) (offset : ℕ) : ByteBlock → ByteBlock
  | [] => data
  | byte :: rest => writeBytes (data.set offset byte) (offset + 1) rest

@[simp] theorem length_writeBytes (data : ByteBlock) (offset : ℕ) (bytes : ByteBlock) :
    (writeBytes data offset bytes).length = data.length := by
  induction bytes generalizing data offset with
  | nil => rfl
  | cons byte rest ih => rw [writeBytes, ih, List.length_set]

theorem byteAt_writeBytes_of_lt (data : ByteBlock) (hother : other < offset) (bytes : ByteBlock) :
    byteAt (writeBytes data offset bytes) other = byteAt data other := by
  induction bytes generalizing data offset with
  | nil => rfl
  | cons byte rest ih =>
    rw [writeBytes, ih _ (by omega), byteAt_set_of_ne _ (by omega)]

theorem byteAt_writeBytes_of_le (data : ByteBlock) (hother : offset + bytes.length ≤ other) :
    byteAt (writeBytes data offset bytes) other = byteAt data other := by
  induction bytes generalizing data offset with
  | nil => rfl
  | cons byte rest ih =>
    rw [List.length_cons] at hother
    rw [writeBytes, ih _ (by omega), byteAt_set_of_ne _ (by omega)]

theorem byteAt_writeBytes {index : ℕ} (hindex : index < bytes.length)
    (hinside : offset + bytes.length ≤ data.length) :
    byteAt (writeBytes data offset bytes) (offset + index) = byteAt bytes index := by
  induction bytes generalizing data offset index with
  | nil => exact absurd hindex (Nat.not_lt_zero _)
  | cons byte rest ih =>
    rw [List.length_cons] at hindex hinside
    cases index with
    | zero =>
      show byteAt (writeBytes (data.set offset byte) (offset + 1) rest) offset = byte
      rw [byteAt_writeBytes_of_lt _ (Nat.lt_succ_self offset), byteAt_set_self (by omega)]
    | succ index =>
      have hnext : offset + (index + 1) = offset + 1 + index := by omega
      rw [writeBytes, hnext, ih (by omega) (by rw [List.length_set]; omega)]
      rfl

theorem getUInt16_writeBytes (hinside : offset + 2 ≤ data.length) (value : ℕ) :
    getUInt16 (writeBytes data offset (putUInt16 value)) offset = value % 65536 := by
  have hfirst : byteAt (writeBytes data offset (putUInt16 value)) (offset + 0) =
      byteAt (putUInt16 value) 0 := byteAt_writeBytes Nat.zero_lt_two hinside
  rw [Nat.add_zero] at hfirst
  have hsecond : byteAt (writeBytes data offset (putUInt16 value)) (offset + 1) =
      byteAt (putUInt16 value) 1 := byteAt_writeBytes Nat.one_lt_two hinside
  rw [getUInt16, hfirst, hsecond]
  simp only [putUInt16, byteAt, List.getD_cons_zero, List.getD_cons_succ, UInt8.toNat_ofNat']
  omega

theorem writeBytes_append (front : ByteBlock) {old : ByteBlock} (hlength : old.length = bytes.length)
    (tail : ByteBlock) :
    writeBytes (front ++ (old ++ tail)) front.length bytes = front ++ (bytes ++ tail) := by
  induction bytes generalizing front old with
  | nil => rw [List.length_eq_zero_iff.mp hlength, writeBytes]
  | cons byte rest ih =>
    cases old with
    | nil => cases hlength
    | cons first others =>
      have hset : (front ++ (first :: others ++ tail)).set front.length byte =
          (front ++ [byte]) ++ (others ++ tail) := by
        rw [List.set_append_right _ _ (le_refl _), Nat.sub_self, List.append_assoc]
        rfl
      have hoffset : front.length + 1 = (front ++ [byte]).length := by
        rw [List.length_append, List.length_singleton]
      rw [writeBytes, hset, hoffset, ih _ (Nat.succ.inj hlength), List.append_assoc]
      rfl

theorem ext_byteAt {first second : ByteBlock} (hlength : first.length = second.length)
    (hbytes : ∀ offset, offset < first.length → byteAt first offset = byteAt second offset) :
    first = second := by
  apply List.ext_getElem hlength
  intro offset hfirst hsecond
  have hbyte := hbytes offset hfirst
  rwa [byteAt, byteAt, List.getD_eq_getElem _ _ hfirst, List.getD_eq_getElem _ _ hsecond] at hbyte

theorem drop_writeBytes (data : ByteBlock) {start : ℕ} (hstart : offset + bytes.length ≤ start) :
    (writeBytes data offset bytes).drop start = data.drop start := by
  induction bytes generalizing data offset with
  | nil => rfl
  | cons byte rest ih =>
    rw [List.length_cons] at hstart
    rw [writeBytes, ih _ (by omega), List.drop_set_of_lt (by omega)]

theorem drop_writeBytes_self (hend : data.length = offset + bytes.length) :
    (writeBytes data offset bytes).drop offset = bytes := by
  have hlength : ((writeBytes data offset bytes).drop offset).length = bytes.length := by
    rw [List.length_drop, length_writeBytes]
    omega
  apply ext_byteAt hlength
  intro index hindex
  rw [hlength] at hindex
  rw [← byteAt_writeBytes hindex (Nat.le_of_eq hend.symm), byteAt, byteAt,
    List.getD_eq_getElem?_getD, List.getD_eq_getElem?_getD, List.getElem?_drop]

end TSDuck
