import TSDuck.Mpeg.BitFields
import TSDuck.Mpeg.PESDemux
import TSDuck.Mpeg.PacketWriter

/-!
# The clocks of a transport packet

A packet may have a program clock reference and an original one in its adaptation field, and a
presentation and a decoding time stamp in the header of the PES packet which it starts.
-/

namespace TSDuck

namespace TSPacket

def hasOPCR (pkt : TSPacket) : Bool :=
  0 < pkt.getAFSize && (byteAt pkt.bytes 5 &&& 0x08) != 0

/-- The offset of the original clock, zero when there is none. -/
def opcrOffset (pkt : TSPacket) : ℕ :=
  if !pkt.hasOPCR then 0
  else if pkt.hasPCR then if 13 ≤ byteAt pkt.bytes 4 then 12 else 0
  else if 7 ≤ byteAt pkt.bytes 4 then 6 else 0

def getOPCR (pkt : TSPacket) : ℕ :=
  if pkt.opcrOffset = 0 then 0 else getPCRAt pkt.bytes pkt.opcrOffset

def ptsOffset (pkt : TSPacket) : ℕ :=
  let pl := pkt.payload
  if !pkt.startPES then 0
  else if pl.length < 14 ∨ !isLongHeaderSID (byteAt pl 3) then 0
  else if byteAt pl 7 >>> 6 &&& 0x02 = 0 ∨ byteAt pl 7 >>> 6 = 0x02 ∧ byteAt pl 9 &&& 0xF1 ≠ 0x21 ∨
      byteAt pl 7 >>> 6 = 0x03 ∧ byteAt pl 9 &&& 0xF1 ≠ 0x31 ∨
      byteAt pl 11 &&& 0x01 ≠ 0x01 ∨ byteAt pl 13 &&& 0x01 ≠ 0x01 then 0
  else pkt.getHeaderSize + 9

def hasPTS (pkt : TSPacket) : Bool :=
  0 < pkt.ptsOffset

def getPTS (pkt : TSPacket) : ℕ :=
  if pkt.ptsOffset = 0 then 0 else getPDTS pkt.bytes pkt.ptsOffset

/-- The bytes of a time stamp, with the other bits. -/
def putPDTS (data : ByteBlock) (offset pdts : ℕ) : ByteBlock :=
  let high := UInt8.ofNat (pdts >>> 29)
  ((byteAt data offset &&& 0xF1) ||| (high &&& 0x0E)) ::
    (putUInt16 ((getUInt16 data (offset + 1) &&& 0x0001) ||| ((pdts >>> 14) &&& 0xFFFE)) ++
      putUInt16 ((getUInt16 data (offset + 3) &&& 0x0001) ||| ((pdts <<< 1) &&& 0xFFFE)))

def setPDTS (pkt : TSPacket) (pdts offset : ℕ) : TSPacket :=
  if offset = 0 then pkt else pkt.write offset (putPDTS pkt.bytes offset pdts)

def setPTS (pkt : TSPacket) (pts : ℕ) : TSPacket :=
  pkt.setPDTS pts pkt.ptsOffset

def setDTS (pkt : TSPacket) (dts : ℕ) : TSPacket :=
  pkt.setPDTS dts pkt.dtsOffset

/-- Replaces the original clock, `none` when there is none. -/
def setOPCR (pkt : TSPacket) (opcr : ℕ) : Option TSPacket :=
  if pkt.opcrOffset = 0 then none else some (pkt.write pkt.opcrOffset (putPCR opcr))

/-! ### Time stamps -/

theorem getPDTS_lt (data : ByteBlock) (offset : ℕ) : getPDTS data offset < 2 ^ 33 := by
  have hhigh : (byteAt data offset &&& 0x0E).toNat <<< 29 < 2 ^ 33 := by
    have hle : (byteAt data offset &&& 0x0E).toNat ≤ 14 := by
      rw [UInt8.toNat_and]
      exact Nat.and_le_right
    rw [Nat.shiftLeft_eq]
    omega
  have hmiddle : (getUInt16 data (offset + 1) &&& 0xFFFE) <<< 14 < 2 ^ 33 := by
    have hle : getUInt16 data (offset + 1) &&& 0xFFFE ≤ 0xFFFE := Nat.and_le_right
    rw [Nat.shiftLeft_eq]
    omega
  have hlow : getUInt16 data (offset + 3) >>> 1 < 2 ^ 33 := by
    have hlt := getUInt16_lt data (offset + 3)
    rw [Nat.shiftRight_eq_div_pow]
    omega
  exact Nat.or_lt_two_pow (Nat.or_lt_two_pow hhigh hmiddle) hlow

theorem getPTS_lt (pkt : TSPacket) : pkt.getPTS < 2 ^ 33 := by
  rw [getPTS]
  split_ifs
  · exact Nat.two_pow_pos 33
  · exact getPDTS_lt _ _

theorem getPCRAt_lt (data : ByteBlock) (offset : ℕ) : getPCRAt data offset < 2 ^ 42 := by
  have hfirst := getUInt16_lt data offset
  have hsecond := getUInt16_lt data (offset + 2)
  have hlast := getUInt16_lt data (offset + 4)
  rw [getPCRAt, getUInt32]
  omega

theorem getPCR_lt (pkt : TSPacket) : pkt.getPCR < 2 ^ 42 := by
  rw [getPCR]
  split_ifs
  · exact Nat.two_pow_pos 42
  · exact getPCRAt_lt _ _

theorem getOPCR_lt (pkt : TSPacket) : pkt.getOPCR < 2 ^ 42 := by
  rw [getOPCR]
  split_ifs
  · exact Nat.two_pow_pos 42
  · exact getPCRAt_lt _ _

theorem and_even_mask (value width : ℕ) :
    value &&& (2 ^ width - 1) * 2 = value / 2 % 2 ^ width * 2 := by
  rw [← Nat.and_two_pow_sub_one_eq_mod]
  refine Nat.eq_of_testBit_eq fun index ↦ ?_
  cases index with
  | zero => simp [Nat.testBit_zero]
  | succ index =>
    rw [Nat.testBit_and, Nat.testBit_succ, Nat.testBit_succ, Nat.testBit_succ,
      Nat.mul_div_cancel _ Nat.zero_lt_two, Nat.mul_div_cancel _ Nat.zero_lt_two, Nat.testBit_and]

theorem lowest_or_even (value other : ℕ) : (value &&& 0x0001) ||| other * 2 = other * 2 + value % 2 := by
  have hlow : value &&& 0x0001 = value % 2 := Nat.and_two_pow_sub_one_eq_mod value 1
  rw [hlow, Nat.mul_comm]
  exact or_high_bits 1 other (Nat.mod_lt _ Nat.zero_lt_two)

theorem toNat_high (pdts : ℕ) :
    (UInt8.ofNat (pdts >>> 29) &&& (0x0E : UInt8)).toNat = pdts / 2 ^ 30 % 8 * 2 := by
  have hmask : (UInt8.ofNat (pdts >>> 29)).toNat &&& (2 ^ 3 - 1) * 2 =
      (UInt8.ofNat (pdts >>> 29)).toNat / 2 % 2 ^ 3 * 2 :=
    and_even_mask _ 3
  rw [UInt8.toNat_and]
  refine hmask.trans ?_
  rw [UInt8.toNat_ofNat', Nat.shiftRight_eq_div_pow]
  omega

theorem marked_word (old bits : ℕ) :
    (old &&& 0x0001) ||| (bits &&& 0xFFFE) = bits / 2 % 2 ^ 15 * 2 + old % 2 := by
  have hmask : bits &&& 0xFFFE = bits / 2 % 2 ^ 15 * 2 := and_even_mask bits 15
  rw [hmask, lowest_or_even]

theorem getUInt16_putPDTS (data : ByteBlock) (offset pdts : ℕ) :
    getUInt16 (putPDTS data offset pdts) 1 =
        pdts / 2 ^ 15 % 2 ^ 15 * 2 + getUInt16 data (offset + 1) % 2 ∧
      getUInt16 (putPDTS data offset pdts) 3 =
        pdts % 2 ^ 15 * 2 + getUInt16 data (offset + 3) % 2 := by
  have hput : ∀ value : ℕ, getUInt16 (putUInt16 value) 0 = value % 65536 := by
    intro value
    simp only [putUInt16, getUInt16, byteAt, List.getD_cons_zero, List.getD_cons_succ,
      Nat.zero_add, UInt8.toNat_ofNat']
    omega
  have hmiddle : (pdts >>> 14) / 2 = pdts / 2 ^ 15 := by
    rw [Nat.shiftRight_eq_div_pow]
    omega
  have hlow : (pdts <<< 1) / 2 = pdts := by
    rw [Nat.shiftLeft_eq]
    omega
  constructor
  · show getUInt16 (putUInt16 ((getUInt16 data (offset + 1) &&& 0x0001) |||
      ((pdts >>> 14) &&& 0xFFFE))) 0 = _
    rw [hput, marked_word, hmiddle]
    omega
  · show getUInt16 (putUInt16 ((getUInt16 data (offset + 3) &&& 0x0001) |||
      ((pdts <<< 1) &&& 0xFFFE))) 0 = _
    rw [hput, marked_word, hlow]
    omega

theorem getPDTS_writeBytes_putPDTS {data : ByteBlock} {offset : ℕ} (pdts : ℕ)
    (hinside : offset + 5 ≤ data.length) :
    getPDTS (writeBytes data offset (putPDTS data offset pdts)) offset = pdts % 2 ^ 33 := by
  have hlength : (putPDTS data offset pdts).length = 5 := rfl
  have hbyte : ∀ index < 5, byteAt (writeBytes data offset (putPDTS data offset pdts))
      (offset + index) = byteAt (putPDTS data offset pdts) index :=
    fun index hindex ↦ byteAt_writeBytes (by omega) (by omega)
  have hword : ∀ index < 4, getUInt16 (writeBytes data offset (putPDTS data offset pdts))
      (offset + index) = getUInt16 (putPDTS data offset pdts) index := by
    intro index hindex
    rw [getUInt16, getUInt16, hbyte index (by omega), Nat.add_assoc, hbyte (index + 1) (by omega)]
  have hfirst : byteAt (putPDTS data offset pdts) 0 &&& (0x0E : UInt8) =
      UInt8.ofNat (pdts >>> 29) &&& (0x0E : UInt8) := by
    refine (and_replaced (byteAt data offset) (UInt8.ofNat (pdts >>> 29)) 0xF1 0x0E 0x0E).trans ?_
    show (byteAt data offset &&& (0 : UInt8)) ||| (UInt8.ofNat (pdts >>> 29) &&& (0x0E : UInt8)) = _
    rw [UInt8.and_zero, UInt8.zero_or]
  have heven : ∀ bits other : ℕ, (bits % 2 ^ 15 * 2 + other % 2) &&& 0xFFFE = bits % 2 ^ 15 * 2 := by
    intro bits other
    refine (and_even_mask _ 15).trans ?_
    omega
  have hzero := hbyte 0 (by decide)
  rw [Nat.add_zero] at hzero
  obtain ⟨hmiddle, hlow⟩ := getUInt16_putPDTS data offset pdts
  have hthird : (pdts % 2 ^ 15 * 2 + getUInt16 data (offset + 3) % 2) >>> 1 = pdts % 2 ^ 15 := by
    rw [Nat.shiftRight_eq_div_pow]
    omega
  rw [getPDTS, hzero, hword 1 (by decide), hword 3 (by decide), hfirst, toNat_high, hmiddle, hlow,
    heven, hthird, Nat.shiftLeft_eq, Nat.shiftLeft_eq]
  have hjoin : pdts / 2 ^ 15 % 2 ^ 15 * 2 * 2 ^ 14 ||| pdts % 2 ^ 15 = pdts % 2 ^ 30 := by
    have hsum := or_high_bits 15 (pdts / 2 ^ 15 % 2 ^ 15)
      (Nat.mod_lt pdts (Nat.two_pow_pos 15))
    rw [Nat.or_comm, show pdts / 2 ^ 15 % 2 ^ 15 * 2 * 2 ^ 14 =
      2 ^ 15 * (pdts / 2 ^ 15 % 2 ^ 15) by omega, hsum]
    omega
  have hall := or_high_bits 30 (pdts / 2 ^ 30 % 8) (Nat.mod_lt pdts (Nat.two_pow_pos 30))
  rw [Nat.or_assoc, hjoin, Nat.or_comm, show pdts / 2 ^ 30 % 8 * 2 * 2 ^ 29 =
    2 ^ 30 * (pdts / 2 ^ 30 % 8) by omega, hall]
  omega

theorem marks_putPDTS (data : ByteBlock) (offset pdts : ℕ) :
    byteAt (putPDTS data offset pdts) 0 &&& (0xF1 : UInt8) = byteAt data offset &&& 0xF1 ∧
      byteAt (putPDTS data offset pdts) 2 &&& 0x01 = byteAt data (offset + 2) &&& 0x01 ∧
        byteAt (putPDTS data offset pdts) 4 &&& 0x01 = byteAt data (offset + 4) &&& 0x01 := by
  have hlowest : ∀ first second : UInt8, first.toNat % 2 = second.toNat % 2 →
      first &&& 0x01 = second &&& 0x01 := by
    intro first second hsame
    refine UInt8.toNat.inj ?_
    rw [UInt8.toNat_and, UInt8.toNat_and]
    refine (Nat.and_two_pow_sub_one_eq_mod _ 1).trans (hsame.trans ?_)
    exact (Nat.and_two_pow_sub_one_eq_mod _ 1).symm
  have hmiddle : (byteAt (putPDTS data offset pdts) 1).toNat * 256 +
      (byteAt (putPDTS data offset pdts) 2).toNat = pdts / 2 ^ 15 % 2 ^ 15 * 2 +
        ((byteAt data (offset + 1)).toNat * 256 + (byteAt data (offset + 2)).toNat) % 2 :=
    (getUInt16_putPDTS data offset pdts).1
  have hlow : (byteAt (putPDTS data offset pdts) 3).toNat * 256 +
      (byteAt (putPDTS data offset pdts) 4).toNat = pdts % 2 ^ 15 * 2 +
        ((byteAt data (offset + 3)).toNat * 256 + (byteAt data (offset + 4)).toNat) % 2 :=
    (getUInt16_putPDTS data offset pdts).2
  refine ⟨?_, hlowest _ _ (by omega), hlowest _ _ (by omega)⟩
  refine (and_replaced (byteAt data offset) (UInt8.ofNat (pdts >>> 29)) 0xF1 0x0E 0xF1).trans ?_
  show (byteAt data offset &&& (0xF1 : UInt8)) ||| (UInt8.ofNat (pdts >>> 29) &&& (0 : UInt8)) = _
  rw [UInt8.and_zero, UInt8.or_zero]

/-! ### Packets of the same shape -/

/-- The places and the masks of the markers of time stamps. -/
def pesMarks : List (ℕ × UInt8) :=
  [(9, 0xF1), (11, 0x01), (13, 0x01), (14, 0xF1), (16, 0x01), (18, 0x01)]

/-- The same header apart from the counter and the time stamps. -/
structure SameShape (pkt other : TSPacket) : Prop where
  header : ∀ index < 6, index ≠ 3 → byteAt other.bytes index = byteAt pkt.bytes index
  flags : byteAt other.bytes 3 &&& 0xF0 = byteAt pkt.bytes 3 &&& 0xF0
  pes : ∀ index < 9, byteAt other.bytes (pkt.getHeaderSize + index) =
    byteAt pkt.bytes (pkt.getHeaderSize + index)
  marks : ∀ mark ∈ pesMarks, byteAt other.bytes (pkt.getHeaderSize + mark.1) &&& mark.2 =
    byteAt pkt.bytes (pkt.getHeaderSize + mark.1) &&& mark.2

namespace SameShape

variable {pkt other third : TSPacket}

theorem flags_and (hshape : SameShape pkt other) {mask : UInt8} (hmask : 0xF0 &&& mask = mask) :
    byteAt other.bytes 3 &&& mask = byteAt pkt.bytes 3 &&& mask := by
  rw [← hmask, ← UInt8.and_assoc, ← UInt8.and_assoc, hshape.flags]

theorem hasAF_eq (hshape : SameShape pkt other) : other.hasAF = pkt.hasAF :=
  congrArg (· != 0) (hshape.flags_and (show 0xF0 &&& 0x20 = (0x20 : UInt8) from rfl))

theorem hasPayload_eq (hshape : SameShape pkt other) : other.hasPayload = pkt.hasPayload :=
  congrArg (· != 0) (hshape.flags_and (show 0xF0 &&& 0x10 = (0x10 : UInt8) from rfl))

theorem getHeaderSize_eq (hshape : SameShape pkt other) :
    other.getHeaderSize = pkt.getHeaderSize := by
  rw [getHeaderSize, getHeaderSize, hshape.hasAF_eq, hshape.header 4 (by decide) (by decide)]

theorem getAFSize_eq (hshape : SameShape pkt other) : other.getAFSize = pkt.getAFSize := by
  rw [getAFSize, getAFSize, hshape.hasAF_eq, hshape.header 4 (by decide) (by decide)]

theorem hasPCR_eq (hshape : SameShape pkt other) : other.hasPCR = pkt.hasPCR := by
  rw [hasPCR, hasPCR, hshape.getAFSize_eq, hshape.header 5 (by decide) (by decide)]

theorem hasOPCR_eq (hshape : SameShape pkt other) : other.hasOPCR = pkt.hasOPCR := by
  rw [hasOPCR, hasOPCR, hshape.getAFSize_eq, hshape.header 5 (by decide) (by decide)]

theorem pcrOffset_eq (hshape : SameShape pkt other) : other.pcrOffset = pkt.pcrOffset := by
  rw [pcrOffset, pcrOffset, hshape.hasPCR_eq, hshape.header 4 (by decide) (by decide)]

theorem opcrOffset_eq (hshape : SameShape pkt other) : other.opcrOffset = pkt.opcrOffset := by
  rw [opcrOffset, opcrOffset, hshape.hasOPCR_eq, hshape.hasPCR_eq,
    hshape.header 4 (by decide) (by decide)]

theorem isScrambled_eq (hshape : SameShape pkt other) : other.isScrambled = pkt.isScrambled := by
  have hshift : ∀ byte : UInt8, byte >>> 6 = (byte &&& 0xF0) >>> 6 := by
    intro byte
    have hlt := byte.toNat_lt
    have hhigh : byte.toNat >>> 6 < 4 := by
      rw [Nat.shiftRight_eq_div_pow]
      omega
    refine UInt8.toNat.inj ?_
    rw [UInt8.toNat_shiftRight, UInt8.toNat_shiftRight, UInt8.toNat_and]
    show byte.toNat >>> 6 = (byte.toNat &&& 0xF0) >>> 6
    rw [Nat.shiftRight_and_distrib]
    exact ((Nat.and_two_pow_sub_one_eq_mod _ 2).trans (Nat.mod_eq_of_lt hhigh)).symm
  rw [isScrambled, isScrambled, hshift, hshape.flags, ← hshift]

theorem refl (pkt : TSPacket) : SameShape pkt pkt :=
  ⟨fun _ _ _ ↦ rfl, rfl, fun _ _ ↦ rfl, fun _ _ ↦ rfl⟩

theorem trans (hfirst : SameShape pkt other) (hsecond : SameShape other third) :
    SameShape pkt third where
  header := fun index hindex hne ↦
    (hsecond.header index hindex hne).trans (hfirst.header index hindex hne)
  flags := hsecond.flags.trans hfirst.flags
  pes := by
    intro index hindex
    have hthird := hsecond.pes index hindex
    rw [hfirst.getHeaderSize_eq] at hthird
    exact hthird.trans (hfirst.pes index hindex)
  marks := by
    intro mark hmark
    have hthird := hsecond.marks mark hmark
    rw [hfirst.getHeaderSize_eq] at hthird
    exact hthird.trans (hfirst.marks mark hmark)

theorem byteAt_payload (pkt : TSPacket) (index : ℕ) :
    byteAt pkt.payload index =
      if pkt.hasPayload then byteAt pkt.bytes (pkt.getHeaderSize + index) else 0 := by
  unfold payload
  split_ifs
  · rw [byteAt, byteAt, List.getD_eq_getElem?_getD, List.getD_eq_getElem?_getD, List.getElem?_drop]
  · rfl

theorem length_payload_eq (hshape : SameShape pkt other) :
    other.payload.length = pkt.payload.length := by
  unfold payload
  rw [hshape.hasPayload_eq, hshape.getHeaderSize_eq]
  split_ifs
  · rw [List.length_drop, List.length_drop, pkt.length_eq, other.length_eq]
  · rfl

theorem byteAt_payload_eq (hshape : SameShape pkt other) {index : ℕ} (hindex : index < 9) :
    byteAt other.payload index = byteAt pkt.payload index := by
  rw [byteAt_payload, byteAt_payload, hshape.hasPayload_eq, hshape.getHeaderSize_eq,
    hshape.pes index hindex]

theorem mark_payload_eq (hshape : SameShape pkt other) {index : ℕ} {mask : UInt8}
    (hmark : (index, mask) ∈ pesMarks) :
    byteAt other.payload index &&& mask = byteAt pkt.payload index &&& mask := by
  have hbytes := hshape.marks _ hmark
  rw [byteAt_payload, byteAt_payload, hshape.hasPayload_eq, hshape.getHeaderSize_eq]
  split_ifs
  · exact hbytes
  · rfl

theorem startPES_eq (hshape : SameShape pkt other) : other.startPES = pkt.startPES := by
  have hsync : other.hasValidSync = pkt.hasValidSync :=
    congrArg (· == syncByte) (hshape.header 0 (by decide) (by decide))
  have hpusi : other.getPUSI = pkt.getPUSI :=
    congrArg (fun byte ↦ byte &&& 0x40 != 0) (hshape.header 1 (by decide) (by decide))
  rw [startPES, startPES, hsync, hpusi, hshape.isScrambled_eq, hshape.hasPayload_eq,
    hshape.length_payload_eq, hshape.byteAt_payload_eq (by decide : 0 < 9),
    hshape.byteAt_payload_eq (by decide : 1 < 9), hshape.byteAt_payload_eq (by decide : 2 < 9)]

theorem ptsOffset_eq (hshape : SameShape pkt other) : other.ptsOffset = pkt.ptsOffset := by
  unfold ptsOffset
  dsimp only
  rw [hshape.startPES_eq, hshape.length_payload_eq, hshape.byteAt_payload_eq (by decide : 3 < 9),
    hshape.byteAt_payload_eq (by decide : 7 < 9),
    hshape.mark_payload_eq (by decide : ((9 : ℕ), (0xF1 : UInt8)) ∈ pesMarks),
    hshape.mark_payload_eq (by decide : ((11 : ℕ), (0x01 : UInt8)) ∈ pesMarks),
    hshape.mark_payload_eq (by decide : ((13 : ℕ), (0x01 : UInt8)) ∈ pesMarks),
    hshape.getHeaderSize_eq]

theorem dtsOffset_eq (hshape : SameShape pkt other) : other.dtsOffset = pkt.dtsOffset := by
  unfold dtsOffset
  dsimp only
  rw [hshape.startPES_eq, hshape.length_payload_eq, hshape.byteAt_payload_eq (by decide : 7 < 9),
    hshape.mark_payload_eq (by decide : ((9 : ℕ), (0xF1 : UInt8)) ∈ pesMarks),
    hshape.mark_payload_eq (by decide : ((11 : ℕ), (0x01 : UInt8)) ∈ pesMarks),
    hshape.mark_payload_eq (by decide : ((13 : ℕ), (0x01 : UInt8)) ∈ pesMarks),
    hshape.mark_payload_eq (by decide : ((14 : ℕ), (0xF1 : UInt8)) ∈ pesMarks),
    hshape.mark_payload_eq (by decide : ((16 : ℕ), (0x01 : UInt8)) ∈ pesMarks),
    hshape.mark_payload_eq (by decide : ((18 : ℕ), (0x01 : UInt8)) ∈ pesMarks),
    hshape.getHeaderSize_eq]

end SameShape

/-! ### The four clocks -/

/-- A clock of a packet. -/
inductive Clock
  | pts
  | dts
  | pcr
  | opcr
  deriving DecidableEq

namespace Clock

def offset (pkt : TSPacket) : Clock → ℕ
  | pts => pkt.ptsOffset
  | dts => pkt.dtsOffset
  | pcr => pkt.pcrOffset
  | opcr => pkt.opcrOffset

def size : Clock → ℕ
  | pts => 5
  | dts => 5
  | pcr => 6
  | opcr => 6

def read (data : ByteBlock) (offset : ℕ) : Clock → ℕ
  | pts => getPDTS data offset
  | dts => getPDTS data offset
  | pcr => getPCRAt data offset
  | opcr => getPCRAt data offset

def put (data : ByteBlock) (offset value : ℕ) : Clock → ByteBlock
  | pts => putPDTS data offset value
  | dts => putPDTS data offset value
  | pcr => putPCR value
  | opcr => putPCR value

def get (clock : Clock) (pkt : TSPacket) : ℕ :=
  if clock.offset pkt = 0 then 0 else clock.read pkt.bytes (clock.offset pkt)

def set (clock : Clock) (pkt : TSPacket) (value : ℕ) : TSPacket :=
  if clock.offset pkt = 0 then pkt
  else pkt.write (clock.offset pkt) (clock.put pkt.bytes (clock.offset pkt) value)

def kept (value : ℕ) : Clock → ℕ
  | pts => value % 2 ^ 33
  | dts => value % 2 ^ 33
  | pcr => value / 300 % 2 ^ 33 * 300 + value % 300
  | opcr => value / 300 % 2 ^ 33 * 300 + value % 300

variable {clock other : Clock} {pkt next : TSPacket}

@[simp] theorem length_put (clock : Clock) (data : ByteBlock) (offset value : ℕ) :
    (clock.put data offset value).length = clock.size := by
  cases clock with
  | pts => rfl
  | dts => rfl
  | pcr => rfl
  | opcr => rfl

theorem offset_eq (hshape : SameShape pkt next) (clock : Clock) :
    clock.offset next = clock.offset pkt := by
  cases clock with
  | pts => exact hshape.ptsOffset_eq
  | dts => exact hshape.dtsOffset_eq
  | pcr => exact hshape.pcrOffset_eq
  | opcr => exact hshape.opcrOffset_eq

theorem le_getHeaderSize {size : ℕ} (hsize : size < 184) (hfield : 0 < pkt.getAFSize)
    (hle : size ≤ (byteAt pkt.bytes 4).toNat) : 5 + size ≤ pkt.getHeaderSize := by
  unfold getAFSize at hfield
  split_ifs at hfield with haf
  · rw [getHeaderSize, if_pos haf, pktSize]
    omega
  · exact absurd hfield (Nat.lt_irrefl 0)

/-- The places of the clocks. -/
theorem offset_cases (pkt : TSPacket) :
    (pkt.pcrOffset = 0 ∨ pkt.pcrOffset = 6 ∧ 12 ≤ pkt.getHeaderSize) ∧
      (pkt.opcrOffset = 0 ∨ pkt.opcrOffset = 12 ∧ 18 ≤ pkt.getHeaderSize ∨
        pkt.opcrOffset = 6 ∧ 12 ≤ pkt.getHeaderSize ∧ pkt.pcrOffset = 0) ∧
      (pkt.ptsOffset = 0 ∨ pkt.ptsOffset = pkt.getHeaderSize + 9 ∧
        pkt.getHeaderSize + 14 ≤ pktSize) ∧
      (pkt.dtsOffset = 0 ∨ pkt.dtsOffset = pkt.getHeaderSize + 14 ∧
        pkt.getHeaderSize + 19 ≤ pktSize) := by
  have hpayload : pkt.payload.length ≤ pktSize - pkt.getHeaderSize := by
    unfold payload
    split_ifs
    · rw [List.length_drop, pkt.length_eq]
    · exact Nat.zero_le _
  have hfield : ¬(!pkt.hasOPCR) = true → 0 < pkt.getAFSize := by
    intro hopcr
    rw [Bool.not_eq_true', Bool.not_eq_false, hasOPCR, Bool.and_eq_true, decide_eq_true_eq] at hopcr
    exact hopcr.1
  refine ⟨?_, ?_, ?_, ?_⟩
  · unfold pcrOffset
    split_ifs with hpcr
    · rw [Bool.and_eq_true, decide_eq_true_eq, UInt8.le_iff_toNat_le] at hpcr
      have hfield : 0 < pkt.getAFSize := by
        rw [hasPCR, Bool.and_eq_true, decide_eq_true_eq] at hpcr
        exact hpcr.1.1
      exact Or.inr ⟨rfl, le_getHeaderSize (by decide) hfield hpcr.2⟩
    · exact Or.inl rfl
  · unfold opcrOffset
    split_ifs with hopcr hpcr hlarge hsmall
    · exact Or.inl rfl
    · exact Or.inr (Or.inl ⟨rfl, le_getHeaderSize (by decide) (hfield hopcr)
        (UInt8.le_iff_toNat_le.mp hlarge)⟩)
    · exact Or.inl rfl
    · refine Or.inr (Or.inr ⟨rfl, le_getHeaderSize (by decide) (hfield hopcr)
        (UInt8.le_iff_toNat_le.mp hsmall), ?_⟩)
      rw [pcrOffset, if_neg fun hboth ↦ hpcr (Bool.and_eq_true _ _ ▸ hboth).1]
    · exact Or.inl rfl
  · unfold ptsOffset
    dsimp only
    split_ifs with hstart hlong hflags
    · exact Or.inl rfl
    · exact Or.inl rfl
    · exact Or.inl rfl
    · refine Or.inr ⟨rfl, ?_⟩
      rw [not_or] at hlong
      omega
  · unfold dtsOffset
    dsimp only
    split_ifs with hstart hflags
    · exact Or.inl rfl
    · exact Or.inl rfl
    · refine Or.inr ⟨rfl, ?_⟩
      rw [not_or] at hflags
      omega

theorem offset_add_size_le (hclock : clock.offset pkt ≠ 0) :
    6 ≤ clock.offset pkt ∧ clock.offset pkt + clock.size ≤ pktSize := by
  obtain ⟨hpcr, hopcr, hpts, hdts⟩ := offset_cases pkt
  have hheader : pkt.getHeaderSize ≤ pktSize := Nat.min_le_right _ _
  unfold pktSize at *
  cases clock with
  | pts => exact ⟨by dsimp only [offset] at *; omega, by dsimp only [offset, size] at *; omega⟩
  | dts => exact ⟨by dsimp only [offset] at *; omega, by dsimp only [offset, size] at *; omega⟩
  | pcr => exact ⟨by dsimp only [offset] at *; omega, by dsimp only [offset, size] at *; omega⟩
  | opcr => exact ⟨by dsimp only [offset] at *; omega, by dsimp only [offset, size] at *; omega⟩

theorem disjoint (hne : clock ≠ other) (hclock : clock.offset pkt ≠ 0)
    (hother : other.offset pkt ≠ 0) :
    clock.offset pkt + clock.size ≤ other.offset pkt ∨
      other.offset pkt + other.size ≤ clock.offset pkt := by
  obtain ⟨hpcr, hopcr, hpts, hdts⟩ := offset_cases pkt
  cases clock <;> cases other <;> first
    | exact absurd rfl hne
    | (dsimp only [offset, size] at *; omega)

theorem byteAt_set (value : ℕ) {index : ℕ}
    (hindex : index < clock.offset pkt ∨ clock.offset pkt + clock.size ≤ index) :
    byteAt (clock.set pkt value).bytes index = byteAt pkt.bytes index := by
  unfold set
  split_ifs
  · rfl
  · rcases hindex with hlt | hle
    · exact byteAt_write_of_lt pkt hlt _
    · exact byteAt_writeBytes_of_le pkt.bytes (by rw [length_put]; exact hle)

theorem read_congr {first second : ByteBlock} {start : ℕ}
    (hbytes : ∀ index < clock.size, byteAt first (start + index) = byteAt second (start + index)) :
    clock.read first start = clock.read second start := by
  have hword : ∀ index, index + 1 < clock.size →
      getUInt16 first (start + index) = getUInt16 second (start + index) := fun index hindex ↦
    getUInt16_congr (hbytes index (by omega)) (hbytes (index + 1) hindex)
  have hzero : 0 < clock.size → byteAt first start = byteAt second start := hbytes 0
  have hpair : 1 < clock.size → getUInt16 first start = getUInt16 second start := hword 0
  cases clock with
  | pts =>
    show getPDTS first start = getPDTS second start
    rw [getPDTS, getPDTS, hzero (by decide), hword 1 (by decide), hword 3 (by decide)]
  | dts =>
    show getPDTS first start = getPDTS second start
    rw [getPDTS, getPDTS, hzero (by decide), hword 1 (by decide), hword 3 (by decide)]
  | pcr =>
    show getPCRAt first start = getPCRAt second start
    rw [getPCRAt, getPCRAt, getUInt32, getUInt32, hpair (by decide), hword 2 (by decide),
      hword 4 (by decide)]
  | opcr =>
    show getPCRAt first start = getPCRAt second start
    rw [getPCRAt, getPCRAt, getUInt32, getUInt32, hpair (by decide), hword 2 (by decide),
      hword 4 (by decide)]

theorem byteAt_set_self (hclock : clock.offset pkt ≠ 0) (value : ℕ) {index : ℕ}
    (hindex : index < clock.size) :
    byteAt (clock.set pkt value).bytes (clock.offset pkt + index) =
      byteAt (clock.put pkt.bytes (clock.offset pkt) value) index := by
  have hend := (offset_add_size_le hclock).2
  rw [set, if_neg hclock]
  refine byteAt_writeBytes (by rwa [length_put]) ?_
  rw [length_put, pkt.length_eq]
  exact hend

theorem mark_set_stamp {start : ℕ} (hoffset : clock.offset pkt = start) (hstart : start ≠ 0)
    (hput : ∀ data value, clock.put data start value = putPDTS data start value) (value : ℕ) :
    byteAt (clock.set pkt value).bytes start &&& 0xF1 = byteAt pkt.bytes start &&& 0xF1 ∧
      byteAt (clock.set pkt value).bytes (start + 2) &&& 0x01 =
        byteAt pkt.bytes (start + 2) &&& 0x01 ∧
      byteAt (clock.set pkt value).bytes (start + 4) &&& 0x01 =
        byteAt pkt.bytes (start + 4) &&& 0x01 := by
  subst hoffset
  have hsize : 5 ≤ clock.size := by cases clock <;> decide
  obtain ⟨hfirst, hsecond, hthird⟩ := marks_putPDTS pkt.bytes (clock.offset pkt) value
  have hzero : byteAt (clock.set pkt value).bytes (clock.offset pkt) = _ :=
    byteAt_set_self hstart value (show 0 < clock.size by omega)
  rw [hzero, byteAt_set_self hstart value (show 2 < clock.size by omega),
    byteAt_set_self hstart value (show 4 < clock.size by omega), hput]
  exact ⟨hfirst, hsecond, hthird⟩

theorem sameShape_set (clock : Clock) (pkt : TSPacket) (value : ℕ) :
    SameShape pkt (clock.set pkt value) := by
  by_cases hclock : clock.offset pkt = 0
  · rw [set, if_pos hclock]
    exact SameShape.refl pkt
  · obtain ⟨hstart, hend⟩ := offset_add_size_le hclock
    obtain ⟨hpcr, hopcr, hpts, hdts⟩ := offset_cases pkt
    have hheader : ∀ index < 6, byteAt (clock.set pkt value).bytes index = byteAt pkt.bytes index :=
      fun index hindex ↦ byteAt_set value (Or.inl (by omega))
    refine ⟨fun index hindex _ ↦ hheader index hindex, ?_, ?_, ?_⟩
    · rw [hheader 3 (by decide)]
    · intro index hindex
      refine byteAt_set value ?_
      cases clock <;> (dsimp only [offset, size] at *; omega)
    · have houtside : ∀ index, (pkt.getHeaderSize + index < clock.offset pkt ∨
          clock.offset pkt + clock.size ≤ pkt.getHeaderSize + index) → ∀ mask : UInt8,
          byteAt (clock.set pkt value).bytes (pkt.getHeaderSize + index) &&& mask =
            byteAt pkt.bytes (pkt.getHeaderSize + index) &&& mask := fun index hindex mask ↦
        congrArg (· &&& mask) (byteAt_set value hindex)
      unfold pesMarks
      rw [List.forall_mem_cons, List.forall_mem_cons, List.forall_mem_cons, List.forall_mem_cons,
        List.forall_mem_cons, List.forall_mem_singleton]
      cases clock with
      | pts =>
        have hplace : pkt.ptsOffset = pkt.getHeaderSize + 9 := (hpts.resolve_left hclock).1
        obtain ⟨hfirst, hsecond, hthird⟩ :=
          @mark_set_stamp pts pkt _ hplace (by omega) (fun _ _ ↦ rfl) value
        exact ⟨hfirst, hsecond, hthird, houtside 14 (by dsimp only [offset, size] at *; omega) _,
          houtside 16 (by dsimp only [offset, size] at *; omega) _,
          houtside 18 (by dsimp only [offset, size] at *; omega) _⟩
      | dts =>
        have hplace : pkt.dtsOffset = pkt.getHeaderSize + 14 := (hdts.resolve_left hclock).1
        obtain ⟨hfirst, hsecond, hthird⟩ :=
          @mark_set_stamp dts pkt _ hplace (by omega) (fun _ _ ↦ rfl) value
        exact ⟨houtside 9 (by dsimp only [offset, size] at *; omega) _,
          houtside 11 (by dsimp only [offset, size] at *; omega) _,
          houtside 13 (by dsimp only [offset, size] at *; omega) _, hfirst, hsecond, hthird⟩
      | pcr =>
        have hall : ∀ index, pcr.offset pkt + pcr.size ≤ pkt.getHeaderSize + index := by
          intro index
          dsimp only [offset, size] at *
          omega
        exact ⟨houtside 9 (Or.inr (hall 9)) _, houtside 11 (Or.inr (hall 11)) _,
          houtside 13 (Or.inr (hall 13)) _, houtside 14 (Or.inr (hall 14)) _,
          houtside 16 (Or.inr (hall 16)) _, houtside 18 (Or.inr (hall 18)) _⟩
      | opcr =>
        have hall : ∀ index, opcr.offset pkt + opcr.size ≤ pkt.getHeaderSize + index := by
          intro index
          dsimp only [offset, size] at *
          omega
        exact ⟨houtside 9 (Or.inr (hall 9)) _, houtside 11 (Or.inr (hall 11)) _,
          houtside 13 (Or.inr (hall 13)) _, houtside 14 (Or.inr (hall 14)) _,
          houtside 16 (Or.inr (hall 16)) _, houtside 18 (Or.inr (hall 18)) _⟩

theorem get_set_self (hclock : clock.offset pkt ≠ 0) (value : ℕ) :
    clock.get (clock.set pkt value) = clock.kept value := by
  have hend := (offset_add_size_le hclock).2
  rw [← pkt.length_eq] at hend
  rw [get, offset_eq (sameShape_set clock pkt value), if_neg hclock, set, if_neg hclock]
  cases clock with
  | pts => exact getPDTS_writeBytes_putPDTS value hend
  | dts => exact getPDTS_writeBytes_putPDTS value hend
  | pcr => exact getPCRAt_writeBytes_putPCR hend
  | opcr => exact getPCRAt_writeBytes_putPCR hend

theorem get_set_of_ne (hne : clock ≠ other) (pkt : TSPacket) (value : ℕ) :
    other.get (clock.set pkt value) = other.get pkt := by
  by_cases hclock : clock.offset pkt = 0
  · rw [set, if_pos hclock]
  · rw [get, get, offset_eq (sameShape_set clock pkt value)]
    split_ifs with hother
    · rfl
    · refine read_congr fun index hindex ↦ byteAt_set value ?_
      rcases disjoint hne hclock hother with hbefore | hafter
      · exact Or.inr (by omega)
      · exact Or.inl (by omega)

end Clock

theorem sameShape_setCC (pkt : TSPacket) (cc : UInt8) : SameShape pkt (pkt.setCC cc) := by
  have hbyte : ∀ index, index ≠ 3 → byteAt (pkt.setCC cc).bytes index = byteAt pkt.bytes index :=
    fun _ hne ↦ byteAt_setByte_of_ne _ hne.symm
  have hheader : 4 ≤ pkt.getHeaderSize := le_min (Nat.le_add_right 4 _) (by decide)
  refine ⟨fun index _ hne ↦ hbyte index hne, ?_, fun index _ ↦ hbyte _ (by omega),
    fun mark _ ↦ congrArg (· &&& mark.2) (hbyte _ (by omega))⟩
  rw [setCC, byteAt_setByte_self _ (by decide), and_replaced]
  show (byteAt pkt.bytes 3 &&& 0xF0) ||| (cc &&& 0) = byteAt pkt.bytes 3 &&& 0xF0
  rw [UInt8.and_zero, UInt8.or_zero]

@[simp] theorem get_setCC (clock : Clock) (pkt : TSPacket) (cc : UInt8) :
    clock.get (pkt.setCC cc) = clock.get pkt := by
  rw [Clock.get, Clock.get, Clock.offset_eq (sameShape_setCC pkt cc)]
  split_ifs with hclock
  · rfl
  · have hstart := (Clock.offset_add_size_le hclock).1
    exact Clock.read_congr fun index _ ↦ byteAt_setByte_of_ne _ (by omega)

end TSPacket

end TSDuck
