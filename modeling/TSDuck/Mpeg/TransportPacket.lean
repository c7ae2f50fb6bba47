import TSDuck.Mpeg.Bytes

/-!
# Transport stream packets

A transport stream packet is a block of 188 bytes. `TSPacket` carries the proof of its size.

`packetHeader` is the header that the packetizer builds, and the lemmas on `packetHeader` are what a
reader of the packet gets back from it.
-/

namespace TSDuck

def pktSize : ℕ := 188

def syncByte : UInt8 := 0x47

def ccMax : ℕ := 16

def pidMax : ℕ := 0x2000

/-- A transport stream packet. -/
structure TSPacket where
  bytes : ByteBlock
  length_eq : bytes.length = pktSize
  deriving DecidableEq

def nullPacket : TSPacket where
  bytes := [0x47, 0x1F, 0xFF, 0x10] ++ List.replicate 184 0xFF
  length_eq := rfl

namespace TSPacket

def hasValidSync (pkt : TSPacket) : Bool :=
  byteAt pkt.bytes 0 == syncByte

def getPID (pkt : TSPacket) : ℕ :=
  getUInt16 pkt.bytes 1 &&& 0x1FFF

def getPUSI (pkt : TSPacket) : Bool :=
  (byteAt pkt.bytes 1 &&& 0x40) != 0

def getScrambling (pkt : TSPacket) : UInt8 :=
  byteAt pkt.bytes 3 >>> 6

def getCC (pkt : TSPacket) : UInt8 :=
  byteAt pkt.bytes 3 &&& 0x0F

def hasAF (pkt : TSPacket) : Bool :=
  (byteAt pkt.bytes 3 &&& 0x20) != 0

def getHeaderSize (pkt : TSPacket) : ℕ :=
  min (4 + if pkt.hasAF then (byteAt pkt.bytes 4).toNat + 1 else 0) pktSize

def hasPayload (pkt : TSPacket) : Bool :=
  (byteAt pkt.bytes 3 &&& 0x10) != 0

theorem getPID_lt (pkt : TSPacket) : pkt.getPID < pidMax := by
  have hle : pkt.getPID ≤ 0x1FFF := Nat.and_le_right
  exact Nat.lt_succ_of_le hle

end TSPacket

/-! ### The header of a packet with a payload only -/

def packetHeader (pusi : Bool) (pid continuity : ℕ) : ByteBlock :=
  syncByte :: putUInt16 ((if pusi then 0x4000 else 0) ||| pid) ++ [0x10 ||| UInt8.ofNat continuity]

@[simp] theorem length_packetHeader (pusi : Bool) (pid continuity : ℕ) :
    (packetHeader pusi pid continuity).length = 4 :=
  rfl

theorem getUInt16_putUInt16 {value : ℕ} (hvalue : value < 65536) :
    getUInt16 (putUInt16 value) 0 = value := by
  have hhigh : value / 256 < 256 := by omega
  simp only [getUInt16, byteAt, putUInt16, List.getD_cons_zero, List.getD_cons_succ, zero_add,
    UInt8.toNat_ofNat']
  omega

theorem pusi_or_pid (pusi : Bool) {pid : ℕ} (hpid : pid < pidMax) :
    (if pusi then 0x4000 else 0) ||| pid = (if pusi then 0x4000 else 0) + pid := by
  unfold pidMax at hpid
  cases pusi with
  | false => simp
  | true =>
    have hsum := Nat.two_pow_add_eq_or_of_lt (show pid < 2 ^ 14 by omega) 1
    simpa using hsum.symm

section Header

variable {pkt : TSPacket} {pusi : Bool} {pid continuity : ℕ} {payload : ByteBlock}
  (hbytes : pkt.bytes = packetHeader pusi pid continuity ++ payload)

include hbytes

theorem hasValidSync_of_header : pkt.hasValidSync = true := by
  rw [TSPacket.hasValidSync, hbytes]
  rfl

theorem byteAt_one_of_header (hpid : pid < pidMax) :
    byteAt pkt.bytes 1 = UInt8.ofNat ((if pusi then 0x40 else 0) + pid / 256) := by
  have hhigh : byteAt pkt.bytes 1 = UInt8.ofNat (((if pusi then 0x4000 else 0) ||| pid) / 256) := by
    rw [hbytes]
    rfl
  rw [hhigh, pusi_or_pid pusi hpid]
  congr 1
  cases pusi with
  | false => simp
  | true =>
    simp only [if_true]
    omega

theorem getPID_of_header (hpid : pid < pidMax) : pkt.getPID = pid := by
  have hvalue : (if pusi then 0x4000 else 0) + pid < 65536 := by
    unfold pidMax at hpid
    split_ifs <;> omega
  have hread : getUInt16 pkt.bytes 1 = (if pusi then 0x4000 else 0) + pid := by
    rw [← pusi_or_pid pusi hpid] at hvalue ⊢
    rw [hbytes, ← getUInt16_putUInt16 hvalue]
    rfl
  rw [TSPacket.getPID, hread, show 0x1FFF = 2 ^ 13 - 1 from rfl, Nat.and_two_pow_sub_one_eq_mod]
  unfold pidMax at hpid
  split_ifs <;> omega

theorem getPUSI_of_header (hpid : pid < pidMax) : pkt.getPUSI = pusi := by
  rw [TSPacket.getPUSI, byteAt_one_of_header hbytes hpid]
  have hhigh : pid / 256 < 32 := by
    unfold pidMax at hpid
    omega
  generalize pid / 256 = high at hhigh
  revert hhigh high
  cases pusi <;> decide

theorem byteAt_three_of_header :
    byteAt pkt.bytes 3 = 0x10 ||| UInt8.ofNat continuity := by
  rw [hbytes]
  rfl

theorem flags_of_header (hcontinuity : continuity < ccMax) :
    pkt.getScrambling = 0 ∧ pkt.getHeaderSize = 4 ∧ pkt.hasPayload = true := by
  have hbits : ∀ counter < ccMax, ((0x10 : UInt8) ||| UInt8.ofNat counter) >>> 6 = 0 ∧
      ((0x10 ||| UInt8.ofNat counter) &&& 0x20 != (0 : UInt8)) = false ∧
      ((0x10 ||| UInt8.ofNat counter) &&& 0x10 != (0 : UInt8)) = true := by
    decide
  obtain ⟨hscrambling, haf, hpayload⟩ := hbits continuity hcontinuity
  refine ⟨?_, ?_, ?_⟩
  · rw [TSPacket.getScrambling, byteAt_three_of_header hbytes, hscrambling]
  · rw [TSPacket.getHeaderSize, TSPacket.hasAF, byteAt_three_of_header hbytes, haf]
    rfl
  · rw [TSPacket.hasPayload, byteAt_three_of_header hbytes, hpayload]

theorem getCC_of_header (hcontinuity : continuity < ccMax) : pkt.getCC.toNat = continuity := by
  have hbits : ∀ counter < ccMax,
      (((0x10 : UInt8) ||| UInt8.ofNat counter) &&& 0x0F).toNat = counter := by
    decide
  rw [TSPacket.getCC, byteAt_three_of_header hbytes, hbits continuity hcontinuity]

end Header

end TSDuck
