import TSDuck.Mpeg.AdaptationField
import TSDuck.Psi.Section

/-!
# Writing in a transport packet

The header fields of a packet are set in its bytes, which keep their number, and a program clock
reference is written over the bytes of its adaptation field. `memcpy` copies bytes of a packet over
those of another one, and it is refused when it would read or write outside of the packets.
-/

namespace TSDuck

def pktBodySize : ℕ := pktSize - 1

namespace TSPacket

def zero : TSPacket where
  bytes := List.replicate pktSize 0
  length_eq := List.length_replicate

def setByte (pkt : TSPacket) (offset : ℕ) (value : UInt8) : TSPacket where
  bytes := pkt.bytes.set offset value
  length_eq := by rw [List.length_set, pkt.length_eq]

def write (pkt : TSPacket) (offset : ℕ) (data : ByteBlock) : TSPacket where
  bytes := writeBytes pkt.bytes offset data
  length_eq := by rw [length_writeBytes, pkt.length_eq]

def setPID (pkt : TSPacket) (pid : ℕ) : TSPacket :=
  (pkt.setByte 1 ((byteAt pkt.bytes 1 &&& 0xE0) ||| (UInt8.ofNat (pid / 256) &&& 0x1F))).setByte 2
    (UInt8.ofNat pid)

def setPUSI (pkt : TSPacket) : TSPacket :=
  pkt.setByte 1 (byteAt pkt.bytes 1 ||| 0x40)

def setCC (pkt : TSPacket) (cc : UInt8) : TSPacket :=
  pkt.setByte 3 ((byteAt pkt.bytes 3 &&& 0xF0) ||| (cc &&& 0x0F))

def putPCR (pcr : ℕ) : ByteBlock :=
  putUInt32 (pcr / 300 / 2) ++ putUInt16 ((pcr / 300) <<< 15 ||| 0x7E00 ||| pcr % 300)

def setPCR (pkt : TSPacket) (pcr : ℕ) : Option TSPacket :=
  if pkt.pcrOffset = 0 then none else some (pkt.write pkt.pcrOffset (putPCR pcr))

/-- Copies bytes of a packet, `none` outside of the packets. -/
def memcpy (target : TSPacket) (targetOffset : ℕ) (source : TSPacket) (sourceOffset size : ℕ) :
    Option TSPacket :=
  if targetOffset + size ≤ pktSize ∧ sourceOffset + size ≤ pktSize then
    some (target.write targetOffset ((source.bytes.drop sourceOffset).take size))
  else none

variable (pkt : TSPacket) {offset other : ℕ} {value : UInt8}

@[simp] theorem byteAt_setByte_self (hoffset : offset < pktSize) :
    byteAt (pkt.setByte offset value).bytes offset = value :=
  byteAt_set_self (by rwa [pkt.length_eq]) value

@[simp] theorem byteAt_setByte_of_ne (hne : offset ≠ other) :
    byteAt (pkt.setByte offset value).bytes other = byteAt pkt.bytes other :=
  byteAt_set_of_ne pkt.bytes hne value

theorem byteAt_write_of_lt (hother : other < offset) (data : ByteBlock) :
    byteAt (pkt.write offset data).bytes other = byteAt pkt.bytes other :=
  byteAt_writeBytes_of_lt pkt.bytes hother data

theorem write_write (first second : ByteBlock) :
    (pkt.write offset first).write (offset + first.length) second =
      pkt.write offset (first ++ second) := by
  have hbytes : ∀ bytes : ByteBlock,
      writeBytes (writeBytes bytes offset first) (offset + first.length) second =
        writeBytes bytes offset (first ++ second) := by
    induction first generalizing offset with
    | nil => intro bytes; rfl
    | cons byte rest ih =>
      intro bytes
      rw [List.length_cons, Nat.add_comm rest.length 1, ← Nat.add_assoc]
      exact ih (bytes.set offset byte)
  cases pkt
  simp only [write, TSPacket.mk.injEq]
  exact hbytes _

theorem take_write {data : ByteBlock} (hend : offset + data.length ≤ pktSize) :
    (pkt.write offset data).bytes.take (offset + data.length) = pkt.bytes.take offset ++ data := by
  have hlength := pkt.length_eq
  have hfront : (pkt.bytes.take offset).length = offset := by
    rw [List.length_take]
    omega
  have hsplit : pkt.bytes = pkt.bytes.take offset ++ ((pkt.bytes.drop offset).take data.length ++
        (pkt.bytes.drop offset).drop data.length) := by
    rw [List.take_append_drop, List.take_append_drop]
  have hold : ((pkt.bytes.drop offset).take data.length).length = data.length := by
    rw [List.length_take, List.length_drop]
    omega
  have hwritten := writeBytes_append (pkt.bytes.take offset) hold
    ((pkt.bytes.drop offset).drop data.length)
  rw [← hsplit, hfront] at hwritten
  show (writeBytes pkt.bytes offset data).take (offset + data.length) = _
  rw [hwritten, ← List.append_assoc]
  exact List.take_left' (by rw [List.length_append, hfront])

theorem drop_write {data : ByteBlock} (hend : offset + data.length = pktSize) :
    (pkt.write offset data).bytes.drop offset = data :=
  drop_writeBytes_self (by rw [pkt.length_eq, hend])

theorem next_cc_eq (cc : UInt8) : ((cc + 1) &&& 0x0F).toNat = (cc.toNat + 1) % ccMax := by
  rw [UInt8.toNat_and, UInt8.toNat_add]
  exact (Nat.and_two_pow_sub_one_eq_mod _ 4).trans (Nat.mod_mod_of_dvd _ (by decide))

theorem and_replaced (byte value keep change mask : UInt8) :
    ((byte &&& keep) ||| (value &&& change)) &&& mask =
      (byte &&& (keep &&& mask)) ||| (value &&& (change &&& mask)) := by
  rw [← UInt8.and_assoc, ← UInt8.and_assoc]
  refine UInt8.toBitVec_inj.mp (BitVec.eq_of_getElem_eq fun index hindex ↦ ?_)
  simp only [UInt8.toBitVec_and, UInt8.toBitVec_or, BitVec.getElem_and, BitVec.getElem_or,
    Bool.and_or_distrib_right]

theorem two_words (value : ℕ) :
    value / 65536 % 65536 * 65536 + value % 65536 = value % 4294967296 := by
  omega

theorem putPCR_low (base : ℕ) {extension : ℕ} (hextension : extension < 2 ^ 9) :
    base <<< 15 ||| 0x7E00 ||| extension = base * 2 ^ 15 + (0x7E00 + extension) := by
  have hreserved : 0x7E00 ||| extension = 0x7E00 + extension :=
    (Nat.shiftLeft_add_eq_or_of_lt hextension 63).symm
  have hlow : 0x7E00 + extension < 2 ^ 15 := by omega
  rw [Nat.or_assoc, hreserved, ← Nat.shiftLeft_add_eq_or_of_lt hlow, Nat.shiftLeft_eq]

theorem getPCRAt_writeBytes_putPCR {data : ByteBlock} {offset pcr : ℕ}
    (hinside : offset + 6 ≤ data.length) :
    getPCRAt (writeBytes data offset (putPCR pcr)) offset =
      pcr / 300 % 2 ^ 33 * 300 + pcr % 300 := by
  have hextension : pcr % 300 < 2 ^ 9 := (Nat.mod_lt _ (by decide)).trans (by decide)
  have hlength : (putPCR pcr).length = 6 := rfl
  have hbyte : ∀ index < 6, byteAt (writeBytes data offset (putPCR pcr)) (offset + index) =
      byteAt (putPCR pcr) index :=
    fun index hindex ↦ byteAt_writeBytes (by omega) (by omega)
  have hword : ∀ index < 5, getUInt16 (writeBytes data offset (putPCR pcr)) (offset + index) =
      getUInt16 (putPCR pcr) index := by
    intro index hindex
    rw [getUInt16, getUInt16, hbyte index (by omega), Nat.add_assoc, hbyte (index + 1) (by omega)]
  have hfirst : getUInt16 (putPCR pcr) 0 = pcr / 300 / 2 / 65536 % 65536 := by
    simp only [putPCR, putUInt32, putUInt16, getUInt16, byteAt, List.cons_append,
      List.nil_append, List.getD_cons_zero, List.getD_cons_succ, Nat.zero_add, UInt8.toNat_ofNat']
    omega
  have hsecond : getUInt16 (putPCR pcr) 2 = pcr / 300 / 2 % 65536 := by
    simp only [putPCR, putUInt32, putUInt16, getUInt16, byteAt, List.cons_append,
      List.nil_append, List.getD_cons_zero, List.getD_cons_succ, UInt8.toNat_ofNat']
    omega
  have hthird : getUInt16 (putPCR pcr) 4 = (pcr / 300 * 2 ^ 15 + (0x7E00 + pcr % 300)) % 65536 := by
    simp only [putPCR, putUInt32, putPCR_low _ hextension, putUInt16, getUInt16, byteAt,
      List.cons_append, List.nil_append, List.getD_cons_zero, List.getD_cons_succ,
      UInt8.toNat_ofNat']
    omega
  have hzero := hword 0 (by decide)
  have htwo := hword 2 (by decide)
  have hfour := hword 4 (by decide)
  rw [Nat.add_zero] at hzero
  rw [getPCRAt, getUInt32, hzero, htwo, hfour, hfirst, hsecond, hthird]
  clear hzero htwo hfour hfirst hsecond hthird hword hbyte
  generalize pcr % 300 = extension at *
  generalize pcr / 300 = base at *
  have hlow : (base * 2 ^ 15 + (0x7E00 + extension)) % 65536 / 2 ^ 15 = base % 2 := by omega
  have hrest : (base * 2 ^ 15 + (0x7E00 + extension)) % 65536 % 2 ^ 9 = extension := by omega
  rw [hlow, hrest, two_words]
  omega

end TSPacket

end TSDuck
