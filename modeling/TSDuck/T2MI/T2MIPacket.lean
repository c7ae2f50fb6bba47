import TSDuck.Mpeg.BitFields
import TSDuck.Psi.Section

/-!
# T2-MI packets

A T2-MI packet has a header of six bytes, which holds its type and the size of its payload in bits,
a payload and a CRC32. `T2MIPacket` carries the proof that its size and its CRC32 are those it
announces, so that a packet is valid by construction.

`basebandPacket` is the packet of a baseband frame, as an equipment sends it.
-/

namespace TSDuck

def t2miHeaderSize : ℕ := 6

def t2miBasebandFrame : UInt8 := 0x00

/-- The size from the header, which is in bits. -/
def t2miPacketSize (data : ByteBlock) : ℕ :=
  t2miHeaderSize + (getUInt16 data 4 + 7) / 8 + sectionCrc32Size

/-- A valid T2-MI packet. -/
structure T2MIPacket where
  data : ByteBlock
  length_eq : data.length = t2miPacketSize data
  crc32_eq : getUInt32 data (data.length - sectionCrc32Size) =
    (crc32 (data.take (data.length - sectionCrc32Size))).toNat

namespace T2MIPacket

def ofBytes (data : ByteBlock) : Option T2MIPacket :=
  if hvalid : data.length = t2miPacketSize data ∧ getUInt32 data (data.length - sectionCrc32Size) =
        (crc32 (data.take (data.length - sectionCrc32Size))).toNat then
    some ⟨data, hvalid.1, hvalid.2⟩
  else none

variable (pkt : T2MIPacket)

def payload : ByteBlock :=
  (pkt.data.drop t2miHeaderSize).take (pkt.data.length - t2miHeaderSize - sectionCrc32Size)

def packetType : UInt8 := byteAt pkt.data 0

def plp : UInt8 :=
  if pkt.packetType = t2miBasebandFrame ∧ 2 ≤ pkt.payload.length then byteAt pkt.payload 1 else 0

def basebandFrame : Option ByteBlock :=
  if pkt.packetType = t2miBasebandFrame ∧ 3 ≤ pkt.payload.length then some (pkt.payload.drop 3)
  else none

theorem ofBytes_data : ofBytes pkt.data = some pkt :=
  dif_pos ⟨pkt.length_eq, pkt.crc32_eq⟩

theorem le_length : t2miHeaderSize + sectionCrc32Size ≤ pkt.data.length := by
  rw [pkt.length_eq, t2miPacketSize]
  omega

end T2MIPacket

/-! ### The packet of a baseband frame -/

section Baseband

variable (plp : UInt8) (frame : ByteBlock)

def basebandBody : ByteBlock :=
  [t2miBasebandFrame, 0, 0, 0] ++ putUInt16 (8 * (3 + frame.length)) ++ [0, plp, 0] ++ frame

def basebandBytes : ByteBlock :=
  basebandBody plp frame ++ putUInt32 (crc32 (basebandBody plp frame)).toNat

theorem length_basebandBody : (basebandBody plp frame).length = 9 + frame.length := by
  simp only [basebandBody, putUInt16, List.length_append, List.length_cons, List.length_nil]

theorem length_basebandBytes :
    (basebandBytes plp frame).length = 9 + frame.length + sectionCrc32Size := by
  rw [basebandBytes, List.length_append, length_basebandBody, Section.length_putUInt32]

variable {frame} (hframe : 8 * (3 + frame.length) < 0x10000)

include hframe in
theorem t2miPacketSize_basebandBytes :
    t2miPacketSize (basebandBytes plp frame) = (basebandBytes plp frame).length := by
  have hbits : getUInt16 (basebandBytes plp frame) 4 = 8 * (3 + frame.length) := by
    show (UInt8.ofNat (8 * (3 + frame.length) / 256)).toNat * 256 +
      (UInt8.ofNat (8 * (3 + frame.length))).toNat = _
    rw [UInt8.toNat_ofNat', UInt8.toNat_ofNat']
    omega
  rw [t2miPacketSize, hbits, length_basebandBytes, t2miHeaderSize]
  omega

def basebandPacket : T2MIPacket where
  data := basebandBytes plp frame
  length_eq := (t2miPacketSize_basebandBytes plp hframe).symm
  crc32_eq := by
    have hbody : (basebandBytes plp frame).length - sectionCrc32Size =
        (basebandBody plp frame).length := by
      rw [length_basebandBytes, length_basebandBody, Nat.add_sub_cancel]
    rw [hbody, basebandBytes, List.take_left]
    exact getUInt32_putUInt32_append _ (UInt32.toNat_lt _)

theorem payload_basebandPacket :
    (basebandPacket plp hframe).payload = [0, plp, 0] ++ frame := by
  have hsize : (basebandPacket plp hframe).data.length - t2miHeaderSize - sectionCrc32Size =
      ([0, plp, 0] ++ frame).length := by
    show (basebandBytes plp frame).length - t2miHeaderSize - sectionCrc32Size = _
    rw [length_basebandBytes, List.length_append, t2miHeaderSize]
    simp only [List.length_cons, List.length_nil]
    omega
  rw [T2MIPacket.payload, hsize]
  have hdrop : (basebandPacket plp hframe).data.drop t2miHeaderSize =
      ([0, plp, 0] ++ frame) ++ putUInt32 (crc32 (basebandBody plp frame)).toNat := rfl
  rw [hdrop, List.take_left]

theorem basebandFrame_basebandPacket :
    (basebandPacket plp hframe).plp = plp ∧
      (basebandPacket plp hframe).basebandFrame = some frame := by
  have htype : (basebandPacket plp hframe).packetType = t2miBasebandFrame := rfl
  have hpayload := payload_basebandPacket plp hframe
  unfold T2MIPacket.plp T2MIPacket.basebandFrame
  rw [htype, hpayload]
  constructor
  · rw [if_pos ⟨rfl, by simp⟩]
    rfl
  · rw [if_pos ⟨rfl, by simp⟩]
    rfl

end Baseband

end TSDuck
