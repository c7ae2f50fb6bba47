import TSDuck.Mpeg.TransportPacket

/-!
# Adaptation field and payload

The adaptation field of a transport packet is between its header and its payload.
-/

namespace TSDuck

namespace TSPacket

def getAFSize (pkt : TSPacket) : ℕ :=
  if pkt.hasAF then (byteAt pkt.bytes 4).toNat else 0

def getDiscontinuityIndicator (pkt : TSPacket) : Bool :=
  0 < pkt.getAFSize && (byteAt pkt.bytes 5 &&& 0x80) != 0

def hasPCR (pkt : TSPacket) : Bool :=
  0 < pkt.getAFSize && (byteAt pkt.bytes 5 &&& 0x10) != 0

def pcrOffset (pkt : TSPacket) : ℕ :=
  if pkt.hasPCR && 7 ≤ byteAt pkt.bytes 4 then 6 else 0

def getPCRAt (data : ByteBlock) (offset : ℕ) : ℕ :=
  (getUInt32 data offset * 2 + getUInt16 data (offset + 4) / 2 ^ 15) * 300 +
    getUInt16 data (offset + 4) % 2 ^ 9

def getPCR (pkt : TSPacket) : ℕ :=
  if pkt.pcrOffset = 0 then 0 else getPCRAt pkt.bytes pkt.pcrOffset

def isScrambled (pkt : TSPacket) : Bool := byteAt pkt.bytes 3 >>> 6 != 0

def payload (pkt : TSPacket) : ByteBlock :=
  if pkt.hasPayload then pkt.bytes.drop pkt.getHeaderSize else []

def startPES (pkt : TSPacket) : Bool :=
  pkt.hasValidSync && pkt.getPUSI && !pkt.isScrambled && pkt.hasPayload &&
    3 ≤ pkt.payload.length && byteAt pkt.payload 0 == 0 && byteAt pkt.payload 1 == 0 &&
    byteAt pkt.payload 2 == 1

def dtsOffset (pkt : TSPacket) : ℕ :=
  let pl := pkt.payload
  if !pkt.startPES then 0
  else if pl.length < 19 ∨ byteAt pl 7 &&& 0xC0 ≠ 0xC0 ∨ byteAt pl 9 &&& 0xF1 ≠ 0x31 ∨
      byteAt pl 11 &&& 0x01 ≠ 0x01 ∨ byteAt pl 13 &&& 0x01 ≠ 0x01 ∨
      byteAt pl 14 &&& 0xF1 ≠ 0x11 ∨ byteAt pl 16 &&& 0x01 ≠ 0x01 ∨
      byteAt pl 18 &&& 0x01 ≠ 0x01 then 0
  else pkt.getHeaderSize + 14

def hasDTS (pkt : TSPacket) : Bool :=
  0 < pkt.dtsOffset

def getPDTS (data : ByteBlock) (offset : ℕ) : ℕ :=
  ((byteAt data offset &&& 0x0E).toNat <<< 29) |||
    ((getUInt16 data (offset + 1) &&& 0xFFFE) <<< 14) ||| (getUInt16 data (offset + 3) >>> 1)

def getDTS (pkt : TSPacket) : ℕ :=
  if pkt.dtsOffset = 0 then 0 else getPDTS pkt.bytes pkt.dtsOffset

end TSPacket

end TSDuck
