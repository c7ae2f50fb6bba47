import TSDuck.Library.OnesComplement
import TSDuck.Mpeg.BitFields

/-!
# IPv4 datagrams with UDP packets

`ipHeaderSize`, `ipHeaderChecksum` and `findUDP` read a datagram like the code, which accepts any
number of 32-bit words in the header, also less than the five words of the fixed fields. The UDP
checksum, which the code never computes, is the one of the protocol: the complement of the sum of
the pseudo header, of the UDP header and of the message.
-/

namespace TSDuck

def ipv4Version : UInt8 := 4

def ipv4ProtocolOffset : ℕ := 9

def ipv4ChecksumOffset : ℕ := 10

def ipv4SrcAddrOffset : ℕ := 12

def ipv4DestAddrOffset : ℕ := 16

def ipv4MinHeaderSize : ℕ := 20

def udpHeaderSize : ℕ := 8

def ipv4ProtoUdp : UInt8 := 17

/-- The size of the IP header, zero when there is none. -/
def ipHeaderSize (ip : ByteBlock) (size : ℕ) : ℕ :=
  let headerSize :=
    if ipv4MinHeaderSize ≤ size ∧ (byteAt ip 0 >>> 4) &&& 0x0F = ipv4Version then
      4 * (byteAt ip 0 &&& 0x0F).toNat
    else 0
  if headerSize ≤ size then headerSize else 0

def ipHeaderSum (ip : ByteBlock) (headerSize : ℕ) : ℕ :=
  ((List.range (headerSize / 2)).map fun word ↦
    if 2 * word = ipv4ChecksumOffset then 0 else getUInt16 ip (2 * word)).sum

def ipHeaderChecksum (ip : ByteBlock) (size : ℕ) : ℕ :=
  if ipHeaderSize ip size = 0 then 0
  else OnesComplement.complement 65536 (ipHeaderSum ip (ipHeaderSize ip size))

def verifyIPHeaderChecksum (ip : ByteBlock) (size : ℕ) : Bool :=
  0 < ipHeaderSize ip size ∧ getUInt16 ip ipv4ChecksumOffset = ipHeaderChecksum ip size

def updateIPHeaderChecksum (ip : ByteBlock) (size : ℕ) : ByteBlock :=
  if 0 < ipHeaderSize ip size then
    writeBytes ip ipv4ChecksumOffset (putUInt16 (ipHeaderChecksum ip size))
  else ip

@[simp] theorem length_updateIPHeaderChecksum (ip : ByteBlock) (size : ℕ) :
    (updateIPHeaderChecksum ip size).length = ip.length := by
  unfold updateIPHeaderChecksum
  split_ifs
  · exact length_writeBytes _ _ _
  · rfl

theorem byteAt_updateIPHeaderChecksum (ip : ByteBlock) (size : ℕ) {offset : ℕ}
    (hoffset : offset < ipv4ChecksumOffset ∨ ipv4ChecksumOffset + 2 ≤ offset) :
    byteAt (updateIPHeaderChecksum ip size) offset = byteAt ip offset := by
  unfold updateIPHeaderChecksum
  split_ifs
  · rcases hoffset with hbefore | hafter
    · exact byteAt_writeBytes_of_lt _ hbefore _
    · exact byteAt_writeBytes_of_le _ hafter
  · rfl

theorem ipHeaderSize_congr {first second : ByteBlock} (hbyte : byteAt first 0 = byteAt second 0)
    (size : ℕ) : ipHeaderSize first size = ipHeaderSize second size := by
  rw [ipHeaderSize, ipHeaderSize, hbyte]

theorem size_of_ipHeaderSize_pos {ip : ByteBlock} {size : ℕ} (hpos : 0 < ipHeaderSize ip size) :
    ipv4MinHeaderSize ≤ size := by
  rw [ipHeaderSize] at hpos
  split_ifs at hpos with hheader hsize
  · exact hheader.1
  · omega
  · omega
  · omega

theorem ipHeaderSum_congr {first second : ByteBlock} {headerSize : ℕ}
    (hbytes : ∀ offset, offset < headerSize →
      offset < ipv4ChecksumOffset ∨ ipv4ChecksumOffset + 2 ≤ offset →
        byteAt first offset = byteAt second offset) :
    ipHeaderSum first headerSize = ipHeaderSum second headerSize := by
  unfold ipHeaderSum
  apply congrArg List.sum
  apply List.map_congr_left
  intro word hword
  rw [List.mem_range] at hword
  split_ifs with hchecksum
  · rfl
  · unfold ipv4ChecksumOffset at hbytes hchecksum
    exact getUInt16_congr (hbytes _ (by omega) (by omega)) (hbytes _ (by omega) (by omega))

theorem verify_updateIPHeaderChecksum {ip : ByteBlock} {size : ℕ} (hsize : size ≤ ip.length)
    (hpos : 0 < ipHeaderSize ip size) :
    verifyIPHeaderChecksum (updateIPHeaderChecksum ip size) size = true := by
  have hheader : ipHeaderSize (updateIPHeaderChecksum ip size) size = ipHeaderSize ip size :=
    ipHeaderSize_congr (byteAt_updateIPHeaderChecksum ip size (by decide)) size
  have hchecksum : ipHeaderChecksum (updateIPHeaderChecksum ip size) size =
      ipHeaderChecksum ip size := by
    rw [ipHeaderChecksum, ipHeaderChecksum, hheader, ipHeaderSum_congr]
    intro offset _ hoffset
    exact byteAt_updateIPHeaderChecksum ip size hoffset
  have hword : ipHeaderChecksum ip size < 65536 := by
    rw [ipHeaderChecksum]
    split_ifs
    · omega
    · unfold OnesComplement.complement
      omega
  have hinside := size_of_ipHeaderSize_pos hpos
  unfold ipv4MinHeaderSize at hinside
  rw [verifyIPHeaderChecksum, decide_eq_true_iff, hheader, hchecksum]
  refine ⟨hpos, ?_⟩
  rw [updateIPHeaderChecksum, if_pos hpos,
    getUInt16_writeBytes (by unfold ipv4ChecksumOffset; omega), Nat.mod_eq_of_lt hword]

structure UDPLocation where
  udpHeader : ℕ
  udpAddress : ℕ
  udpSize : ℕ
  deriving DecidableEq

def findUDP (datagram : ByteBlock) : Option UDPLocation :=
  let headerSize := ipHeaderSize datagram datagram.length
  if headerSize = 0 then none
  else if byteAt datagram ipv4ProtocolOffset ≠ ipv4ProtoUdp ∨
      getUInt16 datagram 2 < headerSize + udpHeaderSize ∨
      datagram.length < getUInt16 datagram 2 then none
  else if getUInt16 datagram (headerSize + 4) < udpHeaderSize ∨
      datagram.length < headerSize + getUInt16 datagram (headerSize + 4) then none
  else some
    { udpHeader := headerSize
      udpAddress := headerSize + udpHeaderSize
      udpSize := getUInt16 datagram (headerSize + 4) - udpHeaderSize }

/-- What a datagram with a UDP packet contains. -/
theorem findUDP_eq_some_iff {datagram : ByteBlock} {udp : UDPLocation} :
    findUDP datagram = some udp ↔ 0 < ipHeaderSize datagram datagram.length ∧
      byteAt datagram ipv4ProtocolOffset = ipv4ProtoUdp ∧
      ipHeaderSize datagram datagram.length + udpHeaderSize ≤ getUInt16 datagram 2 ∧
      getUInt16 datagram 2 ≤ datagram.length ∧
      udp.udpHeader = ipHeaderSize datagram datagram.length ∧
      udp.udpAddress = udp.udpHeader + udpHeaderSize ∧
      getUInt16 datagram (udp.udpHeader + 4) = udp.udpSize + udpHeaderSize ∧
      udp.udpAddress + udp.udpSize ≤ datagram.length := by
  obtain ⟨header, address, size⟩ := udp
  simp only [findUDP]
  constructor
  · intro hfound
    split_ifs at hfound with hheader hlength hmessage
    simp only [Option.some.injEq, UDPLocation.mk.injEq] at hfound
    obtain ⟨rfl, rfl, rfl⟩ := hfound
    simp only [not_or, not_not, not_lt] at hlength hmessage
    exact ⟨Nat.pos_of_ne_zero hheader, hlength.1, hlength.2.1, hlength.2.2, rfl, rfl, by omega,
      by omega⟩
  · rintro ⟨hheader, hproto, hlength, htotal, rfl, rfl, hsize, hinside⟩
    rw [if_neg (by omega), if_neg, if_neg (by omega)]
    · simp only [Option.some.injEq, UDPLocation.mk.injEq, true_and]
      omega
    · rintro (hother | hless | hless)
      · exact hother hproto
      · omega
      · omega

/-- The sum of the 16-bit words of a block. -/
def wordSum : ByteBlock → ℕ
  | [] => 0
  | [byte] => byte.toNat * 256
  | high :: low :: rest => high.toNat * 256 + low.toNat + wordSum rest

def messageAt (datagram : ByteBlock) (udp : UDPLocation) : ByteBlock :=
  (datagram.drop udp.udpAddress).take udp.udpSize

/-- The sum of the words with the pseudo header. -/
def udpSum (datagram : ByteBlock) (udp : UDPLocation) : ℕ :=
  getUInt16 datagram ipv4SrcAddrOffset + getUInt16 datagram (ipv4SrcAddrOffset + 2) +
    getUInt16 datagram ipv4DestAddrOffset + getUInt16 datagram (ipv4DestAddrOffset + 2) +
    ipv4ProtoUdp.toNat + (udp.udpSize + udpHeaderSize) +
    getUInt16 datagram udp.udpHeader + getUInt16 datagram (udp.udpHeader + 2) +
    (udp.udpSize + udpHeaderSize) + wordSum (messageAt datagram udp)

/-- The UDP checksum is zero or correct. -/
def UDPChecksumRight (datagram : ByteBlock) (udp : UDPLocation) : Prop :=
  getUInt16 datagram (udp.udpHeader + 6) = 0 ∨ getUInt16 datagram (udp.udpHeader + 6) =
      OnesComplement.transmitted 65536 (udpSum datagram udp)

instance (datagram : ByteBlock) (udp : UDPLocation) : Decidable (UDPChecksumRight datagram udp) :=
  inferInstanceAs (Decidable (_ ∨ _))

/-- A right UDP checksum is zero or brings the sum to zero. -/
theorem udpChecksumRight_iff {datagram : ByteBlock} {udp : UDPLocation} :
    UDPChecksumRight datagram udp ↔ getUInt16 datagram (udp.udpHeader + 6) = 0 ∨
        udpSum datagram udp + getUInt16 datagram (udp.udpHeader + 6) ≡ 0 [MOD 65535] := by
  unfold UDPChecksumRight
  by_cases hzero : getUInt16 datagram (udp.udpHeader + 6) = 0
  · exact iff_of_true (Or.inl hzero) (Or.inl hzero)
  · rw [OnesComplement.eq_transmitted_iff (by omega)
      ⟨Nat.pos_of_ne_zero hzero, getUInt16_lt _ _⟩]

end TSDuck
