import TSDuck.Mpeg.IPv4
import TSDuck.Psi.Section

/-!
# Packets of the Multi-Protocol Encapsulation

An `MPEPacket` holds a UDP datagram and the MAC address that it is sent to. A valid packet has room
for the fixed fields of an IP header.

A packet travels in a section (`createSection`), with the bytes of the MAC address in the fields of
a long header and in front of the datagram. The setters do not look at the datagram they leave, and
`roundTrips_iff` says when the section keeps the packet valid.
-/

namespace TSDuck

/-- A MAC address is a 48-bit word. -/
structure MACAddress where
  addr : ℕ
  addr_lt : addr < 2 ^ 48
  deriving DecidableEq

namespace MACAddress

def zero : MACAddress :=
  ⟨0, by decide⟩

def setAddress (b1 b2 b3 b4 b5 b6 : UInt8) : MACAddress where
  addr := b1.toNat * 2 ^ 40 + b2.toNat * 2 ^ 32 + b3.toNat * 2 ^ 24 + b4.toNat * 2 ^ 16 +
    b5.toNat * 2 ^ 8 + b6.toNat
  addr_lt := by
    have h1 := b1.toNat_lt
    have h2 := b2.toNat_lt
    have h3 := b3.toNat_lt
    have h4 := b4.toNat_lt
    have h5 := b5.toNat_lt
    have h6 := b6.toNat_lt
    omega

def byte (mac : MACAddress) (shift : ℕ) : UInt8 :=
  UInt8.ofNat (mac.addr / 2 ^ shift)

theorem setAddress_bytes (mac : MACAddress) :
    setAddress (mac.byte 40) (mac.byte 32) (mac.byte 24) (mac.byte 16) (mac.byte 8) (mac.byte 0) =
      mac := by
  obtain ⟨addr, haddr⟩ := mac
  rw [setAddress, mk.injEq]
  simp only [byte, UInt8.toNat_ofNat']
  omega

end MACAddress

def tidDsmccPd : UInt8 := 0x3E

def tsDefaultTtl : UInt8 := 128

def mpeHeaderSize : ℕ := 12

/-- A packet of the Multi-Protocol Encapsulation. -/
structure MPEPacket where
  isValid : Bool
  sourcePid : ℕ
  destMac : MACAddress
  datagram : Option ByteBlock
  size_of_valid : isValid = true →
    ∃ content, datagram = some content ∧ ipv4MinHeaderSize ≤ content.length
  deriving DecidableEq

namespace MPEPacket

def clear : MPEPacket where
  isValid := false
  sourcePid := pidNull
  destMac := MACAddress.zero
  datagram := none
  size_of_valid h := absurd h (by decide)

theorem size_of_findUDP {content : ByteBlock} (hudp : (findUDP content).isSome = true) :
    ipv4MinHeaderSize ≤ content.length := by
  obtain ⟨udp, hudp⟩ := Option.isSome_iff_exists.mp hudp
  exact size_of_ipHeaderSize_pos (findUDP_eq_some_iff.mp hudp).1

/-- The packet with a datagram, invalid if not a UDP one. -/
def ofDatagram (datagram : Option ByteBlock) (mac : MACAddress) (pid : ℕ) : MPEPacket where
  isValid := (datagram.bind findUDP).isSome
  sourcePid := pid
  destMac := mac
  datagram := datagram.filter fun content ↦ (findUDP content).isSome
  size_of_valid h := by
    cases datagram with
    | none => exact absurd h (by decide)
    | some content =>
      have hudp : (findUDP content).isSome = true := h
      exact ⟨content, by rw [Option.filter_some, if_pos hudp], size_of_findUDP hudp⟩

def findUDP (packet : MPEPacket) : Option UDPLocation :=
  if packet.isValid then packet.datagram.bind TSDuck.findUDP else none

/-! ### Sections -/

def sectionHeader (packet : MPEPacket) (size : ℕ) : ByteBlock :=
  [tidDsmccPd] ++ putUInt16 (0xB000 ||| ((size - 3) &&& 0x0FFF)) ++
    [packet.destMac.byte 0, packet.destMac.byte 8, 0xC1, 0, 0, packet.destMac.byte 16,
      packet.destMac.byte 24, packet.destMac.byte 32, packet.destMac.byte 40]

def sectionContent (packet : MPEPacket) : ByteBlock :=
  let content := packet.datagram.getD []
  packet.sectionHeader (mpeHeaderSize + content.length + sectionCrc32Size) ++ content ++ putUInt32 0

def createSection (packet : MPEPacket) : Option Section :=
  if packet.isValid then Section.ofContent packet.sectionContent packet.sourcePid .compute else none

def copySection : Option Section → MPEPacket
  | none => clear
  | some sect =>
    if sect.tableId ≠ tidDsmccPd ∨ sect.size < 16 ∨ sect.version ≠ 0 then clear
    else
      let data := sect.content
      let content := (data.drop mpeHeaderSize).take (sect.size - 16)
      { isValid := (TSDuck.findUDP content).isSome
        sourcePid := sect.sourcePid
        destMac := MACAddress.setAddress (byteAt data 11) (byteAt data 10) (byteAt data 9)
          (byteAt data 8) (byteAt data 4) (byteAt data 3)
        datagram := some content
        size_of_valid := fun h ↦ ⟨content, rfl, size_of_findUDP h⟩ }

/-- The packet copied from its section is the same one. -/
def RoundTrips (packet : MPEPacket) : Prop :=
  ∃ sect, packet.createSection = some sect ∧ (copySection (some sect)).isValid = true ∧
    (copySection (some sect)).destMac = packet.destMac ∧
    (copySection (some sect)).datagram = packet.datagram

section RoundTrip

variable {packet : MPEPacket} {content : ByteBlock}

theorem length_sectionContent (hdatagram : packet.datagram = some content) :
    packet.sectionContent.length = content.length + 16 := by
  simp only [sectionContent, hdatagram, Option.getD_some, sectionHeader, putUInt16, putUInt32,
    List.length_append, List.length_cons, List.length_nil]
  omega

theorem announcedSize_sectionContent (hdatagram : packet.datagram = some content)
    (hsize : content.length ≤ 4080) :
    announcedSize packet.sectionContent = content.length + 16 := by
  have hword : getUInt16 packet.sectionContent 1 = 0xB000 + (content.length + 13) := by
    have hread : getUInt16 packet.sectionContent 1 =
        getUInt16 (putUInt16 (0xB000 ||| ((mpeHeaderSize + content.length + sectionCrc32Size - 3) &&&
          0x0FFF)) ++ []) 0 := by
      simp only [sectionContent, hdatagram, Option.getD_some]
      rfl
    have hlow : (mpeHeaderSize + content.length + sectionCrc32Size - 3) % 4096 =
        content.length + 13 := by
      unfold mpeHeaderSize sectionCrc32Size
      omega
    rw [hread, and_length_mask, hlow, Nat.or_comm,
      show (0xB000 : ℕ) = 2 ^ 12 * 11 from rfl, or_high_bits 12 11 (by omega),
      getUInt16_putUInt16_append (by omega)]
  rw [announcedSize, hword, and_length_mask, shortSectionHeaderSize]
  omega

theorem hasLongHeader_sectionContent (hdatagram : packet.datagram = some content) :
    hasLongHeader packet.sectionContent = true := by
  have hread : byteAt packet.sectionContent 1 =
      UInt8.ofNat ((0xB000 ||| ((mpeHeaderSize + content.length + sectionCrc32Size - 3) &&&
        0x0FFF)) / 256) := by
    simp only [sectionContent, hdatagram, Option.getD_some]
    rfl
  have hlow : (mpeHeaderSize + content.length + sectionCrc32Size - 3) % 4096 < 2 ^ 12 := by
    omega
  rw [hasLongHeader, hread, and_length_mask, Nat.or_comm,
    show (0xB000 : ℕ) = 2 ^ 12 * 11 from rfl, or_high_bits 12 11 hlow]
  have hbyte : (2 ^ 12 * 11 + (mpeHeaderSize + content.length + sectionCrc32Size - 3) % 4096) / 256 =
      176 + (mpeHeaderSize + content.length + sectionCrc32Size - 3) % 4096 / 256 := by
    omega
  have hfew : (mpeHeaderSize + content.length + sectionCrc32Size - 3) % 4096 / 256 < 16 := by
    omega
  rw [hbyte]
  generalize (mpeHeaderSize + content.length + sectionCrc32Size - 3) % 4096 / 256 = high at hfew
  revert high
  decide

theorem createSection_eq_some (hvalid : packet.isValid = true)
    (hdatagram : packet.datagram = some content) (hsize : content.length ≤ 4080) :
    ∃ sect, packet.createSection = some sect ∧ sect.sourcePid = packet.sourcePid ∧
      sect.content = Section.withCrc32 packet.sectionContent := by
  have hlength := length_sectionContent hdatagram
  have hannounced := announcedSize_sectionContent hdatagram hsize
  have hlong := hasLongHeader_sectionContent hdatagram
  have hsection : 0 < Section.sectionSize packet.sectionContent ∧
      Section.sectionSize packet.sectionContent = packet.sectionContent.length := by
    have hinside : ¬ (packet.sectionContent.length < minShortSectionSize ∨
        maxPrivateSectionSize < packet.sectionContent.length) := by
      unfold minShortSectionSize shortSectionHeaderSize maxPrivateSectionSize
      omega
    rw [Section.sectionSize, if_neg hinside, if_neg (by omega)]
    omega
  have hheader : minLongSectionSize ≤ packet.sectionContent.length ∧
      byteAt packet.sectionContent 6 ≤ byteAt packet.sectionContent 7 := by
    constructor
    · unfold minLongSectionSize longSectionHeaderSize sectionCrc32Size
      omega
    · have hnumber : byteAt packet.sectionContent 6 = 0 := rfl
      have hlast : byteAt packet.sectionContent 7 = 0 := rfl
      rw [hnumber, hlast]
      exact UInt8.le_refl 0
  rw [createSection, if_pos hvalid]
  exact Section.ofContent_compute packet.sourcePid hsection hlong hheader

/-- The packet copied from its section. -/
theorem copySection_createSection (hvalid : packet.isValid = true)
    (hdatagram : packet.datagram = some content) (hsize : content.length ≤ 4080) :
    ∃ sect, packet.createSection = some sect ∧
      (copySection (some sect)).isValid = (TSDuck.findUDP content).isSome ∧
      (copySection (some sect)).sourcePid = packet.sourcePid ∧
      (copySection (some sect)).destMac = packet.destMac ∧
      (copySection (some sect)).datagram = some content := by
  obtain ⟨sect, hsect, hpid, hcontent⟩ := createSection_eq_some hvalid hdatagram hsize
  have hlength := length_sectionContent hdatagram
  have hbyte : ∀ offset, offset < mpeHeaderSize →
      byteAt sect.content offset = byteAt packet.sectionContent offset := by
    intro offset hoffset
    unfold mpeHeaderSize at hoffset
    rw [hcontent]
    exact Section.byteAt_withCrc32 (by unfold sectionCrc32Size; omega)
  have hsectSize : sect.size = content.length + 16 := by
    rw [Section.size, hcontent, Section.length_withCrc32 (by unfold sectionCrc32Size; omega), hlength]
  have htable : sect.tableId = tidDsmccPd := hbyte 0 (by decide)
  have hversion : sect.version = 0 := by
    have hfield : byteAt sect.content 5 = 0xC1 := hbyte 5 (by decide)
    unfold Section.version versionField
    rw [hfield]
    split_ifs
    · decide
    · rfl
  have hmac : MACAddress.setAddress (byteAt sect.content 11) (byteAt sect.content 10)
      (byteAt sect.content 9) (byteAt sect.content 8) (byteAt sect.content 4)
      (byteAt sect.content 3) = packet.destMac := by
    rw [hbyte 11 (by decide), hbyte 10 (by decide), hbyte 9 (by decide), hbyte 8 (by decide),
      hbyte 4 (by decide), hbyte 3 (by decide)]
    exact packet.destMac.setAddress_bytes
  have hbody : (sect.content.drop mpeHeaderSize).take (sect.size - 16) = content := by
    have hfront : packet.sectionContent.take (packet.sectionContent.length - sectionCrc32Size) =
        packet.sectionHeader (mpeHeaderSize + content.length + sectionCrc32Size) ++ content := by
      rw [hlength]
      simp only [sectionContent, hdatagram, Option.getD_some]
      apply List.take_left'
      rw [List.length_append]
      show 12 + content.length = content.length + 16 - 4
      omega
    rw [hcontent, Section.withCrc32, hfront, List.append_assoc, hsectSize, Nat.add_sub_cancel]
    rw [List.drop_left' (show _ = mpeHeaderSize from rfl), List.take_left' rfl]
  have hcopy : ¬ (sect.tableId ≠ tidDsmccPd ∨ sect.size < 16 ∨ sect.version ≠ 0) := by
    rintro (hother | hsmall | hother)
    · exact hother htable
    · omega
    · exact hother hversion
  refine ⟨sect, hsect, ?_⟩
  simp only [copySection, if_neg hcopy, hbody]
  exact ⟨trivial, hpid, hmac, trivial⟩

/-- Assumes: a valid packet with at most 4080 bytes. Its section keeps it if and only if it has a
UDP datagram. -/
theorem roundTrips_iff (hvalid : packet.isValid = true)
    (hdatagram : packet.datagram = some content) (hsize : content.length ≤ 4080) :
    packet.RoundTrips ↔ (TSDuck.findUDP content).isSome = true := by
  obtain ⟨sect, hsect, hcopyValid, -, hmac, hcopied⟩ :=
    copySection_createSection hvalid hdatagram hsize
  constructor
  · rintro ⟨other, hother, hotherValid, -⟩
    obtain rfl := Option.some.inj (hsect.symm.trans hother)
    exact hcopyValid.symm.trans hotherValid
  · intro hudp
    exact ⟨sect, hsect, hcopyValid.trans hudp, hmac, hcopied.trans hdatagram.symm⟩

end RoundTrip

/-- A packet with a UDP datagram whose message is empty is kept. -/
theorem roundTrips_emptyMessage :
    (ofDatagram (some [0x45, 0, 0, 0x1C, 0, 0, 0, 0, 0x80, 0x11, 0x26, 0xCF, 10, 0, 0, 1,
      10, 0, 0, 2, 0, 53, 0, 53, 0, 8, 0xEB, 0x71]) ⟨0x01005E0A0B0C, by decide⟩ 100).RoundTrips := by
  have hdatagram := Option.filter_some (p := fun content ↦ (TSDuck.findUDP content).isSome)
    (a := [0x45, 0, 0, 0x1C, 0, 0, 0, 0, 0x80, 0x11, 0x26, 0xCF, 10, 0, 0, 1, 10, 0, 0, 2, 0, 53, 0,
      53, 0, 8, 0xEB, 0x71])
  exact (roundTrips_iff (by decide) hdatagram (by decide)).mpr (by decide)

/-! ### Setters -/

/-- The block cut, or extended with zeros. -/
def resize (data : ByteBlock) (size : ℕ) : ByteBlock :=
  data.take size ++ List.replicate (size - data.length) 0

/-- Sets the required fields of the IP header. -/
def forceIPFields (area : ByteBlock) (totalSize : ℕ) : ByteBlock :=
  ((writeBytes (area.set 0 (ipv4Version <<< 4 ||| 5)) 2 (putUInt16 totalSize)).set 8
    tsDefaultTtl).set 9 ipv4ProtoUdp

@[simp] theorem length_forceIPFields (area : ByteBlock) (totalSize : ℕ) :
    (forceIPFields area totalSize).length = area.length := by
  simp only [forceIPFields, length_writeBytes, List.length_set]

/-- Sets the required fields of both headers. -/
def forceHeaders (area : ByteBlock) (totalSize : ℕ) : ByteBlock :=
  writeBytes (updateIPHeaderChecksum (forceIPFields area totalSize) ipv4MinHeaderSize)
    (ipv4MinHeaderSize + 4) (putUInt16 (totalSize - ipv4MinHeaderSize))

@[simp] theorem length_forceHeaders (area : ByteBlock) (totalSize : ℕ) :
    (forceHeaders area totalSize).length = area.length := by
  simp only [forceHeaders, length_writeBytes, length_updateIPHeaderChecksum, length_forceIPFields]

/-- The area for a datagram with a message. -/
def datagramArea (datagram : Option ByteBlock) (udpSize : ℕ) : ByteBlock :=
  let totalSize := ipv4MinHeaderSize + udpHeaderSize + udpSize
  match datagram with
  | none => List.replicate totalSize 0
  | some content => resize content totalSize

theorem length_datagramArea (datagram : Option ByteBlock) (udpSize : ℕ) :
    (datagramArea datagram udpSize).length = ipv4MinHeaderSize + udpHeaderSize + udpSize := by
  cases datagram with
  | none => exact List.length_replicate
  | some content =>
    show (resize content _).length = _
    rw [resize, List.length_append, List.length_take, List.length_replicate]
    omega

def configureUDP (packet : MPEPacket) (force : Bool) (udpSize : ℕ) : MPEPacket :=
  if force || !packet.isValid then
    { packet with
      isValid := true
      datagram := some (forceHeaders (datagramArea packet.datagram udpSize)
        (ipv4MinHeaderSize + udpHeaderSize + udpSize))
      size_of_valid := fun _ ↦ ⟨_, rfl, by
        rw [length_forceHeaders, length_datagramArea]
        omega⟩ }
  else packet

theorem isValid_configureUDP (packet : MPEPacket) (force : Bool) (udpSize : ℕ) :
    (packet.configureUDP force udpSize).isValid = true := by
  unfold configureUDP
  split_ifs with hforce
  · rfl
  · rw [Bool.or_eq_true, not_or, Bool.not_eq_true', Bool.not_eq_false] at hforce
    exact hforce.2

theorem datagram_configureUDP {packet : MPEPacket} {force : Bool}
    (hforce : (force || !packet.isValid) = true) (udpSize : ℕ) :
    (packet.configureUDP force udpSize).datagram =
      some (forceHeaders (datagramArea packet.datagram udpSize)
        (ipv4MinHeaderSize + udpHeaderSize + udpSize)) := by
  rw [configureUDP, if_pos hforce]

theorem configureUDP_of_valid {packet : MPEPacket} (hvalid : packet.isValid = true) (udpSize : ℕ) :
    packet.configureUDP false udpSize = packet := by
  rw [configureUDP, if_neg (by rw [hvalid]; decide)]

def updateDatagram (packet : MPEPacket) (change : ByteBlock → ByteBlock)
    (hchange : ∀ content, (change content).length = content.length) : MPEPacket :=
  { packet with
    datagram := packet.datagram.map change
    size_of_valid := fun hvalid ↦ by
      obtain ⟨content, hdatagram, hsize⟩ := packet.size_of_valid hvalid
      exact ⟨change content, by rw [hdatagram, Option.map_some], by rwa [hchange]⟩ }

theorem datagram_updateDatagram {packet : MPEPacket} {content : ByteBlock}
    (hdatagram : packet.datagram = some content) (change : ByteBlock → ByteBlock)
    (hchange : ∀ content, (change content).length = content.length) :
    (packet.updateDatagram change hchange).datagram = some (change content) := by
  show packet.datagram.map change = _
  rw [hdatagram, Option.map_some]

/-- Replaces an address and computes the checksum. -/
def replaceAddress (offset : ℕ) (ip : UInt32) (content : ByteBlock) : ByteBlock :=
  updateIPHeaderChecksum (writeBytes content offset (putUInt32 ip.toNat)) content.length

theorem length_replaceAddress (offset : ℕ) (ip : UInt32) (content : ByteBlock) :
    (replaceAddress offset ip content).length = content.length := by
  rw [replaceAddress, length_updateIPHeaderChecksum, length_writeBytes]

def setAddress (packet : MPEPacket) (offset : ℕ) (ip : UInt32) : MPEPacket :=
  (packet.configureUDP false 0).updateDatagram (replaceAddress offset ip) (length_replaceAddress _ _)

def setSourceIPAddress (packet : MPEPacket) (ip : UInt32) : MPEPacket :=
  packet.setAddress ipv4SrcAddrOffset ip

def setDestinationIPAddress (packet : MPEPacket) (ip : UInt32) : MPEPacket :=
  packet.setAddress ipv4DestAddrOffset ip

/-- The IP address at an offset of the header, zero in an invalid packet. -/
def addressAt (packet : MPEPacket) (offset : ℕ) : ℕ :=
  if packet.isValid then getUInt32 (packet.datagram.getD []) offset else 0

def sourceIPAddress (packet : MPEPacket) : ℕ :=
  packet.addressAt ipv4SrcAddrOffset

def destinationIPAddress (packet : MPEPacket) : ℕ :=
  packet.addressAt ipv4DestAddrOffset

/-- Replaces a port and clears the UDP checksum. -/
def replacePort (header offset : ℕ) (port : Uint16) (content : ByteBlock) : ByteBlock :=
  writeBytes (writeBytes content (header + offset) (putUInt16 port.val)) (header + 6) [0, 0]

theorem length_replacePort (header offset : ℕ) (port : Uint16) (content : ByteBlock) :
    (replacePort header offset port content).length = content.length := by
  rw [replacePort, length_writeBytes, length_writeBytes]

def setPort (packet : MPEPacket) (offset : ℕ) (port : Uint16) : MPEPacket :=
  match packet.findUDP with
  | none => packet
  | some udp =>
    packet.updateDatagram (replacePort udp.udpHeader offset port) (length_replacePort _ _ _)

def setSourceUDPPort (packet : MPEPacket) (port : Uint16) : MPEPacket :=
  packet.setPort 0 port

def setDestinationUDPPort (packet : MPEPacket) (port : Uint16) : MPEPacket :=
  packet.setPort 2 port

def portAt (packet : MPEPacket) (offset : ℕ) : ℕ :=
  match packet.findUDP with
  | none => 0
  | some udp => getUInt16 (packet.datagram.getD []) (udp.udpHeader + offset)

def sourceUDPPort (packet : MPEPacket) : ℕ :=
  packet.portAt 0

def destinationUDPPort (packet : MPEPacket) : ℕ :=
  packet.portAt 2

/-- An IP address and a UDP port, where zero means unspecified. -/
structure SocketAddress where
  address : UInt32
  port : Uint16
  deriving DecidableEq

/-- Sets the parts of a socket address. -/
def setSocket (packet : MPEPacket) (setIP : MPEPacket → UInt32 → MPEPacket)
    (setUDPPort : MPEPacket → Uint16 → MPEPacket) (sock : SocketAddress) : MPEPacket :=
  let addressed := if sock.address ≠ 0 then setIP packet sock.address else packet
  if sock.port ≠ 0 then setUDPPort addressed sock.port else addressed

def setSourceSocket (packet : MPEPacket) (sock : SocketAddress) : MPEPacket :=
  packet.setSocket setSourceIPAddress setSourceUDPPort sock

def setDestinationSocket (packet : MPEPacket) (sock : SocketAddress) : MPEPacket :=
  packet.setSocket setDestinationIPAddress setDestinationUDPPort sock

def udpMessage (packet : MPEPacket) : Option ByteBlock :=
  packet.findUDP.map fun udp ↦ messageAt (packet.datagram.getD []) udp

/-- A UDP message fits in a datagram. -/
def MessageFits (data : ByteBlock) : Prop :=
  data.length ≤ 0xFFFF - ipv4MinHeaderSize - udpHeaderSize

instance (data : ByteBlock) : Decidable (MessageFits data) :=
  inferInstanceAs (Decidable (_ ≤ _))

def setUDPMessage (packet : MPEPacket) : Option ByteBlock → Bool × MPEPacket
  | none => (false, packet)
  | some data =>
    if MessageFits data then
      let configured := packet.configureUDP true data.length
      match configured.findUDP with
      | none => (true, configured)
      | some udp =>
        (true, configured.updateDatagram (fun content ↦ writeBytes content udp.udpAddress data)
          fun content ↦ length_writeBytes content udp.udpAddress data)
    else (false, packet)

/-- An IP header of two words, where the ports cover the protocol. -/
def shortHeaderDatagram : ByteBlock :=
  [0x42, 0, 0, 20, 0, 0, 0, 0, 0, 17, 0, 0, 0, 8, 0, 0, 0, 0, 0, 0]

/-- Setting a port of a short datagram changes its protocol: it is not kept. -/
theorem not_roundTrips_setSourceUDPPort :
    ((ofDatagram (some shortHeaderDatagram) MACAddress.zero 0).setSourceUDPPort 0).isValid = true ∧
      (∃ content, ((ofDatagram (some shortHeaderDatagram) MACAddress.zero 0).setSourceUDPPort
        0).datagram = some content ∧ content.length ≤ 4080) ∧
      ¬ ((ofDatagram (some shortHeaderDatagram) MACAddress.zero 0).setSourceUDPPort
        0).RoundTrips := by
  have hvalid : ((ofDatagram (some shortHeaderDatagram) MACAddress.zero 0).setSourceUDPPort
      0).isValid = true := by decide
  have hdatagram : ((ofDatagram (some shortHeaderDatagram) MACAddress.zero 0).setSourceUDPPort
      0).datagram =
        some [0x42, 0, 0, 20, 0, 0, 0, 0, 0, 0, 0, 0, 0, 8, 0, 0, 0, 0, 0, 0] := by decide
  refine ⟨hvalid, ⟨_, hdatagram, by decide⟩, ?_⟩
  rintro ⟨sect, hsect, hcopied, -⟩
  obtain ⟨other, hother, hinvalid, -⟩ := copySection_createSection hvalid hdatagram (by decide)
  obtain rfl := Option.some.inj (hsect.symm.trans hother)
  rw [hcopied] at hinvalid
  exact absurd hinvalid (by decide)

end MPEPacket

end TSDuck
