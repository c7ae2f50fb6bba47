import TSDuck.Library.Machine
import TSDuck.Mpeg.MPEPacket

/-!
# Checksums of the datagrams of MPE packets

The setters of an `MPEPacket` are the steps of a machine, which reports each of them with the packet
before and after it.

What a setter does to a well-formed datagram follows from the bytes that it keeps:

* a port is replaced outside the IP header and the UDP checksum is then unused
  (`wellFormed_replacePort`),
* an address is replaced with the checksum of the IP header, but not with the UDP checksum, which
  stays correct exactly when the two addresses have the same sum (`udpChecksumRight_replaceAddress`),
* a message is replaced after the header has been given its minimum size: the ports and the UDP
  checksum are then the bytes after the fixed fields, whatever they were
  (`udpChecksumRight_replaceMessage`).
-/

namespace TSDuck

open MPEPacket (replacePort length_replacePort replaceAddress length_replaceAddress
  forceIPFields length_forceIPFields forceHeaders length_forceHeaders resize)

/-- A UDP packet after a correct IP header. -/
structure WellFormed (content : ByteBlock) (udp : UDPLocation) : Prop where
  found : findUDP content = some udp
  header : ipv4MinHeaderSize ≤ udp.udpHeader
  ip : verifyIPHeaderChecksum content content.length = true

theorem findUDP_congr {first second : ByteBlock} {udp : UDPLocation}
    (hfound : findUDP first = some udp) (hlength : second.length = first.length)
    (hbytes : ∀ offset, offset = 0 ∨ offset = 2 ∨ offset = 3 ∨ offset = ipv4ProtocolOffset ∨
      offset = udp.udpHeader + 4 ∨ offset = udp.udpHeader + 5 →
        byteAt second offset = byteAt first offset) :
    findUDP second = some udp := by
  obtain ⟨hpos, hproto, hlow, htotal, hheader, haddress, hsize, hinside⟩ :=
    findUDP_eq_some_iff.mp hfound
  have hheaderSize : ipHeaderSize second second.length = ipHeaderSize first first.length := by
    rw [hlength, ipHeaderSize_congr (hbytes 0 (by simp))]
  have hword : getUInt16 second 2 = getUInt16 first 2 :=
    getUInt16_congr (hbytes 2 (by simp)) (hbytes 3 (by simp))
  have hudp : getUInt16 second (udp.udpHeader + 4) = getUInt16 first (udp.udpHeader + 4) :=
    getUInt16_congr (hbytes _ (by simp)) (hbytes _ (by simp))
  apply findUDP_eq_some_iff.mpr
  rw [hheaderSize, hbytes ipv4ProtocolOffset (by simp), hword, hudp, hlength]
  exact ⟨hpos, hproto, hlow, htotal, hheader, haddress, hsize, hinside⟩

theorem drop_updateIPHeaderChecksum (ip : ByteBlock) (size : ℕ) {start : ℕ}
    (hstart : ipv4ChecksumOffset + 2 ≤ start) :
    (updateIPHeaderChecksum ip size).drop start = ip.drop start := by
  unfold updateIPHeaderChecksum
  split_ifs
  · exact drop_writeBytes _ hstart
  · rfl

theorem words_modEq (data : ByteBlock) (offset : ℕ) :
    getUInt16 data offset + getUInt16 data (offset + 2) ≡ getUInt32 data offset [MOD 65535] := by
  unfold getUInt32
  have hword : 65536 ≡ 1 [MOD 65535] := rfl
  have hhigh := (hword.mul_left (getUInt16 data offset)).symm
  rw [Nat.mul_one] at hhigh
  exact hhigh.add_right _

/-! ### Ports -/

theorem verifyIPHeaderChecksum_congr {first second : ByteBlock} {firstSize secondSize : ℕ}
    (hsize : ipHeaderSize second secondSize = ipHeaderSize first firstSize)
    (hheader : ipv4MinHeaderSize ≤ ipHeaderSize first firstSize)
    (hbytes : ∀ offset, offset < ipHeaderSize first firstSize →
      byteAt second offset = byteAt first offset) :
    verifyIPHeaderChecksum second secondSize = verifyIPHeaderChecksum first firstSize := by
  unfold ipv4MinHeaderSize at hheader
  have hsum : ipHeaderSum second (ipHeaderSize first firstSize) =
      ipHeaderSum first (ipHeaderSize first firstSize) :=
    ipHeaderSum_congr fun offset hoffset _ ↦ hbytes offset hoffset
  have hfield : getUInt16 second ipv4ChecksumOffset = getUInt16 first ipv4ChecksumOffset := by
    unfold ipv4ChecksumOffset
    exact getUInt16_congr (hbytes _ (by omega)) (hbytes _ (by omega))
  unfold verifyIPHeaderChecksum ipHeaderChecksum
  rw [hsize, hsum, hfield]

section Content

variable {content : ByteBlock} {udp : UDPLocation}

theorem WellFormed.inside (hcontent : WellFormed content udp) :
    udp.udpHeader = ipHeaderSize content content.length ∧
      udp.udpAddress = udp.udpHeader + udpHeaderSize ∧
      udp.udpAddress + udp.udpSize ≤ content.length := by
  obtain ⟨-, -, -, -, hheader, haddress, -, hinside⟩ := findUDP_eq_some_iff.mp hcontent.found
  exact ⟨hheader, haddress, hinside⟩

theorem wellFormed_replacePort (hcontent : WellFormed content udp) {offset : ℕ}
    (hoffset : offset ≤ 2) (port : Uint16) :
    WellFormed (replacePort udp.udpHeader offset port content) udp ∧
      UDPChecksumRight (replacePort udp.udpHeader offset port content) udp := by
  obtain ⟨hheader, haddress, hinside⟩ := hcontent.inside
  have hmin := hcontent.header
  unfold ipv4MinHeaderSize at hmin
  unfold udpHeaderSize at haddress
  have hlength := length_replacePort udp.udpHeader offset port content
  have hkeep : ∀ other, other < udp.udpHeader ∨
      other = udp.udpHeader + 4 ∨ other = udp.udpHeader + 5 →
        byteAt (replacePort udp.udpHeader offset port content) other = byteAt content other := by
    intro other hother
    unfold replacePort
    rw [byteAt_writeBytes_of_lt _ (by omega)]
    rcases hother with hbefore | hafter
    · exact byteAt_writeBytes_of_lt _ (by omega) _
    · apply byteAt_writeBytes_of_le
      show udp.udpHeader + offset + 2 ≤ other
      omega
  refine ⟨⟨?_, hcontent.header, ?_⟩, Or.inl ?_⟩
  · apply findUDP_congr hcontent.found hlength
    unfold ipv4ProtocolOffset
    intro other hother
    exact hkeep other (by omega)
  · rw [← hcontent.ip]
    apply verifyIPHeaderChecksum_congr _ (hheader ▸ hcontent.header)
    · intro other hother
      exact hkeep other (Or.inl (hheader ▸ hother))
    · rw [hlength, ipHeaderSize_congr (hkeep 0 (Or.inl (by omega)))]
  · have hzero : getUInt16 (replacePort udp.udpHeader offset port content) (udp.udpHeader + 6) =
        0 % 65536 :=
      getUInt16_writeBytes (by rw [length_writeBytes]; omega) 0
    exact hzero

/-! ### Addresses -/

/-- The part of the sum without the addresses. -/
def udpTail (content : ByteBlock) (udp : UDPLocation) : ℕ :=
  ipv4ProtoUdp.toNat + (udp.udpSize + udpHeaderSize) + getUInt16 content udp.udpHeader +
    getUInt16 content (udp.udpHeader + 2) + (udp.udpSize + udpHeaderSize) +
    wordSum (messageAt content udp)

theorem udpSum_modEq (content : ByteBlock) (udp : UDPLocation) :
    udpSum content udp ≡ getUInt32 content ipv4SrcAddrOffset + getUInt32 content ipv4DestAddrOffset +
      udpTail content udp [MOD 65535] := by
  have hsource := words_modEq content ipv4SrcAddrOffset
  have hdestination := words_modEq content ipv4DestAddrOffset
  have hsplit : udpSum content udp =
      (getUInt16 content ipv4SrcAddrOffset + getUInt16 content (ipv4SrcAddrOffset + 2)) +
        (getUInt16 content ipv4DestAddrOffset + getUInt16 content (ipv4DestAddrOffset + 2)) +
        udpTail content udp := by
    unfold udpSum udpTail
    omega
  rw [hsplit]
  exact (hsource.add hdestination).add_right _

theorem byteAt_replaceAddress (content : ByteBlock) {offset other : ℕ} (ip : UInt32)
    (hchecksum : other < 10 ∨ 12 ≤ other) (haddress : other < offset ∨ offset + 4 ≤ other) :
    byteAt (replaceAddress offset ip content) other = byteAt content other := by
  rw [replaceAddress, byteAt_updateIPHeaderChecksum _ _ hchecksum]
  rcases haddress with hbefore | hafter
  · exact byteAt_writeBytes_of_lt _ hbefore _
  · exact byteAt_writeBytes_of_le _ hafter

theorem getUInt32_replaceAddress {offset : ℕ} (hoffset : 12 ≤ offset)
    (hinside : offset + 4 ≤ content.length) (ip : UInt32) :
    getUInt32 (replaceAddress offset ip content) offset = ip.toNat := by
  rw [← getUInt32_writeBytes hinside ip]
  have hbyte : ∀ other, offset ≤ other → byteAt (replaceAddress offset ip content) other =
        byteAt (writeBytes content offset (putUInt32 ip.toNat)) other :=
    fun other hother ↦ byteAt_updateIPHeaderChecksum _ _
      (Or.inr (show 10 + 2 ≤ other by omega))
  unfold getUInt32
  rw [getUInt16_congr (hbyte _ (by omega)) (hbyte _ (by omega)),
    getUInt16_congr (hbyte _ (by omega)) (hbyte _ (by omega))]

variable (hcontent : WellFormed content udp) {offset : ℕ}
  (hoffset : offset = ipv4SrcAddrOffset ∨ offset = ipv4DestAddrOffset) (ip : UInt32)

include hcontent hoffset

theorem wellFormed_replaceAddress : WellFormed (replaceAddress offset ip content) udp := by
  obtain ⟨hheader, -, -⟩ := hcontent.inside
  have hmin := hcontent.header
  unfold ipv4MinHeaderSize at hmin
  unfold ipv4SrcAddrOffset ipv4DestAddrOffset at hoffset
  refine ⟨?_, hcontent.header, ?_⟩
  · apply findUDP_congr hcontent.found (length_replaceAddress offset ip content)
    unfold ipv4ProtocolOffset
    intro other hother
    exact byteAt_replaceAddress content ip (by omega) (by omega)
  · rw [length_replaceAddress]
    apply verify_updateIPHeaderChecksum (by rw [length_writeBytes])
    rw [ipHeaderSize_congr (byteAt_writeBytes_of_lt content (by omega) _)]
    omega

theorem udpChecksumRight_replaceAddress (hchecksum : UDPChecksumRight content udp) :
    UDPChecksumRight (replaceAddress offset ip content) udp ↔
      getUInt16 content (udp.udpHeader + 6) = 0 ∨
        ip.toNat ≡ getUInt32 content offset [MOD 65535] := by
  obtain ⟨-, haddress, hinside⟩ := hcontent.inside
  have hmin := hcontent.header
  unfold ipv4MinHeaderSize at hmin
  unfold udpHeaderSize at haddress
  have hafter : ∀ other, 20 ≤ other →
      byteAt (replaceAddress offset ip content) other = byteAt content other := by
    unfold ipv4SrcAddrOffset ipv4DestAddrOffset at hoffset
    exact fun other hother ↦ byteAt_replaceAddress content ip (by omega) (by omega)
  have hfield : getUInt16 (replaceAddress offset ip content) (udp.udpHeader + 6) =
      getUInt16 content (udp.udpHeader + 6) :=
    getUInt16_congr (hafter _ (by omega)) (hafter _ (by omega))
  have htail : udpTail (replaceAddress offset ip content) udp = udpTail content udp := by
    have hmessage : (replaceAddress offset ip content).drop udp.udpAddress =
        content.drop udp.udpAddress := by
      unfold ipv4SrcAddrOffset ipv4DestAddrOffset at hoffset
      rw [replaceAddress, drop_updateIPHeaderChecksum _ _ (show 10 + 2 ≤ udp.udpAddress by omega),
        drop_writeBytes _ (show offset + 4 ≤ udp.udpAddress by omega)]
    unfold udpTail messageAt
    rw [hmessage, getUInt16_congr (hafter udp.udpHeader (by omega)) (hafter _ (by omega)),
      getUInt16_congr (hafter (udp.udpHeader + 2) (by omega)) (hafter _ (by omega))]
  have hsum : udpSum (replaceAddress offset ip content) udp + getUInt32 content offset ≡
      udpSum content udp + ip.toNat [MOD 65535] := by
    have hbefore := udpSum_modEq content udp
    have hnow := udpSum_modEq (replaceAddress offset ip content) udp
    rw [htail] at hnow
    have hother : ∀ place, 12 ≤ place → (place + 4 ≤ offset ∨ offset + 4 ≤ place) →
        getUInt32 (replaceAddress offset ip content) place = getUInt32 content place := by
      intro place hplace hapart
      have hbyte : ∀ other, place ≤ other → other < place + 4 →
          byteAt (replaceAddress offset ip content) other = byteAt content other :=
        fun other hlow hhigh ↦ byteAt_replaceAddress content ip (by omega) (by omega)
      unfold getUInt32
      rw [getUInt16_congr (hbyte place (by omega) (by omega)) (hbyte _ (by omega) (by omega)),
        getUInt16_congr (hbyte (place + 2) (by omega) (by omega)) (hbyte _ (by omega) (by omega))]
    have hown : getUInt32 (replaceAddress offset ip content) offset = ip.toNat := by
      unfold ipv4SrcAddrOffset ipv4DestAddrOffset at hoffset
      exact getUInt32_replaceAddress (by omega) (by omega) ip
    rcases hoffset with rfl | rfl
    · rw [hown, hother ipv4DestAddrOffset (by decide) (by decide)] at hnow
      calc
        udpSum (replaceAddress ipv4SrcAddrOffset ip content) udp +
            getUInt32 content ipv4SrcAddrOffset
          ≡ ip.toNat + getUInt32 content ipv4DestAddrOffset + udpTail content udp +
            getUInt32 content ipv4SrcAddrOffset [MOD 65535] := hnow.add_right _
        _ = getUInt32 content ipv4SrcAddrOffset + getUInt32 content ipv4DestAddrOffset +
            udpTail content udp + ip.toNat := by omega
        _ ≡ udpSum content udp + ip.toNat [MOD 65535] := hbefore.symm.add_right _
    · rw [hown, hother ipv4SrcAddrOffset (by decide) (by decide)] at hnow
      calc
        udpSum (replaceAddress ipv4DestAddrOffset ip content) udp +
            getUInt32 content ipv4DestAddrOffset
          ≡ getUInt32 content ipv4SrcAddrOffset + ip.toNat + udpTail content udp +
            getUInt32 content ipv4DestAddrOffset [MOD 65535] := hnow.add_right _
        _ = getUInt32 content ipv4SrcAddrOffset + getUInt32 content ipv4DestAddrOffset +
            udpTail content udp + ip.toNat := by omega
        _ ≡ udpSum content udp + ip.toNat [MOD 65535] := hbefore.symm.add_right _
  rw [udpChecksumRight_iff, hfield]
  by_cases hzero : getUInt16 content (udp.udpHeader + 6) = 0
  · exact iff_of_true (Or.inl hzero) (Or.inl hzero)
  · have hright := (udpChecksumRight_iff.mp hchecksum).resolve_left hzero
    simp only [hzero, false_or]
    constructor
    · intro hnow
      have hchain : udpSum content udp + getUInt16 content (udp.udpHeader + 6) + ip.toNat ≡
          udpSum content udp + getUInt16 content (udp.udpHeader + 6) + getUInt32 content offset
            [MOD 65535] := by
        calc
          udpSum content udp + getUInt16 content (udp.udpHeader + 6) + ip.toNat
            = udpSum content udp + ip.toNat + getUInt16 content (udp.udpHeader + 6) := by omega
          _ ≡ udpSum (replaceAddress offset ip content) udp + getUInt32 content offset +
              getUInt16 content (udp.udpHeader + 6) [MOD 65535] := hsum.symm.add_right _
          _ = udpSum (replaceAddress offset ip content) udp +
              getUInt16 content (udp.udpHeader + 6) + getUInt32 content offset := by omega
          _ ≡ 0 + getUInt32 content offset [MOD 65535] := hnow.add_right _
          _ ≡ udpSum content udp + getUInt16 content (udp.udpHeader + 6) +
              getUInt32 content offset [MOD 65535] := hright.symm.add_right _
      exact Nat.ModEq.add_left_cancel' _ hchain
    · intro hsame
      apply Nat.ModEq.add_right_cancel' (getUInt32 content offset)
      calc
        udpSum (replaceAddress offset ip content) udp + getUInt16 content (udp.udpHeader + 6) +
            getUInt32 content offset
          = udpSum (replaceAddress offset ip content) udp + getUInt32 content offset +
            getUInt16 content (udp.udpHeader + 6) := by omega
        _ ≡ udpSum content udp + ip.toNat + getUInt16 content (udp.udpHeader + 6) [MOD 65535] :=
          hsum.add_right _
        _ ≡ udpSum content udp + getUInt32 content offset + getUInt16 content (udp.udpHeader + 6)
            [MOD 65535] := (hsame.add_left _).add_right _
        _ = udpSum content udp + getUInt16 content (udp.udpHeader + 6) +
            getUInt32 content offset := by omega
        _ ≡ 0 + getUInt32 content offset [MOD 65535] := hright.add_right _

end Content

/-! ### Messages -/

/-- The UDP packet after the headers have been forced. -/
def forcedLocation (size : ℕ) : UDPLocation where
  udpHeader := ipv4MinHeaderSize
  udpAddress := ipv4MinHeaderSize + udpHeaderSize
  udpSize := size

section Forced

variable {area : ByteBlock} {size : ℕ}

theorem byteAt_forceHeaders (totalSize : ℕ) {offset : ℕ}
    (hoffset : (12 ≤ offset ∧ offset < 24) ∨ 26 ≤ offset) :
    byteAt (forceHeaders area totalSize) offset = byteAt area offset := by
  have hchecked : byteAt (forceHeaders area totalSize) offset =
      byteAt (updateIPHeaderChecksum (forceIPFields area totalSize) ipv4MinHeaderSize) offset := by
    rw [forceHeaders, ipv4MinHeaderSize]
    rcases hoffset with hbefore | hafter
    · exact byteAt_writeBytes_of_lt _ (by omega) _
    · apply byteAt_writeBytes_of_le
      show 20 + 4 + 2 ≤ offset
      omega
  have hsized : byteAt (writeBytes (area.set 0 (ipv4Version <<< 4 ||| 5)) 2 (putUInt16 totalSize))
      offset = byteAt (area.set 0 (ipv4Version <<< 4 ||| 5)) offset := by
    apply byteAt_writeBytes_of_le
    show 2 + 2 ≤ offset
    omega
  rw [hchecked, byteAt_updateIPHeaderChecksum _ _ (Or.inr (show 10 + 2 ≤ offset by omega)),
    forceIPFields, byteAt_set_of_ne _ (by omega), byteAt_set_of_ne _ (by omega), hsized,
    byteAt_set_of_ne _ (by omega)]

theorem byteAt_forceHeaders_of_lt (totalSize : ℕ) {offset : ℕ} (hoffset : offset < 10) :
    byteAt (forceHeaders area totalSize) offset = byteAt (forceIPFields area totalSize) offset :=
  (byteAt_writeBytes_of_lt _ (show offset < 24 by omega) _).trans
    (byteAt_updateIPHeaderChecksum _ _ (Or.inl hoffset))

theorem byteAt_zero_forceIPFields (hlength : 28 ≤ area.length) (totalSize : ℕ) :
    byteAt (forceIPFields area totalSize) 0 = 0x45 := by
  rw [forceIPFields, byteAt_set_of_ne _ (by omega), byteAt_set_of_ne _ (by omega),
    byteAt_writeBytes_of_lt _ (by omega), byteAt_set_self (by omega)]
  decide

theorem byteAt_nine_forceIPFields (hlength : 28 ≤ area.length) (totalSize : ℕ) :
    byteAt (forceIPFields area totalSize) 9 = ipv4ProtoUdp := by
  apply byteAt_set_self
  rw [List.length_set, length_writeBytes, List.length_set]
  omega

theorem getUInt16_forceIPFields (hlength : 28 ≤ area.length) (totalSize : ℕ) :
    getUInt16 (forceIPFields area totalSize) 2 = totalSize % 65536 := by
  have hinside : 2 + 2 ≤ (area.set 0 (ipv4Version <<< 4 ||| 5)).length := by
    rw [List.length_set]
    omega
  rw [← getUInt16_writeBytes hinside totalSize]
  apply getUInt16_congr
  · rw [forceIPFields, byteAt_set_of_ne _ (by omega), byteAt_set_of_ne _ (by omega)]
  · rw [forceIPFields, byteAt_set_of_ne _ (by omega), byteAt_set_of_ne _ (by omega)]

theorem ipHeaderSize_of_byteAt {ip : ByteBlock} {bound : ℕ} (hbyte : byteAt ip 0 = 0x45)
    (hbound : 20 ≤ bound) : ipHeaderSize ip bound = 20 := by
  have hversion : (0x45 : UInt8) >>> 4 &&& 0x0F = ipv4Version := by decide
  have hwords : 4 * ((0x45 : UInt8) &&& 0x0F).toNat = 20 := by decide
  have hguard : ipv4MinHeaderSize ≤ bound ∧ (0x45 : UInt8) >>> 4 &&& 0x0F = ipv4Version :=
    ⟨hbound, hversion⟩
  simp only [ipHeaderSize, hbyte, if_pos hguard, hwords, if_pos hbound]

variable (hlength : area.length = 28 + size) (hsize : size ≤ 65507)

include hlength hsize

theorem findUDP_forceHeaders :
    findUDP (forceHeaders area (28 + size)) = some (forcedLocation size) := by
  have hfirst : byteAt (forceHeaders area (28 + size)) 0 = 0x45 := by
    rw [byteAt_forceHeaders_of_lt _ (by omega), byteAt_zero_forceIPFields (by omega)]
  have hproto : byteAt (forceHeaders area (28 + size)) ipv4ProtocolOffset = ipv4ProtoUdp := by
    rw [byteAt_forceHeaders_of_lt _ (by decide)]
    exact byteAt_nine_forceIPFields (by omega) _
  have htotal : getUInt16 (forceHeaders area (28 + size)) 2 = 28 + size := by
    rw [getUInt16_congr (byteAt_forceHeaders_of_lt _ (by omega))
      (byteAt_forceHeaders_of_lt _ (by omega)), getUInt16_forceIPFields (by omega)]
    omega
  have hudp : getUInt16 (forceHeaders area (28 + size)) (20 + 4) = size + 8 := by
    have hinside : 20 + 4 + 2 ≤ (updateIPHeaderChecksum (forceIPFields area (28 + size))
        ipv4MinHeaderSize).length := by
      rw [length_updateIPHeaderChecksum, length_forceIPFields]
      omega
    have hread := getUInt16_writeBytes hinside (28 + size - ipv4MinHeaderSize)
    unfold ipv4MinHeaderSize at hread
    rw [forceHeaders, ipv4MinHeaderSize, hread]
    omega
  have hheader : ipHeaderSize (forceHeaders area (28 + size))
      (forceHeaders area (28 + size)).length = 20 :=
    ipHeaderSize_of_byteAt hfirst (by rw [length_forceHeaders]; omega)
  apply findUDP_eq_some_iff.mpr
  rw [hheader, length_forceHeaders, htotal, hlength]
  exact ⟨by omega, hproto, by unfold udpHeaderSize; omega, le_refl _, rfl, rfl, hudp, by
    show 20 + 8 + size ≤ 28 + size
    omega⟩

theorem verify_forceHeaders :
    verifyIPHeaderChecksum (forceHeaders area (28 + size))
      (forceHeaders area (28 + size)).length = true := by
  have hfirst : byteAt (forceIPFields area (28 + size)) 0 = 0x45 :=
    byteAt_zero_forceIPFields (by omega) _
  have hforced : ipHeaderSize (forceIPFields area (28 + size)) ipv4MinHeaderSize = 20 :=
    ipHeaderSize_of_byteAt hfirst (by unfold ipv4MinHeaderSize; omega)
  have hupdated : verifyIPHeaderChecksum
      (updateIPHeaderChecksum (forceIPFields area (28 + size)) ipv4MinHeaderSize)
        ipv4MinHeaderSize = true := by
    apply verify_updateIPHeaderChecksum
    · rw [length_forceIPFields]
      unfold ipv4MinHeaderSize
      omega
    · omega
  have hkeep : ∀ offset, offset < 24 → byteAt (forceHeaders area (28 + size)) offset =
      byteAt (updateIPHeaderChecksum (forceIPFields area (28 + size)) ipv4MinHeaderSize) offset :=
    fun offset hoffset ↦ byteAt_writeBytes_of_lt _ hoffset _
  have hheader : ipHeaderSize
      (updateIPHeaderChecksum (forceIPFields area (28 + size)) ipv4MinHeaderSize)
        ipv4MinHeaderSize = 20 :=
    (ipHeaderSize_congr (byteAt_updateIPHeaderChecksum _ _ (by decide)) _).trans hforced
  have hsame : ipHeaderSize (forceHeaders area (28 + size))
      (forceHeaders area (28 + size)).length = 20 := by
    apply ipHeaderSize_of_byteAt
    · rw [byteAt_forceHeaders_of_lt _ (by omega), hfirst]
    · rw [length_forceHeaders]
      omega
  rw [← hupdated]
  apply verifyIPHeaderChecksum_congr (hsame.trans hheader.symm) (Nat.le_of_eq hheader.symm)
  intro offset hoffset
  exact hkeep offset (by omega)

end Forced

def messageDatagram (area data : ByteBlock) : ByteBlock :=
  writeBytes (forceHeaders area (28 + data.length)) (ipv4MinHeaderSize + udpHeaderSize) data

section Message

variable {area data : ByteBlock}

theorem byteAt_messageDatagram {offset : ℕ}
    (hoffset : (12 ≤ offset ∧ offset < 24) ∨ (26 ≤ offset ∧ offset < 28)) :
    byteAt (messageDatagram area data) offset = byteAt area offset := by
  have hbefore : byteAt (messageDatagram area data) offset =
      byteAt (forceHeaders area (28 + data.length)) offset :=
    byteAt_writeBytes_of_lt _ (show offset < 28 by omega) _
  rw [hbefore, byteAt_forceHeaders _ (by omega)]

variable (hlength : area.length = 28 + data.length)

include hlength

theorem messageAt_messageDatagram :
    messageAt (messageDatagram area data) (forcedLocation data.length) = data := by
  have hend : (forceHeaders area (28 + data.length)).length =
      ipv4MinHeaderSize + udpHeaderSize + data.length := by
    rw [length_forceHeaders, hlength, ipv4MinHeaderSize, udpHeaderSize]
  have hread : (messageDatagram area data).drop (ipv4MinHeaderSize + udpHeaderSize) = data :=
    drop_writeBytes_self hend
  rw [messageAt, forcedLocation, hread, List.take_length]

theorem wellFormed_messageDatagram (hfits : MPEPacket.MessageFits data) :
    WellFormed (messageDatagram area data) (forcedLocation data.length) := by
  have hsize : data.length ≤ 65507 := hfits
  have hfound := findUDP_forceHeaders hlength hsize
  have hverify := verify_forceHeaders hlength hsize
  have hkeep : ∀ offset, offset < 28 → byteAt (messageDatagram area data) offset =
      byteAt (forceHeaders area (28 + data.length)) offset :=
    fun offset hoffset ↦ byteAt_writeBytes_of_lt _ hoffset _
  have hlonger : (messageDatagram area data).length =
      (forceHeaders area (28 + data.length)).length := length_writeBytes _ _ _
  obtain ⟨-, -, -, -, hheader, -, -, -⟩ := findUDP_eq_some_iff.mp hfound
  have htwenty : ipHeaderSize (forceHeaders area (28 + data.length))
      (forceHeaders area (28 + data.length)).length = 20 := hheader.symm
  refine ⟨?_, le_refl _, ?_⟩
  · apply findUDP_congr hfound hlonger
    intro offset hoffset
    unfold ipv4ProtocolOffset forcedLocation ipv4MinHeaderSize at hoffset
    exact hkeep offset (by dsimp only at hoffset; omega)
  · rw [← hverify]
    apply verifyIPHeaderChecksum_congr
    · rw [hlonger, ipHeaderSize_congr (hkeep 0 (by omega))]
    · exact Nat.le_of_eq htwenty.symm
    · intro offset hoffset
      exact hkeep offset (by omega)

/-- The checksum is kept when a message is set. -/
theorem udpChecksumRight_messageDatagram :
    UDPChecksumRight (messageDatagram area data) (forcedLocation data.length) ↔
      getUInt16 area 26 = 0 ∨ getUInt32 area ipv4SrcAddrOffset + getUInt32 area ipv4DestAddrOffset +
          ipv4ProtoUdp.toNat + 2 * (data.length + udpHeaderSize) + getUInt16 area 20 +
          getUInt16 area 22 + wordSum data + getUInt16 area 26 ≡ 0 [MOD 65535] := by
  have hword : ∀ offset, (12 ≤ offset ∧ offset < 23) ∨ offset = 26 →
      getUInt16 (messageDatagram area data) offset = getUInt16 area offset :=
    fun offset hoffset ↦ getUInt16_congr (byteAt_messageDatagram (by omega))
      (byteAt_messageDatagram (by omega))
  have haddress : ∀ offset, 12 ≤ offset ∧ offset < 20 →
      getUInt32 (messageDatagram area data) offset = getUInt32 area offset := by
    intro offset hoffset
    rw [getUInt32, getUInt32, hword offset (by omega), hword (offset + 2) (by omega)]
  have hsum := udpSum_modEq (messageDatagram area data) (forcedLocation data.length)
  have htail : udpTail (messageDatagram area data) (forcedLocation data.length) =
      ipv4ProtoUdp.toNat + 2 * (data.length + udpHeaderSize) + getUInt16 area 20 +
        getUInt16 area 22 + wordSum data := by
    have hfirst : getUInt16 (messageDatagram area data) (forcedLocation data.length).udpHeader =
        getUInt16 area 20 := hword 20 (by omega)
    have hsecond : getUInt16 (messageDatagram area data)
        ((forcedLocation data.length).udpHeader + 2) = getUInt16 area 22 := hword 22 (by omega)
    have hsize : (forcedLocation data.length).udpSize = data.length := rfl
    rw [udpTail, hfirst, hsecond, messageAt_messageDatagram hlength, hsize]
    omega
  rw [haddress ipv4SrcAddrOffset (by decide), haddress ipv4DestAddrOffset (by decide), htail] at hsum
  have hfield : getUInt16 (messageDatagram area data)
      ((forcedLocation data.length).udpHeader + 6) = getUInt16 area 26 := hword 26 (by omega)
  have htotal : getUInt32 area ipv4SrcAddrOffset + getUInt32 area ipv4DestAddrOffset +
      (ipv4ProtoUdp.toNat + 2 * (data.length + udpHeaderSize) + getUInt16 area 20 +
        getUInt16 area 22 + wordSum data) + getUInt16 area 26 =
      getUInt32 area ipv4SrcAddrOffset + getUInt32 area ipv4DestAddrOffset +
        ipv4ProtoUdp.toNat + 2 * (data.length + udpHeaderSize) + getUInt16 area 20 +
        getUInt16 area 22 + wordSum data + getUInt16 area 26 := by
    omega
  rw [udpChecksumRight_iff, hfield]
  apply or_congr_right
  rw [← htotal]
  exact ⟨fun h ↦ (hsum.add_right _).symm.trans h, fun h ↦ (hsum.add_right _).trans h⟩

end Message

/-! ### The setters as a machine -/

namespace MPEPacket

/-- What is done to a packet. -/
inductive Setter
  | setNetworkDatagram (datagram : ByteBlock) (mac : MACAddress) (pid : ℕ)
  | setSourceIPAddress (ip : UInt32)
  | setDestinationIPAddress (ip : UInt32)
  | setSourceSocket (sock : SocketAddress)
  | setDestinationSocket (sock : SocketAddress)
  | setUDPMessage (data : Option ByteBlock)
  deriving DecidableEq

def apply (packet : MPEPacket) : Setter → MPEPacket
  | .setNetworkDatagram datagram mac pid => ofDatagram (some datagram) mac pid
  | .setSourceIPAddress ip => packet.setSourceIPAddress ip
  | .setDestinationIPAddress ip => packet.setDestinationIPAddress ip
  | .setSourceSocket sock => packet.setSourceSocket sock
  | .setDestinationSocket sock => packet.setDestinationSocket sock
  | .setUDPMessage data => (packet.setUDPMessage data).2

/-- A setter with the packet before and after it. -/
structure Transition where
  before : MPEPacket
  setter : Setter
  after : MPEPacket

def mpeSetters : Machine MPEPacket Setter Transition where
  step packet setter := some (packet.apply setter, [⟨packet, setter, packet.apply setter⟩])

/-- The checksums of a valid packet are correct. -/
def ChecksumsRight (packet : MPEPacket) : Prop :=
  ∀ content, packet.isValid = true → packet.datagram = some content →
    ∃ udp, TSDuck.findUDP content = some udp ∧ verifyIPHeaderChecksum content content.length = true ∧
      UDPChecksumRight content udp

/-- The message is set, with the same addresses and ports. -/
def MessageSet (transition : Transition) : Prop :=
  ∀ data, transition.setter = .setUDPMessage (some data) → MessageFits data →
    (transition.before.isValid = true →
      transition.after.sourceIPAddress = transition.before.sourceIPAddress ∧
      transition.after.destinationIPAddress = transition.before.destinationIPAddress ∧
      transition.after.sourceUDPPort = transition.before.sourceUDPPort ∧
      transition.after.destinationUDPPort = transition.before.destinationUDPPort) ∧
    transition.after.udpMessage = some data

/-- The datagrams that are set have correct checksums. -/
def CorrectDatagram (setter : Setter) : Prop :=
  ∀ datagram mac pid, setter = .setNetworkDatagram datagram mac pid →
    ∀ udp, TSDuck.findUDP datagram = some udp →
      verifyIPHeaderChecksum datagram datagram.length = true ∧ UDPChecksumRight datagram udp

/-- The checksum is not used, or the sum is the same. -/
def AddressFits (packet : MPEPacket) (offset : ℕ) (ip : UInt32) : Prop :=
  ∀ content udp, packet.isValid = true → packet.datagram = some content →
    TSDuck.findUDP content = some udp →
      getUInt16 content (udp.udpHeader + 6) = 0 ∨ ip.toNat ≡ getUInt32 content offset [MOD 65535]

/-- The ports and the checksum are after the fixed fields. -/
def PortsFit (packet : MPEPacket) (data : ByteBlock) : Prop :=
  ∀ content udp, packet.isValid = true → packet.datagram = some content →
    TSDuck.findUDP content = some udp → getUInt16 content 20 = getUInt16 content udp.udpHeader ∧
      getUInt16 content 22 = getUInt16 content (udp.udpHeader + 2) ∧
      (getUInt16 content 26 = 0 ∨
        getUInt32 content ipv4SrcAddrOffset + getUInt32 content ipv4DestAddrOffset +
          ipv4ProtoUdp.toNat + 2 * (data.length + udpHeaderSize) + getUInt16 content 20 +
          getUInt16 content 22 + wordSum data + getUInt16 content 26 ≡ 0 [MOD 65535])

/-- What the setter leaves as it is remains right. -/
def Fits (packet : MPEPacket) : Setter → Prop
  | .setNetworkDatagram _ _ _ => True
  | .setSourceIPAddress ip => AddressFits packet ipv4SrcAddrOffset ip
  | .setDestinationIPAddress ip => AddressFits packet ipv4DestAddrOffset ip
  | .setSourceSocket sock =>
    sock.port ≠ 0 ∨ sock.address = 0 ∨ AddressFits packet ipv4SrcAddrOffset sock.address
  | .setDestinationSocket sock =>
    sock.port ≠ 0 ∨ sock.address = 0 ∨ AddressFits packet ipv4DestAddrOffset sock.address
  | .setUDPMessage none => True
  | .setUDPMessage (some data) => MessageFits data → PortsFit packet data

/-- The datagram which is set has the fixed fields. -/
def FullHeader (setter : Setter) : Prop :=
  ∀ datagram mac pid, setter = .setNetworkDatagram datagram mac pid →
    ∀ udp, TSDuck.findUDP datagram = some udp → ipv4MinHeaderSize ≤ udp.udpHeader

/-- A packet without datagram, or a right one. -/
inductive Sound (packet : MPEPacket) : Prop
  | invalid (hvalid : packet.isValid = false) (hdatagram : packet.datagram = none)
  | valid {content : ByteBlock} {udp : UDPLocation} (hvalid : packet.isValid = true)
      (hdatagram : packet.datagram = some content) (hcontent : WellFormed content udp)
      (hchecksum : UDPChecksumRight content udp)

theorem Sound.checksumsRight {packet : MPEPacket} (hpacket : Sound packet) :
    ChecksumsRight packet := by
  intro content hvalid hdatagram
  cases hpacket with
  | invalid hinvalid _ => exact absurd (hvalid.symm.trans hinvalid) (by decide)
  | valid _ hother hcontent hchecksum =>
    obtain rfl := Option.some.inj (hdatagram.symm.trans hother)
    exact ⟨_, hcontent.found, hcontent.ip, hchecksum⟩

/-- A packet with a right checksum under a condition. -/
def ValidWhen (packet : MPEPacket) (condition : Prop) : Prop :=
  ∃ content udp, packet.isValid = true ∧ packet.datagram = some content ∧ WellFormed content udp ∧
    (UDPChecksumRight content udp ↔ condition)

theorem ValidWhen.sound {packet : MPEPacket} {condition : Prop} (hpacket : packet.ValidWhen condition)
    (hcondition : condition) : Sound packet := by
  obtain ⟨content, udp, hvalid, hdatagram, hcontent, hchecksum⟩ := hpacket
  exact Sound.valid hvalid hdatagram hcontent (hchecksum.mpr hcondition)

theorem ValidWhen.not_checksumsRight {packet : MPEPacket} {condition : Prop}
    (hpacket : packet.ValidWhen condition) (hcondition : ¬ condition) : ¬ ChecksumsRight packet := by
  obtain ⟨content, udp, hvalid, hdatagram, hcontent, hchecksum⟩ := hpacket
  intro hright
  obtain ⟨other, hfound, -, hother⟩ := hright content hvalid hdatagram
  obtain rfl := Option.some.inj (hcontent.found.symm.trans hfound)
  exact hcondition (hchecksum.mp hother)

section Steps

variable {packet : MPEPacket}

theorem configureUDP_of_sound (hpacket : Sound packet) :
    ∃ content udp, (packet.configureUDP false 0).datagram = some content ∧ WellFormed content udp ∧
      UDPChecksumRight content udp ∧
      (packet.isValid = false → getUInt16 content (udp.udpHeader + 6) = 0) := by
  cases hpacket with
  | invalid hvalid hdatagram =>
    have hlength := length_datagramArea none 0
    have hzero : getUInt16 (datagramArea none 0) 26 = 0 := by decide
    have hfield : getUInt16 (messageDatagram (datagramArea none 0) [])
        ((forcedLocation ([] : ByteBlock).length).udpHeader + 6) = 0 := by
      rw [← hzero]
      exact getUInt16_congr (byteAt_messageDatagram (Or.inr (by decide)))
        (byteAt_messageDatagram (Or.inr (by decide)))
    refine ⟨messageDatagram (datagramArea none 0) [], forcedLocation ([] : ByteBlock).length, ?_,
      wellFormed_messageDatagram hlength (by decide), Or.inl hfield, fun _ ↦ hfield⟩
    rw [datagram_configureUDP (by rw [hvalid]; decide), hdatagram]
    rfl
  | valid hvalid hdatagram hcontent hchecksum =>
    rw [configureUDP_of_valid hvalid]
    exact ⟨_, _, hdatagram, hcontent, hchecksum,
      fun hinvalid ↦ absurd (hvalid.symm.trans hinvalid) (by decide)⟩

theorem validWhen_setAddress (hpacket : Sound packet) {offset : ℕ}
    (hoffset : offset = ipv4SrcAddrOffset ∨ offset = ipv4DestAddrOffset) (ip : UInt32) :
    (packet.setAddress offset ip).ValidWhen (AddressFits packet offset ip) := by
  obtain ⟨content, udp, hdatagram, hcontent, hchecksum, hunused⟩ := configureUDP_of_sound hpacket
  refine ⟨replaceAddress offset ip content, udp, isValid_configureUDP packet false 0,
    datagram_updateDatagram hdatagram _ _, wellFormed_replaceAddress hcontent hoffset ip, ?_⟩
  rw [udpChecksumRight_replaceAddress hcontent hoffset ip hchecksum]
  cases hbefore : packet.isValid with
  | false =>
    apply iff_of_true (Or.inl (hunused hbefore))
    intro other location hother
    exact absurd (hbefore.symm.trans hother) (by decide)
  | true =>
    rw [configureUDP_of_valid hbefore] at hdatagram
    constructor
    · intro hfits other location _ hother hfound
      obtain rfl := Option.some.inj (hdatagram.symm.trans hother)
      obtain rfl := Option.some.inj (hcontent.found.symm.trans hfound)
      exact hfits
    · intro hfits
      exact hfits content udp hbefore hdatagram hcontent.found

theorem sound_setPort {content : ByteBlock} {udp : UDPLocation} (hvalid : packet.isValid = true)
    (hdatagram : packet.datagram = some content) (hcontent : WellFormed content udp) {offset : ℕ}
    (hoffset : offset ≤ 2) (port : Uint16) : Sound (packet.setPort offset port) := by
  have hfound : packet.findUDP = some udp := by
    rw [findUDP, if_pos hvalid, hdatagram]
    exact hcontent.found
  obtain ⟨hwell, hchecksum⟩ := wellFormed_replacePort hcontent hoffset port
  have hnext : packet.setPort offset port = packet.updateDatagram
      (replacePort udp.udpHeader offset port) (length_replacePort _ _ _) := by
    rw [setPort, hfound]
  rw [hnext]
  exact Sound.valid hvalid (datagram_updateDatagram hdatagram _ _) hwell hchecksum

theorem Sound.setPort (hpacket : Sound packet) {offset : ℕ} (hoffset : offset ≤ 2)
    (port : Uint16) : Sound (packet.setPort offset port) := by
  cases hpacket with
  | invalid hvalid hdatagram =>
    have hnone : packet.findUDP = none := by
      rw [findUDP, if_neg (by simp [hvalid])]
    rw [MPEPacket.setPort, hnone]
    exact Sound.invalid hvalid hdatagram
  | valid hvalid hdatagram hcontent _ => exact sound_setPort hvalid hdatagram hcontent hoffset port

theorem setSocket_of_sound (hpacket : Sound packet) {addressOffset portOffset : ℕ}
    (haddress : addressOffset = ipv4SrcAddrOffset ∨ addressOffset = ipv4DestAddrOffset)
    (hport : portOffset ≤ 2) (sock : SocketAddress) :
    let next := packet.setSocket (setAddress · addressOffset) (MPEPacket.setPort · portOffset) sock
    let fits := sock.port ≠ 0 ∨ sock.address = 0 ∨ AddressFits packet addressOffset sock.address
    (fits → Sound next) ∧ (¬ fits → ¬ ChecksumsRight next) := by
  intro next fits
  have haddressed := validWhen_setAddress hpacket haddress sock.address
  by_cases hzero : sock.address = 0
  · by_cases hnone : sock.port = 0
    · have hnext : next = packet := by
        simp only [next, setSocket, hzero, hnone, ne_eq, not_true_eq_false, if_false]
      exact ⟨fun _ ↦ hnext ▸ hpacket, fun hnot ↦ absurd (Or.inr (Or.inl hzero)) hnot⟩
    · have hnext : next = packet.setPort portOffset sock.port := by
        simp only [next, setSocket, hzero, ne_eq, not_true_eq_false, if_false, hnone,
          not_false_eq_true, if_true]
      exact ⟨fun _ ↦ hnext ▸ hpacket.setPort hport sock.port, fun hnot ↦ absurd (Or.inl hnone) hnot⟩
  · by_cases hnone : sock.port = 0
    · have hnext : next = packet.setAddress addressOffset sock.address := by
        simp only [next, setSocket, hzero, hnone, ne_eq, not_true_eq_false, if_false,
          not_false_eq_true, if_true]
      rw [hnext]
      constructor
      · rintro (hsome | habsent | hfits)
        · exact absurd hnone hsome
        · exact absurd habsent hzero
        · exact haddressed.sound hfits
      · exact fun hnot ↦ haddressed.not_checksumsRight fun hfits ↦ hnot (Or.inr (Or.inr hfits))
    · have hnext : next = (packet.setAddress addressOffset sock.address).setPort portOffset
          sock.port := by
        simp only [next, setSocket, hzero, hnone, ne_eq, not_false_eq_true, if_true]
      obtain ⟨content, udp, hvalid, hdatagram, hcontent, -⟩ := haddressed
      rw [hnext]
      exact ⟨fun _ ↦ sound_setPort hvalid hdatagram hcontent hport sock.port,
        fun hnot ↦ absurd (Or.inl hnone) hnot⟩

theorem setUDPMessage_of_fits (packet : MPEPacket) {data : ByteBlock} (hfits : MessageFits data) :
    (packet.setUDPMessage (some data)).2.isValid = true ∧
      (packet.setUDPMessage (some data)).2.datagram =
        some (messageDatagram (datagramArea packet.datagram data.length) data) := by
  have hlength := length_datagramArea packet.datagram data.length
  have htrue : (true || !packet.isValid) = true := rfl
  have hconfigured := datagram_configureUDP htrue data.length
  have htotal : ipv4MinHeaderSize + udpHeaderSize + data.length = 28 + data.length := rfl
  rw [htotal] at hlength hconfigured
  have hfound : (packet.configureUDP true data.length).findUDP =
      some (forcedLocation data.length) := by
    rw [findUDP, if_pos (isValid_configureUDP _ _ _), hconfigured, Option.bind_some]
    exact findUDP_forceHeaders hlength hfits
  have hset : packet.setUDPMessage (some data) =
      (true, (packet.configureUDP true data.length).updateDatagram
        (fun content ↦ writeBytes content (forcedLocation data.length).udpAddress data)
        fun content ↦ length_writeBytes content (forcedLocation data.length).udpAddress data) := by
    rw [setUDPMessage, if_pos hfits]
    simp only [hfound]
  rw [hset]
  exact ⟨isValid_configureUDP _ _ _, datagram_updateDatagram hconfigured _ fun content ↦
    length_writeBytes content (forcedLocation data.length).udpAddress data⟩

theorem byteAt_resize {content : ByteBlock} {size offset : ℕ} (hcontent : offset < content.length)
    (hsize : offset < size) : byteAt (resize content size) offset = byteAt content offset := by
  rw [resize, byteAt_append_left _ (by rw [List.length_take]; omega), byteAt_take _ hsize]

theorem byteAt_datagramArea_none (udpSize offset : ℕ) :
    byteAt (datagramArea none udpSize) offset = 0 := by
  show byteAt (List.replicate _ 0) offset = 0
  rw [byteAt, List.getD_eq_getElem?_getD, List.getElem?_replicate]
  split_ifs <;> rfl

theorem udpMessage_setUDPMessage (packet : MPEPacket) {data : ByteBlock} (hfits : MessageFits data) :
    (packet.setUDPMessage (some data)).2.udpMessage = some data := by
  obtain ⟨hvalid, hdatagram⟩ := setUDPMessage_of_fits packet hfits
  have hlength := length_datagramArea packet.datagram data.length
  have hfound : (packet.setUDPMessage (some data)).2.findUDP =
      some (forcedLocation data.length) := by
    rw [findUDP, if_pos hvalid, hdatagram, Option.bind_some]
    exact (wellFormed_messageDatagram hlength hfits).found
  rw [udpMessage, hfound, hdatagram, Option.map_some, Option.getD_some,
    messageAt_messageDatagram hlength]

section ValidMessage

variable {content data : ByteBlock} {udp : UDPLocation}
  (hdatagram : packet.datagram = some content) (hcontent : WellFormed content udp)
  (hfits : MessageFits data)

include hdatagram hcontent hfits

/-- The checksum is right if unused or by chance. -/
theorem validWhen_setUDPMessage :
    (packet.setUDPMessage (some data)).2.ValidWhen
      (getUInt16 content 26 = 0 ∨
        getUInt32 content ipv4SrcAddrOffset + getUInt32 content ipv4DestAddrOffset +
          ipv4ProtoUdp.toNat + 2 * (data.length + udpHeaderSize) + getUInt16 content 20 +
          getUInt16 content 22 + wordSum data + getUInt16 content 26 ≡ 0 [MOD 65535]) := by
  obtain ⟨hnext, hmessage⟩ := setUDPMessage_of_fits packet hfits
  have hlength := length_datagramArea packet.datagram data.length
  obtain ⟨-, haddress, hinside⟩ := hcontent.inside
  have hmin := hcontent.header
  unfold ipv4MinHeaderSize at hmin
  unfold udpHeaderSize at haddress
  have hword : ∀ offset, offset < 27 →
      getUInt16 (datagramArea packet.datagram data.length) offset = getUInt16 content offset := by
    intro offset hoffset
    have hbyte : ∀ other, other < 28 →
        byteAt (datagramArea packet.datagram data.length) other = byteAt content other := by
      intro other hother
      rw [hdatagram]
      exact byteAt_resize (by omega) (show other < 20 + 8 + data.length by omega)
    exact getUInt16_congr (hbyte _ (by omega)) (hbyte _ (by omega))
  have hip : ∀ offset, offset < 25 →
      getUInt32 (datagramArea packet.datagram data.length) offset = getUInt32 content offset := by
    intro offset hoffset
    rw [getUInt32, getUInt32, hword offset (by omega), hword (offset + 2) (by omega)]
  refine ⟨_, _, hnext, hmessage, wellFormed_messageDatagram hlength hfits, ?_⟩
  rw [udpChecksumRight_messageDatagram hlength, hword 26 (by omega), hword 20 (by omega),
    hword 22 (by omega), hip _ (by decide), hip _ (by decide)]

/-- The ports are kept if they are after the fixed fields. -/
theorem messageSet_iff (hvalid : packet.isValid = true) :
    MessageSet ⟨packet, .setUDPMessage (some data), (packet.setUDPMessage (some data)).2⟩ ↔
      getUInt16 content 20 = getUInt16 content udp.udpHeader ∧
        getUInt16 content 22 = getUInt16 content (udp.udpHeader + 2) := by
  obtain ⟨hnext, hmessage⟩ := setUDPMessage_of_fits packet hfits
  have hlength := length_datagramArea packet.datagram data.length
  obtain ⟨-, haddress, hinside⟩ := hcontent.inside
  have hmin := hcontent.header
  unfold ipv4MinHeaderSize at hmin
  unfold udpHeaderSize at haddress
  have hbyte : ∀ offset, 12 ≤ offset → offset < 24 →
      byteAt (messageDatagram (datagramArea packet.datagram data.length) data) offset =
        byteAt content offset := by
    intro offset hlow hhigh
    rw [byteAt_messageDatagram (by omega), hdatagram]
    exact byteAt_resize (by omega) (show offset < 20 + 8 + data.length by omega)
  have hword : ∀ offset, 12 ≤ offset → offset < 23 →
      getUInt16 (messageDatagram (datagramArea packet.datagram data.length) data) offset =
        getUInt16 content offset :=
    fun offset hlow hhigh ↦ getUInt16_congr (hbyte _ hlow (by omega)) (hbyte _ (by omega) (by omega))
  have hip : ∀ offset, 12 ≤ offset → offset < 20 →
      (packet.setUDPMessage (some data)).2.addressAt offset = packet.addressAt offset := by
    intro offset hlow hhigh
    rw [addressAt, addressAt, if_pos hnext, if_pos hvalid, hmessage, hdatagram, Option.getD_some,
      Option.getD_some, getUInt32, getUInt32, ← hdatagram, hword _ hlow (by omega),
      hword _ (by omega) (by omega)]
  have hlocated : (packet.setUDPMessage (some data)).2.findUDP =
      some (forcedLocation data.length) := by
    rw [findUDP, if_pos hnext, hmessage, Option.bind_some]
    exact (wellFormed_messageDatagram hlength hfits).found
  have hfound : packet.findUDP = some udp := by
    rw [findUDP, if_pos hvalid, hdatagram, Option.bind_some]
    exact hcontent.found
  have hport : ∀ offset, offset ≤ 2 →
      (packet.setUDPMessage (some data)).2.portAt offset = getUInt16 content (20 + offset) ∧
        packet.portAt offset = getUInt16 content (udp.udpHeader + offset) := by
    intro offset hoffset
    constructor
    · rw [portAt, hlocated]
      dsimp only
      rw [hmessage, Option.getD_some]
      exact hword (20 + offset) (by omega) (by omega)
    · rw [portAt, hfound]
      dsimp only
      rw [hdatagram, Option.getD_some]
  constructor
  · intro hset
    obtain ⟨-, -, hsource, hdestination⟩ := (hset data rfl hfits).1 hvalid
    constructor
    · exact (hport 0 (by omega)).1.symm.trans (hsource.trans (hport 0 (by omega)).2)
    · exact (hport 2 (by omega)).1.symm.trans (hdestination.trans (hport 2 (by omega)).2)
  · rintro ⟨hsource, hdestination⟩ other hother _
    simp only [Setter.setUDPMessage.injEq, Option.some.injEq] at hother
    subst hother
    refine ⟨fun _ ↦ ⟨hip _ (by decide) (by decide), hip _ (by decide) (by decide), ?_, ?_⟩,
      udpMessage_setUDPMessage packet hfits⟩
    · exact (hport 0 (by omega)).1.trans (hsource.trans (hport 0 (by omega)).2.symm)
    · exact (hport 2 (by omega)).1.trans (hdestination.trans (hport 2 (by omega)).2.symm)

end ValidMessage

theorem setUDPMessage_of_sound (hpacket : Sound packet) {data : ByteBlock}
    (hfits : MessageFits data) :
    let next := (packet.setUDPMessage (some data)).2
    let transition : Transition := ⟨packet, .setUDPMessage (some data), next⟩
    (PortsFit packet data → Sound next ∧ MessageSet transition) ∧
      (¬ PortsFit packet data → ¬ (ChecksumsRight next ∧ MessageSet transition)) := by
  intro next transition
  cases hpacket with
  | invalid hvalid hdatagram =>
    have hlength := length_datagramArea none data.length
    obtain ⟨hnext, hmessage⟩ := setUDPMessage_of_fits packet hfits
    rw [hdatagram] at hmessage
    have hunused : UDPChecksumRight (messageDatagram (datagramArea none data.length) data)
        (forcedLocation data.length) := by
      apply (udpChecksumRight_messageDatagram hlength).mpr
      left
      rw [getUInt16, byteAt_datagramArea_none, byteAt_datagramArea_none]
      rfl
    have hset : MessageSet transition := by
      intro other hother _
      simp only [transition, Setter.setUDPMessage.injEq, Option.some.injEq] at hother
      subst hother
      exact ⟨fun hbefore ↦ absurd (hvalid.symm.trans hbefore) (by decide),
        udpMessage_setUDPMessage packet hfits⟩
    refine ⟨fun _ ↦ ⟨Sound.valid hnext hmessage (wellFormed_messageDatagram hlength hfits) hunused,
      hset⟩, fun hnot ↦ absurd ?_ hnot⟩
    intro content udp hbefore
    exact absurd (hvalid.symm.trans hbefore) (by decide)
  | @valid content udp hvalid hdatagram hcontent hchecksum =>
    have hset := messageSet_iff hdatagram hcontent hfits hvalid
    have hnext := validWhen_setUDPMessage hdatagram hcontent hfits
    constructor
    · intro hports
      obtain ⟨hsource, hdestination, hfield⟩ :=
        hports content udp hvalid hdatagram hcontent.found
      exact ⟨hnext.sound hfield, hset.mpr ⟨hsource, hdestination⟩⟩
    · rintro hnot ⟨hright, hkept⟩
      apply hnot
      intro other location _ hother hfound
      obtain rfl := Option.some.inj (hdatagram.symm.trans hother)
      obtain rfl := Option.some.inj (hcontent.found.symm.trans hfound)
      obtain ⟨hsource, hdestination⟩ := hset.mp hkept
      by_contra hwrong
      exact hnext.not_checksumsRight (fun hfield ↦ hwrong ⟨hsource, hdestination, hfield⟩) hright

theorem sound_ofDatagram {datagram : ByteBlock} (mac : MACAddress) (pid : ℕ)
    (hcorrect : ∀ udp, TSDuck.findUDP datagram = some udp →
      verifyIPHeaderChecksum datagram datagram.length = true ∧ UDPChecksumRight datagram udp)
    (hfull : ∀ udp, TSDuck.findUDP datagram = some udp → ipv4MinHeaderSize ≤ udp.udpHeader) :
    Sound (ofDatagram (some datagram) mac pid) := by
  cases hfound : TSDuck.findUDP datagram with
  | none =>
    apply Sound.invalid
    · simp only [ofDatagram, Option.bind_some, hfound, Option.isSome_none]
    · simp [ofDatagram, hfound]
  | some udp =>
    obtain ⟨hip, hchecksum⟩ := hcorrect udp hfound
    apply Sound.valid _ _ ⟨hfound, hfull udp hfound, hip⟩ hchecksum
    · simp only [ofDatagram, Option.bind_some, hfound, Option.isSome_some]
    · simp [ofDatagram, hfound]

theorem messageSet_of_ne {setter : Setter} (next : MPEPacket)
    (hsetter : ∀ data, setter ≠ .setUDPMessage (some data)) :
    MessageSet ⟨packet, setter, next⟩ :=
  fun data hdata ↦ absurd hdata (hsetter data)

theorem sound_apply (hpacket : Sound packet) {setter : Setter} (hcorrect : CorrectDatagram setter)
    (hfull : FullHeader setter) (hfits : Fits packet setter) :
    Sound (packet.apply setter) ∧ MessageSet ⟨packet, setter, packet.apply setter⟩ := by
  cases setter with
  | setNetworkDatagram datagram mac pid =>
    exact ⟨sound_ofDatagram mac pid (hcorrect datagram mac pid rfl) (hfull datagram mac pid rfl),
      messageSet_of_ne _ (by simp)⟩
  | setSourceIPAddress ip =>
    exact ⟨(validWhen_setAddress hpacket (Or.inl rfl) ip).sound hfits, messageSet_of_ne _ (by simp)⟩
  | setDestinationIPAddress ip =>
    exact ⟨(validWhen_setAddress hpacket (Or.inr rfl) ip).sound hfits, messageSet_of_ne _ (by simp)⟩
  | setSourceSocket sock =>
    exact ⟨(setSocket_of_sound hpacket (Or.inl rfl) (Nat.zero_le 2) sock).1 hfits,
      messageSet_of_ne _ (by simp)⟩
  | setDestinationSocket sock =>
    exact ⟨(setSocket_of_sound hpacket (Or.inr rfl) (le_refl 2) sock).1 hfits,
      messageSet_of_ne _ (by simp)⟩
  | setUDPMessage data =>
    cases data with
    | none => exact ⟨hpacket, messageSet_of_ne _ (by simp)⟩
    | some data =>
      by_cases hsize : MessageFits data
      · exact (setUDPMessage_of_sound hpacket hsize).1 (hfits hsize)
      · have hsame : packet.apply (.setUDPMessage (some data)) = packet := by
          rw [apply, setUDPMessage, if_neg hsize]
        refine ⟨hsame.symm ▸ hpacket, fun other hother hfitting ↦ ?_⟩
        simp only [Setter.setUDPMessage.injEq, Option.some.injEq] at hother
        exact absurd (hother ▸ hfitting) hsize

theorem not_right_apply (hpacket : Sound packet) {setter : Setter} (hfits : ¬ Fits packet setter) :
    ¬ (ChecksumsRight (packet.apply setter) ∧
      MessageSet ⟨packet, setter, packet.apply setter⟩) := by
  rintro ⟨hright, hset⟩
  cases setter with
  | setNetworkDatagram datagram mac pid => exact hfits trivial
  | setSourceIPAddress ip =>
    exact (validWhen_setAddress hpacket (Or.inl rfl) ip).not_checksumsRight hfits hright
  | setDestinationIPAddress ip =>
    exact (validWhen_setAddress hpacket (Or.inr rfl) ip).not_checksumsRight hfits hright
  | setSourceSocket sock =>
    exact (setSocket_of_sound hpacket (Or.inl rfl) (Nat.zero_le 2) sock).2 hfits hright
  | setDestinationSocket sock =>
    exact (setSocket_of_sound hpacket (Or.inr rfl) (le_refl 2) sock).2 hfits hright
  | setUDPMessage data =>
    cases data with
    | none => exact hfits trivial
    | some data =>
      apply hfits
      intro hsize
      by_contra hports
      exact (setUDPMessage_of_sound hpacket hsize).2 hports ⟨hright, hset⟩

end Steps

/-! ### Runs of setters -/

theorem sound_clear : Sound clear :=
  Sound.invalid rfl rfl

theorem step_mpeSetters {packet next : MPEPacket} {setter : Setter} {outputs : List Transition}
    (hstep : mpeSetters.step packet setter = some (next, outputs)) :
    next = packet.apply setter ∧ outputs = [⟨packet, setter, packet.apply setter⟩] := by
  have hpair := Option.some.inj hstep
  exact ⟨(Prod.mk.inj hpair).1.symm, (Prod.mk.inj hpair).2.symm⟩

/-- Assumes: datagrams with correct checksums are set. If all setters fit, the checksums are right
and the messages are set. -/
theorem checksumsRight_of_meets {setters : List Setter}
    (hcorrect : ∀ setter ∈ setters, CorrectDatagram setter)
    (hmeets : mpeSetters.Meets (fun packet setter ↦ FullHeader setter ∧ Fits packet setter) clear
      setters) :
    mpeSetters.HoldsAlong ChecksumsRight MessageSet clear setters := by
  have hproperty : ∀ packet, Sound packet → ChecksumsRight packet :=
    fun _ hpacket ↦ hpacket.checksumsRight
  apply mpeSetters.holdsAlong_of_meets hproperty _ hcorrect sound_clear hmeets
  intro packet setter next outputs hsetter hpacket hcondition hstep
  obtain ⟨rfl, rfl⟩ := step_mpeSetters hstep
  obtain ⟨hnext, hset⟩ := sound_apply hpacket hsetter hcondition.1 hcondition.2
  exact ⟨hnext, List.forall_mem_singleton.mpr hset⟩

def checkedDatagram : ByteBlock :=
  [0x45, 0, 0, 0x1C, 0, 0, 0, 0, 0x80, 0x11, 0x26, 0xCF, 10, 0, 0, 1, 10, 0, 0, 2,
    0, 53, 0, 53, 0, 8, 0xEB, 0x71]

theorem wellFormed_checkedDatagram :
    WellFormed checkedDatagram (forcedLocation 0) ∧
      UDPChecksumRight checkedDatagram (forcedLocation 0) := by
  refine ⟨⟨by decide, by decide, ?_⟩, udpChecksumRight_iff.mpr (Or.inr (by decide))⟩
  have hchecksum : ipHeaderChecksum checkedDatagram checkedDatagram.length = 0x26CF := by
    have hsize : ipHeaderSize checkedDatagram checkedDatagram.length = 20 := by decide
    have hsum : ipHeaderSum checkedDatagram 20 = 55600 := by decide
    rw [ipHeaderChecksum, hsize, if_neg (by decide), hsum,
      OnesComplement.complement_eq (by decide) (by decide)]
  rw [verifyIPHeaderChecksum, hchecksum]
  decide

theorem correctDatagram_checkedDatagram {setter : Setter}
    (hsetter : setter = .setNetworkDatagram checkedDatagram MACAddress.zero 0) :
    CorrectDatagram setter ∧ FullHeader setter := by
  subst hsetter
  obtain ⟨hcontent, hchecksum⟩ := wellFormed_checkedDatagram
  constructor
  · intro datagram mac pid heq udp hfound
    obtain ⟨rfl, -, -⟩ := Setter.setNetworkDatagram.inj heq
    obtain rfl := Option.some.inj (hcontent.found.symm.trans hfound)
    exact ⟨hcontent.ip, hchecksum⟩
  · intro datagram mac pid heq udp hfound
    obtain ⟨rfl, -, -⟩ := Setter.setNetworkDatagram.inj heq
    obtain rfl := Option.some.inj (hcontent.found.symm.trans hfound)
    exact hcontent.header

/-- The condition is exact for datagrams with all fixed fields. -/
theorem checksumsRight_iff_meets {setters : List Setter}
    (hsetters : ∀ setter ∈ setters, CorrectDatagram setter ∧ FullHeader setter) :
    mpeSetters.HoldsAlong ChecksumsRight MessageSet clear setters ↔
      mpeSetters.Meets Fits clear setters := by
  obtain ⟨last, outputs, hrun⟩ :=
    mpeSetters.exists_run (fun packet setter ↦ ⟨_, _, rfl⟩) clear setters
  have hproperty : ∀ packet, Sound packet → ChecksumsRight packet :=
    fun _ hpacket ↦ hpacket.checksumsRight
  apply mpeSetters.holdsAlong_iff_meets hproperty _ _ hsetters sound_clear hrun
  · intro packet setter next reported hsetter hpacket hfits hstep
    obtain ⟨rfl, rfl⟩ := step_mpeSetters hstep
    obtain ⟨hnext, hset⟩ := sound_apply hpacket hsetter.1 hsetter.2 hfits
    exact ⟨hnext, List.forall_mem_singleton.mpr hset⟩
  · rintro packet setter next reported - hpacket hfits hstep ⟨hright, hset⟩
    obtain ⟨rfl, rfl⟩ := step_mpeSetters hstep
    exact not_right_apply hpacket hfits ⟨hright, hset _ List.mem_cons_self⟩

/-- Two setters that fit. -/
theorem checksumsRight_two_setters :
    mpeSetters.HoldsAlong ChecksumsRight MessageSet clear
      [.setUDPMessage (some [1, 2, 3]), .setNetworkDatagram checkedDatagram MACAddress.zero 0] := by
  have hdatagram := correctDatagram_checkedDatagram rfl
  apply checksumsRight_of_meets
  · intro setter hsetter
    rcases List.mem_pair.mp hsetter with rfl | rfl
    · intro datagram mac pid heq
      exact absurd heq (by simp)
    · exact hdatagram.1
  · refine ⟨⟨fun datagram mac pid heq ↦ absurd heq (by simp), fun _ content udp hvalid ↦ ?_⟩,
      fun next outputs _ ↦ ⟨⟨hdatagram.2, trivial⟩, fun _ _ _ ↦ trivial⟩⟩
    exact absurd hvalid (by decide)

/-- The source address is replaced, not the checksum. -/
theorem not_checksumsRight_setSourceIPAddress :
    (∀ setter ∈ [Setter.setNetworkDatagram checkedDatagram MACAddress.zero 0,
      .setSourceIPAddress 0x0A000003], CorrectDatagram setter) ∧
    ¬ mpeSetters.HoldsAlong ChecksumsRight MessageSet clear
      [.setNetworkDatagram checkedDatagram MACAddress.zero 0, .setSourceIPAddress 0x0A000003] := by
  have hdatagram := correctDatagram_checkedDatagram rfl
  have hsetters : ∀ setter ∈ [Setter.setNetworkDatagram checkedDatagram MACAddress.zero 0,
      .setSourceIPAddress 0x0A000003], CorrectDatagram setter ∧ FullHeader setter := by
    intro setter hsetter
    rcases List.mem_pair.mp hsetter with rfl | rfl
    · exact hdatagram
    · exact ⟨fun datagram mac pid heq ↦ absurd heq (by simp),
        fun datagram mac pid heq ↦ absurd heq (by simp)⟩
  refine ⟨fun setter hsetter ↦ (hsetters setter hsetter).1, fun hholds ↦ ?_⟩
  obtain ⟨-, hrest⟩ := (checksumsRight_iff_meets hsetters).mp hholds
  obtain ⟨hfits, -⟩ := hrest _ _ rfl
  have haddress := hfits checkedDatagram (forcedLocation 0) (by decide) (by decide) (by decide)
  revert haddress
  decide

end MPEPacket

end TSDuck
