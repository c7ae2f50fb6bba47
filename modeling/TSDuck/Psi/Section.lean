import TSDuck.Mpeg.Bytes

/-!
# MPEG sections

`Section` carries the proof that its bytes are the bytes of a section (`SectionBytes`), so an
invalid section object of the code is here the absence of a section: `Section.ofContent` gives no
section where the constructor of the code leaves its object invalid.
-/

namespace TSDuck

def pidNull : ℕ := 0x1FFF

theorem pidNull_lt : pidNull < 8192 := by decide

def shortSectionHeaderSize : ℕ := 3

def longSectionHeaderSize : ℕ := 8

def sectionCrc32Size : ℕ := 4

def maxPrivateSectionSize : ℕ := 4096

def minShortSectionSize : ℕ := shortSectionHeaderSize

def minLongSectionSize : ℕ := longSectionHeaderSize + sectionCrc32Size

def hasLongHeader (data : ByteBlock) : Bool :=
  (byteAt data 1 &&& 0x80) != 0

def announcedSize (data : ByteBlock) : ℕ :=
  shortSectionHeaderSize + (getUInt16 data 1 &&& 0x0FFF)

def versionField (data : ByteBlock) : UInt8 :=
  (byteAt data 5 >>> 1) &&& 0x1F

def crcMatches (data : ByteBlock) : Bool :=
  (crc32 (data.take (data.length - sectionCrc32Size))).toNat ==
    getUInt32 data (data.length - sectionCrc32Size)

/-- As many bytes as the header announces, within limits. -/
structure SectionBytes (data : ByteBlock) : Prop where
  length_eq : data.length = announcedSize data
  length_le : data.length ≤ maxPrivateSectionSize
  long_le : hasLongHeader data = true → minLongSectionSize ≤ data.length

theorem SectionBytes.congr {data other : ByteBlock} (hdata : SectionBytes data)
    (hlength : other.length = data.length) (hfirst : byteAt other 1 = byteAt data 1)
    (hsecond : byteAt other 2 = byteAt data 2) : SectionBytes other := by
  have hannounced : announcedSize other = announcedSize data := by
    rw [announcedSize, announcedSize, getUInt16_congr hfirst hsecond]
  have hlong : hasLongHeader other = hasLongHeader data := by
    rw [hasLongHeader, hasLongHeader, hfirst]
  refine ⟨?_, ?_, ?_⟩
  · rw [hlength, hannounced]
    exact hdata.length_eq
  · rw [hlength]
    exact hdata.length_le
  · rw [hlong, hlength]
    exact hdata.long_le

/-- A valid section, with the PID and the packets it comes from. -/
structure Section where
  content : ByteBlock
  sourcePid : ℕ
  firstPkt : ℕ
  lastPkt : ℕ
  bytes : SectionBytes content
  deriving DecidableEq

/-- What to do with the CRC32 of a section that is built from its bytes. -/
inductive CrcValidation
  | ignore
  | check
  | compute
  deriving DecidableEq

namespace Section

def tableId (sect : Section) : UInt8 :=
  byteAt sect.content 0

def isLongSection (sect : Section) : Bool :=
  hasLongHeader sect.content

def tableIdExtension (sect : Section) : ℕ :=
  if sect.isLongSection then getUInt16 sect.content 3 else 0

def version (sect : Section) : UInt8 :=
  if sect.isLongSection then versionField sect.content else 0

def sectionNumber (sect : Section) : ℕ :=
  if sect.isLongSection then (byteAt sect.content 6).toNat else 0

/-- The last section number, zero for a short section. -/
def lastSectionNumber (sect : Section) : ℕ :=
  if sect.isLongSection then (byteAt sect.content 7).toNat else 0

def size (sect : Section) : ℕ :=
  sect.content.length

theorem size_pos (sect : Section) : 0 < sect.size := by
  rw [size, sect.bytes.length_eq, announcedSize, shortSectionHeaderSize]
  omega

def headerSize (sect : Section) : ℕ :=
  if sect.isLongSection then longSectionHeaderSize else shortSectionHeaderSize

def packetCount (sect : Section) : ℕ :=
  (sect.size + 184) / 184

/-- The section is one of those which its table announces. -/
def IndexInRange (sect : Section) : Prop :=
  sect.sectionNumber ≤ sect.lastSectionNumber

instance (sect : Section) : Decidable sect.IndexInRange :=
  inferInstanceAs (Decidable (_ ≤ _))

def setByte (sect : Section) (offset : ℕ) (value : UInt8)
    (hoffset : shortSectionHeaderSize ≤ offset) : Section :=
  { sect with
    content := sect.content.set offset value
    bytes := sect.bytes.congr List.length_set
      (byteAt_set_of_ne _ (by unfold shortSectionHeaderSize at hoffset; omega) _)
      (byteAt_set_of_ne _ (by unfold shortSectionHeaderSize at hoffset; omega) _) }

def withCrc32 (data : ByteBlock) : ByteBlock :=
  data.take (data.length - sectionCrc32Size) ++
    putUInt32 (crc32 (data.take (data.length - sectionCrc32Size))).toNat

@[simp] theorem length_putUInt32 (value : ℕ) : (putUInt32 value).length = sectionCrc32Size :=
  rfl

variable {data : ByteBlock}

theorem length_withCrc32 (hsize : sectionCrc32Size ≤ data.length) :
    (withCrc32 data).length = data.length := by
  rw [withCrc32, List.length_append, List.length_take, length_putUInt32]
  omega

theorem byteAt_withCrc32 {offset : ℕ} (hoffset : offset + sectionCrc32Size < data.length) :
    byteAt (withCrc32 data) offset = byteAt data offset := by
  have hbefore : offset < (data.take (data.length - sectionCrc32Size)).length := by
    rw [List.length_take]
    omega
  rw [withCrc32, byteAt_append_left _ hbefore, byteAt_take _ (by omega)]

theorem withCrc32_of_crcMatches (hsize : sectionCrc32Size ≤ data.length)
    (hmatches : crcMatches data = true) : withCrc32 data = data := by
  unfold crcMatches at hmatches
  rw [beq_iff_eq] at hmatches
  rw [withCrc32, hmatches, putUInt32_getUInt32 (by unfold sectionCrc32Size at *; omega),
    List.take_append_drop]

def recomputeCRC (sect : Section) : Section :=
  if hlong : sect.isLongSection = true then
    { sect with
      content := withCrc32 sect.content
      bytes := by
        have hsize := sect.bytes.long_le hlong
        unfold minLongSectionSize longSectionHeaderSize at hsize
        exact sect.bytes.congr (length_withCrc32 (by omega)) (byteAt_withCrc32 (by omega))
          (byteAt_withCrc32 (by omega)) }
  else sect

/-- Replaces a header byte, and the CRC32 on request. -/
def setHeaderByte (sect : Section) (offset : ℕ) (value : UInt8) (recomputeCrc : Bool)
    (hoffset : shortSectionHeaderSize ≤ offset) : Section :=
  if sect.isLongSection then
    if recomputeCrc then (sect.setByte offset value hoffset).recomputeCRC
    else sect.setByte offset value hoffset
  else sect

def setSectionNumber (sect : Section) (num : ℕ) (recomputeCrc : Bool) : Section :=
  sect.setHeaderByte 6 (UInt8.ofNat num) recomputeCrc (by decide)

def setLastSectionNumber (sect : Section) (num : ℕ) (recomputeCrc : Bool) : Section :=
  sect.setHeaderByte 7 (UInt8.ofNat num) recomputeCrc (by decide)

def sectionSize (data : ByteBlock) : ℕ :=
  if data.length < minShortSectionSize ∨ data.length > maxPrivateSectionSize then 0
  else if announcedSize data < data.length then 0
  else announcedSize data

variable {data : ByteBlock}

theorem sectionBytes_of_sectionSize (hsize : 0 < sectionSize data ∧ sectionSize data = data.length)
    (hlong : hasLongHeader data = true → minLongSectionSize ≤ data.length) :
    SectionBytes data := by
  unfold sectionSize at hsize
  split_ifs at hsize with houtside hshort
  · exact absurd hsize.1 (lt_irrefl 0)
  · exact absurd hsize.1 (lt_irrefl 0)
  · exact ⟨hsize.2.symm, by omega, hlong⟩

def ofContent (data : ByteBlock) (sourcePid : ℕ) (crcOp : CrcValidation) : Option Section :=
  if hsize : 0 < sectionSize data ∧ sectionSize data = data.length then
    if hlong : hasLongHeader data = true then
      if hheader : minLongSectionSize ≤ data.length ∧ byteAt data 6 ≤ byteAt data 7 then
        let sect : Section :=
          ⟨data, sourcePid, 0, 0, sectionBytes_of_sectionSize hsize fun _ ↦ hheader.1⟩
        match crcOp with
        | .ignore => some sect
        | .check => if crcMatches data then some sect else none
        | .compute => some sect.recomputeCRC
      else none
    else
      some ⟨data, sourcePid, 0, 0, sectionBytes_of_sectionSize hsize fun h ↦ absurd h hlong⟩
  else none

theorem content_recomputeCRC {sect : Section} (hlong : sect.isLongSection = true) :
    sect.recomputeCRC.content = withCrc32 sect.content := by
  rw [recomputeCRC, dif_pos hlong]

theorem sourcePid_recomputeCRC (sect : Section) : sect.recomputeCRC.sourcePid = sect.sourcePid := by
  unfold recomputeCRC
  split_ifs <;> rfl

theorem ofContent_compute (sourcePid : ℕ)
    (hsize : 0 < sectionSize data ∧ sectionSize data = data.length) (hlong : hasLongHeader data = true)
    (hheader : minLongSectionSize ≤ data.length ∧ byteAt data 6 ≤ byteAt data 7) :
    ∃ sect, ofContent data sourcePid .compute = some sect ∧ sect.sourcePid = sourcePid ∧
      sect.content = withCrc32 data := by
  rw [ofContent, dif_pos hsize, dif_pos hlong, dif_pos hheader]
  exact ⟨_, rfl, sourcePid_recomputeCRC _, content_recomputeCRC hlong⟩

theorem of_ofContent_check {sourcePid : ℕ} {sect : Section}
    (hsect : ofContent data sourcePid .check = some sect) :
    sect.content = data ∧ sect.sourcePid = sourcePid ∧
      (sect.isLongSection = true → crcMatches data = true) := by
  unfold ofContent at hsect
  split_ifs at hsect with hsize hlong hheader hcrc
  · obtain rfl := Option.some.inj hsect
    exact ⟨rfl, rfl, fun _ ↦ hcrc⟩
  · obtain rfl := Option.some.inj hsect
    exact ⟨rfl, rfl, fun hstill ↦ absurd hstill hlong⟩

/-! ### What the setters keep -/

theorem byteAt_setHeaderByte {sect : Section} {offset other : ℕ} (value : UInt8)
    (recomputeCrc : Bool) (hoffset : shortSectionHeaderSize ≤ offset) (hne : offset ≠ other)
    (hheader : other < longSectionHeaderSize) :
    byteAt (sect.setHeaderByte offset value recomputeCrc hoffset).content other =
      byteAt sect.content other := by
  have hset : byteAt (sect.setByte offset value hoffset).content other =
      byteAt sect.content other :=
    byteAt_set_of_ne _ hne _
  unfold setHeaderByte
  split_ifs with hlong hcrc
  · unfold recomputeCRC
    split_ifs with hstill
    · have hsize := (sect.setByte offset value hoffset).bytes.long_le hstill
      unfold minLongSectionSize at hsize
      rw [byteAt_withCrc32 (by omega), hset]
    · exact hset
  · exact hset
  · rfl

theorem byteAt_setHeaderByte_self {sect : Section} {offset : ℕ} (value : UInt8)
    (recomputeCrc : Bool) (hoffset : shortSectionHeaderSize ≤ offset)
    (hheader : offset < longSectionHeaderSize) (hlong : sect.isLongSection = true) :
    byteAt (sect.setHeaderByte offset value recomputeCrc hoffset).content offset = value := by
  have hsize := sect.bytes.long_le hlong
  unfold minLongSectionSize at hsize
  have hset : byteAt (sect.setByte offset value hoffset).content offset = value :=
    byteAt_set_self (by omega) _
  unfold setHeaderByte
  rw [if_pos hlong]
  split_ifs with hcrc
  · unfold recomputeCRC
    split_ifs with hstill
    · have hsize' := (sect.setByte offset value hoffset).bytes.long_le hstill
      unfold minLongSectionSize at hsize'
      rw [byteAt_withCrc32 (by omega), hset]
    · exact hset
  · exact hset

section Setters

variable (sect : Section) (offset : ℕ) (value : UInt8) (recomputeCrc : Bool)
  (hoffset : shortSectionHeaderSize ≤ offset)

@[simp] theorem tableId_setHeaderByte :
    (sect.setHeaderByte offset value recomputeCrc hoffset).tableId = sect.tableId :=
  byteAt_setHeaderByte value recomputeCrc hoffset
    (by unfold shortSectionHeaderSize at hoffset; omega) (by decide)

@[simp] theorem isLongSection_setHeaderByte :
    (sect.setHeaderByte offset value recomputeCrc hoffset).isLongSection = sect.isLongSection := by
  unfold isLongSection hasLongHeader
  rw [byteAt_setHeaderByte value recomputeCrc hoffset
    (by unfold shortSectionHeaderSize at hoffset; omega) (by decide)]

theorem tableIdExtension_setHeaderByte (hafter : 5 < offset) :
    (sect.setHeaderByte offset value recomputeCrc hoffset).tableIdExtension =
      sect.tableIdExtension := by
  unfold tableIdExtension
  rw [isLongSection_setHeaderByte, getUInt16_congr
    (byteAt_setHeaderByte value recomputeCrc hoffset (by omega) (by decide))
    (byteAt_setHeaderByte value recomputeCrc hoffset (by omega) (by decide))]

theorem version_setHeaderByte (hafter : 5 < offset) :
    (sect.setHeaderByte offset value recomputeCrc hoffset).version = sect.version := by
  unfold version versionField
  rw [isLongSection_setHeaderByte,
    byteAt_setHeaderByte value recomputeCrc hoffset (by omega) (by decide)]

end Setters

@[simp] theorem tableId_setSectionNumber (sect : Section) (num : ℕ) (recomputeCrc : Bool) :
    (sect.setSectionNumber num recomputeCrc).tableId = sect.tableId :=
  tableId_setHeaderByte ..

@[simp] theorem isLongSection_setSectionNumber (sect : Section) (num : ℕ) (recomputeCrc : Bool) :
    (sect.setSectionNumber num recomputeCrc).isLongSection = sect.isLongSection :=
  isLongSection_setHeaderByte ..

@[simp] theorem tableIdExtension_setSectionNumber (sect : Section) (num : ℕ)
    (recomputeCrc : Bool) :
    (sect.setSectionNumber num recomputeCrc).tableIdExtension = sect.tableIdExtension :=
  tableIdExtension_setHeaderByte _ _ _ _ _ (by decide)

@[simp] theorem version_setSectionNumber (sect : Section) (num : ℕ) (recomputeCrc : Bool) :
    (sect.setSectionNumber num recomputeCrc).version = sect.version :=
  version_setHeaderByte _ _ _ _ _ (by decide)

@[simp] theorem tableId_setLastSectionNumber (sect : Section) (num : ℕ) (recomputeCrc : Bool) :
    (sect.setLastSectionNumber num recomputeCrc).tableId = sect.tableId :=
  tableId_setHeaderByte ..

@[simp] theorem isLongSection_setLastSectionNumber (sect : Section) (num : ℕ)
    (recomputeCrc : Bool) :
    (sect.setLastSectionNumber num recomputeCrc).isLongSection = sect.isLongSection :=
  isLongSection_setHeaderByte ..

@[simp] theorem tableIdExtension_setLastSectionNumber (sect : Section) (num : ℕ)
    (recomputeCrc : Bool) :
    (sect.setLastSectionNumber num recomputeCrc).tableIdExtension = sect.tableIdExtension :=
  tableIdExtension_setHeaderByte _ _ _ _ _ (by decide)

@[simp] theorem version_setLastSectionNumber (sect : Section) (num : ℕ) (recomputeCrc : Bool) :
    (sect.setLastSectionNumber num recomputeCrc).version = sect.version :=
  version_setHeaderByte _ _ _ _ _ (by decide)

@[simp] theorem sectionNumber_setLastSectionNumber (sect : Section) (num : ℕ)
    (recomputeCrc : Bool) :
    (sect.setLastSectionNumber num recomputeCrc).sectionNumber = sect.sectionNumber := by
  unfold sectionNumber
  rw [isLongSection_setLastSectionNumber, setLastSectionNumber,
    byteAt_setHeaderByte _ _ _ (by decide) (by decide)]

theorem sectionNumber_setSectionNumber {sect : Section} (hlong : sect.isLongSection = true)
    {num : ℕ} (hnum : num < 256) (recomputeCrc : Bool) :
    (sect.setSectionNumber num recomputeCrc).sectionNumber = num := by
  unfold sectionNumber
  rw [isLongSection_setSectionNumber, if_pos hlong, setSectionNumber,
    byteAt_setHeaderByte_self _ _ _ (by decide) hlong, UInt8.toNat_ofNat', Nat.mod_eq_of_lt hnum]

theorem lastSectionNumber_setLastSectionNumber {sect : Section}
    (hlong : sect.isLongSection = true) {num : ℕ} (hnum : num < 256) (recomputeCrc : Bool) :
    (sect.setLastSectionNumber num recomputeCrc).lastSectionNumber = num := by
  unfold lastSectionNumber
  rw [isLongSection_setLastSectionNumber, if_pos hlong, setLastSectionNumber,
    byteAt_setHeaderByte_self _ _ _ (by decide) hlong, UInt8.toNat_ofNat', Nat.mod_eq_of_lt hnum]

theorem lastSectionNumber_lt (sect : Section) : sect.lastSectionNumber < 256 := by
  unfold lastSectionNumber
  split_ifs
  · exact UInt8.toNat_lt _
  · decide

end Section

end TSDuck
