import TSDuck.Psi.Section

/-!
# Which byte strings are accepted as sections

Two readers of a section header have to agree: the constructor of a section from its full content,
and `SectionSize`, which computes the size of the section at the start of a buffer that possibly
goes on after it.

`isSome_ofContent_iff` settles the constructor: with a check of the CRC32 it accepts the acceptable
byte strings and no other. `meetsAcceptance_iff_noOtherBytes` states on which buffers this makes no
difference.
-/

namespace TSDuck

namespace Section

/-- The header is there and announces a valid size. -/
structure HeaderIsValid (data : ByteBlock) : Prop where
  header_le : minShortSectionSize ≤ data.length
  announced_le : announcedSize data ≤ maxPrivateSectionSize
  long_le : hasLongHeader data = true → minLongSectionSize ≤ announcedSize data

/-- The size, the number and the CRC32 are correct. -/
structure Acceptable (data : ByteBlock) : Prop where
  min_le : 3 ≤ data.length
  le_max : data.length ≤ 4096
  announced : (getUInt16 data 1 &&& 0x0FFF) + 3 = data.length
  long : hasLongHeader data = true →
    12 ≤ data.length ∧ byteAt data 6 ≤ byteAt data 7 ∧ crcMatches data = true

instance (data : ByteBlock) : Decidable (HeaderIsValid data) :=
  decidable_of_iff (minShortSectionSize ≤ data.length ∧ announcedSize data ≤ maxPrivateSectionSize ∧
      (hasLongHeader data = true → minLongSectionSize ≤ announcedSize data))
    ⟨fun h ↦ ⟨h.1, h.2.1, h.2.2⟩, fun h ↦ ⟨h.header_le, h.announced_le, h.long_le⟩⟩

/-- The size of the first section, zero when invalid. -/
def locatedSize (data : ByteBlock) : ℕ :=
  if HeaderIsValid data ∧ announcedSize data ≤ data.length then announcedSize data else 0

/-- The two readers of a header do what they are for on this byte string. -/
structure MeetsAcceptance (data : ByteBlock) (sourcePid : ℕ) : Prop where
  accepted_iff : (ofContent data sourcePid .check).isSome = true ↔ Acceptable data
  sectionSize_eq : sectionSize data = locatedSize data

/-- One section and no other byte, or a rejected header. -/
def NoOtherBytes (data : ByteBlock) : Prop :=
  (HeaderIsValid data ∧ data.length = announcedSize data) ∨
    (¬ HeaderIsValid data ∧ (data.length < minShortSectionSize ∨
      maxPrivateSectionSize < data.length ∨ announcedSize data < data.length))

/-- The length is the announced one. -/
theorem sectionSize_eq_length_iff (data : ByteBlock) :
    (0 < sectionSize data ∧ sectionSize data = data.length) ↔
      minShortSectionSize ≤ data.length ∧ data.length ≤ maxPrivateSectionSize ∧
        announcedSize data = data.length := by
  have hpos : 0 < announcedSize data := by
    unfold announcedSize shortSectionHeaderSize
    omega
  unfold sectionSize
  split_ifs with houtside hshort <;> omega

/-- A section is built from a byte string exactly when it is acceptable. -/
theorem isSome_ofContent_iff (data : ByteBlock) (sourcePid : ℕ) :
    (ofContent data sourcePid .check).isSome = true ↔ Acceptable data := by
  have hsizes := sectionSize_eq_length_iff data
  have hannounced : announcedSize data = (getUInt16 data 1 &&& 0x0FFF) + 3 := Nat.add_comm _ _
  unfold ofContent
  split_ifs with hsize hlong hheader hcrc
  · obtain ⟨hmin, hmax, hlength⟩ := hsizes.mp hsize
    refine iff_of_true rfl ⟨hmin, hmax, hannounced ▸ hlength, fun _ ↦ ?_⟩
    exact ⟨hheader.1, hheader.2, hcrc⟩
  · exact iff_of_false Bool.false_ne_true fun h ↦ hcrc (h.long hlong).2.2
  · refine iff_of_false Bool.false_ne_true fun h ↦ hheader ?_
    exact ⟨(h.long hlong).1, (h.long hlong).2.1⟩
  · obtain ⟨hmin, hmax, hlength⟩ := hsizes.mp hsize
    exact iff_of_true rfl ⟨hmin, hmax, hannounced ▸ hlength, fun h ↦ absurd h hlong⟩
  · refine iff_of_false Bool.false_ne_true fun h ↦ hsize (hsizes.mpr ?_)
    exact ⟨h.min_le, h.le_max, hannounced.trans h.announced⟩

/-- Nothing else is in the buffer, or the header is rejected. -/
theorem sectionSize_eq_locatedSize_iff (data : ByteBlock) :
    sectionSize data = locatedSize data ↔ NoOtherBytes data := by
  have hpos : 0 < announcedSize data := by
    unfold announcedSize shortSectionHeaderSize
    omega
  by_cases hvalid : HeaderIsValid data
  · have hheader := hvalid.header_le
    have hmax := hvalid.announced_le
    simp only [NoOtherBytes, hvalid, true_and, not_true_eq_false, false_and, or_false]
    unfold sectionSize locatedSize
    simp only [hvalid, true_and]
    split_ifs with houtside hcomplete hshort hcomplete hcomplete <;> omega
  · simp only [NoOtherBytes, hvalid, false_and, not_false_eq_true, true_and, false_or]
    unfold sectionSize locatedSize
    simp only [hvalid, false_and, if_false]
    split_ifs with houtside hshort <;> omega

/-- The constructor accepts exactly the content of a section and `SectionSize` returns its size if
and only if no other byte comes with this section, and none is missing. -/
theorem meetsAcceptance_iff_noOtherBytes (data : ByteBlock) (sourcePid : ℕ) :
    MeetsAcceptance data sourcePid ↔ NoOtherBytes data := by
  constructor
  · intro hmeets
    exact (sectionSize_eq_locatedSize_iff data).mp hmeets.sectionSize_eq
  · intro halone
    refine ⟨isSome_ofContent_iff data sourcePid, ?_⟩
    exact (sectionSize_eq_locatedSize_iff data).mpr halone

/-- A section and a stuffing byte are said to hold nothing, four bytes to hold a section of eight.
-/
theorem trailingByte_not_meetsAcceptance :
    ¬ MeetsAcceptance [0x72, 0x70, 0x00, 0xFF] 0x1FFF ∧
      ¬ MeetsAcceptance [0x72, 0x70, 0x05, 0x00] 0x1FFF := by
  constructor
  · intro hmeets
    exact absurd hmeets.sectionSize_eq (by decide)
  · intro hmeets
    exact absurd hmeets.sectionSize_eq (by decide)

end Section

end TSDuck
