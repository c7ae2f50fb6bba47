import TSDuck.Mpeg.BitFields
import TSDuck.Psi.Section

/-!
# Setting the attributes of a section

The table id extension and the version are in the header of a long section, which is written in
place. The CRC32 of the section is computed again on request.
-/

namespace TSDuck

namespace Section

def write (sect : Section) (offset : ℕ) (value : ByteBlock)
    (hoffset : shortSectionHeaderSize ≤ offset) : Section :=
  { sect with
    content := writeBytes sect.content offset value
    bytes := sect.bytes.congr (length_writeBytes _ _ _)
      (byteAt_writeBytes_of_lt _ (by unfold shortSectionHeaderSize at hoffset; omega) _)
      (byteAt_writeBytes_of_lt _ (by unfold shortSectionHeaderSize at hoffset; omega) _) }

/-- Sets the table id extension of a long section. -/
def setTableIdExtension (sect : Section) (tidExt : ℕ) : Section :=
  if sect.isLongSection then sect.write 3 (putUInt16 tidExt) (by decide) else sect

def recomputed (sect : Section) (recomputeCrc : Bool) : Section :=
  if recomputeCrc then sect.recomputeCRC else sect

def setVersion (sect : Section) (version : UInt8) (recomputeCrc : Bool) : Section :=
  sect.setHeaderByte 5
    ((byteAt sect.content 5 &&& 0xC1) ||| ((version &&& (0x1F : UInt8)) <<< (1 : UInt8))) recomputeCrc (by decide)

def setSourcePID (sect : Section) (pid : ℕ) : Section :=
  { sect with sourcePid := pid }

theorem getUInt16_write {data : ByteBlock} {offset other value : ℕ}
    (hapart : other + 2 ≤ offset ∨ offset + 2 ≤ other) :
    getUInt16 (writeBytes data offset (putUInt16 value)) other = getUInt16 data other := by
  rcases hapart with hbefore | hafter
  · exact getUInt16_congr (byteAt_writeBytes_of_lt _ (by omega) _)
      (byteAt_writeBytes_of_lt _ (by omega) _)
  · exact getUInt16_congr (byteAt_writeBytes_of_le _ hafter)
      (byteAt_writeBytes_of_le _ (hafter.trans (Nat.le_succ _)))

theorem byteAt_write {data : ByteBlock} {offset other value : ℕ}
    (hapart : other < offset ∨ offset + 2 ≤ other) :
    byteAt (writeBytes data offset (putUInt16 value)) other = byteAt data other := by
  rcases hapart with hbefore | hafter
  · exact byteAt_writeBytes_of_lt _ hbefore _
  · exact byteAt_writeBytes_of_le _ hafter

theorem isLongSection_write (sect : Section) (offset : ℕ) (value : ByteBlock)
    (hoffset : shortSectionHeaderSize ≤ offset) :
    (sect.write offset value hoffset).isLongSection = sect.isLongSection := by
  unfold Section.isLongSection hasLongHeader
  show (byteAt (writeBytes sect.content offset value) 1 &&& _ != 0) = _
  rw [byteAt_writeBytes_of_lt _ (by unfold shortSectionHeaderSize at hoffset; omega)]

theorem crcMatches_recomputeCRC {sect : Section} (hlong : sect.isLongSection = true) :
    crcMatches sect.recomputeCRC.content = true := by
  have hsize : sectionCrc32Size ≤ sect.content.length :=
    (Nat.le_add_left _ _).trans (sect.bytes.long_le hlong)
  have htake : (sect.content.take (sect.content.length - sectionCrc32Size)).length =
      sect.content.length - sectionCrc32Size := by
    rw [List.length_take]
    omega
  unfold crcMatches
  rw [Section.content_recomputeCRC hlong, Section.length_withCrc32 hsize, beq_iff_eq,
    Section.withCrc32, List.take_left' htake]
  have hread := getUInt32_putUInt32_append
    (sect.content.take (sect.content.length - sectionCrc32Size))
    (crc32 (sect.content.take (sect.content.length - sectionCrc32Size))).toNat_lt
  rw [htake] at hread
  exact hread.symm

end Section

end TSDuck
