import TSDuck.Psi.LongSection

/-!
# The fields of a section

The content of a section is determined by its fields, its payload and its reserved bits. A long
section with its reserved bits set and a correct CRC32 has the content which is built from its
fields (`content_eq_bytes`).
-/

namespace TSDuck

def maxPsiShortSectionPayloadSize : ℕ := 1024 - shortSectionHeaderSize

namespace Section

/-! ### Short sections -/

/-- The header of three bytes and the payload. -/
def shortBytes (tableId : UInt8) (isPrivateSection : Bool) (payload : ByteBlock) : ByteBlock :=
  [tableId] ++ putUInt16 ((if isPrivateSection then 0x4000 else 0x0000) ||| 0x3000 |||
    (payload.length &&& 0x0FFF)) ++ payload

theorem length_shortBytes (tableId : UInt8) (isPrivateSection : Bool) (payload : ByteBlock) :
    (shortBytes tableId isPrivateSection payload).length = 3 + payload.length := by
  rw [shortBytes, List.length_append]
  rfl

theorem shortWord_eq (isPrivateSection : Bool) {payload : ByteBlock}
    (hsize : payload.length ≤ 4093) :
    (if isPrivateSection then 0x4000 else 0x0000) ||| 0x3000 ||| (payload.length &&& 0x0FFF) =
      (if isPrivateSection then 0x7000 else 0x3000) + payload.length := by
  have hmask : payload.length &&& 0x0FFF = payload.length := by
    rw [and_length_mask]
    exact Nat.mod_eq_of_lt (by omega)
  rw [hmask, Nat.or_comm]
  cases isPrivateSection with
  | true => exact or_high_bits 12 7 (by omega)
  | false => exact or_high_bits 12 3 (by omega)

theorem sectionBytes_shortBytes (tableId : UInt8) (isPrivateSection : Bool) {payload : ByteBlock}
    (hsize : payload.length ≤ 4093) :
    SectionBytes (shortBytes tableId isPrivateSection payload) ∧
      hasLongHeader (shortBytes tableId isPrivateSection payload) = false := by
  have hlength := length_shortBytes tableId isPrivateSection payload
  have hword : getUInt16 (shortBytes tableId isPrivateSection payload) 1 =
      (if isPrivateSection then 0x7000 else 0x3000) + payload.length := by
    have hlt : (if isPrivateSection then 0x7000 else 0x3000) + payload.length < 65536 := by
      split_ifs <;> omega
    rw [← shortWord_eq isPrivateSection hsize] at hlt ⊢
    exact getUInt16_putUInt16_append hlt payload
  have hshort : hasLongHeader (shortBytes tableId isPrivateSection payload) = false := by
    have hall : ∀ high < 16, ((UInt8.ofNat (112 + high) &&& 0x80) != 0) = false ∧
        ((UInt8.ofNat (48 + high) &&& 0x80) != 0) = false := by
      decide
    obtain ⟨hprivate, hpublic⟩ := hall (payload.length / 256) (by omega)
    show ((UInt8.ofNat (((if isPrivateSection then 0x4000 else 0x0000) ||| 0x3000 |||
      (payload.length &&& 0x0FFF)) / 256) &&& 0x80) != 0) = false
    rw [shortWord_eq isPrivateSection hsize]
    cases isPrivateSection with
    | true =>
      have hsum : (0x7000 + payload.length) / 256 = 112 + payload.length / 256 := by omega
      simp only [if_true]
      rw [hsum]
      exact hprivate
    | false =>
      have hsum : (0x3000 + payload.length) / 256 = 48 + payload.length / 256 := by omega
      simp only [Bool.false_eq_true, if_false]
      rw [hsum]
      exact hpublic
  refine ⟨⟨?_, ?_, fun hlong ↦ ?_⟩, hshort⟩
  · rw [hlength, announcedSize, hword, and_length_mask, shortSectionHeaderSize]
    split_ifs <;> omega
  · rw [hlength, maxPrivateSectionSize]
    omega
  · rw [hshort] at hlong
    cases hlong

/-- Builds a short section, none when it is too large. -/
def ofShortPayload (tableId : UInt8) (isPrivateSection : Bool) (payload : ByteBlock) :
    Option Section :=
  if h : shortSectionHeaderSize + payload.length ≤ maxPrivateSectionSize then
    some
      { content := shortBytes tableId isPrivateSection payload
        sourcePid := pidNull
        firstPkt := 0
        lastPkt := 0
        bytes := (sectionBytes_shortBytes tableId isPrivateSection (show payload.length ≤ 4093 by
          unfold shortSectionHeaderSize maxPrivateSectionSize at h
          omega)).1 }
  else none

/-- The reserved bits of the header are set. -/
def HasReservedBits (sect : Section) : Prop :=
  byteAt sect.content 1 &&& 0x30 = 0x30 ∧
    (sect.isLongSection = true → byteAt sect.content 5 &&& 0xC0 = 0xC0)

instance (sect : Section) : Decidable sect.HasReservedBits :=
  inferInstanceAs (Decidable (_ ∧ _))

theorem cons_drop {data : ByteBlock} {offset : ℕ} (hoffset : offset < data.length) :
    data.drop offset = byteAt data offset :: data.drop (offset + 1) := by
  rw [byteAt, List.getD_eq_getElem _ _ hoffset]
  exact List.drop_eq_getElem_cons hoffset

theorem length_bytes_eq (sect : Section) (hreserved : byteAt sect.content 1 &&& 0x30 = 0x30) :
    [byteAt sect.content 1, byteAt sect.content 2] =
      putUInt16 ((if sect.isLongSection then 0x8000 else 0) +
        (if sect.isPrivateSection then 0x7000 else 0x3000) + (sect.content.length - 3)) := by
  have hall : ∀ byte : Fin 256, UInt8.ofNat byte &&& 0x30 = 0x30 →
      byte.val = (if (UInt8.ofNat byte &&& 0x80) != 0 then 128 else 0) +
        (if (UInt8.ofNat byte &&& 0x40) != 0 then 112 else 48) + byte.val % 16 := by
    decide +kernel
  have hhigh := (byteAt sect.content 1).toNat_lt
  have hlow := (byteAt sect.content 2).toNat_lt
  have hflags := hall ⟨(byteAt sect.content 1).toNat, hhigh⟩
  simp only [UInt8.ofNat_toNat] at hflags
  have hbyte := hflags hreserved
  have hlength := sect.bytes.length_eq
  rw [announcedSize, getUInt16, and_length_mask, shortSectionHeaderSize] at hlength
  rw [show 1 + 1 = 2 from rfl] at hlength
  have hlong : sect.isLongSection = ((byteAt sect.content 1 &&& 0x80) != 0) := rfl
  have hprivate : sect.isPrivateSection = ((byteAt sect.content 1 &&& 0x40) != 0) := rfl
  have hsum : (if sect.isLongSection then 0x8000 else 0) +
      (if sect.isPrivateSection then 0x7000 else 0x3000) + (sect.content.length - 3) =
        (byteAt sect.content 1).toNat * 256 + (byteAt sect.content 2).toNat := by
    rw [← hlong, ← hprivate] at hbyte
    split_ifs at hbyte ⊢ <;> omega
  rw [hsum, putUInt16]
  have hfirst : ((byteAt sect.content 1).toNat * 256 + (byteAt sect.content 2).toNat) / 256 =
      (byteAt sect.content 1).toNat := by
    omega
  rw [hfirst, UInt8.ofNat_toNat, List.cons.injEq, List.cons.injEq]
  refine ⟨rfl, ?_, rfl⟩
  apply UInt8.toNat_inj.mp
  rw [UInt8.toNat_ofNat']
  omega

theorem content_eq_cons (sect : Section) :
    sect.content = byteAt sect.content 0 ::
      ([byteAt sect.content 1, byteAt sect.content 2] ++ sect.content.drop 3) := by
  have hsize := sect.bytes.length_eq
  rw [announcedSize, shortSectionHeaderSize] at hsize
  have hfirst := cons_drop (show 0 < sect.content.length by omega)
  rw [List.drop_zero, cons_drop (show 0 + 1 < sect.content.length by omega),
    cons_drop (show 0 + 1 + 1 < sect.content.length by omega)] at hfirst
  exact hfirst

variable {sect : Section}

theorem payload_of_short (hshort : sect.isLongSection = false) :
    sect.payload = sect.content.drop 3 := by
  unfold payload headerSize payloadSize
  rw [hshort]
  simp only [Bool.false_eq_true, if_false]
  apply List.take_of_length_le
  rw [List.length_drop]
  exact le_refl _

theorem shortBytes_eq_iff (hshort : sect.isLongSection = false) :
    shortBytes sect.tableId sect.isPrivateSection sect.payload = sect.content ↔
      sect.HasReservedBits := by
  have hlength := sect.bytes.length_eq
  have hmax := sect.bytes.length_le
  rw [announcedSize, shortSectionHeaderSize] at hlength
  unfold maxPrivateSectionSize at hmax
  have hsize : sect.payload.length = sect.content.length - 3 := by
    rw [payload_of_short hshort, List.length_drop]
  have hword := shortWord_eq sect.isPrivateSection (show sect.payload.length ≤ 4093 by omega)
  constructor
  · intro hcontent
    refine ⟨?_, fun hlong ↦ absurd hlong (by rw [hshort]; decide)⟩
    have hall : ∀ high < 16, UInt8.ofNat (112 + high) &&& 0x30 = 0x30 ∧
        UInt8.ofNat (48 + high) &&& 0x30 = 0x30 := by
      decide
    obtain ⟨hprivate, hpublic⟩ := hall (sect.payload.length / 256) (by omega)
    rw [← hcontent]
    show UInt8.ofNat (((if sect.isPrivateSection then 0x4000 else 0x0000) ||| 0x3000 |||
      (sect.payload.length &&& 0x0FFF)) / 256) &&& 0x30 = 0x30
    rw [hword]
    cases sect.isPrivateSection with
    | true =>
      have hsum : (0x7000 + sect.payload.length) / 256 = 112 + sect.payload.length / 256 := by
        omega
      simp only [if_true]
      rw [hsum]
      exact hprivate
    | false =>
      have hsum : (0x3000 + sect.payload.length) / 256 = 48 + sect.payload.length / 256 := by
        omega
      simp only [Bool.false_eq_true, if_false]
      rw [hsum]
      exact hpublic
  · intro hreserved
    have hbytes := length_bytes_eq sect hreserved.1
    rw [hshort] at hbytes
    simp only [Bool.false_eq_true, if_false, Nat.zero_add] at hbytes
    rw [shortBytes, hword, hsize, ← hbytes, payload_of_short hshort]
    exact (content_eq_cons sect).symm

/-! ### Long sections -/

def longHeader (sect : Section) : LongHeader where
  tableId := sect.tableId
  isPrivateSection := sect.isPrivateSection
  tableIdExtension := getWord sect.content 3
  version := sect.version
  isCurrent := sect.isCurrent

theorem putUInt16_getWord (data : ByteBlock) (offset : ℕ) :
    putUInt16 (getWord data offset).val = [byteAt data offset, byteAt data (offset + 1)] := by
  have hhigh := (byteAt data offset).toNat_lt
  have hlow := (byteAt data (offset + 1)).toNat_lt
  show [UInt8.ofNat (((byteAt data offset).toNat * 256 + (byteAt data (offset + 1)).toNat) / 256),
    UInt8.ofNat ((byteAt data offset).toNat * 256 + (byteAt data (offset + 1)).toNat)] = _
  have hfirst : ((byteAt data offset).toNat * 256 + (byteAt data (offset + 1)).toNat) / 256 =
      (byteAt data offset).toNat := by
    omega
  rw [hfirst, UInt8.ofNat_toNat, List.cons.injEq, List.cons.injEq]
  refine ⟨rfl, ?_, rfl⟩
  apply UInt8.toNat_inj.mp
  rw [UInt8.toNat_ofNat']
  omega

theorem versionByte_longHeader (hlong : sect.isLongSection = true) (hreserved : sect.HasReservedBits) :
    sect.longHeader.versionByte = byteAt sect.content 5 := by
  have hall : ∀ byte : Fin 256, UInt8.ofNat byte &&& 0xC0 = 0xC0 →
      (0xC0 : UInt8) ||| ((((UInt8.ofNat byte >>> 1) &&& 0x1F) &&& 0x1F) <<< 1) |||
        (if (UInt8.ofNat byte &&& 0x01) != 0 then 0x01 else 0x00) = UInt8.ofNat byte := by
    decide +kernel
  have hbyte := hall ⟨(byteAt sect.content 5).toNat, (byteAt sect.content 5).toNat_lt⟩
  simp only [UInt8.ofNat_toNat] at hbyte
  have hversion : sect.version = (byteAt sect.content 5 >>> 1) &&& 0x1F := by
    unfold version
    rw [if_pos hlong]
    rfl
  have hcurrent : sect.isCurrent = ((byteAt sect.content 5 &&& 0x01) != 0) := by
    unfold isCurrent
    rw [if_pos hlong]
  unfold LongHeader.versionByte
  show (0xC0 : UInt8) ||| ((sect.version &&& 0x1F) <<< 1) |||
    (if sect.isCurrent then 0x01 else 0x00) = _
  rw [hversion, hcurrent]
  exact hbyte (hreserved.2 hlong)

theorem version_le (sect : Section) : sect.version ≤ 31 := by
  have hall : ∀ byte : Fin 256, (UInt8.ofNat byte >>> 1) &&& 0x1F ≤ 31 := by
    decide +kernel
  have hbyte := hall ⟨(byteAt sect.content 5).toNat, (byteAt sect.content 5).toNat_lt⟩
  simp only [UInt8.ofNat_toNat] at hbyte
  unfold version versionField
  split_ifs
  · exact hbyte
  · decide

theorem payload_of_long (hlong : sect.isLongSection = true) :
    sect.payload = (sect.content.drop 8).take (sect.content.length - 12) := by
  unfold payload headerSize payloadSize
  rw [hlong]
  rfl

theorem length_payload_of_long (hlong : sect.isLongSection = true) :
    sect.payload.length = sect.content.length - 12 := by
  rw [payload_of_long hlong, List.length_take, List.length_drop]
  omega

theorem content_eq_bytes (hlong : sect.isLongSection = true) (hreserved : sect.HasReservedBits)
    (hcrc : crcMatches sect.content = true) :
    sect.content = sect.longHeader.bytes (byteAt sect.content 6) (byteAt sect.content 7)
      sect.payload := by
  have hmin := sect.bytes.long_le hlong
  have hmax := sect.bytes.length_le
  unfold minLongSectionSize longSectionHeaderSize sectionCrc32Size at hmin
  unfold maxPrivateSectionSize at hmax
  have hsize := length_payload_of_long hlong
  have hword : [byteAt sect.content 1, byteAt sect.content 2] =
      putUInt16 (sect.longHeader.lengthWord sect.payload) := by
    rw [length_bytes_eq sect hreserved.1, sect.longHeader.lengthWord_eq (by omega), hlong, hsize]
    have hsum : sect.content.length - 3 = 9 + (sect.content.length - 12) := by omega
    rw [hsum, if_pos rfl]
    show putUInt16 (0x8000 + (if sect.isPrivateSection then 0x7000 else 0x3000) + _) =
      putUInt16 ((if sect.isPrivateSection then 0xF000 else 0xB000) + _)
    cases sect.isPrivateSection with
    | true => rfl
    | false => rfl
  have hheader : sect.content = byteAt sect.content 0 ::
      ([byteAt sect.content 1, byteAt sect.content 2] ++
        ([byteAt sect.content 3, byteAt sect.content 4] ++
          ([byteAt sect.content 5, byteAt sect.content 6, byteAt sect.content 7] ++
            sect.content.drop 8))) := by
    have hfirst := content_eq_cons sect
    rw [cons_drop (show 3 < sect.content.length by omega),
      cons_drop (show 3 + 1 < sect.content.length by omega),
      cons_drop (show 3 + 1 + 1 < sect.content.length by omega),
      cons_drop (show 3 + 1 + 1 + 1 < sect.content.length by omega),
      cons_drop (show 3 + 1 + 1 + 1 + 1 < sect.content.length by omega)] at hfirst
    exact hfirst
  have hbody : sect.longHeader.body (byteAt sect.content 6) (byteAt sect.content 7) sect.payload =
      sect.content.take (sect.content.length - sectionCrc32Size) := by
    have hcount : sect.content.length - sectionCrc32Size = 8 + (sect.content.length - 12) := by
      rw [sectionCrc32Size]
      omega
    unfold LongHeader.body
    rw [versionByte_longHeader hlong hreserved, ← hword]
    show [sect.tableId] ++ _ ++ putUInt16 (getWord sect.content 3).val ++ _ ++ _ = _
    rw [putUInt16_getWord, payload_of_long hlong, hcount, List.take_add]
    congr 1
    calc [sect.tableId] ++ [byteAt sect.content 1, byteAt sect.content 2] ++
          [byteAt sect.content 3, byteAt sect.content (3 + 1)] ++
            [byteAt sect.content 5, byteAt sect.content 6, byteAt sect.content 7]
        = List.take 8 (byteAt sect.content 0 ::
            ([byteAt sect.content 1, byteAt sect.content 2] ++
              ([byteAt sect.content 3, byteAt sect.content 4] ++
                ([byteAt sect.content 5, byteAt sect.content 6, byteAt sect.content 7] ++
                  sect.content.drop 8)))) := rfl
      _ = List.take 8 sect.content := by rw [← hheader]
  have hcrcSize : sectionCrc32Size ≤ sect.content.length := by
    rw [sectionCrc32Size]
    omega
  unfold LongHeader.bytes
  rw [hbody]
  exact (withCrc32_of_crcMatches hcrcSize hcrc).symm

end Section

end TSDuck
