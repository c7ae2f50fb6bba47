import TSDuck.Mpeg.BitFields
import TSDuck.Psi.TableAssembly
import Mathlib.Data.List.Forall2
import Mathlib.Data.List.Induction

/-!
# Building long sections from their payload

The tables are serialized as long sections: a header with the identity of the table, the number of
the section and the number of the last one, the payload, and the CRC32. `LongHeader` is what the
sections of a table share.
-/

namespace TSDuck

def maxPsiLongSectionPayloadSize : ℕ := 1024 - longSectionHeaderSize - sectionCrc32Size

namespace Section

def isCurrent (sect : Section) : Bool :=
  if sect.isLongSection then (byteAt sect.content 5 &&& 0x01) != 0 else false

def isPrivateSection (sect : Section) : Bool :=
  (byteAt sect.content 1 &&& 0x40) != 0

def payloadSize (sect : Section) : ℕ :=
  sect.size - if sect.isLongSection then longSectionHeaderSize + sectionCrc32Size
    else shortSectionHeaderSize

def payload (sect : Section) : ByteBlock :=
  (sect.content.drop sect.headerSize).take sect.payloadSize

end Section

/-- What the long sections of a table have in common. -/
structure LongHeader where
  tableId : UInt8
  isPrivateSection : Bool
  tableIdExtension : Uint16
  version : UInt8
  isCurrent : Bool
  deriving DecidableEq

namespace LongHeader

variable (header : LongHeader) (number last : UInt8) (payload : ByteBlock)

/-- Two indicators, two reserved bits and the length. -/
def lengthWord : ℕ :=
  0x8000 ||| (if header.isPrivateSection then 0x4000 else 0) ||| 0x3000 |||
    ((longSectionHeaderSize - 3 + payload.length + sectionCrc32Size) &&& 0x0FFF)

def versionByte : UInt8 :=
  (0xC0 : UInt8) ||| ((header.version &&& 0x1F) <<< 1) ||| (if header.isCurrent then 0x01 else 0x00)

def body : ByteBlock :=
  [header.tableId] ++ putUInt16 (header.lengthWord payload) ++
    putUInt16 header.tableIdExtension.val ++ [header.versionByte, number, last] ++ payload

def bytes : ByteBlock :=
  header.body number last payload ++ putUInt32 (crc32 (header.body number last payload)).toNat

theorem length_body : (header.body number last payload).length = 8 + payload.length := by
  simp [body, putUInt16]
  omega

theorem length_bytes : (header.bytes number last payload).length = 12 + payload.length := by
  rw [bytes, List.length_append, length_body, Section.length_putUInt32, sectionCrc32Size]
  omega

theorem lengthWord_eq {payload : ByteBlock} (hsize : payload.length ≤ 4084) :
    header.lengthWord payload =
      (if header.isPrivateSection then 0xF000 else 0xB000) + (9 + payload.length) := by
  have hmask : (longSectionHeaderSize - 3 + payload.length + sectionCrc32Size) &&& 0x0FFF =
      9 + payload.length := by
    rw [and_length_mask, longSectionHeaderSize, sectionCrc32Size]
    omega
  have hflags : (0x8000 ||| (if header.isPrivateSection then 0x4000 else 0) ||| 0x3000 : ℕ) =
      if header.isPrivateSection then 0xF000 else 0xB000 := by
    split_ifs <;> rfl
  rw [lengthWord, hmask, hflags, Nat.or_comm]
  split_ifs
  · exact or_high_bits 12 15 (by omega)
  · exact or_high_bits 12 11 (by omega)

theorem flags_bytes {payload : ByteBlock} (hsize : payload.length ≤ 4084) :
    hasLongHeader (header.bytes number last payload) = true ∧
      ((byteAt (header.bytes number last payload) 1 &&& 0x40) != 0) = header.isPrivateSection := by
  have hfirst : byteAt (header.bytes number last payload) 1 =
      UInt8.ofNat (header.lengthWord payload / 256) := rfl
  have hhigh : ∀ high < 16, (UInt8.ofNat (240 + high) &&& 0x80 != 0) = true ∧
      (UInt8.ofNat (240 + high) &&& 0x40 != 0) = true ∧
        (UInt8.ofNat (176 + high) &&& 0x80 != 0) = true ∧
          (UInt8.ofNat (176 + high) &&& 0x40 != 0) = false := by
    decide
  obtain ⟨hlong, hprivate, hlong', hpublic⟩ := hhigh ((9 + payload.length) / 256) (by omega)
  unfold hasLongHeader
  rw [hfirst, header.lengthWord_eq hsize]
  cases header.isPrivateSection with
  | true =>
    have hsum : (0xF000 + (9 + payload.length)) / 256 = 240 + (9 + payload.length) / 256 := by omega
    simp only [if_true]
    rw [hsum]
    exact ⟨hlong, hprivate⟩
  | false =>
    have hsum : (0xB000 + (9 + payload.length)) / 256 = 176 + (9 + payload.length) / 256 := by omega
    simp only [Bool.false_eq_true, if_false]
    rw [hsum]
    exact ⟨hlong', hpublic⟩

theorem sectionBytes {payload : ByteBlock} (hsize : payload.length ≤ 4084) :
    SectionBytes (header.bytes number last payload) := by
  have hlt : header.lengthWord payload < 65536 := by
    rw [header.lengthWord_eq hsize]
    split_ifs <;> omega
  have hword : getUInt16 (header.bytes number last payload) 1 = header.lengthWord payload :=
    getUInt16_putUInt16_append hlt
      (putUInt16 header.tableIdExtension.val ++ ([header.versionByte, number, last] ++ payload) ++
        putUInt32 (crc32 (header.body number last payload)).toNat)
  have hlength := header.length_bytes number last payload
  refine ⟨?_, ?_, fun _ ↦ ?_⟩
  · rw [hlength, announcedSize, hword, header.lengthWord_eq hsize, and_length_mask,
      shortSectionHeaderSize]
    split_ifs <;> omega
  · rw [hlength, maxPrivateSectionSize]
    omega
  · rw [hlength, minLongSectionSize, longSectionHeaderSize, sectionCrc32Size]
    omega

/-- Assumes: a payload that fits. The section with its numbers. -/
def build {payload : ByteBlock} (hsize : payload.length ≤ 4084) : Section where
  content := header.bytes number last payload
  sourcePid := pidNull
  firstPkt := 0
  lastPkt := 0
  bytes := header.sectionBytes number last hsize

section Accessors

variable {payload} (hsize : payload.length ≤ 4084)

@[simp] theorem tableId_build : (header.build number last hsize).tableId = header.tableId :=
  rfl

@[simp] theorem isLongSection_build : (header.build number last hsize).isLongSection = true :=
  (header.flags_bytes number last hsize).1

@[simp] theorem isPrivateSection_build :
    (header.build number last hsize).isPrivateSection = header.isPrivateSection :=
  (header.flags_bytes number last hsize).2

@[simp] theorem tableIdExtension_build :
    (header.build number last hsize).tableIdExtension = header.tableIdExtension.val := by
  unfold Section.tableIdExtension
  rw [if_pos (header.isLongSection_build number last hsize)]
  exact getUInt16_putUInt16_append header.tableIdExtension.isLt
    ([header.versionByte, number, last] ++ payload ++
      putUInt32 (crc32 (header.body number last payload)).toNat)

@[simp] theorem sectionNumber_build :
    (header.build number last hsize).sectionNumber = number.toNat := by
  unfold Section.sectionNumber
  rw [if_pos (header.isLongSection_build number last hsize)]
  rfl

@[simp] theorem lastSectionNumber_build :
    (header.build number last hsize).lastSectionNumber = last.toNat := by
  unfold Section.lastSectionNumber
  rw [if_pos (header.isLongSection_build number last hsize)]
  rfl

theorem versionByte_fields (hversion : header.version ≤ 31) :
    ((header.versionByte >>> 1) &&& 0x1F) = header.version ∧
      (header.versionByte &&& 0x01 != 0) = header.isCurrent := by
  have hall : ∀ version : Fin 32, ∀ current : Bool,
      ((((0xC0 : UInt8) ||| ((UInt8.ofNat version &&& 0x1F) <<< 1) |||
          (if current then 0x01 else 0x00)) >>> 1) &&& 0x1F) = UInt8.ofNat version ∧
        ((((0xC0 : UInt8) ||| ((UInt8.ofNat version &&& 0x1F) <<< 1) |||
          (if current then 0x01 else 0x00)) &&& 0x01) != 0) = current := by
    decide
  have hsmall : header.version.toNat < 32 := by
    have hle := UInt8.le_iff_toNat_le.mp hversion
    exact Nat.lt_succ_of_le hle
  have hsame : UInt8.ofNat header.version.toNat = header.version := UInt8.ofNat_toNat
  have hfields := hall ⟨header.version.toNat, hsmall⟩ header.isCurrent
  simp only [hsame] at hfields
  exact hfields

theorem version_build (hversion : header.version ≤ 31) :
    (header.build number last hsize).version = header.version := by
  unfold Section.version
  rw [if_pos (header.isLongSection_build number last hsize)]
  exact (header.versionByte_fields hversion).1

theorem isCurrent_build (hversion : header.version ≤ 31) :
    (header.build number last hsize).isCurrent = header.isCurrent := by
  unfold Section.isCurrent
  rw [if_pos (header.isLongSection_build number last hsize)]
  exact (header.versionByte_fields hversion).2

@[simp] theorem payloadSize_build :
    (header.build number last hsize).payloadSize = payload.length := by
  unfold Section.payloadSize
  rw [if_pos (header.isLongSection_build number last hsize)]
  show (header.bytes number last payload).length - _ = _
  rw [header.length_bytes, longSectionHeaderSize, sectionCrc32Size]
  omega

@[simp] theorem payload_build : (header.build number last hsize).payload = payload := by
  have hheader : (header.build number last hsize).headerSize = 8 := by
    unfold Section.headerSize
    rw [if_pos (header.isLongSection_build number last hsize)]
    rfl
  unfold Section.payload
  rw [header.payloadSize_build, hheader]
  exact List.take_left

theorem setLastSectionNumber_build (num : ℕ) :
    (header.build number last hsize).setLastSectionNumber num true =
      header.build number (UInt8.ofNat num) hsize := by
  have hbody : (header.bytes number last payload).set 7 (UInt8.ofNat num) =
      header.body number (UInt8.ofNat num) payload ++
        putUInt32 (crc32 (header.body number last payload)).toNat := rfl
  have hlong : ((header.build number last hsize).setByte 7 (UInt8.ofNat num)
      (by decide)).isLongSection = true := by
    unfold Section.isLongSection hasLongHeader
    show (byteAt ((header.bytes number last payload).set 7 _) 1 &&& 0x80 != 0) = true
    rw [byteAt_set_of_ne _ (by decide)]
    exact (header.flags_bytes number last hsize).1
  have hcontent : Section.withCrc32 ((header.bytes number last payload).set 7 (UInt8.ofNat num)) =
      header.bytes number (UInt8.ofNat num) payload := by
    have hlength : ((header.bytes number last payload).set 7 (UInt8.ofNat num)).length -
        sectionCrc32Size = (header.body number (UInt8.ofNat num) payload).length := by
      rw [List.length_set, header.length_bytes, header.length_body, sectionCrc32Size]
      omega
    rw [Section.withCrc32, hlength, hbody, List.take_left]
    rfl
  have hsetter : (header.build number last hsize).setLastSectionNumber num true =
      ((header.build number last hsize).setByte 7 (UInt8.ofNat num) (by decide)).recomputeCRC := by
    unfold Section.setLastSectionNumber Section.setHeaderByte
    rw [if_pos (header.isLongSection_build number last hsize), if_pos rfl]
  rw [hsetter]
  unfold Section.recomputeCRC
  rw [dif_pos hlong]
  unfold build
  rw [Section.mk.injEq]
  exact ⟨hcontent, rfl, rfl, rfl⟩

end Accessors

end LongHeader

def Section.ofLongPayload (header : LongHeader) (number last : UInt8) (payload : ByteBlock) :
    Option Section :=
  if h : number ≤ last ∧ header.version ≤ 31 ∧
      longSectionHeaderSize + payload.length + sectionCrc32Size ≤ maxPrivateSectionSize then
    some (header.build number last (show payload.length ≤ 4084 by
      unfold longSectionHeaderSize sectionCrc32Size maxPrivateSectionSize at h
      omega))
  else none

theorem Section.ofLongPayload_eq_build {header : LongHeader} (hversion : header.version ≤ 31)
    {number last : UInt8} (hnumber : number ≤ last) {payload : ByteBlock}
    (hsize : payload.length ≤ 4084) :
    ofLongPayload header number last payload = some (header.build number last hsize) :=
  dif_pos ⟨hnumber, hversion, by
    unfold longSectionHeaderSize sectionCrc32Size maxPrivateSectionSize
    omega⟩

theorem Section.ofLongPayload_eq_none {header : LongHeader} (hversion : ¬ header.version ≤ 31)
    (number last : UInt8) (payload : ByteBlock) :
    ofLongPayload header number last payload = none :=
  dif_neg fun h ↦ hversion h.2.1

namespace BinaryTable

/-- Adds a section whose number is the last one. -/
def addPayload (header : LongHeader) (table : BinaryTable) (number : ℕ) (payload : ByteBlock) :
    BinaryTable :=
  (table.addSection
    (Section.ofLongPayload header (UInt8.ofNat number) (UInt8.ofNat number) payload) true true).2

/-- The table made by adding payloads one by one. -/
def payloadTable (header : LongHeader) : List ByteBlock → BinaryTable :=
  List.foldl (fun table (entry : ByteBlock × ℕ) ↦ addPayload header table entry.2 entry.1) empty ∘
    List.zipIdx

def ofPayloads (header : LongHeader) (payloads : List ByteBlock) : BinaryTable :=
  { isValid := true
    tableId := header.tableId
    tableIdExtension := header.tableIdExtension.val
    version := header.version
    sourcePid := pidNull
    missingCount := 0
    sections := payloads.mapIdx fun index payload ↦
      Section.ofLongPayload header (UInt8.ofNat index) (UInt8.ofNat (payloads.length - 1)) payload }

variable {header : LongHeader}

theorem payloadTable_concat (header : LongHeader) (payloads : List ByteBlock)
    (payload : ByteBlock) :
    payloadTable header (payloads ++ [payload]) =
      addPayload header (payloadTable header payloads) payloads.length payload := by
  simp [payloadTable, List.zipIdx_append]

@[simp] theorem payloadTable_nil (header : LongHeader) : payloadTable header [] = empty :=
  rfl

theorem payloadTable_of_version (hversion : ¬ header.version ≤ 31) (payloads : List ByteBlock) :
    payloadTable header payloads = empty := by
  induction payloads using List.reverseRecOn with
  | nil => rfl
  | append_singleton before payload ih =>
    rw [payloadTable_concat, ih, addPayload, Section.ofLongPayload_eq_none hversion]
    rfl

theorem ofNat_le_ofNat {first second : ℕ} (hle : first ≤ second) (hsecond : second < 256) :
    UInt8.ofNat first ≤ UInt8.ofNat second := by
  rw [UInt8.le_iff_toNat_le, UInt8.toNat_ofNat', UInt8.toNat_ofNat']
  omega

@[simp] theorem length_sections_ofPayloads (header : LongHeader) (payloads : List ByteBlock) :
    (ofPayloads header payloads).sections.length = payloads.length :=
  List.length_mapIdx

section Growth

variable (hversion : header.version ≤ 31) {payloads : List ByteBlock}
  (hsizes : ∀ payload ∈ payloads, payload.length ≤ 4084)

include hversion hsizes

theorem getElem?_ofPayloads {index : ℕ} {payload : ByteBlock}
    (hpayload : payloads[index]? = some payload) (hcount : payloads.length ≤ 256) :
    ∃ hsize : payload.length ≤ 4084, (ofPayloads header payloads).sections[index]? =
      some (some (header.build (UInt8.ofNat index) (UInt8.ofNat (payloads.length - 1)) hsize)) := by
  obtain ⟨hindex, -⟩ := List.getElem?_eq_some_iff.mp hpayload
  refine ⟨hsizes payload (List.mem_of_getElem? hpayload), ?_⟩
  show (payloads.mapIdx _)[index]? = _
  rw [List.getElem?_mapIdx, hpayload, Option.map_some,
    Section.ofLongPayload_eq_build hversion (ofNat_le_ofNat (by omega) (by omega))]

theorem growTo_ofPayloads (hcount : payloads.length < 256) (hnonempty : payloads ≠ []) :
    (ofPayloads header payloads).growTo payloads.length = { ofPayloads header payloads with
        missingCount := 1
        sections := (payloads.mapIdx fun index payload ↦
            Section.ofLongPayload header (UInt8.ofNat index) (UInt8.ofNat payloads.length) payload) ++
          [none] } := by
  have hpositive := List.length_pos_iff.mpr hnonempty
  have hmap : (ofPayloads header payloads).sections.map
      (Option.map (·.setLastSectionNumber payloads.length true)) =
        payloads.mapIdx fun index payload ↦
          Section.ofLongPayload header (UInt8.ofNat index) (UInt8.ofNat payloads.length) payload := by
    apply List.ext_getElem?
    intro index
    rw [List.getElem?_map, List.getElem?_mapIdx]
    cases hpayload : payloads[index]? with
    | none =>
      rw [List.getElem?_eq_none_iff] at hpayload
      rw [List.getElem?_eq_none (by rw [length_sections_ofPayloads]; exact hpayload)]
      rfl
    | some payload =>
      obtain ⟨hsize, hsection⟩ := getElem?_ofPayloads hversion hsizes hpayload (by omega)
      obtain ⟨hindex, -⟩ := List.getElem?_eq_some_iff.mp hpayload
      rw [hsection, Option.map_some, Option.map_some, Option.map_some,
        header.setLastSectionNumber_build, Section.ofLongPayload_eq_build hversion
          (ofNat_le_ofNat (by omega) (by omega)) hsize]
  unfold growTo
  rw [hmap, length_sections_ofPayloads, Nat.add_sub_cancel_left]
  simp only [List.replicate_one, BinaryTable.mk.injEq, and_true, true_and]
  show (0 : ℤ) + _ = 1
  omega

theorem addPayload_ofPayloads (hcount : payloads.length < 256) (hnonempty : payloads ≠ [])
    {payload : ByteBlock} (hsize : payload.length ≤ 4084) :
    addPayload header (ofPayloads header payloads) payloads.length payload =
      ofPayloads header (payloads ++ [payload]) := by
  have hpositive := List.length_pos_iff.mpr hnonempty
  have hbyte : (UInt8.ofNat payloads.length).toNat = payloads.length := by
    rw [UInt8.toNat_ofNat']
    omega
  have hsame : (ofPayloads header payloads).SameTable
      (header.build (UInt8.ofNat payloads.length) (UInt8.ofNat payloads.length) hsize) :=
    ⟨rfl, header.tableIdExtension_build _ _ hsize, header.version_build _ _ hsize hversion⟩
  unfold addPayload
  rw [Section.ofLongPayload_eq_build hversion UInt8.le_rfl hsize]
  simp only [addSection, length_sections_ofPayloads, LongHeader.sectionNumber_build,
    LongHeader.lastSectionNumber_build, hbyte, not_not.mpr hsame, if_false, Bool.true_eq_false,
    false_and]
  rw [if_neg (by omega), if_pos (by omega), if_neg (by omega),
    growTo_ofPayloads hversion hsizes hcount hnonempty]
  have hslots : ∀ slots : List (Option Section), slots.length = payloads.length →
      (slots ++ [none]).getD payloads.length none = none ∧ ∀ sect : Section,
        (slots ++ [none]).set payloads.length (some sect) = slots ++ [some sect] := by
    intro slots hlength
    rw [← hlength]
    refine ⟨?_, fun sect ↦ ?_⟩
    · rw [List.getD_append_right _ _ _ _ le_rfl, Nat.sub_self]
      rfl
    · rw [List.set_append_right _ _ le_rfl, Nat.sub_self]
      rfl
  obtain ⟨hempty, hset⟩ := hslots _ (List.length_mapIdx (l := payloads)
    (f := fun index payload ↦ Section.ofLongPayload header (UInt8.ofNat index)
      (UInt8.ofNat payloads.length) payload))
  unfold fillSlot
  rw [if_pos hempty, hset]
  simp only [ofPayloads, List.mapIdx_concat, List.length_append, List.length_singleton,
    Nat.add_sub_cancel, BinaryTable.mk.injEq, true_and]
  rw [Section.ofLongPayload_eq_build hversion UInt8.le_rfl hsize]
  exact ⟨rfl, rfl, rfl⟩

end Growth

theorem addPayload_empty (hversion : header.version ≤ 31) {payload : ByteBlock}
    (hsize : payload.length ≤ 4084) :
    addPayload header empty 0 payload = ofPayloads header [payload] := by
  have hbuilt := Section.ofLongPayload_eq_build hversion (UInt8.le_rfl (a := UInt8.ofNat 0)) hsize
  have horder : InOrder (header.build (UInt8.ofNat 0) (UInt8.ofNat 0) hsize) 1
      [header.build (UInt8.ofNat 0) (UInt8.ofNat 0) hsize] := by
    intro index sect hsect
    obtain ⟨hindex, hget⟩ := List.getElem?_eq_some_iff.mp hsect
    have hzero : index = 0 := by simpa using hindex
    subst hzero
    obtain rfl : header.build (UInt8.ofNat 0) (UInt8.ofNat 0) hsize = sect := hget
    refine ⟨rfl, rfl, rfl, ?_, ?_⟩
    · exact header.sectionNumber_build _ _ hsize
    · rw [header.lastSectionNumber_build]
      rfl
  unfold addPayload
  rw [hbuilt, addSection_empty_inOrder horder]
  simp only [filledWith, ofPayloads, List.mapIdx_cons, List.mapIdx_nil, List.length_singleton,
    Nat.sub_self, List.replicate_zero, List.append_nil, List.map_cons, List.map_nil,
    BinaryTable.mk.injEq, hbuilt, header.tableIdExtension_build, header.version_build _ _ hsize
    hversion, header.tableId_build, true_and, and_true]
  exact ⟨rfl, rfl, rfl⟩

theorem payloadTable_eq_ofPayloads (hversion : header.version ≤ 31) {payloads : List ByteBlock}
    (hsizes : ∀ payload ∈ payloads, payload.length ≤ 4084) (hcount : payloads.length ≤ 256)
    (hnonempty : payloads ≠ []) : payloadTable header payloads = ofPayloads header payloads := by
  induction payloads using List.reverseRecOn with
  | nil => exact absurd rfl hnonempty
  | append_singleton before payload ih =>
    have hsize := hsizes payload (List.mem_append_right _ (List.mem_singleton.mpr rfl))
    have hbefore : ∀ other ∈ before, other.length ≤ 4084 :=
      fun other hother ↦ hsizes other (List.mem_append_left _ hother)
    rw [List.length_append, List.length_singleton] at hcount
    rw [payloadTable_concat]
    by_cases hfirst : before = []
    · subst hfirst
      exact addPayload_empty hversion hsize
    · rw [ih hbefore (by omega) hfirst]
      exact addPayload_ofPayloads hversion hbefore (by omega) hfirst hsize

/-! ### Tables with too many sections -/

theorem addPayload_full (hversion : header.version ≤ 31) {payloads : List ByteBlock}
    (hsizes : ∀ payload ∈ payloads, payload.length ≤ 4084) (hcount : payloads.length = 256)
    (number : ℕ) {payload : ByteBlock} (hsize : payload.length ≤ 4084) :
    addPayload header (ofPayloads header payloads) number payload =
      ofPayloads header (payloads.set (number % 256) payload) := by
  have hnumber : (UInt8.ofNat number).toNat = number % 256 := UInt8.toNat_ofNat'
  have hindex : number % 256 < 256 := Nat.mod_lt _ (by decide)
  have hbytes : UInt8.ofNat (number % 256) = UInt8.ofNat number := by
    rw [← hnumber, UInt8.ofNat_toNat]
  have hsame : (ofPayloads header payloads).SameTable
      (header.build (UInt8.ofNat number) (UInt8.ofNat number) hsize) :=
    ⟨rfl, header.tableIdExtension_build _ _ hsize, header.version_build _ _ hsize hversion⟩
  have hle : UInt8.ofNat number ≤ UInt8.ofNat 255 := by
    rw [UInt8.le_iff_toNat_le, hnumber]
    exact Nat.le_of_lt_succ hindex
  have hslot : number % 256 < payloads.length := by
    rw [hcount]
    exact hindex
  obtain ⟨hold, hfilled⟩ := getElem?_ofPayloads hversion hsizes
    (List.getElem?_eq_getElem hslot) hcount.le
  have hset : (ofPayloads header payloads).sections.set (number % 256)
      (some (header.build (UInt8.ofNat number) (UInt8.ofNat 255) hsize)) =
        (ofPayloads header (payloads.set (number % 256) payload)).sections := by
    apply List.ext_getElem?
    intro index
    show _ = ((payloads.set (number % 256) payload).mapIdx _)[index]?
    rw [List.getElem?_set, length_sections_ofPayloads, List.getElem?_mapIdx, List.getElem?_set,
      List.length_set, hcount]
    by_cases hhere : number % 256 = index
    · subst hhere
      rw [if_pos rfl, if_pos rfl, if_pos hindex, if_pos hindex, Option.map_some, hbytes,
        Section.ofLongPayload_eq_build hversion hle hsize]
    · rw [if_neg hhere, if_neg hhere]
      show (payloads.mapIdx _)[index]? = _
      rw [List.getElem?_mapIdx, hcount]
  have hfill : (ofPayloads header payloads).fillSlot (number % 256)
      (header.build (UInt8.ofNat number) (UInt8.ofNat 255) hsize) true =
        (true, ofPayloads header (payloads.set (number % 256) payload)) := by
    unfold fillSlot
    rw [List.getD_eq_getElem?_getD, hfilled, Option.getD_some, if_neg (Option.some_ne_none _),
      if_neg (by decide), hset]
    rfl
  unfold addPayload
  rw [Section.ofLongPayload_eq_build hversion UInt8.le_rfl hsize]
  simp only [addSection, length_sections_ofPayloads, LongHeader.sectionNumber_build,
    LongHeader.lastSectionNumber_build, hnumber, not_not.mpr hsame, if_false, Bool.true_eq_false,
    false_and, hcount, LongHeader.setLastSectionNumber_build]
  rw [if_neg (by decide)]
  by_cases hlast : number % 256 = 255
  · have hlastByte : UInt8.ofNat 255 = UInt8.ofNat number := by
      rw [← hbytes, hlast]
    rw [hlastByte] at hfill
    rw [if_neg (by omega), hfill]
  · rw [if_pos (by omega), if_pos (by omega), hfill]

theorem exists_position {count slot : ℕ} (hcount : 256 ≤ count) (hslot : slot < 256) :
    ∃ index, index < count ∧ count ≤ index + 256 ∧ index % 256 = slot :=
  ⟨slot + 256 * ((count - 1 - slot) / 256), by omega, by omega, by omega⟩

theorem exists_position_of_mem {payloads kept : List ByteBlock} (hkept : kept.length = 256)
    (hcount : 256 ≤ payloads.length)
    (hslots : ∀ index, index < payloads.length → payloads.length ≤ index + 256 →
      kept[index % 256]? = payloads[index]?) {payload : ByteBlock} (hmem : payload ∈ kept) :
    ∃ index, payloads.length ≤ index + 256 ∧ payloads[index]? = some payload := by
  obtain ⟨slot, hslot⟩ := List.getElem?_of_mem hmem
  have hlt : slot < 256 := by
    rw [← hkept]
    exact (List.getElem?_eq_some_iff.mp hslot).1
  obtain ⟨index, hindex, hlast, rfl⟩ := exists_position hcount hlt
  rw [hslots index hindex hlast] at hslot
  exact ⟨index, hlast, hslot⟩

theorem payloadTable_wrapped (hversion : header.version ≤ 31) {payloads : List ByteBlock}
    (hsizes : ∀ payload ∈ payloads, payload.length ≤ 4084) (hcount : 256 ≤ payloads.length) :
    ∃ kept : List ByteBlock, kept.length = 256 ∧
      payloadTable header payloads = ofPayloads header kept ∧
        ∀ index, index < payloads.length → payloads.length ≤ index + 256 →
          kept[index % 256]? = payloads[index]? := by
  induction payloads using List.reverseRecOn with
  | nil => exact absurd hcount (by decide)
  | append_singleton before payload ih =>
    have hsize := hsizes payload (List.mem_append_right _ (List.mem_singleton.mpr rfl))
    have hbefore : ∀ other ∈ before, other.length ≤ 4084 :=
      fun other hother ↦ hsizes other (List.mem_append_left _ hother)
    rw [List.length_append, List.length_singleton] at hcount ⊢
    by_cases hfull : before.length + 1 = 256
    · refine ⟨before ++ [payload], ?_, ?_, ?_⟩
      · rw [List.length_append, List.length_singleton, hfull]
      · apply payloadTable_eq_ofPayloads hversion hsizes
        · rw [List.length_append, List.length_singleton, hfull]
        · exact List.append_ne_nil_of_right_ne_nil _ (List.cons_ne_nil _ _)
      · intro index hindex _
        rw [Nat.mod_eq_of_lt (by omega)]
    · obtain ⟨kept, hkept, htable, hslots⟩ := ih hbefore (by omega)
      have hkeptSizes : ∀ other ∈ kept, other.length ≤ 4084 := by
        intro other hother
        obtain ⟨index, -, hindex⟩ := exists_position_of_mem hkept (by omega) hslots hother
        exact hbefore other (List.mem_of_getElem? hindex)
      refine ⟨kept.set (before.length % 256) payload, ?_, ?_, ?_⟩
      · rw [List.length_set, hkept]
      · rw [payloadTable_concat, htable]
        exact addPayload_full hversion hkeptSizes hkept _ hsize
      · intro index hindex hlast
        by_cases hnew : index = before.length
        · subst hnew
          rw [List.getElem?_set_self (by omega), List.getElem?_concat_length]
        · rw [List.getElem?_set_ne (by omega), hslots index (by omega) (by omega),
            List.getElem?_append_left (by omega)]

/-! ### Reading the sections of a table -/

def allSections (table : BinaryTable) : List Section :=
  table.sections.filterMap id

theorem allSections_ofPayloads (hversion : header.version ≤ 31) (payloads : List ByteBlock)
    (hsizes : ∀ payload ∈ payloads, payload.length ≤ 4084) (hcount : payloads.length ≤ 256) :
    List.Forall₂ (fun payload sect ↦ ∃ number last, ∃ hsize : payload.length ≤ 4084,
        sect = header.build number last hsize) payloads (ofPayloads header payloads).allSections := by
  have hslots : ∃ sections : List Section,
      (ofPayloads header payloads).sections = sections.map some := by
    apply exists_sections_eq
    intro hnone
    obtain ⟨index, hindex⟩ := List.getElem?_of_mem hnone
    have hlt : index < payloads.length := by
      rw [← length_sections_ofPayloads header payloads]
      exact (List.getElem?_eq_some_iff.mp hindex).1
    obtain ⟨hsize, hsection⟩ := getElem?_ofPayloads hversion hsizes
      (List.getElem?_eq_getElem hlt) hcount
    rw [hsection] at hindex
    simp at hindex
  obtain ⟨sections, hsections⟩ := hslots
  have hall : (ofPayloads header payloads).allSections = sections := by
    rw [allSections, hsections, List.filterMap_map, Function.id_comp, List.filterMap_some]
  have hlength : payloads.length = sections.length := by
    rw [← length_sections_ofPayloads header payloads, hsections, List.length_map]
  rw [hall, List.forall₂_iff_get]
  refine ⟨hlength, fun index hpayload hsect ↦ ?_⟩
  obtain ⟨hsize, hsection⟩ := getElem?_ofPayloads hversion hsizes
    (List.getElem?_eq_getElem hpayload) hcount
  rw [hsections, List.getElem?_map, List.getElem?_eq_getElem hsect, Option.map_some] at hsection
  exact ⟨_, _, hsize, Option.some.inj (Option.some.inj hsection)⟩

theorem allSections_addPayload_empty (hversion : header.version ≤ 31) {payload : ByteBlock}
    (hsize : payload.length ≤ 4084) :
    ∃ number last, (addPayload header empty 0 payload).allSections =
      [header.build number last hsize] := by
  rw [addPayload_empty hversion hsize]
  have hbuilt := allSections_ofPayloads hversion [payload] (by
    intro other hother
    rw [List.mem_singleton.mp hother]
    exact hsize) (Nat.le_of_ble_eq_true rfl)
  obtain ⟨sect, rest, ⟨number, last, hfits, hsect⟩, hrest, hall⟩ :=
    List.forall₂_cons_left_iff.mp hbuilt
  rw [List.forall₂_nil_left_iff.mp hrest, hsect] at hall
  exact ⟨number, last, hall⟩

theorem payload_of_mem_allSections {payloads : List ByteBlock}
    (hsizes : ∀ payload ∈ payloads, payload.length ≤ 4084) {sect : Section}
    (hsect : sect ∈ (payloadTable header payloads).allSections) :
    sect.payload ∈ payloads ∧ sect.payloadSize = sect.payload.length := by
  by_cases hversion : header.version ≤ 31
  case neg =>
    rw [payloadTable_of_version hversion] at hsect
    exact absurd hsect List.not_mem_nil
  have hsmall : ∀ kept : List ByteBlock, kept.length ≤ 256 →
      (∀ payload ∈ kept, payload ∈ payloads) → sect ∈ (ofPayloads header kept).allSections →
        sect.payload ∈ payloads ∧ sect.payloadSize = sect.payload.length := by
    intro kept hcount hkept hmem
    have hbuilt := allSections_ofPayloads hversion kept
      (fun payload hpayload ↦ hsizes payload (hkept payload hpayload)) hcount
    obtain ⟨hlength, hget⟩ := List.forall₂_iff_get.mp hbuilt
    obtain ⟨index, rfl⟩ := List.get_of_mem hmem
    have hindex : index.val < kept.length := by
      rw [hlength]
      exact index.isLt
    obtain ⟨number, last, hsize, hsect⟩ := hget index.val hindex index.isLt
    rw [Fin.eta] at hsect
    rw [hsect, header.payload_build, header.payloadSize_build]
    exact ⟨hkept _ (List.get_mem _ _), rfl⟩
  by_cases hcount : payloads.length ≤ 256
  · by_cases hnonempty : payloads = []
    · subst hnonempty
      exact absurd hsect List.not_mem_nil
    · rw [payloadTable_eq_ofPayloads hversion hsizes hcount hnonempty] at hsect
      exact hsmall payloads hcount (fun _ hpayload ↦ hpayload) hsect
  · obtain ⟨kept, hkept, htable, hslots⟩ :=
      payloadTable_wrapped hversion hsizes (by omega)
    rw [htable] at hsect
    apply hsmall kept hkept.le _ hsect
    intro payload hpayload
    obtain ⟨index, -, hindex⟩ := exists_position_of_mem hkept (by omega) hslots hpayload
    exact List.mem_of_getElem? hindex

/-- Reading the sections is making the steps of all parts. -/
theorem foldlM_ofPayloads (Result : Type → Type) [Monad Result] [LawfulMonad Result]
    {State Part : Type} (header : LongHeader) (readSection : State → Section → Result State)
    (step : State → Part → State) (Holds : State → Prop) (hversion : header.version ≤ 31)
    {parts : List Part} {encode : Part → ByteBlock}
    (hsizes : ∀ part ∈ parts, (encode part).length ≤ 4084) (hcount : parts.length ≤ 256)
    (hkeep : ∀ state part, Holds state → Holds (step state part))
    (hread : ∀ state number last part, Holds state → part ∈ parts →
      ∀ hsize : (encode part).length ≤ 4084,
        readSection state (header.build number last hsize) = pure (step state part))
    (state : State) (hholds : Holds state) :
    (ofPayloads header (parts.map encode)).allSections.foldlM readSection state =
      pure (parts.foldl step state) := by
  have hbuilt := allSections_ofPayloads hversion (parts.map encode)
    (by
      intro payload hmem
      obtain ⟨part, hpart, rfl⟩ := List.mem_map.mp hmem
      exact hsizes part hpart)
    (by
      rw [List.length_map]
      exact hcount)
  generalize (ofPayloads header (parts.map encode)).allSections = sections at hbuilt
  clear hsizes hcount
  induction parts generalizing state sections with
  | nil =>
    obtain rfl := List.forall₂_nil_left_iff.mp hbuilt
    rfl
  | cons part parts ih =>
    obtain ⟨sect, rest, ⟨number, last, hsize, rfl⟩, hrest, rfl⟩ :=
      List.forall₂_cons_left_iff.mp hbuilt
    rw [List.foldlM_cons, hread state number last part hholds List.mem_cons_self, pure_bind,
      List.foldl_cons]
    exact ih (fun state number last other hholds hother ↦
      hread state number last other hholds (List.mem_cons_of_mem _ hother))
        _ (hkeep state part hholds) rest hrest

end BinaryTable

end TSDuck
