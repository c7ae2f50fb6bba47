import TSDuck.Psi.BinaryTable
import TSDuck.Psi.SectionSetters
import Mathlib.Data.List.Forall2
import Mathlib.Tactic.IntervalCases

/-!
# Setting the attributes of a table

`setTableIdExtension`, `setVersion` and `setSourcePID` set an attribute of a table and of all its
sections. They do not look whether a section is absent: on a table with an empty slot, they use a null
pointer, and this is the result `none`. `IsSetBy` is what they should do to any table, and
`isSetBy_iff` states that they do it when no slot is empty and the new version, if it goes in a long
section, has five bits.
-/

namespace TSDuck

namespace Section

/-- Replaces header bytes, and the CRC32 on request. -/
def edit (sect : Section) (offset : ℕ) (value : ByteBlock) (recomputeCrc : Bool)
    (hoffset : shortSectionHeaderSize ≤ offset) : Section :=
  if sect.isLongSection then (sect.write offset value hoffset).recomputed recomputeCrc else sect

/-- A byte of a long section is one of its CRC32. -/
def InCrc (sect : Section) (offset : ℕ) : Prop :=
  sect.isLongSection = true ∧ sect.size ≤ offset + sectionCrc32Size

instance (sect : Section) (offset : ℕ) : Decidable (sect.InCrc offset) :=
  inferInstanceAs (Decidable (_ ∧ _))

structure Edited (sect changed : Section) (offset : ℕ) (value : ByteBlock) (recomputeCrc : Bool) :
    Prop where
  size_eq : changed.size = sect.size
  sourcePid_eq : changed.sourcePid = sect.sourcePid
  firstPkt_eq : changed.firstPkt = sect.firstPkt
  lastPkt_eq : changed.lastPkt = sect.lastPkt
  others : ∀ other, ¬ (sect.isLongSection = true ∧ offset ≤ other ∧ other < offset + value.length) →
    ¬ (recomputeCrc = true ∧ sect.InCrc other) →
      byteAt changed.content other = byteAt sect.content other
  written : sect.isLongSection = true → ∀ index < value.length,
    byteAt changed.content (offset + index) = byteAt value index
  crc : recomputeCrc = true → sect.isLongSection = true → crcMatches changed.content = true

variable (sect : Section)

/-- Computing the CRC32 again changes nothing else. -/
theorem recomputed_spec (recomputeCrc : Bool) :
    (sect.recomputed recomputeCrc).size = sect.size ∧
      (sect.recomputed recomputeCrc).sourcePid = sect.sourcePid ∧
      (sect.recomputed recomputeCrc).firstPkt = sect.firstPkt ∧
      (sect.recomputed recomputeCrc).lastPkt = sect.lastPkt ∧
      (∀ other, ¬ (recomputeCrc = true ∧ sect.InCrc other) →
        byteAt (sect.recomputed recomputeCrc).content other = byteAt sect.content other) ∧
      (recomputeCrc = true → sect.isLongSection = true →
        crcMatches (sect.recomputed recomputeCrc).content = true) := by
  cases recomputeCrc with
  | false => exact ⟨rfl, rfl, rfl, rfl, fun _ _ ↦ rfl, fun h ↦ by cases h⟩
  | true =>
    by_cases hlong : sect.isLongSection = true
    · have hcontent := content_recomputeCRC hlong
      have hsize := sect.bytes.long_le hlong
      unfold minLongSectionSize at hsize
      have hsame : sect.recomputed true = sect.recomputeCRC := rfl
      have hother : sect.recomputeCRC.sourcePid = sect.sourcePid ∧
          sect.recomputeCRC.firstPkt = sect.firstPkt ∧ sect.recomputeCRC.lastPkt = sect.lastPkt := by
        rw [recomputeCRC, dif_pos hlong]
        exact ⟨rfl, rfl, rfl⟩
      rw [hsame]
      refine ⟨?_, hother.1, hother.2.1, hother.2.2, fun other hoffset ↦ ?_, fun _ _ ↦
        crcMatches_recomputeCRC hlong⟩
      · rw [size, hcontent, length_withCrc32 (by omega)]
        rfl
      · rw [hcontent, byteAt_withCrc32]
        by_contra hinside
        exact hoffset ⟨rfl, hlong, not_lt.mp hinside⟩
    · have hsame : sect.recomputed true = sect := dif_neg hlong
      rw [hsame]
      exact ⟨rfl, rfl, rfl, rfl, fun _ _ ↦ rfl, fun _ h ↦ absurd h hlong⟩

theorem edited_edit {offset : ℕ} {value : ByteBlock} (recomputeCrc : Bool)
    (hoffset : shortSectionHeaderSize ≤ offset)
    (hend : offset + value.length ≤ longSectionHeaderSize) :
    sect.Edited (sect.edit offset value recomputeCrc hoffset) offset value recomputeCrc := by
  unfold edit
  split_ifs with hlong
  · obtain ⟨hsize, hpid, hfirst, hlast, hothers, hcrc⟩ :=
      (sect.write offset value hoffset).recomputed_spec recomputeCrc
    have hwritten : (sect.write offset value hoffset).isLongSection = true := by
      rw [isLongSection_write]
      exact hlong
    have hlength : (sect.write offset value hoffset).size = sect.size := length_writeBytes _ _ _
    have hcrcEnd : ∀ other, sect.InCrc other ↔ (sect.write offset value hoffset).InCrc other := by
      intro other
      rw [InCrc, InCrc, hlength, isLongSection_write]
    have hlongSize := sect.bytes.long_le hlong
    unfold minLongSectionSize at hlongSize
    refine ⟨hsize.trans hlength, hpid, hfirst, hlast, fun other hother hnot ↦ ?_,
      fun _ index hindex ↦ ?_, fun hrequest _ ↦ hcrc hrequest hwritten⟩
    · rw [hothers other (by rwa [← hcrcEnd])]
      show byteAt (writeBytes sect.content offset value) other = _
      by_cases hbefore : other < offset
      · exact byteAt_writeBytes_of_lt _ hbefore _
      · refine byteAt_writeBytes_of_le _ ?_
        by_contra hinside
        exact hother ⟨hlong, not_lt.mp hbefore, not_le.mp hinside⟩
    · rw [hothers]
      · exact byteAt_writeBytes hindex (by omega)
      · rintro ⟨-, -, hlate⟩
        rw [hlength, size] at hlate
        omega
  · exact ⟨rfl, rfl, rfl, rfl, fun _ _ _ ↦ rfl, fun h ↦ absurd h hlong, fun _ h ↦ absurd h hlong⟩

end Section

namespace BinaryTable

/-- Changes all sections, `none` when one is absent. -/
def changeAll (change : Section → Section) : List (Option Section) → Option (List (Option Section))
  | [] => some []
  | none :: _ => none
  | some sect :: rest => (changeAll change rest).map (some (change sect) :: ·)

def setTableIdExtension (table : BinaryTable) (tidExt : UInt16) (recomputeCrc : Bool) :
    Option BinaryTable :=
  (changeAll (fun sect ↦ (sect.setTableIdExtension tidExt.toNat).recomputed recomputeCrc)
    table.sections).map fun sections ↦
      { table with tableIdExtension := tidExt.toNat, sections }

def setVersion (table : BinaryTable) (version : UInt8) (recomputeCrc : Bool) : Option BinaryTable :=
  (changeAll (·.setVersion version recomputeCrc) table.sections).map fun sections ↦
    { table with version, sections }

def setSourcePID (table : BinaryTable) (pid : ℕ) : Option BinaryTable :=
  (changeAll (·.setSourcePID pid) table.sections).map fun sections ↦
    { table with sourcePid := pid, sections }

/-- A new value, and whether the CRC32 is computed. -/
inductive Setting
  | tableIdExtension (tidExt : UInt16) (recomputeCrc : Bool)
  | version (value : UInt8) (recomputeCrc : Bool)
  | sourcePID (pid : ℕ)

namespace Setting

def set (setting : Setting) (table : BinaryTable) : Option BinaryTable :=
  match setting with
  | tableIdExtension tidExt recomputeCrc => table.setTableIdExtension tidExt recomputeCrc
  | version value recomputeCrc => table.setVersion value recomputeCrc
  | sourcePID pid => table.setSourcePID pid

/-- A section has the setting, if it has the attribute. -/
def IsIn (sect : Section) : Setting → Prop
  | tableIdExtension tidExt _ => sect.isLongSection = true → sect.tableIdExtension = tidExt.toNat
  | version value _ => sect.isLongSection = true → sect.version = value
  | sourcePID pid => sect.sourcePid = pid

def recomputes : Setting → Bool
  | tableIdExtension _ recomputeCrc => recomputeCrc
  | version _ recomputeCrc => recomputeCrc
  | sourcePID _ => false

def bits (offset : ℕ) : Setting → UInt8
  | tableIdExtension _ _ => if offset = 3 ∨ offset = 4 then 0xFF else 0x00
  | version _ _ => if offset = 5 then 0x3E else 0x00
  | sourcePID _ => 0x00

/-- The bits of the attribute and of the CRC32. -/
def changing (setting : Setting) (sect : Section) (offset : ℕ) : UInt8 :=
  if setting.recomputes = true ∧ sect.InCrc offset then 0xFF
  else if sect.isLongSection = true then setting.bits offset else 0x00

/-- The attribute is new, and the other bits are the same. -/
structure IsSetIn (setting : Setting) (sect changed : Section) : Prop where
  value : setting.IsIn changed
  crc : setting.recomputes = true → changed.isLongSection = true → crcMatches changed.content = true
  size_eq : changed.size = sect.size
  bytes_eq : ∀ offset, byteAt changed.content offset &&& ~~~setting.changing sect offset =
    byteAt sect.content offset &&& ~~~setting.changing sect offset
  sourcePid_eq : (∀ pid, setting ≠ sourcePID pid) → changed.sourcePid = sect.sourcePid
  firstPkt_eq : changed.firstPkt = sect.firstPkt
  lastPkt_eq : changed.lastPkt = sect.lastPkt

end Setting

/-- The setter gives the same slots, and each section has its new setting. -/
def IsSetBy (table : BinaryTable) (setting : Setting) : Prop :=
  ∃ next, setting.set table = some next ∧
    List.Forall₂ (Option.Rel (setting.IsSetIn)) table.sections next.sections

/-- No slot is empty, and a version in a long section has five bits. -/
def Settable (table : BinaryTable) (setting : Setting) : Prop :=
  none ∉ table.sections ∧ ∀ value recomputeCrc, setting = .version value recomputeCrc →
    (∃ sect, some sect ∈ table.sections ∧ sect.isLongSection = true) → value < 0x20

theorem version_bits (byte value : UInt8) :
    ((byte &&& 0xC1) ||| ((value &&& (0x1F : UInt8)) <<< (1 : UInt8))) &&& 0xC1 = byte &&& 0xC1 ∧
      (((byte &&& 0xC1) ||| ((value &&& (0x1F : UInt8)) <<< (1 : UInt8))) >>> 1) &&& 0x1F =
        value &&& 0x1F := by
  constructor
  · refine UInt8.toBitVec_inj.mp (BitVec.eq_of_getElem_eq fun index hindex ↦ ?_)
    interval_cases index <;> simp
  · refine UInt8.toBitVec_inj.mp (BitVec.eq_of_getElem_eq fun index hindex ↦ ?_)
    interval_cases index <;> simp

theorem and_eq_self_iff (value : UInt8) : value &&& 0x1F = value ↔ value < 0x20 := by
  have hmod : (value &&& 0x1F).toNat = value.toNat % 2 ^ 5 := by
    rw [UInt8.toNat_and]
    exact Nat.and_two_pow_sub_one_eq_mod _ 5
  rw [UInt8.lt_iff_toNat_lt]
  show _ ↔ value.toNat < 2 ^ 5
  rw [← UInt8.toNat_inj, hmod]
  exact Nat.mod_eq_iff_lt (by decide)

namespace Setting

def change (sect : Section) : Setting → Section
  | tableIdExtension tidExt recomputeCrc =>
    (sect.setTableIdExtension tidExt.toNat).recomputed recomputeCrc
  | version value recomputeCrc => sect.setVersion value recomputeCrc
  | sourcePID pid => sect.setSourcePID pid

theorem setTableIdExtension_eq (sect : Section) (tidExt : ℕ) (recomputeCrc : Bool) :
    (sect.setTableIdExtension tidExt).recomputed recomputeCrc =
      sect.edit 3 (putUInt16 tidExt) recomputeCrc (by decide) := by
  unfold Section.setTableIdExtension Section.edit
  split_ifs with hlong
  · rfl
  · unfold Section.recomputed
    split_ifs
    · exact dif_neg hlong
    · rfl

theorem setVersion_eq (sect : Section) (value : UInt8) (recomputeCrc : Bool) :
    sect.setVersion value recomputeCrc = sect.edit 5 [(byteAt sect.content 5 &&& 0xC1) |||
        ((value &&& (0x1F : UInt8)) <<< (1 : UInt8))] recomputeCrc (by decide) :=
  rfl

theorem isLongSection_of_edited {sect changed : Section} {offset : ℕ} {value : ByteBlock}
    {recomputeCrc : Bool} (hedited : sect.Edited changed offset value recomputeCrc)
    (hoffset : 3 ≤ offset) : changed.isLongSection = sect.isLongSection := by
  have hbyte : byteAt changed.content 1 = byteAt sect.content 1 := by
    refine hedited.others 1 (by omega) ?_
    rintro ⟨-, hlong, hlate⟩
    have hsize := sect.bytes.long_le hlong
    unfold minLongSectionSize longSectionHeaderSize at hsize
    unfold Section.size at hlate
    omega
  rw [Section.isLongSection, Section.isLongSection, hasLongHeader, hasLongHeader, hbyte]

/-- A section which is edited as a setter does has the new attribute. -/
theorem isSetIn_of_edited {setting : Setting} {sect changed : Section} {offset : ℕ}
    {value : ByteBlock}
    (hedited : sect.Edited changed offset value setting.recomputes) (hoffset : 3 ≤ offset)
    (hvalue : setting.IsIn changed)
    (hbits : sect.isLongSection = true → ∀ index, offset ≤ index → index < offset + value.length →
      byteAt changed.content index &&& ~~~setting.bits index =
        byteAt sect.content index &&& ~~~setting.bits index) :
    setting.IsSetIn sect changed := by
  have hlongEq := isLongSection_of_edited hedited hoffset
  refine ⟨hvalue, fun hrequest hlong ↦ hedited.crc hrequest (hlongEq.symm.trans hlong),
    hedited.size_eq, fun index ↦ ?_, fun _ ↦ hedited.sourcePid_eq, hedited.firstPkt_eq,
    hedited.lastPkt_eq⟩
  unfold changing
  split_ifs with hcrc hlong
  · exact UInt8.and_zero.trans UInt8.and_zero.symm
  · by_cases hinside : offset ≤ index ∧ index < offset + value.length
    · exact hbits hlong index hinside.1 hinside.2
    · rw [hedited.others index (fun h ↦ hinside h.2) hcrc]
  · rw [hedited.others index (fun h ↦ hlong h.1) hcrc]

theorem isSetIn_change (setting : Setting) (sect : Section)
    (hversion : ∀ value recomputeCrc, setting = .version value recomputeCrc →
      sect.isLongSection = true → value < 0x20) :
    setting.IsSetIn sect (setting.change sect) := by
  cases setting with
  | tableIdExtension tidExt recomputeCrc =>
    have hedited := sect.edited_edit recomputeCrc (show shortSectionHeaderSize ≤ 3 by decide)
      (show 3 + (putUInt16 tidExt.toNat).length ≤ longSectionHeaderSize from
        Nat.le_of_ble_eq_true rfl)
    have hlongEq := isLongSection_of_edited hedited le_rfl
    show IsSetIn _ sect ((sect.setTableIdExtension tidExt.toNat).recomputed recomputeCrc)
    rw [setTableIdExtension_eq]
    refine isSetIn_of_edited hedited le_rfl (fun hlong ↦ ?_) fun _ index hstart hend ↦ ?_
    · have hread : getUInt16 (putUInt16 tidExt.toNat ++ []) 0 = tidExt.toNat :=
        getUInt16_putUInt16_append tidExt.toNat_lt []
      rw [Section.tableIdExtension, if_pos hlong]
      rw [hlongEq] at hlong
      have hfirst := hedited.written hlong 0 (Nat.le_of_ble_eq_true rfl)
      have hsecond := hedited.written hlong 1 (Nat.le_of_ble_eq_true rfl)
      rw [getUInt16, show byteAt _ 3 = _ from hfirst, hsecond]
      exact hread
    · have hindex : index = 3 ∨ index = 4 := by
        have hlength : (putUInt16 tidExt.toNat).length = 2 := rfl
        omega
      rw [bits, if_pos hindex]
      exact UInt8.and_zero.trans UInt8.and_zero.symm
  | version value recomputeCrc =>
    obtain ⟨byte, hbyte⟩ : ∃ byte, byte = (byteAt sect.content 5 &&& 0xC1) |||
        ((value &&& (0x1F : UInt8)) <<< (1 : UInt8)) := ⟨_, rfl⟩
    obtain ⟨hothers, hfield⟩ := version_bits (byteAt sect.content 5) value
    rw [← hbyte] at hothers hfield
    have hedited := sect.edited_edit recomputeCrc (show shortSectionHeaderSize ≤ 5 by decide)
      (show 5 + [byte].length ≤ longSectionHeaderSize from Nat.le_of_ble_eq_true rfl)
    have hlongEq := isLongSection_of_edited hedited (by decide)
    show IsSetIn _ sect (sect.setVersion value recomputeCrc)
    rw [setVersion_eq, ← hbyte]
    have hwritten : sect.isLongSection = true →
        byteAt (sect.edit 5 [byte] recomputeCrc (by decide)).content 5 = byte :=
      fun hlong ↦ hedited.written hlong 0 Nat.zero_lt_one
    refine isSetIn_of_edited hedited (by decide) (fun hlong ↦ ?_) fun hlong index hstart hend ↦ ?_
    · rw [Section.version, if_pos hlong, versionField]
      rw [hlongEq] at hlong
      rw [hwritten hlong, hfield, and_eq_self_iff]
      exact hversion value recomputeCrc rfl hlong
    · obtain rfl : index = 5 := by
        rw [List.length_singleton] at hend
        omega
      rw [hwritten hlong, bits, if_pos rfl]
      exact hothers
  | sourcePID pid =>
    exact ⟨rfl, fun h ↦ absurd h Bool.false_ne_true, rfl, fun _ ↦ rfl, fun h ↦ absurd rfl (h pid),
      rfl, rfl⟩

theorem lt_of_isSetIn {value : UInt8} {recomputeCrc : Bool} {sect changed : Section}
    (hset : (version value recomputeCrc).IsSetIn sect changed)
    (hlong : changed.isLongSection = true) : value < 0x20 := by
  have hvalue : changed.version = value := hset.value hlong
  rw [Section.version, if_pos hlong, versionField] at hvalue
  rw [← and_eq_self_iff, ← hvalue, UInt8.and_assoc]
  rfl

/-- All sections can be changed when none is absent. -/
theorem changeAll_eq_some_iff (function : Section → Section)
    {sections next : List (Option Section)} :
    changeAll function sections = some next ↔
      none ∉ sections ∧ next = sections.map (Option.map function) := by
  induction sections generalizing next with
  | nil =>
    rw [changeAll, Option.some.injEq]
    exact ⟨fun h ↦ ⟨List.not_mem_nil, h.symm⟩, fun h ↦ h.2.symm⟩
  | cons slot rest ih =>
    cases slot with
    | none => exact iff_of_false (by simp [changeAll]) fun h ↦ h.1 List.mem_cons_self
    | some sect =>
      rw [changeAll, Option.map_eq_some_iff]
      constructor
      · rintro ⟨later, hlater, rfl⟩
        obtain ⟨hnone, rfl⟩ := ih.mp hlater
        exact ⟨fun hmem ↦ hnone (by simpa using hmem), rfl⟩
      · rintro ⟨hnone, rfl⟩
        exact ⟨_, ih.mpr ⟨fun hmem ↦ hnone (List.mem_cons_of_mem _ hmem), rfl⟩, rfl⟩

theorem sections_set (setting : Setting) (table : BinaryTable) :
    (setting.set table).map BinaryTable.sections =
      changeAll (fun sect ↦ setting.change sect) table.sections := by
  cases setting <;> exact (Option.map_map ..).trans Option.map_id'

end Setting

/-- It does if and only if no slot is empty and a version which goes in a long section has five
bits. -/
theorem isSetBy_iff (table : BinaryTable) (setting : Setting) :
    table.IsSetBy setting ↔ table.Settable setting := by
  have hsections := setting.sections_set table
  constructor
  · rintro ⟨next, hnext, hall⟩
    rw [hnext] at hsections
    obtain ⟨hnone, hmap⟩ := (Setting.changeAll_eq_some_iff _).mp hsections.symm
    refine ⟨hnone, ?_⟩
    rintro value recomputeCrc rfl ⟨sect, hmem, hlong⟩
    rw [hmap, List.forall₂_map_right_iff, List.forall₂_same] at hall
    obtain hset := hall (some sect) hmem
    cases hset with
    | some hset =>
      refine Setting.lt_of_isSetIn hset ?_
      exact (Section.isLongSection_setHeaderByte ..).trans hlong
  · rintro ⟨hnone, hversion⟩
    have hchanged := (Setting.changeAll_eq_some_iff fun sect ↦ setting.change sect).mpr ⟨hnone, rfl⟩
    rw [← hsections] at hchanged
    obtain ⟨next, hnext, hmap⟩ := Option.map_eq_some_iff.mp hchanged
    refine ⟨next, hnext, ?_⟩
    rw [hmap, List.forall₂_map_right_iff]
    refine List.forall₂_same.mpr fun slot hslot ↦ ?_
    cases slot with
    | none => exact absurd hslot hnone
    | some sect =>
      exact .some (setting.isSetIn_change sect fun value recomputeCrc hsetting hlong ↦
        hversion value recomputeCrc hsetting ⟨sect, hslot, hlong⟩)

def incompleteTable : BinaryTable :=
  (empty.addSection (some (emptySection 0 1)) true true).2

/-- The version of a table with an empty slot cannot be set. -/
theorem incompleteTable_not_isSetBy :
    (∃ additions, machine.run empty [.addSection (some (emptySection 0 1)) true true] =
        some (incompleteTable, additions)) ∧
      ¬ incompleteTable.IsSetBy (.version 1 true) := by
  refine ⟨⟨_, rfl⟩, fun ⟨next, hnext, _⟩ ↦ ?_⟩
  have hnone : Setting.set (.version 1 true) incompleteTable = none := by decide +kernel
  rw [hnone] at hnext
  cases hnext

end BinaryTable

end TSDuck
