import TSDuck.Psi.DescriptorList
import TSDuck.Psi.SectionFile
import TSDuck.Psi.SectionFields
import TSDuck.Scte35.SpliceSchedule

/-!
# Splice information tables

A `SpliceInformationTable` is a splice command and a list of descriptors in a single section.

A table holds one command of each kind, and only the one of its type is significant (`significant`).
A valid table whose section is not larger than the maximum size is rebuilt from this section, with
its significant fields (`deserialize_serialize_eq_significant`).

Scope. A table object which is left invalid is here the absence of a table. The encrypted sections
are not deserialized, and never serialized.
-/

namespace TSDuck

structure SplicePrivateCommand where
  identifier : UInt32
  privateBytes : ByteBlock
  deriving DecidableEq

structure SpliceInformationTable where
  protocolVersion : UInt8
  ptsAdjustment : UInt64
  tier : UInt16
  spliceCommandType : UInt8
  spliceSchedule : SpliceSchedule
  spliceInsert : SpliceInsert
  timeSignal : SpliceTime
  privateCommand : SplicePrivateCommand
  descs : DescriptorList

namespace SpliceInformationTable

def myTid : UInt8 := 0xFC

def spliceNull : UInt8 := 0x00

def spliceScheduleType : UInt8 := 0x04

def spliceInsertType : UInt8 := 0x05

def spliceTimeSignal : UInt8 := 0x06

def splicePrivateCommand : UInt8 := 0xFF

def cleared : SpliceInformationTable :=
  { protocolVersion := 0, ptsAdjustment := 0, tier := 0x0FFF, spliceCommandType := spliceNull,
    spliceSchedule := [], spliceInsert := .cleared, timeSignal := none, privateCommand := ⟨0, []⟩,
    descs := [] }

/-- The table with its significant command. -/
def significant (table : SpliceInformationTable) : SpliceInformationTable :=
  { table with
    spliceSchedule :=
      if table.spliceCommandType = spliceScheduleType then table.spliceSchedule.significant
      else cleared.spliceSchedule
    spliceInsert :=
      if table.spliceCommandType = spliceInsertType then table.spliceInsert.significant
      else cleared.spliceInsert
    timeSignal :=
      if table.spliceCommandType = spliceTimeSignal then table.timeSignal else cleared.timeSignal
    privateCommand :=
      if table.spliceCommandType = splicePrivateCommand then table.privateCommand
      else cleared.privateCommand }

/-- Decodes the command of a supported type. -/
def deserializeCommand (table : SpliceInformationTable) (data : ByteBlock) :
    Option SpliceInformationTable :=
  if table.spliceCommandType = spliceScheduleType then
    (SpliceSchedule.deserialize data).map fun read ↦ { table with spliceSchedule := read.1 }
  else if table.spliceCommandType = spliceInsertType then
    (SpliceInsert.deserialize data).map fun read ↦ { table with spliceInsert := read.1 }
  else if table.spliceCommandType = spliceTimeSignal then
    (SpliceTime.deserialize data).map fun read ↦ { table with timeSignal := read.1 }
  else if table.spliceCommandType = splicePrivateCommand then
    if data.length < 4 then none
    else some { table with privateCommand := ⟨UInt32.ofNat (getUInt32 data 0), data.drop 4⟩ }
  else some table

def deserializeDescriptors (table : SpliceInformationTable) (data : ByteBlock) :
    Option SpliceInformationTable :=
  if getUInt16 data 0 > data.length - 2 then none
  else some { table with descs := table.descs.add ((data.drop 2).take (getUInt16 data 0)) }

def deserializePayload (data : ByteBlock) : Option SpliceInformationTable :=
  let commandLength := getUInt16 data 8 &&& 0x0FFF
  let fixed := { cleared with
    protocolVersion := byteAt data 0
    ptsAdjustment := getPts (data.drop 1)
    tier := UInt16.ofNat ((getUInt16 data 7 >>> 4) &&& 0x0FFF)
    spliceCommandType := byteAt data 10 }
  if byteAt data 1 &&& 0x80 != 0 then none
  else if commandLength + 2 > data.length - 11 then none
  else
    (fixed.deserializeCommand ((data.drop 11).take commandLength)).bind fun table ↦
      table.deserializeDescriptors (data.drop (11 + commandLength))

def deserializeSection (sect : Section) : Option SpliceInformationTable :=
  if sect.payloadSize < 15 then none
  else if getUInt32 sect.payload (sect.payloadSize - 4) ≠
      (crc32 (sect.content.take (sect.size - 4))).toNat then none
  else deserializePayload (sect.payload.take (sect.payloadSize - 4))

def deserialize (table : BinaryTable) : Option SpliceInformationTable :=
  if table.isValid = false ∨ table.tableId ≠ myTid then none
  else
    match table.sections with
    | [some sect] => deserializeSection sect
    | _ => none

def serializeCommand (table : SpliceInformationTable) : ByteBlock :=
  if table.spliceCommandType = spliceScheduleType then table.spliceSchedule.serialize
  else if table.spliceCommandType = spliceInsertType then table.spliceInsert.serialize
  else if table.spliceCommandType = spliceTimeSignal then table.timeSignal.serialize
  else if table.spliceCommandType = splicePrivateCommand then
    putUInt32 table.privateCommand.identifier.toNat ++ table.privateCommand.privateBytes
  else []

/-- The tier, with bits of the length of the command. -/
def tierBytes (table : SpliceInformationTable) : ByteBlock :=
  putUInt16 (table.tier.toNat <<< 4)

/-- The fixed part, with the length of the command. -/
def fixedPart (table : SpliceInformationTable) : ByteBlock :=
  [table.protocolVersion, UInt8.ofNat (table.ptsAdjustment.toNat >>> 32) &&& 0x01] ++
    putUInt32 table.ptsAdjustment.toNat ++ [0, byteAt table.tierBytes 0] ++
      putUInt16 (((byteAt table.tierBytes 1).toNat <<< 8) |||
        (table.serializeCommand.length &&& 0x0FFF)) ++ [table.spliceCommandType]

def serializeDescriptors (table : SpliceInformationTable) : ByteBlock :=
  putUInt16 (table.descs.serialize 0xFFFF 0).1.length ++ (table.descs.serialize 0xFFFF 0).1

def serializePayload (table : SpliceInformationTable) : ByteBlock :=
  table.fixedPart ++ table.serializeCommand ++ table.serializeDescriptors

def checkedBytes (table : SpliceInformationTable) : ByteBlock :=
  [myTid] ++ putUInt16 (0x3000 ||| ((table.serializePayload.length + 4) &&& 0x0FFF)) ++
    table.serializePayload

def bytes (table : SpliceInformationTable) : ByteBlock :=
  table.checkedBytes ++ putUInt32 (crc32 table.checkedBytes).toNat

def serialize (table : SpliceInformationTable) : BinaryTable :=
  (BinaryTable.empty.addSection (Section.ofContent table.bytes pidNull .ignore) true true).2

/-- The fields fit, and the command is valid. -/
structure IsValid (table : SpliceInformationTable) : Prop where
  ptsAdjustment : table.ptsAdjustment.toNat ≤ ptsDtsMask
  tier : table.tier.toNat ≤ 0x0FFF
  spliceSchedule : table.spliceCommandType = spliceScheduleType → table.spliceSchedule.IsValid
  spliceInsert : table.spliceCommandType = spliceInsertType → table.spliceInsert.IsValid
  timeSignal : table.spliceCommandType = spliceTimeSignal → table.timeSignal.IsPts

variable {table : SpliceInformationTable}

theorem lengthWord_eq (hcommand : table.serializeCommand.length < 4096) :
    (byteAt table.tierBytes 1).toNat <<< 8 ||| (table.serializeCommand.length &&& 0x0FFF) =
      table.tier.toNat % 16 * 4096 + table.serializeCommand.length := by
  have hlow : (byteAt table.tierBytes 1).toNat = table.tier.toNat * 16 % 256 := by
    show (UInt8.ofNat (table.tier.toNat <<< 4)).toNat = _
    rw [UInt8.toNat_ofNat', Nat.shiftLeft_eq]
  have hshift : (table.tier.toNat * 16 % 256) <<< 8 = 2 ^ 12 * (table.tier.toNat % 16) := by
    rw [Nat.shiftLeft_eq]
    omega
  rw [hlow, and_length_mask, Nat.mod_eq_of_lt hcommand, hshift, Nat.or_comm,
    or_high_bits 12 _ hcommand]
  omega

theorem tier_fixedPart (htier : table.tier.toNat ≤ 0x0FFF)
    (hcommand : table.serializeCommand.length < 4096) (rest : ByteBlock) :
    UInt16.ofNat ((getUInt16 (table.fixedPart ++ rest) 7 >>> 4) &&& 0x0FFF) = table.tier ∧
      getUInt16 (table.fixedPart ++ rest) 8 &&& 0x0FFF = table.serializeCommand.length := by
  have hword := lengthWord_eq hcommand
  have hhigh : byteAt (table.fixedPart ++ rest) 7 = UInt8.ofNat ((table.tier.toNat <<< 4) / 256) := rfl
  have hmiddle : byteAt (table.fixedPart ++ rest) 8 =
      UInt8.ofNat (((byteAt table.tierBytes 1).toNat <<< 8 |||
        (table.serializeCommand.length &&& 0x0FFF)) / 256) := rfl
  have hlow : byteAt (table.fixedPart ++ rest) 9 =
      UInt8.ofNat ((byteAt table.tierBytes 1).toNat <<< 8 |||
        (table.serializeCommand.length &&& 0x0FFF)) := rfl
  rw [hword] at hmiddle hlow
  rw [Nat.shiftLeft_eq] at hhigh
  constructor
  · have hvalue : getUInt16 (table.fixedPart ++ rest) 7 >>> 4 &&& 0x0FFF = table.tier.toNat := by
      rw [getUInt16, hhigh, hmiddle, and_length_mask, Nat.shiftRight_eq_div_pow, UInt8.toNat_ofNat',
        UInt8.toNat_ofNat']
      omega
    rw [hvalue]
    exact UInt16.ofNat_toNat
  · rw [getUInt16, hmiddle, hlow, and_length_mask, UInt8.toNat_ofNat', UInt8.toNat_ofNat']
    omega

theorem ptsAdjustment_fixedPart (hpts : table.ptsAdjustment.toNat ≤ ptsDtsMask) (rest : ByteBlock) :
    getPts ((table.fixedPart ++ rest).drop 1) = table.ptsAdjustment ∧
      (byteAt (table.fixedPart ++ rest) 1 &&& 0x80 != 0) = false := by
  have hfirst : ((UInt8.ofNat (table.ptsAdjustment.toNat >>> 32) &&& 0x01) &&& 0x01).toNat =
        table.ptsAdjustment.toNat >>> 32 ∧
      ((UInt8.ofNat (table.ptsAdjustment.toNat >>> 32) &&& 0x01) &&& 0x80 != 0) = false := by
    rcases shiftRight_pts hpts with hbit | hbit
    · rw [hbit]
      decide
    · rw [hbit]
      decide
  have hassoc : (table.fixedPart ++ rest).drop 1 =
      (UInt8.ofNat (table.ptsAdjustment.toNat >>> 32) &&& 0x01) ::
        (putUInt32 table.ptsAdjustment.toNat ++ (table.fixedPart.drop 6 ++ rest)) := rfl
  rw [hassoc]
  exact ⟨getPts_cons hfirst.1 _, hfirst.2⟩

theorem deserializeCommand_serializeCommand {started : SpliceInformationTable} (hvalid : table.IsValid)
    (hstarted : started = { cleared with
      protocolVersion := table.protocolVersion
      ptsAdjustment := table.ptsAdjustment
      tier := table.tier
      spliceCommandType := table.spliceCommandType }) :
    started.deserializeCommand table.serializeCommand =
      some { table.significant with descs := [] } := by
  subst hstarted
  unfold deserializeCommand serializeCommand significant
  dsimp only
  by_cases hschedule : table.spliceCommandType = spliceScheduleType
  · have hread := SpliceSchedule.deserialize_serialize (hvalid.spliceSchedule hschedule) []
    rw [List.append_nil] at hread
    simp only [if_pos hschedule, hread]
    rw [hschedule]
    rfl
  · simp only [if_neg hschedule]
    by_cases hinsert : table.spliceCommandType = spliceInsertType
    · have hread := SpliceInsert.deserialize_serialize (hvalid.spliceInsert hinsert) []
      rw [List.append_nil] at hread
      simp only [if_pos hinsert, hread]
      rw [hinsert]
      rfl
    · simp only [if_neg hinsert]
      by_cases hsignal : table.spliceCommandType = spliceTimeSignal
      · have hread := SpliceTime.deserialize_serialize (hvalid.timeSignal hsignal) []
        rw [List.append_nil] at hread
        simp only [if_pos hsignal, hread]
        rw [hsignal]
        rfl
      · simp only [if_neg hsignal]
        by_cases hprivate : table.spliceCommandType = splicePrivateCommand
        · simp only [if_pos hprivate, ofNat_getUInt32_putUInt32, List.length_append]
          rw [if_neg (by rw [Section.length_putUInt32, sectionCrc32Size]; omega)]
          rfl
        · simp only [if_neg hprivate]
          rfl

theorem deserializeDescriptors_serializeDescriptors {started : SpliceInformationTable}
    (hsize : table.serializeDescriptors.length ≤ maxPrivateSectionSize) (hstarted : started.descs = []) :
    started.deserializeDescriptors table.serializeDescriptors =
      some { started with descs := table.descs } := by
  obtain ⟨written, hfits, hloop⟩ := DescriptorList.serializeLoop_spec table.descs 0xFFFF 0
  have hbytes : table.serializeDescriptors =
      putUInt16 (DescriptorList.bytes written).length ++ DescriptorList.bytes written := by
    unfold serializeDescriptors DescriptorList.serialize
    rw [List.drop_zero, hloop]
  have hlength : table.serializeDescriptors.length = 2 + (DescriptorList.bytes written).length := by
    rw [hbytes, List.length_append]
    rfl
  unfold maxPrivateSectionSize at hsize
  have hall : table.descs = written := by
    obtain ⟨rest, hrest, -, hend⟩ := hfits
    cases rest with
    | nil => rw [hrest, List.append_nil]
    | cons desc rest =>
      have hover := hend desc rfl
      have hdesc := desc.size_le
      rw [DescriptorList.length_bytes] at hlength
      omega
  have hword : getUInt16 table.serializeDescriptors 0 = (DescriptorList.bytes written).length := by
    rw [hbytes]
    exact getUInt16_putUInt16_append (by omega) _
  have hdrop : table.serializeDescriptors.drop 2 = DescriptorList.bytes written := by
    rw [hbytes]
    rfl
  unfold deserializeDescriptors
  rw [hword, hdrop, List.take_length, hstarted, DescriptorList.add_bytes, List.nil_append, hall,
    if_neg (by omega)]

theorem deserializePayload_serializePayload (hvalid : table.IsValid)
    (hsize : table.serializePayload.length < maxPrivateSectionSize) :
    deserializePayload table.serializePayload = some table.significant := by
  have hparts : table.serializePayload.length =
      11 + table.serializeCommand.length + table.serializeDescriptors.length := by
    unfold serializePayload
    rw [List.length_append, List.length_append]
    rfl
  have hloop : 2 ≤ table.serializeDescriptors.length := Nat.le_add_left 2 _
  unfold maxPrivateSectionSize at hsize
  have hassoc : table.serializePayload =
      table.fixedPart ++ (table.serializeCommand ++ table.serializeDescriptors) :=
    List.append_assoc _ _ _
  obtain ⟨htier, hcommand⟩ := tier_fixedPart hvalid.tier (by omega : _ < 4096)
    (table.serializeCommand ++ table.serializeDescriptors)
  obtain ⟨hpts, hencrypted⟩ := ptsAdjustment_fixedPart hvalid.ptsAdjustment
    (table.serializeCommand ++ table.serializeDescriptors)
  have htake : ((table.fixedPart ++ (table.serializeCommand ++ table.serializeDescriptors)).drop
      11).take table.serializeCommand.length = table.serializeCommand := by
    show (table.serializeCommand ++ table.serializeDescriptors).take _ = _
    exact List.take_left
  have hdrop : (table.fixedPart ++ (table.serializeCommand ++ table.serializeDescriptors)).drop
      (11 + table.serializeCommand.length) = table.serializeDescriptors := by
    rw [← List.drop_drop]
    show (table.serializeCommand ++ table.serializeDescriptors).drop _ = _
    exact List.drop_left
  have hread := deserializeCommand_serializeCommand hvalid rfl
  have hdescs := deserializeDescriptors_serializeDescriptors
    (show table.serializeDescriptors.length ≤ maxPrivateSectionSize by
      unfold maxPrivateSectionSize
      omega)
    (show ({ table.significant with descs := [] } : SpliceInformationTable).descs = [] from rfl)
  have hbind := congrArg (fun read ↦ Option.bind read fun started : SpliceInformationTable ↦
    started.deserializeDescriptors table.serializeDescriptors) hread
  rw [hassoc] at hparts
  unfold deserializePayload
  rw [hassoc, hencrypted, hcommand, hpts, htier]
  dsimp only
  rw [if_neg (by decide), if_neg (by omega), htake, hdrop]
  exact hbind.trans hdescs

theorem serialize_eq (hsize : table.bytes.length ≤ maxPrivateSectionSize) :
    ∃ sect : Section, sect.content = table.bytes ∧ sect.isLongSection = false ∧ table.serialize =
        { isValid := true, tableId := myTid, tableIdExtension := 0, version := 0,
          sourcePid := sect.sourcePid, missingCount := 0, sections := [some sect] } := by
  have hbytes : table.bytes = Section.shortBytes myTid false
      (table.serializePayload ++ putUInt32 (crc32 table.checkedBytes).toNat) := by
    unfold bytes checkedBytes Section.shortBytes
    rw [List.length_append, Section.length_putUInt32, List.append_assoc]
    rfl
  have hpayload : (table.serializePayload ++ putUInt32 (crc32 table.checkedBytes).toNat).length ≤
      4093 := by
    rw [hbytes, Section.length_shortBytes] at hsize
    unfold maxPrivateSectionSize at hsize
    omega
  obtain ⟨hsection, hshort⟩ := Section.sectionBytes_shortBytes myTid false hpayload
  rw [← hbytes] at hsection hshort
  obtain ⟨sect, hsect⟩ : ∃ sect : Section, sect = ⟨table.bytes, pidNull, 0, 0, hsection⟩ := ⟨_, rfl⟩
  have hcontent : sect.content = table.bytes := by
    rw [hsect]
  have hlong : sect.isLongSection = false := by
    rw [Section.isLongSection, hcontent, hshort]
  have hreadable : sect.IsReadable .ignore :=
    ⟨fun h ↦ absurd h (by rw [hlong]; decide), fun h ↦ absurd rfl h⟩
  have hread := Section.ofContent_content hreadable pidNull
  have hid : sect.tableId = myTid := by
    rw [Section.tableId, hcontent]
    rfl
  refine ⟨sect, hcontent, hlong, ?_⟩
  have hsame : ({ sect.unsourced with sourcePid := pidNull } : Section) = sect := by
    rw [hsect]
    rfl
  rw [hcontent, hsame] at hread
  rw [serialize, hread, BinaryTable.addSection_empty_short hlong, hid]

theorem length_bytes (table : SpliceInformationTable) :
    table.bytes.length = 3 + table.serializePayload.length + 4 := by
  unfold bytes checkedBytes
  rw [List.length_append, List.length_append]
  rfl

/-- Assumes: a valid table whose section is not too large. What is read from it has the significant
fields. -/
theorem deserialize_serialize_eq_significant {table : SpliceInformationTable} (hvalid : table.IsValid)
    (hsize : table.bytes.length ≤ maxPrivateSectionSize) :
    deserialize table.serialize = some table.significant := by
  obtain ⟨sect, hcontent, hshort, htable⟩ := serialize_eq hsize
  have hlength := table.length_bytes
  have hfixed : 13 ≤ table.serializePayload.length := by
    unfold serializePayload serializeDescriptors
    rw [List.length_append, List.length_append, List.length_append]
    show 13 ≤ 11 + _ + (2 + _)
    omega
  have hpayload : sect.payload =
      table.serializePayload ++ putUInt32 (crc32 table.checkedBytes).toNat := by
    rw [Section.payload_of_short hshort, hcontent]
    rfl
  have hpayloadSize : sect.payloadSize = table.serializePayload.length + 4 := by
    unfold Section.payloadSize Section.size shortSectionHeaderSize
    rw [hshort, hcontent, hlength, if_neg (by decide)]
    omega
  have hchecked : sect.content.take (sect.size - 4) = table.checkedBytes := by
    have hsizeEq : sect.size - 4 = table.checkedBytes.length := by
      unfold Section.size
      rw [hcontent, bytes, List.length_append, Section.length_putUInt32, sectionCrc32Size]
      omega
    rw [hsizeEq, hcontent, bytes, List.take_left]
  have hcrc : getUInt32 sect.payload (sect.payloadSize - 4) = (crc32 table.checkedBytes).toNat := by
    rw [hpayload, hpayloadSize, Nat.add_sub_cancel]
    exact getUInt32_putUInt32_append _ (UInt32.toNat_lt _)
  unfold maxPrivateSectionSize at hsize
  have hread := deserializePayload_serializePayload hvalid
    (show table.serializePayload.length < maxPrivateSectionSize by
      unfold maxPrivateSectionSize
      omega)
  rw [htable, deserialize, if_neg (by simp)]
  show deserializeSection sect = _
  rw [deserializeSection, if_neg (by omega), hchecked, if_neg (fun hne ↦ hne hcrc), hpayload,
    hpayloadSize, Nat.add_sub_cancel, List.take_left, hread]

/-- A splice insert with two components and a duration. -/
def insertTable : SpliceInformationTable :=
  { cleared with
    ptsAdjustment := 0x1FFFFFFFF
    tier := 0x0123
    spliceCommandType := spliceInsertType
    spliceInsert :=
      { SpliceInsert.cleared with
        eventId := 0x12345678
        canceled := false
        spliceOut := true
        useDuration := true
        componentsPts := (SortedMap.empty.update 7 fun _ ↦ some 0x100000000).update 3 fun _ ↦ none
        durationPts := 900000
        autoReturn := true }
    descs := [⟨[0x00, 0x04, 0x43, 0x55, 0x45, 0x49], by decide, by decide⟩] }

/-- The table with a splice insert is rebuilt from its section. -/
theorem insertTable_rebuilt : deserialize insertTable.serialize = some insertTable.significant := by
  apply deserialize_serialize_eq_significant
  · refine ⟨by decide, by decide, fun h ↦ absurd h (by decide), fun _ _ ↦ ⟨⟨?_, ?_, ?_⟩, ?_⟩,
      fun h ↦ absurd h (by decide)⟩
    · decide
    · decide
    · intro _ _ entry hentry
      have hall : insertTable.spliceInsert.componentsPts.entries.all
          (fun entry ↦ decide entry.2.IsPts) = true := by decide
      exact of_decide_eq_true (List.all_eq_true.mp hall entry hentry)
    · decide
  · rw [length_bytes]
    decide

end SpliceInformationTable

end TSDuck
