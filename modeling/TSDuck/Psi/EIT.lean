import TSDuck.Mpeg.MJD
import TSDuck.Psi.EntryLoop

/-!
# Event Information Table

An EIT describes events of a service: a start time, a duration, flags and descriptors for each
event.

The round trip depends on what the codecs of the dates and of the durations can represent. The start
times are those of `IsDate`, and the durations are less than 100 hours.
-/

namespace TSDuck

def tidEitMin : UInt8 := 0x4E

def tidEitMax : UInt8 := 0x6F

namespace EIT

/-- The description of an event. -/
structure Event where
  startTime : ℤ
  duration : ℤ
  runningStatus : UInt8
  caControlled : Bool
  descs : DescriptorList
  deriving DecidableEq

end EIT

/-- An Event Information Table. -/
structure EIT where
  isValid : Bool
  tableId : UInt8
  version : UInt8
  isCurrent : Bool
  serviceId : Uint16
  tsId : Uint16
  onetwId : Uint16
  segmentLast : UInt8
  lastTableId : UInt8
  events : SortedMap Uint16 EIT.Event
  deriving DecidableEq

namespace EIT

variable (system : System)

def header (eit : EIT) : LongHeader :=
  { tableId := eit.tableId
    isPrivateSection := true
    tableIdExtension := eit.serviceId
    version := eit.version
    isCurrent := eit.isCurrent }

def constantPart (eit : EIT) : ByteBlock :=
  putUInt16 eit.tsId.val ++ putUInt16 eit.onetwId.val ++ [eit.segmentLast, eit.lastTableId]

/-- The fixed part of an event and its descriptors. -/
def eventEntry (entry : Uint16 × Event) : EntryWithDescriptors :=
  { fixed := putUInt16 entry.1.val ++ encodeMJD system entry.2.startTime ++
      [encodeBCD (entry.2.duration / 3600).toNat, encodeBCD ((entry.2.duration / 60) % 60).toNat,
        encodeBCD (entry.2.duration % 60).toNat]
    high := (entry.2.runningStatus <<< 5) ||| (if entry.2.caControlled then 0x10 else 0x00)
    descs := entry.2.descs }

def makeEvent (fixed : ByteBlock) (high : UInt8) (descs : DescriptorList) : Event :=
  { startTime := (decodeMJD system (fixed.drop 2)).2
    duration := decodeBCD (byteAt fixed 7) * 3600 + decodeBCD (byteAt fixed 8) * 60 +
      decodeBCD (byteAt fixed 9)
    runningStatus := (high >>> 5) &&& 0x07
    caControlled := ((high >>> 4) &&& 0x01) != 0
    descs := descs }

def putEvent (eit : EIT) (entry : EntryWithDescriptors) : EIT :=
  { eit with
    events := eit.events.update (getWord entry.fixed 0) fun event ↦
      makeEvent system entry.fixed entry.high (event.elim [] Event.descs ++ entry.descs) }

def readSection (eit : EIT) (sect : Section) : Except EIT EIT :=
  if sect.tableId ≠ eit.tableId then .error eit
  else
    let eit :=
      { eit with
        version := sect.version
        isCurrent := sect.isCurrent
        serviceId := Fin.ofNat 65536 sect.tableIdExtension }
    if sect.payload.length < 6 then .error eit
    else
      .ok ((readAllRecords (EntryWithDescriptors.read 10) (sect.payload.drop 6)).foldl
        (putEvent system)
        { eit with
          tsId := getWord sect.payload 0
          onetwId := getWord sect.payload 2
          segmentLast := byteAt sect.payload 4
          lastTableId := byteAt sect.payload 5 })

def clear (eit : EIT) : EIT :=
  { eit with
    isValid := false
    serviceId := 0
    tsId := 0
    onetwId := 0
    segmentLast := 0
    lastTableId := eit.tableId
    events := SortedMap.empty }

def deserialize (eit : EIT) (table : BinaryTable) : EIT :=
  if ¬ table.isValid then eit.clear
  else
    let eit := { eit.clear with tableId := table.tableId }
    if table.tableId < tidEitMin ∨ tidEitMax < table.tableId then eit
    else
      match table.allSections.foldlM (readSection system) eit with
      | .error eit => eit
      | .ok eit => { eit with isValid := true }

/-- The event fits in the codecs of its fields. -/
structure Event.IsReadable (event : Event) : Prop where
  startTime : IsDate system event.startTime
  durationNonneg : 0 ≤ event.duration
  durationLt : event.duration < 100 * 3600
  runningStatus : event.runningStatus ≤ 7

/-- The identity and the events can be read back. -/
structure IsWellFormed (eit : EIT) : Prop where
  tableIdMin : tidEitMin ≤ eit.tableId
  tableIdMax : eit.tableId ≤ tidEitMax
  version : eit.version ≤ 31
  events : ∀ entry ∈ eit.events.entries, entry.2.IsReadable system

variable {system}

theorem high_fields {status : UInt8} (hstatus : status ≤ 7) (controlled : Bool) :
    ((status <<< 5 ||| (if controlled then 0x10 else 0x00)) &&& 0x0F) = 0 ∧
      ((status <<< 5 ||| (if controlled then 0x10 else 0x00)) >>> 5) &&& 0x07 = status ∧
        ((((status <<< 5 ||| (if controlled then 0x10 else 0x00)) >>> 4) &&& 0x01) != 0) =
          controlled := by
  have hall : ∀ status : Fin 8, ∀ controlled : Bool,
      ((UInt8.ofNat status <<< 5 ||| (if controlled then 0x10 else 0x00)) &&& 0x0F) = 0 ∧
      ((UInt8.ofNat status <<< 5 ||| (if controlled then 0x10 else 0x00)) >>> 5) &&& 0x07 =
        UInt8.ofNat status ∧
      ((((UInt8.ofNat status <<< 5 ||| (if controlled then 0x10 else 0x00)) >>> 4) &&& 0x01) != 0) =
        controlled := by
    decide
  have hsmall : status.toNat < 8 := Nat.lt_succ_of_le (UInt8.le_iff_toNat_le.mp hstatus)
  have hread := hall ⟨status.toNat, hsmall⟩ controlled
  have hsame : UInt8.ofNat status.toNat = status := UInt8.ofNat_toNat
  simp only [hsame] at hread
  exact hread

theorem makeEvent_eventEntry {entry : Uint16 × Event} (hreadable : entry.2.IsReadable system) :
    ((eventEntry system entry).fixed.length = 10 ∧ (eventEntry system entry).high &&& 0x0F = 0) ∧
        getWord (eventEntry system entry).fixed 0 = entry.1 ∧
          makeEvent system (eventEntry system entry).fixed (eventEntry system entry).high
            (eventEntry system entry).descs = entry.2 := by
  obtain ⟨id, start, duration, status, controlled, descs⟩ := entry
  obtain ⟨hstart, hnonneg, hless, hstatus⟩ := hreadable
  simp only at hstart hnonneg hless hstatus
  obtain ⟨hlow, hshift, hbit⟩ := high_fields hstatus controlled
  have hmjd := length_encodeMJD system start
  have hfixed : (eventEntry system (id, ⟨start, duration, status, controlled, descs⟩)).fixed =
      putUInt16 id.val ++ (encodeMJD system start ++ [encodeBCD (duration / 3600).toNat,
        encodeBCD ((duration / 60) % 60).toNat, encodeBCD (duration % 60).toNat]) :=
    List.append_assoc _ _ _
  refine ⟨⟨?_, hlow⟩, ?_, ?_⟩
  · rw [hfixed, List.length_append, List.length_append, hmjd]
    rfl
  · rw [hfixed]
    exact getWord_putUInt16 id _
  · have htime : (decodeMJD system ((eventEntry system
        (id, ⟨start, duration, status, controlled, descs⟩)).fixed.drop 2)).2 = start := by
      rw [hfixed]
      exact congrArg Prod.snd (decodeMJD_encodeMJD system hstart _)
    have hbytes : ∀ offset, byteAt (eventEntry system
        (id, ⟨start, duration, status, controlled, descs⟩)).fixed (7 + offset) =
          byteAt [encodeBCD (duration / 3600).toNat, encodeBCD ((duration / 60) % 60).toNat,
            encodeBCD (duration % 60).toNat] offset := by
      intro offset
      have hfront : (putUInt16 id.val ++ encodeMJD system start).length = 7 := by
        rw [List.length_append, hmjd]
        rfl
      rw [← hfront]
      exact byteAt_append_right _ _ offset
    have hhours : decodeBCD (encodeBCD (duration / 3600).toNat) = (duration / 3600).toNat :=
      (decodeBCD_encodeBCD _ (by omega)).2
    have hminutes : decodeBCD (encodeBCD ((duration / 60) % 60).toNat) =
        ((duration / 60) % 60).toNat := (decodeBCD_encodeBCD _ (by omega)).2
    have hseconds : decodeBCD (encodeBCD (duration % 60).toNat) = (duration % 60).toNat :=
      (decodeBCD_encodeBCD _ (by omega)).2
    unfold makeEvent
    rw [htime, hbytes 0, hbytes 1, hbytes 2]
    show Event.mk _ ((decodeBCD (encodeBCD (duration / 3600).toNat) : ℤ) * 3600 +
      (decodeBCD (encodeBCD ((duration / 60) % 60).toNat) : ℤ) * 60 +
        (decodeBCD (encodeBCD (duration % 60).toNat) : ℤ)) _ _ _ = _
    rw [hhours, hminutes, hseconds, Event.mk.injEq]
    refine ⟨rfl, ?_, hshift, hbit, rfl⟩
    omega

def withHeader (source eit : EIT) : EIT :=
  { eit with
    version := source.version
    isCurrent := source.isCurrent
    serviceId := source.serviceId
    tsId := source.tsId
    onetwId := source.onetwId
    segmentLast := source.segmentLast
    lastTableId := source.lastTableId }

theorem putEvent_withHeader (source eit : EIT) (entry : EntryWithDescriptors) :
    putEvent system (withHeader source eit) entry = withHeader source (putEvent system eit entry) :=
  rfl

theorem foldl_putEvent (eit : EIT) (entries : List EntryWithDescriptors) :
    entries.foldl (putEvent system) eit = { eit with
        events := entries.foldl (fun events entry ↦
          events.update (getWord entry.fixed 0) fun event ↦
            makeEvent system entry.fixed entry.high (event.elim [] Event.descs ++ entry.descs))
          eit.events } := by
  induction entries generalizing eit with
  | nil => rfl
  | cons entry rest ih =>
    rw [List.foldl_cons, ih]
    rfl

/-- A section with readable events registers them. -/
theorem readSection_build {eit source : EIT} (htable : eit.tableId = source.tableId)
    (hversion : source.version ≤ 31) (number last : UInt8) {part : List EntryWithDescriptors}
    (hread : readAllRecords (EntryWithDescriptors.read 10)
      (part.flatMap EntryWithDescriptors.bytes) = part)
    (hsize : (SectionWriter.payloadOf source.constantPart part).length ≤ 4084) :
    readSection system eit (source.header.build number last hsize) =
      .ok (part.foldl (putEvent system) (withHeader source eit)) := by
  have hid : Fin.ofNat 65536 source.header.tableIdExtension.val = source.serviceId :=
    Fin.ofNat_val_eq_self _
  have hts : getWord (SectionWriter.payloadOf source.constantPart part) 0 = source.tsId :=
    getWord_putUInt16 source.tsId (putUInt16 source.onetwId.val ++
      [source.segmentLast, source.lastTableId] ++ part.flatMap EntryWithDescriptors.bytes)
  have honetw : getWord (SectionWriter.payloadOf source.constantPart part) 2 = source.onetwId :=
    getWord_putUInt16 source.onetwId ([source.segmentLast, source.lastTableId] ++
      part.flatMap EntryWithDescriptors.bytes)
  have hdrop : (SectionWriter.payloadOf source.constantPart part).drop 6 =
      part.flatMap EntryWithDescriptors.bytes := rfl
  have hlength : ¬ (SectionWriter.payloadOf source.constantPart part).length < 6 := by
    rw [SectionWriter.payloadOf, List.length_append]
    show ¬ 6 + _ < 6
    omega
  have htid : (source.header.build number last hsize).tableId = eit.tableId := htable.symm
  unfold readSection
  rw [if_neg (not_not.mpr htid)]
  simp only [source.header.payload_build, source.header.version_build _ _ _ hversion,
    source.header.isCurrent_build _ _ _ hversion, source.header.tableIdExtension_build, hid, hts,
    honetw, hdrop, hread]
  rw [if_neg hlength]
  rfl

/-- The EIT is rebuilt from the table which is made of the payloads. -/
theorem deserialize_ofPayloads {eit : EIT} (hvalid : eit.isValid = true)
    (hwellFormed : eit.IsWellFormed system) {parts : List (List EntryWithDescriptors)}
    (hlaidOut : SectionWriter.IsLaidOut eit.constantPart
      (eit.events.entries.map (eventEntry system)) parts)
    (hcount : parts.length ≤ 256) (target : EIT) :
    target.deserialize system (BinaryTable.ofPayloads eit.header
      (parts.map (SectionWriter.payloadOf eit.constantPart))) = eit := by
  obtain ⟨cuts, hflatten, hcuts⟩ := hlaidOut.cuts
  have hevents := fun entry hentry ↦ makeEvent_eventEntry (hwellFormed.events entry hentry)
  have hread := BinaryTable.foldlM_ofPayloads (Except EIT) eit.header (readSection system)
    (fun state part ↦ part.foldl (putEvent system) (withHeader eit state))
    (fun state ↦ state.tableId = eit.tableId) hwellFormed.version
    (fun part hpart ↦ (hlaidOut.sizes part hpart).trans (by decide)) hcount
    (fun state part hstate ↦ by
      rw [foldl_putEvent]
      exact hstate)
    (fun state number last part hstate hpart hsize ↦
      readSection_build hstate hwellFormed.version number last
        (hlaidOut.readAllRecords (fun record hrecord ↦ by
          obtain ⟨entry, hentry, rfl⟩ := List.mem_map.mp hrecord
          exact (hevents entry hentry).1) hpart) hsize)
    { target.clear with tableId := eit.tableId } rfl
  rw [foldl_parts (putEvent_withHeader eit) (fun _ ↦ rfl) hlaidOut.nonempty] at hread
  have hmap := EntryWithDescriptors.foldl_update_cuts (fun fixed ↦ getWord fixed 0)
    (makeEvent system) Event.descs (fun _ _ _ ↦ rfl) (eventEntry system) (fun entry hentry ↦ (hevents entry hentry).2)
    (List.Perm.refl _) hcuts
  have hrebuilt : withHeader eit
      (parts.flatten.foldl (putEvent system) { target.clear with tableId := eit.tableId }) =
        { eit with isValid := false } := by
    rw [hflatten, foldl_putEvent, withHeader, EIT.mk.injEq]
    exact ⟨rfl, rfl, rfl, rfl, rfl, rfl, rfl, rfl, rfl, hmap⟩
  rw [hrebuilt] at hread
  have haccepted : ¬ ¬ (BinaryTable.ofPayloads eit.header
      (parts.map (SectionWriter.payloadOf eit.constantPart))).isValid = true := not_not.mpr rfl
  have hknown : ¬ (eit.tableId < tidEitMin ∨ tidEitMax < eit.tableId) := by
    rintro (hbelow | habove)
    · exact UInt8.not_lt.mpr hwellFormed.tableIdMin hbelow
    · exact UInt8.not_lt.mpr hwellFormed.tableIdMax habove
  have htid : (BinaryTable.ofPayloads eit.header
      (parts.map (SectionWriter.payloadOf eit.constantPart))).tableId = eit.tableId := rfl
  unfold deserialize
  rw [if_neg haccepted, htid]
  dsimp only
  rw [if_neg hknown]
  dsimp only at hread
  rw [hread]
  show { eit with isValid := true } = eit
  rw [← hvalid]

def eventAt (startTime : ℤ) : EIT where
  isValid := true
  tableId := tidEitMin
  version := 0
  isCurrent := true
  serviceId := 1
  tsId := 2
  onetwId := 3
  segmentLast := 0
  lastTableId := tidEitMin
  events := SortedMap.empty.update 4 fun _ ↦
    { startTime := startTime
      duration := 3600
      runningStatus := 1
      caControlled := false
      descs := [] }

end EIT

end TSDuck
