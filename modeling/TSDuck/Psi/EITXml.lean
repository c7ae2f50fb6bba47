import TSDuck.Psi.EIT
import TSDuck.Xml.Enumeration
import TSDuck.Xml.TimeAttributes

/-!
# Event Information Tables in XML

The XML element of an EIT has a type, which is `pf` or the index of a schedule in decimal, and a
flag for the actual or another transport stream: the table id is found from them.

A duration is written with any number of hours, and read with at most 23. Binary durations go up to
99 hours, so an EIT with an event of 24 hours or more is not read back. `roundTripsXml_iff_lasts`
states that all other tables are read back, when their dates are not before 1970.

Scope. The descriptors of the events are converted by a parameter, which is assumed to keep them.
The reports of errors are left out.
-/

namespace TSDuck

/-- The conversion of a list of descriptors. -/
structure DescriptorsCodec where
  toXML : DescriptorList → List XmlNode
  fromXML : List XmlNode → Option DescriptorList

def runningStatusNames : Enumeration :=
  [("undefined".toList, 0), ("not-running".toList, 1), ("starting".toList, 2),
    ("pausing".toList, 3), ("running".toList, 4), ("off-air".toList, 5)]

namespace EIT

def xmlName : UString := "EIT".toList

/-- The table ids of the present and following events. -/
def tidEitPfAct : UInt8 := 0x4E

def tidEitPfOth : UInt8 := 0x4F

/-- The table ids of the schedules. -/
def tidEitSActMin : UInt8 := 0x50

def tidEitSActMax : UInt8 := 0x5F

/-- The first table id of the schedules for the other transport streams. -/
def tidEitSOthMin : UInt8 := 0x60

def isPresentFollowing (eit : EIT) : Bool := eit.tableId == tidEitPfAct || eit.tableId == tidEitPfOth

def isActual (eit : EIT) : Bool :=
  eit.tableId == tidEitPfAct ||
    (decide (tidEitSActMin ≤ eit.tableId) && decide (eit.tableId ≤ tidEitSActMax))

variable (codec : DescriptorsCodec) (system : System) (clock : LocalClock)

def xmlType (eit : EIT) : UString :=
  if eit.isPresentFollowing then "pf".toList
  else
    UString.decimal
      (eit.tableId.toNat - (if eit.isActual then tidEitSActMin else tidEitSOthMin).toNat)

def xmlAttributes (eit : EIT) : List (UString × UString) :=
  let type := XmlNode.setAttribute [] "type".toList eit.xmlType
  let version := XmlNode.setIntAttribute type "version".toList 2 eit.version.toNat false
  let current := XmlNode.setBoolAttribute version "current".toList eit.isCurrent
  let actual := XmlNode.setBoolAttribute current "actual".toList eit.isActual
  let service := XmlNode.setIntAttribute actual "service_id".toList 4 eit.serviceId.val true
  let ts := XmlNode.setIntAttribute service "transport_stream_id".toList 4 eit.tsId.val true
  let onetw := XmlNode.setIntAttribute ts "original_network_id".toList 4 eit.onetwId.val true
  let segment := XmlNode.setIntAttribute onetw "segment_last_section_number".toList 2
    eit.segmentLast.toNat true
  XmlNode.setIntAttribute segment "last_table_id".toList 2 eit.lastTableId.toNat true

def eventAttributes (entry : Uint16 × Event) : List (UString × UString) :=
  let id := XmlNode.setIntAttribute [] "event_id".toList 4 entry.1.val true
  let start := XmlNode.setAttribute id "start_time".toList
    (Time.dateTimeToString system entry.2.startTime)
  let duration := XmlNode.setAttribute start "duration".toList (Time.timeToString entry.2.duration)
  let status := XmlNode.setAttribute duration "running_status".toList
    (runningStatusNames.name entry.2.runningStatus.toNat)
  XmlNode.setBoolAttribute status "CA_mode".toList entry.2.caControlled

def eventNode (entry : Uint16 × Event) : XmlNode :=
  .element "event".toList (eventAttributes system entry) (codec.toXML entry.2.descs)

def toXML (eit : EIT) : XmlNode :=
  .element xmlName eit.xmlAttributes (eit.events.entries.map (eventNode codec system))

/-! ### Reading -/

/-- The table id from the type and the flag. -/
def tableIdFromXML (type : UString) (actual : Bool) : Option UInt8 :=
  if type.similar "pf".toList then some (if actual then tidEitPfAct else tidEitPfOth)
  else
    (UString.toInteger 256 type).map fun index ↦
      UInt8.ofNat index + if actual then tidEitSActMin else tidEitSOthMin

def eventFromXML (node : XmlNode) : Option (Uint16 × Event) :=
  match node.getIntAttribute "event_id".toList true 65536 0 0x0000 0xFFFF,
    (node.getAttribute "start_time".toList true []).bind (Time.decode system clock),
    (node.getAttribute "duration".toList true []).bind Time.timeFromString,
    node.getIntEnumAttribute runningStatusNames "running_status".toList false 256 0,
    node.getBoolAttribute "CA_mode".toList false false, codec.fromXML node.children with
  | some id, some startTime, some duration, some status, some caControlled, some descs =>
    some (Fin.ofNat 65536 id,
      { startTime, duration, runningStatus := UInt8.ofNat status, caControlled, descs })
  | _, _, _, _, _, _ => none

def eventsFromXML (events : SortedMap Uint16 Event) :
    List XmlNode → Option (SortedMap Uint16 Event)
  | [] => some events
  | node :: nodes =>
    match eventFromXML codec system clock node with
    | some entry => eventsFromXML (events.update entry.1 fun _ ↦ entry.2) nodes
    | none => none

def fromXML (node : XmlNode) : Option EIT :=
  if node.name.similar xmlName then
    match node.getAttribute "type".toList false "pf".toList,
      node.getIntAttribute "version".toList false 256 0 0 31,
      node.getBoolAttribute "current".toList false true,
      node.getBoolAttribute "actual".toList false true,
      node.getIntAttribute "service_id".toList true 65536 0 0x0000 0xFFFF,
      node.getIntAttribute "transport_stream_id".toList true 65536 0 0x0000 0xFFFF,
      node.getIntAttribute "original_network_id".toList true 65536 0 0x00 0xFFFF,
      node.getIntAttribute "segment_last_section_number".toList true 256 0 0x00 0xFF,
      node.getIntAttribute "last_table_id".toList true 256 0 0x00 0xFF,
      node.getChildren "event".toList 0 (2 ^ 64 - 1) with
    | some type, some version, some isCurrent, some actual, some serviceId, some tsId, some onetwId,
        some segmentLast, some lastTableId, some children =>
      match tableIdFromXML type actual,
        eventsFromXML codec system clock SortedMap.empty children with
      | some tableId, some events =>
        some
          { isValid := true
            tableId
            version := UInt8.ofNat version
            isCurrent
            serviceId := Fin.ofNat 65536 serviceId
            tsId := Fin.ofNat 65536 tsId
            onetwId := Fin.ofNat 65536 onetwId
            segmentLast := UInt8.ofNat segmentLast
            lastTableId := UInt8.ofNat lastTableId
            events }
      | _, _ => none
    | _, _, _, _, _, _, _, _, _, _ => none
  else none

/-- The EIT is read back from its element. -/
def RoundTripsXml (eit : EIT) : Prop :=
  fromXML codec system clock (eit.toXML codec system) = some eit

/-- The event of an entry is read back from its element. -/
def ReadsBack (entry : Uint16 × Event) : Prop :=
  eventFromXML codec system clock (eventNode codec system entry) = some entry

/-! ### Tables which are deserialized -/

/-- The event is in the ranges of the binary syntax. -/
structure Event.IsDeserialized (event : Event) : Prop where
  startEpoch : system.unixEpoch ≤ event.startTime
  startWhole : event.startTime % 1000 = 0
  startLess : event.startTime - system.unixEpoch < Calendar.cycleLength * milliSecPerDay
  durationNonneg : 0 ≤ event.duration
  durationLess : event.duration < 2 ^ 63
  runningStatus : event.runningStatus ≤ 7

def firstDay : ℕ := 40587

/-- The start times of a table are not before 1970. -/
def StartsFrom1970 (table : BinaryTable) : Prop :=
  ∀ sect ∈ table.allSections,
    ∀ entry ∈ readAllRecords (EntryWithDescriptors.read 10) (sect.payload.drop 6),
      firstDay ≤ getUInt16 (entry.fixed.drop 2) 0

/-- The start is from 1970 on and the times are in BCD. -/
def IsCanonical (fixed : ByteBlock) : Prop :=
  (firstDay ≤ getUInt16 (fixed.drop 2) 0 ∧ getUInt16 (fixed.drop 2) 0 ≠ 0xFFFF) ∧
    (∀ offset ∈ [4, 5, 6, 7, 8, 9], isValidBCD (byteAt fixed offset) = true) ∧
    decodeBCD (byteAt fixed 4) ≤ 23 ∧ ∀ offset ∈ [5, 6, 8, 9], decodeBCD (byteAt fixed offset) ≤ 59

/-- The times of the events of a table are canonical. -/
def HasCanonicalTimes (table : BinaryTable) : Prop :=
  ∀ sect ∈ table.allSections,
    ∀ entry ∈ readAllRecords (EntryWithDescriptors.read 10) (sect.payload.drop 6),
      IsCanonical entry.fixed

/-- The events which have been deserialized so far. -/
structure IsPartial (tableId : UInt8) (eit : EIT) : Prop where
  notValid : eit.isValid = false
  tableId : eit.tableId = tableId
  events : ∀ entry ∈ eit.events.entries, entry.2.IsDeserialized system

/-- The identity and the events of a deserialized table. -/
structure IsDeserialized (eit : EIT) : Prop where
  tableIdMin : tidEitMin ≤ eit.tableId
  tableIdMax : eit.tableId ≤ tidEitMax
  version : eit.version ≤ 31
  events : ∀ entry ∈ eit.events.entries, entry.2.IsDeserialized system

variable {system}

theorem decodeBCD_le (byte : UInt8) : decodeBCD byte ≤ 165 := by
  have hhigh : (byte >>> 4).toNat ≤ 15 := by
    have hlt := byte.toNat_lt
    rw [UInt8.toNat_shiftRight, Nat.shiftRight_eq_div_pow]
    simp only [UInt8.reduceToNat, Nat.reduceMod, Nat.reducePow]
    omega
  have hlow : (byte &&& 0x0F).toNat ≤ 15 := by
    rw [UInt8.toNat_and]
    exact Nat.and_le_right
  unfold decodeBCD
  omega

theorem decodeMJD_from1970 (system : System) {mjd : ByteBlock} (hday : firstDay ≤ getUInt16 mjd 0) :
    system.unixEpoch ≤ (decodeMJD system mjd).2 ∧ (decodeMJD system mjd).2 % 1000 = 0 ∧
      (decodeMJD system mjd).2 - system.unixEpoch < Calendar.cycleLength * milliSecPerDay := by
  have hfirst : firstDay = 40587 := rfl
  have hdayLength : milliSecPerDay = 86400000 := rfl
  have hcycle : (Calendar.cycleLength : ℤ) = 146097 := rfl
  have hlast := getUInt16_lt mjd 0
  have hhours := decodeBCD_le (byteAt mjd 2)
  have hminutes := decodeBCD_le (byteAt mjd 3)
  have hseconds := decodeBCD_le (byteAt mjd 4)
  have hepochs : system.julianEpochOffset + 40587 * 86400000 = system.unixEpoch ∧
      system.unixEpoch % 1000 = 0 := by
    cases system with
    | unix => exact ⟨rfl, rfl⟩
    | windows => exact ⟨rfl, rfl⟩
  rw [hfirst] at hday
  unfold decodeMJD
  rw [hdayLength, hcycle]
  dsimp only
  split_ifs with hvalid hafter
  · exact ⟨le_rfl, hepochs.2, by omega⟩
  · dsimp only
    omega
  · exfalso
    apply hafter
    right
    cases system with
    | unix =>
      have hoffset : System.unix.julianEpochOffset = -3506716800000 := rfl
      rw [hoffset]
      omega
    | windows =>
      have hoffset : System.windows.julianEpochOffset = 8137756800000 := rfl
      rw [hoffset]
      omega

theorem isDeserialized_makeEvent {fixed : ByteBlock} (high : UInt8) (descs : DescriptorList)
    (hday : firstDay ≤ getUInt16 (fixed.drop 2) 0) :
    (makeEvent system fixed high descs).IsDeserialized system := by
  obtain ⟨hepoch, hwhole, hless⟩ := decodeMJD_from1970 system hday
  have hhours := decodeBCD_le (byteAt fixed 7)
  have hminutes := decodeBCD_le (byteAt fixed 8)
  have hseconds := decodeBCD_le (byteAt fixed 9)
  refine ⟨hepoch, hwhole, hless, ?_, ?_, ?_⟩
  · show (0 : ℤ) ≤ decodeBCD (byteAt fixed 7) * 3600 + decodeBCD (byteAt fixed 8) * 60 +
      decodeBCD (byteAt fixed 9)
    omega
  · show (decodeBCD (byteAt fixed 7) * 3600 + decodeBCD (byteAt fixed 8) * 60 +
      decodeBCD (byteAt fixed 9) : ℤ) < 2 ^ 63
    omega
  · show ((high >>> 5) &&& 0x07) ≤ 7
    rw [UInt8.le_iff_toNat_le, UInt8.toNat_and]
    exact Nat.and_le_right

variable {tableId : UInt8} {eit : EIT}

theorem IsPartial.putEvent (hpart : IsPartial system tableId eit) {entry : EntryWithDescriptors}
    (hday : firstDay ≤ getUInt16 (entry.fixed.drop 2) 0) :
    IsPartial system tableId (putEvent system eit entry) := by
  obtain ⟨hvalid, htable, hevents⟩ := hpart
  refine ⟨hvalid, htable, ?_⟩
  rintro ⟨id, event⟩ hentry
  have hfind := SortedMap.mem_entries_iff.mp hentry
  rw [EIT.putEvent, SortedMap.find?_update] at hfind
  by_cases hid : id = getWord entry.fixed 0
  · rw [if_pos hid] at hfind
    rw [← Option.some.inj hfind]
    exact isDeserialized_makeEvent _ _ hday
  · rw [if_neg hid] at hfind
    exact hevents (id, event) (SortedMap.mem_entries_iff.mpr hfind)

theorem version_le (sect : Section) : sect.version ≤ 31 := by
  unfold Section.version versionField
  split_ifs
  · rw [UInt8.le_iff_toNat_le, UInt8.toNat_and]
    exact Nat.and_le_right
  · decide

theorem IsPartial.readSection (hpart : IsPartial system tableId eit) {sect : Section}
    (hdays : ∀ entry ∈ readAllRecords (EntryWithDescriptors.read 10) (sect.payload.drop 6),
      firstDay ≤ getUInt16 (entry.fixed.drop 2) 0) :
    (∀ next, readSection system eit sect = .error next → next.isValid = false) ∧
      ∀ next, readSection system eit sect = .ok next →
        IsPartial system tableId next ∧ next.version ≤ 31 := by
  obtain ⟨hvalid, htable, hevents⟩ := hpart
  unfold EIT.readSection
  by_cases hid : sect.tableId ≠ eit.tableId
  · rw [if_pos hid]
    refine ⟨fun next h ↦ ?_, fun next h ↦ absurd h (by simp)⟩
    rw [← Except.error.inj h]
    exact hvalid
  · rw [if_neg hid]
    dsimp only
    by_cases hshort : sect.payload.length < 6
    · rw [if_pos hshort]
      refine ⟨fun next h ↦ ?_, fun next h ↦ absurd h (by simp)⟩
      rw [← Except.error.inj h]
      exact hvalid
    · rw [if_neg hshort]
      refine ⟨fun next h ↦ absurd h (by simp), fun next h ↦ ?_⟩
      rw [← Except.ok.inj h]
      have hfold : ∀ (records : List EntryWithDescriptors) (eit : EIT),
          (∀ entry ∈ records, firstDay ≤ getUInt16 (entry.fixed.drop 2) 0) →
            IsPartial system tableId eit →
              IsPartial system tableId (records.foldl (EIT.putEvent system) eit) := by
        intro records
        induction records with
        | nil => exact fun eit _ h ↦ h
        | cons entry records ih =>
          intro eit hall h
          exact ih _ (List.forall_mem_cons.mp hall).2
            (h.putEvent (hall entry List.mem_cons_self))
      refine ⟨hfold _ _ hdays ⟨hvalid, htable, hevents⟩, ?_⟩
      rw [foldl_putEvent]
      exact version_le sect

theorem IsPartial.readSections {sections : List Section} (hdays : ∀ sect ∈ sections,
      ∀ entry ∈ readAllRecords (EntryWithDescriptors.read 10) (sect.payload.drop 6),
        firstDay ≤ getUInt16 (entry.fixed.drop 2) 0) (hpart : IsPartial system tableId eit) :
    (∀ next, sections.foldlM (EIT.readSection system) eit = .error next → next.isValid = false) ∧
      ∀ next, sections.foldlM (EIT.readSection system) eit = .ok next →
        IsPartial system tableId next ∧ (eit.version ≤ 31 ∨ sections ≠ [] → next.version ≤ 31) := by
  induction sections generalizing eit with
  | nil =>
    refine ⟨fun next h ↦ absurd h (by simp [pure, Except.pure]), fun next h ↦ ?_⟩
    rw [← Except.ok.inj h]
    exact ⟨hpart, fun hversion ↦ hversion.resolve_right fun hne ↦ hne rfl⟩
  | cons sect sections ih =>
    obtain ⟨herror, hok⟩ := hpart.readSection (hdays sect List.mem_cons_self)
    rw [List.foldlM_cons]
    cases hread : EIT.readSection system eit sect with
    | error failed =>
      refine ⟨fun next h ↦ ?_, fun next h ↦ absurd h (by simp [bind, Except.bind])⟩
      rw [← Except.error.inj h]
      exact herror failed hread
    | ok read =>
      obtain ⟨hnext, hversion⟩ := hok read hread
      obtain ⟨hlast, hrest⟩ :=
        ih (List.forall_mem_cons.mp hdays).2 hnext
      refine ⟨hlast, fun next h ↦ ?_⟩
      obtain ⟨hpart, hkept⟩ := hrest next h
      exact ⟨hpart, fun _ ↦ hkept (.inl hversion)⟩

theorem isDeserialized_deserialize {table : BinaryTable} {target : EIT}
    (hsections : table.allSections ≠ []) (hdays : StartsFrom1970 table)
    (hvalid : (target.deserialize system table).isValid = true) :
    IsDeserialized system (target.deserialize system table) := by
  unfold deserialize at hvalid ⊢
  by_cases htable : ¬ table.isValid = true
  · rw [if_pos htable] at hvalid
    exact absurd hvalid Bool.false_ne_true
  · rw [if_neg htable] at hvalid ⊢
    dsimp only at hvalid ⊢
    by_cases hid : table.tableId < tidEitMin ∨ tidEitMax < table.tableId
    · rw [if_pos hid] at hvalid
      exact absurd hvalid Bool.false_ne_true
    · rw [if_neg hid] at hvalid ⊢
      have hstart : IsPartial system table.tableId { target.clear with tableId := table.tableId } :=
        ⟨rfl, rfl, fun entry hentry ↦ absurd hentry List.not_mem_nil⟩
      obtain ⟨herror, hok⟩ := hstart.readSections hdays
      cases hread : table.allSections.foldlM (EIT.readSection system)
          { target.clear with tableId := table.tableId } with
      | error failed =>
        rw [hread] at hvalid
        exact absurd (hvalid.symm.trans (herror failed hread)) (by decide)
      | ok read =>
        obtain ⟨hpart, hversion⟩ := hok read hread
        obtain ⟨hmin, hmax⟩ := not_or.mp hid
        dsimp only
        refine ⟨?_, ?_, hversion (.inr hsections), hpart.events⟩
        · rw [hpart.tableId]
          exact UInt8.not_lt.mp hmin
        · rw [hpart.tableId]
          exact UInt8.not_lt.mp hmax

/-! ### What is read back -/

variable (codec : DescriptorsCodec) (clock : LocalClock)

theorem tableIdFromXML_xmlType (hmin : tidEitMin ≤ eit.tableId) (hmax : eit.tableId ≤ tidEitMax) :
    tableIdFromXML eit.xmlType eit.isActual = some eit.tableId := by
  have hall : ∀ index < 34,
      tableIdFromXML { eventAt 0 with tableId := UInt8.ofNat (0x4E + index) }.xmlType
          { eventAt 0 with tableId := UInt8.ofNat (0x4E + index) }.isActual =
        some (UInt8.ofNat (0x4E + index)) := by
    decide +kernel
  have hlow : 0x4E ≤ eit.tableId.toNat := UInt8.le_iff_toNat_le.mp hmin
  have hhigh : eit.tableId.toNat ≤ 0x6F := UInt8.le_iff_toNat_le.mp hmax
  have hfound := hall (eit.tableId.toNat - 0x4E) (by omega)
  rw [show 0x4E + (eit.tableId.toNat - 0x4E) = eit.tableId.toNat by omega,
    UInt8.ofNat_toNat] at hfound
  exact hfound

theorem value_name {status : ℕ} (hstatus : status ≤ 7) :
    runningStatusNames.value (runningStatusNames.name status) = status := by
  have hall : ∀ status : ℕ, status < 8 →
      runningStatusNames.value (runningStatusNames.name status) = status := by
    decide +kernel
  exact hall status (by omega)

/-- An event shorter than one day is read back. -/
theorem eventFromXML_eventNode {entry : Uint16 × Event} (hevent : entry.2.IsDeserialized system)
    (hdescs : codec.fromXML (codec.toXML entry.2.descs) = some entry.2.descs) :
    (∀ read, eventFromXML codec system clock (eventNode codec system entry) = some read →
        read.1 = entry.1) ∧
      (eventFromXML codec system clock (eventNode codec system entry) = some entry ↔
        entry.2.duration < 86400 ∧ (system = .unix → clock.Keeps (entry.2.startTime / 1000))) := by
  obtain ⟨hepoch, hwhole, hless, hnonneg, hbound, hstatus⟩ := hevent
  have hid : (eventNode codec system entry).getIntAttribute "event_id".toList true 65536 0 0 65535 =
      some entry.1.val := by
    have hlt := entry.1.isLt
    exact XmlNode.getIntAttribute_hexa _ _ true 3 0 rfl hlt hlt (Nat.zero_le _) (by omega)
  have hstart : (eventNode codec system entry).getAttribute "start_time".toList true [] =
      some (Time.dateTimeToString system entry.2.startTime) := rfl
  have hduration : (eventNode codec system entry).getAttribute "duration".toList true [] =
      some (Time.timeToString entry.2.duration) := rfl
  have hstatusRead : (eventNode codec system entry).getIntEnumAttribute runningStatusNames
      "running_status".toList false 256 0 = some entry.2.runningStatus.toNat := by
    have hsmall : entry.2.runningStatus.toNat ≤ 7 := UInt8.le_iff_toNat_le.mp hstatus
    have hname : (eventNode codec system entry).getAttribute "running_status".toList false
        (UString.decimal 0) = some (runningStatusNames.name entry.2.runningStatus.toNat) := rfl
    rw [XmlNode.getIntEnumAttribute, hname]
    dsimp only
    rw [value_name hsmall, Enumeration.unknown, if_neg (by omega)]
    congr 1
    omega
  have hcontrolled : (eventNode codec system entry).getBoolAttribute "CA_mode".toList false false =
      some entry.2.caControlled :=
    XmlNode.getBoolAttribute_trueFalse _ _ false false rfl
  have hchildren : codec.fromXML (eventNode codec system entry).children = some entry.2.descs := hdescs
  have hkept := Time.decode_dateTimeToString system clock hepoch hwhole hless
  have hread : eventFromXML codec system clock (eventNode codec system entry) =
      (Time.decode system clock (Time.dateTimeToString system entry.2.startTime)).bind
        fun startTime ↦ if entry.2.duration < 86400 then some (entry.1, { entry.2 with startTime })
          else none := by
    rw [eventFromXML, hid, hstart, hduration, hstatusRead, hcontrolled, hchildren,
      Option.bind_some, Option.bind_some, Time.timeFromString_timeToString hnonneg hbound]
    cases Time.decode system clock (Time.dateTimeToString system entry.2.startTime) with
    | none => rfl
    | some startTime =>
      by_cases hday : entry.2.duration < 86400
      · rw [if_pos hday, Option.bind_some, if_pos hday]
        simp only [Fin.ofNat_val_eq_self, UInt8.ofNat_toNat]
      · rw [if_neg hday, Option.bind_some, if_neg hday]
  rw [hread]
  cases hdecoded : Time.decode system clock (Time.dateTimeToString system entry.2.startTime) with
  | none =>
    rw [hdecoded] at hkept
    refine ⟨fun read h ↦ absurd h.symm (Option.some_ne_none _), fun h ↦ absurd h.symm (Option.some_ne_none _),
      fun h ↦ absurd (hkept.mpr h.2).symm (Option.some_ne_none _)⟩
  | some startTime =>
    rw [hdecoded, Option.some.injEq] at hkept
    rw [Option.bind_some, ← hkept]
    by_cases hday : entry.2.duration < 86400
    · rw [if_pos hday]
      refine ⟨fun read h ↦ ?_, fun h ↦ ⟨hday, ?_⟩, fun h ↦ ?_⟩
      · rw [← Option.some.inj h]
      · exact congrArg (fun read : Uint16 × Event ↦ read.2.startTime) (Option.some.inj h)
      · rw [h.2]
    · rw [if_neg hday]
      exact ⟨fun read h ↦ absurd h.symm (Option.some_ne_none _),
        fun h ↦ absurd h.symm (Option.some_ne_none _), fun h ↦ absurd h.1 hday⟩

theorem eventsFromXML_map {entries : List (Uint16 × Event)} (hids : ∀ entry ∈ entries, ∀ read,
      eventFromXML codec system clock (eventNode codec system entry) = some read →
        read.1 = entry.1) (events : SortedMap Uint16 Event) {loaded : SortedMap Uint16 Event}
    (hloaded : eventsFromXML codec system clock events (entries.map (eventNode codec system)) =
      some loaded) :
    ∃ reads : List (Uint16 × Event), List.Forall₂ (fun entry read ↦ read.1 = entry.1 ∧
        eventFromXML codec system clock (eventNode codec system entry) = some read) entries reads ∧
      loaded = reads.foldl (fun events read ↦ events.update read.1 fun _ ↦ read.2) events := by
  induction entries generalizing events with
  | nil => exact ⟨[], List.Forall₂.nil, (Option.some.inj hloaded).symm⟩
  | cons entry entries ih =>
    rw [List.map_cons, eventsFromXML] at hloaded
    cases hread : eventFromXML codec system clock (eventNode codec system entry) with
    | none =>
      rw [hread] at hloaded
      exact absurd hloaded.symm (Option.some_ne_none _)
    | some read =>
      rw [hread] at hloaded
      obtain ⟨reads, hreads, hfold⟩ :=
        ih (List.forall_mem_cons.mp hids).2 _ hloaded
      exact ⟨read :: reads, List.Forall₂.cons ⟨hids entry List.mem_cons_self read hread, hread⟩ hreads,
        hfold⟩

theorem eventsFromXML_readsBack {entries : List (Uint16 × Event)}
    (hentries : ∀ entry ∈ entries, ReadsBack codec system clock entry)
    (events : SortedMap Uint16 Event) :
    eventsFromXML codec system clock events (entries.map (eventNode codec system)) =
      some (entries.foldl (fun events entry ↦ events.update entry.1 fun _ ↦ entry.2) events) := by
  induction entries generalizing events with
  | nil => rfl
  | cons entry entries ih =>
    have hentry := hentries entry List.mem_cons_self
    rw [ReadsBack] at hentry
    rw [List.map_cons, eventsFromXML, hentry, List.foldl_cons]
    exact ih (List.forall_mem_cons.mp hentries).2 _

/-- The map of events is read back if and only if each event is. -/
theorem eventsFromXML_entries_iff (events : SortedMap Uint16 Event)
    (hids : ∀ entry ∈ events.entries, ∀ read,
      eventFromXML codec system clock (eventNode codec system entry) = some read →
        read.1 = entry.1) :
    eventsFromXML codec system clock SortedMap.empty
        (events.entries.map (eventNode codec system)) = some events ↔
      ∀ entry ∈ events.entries, ReadsBack codec system clock entry := by
  constructor
  · intro hloaded
    obtain ⟨reads, hreads, hfold⟩ := eventsFromXML_map codec clock hids _ hloaded
    have hkeys : events.entries.map Prod.fst = reads.map Prod.fst :=
      List.forall₂_eq_eq_eq ▸ (List.forall₂_map_left_iff.mpr
        (List.forall₂_map_right_iff.mpr (hreads.imp fun _ _ h ↦ h.1.symm)))
    have hsorted : reads.Pairwise fun first second ↦ first.1 < second.1 := by
      rw [← List.pairwise_map (f := Prod.fst) (R := (· < ·)), ← hkeys, List.pairwise_map]
      exact events.sorted
    have hsame : events = ⟨reads, hsorted⟩ :=
      hfold.trans (SortedMap.foldl_update_entries (⟨reads, hsorted⟩ : SortedMap Uint16 Event))
    have hentries : events.entries = reads := congrArg SortedMap.entries hsame
    rw [← hentries, List.forall₂_same] at hreads
    exact fun entry hentry ↦ (hreads entry hentry).2
  · intro hentries
    rw [eventsFromXML_readsBack codec clock hentries, SortedMap.foldl_update_entries]

theorem lookup_xmlAttributes (eit : EIT) :
    let attributes := eit.xmlAttributes
    attributes.lookup "type".toList = some eit.xmlType ∧
      attributes.lookup "version".toList = some (UString.decimal eit.version.toNat) ∧
      attributes.lookup "current".toList = some (UString.trueFalse eit.isCurrent) ∧
      attributes.lookup "actual".toList = some (UString.trueFalse eit.isActual) ∧
      attributes.lookup "service_id".toList = some (UString.hexa 4 eit.serviceId.val) ∧
      attributes.lookup "transport_stream_id".toList = some (UString.hexa 4 eit.tsId.val) ∧
      attributes.lookup "original_network_id".toList = some (UString.hexa 4 eit.onetwId.val) ∧
      attributes.lookup "segment_last_section_number".toList =
        some (UString.hexa 2 eit.segmentLast.toNat) ∧
      attributes.lookup "last_table_id".toList = some (UString.hexa 2 eit.lastTableId.toNat) :=
  ⟨rfl, rfl, rfl, rfl, rfl, rfl, rfl, rfl, rfl⟩

theorem getChildren_event (eit : EIT) :
    (eit.toXML codec system).getChildren "event".toList 0 (2 ^ 64 - 1) =
      some (eit.events.entries.map (eventNode codec system)) := by
  have hall : (eit.toXML codec system).children.filter
      (fun child ↦ child.isElement && UString.similar "event".toList child.name) =
        eit.events.entries.map (eventNode codec system) := by
    refine List.filter_eq_self.mpr fun child hchild ↦ ?_
    obtain ⟨entry, -, rfl⟩ := List.mem_map.mp hchild
    rfl
  have hcount : (eit.events.entries.map (eventNode codec system)).length ≤ 2 ^ 64 - 1 := by
    have hnodup : (eit.events.entries.map Prod.fst).Nodup :=
      List.pairwise_map.mpr (eit.events.sorted.imp fun h ↦ h.ne)
    have hcard := hnodup.length_le_card
    rw [List.length_map, Fintype.card_fin] at hcard
    rw [List.length_map]
    omega
  rw [XmlNode.getChildren, if_neg (by decide)]
  simp only [hall]
  exact if_pos ⟨Nat.zero_le _, hcount⟩

theorem fromXML_toXML_iff (hvalid : eit.isValid = true) (hdeserialized : IsDeserialized system eit) :
    RoundTripsXml codec system clock eit ↔ eventsFromXML codec system clock SortedMap.empty
        (eit.events.entries.map (eventNode codec system)) = some eit.events := by
  obtain ⟨hmin, hmax, hversionLe, -⟩ := hdeserialized
  obtain ⟨htype, hversion, hcurrent, hactual, hservice, hts, honetw, hsegment, hlast⟩ :=
    lookup_xmlAttributes eit
  have hversionLe : eit.version.toNat ≤ 31 := UInt8.le_iff_toNat_le.mp hversionLe
  have hword : ∀ {attributeName : UString} {value : Uint16},
      eit.xmlAttributes.lookup (XmlNode.attributeKey attributeName) =
        some (UString.hexa 4 value.val) →
          (eit.toXML codec system).getIntAttribute attributeName true 65536 0 0 65535 =
            some value.val := by
    intro attributeName value hlookup
    have hlt := value.isLt
    exact XmlNode.getIntAttribute_hexa _ _ true 3 0 hlookup hlt hlt (Nat.zero_le _) (by omega)
  have hbyte : ∀ {attributeName : UString} {value : UInt8},
      eit.xmlAttributes.lookup (XmlNode.attributeKey attributeName) =
        some (UString.hexa 2 value.toNat) →
          (eit.toXML codec system).getIntAttribute attributeName true 256 0 0 255 =
            some value.toNat := by
    intro attributeName value hlookup
    have hlt := value.toNat_lt
    exact XmlNode.getIntAttribute_hexa _ _ true 1 0 hlookup (by omega) hlt (Nat.zero_le _)
      (by omega)
  have hsame : UString.similar xmlName xmlName = true := by decide
  have hname : (eit.toXML codec system).name.similar xmlName = true := hsame
  have htypeRead : (eit.toXML codec system).getAttribute "type".toList false "pf".toList =
      some eit.xmlType := rfl
  have hversionRead : (eit.toXML codec system).getIntAttribute "version".toList false 256 0 0 31 =
      some eit.version.toNat := by
    have hlookup : (eit.toXML codec system).attributes.lookup (XmlNode.attributeKey "version".toList) =
        some (UString.decimal eit.version.toNat) := hversion
    rw [XmlNode.getIntAttribute_decimal _ _ false 0 0 31 hlookup eit.version.toNat_lt,
      if_neg (by omega)]
  have hcurrentRead : (eit.toXML codec system).getBoolAttribute "current".toList false true =
      some eit.isCurrent := XmlNode.getBoolAttribute_trueFalse _ _ false true hcurrent
  have hactualRead : (eit.toXML codec system).getBoolAttribute "actual".toList false true =
      some eit.isActual := XmlNode.getBoolAttribute_trueFalse _ _ false true hactual
  have hserviceRead : (eit.toXML codec system).getIntAttribute "service_id".toList true 65536 0 0
      65535 = some eit.serviceId.val := hword hservice
  have htsRead : (eit.toXML codec system).getIntAttribute "transport_stream_id".toList true 65536 0 0
      65535 = some eit.tsId.val := hword hts
  have honetwRead : (eit.toXML codec system).getIntAttribute "original_network_id".toList true 65536 0
      0 65535 = some eit.onetwId.val := hword honetw
  have hsegmentRead : (eit.toXML codec system).getIntAttribute "segment_last_section_number".toList
      true 256 0 0 255 = some eit.segmentLast.toNat := hbyte hsegment
  have hlastRead : (eit.toXML codec system).getIntAttribute "last_table_id".toList true 256 0 0 255 =
      some eit.lastTableId.toNat := hbyte hlast
  rw [RoundTripsXml, fromXML, if_pos hname, htypeRead, hversionRead, hcurrentRead, hactualRead,
    hserviceRead, htsRead, honetwRead, hsegmentRead, hlastRead, getChildren_event]
  dsimp only
  rw [tableIdFromXML_xmlType hmin hmax]
  cases eventsFromXML codec system clock SortedMap.empty
      (eit.events.entries.map (eventNode codec system)) with
  | none =>
    exact ⟨fun h ↦ absurd h.symm (Option.some_ne_none _),
      fun h ↦ absurd h.symm (Option.some_ne_none _)⟩
  | some events =>
    dsimp only
    rw [Option.some.injEq, Option.some.injEq]
    constructor
    · intro h
      exact congrArg EIT.events h
    · rintro rfl
      obtain ⟨isValid, tableId, version, isCurrent, serviceId, tsId, onetwId, segmentLast,
        lastTableId, events⟩ := eit
      obtain rfl : isValid = true := hvalid
      simp only [Fin.ofNat_val_eq_self, UInt8.ofNat_toNat]

/-- Assumes: start times from 1970 on, and descriptors which are kept. A deserialized table is read
back if and only if its events are shorter than one day and the local clock keeps their start times.
-/
theorem roundTripsXml_iff_lasts {table : BinaryTable} {target : EIT} (hsections : table.allSections ≠ [])
    (hdays : StartsFrom1970 table) (hvalid : (target.deserialize system table).isValid = true)
    (hdescs : ∀ entry ∈ (target.deserialize system table).events.entries,
      codec.fromXML (codec.toXML entry.2.descs) = some entry.2.descs) :
    RoundTripsXml codec system clock (target.deserialize system table) ↔
      ∀ entry ∈ (target.deserialize system table).events.entries, entry.2.duration < 86400 ∧
          (system = .unix → clock.Keeps (entry.2.startTime / 1000)) := by
  have hdeserialized := isDeserialized_deserialize hsections hdays hvalid
  have hevents := fun entry hentry ↦ eventFromXML_eventNode codec clock
    (hdeserialized.events entry hentry) (hdescs entry hentry)
  rw [fromXML_toXML_iff codec clock hvalid hdeserialized,
    eventsFromXML_entries_iff codec clock _ fun entry hentry ↦ (hevents entry hentry).1]
  exact forall₂_congr fun entry hentry ↦ (hevents entry hentry).2

def fixedClock (offset : ℤ) : LocalClock :=
  { offset := fun _ ↦ offset
    mktime := fun seconds ↦ seconds - offset
    currentYear := 2019 }

def noDescriptors : DescriptorsCodec :=
  { toXML := fun _ ↦ []
    fromXML := fun _ ↦ some [] }

/-- An event on 1 January 2020 at noon, of some duration. -/
def eventLasting (duration : ℤ) : EIT :=
  { eventAt 0 with
    events := SortedMap.empty.update 4 fun _ ↦
      { startTime := 1577880000000, duration, runningStatus := 7, caControlled := true, descs := [] } }

def tableLasting (duration : ℤ) : BinaryTable :=
  BinaryTable.ofPayloads (eventLasting duration).header
    [SectionWriter.payloadOf (eventLasting duration).constantPart
      ((eventLasting duration).events.entries.map (eventEntry .unix))]

/-- An event of two hours is read back, one hour east of UTC. -/
theorem roundTripsXml_two_hours :
    RoundTripsXml noDescriptors .unix (fixedClock 3600)
      ((eventAt 0).deserialize .unix (tableLasting 7200)) := by
  have hevents : ((eventAt 0).deserialize .unix (tableLasting 7200)).events.entries =
      (eventLasting 7200).events.entries := by decide +kernel
  refine (@roundTripsXml_iff_lasts .unix noDescriptors (fixedClock 3600) (tableLasting 7200) (eventAt 0)
    (by decide +kernel) ?_ (by decide +kernel) ?_).mpr ?_
  · unfold StartsFrom1970
    decide +kernel
  · intro entry hentry
    rw [hevents] at hentry
    rw [List.mem_singleton.mp hentry]
    rfl
  · intro entry hentry
    rw [hevents] at hentry
    rw [List.mem_singleton.mp hentry]
    refine ⟨by decide, fun _ ↦ ⟨?_, ?_, ?_⟩⟩ <;> decide

/-- An event of 24 hours is not read back. -/
theorem not_roundTripsXml_of_day :
    ¬ ∀ codec system clock table (target : EIT), table.isValid = true → HasCanonicalTimes table →
      (target.deserialize system table).isValid = true →
        (∀ entry ∈ (target.deserialize system table).events.entries,
          codec.fromXML (codec.toXML entry.2.descs) = some entry.2.descs) →
            RoundTripsXml codec system clock (target.deserialize system table) := by
  intro hlaw
  have hevents : ((eventAt 0).deserialize .unix (tableLasting 86400)).events.entries =
      (eventLasting 86400).events.entries := by decide +kernel
  have hcanonical : HasCanonicalTimes (tableLasting 86400) := by
    unfold HasCanonicalTimes IsCanonical
    decide +kernel
  have hread := hlaw noDescriptors .unix (fixedClock 0) (tableLasting 86400) (eventAt 0)
    (by decide +kernel) hcanonical (by decide +kernel) (fun entry hentry ↦ by
      rw [hevents] at hentry
      rw [List.mem_singleton.mp hentry]
      rfl)
  unfold RoundTripsXml at hread
  exact absurd hread (by decide +kernel)

end EIT

end TSDuck
