import TSDuck.Psi.EntryLoop

/-!
# Service Description Table

A service which does not fit in a section is continued in the next ones, and its descriptors are put
together again when the table is read.

`services_roundTrip` is the round trip of a valid SDT which needs at most 256 sections.
-/

namespace TSDuck

/-- The table ids of the two kinds of SDT. -/
def tidSdtAct : UInt8 := 0x42

def tidSdtOth : UInt8 := 0x46

namespace SDT

structure Service where
  eitsPresent : Bool
  eitpfPresent : Bool
  runningStatus : UInt8
  caControlled : Bool
  descs : DescriptorList
  deriving DecidableEq

end SDT

/-- A Service Description Table. -/
structure SDT where
  isValid : Bool
  tableId : UInt8
  version : UInt8
  isCurrent : Bool
  tsId : Uint16
  onetwId : Uint16
  services : SortedMap Uint16 SDT.Service
  deriving DecidableEq

namespace SDT

def header (sdt : SDT) : LongHeader :=
  { tableId := sdt.tableId
    isPrivateSection := true
    tableIdExtension := sdt.tsId
    version := sdt.version
    isCurrent := sdt.isCurrent }

def constantPart (sdt : SDT) : ByteBlock := putUInt16 sdt.onetwId.val ++ [0xFF]

/-- The fixed part of a service and its descriptors. -/
def serviceEntry (entry : Uint16 × Service) : EntryWithDescriptors :=
  { fixed := putUInt16 entry.1.val ++
      [(0xFC : UInt8) ||| (if entry.2.eitsPresent then 0x02 else 0x00) |||
        (if entry.2.eitpfPresent then 0x01 else 0x00)]
    high := (entry.2.runningStatus <<< 5) ||| (if entry.2.caControlled then 0x10 else 0x00)
    descs := entry.2.descs }

def makeService (fixed : ByteBlock) (high : UInt8) (descs : DescriptorList) : Service :=
  { eitsPresent := (byteAt fixed 2 &&& 0x02) != 0
    eitpfPresent := (byteAt fixed 2 &&& 0x01) != 0
    runningStatus := high >>> 5
    caControlled := (high &&& 0x10) != 0
    descs := descs }

def putService (sdt : SDT) (entry : EntryWithDescriptors) : SDT :=
  { sdt with
    services := sdt.services.update (getWord entry.fixed 0) fun service ↦
      makeService entry.fixed entry.high (service.elim [] Service.descs ++ entry.descs) }

def readSection (sdt : SDT) (sect : Section) : Except SDT SDT :=
  if sect.tableId ≠ sdt.tableId then .error sdt
  else
    let sdt :=
      { sdt with
        version := sect.version
        isCurrent := sect.isCurrent
        tsId := Fin.ofNat 65536 sect.tableIdExtension }
    if sect.payload.length < 3 then .error sdt
    else
      .ok ((readAllRecords (EntryWithDescriptors.read 3) (sect.payload.drop 3)).foldl putService
        { sdt with onetwId := getWord sect.payload 0 })

def clear (sdt : SDT) : SDT :=
  { sdt with isValid := false, tsId := 0, onetwId := 0, services := SortedMap.empty }

/-- Deserializes a table of one of the two kinds. -/
def deserialize (sdt : SDT) (table : BinaryTable) : SDT :=
  if ¬ table.isValid then sdt.clear
  else
    let sdt := { sdt.clear with tableId := table.tableId }
    if table.tableId ≠ tidSdtAct ∧ table.tableId ≠ tidSdtOth then sdt
    else
      match table.allSections.foldlM readSection sdt with
      | .error sdt => sdt
      | .ok sdt => { sdt with isValid := true }

/-- The identity and the services can be read back. -/
structure IsWellFormed (sdt : SDT) : Prop where
  tableId : sdt.tableId = tidSdtAct ∨ sdt.tableId = tidSdtOth
  version : sdt.version ≤ 31
  runningStatus : ∀ entry ∈ sdt.services.entries, entry.2.runningStatus ≤ 7

theorem makeService_serviceEntry {entry : Uint16 × Service} (hstatus : entry.2.runningStatus ≤ 7) :
    ((serviceEntry entry).fixed.length = 3 ∧ (serviceEntry entry).high &&& 0x0F = 0) ∧
      getWord (serviceEntry entry).fixed 0 = entry.1 ∧
        makeService (serviceEntry entry).fixed (serviceEntry entry).high
          (serviceEntry entry).descs = entry.2 := by
  obtain ⟨id, eits, eitpf, status, controlled, descs⟩ := entry
  have hflags : ∀ eits eitpf : Bool,
      ((((0xFC : UInt8) ||| (if eits then 0x02 else 0x00) ||| (if eitpf then 0x01 else 0x00)) &&&
        0x02) != 0) = eits ∧
      ((((0xFC : UInt8) ||| (if eits then 0x02 else 0x00) ||| (if eitpf then 0x01 else 0x00)) &&&
        0x01) != 0) = eitpf := by
    decide
  have hhigh : ∀ status : Fin 8, ∀ controlled : Bool,
      ((((UInt8.ofNat status) <<< 5 ||| (if controlled then 0x10 else 0x00)) &&& 0x0F) : UInt8) = 0 ∧
      ((UInt8.ofNat status) <<< 5 ||| (if controlled then 0x10 else 0x00)) >>> 5 =
        UInt8.ofNat status ∧
      ((((UInt8.ofNat status) <<< 5 ||| (if controlled then 0x10 else 0x00)) &&& 0x10) != 0) =
        controlled := by
    decide
  have hsmall : status.toNat < 8 := Nat.lt_succ_of_le (UInt8.le_iff_toNat_le.mp hstatus)
  have hread := hhigh ⟨status.toNat, hsmall⟩ controlled
  have hsame : UInt8.ofNat status.toNat = status := UInt8.ofNat_toNat
  simp only [hsame] at hread
  obtain ⟨hlow, hshift, hbit⟩ := hread
  obtain ⟨hs, hpf⟩ := hflags eits eitpf
  refine ⟨⟨rfl, hlow⟩, getWord_putUInt16 id _, ?_⟩
  show Service.mk _ _ _ _ _ = _
  rw [Service.mk.injEq]
  exact ⟨hs, hpf, hshift, hbit, rfl⟩

def withHeader (header : LongHeader) (onetwId : Uint16) (sdt : SDT) : SDT :=
  { sdt with
    version := header.version
    isCurrent := header.isCurrent
    tsId := header.tableIdExtension
    onetwId := onetwId }

theorem putService_withHeader (header : LongHeader) (onetwId : Uint16) (sdt : SDT)
    (entry : EntryWithDescriptors) :
    putService (withHeader header onetwId sdt) entry =
      withHeader header onetwId (putService sdt entry) :=
  rfl

theorem foldl_putService (sdt : SDT) (entries : List EntryWithDescriptors) :
    entries.foldl putService sdt = { sdt with
        services := entries.foldl (fun services entry ↦
          services.update (getWord entry.fixed 0) fun service ↦
            makeService entry.fixed entry.high (service.elim [] Service.descs ++ entry.descs))
          sdt.services } := by
  induction entries generalizing sdt with
  | nil => rfl
  | cons entry rest ih =>
    rw [List.foldl_cons, ih]
    rfl

/-- A section with readable services registers them. -/
theorem readSection_build {sdt source : SDT} (htable : sdt.tableId = source.tableId)
    (hversion : source.version ≤ 31) (number last : UInt8) {part : List EntryWithDescriptors}
    (hread : readAllRecords (EntryWithDescriptors.read 3)
      (part.flatMap EntryWithDescriptors.bytes) = part)
    (hsize : (SectionWriter.payloadOf source.constantPart part).length ≤ 4084) :
    readSection sdt (source.header.build number last hsize) =
      .ok (part.foldl putService (withHeader source.header source.onetwId sdt)) := by
  have hid : Fin.ofNat 65536 source.header.tableIdExtension.val =
      source.header.tableIdExtension := Fin.ofNat_val_eq_self _
  have honetw : getWord (SectionWriter.payloadOf source.constantPart part) 0 = source.onetwId :=
    getWord_putUInt16 source.onetwId ([0xFF] ++ part.flatMap EntryWithDescriptors.bytes)
  have hdrop : (SectionWriter.payloadOf source.constantPart part).drop 3 =
      part.flatMap EntryWithDescriptors.bytes := rfl
  have hlength : ¬ (SectionWriter.payloadOf source.constantPart part).length < 3 := by
    rw [SectionWriter.payloadOf, List.length_append]
    show ¬ 3 + _ < 3
    omega
  have htid : (source.header.build number last hsize).tableId = sdt.tableId := htable.symm
  unfold readSection
  rw [if_neg (not_not.mpr htid)]
  simp only [source.header.payload_build, source.header.version_build _ _ _ hversion,
    source.header.isCurrent_build _ _ _ hversion, source.header.tableIdExtension_build, hid, honetw,
    hdrop, hread]
  rw [if_neg hlength]
  rfl

/-- The SDT is rebuilt from the table which is made of the payloads. -/
theorem deserialize_ofPayloads {sdt : SDT} (hvalid : sdt.isValid = true)
    (hwellFormed : sdt.IsWellFormed) {parts : List (List EntryWithDescriptors)}
    (hlaidOut : SectionWriter.IsLaidOut sdt.constantPart
      (sdt.services.entries.map serviceEntry) parts)
    (hcount : parts.length ≤ 256) (target : SDT) :
    target.deserialize (BinaryTable.ofPayloads sdt.header
      (parts.map (SectionWriter.payloadOf sdt.constantPart))) = sdt := by
  obtain ⟨cuts, hflatten, hcuts⟩ := hlaidOut.cuts
  have hservices := fun entry hentry ↦
    makeService_serviceEntry (hwellFormed.runningStatus entry hentry)
  have hread := BinaryTable.foldlM_ofPayloads (Except SDT) sdt.header readSection
    (fun state part ↦ part.foldl putService (withHeader sdt.header sdt.onetwId state))
    (fun state ↦ state.tableId = sdt.tableId) hwellFormed.version
    (fun part hpart ↦ (hlaidOut.sizes part hpart).trans (by decide)) hcount
    (fun state part hstate ↦ by
      rw [foldl_putService]
      exact hstate)
    (fun state number last part hstate hpart hsize ↦
      readSection_build hstate hwellFormed.version number last
        (hlaidOut.readAllRecords (fun record hrecord ↦ by
          obtain ⟨entry, hentry, rfl⟩ := List.mem_map.mp hrecord
          exact (hservices entry hentry).1) hpart) hsize)
    { target.clear with tableId := sdt.tableId } rfl
  rw [foldl_parts (putService_withHeader sdt.header sdt.onetwId) (fun _ ↦ rfl) hlaidOut.nonempty] at hread
  have hmap := EntryWithDescriptors.foldl_update_cuts (fun fixed ↦ getWord fixed 0) makeService
    Service.descs (fun _ _ _ ↦ rfl) serviceEntry (fun entry hentry ↦ (hservices entry hentry).2)
    (List.Perm.refl _) hcuts
  have hrebuilt : withHeader sdt.header sdt.onetwId
      (parts.flatten.foldl putService { target.clear with tableId := sdt.tableId }) =
        { sdt with isValid := false } := by
    rw [hflatten, foldl_putService, withHeader, SDT.mk.injEq]
    exact ⟨rfl, rfl, rfl, rfl, rfl, rfl, hmap⟩
  rw [hrebuilt] at hread
  have haccepted : ¬ ¬ (BinaryTable.ofPayloads sdt.header
      (parts.map (SectionWriter.payloadOf sdt.constantPart))).isValid = true := not_not.mpr rfl
  have hknown : ¬ (sdt.tableId ≠ tidSdtAct ∧ sdt.tableId ≠ tidSdtOth) := by
    rintro ⟨hact, hoth⟩
    rcases hwellFormed.tableId with htid | htid
    · exact hact htid
    · exact hoth htid
  have htid : (BinaryTable.ofPayloads sdt.header
      (parts.map (SectionWriter.payloadOf sdt.constantPart))).tableId = sdt.tableId := rfl
  unfold deserialize
  rw [if_neg haccepted, htid]
  dsimp only
  rw [if_neg hknown]
  dsimp only at hread
  rw [hread]
  show { sdt with isValid := true } = sdt
  rw [← hvalid]

end SDT

end TSDuck
