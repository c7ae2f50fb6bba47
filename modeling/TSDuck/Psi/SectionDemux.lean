import TSDuck.Mpeg.TransportPacket
import TSDuck.Psi.BinaryTable

/-!
# The section demux

`SectionDemux` extracts sections from the packets it is fed with, and collects them in tables.

The handlers of the application are functions on a state of the application. They return what they
ask the demux: to reset itself or to reset a PID, which is delayed until the end of the handlers
when it concerns the PID that is being analyzed. A demux reports its calls of the handlers, and the
table id, extension and version of every long section that it compares with a table in progress.

Scope. A context which does not exist in the maps of the code is here the context with which the
code would create it.
-/

namespace TSDuck

/-- A table id, with its extension for a long section. -/
structure ETID where
  isLong : Bool
  tid : UInt8
  tidExt : ℕ
  deriving DecidableEq

/-- Analysis context of one table id and extension on one PID. -/
structure ETIDContext where
  notified : Bool
  version : UInt8
  sectExpected : ℕ
  sectReceived : ℕ
  sects : List (Option Section)
  deriving DecidableEq

/-- Analysis context of one PID. -/
structure PIDContext where
  continuity : UInt8
  sync : Bool
  ts : ByteBlock
  tids : ETID → ETIDContext
  pusiPktIndex : ℕ

/-- Error counters of a demux. -/
structure DemuxStatus where
  invalidTs : ℕ
  discontinuities : ℕ
  scrambled : ℕ
  invSectLength : ℕ
  invSectIndex : ℕ
  wrongCrc : ℕ
  isNext : ℕ
  deriving DecidableEq, Repr

/-- What a handler asks the demux. -/
inductive DemuxRequest
  | reset
  | resetPID (pid : ℕ)
  deriving DecidableEq

structure DemuxHandlers (State : Type) where
  handleTable : Option (State → BinaryTable → State × List DemuxRequest)
  handleSection : Option (State → Section → State × List DemuxRequest)

/-- What a demux reports. -/
inductive DemuxEvent
  | seen (pid : ℕ) (etid : ETID) (version : UInt8)
  | sect (sect : Section)
  | table (pid : ℕ) (etid : ETID) (table : BinaryTable)
  deriving DecidableEq

/-- A demux, with the application that handles its sections and tables. -/
structure SectionDemux (State : Type) where
  pidFilter : ℕ → Bool
  getCurrent : Bool
  getNext : Bool
  packetCount : ℕ
  pids : ℕ → PIDContext
  status : DemuxStatus
  application : State

namespace ETIDContext

def new : ETIDContext :=
  { notified := false, version := 0, sectExpected := 0, sectReceived := 0, sects := [] }

def init (version : UInt8) (lastSection : ℕ) : ETIDContext :=
  { notified := false, version, sectExpected := lastSection + 1, sectReceived := 0,
    sects := List.replicate (lastSection + 1) none }

def build (context : ETIDContext) : BinaryTable :=
  context.sects.foldl (fun table sect ↦ (table.addSection sect true true).2) .empty

/-- Notifies a complete table, or forces it. -/
def notify (context : ETIDContext) (hasHandler force : Bool) :
    ETIDContext × Option BinaryTable :=
  if context.notified = false ∧ (context.sectReceived = context.sectExpected ∨ force = true) ∧
      hasHandler = true then
    let table := if force then context.build.packSections.2 else context.build
    if table.isValid then ({ context with notified := true }, some table) else (context, none)
  else (context, none)

/-- Another version than the table in progress, or no table in progress. -/
def Restarts (context : ETIDContext) (version : UInt8) : Prop :=
  context.sectExpected = 0 ∨ context.version ≠ version

instance (context : ETIDContext) (version : UInt8) : Decidable (context.Restarts version) :=
  inferInstanceAs (Decidable (_ ∨ _))

/-- The header is compared with the table in progress. -/
def compareHeader (context : ETIDContext) (isLong : Bool) (version : UInt8) (lastSection : ℕ) :
    ETIDContext :=
  if isLong = false ∨ context.Restarts version then init version lastSection else context

def save (context : ETIDContext) (number : ℕ) (sect : Section) : ETIDContext :=
  { context with
    sects := context.sects.set number (some sect)
    sectReceived := context.sectReceived + 1 }

end ETIDContext

/-! ### The packets of a PID -/

namespace PIDContext

def new : PIDContext :=
  { continuity := 0, sync := false, ts := [], tids := fun _ ↦ .new, pusiPktIndex := 0 }

def syncLost (context : PIDContext) : PIDContext :=
  { context with sync := false, ts := [] }

def setTable (context : PIDContext) (etid : ETID) (table : ETIDContext) : PIDContext :=
  { context with tids := Function.update context.tids etid table }

end PIDContext

namespace TSPacket

def startsPES (pkt : TSPacket) : Bool :=
  pkt.getHeaderSize + 3 ≤ pktSize && byteAt pkt.bytes pkt.getHeaderSize == 0x00 &&
    byteAt pkt.bytes (pkt.getHeaderSize + 1) == 0x00 &&
      byteAt pkt.bytes (pkt.getHeaderSize + 2) == 0x01

/-- The payload after the pointer field. -/
def sectionData (pkt : TSPacket) : ByteBlock :=
  pkt.bytes.drop (pkt.getHeaderSize + if pkt.getPUSI then 1 else 0)

def pointerField (pkt : TSPacket) : ℕ :=
  (byteAt pkt.bytes pkt.getHeaderSize).toNat

end TSPacket

namespace SectionDemux

variable {State : Type}

def new (pidFilter : ℕ → Bool) (application : State) : SectionDemux State :=
  { pidFilter
    getCurrent := true
    getNext := false
    packetCount := 0
    pids := fun _ ↦ .new
    status :=
      { invalidTs := 0, discontinuities := 0, scrambled := 0, invSectLength := 0,
        invSectIndex := 0, wrongCrc := 0, isNext := 0 }
    application }

def setPID (demux : SectionDemux State) (pid : ℕ) (context : PIDContext) : SectionDemux State :=
  { demux with pids := Function.update demux.pids pid context }

def setTable (demux : SectionDemux State) (pid : ℕ) (etid : ETID) (table : ETIDContext) :
    SectionDemux State :=
  demux.setPID pid ((demux.pids pid).setTable etid table)

def immediateReset (demux : SectionDemux State) : SectionDemux State :=
  { demux with pids := fun _ ↦ .new }

def immediateResetPID (demux : SectionDemux State) (pid : ℕ) : SectionDemux State :=
  demux.setPID pid .new

/-- What the handlers have asked; tells if the PID was reset. -/
def serve (demux : SectionDemux State) (pid : ℕ) (requests : List DemuxRequest) :
    SectionDemux State × Bool :=
  let others := requests.foldl
    (fun current request ↦
      match request with
      | .resetPID other => if other = pid then current else current.immediateResetPID other
      | .reset => current)
    demux
  let pidReset := if .resetPID pid ∈ requests then others.immediateResetPID pid else others
  let reset := if .reset ∈ requests then pidReset.immediateReset else pidReset
  (reset, decide (.resetPID pid ∈ requests ∨ .reset ∈ requests))

/-! ### One section -/

structure Found where
  data : ByteBlock
  length : ℕ
  isComplete : Bool
  firstPkt : ℕ

namespace Found

variable (found : Found)

def isLong : Bool :=
  found.isComplete && hasLongHeader found.data

def etid : ETID :=
  if found.isLong then
    { isLong := true, tid := byteAt found.data 0, tidExt := getUInt16 found.data 3 }
  else { isLong := false, tid := byteAt found.data 0, tidExt := 0 }

def version : UInt8 :=
  if found.isLong then versionField found.data else 0

def isNext : Bool :=
  found.isLong && (byteAt found.data 5 &&& 0x01) == 0

def sectionNumber : ℕ :=
  if found.isLong then (byteAt found.data 6).toNat else 0

def lastSectionNumber : ℕ :=
  if found.isLong then (byteAt found.data 7).toNat else 0

/-- The section is not beyond the last one of its table. -/
def IndexInRange : Prop :=
  found.sectionNumber ≤ found.lastSectionNumber

instance : Decidable found.IndexInRange :=
  inferInstanceAs (Decidable (_ ≤ _))

/-- The section object, if the bytes are valid. -/
def toSection (pid packetCount : ℕ) : Option Section :=
  (Section.ofContent (found.data.take found.length) pid .check).map fun sect ↦
    { sect with firstPkt := found.firstPkt, lastPkt := packetCount }

end Found

/-- A complete section of the table, which is not filtered. -/
def IsEligible (demux : SectionDemux State) (found : Found) : Prop :=
  found.isComplete = true ∧ found.IndexInRange ∧
    (if found.isNext then demux.getNext else demux.getCurrent) = true

instance (demux : SectionDemux State) (found : Found) : Decidable (demux.IsEligible found) :=
  inferInstanceAs (Decidable (_ ∧ _ ∧ _))

def countHeader (demux : SectionDemux State) (found : Found) : SectionDemux State :=
  { demux with
    status :=
      { demux.status with
        invSectIndex :=
          demux.status.invSectIndex + if found.IndexInRange then 0 else 1
        isNext :=
          demux.status.isNext + if found.isNext ∧ demux.getNext = false then 1 else 0 } }

/-- Counts a section that does not announce as many sections as its table. -/
def countIndex (demux : SectionDemux State) : SectionDemux State :=
  { demux with status := { demux.status with invSectIndex := demux.status.invSectIndex + 1 } }

def countCrc (demux : SectionDemux State) : SectionDemux State :=
  { demux with status := { demux.status with wrongCrc := demux.status.wrongCrc + 1 } }

variable (handlers : DemuxHandlers State)

def callSection (demux : SectionDemux State) (sect : Section) :
    SectionDemux State × List DemuxEvent × List DemuxRequest :=
  match handlers.handleSection with
  | none => (demux, [], [])
  | some handle =>
    let (application, requests) := handle demux.application sect
    ({ demux with application }, [.sect sect], requests)

def callTable (demux : SectionDemux State) (pid : ℕ) (etid : ETID) (table : Option BinaryTable) :
    SectionDemux State × List DemuxEvent × List DemuxRequest :=
  match table, handlers.handleTable with
  | some table, some handle =>
    let (application, requests) := handle demux.application table
    ({ demux with application }, [.table pid etid table], requests)
  | _, _ => (demux, [], [])

/-- Saves a section and notifies a complete table. -/
def saveSection (demux : SectionDemux State) (pid : ℕ) (etid : ETID) (number : ℕ)
    (sect : Section) : SectionDemux State × List DemuxEvent × List DemuxRequest :=
  let table := (demux.pids pid).tids etid
  if table.sects.getD number none = none then
    let (saved, complete) := (table.save number sect).notify handlers.handleTable.isSome false
    callTable handlers (demux.setTable pid etid saved) pid etid complete
  else (demux, [], [])

def deliver (demux : SectionDemux State) (pid : ℕ) (etid : ETID) (number : ℕ) (sect : Section) :
    SectionDemux State × List DemuxEvent × Bool :=
  let (called, events, requests) := demux.callSection handlers sect
  let (saved, more, others) := called.saveSection handlers pid etid number sect
  let (served, wasReset) := saved.serve pid (requests ++ others)
  (served, events ++ more, wasReset)

/-- The analysis of an eligible section in its context. -/
def analyzeContent (demux : SectionDemux State) (pid : ℕ) (found : Found) :
    SectionDemux State × List DemuxEvent × Bool :=
  let table := (demux.pids pid).tids found.etid
  if found.lastSectionNumber + 1 ≠ table.sectExpected then (demux.countIndex, [], false)
  else if handlers.handleSection.isSome ∨ table.sects.getD found.sectionNumber none = none then
    match found.toSection pid demux.packetCount with
    | none => (demux.countCrc, [], false)
    | some sect => demux.deliver handlers pid found.etid found.sectionNumber sect
  else (demux, [], false)

def openTable (demux : SectionDemux State) (pid : ℕ) (found : Found) : SectionDemux State :=
  demux.setTable pid found.etid
    (((demux.pids pid).tids found.etid).compareHeader found.isLong found.version found.lastSectionNumber)

/-- The analysis of a section. Tells if the PID was reset. -/
def analyze (demux : SectionDemux State) (pid : ℕ) (found : Found) :
    SectionDemux State × List DemuxEvent × Bool :=
  let counted := demux.countHeader found
  if demux.IsEligible found then
    let (analyzed, events, wasReset) :=
      (counted.openTable pid found).analyzeContent handlers pid found
    (analyzed, (if found.isLong then [.seen pid found.etid found.version] else []) ++ events,
      wasReset)
  else (counted, [], false)

/-- The length in the header of a section is not one of a section. -/
def InvalidLength (data : ByteBlock) : Prop :=
  maxPrivateSectionSize < announcedSize data ∨ announcedSize data < minShortSectionSize ∨
    (hasLongHeader data = true ∧ announcedSize data < minLongSectionSize)

instance (data : ByteBlock) : Decidable (InvalidLength data) :=
  inferInstanceAs (Decidable (_ ∨ _ ∨ _))

def loseLength (demux : SectionDemux State) (pid : ℕ) : SectionDemux State :=
  { demux.setPID pid (demux.pids pid).syncLost with
    status := { demux.status with invSectLength := demux.status.invSectLength + 1 } }

def keep (demux : SectionDemux State) (pid : ℕ) (data : ByteBlock) : SectionDemux State :=
  demux.setPID pid { demux.pids pid with ts := data }

def findSection (data : ByteBlock) (toPusi firstPkt : ℕ) : Found :=
  if 0 < toPusi ∧ toPusi < announcedSize data then
    { data, length := toPusi, isComplete := false, firstPkt }
  else { data, length := announcedSize data, isComplete := true, firstPkt }

def skipStuffing (data : ByteBlock) : ByteBlock :=
  if data.head? = some 0xFF then [] else data

/-- The loop on the complete sections of a PID. -/
def collect (pid : ℕ) : ℕ → SectionDemux State → ByteBlock → ℕ → ℕ →
    SectionDemux State × List DemuxEvent
  | 0, demux, data, _, _ => (demux.keep pid data, [])
  | turns + 1, demux, data, toPusi, firstPkt =>
    if data.length < 3 then (demux.keep pid data, [])
    else if InvalidLength data then (demux.loseLength pid, [])
    else if data.length < announcedSize data then (demux.keep pid data, [])
    else
      let found := findSection data toPusi firstPkt
      let (analyzed, events, wasReset) := demux.analyze handlers pid found
      if wasReset then (analyzed, events)
      else
        let (last, later) :=
          collect pid turns analyzed (skipStuffing (data.drop found.length)) (toPusi - found.length)
            analyzed.packetCount
        (last, events ++ later)

/-! ### One packet -/

/-- The first part of the analysis. -/
structure Accepted (State : Type) where
  demux : SectionDemux State
  data : Option ByteBlock
  pointer : ℕ
  firstPkt : ℕ

def refused (demux : SectionDemux State) : Accepted State :=
  { demux, data := none, pointer := 0, firstPkt := 0 }

def lose (demux : SectionDemux State) (pid : ℕ) : SectionDemux State :=
  demux.setPID pid (demux.pids pid).syncLost

def follow (demux : SectionDemux State) (pkt : TSPacket) : SectionDemux State :=
  let context := demux.pids pkt.getPID
  if context.sync = true ∧ pkt.getCC.toNat ≠ (context.continuity.toNat + 1) % ccMax then
    { demux.setPID pkt.getPID { context.syncLost with continuity := pkt.getCC } with
      status := { demux.status with discontinuities := demux.status.discontinuities + 1 } }
  else demux.setPID pkt.getPID { context with continuity := pkt.getCC }

/-- A payload is accepted in a synchronous PID. -/
def acceptPayload (demux : SectionDemux State) (pkt : TSPacket) : Accepted State :=
  let context := demux.pids pkt.getPID
  if pkt.getPUSI then
    let marked := demux.setPID pkt.getPID { context with pusiPktIndex := demux.packetCount }
    if pkt.startsPES then refused (marked.lose pkt.getPID)
    else if pkt.sectionData.length ≤ pkt.pointerField then refused (marked.lose pkt.getPID)
    else
      let firstPkt := if pkt.pointerField = 0 then demux.packetCount else context.pusiPktIndex
      if context.sync then
        { demux := marked, data := some pkt.sectionData, pointer := pkt.pointerField, firstPkt }
      else
        { demux := marked.setPID pkt.getPID
            { context with pusiPktIndex := demux.packetCount, sync := true }
          data := some (pkt.sectionData.drop pkt.pointerField), pointer := 0, firstPkt }
  else if context.sync then
    { demux, data := some pkt.sectionData, pointer := 0, firstPkt := context.pusiPktIndex }
  else refused demux

def accept (demux : SectionDemux State) (pkt : TSPacket) : Accepted State :=
  if pkt.hasValidSync = false then
    refused { demux with
      status := { demux.status with invalidTs := demux.status.invalidTs + 1 } }
  else if pkt.getScrambling ≠ 0 then
    refused { demux.lose pkt.getPID with
      status := { demux.status with scrambled := demux.status.scrambled + 1 } }
  else if (demux.pids pkt.getPID).sync = true ∧ pkt.getCC = (demux.pids pkt.getPID).continuity then
    refused demux
  else
    let followed := demux.follow pkt
    if pkt.hasPayload = false ∨ pktSize ≤ pkt.getHeaderSize then refused followed
    else followed.acceptPayload pkt

def processPacket (demux : SectionDemux State) (pkt : TSPacket) :
    SectionDemux State × List DemuxEvent :=
  let accepted := demux.accept pkt
  match accepted.data with
  | none => (accepted.demux, [])
  | some data =>
    let ts := (accepted.demux.pids pkt.getPID).ts ++ data
    let toPusi := if pkt.getPUSI then ts.length - data.length + accepted.pointer else 0
    collect handlers pkt.getPID ts.length accepted.demux ts toPusi accepted.firstPkt

def feedPacket (demux : SectionDemux State) (pkt : TSPacket) :
    SectionDemux State × List DemuxEvent :=
  let (processed, events) :=
    if demux.pidFilter pkt.getPID then demux.processPacket handlers pkt else (demux, [])
  ({ processed with packetCount := processed.packetCount + 1 }, events)

/-- A machine that reports what the demux does. -/
def machine : Machine (SectionDemux State) TSPacket DemuxEvent where
  step demux pkt := some (demux.feedPacket handlers pkt)

/-- A complete section is inside its block. -/
def Found.IsWellFormed (found : Found) : Prop :=
  found.isComplete = true → ¬ InvalidLength found.data ∧
    found.length = announcedSize found.data ∧ found.length ≤ found.data.length

theorem isWellFormed_findSection {data : ByteBlock} (hvalid : ¬ InvalidLength data)
    (hlength : announcedSize data ≤ data.length) (toPusi firstPkt : ℕ) :
    (findSection data toPusi firstPkt).IsWellFormed := by
  unfold findSection Found.IsWellFormed
  split_ifs
  · nofun
  · exact fun _ ↦ ⟨hvalid, rfl, hlength⟩

theorem length_findSection (data : ByteBlock) (toPusi firstPkt : ℕ) :
    0 < (findSection data toPusi firstPkt).length ∧
      (findSection data toPusi firstPkt).length ≤ announcedSize data := by
  have hpos : 0 < announcedSize data := by
    unfold announcedSize shortSectionHeaderSize
    omega
  unfold findSection
  split_ifs with htruncated
  · exact ⟨htruncated.1, htruncated.2.le⟩
  · exact ⟨hpos, le_rfl⟩

/-- The section has the bytes and the fields of its header. -/
theorem Found.toSection_spec {found : Found} (hcomplete : found.isComplete = true)
    (hformed : found.IsWellFormed) {pid packetCount : ℕ} {sect : Section}
    (hsect : found.toSection pid packetCount = some sect) :
    sect.content = found.data.take found.length ∧ sect.isLongSection = found.isLong ∧
      sect.tableId = found.etid.tid ∧ sect.tableIdExtension = found.etid.tidExt ∧
        sect.version = found.version ∧ sect.sectionNumber = found.sectionNumber ∧
          sect.lastSectionNumber = found.lastSectionNumber ∧
            (found.isLong = true → crcMatches sect.content = true) := by
  obtain ⟨built, hbuilt, rfl⟩ := Option.map_eq_some_iff.mp hsect
  obtain ⟨hcontent, -, hcrc⟩ := Section.of_ofContent_check hbuilt
  obtain ⟨hvalid, hlength, -⟩ := hformed hcomplete
  have hthree : 3 ≤ found.length := by
    rw [hlength, announcedSize, shortSectionHeaderSize]
    omega
  have hbyte : ∀ offset, offset < found.length →
      byteAt (found.data.take found.length) offset = byteAt found.data offset :=
    fun offset hoffset ↦ byteAt_take _ hoffset
  have hlong : built.isLongSection = found.isLong := by
    rw [Section.isLongSection, hcontent, hasLongHeader, hbyte 1 (by omega), isLong, hcomplete,
      Bool.true_and, hasLongHeader]
  have htwelve : found.isLong = true → minLongSectionSize ≤ found.length := by
    intro his
    rw [isLong, hcomplete, Bool.true_and] at his
    by_contra hshort
    exact hvalid (Or.inr (Or.inr ⟨his, by omega⟩))
  have hheader : found.isLong = true → 8 ≤ found.length := by
    intro his
    have hsize := htwelve his
    unfold minLongSectionSize longSectionHeaderSize at hsize
    omega
  refine ⟨hcontent, hlong, ?_, ?_, ?_, ?_, ?_, ?_⟩
  · show byteAt built.content 0 = _
    rw [hcontent, hbyte 0 (by omega), etid]
    split_ifs <;> rfl
  · show (if built.isLongSection = true then getUInt16 built.content 3 else 0) = _
    rw [hlong, hcontent, etid]
    split_ifs with his
    · have height := hheader his
      exact getUInt16_congr (hbyte 3 (by omega)) (hbyte 4 (by omega))
    · rfl
  · show (if built.isLongSection = true then versionField built.content else 0) = _
    rw [hlong, hcontent, version]
    split_ifs with his
    · have height := hheader his
      rw [versionField, hbyte 5 (by omega), versionField]
    · rfl
  · show (if built.isLongSection = true then (byteAt built.content 6).toNat else 0) = _
    rw [hlong, hcontent, sectionNumber]
    split_ifs with his
    · have height := hheader his
      rw [hbyte 6 (by omega)]
    · rfl
  · show (if built.isLongSection = true then (byteAt built.content 7).toNat else 0) = _
    rw [hlong, hcontent, lastSectionNumber]
    split_ifs with his
    · have height := hheader his
      rw [hbyte 7 (by omega)]
    · rfl
  · intro his
    show crcMatches built.content = true
    rw [hcontent]
    exact hcrc (hlong.trans his)

/-! ### What the analysis of a section does -/

end SectionDemux

structure DemuxHandlers.NeverResets {State : Type} (handlers : DemuxHandlers State) : Prop where
  table : ∀ handle ∈ handlers.handleTable, ∀ state table, (handle state table).2 = []
  sect : ∀ handle ∈ handlers.handleSection, ∀ state sect, (handle state sect).2 = []

namespace SectionDemux

variable {State : Type} (handlers : DemuxHandlers State)

/-- The context after the comparison of a header. -/
def compared (demux : SectionDemux State) (pid : ℕ) (found : Found) : ETIDContext :=
  ((demux.pids pid).tids found.etid).compareHeader found.isLong found.version
    found.lastSectionNumber

def seenEvents (pid : ℕ) (found : Found) : List DemuxEvent :=
  if found.isLong then [.seen pid found.etid found.version] else []

def sectEvents (sect : Section) : List DemuxEvent :=
  if handlers.handleSection.isSome then [.sect sect] else []

def tableEvents (pid : ℕ) (etid : ETID) (table : Option BinaryTable) : List DemuxEvent :=
  if handlers.handleTable.isSome then table.toList.map (.table pid etid) else []

/-- The context with a new section, and its table. -/
def savedTable (demux : SectionDemux State) (pid : ℕ) (found : Found) (sect : Section) :
    ETIDContext × Option BinaryTable :=
  ((demux.compared pid found).save found.sectionNumber sect).notify handlers.handleTable.isSome
    false

/-- What the analysis of a section does: nothing, the comparison only, the call of the section
handler, and, for a new section, its place in the table and the call of the table handler. -/
inductive Analyzed (demux : SectionDemux State) (pid : ℕ) (found : Found) :
    ETIDContext → List DemuxEvent → Prop
  | skipped (hskip : ¬ demux.IsEligible found) :
    Analyzed demux pid found ((demux.pids pid).tids found.etid) []
  | ignored (heligible : demux.IsEligible found)
    (hignored : found.lastSectionNumber + 1 ≠ (demux.compared pid found).sectExpected ∨
      found.toSection pid demux.packetCount = none ∨ (handlers.handleSection = none ∧
          (demux.compared pid found).sects.getD found.sectionNumber none ≠ none)) :
    Analyzed demux pid found (demux.compared pid found) (seenEvents pid found)
  | known (heligible : demux.IsEligible found)
    (hindex : found.lastSectionNumber + 1 = (demux.compared pid found).sectExpected)
    (sect : Section) (hsect : found.toSection pid demux.packetCount = some sect)
    (hknown : (demux.compared pid found).sects.getD found.sectionNumber none ≠ none) :
    Analyzed demux pid found (demux.compared pid found)
      (seenEvents pid found ++ sectEvents handlers sect)
  | saved (heligible : demux.IsEligible found)
    (hindex : found.lastSectionNumber + 1 = (demux.compared pid found).sectExpected)
    (sect : Section) (hsect : found.toSection pid demux.packetCount = some sect)
    (hnew : (demux.compared pid found).sects.getD found.sectionNumber none = none) :
    Analyzed demux pid found (demux.savedTable handlers pid found sect).1
      (seenEvents pid found ++ sectEvents handlers sect ++
        tableEvents handlers pid found.etid (demux.savedTable handlers pid found sect).2)

/-- Everything but the context of one table is the same. -/
structure SameExcept (demux next : SectionDemux State) (pid : ℕ) (etid : ETID)
    (table : ETIDContext) : Prop where
  pids : next.pids = Function.update demux.pids pid ((demux.pids pid).setTable etid table)
  pidFilter : next.pidFilter = demux.pidFilter
  getCurrent : next.getCurrent = demux.getCurrent
  getNext : next.getNext = demux.getNext
  packetCount : next.packetCount = demux.packetCount

variable {handlers}

theorem serve_nil (demux : SectionDemux State) (pid : ℕ) : demux.serve pid [] = (demux, false) := by
  simp [serve]

theorem callSection_eq (hresets : handlers.NeverResets) (demux : SectionDemux State)
    (sect : Section) :
    ∃ application, demux.callSection handlers sect =
      ({ demux with application }, sectEvents handlers sect, []) := by
  unfold callSection sectEvents
  cases hsection : handlers.handleSection with
  | none => exact ⟨demux.application, rfl⟩
  | some handle =>
    refine ⟨(handle demux.application sect).1, ?_⟩
    simp [← hresets.sect handle hsection demux.application sect]

theorem callTable_eq (hresets : handlers.NeverResets) (demux : SectionDemux State) (pid : ℕ)
    (etid : ETID) (table : Option BinaryTable) :
    ∃ application, demux.callTable handlers pid etid table =
      ({ demux with application }, tableEvents handlers pid etid table, []) := by
  unfold callTable tableEvents
  cases table with
  | none => exact ⟨demux.application, by simp⟩
  | some table =>
    cases htable : handlers.handleTable with
    | none => exact ⟨demux.application, rfl⟩
    | some handle =>
      refine ⟨(handle demux.application table).1, ?_⟩
      simp [← hresets.table handle htable demux.application table]

theorem SameExcept.trans {demux middle next : SectionDemux State} {pid : ℕ} {etid : ETID}
    {table other : ETIDContext} (hfirst : demux.SameExcept middle pid etid table)
    (hsecond : middle.SameExcept next pid etid other) : demux.SameExcept next pid etid other := by
  refine ⟨?_, hsecond.pidFilter.trans hfirst.pidFilter, hsecond.getCurrent.trans hfirst.getCurrent,
    hsecond.getNext.trans hfirst.getNext, hsecond.packetCount.trans hfirst.packetCount⟩
  simp [hsecond.pids, hfirst.pids, PIDContext.setTable]

theorem saveSection_eq (hresets : handlers.NeverResets) (demux : SectionDemux State) (pid : ℕ)
    (etid : ETID) (number : ℕ) (sect : Section)
    (hnew : ((demux.pids pid).tids etid).sects.getD number none = none) :
    ∃ application, demux.saveSection handlers pid etid number sect = ({ demux.setTable pid etid
          ((((demux.pids pid).tids etid).save number sect).notify handlers.handleTable.isSome
            false).1 with application },
        tableEvents handlers pid etid
          ((((demux.pids pid).tids etid).save number sect).notify handlers.handleTable.isSome
            false).2, []) := by
  unfold saveSection
  rw [if_pos hnew]
  exact callTable_eq hresets _ pid etid _

theorem deliver_eq (hresets : handlers.NeverResets) (demux : SectionDemux State) (pid : ℕ)
    (etid : ETID) (number : ℕ) (sect : Section) {table : ETIDContext}
    (htable : (demux.pids pid).tids etid = table) :
    ∃ next, demux.deliver handlers pid etid number sect = (next, sectEvents handlers sect ++
          (if table.sects.getD number none = none then tableEvents handlers pid etid
            ((table.save number sect).notify handlers.handleTable.isSome false).2 else []),
          false) ∧
      demux.SameExcept next pid etid
        (if table.sects.getD number none = none then
          ((table.save number sect).notify handlers.handleTable.isSome false).1 else table) := by
  subst htable
  obtain ⟨application, hcalled⟩ := callSection_eq hresets demux sect
  unfold deliver
  simp only [hcalled]
  split_ifs with hnew
  · obtain ⟨after, hsaved⟩ :=
      saveSection_eq hresets { demux with application } pid etid number sect hnew
    simp only [hsaved, List.append_nil, serve_nil]
    exact ⟨_, rfl, rfl, rfl, rfl, rfl, rfl⟩
  · have hsaved : ({ demux with application } : SectionDemux State).saveSection handlers pid etid
        number sect = ({ demux with application }, [], []) := if_neg hnew
    simp only [hsaved, List.append_nil, serve_nil]
    refine ⟨_, rfl, ?_, rfl, rfl, rfl, rfl⟩
    simp [PIDContext.setTable]

/-- The analysis of a section without any request to reset. -/
theorem analyze_spec (hresets : handlers.NeverResets) (demux : SectionDemux State) (pid : ℕ)
    (found : Found) :
    ∃ next events table, demux.analyze handlers pid found = (next, events, false) ∧
      demux.SameExcept next pid found.etid table ∧
        demux.Analyzed handlers pid found table events := by
  by_cases heligible : demux.IsEligible found
  · obtain ⟨opened, hopened⟩ : ∃ opened, opened = (demux.countHeader found).openTable pid found :=
      ⟨_, rfl⟩
    have hopen : demux.SameExcept opened pid found.etid (demux.compared pid found) := by
      rw [hopened]
      exact ⟨rfl, rfl, rfl, rfl, rfl⟩
    have htable : (opened.pids pid).tids found.etid = demux.compared pid found := by
      simp [hopen.pids, PIDContext.setTable]
    have hanalyze : ∀ {next : SectionDemux State} {events : List DemuxEvent},
        opened.analyzeContent handlers pid found = (next, events, false) →
          demux.analyze handlers pid found = (next, seenEvents pid found ++ events, false) := by
      intro next events hcontent
      unfold analyze
      rw [if_pos heligible, ← hopened]
      simp only [hcontent]
      rfl
    have hquiet : ∀ next : SectionDemux State, opened.analyzeContent handlers pid found =
        (next, [], false) → next.pids = opened.pids → next.pidFilter = opened.pidFilter →
          next.getCurrent = opened.getCurrent → next.getNext = opened.getNext →
            next.packetCount = opened.packetCount →
              demux.analyze handlers pid found = (next, seenEvents pid found, false) ∧
                demux.SameExcept next pid found.etid (demux.compared pid found) := by
      intro next hcontent hpids hfilter hcurrent hnext hcount
      refine ⟨by simpa using hanalyze hcontent, hpids.trans hopen.pids,
        hfilter.trans hopen.pidFilter, hcurrent.trans hopen.getCurrent, hnext.trans hopen.getNext,
        hcount.trans hopen.packetCount⟩
    by_cases hindex : found.lastSectionNumber + 1 = (demux.compared pid found).sectExpected
    · by_cases hneeded : handlers.handleSection.isSome = true ∨
          (demux.compared pid found).sects.getD found.sectionNumber none = none
      · cases hsect : found.toSection pid demux.packetCount with
        | none =>
          obtain ⟨hresult, hsame⟩ := hquiet opened.countCrc (by
            unfold analyzeContent
            rw [htable, if_neg (not_not.mpr hindex), if_pos hneeded, hopen.packetCount, hsect])
            rfl rfl rfl rfl rfl
          exact ⟨_, _, _, hresult, hsame, .ignored heligible (Or.inr (Or.inl hsect))⟩
        | some sect =>
          obtain ⟨next, hdeliver, hnext⟩ :=
            deliver_eq hresets opened pid found.etid found.sectionNumber sect htable
          have hresult := hanalyze ((show opened.analyzeContent handlers pid found = _ by
            unfold analyzeContent
            rw [htable, if_neg (not_not.mpr hindex), if_pos hneeded, hopen.packetCount, hsect]).trans
              hdeliver)
          have hsame := hopen.trans hnext
          by_cases hnew : (demux.compared pid found).sects.getD found.sectionNumber none = none
          · rw [if_pos hnew] at hresult hsame
            rw [← List.append_assoc] at hresult
            exact ⟨_, _, _, hresult, hsame, .saved heligible hindex sect hsect hnew⟩
          · rw [if_neg hnew] at hresult hsame
            rw [List.append_nil] at hresult
            exact ⟨_, _, _, hresult, hsame, .known heligible hindex sect hsect hnew⟩
      · obtain ⟨hhandler, hknown⟩ := not_or.mp hneeded
        obtain ⟨hresult, hsame⟩ := hquiet opened (by
          unfold analyzeContent
          rw [htable, if_neg (not_not.mpr hindex), if_neg hneeded]) rfl rfl rfl rfl rfl
        exact ⟨_, _, _, hresult, hsame,
          .ignored heligible (Or.inr (Or.inr ⟨by simpa using hhandler, hknown⟩))⟩
    · obtain ⟨hresult, hsame⟩ := hquiet opened.countIndex (by
        unfold analyzeContent
        rw [htable, if_pos hindex]) rfl rfl rfl rfl rfl
      exact ⟨_, _, _, hresult, hsame, .ignored heligible (Or.inl hindex)⟩
  · refine ⟨demux.countHeader found, [], _, ?_, ⟨?_, rfl, rfl, rfl, rfl⟩, .skipped heligible⟩
    · unfold analyze
      rw [if_neg heligible]
    · simp [countHeader, PIDContext.setTable]

/-! ### What the loop does -/

theorem length_skipStuffing_drop (data : ByteBlock) {length : ℕ} (hpositive : 0 < length)
    (hdata : 0 < data.length) : (skipStuffing (data.drop length)).length < data.length := by
  unfold skipStuffing
  split_ifs
  · exact hdata
  · rw [List.length_drop]
    omega

/-- The loop on the sections of the buffer, without any request to reset. -/
theorem collect_rule (hresets : handlers.NeverResets) {pid : ℕ}
    (going : SectionDemux State → ByteBlock → ℕ → ℕ → List DemuxEvent → Prop)
    (ended : SectionDemux State → List DemuxEvent → Prop)
    (hstep : ∀ demux data toPusi firstPkt reported next events table,
      going demux data toPusi firstPkt reported → 3 ≤ data.length → ¬ InvalidLength data →
        announcedSize data ≤ data.length →
          demux.SameExcept next pid (findSection data toPusi firstPkt).etid table →
            demux.Analyzed handlers pid (findSection data toPusi firstPkt) table events → going next
                (skipStuffing (data.drop (findSection data toPusi firstPkt).length))
                (toPusi - (findSection data toPusi firstPkt).length) next.packetCount
                (reported ++ events))
    (hkeep : ∀ demux data toPusi firstPkt reported, going demux data toPusi firstPkt reported →
      data.length < 3 ∨ ¬ InvalidLength data ∧ data.length < announcedSize data →
        ended (demux.keep pid data) reported)
    (hlose : ∀ demux data toPusi firstPkt reported, going demux data toPusi firstPkt reported →
      3 ≤ data.length → InvalidLength data → ended (demux.loseLength pid) reported)
    {turns : ℕ} {demux : SectionDemux State} {data : ByteBlock} {toPusi firstPkt : ℕ}
    (reported : List DemuxEvent) (hturns : data.length ≤ turns)
    (hgoing : going demux data toPusi firstPkt reported) :
    ended (collect handlers pid turns demux data toPusi firstPkt).1
      (reported ++ (collect handlers pid turns demux data toPusi firstPkt).2) := by
  induction turns generalizing demux data toPusi firstPkt reported with
  | zero =>
    rw [collect, List.append_nil]
    exact hkeep _ _ _ _ _ hgoing (Or.inl (by omega))
  | succ turns ih =>
    unfold collect
    split_ifs with hshort hinvalid hincomplete
    · rw [List.append_nil]
      exact hkeep _ _ _ _ _ hgoing (Or.inl hshort)
    · rw [List.append_nil]
      exact hlose _ _ _ _ _ hgoing (by omega) hinvalid
    · rw [List.append_nil]
      exact hkeep _ _ _ _ _ hgoing (Or.inr ⟨hinvalid, hincomplete⟩)
    · obtain ⟨next, events, table, hanalyze, hsame, hanalyzed⟩ :=
        analyze_spec hresets demux pid (findSection data toPusi firstPkt)
      simp only [hanalyze, Bool.false_eq_true, if_false, ← List.append_assoc]
      have hlength := length_skipStuffing_drop data (length_findSection data toPusi firstPkt).1
        (show 0 < data.length by omega)
      exact ih _ (by omega) (hstep _ _ _ _ _ _ _ _ hgoing (by omega) hinvalid (by omega) hsame
        hanalyzed)

end SectionDemux

end TSDuck
