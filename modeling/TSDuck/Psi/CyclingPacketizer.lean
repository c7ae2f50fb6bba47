import TSDuck.Library.Machine
import TSDuck.Psi.Packetizer
import Mathlib.Algebra.BigOperators.Group.List.Basic
import Mathlib.Data.List.Sort

/-!
# Cyclic packetization of sections

A cycling packetizer is a packetizer that provides its own sections, again and again.

`CyclingPacketizer.machine` has one step for each call of a client. Removing sections does not check
if the last ones that remain in the cycle are removed, and then nothing ends the cycle:
`RemovesRemaining`. `bookkeeping_iff_never_removesRemaining` states that the bookkeeping holds along
the runs that never do this, and along no other.

Scope. A stored section is a value: a client does not change a section that it has added. Counters
do not wrap upwards, and `subSize` wraps downwards as unsigned integers do.
-/

namespace TSDuck

/-- Where stuffing applies. -/
inductive StuffingPolicy
  | never
  | atEnd
  | always
  deriving DecidableEq

def packetDistance (bitrate : ℕ) (duration : ℤ) : ℕ :=
  bitrate * duration.natAbs % 2 ^ 64 / (1000 * 8 * pktSize)

def subSize (value amount : ℕ) : ℕ :=
  if amount ≤ value then value - amount else value + 2 ^ 64 - amount

theorem subSize_of_le {value amount : ℕ} (hle : amount ≤ value) :
    subSize value amount = value - amount :=
  if_pos hle

structure SectionDesc where
  sect : Section
  repetition : ℤ
  lastPacket : ℕ
  duePacket : ℕ
  lastCycle : ℕ

def SectionDesc.dueAt (desc : SectionDesc) (duePacket : ℕ) : SectionDesc :=
  { desc with duePacket }

/-- A section that is provided, and whether its cycle ends with it. -/
structure ProvidedSection where
  sect : Section
  endsCycle : Bool

/-- The private members of a cycling packetizer. -/
structure CyclingMembers where
  stuffing : StuffingPolicy
  bitrate : ℕ
  sectionCount : ℕ
  schedSections : List SectionDesc
  otherSections : List SectionDesc
  schedPackets : ℕ
  currentCycle : ℕ
  remainInCycle : ℕ
  cycleEnd : Option ℕ

namespace CyclingMembers

def stored (members : CyclingMembers) : List SectionDesc :=
  members.schedSections ++ members.otherSections

/-- One section more, before those with the same due packet. -/
def insertDue (sect : SectionDesc) (list : List SectionDesc) : List SectionDesc :=
  list.orderedInsert (fun first second ↦ first.duePacket ≤ second.duePacket) sect

def addScheduledSection (members : CyclingMembers) (sect : SectionDesc) : CyclingMembers :=
  { members with schedSections := insertDue sect members.schedSections }

def addSection (members : CyclingMembers) (packetCount : ℕ) (sect : Section)
    (repRate : ℤ) : CyclingMembers :=
  let desc : SectionDesc :=
    { sect, repetition := repRate, lastPacket := 0, duePacket := 0, lastCycle := 0 }
  let added :=
    if repRate = 0 ∨ members.bitrate = 0 then
      { members with otherSections := members.otherSections ++ [desc] }
    else
      let scheduled := members.addScheduledSection (desc.dueAt packetCount)
      { scheduled with schedPackets := scheduled.schedPackets + sect.packetCount }
  { added with
    sectionCount := added.sectionCount + 1
    remainInCycle := added.remainInCycle + 1 }

def uncount (members : CyclingMembers) (desc : SectionDesc) (scheduled : Bool) : CyclingMembers :=
  { members with
    sectionCount := subSize members.sectionCount 1
    remainInCycle :=
      if desc.lastCycle ≠ members.currentCycle then subSize members.remainInCycle 1
      else members.remainInCycle
    schedPackets :=
      if scheduled then subSize members.schedPackets desc.sect.packetCount
      else members.schedPackets }

/-- Removes the matching sections: the counters and the others. -/
def removeMatching (isMatch : Section → Bool) (scheduled : Bool) :
    CyclingMembers → List SectionDesc → CyclingMembers × List SectionDesc
  | members, [] => (members, [])
  | members, desc :: rest =>
    if isMatch desc.sect then
      removeMatching isMatch scheduled (members.uncount desc scheduled) rest
    else
      let removed := removeMatching isMatch scheduled members rest
      (removed.1, desc :: removed.2)

def removeSections (members : CyclingMembers) (isMatch : Section → Bool) : CyclingMembers :=
  let sched := removeMatching isMatch true members members.schedSections
  let other := removeMatching isMatch false { sched.1 with schedSections := sched.2 }
    members.otherSections
  { other.1 with otherSections := other.2 }

def removeAll (members : CyclingMembers) : CyclingMembers :=
  { members with
    sectionCount := 0
    remainInCycle := 0
    schedPackets := 0
    schedSections := []
    otherSections := [] }

/-- Moves a section to the list of scheduled sections. -/
def schedule (packetCount : ℕ) (members : CyclingMembers) (desc : SectionDesc) : CyclingMembers :=
  if desc.repetition = 0 then
    { members with otherSections := members.otherSections ++ [desc] }
  else
    let scheduled :=
      members.addScheduledSection (desc.dueAt (max desc.duePacket packetCount))
    { scheduled with schedPackets := scheduled.schedPackets + desc.sect.packetCount }

def reschedule (newBitrate : ℕ) (desc : SectionDesc) (members : CyclingMembers) : CyclingMembers :=
  members.addScheduledSection
    (desc.dueAt (desc.lastPacket + packetDistance newBitrate desc.repetition))

def setBitRate (members : CyclingMembers) (packetCount newBitrate : ℕ) : CyclingMembers :=
  if members.bitrate = newBitrate then members
  else if newBitrate = 0 then
    { members with
      otherSections := members.otherSections ++ members.schedSections
      schedSections := []
      schedPackets := 0
      bitrate := newBitrate }
  else if members.bitrate = 0 then
    { members.otherSections.foldl (schedule packetCount) { members with otherSections := [] } with
      bitrate := newBitrate }
  else
    { members.schedSections.foldr (reschedule newBitrate) { members with schedSections := [] } with
      bitrate := newBitrate }

/-- None has passed, or the last one a long time ago. -/
def forceUnscheduled (members : CyclingMembers) (packetCount : ℕ) : Bool :=
  match members.schedSections, members.otherSections.getLast? with
  | _ :: _, some last =>
    last.lastCycle ≠ members.currentCycle ∨
      last.lastPacket + last.sect.packetCount + members.schedPackets < packetCount
  | _, _ => false

/-- A stored section is sent: the members without it. -/
def send (members : CyclingMembers) (packetCount counter : ℕ) (desc : SectionDesc) :
    SectionDesc × CyclingMembers × Bool :=
  if desc.lastCycle ≠ members.currentCycle then
    let sent := { desc with lastPacket := packetCount, lastCycle := members.currentCycle }
    let remaining := subSize members.remainInCycle 1
    if remaining = 0 then
      (sent, { members with
          cycleEnd := some counter
          currentCycle := members.currentCycle + 1
          remainInCycle := members.sectionCount },
        true)
    else (sent, { members with remainInCycle := remaining }, false)
  else ({ desc with lastPacket := packetCount }, members, false)

def sendScheduled (members : CyclingMembers) (packetCount counter : ℕ) (desc : SectionDesc)
    (rest : List SectionDesc) : Option ProvidedSection × CyclingMembers :=
  let sent := members.send packetCount counter desc
  (some ⟨desc.sect, sent.2.2⟩, { sent.2.1 with
      schedSections := insertDue
        (sent.1.dueAt (packetCount + max 1 (packetDistance members.bitrate desc.repetition)))
        rest })

/-- Provides the first unscheduled section and moves it. -/
def sendUnscheduled (members : CyclingMembers) (packetCount counter : ℕ) :
    Option ProvidedSection × CyclingMembers :=
  match members.otherSections with
  | [] => (none, members)
  | desc :: rest =>
    let sent := members.send packetCount counter desc
    (some ⟨desc.sect, sent.2.2⟩, { sent.2.1 with otherSections := rest ++ [sent.1] })

/-- The first scheduled section if due, or the first other one. -/
def provideSection (packetCount counter : ℕ) (members : CyclingMembers) :
    Option ProvidedSection × CyclingMembers :=
  let undefined := { members with cycleEnd := none }
  match undefined.schedSections with
  | desc :: rest =>
    if undefined.forceUnscheduled packetCount = false ∧ desc.duePacket ≤ packetCount then
      undefined.sendScheduled packetCount counter desc rest
    else undefined.sendUnscheduled packetCount counter
  | [] => undefined.sendUnscheduled packetCount counter

def doStuffing (members : CyclingMembers) : Bool :=
  members.sectionCount == 0 || members.stuffing == .always ||
    (members.stuffing == .atEnd && members.remainInCycle == members.sectionCount)

def provider : SectionProvider ProvidedSection CyclingMembers where
  provideSection := provideSection
  doStuffing members := (members.doStuffing, members)

end CyclingMembers

/-- A packetizer and the sections that it provides to itself. -/
structure CyclingPacketizer where
  packetizer : Packetizer ProvidedSection
  members : CyclingMembers

namespace CyclingPacketizer

def new (pid : ℕ) (stuffing : StuffingPolicy) (bitrate : ℕ) : CyclingPacketizer where
  packetizer := .new pid
  members :=
    { stuffing, bitrate, sectionCount := 0, schedSections := [], otherSections := [],
      schedPackets := 0, currentCycle := 1, remainInCycle := 0, cycleEnd := none }

def getNextPacket (cycling : CyclingPacketizer) : PacketResult ProvidedSection CyclingMembers :=
  cycling.packetizer.getNextPacket ProvidedSection.sect (some CyclingMembers.provider)
    cycling.members

def atCycleBoundary (cycling : CyclingPacketizer) : Bool :=
  cycling.packetizer.atSectionBoundary && match cycling.members.cycleEnd with
    | none => false
    | some last => last + 1 == cycling.packetizer.sectionOutCount

/-- A call of a client. -/
inductive Call
  | addSection (sect : Section) (repRate : ℤ)
  | removeTable (tid : UInt8)
  | removeTableExtension (tid : UInt8) (tidExt : ℕ)
  | removeAll
  | reset
  | setBitRate (bitrate : ℕ)
  | setStuffingPolicy (policy : StuffingPolicy)
  | getNextPacket

def Call.isMatch : Call → Option (Section → Bool)
  | .removeTable tid => some fun sect ↦ sect.tableId == tid
  | .removeTableExtension tid tidExt =>
    some fun sect ↦ sect.tableId == tid && sect.tableIdExtension == tidExt
  | _ => none

def after (result : PacketResult ProvidedSection CyclingMembers) : CyclingPacketizer :=
  ⟨result.packetizer, result.provider⟩

def call (cycling : CyclingPacketizer) :
    Call → CyclingPacketizer × List (PacketResult ProvidedSection CyclingMembers)
  | .addSection sect repRate =>
    ({ cycling with
        members := cycling.members.addSection cycling.packetizer.packetCount sect repRate }, [])
  | .removeTable tid =>
    ({ cycling with
        members := cycling.members.removeSections fun sect ↦ sect.tableId == tid }, [])
  | .removeTableExtension tid tidExt =>
    ({ cycling with
        members := cycling.members.removeSections fun sect ↦
          sect.tableId == tid && sect.tableIdExtension == tidExt }, [])
  | .removeAll => ({ cycling with members := cycling.members.removeAll }, [])
  | .reset =>
    ({ packetizer := cycling.packetizer.reset, members := cycling.members.removeAll }, [])
  | .setBitRate bitrate =>
    ({ cycling with
        members := cycling.members.setBitRate cycling.packetizer.packetCount bitrate }, [])
  | .setStuffingPolicy policy =>
    ({ cycling with members := { cycling.members with stuffing := policy } }, [])
  | .getNextPacket => (after cycling.getNextPacket, [cycling.getNextPacket])

def machine :
    Machine CyclingPacketizer Call (PacketResult ProvidedSection CyclingMembers) where
  step cycling input := some (cycling.call input)

end CyclingPacketizer

namespace CyclingMembers

/-! ### The bookkeeping of the lists -/

def packets (list : List SectionDesc) : ℕ :=
  (list.map fun desc ↦ desc.sect.packetCount).sum

/-- What the counters say of the two lists of sections. -/
structure Bookkeeping (members : CyclingMembers) : Prop where
  sectionCount_eq : members.sectionCount = members.stored.length
  schedPackets_eq : members.schedPackets = packets members.schedSections
  sorted : members.schedSections.Pairwise fun first second ↦ first.duePacket ≤ second.duePacket
  remainInCycle_eq : members.remainInCycle =
    members.stored.countP fun desc ↦ desc.lastCycle ≠ members.currentCycle
  remain_pos : members.sectionCount ≠ 0 → 1 ≤ members.remainInCycle
  unsent : members.stored ≠ [] → ∃ desc ∈ members.stored, desc.lastCycle ≠ members.currentCycle

/-- The counters, for the cycles of the stored sections. -/
structure SectionCounts (sectionCount remainInCycle currentCycle : ℕ) (cycles : List ℕ) :
    Prop where
  count_eq : sectionCount = cycles.length
  remain_eq : remainInCycle = cycles.countP (· ≠ currentCycle)
  cycle_le : ∀ cycle ∈ cycles, cycle ≤ currentCycle
  cycle_pos : 0 < currentCycle

/-- A section remains to be sent if any is stored. -/
structure CycleCounts (sectionCount remainInCycle currentCycle : ℕ) (cycles : List ℕ) : Prop
    extends SectionCounts sectionCount remainInCycle currentCycle cycles where
  remain_pos : cycles ≠ [] → 0 < remainInCycle

structure ScheduleCounts (schedPackets : ℕ) (schedSections : List SectionDesc) : Prop where
  packets_eq : schedPackets = packets schedSections
  sorted : schedSections.Pairwise fun first second ↦ first.duePacket ≤ second.duePacket

def cycles (members : CyclingMembers) : List ℕ :=
  members.stored.map SectionDesc.lastCycle

/-- The invariant of a cycling packetizer. -/
structure Counted (members : CyclingMembers) : Prop where
  cycle : CycleCounts members.sectionCount members.remainInCycle members.currentCycle
    members.cycles
  schedule : ScheduleCounts members.schedPackets members.schedSections

theorem Counted.bookkeeping {members : CyclingMembers} (hcounted : members.Counted) :
    members.Bookkeeping := by
  obtain ⟨⟨⟨hcount, hremain, -, -⟩, hpositive⟩, hpackets, hsorted⟩ := hcounted
  have hcountP : members.remainInCycle =
      members.stored.countP fun desc ↦ desc.lastCycle ≠ members.currentCycle := by
    rw [hremain, cycles, List.countP_map]
    rfl
  refine ⟨?_, hpackets, hsorted, hcountP, fun hne ↦ hpositive fun hnil ↦ hne ?_, fun hne ↦ ?_⟩
  · rw [hcount, cycles, List.length_map]
  · rw [hcount, hnil]
    rfl
  · have hsome : 0 < members.remainInCycle := hpositive (by simpa [cycles] using hne)
    rw [hcountP, List.countP_pos_iff] at hsome
    simpa using hsome

section Counts

variable {sectionCount remainInCycle currentCycle schedPackets : ℕ} {first second : List ℕ}

theorem SectionCounts.perm (hcounts : SectionCounts sectionCount remainInCycle currentCycle first)
    (hperm : first.Perm second) :
    SectionCounts sectionCount remainInCycle currentCycle second := by
  refine ⟨?_, ?_, fun cycle hmem ↦ hcounts.cycle_le cycle (hperm.mem_iff.mpr hmem),
    hcounts.cycle_pos⟩
  · rw [hcounts.count_eq, hperm.length_eq]
  · rw [hcounts.remain_eq, hperm.countP_eq]

theorem CycleCounts.perm (hcounts : CycleCounts sectionCount remainInCycle currentCycle first)
    (hperm : first.Perm second) :
    CycleCounts sectionCount remainInCycle currentCycle second := by
  refine ⟨hcounts.toSectionCounts.perm hperm, fun hne ↦ hcounts.remain_pos fun hnil ↦ hne ?_⟩
  rw [hnil] at hperm
  exact hperm.nil_eq.symm

theorem CycleCounts.cons (hcounts : CycleCounts sectionCount remainInCycle currentCycle first) :
    CycleCounts (sectionCount + 1) (remainInCycle + 1) currentCycle (0 :: first) := by
  have hunsent : 0 ≠ currentCycle := hcounts.cycle_pos.ne
  refine ⟨⟨?_, ?_, fun cycle hmem ↦ ?_, hcounts.cycle_pos⟩, fun _ ↦ Nat.succ_pos _⟩
  · rw [hcounts.count_eq, List.length_cons]
  · simp [hcounts.remain_eq, hunsent]
  · rcases List.mem_cons.mp hmem with rfl | hold
    · exact Nat.zero_le _
    · exact hcounts.cycle_le cycle hold

theorem perm_insertDue (desc : SectionDesc) (list : List SectionDesc) :
    (insertDue desc list).Perm (desc :: list) :=
  List.perm_orderedInsert _ _ _

theorem perm_cycles_insertDue (desc : SectionDesc) (sched other : List SectionDesc) :
    (desc.lastCycle :: (sched ++ other).map SectionDesc.lastCycle).Perm
      ((insertDue desc sched ++ other).map SectionDesc.lastCycle) :=
  (((perm_insertDue desc sched).append_right other).map SectionDesc.lastCycle).symm

theorem sorted_insertDue {list : List SectionDesc}
    (hsorted : list.Pairwise fun one other ↦ one.duePacket ≤ other.duePacket)
    (desc : SectionDesc) :
    (insertDue desc list).Pairwise fun one other ↦ one.duePacket ≤ other.duePacket := by
  have : Std.Total fun one other : SectionDesc ↦ one.duePacket ≤ other.duePacket :=
    ⟨fun one other ↦ le_total one.duePacket other.duePacket⟩
  have : IsTrans SectionDesc fun one other ↦ one.duePacket ≤ other.duePacket :=
    ⟨fun _ _ _ hone hother ↦ le_trans hone hother⟩
  exact hsorted.orderedInsert desc list

theorem packets_insertDue (desc : SectionDesc) (list : List SectionDesc) :
    packets (insertDue desc list) = packets list + desc.sect.packetCount := by
  rw [packets, ((perm_insertDue desc list).map _).sum_eq, List.map_cons, List.sum_cons, packets,
    Nat.add_comm]

theorem ScheduleCounts.insertDue {list : List SectionDesc}
    (hschedule : ScheduleCounts schedPackets list) (desc : SectionDesc) :
    ScheduleCounts (schedPackets + desc.sect.packetCount) (insertDue desc list) := by
  refine ⟨?_, sorted_insertDue hschedule.sorted desc⟩
  rw [packets_insertDue, hschedule.packets_eq]

end Counts

/-! ### Adding and moving sections -/

variable {members : CyclingMembers} {desc : SectionDesc} {others : List ℕ}

theorem Counted.addSection (hcounted : members.Counted) (packetCount : ℕ) (sect : Section) (repRate : ℤ) :
    (members.addSection packetCount sect repRate).Counted := by
  unfold CyclingMembers.addSection
  dsimp only
  split_ifs with hunscheduled
  · refine ⟨hcounted.cycle.cons.perm ?_, hcounted.schedule⟩
    simp only [cycles, stored, List.map_append, List.map_cons, List.map_nil]
    rw [← List.append_assoc]
    exact (List.perm_append_singleton _ _).symm
  · refine ⟨hcounted.cycle.cons.perm ?_,
      hcounted.schedule.insertDue ⟨sect, repRate, 0, packetCount, 0⟩⟩
    exact perm_cycles_insertDue ⟨sect, repRate, 0, packetCount, 0⟩ _ _

theorem Counted.removeAll (hcounted : members.Counted) :
    members.removeAll.Counted := by
  refine ⟨⟨⟨rfl, rfl, fun cycle hmem ↦ ?_, hcounted.cycle.cycle_pos⟩, fun hne ↦ absurd rfl hne⟩,
    rfl, List.Pairwise.nil⟩
  simp [CyclingMembers.removeAll, cycles, stored] at hmem

/-- Moving sections keeps the counters and the cycles. -/
structure SameCycles (before after : CyclingMembers) (cycles : List ℕ) : Prop where
  sectionCount_eq : after.sectionCount = before.sectionCount
  remainInCycle_eq : after.remainInCycle = before.remainInCycle
  currentCycle_eq : after.currentCycle = before.currentCycle
  perm : cycles.Perm after.cycles

theorem SameCycles.counts {before after : CyclingMembers} {list : List ℕ}
    (hsame : SameCycles before after list)
    (hcounts : CycleCounts before.sectionCount before.remainInCycle before.currentCycle list) :
    CycleCounts after.sectionCount after.remainInCycle after.currentCycle after.cycles := by
  rw [hsame.sectionCount_eq, hsame.remainInCycle_eq, hsame.currentCycle_eq]
  exact hcounts.perm hsame.perm

theorem sameCycles_schedule (packetCount : ℕ) (list : List SectionDesc)
    (hschedule : ScheduleCounts members.schedPackets members.schedSections) :
    SameCycles members (list.foldl (schedule packetCount) members)
        (members.cycles ++ list.map SectionDesc.lastCycle) ∧
      ScheduleCounts (list.foldl (schedule packetCount) members).schedPackets
        (list.foldl (schedule packetCount) members).schedSections := by
  induction list generalizing members with
  | nil => exact ⟨⟨rfl, rfl, rfl, by simp⟩, hschedule⟩
  | cons desc rest ih =>
    have hstep : SameCycles members (schedule packetCount members desc)
        (members.cycles ++ [desc.lastCycle]) ∧
          ScheduleCounts (schedule packetCount members desc).schedPackets
            (schedule packetCount members desc).schedSections := by
      unfold schedule
      split_ifs with hrepetition
      · refine ⟨⟨rfl, rfl, rfl, ?_⟩, hschedule⟩
        simp [cycles, stored]
      · refine ⟨⟨rfl, rfl, rfl, (List.perm_append_singleton _ _).trans ?_⟩, ?_⟩
        · exact perm_cycles_insertDue (desc.dueAt (max desc.duePacket packetCount))
            members.schedSections members.otherSections
        · exact hschedule.insertDue (desc.dueAt (max desc.duePacket packetCount))
    obtain ⟨hsame, hcounts⟩ := hstep
    obtain ⟨hrest, hlast⟩ := ih hcounts
    refine ⟨⟨hrest.sectionCount_eq.trans hsame.sectionCount_eq,
      hrest.remainInCycle_eq.trans hsame.remainInCycle_eq,
      hrest.currentCycle_eq.trans hsame.currentCycle_eq, ?_⟩, hlast⟩
    refine List.Perm.trans ?_ hrest.perm
    rw [List.map_cons, List.append_cons]
    exact hsame.perm.append_right _

theorem sameCycles_reschedule (newBitrate : ℕ) (list : List SectionDesc)
    (hsorted : members.schedSections.Pairwise
      fun first second ↦ first.duePacket ≤ second.duePacket) :
    SameCycles members (list.foldr (reschedule newBitrate) members)
        (list.map SectionDesc.lastCycle ++ members.cycles) ∧
      (list.foldr (reschedule newBitrate) members).schedPackets = members.schedPackets ∧
      packets (list.foldr (reschedule newBitrate) members).schedSections =
        packets members.schedSections + packets list ∧
      (list.foldr (reschedule newBitrate) members).schedSections.Pairwise
        fun first second ↦ first.duePacket ≤ second.duePacket := by
  induction list with
  | nil => exact ⟨⟨rfl, rfl, rfl, by simp⟩, rfl, rfl, hsorted⟩
  | cons desc rest ih =>
    obtain ⟨hsame, hpackets, hsize, hrest⟩ := ih
    rw [List.foldr_cons]
    generalize List.foldr (reschedule newBitrate) members rest = later at *
    refine ⟨⟨hsame.sectionCount_eq, hsame.remainInCycle_eq, hsame.currentCycle_eq, ?_⟩, hpackets,
      ?_, sorted_insertDue hrest _⟩
    · refine (hsame.perm.cons desc.lastCycle).trans ?_
      exact perm_cycles_insertDue
        (desc.dueAt (desc.lastPacket + packetDistance newBitrate desc.repetition))
        later.schedSections later.otherSections
    · show packets (insertDue (desc.dueAt _) later.schedSections) = _
      rw [packets_insertDue, hsize]
      simp only [packets, List.map_cons, List.sum_cons, SectionDesc.dueAt]
      omega

theorem Counted.setBitRate (hcounted : members.Counted) (packetCount newBitrate : ℕ) :
    (members.setBitRate packetCount newBitrate).Counted := by
  obtain ⟨hcycle, hschedule⟩ := hcounted
  unfold CyclingMembers.setBitRate
  split_ifs with hsame hunknown hknown
  · exact ⟨hcycle, hschedule⟩
  · refine ⟨hcycle.perm ?_, rfl, List.Pairwise.nil⟩
    exact (List.perm_append_comm.map SectionDesc.lastCycle)
  · have hmoved : ScheduleCounts
        ({ members with otherSections := [] } : CyclingMembers).schedPackets
        ({ members with otherSections := [] } : CyclingMembers).schedSections := hschedule
    obtain ⟨hcycles, hcounts⟩ := sameCycles_schedule packetCount members.otherSections hmoved
    refine ⟨hcycles.counts ?_, hcounts⟩
    simpa [cycles, stored] using hcycle
  · have hempty : ({ members with schedSections := [] } : CyclingMembers).schedSections.Pairwise
        fun first second ↦ first.duePacket ≤ second.duePacket := List.Pairwise.nil
    obtain ⟨hcycles, hpackets, hsize, hsorted⟩ :=
      sameCycles_reschedule newBitrate members.schedSections hempty
    refine ⟨hcycles.counts ?_, hpackets.trans ?_, hsorted⟩
    · simpa [cycles, stored] using hcycle
    · refine Eq.trans ?_ hsize.symm
      show members.schedPackets = packets [] + packets members.schedSections
      rw [hschedule.packets_eq]
      simp [packets]

/-! ### Sending a section -/

theorem send_frame (members : CyclingMembers) (packetCount counter : ℕ) (desc : SectionDesc) :
    (members.send packetCount counter desc).1.sect = desc.sect ∧
      ∃ cycleEnd currentCycle remainInCycle, (members.send packetCount counter desc).2.1 =
          { members with cycleEnd, currentCycle, remainInCycle } := by
  unfold send
  dsimp only
  split_ifs
  · exact ⟨rfl, _, _, _, rfl⟩
  · exact ⟨rfl, _, _, _, rfl⟩
  · exact ⟨rfl, _, _, _, rfl⟩

/-- The counts hold after a section is sent. -/
theorem CycleCounts.send
    (hcounts : CycleCounts members.sectionCount members.remainInCycle members.currentCycle
      (desc.lastCycle :: others)) (packetCount counter : ℕ) :
    CycleCounts (members.send packetCount counter desc).2.1.sectionCount
      (members.send packetCount counter desc).2.1.remainInCycle
      (members.send packetCount counter desc).2.1.currentCycle
      ((members.send packetCount counter desc).1.lastCycle :: others) := by
  obtain ⟨⟨hcount, hremain, hcycles, hpositive⟩, hsome⟩ := hcounts
  have hothers : ∀ cycle ∈ others, cycle ≤ members.currentCycle := (List.forall_mem_cons.mp hcycles).2
  unfold CyclingMembers.send
  dsimp only
  split_ifs with hunsent hlast
  · refine ⟨⟨hcount, ?_, fun cycle hmem ↦ ?_, Nat.succ_pos _⟩, fun _ ↦ ?_⟩
    · have hall : ∀ cycle ∈ members.currentCycle :: others,
          decide (cycle ≠ members.currentCycle + 1) = true := by
        intro cycle hmem
        rcases List.mem_cons.mp hmem with rfl | hold
        · simp
        · have hle := hothers cycle hold
          simp
          omega
      show members.sectionCount = _
      rw [List.countP_eq_length.mpr hall, hcount, List.length_cons, List.length_cons]
    · show cycle ≤ members.currentCycle + 1
      rcases List.mem_cons.mp hmem with rfl | hold
      · exact Nat.le_succ _
      · exact Nat.le_succ_of_le (hothers cycle hold)
    · show 0 < members.sectionCount
      rw [hcount]
      exact Nat.succ_pos _
  · have hone : members.remainInCycle = others.countP (· ≠ members.currentCycle) + 1 := by
      rw [hremain, List.countP_cons_of_pos (by simpa using hunsent)]
    rw [hone, subSize_of_le (Nat.le_add_left 1 _), Nat.add_sub_cancel] at hlast ⊢
    refine ⟨⟨hcount, ?_, fun cycle hmem ↦ ?_, hpositive⟩, fun _ ↦ Nat.pos_of_ne_zero hlast⟩
    · rw [List.countP_cons_of_neg (by simp)]
    · rcases List.mem_cons.mp hmem with rfl | hold
      · exact le_refl _
      · exact hothers cycle hold
  · exact ⟨⟨hcount, hremain, hcycles, hpositive⟩, hsome⟩

theorem Counted.sendScheduled (hcounted : members.Counted) {rest : List SectionDesc}
    (hfirst : members.schedSections = desc :: rest) (packetCount counter : ℕ) :
    (members.sendScheduled packetCount counter desc rest).2.Counted := by
  obtain ⟨hcycle, hpackets, hsorted⟩ := hcounted
  rw [hfirst] at hpackets hsorted
  have hcounts : CycleCounts members.sectionCount members.remainInCycle members.currentCycle
      (desc.lastCycle :: (rest ++ members.otherSections).map SectionDesc.lastCycle) := by
    simpa [cycles, stored, hfirst] using hcycle
  have hsend := hcounts.send packetCount counter
  obtain ⟨hsect, cycleEnd, currentCycle, remainInCycle, hafter⟩ :=
    members.send_frame packetCount counter desc
  unfold CyclingMembers.sendScheduled
  dsimp only
  generalize members.send packetCount counter desc = sent at hsend hsect hafter ⊢
  obtain ⟨sentDesc, after, endsCycle⟩ := sent
  simp only at hsend hsect hafter ⊢
  subst hafter
  generalize packetCount + max 1 (packetDistance _ desc.repetition) = due
  refine ⟨hsend.perm ?_, ?_, sorted_insertDue (List.Pairwise.of_cons hsorted) _⟩
  · exact perm_cycles_insertDue (sentDesc.dueAt due) rest members.otherSections
  · show members.schedPackets = packets (insertDue (sentDesc.dueAt due) rest)
    rw [packets_insertDue, hpackets]
    simp only [packets, List.map_cons, List.sum_cons, SectionDesc.dueAt, hsect]
    omega

theorem Counted.sendUnscheduled (hcounted : members.Counted) (packetCount counter : ℕ) :
    (members.sendUnscheduled packetCount counter).2.Counted := by
  unfold CyclingMembers.sendUnscheduled
  split
  · exact hcounted
  · rename_i desc rest hfirst
    obtain ⟨hcycle, hschedule⟩ := hcounted
    have hcounts : CycleCounts members.sectionCount members.remainInCycle members.currentCycle
        (desc.lastCycle :: (members.schedSections ++ rest).map SectionDesc.lastCycle) := by
      refine hcycle.perm ?_
      rw [cycles, stored, hfirst]
      exact List.perm_middle.map SectionDesc.lastCycle
    have hsend := hcounts.send packetCount counter
    obtain ⟨hsect, cycleEnd, currentCycle, remainInCycle, hafter⟩ :=
      members.send_frame packetCount counter desc
    dsimp only
    generalize members.send packetCount counter desc = sent at hsend hsect hafter ⊢
    obtain ⟨sentDesc, after, endsCycle⟩ := sent
    simp only at hsend hsect hafter ⊢
    subst hafter
    refine ⟨hsend.perm ?_, hschedule⟩
    simp only [cycles, stored, ← List.append_assoc]
    exact (List.perm_append_singleton sentDesc
      (members.schedSections ++ rest)).symm.map SectionDesc.lastCycle

theorem Counted.provideSection (hcounted : members.Counted) (packetCount counter : ℕ) :
    (members.provideSection packetCount counter).2.Counted := by
  have hundefined : ({ members with cycleEnd := none } : CyclingMembers).Counted :=
    ⟨hcounted.cycle, hcounted.schedule⟩
  unfold CyclingMembers.provideSection
  dsimp only
  split
  · rename_i desc rest hfirst
    split_ifs
    · exact hundefined.sendScheduled hfirst packetCount counter
    · exact hundefined.sendUnscheduled packetCount counter
  · exact hundefined.sendUnscheduled packetCount counter

/-! ### Removing sections -/

theorem SectionCounts.uncount
    (hcounts : SectionCounts members.sectionCount members.remainInCycle members.currentCycle
      (desc.lastCycle :: others)) (scheduled : Bool) :
    SectionCounts (members.uncount desc scheduled).sectionCount
      (members.uncount desc scheduled).remainInCycle
      (members.uncount desc scheduled).currentCycle others := by
  obtain ⟨hcount, hremain, hcycles, hpositive⟩ := hcounts
  refine ⟨?_, ?_, (List.forall_mem_cons.mp hcycles).2, hpositive⟩
  · show subSize members.sectionCount 1 = others.length
    rw [hcount, List.length_cons, subSize_of_le (Nat.le_add_left 1 _), Nat.add_sub_cancel]
  · show (if desc.lastCycle ≠ members.currentCycle then subSize members.remainInCycle 1
      else members.remainInCycle) = others.countP (· ≠ members.currentCycle)
    split_ifs with hunsent
    · rw [hremain, List.countP_cons_of_pos (by simpa using hunsent),
        subSize_of_le (Nat.le_add_left 1 _), Nat.add_sub_cancel]
    · rw [hremain, List.countP_cons_of_neg (by simpa using hunsent)]

theorem removeMatching_frame (isMatch : Section → Bool) (scheduled : Bool)
    (list : List SectionDesc) (members : CyclingMembers) :
    (removeMatching isMatch scheduled members list).2 =
        list.filter (fun desc ↦ !isMatch desc.sect) ∧
      ∃ sectionCount remainInCycle schedPackets, (removeMatching isMatch scheduled members list).1 =
            { members with sectionCount, remainInCycle, schedPackets } ∧
          (scheduled = false → schedPackets = members.schedPackets) := by
  induction list generalizing members with
  | nil => exact ⟨rfl, _, _, _, rfl, fun _ ↦ rfl⟩
  | cons desc rest ih =>
    unfold removeMatching
    split_ifs with hmatch
    · obtain ⟨hkept, sectionCount, remainInCycle, schedPackets, hmembers, hsame⟩ :=
        ih (members.uncount desc scheduled)
      refine ⟨?_, sectionCount, remainInCycle, schedPackets, hmembers, fun hother ↦ ?_⟩
      · rw [hkept, List.filter_cons_of_neg (by simp [hmatch])]
      · rw [hsame hother, uncount, hother]
        rfl
    · obtain ⟨hkept, sectionCount, remainInCycle, schedPackets, hmembers, hsame⟩ := ih members
      refine ⟨?_, sectionCount, remainInCycle, schedPackets, hmembers, hsame⟩
      rw [List.filter_cons_of_pos (by simp [hmatch])]
      exact congrArg (desc :: ·) hkept

/-- The counters hold with the sections that are kept. -/
theorem SectionCounts.removeMatching (isMatch : Section → Bool) (scheduled : Bool)
    (list : List SectionDesc)
    (hcounts : SectionCounts members.sectionCount members.remainInCycle members.currentCycle
      (list.map SectionDesc.lastCycle ++ others)) :
    SectionCounts (removeMatching isMatch scheduled members list).1.sectionCount
      (removeMatching isMatch scheduled members list).1.remainInCycle
      (removeMatching isMatch scheduled members list).1.currentCycle
      ((removeMatching isMatch scheduled members list).2.map SectionDesc.lastCycle ++ others) := by
  induction list generalizing members others with
  | nil => exact hcounts
  | cons desc rest ih =>
    unfold CyclingMembers.removeMatching
    split_ifs with hmatch
    · exact ih (hcounts.uncount scheduled)
    · have hmoved := ih (hcounts.perm List.perm_middle.symm)
      exact hmoved.perm List.perm_middle

theorem packets_removeMatching (isMatch : Section → Bool) (list : List SectionDesc) {others : ℕ}
    (hpackets : members.schedPackets = packets list + others) :
    (removeMatching isMatch true members list).1.schedPackets =
      packets (removeMatching isMatch true members list).2 + others := by
  induction list generalizing members others with
  | nil => exact hpackets
  | cons desc rest ih =>
    simp only [packets, List.map_cons, List.sum_cons] at hpackets ih
    unfold removeMatching
    split_ifs with hmatch
    · apply ih
      show subSize members.schedPackets desc.sect.packetCount = _
      rw [subSize_of_le (by omega)]
      omega
    · have hkept : members.schedPackets = (rest.map fun desc ↦ desc.sect.packetCount).sum +
            (desc.sect.packetCount + others) := by omega
      simp only [packets, List.map_cons, List.sum_cons]
      rw [ih hkept]
      omega

/-- A removal keeps sections, but none that remains. -/
def RemovesRemaining (members : CyclingMembers) (isMatch : Section → Bool) : Prop :=
  (∃ desc ∈ members.stored, isMatch desc.sect = false) ∧
    ∀ desc ∈ members.stored, isMatch desc.sect = false → desc.lastCycle = members.currentCycle

/-- The counters hold for the other sections. -/
theorem Counted.removeSections_spec (hcounted : members.Counted) (isMatch : Section → Bool) :
    SectionCounts (members.removeSections isMatch).sectionCount
        (members.removeSections isMatch).remainInCycle
        (members.removeSections isMatch).currentCycle (members.removeSections isMatch).cycles ∧
      ScheduleCounts (members.removeSections isMatch).schedPackets
        (members.removeSections isMatch).schedSections ∧
      (members.removeSections isMatch).stored =
        members.stored.filter (fun desc ↦ !isMatch desc.sect) ∧
      (members.removeSections isMatch).currentCycle = members.currentCycle := by
  obtain ⟨hcycle, hpackets, hsorted⟩ := hcounted
  have hcounts : SectionCounts members.sectionCount members.remainInCycle members.currentCycle
      (members.schedSections.map SectionDesc.lastCycle ++
        members.otherSections.map SectionDesc.lastCycle) := by
    simpa [cycles, stored] using hcycle.toSectionCounts
  have hsched := hcounts.removeMatching isMatch true members.schedSections
  have hsize := packets_removeMatching isMatch members.schedSections
    (show members.schedPackets = packets members.schedSections + 0 from hpackets)
  obtain ⟨hkept, sectionCount, remainInCycle, schedPackets, hmembers, -⟩ :=
    removeMatching_frame isMatch true members.schedSections members
  unfold CyclingMembers.removeSections
  dsimp only
  generalize removeMatching isMatch true members members.schedSections = first
    at hsched hsize hkept hmembers ⊢
  obtain ⟨first, keptSched⟩ := first
  simp only at hsched hsize hkept hmembers ⊢
  subst hmembers
  have hother := SectionCounts.removeMatching isMatch false members.otherSections
    (show SectionCounts
        ({ members with
            sectionCount, remainInCycle, schedPackets, schedSections := keptSched } :
          CyclingMembers).sectionCount _ _ _ from hsched.perm List.perm_append_comm)
  obtain ⟨hkeptOther, lastCount, lastRemain, lastPackets, hlast, hsame⟩ :=
    removeMatching_frame isMatch false members.otherSections
      { members with sectionCount, remainInCycle, schedPackets, schedSections := keptSched }
  generalize removeMatching isMatch false _ members.otherSections = last
    at hother hkeptOther hlast ⊢
  obtain ⟨last, keptOther⟩ := last
  simp only at hother hkeptOther hlast ⊢
  subst hlast
  refine ⟨?_, ⟨?_, ?_⟩, ?_, rfl⟩
  · refine hother.perm ?_
    rw [cycles, stored, List.map_append]
    exact List.perm_append_comm
  · show lastPackets = packets keptSched
    rw [hsame rfl]
    exact hsize
  · show keptSched.Pairwise _
    rw [hkept]
    exact hsorted.filter _
  · show keptSched ++ keptOther = _
    rw [hkept, hkeptOther, stored, List.filter_append]

theorem Counted.removeSections (hcounted : members.Counted) {isMatch : Section → Bool}
    (hremaining : ¬ members.RemovesRemaining isMatch) :
    (members.removeSections isMatch).Counted := by
  obtain ⟨hcounts, hschedule, hstored, hcycle⟩ := hcounted.removeSections_spec isMatch
  refine ⟨⟨hcounts, fun hne ↦ ?_⟩, hschedule⟩
  have hkept : ∃ desc ∈ members.stored, isMatch desc.sect = false := by
    rw [cycles, hstored] at hne
    obtain ⟨cycle, hmem⟩ := List.exists_mem_of_ne_nil _ hne
    obtain ⟨desc, hdesc, -⟩ := List.mem_map.mp hmem
    obtain ⟨hmember, hmatch⟩ := List.mem_filter.mp hdesc
    exact ⟨desc, hmember, by simpa using hmatch⟩
  have hunsent : ∃ desc ∈ members.stored, isMatch desc.sect = false ∧
      desc.lastCycle ≠ members.currentCycle := by
    by_contra hnone
    push Not at hnone
    exact hremaining ⟨hkept, hnone⟩
  obtain ⟨desc, hmember, hmatch, hcycleNe⟩ := hunsent
  rw [hcounts.remain_eq, List.countP_pos_iff]
  refine ⟨desc.lastCycle, List.mem_map_of_mem ?_, by simpa [hcycle] using hcycleNe⟩
  rw [hstored]
  exact List.mem_filter.mpr ⟨hmember, by simp [hmatch]⟩

theorem RemovesRemaining.not_bookkeeping (hcounted : members.Counted) {isMatch : Section → Bool}
    (hremoves : members.RemovesRemaining isMatch) :
    ¬ (members.removeSections isMatch).Bookkeeping := by
  intro hbookkeeping
  obtain ⟨-, -, hstored, hcycle⟩ := hcounted.removeSections_spec isMatch
  obtain ⟨⟨desc, hmember, hmatch⟩, hsent⟩ := hremoves
  have hne : (members.removeSections isMatch).stored ≠ [] := by
    rw [hstored]
    exact List.ne_nil_of_mem (List.mem_filter.mpr ⟨hmember, by simp [hmatch]⟩)
  obtain ⟨other, hother, hunsent⟩ := hbookkeeping.unsent hne
  rw [hstored, List.mem_filter] at hother
  rw [hcycle] at hunsent
  exact hunsent (hsent other hother.1 (by simpa using hother.2))

end CyclingMembers

namespace CyclingPacketizer

/-! ### Runs of calls -/

/-- A call removes sections that remain, and keeps others. -/
def RemovesRemaining (cycling : CyclingPacketizer) (input : Call) : Prop :=
  ∃ isMatch, input.isMatch = some isMatch ∧ cycling.members.RemovesRemaining isMatch

/-- The invariant of a cycling packetizer between two calls. -/
structure Consistent (cycling : CyclingPacketizer) : Prop where
  counted : cycling.members.Counted
  ready : cycling.packetizer.Ready ProvidedSection.sect

theorem consistent_new (pid : ℕ) (stuffing : StuffingPolicy) (bitrate : ℕ) :
    (new pid stuffing bitrate).Consistent := by
  refine ⟨⟨⟨⟨rfl, rfl, fun cycle hmem ↦ ?_, Nat.one_pos⟩, fun hne ↦ absurd rfl hne⟩,
    rfl, List.Pairwise.nil⟩, Packetizer.ready_new pid⟩
  simp [new, CyclingMembers.cycles, CyclingMembers.stored] at hmem

variable {cycling : CyclingPacketizer}

theorem Consistent.getNextPacket (hconsistent : cycling.Consistent) :
    (after cycling.getNextPacket).Consistent := by
  obtain ⟨⟨⟨given, exhausted, hrequests, -⟩, -, -, -, hready⟩, -⟩ := Packetizer.getNextPacket_spec
    (some CyclingMembers.provider) cycling.members hconsistent.ready
  exact ⟨hrequests.keep (fun _ hcurrent ↦ hcurrent)
    (fun counter _ hcurrent ↦ hcurrent.provideSection _ counter) hconsistent.counted, hready⟩

theorem Consistent.call (hconsistent : cycling.Consistent) {input : Call}
    (hremaining : ¬ cycling.RemovesRemaining input) :
    (cycling.call input).1.Consistent := by
  have hremove : ∀ isMatch, input.isMatch = some isMatch →
      ({ cycling with members := cycling.members.removeSections isMatch } :
        CyclingPacketizer).Consistent := fun isMatch hmatch ↦
    ⟨hconsistent.counted.removeSections fun hremoves ↦ hremaining ⟨isMatch, hmatch, hremoves⟩,
      hconsistent.ready⟩
  cases input with
  | addSection sect repRate =>
    exact ⟨hconsistent.counted.addSection _ sect repRate, hconsistent.ready⟩
  | removeTable tid => exact hremove _ rfl
  | removeTableExtension tid tidExt => exact hremove _ rfl
  | removeAll => exact ⟨hconsistent.counted.removeAll, hconsistent.ready⟩
  | reset => exact ⟨hconsistent.counted.removeAll, hconsistent.ready.reset⟩
  | setBitRate bitrate => exact ⟨hconsistent.counted.setBitRate _ bitrate, hconsistent.ready⟩
  | setStuffingPolicy policy =>
    exact ⟨⟨hconsistent.counted.cycle, hconsistent.counted.schedule⟩, hconsistent.ready⟩
  | getNextPacket => exact hconsistent.getNextPacket

theorem RemovesRemaining.not_bookkeeping (hconsistent : cycling.Consistent) {input : Call}
    (hremoves : cycling.RemovesRemaining input) :
    ¬ (cycling.call input).1.members.Bookkeeping := by
  obtain ⟨isMatch, hmatch, hremaining⟩ := hremoves
  have hbroken := hremaining.not_bookkeeping hconsistent.counted
  cases input with
  | removeTable tid =>
    obtain rfl := Option.some.inj hmatch
    exact hbroken
  | removeTableExtension tid tidExt =>
    obtain rfl := Option.some.inj hmatch
    exact hbroken
  | _ => cases hmatch

/-- Along the calls on a new packetizer, the bookkeeping holds if and only if no call removes the
sections that remain to be sent and keeps others. -/
theorem bookkeeping_iff_never_removesRemaining (pid : ℕ) (stuffing : StuffingPolicy)
    (bitrate : ℕ) (calls : List Call) :
    machine.HoldsAlong (fun cycling ↦ cycling.members.Bookkeeping) (fun _ ↦ True)
        (new pid stuffing bitrate) calls ↔
      machine.Meets (fun cycling input ↦ ¬ cycling.RemovesRemaining input)
        (new pid stuffing bitrate) calls := by
  obtain ⟨last, outputs, hrun⟩ := machine.exists_run
    (fun cycling input ↦ ⟨_, _, rfl⟩) (new pid stuffing bitrate) calls
  refine machine.holdsAlong_iff_meets
    (fun cycling (hcycling : cycling.Consistent) ↦ hcycling.counted.bookkeeping)
    ?_ ?_ (fun (input : Call) _ ↦ trivial) (consistent_new pid stuffing bitrate) hrun
  · intro cycling input next outputs _ hconsistent hremaining hstep
    have hnext := hconsistent.call hremaining
    rw [Option.some.inj hstep] at hnext
    exact ⟨hnext, fun _ _ ↦ trivial⟩
  · rintro cycling input next outputs _ hconsistent hremoves hstep ⟨hbookkeeping, -⟩
    refine RemovesRemaining.not_bookkeeping hconsistent (not_not.mp hremoves) ?_
    rwa [Option.some.inj hstep]

def shortSection (tid : UInt8) : Section where
  content := [tid, 0x30, 0]
  sourcePid := 0x1000
  firstPkt := 0
  lastPkt := 0
  bytes := ⟨by simp [announcedSize, getUInt16, byteAt, shortSectionHeaderSize],
    by simp [maxPrivateSectionSize], fun hlong ↦ absurd hlong (by decide : ¬ (0x30 &&& 0x80 != (0 : UInt8)) = true)⟩

/-- The first of two sections is sent, the other one removed. -/
def unsentRemovalCalls : List Call :=
  [.addSection (shortSection 0x70) 0, .addSection (shortSection 0x72) 0, .getNextPacket,
    .removeTable 0x72]

/-- A section is stored but none remains in the cycle. -/
theorem unsentRemovalCalls_not_bookkeeping :
    ¬ machine.HoldsAlong (fun cycling ↦ cycling.members.Bookkeeping) (fun _ ↦ True)
      (new 0x1000 .always 0) unsentRemovalCalls := by
  intro hholds
  obtain ⟨last, outputs, hrun⟩ := machine.exists_run
    (fun cycling input ↦ ⟨_, _, rfl⟩) (new 0x1000 .always 0) unsentRemovalCalls
  have hlast := (hholds _ (List.prefix_refl _) last outputs hrun).1
  have hcounters : last.members.sectionCount = 1 ∧ last.members.remainInCycle = 0 := by
    obtain ⟨rfl, -⟩ := Prod.mk.inj (Option.some.inj hrun)
    decide
  have hpositive := hlast.remain_pos (by rw [hcounters.1]; decide)
  rw [hcounters.2] at hpositive
  exact absurd hpositive (by decide)

end CyclingPacketizer

end TSDuck
