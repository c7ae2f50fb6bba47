import TSDuck.Psi.CyclingPacketizer

/-!
# The order of the sections with the same due packet

A section is inserted in the schedule in front of the sections with the same due packet, although it
is documented to be inserted after them. A scheduled section is provided from the front of the list:
it is the last inserted one of those with its due packet. `providesInOrder_iff`: sections with the
same due packet are provided in the order of their insertions exactly when each one is alone with
its due packet when it is provided.
-/

universe u v w

namespace TSDuck

/-! ### A provider with more in its state -/

section Map

variable {Pointer : Type u} {State : Type v} {Traced : Type w} (forget : Traced → State)

def FillState.map (fill : FillState Pointer Traced) : FillState Pointer State where
  packetizer := fill.packetizer
  provider := forget fill.provider
  nextSection := fill.nextSection
  doStuffing := fill.doStuffing
  remainInSection := fill.remainInSection
  remainInPacket := fill.remainInPacket
  data := fill.data
  finished := fill.finished

def PacketResult.map (result : PacketResult Pointer Traced) : PacketResult Pointer State where
  found := result.found
  packet := result.packet
  packetizer := result.packetizer
  provider := forget result.provider
  data := result.data
  finished := result.finished

/-- A provider does what another one does, with a part of its state. -/
structure SectionProvider.Forgets (traced : SectionProvider Pointer Traced)
    (provider : SectionProvider Pointer State) : Prop where
  provideSection_fst : ∀ packetCount counter state,
    (provider.provideSection packetCount counter (forget state)).1 =
      (traced.provideSection packetCount counter state).1
  provideSection_snd : ∀ packetCount counter state,
    (provider.provideSection packetCount counter (forget state)).2 =
      forget (traced.provideSection packetCount counter state).2
  doStuffing_fst : ∀ state, (provider.doStuffing (forget state)).1 = (traced.doStuffing state).1
  doStuffing_snd : ∀ state,
    (provider.doStuffing (forget state)).2 = forget (traced.doStuffing state).2

variable {forget} {target : Pointer → Section} {traced : SectionProvider Pointer Traced}
  {provider : SectionProvider Pointer State} (hforgets : traced.Forgets forget provider)

include hforgets

theorem requestSection_forget (packetizer : Packetizer Pointer) (state : Traced) :
    requestSection (some provider) packetizer (forget state) =
      ((requestSection (some traced) packetizer state).1,
        (requestSection (some traced) packetizer state).2.1,
        forget (requestSection (some traced) packetizer state).2.2) := by
  unfold requestSection
  dsimp only
  rw [hforgets.provideSection_fst, hforgets.provideSection_snd]

theorem requestStuffing_forget (state : Traced) :
    requestStuffing (some provider) (forget state) = ((requestStuffing (some traced) state).1,
        forget (requestStuffing (some traced) state).2) := by
  unfold requestStuffing
  dsimp only
  rw [← hforgets.doStuffing_fst, ← hforgets.doStuffing_snd]

namespace FillState

omit hforgets in
theorem startSection_map (fill : FillState Pointer Traced) (sect : Section) :
    (fill.map forget).startSection sect =
      ((fill.startSection sect).1, (fill.startSection sect).2.map forget) := by
  unfold startSection FillState.map
  dsimp only
  split_ifs <;> rfl

theorem findNext_map (fill : FillState Pointer Traced) :
    (fill.map forget).findNext target (some provider) = ((fill.findNext target (some traced)).1,
        (fill.findNext target (some traced)).2.map forget) := by
  have hcurrent : (fill.map forget).packetizer.currentSection = fill.packetizer.currentSection := rfl
  have hprovider : (fill.map forget).provider = forget fill.provider := rfl
  unfold findNext
  rw [hcurrent]
  cases fill.packetizer.currentSection with
  | some next => exact startSection_map fill (target next)
  | none =>
    dsimp only
    rw [hprovider, requestStuffing_forget hforgets]
    dsimp only
    cases (requestStuffing (some traced) fill.provider).1 with
    | true => rfl
    | false =>
      have hpacketizer : (fill.map forget).packetizer = fill.packetizer := rfl
      rw [if_neg Bool.false_ne_true, if_neg Bool.false_ne_true, hpacketizer,
        requestSection_forget hforgets]
      dsimp only
      generalize requestSection (some traced) fill.packetizer
        (requestStuffing (some traced) fill.provider).2 = given
      obtain ⟨pointer, packetizer, state⟩ := given
      cases pointer with
      | none => rfl
      | some next =>
        exact startSection_map
          { fill with packetizer := { packetizer with currentSection := some next }
                      provider := state } (target next)

theorem turn_map (fill : FillState Pointer Traced) (sect : Section) :
    (fill.map forget).turn target (some provider) sect = ((fill.turn target (some traced) sect).1,
        (fill.turn target (some traced) sect).2.map forget) := by
  have hcopied : (fill.map forget).copied sect = (fill.copied sect).map forget := rfl
  unfold turn
  rw [hcopied]
  have hremain : ((fill.copied sect).map forget).remainInSection =
      (fill.copied sect).remainInSection := rfl
  rw [hremain]
  by_cases hend : (fill.copied sect).remainInSection = 0
  · rw [if_pos hend, if_pos hend]
    unfold endSection
    have hstuffing : ((fill.copied sect).map forget).doStuffing = (fill.copied sect).doStuffing :=
      rfl
    have hended : ((fill.copied sect).map forget).ended = (fill.copied sect).ended.map forget := rfl
    rw [hstuffing, hended, findNext_map hforgets]
    split_ifs <;> rfl
  · rw [if_neg hend, if_neg hend]

theorem fill_map (turns : ℕ) (start : FillState Pointer Traced) :
    FillState.fill target (some provider) turns (start.map forget) =
      (FillState.fill target (some traced) turns start).map forget := by
  induction turns generalizing start with
  | zero => rfl
  | succ turns ih =>
    have hremain : (start.map forget).remainInPacket = start.remainInPacket := rfl
    have hcurrent :
        (start.map forget).packetizer.currentSection = start.packetizer.currentSection := rfl
    unfold FillState.fill
    rw [hremain, hcurrent]
    by_cases hfull : start.remainInPacket = 0
    · rw [if_pos hfull, if_pos hfull]
    · rw [if_neg hfull, if_neg hfull]
      cases start.packetizer.currentSection with
      | none => rfl
      | some pointer =>
        dsimp only
        rw [turn_map hforgets]
        dsimp only
        rw [ih]
        split_ifs <;> rfl

end FillState

namespace Packetizer

theorem acquire_forget (packetizer : Packetizer Pointer) (state : Traced) :
    packetizer.acquire (some provider) (forget state) = ((packetizer.acquire (some traced) state).1,
        forget (packetizer.acquire (some traced) state).2) := by
  unfold acquire
  rw [requestSection_forget hforgets]
  by_cases hnone : packetizer.currentSection.isNone = true
  · rw [if_pos ⟨hnone, rfl⟩, if_pos ⟨hnone, rfl⟩]
  · rw [if_neg fun hboth ↦ hnone hboth.1, if_neg fun hboth ↦ hnone hboth.1]

theorem lookAhead_forget (packetizer : Packetizer Pointer) (state : Traced) (remainInSection : ℕ) :
    packetizer.lookAhead target (some provider) (forget state) remainInSection =
      ((packetizer.lookAhead target (some traced) state remainInSection).1,
        (packetizer.lookAhead target (some traced) state remainInSection).2.1,
        (packetizer.lookAhead target (some traced) state remainInSection).2.2.1,
        forget (packetizer.lookAhead target (some traced) state remainInSection).2.2.2) := by
  unfold lookAhead
  rw [requestStuffing_forget hforgets]
  dsimp only
  rw [requestSection_forget hforgets]
  by_cases hroom : remainInSection ≤ pktSize - 5 - shortSectionHeaderSize
  · rw [if_pos hroom, if_pos hroom]
    by_cases hstuffing : (requestStuffing (some traced) state).1 = true
    · rw [if_pos hstuffing, if_pos hstuffing]
    · rw [if_neg hstuffing, if_neg hstuffing]
      dsimp only
      cases (requestSection (some traced) packetizer (requestStuffing (some traced) state).2).1 <;>
        rfl
  · rw [if_neg hroom, if_neg hroom]

theorem fillPacket_forget (packetizer : Packetizer Pointer) (state : Traced) (pointer : Pointer) :
    packetizer.fillPacket target (some provider) (forget state) pointer =
      (packetizer.fillPacket target (some traced) state pointer).map forget := by
  have hahead := @lookAhead_forget _ _ _ forget target traced provider hforgets packetizer state
    ((target pointer).size - packetizer.nextByte)
  unfold fillPacket
  dsimp only
  rw [hahead]
  dsimp only
  generalize packetizer.lookAhead target (some traced) state
    ((target pointer).size - packetizer.nextByte) = ahead
  obtain ⟨doStuffing, nextSection, known, kept⟩ := ahead
  dsimp only
  generalize known.packetStart (pointerField packetizer.nextByte
    ((target pointer).size - packetizer.nextByte) doStuffing) = start
  have hfill := @FillState.fill_map _ _ _ forget target traced provider hforgets
    (pktSize - start.length)
    { packetizer := { known with continuity := (known.continuity + 1) &&& 0x0F }
      provider := kept
      nextSection
      doStuffing
      remainInSection := (target pointer).size - packetizer.nextByte
      remainInPacket := pktSize - start.length
      data := []
      finished := [] }
  unfold FillState.map at hfill
  dsimp only at hfill
  rw [hfill]
  rfl

end Packetizer

theorem PacketResult.map_getNextPacket (packetizer : Packetizer Pointer) (state : Traced) :
    packetizer.getNextPacket target (some provider) (forget state) =
      (packetizer.getNextPacket target (some traced) state).map forget := by
  unfold Packetizer.getNextPacket
  rw [Packetizer.acquire_forget hforgets]
  dsimp only
  cases (packetizer.acquire (some traced) state).1.currentSection with
  | none => rfl
  | some pointer => exact Packetizer.fillPacket_forget hforgets _ _ pointer

end Map

/-! ### The time of the insertions -/

/-- A scheduled section with the time of its insertion in the schedule. -/
structure Scheduled where
  desc : SectionDesc
  time : ℕ

/-- The scheduled sections, with the time of the next insertion. -/
structure Schedule where
  list : List Scheduled
  clock : ℕ

/-- A provided section, with the other scheduled ones. -/
structure Provision where
  first : Scheduled
  others : List Scheduled

namespace Provision

variable (provision : Provision)

/-- It was inserted before those with the same due packet. -/
def IsFirstIn : Prop :=
  ∀ other ∈ provision.others, other.desc.duePacket = provision.first.desc.duePacket →
    provision.first.time < other.time

instance : Decidable provision.IsFirstIn :=
  inferInstanceAs (Decidable (∀ other ∈ provision.others, _ → _))

/-- The section is the only one with its due packet. -/
def IsAlone : Prop :=
  ∀ other ∈ provision.others, other.desc.duePacket ≠ provision.first.desc.duePacket

end Provision

namespace Schedule

def insert (schedule : Schedule) (desc : SectionDesc) : Schedule where
  list := schedule.list.orderedInsert
    (fun first second ↦ first.desc.duePacket ≤ second.desc.duePacket) ⟨desc, schedule.clock⟩
  clock := schedule.clock + 1

def withList (schedule : Schedule) (list : List Scheduled) : Schedule :=
  { schedule with list }

def addAt (packetCount : ℕ) (schedule : Schedule) (desc : SectionDesc) : Schedule :=
  if desc.repetition = 0 then schedule
  else schedule.insert (desc.dueAt (max desc.duePacket packetCount))

def addAgain (newBitrate : ℕ) (scheduled : Scheduled) (schedule : Schedule) : Schedule :=
  schedule.insert (scheduled.desc.dueAt
    (scheduled.desc.lastPacket + packetDistance newBitrate scheduled.desc.repetition))

end Schedule

/-- The members, with the insertions and the provisions. -/
structure TracedMembers where
  members : CyclingMembers
  schedule : Schedule
  provisions : List Provision

namespace TracedMembers

variable (traced : TracedMembers)

def addSection (packetCount : ℕ) (sect : Section) (repRate : ℤ) : TracedMembers :=
  { traced with
    members := traced.members.addSection packetCount sect repRate
    schedule :=
      if repRate = 0 ∨ traced.members.bitrate = 0 then traced.schedule
      else
        traced.schedule.insert
          { sect, repetition := repRate, lastPacket := 0, duePacket := packetCount,
            lastCycle := 0 } }

def removeSections (isMatch : Section → Bool) : TracedMembers :=
  { traced with
    members := traced.members.removeSections isMatch
    schedule := traced.schedule.withList
      (traced.schedule.list.filter fun scheduled ↦ !isMatch scheduled.desc.sect) }

def removeAll : TracedMembers :=
  { traced with
    members := traced.members.removeAll
    schedule := traced.schedule.withList [] }

def setBitRate (packetCount newBitrate : ℕ) : TracedMembers :=
  { traced with
    members := traced.members.setBitRate packetCount newBitrate
    schedule :=
      if traced.members.bitrate = newBitrate then traced.schedule
      else if newBitrate = 0 then traced.schedule.withList []
      else if traced.members.bitrate = 0 then
        traced.members.otherSections.foldl (Schedule.addAt packetCount) traced.schedule
      else
        traced.schedule.list.foldr (Schedule.addAgain newBitrate) (traced.schedule.withList []) }

/-- The first scheduled section is provided, at a number of packets. -/
def ProvidesScheduled (packetCount : ℕ) (first : Scheduled) : Prop :=
  ({ traced.members with cycleEnd := none } : CyclingMembers).forceUnscheduled packetCount = false ∧
    first.desc.duePacket ≤ packetCount

instance (packetCount : ℕ) (first : Scheduled) :
    Decidable (traced.ProvidesScheduled packetCount first) :=
  inferInstanceAs (Decidable (_ ∧ _))

def sendFirst (packetCount counter : ℕ) (first : Scheduled) (others : List Scheduled) : Schedule :=
  (traced.schedule.withList others).insert
    ((({ traced.members with cycleEnd := none } : CyclingMembers).send packetCount counter
        first.desc).1.dueAt
      (packetCount + max 1 (packetDistance traced.members.bitrate first.desc.repetition)))

def provideSection (packetCount counter : ℕ) (traced : TracedMembers) :
    Option ProvidedSection × TracedMembers :=
  let given := traced.members.provideSection packetCount counter
  let next : Schedule × List Provision :=
    match traced.schedule.list with
    | first :: others =>
      if traced.ProvidesScheduled packetCount first then
        (traced.sendFirst packetCount counter first others, [⟨first, others⟩])
      else (traced.schedule, [])
    | [] => (traced.schedule, [])
  (given.1,
    { members := given.2
      schedule := next.1
      provisions := traced.provisions ++ next.2 })

def provider : SectionProvider ProvidedSection TracedMembers where
  provideSection := provideSection
  doStuffing traced := (traced.members.doStuffing, traced)

theorem forgets_provider : provider.Forgets members CyclingMembers.provider where
  provideSection_fst := fun _ _ _ ↦ rfl
  provideSection_snd := fun _ _ _ ↦ rfl
  doStuffing_fst := fun _ ↦ rfl
  doStuffing_snd := fun _ ↦ rfl

end TracedMembers

/-- A cycling packetizer with traced members. -/
structure TracedPacketizer where
  packetizer : Packetizer ProvidedSection
  traced : TracedMembers

namespace TracedPacketizer

def new (pid : ℕ) (stuffing : StuffingPolicy) (bitrate : ℕ) : TracedPacketizer where
  packetizer := .new pid
  traced :=
    { members := (CyclingPacketizer.new pid stuffing bitrate).members
      schedule := ⟨[], 0⟩
      provisions := [] }

def forget (cycling : TracedPacketizer) : CyclingPacketizer :=
  ⟨cycling.packetizer, cycling.traced.members⟩

def getNextPacket (cycling : TracedPacketizer) : PacketResult ProvidedSection TracedMembers :=
  cycling.packetizer.getNextPacket ProvidedSection.sect (some TracedMembers.provider) cycling.traced

def call (cycling : TracedPacketizer) :
    CyclingPacketizer.Call → TracedPacketizer × List (PacketResult ProvidedSection TracedMembers)
  | .addSection sect repRate =>
    ({ cycling with
        traced := cycling.traced.addSection cycling.packetizer.packetCount sect repRate }, [])
  | .removeTable tid =>
    ({ cycling with
        traced := cycling.traced.removeSections fun sect ↦ sect.tableId == tid }, [])
  | .removeTableExtension tid tidExt =>
    ({ cycling with
        traced := cycling.traced.removeSections fun sect ↦
          sect.tableId == tid && sect.tableIdExtension == tidExt }, [])
  | .removeAll => ({ cycling with traced := cycling.traced.removeAll }, [])
  | .reset =>
    ({ packetizer := cycling.packetizer.reset, traced := cycling.traced.removeAll }, [])
  | .setBitRate bitrate =>
    ({ cycling with
        traced := cycling.traced.setBitRate cycling.packetizer.packetCount bitrate }, [])
  | .setStuffingPolicy policy =>
    ({ cycling with
        traced :=
          { cycling.traced with
            members := { cycling.traced.members with stuffing := policy } } }, [])
  | .getNextPacket =>
    (⟨cycling.getNextPacket.packetizer, cycling.getNextPacket.provider⟩, [cycling.getNextPacket])

def machine : Machine TracedPacketizer CyclingPacketizer.Call
    (PacketResult ProvidedSection TracedMembers) where
  step cycling input := some (cycling.call input)

theorem getNextPacket_forget (cycling : TracedPacketizer) :
    cycling.forget.getNextPacket = cycling.getNextPacket.map TracedMembers.members :=
  PacketResult.map_getNextPacket TracedMembers.forgets_provider _ _

theorem call_forget (cycling : TracedPacketizer) (input : CyclingPacketizer.Call) :
    cycling.forget.call input = ((cycling.call input).1.forget,
        (cycling.call input).2.map (PacketResult.map TracedMembers.members)) := by
  cases input with
  | getNextPacket =>
    unfold CyclingPacketizer.call
    rw [getNextPacket_forget]
    rfl
  | _ => rfl

theorem run_forget {cycling last : TracedPacketizer} {calls : List CyclingPacketizer.Call}
    {results : List (PacketResult ProvidedSection TracedMembers)}
    (hrun : machine.run cycling calls = some (last, results)) :
    CyclingPacketizer.machine.run cycling.forget calls =
      some (last.forget, results.map (PacketResult.map TracedMembers.members)) := by
  induction calls generalizing cycling results with
  | nil =>
    obtain ⟨rfl, rfl⟩ := Prod.mk.inj (Option.some.inj hrun)
    rfl
  | cons input calls ih =>
    obtain ⟨next, first, later, hstep, hlater, rfl⟩ := (machine.run_cons_eq_some).mp hrun
    obtain ⟨rfl, rfl⟩ := Prod.mk.inj (Option.some.inj hstep)
    refine (CyclingPacketizer.machine.run_cons_eq_some).mpr
      ⟨_, _, _, congrArg some (cycling.call_forget input), ih hlater, ?_⟩
    exact List.map_append

end TracedPacketizer

/-! ### The order of the insertions -/

namespace Schedule

/-- The last inserted sections are first for each due packet. -/
structure RecentFirst (schedule : Schedule) : Prop where
  recent : schedule.list.Pairwise fun first second ↦
    first.desc.duePacket = second.desc.duePacket → second.time < first.time
  past : ∀ scheduled ∈ schedule.list, scheduled.time < schedule.clock

variable {schedule : Schedule}

theorem map_insert (schedule : Schedule) (desc : SectionDesc) :
    (schedule.insert desc).list.map Scheduled.desc =
      CyclingMembers.insertDue desc (schedule.list.map Scheduled.desc) :=
  List.map_orderedInsert _ _ _ _ _ (fun _ _ ↦ Iff.rfl) fun _ _ ↦ Iff.rfl

theorem RecentFirst.insert (hrecent : schedule.RecentFirst) (desc : SectionDesc) :
    (schedule.insert desc).RecentFirst := by
  obtain ⟨hpairs, hpast⟩ := hrecent
  constructor
  · unfold Schedule.insert
    dsimp only
    generalize schedule.clock = clock at hpast
    generalize schedule.list = list at hpairs hpast
    induction list with
    | nil => exact List.pairwise_singleton _ _
    | cons first rest ih =>
      obtain ⟨hfirst, hrest⟩ := List.pairwise_cons.mp hpairs
      rw [List.orderedInsert_cons]
      split_ifs with hle
      · exact List.pairwise_cons.mpr ⟨fun other hother _ ↦ hpast other hother, hpairs⟩
      · refine List.pairwise_cons.mpr ⟨fun other hother hsame ↦ ?_,
          ih hrest (List.forall_mem_cons.mp hpast).2⟩
        rcases (List.mem_orderedInsert _).mp hother with rfl | hother
        · exact absurd (ge_of_eq hsame) hle
        · exact hfirst other hother hsame
  · intro scheduled hmem
    rcases (List.mem_orderedInsert _).mp hmem with rfl | hmem
    · exact Nat.lt_succ_self _
    · exact Nat.lt_succ_of_lt (hpast scheduled hmem)

theorem RecentFirst.withList (hrecent : schedule.RecentFirst) {list : List Scheduled}
    (hlist : list.Sublist schedule.list) : (schedule.withList list).RecentFirst where
  recent := hrecent.recent.sublist hlist
  past := fun scheduled hmem ↦ hrecent.past scheduled (hlist.subset hmem)

theorem RecentFirst.addAt (hrecent : schedule.RecentFirst) (packetCount : ℕ)
    (descs : List SectionDesc) :
    (descs.foldl (Schedule.addAt packetCount) schedule).RecentFirst := by
  induction descs generalizing schedule with
  | nil => exact hrecent
  | cons desc descs ih =>
    refine ih ?_
    unfold Schedule.addAt
    split_ifs
    · exact hrecent
    · exact hrecent.insert _

theorem RecentFirst.addAgain (hrecent : schedule.RecentFirst) (newBitrate : ℕ)
    (list : List Scheduled) : (list.foldr (Schedule.addAgain newBitrate) schedule).RecentFirst := by
  induction list with
  | nil => exact hrecent
  | cons scheduled list ih => exact ih.insert _

theorem map_addAt (packetCount : ℕ) (descs : List SectionDesc) {members : CyclingMembers}
    (hlist : schedule.list.map Scheduled.desc = members.schedSections) :
    (descs.foldl (Schedule.addAt packetCount) schedule).list.map Scheduled.desc =
      (descs.foldl (CyclingMembers.schedule packetCount) members).schedSections := by
  induction descs generalizing schedule members with
  | nil => exact hlist
  | cons desc descs ih =>
    refine ih ?_
    unfold Schedule.addAt CyclingMembers.schedule
    split_ifs
    · exact hlist
    · rw [map_insert, hlist]
      rfl

theorem map_addAgain (newBitrate : ℕ) (list : List Scheduled) {members : CyclingMembers}
    (hlist : schedule.list.map Scheduled.desc = members.schedSections) :
    (list.foldr (Schedule.addAgain newBitrate) schedule).list.map Scheduled.desc =
      ((list.map Scheduled.desc).foldr (CyclingMembers.reschedule newBitrate)
        members).schedSections := by
  induction list with
  | nil => exact hlist
  | cons scheduled list ih =>
    have hinsert := map_insert (list.foldr (Schedule.addAgain newBitrate) schedule)
      (scheduled.desc.dueAt
        (scheduled.desc.lastPacket + packetDistance newBitrate scheduled.desc.repetition))
    rw [ih] at hinsert
    exact hinsert

end Schedule

namespace CyclingMembers

theorem schedSections_send (members : CyclingMembers) (packetCount counter : ℕ)
    (desc : SectionDesc) :
    (members.send packetCount counter desc).2.1.schedSections = members.schedSections := by
  unfold send
  split_ifs
  · dsimp only
    split_ifs <;> rfl
  · rfl

theorem schedSections_sendUnscheduled (members : CyclingMembers) (packetCount counter : ℕ) :
    (members.sendUnscheduled packetCount counter).2.schedSections = members.schedSections := by
  unfold sendUnscheduled
  cases members.otherSections with
  | nil => rfl
  | cons desc rest => exact schedSections_send _ _ _ _

theorem schedSections_provideSection_nil {members : CyclingMembers}
    (hnil : members.schedSections = []) (packetCount counter : ℕ) :
    (provideSection packetCount counter members).2.schedSections = [] := by
  unfold provideSection
  dsimp only
  rw [hnil]
  dsimp only
  rw [schedSections_sendUnscheduled]

theorem schedSections_provideSection_cons {members : CyclingMembers} {desc : SectionDesc}
    {rest : List SectionDesc} (hcons : members.schedSections = desc :: rest)
    (packetCount counter : ℕ) :
    (provideSection packetCount counter members).2.schedSections =
      if ({ members with cycleEnd := none } : CyclingMembers).forceUnscheduled packetCount = false ∧
          desc.duePacket ≤ packetCount then
        insertDue
          ((({ members with cycleEnd := none } : CyclingMembers).send packetCount counter desc).1.dueAt
            (packetCount + max 1 (packetDistance members.bitrate desc.repetition))) rest
      else desc :: rest := by
  unfold provideSection
  dsimp only
  rw [hcons]
  dsimp only
  rw [← hcons]
  by_cases hprovides : ({ members with cycleEnd := none } : CyclingMembers).forceUnscheduled
      packetCount = false ∧ desc.duePacket ≤ packetCount
  · rw [if_pos hprovides, if_pos hprovides]
    rfl
  · rw [if_neg hprovides, if_neg hprovides, schedSections_sendUnscheduled]

theorem schedSections_removeSections (members : CyclingMembers) (isMatch : Section → Bool) :
    (members.removeSections isMatch).schedSections =
      members.schedSections.filter fun desc ↦ !isMatch desc.sect := by
  obtain ⟨hkept, -⟩ := removeMatching_frame isMatch true members.schedSections members
  obtain ⟨-, sectionCount, remainInCycle, schedPackets, hsecond, -⟩ :=
    removeMatching_frame isMatch false members.otherSections
      { (removeMatching isMatch true members members.schedSections).1 with
        schedSections := (removeMatching isMatch true members members.schedSections).2 }
  unfold removeSections
  dsimp only
  rw [hsecond, hkept]

end CyclingMembers

namespace TracedMembers

/-- Each provided section was the last one of its due packet. -/
structure InOrder (traced : TracedMembers) : Prop where
  list_eq : traced.schedule.list.map Scheduled.desc = traced.members.schedSections
  recentFirst : traced.schedule.RecentFirst
  lastIn : ∀ provision ∈ traced.provisions, ∀ other ∈ provision.others,
    other.desc.duePacket = provision.first.desc.duePacket → other.time < provision.first.time

variable {traced : TracedMembers}

theorem InOrder.addSection (horder : traced.InOrder) (packetCount : ℕ) (sect : Section)
    (repRate : ℤ) : (traced.addSection packetCount sect repRate).InOrder := by
  obtain ⟨hlist, hrecent, hlast⟩ := horder
  refine ⟨?_, ?_, hlast⟩
  · unfold TracedMembers.addSection CyclingMembers.addSection
    dsimp only
    split_ifs
    · exact hlist
    · rw [Schedule.map_insert, hlist]
      rfl
  · unfold TracedMembers.addSection
    dsimp only
    split_ifs
    · exact hrecent
    · exact hrecent.insert _

theorem InOrder.removeSections (horder : traced.InOrder) (isMatch : Section → Bool) :
    (traced.removeSections isMatch).InOrder := by
  obtain ⟨hlist, hrecent, hlast⟩ := horder
  refine ⟨?_, hrecent.withList List.filter_sublist, hlast⟩
  show (traced.schedule.list.filter _).map Scheduled.desc =
    (traced.members.removeSections isMatch).schedSections
  rw [CyclingMembers.schedSections_removeSections, ← hlist, List.filter_map]
  rfl

theorem InOrder.removeAll (horder : traced.InOrder) : traced.removeAll.InOrder where
  list_eq := rfl
  recentFirst := horder.recentFirst.withList (List.nil_sublist _)
  lastIn := horder.lastIn

theorem InOrder.setBitRate (horder : traced.InOrder) (packetCount newBitrate : ℕ) :
    (traced.setBitRate packetCount newBitrate).InOrder := by
  obtain ⟨hlist, hrecent, hlast⟩ := horder
  refine ⟨?_, ?_, hlast⟩
  · unfold TracedMembers.setBitRate CyclingMembers.setBitRate
    dsimp only
    split_ifs
    · exact hlist
    · rfl
    · exact Schedule.map_addAt packetCount _ hlist
    · rw [Schedule.map_addAgain newBitrate _ (show ((traced.schedule.withList []).list.map
        Scheduled.desc) = ({ traced.members with schedSections := [] } :
          CyclingMembers).schedSections from rfl), hlist]
  · unfold TracedMembers.setBitRate
    dsimp only
    split_ifs
    · exact hrecent
    · exact hrecent.withList (List.nil_sublist _)
    · exact hrecent.addAt packetCount _
    · exact (hrecent.withList (List.nil_sublist _)).addAgain newBitrate _

theorem InOrder.provideSection (horder : traced.InOrder) (packetCount counter : ℕ) :
    (traced.provideSection packetCount counter).2.InOrder := by
  obtain ⟨hlist, hrecent, hlast⟩ := horder
  unfold TracedMembers.provideSection
  dsimp only
  cases hschedule : traced.schedule.list with
  | nil =>
    refine ⟨?_, hrecent, by rwa [List.append_nil]⟩
    dsimp only
    rw [hschedule] at hlist ⊢
    exact (CyclingMembers.schedSections_provideSection_nil hlist.symm _ _).symm
  | cons first others =>
    have hmembers := CyclingMembers.schedSections_provideSection_cons
      (by rw [← hlist, hschedule, List.map_cons]) packetCount counter
    dsimp only
    by_cases hprovides : traced.ProvidesScheduled packetCount first
    · rw [if_pos hprovides]
      have hothers : others.Sublist traced.schedule.list := by
        rw [hschedule]
        exact List.sublist_cons_self _ _
      refine ⟨?_, (hrecent.withList hothers).insert _, ?_⟩
      · exact (Schedule.map_insert _ _).trans (hmembers.trans (if_pos hprovides)).symm
      · intro provision hprovision
        rcases List.mem_append.mp hprovision with hbefore | hnow
        · exact hlast provision hbefore
        · obtain rfl := List.mem_singleton.mp hnow
          have hpairs := hrecent.recent
          rw [hschedule] at hpairs
          exact fun other hother hsame ↦
            (List.pairwise_cons.mp hpairs).1 other hother hsame.symm
    · rw [if_neg hprovides]
      refine ⟨?_, hrecent, by rwa [List.append_nil]⟩
      dsimp only
      rw [hmembers.trans (if_neg hprovides), hschedule, List.map_cons]

end TracedMembers

namespace TracedPacketizer

/-- The invariant of a packetizer between two calls. -/
structure IsTraced (cycling : TracedPacketizer) : Prop where
  inOrder : cycling.traced.InOrder
  ready : cycling.packetizer.Ready ProvidedSection.sect

theorem isTraced_new (pid : ℕ) (stuffing : StuffingPolicy) (bitrate : ℕ) :
    (new pid stuffing bitrate).IsTraced where
  inOrder :=
    { list_eq := rfl
      recentFirst := ⟨List.Pairwise.nil, fun _ hmem ↦ absurd hmem List.not_mem_nil⟩
      lastIn := fun _ hmem ↦ absurd hmem List.not_mem_nil }
  ready := Packetizer.ready_new pid

theorem IsTraced.call {cycling : TracedPacketizer} (htraced : cycling.IsTraced)
    (input : CyclingPacketizer.Call) : (cycling.call input).1.IsTraced := by
  obtain ⟨horder, hready⟩ := htraced
  cases input with
  | addSection sect repRate => exact ⟨horder.addSection _ sect repRate, hready⟩
  | removeTable tid => exact ⟨horder.removeSections _, hready⟩
  | removeTableExtension tid tidExt => exact ⟨horder.removeSections _, hready⟩
  | removeAll => exact ⟨horder.removeAll, hready⟩
  | reset => exact ⟨horder.removeAll, hready.reset⟩
  | setBitRate bitrate => exact ⟨horder.setBitRate _ bitrate, hready⟩
  | setStuffingPolicy policy =>
    exact ⟨⟨horder.list_eq, horder.recentFirst, horder.lastIn⟩, hready⟩
  | getNextPacket =>
    obtain ⟨⟨⟨given, exhausted, hrequests, -⟩, -, -, -, hnext⟩, -⟩ :=
      Packetizer.getNextPacket_spec (some TracedMembers.provider) cycling.traced hready
    exact ⟨hrequests.keep (fun _ hcurrent ↦ hcurrent)
      (fun counter _ hcurrent ↦ hcurrent.provideSection _ counter) horder, hnext⟩

/-- Each provided section was inserted before the others with its due packet, exactly when it was
alone with it. -/
theorem providesInOrder_iff (pid : ℕ) (stuffing : StuffingPolicy) (bitrate : ℕ)
    (calls : List CyclingPacketizer.Call) :
    ∃ last results, machine.run (new pid stuffing bitrate) calls = some (last, results) ∧
      CyclingPacketizer.machine.run (.new pid stuffing bitrate) calls =
          some (last.forget, results.map (PacketResult.map TracedMembers.members)) ∧
        ((∀ provision ∈ last.traced.provisions, provision.IsFirstIn) ↔
          ∀ provision ∈ last.traced.provisions, provision.IsAlone) := by
  obtain ⟨last, results, hrun⟩ := machine.exists_run
    (fun cycling input ↦ ⟨_, _, rfl⟩) (new pid stuffing bitrate) calls
  have hstep : ∀ state input next outputs, IsTraced state →
      machine.step state input = some (next, outputs) → IsTraced next ∧ ∀ output ∈ outputs,
          (fun _ : PacketResult ProvidedSection TracedMembers ↦ True) output := by
    intro state input next outputs htraced hnext
    obtain ⟨rfl, -⟩ := Prod.mk.inj (Option.some.inj hnext)
    exact ⟨htraced.call input, fun _ _ ↦ trivial⟩
  have horder := (machine.run_invariant hstep (isTraced_new pid stuffing bitrate) hrun).1.inOrder
  refine ⟨last, results, hrun, run_forget hrun, forall₂_congr fun provision hprovision ↦ ?_⟩
  refine forall₂_congr fun other hother ↦ ⟨fun hfirst hsame ↦ ?_, fun halone hsame ↦ ?_⟩
  · exact Nat.lt_asymm (hfirst hsame) (horder.lastIn provision hprovision other hother hsame)
  · exact absurd hsame halone

def sameDueCalls : List CyclingPacketizer.Call :=
  [.addSection (CyclingPacketizer.shortSection 0x70) 1000,
    .addSection (CyclingPacketizer.shortSection 0x72) 1000, .getNextPacket]

/-- The second one of two sections is provided first. -/
theorem sameDueCalls_not_inOrder :
    ∃ last results, machine.run (new 0x1000 .always 1000000) sameDueCalls = some (last, results) ∧
      ¬∀ provision ∈ last.traced.provisions, provision.IsFirstIn := by
  obtain ⟨last, results, hrun⟩ := machine.exists_run
    (fun cycling input ↦ ⟨_, _, rfl⟩) (new 0x1000 .always 1000000) sameDueCalls
  refine ⟨last, results, hrun, fun hfirst ↦ ?_⟩
  revert hfirst
  obtain ⟨rfl, -⟩ := Prod.mk.inj (Option.some.inj hrun)
  decide +kernel

end TracedPacketizer

end TSDuck
