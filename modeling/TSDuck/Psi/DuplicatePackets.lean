import TSDuck.Mpeg.PESDemux

/-!
# Duplicate packets in the section demux

A packet may be repeated immediately, with the same continuity counter and the same bytes. The
section demux ignores a packet with the continuity counter of the previous one, but only while the
PID is synchronous. A packet where a section starts makes the PID synchronous: when the first copy
of such a packet has left the PID without synchronization, the second copy is analysed again
(`SectionDemux.Restarts`).
-/

namespace TSDuck

/-! ### Sections and tables without the indexes of their packets -/

def Section.forget (sect : Section) : Section :=
  { sect with firstPkt := 0, lastPkt := 0 }

theorem Section.setHeaderByte_forget (sect : Section) (offset : ℕ) (value : UInt8)
    (recomputeCrc : Bool) (hoffset : shortSectionHeaderSize ≤ offset) :
    (sect.setHeaderByte offset value recomputeCrc hoffset).forget =
      sect.forget.setHeaderByte offset value recomputeCrc hoffset := by
  unfold setHeaderByte recomputeCRC
  have hlong : sect.forget.isLongSection = sect.isLongSection := rfl
  have hlong' : (sect.forget.setByte offset value hoffset).isLongSection =
      (sect.setByte offset value hoffset).isLongSection := rfl
  simp only [hlong, hlong']
  split_ifs <;> rfl

namespace BinaryTable

def forget (table : BinaryTable) : BinaryTable :=
  { table with sections := table.sections.map (Option.map Section.forget) }

theorem getD_forget (sections : List (Option Section)) (index : ℕ) :
    (sections.map (Option.map Section.forget)).getD index none =
      (sections.getD index none).map Section.forget := by
  rw [List.getD_eq_getElem?_getD, List.getD_eq_getElem?_getD, List.getElem?_map]
  cases sections[index]? <;> rfl

theorem getD_forget_eq_none_iff (sections : List (Option Section)) (index : ℕ) :
    (sections.map (Option.map Section.forget)).getD index none = none ↔
      sections.getD index none = none := by
  rw [getD_forget, Option.map_eq_none_iff]

theorem fillSlot_forget (table : BinaryTable) (index : ℕ) (sect : Section) (replace : Bool) :
    (table.fillSlot index sect replace).2.forget =
      (table.forget.fillSlot index sect.forget replace).2 := by
  unfold fillSlot
  have hslot := getD_forget_eq_none_iff table.sections index
  by_cases hempty : table.sections.getD index none = none
  · have hempty' : table.forget.sections.getD index none = none := hslot.mpr hempty
    rw [if_pos hempty, if_pos hempty']
    unfold forget
    simp only [List.map_set, Option.map_some]
  · have hempty' : ¬table.forget.sections.getD index none = none := fun hsame ↦
      hempty (hslot.mp hsame)
    rw [if_neg hempty, if_neg hempty']
    split_ifs
    · rfl
    · unfold forget
      simp only [List.map_set, Option.map_some]

theorem start_forget (table : BinaryTable) (sect : Section) :
    (table.start sect).forget = table.forget.start sect.forget := by
  unfold start forget
  simp only [List.map_replicate, Option.map_none]
  rfl

theorem growTo_forget (table : BinaryTable) (lastSectionNumber : ℕ) :
    (table.growTo lastSectionNumber).forget = table.forget.growTo lastSectionNumber := by
  unfold growTo forget
  simp only [List.map_append, List.map_map, List.map_replicate, Option.map_none, List.length_map]
  congr 2
  apply List.map_congr_left
  intro slot hslot
  cases slot with
  | none => rfl
  | some sect => exact congrArg some (sect.setHeaderByte_forget 7 _ true (by decide))

theorem addSection_forget (table : BinaryTable) (sect : Option Section) (replace grow : Bool) :
    (table.addSection sect replace grow).2.forget =
      (table.forget.addSection (sect.map Section.forget) replace grow).2 := by
  cases sect with
  | none => rfl
  | some sect =>
    have hlength : table.forget.sections.length = table.sections.length := List.length_map _
    have hsame : table.forget.SameTable sect.forget ↔ table.SameTable sect := Iff.rfl
    have hnumber : sect.forget.sectionNumber = sect.sectionNumber := rfl
    have hlast : sect.forget.lastSectionNumber = sect.lastSectionNumber := rfl
    have hset := sect.setHeaderByte_forget 7 (UInt8.ofNat (table.sections.length - 1)) true
      (by decide)
    unfold addSection
    simp only [Option.map_some, hlength, hsame, hnumber, hlast]
    split_ifs
    · rw [fillSlot_forget, start_forget]
    · rfl
    · rw [fillSlot_forget]
      exact congrArg (fun other ↦ (table.forget.fillSlot sect.sectionNumber other replace).2) hset
    · rw [fillSlot_forget, growTo_forget]
    · rw [fillSlot_forget]
    · rfl

end BinaryTable

namespace ETIDContext

/-- A context without the indexes of packets. -/
def forget (context : ETIDContext) : ETIDContext :=
  { context with sects := context.sects.map (Option.map Section.forget) }

theorem build_forget (context : ETIDContext) : context.build.forget = context.forget.build := by
  have hfold : ∀ (sects : List (Option Section)) (table : BinaryTable),
      (sects.foldl (fun table sect ↦ (table.addSection sect true true).2) table).forget =
        (sects.map (Option.map Section.forget)).foldl
          (fun table sect ↦ (table.addSection sect true true).2) table.forget := by
    intro sects
    induction sects with
    | nil =>
      intro table
      rfl
    | cons sect sects ih =>
      intro table
      rw [List.foldl_cons, List.map_cons, List.foldl_cons, ih, BinaryTable.addSection_forget]
  exact hfold context.sects .empty

theorem notify_forget (context : ETIDContext) (hasHandler : Bool) :
    (context.notify hasHandler false).1.forget = (context.forget.notify hasHandler false).1 ∧
      (context.notify hasHandler false).2.map BinaryTable.forget =
        (context.forget.notify hasHandler false).2 := by
  have hbuild := context.build_forget
  have hvalid : context.forget.build.isValid = context.build.isValid := by
    rw [← hbuild]
    rfl
  unfold notify
  simp only [Bool.false_eq_true, if_false]
  have hcondition : (context.forget.notified = false ∧
      (context.forget.sectReceived = context.forget.sectExpected ∨ False) ∧ hasHandler = true) =
        (context.notified = false ∧ (context.sectReceived = context.sectExpected ∨ False) ∧
          hasHandler = true) := rfl
  simp only [hcondition, hvalid]
  split_ifs
  · exact ⟨rfl, congrArg some hbuild⟩
  · exact ⟨rfl, rfl⟩
  · exact ⟨rfl, rfl⟩

theorem compareHeader_forget (context : ETIDContext) (isLong : Bool) (version : UInt8)
    (lastSection : ℕ) :
    (context.compareHeader isLong version lastSection).forget =
      context.forget.compareHeader isLong version lastSection := by
  have hrestarts : context.forget.Restarts version ↔ context.Restarts version := Iff.rfl
  unfold compareHeader
  simp only [hrestarts]
  split_ifs
  · unfold init forget
    simp only [List.map_replicate, Option.map_none]
  · rfl

theorem save_forget (context : ETIDContext) (number : ℕ) (sect : Section) :
    (context.save number sect).forget = context.forget.save number sect.forget := by
  unfold save forget
  simp only [List.map_set, Option.map_some]

theorem getD_eq_none_iff_of_forget {context context' : ETIDContext}
    (hsame : context.forget = context'.forget) (number : ℕ) :
    context.sects.getD number none = none ↔ context'.sects.getD number none = none := by
  have hsects : context.forget.sects = context'.forget.sects := congrArg ETIDContext.sects hsame
  rw [← BinaryTable.getD_forget_eq_none_iff context.sects,
    ← BinaryTable.getD_forget_eq_none_iff context'.sects]
  exact iff_of_eq (congrArg (fun sects ↦ List.getD sects number none = none) hsects)

end ETIDContext

theorem SectionDemux.Found.toSection_forget (found : SectionDemux.Found)
    (pid firstPkt count count' : ℕ) :
    (found.toSection pid count).map Section.forget =
      (SectionDemux.Found.toSection { found with firstPkt } pid count').map Section.forget := by
  unfold toSection
  rw [Option.map_map, Option.map_map]
  rfl

/-! ### Demuxes that are alike -/

/-- The same but for the indexes, and the counter out of sync. -/
structure PIDContext.Alike (first second : PIDContext) : Prop where
  sync : first.sync = second.sync
  continuity : first.sync = true → first.continuity = second.continuity
  ts : first.ts = second.ts
  tids : ∀ etid, (first.tids etid).forget = (second.tids etid).forget

/-- The handlers do not look at the indexes of packets. -/
structure DemuxHandlers.IgnoreIndexes {State Erased : Type} (handlers : DemuxHandlers State)
    (erase : State → Erased) : Prop where
  table : ∀ handle ∈ handlers.handleTable, ∀ state state' table table',
    erase state = erase state' → BinaryTable.forget table = BinaryTable.forget table' →
      erase (handle state table).1 = erase (handle state' table').1 ∧
        (handle state table).2 = (handle state' table').2
  sect : ∀ handle ∈ handlers.handleSection, ∀ state state' sect sect',
    erase state = erase state' → Section.forget sect = Section.forget sect' →
      erase (handle state sect).1 = erase (handle state' sect').1 ∧
        (handle state sect).2 = (handle state' sect').2

/-- A call of a handler, without the indexes of packets. -/
def DemuxEvent.call : DemuxEvent → Option DemuxEvent
  | .seen _ _ _ => none
  | .sect given => some (.sect given.forget)
  | .table pid etid given => some (.table pid etid given.forget)

namespace SectionDemux

variable {State Erased : Type} (erase : State → Erased)

/-- The same without the indexes and the counters. -/
structure Alike (first second : SectionDemux State) : Prop where
  pidFilter : first.pidFilter = second.pidFilter
  getCurrent : first.getCurrent = second.getCurrent
  getNext : first.getNext = second.getNext
  pids : ∀ pid, (first.pids pid).Alike (second.pids pid)
  application : erase first.application = erase second.application

theorem alike_equivalence : Equivalence (Alike erase) where
  refl demux := ⟨rfl, rfl, rfl, fun _ ↦ ⟨rfl, fun _ ↦ rfl, rfl, fun _ ↦ rfl⟩, rfl⟩
  symm := by
    intro first second halike
    refine ⟨halike.pidFilter.symm, halike.getCurrent.symm, halike.getNext.symm, fun pid ↦ ?_,
      halike.application.symm⟩
    obtain ⟨hsync, hcontinuity, hts, htids⟩ := halike.pids pid
    exact ⟨hsync.symm, fun h ↦ (hcontinuity (hsync.trans h)).symm, hts.symm,
      fun etid ↦ (htids etid).symm⟩
  trans := by
    intro first second third hfirst hsecond
    refine ⟨hfirst.pidFilter.trans hsecond.pidFilter, hfirst.getCurrent.trans hsecond.getCurrent,
      hfirst.getNext.trans hsecond.getNext, fun pid ↦ ?_,
      hfirst.application.trans hsecond.application⟩
    obtain ⟨hsync, hcontinuity, hts, htids⟩ := hfirst.pids pid
    obtain ⟨hsync', hcontinuity', hts', htids'⟩ := hsecond.pids pid
    exact ⟨hsync.trans hsync', fun h ↦ (hcontinuity h).trans (hcontinuity' (hsync ▸ h)),
      hts.trans hts', fun etid ↦ (htids etid).trans (htids' etid)⟩

variable {erase} {first second : SectionDemux State}

theorem Alike.counted (halike : Alike erase first second) (status status' : DemuxStatus)
    (count count' : ℕ) :
    Alike erase { first with status := status, packetCount := count }
      { second with status := status', packetCount := count' } :=
  ⟨halike.pidFilter, halike.getCurrent, halike.getNext, halike.pids, halike.application⟩

theorem Alike.setPID (halike : Alike erase first second) (pid : ℕ) (context context' : PIDContext)
    (hcontext : context.Alike context') :
    Alike erase (first.setPID pid context) (second.setPID pid context') := by
  refine ⟨halike.pidFilter, halike.getCurrent, halike.getNext, fun other ↦ ?_, halike.application⟩
  unfold SectionDemux.setPID
  by_cases hother : other = pid
  · subst hother
    simp only [Function.update_self]
    exact hcontext
  · simp only [Function.update_of_ne hother]
    exact halike.pids other

theorem Alike.setTable (halike : Alike erase first second) (pid : ℕ) (etid : ETID)
    {table table' : ETIDContext} (htable : table.forget = table'.forget) :
    Alike erase (first.setTable pid etid table) (second.setTable pid etid table') := by
  apply halike.setPID
  obtain ⟨hsync, hcontinuity, hts, htids⟩ := halike.pids pid
  refine ⟨hsync, hcontinuity, hts, fun other ↦ ?_⟩
  unfold PIDContext.setTable
  by_cases hother : other = etid
  · subst hother
    simp only [Function.update_self]
    exact htable
  · simp only [Function.update_of_ne hother]
    exact htids other

theorem Alike.immediateResetPID (halike : Alike erase first second) (pid : ℕ) :
    Alike erase (first.immediateResetPID pid) (second.immediateResetPID pid) :=
  halike.setPID pid .new .new ⟨rfl, fun _ ↦ rfl, rfl, fun _ ↦ rfl⟩

theorem Alike.immediateReset (halike : Alike erase first second) :
    Alike erase first.immediateReset second.immediateReset :=
  ⟨halike.pidFilter, halike.getCurrent, halike.getNext,
    fun _ ↦ ⟨rfl, fun _ ↦ rfl, rfl, fun _ ↦ rfl⟩, halike.application⟩

theorem Alike.lose (halike : Alike erase first second) (pid : ℕ) :
    Alike erase (first.lose pid) (second.lose pid) :=
  halike.setPID pid _ _ ⟨rfl, nofun, rfl, (halike.pids pid).tids⟩

theorem Alike.loseLength (halike : Alike erase first second) (pid : ℕ) :
    Alike erase (first.loseLength pid) (second.loseLength pid) :=
  (halike.lose pid).counted _ _ _ _

theorem Alike.keep (halike : Alike erase first second) (pid : ℕ) (data : ByteBlock) :
    Alike erase (first.keep pid data) (second.keep pid data) :=
  halike.setPID pid _ _ ⟨(halike.pids pid).sync, (halike.pids pid).continuity, rfl,
    (halike.pids pid).tids⟩

def resetOther (pid : ℕ) (current : SectionDemux State) (request : DemuxRequest) :
    SectionDemux State :=
  match request with
  | .resetPID other => if other = pid then current else current.immediateResetPID other
  | .reset => current

theorem Alike.serve (halike : Alike erase first second) (pid : ℕ) (requests : List DemuxRequest) :
    Alike erase (first.serve pid requests).1 (second.serve pid requests).1 ∧
      (first.serve pid requests).2 = (second.serve pid requests).2 := by
  have hothers : ∀ (list : List DemuxRequest) (first second : SectionDemux State),
      Alike erase first second →
      Alike erase
        (list.foldl (resetOther pid) first)
        (list.foldl (resetOther pid) second) := by
    intro list
    induction list with
    | nil => exact fun _ _ h ↦ h
    | cons request list ih =>
      intro first second hboth
      rw [List.foldl_cons, List.foldl_cons]
      apply ih
      cases request with
      | reset => exact hboth
      | resetPID other =>
        dsimp only [resetOther]
        split_ifs
        · exact hboth
        · exact hboth.immediateResetPID other
  refine ⟨?_, rfl⟩
  unfold SectionDemux.serve
  dsimp only
  have hserved := hothers requests first second halike
  split_ifs
  · exact (hserved.immediateResetPID pid).immediateReset
  · exact hserved.immediateReset
  · exact hserved.immediateResetPID pid
  · exact hserved

/-! ### The payload of a packet in demuxes that are alike -/

variable (erase) in
/-- The same first part, without the indexes of packets. -/
structure Accepted.Alike (accepted accepted' : Accepted State) : Prop where
  demux : SectionDemux.Alike erase accepted.demux accepted'.demux
  data : accepted.data = accepted'.data
  pointer : accepted.pointer = accepted'.pointer

theorem Alike.refused (halike : Alike erase first second) :
    (SectionDemux.refused first).Alike erase (SectionDemux.refused second) :=
  ⟨halike, rfl, rfl⟩

theorem Alike.follow (halike : Alike erase first second) (pkt : TSPacket) :
    Alike erase (first.follow pkt) (second.follow pkt) := by
  obtain ⟨hsync, hcontinuity, hts, htids⟩ := halike.pids pkt.getPID
  have hgap : ((first.pids pkt.getPID).sync = true ∧
      pkt.getCC.toNat ≠ ((first.pids pkt.getPID).continuity.toNat + 1) % ccMax) ↔
        ((second.pids pkt.getPID).sync = true ∧
          pkt.getCC.toNat ≠ ((second.pids pkt.getPID).continuity.toNat + 1) % ccMax) := by
    rw [← hsync]
    exact and_congr_right fun hsynchronous ↦ by rw [hcontinuity hsynchronous]
  unfold SectionDemux.follow
  dsimp only
  by_cases hlost : (first.pids pkt.getPID).sync = true ∧
      pkt.getCC.toNat ≠ ((first.pids pkt.getPID).continuity.toNat + 1) % ccMax
  · rw [if_pos hlost, if_pos (hgap.mp hlost)]
    exact (halike.setPID pkt.getPID
      { (first.pids pkt.getPID).syncLost with continuity := pkt.getCC }
      { (second.pids pkt.getPID).syncLost with continuity := pkt.getCC }
      ⟨rfl, fun _ ↦ rfl, rfl, htids⟩).counted _ _ _ _
  · rw [if_neg hlost, if_neg (mt hgap.mpr hlost)]
    exact halike.setPID _ _ _ ⟨hsync, fun _ ↦ rfl, hts, htids⟩

theorem continuity_follow (demux : SectionDemux State) (pkt : TSPacket) :
    ((demux.follow pkt).pids pkt.getPID).continuity = pkt.getCC := by
  unfold SectionDemux.follow SectionDemux.setPID
  dsimp only
  split_ifs
  · simp
  · simp

theorem Alike.acceptPayload (halike : Alike erase first second) (pkt : TSPacket)
    (hcounter : (first.pids pkt.getPID).continuity = (second.pids pkt.getPID).continuity) :
    (first.acceptPayload pkt).Alike erase (second.acceptPayload pkt) := by
  obtain ⟨hsync, hcontinuity, hts, htids⟩ := halike.pids pkt.getPID
  have hsynced : (first.pids pkt.getPID).sync = true ↔ (second.pids pkt.getPID).sync = true := by
    rw [hsync]
  have hmarked := halike.setPID pkt.getPID
    { first.pids pkt.getPID with pusiPktIndex := first.packetCount }
    { second.pids pkt.getPID with pusiPktIndex := second.packetCount }
    ⟨hsync, hcontinuity, hts, htids⟩
  unfold SectionDemux.acceptPayload
  dsimp only
  simp only [hsynced]
  have hstarted := hmarked.setPID pkt.getPID
    { first.pids pkt.getPID with pusiPktIndex := first.packetCount, sync := true }
    { second.pids pkt.getPID with pusiPktIndex := second.packetCount, sync := true }
    ⟨rfl, fun _ ↦ hcounter, hts, htids⟩
  split_ifs with hpusi hpes hpointer hsynchronous hzero hzero
  · exact (hmarked.lose _).refused
  · exact (hmarked.lose _).refused
  · exact ⟨hmarked, rfl, rfl⟩
  · exact ⟨hmarked, rfl, rfl⟩
  · exact ⟨hstarted, rfl, rfl⟩
  · exact ⟨hstarted, rfl, rfl⟩
  · exact ⟨halike, rfl, rfl⟩
  · exact halike.refused

theorem Alike.accept (halike : Alike erase first second) (pkt : TSPacket) :
    (first.accept pkt).Alike erase (second.accept pkt) := by
  obtain ⟨hsync, hcontinuity, hts, htids⟩ := halike.pids pkt.getPID
  have hduplicate : ((first.pids pkt.getPID).sync = true ∧
      pkt.getCC = (first.pids pkt.getPID).continuity) ↔ ((second.pids pkt.getPID).sync = true ∧
          pkt.getCC = (second.pids pkt.getPID).continuity) := by
    rw [← hsync]
    exact and_congr_right fun hsynchronous ↦ by rw [hcontinuity hsynchronous]
  unfold SectionDemux.accept
  dsimp only
  simp only [hduplicate]
  split_ifs with hvalid hscrambled hcopy hpayload
  · exact (halike.counted _ _ _ _).refused
  · exact ((halike.lose _).counted _ _ _ _).refused
  · exact halike.refused
  · exact (halike.follow pkt).refused
  · exact (halike.follow pkt).acceptPayload pkt
      ((first.continuity_follow pkt).trans (second.continuity_follow pkt).symm)

/-! ### The analysis of a packet in demuxes that are alike -/

variable (erase) in
/-- The same results, without the indexes. -/
structure SameOutcome {Result : Type}
    (outcome outcome' : SectionDemux State × List DemuxEvent × Result) : Prop where
  demux : Alike erase outcome.1 outcome'.1
  calls : outcome.2.1.filterMap DemuxEvent.call = outcome'.2.1.filterMap DemuxEvent.call
  result : outcome.2.2 = outcome'.2.2

theorem analyzeContent_firstPkt (demux : SectionDemux State)
    (handlers : DemuxHandlers State) (pid : ℕ) (found : Found) (firstPkt : ℕ) :
    demux.analyzeContent handlers pid { found with firstPkt } =
      if found.lastSectionNumber + 1 ≠ ((demux.pids pid).tids found.etid).sectExpected then
        (demux.countIndex, [], false)
      else if handlers.handleSection.isSome ∨
          ((demux.pids pid).tids found.etid).sects.getD found.sectionNumber none = none then
        match Found.toSection { found with firstPkt } pid demux.packetCount with
        | none => (demux.countCrc, [], false)
        | some sect => demux.deliver handlers pid found.etid found.sectionNumber sect
      else (demux, [], false) :=
  rfl

variable {handlers : DemuxHandlers State} (hignore : handlers.IgnoreIndexes erase)

include hignore

theorem Alike.callSection (halike : Alike erase first second) {sect sect' : Section}
    (hsect : sect.forget = sect'.forget) :
    SameOutcome erase (first.callSection handlers sect) (second.callSection handlers sect') := by
  unfold SectionDemux.callSection
  cases hhandle : handlers.handleSection with
  | none => exact ⟨halike, rfl, rfl⟩
  | some handle =>
    obtain ⟨hstate, hrequests⟩ := hignore.sect handle hhandle first.application second.application
      sect sect' halike.application hsect
    refine ⟨⟨halike.pidFilter, halike.getCurrent, halike.getNext, halike.pids, hstate⟩, ?_,
      hrequests⟩
    show [DemuxEvent.sect sect.forget] = [DemuxEvent.sect sect'.forget]
    rw [hsect]

theorem Alike.callTable (halike : Alike erase first second) (pid : ℕ) (etid : ETID)
    {table table' : Option BinaryTable}
    (htable : table.map BinaryTable.forget = table'.map BinaryTable.forget) :
    SameOutcome erase (first.callTable handlers pid etid table)
      (second.callTable handlers pid etid table') := by
  unfold SectionDemux.callTable
  cases table with
  | none =>
    cases table' with
    | none => exact ⟨halike, rfl, rfl⟩
    | some table' => cases htable
  | some table =>
    cases table' with
    | none => cases htable
    | some table' =>
      have hsame := Option.some.inj htable
      cases hhandle : handlers.handleTable with
      | none => exact ⟨halike, rfl, rfl⟩
      | some handle =>
        obtain ⟨hstate, hrequests⟩ := hignore.table handle hhandle first.application
          second.application table table' halike.application hsame
        refine ⟨⟨halike.pidFilter, halike.getCurrent, halike.getNext, halike.pids, hstate⟩, ?_,
          hrequests⟩
        show [DemuxEvent.table pid etid table.forget] = [DemuxEvent.table pid etid table'.forget]
        rw [hsame]

theorem Alike.saveSection (halike : Alike erase first second) (pid : ℕ) (etid : ETID) (number : ℕ)
    {sect sect' : Section} (hsect : sect.forget = sect'.forget) :
    SameOutcome erase (first.saveSection handlers pid etid number sect)
      (second.saveSection handlers pid etid number sect') := by
  have htable := (halike.pids pid).tids etid
  unfold SectionDemux.saveSection
  dsimp only
  generalize (first.pids pid).tids etid = table at htable
  generalize (second.pids pid).tids etid = table' at htable
  have hslot := ETIDContext.getD_eq_none_iff_of_forget htable number
  by_cases hempty : table.sects.getD number none = none
  · rw [if_pos hempty, if_pos (hslot.mp hempty)]
    have hsaved : (table.save number sect).forget = (table'.save number sect').forget := by
      rw [ETIDContext.save_forget, ETIDContext.save_forget, htable, hsect]
    obtain ⟨hcontext, hreported⟩ := (table.save number sect).notify_forget
      handlers.handleTable.isSome
    obtain ⟨hcontext', hreported'⟩ := (table'.save number sect').notify_forget
      handlers.handleTable.isSome
    rw [hsaved] at hcontext hreported
    exact (halike.setTable pid etid (hcontext.trans hcontext'.symm)).callTable hignore pid etid
      (hreported.trans hreported'.symm)
  · rw [if_neg hempty, if_neg (mt hslot.mpr hempty)]
    exact ⟨halike, rfl, rfl⟩

theorem Alike.deliver (halike : Alike erase first second) (pid : ℕ) (etid : ETID) (number : ℕ)
    {sect sect' : Section} (hsect : sect.forget = sect'.forget) :
    SameOutcome erase (first.deliver handlers pid etid number sect)
      (second.deliver handlers pid etid number sect') := by
  obtain ⟨hcalled, hevents, hrequests⟩ := halike.callSection hignore hsect
  obtain ⟨hsaved, hmore, hothers⟩ := hcalled.saveSection hignore pid etid number hsect
  unfold SectionDemux.deliver
  dsimp only
  rw [hrequests, hothers]
  obtain ⟨hserved, hreset⟩ := hsaved.serve pid
    ((second.callSection handlers sect').2.2 ++
      ((second.callSection handlers sect').1.saveSection handlers pid etid number sect').2.2)
  refine ⟨hserved, ?_, hreset⟩
  rw [List.filterMap_append, List.filterMap_append, hevents, hmore]

theorem Alike.analyzeContent (halike : Alike erase first second) (pid : ℕ) (found : Found)
    (firstPkt : ℕ) :
    SameOutcome erase (first.analyzeContent handlers pid found)
      (second.analyzeContent handlers pid { found with firstPkt }) := by
  have htable := (halike.pids pid).tids found.etid
  have hexpected : ((first.pids pid).tids found.etid).sectExpected =
      ((second.pids pid).tids found.etid).sectExpected :=
    (congrArg ETIDContext.sectExpected htable :)
  have hslot := ETIDContext.getD_eq_none_iff_of_forget htable found.sectionNumber
  have hsect := found.toSection_forget pid firstPkt first.packetCount second.packetCount
  rw [second.analyzeContent_firstPkt handlers pid found firstPkt]
  unfold SectionDemux.analyzeContent
  simp only [hexpected, hslot]
  split_ifs with hindex hneeded
  · exact ⟨halike.counted _ _ _ _, rfl, rfl⟩
  · cases hfirst : found.toSection pid first.packetCount with
    | none =>
      rw [hfirst, Option.map_none, eq_comm, Option.map_eq_none_iff] at hsect
      rw [hsect]
      exact ⟨halike.counted _ _ _ _, rfl, rfl⟩
    | some sect =>
      rw [hfirst, Option.map_some, eq_comm, Option.map_eq_some_iff] at hsect
      obtain ⟨sect', hsecond, hsame⟩ := hsect
      rw [hsecond]
      exact halike.deliver hignore pid found.etid found.sectionNumber hsame.symm
  · exact ⟨halike, rfl, rfl⟩

theorem Alike.analyze (halike : Alike erase first second) (pid : ℕ) (found : Found) (firstPkt : ℕ) :
    SameOutcome erase (first.analyze handlers pid found)
      (second.analyze handlers pid { found with firstPkt }) := by
  have hcounted : Alike erase (first.countHeader found)
      (second.countHeader { found with firstPkt }) := halike.counted _ _ _ _
  have hopened : Alike erase ((first.countHeader found).openTable pid found)
      ((second.countHeader { found with firstPkt }).openTable pid { found with firstPkt }) := by
    apply hcounted.setTable
    rw [ETIDContext.compareHeader_forget, ETIDContext.compareHeader_forget]
    exact congrArg (fun context ↦ ETIDContext.compareHeader context found.isLong found.version
      found.lastSectionNumber) ((halike.pids pid).tids found.etid)
  have heligible : second.IsEligible { found with firstPkt } ↔ first.IsEligible found := by
    unfold IsEligible
    rw [halike.getCurrent, halike.getNext]
    rfl
  have hseen : ∀ other : Found, (if other.isLong then
      [DemuxEvent.seen pid other.etid other.version] else []).filterMap DemuxEvent.call = [] := by
    intro other
    split_ifs <;> rfl
  unfold SectionDemux.analyze
  dsimp only
  by_cases hlooks : first.IsEligible found
  · rw [if_pos hlooks, if_pos (heligible.mpr hlooks)]
    obtain ⟨hanalyzed, hcalls, hreset⟩ := hopened.analyzeContent hignore pid found firstPkt
    refine ⟨hanalyzed, ?_, hreset⟩
    rw [List.filterMap_append, List.filterMap_append, hcalls, hseen, hseen]
  · rw [if_neg hlooks, if_neg (mt heligible.mp hlooks)]
    exact ⟨hcounted, rfl, rfl⟩

theorem Alike.collect (halike : Alike erase first second) (pid turns : ℕ) (data : ByteBlock)
    (toPusi firstPkt firstPkt' : ℕ) :
    Alike erase (SectionDemux.collect handlers pid turns first data toPusi firstPkt).1
        (SectionDemux.collect handlers pid turns second data toPusi firstPkt').1 ∧
      (SectionDemux.collect handlers pid turns first data toPusi firstPkt).2.filterMap
          DemuxEvent.call =
        (SectionDemux.collect handlers pid turns second data toPusi firstPkt').2.filterMap
          DemuxEvent.call := by
  induction turns generalizing first second data toPusi firstPkt firstPkt' with
  | zero => exact ⟨halike.keep pid data, rfl⟩
  | succ turns ih =>
    have hfound : findSection data toPusi firstPkt' =
        { findSection data toPusi firstPkt with firstPkt := firstPkt' } := by
      unfold findSection
      split_ifs <;> rfl
    unfold SectionDemux.collect
    rw [hfound]
    dsimp only
    split_ifs with hshort hinvalid hincomplete hreset hreset' hreset'
    · exact ⟨halike.keep pid data, rfl⟩
    · exact ⟨halike.loseLength pid, rfl⟩
    · exact ⟨halike.keep pid data, rfl⟩
    all_goals
      obtain ⟨hanalyzed, hcalls, hsame⟩ := halike.analyze hignore pid
        (findSection data toPusi firstPkt) firstPkt'
    · exact ⟨hanalyzed, hcalls⟩
    · exact absurd (hsame ▸ hreset) hreset'
    · exact absurd (hsame ▸ hreset') hreset
    · obtain ⟨hlast, hlater⟩ := ih hanalyzed
        (skipStuffing (data.drop (findSection data toPusi firstPkt).length))
        (toPusi - (findSection data toPusi firstPkt).length) _ _
      refine ⟨hlast, ?_⟩
      rw [List.filterMap_append, List.filterMap_append, hcalls, hlater]

theorem Alike.processPacket (halike : Alike erase first second) (pkt : TSPacket) :
    Alike erase (first.processPacket handlers pkt).1 (second.processPacket handlers pkt).1 ∧
      (first.processPacket handlers pkt).2.filterMap DemuxEvent.call =
        (second.processPacket handlers pkt).2.filterMap DemuxEvent.call := by
  obtain ⟨hdemux, hdata, hpointer⟩ := halike.accept pkt
  unfold SectionDemux.processPacket
  dsimp only
  rw [hdata, hpointer]
  cases hgiven : (second.accept pkt).data with
  | none => exact ⟨hdemux, rfl⟩
  | some data =>
    dsimp only
    rw [(hdemux.pids pkt.getPID).ts]
    exact hdemux.collect hignore _ _ _ _ _ _

theorem Alike.feedPacket (halike : Alike erase first second) (pkt : TSPacket) :
    Alike erase (first.feedPacket handlers pkt).1 (second.feedPacket handlers pkt).1 ∧
      (first.feedPacket handlers pkt).2.filterMap DemuxEvent.call =
        (second.feedPacket handlers pkt).2.filterMap DemuxEvent.call := by
  unfold SectionDemux.feedPacket
  rw [halike.pidFilter]
  split_ifs
  · obtain ⟨hprocessed, hcalls⟩ := halike.processPacket hignore pkt
    exact ⟨hprocessed.counted _ _ _ _, hcalls⟩
  · exact ⟨halike.counted _ _ _ _, rfl⟩

theorem machine_congruence : (machine handlers).Congruence (Alike erase) DemuxEvent.call := by
  intro first second pkt next next' outputs outputs' halike hstep hstep'
  obtain ⟨rfl, rfl⟩ := Prod.mk.inj (Option.some.inj hstep)
  obtain ⟨rfl, rfl⟩ := Prod.mk.inj (Option.some.inj hstep')
  exact halike.feedPacket hignore pkt

/-! ### The continuity counter of a synchronous PID -/

omit hignore

/-- A PID which is synchronous was so with the same continuity counter. -/
def KeepsCounter (demux next : SectionDemux State) (pid : ℕ) : Prop :=
  (next.pids pid).sync = true →
    (demux.pids pid).sync = true ∧ (next.pids pid).continuity = (demux.pids pid).continuity

theorem KeepsCounter.of_pids {demux next : SectionDemux State} (pid : ℕ)
    (hpids : next.pids = demux.pids) : demux.KeepsCounter next pid := by
  intro hsync
  rw [hpids] at hsync
  exact ⟨hsync, by rw [hpids]⟩

theorem KeepsCounter.trans {demux middle next : SectionDemux State} {pid : ℕ}
    (hfirst : demux.KeepsCounter middle pid) (hsecond : middle.KeepsCounter next pid) :
    demux.KeepsCounter next pid := by
  intro hsync
  obtain ⟨hmiddle, hcounter⟩ := hsecond hsync
  obtain ⟨hbefore, hsame⟩ := hfirst hmiddle
  exact ⟨hbefore, hcounter.trans hsame⟩

theorem keepsCounter_setPID (demux : SectionDemux State) (pid other : ℕ) {context : PIDContext}
    (hcontext : context.sync = true → (demux.pids other).sync = true ∧
      context.continuity = (demux.pids other).continuity) :
    demux.KeepsCounter (demux.setPID other context) pid := by
  unfold KeepsCounter SectionDemux.setPID
  by_cases hpid : pid = other
  · subst hpid
    simp only [Function.update_self]
    exact hcontext
  · simp only [Function.update_of_ne hpid, and_true, imp_self]

theorem keepsCounter_setTable (demux : SectionDemux State) (pid other : ℕ) (etid : ETID)
    (table : ETIDContext) : demux.KeepsCounter (demux.setTable other etid table) pid :=
  demux.keepsCounter_setPID pid other fun hsync ↦ ⟨hsync, rfl⟩

theorem keepsCounter_serve (demux : SectionDemux State) (pid other : ℕ)
    (requests : List DemuxRequest) : demux.KeepsCounter (demux.serve other requests).1 pid := by
  have hothers : ∀ (list : List DemuxRequest) (current : SectionDemux State),
      current.KeepsCounter (list.foldl (resetOther other) current) pid := by
    intro list
    induction list with
    | nil => exact fun current ↦ .of_pids pid rfl
    | cons request list ih =>
      intro current
      rw [List.foldl_cons]
      apply KeepsCounter.trans _ (ih _)
      cases request with
      | reset => exact .of_pids pid rfl
      | resetPID third =>
        dsimp only [resetOther]
        split_ifs
        · exact .of_pids pid rfl
        · exact current.keepsCounter_setPID pid third fun hsync ↦ by cases hsync
  have hreset : ∀ current : SectionDemux State,
      current.KeepsCounter current.immediateReset pid := fun current hsync ↦ by cases hsync
  have hresetPID : ∀ current : SectionDemux State,
      current.KeepsCounter (current.immediateResetPID other) pid := fun current ↦
    current.keepsCounter_setPID pid other fun hsync ↦ by cases hsync
  unfold SectionDemux.serve
  dsimp only
  split_ifs
  · exact ((hothers requests demux).trans (hresetPID _)).trans (hreset _)
  · exact (hothers requests demux).trans (hreset _)
  · exact (hothers requests demux).trans (hresetPID _)
  · exact hothers requests demux

variable (handlers)

theorem keepsCounter_callSection (demux : SectionDemux State) (pid : ℕ) (sect : Section) :
    demux.KeepsCounter (demux.callSection handlers sect).1 pid := by
  unfold SectionDemux.callSection
  cases handlers.handleSection with
  | none => exact .of_pids pid rfl
  | some handle => exact .of_pids pid rfl

theorem keepsCounter_callTable (demux : SectionDemux State) (pid other : ℕ) (etid : ETID)
    (table : Option BinaryTable) :
    demux.KeepsCounter (demux.callTable handlers other etid table).1 pid := by
  unfold SectionDemux.callTable
  cases table with
  | none => exact .of_pids pid rfl
  | some table =>
    cases handlers.handleTable with
    | none => exact .of_pids pid rfl
    | some handle => exact .of_pids pid rfl

theorem keepsCounter_saveSection (demux : SectionDemux State) (pid other : ℕ) (etid : ETID)
    (number : ℕ) (sect : Section) :
    demux.KeepsCounter (demux.saveSection handlers other etid number sect).1 pid := by
  unfold SectionDemux.saveSection
  dsimp only
  split_ifs
  · exact (demux.keepsCounter_setTable pid other etid _).trans
      (keepsCounter_callTable handlers _ pid other etid _)
  · exact .of_pids pid rfl

theorem keepsCounter_deliver (demux : SectionDemux State) (pid other : ℕ) (etid : ETID)
    (number : ℕ) (sect : Section) :
    demux.KeepsCounter (demux.deliver handlers other etid number sect).1 pid :=
  ((demux.keepsCounter_callSection handlers pid sect).trans
    (keepsCounter_saveSection handlers _ pid other etid number sect)).trans
      (keepsCounter_serve _ pid other _)

theorem keepsCounter_analyze (demux : SectionDemux State) (pid other : ℕ) (found : Found) :
    demux.KeepsCounter (demux.analyze handlers other found).1 pid := by
  have hcounted : demux.KeepsCounter (demux.countHeader found) pid := .of_pids pid rfl
  have hopened : demux.KeepsCounter ((demux.countHeader found).openTable other found) pid :=
    hcounted.trans ((demux.countHeader found).keepsCounter_setTable pid other found.etid _)
  unfold SectionDemux.analyze
  dsimp only
  by_cases hlooks : demux.IsEligible found
  · rw [if_pos hlooks]
    apply hopened.trans
    unfold SectionDemux.analyzeContent
    dsimp only
    split_ifs
    · exact .of_pids pid rfl
    · cases found.toSection other _ with
      | none => exact .of_pids pid rfl
      | some sect => exact keepsCounter_deliver handlers _ pid other _ _ sect
    · exact .of_pids pid rfl
  · rw [if_neg hlooks]
    exact hcounted

theorem keepsCounter_collect (demux : SectionDemux State) (pid other turns : ℕ) (data : ByteBlock)
    (toPusi firstPkt : ℕ) :
    demux.KeepsCounter (collect handlers other turns demux data toPusi firstPkt).1 pid := by
  have hkeep : ∀ (current : SectionDemux State) (rest : ByteBlock),
      current.KeepsCounter (current.keep other rest) pid := fun current rest ↦
    current.keepsCounter_setPID pid other fun hsync ↦ ⟨hsync, rfl⟩
  induction turns generalizing demux data toPusi firstPkt with
  | zero => exact hkeep demux data
  | succ turns ih =>
    unfold collect
    dsimp only
    split_ifs with hshort hinvalid hincomplete hreset
    · exact hkeep demux data
    · have hlost : demux.KeepsCounter (demux.lose other) pid :=
        demux.keepsCounter_setPID pid other fun hsync ↦ by cases hsync
      exact hlost.trans (.of_pids pid rfl)
    · exact hkeep demux data
    · exact demux.keepsCounter_analyze handlers pid other _
    · apply (demux.keepsCounter_analyze handlers pid other _).trans
      apply ih

/-! ### A copy of the last packet -/

end SectionDemux

namespace TSPacket

/-- A section starts in a packet that the demux analyzes. -/
structure StartsSections (pkt : TSPacket) : Prop where
  hasValidSync : pkt.hasValidSync = true
  clear : pkt.getScrambling = 0
  hasPayload : pkt.hasPayload = true
  headerSize : pkt.getHeaderSize < pktSize
  pusi : pkt.getPUSI = true
  notPES : pkt.startsPES = false
  pointer : pkt.pointerField < pkt.sectionData.length

/-- A packet loses the synchronization. -/
def LosesSections (pkt : TSPacket) : Prop :=
  pkt.getScrambling ≠ 0 ∨ pkt.hasPayload = true ∧ pkt.getHeaderSize < pktSize ∧
    pkt.getPUSI = true ∧ (pkt.startsPES = true ∨ pkt.sectionData.length ≤ pkt.pointerField)

end TSPacket

namespace SectionDemux

variable {State Erased : Type} {erase : State → Erased} {handlers : DemuxHandlers State}

/-- A section starts on a PID which is not synchronous. -/
def Restarts (demux : SectionDemux State) (pkt : TSPacket) : Prop :=
  demux.pidFilter pkt.getPID = true ∧ (demux.pids pkt.getPID).sync = false ∧ pkt.StartsSections

theorem counter_accept (demux : SectionDemux State) (pkt : TSPacket)
    (hvalid : pkt.hasValidSync = true)
    (hsync : ((demux.accept pkt).demux.pids pkt.getPID).sync = true) :
    pkt.getScrambling = 0 ∧ ((demux.accept pkt).demux.pids pkt.getPID).continuity = pkt.getCC := by
  unfold accept at hsync ⊢
  rw [if_neg (by simp [hvalid])] at hsync ⊢
  by_cases hscrambled : pkt.getScrambling ≠ 0
  · rw [if_pos hscrambled] at hsync
    simp [refused, lose, setPID, PIDContext.syncLost] at hsync
  · rw [if_neg hscrambled] at hsync ⊢
    refine ⟨not_not.mp hscrambled, ?_⟩
    split_ifs with hcopy hpayload
    · exact hcopy.2.symm
    · exact demux.continuity_follow pkt
    · refine Eq.trans ?_ (demux.continuity_follow pkt)
      unfold acceptPayload
      dsimp only
      split_ifs <;> simp [refused, lose, setPID, PIDContext.syncLost]

variable (handlers) in
theorem counter_processPacket (demux : SectionDemux State) (pkt : TSPacket)
    (hvalid : pkt.hasValidSync = true)
    (hsync : ((demux.processPacket handlers pkt).1.pids pkt.getPID).sync = true) :
    pkt.getScrambling = 0 ∧
      ((demux.processPacket handlers pkt).1.pids pkt.getPID).continuity = pkt.getCC := by
  unfold processPacket at hsync ⊢
  dsimp only at hsync ⊢
  cases hdata : (demux.accept pkt).data with
  | none =>
    rw [hdata] at hsync
    exact demux.counter_accept pkt hvalid hsync
  | some data =>
    rw [hdata] at hsync
    obtain ⟨hbefore, hsame⟩ := keepsCounter_collect handlers _ pkt.getPID _ _ _ _ _ hsync
    obtain ⟨hclear, hcounter⟩ := demux.counter_accept pkt hvalid hbefore
    exact ⟨hclear, hsame.trans hcounter⟩

theorem accept_of_loses (demux : SectionDemux State) (pkt : TSPacket)
    (hvalid : pkt.hasValidSync = true) (hloses : pkt.LosesSections)
    (hcopy : ¬ (pkt.getScrambling = 0 ∧ (demux.pids pkt.getPID).sync = true ∧
      pkt.getCC = (demux.pids pkt.getPID).continuity)) :
    (demux.accept pkt).data = none ∧ ((demux.accept pkt).demux.pids pkt.getPID).ts = [] := by
  unfold accept
  rw [if_neg (by simp [hvalid])]
  by_cases hscrambled : pkt.getScrambling ≠ 0
  · rw [if_pos hscrambled]
    simp [refused, lose, setPID, PIDContext.syncLost]
  · obtain ⟨hpayload, hheader, hpusi, hnone⟩ := hloses.resolve_left hscrambled
    rw [if_neg hscrambled, if_neg fun hsame ↦ hcopy ⟨not_not.mp hscrambled, hsame⟩]
    dsimp only
    rw [if_neg (by simp [hpayload, hheader])]
    unfold acceptPayload
    dsimp only
    rw [if_pos hpusi]
    by_cases hpes : pkt.startsPES = true
    · rw [if_pos hpes]
      simp [refused, lose, setPID, PIDContext.syncLost]
    · rw [if_neg hpes, if_pos (hnone.resolve_left hpes)]
      simp [refused, lose, setPID, PIDContext.syncLost]

variable (handlers) in
theorem ts_processPacket_of_loses (demux : SectionDemux State) (pkt : TSPacket)
    (hvalid : pkt.hasValidSync = true) (hloses : pkt.LosesSections)
    (hsync : ((demux.processPacket handlers pkt).1.pids pkt.getPID).sync = false) :
    ((demux.processPacket handlers pkt).1.pids pkt.getPID).ts = [] := by
  by_cases hcopy : pkt.getScrambling = 0 ∧ (demux.pids pkt.getPID).sync = true ∧
      pkt.getCC = (demux.pids pkt.getPID).continuity
  · obtain ⟨hclear, hcopy⟩ := hcopy
    have haccept : demux.accept pkt = refused demux := by
      unfold accept
      rw [if_neg (by simp [hvalid]), if_neg (by simp [hclear]), if_pos hcopy]
    unfold processPacket at hsync
    rw [haccept] at hsync
    exact absurd (hcopy.1.symm.trans hsync) (by simp)
  · obtain ⟨hnone, hempty⟩ := demux.accept_of_loses pkt hvalid hloses hcopy
    unfold processPacket
    dsimp only
    rw [hnone]
    exact hempty

variable (erase) in
theorem alike_setPID (demux : SectionDemux State) (pid : ℕ) (context : PIDContext)
    (hcontext : (demux.pids pid).Alike context) :
    Alike erase demux (demux.setPID pid context) := by
  have hsame : demux.setPID pid (demux.pids pid) = demux := by
    unfold setPID
    rw [Function.update_eq_self]
  have halike := ((alike_equivalence erase).refl demux).setPID pid _ _ hcontext
  rwa [hsame] at halike

theorem alike_follow (demux : SectionDemux State) (pkt : TSPacket)
    (hsync : (demux.pids pkt.getPID).sync = false) : Alike erase demux (demux.follow pkt) := by
  unfold follow
  dsimp only
  rw [if_neg (by simp [hsync])]
  apply demux.alike_setPID
  refine ⟨rfl, ?_, rfl, fun _ ↦ rfl⟩
  rw [hsync]
  nofun

theorem alike_lose (demux : SectionDemux State) (pid : ℕ)
    (hsync : (demux.pids pid).sync = false) (hempty : (demux.pids pid).ts = []) :
    Alike erase demux (demux.lose pid) := by
  apply demux.alike_setPID
  refine ⟨hsync, ?_, hempty, fun _ ↦ rfl⟩
  rw [hsync]
  nofun

theorem accept_of_not_startsSections (demux : SectionDemux State) (pkt : TSPacket)
    (hvalid : pkt.hasValidSync = true) (hsync : (demux.pids pkt.getPID).sync = false)
    (hempty : pkt.LosesSections → (demux.pids pkt.getPID).ts = [])
    (hstarts : ¬ pkt.StartsSections) :
    (demux.accept pkt).data = none ∧ Alike erase demux (demux.accept pkt).demux := by
  have hfollowed : ((demux.follow pkt).pids pkt.getPID).sync = false ∧
      ((demux.follow pkt).pids pkt.getPID).ts = (demux.pids pkt.getPID).ts := by
    unfold follow
    dsimp only
    rw [if_neg (by simp [hsync])]
    simp [setPID, hsync]
  have hfollow : Alike erase demux (demux.follow pkt) := demux.alike_follow pkt hsync
  have hequivalence := alike_equivalence erase
  unfold accept
  rw [if_neg (by simp [hvalid])]
  by_cases hscrambled : pkt.getScrambling ≠ 0
  · rw [if_pos hscrambled]
    exact ⟨rfl, (demux.alike_lose pkt.getPID hsync (hempty (Or.inl hscrambled))).counted
      demux.status _ demux.packetCount _⟩
  · rw [if_neg hscrambled, if_neg (by simp [hsync])]
    dsimp only
    by_cases hpayload : pkt.hasPayload = false ∨ pktSize ≤ pkt.getHeaderSize
    · rw [if_pos hpayload]
      exact ⟨rfl, hfollow⟩
    · rw [if_neg hpayload]
      obtain ⟨hhas, hheader⟩ := not_or.mp hpayload
      rw [Bool.not_eq_false] at hhas
      unfold acceptPayload
      dsimp only
      by_cases hpusi : pkt.getPUSI = true
      · rw [if_pos hpusi]
        have hnone : pkt.startsPES = true ∨ pkt.sectionData.length ≤ pkt.pointerField := by
          by_contra hsome
          obtain ⟨hpes, hpointer⟩ := not_or.mp hsome
          exact hstarts ⟨hvalid, not_not.mp hscrambled, hhas, not_le.mp hheader, hpusi,
            Bool.not_eq_true _ ▸ hpes, not_le.mp hpointer⟩
        have hloses : pkt.LosesSections := Or.inr ⟨hhas, not_le.mp hheader, hpusi, hnone⟩
        have hmarked := (demux.follow pkt).alike_setPID erase pkt.getPID
          { (demux.follow pkt).pids pkt.getPID with
            pusiPktIndex := (demux.follow pkt).packetCount }
          ⟨rfl, fun _ ↦ rfl, rfl, fun _ ↦ rfl⟩
        have hlost := hmarked.lose pkt.getPID
        have hgone := hequivalence.trans (hequivalence.trans hfollow
          ((demux.follow pkt).alike_lose pkt.getPID hfollowed.1
            (hfollowed.2.trans (hempty hloses)))) hlost
        split_ifs with hpes hpointer
        · exact ⟨rfl, hgone⟩
        · exact ⟨rfl, hgone⟩
        all_goals exact absurd hnone (by simp_all)
      · rw [if_neg hpusi, if_neg (by simp [hfollowed.1])]
        exact ⟨rfl, hfollow⟩

variable (erase handlers) in
/-- A copy has no data, unless it restarts the sections. -/
theorem accept_copy (before : SectionDemux State) (pkt : TSPacket)
    (hbefore : before.pidFilter pkt.getPID = true)
    (hfiltered : (before.feedPacket handlers pkt).1.pidFilter pkt.getPID = true)
    (hrestarts : ¬ (before.feedPacket handlers pkt).1.Restarts pkt) :
    ((before.feedPacket handlers pkt).1.accept pkt).data = none ∧
      Alike erase (before.feedPacket handlers pkt).1
        ((before.feedPacket handlers pkt).1.accept pkt).demux := by
  have hpids : (before.feedPacket handlers pkt).1.pids =
      (before.processPacket handlers pkt).1.pids := by
    unfold feedPacket
    rw [if_pos hbefore]
  have hcounter := before.counter_processPacket handlers pkt
  have hempty := before.ts_processPacket_of_loses handlers pkt
  rw [← hpids] at hcounter hempty
  generalize (before.feedPacket handlers pkt).1 = state at *
  cases hvalid : pkt.hasValidSync with
  | false =>
    unfold accept
    rw [if_pos hvalid]
    exact ⟨rfl, ((alike_equivalence erase).refl state).counted _ _ _ _⟩
  | true =>
    cases hsync : (state.pids pkt.getPID).sync with
    | true =>
      obtain ⟨hclear, hsame⟩ := hcounter hvalid hsync
      unfold accept
      rw [if_neg (by simp [hvalid]), if_neg (by simp [hclear]), if_pos ⟨hsync, hsame.symm⟩]
      exact ⟨rfl, (alike_equivalence erase).refl state⟩
    | false =>
      exact state.accept_of_not_startsSections pkt hvalid hsync
        (fun hloses ↦ hempty hvalid hloses hsync)
        fun hstarts ↦ hrestarts ⟨hfiltered, hsync, hstarts⟩

theorem machine_ignoresCopies : (machine handlers).IgnoresCopies (Alike erase) DemuxEvent.call
    fun demux pkt ↦ ¬ demux.Restarts pkt := by
  intro before state next pkt outputs outputs' hstep hrestarts hstep'
  have hfed : before.feedPacket handlers pkt = (state, outputs) := Option.some.inj hstep
  have hcopied : state.feedPacket handlers pkt = (next, outputs') := Option.some.inj hstep'
  have hstate : (before.feedPacket handlers pkt).1 = state := congrArg Prod.fst hfed
  unfold feedPacket at hcopied
  by_cases hfiltered : state.pidFilter pkt.getPID = true
  · have hbefore : before.pidFilter pkt.getPID = true := by
      by_contra hnot
      unfold feedPacket at hfed
      rw [if_neg hnot] at hfed
      obtain ⟨rfl, -⟩ := Prod.mk.inj hfed
      exact hnot hfiltered
    have hcopy := before.accept_copy erase handlers pkt hbefore
    rw [hstate] at hcopy
    obtain ⟨hnone, hsame⟩ := hcopy hfiltered hrestarts
    rw [if_pos hfiltered] at hcopied
    unfold processPacket at hcopied
    dsimp only at hcopied
    rw [hnone] at hcopied
    obtain ⟨rfl, rfl⟩ := Prod.mk.inj hcopied
    exact ⟨hsame.counted state.status _ state.packetCount _, rfl⟩
  · rw [if_neg hfiltered] at hcopied
    obtain ⟨rfl, rfl⟩ := Prod.mk.inj hcopied
    exact ⟨((alike_equivalence erase).refl state).counted state.status _ state.packetCount _, rfl⟩

end SectionDemux

/-! ### Repeated packets -/

section Transparency

open Machine

variable {State Other Erased Rest : Type}

/-- Assumes: handlers that do not look at the indexes of packets. For every sequence of packets and
every copy of it, each demux makes the same calls in the same order where no copy restarts the
sections of its PID, or truncates a PES packet. -/
theorem duplicatePackets_transparent {handlers : DemuxHandlers State} {erase : State → Erased}
    (hhandlers : handlers.IgnoreIndexes erase) {handler : PESHandler Other} {erase' : Other → Rest}
    (hhandler : handler.IgnoreIndexes erase') (demux : SectionDemux State)
    (pesDemux : PESDemux Other) (sequence : List (TSPacket × ℕ)) :
    ((SectionDemux.machine handlers).marked.Meets
        (OnCopies fun current pkt ↦ ¬ current.Restarts pkt) demux (repeated sequence) →
      (SectionDemux.machine handlers).seen DemuxEvent.call demux (sequence.map Prod.fst) =
        (SectionDemux.machine handlers).seen DemuxEvent.call demux
          ((repeated sequence).map Prod.fst)) ∧
    ((PESDemux.machine handler).marked.Meets
        (OnCopies fun current pkt ↦ ¬ current.Truncates handler pkt) pesDemux (repeated sequence) →
      (PESDemux.machine handler).seen PESPacket.call pesDemux (sequence.map Prod.fst) =
        (PESDemux.machine handler).seen PESPacket.call pesDemux
          ((repeated sequence).map Prod.fst)) := by
  constructor
  · intro hmeets
    exact seen_repeated (fun current pkt ↦ ⟨_, _, rfl⟩) (SectionDemux.alike_equivalence erase)
      (SectionDemux.machine_congruence hhandlers) SectionDemux.machine_ignoresCopies demux sequence
      hmeets
  · intro hmeets
    exact seen_repeated (fun current pkt ↦ ⟨_, _, rfl⟩) (PESDemux.alike_equivalence erase')
      (PESDemux.machine_congruence hhandler) PESDemux.machine_ignoresCopies pesDemux sequence hmeets

/-- The start of a PES packet on PID 49, or its continuation. -/
def pesTransportPacket (starts : Bool) (continuity : ℕ) : TSPacket where
  bytes := packetHeader starts 0x31 continuity ++
    ((if starts then [0x00, 0x00, 0x01] else [0xFF, 0xFF, 0xFF]) ++
      [0xBD, 0x00, 0x00, 0x80, 0x00, 0x00] ++ List.replicate 175 0xFF)
  length_eq := by cases starts <;> rfl

def countPESPackets : PESHandler ℕ where
  handlePESPacket := some fun count _ ↦ (count + 1, [])

def countSections : DemuxHandlers ℕ where
  handleTable := none
  handleSection := some fun count _ ↦ (count + 1, [])

/-- The continuation of a PES packet is repeated twice. -/
theorem copiedContinuation_transparent :
    (PESDemux.machine countPESPackets).seen PESPacket.call (.new (fun _ ↦ true) 0)
        [pesTransportPacket true 0, pesTransportPacket false 1, pesTransportPacket true 2] =
      (PESDemux.machine countPESPackets).seen PESPacket.call (.new (fun _ ↦ true) 0)
        [pesTransportPacket true 0, pesTransportPacket false 1, pesTransportPacket false 1,
          pesTransportPacket false 1, pesTransportPacket true 2] := by
  have hsections : countSections.IgnoreIndexes id :=
    ⟨nofun, fun handle hhandle _ _ _ _ hstate _ ↦ by
      obtain rfl := Option.some.inj hhandle
      exact ⟨congrArg (· + 1) hstate, rfl⟩⟩
  have hpackets : countPESPackets.IgnoreIndexes id := fun handle hhandle _ _ _ _ hstate _ ↦ by
    obtain rfl := Option.some.inj hhandle
    exact ⟨congrArg (· + 1) hstate, rfl⟩
  refine (duplicatePackets_transparent hsections hpackets (.new (fun _ ↦ true) 0)
    (.new (fun _ ↦ true) 0) [(pesTransportPacket true 0, 0), (pesTransportPacket false 1, 2),
      (pesTransportPacket true 2, 0)]).2 ?_
  apply meets_repeated
  intro entry hentry hcopied demux
  have hentry : entry = (pesTransportPacket false 1, 2) := by
    simp only [List.mem_cons, List.not_mem_nil, or_false] at hentry
    rcases hentry with rfl | rfl | rfl
    · exact absurd hcopied (by decide)
    · rfl
    · exact absurd hcopied (by decide)
  rintro ⟨-, -, -, context, hcontext, -⟩
  have hpusi : (pesTransportPacket false 1).getPUSI = false := by decide
  rw [hentry] at hcontext
  unfold PESDemux.complete at hcontext
  rw [hpusi] at hcontext
  cases hcontext

/-- The first copy alone is given as a PES packet. -/
theorem copiedStart_not_transparent :
    (PESDemux.machine countPESPackets).seen PESPacket.call (.new (fun _ ↦ true) 0)
        ([(pesTransportPacket true 0, 1), (pesTransportPacket true 1, 0)].map Prod.fst) ≠
      (PESDemux.machine countPESPackets).seen PESPacket.call (.new (fun _ ↦ true) 0)
        ((repeated [(pesTransportPacket true 0, 1), (pesTransportPacket true 1, 0)]).map
          Prod.fst) := by
  decide +kernel

end Transparency

end TSDuck
