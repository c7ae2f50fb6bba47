import TSDuck.Psi.CorruptedSections

/-!
# Truncated sections

The pointer field of a packet designates the start of a section in the packet. When the section
which is being collected should end after this start, it is truncated: the demux skips it, and the
section at the pointer follows. `resumesAtPointer_iff`: the demux goes on with the section at the
pointer exactly when the announced length is valid and the buffer is as long as it.
-/

namespace TSDuck

namespace SectionDemux

variable {State : Type}

theorem foundSections_turns (packetCount : ℕ) {first second : ℕ} {data : ByteBlock}
    (hfirst : data.length ≤ first) (hsecond : data.length ≤ second) (toPusi firstPkt : ℕ) :
    foundSections packetCount first data toPusi firstPkt =
      foundSections packetCount second data toPusi firstPkt := by
  have hshort : ∀ (turns : ℕ) (data : ByteBlock) (toPusi firstPkt : ℕ), data.length < 3 →
      foundSections packetCount turns data toPusi firstPkt = [] := by
    intro turns data toPusi firstPkt hdata
    cases turns with
    | zero => rfl
    | succ turns => exact if_pos (Or.inl hdata)
  induction first generalizing second data toPusi firstPkt with
  | zero => rw [hshort 0 _ _ _ (by omega), hshort second _ _ _ (by omega)]
  | succ first ih =>
    cases second with
    | zero => rw [hshort _ _ _ _ (by omega), hshort _ _ _ _ (by omega)]
    | succ second =>
      unfold foundSections
      by_cases hend : data.length < 3 ∨ InvalidLength data ∨ data.length < announcedSize data
      · rw [if_pos hend, if_pos hend]
      · rw [if_neg hend, if_neg hend]
        have hlength := length_skipStuffing_drop data (length_findSection data toPusi firstPkt).1
          (show 0 < data.length by omega)
        rw [ih (show _ ≤ first by omega) (show _ ≤ second by omega)]

variable (handlers : DemuxHandlers State) (pid : ℕ)

theorem collect_of_incomplete (turns : ℕ) (demux : SectionDemux State) {data : ByteBlock}
    (toPusi firstPkt : ℕ)
    (hincomplete : data.length < 3 ∨ ¬InvalidLength data ∧ data.length < announcedSize data) :
    collect handlers pid turns demux data toPusi firstPkt = (demux.keep pid data, []) := by
  cases turns with
  | zero => rfl
  | succ turns =>
    unfold collect
    rcases hincomplete with hsmall | ⟨hvalid, hlength⟩
    · exact if_pos hsmall
    · rw [if_neg hvalid, if_pos hlength, ite_self]

theorem collect_turns {first second : ℕ} {demux : SectionDemux State} {data : ByteBlock}
    (hfirst : data.length ≤ first) (hsecond : data.length ≤ second) (toPusi firstPkt : ℕ) :
    collect handlers pid first demux data toPusi firstPkt =
      collect handlers pid second demux data toPusi firstPkt := by
  induction first generalizing second demux data toPusi firstPkt with
  | zero =>
    rw [collect_of_incomplete handlers pid second demux toPusi firstPkt (Or.inl (by omega))]
    rfl
  | succ first ih =>
    cases second with
    | zero =>
      rw [collect_of_incomplete handlers pid (first + 1) demux toPusi firstPkt (Or.inl (by omega))]
      rfl
    | succ second =>
      unfold collect
      by_cases hsmall : data.length < 3
      · rw [if_pos hsmall, if_pos hsmall]
      · rw [if_neg hsmall, if_neg hsmall]
        have hlength := length_skipStuffing_drop data (length_findSection data toPusi firstPkt).1
          (show 0 < data.length by omega)
        split_ifs
        · rfl
        · rfl
        · dsimp only
          rw [ih (show _ ≤ first by omega) (show _ ≤ second by omega)]

theorem pids_serve_of_reset (demux : SectionDemux State) {requests : List DemuxRequest}
    (hreset : (demux.serve pid requests).2 = true) : (demux.serve pid requests).1.pids pid = .new := by
  unfold serve at hreset ⊢
  dsimp only at hreset ⊢
  rcases of_decide_eq_true hreset with hpid | hall
  · rw [if_pos hpid]
    split_ifs
    · rfl
    · exact Function.update_self _ _ _
  · rw [if_pos hall]
    rfl

theorem pids_analyzeContent_of_reset (demux : SectionDemux State) (found : Found)
    (hreset : (demux.analyzeContent handlers pid found).2.2 = true) :
    (demux.analyzeContent handlers pid found).1.pids pid = .new := by
  unfold analyzeContent at hreset ⊢
  dsimp only at hreset ⊢
  by_cases hcount : found.lastSectionNumber + 1 ≠ ((demux.pids pid).tids found.etid).sectExpected
  · rw [if_pos hcount] at hreset
    exact absurd hreset Bool.false_ne_true
  rw [if_neg hcount] at hreset ⊢
  by_cases hneeded : handlers.handleSection.isSome = true ∨
      ((demux.pids pid).tids found.etid).sects.getD found.sectionNumber none = none
  · rw [if_pos hneeded] at hreset ⊢
    cases hsect : found.toSection pid demux.packetCount with
    | none =>
      rw [hsect] at hreset
      exact absurd hreset Bool.false_ne_true
    | some sect =>
      rw [hsect] at hreset
      exact pids_serve_of_reset pid _ hreset
  · rw [if_neg hneeded] at hreset
    exact absurd hreset Bool.false_ne_true

theorem pids_analyze_of_reset (demux : SectionDemux State) (found : Found)
    (hreset : (demux.analyze handlers pid found).2.2 = true) :
    (demux.analyze handlers pid found).1.pids pid = .new := by
  unfold analyze at hreset ⊢
  dsimp only at hreset ⊢
  by_cases heligible : demux.IsEligible found
  · rw [if_pos heligible] at hreset ⊢
    exact pids_analyzeContent_of_reset handlers pid _ found hreset
  · rw [if_neg heligible] at hreset
    exact absurd hreset Bool.false_ne_true

theorem ts_keep (demux : SectionDemux State) (data : ByteBlock) :
    ((demux.keep pid data).pids pid).ts = data := by
  unfold keep setPID
  dsimp only
  rw [Function.update_self]

theorem ts_loseLength (demux : SectionDemux State) : ((demux.loseLength pid).pids pid).ts = [] := by
  unfold loseLength setPID
  dsimp only
  rw [Function.update_self]
  rfl

theorem length_ts_collect (turns : ℕ) (demux : SectionDemux State) (data : ByteBlock)
    (toPusi firstPkt : ℕ) :
    ((collect handlers pid turns demux data toPusi firstPkt).1.pids pid).ts.length ≤ data.length := by
  induction turns generalizing demux data toPusi firstPkt with
  | zero => exact le_of_eq (congrArg List.length (ts_keep pid demux data))
  | succ turns ih =>
    unfold collect
    split_ifs with hsmall hinvalid hincomplete
    · exact le_of_eq (congrArg List.length (ts_keep pid demux data))
    · rw [ts_loseLength]
      exact Nat.zero_le _
    · exact le_of_eq (congrArg List.length (ts_keep pid demux data))
    · have hlength := length_skipStuffing_drop data (length_findSection data toPusi firstPkt).1
        (show 0 < data.length by omega)
      dsimp only
      split_ifs with hreset
      · rw [pids_analyze_of_reset handlers pid demux _ hreset]
        exact Nat.zero_le _
      · exact (ih _ _ _ _).trans (Nat.le_of_lt hlength)

/-- A block which starts like a section. -/
structure IsSectionStart (data : ByteBlock) : Prop where
  ne_nil : data ≠ []
  not_stuffing : data.head? ≠ some 0xFF
  valid : 3 ≤ data.length → ¬InvalidLength data

/-- A loop goes on from the next section in the block. -/
def SkipsTo (handlers : DemuxHandlers State) (pid : ℕ) (demux : SectionDemux State)
    (data : ByteBlock) (toPusi firstPkt : ℕ) : Prop :=
  collect handlers pid data.length demux data toPusi firstPkt =
      collect handlers pid (data.drop toPusi).length demux (data.drop toPusi) 0 demux.packetCount ∧
    (foundSections demux.packetCount data.length data toPusi firstPkt).filter Found.isComplete =
      (foundSections demux.packetCount (data.drop toPusi).length (data.drop toPusi) 0
        demux.packetCount).filter Found.isComplete

theorem analyze_of_truncated (demux : SectionDemux State) {found : Found}
    (htruncated : found.isComplete = false) :
    demux.analyze handlers pid found = (demux, [], false) := by
  have hlong : found.isLong = false := by rw [Found.isLong, htruncated, Bool.false_and]
  have hindex : found.IndexInRange := by
    unfold Found.IndexInRange Found.sectionNumber
    rw [hlong]
    exact Nat.zero_le _
  have hnext : ¬(found.isNext = true ∧ demux.getNext = false) := by
    intro hboth
    have hisNext := hboth.1
    rw [Found.isNext, hlong, Bool.false_and] at hisNext
    exact Bool.false_ne_true hisNext
  have hcounted : demux.countHeader found = demux := by
    unfold countHeader
    rw [if_pos hindex, if_neg hnext]
    rfl
  have heligible : ¬demux.IsEligible found := fun hlooks ↦
    Bool.false_ne_true (htruncated.symm.trans hlooks.1)
  unfold analyze
  rw [if_neg heligible, hcounted]

variable {handlers pid} {demux : SectionDemux State} {data : ByteBlock} {toPusi firstPkt : ℕ}

theorem skipsTo_of_complete (hpusi : 0 < toPusi) (hcut : toPusi < announcedSize data)
    (hstarts : IsSectionStart (data.drop toPusi)) (hvalid : ¬InvalidLength data)
    (hcomplete : announcedSize data ≤ data.length) :
    SkipsTo handlers pid demux data toPusi firstPkt := by
  have hthree : 3 ≤ announcedSize data := by
    rw [announcedSize, shortSectionHeaderSize]
    omega
  have hfound : findSection data toPusi firstPkt =
      { data, length := toPusi, isComplete := false, firstPkt } := if_pos ⟨hpusi, hcut⟩
  have hskip : skipStuffing (data.drop toPusi) = data.drop toPusi := if_neg hstarts.not_stuffing
  obtain ⟨turns, hturns⟩ := Nat.exists_eq_succ_of_ne_zero (show data.length ≠ 0 by omega)
  have hrest : (data.drop toPusi).length ≤ turns := by
    rw [List.length_drop]
    omega
  unfold SkipsTo
  rw [hturns]
  constructor
  · conv_lhs => unfold collect
    rw [if_neg (show ¬data.length < 3 by omega), if_neg hvalid, if_neg (not_lt.mpr hcomplete), hfound]
    dsimp only
    rw [analyze_of_truncated handlers pid demux rfl]
    dsimp only
    rw [if_neg Bool.false_ne_true, hskip, Nat.sub_self, List.nil_append,
      collect_turns handlers pid hrest le_rfl]
  · conv_lhs => unfold foundSections
    rw [if_neg (show ¬(data.length < 3 ∨ InvalidLength data ∨ data.length < announcedSize data) by
      rw [not_or, not_or]
      exact ⟨by omega, hvalid, not_lt.mpr hcomplete⟩), hfound]
    dsimp only
    rw [List.filter_cons_of_neg Bool.false_ne_true, hskip, Nat.sub_self,
      foundSections_turns _ hrest le_rfl]

theorem complete_of_skipsTo (hpusi : 0 < toPusi) (hinside : toPusi < data.length)
    (hstarts : IsSectionStart (data.drop toPusi))
    (hskips : SkipsTo handlers pid demux data toPusi firstPkt) :
    ¬InvalidLength data ∧ announcedSize data ≤ data.length := by
  obtain ⟨hcollect, hfound⟩ := hskips
  have hrest : (data.drop toPusi).length < data.length := by
    rw [List.length_drop]
    omega
  -- a buffer which is kept as it is has more bytes than what follows the start of the section
  have hnotKept : ¬(data.length < 3 ∨ ¬InvalidLength data ∧ data.length < announcedSize data) := by
    intro hkept
    have hlength := length_ts_collect handlers pid (data.drop toPusi).length demux
      (data.drop toPusi) 0 demux.packetCount
    rw [← hcollect, collect_of_incomplete handlers pid _ demux _ _ hkept, ts_keep] at hlength
    exact absurd hlength (not_le.mpr hrest)
  obtain ⟨hsmall, hincomplete⟩ := not_or.mp hnotKept
  have hvalid : ¬InvalidLength data := by
    intro hinvalid
    obtain ⟨turns, hturns⟩ := Nat.exists_eq_succ_of_ne_zero (show data.length ≠ 0 by omega)
    have hlost : collect handlers pid data.length demux data toPusi firstPkt =
        (demux.loseLength pid, []) := by
      rw [hturns]
      unfold collect
      rw [if_neg hsmall, if_pos hinvalid]
    have hnone : foundSections demux.packetCount data.length data toPusi firstPkt = [] := by
      rw [hturns]
      exact if_pos (Or.inr (Or.inl hinvalid))
    rw [hnone] at hfound
    have hstartKept : (data.drop toPusi).length < 3 ∨ ¬InvalidLength (data.drop toPusi) ∧
          (data.drop toPusi).length < announcedSize (data.drop toPusi) := by
      by_contra hgoes
      rw [not_or, not_lt] at hgoes
      have hvalid := hstarts.valid hgoes.1
      have hcomplete : announcedSize (data.drop toPusi) ≤ (data.drop toPusi).length := by
        by_contra hshort
        exact hgoes.2 ⟨hvalid, not_le.mp hshort⟩
      obtain ⟨more, hmore⟩ := Nat.exists_eq_succ_of_ne_zero
        (show (data.drop toPusi).length ≠ 0 by omega)
      rw [hmore] at hfound
      unfold foundSections at hfound
      rw [if_neg (by
        rw [not_or, not_or, not_lt, not_lt]
        exact ⟨by omega, hvalid, hcomplete⟩)] at hfound
      have hwhole : (findSection (data.drop toPusi) 0 demux.packetCount).isComplete = true := by
        unfold findSection
        rw [if_neg (fun hboth ↦ Nat.lt_irrefl 0 hboth.1)]
      rw [List.filter_cons_of_pos hwhole] at hfound
      exact absurd hfound.symm (List.cons_ne_nil _ _)
    rw [hlost, collect_of_incomplete handlers pid _ demux _ _ hstartKept] at hcollect
    have hbuffer := congrArg (fun result ↦ (result.1.pids pid).ts) hcollect
    dsimp only at hbuffer
    rw [ts_loseLength, ts_keep] at hbuffer
    exact hstarts.ne_nil hbuffer.symm
  refine ⟨hvalid, ?_⟩
  by_contra hshort
  exact hincomplete ⟨hvalid, not_le.mp hshort⟩

section Packet

variable (demux : SectionDemux State) (pkt : TSPacket) (data : ByteBlock)

/-- The buffer of a PID, with the data of a packet. -/
def bufferWith : ByteBlock :=
  ((demux.accept pkt).demux.pids pkt.getPID).ts ++ data

def pointedPlace : ℕ :=
  ((demux.accept pkt).demux.pids pkt.getPID).ts.length + (demux.accept pkt).pointer

def pointedData : ByteBlock :=
  (demux.bufferWith pkt data).drop (demux.pointedPlace pkt)

/-- The announced end is after the pointer field. -/
structure CutsSection : Prop where
  pusi : pkt.getPUSI = true
  accepted : (demux.accept pkt).data = some data
  collecting : 0 < demux.pointedPlace pkt
  beyond : demux.pointedPlace pkt < announcedSize (demux.bufferWith pkt data)
  starts : IsSectionStart (demux.pointedData pkt data)

/-- The packet does what a buffer from the section at the pointer on does. -/
def ResumesAtPointer (handlers : DemuxHandlers State) : Prop :=
  demux.processPacket handlers pkt =
      collect handlers pkt.getPID (demux.pointedData pkt data).length (demux.accept pkt).demux
        (demux.pointedData pkt data) 0 (demux.accept pkt).demux.packetCount ∧
    (demux.sectionsOf pkt).filter Found.isComplete =
      (foundSections (demux.accept pkt).demux.packetCount (demux.pointedData pkt data).length
        (demux.pointedData pkt data) 0 (demux.accept pkt).demux.packetCount).filter Found.isComplete

variable {demux pkt data}

/-- Assumes: a section starts before the announced end of the collected one. The demux goes on with
it exactly when the announced length is valid and the buffer contains all of it. -/
theorem resumesAtPointer_iff (handlers : DemuxHandlers State) (hcuts : demux.CutsSection pkt data) :
    demux.ResumesAtPointer pkt data handlers ↔ ¬InvalidLength (demux.bufferWith pkt data) ∧
        announcedSize (demux.bufferWith pkt data) ≤ (demux.bufferWith pkt data).length := by
  obtain ⟨hpusi, haccepted, hcollecting, hbeyond, hstarts⟩ := hcuts
  have hplace : (demux.bufferWith pkt data).length - data.length + (demux.accept pkt).pointer =
      demux.pointedPlace pkt := by
    unfold bufferWith pointedPlace
    rw [List.length_append, Nat.add_sub_cancel]
  have hprocess : demux.processPacket handlers pkt =
      collect handlers pkt.getPID (demux.bufferWith pkt data).length (demux.accept pkt).demux
        (demux.bufferWith pkt data) (demux.pointedPlace pkt) (demux.accept pkt).firstPkt := by
    unfold processPacket
    dsimp only
    rw [haccepted]
    dsimp only
    rw [if_pos hpusi]
    exact congrArg (fun place ↦ collect handlers pkt.getPID _ _ _ place _) hplace
  have hsections : demux.sectionsOf pkt =
      foundSections (demux.accept pkt).demux.packetCount (demux.bufferWith pkt data).length
        (demux.bufferWith pkt data) (demux.pointedPlace pkt) (demux.accept pkt).firstPkt := by
    unfold sectionsOf
    dsimp only
    rw [haccepted]
    dsimp only
    rw [if_pos hpusi]
    exact congrArg (fun place ↦ foundSections _ _ _ place _) hplace
  have hinside : demux.pointedPlace pkt < (demux.bufferWith pkt data).length := by
    by_contra houtside
    exact hstarts.ne_nil (List.drop_eq_nil_of_le (not_lt.mp houtside))
  unfold ResumesAtPointer
  rw [hprocess, hsections]
  exact ⟨fun hskips ↦ complete_of_skipsTo hcollecting hinside hstarts hskips,
    fun hwhole ↦ skipsTo_of_complete hcollecting hbeyond hstarts hwhole.1 hwhole.2⟩

end Packet

/-- A packet where a short section starts. -/
def sectionStart (high low : UInt8) : TSPacket where
  bytes := packetHeader true 0x11 0 ++ [0, 0x72, 0x70 ||| high, low] ++ List.replicate 180 0
  length_eq := rfl

/-- A section starts after 20 bytes of the previous one. -/
def cutPacket : TSPacket where
  bytes := packetHeader true 0x11 1 ++ 20 :: List.replicate 20 0 ++
    [0x72, 0x70, 3, 1, 2, 3] ++ List.replicate 157 0xFF
  length_eq := rfl

def demuxAfter (pkt : TSPacket) : SectionDemux ℕ :=
  ((new (fun _ ↦ true) 0).feedPacket countingHandlers pkt).1

/-- A section of 250 bytes is cut: the next one is found. -/
theorem cutPacket_resumesAtPointer :
    (demuxAfter (sectionStart 0 0xF7)).ResumesAtPointer cutPacket cutPacket.sectionData
      countingHandlers := by
  have hcuts : (demuxAfter (sectionStart 0 0xF7)).CutsSection cutPacket cutPacket.sectionData :=
    { pusi := by decide +kernel
      accepted := by decide +kernel
      collecting := by decide +kernel
      beyond := by decide +kernel
      starts := ⟨by decide +kernel, by decide +kernel, fun _ ↦ by decide +kernel⟩ }
  exact (resumesAtPointer_iff countingHandlers hcuts).mpr ⟨by decide +kernel, by decide +kernel⟩

/-- A section of 1000 bytes is cut: the demux waits for the rest. -/
theorem cutPacket_not_resumesAtPointer :
    (demuxAfter (sectionStart 3 0xE5)).CutsSection cutPacket cutPacket.sectionData ∧
      ¬(demuxAfter (sectionStart 3 0xE5)).ResumesAtPointer cutPacket cutPacket.sectionData
        countingHandlers := by
  refine ⟨
    { pusi := by decide +kernel
      accepted := by decide +kernel
      collecting := by decide +kernel
      beyond := by decide +kernel
      starts := ⟨by decide +kernel, by decide +kernel, fun _ ↦ by decide +kernel⟩ },
    fun hresumes ↦ ?_⟩
  have hnone : (foundSections ((demuxAfter (sectionStart 3 0xE5)).accept cutPacket).demux.packetCount
      ((demuxAfter (sectionStart 3 0xE5)).pointedData cutPacket cutPacket.sectionData).length
      ((demuxAfter (sectionStart 3 0xE5)).pointedData cutPacket cutPacket.sectionData) 0
      ((demuxAfter (sectionStart 3 0xE5)).accept cutPacket).demux.packetCount).filter
        Found.isComplete ≠ [] := by decide +kernel
  rw [← hresumes.2] at hnone
  exact hnone (by decide +kernel)

end SectionDemux

end TSDuck
