import TSDuck.Scte35.RMSplice
import TSDuck.Tools.FixCC

/-!
# Packets after removed parts

The packets of a PID which is spliced out are dropped. The others are sent: with `adjustTime` the
time which is removed before them is subtracted from their clocks, and with `fixCC` the next
continuity counter is written.

`isCorrect_iff_isSafe` states in which runs the packets which are sent have correct counters and
clocks.

Scope. The inputs of a PID are those of its splice events. A clock reference which has no room in
its adaptation field ends the process.
-/

namespace TSDuck

namespace TSPacket

def pcrMask : ℕ := 0x000003FFFFFFFFFF

namespace Clock

def factor : Clock → ℕ
  | pts => 1
  | dts => 1
  | pcr => 300
  | opcr => 300

def shifted (totalAdjust value : ℕ) : Clock → ℕ
  | pts => (value + 2 ^ 64 - totalAdjust) &&& ptsDtsMask
  | dts => (value + 2 ^ 64 - totalAdjust) &&& ptsDtsMask
  | pcr => (value + 2 ^ 64 - totalAdjust * 300) &&& pcrMask
  | opcr => (value + 2 ^ 64 - totalAdjust * 300) &&& pcrMask

def adjust (totalAdjust : ℕ) (pkt : TSPacket) (clock : Clock) : TSPacket :=
  clock.set pkt (clock.shifted totalAdjust (clock.get pkt))

/-- The packet has no flag of a clock reference without room for it. -/
def HasRoom (pkt : TSPacket) : Prop :=
  (pkt.hasPCR = true → pkt.pcrOffset ≠ 0) ∧ (pkt.hasOPCR = true → pkt.opcrOffset ≠ 0)

/-- A clock is not before a time. -/
def IsAfter (time : ℕ) (pkt : TSPacket) : Clock → Prop
  | pts => True
  | dts => True
  | pcr => pkt.pcrOffset ≠ 0 → time * 300 ≤ pkt.getPCR
  | opcr => pkt.opcrOffset ≠ 0 → time * 300 ≤ pkt.getOPCR

end Clock

end TSPacket

namespace RMSplice

open TSPacket

/-- Subtracts a time from the clocks, `none` without room. -/
def adjustPacket (totalAdjust : ℕ) (pkt : TSPacket) : Option TSPacket :=
  let pkt := if pkt.hasPTS then
    pkt.setPTS ((pkt.getPTS + 2 ^ 64 - totalAdjust) &&& ptsDtsMask) else pkt
  let pkt := if pkt.hasDTS then
    pkt.setDTS ((pkt.getDTS + 2 ^ 64 - totalAdjust) &&& ptsDtsMask) else pkt
  (if pkt.hasPCR then
    pkt.setPCR ((pkt.getPCR + 2 ^ 64 - totalAdjust * 300) &&& pcrMask) else some pkt).bind fun pkt ↦
  if pkt.hasOPCR then
    pkt.setOPCR ((pkt.getOPCR + 2 ^ 64 - totalAdjust * 300) &&& pcrMask) else some pkt

/-- Writes the next counter after the one of the state, if there is one. -/
def fixPacket (options : Options) (state : PIDState) (pkt : TSPacket) : TSPacket :=
  if options.fixCC && state.cc != 0xFF then pkt.setCC ((state.cc + 1) &&& 0x0F) else pkt

/-- Processes a packet: the one which is sent, if any. -/
def PIDState.processPacket (options : Options) (state : PIDState) (pkt : TSPacket) :
    Option (PIDState × Option TSPacket) :=
  let next := state.processSplice pkt
  if next.currentlyOut then some (next, none)
  else
    (if options.adjustTime && decide (0 < next.totalAdjust) then
      adjustPacket next.totalAdjust pkt else some pkt).map fun adjusted ↦
        let sent := fixPacket options next adjusted
        ({ next with cc := sent.getCC }, some sent)

/-! ### Removed parts -/

/-- The PTS of the start and of the end of each removed part. -/
structure Removals where
  start : Option ℕ
  parts : List (ℕ × ℕ)

namespace Removals

def next (removals : Removals) (wasOut isOut : Bool) (pts : ℕ) : Removals :=
  match wasOut, isOut with
  | false, true => { removals with start := some pts }
  | true, false =>
    { start := none, parts := removals.parts ++ (removals.start.map fun start ↦ (start, pts)).toList }
  | _, _ => removals

def duration (part : ℕ × ℕ) : ℕ :=
  (part.2 + ptsDtsScale - part.1) % ptsDtsScale

def removedTime (removals : Removals) : ℕ :=
  (removals.parts.map duration).sum

end Removals

/-- A packet which is sent. -/
structure Sent where
  received : TSPacket
  sent : TSPacket
  removed : ℕ

/-- The clocks of the packet are decreased by the removed time. -/
def Sent.IsDecreased (output : Sent) : Prop :=
  ∀ clock : Clock, clock.offset output.received ≠ 0 →
    clock.offset output.sent = clock.offset output.received ∧
      clock.get output.sent + clock.factor * output.removed ≡ clock.get output.received
        [MOD ptsDtsScale * clock.factor]

/-- A PID with its removed parts. -/
structure Filter where
  state : PIDState
  removals : Removals

def Filter.start : Filter where
  state := .new
  removals := { start := none, parts := [] }

def Filter.removalsAfter (filter : Filter) (pkt : TSPacket) : Removals :=
  filter.removals.next filter.state.currentlyOut (filter.state.processSplice pkt).currentlyOut
    pkt.getPTS

def filterStep (options : Options) (filter : Filter) : Input → Option (Filter × List Sent)
  | .command cmd tag => some (⟨filter.state.handleCommand options cmd tag, filter.removals⟩, [])
  | .packet pkt =>
    (filter.state.processPacket options pkt).map fun result ↦
      let removals := filter.removalsAfter pkt
      (⟨result.1, removals⟩, result.2.toList.map fun sent ↦ ⟨pkt, sent, removals.removedTime⟩)

def filterMachine (options : Options) : Machine Filter Input Sent where
  step := filterStep options

def packets (inputs : List Input) : List TSPacket :=
  inputs.filterMap fun input ↦
    match input with
    | .command _ _ => none
    | .packet pkt => some pkt

/-- The packets have correct counters and clocks. -/
structure IsCorrect (options : Options) (lastCC : Option UInt8) (outputs : List Sent) : Prop where
  continuous : options.fixCC = true → FixCC.Continuous lastCC (outputs.map Sent.sent)
  decreased : options.adjustTime = true → ∀ output ∈ outputs, output.IsDecreased

/-- With `fixCC`, each packet which is sent after the first one has a payload. With `adjustTime`,
the clock references after a removed part have their room and are not before the removed time. -/
def IsSafe (options : Options) (filter : Filter) : Input → Prop
  | .command _ _ => True
  | .packet pkt =>
    (filter.state.processSplice pkt).currentlyOut = false →
      (options.fixCC = true → filter.state.cc ≠ 0xFF → pkt.hasPayload = true) ∧
        let removed := (filter.removalsAfter pkt).removedTime % ptsDtsScale
        (options.adjustTime = true → removed ≠ 0 →
          Clock.HasRoom pkt ∧ ∀ clock, Clock.IsAfter removed pkt clock)

/-! ### Clocks of adjusted packets -/

section Clocks

variable {time value removed : ℕ} {pkt : TSPacket} {clock other : Clock}

theorem sameShape_adjust (time : ℕ) (pkt : TSPacket) (clock : Clock) :
    SameShape pkt (clock.adjust time pkt) :=
  Clock.sameShape_set clock pkt _

theorem get_adjust_of_ne (hne : clock ≠ other) (time : ℕ) (pkt : TSPacket) :
    other.get (clock.adjust time pkt) = other.get pkt :=
  Clock.get_set_of_ne hne pkt _

theorem get_adjust_self (hclock : clock.offset pkt ≠ 0) (time : ℕ) :
    clock.get (clock.adjust time pkt) = clock.kept (clock.shifted time (clock.get pkt)) :=
  Clock.get_set_self hclock _

def adjustAll (time : ℕ) (pkt : TSPacket) : TSPacket :=
  Clock.opcr.adjust time (Clock.pcr.adjust time (Clock.dts.adjust time (Clock.pts.adjust time pkt)))

theorem sameShape_adjustAll (time : ℕ) (pkt : TSPacket) : SameShape pkt (adjustAll time pkt) :=
  (((sameShape_adjust time pkt .pts).trans (sameShape_adjust time _ .dts)).trans
    (sameShape_adjust time _ .pcr)).trans (sameShape_adjust time _ .opcr)

theorem get_adjustAll (hclock : clock.offset pkt ≠ 0) (time : ℕ) :
    clock.get (adjustAll time pkt) = clock.kept (clock.shifted time (clock.get pkt)) := by
  have hpts := sameShape_adjust time pkt .pts
  have hdts := hpts.trans (sameShape_adjust time _ .dts)
  have hpcr := hdts.trans (sameShape_adjust time _ .pcr)
  unfold adjustAll
  cases clock with
  | pts =>
    rw [get_adjust_of_ne (by decide), get_adjust_of_ne (by decide), get_adjust_of_ne (by decide),
      get_adjust_self hclock]
  | dts =>
    rw [get_adjust_of_ne (by decide), get_adjust_of_ne (by decide),
      get_adjust_self (by rwa [Clock.offset_eq hpts]), get_adjust_of_ne (by decide)]
  | pcr =>
    rw [get_adjust_of_ne (by decide), get_adjust_self (by rwa [Clock.offset_eq hdts]),
      get_adjust_of_ne (by decide), get_adjust_of_ne (by decide)]
  | opcr =>
    rw [get_adjust_self (by rwa [Clock.offset_eq hpcr]), get_adjust_of_ne (by decide),
      get_adjust_of_ne (by decide), get_adjust_of_ne (by decide)]

theorem adjust_of_offset (clock : Clock) (hclock : clock.offset pkt = 0) (time : ℕ) :
    clock.adjust time pkt = pkt :=
  if_pos hclock

theorem setPTS_eq (time : ℕ) (pkt : TSPacket) :
    (if pkt.hasPTS then pkt.setPTS ((pkt.getPTS + 2 ^ 64 - time) &&& ptsDtsMask) else pkt) =
      Clock.pts.adjust time pkt := by
  rcases Nat.eq_zero_or_pos pkt.ptsOffset with hzero | hpos
  · rw [hasPTS, hzero, adjust_of_offset .pts hzero]
    rfl
  · rw [hasPTS, if_pos (decide_eq_true hpos)]
    exact (if_neg hpos.ne').trans (if_neg hpos.ne').symm

theorem setDTS_eq (time : ℕ) (pkt : TSPacket) :
    (if pkt.hasDTS then pkt.setDTS ((pkt.getDTS + 2 ^ 64 - time) &&& ptsDtsMask) else pkt) =
      Clock.dts.adjust time pkt := by
  rcases Nat.eq_zero_or_pos pkt.dtsOffset with hzero | hpos
  · rw [hasDTS, hzero, adjust_of_offset .dts hzero]
    rfl
  · rw [hasDTS, if_pos (decide_eq_true hpos)]
    exact (if_neg hpos.ne').trans (if_neg hpos.ne').symm

theorem setPCR_eq (time : ℕ) {pkt : TSPacket} (hroom : pkt.hasPCR = true → pkt.pcrOffset ≠ 0) :
    (if pkt.hasPCR then pkt.setPCR ((pkt.getPCR + 2 ^ 64 - time * 300) &&& pcrMask) else some pkt) =
      some (Clock.pcr.adjust time pkt) := by
  split_ifs with hpcr
  · exact (if_neg (hroom hpcr)).trans (congrArg some (if_neg (hroom hpcr)).symm)
  · have hzero : pkt.pcrOffset = 0 := if_neg fun hboth ↦ hpcr (Bool.and_eq_true _ _ ▸ hboth).1
    rw [adjust_of_offset .pcr hzero]

theorem setOPCR_eq (time : ℕ) {pkt : TSPacket} (hroom : pkt.hasOPCR = true → pkt.opcrOffset ≠ 0) :
    (if pkt.hasOPCR then pkt.setOPCR ((pkt.getOPCR + 2 ^ 64 - time * 300) &&& pcrMask)
      else some pkt) = some (Clock.opcr.adjust time pkt) := by
  split_ifs with hopcr
  · exact (if_neg (hroom hopcr)).trans (congrArg some (if_neg (hroom hopcr)).symm)
  · have hzero : pkt.opcrOffset = 0 := by
      rw [opcrOffset, if_pos]
      exact (Bool.not_eq_true' _).mpr (Bool.eq_false_of_not_eq_true hopcr)
    rw [adjust_of_offset .opcr hzero]

theorem adjustPacket_of_hasRoom (hroom : Clock.HasRoom pkt) (time : ℕ) :
    adjustPacket time pkt = some (adjustAll time pkt) := by
  have hdts := (sameShape_adjust time pkt .pts).trans (sameShape_adjust time _ .dts)
  have hpcr := hdts.trans (sameShape_adjust time _ .pcr)
  unfold adjustPacket
  dsimp only
  rw [setPTS_eq, setDTS_eq, setPCR_eq time (by rw [hdts.hasPCR_eq, hdts.pcrOffset_eq]; exact hroom.1)]
  exact setOPCR_eq time (by rw [hpcr.hasOPCR_eq, hpcr.opcrOffset_eq]; exact hroom.2)

theorem adjustPacket_of_not_hasRoom (hroom : ¬Clock.HasRoom pkt) (time : ℕ) :
    adjustPacket time pkt = none := by
  have hdts := (sameShape_adjust time pkt .pts).trans (sameShape_adjust time _ .dts)
  have hpcr := hdts.trans (sameShape_adjust time _ .pcr)
  unfold adjustPacket
  dsimp only
  rw [setPTS_eq, setDTS_eq]
  by_cases hfirst : pkt.hasPCR = true → pkt.pcrOffset ≠ 0
  · rw [setPCR_eq time (by rw [hdts.hasPCR_eq, hdts.pcrOffset_eq]; exact hfirst)]
    have hsecond : pkt.hasOPCR = true ∧ pkt.opcrOffset = 0 := by
      rw [Clock.HasRoom, not_and] at hroom
      have hnot := hroom hfirst
      rwa [Classical.not_imp, not_not] at hnot
    show (if _ then _ else _) = _
    rw [if_pos (hpcr.hasOPCR_eq.trans hsecond.1)]
    exact if_pos (hpcr.opcrOffset_eq.trans hsecond.2)
  · rw [Classical.not_imp, not_not] at hfirst
    rw [if_pos (hdts.hasPCR_eq.trans hfirst.1), setPCR, if_pos (hdts.pcrOffset_eq.trans hfirst.2)]
    rfl

theorem decreased_stamp (value removed : ℕ) :
    ((value + 2 ^ 64 - removed % ptsDtsScale) &&& ptsDtsMask) % 2 ^ 33 + 1 * removed ≡ value
      [MOD ptsDtsScale * 1] := by
  have hmask := and_ptsDtsMask (value + 2 ^ 64 - removed % ptsDtsScale)
  rw [hmask]
  unfold Nat.ModEq ptsDtsScale
  omega

theorem decreased_reference_iff {value removed : ℕ} (hvalue : value < 2 ^ 42) :
    ((value + 2 ^ 64 - removed % ptsDtsScale * 300) &&& pcrMask) / 300 % 2 ^ 33 * 300 +
          ((value + 2 ^ 64 - removed % ptsDtsScale * 300) &&& pcrMask) % 300 + 300 * removed ≡ value
        [MOD ptsDtsScale * 300] ↔ removed % ptsDtsScale * 300 ≤ value := by
  have hmask : (value + 2 ^ 64 - removed % ptsDtsScale * 300) &&& pcrMask =
      (value + 2 ^ 64 - removed % ptsDtsScale * 300) % 2 ^ 42 :=
    Nat.and_two_pow_sub_one_eq_mod _ 42
  have hkept : ∀ reference : ℕ, reference / 300 % 2 ^ 33 * 300 + reference % 300 =
      reference % (ptsDtsScale * 300) := by
    intro reference
    unfold ptsDtsScale
    omega
  have htime : removed % ptsDtsScale < ptsDtsScale := Nat.mod_lt _ (Nat.succ_pos _)
  have hremoved : 300 * removed ≡ 300 * (removed % ptsDtsScale) [MOD ptsDtsScale * 300] := by
    rw [Nat.mul_comm ptsDtsScale]
    exact (Nat.mod_modEq removed ptsDtsScale).symm.mul_left' 300
  rw [hmask, hkept]
  generalize removed % ptsDtsScale = time at htime hremoved ⊢
  refine Iff.trans ⟨((hremoved.symm.add_left _).trans ·), ((hremoved.add_left _).trans ·)⟩ ?_
  rcases Nat.lt_or_ge value (time * 300) with hbefore | hafter
  · refine iff_of_false (fun hsame ↦ ?_) (Nat.not_le.mpr hbefore)
    have hwrap : (value + 2 ^ 64 - time * 300) % 2 ^ 42 = value + 2 ^ 42 - time * 300 := by
      unfold ptsDtsScale at htime
      omega
    rw [hwrap] at hsame
    unfold Nat.ModEq ptsDtsScale at *
    omega
  · refine iff_of_true ?_ hafter
    have hdirect : (value + 2 ^ 64 - time * 300) % 2 ^ 42 = value - time * 300 := by
      omega
    have hsum : value - time * 300 + 300 * time = value := by
      omega
    rw [hdirect]
    exact ((Nat.mod_modEq _ _).add_right _).trans (by rw [hsum])

/-- The clocks which do not wrap up at 2^42. -/
theorem decreased_adjustAll_iff (pkt : TSPacket) (removed : ℕ) :
    (∀ clock : Clock, clock.offset pkt ≠ 0 →
      clock.get (adjustAll (removed % ptsDtsScale) pkt) + clock.factor * removed ≡ clock.get pkt
        [MOD ptsDtsScale * clock.factor]) ↔
      ∀ clock, Clock.IsAfter (removed % ptsDtsScale) pkt clock := by
  refine forall_congr' fun clock ↦ ?_
  by_cases hclock : clock.offset pkt = 0
  · refine iff_of_true (fun hne ↦ absurd hclock hne) ?_
    cases clock with
    | pts => trivial
    | dts => trivial
    | pcr => exact fun hne ↦ absurd hclock hne
    | opcr => exact fun hne ↦ absurd hclock hne
  · rw [imp_iff_right hclock, get_adjustAll hclock]
    cases clock with
    | pts => exact iff_of_true (decreased_stamp _ _) trivial
    | dts => exact iff_of_true (decreased_stamp _ _) trivial
    | pcr =>
      exact (decreased_reference_iff pkt.getPCR_lt).trans (imp_iff_right hclock).symm
    | opcr =>
      exact (decreased_reference_iff pkt.getOPCR_lt).trans (imp_iff_right hclock).symm

end Clocks

/-! ### Each packet -/

variable {options : Options} {state : PIDState} {removals : Removals}

def PIDState.lastCC (state : PIDState) : Option UInt8 :=
  if state.cc = 0xFF then none else some state.cc

/-- The state of a PID and its removed parts. -/
structure Filter.Sound (filter : Filter) : Prop where
  start_eq : filter.removals.start =
    if filter.state.currentlyOut then some filter.state.outStart else none
  outStart_lt : filter.state.currentlyOut = true → filter.state.outStart < ptsDtsScale
  totalAdjust_eq : filter.state.totalAdjust = filter.removals.removedTime % ptsDtsScale
  cc_le : filter.state.cc = 0xFF ∨ filter.state.cc ≤ 0x0F

theorem sound_filter_start : Filter.start.Sound where
  start_eq := rfl
  outStart_lt := fun hout ↦ absurd hout Bool.false_ne_true
  totalAdjust_eq := rfl
  cc_le := Or.inl rfl

theorem handleCommand_eq (options : Options) (state : PIDState) (cmd : SpliceInsert)
    (tag : Option (Fin 256)) :
    ∃ events, state.handleCommand options cmd tag = { state with events := events } := by
  have hadd : ∀ (state : PIDState) (pts : ℕ) (spliceOut : Bool) (eventId : UInt32),
      ∃ events, state.addEvent pts spliceOut eventId = { state with events := events } := by
    intro state pts spliceOut eventId
    unfold PIDState.addEvent
    split_ifs
    · exact ⟨_, rfl⟩
    · exact ⟨state.events, rfl⟩
  unfold PIDState.handleCommand
  cases request options cmd with
  | ignore => exact ⟨state.events, rfl⟩
  | cancel eventId => exact ⟨_, rfl⟩
  | add other =>
    dsimp only
    unfold PIDState.addCommand
    cases commandPts other tag with
    | none => exact ⟨state.events, rfl⟩
    | some pts =>
      dsimp only
      obtain ⟨first, hfirst⟩ := hadd state pts.toNat other.spliceOut other.eventId
      rw [hfirst]
      split_ifs
      · exact hadd { state with events := first } _ _ _
      · exact ⟨first, rfl⟩

theorem sound_handleCommand (hsound : Filter.Sound ⟨state, removals⟩) (options : Options)
    (cmd : SpliceInsert) (tag : Option (Fin 256)) :
    Filter.Sound ⟨state.handleCommand options cmd tag, removals⟩ := by
  obtain ⟨events, hevents⟩ := handleCommand_eq options state cmd tag
  rw [hevents]
  exact ⟨hsound.start_eq, hsound.outStart_lt, hsound.totalAdjust_eq, hsound.cc_le⟩

theorem next_self (removals : Removals) (out : Bool) (pts : ℕ) :
    removals.next out out pts = removals := by
  cases out with
  | false => rfl
  | true => rfl

theorem removedTime_append (parts : List (ℕ × ℕ)) (start : Option ℕ) (part : ℕ × ℕ) :
    Removals.removedTime ⟨start, parts ++ [part]⟩ =
      (parts.map Removals.duration).sum + Removals.duration part := by
  rw [Removals.removedTime, List.map_append, List.sum_append, List.map_singleton, List.sum_singleton]

theorem sound_switch (hsound : Filter.Sound ⟨state, removals⟩) {event : Event}
    (hlast : state.lastPts < ptsDtsScale) (hne : state.currentlyOut ≠ event.out) :
    Filter.Sound ⟨state.switch event,
      removals.next state.currentlyOut event.out state.lastPts⟩ := by
  obtain ⟨hstart, hlt, htotal, hcc⟩ := hsound
  dsimp only at hstart hlt htotal hcc
  cases hout : event.out with
  | true =>
    have hin : state.currentlyOut = false := by rwa [hout, ne_eq, Bool.not_eq_true] at hne
    rw [PIDState.switch, if_pos hout, hin]
    exact ⟨rfl, fun _ ↦ hlast, htotal, hcc⟩
  | false =>
    have hwas : state.currentlyOut = true := by rwa [hout, ne_eq, Bool.not_eq_false] at hne
    rw [hwas, if_pos rfl] at hstart
    have hbound := hlt hwas
    have hvalid : state.outStart ≠ invalidPts.toNat := fun heq ↦
      absurd (heq ▸ hbound) (by decide)
    rw [PIDState.switch, if_neg (by rw [hout]; exact Bool.false_ne_true), if_pos hvalid, hwas]
    refine ⟨rfl, fun hfalse ↦ absurd hfalse Bool.false_ne_true, ?_, hcc⟩
    dsimp only [Removals.next]
    rw [hstart, and_ptsDtsMask, htotal]
    dsimp only [Option.map_some, Option.toList]
    rw [removedTime_append, Removals.duration, Removals.removedTime]
    dsimp only
    unfold ptsDtsScale at *
    omega

theorem cc_switch (state : PIDState) (event : Event) : (state.switch event).cc = state.cc := by
  unfold PIDState.switch
  split_ifs
  · rfl
  · rfl
  · rfl

theorem sound_processSplice (hsound : Filter.Sound ⟨state, removals⟩) (pkt : TSPacket) :
    Filter.Sound ⟨state.processSplice pkt, Filter.removalsAfter ⟨state, removals⟩ pkt⟩ ∧
      (state.processSplice pkt).cc = state.cc := by
  unfold Filter.removalsAfter PIDState.processSplice
  dsimp only
  split_ifs with hpts
  · unfold PIDState.processPts
    dsimp only
    split
    · dsimp only
      rw [next_self]
      exact ⟨⟨hsound.start_eq, hsound.outStart_lt, hsound.totalAdjust_eq, hsound.cc_le⟩, rfl⟩
    · rename_i time event hlast
      split_ifs with hne
      · rw [currentlyOut_switch]
        refine ⟨?_, cc_switch _ _⟩
        have hnext : Filter.Sound ⟨{ state with
            lastPts := pkt.getPTS, events := state.events.above pkt.getPTS }, removals⟩ :=
          ⟨hsound.start_eq, hsound.outStart_lt, hsound.totalAdjust_eq, hsound.cc_le⟩
        exact sound_switch hnext pkt.getPTS_lt hne
      · dsimp only
        rw [next_self]
        exact ⟨⟨hsound.start_eq, hsound.outStart_lt, hsound.totalAdjust_eq, hsound.cc_le⟩, rfl⟩
  · rw [next_self]
    exact ⟨hsound, rfl⟩

/-- What is right in a packet which is sent. -/
structure IsRight (options : Options) (lastCC : Option UInt8) (output : Sent) : Prop where
  continuous : options.fixCC = true → ∀ cc, lastCC = some cc →
    output.sent.getCC = FixCC.nextCC cc output.sent
  decreased : options.adjustTime = true → output.IsDecreased

theorem isCorrect_cons {lastCC : Option UInt8} {output : Sent} {outputs : List Sent} :
    IsCorrect options lastCC (output :: outputs) ↔
      IsRight options lastCC output ∧ IsCorrect options (some output.sent.getCC) outputs := by
  have hcontinuous : FixCC.Continuous lastCC ((output :: outputs).map Sent.sent) ↔
      (∀ cc, lastCC = some cc → output.sent.getCC = FixCC.nextCC cc output.sent) ∧
        FixCC.Continuous (some output.sent.getCC) (outputs.map Sent.sent) := by
    cases lastCC with
    | none => exact (and_iff_right fun _ hnone ↦ absurd hnone (by simp)).symm
    | some cc =>
      refine and_congr_left' ⟨fun hnext _ hcc ↦ ?_, fun hnext ↦ hnext cc rfl⟩
      exact Option.some.inj hcc ▸ hnext
  constructor
  · rintro ⟨hsequence, hclocks⟩
    exact ⟨⟨fun hfix ↦ (hcontinuous.mp (hsequence hfix)).1,
        fun hadjust ↦ hclocks hadjust output List.mem_cons_self⟩,
      ⟨fun hfix ↦ (hcontinuous.mp (hsequence hfix)).2,
        fun hadjust other hother ↦ hclocks hadjust other (List.mem_cons_of_mem _ hother)⟩⟩
  · rintro ⟨⟨hnext, hfirst⟩, ⟨hsequence, hclocks⟩⟩
    exact ⟨fun hfix ↦ hcontinuous.mpr ⟨hnext hfix, hsequence hfix⟩,
      fun hadjust ↦ List.forall_mem_cons.mpr ⟨hfirst hadjust, hclocks hadjust⟩⟩

theorem getCC_fixPacket (options : Options) (state : PIDState) (pkt : TSPacket) :
    (fixPacket options state pkt).getCC =
      if options.fixCC && state.cc != 0xFF then (state.cc + 1) &&& 0x0F else pkt.getCC := by
  rw [fixPacket, apply_ite TSPacket.getCC, FixCC.getCC_setCC pkt (FixCC.next_le state.cc)]

theorem sameShape_fixPacket (options : Options) (state : PIDState) (pkt : TSPacket) :
    SameShape pkt (fixPacket options state pkt) := by
  unfold fixPacket
  split_ifs
  · exact sameShape_setCC pkt _
  · exact SameShape.refl pkt

theorem get_fixPacket (clock : Clock) (options : Options) (state : PIDState) (pkt : TSPacket) :
    clock.get (fixPacket options state pkt) = clock.get pkt := by
  unfold fixPacket
  split_ifs
  · exact get_setCC clock pkt _
  · rfl

theorem next_ne (cc : UInt8) (hcc : cc ≤ 0x0F) : (cc + 1) &&& 0x0F ≠ cc := by
  intro heq
  have hnext := congrArg UInt8.toNat heq
  have hle : cc.toNat ≤ 15 := UInt8.le_iff_toNat_le.mp hcc
  rw [TSPacket.next_cc_eq, ccMax] at hnext
  omega

/-- A counter is right with a payload, or on the first packet. -/
theorem nextCC_fixPacket_iff (hcc : state.cc = 0xFF ∨ state.cc ≤ 0x0F) (hfix : options.fixCC = true)
    (pkt : TSPacket) :
    (∀ cc, state.lastCC = some cc → (fixPacket options state pkt).getCC =
      FixCC.nextCC cc (fixPacket options state pkt)) ↔
      (state.cc ≠ 0xFF → pkt.hasPayload = true) := by
  rw [getCC_fixPacket, hfix, Bool.true_and]
  unfold PIDState.lastCC FixCC.nextCC
  rw [(sameShape_fixPacket options state pkt).hasPayload_eq]
  by_cases hnew : state.cc = 0xFF
  · rw [if_pos hnew]
    exact iff_of_true (fun _ hnone ↦ absurd hnone (by simp)) fun hne ↦ absurd hnew hne
  · rw [if_neg hnew, if_pos (bne_iff_ne.mpr hnew), imp_iff_right hnew]
    constructor
    · intro hnext
      have hself := hnext state.cc rfl
      by_contra hpayload
      rw [if_neg hpayload] at hself
      exact next_ne state.cc (hcc.resolve_left hnew) hself
    · intro hpayload cc hlast
      rw [if_pos hpayload, Option.some.inj hlast]

/-- Assumes: an adjusted packet with the same shape. -/
theorem isDecreased_iff (options : Options) (state : PIDState) {pkt adjusted : TSPacket}
    (hshape : SameShape pkt adjusted) (removed : ℕ) :
    Sent.IsDecreased ⟨pkt, fixPacket options state adjusted, removed⟩ ↔
      ∀ clock : Clock, clock.offset pkt ≠ 0 →
        clock.get adjusted + clock.factor * removed ≡ clock.get pkt
          [MOD ptsDtsScale * clock.factor] := by
  refine forall_congr' fun clock ↦ imp_congr_right fun _ ↦ ?_
  dsimp only
  rw [get_fixPacket]
  exact and_iff_right (Clock.offset_eq (hshape.trans (sameShape_fixPacket options state adjusted))
    clock)

theorem sent_packet (options : Options) {next : PIDState} {adjusted pkt : TSPacket}
    {lastCC : Option UInt8}
    (hnext : Filter.Sound ⟨next, removals⟩) (hlast : next.lastCC = lastCC)
    (hshape : SameShape pkt adjusted) :
    Filter.Sound ⟨{ next with cc := (fixPacket options next adjusted).getCC }, removals⟩ ∧
      PIDState.lastCC { next with cc := (fixPacket options next adjusted).getCC } =
        some (fixPacket options next adjusted).getCC ∧
      (IsRight options lastCC ⟨pkt, fixPacket options next adjusted, removals.removedTime⟩ ↔
        (options.fixCC = true → next.cc ≠ 0xFF → pkt.hasPayload = true) ∧
          (options.adjustTime = true → ∀ clock : Clock, clock.offset pkt ≠ 0 →
            clock.get adjusted + clock.factor * removals.removedTime ≡ clock.get pkt
              [MOD ptsDtsScale * clock.factor])) := by
  have hcc := FixCC.getCC_le (fixPacket options next adjusted)
  refine ⟨⟨hnext.start_eq, hnext.outStart_lt, hnext.totalAdjust_eq, Or.inr hcc⟩, ?_, ?_⟩
  · refine if_neg fun heq ↦ ?_
    dsimp only at heq
    rw [heq] at hcc
    exact absurd hcc (by decide)
  · have hcontinuous : (options.fixCC = true → ∀ cc, lastCC = some cc →
        (fixPacket options next adjusted).getCC =
          FixCC.nextCC cc (fixPacket options next adjusted)) ↔
        (options.fixCC = true → next.cc ≠ 0xFF → pkt.hasPayload = true) := by
      refine forall_congr' fun hfix ↦ ?_
      rw [← hlast, nextCC_fixPacket_iff hnext.cc_le hfix adjusted, hshape.hasPayload_eq]
    have hdecreased := imp_congr_right fun _ : options.adjustTime = true ↦
      isDecreased_iff options next hshape removals.removedTime
    exact ⟨fun hright ↦ ⟨hcontinuous.mp hright.continuous, hdecreased.mp hright.decreased⟩,
      fun hboth ↦ ⟨hcontinuous.mpr hboth.1, hdecreased.mpr hboth.2⟩⟩

/-- What one packet gives. -/
theorem step_packet_cases {filter : Filter} (hsound : filter.Sound) (options : Options)
    (pkt : TSPacket) :
    (filterStep options filter (.packet pkt) = none ∧ ¬IsSafe options filter (.packet pkt)) ∨
      (∃ next, filterStep options filter (.packet pkt) = some (next, []) ∧ next.Sound ∧
        next.state.lastCC = filter.state.lastCC ∧ IsSafe options filter (.packet pkt)) ∨
      ∃ next output, filterStep options filter (.packet pkt) = some (next, [output]) ∧
        next.Sound ∧ next.state.lastCC = some output.sent.getCC ∧
        (IsRight options filter.state.lastCC output ↔ IsSafe options filter (.packet pkt)) := by
  obtain ⟨state, removals⟩ := filter
  obtain ⟨hnext, hcc⟩ := sound_processSplice hsound pkt
  have hlast : (state.processSplice pkt).lastCC = state.lastCC := by
    rw [PIDState.lastCC, PIDState.lastCC, hcc]
  unfold filterStep PIDState.processPacket IsSafe
  dsimp only
  by_cases hout : (state.processSplice pkt).currentlyOut = true
  · rw [if_pos hout]
    exact Or.inr (Or.inl ⟨_, rfl, hnext, hlast, fun hfalse ↦ absurd hout (by rw [hfalse]; decide)⟩)
  · rw [imp_iff_right (Bool.eq_false_of_not_eq_true hout), if_neg hout, ← hcc,
      ← hnext.totalAdjust_eq]
    by_cases hadjust : options.adjustTime = true ∧ 0 < (state.processSplice pkt).totalAdjust
    · rw [if_pos (by rw [Bool.and_eq_true, decide_eq_true_eq]; exact hadjust)]
      by_cases hroom : Clock.HasRoom pkt
      · rw [adjustPacket_of_hasRoom hroom]
        obtain ⟨hafter, hlastCC, hright⟩ := sent_packet options hnext hlast
          (sameShape_adjustAll (state.processSplice pkt).totalAdjust pkt)
        refine Or.inr (Or.inr ⟨_, _, rfl, hafter, hlastCC, hright.trans ?_⟩)
        rw [imp_iff_right hadjust.1, imp_iff_right hadjust.1, imp_iff_right hadjust.2.ne',
          and_iff_right hroom]
        have hclocks := decreased_adjustAll_iff pkt
          (Filter.removalsAfter ⟨state, removals⟩ pkt).removedTime
        rw [← hnext.totalAdjust_eq] at hclocks
        exact and_congr_right' hclocks
      · rw [adjustPacket_of_not_hasRoom hroom]
        exact Or.inl ⟨rfl, fun hsafe ↦ hroom (hsafe.2 hadjust.1 hadjust.2.ne').1⟩
    · rw [if_neg (by rw [Bool.and_eq_true, decide_eq_true_eq]; exact hadjust)]
      obtain ⟨hafter, hlastCC, hright⟩ := sent_packet options hnext hlast
        (SameShape.refl pkt)
      refine Or.inr (Or.inr ⟨_, _, rfl, hafter, hlastCC, hright.trans ?_⟩)
      refine and_congr_right' ⟨fun _ hoption hne ↦ absurd ⟨hoption, Nat.pos_of_ne_zero hne⟩ hadjust,
        fun _ hoption clock _ ↦ ?_⟩
      have hzero : (Filter.removalsAfter ⟨state, removals⟩ pkt).removedTime ≡ 0
          [MOD ptsDtsScale] := by
        refine hnext.totalAdjust_eq.symm.trans ?_
        exact Nat.eq_zero_of_not_pos fun hpos ↦ hadjust ⟨hoption, hpos⟩
      have hclock := (hzero.mul_left' clock.factor).add_left (clock.get pkt)
      rwa [Nat.mul_zero, Nat.add_zero, Nat.mul_comm clock.factor ptsDtsScale] at hclock

/-! ### Runs -/

theorem isCorrect_nil (options : Options) (lastCC : Option UInt8) : IsCorrect options lastCC [] :=
  ⟨fun _ ↦ by cases lastCC <;> trivial, fun _ _ hmem ↦ absurd hmem List.not_mem_nil⟩

theorem isCorrect_iff_meets {filter : Filter} (hsound : filter.Sound) (options : Options)
    (inputs : List Input) :
    (∃ last outputs, (filterMachine options).run filter inputs = some (last, outputs) ∧
      IsCorrect options filter.state.lastCC outputs) ↔
      (filterMachine options).Meets (IsSafe options) filter inputs := by
  induction inputs generalizing filter with
  | nil => exact iff_of_true ⟨filter, [], rfl, isCorrect_nil options _⟩ trivial
  | cons input rest ih =>
    -- An input after which nothing is sent, then the rest of the run.
    have hquiet : ∀ next : Filter, filterStep options filter input = some (next, []) →
        next.Sound → next.state.lastCC = filter.state.lastCC → IsSafe options filter input →
        ((∃ last outputs, (filterMachine options).run filter (input :: rest) =
            some (last, outputs) ∧ IsCorrect options filter.state.lastCC outputs) ↔
          (filterMachine options).Meets (IsSafe options) filter (input :: rest)) := by
      intro next hstep hnext hlast hsafe
      constructor
      · rintro ⟨last, outputs, hrun, hcorrect⟩
        obtain ⟨other, first, later, hother, hlater, rfl⟩ := (Machine.run_cons_eq_some _).mp hrun
        obtain ⟨rfl, rfl⟩ := Prod.mk.inj (Option.some.inj (hstep.symm.trans hother))
        rw [← hlast] at hcorrect
        exact Machine.meets_cons_of_step _ hstep hsafe ((ih hnext).mp ⟨last, later, hlater, hcorrect⟩)
      · rintro ⟨-, hmeets⟩
        obtain ⟨last, outputs, hrun, hcorrect⟩ := (ih hnext).mpr (hmeets next [] hstep)
        rw [hlast] at hcorrect
        exact ⟨last, outputs, (Machine.run_cons_eq_some _).mpr
          ⟨next, [], outputs, hstep, hrun, rfl⟩, hcorrect⟩
    cases input with
    | command cmd tag =>
      obtain ⟨events, hevents⟩ := handleCommand_eq options filter.state cmd tag
      refine hquiet _ rfl (sound_handleCommand hsound options cmd tag) ?_ trivial
      dsimp only
      rw [hevents]
      rfl
    | packet pkt =>
      rcases step_packet_cases hsound options pkt with ⟨hnone, hunsafe⟩ |
        ⟨next, hstep, hnext, hlast, hsafe⟩ | ⟨next, output, hstep, hnext, hlast, hright⟩
      · refine iff_of_false ?_ fun hmeets ↦ hunsafe hmeets.1
        rintro ⟨last, outputs, hrun, -⟩
        obtain ⟨other, first, later, hother, -⟩ := (Machine.run_cons_eq_some _).mp hrun
        rw [show (filterMachine options).step filter (.packet pkt) = none from hnone] at hother
        cases hother
      · exact hquiet next hstep hnext hlast hsafe
      · constructor
        · rintro ⟨last, outputs, hrun, hcorrect⟩
          obtain ⟨other, first, later, hother, hlater, rfl⟩ := (Machine.run_cons_eq_some _).mp hrun
          obtain ⟨rfl, rfl⟩ := Prod.mk.inj (Option.some.inj (hstep.symm.trans hother))
          obtain ⟨hfirst, hrest⟩ := isCorrect_cons.mp hcorrect
          rw [← hlast] at hrest
          exact Machine.meets_cons_of_step _ hstep (hright.mp hfirst)
            ((ih hnext).mp ⟨last, later, hlater, hrest⟩)
        · rintro ⟨hsafe, hmeets⟩
          obtain ⟨last, outputs, hrun, hcorrect⟩ := (ih hnext).mpr (hmeets next [output] hstep)
          rw [hlast] at hcorrect
          exact ⟨last, output :: outputs, (Machine.run_cons_eq_some _).mpr
            ⟨next, [output], outputs, hstep, hrun, rfl⟩,
            isCorrect_cons.mpr ⟨hright.mpr hsafe, hcorrect⟩⟩

/-- The packets have correct counters and clocks exactly in the runs where the packets after the
first one have a payload with `fixCC`, and where the clock references have their room and are late
enough with `adjustTime`. -/
theorem isCorrect_iff_isSafe (options : Options) (inputs : List Input) :
    (∃ last outputs, (filterMachine options).run .start inputs = some (last, outputs) ∧
      IsCorrect options none outputs) ↔
      (filterMachine options).Meets (IsSafe options) .start inputs :=
  isCorrect_iff_meets sound_filter_start options inputs

/-- A packet without payload follows a packet with a payload. -/
theorem not_isCorrect_of_no_payload :
    ¬∀ options inputs, FixCC.Continuous none (packets inputs) →
      ∃ last outputs, (filterMachine options).run .start inputs = some (last, outputs) ∧
        IsCorrect options none outputs := by
  intro hall
  obtain ⟨last, outputs, hrun, hcorrect⟩ := hall { adjustTime := false, fixCC := true, eventIds := [] }
    [.packet (packetAt 1000), .packet (FixCC.emptyPacket.setPID 0x64)]
    ⟨by decide +kernel, trivial⟩
  have hcounters : (((filterMachine { adjustTime := false, fixCC := true, eventIds := [] }).run
      .start [.packet (packetAt 1000), .packet (FixCC.emptyPacket.setPID 0x64)]).map fun result ↦
        result.2.map fun output ↦ (output.sent.getCC, output.sent.hasPayload)) =
      some [(0, true), (1, false)] := by
    decide +kernel
  rw [hrun, Option.map_some, Option.some.injEq, List.map_eq_cons_iff] at hcounters
  obtain ⟨first, rest, rfl, hfirst, hrest⟩ := hcounters
  obtain ⟨second, rest, rfl, hsecond, -⟩ := List.map_eq_cons_iff.mp hrest
  have hnext := (hcorrect.continuous rfl).1
  rw [(Prod.mk.inj hfirst).1, (Prod.mk.inj hsecond).1, FixCC.nextCC, (Prod.mk.inj hsecond).2]
    at hnext
  exact absurd hnext (by decide)

end RMSplice

end TSDuck
