import TSDuck.Mpeg.PacketClocks
import TSDuck.Mpeg.PtsSequence

/-!
# Times of splice events

Each PID of a service has a map of upcoming splice events, sorted by PTS.

The PTS wraps up and the map is sorted by the values of 33 bits. `Timeline` follows a clock which
does not wrap up: the upcoming events are sorted by their times, and those which the clock has
reached are kept in their order. `agrees_of_run` states that the PID follows the timeline in the
runs where no packet is separated by a wrap up from an upcoming event.

Scope. A command is handled by each PID of the service, and a packet by its PID, so that the run of
one PID is what matters. The component tag of the PID may change at any time.
-/

namespace TSDuck

namespace RMSplice

/-! ### The state of a PID -/

structure Event where
  out : Bool
  id : UInt32
  deriving DecidableEq

abbrev EventByPts := SortedMap ℕ Event

/-- The state of a PID which is subject to splicing. -/
structure PIDState where
  cc : UInt8
  currentlyOut : Bool
  outStart : ℕ
  totalAdjust : ℕ
  lastPts : ℕ
  events : EventByPts

structure Options where
  adjustTime : Bool
  fixCC : Bool
  eventIds : List UInt32

namespace PIDState

def new : PIDState where
  cc := 0xFF
  currentlyOut := false
  outStart := invalidPts.toNat
  totalAdjust := 0
  lastPts := invalidPts.toNat
  events := .empty

def addEvent (state : PIDState) (pts : ℕ) (spliceOut : Bool) (eventId : UInt32) : PIDState :=
  if pts ≤ ptsDtsMask ∧ (state.lastPts > ptsDtsMask ∨ sequencedPts state.lastPts pts) then
    { state with events := state.events.update pts fun _ ↦ ⟨spliceOut, eventId⟩ }
  else state

end PIDState

def commandPts (cmd : SpliceInsert) (tag : Option (Fin 256)) : SpliceTime :=
  if cmd.programSplice && cmd.programPts.isSome then cmd.programPts
  else (tag.bind cmd.componentsPts.find?).join

def returnsAlone (cmd : SpliceInsert) : Bool :=
  cmd.spliceOut && cmd.useDuration && cmd.autoReturn

namespace PIDState

def addCommand (state : PIDState) (cmd : SpliceInsert) (tag : Option (Fin 256)) : PIDState :=
  match commandPts cmd tag with
  | none => state
  | some pts =>
    let first := state.addEvent pts.toNat cmd.spliceOut cmd.eventId
    if returnsAlone cmd then
      first.addEvent ((pts.toNat + cmd.durationPts.toNat) &&& ptsDtsMask) false cmd.eventId
    else first

def cancelEvent (state : PIDState) (eventId : UInt32) : PIDState :=
  { state with events := state.events.filter fun entry ↦ decide (entry.2.id ≠ eventId) }

end PIDState

/-- What a splice command asks for. -/
inductive Request
  | ignore
  | cancel (eventId : UInt32)
  | add (cmd : SpliceInsert)

def request (options : Options) (cmd : SpliceInsert) : Request :=
  if options.eventIds ≠ [] ∧ cmd.eventId ∉ options.eventIds then .ignore
  else if cmd.canceled then .cancel cmd.eventId
  else if cmd.immediate then .ignore
  else .add cmd

namespace PIDState

def handleCommand (options : Options) (state : PIDState) (cmd : SpliceInsert)
    (tag : Option (Fin 256)) : PIDState :=
  match request options cmd with
  | .ignore => state
  | .cancel eventId => state.cancelEvent eventId
  | .add cmd => state.addCommand cmd tag

def switch (state : PIDState) (event : Event) : PIDState :=
  if event.out then { state with currentlyOut := true, outStart := state.lastPts }
  else if state.outStart ≠ invalidPts.toNat then
    { state with
      currentlyOut := false
      totalAdjust :=
        (state.totalAdjust + (state.lastPts + 2 ^ 64 - state.outStart)) &&& ptsDtsMask
      outStart := invalidPts.toNat }
  else { state with currentlyOut := false }

/-- The leading events up to a PTS are removed. -/
def processPts (state : PIDState) (pts : ℕ) : PIDState :=
  let next := { state with lastPts := pts, events := state.events.above pts }
  match (state.events.upTo pts).getLast? with
  | none => next
  | some (_, event) => if state.currentlyOut ≠ event.out then next.switch event else next

def processSplice (state : PIDState) (pkt : TSPacket) : PIDState :=
  if pkt.hasPTS then state.processPts pkt.getPTS else state

end PIDState

/-! ### The timeline -/

/-- The events of a PID on a clock which does not wrap up. -/
structure Timeline where
  clock : ℕ
  pending : SortedMap ℕ Event
  reached : List (ℕ × Event)

namespace Timeline

def ahead (timeline : Timeline) (pts : ℕ) : ℕ :=
  (pts + (ptsDtsScale - timeline.clock % ptsDtsScale)) % ptsDtsScale

/-- Announces an event, which prevails at its time. -/
def add (timeline : Timeline) (distance : ℕ) (event : Event) : Timeline :=
  { timeline with
    pending := timeline.pending.update (timeline.clock + distance) fun _ ↦ event }

def addCommand (timeline : Timeline) (cmd : SpliceInsert) (tag : Option (Fin 256)) : Timeline :=
  match commandPts cmd tag with
  | none => timeline
  | some pts =>
    let distance := timeline.ahead pts.toNat
    let first := timeline.add distance ⟨cmd.spliceOut, cmd.eventId⟩
    if returnsAlone cmd then
      first.add (distance + cmd.durationPts.toNat) ⟨false, cmd.eventId⟩
    else first

def cancelEvent (timeline : Timeline) (eventId : UInt32) : Timeline :=
  { timeline with
    pending := timeline.pending.filter fun entry ↦ decide (entry.2.id ≠ eventId) }

def handleCommand (options : Options) (timeline : Timeline) (cmd : SpliceInsert)
    (tag : Option (Fin 256)) : Timeline :=
  match request options cmd with
  | .ignore => timeline
  | .cancel eventId => timeline.cancelEvent eventId
  | .add cmd => timeline.addCommand cmd tag

def advance (timeline : Timeline) (time : ℕ) : Timeline where
  clock := time
  pending := timeline.pending.above time
  reached := timeline.reached ++ timeline.pending.upTo time

def next (timeline : Timeline) (pts : ℕ) : ℕ :=
  timeline.clock + timeline.ahead pts

def processSplice (timeline : Timeline) (pkt : TSPacket) : Timeline :=
  if pkt.hasPTS then timeline.advance (timeline.next pkt.getPTS) else timeline

def isOut (timeline : Timeline) : Bool :=
  timeline.reached.getLast?.any fun entry ↦ entry.2.out

end Timeline

/-! ### Runs -/

/-- What a PID receives. -/
inductive Input
  | command (cmd : SpliceInsert) (tag : Option (Fin 256))
  | packet (pkt : TSPacket)

/-- The state of a PID and its timeline. -/
structure Spliced where
  state : PIDState
  timeline : Timeline

def Spliced.start (clock : ℕ) : Spliced where
  state := .new
  timeline := { clock := clock, pending := .empty, reached := [] }

def step (options : Options) (spliced : Spliced) : Input → Option (Spliced × List Unit)
  | .command cmd tag =>
    some (⟨spliced.state.handleCommand options cmd tag,
      spliced.timeline.handleCommand options cmd tag⟩, [])
  | .packet pkt => some (⟨spliced.state.processSplice pkt, spliced.timeline.processSplice pkt⟩, [])

def machine (options : Options) : Machine Spliced Input Unit where
  step := step options

/-- The PID follows its timeline. -/
structure Agrees (spliced : Spliced) : Prop where
  events_iff : ∀ pts event, (pts, event) ∈ spliced.state.events.entries ↔
    ∃ time, (time, event) ∈ spliced.timeline.pending.entries ∧ time % ptsDtsScale = pts
  clock_le : ∀ entry ∈ spliced.timeline.pending.entries, spliced.timeline.clock ≤ entry.1
  reached_le : ∀ entry ∈ spliced.timeline.reached, entry.1 ≤ spliced.timeline.clock
  reached_sorted : spliced.timeline.reached.Pairwise fun first second ↦ first.1 ≤ second.1
  currentlyOut_eq : spliced.state.currentlyOut = spliced.timeline.isOut

/-- A PTS which is at most 0x0FFFFFFF ahead. -/
def IsAnnounced (options : Options) (spliced : Spliced) : Input → Prop
  | .command cmd tag =>
    ∀ other, request options cmd = .add other → ∀ pts, commandPts other tag = some pts →
      pts.toNat ≤ ptsDtsMask ∧ spliced.timeline.ahead pts.toNat ≤ 0x0FFFFFFF
  | .packet _ => True

/-- Conditions on the inputs. The end of a sequence is at most 0x0FFFFFFF ahead, or before the next wrap
up, and there is no wrap up between a packet with a PTS and an upcoming event. -/
def IsTimely (options : Options) (spliced : Spliced) : Input → Prop
  | .command cmd tag =>
    ∀ other, request options cmd = .add other → ∀ pts, commandPts other tag = some pts →
      returnsAlone other = true →
        spliced.timeline.ahead pts.toNat + other.durationPts.toNat ≤ 0x0FFFFFFF ∨
          spliced.timeline.clock % ptsDtsScale + spliced.timeline.ahead pts.toNat +
            other.durationPts.toNat < ptsDtsScale
  | .packet pkt =>
    pkt.hasPTS = true → ∀ entry ∈ spliced.timeline.pending.entries,
      entry.1 / ptsDtsScale = spliced.timeline.next pkt.getPTS / ptsDtsScale

/-- The upcoming events are at most one turn ahead. -/
structure Sound (spliced : Spliced) : Prop extends Agrees spliced where
  lt_turn : ∀ entry ∈ spliced.timeline.pending.entries,
    entry.1 < spliced.timeline.clock + ptsDtsScale
  lastPts_eq : spliced.state.lastPts > ptsDtsMask ∨
    spliced.state.lastPts = spliced.timeline.clock % ptsDtsScale

variable {options : Options} {spliced : Spliced} {timeline : Timeline} {state : PIDState}

theorem ahead_lt (timeline : Timeline) (pts : ℕ) : timeline.ahead pts < ptsDtsScale :=
  Nat.mod_lt _ (Nat.succ_pos _)

theorem clock_add_ahead (timeline : Timeline) {pts : ℕ} (hpts : pts < ptsDtsScale) :
    (timeline.clock + timeline.ahead pts) % ptsDtsScale = pts := by
  have hclock : timeline.clock % ptsDtsScale < ptsDtsScale := Nat.mod_lt _ (Nat.succ_pos _)
  rw [Timeline.ahead, Nat.add_mod_mod, ← Nat.mod_add_mod]
  have hsum : timeline.clock % ptsDtsScale + (pts + (ptsDtsScale - timeline.clock % ptsDtsScale)) =
      pts + ptsDtsScale := by
    omega
  rw [hsum, Nat.add_mod_right, Nat.mod_eq_of_lt hpts]

theorem eq_of_same_pts {clock first second : ℕ} (hfirst : clock ≤ first)
    (hfirst_lt : first < clock + ptsDtsScale) (hsecond : clock ≤ second)
    (hsecond_lt : second < clock + ptsDtsScale) (hpts : first % ptsDtsScale = second % ptsDtsScale) :
    first = second := by
  unfold ptsDtsScale at *
  omega

theorem mod_lt_iff_of_same_turn {first second : ℕ}
    (hturn : first / ptsDtsScale = second / ptsDtsScale) :
    first % ptsDtsScale < second % ptsDtsScale ↔ first < second := by
  unfold ptsDtsScale at *
  omega

/-! ### Announcing events -/

theorem addEvent_eq (hsound : Sound ⟨state, timeline⟩) {distance : ℕ}
    (hnear : distance ≤ 0x0FFFFFFF ∨ timeline.clock % ptsDtsScale + distance < ptsDtsScale)
    (spliceOut : Bool) (eventId : UInt32) :
    state.addEvent ((timeline.clock + distance) % ptsDtsScale) spliceOut eventId = { state with
        events := state.events.update ((timeline.clock + distance) % ptsDtsScale) fun _ ↦
          ⟨spliceOut, eventId⟩ } := by
  have hclock : timeline.clock % ptsDtsScale < ptsDtsScale := Nat.mod_lt _ (Nat.succ_pos _)
  have hmask : (timeline.clock + distance) % ptsDtsScale ≤ ptsDtsMask :=
    Nat.le_of_lt_succ (Nat.mod_lt _ (Nat.succ_pos _))
  refine if_pos ⟨hmask, hsound.lastPts_eq.imp_right fun hlast ↦ ?_⟩
  have hlast' : state.lastPts = timeline.clock % ptsDtsScale := hlast
  rw [hlast', ← Nat.mod_add_mod]
  rcases hnear with hahead | hturn
  · exact sequencedPts_of_ahead hclock hahead
  · rw [Nat.mod_eq_of_lt hturn, sequencedPts_iff]
    exact Or.inl (Nat.le_add_right _ _)

theorem sound_add (hsound : Sound ⟨state, timeline⟩) {distance : ℕ} (hlt : distance < ptsDtsScale)
    (hnear : distance ≤ 0x0FFFFFFF ∨ timeline.clock % ptsDtsScale + distance < ptsDtsScale)
    (spliceOut : Bool) (eventId : UInt32) :
    Sound ⟨state.addEvent ((timeline.clock + distance) % ptsDtsScale) spliceOut eventId,
      timeline.add distance ⟨spliceOut, eventId⟩⟩ := by
  rw [addEvent_eq hsound hnear]
  have hmem : ∀ entry ∈ (timeline.add distance ⟨spliceOut, eventId⟩).pending.entries,
      entry.1 = timeline.clock + distance ∨ entry ∈ timeline.pending.entries := by
    intro entry hentry
    rcases SortedMap.mem_update_iff.mp hentry with rfl | ⟨hold, -⟩
    · exact Or.inl rfl
    · exact Or.inr hold
  exact {
    events_iff := by
      intro pts event
      have hevents := hsound.events_iff pts event
      dsimp only [Timeline.add] at hevents ⊢
      rw [SortedMap.mem_update_iff, hevents]
      constructor
      · rintro (hnew | ⟨⟨time, htime, rfl⟩, hne⟩)
        · obtain ⟨rfl, rfl⟩ := Prod.mk.inj hnew
          exact ⟨_, SortedMap.mem_update_iff.mpr (Or.inl rfl), rfl⟩
        · exact ⟨time, SortedMap.mem_update_iff.mpr
            (Or.inr ⟨htime, fun heq ↦ hne (congrArg (· % ptsDtsScale) heq)⟩), rfl⟩
      · rintro ⟨time, htime, rfl⟩
        rcases SortedMap.mem_update_iff.mp htime with hnew | ⟨hold, hne⟩
        · obtain ⟨rfl, rfl⟩ := Prod.mk.inj hnew
          exact Or.inl rfl
        · refine Or.inr ⟨⟨time, hold, rfl⟩, fun hpts ↦ hne ?_⟩
          exact eq_of_same_pts (hsound.clock_le _ hold) (hsound.lt_turn _ hold)
            (Nat.le_add_right _ _) (Nat.add_lt_add_left hlt _) hpts
    clock_le := by
      intro entry hentry
      rcases hmem entry hentry with hnew | hold
      · rw [hnew]
        exact Nat.le_add_right _ _
      · exact hsound.clock_le entry hold
    reached_le := hsound.reached_le
    reached_sorted := hsound.reached_sorted
    currentlyOut_eq := hsound.currentlyOut_eq
    lt_turn := by
      intro entry hentry
      rcases hmem entry hentry with hnew | hold
      · rw [hnew]
        exact Nat.add_lt_add_left hlt _
      · exact hsound.lt_turn entry hold
    lastPts_eq := hsound.lastPts_eq }

theorem sound_cancel (hsound : Sound ⟨state, timeline⟩) (eventId : UInt32) :
    Sound ⟨state.cancelEvent eventId, timeline.cancelEvent eventId⟩ where
  events_iff := by
    intro pts event
    have hevents := hsound.events_iff pts event
    dsimp only [PIDState.cancelEvent, Timeline.cancelEvent] at hevents ⊢
    rw [SortedMap.mem_filter, hevents]
    constructor
    · rintro ⟨⟨time, htime, hpts⟩, hkeep⟩
      exact ⟨time, SortedMap.mem_filter.mpr ⟨htime, hkeep⟩, hpts⟩
    · rintro ⟨time, htime, hpts⟩
      obtain ⟨hold, hkeep⟩ := SortedMap.mem_filter.mp htime
      exact ⟨⟨time, hold, hpts⟩, hkeep⟩
  clock_le := fun entry hentry ↦ hsound.clock_le entry (SortedMap.mem_filter.mp hentry).1
  reached_le := hsound.reached_le
  reached_sorted := hsound.reached_sorted
  currentlyOut_eq := hsound.currentlyOut_eq
  lt_turn := fun entry hentry ↦ hsound.lt_turn entry (SortedMap.mem_filter.mp hentry).1
  lastPts_eq := hsound.lastPts_eq

/-! ### Reaching events -/

theorem upTo_eq_map (hsound : Sound ⟨state, timeline⟩) {time : ℕ}
    (hturn : ∀ entry ∈ timeline.pending.entries, entry.1 / ptsDtsScale = time / ptsDtsScale) :
    state.events.upTo (time % ptsDtsScale) =
      (timeline.pending.upTo time).map fun entry ↦ (entry.1 % ptsDtsScale, entry.2) := by
  have hmap : ((timeline.pending.upTo time).map fun entry ↦
      (entry.1 % ptsDtsScale, entry.2)).Pairwise fun first second ↦ first.1 < second.1 := by
    rw [List.pairwise_map]
    refine (timeline.pending.sorted_upTo time).imp_of_mem fun {first second} hfirst hsecond hlt ↦ ?_
    refine (mod_lt_iff_of_same_turn ?_).mpr hlt
    rw [hturn _ (SortedMap.mem_upTo.mp hfirst).1, hturn _ (SortedMap.mem_upTo.mp hsecond).1]
  have hnodup : ∀ entries : List (ℕ × Event),
      (entries.Pairwise fun first second ↦ first.1 < second.1) → entries.Nodup :=
    fun entries hsorted ↦ hsorted.imp fun hlt heq ↦ absurd (congrArg Prod.fst heq) hlt.ne
  refine List.Perm.eq_of_pairwise (fun first second _ _ hlt hgt ↦ absurd hgt hlt.not_gt)
    (state.events.sorted_upTo _) hmap ((List.perm_ext_iff_of_nodup
      (hnodup _ (state.events.sorted_upTo _)) (hnodup _ hmap)).mpr ?_)
  rintro ⟨pts, event⟩
  have hevents := hsound.events_iff pts event
  dsimp only at hevents
  rw [SortedMap.mem_upTo, hevents, List.mem_map]
  constructor
  · rintro ⟨⟨due, hdue, rfl⟩, hle⟩
    refine ⟨(due, event), SortedMap.mem_upTo.mpr ⟨hdue, ?_⟩, rfl⟩
    exact not_lt.mp fun hlt ↦
      absurd ((mod_lt_iff_of_same_turn (hturn _ hdue).symm).mpr hlt) (not_lt.mpr hle)
  · rintro ⟨⟨due, other⟩, hdue, heq⟩
    obtain ⟨rfl, rfl⟩ := Prod.mk.inj heq
    obtain ⟨hpending, hle⟩ := SortedMap.mem_upTo.mp hdue
    refine ⟨⟨due, hpending, rfl⟩, not_lt.mp fun hlt ↦ ?_⟩
    exact absurd ((mod_lt_iff_of_same_turn (hturn _ hpending).symm).mp hlt) (not_lt.mpr hle)

theorem currentlyOut_switch (state : PIDState) (event : Event) :
    (state.switch event).currentlyOut = event.out := by
  unfold PIDState.switch
  split_ifs with hout hstart
  · exact hout.symm
  · exact (Bool.eq_false_of_not_eq_true hout).symm
  · exact (Bool.eq_false_of_not_eq_true hout).symm

theorem processPts_eq (state : PIDState) (pts : ℕ) :
    (state.processPts pts).events = state.events.above pts ∧ (state.processPts pts).lastPts = pts ∧
        (state.processPts pts).currentlyOut =
          ((state.events.upTo pts).getLast?.map fun entry ↦ entry.2.out).getD
            state.currentlyOut := by
  unfold PIDState.processPts
  dsimp only
  split
  · rename_i hnone
    rw [hnone]
    exact ⟨rfl, rfl, rfl⟩
  · rename_i time event hlast
    rw [hlast]
    split_ifs with hne
    · refine ⟨?_, ?_, currentlyOut_switch _ event⟩
      · unfold PIDState.switch
        split_ifs
        · rfl
        · rfl
        · rfl
      · unfold PIDState.switch
        split_ifs
        · rfl
        · rfl
        · rfl
    · exact ⟨rfl, rfl, not_ne_iff.mp hne⟩

theorem isOut_advance (timeline : Timeline) (time : ℕ) :
    (timeline.advance time).isOut =
      ((timeline.pending.upTo time).getLast?.map fun entry ↦ entry.2.out).getD timeline.isOut := by
  unfold Timeline.isOut Timeline.advance
  dsimp only
  rw [List.getLast?_append]
  cases (timeline.pending.upTo time).getLast? with
  | none => rfl
  | some entry => rfl

theorem sound_processPts (hsound : Sound ⟨state, timeline⟩) {pts : ℕ} (hpts : pts < ptsDtsScale)
    (hturn : ∀ entry ∈ timeline.pending.entries,
      entry.1 / ptsDtsScale = timeline.next pts / ptsDtsScale) :
    Sound ⟨state.processPts pts, timeline.advance (timeline.next pts)⟩ := by
  have htime : timeline.next pts % ptsDtsScale = pts := clock_add_ahead timeline hpts
  have hclock : timeline.clock ≤ timeline.next pts := Nat.le_add_right _ _
  have hlead := upTo_eq_map hsound hturn
  rw [htime] at hlead
  obtain ⟨hevents, hlast, hout⟩ := processPts_eq state pts
  exact {
    events_iff := by
      intro value event
      have hbefore := hsound.events_iff value event
      dsimp only [Timeline.advance] at hbefore ⊢
      rw [hevents, SortedMap.mem_above, hbefore]
      constructor
      · rintro ⟨⟨time, hpending, rfl⟩, hlt⟩
        rw [← htime] at hlt
        exact ⟨time, SortedMap.mem_above.mpr
          ⟨hpending, (mod_lt_iff_of_same_turn (hturn _ hpending).symm).mp hlt⟩, rfl⟩
      · rintro ⟨time, habove, rfl⟩
        obtain ⟨hpending, hlt⟩ := SortedMap.mem_above.mp habove
        have hmod := (mod_lt_iff_of_same_turn (hturn _ hpending).symm).mpr hlt
        rw [htime] at hmod
        exact ⟨⟨time, hpending, rfl⟩, hmod⟩
    clock_le := fun entry hentry ↦ (SortedMap.mem_above.mp hentry).2.le
    reached_le := by
      intro entry hentry
      rcases List.mem_append.mp hentry with hold | hnew
      · exact (hsound.reached_le entry hold).trans hclock
      · exact (SortedMap.mem_upTo.mp hnew).2
    reached_sorted := by
      refine List.pairwise_append.mpr ⟨hsound.reached_sorted,
        (timeline.pending.sorted_upTo _).imp fun hlt ↦ hlt.le, fun first hfirst second hsecond ↦ ?_⟩
      exact (hsound.reached_le first hfirst).trans
        (hsound.clock_le second (SortedMap.mem_upTo.mp hsecond).1)
    currentlyOut_eq := by
      have hbefore := hsound.currentlyOut_eq
      dsimp only at hbefore ⊢
      rw [hout, isOut_advance, hlead, hbefore, List.getLast?_map, Option.map_map]
      rfl
    lt_turn := by
      intro entry hentry
      exact (hsound.lt_turn entry (SortedMap.mem_above.mp hentry).1).trans_le
        (Nat.add_le_add_right hclock _)
    lastPts_eq := Or.inr (hlast.trans htime.symm) }

/-! ### Each input -/

theorem and_ptsDtsMask (pts : ℕ) : pts &&& ptsDtsMask = pts % ptsDtsScale :=
  Nat.and_two_pow_sub_one_eq_mod pts 33

theorem sound_addCommand (hsound : Sound ⟨state, timeline⟩) {cmd : SpliceInsert}
    {tag : Option (Fin 256)}
    (hannounced : ∀ pts, commandPts cmd tag = some pts →
      pts.toNat ≤ ptsDtsMask ∧ timeline.ahead pts.toNat ≤ 0x0FFFFFFF)
    (htimely : ∀ pts, commandPts cmd tag = some pts → returnsAlone cmd = true →
      timeline.ahead pts.toNat + cmd.durationPts.toNat ≤ 0x0FFFFFFF ∨
        timeline.clock % ptsDtsScale + timeline.ahead pts.toNat + cmd.durationPts.toNat <
          ptsDtsScale) :
    Sound ⟨state.addCommand cmd tag, timeline.addCommand cmd tag⟩ := by
  unfold PIDState.addCommand Timeline.addCommand
  cases hpts : commandPts cmd tag with
  | none => exact hsound
  | some pts =>
    obtain ⟨hmask, hahead⟩ := hannounced pts hpts
    have htime := clock_add_ahead timeline (Nat.lt_succ_of_le hmask)
    have hfirst := sound_add hsound (ahead_lt timeline pts.toNat) (Or.inl hahead) cmd.spliceOut
      cmd.eventId
    rw [htime] at hfirst
    dsimp only
    split_ifs with hreturn
    · have hnear := htimely pts hpts hreturn
      rw [Nat.add_assoc] at hnear
      have hlt : timeline.ahead pts.toNat + cmd.durationPts.toNat < ptsDtsScale := by
        unfold ptsDtsScale at hnear ⊢
        omega
      have hsecond := sound_add hfirst hlt hnear false cmd.eventId
      have hclock : (timeline.add (timeline.ahead pts.toNat) ⟨cmd.spliceOut, cmd.eventId⟩).clock =
          timeline.clock := rfl
      rw [hclock, ← Nat.add_assoc, ← Nat.mod_add_mod, htime, ← and_ptsDtsMask] at hsecond
      exact hsecond
    · exact hfirst

theorem sound_step {next : Spliced} {input : Input} {outputs : List Unit}
    (hsound : Sound spliced) (hannounced : IsAnnounced options spliced input)
    (htimely : IsTimely options spliced input)
    (hstep : step options spliced input = some (next, outputs)) : Sound next := by
  obtain ⟨state, timeline⟩ := spliced
  cases input with
  | command cmd tag =>
    obtain ⟨rfl, -⟩ := Prod.mk.inj (Option.some.inj hstep)
    unfold PIDState.handleCommand Timeline.handleCommand
    cases hrequest : request options cmd with
    | ignore => exact hsound
    | cancel eventId => exact sound_cancel hsound eventId
    | add other =>
      exact sound_addCommand hsound (fun pts ↦ hannounced other hrequest pts)
        (fun pts ↦ htimely other hrequest pts)
  | packet pkt =>
    obtain ⟨rfl, -⟩ := Prod.mk.inj (Option.some.inj hstep)
    unfold PIDState.processSplice Timeline.processSplice
    dsimp only
    split_ifs with hpts
    · exact sound_processPts hsound pkt.getPTS_lt (htimely hpts)
    · exact hsound

theorem sound_start (clock : ℕ) : Sound (.start clock) where
  events_iff := fun _ _ ↦ iff_of_false List.not_mem_nil fun ⟨_, hmem, _⟩ ↦
    absurd hmem List.not_mem_nil
  clock_le := fun _ hmem ↦ absurd hmem List.not_mem_nil
  reached_le := fun _ hmem ↦ absurd hmem List.not_mem_nil
  reached_sorted := List.Pairwise.nil
  currentlyOut_eq := rfl
  lt_turn := fun _ hmem ↦ absurd hmem List.not_mem_nil
  lastPts_eq := Or.inl (show invalidPts.toNat > ptsDtsMask by decide)

/-- Assumes: events at most 0x0FFFFFFF ahead, or before the next wrap up for the end of a sequence,
and no wrap up between a packet and an upcoming event. The PID follows its timeline. -/
theorem agrees_of_run (options : Options) (clock : ℕ) {inputs : List Input} {last : Spliced}
    {outputs : List Unit}
    (hmeets : (machine options).Meets
      (fun spliced input ↦ IsAnnounced options spliced input ∧ IsTimely options spliced input)
      (.start clock) inputs)
    (hrun : (machine options).run (.start clock) inputs = some (last, outputs)) : Agrees last := by
  have hsound : Sound last ∧ ∀ output ∈ outputs, True :=
    (machine options).run_invariant_of_meets
      (fun _ _ _ _ hbefore hcondition hstep ↦
        ⟨sound_step hbefore hcondition.1 hcondition.2 hstep, fun _ _ ↦ trivial⟩)
      (sound_start clock) hmeets hrun
  exact hsound.1.toAgrees

def packetAt (pts : ℕ) : TSPacket where
  bytes := [0x47, 0x40, 0x64, 0x10, 0x00, 0x00, 0x01, 0xE0, 0x00, 0x00, 0x80, 0x80, 0x05,
    0x21 ||| UInt8.ofNat (pts / 2 ^ 30 * 2), UInt8.ofNat (pts / 2 ^ 22),
    0x01 ||| UInt8.ofNat (pts / 2 ^ 15 * 2), UInt8.ofNat (pts / 2 ^ 7),
    0x01 ||| UInt8.ofNat (pts * 2)] ++ List.replicate 170 0xFF
  length_eq := by
    rw [List.length_append, List.length_replicate]
    rfl

def spliceOutAt (pts : UInt64) : SpliceInsert :=
  { SpliceInsert.cleared with
    canceled := false
    spliceOut := true
    programSplice := true
    programPts := some pts }

def allEvents : Options where
  adjustTime := false
  fixCC := false
  eventIds := []

/-- A packet before a splice out event and one after it. -/
theorem agrees_of_one_event : ∃ last outputs, (machine allEvents).run (.start 0)
      [.packet (packetAt 1000), .command (spliceOutAt 3000) none, .packet (packetAt 2000),
        .packet (packetAt 4000)] = some (last, outputs) ∧ Agrees last := by
  have hrun : (machine allEvents).run (.start 0)
      [.packet (packetAt 1000), .command (spliceOutAt 3000) none, .packet (packetAt 2000),
        .packet (packetAt 4000)] = some (_, _) := rfl
  refine ⟨_, _, hrun, agrees_of_run allEvents 0 ?_ hrun⟩
  refine Machine.meets_cons_of_step _ rfl ⟨trivial, fun _ ↦ by decide +kernel⟩ ?_
  refine Machine.meets_cons_of_step _ rfl ⟨?_, ?_⟩ ?_
  · intro other hother pts hpts
    obtain rfl := Request.add.inj hother
    obtain rfl := Option.some.inj hpts
    decide +kernel
  · intro other hother pts _ hreturn
    obtain rfl := Request.add.inj hother
    exact absurd hreturn Bool.false_ne_true
  refine Machine.meets_cons_of_step _ rfl ⟨trivial, fun _ ↦ by decide +kernel⟩ ?_
  exact Machine.meets_cons_of_step _ rfl ⟨trivial, fun _ ↦ by decide +kernel⟩ trivial

/-- A packet arrives before the wrap up, the event is after it. -/
theorem not_agrees_of_wrap_up :
    ¬∀ inputs last outputs,
      (machine allEvents).Meets (IsAnnounced allEvents) (.start 0x1FFFFFF00) inputs →
        (machine allEvents).run (.start 0x1FFFFFF00) inputs = some (last, outputs) →
          Agrees last := by
  intro hall
  have hagrees := hall [.packet (packetAt 0x1FFFFFF00), .command (spliceOutAt 100) none,
    .packet (packetAt 0x1FFFFFF10)] _ _ ?_ rfl
  · exact absurd hagrees.currentlyOut_eq (by decide +kernel)
  · refine Machine.meets_cons_of_step _ rfl trivial (Machine.meets_cons_of_step _ rfl ?_
      (Machine.meets_cons_of_step _ rfl trivial trivial))
    intro other hother pts hpts
    obtain rfl := Request.add.inj hother
    obtain rfl := Option.some.inj hpts
    decide +kernel

end RMSplice

end TSDuck
