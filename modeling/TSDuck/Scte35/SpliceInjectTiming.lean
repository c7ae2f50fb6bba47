import TSDuck.Scte35.SpliceInject
import Mathlib

/-!
# Times of injection of splice commands

A command which is not immediate is to be injected between its start PTS and its event PTS.

The queue is sorted by the values of the next PTS and only its first command is looked at. Moreover
only one command is injected each time.

`timely_of_run` states that the commands are injected in time as long as no wrap up comes between
the current PTS and the PTS of a command of the queue, and as long as no two commands compete.

Scope. Times are those of a clock which does not wrap up; a PTS is the remainder of a time. No
command is enqueued by a listener meanwhile. An opportunity is a call of `provideSection`: a section
which takes several packets delays the next one.
-/

namespace TSDuck

namespace SpliceInject

open MessagePriorityQueue

def dropObsolete (plugin : Plugin) : Plugin :=
  { plugin with
    queue := plugin.queue.dropWhile fun id ↦ (plugin.commands id).isObsolete plugin.lastPts
    thread := .idle }

def inject (plugin : Plugin) (id : ℕ) : Plugin :=
  if (afterInjection plugin id).thread = .requeueing id then
    forceEnqueue (afterInjection plugin id) id
  else afterInjection plugin id

def provide (plugin : Plugin) : Plugin × Option ℕ :=
  match (dropObsolete plugin).queue with
  | [] => (dropObsolete plugin, none)
  | id :: queue =>
    if (plugin.commands id).isEarly plugin.lastPts then (dropObsolete plugin, none)
    else (inject { dropObsolete plugin with queue := queue } id, some id)

def ptsAt (time : ℕ) : UInt64 := UInt64.ofNat (time % ptsDtsScale)

def opportunity (plugin : Plugin) (time : ℕ) : Plugin × Option ℕ :=
  let timed := provideSection { plugin with lastPts := ptsAt time }
  if timed.thread = .looking then provide timed else (timed, none)

def opportunities : Machine Plugin ℕ (ℕ × Option ℕ) where
  step plugin time := some ((opportunity plugin time).1, [(time, (opportunity plugin time).2)])

def loaded (options : SpliceInjectOptions) (sits : List SpliceInformationTable) : Plugin :=
  sits.foldl (enqueue options) (start options true)

/-! ### Times -/

section Times

variable (options : SpliceInjectOptions) (first : ℕ)

/-- The next time with the last PTS of a command. -/
def eventTime (command : SpliceCommand) : ℕ :=
  first + (command.lastPts.toNat + ptsDtsScale - first % ptsDtsScale) % ptsDtsScale

def startTime (command : SpliceCommand) : ℤ :=
  eventTime first command - (options.startDelay * systemClockSubfreq / 1000 : ℕ)

def nextTime (command : SpliceCommand) : ℤ :=
  startTime options first command + (options.injectCount - command.count : ℕ) *
    (options.injectInterval * systemClockSubfreq / 1000 : ℕ)

/-- A command was never injected. -/
def IsFresh (command : SpliceCommand) : Prop := command.count = options.injectCount

/-- The clock does not wrap up between two times. -/
def SameTurn (time other : ℤ) : Prop := time / ptsDtsScale = other / ptsDtsScale

/-- The clock does not wrap up between a time and the PTS of a command. -/
structure IsUnwrapped (command : SpliceCommand) (time : ℕ) : Prop where
  ahead : time < eventTime first command → SameTurn (eventTime first command) time ∧
    SameTurn (nextTime options first command) time ∧
      time - nextTime options first command ≤ 0x1F0000000
  past : eventTime first command ≤ time → SameTurn (eventTime first command) time ∨
    time - eventTime first command < 0x10000000

/-- The commands do not compete: a new one is before its event, and if it is past its start, no
other one is earlier or new and past its start too. -/
def IsAlone (plugin : Plugin) (time : ℕ) : Prop :=
  ∀ id ∈ plugin.queue, IsFresh options (plugin.commands id) →
    time < eventTime first (plugin.commands id) ∧
      (nextTime options first (plugin.commands id) < time → ∀ other ∈ plugin.queue, other ≠ id →
        time < eventTime first (plugin.commands other) →
          nextTime options first (plugin.commands id) ≤
              nextTime options first (plugin.commands other) ∧
            (IsFresh options (plugin.commands other) →
              time ≤ nextTime options first (plugin.commands other)))

/-- The condition on an opportunity. -/
def IsClear (plugin : Plugin) (time : ℕ) : Prop :=
  (∀ id ∈ plugin.queue, IsUnwrapped options first (plugin.commands id) time) ∧
    IsAlone options first plugin time

end Times

/-- A first injection at the first opportunity past the start. -/
def IsFirstInjected (start : ℤ) (id : ℕ) : List (ℕ × Option ℕ) → Prop
  | [] => True
  | (time, injected) :: rest =>
    if start < time then injected = some id
    else injected ≠ some id ∧ IsFirstInjected start id rest

/-- The commands of the queue are injected in time. -/
structure IsTimelyHistory (options : SpliceInjectOptions) (first : ℕ) (plugin : Plugin)
    (history : List (ℕ × Option ℕ)) : Prop where
  firstInjected : ∀ id ∈ plugin.queue,
    IsFirstInjected (startTime options first (plugin.commands id)) id history
  notAfter : ∀ time id, (time, some id) ∈ history → time ≤ eventTime first (plugin.commands id)

/-! ### Comparisons of PTS -/

theorem mod_of_sameTurn {time other : ℤ} (hturn : SameTurn time other) :
    time - other = time % ptsDtsScale - other % ptsDtsScale := by
  have htime := Int.mul_ediv_add_emod time ptsDtsScale
  have hother := Int.mul_ediv_add_emod other ptsDtsScale
  rw [SameTurn] at hturn
  rw [hturn] at htime
  omega

theorem toNat_ptsAt (time : ℕ) : (ptsAt time).toNat = time % ptsDtsScale := by
  have hlt := Nat.mod_lt time (by decide : 0 < ptsDtsScale)
  rw [ptsAt, UInt64.toNat_ofNat_of_lt' (hlt.trans (by decide))]

/-- The PTS are remainders of times, not too far ahead. -/
structure IsTimed (options : SpliceInjectOptions) (first : ℕ) (command : SpliceCommand) : Prop where
  nextPts : (command.nextPts.toNat : ℤ) = nextTime options first command % ptsDtsScale
  lastPts : command.lastPts.toNat < ptsDtsScale
  ahead : eventTime first command < first + 0x0FFFFFFF
  interval : command.interval = UInt64.ofNat (options.injectInterval * systemClockSubfreq / 1000)
  count : command.count ≤ options.injectCount

section Comparisons

variable {options : SpliceInjectOptions} {first time : ℕ} {command : SpliceCommand}

theorem scale_eq : ptsDtsScale = 0x200000000 := rfl

theorem ne_invalidPts {pts : UInt64} (hpts : pts.toNat < ptsDtsScale) : pts ≠ invalidPts := by
  rintro rfl
  exact absurd hpts (by decide)

theorem IsTimed.lastPts_eq (htimed : IsTimed options first command) :
    command.lastPts.toNat = eventTime first command % ptsDtsScale := by
  have hlast := htimed.lastPts
  rw [scale_eq] at hlast
  rw [eventTime, scale_eq]
  omega

theorem isObsolete_iff (htimed : IsTimed options first command) (hfirst : first ≤ time)
    (hunwrapped : IsUnwrapped options first command time) :
    command.isObsolete (ptsAt time) = true ↔ eventTime first command ≤ time := by
  have hlast := htimed.lastPts_eq
  have hahead := htimed.ahead
  rw [SpliceCommand.isObsolete, decide_eq_true (ne_invalidPts htimed.lastPts), Bool.true_and,
    sequencedPts_iff, toNat_ptsAt, hlast, scale_eq]
  constructor
  · intro hsequenced
    by_contra hevent
    obtain ⟨hturn, -⟩ := hunwrapped.ahead (not_le.mp hevent)
    have hdistance := mod_of_sameTurn hturn
    rw [scale_eq] at hdistance
    omega
  · intro hevent
    rcases hunwrapped.past hevent with hturn | hnear
    · have hdistance := mod_of_sameTurn hturn
      rw [scale_eq] at hdistance
      omega
    · omega

theorem isEarly_iff (htimed : IsTimed options first command)
    (hunwrapped : IsUnwrapped options first command time) (hevent : time < eventTime first command) :
    command.isEarly (ptsAt time) = true ↔ time ≤ nextTime options first command := by
  obtain ⟨-, hturn, hdistance⟩ := hunwrapped.ahead hevent
  have hnext := htimed.nextPts
  have hvalid : command.nextPts.toNat < ptsDtsScale := by
    have hmod := Int.emod_lt_of_pos (nextTime options first command)
      (by decide : (0 : ℤ) < ptsDtsScale)
    omega
  have hsame := mod_of_sameTurn hturn
  rw [SpliceCommand.isEarly, decide_eq_true (ne_invalidPts hvalid), Bool.true_and, sequencedPts_iff,
    toNat_ptsAt]
  rw [scale_eq] at *
  omega

/-- Without a wrap up, the PTS are in the order of the times. -/
theorem nextPts_le_iff {other : SpliceCommand} (htimed : IsTimed options first command)
    (hother : IsTimed options first other) (hunwrapped : IsUnwrapped options first command time)
    (hunwrappedOther : IsUnwrapped options first other time)
    (hevent : time < eventTime first command) (heventOther : time < eventTime first other) :
    command.nextPts.toNat ≤ other.nextPts.toNat ↔
      nextTime options first command ≤ nextTime options first other := by
  have hfirst := mod_of_sameTurn (hunwrapped.ahead hevent).2.1
  have hsecond := mod_of_sameTurn (hunwrappedOther.ahead heventOther).2.1
  have hnext := htimed.nextPts
  have hnextOther := hother.nextPts
  omega

end Comparisons

/-! ### The order of the queue -/

section Order

variable {options : SpliceInjectOptions} {commands : ℕ → SpliceCommand}

/-- The next PTS is before, or a new command is first. -/
def Precedes (options : SpliceInjectOptions) (commands : ℕ → SpliceCommand) (id other : ℕ) : Prop :=
  (commands id).nextPts.toNat ≤ (commands other).nextPts.toNat ∧
    ((commands id).nextPts.toNat = (commands other).nextPts.toNat →
      IsFresh options (commands other) → IsFresh options (commands id))

theorem isLess_iff {id other : ℕ} (hid : (commands id).nextPts ≠ invalidPts)
    (hother : (commands other).nextPts ≠ invalidPts) :
    isLess commands id other = true ↔
      (commands id).nextPts.toNat < (commands other).nextPts.toNat := by
  rw [isLess, SpliceCommand.less]
  by_cases hsame : (commands id).nextPts = (commands other).nextPts
  · rw [if_pos hsame, hsame]
    exact iff_of_false Bool.false_ne_true (lt_irrefl _)
  · rw [if_neg hsame, if_neg hid, decide_eq_true hother, Bool.true_and, decide_eq_true_eq,
      UInt64.lt_iff_toNat_lt]

theorem pairwise_insert {id : ℕ} {queue : List ℕ} (hsorted : queue.Pairwise (Precedes options commands))
    (hid : (commands id).nextPts ≠ invalidPts)
    (hqueue : ∀ other ∈ queue, (commands other).nextPts ≠ invalidPts)
    (hfresh : IsFresh options (commands id) → ∀ other ∈ queue, IsFresh options (commands other)) :
    (insert (isLess commands) id queue).Pairwise (Precedes options commands) := by
  have happend := List.rdropWhile_append_rtakeWhile (l := queue) (p := isLess commands id)
  have hafter : ∀ other ∈ queue.rtakeWhile (isLess commands id),
      (commands id).nextPts.toNat < (commands other).nextPts.toNat := by
    intro other hother
    have hmem : other ∈ queue := by
      rw [← happend]
      exact List.mem_append_right _ hother
    exact (isLess_iff hid (hqueue other hmem)).mp (List.mem_rtakeWhile_imp hother)
  have hbefore : ∀ other ∈ queue.rdropWhile (isLess commands id),
      (commands other).nextPts.toNat ≤ (commands id).nextPts.toNat := by
    intro other hother
    have hne := List.ne_nil_of_mem hother
    have hlast := List.rdropWhile_last_not (isLess commands id) queue hne
    have hmem : (queue.rdropWhile (isLess commands id)).getLast hne ∈ queue :=
      (List.rdropWhile_prefix _ _).subset (List.getLast_mem hne)
    rw [isLess_iff hid (hqueue _ hmem), not_lt] at hlast
    have hahead := hsorted.sublist (List.rdropWhile_prefix (isLess commands id) queue).sublist
    have hsplit := List.dropLast_append_getLast hne
    rw [← hsplit, List.pairwise_append] at hahead
    rw [← hsplit, List.mem_append, List.mem_singleton] at hother
    rcases hother with hother | rfl
    · exact (hahead.2.2 other hother _ (List.mem_singleton.mpr rfl)).1.trans hlast
    · exact hlast
  rw [← happend, List.pairwise_append] at hsorted
  obtain ⟨hfront, hback, hcross⟩ := hsorted
  rw [MessagePriorityQueue.insert, List.pairwise_append, List.pairwise_cons]
  refine ⟨hfront, ⟨fun other hother ↦ ?_, hback⟩, fun other hother next hnext ↦ ?_⟩
  · exact ⟨(hafter other hother).le, fun hsame ↦ absurd hsame (hafter other hother).ne⟩
  · rcases List.mem_cons.mp hnext with rfl | hnext
    · refine ⟨hbefore other hother, fun _ hfreshId ↦ hfresh hfreshId other ?_⟩
      rw [← happend]
      exact List.mem_append_left _ hother
    · exact hcross other hother next hnext

end Order

/-! ### One opportunity -/

structure Tracks (options : SpliceInjectOptions) (first : ℕ) (plugin : Plugin) : Prop where
  thread : plugin.thread = .idle
  hasInjectPid : plugin.hasInjectPid = true
  nodup : plugin.queue.Nodup
  sorted : plugin.queue.Pairwise (Precedes options plugin.commands)
  timed : ∀ id ∈ plugin.queue, IsTimed options first (plugin.commands id)

variable {options : SpliceInjectOptions} {first time : ℕ} {plugin : Plugin}

theorem IsTimed.nextPts_ne_invalid {command : SpliceCommand}
    (htimed : IsTimed options first command) : command.nextPts ≠ invalidPts := by
  refine ne_invalidPts ?_
  have hmod := Int.emod_lt_of_pos (nextTime options first command)
    (by decide : (0 : ℤ) < ptsDtsScale)
  have hnext := htimed.nextPts
  omega

theorem isTimed_repeated {command : SpliceCommand} (htimed : IsTimed options first command)
    (hcount : command.count > 1) :
    IsTimed options first command.repeated ∧ ¬ IsFresh options command.repeated := by
  obtain ⟨hnext, hlast, hahead, hinterval, hle⟩ := htimed
  have hcountRepeated : command.repeated.count = command.count - 1 := rfl
  refine ⟨⟨?_, hlast, hahead, hinterval, ?_⟩, ?_⟩
  · have htime : nextTime options first command.repeated = nextTime options first command +
        (options.injectInterval * systemClockSubfreq / 1000 : ℕ) := by
      have hsub : options.injectCount - (command.count - 1) =
          options.injectCount - command.count + 1 := by omega
      have hstart : startTime options first command.repeated = startTime options first command := rfl
      rw [nextTime, nextTime, hcountRepeated, hsub, hstart]
      push_cast
      ring
    have hvalue : command.repeated.nextPts.toNat =
        (command.nextPts.toNat + options.injectInterval * systemClockSubfreq / 1000) % ptsDtsScale := by
      have hmask : ptsDtsMask = 2 ^ 33 - 1 := rfl
      have hmaskValue : (UInt64.ofNat ptsDtsMask).toNat = 2 ^ 33 - 1 := by decide
      show ((command.nextPts + command.interval) &&& UInt64.ofNat ptsDtsMask).toNat = _
      rw [UInt64.toNat_and, hmaskValue, Nat.and_two_pow_sub_one_eq_mod, UInt64.toNat_add, hinterval,
        UInt64.toNat_ofNat', scale_eq]
      omega
    rw [htime, hvalue]
    push_cast
    rw [hnext, Int.emod_add_emod]
  · rw [hcountRepeated]
    omega
  · rw [IsFresh, hcountRepeated]
    omega

def commandsAfter (plugin : Plugin) (id : ℕ) : ℕ → SpliceCommand :=
  if (plugin.commands id).count > 1 then
    Function.update plugin.commands id (plugin.commands id).repeated
  else plugin.commands

/-- An injected command leaves the queue, or is at its next place. -/
theorem inject_cases (plugin : Plugin) (id : ℕ) :
    inject plugin id = { plugin with commands := commandsAfter plugin id, thread := .idle } ∨
      (plugin.commands id).count > 1 ∧ inject plugin id = { plugin with
          commands := commandsAfter plugin id
          queue := insert (isLess (commandsAfter plugin id)) id plugin.queue
          thread := .idle } := by
  unfold inject commandsAfter afterInjection
  by_cases hcount : (plugin.commands id).count > 1
  · simp only [if_pos hcount]
    by_cases hsequenced : sequencedPts (plugin.commands id).repeated.nextPts.toNat
        (plugin.commands id).repeated.lastPts.toNat = true
    · right
      simp only [hsequenced, if_true]
      exact ⟨hcount, rfl⟩
    · left
      simp only [hsequenced, Bool.false_eq_true, if_false]
      rfl
  · left
    simp only [if_neg hcount]
    rfl

theorem commandsAfter_of_ne (plugin : Plugin) {id other : ℕ} (hne : other ≠ id) :
    commandsAfter plugin id other = plugin.commands other := by
  unfold commandsAfter
  split_ifs
  · exact Function.update_of_ne hne _ _
  · rfl

theorem lastPts_commandsAfter (plugin : Plugin) (id other : ℕ) :
    (commandsAfter plugin id other).lastPts = (plugin.commands other).lastPts := by
  by_cases hsame : other = id
  · subst hsame
    unfold commandsAfter
    split_ifs
    · rw [Function.update_self]
      rfl
    · rfl
  · rw [commandsAfter_of_ne plugin hsame]

/-- What holds between two opportunities holds afterwards. -/
theorem tracks_inject (plugin : Plugin) {id : ℕ} (hpid : plugin.hasInjectPid = true) (hid : id ∉ plugin.queue)
    (hnodup : plugin.queue.Nodup) (hsorted : plugin.queue.Pairwise (Precedes options plugin.commands))
    (htimed : ∀ other ∈ plugin.queue, IsTimed options first (plugin.commands other))
    (htimedId : IsTimed options first (plugin.commands id)) :
    Tracks options first (inject plugin id) ∧
      (∀ other ∈ plugin.queue, other ∈ (inject plugin id).queue) ∧
      (inject plugin id).commands = commandsAfter plugin id := by
  have hother : ∀ other ∈ plugin.queue, commandsAfter plugin id other = plugin.commands other :=
    fun other hmem ↦ commandsAfter_of_ne plugin (ne_of_mem_of_not_mem hmem hid)
  have hsortedAfter : plugin.queue.Pairwise (Precedes options (commandsAfter plugin id)) := by
    refine hsorted.imp_of_mem fun {other next} hmem hnext h ↦ ?_
    rw [Precedes, hother other hmem, hother next hnext]
    exact h
  have htimedAfter : ∀ other ∈ plugin.queue,
      IsTimed options first (commandsAfter plugin id other) := by
    intro other hmem
    rw [hother other hmem]
    exact htimed other hmem
  rcases inject_cases plugin id with hinject | ⟨hcount, hinject⟩
  · rw [hinject]
    exact ⟨⟨rfl, hpid, hnodup, hsortedAfter, htimedAfter⟩, fun _ hmem ↦ hmem, rfl⟩
  · have hrepeated : commandsAfter plugin id id = (plugin.commands id).repeated := by
      rw [commandsAfter, if_pos hcount, Function.update_self]
    obtain ⟨htimedRepeated, hnotFresh⟩ := isTimed_repeated htimedId hcount
    rw [← hrepeated] at htimedRepeated hnotFresh
    have hmem : ∀ other, other ∈ insert (isLess (commandsAfter plugin id)) id plugin.queue ↔
        other = id ∨ other ∈ plugin.queue := fun other ↦ by
      rw [(insert_perm _ _ _).mem_iff, List.mem_cons]
    rw [hinject]
    refine ⟨⟨rfl, hpid, ?_, ?_, ?_⟩, fun other hqueue ↦ (hmem other).mpr (.inr hqueue), rfl⟩
    · exact (insert_perm _ _ _).nodup_iff.mpr (List.nodup_cons.mpr ⟨hid, hnodup⟩)
    · exact pairwise_insert hsortedAfter htimedRepeated.nextPts_ne_invalid
        (fun other hqueue ↦ (htimedAfter other hqueue).nextPts_ne_invalid)
        fun hfresh ↦ absurd hfresh hnotFresh
    · intro other hqueue
      rcases (hmem other).mp hqueue with rfl | hqueue
      · exact htimedRepeated
      · exact htimedAfter other hqueue

theorem opportunity_eq (htracks : Tracks options first plugin) (time : ℕ) :
    opportunity plugin time =
      provide { plugin with lastPts := ptsAt time, thread := .looking } := by
  have hpts : ptsAt time ≠ invalidPts :=
    ne_invalidPts (by
      rw [toNat_ptsAt]
      exact Nat.mod_lt time (by decide))
  have hlooking : provideSection { plugin with lastPts := ptsAt time } =
      { plugin with lastPts := ptsAt time, thread := .looking } := by
    rw [provideSection, htracks.hasInjectPid]
    simp only [Bool.not_true, Bool.false_or, decide_eq_true_eq, if_neg hpts]
  rw [opportunity, hlooking]
  exact if_pos rfl

/-- The steps of the packet thread without a listener. -/
def Performs (options : SpliceInjectOptions) (plugin last : Plugin) (injected : List ℕ) : Prop :=
  ∃ actions events, (∀ action ∈ actions, ∀ sit, action ≠ .enqueue sit) ∧
    (machine options).run plugin actions = some (last, events) ∧ injections events = injected

theorem performs_nil (options : SpliceInjectOptions) (plugin : Plugin) :
    Performs options plugin plugin [] :=
  ⟨[], [], fun _ hnone ↦ absurd hnone List.not_mem_nil, rfl, rfl⟩

theorem Performs.cons {next last : Plugin} {action : Action} {events : List Event} {injected : List ℕ}
    (hrest : Performs options next last injected)
    (hstep : step options plugin action = some (next, events))
    (haction : ∀ sit, action ≠ .enqueue sit) :
    Performs options plugin last (injections events ++ injected) := by
  obtain ⟨actions, later, hactions, hrun, hinjected⟩ := hrest
  refine ⟨action :: actions, events ++ later, fun other hother ↦ ?_,
    (Machine.run_cons_eq_some _).mpr ⟨next, events, later, hstep, hrun, rfl⟩, ?_⟩
  · rcases List.mem_cons.mp hother with rfl | hmem
    · exact haction
    · exact hactions other hmem
  · rw [injections, List.filterMap_append, ← hinjected]
    rfl

/-- The command at the head of the queue is dropped, waits or is injected. -/
theorem provide_cons (commands : ℕ → SpliceCommand) (created id : ℕ) (rest : List ℕ)
    (hasInjectPid : Bool) (lastPts : UInt64) (thread : PacketThread) :
    provide ⟨commands, created, id :: rest, hasInjectPid, lastPts, thread⟩ =
      if (commands id).isObsolete lastPts = true then
        provide ⟨commands, created, rest, hasInjectPid, lastPts, thread⟩
      else if (commands id).isEarly lastPts = true then
        (⟨commands, created, id :: rest, hasInjectPid, lastPts, .idle⟩, none)
      else (inject ⟨commands, created, rest, hasInjectPid, lastPts, .idle⟩ id, some id) := by
  split_ifs with hobsolete hearly
  · have hdropped : dropObsolete ⟨commands, created, id :: rest, hasInjectPid, lastPts, thread⟩ =
        dropObsolete ⟨commands, created, rest, hasInjectPid, lastPts, thread⟩ := by
      rw [dropObsolete, dropObsolete]
      dsimp only
      rw [List.dropWhile_cons_of_pos (p := fun id ↦ (commands id).isObsolete lastPts) hobsolete]
    rw [provide, provide, hdropped]
  all_goals
    have hkept : dropObsolete ⟨commands, created, id :: rest, hasInjectPid, lastPts, thread⟩ =
        ⟨commands, created, id :: rest, hasInjectPid, lastPts, .idle⟩ := by
      rw [dropObsolete]
      dsimp only
      rw [List.dropWhile_cons_of_neg (p := fun id ↦ (commands id).isObsolete lastPts) hobsolete]
    rw [provide, hkept]
  · exact if_pos hearly
  · exact if_neg hearly

theorem performs_provide (options : SpliceInjectOptions) {plugin : Plugin}
    (hthread : plugin.thread = .looking) :
    Performs options plugin (provide plugin).1 (provide plugin).2.toList := by
  obtain ⟨commands, created, queue, hasInjectPid, lastPts, thread⟩ := plugin
  obtain rfl : thread = .looking := hthread
  induction queue with
  | nil =>
    exact (performs_nil options _).cons (show step options _ .peek = some (_, []) from rfl)
      fun _ ↦ Action.noConfusion
  | cons id rest ih =>
    have hfound : step options ⟨commands, created, id :: rest, hasInjectPid, lastPts, .looking⟩ .peek =
        some (⟨commands, created, id :: rest, hasInjectPid, lastPts, .found id⟩, []) := rfl
    have hdequeue : step options ⟨commands, created, id :: rest, hasInjectPid, lastPts, .found id⟩
        .dequeue = some (dequeue ⟨commands, created, id :: rest, hasInjectPid, lastPts, .found id⟩
          id) := rfl
    refine Performs.cons ?_ hfound fun _ ↦ Action.noConfusion
    rw [dequeue] at hdequeue
    rw [provide_cons]
    split_ifs at hdequeue ⊢
    · exact ih.cons hdequeue fun _ ↦ Action.noConfusion
    · exact (performs_nil options _).cons hdequeue fun _ ↦ Action.noConfusion
    · have hinjected : Performs options
          (afterInjection ⟨commands, created, rest, hasInjectPid, lastPts, .idle⟩ id)
          (inject ⟨commands, created, rest, hasInjectPid, lastPts, .idle⟩ id) [] := by
        rw [inject]
        split_ifs with hrequeue
        · have hforce : step options
              (afterInjection ⟨commands, created, rest, hasInjectPid, lastPts, .idle⟩ id)
              .forceEnqueue = some (forceEnqueue
                (afterInjection ⟨commands, created, rest, hasInjectPid, lastPts, .idle⟩ id) id,
                []) := by
            rw [step, hrequeue]
          exact (performs_nil options _).cons hforce fun _ ↦ Action.noConfusion
        · exact performs_nil options _
      exact hinjected.cons hdequeue fun _ ↦ Action.noConfusion

/-- An opportunity is made of steps of the threads which share the queue. -/
theorem performs_opportunity (options : SpliceInjectOptions) (hthread : plugin.thread = .idle)
    (time : ℕ) :
    Performs options plugin (opportunity plugin time).1 (opportunity plugin time).2.toList := by
  have hset : step options plugin (.setLastPts (ptsAt time)) =
      some ({ plugin with lastPts := ptsAt time }, []) := if_pos hthread
  have hsection : step options { plugin with lastPts := ptsAt time } .provideSection =
      some (provideSection { plugin with lastPts := ptsAt time }, []) := if_pos hthread
  refine Performs.cons (Performs.cons ?_ hsection fun _ ↦ Action.noConfusion) hset
    fun _ ↦ Action.noConfusion
  rw [opportunity]
  split_ifs with hlooking
  · exact performs_provide options hlooking
  · exact performs_nil options _

/-- A new command past its start is injected, or it stays. -/
def IsServed (options : SpliceInjectOptions) (first : ℕ) (plugin : Plugin) (time : ℕ)
    (served : Plugin × Option ℕ) : Prop :=
  ∀ id ∈ plugin.queue, IsFresh options (plugin.commands id) →
    if nextTime options first (plugin.commands id) < time then served.2 = some id
    else served.2 ≠ some id ∧ id ∈ served.1.queue ∧ served.1.commands id = plugin.commands id

/-- A clear opportunity serves the commands. -/
theorem opportunity_spec (htracks : Tracks options first plugin) (hfirst : first ≤ time)
    (hclear : IsClear options first plugin time) :
    Tracks options first (opportunity plugin time).1 ∧
      (∀ id, ((opportunity plugin time).1.commands id).lastPts = (plugin.commands id).lastPts) ∧
      IsServed options first plugin time (opportunity plugin time) ∧
      ∀ id, (opportunity plugin time).2 = some id →
        time < eventTime first (plugin.commands id) := by
  obtain ⟨hthread, hpid, hnodup, hsorted, htimed⟩ := htracks
  obtain ⟨hunwrapped, halone⟩ := hclear
  rw [opportunity_eq ⟨hthread, hpid, hnodup, hsorted, htimed⟩]
  have hobsolete : ∀ id ∈ plugin.queue, (plugin.commands id).isObsolete (ptsAt time) = true ↔
      eventTime first (plugin.commands id) ≤ time :=
    fun id hid ↦ isObsolete_iff (htimed id hid) hfirst (hunwrapped id hid)
  generalize hdropped : plugin.queue.dropWhile (fun id ↦
    (plugin.commands id).isObsolete (ptsAt time)) = dropped
  have hsublist : dropped.Sublist plugin.queue := hdropped ▸ List.dropWhile_sublist _
  have hkept : ∀ id ∈ plugin.queue, time < eventTime first (plugin.commands id) → id ∈ dropped := by
    intro id hid hevent
    rw [← List.takeWhile_append_dropWhile (p := fun id ↦
      (plugin.commands id).isObsolete (ptsAt time)) (l := plugin.queue), hdropped] at hid
    rcases List.mem_append.mp hid with htaken | hrest
    · have hmem : id ∈ plugin.queue := (List.takeWhile_prefix _).subset htaken
      have hpast : (plugin.commands id).isObsolete (ptsAt time) = true :=
        List.mem_takeWhile_imp (p := fun id ↦ (plugin.commands id).isObsolete (ptsAt time)) htaken
      exact absurd ((hobsolete id hmem).mp hpast) (not_le.mpr hevent)
    · exact hrest
  have htracksDropped : Tracks options first
      { plugin with lastPts := ptsAt time, queue := dropped, thread := .idle } :=
    ⟨rfl, hpid, hnodup.sublist hsublist, hsorted.sublist hsublist,
      fun id hid ↦ htimed id (hsublist.subset hid)⟩
  cases dropped with
  | nil =>
    have hprovide : provide { plugin with lastPts := ptsAt time, thread := .looking } =
        ({ plugin with lastPts := ptsAt time, queue := [], thread := .idle }, none) := by
      rw [provide, dropObsolete]
      dsimp only
      rw [hdropped]
    rw [hprovide]
    refine ⟨htracksDropped, fun _ ↦ rfl, fun id hid hfresh ↦ ?_,
      fun id h ↦ absurd h.symm (Option.some_ne_none id)⟩
    exact absurd (hkept id hid (halone id hid hfresh).1) List.not_mem_nil
  | cons id rest =>
    have hid : id ∈ plugin.queue := hsublist.subset List.mem_cons_self
    have hnotObsolete : time < eventTime first (plugin.commands id) := by
      have hhead := List.head_dropWhile_not (fun id ↦ (plugin.commands id).isObsolete (ptsAt time))
        (l := plugin.queue) (by rw [hdropped]; exact List.cons_ne_nil _ _)
      simp only [hdropped, List.head_cons] at hhead
      rw [← not_le, ← hobsolete id hid, hhead]
      exact Bool.false_ne_true
    have hearly := isEarly_iff (htimed id hid) (hunwrapped id hid) hnotObsolete
    have hprecedes : ∀ other ∈ rest, Precedes options plugin.commands id other :=
      (List.pairwise_cons.mp (hsorted.sublist hsublist)).1
    have horder : ∀ other ∈ rest, time < eventTime first (plugin.commands other) →
        nextTime options first (plugin.commands id) ≤
          nextTime options first (plugin.commands other) := by
      intro other hother hevent
      have hmem : other ∈ plugin.queue := hsublist.subset (List.mem_cons_of_mem _ hother)
      exact (nextPts_le_iff (htimed id hid) (htimed other hmem) (hunwrapped id hid)
        (hunwrapped other hmem) hnotObsolete hevent).mp (hprecedes other hother).1
    by_cases htime : (time : ℤ) ≤ nextTime options first (plugin.commands id)
    · have hprovide : provide { plugin with lastPts := ptsAt time, thread := .looking } =
          ({ plugin with lastPts := ptsAt time, queue := id :: rest, thread := .idle }, none) := by
        rw [provide, dropObsolete]
        dsimp only
        rw [hdropped]
        dsimp only
        rw [if_pos (hearly.mpr htime)]
      rw [hprovide]
      refine ⟨htracksDropped, fun _ ↦ rfl, fun other hother hfresh ↦ ?_,
        fun id h ↦ absurd h.symm (Option.some_ne_none id)⟩
      have hevent := (halone other hother hfresh).1
      have hdue : ¬ nextTime options first (plugin.commands other) < time := by
        rcases List.mem_cons.mp (hkept other hother hevent) with rfl | hrest
        · exact not_lt.mpr htime
        · exact not_lt.mpr (htime.trans (horder other hrest hevent))
      rw [if_neg hdue]
      exact ⟨(Option.some_ne_none other).symm, hkept other hother hevent, rfl⟩
    · have hnotEarly : ¬ (plugin.commands id).isEarly (ptsAt time) = true :=
        fun h ↦ htime (hearly.mp h)
      have hprovide : provide { plugin with lastPts := ptsAt time, thread := .looking } =
          (inject { plugin with lastPts := ptsAt time, queue := rest, thread := .idle } id,
            some id) := by
        rw [provide, dropObsolete]
        dsimp only
        rw [hdropped]
        dsimp only
        rw [if_neg hnotEarly]
      obtain ⟨hnotMem, hnodupRest⟩ := List.nodup_cons.mp (hnodup.sublist hsublist)
      obtain ⟨htracksNext, hqueue, hcommands⟩ :=
        tracks_inject { plugin with lastPts := ptsAt time, queue := rest, thread := .idle }
          hpid hnotMem hnodupRest (List.pairwise_cons.mp (hsorted.sublist hsublist)).2
          (fun other hother ↦ htimed other (hsublist.subset (List.mem_cons_of_mem _ hother)))
          (htimed id hid)
      rw [hprovide]
      refine ⟨htracksNext, fun other ↦ ?_, fun other hother hfresh ↦ ?_, fun other h ↦ ?_⟩
      · dsimp only
        rw [hcommands, lastPts_commandsAfter]
      · obtain ⟨hevent, hcompete⟩ := halone other hother hfresh
        have hmem := List.mem_cons.mp (hkept other hother hevent)
        by_cases hdue : nextTime options first (plugin.commands other) < time
        · rw [if_pos hdue]
          dsimp only
          rcases hmem with rfl | hrest
          · rfl
          · have hne : id ≠ other := fun h ↦ hnotMem (h ▸ hrest)
            obtain ⟨hnext, hstart⟩ := hcompete hdue id hid hne hnotObsolete
            have hpts := (nextPts_le_iff (htimed other hother) (htimed id hid)
              (hunwrapped other hother) (hunwrapped id hid) hevent hnotObsolete).mpr hnext
            obtain ⟨hle, htie⟩ := hprecedes other hrest
            exact absurd (hstart (htie (le_antisymm hle hpts) hfresh)) htime
        · rw [if_neg hdue]
          rcases hmem with rfl | hrest
          · exact absurd (not_lt.mp hdue) htime
          · have hne : other ≠ id := fun h ↦ hnotMem (h ▸ hrest)
            refine ⟨fun h ↦ hne (Option.some.inj h).symm, hqueue other hrest, ?_⟩
            dsimp only
            rw [hcommands, commandsAfter_of_ne _ hne]
      · rw [← Option.some.inj h]
        exact hnotObsolete

/-! ### Runs -/

/-- The injections are at the first opportunities. -/
theorem history_spec {times : List ℕ} (htracks : Tracks options first plugin)
    (hfirst : ∀ time ∈ times, first ≤ time)
    (hmeets : opportunities.Meets (IsClear options first) plugin times) {last : Plugin}
    {history : List (ℕ × Option ℕ)} (hrun : opportunities.run plugin times = some (last, history)) :
    (∀ id ∈ plugin.queue, IsFresh options (plugin.commands id) →
        IsFirstInjected (nextTime options first (plugin.commands id)) id history) ∧
      ∀ time id, (time, some id) ∈ history → time < eventTime first (plugin.commands id) := by
  induction times generalizing plugin history with
  | nil =>
    rw [Machine.run_nil, Option.some.injEq, Prod.mk.injEq] at hrun
    rw [← hrun.2]
    exact ⟨fun _ _ _ ↦ trivial, fun _ _ h ↦ absurd h List.not_mem_nil⟩
  | cons time times ih =>
    obtain ⟨next, reported, later, hstep, hrest, rfl⟩ :=
      (Machine.run_cons_eq_some opportunities).mp hrun
    obtain ⟨rfl, rfl⟩ := Prod.mk.inj (Option.some.inj hstep)
    obtain ⟨htracksNext, hlastPts, hserved, hevent⟩ :=
      opportunity_spec htracks (hfirst time List.mem_cons_self) hmeets.1
    obtain ⟨hinjected, hnotAfter⟩ := ih htracksNext
      (List.forall_mem_cons.mp hfirst).2 (hmeets.2 _ _ rfl) hrest
    refine ⟨fun id hid hfresh ↦ ?_, fun other id hentry ↦ ?_⟩
    · have hcommand := hserved id hid hfresh
      rw [List.singleton_append, IsFirstInjected]
      by_cases hdue : nextTime options first (plugin.commands id) < time
      · rw [if_pos hdue] at hcommand ⊢
        exact hcommand
      · rw [if_neg hdue] at hcommand ⊢
        obtain ⟨hnot, hmem, hsame⟩ := hcommand
        have hlater := hinjected id hmem
        rw [hsame] at hlater
        exact ⟨hnot, hlater hfresh⟩
    · rcases List.mem_cons.mp hentry with hhead | hentry
      · obtain ⟨rfl, hid⟩ := Prod.mk.inj hhead
        exact hevent id hid.symm
      · have hafter := hnotAfter other id hentry
        rw [eventTime, hlastPts] at hafter
        exact hafter

/-- A splice insert which is not immediate, nor too far ahead. -/
structure IsTimedInsert (options : SpliceInjectOptions) (first : ℕ) (sit : SpliceInformationTable) :
    Prop where
  notImmediate : (SpliceCommand.new options sit).nextPts ≠ invalidPts
  ahead : eventTime first (SpliceCommand.new options sit) < first + 0x0FFFFFFF

theorem isTimed_new {sit : SpliceInformationTable} (hsit : IsTimedInsert options first sit) :
    IsTimed options first (SpliceCommand.new options sit) ∧
      IsFresh options (SpliceCommand.new options sit) := by
  obtain ⟨hnext, hahead⟩ := hsit
  generalize hcommand : SpliceCommand.new options sit = command at hnext hahead
  have hfields : command.count = options.injectCount ∧
      command.interval = UInt64.ofNat (options.injectInterval * systemClockSubfreq / 1000) ∧
      command.lastPts.toNat < ptsDtsScale ∧ command.nextPts = (command.lastPts -
        UInt64.ofNat (options.startDelay * systemClockSubfreq / 1000)) &&&
          UInt64.ofNat ptsDtsMask := by
    subst hcommand
    unfold SpliceCommand.new at hnext ⊢
    dsimp only at hnext ⊢
    split_ifs at hnext ⊢
    · refine ⟨rfl, rfl, ?_, rfl⟩
      have hmaskValue : (UInt64.ofNat ptsDtsMask).toNat = 2 ^ 33 - 1 := by decide
      rw [UInt64.toNat_and, hmaskValue, Nat.and_two_pow_sub_one_eq_mod]
      exact Nat.mod_lt _ (by decide)
    · exact absurd rfl hnext
  obtain ⟨hcount, hinterval, hlast, hpts⟩ := hfields
  have hevent : command.lastPts.toNat = eventTime first command % ptsDtsScale := by
    rw [scale_eq] at hlast
    rw [eventTime, scale_eq]
    omega
  refine ⟨⟨?_, hlast, hahead, hinterval, hcount.le⟩, hcount⟩
  have hmaskValue : (UInt64.ofNat ptsDtsMask).toNat = 2 ^ 33 - 1 := by decide
  rw [nextTime, hcount, Nat.sub_self, startTime, hpts, UInt64.toNat_and, hmaskValue,
    Nat.and_two_pow_sub_one_eq_mod, UInt64.toNat_sub, UInt64.toNat_ofNat', hevent]
  rw [scale_eq]
  omega

/-- What holds while listeners enqueue commands. -/
structure IsLoading (options : SpliceInjectOptions) (first : ℕ) (plugin : Plugin) : Prop
    extends Tracks options first plugin where
  created : ∀ id ∈ plugin.queue, id < plugin.created
  fresh : ∀ id ∈ plugin.queue, IsFresh options (plugin.commands id)

theorem isLoading_enqueue {sit : SpliceInformationTable} (hloading : IsLoading options first plugin)
    (hsit : IsTimedInsert options first sit) :
    IsLoading options first (enqueue options plugin sit) := by
  obtain ⟨⟨hthread, hpid, hnodup, hsorted, htimed⟩, hcreated, hfresh⟩ := hloading
  unfold enqueue
  by_cases hfull : isFull options plugin = true
  · rw [if_pos hfull]
    exact ⟨⟨hthread, hpid, hnodup, hsorted, htimed⟩, hcreated, hfresh⟩
  rw [if_neg hfull]
  obtain ⟨htimedNew, hfreshNew⟩ := isTimed_new hsit
  generalize hcommands :
    Function.update plugin.commands plugin.created (SpliceCommand.new options sit) = commands
  have hself : commands plugin.created = SpliceCommand.new options sit := by
    rw [← hcommands, Function.update_self]
  have hother : ∀ id ∈ plugin.queue, commands id = plugin.commands id := by
    intro id hid
    rw [← hcommands, Function.update_of_ne (hcreated id hid).ne]
  have hnotMem : plugin.created ∉ plugin.queue := fun hid ↦ lt_irrefl _ (hcreated _ hid)
  have hall : ∀ {property : ℕ → Prop}, property plugin.created →
      (∀ id ∈ plugin.queue, property id) →
        ∀ id ∈ place plugin commands plugin.created, property id := by
    intro property hnew hold id hid
    rcases mem_place.mp hid with rfl | hid
    · exact hnew
    · exact hold id hid
  rw [← hself] at htimedNew hfreshNew
  have htimedAll : ∀ id ∈ plugin.queue, IsTimed options first (commands id) := by
    intro id hid
    rw [hother id hid]
    exact htimed id hid
  have hfreshAll : ∀ id ∈ plugin.queue, IsFresh options (commands id) := by
    intro id hid
    rw [hother id hid]
    exact hfresh id hid
  refine ⟨⟨hthread, hpid, ?_, ?_, hall htimedNew htimedAll⟩,
    hall (Nat.lt_succ_self _) fun id hid ↦ Nat.lt_succ_of_lt (hcreated id hid),
    hall hfreshNew hfreshAll⟩
  · exact (perm_place plugin commands plugin.created).nodup_iff.mpr
      (List.nodup_cons.mpr ⟨hnotMem, hnodup⟩)
  · have hsortedNew : plugin.queue.Pairwise (Precedes options commands) := by
      refine hsorted.imp_of_mem fun {id next} hid hnext h ↦ ?_
      rw [Precedes, hother id hid, hother next hnext]
      exact h
    exact pairwise_insert hsortedNew htimedNew.nextPts_ne_invalid
      (fun id hid ↦ (htimedAll id hid).nextPts_ne_invalid) fun _ ↦ hfreshAll

theorem isLoading_loaded {sits : List SpliceInformationTable}
    (hsits : ∀ sit ∈ sits, IsTimedInsert options first sit) :
    IsLoading options first (loaded options sits) := by
  have hfold : ∀ (sits : List SpliceInformationTable) (plugin : Plugin),
      (∀ sit ∈ sits, IsTimedInsert options first sit) → IsLoading options first plugin →
        IsLoading options first (sits.foldl (enqueue options) plugin) := by
    intro sits
    induction sits with
    | nil => exact fun _ _ h ↦ h
    | cons sit sits ih =>
      intro plugin hall hloading
      exact ih _ (List.forall_mem_cons.mp hall).2
        (isLoading_enqueue hloading (hall sit List.mem_cons_self))
  exact hfold sits _ hsits ⟨⟨rfl, rfl, List.nodup_nil, List.Pairwise.nil,
    fun _ h ↦ absurd h List.not_mem_nil⟩, fun _ h ↦ absurd h List.not_mem_nil,
    fun _ h ↦ absurd h List.not_mem_nil⟩

/-- Assumes: splice inserts which are not immediate, with events less than 0x0FFFFFFF ticks ahead,
and opportunities where no wrap up comes before the PTS of a command and no two commands compete.
They are injected in time. -/
theorem timely_of_run {sits : List SpliceInformationTable} {times : List ℕ} {last : Plugin}
    {history : List (ℕ × Option ℕ)} (hsits : ∀ sit ∈ sits, IsTimedInsert options first sit)
    (hfirst : ∀ time ∈ times, first ≤ time)
    (hmeets : opportunities.Meets (IsClear options first) (loaded options sits) times)
    (hrun : opportunities.run (loaded options sits) times = some (last, history)) :
    IsTimelyHistory options first (loaded options sits) history := by
  obtain ⟨htracks, -, hfresh⟩ := isLoading_loaded hsits
  obtain ⟨hinjected, hnotAfter⟩ := history_spec htracks hfirst hmeets hrun
  refine ⟨fun id hid ↦ ?_, fun time id hentry ↦ (hnotAfter time id hentry).le⟩
  have hnext : nextTime options first ((loaded options sits).commands id) =
      startTime options first ((loaded options sits).commands id) := by
    have hcount : ((loaded options sits).commands id).count = options.injectCount := hfresh id hid
    rw [nextTime, hcount, Nat.sub_self]
    push_cast
    ring
  rw [← hnext]
  exact hinjected id hid (hfresh id hid)

theorem isTimedInsert_insertAt : IsTimedInsert defaultOptions 700000 (insertAt 1000000) :=
  ⟨by decide, by decide⟩

/-- A command is injected 170000 ticks before its event. -/
theorem timely_of_one_command : ∃ last history,
    opportunities.run (loaded defaultOptions [insertAt 1000000]) [750000, 830000] =
        some (last, history) ∧
      IsTimelyHistory defaultOptions 700000 (loaded defaultOptions [insertAt 1000000]) history := by
  have hrun : opportunities.run (loaded defaultOptions [insertAt 1000000]) [750000, 830000] =
      some (_, _) := rfl
  have hclear : ∀ time : ℕ, time = 750000 ∨ time = 830000 → ∀ plugin : Plugin, plugin.queue = [0] →
      plugin.commands 0 = SpliceCommand.new defaultOptions (insertAt 1000000) →
        IsClear defaultOptions 700000 plugin time := by
    intro time htime plugin hqueue hcommand
    have hevent : eventTime 700000 (plugin.commands 0) = 1000000 := by
      rw [hcommand]
      decide
    have hnext : nextTime defaultOptions 700000 (plugin.commands 0) = 820000 := by
      rw [hcommand]
      decide
    constructor
    · intro id hid
      rw [hqueue] at hid
      obtain rfl := List.mem_singleton.mp hid
      refine ⟨fun _ ↦ ?_, fun hpast ↦ ?_⟩
      · rw [hevent, hnext, SameTurn, SameTurn, scale_eq]
        omega
      · omega
    · intro id hid _
      rw [hqueue] at hid ⊢
      obtain rfl := List.mem_singleton.mp hid
      exact ⟨by omega, fun _ other hother hne ↦ absurd (List.mem_singleton.mp hother) hne⟩
  refine ⟨_, _, hrun, timely_of_run (fun sit hsit ↦ ?_) (by decide) ?_ hrun⟩
  · rw [List.mem_singleton.mp hsit]
    exact isTimedInsert_insertAt
  · refine Machine.meets_cons_of_step _ rfl (hclear 750000 (.inl rfl) _ rfl rfl) ?_
    exact Machine.meets_cons_of_step _ rfl (hclear 830000 (.inr rfl) _ rfl rfl) trivial

/-- The event is after the next wrap up: it is dropped before. -/
theorem not_timely_of_wrapUp :
    ¬ ∀ options first sits times last history, (∀ sit ∈ sits, IsTimedInsert options first sit) →
      (first :: times).Pairwise (· < ·) →
        opportunities.run (loaded options sits) times = some (last, history) →
          IsTimelyHistory options first (loaded options sits) history := by
  intro hall
  have htimed : IsTimedInsert defaultOptions (ptsDtsScale - 300000) (insertAt 500) :=
    ⟨by decide, by decide⟩
  have htimely := hall defaultOptions (ptsDtsScale - 300000) [insertAt 500]
    [ptsDtsScale - 200000, ptsDtsScale - 100000] _
    [(ptsDtsScale - 200000, none), (ptsDtsScale - 100000, none)]
    (fun sit hsit ↦ by
      rw [List.mem_singleton.mp hsit]
      exact htimed) (by decide) rfl
  have hinjected := htimely.firstInjected 0 (by decide)
  have hstart : startTime defaultOptions (ptsDtsScale - 300000)
      ((loaded defaultOptions [insertAt 500]).commands 0) = (ptsDtsScale : ℤ) - 179500 := by decide
  rw [hstart, IsFirstInjected, if_neg (by decide), IsFirstInjected, if_pos (by decide)] at hinjected
  exact Option.some_ne_none 0 hinjected.2.symm

theorem performs_of_one_command :
    Performs defaultOptions (loaded defaultOptions [insertAt 1000000])
      (opportunity (loaded defaultOptions [insertAt 1000000]) 830000).1 [0] :=
  performs_opportunity defaultOptions rfl 830000

end SpliceInject

end TSDuck
