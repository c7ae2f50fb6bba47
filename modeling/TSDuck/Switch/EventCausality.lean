import TSDuck.Switch.InputLifeCycle

/-!
# The events that release the wait actions of `tsswitch`

A wait action of the queue should be released by an event of its input that is reported after the
execution of the start, or of the stop, which precedes the wait in the queue. `Caused` says it on
the log of a run: the event is reported after the wait has been put in the queue, and no action that
starts (or stops) the input is executed in between.

The set of pending events also keeps the events that no action waits for, and an event of an earlier
session may still be there when a wait becomes ready (`Core.MeetsStaleEvent`). That is the only way
to release a wait too early: `Core.releases_caused_of_never_meetsStaleEvent`.
-/

namespace TSDuck.TSSwitch

/-- An action starts or stops the input of a wait. -/
def Action.Triggers (action wait : Action) : Prop :=
  action.index = wait.index ∧ action.type = if wait.type = .waitStopped then .stop else .start

instance (action wait : Action) : Decidable (action.Triggers wait) :=
  inferInstanceAs (Decidable (_ ∧ _))

/-- A wait without any action before it which triggers it. -/
def Ready (event : Action) : List Action → Prop
  | [] => False
  | action :: rest => action.event = event ∨ ¬ action.Triggers event ∧ Ready event rest

def waiting (event : Action) (actions : List Action) : ℕ :=
  actions.countP fun action ↦ action.event = event

def Entry.enqueues (event : Action) : Entry → Bool
  | .enqueued action => action.event = event
  | _ => false

def Entry.dequeues (event : Action) : Entry → Bool
  | .released action | .cancelled action => action.event = event
  | _ => false

def Entry.triggers (event : Action) : Entry → Bool
  | .executed action => action.Triggers event
  | _ => false

/-- The event was reported during the wait. -/
def Caused (log : List Entry) (event : Action) : Prop :=
  ∃ before after, log = before ++ .reported event :: after ∧
    (∀ entry ∈ after, entry.triggers event = false) ∧
      log.countP (Entry.dequeues event) < before.countP (Entry.enqueues event)

/-- Every wait that a log releases is caused by a report of its event. -/
def ReleasesCaused (log : List Entry) : Prop :=
  ∀ before wait after, log = before ++ .released wait :: after → Caused before wait.event

variable {event : Action}

theorem Caused.append {log entries : List Entry} (hcaused : Caused log event)
    (htriggers : ∀ entry ∈ entries, entry.triggers event = false)
    (hdequeues : ∀ entry ∈ entries, entry.dequeues event = false) :
    Caused (log ++ entries) event := by
  obtain ⟨before, after, rfl, hafter, hcount⟩ := hcaused
  refine ⟨before, after ++ entries, by simp, fun entry hentry ↦ ?_, ?_⟩
  · exact (List.mem_append.mp hentry).elim (hafter entry) (htriggers entry)
  · have hnone : entries.countP (Entry.dequeues event) = 0 :=
      List.countP_eq_zero.mpr fun entry hentry ↦ by simp [hdequeues entry hentry]
    rwa [List.countP_append, hnone, Nat.add_zero]

theorem ReleasesCaused.concat {log : List Entry} {entry : Entry} (hlog : ReleasesCaused log)
    (hentry : ∀ wait, entry = .released wait → Caused log wait.event) :
    ReleasesCaused (log ++ [entry]) := by
  intro before wait after hsplit
  rcases List.eq_nil_or_concat after with rfl | ⟨others, last, rfl⟩
  · obtain ⟨rfl, hlast⟩ := List.append_inj' hsplit rfl
    exact hentry wait (List.cons.inj hlast).1
  · have hlast : log ++ [entry] = (before ++ .released wait :: others) ++ [last] := by
      simpa using hsplit
    exact hlog before wait others (List.append_inj' hlast rfl).1

theorem ReleasesCaused.append {log entries : List Entry} (hlog : ReleasesCaused log)
    (hentries : ∀ wait, Entry.released wait ∉ entries) : ReleasesCaused (log ++ entries) := by
  induction entries generalizing log with
  | nil => rwa [List.append_nil]
  | cons entry rest ih =>
    rw [← List.singleton_append, ← List.append_assoc]
    refine ih (hlog.concat fun wait hwait ↦ ?_) fun wait hwait ↦
      hentries wait (List.mem_cons_of_mem _ hwait)
    exact absurd (hwait ▸ List.mem_cons_self) (hentries wait)

theorem Ready.waiting_pos {actions : List Action} (hready : Ready event actions) :
    0 < waiting event actions := by
  induction actions with
  | nil => exact absurd hready id
  | cons action rest ih =>
    unfold waiting
    rw [List.countP_pos_iff]
    rcases hready with hevent | ⟨-, hrest⟩
    · exact ⟨action, List.mem_cons_self, by simpa using hevent⟩
    · obtain ⟨other, hother, hevent⟩ := List.countP_pos_iff.mp (ih hrest)
      exact ⟨other, List.mem_cons_of_mem _ hother, hevent⟩

theorem Ready.of_append {actions more : List Action} (hready : Ready event (actions ++ more)) :
    Ready event actions ∨
      (∀ action ∈ actions, action.event ≠ event ∧ ¬ action.Triggers event) ∧ Ready event more := by
  induction actions with
  | nil => exact Or.inr ⟨by simp, hready⟩
  | cons action rest ih =>
    rcases hready with hevent | ⟨htriggers, hrest⟩
    · exact Or.inl (Or.inl hevent)
    · by_cases hevent : action.event = event
      · exact Or.inl (Or.inl hevent)
      · refine (ih hrest).imp (fun hready ↦ Or.inr ⟨htriggers, hready⟩) fun hmore ↦ ⟨?_, hmore.2⟩
        intro other hother
        rcases List.mem_cons.mp hother with rfl | hmem
        · exact ⟨hevent, htriggers⟩
        · exact hmore.1 other hmem

namespace Core

variable (options : Options)

/-- A wait becomes ready while its event is pending. -/
def MeetsStaleEvent (core : Core) (move : Move) : Prop :=
  (move = .execute ∧ ∃ action rest, core.actions = action :: rest ∧
    ∃ event ∈ core.events, action.Triggers event ∧ Ready event rest) ∨
  (∃ index ∈ core.designated options move, index ≠ core.curPlugin ∧
    options.delayedSwitch = true ∧ options.primaryInput = some index ∧
      ({ type := .waitInput, index } : Action) ∈ core.events ∧
        ∀ action ∈ core.actions, action.event ≠ { type := .waitInput, index } ∧
          ¬ action.Triggers { type := .waitInput, index }) ∨
  ∃ index, move = .inputStopped index ∧ (core.endSession options index).IsComplete options ∧
    ∃ event ∈ core.events, event.type = .waitStopped ∧ ¬ Ready event core.actions ∧
      ∃ action ∈ core.actions, action.event = event

/-- A wait is removed from the queue without being executed. -/
def CancelsWait (core : Core) (move : Move) : Prop :=
  (move = .execute ∧ core.IsBlocked ∧ ∃ index, core.caller = some (.reception index) ∧
    options.primaryInput = some index ∧ core.curPlugin ≠ index ∧
      ∃ action ∈ core.actions, action.IsWait) ∨
  ∃ index, move = .inputStopped index ∧ (core.endSession options index).IsComplete options ∧
    ∃ action ∈ core.actions, action.IsWait ∧ action.type ≠ .waitStopped

/-- A pending event whose wait is ready causes it. -/
structure Causal (core : Core) (log : List Entry) : Prop where
  accounted : ∀ event : Action, event.IsWait → log.countP (Entry.enqueues event) =
      log.countP (Entry.dequeues event) + waiting event core.actions
  ready : ∀ event ∈ core.events, event.IsWait → Ready event core.actions → Caused log event
  released : ReleasesCaused log

variable {options} {core : Core} {log : List Entry}

theorem causal_start : Causal (start options) [] where
  accounted _ _ := rfl
  ready _ hevent := absurd hevent (Finset.notMem_empty _)
  released before wait after hsplit := by simp at hsplit

variable {next : Core} {entries : List Entry} {action event : Action} {index : ℕ} {move : Move}

/-- A step that neither reports an event nor releases a wait. -/
theorem Causal.append (hcausal : Causal core log) (haccount : ∀ event : Action, event.IsWait →
      entries.countP (Entry.enqueues event) + waiting event core.actions =
        entries.countP (Entry.dequeues event) + waiting event next.actions)
    (hready : ∀ event ∈ next.events, event.IsWait → Ready event next.actions →
      event ∈ core.events ∧ Ready event core.actions ∧
        ∀ entry ∈ entries, entry.triggers event = false ∧ entry.dequeues event = false)
    (hreleased : ∀ wait, Entry.released wait ∉ entries) : Causal next (log ++ entries) where
  accounted event hwait := by
    have hbefore := hcausal.accounted event hwait
    have hstep := haccount event hwait
    rw [List.countP_append, List.countP_append]
    omega
  ready event hevent hwait hnext := by
    obtain ⟨hmem, hbefore, hentries⟩ := hready event hevent hwait hnext
    exact (hcausal.ready event hmem hwait hbefore).append (fun entry hentry ↦ (hentries entry hentry).1)
      fun entry hentry ↦ (hentries entry hentry).2
  released := hcausal.released.append hreleased

theorem Causal.report (hcausal : Causal core log) (event : Action) (caller : Caller) :
    Causal (core.report event caller).1 (log ++ (core.report event caller).2) := by
  have hsilent : ∀ other : Action,
      (log ++ [Entry.reported event.event]).countP (Entry.enqueues other) =
        log.countP (Entry.enqueues other) ∧
      (log ++ [Entry.reported event.event]).countP (Entry.dequeues other) =
        log.countP (Entry.dequeues other) := by
    intro other
    simp [Entry.enqueues, Entry.dequeues]
  refine ⟨fun other hwait ↦ ?_, fun other hmem hwait hready ↦ ?_, ?_⟩
  · show (log ++ [Entry.reported event.event]).countP _ = (log ++ [Entry.reported event.event]).countP _ + _
    rw [(hsilent other).1, (hsilent other).2]
    exact hcausal.accounted other hwait
  · rcases Finset.mem_insert.mp hmem with rfl | hpending
    · refine ⟨log, [], rfl, by simp, ?_⟩
      show (log ++ [Entry.reported event.event]).countP _ < _
      rw [(hsilent _).2, hcausal.accounted _ hwait]
      exact Nat.lt_add_of_pos_right hready.waiting_pos
    · refine (hcausal.ready other hpending hwait hready).append ?_ ?_ <;>
        (intro entry hentry; obtain rfl := List.mem_singleton.mp hentry; rfl)
  · refine hcausal.released.append fun wait hmem ↦ ?_
    cases List.mem_singleton.mp hmem

theorem not_triggers_of_isWait (hwait : action.IsWait) (event : Action) :
    ¬ action.Triggers event := by
  rintro ⟨-, htype⟩
  rcases hwait with hkind | hkind | hkind <;>
    (rw [hkind] at htype; split_ifs at htype)

theorem isWait_of_event_eq (hevent : action.event = event) (hwait : event.IsWait) : action.IsWait := by
  subst hevent
  exact hwait

theorem Causal.released_front (hcausal : Causal core log) {rest : List Action}
    (hactions : core.actions = action :: rest) (hwait : action.IsWait)
    (hevent : action.event ∈ core.events) :
    Causal { core with actions := rest, events := core.events.erase action.event }
      (log ++ [.released action]) := by
  refine ⟨fun event hkind ↦ ?_, fun event hmem hkind hready ↦ ?_, ?_⟩
  · have hbefore := hcausal.accounted event hkind
    rw [hactions] at hbefore
    show _ = _ + waiting event rest
    by_cases hsame : action.event = event <;>
      simp [waiting, Entry.enqueues, Entry.dequeues, hsame] at hbefore ⊢ <;> omega
  · obtain ⟨hne, hpending⟩ := Finset.mem_erase.mp hmem
    have hbefore : Ready event core.actions := by
      rw [hactions]
      exact Or.inr ⟨not_triggers_of_isWait hwait event, hready⟩
    refine (hcausal.ready event hpending hkind hbefore).append ?_ ?_ <;>
      (intro entry hentry; obtain rfl := List.mem_singleton.mp hentry)
    · rfl
    · simpa [Entry.dequeues] using hne.symm
  · refine hcausal.released.concat fun wait hreleased ↦ ?_
    obtain rfl := Entry.released.inj hreleased
    refine hcausal.ready _ hevent hwait ?_
    rw [hactions]
    exact Or.inl rfl

theorem events_perform (action : Action) : (core.perform action).events = core.events := by
  unfold perform
  split <;> rfl

theorem Causal.performed (hcausal : Causal core log) {rest : List Action}
    (hactions : core.actions = action :: rest) (hwait : ¬ action.IsWait)
    (hfresh : ∀ event ∈ core.events, action.Triggers event → ¬ Ready event rest) :
    Causal { core.perform action with actions := rest } (log ++ [.executed action]) := by
  refine hcausal.append (fun event hkind ↦ ?_) (fun event hmem hkind hready ↦ ?_) ?_
  · have hother : action.event ≠ event := fun hsame ↦ hwait (isWait_of_event_eq hsame hkind)
    rw [hactions]
    simp [waiting, Entry.enqueues, Entry.dequeues, hother]
  · have hpending : event ∈ core.events := (events_perform action) ▸ hmem
    have hnot : ¬ action.Triggers event := fun htriggers ↦ hfresh event hpending htriggers hready
    refine ⟨hpending, ?_, fun entry hentry ↦ ?_⟩
    · rw [hactions]
      exact Or.inr ⟨hnot, hready⟩
    · obtain rfl := List.mem_singleton.mp hentry
      exact ⟨by simpa [Entry.triggers] using hnot, rfl⟩
  · simp

theorem Causal.enqueue (hcausal : Causal core log) {actions : List Action}
    (hactions : next.actions = core.actions ++ actions) (hevents : next.events = core.events)
    (hfresh : ∀ event ∈ core.events, event.IsWait → Ready event actions →
      ∃ action ∈ core.actions, action.event = event ∨ action.Triggers event) :
    Causal next (log ++ actions.map .enqueued) := by
  refine hcausal.append (fun event hkind ↦ ?_) (fun event hmem hkind hready ↦ ?_) (by simp)
  · rw [hactions]
    simp only [waiting, List.countP_append, List.countP_map, Function.comp_def, Entry.enqueues,
      Entry.dequeues, List.countP_false, Function.const_apply]
    omega
  · rw [hevents] at hmem
    rw [hactions] at hready
    refine ⟨hmem, hready.of_append.resolve_right fun hmore ↦ ?_, fun entry hentry ↦ ?_⟩
    · obtain ⟨action, haction, heither⟩ := hfresh event hmem hkind hmore.2
      exact heither.elim (hmore.1 action haction).1 (hmore.1 action haction).2
    · obtain ⟨action, -, rfl⟩ := List.mem_map.mp hentry
      exact ⟨rfl, rfl⟩

theorem ready_switchActions {abortCurrent : Bool} (hwait : event.IsWait)
    (hready : Ready event (switchActions options core index abortCurrent)) :
    options.delayedSwitch = true ∧ options.primaryInput = some index ∧
      event = { type := .waitInput, index } := by
  obtain ⟨kind, other, flag⟩ := event
  unfold switchActions at hready
  rcases hwait with hkind | hkind | hkind <;> (change kind = _ at hkind; subst hkind) <;>
    by_cases hprimary : some index = options.primaryInput <;>
      by_cases hcurrent : some core.curPlugin = options.primaryInput <;>
        cases hdelayed : options.delayedSwitch <;> cases hfast : options.fastSwitch <;>
          simp [Ready, Action.event, Action.Triggers, hprimary, hcurrent, hdelayed, hfast] at hready
  all_goals
    first
    | exact absurd hready.2.1 hready.1
    | exact ⟨rfl, hprimary.symm, by rw [hready.1, hready.2]⟩

theorem not_ready_nextActions {next : ℕ} (hwait : event.IsWait) :
    ¬ Ready event (nextActions options next) := by
  obtain ⟨kind, other, flag⟩ := event
  unfold nextActions
  rcases hwait with hkind | hkind | hkind <;> (change kind = _ at hkind; subst hkind) <;>
    cases hfast : options.fastSwitch <;> simp [Ready, Action.event, Action.Triggers]
  all_goals
    intro hne hsame
    exact absurd hsame hne

theorem not_ready_primaryActions {primaryInput : ℕ} (hwait : event.IsWait) :
    ¬ Ready event (primaryActions options core primaryInput) := by
  obtain ⟨kind, other, flag⟩ := event
  unfold primaryActions
  rcases hwait with hkind | hkind | hkind <;> (change kind = _ at hkind; subst hkind) <;>
    cases hfast : options.fastSwitch <;> simp [Ready, Action.event, Action.Triggers]
  all_goals
    intro hne hsame
    exact absurd hsame hne

theorem Causal.setInputLocked (hcausal : Causal core log) {abortCurrent : Bool}
    (hfresh : index ≠ core.curPlugin → options.delayedSwitch = true →
      options.primaryInput = some index → ({ type := .waitInput, index } : Action) ∈ core.events →
          ∃ action ∈ core.actions, action.event = { type := .waitInput, index } ∨
            action.Triggers { type := .waitInput, index }) :
    Causal (setInputLocked options core index abortCurrent).1
      (log ++ (setInputLocked options core index abortCurrent).2) := by
  unfold Core.setInputLocked
  split_ifs with hinvalid hsame
  · rwa [List.append_nil]
  · rwa [List.append_nil]
  · refine hcausal.enqueue rfl rfl fun event hpending hwait hready ↦ ?_
    obtain ⟨hdelayed, hprimary, rfl⟩ := ready_switchActions hwait hready
    exact hfresh hsame hdelayed hprimary hpending

theorem Causal.cancelActions (hcausal : Causal core log)
    (hfresh : ∀ event ∈ core.events, event.type = .waitStopped →
      (∃ action ∈ core.actions, action.event = event) → Ready event core.actions) :
    Causal core.cancelActions.1 (log ++ core.cancelActions.2) := by
  have hsuspend : ∀ event : Action, event.IsWait →
      ({ type := .suspendTimeout } : Action).event ≠ event := by
    rintro event (hkind | hkind | hkind) rfl <;> cases hkind
  refine hcausal.append (fun event hkind ↦ ?_) (fun event hmem hkind hready ↦ ?_) ?_
  · have hsplit := List.countP_eq_countP_filter_add core.actions
      (fun action ↦ decide (action.event = event)) fun action ↦ decide (action.type = .waitStopped)
    simp only [Core.cancelActions, waiting, List.countP_append, List.countP_map, Function.comp_def,
      Entry.enqueues, Entry.dequeues, List.countP_false, Function.const_apply, List.countP_cons,
      List.countP_nil, hsuspend event hkind, decide_false, ne_eq, decide_not] at hsplit ⊢
    simp only [Bool.false_eq_true, if_false]
    omega
  · have hkept : Ready event (core.actions.filter fun action ↦ action.type = .waitStopped) :=
      hready.elim (fun hsame ↦ absurd hsame (hsuspend event hkind)) And.right
    obtain ⟨action, haction, hsame⟩ := List.countP_pos_iff.mp hkept.waiting_pos
    obtain ⟨hqueue, htype⟩ := List.mem_filter.mp haction
    have hevent : action.event = event := by simpa using hsame
    have hstopped : event.type = .waitStopped := by
      rw [← hevent]
      exact of_decide_eq_true htype
    refine ⟨hmem, hfresh event hmem hstopped ⟨action, hqueue, hevent⟩, fun entry hentry ↦ ?_⟩
    rcases List.mem_append.mp hentry with hcancelled | henqueued
    · obtain ⟨other, hother, rfl⟩ := List.mem_map.mp hcancelled
      refine ⟨rfl, ?_⟩
      have hnot : other.type ≠ .waitStopped := by simpa using (List.mem_filter.mp hother).2
      have hne : other.event ≠ event := by
        rintro rfl
        exact hnot hstopped
      simpa [Entry.dequeues] using hne
    · obtain rfl := List.mem_singleton.mp henqueued
      exact ⟨rfl, rfl⟩
  · simp [Core.cancelActions]

theorem Causal.inputStopped (hcausal : Causal core log)
    (hfresh : (core.endSession options index).IsComplete options → ∀ event ∈ core.events,
      event.type = .waitStopped → (∃ action ∈ core.actions, action.event = event) →
        Ready event core.actions) :
    Causal (core.inputStopped options index).1
      (log ++ (core.inputStopped options index).2) := by
  have hended : Causal (core.endSession options index) log := { hcausal with }
  have hfollow : Causal ((core.endSession options index).followSession options index).1
      (log ++ ((core.endSession options index).followSession options index).2) := by
    unfold Core.followSession
    split_ifs with hcomplete hnatural
    · exact hended.cancelActions (hfresh hcomplete)
    · exact hended.enqueue rfl rfl fun event _ hwait hready ↦
        absurd hready (not_ready_nextActions hwait)
    · rwa [List.append_nil]
  have hreport := hfollow.report { type := .waitStopped, index } (.session index)
  rwa [List.append_assoc] at hreport

theorem Causal.leave (hcausal : Causal core log) (caller : Caller) :
    Causal (core.leave options caller).1 (log ++ (core.leave options caller).2) := by
  have hsame : Causal { core with caller := none } (log ++ []) := by
    rw [List.append_nil]
    exact { hcausal with }
  unfold Core.leave
  split
  case h_2 => exact hsame
  case h_1 index =>
    split_ifs
    · refine hcausal.append (fun event hkind ↦ ?_) (fun event _ hkind hready ↦ ?_) (by simp)
      · simp only [waiting, List.countP_append, List.countP_map, Function.comp_def, Entry.enqueues,
          Entry.dequeues, List.countP_false, Function.const_apply]
        omega
      · exact absurd hready (not_ready_primaryActions hkind)
    · exact hsame

theorem Causal.step (hcausal : Causal core log) (hcondition : ¬ core.MeetsStaleEvent options move)
    (hnext : core.step options move = some (next, entries)) : Causal next (log ++ entries) := by
  obtain ⟨hexecuted, hswitched, hcancelled⟩ : _ ∧ _ ∧ _ := by
    simpa only [MeetsStaleEvent, not_or] using hcondition
  have hlocked : ∀ {result : Core × List Entry}, Causal result.1 (log ++ result.2) →
      core.locked result = some (next, entries) → Causal next (log ++ entries) := by
    intro result hresult hsome
    unfold locked at hsome
    split_ifs at hsome
    obtain rfl := Option.some.inj hsome
    exact hresult
  have hswitch : ∀ {index : ℕ} {abortCurrent : Bool}, index ∈ core.designated options move →
      core.locked (Core.setInputLocked options core index abortCurrent) = some (next, entries) →
        Causal next (log ++ entries) := by
    intro index abortCurrent hindex hsome
    refine hlocked (hcausal.setInputLocked fun hne hdelayed hprimary hpending ↦ ?_) hsome
    by_contra hnothing
    refine hswitched ⟨index, hindex, hne, hdelayed, hprimary, hpending, fun action haction ↦ ?_⟩
    exact ⟨fun hevent ↦ hnothing ⟨action, haction, Or.inl hevent⟩,
      fun htriggers ↦ hnothing ⟨action, haction, Or.inr htriggers⟩⟩
  have hquiet : ∀ {other : Core}, some (other, []) = some (next, entries) →
      other.actions = core.actions → other.events = core.events → Causal next (log ++ entries) := by
    intro other hsome hactions hevents
    obtain ⟨rfl, rfl⟩ := Prod.mk.inj (Option.some.inj hsome)
    rw [List.append_nil]
    refine ⟨?_, ?_, hcausal.released⟩
    · rw [hactions]
      exact hcausal.accounted
    · rw [hactions, hevents]
      exact hcausal.ready
  cases move with
  | setInput index => exact hswitch rfl hnext
  | nextInput => exact hswitch rfl hnext
  | previousInput => exact hswitch rfl hnext
  | handleWatchDogTimeout => exact hswitch rfl hnext
  | inputStarted index success =>
    simp only [Core.step] at hnext
    split_ifs at hnext
    refine hlocked ?_ hnext
    have hsame : Causal (core.setInputState index
        { core.inputs index with session := if success then .running else .failed }) log :=
      { hcausal with }
    exact hsame.report _ _
  | inputReceived index =>
    simp only [Core.step] at hnext
    split_ifs at hnext
    exact hlocked (hcausal.report _ _) hnext
  | inputStopped index =>
    simp only [Core.step] at hnext
    split_ifs at hnext
    refine hlocked (hcausal.inputStopped fun hcomplete event hpending htype hwaits ↦ ?_) hnext
    by_contra hready
    exact hcancelled ⟨index, rfl, hcomplete, event, hpending, htype, hready, hwaits⟩
  | execute =>
    obtain ⟨caller, hcaller, hresult⟩ := Option.map_eq_some_iff.mp hnext
    have hleave : Causal (core.leave options caller).1 (log ++ (core.leave options caller).2) :=
      hcausal.leave caller
    unfold Core.execute at hresult
    split at hresult
    case h_1 =>
      rwa [hresult] at hleave
    case h_2 action rest hactions =>
      split_ifs at hresult with hwait hevent
      · obtain ⟨rfl, rfl⟩ := Prod.mk.inj hresult
        exact hcausal.released_front hactions hwait hevent
      · rwa [hresult] at hleave
      · obtain ⟨rfl, rfl⟩ := Prod.mk.inj hresult
        refine hcausal.performed hactions hwait fun event hpending htriggers hready ↦ ?_
        exact hexecuted ⟨rfl, action, rest, hactions, event, hpending, htriggers, hready⟩
  | beginSession index =>
    simp only [Core.step] at hnext
    split_ifs at hnext
    obtain ⟨input, -, hresult⟩ := Option.map_eq_some_iff.mp hnext
    exact hquiet (congrArg some hresult) rfl rfl
  | terminateInput index => exact hquiet hnext rfl rfl
  | stop =>
    simp only [Core.step] at hnext
    split_ifs at hnext
    exact hquiet hnext rfl rfl

theorem not_cancelled_of_not_cancelsWait (hcondition : ¬ core.CancelsWait options move)
    (hnext : core.step options move = some (next, entries)) {wait : Action}
    (hcancelled : .cancelled wait ∈ entries) : ¬ wait.IsWait := by
  intro hwait
  obtain ⟨hprimary, hcomplete⟩ := not_or.mp hcondition
  have hlocked : ∀ {result : Core × List Entry}, core.locked result = some (next, entries) →
      .cancelled wait ∈ result.2 := by
    intro result hsome
    unfold locked at hsome
    split_ifs at hsome
    obtain rfl := Option.some.inj hsome
    exact hcancelled
  have hswitch : ∀ {index : ℕ} {abortCurrent : Bool},
      core.locked (Core.setInputLocked options core index abortCurrent) ≠ some (next, entries) := by
    intro index abortCurrent hsome
    have hmem := hlocked hsome
    unfold Core.setInputLocked at hmem
    split_ifs at hmem <;> simp at hmem
  have hleave : ∀ caller, core.caller = some caller → core.IsBlocked → move = .execute →
      core.leave options caller ≠ (next, entries) := by
    intro caller hcaller hblocked hmove hresult
    have hmem : .cancelled wait ∈ (core.leave options caller).2 := by rwa [hresult]
    unfold Core.leave at hmem
    split at hmem
    case h_2 => simp at hmem
    case h_1 index =>
      split_ifs at hmem with hswitch
      · refine hprimary ⟨hmove, hblocked, index, hcaller, hswitch.1, hswitch.2, wait, ?_, hwait⟩
        simpa using hmem
      · simp at hmem
  cases move with
  | setInput index => exact hswitch hnext
  | nextInput => exact hswitch hnext
  | previousInput => exact hswitch hnext
  | handleWatchDogTimeout => exact hswitch hnext
  | inputStarted index success =>
    simp only [Core.step] at hnext
    split_ifs at hnext
    simpa [Core.inputStarted, Core.report] using hlocked hnext
  | inputReceived index =>
    simp only [Core.step] at hnext
    split_ifs at hnext
    simpa [Core.inputReceived, Core.report] using hlocked hnext
  | inputStopped index =>
    simp only [Core.step] at hnext
    split_ifs at hnext
    have hmem : .cancelled wait ∈
        ((core.endSession options index).followSession options index).2 := by
      simpa [Core.inputStopped, Core.report] using hlocked hnext
    unfold Core.followSession at hmem
    split_ifs at hmem with hlast hnatural
    · have hqueue : wait ∈ (core.endSession options index).actions ∧ wait.type ≠ .waitStopped := by
        simpa [Core.cancelActions] using hmem
      exact hcomplete ⟨index, rfl, hlast, wait, hqueue.1, hwait, hqueue.2⟩
    · simp at hmem
    · simp at hmem
  | execute =>
    obtain ⟨caller, hcaller, hresult⟩ := Option.map_eq_some_iff.mp hnext
    unfold Core.execute at hresult
    split at hresult
    case h_1 hempty =>
      exact hleave caller hcaller (by simp [IsBlocked, hempty]) rfl hresult
    case h_2 action rest hactions =>
      split_ifs at hresult with hkind hevent
      · obtain ⟨-, rfl⟩ := Prod.mk.inj hresult
        simp at hcancelled
      · exact hleave caller hcaller (by simp [IsBlocked, hactions, hkind, hevent]) rfl hresult
      · obtain ⟨-, rfl⟩ := Prod.mk.inj hresult
        simp at hcancelled
  | beginSession index =>
    simp only [Core.step] at hnext
    split_ifs at hnext
    obtain ⟨input, -, hresult⟩ := Option.map_eq_some_iff.mp hnext
    obtain ⟨-, rfl⟩ := Prod.mk.inj hresult
    simp at hcancelled
  | terminateInput index =>
    obtain ⟨-, rfl⟩ := Prod.mk.inj (Option.some.inj hnext)
    simp at hcancelled
  | stop =>
    simp only [Core.step] at hnext
    split_ifs at hnext
    obtain ⟨-, rfl⟩ := Prod.mk.inj (Option.some.inj hnext)
    simp at hcancelled

/-- Assumes: no wait becomes ready while its event is pending. Every wait that is released is caused
by an event reported after its action; without cancellation, no wait leaves the queue otherwise. -/
theorem releases_caused_of_never_meetsStaleEvent (options : Options) (moves : List Move)
    {last : Core} {log : List Entry}
    (hmeets : (machine options).Meets (fun core move ↦ ¬ core.MeetsStaleEvent options move)
      (start options) moves)
    (hrun : (machine options).run (start options) moves = some (last, log)) :
    ReleasesCaused log ∧
      ((machine options).Meets (fun core move ↦ ¬ core.CancelsWait options move) (start options)
        moves → ∀ wait, .cancelled wait ∈ log → ¬ wait.IsWait) := by
  refine ⟨?_, fun hkeeps wait hcancelled ↦ ?_⟩
  · have hstep : ∀ core move next reported entries, Causal core reported →
        ¬ MeetsStaleEvent options core move →
          (machine options).step core move = some (next, entries) →
            Causal next (reported ++ entries) :=
      fun _ _ _ _ _ hcausal hcondition hnext ↦ Causal.step hcausal hcondition hnext
    have hcausal := (machine options).run_history_of_meets hstep causal_start hmeets hrun
    exact hcausal.released
  · have hstep : ∀ core move next entries, True → ¬ CancelsWait options core move →
        (machine options).step core move = some (next, entries) →
          True ∧ ∀ entry ∈ entries, ∀ action, entry = .cancelled action → ¬ action.IsWait := by
      intro core move next entries _ hcondition hnext
      refine ⟨trivial, fun entry hentry action haction ↦ ?_⟩
      exact not_cancelled_of_not_cancelsWait hcondition hnext (haction ▸ hentry)
    exact ((machine options).run_invariant_of_meets hstep trivial hkeeps hrun).2 _ hcancelled wait rfl

def oneInput : Options where
  inputs := 1
  fastSwitch := false
  delayedSwitch := false
  terminate := false
  firstInput := 0
  primaryInput := none
  cycleCount := 0
  bufferedPackets := 512
  maxInputPackets := 128
  firstInput_lt := by decide
  primaryInput_lt := by simp
  exclusive := normalSwitch
  bufferedPackets_pos := standardBuffer_pos
  maxInputPackets_le := standardInput_le

/-- The first session stops, and the second one is started. -/
def repeatedInput : List Move :=
  [.beginSession 0, .inputStarted 0 true, .execute, .inputStopped 0, .execute, .execute, .execute,
    .execute]

/-- The log before the second wait is released. -/
def repeatedLog : List Entry :=
  [.reported { type := .waitStarted, index := 0 },
    .enqueued { type := .suspendTimeout }, .enqueued { type := .setCurrent, index := 0 },
    .enqueued { type := .start, index := 0, flag := true },
    .enqueued { type := .waitStarted, index := 0 }, .enqueued { type := .restartTimeout },
    .reported { type := .waitStopped, index := 0 },
    .executed { type := .suspendTimeout }, .executed { type := .setCurrent, index := 0 },
    .executed { type := .start, index := 0, flag := true }]

/-- The event of the first session releases the second wait. -/
theorem repeatedInput_not_caused :
    ∃ last, (machine oneInput).run (start oneInput) repeatedInput =
        some (last, repeatedLog ++ [.released { type := .waitStarted, index := 0 }]) ∧
      ¬ ReleasesCaused (repeatedLog ++ [.released { type := .waitStarted, index := 0 }]) := by
  refine ⟨_, rfl, fun hreleases ↦ ?_⟩
  obtain ⟨before, after, hlog, -, hcount⟩ := hreleases _ _ _ rfl
  cases before with
  | nil => simp at hcount
  | cons first others =>
    have hlater : .reported { type := .waitStarted, index := 0 } ∈ repeatedLog.tail := by
      have htail : repeatedLog.tail = others ++ _ := congrArg List.tail hlog
      rw [htail]
      exact List.mem_append_right _ List.mem_cons_self
    exact absurd hlater (by decide)

/-- A queue which starts or stops no input. -/
theorem not_meetsStaleEvent (hmode : options.delayedSwitch = false)
    (hfront : ∀ action ∈ core.actions.head?, action.type ≠ .start ∧
      (action.type = .stop → ∀ event ∈ core.events, event.type ≠ .waitStopped))
    (hlast : ∀ index, move = .inputStopped index →
      ¬ (core.endSession options index).IsComplete options) :
    ¬ core.MeetsStaleEvent options move := by
  rintro (⟨-, action, rest, hactions, event, hevent, ⟨-, htype⟩, -⟩ | ⟨_, _, _, hdelayed, _⟩ |
    ⟨index, hmove, hcomplete, _⟩)
  · obtain ⟨hstart, hstop⟩ := hfront action (by rw [hactions]; rfl)
    split_ifs at htype with hkind
    · exact hstop htype event hevent hkind
    · exact hstart htype
  · rw [hmode] at hdelayed
    cases hdelayed
  · exact hlast index hmove hcomplete

/-- A command stops the first input. -/
def stoppedInput : List Move :=
  [.beginSession 0, .inputStarted 0 true, .execute, .setInput 1, .execute, .execute, .execute,
    .execute, .inputStopped 0, .execute]

/-- The event of the stop releases its wait. -/
theorem releases_caused_stoppedInput :
    ∃ last log, (machine (twoInputs none)).run (start (twoInputs none)) stoppedInput =
      some (last, log) ∧ .released { type := .waitStopped, index := 0 } ∈ log ∧
        ReleasesCaused log := by
  refine ⟨_, _, rfl, by decide, ?_⟩
  refine (releases_caused_of_never_meetsStaleEvent (twoInputs none) stoppedInput ?_ rfl).1
  repeat
    refine (machine _).meets_cons_of_step rfl (not_meetsStaleEvent rfl (by decide) ?_) ?_
    · rintro index hmove
      first
      | (cases hmove; done)
      | (cases hmove; decide)
  trivial

end Core

end TSDuck.TSSwitch
