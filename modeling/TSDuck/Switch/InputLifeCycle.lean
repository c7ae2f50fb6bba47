import TSDuck.Switch.Core

/-!
# The life cycle of the inputs of `tsswitch`

Outside of the fast switch mode, an input is only started to become the current one, and the input
it replaces is stopped; the primary input is never stopped. `Core.InOrder` says what should hold at
any time: no action starts an input which is already started, and when the queue is empty, the
inputs that are started are the current one and the primary one.

`Core.MissesOrder` collects the five situations where a step leaves it.
`Core.inOrder_of_never_missesOrder` proves that there is no other situation: in all the runs that
avoid them, all the states are in order.
-/

namespace TSDuck.TSSwitch

/-- Every input is stopped when an action starts it, the execution of a stop waits for it, and the
inputs which are started at the end are the current one and the primary one. -/
def Plan (primaryInput : Option ℕ) : List Action → ℕ → (ℕ → Prop) → Prop
  | [], curPlugin, active => ∀ index, active index → index = curPlugin ∨ primaryInput = some index
  | action :: rest, curPlugin, active =>
    match action.type with
    | .start =>
      ¬ active action.index ∧
        Plan primaryInput rest curPlugin fun index ↦ active index ∨ index = action.index
    | .stop =>
      (∃ others, rest = { type := .waitStopped, index := action.index } :: others) ∧
        Plan primaryInput rest curPlugin fun index ↦ active index ∧ index ≠ action.index
    | .setCurrent => Plan primaryInput rest action.index active
    | _ => Plan primaryInput rest curPlugin active

theorem Plan.anti {primaryInput : Option ℕ} {actions : List Action} {curPlugin : ℕ}
    {active fewer : ℕ → Prop} (hplan : Plan primaryInput actions curPlugin active)
    (hfewer : ∀ index, fewer index → active index) :
    Plan primaryInput actions curPlugin fewer := by
  induction actions generalizing curPlugin active fewer with
  | nil => exact fun index hindex ↦ hplan index (hfewer index hindex)
  | cons action rest ih =>
    unfold Plan at hplan ⊢
    split at hplan
    · exact ⟨fun hactive ↦ hplan.1 (hfewer _ hactive),
        ih hplan.2 fun index hindex ↦ hindex.imp_left (hfewer index)⟩
    · exact ⟨hplan.1, ih hplan.2 fun index hindex ↦ ⟨hfewer index hindex.1, hindex.2⟩⟩
    · exact ih hplan hfewer
    · exact ih hplan hfewer

theorem Plan.append {primaryInput : Option ℕ} {actions more : List Action} {curPlugin : ℕ}
    {active : ℕ → Prop} (hplan : Plan primaryInput actions curPlugin active)
    (hkeep : ∀ action ∈ actions, action.type ≠ .setCurrent)
    (hmore : Plan primaryInput more curPlugin fun index ↦
      index = curPlugin ∨ primaryInput = some index) :
    Plan primaryInput (actions ++ more) curPlugin active := by
  induction actions generalizing active with
  | nil => exact hmore.anti hplan
  | cons action rest ih =>
    have hrest : ∀ other ∈ rest, other.type ≠ .setCurrent :=
      (List.forall_mem_cons.mp hkeep).2
    rw [List.cons_append]
    unfold Plan at hplan ⊢
    split at hplan
    · exact ⟨hplan.1, ih hplan.2 hrest⟩
    · obtain ⟨⟨others, rfl⟩, hlater⟩ := hplan
      exact ⟨⟨others ++ more, rfl⟩, ih hlater hrest⟩
    case h_3 htype => exact absurd htype (hkeep action List.mem_cons_self)
    · exact ih hplan hrest

namespace Core

variable (options : Options)

def afterSuspensions (core : Core) : List Action :=
  core.actions.dropWhile fun action ↦ action.type = .suspendTimeout

/-- The queue waits for the stop of an input. -/
def BeingStopped (core : Core) (index : ℕ) : Prop :=
  (∃ rest, core.afterSuspensions = { type := .waitStopped, index } :: rest) ∧
    ({ type := .waitStopped, index } : Action) ∉ core.events ∧
      (core.inputs index).startRequest = false

/-- The inputs that are started, but not being stopped. -/
def Started (core : Core) (index : ℕ) : Prop :=
  (core.inputs index).IsActive ∧ ¬ core.BeingStopped index

def designated (core : Core) : Move → Option ℕ
  | .setInput index => some index
  | .nextInput => some (core.next options)
  | .previousInput => some (core.previous options)
  | .handleWatchDogTimeout => some (core.next options)
  | _ => none

/-- The queue is empty or waits for an event. -/
def IsBlocked (core : Core) : Prop :=
  ∀ action ∈ core.actions.head?, action.IsWait ∧ action.event ∉ core.events

/-- A command switches from an input which will be replaced. -/
def OverlapsSwitch (core : Core) (move : Move) : Prop :=
  ∃ index ∈ core.designated options move, index < options.inputs ∧ index ≠ core.curPlugin ∧
    ∃ action ∈ core.actions, action.type = .setCurrent

/-- The queue is cleared while an input is to be stopped. -/
def StrandsAtPrimary (core : Core) (move : Move) : Prop :=
  move = .execute ∧ core.IsBlocked ∧ ∃ primaryInput,
    core.caller = some (.reception primaryInput) ∧ options.primaryInput = some primaryInput ∧
      core.curPlugin ≠ primaryInput ∧ ∃ index, (core.inputs index).IsActive ∧
        index ≠ core.curPlugin ∧ index ≠ primaryInput

/-- An input is stopped while an old event is pending. -/
def StopsAfterStaleEvent (core : Core) (move : Move) : Prop :=
  move = .execute ∧ core.caller ≠ none ∧ ∃ action rest, core.actions = action :: rest ∧
    action.type = .stop ∧ ({ type := .waitStopped, index := action.index } : Action) ∈ core.events ∧
      (core.inputs action.index).stopInput.IsActive

/-- The next input, which is started, already is. -/
def StartsStarted (core : Core) (move : Move) : Prop :=
  move = .inputStopped core.curPlugin ∧
    ¬ (core.endSession options core.curPlugin).IsComplete options ∧
    core.actions = [] ∧ core.next options ≠ core.curPlugin ∧
      (core.inputs (core.next options)).IsActive

/-- The last session clears a stop in the queue. -/
def StrandsAtTermination (core : Core) (move : Move) : Prop :=
  ∃ pluginIndex, move = .inputStopped pluginIndex ∧
    (core.endSession options pluginIndex).IsComplete options ∧
    ∃ index, index ≠ pluginIndex ∧ core.Started index ∧ index ≠ core.curPlugin ∧
      options.primaryInput ≠ some index

/-- The steps that leave the order of the inputs. -/
def MissesOrder (core : Core) (move : Move) : Prop :=
  core.OverlapsSwitch options move ∨ core.StrandsAtPrimary options move ∨
    core.StopsAfterStaleEvent move ∨ core.StartsStarted options move ∨
      core.StrandsAtTermination options move

/-- A start finds its input stopped, and nothing is left over. -/
structure InOrder (core : Core) : Prop where
  start_stopped : ∀ action rest, core.caller ≠ none → core.actions = action :: rest →
    action.type = .start → ¬ (core.inputs action.index).IsActive
  started_only : core.actions = [] → ∀ index, (core.inputs index).IsActive →
    index = core.curPlugin ∨ options.primaryInput = some index

/-- The queue is a plan, and no request is in a session. -/
structure Orderly (core : Core) : Prop where
  requested : ∀ index, (core.inputs index).startRequest = true →
    (core.inputs index).session = .idle ∨ (core.inputs index).session = .exited
  plan : Plan options.primaryInput core.actions core.curPlugin core.Started

variable {options} {core : Core}

variable {index : ℕ} {action : Action} {rest : List Action} {next : Core}

theorem BeingStopped.head (hstopped : core.BeingStopped index)
    (hactions : core.actions = action :: rest) :
    action.type = .suspendTimeout ∨ action = { type := .waitStopped, index } := by
  obtain ⟨⟨others, hothers⟩, -⟩ := hstopped
  rw [afterSuspensions, hactions, List.dropWhile_cons] at hothers
  split_ifs at hothers with hsuspend
  · exact Or.inl (by simpa using hsuspend)
  · exact Or.inr (List.cons.inj hothers).1

theorem Orderly.start_stopped (horderly : Orderly options core)
    (hactions : core.actions = action :: rest) (hstart : action.type = .start) :
    ¬ (core.inputs action.index).IsActive := by
  intro hactive
  have hplan := horderly.plan
  rw [hactions] at hplan
  unfold Plan at hplan
  rw [hstart] at hplan
  refine hplan.1 ⟨hactive, fun hstopped ↦ ?_⟩
  rcases hstopped.head hactions with hsuspend | hwait
  · rw [hstart] at hsuspend
    cases hsuspend
  · rw [hwait] at hstart
    cases hstart

theorem not_beingStopped_of_nil (hempty : core.actions = []) (index : ℕ) :
    ¬ core.BeingStopped index := by
  rintro ⟨⟨others, hothers⟩, -⟩
  rw [afterSuspensions, hempty] at hothers
  cases hothers

theorem Orderly.inOrder (horderly : Orderly options core) : InOrder options core := by
  refine ⟨fun action rest _ hactions hstart ↦ horderly.start_stopped hactions hstart,
    fun hempty index hactive ↦ ?_⟩
  have hplan := horderly.plan
  rw [hempty] at hplan
  exact hplan index ⟨hactive, not_beingStopped_of_nil hempty index⟩

theorem orderly_start (hfast : options.fastSwitch = false) :
    Orderly options (start options) := by
  refine ⟨fun index _ ↦ Or.inl ?_, fun index hstarted ↦ ?_⟩
  · simp only [start, hfast]
    split_ifs <;> rfl
  · by_contra hother
    obtain ⟨hfirst, hprimary⟩ := not_or.mp hother
    change index ≠ options.firstInput at hfirst
    have hactive := hstarted.1
    simp [start, hfast, hfirst, hprimary, Input.IsActive, Input.new] at hactive

theorem Orderly.mono (horderly : Orderly options core) (hactions : next.actions = core.actions)
    (hcurrent : next.curPlugin = core.curPlugin)
    (hrequested : ∀ index, (next.inputs index).startRequest = true →
      (next.inputs index).session = .idle ∨ (next.inputs index).session = .exited)
    (hstarted : ∀ index, next.Started index → core.Started index) : Orderly options next := by
  refine ⟨hrequested, ?_⟩
  rw [hactions, hcurrent]
  exact horderly.plan.anti hstarted

theorem BeingStopped.mono (hstopped : core.BeingStopped index)
    (hfront : ∀ rest, core.afterSuspensions = { type := .waitStopped, index } :: rest →
      ∃ others, next.afterSuspensions = { type := .waitStopped, index } :: others)
    (hevents : ({ type := .waitStopped, index } : Action) ∈ next.events →
      ({ type := .waitStopped, index } : Action) ∈ core.events)
    (hrequest : (core.inputs index).startRequest = false →
      (next.inputs index).startRequest = false) : next.BeingStopped index := by
  obtain ⟨⟨rest, hrest⟩, hevent, hnone⟩ := hstopped
  exact ⟨hfront rest hrest, fun hmem ↦ hevent (hevents hmem), hrequest hnone⟩

theorem Orderly.returned (horderly : Orderly options core) (caller : Option Caller) :
    Orderly options { core with caller } :=
  { horderly with }

theorem Orderly.released (horderly : Orderly options core) (hactions : core.actions = action :: rest)
    (hwait : action.IsWait) (hevent : action.event ∈ core.events) :
    Orderly options
      { core with actions := rest, events := core.events.erase action.event } := by
  refine ⟨horderly.requested, ?_⟩
  have hplan := horderly.plan
  rw [hactions] at hplan
  have hrest : Plan options.primaryInput rest core.curPlugin core.Started := by
    unfold Plan at hplan
    rcases hwait with htype | htype | htype <;> (rw [htype] at hplan; exact hplan)
  refine hrest.anti fun index hindex ↦ ⟨hindex.1, fun hstopped ↦ ?_⟩
  rcases hstopped.head hactions with hsuspend | hfront
  · rcases hwait with htype | htype | htype <;> (rw [htype] at hsuspend; cases hsuspend)
  · refine hstopped.2.1 ?_
    rwa [hfront] at hevent

/-- An active input which is not stopped was started. -/
theorem started_of_tail (hstarted : ¬ next.BeingStopped index) (hactive : (core.inputs index).IsActive)
    (hactions : core.actions = action :: rest) (hwait : ¬ action.IsWait) (hnext : next.actions = rest)
    (hevents : next.events = core.events) (hrequest : (core.inputs index).startRequest = false →
      (next.inputs index).startRequest = false) : core.Started index := by
  refine ⟨hactive, fun hstopped ↦ hstarted (hstopped.mono ?_ (by rw [hevents]; exact id) hrequest)⟩
  intro others hothers
  refine ⟨others, ?_⟩
  rcases hstopped.head hactions with hsuspend | hfront
  · rw [afterSuspensions, hactions, List.dropWhile_cons, if_pos (by simpa using hsuspend)] at hothers
    rw [afterSuspensions, hnext]
    exact hothers
  · refine absurd ?_ hwait
    rw [hfront]
    exact Or.inr (Or.inr rfl)

theorem Orderly.skipped (horderly : Orderly options core) (hactions : core.actions = action :: rest)
    (hwait : ¬ action.IsWait) (hplan : Plan options.primaryInput rest core.curPlugin core.Started) :
    Orderly options { core with actions := rest } :=
  ⟨horderly.requested, hplan.anti fun _ hindex ↦
    started_of_tail hindex.2 hindex.1 hactions hwait rfl rfl id⟩

theorem Orderly.performed (horderly : Orderly options core) (hactions : core.actions = action :: rest)
    (hwait : ¬ action.IsWait) (hfresh : action.type = .stop →
      ({ type := .waitStopped, index := action.index } : Action) ∈ core.events →
        ¬ (core.inputs action.index).stopInput.IsActive) :
    Orderly options { core.perform action with actions := rest } := by
  have hplan := horderly.plan
  rw [hactions] at hplan
  unfold Plan at hplan
  unfold perform
  cases htype : action.type with
  | start =>
    simp only [htype] at hplan
    have hstopped := horderly.start_stopped hactions htype
    refine ⟨fun index hrequest ↦ ?_, hplan.2.anti fun index hindex ↦ ?_⟩
    · rcases eq_or_ne index action.index with rfl | hne
      · simp only [setInputState, Function.update_self, Input.startInput]
        simp only [Input.IsActive, not_or] at hstopped
        cases hsession : (core.inputs action.index).session <;> simp_all
      · simp only [setInputState, Function.update_of_ne hne] at hrequest ⊢
        exact horderly.requested index hrequest
    · rcases eq_or_ne index action.index with rfl | hne
      · exact Or.inr rfl
      · have hsame : ∀ input, (core.setInputState action.index input).inputs index =
            core.inputs index := fun input ↦ Function.update_of_ne hne _ _
        refine Or.inl (started_of_tail hindex.2 ?_ hactions hwait rfl rfl ?_)
        · simpa only [hsame] using hindex.1
        · simp [hsame]
  | stop =>
    simp only [htype] at hplan
    obtain ⟨⟨others, rfl⟩, hlater⟩ := hplan
    refine ⟨fun index hrequest ↦ ?_, hlater.anti fun index hindex ↦ ?_⟩
    · rcases eq_or_ne index action.index with rfl | hne
      · simp [setInputState, Input.stopInput] at hrequest
      · simp only [setInputState, Function.update_of_ne hne] at hrequest ⊢
        exact horderly.requested index hrequest
    · rcases eq_or_ne index action.index with rfl | hne
      · have hactive : (core.inputs action.index).stopInput.IsActive := by
          simpa only [setInputState, Function.update_self] using hindex.1
        refine absurd ⟨⟨others, rfl⟩, fun hevent ↦ hfresh htype hevent hactive, ?_⟩ hindex.2
        simp [setInputState, Input.stopInput]
      · have hsame : ∀ input, (core.setInputState action.index input).inputs index =
            core.inputs index := fun input ↦ Function.update_of_ne hne _ _
        refine ⟨started_of_tail hindex.2 ?_ hactions hwait rfl rfl ?_, hne⟩
        · simpa only [hsame] using hindex.1
        · simp [hsame]
  | setCurrent =>
    simp only [htype] at hplan
    exact ⟨horderly.requested, hplan.anti fun index hindex ↦
      started_of_tail hindex.2 hindex.1 hactions hwait rfl rfl id⟩
  | notifCurrent =>
    simp only [htype] at hplan
    have hsame : ∀ index, ((core.setInputState action.index
        ((core.inputs action.index).setCurrent action.flag)).inputs index).startRequest =
          (core.inputs index).startRequest ∧
        ((core.setInputState action.index
          ((core.inputs action.index).setCurrent action.flag)).inputs index).session =
            (core.inputs index).session := by
      intro index
      rcases eq_or_ne index action.index with rfl | hne
      · simp [setInputState, Input.setCurrent]
      · simp [setInputState, hne]
    refine ⟨fun index hrequest ↦ ?_, hplan.anti fun index hindex ↦ ?_⟩
    · rw [(hsame index).1] at hrequest
      rw [(hsame index).2]
      exact horderly.requested index hrequest
    · refine started_of_tail hindex.2 ?_ hactions hwait rfl rfl fun hnone ↦ ?_
      · simpa only [Input.IsActive, (hsame index).1, (hsame index).2] using hindex.1
      · rw [← hnone]
        exact (hsame index).1
  | waitStarted => exact absurd (Or.inl htype) hwait
  | waitInput => exact absurd (Or.inr (Or.inl htype)) hwait
  | waitStopped => exact absurd (Or.inr (Or.inr htype)) hwait
  | none =>
    simp only [htype] at hplan
    exact horderly.skipped hactions hwait hplan
  | restartTimeout =>
    simp only [htype] at hplan
    exact horderly.skipped hactions hwait hplan
  | suspendTimeout =>
    simp only [htype] at hplan
    exact horderly.skipped hactions hwait hplan
  | abortInput =>
    simp only [htype] at hplan
    exact horderly.skipped hactions hwait hplan

theorem Orderly.updated (horderly : Orderly options core) {input : Input}
    (hactions : next.actions = core.actions) (hcurrent : next.curPlugin = core.curPlugin)
    (hinputs : next.inputs = Function.update core.inputs index input)
    (hevents : ∀ other, (next.inputs other).IsActive →
      ({ type := .waitStopped, index := other } : Action) ∈ next.events →
        ({ type := .waitStopped, index := other } : Action) ∈ core.events)
    (hactive : input.IsActive → (core.inputs index).IsActive)
    (hrequest : (core.inputs index).startRequest = false → input.startRequest = false)
    (hsession : input.startRequest = true → input.session = .idle ∨ input.session = .exited) :
    Orderly options next := by
  refine horderly.mono hactions hcurrent (fun other hother ↦ ?_) fun other hother ↦ ⟨?_, ?_⟩
  · rw [hinputs] at hother ⊢
    rcases eq_or_ne other index with rfl | hne
    · rw [Function.update_self] at hother ⊢
      exact hsession hother
    · rw [Function.update_of_ne hne] at hother ⊢
      exact horderly.requested other hother
  · have hstill := hother.1
    rw [hinputs] at hstill
    rcases eq_or_ne other index with rfl | hne
    · rw [Function.update_self] at hstill
      exact hactive hstill
    · rwa [Function.update_of_ne hne] at hstill
  · refine fun hstopped ↦ hother.2 (hstopped.mono (fun rest hrest ↦ ⟨rest, ?_⟩)
      (hevents other hother.1) fun hnone ↦ ?_)
    · rw [afterSuspensions, hactions]
      exact hrest
    · rw [hinputs]
      rcases eq_or_ne other index with rfl | hne
      · rw [Function.update_self]
        exact hrequest hnone
      · rwa [Function.update_of_ne hne]

theorem Orderly.beginSession (horderly : Orderly options core) {input : Input}
    (hinput : (core.inputs index).beginSession = some input) :
    Orderly options (core.setInputState index input) := by
  unfold Input.beginSession at hinput
  split_ifs at hinput with hidle hterminated hrequest
  · obtain rfl := Option.some.inj hinput
    refine horderly.updated rfl rfl rfl (fun _ _ ↦ id) (fun hactive ↦ ?_) id fun _ ↦ Or.inr rfl
    exact Or.inl (by simpa [Input.IsActive] using hactive)
  · obtain rfl := Option.some.inj hinput
    exact horderly.updated rfl rfl rfl (fun _ _ ↦ id) (fun _ ↦ Or.inl hrequest) (fun _ ↦ rfl) nofun

theorem Orderly.inputStarted (horderly : Orderly options core) {success : Bool}
    (hstarting : (core.inputs index).session = .starting) :
    Orderly options (core.inputStarted index success).1 := by
  have hnone : (core.inputs index).startRequest = false := by
    by_contra hrequest
    rcases horderly.requested index (Bool.eq_true_of_not_eq_false hrequest) with hsession | hsession
      <;> (rw [hstarting] at hsession; cases hsession)
  refine horderly.updated rfl rfl rfl (fun other _ hmem ↦ ?_) (fun _ ↦ Or.inr (Or.inl hstarting)) id
    fun hrequest ↦ ?_
  · rcases Finset.mem_insert.mp hmem with hevent | hevent
    · cases hevent
    · exact hevent
  · exact absurd (hnone.symm.trans hrequest) Bool.false_ne_true

theorem Orderly.inputReceived (horderly : Orderly options core) (index : ℕ) :
    Orderly options (core.inputReceived index).1 := by
  refine horderly.updated rfl rfl (Function.update_eq_self index core.inputs).symm
    (fun other _ hmem ↦ ?_) id id (horderly.requested index)
  rcases Finset.mem_insert.mp hmem with hevent | hevent
  · cases hevent
  · exact hevent

theorem Orderly.terminateInput (horderly : Orderly options core) (index : ℕ) :
    Orderly options (core.setInputState index (core.inputs index).terminateInput) :=
  horderly.updated rfl rfl rfl (fun _ _ ↦ id) id id (horderly.requested index)

theorem plan_switchActions (hfast : options.fastSwitch = false) (hne : index ≠ core.curPlugin)
    (abortCurrent : Bool) :
    Plan options.primaryInput (switchActions options core index abortCurrent) core.curPlugin
      fun other ↦ other = core.curPlugin ∨ options.primaryInput = some other := by
  unfold switchActions
  by_cases hindex : some index = options.primaryInput <;>
    by_cases hcurrent : some core.curPlugin = options.primaryInput <;>
      cases options.delayedSwitch <;>
        simp [Plan, hfast, hindex, hcurrent, hne, Ne.symm hne] <;> grind

theorem Orderly.setInputLocked (horderly : Orderly options core) (hfast : options.fastSwitch = false)
    {abortCurrent : Bool} (hkeep : index < options.inputs → index ≠ core.curPlugin →
      ∀ action ∈ core.actions, action.type ≠ .setCurrent) :
    Orderly options (setInputLocked options core index abortCurrent).1 := by
  unfold Core.setInputLocked
  split_ifs with hinvalid hsame
  · exact horderly
  · exact horderly
  · have hplan := horderly.plan.append (hkeep (Nat.lt_of_not_le hinvalid) hsame)
      (plan_switchActions hfast hsame abortCurrent)
    refine ⟨horderly.requested, hplan.anti fun other hother ↦ ⟨hother.1, fun hstopped ↦ ?_⟩⟩
    refine hother.2 (hstopped.mono (fun rest hrest ↦
      ⟨rest ++ switchActions options core index abortCurrent, ?_⟩) id id)
    simp only [afterSuspensions] at hrest
    simp only [afterSuspensions, enqueue, List.dropWhile_append, hrest]
    rfl

theorem plan_of_waits {primaryInput : Option ℕ} {actions : List Action} {curPlugin : ℕ}
    {active : ℕ → Prop} (hwaits : ∀ action ∈ actions, action.type = .waitStopped)
    (hactive : ∀ index, active index → index = curPlugin ∨ primaryInput = some index) :
    Plan primaryInput actions curPlugin active := by
  induction actions with
  | nil => exact hactive
  | cons action rest ih =>
    unfold Plan
    rw [hwaits action List.mem_cons_self]
    exact ih (List.forall_mem_cons.mp hwaits).2

theorem filter_waitStopped_of_dropWhile {actions : List Action} {wait : Action}
    (hwait : wait.type = .waitStopped)
    (hfront : actions.dropWhile (fun action ↦ action.type = .suspendTimeout) = wait :: rest) :
    ∃ others, actions.filter (fun action ↦ action.type = .waitStopped) = wait :: others := by
  induction actions with
  | nil => cases hfront
  | cons action actions ih =>
    rw [List.dropWhile_cons] at hfront
    split_ifs at hfront with hsuspend
    · obtain ⟨others, hothers⟩ := ih hfront
      refine ⟨others, ?_⟩
      have htype : action.type = .suspendTimeout := by simpa using hsuspend
      simpa [htype] using hothers
    · obtain ⟨rfl, rfl⟩ := List.cons.inj hfront
      exact ⟨_, List.filter_cons_of_pos (by simpa using hwait)⟩

theorem Orderly.isActive_endSession (horderly : Orderly options core)
    (hsession : (core.inputs index).session = .running ∨ (core.inputs index).session = .failed)
    {other : ℕ} (hactive : ((core.endSession options index).inputs other).IsActive) :
    other ≠ index ∧ (core.inputs other).IsActive := by
  have hnone : (core.inputs index).startRequest = false := by
    by_contra hrequest
    rcases horderly.requested index (Bool.eq_true_of_not_eq_false hrequest) with hstate | hstate <;>
      rcases hsession with hsession | hsession <;> (rw [hstate] at hsession; cases hsession)
  rcases eq_or_ne other index with rfl | hne
  · simp [endSession, setInputState, Input.IsActive, hnone] at hactive
  · refine ⟨hne, ?_⟩
    simpa [endSession, setInputState, hne] using hactive

theorem Orderly.reportStopped (horderly : Orderly options core)
    (hstopped : ¬ (core.inputs index).IsActive) (caller : Caller) :
    Orderly options (core.report { type := .waitStopped, index } caller).1 := by
  refine horderly.updated rfl rfl (Function.update_eq_self index core.inputs).symm
    (fun other hactive hmem ↦ ?_) id id (horderly.requested index)
  refine (Finset.mem_insert.mp hmem).resolve_left fun hevent ↦ hstopped ?_
  have hsame : other = index := congrArg Action.index hevent
  rwa [← hsame]

/-- The end of a session and its consequences on the queue. -/
theorem Orderly.followSession (horderly : Orderly options core) (hfast : options.fastSwitch = false)
    (hsession : (core.inputs index).session = .running ∨ (core.inputs index).session = .failed)
    (hnext : ¬ core.StartsStarted options (.inputStopped index))
    (hlast : ¬ core.StrandsAtTermination options (.inputStopped index)) :
    Orderly options ((core.endSession options index).followSession options index).1 := by
  have hactive : ∀ other, ((core.endSession options index).inputs other).IsActive →
      other ≠ index ∧ (core.inputs other).IsActive :=
    fun other ↦ horderly.isActive_endSession hsession
  have hended : Orderly options (core.endSession options index) := by
    refine horderly.updated rfl rfl rfl (fun _ _ ↦ id) (fun hstill ↦ absurd rfl (hactive index ?_).1)
      id fun _ ↦ Or.inl rfl
    simpa [endSession, setInputState] using hstill
  unfold Core.followSession
  split_ifs with hcomplete hnatural
  · refine ⟨hended.requested, ?_⟩
    show Plan options.primaryInput (_ :: _) core.curPlugin _
    unfold Plan
    refine plan_of_waits (fun action haction ↦ by simpa using (List.mem_filter.mp haction).2)
      fun other hother ↦ ?_
    by_contra hstranded
    rw [not_or] at hstranded
    obtain ⟨hne, hstill⟩ := hactive other hother.1
    refine hlast ⟨index, rfl, hcomplete, other, hne, ⟨hstill, fun hstopped ↦ hother.2 ?_⟩,
      hstranded.1, hstranded.2⟩
    refine hstopped.mono (fun rest hrest ↦ ?_) id fun hnone ↦ ?_
    · obtain ⟨others, hothers⟩ := filter_waitStopped_of_dropWhile rfl hrest
      refine ⟨others, ?_⟩
      show List.dropWhile _ (_ :: List.filter _ core.actions) = _
      rw [hothers]
      rfl
    · simpa [cancelActions, endSession, setInputState, hne] using hnone
  · obtain ⟨hcurrent, hempty⟩ := hnatural
    change index = core.curPlugin at hcurrent
    change core.actions = [] at hempty
    subst hcurrent
    refine ⟨hended.requested, ?_⟩
    show Plan options.primaryInput (core.actions ++ nextActions options (core.next options))
      core.curPlugin _
    simp only [hempty, nextActions, hfast, List.nil_append, List.cons_append, Plan]
    refine ⟨fun hstarted ↦ ?_, fun other hother ↦ ?_⟩
    · obtain ⟨hne, hstill⟩ := hactive _ hstarted.1
      exact hnext ⟨rfl, hcomplete, hempty, hne, hstill⟩
    · refine hother.symm.imp id fun hstarted ↦ ?_
      obtain ⟨hne, hstill⟩ := hactive other hstarted.1
      exact (horderly.inOrder.started_only hempty other hstill).resolve_left hne
  · exact hended

theorem Orderly.inputStopped (horderly : Orderly options core) (hfast : options.fastSwitch = false)
    {index : ℕ}
    (hsession : (core.inputs index).session = .running ∨ (core.inputs index).session = .failed)
    (hnext : ¬ core.StartsStarted options (.inputStopped index))
    (hlast : ¬ core.StrandsAtTermination options (.inputStopped index)) :
    Orderly options (core.inputStopped options index).1 := by
  refine (horderly.followSession hfast hsession hnext hlast).reportStopped (fun hactive ↦ ?_) _
  rw [inputs_followSession] at hactive
  exact (horderly.isActive_endSession hsession hactive).1 rfl

theorem Orderly.leave (horderly : Orderly options core) (hfast : options.fastSwitch = false)
    {caller : Caller} (hcaller : core.caller = some caller) (hblocked : core.IsBlocked)
    (hprimary : ¬ core.StrandsAtPrimary options .execute) :
    Orderly options (core.leave options caller).1 := by
  unfold Core.leave
  split
  case h_2 => exact horderly.returned none
  case h_1 index =>
    split_ifs with hswitch
    · obtain ⟨hindex, hne⟩ := hswitch
      refine ⟨horderly.requested, ?_⟩
      simp only [primaryActions, hfast, List.cons_append, List.nil_append, Plan]
      refine ⟨⟨[], rfl⟩, fun other hother ↦ ?_⟩
      by_contra hstranded
      rw [not_or] at hstranded
      exact hprimary ⟨rfl, hblocked, index, hcaller, hindex, hne, other, hother.1.1, hother.2,
        hstranded.1⟩
    · exact horderly.returned none

theorem Orderly.step (horderly : Orderly options core) (hfast : options.fastSwitch = false)
    {move : Move} (hcondition : ¬ core.MissesOrder options move) {next : Core}
    {entries : List Entry} (hnext : core.step options move = some (next, entries)) :
    Orderly options next := by
  obtain ⟨hoverlaps, hprimary, hstale, hstarts, hlast⟩ :
      ¬ core.OverlapsSwitch options move ∧ ¬ core.StrandsAtPrimary options move ∧
        ¬ core.StopsAfterStaleEvent move ∧ ¬ core.StartsStarted options move ∧
          ¬ core.StrandsAtTermination options move := by
    simpa only [MissesOrder, not_or] using hcondition
  have hlocked : ∀ {result : Core × List Entry}, Orderly options result.1 →
      core.locked result = some (next, entries) → Orderly options next := by
    intro result hresult hsome
    unfold locked at hsome
    split_ifs at hsome
    obtain rfl := Option.some.inj hsome
    exact hresult
  have hswitch : ∀ {index : ℕ} {abortCurrent : Bool}, index ∈ core.designated options move →
      core.locked (Core.setInputLocked options core index abortCurrent) = some (next, entries) →
        Orderly options next := by
    intro index abortCurrent hindex hsome
    refine hlocked (horderly.setInputLocked hfast fun hvalid hne action haction htype ↦ ?_) hsome
    exact hoverlaps ⟨index, hindex, hvalid, hne, action, haction, htype⟩
  cases move with
  | setInput index => exact hswitch rfl hnext
  | nextInput => exact hswitch rfl hnext
  | previousInput => exact hswitch rfl hnext
  | handleWatchDogTimeout => exact hswitch rfl hnext
  | inputStarted index success =>
    simp only [Core.step] at hnext
    split_ifs at hnext with hstarting
    exact hlocked (horderly.inputStarted hstarting) hnext
  | inputReceived index =>
    simp only [Core.step] at hnext
    split_ifs at hnext
    exact hlocked (horderly.inputReceived index) hnext
  | inputStopped index =>
    simp only [Core.step] at hnext
    split_ifs at hnext with hsession
    exact hlocked (horderly.inputStopped hfast hsession hstarts hlast) hnext
  | execute =>
    obtain ⟨caller, hcaller, hresult⟩ := Option.map_eq_some_iff.mp hnext
    unfold Core.execute at hresult
    split at hresult
    case h_1 hempty =>
      have hblocked : core.IsBlocked := by simp [IsBlocked, hempty]
      have hleave := horderly.leave hfast hcaller hblocked hprimary
      rwa [hresult] at hleave
    case h_2 action rest hactions =>
      split_ifs at hresult with hwait hevent
      · obtain ⟨rfl, -⟩ := Prod.mk.inj hresult
        exact horderly.released hactions hwait hevent
      · have hblocked : core.IsBlocked := by
          simp [IsBlocked, hactions, hwait, hevent]
        have hleave := horderly.leave hfast hcaller hblocked hprimary
        rwa [hresult] at hleave
      · obtain ⟨rfl, -⟩ := Prod.mk.inj hresult
        refine horderly.performed hactions hwait fun htype hmem hactive ↦ hstale ?_
        exact ⟨rfl, by simp [hcaller], action, rest, hactions, htype, hmem, hactive⟩
  | beginSession index =>
    simp only [Core.step] at hnext
    split_ifs at hnext
    obtain ⟨input, hinput, hresult⟩ := Option.map_eq_some_iff.mp hnext
    obtain ⟨rfl, -⟩ := Prod.mk.inj hresult
    exact horderly.beginSession hinput
  | terminateInput index =>
    obtain ⟨rfl, -⟩ := Prod.mk.inj (Option.some.inj hnext)
    exact horderly.terminateInput index
  | stop =>
    simp only [Core.step] at hnext
    split_ifs at hnext
    obtain ⟨rfl, -⟩ := Prod.mk.inj (Option.some.inj hnext)
    exact { horderly with }

/-- Assumes: the mode is not fast. Along a run whose moves do not leave the order, no start finds
its input started, and with an empty queue the inputs that are started are the current one and the
primary one. -/
theorem inOrder_of_never_missesOrder (options : Options) (hfast : options.fastSwitch = false)
    (moves : List Move)
    (hmeets : (machine options).Meets (fun core move ↦ ¬ core.MissesOrder options move)
      (start options) moves) :
    (machine options).HoldsAlong (InOrder options) (fun _ ↦ True) (start options) moves := by
  intro passed hpassed last entries hrun
  refine ⟨?_, fun _ _ ↦ trivial⟩
  exact ((machine options).run_invariant_of_meets
    (fun _ _ _ _ horderly hcondition hnext ↦
      ⟨Orderly.step horderly hfast hcondition hnext, fun _ _ ↦ trivial⟩)
    (orderly_start hfast) (hmeets.restrict _ hpassed) hrun).1.inOrder

def twoInputs (primaryInput : Option (Fin 2)) : Options where
  inputs := 2
  fastSwitch := false
  delayedSwitch := false
  terminate := false
  firstInput := 0
  primaryInput := primaryInput.map Fin.val
  cycleCount := 0
  bufferedPackets := 512
  maxInputPackets := 128
  firstInput_lt := Nat.two_pos
  primaryInput_lt := by
    rintro _ hmem
    obtain ⟨index, -, rfl⟩ := Option.mem_map.mp hmem
    exact index.isLt
  exclusive := normalSwitch
  bufferedPackets_pos := standardBuffer_pos
  maxInputPackets_le := standardInput_le

/-- The first input terminates, and the second one is the primary input. -/
def endBeforePrimary : List Move :=
  [.beginSession 0, .inputStarted 0 true, .execute, .inputStopped 0, .execute, .execute]

/-- The next action starts the primary input again. -/
theorem endBeforePrimary_not_inOrder :
    ¬ (machine (twoInputs (some 1))).HoldsAlong (InOrder (twoInputs (some 1))) (fun _ ↦ True)
      (start (twoInputs (some 1))) endBeforePrimary := by
  intro hholds
  have hinOrder := (hholds endBeforePrimary (List.prefix_refl _) _ _ rfl).1
  exact hinOrder.start_stopped _ _ (by decide) rfl rfl (Or.inl rfl)

theorem not_missesOrder_of_nil (hempty : core.actions = [])
    (hcaller : ∀ index, core.caller ≠ some (.reception index)) {move : Move}
    (hmove : ∀ index, move ≠ .inputStopped index) : ¬ core.MissesOrder options move := by
  rintro (⟨_, _, _, _, action, haction, _⟩ | ⟨_, _, index, hreception, _⟩ |
    ⟨_, _, action, rest, hactions, _⟩ | ⟨hstopped, _⟩ | ⟨index, hstopped, _⟩)
  · simp [hempty] at haction
  · exact hcaller index hreception
  · simp [hempty] at hactions
  · exact hmove _ hstopped
  · exact hmove index hstopped

/-- The first input starts, and a command switches to the second one. -/
theorem inOrder_setInput :
    (machine (twoInputs none)).HoldsAlong (InOrder (twoInputs none)) (fun _ ↦ True)
      (start (twoInputs none)) [.beginSession 0, .inputStarted 0 true, .execute, .setInput 1] := by
  refine inOrder_of_never_missesOrder (twoInputs none) rfl _ ?_
  refine (machine _).meets_cons_of_step rfl
    (not_missesOrder_of_nil rfl (fun _ hcaller ↦ by cases hcaller) nofun) ?_
  refine (machine _).meets_cons_of_step rfl
    (not_missesOrder_of_nil rfl (fun _ hcaller ↦ by cases hcaller) nofun) ?_
  refine (machine _).meets_cons_of_step rfl
    (not_missesOrder_of_nil rfl (fun _ hcaller ↦ by cases hcaller) nofun) ?_
  exact (machine _).meets_cons_of_step rfl
    (not_missesOrder_of_nil rfl (fun _ hcaller ↦ by cases hcaller) nofun) trivial

end Core

end TSDuck.TSSwitch
