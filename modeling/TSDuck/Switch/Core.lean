import TSDuck.Library.Machine
import TSDuck.Switch.Options
import Mathlib.Data.Finset.Basic

/-!
# The core of `tsswitch`

The core of `tsswitch` decides which input plugin is the current one. Remote commands, receive
timeouts and the events which the input threads report are locked calls.

`Core` is the state that the mutex protects, with what the core and the input threads share of each
input: its requests, and the session its thread is in. `Core.machine` runs it. While a call holds
the mutex, no other call is accepted, so the runs of the machine are the interleavings of whole
calls.

Scope. The conditions and the watchdog are left out, as they only decide when a blocked output
thread wakes up and when a timeout is reported; a timeout is a call that may come at any time.
-/

namespace TSDuck.TSSwitch

inductive ActionType
  | none
  | start
  | waitStarted
  | waitInput
  | stop
  | waitStopped
  | notifCurrent
  | setCurrent
  | restartTimeout
  | suspendTimeout
  | abortInput
  deriving DecidableEq, Repr

/-- An action with its parameters, or an event. -/
structure Action where
  type : ActionType := .none
  index : ℕ := 0
  flag : Bool := false
  deriving DecidableEq, Repr

/-- A wait action is only executed when its event is pending. -/
def Action.IsWait (action : Action) : Prop :=
  action.type = .waitStarted ∨ action.type = .waitInput ∨ action.type = .waitStopped

instance (action : Action) : Decidable action.IsWait :=
  inferInstanceAs (Decidable (_ ∨ _ ∨ _))

/-- The event that an action waits for: the same action, without its flag. -/
def Action.event (action : Action) : Action :=
  { action with flag := false }

/-- The session of an input thread. -/
inductive Session
  | idle
  | starting
  | running
  | failed
  | exited
  deriving DecidableEq, Repr

/-- What the core and a thread share, and the session. -/
structure Input where
  isCurrent : Bool
  startRequest : Bool
  stopRequest : Bool
  terminated : Bool
  session : Session
  deriving DecidableEq, Repr

namespace Input

def new : Input :=
  { isCurrent := false, startRequest := false, stopRequest := false, terminated := false
    session := .idle }

def startInput (input : Input) (isCurrent : Bool) : Input :=
  { input with isCurrent, startRequest := true, stopRequest := false }

def stopInput (input : Input) : Input :=
  { input with startRequest := false, stopRequest := true }

def setCurrent (input : Input) (isCurrent : Bool) : Input :=
  { input with isCurrent }

def terminateInput (input : Input) : Input :=
  { input with terminated := true }

/-- The thread terminates or starts the plugin. -/
def beginSession (input : Input) : Option Input :=
  if input.session = .idle then
    if input.terminated then some { input with session := .exited }
    else if input.startRequest then
      some { input with startRequest := false, stopRequest := false, session := .starting }
    else none
  else none

/-- The thread was requested to start, or is in a session. -/
def IsActive (input : Input) : Prop :=
  input.startRequest = true ∨
    input.session = .starting ∨ input.session = .running ∨ input.session = .failed

instance (input : Input) : Decidable input.IsActive :=
  inferInstanceAs (Decidable (_ ∨ _ ∨ _ ∨ _))

end Input

/-- The call that holds the mutex. -/
inductive Caller
  | command
  | session (pluginIndex : ℕ)
  | reception (pluginIndex : ℕ)
  deriving DecidableEq, Repr

/-- The state of the core and of its inputs. -/
structure Core where
  curPlugin : ℕ
  curCycle : ℕ
  terminate : Bool
  actions : List Action
  events : Finset Action
  inputs : ℕ → Input
  caller : Option Caller

/-- What happens to an event or to an action. -/
inductive Entry
  | reported (event : Action)
  | enqueued (action : Action)
  | executed (action : Action)
  | released (action : Action)
  | cancelled (action : Action)
  deriving DecidableEq, Repr

/-- A call, a turn of its loop, or a step of a thread. -/
inductive Core.Move
  | setInput (index : ℕ)
  | nextInput
  | previousInput
  | handleWatchDogTimeout
  | inputStarted (pluginIndex : ℕ) (success : Bool)
  | inputReceived (pluginIndex : ℕ)
  | inputStopped (pluginIndex : ℕ)
  | execute
  | beginSession (pluginIndex : ℕ)
  | terminateInput (pluginIndex : ℕ)
  | stop

namespace Core

variable (options : Options)

def setInputState (core : Core) (index : ℕ) (input : Input) : Core :=
  { core with inputs := Function.update core.inputs index input }

/-- The core at the start. -/
def start : Core :=
  { curPlugin := options.firstInput
    curCycle := 0
    terminate := false
    actions := []
    events := ∅
    inputs := fun index ↦
      if options.fastSwitch then
        if index < options.inputs then Input.new.startInput (index == options.firstInput)
        else Input.new
      else if index = options.firstInput then Input.new.startInput true
      else if options.primaryInput = some index then Input.new.startInput false
      else Input.new
    caller := none }

def switchActions (core : Core) (index : ℕ) (abortCurrent : Bool) : List Action :=
  if options.delayedSwitch then
    [{ type := .suspendTimeout }] ++
    (if some index ≠ options.primaryInput then [{ type := .start, index, flag := false }] else []) ++
    [{ type := .waitInput, index }] ++
    (if some core.curPlugin = options.primaryInput then
      [{ type := .notifCurrent, index := core.curPlugin, flag := false }] else []) ++
    [{ type := .setCurrent, index }, { type := .notifCurrent, index, flag := true },
      { type := .restartTimeout }] ++
    (if some core.curPlugin ≠ options.primaryInput then
      [{ type := .abortInput, index := core.curPlugin, flag := abortCurrent },
        { type := .stop, index := core.curPlugin },
        { type := .waitStopped, index := core.curPlugin }] else [])
  else
    [{ type := .suspendTimeout }] ++
    (if options.fastSwitch ∨ some core.curPlugin = options.primaryInput then
      [{ type := .notifCurrent, index := core.curPlugin, flag := false }]
    else
      [{ type := .abortInput, index := core.curPlugin, flag := abortCurrent },
        { type := .stop, index := core.curPlugin },
        { type := .waitStopped, index := core.curPlugin }]) ++
    [{ type := .setCurrent, index }] ++
    (if options.fastSwitch ∨ some index = options.primaryInput then
      [{ type := .notifCurrent, index, flag := true }]
    else [{ type := .start, index, flag := true }, { type := .waitStarted, index }]) ++
    [{ type := .restartTimeout }]

/-- The actions that switch to the primary input. -/
def primaryActions (core : Core) (primaryInput : ℕ) : List Action :=
  [{ type := .suspendTimeout }, { type := .notifCurrent, index := core.curPlugin, flag := false },
    { type := .setCurrent, index := primaryInput },
    { type := .notifCurrent, index := primaryInput, flag := true },
    { type := .restartTimeout }] ++
  (if options.fastSwitch then []
  else
    [{ type := .abortInput, index := core.curPlugin, flag := true },
      { type := .stop, index := core.curPlugin },
      { type := .waitStopped, index := core.curPlugin }])

/-- The actions that move to the next input. -/
def nextActions (next : ℕ) : List Action :=
  [{ type := .suspendTimeout }, { type := .setCurrent, index := next }] ++
  (if options.fastSwitch then [{ type := .notifCurrent, index := next, flag := true }]
  else [{ type := .start, index := next, flag := true }, { type := .waitStarted, index := next }]) ++
  [{ type := .restartTimeout }]

def enqueue (core : Core) (actions : List Action) : Core :=
  { core with actions := core.actions ++ actions }

/-- A switch to an input, unless there is nothing to do. -/
def setInputLocked (core : Core) (index : ℕ) (abortCurrent : Bool) : Core × List Entry :=
  if options.inputs ≤ index then (core, [])
  else if index = core.curPlugin then (core, [])
  else
    let actions := switchActions options core index abortCurrent
    ({ core.enqueue actions with caller := some .command }, actions.map .enqueued)

def next (core : Core) : ℕ :=
  (core.curPlugin + 1) % options.inputs

def previous (core : Core) : ℕ :=
  (if core.curPlugin > 0 then core.curPlugin else options.inputs) - 1

def report (core : Core) (event : Action) (caller : Caller) : Core × List Entry :=
  ({ core with events := insert event.event core.events, caller := some caller },
    [.reported event.event])

def inputStarted (core : Core) (pluginIndex : ℕ) (success : Bool) : Core × List Entry :=
  report
    (core.setInputState pluginIndex
      { core.inputs pluginIndex with session := if success then .running else .failed })
    { type := .waitStarted, index := pluginIndex, flag := success } (.session pluginIndex)

def inputReceived (core : Core) (pluginIndex : ℕ) : Core × List Entry :=
  core.report { type := .waitInput, index := pluginIndex } (.reception pluginIndex)

/-- The session is over, and the cycle after the last one. -/
def endSession (core : Core) (pluginIndex : ℕ) : Core :=
  { core.setInputState pluginIndex { core.inputs pluginIndex with session := .idle } with
    curCycle := core.curCycle + if pluginIndex + 1 = options.inputs then 1 else 0 }

/-- The complete processing is terminated, after the end of a session. -/
def IsComplete (core : Core) : Prop :=
  options.terminate = true ∨ 0 < options.cycleCount ∧ options.cycleCount ≤ core.curCycle

instance (core : Core) : Decidable (core.IsComplete options) :=
  inferInstanceAs (Decidable (_ ∨ _ ∧ _))

/-- Removes all actions but the waits for a stop. -/
def cancelActions (core : Core) : Core × List Entry :=
  ({ core with
      actions := { type := .suspendTimeout } ::
        core.actions.filter fun action ↦ action.type = .waitStopped },
    (core.actions.filter fun action ↦ action.type ≠ .waitStopped).map .cancelled ++
      [.enqueued { type := .suspendTimeout }])

/-- What the end of a session does to the queue. -/
def followSession (core : Core) (pluginIndex : ℕ) : Core × List Entry :=
  if core.IsComplete options then core.cancelActions
  else if pluginIndex = core.curPlugin ∧ core.actions = [] then
    let actions := nextActions options (core.next options)
    (core.enqueue actions, actions.map .enqueued)
  else (core, [])

@[simp] theorem inputs_followSession (core : Core) (pluginIndex : ℕ) :
    (core.followSession options pluginIndex).1.inputs = core.inputs := by
  unfold followSession
  split_ifs <;> rfl

def inputStopped (core : Core) (pluginIndex : ℕ) : Core × List Entry :=
  let (core₁, entries) := (core.endSession options pluginIndex).followSession options pluginIndex
  let (core₂, reported) :=
    core₁.report { type := .waitStopped, index := pluginIndex } (.session pluginIndex)
  (core₂, entries ++ reported)

def perform (core : Core) (action : Action) : Core :=
  match action.type with
  | .start =>
    core.setInputState action.index ((core.inputs action.index).startInput action.flag)
  | .stop => core.setInputState action.index (core.inputs action.index).stopInput
  | .notifCurrent =>
    core.setInputState action.index ((core.inputs action.index).setCurrent action.flag)
  | .setCurrent => { core with curPlugin := action.index }
  | _ => core

def leave (core : Core) (caller : Caller) : Core × List Entry :=
  match caller with
  | .reception pluginIndex =>
    if options.primaryInput = some pluginIndex ∧ core.curPlugin ≠ pluginIndex then
      let actions := primaryActions options core pluginIndex
      ({ core with actions, caller := some (.session pluginIndex) },
        core.actions.map .cancelled ++ actions.map .enqueued)
    else ({ core with caller := none }, [])
  | _ => ({ core with caller := none }, [])

/-- The front action is executed and dequeued. -/
def execute (core : Core) (caller : Caller) : Core × List Entry :=
  match core.actions with
  | [] => core.leave options caller
  | action :: rest =>
    if action.IsWait then
      if action.event ∈ core.events then
        ({ core with actions := rest, events := core.events.erase action.event },
          [.released action])
      else core.leave options caller
    else ({ core.perform action with actions := rest }, [.executed action])

/-- The input thread is in the call that holds the mutex. -/
def Calls (core : Core) (pluginIndex : ℕ) : Prop :=
  core.caller = some (.session pluginIndex) ∨ core.caller = some (.reception pluginIndex)

instance (core : Core) (pluginIndex : ℕ) : Decidable (core.Calls pluginIndex) :=
  inferInstanceAs (Decidable (_ ∨ _))

def locked (core : Core) (result : Core × List Entry) : Option (Core × List Entry) :=
  if core.caller = none then some result else none

def step (core : Core) : Move → Option (Core × List Entry)
  | .setInput index => core.locked (setInputLocked options core index false)
  | .nextInput => core.locked (setInputLocked options core (core.next options) false)
  | .previousInput => core.locked (setInputLocked options core (core.previous options) false)
  | .handleWatchDogTimeout => core.locked (setInputLocked options core (core.next options) true)
  | .inputStarted pluginIndex success =>
    if (core.inputs pluginIndex).session = .starting then
      core.locked (core.inputStarted pluginIndex success)
    else none
  | .inputReceived pluginIndex =>
    if (core.inputs pluginIndex).session = .running then
      core.locked (core.inputReceived pluginIndex)
    else none
  | .inputStopped pluginIndex =>
    if (core.inputs pluginIndex).session = .running ∨
        (core.inputs pluginIndex).session = .failed then
      core.locked (core.inputStopped options pluginIndex)
    else none
  | .execute => core.caller.map (core.execute options)
  | .beginSession pluginIndex =>
    if core.Calls pluginIndex then none
    else
      (core.inputs pluginIndex).beginSession.map fun input ↦
        (core.setInputState pluginIndex input, [])
  | .terminateInput pluginIndex =>
    some (core.setInputState pluginIndex (core.inputs pluginIndex).terminateInput, [])
  | .stop => if core.caller = none then some ({ core with terminate := true }, []) else none

/-- A machine that logs the events and the actions. -/
def machine : Machine Core Move Entry :=
  ⟨step options⟩

end Core

end TSDuck.TSSwitch
