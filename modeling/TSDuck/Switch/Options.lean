import Mathlib.Data.PNat.Basic

/-!
# The options of `tsswitch`

`CommandLine` holds the options of a `tsswitch` command line that its core and its input executors
read, and `Options` their values once the command line has been analyzed. `Options.analyze` applies
the default values and rejects the command lines which the program rejects; the fields of `Options`
that are proofs say what it checks.

Scope. The plugins are represented by their number. The options on logging, remote control and
sockets, and the receive timeout, are left out: a timeout is an event of the core.
-/

namespace TSDuck.TSSwitch

/-- The options of a command line, `none` when an option is absent. -/
structure CommandLine where
  inputs : ℕ+
  fastSwitch : Bool
  delayedSwitch : Bool
  terminate : Bool
  infinite : Bool
  cycle : Option ℕ+
  firstInput : Option ℕ
  primaryInput : Option ℕ
  bufferPackets : Option ℕ+
  maxInputPackets : Option ℕ+

structure Options where
  inputs : ℕ
  fastSwitch : Bool
  delayedSwitch : Bool
  terminate : Bool
  firstInput : ℕ
  primaryInput : Option ℕ
  cycleCount : ℕ
  bufferedPackets : ℕ
  maxInputPackets : ℕ
  firstInput_lt : firstInput < inputs
  primaryInput_lt : ∀ index ∈ primaryInput, index < inputs
  exclusive : ¬ (fastSwitch = true ∧ delayedSwitch = true)
  bufferedPackets_pos : 0 < bufferedPackets
  maxInputPackets_le : maxInputPackets ≤ bufferedPackets / 2

def defaultBufferedPackets : ℕ+ :=
  512

def defaultMaxInputPackets : ℕ+ :=
  128

theorem standardBuffer_pos : 0 < 512 := by decide

theorem standardInput_le : 128 ≤ 512 / 2 := by decide

theorem normalSwitch : ¬ (false = true ∧ false = true) := by decide

def CommandLine.errors (commandLine : CommandLine) : List String :=
  (if commandLine.firstInput.getD 0 < commandLine.inputs then []
    else [s!"invalid input index for --first-input {commandLine.firstInput.getD 0}"]) ++
  (if ∀ index ∈ commandLine.primaryInput, index < commandLine.inputs then []
    else [s!"invalid input index for --primary-input {commandLine.primaryInput.getD 0}"]) ++
  (if commandLine.cycle.isSome.toNat + commandLine.infinite.toNat + commandLine.terminate.toNat ≤ 1
    then [] else ["options --cycle, --infinite and --terminate are mutually exclusive"]) ++
  (if ¬ (commandLine.fastSwitch = true ∧ commandLine.delayedSwitch = true) then []
    else ["options --delayed-switch and --fast-switch are mutually exclusive"])

theorem CommandLine.of_errors_eq_nil {commandLine : CommandLine} (hnone : commandLine.errors = []) :
    commandLine.firstInput.getD 0 < commandLine.inputs ∧
      (∀ index ∈ commandLine.primaryInput, index < commandLine.inputs) ∧
        ¬ (commandLine.fastSwitch = true ∧ commandLine.delayedSwitch = true) := by
  simp only [errors, List.append_eq_nil_iff, ite_eq_left_iff, List.cons_ne_nil, imp_false,
    not_not] at hnone
  exact ⟨hnone.1.1.1, hnone.1.1.2, hnone.2⟩

def Options.analyze (commandLine : CommandLine) : Except (List String) Options :=
  if hnone : commandLine.errors = [] then
    let bufferedPackets := commandLine.bufferPackets.getD defaultBufferedPackets
    .ok
      { inputs := commandLine.inputs
        fastSwitch := commandLine.fastSwitch
        delayedSwitch := commandLine.delayedSwitch
        terminate := commandLine.terminate
        firstInput := commandLine.firstInput.getD 0
        primaryInput := commandLine.primaryInput
        cycleCount := (commandLine.cycle.map PNat.val).getD (if commandLine.infinite then 0 else 1)
        bufferedPackets := bufferedPackets
        maxInputPackets :=
          min (commandLine.maxInputPackets.getD defaultMaxInputPackets) (bufferedPackets / 2)
        firstInput_lt := (CommandLine.of_errors_eq_nil hnone).1
        primaryInput_lt := (CommandLine.of_errors_eq_nil hnone).2.1
        exclusive := (CommandLine.of_errors_eq_nil hnone).2.2
        bufferedPackets_pos := bufferedPackets.pos
        maxInputPackets_le := min_le_right _ _ }
  else .error commandLine.errors

end TSDuck.TSSwitch
