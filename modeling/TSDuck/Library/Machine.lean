import Mathlib.Data.List.Basic

/-!
# Machines that read inputs and report outputs

A machine is a state type with a partial step: in a state, an input is either refused (the party it
stands for is blocked there) or it moves the machine and reports a list of outputs.

`Machine.run_history` is the induction every result on runs goes through: a relation between the
state and what has been reported so far, true at the start and extended by one step, holds after
every run.
-/

universe u v w

/-- An input is refused, or it leads to a state and outputs. -/
structure Machine (State : Type u) (Input : Type v) (Output : Type w) where
  step : State → Input → Option (State × List Output)

namespace Machine

variable {State : Type u} {Input : Type v} {Output : Type w}

/-- The state and the outputs after a list of inputs. -/
def run (machine : Machine State Input Output) :
    State → List Input → Option (State × List Output)
  | state, [] => some (state, [])
  | state, input :: rest =>
    (machine.step state input).bind fun first ↦
      (run machine first.1 rest).map fun last ↦ (last.1, first.2 ++ last.2)

/-- Every step of a run satisfies a condition. -/
def Meets (machine : Machine State Input Output) (condition : State → Input → Prop) :
    State → List Input → Prop
  | _, [] => True
  | state, input :: rest =>
    condition state input ∧ ∀ next outputs, machine.step state input = some (next, outputs) →
        Meets machine condition next rest

/-- A property of states and outputs holds all along a run. -/
def HoldsAlong (machine : Machine State Input Output) (stateProperty : State → Prop)
    (outputProperty : Output → Prop) (state : State) (inputs : List Input) : Prop :=
  ∀ passed, passed <+: inputs → ∀ last outputs, machine.run state passed = some (last, outputs) →
    stateProperty last ∧ ∀ output ∈ outputs, outputProperty output

variable (machine : Machine State Input Output)

@[simp] theorem run_nil (state : State) : machine.run state [] = some (state, []) :=
  rfl

variable {state last : State} {input : Input} {rest inputs : List Input}
  {outputs reported : List Output} {condition : State → Input → Prop}
  {history : State → List Output → Prop} {invariant stateProperty : State → Prop}
  {outputProperty : Output → Prop}

/-- A run is its first step and the run of the rest. -/
theorem run_cons_eq_some :
    machine.run state (input :: rest) = some (last, outputs) ↔
      ∃ next first later, machine.step state input = some (next, first) ∧
        machine.run next rest = some (last, later) ∧ outputs = first ++ later := by
  simp only [run, Option.bind_eq_some_iff, Option.map_eq_some_iff, Prod.mk.injEq, Prod.exists]
  constructor
  · rintro ⟨next, first, hstep, _, later, hrun, rfl, rfl⟩
    exact ⟨next, first, later, hstep, hrun, rfl⟩
  · rintro ⟨next, first, later, hstep, hrun, rfl⟩
    exact ⟨next, first, hstep, last, later, hrun, rfl, rfl⟩

/-- A run splits at every point of its inputs. -/
theorem run_append_eq_some {before after : List Input} :
    machine.run state (before ++ after) = some (last, outputs) ↔
      ∃ middle first later, machine.run state before = some (middle, first) ∧
        machine.run middle after = some (last, later) ∧ outputs = first ++ later := by
  induction before generalizing state outputs with
  | nil => simp
  | cons input rest ih =>
    rw [List.cons_append, run_cons_eq_some]
    constructor
    · rintro ⟨next, first, later, hstep, hrun, rfl⟩
      obtain ⟨middle, second, third, hmiddle, hlast, rfl⟩ := ih.mp hrun
      exact ⟨middle, first ++ second, third,
        (machine.run_cons_eq_some).mpr ⟨next, first, second, hstep, hmiddle, rfl⟩, hlast,
        (List.append_assoc _ _ _).symm⟩
    · rintro ⟨middle, first, later, hrun, hlast, rfl⟩
      obtain ⟨next, second, third, hstep, hmiddle, rfl⟩ := (machine.run_cons_eq_some).mp hrun
      exact ⟨next, second, third ++ later, hstep,
        ih.mpr ⟨middle, third, later, hmiddle, hlast, rfl⟩, List.append_assoc _ _ _⟩

/-- Assumes: no input is refused. Every list has a run. -/
theorem exists_run (htotal : ∀ state input, ∃ next outputs,
    machine.step state input = some (next, outputs)) (state : State) (inputs : List Input) :
    ∃ last outputs, machine.run state inputs = some (last, outputs) := by
  induction inputs generalizing state with
  | nil => exact ⟨state, [], rfl⟩
  | cons input rest ih =>
    obtain ⟨next, first, hstep⟩ := htotal state input
    obtain ⟨last, later, hrun⟩ := ih next
    exact ⟨last, first ++ later,
      (machine.run_cons_eq_some).mpr ⟨next, first, later, hstep, hrun, rfl⟩⟩

theorem meets_cons_of_step {next : State} (hstep : machine.step state input = some (next, outputs))
    (hcondition : condition state input) (hrest : machine.Meets condition next rest) :
    machine.Meets condition state (input :: rest) := by
  refine ⟨hcondition, fun other reported hother ↦ ?_⟩
  rw [hstep, Option.some.injEq, Prod.mk.injEq] at hother
  exact hother.1 ▸ hrest

/-- The condition of a run restricts to every prefix of its inputs. -/
theorem Meets.restrict {passed : List Input} (hmeets : machine.Meets condition state inputs)
    (hpassed : passed <+: inputs) : machine.Meets condition state passed := by
  induction passed generalizing state inputs with
  | nil => trivial
  | cons input rest ih =>
    obtain ⟨later, rfl⟩ := hpassed
    exact ⟨hmeets.1, fun next outputs hstep ↦
      ih (hmeets.2 next outputs hstep) (List.prefix_append rest later)⟩

/-- The condition of a run holds in what follows a prefix of its inputs. -/
theorem Meets.following {middle : State} {before after : List Input}
    (hmeets : machine.Meets condition state (before ++ after))
    (hrun : machine.run state before = some (middle, outputs)) :
    machine.Meets condition middle after := by
  induction before generalizing state outputs with
  | nil =>
    obtain ⟨rfl, -⟩ := Prod.mk.inj (Option.some.inj hrun)
    exact hmeets
  | cons input rest ih =>
    obtain ⟨next, first, later, hstep, hlater, -⟩ := (machine.run_cons_eq_some).mp hrun
    exact ih (hmeets.2 next first hstep) hlater

/-- Runs whose steps meet a condition, with what they report. -/
theorem run_history_of_meets (hstep : ∀ state input next reported outputs, history state reported →
      condition state input → machine.step state input = some (next, outputs) →
        history next (reported ++ outputs)) (hstart : history state reported)
    (hmeets : machine.Meets condition state inputs)
    (hrun : machine.run state inputs = some (last, outputs)) :
    history last (reported ++ outputs) := by
  induction inputs generalizing state reported outputs with
  | nil =>
    simp only [run_nil, Option.some.injEq, Prod.mk.injEq] at hrun
    obtain ⟨rfl, rfl⟩ := hrun
    rwa [List.append_nil]
  | cons input rest ih =>
    obtain ⟨next, first, later, hfirst, hrest, rfl⟩ := (machine.run_cons_eq_some).mp hrun
    have hnext := hstep state input next reported first hstart hmeets.1 hfirst
    rw [← List.append_assoc]
    exact ih hnext (hmeets.2 next first hfirst) hrest

/-- Runs whose steps meet a condition, with what they report. -/
theorem exists_run_history_of_meets
    (hstep : ∀ state input reported, history state reported → condition state input →
      ∃ next outputs, machine.step state input = some (next, outputs) ∧
        history next (reported ++ outputs)) (hstart : history state reported)
    (hmeets : machine.Meets condition state inputs) :
    ∃ last outputs, machine.run state inputs = some (last, outputs) ∧
      history last (reported ++ outputs) := by
  induction inputs generalizing state reported with
  | nil => exact ⟨state, [], rfl, by rwa [List.append_nil]⟩
  | cons input rest ih =>
    obtain ⟨next, first, hfirst, hnext⟩ := hstep state input reported hstart hmeets.1
    obtain ⟨last, later, hrest, hlast⟩ := ih hnext (hmeets.2 next first hfirst)
    refine ⟨last, first ++ later,
      (machine.run_cons_eq_some).mpr ⟨next, first, later, hfirst, hrest, rfl⟩, ?_⟩
    rwa [← List.append_assoc]

theorem meets_true (state : State) (inputs : List Input) :
    machine.Meets (fun _ _ ↦ True) state inputs := by
  induction inputs generalizing state with
  | nil => trivial
  | cons input rest ih => exact ⟨trivial, fun next _ _ ↦ ih next⟩

/-- Every run, with what it reports. -/
theorem run_history (hstep : ∀ state input next reported outputs, history state reported →
      machine.step state input = some (next, outputs) → history next (reported ++ outputs))
    (hstart : history state reported) (hrun : machine.run state inputs = some (last, outputs)) :
    history last (reported ++ outputs) :=
  machine.run_history_of_meets
    (fun current input next before after hcurrent _ hnext ↦
      hstep current input next before after hcurrent hnext)
    hstart (machine.meets_true state inputs) hrun

/-- Runs whose steps meet a condition. -/
theorem run_invariant_of_meets
    (hstep : ∀ state input next outputs, invariant state → condition state input →
      machine.step state input = some (next, outputs) →
        invariant next ∧ ∀ output ∈ outputs, outputProperty output) (hstart : invariant state)
    (hmeets : machine.Meets condition state inputs)
    (hrun : machine.run state inputs = some (last, outputs)) :
    invariant last ∧ ∀ output ∈ outputs, outputProperty output := by
  have hextend : ∀ current input next before after,
      (invariant current ∧ ∀ output ∈ before, outputProperty output) → condition current input →
        machine.step current input = some (next, after) →
          invariant next ∧ ∀ output ∈ before ++ after, outputProperty output := by
    intro current input next before after hcurrent hcondition hnext
    obtain ⟨hinvariant, hreported⟩ := hstep current input next after hcurrent.1 hcondition hnext
    refine ⟨hinvariant, fun output houtput ↦ ?_⟩
    rcases List.mem_append.mp houtput with hmem | hmem
    · exact hcurrent.2 output hmem
    · exact hreported output hmem
  have hnone : invariant state ∧ ∀ output ∈ ([] : List Output), outputProperty output :=
    ⟨hstart, by simp⟩
  simpa using machine.run_history_of_meets hextend hnone hmeets hrun

/-- Every run, with the inputs it reads and what it reports. -/
theorem run_trace {trace : State → List Input → List Output → Prop}
    (hstep : ∀ state input next passed reported outputs, trace state passed reported →
      machine.step state input = some (next, outputs) →
        trace next (passed ++ [input]) (reported ++ outputs)) {passed : List Input}
    (hstart : trace state passed reported) (hrun : machine.run state inputs = some (last, outputs)) :
    trace last (passed ++ inputs) (reported ++ outputs) := by
  induction inputs generalizing state passed reported outputs with
  | nil =>
    simp only [run_nil, Option.some.injEq, Prod.mk.injEq] at hrun
    obtain ⟨rfl, rfl⟩ := hrun
    rwa [List.append_nil, List.append_nil]
  | cons input rest ih =>
    obtain ⟨next, first, later, hfirst, hrest, rfl⟩ := (machine.run_cons_eq_some).mp hrun
    rw [← List.append_assoc, List.append_cons]
    exact ih (hstep state input next passed reported first hstart hfirst) hrest

/-- Every run. -/
theorem run_invariant (hstep : ∀ state input next outputs, invariant state →
      machine.step state input = some (next, outputs) →
        invariant next ∧ ∀ output ∈ outputs, outputProperty output) (hstart : invariant state)
    (hrun : machine.run state inputs = some (last, outputs)) :
    invariant last ∧ ∀ output ∈ outputs, outputProperty output :=
  machine.run_invariant_of_meets
    (fun current input next reported hcurrent _ hnext ↦
      hstep current input next reported hcurrent hnext)
    hstart (machine.meets_true state inputs) hrun

/-- The property at the start and after the first step. -/
theorem holdsAlong_cons :
    machine.HoldsAlong stateProperty outputProperty state (input :: rest) ↔
      stateProperty state ∧ ∀ next outputs, machine.step state input = some (next, outputs) →
        (∀ output ∈ outputs, outputProperty output) ∧
          machine.HoldsAlong stateProperty outputProperty next rest := by
  constructor
  · intro hholds
    refine ⟨(hholds [] List.nil_prefix state [] rfl).1, fun next outputs hstep ↦ ⟨?_, ?_⟩⟩
    · have hone : machine.run state [input] = some (next, outputs ++ []) :=
        (machine.run_cons_eq_some).mpr ⟨next, outputs, [], hstep, rfl, rfl⟩
      rw [List.append_nil] at hone
      exact (hholds [input] ⟨rest, rfl⟩ next outputs hone).2
    · rintro passed ⟨later, rfl⟩ last reported hrun
      have hlonger : machine.run state (input :: passed) = some (last, outputs ++ reported) :=
        (machine.run_cons_eq_some).mpr ⟨next, outputs, reported, hstep, hrun, rfl⟩
      obtain ⟨hlast, hreported⟩ := hholds (input :: passed) ⟨later, rfl⟩ last _ hlonger
      exact ⟨hlast, fun output houtput ↦ hreported output (List.mem_append_right _ houtput)⟩
  · rintro ⟨hstart, hnext⟩ passed hpassed last outputs hrun
    cases passed with
    | nil =>
      simp only [run_nil, Option.some.injEq, Prod.mk.injEq] at hrun
      obtain ⟨rfl, rfl⟩ := hrun
      exact ⟨hstart, by simp⟩
    | cons first others =>
      obtain ⟨later, hlater⟩ := hpassed
      simp only [List.cons_append, List.cons.injEq] at hlater
      obtain ⟨rfl, rfl⟩ := hlater
      obtain ⟨next, reported, more, hstep, hrest, rfl⟩ := (machine.run_cons_eq_some).mp hrun
      obtain ⟨hreported, halong⟩ := hnext next reported hstep
      obtain ⟨hlast, hmore⟩ := halong others (List.prefix_append others later) last more hrest
      refine ⟨hlast, fun output houtput ↦ ?_⟩
      rcases List.mem_append.mp houtput with hmem | hmem
      · exact hreported output hmem
      · exact hmore output hmem

/-- Runs of admissible inputs whose steps meet a condition. -/
theorem holdsAlong_of_meets {admissible : Input → Prop}
    (hproperty : ∀ state, invariant state → stateProperty state)
    (hkeep : ∀ state input next outputs, admissible input → invariant state →
      condition state input → machine.step state input = some (next, outputs) →
        invariant next ∧ ∀ output ∈ outputs, outputProperty output)
    (hadmissible : ∀ input ∈ inputs, admissible input) (hstart : invariant state)
    (hmeets : machine.Meets condition state inputs) :
    machine.HoldsAlong stateProperty outputProperty state inputs := by
  induction inputs generalizing state with
  | nil =>
    intro passed hpassed last reported hlast
    obtain rfl := List.prefix_nil.mp hpassed
    simp only [run_nil, Option.some.injEq, Prod.mk.injEq] at hlast
    obtain ⟨rfl, rfl⟩ := hlast
    exact ⟨hproperty state hstart, by simp⟩
  | cons input rest ih =>
    rw [holdsAlong_cons]
    refine ⟨hproperty state hstart, fun next outputs hstep ↦ ?_⟩
    obtain ⟨hnext, hreported⟩ :=
      hkeep state input next outputs (hadmissible input List.mem_cons_self) hstart hmeets.1 hstep
    exact ⟨hreported, ih (List.forall_mem_cons.mp hadmissible).2
      hnext (hmeets.2 next outputs hstep)⟩

/-- Runs characterised by the condition of their steps. -/
theorem holdsAlong_iff_meets {admissible : Input → Prop}
    (hproperty : ∀ state, invariant state → stateProperty state)
    (hkeep : ∀ state input next outputs, admissible input → invariant state →
      condition state input → machine.step state input = some (next, outputs) →
        invariant next ∧ ∀ output ∈ outputs, outputProperty output)
    (hspoil : ∀ state input next outputs, admissible input → invariant state →
      ¬ condition state input → machine.step state input = some (next, outputs) →
        ¬ (stateProperty next ∧ ∀ output ∈ outputs, outputProperty output))
    (hadmissible : ∀ input ∈ inputs, admissible input) (hstart : invariant state)
    (hrun : machine.run state inputs = some (last, outputs)) :
    machine.HoldsAlong stateProperty outputProperty state inputs ↔
      machine.Meets condition state inputs := by
  induction inputs generalizing state outputs with
  | nil =>
    refine iff_of_true (fun passed hpassed middle reported hmiddle ↦ ?_) trivial
    obtain rfl := List.prefix_nil.mp hpassed
    simp only [run_nil, Option.some.injEq, Prod.mk.injEq] at hmiddle
    obtain ⟨rfl, rfl⟩ := hmiddle
    exact ⟨hproperty state hstart, by simp⟩
  | cons input rest ih =>
    obtain ⟨next, first, later, hstep, hrest, rfl⟩ := (machine.run_cons_eq_some).mp hrun
    have hinput := hadmissible input List.mem_cons_self
    have honly : ∀ other outputs, machine.step state input = some (other, outputs) →
        next = other ∧ first = outputs := by
      intro other outputs hother
      rw [hstep] at hother
      simpa using hother
    have hlater : invariant next → (machine.HoldsAlong stateProperty outputProperty next rest ↔
        machine.Meets condition next rest) := fun hnext ↦
      ih (List.forall_mem_cons.mp hadmissible).2 hnext hrest
    rw [holdsAlong_cons]
    constructor
    · rintro ⟨-, hnext⟩
      obtain ⟨hreported, halong⟩ := hnext next first hstep
      have hcondition : condition state input := by
        by_contra hnot
        exact hspoil state input next first hinput hstart hnot hstep
          ⟨(halong [] List.nil_prefix next [] rfl).1, hreported⟩
      refine ⟨hcondition, fun other outputs hother ↦ ?_⟩
      obtain ⟨rfl, rfl⟩ := honly other outputs hother
      exact (hlater (hkeep state input next first hinput hstart hcondition hstep).1).mp halong
    · rintro ⟨hcondition, hmeets⟩
      refine ⟨hproperty state hstart, fun other outputs hother ↦ ?_⟩
      obtain ⟨rfl, rfl⟩ := honly other outputs hother
      obtain ⟨hnext, hreported⟩ := hkeep state input next first hinput hstart hcondition hstep
      exact ⟨hreported, (hlater hnext).mpr (hmeets next first hstep)⟩

end Machine
