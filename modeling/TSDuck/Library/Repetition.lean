import TSDuck.Library.Machine

/-!
# Repeated inputs

A machine is fed with a sequence of inputs, and with the same sequence in which some inputs are
repeated immediately. What can be seen of its outputs is the same when states are compared up to a
relation that the steps keep (`Congruence`), and when a copy of the input that has just been read
changes nothing (`IgnoresCopies`), at least where a condition holds.
-/

universe u v w x

namespace Machine

variable {State : Type u} {Input : Type v} {Output : Type w} {View : Type x}

/-- Each input is repeated, its copies being marked. -/
def repeated (sequence : List (Input × ℕ)) : List (Input × Bool) :=
  sequence.flatMap fun entry ↦ (entry.1, false) :: List.replicate entry.2 (entry.1, true)

def marked (machine : Machine State Input Output) : Machine State (Input × Bool) Output where
  step state input := machine.step state input.1

/-- A condition on the copies only. -/
def OnCopies (condition : State → Input → Prop) (state : State) (input : Input × Bool) : Prop :=
  input.2 = true → condition state input.1

/-- The steps keep a relation, and the same is seen. -/
def Congruence (machine : Machine State Input Output) (alike : State → State → Prop)
    (view : Output → Option View) : Prop :=
  ∀ {first second : State} {input : Input} {next next' : State} {outputs outputs' : List Output},
    alike first second → machine.step first input = some (next, outputs) →
      machine.step second input = some (next', outputs') →
        alike next next' ∧ outputs.filterMap view = outputs'.filterMap view

/-- A copy of the last input changes nothing. -/
def IgnoresCopies (machine : Machine State Input Output) (alike : State → State → Prop)
    (view : Output → Option View) (condition : State → Input → Prop) : Prop :=
  ∀ {before state next : State} {input : Input} {outputs outputs' : List Output},
    machine.step before input = some (state, outputs) → condition state input →
      machine.step state input = some (next, outputs') →
        alike state next ∧ outputs'.filterMap view = []

variable {machine : Machine State Input Output} {alike : State → State → Prop}
  {view : Output → Option View} {condition : State → Input → Prop}

/-- A run of copies changes nothing. -/
theorem run_copies (hequivalence : Equivalence alike)
    (hcopies : machine.IgnoresCopies alike view condition) {input : Input} {count : ℕ}
    {before state last : State} {reported outputs : List Output}
    (hbefore : machine.step before input = some (state, reported))
    (hmeets : machine.marked.Meets (OnCopies condition) state (List.replicate count (input, true)))
    (hrun : machine.marked.run state (List.replicate count (input, true)) = some (last, outputs)) :
    alike state last ∧ outputs.filterMap view = [] := by
  induction count generalizing before state reported outputs with
  | zero =>
    obtain ⟨rfl, rfl⟩ := Prod.mk.inj (Option.some.inj hrun)
    exact ⟨hequivalence.refl state, rfl⟩
  | succ count ih =>
    rw [List.replicate_succ] at hmeets hrun
    obtain ⟨next, first, later, hstep, hlater, rfl⟩ := (machine.marked.run_cons_eq_some).mp hrun
    obtain ⟨hcondition, hfollowing⟩ := hmeets
    obtain ⟨halike, hfirst⟩ := hcopies hbefore (hcondition rfl) hstep
    obtain ⟨hrest, hlast⟩ := ih hstep (hfollowing next first hstep) hlater
    refine ⟨hequivalence.trans halike hrest, ?_⟩
    rw [List.filterMap_append, hfirst, hlast, List.nil_append]

/-- A sequence and its copies end in equivalent states. -/
theorem run_repeated (hequivalence : Equivalence alike)
    (hcongruence : machine.Congruence alike view)
    (hcopies : machine.IgnoresCopies alike view condition) {sequence : List (Input × ℕ)}
    {first second last last' : State} {outputs outputs' : List Output} (halike : alike first second)
    (hmeets : machine.marked.Meets (OnCopies condition) second (repeated sequence))
    (hrun : machine.run first (sequence.map Prod.fst) = some (last, outputs))
    (hrun' : machine.marked.run second (repeated sequence) = some (last', outputs')) :
    alike last last' ∧ outputs.filterMap view = outputs'.filterMap view := by
  induction sequence generalizing first second outputs outputs' with
  | nil =>
    obtain ⟨rfl, rfl⟩ := Prod.mk.inj (Option.some.inj hrun)
    obtain ⟨rfl, rfl⟩ := Prod.mk.inj (Option.some.inj hrun')
    exact ⟨halike, rfl⟩
  | cons entry sequence ih =>
    obtain ⟨input, count⟩ := entry
    have hsplit : repeated ((input, count) :: sequence) =
        (input, false) :: (List.replicate count (input, true) ++ repeated sequence) := rfl
    rw [hsplit] at hmeets hrun'
    obtain ⟨next, reported, later, hstep, hlater, rfl⟩ := (machine.run_cons_eq_some).mp hrun
    obtain ⟨next', reported', later', hstep', hlater', rfl⟩ :=
      (machine.marked.run_cons_eq_some).mp hrun'
    obtain ⟨middle, copied, final, hmiddle, hfinal, rfl⟩ :=
      (machine.marked.run_append_eq_some).mp hlater'
    have hafter := hmeets.2 next' reported' hstep'
    obtain ⟨hnext, hfirst⟩ := hcongruence halike hstep hstep'
    obtain ⟨hunchanged, hcopied⟩ := run_copies hequivalence hcopies hstep'
      (hafter.restrict _ (List.prefix_append _ _)) hmiddle
    obtain ⟨hlast, hrest⟩ := ih (hequivalence.trans hnext hunchanged)
      (hafter.following _ hmiddle) hlater hfinal
    refine ⟨hlast, ?_⟩
    rw [List.filterMap_append, List.filterMap_append, List.filterMap_append, hfirst, hcopied,
      hrest, List.nil_append]

def seen (machine : Machine State Input Output) (view : Output → Option View) (state : State)
    (inputs : List Input) : List View :=
  match machine.run state inputs with
  | none => []
  | some (_, outputs) => outputs.filterMap view

/-- The marks of the inputs change nothing to a run. -/
theorem run_marked (state : State) (inputs : List (Input × Bool)) :
    machine.marked.run state inputs = machine.run state (inputs.map Prod.fst) := by
  induction inputs generalizing state with
  | nil => rfl
  | cons input inputs ih =>
    rw [List.map_cons]
    unfold run
    cases hstep : machine.step state input.1 with
    | none =>
      have hmarked : machine.marked.step state input = none := hstep
      rw [hmarked]
      rfl
    | some first =>
      have hmarked : machine.marked.step state input = some first := hstep
      rw [hmarked, Option.bind_some, Option.bind_some, ih]

/-- The same is seen with the copies. -/
theorem seen_repeated (htotal : ∀ state input, ∃ next outputs,
    machine.step state input = some (next, outputs)) (hequivalence : Equivalence alike)
    (hcongruence : machine.Congruence alike view)
    (hcopies : machine.IgnoresCopies alike view condition) (state : State)
    (sequence : List (Input × ℕ))
    (hmeets : machine.marked.Meets (OnCopies condition) state (repeated sequence)) :
    machine.seen view state (sequence.map Prod.fst) =
      machine.seen view state ((repeated sequence).map Prod.fst) := by
  obtain ⟨last, outputs, hrun⟩ := machine.exists_run htotal state (sequence.map Prod.fst)
  obtain ⟨last', outputs', hrun'⟩ := machine.exists_run htotal state
    ((repeated sequence).map Prod.fst)
  have hsame := run_repeated hequivalence hcongruence hcopies (hequivalence.refl state) hmeets hrun
    ((run_marked state (repeated sequence)).trans hrun')
  unfold seen
  rw [hrun, hrun']
  exact hsame.2

/-- The condition of repeated inputs holds along a run. -/
theorem meets_repeated {sequence : List (Input × ℕ)}
    (hcondition : ∀ entry ∈ sequence, 0 < entry.2 → ∀ state, condition state entry.1)
    (state : State) : machine.marked.Meets (OnCopies condition) state (repeated sequence) := by
  have hinputs : ∀ input ∈ repeated sequence, input.2 = true → ∀ current,
      condition current input.1 := by
    intro input hinput hcopy
    obtain ⟨entry, hentry, hmem⟩ := List.mem_flatMap.mp hinput
    rcases List.mem_cons.mp hmem with hfirst | hrest
    · rw [hfirst] at hcopy
      cases hcopy
    · obtain ⟨hcount, hinput⟩ := List.mem_replicate.mp hrest
      rw [hinput]
      exact hcondition entry hentry (Nat.pos_of_ne_zero hcount)
  generalize repeated sequence = inputs at hinputs
  induction inputs generalizing state with
  | nil => trivial
  | cons input inputs ih =>
    refine ⟨fun hcopy ↦ hinputs input List.mem_cons_self hcopy state, fun next _ _ ↦ ?_⟩
    exact ih next (List.forall_mem_cons.mp hinputs).2

end Machine
