import TSDuck.Library.CyclicOrder
import TSDuck.Library.Machine

/-!
# Rings of nodes

A ring is a doubly linked list without a beginning or an end: each node keeps the addresses of its
two neighbours, and a node which is its own neighbour is alone.

The meaning of the calls is given by `CyclicOrder`: the rings are the sequences of a permutation of
the nodes. `RingMemory.Represents` says that the pointers are this permutation and its inverse.
`Rings.faithful_iff_never_swapsNeighbours` is the equivalence over all sequences of calls.

Scope. The nodes are a finite set of addresses, with decidable equality. The walk of `ringSize` is
given a number of steps, and ends when this number is at least the length of the ring.
-/

namespace TSDuck

universe u

/-- A node of a ring: the addresses of its neighbours. -/
structure RingNode (Node : Type u) where
  ringPrevious : Node
  ringNext : Node

abbrev RingMemory (Node : Type u) :=
  Node → RingNode Node

namespace RingMemory

variable {Node : Type u} [DecidableEq Node]

def new : RingMemory Node :=
  fun node ↦ { ringPrevious := node, ringNext := node }

def setNext (memory : RingMemory Node) (node value : Node) : RingMemory Node :=
  Function.update memory node { memory node with ringNext := value }

def setPrevious (memory : RingMemory Node) (node value : Node) : RingMemory Node :=
  Function.update memory node { memory node with ringPrevious := value }

def ringRemove (memory : RingMemory Node) (this : Node) : RingMemory Node :=
  if (memory this).ringNext ≠ this then
    let memory := memory.setPrevious (memory this).ringNext (memory this).ringPrevious
    let memory := memory.setNext (memory this).ringPrevious (memory this).ringNext
    (memory.setPrevious this this).setNext this this
  else memory

def ringInsertAfter (memory : RingMemory Node) (this o : Node) : RingMemory Node :=
  let memory := memory.ringRemove this
  let memory := memory.setPrevious this o
  let memory := memory.setNext this (memory o).ringNext
  let memory := memory.setPrevious (memory this).ringNext this
  memory.setNext (memory this).ringPrevious this

def ringInsertBefore (memory : RingMemory Node) (this o : Node) : RingMemory Node :=
  let memory := memory.ringRemove this
  let memory := memory.setNext this o
  let memory := memory.setPrevious this (memory o).ringPrevious
  let memory := memory.setPrevious (memory this).ringNext this
  memory.setNext (memory this).ringPrevious this

def ringSwap (memory : RingMemory Node) (this o : Node) : RingMemory Node :=
  if this ≠ o then
    let next := if (memory this).ringNext = this then o else (memory this).ringNext
    let previous := if (memory this).ringPrevious = this then o else (memory this).ringPrevious
    let memory := memory.setNext this (if (memory o).ringNext = o then this else (memory o).ringNext)
    let memory := memory.setPrevious this
      (if (memory o).ringPrevious = o then this else (memory o).ringPrevious)
    let memory := memory.setNext o next
    let memory := memory.setPrevious o previous
    let memory := memory.setPrevious (memory this).ringNext this
    let memory := memory.setNext (memory this).ringPrevious this
    let memory := memory.setPrevious (memory o).ringNext o
    memory.setNext (memory o).ringPrevious o
  else memory

/-- The loop of `ringSize` from a node on, `none` when the steps run out. -/
def ringSizeFrom (memory : RingMemory Node) (this : Node) : ℕ → Node → ℕ → Option ℕ
  | 0, _, _ => none
  | steps + 1, r, count =>
    if (memory r).ringNext ≠ this then ringSizeFrom memory this steps (memory r).ringNext (count + 1)
    else some count

/-- The size of a ring, `none` when the steps run out. -/
def ringSize (memory : RingMemory Node) (this : Node) (steps : ℕ) : Option ℕ :=
  memory.ringSizeFrom this steps this 1

/-- The pointers of the nodes are the given sequences, in both directions. -/
def Represents (memory : RingMemory Node) (sequences : Equiv.Perm Node) : Prop :=
  ∀ node, (memory node).ringNext = sequences node ∧ (memory node).ringPrevious = sequences.symm node

variable (memory : RingMemory Node) (node value other : Node)

@[simp] theorem ringNext_setNext :
    (memory.setNext node value other).ringNext =
      if other = node then value else (memory other).ringNext := by
  by_cases hother : other = node
  · subst hother
    simp [setNext]
  · simp [setNext, hother]

@[simp] theorem ringPrevious_setNext :
    (memory.setNext node value other).ringPrevious = (memory other).ringPrevious := by
  by_cases hother : other = node
  · subst hother
    simp [setNext]
  · simp [setNext, hother]

@[simp] theorem ringPrevious_setPrevious :
    (memory.setPrevious node value other).ringPrevious =
      if other = node then value else (memory other).ringPrevious := by
  by_cases hother : other = node
  · subst hother
    simp [setPrevious]
  · simp [setPrevious, hother]

@[simp] theorem ringNext_setPrevious :
    (memory.setPrevious node value other).ringNext = (memory other).ringNext := by
  by_cases hother : other = node
  · subst hother
    simp [setPrevious]
  · simp [setPrevious, hother]

variable {memory} {sequences : Equiv.Perm Node} {this o : Node}

namespace Represents

omit [DecidableEq Node] in
theorem ext (hnext : ∀ node, (memory node).ringNext = sequences node)
    (hprevious : ∀ node, (memory node).ringPrevious = sequences.symm node) :
    memory.Represents sequences :=
  fun node ↦ ⟨hnext node, hprevious node⟩

omit [DecidableEq Node] in
theorem ringNext (hmemory : memory.Represents sequences) (node : Node) :
    (memory node).ringNext = sequences node :=
  (hmemory node).1

omit [DecidableEq Node] in
theorem ringPrevious (hmemory : memory.Represents sequences) (node : Node) :
    (memory node).ringPrevious = sequences.symm node :=
  (hmemory node).2

theorem ringRemove (hmemory : memory.Represents sequences) (this : Node) :
    (memory.ringRemove this).Represents (CyclicOrder.remove sequences this) := by
  by_cases halone : sequences this = this
  · have hsame : CyclicOrder.remove sequences this = sequences := by
      rw [CyclicOrder.remove, halone, Equiv.swap_self]
      rfl
    rwa [RingMemory.ringRemove, hmemory.ringNext, if_neg (not_not.mpr halone), hsame]
  · have hbefore : this ≠ sequences.symm this := by
      intro heq
      exact halone (sequences.symm_apply_eq.mp heq.symm).symm
    refine Represents.ext (fun node ↦ ?_) fun node ↦ ?_
    · by_cases hnode : node = this
      · subst hnode
        simp [RingMemory.ringRemove, hmemory.ringNext, halone]
      · rw [CyclicOrder.remove_apply_of_ne sequences hnode]
        simp [RingMemory.ringRemove, hmemory.ringNext, hmemory.ringPrevious, halone, hnode,
          Equiv.eq_symm_apply, Ne.symm halone]
    · by_cases hnode : node = this
      · subst hnode
        simp [RingMemory.ringRemove, hmemory.ringNext, halone]
      · rw [CyclicOrder.remove_symm_apply_of_ne sequences hnode]
        simp [RingMemory.ringRemove, hmemory.ringNext, hmemory.ringPrevious, halone, hnode,
          Equiv.symm_apply_eq, Ne.symm halone]

theorem ringInsertAfter (hmemory : memory.Represents sequences) (this o : Node) :
    (memory.ringInsertAfter this o).Represents (CyclicOrder.insertAfter sequences this o) := by
  have hremoved := hmemory.ringRemove this
  have halone : CyclicOrder.remove sequences this this = this := CyclicOrder.remove_self sequences
  rw [RingMemory.ringInsertAfter, CyclicOrder.insertAfter]
  generalize memory.ringRemove this = removed at *
  generalize CyclicOrder.remove sequences this = others at *
  have hfollows : (if this = others o then this else o) = o := by
    rw [ite_eq_right_iff]
    exact fun heq ↦ others.injective (halone.trans heq)
  refine Represents.ext (fun node ↦ ?_) fun node ↦ ?_
  · simp [hremoved.ringNext, Equiv.swap_apply_def, apply_ite others, halone, hfollows]
  · simp [hremoved.ringNext, hremoved.ringPrevious, Equiv.Perm.mul_def, Equiv.swap_apply_def,
      Equiv.symm_apply_eq, halone]

theorem ringInsertBefore (hmemory : memory.Represents sequences) (this o : Node) :
    (memory.ringInsertBefore this o).Represents (CyclicOrder.insertBefore sequences this o) := by
  have hremoved := hmemory.ringRemove this
  have halone : CyclicOrder.remove sequences this this = this := CyclicOrder.remove_self sequences
  rw [RingMemory.ringInsertBefore, CyclicOrder.insertBefore]
  generalize memory.ringRemove this = removed at *
  generalize CyclicOrder.remove sequences this = others at *
  have hsymm : others.symm this = this := others.symm_apply_eq.mpr halone.symm
  have hprecedes : (if this = o then this else others.symm o) = others.symm o := by
    rw [ite_eq_right_iff]
    rintro rfl
    exact hsymm.symm
  have hself : ∀ node, others node = this ↔ node = this := fun node ↦ by
    rw [← others.eq_symm_apply, hsymm]
  refine Represents.ext (fun node ↦ ?_) fun node ↦ ?_
  · simp [hremoved.ringNext, hremoved.ringPrevious, Equiv.swap_apply_def, hprecedes,
      Equiv.eq_symm_apply, hself]
  · simp [hremoved.ringPrevious, Equiv.Perm.mul_def, Equiv.swap_apply_def, apply_ite others.symm,
      hsymm]

theorem ringSwap (hmemory : memory.Represents sequences)
    (hapart : this ≠ o → sequences this ≠ o ∧ sequences o ≠ this) :
    (memory.ringSwap this o).Represents (CyclicOrder.exchange sequences this o) := by
  by_cases hne : this = o
  · subst hne
    simp [RingMemory.ringSwap, CyclicOrder.exchange, ← Equiv.Perm.one_def, hmemory]
  obtain ⟨hafter, hbefore⟩ := hapart hne
  have hprevious : ∀ first second, sequences first ≠ second → sequences.symm second ≠ first :=
    fun first second hnot heq ↦ hnot (sequences.symm_apply_eq.mp heq).symm
  have hnextThis := CyclicOrder.exchange_apply_left sequences hbefore
  have hnextOther := CyclicOrder.exchange_apply_right sequences hafter
  have hpreviousThis := CyclicOrder.exchange_apply_left sequences.symm (hprevious _ _ hafter)
  have hpreviousOther := CyclicOrder.exchange_apply_right sequences.symm (hprevious _ _ hbefore)
  have hnext : ∀ node, node ≠ this → node ≠ o → _ := fun node ↦
    @CyclicOrder.exchange_apply_of_ne _ _ sequences this o node
  have hprev : ∀ node, node ≠ this → node ≠ o → _ := fun node ↦
    @CyclicOrder.exchange_apply_of_ne _ _ sequences.symm this o node
  rw [← CyclicOrder.symm_exchange] at hpreviousThis hpreviousOther hprev
  simp only [RingMemory.ringSwap, ne_eq, hne, not_false_iff, if_true, hmemory.ringNext,
    hmemory.ringPrevious, ← hnextThis, ← hnextOther, ← hpreviousOther]
  generalize CyclicOrder.exchange sequences this o = exchanged at *
  refine Represents.ext (fun node ↦ ?_) fun node ↦ ?_
  · simp only [ringNext_setNext, ringNext_setPrevious, ringPrevious_setNext, ringPrevious_setPrevious,
      hne, Ne.symm hne, hmemory.ringNext, hmemory.ringPrevious, ← hpreviousThis, if_true, if_false,
      CyclicOrder.ite_eq_apply, CyclicOrder.ite_eq_symm_apply]
    split_ifs with hprecedesOther hprecedesThis hother hthis
    · rw [hprecedesOther, Equiv.apply_symm_apply]
    · rw [hprecedesThis, Equiv.apply_symm_apply]
    · rw [hother]
    · rw [hthis]
    · exact (hnext node hthis hother (fun heq ↦ hprecedesThis (exchanged.eq_symm_apply.mpr heq))
        fun heq ↦ hprecedesOther (exchanged.eq_symm_apply.mpr heq)).symm
  · simp only [ringNext_setNext, ringNext_setPrevious, ringPrevious_setNext, ringPrevious_setPrevious,
      hne, Ne.symm hne, hmemory.ringNext, hmemory.ringPrevious, ← hpreviousThis, if_true, if_false,
      CyclicOrder.ite_eq_apply, CyclicOrder.ite_eq_symm_apply]
    split_ifs with hfollowsOther hfollowsThis hother hthis
    · rw [hfollowsOther, Equiv.symm_apply_apply]
    · rw [hfollowsThis, Equiv.symm_apply_apply]
    · rw [hother]
    · rw [hthis]
    · exact (hprev node hthis hother
        (fun heq ↦ hfollowsThis (exchanged.symm_apply_eq.mp heq))
        fun heq ↦ hfollowsOther (exchanged.symm_apply_eq.mp heq)).symm

end Represents

theorem ringNext_ringSwap_of_neighbours (hmemory : memory.Represents sequences) (hne : this ≠ o)
    (hneighbours : sequences this = o ∨ sequences o = this) :
    ((memory.ringSwap this o) this).ringNext = this := by
  simp only [RingMemory.ringSwap, ne_eq, hne, not_false_iff, if_true, if_false, hmemory.ringNext,
    hmemory.ringPrevious, ringNext_setNext, ringNext_setPrevious, ringPrevious_setNext,
    ringPrevious_setPrevious, Ne.symm hne]
  rcases hneighbours with hafter | hbefore
  · have hprevious : sequences.symm o = this := sequences.symm_apply_eq.mpr hafter.symm
    simp [hafter, hprevious, hne, Ne.symm hne]
  · have hprevious : sequences.symm this = o := sequences.symm_apply_eq.mpr hbefore.symm
    have halone : sequences.symm o ≠ o := by
      intro heq
      rw [sequences.symm_apply_eq, hbefore] at heq
      exact hne heq.symm
    simp [hbefore, hprevious, hne, Ne.symm hne]

theorem exchange_apply_ne_of_neighbours (hne : this ≠ o)
    (hneighbours : sequences this = o ∨ sequences o = this) :
    CyclicOrder.exchange sequences this o this ≠ this := by
  intro heq
  simp only [CyclicOrder.exchange, Equiv.Perm.mul_apply, Equiv.swap_apply_left] at heq
  rw [Equiv.swap_apply_eq_iff, Equiv.swap_apply_left] at heq
  rcases hneighbours with hafter | hbefore
  · exact hne (sequences.injective (hafter.trans heq.symm))
  · exact hne (hbefore.symm.trans heq)

theorem ringSizeFrom_eq [Finite Node] (hmemory : memory.Represents sequences) (this : Node)
    {walked remaining steps : ℕ}
    (hlength : walked + remaining + 1 = CyclicOrder.length sequences this)
    (hsteps : remaining < steps) (count : ℕ) :
    memory.ringSizeFrom this steps (sequences^[walked] this) count = some (count + remaining) := by
  induction remaining generalizing walked steps count with
  | zero =>
    obtain ⟨steps, rfl⟩ := Nat.exists_eq_succ_of_ne_zero (Nat.ne_of_gt hsteps)
    have hback : sequences (sequences^[walked] this) = this := by
      rw [← Function.iterate_succ_apply' sequences, show walked.succ = _ from hlength,
        CyclicOrder.iterate_length]
    simp [ringSizeFrom, hmemory.ringNext, hback]
  | succ remaining ih =>
    obtain ⟨steps, rfl⟩ := Nat.exists_eq_succ_of_ne_zero (Nat.ne_zero_of_lt hsteps)
    have haway : sequences (sequences^[walked] this) ≠ this := by
      rw [← Function.iterate_succ_apply' sequences]
      exact CyclicOrder.iterate_ne_self sequences this (Nat.succ_pos walked) (by omega)
    rw [ringSizeFrom, hmemory.ringNext, if_pos haway, ← Function.iterate_succ_apply' sequences,
      ih (by omega) (by omega), Nat.add_right_comm, Nat.add_assoc]

theorem ringSize_eq [Finite Node] (hmemory : memory.Represents sequences) (this : Node) {steps : ℕ}
    (hsteps : CyclicOrder.length sequences this ≤ steps) :
    memory.ringSize this steps = some (CyclicOrder.length sequences this) := by
  have hpos := CyclicOrder.length_pos sequences this
  have hlength : 0 + (CyclicOrder.length sequences this - 1) + 1 =
      CyclicOrder.length sequences this := by omega
  have hwalk := ringSizeFrom_eq hmemory this hlength
    (show CyclicOrder.length sequences this - 1 < steps by omega) 1
  rw [Function.iterate_zero_apply] at hwalk
  rw [ringSize, hwalk, Nat.add_sub_cancel' hpos]

end RingMemory

/-! ### Runs -/

inductive RingCall (Node : Type u)
  | insertAfter (this o : Node)
  | insertBefore (this o : Node)
  | remove (this : Node)
  | swap (this o : Node)
  deriving DecidableEq

namespace RingCall

variable {Node : Type u} [DecidableEq Node]

def perform (memory : RingMemory Node) : RingCall Node → RingMemory Node
  | insertAfter this o => memory.ringInsertAfter this o
  | insertBefore this o => memory.ringInsertBefore this o
  | remove this => memory.ringRemove this
  | swap this o => memory.ringSwap this o

def effect (sequences : Equiv.Perm Node) : RingCall Node → Equiv.Perm Node
  | insertAfter this o => CyclicOrder.insertAfter sequences this o
  | insertBefore this o => CyclicOrder.insertBefore sequences this o
  | remove this => CyclicOrder.remove sequences this
  | swap this o => CyclicOrder.exchange sequences this o

/-- The call swaps two distinct nodes, one of which follows the other one. -/
def SwapsNeighbours (memory : RingMemory Node) : RingCall Node → Prop
  | swap this o => this ≠ o ∧ ((memory this).ringNext = o ∨ (memory o).ringNext = this)
  | _ => False

end RingCall

/-- The nodes, and the sequences which the calls say. -/
structure Rings (Node : Type u) where
  memory : RingMemory Node
  sequences : Equiv.Perm Node

namespace Rings

variable {Node : Type u} [DecidableEq Node]

def new : Rings Node :=
  { memory := RingMemory.new, sequences := 1 }

def machine (Node : Type u) [DecidableEq Node] : Machine (Rings Node) (RingCall Node) Empty where
  step rings call :=
    some ({ memory := call.perform rings.memory, sequences := call.effect rings.sequences }, [])

/-- The pointers are the sequences, in both directions, and the size of every ring is right. -/
def Faithful (rings : Rings Node) : Prop :=
  rings.memory.Represents rings.sequences ∧
    ∀ this steps, CyclicOrder.length rings.sequences this ≤ steps →
      rings.memory.ringSize this steps = some (CyclicOrder.length rings.sequences this)

variable {call : RingCall Node} {memory : RingMemory Node} {sequences : Equiv.Perm Node}

theorem perform_represents (hmemory : memory.Represents sequences)
    (hcall : ¬ call.SwapsNeighbours memory) :
    (call.perform memory).Represents (call.effect sequences) := by
  cases call with
  | insertAfter this o => exact hmemory.ringInsertAfter this o
  | insertBefore this o => exact hmemory.ringInsertBefore this o
  | remove this => exact hmemory.ringRemove this
  | swap this o =>
    simp only [RingCall.SwapsNeighbours, hmemory.ringNext, not_and, not_or] at hcall
    exact hmemory.ringSwap hcall

theorem not_represents_of_swapsNeighbours (hmemory : memory.Represents sequences)
    (hcall : call.SwapsNeighbours memory) :
    ¬ (call.perform memory).Represents (call.effect sequences) := by
  cases call with
  | insertAfter | insertBefore | remove => exact hcall.elim
  | swap this o =>
    obtain ⟨hne, hneighbours⟩ := hcall
    simp only [hmemory.ringNext] at hneighbours
    intro hafter
    refine RingMemory.exchange_apply_ne_of_neighbours hne hneighbours ?_
    exact (hafter.ringNext this).symm.trans
      (RingMemory.ringNext_ringSwap_of_neighbours hmemory hne hneighbours)

/-- The pointers are inverse permutations which arrange the nodes as the calls say, and the sizes
are right, if and only if no call swaps two distinct neighbours. -/
theorem faithful_iff_never_swapsNeighbours [Finite Node] (calls : List (RingCall Node)) :
    (machine Node).HoldsAlong Faithful (fun _ ↦ True) new calls ↔
      (machine Node).Meets (fun rings call ↦ ¬ call.SwapsNeighbours rings.memory) new calls := by
  obtain ⟨last, outputs, hrun⟩ := (machine Node).exists_run (fun _ _ ↦ ⟨_, _, rfl⟩) new calls
  have hstart : (new : Rings Node).memory.Represents (new : Rings Node).sequences :=
    RingMemory.Represents.ext (fun _ ↦ rfl) fun _ ↦ rfl
  refine (machine Node).holdsAlong_iff_meets
    (fun rings (hrings : rings.memory.Represents rings.sequences) ↦
      ⟨hrings, fun this steps hsteps ↦ RingMemory.ringSize_eq hrings this hsteps⟩)
    ?_ ?_ (fun (call : RingCall Node) _ ↦ trivial) hstart hrun
  · rintro rings call next reported - hrings hcall hstep
    obtain ⟨rfl, rfl⟩ := Prod.mk.inj (Option.some.inj hstep)
    exact ⟨perform_represents hrings hcall, by simp⟩
  · rintro rings call next reported - hrings hcall hstep ⟨hnext, -⟩
    obtain ⟨rfl, rfl⟩ := Prod.mk.inj (Option.some.inj hstep)
    exact not_represents_of_swapsNeighbours hrings (not_not.mp hcall) hnext.1

/-- One node which is inserted after another one. -/
theorem faithful_of_one_insertion :
    (machine (Fin 2)).HoldsAlong Faithful (fun _ ↦ True) new [.insertAfter 0 1] := by
  refine (faithful_iff_never_swapsNeighbours [.insertAfter (0 : Fin 2) 1]).mpr ?_
  exact ⟨fun hswaps ↦ hswaps.elim, fun _ _ _ ↦ trivial⟩

/-- The two nodes of a ring are alone after their swap. -/
theorem not_faithful_swap_of_two_nodes :
    ¬ (machine (Fin 2)).HoldsAlong Faithful (fun _ ↦ True) new [.insertAfter 0 1, .swap 0 1] := by
  intro hholds
  have hnext := (hholds _ (List.prefix_refl _) _ _ rfl).1.1.ringNext 0
  revert hnext
  decide

end Rings

end TSDuck
