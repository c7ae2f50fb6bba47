import Mathlib.GroupTheory.Perm.Cycle.Basic

/-!
# Cyclic sequences as permutations

A finite set of nodes which are arranged in cyclic sequences is a permutation of the nodes: a node
is sent to the one which follows it.

The operations on such sequences are products with a transposition. `remove` takes a node out of its
sequence and leaves it alone, `insertAfter` and `insertBefore` move a node next to another one, and
`exchange`, a conjugation, gives each of two nodes the position of the other one.
-/

namespace CyclicOrder

open Equiv

universe u

variable {Node : Type u}

section Operations

variable [DecidableEq Node]

def remove (sequences : Perm Node) (node : Node) : Perm Node :=
  swap node (sequences node) * sequences

/-- Moves a node right after another one. -/
def insertAfter (sequences : Perm Node) (node other : Node) : Perm Node :=
  remove sequences node * swap other node

/-- Moves a node right before another one. -/
def insertBefore (sequences : Perm Node) (node other : Node) : Perm Node :=
  swap other node * remove sequences node

def exchange (sequences : Perm Node) (node other : Node) : Perm Node :=
  swap node other * sequences * swap node other

variable (sequences : Perm Node) {node other : Node}

@[simp] theorem remove_self : remove sequences node node = node := by
  simp [remove]

/-- What precedes a removed node is followed by the next one. -/
theorem remove_apply_of_ne (hne : other ≠ node) :
    remove sequences node other =
      if sequences other = node then sequences node else sequences other := by
  rw [remove, Perm.mul_apply, swap_apply_def]
  have hinjective : sequences other ≠ sequences node := fun heq ↦ hne (sequences.injective heq)
  simp [hinjective]

@[simp] theorem remove_symm_self : (remove sequences node).symm node = node := by
  rw [symm_apply_eq, remove_self]

/-- What follows a removed node is preceded by the previous one. -/
theorem remove_symm_apply_of_ne (hne : other ≠ node) :
    (remove sequences node).symm other =
      if sequences.symm other = node then sequences.symm node else sequences.symm other := by
  rw [symm_apply_eq]
  split_ifs with hprevious
  · have hother : sequences node = other := by rw [← hprevious, apply_symm_apply]
    have hbefore : sequences.symm node ≠ node := by
      intro heq
      rw [symm_apply_eq, hother] at heq
      exact hne heq.symm
    rw [remove_apply_of_ne _ hbefore, apply_symm_apply, if_pos rfl, hother]
  · rw [remove_apply_of_ne _ hprevious, apply_symm_apply, if_neg hne]

/-- What follows the first node followed the second one. -/
theorem exchange_apply_left (hneighbour : sequences other ≠ node) :
    exchange sequences node other node =
      if sequences other = other then node else sequences other := by
  simp [exchange, swap_apply_def, hneighbour]

/-- What follows the second node followed the first one. -/
theorem exchange_apply_right (hneighbour : sequences node ≠ other) :
    exchange sequences node other other =
      if sequences node = node then other else sequences node := by
  simp [exchange, swap_apply_def, hneighbour]

/-- The other nodes keep what follows them. -/
theorem exchange_apply_of_ne {apart : Node} (hnode : apart ≠ node) (hother : apart ≠ other)
    (hnextNode : exchange sequences node other apart ≠ node)
    (hnextOther : exchange sequences node other apart ≠ other) :
    exchange sequences node other apart = sequences apart := by
  simp only [exchange, Perm.mul_apply, swap_apply_of_ne_of_ne hnode hother] at hnextNode hnextOther ⊢
  refine swap_apply_of_ne_of_ne (fun heq ↦ ?_) fun heq ↦ ?_
  · rw [heq, swap_apply_left] at hnextOther
    exact hnextOther rfl
  · rw [heq, swap_apply_right] at hnextNode
    exact hnextNode rfl

theorem symm_exchange :
    (exchange sequences node other).symm = exchange sequences.symm node other := by
  ext apart
  simp [exchange, symm_apply_eq]

@[simp] theorem ite_eq_apply :
    (if node = sequences.symm other then other else sequences node) = sequences node := by
  split_ifs with heq
  · rw [heq, apply_symm_apply]
  · rfl

/-- A backward pointer which is set again does not change. -/
@[simp] theorem ite_eq_symm_apply :
    (if node = sequences other then other else sequences.symm node) = sequences.symm node := by
  split_ifs with heq
  · rw [heq, symm_apply_apply]
  · rfl

end Operations

noncomputable def length (sequences : Perm Node) (node : Node) : ℕ :=
  {other | sequences.SameCycle node other}.ncard

variable [Finite Node] (sequences : Perm Node) (node : Node)

/-- The length is the number of steps of a closed walk. -/
theorem length_eq_minimalPeriod : length sequences node = Function.minimalPeriod sequences node := by
  have hperiodic : node ∈ Function.periodicPts sequences :=
    sequences.injective.mem_periodicPts node
  have hnodes : {other | sequences.SameCycle node other} =
      (fun steps ↦ sequences^[steps] node) '' Set.Iio (Function.minimalPeriod sequences node) := by
    ext other
    simp only [Set.mem_ofPred_eq, Set.mem_image, Set.mem_Iio]
    constructor
    · intro hsame
      obtain ⟨steps, hsteps⟩ := hsame.exists_nat_pow_eq
      refine ⟨steps % Function.minimalPeriod sequences node,
        Nat.mod_lt _ (Function.minimalPeriod_pos_of_mem_periodicPts hperiodic), ?_⟩
      rw [Function.iterate_mod_minimalPeriod_eq, ← hsteps, ← Perm.iterate_eq_pow]
    · rintro ⟨steps, -, hsteps⟩
      exact ⟨steps, by rw [zpow_natCast, ← hsteps, Perm.iterate_eq_pow]⟩
  rw [length, hnodes, Function.iterate_injOn_Iio_minimalPeriod.ncard_image,
    Set.ncard_eq_toFinset_card', Set.toFinset_Iio, Nat.card_Iio]

theorem length_pos : 0 < length sequences node := by
  rw [length_eq_minimalPeriod]
  exact Function.minimalPeriod_pos_of_mem_periodicPts (sequences.injective.mem_periodicPts node)

/-- A walk of the length of the sequence is back at its first node. -/
theorem iterate_length : sequences^[length sequences node] node = node := by
  rw [length_eq_minimalPeriod]
  exact Function.isPeriodicPt_minimalPeriod sequences node

theorem iterate_ne_self {steps : ℕ} (hpos : 0 < steps) (hlt : steps < length sequences node) :
    sequences^[steps] node ≠ node := by
  rw [length_eq_minimalPeriod] at hlt
  exact Function.not_isPeriodicPt_of_pos_of_lt_minimalPeriod hpos.ne' hlt

end CyclicOrder
