import Mathlib.Algebra.BigOperators.Fin
import Mathlib.Algebra.Order.BigOperators.Group.Finset
import Mathlib.Algebra.Group.Fin.Basic
import Mathlib.Data.Nat.ModEq
import Mathlib.Tactic.Ring

/-!
# Stages around a circular buffer

A circular buffer of `capacity` slots is shared by at least two stages in a ring. Every item has a
number, item `k` sits in slot `k % capacity`, and each stage handles the items one after the other:
its position is the number of the next item it has to handle. Stage `0` produces the items, each
other stage handles an item after the stage before it, and the slot of an item is given back to
stage `0` once the last stage has handled it.

`limit` is the first item number a stage may not handle yet, so a stage holds the items from its
position to its limit. `Ordered` says that no stage is beyond its limit.
-/

namespace StageRing

variable {stages : ℕ} {capacity : ℕ} {position : Fin (stages + 2) → ℕ}

/-- A ring has stages. -/
local instance (priority := high) neZero_stages (stages : ℕ) : NeZero (stages + 2) := ⟨Nat.succ_ne_zero _⟩

/-- The first item that a stage may not handle yet. -/
def limit (capacity : ℕ) (position : Fin (stages + 2) → ℕ) (stage : Fin (stages + 2)) : ℕ :=
  position (stage - 1) + if stage = 0 then capacity else 0

/-- No stage is beyond its limit. -/
def Ordered (capacity : ℕ) (position : Fin (stages + 2) → ℕ) : Prop :=
  ∀ stage, position stage ≤ limit capacity position stage

def advance (position : Fin (stages + 2) → ℕ) (stage : Fin (stages + 2)) (count : ℕ) :
    Fin (stages + 2) → ℕ :=
  Function.update position stage (position stage + count)

variable (stage : Fin (stages + 2))

@[simp] theorem advance_self (count : ℕ) :
    advance position stage count stage = position stage + count :=
  Function.update_self ..

theorem advance_of_ne {stage other : Fin (stages + 2)} (hne : other ≠ stage) (count : ℕ) :
    advance position stage count other = position other :=
  Function.update_of_ne hne ..

theorem add_one_ne : stage + 1 ≠ stage := by
  intro heq
  simp at heq

/-- The limit of the next stage, one turn later. -/
theorem limit_add_one :
    limit capacity position (stage + 1) =
      position stage + if stage + 1 = 0 then capacity else 0 := by
  rw [limit, add_sub_cancel_right]

/-- When a stage advances, the limit of the next stage advances as much. -/
theorem limit_advance_add_one (count : ℕ) :
    limit capacity (advance position stage count) (stage + 1) =
      limit capacity position (stage + 1) + count := by
  rw [limit_add_one, limit_add_one, advance_self]
  ring

theorem limit_advance_of_ne {stage other : Fin (stages + 2)} (hne : other ≠ stage + 1) (count : ℕ) :
    limit capacity (advance position stage count) other = limit capacity position other := by
  have hprevious : other - 1 ≠ stage := fun heq ↦ hne (by rw [← heq, sub_add_cancel])
  rw [limit, limit, advance_of_ne hprevious]

/-- A stage advances by at most what it holds. -/
theorem Ordered.advance (hordered : Ordered capacity position) {stage : Fin (stages + 2)}
    {count : ℕ} (hcount : count ≤ limit capacity position stage - position stage) :
    Ordered capacity (advance position stage count) := by
  intro other
  by_cases hself : other = stage
  · subst hself
    rw [limit_advance_of_ne (add_one_ne other).symm, advance_self]
    have hbound := hordered other
    omega
  · rw [advance_of_ne hself]
    by_cases hnext : other = stage + 1
    · subst hnext
      rw [limit_advance_add_one]
      exact (hordered _).trans (Nat.le_add_right _ _)
    · rw [limit_advance_of_ne hnext]
      exact hordered other

/-- The items held add up to the capacity. -/
theorem Ordered.sum_held (hordered : Ordered capacity position) :
    ∑ stage, (limit capacity position stage - position stage) = capacity := by
  have hshift : ∑ stage : Fin (stages + 2), position (stage - 1) = ∑ stage, position stage :=
    Equiv.sum_comp (Equiv.subRight 1) position
  have hlimit : ∑ stage, limit capacity position stage = ∑ stage, position stage + capacity := by
    simp only [limit, Finset.sum_add_distrib, hshift, Finset.sum_ite_eq', Finset.mem_univ, if_true]
  rw [Finset.sum_tsub_distrib _ fun stage _ ↦ hordered stage, hlimit]
  omega

/-- The positions decrease along the ring. -/
theorem Ordered.antitone (hordered : Ordered capacity position) : Antitone position := by
  rw [Fin.antitone_iff_succ_le]
  intro stage
  have hbound := hordered stage.succ
  rwa [← Fin.coeSucc_eq_succ, limit_add_one, Fin.coeSucc_eq_succ, if_neg (Fin.succ_ne_zero stage),
    add_zero] at hbound

/-- A limit is at most one turn after the last position. -/
theorem Ordered.limit_le (hordered : Ordered capacity position) (stage : Fin (stages + 2)) :
    limit capacity position stage ≤ position (Fin.last (stages + 1)) + capacity := by
  have hzero : limit capacity position 0 = position (Fin.last (stages + 1)) + capacity := by
    rw [← Fin.last_add_one (stages + 1), limit_add_one, if_pos (Fin.last_add_one _)]
  by_cases hstage : stage = 0
  · rw [hstage, hzero]
  · rw [limit, if_neg hstage, add_zero]
    calc position (stage - 1) ≤ position 0 := hordered.antitone (Fin.zero_le _)
      _ ≤ limit capacity position 0 := hordered 0
      _ = position (Fin.last (stages + 1)) + capacity := hzero

/-- Close items in the same slot are equal. -/
theorem eq_of_mod_eq {start first second : ℕ} (hfirst : start ≤ first ∧ first < start + capacity)
    (hsecond : start ≤ second ∧ second < start + capacity)
    (hmod : first % capacity = second % capacity) : first = second := by
  wlog hle : first ≤ second generalizing first second
  · exact (this hsecond hfirst hmod.symm (by omega)).symm
  have hdvd : capacity ∣ second - first := (Nat.modEq_iff_dvd' hle).mp hmod
  have hzero := Nat.eq_zero_of_dvd_of_lt hdvd (by omega)
  omega

/-- Every slot holds exactly one item number of a turn. -/
theorem exists_mod_eq (start : ℕ) {slot : ℕ} (hslot : slot < capacity) :
    ∃ item, start ≤ item ∧ item < start + capacity ∧ item % capacity = slot := by
  have hdecompose := Nat.div_add_mod start capacity
  have hrest := Nat.mod_lt start (Nat.zero_lt_of_lt hslot)
  by_cases hbehind : start % capacity ≤ slot
  · refine ⟨capacity * (start / capacity) + slot, by omega, by omega, ?_⟩
    rw [Nat.mul_add_mod, Nat.mod_eq_of_lt hslot]
  · refine ⟨capacity * (start / capacity + 1) + slot, ?_, ?_, ?_⟩
    · rw [Nat.mul_add, Nat.mul_one]
      omega
    · rw [Nat.mul_add, Nat.mul_one]
      omega
    · rw [Nat.mul_add_mod, Nat.mod_eq_of_lt hslot]

/-- An item which is reached is held by a stage. -/
theorem Ordered.exists_stage {item : ℕ} (hlow : position (Fin.last (stages + 1)) ≤ item)
    (hhigh : item < position (Fin.last (stages + 1)) + capacity) :
    ∃ stage, position stage ≤ item ∧ item < limit capacity position stage := by
  classical
  have hexists : ∃ index, ∃ hindex : index < stages + 2, position ⟨index, hindex⟩ ≤ item :=
    ⟨stages + 1, by omega, hlow⟩
  obtain ⟨hindex, hreached⟩ := Nat.find_spec hexists
  refine ⟨⟨Nat.find hexists, hindex⟩, hreached, ?_⟩
  by_cases hzero : Nat.find hexists = 0
  · have hstage : (⟨Nat.find hexists, hindex⟩ : Fin (stages + 2)) = Fin.last (stages + 1) + 1 := by
      rw [Fin.last_add_one]
      ext
      exact hzero
    rw [hstage, limit_add_one, if_pos (Fin.last_add_one _)]
    exact hhigh
  · obtain ⟨before, hbefore⟩ := Nat.exists_eq_succ_of_ne_zero hzero
    have hsmall : before < stages + 1 := by omega
    have hstage : (⟨Nat.find hexists, hindex⟩ : Fin (stages + 2)) =
        Fin.castSucc ⟨before, hsmall⟩ + 1 := by
      rw [Fin.coeSucc_eq_succ]
      ext
      exact hbefore
    have hearlier := Nat.find_min hexists (m := before) (by omega)
    rw [hstage, limit_add_one]
    refine Nat.lt_add_right _ (not_le.mp fun hle ↦ hearlier ⟨by omega, hle⟩)

/-- Every slot of the buffer is held by exactly one stage. -/
theorem Ordered.existsUnique_stage (hordered : Ordered capacity position) {slot : ℕ}
    (hslot : slot < capacity) :
    ∃! stage, ∃ item, position stage ≤ item ∧ item < limit capacity position stage ∧
      item % capacity = slot := by
  obtain ⟨item, hlow, hhigh, hmod⟩ :=
    exists_mod_eq (position (Fin.last (stages + 1))) hslot
  obtain ⟨stage, hposition, hlimit⟩ := Ordered.exists_stage hlow hhigh
  refine ⟨stage, ⟨item, hposition, hlimit, hmod⟩, ?_⟩
  rintro other ⟨item', hposition', hlimit', hmod'⟩
  have hsame : item' = item := by
    refine eq_of_mod_eq ⟨?_, ?_⟩ ⟨hlow, hhigh⟩ (hmod'.trans hmod.symm)
    · exact (hordered.antitone (Fin.le_last other)).trans hposition'
    · exact hlimit'.trans_le (hordered.limit_le other)
  subst hsame
  have hbefore : ∀ first second : Fin (stages + 2), first < second →
      position first ≤ item' → item' < limit capacity position second → False := by
    intro first second hlt hreached hbelow
    have hne : second ≠ 0 := fun hzero ↦ absurd (hzero ▸ hlt) (Fin.not_lt_zero first)
    rw [limit, if_neg hne, add_zero] at hbelow
    have hle : first ≤ second - 1 := by
      rw [Fin.le_def, Fin.coe_sub_one, if_neg hne]
      have := Fin.lt_def.mp hlt
      omega
    have := hordered.antitone hle
    omega
  rcases lt_trichotomy other stage with hlt | heq | hgt
  · exact (hbefore other stage hlt hposition' hlimit).elim
  · exact heq
  · exact (hbefore stage other hgt hposition hlimit').elim

end StageRing
