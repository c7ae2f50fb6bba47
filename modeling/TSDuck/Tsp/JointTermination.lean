import TSDuck.Library.Machine
import Mathlib.Algebra.BigOperators.Ring.Finset
import Mathlib.Algebra.Order.BigOperators.Group.Finset
import Mathlib.Data.Fintype.BigOperators
import Mathlib.Tactic.Ring

/-!
# Joint termination of the plugins of a processor

Several plugins of a packet processor may agree to terminate together: each one declares its
termination when its own condition is met, and the processing goes on up to the highest packet
number at which one of them has terminated.

`Accurate` says that the two shared counters are the numbers of users and of users which have not
terminated, hence that a packet limit is computed exactly when there are users and all of them have
terminated. A plugin which gives up joint termination is discounted from both counters, also when
its termination has been discounted before: this is `WithdrawsCompleted`.
`accurate_iff_never_withdrawsCompleted` states that the counters are accurate in the runs that never
meet this call and in no other.

Scope. Each call is one step, as the global mutex makes it. The counters are integers without bound.
-/

namespace TSDuck.Tsp

/-- The maximum value, which means that no limit applies. -/
def maxPacketCounter : ℕ := 2 ^ 64 - 1

/-- What a plugin executor keeps for joint termination. -/
structure JointPlugin where
  totalPackets : ℕ := 0
  useJt : Bool := false
  jtCompleted : Bool := false
  deriving DecidableEq

/-- The plugins of a processor, with the counters which they share. -/
structure JointTermination (count : ℕ) where
  plugin : Fin count → JointPlugin
  jtUsers : ℤ
  jtRemaining : ℤ
  jtHightestPkt : ℕ

namespace JointTermination

variable {count : ℕ}

def new (count : ℕ) : JointTermination count :=
  { plugin := fun _ ↦ {}, jtUsers := 0, jtRemaining := 0, jtHightestPkt := 0 }

/-- A call of one plugin. -/
inductive Call (count : ℕ)
  | useJointTermination (index : Fin count) (on : Bool)
  | jointTerminate (index : Fin count)
  | addTotalPackets (index : Fin count) (incr : ℕ)

def useJointTermination (state : JointTermination count) (index : Fin count) (on : Bool) :
    JointTermination count :=
  let plugin := state.plugin index
  if on = true ∧ plugin.useJt = false then
    { state with
      plugin := Function.update state.plugin index { plugin with useJt := true }
      jtUsers := state.jtUsers + 1
      jtRemaining := state.jtRemaining + 1 }
  else if on = false ∧ plugin.useJt = true then
    { state with
      plugin := Function.update state.plugin index { plugin with useJt := false }
      jtUsers := state.jtUsers - 1
      jtRemaining := state.jtRemaining - 1 }
  else state

/-- The plugin uses joint termination and has not terminated yet. -/
def Declares (state : JointTermination count) (index : Fin count) : Prop :=
  (state.plugin index).useJt = true ∧ (state.plugin index).jtCompleted = false

instance (state : JointTermination count) (index : Fin count) : Decidable (state.Declares index) :=
  inferInstanceAs (Decidable (_ ∧ _))

def jointTerminate (state : JointTermination count) (index : Fin count) :
    JointTermination count × List ℕ :=
  let plugin := state.plugin index
  if state.Declares index then
    ({ state with
        plugin := Function.update state.plugin index { plugin with jtCompleted := true }
        jtRemaining := state.jtRemaining - 1
        jtHightestPkt :=
          if plugin.totalPackets > state.jtHightestPkt then plugin.totalPackets
          else state.jtHightestPkt },
      [plugin.totalPackets])
  else (state, [])

def addTotalPackets (state : JointTermination count) (index : Fin count) (incr : ℕ) :
    JointTermination count :=
  let plugin := state.plugin index
  { state with
    plugin := Function.update state.plugin index
      { plugin with totalPackets := (plugin.totalPackets + incr) % 2 ^ 64 } }

/-- It is not ignored, it has users and none of them remains. -/
def limitApplies (state : JointTermination count) (ignoreJt : Bool) : Bool :=
  !ignoreJt && decide (0 < state.jtUsers) && decide (state.jtRemaining ≤ 0)

def totalPacketsBeforeJointTermination (state : JointTermination count) (ignoreJt : Bool) : ℕ :=
  if state.limitApplies ignoreJt then state.jtHightestPkt else maxPacketCounter

/-- One call, which may report a packet number. -/
def call (state : JointTermination count) : Call count → JointTermination count × List ℕ
  | .useJointTermination index on => (state.useJointTermination index on, [])
  | .jointTerminate index => state.jointTerminate index
  | .addTotalPackets index incr => (state.addTotalPackets index incr, [])

def machine (count : ℕ) : Machine (JointTermination count) (Call count) ℕ where
  step state input := some (state.call input)

/-! ### What the counters stand for -/

def countPlugins (plugin : Fin count → JointPlugin) (property : JointPlugin → Bool) : ℤ :=
  ∑ index, if property (plugin index) then 1 else 0

/-- The plugin has not declared its termination. -/
def JointPlugin.remains (plugin : JointPlugin) : Bool :=
  plugin.useJt && !plugin.jtCompleted

/-- The counters are the number of users and of remaining ones, and a limit is computed exactly when
there are users and all of them have terminated. -/
structure Accurate (state : JointTermination count) : Prop where
  users_eq : state.jtUsers = countPlugins state.plugin (·.useJt)
  remaining_eq : state.jtRemaining = countPlugins state.plugin JointPlugin.remains
  limitApplies_iff : state.limitApplies false = true ↔
    (∃ index, (state.plugin index).useJt = true) ∧
      ∀ index, (state.plugin index).useJt = true → (state.plugin index).jtCompleted = true

/-- A terminated plugin gives up joint termination. -/
def WithdrawsCompleted (state : JointTermination count) : Call count → Prop
  | .useJointTermination index false =>
    (state.plugin index).useJt = true ∧ (state.plugin index).jtCompleted = true
  | _ => False

variable (plugin : Fin count → JointPlugin)

theorem countPlugins_update (property : JointPlugin → Bool) (index : Fin count) (changed : JointPlugin) :
    countPlugins (Function.update plugin index changed) property =
      countPlugins plugin property - (if property (plugin index) then 1 else 0) +
        (if property changed then 1 else 0) := by
  have hothers : ∀ other ∈ Finset.univ.erase index,
      (if property (Function.update plugin index changed other) then (1 : ℤ) else 0) =
        if property (plugin other) then 1 else 0 := by
    intro other hother
    rw [Function.update_of_ne (Finset.ne_of_mem_erase hother)]
  unfold countPlugins
  rw [← Finset.add_sum_erase _ _ (Finset.mem_univ index),
    ← Finset.add_sum_erase Finset.univ (fun other ↦ if property (plugin other) then (1 : ℤ) else 0)
      (Finset.mem_univ index),
    Finset.sum_congr rfl hothers, Function.update_self]
  ring

theorem countPlugins_pos_iff (property : JointPlugin → Bool) :
    0 < countPlugins plugin property ↔ ∃ index, property (plugin index) = true := by
  unfold countPlugins
  have hnonneg : ∀ index ∈ Finset.univ, (0 : ℤ) ≤ if property (plugin index) then 1 else 0 := by
    intro index _
    split_ifs <;> decide
  rw [Finset.sum_pos_iff_of_nonneg hnonneg]
  constructor
  · rintro ⟨index, -, hpositive⟩
    refine ⟨index, ?_⟩
    by_contra hnot
    rw [if_neg hnot] at hpositive
    exact lt_irrefl _ hpositive
  · rintro ⟨index, hindex⟩
    exact ⟨index, Finset.mem_univ index, by rw [if_pos hindex]; decide⟩

theorem countPlugins_nonpos_iff (property : JointPlugin → Bool) :
    countPlugins plugin property ≤ 0 ↔ ∀ index, property (plugin index) = false := by
  rw [← not_lt, countPlugins_pos_iff]
  simp

variable {state : JointTermination count}

theorem accurate_of_counts (husers : state.jtUsers = countPlugins state.plugin (·.useJt))
    (hremaining : state.jtRemaining = countPlugins state.plugin JointPlugin.remains) :
    state.Accurate := by
  refine ⟨husers, hremaining, ?_⟩
  unfold limitApplies
  rw [Bool.not_false, Bool.true_and, Bool.and_eq_true, decide_eq_true_iff, decide_eq_true_iff,
    husers, hremaining, countPlugins_pos_iff, countPlugins_nonpos_iff]
  simp only [JointPlugin.remains, Bool.and_eq_false_iff, Bool.not_eq_false']
  refine and_congr_right fun _ ↦ forall_congr' fun index ↦ ?_
  cases (state.plugin index).useJt <;> simp

/-- The counters are accurate, and nobody gave up. -/
structure Settled (state : JointTermination count) : Prop extends Accurate state where
  useJt_of_completed :
    ∀ index, (state.plugin index).jtCompleted = true → (state.plugin index).useJt = true

theorem settled_new (count : ℕ) : (new count).Settled := by
  have hnone : ∀ property : JointPlugin → Bool, property {} = false →
      countPlugins (new count).plugin property = 0 := by
    intro property hproperty
    simp [countPlugins, new, hproperty]
  refine ⟨accurate_of_counts ?_ ?_, fun index hcompleted ↦ absurd hcompleted Bool.false_ne_true⟩
  · rw [hnone _ rfl]
    rfl
  · rw [hnone _ rfl]
    rfl

theorem Settled.update_useJt (hsettled : state.Settled) {index : Fin count} {changed : JointPlugin}
    (hchanged : changed.jtCompleted = true → changed.useJt = true) (other : Fin count)
    (hcompleted : (Function.update state.plugin index changed other).jtCompleted = true) :
    (Function.update state.plugin index changed other).useJt = true := by
  by_cases hsame : other = index
  · subst hsame
    rw [Function.update_self] at hcompleted ⊢
    exact hchanged hcompleted
  · rw [Function.update_of_ne hsame] at hcompleted ⊢
    exact hsettled.useJt_of_completed other hcompleted

theorem Settled.useJointTermination (hsettled : state.Settled) (index : Fin count) (on : Bool)
    (hcondition : ¬ state.WithdrawsCompleted (.useJointTermination index on)) :
    (state.useJointTermination index on).Settled := by
  unfold JointTermination.useJointTermination
  dsimp only
  split_ifs with hstarts hstops
  · obtain ⟨-, hunused⟩ := hstarts
    have hpending : (state.plugin index).jtCompleted = false := by
      by_contra hcompleted
      rw [Bool.not_eq_false] at hcompleted
      rw [hsettled.useJt_of_completed index hcompleted] at hunused
      exact Bool.noConfusion hunused
    refine ⟨accurate_of_counts ?_ ?_, hsettled.update_useJt fun _ ↦ rfl⟩
    · show state.jtUsers + 1 = _
      rw [countPlugins_update, hunused, hsettled.users_eq]
      simp
    · show state.jtRemaining + 1 = _
      rw [countPlugins_update, hsettled.remaining_eq]
      simp [JointPlugin.remains, hunused, hpending]
  · obtain ⟨rfl, hused⟩ := hstops
    have hpending : (state.plugin index).jtCompleted = false := by
      by_contra hcompleted
      exact hcondition ⟨hused, Bool.not_eq_false _ ▸ hcompleted⟩
    refine ⟨accurate_of_counts ?_ ?_, hsettled.update_useJt fun hcompleted ↦ ?_⟩
    · show state.jtUsers - 1 = _
      rw [countPlugins_update, hused, hsettled.users_eq]
      simp
    · show state.jtRemaining - 1 = _
      rw [countPlugins_update, hsettled.remaining_eq]
      simp [JointPlugin.remains, hused, hpending]
    · rw [hpending] at hcompleted
      exact Bool.noConfusion hcompleted
  · exact hsettled

theorem Settled.jointTerminate (hsettled : state.Settled) (index : Fin count) :
    (state.jointTerminate index).1.Settled := by
  unfold JointTermination.jointTerminate
  split_ifs with hdeclares
  · obtain ⟨hused, hpending⟩ := hdeclares
    refine ⟨accurate_of_counts ?_ ?_, hsettled.update_useJt fun _ ↦ hused⟩
    · show state.jtUsers = _
      rw [countPlugins_update, hsettled.users_eq]
      simp
    · show state.jtRemaining - 1 = _
      rw [countPlugins_update, hsettled.remaining_eq]
      simp [JointPlugin.remains, hused, hpending]
  · exact hsettled

theorem Settled.addTotalPackets (hsettled : state.Settled) (index : Fin count) (incr : ℕ) :
    (state.addTotalPackets index incr).Settled := by
  refine ⟨accurate_of_counts ?_ ?_, hsettled.update_useJt (hsettled.useJt_of_completed index)⟩
  · show state.jtUsers = _
    rw [JointTermination.addTotalPackets, countPlugins_update, hsettled.users_eq]
    simp
  · show state.jtRemaining = _
    rw [JointTermination.addTotalPackets, countPlugins_update, hsettled.remaining_eq]
    simp [JointPlugin.remains]

theorem Settled.call (hsettled : state.Settled) {input : Call count}
    (hcondition : ¬ state.WithdrawsCompleted input) :
    (state.call input).1.Settled := by
  cases input with
  | useJointTermination index on => exact hsettled.useJointTermination index on hcondition
  | jointTerminate index => exact hsettled.jointTerminate index
  | addTotalPackets index incr => exact hsettled.addTotalPackets index incr

theorem WithdrawsCompleted.not_accurate (hsettled : state.Settled) {input : Call count}
    (hwithdraws : state.WithdrawsCompleted input) :
    ¬ (state.call input).1.Accurate := by
  match input, hwithdraws with
  | .useJointTermination index false, ⟨hused, hcompleted⟩ =>
    intro haccurate
    have hremaining := haccurate.remaining_eq
    simp only [JointTermination.call, JointTermination.useJointTermination, hused,
      Bool.false_eq_true, false_and, if_false, true_and, if_true] at hremaining
    rw [countPlugins_update, hsettled.remaining_eq] at hremaining
    simp [JointPlugin.remains, hcompleted] at hremaining

/-- For any number of plugins without joint termination at first, the counters are accurate, and the
limit is computed when the last user has terminated, if and only if no terminated plugin gives up
joint termination. -/
theorem accurate_iff_never_withdrawsCompleted (count : ℕ) (calls : List (Call count)) :
    (machine count).HoldsAlong Accurate (fun _ ↦ True) (new count) calls ↔
      (machine count).Meets (fun state input ↦ ¬ state.WithdrawsCompleted input)
        (new count) calls := by
  obtain ⟨last, outputs, hrun⟩ :=
    (machine count).exists_run (fun state input ↦ ⟨_, _, rfl⟩) (new count) calls
  refine (machine count).holdsAlong_iff_meets
    (fun state (hstate : state.Settled) ↦ hstate.toAccurate) ?_ ?_ (fun _ _ ↦ trivial)
    (settled_new count) hrun
  · intro state input next outputs _ hstate hnever hstep
    obtain ⟨rfl, rfl⟩ := Prod.mk.inj (Option.some.inj hstep)
    exact ⟨hstate.call hnever, fun _ _ ↦ trivial⟩
  · rintro state input next outputs _ hstate hwithdraws hstep ⟨haccurate, -⟩
    obtain ⟨rfl, rfl⟩ := Prod.mk.inj (Option.some.inj hstep)
    exact (not_not.mp hwithdraws).not_accurate hstate haccurate

/-- A plugin terminates and gives up: the number of remaining users is negative. -/
theorem withdrawal_not_accurate :
    ¬ (machine 1).HoldsAlong Accurate (fun _ ↦ True) (new 1)
      [.useJointTermination 0 true, .jointTerminate 0, .useJointTermination 0 false] := by
  intro hholds
  have hlast := (hholds _ (List.prefix_refl _) _ _ rfl).1.remaining_eq
  revert hlast
  decide

end JointTermination

end TSDuck.Tsp
