import TSDuck.Scte35.SpliceInsert

/-!
# Sequences of PTS values

A PTS is a value of 33 bits of a clock which wraps up. The order of two values is decided by a
comparison, and by a large distance when the clock has wrapped up between them.

`isPast_of_sequencedPts` states when this decision is right on the circle of the values: a value
which is far behind another one is not ahead of it, after the next wrap up.
-/

namespace TSDuck

def ptsDtsScale : ℕ := 0x200000000

/-- The second value follows the first one after the clock has wrapped up. -/
def wrapUpPts (pts1 pts2 : ℕ) : Bool :=
  decide (pts2 < pts1) && decide (pts1 - pts2 > 0x00000001F0000000)

def sequencedPts (pts1 pts2 : ℕ) : Bool :=
  decide (pts1 ≤ pts2) || wrapUpPts pts1 pts2

/-- It is less than half of the circle behind. -/
def IsPast (pts now : ℕ) : Prop :=
  (now + ptsDtsScale - pts) % ptsDtsScale < ptsDtsScale / 2

instance decidableIsPast (pts now : ℕ) : Decidable (IsPast pts now) :=
  inferInstanceAs (Decidable ((now + ptsDtsScale - pts) % ptsDtsScale < _))

theorem sequencedPts_iff {pts1 pts2 : ℕ} :
    sequencedPts pts1 pts2 = true ↔ pts1 ≤ pts2 ∨ 0x1F0000000 < pts1 - pts2 := by
  rw [sequencedPts, wrapUpPts, Bool.or_eq_true, Bool.and_eq_true, decide_eq_true_eq,
    decide_eq_true_eq, decide_eq_true_eq]
  omega

theorem isPast_of_sequencedPts {pts now : ℕ} (hnear : now < pts + ptsDtsScale / 2)
    (hsequenced : sequencedPts pts now = true) : IsPast pts now := by
  unfold IsPast
  unfold ptsDtsScale at hnear ⊢
  rcases sequencedPts_iff.mp hsequenced with hle | hwrap
  · have hsum : now + 0x200000000 - pts = now - pts + 0x200000000 := by omega
    rw [hsum, Nat.add_mod_right, Nat.mod_eq_of_lt (by omega)]
    omega
  · rw [Nat.mod_eq_of_lt (by omega)]
    omega

theorem sequencedPts_of_ahead {pts ahead : ℕ} (hpts : pts < ptsDtsScale) (hahead : ahead ≤ 0x0FFFFFFF) :
    sequencedPts pts ((pts + ahead) % ptsDtsScale) = true := by
  unfold ptsDtsScale at hpts ⊢
  rw [sequencedPts_iff]
  rcases Nat.lt_or_ge (pts + ahead) 0x200000000 with hlt | hge
  · rw [Nat.mod_eq_of_lt hlt]
    omega
  · rw [Nat.mod_eq_sub_mod hge, Nat.mod_eq_of_lt (by omega)]
    omega

end TSDuck
