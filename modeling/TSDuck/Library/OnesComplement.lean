import Mathlib.Data.Nat.ModEq

/-!
# One's complement sums

A one's complement sum of words adds them as natural numbers, then adds the carries above the word
to the word below until there are none left (`addCarries`). The result is the remainder of the sum
by `radix - 1`, with `radix - 1` instead of zero for a sum that is not zero (`addCarries_eq`).

The checksum of the words is the complement of this result (`complement`). A protocol in which zero
means that there is no checksum transmits `radix - 1` in its place (`transmitted`).
-/

namespace OnesComplement

/-- Adds the carries above a word to the word, until there are none left. -/
def addCarries (radix sum : ℕ) : ℕ :=
  if 2 ≤ radix ∧ radix ≤ sum then addCarries radix (sum % radix + sum / radix) else sum
termination_by sum
decreasing_by
  rename_i hcarry
  have hquotient : 0 < sum / radix := Nat.div_pos hcarry.2 (by omega)
  have hdouble : 2 * (sum / radix) ≤ radix * (sum / radix) := Nat.mul_le_mul_right _ hcarry.1
  have hsum := Nat.div_add_mod sum radix
  omega

def complement (radix sum : ℕ) : ℕ :=
  radix - 1 - addCarries radix sum

/-- The complement of the sum, where zero means no checksum. -/
def transmitted (radix sum : ℕ) : ℕ :=
  if complement radix sum = 0 then radix - 1 else complement radix sum

variable {radix : ℕ}

theorem addCarries_lt (hradix : 2 ≤ radix) (sum : ℕ) : addCarries radix sum < radix := by
  fun_induction addCarries radix sum with
  | case1 sum hcarry ih => exact ih
  | case2 sum hcarry => omega

/-- Adding the carries keeps the remainder by the greatest word. -/
theorem addCarries_modEq (sum : ℕ) : addCarries radix sum ≡ sum [MOD radix - 1] := by
  fun_induction addCarries radix sum with
  | case1 sum hcarry ih =>
    have hradix : radix ≡ 1 [MOD radix - 1] :=
      ((Nat.modEq_iff_dvd' (by omega)).mpr dvd_rfl).symm
    calc
      addCarries radix (sum % radix + sum / radix)
        ≡ sum % radix + sum / radix [MOD radix - 1] := ih
      _ = sum % radix + 1 * (sum / radix) := by rw [Nat.one_mul]
      _ ≡ sum % radix + radix * (sum / radix) [MOD radix - 1] :=
        (hradix.symm.mul_right _).add_left _
      _ = sum := Nat.mod_add_div sum radix
  | case2 sum hcarry => exact Nat.ModEq.refl _

theorem addCarries_pos {sum : ℕ} (hsum : 0 < sum) : 0 < addCarries radix sum := by
  fun_induction addCarries radix sum with
  | case1 sum hcarry ih =>
    have hquotient : 0 < sum / radix := Nat.div_pos hcarry.2 (by omega)
    exact ih (by omega)
  | case2 sum hcarry => exact hsum

theorem eq_of_modEq {first second : ℕ} (hfirst : 0 < first ∧ first < radix)
    (hsecond : 0 < second ∧ second < radix) (hmod : first ≡ second [MOD radix - 1]) :
    first = second := by
  have hbelow : first - 1 ≡ second - 1 [MOD radix - 1] := by
    apply Nat.ModEq.add_right_cancel' 1
    rwa [Nat.sub_add_cancel hfirst.1, Nat.sub_add_cancel hsecond.1]
  have hequal := Nat.ModEq.eq_of_lt_of_lt hbelow (by omega) (by omega)
  omega

theorem addCarries_eq (hradix : 2 ≤ radix) {sum : ℕ} (hsum : 0 < sum) :
    addCarries radix sum = (sum - 1) % (radix - 1) + 1 := by
  have hrest : (sum - 1) % (radix - 1) < radix - 1 := Nat.mod_lt _ (by omega)
  apply eq_of_modEq ⟨addCarries_pos hsum, addCarries_lt hradix _⟩ ⟨by omega, by omega⟩
  calc
    addCarries radix sum ≡ sum [MOD radix - 1] := addCarries_modEq sum
    _ = sum - 1 + 1 := (Nat.sub_add_cancel hsum).symm
    _ ≡ (sum - 1) % (radix - 1) + 1 [MOD radix - 1] := (Nat.mod_modEq _ _).symm.add_right 1

theorem complement_eq (hradix : 2 ≤ radix) {sum : ℕ} (hsum : 0 < sum) :
    complement radix sum = radix - 1 - ((sum - 1) % (radix - 1) + 1) := by
  rw [complement, addCarries_eq hradix hsum]

/-- A sum and its complement give a multiple of the greatest word. -/
theorem add_complement_modEq (hradix : 2 ≤ radix) (sum : ℕ) :
    sum + complement radix sum ≡ 0 [MOD radix - 1] := by
  have hlt := addCarries_lt hradix sum
  calc
    sum + complement radix sum
      ≡ addCarries radix sum + complement radix sum [MOD radix - 1] :=
        (addCarries_modEq sum).symm.add_right _
    _ = radix - 1 := by unfold complement; omega
    _ ≡ 0 [MOD radix - 1] := Nat.modEq_zero_iff_dvd.mpr dvd_rfl

/-- The transmitted word brings the sum to zero. -/
theorem eq_transmitted_iff (hradix : 2 ≤ radix) {field sum : ℕ}
    (hfield : 0 < field ∧ field < radix) :
    field = transmitted radix sum ↔ sum + field ≡ 0 [MOD radix - 1] := by
  have hword : 0 < transmitted radix sum ∧ transmitted radix sum < radix := by
    unfold transmitted
    split_ifs with hzero
    · omega
    · unfold complement at hzero ⊢
      omega
  have hright : sum + transmitted radix sum ≡ 0 [MOD radix - 1] := by
    unfold transmitted
    split_ifs with hzero
    · have hsum := add_complement_modEq hradix sum
      rw [hzero, Nat.add_zero] at hsum
      exact hsum.add (Nat.modEq_zero_iff_dvd.mpr dvd_rfl)
    · exact add_complement_modEq hradix sum
  constructor
  · rintro rfl
    exact hright
  · intro hsum
    exact eq_of_modEq hfield hword (Nat.ModEq.add_left_cancel' sum (hsum.trans hright.symm))

end OnesComplement
