import Mathlib.Data.List.Basic

/-!
# Padding after each group of items

`interleave group pads pad index items` is the list of items with a run of `pads` copies of `pad`
inserted after each item whose position, counted from `index`, ends a group of `group` items.
-/

universe u

variable {Item : Type u}

/-- A run of padding is inserted after each group of items. -/
def interleave (group pads : ℕ) (pad : Item) : ℕ → List Item → List Item
  | _, [] => []
  | index, item :: rest =>
    item :: ((if (index + 1) % group = 0 then List.replicate pads pad else []) ++
      interleave group pads pad (index + 1) rest)

variable (group pads : ℕ) (pad : Item)

theorem interleave_append (index : ℕ) (front back : List Item) :
    interleave group pads pad index (front ++ back) = interleave group pads pad index front ++
        interleave group pads pad (index + front.length) back := by
  induction front generalizing index with
  | nil => rfl
  | cons item rest ih =>
    have hindex : index + 1 + rest.length = index + (item :: rest).length := by
      rw [List.length_cons]
      omega
    rw [List.cons_append, interleave, interleave, ih, hindex, List.cons_append, List.append_assoc]

theorem interleave_zero (index : ℕ) (items : List Item) :
    interleave 0 pads pad index items = items := by
  induction items generalizing index with
  | nil => rfl
  | cons item rest ih =>
    have hnever : ¬ (index + 1) % 0 = 0 := by
      rw [Nat.mod_zero]
      exact Nat.succ_ne_zero index
    rw [interleave, if_neg hnever, ih, List.nil_append]

variable {group}

/-- Items inside a group get padding at most once. -/
theorem interleave_of_length_le {index left : ℕ} (hend : (index + left) % group = 0)
    (hpos : 0 < left) (hgroup : left ≤ group) {items : List Item} (hlength : items.length ≤ left) :
    interleave group pads pad index items =
      items ++ if items.length = left then List.replicate pads pad else [] := by
  induction items generalizing index left with
  | nil => rw [interleave, if_neg (by rw [List.length_nil]; omega), List.append_nil]
  | cons item rest ih =>
    rw [List.length_cons] at hlength
    rw [interleave]
    by_cases hlast : left = 1
    · subst hlast
      have hrest : rest = [] := List.eq_nil_of_length_eq_zero (by omega)
      subst hrest
      rw [if_pos hend, interleave, List.append_nil, List.length_singleton, if_pos rfl,
        List.singleton_append]
    · have hinside : ¬ (index + 1) % group = 0 := by
        intro hboundary
        have hdvd : group ∣ left - 1 := by
          have hsum := Nat.dvd_of_mod_eq_zero hend
          have hone := Nat.dvd_of_mod_eq_zero hboundary
          have hdiff : left - 1 = index + left - (index + 1) := by omega
          rw [hdiff]
          exact Nat.dvd_sub hsum hone
        exact absurd (Nat.le_of_dvd (by omega) hdvd) (by omega)
      have hnext : (index + 1 + (left - 1)) % group = 0 := by
        rw [show index + 1 + (left - 1) = index + left by omega]
        exact hend
      rw [if_neg hinside, List.nil_append, ih hnext (by omega) (by omega) (by omega),
        List.cons_append, List.length_cons]
      congr 2
      exact if_congr (by omega) rfl rfl
