import Mathlib.Data.List.Forall2

/-!
# Greedy matching of a list in another one

A list is searched in another one, as a subsequence, up to a relation between elements.

`Ends` is the case where the last match is the last element, and `ends_iff` characterizes it without
the matching: the list is a subsequence of the other one, and not without its last element.
-/

namespace GreedyMatching

universe u v

variable {α : Type u} {β : Type v} {rel : β → α → Prop} {first : α} {others : List α}
  {target : β} {targets : List β}

/-- A list without its first element is a subsequence of the same lists. -/
theorem sublist_of_cons (hsublist : List.SublistForall₂ rel (target :: targets) others) :
    List.SublistForall₂ rel targets others := by
  induction others with
  | nil => cases hsublist
  | cons first others ih =>
    cases hsublist with
    | cons _ hrest => exact .cons_right hrest
    | cons_right hrest => exact .cons_right (ih hrest)

/-- Assumes: the first element is in relation. It is matched. -/
theorem sublist_cons_of_rel (hrel : rel target first) :
    List.SublistForall₂ rel (target :: targets) (first :: others) ↔
      List.SublistForall₂ rel targets others := by
  constructor
  · intro hsublist
    cases hsublist with
    | cons _ hrest => exact hrest
    | cons_right hrest => exact sublist_of_cons hrest
  · exact .cons hrel

/-- Assumes: the first element is not in relation. It is skipped. -/
theorem sublist_cons_of_not_rel (hrel : ¬rel target first) :
    List.SublistForall₂ rel (target :: targets) (first :: others) ↔
      List.SublistForall₂ rel (target :: targets) others := by
  constructor
  · intro hsublist
    cases hsublist with
    | cons hfirst _ => exact absurd hfirst hrel
    | cons_right hrest => exact hrest
  · exact .cons_right

theorem not_sublist_nil : ¬List.SublistForall₂ rel (target :: targets) ([] : List α) := by
  intro hsublist
  cases hsublist

variable (rel) in
/-- The last match is the last element. -/
def Ends : List α → List β → Prop
  | [], [] => True
  | [], _ :: _ => False
  | _ :: _, [] => False
  | first :: others, target :: targets =>
    (rel target first ∧ Ends others targets) ∨ (¬rel target first ∧ Ends others (target :: targets))

/-- The targets match, but not without the last element. -/
theorem ends_iff (list : List α) (targets : List β) :
    Ends rel list targets ↔ List.SublistForall₂ rel targets list ∧
      (list = [] ∨ ¬List.SublistForall₂ rel targets list.dropLast) := by
  induction list generalizing targets with
  | nil =>
    cases targets with
    | nil => exact iff_of_true trivial ⟨.nil, Or.inl rfl⟩
    | cons target targets => exact iff_of_false id fun hboth ↦ not_sublist_nil hboth.1
  | cons first others ih =>
    cases targets with
    | nil =>
      refine iff_of_false id fun hboth ↦ ?_
      rcases hboth.2 with hnil | hnot
      · exact absurd hnil (List.cons_ne_nil _ _)
      · exact hnot .nil
    | cons target targets =>
      by_cases hrel : rel target first
      · rw [Ends, sublist_cons_of_rel hrel, and_iff_right hrel, or_iff_left fun hnot ↦ hnot.1 hrel,
          ih targets]
        refine and_congr_right fun hsublist ↦ ?_
        rw [or_iff_right (List.cons_ne_nil first others)]
        cases others with
        | nil => exact iff_of_true (Or.inl rfl) not_sublist_nil
        | cons second others =>
          rw [or_iff_right (List.cons_ne_nil second others), List.dropLast_cons_cons,
            sublist_cons_of_rel hrel]
      · rw [Ends, sublist_cons_of_not_rel hrel, or_iff_right fun hfirst ↦ hrel hfirst.1,
          and_iff_right hrel, ih (target :: targets)]
        refine and_congr_right fun hsublist ↦ ?_
        rw [or_iff_right (List.cons_ne_nil first others)]
        cases others with
        | nil => exact absurd hsublist not_sublist_nil
        | cons second others =>
          rw [or_iff_right (List.cons_ne_nil second others), List.dropLast_cons_cons,
            sublist_cons_of_not_rel hrel]

end GreedyMatching
