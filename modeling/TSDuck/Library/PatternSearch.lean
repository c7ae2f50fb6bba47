import Mathlib.Data.List.Infix
import Mathlib.Data.Nat.Find

/-!
# The first occurrence of a pattern

`locate pattern data` is the position of the first occurrence of a pattern in a list, if there is one.
A search which starts further in the list is a search in what remains of it (`occursAt_drop`).
-/

namespace TSDuck

section PatternSearch

variable {α : Type*}

/-- A pattern is in a list at a position. -/
def OccursAt (pattern data : List α) (index : ℕ) : Prop :=
  pattern <+: data.drop index

instance [DecidableEq α] (pattern data : List α) (index : ℕ) :
    Decidable (OccursAt pattern data index) :=
  inferInstanceAs (Decidable (_ <+: _))

def locate [DecidableEq α] (pattern : List α) : List α → Option ℕ
  | [] => none
  | first :: rest =>
    if pattern.isPrefixOf (first :: rest) then some 0 else (locate pattern rest).map (· + 1)

variable {pattern data : List α}

theorem OccursAt.length_le {index : ℕ} (hoccurs : OccursAt pattern data index)
    (hpattern : pattern ≠ []) : index + pattern.length ≤ data.length := by
  have hlength := List.IsPrefix.length_le hoccurs
  rw [List.length_drop] at hlength
  have hpositive := List.length_pos_iff.mpr hpattern
  omega

/-- The elements of an occurrence are those of the pattern. -/
theorem OccursAt.getElem?_eq {index : ℕ} (hoccurs : OccursAt pattern data index) {position : ℕ}
    (hposition : position < pattern.length) : data[index + position]? = pattern[position]? := by
  rw [← List.getElem?_drop]
  obtain ⟨after, hafter⟩ := hoccurs
  rw [← hafter, List.getElem?_append_left hposition]

theorem occursAt_drop (start index : ℕ) :
    OccursAt pattern (data.drop start) index ↔ OccursAt pattern data (start + index) := by
  rw [OccursAt, OccursAt, List.drop_drop]

/-- A pattern which is not empty is not in an empty list. -/
theorem not_occursAt_nil (hpattern : pattern ≠ []) (index : ℕ) :
    ¬ OccursAt pattern ([] : List α) index := by
  intro hoccurs
  have hlength := hoccurs.length_le hpattern
  have hpositive := List.length_pos_iff.mpr hpattern
  rw [List.length_nil] at hlength
  omega

variable [DecidableEq α]

/-- The pattern is at the position which is located, and not before. -/
theorem locate_eq_some_iff (hpattern : pattern ≠ []) {index : ℕ} :
    locate pattern data = some index ↔
      OccursAt pattern data index ∧ ∀ before < index, ¬ OccursAt pattern data before := by
  induction data generalizing index with
  | nil =>
    exact iff_of_false (by simp [locate]) fun h ↦ not_occursAt_nil hpattern index h.1
  | cons first rest ih =>
    unfold locate
    split_ifs with hfirst
    · have hzero : OccursAt pattern (first :: rest) 0 := List.isPrefixOf_iff_prefix.mp hfirst
      constructor
      · intro hindex
        obtain rfl := Option.some.inj hindex
        exact ⟨hzero, fun before hbefore ↦ absurd hbefore (Nat.not_lt_zero before)⟩
      · rintro ⟨-, hbefore⟩
        rcases Nat.eq_zero_or_pos index with rfl | hpositive
        · rfl
        · exact absurd hzero (hbefore 0 hpositive)
    · have hzero : ¬ OccursAt pattern (first :: rest) 0 := fun h ↦
        hfirst (List.isPrefixOf_iff_prefix.mpr h)
      rw [Option.map_eq_some_iff]
      constructor
      · rintro ⟨position, hposition, rfl⟩
        obtain ⟨hoccurs, hbefore⟩ := ih.mp hposition
        refine ⟨hoccurs, fun before hlt ↦ ?_⟩
        cases before with
        | zero => exact hzero
        | succ before => exact hbefore before (Nat.lt_of_succ_lt_succ hlt)
      · rintro ⟨hoccurs, hbefore⟩
        cases index with
        | zero => exact absurd hoccurs hzero
        | succ index =>
          exact ⟨index, ih.mpr ⟨hoccurs, fun before hlt ↦
            hbefore (before + 1) (Nat.succ_lt_succ hlt)⟩, rfl⟩

/-- Nothing is located in a list without the pattern. -/
theorem locate_eq_none_iff (hpattern : pattern ≠ []) :
    locate pattern data = none ↔ ∀ index, ¬ OccursAt pattern data index := by
  constructor
  · intro hnone index hoccurs
    classical
    obtain ⟨first, hfirst, hbefore⟩ : ∃ first, OccursAt pattern data first ∧
        ∀ before < first, ¬ OccursAt pattern data before :=
      ⟨Nat.find ⟨index, hoccurs⟩, Nat.find_spec ⟨index, hoccurs⟩,
        fun before hlt ↦ Nat.find_min ⟨index, hoccurs⟩ hlt⟩
    rw [(locate_eq_some_iff hpattern).mpr ⟨hfirst, hbefore⟩] at hnone
    cases hnone
  · intro hnever
    cases hlocate : locate pattern data with
    | none => rfl
    | some index => exact absurd ((locate_eq_some_iff hpattern).mp hlocate).1 (hnever index)

/-- The pattern is at this position and not before. -/
theorem locate_drop_eq_some (hpattern : pattern ≠ []) {start index : ℕ}
    (hlocate : locate pattern (data.drop start) = some index) :
    OccursAt pattern data (start + index) ∧
      ∀ before, start ≤ before → before < start + index → ¬ OccursAt pattern data before := by
  obtain ⟨hoccurs, hbefore⟩ := (locate_eq_some_iff hpattern).mp hlocate
  refine ⟨(occursAt_drop start index).mp hoccurs, fun before hstart hlt ↦ ?_⟩
  obtain ⟨position, rfl⟩ := Nat.exists_eq_add_of_le hstart
  exact fun h ↦ hbefore position (by omega) ((occursAt_drop start position).mpr h)

/-- The pattern is not after a start from which nothing is located. -/
theorem locate_drop_eq_none (hpattern : pattern ≠ []) {start : ℕ}
    (hlocate : locate pattern (data.drop start) = none) :
    ∀ index, start ≤ index → ¬ OccursAt pattern data index := by
  intro index hstart hoccurs
  obtain ⟨position, rfl⟩ := Nat.exists_eq_add_of_le hstart
  exact (locate_eq_none_iff hpattern).mp hlocate position ((occursAt_drop start position).mpr hoccurs)

end PatternSearch

end TSDuck
