import Mathlib.Data.List.Range
import Mathlib.Data.Nat.ModEq

/-!
# A window of a circular buffer

A circular buffer is a function from slots to values, read modulo its size. A window is given by its
first slot and the number of its values, and may wrap around the end of the buffer;
`CircularWindow.contents` is the list of its values, the oldest first.
-/

namespace CircularWindow

universe u

variable {Value : Type u}

/-- The values of the window of `count` slots that starts at slot `first`. -/
def contents (slots : ℕ → Value) (size first count : ℕ) : List Value :=
  (List.range count).map fun offset ↦ slots ((first + offset) % size)

def write (slots : ℕ → Value) (first : ℕ) (values : List Value) : ℕ → Value :=
  fun slot ↦ if first ≤ slot then values.getD (slot - first) (slots slot) else slots slot

variable {slots : ℕ → Value} {size first count : ℕ}

@[simp] theorem length_contents : (contents slots size first count).length = count := by
  simp [contents]

@[simp] theorem contents_zero : contents slots size first 0 = [] :=
  rfl

/-- A window splits at any of its slots. -/
theorem contents_add (more : ℕ) :
    contents slots size first (count + more) =
      contents slots size first count ++ contents slots size ((first + count) % size) more := by
  simp only [contents, List.range_add, List.map_append, List.map_map, Function.comp_def,
    Nat.mod_add_mod, Nat.add_assoc]

/-- Releasing values at the start of a window drops them. -/
theorem contents_release {released : ℕ} (hreleased : released ≤ count) :
    contents slots size ((first + released) % size) (count - released) =
      (contents slots size first count).drop released := by
  obtain ⟨remaining, rfl⟩ := Nat.exists_eq_add_of_le hreleased
  rw [contents_add, Nat.add_sub_cancel_left]
  exact (List.drop_left' length_contents).symm

/-- The first values of a window are a smaller window. -/
theorem take_contents {taken : ℕ} (htaken : taken ≤ count) :
    (contents slots size first count).take taken = contents slots size first taken := by
  obtain ⟨remaining, rfl⟩ := Nat.exists_eq_add_of_le htaken
  rw [contents_add]
  exact List.take_left' length_contents

/-- The slots before the end of the buffer are consecutive. -/
theorem contents_contiguous (hend : first + count ≤ size) :
    contents slots size first count = (List.range count).map fun offset ↦ slots (first + offset) := by
  refine List.map_congr_left fun offset hoffset ↦ ?_
  rw [Nat.mod_eq_of_lt (by have := List.mem_range.mp hoffset; omega)]

variable {values : List Value} {offset slot : ℕ}

/-- A slot that is written holds the value written there. -/
theorem write_of_lt (hoffset : offset < values.length) :
    write slots first values (first + offset) = values[offset] := by
  simp [write, hoffset]

/-- A slot before or after those that are written keeps its value. -/
theorem write_of_outside (hslot : slot < first ∨ first + values.length ≤ slot) :
    write slots first values slot = slots slot := by
  unfold write
  split_ifs with hfirst
  · rw [List.getD_eq_getElem?_getD, List.getElem?_eq_none (by omega), Option.getD_none]
  · rfl

/-- A window and the slots after it are distinct. -/
theorem slot_ne_later {later : ℕ} (hoffset : offset < count) (hlater : later + count < size) :
    (first + offset) % size ≠ (first + count + later) % size := by
  intro hequal
  have hmod : first + offset ≡ first + (count + later) [MOD size] := by
    rw [← Nat.add_assoc]
    exact hequal
  have hcancel : offset ≡ count + later [MOD size] := Nat.ModEq.add_left_cancel' first hmod
  have hsame : offset = count + later :=
    Nat.ModEq.eq_of_lt_of_lt hcancel (by omega) (by omega)
  omega

/-- A slot right after the window is not one of its slots. -/
theorem slot_ne_following {later : ℕ} (hoffset : offset < count) (hlater : later + count < size)
    (hend : (first + count) % size + later < size) :
    (first + offset) % size ≠ (first + count) % size + later := by
  intro hequal
  refine slot_ne_later hoffset hlater (hequal.trans ?_)
  rw [Nat.add_mod (first + count) later, Nat.mod_eq_of_lt (show later < size by omega),
    Nat.mod_eq_of_lt hend]

/-- A value outside of a window leaves its contents. -/
theorem contents_update (hslot : ∀ offset < count, (first + offset) % size ≠ slot) (value : Value) :
    contents (Function.update slots slot value) size first count =
      contents slots size first count := by
  refine List.map_congr_left fun offset hoffset ↦ ?_
  exact Function.update_of_ne (hslot offset (List.mem_range.mp hoffset)) value slots

/-- Values right after the window leave its contents. -/
theorem contents_write (hfit : count + values.length ≤ size)
    (hend : (first + count) % size + values.length ≤ size) :
    contents (write slots ((first + count) % size) values) size first count =
      contents slots size first count := by
  refine List.map_congr_left fun offset hoffset ↦ write_of_outside ?_
  by_contra hinside
  obtain ⟨later, hlater⟩ : ∃ later, (first + offset) % size = (first + count) % size + later :=
    Nat.exists_eq_add_of_le (by omega)
  have hshort : later < values.length := by omega
  exact slot_ne_following (List.mem_range.mp hoffset) (show later + count < size by omega)
    (show (first + count) % size + later < size by omega) hlater

/-- What is written is what the window of its slots contains. -/
theorem contents_written (hend : slot + values.length ≤ size) :
    contents (write slots slot values) size slot values.length = values := by
  rw [contents_contiguous hend]
  refine List.ext_getElem (by simp) fun offset hleft hright ↦ ?_
  rw [List.getElem_map, List.getElem_range]
  exact write_of_lt hright

end CircularWindow
