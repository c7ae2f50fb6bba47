import Mathlib.Data.List.Range
import Mathlib.Data.Nat.ModEq

/-!
# Records which are cut into fragments

A stream is a sequence of records of one size. It is cut into fragments which are shorter than a
record; a fragment has a number, modulo some modulus, and it may say where the first record which
starts in it is. `Cut` is the condition on the successive fragments of a stream.
-/

namespace Reassembly

universe u

variable {Value : Type u}

/-! ### Fragments -/

structure Fragment (Value : Type u) where
  number : ℕ
  start : Option ℕ
  data : List Value

/-- A fragment cut at a position, with its number. -/
structure IsCut (modulus size : ℕ) (stream : List Value) (position index : ℕ)
    (fragment : Fragment Value) : Prop where
  number_eq : fragment.number = index % modulus
  data_eq : fragment.data = (stream.drop position).take fragment.data.length
  inside : position + fragment.data.length ≤ stream.length
  length_lt : fragment.data.length < size
  start_eq : ∀ start, fragment.start = some start →
    0 < position % size ∧ position % size + start = size ∧ start ≤ fragment.data.length

/-- Successive fragments of a stream. -/
def Cut (modulus size : ℕ) (stream : List Value) : ℕ → ℕ → List (Fragment Value) → Prop
  | _, _, [] => True
  | position, index, fragment :: rest =>
    IsCut modulus size stream position index fragment ∧
      Cut modulus size stream (position + fragment.data.length) (index + 1) rest

def extent (fragments : List (Fragment Value)) : ℕ :=
  (fragments.map fun fragment ↦ fragment.data.length).sum

@[simp] theorem extent_cons (fragment : Fragment Value) (rest : List (Fragment Value)) :
    extent (fragment :: rest) = fragment.data.length + extent rest :=
  rfl

theorem extent_append (fragments others : List (Fragment Value)) :
    extent (fragments ++ others) = extent fragments + extent others := by
  rw [extent, List.map_append, List.sum_append]
  rfl

theorem add_extent_cons (position : ℕ) (fragment : Fragment Value) (rest : List (Fragment Value)) :
    position + extent (fragment :: rest) = position + fragment.data.length + extent rest := by
  rw [extent_cons, Nat.add_assoc]

theorem add_length_cons {Item : Type u} (index : ℕ) (item : Item) (rest : List Item) :
    index + (item :: rest).length = index + 1 + rest.length := by
  rw [List.length_cons, Nat.add_right_comm, Nat.add_assoc]

def record (size : ℕ) (stream : List Value) (index : ℕ) : List Value :=
  (stream.drop (index * size)).take size

def records (size : ℕ) (stream : List Value) (first last : ℕ) : List (List Value) :=
  (List.range' first (last - first)).map (record size stream)

theorem cut_append {modulus size : ℕ} {stream : List Value} {position index : ℕ}
    {fragments others : List (Fragment Value)} :
    Cut modulus size stream position index (fragments ++ others) ↔
      Cut modulus size stream position index fragments ∧
        Cut modulus size stream (position + extent fragments) (index + fragments.length) others := by
  induction fragments generalizing position index with
  | nil => simp [Cut, extent]
  | cons fragment rest ih =>
    rw [List.cons_append, Cut, Cut, ih, add_extent_cons, add_length_cons, and_assoc]

/-- The values of successive fragments are those of the stream. -/
theorem flatMap_data {modulus size : ℕ} {stream : List Value} {position index : ℕ}
    {fragments : List (Fragment Value)} (hcut : Cut modulus size stream position index fragments) :
    fragments.flatMap Fragment.data = (stream.drop position).take (extent fragments) := by
  induction fragments generalizing position index with
  | nil => simp [extent]
  | cons fragment rest ih =>
    rw [List.flatMap_cons, ih hcut.2, extent_cons, List.take_add, List.drop_drop]
    exact congrArg (· ++ _) hcut.1.data_eq

/-- A fragment of a stream is one of a longer stream. -/
theorem IsCut.append {modulus size : ℕ} {stream : List Value} {position index : ℕ}
    {fragment : Fragment Value} (hcut : IsCut modulus size stream position index fragment)
    (more : List Value) : IsCut modulus size (stream ++ more) position index fragment where
  number_eq := hcut.number_eq
  data_eq := by
    have hinside := hcut.inside
    have hroom : fragment.data.length ≤ (stream.drop position).length := by
      rw [List.length_drop]
      omega
    rw [List.drop_append_of_le_length (by omega), List.take_append_of_le_length hroom]
    exact hcut.data_eq
  inside := by
    rw [List.length_append]
    exact hcut.inside.trans (Nat.le_add_right _ _)
  length_lt := hcut.length_lt
  start_eq := hcut.start_eq

section Records

variable {size : ℕ} {stream : List Value} {first middle last : ℕ}

@[simp] theorem records_self : records size stream first first = [] := by
  simp [records]

@[simp] theorem length_records : (records size stream first last).length = last - first := by
  simp [records]

theorem records_append (hfirst : first ≤ middle) (hlast : middle ≤ last) :
    records size stream first middle ++ records size stream middle last =
      records size stream first last := by
  have hrange := @List.range'_append first (middle - first) (last - middle) 1
  rw [records, records, records, ← List.map_append]
  congr 1
  rw [Nat.one_mul, Nat.add_sub_cancel' hfirst] at hrange
  rw [hrange]
  congr 1
  omega

theorem records_succ : records size stream first (first + 1) = [record size stream first] := by
  simp [records]

/-- The records of a concatenation of lists of one length are these lists. -/
theorem records_flatten {parts : List (List Value)} (hparts : ∀ part ∈ parts, part.length = size)
    {count : ℕ} (hcount : count ≤ parts.length) :
    records size parts.flatten 0 count = parts.take count := by
  have hrecord : ∀ index (hindex : index < parts.length),
      record size parts.flatten index = parts[index] := by
    intro index hindex
    have hdrop : parts.flatten.drop (index * size) = (parts.drop index).flatten := by
      clear hcount
      induction index generalizing parts with
      | zero => simp
      | succ index ih =>
        cases parts with
        | nil => simp
        | cons part rest =>
          have hlength := hparts part List.mem_cons_self
          rw [List.flatten_cons, List.drop_succ_cons, Nat.succ_mul, Nat.add_comm,
            List.drop_append, List.drop_eq_nil_of_le (by omega), List.nil_append, hlength,
            Nat.add_sub_cancel_left]
          exact ih (List.forall_mem_cons.mp hparts).2
            (by simpa using hindex)
    have hlength := hparts _ (List.getElem_mem hindex)
    rw [record, hdrop, List.drop_eq_getElem_cons hindex, List.flatten_cons]
    exact List.take_left' hlength
  apply List.ext_getElem
  · rw [length_records, Nat.sub_zero, List.length_take, Nat.min_eq_left hcount]
  · intro index hleft hright
    rw [length_records, Nat.sub_zero] at hleft
    simp only [records, List.getElem_map, List.getElem_range', Nat.zero_add, Nat.one_mul,
      List.getElem_take]
    exact hrecord index (by omega)

/-- The records of a concatenation between two indexes. -/
theorem records_flatten_drop {parts : List (List Value)}
    (hparts : ∀ part ∈ parts, part.length = size) (hfirst : first ≤ last)
    (hlast : last ≤ parts.length) :
    records size parts.flatten first last = (parts.take last).drop first := by
  have hsplit := @records_append _ size parts.flatten 0 first last (Nat.zero_le _) hfirst
  rw [records_flatten hparts hlast, records_flatten hparts (hfirst.trans hlast)] at hsplit
  rw [← hsplit, List.drop_left' (by rw [List.length_take, Nat.min_eq_left (hfirst.trans hlast)])]

end Records

/-! ### The assembler -/

structure Assembler (Value : Type u) where
  expected : Option ℕ
  pending : List Value

namespace Assembler

def fresh : Assembler Value :=
  { expected := none, pending := [] }

/-- The first values of a record and a fragment after them. -/
def accept (assembler : Assembler Value) (fragment : Fragment Value) :
    Option (List Value × List Value) :=
  if assembler.expected = some fragment.number then some (assembler.pending, fragment.data)
  else fragment.start.map fun start ↦ ([], fragment.data.drop start)

def step (modulus size : ℕ) (assembler : Assembler Value) (fragment : Fragment Value) :
    Assembler Value × Option (List Value) :=
  match assembler.accept fragment with
  | none => (fresh, none)
  | some (pending, data) =>
    let expected := some ((fragment.number + 1) % modulus)
    if size ≤ pending.length + data.length then
      ({ expected := expected, pending := (pending ++ data).drop size },
        some ((pending ++ data).take size))
    else ({ expected := expected, pending := pending ++ data }, none)

def assemble (modulus size : ℕ) :
    Assembler Value → List (Fragment Value) → Assembler Value × List (List Value)
  | assembler, [] => (assembler, [])
  | assembler, fragment :: rest =>
    let (next, given) := assembler.step modulus size fragment
    let (last, others) := assemble modulus size next rest
    (last, given.toList ++ others)

theorem assemble_append {modulus size : ℕ} {assembler : Assembler Value}
    {fragments others : List (Fragment Value)} :
    assembler.assemble modulus size (fragments ++ others) =
      (((assembler.assemble modulus size fragments).1.assemble modulus size others).1,
        (assembler.assemble modulus size fragments).2 ++
          ((assembler.assemble modulus size fragments).1.assemble modulus size others).2) := by
  induction fragments generalizing assembler with
  | nil => rfl
  | cons fragment rest ih =>
    rw [List.cons_append, assemble, assemble]
    dsimp only
    rw [ih, List.append_assoc]

end Assembler

/-- Less than the modulus successive fragments are lost. -/
def SparseLoss (modulus : ℕ) : ℕ → List Bool → Prop
  | _, [] => True
  | _, true :: rest => SparseLoss modulus 0 rest
  | lost, false :: rest => lost + 1 < modulus ∧ SparseLoss modulus (lost + 1) rest

def received (flagged : List (Fragment Value × Bool)) : List (Fragment Value) :=
  (flagged.filter Prod.snd).map Prod.fst

/-! ### What is given -/

/-- The values before a position from the start of a record. -/
def pendingAt (size : ℕ) (stream : List Value) (position : ℕ) : List Value :=
  (stream.drop (position / size * size)).take (position % size)

namespace Assembler

/-- The assembler has received the last fragments before some position. -/
structure Tracks (modulus size : ℕ) (stream : List Value) (position index : ℕ)
    (assembler : Assembler Value) : Prop where
  expected_eq : assembler.expected = some (index % modulus)
  pending_eq : assembler.pending = pendingAt size stream position

variable {modulus size : ℕ} {stream : List Value} {position index : ℕ}
  {fragment : Fragment Value} {assembler : Assembler Value}

/-- The position after a fragment which does not complete a record. -/
theorem div_mod_of_lt (hshort : position % size + fragment.data.length < size) :
    (position + fragment.data.length) / size = position / size ∧
      (position + fragment.data.length) % size = position % size + fragment.data.length := by
  have hsplit := Nat.div_add_mod position size
  have hsum : position + fragment.data.length =
      position % size + fragment.data.length + size * (position / size) := by omega
  rw [hsum, Nat.add_mul_div_left _ _ (by omega), Nat.add_mul_mod_self_left,
    Nat.div_eq_of_lt hshort, Nat.mod_eq_of_lt hshort, Nat.zero_add]
  exact ⟨rfl, rfl⟩

/-- The position after a fragment which completes a record. -/
theorem div_mod_of_le (hlength : fragment.data.length < size)
    (hlong : size ≤ position % size + fragment.data.length) :
    (position + fragment.data.length) / size = position / size + 1 ∧
      (position + fragment.data.length) % size = position % size + fragment.data.length - size := by
  have hsplit := Nat.div_add_mod position size
  have hmod := Nat.mod_lt position (show 0 < size by omega)
  have hover : position % size + fragment.data.length - size < size := by omega
  have hsum : position + fragment.data.length =
      position % size + fragment.data.length - size + size * (position / size + 1) := by
    rw [Nat.mul_succ]
    omega
  rw [hsum, Nat.add_mul_div_left _ _ (by omega), Nat.add_mul_mod_self_left,
    Nat.div_eq_of_lt hover, Nat.mod_eq_of_lt hover, Nat.zero_add]
  exact ⟨rfl, by omega⟩

/-- What an assembler has with the next fragment. -/
theorem pendingAt_append (hcut : IsCut modulus size stream position index fragment) :
    pendingAt size stream position ++ fragment.data =
      (stream.drop (position / size * size)).take (position % size + fragment.data.length) := by
  have hsplit : position / size * size + position % size = position := Nat.div_add_mod' _ _
  rw [pendingAt, List.take_add, List.drop_drop, hsplit]
  exact congrArg _ hcut.data_eq

theorem length_pendingAt (hcut : IsCut modulus size stream position index fragment) :
    (pendingAt size stream position).length = position % size := by
  have hsplit : position / size * size + position % size = position := Nat.div_add_mod' _ _
  have hinside := hcut.inside
  rw [pendingAt, List.length_take, List.length_drop]
  omega

/-- The next fragment, when no fragment has been lost. -/
theorem Tracks.step (htracks : assembler.Tracks modulus size stream position index)
    (hcut : IsCut modulus size stream position index fragment) :
    (assembler.step modulus size fragment).1.Tracks modulus size stream
        (position + fragment.data.length) (index + 1) ∧
      (assembler.step modulus size fragment).2.toList =
        records size stream (position / size) ((position + fragment.data.length) / size) := by
  have hnumber : (fragment.number + 1) % modulus = (index + 1) % modulus := by
    rw [hcut.number_eq, Nat.mod_add_mod]
  have haccept : assembler.accept fragment = some (assembler.pending, fragment.data) := by
    rw [accept, if_pos (by rw [htracks.expected_eq, hcut.number_eq])]
  have hlength := length_pendingAt hcut
  have hdata := pendingAt_append hcut
  rw [Assembler.step, haccept]
  dsimp only
  rw [htracks.pending_eq, hlength, hdata, hnumber]
  by_cases hlong : size ≤ position % size + fragment.data.length
  · obtain ⟨hdiv, hmod⟩ := div_mod_of_le hcut.length_lt hlong
    rw [if_pos hlong, hdiv, records_succ]
    refine ⟨⟨rfl, ?_⟩, ?_⟩
    · rw [pendingAt, hdiv, hmod, List.drop_take, List.drop_drop, Nat.succ_mul]
    · rw [List.take_take, Nat.min_eq_left hlong]
      rfl
  · obtain ⟨hdiv, hmod⟩ := div_mod_of_lt (Nat.lt_of_not_le hlong)
    rw [if_neg hlong, hdiv, records_self]
    exact ⟨⟨rfl, by rw [pendingAt, hdiv, hmod]⟩, rfl⟩

/-- A fragment which is not expected and has no start. -/
theorem step_of_none (hexpected : assembler.expected ≠ some fragment.number)
    (hstart : fragment.start = none) :
    assembler.step modulus size fragment = (fresh, none) := by
  rw [step, accept, if_neg hexpected, hstart]
  rfl

/-- The position after a fragment where a record starts. -/
theorem div_mod_of_start (hcut : IsCut modulus size stream position index fragment) {start : ℕ}
    (hstart : fragment.start = some start) :
    position + start = (position / size + 1) * size ∧
      (position + fragment.data.length) / size = position / size + 1 ∧
      (position + fragment.data.length) % size = fragment.data.length - start := by
  obtain ⟨hpos, hsum, hle⟩ := hcut.start_eq start hstart
  have hsplit : position / size * size + position % size = position := Nat.div_add_mod' _ _
  obtain ⟨hdiv, hmod⟩ := div_mod_of_le hcut.length_lt
    (show size ≤ position % size + fragment.data.length by omega)
  refine ⟨?_, hdiv, ?_⟩
  · rw [Nat.succ_mul]
    omega
  · omega

/-- An assembler which waits starts with a record. -/
theorem step_of_start (hcut : IsCut modulus size stream position index fragment)
    (hexpected : assembler.expected ≠ some fragment.number) {start : ℕ}
    (hstart : fragment.start = some start) :
    (assembler.step modulus size fragment).1.Tracks modulus size stream
        (position + fragment.data.length) (index + 1) ∧
      (assembler.step modulus size fragment).2 = none := by
  obtain ⟨hposition, hdiv, hmod⟩ := div_mod_of_start hcut hstart
  have hlength := hcut.length_lt
  have hshort : ¬ size ≤ ([] : List Value).length + (fragment.data.drop start).length := by
    rw [List.length_nil, List.length_drop]
    omega
  have haccept : assembler.accept fragment = some ([], fragment.data.drop start) := by
    rw [accept, if_neg hexpected, hstart, Option.map_some]
  rw [step, haccept]
  dsimp only
  rw [if_neg hshort, List.nil_append]
  refine ⟨⟨?_, ?_⟩, rfl⟩
  · rw [hcut.number_eq, Nat.mod_add_mod]
  · rw [pendingAt, hdiv, hmod, ← hposition, ← List.drop_drop, ← List.drop_take, ← hcut.data_eq]

/-- Without loss, the records between two positions are given. -/
theorem Tracks.assemble {fragments : List (Fragment Value)}
    (htracks : assembler.Tracks modulus size stream position index)
    (hcut : Cut modulus size stream position index fragments) :
    (assembler.assemble modulus size fragments).1.Tracks modulus size stream
        (position + extent fragments) (index + fragments.length) ∧
      (assembler.assemble modulus size fragments).2 =
        records size stream (position / size) ((position + extent fragments) / size) := by
  induction fragments generalizing assembler position index with
  | nil => exact ⟨htracks, records_self.symm⟩
  | cons fragment rest ih =>
    obtain ⟨hnext, hgiven⟩ := htracks.step hcut.1
    obtain ⟨hlast, hothers⟩ := ih hnext hcut.2
    rw [add_extent_cons, add_length_cons]
    refine ⟨hlast, ?_⟩
    rw [Assembler.assemble]
    dsimp only
    rw [hgiven, hothers]
    exact records_append (Nat.div_le_div_right (Nat.le_add_right _ _))
      (Nat.div_le_div_right (Nat.le_add_right _ _))

/-- Without loss, the records from the first start on. -/
theorem assemble_fresh {fragments : List (Fragment Value)}
    (hcut : Cut modulus size stream position index fragments) :
    ∃ first, position / size < first ∧ (fresh.assemble modulus size fragments).2 =
        records size stream first ((position + extent fragments) / size) := by
  induction fragments generalizing position index with
  | nil => exact ⟨position / size + 1, Nat.lt_succ_self _, by simp [assemble, extent, records]⟩
  | cons fragment rest ih =>
    rw [add_extent_cons, assemble]
    dsimp only
    cases hstart : fragment.start with
    | none =>
      obtain ⟨first, hfirst, hgiven⟩ := ih hcut.2
      rw [step_of_none (by simp [fresh]) hstart]
      exact ⟨first, (Nat.div_le_div_right (Nat.le_add_right _ _)).trans_lt hfirst, hgiven⟩
    | some start =>
      have hexpected : (fresh : Assembler Value).expected ≠ some fragment.number := by
        simp [fresh]
      obtain ⟨hnext, hnone⟩ := step_of_start hcut.1 hexpected hstart
      obtain ⟨-, hgiven⟩ := hnext.assemble hcut.2
      rw [hnone, hgiven, (div_mod_of_start hcut.1 hstart).2.1]
      exact ⟨_, Nat.lt_succ_self _, rfl⟩

/-! ### Losses -/

/-- The assembler has received what is not lost so far. -/
def Follows (modulus size : ℕ) (stream : List Value) (position index lost : ℕ)
    (assembler : Assembler Value) : Prop :=
  assembler.expected = none ∨ lost = 0 ∧ assembler.Tracks modulus size stream position index ∨
    0 < lost ∧ lost < modulus ∧ lost ≤ index ∧ assembler.expected = some ((index - lost) % modulus)

variable {lost : ℕ}

theorem Follows.lose (hfollows : assembler.Follows modulus size stream position index lost)
    (hlost : lost + 1 < modulus) (length : ℕ) :
    assembler.Follows modulus size stream (position + length) (index + 1) (lost + 1) := by
  rcases hfollows with hnone | ⟨rfl, htracks⟩ | ⟨hpos, -, hle, hexpected⟩
  · exact Or.inl hnone
  · exact Or.inr (Or.inr ⟨Nat.succ_pos _, hlost, Nat.succ_le_succ (Nat.zero_le _),
      htracks.expected_eq⟩)
  · refine Or.inr (Or.inr ⟨Nat.succ_pos _, hlost, Nat.succ_le_succ hle, ?_⟩)
    rwa [Nat.add_sub_add_right]

/-- Nothing was lost, or the assembler does not expect it. -/
theorem Follows.cases (hfollows : assembler.Follows modulus size stream position index lost)
    (hcut : IsCut modulus size stream position index fragment) :
    assembler.Tracks modulus size stream position index ∨
      assembler.expected ≠ some fragment.number := by
  rcases hfollows with hnone | ⟨-, htracks⟩ | ⟨hpos, hlt, hle, hexpected⟩
  · exact Or.inr (by simp [hnone])
  · exact Or.inl htracks
  · right
    rw [hexpected, hcut.number_eq, ne_eq, Option.some.injEq]
    intro hsame
    -- Less fragments than the modulus are lost, so the two numbers cannot agree.
    have hcongr : index - lost ≡ index [MOD modulus] := hsame
    have hdvd : modulus ∣ lost := by
      have hsub := (Nat.modEq_iff_dvd' (Nat.sub_le index lost)).mp hcongr
      rwa [Nat.sub_sub_self hle] at hsub
    exact absurd (Nat.le_of_dvd hpos hdvd) (Nat.not_le.mpr hlt)

theorem Follows.step (hfollows : assembler.Follows modulus size stream position index lost)
    (hcut : IsCut modulus size stream position index fragment) :
    (assembler.step modulus size fragment).1.Follows modulus size stream
        (position + fragment.data.length) (index + 1) 0 ∧
      List.Sublist (assembler.step modulus size fragment).2.toList
        (records size stream (position / size) ((position + fragment.data.length) / size)) := by
  rcases hfollows.cases hcut with htracks | hexpected
  · obtain ⟨hnext, hgiven⟩ := htracks.step hcut
    exact ⟨Or.inr (Or.inl ⟨rfl, hnext⟩), hgiven ▸ List.Sublist.refl _⟩
  · cases hstart : fragment.start with
    | none =>
      rw [step_of_none hexpected hstart]
      exact ⟨Or.inl rfl, List.nil_sublist _⟩
    | some start =>
      obtain ⟨hnext, hnone⟩ := step_of_start hcut hexpected hstart
      rw [hnone]
      exact ⟨Or.inr (Or.inl ⟨rfl, hnext⟩), List.nil_sublist _⟩

/-- The number of fragments which have just been lost. -/
def lostAfter : ℕ → List Bool → ℕ
  | lost, [] => lost
  | _, true :: rest => lostAfter 0 rest
  | lost, false :: rest => lostAfter (lost + 1) rest

/-- What is given is a part of the records, in order. -/
theorem Follows.assemble {flagged : List (Fragment Value × Bool)}
    (hfollows : assembler.Follows modulus size stream position index lost)
    (hcut : Cut modulus size stream position index (flagged.map Prod.fst))
    (hloss : SparseLoss modulus lost (flagged.map Prod.snd)) :
    (assembler.assemble modulus size (received flagged)).1.Follows modulus size stream
        (position + extent (flagged.map Prod.fst)) (index + flagged.length)
        (lostAfter lost (flagged.map Prod.snd)) ∧
      List.Sublist (assembler.assemble modulus size (received flagged)).2
        (records size stream (position / size)
          ((position + extent (flagged.map Prod.fst)) / size)) := by
  induction flagged generalizing assembler position index lost with
  | nil => exact ⟨hfollows, List.nil_sublist _⟩
  | cons head rest ih =>
    obtain ⟨fragment, kept⟩ := head
    have hmiddle : position / size ≤ (position + fragment.data.length) / size :=
      Nat.div_le_div_right (Nat.le_add_right _ _)
    have hlast : (position + fragment.data.length) / size ≤
        (position + fragment.data.length + extent (rest.map Prod.fst)) / size :=
      Nat.div_le_div_right (Nat.le_add_right _ _)
    rw [List.map_cons, List.map_cons, add_extent_cons, add_length_cons, ← records_append hmiddle hlast]
    cases kept with
    | true =>
      obtain ⟨hnext, hgiven⟩ := hfollows.step hcut.1
      obtain ⟨hfinal, hothers⟩ := ih hnext hcut.2 hloss
      exact ⟨hfinal, hgiven.append hothers⟩
    | false =>
      obtain ⟨hfinal, hothers⟩ := ih (hfollows.lose hloss.1 _) hcut.2 hloss.2
      exact ⟨hfinal, hothers.trans (List.sublist_append_right _ _)⟩

/-- The records from a start on, while nothing is lost. -/
theorem Follows.assemble_of_start {rest : List (Fragment Value)}
    (hfollows : assembler.Follows modulus size stream position index lost)
    (hcut : Cut modulus size stream position index (fragment :: rest)) {start : ℕ}
    (hstart : fragment.start = some start) :
    ∃ before, (assembler.assemble modulus size (fragment :: rest)).2 =
      before ++ records size stream ((position + start) / size)
        ((position + extent (fragment :: rest)) / size) := by
  obtain ⟨hposition, hdiv, -⟩ := div_mod_of_start hcut.1 hstart
  have hsize : 0 < size := Nat.zero_lt_of_lt hcut.1.length_lt
  have hnext : (assembler.step modulus size fragment).1.Tracks modulus size stream
      (position + fragment.data.length) (index + 1) := by
    rcases hfollows.cases hcut.1 with htracks | hexpected
    · exact (htracks.step hcut.1).1
    · exact (step_of_start hcut.1 hexpected hstart).1
  refine ⟨(assembler.step modulus size fragment).2.toList, ?_⟩
  rw [hposition, Nat.mul_div_cancel _ hsize, add_extent_cons, ← hdiv, ← (hnext.assemble hcut.2).2]
  rfl

/-- The first flags of a sparse loss. -/
theorem sparseLoss_of_append {flags others : List Bool}
    (hloss : SparseLoss modulus lost (flags ++ others)) : SparseLoss modulus lost flags := by
  induction flags generalizing lost with
  | nil => trivial
  | cons flag rest ih =>
    cases flag with
    | true => exact ih hloss
    | false => exact ⟨hloss.1, ih hloss.2⟩

/-- The loss is sparse without a long run of losses. -/
theorem sparseLoss_of_not_replicate {flags : List Bool} (hlost : lost < modulus)
    (hflags : ¬List.replicate modulus false <:+: List.replicate lost false ++ flags) :
    SparseLoss modulus lost flags := by
  induction flags generalizing lost with
  | nil => trivial
  | cons flag rest ih =>
    cases flag with
    | true =>
      refine ih (Nat.zero_lt_of_lt hlost) fun hrest ↦ hflags ?_
      exact hrest.trans ⟨List.replicate lost false ++ [true], [], by simp⟩
    | false =>
      have hmore : List.replicate lost false ++ false :: rest =
          List.replicate (lost + 1) false ++ rest := by
        rw [List.replicate_succ', List.append_assoc]
        rfl
      rw [hmore] at hflags
      have hlt : lost + 1 < modulus := by
        refine lt_of_le_of_ne hlost fun hfull ↦ hflags ?_
        rw [← hfull]
        exact ⟨[], rest, rfl⟩
      exact ⟨hlt, ih hlt hflags⟩

theorem received_append (flagged others : List (Fragment Value × Bool)) :
    received (flagged ++ others) = received flagged ++ received others := by
  rw [received, List.filter_append, List.map_append]
  rfl

theorem received_all (fragments : List (Fragment Value)) :
    received (fragments.map fun fragment ↦ (fragment, true)) = fragments := by
  induction fragments with
  | nil => rfl
  | cons fragment rest ih => exact congrArg (fragment :: ·) ih

/-- The records from a start to the next loss. -/
theorem Follows.assemble_between {before after : List (Fragment Value × Bool)}
    {rest : List (Fragment Value)}
    (hfollows : assembler.Follows modulus size stream position index lost)
    (hcut : Cut modulus size stream position index
      (before.map Prod.fst ++ (fragment :: rest) ++ after.map Prod.fst))
    (hloss : SparseLoss modulus lost (before.map Prod.snd)) {start : ℕ}
    (hstart : fragment.start = some start) :
    ∃ front back, (assembler.assemble modulus size
        (received before ++ (fragment :: rest) ++ received after)).2 =
      front ++ records size stream ((position + extent (before.map Prod.fst) + start) / size)
        ((position + extent (before.map Prod.fst) + extent (fragment :: rest)) / size) ++ back := by
  rw [cut_append, cut_append, List.length_map] at hcut
  obtain ⟨hmiddle, -⟩ := hfollows.assemble hcut.1.1 hloss
  obtain ⟨front, hgiven⟩ := hmiddle.assemble_of_start hcut.1.2 hstart
  rw [assemble_append, assemble_append]
  dsimp only
  rw [hgiven]
  exact ⟨_ ++ front, _, by rw [List.append_assoc _ front]⟩

end Assembler

end Reassembly
