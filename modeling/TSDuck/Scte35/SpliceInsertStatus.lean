import TSDuck.Scte35.SpliceInsert

/-!
# Decoding status of splice insert commands

A splice insert object is decoded in place: its fields are cleared first and loaded one after the other,
until there are not enough bytes. The object becomes valid at the end of a complete command, but a
failure leaves its validity as it was.

`hasRightStatus_iff` states when the returned size tells if the object is valid.
-/

namespace TSDuck

namespace SpliceInsert

/-- Loads the times, without remaining data if too short. -/
def loadComponents (immediate : Bool) :
    ℕ → SortedMap (Fin 256) SpliceTime → ByteBlock → SortedMap (Fin 256) SpliceTime × Option ByteBlock
  | 0, components, data => (components, some data)
  | count + 1, components, data =>
    if data.length < 1 then (components, none)
    else
      match if immediate then some (none, data.drop 1) else SpliceTime.deserialize (data.drop 1) with
      | none => (components, none)
      | some (pts, rest) =>
        loadComponents immediate count
          (components.update (byteAt data 0).toFin fun previous ↦ previous.getD pts) rest

def loadTimes (insert : SpliceInsert) (data : ByteBlock) : SpliceInsert × Option ByteBlock :=
  if insert.programSplice then
    if insert.immediate then (insert, some data)
    else
      match SpliceTime.deserialize data with
      | none => (insert, none)
      | some (programPts, rest) => ({ insert with programPts }, some rest)
  else if data.length < 1 then (insert, none)
  else
    ({ insert with componentsPts :=
        (loadComponents insert.immediate (byteAt data 0).toNat insert.componentsPts (data.drop 1)).1 },
      (loadComponents insert.immediate (byteAt data 0).toNat insert.componentsPts (data.drop 1)).2)

def loadEnd (insert : SpliceInsert) (data : ByteBlock) : SpliceInsert × Option ByteBlock :=
  match insert.deserializeDuration data with
  | none => (insert, none)
  | some (timed, rest) =>
    match timed.deserializeProgram rest with
    | none => (timed, none)
    | some (last, rest) => (last, some rest)

def load (data : ByteBlock) : SpliceInsert × Option ByteBlock :=
  if data.length < 5 then (cleared, none)
  else
    let started := { cleared with
      eventId := UInt32.ofNat (getUInt32 data 0)
      canceled := byteAt data 4 &&& 0x80 != 0 }
    if started.canceled then (started, some (data.drop 5))
    else if data.length < 6 then (started, none)
    else
      let flagged := { started with
        spliceOut := byteAt data 5 &&& 0x80 != 0
        programSplice := byteAt data 5 &&& 0x40 != 0
        useDuration := byteAt data 5 &&& 0x20 != 0
        immediate := byteAt data 5 &&& 0x10 != 0 }
      match flagged.loadTimes (data.drop 6) with
      | (timed, none) => (timed, none)
      | (timed, some rest) => timed.loadEnd rest

/-- A splice insert object: its fields, and its validity. -/
structure Object where
  isValid : Bool
  fields : SpliceInsert

/-- Decodes a command: its size or -1. -/
def Object.deserialize (object : Object) (data : ByteBlock) : ℤ × Object :=
  match load data with
  | (fields, none) => (-1, { object with fields })
  | (fields, some rest) => (data.length - rest.length, { isValid := true, fields })

/-- The size tells the validity, and the data the fields. -/
def Object.HasRightStatus (object : Object) (data : ByteBlock) : Prop :=
  (0 ≤ (object.deserialize data).1 ↔ (object.deserialize data).2.isValid = true) ∧
    (object.deserialize data).1 ≤ data.length ∧
      ∀ other : Object, (other.deserialize data).2.fields = (object.deserialize data).2.fields

def timeSize (data : ByteBlock) : ℕ := if byteAt data 0 &&& 0x80 == 0 then 1 else 5

def componentsSize (immediate : Bool) : ℕ → ByteBlock → ℕ
  | 0, _ => 0
  | count + 1, data =>
    let size := 1 + if immediate then 0 else timeSize (data.drop 1)
    size + componentsSize immediate count (data.drop size)

def timesSize (programSplice immediate : Bool) (data : ByteBlock) : ℕ :=
  if programSplice then if immediate then 0 else timeSize data
  else 1 + componentsSize immediate (byteAt data 0).toNat (data.drop 1)

/-- The size of a command from its flags and its count. -/
def commandSize (data : ByteBlock) : ℕ :=
  if byteAt data 4 &&& 0x80 != 0 then 5
  else
    6 + timesSize (byteAt data 5 &&& 0x40 != 0) (byteAt data 5 &&& 0x10 != 0) (data.drop 6) +
      (if byteAt data 5 &&& 0x20 != 0 then 5 else 0) + 4

/-- There is a complete command in the data. -/
def IsComplete (data : ByteBlock) : Prop := 5 ≤ data.length ∧ commandSize data ≤ data.length

def after (size : ℕ) (data : ByteBlock) : Option ByteBlock :=
  if size ≤ data.length then some (data.drop size) else none

theorem after_after (first second : ℕ) (data : ByteBlock) :
    (after first data).bind (after second) = after (first + second) data := by
  unfold after
  split_ifs with hfirst hboth hboth
  · rw [Option.bind_some, if_pos (by rw [List.length_drop]; omega), List.drop_drop]
  · rw [Option.bind_some, if_neg (by rw [List.length_drop]; omega)]
  · omega
  · rfl

theorem deserialize_time (data : ByteBlock) :
    (SpliceTime.deserialize data).map Prod.snd = after (timeSize data) data := by
  unfold SpliceTime.deserialize after timeSize
  by_cases hempty : data.length < 1
  · rw [if_pos hempty, if_neg (by split_ifs <;> omega)]
    rfl
  · rw [if_neg hempty]
    by_cases hunset : (byteAt data 0 &&& 0x80 == 0) = true
    · rw [if_pos hunset, if_pos hunset, if_pos (by omega)]
      rfl
    · rw [if_neg hunset, if_neg hunset]
      by_cases hshort : data.length < 5
      · rw [if_pos hshort, if_neg (by omega)]
        rfl
      · rw [if_neg hshort, if_pos (by omega)]
        rfl

theorem loadComponents_rest (immediate : Bool) (count : ℕ)
    (components : SortedMap (Fin 256) SpliceTime) (data : ByteBlock) :
    (loadComponents immediate count components data).2 =
      after (componentsSize immediate count data) data := by
  induction count generalizing components data with
  | zero => exact (if_pos (Nat.zero_le _)).symm
  | succ count ih =>
    rw [loadComponents, componentsSize, ← after_after, ← after_after]
    by_cases hempty : data.length < 1
    · rw [if_pos hempty, after, if_neg (by omega)]
      rfl
    · rw [if_neg hempty, after, if_pos (show 1 ≤ data.length by omega), Option.bind_some]
      cases immediate with
      | true =>
        have hdrop := ih (components.update (byteAt data 0).toFin fun previous ↦ previous.getD none)
          (data.drop 1)
        simp only [if_true, Nat.add_zero]
        rw [hdrop]
        simp [after]
      | false =>
        have htime := deserialize_time (data.drop 1)
        simp only [Bool.false_eq_true, if_false]
        rw [← htime]
        cases hread : SpliceTime.deserialize (data.drop 1) with
        | none => rfl
        | some read =>
          obtain ⟨pts, rest⟩ := read
          rw [hread, Option.map_some] at htime
          have hrest : rest = data.drop (1 + timeSize (data.drop 1)) := by
            unfold after at htime
            split_ifs at htime
            have hsnd : rest = _ := Option.some.inj htime
            rw [hsnd, List.drop_drop]
          rw [Option.map_some, Option.bind_some, ← hrest]
          exact ih _ rest

theorem loadTimes_rest (insert : SpliceInsert) (data : ByteBlock) :
    (insert.loadTimes data).2 =
      after (timesSize insert.programSplice insert.immediate data) data := by
  unfold loadTimes timesSize
  cases insert.programSplice with
  | true =>
    cases insert.immediate with
    | true => exact (if_pos (Nat.zero_le _)).symm
    | false =>
      simp only [if_true, Bool.false_eq_true, if_false]
      rw [← deserialize_time]
      cases SpliceTime.deserialize data <;> rfl
  | false =>
    simp only [Bool.false_eq_true, if_false]
    rw [← after_after]
    by_cases hempty : data.length < 1
    · rw [if_pos hempty, after, if_neg (by omega)]
      rfl
    · rw [if_neg hempty, after, if_pos (show 1 ≤ data.length by omega), Option.bind_some]
      exact loadComponents_rest _ _ _ _

theorem loadTimes_useDuration (insert : SpliceInsert) (data : ByteBlock) :
    (insert.loadTimes data).1.useDuration = insert.useDuration := by
  unfold loadTimes
  split_ifs
  · rfl
  · cases SpliceTime.deserialize data <;> rfl
  · rfl
  · rfl

theorem loadEnd_rest (insert : SpliceInsert) (data : ByteBlock) :
    (insert.loadEnd data).2 = after ((if insert.useDuration then 5 else 0) + 4) data := by
  rw [← after_after, loadEnd, deserializeDuration]
  have hprogram : ∀ (timed : SpliceInsert) (rest : ByteBlock),
      (match timed.deserializeProgram rest with
        | none => (timed, none)
        | some (last, rest) => (last, some rest)).2 = after 4 rest := by
    intro timed rest
    unfold deserializeProgram after
    by_cases hshort : rest.length < 4
    · rw [if_pos hshort, if_neg (by omega)]
    · rw [if_neg hshort, if_pos (by omega)]
  cases insert.useDuration with
  | true =>
    simp only [if_true]
    by_cases hshort : data.length < 5
    · rw [if_pos hshort, after, if_neg (by omega)]
      rfl
    · rw [if_neg hshort, after, if_pos (show 5 ≤ data.length by omega), Option.bind_some]
      exact hprogram _ _
  | false => exact hprogram insert data

theorem load_rest (data : ByteBlock) :
    (load data).2 = if 5 ≤ data.length then after (commandSize data) data else none := by
  unfold load commandSize
  by_cases hshort : data.length < 5
  · rw [if_pos hshort, if_neg (by omega)]
  rw [if_neg hshort, if_pos (show 5 ≤ data.length by omega)]
  by_cases hcanceled : (byteAt data 4 &&& 0x80 != 0) = true
  · simp only [if_pos hcanceled]
    exact (if_pos (show 5 ≤ data.length by omega)).symm
  simp only [if_neg hcanceled]
  rw [Nat.add_assoc, ← after_after, ← after_after]
  by_cases hflags : data.length < 6
  · rw [if_pos hflags, after, if_neg (by omega)]
    rfl
  rw [if_neg hflags, after, if_pos (show 6 ≤ data.length by omega), Option.bind_some]
  generalize hflagged : ({ cleared with
    eventId := UInt32.ofNat (getUInt32 data 0)
    canceled := byteAt data 4 &&& 0x80 != 0
    spliceOut := byteAt data 5 &&& 0x80 != 0
    programSplice := byteAt data 5 &&& 0x40 != 0
    useDuration := byteAt data 5 &&& 0x20 != 0
    immediate := byteAt data 5 &&& 0x10 != 0 } : SpliceInsert) = flagged
  have htimes := loadTimes_rest flagged (data.drop 6)
  have hduration := loadTimes_useDuration flagged (data.drop 6)
  rw [← hflagged] at htimes hduration
  dsimp only at htimes hduration
  rw [← hflagged, ← htimes]
  cases hloaded : loadTimes _ (data.drop 6) with
  | mk timed rest =>
    rw [hloaded] at hduration
    cases rest with
    | none => rfl
    | some rest =>
      rw [Option.bind_some, ← hduration]
      exact loadEnd_rest timed rest

/-- It does if and only if the object was not valid before or the command is complete. -/
theorem hasRightStatus_iff (object : Object) (data : ByteBlock) :
    object.HasRightStatus data ↔ object.isValid = false ∨ IsComplete data := by
  have hrest := load_rest data
  unfold Object.HasRightStatus Object.deserialize IsComplete
  cases hload : load data with
  | mk fields rest =>
    rw [hload] at hrest
    dsimp only at hrest ⊢
    subst hrest
    by_cases hcomplete : 5 ≤ data.length ∧ commandSize data ≤ data.length
    · rw [if_pos hcomplete.1, after, if_pos hcomplete.2]
      dsimp only
      rw [List.length_drop]
      exact iff_of_true ⟨iff_of_true (by omega) rfl, by omega, fun _ ↦ rfl⟩ (Or.inr hcomplete)
    · have hnone : (if 5 ≤ data.length then after (commandSize data) data else none) = none := by
        unfold after
        split_ifs with hfive hsize
        · exact absurd ⟨hfive, hsize⟩ hcomplete
        · rfl
        · rfl
      rw [hnone, or_iff_left hcomplete]
      dsimp only
      cases object.isValid with
      | true => exact iff_of_false (fun h ↦ absurd (h.1.mpr rfl) (by decide)) Bool.noConfusion
      | false =>
        refine iff_of_true ⟨iff_of_false (by decide) Bool.false_ne_true, ?_, fun _ ↦ rfl⟩ rfl
        exact (show (-1 : ℤ) ≤ 0 by decide).trans (Int.natCast_nonneg _)

/-- An object which was valid stays so when there are no data. -/
theorem not_hasRightStatus_of_valid :
    ¬ ∀ (object : Object) (data : ByteBlock), object.HasRightStatus data := by
  intro hall
  rcases (hasRightStatus_iff ⟨true, cleared⟩ []).mp (hall _ _) with h | h
  · exact Bool.noConfusion h
  · exact absurd h.1 (by decide)

end SpliceInsert

end TSDuck
