import Mathlib.Data.List.Basic

/-!
# Records in a stream of data

Data come in successive pieces, and records are taken at the front of what has been received as soon
as they are complete. When a record does not depend on what follows it (`IsStream`), the records which
are taken and what remains at the end do not depend on how the data are cut into pieces
(`feedAll_eq`).
-/

universe u v

variable {Item : Type u} {Record : Type v}

/-- Takes records at the front, in a number of turns. -/
def takeRecords (readRecord : List Item → Option (Record × List Item)) :
    ℕ → List Item → List Record × List Item
  | 0, data => ([], data)
  | turns + 1, data =>
    match readRecord data with
    | none => ([], data)
    | some (record, rest) =>
      let result := takeRecords readRecord turns rest
      (record :: result.1, result.2)

def takeAllRecords (readRecord : List Item → Option (Record × List Item)) (data : List Item) :
    List Record × List Item :=
  takeRecords readRecord data.length data

/-- A piece of data is received after what remains of the previous ones. -/
def feedRecords (readRecord : List Item → Option (Record × List Item)) (remaining : List Item)
    (piece : List Item) : List Record × List Item :=
  takeAllRecords readRecord (remaining ++ piece)

def feedAll (readRecord : List Item → Option (Record × List Item)) :
    List Item → List (List Item) → List Record × List Item
  | remaining, [] => ([], remaining)
  | remaining, piece :: pieces =>
    let first := feedRecords readRecord remaining piece
    let others := feedAll readRecord first.2 pieces
    (first.1 ++ others.1, others.2)

/-- A record is not empty and does not depend on what follows it. -/
structure IsStream (readRecord : List Item → Option (Record × List Item)) : Prop where
  shorter : ∀ {data record rest}, readRecord data = some (record, rest) → rest.length < data.length
  append : ∀ {data record rest}, readRecord data = some (record, rest) → ∀ more,
    readRecord (data ++ more) = some (record, rest ++ more)

namespace IsStream

variable {readRecord : List Item → Option (Record × List Item)} (hstream : IsStream readRecord)

include hstream

theorem takeRecords_eq {turns : ℕ} {data : List Item} (hturns : data.length ≤ turns) :
    takeRecords readRecord turns data = takeAllRecords readRecord data := by
  have hsame : ∀ (first second : ℕ) (data : List Item), data.length ≤ first → data.length ≤ second →
      takeRecords readRecord first data = takeRecords readRecord second data := by
    intro first
    induction first with
    | zero =>
      intro second data hfirst hsecond
      obtain rfl := List.eq_nil_of_length_eq_zero (Nat.le_zero.mp hfirst)
      cases second with
      | zero => rfl
      | succ second =>
        rw [takeRecords, takeRecords]
        cases hread : readRecord [] with
        | none => rfl
        | some result => exact absurd (hstream.shorter hread) (Nat.not_lt_zero _)
    | succ first ih =>
      intro second data hfirst hsecond
      cases second with
      | zero =>
        obtain rfl := List.eq_nil_of_length_eq_zero (Nat.le_zero.mp hsecond)
        rw [takeRecords, takeRecords]
        cases hread : readRecord [] with
        | none => rfl
        | some result => exact absurd (hstream.shorter hread) (Nat.not_lt_zero _)
      | succ second =>
        rw [takeRecords, takeRecords]
        cases hread : readRecord data with
        | none => rfl
        | some result =>
          have hshorter := hstream.shorter hread
          dsimp only
          rw [ih second _ (by omega) (by omega)]
  exact hsame turns data.length data hturns (Nat.le_refl _)

/-- The complete records are those at the front and the following ones. -/
theorem takeAllRecords_eq (data : List Item) :
    takeAllRecords readRecord data = match readRecord data with
      | none => ([], data)
      | some (record, rest) =>
        (record :: (takeAllRecords readRecord rest).1, (takeAllRecords readRecord rest).2) := by
  conv_lhs => unfold takeAllRecords
  cases hread : readRecord data with
  | none =>
    cases data.length with
    | zero => rfl
    | succ turns =>
      rw [takeRecords, hread]
  | some result =>
    have hshorter := hstream.shorter hread
    obtain ⟨turns, hlength⟩ := Nat.exists_eq_succ_of_ne_zero (show data.length ≠ 0 by omega)
    rw [hlength, takeRecords, hread]
    dsimp only
    rw [hstream.takeRecords_eq (by omega)]

/-- Nothing remains but an incomplete record. -/
theorem readRecord_remaining (data : List Item) :
    readRecord (takeAllRecords readRecord data).2 = none := by
  induction hlength : data.length using Nat.strongRecOn generalizing data with
  | ind length ih =>
    rw [hstream.takeAllRecords_eq]
    cases hread : readRecord data with
    | none => exact hread
    | some result =>
      have hshorter := hstream.shorter hread
      exact ih result.2.length (by omega) result.2 rfl

/-- The records of some data come before the next ones. -/
theorem takeAllRecords_append (data more : List Item) :
    takeAllRecords readRecord (data ++ more) = ((takeAllRecords readRecord data).1 ++
          (feedRecords readRecord (takeAllRecords readRecord data).2 more).1,
        (feedRecords readRecord (takeAllRecords readRecord data).2 more).2) := by
  induction hlength : data.length using Nat.strongRecOn generalizing data with
  | ind length ih =>
    rw [hstream.takeAllRecords_eq data]
    cases hread : readRecord data with
    | none => rfl
    | some result =>
      have hshorter := hstream.shorter hread
      rw [hstream.takeAllRecords_eq, hstream.append hread more]
      dsimp only
      rw [ih result.2.length (by omega) result.2 rfl]
      rfl

/-- The pieces give the same records as all data at once. -/
theorem feedAll_eq {remaining : List Item} (hremaining : readRecord remaining = none)
    (pieces : List (List Item)) :
    feedAll readRecord remaining pieces =
      takeAllRecords readRecord (remaining ++ pieces.flatten) := by
  induction pieces generalizing remaining with
  | nil =>
    rw [List.flatten_nil, List.append_nil, hstream.takeAllRecords_eq, hremaining]
    rfl
  | cons piece pieces ih =>
    rw [List.flatten_cons, ← List.append_assoc, hstream.takeAllRecords_append, feedAll]
    unfold feedRecords
    rw [ih (hstream.readRecord_remaining _)]

end IsStream
