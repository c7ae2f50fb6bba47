import Mathlib.Data.List.Basic

/-!
# Sequences of records

A sequence of records is read by reading records at the front of the data until what remains is not a
record, in at most as many turns as there are items: a record takes at least one. Reading back the
encoding of some records gives these records when each of them is read back in front of any other
data (`readRecords_flatMap`).
-/

universe u v

variable {Item : Type u} {Record : Type v}

/-- Reads records at the front of the data, in a limited number of turns. -/
def readRecords (readRecord : List Item → Option (Record × List Item)) :
    ℕ → List Item → List Record
  | 0, _ => []
  | turns + 1, data =>
    match readRecord data with
    | none => []
    | some (record, rest) => record :: readRecords readRecord turns rest

def readAllRecords (readRecord : List Item → Option (Record × List Item)) (data : List Item) :
    List Record :=
  readRecords readRecord data.length data

variable {readRecord : List Item → Option (Record × List Item)} {encode : Record → List Item}
  {records : List Record}

/-- Records which are read in front of any data are read back. -/
theorem readRecords_flatMap (hrecords : ∀ record ∈ records, ∀ rest,
      readRecord (encode record ++ rest) = some (record, rest))
    {tail : List Item} (htail : readRecord tail = none)
    {turns : ℕ} (hturns : records.length ≤ turns) :
    readRecords readRecord turns (records.flatMap encode ++ tail) = records := by
  induction records generalizing turns with
  | nil =>
    cases turns with
    | zero => rfl
    | succ turns =>
      rw [List.flatMap_nil, List.nil_append, readRecords, htail]
  | cons record rest ih =>
    obtain ⟨left, rfl⟩ := Nat.exists_eq_succ_of_ne_zero (by
      rw [List.length_cons] at hturns
      omega : turns ≠ 0)
    rw [List.length_cons, Nat.succ_le_succ_iff] at hturns
    rw [List.flatMap_cons, List.append_assoc, readRecords, hrecords record List.mem_cons_self]
    show record :: _ = _
    rw [ih (List.forall_mem_cons.mp hrecords).2 hturns]

theorem length_le_length_flatMap (hrecords : ∀ record ∈ records, encode record ≠ []) :
    records.length ≤ (records.flatMap encode).length := by
  induction records with
  | nil => exact Nat.zero_le _
  | cons record rest ih =>
    have hfirst := List.length_pos_iff.mpr (hrecords record List.mem_cons_self)
    have hrest := ih (List.forall_mem_cons.mp hrecords).2
    rw [List.flatMap_cons, List.length_append, List.length_cons]
    omega

/-- All the records are read back. -/
theorem readAllRecords_flatMap (hnonempty : ∀ record ∈ records, encode record ≠ [])
    (hrecords : ∀ record ∈ records, ∀ rest,
      readRecord (encode record ++ rest) = some (record, rest))
    {tail : List Item} (htail : readRecord tail = none) :
    readAllRecords readRecord (records.flatMap encode ++ tail) = records := by
  apply readRecords_flatMap hrecords htail
  rw [List.length_append]
  exact Nat.le_trans (length_le_length_flatMap hnonempty) (Nat.le_add_right _ _)

def readCounted (readRecord : List Item → Option (Record × List Item)) :
    ℕ → List Item → Option (List Record × List Item)
  | 0, data => some ([], data)
  | count + 1, data =>
    match readRecord data with
    | none => none
    | some (record, rest) =>
      (readCounted readRecord count rest).map fun read ↦ (record :: read.1, read.2)

/-- As many values as there are records are read from their encoding. -/
theorem readCounted_flatMap {Source : Type*} {encode : Source → List Item} {value : Source → Record}
    {sources : List Source}
    (hsources : ∀ source ∈ sources, ∀ rest,
      readRecord (encode source ++ rest) = some (value source, rest))
    (tail : List Item) :
    readCounted readRecord sources.length (sources.flatMap encode ++ tail) =
      some (sources.map value, tail) := by
  induction sources with
  | nil => rfl
  | cons source sources ih =>
    have hrest := ih (List.forall_mem_cons.mp hsources).2
    rw [List.length_cons, List.flatMap_cons, List.append_assoc, readCounted,
      hsources source List.mem_cons_self]
    dsimp only
    rw [hrest]
    rfl

section Parts

variable {State : Type u} {use : State → Record → State} {set : State → State}

/-- A setting commutes with the records. -/
theorem foldl_comm (hcomm : ∀ state record, use (set state) record = set (use state record))
    (records : List Record) (state : State) :
    records.foldl use (set state) = set (records.foldl use state) := by
  induction records generalizing state with
  | nil => rfl
  | cons record rest ih => rw [List.foldl_cons, List.foldl_cons, hcomm, ih]

/-- The parts are used as the list of all records. -/
theorem foldl_parts (hcomm : ∀ state record, use (set state) record = set (use state record))
    (hset : ∀ state, set (set state) = set state) {parts : List (List Record)}
    (hnonempty : parts ≠ []) (state : State) :
    parts.foldl (fun state part ↦ part.foldl use (set state)) state =
      set (parts.flatten.foldl use state) := by
  have hrest : ∀ (parts : List (List Record)) (state : State),
      parts.foldl (fun state part ↦ part.foldl use (set state)) (set state) =
        set (parts.flatten.foldl use state) := by
    intro parts
    induction parts with
    | nil =>
      intro state
      rfl
    | cons part parts ih =>
      intro state
      rw [List.foldl_cons, List.flatten_cons, List.foldl_append, hset, foldl_comm hcomm, ih]
  obtain ⟨part, parts, rfl⟩ := List.exists_cons_of_ne_nil hnonempty
  rw [List.foldl_cons, foldl_comm hcomm, hrest, List.flatten_cons, List.foldl_append]

end Parts
