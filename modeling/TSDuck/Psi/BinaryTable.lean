import TSDuck.Library.Machine
import TSDuck.Psi.Section
import Mathlib.Data.List.Count

/-!
# Binary tables

A binary table is an array of slots, one for each section of the table, filled one after the other
with `addSection`.

`Consistent` is the representation invariant. `addSection` grows the table before it looks at the
slot of the section, so one combination of arguments rejects a section after the table has grown:
`GrowsOntoOccupied`. `consistent_iff_never_growsOntoOccupied` states that a table stays consistent,
and a rejected section leaves it unchanged, in the runs that never meet this combination and in no
other.

Scope. An invalid section object and a null pointer are both the absence of a section, which
`addSection` rejects first. The sections are values: the code also changes, through the pointer it
is given, the last section number of the section of the caller.
-/

namespace TSDuck

structure BinaryTable where
  isValid : Bool
  tableId : UInt8
  tableIdExtension : ℕ
  version : UInt8
  sourcePid : ℕ
  missingCount : ℤ
  sections : List (Option Section)
  deriving DecidableEq

namespace BinaryTable

def empty : BinaryTable :=
  { isValid := false, tableId := 0xFF, tableIdExtension := 0, version := 0, sourcePid := 0x1FFF,
    missingCount := 0, sections := [] }

/-- The section has the identity of the table. -/
def SameTable (table : BinaryTable) (sect : Section) : Prop :=
  sect.tableId = table.tableId ∧ sect.tableIdExtension = table.tableIdExtension ∧
    sect.version = table.version

instance (table : BinaryTable) (sect : Section) : Decidable (table.SameTable sect) :=
  inferInstanceAs (Decidable (_ ∧ _))

/-- Puts a section in its slot and validates a complete table. -/
def fillSlot (table : BinaryTable) (index : ℕ) (sect : Section) (replace : Bool) :
    Bool × BinaryTable :=
  if table.sections.getD index none = none then
    (true, { table with
      sections := table.sections.set index (some sect)
      missingCount := table.missingCount - 1
      isValid := table.missingCount - 1 == 0 })
  else if replace = false then (false, table)
  else
    (true, { table with
      sections := table.sections.set index (some sect)
      isValid := table.missingCount == 0 })

def start (table : BinaryTable) (sect : Section) : BinaryTable :=
  { table with
    sections := List.replicate (sect.lastSectionNumber + 1) none
    tableId := sect.tableId
    tableIdExtension := sect.tableIdExtension
    version := sect.version
    sourcePid := sect.sourcePid
    missingCount := sect.lastSectionNumber + 1 }

/-- The table with slots up to a last section number. -/
def growTo (table : BinaryTable) (lastSectionNumber : ℕ) : BinaryTable :=
  { table with
    missingCount := table.missingCount + (lastSectionNumber + 1 - table.sections.length)
    sections :=
      table.sections.map (Option.map (·.setLastSectionNumber lastSectionNumber true)) ++
        List.replicate (lastSectionNumber + 1 - table.sections.length) none }

def addSection (table : BinaryTable) (sect : Option Section) (replace grow : Bool) :
    Bool × BinaryTable :=
  match sect with
  | none => (false, table)
  | some sect =>
    let index := sect.sectionNumber
    if table.sections.length = 0 then (table.start sect).fillSlot index sect replace
    else if ¬ table.SameTable sect then (false, table)
    else if grow = false ∧
        (table.sections.length ≤ index ∨ sect.lastSectionNumber ≠ table.sections.length - 1) then
      (false, table)
    else if sect.lastSectionNumber ≠ table.sections.length - 1 then
      if sect.lastSectionNumber < table.sections.length - 1 then
        table.fillSlot index (sect.setLastSectionNumber (table.sections.length - 1) true) replace
      else (table.growTo sect.lastSectionNumber).fillSlot index sect replace
    else table.fillSlot index sect replace

def addSections (table : BinaryTable) (sections : List (Option Section)) (replace grow : Bool) :
    Bool × BinaryTable :=
  sections.foldl
    (fun result sect ↦
      let added := result.2.addSection sect replace grow
      (added.1 && result.1, added.2))
    (true, table)

/-- Drops the empty slots and renumbers the sections. -/
def packSections (table : BinaryTable) : Bool × BinaryTable :=
  if 0 < table.missingCount then
    let present := table.sections.filterMap id
    let packed : BinaryTable :=
      { table with
        sections := present.mapIdx fun index sect ↦
          some ((sect.setSectionNumber index false).setLastSectionNumber (present.length - 1) true)
        missingCount := 0
        isValid := !present.isEmpty }
    (packed.isValid, packed)
  else (table.isValid, table)

def clear (_table : BinaryTable) : BinaryTable :=
  empty

variable {sect : Section} {table : BinaryTable}

theorem addSection_empty_short (hshort : sect.isLongSection = false) :
    (empty.addSection (some sect) true true).2 =
      { isValid := true, tableId := sect.tableId, tableIdExtension := 0, version := 0
        sourcePid := sect.sourcePid, missingCount := 0, sections := [some sect] } := by
  have hnumber : sect.sectionNumber = 0 ∧ sect.lastSectionNumber = 0 ∧
      sect.tableIdExtension = 0 ∧ sect.version = 0 := by
    unfold Section.sectionNumber Section.lastSectionNumber Section.tableIdExtension
      Section.version
    rw [hshort]
    exact ⟨rfl, rfl, rfl, rfl⟩
  obtain ⟨hindex, hlast, hextension, hversion⟩ := hnumber
  unfold addSection start
  simp only [hindex, hlast, hextension, hversion]
  rfl

/-! ### The calls on a table -/

/-- A call that changes a table. -/
inductive Call
  | addSection (sect : Option Section) (replace grow : Bool)
  | packSections
  | clear

/-- A call of `addSection`, its result and its tables. -/
structure Addition where
  accepted : Bool
  before : BinaryTable
  after : BinaryTable

def call (table : BinaryTable) : Call → BinaryTable × List Addition
  | .addSection sect replace grow =>
    let result := table.addSection sect replace grow
    (result.2, [⟨result.1, table, result.2⟩])
  | .packSections => (table.packSections.2, [])
  | .clear => (table.clear, [])

def machine : Machine BinaryTable Call Addition where
  step table input := some (table.call input)

/-- An operation of a client of the table. -/
inductive Operation
  | addSection (sect : Option Section) (replace grow : Bool)
  | addSections (sections : List (Option Section)) (replace grow : Bool)
  | packSections
  | clear

def Operation.calls : Operation → List Call
  | .addSection sect replace grow => [.addSection sect replace grow]
  | .addSections sections replace grow =>
    sections.map fun sect ↦ Call.addSection sect replace grow
  | .packSections => [.packSections]
  | .clear => [.clear]

theorem addSections_eq_run (table : BinaryTable) (sections : List (Option Section))
    (replace grow : Bool) :
    ∃ additions, machine.run table (Operation.addSections sections replace grow).calls =
        some ((table.addSections sections replace grow).2, additions) ∧
      (table.addSections sections replace grow).1 = additions.all (·.accepted) := by
  have hgeneral : ∀ (list : List (Option Section)) (current : BinaryTable) (ok : Bool), ∃ additions,
        machine.run current (list.map fun sect ↦ Call.addSection sect replace grow) =
          some ((list.foldl (fun (result : Bool × BinaryTable) sect ↦
            let added := result.2.addSection sect replace grow
            (added.1 && result.1, added.2)) (ok, current)).2, additions) ∧
        (list.foldl (fun (result : Bool × BinaryTable) sect ↦
            let added := result.2.addSection sect replace grow
            (added.1 && result.1, added.2)) (ok, current)).1 =
          (additions.all (·.accepted) && ok) := by
    intro list
    induction list with
    | nil => exact fun current ok ↦ ⟨[], rfl, by simp⟩
    | cons sect rest ih =>
      intro current ok
      obtain ⟨additions, hrun, haccepted⟩ :=
        ih (current.addSection sect replace grow).2
          ((current.addSection sect replace grow).1 && ok)
      refine ⟨⟨(current.addSection sect replace grow).1, current,
        (current.addSection sect replace grow).2⟩ :: additions, ?_, ?_⟩
      · exact machine.run_cons_eq_some.mpr ⟨_, _, additions, rfl, hrun, rfl⟩
      · rw [List.foldl_cons, haccepted, List.all_cons, Bool.and_left_comm, Bool.and_assoc]
  obtain ⟨additions, hrun, haccepted⟩ := hgeneral sections table true
  exact ⟨additions, hrun, by rw [addSections, haccepted, Bool.and_true]⟩

/-- A section with the identity and the numbers of its slot. -/
def Fits (table : BinaryTable) (index : ℕ) (sect : Section) : Prop :=
  table.SameTable sect ∧ (sect.isLongSection = true →
    sect.sectionNumber = index ∧ sect.lastSectionNumber = table.sections.length - 1)

/-- The slots and the missing count agree. -/
structure Aligned (table : BinaryTable) : Prop where
  missingCount_eq : table.missingCount = table.sections.count none
  slot : ∀ index sect, table.sections[index]? = some (some sect) → table.Fits index sect

/-- The slots are counted, and each one holds its section. -/
structure Consistent (table : BinaryTable) : Prop extends Aligned table where
  isValid_iff : table.isValid = true ↔ table.sections ≠ [] ∧ none ∉ table.sections

/-- The table grows, and the slot is already filled. -/
def GrowsOntoOccupied (table : BinaryTable) : Call → Prop
  | .addSection (some sect) false true =>
    table.sections ≠ [] ∧ table.SameTable sect ∧ table.sections.length ≤ sect.lastSectionNumber ∧
      table.sections.getD sect.sectionNumber none ≠ none
  | _ => False

/-- The section is one of those which its table announces. -/
def Call.IndexInRange : Call → Prop
  | .addSection (some sect) _ _ => sect.IndexInRange
  | _ => True

/-- The sections are those which their tables announce. -/
def Operation.IndexInRange (operation : Operation) : Prop :=
  ∀ call ∈ operation.calls, call.IndexInRange

theorem consistent_empty : empty.Consistent :=
  ⟨⟨rfl, fun _ _ h ↦ by simp [empty] at h⟩, by simp [empty]⟩

/-! ### Filling a slot -/

/-- The section is put in its slot and counted. -/
theorem Aligned.set (haligned : table.Aligned) {index : ℕ} (hindex : index < table.sections.length)
    (hfits : table.Fits index sect) (isValid : Bool) {missingCount : ℤ} (hmissing : missingCount =
      table.missingCount - if table.sections.getD index none = none then 1 else 0) :
    ({ table with
      sections := table.sections.set index (some sect), missingCount, isValid } :
        BinaryTable).Aligned := by
  have hslot : table.sections.getD index none = table.sections[index] :=
    List.getD_eq_getElem _ _ hindex
  refine ⟨?_, fun other stored hstored ↦ ?_⟩
  · show missingCount = ((table.sections.set index (some sect)).count none : ℕ)
    rw [hmissing, haligned.missingCount_eq, List.count_set hindex, hslot]
    by_cases hnone : table.sections[index] = none
    · have hpositive : 0 < table.sections.count none :=
        List.count_pos_iff.mpr (hnone ▸ List.getElem_mem hindex)
      simp only [hnone, beq_self_eq_true, if_true]
      simp
      omega
    · simp [hnone]
  · have hfitsAll : table.Fits other stored := by
      by_cases hsame : other = index
      · subst hsame
        have hstored' : some (some sect) = some (some stored) := by
          rw [← hstored]
          exact (List.getElem?_set_self hindex).symm
        obtain rfl := Option.some.inj (Option.some.inj hstored')
        exact hfits
      · refine haligned.slot other stored ?_
        rw [← hstored]
        exact (List.getElem?_set_ne (Ne.symm hsame)).symm
    unfold Fits SameTable at hfitsAll ⊢
    rwa [List.length_set]

theorem Aligned.consistent (haligned : table.Aligned) (hslots : table.sections ≠ [])
    (hvalid : table.isValid = (table.missingCount == 0)) :
    table.Consistent := by
  refine ⟨haligned, ?_⟩
  have hcount : (table.missingCount == 0) = true ↔ none ∉ table.sections := by
    rw [beq_iff_eq, haligned.missingCount_eq, ← List.count_eq_zero]
    omega
  rw [hvalid, hcount]
  exact ⟨fun hnone ↦ ⟨hslots, hnone⟩, And.right⟩

/-- The section is put in the slot, or nothing changes. -/
theorem Aligned.fillSlot (haligned : table.Aligned) {index : ℕ} (hindex : index < table.sections.length)
    (hfits : table.Fits index sect) (replace : Bool) :
    ((table.fillSlot index sect replace).1 = true ∧
        (table.fillSlot index sect replace).2.Consistent ∧
        (table.fillSlot index sect replace).2.sections.length = table.sections.length) ∨
      (table.sections.getD index none ≠ none ∧ replace = false ∧
        table.fillSlot index sect replace = (false, table)) := by
  have hslots : table.sections.set index (some sect) ≠ [] := by
    apply List.ne_nil_of_length_pos
    rw [List.length_set]
    omega
  unfold BinaryTable.fillSlot
  split_ifs with hnone hreplace
  · refine Or.inl ⟨rfl, ?_, List.length_set⟩
    exact (haligned.set hindex hfits _ (by rw [if_pos hnone])).consistent hslots rfl
  · exact Or.inr ⟨hnone, hreplace, rfl⟩
  · refine Or.inl ⟨rfl, ?_, List.length_set⟩
    exact (haligned.set hindex hfits _ (by rw [if_neg hnone, sub_zero])).consistent hslots rfl

/-! ### Adding a section -/

theorem aligned_start (table : BinaryTable) (sect : Section) :
    (table.start sect).Aligned ∧ (table.start sect).Fits sect.sectionNumber sect := by
  refine ⟨⟨?_, fun index stored hstored ↦ ?_⟩, ⟨rfl, rfl, rfl⟩, fun _ ↦ ⟨rfl, ?_⟩⟩
  · simp [start]
  · have hmem := List.mem_of_getElem? hstored
    simp [start] at hmem
  · simp [start]

theorem count_none_map {α β : Type*} [DecidableEq α] [DecidableEq β] (f : α → β)
    (list : List (Option α)) : (list.map (Option.map f)).count none = list.count none := by
  induction list with
  | nil => rfl
  | cons head rest ih => cases head <;> simp [ih]

theorem length_growTo (table : BinaryTable) {lastSectionNumber : ℕ}
    (hgrow : table.sections.length ≤ lastSectionNumber) :
    (table.growTo lastSectionNumber).sections.length = lastSectionNumber + 1 := by
  simp only [growTo, List.length_append, List.length_map, List.length_replicate]
  omega

theorem Aligned.growTo (haligned : table.Aligned) {lastSectionNumber : ℕ}
    (hgrow : table.sections.length ≤ lastSectionNumber) (hbyte : lastSectionNumber < 256) :
    (table.growTo lastSectionNumber).Aligned := by
  refine ⟨?_, fun index stored hstored ↦ ?_⟩
  · simp only [BinaryTable.growTo, List.count_append, count_none_map, List.count_replicate_self,
      haligned.missingCount_eq]
    omega
  · have hmem : ∃ sect, table.sections[index]? = some (some sect) ∧
        sect.setLastSectionNumber lastSectionNumber true = stored := by
      simp only [BinaryTable.growTo, List.getElem?_append, List.length_map] at hstored
      split_ifs at hstored with hbefore
      · simp only [List.getElem?_map, Option.map_eq_some_iff] at hstored
        obtain ⟨slot, hslot, sect, rfl, rfl⟩ := hstored
        exact ⟨sect, hslot, rfl⟩
      · have hnone := List.mem_of_getElem? hstored
        simp at hnone
    obtain ⟨sect, hsect, rfl⟩ := hmem
    obtain ⟨hsame, hlong⟩ := haligned.slot index sect hsect
    refine ⟨?_, fun hstill ↦ ?_⟩
    · simpa [SameTable, BinaryTable.growTo] using hsame
    · rw [Section.isLongSection_setLastSectionNumber] at hstill
      rw [Section.sectionNumber_setLastSectionNumber,
        Section.lastSectionNumber_setLastSectionNumber hstill hbyte, length_growTo table hgrow]
      exact ⟨(hlong hstill).1, rfl⟩

/-- A consistent table, or it grows onto an occupied slot. -/
theorem Consistent.addSection (hconsistent : table.Consistent) (hbyte : table.sections.length ≤ 256)
    (hindex : sect.IndexInRange) (replace grow : Bool) :
    (¬ table.GrowsOntoOccupied (.addSection (some sect) replace grow) ∧
        (table.addSection (some sect) replace grow).2.Consistent ∧
        (table.addSection (some sect) replace grow).2.sections.length ≤ 256 ∧
        ((table.addSection (some sect) replace grow).1 = false →
          (table.addSection (some sect) replace grow).2 = table)) ∨
      (table.GrowsOntoOccupied (.addSection (some sect) replace grow) ∧
        (table.addSection (some sect) replace grow).1 = false ∧
        table.sections.length < (table.addSection (some sect) replace grow).2.sections.length) := by
  have hlast := sect.lastSectionNumber_lt
  unfold Section.IndexInRange at hindex
  simp only [BinaryTable.addSection]
  by_cases hempty : table.sections.length = 0
  · rw [if_pos hempty]
    have hslots : (table.start sect).sections.length = sect.lastSectionNumber + 1 := by
      simp [start]
    have hnil := List.eq_nil_of_length_eq_zero hempty
    have hnever : ¬ table.GrowsOntoOccupied (.addSection (some sect) replace grow) := by
      cases replace <;> cases grow <;> simp [GrowsOntoOccupied, hnil]
    obtain ⟨haligned, hfits⟩ := aligned_start table sect
    rcases haligned.fillSlot (by omega) hfits replace with
      ⟨haccepted, hresult, hlength⟩ | ⟨hfilled, -, -⟩
    · exact Or.inl ⟨hnever, hresult, by omega, fun hrejected ↦ by simp [haccepted] at hrejected⟩
    · refine absurd ?_ hfilled
      rw [List.getD_eq_getElem _ _ (by omega)]
      simp [start]
  · rw [if_neg hempty]
    by_cases hsame : table.SameTable sect
    · rw [if_neg (not_not.mpr hsame)]
      by_cases hfixed : grow = false ∧ (table.sections.length ≤ sect.sectionNumber ∨
          sect.lastSectionNumber ≠ table.sections.length - 1)
      · rw [if_pos hfixed]
        refine Or.inl ⟨?_, hconsistent, hbyte, fun _ ↦ rfl⟩
        obtain ⟨rfl, -⟩ := hfixed
        cases replace <;> simp [GrowsOntoOccupied]
      · rw [if_neg hfixed]
        by_cases hlarger : table.sections.length ≤ sect.lastSectionNumber
        · rw [if_pos (by omega), if_neg (by omega)]
          have hgrow : grow = true := by
            by_contra hno
            exact hfixed ⟨by simpa using hno, Or.inr (by omega)⟩
          subst hgrow
          have hlength := length_growTo table hlarger
          have hfits : (table.growTo sect.lastSectionNumber).Fits sect.sectionNumber sect :=
            ⟨hsame, fun _ ↦ ⟨rfl, by rw [hlength]; rfl⟩⟩
          have hoccupied : (table.growTo sect.lastSectionNumber).sections.getD
              sect.sectionNumber none = none ↔
                table.sections.getD sect.sectionNumber none = none := by
            simp only [BinaryTable.growTo, List.getD_eq_getElem?_getD, List.getElem?_append,
              List.length_map]
            split_ifs with hbefore
            · simp [List.getElem?_eq_getElem hbefore]
            · rw [List.getElem?_eq_none (by omega : table.sections.length ≤ sect.sectionNumber)]
              simp [List.getElem?_replicate]
              split_ifs <;> rfl
          rcases (hconsistent.growTo hlarger hlast).fillSlot (by omega) hfits replace with
            ⟨haccepted, hresult, hsize⟩ | ⟨hfilled, rfl, hresult⟩
          · by_cases hnever :
                table.GrowsOntoOccupied (.addSection (some sect) replace true)
            · exfalso
              cases replace with
              | true => exact hnever
              | false =>
                have hnone := (not_congr hoccupied).mpr hnever.2.2.2
                simp [BinaryTable.fillSlot, -List.getD_eq_getElem?_getD, hnone] at haccepted
            · exact Or.inl ⟨hnever, hresult, by omega,
                fun hrejected ↦ by simp [haccepted] at hrejected⟩
          · refine Or.inr ⟨⟨?_, hsame, hlarger, (not_congr hoccupied).mp hfilled⟩, ?_, ?_⟩
            · exact fun hnil ↦ hempty (by rw [hnil]; rfl)
            · rw [hresult]
            · rw [hresult, hlength]
              omega
        · have hnever :
              ¬ table.GrowsOntoOccupied (.addSection (some sect) replace grow) := by
            have hno : ¬ table.sections.length ≤ sect.lastSectionNumber := hlarger
            cases replace <;> cases grow <;> simp [GrowsOntoOccupied, hno]
          have hstays : ∀ added : Section, table.Fits sect.sectionNumber added →
              (table.fillSlot sect.sectionNumber added replace).2.Consistent ∧
                (table.fillSlot sect.sectionNumber added replace).2.sections.length ≤ 256 ∧
                ((table.fillSlot sect.sectionNumber added replace).1 = false →
                  (table.fillSlot sect.sectionNumber added replace).2 = table) := by
            intro added hfits
            rcases hconsistent.toAligned.fillSlot (by omega) hfits replace with
              ⟨haccepted, hresult, hsize⟩ | ⟨-, -, hresult⟩
            · exact ⟨hresult, by omega, fun hrejected ↦ by simp [haccepted] at hrejected⟩
            · rw [hresult]
              exact ⟨hconsistent, hbyte, fun _ ↦ rfl⟩
          refine Or.inl ⟨hnever, ?_⟩
          split_ifs with hdifferent hsmaller
          · refine hstays _ ⟨?_, fun hlong ↦ ?_⟩
            · simpa [SameTable] using hsame
            · rw [Section.isLongSection_setLastSectionNumber] at hlong
              rw [Section.sectionNumber_setLastSectionNumber,
                Section.lastSectionNumber_setLastSectionNumber hlong (by omega)]
              exact ⟨rfl, rfl⟩
          · omega
          · exact hstays sect ⟨hsame, fun _ ↦ ⟨rfl, not_not.mp hdifferent⟩⟩
    · rw [if_pos hsame]
      refine Or.inl ⟨?_, hconsistent, hbyte, fun _ ↦ rfl⟩
      cases replace <;> cases grow <;> simp [GrowsOntoOccupied, hsame]

theorem Consistent.packSections (hconsistent : table.Consistent) (hbyte : table.sections.length ≤ 256) :
    table.packSections.2.Consistent ∧ table.packSections.2.sections.length ≤ 256 := by
  unfold BinaryTable.packSections
  split_ifs with hmissing
  · have hfewer := List.length_filterMap_le id table.sections
    refine ⟨⟨⟨?_, fun index stored hstored ↦ ?_⟩, ?_⟩, ?_⟩
    · show (0 : ℤ) = _
      have hfilled : (none : Option Section) ∉
          (table.sections.filterMap id).mapIdx fun index sect ↦
            some ((sect.setSectionNumber index false).setLastSectionNumber
              ((table.sections.filterMap id).length - 1) true) := by
        simp [List.mem_mapIdx]
      rw [List.count_eq_zero.mpr hfilled]
      rfl
    · simp only [List.getElem?_mapIdx, Option.map_eq_some_iff, Option.some.injEq] at hstored
      obtain ⟨sect, hsect, rfl⟩ := hstored
      have hindex : index < (table.sections.filterMap id).length :=
        (List.getElem?_eq_some_iff.mp hsect).1
      have hmem : some sect ∈ table.sections := by
        have hpresent := List.mem_of_getElem? hsect
        rw [List.mem_filterMap] at hpresent
        obtain ⟨slot, hslot, rfl⟩ := hpresent
        exact hslot
      obtain ⟨slot, hslot⟩ := List.getElem?_of_mem hmem
      obtain ⟨hsame, -⟩ := hconsistent.slot slot sect hslot
      refine ⟨by simpa [SameTable] using hsame, fun hlong ↦ ?_⟩
      rw [Section.isLongSection_setLastSectionNumber, Section.isLongSection_setSectionNumber]
        at hlong
      have hstill : (sect.setSectionNumber index false).isLongSection = true := by
        rw [Section.isLongSection_setSectionNumber]
        exact hlong
      rw [Section.sectionNumber_setLastSectionNumber,
        Section.sectionNumber_setSectionNumber hlong (by omega),
        Section.lastSectionNumber_setLastSectionNumber hstill (by omega), List.length_mapIdx]
      exact ⟨rfl, rfl⟩
    · simp [List.mem_mapIdx]
    · show (List.mapIdx _ _).length ≤ 256
      rw [List.length_mapIdx]
      omega
  · exact ⟨hconsistent, hbyte⟩

/-! ### Runs of calls -/

/-- A call keeps a consistent table, unless it grows onto a slot. -/
theorem Consistent.call (hconsistent : table.Consistent) (hbyte : table.sections.length ≤ 256)
    {input : Call} (hindex : input.IndexInRange) (hnever : ¬ table.GrowsOntoOccupied input) :
    ((table.call input).1.Consistent ∧ (table.call input).1.sections.length ≤ 256) ∧
      ∀ addition ∈ (table.call input).2, addition.accepted = false →
        addition.after = addition.before := by
  cases input with
  | addSection sect replace grow =>
    cases sect with
    | none =>
      refine ⟨⟨hconsistent, hbyte⟩, fun addition hmem _ ↦ ?_⟩
      obtain rfl := List.mem_singleton.mp hmem
      rfl
    | some sect =>
      rcases hconsistent.addSection hbyte hindex replace grow with
        ⟨-, hnext, hsize, hsame⟩ | ⟨hgrows, -, -⟩
      · refine ⟨⟨hnext, hsize⟩, fun addition hmem hrejected ↦ ?_⟩
        obtain rfl := List.mem_singleton.mp hmem
        exact hsame hrejected
      · exact absurd hgrows hnever
  | packSections => exact ⟨hconsistent.packSections hbyte, fun _ hmem ↦ by cases hmem⟩
  | clear => exact ⟨⟨consistent_empty, Nat.zero_le 256⟩, fun _ hmem ↦ by cases hmem⟩

theorem GrowsOntoOccupied.not_unchanged (hconsistent : table.Consistent)
    (hbyte : table.sections.length ≤ 256) {input : Call} (hindex : input.IndexInRange)
    (hgrows : table.GrowsOntoOccupied input) :
    ¬ ∀ addition ∈ (table.call input).2, addition.accepted = false →
      addition.after = addition.before := by
  intro hunchanged
  match input, hgrows with
  | .addSection (some sect) false true, hgrows =>
    rcases hconsistent.addSection hbyte hindex false true with
      ⟨hnever, -⟩ | ⟨-, hrejected, hlonger⟩
    · exact hnever hgrows
    · have hsame : (table.addSection (some sect) false true).2 = table :=
        hunchanged _ (List.mem_singleton.mpr rfl) hrejected
      rw [hsame] at hlonger
      exact lt_irrefl _ hlonger

/-- Runs from an empty table, with sections that their tables announce. The table is consistent, and
unchanged when a section is rejected, if and only if no call grows it onto an occupied slot. -/
theorem consistent_iff_never_growsOntoOccupied (operations : List Operation)
    (hindex : ∀ operation ∈ operations, operation.IndexInRange) :
    machine.HoldsAlong Consistent
        (fun addition ↦ addition.accepted = false → addition.after = addition.before)
        empty (operations.flatMap Operation.calls) ↔
      machine.Meets (fun table input ↦ ¬ table.GrowsOntoOccupied input)
        empty (operations.flatMap Operation.calls) := by
  obtain ⟨last, outputs, hrun⟩ := machine.exists_run
    (fun table input ↦ ⟨_, _, rfl⟩) empty (operations.flatMap Operation.calls)
  have hinputs : ∀ input ∈ operations.flatMap Operation.calls, input.IndexInRange := by
    intro input hmem
    obtain ⟨operation, hoperation, hinput⟩ := List.mem_flatMap.mp hmem
    exact hindex operation hoperation input hinput
  refine machine.holdsAlong_iff_meets
    (fun table (htable : table.Consistent ∧ table.sections.length ≤ 256) ↦ htable.1)
    ?_ ?_ hinputs ⟨consistent_empty, Nat.zero_le 256⟩ hrun
  · rintro table input next outputs hinput ⟨htable, hbyte⟩ hnever hstep
    have hcall := htable.call hbyte hinput hnever
    rwa [Option.some.inj hstep] at hcall
  · rintro table input next outputs hinput ⟨htable, hbyte⟩ hgrows hstep ⟨-, hunchanged⟩
    refine (not_not.mp hgrows).not_unchanged htable hbyte hinput ?_
    rwa [Option.some.inj hstep]

/-- A section without payload of the table 0x42, extension 1, version 0. -/
def emptySection (number last : UInt8) : Section :=
  Section.recomputeCRC
    { content := [0x42, 0xB0, 9, 0, 1, 0xC1, number, last, 0, 0, 0, 0]
      sourcePid := 0x11
      firstPkt := 0
      lastPkt := 0
      bytes := ⟨by simp [announcedSize, getUInt16, byteAt, shortSectionHeaderSize],
        by simp [maxPrivateSectionSize], fun _ ↦ le_refl 12⟩ }

/-- A section 0, then the one of a larger table. -/
def growthOperations : List Operation :=
  [.addSection (some (emptySection 0 0)) false false,
    .addSection (some (emptySection 0 1)) false true]

/-- The second section is rejected but the table has grown. -/
theorem growthOperations_not_consistent :
    (∀ operation ∈ growthOperations, operation.IndexInRange) ∧ ¬ machine.HoldsAlong Consistent
        (fun addition ↦ addition.accepted = false → addition.after = addition.before)
        empty (growthOperations.flatMap Operation.calls) := by
  constructor
  · simp only [growthOperations, Operation.IndexInRange, Operation.calls, List.mem_cons,
      List.not_mem_nil, or_false, forall_eq_or_imp, forall_eq, Call.IndexInRange]
    decide
  · intro hholds
    obtain ⟨last, outputs, hrun⟩ := machine.exists_run
      (fun table input ↦ ⟨_, _, rfl⟩) empty (growthOperations.flatMap Operation.calls)
    have hlast := (hholds _ (List.prefix_refl _) last outputs hrun).1
    have hvalid : last.isValid = true ∧ none ∈ last.sections := by
      obtain ⟨rfl, -⟩ := Prod.mk.inj (Option.some.inj hrun)
      decide
    exact (hlast.isValid_iff.mp hvalid.1).2 hvalid.2

/-- Two sections, the second one twice, then packing. -/
theorem consistent_two_sections :
    machine.HoldsAlong Consistent
      (fun addition ↦ addition.accepted = false → addition.after = addition.before) empty
      ([Operation.addSections [some (emptySection 0 1), some (emptySection 1 1)] false false,
        .addSection (some (emptySection 1 1)) true true, .packSections, .clear].flatMap
          Operation.calls) := by
  refine (consistent_iff_never_growsOntoOccupied _ ?_).mpr ?_
  · simp only [Operation.IndexInRange, Operation.calls, List.mem_cons, List.map_cons, List.map_nil,
      List.not_mem_nil, or_false, forall_eq_or_imp, forall_eq, Call.IndexInRange]
    decide
  · simp [Operation.calls, Machine.Meets, GrowsOntoOccupied]

end BinaryTable

end TSDuck
