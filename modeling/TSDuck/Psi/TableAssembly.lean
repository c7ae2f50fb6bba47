import TSDuck.Psi.BinaryTable

/-!
# Building a table from its sections in order

When the sections of a table are added one after the other, from the first one to the last one, each
call of `addSection` fills the next slot: `filledWith` is the table in between. `addSections_inOrder`
gives the table which a complete list of sections makes, whatever the flags of the calls are, and
`eq_ofSections` states that a valid table is the one which its sections make in this way, apart from
the PID it comes from.
-/

namespace TSDuck

namespace BinaryTable

/-- The first sections of a table of some number of slots. -/
def InOrder (model : Section) (count : ℕ) (sections : List Section) : Prop :=
  ∀ index (sect : Section), sections[index]? = some sect →
    sect.tableId = model.tableId ∧ sect.tableIdExtension = model.tableIdExtension ∧
      sect.version = model.version ∧ sect.sectionNumber = index ∧ sect.lastSectionNumber + 1 = count

/-- A table whose first slots are filled. -/
def filledWith (model : Section) (count : ℕ) (sections : List Section) : BinaryTable :=
  { isValid := sections.length == count
    tableId := model.tableId
    tableIdExtension := model.tableIdExtension
    version := model.version
    sourcePid := model.sourcePid
    missingCount := (count : ℤ) - sections.length
    sections := sections.map some ++ List.replicate (count - sections.length) none }

variable {model : Section} {count : ℕ} {sections : List Section}

theorem InOrder.left {later : List Section} (horder : InOrder model count (sections ++ later)) :
    InOrder model count sections := by
  intro index sect hsect
  apply horder index sect
  rw [List.getElem?_append_left (List.getElem?_eq_some_iff.mp hsect).1]
  exact hsect

theorem InOrder.next {sect : Section} {later : List Section}
    (horder : InOrder model count (sections ++ sect :: later)) :
    sect.tableId = model.tableId ∧ sect.tableIdExtension = model.tableIdExtension ∧
      sect.version = model.version ∧ sect.sectionNumber = sections.length ∧
        sect.lastSectionNumber + 1 = count := by
  apply horder
  rw [List.getElem?_append_right (le_refl _), Nat.sub_self]
  rfl

theorem fillSlot_filledWith (hroom : sections.length < count) (sect : Section) (replace : Bool) :
    (filledWith model count sections).fillSlot sections.length sect replace =
      (true, filledWith model count (sections ++ [sect])) := by
  have hremaining : count - sections.length = count - (sections.length + 1) + 1 := by omega
  have hmissing : (count : ℤ) - sections.length - 1 =
      (count : ℤ) - ((sections ++ [sect]).length : ℕ) := by
    rw [List.length_append, List.length_singleton]
    omega
  have hempty : (filledWith model count sections).sections.getD sections.length none = none := by
    show (sections.map some ++ List.replicate (count - sections.length) none).getD _ none = none
    rw [List.getD_append_right _ _ _ _ (by rw [List.length_map]), hremaining]
    simp [List.replicate_succ]
  have hslots : (filledWith model count sections).sections.set sections.length (some sect) =
      (filledWith model count (sections ++ [sect])).sections := by
    show (sections.map some ++ List.replicate (count - sections.length) none).set _ _ =
      (sections ++ [sect]).map some ++ List.replicate (count - (sections ++ [sect]).length) none
    rw [List.set_append_right _ _ (by rw [List.length_map]), List.length_map, Nat.sub_self,
      hremaining, List.replicate_succ, List.set_cons_zero, List.map_append, List.length_append,
      List.length_singleton, List.append_assoc]
    rfl
  have hvalid : ((count : ℤ) - sections.length - 1 == 0) =
      ((sections ++ [sect]).length == count) := by
    rw [hmissing, Bool.eq_iff_iff, beq_iff_eq, beq_iff_eq]
    omega
  unfold fillSlot
  rw [if_pos hempty, hslots]
  show (true, _) = (true, _)
  congr 1
  show ({ filledWith model count sections with
      sections := (filledWith model count (sections ++ [sect])).sections
      missingCount := (count : ℤ) - sections.length - 1
      isValid := (count : ℤ) - sections.length - 1 == 0 } : BinaryTable) = _
  rw [hvalid, hmissing]
  rfl

theorem addSection_filledWith {sect : Section}
    (horder : InOrder model count (sections ++ [sect])) (hroom : sections.length < count)
    (replace grow : Bool) :
    (filledWith model count sections).addSection (some sect) replace grow =
      (true, filledWith model count (sections ++ [sect])) := by
  obtain ⟨htid, hext, hversion, hnumber, hlast⟩ := horder.next
  have hlength : (filledWith model count sections).sections.length = count := by
    show (sections.map some ++ List.replicate (count - sections.length) none).length = count
    rw [List.length_append, List.length_map, List.length_replicate]
    omega
  have hsame : (filledWith model count sections).SameTable sect := ⟨htid, hext, hversion⟩
  simp only [addSection, hlength, hnumber, not_not.mpr hsame, if_false]
  rw [if_neg (by omega), if_neg (by omega), if_neg (by omega)]
  exact fillSlot_filledWith hroom sect replace

theorem addSection_empty_inOrder {sect : Section} (horder : InOrder sect count [sect])
    (replace grow : Bool) :
    empty.addSection (some sect) replace grow = (true, filledWith sect count [sect]) := by
  obtain ⟨-, -, -, hnumber, hlast⟩ := horder 0 sect rfl
  have hstart : empty.start sect = filledWith sect count [] := by
    unfold filledWith start
    rw [← hlast]
    rfl
  show (empty.start sect).fillSlot sect.sectionNumber sect replace = _
  rw [hstart, hnumber]
  exact fillSlot_filledWith (by rw [List.length_nil]; omega) sect replace

theorem addSections_inOrder {first : Section} {rest : List Section}
    (horder : InOrder first (rest.length + 1) (first :: rest)) (replace grow : Bool) :
    empty.addSections ((first :: rest).map some) replace grow =
      (true, filledWith first (rest.length + 1) (first :: rest)) := by
  have hgeneral : ∀ (before later : List Section), before ++ later = first :: rest →
      (later.map some).foldl (fun (result : Bool × BinaryTable) sect ↦
          let added := result.2.addSection sect replace grow
          (added.1 && result.1, added.2))
        (true, filledWith first (rest.length + 1) before) =
      (true, filledWith first (rest.length + 1) (first :: rest)) := by
    intro before later hall
    induction later generalizing before with
    | nil =>
      rw [List.append_nil] at hall
      rw [hall]
      rfl
    | cons sect later ih =>
      have hlength := congrArg List.length hall
      rw [List.length_append, List.length_cons, List.length_cons] at hlength
      rw [List.append_cons] at hall
      have hnext : InOrder first (rest.length + 1) (before ++ [sect]) := by
        rw [← hall] at horder
        exact horder.left
      rw [List.map_cons, List.foldl_cons, addSection_filledWith hnext (by omega)]
      exact ih (before ++ [sect]) hall
  have hfirst : InOrder first (rest.length + 1) ([first] ++ rest) := horder
  rw [addSections, List.map_cons, List.foldl_cons, addSection_empty_inOrder hfirst.left]
  exact hgeneral [first] rest rfl

/-! ### The tables which are made in this way -/

theorem consistent_filledWith {first : Section} {rest : List Section}
    (horder : InOrder first (rest.length + 1) (first :: rest)) :
    (filledWith first (rest.length + 1) (first :: rest)).Consistent := by
  have hsections : (filledWith first (rest.length + 1) (first :: rest)).sections =
      (first :: rest).map some := by
    simp [filledWith]
  have hnone : none ∉ (first :: rest).map some := by simp
  refine ⟨⟨?_, fun index sect hsect ↦ ?_⟩, ?_⟩
  · rw [hsections, List.count_eq_zero.mpr hnone]
    simp [filledWith]
  · rw [hsections, List.getElem?_map, Option.map_eq_some_iff] at hsect
    obtain ⟨origin, horigin, hequal⟩ := hsect
    obtain rfl := Option.some.inj hequal
    obtain ⟨htid, hext, hversion, hnumber, hlast⟩ := horder index origin horigin
    refine ⟨⟨htid, hext, hversion⟩, fun _ ↦ ⟨hnumber, ?_⟩⟩
    rw [hsections, List.length_map, List.length_cons]
    omega
  · rw [hsections]
    refine iff_of_true ?_ ⟨by simp, hnone⟩
    simp [filledWith]

/-- The table is made of one section only, or of long sections. -/
def IsHomogeneous (table : BinaryTable) : Prop :=
  table.sections.length = 1 ∨ ∀ sect, some sect ∈ table.sections → sect.isLongSection = true

theorem exists_sections_eq {table : BinaryTable} (hnone : none ∉ table.sections) :
    ∃ sections : List Section, table.sections = sections.map some := by
  refine ⟨table.sections.filterMap id, ?_⟩
  rw [List.map_filterMap_some_eq_filter_map_isSome, List.map_id, List.filter_eq_self.mpr]
  intro slot hslot
  by_contra hempty
  rw [Option.not_isSome_iff_eq_none] at hempty
  exact hnone (hempty ▸ hslot)

theorem eq_filledWith {table : BinaryTable} (hconsistent : table.Consistent)
    (hvalid : table.isValid = true) (hhomogeneous : table.IsHomogeneous) :
    ∃ first rest, InOrder first (rest.length + 1) (first :: rest) ∧
      table = { filledWith first (rest.length + 1) (first :: rest) with
        sourcePid := table.sourcePid } := by
  obtain ⟨hnonempty, hnone⟩ := hconsistent.isValid_iff.mp hvalid
  obtain ⟨sections, hsections⟩ := exists_sections_eq hnone
  have hfits : ∀ index sect, sections[index]? = some sect → table.Fits index sect := by
    intro index sect hsect
    apply hconsistent.slot
    rw [hsections, List.getElem?_map, hsect]
    rfl
  cases sections with
  | nil => exact absurd hsections hnonempty
  | cons first rest =>
    have hlength : table.sections.length = rest.length + 1 := by
      rw [hsections, List.length_map, List.length_cons]
    obtain ⟨⟨htid, hext, hversion⟩, -⟩ := hfits 0 first rfl
    have horder : InOrder first (rest.length + 1) (first :: rest) := by
      intro index sect hsect
      obtain ⟨⟨htid', hext', hversion'⟩, hnumbers⟩ := hfits index sect hsect
      have hindex : index < rest.length + 1 := (List.getElem?_eq_some_iff.mp hsect).1
      refine ⟨htid'.trans htid.symm, hext'.trans hext.symm, hversion'.trans hversion.symm, ?_⟩
      by_cases hlong : sect.isLongSection = true
      · obtain ⟨hnumber, hlast⟩ := hnumbers hlong
        exact ⟨hnumber, by omega⟩
      · have hone : rest.length + 1 = 1 := by
          rcases hhomogeneous with hone | hall
          · rw [← hlength, hone]
          · refine absurd (hall sect ?_) hlong
            rw [hsections]
            exact List.mem_map_of_mem (List.mem_of_getElem? hsect)
        unfold Section.sectionNumber Section.lastSectionNumber
        rw [if_neg hlong, if_neg hlong]
        omega
    refine ⟨first, rest, horder, ?_⟩
    have hmissing : table.missingCount = 0 := by
      rw [hconsistent.missingCount_eq, List.count_eq_zero.mpr hnone]
      rfl
    obtain ⟨isValid, tableId, extension, version, sourcePid, missingCount, slots⟩ := table
    simp only [filledWith, BinaryTable.mk.injEq, List.length_cons, Nat.sub_self,
      List.replicate_zero, List.append_nil, beq_self_eq_true, true_and]
    exact ⟨hvalid, htid.symm, hext.symm, hversion.symm, hmissing.trans (sub_self _).symm, hsections⟩

end BinaryTable

end TSDuck
