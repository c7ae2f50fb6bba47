import TSDuck.Psi.TableAssembly
import Mathlib.Data.List.Induction

/-!
# Section files

A section file holds sections in order, and the tables which they make: a table may be added as a
whole, and sections which are added one by one are orphans until the last ones of them are all
sections of one table, in order. In its binary form a section file is the sequence of the bytes of
its sections; loading it adds them one by one.

`loadBinary_saveBinary` states that loading the bytes of a section file gives the same sections, the
same tables and the same orphans, apart from the PIDs and packets they come from
(`SectionFile.unsourced`), which the bytes do not hold.

Scope. The streams of the code are the bytes which they hold; a stream is at its end when more bytes
are read than it holds. An invalid section object and a null pointer are the absence of a section.
-/

namespace TSDuck

namespace Section

/-- The section, the rest of the stream, and its end. -/
structure ReadResult where
  sect : Option Section
  rest : ByteBlock
  eof : Bool

def read (stream : ByteBlock) (crcOp : CrcValidation) : ReadResult :=
  if stream.length < shortSectionHeaderSize then ⟨none, [], true⟩
  else
    let secsize := announcedSize (stream.take shortSectionHeaderSize)
    if stream.length < secsize then ⟨none, [], true⟩
    else ⟨ofContent (stream.take secsize) pidNull crcOp, stream.drop secsize, false⟩

def unsourced (sect : Section) : Section :=
  { sect with sourcePid := pidNull, firstPkt := 0, lastPkt := 0 }

/-- A validation accepts the section. -/
def IsReadable (sect : Section) (crcOp : CrcValidation) : Prop :=
  (sect.isLongSection = true → byteAt sect.content 6 ≤ byteAt sect.content 7) ∧
    (crcOp ≠ .ignore → sect.isLongSection = true → crcMatches sect.content = true)

end Section

structure SectionFile where
  tables : List BinaryTable
  sections : List (Option Section)
  orphanSections : List Section

namespace SectionFile

def empty : SectionFile :=
  ⟨[], [], []⟩

def addTable (file : SectionFile) (table : BinaryTable) : SectionFile :=
  if table.isValid then
    { file with
      tables := file.tables ++ [table]
      sections := file.sections ++ table.sections }
  else file

/-- The section with some number of a table. -/
def IsTableSection (last first : Section) (num : ℕ) : Prop :=
  first.tableId = last.tableId ∧ first.tableIdExtension = last.tableIdExtension ∧
    first.version = last.version ∧ first.sectionNumber = num ∧
      first.lastSectionNumber = last.lastSectionNumber

instance (last first : Section) (num : ℕ) : Decidable (IsTableSection last first num) :=
  inferInstanceAs (Decidable (_ ∧ _ ∧ _ ∧ _ ∧ _))

/-- Goes back through the orphans, down to a section zero. -/
def findTable (last : Section) : ℕ → List Section → Option (List Section × List Section)
  | _, [] => none
  | 0, first :: before => if IsTableSection last first 0 then some ([first], before) else none
  | num + 1, first :: before =>
    if IsTableSection last first (num + 1) then
      (findTable last num before).map fun found ↦ (found.1 ++ [first], found.2)
    else none

/-- The sections of the last table, and the other orphans. -/
def findLastTable : List Section → Option (List Section × List Section)
  | [] => none
  | last :: before =>
    if last.isLongSection then findTable last last.lastSectionNumber (last :: before)
    else some ([last], before)

/-- Makes a table of the last orphan sections. -/
def collectLastTable (file : SectionFile) : SectionFile :=
  match findLastTable file.orphanSections.reverse with
  | none => file
  | some (sections, before) =>
    let table := BinaryTable.empty.addSections (sections.map some) false false
    if table.1 = true ∧ table.2.isValid = true then
      { file with
        tables := file.tables ++ [table.2]
        orphanSections := before.reverse }
    else file

def addSection (file : SectionFile) : Option Section → SectionFile
  | none => file
  | some sect =>
    collectLastTable
      { file with
        sections := file.sections ++ [some sect]
        orphanSections := file.orphanSections ++ [sect] }

def loadSections (crcOp : CrcValidation) : ℕ → ByteBlock → SectionFile → Bool × SectionFile
  | 0, _, file => (false, file)
  | turns + 1, stream, file =>
    let result := Section.read stream crcOp
    match result.sect with
    | some sect => loadSections crcOp turns result.rest (file.addSection (some sect))
    | none => (result.eof, file)

def loadBinary (stream : ByteBlock) (crcOp : CrcValidation) : Bool × SectionFile :=
  loadSections crcOp (stream.length + 1) stream empty

def saveBinary (file : SectionFile) : ByteBlock :=
  file.sections.flatMap fun slot ↦ (slot.map Section.content).getD []

/-- A call that adds to a section file. -/
inductive Addition
  | sect (sect : Option Section)
  | table (table : BinaryTable)

def add (file : SectionFile) : Addition → SectionFile
  | .sect sect => file.addSection sect
  | .table table => file.addTable table

end SectionFile

/-! ### Reading a section back -/

namespace Section

variable {sect : Section}

theorem recomputeCRC_of_crcMatches
    (hmatches : sect.isLongSection = true → crcMatches sect.content = true) :
    sect.recomputeCRC = sect := by
  unfold recomputeCRC
  split_ifs with hlong
  · have hsize : sectionCrc32Size ≤ sect.content.length :=
      (Nat.le_add_left _ _).trans (sect.bytes.long_le hlong)
    have hsame := withCrc32_of_crcMatches hsize (hmatches hlong)
    obtain ⟨content, sourcePid, firstPkt, lastPkt, bytes⟩ := sect
    simp only [Section.mk.injEq, and_true]
    exact hsame
  · rfl

theorem ofContent_content {crcOp : CrcValidation} (hreadable : sect.IsReadable crcOp) (sourcePid : ℕ) :
    ofContent sect.content sourcePid crcOp = some { sect.unsourced with sourcePid } := by
  have hpos : 0 < sect.content.length := sect.size_pos
  have hlength := sect.bytes.length_eq
  have hmax := sect.bytes.length_le
  have hsize : 0 < sectionSize sect.content ∧ sectionSize sect.content = sect.content.length := by
    have hmin : minShortSectionSize ≤ announcedSize sect.content := Nat.le_add_right _ _
    unfold sectionSize
    rw [if_neg (by omega), if_neg (by omega)]
    exact ⟨by omega, hlength.symm⟩
  unfold ofContent
  rw [dif_pos hsize]
  by_cases hlong : hasLongHeader sect.content = true
  · have hmatches : crcOp ≠ .ignore → crcMatches sect.content = true :=
      fun h ↦ hreadable.2 h hlong
    rw [dif_pos hlong, dif_pos ⟨sect.bytes.long_le hlong, hreadable.1 hlong⟩]
    cases crcOp with
    | ignore => rfl
    | check => exact if_pos (hmatches (by decide))
    | compute =>
      refine congrArg some (recomputeCRC_of_crcMatches fun _ ↦ ?_)
      exact hmatches (by decide)
  · rw [dif_neg hlong]
    rfl

theorem read_append {crcOp : CrcValidation} (hreadable : sect.IsReadable crcOp) (rest : ByteBlock) :
    read (sect.content ++ rest) crcOp = ⟨some sect.unsourced, rest, false⟩ := by
  have hlength := sect.bytes.length_eq
  have hmin : shortSectionHeaderSize ≤ announcedSize sect.content := Nat.le_add_right _ _
  have hheader : shortSectionHeaderSize ≤ sect.content.length := by omega
  have hannounced : announcedSize ((sect.content ++ rest).take shortSectionHeaderSize) =
      sect.content.length := by
    rw [List.take_append_of_le_length hheader, hlength, announcedSize, announcedSize,
      getUInt16_congr (byteAt_take _ (by decide)) (byteAt_take _ (by decide))]
  unfold read
  rw [if_neg (by rw [List.length_append]; omega), hannounced]
  dsimp only
  rw [if_neg (by rw [List.length_append]; omega), List.take_left, List.drop_left,
    ofContent_content hreadable]
  rfl

end Section

def BinaryTable.unsourced (table : BinaryTable) : BinaryTable :=
  { table with
    sourcePid := pidNull
    sections := table.sections.map (Option.map Section.unsourced) }

namespace SectionFile

def unsourced (file : SectionFile) : SectionFile :=
  { tables := file.tables.map BinaryTable.unsourced
    sections := file.sections.map (Option.map Section.unsourced)
    orphanSections := file.orphanSections.map Section.unsourced }

/-! ### Collecting a table -/

variable {last : Section} {num : ℕ} {sections : List Section}

theorem forall_isTableSection_concat {sect : Section} {front : List Section}
    (hlength : front.length = num) :
    (∀ index other, (front ++ [sect])[index]? = some other → IsTableSection last other index) ↔
      (∀ index other, front[index]? = some other → IsTableSection last other index) ∧
        IsTableSection last sect num := by
  constructor
  · intro hall
    refine ⟨fun index other hother ↦ hall index other ?_, hall num sect ?_⟩
    · rw [List.getElem?_append_left (List.getElem?_eq_some_iff.mp hother).1]
      exact hother
    · rw [← hlength, List.getElem?_concat_length]
  · rintro ⟨hfront, hsect⟩ index other hother
    by_cases hindex : index < front.length
    · rw [List.getElem?_append_left hindex] at hother
      exact hfront index other hother
    · have hend : index < (front ++ [sect]).length := (List.getElem?_eq_some_iff.mp hother).1
      rw [List.length_append, List.length_singleton] at hend
      have hlast : index = front.length := by omega
      rw [hlast, List.getElem?_concat_length] at hother
      rw [hlast, hlength, ← Option.some.inj hother]
      exact hsect

/-- What is found are the sections of a table, in order. -/
theorem findTable_spec {orphans : List Section} {found : List Section × List Section}
    (hfound : findTable last num orphans = some found) :
    orphans = found.1.reverse ++ found.2 ∧ found.1.length = num + 1 ∧
      ∀ index sect, found.1[index]? = some sect → IsTableSection last sect index := by
  induction num generalizing orphans found with
  | zero =>
    cases orphans with
    | nil => simp [findTable] at hfound
    | cons first before =>
      simp only [findTable] at hfound
      split_ifs at hfound with hfirst
      obtain rfl := Option.some.inj hfound
      have hnone : ([] : List Section).length = 0 := rfl
      exact ⟨rfl, rfl, (forall_isTableSection_concat hnone).mpr ⟨by simp, hfirst⟩⟩
  | succ num ih =>
    cases orphans with
    | nil => simp [findTable] at hfound
    | cons first before =>
      simp only [findTable] at hfound
      split_ifs at hfound with hfirst
      obtain ⟨earlier, hearlier, rfl⟩ := Option.map_eq_some_iff.mp hfound
      obtain ⟨horphans, hlength, hall⟩ := ih hearlier
      refine ⟨?_, ?_, (forall_isTableSection_concat hlength).mpr ⟨hall, hfirst⟩⟩
      · rw [horphans, List.reverse_append]
        rfl
      · rw [List.length_append, hlength]
        rfl

theorem findTable_reverse (hlength : sections.length = num + 1)
    (hall : ∀ index sect, sections[index]? = some sect → IsTableSection last sect index)
    (before : List Section) :
    findTable last num (sections.reverse ++ before) = some (sections, before) := by
  induction num generalizing sections with
  | zero =>
    obtain ⟨sect, rfl⟩ := List.length_eq_one_iff.mp hlength
    exact if_pos (hall 0 sect rfl)
  | succ num ih =>
    rcases List.eq_nil_or_concat sections with rfl | ⟨front, sect, rfl⟩
    · exact absurd hlength (by simp)
    · rw [List.concat_eq_append] at hlength hall ⊢
      rw [List.length_append, List.length_singleton, Nat.add_right_cancel_iff] at hlength
      obtain ⟨hfront, hsect⟩ := (forall_isTableSection_concat hlength).mp hall
      rw [List.reverse_append, List.reverse_singleton, List.singleton_append, List.cons_append,
        findTable, if_pos hsect, ih hlength hfront]
      rfl

/-- The last sections are those of a table. -/
theorem findLastTable_spec {orphans : List Section} {found : List Section × List Section}
    (hfound : findLastTable orphans = some found) :
    orphans = found.1.reverse ++ found.2 ∧ ∃ first rest, found.1 = first :: rest ∧
      BinaryTable.InOrder first (rest.length + 1) (first :: rest) := by
  cases orphans with
  | nil => simp [findLastTable] at hfound
  | cons last before =>
    simp only [findLastTable] at hfound
    split_ifs at hfound with hlong
    · obtain ⟨horphans, hlength, hall⟩ := findTable_spec hfound
      refine ⟨horphans, ?_⟩
      obtain ⟨sections, before⟩ := found
      cases sections with
      | nil => exact absurd hlength (by simp)
      | cons first rest =>
        refine ⟨first, rest, rfl, fun index sect hsect ↦ ?_⟩
        obtain ⟨htid, hext, hversion, -, -⟩ := hall 0 first rfl
        obtain ⟨htid', hext', hversion', hnumber', hlast'⟩ := hall index sect hsect
        rw [List.length_cons] at hlength
        exact ⟨htid'.trans htid.symm, hext'.trans hext.symm, hversion'.trans hversion.symm,
          hnumber', by omega⟩
    · obtain rfl := Option.some.inj hfound
      refine ⟨rfl, last, [], rfl, fun index sect hsect ↦ ?_⟩
      obtain ⟨hindex, hget⟩ := List.getElem?_eq_some_iff.mp hsect
      have hzero : index = 0 := by simpa using hindex
      subst hzero
      obtain rfl : last = sect := hget
      refine ⟨rfl, rfl, rfl, ?_, ?_⟩
      · exact if_neg hlong
      · unfold Section.lastSectionNumber
        rw [if_neg hlong]
        rfl

theorem collectLastTable_of_found {file : SectionFile} {first : Section} {rest before : List Section}
    (hfound : findLastTable file.orphanSections.reverse = some (first :: rest, before))
    (horder : BinaryTable.InOrder first (rest.length + 1) (first :: rest)) :
    file.collectLastTable = { file with
        tables := file.tables ++ [BinaryTable.filledWith first (rest.length + 1) (first :: rest)]
        orphanSections := before.reverse } := by
  have hvalid : (BinaryTable.filledWith first (rest.length + 1) (first :: rest)).isValid = true := by
    simp [BinaryTable.filledWith]
  unfold collectLastTable
  simp only [hfound, BinaryTable.addSections_inOrder horder, hvalid, and_self, if_true]

/-! ### Loading what is saved -/

theorem findTable_unsourced (last : Section) (num : ℕ) (orphans : List Section) :
    findTable last.unsourced num (orphans.map Section.unsourced) =
      (findTable last num orphans).map fun found ↦
        (found.1.map Section.unsourced, found.2.map Section.unsourced) := by
  have hsame : ∀ first other, IsTableSection last.unsourced first.unsourced other ↔
      IsTableSection last first other := fun _ _ ↦ Iff.rfl
  induction num generalizing orphans with
  | zero =>
    cases orphans with
    | nil => rfl
    | cons first before =>
      simp only [List.map_cons, findTable, hsame]
      split_ifs <;> rfl
  | succ num ih =>
    cases orphans with
    | nil => rfl
    | cons first before =>
      simp only [List.map_cons, findTable, hsame, ih]
      split_ifs
      · simp [Option.map_map, Function.comp_def]
      · rfl

theorem findLastTable_unsourced (orphans : List Section) :
    findLastTable (orphans.map Section.unsourced) = (findLastTable orphans).map fun found ↦
        (found.1.map Section.unsourced, found.2.map Section.unsourced) := by
  cases orphans with
  | nil => rfl
  | cons last before =>
    have hlong : last.unsourced.isLongSection = last.isLongSection := rfl
    have hlast : last.unsourced.lastSectionNumber = last.lastSectionNumber := rfl
    simp only [List.map_cons, findLastTable, hlong, hlast]
    split_ifs
    · exact findTable_unsourced last _ (last :: before)
    · rfl

theorem filledWith_unsourced (model : Section) (count : ℕ) (sections : List Section) :
    BinaryTable.filledWith model.unsourced count (sections.map Section.unsourced) =
      (BinaryTable.filledWith model count sections).unsourced := by
  simp only [BinaryTable.filledWith, BinaryTable.unsourced, BinaryTable.mk.injEq, List.length_map,
    List.map_append, List.map_map, List.map_replicate, Option.map_none, Function.comp_def,
    Option.map_some, true_and]
  exact ⟨rfl, rfl, rfl, rfl, trivial⟩

theorem collectLastTable_unsourced (file : SectionFile) :
    file.unsourced.collectLastTable = file.collectLastTable.unsourced := by
  have hreverse : file.unsourced.orphanSections.reverse =
      file.orphanSections.reverse.map Section.unsourced := by
    rw [List.map_reverse]
    rfl
  have hfound := findLastTable_unsourced file.orphanSections.reverse
  rw [← hreverse] at hfound
  cases hresult : findLastTable file.orphanSections.reverse with
  | none =>
    rw [hresult, Option.map_none] at hfound
    unfold collectLastTable
    rw [hfound, hresult]
  | some found =>
    obtain ⟨sections, before⟩ := found
    obtain ⟨-, first, rest, hsections, horder⟩ := findLastTable_spec hresult
    simp only at hsections
    subst hsections
    rw [hresult, Option.map_some] at hfound
    have hunsourced : BinaryTable.InOrder first.unsourced
        ((rest.map Section.unsourced).length + 1)
        (first.unsourced :: rest.map Section.unsourced) := by
      intro index sect hsect
      rw [← List.map_cons, List.getElem?_map, Option.map_eq_some_iff] at hsect
      obtain ⟨origin, horigin, rfl⟩ := hsect
      rw [List.length_map]
      exact horder index origin horigin
    rw [collectLastTable_of_found hfound hunsourced, collectLastTable_of_found hresult horder,
      List.length_map, ← List.map_cons, filledWith_unsourced]
    simp [unsourced]

theorem addSection_unsourced (file : SectionFile) (sect : Section) :
    file.unsourced.addSection (some sect.unsourced) = (file.addSection (some sect)).unsourced := by
  show collectLastTable _ = (collectLastTable _).unsourced
  rw [← collectLastTable_unsourced]
  simp [unsourced]

def addSections (sections : List Section) (file : SectionFile) : SectionFile :=
  sections.foldl (fun current sect ↦ current.addSection (some sect)) file

theorem addSections_left {model : Section} {count : ℕ}
    (horder : BinaryTable.InOrder model count sections) (hless : sections.length < count)
    (file : SectionFile) :
    addSections sections file = { file with
        sections := file.sections ++ sections.map some
        orphanSections := file.orphanSections ++ sections } := by
  induction sections using List.reverseRecOn with
  | nil => simp [addSections]
  | append_singleton before sect ih =>
    obtain ⟨-, -, -, hnumber, hlast⟩ := horder.next
    rw [List.length_append, List.length_singleton] at hless
    have hlong : sect.isLongSection = true := by
      by_contra hshort
      unfold Section.lastSectionNumber at hlast
      rw [if_neg hshort] at hlast
      omega
    have hnone : findLastTable (sect :: (file.orphanSections ++ before).reverse) = none := by
      have hother : ∀ num, num + 1 = count → ¬ IsTableSection sect sect num := by
        intro num hnum h
        have hequal := h.2.2.2.1
        omega
      rw [findLastTable, if_pos hlong]
      generalize hnum : sect.lastSectionNumber = num at hlast
      cases num with
      | zero => exact if_neg (hother 0 hlast)
      | succ num => exact if_neg (hother (num + 1) hlast)
    have hcollect : collectLastTable
        { file with
          sections := file.sections ++ before.map some ++ [some sect]
          orphanSections := file.orphanSections ++ before ++ [sect] } =
        { file with
          sections := file.sections ++ before.map some ++ [some sect]
          orphanSections := file.orphanSections ++ before ++ [sect] } := by
      unfold collectLastTable
      dsimp only
      rw [List.reverse_concat', hnone]
    have hbefore := ih horder.left (by omega)
    unfold addSections at hbefore ⊢
    rw [List.foldl_append, hbefore, List.foldl_cons, List.foldl_nil]
    show collectLastTable _ = _
    rw [hcollect, List.map_append, List.append_assoc, List.append_assoc]
    rfl

/-- Adding one by one all sections of a table, in order, adds the table. -/
theorem addSections_table {first : Section} {rest : List Section}
    (horder : BinaryTable.InOrder first (rest.length + 1) (first :: rest))
    (hhomogeneous : rest = [] ∨ ∀ sect ∈ first :: rest, sect.isLongSection = true)
    (file : SectionFile) :
    addSections (first :: rest) file = { file with
        tables := file.tables ++ [BinaryTable.filledWith first (rest.length + 1) (first :: rest)]
        sections := file.sections ++ (first :: rest).map some } := by
  obtain ⟨before, last, hconcat⟩ : ∃ before last, first :: rest = before ++ [last] := by
    rcases List.eq_nil_or_concat (first :: rest) with hnil | ⟨before, last, hconcat⟩
    · exact absurd hnil (List.cons_ne_nil _ _)
    · exact ⟨before, last, by rw [hconcat, List.concat_eq_append]⟩
  have hlength : before.length = rest.length := by
    have hboth := congrArg List.length hconcat
    rw [List.length_cons, List.length_append, List.length_singleton] at hboth
    omega
  have hsplit := horder
  rw [hconcat] at hsplit
  obtain ⟨htid, hext, hversion, hnumber, hlast⟩ := hsplit.next
  have hfound : findLastTable (last :: (file.orphanSections ++ before).reverse) =
      some (first :: rest, file.orphanSections.reverse) := by
    by_cases hlong : last.isLongSection = true
    · have hall : ∀ index sect, (first :: rest)[index]? = some sect →
          IsTableSection last sect index := by
        intro index sect hsect
        obtain ⟨htid', hext', hversion', hnumber', hlast'⟩ := horder index sect hsect
        exact ⟨htid'.trans htid.symm, hext'.trans hext.symm, hversion'.trans hversion.symm,
          hnumber', by omega⟩
      have hgiven : last :: (file.orphanSections ++ before).reverse =
          (first :: rest).reverse ++ file.orphanSections.reverse := by
        rw [hconcat, List.reverse_append, List.reverse_append]
        rfl
      rw [findLastTable, if_pos hlong, hgiven]
      exact findTable_reverse (by rw [List.length_cons]; omega) hall _
    · have hnone : rest = [] := by
        rcases hhomogeneous with hnone | hall
        · exact hnone
        · refine absurd (hall last ?_) hlong
          rw [hconcat]
          exact List.mem_append_right _ (List.mem_singleton.mpr rfl)
      subst hnone
      have hempty : before = [] := List.eq_nil_of_length_eq_zero hlength
      subst hempty
      obtain rfl : first = last := by simpa using hconcat
      rw [findLastTable, if_neg hlong, List.append_nil]
  have hcollect : collectLastTable
      { file with
        sections := file.sections ++ (before.map some ++ [some last])
        orphanSections := file.orphanSections ++ before ++ [last] } =
      { file with
        tables := file.tables ++ [BinaryTable.filledWith first (rest.length + 1) (first :: rest)]
        sections := file.sections ++ (before.map some ++ [some last]) } := by
    rw [collectLastTable_of_found (by rw [List.reverse_concat', hfound]) horder,
      List.reverse_reverse]
  have hbefore := addSections_left hsplit.left (by omega) file
  have hsections : (first :: rest).map some = before.map some ++ [some last] := by
    rw [hconcat, List.map_append]
    rfl
  rw [hsections]
  unfold addSections at hbefore ⊢
  rw [hconcat, List.foldl_append, hbefore, List.foldl_cons, List.foldl_nil]
  show collectLastTable { file with sections := _ ++ [some last], orphanSections := _ } = _
  rw [List.append_assoc, hcollect, hconcat]

theorem loadSections_flatMap {crcOp : CrcValidation}
    (hreadable : ∀ sect ∈ sections, sect.IsReadable crcOp) {turns : ℕ}
    (hturns : sections.length < turns) (file : SectionFile) :
    loadSections crcOp turns (sections.flatMap Section.content) file =
      (true, addSections (sections.map Section.unsourced) file) := by
  induction sections generalizing turns file with
  | nil =>
    obtain ⟨turns, rfl⟩ := Nat.exists_eq_succ_of_ne_zero (Nat.ne_of_gt hturns)
    rfl
  | cons sect rest ih =>
    obtain ⟨turns, rfl⟩ := Nat.exists_eq_succ_of_ne_zero (Nat.ne_of_gt (Nat.zero_lt_of_lt hturns))
    rw [List.length_cons] at hturns
    have hread := Section.read_append (hreadable sect List.mem_cons_self)
      (rest.flatMap Section.content)
    rw [List.flatMap_cons, loadSections, hread]
    exact ih (List.forall_mem_cons.mp hreadable).2 (by omega) _

/-- A section which is accepted, or a consistent table with long sections or one section, which are
accepted. -/
def Addition.IsAdmissible (crcOp : CrcValidation) : Addition → Prop
  | .sect none => True
  | .sect (some added) => added.IsReadable crcOp
  | .table added => added.isValid = true → added.Consistent ∧ added.IsHomogeneous ∧
      ∀ slot, some slot ∈ added.sections → slot.IsReadable crcOp

/-- Adding the sections one by one makes the same section file. -/
def Rebuilt (crcOp : CrcValidation) (file : SectionFile) : Prop :=
  ∃ sections : List Section, file.sections = sections.map some ∧
    (∀ sect ∈ sections, sect.IsReadable crcOp) ∧
      addSections (sections.map Section.unsourced) empty = file.unsourced

theorem sections_collectLastTable (file : SectionFile) :
    file.collectLastTable.sections = file.sections := by
  unfold collectLastTable
  split
  · rfl
  · dsimp only
    split_ifs <;> rfl

theorem Rebuilt.add {crcOp : CrcValidation} {file : SectionFile} (hrebuilt : file.Rebuilt crcOp)
    {addition : Addition} (hadmissible : addition.IsAdmissible crcOp) :
    (file.add addition).Rebuilt crcOp := by
  obtain ⟨sections, hsections, hreadable, hadded⟩ := hrebuilt
  match addition, hadmissible with
  | .sect none, _ => exact ⟨sections, hsections, hreadable, hadded⟩
  | .sect (some sect), hsect =>
    refine ⟨sections ++ [sect], ?_, ?_, ?_⟩
    · show (collectLastTable _).sections = _
      rw [sections_collectLastTable, List.map_append, ← hsections]
      rfl
    · intro other hother
      rcases List.mem_append.mp hother with hold | hnew
      · exact hreadable other hold
      · rw [List.mem_singleton.mp hnew]
        exact hsect
    · show _ = (file.addSection (some sect)).unsourced
      unfold addSections at hadded ⊢
      rw [List.map_append, List.foldl_append, hadded, ← addSection_unsourced]
      rfl
  | .table table, htable =>
    show (file.addTable table).Rebuilt crcOp
    unfold addTable
    split_ifs with hvalid
    · obtain ⟨hconsistent, hhomogeneous, haccepted⟩ := htable hvalid
      obtain ⟨first, rest, horder, hequal⟩ :=
        BinaryTable.eq_filledWith hconsistent hvalid hhomogeneous
      have hslots : table.sections = (first :: rest).map some := by
        rw [hequal]
        simp [BinaryTable.filledWith]
      refine ⟨sections ++ (first :: rest), ?_, ?_, ?_⟩
      · rw [List.map_append, ← hsections, ← hslots]
      · intro other hother
        rcases List.mem_append.mp hother with hold | hnew
        · exact hreadable other hold
        · apply haccepted
          rw [hslots]
          exact List.mem_map_of_mem hnew
      · have horder' : BinaryTable.InOrder first.unsourced ((rest.map Section.unsourced).length + 1)
            (first.unsourced :: rest.map Section.unsourced) := by
          intro index sect hsect
          rw [← List.map_cons, List.getElem?_map, Option.map_eq_some_iff] at hsect
          obtain ⟨origin, horigin, rfl⟩ := hsect
          rw [List.length_map]
          exact horder index origin horigin
        have hlong : rest.map Section.unsourced = [] ∨
            ∀ sect ∈ first.unsourced :: rest.map Section.unsourced, sect.isLongSection = true := by
          rcases hhomogeneous with hone | hall
          · rw [hslots, List.length_map, List.length_cons] at hone
            exact Or.inl (by rw [List.eq_nil_of_length_eq_zero (show rest.length = 0 by omega)]; rfl)
          · refine Or.inr fun sect hsect ↦ ?_
            rw [← List.map_cons, List.mem_map] at hsect
            obtain ⟨origin, horigin, rfl⟩ := hsect
            refine hall origin ?_
            rw [hslots]
            exact List.mem_map_of_mem horigin
        have htables : (BinaryTable.filledWith first.unsourced
              ((rest.map Section.unsourced).length + 1)
              (first.unsourced :: rest.map Section.unsourced)) = table.unsourced := by
          rw [List.length_map, ← List.map_cons, filledWith_unsourced, hequal]
          rfl
        have hstep := addSections_table horder' hlong file.unsourced
        rw [htables] at hstep
        unfold addSections at hadded hstep ⊢
        rw [List.map_append, List.foldl_append, hadded, List.map_cons, hstep]
        simp [unsourced, hslots, Function.comp_def]
    · exact ⟨sections, hsections, hreadable, hadded⟩

/-- Assumes: admissible additions. Loading the saved bytes gives the same sections, tables and
orphans, apart from the PIDs and packets they come from. -/
theorem loadBinary_saveBinary (crcOp : CrcValidation) (additions : List Addition)
    (hadmissible : ∀ addition ∈ additions, addition.IsAdmissible crcOp) :
    loadBinary (additions.foldl add empty).saveBinary crcOp =
      (true, (additions.foldl add empty).unsourced) := by
  have hrebuilt : (additions.foldl add empty).Rebuilt crcOp := by
    have hstart : empty.Rebuilt crcOp := ⟨[], rfl, by simp, rfl⟩
    generalize empty = file at hstart
    induction additions generalizing file with
    | nil => exact hstart
    | cons addition rest ih =>
      refine ih (List.forall_mem_cons.mp hadmissible).2 _ ?_
      exact hstart.add (hadmissible addition List.mem_cons_self)
  obtain ⟨sections, hsections, hreadable, hadded⟩ := hrebuilt
  have hbytes : (additions.foldl add empty).saveBinary = sections.flatMap Section.content := by
    rw [saveBinary, hsections, List.flatMap_map]
    rfl
  have hturns : sections.length < (sections.flatMap Section.content).length + 1 := by
    have hpositive : ∀ (list : List Section),
        list.length ≤ (list.flatMap Section.content).length := by
      intro list
      induction list with
      | nil => exact Nat.zero_le _
      | cons sect rest ih =>
        have hsize : 0 < sect.content.length := sect.size_pos
        rw [List.flatMap_cons, List.length_append, List.length_cons]
        omega
    exact Nat.lt_succ_of_le (hpositive sections)
  rw [loadBinary, hbytes, loadSections_flatMap hreadable hturns, hadded]

/-- The section 1 of a table with two sections, without payload. -/
def longPart : Section :=
  Section.recomputeCRC
    { content := [0x72, 0xB0, 9, 0, 0, 0xC1, 1, 1, 0, 0, 0, 0]
      sourcePid := pidNull
      firstPkt := 0
      lastPkt := 0
      bytes := ⟨by simp [announcedSize, getUInt16, byteAt, shortSectionHeaderSize],
        by simp [maxPrivateSectionSize], fun _ ↦ le_refl 12⟩ }

def shortPart : Section where
  content := [0x72, 0x30, 0]
  sourcePid := pidNull
  firstPkt := 0
  lastPkt := 0
  bytes := ⟨by simp [announcedSize, getUInt16, byteAt, shortSectionHeaderSize],
    by simp [maxPrivateSectionSize], fun h ↦ absurd h (by decide)⟩

/-- A valid table of a long section, added first, and of a short one. -/
def mixedTable : BinaryTable :=
  (BinaryTable.empty.addSections [some longPart, some shortPart] true true).2

/-- The short section is loaded as a table, the long one as an orphan. -/
theorem mixedTable_not_reloaded :
    mixedTable.isValid = true ∧ mixedTable.sections = [some shortPart, some longPart] ∧
      shortPart.IsReadable .check ∧ longPart.IsReadable .check ∧
      (empty.add (.table mixedTable)).orphanSections = [] ∧
      (loadBinary (empty.add (.table mixedTable)).saveBinary .check).2.orphanSections.length =
        1 := by
  unfold Section.IsReadable
  decide

/-- A section between those of another table, and this table. -/
def sampleAdditions : List Addition :=
  [.sect (some (BinaryTable.emptySection 0 1)), .sect (some longPart),
    .sect (some (BinaryTable.emptySection 1 1)),
    .table (BinaryTable.filledWith (BinaryTable.emptySection 0 1) 2
      [BinaryTable.emptySection 0 1, BinaryTable.emptySection 1 1])]

/-- The file of these additions is loaded again. -/
theorem reloaded_sampleAdditions :
    loadBinary (sampleAdditions.foldl add empty).saveBinary .check =
      (true, (sampleAdditions.foldl add empty).unsourced) := by
  have hfirst : (BinaryTable.emptySection 0 1).IsReadable .check := by
    unfold Section.IsReadable
    decide
  have hsecond : (BinaryTable.emptySection 1 1).IsReadable .check := by
    unfold Section.IsReadable
    decide
  have hother : longPart.IsReadable .check := by
    unfold Section.IsReadable
    decide
  have horder : BinaryTable.InOrder (BinaryTable.emptySection 0 1) 2
      [BinaryTable.emptySection 0 1, BinaryTable.emptySection 1 1] := by
    intro index sect hsect
    match index, hsect with
    | 0, hsect =>
      obtain rfl := Option.some.inj hsect
      decide
    | 1, hsect =>
      obtain rfl := Option.some.inj hsect
      decide
  refine loadBinary_saveBinary .check sampleAdditions fun addition haddition ↦ ?_
  simp only [sampleAdditions, List.mem_cons, List.not_mem_nil, or_false] at haddition
  rcases haddition with rfl | rfl | rfl | rfl
  · exact hfirst
  · exact hother
  · exact hsecond
  · refine fun _ ↦ ⟨BinaryTable.consistent_filledWith horder, Or.inr fun sect hsect ↦ ?_,
      fun sect hsect ↦ ?_⟩
    · simp [BinaryTable.filledWith] at hsect
      rcases hsect with rfl | rfl <;> decide
    · simp [BinaryTable.filledWith] at hsect
      rcases hsect with rfl | rfl
      · exact hfirst
      · exact hsecond

end SectionFile

end TSDuck
