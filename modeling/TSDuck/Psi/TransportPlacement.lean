import TSDuck.Psi.TransportListTable

/-!
# Where the transport streams of a table are

A NIT or a BAT being serialized is represented by a `TableDraft`: the contents of the sections which
are closed and of the current one.

A transport stream is never before its preferred section. It is in its preferred section, unless
this section is too early (`DescsContinue`, `TransportContinues`) or had no room for a transport
stream which was selected before it (`HasNoRoomFor`).
-/

namespace TSDuck

/-- The contents of the sections of a table. -/
structure TableDraft where
  closed : List TransportSection
  current : TransportSection

/-- An entry of a transport stream is in the transport loop of a section. -/
def TransportSection.Holds (sect : TransportSection) (id : TransportStreamId) : Prop :=
  ∃ part ∈ sect.transports, part.fixed = id.bytes

/-- An entry of a transport stream is in the section with some number. -/
def HeldAt (sections : List TransportSection) (id : TransportStreamId) (number : ℕ) : Prop :=
  ∃ sect ∈ sections[number]?, sect.Holds id

/-- The first section with an entry of a transport stream. -/
def StartsIn (sections : List TransportSection) (id : TransportStreamId) (number : ℕ) : Prop :=
  HeldAt sections id number ∧ ∀ earlier < number, ¬ HeldAt sections id earlier

/-- Some descriptors of the table are in a later section. -/
def DescsContinue (sections : List TransportSection) (number : ℕ) : Prop :=
  ∃ later > number, ∃ sect ∈ sections[later]?, sect.descs ≠ []

/-- A transport stream is in a section and continues in the next one. -/
def TransportContinues (sections : List TransportSection) (number : ℕ) : Prop :=
  ∃ id, HeldAt sections id number ∧ HeldAt sections id (number + 1)

/-- No room for a stream of this section. -/
def HasNoRoomFor (table : AbstractTransportListTable) (sections : List TransportSection)
    (id : TransportStreamId) (number : ℕ) : Prop :=
  ∃ entry ∈ table.transports.entries, table.sectionHints.find? entry.1 = some (number : ℤ) ∧
    entry.1 ≤ id ∧ ∃ sect ∈ sections[number]?,
      maxPsiLongSectionPayloadSize < sect.payload.length + (6 + entry.2.binarySize)

/-- One of the reasons why a transport stream is not in some section. -/
def IsExcused (table : AbstractTransportListTable) (sections : List TransportSection)
    (id : TransportStreamId) (number : ℕ) : Prop :=
  DescsContinue sections number ∨ TransportContinues sections number ∨
    HasNoRoomFor table sections id number

/-- A stream is in its preferred section, or for a reason not. -/
def IsPlaced (table : AbstractTransportListTable) (sections : List TransportSection)
    (id : TransportStreamId) : Prop :=
  ∃ number : ℕ, StartsIn sections id number ∧ ∀ hint ∈ table.sectionHints.find? id, hint ≤ number ∧
      ∀ preferred : ℕ, hint = preferred → number = preferred ∨ IsExcused table sections id preferred

namespace TableDraft

/-! ### The steps of a draft -/

def sections (draft : TableDraft) : List TransportSection := draft.closed ++ [draft.current]

def add (draft : TableDraft) (part : EntryWithDescriptors) : TableDraft :=
  { draft with
    current := { draft.current with transports := draft.current.transports ++ [part] } }

def close (draft : TableDraft) : TableDraft :=
  { closed := draft.sections, current := { descs := [], transports := [] } }

variable {draft before after : TableDraft} {id : TransportStreamId} {number : ℕ}

theorem getElem?_closed (hnumber : number < draft.closed.length) :
    draft.sections[number]? = draft.closed[number]? :=
  List.getElem?_append_left hnumber

theorem getElem?_current (draft : TableDraft) :
    draft.sections[draft.closed.length]? = some draft.current :=
  List.getElem?_concat_length

theorem length_sections (draft : TableDraft) :
    draft.sections.length = draft.closed.length + 1 :=
  List.length_append

theorem section_cases {sect : TransportSection} (hsect : sect ∈ draft.sections[number]?) :
    number < draft.closed.length ∨ (number = draft.closed.length ∧ sect = draft.current) := by
  have hlength := (List.getElem?_eq_some_iff.mp hsect).1
  rw [length_sections] at hlength
  rcases Nat.lt_succ_iff_lt_or_eq.mp hlength with hclosed | rfl
  · exact Or.inl hclosed
  · rw [getElem?_current] at hsect
    exact Or.inr ⟨rfl, (Option.some.inj hsect).symm⟩

/-- What the steps of a draft keep. -/
structure Grows (before after : TableDraft) : Prop where
  count : before.closed.length ≤ after.closed.length
  closed : ∀ number < before.closed.length, after.sections[number]? = before.sections[number]?
  current : ∃ sect ∈ after.sections[before.closed.length]?,
    sect.descs = before.current.descs ∧ ∀ part ∈ before.current.transports, part ∈ sect.transports

theorem Grows.refl (draft : TableDraft) : Grows draft draft where
  count := le_refl _
  closed := fun _ _ ↦ rfl
  current := ⟨draft.current, draft.getElem?_current, rfl, fun _ hpart ↦ hpart⟩

theorem Grows.trans {middle : TableDraft} (hfirst : Grows before middle)
    (hsecond : Grows middle after) : Grows before after := by
  constructor
  · exact hfirst.count.trans hsecond.count
  · intro number hnumber
    rw [hsecond.closed number (hnumber.trans_le hfirst.count), hfirst.closed number hnumber]
  · obtain ⟨sect, hsect, hdescs, hparts⟩ := hfirst.current
    rcases section_cases hsect with hclosed | ⟨hcurrent, rfl⟩
    · refine ⟨sect, ?_, hdescs, hparts⟩
      rw [hsecond.closed _ hclosed]
      exact hsect
    · obtain ⟨last, hlast, hsame, hmore⟩ := hsecond.current
      refine ⟨last, ?_, hsame.trans hdescs, fun part hpart ↦ hmore part (hparts part hpart)⟩
      rw [hcurrent]
      exact hlast

theorem grows_add (draft : TableDraft) (part : EntryWithDescriptors) :
    Grows draft (draft.add part) where
  count := le_refl _
  closed := fun number hnumber ↦ by
    rw [getElem?_closed hnumber]
    exact getElem?_closed hnumber
  current := ⟨_, (draft.add part).getElem?_current, rfl, fun _ hpart ↦ List.mem_append_left _ hpart⟩

theorem getElem?_close (hnumber : number < draft.sections.length) :
    draft.close.sections[number]? = draft.sections[number]? :=
  List.getElem?_append_left hnumber

theorem grows_close (draft : TableDraft) : Grows draft draft.close where
  count := by
    show draft.closed.length ≤ draft.sections.length
    rw [length_sections]
    exact Nat.le_succ _
  closed := fun number hnumber ↦ by
    apply getElem?_close
    rw [length_sections]
    exact hnumber.trans (Nat.lt_succ_self _)
  current := by
    refine ⟨draft.current, ?_, rfl, fun _ hpart ↦ hpart⟩
    rw [getElem?_close]
    · exact draft.getElem?_current
    · rw [length_sections]
      exact Nat.lt_succ_self _

theorem Grows.heldAt (hgrows : Grows before after) (hheld : HeldAt before.sections id number) :
    HeldAt after.sections id number := by
  obtain ⟨sect, hsect, part, hpart, hfixed⟩ := hheld
  rcases section_cases hsect with hclosed | ⟨rfl, rfl⟩
  · refine ⟨sect, ?_, part, hpart, hfixed⟩
    rw [hgrows.closed _ hclosed]
    exact hsect
  · obtain ⟨last, hlast, -, hmore⟩ := hgrows.current
    exact ⟨last, hlast, part, hmore part hpart, hfixed⟩

theorem Grows.startsIn (hgrows : Grows before after) (hstarts : StartsIn before.sections id number) :
    StartsIn after.sections id number := by
  obtain ⟨hheld, hfirst⟩ := hstarts
  refine ⟨hgrows.heldAt hheld, fun earlier hearlier hagain ↦ hfirst earlier hearlier ?_⟩
  obtain ⟨sect, hsect, -⟩ := hheld
  have hclosed : earlier < before.closed.length := by
    rcases section_cases hsect with hclosed | ⟨rfl, -⟩
    · exact hearlier.trans hclosed
    · exact hearlier
  unfold HeldAt at hagain
  rw [hgrows.closed _ hclosed] at hagain
  exact hagain

theorem Grows.isExcused {table : AbstractTransportListTable} (hgrows : Grows before after)
    (hnumber : after.sections[number]? = before.sections[number]?) (hexcused : IsExcused table before.sections id number) :
    IsExcused table after.sections id number := by
  rcases hexcused with ⟨later, hlater, sect, hsect, hdescs⟩ | ⟨other, hhere, hnext⟩ |
    ⟨entry, hentry, hhint, hle, sect, hsect, hroom⟩
  · left
    rcases section_cases hsect with hclosed | ⟨rfl, rfl⟩
    · refine ⟨later, hlater, sect, ?_, hdescs⟩
      rw [hgrows.closed _ hclosed]
      exact hsect
    · obtain ⟨last, hlast, hsame, -⟩ := hgrows.current
      refine ⟨_, hlater, last, hlast, ?_⟩
      rw [hsame]
      exact hdescs
  · exact Or.inr (Or.inl ⟨other, hgrows.heldAt hhere, hgrows.heldAt hnext⟩)
  · refine Or.inr (Or.inr ⟨entry, hentry, hhint, hle, sect, ?_, hroom⟩)
    rw [hnumber]
    exact hsect

theorem Grows.isPlaced {table : AbstractTransportListTable} (hgrows : Grows before after)
    (hplaced : IsPlaced table before.sections id) : IsPlaced table after.sections id := by
  obtain ⟨number, hstarts, hhints⟩ := hplaced
  refine ⟨number, hgrows.startsIn hstarts, fun hint hhint ↦ ?_⟩
  obtain ⟨hle, hpreferred⟩ := hhints hint hhint
  refine ⟨hle, fun preferred hequal ↦ ?_⟩
  rcases hpreferred preferred hequal with hsame | hexcused
  · exact Or.inl hsame
  · by_cases hsame : number = preferred
    · exact Or.inl hsame
    · right
      apply hgrows.isExcused _ hexcused
      apply hgrows.closed
      obtain ⟨⟨sect, hsect, -⟩, -⟩ := hstarts
      rcases section_cases hsect with hclosed | ⟨rfl, -⟩ <;> omega

theorem flatMap_sections {Item : Type} (read : TransportSection → List Item) (draft : TableDraft) :
    draft.sections.flatMap read = draft.closed.flatMap read ++ read draft.current := by
  rw [sections, List.flatMap_append, List.flatMap_singleton]

theorem transports_add (draft : TableDraft) (part : EntryWithDescriptors) :
    (draft.add part).sections.flatMap TransportSection.transports =
      draft.sections.flatMap TransportSection.transports ++ [part] := by
  rw [flatMap_sections, flatMap_sections, List.append_assoc]
  rfl

theorem descs_add (draft : TableDraft) (part : EntryWithDescriptors) :
    (draft.add part).sections.flatMap TransportSection.descs =
      draft.sections.flatMap TransportSection.descs := by
  rw [flatMap_sections, flatMap_sections]
  rfl

theorem transports_close (draft : TableDraft) :
    draft.close.sections.flatMap TransportSection.transports =
      draft.sections.flatMap TransportSection.transports := by
  rw [flatMap_sections _ draft.close]
  exact List.append_nil _

theorem descs_close (draft : TableDraft) :
    draft.close.sections.flatMap TransportSection.descs =
      draft.sections.flatMap TransportSection.descs := by
  rw [flatMap_sections _ draft.close]
  exact List.append_nil _

/-- A stream is written in some parts. -/
structure Writes (id : TransportStreamId) (before after : TableDraft)
    (parts : List EntryWithDescriptors) : Prop where
  grows : Grows before after
  descs : after.sections.flatMap TransportSection.descs =
    before.sections.flatMap TransportSection.descs
  transports : after.sections.flatMap TransportSection.transports =
    before.sections.flatMap TransportSection.transports ++ parts
  held : ∀ number, before.closed.length ≤ number → number < after.closed.length →
    HeldAt after.sections id number

theorem Writes.refl (id : TransportStreamId) (draft : TableDraft) : Writes id draft draft [] where
  grows := Grows.refl draft
  descs := rfl
  transports := (List.append_nil _).symm
  held := fun _ hle hlt ↦ absurd hlt (not_lt.mpr hle)

variable {parts : List EntryWithDescriptors}

theorem Writes.add (hwrites : Writes id before after parts) {part : EntryWithDescriptors}
    (hpart : part.fixed = id.bytes) :
    Writes id before (after.add part) (parts ++ [part]) ∧
      HeldAt (after.add part).sections id after.closed.length := by
  have hgrows := grows_add after part
  refine ⟨⟨hwrites.grows.trans hgrows, (descs_add after part).trans hwrites.descs, ?_, ?_⟩, ?_⟩
  · rw [transports_add, hwrites.transports, List.append_assoc]
  · exact fun number hle hlt ↦ hgrows.heldAt (hwrites.held number hle hlt)
  · exact ⟨_, (after.add part).getElem?_current, part,
      List.mem_append_right _ (List.mem_singleton.mpr rfl), hpart⟩

theorem Writes.close (hwrites : Writes id before after parts)
    (hcurrent : HeldAt after.sections id after.closed.length) :
    Writes id before after.close parts := by
  have hgrows := grows_close after
  refine ⟨hwrites.grows.trans hgrows, (descs_close after).trans hwrites.descs,
    (transports_close after).trans hwrites.transports, fun number hle hlt ↦ hgrows.heldAt ?_⟩
  have hlast : number < after.closed.length + 1 := by
    rw [← length_sections]
    exact hlt
  rcases Nat.lt_succ_iff_lt_or_eq.mp hlast with hclosed | rfl
  · exact hwrites.held number hle hclosed
  · exact hcurrent

theorem Writes.startsIn (hwrites : Writes id before after parts)
    (hcurrent : HeldAt after.sections id after.closed.length)
    (hnew : ∀ number, ¬ HeldAt before.sections id number) :
    StartsIn after.sections id before.closed.length := by
  constructor
  · rcases Nat.lt_or_eq_of_le hwrites.grows.count with hclosed | hsame
    · exact hwrites.held _ (le_refl _) hclosed
    · rw [hsame]
      exact hcurrent
  · intro earlier hearlier hheld
    apply hnew earlier
    unfold HeldAt at hheld ⊢
    rw [hwrites.grows.closed earlier hearlier] at hheld
    exact hheld

end TableDraft

/-! ### The transport writer represents a draft -/

section Represents

variable {header : LongHeader} {output : TransportWriter} {draft : TableDraft}

/-- The writer is writing the current section of a draft. -/
structure Represents (header : LongHeader) (output : TransportWriter) (draft : TableDraft) :
    Prop where
  wrote : output.writer.Wrote header (draft.closed.map TransportSection.payload)
  payload : output.writer.payload = draft.current.payloadWith 0
  address : output.tsllAddr = draft.current.descs.binarySize + 2
  sizes : ∀ sect ∈ draft.sections, sect.payload.length ≤ maxPsiLongSectionPayloadSize

theorem TransportSection.overwrite_payloadWith (sect : TransportSection) (old new : ℕ) :
    AbstractTransportListTable.overwriteUInt16 (sect.payloadWith old) (sect.descs.binarySize + 2)
      (new ||| 0xF000) = sect.payloadWith new := by
  have hlength : sect.descs.binarySize + 2 =
      (AbstractTransportListTable.topEntry sect.descs).bytes.length := by
    rw [EntryWithDescriptors.length_bytes]
    show _ = 0 + 2 + sect.descs.binarySize
    omega
  unfold AbstractTransportListTable.overwriteUInt16 payloadWith
  rw [hlength, List.take_left, ← List.drop_drop, List.drop_left, List.append_assoc]
  rfl

theorem Represents.sectionNumber (hrepresents : Represents header output draft) :
    output.writer.sectionNumber = draft.closed.length := by
  rw [hrepresents.wrote.2, List.length_map]

theorem Represents.length_payload (hrepresents : Represents header output draft) :
    output.writer.payload.length = draft.current.payload.length := by
  rw [hrepresents.payload, TransportSection.payload, TransportSection.length_payloadWith,
    TransportSection.length_payloadWith]

theorem Represents.remain (hrepresents : Represents header output draft) :
    output.writer.remain + draft.current.payload.length = maxPsiLongSectionPayloadSize := by
  rw [SectionWriter.remain, hrepresents.length_payload]
  exact Nat.sub_add_cancel (hrepresents.sizes draft.current
    (List.mem_append_right _ (List.mem_singleton.mpr rfl)))

theorem Represents.add (hrepresents : Represents header output draft) {part : EntryWithDescriptors}
    (hfits : part.bytes.length ≤ output.writer.remain) :
    Represents header
      ((AbstractTransportListTable.transportOutput header).write output part.bytes)
      (draft.add part) := by
  have hremain := hrepresents.remain
  have hnext : (draft.add part).current.payloadWith 0 =
      draft.current.payloadWith 0 ++ part.bytes := by
    simp only [TransportSection.payloadWith, TransportSection.loop, TableDraft.add,
      List.flatMap_append, List.flatMap_singleton, List.append_assoc]
  constructor
  · exact hrepresents.wrote.write _
  · show output.writer.payload ++ part.bytes = _
    rw [hnext, hrepresents.payload]
  · exact hrepresents.address
  · intro sect hsect
    rcases List.mem_append.mp hsect with hclosed | hcurrent
    · exact hrepresents.sizes sect (List.mem_append_left _ hclosed)
    · have hlength := congrArg List.length hnext
      have hpayload := hrepresents.length_payload
      rw [List.mem_singleton.mp hcurrent]
      rw [List.length_append, ← hrepresents.payload, TransportSection.length_payloadWith,
        hpayload] at hlength
      rw [TransportSection.payload, TransportSection.length_payloadWith]
      omega

theorem Represents.close (hrepresents : Represents header output draft) :
    Represents header (AbstractTransportListTable.addSection header output) draft.close := by
  have hpayload := hrepresents.payload
  have hlength : output.writer.payload.length - output.tsllAddr - 2 = draft.current.loop.length := by
    rw [hpayload, hrepresents.address, TransportSection.length_payloadWith]
    omega
  have hfilled : AbstractTransportListTable.overwriteUInt16 output.writer.payload output.tsllAddr
      ((output.writer.payload.length - output.tsllAddr - 2) ||| 0xF000) = draft.current.payload := by
    rw [hlength, hpayload, hrepresents.address, TransportSection.overwrite_payloadWith]
    rfl
  have hfull : SectionWriter.Wrote header
      { output.writer with payload := draft.current.payload }
        (draft.closed.map TransportSection.payload) := hrepresents.wrote
  have hwrote := hfull.addSection 0
  unfold AbstractTransportListTable.addSection
  dsimp only
  rw [hfilled]
  constructor
  · show SectionWriter.Wrote header (SectionWriter.write _ _) _
    apply SectionWriter.Wrote.write
    show SectionWriter.Wrote header _ (draft.sections.map TransportSection.payload)
    rw [TableDraft.sections, List.map_append]
    exact hwrote
  · have hempty : ({ descs := [], transports := [] } : TransportSection).payloadWith 0 =
        putUInt16 0xF000 ++ putUInt16 0xF000 := by
      decide
    exact hempty.symm
  · rfl
  · intro sect hsect
    rcases List.mem_append.mp hsect with hclosed | hcurrent
    · exact hrepresents.sizes sect hclosed
    · rw [List.mem_singleton.mp hcurrent]
      show 4 ≤ 1012
      decide

end Represents

end TSDuck
