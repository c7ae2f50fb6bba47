import TSDuck.Psi.LongSection

/-!
# Writing a table section by section

The tables are serialized in a buffer for the payload of one section.

`SectionWriter.Wrote` states which payloads have been added. The table is then the one which is made
of these payloads, whatever was put in them.
-/

namespace TSDuck

/-- A table, the number of the current section, its payload. -/
structure SectionWriter where
  table : BinaryTable
  sectionNumber : ℕ
  payload : ByteBlock

namespace SectionWriter

def start (payload : ByteBlock) : SectionWriter :=
  { table := BinaryTable.empty, sectionNumber := 0, payload := payload }

def remain (writer : SectionWriter) : ℕ := maxPsiLongSectionPayloadSize - writer.payload.length

def write (writer : SectionWriter) (data : ByteBlock) : SectionWriter :=
  { writer with payload := writer.payload ++ data }

/-- Adds the section and starts the next one. -/
def addSection (header : LongHeader) (constantSize : ℕ) (writer : SectionWriter) : SectionWriter :=
  { table := BinaryTable.addPayload header writer.table writer.sectionNumber writer.payload
    sectionNumber := writer.sectionNumber + 1
    payload := writer.payload.take constantSize }

/-- Adds the last section, if something is in it. -/
def finish (header : LongHeader) (constantSize : ℕ) (writer : SectionWriter) : SectionWriter :=
  if constantSize < writer.payload.length ∨ writer.table.sections.length = 0 then
    writer.addSection header constantSize
  else writer

/-- The sections of some payloads have been added to the table. -/
def Wrote (header : LongHeader) (writer : SectionWriter) (payloads : List ByteBlock) : Prop :=
  writer.table = BinaryTable.payloadTable header payloads ∧ writer.sectionNumber = payloads.length

variable {header : LongHeader} {writer : SectionWriter} {payloads : List ByteBlock}

theorem wrote_start (header : LongHeader) (payload : ByteBlock) :
    Wrote header (start payload) [] :=
  ⟨rfl, rfl⟩

theorem Wrote.write (hwrote : Wrote header writer payloads) (data : ByteBlock) :
    Wrote header (writer.write data) payloads :=
  hwrote

theorem Wrote.addSection (hwrote : Wrote header writer payloads) (constantSize : ℕ) :
    Wrote header (writer.addSection header constantSize) (payloads ++ [writer.payload]) := by
  obtain ⟨htable, hnumber⟩ := hwrote
  constructor
  · rw [BinaryTable.payloadTable_concat, ← htable, ← hnumber]
    rfl
  · rw [List.length_append, List.length_singleton, ← hnumber]
    rfl

theorem Wrote.length_sections (hwrote : Wrote header writer payloads)
    (hversion : header.version ≤ 31) (hsizes : ∀ payload ∈ payloads, payload.length ≤ 4084) :
    writer.table.sections.length = 0 ↔ payloads = [] := by
  rw [hwrote.1]
  constructor
  · intro hnone
    by_contra hnonempty
    by_cases hcount : payloads.length ≤ 256
    · rw [BinaryTable.payloadTable_eq_ofPayloads hversion hsizes hcount hnonempty,
        BinaryTable.length_sections_ofPayloads] at hnone
      exact hnonempty (List.eq_nil_of_length_eq_zero hnone)
    · obtain ⟨kept, hkept, htable, -⟩ :=
        BinaryTable.payloadTable_wrapped hversion hsizes (by omega)
      rw [htable, BinaryTable.length_sections_ofPayloads, hkept] at hnone
      exact absurd hnone (by decide)
  · rintro rfl
    rfl

theorem Wrote.finish (hwrote : Wrote header writer payloads)
    (hsizes : ∀ payload ∈ payloads, payload.length ≤ 4084) (constantSize : ℕ)
    (hempty : writer.payload.length ≤ constantSize → payloads = []) :
    Wrote header (writer.finish header constantSize) (payloads ++ [writer.payload]) := by
  have hpart : constantSize < writer.payload.length ∨ writer.table.sections.length = 0 := by
    by_cases hversion : header.version ≤ 31
    · by_cases hpayload : constantSize < writer.payload.length
      · exact Or.inl hpayload
      · exact Or.inr ((hwrote.length_sections hversion hsizes).mpr (hempty (not_lt.mp hpayload)))
    · right
      rw [hwrote.1, BinaryTable.payloadTable_of_version hversion]
      rfl
  unfold SectionWriter.finish
  rw [if_pos hpart]
  exact hwrote.addSection constantSize

end SectionWriter

namespace BinaryTable

/-- The payloads of the sections are not larger than a maximum. -/
def PayloadsAtMost (table : BinaryTable) (maxSize : ℕ) : Prop :=
  ∀ sect ∈ table.allSections, sect.payloadSize ≤ maxSize

theorem payloadsAtMost_payloadTable {header : LongHeader} {payloads : List ByteBlock} {maxSize : ℕ}
    (hmax : maxSize ≤ 4084) (hpayloads : ∀ payload ∈ payloads, payload.length ≤ maxSize) :
    (payloadTable header payloads).PayloadsAtMost maxSize := by
  intro sect hsect
  obtain ⟨hpayload, hsize⟩ := payload_of_mem_allSections
    (fun payload hmem ↦ (hpayloads payload hmem).trans hmax) hsect
  rw [hsize]
  exact hpayloads _ hpayload

theorem payloadsAtMost_empty (maxSize : ℕ) : empty.PayloadsAtMost maxSize := by
  intro sect hsect
  exact absurd hsect List.not_mem_nil

end BinaryTable

end TSDuck
