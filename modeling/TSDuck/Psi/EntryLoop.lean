import TSDuck.Library.SortedMap
import TSDuck.Psi.DescriptorList
import TSDuck.Psi.SectionWriter

/-!
# Writing entries with descriptors over several sections

The services of an SDT, the events of an EIT and the transport streams of a NIT or a BAT are written
in the same way. When an entry does not fit in what is left of the section, a new section is opened;
when it does not fit in a section, its fixed part is repeated in the next sections, with the rest of
its descriptors. An entry is then cut into several ones (`IsCut`), which are put together again when
they are read (`foldl_cut`).
-/

namespace TSDuck

namespace EntryWithDescriptors

/-- The parts of an entry. -/
def IsCut (entry : EntryWithDescriptors) (parts : List EntryWithDescriptors) : Prop :=
  parts ≠ [] ∧ (∀ part ∈ parts, part.fixed = entry.fixed ∧ part.high = entry.high) ∧
    parts.flatMap EntryWithDescriptors.descs = entry.descs

/-- The parts of an entry make its value. -/
theorem foldl_cut {Value : Type} {make : ByteBlock → UInt8 → DescriptorList → Value}
    {descsOf : Value → DescriptorList}
    (hmake : ∀ fixed high descs, descsOf (make fixed high descs) = descs)
    {entry : EntryWithDescriptors} {parts : List EntryWithDescriptors}
    (hcut : IsCut entry parts) :
    parts.foldl (fun value part ↦
      some (make part.fixed part.high (value.elim [] descsOf ++ part.descs))) none =
        some (make entry.fixed entry.high entry.descs) := by
  obtain ⟨hnonempty, hsame, hdescs⟩ := hcut
  have hall : ∀ (parts : List EntryWithDescriptors) (value : Option Value), parts ≠ [] →
      (∀ part ∈ parts, part.fixed = entry.fixed ∧ part.high = entry.high) →
        parts.foldl (fun value part ↦
          some (make part.fixed part.high (value.elim [] descsOf ++ part.descs))) value =
            some (make entry.fixed entry.high
              (value.elim [] descsOf ++ parts.flatMap EntryWithDescriptors.descs)) := by
    intro parts
    induction parts with
    | nil =>
      intro _ hne
      exact absurd rfl hne
    | cons part rest ih =>
      intro value _ hsame
      obtain ⟨hfixed, hhigh⟩ := hsame part List.mem_cons_self
      rw [List.foldl_cons, List.flatMap_cons, hfixed, hhigh, ← List.append_assoc]
      by_cases hlast : rest = []
      · rw [hlast, List.flatMap_nil, List.append_nil]
        rfl
      · rw [ih _ hlast (List.forall_mem_cons.mp hsame).2]
        show some (make _ _ (descsOf (make _ _ _) ++ _)) = _
        rw [hmake]
  rw [hall parts none hnonempty hsame, hdescs]
  rfl

theorem exists_of_mem_cuts {entries : List EntryWithDescriptors}
    {cuts : List (List EntryWithDescriptors)} (hcuts : List.Forall₂ IsCut entries cuts)
    {record : EntryWithDescriptors} (hmem : record ∈ cuts.flatten) :
    ∃ entry ∈ entries, record.fixed = entry.fixed ∧ record.high = entry.high := by
  induction hcuts with
  | nil => exact absurd hmem List.not_mem_nil
  | cons hcut _ ih =>
    rcases List.mem_append.mp hmem with hhere | hrest
    · exact ⟨_, List.mem_cons_self, hcut.2.1 record hhere⟩
    · obtain ⟨entry, hentry, hsame⟩ := ih hrest
      exact ⟨entry, List.mem_cons_of_mem _ hentry, hsame⟩

/-- The map is loaded from the parts. -/
theorem foldl_update_cuts {Key Value : Type} [LinearOrder Key] {map : SortedMap Key Value}
    (keyOf : ByteBlock → Key) (make : ByteBlock → UInt8 → DescriptorList → Value)
    (descsOf : Value → DescriptorList)
    (hmake : ∀ fixed high descs, descsOf (make fixed high descs) = descs)
    (entryOf : Key × Value → EntryWithDescriptors)
    (hentries : ∀ entry ∈ map.entries, keyOf (entryOf entry).fixed = entry.1 ∧
      make (entryOf entry).fixed (entryOf entry).high (entryOf entry).descs = entry.2)
    {entries : List (Key × Value)} (hperm : entries.Perm map.entries)
    {cuts : List (List EntryWithDescriptors)}
    (hcuts : List.Forall₂ IsCut (entries.map entryOf) cuts) :
    cuts.flatten.foldl (fun map part ↦ map.update (keyOf part.fixed) fun value ↦
      make part.fixed part.high (value.elim [] descsOf ++ part.descs)) SortedMap.empty = map := by
  apply SortedMap.foldl_update_flatten (fun part : EntryWithDescriptors ↦ keyOf part.fixed)
    (fun part value ↦ make part.fixed part.high (value.elim [] descsOf ++ part.descs)) hperm
  rw [List.forall₂_map_left_iff] at hcuts
  have hall := (List.forall₂_and_left (p := fun entry ↦ entry ∈ entries)
    entries cuts).mpr ⟨fun entry hentry ↦ hentry, hcuts⟩
  apply hall.imp
  rintro entry parts ⟨hentry, hcut⟩
  obtain ⟨hkey, hvalue⟩ := hentries entry (hperm.mem_iff.mp hentry)
  constructor
  · intro part hpart
    show keyOf part.fixed = entry.1
    rw [(hcut.2.1 part hpart).1, hkey]
  · rw [foldl_cut hmake hcut, hvalue]

end EntryWithDescriptors

/-- Where entries are written. -/
structure EntryOutput (State : Type) where
  remain : State → ℕ
  write : State → ByteBlock → State
  close : State → State
  remain_le : ∀ state, remain state ≤ maxPsiLongSectionPayloadSize

namespace EntryOutput

variable {State : Type} (output : EntryOutput State) (entry : EntryWithDescriptors)

section Spec

variable (Ready Written : State → List EntryWithDescriptors → Prop)
  (hwrite : ∀ state before part, Ready state before →
    part.fixed = entry.fixed ∧ part.high = entry.high → part.bytes.length ≤ output.remain state →
        Written (output.write state part.bytes) (before ++ [part]))
  (hclose : ∀ state before, Written state before → Ready (output.close state) before ∧
    entry.fixed.length + 2 + 257 ≤ output.remain (output.close state))

include hwrite hclose

end Spec

end EntryOutput

namespace SectionWriter

/-! ### Entries after a constant part -/

/-- Entries are written in the payload of a section. -/
def output (header : LongHeader) (constantSize : ℕ) : EntryOutput SectionWriter where
  remain := remain
  write := write
  close := addSection header constantSize
  remain_le := fun _ ↦ Nat.sub_le _ _

def payloadOf (constant : ByteBlock) (part : List EntryWithDescriptors) : ByteBlock :=
  constant ++ part.flatMap EntryWithDescriptors.bytes

/-- The sections have a constant part and the entries so far. -/
def Layout (header : LongHeader) (constant : ByteBlock) (writer : SectionWriter)
    (records : List EntryWithDescriptors) : Prop :=
  ∃ full current, Wrote header writer (full.map (payloadOf constant)) ∧
    writer.payload = payloadOf constant current ∧ records = full.flatten ++ current ∧
      (∀ part ∈ full ++ [current], (payloadOf constant part).length ≤ maxPsiLongSectionPayloadSize)

/-- If nothing is in the current section, it is the first one. -/
def Settled (header : LongHeader) (constant : ByteBlock) (writer : SectionWriter)
    (records : List EntryWithDescriptors) : Prop :=
  Layout header constant writer records ∧
    (writer.payload.length ≤ constant.length → writer.sectionNumber = 0)

variable {header : LongHeader} {constant : ByteBlock} {writer : SectionWriter}
  {records : List EntryWithDescriptors}

theorem Layout.write (hlayout : Layout header constant writer records) {part : EntryWithDescriptors}
    (hfits : part.bytes.length ≤ writer.remain) :
    Layout header constant (writer.write part.bytes) (records ++ [part]) := by
  obtain ⟨full, current, hwrote, hpayload, rfl, hsizes⟩ := hlayout
  have hcurrent := hsizes current (List.mem_append_right _ (List.mem_singleton.mpr rfl))
  have hnext : payloadOf constant (current ++ [part]) = writer.payload ++ part.bytes := by
    rw [hpayload, payloadOf, List.flatMap_append, List.flatMap_singleton, ← List.append_assoc]
    rfl
  refine ⟨full, current ++ [part], hwrote.write _, hnext.symm, List.append_assoc _ _ _, ?_⟩
  intro other hother
  rcases List.mem_append.mp hother with hin | hin
  · exact hsizes other (List.mem_append_left _ hin)
  · rw [List.mem_singleton.mp hin, hnext, List.length_append]
    rw [remain] at hfits
    rw [hpayload] at hfits ⊢
    omega

theorem Layout.addSection (hlayout : Layout header constant writer records)
    (hconstant : constant.length ≤ maxPsiLongSectionPayloadSize) :
    Layout header constant (writer.addSection header constant.length) records ∧
      (writer.addSection header constant.length).payload = constant := by
  obtain ⟨full, current, hwrote, hpayload, rfl, hsizes⟩ := hlayout
  have hempty : payloadOf constant [] = constant := List.append_nil _
  have hpayloadNext : (writer.addSection header constant.length).payload = constant := by
    show writer.payload.take constant.length = constant
    rw [hpayload]
    exact List.take_left
  refine ⟨⟨full ++ [current], [], ?_, ?_, ?_, ?_⟩, hpayloadNext⟩
  · have hadded := hwrote.addSection constant.length
    rw [hpayload] at hadded
    rw [List.map_append]
    exact hadded
  · rw [hpayloadNext, hempty]
  · rw [List.flatten_append, List.flatten_singleton, List.append_nil]
  · intro part hpart
    rcases List.mem_append.mp hpart with hin | hin
    · exact hsizes part hin
    · rw [List.mem_singleton.mp hin, hempty]
      exact hconstant

variable {entries : List EntryWithDescriptors}

/-- Some entries are cut into the parts of some payloads. -/
structure IsLaidOut (constant : ByteBlock) (entries : List EntryWithDescriptors)
    (parts : List (List EntryWithDescriptors)) : Prop where
  nonempty : parts ≠ []
  sizes : ∀ part ∈ parts, (payloadOf constant part).length ≤ maxPsiLongSectionPayloadSize
  cuts : ∃ cuts : List (List EntryWithDescriptors), parts.flatten = cuts.flatten ∧
    List.Forall₂ EntryWithDescriptors.IsCut entries cuts

theorem IsLaidOut.readAllRecords {fixedSize : ℕ} {parts : List (List EntryWithDescriptors)}
    (hlaidOut : IsLaidOut constant entries parts)
    (hentries : ∀ entry ∈ entries, entry.fixed.length = fixedSize ∧ entry.high &&& 0x0F = 0)
    {part : List EntryWithDescriptors} (hpart : part ∈ parts) :
    readAllRecords (EntryWithDescriptors.read fixedSize)
      (part.flatMap EntryWithDescriptors.bytes) = part := by
  have hmax : maxPsiLongSectionPayloadSize = 1012 := rfl
  obtain ⟨cuts, hflatten, hcuts⟩ := hlaidOut.cuts
  apply EntryWithDescriptors.readAllRecords_bytes
  intro record hrecord
  obtain ⟨entry, hentry, hfixed, hhigh⟩ := EntryWithDescriptors.exists_of_mem_cuts hcuts
    (hflatten ▸ List.mem_flatten.mpr ⟨part, hpart, hrecord⟩)
  obtain ⟨hlength, hbits⟩ := hentries entry hentry
  refine ⟨hfixed ▸ hlength, hhigh ▸ hbits, ?_⟩
  have hsize := hlaidOut.sizes part hpart
  obtain ⟨before, after, rfl⟩ := List.append_of_mem hrecord
  rw [payloadOf, List.flatMap_append, List.flatMap_cons, List.length_append, List.length_append,
    List.length_append, EntryWithDescriptors.length_bytes] at hsize
  omega

end SectionWriter

end TSDuck
