import TSDuck.Psi.PacketizerRoundTrip
import TSDuck.Psi.SectionSetters

/-!
# The EIT processor

An EIT processor replaces the packets of some PID's, one by one.

This module has the filters and the new identifiers of EIT's: `EITProcessor.Rules.select_spec`
states that a section is selected if and only if it passes the filters, as what is expected in its
place.

Scope. The rules and the PID's do not change. The copy of a section shares its bytes with the
section in the demux, which does not look at them any more. The output PID is not the one of null
packets.
-/

namespace TSDuck

namespace Section

theorem le_headerSize (sect : Section) : shortSectionHeaderSize ≤ sect.headerSize := by
  unfold headerSize
  split_ifs <;> decide

/-- Sets a 16-bit integer in the payload only. -/
def setUInt16 (sect : Section) (offset value : ℕ) : Section :=
  if offset + 1 < sect.payloadSize then
    sect.write (sect.headerSize + offset) (putUInt16 value)
      (sect.le_headerSize.trans (Nat.le_add_right _ _))
  else sect

end Section

namespace EITProcessor

/-- Some of the identifiers of a service. -/
structure Service where
  id : Option UInt16
  tsId : Option UInt16
  onId : Option UInt16

/-- The function `Match`. -/
def Service.matchIds (srv : Service) (srvId tsId netId : ℕ) : Bool :=
  (srv.id.isSome || srv.tsId.isSome) && srv.id.all (·.toNat == srvId) &&
    srv.tsId.all (·.toNat == tsId) && srv.onId.all (·.toNat == netId)

/-- The lists of what is kept, removed and renamed. -/
structure Rules where
  removedTids : List UInt8
  removed : List Service
  kept : List Service
  renamed : List (Service × Service)

def isEIT (tid : UInt8) : Bool :=
  0x4E ≤ tid && tid ≤ 0x6F

def tsIdOf (sect : Section) : ℕ :=
  if sect.payloadSize < 2 then 0 else getUInt16 sect.content sect.headerSize

def netIdOf (sect : Section) : ℕ :=
  if sect.payloadSize < 4 then 0 else getUInt16 sect.content (sect.headerSize + 2)

def isMatched (sect : Section) (srv : Service) : Bool :=
  srv.matchIds sect.tableIdExtension (tsIdOf sect) (netIdOf sect)

/-- Replaces the identifiers, apart from the CRC32. -/
def setIds (new : Service) (sect : Section) : Section :=
  let withId := new.id.elim sect fun id ↦ sect.setTableIdExtension id.toNat
  let withTsId := new.tsId.elim withId fun tsId ↦ withId.setUInt16 0 tsId.toNat
  new.onId.elim withTsId fun onId ↦ withTsId.setUInt16 2 onId.toNat

def rename (new : Service) (sect : Section) : Section :=
  if new.id.isSome || new.tsId.isSome || new.onId.isSome then (setIds new sect).recomputeCRC
  else setIds new sect

namespace Rules

variable (rules : Rules)

def isKept (sect : Section) : Bool :=
  if rules.kept.isEmpty then !rules.removed.any (isMatched sect) else rules.kept.any (isMatched sect)

/-- The identifiers of the rules which match. -/
def renameAll (sect : Section) : Section :=
  rules.renamed.foldl
    (fun current rule ↦ if isMatched sect rule.1 then rename rule.2 current else current) sect

/-- The section to insert in the queue, if the section is not eliminated. -/
def select (sect : Section) : Option Section :=
  if rules.removedTids.contains sect.tableId then none
  else if isEIT sect.tableId then
    if sect.payloadSize < 6 then none
    else if rules.isKept sect then some (rules.renameAll sect) else none
  else some sect

def maxSections : ℕ := 1000

/-- Handles a section, none when the assertion fails. -/
def handleSection (sections : List Section) (sect : Section) : Option (List Section) :=
  match rules.select sect with
  | none => some sections
  | some selected => if sections.length < maxSections then some (sections ++ [selected]) else none

/-- A section handler only, stopped when the assertion fails. -/
def handlers : DemuxHandlers (Option (List Section)) where
  handleTable := none
  handleSection := some fun sections sect ↦
    (sections.bind fun current ↦ rules.handleSection current sect, [])

end Rules

/-- The sections of the queue, without stuffing. -/
def sectionProvider : SectionProvider Section (List Section) where
  provideSection _ _ sections := (sections.head?, sections.tail)
  doStuffing sections := (false, sections)

end EITProcessor

/-- The queue of the sections is the application of the demux. -/
structure EITProcessor where
  demux : SectionDemux (Option (List Section))
  packetizer : Packetizer Section

namespace EITProcessor

def new (inputPids : ℕ → Bool) (outputPid : ℕ) : EITProcessor where
  demux := .new inputPids (some [])
  packetizer := .new outputPid

variable (rules : Rules)

/-- Processes a packet, none when the assertion fails. -/
def processPacket (processor : EITProcessor) (pkt : TSPacket) : Option (EITProcessor × TSPacket) :=
  if processor.demux.pidFilter pkt.getPID then
    let demux := (processor.demux.feedPacket rules.handlers pkt).1
    demux.application.map fun sections ↦
      let result := processor.packetizer.getNextPacket id (some sectionProvider) sections
      ({ demux := { demux with application := some result.provider }
         packetizer := result.packetizer }, result.packet)
  else some (processor, pkt)

/-! ### The identifiers which are replaced -/

def replaced (new : Option UInt16) (value : ℕ) : ℕ :=
  (new.map UInt16.toNat).getD value

/-- Outside the identifiers, and before the CRC32. -/
def IsOutside (sect : Section) (offset : ℕ) : Prop :=
  (offset < sect.headerSize ∨ sect.headerSize + 4 ≤ offset) ∧
    (sect.isLongSection = true → offset ≠ 3 ∧ offset ≠ 4 ∧
      offset + sectionCrc32Size < sect.content.length)

/-- A section is another one with new identifiers, apart from its CRC32. -/
structure Edits (sect out : Section) (id tsId onId : Option UInt16) : Prop where
  length_eq : out.content.length = sect.content.length
  isLong_eq : out.isLongSection = sect.isLongSection
  id_eq : sect.isLongSection = true →
    getUInt16 out.content 3 = replaced id (getUInt16 sect.content 3)
  tsId_eq : getUInt16 out.content sect.headerSize =
    replaced tsId (getUInt16 sect.content sect.headerSize)
  onId_eq : getUInt16 out.content (sect.headerSize + 2) =
    replaced onId (getUInt16 sect.content (sect.headerSize + 2))
  others : ∀ offset, IsOutside sect offset → byteAt out.content offset = byteAt sect.content offset

theorem Edits.refl (sect : Section) : Edits sect sect none none none :=
  ⟨rfl, rfl, fun _ ↦ rfl, rfl, rfl, fun _ _ ↦ rfl⟩

theorem replaced_replaced (first second : Option UInt16) (value : ℕ) :
    replaced second (replaced first value) = replaced (second.or first) value := by
  cases second <;> rfl

section Edits

variable {sect out : Section} {id tsId onId : Option UInt16} (hedits : Edits sect out id tsId onId)

include hedits

theorem Edits.headerSize_eq : out.headerSize = sect.headerSize := by
  unfold Section.headerSize
  rw [hedits.isLong_eq]

theorem Edits.payloadSize_eq : out.payloadSize = sect.payloadSize := by
  unfold Section.payloadSize Section.size
  rw [hedits.isLong_eq, hedits.length_eq]

theorem Edits.trans {last : Section} {id' tsId' onId' : Option UInt16}
    (hnext : Edits out last id' tsId' onId') :
    Edits sect last (id'.or id) (tsId'.or tsId) (onId'.or onId) := by
  have hheader := hedits.headerSize_eq
  refine ⟨hnext.length_eq.trans hedits.length_eq, hnext.isLong_eq.trans hedits.isLong_eq,
    fun hlong ↦ ?_, ?_, ?_, fun offset houtside ↦ ?_⟩
  · rw [hnext.id_eq (hedits.isLong_eq.trans hlong), hedits.id_eq hlong, replaced_replaced]
  · rw [← replaced_replaced, ← hedits.tsId_eq, ← hheader]
    exact hnext.tsId_eq
  · rw [← replaced_replaced, ← hedits.onId_eq, ← hheader]
    exact hnext.onId_eq
  · rw [hnext.others offset, hedits.others offset houtside]
    unfold IsOutside
    rw [hheader, hedits.isLong_eq, hedits.length_eq]
    exact houtside

end Edits

section Setters

variable (sect : Section)

theorem edits_setTableIdExtension (id : UInt16) :
    Edits sect (sect.setTableIdExtension id.toNat) (some id) none none := by
  unfold Section.setTableIdExtension
  split_ifs with hlong
  · have hheader : sect.headerSize = 8 := if_pos hlong
    have hsize := sect.bytes.long_le hlong
    unfold minLongSectionSize longSectionHeaderSize at hsize
    refine ⟨length_writeBytes _ _ _, Section.isLongSection_write _ _ _ _, fun _ ↦ ?_, ?_, ?_,
      fun offset houtside ↦ ?_⟩
    · show getUInt16 (writeBytes sect.content 3 (putUInt16 id.toNat)) 3 = id.toNat
      rw [getUInt16_writeBytes (by omega), Nat.mod_eq_of_lt id.toNat_lt]
    · exact Section.getUInt16_write (by omega)
    · exact Section.getUInt16_write (by omega)
    · obtain ⟨hthree, hfour, -⟩ := houtside.2 hlong
      exact Section.byteAt_write (by omega)
  · exact ⟨rfl, rfl, fun h ↦ absurd h hlong, rfl, rfl, fun _ _ ↦ rfl⟩

variable {sect} (hsize : 6 ≤ sect.payloadSize)

include hsize

theorem payload_bound :
    sect.headerSize + 6 + (if sect.isLongSection then sectionCrc32Size else 0) ≤
      sect.content.length := by
  unfold Section.payloadSize Section.size at hsize
  unfold Section.headerSize
  split_ifs at hsize ⊢ <;> omega

theorem edits_setTsId (tsId : UInt16) :
    Edits sect (sect.setUInt16 0 tsId.toNat) none (some tsId) none := by
  have hbound := payload_bound hsize
  unfold Section.setUInt16
  rw [if_pos (by omega)]
  refine ⟨length_writeBytes _ _ _, Section.isLongSection_write _ _ _ _, fun hlong ↦ ?_, ?_, ?_,
    fun offset houtside ↦ ?_⟩
  · have hheader : sect.headerSize = 8 := if_pos hlong
    exact Section.getUInt16_write (by omega)
  · show getUInt16 (writeBytes sect.content (sect.headerSize + 0) (putUInt16 tsId.toNat))
      (sect.headerSize + 0) = tsId.toNat
    rw [getUInt16_writeBytes (by omega), Nat.mod_eq_of_lt tsId.toNat_lt]
  · exact Section.getUInt16_write (by omega)
  · exact Section.byteAt_write (by have := houtside.1; omega)

theorem edits_setOnId (onId : UInt16) :
    Edits sect (sect.setUInt16 2 onId.toNat) none none (some onId) := by
  have hbound := payload_bound hsize
  unfold Section.setUInt16
  rw [if_pos (by omega)]
  refine ⟨length_writeBytes _ _ _, Section.isLongSection_write _ _ _ _, fun hlong ↦ ?_, ?_, ?_,
    fun offset houtside ↦ ?_⟩
  · have hheader : sect.headerSize = 8 := if_pos hlong
    exact Section.getUInt16_write (by omega)
  · exact Section.getUInt16_write (by omega)
  · show getUInt16 (writeBytes sect.content (sect.headerSize + 2) (putUInt16 onId.toNat))
      (sect.headerSize + 2) = onId.toNat
    rw [getUInt16_writeBytes (by omega), Nat.mod_eq_of_lt onId.toNat_lt]
  · exact Section.byteAt_write (by have := houtside.1; omega)

theorem edits_recomputeCRC : Edits sect sect.recomputeCRC none none none := by
  by_cases hlong : sect.isLongSection = true
  · have hbound := payload_bound hsize
    rw [if_pos hlong] at hbound
    have hheader : sect.headerSize = 8 := if_pos hlong
    have hcontent := Section.content_recomputeCRC hlong
    have hbyte : ∀ offset, offset + sectionCrc32Size < sect.content.length →
        byteAt sect.recomputeCRC.content offset = byteAt sect.content offset := by
      intro offset hoffset
      rw [hcontent, Section.byteAt_withCrc32 hoffset]
    refine ⟨?_, ?_, fun _ ↦ getUInt16_congr (hbyte _ (by omega)) (hbyte _ (by omega)),
      getUInt16_congr (hbyte _ (by omega)) (hbyte _ (by omega)),
      getUInt16_congr (hbyte _ (by omega)) (hbyte _ (by omega)),
      fun offset houtside ↦ hbyte offset (houtside.2 hlong).2.2⟩
    · rw [hcontent, Section.length_withCrc32 (by omega)]
    · unfold Section.isLongSection hasLongHeader
      rw [hbyte 1 (by omega)]
  · have hsame : sect.recomputeCRC = sect := dif_neg hlong
    rw [hsame]
    exact Edits.refl sect

end Setters

theorem edits_setIds (new : Service) {sect : Section} (hsize : 6 ≤ sect.payloadSize) :
    Edits sect (setIds new sect) new.id new.tsId new.onId := by
  obtain ⟨id, tsId, onId⟩ := new
  have hid : Edits sect (id.elim sect fun id ↦ sect.setTableIdExtension id.toNat) id none none := by
    cases id with
    | none => exact Edits.refl sect
    | some id => exact edits_setTableIdExtension sect id
  unfold setIds
  dsimp only
  generalize id.elim sect _ = withId at hid ⊢
  have hidSize : 6 ≤ withId.payloadSize := hsize.trans_eq hid.payloadSize_eq.symm
  have htsId : Edits withId (tsId.elim withId fun tsId ↦ withId.setUInt16 0 tsId.toNat) none tsId
      none := by
    cases tsId with
    | none => exact Edits.refl withId
    | some tsId => exact edits_setTsId hidSize tsId
  generalize tsId.elim withId _ = withTsId at htsId ⊢
  have htsIdSize : 6 ≤ withTsId.payloadSize := hidSize.trans_eq htsId.payloadSize_eq.symm
  have honId : Edits withTsId (onId.elim withTsId fun onId ↦ withTsId.setUInt16 2 onId.toNat) none
      none onId := by
    cases onId with
    | none => exact Edits.refl withTsId
    | some onId => exact edits_setOnId htsIdSize onId
  have hall := (hid.trans htsId).trans honId
  simpa using hall

theorem rename_spec (new : Service) {sect : Section} (hsize : 6 ≤ sect.payloadSize)
    (hcrc : sect.isLongSection = true → crcMatches sect.content = true) :
    Edits sect (rename new sect) new.id new.tsId new.onId ∧
      ((rename new sect).isLongSection = true → crcMatches (rename new sect).content = true) := by
  have hset := edits_setIds new hsize
  unfold rename
  split_ifs with hmodified
  · have hcomputed := edits_recomputeCRC (hsize.trans_eq hset.payloadSize_eq.symm)
    refine ⟨by simpa using hset.trans hcomputed, fun hlong ↦ ?_⟩
    exact Section.crcMatches_recomputeCRC (hcomputed.isLong_eq.symm.trans hlong)
  · refine ⟨hset, fun hlong ↦ ?_⟩
    obtain ⟨id, tsId, onId⟩ := new
    simp only [Bool.or_eq_true, not_or, Option.not_isSome_iff_eq_none] at hmodified
    obtain ⟨⟨rfl, rfl⟩, rfl⟩ := hmodified
    exact hcrc hlong

namespace Rules

variable (rules : Rules)

/-- The value of the last rule which matches and has one. -/
def newValue (identifier : Service → Option UInt16) (sect : Section) : Option UInt16 :=
  ((rules.renamed.filter fun rule ↦ isMatched sect rule.1).filterMap
    fun rule ↦ identifier rule.2).getLast?

/-- The identifiers are replaced, and the CRC32 is correct. -/
theorem renameAll_spec {sect : Section} (hsize : 6 ≤ sect.payloadSize)
    (hcrc : sect.isLongSection = true → crcMatches sect.content = true) :
    Edits sect (rules.renameAll sect) (rules.newValue Service.id sect)
        (rules.newValue Service.tsId sect) (rules.newValue Service.onId sect) ∧
      ((rules.renameAll sect).isLongSection = true →
        crcMatches (rules.renameAll sect).content = true) := by
  unfold renameAll newValue
  induction rules.renamed using List.reverseRecOn with
  | nil => exact ⟨Edits.refl sect, hcrc⟩
  | append_singleton others rule ih =>
    obtain ⟨hedits, hmatches⟩ := ih
    rw [List.foldl_append, List.foldl_cons, List.foldl_nil]
    generalize others.foldl _ sect = current at hedits hmatches ⊢
    by_cases hrule : isMatched sect rule.1 = true
    · obtain ⟨hnext, hlast⟩ :=
        rename_spec rule.2 (hsize.trans_eq hedits.payloadSize_eq.symm) hmatches
      have hall := hedits.trans hnext
      rw [if_pos hrule]
      refine ⟨?_, hlast⟩
      have hvalue : ∀ identifier : Service → Option UInt16,
          (((others ++ [rule]).filter fun rule ↦ isMatched sect rule.1).filterMap
            fun rule ↦ identifier rule.2).getLast? =
          (identifier rule.2).or ((others.filter fun rule ↦ isMatched sect rule.1).filterMap
            fun rule ↦ identifier rule.2).getLast? := by
        intro identifier
        have hone : [rule].filter (fun rule ↦ isMatched sect rule.1) = [rule] := by
          simp [hrule]
        rw [List.filter_append, List.filterMap_append, List.getLast?_append, hone]
        cases hvalue : identifier rule.2 <;> simp [hvalue]
      rw [hvalue, hvalue, hvalue]
      exact hall
    · rw [if_neg hrule]
      have hsame : (others ++ [rule]).filter (fun rule ↦ isMatched sect rule.1) =
          others.filter fun rule ↦ isMatched sect rule.1 := by
        simp [List.filter_append, hrule]
      rw [hsame]
      exact ⟨hedits, hmatches⟩

theorem renameAll_of_unmatched {sect : Section}
    (hunmatched : ∀ rule ∈ rules.renamed, isMatched sect rule.1 = false) :
    rules.renameAll sect = sect := by
  have hfixed : ∀ others : List (Service × Service),
      (∀ rule ∈ others, isMatched sect rule.1 = false) → others.foldl (fun current rule ↦
          if isMatched sect rule.1 then rename rule.2 current else current) sect = sect := by
    intro others hothers
    induction others with
    | nil => rfl
    | cons rule rest ih =>
      rw [List.foldl_cons, if_neg (by rw [hothers rule List.mem_cons_self]; decide)]
      exact ih (List.forall_mem_cons.mp hothers).2
  exact hfixed rules.renamed hunmatched

/-! ### What is expected of the processor -/

/-- The table id and the service are not removed. -/
def Passes (sect : Section) : Prop :=
  sect.tableId ∉ rules.removedTids ∧ (isEIT sect.tableId = true → 6 ≤ sect.payloadSize ∧
    ((rules.kept = [] ∧ ∀ srv ∈ rules.removed, isMatched sect srv = false) ∨
      ∃ srv ∈ rules.kept, isMatched sect srv = true))

instance (sect : Section) : Decidable (rules.Passes sect) :=
  inferInstanceAs (Decidable (_ ∧ _))

/-- The section, or an EIT with its new identifiers. -/
structure IsOutput (sect out : Section) : Prop where
  same : isEIT sect.tableId = false ∨ (∀ rule ∈ rules.renamed, isMatched sect rule.1 = false) →
    out.content = sect.content
  renamed : isEIT sect.tableId = true → Edits sect out (rules.newValue Service.id sect)
    (rules.newValue Service.tsId sect) (rules.newValue Service.onId sect)
  crc : out.isLongSection = true → crcMatches out.content = true

theorem select_spec {sect : Section}
    (hcrc : sect.isLongSection = true → crcMatches sect.content = true) :
    rules.Passes sect ∧ (∃ out, rules.select sect = some out ∧ rules.IsOutput sect out) ∨
      ¬ rules.Passes sect ∧ rules.select sect = none := by
  have hkept : rules.isKept sect = true ↔
      (rules.kept = [] ∧ ∀ srv ∈ rules.removed, isMatched sect srv = false) ∨
        ∃ srv ∈ rules.kept, isMatched sect srv = true := by
    unfold isKept
    cases rules.kept with
    | nil => simp
    | cons srv rest => simp
  unfold select
  by_cases hremoved : sect.tableId ∈ rules.removedTids
  · rw [if_pos (List.contains_iff_mem.mpr hremoved)]
    exact Or.inr ⟨fun h ↦ h.1 hremoved, rfl⟩
  · rw [if_neg fun h ↦ hremoved (List.contains_iff_mem.mp h)]
    by_cases heit : isEIT sect.tableId = true
    · rw [if_pos heit]
      by_cases hsize : 6 ≤ sect.payloadSize
      · rw [if_neg (Nat.not_lt_of_le hsize)]
        by_cases hkeep : rules.isKept sect = true
        · obtain ⟨hedits, hmatches⟩ := rules.renameAll_spec hsize hcrc
          rw [if_pos hkeep]
          refine Or.inl ⟨⟨hremoved, fun _ ↦ ⟨hsize, hkept.mp hkeep⟩⟩, _, rfl, fun hsame ↦ ?_,
            fun _ ↦ hedits, hmatches⟩
          rcases hsame with hnot | hunmatched
          · exact absurd (heit.symm.trans hnot) (by decide)
          · rw [rules.renameAll_of_unmatched hunmatched]
        · rw [if_neg hkeep]
          exact Or.inr ⟨fun h ↦ hkeep (hkept.mpr (h.2 heit).2), rfl⟩
      · rw [if_pos (Nat.lt_of_not_le hsize)]
        exact Or.inr ⟨fun h ↦ hsize (h.2 heit).1, rfl⟩
    · rw [if_neg heit]
      exact Or.inl ⟨⟨hremoved, fun h ↦ absurd h heit⟩, sect, rfl, fun _ ↦ rfl,
        fun h ↦ absurd h heit, hcrc⟩

end Rules

end EITProcessor

end TSDuck
