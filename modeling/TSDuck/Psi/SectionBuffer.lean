import TSDuck.Psi.LongSection
import TSDuck.Psi.SectionDemuxTables
import TSDuck.Psi.SectionFile

/-!
# The sections in the buffer of a demux

What the loop of a section demux does with a buffer that is made of complete sections and of what
follows them: the start of one more section, or stuffing. `SectionDemux.collect_sections` states
that the sections are given to the section handler in order, with the same bytes, and that the start
of the section which is not complete is kept.

Scope. A section is one that the code builds from its bytes with a check of its CRC32
(`Section.IsReadable`).
-/

namespace TSDuck

namespace Section

def etid (sect : Section) : ETID :=
  { isLong := sect.isLongSection, tid := sect.tableId, tidExt := sect.tableIdExtension }

/-- The section is current, with a correct CRC32. -/
structure Transportable (sect : Section) : Prop where
  tableId_ne : sect.tableId ≠ 0xFF
  isCurrent : sect.isLongSection = true → sect.isCurrent = true
  readable : sect.IsReadable .check
  not_pes : ¬ (byteAt sect.content 0 = 0x00 ∧ byteAt sect.content 1 = 0x01)

/-- The sections of a version announce the same last section. -/
def AnnounceSameLast (sections : List Section) : Prop :=
  ∀ first ∈ sections, ∀ second ∈ sections, first.isLongSection = true →
    second.etid = first.etid → second.version = first.version →
      second.lastSectionNumber = first.lastSectionNumber

end Section

/-- What the last section of each table has announced. -/
abbrev Announcements := ETID → Option (UInt8 × ℕ)

def Announcements.announce (announced : Announcements) (sect : Section) : Announcements :=
  Function.update announced sect.etid (some (sect.version, sect.lastSectionNumber))

/-- The same last section as before in its version. -/
def Consistent : Announcements → List Section → Prop
  | _, [] => True
  | announced, sect :: rest =>
    (sect.isLongSection = true → ∀ last, announced sect.etid = some (sect.version, last) →
      sect.lastSectionNumber = last) ∧ Consistent (announced.announce sect) rest

def handledContents (log : List DemuxEvent) : List ByteBlock :=
  log.filterMap fun
    | .sect sect => some sect.content
    | _ => none

theorem handledContents_append (first second : List DemuxEvent) :
    handledContents (first ++ second) = handledContents first ++ handledContents second :=
  List.filterMap_append

theorem consistent_append {announced : Announcements} {sections others : List Section} :
    Consistent announced (sections ++ others) ↔ Consistent announced sections ∧
      Consistent (sections.foldl Announcements.announce announced) others := by
  induction sections generalizing announced with
  | nil => exact ⟨fun h ↦ ⟨trivial, h⟩, fun h ↦ h.2⟩
  | cons sect rest ih =>
    rw [List.cons_append, Consistent, Consistent, ih, and_assoc]
    rfl

namespace SectionDemux

variable {State : Type} {handlers : DemuxHandlers State}

/-! ### A section at the start of the buffer -/

theorem announcedSize_append {data : ByteBlock} (hheader : 3 ≤ data.length) (rest : ByteBlock) :
    announcedSize (data ++ rest) = announcedSize data := by
  unfold announcedSize
  rw [getUInt16_congr (byteAt_append_left rest (by omega)) (byteAt_append_left rest (by omega))]

theorem header_of_prefix {sect : Section} {data rest : ByteBlock}
    (hdata : sect.content = data ++ rest) (hheader : 3 ≤ data.length) (more : ByteBlock) :
    announcedSize (data ++ more) = sect.size ∧ ¬ InvalidLength (data ++ more) := by
  have hsize : announcedSize data = sect.size := by
    rw [Section.size, sect.bytes.length_eq, hdata, announcedSize_append hheader]
  have hlong : hasLongHeader (data ++ more) = sect.isLongSection := by
    rw [Section.isLongSection, hdata, hasLongHeader, hasLongHeader,
      byteAt_append_left more (by omega), byteAt_append_left rest (by omega)]
  have hmax : sect.size ≤ maxPrivateSectionSize := sect.bytes.length_le
  have hmin : minShortSectionSize ≤ sect.size := by
    rw [Section.size, sect.bytes.length_eq]
    exact Nat.le_add_right _ _
  refine ⟨(announcedSize_append hheader more).trans hsize, ?_⟩
  unfold InvalidLength
  rw [announcedSize_append hheader, hsize, hlong]
  rintro (hlarge | hsmall | ⟨his, hshort⟩)
  · omega
  · omega
  · exact absurd (sect.bytes.long_le his) (Nat.not_le_of_lt hshort)

section OneSection

variable {sect : Section} (hsect : sect.Transportable)

theorem three_le_size (sect : Section) : 3 ≤ sect.content.length := by
  rw [sect.bytes.length_eq]
  exact Nat.le_add_right _ _

theorem findSection_append (sect : Section) (rest : ByteBlock) {toPusi : ℕ}
    (htoPusi : toPusi = 0 ∨ toPusi = sect.size) (firstPkt : ℕ) :
    findSection (sect.content ++ rest) toPusi firstPkt =
      ⟨sect.content ++ rest, sect.size, true, firstPkt⟩ := by
  obtain ⟨hannounced, -⟩ :=
    header_of_prefix (List.append_nil sect.content).symm (three_le_size sect) rest
  unfold findSection
  rw [hannounced, if_neg (by omega)]

include hsect

theorem toSection_append (rest : ByteBlock) (firstPkt pid packetCount : ℕ) :
    (Found.mk (sect.content ++ rest) sect.size true firstPkt).toSection pid packetCount =
      some { sect with sourcePid := pid, firstPkt, lastPkt := packetCount } := by
  have htake : (sect.content ++ rest).take sect.size = sect.content := List.take_left
  unfold Found.toSection
  rw [htake, Section.ofContent_content hsect.readable]
  rfl

theorem found_append (rest : ByteBlock) (firstPkt : ℕ) (demux : SectionDemux State)
    (hcurrent : demux.getCurrent = true) :
    let found := Found.mk (sect.content ++ rest) sect.size true firstPkt
    found.isLong = sect.isLongSection ∧ found.etid = sect.etid ∧ found.version = sect.version ∧
      found.lastSectionNumber = sect.lastSectionNumber ∧ demux.IsEligible found := by
  intro found
  obtain ⟨hannounced, hvalid⟩ :=
    header_of_prefix (List.append_nil sect.content).symm (three_le_size sect) rest
  have hformed : found.IsWellFormed := by
    refine fun _ ↦ ⟨hvalid, hannounced.symm, ?_⟩
    show sect.content.length ≤ (sect.content ++ rest).length
    rw [List.length_append]
    omega
  obtain ⟨-, hlong, htid, hext, hversion, hnumber, hlast, -⟩ :=
    Found.toSection_spec rfl hformed (toSection_append hsect rest firstPkt 0 0)
  have hindex : found.IndexInRange := by
    unfold Found.IndexInRange
    rw [← hnumber, ← hlast]
    unfold Section.sectionNumber Section.lastSectionNumber
    split_ifs with his
    · exact UInt8.le_iff_toNat_le.mp (hsect.readable.1 his)
    · exact le_rfl
  have hnext : found.isNext = false := by
    unfold Found.isNext
    rw [← hlong]
    by_cases his : sect.isLongSection = true
    · have hsize := sect.bytes.long_le his
      unfold minLongSectionSize longSectionHeaderSize at hsize
      have hbit := hsect.isCurrent his
      unfold Section.isCurrent at hbit
      rw [if_pos his] at hbit
      show (sect.isLongSection && (byteAt (sect.content ++ rest) 5 &&& 0x01) == 0) = false
      rw [byteAt_append_left rest (by omega), his, Bool.true_and]
      simpa using hbit
    · rw [Bool.not_eq_true] at his
      exact Bool.and_eq_false_imp.mpr fun h ↦ absurd (his.symm.trans h) (by decide)
  refine ⟨hlong.symm, ?_, hversion.symm, hlast.symm, rfl, hindex, ?_⟩
  · calc found.etid = ⟨found.etid.isLong, found.etid.tid, found.etid.tidExt⟩ := rfl
      _ = sect.etid := by
        rw [found.isLong_etid, ← hlong, ← htid, ← hext]
        rfl
  · rw [hnext]
    exact hcurrent

end OneSection

/-! ### The sections of the buffer -/

/-- The tables in progress are those announced. -/
def Agrees (tids : ETID → ETIDContext) (announced : Announcements) : Prop :=
  ∀ etid, (tids etid).sectExpected = 0 ∨ ∃ last, announced etid = some ((tids etid).version, last) ∧
      (tids etid).sectExpected = last + 1

theorem Agrees.expects {tids : ETID → ETIDContext} {announced : Announcements}
    (hagrees : Agrees tids announced) {sect : Section}
    (hsame : ∀ last, announced sect.etid = some (sect.version, last) →
      sect.lastSectionNumber = last) :
    (tids sect.etid).Restarts sect.version ∨
      sect.lastSectionNumber + 1 = (tids sect.etid).sectExpected := by
  rcases hagrees sect.etid with hblank | ⟨last, hannounced, hcount⟩
  · exact Or.inl (Or.inl hblank)
  · by_cases hversion : (tids sect.etid).version = sect.version
    · right
      rw [hversion] at hannounced
      rw [hsame last hannounced, hcount]
    · exact Or.inl (Or.inr hversion)

theorem Agrees.announce {tids : ETID → ETIDContext} {announced : Announcements}
    (hagrees : Agrees tids announced) {sect : Section} {table : ETIDContext}
    (hversion : table.version = sect.version)
    (hcount : table.sectExpected = sect.lastSectionNumber + 1) :
    Agrees (Function.update tids sect.etid table) (announced.announce sect) := by
  intro etid
  unfold Announcements.announce
  by_cases hsame : etid = sect.etid
  · subst hsame
    right
    rw [Function.update_self, Function.update_self, hversion]
    exact ⟨_, rfl, hcount⟩
  · rw [Function.update_of_ne hsame, Function.update_of_ne hsame]
    exact hagrees etid

/-- Only the PID and the tables announced change. -/
structure Analyzes (demux next : SectionDemux State) (pid : ℕ) (announced : Announcements) :
    Prop where
  pidFilter : next.pidFilter = demux.pidFilter
  getCurrent : next.getCurrent = demux.getCurrent
  others : ∀ other, other ≠ pid → next.pids other = demux.pids other
  sync : (next.pids pid).sync = (demux.pids pid).sync
  continuity : (next.pids pid).continuity = (demux.pids pid).continuity
  agrees : Agrees (next.pids pid).tids announced

/-- The application of a section handler only, which resets nothing. -/
structure HandlesSections (handlers : DemuxHandlers State) : Prop where
  resets : handlers.NeverResets
  sect : handlers.handleSection.isSome = true
  table : handlers.handleTable = none

theorem compareHeader_of_expects {context : ETIDContext} {isLong : Bool} {version : UInt8}
    {last : ℕ} (hexpects : isLong = true → context.Restarts version ∨
      last + 1 = context.sectExpected) :
    (context.compareHeader isLong version last).version = version ∧
      (context.compareHeader isLong version last).sectExpected = last + 1 := by
  unfold ETIDContext.compareHeader
  split_ifs with hopens
  · exact ⟨rfl, rfl⟩
  · obtain ⟨hlong, hsame⟩ := not_or.mp hopens
    rw [Bool.not_eq_false] at hlong
    refine ⟨not_not.mp (not_or.mp hsame).2, ?_⟩
    exact ((hexpects hlong).resolve_left hsame).symm

/-- A section which agrees is given to the handler. -/
theorem Analyzed.handled {demux : SectionDemux State} {pid : ℕ} {sect : Section}
    (hsect : sect.Transportable) (happlication : HandlesSections handlers)
    (hcurrent : demux.getCurrent = true)
    (hexpects : sect.isLongSection = true →
      ((demux.pids pid).tids sect.etid).Restarts sect.version ∨
        sect.lastSectionNumber + 1 = ((demux.pids pid).tids sect.etid).sectExpected)
    {rest : ByteBlock} {firstPkt : ℕ} {table : ETIDContext} {events : List DemuxEvent}
    (hanalyzed : demux.Analyzed handlers pid ⟨sect.content ++ rest, sect.size, true, firstPkt⟩ table
      events) :
    handledContents events = [sect.content] ∧ table.version = sect.version ∧
      table.sectExpected = sect.lastSectionNumber + 1 := by
  obtain ⟨hlong, hetid, hversion, hlast, heligible⟩ :=
    found_append hsect rest firstPkt demux hcurrent
  have hbuilt := toSection_append hsect rest firstPkt pid demux.packetCount
  generalize Found.mk (sect.content ++ rest) sect.size true firstPkt = found at *
  have hcompared : (demux.compared pid found).version = sect.version ∧
      (demux.compared pid found).sectExpected = sect.lastSectionNumber + 1 := by
    unfold compared
    rw [hlong, hetid, hversion, hlast]
    exact compareHeader_of_expects hexpects
  have hevents : ∀ other : Section,
      handledContents (seenEvents pid found ++ sectEvents handlers other) = [other.content] := by
    intro other
    have hseen : handledContents (seenEvents pid found) = [] := by
      unfold seenEvents
      split_ifs <;> rfl
    rw [handledContents_append, hseen, sectEvents, if_pos happlication.sect]
    rfl
  cases hanalyzed with
  | skipped hskip => exact absurd heligible hskip
  | ignored _ hignored =>
    rcases hignored with hindex | hinvalid | ⟨hnone, -⟩
    · rw [hlast, hcompared.2] at hindex
      exact absurd rfl hindex
    · rw [hbuilt] at hinvalid
      cases hinvalid
    · have hsome := happlication.sect
      rw [hnone] at hsome
      cases hsome
  | known _ _ other hother _ =>
    rw [hbuilt] at hother
    obtain rfl := Option.some.inj hother
    exact ⟨hevents _, hcompared⟩
  | saved _ _ other hother _ =>
    rw [hbuilt] at hother
    obtain rfl := Option.some.inj hother
    have hnoTable : ∀ complete, tableEvents handlers pid found.etid complete = [] := by
      intro complete
      unfold tableEvents
      rw [happlication.table]
      rfl
    refine ⟨?_, ?_⟩
    · rw [hnoTable, List.append_nil]
      exact hevents _
    · unfold savedTable
      rcases ETIDContext.notify_cases ((demux.compared pid found).save found.sectionNumber
        { sect with sourcePid := pid, firstPkt, lastPkt := demux.packetCount })
        handlers.handleTable.isSome with hnothing | ⟨-, -, -, hnotify⟩
      · rw [hnothing]
        exact hcompared
      · rw [hnotify]
        exact hcompared

theorem head_content {sect : Section} (hsect : sect.Transportable) :
    ∃ first others, sect.content = first :: others ∧ first ≠ 0xFF := by
  have hsize := three_le_size sect
  have hid := hsect.tableId_ne
  unfold Section.tableId at hid
  cases hcontent : sect.content with
  | nil =>
    rw [hcontent] at hsize
    exact absurd hsize (by decide)
  | cons first others =>
    rw [hcontent] at hid
    exact ⟨first, others, rfl, hid⟩

theorem skipStuffing_append {sect : Section} (hsect : sect.Transportable) (rest : ByteBlock) :
    skipStuffing (sect.content ++ rest) = sect.content ++ rest := by
  obtain ⟨first, others, hcontent, hfirst⟩ := head_content hsect
  rw [hcontent]
  exact if_neg fun hhead ↦ hfirst (Option.some.inj hhead)

theorem skipStuffing_take {sect : Section} (hsect : sect.Transportable) (size : ℕ) :
    skipStuffing (sect.content.take size) = sect.content.take size := by
  obtain ⟨first, others, hcontent, hfirst⟩ := head_content hsect
  rw [hcontent]
  cases size with
  | zero => rfl
  | succ size => exact if_neg fun hhead ↦ hfirst (Option.some.inj hhead)

/-- A block is the start of a section, not all of it. -/
def StartsSection (data : ByteBlock) : Prop :=
  ∃ (sect : Section) (rest : ByteBlock), sect.content = data ++ rest ∧ rest ≠ []

theorem StartsSection.header {data : ByteBlock} (hstarts : StartsSection data)
    (hheader : 3 ≤ data.length) : ¬ InvalidLength data ∧ data.length < announcedSize data := by
  obtain ⟨sect, rest, hcontent, hrest⟩ := hstarts
  obtain ⟨hannounced, hvalid⟩ := header_of_prefix hcontent hheader []
  rw [List.append_nil] at hannounced hvalid
  have hsize := congrArg List.length hcontent
  have hpositive := List.length_pos_of_ne_nil hrest
  rw [List.length_append] at hsize
  rw [hannounced, Section.size]
  exact ⟨hvalid, by omega⟩

/-- Some sections were given, the others remain. -/
structure Collecting (demux : SectionDemux State) (pid : ℕ) (announced : Announcements)
    (sections : List Section) (tail : ByteBlock) (current : SectionDemux State) (data : ByteBlock)
    (toPusi : ℕ) (done remaining : List Section) (reported : List DemuxEvent) : Prop where
  sections_eq : sections = done ++ remaining
  handled : handledContents reported = done.map Section.content
  data_eq : data = skipStuffing (remaining.flatMap Section.content ++ tail)
  toPusi_eq : ∀ first ∈ remaining.head?, toPusi = 0 ∨ toPusi = first.size
  analyzes : demux.Analyzes current pid (done.foldl Announcements.announce announced)
  consistent : Consistent (done.foldl Announcements.announce announced) remaining

section Buffer

variable {announced : Announcements} {sections : List Section} {tail : ByteBlock}
  {demux current : SectionDemux State} {pid toPusi : ℕ} {data : ByteBlock}
  {done remaining : List Section} {reported : List DemuxEvent}
  (htransportable : ∀ sect ∈ sections, sect.Transportable)
  (hcollecting : demux.Collecting pid announced sections tail current data toPusi done remaining
    reported)

include htransportable hcollecting

theorem Collecting.data_cases :
    remaining = [] ∧ data = skipStuffing tail ∨
      ∃ sect others, remaining = sect :: others ∧ sect.Transportable ∧
        data = sect.content ++ (others.flatMap Section.content ++ tail) := by
  have hdata := hcollecting.data_eq
  cases remaining with
  | nil => exact Or.inl ⟨rfl, hdata⟩
  | cons sect others =>
    have hsect : sect.Transportable := by
      apply htransportable
      rw [hcollecting.sections_eq]
      exact List.mem_append_right _ List.mem_cons_self
    refine Or.inr ⟨sect, others, rfl, hsect, ?_⟩
    rw [hdata, List.flatMap_cons, List.append_assoc]
    exact skipStuffing_append hsect _

theorem Collecting.ended
    (hincomplete : data.length < 3 ∨ InvalidLength data ∨ data.length < announcedSize data) :
    done = sections ∧ data = skipStuffing tail := by
  rcases hcollecting.data_cases htransportable with
    ⟨rfl, hdata⟩ | ⟨sect, others, -, -, rfl⟩
  · have hsections := hcollecting.sections_eq
    rw [List.append_nil] at hsections
    exact ⟨hsections.symm, hdata⟩
  · exfalso
    obtain ⟨hannounced, hvalid⟩ := header_of_prefix (List.append_nil sect.content).symm
      (three_le_size sect) (others.flatMap Section.content ++ tail)
    have hthree := three_le_size sect
    rw [hannounced, List.length_append, Section.size] at hincomplete
    rcases hincomplete with hshort | hinvalid | hshort
    · omega
    · exact hvalid hinvalid
    · omega

/-- One more section is given to the handler. -/
theorem Collecting.analyze (happlication : HandlesSections handlers)
    (htail : StartsSection (skipStuffing tail)) (hcurrent : demux.getCurrent = true)
    {firstPkt : ℕ} (hheader : 3 ≤ data.length) (hcomplete : announcedSize data ≤ data.length)
    {next : SectionDemux State} {events : List DemuxEvent} {table : ETIDContext}
    (hsame : current.SameExcept next pid (findSection data toPusi firstPkt).etid table)
    (hanalyzed : current.Analyzed handlers pid (findSection data toPusi firstPkt) table events) :
    ∃ done remaining, demux.Collecting pid announced sections tail next
      (skipStuffing (data.drop (findSection data toPusi firstPkt).length))
      (toPusi - (findSection data toPusi firstPkt).length) done remaining (reported ++ events) := by
  obtain ⟨hfilter, hsetting, hothers, hsync, hcontinuity, hagrees⟩ := hcollecting.analyzes
  rcases hcollecting.data_cases htransportable with
    ⟨rfl, rfl⟩ | ⟨sect, others, rfl, hsect, rfl⟩
  · exact absurd hcomplete (Nat.not_le_of_lt (htail.header hheader).2)
  · have hfirst := hcollecting.toPusi_eq sect rfl
    obtain ⟨hannounces, hrest⟩ := hcollecting.consistent
    rw [findSection_append sect _ hfirst] at hsame hanalyzed ⊢
    have hnow : current.getCurrent = true := hsetting.trans hcurrent
    obtain ⟨-, hetid, -, -, -⟩ :=
      found_append hsect (others.flatMap Section.content ++ tail) firstPkt current hnow
    rw [hetid] at hsame
    obtain ⟨hhandled, hversion, hcount⟩ := hanalyzed.handled hsect happlication hnow
      fun hlong ↦ hagrees.expects (hannounces hlong)
    have hpid : next.pids pid = (current.pids pid).setTable sect.etid table := by
      rw [hsame.pids, Function.update_self]
    have hannounced : (done ++ [sect]).foldl Announcements.announce announced =
        (done.foldl Announcements.announce announced).announce sect := by
      rw [List.foldl_append]
      rfl
    refine ⟨done ++ [sect], others, ?_, ?_, ?_, ?_, ⟨?_, ?_, fun other hother ↦ ?_, ?_, ?_, ?_⟩, ?_⟩
    · rw [hcollecting.sections_eq, List.append_assoc]
      rfl
    · rw [handledContents_append, hcollecting.handled, hhandled, List.map_append]
      rfl
    · exact congrArg skipStuffing List.drop_left
    · refine fun _ _ ↦ Or.inl ?_
      show toPusi - sect.size = 0
      omega
    · exact hsame.pidFilter.trans hfilter
    · exact hsame.getCurrent.trans hsetting
    · rw [hsame.pids, Function.update_of_ne hother]
      exact hothers other hother
    · rw [hpid]
      exact hsync
    · rw [hpid]
      exact hcontinuity
    · rw [hpid, hannounced]
      exact hagrees.announce hversion hcount
    · rw [hannounced]
      exact hrest

end Buffer

/-- The sections are given in order, and a start is kept. -/
theorem collect_sections (happlication : HandlesSections handlers) {announced : Announcements}
    {sections : List Section} (htransportable : ∀ sect ∈ sections, sect.Transportable)
    (hconsistent : Consistent announced sections) {tail : ByteBlock}
    (htail : StartsSection (skipStuffing tail))
    (hstart : sections = [] → skipStuffing tail = tail) {demux : SectionDemux State} {pid : ℕ}
    (hcurrent : demux.getCurrent = true) (hagrees : Agrees (demux.pids pid).tids announced)
    {toPusi : ℕ} (htoPusi : ∀ first ∈ sections.head?, toPusi = 0 ∨ toPusi = first.size)
    {turns : ℕ} (hturns : (sections.flatMap Section.content ++ tail).length ≤ turns)
    (firstPkt : ℕ) :
    let collected := collect handlers pid turns demux (sections.flatMap Section.content ++ tail)
      toPusi firstPkt
    handledContents collected.2 = sections.map Section.content ∧
      demux.Analyzes collected.1 pid (sections.foldl Announcements.announce announced) ∧
        (collected.1.pids pid).ts = skipStuffing tail := by
  intro collected
  have hbuffer : sections.flatMap Section.content ++ tail =
      skipStuffing (sections.flatMap Section.content ++ tail) := by
    cases sections with
    | nil => exact (hstart rfl).symm
    | cons first others =>
      rw [List.flatMap_cons, List.append_assoc]
      exact (skipStuffing_append (htransportable first List.mem_cons_self) _).symm
  have hgoing : demux.Collecting pid announced sections tail demux
      (sections.flatMap Section.content ++ tail) toPusi [] sections [] :=
    ⟨rfl, rfl, hbuffer, htoPusi, ⟨rfl, rfl, fun _ _ ↦ rfl, rfl, rfl, hagrees⟩, hconsistent⟩
  have hended : handledContents ([] ++ collected.2) = sections.map Section.content ∧
      demux.Analyzes collected.1 pid (sections.foldl Announcements.announce announced) ∧
        (collected.1.pids pid).ts = skipStuffing tail := by
    apply collect_rule happlication.resets
      (fun current data toPusi _ reported ↦ ∃ done remaining,
        demux.Collecting pid announced sections tail current data toPusi done remaining reported)
      (fun last reported ↦ handledContents reported = sections.map Section.content ∧
        demux.Analyzes last pid (sections.foldl Announcements.announce announced) ∧
          (last.pids pid).ts = skipStuffing tail)
    · rintro current data toPusi firstPkt reported next events table ⟨done, remaining, hcollecting⟩
        hheader - hcomplete hsame hanalyzed
      exact hcollecting.analyze htransportable happlication htail hcurrent hheader hcomplete hsame
        hanalyzed
    · rintro current data toPusi firstPkt reported ⟨done, remaining, hcollecting⟩ hincomplete
      obtain ⟨rfl, rfl⟩ := hcollecting.ended htransportable
        (hincomplete.imp_right fun h ↦ Or.inr h.2)
      obtain ⟨hfilter, hsetting, hothers, hsync, hcontinuity, hagrees⟩ := hcollecting.analyzes
      have hpid : (current.keep pid (skipStuffing tail)).pids pid =
          { current.pids pid with ts := skipStuffing tail } := Function.update_self _ _ _
      refine ⟨hcollecting.handled, ⟨hfilter, hsetting, fun other hother ↦ ?_, ?_, ?_, ?_⟩, ?_⟩
      · exact (Function.update_of_ne hother _ _).trans (hothers other hother)
      · rw [hpid]
        exact hsync
      · rw [hpid]
        exact hcontinuity
      · rw [hpid]
        exact hagrees
      · rw [hpid]
    · rintro current data toPusi firstPkt reported ⟨done, remaining, hcollecting⟩ hheader hinvalid
      obtain ⟨-, rfl⟩ := hcollecting.ended htransportable (Or.inr (Or.inl hinvalid))
      exact absurd hinvalid (htail.header hheader).1
    · exact hturns
    · exact ⟨[], sections, hgoing⟩
  exact hended

/-! ### The application -/

def handledSections (log : List DemuxEvent) : List Section :=
  log.filterMap fun
    | .sect sect => some sect
    | _ => none

theorem handledSections_append (first second : List DemuxEvent) :
    handledSections (first ++ second) = handledSections first ++ handledSections second :=
  List.filterMap_append

theorem handledContents_eq (log : List DemuxEvent) :
    handledContents log = (handledSections log).map Section.content := by
  unfold handledContents handledSections
  rw [List.map_filterMap]
  congr 1
  funext event
  cases event <;> rfl

def applied (handle : State → Section → State × List DemuxRequest) (application : State)
    (sections : List Section) : State :=
  sections.foldl (fun current sect ↦ (handle current sect).1) application

theorem applied_append (handle : State → Section → State × List DemuxRequest) (application : State)
    (first second : List Section) :
    applied handle application (first ++ second) =
      applied handle (applied handle application first) second :=
  List.foldl_append

section Application

variable {handle : State → Section → State × List DemuxRequest}
  (hhandle : handlers.handleSection = some handle) (happlication : HandlesSections handlers)

include hhandle happlication

theorem application_deliver (demux : SectionDemux State) (pid : ℕ) (etid : ETID) (number : ℕ)
    (sect : Section) :
    (demux.deliver handlers pid etid number sect).1.application =
        (handle demux.application sect).1 ∧
      handledSections (demux.deliver handlers pid etid number sect).2.1 = [sect] := by
  have hrequests : (handle demux.application sect).2 = [] :=
    happlication.resets.sect handle hhandle demux.application sect
  have hcall : demux.callSection handlers sect =
      ({ demux with application := (handle demux.application sect).1 }, [.sect sect], []) := by
    unfold callSection
    rw [hhandle, ← hrequests]
  obtain ⟨pids, hsave⟩ : ∃ pids,
      ({ demux with application := (handle demux.application sect).1 } : SectionDemux State).saveSection
          handlers pid etid number sect =
        ({ demux with pids, application := (handle demux.application sect).1 }, [], []) := by
    unfold saveSection
    dsimp only
    split_ifs
    · unfold callTable
      rw [happlication.table]
      generalize ETIDContext.notify _ _ _ = notified
      obtain ⟨saved, complete⟩ := notified
      cases complete <;> exact ⟨_, rfl⟩
    · exact ⟨demux.pids, rfl⟩
  unfold deliver
  simp only [hcall, hsave, List.append_nil, serve_nil]
  exact ⟨trivial, rfl⟩

theorem application_analyze (demux : SectionDemux State) (pid : ℕ) (found : Found) :
    (demux.analyze handlers pid found).1.application = applied handle demux.application
      (handledSections (demux.analyze handlers pid found).2.1) := by
  have hcontent : ∀ opened : SectionDemux State,
      (opened.analyzeContent handlers pid found).1.application = applied handle opened.application
          (handledSections (opened.analyzeContent handlers pid found).2.1) := by
    intro opened
    unfold analyzeContent
    dsimp only
    split_ifs
    · rfl
    · cases found.toSection pid opened.packetCount with
      | none => rfl
      | some sect =>
        obtain ⟨happlied, hsections⟩ := application_deliver hhandle happlication opened pid
          found.etid found.sectionNumber sect
        dsimp only
        rw [happlied, hsections]
        rfl
    · rfl
  have hseen : ∀ events, handledSections
      ((if found.isLong then [.seen pid found.etid found.version] else []) ++ events) =
        handledSections events := by
    intro events
    rw [handledSections_append]
    split_ifs <;> rfl
  unfold analyze
  by_cases heligible : demux.IsEligible found
  · rw [if_pos heligible]
    show (analyzeContent handlers _ pid found).1.application =
      applied handle demux.application (handledSections (_ ++ _))
    rw [hseen, hcontent]
    rfl
  · rw [if_neg heligible]
    rfl

theorem application_collect (pid : ℕ) {turns : ℕ} (demux : SectionDemux State) (data : ByteBlock)
    (toPusi firstPkt : ℕ) :
    (collect handlers pid turns demux data toPusi firstPkt).1.application =
      applied handle demux.application
        (handledSections (collect handlers pid turns demux data toPusi firstPkt).2) := by
  induction turns generalizing demux data toPusi firstPkt with
  | zero => rfl
  | succ turns ih =>
    have hanalyzed := application_analyze hhandle happlication demux pid
      (findSection data toPusi firstPkt)
    unfold collect
    dsimp only
    split_ifs
    · rfl
    · rfl
    · rfl
    · exact hanalyzed
    · rw [ih, handledSections_append, applied_append, hanalyzed]

theorem application_feedPacket (demux : SectionDemux State) (pkt : TSPacket) :
    (demux.feedPacket handlers pkt).1.application = applied handle demux.application
      (handledSections (demux.feedPacket handlers pkt).2) := by
  have hfollowed : (demux.follow pkt).application = demux.application := by
    unfold follow
    dsimp only
    split_ifs <;> rfl
  have hpayload : ∀ current : SectionDemux State,
      (current.acceptPayload pkt).demux.application = current.application := by
    intro current
    unfold acceptPayload
    dsimp only
    split_ifs <;> rfl
  have haccepted : (demux.accept pkt).demux.application = demux.application := by
    unfold accept
    dsimp only
    split_ifs
    · rfl
    · rfl
    · rfl
    · exact hfollowed
    · exact (hpayload _).trans hfollowed
  have hprocessed : (demux.processPacket handlers pkt).1.application =
      applied handle demux.application
        (handledSections (demux.processPacket handlers pkt).2) := by
    unfold processPacket
    dsimp only
    cases (demux.accept pkt).data with
    | none => exact haccepted
    | some data =>
      dsimp only
      rw [application_collect hhandle happlication, haccepted]
  unfold feedPacket
  by_cases hfilter : demux.pidFilter pkt.getPID = true
  · rw [if_pos hfilter]
    exact hprocessed
  · rw [if_neg hfilter]
    rfl

end Application

end SectionDemux

end TSDuck
