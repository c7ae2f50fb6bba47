import TSDuck.Psi.SectionDemuxTables
import Mathlib.Data.List.Induction

/-!
# Packets with corrupted sections

The demux compares the header of a section with the table in progress before it checks the CRC32 of
the section. A corrupted section is not saved and not given to the handlers, but when its header has
another version than the table in progress, the sections which had been collected for the table are
lost.

`ignoresPacket_iff` states when the packet changes no context and calls no handler: when the
contexts are left by the headers (`LeavesContext`), which are for the version in progress.
-/

namespace TSDuck

/-- The event is a call of a handler. -/
def DemuxEvent.IsCall : DemuxEvent → Prop
  | .seen _ _ _ => False
  | .sect _ => True
  | .table _ _ _ => True

namespace SectionDemux

variable {State : Type}

/-! ### What a packet contains -/

def foundSections (packetCount : ℕ) : ℕ → ByteBlock → ℕ → ℕ → List Found
  | 0, _, _, _ => []
  | turns + 1, data, toPusi, firstPkt =>
    if data.length < 3 ∨ InvalidLength data ∨ data.length < announcedSize data then []
    else
      findSection data toPusi firstPkt ::
        foundSections packetCount turns
          (skipStuffing (data.drop (findSection data toPusi firstPkt).length))
          (toPusi - (findSection data toPusi firstPkt).length) packetCount

def sectionsOf (demux : SectionDemux State) (pkt : TSPacket) : List Found :=
  let accepted := demux.accept pkt
  match accepted.data with
  | none => []
  | some data =>
    let ts := (accepted.demux.pids pkt.getPID).ts ++ data
    let toPusi := if pkt.getPUSI then ts.length - data.length + accepted.pointer else 0
    foundSections accepted.demux.packetCount ts.length ts toPusi accepted.firstPkt

/-- The CRC32 of the section is not the one of its bytes. -/
def Found.IsCorrupted (found : Found) : Prop :=
  crcMatches (found.data.take found.length) = false

instance (found : Found) : Decidable found.IsCorrupted :=
  inferInstanceAs (Decidable (_ = _))

def ofTable (demux : SectionDemux State) (etid : ETID) (sections : List Found) : List Found :=
  sections.filter fun found ↦ decide (demux.IsEligible found ∧ found.etid = etid)

/-- The demux has at least one handler. -/
def HasHandler (handlers : DemuxHandlers State) : Prop :=
  handlers.handleSection.isSome = true ∨ handlers.handleTable.isSome = true

/-- No context of the PID changes and no handler is called. -/
def IgnoresPacket (handlers : DemuxHandlers State) (demux : SectionDemux State) (pkt : TSPacket) :
    Prop :=
  (∀ etid, ((demux.processPacket handlers pkt).1.pids pkt.getPID).tids etid =
      (demux.pids pkt.getPID).tids etid) ∧
    ∀ event ∈ (demux.processPacket handlers pkt).2, ¬ event.IsCall

/-- The sections leave the context as it is. -/
def LeavesContext (context : ETIDContext) (headers : List Found) : Prop :=
  (headers = [] ∨ context.sectExpected ≠ 0 ∧ ∀ found ∈ headers, found.version = context.version) ∨
    ∃ before other found run, headers = before ++ other :: found :: run ∧
      other.version ≠ found.version ∧ (∀ next ∈ run, next.version = found.version) ∧
        context = .init found.version found.lastSectionNumber

/-- The context of a short table is the one of a short section. -/
def HoldsShort (context : ETIDContext) (pid packetCount : ℕ) (found : Found) : Prop :=
  ∃ sect, found.toSection pid packetCount = some sect ∧ context = (ETIDContext.init 0 0).save 0 sect

/-! ### The analysis of one section -/

/-- The context after a corrupted or a short section. -/
def analyzedContext (pid packetCount : ℕ) (context : ETIDContext) (found : Found) : ETIDContext :=
  let opened := context.compareHeader found.isLong found.version found.lastSectionNumber
  if found.isLong then opened
  else
    match found.toSection pid packetCount with
    | some sect => opened.save 0 sect
    | none => opened

section OneSection

variable {handlers : DemuxHandlers State} {found : Found}

theorem toSection_of_isCorrupted (hcorrupted : found.IsCorrupted) (hlong : found.isLong = true)
    (hformed : found.IsWellFormed) (pid packetCount : ℕ) :
    found.toSection pid packetCount = none := by
  cases hsect : found.toSection pid packetCount with
  | none => rfl
  | some sect =>
    have hcomplete : found.isComplete = true := (Bool.and_eq_true_iff.mp hlong).1
    obtain ⟨hcontent, -, -, -, -, -, -, hcrc⟩ := Found.toSection_spec hcomplete hformed hsect
    have hmatches := hcrc hlong
    rw [hcontent, hcorrupted] at hmatches
    cases hmatches

theorem exists_toSection_of_short (hshort : found.isLong = false) (hcomplete : found.isComplete = true)
    (hformed : found.IsWellFormed) (pid packetCount : ℕ) :
    ∃ sect, found.toSection pid packetCount = some sect := by
  obtain ⟨hvalid, hlength, hle⟩ := hformed hcomplete
  have hheader : hasLongHeader found.data = false := by
    rw [Found.isLong, hcomplete, Bool.true_and] at hshort
    exact hshort
  obtain ⟨hmax, hmin⟩ : announcedSize found.data ≤ maxPrivateSectionSize ∧
      minShortSectionSize ≤ announcedSize found.data := by
    unfold InvalidLength at hvalid
    omega
  have hthree : 3 ≤ found.length := by
    rw [hlength, announcedSize, shortSectionHeaderSize]
    omega
  have hbyte : ∀ offset, offset < 3 →
      byteAt (found.data.take found.length) offset = byteAt found.data offset :=
    fun offset hoffset ↦ byteAt_take _ (by omega)
  have hannounced : announcedSize (found.data.take found.length) = announcedSize found.data := by
    unfold announcedSize
    rw [getUInt16_congr (hbyte 1 (by omega)) (hbyte 2 (by omega))]
  have htaken : (found.data.take found.length).length = announcedSize found.data := by
    rw [List.length_take, hlength] at *
    omega
  have hsize : Section.sectionSize (found.data.take found.length) = announcedSize found.data := by
    unfold Section.sectionSize
    rw [htaken, hannounced, if_neg (by omega), if_neg (lt_irrefl _)]
  have hstill : ¬ hasLongHeader (found.data.take found.length) = true := by
    rw [hasLongHeader, hbyte 1 (by omega), ← hasLongHeader, hheader]
    decide
  unfold Found.toSection Section.ofContent
  rw [dif_pos (by rw [hsize, htaken, ← hlength]; exact ⟨by omega, rfl⟩), dif_neg hstill]
  exact ⟨_, rfl⟩

variable {demux : SectionDemux State} {pid : ℕ}

theorem header_of_short (hshort : found.isLong = false) :
    found.version = 0 ∧ found.sectionNumber = 0 ∧ found.lastSectionNumber = 0 := by
  unfold Found.version Found.sectionNumber Found.lastSectionNumber
  rw [hshort]
  exact ⟨rfl, rfl, rfl⟩

theorem compareHeader_of_short (hshort : found.isLong = false) (context : ETIDContext) :
    context.compareHeader found.isLong found.version found.lastSectionNumber = .init 0 0 := by
  obtain ⟨hversion, -, hlast⟩ := header_of_short hshort
  unfold ETIDContext.compareHeader
  rw [if_pos (Or.inl hshort), hversion, hlast]

theorem analyze_of_isCorrupted (handlers : DemuxHandlers State) (heligible : demux.IsEligible found)
    (hnone : ∀ packetCount, found.toSection pid packetCount = none) :
    ∃ next, demux.analyze handlers pid found = (next, seenEvents pid found, false) ∧
      demux.SameExcept next pid found.etid (demux.compared pid found) := by
  obtain ⟨opened, hopened⟩ : ∃ opened, opened = (demux.countHeader found).openTable pid found :=
    ⟨_, rfl⟩
  have hopen : demux.SameExcept opened pid found.etid (demux.compared pid found) := by
    rw [hopened]
    exact ⟨rfl, rfl, rfl, rfl, rfl⟩
  have hcontent : ∃ next, opened.analyzeContent handlers pid found = (next, [], false) ∧
      demux.SameExcept next pid found.etid (demux.compared pid found) := by
    unfold analyzeContent
    dsimp only
    rw [hnone]
    split_ifs
    · exact ⟨_, rfl, hopen.pids, hopen.pidFilter, hopen.getCurrent, hopen.getNext,
        hopen.packetCount⟩
    · exact ⟨_, rfl, hopen.pids, hopen.pidFilter, hopen.getCurrent, hopen.getNext,
        hopen.packetCount⟩
    · exact ⟨_, rfl, hopen⟩
  obtain ⟨next, hanalyzed, hsame⟩ := hcontent
  refine ⟨next, ?_, hsame⟩
  unfold analyze
  rw [if_pos heligible, ← hopened]
  simp only [hanalyzed, List.append_nil]
  rfl

theorem analyze_of_short (hhandlers : ¬ HasHandler handlers) (heligible : demux.IsEligible found)
    (hshort : found.isLong = false) (hformed : found.IsWellFormed) :
    ∃ next, demux.analyze handlers pid found = (next, [], false) ∧
      demux.SameExcept next pid found.etid
        (analyzedContext pid demux.packetCount ((demux.pids pid).tids found.etid) found) := by
  obtain ⟨hsection, htable⟩ := not_or.mp hhandlers
  rw [Bool.not_eq_true, Option.isSome_eq_false_iff, Option.isNone_iff_eq_none] at hsection htable
  have hresets : handlers.NeverResets := by
    constructor
    · intro handle hhandle
      rw [htable] at hhandle
      cases hhandle
    · intro handle hhandle
      rw [hsection] at hhandle
      cases hhandle
  obtain ⟨sect, hsect⟩ :=
    exists_toSection_of_short hshort heligible.1 hformed pid demux.packetCount
  have hcompared : demux.compared pid found = .init 0 0 := compareHeader_of_short hshort _
  obtain ⟨-, hnumber, hlast⟩ := header_of_short hshort
  have hslot : ¬ (demux.compared pid found).sects.getD found.sectionNumber none ≠ none := by
    rw [hcompared, hnumber]
    decide
  have hcontext : analyzedContext pid demux.packetCount ((demux.pids pid).tids found.etid) found =
      (ETIDContext.init 0 0).save 0 sect := by
    unfold analyzedContext
    rw [hsect, if_neg (by rw [hshort]; decide)]
    dsimp only
    rw [compareHeader_of_short hshort]
  obtain ⟨next, events, table, hanalyze, hsame, hanalyzed⟩ := analyze_spec hresets demux pid found
  rw [hcontext]
  cases hanalyzed with
  | skipped hskip => exact absurd heligible hskip
  | ignored _ hignored =>
    rcases hignored with hindex | hnone | ⟨-, hknown⟩
    · rw [hcompared, hlast] at hindex
      exact absurd rfl hindex
    · rw [hsect] at hnone
      cases hnone
    · exact absurd hknown hslot
  | known _ _ _ _ hknown => exact absurd hknown hslot
  | saved _ _ built hbuilt _ =>
    rw [hsect] at hbuilt
    obtain rfl := Option.some.inj hbuilt
    have hsaved : demux.savedTable handlers pid found sect =
        ((ETIDContext.init 0 0).save 0 sect, none) := by
      unfold savedTable
      rw [hcompared, hnumber, htable]
      rfl
    have hevents : seenEvents pid found ++ sectEvents handlers sect ++
        tableEvents handlers pid found.etid (demux.savedTable handlers pid found sect).2 = [] := by
      unfold seenEvents sectEvents tableEvents
      rw [hshort, hsection, htable]
      rfl
    rw [hevents] at hanalyze
    rw [hsaved] at hsame
    exact ⟨next, hanalyze, hsame⟩

/-- A corrupted section calls no handler. -/
theorem analyze_quiet (hlong : found.isLong = true → found.IsCorrupted)
    (hshort : found.isLong = false → ¬ HasHandler handlers) (heligible : demux.IsEligible found)
    (hformed : found.IsWellFormed) :
    ∃ next events, demux.analyze handlers pid found = (next, events, false) ∧
      demux.SameExcept next pid found.etid
        (analyzedContext pid demux.packetCount ((demux.pids pid).tids found.etid) found) ∧
          ∀ event ∈ events, ¬ event.IsCall := by
  by_cases his : found.isLong = true
  · obtain ⟨next, hanalyze, hsame⟩ := analyze_of_isCorrupted handlers heligible
      fun packetCount ↦ toSection_of_isCorrupted (hlong his) his hformed pid packetCount
    have hcontext : analyzedContext pid demux.packetCount ((demux.pids pid).tids found.etid)
        found = demux.compared pid found := by
      unfold analyzedContext
      rw [if_pos his]
      rfl
    rw [hcontext]
    refine ⟨next, _, hanalyze, hsame, fun event hevent ↦ ?_⟩
    unfold seenEvents at hevent
    rw [if_pos his, List.mem_singleton] at hevent
    rw [hevent]
    exact not_false
  · rw [Bool.not_eq_true] at his
    obtain ⟨next, hanalyze, hsame⟩ := analyze_of_short (hshort his) heligible his hformed
    exact ⟨next, [], hanalyze, hsame, by simp⟩

theorem notify_save_short {sect : Section} (hnumber : sect.sectionNumber = 0)
    (hlast : sect.lastSectionNumber = 0) :
    ∃ context table, ((ETIDContext.init 0 0).save 0 sect).notify true false =
      (context, some table) := by
  have hbuild : ((ETIDContext.init 0 0).save 0 sect).build =
      BinaryTable.filledWith sect 1 [sect] := by
    have horder : BinaryTable.InOrder sect 1 [sect] := by
      intro index other hother
      have hindex : index = 0 := by
        have hlt := (List.getElem?_eq_some_iff.mp hother).1
        rw [List.length_singleton] at hlt
        omega
      rw [hindex] at hother ⊢
      obtain rfl := Option.some.inj hother
      exact ⟨rfl, rfl, rfl, hnumber, by rw [hlast]⟩
    show (BinaryTable.empty.addSection (some sect) true true).2 = _
    rw [BinaryTable.addSection_empty_inOrder horder]
  unfold ETIDContext.notify
  rw [if_pos ⟨rfl, Or.inl rfl, rfl⟩]
  simp only [Bool.false_eq_true, if_false]
  have hvalid : (BinaryTable.filledWith sect 1 [sect]).isValid = true := rfl
  rw [hbuild, if_pos hvalid]
  exact ⟨_, _, rfl⟩

theorem analyze_calls (pid : ℕ) (hhandlers : HasHandler handlers) (heligible : demux.IsEligible found)
    (hshort : found.isLong = false) (hformed : found.IsWellFormed) :
    ∃ event ∈ (demux.analyze handlers pid found).2.1, event.IsCall := by
  obtain ⟨sect, hsect⟩ :=
    exists_toSection_of_short hshort heligible.1 hformed pid demux.packetCount
  obtain ⟨-, -, -, -, -, hnumber, hlast, -⟩ :=
    Found.toSection_spec heligible.1 hformed hsect
  obtain ⟨-, hfoundNumber, hfoundLast⟩ := header_of_short hshort
  rw [hfoundNumber] at hnumber
  rw [hfoundLast] at hlast
  obtain ⟨opened, hopened⟩ : ∃ opened, opened = (demux.countHeader found).openTable pid found :=
    ⟨_, rfl⟩
  have hcount : opened.packetCount = demux.packetCount := by
    rw [hopened]
    rfl
  have htable : (opened.pids pid).tids found.etid = .init 0 0 := by
    rw [hopened]
    unfold openTable setTable setPID PIDContext.setTable
    dsimp only
    rw [Function.update_self]
    dsimp only
    rw [Function.update_self]
    exact compareHeader_of_short hshort _
  have hanalyze : (demux.analyze handlers pid found).2.1 =
      (opened.deliver handlers pid found.etid 0 sect).2.1 := by
    unfold analyze
    rw [if_pos heligible, ← hopened, hshort]
    show [] ++ (opened.analyzeContent handlers pid found).2.1 = _
    rw [List.nil_append]
    unfold analyzeContent
    dsimp only
    rw [htable, hfoundLast, hfoundNumber, hcount, hsect, if_neg (by decide), if_pos
      (show _ ∨ (ETIDContext.init 0 0).sects.getD 0 none = none from Or.inr rfl)]
  rw [hanalyze]
  unfold deliver callSection
  cases hsection : handlers.handleSection with
  | some handle => exact ⟨.sect sect, by simp, trivial⟩
  | none =>
    have htableHandler : handlers.handleTable.isSome = true := by
      rcases hhandlers with hsome | hsome
      · rw [hsection] at hsome
        cases hsome
      · exact hsome
    obtain ⟨handle, hhandle⟩ := Option.isSome_iff_exists.mp htableHandler
    obtain ⟨context, table, hnotify⟩ := notify_save_short hnumber hlast
    refine ⟨.table pid found.etid table, ?_, trivial⟩
    unfold saveSection callTable
    dsimp only
    rw [htable, if_pos (show (ETIDContext.init 0 0).sects.getD 0 none = none from rfl),
      htableHandler, hnotify, hhandle]
    simp

end OneSection

/-! ### The loop -/

section Loop

variable {handlers : DemuxHandlers State} (pid : ℕ)

variable {turns toPusi firstPkt : ℕ} {data : ByteBlock}

theorem isWellFormed_foundSections {packetCount : ℕ} {found : Found}
    (hfound : found ∈ foundSections packetCount turns data toPusi firstPkt) :
    found.IsWellFormed := by
  induction turns generalizing data toPusi firstPkt with
  | zero => exact absurd hfound List.not_mem_nil
  | succ turns ih =>
    unfold foundSections at hfound
    split_ifs at hfound with hend
    · exact absurd hfound List.not_mem_nil
    · rw [not_or, not_or, not_lt, not_lt] at hend
      rcases List.mem_cons.mp hfound with rfl | hrest
      · exact isWellFormed_findSection hend.2.1 hend.2.2 _ _
      · exact ih hrest

theorem isEligible_congr {demux next : SectionDemux State} (hcurrent : next.getCurrent = demux.getCurrent)
    (hnext : next.getNext = demux.getNext) (found : Found) :
    next.IsEligible found ↔ demux.IsEligible found := by
  unfold IsEligible
  rw [hcurrent, hnext]

theorem ofTable_congr {demux next : SectionDemux State} (hcurrent : next.getCurrent = demux.getCurrent)
    (hnext : next.getNext = demux.getNext) (etid : ETID) (sections : List Found) :
    next.ofTable etid sections = demux.ofTable etid sections := by
  unfold ofTable
  apply List.filter_congr
  intro found _
  rw [decide_eq_decide, isEligible_congr hcurrent hnext]

theorem ofTable_cons (demux : SectionDemux State) (etid : ETID) (found : Found)
    (sections : List Found) :
    demux.ofTable etid (found :: sections) =
      if demux.IsEligible found ∧ found.etid = etid then found :: demux.ofTable etid sections
      else demux.ofTable etid sections := by
  unfold ofTable
  rw [List.filter_cons]
  simp only [decide_eq_true_eq]

/-- A corrupted section only changes the context of its table. -/
theorem analyze_contexts (handlers : DemuxHandlers State) {demux : SectionDemux State}
    {found : Found}
    (hlong : found.isLong = true → found.IsCorrupted)
    (hshort : demux.IsEligible found → found.isLong = false → ¬ HasHandler handlers)
    (hformed : found.IsWellFormed) :
    ∃ next events, demux.analyze handlers pid found = (next, events, false) ∧
      (∃ context, demux.SameExcept next pid found.etid context) ∧
        (∀ etid, (next.pids pid).tids etid = if demux.IsEligible found ∧ found.etid = etid then
            analyzedContext pid demux.packetCount ((demux.pids pid).tids etid) found
          else (demux.pids pid).tids etid) ∧ ∀ event ∈ events, ¬ event.IsCall := by
  by_cases heligible : demux.IsEligible found
  · obtain ⟨next, events, hanalyze, hsame, hquiet⟩ :=
      analyze_quiet hlong (hshort heligible) heligible hformed
    refine ⟨next, events, hanalyze, ⟨_, hsame⟩, fun etid ↦ ?_, hquiet⟩
    rw [hsame.pids, Function.update_self]
    unfold PIDContext.setTable
    dsimp only
    by_cases hetid : found.etid = etid
    · subst hetid
      rw [Function.update_self, if_pos ⟨heligible, rfl⟩]
    · rw [Function.update_of_ne fun h ↦ hetid h.symm, if_neg fun h ↦ hetid h.2]
  · refine ⟨demux.countHeader found, [], ?_, ⟨(demux.pids pid).tids found.etid, ?_⟩,
      fun etid ↦ ?_, by simp⟩
    · unfold analyze
      rw [if_neg heligible]
    · refine ⟨?_, rfl, rfl, rfl, rfl⟩
      simp [countHeader, PIDContext.setTable]
    · rw [if_neg fun h ↦ heligible h.1]
      rfl

/-- The contexts after the loop on corrupted sections. -/
theorem contexts_collect {demux : SectionDemux State}
    (hlong : ∀ found ∈ foundSections demux.packetCount turns data toPusi firstPkt,
      found.isLong = true → found.IsCorrupted)
    (hshort : ∀ found ∈ foundSections demux.packetCount turns data toPusi firstPkt,
      demux.IsEligible found → found.isLong = false → ¬ HasHandler handlers) :
    (∀ etid, ((collect handlers pid turns demux data toPusi firstPkt).1.pids pid).tids etid =
        (demux.ofTable etid (foundSections demux.packetCount turns data toPusi firstPkt)).foldl
          (analyzedContext pid demux.packetCount) ((demux.pids pid).tids etid)) ∧
      ∀ event ∈ (collect handlers pid turns demux data toPusi firstPkt).2, ¬ event.IsCall := by
  have hkept : ∀ context : PIDContext, context.tids = (demux.pids pid).tids → ∀ etid,
      (Function.update demux.pids pid context pid).tids etid = (demux.pids pid).tids etid := by
    intro context htids etid
    rw [Function.update_self, htids]
  induction turns generalizing demux data toPusi firstPkt with
  | zero => exact ⟨hkept _ rfl, by simp [collect]⟩
  | succ turns ih =>
    have hfound : foundSections demux.packetCount (turns + 1) data toPusi firstPkt =
        if data.length < 3 ∨ InvalidLength data ∨ data.length < announcedSize data then []
        else findSection data toPusi firstPkt :: foundSections demux.packetCount turns
          (skipStuffing (data.drop (findSection data toPusi firstPkt).length))
          (toPusi - (findSection data toPusi firstPkt).length) demux.packetCount := rfl
    rw [hfound] at hlong hshort ⊢
    unfold collect
    by_cases hsmall : data.length < 3
    · rw [if_pos hsmall, if_pos (Or.inl hsmall)]
      exact ⟨hkept _ rfl, by simp⟩
    by_cases hinvalid : InvalidLength data
    · rw [if_neg hsmall, if_pos hinvalid, if_pos (Or.inr (Or.inl hinvalid))]
      exact ⟨hkept _ rfl, by simp⟩
    by_cases hincomplete : data.length < announcedSize data
    · rw [if_neg hsmall, if_neg hinvalid, if_pos hincomplete, if_pos (Or.inr (Or.inr hincomplete))]
      exact ⟨hkept _ rfl, by simp⟩
    have hgoes : ¬ (data.length < 3 ∨ InvalidLength data ∨ data.length < announcedSize data) := by
      rw [not_or, not_or]
      exact ⟨hsmall, hinvalid, hincomplete⟩
    rw [if_neg hgoes] at hlong hshort ⊢
    rw [if_neg hsmall, if_neg hinvalid, if_neg hincomplete]
    have hformed := isWellFormed_findSection hinvalid (not_lt.mp hincomplete) toPusi firstPkt
    generalize findSection data toPusi firstPkt = found at hlong hshort hformed ⊢
    obtain ⟨next, events, hanalyze, ⟨context, hsame⟩, hcontexts, hquiet⟩ :=
      analyze_contexts pid handlers (hlong found List.mem_cons_self) (hshort found List.mem_cons_self) hformed
    have hnextLong := (List.forall_mem_cons.mp hlong).2
    have hnextShort := (List.forall_mem_cons.mp hshort).2
    rw [← hsame.packetCount] at hnextLong hnextShort
    obtain ⟨hrest, hrestQuiet⟩ := ih hnextLong
      (fun other hother heligible ↦ hnextShort other hother
        ((isEligible_congr hsame.getCurrent hsame.getNext other).mp heligible))
      (fun context htids etid ↦ by rw [Function.update_self, htids])
    simp only [hanalyze, Bool.false_eq_true, if_false]
    refine ⟨fun etid ↦ ?_, fun event hevent ↦ ?_⟩
    · rw [hrest etid, ofTable_congr hsame.getCurrent hsame.getNext, hcontexts etid, ofTable_cons,
        hsame.packetCount]
      split_ifs <;> rfl
    · rcases List.mem_append.mp hevent with hnow | hlater
      · exact hquiet event hnow
      · exact hrestQuiet event hlater

theorem collect_calls {demux : SectionDemux State} (hhandlers : HasHandler handlers)
    (hlong : ∀ found ∈ foundSections demux.packetCount turns data toPusi firstPkt,
      found.isLong = true → found.IsCorrupted)
    (hshort : ∃ found ∈ foundSections demux.packetCount turns data toPusi firstPkt,
      demux.IsEligible found ∧ found.isLong = false) :
    ∃ event ∈ (collect handlers pid turns demux data toPusi firstPkt).2, event.IsCall := by
  induction turns generalizing demux data toPusi firstPkt with
  | zero =>
    obtain ⟨found, hfound, -⟩ := hshort
    exact absurd hfound List.not_mem_nil
  | succ turns ih =>
    unfold foundSections at hlong hshort
    by_cases hend : data.length < 3 ∨ InvalidLength data ∨ data.length < announcedSize data
    · rw [if_pos hend] at hshort
      obtain ⟨found, hfound, -⟩ := hshort
      exact absurd hfound List.not_mem_nil
    rw [if_neg hend] at hlong hshort
    rw [not_or, not_or] at hend
    obtain ⟨hsmall, hinvalid, hincomplete⟩ := hend
    unfold collect
    rw [if_neg hsmall, if_neg hinvalid, if_neg hincomplete]
    have hformed := isWellFormed_findSection hinvalid (not_lt.mp hincomplete) toPusi firstPkt
    generalize findSection data toPusi firstPkt = found at hlong hshort hformed ⊢
    dsimp only
    by_cases hhere : demux.IsEligible found ∧ found.isLong = false
    · obtain ⟨event, hevent, hcall⟩ := analyze_calls pid hhandlers hhere.1 hhere.2 hformed
      refine ⟨event, ?_, hcall⟩
      split_ifs
      · exact hevent
      · exact List.mem_append_left _ hevent
    · obtain ⟨next, events, hanalyze, ⟨context, hsame⟩, -, -⟩ :=
        analyze_contexts pid handlers (hlong found List.mem_cons_self)
          (fun heligible hisShort ↦ absurd ⟨heligible, hisShort⟩ hhere) hformed
      simp only [hanalyze, Bool.false_eq_true, if_false]
      obtain ⟨other, hother, heligible, hisShort⟩ := hshort
      have hlater : ∃ other ∈ foundSections next.packetCount turns
          (skipStuffing (data.drop found.length)) (toPusi - found.length) next.packetCount,
            next.IsEligible other ∧ other.isLong = false := by
        rcases List.mem_cons.mp hother with rfl | hrest
        · exact absurd ⟨heligible, hisShort⟩ hhere
        · rw [hsame.packetCount]
          exact ⟨other, hrest,
            (isEligible_congr hsame.getCurrent hsame.getNext other).mpr heligible, hisShort⟩
      obtain ⟨event, hevent, hcall⟩ := ih (fun other hother ↦ by
        rw [hsame.packetCount] at hother
        exact hlong other (List.mem_cons_of_mem _ hother)) hlater
      exact ⟨event, List.mem_append_right _ hevent, hcall⟩

end Loop

/-! ### The contexts after the sections of a table -/

section Headers

variable (pid packetCount : ℕ) {context : ETIDContext}

theorem analyzedContext_of_same {found : Found} (hlong : found.isLong = true)
    (hsame : ¬ context.Restarts found.version) :
    analyzedContext pid packetCount context found = context := by
  unfold analyzedContext ETIDContext.compareHeader
  rw [if_pos hlong, if_neg (not_or.mpr ⟨by rw [hlong]; decide, hsame⟩)]

theorem analyzedContext_of_restarts {found : Found} (hlong : found.isLong = true)
    (hrestarts : context.Restarts found.version) :
    analyzedContext pid packetCount context found =
      .init found.version found.lastSectionNumber := by
  unfold analyzedContext ETIDContext.compareHeader
  rw [if_pos hlong, if_pos (Or.inr hrestarts)]

theorem version_analyzedContext (context : ETIDContext) {found : Found} (hlong : found.isLong = true) :
    (analyzedContext pid packetCount context found).version = found.version ∧
      (analyzedContext pid packetCount context found).sectExpected ≠ 0 := by
  by_cases hrestarts : context.Restarts found.version
  · rw [analyzedContext_of_restarts pid packetCount hlong hrestarts]
    exact ⟨rfl, Nat.succ_ne_zero _⟩
  · rw [analyzedContext_of_same pid packetCount hlong hrestarts]
    obtain ⟨hexpected, hversion⟩ := not_or.mp hrestarts
    exact ⟨not_not.mp hversion, hexpected⟩

theorem foldl_of_same {headers : List Found} (hlong : ∀ found ∈ headers, found.isLong = true)
    (hexpected : context.sectExpected ≠ 0)
    (hsame : ∀ found ∈ headers, found.version = context.version) :
    headers.foldl (analyzedContext pid packetCount) context = context := by
  induction headers with
  | nil => rfl
  | cons found headers ih =>
    have hstays : ¬ context.Restarts found.version :=
      not_or.mpr ⟨hexpected, not_not.mpr (hsame found List.mem_cons_self).symm⟩
    rw [List.foldl_cons,
      analyzedContext_of_same pid packetCount (hlong found List.mem_cons_self) hstays]
    exact ih (List.forall_mem_cons.mp hlong).2
      (List.forall_mem_cons.mp hsame).2

/-- The version in progress, or a last new version. -/
theorem foldl_cases (context : ETIDContext) (headers : List Found)
    (hlong : ∀ found ∈ headers, found.isLong = true) :
    (headers = [] ∨ context.sectExpected ≠ 0 ∧ ∀ found ∈ headers, found.version = context.version) ∨
      ∃ before found run, headers = before ++ found :: run ∧
        (∀ next ∈ run, next.version = found.version) ∧
          headers.foldl (analyzedContext pid packetCount) context =
            .init found.version found.lastSectionNumber ∧
              (before = [] ∧ context.Restarts found.version ∨
                ∃ first other, before = first ++ [other] ∧ other.version ≠ found.version) := by
  induction headers using List.reverseRecOn with
  | nil => exact Or.inl (Or.inl rfl)
  | append_singleton headers last ih =>
    have hlast := hlong last (List.mem_append_right _ (List.mem_singleton.mpr rfl))
    have hbefore : ∀ found ∈ headers, found.isLong = true :=
      fun found hfound ↦ hlong found (List.mem_append_left _ hfound)
    have hfold : (headers ++ [last]).foldl (analyzedContext pid packetCount) context =
        analyzedContext pid packetCount
          (headers.foldl (analyzedContext pid packetCount) context) last := by
      rw [List.foldl_append]
      rfl
    rw [hfold]
    rcases ih hbefore with hsame | ⟨before, found, run, hheaders, hrun, hinit, hfirst⟩
    · have hstays : headers.foldl (analyzedContext pid packetCount) context = context := by
        rcases hsame with rfl | ⟨hexpected, hversions⟩
        · rfl
        · exact foldl_of_same pid packetCount hbefore hexpected hversions
      rw [hstays]
      by_cases hrestarts : context.Restarts last.version
      · refine Or.inr ⟨headers, last, [], rfl, by simp,
          analyzedContext_of_restarts pid packetCount hlast hrestarts, ?_⟩
        rcases List.eq_nil_or_concat headers with hnone | ⟨first, other, hconcat⟩
        · exact Or.inl ⟨hnone, hrestarts⟩
        · rw [List.concat_eq_append] at hconcat
          refine Or.inr ⟨first, other, hconcat, ?_⟩
          rcases hsame with hnone | ⟨hexpected, hversions⟩
          · rw [hnone] at hconcat
            exact absurd hconcat.symm (List.append_ne_nil_of_right_ne_nil _ (List.cons_ne_nil _ _))
          · rw [hversions other (by rw [hconcat]; simp)]
            exact hrestarts.resolve_left hexpected
      · obtain ⟨hexpected, hversion⟩ := not_or.mp hrestarts
        refine Or.inl (Or.inr ⟨hexpected, fun other hother ↦ ?_⟩)
        rcases List.mem_append.mp hother with hold | hnew
        · rcases hsame with rfl | ⟨-, hversions⟩
          · exact absurd hold List.not_mem_nil
          · exact hversions other hold
        · rw [List.mem_singleton.mp hnew]
          exact (not_not.mp hversion).symm
    · rw [hinit]
      right
      by_cases hversion : last.version = found.version
      · have hstays : ¬ (ETIDContext.init found.version found.lastSectionNumber).Restarts
            last.version :=
          not_or.mpr ⟨Nat.succ_ne_zero _, not_not.mpr hversion.symm⟩
        refine ⟨before, found, run ++ [last], ?_, fun next hnext ↦ ?_,
          analyzedContext_of_same pid packetCount hlast hstays, hfirst⟩
        · rw [hheaders, List.append_assoc, List.cons_append]
        · rcases List.mem_append.mp hnext with hold | hnew
          · exact hrun next hold
          · rw [List.mem_singleton.mp hnew, hversion]
      · have hrestarts : (ETIDContext.init found.version found.lastSectionNumber).Restarts
            last.version :=
          Or.inr fun hsame ↦ hversion hsame.symm
        refine ⟨headers, last, [], rfl, by simp,
          analyzedContext_of_restarts pid packetCount hlast hrestarts, Or.inr ?_⟩
        rcases List.eq_nil_or_concat run with rfl | ⟨others, other, rfl⟩
        · exact ⟨before, found, hheaders, fun hsame ↦ hversion hsame.symm⟩
        · rw [List.concat_eq_append] at hheaders hrun
          refine ⟨before ++ found :: others, other, ?_, ?_⟩
          · rw [hheaders, List.append_assoc, List.cons_append]
          · rw [hrun other (List.mem_append_right _ (List.mem_singleton.mpr rfl))]
            exact fun hsame ↦ hversion hsame.symm

theorem foldl_eq_self_iff (context : ETIDContext) {headers : List Found}
    (hlong : ∀ found ∈ headers, found.isLong = true) :
    headers.foldl (analyzedContext pid packetCount) context = context ↔
      LeavesContext context headers := by
  constructor
  · intro hself
    rcases foldl_cases pid packetCount context headers hlong with
      hsame | ⟨before, found, run, hheaders, hrun, hinit, hfirst⟩
    · exact Or.inl hsame
    · rw [hself] at hinit
      rcases hfirst with ⟨-, hrestarts⟩ | ⟨first, other, rfl, hother⟩
      · rw [hinit] at hrestarts
        rcases hrestarts with hnew | hversion
        · exact absurd hnew (Nat.succ_ne_zero _)
        · exact absurd rfl hversion
      · refine Or.inr ⟨first, other, found, run, ?_, hother, hrun, hinit⟩
        rw [hheaders, List.append_assoc]
        rfl
  · rintro ((rfl | ⟨hexpected, hsame⟩) | ⟨before, other, found, run, rfl, hother, hrun, hblank⟩)
    · rfl
    · exact foldl_of_same pid packetCount hlong hexpected hsame
    · have hotherLong := hlong other (by simp)
      have hfoundLong := hlong found (by simp)
      rw [List.foldl_append, List.foldl_cons, List.foldl_cons]
      generalize before.foldl (analyzedContext pid packetCount) context = reached
      obtain ⟨hversion, -⟩ := version_analyzedContext pid packetCount reached hotherLong
      have hrestarts : (analyzedContext pid packetCount reached other).Restarts found.version := by
        refine Or.inr ?_
        rw [hversion]
        exact hother
      rw [analyzedContext_of_restarts pid packetCount hfoundLong hrestarts, ← hblank]
      refine foldl_of_same pid packetCount (fun next hnext ↦ hlong next (by simp [hnext])) ?_
        fun next hnext ↦ ?_
      · rw [hblank]
        exact Nat.succ_ne_zero _
      · rw [hrun next hnext, hblank]
        rfl

theorem foldl_eq_self_iff_of_short (context : ETIDContext) {sections : List Found}
    (hshort : ∀ found ∈ sections, found.isLong = false)
    (hcomplete : ∀ found ∈ sections, found.isComplete = true)
    (hformed : ∀ found ∈ sections, found.IsWellFormed) :
    sections.foldl (analyzedContext pid packetCount) context = context ↔
      ∀ found, sections.getLast? = some found → HoldsShort context pid packetCount found := by
  rcases List.eq_nil_or_concat sections with rfl | ⟨before, last, rfl⟩
  · exact iff_of_true rfl nofun
  · rw [List.concat_eq_append] at *
    have hmem : last ∈ before ++ [last] := by simp
    obtain ⟨sect, hsect⟩ := exists_toSection_of_short (hshort last hmem) (hcomplete last hmem)
      (hformed last hmem) pid packetCount
    have hfold : (before ++ [last]).foldl (analyzedContext pid packetCount) context =
        (ETIDContext.init 0 0).save 0 sect := by
      rw [List.foldl_append]
      show analyzedContext pid packetCount _ last = _
      unfold analyzedContext
      rw [if_neg (by rw [hshort last hmem]; decide), hsect]
      dsimp only
      rw [compareHeader_of_short (hshort last hmem)]
    rw [hfold, List.getLast?_concat]
    constructor
    · rintro hself found hfound
      obtain rfl := Option.some.inj hfound
      exact ⟨sect, hsect, hself.symm⟩
    · intro hholds
      obtain ⟨same, hsame, hcontext⟩ := hholds last rfl
      rw [hsect] at hsame
      obtain rfl := Option.some.inj hsame
      exact hcontext.symm

end Headers

/-! ### One packet -/

theorem accept_frame (demux : SectionDemux State) (pkt : TSPacket) :
    (demux.accept pkt).demux.packetCount = demux.packetCount ∧
      (demux.accept pkt).demux.getCurrent = demux.getCurrent ∧
        (demux.accept pkt).demux.getNext = demux.getNext ∧
          ((demux.accept pkt).demux.pids pkt.getPID).tids = (demux.pids pkt.getPID).tids := by
  have hfollow : (demux.follow pkt).packetCount = demux.packetCount ∧
      (demux.follow pkt).getCurrent = demux.getCurrent ∧
        (demux.follow pkt).getNext = demux.getNext ∧
          ((demux.follow pkt).pids pkt.getPID).tids = (demux.pids pkt.getPID).tids := by
    unfold follow
    dsimp only
    split_ifs <;> exact ⟨rfl, rfl, rfl, by simp [setPID, PIDContext.syncLost]⟩
  have hpayload : ∀ other : SectionDemux State,
      (other.acceptPayload pkt).demux.packetCount = other.packetCount ∧
        (other.acceptPayload pkt).demux.getCurrent = other.getCurrent ∧
          (other.acceptPayload pkt).demux.getNext = other.getNext ∧
            ((other.acceptPayload pkt).demux.pids pkt.getPID).tids =
              (other.pids pkt.getPID).tids := by
    intro other
    unfold acceptPayload
    dsimp only
    split_ifs <;> exact ⟨rfl, rfl, rfl, by simp [refused, lose, setPID, PIDContext.syncLost]⟩
  unfold accept
  split_ifs
  · exact ⟨rfl, rfl, rfl, rfl⟩
  · exact ⟨rfl, rfl, rfl, by simp [refused, lose, setPID, PIDContext.syncLost]⟩
  · exact ⟨rfl, rfl, rfl, rfl⟩
  · exact hfollow
  · obtain ⟨hcount, hcurrent, hnext, htids⟩ := hpayload (demux.follow pkt)
    exact ⟨hcount.trans hfollow.1, hcurrent.trans hfollow.2.1, hnext.trans hfollow.2.2.1,
      htids.trans hfollow.2.2.2⟩

theorem mem_ofTable {demux : SectionDemux State} {etid : ETID} {sections : List Found} {found : Found}
    (hfound : found ∈ demux.ofTable etid sections) :
    found ∈ sections ∧ demux.IsEligible found ∧ found.etid = etid := by
  obtain ⟨hmem, hboth⟩ := List.mem_filter.mp hfound
  exact ⟨hmem, of_decide_eq_true hboth⟩

/-- The contexts after a packet of corrupted sections. -/
theorem contexts_processPacket (handlers : DemuxHandlers State) {demux : SectionDemux State}
    {pkt : TSPacket}
    (hcorrupted : ∀ found ∈ demux.sectionsOf pkt, found.isLong = true → found.IsCorrupted)
    (hshort : ∀ found ∈ demux.sectionsOf pkt, demux.IsEligible found → found.isLong = false →
      ¬ HasHandler handlers) :
    (∀ etid, ((demux.processPacket handlers pkt).1.pids pkt.getPID).tids etid =
        (demux.ofTable etid (demux.sectionsOf pkt)).foldl
          (analyzedContext pkt.getPID demux.packetCount) ((demux.pids pkt.getPID).tids etid)) ∧
      ∀ event ∈ (demux.processPacket handlers pkt).2, ¬ event.IsCall := by
  obtain ⟨hcount, hcurrent, hnext, htids⟩ := accept_frame demux pkt
  unfold sectionsOf at hcorrupted hshort ⊢
  unfold processPacket
  dsimp only at hcorrupted hshort ⊢
  cases hdata : (demux.accept pkt).data with
  | none =>
    refine ⟨fun etid ↦ ?_, by simp⟩
    dsimp only
    rw [htids]
    rfl
  | some data =>
    rw [hdata] at hcorrupted hshort
    dsimp only at hcorrupted hshort ⊢
    obtain ⟨hcontexts, hquiet⟩ := contexts_collect pkt.getPID hcorrupted
      fun found hfound heligible hisShort ↦
        hshort found hfound ((isEligible_congr hcurrent hnext found).mp heligible) hisShort
    refine ⟨fun etid ↦ ?_, hquiet⟩
    rw [hcontexts etid, ofTable_congr hcurrent hnext, htids, hcount]

/-- Assumes: all complete long sections have a wrong CRC32. The packet is ignored if and only if no
short section is given to a handler, the long sections leave the contexts as they are, and each
short table has the context of its last section. -/
theorem ignoresPacket_iff (handlers : DemuxHandlers State) {demux : SectionDemux State}
    {pkt : TSPacket}
    (hcorrupted : ∀ found ∈ demux.sectionsOf pkt, found.isLong = true → found.IsCorrupted) :
    IgnoresPacket handlers demux pkt ↔ (HasHandler handlers →
        ∀ found ∈ demux.sectionsOf pkt, demux.IsEligible found → found.isLong = true) ∧
        (∀ etid, etid.isLong = true → LeavesContext ((demux.pids pkt.getPID).tids etid)
          (demux.ofTable etid (demux.sectionsOf pkt))) ∧
          ∀ etid, etid.isLong = false → ∀ found,
            (demux.ofTable etid (demux.sectionsOf pkt)).getLast? = some found →
              HoldsShort ((demux.pids pkt.getPID).tids etid) pkt.getPID demux.packetCount found := by
  have hformed : ∀ found ∈ demux.sectionsOf pkt, found.IsWellFormed := by
    intro found hfound
    unfold sectionsOf at hfound
    dsimp only at hfound
    cases hdata : (demux.accept pkt).data with
    | none =>
      rw [hdata] at hfound
      exact absurd hfound List.not_mem_nil
    | some data =>
      rw [hdata] at hfound
      exact isWellFormed_foundSections hfound
  by_cases hcalls : HasHandler handlers →
      ∀ found ∈ demux.sectionsOf pkt, demux.IsEligible found → found.isLong = true
  · obtain ⟨hcontexts, hquiet⟩ := contexts_processPacket handlers hcorrupted
      fun found hfound heligible hshort hhandlers ↦ by
        rw [hcalls hhandlers found hfound heligible] at hshort
        cases hshort
    have hkind : ∀ etid, ∀ found ∈ demux.ofTable etid (demux.sectionsOf pkt),
        found.isLong = etid.isLong := by
      intro etid found hfound
      obtain ⟨-, -, rfl⟩ := mem_ofTable hfound
      exact found.isLong_etid.symm
    have hlong : ∀ etid, etid.isLong = true →
        (((demux.processPacket handlers pkt).1.pids pkt.getPID).tids etid =
            (demux.pids pkt.getPID).tids etid ↔
          LeavesContext ((demux.pids pkt.getPID).tids etid)
            (demux.ofTable etid (demux.sectionsOf pkt))) := by
      intro etid hetid
      rw [hcontexts etid]
      exact foldl_eq_self_iff _ _ _ fun found hfound ↦ (hkind etid found hfound).trans hetid
    have hshort : ∀ etid, etid.isLong = false →
        (((demux.processPacket handlers pkt).1.pids pkt.getPID).tids etid =
            (demux.pids pkt.getPID).tids etid ↔
          ∀ found, (demux.ofTable etid (demux.sectionsOf pkt)).getLast? = some found →
            HoldsShort ((demux.pids pkt.getPID).tids etid) pkt.getPID demux.packetCount found) := by
      intro etid hetid
      rw [hcontexts etid]
      exact foldl_eq_self_iff_of_short _ _ _
        (fun found hfound ↦ (hkind etid found hfound).trans hetid)
        (fun found hfound ↦ (mem_ofTable hfound).2.1.1)
        fun found hfound ↦ hformed found (mem_ofTable hfound).1
    constructor
    · rintro ⟨hsame, -⟩
      exact ⟨hcalls, fun etid hetid ↦ (hlong etid hetid).mp (hsame etid),
        fun etid hetid ↦ (hshort etid hetid).mp (hsame etid)⟩
    · rintro ⟨-, hleaves, hholds⟩
      refine ⟨fun etid ↦ ?_, hquiet⟩
      cases hetid : etid.isLong with
      | true => exact (hlong etid hetid).mpr (hleaves etid hetid)
      | false => exact (hshort etid hetid).mpr (hholds etid hetid)
  · refine iff_of_false ?_ fun hall ↦ hcalls hall.1
    rintro ⟨-, hquiet⟩
    obtain ⟨hhandlers, hcalls⟩ := Classical.not_imp.mp hcalls
    push Not at hcalls
    obtain ⟨found, hfound, heligible, hisShort⟩ := hcalls
    rw [ne_eq, Bool.not_eq_true] at hisShort
    obtain ⟨-, hcurrent, hnext, -⟩ := accept_frame demux pkt
    have hcalled : ∃ event ∈ (demux.processPacket handlers pkt).2, event.IsCall := by
      unfold sectionsOf at hcorrupted hfound
      unfold processPacket
      dsimp only at hcorrupted hfound ⊢
      cases hdata : (demux.accept pkt).data with
      | none =>
        rw [hdata] at hfound
        exact absurd hfound List.not_mem_nil
      | some data =>
        rw [hdata] at hcorrupted hfound
        exact collect_calls _ hhandlers hcorrupted
          ⟨found, hfound, (isEligible_congr hcurrent hnext found).mpr heligible, hisShort⟩
    obtain ⟨event, hevent, hcall⟩ := hcalled
    exact hquiet event hevent hcall

/-! ### A corrupted version -/

def sectionPacket (continuity : ℕ) (bytes : ByteBlock) (hsize : bytes.length = 12) : TSPacket where
  bytes := packetHeader true 0x100 continuity ++ [0x00] ++ bytes ++ List.replicate 171 0xFF
  length_eq := by
    rw [List.length_append, List.length_append, List.length_append, List.length_replicate, hsize,
      length_packetHeader]
    rfl

/-- The first of two sections of version 0 was received. -/
def collectingDemux : SectionDemux ℕ :=
  ((new (fun _ ↦ true) 0).feedPacket countingHandlers (sectionPacket 0
    (Section.withCrc32 [0x80, 0xB0, 0x09, 0x00, 0x01, 0xC1, 0x00, 0x01, 0x00, 0x00, 0x00, 0x00])
    rfl)).1

def damagedPacket : TSPacket :=
  sectionPacket 1 [0x80, 0xB0, 0x09, 0x00, 0x01, 0xC1, 0x01, 0x01, 0x00, 0x00, 0x00, 0x00] rfl

/-- The damaged section is ignored. -/
theorem damagedPacket_ignored : IgnoresPacket countingHandlers collectingDemux damagedPacket := by
  have hall : (collectingDemux.sectionsOf damagedPacket).all fun found ↦
      decide (found.IsCorrupted ∧ found.isLong = true ∧ found.etid = ⟨true, 0x80, 1⟩ ∧
        found.version = 0) := by
    decide +kernel
  rw [List.all_eq_true] at hall
  have hfound : ∀ found ∈ collectingDemux.sectionsOf damagedPacket, found.IsCorrupted ∧
      found.isLong = true ∧ found.etid = ⟨true, 0x80, 1⟩ ∧ found.version = 0 :=
    fun found hmem ↦ of_decide_eq_true (hall found hmem)
  apply (ignoresPacket_iff countingHandlers fun found hmem _ ↦ (hfound found hmem).1).mpr
  refine ⟨fun _ found hmem _ ↦ (hfound found hmem).2.1, fun etid hlong ↦ Or.inl ?_, ?_⟩
  · by_cases hetid : etid = ⟨true, 0x80, 1⟩
    · subst hetid
      refine Or.inr ⟨by decide +kernel, fun found hmem ↦ ?_⟩
      obtain ⟨hsections, -, -⟩ := mem_ofTable hmem
      rw [(hfound found hsections).2.2.2]
      decide +kernel
    · left
      apply List.eq_nil_iff_forall_not_mem.mpr
      intro found hmem
      obtain ⟨hsections, -, hother⟩ := mem_ofTable hmem
      exact hetid (hother.symm.trans (hfound found hsections).2.2.1)
  · intro etid hshort found hlast
    obtain ⟨hsections, -, hother⟩ := mem_ofTable (List.mem_of_getLast? hlast)
    rw [← hother, found.isLong_etid, (hfound found hsections).2.1] at hshort
    cases hshort

/-- The second section, with another version and CRC32. -/
def corruptedPacket : TSPacket :=
  sectionPacket 1 [0x80, 0xB0, 0x09, 0x00, 0x01, 0xC3, 0x01, 0x01, 0x00, 0x00, 0x00, 0x00] rfl

/-- A corrupted section makes the demux lose the other one. -/
theorem corruptedPacket_not_ignored :
    (∀ found ∈ collectingDemux.sectionsOf corruptedPacket, found.isLong = true →
        found.IsCorrupted) ∧
      ¬ IgnoresPacket countingHandlers collectingDemux corruptedPacket := by
  constructor
  · have hall : (collectingDemux.sectionsOf corruptedPacket).all fun found ↦
        decide found.IsCorrupted := by
      decide +kernel
    rw [List.all_eq_true] at hall
    exact fun found hmem _ ↦ of_decide_eq_true (hall found hmem)
  · rintro ⟨hsame, -⟩
    have hlost : (((collectingDemux.processPacket countingHandlers corruptedPacket).1.pids
          corruptedPacket.getPID).tids ⟨true, 0x80, 1⟩).sectReceived = 0 ∧
        ((collectingDemux.pids corruptedPacket.getPID).tids ⟨true, 0x80, 1⟩).sectReceived = 1 := by
      decide +kernel
    rw [hsame, hlost.2] at hlost
    exact absurd hlost.1 (by decide)

end SectionDemux

end TSDuck
