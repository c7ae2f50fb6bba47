import TSDuck.Psi.SectionDemux
import TSDuck.Psi.TableAssembly

/-!
# The tables that a section demux delivers

The tables which the demux gives to the table handler are valid. A table of long sections is made of
all the sections of one table id, extension and version, each of them a section with a correct CRC32
that was carried by the packets of the PID (`Delivered`). And after a table has been delivered, the
demux only delivers another one with the same table id and extension when it has seen another
version in between (`DeliveredOnce`).

`TableInProgress` is the invariant of the context of a table: the sections it contains are for its
version and its number of sections, each in its slot, and the number of received sections is the
number of filled slots.
-/

namespace TSDuck

/-- The data is contiguous in the section data of some packets of the PID. -/
def AppearedOn (pid : ℕ) (packets : List TSPacket) (data : ByteBlock) : Prop :=
  ∃ carriers : List TSPacket, carriers.Sublist packets ∧ (∀ pkt ∈ carriers, pkt.getPID = pid) ∧
    data <:+: carriers.flatMap TSPacket.sectionData

/-- The packets carried a section with a correct CRC32. -/
structure Carries (pid : ℕ) (etid : ETID) (packets : List TSPacket) (version : UInt8)
    (count index : ℕ) (sect : Section) : Prop where
  isLong : sect.isLongSection = true
  tableId : sect.tableId = etid.tid
  tableIdExtension : sect.tableIdExtension = etid.tidExt
  version_eq : sect.version = version
  sectionNumber : sect.sectionNumber = index
  lastSectionNumber : sect.lastSectionNumber + 1 = count
  crc : crcMatches sect.content = true
  appeared : AppearedOn pid packets sect.content

/-- A delivered table is valid and complete. -/
structure Delivered (pid : ℕ) (etid : ETID) (packets : List TSPacket) (table : BinaryTable) :
    Prop where
  valid : table.isValid = true
  complete : etid.isLong = true → table.sections ≠ [] ∧
    ∀ index, index < table.sections.length → ∃ sect, table.sections[index]? = some (some sect) ∧
        Carries pid etid packets table.version table.sections.length index sect

/-- Between two deliveries of a table on a PID, another version is seen. -/
def DeliveredOnce (log : List DemuxEvent) : Prop :=
  ∀ pid etid, etid.isLong = true → ∀ before first between second after,
    log = before ++ .table pid etid first :: (between ++ .table pid etid second :: after) →
      ∃ version, version ≠ first.version ∧ .seen pid etid version ∈ between

/-! ### What the packets have carried -/

variable {data : ByteBlock}

theorem AppearedOn.append {pid : ℕ} {packets : List TSPacket} (happeared : AppearedOn pid packets data)
    (more : List TSPacket) :
    AppearedOn pid (packets ++ more) data := by
  obtain ⟨carriers, hcarriers, hpid, hdata⟩ := happeared
  exact ⟨carriers, hcarriers.trans (List.sublist_append_left _ _), hpid, hdata⟩

theorem Carries.append {pid : ℕ} {etid : ETID} {packets : List TSPacket} {version : UInt8}
    {count index : ℕ} {sect : Section} (hcarries : Carries pid etid packets version count index sect)
    (more : List TSPacket) : Carries pid etid (packets ++ more) version count index sect :=
  { hcarries with appeared := hcarries.appeared.append more }

theorem Delivered.append {pid : ℕ} {etid : ETID} {packets : List TSPacket} {table : BinaryTable}
    (hdelivered : Delivered pid etid packets table) (more : List TSPacket) :
    Delivered pid etid (packets ++ more) table := by
  refine ⟨hdelivered.valid, fun hlong ↦ ?_⟩
  obtain ⟨hnonempty, hsections⟩ := hdelivered.complete hlong
  refine ⟨hnonempty, fun index hindex ↦ ?_⟩
  obtain ⟨sect, hsect, hcarries⟩ := hsections index hindex
  exact ⟨sect, hsect, hcarries.append more⟩

/-- What the packets of a PID have carried last. -/
def CarriedLast (pid : ℕ) (packets : List TSPacket) (data : ByteBlock) : Prop :=
  ∃ carriers : List TSPacket, carriers.Sublist packets ∧ (∀ pkt ∈ carriers, pkt.getPID = pid) ∧
    data <:+ carriers.flatMap TSPacket.sectionData

theorem CarriedLast.suffix {pid : ℕ} {packets : List TSPacket} {rest : ByteBlock}
    (hcarried : CarriedLast pid packets data) (hrest : rest <:+ data) :
    CarriedLast pid packets rest := by
  obtain ⟨carriers, hcarriers, hpid, hdata⟩ := hcarried
  exact ⟨carriers, hcarriers, hpid, hrest.trans hdata⟩

theorem CarriedLast.appeared {pid : ℕ} {packets : List TSPacket} {first : ByteBlock}
    (hcarried : CarriedLast pid packets data) (hfirst : first <+: data) :
    AppearedOn pid packets first := by
  obtain ⟨carriers, hcarriers, hpid, hdata⟩ := hcarried
  exact ⟨carriers, hcarriers, hpid, hfirst.isInfix.trans hdata.isInfix⟩

theorem CarriedLast.append {pid : ℕ} {packets : List TSPacket} (hcarried : CarriedLast pid packets data)
    (more : List TSPacket) :
    CarriedLast pid (packets ++ more) data := by
  obtain ⟨carriers, hcarriers, hpid, hdata⟩ := hcarried
  exact ⟨carriers, hcarriers.trans (List.sublist_append_left _ _), hpid, hdata⟩

theorem carriedLast_nil (pid : ℕ) (packets : List TSPacket) : CarriedLast pid packets [] :=
  ⟨[], List.nil_sublist _, by simp, List.nil_suffix⟩

theorem CarriedLast.concat {pid : ℕ} {packets : List TSPacket} {more : ByteBlock} {pkt : TSPacket}
    (hcarried : CarriedLast pid packets data) (hpkt : pkt.getPID = pid)
    (hmore : more = pkt.sectionData ∨ data = [] ∧ more <:+ pkt.sectionData) :
    CarriedLast pid (packets ++ [pkt]) (data ++ more) := by
  obtain ⟨carriers, hcarriers, hpid, hdata⟩ := hcarried
  refine ⟨carriers ++ [pkt], hcarriers.append (List.Sublist.refl _), ?_, ?_⟩
  · intro other hother
    rcases List.mem_append.mp hother with hbefore | hlast
    · exact hpid other hbefore
    · rw [List.mem_singleton.mp hlast, hpkt]
  · rw [List.flatMap_append, List.flatMap_singleton]
    rcases hmore with rfl | ⟨rfl, hsuffix⟩
    · obtain ⟨before, hbefore⟩ := hdata
      exact ⟨before, by rw [← List.append_assoc, hbefore]⟩
    · rw [List.nil_append]
      exact hsuffix.trans (List.suffix_append _ _)

/-! ### The context of a table of long sections -/

/-- The sections of the version, each in its slot. -/
structure TableInProgress (pid : ℕ) (etid : ETID) (packets : List TSPacket)
    (context : ETIDContext) : Prop where
  length_eq : context.sects.length = context.sectExpected
  received_eq : context.sectReceived = context.sects.countP Option.isSome
  slot : ∀ index sect, context.sects[index]? = some (some sect) →
    Carries pid etid packets context.version context.sectExpected index sect

/-- After a delivery, the version is notified or has changed. -/
structure Settled (pid : ℕ) (etid : ETID) (context : ETIDContext) (log : List DemuxEvent) :
    Prop where
  last : ∀ before table after, log = before ++ .table pid etid table :: after →
    (∃ version, version ≠ table.version ∧ .seen pid etid version ∈ after) ∨
      context.notified = true ∧ context.version = table.version ∧ context.sectExpected ≠ 0
  once : ∀ before first between second after,
    log = before ++ .table pid etid first :: (between ++ .table pid etid second :: after) →
      ∃ version, version ≠ first.version ∧ .seen pid etid version ∈ between

section Contexts

variable {pid : ℕ} {etid : ETID} {packets : List TSPacket} {context : ETIDContext}

theorem TableInProgress.append (hprogress : TableInProgress pid etid packets context)
    (more : List TSPacket) : TableInProgress pid etid (packets ++ more) context :=
  { hprogress with slot := fun index sect hsect ↦ (hprogress.slot index sect hsect).append more }

theorem tableInProgress_empty {notified : Bool} {version : UInt8} {count : ℕ} :
    TableInProgress pid etid packets ⟨notified, version, count, 0, List.replicate count none⟩ := by
  refine ⟨List.length_replicate, ?_, fun index sect hsect ↦ ?_⟩
  · symm
    rw [List.countP_eq_zero]
    intro slot hslot
    rw [(List.mem_replicate.mp hslot).2]
    decide
  · have hmem := List.mem_of_getElem? hsect
    exact absurd (List.mem_replicate.mp hmem).2 (by simp)

theorem TableInProgress.compareHeader (hprogress : TableInProgress pid etid packets context)
    (isLong : Bool) (version : UInt8) (lastSection : ℕ) :
    TableInProgress pid etid packets (context.compareHeader isLong version lastSection) := by
  unfold ETIDContext.compareHeader
  split_ifs
  · exact tableInProgress_empty
  · exact hprogress

theorem TableInProgress.save (hprogress : TableInProgress pid etid packets context) {number : ℕ}
    {sect : Section} (hnumber : number < context.sectExpected)
    (hnew : context.sects.getD number none = none)
    (hcarries : Carries pid etid packets context.version context.sectExpected number sect) :
    TableInProgress pid etid packets (context.save number sect) := by
  have hlt : number < context.sects.length := by
    rw [hprogress.length_eq]
    exact hnumber
  have hslot : context.sects[number] = none := by
    rw [List.getD_eq_getElem _ _ hlt] at hnew
    exact hnew
  refine ⟨?_, ?_, fun index other hother ↦ ?_⟩
  · show (context.sects.set number (some sect)).length = context.sectExpected
    rw [List.length_set, hprogress.length_eq]
  · show context.sectReceived + 1 = (context.sects.set number (some sect)).countP Option.isSome
    rw [List.countP_set hlt, hslot, hprogress.received_eq]
    simp
  · change (context.sects.set number (some sect))[index]? = some (some other) at hother
    rw [List.getElem?_set] at hother
    split_ifs at hother with hhere
    · obtain rfl := Option.some.inj (Option.some.inj hother)
      rw [← hhere]
      exact hcarries
    · exact hprogress.slot index other hother

/-- A complete table is notified the first time. -/
theorem ETIDContext.notify_cases (context : ETIDContext) (hasHandler : Bool) :
    context.notify hasHandler false = (context, none) ∨
      (context.notified = false ∧ context.sectReceived = context.sectExpected ∧
        context.build.isValid = true ∧ context.notify hasHandler false =
          ({ context with notified := true }, some context.build)) := by
  unfold ETIDContext.notify
  by_cases hready : context.notified = false ∧
      (context.sectReceived = context.sectExpected ∨ false = true) ∧ hasHandler = true
  · rw [if_pos hready]
    obtain ⟨hnotified, hreceived, -⟩ := hready
    by_cases hvalid : context.build.isValid = true
    · exact Or.inr ⟨hnotified, hreceived.resolve_right Bool.false_ne_true, hvalid, if_pos hvalid⟩
    · exact Or.inl (if_neg hvalid)
  · exact Or.inl (if_neg hready)

theorem TableInProgress.notify (hprogress : TableInProgress pid etid packets context)
    (hasHandler : Bool) :
    TableInProgress pid etid packets (context.notify hasHandler false).1 := by
  rcases context.notify_cases hasHandler with hnothing | ⟨-, -, -, hnotify⟩
  · rw [hnothing]
    exact hprogress
  · rw [hnotify]
    exact ⟨hprogress.length_eq, hprogress.received_eq, hprogress.slot⟩

theorem ETIDContext.build_eq_addSections (context : ETIDContext) :
    context.build = (BinaryTable.empty.addSections context.sects true true).2 := by
  have hgeneral : ∀ (sections : List (Option Section)) (table : BinaryTable) (ok : Bool),
      sections.foldl (fun table sect ↦ (table.addSection sect true true).2) table =
        (sections.foldl (fun (result : Bool × BinaryTable) sect ↦
          let added := result.2.addSection sect true true
          (added.1 && result.1, added.2)) (ok, table)).2 := by
    intro sections
    induction sections with
    | nil =>
      intro table ok
      rfl
    | cons sect sections ih =>
      intro table ok
      exact ih _ _
  exact hgeneral context.sects .empty true

theorem TableInProgress.delivered (hprogress : TableInProgress pid etid packets context)
    (hreceived : context.sectReceived = context.sectExpected)
    (hvalid : context.build.isValid = true) :
    Delivered pid etid packets context.build ∧ context.build.version = context.version ∧
      context.sectExpected ≠ 0 := by
  have hall : ∀ slot ∈ context.sects, slot.isSome = true := by
    rw [← List.countP_eq_length, ← hprogress.received_eq, hreceived, hprogress.length_eq]
  obtain ⟨sections, hsections⟩ : ∃ sections : List Section, context.sects = sections.map some := by
    refine ⟨context.sects.filterMap id, ?_⟩
    rw [List.map_filterMap_some_eq_filter_map_isSome, List.map_id, List.filter_eq_self.mpr hall]
  have hlength : context.sectExpected = sections.length := by
    rw [← hprogress.length_eq, hsections, List.length_map]
  have hcarries : ∀ index sect, sections[index]? = some sect →
      Carries pid etid packets context.version sections.length index sect := by
    intro index sect hsect
    rw [← hlength]
    apply hprogress.slot
    rw [hsections, List.getElem?_map, hsect]
    rfl
  rw [context.build_eq_addSections, hsections] at hvalid ⊢
  cases sections with
  | nil => exact absurd hvalid (by decide)
  | cons first rest =>
    have hfirst := hcarries 0 first rfl
    have horder : BinaryTable.InOrder first (rest.length + 1) (first :: rest) := by
      intro index sect hsect
      have hsame := hcarries index sect hsect
      exact ⟨hsame.tableId.trans hfirst.tableId.symm,
        hsame.tableIdExtension.trans hfirst.tableIdExtension.symm,
        hsame.version_eq.trans hfirst.version_eq.symm, hsame.sectionNumber,
        hsame.lastSectionNumber⟩
    have hslots : (BinaryTable.filledWith first (rest.length + 1) (first :: rest)).sections =
        (first :: rest).map some := by
      simp [BinaryTable.filledWith]
    rw [BinaryTable.addSections_inOrder horder] at hvalid ⊢
    refine ⟨⟨hvalid, fun _ ↦ ⟨?_, fun index hindex ↦ ?_⟩⟩, hfirst.version_eq, ?_⟩
    · rw [hslots]
      exact List.cons_ne_nil _ _
    · rw [hslots, List.length_map] at hindex ⊢
      have hget := List.getElem?_eq_getElem hindex
      refine ⟨(first :: rest)[index], ?_, ?_⟩
      · rw [List.getElem?_map, hget]
        rfl
      · have hsect := hcarries index _ hget
        rw [← hfirst.version_eq] at hsect
        exact hsect
    · rw [hlength]
      exact Nat.succ_ne_zero _

/-! ### The context and what has been reported -/

variable {log : List DemuxEvent}

theorem exists_split_of_not_mem {event : DemuxEvent} {events before after : List DemuxEvent}
    (hevents : event ∉ events) (hsplit : log ++ events = before ++ event :: after) :
    ∃ rest, log = before ++ event :: rest ∧ after = rest ++ events := by
  rcases List.append_eq_append_iff.mp hsplit with ⟨middle, hbefore, hmiddle⟩ | ⟨middle, hlog, hmiddle⟩
  · exact absurd (by rw [hmiddle]; exact List.mem_append_right _ List.mem_cons_self) hevents
  · cases middle with
    | nil =>
      rw [List.nil_append] at hmiddle
      exact absurd (by rw [← hmiddle]; exact List.mem_cons_self) hevents
    | cons head rest =>
      rw [List.cons_append, List.cons.injEq] at hmiddle
      obtain ⟨rfl, rfl⟩ := hmiddle
      exact ⟨rest, hlog, rfl⟩

theorem Settled.append (hsettled : Settled pid etid context log) {next : ETIDContext}
    (hnext : context.notified = true → context.sectExpected ≠ 0 →
      next.notified = true ∧ next.version = context.version ∧ next.sectExpected ≠ 0)
    {events : List DemuxEvent} (hevents : ∀ table, .table pid etid table ∉ events) :
    Settled pid etid next (log ++ events) := by
  constructor
  · intro before table after hsplit
    obtain ⟨rest, hlog, rfl⟩ := exists_split_of_not_mem (hevents table) hsplit
    rcases hsettled.last before table rest hlog with ⟨version, hversion, hseen⟩ | hcontext
    · exact Or.inl ⟨version, hversion, List.mem_append_left _ hseen⟩
    · obtain ⟨hnotified, hversion, hexpected⟩ := hcontext
      obtain ⟨hstill, hsame, hcount⟩ := hnext hnotified hexpected
      exact Or.inr ⟨hstill, hsame.trans hversion, hcount⟩
  · intro before first between second after hsplit
    obtain ⟨rest, hlog, hrest⟩ := exists_split_of_not_mem (hevents first) hsplit
    obtain ⟨last, hlast, -⟩ := exists_split_of_not_mem (hevents second) hrest.symm
    rw [hlast] at hlog
    exact hsettled.once before first between second last hlog

theorem Settled.save (hsettled : Settled pid etid context log) (number : ℕ) (sect : Section) :
    Settled pid etid (context.save number sect) log := by
  have hnext : context.notified = true → context.sectExpected ≠ 0 →
      (context.save number sect).notified = true ∧
        (context.save number sect).version = context.version ∧
          (context.save number sect).sectExpected ≠ 0 :=
    fun hnotified hexpected ↦ ⟨hnotified, rfl, hexpected⟩
  have hnone : ∀ table, DemuxEvent.table pid etid table ∉ [] := fun table ↦ List.not_mem_nil
  have hsame := hsettled.append hnext hnone
  rw [List.append_nil] at hsame
  exact hsame

theorem Settled.compareHeader (hsettled : Settled pid etid context log) (version : UInt8)
    (lastSection : ℕ) : Settled pid etid (context.compareHeader true version lastSection)
      (log ++ [.seen pid etid version]) := by
  unfold ETIDContext.compareHeader
  by_cases hrestarts : context.Restarts version
  case neg =>
    rw [if_neg (by simpa using hrestarts)]
    exact hsettled.append (fun hnotified hexpected ↦ ⟨hnotified, rfl, hexpected⟩) (by simp)
  rw [if_pos (Or.inr hrestarts)]
  constructor
  · intro before table after hsplit
    obtain ⟨rest, hlog, rfl⟩ := exists_split_of_not_mem (by simp) hsplit
    rcases hsettled.last before table rest hlog with ⟨other, hother, hseen⟩ | hcontext
    · exact Or.inl ⟨other, hother, List.mem_append_left _ hseen⟩
    · obtain ⟨-, hversion, hexpected⟩ := hcontext
      refine Or.inl ⟨version, ?_, List.mem_append_right _ (List.mem_singleton.mpr rfl)⟩
      rw [← hversion]
      exact (hrestarts.resolve_left hexpected).symm
  · have hnone : ∀ table, .table pid etid table ∉ [DemuxEvent.seen pid etid version] := by simp
    exact (hsettled.append (fun hnotified hexpected ↦ ⟨hnotified, rfl, hexpected⟩) hnone).once

theorem Settled.table (hsettled : Settled pid etid context log) (hnotified : context.notified = false)
    (hexpected : context.sectExpected ≠ 0) {table : BinaryTable}
    (hversion : table.version = context.version) :
    Settled pid etid { context with notified := true } (log ++ [.table pid etid table]) := by
  have hbefore : ∀ before first rest, log = before ++ .table pid etid first :: rest →
      ∃ version, version ≠ first.version ∧ .seen pid etid version ∈ rest := by
    intro before first rest hlog
    rcases hsettled.last before first rest hlog with hseen | ⟨hstill, -⟩
    · exact hseen
    · rw [hnotified] at hstill
      cases hstill
  constructor
  · intro before first after hsplit
    rcases List.eq_nil_or_concat after with rfl | ⟨rest, last, rfl⟩
    · obtain ⟨-, hlast⟩ := List.append_inj' hsplit rfl
      rw [List.cons.injEq, DemuxEvent.table.injEq] at hlast
      obtain ⟨⟨-, -, rfl⟩, -⟩ := hlast
      exact Or.inr ⟨rfl, hversion.symm, hexpected⟩
    · rw [List.concat_eq_append, ← List.cons_append, ← List.append_assoc] at hsplit
      obtain ⟨hlog, hlast⟩ := List.append_inj' hsplit rfl
      obtain ⟨version, hother, hseen⟩ := hbefore before first rest hlog
      refine Or.inl ⟨version, hother, ?_⟩
      rw [List.concat_eq_append]
      exact List.mem_append_left _ hseen
  · intro before first between second after hsplit
    rcases List.eq_nil_or_concat after with rfl | ⟨rest, last, rfl⟩
    · rw [← List.cons_append, ← List.append_assoc] at hsplit
      obtain ⟨hlog, -⟩ := List.append_inj' hsplit rfl
      exact hbefore before first between hlog
    · rw [List.concat_eq_append, ← List.cons_append, ← List.append_assoc, ← List.cons_append,
        ← List.append_assoc] at hsplit
      obtain ⟨hlog, -⟩ := List.append_inj' hsplit rfl
      rw [List.append_assoc, List.cons_append] at hlog
      exact hsettled.once before first between second rest hlog

end Contexts

namespace SectionDemux

variable {State : Type} {handlers : DemuxHandlers State}

/-! ### One section -/

theorem Found.isLong_etid (found : Found) : found.etid.isLong = found.isLong := by
  unfold Found.etid
  split_ifs with hlong
  · exact hlong.symm
  · rw [Bool.not_eq_true] at hlong
    exact hlong.symm

theorem version_compared (demux : SectionDemux State) (pid : ℕ) {found : Found}
    (hlong : found.isLong = true) : (demux.compared pid found).version = found.version := by
  unfold compared ETIDContext.compareHeader
  by_cases hrestarts : ((demux.pids pid).tids found.etid).Restarts found.version
  · rw [if_pos (Or.inr hrestarts)]
    rfl
  · rw [if_neg (not_or.mpr ⟨by rw [hlong]; decide, hrestarts⟩)]
    exact not_not.mp (not_or.mp hrestarts).2

/-- The report of a call of the table handler. -/
theorem tableEvents_cases (handlers : DemuxHandlers State) (pid : ℕ) (etid : ETID)
    (table : Option BinaryTable) : tableEvents handlers pid etid table = [] ∨
      ∃ built, table = some built ∧
        tableEvents handlers pid etid table = [.table pid etid built] := by
  unfold tableEvents
  split_ifs
  · cases table with
    | none => exact Or.inl rfl
    | some built => exact Or.inr ⟨built, rfl, rfl⟩
  · exact Or.inl rfl

theorem table_not_mem_seenEvents (pid other : ℕ) (found : Found) (etid : ETID)
    (table : BinaryTable) : .table other etid table ∉ seenEvents pid found := by
  unfold seenEvents
  split_ifs <;> simp

theorem table_not_mem_sectEvents (sect : Section) (other : ℕ) (etid : ETID)
    (table : BinaryTable) : .table other etid table ∉ sectEvents handlers sect := by
  unfold sectEvents
  split_ifs <;> simp

section OneSection

variable {demux : SectionDemux State} {pid : ℕ} {packets : List TSPacket} {found : Found}

theorem carries_toSection (hlong : found.isLong = true) (heligible : demux.IsEligible found)
    (hformed : found.IsWellFormed) (hcarried : CarriedLast pid packets found.data)
    (hindex : found.lastSectionNumber + 1 = (demux.compared pid found).sectExpected) {sect : Section}
    (hsect : found.toSection pid demux.packetCount = some sect) :
    Carries pid found.etid packets (demux.compared pid found).version
      (demux.compared pid found).sectExpected found.sectionNumber sect := by
  obtain ⟨hcontent, hsectLong, htableId, hextension, hversion, hnumber, hlast, hcrc⟩ :=
    Found.toSection_spec heligible.1 hformed hsect
  refine
    { isLong := hsectLong.trans hlong
      tableId := htableId
      tableIdExtension := hextension
      version_eq := ?_
      sectionNumber := hnumber
      lastSectionNumber := ?_
      crc := hcrc hlong
      appeared := ?_ }
  · rw [version_compared demux pid hlong, hversion]
  · rw [hlast, hindex]
  · rw [hcontent]
    exact hcarried.appeared (List.take_prefix _ _)

theorem inProgress_save
    (hprogress : TableInProgress pid found.etid packets ((demux.pids pid).tids found.etid))
    (hlong : found.isLong = true) (heligible : demux.IsEligible found)
    (hformed : found.IsWellFormed) (hcarried : CarriedLast pid packets found.data)
    (hindex : found.lastSectionNumber + 1 = (demux.compared pid found).sectExpected) {sect : Section}
    (hsect : found.toSection pid demux.packetCount = some sect)
    (hnew : (demux.compared pid found).sects.getD found.sectionNumber none = none) :
    TableInProgress pid found.etid packets
      ((demux.compared pid found).save found.sectionNumber sect) := by
  have hrange : found.sectionNumber ≤ found.lastSectionNumber := heligible.2.1
  have hnumber : found.sectionNumber < (demux.compared pid found).sectExpected := by omega
  exact (hprogress.compareHeader _ _ _).save hnumber hnew
    (carries_toSection hlong heligible hformed hcarried hindex hsect)

variable {events : List DemuxEvent}

/-- Only the table of the section is delivered. -/
theorem Analyzed.delivered {context : ETIDContext}
    (hanalyzed : demux.Analyzed handlers pid found context events) (hformed : found.IsWellFormed)
    (hcarried : CarriedLast pid packets found.data) (hprogress : found.isLong = true →
      TableInProgress pid found.etid packets ((demux.pids pid).tids found.etid)) {other : ℕ}
    {etid : ETID} {table : BinaryTable} (htable : .table other etid table ∈ events) :
    other = pid ∧ etid = found.etid ∧ Delivered pid found.etid packets table := by
  cases hanalyzed with
  | skipped => exact absurd htable List.not_mem_nil
  | ignored => exact absurd htable (table_not_mem_seenEvents _ _ _ _ _)
  | known =>
    rcases List.mem_append.mp htable with hseen | hsection
    · exact absurd hseen (table_not_mem_seenEvents _ _ _ _ _)
    · exact absurd hsection (table_not_mem_sectEvents _ _ _ _)
  | saved heligible hindex sect hsect hnew =>
    rcases List.mem_append.mp htable with hbefore | hlast
    · rcases List.mem_append.mp hbefore with hseen | hsection
      · exact absurd hseen (table_not_mem_seenEvents _ _ _ _ _)
      · exact absurd hsection (table_not_mem_sectEvents _ _ _ _)
    · rcases tableEvents_cases handlers pid found.etid
        (demux.savedTable handlers pid found sect).2 with hnone | ⟨built, hbuilt, hone⟩
      · rw [hnone] at hlast
        exact absurd hlast List.not_mem_nil
      · rw [hone, List.mem_singleton, DemuxEvent.table.injEq] at hlast
        obtain ⟨rfl, rfl, rfl⟩ := hlast
        unfold savedTable at hbuilt
        rcases ETIDContext.notify_cases ((demux.compared other found).save found.sectionNumber sect)
          handlers.handleTable.isSome with hnothing | ⟨-, hreceived, hvalid, hnotify⟩
        · rw [hnothing] at hbuilt
          cases hbuilt
        · rw [hnotify] at hbuilt
          obtain rfl := Option.some.inj hbuilt
          refine ⟨rfl, rfl, ?_⟩
          by_cases hlong : found.isLong = true
          · exact ((inProgress_save (hprogress hlong) hlong heligible hformed hcarried hindex hsect
              hnew).delivered hreceived hvalid).1
          · refine ⟨hvalid, fun hstill ↦ absurd ?_ hlong⟩
            rw [found.isLong_etid] at hstill
            exact hstill

theorem Analyzed.inProgress {context : ETIDContext}
    (hanalyzed : demux.Analyzed handlers pid found context events) (hformed : found.IsWellFormed)
    (hcarried : CarriedLast pid packets found.data) (hlong : found.isLong = true)
    (hprogress : TableInProgress pid found.etid packets ((demux.pids pid).tids found.etid)) :
    TableInProgress pid found.etid packets context := by
  cases hanalyzed with
  | skipped => exact hprogress
  | ignored => exact hprogress.compareHeader _ _ _
  | known => exact hprogress.compareHeader _ _ _
  | saved heligible hindex sect hsect hnew =>
    exact (inProgress_save hprogress hlong heligible hformed hcarried hindex hsect hnew).notify _

/-- The reports still agree with the contexts. -/
theorem Analyzed.settled {context : ETIDContext}
    (hanalyzed : demux.Analyzed handlers pid found context events) (hformed : found.IsWellFormed)
    (hcarried : CarriedLast pid packets found.data) (hlong : found.isLong = true)
    (hprogress : TableInProgress pid found.etid packets ((demux.pids pid).tids found.etid))
    {log : List DemuxEvent} (hsettled : Settled pid found.etid ((demux.pids pid).tids found.etid) log) :
    Settled pid found.etid context (log ++ events) := by
  have hcompared : Settled pid found.etid (demux.compared pid found)
      (log ++ seenEvents pid found) := by
    unfold compared seenEvents
    rw [if_pos hlong, hlong]
    exact hsettled.compareHeader _ _
  have hsection : ∀ sect, Settled pid found.etid (demux.compared pid found)
      (log ++ (seenEvents pid found ++ sectEvents handlers sect)) := by
    intro sect
    rw [← List.append_assoc]
    exact hcompared.append (fun hnotified hexpected ↦ ⟨hnotified, rfl, hexpected⟩)
      fun table ↦ table_not_mem_sectEvents _ _ _ _
  cases hanalyzed with
  | skipped =>
    rw [List.append_nil]
    exact hsettled
  | ignored => exact hcompared
  | known heligible hindex sect hsect hknown => exact hsection sect
  | saved heligible hindex sect hsect hnew =>
    have hagree := (hsection sect).save found.sectionNumber sect
    have hin := inProgress_save hprogress hlong heligible hformed hcarried hindex hsect hnew
    unfold savedTable
    generalize (demux.compared pid found).save found.sectionNumber sect = saved at hagree hin ⊢
    rw [← List.append_assoc]
    rcases saved.notify_cases handlers.handleTable.isSome with
      hnothing | ⟨hnotified, hreceived, hvalid, hnotify⟩
    · rw [hnothing]
      rcases tableEvents_cases handlers pid found.etid none with hnone | ⟨built, hbuilt, -⟩
      · rw [hnone, List.append_nil]
        exact hagree
      · cases hbuilt
    · rw [hnotify]
      rcases tableEvents_cases handlers pid found.etid (some saved.build) with
        hnone | ⟨built, hbuilt, hone⟩
      · rw [hnone]
        refine hagree.append (fun hstill ↦ ?_) fun table ↦ List.not_mem_nil
        rw [hnotified] at hstill
        cases hstill
      · obtain rfl := Option.some.inj hbuilt
        obtain ⟨-, hversion, hexpected⟩ := hin.delivered hreceived hvalid
        rw [hone]
        exact hagree.table hnotified hexpected hversion

end OneSection

/-! ### The packets -/

/-- A demux agrees with the packets it was fed with. -/
structure Traced (demux : SectionDemux State) (packets : List TSPacket) (log : List DemuxEvent) :
    Prop where
  unsynchronized : ∀ pid, (demux.pids pid).sync = false → (demux.pids pid).ts = []
  carried : ∀ pid, CarriedLast pid packets (demux.pids pid).ts
  progress : ∀ pid etid, etid.isLong = true →
    TableInProgress pid etid packets ((demux.pids pid).tids etid)
  settled : ∀ pid etid, etid.isLong = true → Settled pid etid ((demux.pids pid).tids etid) log
  delivered : ∀ pid etid table, .table pid etid table ∈ log → Delivered pid etid packets table

/-- The same tables, and the same buffer or none. -/
structure Follows (context next : PIDContext) : Prop where
  tids : next.tids = context.tids
  unsynchronized : next.sync = false → next.ts = []
  ts : next.ts = [] ∨ next.ts = context.ts

variable {demux : SectionDemux State} {packets : List TSPacket} {log : List DemuxEvent}

theorem traced_new (pidFilter : ℕ → Bool) (application : State) (getCurrent getNext : Bool) :
    ({ new pidFilter application with getCurrent, getNext } : SectionDemux State).Traced [] [] where
  unsynchronized _ _ := rfl
  carried pid := carriedLast_nil pid []
  progress _ _ _ := tableInProgress_empty
  settled _ _ _ := ⟨by simp, by simp⟩
  delivered _ _ _ hmem := absurd hmem List.not_mem_nil

theorem Traced.append (htraced : demux.Traced packets log) (more : List TSPacket) :
    demux.Traced (packets ++ more) log where
  unsynchronized := htraced.unsynchronized
  carried pid := (htraced.carried pid).append more
  progress pid etid hlong := (htraced.progress pid etid hlong).append more
  settled := htraced.settled
  delivered pid etid table hmem := (htraced.delivered pid etid table hmem).append more

theorem Traced.setPID (htraced : demux.Traced packets log) {next : SectionDemux State} {pid : ℕ}
    {context : PIDContext} (hnext : next.pids = Function.update demux.pids pid context)
    (htids : context.tids = (demux.pids pid).tids) (hsync : context.sync = false → context.ts = [])
    (hts : CarriedLast pid packets context.ts) : next.Traced packets log := by
  have hcontext : ∀ other, next.pids other = context ∧ other = pid ∨
      next.pids other = demux.pids other := by
    intro other
    rw [hnext]
    by_cases hother : other = pid
    · subst hother
      exact Or.inl ⟨Function.update_self .., rfl⟩
    · exact Or.inr (Function.update_of_ne hother ..)
  have htables : ∀ other, (next.pids other).tids = (demux.pids other).tids := by
    intro other
    rcases hcontext other with ⟨hsame, rfl⟩ | hsame
    · rw [hsame, htids]
    · rw [hsame]
  constructor
  · intro other hother
    rcases hcontext other with ⟨hsame, rfl⟩ | hsame
    · rw [hsame] at hother ⊢
      exact hsync hother
    · rw [hsame] at hother ⊢
      exact htraced.unsynchronized other hother
  · intro other
    rcases hcontext other with ⟨hsame, rfl⟩ | hsame
    · rw [hsame]
      exact hts
    · rw [hsame]
      exact htraced.carried other
  · intro other etid hlong
    rw [htables]
    exact htraced.progress other etid hlong
  · intro other etid hlong
    rw [htables]
    exact htraced.settled other etid hlong
  · exact htraced.delivered

theorem Traced.analyzed (htraced : demux.Traced packets log) {pid : ℕ} {found : Found}
    {next : SectionDemux State} {context : ETIDContext} {events : List DemuxEvent}
    (hsame : demux.SameExcept next pid found.etid context)
    (hanalyzed : demux.Analyzed handlers pid found context events) (hformed : found.IsWellFormed)
    (hcarried : CarriedLast pid packets found.data) :
    next.Traced packets (log ++ events) ∧ (next.pids pid).sync = (demux.pids pid).sync := by
  have hprogress : found.isLong = true →
      TableInProgress pid found.etid packets ((demux.pids pid).tids found.etid) := by
    intro hlong
    apply htraced.progress
    rw [found.isLong_etid, hlong]
  have hbuffer : ∀ other, (next.pids other).sync = (demux.pids other).sync ∧
      (next.pids other).ts = (demux.pids other).ts := by
    intro other
    rw [hsame.pids]
    by_cases hother : other = pid
    · subst hother
      rw [Function.update_self]
      exact ⟨rfl, rfl⟩
    · rw [Function.update_of_ne hother]
      exact ⟨rfl, rfl⟩
  have htable : ∀ other etid, (other = pid ∧ etid = found.etid) ∧
        (next.pids other).tids etid = context ∨
      ¬ (other = pid ∧ etid = found.etid) ∧
        (next.pids other).tids etid = (demux.pids other).tids etid := by
    intro other etid
    rw [hsame.pids]
    by_cases hother : other = pid
    · subst hother
      rw [Function.update_self]
      by_cases hetid : etid = found.etid
      · subst hetid
        exact Or.inl ⟨⟨rfl, rfl⟩, Function.update_self ..⟩
      · exact Or.inr ⟨fun hboth ↦ hetid hboth.2, Function.update_of_ne hetid ..⟩
    · rw [Function.update_of_ne hother]
      exact Or.inr ⟨fun hboth ↦ hother hboth.1, rfl⟩
  refine ⟨⟨?_, ?_, ?_, ?_, ?_⟩, (hbuffer pid).1⟩
  · intro other hother
    rw [(hbuffer other).1] at hother
    rw [(hbuffer other).2]
    exact htraced.unsynchronized other hother
  · intro other
    rw [(hbuffer other).2]
    exact htraced.carried other
  · intro other etid hlong
    rcases htable other etid with ⟨⟨rfl, rfl⟩, hcontext⟩ | ⟨-, hcontext⟩
    · rw [found.isLong_etid] at hlong
      rw [hcontext]
      exact hanalyzed.inProgress hformed hcarried hlong (hprogress hlong)
    · rw [hcontext]
      exact htraced.progress other etid hlong
  · intro other etid hlong
    have hold := htraced.settled other etid hlong
    rcases htable other etid with ⟨⟨rfl, rfl⟩, hcontext⟩ | ⟨hne, hcontext⟩
    · rw [found.isLong_etid] at hlong
      rw [hcontext]
      exact hanalyzed.settled hformed hcarried hlong (hprogress hlong) hold
    · rw [hcontext]
      refine hold.append (fun hnotified hexpected ↦ ⟨hnotified, rfl, hexpected⟩)
        fun table hmem ↦ hne ?_
      obtain ⟨hpid, hetid, -⟩ := hanalyzed.delivered hformed hcarried hprogress hmem
      exact ⟨hpid, hetid⟩
  · intro other etid table hmem
    rcases List.mem_append.mp hmem with hbefore | hnew
    · exact htraced.delivered other etid table hbefore
    · obtain ⟨rfl, rfl, hdelivered⟩ := hanalyzed.delivered hformed hcarried hprogress hnew
      exact hdelivered

theorem Follows.refl {context : PIDContext} (hsync : context.sync = false → context.ts = []) :
    Follows context context :=
  ⟨rfl, hsync, Or.inr rfl⟩

theorem follows_syncLost (context : PIDContext) : Follows context context.syncLost :=
  ⟨rfl, fun _ ↦ rfl, Or.inl rfl⟩

/-- The context is synchronous when something is appended. -/
def Proceeds (demux : SectionDemux State) (pkt : TSPacket) (accepted : Accepted State) : Prop :=
  ∃ next, Follows (demux.pids pkt.getPID) next ∧
    accepted.demux.pids = Function.update demux.pids pkt.getPID next ∧
      ∀ data, accepted.data = some data → next.sync = true ∧
        (data = pkt.sectionData ∨ next.ts = [] ∧ data <:+ pkt.sectionData)

variable {pkt : TSPacket}

theorem proceeds_refused {next : PIDContext} {changed : SectionDemux State}
    (hfollows : Follows (demux.pids pkt.getPID) next)
    (hchanged : changed.pids = Function.update demux.pids pkt.getPID next) :
    demux.Proceeds pkt (refused changed) :=
  ⟨next, hfollows, hchanged, fun _ hdata ↦ by cases hdata⟩

theorem proceeds_acceptPayload
    (hsync : (demux.pids pkt.getPID).sync = false → (demux.pids pkt.getPID).ts = []) :
    demux.Proceeds pkt (demux.acceptPayload pkt) := by
  obtain ⟨context, hcontext⟩ : ∃ context, demux.pids pkt.getPID = context := ⟨_, rfl⟩
  have hlost : ((demux.setPID pkt.getPID { context with pusiPktIndex := demux.packetCount }).lose
      pkt.getPID).pids = Function.update demux.pids pkt.getPID
        { context with pusiPktIndex := demux.packetCount, sync := false, ts := [] } := by
    show Function.update (Function.update demux.pids pkt.getPID _) pkt.getPID
      (Function.update demux.pids pkt.getPID _ pkt.getPID).syncLost = _
    rw [Function.update_self, Function.update_idem]
    rfl
  have hrefused : demux.Proceeds pkt (refused ((demux.setPID pkt.getPID
      { context with pusiPktIndex := demux.packetCount }).lose pkt.getPID)) := by
    refine proceeds_refused ?_ hlost
    rw [hcontext]
    exact ⟨rfl, fun _ ↦ rfl, Or.inl rfl⟩
  rw [hcontext] at hsync
  unfold acceptPayload
  simp only [hcontext]
  by_cases hpusi : pkt.getPUSI = true
  · rw [if_pos hpusi]
    by_cases hpes : pkt.startsPES = true
    · rw [if_pos hpes]
      exact hrefused
    · rw [if_neg hpes]
      by_cases hpointer : pkt.sectionData.length ≤ pkt.pointerField
      · rw [if_pos hpointer]
        exact hrefused
      · rw [if_neg hpointer]
        by_cases hinSync : context.sync = true
        · rw [if_pos hinSync]
          refine ⟨{ context with pusiPktIndex := demux.packetCount }, ?_, rfl, ?_⟩
          · rw [hcontext]
            exact ⟨rfl, hsync, Or.inr rfl⟩
          · intro data hdata
            obtain rfl := Option.some.inj hdata
            exact ⟨hinSync, Or.inl rfl⟩
        · rw [if_neg hinSync]
          rw [Bool.not_eq_true] at hinSync
          refine ⟨{ context with pusiPktIndex := demux.packetCount, sync := true }, ?_, ?_, ?_⟩
          · rw [hcontext]
            exact ⟨rfl, nofun, Or.inr rfl⟩
          · exact Function.update_idem ..
          · intro data hdata
            obtain rfl := Option.some.inj hdata
            exact ⟨rfl, Or.inr ⟨hsync hinSync, List.drop_suffix _ _⟩⟩
  · rw [if_neg hpusi]
    have hself : demux.pids = Function.update demux.pids pkt.getPID context := by
      rw [← hcontext, Function.update_eq_self]
    have hsame : Follows (demux.pids pkt.getPID) context := by
      rw [hcontext]
      exact Follows.refl hsync
    by_cases hinSync : context.sync = true
    · rw [if_pos hinSync]
      refine ⟨context, hsame, hself, fun data hdata ↦ ?_⟩
      obtain rfl := Option.some.inj hdata
      exact ⟨hinSync, Or.inl rfl⟩
    · rw [if_neg hinSync]
      exact proceeds_refused hsame hself

theorem follows_follow (hsync : (demux.pids pkt.getPID).sync = false → (demux.pids pkt.getPID).ts = []) :
    ∃ next, Follows (demux.pids pkt.getPID) next ∧
      (demux.follow pkt).pids = Function.update demux.pids pkt.getPID next := by
  unfold follow
  dsimp only
  split_ifs
  · exact ⟨{ (demux.pids pkt.getPID).syncLost with continuity := pkt.getCC },
      ⟨rfl, fun _ ↦ rfl, Or.inl rfl⟩, rfl⟩
  · exact ⟨{ demux.pids pkt.getPID with continuity := pkt.getCC }, ⟨rfl, hsync, Or.inr rfl⟩, rfl⟩

theorem proceeds_accept (hsync : (demux.pids pkt.getPID).sync = false → (demux.pids pkt.getPID).ts = []) :
    demux.Proceeds pkt (demux.accept pkt) := by
  have hself : demux.pids = Function.update demux.pids pkt.getPID (demux.pids pkt.getPID) := by
    rw [Function.update_eq_self]
  unfold accept
  by_cases hvalid : pkt.hasValidSync = false
  · rw [if_pos hvalid]
    exact proceeds_refused (Follows.refl hsync) hself
  rw [if_neg hvalid]
  by_cases hscrambled : pkt.getScrambling ≠ 0
  · rw [if_pos hscrambled]
    exact proceeds_refused (follows_syncLost _) rfl
  rw [if_neg hscrambled]
  by_cases hduplicate : (demux.pids pkt.getPID).sync = true ∧
      pkt.getCC = (demux.pids pkt.getPID).continuity
  · rw [if_pos hduplicate]
    exact proceeds_refused (Follows.refl hsync) hself
  rw [if_neg hduplicate]
  obtain ⟨followed, hfollowed, hpids⟩ := follows_follow hsync
  dsimp only
  by_cases hempty : pkt.hasPayload = false ∨ pktSize ≤ pkt.getHeaderSize
  · rw [if_pos hempty]
    exact proceeds_refused hfollowed hpids
  · rw [if_neg hempty]
    have hcontext : (demux.follow pkt).pids pkt.getPID = followed := by
      rw [hpids, Function.update_self]
    obtain ⟨next, hnext, hupdate, hdata⟩ := proceeds_acceptPayload
      (show ((demux.follow pkt).pids pkt.getPID).sync = false → _ by
        rw [hcontext]
        exact hfollowed.unsynchronized)
    rw [hcontext] at hnext
    rw [hpids, Function.update_idem] at hupdate
    refine ⟨next, ⟨hnext.tids.trans hfollowed.tids, hnext.unsynchronized, ?_⟩, hupdate, hdata⟩
    rcases hnext.ts with hnone | hsame
    · exact Or.inl hnone
    · rw [hsame]
      exact hfollowed.ts

/-! ### Every run -/

theorem Traced.processPacket (hresets : handlers.NeverResets) (htraced : demux.Traced packets log)
    (pkt : TSPacket) :
    (demux.processPacket handlers pkt).1.Traced (packets ++ [pkt])
      (log ++ (demux.processPacket handlers pkt).2) := by
  obtain ⟨next, hfollows, hpids, hdata⟩ := proceeds_accept (htraced.unsynchronized pkt.getPID)
  have hts : CarriedLast pkt.getPID packets next.ts := by
    rcases hfollows.ts with hnone | hsame
    · rw [hnone]
      exact carriedLast_nil _ _
    · rw [hsame]
      exact htraced.carried pkt.getPID
  have haccepted : (demux.accept pkt).demux.Traced (packets ++ [pkt]) log :=
    (htraced.setPID hpids hfollows.tids hfollows.unsynchronized hts).append [pkt]
  have hcontext : (demux.accept pkt).demux.pids pkt.getPID = next := by
    rw [hpids, Function.update_self]
  unfold SectionDemux.processPacket
  dsimp only
  cases hpayload : (demux.accept pkt).data with
  | none =>
    dsimp only
    rw [List.append_nil]
    exact haccepted
  | some data =>
    obtain ⟨hsync, hmore⟩ := hdata data hpayload
    dsimp only
    rw [hcontext]
    have hbuffer : CarriedLast pkt.getPID (packets ++ [pkt]) (next.ts ++ data) :=
      hts.concat rfl hmore
    refine collect_rule hresets
      (fun demux data _ _ reported ↦ demux.Traced (packets ++ [pkt]) (log ++ reported) ∧
        (demux.pids pkt.getPID).sync = true ∧ CarriedLast pkt.getPID (packets ++ [pkt]) data)
      (fun demux reported ↦ demux.Traced (packets ++ [pkt]) (log ++ reported))
      ?_ ?_ ?_ [] le_rfl ⟨?_, ?_, hbuffer⟩
    · rintro demux data toPusi firstPkt reported next events table ⟨htraced, hsync, hcarried⟩ -
        hvalid hlength hsame hanalyzed
      have hfound : (findSection data toPusi firstPkt).data = data := by
        unfold findSection
        split_ifs <;> rfl
      obtain ⟨hnext, hstill⟩ := htraced.analyzed hsame hanalyzed
        (isWellFormed_findSection hvalid hlength toPusi firstPkt) (by rw [hfound]; exact hcarried)
      rw [← List.append_assoc]
      refine ⟨hnext, hstill.trans hsync, hcarried.suffix ?_⟩
      unfold skipStuffing
      split_ifs
      · exact List.nil_suffix
      · exact List.drop_suffix _ _
    · rintro demux data toPusi firstPkt reported ⟨htraced, hsync, hcarried⟩ -
      refine htraced.setPID rfl rfl (fun hlost ↦ ?_) hcarried
      rw [hsync] at hlost
      cases hlost
    · rintro demux data toPusi firstPkt reported ⟨htraced, -, -⟩ - -
      exact htraced.setPID rfl rfl (fun _ ↦ rfl) (carriedLast_nil _ _)
    · rw [List.append_nil]
      exact haccepted
    · rw [hcontext]
      exact hsync

theorem Traced.feedPacket (hresets : handlers.NeverResets) (htraced : demux.Traced packets log)
    (pkt : TSPacket) :
    (demux.feedPacket handlers pkt).1.Traced (packets ++ [pkt])
      (log ++ (demux.feedPacket handlers pkt).2) := by
  have hcount : ∀ {next : SectionDemux State} {events : List DemuxEvent},
      next.Traced (packets ++ [pkt]) events →
        ({ next with packetCount := next.packetCount + 1 } : SectionDemux State).Traced
          (packets ++ [pkt]) events :=
    fun hnext ↦ ⟨hnext.unsynchronized, hnext.carried, hnext.progress, hnext.settled, hnext.delivered⟩
  unfold SectionDemux.feedPacket
  by_cases hfilter : demux.pidFilter pkt.getPID = true
  · rw [if_pos hfilter]
    exact hcount (htraced.processPacket hresets pkt)
  · rw [if_neg hfilter]
    dsimp only
    rw [List.append_nil]
    exact hcount (htraced.append [pkt])

/-- Assumes: handlers that never reset the demux. Each table which is given is valid and made of all
its sections, which the packets have carried with a correct CRC32; and between two deliveries of a
table of long sections, another version is seen. -/
theorem tables_delivered (hresets : handlers.NeverResets) (pidFilter : ℕ → Bool)
    (application : State) (getCurrent getNext : Bool) {packets : List TSPacket}
    {last : SectionDemux State} {log : List DemuxEvent}
    (hrun : (machine handlers).run { new pidFilter application with getCurrent, getNext } packets =
      some (last, log)) :
    (∀ pid etid table, .table pid etid table ∈ log → Delivered pid etid packets table) ∧
      DeliveredOnce log := by
  have hfeed : ∀ (demux : SectionDemux State) (pkt : TSPacket) (next : SectionDemux State)
      (passed : List TSPacket) (reported outputs : List DemuxEvent),
        demux.Traced passed reported → (machine handlers).step demux pkt = some (next, outputs) →
          next.Traced (passed ++ [pkt]) (reported ++ outputs) := by
    intro demux pkt next passed reported outputs hpassed hstep
    obtain ⟨rfl, rfl⟩ := Prod.mk.inj (Option.some.inj hstep)
    exact hpassed.feedPacket hresets pkt
  have htraced := (machine handlers).run_trace hfeed
    (traced_new pidFilter application getCurrent getNext) hrun
  rw [List.nil_append, List.nil_append] at htraced
  exact ⟨htraced.delivered, fun pid etid hlong ↦ (htraced.settled pid etid hlong).once⟩

def countingHandlers : DemuxHandlers ℕ where
  handleTable := some fun count _ ↦ (count + 1, [])
  handleSection := none

def tablePacket : TSPacket where
  bytes := packetHeader true 0x100 0 ++ [0x00] ++
    Section.withCrc32 [0x80, 0xB0, 0x09, 0x00, 0x01, 0xC1, 0x00, 0x00, 0x00, 0x00, 0x00, 0x00] ++
      List.replicate 171 0xFF
  length_eq := rfl

/-- The table of the packet is delivered. -/
theorem tablePacket_delivered : ∃ last log, (machine countingHandlers).run
    (new (fun _ ↦ true) 0) [tablePacket] = some (last, log) ∧ last.application = 1 ∧
      (∀ pid etid table, .table pid etid table ∈ log → Delivered pid etid [tablePacket] table) ∧
        DeliveredOnce log := by
  have hrun : ∀ demux pkt, (machine countingHandlers).run demux [pkt] =
      some ((demux.feedPacket countingHandlers pkt).1,
        (demux.feedPacket countingHandlers pkt).2 ++ []) :=
    fun _ _ ↦ rfl
  have hresets : countingHandlers.NeverResets := by
    constructor
    · intro handle hhandle state table
      obtain rfl := Option.some.inj hhandle
      rfl
    · intro handle hhandle
      cases hhandle
  refine ⟨_, _, hrun _ _, ?_, tables_delivered hresets _ _ true false (hrun _ _)⟩
  decide +kernel

end SectionDemux

end TSDuck
