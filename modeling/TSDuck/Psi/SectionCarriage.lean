import TSDuck.Psi.SectionBuffer

/-!
# Packets that carry sections

A legal packing of sections in the packets of a PID: a section starts in a packet with a payload unit
start, where its pointer field points, it is cut anywhere, its header included, and after the last
section of a packet there may be stuffing. `PacketCarries` is one packet, with the sections whose last byte
is in it, from what has been received on the PID so far. `CarriesAll` is a sequence of packets on
several PID's.

`SectionDemux.feedPacket_carries` states that a demux gives these sections to its section handler, in
order and with the same bytes.

Scope. A packet of a PID on which no section has started yet is arbitrary, provided that no payload
starts in it. Packets without payload and duplicate packets have the continuity counter of the packet
before them.
-/

namespace TSDuck

/-- The last counter and the start of a section. -/
abbrev Reception := Option (UInt8 × ByteBlock)

/-- The start of a section, or stuffing. -/
inductive PayloadTail (sections : List Section) : ByteBlock → ByteBlock → Prop
  | started (sect : Section) (size : ℕ) (hsect : sect.Transportable) (hsize : size < sect.size) :
    PayloadTail sections (sect.content.take size) (sect.content.take size)
  | stuffing (count : ℕ) (hsections : sections ≠ []) :
    PayloadTail sections (List.replicate count 0xFF) []

structure TSPacket.IsPayload (pkt : TSPacket) : Prop where
  hasValidSync : pkt.hasValidSync = true
  getScrambling : pkt.getScrambling = 0
  hasPayload : pkt.hasPayload = true
  getHeaderSize : pkt.getHeaderSize < pktSize

/-- The sections whose last bytes are in a packet. -/
inductive PacketCarries : Reception → TSPacket → List Section → Reception → Prop
  | waiting {pkt : TSPacket} (hstart : pkt.getPUSI = false ∨ pkt.hasPayload = false)
    (hsync : pkt.hasValidSync = true) (hscrambling : pkt.getScrambling = 0) :
    PacketCarries none pkt [] none
  | repeated {pkt : TSPacket} (started : ByteBlock) (hsync : pkt.hasValidSync = true)
    (hscrambling : pkt.getScrambling = 0) :
    PacketCarries (some (pkt.getCC, started)) pkt [] (some (pkt.getCC, started))
  | first {pkt : TSPacket} {sections : List Section} {tail started : ByteBlock}
    (hpayload : pkt.IsPayload) (hstart : pkt.getPUSI = true)
    (hpointer : pkt.pointerField < pkt.sectionData.length)
    (hdata : pkt.sectionData.drop pkt.pointerField = sections.flatMap Section.content ++ tail)
    (htail : PayloadTail sections tail started)
    (hsections : ∀ sect ∈ sections, sect.Transportable) :
    PacketCarries none pkt sections (some (pkt.getCC, started))
  | next {counter : UInt8} {pkt : TSPacket} {sections : List Section}
    {before tail started : ByteBlock} (hpayload : pkt.IsPayload)
    (hcounter : pkt.getCC.toNat = (counter.toNat + 1) % ccMax)
    (hstart : if pkt.getPUSI then
        pkt.pointerField < pkt.sectionData.length ∧
          (before = [] ∧ pkt.pointerField = 0 ∨ before ≠ [] ∧ 0 < pkt.pointerField ∧
            ∀ first ∈ sections.head?, before.length + pkt.pointerField = first.size)
      else before ≠ [])
    (hdata : before ++ pkt.sectionData = sections.flatMap Section.content ++ tail)
    (htail : PayloadTail sections tail started)
    (hsections : ∀ sect ∈ sections, sect.Transportable) :
    PacketCarries (some (counter, before)) pkt sections (some (pkt.getCC, started))

theorem PacketCarries.transportable {received next : Reception} {pkt : TSPacket}
    {sections : List Section} (hcarries : PacketCarries received pkt sections next) :
    ∀ sect ∈ sections, sect.Transportable := by
  cases hcarries with
  | waiting => exact fun _ hsect ↦ absurd hsect List.not_mem_nil
  | repeated => exact fun _ hsect ↦ absurd hsect List.not_mem_nil
  | first _ _ _ _ _ hsections => exact hsections
  | next _ _ _ _ _ hsections => exact hsections

/-- A packet, with the sections whose last byte is in it. -/
structure CarriedPacket where
  packet : TSPacket
  sections : List Section

/-- Packets carry sections on some PID's, and none on the other PID's. -/
inductive CarriesAll (carrying : ℕ → Bool) :
    (ℕ → Reception) → List CarriedPacket → (ℕ → Reception) → Prop
  | nil (received : ℕ → Reception) : CarriesAll carrying received [] received
  | carried {received last : ℕ → Reception} {carried : CarriedPacket} {rest : List CarriedPacket}
    {next : Reception} (hpid : carrying carried.packet.getPID = true)
    (hcarries : PacketCarries (received carried.packet.getPID) carried.packet carried.sections next)
    (hrest : CarriesAll carrying (Function.update received carried.packet.getPID next) rest last) :
    CarriesAll carrying received (carried :: rest) last
  | other {received last : ℕ → Reception} {pkt : TSPacket} {rest : List CarriedPacket}
    (hpid : carrying pkt.getPID = false) (hrest : CarriesAll carrying received rest last) :
    CarriesAll carrying received (⟨pkt, []⟩ :: rest) last

variable {received last : ℕ → Reception} {packets : List CarriedPacket}

theorem CarriesAll.split {carrying : ℕ → Bool} {others : List CarriedPacket}
    (hcarries : CarriesAll carrying received (packets ++ others) last) :
    ∃ middle, CarriesAll carrying received packets middle ∧
      CarriesAll carrying middle others last := by
  induction packets generalizing received with
  | nil => exact ⟨received, .nil received, hcarries⟩
  | cons first rest ih =>
    cases hcarries with
    | carried hpid hpacket hrest =>
      obtain ⟨middle, hmiddle, hothers⟩ := ih hrest
      exact ⟨middle, .carried hpid hpacket hmiddle, hothers⟩
    | other hpid hrest =>
      obtain ⟨middle, hmiddle, hothers⟩ := ih hrest
      exact ⟨middle, .other hpid hmiddle, hothers⟩

def startedBytes (received : Reception) : ℕ :=
  (received.map fun position ↦ position.2.length).getD 0

theorem length_carried {received next : Reception} {pkt : TSPacket} {sections : List Section}
    (hcarries : PacketCarries received pkt sections next) :
    (sections.flatMap Section.content).length + startedBytes next ≤ startedBytes received + 184 := by
  have hdata : pkt.IsPayload → pkt.sectionData.length ≤ 184 := by
    intro hpayload
    have hheader : 4 ≤ pkt.getHeaderSize := by
      unfold TSPacket.getHeaderSize pktSize
      omega
    unfold TSPacket.sectionData
    rw [List.length_drop, pkt.length_eq, pktSize]
    omega
  have htail : ∀ {tail started : ByteBlock}, PayloadTail sections tail started →
      started.length ≤ tail.length := by
    intro tail started hstarted
    cases hstarted with
    | started => exact le_rfl
    | stuffing => exact Nat.zero_le _
  cases hcarries with
  | waiting => exact Nat.zero_le _
  | repeated => exact (Nat.zero_add _).trans_le (Nat.le_add_right _ _)
  | @first _ _ tail started hpayload _ _ hsplit hstarted =>
    have hlength := congrArg List.length hsplit
    rw [List.length_drop, List.length_append] at hlength
    have hless := htail hstarted
    have hall := hdata hpayload
    show _ + started.length ≤ 0 + 184
    omega
  | @next _ _ _ before tail started hpayload _ _ hsplit hstarted =>
    have hlength := congrArg List.length hsplit
    rw [List.length_append, List.length_append] at hlength
    have hless := htail hstarted
    have hall := hdata hpayload
    show _ + started.length ≤ before.length + 184
    omega

theorem CarriesAll.length_le {pid : ℕ} (hcarries : CarriesAll (· == pid) received packets last) :
    ((packets.flatMap CarriedPacket.sections).flatMap Section.content).length ≤
      startedBytes (received pid) + 184 * packets.length := by
  induction hcarries with
  | nil => exact Nat.zero_le _
  | @carried received last first rest next hpid hpacket _ ih =>
    have hfirst := length_carried hpacket
    rw [beq_iff_eq] at hpid
    rw [hpid] at hfirst
    rw [hpid, Function.update_self] at ih
    rw [List.flatMap_cons, List.flatMap_append, List.length_append, List.length_cons]
    omega
  | @other received last pkt rest hpid _ ih =>
    rw [List.flatMap_cons, List.nil_append, List.length_cons]
    omega

theorem CarriesAll.nothing {pid : ℕ} (hcarries : CarriesAll (· == pid) received packets last)
    (hothers : ∀ carried ∈ packets, carried.packet.getPID ≠ pid) :
    packets.flatMap CarriedPacket.sections = [] ∧ last = received := by
  induction hcarries with
  | nil => exact ⟨rfl, rfl⟩
  | @carried received last first rest next hpid hpacket _ ih =>
    exact absurd (beq_iff_eq.mp hpid) (hothers first List.mem_cons_self)
  | @other received last pkt rest hpid _ ih =>
    exact ih (List.forall_mem_cons.mp hothers).2

namespace SectionDemux

variable {State : Type} {handlers : DemuxHandlers State}

theorem skipStuffing_of_tail {sections : List Section} {tail started : ByteBlock}
    (htail : PayloadTail sections tail started) :
    skipStuffing tail = started ∧ (sections = [] → started = tail) := by
  cases htail with
  | started sect size hsect hsize => exact ⟨skipStuffing_take hsect size, fun _ ↦ rfl⟩
  | stuffing count hsections =>
    refine ⟨?_, fun hnone ↦ absurd hnone hsections⟩
    cases count with
    | zero => rfl
    | succ count => rfl

theorem startsSection_of_tail {sections : List Section} {tail started : ByteBlock}
    (htail : PayloadTail sections tail started) : StartsSection started := by
  cases htail with
  | started sect size hsect hsize =>
    refine ⟨sect, sect.content.drop size, (List.take_append_drop _ _).symm, ?_⟩
    rw [ne_eq, List.drop_eq_nil_iff]
    exact Nat.not_le_of_lt hsize
  | stuffing count hsections =>
    obtain ⟨sect, -⟩ := List.exists_mem_of_ne_nil sections hsections
    exact ⟨sect, sect.content, rfl, List.ne_nil_of_length_pos sect.size_pos⟩

theorem not_pes_of_tail {sections : List Section} {tail started data : ByteBlock}
    (hdata : data = sections.flatMap Section.content ++ tail) (hsize : 2 ≤ data.length)
    (htail : PayloadTail sections tail started) (hsections : ∀ sect ∈ sections, sect.Transportable) :
    ¬ (byteAt data 0 = 0x00 ∧ byteAt data 1 = 0x01) := by
  subst hdata
  cases sections with
  | cons sect others =>
    have hthree := three_le_size sect
    rw [List.flatMap_cons, List.append_assoc, byteAt_append_left _ (by omega),
      byteAt_append_left _ (by omega)]
    exact (hsections sect List.mem_cons_self).not_pes
  | nil =>
    cases htail with
    | stuffing count hnone => exact absurd rfl hnone
    | started sect size hsect hless =>
      rw [List.flatMap_nil, List.nil_append, List.length_take] at hsize
      rw [List.flatMap_nil, List.nil_append, byteAt_take _ (by omega), byteAt_take _ (by omega)]
      exact hsect.not_pes

/-! ### One packet -/

/-- A demux has received what the packets have carried. -/
structure Receives (demux : SectionDemux State) (pid : ℕ) (received : Reception)
    (announced : Announcements) : Prop where
  waiting : received = none → (demux.pids pid).sync = false ∧ (demux.pids pid).ts = []
  synchronous : ∀ counter started, received = some (counter, started) →
    (demux.pids pid).sync = true ∧ (demux.pids pid).continuity = counter ∧
      (demux.pids pid).ts = started
  agrees : Agrees (demux.pids pid).tids announced

theorem receives_new (pidFilter : ℕ → Bool) (application : State) (pid : ℕ) :
    (new pidFilter application).Receives pid none fun _ ↦ none :=
  ⟨fun _ ↦ ⟨rfl, rfl⟩, fun _ _ hposition ↦ absurd hposition (Option.some_ne_none _).symm,
    fun _ ↦ Or.inl rfl⟩

structure ChangesOnly (demux next : SectionDemux State) (pid : ℕ) : Prop where
  pidFilter : next.pidFilter = demux.pidFilter
  getCurrent : next.getCurrent = demux.getCurrent
  others : ∀ other, other ≠ pid → next.pids other = demux.pids other

theorem ChangesOnly.trans {demux middle next : SectionDemux State} {pid : ℕ}
    (hfirst : demux.ChangesOnly middle pid) (hsecond : middle.ChangesOnly next pid) :
    demux.ChangesOnly next pid :=
  ⟨hsecond.pidFilter.trans hfirst.pidFilter, hsecond.getCurrent.trans hfirst.getCurrent,
    fun other hother ↦ (hsecond.others other hother).trans (hfirst.others other hother)⟩

theorem changesOnly_setPID (demux : SectionDemux State) (pid : ℕ) (context : PIDContext) :
    demux.ChangesOnly (demux.setPID pid context) pid :=
  ⟨rfl, rfl, fun _ hother ↦ Function.update_of_ne hother _ _⟩

section Accept

variable {demux : SectionDemux State} {pkt : TSPacket} (hpayload : pkt.IsPayload)

include hpayload

theorem accept_of_follows (hfollows : (demux.pids pkt.getPID).sync = true →
      pkt.getCC.toNat = ((demux.pids pkt.getPID).continuity.toNat + 1) % ccMax) :
    demux.accept pkt = (demux.setPID pkt.getPID
      { demux.pids pkt.getPID with continuity := pkt.getCC }).acceptPayload pkt := by
  obtain ⟨hvalid, hscrambling, hhas, hsize⟩ := hpayload
  have hnotSame : ¬ ((demux.pids pkt.getPID).sync = true ∧
      pkt.getCC = (demux.pids pkt.getPID).continuity) := by
    rintro ⟨hsync, hsame⟩
    have hnext := hfollows hsync
    rw [← hsame] at hnext
    unfold ccMax at hnext
    omega
  have hfollow : demux.follow pkt =
      demux.setPID pkt.getPID { demux.pids pkt.getPID with continuity := pkt.getCC } := by
    unfold follow
    refine if_neg ?_
    rintro ⟨hsync, hother⟩
    exact hother (hfollows hsync)
  unfold accept
  rw [if_neg (by rw [hvalid]; decide), if_neg (not_not.mpr hscrambling), if_neg hnotSame]
  dsimp only
  rw [hfollow]
  refine if_neg ?_
  rw [hhas]
  rintro (hnone | hfull)
  · cases hnone
  · exact absurd hsize (Nat.not_lt_of_le hfull)

/-- On a synchronous PID, a payload that follows the last one is accepted. -/
theorem accept_next (hsync : (demux.pids pkt.getPID).sync = true)
    (hcounter : pkt.getCC.toNat = ((demux.pids pkt.getPID).continuity.toNat + 1) % ccMax)
    (hpointer : pkt.getPUSI = true →
      pkt.pointerField < pkt.sectionData.length ∧ pkt.startsPES = false) :
    ∃ next firstPkt index, demux.accept pkt =
          ⟨next, some pkt.sectionData, if pkt.getPUSI then pkt.pointerField else 0, firstPkt⟩ ∧
        demux.ChangesOnly next pkt.getPID ∧ next.pids pkt.getPID = { demux.pids pkt.getPID with
            continuity := pkt.getCC, sync := true, pusiPktIndex := index } := by
  rw [accept_of_follows hpayload fun _ ↦ hcounter]
  have hcontext : (demux.setPID pkt.getPID
      { demux.pids pkt.getPID with continuity := pkt.getCC }).pids pkt.getPID =
        { demux.pids pkt.getPID with continuity := pkt.getCC } := Function.update_self _ _ _
  have hchanges := demux.changesOnly_setPID pkt.getPID
    { demux.pids pkt.getPID with continuity := pkt.getCC }
  generalize demux.setPID pkt.getPID _ = followed at hcontext hchanges
  unfold acceptPayload
  rw [hcontext]
  dsimp only
  by_cases hpusi : pkt.getPUSI = true
  · obtain ⟨hinside, hnotPes⟩ := hpointer hpusi
    rw [if_pos hpusi, if_neg (by rw [hnotPes]; decide), if_neg (Nat.not_le_of_lt hinside),
      if_pos hsync, if_pos hpusi]
    refine ⟨_, _, followed.packetCount, rfl, hchanges.trans (followed.changesOnly_setPID _ _), ?_⟩
    rw [← hsync]
    exact Function.update_self _ _ _
  · rw [if_neg hpusi, if_pos hsync, if_neg hpusi]
    refine ⟨_, _, (demux.pids pkt.getPID).pusiPktIndex, rfl, hchanges, ?_⟩
    rw [hcontext, ← hsync]

/-- A payload is accepted from its first section on. -/
theorem accept_first (hsync : (demux.pids pkt.getPID).sync = false)
    (hpusi : pkt.getPUSI = true) (hinside : pkt.pointerField < pkt.sectionData.length)
    (hnotPes : pkt.startsPES = false) :
    ∃ next firstPkt index,
      demux.accept pkt = ⟨next, some (pkt.sectionData.drop pkt.pointerField), 0, firstPkt⟩ ∧
        demux.ChangesOnly next pkt.getPID ∧ next.pids pkt.getPID = { demux.pids pkt.getPID with
            continuity := pkt.getCC, sync := true, pusiPktIndex := index } := by
  have hnot : ¬ (demux.pids pkt.getPID).sync = true := by
    rw [hsync]
    decide
  rw [accept_of_follows hpayload fun his ↦ absurd his hnot]
  have hcontext : (demux.setPID pkt.getPID
      { demux.pids pkt.getPID with continuity := pkt.getCC }).pids pkt.getPID =
        { demux.pids pkt.getPID with continuity := pkt.getCC } := Function.update_self _ _ _
  have hchanges := demux.changesOnly_setPID pkt.getPID
    { demux.pids pkt.getPID with continuity := pkt.getCC }
  generalize demux.setPID pkt.getPID _ = followed at hcontext hchanges
  unfold acceptPayload
  rw [hcontext]
  dsimp only
  rw [if_pos hpusi, if_neg (by rw [hnotPes]; decide), if_neg (Nat.not_le_of_lt hinside), if_neg hnot]
  exact ⟨_, _, followed.packetCount, rfl,
    (hchanges.trans (followed.changesOnly_setPID _ _)).trans (changesOnly_setPID _ _ _),
    Function.update_self _ _ _⟩

end Accept

theorem accept_waiting {demux : SectionDemux State} {pkt : TSPacket}
    (hvalid : pkt.hasValidSync = true) (hscrambling : pkt.getScrambling = 0)
    (hsync : (demux.pids pkt.getPID).sync = false)
    (hstart : pkt.getPUSI = false ∨ pkt.hasPayload = false) :
    ∃ next, demux.accept pkt = refused next ∧ demux.ChangesOnly next pkt.getPID ∧
      next.pids pkt.getPID = { demux.pids pkt.getPID with continuity := pkt.getCC } := by
  have hnot : ¬ (demux.pids pkt.getPID).sync = true := by
    rw [hsync]
    decide
  have hfollow : demux.follow pkt =
      demux.setPID pkt.getPID { demux.pids pkt.getPID with continuity := pkt.getCC } :=
    if_neg fun h ↦ hnot h.1
  have hcontext : (demux.follow pkt).pids pkt.getPID =
      { demux.pids pkt.getPID with continuity := pkt.getCC } := by
    rw [hfollow]
    exact Function.update_self _ _ _
  refine ⟨demux.follow pkt, ?_, ?_, hcontext⟩
  · unfold accept
    rw [if_neg (by rw [hvalid]; decide), if_neg (not_not.mpr hscrambling), if_neg fun h ↦ hnot h.1]
    dsimp only
    by_cases hnone : pkt.hasPayload = false ∨ pktSize ≤ pkt.getHeaderSize
    · exact if_pos hnone
    · rw [if_neg hnone]
      obtain hpusi := hstart.resolve_right fun h ↦ hnone (Or.inl h)
      unfold acceptPayload
      rw [if_neg (by rw [hpusi]; decide), hcontext]
      exact if_neg hnot
  · rw [hfollow]
    exact demux.changesOnly_setPID _ _

theorem startsPES_eq_false {pkt : TSPacket} (hpusi : pkt.getPUSI = true)
    (hnot : pkt.pointerField = 0 → 2 ≤ pkt.sectionData.length →
      ¬ (byteAt pkt.sectionData 0 = 0x00 ∧ byteAt pkt.sectionData 1 = 0x01)) :
    pkt.startsPES = false := by
  by_contra hpes
  rw [Bool.not_eq_false] at hpes
  unfold TSPacket.startsPES at hpes
  simp only [Bool.and_eq_true, beq_iff_eq, decide_eq_true_eq] at hpes
  obtain ⟨⟨⟨hsize, hfield⟩, hfirst⟩, hsecond⟩ := hpes
  have hdata : pkt.sectionData = pkt.bytes.drop (pkt.getHeaderSize + 1) := by
    unfold TSPacket.sectionData
    rw [if_pos hpusi]
  have hlength := pkt.length_eq
  refine hnot ?_ ?_ ⟨?_, ?_⟩
  · unfold TSPacket.pointerField
    rw [hfield]
    rfl
  · rw [hdata, List.length_drop]
    omega
  · rw [hdata, byteAt_drop]
    exact hfirst
  · rw [hdata, byteAt_drop]
    exact hsecond

section OnePacket

variable {sections : List Section} {tail started : ByteBlock} {announced : Announcements}
  (happlication : HandlesSections handlers) (htail : PayloadTail sections tail started)
  (hsections : ∀ sect ∈ sections, sect.Transportable) (hconsistent : Consistent announced sections)

include happlication htail hsections hconsistent

theorem receives_collect {demux next : SectionDemux State} {pid index : ℕ} {counter : UInt8}
    (hcurrent : demux.getCurrent = true) (hagrees : Agrees (demux.pids pid).tids announced)
    (hchanges : demux.ChangesOnly next pid)
    (hcontext : next.pids pid =
      { demux.pids pid with continuity := counter, sync := true, pusiPktIndex := index })
    {data : ByteBlock} (hdata : data = sections.flatMap Section.content ++ tail) {toPusi : ℕ}
    (htoPusi : ∀ first ∈ sections.head?, toPusi = 0 ∨ toPusi = first.size) (firstPkt : ℕ) :
    let collected := collect handlers pid data.length next data toPusi firstPkt
    collected.1.Receives pid (some (counter, started))
        (sections.foldl Announcements.announce announced) ∧
      demux.ChangesOnly collected.1 pid ∧
        handledContents collected.2 = sections.map Section.content := by
  subst hdata
  obtain ⟨hskip, hstart⟩ := skipStuffing_of_tail htail
  have hagreesNext : Agrees (next.pids pid).tids announced := by
    rw [hcontext]
    exact hagrees
  obtain ⟨hhandled, hanalyzes, hts⟩ := collect_sections happlication hsections hconsistent
    (by rw [hskip]; exact startsSection_of_tail htail)
    (fun hnone ↦ hskip.trans (hstart hnone)) (hchanges.getCurrent.trans hcurrent) hagreesNext
    htoPusi le_rfl firstPkt
  refine ⟨⟨fun hnone ↦ absurd hnone (Option.some_ne_none _), ?_, hanalyzes.agrees⟩,
    hchanges.trans ⟨hanalyzes.pidFilter, hanalyzes.getCurrent, hanalyzes.others⟩, hhandled⟩
  rintro other before hposition
  obtain ⟨rfl, rfl⟩ := Prod.mk.inj (Option.some.inj hposition)
  refine ⟨?_, ?_, hts.trans hskip⟩
  · rw [hanalyzes.sync, hcontext]
  · rw [hanalyzes.continuity, hcontext]

end OnePacket

theorem processPacket_of_refused {demux next : SectionDemux State} {pkt : TSPacket}
    (haccept : demux.accept pkt = refused next) : demux.processPacket handlers pkt = (next, []) := by
  unfold processPacket
  rw [haccept]
  rfl

theorem processPacket_of_accepted {demux next : SectionDemux State} {pkt : TSPacket}
    {data : ByteBlock} {pointer firstPkt : ℕ}
    (haccept : demux.accept pkt = ⟨next, some data, pointer, firstPkt⟩) :
    demux.processPacket handlers pkt =
      collect handlers pkt.getPID ((next.pids pkt.getPID).ts ++ data).length next
        ((next.pids pkt.getPID).ts ++ data)
        (if pkt.getPUSI then ((next.pids pkt.getPID).ts ++ data).length - data.length + pointer
          else 0) firstPkt := by
  unfold processPacket
  rw [haccept]

/-- The sections are given in order; other PIDs do not change. -/
theorem feedPacket_carries (happlication : HandlesSections handlers) {demux : SectionDemux State}
    {pkt : TSPacket} {received after : Reception} {announced : Announcements}
    {sections : List Section} (hfilter : demux.pidFilter pkt.getPID = true)
    (hcurrent : demux.getCurrent = true) (hreceives : demux.Receives pkt.getPID received announced)
    (hcarries : PacketCarries received pkt sections after)
    (hconsistent : Consistent announced sections) :
    (demux.feedPacket handlers pkt).1.Receives pkt.getPID after
        (sections.foldl Announcements.announce announced) ∧
      demux.ChangesOnly (demux.feedPacket handlers pkt).1 pkt.getPID ∧
        handledContents (demux.feedPacket handlers pkt).2 = sections.map Section.content := by
  have hprocess : (demux.processPacket handlers pkt).1.Receives pkt.getPID after
        (sections.foldl Announcements.announce announced) ∧
      demux.ChangesOnly (demux.processPacket handlers pkt).1 pkt.getPID ∧
        handledContents (demux.processPacket handlers pkt).2 = sections.map Section.content := by
    obtain ⟨hwaiting, hsynchronous, hagrees⟩ := hreceives
    cases hcarries with
    | waiting hstart hvalid hscrambling =>
      obtain ⟨hsync, hts⟩ := hwaiting rfl
      obtain ⟨next, haccept, hchanges, hcontext⟩ :=
        accept_waiting hvalid hscrambling hsync hstart
      rw [processPacket_of_refused haccept]
      refine ⟨⟨fun _ ↦ ?_, fun _ _ hnone ↦ absurd hnone.symm (Option.some_ne_none _), ?_⟩, hchanges,
        rfl⟩
      · rw [hcontext]
        exact ⟨hsync, hts⟩
      · rw [hcontext]
        exact hagrees
    | repeated started hvalid hscrambling =>
      obtain ⟨hsync, hcounter, -⟩ := hsynchronous _ _ rfl
      have haccept : demux.accept pkt = refused demux := by
        unfold accept
        rw [if_neg (by rw [hvalid]; decide), if_neg (not_not.mpr hscrambling)]
        exact if_pos ⟨hsync, hcounter.symm⟩
      rw [processPacket_of_refused haccept]
      exact ⟨⟨hwaiting, hsynchronous, hagrees⟩, ⟨rfl, rfl, fun _ _ ↦ rfl⟩, rfl⟩
    | @first _ _ tail _ hpayload hstart hpointer hdata htail hsections =>
      obtain ⟨hsync, hts⟩ := hwaiting rfl
      have hnotPes : pkt.startsPES = false := by
        refine startsPES_eq_false hstart fun hzero hsize ↦ ?_
        rw [hzero, List.drop_zero] at hdata
        exact not_pes_of_tail hdata hsize htail hsections
      obtain ⟨next, firstPkt, index, haccept, hchanges, hcontext⟩ :=
        accept_first hpayload hsync hstart hpointer hnotPes
      have hbuffer : (next.pids pkt.getPID).ts ++ pkt.sectionData.drop pkt.pointerField =
          sections.flatMap Section.content ++ tail := by
        rw [hcontext, ← hdata]
        exact congrArg (· ++ _) hts
      rw [processPacket_of_accepted haccept]
      refine receives_collect happlication htail hsections hconsistent hcurrent hagrees hchanges
        hcontext hbuffer (fun first hfirst ↦ Or.inl ?_) firstPkt
      rw [if_pos hstart, hcontext, List.length_append, Nat.add_sub_cancel]
      exact congrArg List.length hts
    | @next counter _ _ before tail started hpayload hcounter hstart hdata htail hsections =>
      obtain ⟨hsync, hcontinuity, hts⟩ := hsynchronous _ _ rfl
      have hpointer : pkt.getPUSI = true →
          pkt.pointerField < pkt.sectionData.length ∧ pkt.startsPES = false := by
        intro hpusi
        rw [if_pos hpusi] at hstart
        obtain ⟨hinside, hposition⟩ := hstart
        refine ⟨hinside, startsPES_eq_false hpusi fun hzero hsize ↦ ?_⟩
        rcases hposition with ⟨rfl, -⟩ | ⟨-, hpositive, -⟩
        · exact not_pes_of_tail hdata hsize htail hsections
        · exact absurd hzero hpositive.ne'
      obtain ⟨next, firstPkt, index, haccept, hchanges, hcontext⟩ :=
        accept_next hpayload hsync (by rw [hcontinuity]; exact hcounter) hpointer
      have hbefore : (next.pids pkt.getPID).ts = before := by
        rw [hcontext]
        exact hts
      rw [processPacket_of_accepted haccept, hbefore]
      refine receives_collect happlication htail hsections hconsistent hcurrent hagrees hchanges
        hcontext hdata (fun first hfirst ↦ ?_) firstPkt
      by_cases hpusi : pkt.getPUSI = true
      · rw [if_pos hpusi] at hstart
        rw [if_pos hpusi, if_pos hpusi, List.length_append, Nat.add_sub_cancel]
        rcases hstart.2 with ⟨rfl, hzero⟩ | ⟨-, -, hend⟩
        · exact Or.inl ((Nat.zero_add _).trans hzero)
        · exact Or.inr (hend first hfirst)
      · exact Or.inl (if_neg hpusi)
  obtain ⟨⟨hwaiting, hsynchronous, hagrees⟩, ⟨hpidFilter, hgetCurrent, hothers⟩, hhandled⟩ :=
    hprocess
  unfold feedPacket
  rw [if_pos hfilter]
  exact ⟨⟨hwaiting, hsynchronous, hagrees⟩, ⟨hpidFilter, hgetCurrent, hothers⟩, hhandled⟩

end SectionDemux

end TSDuck
