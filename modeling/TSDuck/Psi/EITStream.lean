import TSDuck.Psi.EITProcessor

/-!
# The stream of an EIT processor

The law of an EIT processor over the packets which it processes: the packets which replace those of
the input PID's carry, in order, what is expected in place of the sections of these packets, and the
queue stays below its limit.

`follows_of_meets` states the law for all runs in which no packet completes more sections than there
is room for.
-/

namespace TSDuck

def sectionsOn (pid : ℕ) (packets : List CarriedPacket) : List Section :=
  (packets.filter fun carried ↦ carried.packet.getPID = pid).flatMap CarriedPacket.sections

/-- Packets which carry valid sections on some PID's in a legal packing. -/
structure LegalPacking (carrying : ℕ → Bool) (packets : List CarriedPacket) : Prop where
  carries : ∃ last, CarriesAll carrying (fun _ ↦ none) packets last
  consistent : ∀ pid, carrying pid = true → Consistent (fun _ ↦ none) (sectionsOn pid packets)

theorem LegalPacking.restrict {carrying : ℕ → Bool} {packets passed : List CarriedPacket}
    (hlegal : LegalPacking carrying packets) (hpassed : passed <+: packets) :
    LegalPacking carrying passed := by
  obtain ⟨⟨last, hcarries⟩, hconsistent⟩ := hlegal
  obtain ⟨rest, rfl⟩ := hpassed
  obtain ⟨middle, hmiddle, -⟩ := hcarries.split
  refine ⟨⟨middle, hmiddle⟩, fun pid hpid ↦ ?_⟩
  have hall := hconsistent pid hpid
  unfold sectionsOn at hall ⊢
  rw [List.filter_append, List.flatMap_append, consistent_append] at hall
  exact hall.1

namespace EITProcessor

variable (rules : Rules)

def sections (processor : EITProcessor) : List Section :=
  processor.demux.application.getD []

def pending (processor : EITProcessor) : List Section :=
  processor.packetizer.currentSection.toList ++ processor.sections

/-- A machine which reports the packets of the input PIDs. -/
def machine : Machine EITProcessor CarriedPacket TSPacket where
  step processor input := (processor.processPacket rules input.packet).map fun processed ↦
    (processed.1, if processor.demux.pidFilter input.packet.getPID then [processed.2] else [])

/-- No packet completes more sections than there is room for in the queue. -/
def HasRoom (processor : EITProcessor) (input : CarriedPacket) : Prop :=
  processor.sections.length + (input.sections.filter fun sect ↦ rules.Passes sect).length <
    Rules.maxSections

/-- No assertion fails, the output packets carry in order what is expected in place of the input
sections, and the queue is below its limit. -/
def FollowsLaw (inputPids : ℕ → Bool) (outputPid : ℕ) (inputs : List CarriedPacket) : Prop :=
  ∃ last outputs, (machine rules).run (new inputPids outputPid) inputs = some (last, outputs) ∧
    (∃ carried sent, carried.map CarriedPacket.packet = outputs ∧
      CarriesAll (· == outputPid) (fun _ ↦ none) carried sent ∧ List.Forall₂ rules.IsOutput
          ((inputs.flatMap CarriedPacket.sections).filter fun sect ↦ rules.Passes sect)
          (carried.flatMap CarriedPacket.sections ++ last.pending)) ∧
      last.sections.length < Rules.maxSections

end EITProcessor

/-! ### Sections with the same bytes -/

theorem Section.Transportable.congr {sect other : Section} (hsect : sect.Transportable)
    (hcontent : other.content = sect.content) : other.Transportable := by
  obtain ⟨content, sourcePid, firstPkt, lastPkt, bytes⟩ := sect
  obtain ⟨content', sourcePid', firstPkt', lastPkt', bytes'⟩ := other
  obtain rfl : content' = content := hcontent
  exact ⟨hsect.tableId_ne, hsect.isCurrent, hsect.readable, hsect.not_pes⟩

namespace EITProcessor

variable {rules : Rules}

theorem passes_congr {sect other : Section} (hcontent : other.content = sect.content) :
    rules.Passes other ↔ rules.Passes sect := by
  obtain ⟨content, sourcePid, firstPkt, lastPkt, bytes⟩ := sect
  obtain ⟨content', sourcePid', firstPkt', lastPkt', bytes'⟩ := other
  obtain rfl : content' = content := hcontent
  exact Iff.rfl

theorem isOutput_congr {sect other out : Section} (hcontent : other.content = sect.content)
    (hout : rules.IsOutput other out) : rules.IsOutput sect out := by
  obtain ⟨content, sourcePid, firstPkt, lastPkt, bytes⟩ := sect
  obtain ⟨content', sourcePid', firstPkt', lastPkt', bytes'⟩ := other
  obtain rfl : content' = content := hcontent
  exact ⟨hout.same, fun heit ↦ by
    obtain ⟨hlength, hlong, hid, htsId, honId, hothers⟩ := hout.renamed heit
    exact ⟨hlength, hlong, hid, htsId, honId, hothers⟩, hout.crc⟩

theorem transportable_of_isOutput {sect out : Section} (hsect : sect.Transportable)
    (hpasses : rules.Passes sect) (hout : rules.IsOutput sect out) : out.Transportable := by
  by_cases heit : isEIT sect.tableId = true
  · obtain ⟨hlength, hlong, -, -, -, hothers⟩ := hout.renamed heit
    have hbound := payload_bound (hpasses.2 heit).1
    have hbyte : ∀ offset, offset < 3 → byteAt out.content offset = byteAt sect.content offset := by
      intro offset hoffset
      have hheader := sect.le_headerSize
      unfold shortSectionHeaderSize at hheader
      refine hothers offset ⟨Or.inl (by omega), fun his ↦ ?_⟩
      rw [if_pos his] at hbound
      omega
    have hlongByte : sect.isLongSection = true → ∀ offset, 5 ≤ offset → offset < 8 →
        byteAt out.content offset = byteAt sect.content offset := by
      intro his offset hfive height
      have hheader : sect.headerSize = 8 := if_pos his
      rw [if_pos his] at hbound
      exact hothers offset ⟨Or.inl (by omega), fun _ ↦ by omega⟩
    refine ⟨?_, fun his ↦ ?_, ⟨fun his ↦ ?_, fun _ ↦ hout.crc⟩, ?_⟩
    · unfold Section.tableId
      rw [hbyte 0 (by decide)]
      exact hsect.tableId_ne
    · have hbefore := hlong.symm.trans his
      have hcurrent := hsect.isCurrent hbefore
      unfold Section.isCurrent at hcurrent ⊢
      rw [if_pos hbefore] at hcurrent
      rw [if_pos his, hlongByte hbefore 5 (by decide) (by decide)]
      exact hcurrent
    · have hbefore := hlong.symm.trans his
      rw [hlongByte hbefore 6 (by decide) (by decide), hlongByte hbefore 7 (by decide) (by decide)]
      exact hsect.readable.1 hbefore
    · rw [hbyte 0 (by decide), hbyte 1 (by decide)]
      exact hsect.not_pes
  · exact hsect.congr (hout.same (Or.inl (by simpa using heit)))

/-! ### The sections of one packet -/

theorem applied_of_room {queue handled : List Section}
    (hroom : queue.length + (handled.filterMap rules.select).length < Rules.maxSections) :
    SectionDemux.applied
        (fun sections sect ↦ (sections.bind fun current ↦ rules.handleSection current sect, []))
        (some queue) handled =
      some (queue ++ handled.filterMap rules.select) := by
  induction handled generalizing queue with
  | nil => exact congrArg some (List.append_nil _).symm
  | cons sect rest ih =>
    show SectionDemux.applied _ (rules.handleSection queue sect) rest = _
    cases hselect : rules.select sect with
    | none =>
      rw [List.filterMap_cons_none hselect] at hroom ⊢
      have hsame : rules.handleSection queue sect = some queue := by
        unfold Rules.handleSection
        rw [hselect]
      rw [hsame]
      exact ih hroom
    | some out =>
      rw [List.filterMap_cons_some hselect] at hroom ⊢
      rw [List.length_cons] at hroom
      have hpushed : rules.handleSection queue sect = some (queue ++ [out]) := by
        unfold Rules.handleSection
        rw [hselect]
        exact if_pos (by omega)
      rw [hpushed, ih (by rw [List.length_append, List.length_singleton]; omega), List.append_assoc,
        List.singleton_append]

theorem forall₂_select {handled sections : List Section}
    (hcontents : handled.map Section.content = sections.map Section.content)
    (hsections : ∀ sect ∈ sections, sect.Transportable) :
    List.Forall₂ rules.IsOutput (sections.filter fun sect ↦ rules.Passes sect)
        (handled.filterMap rules.select) ∧
      ∀ out ∈ handled.filterMap rules.select, out.Transportable := by
  induction handled generalizing sections with
  | nil =>
    obtain rfl := List.map_eq_nil_iff.mp hcontents.symm
    exact ⟨.nil, fun _ hout ↦ absurd hout List.not_mem_nil⟩
  | cons other rest ih =>
    cases sections with
    | nil => cases hcontents
    | cons sect others =>
      obtain ⟨hcontent, hrest⟩ := List.cons.inj hcontents
      obtain ⟨houtputs, htransportable⟩ :=
        ih hrest (List.forall_mem_cons.mp hsections).2
      have hother := (hsections sect List.mem_cons_self).congr hcontent
      rcases rules.select_spec (hother.readable.2 (by decide)) with
        ⟨hpasses, out, hselect, hout⟩ | ⟨hpasses, hselect⟩
      · rw [List.filterMap_cons_some hselect,
          List.filter_cons_of_pos (by simpa using (passes_congr hcontent).mp hpasses)]
        refine ⟨.cons (isOutput_congr hcontent hout) houtputs, fun later hlater ↦ ?_⟩
        rcases List.mem_cons.mp hlater with rfl | hmem
        · exact transportable_of_isOutput hother hpasses hout
        · exact htransportable later hmem
      · rw [List.filterMap_cons_none hselect,
          List.filter_cons_of_neg (by simpa using fun h ↦ hpasses ((passes_congr hcontent).mpr h))]
        exact ⟨houtputs, htransportable⟩

theorem getNextPacket_of_not_found {packetizer : Packetizer Section} {queue : List Section}
    (hready : packetizer.Ready id)
    (hfound : (packetizer.getNextPacket id (some sectionProvider) queue).found = false) :
    (packetizer.getNextPacket id (some sectionProvider) queue).packet = nullPacket ∧
      (packetizer.getNextPacket id (some sectionProvider) queue).data = [] ∧
        (packetizer.getNextPacket id (some sectionProvider) queue).packetizer.continuity =
          packetizer.continuity := by
  obtain ⟨current, counter, hacquired, -⟩ :=
    packetizer.acquire_spec (some sectionProvider) queue hready
  unfold Packetizer.getNextPacket at hfound ⊢
  dsimp only at hfound ⊢
  rw [hacquired] at hfound ⊢
  cases current with
  | none => exact ⟨rfl, rfl, rfl⟩
  | some sect => cases hfound

/-! ### One packet -/

/-- What the demux has received is what the packetizer sends. -/
structure Tracks (inputPids : ℕ → Bool) (outputPid : ℕ) (received : ℕ → Reception)
    (announced : ℕ → Announcements) (sent : Reception) (processor : EITProcessor) : Prop where
  pidFilter : processor.demux.pidFilter = inputPids
  getCurrent : processor.demux.getCurrent = true
  receives : ∀ pid, inputPids pid = true →
    processor.demux.Receives pid (received pid) (announced pid)
  running : processor.demux.application = some processor.sections
  ready : processor.packetizer.Ready id
  pid_eq : processor.packetizer.pid = outputPid
  sends : processor.packetizer.Sends sent
  transportable : ∀ sect ∈ processor.pending, sect.Transportable

theorem tracks_new (inputPids : ℕ → Bool) (outputPid : ℕ) :
    Tracks inputPids outputPid (fun _ ↦ none) (fun _ _ ↦ none) none (new inputPids outputPid) where
  pidFilter := rfl
  getCurrent := rfl
  receives pid _ := SectionDemux.receives_new inputPids (some []) pid
  running := rfl
  ready := Packetizer.ready_new outputPid
  pid_eq := rfl
  sends := Packetizer.sends_new outputPid
  transportable _ hsect := absurd hsect List.not_mem_nil

theorem handlesSections (rules : Rules) : SectionDemux.HandlesSections rules.handlers where
  resets := ⟨fun _ hhandle ↦ absurd hhandle.symm (Option.some_ne_none _), fun _ hhandle _ _ ↦ by
    obtain rfl := Option.some.inj hhandle
    rfl⟩
  sect := rfl
  table := rfl

/-- Sections on the output PID, or another PID. -/
def OutputCarries (outputPid : ℕ) (sent : Reception) (output : TSPacket) (finished : List Section)
    (after : Reception) : Prop :=
  output.getPID = outputPid ∧ PacketCarries sent output finished after ∨
    output.getPID ≠ outputPid ∧ finished = [] ∧ after = sent

theorem getNextPacket_carries {packetizer : Packetizer Section} {queue : List Section}
    (hready : packetizer.Ready id) (hpid : packetizer.pid < pidNull) {sent : Reception}
    (hsends : packetizer.Sends sent)
    (htransportable : ∀ sect ∈ packetizer.currentSection.toList ++ queue, sect.Transportable) :
    ∃ finished after, let result := packetizer.getNextPacket id (some sectionProvider) queue
      result.packetizer.Ready id ∧ result.packetizer.pid = packetizer.pid ∧
        result.packetizer.Sends after ∧ OutputCarries packetizer.pid sent result.packet finished after ∧
          packetizer.currentSection.toList ++ queue =
            finished ++ (result.packetizer.currentSection.toList ++ result.provider) ∧
          result.provider.length ≤ queue.length ∧
            (packetizer.currentSection.toList ++ queue = [] → result.packet = nullPacket) := by
  obtain ⟨hprogress, -, hresult⟩ :=
    packetizer.getNextPacket_spec (some sectionProvider) queue hready
  have hnotFound := @getNextPacket_of_not_found packetizer queue hready
  dsimp only
  generalize packetizer.getNextPacket id (some sectionProvider) queue = result
    at hprogress hresult hnotFound ⊢
  obtain ⟨given, exhausted, hrequests, hfirst⟩ := hprogress.requests
  have hqueue : queue = given ++ result.provider :=
    hrequests.given_eq id (fun _ _ state ↦ head?_append_tail state) fun _ ↦ rfl
  have hsections : packetizer.currentSection.toList ++ queue =
      result.finished ++ (result.packetizer.currentSection.toList ++ result.provider) := by
    rw [hqueue, ← List.append_assoc, hfirst, List.append_assoc]
  have hlength : result.provider.length ≤ queue.length := by
    rw [hqueue, List.length_append]
    exact Nat.le_add_left _ _
  rcases hresult with ⟨hfound, hnone, hfinished⟩ | ⟨-, offset, stuffing, hlayout⟩
  · obtain ⟨hnull, hdata, hcontinuity⟩ := hnotFound hfound
    have hbytes := hprogress.bytes
    rw [hdata, hfinished, List.append_nil, List.flatMap_nil, List.nil_append] at hbytes
    refine ⟨[], sent, hprogress.ready, hprogress.pid_eq, ⟨fun _ ↦ ?_, fun counter before hsome ↦ ?_⟩,
      Or.inr ⟨?_, rfl, rfl⟩, ?_, hlength, fun _ ↦ hnull⟩
    · exact hprogress.ready.nextByte_eq hnone
    · obtain ⟨hcounter, hbefore⟩ := hsends.started counter before hsome
      exact ⟨hcounter.trans hcontinuity.symm, hbefore.trans hbytes⟩
    · rw [hnull]
      have hnullPid : nullPacket.getPID = pidNull := by decide
      rw [hnullPid]
      exact hpid.ne'
    · rw [hsections, hfinished]
  · obtain ⟨hpacket, after, hcarries, hsent⟩ :=
      Packetizer.carries_of_layout hprogress hlayout hready (hpid.trans (by decide)) hsends hfirst
        fun sect hsect ↦ htransportable sect (by
          rw [hsections, ← List.append_assoc]
          exact List.mem_append_left _ hsect)
    refine ⟨result.finished, after, hprogress.ready, hprogress.pid_eq, hsent,
      Or.inl ⟨hpacket, hcarries⟩, hsections, hlength, fun hnothing ↦ ?_⟩
    rw [hnothing] at hsections
    obtain ⟨hfinished, hafter⟩ := List.append_eq_nil_iff.mp hsections.symm
    have hnone := Option.toList_eq_nil_iff.mp (List.append_eq_nil_iff.mp hafter).1
    have hinserted : result.packetizer.inserted id = [] := by
      unfold Packetizer.inserted
      rw [hnone]
    have hbytes := hprogress.bytes
    rw [hfinished, hinserted] at hbytes
    exact absurd (List.append_eq_nil_iff.mp hbytes).2 hlayout.data_ne

section Step

variable {inputPids : ℕ → Bool} {outputPid : ℕ} {received : ℕ → Reception}
  {announced : ℕ → Announcements} {sent : Reception} {processor : EITProcessor}
  (htracks : Tracks inputPids outputPid received announced sent processor)

include htracks

/-- A packet on an input PID. -/
theorem Tracks.processPacket (houtput : outputPid < pidNull) {pkt : TSPacket}
    (hpid : inputPids pkt.getPID = true) {sections : List Section} {next : Reception}
    (hcarries : PacketCarries (received pkt.getPID) pkt sections next)
    (hconsistent : Consistent (announced pkt.getPID) sections)
    (hroom : HasRoom rules processor ⟨pkt, sections⟩) :
    ∃ after output selected finished later, processor.processPacket rules pkt = some (after, output) ∧
      Tracks inputPids outputPid (Function.update received pkt.getPID next)
        (Function.update announced pkt.getPID
          (sections.foldl Announcements.announce (announced pkt.getPID))) later after ∧
      OutputCarries outputPid sent output finished later ∧
      List.Forall₂ rules.IsOutput (sections.filter fun sect ↦ rules.Passes sect) selected ∧
      processor.pending ++ selected = finished ++ after.pending ∧
        after.sections.length < Rules.maxSections ∧
          (processor.pending ++ selected = [] → output = nullPacket) := by
  have hsections := hcarries.transportable
  have hfilter : processor.demux.pidFilter pkt.getPID = true := by
    rw [htracks.pidFilter]
    exact hpid
  obtain ⟨hreceives, ⟨hpidFilter, hcurrent, hothers⟩, hhandled⟩ :=
    SectionDemux.feedPacket_carries (handlesSections rules) hfilter htracks.getCurrent
      (htracks.receives pkt.getPID hpid) hcarries hconsistent
  rw [SectionDemux.handledContents_eq] at hhandled
  obtain ⟨hselected, hvalid⟩ := forall₂_select hhandled hsections
  have happlication : (processor.demux.feedPacket rules.handlers pkt).1.application =
      some (processor.sections ++ (SectionDemux.handledSections
        (processor.demux.feedPacket rules.handlers pkt).2).filterMap rules.select) := by
    rw [@SectionDemux.application_feedPacket _ rules.handlers _ rfl (handlesSections rules),
      htracks.running]
    apply applied_of_room
    rw [← hselected.length_eq]
    exact hroom
  generalize (SectionDemux.handledSections
    (processor.demux.feedPacket rules.handlers pkt).2).filterMap rules.select = selected
      at hselected hvalid happlication
  have hall : ∀ sect ∈ processor.packetizer.currentSection.toList ++
      (processor.sections ++ selected), sect.Transportable := by
    intro sect hsect
    rw [← List.append_assoc] at hsect
    rcases List.mem_append.mp hsect with hbefore | hadded
    · exact htracks.transportable sect hbefore
    · exact hvalid sect hadded
  obtain ⟨finished, later, hready, hpidEq, hsends, houtputCarries, hpending, hlength, hnull⟩ :=
    getNextPacket_carries htracks.ready (htracks.pid_eq.trans_lt houtput) htracks.sends hall
  rw [htracks.pid_eq] at houtputCarries
  generalize hresult : processor.packetizer.getNextPacket id (some sectionProvider)
    (processor.sections ++ selected) = result
      at hready hpidEq hsends houtputCarries hpending hlength hnull
  refine ⟨
    { demux :=
        { (processor.demux.feedPacket rules.handlers pkt).1 with
          application := some result.provider }
      packetizer := result.packetizer }, result.packet, selected, finished, later, ?_,
    ⟨?_, ?_, fun pid hinput ↦ ?_, rfl, hready, hpidEq.trans htracks.pid_eq, hsends,
      fun sect hsect ↦ hall sect ?_⟩, houtputCarries, hselected, ?_, ?_, fun hnothing ↦ hnull ?_⟩
  · unfold EITProcessor.processPacket
    rw [if_pos hfilter]
    dsimp only
    rw [happlication, Option.map_some, hresult]
  · exact hpidFilter.trans htracks.pidFilter
  · exact hcurrent.trans htracks.getCurrent
  · by_cases hsame : pid = pkt.getPID
    · subst hsame
      rw [Function.update_self, Function.update_self]
      exact ⟨hreceives.waiting, hreceives.synchronous, hreceives.agrees⟩
    · rw [Function.update_of_ne hsame, Function.update_of_ne hsame]
      obtain ⟨hwaiting, hsynchronous, hagrees⟩ := htracks.receives pid hinput
      rw [← hothers pid hsame] at hwaiting hsynchronous hagrees
      exact ⟨hwaiting, hsynchronous, hagrees⟩
  · rw [hpending]
    exact List.mem_append_right _ hsect
  · unfold EITProcessor.pending
    rw [List.append_assoc]
    exact hpending
  · refine hlength.trans_lt ?_
    rw [List.length_append, ← hselected.length_eq]
    exact hroom
  · rw [← List.append_assoc]
    exact hnothing

theorem Tracks.processPacket_other {pkt : TSPacket} (hpid : inputPids pkt.getPID = false) :
    processor.processPacket rules pkt = some (processor, pkt) := by
  unfold EITProcessor.processPacket
  rw [if_neg (by rw [htracks.pidFilter, hpid]; decide)]

end Step

/-! ### All packets -/

theorem sectionsOn_cons (pid : ℕ) (first : CarriedPacket) (rest : List CarriedPacket) :
    sectionsOn pid (first :: rest) =
      if first.packet.getPID = pid then first.sections ++ sectionsOn pid rest
      else sectionsOn pid rest := by
  unfold sectionsOn
  split_ifs with hpid
  · rw [List.filter_cons_of_pos (by simpa using hpid), List.flatMap_cons]
  · rw [List.filter_cons_of_neg (by simpa using hpid)]

theorem OutputCarries.cons {outputPid : ℕ} {sentTo : ℕ → Reception} {output : TSPacket}
    {finished : List Section} {after : Reception}
    (hcarries : OutputCarries outputPid (sentTo outputPid) output finished after)
    {rest : List CarriedPacket} {last : ℕ → Reception}
    (hrest : CarriesAll (· == outputPid) (Function.update sentTo outputPid after) rest last) :
    CarriesAll (· == outputPid) sentTo (⟨output, finished⟩ :: rest) last := by
  rcases hcarries with ⟨rfl, hpacket⟩ | ⟨hpid, rfl, rfl⟩
  · exact .carried (beq_self_eq_true _) hpacket hrest
  · rw [Function.update_eq_self] at hrest
    exact .other (beq_false_of_ne hpid) hrest

/-- Assumes: a queue below its limit, and packets in a legal packing with room for their sections.
All packets are processed, and the output carries the first of the expected sections. -/
theorem Tracks.run {inputPids : ℕ → Bool} {outputPid : ℕ} (houtput : outputPid < pidNull)
    {received last : ℕ → Reception} {inputs : List CarriedPacket}
    (hcarries : CarriesAll inputPids received inputs last) {announced : ℕ → Announcements}
    (sentTo : ℕ → Reception) {processor : EITProcessor}
    (htracks : Tracks inputPids outputPid received announced (sentTo outputPid) processor)
    (hconsistent : ∀ pid, inputPids pid = true → Consistent (announced pid) (sectionsOn pid inputs))
    (hmeets : (machine rules).Meets (HasRoom rules) processor inputs)
    (hlimit : processor.sections.length < Rules.maxSections) :
    ∃ final carried selected sent,
      (machine rules).run processor inputs = some (final, carried.map CarriedPacket.packet) ∧
      CarriesAll (· == outputPid) sentTo carried sent ∧
      List.Forall₂ rules.IsOutput
        ((inputs.flatMap CarriedPacket.sections).filter fun sect ↦ rules.Passes sect) selected ∧
      processor.pending ++ selected = carried.flatMap CarriedPacket.sections ++ final.pending ∧
        final.sections.length < Rules.maxSections := by
  induction hcarries generalizing announced sentTo processor with
  | nil =>
    exact ⟨processor, [], [], sentTo, rfl, .nil sentTo, .nil, List.append_nil _, hlimit⟩
  | @carried received last first rest next hpid hpacket _ ih =>
    have hfirst := hconsistent first.packet.getPID hpid
    rw [sectionsOn_cons, if_pos rfl, consistent_append] at hfirst
    obtain ⟨after, output, selected, finished, later, hprocess, hafter, hout, hselected, hpending,
      hroom, -⟩ := htracks.processPacket houtput hpid hpacket hfirst.1 hmeets.1
    have hstep : (machine rules).step processor first = some (after, [output]) := by
      show (processor.processPacket rules first.packet).map _ = _
      rw [hprocess, Option.map_some, htracks.pidFilter, if_pos hpid]
    have hlater : ∀ pid, inputPids pid = true →
        Consistent (Function.update announced first.packet.getPID
          (first.sections.foldl Announcements.announce (announced first.packet.getPID)) pid)
          (sectionsOn pid rest) := by
      intro pid hinput
      by_cases hsame : pid = first.packet.getPID
      · subst hsame
        rw [Function.update_self]
        exact hfirst.2
      · rw [Function.update_of_ne hsame]
        have hpidRest := hconsistent pid hinput
        rw [sectionsOn_cons, if_neg fun h ↦ hsame h.symm] at hpidRest
        exact hpidRest
    have hsent : Function.update sentTo outputPid later outputPid = later :=
      Function.update_self _ _ _
    rw [← hsent] at hafter
    obtain ⟨final, carried, others, sent, hrun, hcarried, hothers, hrest, hfinal⟩ :=
      ih _ hafter hlater (hmeets.2 after [output] hstep) hroom
    refine ⟨final, ⟨output, finished⟩ :: carried, selected ++ others, sent, ?_, hout.cons hcarried,
      ?_, ?_, hfinal⟩
    · exact (machine rules).run_cons_eq_some.mpr ⟨after, [output], _, hstep, hrun, rfl⟩
    · rw [List.flatMap_cons, List.filter_append]
      exact List.rel_append hselected hothers
    · rw [← List.append_assoc, hpending, List.append_assoc, hrest, List.flatMap_cons,
        List.append_assoc]
  | @other received last pkt rest hpid _ ih =>
    have hstep : (machine rules).step processor ⟨pkt, []⟩ = some (processor, []) := by
      show (processor.processPacket rules pkt).map _ = _
      rw [htracks.processPacket_other hpid, Option.map_some, htracks.pidFilter,
        if_neg (by rw [hpid]; decide)]
    have hlater : ∀ pid, inputPids pid = true →
        Consistent (announced pid) (sectionsOn pid rest) := by
      intro pid hinput
      have hpidRest := hconsistent pid hinput
      rw [sectionsOn_cons] at hpidRest
      split_ifs at hpidRest
      · exact hpidRest
      · exact hpidRest
    obtain ⟨final, carried, selected, sent, hrun, hrest⟩ :=
      ih sentTo htracks hlater (hmeets.2 processor [] hstep) hlimit
    exact ⟨final, carried, selected, sent,
      (machine rules).run_cons_eq_some.mpr ⟨processor, [], _, hstep, hrun, rfl⟩, hrest⟩

/-- Assumes: an output PID which is not the one of null packets, and packets in a legal packing
which complete no more valid sections than there is room for. The processor follows its law. -/
theorem follows_of_meets (rules : Rules) {inputPids : ℕ → Bool} {outputPid : ℕ}
    (houtput : outputPid < pidNull) {inputs : List CarriedPacket}
    (hlegal : LegalPacking inputPids inputs)
    (hmeets : (machine rules).Meets (HasRoom rules) (new inputPids outputPid) inputs)
    {passed : List CarriedPacket} (hpassed : passed <+: inputs) :
    FollowsLaw rules inputPids outputPid passed := by
  obtain ⟨⟨last, hcarries⟩, hconsistent⟩ := hlegal.restrict hpassed
  have hempty : (new inputPids outputPid).sections.length < Rules.maxSections :=
    show 0 < Rules.maxSections by decide
  obtain ⟨final, carried, selected, sent, hrun, hcarried, hselected, hpending, hlimit⟩ :=
    Tracks.run houtput hcarries (fun _ ↦ none) (tracks_new inputPids outputPid) hconsistent
      (hmeets.restrict _ hpassed) hempty
  refine ⟨final, _, hrun, ⟨carried, sent, rfl, hcarried, ?_⟩, hlimit⟩
  rw [← hpending]
  exact hselected

def cutPacket (index : ℕ) (offset : Option ℕ) (data : ByteBlock) : TSPacket :=
  .stuffed (packetHeader offset.isSome 0x12 (index % ccMax) ++
    ((offset.map UInt8.ofNat).toList ++ data))

/-- Assumes: a part of sections that fits. A packet has it and stuffing. -/
theorem cutPacket_spec {index : ℕ} {offset : Option ℕ} {data : ByteBlock} {stuffing : ℕ}
    (hsize : (offset.map UInt8.ofNat).toList.length + data.length + stuffing = 184) :
    (cutPacket index offset data).IsPayload ∧ (cutPacket index offset data).getPID = 0x12 ∧
      (cutPacket index offset data).getPUSI = offset.isSome ∧
      (cutPacket index offset data).getCC.toNat = index % ccMax ∧
      (cutPacket index offset data).sectionData = data ++ List.replicate stuffing 0xFF ∧
        ∀ value, offset = some value → value < 256 →
          (cutPacket index offset data).pointerField = value := by
  have hcounter : index % ccMax < ccMax := Nat.mod_lt _ (by decide)
  have hbytes : (cutPacket index offset data).bytes =
      packetHeader offset.isSome 0x12 (index % ccMax) ++
        ((offset.map UInt8.ofNat).toList ++ (data ++ List.replicate stuffing 0xFF)) := by
    unfold cutPacket
    rw [Packetizer.stuffed_bytes (by
      rw [List.length_append, List.length_append, length_packetHeader, pktSize]
      omega : _ + stuffing = pktSize)]
    simp only [List.append_assoc]
  obtain ⟨hpayload, hdata, hpointer⟩ :=
    Packetizer.payload_of_header hbytes (by decide : 0x12 < pidMax) hcounter
  exact ⟨hpayload, getPID_of_header hbytes (by decide), getPUSI_of_header hbytes (by decide),
    getCC_of_header hbytes hcounter, hdata, hpointer⟩

def eitSection : Section where
  content := Section.withCrc32 [0x4E, 0xF0, 0x0F, 0x00, 0x01, 0xC1, 0x00, 0x00, 0x00, 0x02, 0x00, 0x03,
    0x00, 0x4E, 0x00, 0x00, 0x00, 0x00]
  sourcePid := pidNull
  firstPkt := 0
  lastPkt := 0
  bytes := ⟨rfl, by decide, fun _ ↦ by decide⟩

def renamingRules : Rules :=
  { removedTids := [], removed := [], kept := [],
    renamed := [(⟨some 1, none, none⟩, ⟨some 5, none, none⟩)] }

/-- The law holds for a packet with an EIT which is renamed. -/
theorem follows_of_eitSection : FollowsLaw renamingRules (· == 0x12) 0x12
    [⟨cutPacket 0 (some 0) eitSection.content, [eitSection]⟩] := by
  have hsize : ((some 0).map UInt8.ofNat).toList.length + eitSection.content.length + 165 = 184 :=
    rfl
  obtain ⟨hpayload, hpid, hpusi, -, hdata, hpointer⟩ := @cutPacket_spec 0 _ _ _ hsize
  have hfield := hpointer 0 rfl (by decide)
  have heit : eitSection.Transportable :=
    ⟨by decide, fun _ ↦ by decide, ⟨fun _ ↦ by decide, fun _ _ ↦ by decide +kernel⟩, by decide⟩
  have hcarries : PacketCarries none (cutPacket 0 (some 0) eitSection.content) [eitSection]
      (some ((cutPacket 0 (some 0) eitSection.content).getCC, [])) := by
    refine .first hpayload hpusi ?_ ?_ (.stuffing 165 (List.cons_ne_nil _ _)) fun sect hsect ↦ ?_
    · rw [hfield, hdata, List.length_append]
      exact Nat.lt_add_right _ (by decide)
    · rw [hfield, hdata]
      rfl
    · rw [List.mem_singleton.mp hsect]
      exact heit
  have hroom : HasRoom renamingRules (new (· == 0x12) 0x12)
      ⟨cutPacket 0 (some 0) eitSection.content, [eitSection]⟩ :=
    (Nat.add_le_add_left (List.length_filter_le _ _) _).trans_lt
      (by decide : 0 + 1 < Rules.maxSections)
  refine follows_of_meets renamingRules (by decide) ⟨⟨_, .carried ?_ hcarries (.nil _)⟩, ?_⟩
    ⟨hroom, fun _ _ _ ↦ trivial⟩ (List.prefix_refl _)
  · rw [hpid]
    rfl
  · intro pid hinput
    obtain rfl : pid = 0x12 := beq_iff_eq.mp hinput
    rw [sectionsOn_cons, if_pos hpid]
    exact ⟨fun _ _ hnone ↦ absurd hnone.symm (Option.some_ne_none _), trivial⟩

/-! ### What few packets do -/

/-- With nothing to send, the packets become null ones. -/
theorem Tracks.run_nothing {inputPids : ℕ → Bool} {outputPid : ℕ} (houtput : outputPid < pidNull)
    {received last : ℕ → Reception} {inputs : List CarriedPacket}
    (hcarries : CarriesAll inputPids received inputs last) {announced : ℕ → Announcements}
    {sent : Reception} {processor : EITProcessor}
    (htracks : Tracks inputPids outputPid received announced sent processor)
    (hpending : processor.pending = []) (hnothing : ∀ input ∈ inputs, input.sections = []) :
    ∃ final outputs, (machine rules).run processor inputs = some (final, outputs) ∧
      ∀ output ∈ outputs, output = nullPacket := by
  induction hcarries generalizing announced sent processor with
  | nil => exact ⟨processor, [], rfl, fun _ houtput ↦ absurd houtput List.not_mem_nil⟩
  | @carried received last first rest next hpid hpacket _ ih =>
    have hnone := hnothing first List.mem_cons_self
    rw [hnone] at hpacket
    have hroom : HasRoom rules processor ⟨first.packet, []⟩ := by
      unfold HasRoom
      rw [(List.append_eq_nil_iff.mp hpending).2]
      exact Nat.zero_lt_succ 999
    obtain ⟨after, output, selected, finished, later, hprocess, hafter, -, hselected, hsplit, -,
      hnull⟩ := htracks.processPacket houtput hpid hpacket trivial hroom
    obtain rfl := List.forall₂_nil_left_iff.mp hselected
    rw [hpending, List.nil_append] at hsplit hnull
    have hstep : (machine rules).step processor first = some (after, [output]) := by
      show (processor.processPacket rules first.packet).map _ = _
      rw [hprocess, Option.map_some, htracks.pidFilter, if_pos hpid]
    obtain ⟨final, outputs, hrun, houtputs⟩ :=
      ih hafter (List.append_eq_nil_iff.mp hsplit.symm).2 (List.forall_mem_cons.mp hnothing).2
    refine ⟨final, output :: outputs,
      (machine rules).run_cons_eq_some.mpr ⟨after, [output], outputs, hstep, hrun, rfl⟩, ?_⟩
    rintro other hother
    rcases List.mem_cons.mp hother with rfl | hmem
    · exact hnull rfl
    · exact houtputs other hmem
  | @other received last pkt rest hpid _ ih =>
    have hstep : (machine rules).step processor ⟨pkt, []⟩ = some (processor, []) := by
      show (processor.processPacket rules pkt).map _ = _
      rw [htracks.processPacket_other hpid, Option.map_some, htracks.pidFilter,
        if_neg (by rw [hpid]; decide)]
    obtain ⟨final, outputs, hrun, houtputs⟩ := ih htracks hpending (List.forall_mem_cons.mp hnothing).2
    exact ⟨final, outputs,
      (machine rules).run_cons_eq_some.mpr ⟨processor, [], outputs, hstep, hrun, rfl⟩, houtputs⟩

theorem length_outputs {processor last : EITProcessor} {inputs : List CarriedPacket}
    {outputs : List TSPacket}
    (hrun : (machine rules).run processor inputs = some (last, outputs)) :
    outputs.length ≤ inputs.length := by
  induction inputs generalizing processor outputs with
  | nil =>
    obtain ⟨-, rfl⟩ := Prod.mk.inj (Option.some.inj hrun)
    exact le_rfl
  | cons input rest ih =>
    obtain ⟨next, first, later, hstep, hrest, rfl⟩ := (machine rules).run_cons_eq_some.mp hrun
    obtain ⟨processed, -, hprocessed⟩ := Option.map_eq_some_iff.mp hstep
    obtain ⟨-, rfl⟩ := Prod.mk.inj hprocessed
    have hlater := ih hrest
    rw [List.length_append, List.length_cons]
    split_ifs
    · exact (Nat.add_comm _ _).trans_le (Nat.succ_le_succ hlater)
    · exact (Nat.zero_add _).trans_le (hlater.trans (Nat.le_succ _))

/-! ### An input which fills the queue -/

theorem carriesAll_range {pid : ℕ} {packets : ℕ → CarriedPacket} {receptions : ℕ → Reception}
    {first count : ℕ} (hpid : ∀ index, (packets index).packet.getPID = pid)
    (hcarries : ∀ index, first ≤ index → index < first + count →
      PacketCarries (receptions index) (packets index).packet (packets index).sections
        (receptions (index + 1))) {received : ℕ → Reception}
    (hreceived : received pid = receptions first) :
    ∃ last, CarriesAll (· == pid) received ((List.range' first count).map packets) last := by
  induction count generalizing first received with
  | zero => exact ⟨received, .nil received⟩
  | succ count ih =>
    have hfirst := hcarries first le_rfl (by omega)
    obtain ⟨last, hrest⟩ := ih (fun index hle hlt ↦ hcarries index (by omega) (by omega))
      (Function.update_self pid (receptions (first + 1)) received)
    rw [← hpid first] at hreceived hrest
    rw [← hreceived] at hfirst
    refine ⟨last, ?_⟩
    rw [List.range'_succ, List.map_cons]
    refine .carried (by rw [hpid first]; exact beq_self_eq_true pid) hfirst ?_
    rw [hpid first] at hrest ⊢
    exact hrest

def largeSection : Section where
  content := [0x80, 0x7F, 0xFD] ++ List.replicate 4093 0x00
  sourcePid := pidNull
  firstPkt := 0
  lastPkt := 0
  bytes := ⟨by rw [List.length_append, List.length_replicate]; rfl,
    by rw [List.length_append, List.length_replicate]; decide,
    fun hlong ↦ absurd hlong (by decide)⟩

def smallSection : Section where
  content := [0x80, 0x70, 0x00]
  sourcePid := pidNull
  firstPkt := 0
  lastPkt := 0
  bytes := ⟨rfl, by decide, by decide⟩

/-- A packet of the large section, then 61 small sections. -/
def fillingInput (index : ℕ) : CarriedPacket :=
  if index = 0 then ⟨cutPacket index (some 0) (largeSection.content.take 183), []⟩
  else if index < 23 then
    ⟨cutPacket index none ((largeSection.content.drop (184 * index - 1)).take 184),
      if index = 22 then [largeSection] else []⟩
  else
    ⟨cutPacket index (some 0) ((List.replicate 61 smallSection).flatMap Section.content),
      List.replicate 61 smallSection⟩

def fillingReception (index : ℕ) : Reception :=
  if index = 0 then none
  else some ((fillingInput (index - 1)).packet.getCC,
    if index < 23 then largeSection.content.take (184 * index - 1) else [])

theorem length_largeSection : largeSection.content.length = 4096 := by
  show ([0x80, 0x7F, 0xFD] ++ List.replicate 4093 (0x00 : UInt8)).length = 4096
  rw [List.length_append, List.length_replicate]
  rfl

theorem transportable_largeSection : largeSection.Transportable :=
  ⟨by decide, fun hlong ↦ absurd hlong (by decide),
    ⟨fun hlong ↦ absurd hlong (by decide), fun _ hlong ↦ absurd hlong (by decide)⟩, by decide⟩

theorem transportable_smallSection : smallSection.Transportable :=
  ⟨by decide, fun hlong ↦ absurd hlong (by decide),
    ⟨fun hlong ↦ absurd hlong (by decide), fun _ hlong ↦ absurd hlong (by decide)⟩, by decide⟩

theorem length_part (index : ℕ) :
    ((largeSection.content.drop (184 * index - 1)).take 184).length =
      min 184 (4096 - (184 * index - 1)) := by
  rw [List.length_take, List.length_drop, length_largeSection]

theorem take_part {index : ℕ} (hindex : 0 < index) :
    largeSection.content.take (184 * index - 1) ++
        (largeSection.content.drop (184 * index - 1)).take 184 =
      largeSection.content.take (184 * (index + 1) - 1) := by
  rw [← List.take_add]
  congr 1
  omega

theorem length_smallSections :
    ((List.replicate 61 smallSection).flatMap Section.content).length = 183 := by
  rw [List.length_flatMap, List.map_replicate]
  rfl

theorem fillingInput_eq (index : ℕ) : ∃ offset data stuffing,
    (fillingInput index).packet = cutPacket index offset data ∧
      (offset.map UInt8.ofNat).toList.length + data.length + stuffing = 184 := by
  unfold fillingInput
  split_ifs with hzero hlarge hend
  · refine ⟨some 0, _, 0, rfl, ?_⟩
    rw [List.length_take, length_largeSection]
    rfl
  · refine ⟨none, _, 135, rfl, ?_⟩
    rw [length_part, hend]
    rfl
  · refine ⟨none, _, 0, rfl, ?_⟩
    rw [length_part]
    show 0 + min 184 (4096 - (184 * index - 1)) + 0 = 184
    omega
  · refine ⟨some 0, _, 0, rfl, ?_⟩
    rw [length_smallSections]
    rfl

theorem fillingInput_header (index : ℕ) :
    (fillingInput index).packet.getPID = 0x12 ∧
      (fillingInput index).packet.getCC.toNat = index % ccMax := by
  obtain ⟨offset, data, stuffing, hpacket, hsize⟩ := fillingInput_eq index
  obtain ⟨-, hpid, -, hcounter, -⟩ := cutPacket_spec hsize
  rw [hpacket]
  exact ⟨hpid, hcounter⟩

theorem fillingInput_follows {index : ℕ} (hindex : 0 < index) :
    (fillingInput index).packet.getCC.toNat =
      ((fillingInput (index - 1)).packet.getCC.toNat + 1) % ccMax := by
  rw [(fillingInput_header index).2, (fillingInput_header (index - 1)).2]
  unfold ccMax
  omega

theorem fillingReception_succ {index : ℕ} (hlarge : index < 22) :
    fillingReception (index + 1) = some ((fillingInput index).packet.getCC,
      largeSection.content.take (184 * (index + 1) - 1)) := by
  unfold fillingReception
  rw [if_neg (Nat.succ_ne_zero _), if_pos (by omega), Nat.add_sub_cancel]

theorem fillingReception_succ_of_le {index : ℕ} (hended : 22 ≤ index) :
    fillingReception (index + 1) = some ((fillingInput index).packet.getCC, []) := by
  unfold fillingReception
  rw [if_neg (Nat.succ_ne_zero _), if_neg (by omega), Nat.add_sub_cancel]

theorem carries_part {part : ByteBlock} (hlength : part.length = 183)
    (htail : PayloadTail [] part part) :
    PacketCarries none (cutPacket 0 (some 0) part) []
      (some ((cutPacket 0 (some 0) part).getCC, part)) := by
  have hsize : ((some 0).map UInt8.ofNat).toList.length + part.length + 0 = 184 := by
    rw [hlength]
    rfl
  obtain ⟨hpayload, -, hpusi, -, hdata, hpointer⟩ := @cutPacket_spec 0 _ _ _ hsize
  have hfield := hpointer 0 rfl (by decide)
  rw [List.replicate_zero, List.append_nil] at hdata
  refine .first hpayload hpusi ?_ ?_ htail fun _ hsect ↦ absurd hsect List.not_mem_nil
  · rw [hfield, hdata, hlength]
    decide
  · rw [hfield, hdata]
    rfl

theorem carries_first : PacketCarries (fillingReception 0) (fillingInput 0).packet
    (fillingInput 0).sections (fillingReception (0 + 1)) := by
  have hroom : 183 < largeSection.size := by
    rw [Section.size, length_largeSection]
    decide
  have hlength : (largeSection.content.take 183).length = 183 := by
    rw [List.length_take, length_largeSection]
    rfl
  have hinput : fillingInput 0 = ⟨cutPacket 0 (some 0) (largeSection.content.take 183), []⟩ :=
    if_pos rfl
  have hnone : fillingReception 0 = none := if_pos rfl
  rw [fillingReception_succ (by decide), hinput, hnone]
  exact carries_part hlength (.started largeSection 183 transportable_largeSection hroom)

theorem carries_middle {index : ℕ} (hindex : 0 < index) (hlarge : index < 22) :
    PacketCarries (fillingReception index) (fillingInput index).packet (fillingInput index).sections
      (fillingReception (index + 1)) := by
  have hsize : ((none : Option ℕ).map UInt8.ofNat).toList.length +
      ((largeSection.content.drop (184 * index - 1)).take 184).length + 0 = 184 := by
    rw [length_part]
    show 0 + min 184 (4096 - (184 * index - 1)) + 0 = 184
    omega
  obtain ⟨hpayload, -, hpusi, -, hdata, -⟩ := @cutPacket_spec index _ _ _ hsize
  have hinput : fillingInput index =
      ⟨cutPacket index none ((largeSection.content.drop (184 * index - 1)).take 184), []⟩ := by
    unfold fillingInput
    rw [if_neg (by omega), if_pos (by omega), if_neg (by omega)]
  have hfollows := fillingInput_follows hindex
  rw [fillingReception_succ hlarge]
  unfold fillingReception
  rw [if_neg (by omega), if_pos (by omega)]
  rw [hinput] at hfollows ⊢
  refine .next hpayload hfollows ?_ ?_
    (.started largeSection (184 * (index + 1) - 1) transportable_largeSection (by
      rw [Section.size, length_largeSection]
      omega))
    fun _ hsect ↦ absurd hsect List.not_mem_nil
  · rw [if_neg (by rw [hpusi]; decide), ← List.length_pos_iff, List.length_take, length_largeSection]
    omega
  · rw [hdata, List.replicate_zero, List.append_nil, take_part hindex]
    rfl

theorem carries_end : PacketCarries (fillingReception 22) (fillingInput 22).packet
    (fillingInput 22).sections (fillingReception (22 + 1)) := by
  have hsize : ((none : Option ℕ).map UInt8.ofNat).toList.length +
      ((largeSection.content.drop (184 * 22 - 1)).take 184).length + 135 = 184 := by
    rw [length_part]
    rfl
  obtain ⟨hpayload, -, hpusi, -, hdata, -⟩ := @cutPacket_spec 22 _ _ _ hsize
  have hinput : fillingInput 22 = ⟨cutPacket 22 none
      ((largeSection.content.drop (184 * 22 - 1)).take 184), [largeSection]⟩ := rfl
  have hfollows := fillingInput_follows (by decide : 0 < 22)
  rw [fillingReception_succ_of_le le_rfl]
  unfold fillingReception
  rw [if_neg (by decide), if_pos (by decide)]
  rw [hinput] at hfollows ⊢
  refine .next hpayload hfollows ?_ ?_ (.stuffing 135 (List.cons_ne_nil _ _)) fun sect hsect ↦ ?_
  · rw [if_neg (by rw [hpusi]; decide), ← List.length_pos_iff, List.length_take, length_largeSection]
    decide
  · rw [hdata, ← List.append_assoc, take_part (by decide),
      List.take_of_length_le (by rw [length_largeSection]; decide)]
    exact congrArg (· ++ _) (List.append_nil _).symm
  · obtain rfl := List.mem_singleton.mp hsect
    exact transportable_largeSection

theorem carries_small {index : ℕ} (hsmall : 23 ≤ index) :
    PacketCarries (fillingReception index) (fillingInput index).packet (fillingInput index).sections
      (fillingReception (index + 1)) := by
  have hsize : ((some 0).map UInt8.ofNat).toList.length +
      ((List.replicate 61 smallSection).flatMap Section.content).length + 0 = 184 := by
    rw [length_smallSections]
    rfl
  obtain ⟨hpayload, -, hpusi, -, hdata, hpointer⟩ := @cutPacket_spec index _ _ _ hsize
  have hfield := hpointer 0 rfl (by decide)
  have hinput : fillingInput index = ⟨cutPacket index (some 0)
      ((List.replicate 61 smallSection).flatMap Section.content), List.replicate 61 smallSection⟩ := by
    unfold fillingInput
    rw [if_neg (by omega), if_neg (by omega)]
  have hfollows := fillingInput_follows (show 0 < index by omega)
  rw [fillingReception_succ_of_le (by omega)]
  unfold fillingReception
  rw [if_neg (by omega), if_neg (by omega)]
  rw [hinput] at hfollows ⊢
  refine .next hpayload hfollows ?_ ?_
    (.stuffing 0 (List.ne_nil_of_length_pos (by rw [List.length_replicate]; decide)))
    fun sect hsect ↦ ?_
  · rw [if_pos (by rw [hpusi]; rfl), hfield, hdata, List.replicate_zero, List.append_nil,
      length_smallSections]
    exact ⟨by decide, Or.inl ⟨rfl, rfl⟩⟩
  · rw [hdata]
    rfl
  · rw [List.eq_of_mem_replicate hsect]
    exact transportable_smallSection

theorem fillingInput_carries (index : ℕ) :
    PacketCarries (fillingReception index) (fillingInput index).packet (fillingInput index).sections
      (fillingReception (index + 1)) := by
  rcases Nat.eq_zero_or_pos index with rfl | hindex
  · exact carries_first
  · rcases lt_trichotomy index 22 with hlarge | rfl | hsmall
    · exact carries_middle hindex hlarge
    · exact carries_end
    · exact carries_small hsmall

/-- The large section, then 17 packets of small sections. -/
def fillingInputs : List CarriedPacket :=
  (List.range' 0 40).map fillingInput

def noRules : Rules :=
  { removedTids := [], removed := [], kept := [], renamed := [] }

theorem consistent_of_short {announced : Announcements} {sections : List Section}
    (hshort : ∀ sect ∈ sections, sect.isLongSection = false) : Consistent announced sections := by
  induction sections generalizing announced with
  | nil => trivial
  | cons sect rest ih =>
    refine ⟨fun hlong ↦ ?_, ih (List.forall_mem_cons.mp hshort).2⟩
    rw [hshort sect List.mem_cons_self] at hlong
    exact absurd hlong (by decide)

theorem isLong_fillingInput {index : ℕ} {sect : Section}
    (hsect : sect ∈ (fillingInput index).sections) : sect.isLongSection = false := by
  unfold fillingInput at hsect
  split_ifs at hsect
  · exact absurd hsect List.not_mem_nil
  · rw [List.mem_singleton.mp hsect]
    rfl
  · exact absurd hsect List.not_mem_nil
  · rw [List.eq_of_mem_replicate hsect]
    rfl

theorem legalPacking_filling (count : ℕ) :
    LegalPacking (· == 0x12) ((List.range' 0 count).map fillingInput) := by
  have hnone : (fun _ ↦ none : ℕ → Reception) 0x12 = fillingReception 0 := (if_pos rfl).symm
  refine ⟨carriesAll_range (fun index ↦ (fillingInput_header index).1)
    (fun index _ _ ↦ fillingInput_carries index) hnone, fun pid _ ↦ consistent_of_short ?_⟩
  intro sect hsect
  unfold sectionsOn at hsect
  obtain ⟨carried, hcarried, hmem⟩ := List.mem_flatMap.mp hsect
  obtain ⟨index, -, rfl⟩ := List.mem_map.mp (List.mem_of_mem_filter hcarried)
  exact isLong_fillingInput hmem

theorem fillingInputs_eq : fillingInputs =
    (List.range' 0 22).map fillingInput ++ (List.range' 22 18).map fillingInput := by
  rw [← List.map_append]
  rfl

theorem sections_fillingInput {index : ℕ} (hlarge : index < 22) :
    (fillingInput index).sections = [] := by
  unfold fillingInput
  split_ifs
  · rfl
  · omega
  · rfl
  · omega

theorem sections_small {first : ℕ} (hsmall : 23 ≤ first) (count : ℕ) :
    ((List.range' first count).map fillingInput).flatMap CarriedPacket.sections =
      List.replicate (count * 61) smallSection := by
  induction count generalizing first with
  | zero => rw [Nat.zero_mul]; rfl
  | succ count ih =>
    have hsections : (fillingInput first).sections = List.replicate 61 smallSection := by
      unfold fillingInput
      rw [if_neg (by omega), if_neg (by omega)]
    rw [List.range'_succ, List.map_cons, List.flatMap_cons, hsections, ih (by omega),
      List.replicate_append_replicate]
    congr 1
    omega

theorem passing_fillingInputs :
    (fillingInputs.flatMap CarriedPacket.sections).filter (fun sect ↦ noRules.Passes sect) =
      largeSection :: List.replicate 1037 smallSection := by
  have hstart : ((List.range' 0 22).map fillingInput).flatMap CarriedPacket.sections = [] := by
    rw [List.flatMap_eq_nil_iff]
    intro input hinput
    obtain ⟨index, hindex, rfl⟩ := List.mem_map.mp hinput
    exact sections_fillingInput (by simpa using hindex)
  have hlarge : (fillingInput 22).sections = [largeSection] := rfl
  have hsections : fillingInputs.flatMap CarriedPacket.sections =
      largeSection :: List.replicate 1037 smallSection := by
    rw [fillingInputs_eq, List.flatMap_append, hstart, List.nil_append, List.range'_succ,
      List.map_cons, List.flatMap_cons, hlarge, sections_small le_rfl]
    rfl
  rw [hsections, List.filter_eq_self]
  intro sect hsect
  rw [decide_eq_true_eq]
  have htid : sect.tableId = 0x80 := by
    rcases List.mem_cons.mp hsect with rfl | hmem
    · rfl
    · rw [List.eq_of_mem_replicate hmem]
      rfl
  refine ⟨List.not_mem_nil, fun heit ↦ ?_⟩
  rw [htid] at heit
  exact absurd heit (by decide)

/-- While the large section is sent, 1037 small sections are received in a legal packing, and the
law does not hold. -/
theorem not_follows_of_largeSection : LegalPacking (· == 0x12) fillingInputs ∧
    ¬ FollowsLaw noRules (· == 0x12) 0x12 fillingInputs := by
  refine ⟨legalPacking_filling 40, ?_⟩
  rintro ⟨final, outputs, hrun, ⟨carried, sent, houtputs, hcarries, hselected⟩, hlimit⟩
  rw [passing_fillingInputs] at hselected
  rw [fillingInputs_eq, Machine.run_append_eq_some] at hrun
  obtain ⟨middle, first, later, hfirst, hlater, rfl⟩ := hrun
  obtain ⟨before, after, rfl, hbefore, hafter⟩ := List.map_eq_append_iff.mp houtputs
  obtain ⟨last, hstart⟩ := (legalPacking_filling 22).carries
  obtain ⟨other, nulls, hnulls, hall⟩ := Tracks.run_nothing (by decide : 0x12 < pidNull) hstart
    (tracks_new (· == 0x12) 0x12) rfl fun input hinput ↦ by
      obtain ⟨index, hindex, rfl⟩ := List.mem_map.mp hinput
      exact sections_fillingInput (by simpa using hindex)
  rw [hfirst] at hnulls
  obtain ⟨rfl, rfl⟩ := Prod.mk.inj (Option.some.inj hnulls)
  obtain ⟨received, hcarriesBefore, hcarriesAfter⟩ := hcarries.split
  obtain ⟨hnothing, rfl⟩ := hcarriesBefore.nothing fun input hinput ↦ by
    rw [hall input.packet (by rw [← hbefore]; exact List.mem_map_of_mem hinput)]
    decide
  have hbytes := hcarriesAfter.length_le
  have hcount : after.length ≤ 18 := by
    have hlength := length_outputs hlater
    rw [← hafter] at hlength
    simpa using hlength
  rw [List.flatMap_append, hnothing, List.nil_append] at hselected
  have hlength := hselected.length_eq
  have hpending : final.pending.length ≤ 1 + final.sections.length := by
    unfold pending
    rw [List.length_append]
    refine Nat.add_le_add_right ?_ _
    cases final.packetizer.currentSection with
    | none => exact Nat.zero_le 1
    | some sect => exact le_rfl
  unfold Rules.maxSections at hlimit
  rw [List.length_cons, List.length_replicate, List.length_append] at hlength
  cases hsent : after.flatMap CarriedPacket.sections with
  | nil =>
    rw [hsent, List.length_nil] at hlength
    omega
  | cons sect others =>
    rw [hsent, List.cons_append, List.forall₂_cons] at hselected
    have hcontent := hselected.1.same (Or.inl rfl)
    rw [hsent, List.flatMap_cons, List.length_append, hcontent, length_largeSection] at hbytes
    have hnone : startedBytes ((fun _ ↦ none : ℕ → Reception) 0x12) = 0 := rfl
    rw [hnone] at hbytes
    omega

end EITProcessor

end TSDuck
