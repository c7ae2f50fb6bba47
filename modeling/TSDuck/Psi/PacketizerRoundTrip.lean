import TSDuck.Psi.Packetizer
import TSDuck.Psi.SectionCarriage

/-!
# From a packetizer to a section demux

A packetizer cuts the sections of a list into packets, until the list is exhausted, and a new demux
is fed with the packets. `sections_roundTrip` states that the demux calls its section handler once
for each section, in order and with the same bytes, whatever the answers about stuffing are.

`Linked` is the relation between the packetizer and the demux from one packet to the next.

Scope. A section is one that the code builds from its bytes with a check of its CRC32
(`Section.IsReadable`). The prefix of a PES packet is looked for in the payload of a packet where a
section starts, and the payload starts with the pointer field: a section starts like the end of the
prefix when its first two bytes are 00 01.
-/

namespace TSDuck

/-- A provider of a list, with answers about stuffing. -/
def listProvider (answers : ℕ → Bool) : SectionProvider Section (List Section × ℕ) where
  provideSection _ _ state := (state.1.head?, state.1.tail, state.2)
  doStuffing state := (answers state.2, state.1, state.2 + 1)

/-- The packets until there is no more section. -/
def packetsUntilExhausted {State : Type} (provider : SectionProvider Section State) :
    ℕ → Packetizer Section → State → Option (List TSPacket)
  | 0, _, _ => none
  | calls + 1, packetizer, state =>
    let result := packetizer.getNextPacket id (some provider) state
    if result.found then
      (packetsUntilExhausted provider calls result.packetizer result.provider).map
        (result.packet :: ·)
    else some []

theorem head?_append_tail {Item : Type} (items : List Item) :
    items.head?.toList ++ items.tail = items := by
  cases items <;> rfl

/-- What was given and what remains. -/
theorem Requests.given_eq {State : Type} {asked : SectionProvider Section State}
    {allowed : State → Prop} {packetCount first last : ℕ} {start finish : State}
    {given : List Section} {exhausted : Bool}
    (hrequests : Requests (some asked) allowed packetCount first start given exhausted last finish)
    (waiting : State → List Section)
    (hprovide : ∀ packets requests state, (asked.provideSection packets requests state).1.toList ++
      waiting (asked.provideSection packets requests state).2 = waiting state)
    (hstuffing : ∀ state, waiting (asked.doStuffing state).2 = waiting state) :
    waiting start = given ++ waiting finish := by
  induction hrequests with
  | nil => rfl
  | @stuffing _ _ state _ _ _ ih =>
    rw [ih]
    exact congrArg _ (hstuffing state).symm
  | @sect _ _ state given other _ hother _ ih =>
    obtain rfl := Option.some.inj hother
    rw [ih, List.append_assoc, hprovide]

/-! ### The content of a packet -/

namespace Packetizer

section Payload

variable {pkt : TSPacket} {pid continuity : ℕ} {offset : Option ℕ} {payload : ByteBlock}
  (hbytes : pkt.bytes = packetHeader offset.isSome pid continuity ++
    ((offset.map UInt8.ofNat).toList ++ payload))

include hbytes

theorem payload_of_header (hpid : pid < pidMax) (hcontinuity : continuity < ccMax) :
    pkt.IsPayload ∧ pkt.sectionData = payload ∧
      ∀ value, offset = some value → value < 256 → pkt.pointerField = value := by
  obtain ⟨hscrambling, hsize, hpayload⟩ := flags_of_header hbytes hcontinuity
  refine ⟨⟨hasValidSync_of_header hbytes, hscrambling, hpayload, by rw [hsize]; decide⟩, ?_, ?_⟩
  · unfold TSPacket.sectionData
    rw [hsize, getPUSI_of_header hbytes hpid, hbytes]
    cases offset <;> rfl
  · rintro value rfl hvalue
    have hfield : byteAt pkt.bytes 4 = UInt8.ofNat value := by
      rw [hbytes]
      rfl
    unfold TSPacket.pointerField
    rw [hsize, hfield, UInt8.toNat_ofNat', Nat.mod_eq_of_lt hvalue]

end Payload

/-- What the packets have carried so far. -/
structure Sends (packetizer : Packetizer Section) (received : Reception) : Prop where
  nothing : received = none → packetizer.nextByte = 0
  started : ∀ counter before, received = some (counter, before) →
    (counter.toNat + 1) % ccMax = packetizer.continuity ∧ before = packetizer.inserted id

theorem sends_new (pid : ℕ) : (Packetizer.new pid).Sends none :=
  ⟨fun _ ↦ rfl, fun _ _ hnone ↦ absurd hnone.symm (Option.some_ne_none _)⟩

section Content

variable {Given : Type} {provider : Option (SectionProvider Section Given)} {allowed : Given → Prop}
  {packetizer : Packetizer Section} {given : Given} {result : PacketResult Section Given}
  {offset : Option ℕ} {stuffing : ℕ}
  (hprogress : Packetizer.Progress id provider allowed packetizer given result)
  (hlayout : Packetizer.Layout id provider packetizer given result offset stuffing)

theorem length_inserted {packetizer : Packetizer Section} (hready : packetizer.Ready id) :
    (packetizer.inserted id).length = packetizer.nextByte := by
  unfold Packetizer.inserted
  cases hcurrent : packetizer.currentSection with
  | none => exact (hready.nextByte_eq hcurrent).symm
  | some sect =>
    have hbyte : packetizer.nextByte < sect.content.length := hready.nextByte_lt sect hcurrent
    show (sect.content.take packetizer.nextByte).length = _
    rw [List.length_take]
    omega

include hlayout

/-- Where the pointer field points. -/
theorem toPusi_cases (hready : packetizer.Ready id)
    {more : List Section} (hfirst : packetizer.currentSection.toList ++ more =
      result.finished ++ result.packetizer.currentSection.toList)
    {first : Section} (hmem : first ∈ result.finished.head?) {value : ℕ}
    (hvalue : offset = some value) :
    packetizer.nextByte + value = 0 ∨ packetizer.nextByte + value = first.size := by
  rcases hlayout.pointer_some value hvalue with ⟨hzero, rfl⟩ | ⟨hbyte, -, -, -, hend⟩
  · left
    rw [hzero]
  · right
    cases hcurrent : packetizer.currentSection with
    | none => exact absurd (hready.nextByte_eq hcurrent) hbyte
    | some current =>
      rw [hcurrent] at hfirst
      obtain ⟨others, hfinished⟩ : ∃ others, result.finished = first :: others :=
        List.head?_eq_some_iff.mp hmem
      rw [hfinished] at hfirst
      obtain ⟨rfl, -⟩ := List.cons.inj hfirst
      exact hend current hcurrent

include hprogress

theorem unstuffed_of_unfinished (hfinished : result.finished = []) :
    stuffing = 0 ∧ result.packetizer.inserted id = packetizer.inserted id ++ result.data := by
  have hbytes := hprogress.bytes
  rw [hfinished, List.flatMap_nil, List.nil_append] at hbytes
  refine ⟨hlayout.stuffed.resolve_right fun hzero ↦ ?_, hbytes.symm⟩
  have hnothing := length_inserted hprogress.ready
  rw [hzero, ← hbytes, List.length_append] at hnothing
  have hsome := List.length_pos_of_ne_nil hlayout.data_ne
  omega

theorem payloadTail (hcurrent : ∀ sect ∈ result.packetizer.currentSection, sect.Transportable) :
    PayloadTail result.finished
      (result.packetizer.inserted id ++ List.replicate stuffing 0xFF)
      (result.packetizer.inserted id) := by
  have hended : result.packetizer.inserted id = [] → result.finished ≠ [] := by
    intro hnothing hfinished
    have hsame := (unstuffed_of_unfinished hprogress hlayout hfinished).2
    rw [hnothing] at hsame
    exact hlayout.data_ne (List.append_eq_nil_iff.mp hsame.symm).2
  by_cases hnothing : result.packetizer.inserted id = []
  · rw [hnothing, List.nil_append]
    exact .stuffing stuffing (hended hnothing)
  · have hinserted := length_inserted hprogress.ready
    have hsome := List.length_pos_of_ne_nil hnothing
    obtain rfl := hlayout.stuffed.resolve_right (by omega)
    rw [List.replicate_zero, List.append_nil]
    unfold Packetizer.inserted at hnothing ⊢
    cases hsection : result.packetizer.currentSection with
    | none =>
      rw [hsection] at hnothing
      exact absurd rfl hnothing
    | some sect =>
      exact .started sect _ (hcurrent sect hsection) (hprogress.ready.nextByte_lt sect hsection)

/-- The packet of a packetizer carries the sections which end in it. -/
theorem carries_of_layout (hready : packetizer.Ready id) (hpid : packetizer.pid < pidMax)
    {received : Reception} (hsends : packetizer.Sends received) {more : List Section}
    (hfirst : packetizer.currentSection.toList ++ more =
      result.finished ++ result.packetizer.currentSection.toList)
    (htransportable : ∀ sect ∈ result.finished ++ result.packetizer.currentSection.toList,
      sect.Transportable) :
    result.packet.getPID = packetizer.pid ∧ ∃ after,
      PacketCarries received result.packet result.finished after ∧
        result.packetizer.Sends after := by
  have hbytes : result.packet.bytes =
      packetHeader offset.isSome packetizer.pid packetizer.continuity ++
        ((offset.map UInt8.ofNat).toList ++ (result.data ++ List.replicate stuffing 0xFF)) := by
    rw [hlayout.bytes, List.append_assoc]
  obtain ⟨hpayload, hdata, hpointer⟩ := payload_of_header hbytes hpid hready.continuity_lt
  have hpusi := getPUSI_of_header hbytes hpid
  have hcounter := getCC_of_header hbytes hready.continuity_lt
  have hinserted := length_inserted hready
  have hsize := hlayout.size
  have hoffset : ∀ value, offset = some value →
      value < 256 ∧ value < result.packet.sectionData.length := by
    rintro value rfl
    rw [hdata, List.length_append, List.length_replicate]
    simp only [Option.map_some, Option.toList_some, List.length_singleton] at hsize
    rcases hlayout.pointer_some value rfl with ⟨-, rfl⟩ | ⟨-, -, hsmall, -⟩
    · exact ⟨by decide, by omega⟩
    · exact ⟨by omega, by omega⟩
  have htail := payloadTail hprogress hlayout fun sect hsect ↦
    htransportable sect (List.mem_append_right _ (Option.mem_toList.mpr hsect))
  have hsections : ∀ sect ∈ result.finished, sect.Transportable :=
    fun sect hsect ↦ htransportable sect (List.mem_append_left _ hsect)
  have hbuffer : packetizer.inserted id ++ result.packet.sectionData =
      result.finished.flatMap Section.content ++
        (result.packetizer.inserted id ++ List.replicate stuffing 0xFF) := by
    have hcontents : packetizer.inserted id ++ result.data =
        result.finished.flatMap Section.content ++ result.packetizer.inserted id :=
      hprogress.bytes
    rw [hdata, ← List.append_assoc, hcontents, List.append_assoc]
  refine ⟨getPID_of_header hbytes hpid, some (result.packet.getCC, result.packetizer.inserted id),
    ?_, fun hnone ↦ absurd hnone (Option.some_ne_none _), fun counter before hposition ↦ ?_⟩
  · cases received with
    | none =>
      have hzero := hsends.nothing rfl
      obtain ⟨value, rfl⟩ : ∃ value, offset = some value := by
        refine Option.ne_none_iff_exists'.mp fun hnone ↦ hlayout.pointer_none hnone hzero
      obtain rfl : value = 0 := by
        rcases hlayout.pointer_some value rfl with ⟨-, hvalue⟩ | ⟨hbyte, -⟩
        · exact hvalue
        · exact absurd hzero hbyte
      obtain ⟨hbyte, hinside⟩ := hoffset 0 rfl
      have hfield := hpointer 0 rfl hbyte
      refine .first hpayload hpusi (by rw [hfield]; exact hinside) ?_ htail hsections
      rw [hfield, List.drop_zero, ← hbuffer,
        List.length_eq_zero_iff.mp (hinserted.trans hzero), List.nil_append]
    | some position =>
      obtain ⟨counter, before⟩ := position
      obtain ⟨hfollows, rfl⟩ := hsends.started counter before rfl
      refine .next hpayload (hcounter.trans hfollows.symm) ?_ hbuffer htail hsections
      cases offset with
      | none =>
        rw [if_neg (by rw [hpusi]; decide)]
        intro hnothing
        rw [hnothing] at hinserted
        exact hlayout.pointer_none rfl hinserted.symm
      | some value =>
        obtain ⟨hbyte, hinside⟩ := hoffset value rfl
        rw [if_pos (show result.packet.getPUSI = true from hpusi), hpointer value rfl hbyte]
        refine ⟨hinside, ?_⟩
        rcases hlayout.pointer_some value rfl with ⟨hzero, rfl⟩ | ⟨hstarted, hpositive, -⟩
        · exact Or.inl ⟨List.length_eq_zero_iff.mp (hinserted.trans hzero), rfl⟩
        · refine Or.inr ⟨fun hnothing ↦ ?_, hpositive, fun first hmem ↦ ?_⟩
          · rw [hnothing] at hinserted
            exact hstarted hinserted.symm
          · rw [hinserted]
            exact (toPusi_cases hlayout hready hfirst hmem rfl).resolve_left (by omega)
  · obtain ⟨rfl, rfl⟩ := Prod.mk.inj (Option.some.inj hposition)
    refine ⟨?_, rfl⟩
    rw [hcounter, hlayout.continuity_eq]

end Content

end Packetizer

namespace SectionDemux

variable {State : Type} {handlers : DemuxHandlers State}

/-! ### One packet -/

/-- What has been announced is what some sections announce. -/
def AnnouncedBy (all : List Section) (announced : Announcements) : Prop :=
  ∀ etid version last, announced etid = some (version, last) →
    ∀ sect ∈ all, sect.isLongSection = true → sect.etid = etid → sect.version = version →
      sect.lastSectionNumber = last

theorem AnnouncedBy.consistent {all : List Section} (hlast : Section.AnnounceSameLast all)
    {announced : Announcements} (hannounced : AnnouncedBy all announced) {sections : List Section}
    (hmem : ∀ sect ∈ sections, sect ∈ all) :
    Consistent announced sections ∧
      AnnouncedBy all (sections.foldl Announcements.announce announced) := by
  induction sections generalizing announced with
  | nil => exact ⟨trivial, hannounced⟩
  | cons sect rest ih =>
    have hsect := hmem sect List.mem_cons_self
    have hnext : AnnouncedBy all (announced.announce sect) := by
      intro etid version last hsome other hother hlong hetid hversion
      unfold Announcements.announce at hsome
      by_cases hsame : etid = sect.etid
      · subst hsame
        rw [Function.update_self] at hsome
        obtain ⟨hsectVersion, rfl⟩ := Prod.mk.inj (Option.some.inj hsome)
        exact (hlast other hother sect hsect hlong hetid.symm
          (hsectVersion.trans hversion.symm)).symm
      · rw [Function.update_of_ne hsame] at hsome
        exact hannounced etid version last hsome other hother hlong hetid hversion
    obtain ⟨hrest, hafter⟩ := ih hnext (List.forall_mem_cons.mp hmem).2
    refine ⟨⟨fun hlong last hsome ↦ ?_, hrest⟩, hafter⟩
    exact hannounced _ _ _ hsome sect hsect hlong rfl rfl

/-- The demux has received what the packetizer has sent. -/
structure Linked (packetizer : Packetizer Section) (demux : SectionDemux State) (pid : ℕ)
    (all : List Section) : Prop where
  ready : packetizer.Ready id
  pid_eq : packetizer.pid = pid
  pidFilter : demux.pidFilter pid = true
  getCurrent : demux.getCurrent = true
  received : ∃ received announced, packetizer.Sends received ∧
    demux.Receives pid received announced ∧ AnnouncedBy all announced

theorem linked_new {pidFilter : ℕ → Bool} {pid : ℕ} (hfilter : pidFilter pid = true)
    (application : State) (all : List Section) :
    Linked (Packetizer.new pid) (new pidFilter application) pid all :=
  ⟨Packetizer.ready_new pid, rfl, hfilter, rfl, none, fun _ ↦ none, Packetizer.sends_new pid,
    receives_new pidFilter application pid,
    fun _ _ _ hsome ↦ absurd hsome.symm (Option.some_ne_none _)⟩

section OnePacket

variable {Given : Type} {provider : Option (SectionProvider Section Given)} {allowed : Given → Prop}
  {packetizer : Packetizer Section} {given : Given} {result : PacketResult Section Given}
  {offset : Option ℕ} {stuffing : ℕ} {demux : SectionDemux State} {pid : ℕ} {all : List Section}

/-- A packet of a packetizer. -/
theorem Linked.packet (happlication : HandlesSections handlers) (hpid : pid < pidMax)
    (htransportable : ∀ sect ∈ all, sect.Transportable) (hlast : Section.AnnounceSameLast all)
    (hlinked : Linked packetizer demux pid all)
    (hprogress : Packetizer.Progress id provider allowed packetizer given result)
    (hlayout : Packetizer.Layout id provider packetizer given result offset stuffing)
    {more : List Section} (hfirst : packetizer.currentSection.toList ++ more =
      result.finished ++ result.packetizer.currentSection.toList)
    (hmem : ∀ sect ∈ result.finished ++ result.packetizer.currentSection.toList, sect ∈ all) :
    Linked result.packetizer (demux.feedPacket handlers result.packet).1 pid all ∧
      handledContents (demux.feedPacket handlers result.packet).2 =
        result.finished.map Section.content := by
  obtain ⟨hready, rfl, hfilter, hcurrent, received, announced, hsends, hreceives, hannounced⟩ :=
    hlinked
  obtain ⟨hconsistent, hafter⟩ := hannounced.consistent hlast fun sect hsect ↦
    hmem sect (List.mem_append_left _ hsect)
  obtain ⟨hpacket, after, hcarries, hsent⟩ :=
    Packetizer.carries_of_layout hprogress hlayout hready hpid hsends hfirst fun sect hsect ↦
      htransportable sect (hmem sect hsect)
  rw [← hpacket] at hfilter hreceives
  obtain ⟨hreceived, ⟨hfilterAfter, hcurrentAfter, -⟩, hhandled⟩ :=
    feedPacket_carries happlication hfilter hcurrent hreceives hcarries hconsistent
  rw [hpacket] at hfilter hreceived
  refine ⟨⟨hprogress.ready, hprogress.pid_eq, ?_, hcurrentAfter.trans hcurrent, after, _, hsent,
    hreceived, hafter⟩, hhandled⟩
  rw [hfilterAfter]
  exact hfilter

end OnePacket

/-! ### All packets -/

theorem given_of_listProvider {answers : ℕ → Bool} {allowed : List Section × ℕ → Prop}
    {packetCount first last : ℕ} {start finish : List Section × ℕ} {given : List Section}
    {exhausted : Bool} (hrequests : Requests (some (listProvider answers)) allowed packetCount first
      start given exhausted last finish) : start.1 = given ++ finish.1 :=
  hrequests.given_eq Prod.fst (fun _ _ state ↦ head?_append_tail state.1) fun _ ↦ rfl

theorem exhausted_of_not_found {answers : ℕ → Bool} {packetizer : Packetizer Section}
    {given : List Section × ℕ}
    (hfound : (packetizer.getNextPacket id (some (listProvider answers)) given).found = false) :
    packetizer.currentSection = none ∧ given.1 = [] := by
  obtain ⟨sections, questions⟩ := given
  unfold Packetizer.getNextPacket Packetizer.acquire at hfound
  cases hcurrent : packetizer.currentSection with
  | some sect =>
    rw [if_neg (by rw [hcurrent]; simp)] at hfound
    simp only [Packetizer.counted, hcurrent] at hfound
    exact absurd hfound Bool.true_eq_false.mp
  | none =>
    rw [if_pos (by rw [hcurrent]; simp)] at hfound
    cases sections with
    | nil => exact ⟨rfl, rfl⟩
    | cons first others => exact absurd hfound Bool.true_eq_false.mp

/-- The bytes of the sections to insert. -/
def pendingBytes (packetizer : Packetizer Section) (sections : List Section) : ByteBlock :=
  (packetizer.currentSection.toList ++ sections).flatMap Section.content

theorem length_inserted_le (packetizer : Packetizer Section) (sections : List Section) :
    (packetizer.inserted id).length ≤ (pendingBytes packetizer sections).length := by
  unfold Packetizer.inserted pendingBytes
  cases packetizer.currentSection with
  | none => exact Nat.zero_le _
  | some sect =>
    show (sect.content.take packetizer.nextByte).length ≤ _
    rw [Option.toList_some, List.singleton_append, List.flatMap_cons, List.length_append,
      List.length_take]
    omega

/-- The packetizer exhausts the list, by induction on the bytes. -/
theorem Linked.packets (happlication : HandlesSections handlers) {pid : ℕ} (hpid : pid < pidMax)
    {all : List Section} (htransportable : ∀ sect ∈ all, sect.Transportable)
    (hlast : Section.AnnounceSameLast all) (answers : ℕ → Bool) {bytes : ℕ}
    {packetizer : Packetizer Section} {given : List Section × ℕ} {demux : SectionDemux State}
    (hlinked : Linked packetizer demux pid all)
    (hmem : ∀ sect ∈ packetizer.currentSection.toList ++ given.1, sect ∈ all)
    (hbytes : (pendingBytes packetizer given.1).length ≤ (packetizer.inserted id).length + bytes) :
    ∃ packets last log, (∀ calls, bytes < calls →
        packetsUntilExhausted (listProvider answers) calls packetizer given = some packets) ∧
      (machine handlers).run demux packets = some (last, log) ∧ handledContents log =
          (packetizer.currentSection.toList ++ given.1).map Section.content := by
  induction bytes using Nat.strong_induction_on generalizing packetizer given demux with
  | h bytes ih =>
    obtain ⟨hprogress, -, hresult⟩ :=
      Packetizer.getNextPacket_spec (some (listProvider answers)) given hlinked.ready
    have hcalls : ∀ calls, bytes < calls → ∃ others, calls = others + 1 ∧ bytes ≤ others :=
      fun calls hless ↦ ⟨calls - 1, by omega, by omega⟩
    rcases hresult with ⟨hfound, -, -⟩ | ⟨hfound, offset, stuffing, hlayout⟩
    · obtain ⟨hnone, hnil⟩ := exhausted_of_not_found hfound
      refine ⟨[], demux, [], fun calls hless ↦ ?_, rfl, ?_⟩
      · obtain ⟨others, rfl, -⟩ := hcalls calls hless
        unfold packetsUntilExhausted
        exact if_neg (by rw [hfound]; decide)
      · rw [hnone, hnil]
        rfl
    · have hunfold : ∀ others, packetsUntilExhausted (listProvider answers) (others + 1) packetizer
          given = (packetsUntilExhausted (listProvider answers) others
            (packetizer.getNextPacket id (some (listProvider answers)) given).packetizer
            (packetizer.getNextPacket id (some (listProvider answers)) given).provider).map
              ((packetizer.getNextPacket id (some (listProvider answers)) given).packet :: ·) :=
        fun _ ↦ if_pos hfound
      generalize packetizer.getNextPacket id (some (listProvider answers)) given = result
        at hprogress hlayout hunfold
      obtain ⟨more, exhausted, hrequests, hfirst⟩ := hprogress.requests
      have hsections : packetizer.currentSection.toList ++ given.1 = result.finished ++
          (result.packetizer.currentSection.toList ++ result.provider.1) := by
        rw [given_of_listProvider hrequests, ← List.append_assoc, hfirst, List.append_assoc]
      have hpending : pendingBytes packetizer given.1 = result.finished.flatMap Section.content ++
          pendingBytes result.packetizer result.provider.1 := by
        unfold pendingBytes
        rw [hsections, List.flatMap_append]
      rw [hsections] at hmem
      obtain ⟨hnext, hhandled⟩ := hlinked.packet happlication hpid htransportable hlast hprogress
        hlayout hfirst fun sect hsect ↦ by
          apply hmem
          rw [← List.append_assoc]
          exact List.mem_append_left _ hsect
      have hlength := congrArg List.length hprogress.bytes
      have hinserted : (packetizer.inserted id).length + result.data.length =
          (result.finished.flatMap Section.content).length +
            (result.packetizer.inserted id).length := by
        rw [← List.length_append, hlength, List.length_append]
        rfl
      have hdata := List.length_pos_of_ne_nil hlayout.data_ne
      have hrest := length_inserted_le result.packetizer result.provider.1
      rw [hpending, List.length_append] at hbytes
      obtain ⟨packets, last, log, hpackets, hrun, hlog⟩ :=
        ih (bytes - result.data.length) (by omega) hnext
          (fun sect hsect ↦ hmem sect (List.mem_append_right _ hsect)) (by omega)
      refine ⟨result.packet :: packets, last,
        (demux.feedPacket handlers result.packet).2 ++ log, fun calls hless ↦ ?_, ?_, ?_⟩
      · obtain ⟨others, rfl, hothers⟩ := hcalls calls hless
        rw [hunfold, hpackets others (by omega)]
        rfl
      · exact (machine handlers).run_cons_eq_some.mpr ⟨_, _, _, rfl, hrun, rfl⟩
      · rw [handledContents_append, hhandled, hlog, hsections]
        exact List.map_append.symm

/-- Assumes: sections that packets carry, of which those of one table id, extension and version
announce the same last section, and a section handler only, which resets nothing. The packetizer
exhausts the list, and the handler of a new demux gets each section once, in order, with the same
bytes. -/
theorem sections_roundTrip (happlication : HandlesSections handlers) {pid : ℕ} (hpid : pid < pidMax)
    {pidFilter : ℕ → Bool} (hfilter : pidFilter pid = true) (application : State)
    {sections : List Section} (htransportable : ∀ sect ∈ sections, sect.Transportable)
    (hlast : Section.AnnounceSameLast sections) (answers : ℕ → Bool) :
    ∃ packets last log,
      (∃ bound, ∀ calls, bound ≤ calls → packetsUntilExhausted (listProvider answers) calls
        (Packetizer.new pid) (sections, 0) = some packets) ∧
      (machine handlers).run (new pidFilter application) packets = some (last, log) ∧
        handledContents log = sections.map Section.content := by
  have hbytes : (pendingBytes (Packetizer.new pid) (sections, 0).1).length ≤
      ((Packetizer.new pid).inserted (id : Section → Section)).length +
        (sections.flatMap Section.content).length :=
    Nat.le_add_left _ _
  have hmem : ∀ sect ∈ (Packetizer.new pid).currentSection.toList ++
      ((sections, 0) : List Section × ℕ).1, sect ∈ sections :=
    fun _ hsect ↦ hsect
  obtain ⟨packets, last, log, hpackets, hrun, hlog⟩ :=
    (linked_new hfilter application sections).packets happlication hpid htransportable hlast answers
      hmem hbytes
  exact ⟨packets, last, log, ⟨_, fun calls hcalls ↦ hpackets calls hcalls⟩, hrun, hlog⟩

def countingSections : DemuxHandlers ℕ where
  handleTable := none
  handleSection := some fun count _ ↦ (count + 1, [])

def longSection : Section where
  content :=
    Section.withCrc32 [0x80, 0xB0, 0x09, 0x00, 0x01, 0xC1, 0x00, 0x00, 0x00, 0x00, 0x00, 0x00]
  sourcePid := pidNull
  firstPkt := 0
  lastPkt := 0
  bytes := ⟨rfl, by decide, fun _ ↦ le_rfl⟩

def shortSection : Section where
  content := [0x70, 0x70, 0x02, 0x12, 0x34]
  sourcePid := pidNull
  firstPkt := 0
  lastPkt := 0
  bytes := ⟨rfl, by decide, by decide⟩

/-- Three sections are carried, with stuffing after every other one. -/
theorem countingSections_roundTrip : ∃ packets last log, (∃ bound, ∀ calls, bound ≤ calls →
      packetsUntilExhausted (listProvider fun index ↦ decide (index % 2 = 0)) calls
      (Packetizer.new 0x100) ([longSection, shortSection, longSection], 0) = some packets) ∧
    (machine countingSections).run (new (fun _ ↦ true) 0) packets = some (last, log) ∧
      handledContents log = [longSection, shortSection, longSection].map Section.content := by
  have happlication : HandlesSections countingSections := by
    refine ⟨⟨fun handle hhandle ↦ ?_, fun handle hhandle state sect ↦ ?_⟩, rfl, rfl⟩
    · cases hhandle
    · obtain rfl := Option.some.inj hhandle
      rfl
  have hlong : longSection.Transportable :=
    ⟨by decide, fun _ ↦ by decide, ⟨fun _ ↦ by decide, fun _ _ ↦ by decide +kernel⟩, by decide⟩
  have hshort : shortSection.Transportable :=
    ⟨by decide, by decide, ⟨by decide, fun _ ↦ by decide⟩, by decide⟩
  apply sections_roundTrip happlication (by decide) rfl 0
  · intro sect hsect
    simp only [List.mem_cons, List.not_mem_nil, or_false] at hsect
    rcases hsect with rfl | rfl | rfl
    · exact hlong
    · exact hshort
    · exact hlong
  · intro first hfirst second hsecond
    simp only [List.mem_cons, List.not_mem_nil, or_false] at hfirst hsecond
    rcases hfirst with rfl | rfl | rfl <;> rcases hsecond with rfl | rfl | rfl <;> decide

end SectionDemux

end TSDuck
