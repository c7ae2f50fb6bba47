import TSDuck.Library.Reassembly
import TSDuck.Mpeg.PacketWriter

/-!
# Decapsulation of packets from a PID

The packets of one PID carry a stream of packets without their synchronization byte.

`processPacket` is one call, `none` when an assertion fails or when a copy reads or writes outside
of a packet. `Sound` is the invariant which makes it succeed for any packet, whatever its pointer
field and its adaptation field are (`Sound.processPacket`).
-/

namespace TSDuck

inductive DecapsulationError
  | outOfRange
  | discontinuity
  deriving DecidableEq

structure PacketDecapsulation where
  pidInput : ℕ
  synchronized : Bool
  ccInput : UInt8
  nextIndex : ℕ
  nextPacket : TSPacket
  lastError : Option DecapsulationError

namespace PacketDecapsulation

def new (pid : ℕ) : PacketDecapsulation where
  pidInput := pid
  synchronized := false
  ccInput := 0
  nextIndex := 1
  nextPacket := TSPacket.zero.setByte 0 syncByte
  lastError := none

def lostSync (dec : PacketDecapsulation) (error : DecapsulationError) : PacketDecapsulation :=
  { dec with synchronized := false, nextIndex := 1, lastError := some error }

/-- What a call returns. -/
structure Outcome where
  packet : TSPacket
  status : Bool
  extracted : Bool

/-- Copies a payload in the next packet. -/
def copyPayload (dec : PacketDecapsulation) (pkt : TSPacket) (pktIndex : ℕ) :
    Option (PacketDecapsulation × Outcome) :=
  if pktIndex ≤ pktSize ∧ dec.nextIndex ≤ pktSize then
    let size := min (pktSize - pktIndex) (pktSize - dec.nextIndex)
    (dec.nextPacket.memcpy dec.nextIndex pkt pktIndex size).bind fun nextPacket ↦
      let pktIndex := pktIndex + size
      let nextIndex := dec.nextIndex + size
      if nextIndex = pktSize then
        let size := pktSize - pktIndex
        (nextPacket.memcpy 1 pkt pktIndex size).map fun following ↦
          ({ dec with nextPacket := following, nextIndex := 1 + size },
            { packet := nextPacket, status := true, extracted := true })
      else if pktIndex = pktSize ∧ nextIndex < pktSize then
        some ({ dec with nextPacket := nextPacket, nextIndex := nextIndex },
          { packet := nullPacket, status := true, extracted := false })
      else none
  else none

def pointerField (pkt : TSPacket) : ℕ × ℕ :=
  if pkt.getPUSI && pkt.getHeaderSize < pktSize then
    ((byteAt pkt.bytes pkt.getHeaderSize).toNat, pkt.getHeaderSize + 1)
  else (0, pkt.getHeaderSize)

def outOfRange (pkt : TSPacket) : Bool :=
  pkt.getPUSI && (pointerField pkt).2 + (pointerField pkt).1 > pktSize

def checkContinuity (dec : PacketDecapsulation) (pkt : TSPacket) : PacketDecapsulation :=
  let dec :=
    if dec.synchronized && pkt.getCC ≠ (dec.ccInput + 1) &&& 0x0F then dec.lostSync .discontinuity
    else dec
  { dec with ccInput := pkt.getCC }

def processPacket (dec : PacketDecapsulation) (pkt : TSPacket) :
    Option (PacketDecapsulation × Outcome) :=
  if dec.pidInput = pidNull ∨ pkt.getPID ≠ dec.pidInput then
    some (dec, { packet := pkt, status := true, extracted := false })
  else if outOfRange pkt then
    some (dec.lostSync .outOfRange, { packet := nullPacket, status := false, extracted := false })
  else
    let (pointer, pktIndex) := pointerField pkt
    let dec := dec.checkContinuity pkt
    if dec.synchronized then dec.copyPayload pkt pktIndex
    else if pkt.getPUSI then
      { dec with synchronized := true }.copyPayload pkt (pktIndex + pointer)
    else some (dec, { packet := nullPacket, status := true, extracted := false })

def processPackets :
    PacketDecapsulation → List TSPacket → Option (PacketDecapsulation × List Outcome)
  | dec, [] => some (dec, [])
  | dec, pkt :: rest =>
    (dec.processPacket pkt).bind fun first ↦
      (processPackets first.1 rest).map fun last ↦ (last.1, first.2 :: last.2)

def extracted (outcomes : List Outcome) : List TSPacket :=
  (outcomes.filter fun outcome ↦ outcome.extracted).map Outcome.packet

/-! ### Any packet -/

/-- The next packet has a synchronization byte and is not full. -/
structure Sound (dec : PacketDecapsulation) : Prop where
  sync : byteAt dec.nextPacket.bytes 0 = syncByte
  nextIndex_mem : 0 < dec.nextIndex ∧ dec.nextIndex < pktSize
  nextIndex_eq : dec.synchronized = false → dec.nextIndex = 1

theorem sound_new (pid : ℕ) : (new pid).Sound where
  sync := rfl
  nextIndex_mem := ⟨Nat.one_pos, show 1 < pktSize by decide⟩
  nextIndex_eq _ := rfl

theorem four_le_getHeaderSize (pkt : TSPacket) :
    4 ≤ pkt.getHeaderSize ∧ pkt.getHeaderSize ≤ pktSize := by
  rw [TSPacket.getHeaderSize, pktSize]
  omega

theorem pointerField_mem (pkt : TSPacket) :
    4 ≤ (pointerField pkt).2 ∧ (pointerField pkt).2 ≤ pktSize := by
  obtain ⟨hfour, hle⟩ := four_le_getHeaderSize pkt
  rw [pointerField]
  split_ifs with hpusi
  · simp only [Bool.and_eq_true, decide_eq_true_eq] at hpusi
    exact ⟨by omega, hpusi.2⟩
  · exact ⟨hfour, hle⟩

variable {dec : PacketDecapsulation} {pkt : TSPacket}

theorem Sound.copyPayload (hdec : dec.Sound) (hsynchronized : dec.synchronized = true)
    {pktIndex : ℕ} (hfour : 4 ≤ pktIndex) (hle : pktIndex ≤ pktSize) :
    ∃ next outcome, dec.copyPayload pkt pktIndex = some (next, outcome) ∧ next.Sound := by
  obtain ⟨hpos, hlt⟩ := hdec.nextIndex_mem
  have hsize : pktSize = 188 := rfl
  have hcopy : ∀ target : TSPacket, ∀ {offset start size : ℕ}, offset + size ≤ pktSize →
      start + size ≤ pktSize → 0 < offset → byteAt target.bytes 0 = syncByte →
      ∃ copied, target.memcpy offset pkt start size = some copied ∧
        byteAt copied.bytes 0 = syncByte := by
    intro target offset start size htarget hsource hoffset hsync
    refine ⟨_, if_pos ⟨htarget, hsource⟩, ?_⟩
    rw [TSPacket.byteAt_write_of_lt _ hoffset, hsync]
  rw [PacketDecapsulation.copyPayload, if_pos ⟨hle, hlt.le⟩]
  generalize hmin : min (pktSize - pktIndex) (pktSize - dec.nextIndex) = size
  obtain ⟨nextPacket, hnext, hsync⟩ := hcopy dec.nextPacket
    (show dec.nextIndex + size ≤ pktSize by omega) (show pktIndex + size ≤ pktSize by omega) hpos
    hdec.sync
  dsimp only
  rw [hnext, Option.bind_some]
  by_cases hfull : dec.nextIndex + size = pktSize
  · obtain ⟨following, hfollowing, hsync'⟩ := hcopy nextPacket
      (show 1 + (pktSize - (pktIndex + size)) ≤ pktSize by omega)
      (show pktIndex + size + (pktSize - (pktIndex + size)) ≤ pktSize by omega) Nat.one_pos hsync
    rw [if_pos hfull, hfollowing]
    refine ⟨_, _, rfl, ⟨hsync', ⟨Nat.add_pos_left Nat.one_pos _, ?_⟩, fun hlost ↦ ?_⟩⟩
    · show 1 + (pktSize - (pktIndex + size)) < pktSize
      omega
    · exact absurd (hsynchronized.symm.trans hlost) Bool.noConfusion
  · rw [if_neg hfull, if_pos ⟨by omega, by omega⟩]
    refine ⟨_, _, rfl, ⟨hsync, ⟨?_, ?_⟩, fun hlost ↦ ?_⟩⟩
    · show 0 < dec.nextIndex + size
      omega
    · show dec.nextIndex + size < pktSize
      omega
    · exact absurd (hsynchronized.symm.trans hlost) Bool.noConfusion

theorem Sound.checkContinuity (hdec : dec.Sound) (pkt : TSPacket) :
    (dec.checkContinuity pkt).Sound := by
  rw [PacketDecapsulation.checkContinuity]
  split_ifs
  · exact ⟨hdec.sync, ⟨Nat.one_pos, show 1 < pktSize by decide⟩, fun _ ↦ rfl⟩
  · exact ⟨hdec.sync, hdec.nextIndex_mem, hdec.nextIndex_eq⟩

theorem Sound.processPacket (hdec : dec.Sound) (pkt : TSPacket) :
    ∃ next outcome, dec.processPacket pkt = some (next, outcome) ∧ next.Sound := by
  obtain ⟨hfour, hle⟩ := pointerField_mem pkt
  have hchecked := hdec.checkContinuity pkt
  rw [PacketDecapsulation.processPacket]
  by_cases hother : dec.pidInput = pidNull ∨ pkt.getPID ≠ dec.pidInput
  · rw [if_pos hother]
    exact ⟨_, _, rfl, hdec⟩
  rw [if_neg hother]
  by_cases hrange : outOfRange pkt = true
  · rw [if_pos hrange]
    exact ⟨_, _, rfl, ⟨hdec.sync, ⟨Nat.one_pos, show 1 < pktSize by decide⟩, fun _ ↦ rfl⟩⟩
  rw [if_neg hrange]
  dsimp only
  by_cases hsynchronized : (dec.checkContinuity pkt).synchronized = true
  · rw [if_pos hsynchronized]
    exact hchecked.copyPayload hsynchronized hfour hle
  rw [if_neg hsynchronized]
  by_cases hpusi : pkt.getPUSI = true
  · have hsync : Sound { dec.checkContinuity pkt with synchronized := true } :=
      ⟨hchecked.sync, hchecked.nextIndex_mem, fun hlost ↦ Bool.noConfusion hlost⟩
    simp only [outOfRange, hpusi, Bool.true_and, gt_iff_lt, decide_eq_true_eq, not_lt] at hrange
    rw [if_pos hpusi]
    exact hsync.copyPayload rfl (by omega) hrange
  · rw [if_neg hpusi]
    exact ⟨_, _, rfl, hchecked⟩

theorem Sound.processPackets (hdec : dec.Sound) (packets : List TSPacket) :
    ∃ last outcomes, dec.processPackets packets = some (last, outcomes) ∧ last.Sound := by
  induction packets generalizing dec with
  | nil => exact ⟨dec, [], rfl, hdec⟩
  | cons pkt rest ih =>
    obtain ⟨next, outcome, hnext, hsound⟩ := hdec.processPacket pkt
    obtain ⟨last, outcomes, hlast, hfinal⟩ := ih hsound
    exact ⟨last, outcome :: outcomes, by simp [PacketDecapsulation.processPackets, hnext, hlast],
      hfinal⟩

/-! ### The assembler -/

def fragment (pkt : TSPacket) : Reassembly.Fragment UInt8 where
  number := pkt.getCC.toNat
  start := if pkt.getPUSI then some (pointerField pkt).1 else none
  data := pkt.bytes.drop (pointerField pkt).2

/-- The packet of some bytes without the synchronization byte. -/
def withSync (body : ByteBlock) : ByteBlock :=
  syncByte :: body

structure Matches (dec : PacketDecapsulation) (assembler : Reassembly.Assembler UInt8) : Prop where
  expected_eq : assembler.expected =
    if dec.synchronized then some ((dec.ccInput + 1) &&& 0x0F).toNat else none
  nextIndex_eq : dec.nextIndex = assembler.pending.length + 1
  nextIndex_lt : dec.nextIndex < pktSize
  nextPacket_eq : dec.nextPacket.bytes.take dec.nextIndex = withSync assembler.pending
  pending_eq : dec.synchronized = false → assembler.pending = []

theorem matches_new (pid : ℕ) : (new pid).Matches .fresh where
  expected_eq := rfl
  nextIndex_eq := rfl
  nextIndex_lt := show 1 < pktSize by decide
  nextPacket_eq := rfl
  pending_eq _ := rfl

theorem exists_memcpy {target : TSPacket} {front : ByteBlock} {offset start size : ℕ}
    (hfront : target.bytes.take offset = front) (htarget : offset + size ≤ pktSize)
    (hsource : start + size ≤ pktSize) :
    ∃ copied, target.memcpy offset pkt start size = some copied ∧
      copied.bytes.take (offset + size) = front ++ (pkt.bytes.drop start).take size := by
  have hlength : ((pkt.bytes.drop start).take size).length = size := by
    rw [List.length_take, List.length_drop, pkt.length_eq]
    omega
  refine ⟨_, if_pos ⟨htarget, hsource⟩, ?_⟩
  have hwritten := target.take_write (by rw [hlength]; exact htarget)
  rwa [hlength, hfront] at hwritten

theorem copyPayload_eq {pending : ByteBlock} {pktIndex : ℕ} (hfour : 4 ≤ pktIndex)
    (hle : pktIndex ≤ pktSize) (hindex : dec.nextIndex = pending.length + 1)
    (hlt : dec.nextIndex < pktSize)
    (hpacket : dec.nextPacket.bytes.take dec.nextIndex = withSync pending) :
    ∃ next outcome, dec.copyPayload pkt pktIndex = some (next, outcome) ∧
      next.pidInput = dec.pidInput ∧ next.synchronized = dec.synchronized ∧
      next.ccInput = dec.ccInput ∧ next.nextIndex < pktSize ∧ outcome.status = true ∧
      if pktBodySize ≤ pending.length + (pkt.bytes.drop pktIndex).length then
        next.nextIndex = ((pending ++ pkt.bytes.drop pktIndex).drop pktBodySize).length + 1 ∧
        next.nextPacket.bytes.take next.nextIndex =
          withSync ((pending ++ pkt.bytes.drop pktIndex).drop pktBodySize) ∧
        outcome.extracted = true ∧
        outcome.packet.bytes = withSync ((pending ++ pkt.bytes.drop pktIndex).take pktBodySize)
      else
        next.nextIndex = (pending ++ pkt.bytes.drop pktIndex).length + 1 ∧
        next.nextPacket.bytes.take next.nextIndex = withSync (pending ++ pkt.bytes.drop pktIndex) ∧
        outcome.extracted = false := by
  have hsize : pktSize = 188 := rfl
  have hbody : pktBodySize = 187 := rfl
  have hlength := pkt.length_eq
  have hdata : (pkt.bytes.drop pktIndex).length = pktSize - pktIndex := by
    rw [List.length_drop, hlength]
  rw [copyPayload, if_pos ⟨hle, hlt.le⟩]
  generalize hmin : min (pktSize - pktIndex) (pktSize - dec.nextIndex) = size
  dsimp only
  have hsource : pktIndex + size ≤ pktSize := by omega
  obtain ⟨nextPacket, hnext, hbytes⟩ := exists_memcpy hpacket
    (show dec.nextIndex + size ≤ pktSize by omega) hsource
  rw [hnext, Option.bind_some]
  by_cases hfull : pktBodySize ≤ pending.length + (pkt.bytes.drop pktIndex).length
  · have hend : dec.nextIndex + size = pktSize := by omega
    have hroom : pktBodySize - pending.length = size := by omega
    have htaken : withSync pending ++ (pkt.bytes.drop pktIndex).take size =
        withSync ((pending ++ pkt.bytes.drop pktIndex).take pktBodySize) := by
      have hpending : pending.take pktBodySize = pending := List.take_of_length_le (by omega)
      rw [List.take_append, hpending, hroom]
      rfl
    rw [hend, ← nextPacket.length_eq, List.take_length, htaken] at hbytes
    have hsync : nextPacket.bytes.take 1 = [syncByte] := by
      rw [hbytes]
      rfl
    have hdropped : (pkt.bytes.drop (pktIndex + size)).take (pktSize - (pktIndex + size)) =
        (pending ++ pkt.bytes.drop pktIndex).drop pktBodySize := by
      have hpending : pending.drop pktBodySize = [] := List.drop_eq_nil_of_le (by omega)
      have hrest : (pkt.bytes.drop (pktIndex + size)).length = pktSize - (pktIndex + size) := by
        rw [List.length_drop, hlength]
      rw [List.drop_append, hpending, List.nil_append, hroom, List.drop_drop, ← hrest,
        List.take_length]
    have hlast : ((pending ++ pkt.bytes.drop pktIndex).drop pktBodySize).length =
        pktSize - (pktIndex + size) := by
      rw [List.length_drop, List.length_append]
      omega
    obtain ⟨following, hfollowing, hrest⟩ := @exists_memcpy pkt nextPacket [syncByte] 1
      (pktIndex + size) (pktSize - (pktIndex + size)) hsync (by omega) (by omega)
    rw [if_pos hend, hfollowing, Option.map_some]
    refine ⟨_, _, rfl, rfl, rfl, rfl, ?_, rfl, ?_⟩
    · show 1 + (pktSize - (pktIndex + size)) < pktSize
      omega
    · rw [if_pos hfull]
      refine ⟨?_, ?_, rfl, hbytes⟩
      · rw [hlast, Nat.add_comm]
      · rw [hrest, hdropped]
        rfl
  · have hshort : dec.nextIndex + size ≠ pktSize := by omega
    have hall : (pkt.bytes.drop pktIndex).take size = pkt.bytes.drop pktIndex :=
      List.take_of_length_le (by omega)
    rw [if_neg hshort, if_pos ⟨by omega, by omega⟩]
    refine ⟨_, _, rfl, rfl, rfl, rfl, ?_, rfl, ?_⟩
    · show dec.nextIndex + size < pktSize
      omega
    · rw [if_neg hfull]
      refine ⟨?_, ?_, rfl⟩
      · rw [List.length_append]
        show dec.nextIndex + size = _
        omega
      · rw [hbytes, hall]
        rfl

/-- Synchronized when the assembler expects the packet. -/
theorem Matches.checkContinuity {assembler : Reassembly.Assembler UInt8}
    (hmatches : dec.Matches assembler) (pkt : TSPacket) :
    (dec.checkContinuity pkt).synchronized =
        decide (assembler.expected = some (fragment pkt).number) ∧
      (dec.checkContinuity pkt).nextPacket = dec.nextPacket ∧
      (dec.checkContinuity pkt).nextIndex =
        (if assembler.expected = some (fragment pkt).number then assembler.pending else []).length +
          1 := by
  have hnumber : some (fragment pkt).number = some pkt.getCC.toNat := rfl
  have hnext := hmatches.nextIndex_eq
  cases hsynchronized : dec.synchronized with
  | false =>
    have hnone : assembler.expected ≠ some (fragment pkt).number := by
      rw [hmatches.expected_eq, hsynchronized, if_neg Bool.false_ne_true]
      exact Option.some_ne_none _ |>.symm
    rw [hmatches.pending_eq hsynchronized] at hnext
    rw [if_neg hnone, decide_eq_false hnone]
    simp [PacketDecapsulation.checkContinuity, hsynchronized, hnext]
  | true =>
    by_cases hcc : pkt.getCC = (dec.ccInput + 1) &&& 0x0F
    · have hsome : assembler.expected = some (fragment pkt).number := by
        rw [hmatches.expected_eq, hsynchronized, if_pos rfl, hnumber, hcc]
      rw [if_pos hsome, decide_eq_true hsome, ← hnext]
      simp [PacketDecapsulation.checkContinuity, hsynchronized, hcc]
    · have hnone : assembler.expected ≠ some (fragment pkt).number := by
        rw [hmatches.expected_eq, hsynchronized, if_pos rfl, hnumber, ne_eq, Option.some.injEq,
          UInt8.toNat_inj]
        exact fun heq ↦ hcc heq.symm
      rw [if_neg hnone, decide_eq_false hnone]
      simp [PacketDecapsulation.checkContinuity, hsynchronized, hcc, lostSync]

theorem copyPayload_matches {synced : PacketDecapsulation} {pending : ByteBlock} {pktIndex : ℕ}
    (hfour : 4 ≤ pktIndex) (hle : pktIndex ≤ pktSize) (hsynchronized : synced.synchronized = true)
    (hindex : synced.nextIndex = pending.length + 1) (hlt : synced.nextIndex < pktSize)
    (hpacket : synced.nextPacket.bytes.take synced.nextIndex = withSync pending)
    {assembler : Reassembly.Assembler UInt8}
    (haccept : assembler.accept (fragment pkt) = some (pending, pkt.bytes.drop pktIndex))
    (hcc : synced.ccInput = pkt.getCC) :
    ∃ next outcome, synced.copyPayload pkt pktIndex = some (next, outcome) ∧
      next.Matches (assembler.step ccMax pktBodySize (fragment pkt)).1 ∧
      next.pidInput = synced.pidInput ∧ outcome.status = true ∧
      (if outcome.extracted then some outcome.packet.bytes else none) =
        (assembler.step ccMax pktBodySize (fragment pkt)).2.map withSync := by
  obtain ⟨next, outcome, hcopied, hpid, hsync, hccNext, hnextLt, hstatus, hgiven⟩ :=
    @copyPayload_eq synced pkt pending pktIndex hfour hle hindex hlt hpacket
  have hnumber : ((fragment pkt).number + 1) % ccMax = ((next.ccInput + 1) &&& 0x0F).toNat := by
    rw [TSPacket.next_cc_eq, hccNext, hcc]
    rfl
  have hnextSync : next.synchronized = true := hsync.trans hsynchronized
  refine ⟨next, outcome, hcopied, ?_, hpid, hstatus, ?_⟩
  all_goals
    rw [Reassembly.Assembler.step, haccept]
    dsimp only
    by_cases hlong : pktBodySize ≤ pending.length + (pkt.bytes.drop pktIndex).length
  · rw [if_pos hlong] at hgiven ⊢
    exact ⟨by rw [hnextSync, if_pos rfl, hnumber], hgiven.1, hnextLt, hgiven.2.1,
      fun hlost ↦ absurd (hnextSync.symm.trans hlost) Bool.noConfusion⟩
  · rw [if_neg hlong] at hgiven ⊢
    exact ⟨by rw [hnextSync, if_pos rfl, hnumber], hgiven.1, hnextLt, hgiven.2.1,
      fun hlost ↦ absurd (hnextSync.symm.trans hlost) Bool.noConfusion⟩
  · rw [if_pos hlong] at hgiven ⊢
    rw [hgiven.2.2.1, if_pos rfl, hgiven.2.2.2, Option.map_some]
  · rw [if_neg hlong] at hgiven ⊢
    rw [hgiven.2.2, if_neg Bool.false_ne_true, Option.map_none]

/-- A packet is processed like its fragment. -/
theorem Matches.processPacket {assembler : Reassembly.Assembler UInt8}
    (hmatches : dec.Matches assembler) (hpid : dec.pidInput ≠ pidNull ∧ pkt.getPID = dec.pidInput)
    (hrange : outOfRange pkt = false) :
    ∃ next outcome, dec.processPacket pkt = some (next, outcome) ∧
      next.Matches (assembler.step ccMax pktBodySize (fragment pkt)).1 ∧
      next.pidInput = dec.pidInput ∧ outcome.status = true ∧
      (if outcome.extracted then some outcome.packet.bytes else none) =
        (assembler.step ccMax pktBodySize (fragment pkt)).2.map withSync := by
  obtain ⟨hfour, hle⟩ := pointerField_mem pkt
  obtain ⟨hsync, hpacket, hindex⟩ := hmatches.checkContinuity pkt
  have hother : ¬(dec.pidInput = pidNull ∨ pkt.getPID ≠ dec.pidInput) := by tauto
  have hinput : (dec.checkContinuity pkt).pidInput = dec.pidInput := by
    rw [PacketDecapsulation.checkContinuity]
    split_ifs <;> rfl
  have hcc : (dec.checkContinuity pkt).ccInput = pkt.getCC := rfl
  have hnextLt := hmatches.nextIndex_lt
  have hbytes := hmatches.nextPacket_eq
  rw [hmatches.nextIndex_eq] at hnextLt hbytes
  have hempty : dec.nextPacket.bytes.take 1 = withSync [] := by
    have htake := congrArg (List.take 1) hbytes
    rwa [List.take_take, Nat.min_eq_left (Nat.le_add_left 1 _)] at htake
  rw [PacketDecapsulation.processPacket, if_neg hother, if_neg (by rw [hrange]; decide), ← hinput]
  dsimp only
  by_cases hexpected : assembler.expected = some (fragment pkt).number
  · rw [if_pos hexpected] at hindex
    rw [decide_eq_true hexpected] at hsync
    rw [if_pos hsync]
    refine copyPayload_matches hfour hle hsync hindex ?_ ?_ ?_ hcc
    · rw [hindex]
      exact hnextLt
    · rw [hindex, hpacket, hbytes]
    · rw [Reassembly.Assembler.accept, if_pos hexpected]
      rfl
  · rw [if_neg hexpected] at hindex
    rw [decide_eq_false hexpected] at hsync
    rw [if_neg (by rw [hsync]; decide)]
    cases hpusi : pkt.getPUSI with
    | true =>
      simp only [outOfRange, hpusi, Bool.true_and, gt_iff_lt, decide_eq_false_iff_not,
        not_lt] at hrange
      have haccept : assembler.accept (fragment pkt) =
          some ([], pkt.bytes.drop ((pointerField pkt).2 + (pointerField pkt).1)) := by
        rw [Reassembly.Assembler.accept, if_neg hexpected, fragment]
        dsimp only
        rw [hpusi, if_pos rfl, Option.map_some, List.drop_drop]
      rw [if_pos rfl]
      refine @copyPayload_matches pkt { dec.checkContinuity pkt with synchronized := true } [] _
        (by omega) hrange rfl hindex ?_ ?_ assembler haccept hcc
      · show (dec.checkContinuity pkt).nextIndex < pktSize
        rw [hindex]
        decide
      · show (dec.checkContinuity pkt).nextPacket.bytes.take (dec.checkContinuity pkt).nextIndex = _
        rw [hindex, hpacket]
        exact hempty
    | false =>
      have hnone : assembler.step ccMax pktBodySize (fragment pkt) = (.fresh, none) :=
        Reassembly.Assembler.step_of_none hexpected (by rw [fragment, hpusi]; rfl)
      rw [if_neg Bool.false_ne_true, hnone]
      refine ⟨_, _, rfl, ?_, rfl, rfl, rfl⟩
      refine ⟨?_, hindex, ?_, ?_, fun _ ↦ rfl⟩
      · rw [hsync]
        rfl
      · rw [hindex]
        decide
      · rw [hindex, hpacket]
        exact hempty

theorem Matches.processPackets {assembler : Reassembly.Assembler UInt8} {packets : List TSPacket}
    (hmatches : dec.Matches assembler) (hnull : dec.pidInput ≠ pidNull)
    (hrange : ∀ pkt ∈ packets, pkt.getPID = dec.pidInput → outOfRange pkt = false) :
    let fragments := (packets.filter fun pkt ↦ pkt.getPID = dec.pidInput).map fragment
    let assembled := assembler.assemble ccMax pktBodySize fragments
    ∃ last outcomes, dec.processPackets packets = some (last, outcomes) ∧
      (extracted outcomes).map TSPacket.bytes = assembled.2.map withSync ∧
      List.Forall₂ (fun pkt outcome ↦ pkt.getPID ≠ dec.pidInput → outcome.packet = pkt) packets
        outcomes := by
  induction packets generalizing dec assembler with
  | nil => exact ⟨dec, [], rfl, rfl, List.Forall₂.nil⟩
  | cons pkt rest ih =>
    have hrest : ∀ other ∈ rest, other.getPID = dec.pidInput → outOfRange other = false :=
      (List.forall_mem_cons.mp hrange).2
    dsimp only
    by_cases hpid : pkt.getPID = dec.pidInput
    · obtain ⟨next, outcome, hnext, hnextMatches, hinput, -, hgiven⟩ :=
        hmatches.processPacket ⟨hnull, hpid⟩ (hrange pkt List.mem_cons_self hpid)
      obtain ⟨last, outcomes, hlast, hothers, hall⟩ :=
        ih hnextMatches (by rwa [hinput]) (by rwa [hinput])
      rw [hinput] at hothers hall
      refine ⟨last, outcome :: outcomes, ?_, ?_, ?_⟩
      · rw [PacketDecapsulation.processPackets, hnext, Option.bind_some, hlast, Option.map_some]
      · rw [List.filter_cons_of_pos (by simpa using hpid), List.map_cons,
          Reassembly.Assembler.assemble]
        dsimp only
        rw [List.map_append, ← hothers]
        cases hextracted : outcome.extracted with
        | false =>
          rw [hextracted, if_neg Bool.false_ne_true, eq_comm, Option.map_eq_none_iff] at hgiven
          rw [hgiven]
          simp [extracted, hextracted]
        | true =>
          rw [hextracted, if_pos rfl, eq_comm, Option.map_eq_some_iff] at hgiven
          obtain ⟨given, hsome, hbytes⟩ := hgiven
          rw [hsome]
          simp [extracted, hextracted, hbytes]
      · exact List.Forall₂.cons (fun hother ↦ absurd hpid hother) hall
    · let kept : Outcome := { packet := pkt, status := true, extracted := false }
      have hkept : dec.processPacket pkt = some (dec, kept) := if_pos (Or.inr hpid)
      obtain ⟨last, outcomes, hlast, hothers, hall⟩ := ih hmatches hnull hrest
      refine ⟨last, kept :: outcomes, ?_, ?_, List.Forall₂.cons (fun _ ↦ rfl) hall⟩
      · rw [PacketDecapsulation.processPackets, hkept, Option.bind_some, hlast, Option.map_some]
      · rw [List.filter_cons_of_neg (by simpa using hpid), ← hothers]
        rfl

end PacketDecapsulation

end TSDuck
