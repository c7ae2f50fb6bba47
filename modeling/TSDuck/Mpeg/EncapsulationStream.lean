import TSDuck.Mpeg.PacketDecapsulation
import TSDuck.Mpeg.PacketEncapsulation

/-!
# The stream of the encapsulated packets

The bytes of the packets which an encapsulation queues, without their synchronization byte, make a
stream. `Sends` is the invariant of the encapsulation: the queue is the end of the stream from some
position on, and the continuity counter counts the output packets.
-/

namespace TSDuck

open PacketDecapsulation (fragment pointerField outOfRange)

def bodies (packets : List TSPacket) : ByteBlock :=
  packets.flatMap fun pkt ↦ pkt.bytes.drop 1

@[simp] theorem length_bodies (packets : List TSPacket) :
    (bodies packets).length = packets.length * pktBodySize :=
  PacketEncapsulation.length_bodies packets

@[simp] theorem bodies_append (packets others : List TSPacket) :
    bodies (packets ++ others) = bodies packets ++ bodies others :=
  List.flatMap_append

namespace PacketEncapsulation

/-- The queued bytes before a position are in output packets. -/
structure Sends (sent : List TSPacket) (position index : ℕ) (enc : PacketEncapsulation) : Prop where
  sound : enc.Sound
  late_eq : enc.late = (bodies sent).drop position
  position_le : position ≤ (bodies sent).length
  ccOutput_eq : enc.ccOutput.toNat = index % ccMax

variable {enc : PacketEncapsulation} {sent : List TSPacket} {position index : ℕ}

theorem length_late {front : TSPacket} {rest : List TSPacket}
    (hpackets : enc.latePackets = front :: rest) :
    enc.late.length = pktSize - enc.lateIndex + rest.length * pktBodySize := by
  rw [late, hpackets]
  dsimp only
  rw [List.length_append, List.length_drop, front.length_eq, length_bodies]

theorem Sends.div_mod (hsends : enc.Sends sent position index) (hlate : enc.latePackets ≠ []) :
    enc.lateIndex = position % pktBodySize + 1 := by
  obtain ⟨front, rest, hpackets⟩ := List.exists_cons_of_ne_nil hlate
  obtain ⟨hpos, hlt⟩ := hsends.sound.lateIndex_mem hlate
  have hlength := length_late hpackets
  have hle := hsends.position_le
  rw [hsends.late_eq, List.length_drop] at hlength
  simp only [TSDuck.length_bodies] at hlength hle
  simp only [pktBodySize, pktSize] at hlength hle hlt ⊢
  omega

theorem Sends.length_latePackets (hsends : enc.Sends sent position index) :
    enc.latePackets.length = sent.length - position / pktBodySize := by
  have hle := hsends.position_le
  have hlate := congrArg List.length hsends.late_eq
  rw [List.length_drop] at hlate
  cases hpackets : enc.latePackets with
  | nil =>
    rw [late, hpackets] at hlate
    simp only [TSDuck.length_bodies, List.length_nil] at hlate hle ⊢
    simp only [pktBodySize, pktSize] at hlate hle ⊢
    omega
  | cons front rest =>
    obtain ⟨hpos, hlt⟩ := hsends.sound.lateIndex_mem (by rw [hpackets]; exact List.cons_ne_nil _ _)
    rw [length_late hpackets] at hlate
    simp only [TSDuck.length_bodies, List.length_cons] at hlate hle ⊢
    simp only [pktBodySize, pktSize] at hlate hle hlt ⊢
    omega

/-! ### One output packet -/

theorem IsReplaced.fragment_eq {header : ℕ} {last : Filling} (hsound : enc.Sound)
    (hlate : enc.latePackets ≠ []) (hreplaced : IsReplaced enc header last) :
    last.pkt.getPID = enc.pidOutput ∧ outOfRange last.pkt = false ∧ fragment last.pkt =
        { number := enc.ccOutput.toNat
          start := if header < enc.lateIndex then some (pktSize - enc.lateIndex) else none
          data := enc.late.take (pktSize - if header < enc.lateIndex then header + 1 else header) } ∧
      4 ≤ header ∧ header < pktSize := by
  obtain ⟨af, hheader⟩ := hreplaced.hasHeader
  obtain ⟨hpos, hlt⟩ := hsound.lateIndex_mem hlate
  have hpusi := hheader.getPUSI_eq hsound.pid_lt
  have hsize := hheader.getHeaderSize_eq hsound.cc_lt
  have hindex := hheader.index_lt
  have hpayload := hreplaced.payload
  have hpointer : pointerField last.pkt =
      if header < enc.lateIndex then (pktSize - enc.lateIndex, header + 1) else (0, header) := by
    rw [pointerField, hsize, hpusi]
    by_cases hstarts : header < enc.lateIndex
    · have hbyte : (UInt8.ofNat (pktSize - enc.lateIndex)).toNat = pktSize - enc.lateIndex := by
        rw [UInt8.toNat_ofNat']
        simp only [pktSize] at hlt ⊢
        omega
      simp only [hstarts, decide_true, Bool.true_and, hindex, if_true, hreplaced.pointer hstarts,
        hbyte]
    · simp only [hstarts, decide_false, Bool.false_and, if_false, Bool.false_eq_true]
  refine ⟨hheader.getPID_eq hsound.pid_lt, ?_, ?_, hheader.four_le, hindex⟩
  · rw [outOfRange, hpusi, hpointer]
    by_cases hstarts : header < enc.lateIndex
    · simp only [hstarts, decide_true, Bool.true_and, if_true, decide_eq_false_iff_not]
      omega
    · simp only [hstarts, decide_false, Bool.false_and]
  · rw [fragment, hpusi, hpointer, hheader.getCC_eq hsound.cc_lt]
    by_cases hstarts : header < enc.lateIndex
    · simp only [hstarts, if_true] at hpayload ⊢
      rw [hpayload]
      rfl
    · simp only [hstarts, if_false] at hpayload ⊢
      rw [hpayload]
      rfl

theorem Sends.replacePacket (hsends : enc.Sends sent position index)
    (hlate : enc.latePackets ≠ []) :
    let last := enc.replacePacket
    Reassembly.IsCut ccMax pktBodySize (bodies sent) position index (fragment last.pkt) ∧
      last.enc.Sends sent (position + (fragment last.pkt).data.length) (index + 1) ∧
      last.pkt.getPID = enc.pidOutput ∧ outOfRange last.pkt = false ∧
      last.enc.pidOutput = enc.pidOutput ∧ last.enc.pidInput = enc.pidInput ∧
      (last.asserted = true ↔ enc.PcrFits) := by
  obtain ⟨header, hreplaced⟩ := isReplaced_replacePacket hsends.sound hlate
  obtain ⟨hpid, hrange, hfragment, hfour, hlt⟩ := hreplaced.fragment_eq hsends.sound hlate
  have hindex := hsends.div_mod hlate
  have hmem := hsends.sound.lateIndex_mem hlate
  have hroom := hreplaced.le_late
  have hnext := hreplaced.late_eq
  intro last
  change last.enc.late = _ at hnext
  rw [hsends.late_eq] at hroom hnext
  rw [List.drop_drop] at hnext
  rw [List.length_drop] at hroom
  have hlength : (fragment last.pkt).data.length =
      pktSize - if header < enc.lateIndex then header + 1 else header := by
    show (fragment enc.replacePacket.pkt).data.length = _
    rw [hfragment, List.length_take, hsends.late_eq, List.length_drop, Nat.min_eq_left hroom]
  have hdata : (fragment last.pkt).data =
      ((bodies sent).drop position).take (fragment last.pkt).data.length := by
    rw [hlength]
    show (fragment enc.replacePacket.pkt).data = _
    rw [hfragment, hsends.late_eq]
  have hstart : (fragment last.pkt).start =
      if header < enc.lateIndex then some (pktSize - enc.lateIndex) else none := by
    show (fragment enc.replacePacket.pkt).start = _
    rw [hfragment]
  have hnumber : (fragment last.pkt).number = enc.ccOutput.toNat := by
    show (fragment enc.replacePacket.pkt).number = _
    rw [hfragment]
  have hle := hsends.position_le
  refine ⟨⟨hnumber.trans hsends.ccOutput_eq, hdata, ?_, ?_, fun start hsome ↦ ?_⟩,
    ⟨hreplaced.sound, ?_, ?_, ?_⟩, hpid, hrange, hreplaced.pidOutput_eq, hreplaced.pidInput_eq,
    hreplaced.asserted_iff⟩
  · rw [hlength]
    omega
  · rw [hlength, pktBodySize]
    split_ifs <;> omega
  · rw [hstart] at hsome
    split_ifs at hsome with hstarts
    have hvalue := Option.some.inj hsome
    rw [hlength, if_pos hstarts]
    simp only [pktBodySize, pktSize] at hindex hvalue hlt hmem ⊢
    omega
  · rw [hnext, hlength]
  · rw [hlength]
    omega
  · show last.enc.ccOutput.toNat = _
    rw [show last.enc.ccOutput = _ from hreplaced.ccOutput_eq, TSPacket.next_cc_eq,
      hsends.ccOutput_eq, Nat.mod_add_mod]

theorem Sends.length_data (hsends : enc.Sends sent position index) (hlate : enc.latePackets ≠ []) :
    let length := (fragment enc.replacePacket.pkt).data.length
    (position % pktBodySize = 0 → length < pktBodySize ∧ 12 ≤ length) ∧
      (12 ≤ position % pktBodySize → pktBodySize ≤ position % pktBodySize + length) := by
  obtain ⟨header, hreplaced⟩ := isReplaced_replacePacket hsends.sound hlate
  obtain ⟨-, -, hfragment, hfour, hlt⟩ := hreplaced.fragment_eq hsends.sound hlate
  have hindex := hsends.div_mod hlate
  have hmem := hsends.sound.lateIndex_mem hlate
  have hlength : (fragment enc.replacePacket.pkt).data.length =
      pktSize - if header < enc.lateIndex then header + 1 else header := by
    rw [hfragment, List.length_take, Nat.min_eq_left hreplaced.le_late]
  intro length
  change length = _ at hlength
  rcases hreplaced.header_le with hshort | hsame
  · simp only [pktBodySize, pktSize] at hindex hlength hlt hmem ⊢
    split_ifs at hlength <;> omega
  · rw [if_neg (by omega)] at hlength
    simp only [pktBodySize, pktSize] at hindex hlength hlt hmem ⊢
    omega

/-! ### One packet -/

/-- The configuration, the queue and the continuity counter are the same. -/
structure SameQueue (enc other : PacketEncapsulation) : Prop where
  pidOutput_eq : other.pidOutput = enc.pidOutput
  pidInput_eq : other.pidInput = enc.pidInput
  ccOutput_eq : other.ccOutput = enc.ccOutput
  lateMaxPackets_eq : other.lateMaxPackets = enc.lateMaxPackets
  lateIndex_eq : other.lateIndex = enc.lateIndex
  latePackets_eq : other.latePackets = enc.latePackets

theorem SameQueue.trans {first second third : PacketEncapsulation} (hfirst : SameQueue first second)
    (hsecond : SameQueue second third) : SameQueue first third where
  pidOutput_eq := hsecond.pidOutput_eq.trans hfirst.pidOutput_eq
  pidInput_eq := hsecond.pidInput_eq.trans hfirst.pidInput_eq
  ccOutput_eq := hsecond.ccOutput_eq.trans hfirst.ccOutput_eq
  lateMaxPackets_eq := hsecond.lateMaxPackets_eq.trans hfirst.lateMaxPackets_eq
  lateIndex_eq := hsecond.lateIndex_eq.trans hfirst.lateIndex_eq
  latePackets_eq := hsecond.latePackets_eq.trans hfirst.latePackets_eq

theorem sameQueue_trackContinuity (enc : PacketEncapsulation) (pkt : TSPacket) :
    SameQueue enc (enc.trackContinuity pkt) := by
  rw [trackContinuity]
  split_ifs
  · exact ⟨rfl, rfl, rfl, rfl, rfl, rfl⟩
  · dsimp only
    cases enc.lastCC pkt.getPID with
    | none => exact ⟨rfl, rfl, rfl, rfl, rfl, rfl⟩
    | some last =>
      dsimp only
      split_ifs <;> exact ⟨rfl, rfl, rfl, rfl, rfl, rfl⟩

theorem sameQueue_collectPCR (enc : PacketEncapsulation) (pkt : TSPacket) :
    SameQueue enc (enc.collectPCR pkt).1 := by
  rw [collectPCR]
  split_ifs
  · dsimp only
    split
    · split_ifs <;> exact ⟨rfl, rfl, rfl, rfl, rfl, rfl⟩
    · exact ⟨rfl, rfl, rfl, rfl, rfl, rfl⟩
  · exact ⟨rfl, rfl, rfl, rfl, rfl, rfl⟩

theorem sameQueue_checkConflict (enc : PacketEncapsulation) (pkt : TSPacket) :
    SameQueue enc (enc.checkConflict pkt) := by
  rw [checkConflict]
  split_ifs <;> exact ⟨rfl, rfl, rfl, rfl, rfl, rfl⟩

def checkPacket (enc : PacketEncapsulation) (pkt : TSPacket) : PacketEncapsulation :=
  ((enc.trackContinuity pkt).collectPCR pkt).1.checkConflict pkt

theorem sameQueue_checkPacket (enc : PacketEncapsulation) (pkt : TSPacket) :
    SameQueue enc (enc.checkPacket pkt) :=
  ((sameQueue_trackContinuity enc pkt).trans (sameQueue_collectPCR _ pkt)).trans
    (sameQueue_checkConflict _ pkt)

theorem Sends.of_sameQueue {other : PacketEncapsulation} (hsends : enc.Sends sent position index)
    (hsame : SameQueue enc other) : other.Sends sent position index where
  sound := {
    pid_lt := hsame.pidOutput_eq ▸ hsends.sound.pid_lt
    cc_lt := hsame.ccOutput_eq ▸ hsends.sound.cc_lt
    lateIndex_mem := by
      rw [hsame.latePackets_eq, hsame.lateIndex_eq]
      exact hsends.sound.lateIndex_mem }
  late_eq := by
    rw [← hsends.late_eq, late, late, hsame.latePackets_eq, hsame.lateIndex_eq]
  position_le := hsends.position_le
  ccOutput_eq := hsame.ccOutput_eq ▸ hsends.ccOutput_eq

theorem Sends.enqueue (hsends : enc.Sends sent position index) (pkt : TSPacket) :
    (enc.enqueue pkt).Sends (sent ++ [pkt]) position index := by
  have hle := hsends.position_le
  have hone : bodies [pkt] = pkt.bytes.drop 1 := List.flatMap_singleton _ _
  have hstream : (bodies (sent ++ [pkt])).drop position = enc.late ++ pkt.bytes.drop 1 := by
    rw [bodies_append, List.drop_append_of_le_length hle, hsends.late_eq, hone]
  have hposition : position ≤ (bodies (sent ++ [pkt])).length := by
    rw [bodies_append, List.length_append]
    exact hle.trans (Nat.le_add_right _ _)
  refine ⟨⟨hsends.sound.pid_lt, hsends.sound.cc_lt, fun _ ↦ ?_⟩, ?_, hposition, hsends.ccOutput_eq⟩
  · cases hpackets : enc.latePackets with
    | nil => simp [PacketEncapsulation.enqueue, hpackets, pktSize]
    | cons front rest =>
      have hmem := hsends.sound.lateIndex_mem (by rw [hpackets]; exact List.cons_ne_nil _ _)
      simpa [PacketEncapsulation.enqueue, hpackets] using hmem
  · rw [hstream]
    cases hpackets : enc.latePackets with
    | nil => simp [PacketEncapsulation.enqueue, late, hpackets]
    | cons front rest => simp [PacketEncapsulation.enqueue, late, hpackets]

theorem Sends.latePackets_eq_nil_iff (hsends : enc.Sends sent position index) :
    enc.latePackets = [] ↔ position = (bodies sent).length := by
  have hlength := hsends.length_latePackets
  have hle := hsends.position_le
  rw [← List.length_eq_zero_iff, hlength]
  simp only [TSDuck.length_bodies, pktBodySize, pktSize] at hle ⊢
  omega

theorem Sends.queuePacket (hsends : enc.Sends sent position index) (pkt : TSPacket) :
    (enc.queuePacket pkt).Sends
      (if enc.isInput pkt && !enc.overflows then sent ++ [pkt] else sent) position index := by
  rw [PacketEncapsulation.queuePacket]
  cases hinput : enc.isInput pkt with
  | false => simpa using hsends
  | true =>
    cases hoverflow : enc.overflows with
    | false => simpa using hsends.enqueue pkt
    | true =>
      have hsame : SameQueue enc { enc with lastError := some .overflow } :=
        ⟨rfl, rfl, rfl, rfl, rfl, rfl⟩
      simpa using hsends.of_sameQueue hsame

def readyPacket (enc : PacketEncapsulation) (pkt : TSPacket) : PacketEncapsulation :=
  (enc.checkPacket pkt).queuePacket pkt

def sentAfter (sent : List TSPacket) (pkt : TSPacket) (outcome : Outcome) : List TSPacket :=
  if outcome.queued then sent ++ [pkt] else sent

theorem queued_eq (enc : PacketEncapsulation) (pkt : TSPacket) :
    (enc.processPacket pkt).2.queued = (enc.isInput pkt && !enc.overflows) := by
  have hsame := sameQueue_checkPacket enc pkt
  have hinput : (enc.checkPacket pkt).isInput pkt = enc.isInput pkt := by
    rw [isInput, isInput, hsame.pidInput_eq, hsame.pidOutput_eq]
  have hoverflows : (enc.checkPacket pkt).overflows = enc.overflows := by
    rw [overflows, overflows, hsame.latePackets_eq, hsame.lateMaxPackets_eq]
  rw [← hinput, ← hoverflows]
  show ((enc.checkPacket pkt).isInput pkt && !((enc.checkPacket pkt).isInput pkt &&
    (enc.checkPacket pkt).overflows)) = _
  cases (enc.checkPacket pkt).isInput pkt <;> simp

theorem Sends.readyPacket (hsends : enc.Sends sent position index) (pkt : TSPacket) :
    (enc.readyPacket pkt).Sends (sentAfter sent pkt (enc.processPacket pkt).2) position index := by
  have hsame := sameQueue_checkPacket enc pkt
  have hqueued := (hsends.of_sameQueue hsame).queuePacket pkt
  have hinput : (enc.checkPacket pkt).isInput pkt = enc.isInput pkt := by
    rw [isInput, isInput, hsame.pidInput_eq, hsame.pidOutput_eq]
  have hoverflows : (enc.checkPacket pkt).overflows = enc.overflows := by
    rw [overflows, overflows, hsame.latePackets_eq, hsame.lateMaxPackets_eq]
  rw [hinput, hoverflows] at hqueued
  rw [sentAfter, queued_eq]
  exact hqueued

variable {pkt : TSPacket}

theorem Sends.lt_of_isInput (hsends : enc.Sends sent position index) (hinput : enc.isInput pkt = true) :
    position < (bodies (sentAfter sent pkt (enc.processPacket pkt).2)).length := by
  have hle := hsends.position_le
  rw [sentAfter, queued_eq, hinput, Bool.true_and]
  cases hoverflow : enc.overflows with
  | false =>
    rw [Bool.not_false, if_pos rfl]
    simp only [TSDuck.length_bodies, List.length_append, List.length_singleton, pktBodySize,
      pktSize] at hle ⊢
    omega
  | true =>
    have hlate : enc.latePackets ≠ [] := by
      rintro hnil
      simp [overflows, hnil] at hoverflow
    rw [ne_eq, hsends.latePackets_eq_nil_iff] at hlate
    rw [Bool.not_true, if_neg Bool.false_ne_true]
    omega

/-- Input and null packets are replaced if something waits. -/
theorem Sends.replaced_iff (hsends : enc.Sends sent position index) (pkt : TSPacket) :
    (enc.processPacket pkt).2.replaced = true ↔ (enc.isInput pkt = true ∨ pkt.getPID = pidNull) ∧
        position < (bodies (sentAfter sent pkt (enc.processPacket pkt).2)).length := by
  have hready := hsends.readyPacket pkt
  have hsame := sameQueue_checkPacket enc pkt
  have hinput : (enc.checkPacket pkt).isInput pkt = enc.isInput pkt := by
    rw [isInput, isInput, hsame.pidInput_eq, hsame.pidOutput_eq]
  have hreplaced : (enc.processPacket pkt).2.replaced =
      ((enc.isInput pkt || pkt.getPID == pidNull) &&
        !(enc.readyPacket pkt).latePackets.isEmpty) := by
    rw [← hinput]
    rfl
  have hempty := hready.latePackets_eq_nil_iff
  have hle := hready.position_le
  rw [hreplaced]
  simp only [Bool.and_eq_true, Bool.or_eq_true, beq_iff_eq, Bool.not_eq_true',
    List.isEmpty_eq_false_iff]
  refine and_congr_right fun _ ↦ ?_
  rw [ne_eq, hempty]
  omega

theorem Sends.latePackets_ne_nil (hsends : enc.Sends sent position index)
    (hreplaced : (enc.processPacket pkt).2.replaced = true) :
    (enc.readyPacket pkt).latePackets ≠ [] := by
  have hlt := ((hsends.replaced_iff pkt).mp hreplaced).2
  rw [ne_eq, (hsends.readyPacket pkt).latePackets_eq_nil_iff]
  omega

theorem processPacket_fst (enc : PacketEncapsulation) (pkt : TSPacket) :
    (enc.processPacket pkt).1 =
      let next := if (enc.processPacket pkt).2.replaced then (enc.readyPacket pkt).replacePacket.enc
        else enc.readyPacket pkt
      { next with currentPacket := next.currentPacket + 1 } := by
  have hfilling : (enc.processPacket pkt).1 =
      let filling : Filling := if (enc.processPacket pkt).2.replaced then
          (enc.readyPacket pkt).replacePacket
        else { enc := enc.readyPacket pkt, pkt := pkt, pktIndex := pktSize, asserted := true }
      { filling.enc with currentPacket := filling.enc.currentPacket + 1 } := rfl
  rw [hfilling]
  cases (enc.processPacket pkt).2.replaced <;> rfl

theorem processPacket_of_kept (hkept : (enc.processPacket pkt).2.replaced = false) :
    (enc.processPacket pkt).2.packet = pkt ∧
      SameQueue (enc.readyPacket pkt) (enc.processPacket pkt).1 ∧
      (enc.processPacket pkt).2.asserted = ((enc.trackContinuity pkt).collectPCR pkt).2 := by
  have hfilling : ∀ filling other : Filling,
      (if (enc.processPacket pkt).2.replaced then filling else other) = other := by
    simp [hkept]
  refine ⟨congrArg Filling.pkt (hfilling _ _), ?_, ?_⟩
  · show SameQueue (enc.readyPacket pkt) { (ite ((enc.processPacket pkt).2.replaced = true) _ _ :
      Filling).enc with currentPacket := _ }
    rw [hfilling]
    exact ⟨rfl, rfl, rfl, rfl, rfl, rfl⟩
  · show (((enc.trackContinuity pkt).collectPCR pkt).2 &&
      (ite ((enc.processPacket pkt).2.replaced = true) _ _ : Filling).asserted) = _
    rw [hfilling, Bool.and_true]

theorem processPacket_of_replaced (hreplaced : (enc.processPacket pkt).2.replaced = true) :
    (enc.processPacket pkt).2.packet = (enc.readyPacket pkt).replacePacket.pkt ∧
      SameQueue (enc.readyPacket pkt).replacePacket.enc (enc.processPacket pkt).1 ∧
      (enc.processPacket pkt).2.asserted = (((enc.trackContinuity pkt).collectPCR pkt).2 &&
        (enc.readyPacket pkt).replacePacket.asserted) := by
  have hfilling : ∀ filling other : Filling,
      (if (enc.processPacket pkt).2.replaced then filling else other) = filling := by
    simp [hreplaced]
  refine ⟨congrArg Filling.pkt (hfilling _ _), ?_, ?_⟩
  · show SameQueue _ { (ite ((enc.processPacket pkt).2.replaced = true)
      (enc.readyPacket pkt).replacePacket _ : Filling).enc with currentPacket := _ }
    rw [hfilling]
    exact ⟨rfl, rfl, rfl, rfl, rfl, rfl⟩
  · show (((enc.trackContinuity pkt).collectPCR pkt).2 &&
      (ite ((enc.processPacket pkt).2.replaced = true)
        (enc.readyPacket pkt).replacePacket _ : Filling).asserted) = _
    rw [hfilling]

theorem Sends.processPacket_frame (hsends : enc.Sends sent position index) (pkt : TSPacket) :
    (enc.processPacket pkt).1.pidOutput = enc.pidOutput ∧
      (enc.processPacket pkt).1.pidInput = enc.pidInput := by
  have hsame := sameQueue_checkPacket enc pkt
  have hready : (enc.readyPacket pkt).pidOutput = (enc.checkPacket pkt).pidOutput ∧
      (enc.readyPacket pkt).pidInput = (enc.checkPacket pkt).pidInput := by
    rw [PacketEncapsulation.readyPacket, PacketEncapsulation.queuePacket]
    split_ifs <;> exact ⟨rfl, rfl⟩
  cases hreplaced : (enc.processPacket pkt).2.replaced with
  | false =>
    obtain ⟨-, hnext, -⟩ := processPacket_of_kept hreplaced
    exact ⟨hnext.pidOutput_eq.trans (hready.1.trans hsame.pidOutput_eq),
      hnext.pidInput_eq.trans (hready.2.trans hsame.pidInput_eq)⟩
  | true =>
    obtain ⟨-, hnext, -⟩ := processPacket_of_replaced hreplaced
    have hlate := hsends.latePackets_ne_nil hreplaced
    obtain ⟨-, -, -, -, hpid, hinput, -⟩ := (hsends.readyPacket pkt).replacePacket hlate
    exact ⟨hnext.pidOutput_eq.trans (hpid.trans (hready.1.trans hsame.pidOutput_eq)),
      hnext.pidInput_eq.trans (hinput.trans (hready.2.trans hsame.pidInput_eq))⟩

theorem Sends.processPacket_of_kept (hsends : enc.Sends sent position index)
    (hkept : (enc.processPacket pkt).2.replaced = false) :
    (enc.processPacket pkt).1.Sends (sentAfter sent pkt (enc.processPacket pkt).2) position index :=
  (hsends.readyPacket pkt).of_sameQueue (PacketEncapsulation.processPacket_of_kept hkept).2.1

theorem Sends.processPacket_of_replaced (hsends : enc.Sends sent position index)
    (hreplaced : (enc.processPacket pkt).2.replaced = true) :
    let outcome := (enc.processPacket pkt).2
    let sent := sentAfter sent pkt outcome
    Reassembly.IsCut ccMax pktBodySize (bodies sent) position index (fragment outcome.packet) ∧
      (enc.processPacket pkt).1.Sends sent (position + (fragment outcome.packet).data.length)
        (index + 1) ∧
      outcome.packet.getPID = enc.pidOutput ∧ outOfRange outcome.packet = false := by
  have hready := hsends.readyPacket pkt
  have hlate := hsends.latePackets_ne_nil hreplaced
  obtain ⟨hcut, hnext, hpid, hrange, hframe, -⟩ := hready.replacePacket hlate
  obtain ⟨hpkt, hsame, -⟩ := PacketEncapsulation.processPacket_of_replaced hreplaced
  dsimp only
  rw [hpkt]
  refine ⟨hcut, hnext.of_sameQueue hsame, ?_, hrange⟩
  rw [hpid, ← (hsends.processPacket_frame pkt).1, hsame.pidOutput_eq, hframe]

theorem Sends.exists_next (hsends : enc.Sends sent position index) (pkt : TSPacket) :
    ∃ sent position index, (enc.processPacket pkt).1.Sends sent position index := by
  cases hreplaced : (enc.processPacket pkt).2.replaced with
  | false => exact ⟨_, _, _, hsends.processPacket_of_kept hreplaced⟩
  | true => exact ⟨_, _, _, (hsends.processPacket_of_replaced hreplaced).2.1⟩

/-! ### A run -/

def queuedPackets (packets : List TSPacket) (outcomes : List Outcome) : List TSPacket :=
  ((packets.zip outcomes).filter fun entry ↦ entry.2.queued).map Prod.fst

def builtPackets (outcomes : List Outcome) : List TSPacket :=
  (outcomes.filter fun outcome ↦ outcome.replaced).map Outcome.packet

theorem append_queuedPackets (sent : List TSPacket) (pkt : TSPacket) (rest : List TSPacket)
    (outcome : Outcome) (others : List Outcome) :
    sent ++ queuedPackets (pkt :: rest) (outcome :: others) =
      sentAfter sent pkt outcome ++ queuedPackets rest others := by
  rw [queuedPackets, queuedPackets, sentAfter, List.zip_cons_cons]
  cases hqueued : outcome.queued <;> simp [hqueued]

theorem processPackets_cons (enc : PacketEncapsulation) (pkt : TSPacket) (rest : List TSPacket) :
    enc.processPackets (pkt :: rest) = (((enc.processPacket pkt).1.processPackets rest).1,
        (enc.processPacket pkt).2 :: ((enc.processPacket pkt).1.processPackets rest).2) :=
  rfl

theorem processPackets_append (enc : PacketEncapsulation) (packets others : List TSPacket) :
    enc.processPackets (packets ++ others) =
      (((enc.processPackets packets).1.processPackets others).1, (enc.processPackets packets).2 ++
          ((enc.processPackets packets).1.processPackets others).2) := by
  induction packets generalizing enc with
  | nil => rfl
  | cons pkt rest ih =>
    rw [List.cons_append, processPackets_cons, ih, processPackets_cons]
    rfl

theorem length_processPackets (enc : PacketEncapsulation) (packets : List TSPacket) :
    (enc.processPackets packets).2.length = packets.length := by
  induction packets generalizing enc with
  | nil => rfl
  | cons pkt rest ih =>
    rw [processPackets_cons, List.length_cons, ih, List.length_cons]

theorem builtPackets_cons (outcome : Outcome) (others : List Outcome) :
    builtPackets (outcome :: others) =
      if outcome.replaced then outcome.packet :: builtPackets others else builtPackets others := by
  rw [builtPackets, List.filter_cons]
  split_ifs <;> rfl

theorem builtPackets_append (outcomes others : List Outcome) :
    builtPackets (outcomes ++ others) = builtPackets outcomes ++ builtPackets others := by
  rw [builtPackets, List.filter_append, List.map_append]
  rfl

theorem Sends.processPackets (hsends : enc.Sends sent position index) (packets : List TSPacket) :
    let outcomes := (enc.processPackets packets).2
    let stream := sent ++ queuedPackets packets outcomes
    let fragments := (builtPackets outcomes).map fragment
    Reassembly.Cut ccMax pktBodySize (bodies stream) position index fragments ∧
      (enc.processPackets packets).1.Sends stream (position + Reassembly.extent fragments)
        (index + fragments.length) ∧
      ∀ pkt ∈ builtPackets outcomes, pkt.getPID = enc.pidOutput ∧ outOfRange pkt = false := by
  induction packets generalizing enc sent position index with
  | nil =>
    refine ⟨trivial, ?_, fun pkt hpkt ↦ absurd hpkt (List.not_mem_nil)⟩
    simpa [queuedPackets, builtPackets, PacketEncapsulation.processPackets, Reassembly.extent]
      using hsends
  | cons pkt rest ih =>
    have hpid := (hsends.processPacket_frame pkt).1
    rw [processPackets_cons]
    dsimp only
    rw [append_queuedPackets, builtPackets_cons]
    cases hreplaced : (enc.processPacket pkt).2.replaced with
    | false =>
      obtain ⟨hcut, hfinal, hothers⟩ := ih (hsends.processPacket_of_kept hreplaced)
      rw [if_neg Bool.false_ne_true]
      exact ⟨hcut, hfinal, fun out hout ↦ hpid ▸ hothers out hout⟩
    | true =>
      obtain ⟨hfirst, hnext, hfirstPid, hrange⟩ := hsends.processPacket_of_replaced hreplaced
      obtain ⟨hcut, hfinal, hothers⟩ := ih hnext
      rw [if_pos rfl, List.map_cons]
      refine ⟨⟨?_, hcut⟩, ?_, ?_⟩
      · rw [bodies_append]
        exact hfirst.append _
      · rw [Reassembly.extent, List.map_cons, List.sum_cons, List.length_cons, ← Nat.add_assoc,
          Nat.add_comm _ 1, ← Nat.add_assoc]
        exact hfinal
      · intro out hout
        rcases List.mem_cons.mp hout with rfl | hrest
        · exact ⟨hfirstPid, hrange⟩
        · exact hpid ▸ hothers out hrest

/-- The output PID is not present on input, unless it is encapsulated. -/
def NoConflict (enc : PacketEncapsulation) (packets : List TSPacket) : Prop :=
  ∀ pkt ∈ packets, enc.hasConflict pkt = false

theorem Sends.replaced_eq (hsends : enc.Sends sent position index) (hnull : enc.pidOutput ≠ pidNull)
    {packets : List TSPacket} (hconflict : enc.NoConflict packets) :
    ∀ outcome ∈ (enc.processPackets packets).2,
      outcome.replaced = decide (outcome.packet.getPID = enc.pidOutput) := by
  induction packets generalizing enc sent position index with
  | nil => exact fun outcome houtcome ↦ absurd houtcome (List.not_mem_nil)
  | cons pkt rest ih =>
    obtain ⟨hpid, hinput⟩ := hsends.processPacket_frame pkt
    obtain ⟨_, _, _, hnext⟩ := hsends.exists_next pkt
    intro outcome houtcome
    rw [processPackets_cons, List.mem_cons] at houtcome
    rcases houtcome with hfirst | hrest
    · rw [hfirst]
      cases hreplaced : (enc.processPacket pkt).2.replaced with
      | true => exact (decide_eq_true (hsends.processPacket_of_replaced hreplaced).2.2.1).symm
      | false =>
        rw [(PacketEncapsulation.processPacket_of_kept hreplaced).1, eq_comm, decide_eq_false_iff_not]
        intro hsame
        -- A packet of the output PID is in the input set, so there is something to send.
        have hpkt := hconflict pkt List.mem_cons_self
        have hisInput : enc.isInput pkt = true := by
          simp only [hasConflict, hsame, decide_true, Bool.true_and, Bool.not_eq_false'] at hpkt
          simp [isInput, hsame, hpkt, hnull]
        have hbuilt := (hsends.replaced_iff pkt).mpr ⟨Or.inl hisInput, hsends.lt_of_isInput hisInput⟩
        exact absurd (hreplaced.symm.trans hbuilt) Bool.noConfusion
    · have hnextConflict : (enc.processPacket pkt).1.NoConflict rest := by
        intro other hother
        have hfree := hconflict other (List.mem_cons_of_mem _ hother)
        rwa [hasConflict, hpid, hinput]
      rw [ih hnext (by rwa [hpid]) hnextConflict outcome hrest, hpid]

def start (pidOutput : ℕ) (pidInput : ℕ → Bool) (pcrReference maxBuffered : ℕ) :
    PacketEncapsulation :=
  (new pidOutput pidInput pcrReference).setMaxBufferedPackets maxBuffered

theorem sends_start {pidOutput : ℕ} (hpid : pidOutput < pidMax) (pidInput : ℕ → Bool)
    (pcrReference maxBuffered : ℕ) :
    (start pidOutput pidInput pcrReference maxBuffered).Sends [] 0 0 where
  sound := {
    pid_lt := hpid
    cc_lt := show 0 < ccMax by decide
    lateIndex_mem := fun hlate ↦ absurd rfl hlate }
  late_eq := rfl
  position_le := le_rfl
  ccOutput_eq := rfl

end PacketEncapsulation

end TSDuck
