import TSDuck.Library.Reassembly
import TSDuck.Mpeg.PCRAnalyzer
import TSDuck.Mpeg.PacketWriter
import Mathlib.Algebra.Order.Ring.Int

/-!
# Encapsulation of packets in a PID

The packets of a set of input PIDs are encapsulated in the packets of one output PID. An output
packet where a queued packet starts has the payload unit start indicator and a pointer field; with
clock references on a reference PID, an output packet gets a clock reference from time to time.

`processPacket` is one call, with its assertions.

Scope. Packet counters are natural numbers; the durations and the clock references which are
computed from them are the 64-bit words of the code.
-/

namespace TSDuck

inductive EncapsulationError
  | pidConflict (pid : ℕ)
  | overflow
  deriving DecidableEq

structure PacketEncapsulation where
  pidOutput : ℕ
  pidInput : ℕ → Bool
  pcrReference : ℕ
  lastError : Option EncapsulationError
  currentPacket : ℕ
  pcrLastPacket : Option ℕ
  pcrLastValue : Option ℕ
  bitrate : ℕ
  insertPCR : Bool
  ccOutput : UInt8
  lastCC : ℕ → Option UInt8
  lateMaxPackets : ℕ
  lateIndex : ℕ
  latePackets : List TSPacket

namespace PacketEncapsulation

def defaultMaxBufferedPackets : ℕ := 1024

def new (pidOutput : ℕ) (pidInput : ℕ → Bool) (pcrReference : ℕ) : PacketEncapsulation where
  pidOutput := pidOutput
  pidInput := pidInput
  pcrReference := pcrReference
  lastError := none
  currentPacket := 0
  pcrLastPacket := none
  pcrLastValue := none
  bitrate := 0
  insertPCR := false
  ccOutput := 0
  lastCC _ := none
  lateMaxPackets := defaultMaxBufferedPackets
  lateIndex := 0
  latePackets := []

def setMaxBufferedPackets (enc : PacketEncapsulation) (count : ℕ) : PacketEncapsulation :=
  { enc with lateMaxPackets := max 8 count }

def resetPCR (enc : PacketEncapsulation) : PacketEncapsulation :=
  { enc with pcrLastPacket := none, pcrLastValue := none, bitrate := 0, insertPCR := false }

/-- The clock references are forgotten at a discontinuity. -/
def trackContinuity (enc : PacketEncapsulation) (pkt : TSPacket) : PacketEncapsulation :=
  if pkt.getPID = pidNull then enc
  else
    let tracked := { enc with lastCC := Function.update enc.lastCC pkt.getPID (some pkt.getCC) }
    match enc.lastCC pkt.getPID with
    | none => tracked
    | some last => if pkt.getCC ≠ (last + 1) &&& 0x0F then tracked.resetPCR else tracked

def packetBitRate (packets duration : ℕ) : ℕ :=
  if duration = 0 then 0 else packets * 8 * pktSize * 1000 % wordMax / duration % bitRateMax

/-- The milliseconds between two packets, in 64 bits. -/
def packetInterval (bitrate distance : ℕ) : ℤ :=
  if bitrate = 0 then 0 else ((distance * 8 * pktSize * 1000 % wordMax / bitrate : ℕ) : ℤ).bmod wordMax

def isReference (enc : PacketEncapsulation) (pkt : TSPacket) : Bool :=
  enc.pcrReference ≠ pidNull && pkt.getPID = enc.pcrReference && pkt.hasPCR

/-- Collects a clock reference, with an assertion. -/
def collectPCR (enc : PacketEncapsulation) (pkt : TSPacket) : PacketEncapsulation × Bool :=
  if enc.isReference pkt then
    let pcr := pkt.getPCR
    let saved := { enc with pcrLastPacket := some enc.currentPacket, pcrLastValue := some pcr }
    match enc.pcrLastPacket, enc.pcrLastValue with
    | some lastPacket, some lastValue =>
      if lastValue < pcr then
        let ms := (pcr - lastValue) * 1000 / systemClockFreq
        ({ saved with
            bitrate := packetBitRate (enc.currentPacket - lastPacket) ms
            insertPCR := true },
          lastPacket < enc.currentPacket)
      else (saved, true)
    | _, _ => (saved, true)
  else (enc, true)

def hasConflict (enc : PacketEncapsulation) (pkt : TSPacket) : Bool :=
  pkt.getPID = enc.pidOutput && !enc.pidInput pkt.getPID

def isInput (enc : PacketEncapsulation) (pkt : TSPacket) : Bool :=
  enc.pidInput pkt.getPID && enc.pidOutput ≠ pidNull

def overflows (enc : PacketEncapsulation) : Bool :=
  enc.latePackets.length > enc.lateMaxPackets

def enqueue (enc : PacketEncapsulation) (pkt : TSPacket) : PacketEncapsulation :=
  { enc with
    latePackets := enc.latePackets ++ [pkt]
    lateIndex := if (enc.latePackets ++ [pkt]).length = 1 then 1 else enc.lateIndex }

def checkConflict (enc : PacketEncapsulation) (pkt : TSPacket) : PacketEncapsulation :=
  if enc.hasConflict pkt then { enc with lastError := some (.pidConflict pkt.getPID) } else enc

def queuePacket (enc : PacketEncapsulation) (pkt : TSPacket) : PacketEncapsulation :=
  if enc.isInput pkt then
    if enc.overflows then { enc with lastError := some .overflow } else enc.enqueue pkt
  else enc

def nextPCR (enc : PacketEncapsulation) : Option ℕ :=
  match enc.pcrLastPacket, enc.pcrLastValue with
  | some lastPacket, some lastValue =>
    if enc.insertPCR && enc.bitrate ≠ 0 then
      let interval := packetInterval enc.bitrate (enc.currentPacket - lastPacket)
      let pcrDistance := ((interval * systemClockFreq).bmod wordMax).tdiv 1000
      some (((lastValue + pcrDistance) % wordMax).toNat % 2 ^ 42)
    else none
  | _, _ => none

def startPacket (enc : PacketEncapsulation) : TSPacket :=
  (((TSPacket.zero.setByte 0 syncByte).setByte 3 0x10).setPID enc.pidOutput).setCC enc.ccOutput

def addPCR (pkt : TSPacket) (pcr : ℕ) : TSPacket :=
  let pkt := pkt.setByte 3 (byteAt pkt.bytes 3 ||| 0x20)
  let pkt := (pkt.setByte 4 7).setByte 5 0x10
  -- There is room for the clock reference, so no exception is thrown.
  (pkt.setPCR pcr).getD pkt

def addStuffing (pkt : TSPacket) (index : ℕ) : TSPacket :=
  let pkt := pkt.setByte 3 (byteAt pkt.bytes 3 ||| 0x20)
  pkt.setByte 4 (UInt8.ofNat (index - 5))

/-- An output packet which is being filled, with the state of the queue. -/
structure Filling where
  enc : PacketEncapsulation
  pkt : TSPacket
  pktIndex : ℕ
  asserted : Bool

/-- Fills a packet from the first packet of the queue. -/
def fillPacket (filling : Filling) : Filling :=
  match filling.enc.latePackets with
  | [] => { filling with asserted := false }
  | front :: rest =>
    let index := filling.enc.lateIndex
    let size := min (pktSize - filling.pktIndex) (pktSize - index)
    { enc :=
        if index + size ≥ pktSize then { filling.enc with latePackets := rest, lateIndex := 1 }
        else { filling.enc with lateIndex := index + size }
      pkt := filling.pkt.write filling.pktIndex ((front.bytes.drop index).take size)
      pktIndex := filling.pktIndex + size
      asserted := filling.asserted && decide (index < pktSize) && decide (filling.pktIndex < pktSize) }

/-- An output packet with its header and its clock reference. -/
def openPacket (enc : PacketEncapsulation) : Filling :=
  let next := { enc with ccOutput := (enc.ccOutput + 1) &&& 0x0F }
  match enc.nextPCR with
  | none => { enc := next, pkt := enc.startPacket, pktIndex := 4, asserted := true }
  | some pcr =>
    let pkt := addPCR enc.startPacket pcr
    { enc := { next with insertPCR := false }
      pkt := pkt
      pktIndex := 12
      asserted := pkt.getPCR == pcr }

/-- Enlarges the adaptation field when bytes are missing. -/
def stuffPacket (filling : Filling) : Filling :=
  if filling.enc.latePackets.length = 1 ∧ filling.enc.lateIndex > filling.pktIndex then
    { filling with
      pkt := addStuffing filling.pkt filling.enc.lateIndex
      pktIndex := filling.enc.lateIndex }
  else filling

/-- Adds a pointer field if a packet will start. -/
def pointPacket (filling : Filling) : Filling :=
  if filling.enc.lateIndex > filling.pktIndex then
    { filling with
      pkt := filling.pkt.setPUSI.setByte filling.pktIndex
        (UInt8.ofNat (pktSize - filling.enc.lateIndex))
      pktIndex := filling.pktIndex + 1 }
  else filling

def headPacket (enc : PacketEncapsulation) : Filling :=
  pointPacket (stuffPacket enc.openPacket)

/-- Fills an output packet from the queue. -/
def fillPayload (filling : Filling) : Filling :=
  let filling := fillPacket filling
  if filling.pktIndex < pktSize then fillPacket filling else filling

def replacePacket (enc : PacketEncapsulation) : Filling :=
  let filling := fillPayload enc.headPacket
  { filling with asserted := filling.asserted && filling.pktIndex == pktSize }

/-- What a call returns. -/
structure Outcome where
  packet : TSPacket
  status : Bool
  asserted : Bool
  queued : Bool
  replaced : Bool

def processPacket (enc : PacketEncapsulation) (pkt : TSPacket) : PacketEncapsulation × Outcome :=
  let (tracked, collected) := (enc.trackContinuity pkt).collectPCR pkt
  let checked := tracked.checkConflict pkt
  let queued := checked.queuePacket pkt
  let overflow := checked.isInput pkt && checked.overflows
  let replaced :=
    (checked.isInput pkt || pkt.getPID == pidNull) && !queued.latePackets.isEmpty
  let filling : Filling :=
    if replaced then queued.replacePacket
    else { enc := queued, pkt := pkt, pktIndex := pktSize, asserted := true }
  ({ filling.enc with currentPacket := filling.enc.currentPacket + 1 },
    { packet := filling.pkt
      status := !tracked.hasConflict pkt && !overflow
      asserted := collected && filling.asserted
      queued := checked.isInput pkt && !overflow
      replaced := replaced })

def processPackets : PacketEncapsulation → List TSPacket → PacketEncapsulation × List Outcome
  | enc, [] => (enc, [])
  | enc, pkt :: rest =>
    let (next, outcome) := enc.processPacket pkt
    let (last, others) := processPackets next rest
    (last, outcome :: others)

/-! ### The header of an output packet -/

/-- What is set in the header, with the index after it. -/
structure HasHeader (pkt : TSPacket) (pid : ℕ) (cc : UInt8) (pusi af : Bool) (index : ℕ) : Prop where
  byte_one : byteAt pkt.bytes 1 = UInt8.ofNat (pid / 256) ||| if pusi then 0x40 else 0
  byte_two : byteAt pkt.bytes 2 = UInt8.ofNat pid
  byte_three : byteAt pkt.bytes 3 = 0x10 ||| cc ||| if af then 0x20 else 0
  byte_four : af = true → byteAt pkt.bytes 4 = UInt8.ofNat (index - 5)
  index_eq : af = false → index = 4
  index_le : af = true → 5 ≤ index
  index_lt : index < pktSize

namespace HasHeader

variable {pkt : TSPacket} {pid : ℕ} {cc : UInt8} {pusi af : Bool} {index : ℕ}

theorem four_le (hheader : HasHeader pkt pid cc pusi af index) : 4 ≤ index := by
  cases haf : af with
  | false => exact (hheader.index_eq haf).ge
  | true => exact (Nat.le_succ 4).trans (hheader.index_le haf)

theorem getPID_eq (hheader : HasHeader pkt pid cc pusi af index) (hpid : pid < pidMax) :
    pkt.getPID = pid := by
  have hbits : ∀ high < 32, ((UInt8.ofNat high ||| if pusi then 0x40 else 0) : UInt8).toNat % 32 =
      high := by
    cases pusi <;> decide
  have hhigh : pid / 256 < 32 := by
    unfold pidMax at hpid
    omega
  have hone := hbits (pid / 256) hhigh
  rw [← hheader.byte_one] at hone
  have hlow : (byteAt pkt.bytes 2).toNat = pid % 256 := by
    rw [hheader.byte_two, UInt8.toNat_ofNat']
  rw [TSPacket.getPID, getUInt16, show 0x1FFF = 2 ^ 13 - 1 from rfl, Nat.and_two_pow_sub_one_eq_mod,
    hlow]
  omega

theorem getPUSI_eq (hheader : HasHeader pkt pid cc pusi af index) (hpid : pid < pidMax) :
    pkt.getPUSI = pusi := by
  have hhigh : pid / 256 < 32 := by
    unfold pidMax at hpid
    omega
  rw [TSPacket.getPUSI, hheader.byte_one]
  generalize pid / 256 = high at hhigh
  revert hhigh high
  cases pusi <;> decide

theorem getCC_eq (hheader : HasHeader pkt pid cc pusi af index) (hcc : cc.toNat < ccMax) :
    pkt.getCC = cc := by
  have hbits : ∀ counter < ccMax, (0x10 ||| UInt8.ofNat counter ||| if af then 0x20 else 0) &&& 0x0F =
      UInt8.ofNat counter := by
    cases af <;> decide
  rw [TSPacket.getCC, hheader.byte_three]
  have hcounter := hbits cc.toNat hcc
  rwa [UInt8.ofNat_toNat] at hcounter

theorem hasAF_eq (hheader : HasHeader pkt pid cc pusi af index) (hcc : cc.toNat < ccMax) :
    pkt.hasAF = af := by
  have hbits : ∀ counter < ccMax,
      ((0x10 ||| UInt8.ofNat counter ||| if af then 0x20 else 0) &&& 0x20 != (0 : UInt8)) = af := by
    cases af <;> decide
  rw [TSPacket.hasAF, hheader.byte_three]
  have hcounter := hbits cc.toNat hcc
  rwa [UInt8.ofNat_toNat] at hcounter

theorem getHeaderSize_eq (hheader : HasHeader pkt pid cc pusi af index) (hcc : cc.toNat < ccMax) :
    pkt.getHeaderSize = index := by
  have hlt := hheader.index_lt
  unfold pktSize at hlt
  rw [TSPacket.getHeaderSize, hheader.hasAF_eq hcc]
  cases haf : af with
  | false =>
    rw [hheader.index_eq haf]
    rfl
  | true =>
    have hle := hheader.index_le haf
    have hsize : (UInt8.ofNat (index - 5)).toNat = index - 5 := by
      rw [UInt8.toNat_ofNat']
      omega
    rw [hheader.byte_four haf, if_pos rfl, hsize, pktSize]
    omega

theorem write (hheader : HasHeader pkt pid cc pusi af index) {offset : ℕ} (hfour : 4 ≤ offset)
    (hfive : af = true → 5 ≤ offset) (data : ByteBlock) :
    HasHeader (pkt.write offset data) pid cc pusi af index := by
  refine ⟨?_, ?_, ?_, fun haf ↦ ?_, hheader.index_eq, hheader.index_le, hheader.index_lt⟩
  · rw [TSPacket.byteAt_write_of_lt _ (by omega), hheader.byte_one]
  · rw [TSPacket.byteAt_write_of_lt _ (by omega), hheader.byte_two]
  · rw [TSPacket.byteAt_write_of_lt _ (by omega), hheader.byte_three]
  · rw [TSPacket.byteAt_write_of_lt _ (hfive haf), hheader.byte_four haf]

theorem setByte (hheader : HasHeader pkt pid cc pusi af index) (value : UInt8) :
    HasHeader (pkt.setByte index value) pid cc pusi af index := by
  have hfour := hheader.four_le
  refine ⟨?_, ?_, ?_, fun haf ↦ ?_, hheader.index_eq, hheader.index_le, hheader.index_lt⟩
  · rw [TSPacket.byteAt_setByte_of_ne _ (by omega), hheader.byte_one]
  · rw [TSPacket.byteAt_setByte_of_ne _ (by omega), hheader.byte_two]
  · rw [TSPacket.byteAt_setByte_of_ne _ (by omega), hheader.byte_three]
  · have hfive := hheader.index_le haf
    rw [TSPacket.byteAt_setByte_of_ne _ (by omega), hheader.byte_four haf]

theorem setPUSI (hheader : HasHeader pkt pid cc false af index) :
    HasHeader pkt.setPUSI pid cc true af index := by
  refine ⟨?_, ?_, ?_, fun haf ↦ ?_, hheader.index_eq, hheader.index_le, hheader.index_lt⟩
  · rw [TSPacket.setPUSI, TSPacket.byteAt_setByte_self _ (by decide), hheader.byte_one]
    simp
  · rw [TSPacket.setPUSI, TSPacket.byteAt_setByte_of_ne _ (by decide), hheader.byte_two]
  · rw [TSPacket.setPUSI, TSPacket.byteAt_setByte_of_ne _ (by decide), hheader.byte_three]
  · rw [TSPacket.setPUSI, TSPacket.byteAt_setByte_of_ne _ (by decide), hheader.byte_four haf]

theorem addStuffing (hheader : HasHeader pkt pid cc pusi af index) {target : ℕ}
    (htarget : 5 ≤ target) (hlt : target < pktSize) :
    HasHeader (addStuffing pkt target) pid cc pusi true target := by
  refine ⟨?_, ?_, ?_, fun _ ↦ ?_, fun haf ↦ Bool.noConfusion haf, fun _ ↦ htarget, hlt⟩
  · rw [PacketEncapsulation.addStuffing, TSPacket.byteAt_setByte_of_ne _ (by decide),
      TSPacket.byteAt_setByte_of_ne _ (by decide), hheader.byte_one]
  · rw [PacketEncapsulation.addStuffing, TSPacket.byteAt_setByte_of_ne _ (by decide),
      TSPacket.byteAt_setByte_of_ne _ (by decide), hheader.byte_two]
  · rw [PacketEncapsulation.addStuffing, TSPacket.byteAt_setByte_of_ne _ (by decide),
      TSPacket.byteAt_setByte_self _ (by decide), hheader.byte_three]
    cases af with
    | false => simp
    | true => simp [UInt8.or_assoc]
  · rw [PacketEncapsulation.addStuffing, TSPacket.byteAt_setByte_self _ (by decide)]

end HasHeader

theorem hasHeader_startPacket (enc : PacketEncapsulation) (hpid : enc.pidOutput < pidMax)
    (hcc : enc.ccOutput.toNat < ccMax) :
    HasHeader enc.startPacket enc.pidOutput enc.ccOutput false false 4 := by
  have hhigh : enc.pidOutput / 256 < 32 := by
    unfold pidMax at hpid
    omega
  have hmask : ∀ high < 32, (UInt8.ofNat high &&& 0x1F) = UInt8.ofNat high := by decide
  have hcounter : ∀ counter < ccMax, (UInt8.ofNat counter &&& 0x0F) = UInt8.ofNat counter := by
    decide
  have hcc' := hcounter enc.ccOutput.toNat hcc
  rw [UInt8.ofNat_toNat] at hcc'
  have hzero : byteAt TSPacket.zero.bytes 1 = 0 := rfl
  have hfits : 1 < pktSize ∧ 2 < pktSize ∧ 3 < pktSize := by decide
  refine ⟨?_, ?_, ?_, fun haf ↦ Bool.noConfusion haf, fun _ ↦ rfl, fun haf ↦ Bool.noConfusion haf,
    by decide⟩
  · rw [startPacket, TSPacket.setCC, TSPacket.setPID]
    simp [hzero, hmask _ hhigh, hfits]
  · rw [startPacket, TSPacket.setCC, TSPacket.setPID]
    simp [hfits]
  · rw [startPacket, TSPacket.setCC, TSPacket.setPID]
    simp [hcc', hfits, show (0x10 &&& 0xF0 : UInt8) = 0x10 from rfl]

variable {pcr : ℕ} {filling : Filling} {front : TSPacket} {rest : List TSPacket}
  {enc : PacketEncapsulation}

theorem getPCRAt_putPCR {data : ByteBlock} (hpcr : pcr < 2 ^ 42) (hdata : 12 ≤ data.length) :
    TSPacket.getPCRAt (writeBytes data 6 (TSPacket.putPCR pcr)) 6 = pcr ↔ pcr / 300 < 2 ^ 33 := by
  rw [TSPacket.getPCRAt_writeBytes_putPCR hdata]
  omega

theorem HasHeader.addPCR {pkt : TSPacket} {pid : ℕ} {cc : UInt8}
    (hheader : HasHeader pkt pid cc false false 4) (hcc : cc.toNat < ccMax) (hpcr : pcr < 2 ^ 42) :
    HasHeader (addPCR pkt pcr) pid cc false true 12 ∧
      ((PacketEncapsulation.addPCR pkt pcr).getPCR = pcr ↔ pcr / 300 < 2 ^ 33) := by
  obtain ⟨flagged, hflagged⟩ : ∃ flagged, flagged =
      ((pkt.setByte 3 (byteAt pkt.bytes 3 ||| 0x20)).setByte 4 7).setByte 5 0x10 := ⟨_, rfl⟩
  have hfits : 3 < pktSize ∧ 4 < pktSize ∧ 5 < pktSize := by decide
  have hhead : HasHeader flagged pid cc false true 12 := by
    refine ⟨?_, ?_, ?_, fun _ ↦ ?_, fun haf ↦ Bool.noConfusion haf, fun _ ↦ by decide, by decide⟩
    · simp [hflagged, hheader.byte_one]
    · simp [hflagged, hheader.byte_two]
    · simp [hflagged, hfits, hheader.byte_three]
    · simp [hflagged, hfits]
  have hfour : byteAt flagged.bytes 4 = 7 := hhead.byte_four rfl
  have hfive : byteAt flagged.bytes 5 = 0x10 := by simp [hflagged, hfits]
  have hoffset : ∀ other : TSPacket, HasHeader other pid cc false true 12 →
      byteAt other.bytes 5 = 0x10 → other.pcrOffset = 6 := by
    intro other hother hbyte
    have hsize : byteAt other.bytes 4 = 7 := hother.byte_four rfl
    rw [TSPacket.pcrOffset, TSPacket.hasPCR, TSPacket.getAFSize, hother.hasAF_eq hcc, hsize, hbyte]
    rfl
  have hwritten : PacketEncapsulation.addPCR pkt pcr = flagged.write 6 (TSPacket.putPCR pcr) := by
    rw [PacketEncapsulation.addPCR, ← hflagged, TSPacket.setPCR, hoffset flagged hhead hfive]
    rfl
  have hlast : HasHeader (flagged.write 6 (TSPacket.putPCR pcr)) pid cc false true 12 :=
    hhead.write (by decide) (fun _ ↦ by decide) _
  have hlastOffset := hoffset _ hlast (by rw [TSPacket.byteAt_write_of_lt _ (by decide), hfive])
  rw [hwritten]
  refine ⟨hlast, ?_⟩
  rw [TSPacket.getPCR, hlastOffset, if_neg (by decide)]
  exact getPCRAt_putPCR hpcr (by rw [flagged.length_eq]; decide)

/-! ### The stream of the queued packets -/

def late (enc : PacketEncapsulation) : ByteBlock :=
  match enc.latePackets with
  | [] => []
  | front :: rest => front.bytes.drop enc.lateIndex ++ rest.flatMap fun pkt ↦ pkt.bytes.drop 1

/-- The index is inside the first packet of the queue. -/
structure Sound (enc : PacketEncapsulation) : Prop where
  pid_lt : enc.pidOutput < pidMax
  cc_lt : enc.ccOutput.toNat < ccMax
  lateIndex_mem : enc.latePackets ≠ [] → 0 < enc.lateIndex ∧ enc.lateIndex < pktSize

theorem length_body (pkt : TSPacket) : (pkt.bytes.drop 1).length = pktBodySize := by
  rw [List.length_drop, pkt.length_eq, pktBodySize]

theorem length_bodies (packets : List TSPacket) :
    (packets.flatMap fun pkt ↦ pkt.bytes.drop 1).length = packets.length * pktBodySize := by
  induction packets with
  | nil => simp
  | cons pkt rest ih =>
    rw [List.flatMap_cons, List.length_append, ih, length_body, List.length_cons, Nat.succ_mul,
      Nat.add_comm]

theorem fillPacket_eq (hpackets : filling.enc.latePackets = front :: rest)
    (hindex : filling.enc.lateIndex < pktSize) (hpkt : filling.pktIndex < pktSize) :
    ∃ size, size = min (pktSize - filling.pktIndex) (pktSize - filling.enc.lateIndex) ∧
      (fillPacket filling).pkt = filling.pkt.write filling.pktIndex (filling.enc.late.take size) ∧
      (fillPacket filling).enc.late = filling.enc.late.drop size ∧
      (fillPacket filling).pktIndex = filling.pktIndex + size ∧
      (fillPacket filling).asserted = filling.asserted := by
  refine ⟨_, rfl, ?_⟩
  have hfront : (front.bytes.drop filling.enc.lateIndex).length =
      pktSize - filling.enc.lateIndex := by
    rw [List.length_drop, front.length_eq]
  generalize hsize : min (pktSize - filling.pktIndex) (pktSize - filling.enc.lateIndex) = size
  have hlate : filling.enc.late =
      front.bytes.drop filling.enc.lateIndex ++ rest.flatMap fun pkt ↦ pkt.bytes.drop 1 := by
    rw [late, hpackets]
  have hle : size ≤ (front.bytes.drop filling.enc.lateIndex).length := by omega
  rw [hlate, List.take_append_of_le_length hle, List.drop_append_of_le_length hle, fillPacket,
    hpackets]
  simp only [hsize, hindex, hpkt, decide_true, Bool.and_true, true_and, and_true]
  by_cases hpop : filling.enc.lateIndex + size ≥ pktSize
  · have hall : (front.bytes.drop filling.enc.lateIndex).drop size = [] :=
      List.drop_eq_nil_of_le (by omega)
    rw [if_pos hpop, hall, List.nil_append]
    cases rest with
    | nil => rfl
    | cons next others => rfl
  · rw [if_neg hpop, late, hpackets, List.drop_drop]

theorem nextPCR_lt (hpcr : enc.nextPCR = some pcr) :
    pcr < 2 ^ 42 := by
  simp only [nextPCR] at hpcr
  split at hpcr
  · split_ifs at hpcr
    rw [← Option.some.inj hpcr]
    exact Nat.mod_lt _ (Nat.two_pow_pos 42)
  · cases hpcr

/-- The clock reference to insert fits in 33 bits. -/
def PcrFits (enc : PacketEncapsulation) : Prop :=
  ∀ pcr, enc.nextPCR = some pcr → pcr / 300 < 2 ^ 33

/-- What is known of an output packet which is being filled. -/
structure IsFilling (enc : PacketEncapsulation) (pusi af : Bool) (header : ℕ) (filling : Filling) :
    Prop where
  hasHeader : HasHeader filling.pkt enc.pidOutput enc.ccOutput pusi af header
  latePackets_eq : filling.enc.latePackets = enc.latePackets
  lateIndex_eq : filling.enc.lateIndex = enc.lateIndex
  pidOutput_eq : filling.enc.pidOutput = enc.pidOutput
  pidInput_eq : filling.enc.pidInput = enc.pidInput
  ccOutput_eq : filling.enc.ccOutput = (enc.ccOutput + 1) &&& 0x0F
  asserted_iff : filling.asserted = true ↔ enc.PcrFits

theorem isFilling_openPacket (hsound : enc.Sound) :
    ∃ af, IsFilling enc false af enc.openPacket.pktIndex enc.openPacket ∧
      enc.openPacket.pktIndex ≤ 12 := by
  have hstart := hasHeader_startPacket enc hsound.pid_lt hsound.cc_lt
  cases hnext : enc.nextPCR with
  | none =>
    refine ⟨false, ⟨?_, ?_, ?_, ?_, ?_, ?_, ?_⟩, ?_⟩ <;> simp only [openPacket, hnext]
    · exact hstart
    · simp [PcrFits, hnext]
    · decide
  | some pcr =>
    obtain ⟨hheader, hread⟩ := hstart.addPCR hsound.cc_lt (nextPCR_lt hnext)
    refine ⟨true, ⟨?_, ?_, ?_, ?_, ?_, ?_, ?_⟩, ?_⟩ <;> simp only [openPacket, hnext]
    · exact hheader
    · simp [PcrFits, hnext, hread]
    · exact le_rfl

/-- A pointer field announces the next packet. -/
theorem isFilling_headPacket (hsound : enc.Sound) (hlate : enc.latePackets ≠ []) :
    ∃ af header, IsFilling enc (decide (header < enc.lateIndex)) af header enc.headPacket ∧
      enc.headPacket.pktIndex = (if header < enc.lateIndex then header + 1 else header) ∧
      (header < enc.lateIndex →
        byteAt enc.headPacket.pkt.bytes header = UInt8.ofNat (pktSize - enc.lateIndex) ∧
          enc.latePackets.length ≠ 1) ∧
      (header ≤ 12 ∨ header = enc.lateIndex) := by
  obtain ⟨af, hopen, hshort⟩ := isFilling_openPacket hsound
  obtain ⟨hpos, hlt⟩ := hsound.lateIndex_mem hlate
  have hfour := hopen.hasHeader.four_le
  rw [headPacket, stuffPacket, hopen.latePackets_eq, hopen.lateIndex_eq]
  by_cases hstuff : enc.latePackets.length = 1 ∧ enc.lateIndex > enc.openPacket.pktIndex
  · rw [if_pos hstuff, pointPacket, if_neg (by simp [hopen.lateIndex_eq])]
    refine ⟨true, enc.lateIndex, ⟨?_, hopen.latePackets_eq, hopen.lateIndex_eq, hopen.pidOutput_eq,
      hopen.pidInput_eq, hopen.ccOutput_eq, hopen.asserted_iff⟩, ?_, fun hless ↦ absurd hless (lt_irrefl _),
      Or.inr rfl⟩
    · rw [decide_eq_false (lt_irrefl _)]
      exact hopen.hasHeader.addStuffing (by omega) hlt
    · rw [if_neg (lt_irrefl _)]
  · rw [if_neg hstuff, pointPacket, hopen.lateIndex_eq]
    by_cases hpoint : enc.lateIndex > enc.openPacket.pktIndex
    · rw [if_pos hpoint]
      refine ⟨af, enc.openPacket.pktIndex, ⟨?_, hopen.latePackets_eq, hopen.lateIndex_eq,
        hopen.pidOutput_eq, hopen.pidInput_eq, hopen.ccOutput_eq, hopen.asserted_iff⟩, ?_, fun _ ↦ ⟨?_, ?_⟩,
        Or.inl hshort⟩
      · rw [decide_eq_true hpoint]
        exact hopen.hasHeader.setPUSI.setByte _
      · rw [if_pos hpoint]
      · exact TSPacket.byteAt_setByte_self _ hopen.hasHeader.index_lt
      · exact fun hone ↦ hstuff ⟨hone, hpoint⟩
    · rw [if_neg hpoint]
      refine ⟨af, enc.openPacket.pktIndex, ⟨?_, hopen.latePackets_eq, hopen.lateIndex_eq,
        hopen.pidOutput_eq, hopen.pidInput_eq, hopen.ccOutput_eq, hopen.asserted_iff⟩, ?_,
        fun hless ↦ absurd hless hpoint, Or.inl hshort⟩
      · rw [decide_eq_false hpoint]
        exact hopen.hasHeader
      · rw [if_neg hpoint]

theorem fillPacket_frame (filling : Filling) :
    (fillPacket filling).enc.pidOutput = filling.enc.pidOutput ∧
      (fillPacket filling).enc.pidInput = filling.enc.pidInput ∧
      (fillPacket filling).enc.ccOutput = filling.enc.ccOutput := by
  rw [fillPacket]
  split
  · exact ⟨rfl, rfl, rfl⟩
  · dsimp only
    split_ifs <;> exact ⟨rfl, rfl, rfl⟩

theorem fillPayload_frame (filling : Filling) :
    (fillPayload filling).enc.pidOutput = filling.enc.pidOutput ∧
      (fillPayload filling).enc.pidInput = filling.enc.pidInput ∧
      (fillPayload filling).enc.ccOutput = filling.enc.ccOutput := by
  obtain ⟨hpid, hinput, hcc⟩ := fillPacket_frame filling
  obtain ⟨hpid', hinput', hcc'⟩ := fillPacket_frame (fillPacket filling)
  rw [fillPayload]
  split_ifs
  · exact ⟨hpid'.trans hpid, hinput'.trans hinput, hcc'.trans hcc⟩
  · exact ⟨hpid, hinput, hcc⟩

theorem fillPacket_lateIndex (hpackets : filling.enc.latePackets = front :: rest)
    (hindex : 0 < filling.enc.lateIndex ∧ filling.enc.lateIndex < pktSize) :
    0 < (fillPacket filling).enc.lateIndex ∧ (fillPacket filling).enc.lateIndex < pktSize := by
  rw [fillPacket, hpackets]
  dsimp only
  split_ifs with hpop
  · exact ⟨Nat.one_pos, show 1 < pktSize by decide⟩
  · dsimp only
    omega

theorem latePackets_fillPacket (hpackets : filling.enc.latePackets = front :: rest)
    (hpop : pktSize - filling.enc.lateIndex ≤ pktSize - filling.pktIndex)
    (hindex : filling.enc.lateIndex < pktSize) :
    (fillPacket filling).enc.latePackets = rest ∧ (fillPacket filling).enc.lateIndex = 1 := by
  have hall : filling.enc.lateIndex +
      min (pktSize - filling.pktIndex) (pktSize - filling.enc.lateIndex) ≥ pktSize := by omega
  rw [fillPacket, hpackets]
  dsimp only
  rw [if_pos hall]
  exact ⟨rfl, rfl⟩

/-- What an output packet is, and what remains in the queue. -/
structure IsReplaced (enc : PacketEncapsulation) (header : ℕ) (last : Filling) : Prop where
  hasHeader : ∃ af, HasHeader last.pkt enc.pidOutput enc.ccOutput (decide (header < enc.lateIndex))
    af header
  pointer : header < enc.lateIndex →
    byteAt last.pkt.bytes header = UInt8.ofNat (pktSize - enc.lateIndex)
  payload : last.pkt.bytes.drop (if header < enc.lateIndex then header + 1 else header) =
    enc.late.take (pktSize - if header < enc.lateIndex then header + 1 else header)
  late_eq : last.enc.late =
    enc.late.drop (pktSize - if header < enc.lateIndex then header + 1 else header)
  le_late : (pktSize - if header < enc.lateIndex then header + 1 else header) ≤ enc.late.length
  header_le : header ≤ 12 ∨ header = enc.lateIndex
  sound : last.enc.Sound
  pidOutput_eq : last.enc.pidOutput = enc.pidOutput
  pidInput_eq : last.enc.pidInput = enc.pidInput
  ccOutput_eq : last.enc.ccOutput = (enc.ccOutput + 1) &&& 0x0F
  asserted_iff : last.asserted = true ↔ enc.PcrFits

/-- The payload of an output packet is filled exactly. -/
theorem fillPayload_eq (hpackets : filling.enc.latePackets = front :: rest)
    (hindex : 0 < filling.enc.lateIndex ∧ filling.enc.lateIndex < pktSize)
    (hpkt : 0 < filling.pktIndex ∧ filling.pktIndex < pktSize)
    (hrest : filling.pktIndex < filling.enc.lateIndex → rest ≠ []) :
    (fillPayload filling).pkt =
        filling.pkt.write filling.pktIndex (filling.enc.late.take (pktSize - filling.pktIndex)) ∧
      (fillPayload filling).enc.late = filling.enc.late.drop (pktSize - filling.pktIndex) ∧
      pktSize - filling.pktIndex ≤ filling.enc.late.length ∧
      (fillPayload filling).pktIndex = pktSize ∧
      (fillPayload filling).asserted = filling.asserted ∧
      (0 < (fillPayload filling).enc.lateIndex ∧
        (fillPayload filling).enc.lateIndex < pktSize) := by
  obtain ⟨size, hsize, hwrite, hlate, hnext, hasserted⟩ := fillPacket_eq hpackets hindex.2 hpkt.2
  have hfirst := fillPacket_lateIndex hpackets hindex
  have hlength : filling.enc.late.length =
      pktSize - filling.enc.lateIndex + rest.length * pktBodySize := by
    rw [late, hpackets]
    dsimp only
    rw [List.length_append, List.length_drop, front.length_eq, length_bodies]
  by_cases hfull : pktSize - filling.pktIndex ≤ pktSize - filling.enc.lateIndex
  · have hall : size = pktSize - filling.pktIndex := by omega
    have hend : filling.pktIndex + size = pktSize := by omega
    rw [fillPayload, hnext, if_neg (by omega)]
    rw [hall] at hwrite hlate
    exact ⟨hwrite, hlate, by omega, by rw [hnext, hend], hasserted, hfirst⟩
  · have hall : size = pktSize - filling.enc.lateIndex := by omega
    obtain ⟨second, others, hothers⟩ := List.exists_cons_of_ne_nil (hrest (by omega))
    obtain ⟨hpopped, hone⟩ := latePackets_fillPacket hpackets (by omega) hindex.2
    have hsecond : (fillPacket filling).enc.latePackets = second :: others := hpopped.trans hothers
    have hindex' : 0 < (fillPacket filling).enc.lateIndex ∧
        (fillPacket filling).enc.lateIndex < pktSize := hfirst
    have hpkt' : (fillPacket filling).pktIndex < pktSize := by omega
    obtain ⟨size', hsize', hwrite', hlate', hnext', hasserted'⟩ :=
      fillPacket_eq hsecond hindex'.2 hpkt'
    have hrestLength : pktBodySize ≤ rest.length * pktBodySize := by
      rw [hothers]
      exact Nat.le_mul_of_pos_left _ (Nat.succ_pos _)
    have hbody : pktBodySize = pktSize - 1 := rfl
    have hsum : size + size' = pktSize - filling.pktIndex := by omega
    rw [fillPayload, if_pos hpkt']
    refine ⟨?_, ?_, by omega, by omega, hasserted'.trans hasserted,
      fillPacket_lateIndex hsecond hindex'⟩
    · have htaken : filling.pktIndex + size =
          filling.pktIndex + (filling.enc.late.take size).length := by
        rw [List.length_take]
        omega
      rw [hwrite', hwrite, hnext, hlate, htaken, TSPacket.write_write, ← List.take_add, hsum]
    · rw [hlate', hlate, List.drop_drop, hsum]

theorem isReplaced_replacePacket (hsound : enc.Sound) (hlate : enc.latePackets ≠ []) :
    ∃ header, IsReplaced enc header enc.replacePacket := by
  obtain ⟨af, header, hhead, hindex, hpointer, hshort⟩ := isFilling_headPacket hsound hlate
  have hmem := hsound.lateIndex_mem hlate
  have hheader := hhead.hasHeader
  have hfour := hheader.four_le
  have hheaderLt := hheader.index_lt
  obtain ⟨front, rest, hpackets⟩ := List.exists_cons_of_ne_nil hlate
  have hheadLate : enc.headPacket.enc.late = enc.late := by
    rw [late, late, hhead.latePackets_eq, hhead.lateIndex_eq]
  have hrest : enc.headPacket.pktIndex < enc.headPacket.enc.lateIndex → rest ≠ [] := by
    rintro hless rfl
    rw [hindex, hhead.lateIndex_eq] at hless
    split_ifs at hless with hpoint
    · exact (hpointer hpoint).2 (by rw [hpackets]; rfl)
    · exact hpoint hless
  have hroom : 0 < enc.headPacket.pktIndex ∧ enc.headPacket.pktIndex < pktSize := by
    rw [hindex]
    split_ifs <;> omega
  obtain ⟨hwrite, hdrop, hlength, hend, hasserted, hlast⟩ :=
    fillPayload_eq (hhead.latePackets_eq.trans hpackets) (by rwa [hhead.lateIndex_eq]) hroom hrest
  obtain ⟨hpid, hinput, hcc⟩ := fillPayload_frame enc.headPacket
  rw [hheadLate] at hwrite hdrop hlength
  have hle : header ≤ enc.headPacket.pktIndex := by
    rw [hindex]
    split_ifs <;> omega
  have hsame : enc.replacePacket.pkt = enc.headPacket.pkt.write enc.headPacket.pktIndex
      (enc.late.take (pktSize - enc.headPacket.pktIndex)) := hwrite
  have htaken : (enc.late.take (pktSize - enc.headPacket.pktIndex)).length =
      pktSize - enc.headPacket.pktIndex := by
    rw [List.length_take, Nat.min_eq_left hlength]
  have hcounter : enc.replacePacket.enc.ccOutput.toNat < ccMax := by
    rw [show enc.replacePacket.enc.ccOutput = _ from hcc.trans hhead.ccOutput_eq,
      TSPacket.next_cc_eq]
    exact Nat.mod_lt _ (by decide)
  refine ⟨header, ⟨⟨af, ?_⟩, fun hpoint ↦ ?_, ?_, ?_, ?_, hshort, ?_, ?_, ?_, ?_, ?_⟩⟩
  · rw [hsame]
    exact hheader.write (by omega) (fun haf ↦ (hheader.index_le haf).trans hle) _
  · rw [hsame, hindex, if_pos hpoint, TSPacket.byteAt_write_of_lt _ (Nat.lt_succ_self _)]
    exact (hpointer hpoint).1
  · rw [← hindex, hsame]
    exact TSPacket.drop_write _ (by omega)
  · rw [← hindex]
    exact hdrop
  · rw [← hindex]
    exact hlength
  · exact ⟨(hpid.trans hhead.pidOutput_eq).trans_lt hsound.pid_lt, hcounter, fun _ ↦ hlast⟩
  · exact hpid.trans hhead.pidOutput_eq
  · exact hinput.trans hhead.pidInput_eq
  · exact hcc.trans hhead.ccOutput_eq
  · rw [← hhead.asserted_iff, ← hasserted, replacePacket]
    simp [hend]

end PacketEncapsulation

end TSDuck
