import TSDuck.Library.Machine
import TSDuck.Mpeg.AdaptationField
import TSDuck.T2MI.BasebandFrames

/-!
# Alignment of the packets of T2-MI streams

The demux receives the packets of all PIDs (`T2MIDemux.feedPacket`).

A transport packet is aligned when it is the synchronization byte and 187 successive bytes of the
data fields, from a boundary which a frame announces (`IsUserPacket`). The demux never compares the
announced distances with what it has already received: the packets are aligned when each frame
continues the buffer of its PLP (`PLPContext.Continues`), and `aligned_of_meets` states it for all
runs.

Scope. The data are those of the valid T2-MI packets. The distance between two user packets is the
one of the high efficiency mode, which is the only one that the demux knows, with the byte of the
null packet deletion if there is one.
-/

namespace TSDuck

/-! ### The reception of packets -/

structure PIDReception where
  continuity : UInt8
  sync : Bool
  context : T2MIPIDContext

namespace PIDReception

def new : PIDReception where
  continuity := 0
  sync := false
  context := .new

def lostSync (reception : PIDReception) : PIDReception :=
  { reception with
    sync := false
    context := .new }

/-- Another counter, or an announced discontinuity. -/
def isBroken (reception : PIDReception) (pkt : TSPacket) : Bool :=
  reception.sync && (pkt.getDiscontinuityIndicator || pkt.getCC != (reception.continuity + 1) &&& 0x0F)

def track (reception : PIDReception) (pkt : TSPacket) : PIDReception :=
  { if reception.isBroken pkt then reception.lostSync else reception with continuity := pkt.getCC }

/-- The pointer field is missing or outside the payload. -/
def hasBadPointer (pkt : TSPacket) : Bool :=
  pkt.getPUSI &&
    pkt.payload.length ≤ 1 + (if pkt.payload = [] then 0 else (byteAt pkt.payload 0).toNat)

def accept (reception : PIDReception) (pkt : TSPacket) : PIDReception × Option ByteBlock :=
  let tracked := reception.track pkt
  if hasBadPointer pkt then (tracked.lostSync, none)
  else if pkt.getPUSI then
    if tracked.sync then (tracked, some (pkt.payload.drop 1))
    else
      ({ tracked with sync := true }, some (pkt.payload.drop (1 + (byteAt pkt.payload 0).toNat)))
  else (tracked, if tracked.sync then some pkt.payload else none)

/-- Receives a packet and gives transport packets. -/
def feed (reception : PIDReception) (pkt : TSPacket) :
    PIDReception × List (T2MIPacket × TSPacket) :=
  let accepted := reception.accept pkt
  match accepted.2 with
  | none => (accepted.1, [])
  | some data =>
    let result := accepted.1.context.receive data
    ({ accepted.1 with context := result.1 }, result.2)

end PIDReception

/-- The demux: the reception on each PID. -/
structure T2MIDemux where
  pids : ℕ → PIDReception

namespace T2MIDemux

def new : T2MIDemux := ⟨fun _ ↦ .new⟩

def feedPacket (demux : T2MIDemux) (pidFilter : ℕ → Bool) (pkt : TSPacket) :
    T2MIDemux × List (T2MIPacket × TSPacket) :=
  if !pidFilter pkt.getPID || pkt.isScrambled then (demux, [])
  else
    let result := (demux.pids pkt.getPID).feed pkt
    (⟨Function.update demux.pids pkt.getPID result.1⟩, result.2)

end T2MIDemux

def dataOf (frames : List BasebandFrame) : ByteBlock := frames.flatMap (·.data)

/-- A position where a frame announces that a user packet starts. -/
def IsBoundary (frames : List BasebandFrame) (position : ℕ) : Prop :=
  ∃ before frame after count, frames = before ++ frame :: after ∧ frame.syncd ≠ 0xFFFF ∧
    frame.syncd / 8 + (pktSize - 1 + frame.npd) * count < frame.data.length ∧
      position = (dataOf before).length + (frame.syncd / 8 + (pktSize - 1 + frame.npd) * count)

/-- A packet from one of some positions of a stream. -/
def IsPacketAt (isStart : ℕ → Prop) (stream : ByteBlock) (pkt : TSPacket) : Prop :=
  ∃ position, isStart position ∧ position + (pktSize - 1) ≤ stream.length ∧
    pkt.bytes = syncByte :: slice stream position (pktSize - 1)

/-- A user packet of frames, from an announced boundary. -/
def IsUserPacket (frames : List BasebandFrame) (pkt : TSPacket) : Prop :=
  IsPacketAt (IsBoundary frames) (dataOf frames) pkt

namespace PLPContext

/-- Without the start of a packet, the data of a frame are at most the end of the packet which has
started. With one, what is in front of it is exactly this end. With null packet deletion, no other
packet starts in the frame. -/
def Continues (context : PLPContext) (frame : BasebandFrame) : Prop :=
  let partialSize := context.ts.length % pktSize
  let size := frame.data.length
  let syncd := min (frame.syncd / 8) size
  if frame.syncd = 0xFFFF then size = 0 ∨ (partialSize ≠ 0 ∧ partialSize + size ≤ pktSize)
  else
    (if context.firstPacket = false ∧ 0 < syncd then
      partialSize ≠ 0 ∧ (partialSize + (syncd - frame.npd) = pktSize ∨
        (syncd = size ∧ frame.npd = 0 ∧ partialSize + size ≤ pktSize))
    else partialSize = 0 ∨ size = 0) ∧ (frame.npd = 0 ∨ size - syncd ≤ pktSize - 1)

instance (context : PLPContext) (frame : BasebandFrame) : Decidable (context.Continues frame) := by
  unfold Continues
  infer_instance

/-- Frames continue the buffer of their PLP, one after the other. -/
def AllContinue : PLPContext → List BasebandFrame → Prop
  | _, [] => True
  | context, frame :: frames =>
    context.Continues frame ∧ AllContinue (context.processFrame frame).1 frames

end PLPContext

/-! ### The packets of a buffer -/

/-- The buffer ends with the beginning of a packet, or nothing. -/
def IsPartial (isStart : ℕ → Prop) (stream last : ByteBlock) : Prop :=
  last = [] ∨ ∃ position, isStart position ∧ position ≤ stream.length ∧
    stream.length < position + (pktSize - 1) ∧ last = syncByte :: stream.drop position

/-- Packets, and maybe the beginning of another one. -/
def IsPacketized (isStart : ℕ → Prop) (stream history : ByteBlock) : Prop :=
  ∃ (packets : List TSPacket) (last : ByteBlock), history = packets.flatMap (·.bytes) ++ last ∧
    (∀ pkt ∈ packets, IsPacketAt isStart stream pkt) ∧ IsPartial isStart stream last

variable {last : ByteBlock}

theorem IsPartial.length_lt {isStart : ℕ → Prop} {stream : ByteBlock}
    (hlast : IsPartial isStart stream last) : last.length < pktSize := by
  obtain rfl | ⟨position, -, -, hshort, rfl⟩ := hlast
  · decide
  · rw [List.length_cons, List.length_drop]
    unfold pktSize at hshort ⊢
    omega

theorem takeAllRecords_packets (packets : List TSPacket) (hlast : last.length < pktSize) :
    takeAllRecords readTSPacket (packets.flatMap (·.bytes) ++ last) = (packets, last) := by
  induction packets with
  | nil => exact takeAllRecords_of_short hlast
  | cons pkt packets ih =>
    rw [List.flatMap_cons, List.append_assoc, isStream_readTSPacket.takeAllRecords_eq,
      readTSPacket_bytes]
    dsimp only
    rw [ih]

theorem length_packets_mod (packets : List TSPacket) (hlast : last.length < pktSize) :
    (packets.flatMap (·.bytes) ++ last).length % pktSize = last.length := by
  induction packets with
  | nil => exact Nat.mod_eq_of_lt hlast
  | cons pkt packets ih =>
    rw [List.flatMap_cons, List.append_assoc, List.length_append, pkt.length_eq, Nat.add_mod_left, ih]

theorem dataOf_append (first second : List BasebandFrame) :
    dataOf (first ++ second) = dataOf first ++ dataOf second := List.flatMap_append

theorem IsBoundary.append {frames : List BasebandFrame} {position : ℕ}
    (hboundary : IsBoundary frames position) (more : List BasebandFrame) :
    IsBoundary (frames ++ more) position := by
  obtain ⟨before, frame, after, count, rfl, hstart, hinside, hposition⟩ := hboundary
  exact ⟨before, frame, after ++ more, count, by rw [List.append_assoc]; rfl, hstart, hinside, hposition⟩

theorem slice_append_left {stream : ByteBlock} {position size : ℕ}
    (hstream : position + size ≤ stream.length) (more : ByteBlock) :
    slice (stream ++ more) position size = slice stream position size := by
  unfold slice
  rw [List.drop_append_of_le_length (by omega), List.take_append_of_le_length]
  rw [List.length_drop]
  omega

theorem IsPacketAt.append {isStart isLater : ℕ → Prop} (hstarts : ∀ position, isStart position →
    isLater position) {stream : ByteBlock} {pkt : TSPacket} (hpkt : IsPacketAt isStart stream pkt)
    (more : ByteBlock) : IsPacketAt isLater (stream ++ more) pkt := by
  obtain ⟨position, hposition, hinside, hbytes⟩ := hpkt
  refine ⟨position, hstarts position hposition, ?_, ?_⟩
  · rw [List.length_append]
    omega
  · rw [slice_append_left hinside, hbytes]

theorem IsPacketized.mono {isStart isLater : ℕ → Prop}
    (hstarts : ∀ position, isStart position → isLater position) {stream history : ByteBlock}
    (hhistory : IsPacketized isStart stream history) : IsPacketized isLater stream history := by
  obtain ⟨packets, last, hbytes, hpackets, hlast⟩ := hhistory
  refine ⟨packets, last, hbytes, fun pkt hpkt ↦ ?_, hlast.imp id ?_⟩
  · obtain ⟨position, hposition, hrest⟩ := hpackets pkt hpkt
    exact ⟨position, hstarts position hposition, hrest⟩
  · rintro ⟨position, hposition, hrest⟩
    exact ⟨position, hstarts position hposition, hrest⟩

section Buffer

variable {isStart isLater : ℕ → Prop} (hstarts : ∀ position, isStart position → isLater position)
  {stream history : ByteBlock}

include hstarts

theorem IsPacketized.append_data (hhistory : IsPacketized isStart stream history) {data : ByteBlock}
    (hpart : history.length % pktSize ≠ 0)
    (hsize : history.length % pktSize + data.length ≤ pktSize) :
    IsPacketized isLater (stream ++ data) (history ++ data) := by
  obtain ⟨packets, last, rfl, hpackets, hlast⟩ := hhistory
  rw [length_packets_mod packets hlast.length_lt] at hpart hsize
  have hlater : ∀ pkt ∈ packets, IsPacketAt isLater (stream ++ data) pkt :=
    fun pkt hpkt ↦ (hpackets pkt hpkt).append hstarts data
  obtain rfl | ⟨position, hposition, hle, hshort, rfl⟩ := hlast
  · exact absurd rfl hpart
  have hextended : (stream ++ data).drop position = stream.drop position ++ data :=
    List.drop_append_of_le_length hle
  rw [List.length_cons, List.length_drop] at hsize
  by_cases hcomplete : stream.length + data.length < position + (pktSize - 1)
  · refine ⟨packets, _, List.append_assoc _ _ _, hlater, Or.inr ⟨position, hstarts _ hposition, ?_, ?_, ?_⟩⟩
    · rw [List.length_append]
      omega
    · rw [List.length_append]
      omega
    · rw [hextended]
      rfl
  · have hlength : (syncByte :: (stream ++ data).drop position).length = pktSize := by
      rw [List.length_cons, List.length_drop, List.length_append]
      unfold pktSize at *
      omega
    refine ⟨packets ++ [⟨_, hlength⟩], [], ?_, ?_, Or.inl rfl⟩
    · rw [List.flatMap_append, List.flatMap_singleton, List.append_nil, List.append_assoc]
      show _ ++ syncByte :: (stream.drop position ++ data) = _ ++ syncByte :: (stream ++ data).drop position
      rw [hextended]
    · intro pkt hpkt
      rcases List.mem_append.mp hpkt with hpkt | hpkt
      · exact hlater pkt hpkt
      · rw [List.mem_singleton.mp hpkt]
        refine ⟨position, hstarts _ hposition, ?_, ?_⟩
        · rw [List.length_append]
          omega
        · have hall : (stream ++ data).length - position ≤ pktSize - 1 := by
            rw [List.length_append]
            unfold pktSize at *
            omega
          rw [slice, List.take_of_length_le (by rw [List.length_drop]; exact hall)]

omit hstarts

theorem IsPacketized.exists_packets (hhistory : IsPacketized isStart stream history)
    (hwhole : history.length % pktSize = 0) :
    ∃ packets : List TSPacket, history = packets.flatMap (·.bytes) ∧
      ∀ pkt ∈ packets, IsPacketAt isStart stream pkt := by
  obtain ⟨packets, last, rfl, hpackets, hlast⟩ := hhistory
  rw [length_packets_mod packets hlast.length_lt] at hwhole
  rw [List.eq_nil_of_length_eq_zero hwhole, List.append_nil]
  exact ⟨packets, rfl, hpackets⟩

theorem isPacketized_putAllUserPackets (base data : ByteBlock)
    (hdata : ∀ count, (pktSize - 1) * count < data.length →
      isLater (base.length + (pktSize - 1) * count)) :
    IsPacketized isLater (base ++ data) (putAllUserPackets data) := by
  induction hlength : data.length using Nat.strong_induction_on generalizing base data with
  | _ length ih =>
    by_cases hnil : data = []
    · subst hnil
      exact ⟨[], [], rfl, nofun, Or.inl rfl⟩
    have hpositive := List.length_pos_of_ne_nil hnil
    have hfirst : isLater base.length := hdata 0 (by omega)
    rw [putAllUserPackets_cons hnil]
    by_cases hlong : pktSize - 1 ≤ data.length
    · have hrest := ih _ (by rw [List.length_drop, pktSize]; omega) (base ++ data.take (pktSize - 1))
        (data.drop (pktSize - 1)) (by
          intro count hcount
          rw [List.length_drop] at hcount
          have hnext := hdata (count + 1) (by rw [Nat.mul_succ]; omega)
          rw [List.length_append, List.length_take, Nat.min_eq_left hlong]
          rw [Nat.mul_succ] at hnext
          rw [show base.length + (pktSize - 1) + (pktSize - 1) * count =
            base.length + ((pktSize - 1) * count + (pktSize - 1)) by omega]
          exact hnext) rfl
      rw [List.append_assoc, List.take_append_drop] at hrest
      obtain ⟨packets, last, hbytes, hpackets, hlast⟩ := hrest
      have hsize : (syncByte :: data.take (pktSize - 1)).length = pktSize := by
        rw [List.length_cons, List.length_take, Nat.min_eq_left hlong]
        rfl
      refine ⟨⟨_, hsize⟩ :: packets, last, ?_, ?_, hlast⟩
      · rw [hbytes, List.flatMap_cons, List.append_assoc]
      · rintro pkt (_ | ⟨_, hpkt⟩)
        · refine ⟨base.length, hfirst, by rw [List.length_append]; omega, ?_⟩
          rw [slice, List.drop_left]
        · exact hpackets pkt hpkt
    · have hempty : putAllUserPackets [] = [] := rfl
      rw [List.take_of_length_le (by omega), List.drop_eq_nil_of_le (by omega), hempty, List.append_nil]
      refine ⟨[], _, rfl, nofun, Or.inr ⟨base.length, hfirst, ?_, ?_, ?_⟩⟩
      · rw [List.length_append]
        omega
      · rw [List.length_append]
        omega
      · rw [List.drop_left]

theorem IsPacketized.append {packets : List TSPacket}
    (hpackets : ∀ pkt ∈ packets, IsPacketAt isStart stream pkt)
    (hhistory : IsPacketized isStart stream history) :
    IsPacketized isStart stream (packets.flatMap (·.bytes) ++ history) := by
  obtain ⟨others, last, rfl, hothers, hlast⟩ := hhistory
  refine ⟨packets ++ others, last, ?_, ?_, hlast⟩
  · rw [List.flatMap_append, List.append_assoc]
  · intro pkt hpkt
    rcases List.mem_append.mp hpkt with hpkt | hpkt
    · exact hpackets pkt hpkt
    · exact hothers pkt hpkt

end Buffer

/-! ### One frame -/

theorem isBoundary_last {frame : BasebandFrame} (hstart : frame.syncd ≠ 0xFFFF)
    (hnpd : frame.npd = 0 ∨ frame.data.length - frame.syncd / 8 ≤ pktSize - 1)
    (frames : List BasebandFrame) {count : ℕ}
    (hcount : (pktSize - 1) * count < frame.data.length - frame.syncd / 8) :
    IsBoundary (frames ++ [frame]) ((dataOf frames).length + (frame.syncd / 8 + (pktSize - 1) * count)) := by
  have hstride : (pktSize - 1 + frame.npd) * count = (pktSize - 1) * count := by
    rcases hnpd with hnone | hone
    · rw [hnone, Nat.add_zero]
    · obtain rfl : count = 0 := by
        by_contra hne
        have := Nat.le_mul_of_pos_right (pktSize - 1) (Nat.pos_of_ne_zero hne)
        omega
      rfl
  refine ⟨frames, frame, [], count, rfl, hstart, ?_, ?_⟩
  · rw [hstride]
    omega
  · rw [hstride]

variable {frames : List BasebandFrame} {context : PLPContext}

theorem isPacketized_addedBytes {history : ByteBlock}
    (hhistory : IsPacketized (IsBoundary frames) (dataOf frames) history)
    (haligned : context.ts.length % pktSize = history.length % pktSize) {frame : BasebandFrame}
    (hcontinues : context.Continues frame) :
    IsPacketized (IsBoundary (frames ++ [frame])) (dataOf (frames ++ [frame]))
      (history ++
        addedBytes context.firstPacket history.length frame.npd frame.syncd frame.data) := by
  have hdata : dataOf (frames ++ [frame]) = dataOf frames ++ frame.data := by
    rw [dataOf_append]
    exact congrArg _ (List.flatMap_singleton _ _)
  have hstarts : ∀ position, IsBoundary frames position → IsBoundary (frames ++ [frame]) position :=
    fun position hposition ↦ hposition.append [frame]
  have hempty : frame.data = [] →
      IsPacketized (IsBoundary (frames ++ [frame])) (dataOf frames ++ frame.data) history := by
    intro hnil
    rw [hnil, List.append_nil]
    exact hhistory.mono hstarts
  unfold PLPContext.Continues at hcontinues
  dsimp only at hcontinues
  rw [haligned] at hcontinues
  rw [hdata]
  unfold addedBytes
  by_cases hnone : frame.syncd = 0xFFFF
  · rw [if_pos hnone] at hcontinues
    rw [if_pos hnone]
    rcases hcontinues with hnil | ⟨hpart, hsize⟩
    · have hdataNil := List.eq_nil_of_length_eq_zero hnil
      have hsame := hempty hdataNil
      rw [hdataNil] at hsame ⊢
      rw [List.append_nil history]
      exact hsame
    · exact hhistory.append_data hstarts hpart hsize
  · rw [if_neg hnone] at hcontinues
    rw [if_neg hnone]
    dsimp only
    obtain ⟨syncd, hsyncd⟩ : ∃ syncd, syncd = min (frame.syncd / 8) frame.data.length := ⟨_, rfl⟩
    rw [← hsyncd] at hcontinues ⊢
    obtain ⟨hprevious, hnpd⟩ := hcontinues
    have husers : IsPacketized (IsBoundary (frames ++ [frame])) (dataOf frames ++ frame.data)
        (putAllUserPackets (frame.data.drop syncd)) := by
      have hlength : (dataOf frames ++ frame.data.take syncd).length =
          (dataOf frames).length + syncd := by
        rw [List.length_append, List.length_take]
        omega
      have hboundaries : ∀ count, (pktSize - 1) * count < (frame.data.drop syncd).length →
          IsBoundary (frames ++ [frame])
            ((dataOf frames ++ frame.data.take syncd).length + (pktSize - 1) * count) := by
        intro count hcount
        rw [List.length_drop] at hcount
        obtain rfl : syncd = frame.syncd / 8 := by omega
        rw [hlength, Nat.add_assoc]
        exact isBoundary_last hnone hnpd frames hcount
      have hput := isPacketized_putAllUserPackets _ _ hboundaries
      rw [List.append_assoc, List.take_append_drop] at hput
      exact hput
    by_cases hend : context.firstPacket = false ∧ 0 < syncd
    · rw [if_pos hend] at hprevious
      obtain ⟨hpart, hsizes⟩ := hprevious
      rw [if_pos hend, if_neg hpart, List.nil_append]
      rcases hsizes with hcomplete | ⟨hall, hzero, hsize⟩
      · have htake : (frame.data.take (syncd - frame.npd)).length = syncd - frame.npd := by
          rw [List.length_take]
          omega
        have hsize : history.length % pktSize + (frame.data.take (syncd - frame.npd)).length ≤
            pktSize := by
          omega
        have hfirst := hhistory.append_data hstarts hpart hsize
        obtain ⟨packets, hbytes, hpackets⟩ := hfirst.exists_packets (by
          rw [List.length_append, htake, Nat.add_mod]
          unfold pktSize at *
          omega)
        rw [← List.append_assoc, hbytes]
        apply IsPacketized.append _ husers
        intro pkt hpkt
        have hlater := (hpackets pkt hpkt).append (fun _ h ↦ h) (frame.data.drop (syncd - frame.npd))
        rw [List.append_assoc, List.take_append_drop] at hlater
        exact hlater
      · have hwhole := hhistory.append_data hstarts hpart hsize
        have hnil : putUserPackets (frame.data.drop frame.data.length).length
            (frame.data.drop frame.data.length) = [] := by
          rw [List.drop_length]
          rfl
        rw [hall, hzero, Nat.sub_zero, List.take_length, hnil, List.append_nil]
        exact hwhole
    · rw [if_neg hend] at hprevious
      rw [if_neg hend, List.nil_append]
      rcases hprevious with hwhole | hnil
      · obtain ⟨packets, hbytes, hpackets⟩ := hhistory.exists_packets hwhole
        rw [hbytes]
        exact IsPacketized.append (fun pkt hpkt ↦ (hpackets pkt hpkt).append hstarts frame.data) husers
      · have hdataNil := List.eq_nil_of_length_eq_zero hnil
        have hsame := hempty hdataNil
        rw [hdataNil] at hsame ⊢
        rw [List.drop_nil]
        show IsPacketized _ _ (history ++ [])
        rw [List.append_nil history]
        exact hsame

/-! ### Successive frames -/

theorem PLPContext.AllContinue.isPacketized {firstPacket : Bool} {history : ByteBlock}
    (hcontext : context.Holds firstPacket history) {before : List BasebandFrame}
    (hcontinue : context.AllContinue frames)
    (hhistory : IsPacketized (IsBoundary before) (dataOf before) history) :
    IsPacketized (IsBoundary (before ++ frames)) (dataOf (before ++ frames))
      (received firstPacket history frames) := by
  induction frames generalizing context firstPacket history before with
  | nil =>
    rw [List.append_nil]
    exact hhistory
  | cons frame frames ih =>
    obtain ⟨hfirst, hrest⟩ := hcontinue
    have hnext := isPacketized_addedBytes hhistory hcontext.aligned hfirst
    rw [hcontext.firstPacket_eq] at hnext
    have hall := ih (hcontext.processFrame frame).1 hrest hnext
    rw [List.append_assoc] at hall
    exact hall

theorem PLPContext.allContinue_append {first second : List BasebandFrame} :
    context.AllContinue (first ++ second) ↔
      context.AllContinue first ∧ (context.processFrames first).1.AllContinue second := by
  induction first generalizing context with
  | nil => exact (and_iff_right trivial).symm
  | cons frame first ih =>
    rw [List.cons_append, PLPContext.AllContinue, PLPContext.AllContinue, ih, and_assoc]
    rfl

theorem isUserPacket_of_allContinue (hcontinue : PLPContext.new.AllContinue frames) :
    ∀ pkt ∈ (takeAllRecords readTSPacket (received true [] frames)).1, IsUserPacket frames pkt := by
  have hnothing : IsPacketized (IsBoundary []) (dataOf []) [] := ⟨[], [], rfl, nofun, Or.inl rfl⟩
  obtain ⟨packets, last, hbytes, hpackets, hlast⟩ :=
    hcontinue.isPacketized PLPContext.holds_new hnothing
  rw [hbytes, takeAllRecords_packets packets hlast.length_lt]
  exact hpackets

theorem T2MIPIDContext.receiveAll_concat (context : T2MIPIDContext) (pieces : List ByteBlock)
    (data : ByteBlock) :
    context.receiveAll (pieces ++ [data]) = (((context.receiveAll pieces).1.receive data).1,
        (context.receiveAll pieces).2 ++ ((context.receiveAll pieces).1.receive data).2) := by
  induction pieces generalizing context with
  | nil =>
    show (((context.receive data).1, (context.receive data).2 ++ []) : T2MIPIDContext × _) = _
    rw [List.append_nil]
    rfl
  | cons piece pieces ih =>
    rw [List.cons_append, T2MIPIDContext.receiveAll, ih]
    simp only [T2MIPIDContext.receiveAll, List.append_assoc]

theorem T2MIPIDContext.receiveAll_context (context : T2MIPIDContext) (pieces : List ByteBlock) :
    (context.receiveAll pieces).1.t2mi = (feedAll readT2MIPacket context.t2mi pieces).2 ∧
      ∀ plp, (context.receiveAll pieces).1.plps plp = ((context.plps plp).processFrames
          (framesOf plp (feedAll readT2MIPacket context.t2mi pieces).1)).1 := by
  induction pieces generalizing context with
  | nil => exact ⟨rfl, fun _ ↦ rfl⟩
  | cons piece pieces ih =>
    have hstep : context.receive piece =
        ({ context with t2mi := (feedRecords readT2MIPacket context.t2mi piece).2 } :
          T2MIPIDContext).demuxAll (feedRecords readT2MIPacket context.t2mi piece).1 :=
      rfl
    have hfirst := fun plp ↦
      ({ context with t2mi := (feedRecords readT2MIPacket context.t2mi piece).2 } :
        T2MIPIDContext).demuxAll_plp (feedRecords readT2MIPacket context.t2mi piece).1 plp
    rw [← hstep] at hfirst
    obtain ⟨hbuffer, hplps⟩ := ih (context.receive piece).1
    rw [(hfirst 0).1] at hbuffer hplps
    constructor
    · rw [T2MIPIDContext.receiveAll]
      exact hbuffer
    · intro plp
      have hframes : framesOf plp (feedAll readT2MIPacket context.t2mi (piece :: pieces)).1 =
          framesOf plp (feedRecords readT2MIPacket context.t2mi piece).1 ++
            framesOf plp (feedAll readT2MIPacket
              (feedRecords readT2MIPacket context.t2mi piece).2 pieces).1 := by
        rw [feedAll]
        exact List.filterMap_append
      rw [hframes, PLPContext.processFrames_append, ← (hfirst plp).2.1]
      exact hplps plp

/-! ### Runs of the demux -/

/-- A demux with the T2-MI data since the synchronization. -/
structure ObservedDemux where
  demux : T2MIDemux
  pieces : ℕ → List ByteBlock

/-- A packet which is given, with the data of its PID. -/
structure Delivery where
  pieces : List ByteBlock
  pkt : T2MIPacket
  tsPkt : TSPacket

def framesIn (plp : UInt8) (pieces : List ByteBlock) : List BasebandFrame :=
  framesOf plp (takeAllRecords readT2MIPacket pieces.flatten).1

/-- The packet is a user packet of the frames of its PLP. -/
def Delivery.IsAligned (delivery : Delivery) : Prop :=
  IsUserPacket (framesIn delivery.pkt.plp delivery.pieces) delivery.tsPkt

namespace ObservedDemux

def new : ObservedDemux := ⟨.new, fun _ ↦ []⟩

def losesSync (reception : PIDReception) (pkt : TSPacket) : Bool :=
  reception.isBroken pkt || PIDReception.hasBadPointer pkt

/-- The data of a PID since the synchronization was lost, after a packet. -/
def piecesAfter (observed : ObservedDemux) (pkt : TSPacket) : List ByteBlock :=
  (if losesSync (observed.demux.pids pkt.getPID) pkt then [] else observed.pieces pkt.getPID) ++
    ((observed.demux.pids pkt.getPID).accept pkt).2.toList

/-- Runs of the demux, each packet with the filter. -/
def machine : Machine ObservedDemux ((ℕ → Bool) × TSPacket) Delivery where
  step observed input :=
    if !input.1 input.2.getPID || input.2.isScrambled then some (observed, [])
    else
      let result := observed.demux.feedPacket input.1 input.2
      let pieces := observed.piecesAfter input.2
      some (⟨result.1, Function.update observed.pieces input.2.getPID pieces⟩,
        result.2.map fun call ↦ ⟨pieces, call.1, call.2⟩)

/-- The frames completed by a packet continue their buffers. -/
def FramesContinue (observed : ObservedDemux) (input : (ℕ → Bool) × TSPacket) : Prop :=
  input.1 input.2.getPID = true → input.2.isScrambled = false →
    ∀ data ∈ ((observed.demux.pids input.2.getPID).accept input.2).2, ∀ plp,
      (((observed.demux.pids input.2.getPID).accept input.2).1.context.plps plp).AllContinue
        (framesOf plp (feedRecords readT2MIPacket
          ((observed.demux.pids input.2.getPID).accept input.2).1.context.t2mi data).1)

/-- The reception is the one of the data. -/
def Received (context : T2MIPIDContext) (pieces : List ByteBlock) : Prop :=
  context = (T2MIPIDContext.new.receiveAll pieces).1 ∧
    ∀ plp, PLPContext.new.AllContinue (framesIn plp pieces)

end ObservedDemux

theorem PIDReception.accept_context (reception : PIDReception) (pkt : TSPacket) :
    (reception.accept pkt).1.context =
      if ObservedDemux.losesSync reception pkt then .new else reception.context := by
  have htrack : (reception.track pkt).context =
      if reception.isBroken pkt then .new else reception.context := by
    unfold track
    cases reception.isBroken pkt <;> rfl
  unfold accept ObservedDemux.losesSync
  dsimp only
  cases hpointer : hasBadPointer pkt with
  | true =>
    rw [if_pos rfl, Bool.or_true, if_pos rfl]
    rfl
  | false =>
    rw [if_neg Bool.false_ne_true, Bool.or_false, ← htrack]
    cases pkt.getPUSI with
    | true =>
      rw [if_pos rfl]
      cases hsync : (reception.track pkt).sync <;> rfl
    | false => rfl

theorem ObservedDemux.Received.receive {context : T2MIPIDContext} {pieces : List ByteBlock}
    (hreceived : Received context pieces) {data : ByteBlock}
    (hcontinue : ∀ plp, (context.plps plp).AllContinue
      (framesOf plp (feedRecords readT2MIPacket context.t2mi data).1)) :
    Received (context.receive data).1 (pieces ++ [data]) ∧
      ∀ call ∈ (context.receive data).2, IsUserPacket (framesIn call.1.plp (pieces ++ [data])) call.2 := by
  obtain ⟨rfl, hbefore⟩ := hreceived
  have hnone : readT2MIPacket [] = none := rfl
  obtain ⟨hbuffer, hplps⟩ := T2MIPIDContext.new.receiveAll_context pieces
  have hconcat := T2MIPIDContext.new.receiveAll_concat pieces data
  have hfed := isStream_readT2MIPacket.feedAll_eq hnone pieces
  have hnew : T2MIPIDContext.new.t2mi = [] := rfl
  rw [hnew, hfed] at hbuffer hplps
  rw [List.nil_append] at hbuffer hplps
  have hframes : ∀ plp, framesIn plp (pieces ++ [data]) = framesIn plp pieces ++
      framesOf plp (feedRecords readT2MIPacket (takeAllRecords readT2MIPacket pieces.flatten).2
        data).1 := by
    intro plp
    unfold framesIn
    rw [List.flatten_append, List.flatten_singleton, isStream_readT2MIPacket.takeAllRecords_append]
    exact List.filterMap_append
  have hall : ∀ plp, PLPContext.new.AllContinue (framesIn plp (pieces ++ [data])) := by
    intro plp
    have hmore := hcontinue plp
    rw [hplps, hbuffer] at hmore
    rw [hframes, PLPContext.allContinue_append]
    exact ⟨hbefore plp, hmore⟩
  refine ⟨⟨?_, hall⟩, ?_⟩
  · rw [hconcat]
  · intro call hcall
    apply isUserPacket_of_allContinue (hall call.1.plp)
    have hpackets := receiveAll_eq (pieces ++ [data]) call.1.plp
    have hmem : call.2 ∈ packetsOf call.1.plp (T2MIPIDContext.new.receiveAll (pieces ++ [data])).2 := by
      rw [hconcat]
      apply List.mem_map_of_mem (f := Prod.snd)
      rw [List.mem_filter]
      exact ⟨List.mem_append_right _ hcall, decide_eq_true rfl⟩
    rw [hpackets] at hmem
    exact hmem

/-- The reception is kept and the packets are aligned. -/
theorem ObservedDemux.step_of_framesContinue {observed next : ObservedDemux}
    {input : (ℕ → Bool) × TSPacket} {deliveries : List Delivery}
    (hreceived : ∀ pid, Received (observed.demux.pids pid).context (observed.pieces pid))
    (hcontinue : observed.FramesContinue input)
    (hstep : machine.step observed input = some (next, deliveries)) :
    (∀ pid, Received (next.demux.pids pid).context (next.pieces pid)) ∧
      ∀ delivery ∈ deliveries, delivery.IsAligned := by
  obtain ⟨pidFilter, pkt⟩ := input
  unfold machine at hstep
  dsimp only at hstep
  split_ifs at hstep with hskip
  · obtain ⟨rfl, rfl⟩ := Prod.mk.inj (Option.some.inj hstep)
    exact ⟨hreceived, nofun⟩
  obtain ⟨rfl, rfl⟩ := Prod.mk.inj (Option.some.inj hstep)
  rw [Bool.or_eq_true, not_or, Bool.not_eq_true', Bool.not_eq_false, Bool.not_eq_true] at hskip
  have hsame : observed.demux.feedPacket pidFilter pkt =
      (⟨Function.update observed.demux.pids pkt.getPID
        ((observed.demux.pids pkt.getPID).feed pkt).1⟩,
        ((observed.demux.pids pkt.getPID).feed pkt).2) := by
    unfold T2MIDemux.feedPacket
    rw [hskip.1, hskip.2]
    rfl
  rw [hsame]
  dsimp only
  have hframes := hcontinue hskip.1 hskip.2
  dsimp only at hframes
  have hcontext := (observed.demux.pids pkt.getPID).accept_context pkt
  have haccepted : Received ((observed.demux.pids pkt.getPID).accept pkt).1.context
      (if losesSync (observed.demux.pids pkt.getPID) pkt then []
        else observed.pieces pkt.getPID) := by
    rw [hcontext]
    cases losesSync (observed.demux.pids pkt.getPID) pkt with
    | true => exact ⟨rfl, fun _ ↦ trivial⟩
    | false => exact hreceived pkt.getPID
  have hfeed : Received ((observed.demux.pids pkt.getPID).feed pkt).1.context
      (observed.piecesAfter pkt) ∧ ∀ call ∈ ((observed.demux.pids pkt.getPID).feed pkt).2,
        IsUserPacket (framesIn call.1.plp (observed.piecesAfter pkt)) call.2 := by
    unfold PIDReception.feed piecesAfter
    dsimp only
    cases hdata : ((observed.demux.pids pkt.getPID).accept pkt).2 with
    | none =>
      rw [Option.toList_none, List.append_nil]
      exact ⟨haccepted, nofun⟩
    | some data =>
      rw [hdata] at hframes
      exact haccepted.receive (hframes data rfl)
  constructor
  · intro pid
    by_cases hpid : pid = pkt.getPID
    · rw [hpid, Function.update_self, Function.update_self]
      exact hfeed.1
    · rw [Function.update_of_ne hpid, Function.update_of_ne hpid]
      exact hreceived pid
  · intro delivery hdelivery
    obtain ⟨call, hcall, rfl⟩ := List.mem_map.mp hdelivery
    exact hfeed.2 call hcall

/-- Assumes: frames which continue the buffers of their PLPs. All packets which are given to the
handler are aligned. -/
theorem ObservedDemux.aligned_of_meets {inputs : List ((ℕ → Bool) × TSPacket)} {last : ObservedDemux}
    {deliveries : List Delivery} (hmeets : machine.Meets FramesContinue new inputs)
    (hrun : machine.run new inputs = some (last, deliveries)) :
    ∀ delivery ∈ deliveries, delivery.IsAligned := by
  have hstart : ∀ pid, Received (new.demux.pids pid).context (new.pieces pid) :=
    fun _ ↦ ⟨rfl, fun _ ↦ trivial⟩
  have hsteps : ∀ observed input next deliveries,
      (∀ pid, Received (observed.demux.pids pid).context (observed.pieces pid)) →
        observed.FramesContinue input → machine.step observed input = some (next, deliveries) →
          (∀ pid, Received (next.demux.pids pid).context (next.pieces pid)) ∧
            ∀ delivery ∈ deliveries, delivery.IsAligned :=
    fun _ _ _ _ ↦ step_of_framesContinue
  exact (machine.run_invariant_of_meets hsteps hstart hmeets hrun).2

/-! ### One frame in two packets -/

def zeroFrame (syncd : ℕ) : BasebandFrame := ⟨0, syncd, List.replicate 188 0⟩

theorem length_zeroFrame (syncd : ℕ) : (zeroFrame syncd).bytes.length = 198 := by
  have hdata : (zeroFrame syncd).data.length = 188 := List.length_replicate
  rw [BasebandFrame.length_bytes, hdata, t2BBHeaderSize]

theorem zeroFrame_fits (syncd : ℕ) : 8 * (3 + (zeroFrame syncd).bytes.length) < 0x10000 := by
  rw [length_zeroFrame]
  decide

def zeroPacket (syncd : ℕ) : T2MIPacket := basebandPacket 0 (zeroFrame_fits syncd)

theorem length_zeroPacket (syncd : ℕ) : (zeroPacket syncd).data.length = 211 := by
  show (basebandBytes 0 (zeroFrame syncd).bytes).length = 211
  rw [length_basebandBytes, length_zeroFrame, sectionCrc32Size]

def firstPacket (syncd : ℕ) : TSPacket where
  bytes := [0x47, 0x40, 0x64, 0x10, 0x00] ++ (zeroPacket syncd).data.take 183
  length_eq := by
    rw [List.length_append, List.length_take, length_zeroPacket]
    decide

/-- The second packet, with an adaptation field. -/
def secondPacket (syncd : ℕ) : TSPacket where
  bytes := [0x47, 0x00, 0x64, 0x31, 0x9B, 0x00] ++
    (List.replicate 154 0xFF ++ (zeroPacket syncd).data.drop 183)
  length_eq := by
    rw [List.length_append, List.length_append, List.length_drop, length_zeroPacket,
      List.length_replicate]
    decide

def zeroInputs (syncd : ℕ) : List ((ℕ → Bool) × TSPacket) :=
  [(fun _ ↦ true, firstPacket syncd), (fun _ ↦ true, secondPacket syncd)]

theorem accept_firstPacket (syncd : ℕ) :
    PIDReception.new.accept (firstPacket syncd) =
      (⟨0, true, .new⟩, some ((zeroPacket syncd).data.take 183)) := by
  have hflags : byteAt (firstPacket syncd).bytes 3 = 0x10 := rfl
  have hpayload : (firstPacket syncd).payload = 0x00 :: (zeroPacket syncd).data.take 183 := by
    unfold TSPacket.payload TSPacket.hasPayload TSPacket.getHeaderSize TSPacket.hasAF
    rw [hflags]
    rfl
  have hlength : (firstPacket syncd).payload.length = 184 := by
    rw [hpayload, List.length_cons, List.length_take, length_zeroPacket]
    decide
  have hbyte : (byteAt (firstPacket syncd).payload 0).toNat = 0 := by
    rw [hpayload]
    rfl
  have hpointer : PIDReception.hasBadPointer (firstPacket syncd) = false := by
    unfold PIDReception.hasBadPointer
    rw [hlength, hbyte, ite_self, decide_eq_false (show ¬184 ≤ 1 + 0 by decide), Bool.and_false]
  have hpusi : (firstPacket syncd).getPUSI = true := by
    have hbyte : byteAt (firstPacket syncd).bytes 1 = 0x40 := rfl
    unfold TSPacket.getPUSI
    rw [hbyte]
    decide
  have hcc : (firstPacket syncd).getCC = 0 := by
    unfold TSPacket.getCC
    rw [hflags]
    decide
  have htrack : PIDReception.new.track (firstPacket syncd) = .new := by
    unfold PIDReception.track
    rw [hcc]
    rfl
  unfold PIDReception.accept
  dsimp only
  rw [hpointer, if_neg Bool.false_ne_true, hpusi, if_pos rfl, htrack, hbyte, hpayload]
  rfl

theorem accept_secondPacket (syncd : ℕ) (context : T2MIPIDContext) :
    PIDReception.accept ⟨0, true, context⟩ (secondPacket syncd) =
      (⟨1, true, context⟩, some ((zeroPacket syncd).data.drop 183)) := by
  have hflags : byteAt (secondPacket syncd).bytes 3 = 0x31 := rfl
  have hpayload : (secondPacket syncd).payload = (zeroPacket syncd).data.drop 183 := by
    have hsize : byteAt (secondPacket syncd).bytes 4 = 0x9B := rfl
    have hheader : (secondPacket syncd).getHeaderSize = 160 := by
      unfold TSPacket.getHeaderSize TSPacket.hasAF
      rw [hflags, hsize]
      decide
    have hsome : (secondPacket syncd).hasPayload = true := by
      unfold TSPacket.hasPayload
      rw [hflags]
      decide
    unfold TSPacket.payload
    rw [hsome, if_pos rfl, hheader]
    show (List.replicate 154 0xFF ++ (zeroPacket syncd).data.drop 183).drop 154 = _
    exact List.drop_left' List.length_replicate
  have hpusi : (secondPacket syncd).getPUSI = false := by
    have hbyte : byteAt (secondPacket syncd).bytes 1 = 0x00 := rfl
    unfold TSPacket.getPUSI
    rw [hbyte]
    decide
  have hpointer : PIDReception.hasBadPointer (secondPacket syncd) = false := by
    unfold PIDReception.hasBadPointer
    rw [hpusi]
    rfl
  have hcc : (secondPacket syncd).getCC = 1 := by
    unfold TSPacket.getCC
    rw [hflags]
    decide
  have hcontinuous : (secondPacket syncd).getDiscontinuityIndicator = false := by
    have hbyte : byteAt (secondPacket syncd).bytes 5 = 0x00 := rfl
    unfold TSPacket.getDiscontinuityIndicator
    rw [hbyte]
    exact Bool.and_false _
  have htrack : PIDReception.track ⟨0, true, context⟩ (secondPacket syncd) = ⟨1, true, context⟩ := by
    have hnext : ((1 : UInt8) != (0 + 1) &&& 0x0F) = false := by
      decide
    unfold PIDReception.track PIDReception.isBroken
    dsimp only
    rw [hcc, hcontinuous, hnext]
    rfl
  unfold PIDReception.accept
  dsimp only
  rw [hpointer, if_neg Bool.false_ne_true, hpusi, if_neg Bool.false_ne_true, htrack, hpayload]
  rfl

theorem feedRecords_zeroPacket (syncd : ℕ) :
    feedRecords readT2MIPacket [] ((zeroPacket syncd).data.take 183) =
        ([], (zeroPacket syncd).data.take 183) ∧
      feedRecords readT2MIPacket ((zeroPacket syncd).data.take 183)
          ((zeroPacket syncd).data.drop 183) = ([(zeroPacket syncd).data], []) := by
  constructor
  · have hsize : t2miPacketSize ((zeroPacket syncd).data.take 183) = 211 := by
      rw [← length_zeroPacket syncd, (zeroPacket syncd).length_eq]
      unfold t2miPacketSize getUInt16
      rw [byteAt_take _ (by decide), byteAt_take _ (by decide)]
    have hnone : readT2MIPacket ((zeroPacket syncd).data.take 183) = none := by
      unfold readT2MIPacket
      rw [hsize, List.length_take, length_zeroPacket, if_neg (by decide)]
    unfold feedRecords
    rw [List.nil_append, isStream_readT2MIPacket.takeAllRecords_eq, hnone]
  · have hone := takeAllRecords_t2mi [zeroPacket syncd]
    rw [List.flatMap_singleton, List.map_singleton] at hone
    unfold feedRecords
    rw [List.take_append_drop, hone]

variable {syncd : ℕ}

theorem framesOf_zeroPacket (hsyncd : syncd < 0x10000) (plp : UInt8) :
    framesOf plp [(zeroPacket syncd).data] = if plp = 0 then [zeroFrame syncd] else [] := by
  have hnpd : (zeroFrame syncd).npd = 0 := rfl
  have hcarries := (carries_basebandPacket 0 hnpd hsyncd (zeroFrame_fits syncd)).2
  have hframe : (zeroPacket syncd).frame = some (zeroFrame syncd) := hcarries.frame_eq
  obtain ⟨_, _, hplp, -⟩ := hcarries
  have hown : (zeroPacket syncd).plp = 0 := hplp
  have hread : (T2MIPacket.ofBytes (zeroPacket syncd).data).bind
      (fun pkt ↦ if pkt.plp = plp then pkt.frame else none) =
        if plp = 0 then some (zeroFrame syncd) else none := by
    rw [(zeroPacket syncd).ofBytes_data, Option.bind_some, hown, hframe]
    by_cases hzero : plp = 0
    · rw [if_pos hzero.symm, if_pos hzero]
    · rw [if_neg (Ne.symm hzero), if_neg hzero]
  unfold framesOf
  by_cases hzero : plp = 0
  · rw [if_pos hzero] at hread ⊢
    rw [List.filterMap_cons_some (by exact hread)]
    rfl
  · rw [if_neg hzero] at hread ⊢
    rw [List.filterMap_cons_none (by exact hread)]
    rfl

theorem ObservedDemux.step_eq {observed : ObservedDemux} {pkt : TSPacket}
    (hclear : pkt.isScrambled = false) {reception : PIDReception} {data : ByteBlock}
    (haccept : (observed.demux.pids pkt.getPID).accept pkt = (reception, some data)) :
    machine.step observed (fun _ ↦ true, pkt) =
      some (⟨⟨Function.update observed.demux.pids pkt.getPID
          { reception with context := (reception.context.receive data).1 }⟩,
          Function.update observed.pieces pkt.getPID (observed.piecesAfter pkt)⟩,
        (reception.context.receive data).2.map fun call ↦
          ⟨observed.piecesAfter pkt, call.1, call.2⟩) := by
  unfold machine T2MIDemux.feedPacket PIDReception.feed
  dsimp only
  rw [hclear, haccept]
  rfl

def firstContext (syncd : ℕ) : T2MIPIDContext := ⟨(zeroPacket syncd).data.take 183, fun _ ↦ .new⟩

theorem receive_firstPacket (syncd : ℕ) :
    T2MIPIDContext.new.receive ((zeroPacket syncd).data.take 183) = (firstContext syncd, []) := by
  have hfeed := (feedRecords_zeroPacket syncd).1
  show ({ T2MIPIDContext.new with
    t2mi := (feedRecords readT2MIPacket [] ((zeroPacket syncd).data.take 183)).2 } :
      T2MIPIDContext).demuxAll (feedRecords readT2MIPacket [] ((zeroPacket syncd).data.take 183)).1 = _
  rw [hfeed]
  rfl

def afterFirst (syncd : ℕ) : ObservedDemux :=
  ⟨⟨Function.update ObservedDemux.new.demux.pids 0x64 ⟨0, true, firstContext syncd⟩⟩,
    Function.update ObservedDemux.new.pieces 0x64 [(zeroPacket syncd).data.take 183]⟩

theorem getPID_zeroInputs (syncd : ℕ) :
    (firstPacket syncd).getPID = 0x64 ∧ (secondPacket syncd).getPID = 0x64 := by
  have hfirst : byteAt (firstPacket syncd).bytes 1 = 0x40 ∧
      byteAt (firstPacket syncd).bytes 2 = 0x64 := ⟨rfl, rfl⟩
  have hsecond : byteAt (secondPacket syncd).bytes 1 = 0x00 ∧
      byteAt (secondPacket syncd).bytes 2 = 0x64 := ⟨rfl, rfl⟩
  unfold TSPacket.getPID getUInt16
  rw [hfirst.1, hfirst.2, hsecond.1, hsecond.2]
  decide

theorem accept_afterFirst (syncd : ℕ) :
    ((afterFirst syncd).demux.pids (secondPacket syncd).getPID).accept (secondPacket syncd) =
      (⟨1, true, firstContext syncd⟩, some ((zeroPacket syncd).data.drop 183)) := by
  have hpids : (afterFirst syncd).demux.pids 0x64 = ⟨0, true, firstContext syncd⟩ := by
    show Function.update ObservedDemux.new.demux.pids 0x64 ⟨0, true, firstContext syncd⟩ 0x64 = _
    rw [Function.update_self]
  rw [(getPID_zeroInputs syncd).2, hpids, accept_secondPacket]

theorem step_firstPacket (syncd : ℕ) :
    ObservedDemux.machine.step .new (fun _ ↦ true, firstPacket syncd) =
      some (afterFirst syncd, []) := by
  have hpid := (getPID_zeroInputs syncd).1
  have haccept := accept_firstPacket syncd
  have hflags : byteAt (firstPacket syncd).bytes 3 = 0x10 := rfl
  have hclear : (firstPacket syncd).isScrambled = false := by
    unfold TSPacket.isScrambled
    rw [hflags]
    decide
  have hpieces : ObservedDemux.new.piecesAfter (firstPacket syncd) =
      [(zeroPacket syncd).data.take 183] := by
    unfold ObservedDemux.piecesAfter
    show (if _ then [] else []) ++ (PIDReception.new.accept (firstPacket syncd)).2.toList = _
    rw [haccept, ite_self]
    rfl
  rw [ObservedDemux.step_eq hclear (show (ObservedDemux.new.demux.pids _).accept _ = _ from haccept),
    hpieces, hpid, receive_firstPacket]
  rfl

theorem step_secondPacket (syncd : ℕ) :
    ∃ last deliveries, ObservedDemux.machine.step (afterFirst syncd) (fun _ ↦ true, secondPacket syncd) =
        some (last, deliveries) ∧
      packetsOf 0 (deliveries.map fun delivery ↦ (delivery.pkt, delivery.tsPkt)) =
        packetsOf 0 (T2MIPIDContext.new.receiveAll [(zeroPacket syncd).data.take 183,
          (zeroPacket syncd).data.drop 183]).2 := by
  have hflags : byteAt (secondPacket syncd).bytes 3 = 0x31 := rfl
  have hclear : (secondPacket syncd).isScrambled = false := by
    unfold TSPacket.isScrambled
    rw [hflags]
    decide
  refine ⟨_, _, ObservedDemux.step_eq hclear (accept_afterFirst syncd), ?_⟩
  have hcalls : ∀ (pieces : List ByteBlock) (calls : List (T2MIPacket × TSPacket)),
      (calls.map fun call ↦ (⟨pieces, call.1, call.2⟩ : Delivery)).map
        (fun delivery ↦ (delivery.pkt, delivery.tsPkt)) = calls := by
    intro pieces calls
    rw [List.map_map]
    exact List.map_id calls
  have hall : (T2MIPIDContext.new.receiveAll [(zeroPacket syncd).data.take 183,
      (zeroPacket syncd).data.drop 183]).2 =
        ((firstContext syncd).receive ((zeroPacket syncd).data.drop 183)).2 := by
    rw [T2MIPIDContext.receiveAll, receive_firstPacket]
    generalize (zeroPacket syncd).data.drop 183 = data
    show [] ++ (((firstContext syncd).receive data).2 ++ []) = _
    rw [List.append_nil, List.nil_append]
  rw [hcalls, hall]

theorem run_zeroInputs (hsyncd : syncd < 0x10000) :
    ∃ last deliveries, ObservedDemux.machine.run .new (zeroInputs syncd) = some (last, deliveries) ∧
      packetsOf 0 (deliveries.map fun delivery ↦ (delivery.pkt, delivery.tsPkt)) =
        (takeAllRecords readTSPacket (received true [] [zeroFrame syncd])).1 := by
  obtain ⟨last, deliveries, hstep, hpackets⟩ := step_secondPacket syncd
  refine ⟨last, deliveries, ?_, ?_⟩
  · rw [zeroInputs, Machine.run_cons_eq_some]
    refine ⟨afterFirst syncd, [], deliveries, step_firstPacket syncd, ?_, rfl⟩
    rw [Machine.run_cons_eq_some]
    exact ⟨last, deliveries, [], hstep, rfl, (List.append_nil _).symm⟩
  · have hone := takeAllRecords_t2mi [zeroPacket syncd]
    rw [List.flatMap_singleton, List.map_singleton] at hone
    rw [hpackets, receiveAll_eq, List.flatten_cons, List.flatten_singleton, List.take_append_drop, hone]
    dsimp only
    rw [framesOf_zeroPacket hsyncd, if_pos rfl]

theorem meets_zeroInputs (hsyncd : syncd < 0x10000)
    (hcontinues : PLPContext.new.Continues (zeroFrame syncd)) :
    ObservedDemux.machine.Meets ObservedDemux.FramesContinue .new (zeroInputs syncd) := by
  obtain ⟨last, deliveries, hstep, -⟩ := step_secondPacket syncd
  apply ObservedDemux.machine.meets_cons_of_step (step_firstPacket syncd)
  · intro _ _ data hdata plp
    have haccept : (ObservedDemux.new.demux.pids (firstPacket syncd).getPID).accept
        (firstPacket syncd) = _ := accept_firstPacket syncd
    rw [haccept] at hdata ⊢
    obtain rfl := Option.some.inj hdata
    show PLPContext.new.AllContinue (framesOf plp (feedRecords readT2MIPacket []
      ((zeroPacket syncd).data.take 183)).1)
    rw [(feedRecords_zeroPacket syncd).1]
    trivial
  refine ObservedDemux.machine.meets_cons_of_step hstep ?_ (show ObservedDemux.machine.Meets _ last [] from trivial)
  intro _ _ data hdata plp
  rw [accept_afterFirst] at hdata ⊢
  obtain rfl := Option.some.inj hdata
  show PLPContext.new.AllContinue (framesOf plp (feedRecords readT2MIPacket
    ((zeroPacket syncd).data.take 183) ((zeroPacket syncd).data.drop 183)).1)
  rw [(feedRecords_zeroPacket syncd).2, framesOf_zeroPacket hsyncd]
  by_cases hzero : plp = 0
  · rw [if_pos hzero]
    exact ⟨hcontinues, trivial⟩
  · rw [if_neg hzero]
    trivial

/-- A packet is announced at the start of the frame: it is aligned. -/
theorem zeroInputs_aligned :
    ∃ last deliveries, ObservedDemux.machine.run .new (zeroInputs 0) = some (last, deliveries) ∧
      ∀ delivery ∈ deliveries, delivery.IsAligned := by
  have hcontinues : PLPContext.new.Continues (zeroFrame 0) := by
    have hdata : (zeroFrame 0).data.length = 188 := List.length_replicate
    have hsyncd : (zeroFrame 0).syncd = 0 := rfl
    unfold PLPContext.Continues
    rw [hdata, hsyncd]
    decide
  obtain ⟨last, deliveries, hrun, -⟩ := run_zeroInputs (show 0 < 0x10000 by decide)
  exact ⟨last, deliveries, hrun,
    ObservedDemux.aligned_of_meets (meets_zeroInputs (by decide) hcontinues) hrun⟩

/-- No packet is announced: one without synchronization byte is given. -/
theorem zeroInputs_unaligned :
    ∃ last deliveries, ObservedDemux.machine.run .new (zeroInputs 0xFFFF) = some (last, deliveries) ∧
      ∃ delivery ∈ deliveries, byteAt delivery.tsPkt.bytes 0 ≠ syncByte := by
  obtain ⟨last, deliveries, hrun, hpackets⟩ := run_zeroInputs (show 0xFFFF < 0x10000 by decide)
  obtain ⟨pkt, hpkt⟩ : ∃ pkt : TSPacket, pkt.bytes = List.replicate 188 0 :=
    ⟨⟨_, List.length_replicate⟩, rfl⟩
  have hreceived : received true [] [zeroFrame 0xFFFF] = [pkt].flatMap (·.bytes) ++ [] := by
    rw [List.flatMap_singleton, List.append_nil, hpkt]
    rfl
  rw [hreceived, takeAllRecords_packets [pkt] (by decide)] at hpackets
  have hmem : pkt ∈ packetsOf 0 (deliveries.map fun delivery ↦ (delivery.pkt, delivery.tsPkt)) := by
    rw [hpackets]
    exact List.mem_singleton_self pkt
  obtain ⟨call, hcall, rfl⟩ := List.mem_map.mp hmem
  obtain ⟨delivery, hdelivery, rfl⟩ := List.mem_map.mp (List.mem_filter.mp hcall).1
  refine ⟨last, deliveries, hrun, delivery, hdelivery, ?_⟩
  rw [show delivery.tsPkt.bytes = _ from hpkt]
  decide

end TSDuck
