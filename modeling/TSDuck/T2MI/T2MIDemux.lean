import TSDuck.Library.RecordStream
import TSDuck.Mpeg.TransportPacket
import TSDuck.T2MI.T2MIPacket

/-!
# The T2-MI demux

The demux accumulates the payload of the transport packets of a T2-MI stream and takes the complete
T2-MI packets (`processT2MI`).

`receiveAll_eq`: the packets which the handler gets from a PLP are those of one stream of bytes, all
that the frames of the PLP have added to its buffer (`received`), however the T2-MI stream is cut
into pieces and whatever the frames of the other PLPs are.

Scope. The handler does not reset the demux. The buffer of a PLP that has not been seen is the one
of a new context.
-/

namespace TSDuck

def t2BBHeaderSize : ℕ := 10

/-- What is known of a PLP. -/
structure PLPContext where
  firstPacket : Bool
  ts : ByteBlock
  tsNext : ℕ

def PLPContext.new : PLPContext where
  firstPacket := true
  ts := []
  tsNext := 0

/-- Puts a synchronization byte in front of each user packet. -/
def putUserPackets : ℕ → ByteBlock → ByteBlock
  | 0, _ => []
  | turns + 1, data =>
    if data = [] then []
    else syncByte :: data.take (pktSize - 1) ++ putUserPackets turns (data.drop (pktSize - 1))

def addedBytes (firstPacket : Bool) (bufferSize npd syncd : ℕ) (data : ByteBlock) : ByteBlock :=
  -- no user packet starts in the data field
  if syncd = 0xFFFF then data
  else
    let syncd := min (syncd / 8) data.length
    let previous :=
      if firstPacket = false ∧ 0 < syncd then
        (if bufferSize % pktSize = 0 then [syncByte] else []) ++ data.take (syncd - npd)
      else []
    previous ++ putUserPackets (data.drop syncd).length (data.drop syncd)

structure BasebandFrame where
  npd : ℕ
  syncd : ℕ
  data : ByteBlock

def BasebandFrame.read (frame : ByteBlock) : Option BasebandFrame :=
  if frame.length < t2BBHeaderSize then none
  else if (byteAt frame 0 >>> 6) &&& 0x03 ≠ 3 then none
  else
    let data := frame.drop t2BBHeaderSize
    some
      { npd := if byteAt frame 0 &&& 0x04 ≠ 0 then 1 else 0
        syncd := getUInt16 frame 7
        data := data.take (min ((getUInt16 frame 4 + 7) / 8) data.length) }

def readTSPacket (data : ByteBlock) : Option (TSPacket × ByteBlock) :=
  if hsize : pktSize ≤ data.length then
    some (⟨data.take pktSize, List.length_take_of_le hsize⟩, data.drop pktSize)
  else none

namespace PLPContext

def addFrame (context : PLPContext) (frame : BasebandFrame) : PLPContext :=
  { context with
    firstPacket := if frame.syncd = 0xFFFF then context.firstPacket else false
    ts := context.ts ++
      addedBytes context.firstPacket context.ts.length frame.npd frame.syncd frame.data }

/-- Removes complete packets from an empty or long buffer. -/
def output (context : PLPContext) : PLPContext × List TSPacket :=
  let packets := (takeAllRecords readTSPacket (context.ts.drop context.tsNext)).1
  let tsNext := context.tsNext + pktSize * packets.length
  let context :=
    if context.ts.length ≤ tsNext then { context with ts := [], tsNext := 0 }
    else if 100 * pktSize ≤ tsNext then
      { context with ts := context.ts.drop tsNext, tsNext := 0 }
    else { context with tsNext := tsNext }
  (context, packets)

def processFrame (context : PLPContext) (frame : BasebandFrame) : PLPContext × List TSPacket :=
  (context.addFrame frame).output

def processFrames : PLPContext → List BasebandFrame → PLPContext × List TSPacket
  | context, [] => (context, [])
  | context, frame :: frames =>
    let first := context.processFrame frame
    let others := processFrames first.1 frames
    (others.1, first.2 ++ others.2)

end PLPContext

/-- The data still to process, and the context of each PLP. -/
structure T2MIPIDContext where
  t2mi : ByteBlock
  plps : UInt8 → PLPContext

def T2MIPIDContext.new : T2MIPIDContext where
  t2mi := []
  plps := fun _ ↦ .new

def T2MIPacket.frame (pkt : T2MIPacket) : Option BasebandFrame :=
  pkt.basebandFrame.bind BasebandFrame.read

def readT2MIPacket (data : ByteBlock) : Option (ByteBlock × ByteBlock) :=
  if t2miHeaderSize < data.length ∧ t2miPacketSize data ≤ data.length then
    some (data.take (t2miPacketSize data), data.drop (t2miPacketSize data))
  else none

namespace T2MIPIDContext

/-- Gives the transport packets to the handler. -/
def demuxTS (context : T2MIPIDContext) (pkt : T2MIPacket) :
    T2MIPIDContext × List (T2MIPacket × TSPacket) :=
  match pkt.frame with
  | none => (context, [])
  | some frame =>
    let result := (context.plps pkt.plp).processFrame frame
    ({ context with plps := Function.update context.plps pkt.plp result.1 },
      result.2.map fun tsPkt ↦ (pkt, tsPkt))

def demuxAll : T2MIPIDContext → List ByteBlock → T2MIPIDContext × List (T2MIPacket × TSPacket)
  | context, [] => (context, [])
  | context, bytes :: rest =>
    match T2MIPacket.ofBytes bytes with
    | none => context.demuxAll rest
    | some pkt =>
      let first := context.demuxTS pkt
      let others := first.1.demuxAll rest
      (others.1, first.2 ++ others.2)

def processT2MI (context : T2MIPIDContext) : T2MIPIDContext × List (T2MIPacket × TSPacket) :=
  let packets := takeAllRecords readT2MIPacket context.t2mi
  { context with t2mi := packets.2 }.demuxAll packets.1

def receive (context : T2MIPIDContext) (data : ByteBlock) :
    T2MIPIDContext × List (T2MIPacket × TSPacket) :=
  { context with t2mi := context.t2mi ++ data }.processT2MI

def receiveAll : T2MIPIDContext → List ByteBlock → T2MIPIDContext × List (T2MIPacket × TSPacket)
  | context, [] => (context, [])
  | context, data :: rest =>
    let first := context.receive data
    let others := first.1.receiveAll rest
    (others.1, first.2 ++ others.2)

end T2MIPIDContext

def packetsOf (plp : UInt8) (calls : List (T2MIPacket × TSPacket)) : List TSPacket :=
  (calls.filter (·.1.plp = plp)).map Prod.snd

def framesOf (plp : UInt8) (packets : List ByteBlock) : List BasebandFrame :=
  packets.filterMap fun bytes ↦
    (T2MIPacket.ofBytes bytes).bind fun pkt ↦ if pkt.plp = plp then pkt.frame else none

/-! ### The packets of a stream -/

theorem isStream_readTSPacket : IsStream readTSPacket where
  shorter := by
    intro data record rest hread
    unfold readTSPacket at hread
    split_ifs at hread with hsize
    obtain ⟨-, rfl⟩ := Prod.mk.inj (Option.some.inj hread)
    rw [List.length_drop]
    unfold pktSize at hsize ⊢
    omega
  append := by
    intro data record rest hread more
    unfold readTSPacket at hread ⊢
    split_ifs at hread with hsize
    obtain ⟨rfl, rfl⟩ := Prod.mk.inj (Option.some.inj hread)
    have hlong : pktSize ≤ (data ++ more).length := by
      rw [List.length_append]
      omega
    rw [dif_pos hlong]
    simp only [List.take_append_of_le_length hsize, List.drop_append_of_le_length hsize]

theorem isStream_readT2MIPacket : IsStream readT2MIPacket where
  shorter := by
    intro data record rest hread
    unfold readT2MIPacket at hread
    split_ifs at hread with hsize
    obtain ⟨-, rfl⟩ := Prod.mk.inj (Option.some.inj hread)
    rw [List.length_drop]
    have hpositive : 0 < t2miPacketSize data := by
      unfold t2miPacketSize t2miHeaderSize
      omega
    omega
  append := by
    intro data record rest hread more
    unfold readT2MIPacket at hread ⊢
    split_ifs at hread with hsize
    obtain ⟨rfl, rfl⟩ := Prod.mk.inj (Option.some.inj hread)
    have hsame : t2miPacketSize (data ++ more) = t2miPacketSize data := by
      obtain ⟨hheader, -⟩ := hsize
      unfold t2miHeaderSize at hheader
      unfold t2miPacketSize
      rw [getUInt16, getUInt16, byteAt_append_left _ (by omega), byteAt_append_left _ (by omega)]
    rw [hsame, if_pos ⟨by rw [List.length_append]; omega, by rw [List.length_append]; omega⟩,
      List.take_append_of_le_length hsize.2, List.drop_append_of_le_length hsize.2]

theorem takeAllRecords_readTSPacket (data : ByteBlock) :
    pktSize * (takeAllRecords readTSPacket data).1.length ≤ data.length ∧
      (takeAllRecords readTSPacket data).2 =
        data.drop (pktSize * (takeAllRecords readTSPacket data).1.length) := by
  induction hlength : data.length using Nat.strong_induction_on generalizing data with
  | _ length ih =>
    rw [isStream_readTSPacket.takeAllRecords_eq data]
    cases hread : readTSPacket data with
    | none => exact ⟨Nat.zero_le _, rfl⟩
    | some result =>
      obtain ⟨pkt, rest⟩ := result
      have hshorter := isStream_readTSPacket.shorter hread
      unfold readTSPacket at hread
      split_ifs at hread with hsize
      obtain ⟨-, rfl⟩ := Prod.mk.inj (Option.some.inj hread)
      obtain ⟨hle, hrest⟩ := ih _ (by omega) (data.drop pktSize) rfl
      dsimp only
      rw [List.length_cons, Nat.mul_succ]
      rw [List.length_drop] at hle
      constructor
      · omega
      · rw [hrest, List.drop_drop, Nat.add_comm]

/-! ### The buffer of a PLP -/

def received : Bool → ByteBlock → List BasebandFrame → ByteBlock
  | _, history, [] => history
  | firstPacket, history, frame :: frames =>
    received (if frame.syncd = 0xFFFF then firstPacket else false)
      (history ++ addedBytes firstPacket history.length frame.npd frame.syncd frame.data) frames

/-- What remains after the complete packets. -/
structure PLPContext.Holds (context : PLPContext) (firstPacket : Bool) (history : ByteBlock) :
    Prop where
  firstPacket_eq : context.firstPacket = firstPacket
  aligned : context.ts.length % pktSize = history.length % pktSize
  tsNext_le : context.tsNext ≤ context.ts.length
  whole : pktSize ∣ context.tsNext
  remaining : context.ts.drop context.tsNext = (takeAllRecords readTSPacket history).2

theorem PLPContext.holds_new : PLPContext.new.Holds true [] where
  firstPacket_eq := rfl
  aligned := rfl
  tsNext_le := le_rfl
  whole := Nat.dvd_zero pktSize
  remaining := rfl

theorem addedBytes_congr {first second : ℕ} (hsize : first % pktSize = second % pktSize)
    (firstPacket : Bool) (npd syncd : ℕ) (data : ByteBlock) :
    addedBytes firstPacket first npd syncd data = addedBytes firstPacket second npd syncd data := by
  unfold addedBytes
  rw [hsize]

theorem PLPContext.Holds.processFrame {context : PLPContext} {firstPacket : Bool}
    {history : ByteBlock} (hcontext : context.Holds firstPacket history) (frame : BasebandFrame) :
    (context.processFrame frame).1.Holds (if frame.syncd = 0xFFFF then firstPacket else false)
        (history ++ addedBytes firstPacket history.length frame.npd frame.syncd frame.data) ∧
      (takeAllRecords readTSPacket (history ++
          addedBytes firstPacket history.length frame.npd frame.syncd frame.data)).1 =
        (takeAllRecords readTSPacket history).1 ++ (context.processFrame frame).2 := by
  obtain ⟨hfirst, haligned, hnext, hwhole, hremaining⟩ := hcontext
  have hadded : (context.addFrame frame).ts = context.ts ++
      addedBytes firstPacket history.length frame.npd frame.syncd frame.data := by
    rw [← addedBytes_congr haligned, ← hfirst]
    rfl
  generalize addedBytes firstPacket history.length frame.npd frame.syncd frame.data = added at hadded
  have hdropped : (context.addFrame frame).ts.drop (context.addFrame frame).tsNext =
      (takeAllRecords readTSPacket history).2 ++ added := by
    rw [hadded, ← hremaining]
    exact List.drop_append_of_le_length hnext
  have hfirst' : (context.addFrame frame).firstPacket =
      if frame.syncd = 0xFFFF then firstPacket else false := by
    rw [← hfirst]
    rfl
  have hnext' : (context.addFrame frame).tsNext ≤ (context.addFrame frame).ts.length := by
    rw [hadded, List.length_append]
    exact hnext.trans (Nat.le_add_right _ _)
  have haligned' : (context.addFrame frame).ts.length % pktSize =
      (history ++ added).length % pktSize := by
    rw [hadded, List.length_append, List.length_append, Nat.add_mod, haligned, ← Nat.add_mod]
  have hwhole' : pktSize ∣ (context.addFrame frame).tsNext := hwhole
  unfold PLPContext.processFrame
  generalize context.addFrame frame = buffered at hdropped hfirst' hnext' haligned' hwhole'
  obtain ⟨hcount, hrest⟩ := takeAllRecords_readTSPacket (buffered.ts.drop buffered.tsNext)
  rw [isStream_readTSPacket.takeAllRecords_append]
  unfold feedRecords
  rw [← hdropped]
  unfold PLPContext.output
  generalize htaken : takeAllRecords readTSPacket (buffered.ts.drop buffered.tsNext) = taken
    at hcount hrest
  obtain ⟨packets, rest⟩ := taken
  dsimp only at hcount hrest ⊢
  have htotal : buffered.tsNext + pktSize * packets.length ≤ buffered.ts.length := by
    rw [List.length_drop] at hcount
    omega
  rw [List.drop_drop] at hrest
  have hafter : (takeAllRecords readTSPacket (history ++ added)).2 = rest := by
    rw [isStream_readTSPacket.takeAllRecords_append]
    unfold feedRecords
    rw [← hdropped, htaken]
  refine ⟨?_, rfl⟩
  have htaken : pktSize ∣ buffered.tsNext + pktSize * packets.length :=
    Nat.dvd_add hwhole' (Nat.dvd_mul_right _ _)
  generalize buffered.tsNext + pktSize * packets.length = tsNext at htotal hrest htaken
  by_cases hempty : buffered.ts.length ≤ tsNext
  · rw [if_pos hempty]
    refine ⟨hfirst', ?_, le_rfl, Nat.dvd_zero _, ?_⟩
    · have hlength : buffered.ts.length = tsNext := by omega
      rw [← haligned', hlength, Nat.mod_eq_zero_of_dvd htaken]
      rfl
    · rw [hafter, hrest]
      exact (List.drop_eq_nil_of_le hempty).symm
  rw [if_neg hempty]
  by_cases hmany : 100 * pktSize ≤ tsNext
  · rw [if_pos hmany]
    refine ⟨hfirst', ?_, Nat.zero_le _, Nat.dvd_zero _, ?_⟩
    · obtain ⟨count, rfl⟩ := htaken
      rw [← haligned']
      show (buffered.ts.drop (pktSize * count)).length % pktSize = _
      rw [List.length_drop]
      exact Nat.sub_mul_mod (by omega)
    · rw [hafter, hrest]
      rfl
  · rw [if_neg hmany]
    exact ⟨hfirst', haligned', by show tsNext ≤ buffered.ts.length; omega, htaken,
      by rw [hafter, hrest]⟩

theorem PLPContext.Holds.processFrames {context : PLPContext} {firstPacket : Bool}
    {history : ByteBlock} (hcontext : context.Holds firstPacket history)
    (frames : List BasebandFrame) :
    (takeAllRecords readTSPacket (received firstPacket history frames)).1 =
      (takeAllRecords readTSPacket history).1 ++ (context.processFrames frames).2 := by
  induction frames generalizing context firstPacket history with
  | nil => exact (List.append_nil _).symm
  | cons frame frames ih =>
    obtain ⟨hafter, htaken⟩ := hcontext.processFrame frame
    rw [received, ih hafter, htaken, List.append_assoc]
    rfl

/-! ### The T2-MI packets of a stream -/

theorem PLPContext.processFrames_append (context : PLPContext) (first second : List BasebandFrame) :
    context.processFrames (first ++ second) =
      (((context.processFrames first).1.processFrames second).1, (context.processFrames first).2 ++
          ((context.processFrames first).1.processFrames second).2) := by
  induction first generalizing context with
  | nil => rfl
  | cons frame first ih =>
    rw [List.cons_append, PLPContext.processFrames, ih]
    simp only [PLPContext.processFrames, List.append_assoc]

theorem packetsOf_map (plp : UInt8) (pkt : T2MIPacket) (packets : List TSPacket) :
    packetsOf plp (packets.map fun tsPkt ↦ (pkt, tsPkt)) =
      if pkt.plp = plp then packets else [] := by
  unfold packetsOf
  by_cases hown : pkt.plp = plp
  · rw [if_pos hown, List.filter_eq_self.mpr, List.map_map]
    · exact List.map_id packets
    · intro call hcall
      obtain ⟨tsPkt, -, rfl⟩ := List.mem_map.mp hcall
      exact decide_eq_true hown
  · rw [if_neg hown, List.filter_eq_nil_iff.mpr]
    · rfl
    · intro call hcall
      obtain ⟨tsPkt, -, rfl⟩ := List.mem_map.mp hcall
      exact fun htrue ↦ hown (of_decide_eq_true htrue)

theorem T2MIPIDContext.demuxAll_plp (context : T2MIPIDContext) (packets : List ByteBlock) (plp : UInt8) :
    (context.demuxAll packets).1.t2mi = context.t2mi ∧ (context.demuxAll packets).1.plps plp =
        ((context.plps plp).processFrames (framesOf plp packets)).1 ∧
      packetsOf plp (context.demuxAll packets).2 =
        ((context.plps plp).processFrames (framesOf plp packets)).2 := by
  induction packets generalizing context with
  | nil => exact ⟨rfl, rfl, rfl⟩
  | cons bytes packets ih =>
    cases hpkt : T2MIPacket.ofBytes bytes with
    | none =>
      have hframes : framesOf plp (bytes :: packets) = framesOf plp packets := by
        unfold framesOf
        rw [List.filterMap_cons_none (by rw [hpkt]; rfl)]
      rw [hframes, T2MIPIDContext.demuxAll, hpkt]
      exact ih context
    | some pkt =>
      rw [T2MIPIDContext.demuxAll, hpkt]
      dsimp only
      obtain ⟨hbuffer, hplp, hcalls⟩ := ih (context.demuxTS pkt).1
      have hsplit : packetsOf plp ((context.demuxTS pkt).2 ++
          ((context.demuxTS pkt).1.demuxAll packets).2) = packetsOf plp (context.demuxTS pkt).2 ++
              packetsOf plp ((context.demuxTS pkt).1.demuxAll packets).2 := by
        unfold packetsOf
        rw [List.filter_append, List.map_append]
      rw [hsplit, hbuffer, hplp, hcalls]
      cases hframe : pkt.frame with
      | none =>
        have hsame : context.demuxTS pkt = (context, []) := by
          unfold T2MIPIDContext.demuxTS
          rw [hframe]
        have hframes : framesOf plp (bytes :: packets) = framesOf plp packets := by
          unfold framesOf
          rw [List.filterMap_cons_none (by rw [hpkt, Option.bind_some, hframe, ite_self])]
        rw [hsame, hframes]
        exact ⟨rfl, rfl, List.nil_append _⟩
      | some frame =>
        have hstep : context.demuxTS pkt = ({ context with
                plps := Function.update context.plps pkt.plp
                  ((context.plps pkt.plp).processFrame frame).1 },
              ((context.plps pkt.plp).processFrame frame).2.map fun tsPkt ↦ (pkt, tsPkt)) := by
          unfold T2MIPIDContext.demuxTS
          rw [hframe]
        rw [hstep]
        dsimp only
        by_cases hown : pkt.plp = plp
        · have hframes : framesOf plp (bytes :: packets) = frame :: framesOf plp packets := by
            unfold framesOf
            rw [List.filterMap_cons_some (by rw [hpkt, Option.bind_some, if_pos hown, hframe])]
          rw [packetsOf_map, if_pos hown, hown, Function.update_self, hframes]
          exact ⟨rfl, rfl, rfl⟩
        · have hframes : framesOf plp (bytes :: packets) = framesOf plp packets := by
            unfold framesOf
            rw [List.filterMap_cons_none (by rw [hpkt, Option.bind_some, if_neg hown])]
          rw [packetsOf_map, if_neg hown, Function.update_of_ne (Ne.symm hown), hframes]
          exact ⟨rfl, rfl, List.nil_append _⟩

theorem T2MIPIDContext.receiveAll_plp (context : T2MIPIDContext) (pieces : List ByteBlock) (plp : UInt8) :
    packetsOf plp (context.receiveAll pieces).2 = ((context.plps plp).processFrames
        (framesOf plp (feedAll readT2MIPacket context.t2mi pieces).1)).2 := by
  induction pieces generalizing context with
  | nil => rfl
  | cons piece pieces ih =>
    have hstep : context.receive piece =
        ({ context with t2mi := (feedRecords readT2MIPacket context.t2mi piece).2 } :
          T2MIPIDContext).demuxAll (feedRecords readT2MIPacket context.t2mi piece).1 :=
      rfl
    obtain ⟨hbuffer, hplp, hcalls⟩ :=
      ({ context with t2mi := (feedRecords readT2MIPacket context.t2mi piece).2 } :
        T2MIPIDContext).demuxAll_plp (feedRecords readT2MIPacket context.t2mi piece).1 plp
    rw [← hstep] at hbuffer hplp hcalls
    have hsplit : packetsOf plp (context.receiveAll (piece :: pieces)).2 =
        packetsOf plp (context.receive piece).2 ++
          packetsOf plp ((context.receive piece).1.receiveAll pieces).2 := by
      rw [T2MIPIDContext.receiveAll]
      unfold packetsOf
      rw [List.filter_append, List.map_append]
    have hframes : framesOf plp (feedAll readT2MIPacket context.t2mi (piece :: pieces)).1 =
        framesOf plp (feedRecords readT2MIPacket context.t2mi piece).1 ++
          framesOf plp (feedAll readT2MIPacket
            (feedRecords readT2MIPacket context.t2mi piece).2 pieces).1 := by
      rw [feedAll]
      exact List.filterMap_append
    rw [hsplit, ih, hbuffer, hplp, hcalls, hframes, PLPContext.processFrames_append]

theorem receiveAll_eq (pieces : List ByteBlock) (plp : UInt8) :
    packetsOf plp (T2MIPIDContext.new.receiveAll pieces).2 =
      (takeAllRecords readTSPacket (received true []
        (framesOf plp (takeAllRecords readT2MIPacket pieces.flatten).1))).1 := by
  have hnone : readT2MIPacket [] = none := rfl
  rw [T2MIPIDContext.receiveAll_plp, PLPContext.holds_new.processFrames]
  show (PLPContext.new.processFrames
    (framesOf plp (feedAll readT2MIPacket [] pieces).1)).2 = _
  rw [isStream_readT2MIPacket.feedAll_eq hnone, List.nil_append]
  rfl

end TSDuck
