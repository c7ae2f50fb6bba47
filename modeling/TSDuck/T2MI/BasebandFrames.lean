import TSDuck.T2MI.T2MIDemux
import Mathlib.Data.List.Forall2

/-!
# Transport packets in baseband frames

A transport stream is a sequence of user packets, which are the transport packets without their
synchronization byte (high efficiency mode) or with a CRC-8 in its place (normal mode).

`reassembled_iff` states for which slicings the demux gives exactly the transport packets which are
complete in the frames, for every content of these packets. The mode is never looked at: the user
packets are taken as those of the high efficiency mode.

Scope. The CRC-8 of user packets is a parameter, since the demux never uses it.
-/

namespace TSDuck

/-- The mode of the baseband frames. -/
inductive T2Mode
  | normal
  | highEfficiency
deriving DecidableEq

def T2Mode.userPacketSize : T2Mode → ℕ
  | .normal => pktSize
  | .highEfficiency => pktSize - 1

def T2Mode.userPacket (mode : T2Mode) (crc : UInt8) (pkt : TSPacket) : ByteBlock :=
  match mode with
  | .normal => crc :: pkt.bytes.tail
  | .highEfficiency => pkt.bytes.tail

/-- The user packets, each with the CRC-8 of the one before. -/
def T2Mode.userStream (mode : T2Mode) (crc8 : ByteBlock → UInt8) : UInt8 → List TSPacket → ByteBlock
  | _, [] => []
  | crc, pkt :: rest =>
    mode.userPacket crc pkt ++ mode.userStream crc8 (crc8 pkt.bytes.tail) rest

def T2Mode.distance (mode : T2Mode) (position : ℕ) : ℕ :=
  (mode.userPacketSize - position % mode.userPacketSize) % mode.userPacketSize

def slice (stream : ByteBlock) (position size : ℕ) : ByteBlock :=
  (stream.drop position).take size

/-- The frames of successive parts of a stream. -/
def T2Mode.frames (mode : T2Mode) (stream : ByteBlock) : ℕ → List ℕ → List BasebandFrame
  | _, [] => []
  | position, size :: sizes =>
    { npd := 0
      syncd := if mode.distance position < size then 8 * mode.distance position else 0xFFFF
      data := slice stream position size } ::
        mode.frames stream (position + size) sizes

/-- The position of the first frame and the sizes of the data. -/
structure Slicing where
  mode : T2Mode
  position : ℕ
  sizes : List ℕ
  fits : ∀ size ∈ sizes, 8 * (3 + (t2BBHeaderSize + size)) < 0x10000

/-- A T2-MI packet carries a baseband frame of a PLP, which may be padded. -/
def T2MIPacket.Carries (plp : UInt8) (pkt : T2MIPacket) (frame : BasebandFrame) : Prop :=
  ∃ header padding, pkt.plp = plp ∧ pkt.basebandFrame = some (header ++ frame.data ++ padding) ∧
    header.length = t2BBHeaderSize ∧ (byteAt header 0 >>> 6) &&& 0x03 = 3 ∧
    (if byteAt header 0 &&& 0x04 ≠ 0 then 1 else 0) = frame.npd ∧
    getUInt16 header 4 = 8 * frame.data.length ∧ getUInt16 header 7 = frame.syncd

/-- The T2-MI packets carry the frames of a PLP, among other packets. -/
def CarryFrames (plp : UInt8) (packets : List T2MIPacket) (frames : List BasebandFrame) : Prop :=
  List.Forall₂ (T2MIPacket.Carries plp)
    (packets.filter fun pkt ↦ pkt.plp = plp ∧ pkt.basebandFrame ≠ none) frames

namespace Slicing

variable (slicing : Slicing)

def stop : ℕ := slicing.position + slicing.sizes.sum

def firstIndex : ℕ :=
  (slicing.position + slicing.mode.userPacketSize - 1) / slicing.mode.userPacketSize

def expected (packets : List TSPacket) : List TSPacket :=
  (packets.drop slicing.firstIndex).take
    (slicing.stop / slicing.mode.userPacketSize - slicing.firstIndex)

end Slicing

/-- The bytes before the first frame with a start. -/
def T2Mode.lead (mode : T2Mode) : ℕ → List ℕ → ℕ
  | _, [] => 0
  | position, size :: sizes =>
    if mode.distance position < size then 0 else size + mode.lead (position + size) sizes

/-- The bytes kept of the frames. -/
def T2Mode.kept (mode : T2Mode) (position : ℕ) (sizes : List ℕ) : ℕ :=
  mode.lead position sizes +
    if mode.distance position < sizes.sum then 1 + (sizes.sum - mode.distance position) else 0

/-- No data before the first start, or too few data. -/
def Slicing.IsReassembled (slicing : Slicing) : Prop :=
  (slicing.mode = .highEfficiency ∧ slicing.mode.lead slicing.position slicing.sizes = 0) ∨
    slicing.mode.kept slicing.position slicing.sizes < pktSize

theorem T2Mode.distance_lt (mode : T2Mode) (position : ℕ) :
    mode.distance position < mode.userPacketSize := by
  apply Nat.mod_lt
  cases mode <;> decide

variable {size : ℕ} {data : ByteBlock}

theorem T2Mode.distance_add (mode : T2Mode) {position : ℕ} (hsize : size ≤ mode.distance position) :
    mode.distance (position + size) = mode.distance position - size := by
  unfold T2Mode.distance at hsize ⊢
  cases mode <;> simp only [T2Mode.userPacketSize, pktSize] at hsize ⊢ <;> omega

theorem T2Mode.distance_start (mode : T2Mode) {start : ℕ} (hstart : mode.distance start = 0)
    (count : ℕ) :
    mode.distance (start + count) = mode.distance count := by
  unfold T2Mode.distance at hstart ⊢
  cases mode <;> simp only [T2Mode.userPacketSize, pktSize] at hstart ⊢ <;> omega

/-! ### The synchronization bytes -/

def putAllUserPackets (data : ByteBlock) : ByteBlock :=
  putUserPackets data.length data

theorem putUserPackets_eq {turns : ℕ} (hturns : data.length ≤ turns) :
    putUserPackets turns data = putAllUserPackets data := by
  have hsame : ∀ (first second : ℕ) (data : ByteBlock), data.length ≤ first →
      data.length ≤ second → putUserPackets first data = putUserPackets second data := by
    intro first
    induction first with
    | zero =>
      intro second data hfirst hsecond
      obtain rfl := List.eq_nil_of_length_eq_zero (Nat.le_zero.mp hfirst)
      cases second with
      | zero => rfl
      | succ second => rfl
    | succ first ih =>
      intro second data hfirst hsecond
      cases second with
      | zero =>
        obtain rfl := List.eq_nil_of_length_eq_zero (Nat.le_zero.mp hsecond)
        rfl
      | succ second =>
        rw [putUserPackets, putUserPackets]
        by_cases hnil : data = []
        · rw [if_pos hnil, if_pos hnil]
        · have hpositive := List.length_pos_of_ne_nil hnil
          rw [if_neg hnil, if_neg hnil, ih second]
          · rw [List.length_drop, pktSize]
            omega
          · rw [List.length_drop, pktSize]
            omega
  exact hsame turns data.length data hturns le_rfl

theorem putAllUserPackets_cons (hdata : data ≠ []) :
    putAllUserPackets data =
      syncByte :: data.take (pktSize - 1) ++ putAllUserPackets (data.drop (pktSize - 1)) := by
  obtain ⟨turns, hlength⟩ :=
    Nat.exists_eq_succ_of_ne_zero (Nat.ne_of_gt (List.length_pos_of_ne_nil hdata))
  conv_lhs => unfold putAllUserPackets
  rw [hlength, putUserPackets, if_neg hdata, putUserPackets_eq]
  rw [List.length_drop, pktSize]
  omega

theorem take_append_eq {first second : ByteBlock} (hfirst : size ≤ first.length)
    (htake : first.take size = second.take size) (front back : ByteBlock) :
    (first ++ front).take size = (second ++ back).take size := by
  have hlength := congrArg List.length htake
  rw [List.length_take, List.length_take] at hlength
  rw [List.take_append_of_le_length hfirst, List.take_append_of_le_length (by omega), htake]

theorem take_append_congr (front : ByteBlock) {first second : ByteBlock}
    (htake : first.take size = second.take size) :
    (front ++ first).take size = (front ++ second).take size := by
  have hshorter : ∀ data : ByteBlock, data.take (size - front.length) =
      (data.take size).take (size - front.length) := by
    intro data
    rw [List.take_take, Nat.min_eq_left (Nat.sub_le _ _)]
  rw [List.take_append, List.take_append, hshorter first, htake, ← hshorter]

theorem take_putAllUserPackets (hdata : data ≠ []) :
    (putAllUserPackets data).take pktSize = (syncByte :: data).take pktSize := by
  rw [putAllUserPackets_cons hdata]
  by_cases hlong : pktSize - 1 ≤ data.length
  · rw [List.take_append_of_le_length (by
      rw [List.length_cons, List.length_take, pktSize] at *; omega)]
    show _ = syncByte :: data.take (pktSize - 1)
    apply List.take_of_length_le
    rw [List.length_cons, List.length_take, pktSize]
    omega
  · rw [List.take_of_length_le (show data.length ≤ pktSize - 1 by omega),
      List.drop_eq_nil_of_le (by omega)]
    have hnil : putAllUserPackets [] = [] := rfl
    rw [hnil, List.append_nil]

theorem length_slice {stream : ByteBlock} {position : ℕ} (hstream : position + size ≤ stream.length) :
    (slice stream position size).length = size := by
  rw [slice, List.length_take, List.length_drop]
  omega

theorem slice_add (stream : ByteBlock) (position first second : ℕ) :
    slice stream position (first + second) =
      slice stream position first ++ slice stream (position + first) second := by
  unfold slice
  rw [List.take_add, List.drop_drop]

theorem byteAt_slice (stream : ByteBlock) (position : ℕ) {offset : ℕ} (hoffset : offset < size) :
    byteAt (slice stream position size) offset = byteAt stream (position + offset) := by
  rw [slice, byteAt_take _ hoffset, byteAt, byteAt, List.getD_eq_getElem?_getD,
    List.getD_eq_getElem?_getD, List.getElem?_drop]

theorem drop_slice (stream : ByteBlock) (position size count : ℕ) :
    (slice stream position size).drop count = slice stream (position + count) (size - count) := by
  unfold slice
  rw [List.drop_take, List.drop_drop]

/-! ### What the frames add to the buffer -/

section History

variable (mode : T2Mode) {stream : ByteBlock}

theorem T2Mode.syncd_ne (position : ℕ) : 8 * mode.distance position ≠ 0xFFFF := by
  have hdistance := mode.distance_lt position
  cases mode <;> simp only [T2Mode.userPacketSize, pktSize] at hdistance <;> omega

theorem addedBytes_of_le (firstPacket : Bool) (bufferSize npd : ℕ) (data : ByteBlock) :
    addedBytes firstPacket bufferSize npd 0xFFFF data = data :=
  if_pos rfl

variable {position : ℕ}

theorem addedBytes_of_lt {data : ByteBlock} (hsize : mode.distance position < data.length)
    (firstPacket : Bool) (bufferSize : ℕ) :
    addedBytes firstPacket bufferSize 0 (8 * mode.distance position) data =
      (if firstPacket = false ∧ 0 < mode.distance position then
        (if bufferSize % pktSize = 0 then [syncByte] else []) ++ data.take (mode.distance position)
      else []) ++ putAllUserPackets (data.drop (mode.distance position)) := by
  unfold addedBytes
  rw [if_neg (mode.syncd_ne position), Nat.mul_div_cancel_left _ (by decide),
    Nat.min_eq_left hsize.le]
  rfl

theorem received_started {start : ℕ} (hstart : mode.distance start = 0) (lead : ByteBlock)
    {sizes : List ℕ} (history : ByteBlock) (hposition : start < position)
    (hstream : position + sizes.sum ≤ stream.length) (hhistory : history.take pktSize =
      (lead ++ syncByte :: slice stream start (position - start)).take pktSize) :
    (received false history (mode.frames stream position sizes)).take pktSize =
      (lead ++ syncByte :: slice stream start (position - start + sizes.sum)).take pktSize := by
  induction sizes generalizing position history with
  | nil => exact hhistory
  | cons size sizes ih =>
    rw [List.sum_cons] at hstream
    have hdata : (slice stream position size).length = size := length_slice (by omega)
    have hnext : slice stream start (position + size - start) =
        slice stream start (position - start) ++ slice stream position size := by
      rw [show position + size - start = position - start + size by omega, slice_add,
        show start + (position - start) = position by omega]
    have hsum : position - start + (size :: sizes).sum = position + size - start + sizes.sum := by
      rw [List.sum_cons]
      omega
    have hgoal : ∀ added, (history ++ added).take pktSize =
        (lead ++ syncByte :: slice stream start (position + size - start)).take pktSize →
        (received false (history ++ added) (mode.frames stream (position + size) sizes)).take
            pktSize =
          (lead ++ syncByte :: slice stream start (position - start + (size :: sizes).sum)).take
            pktSize := by
      intro added hadded
      rw [hsum]
      exact ih (history ++ added) (by omega) (by omega) hadded
    rw [T2Mode.frames, received]
    dsimp only
    rw [ite_self]
    apply hgoal
    rw [hnext, ← List.cons_append, ← List.append_assoc]
    by_cases hlong : pktSize ≤ history.length
    · exact take_append_eq hlong hhistory _ _
    -- the buffer has less than one packet: it holds exactly the stream from the start
    have hlengths := congrArg List.length hhistory
    rw [List.length_take, List.length_take] at hlengths
    have hexact : history = lead ++ syncByte :: slice stream start (position - start) := by
      rw [List.take_of_length_le (by omega), List.take_of_length_le (by omega)] at hhistory
      exact hhistory
    have hlength : history.length = lead.length + (1 + (position - start)) := by
      rw [hexact, List.length_append, List.length_cons, length_slice (by omega), Nat.add_comm 1]
    rw [← hexact]
    by_cases hinside : mode.distance position < size
    · have hdistance : position - start + mode.distance position = mode.userPacketSize := by
        have hsame := mode.distance_start hstart (position - start)
        rw [show start + (position - start) = position by omega] at hsame
        rw [hsame]
        unfold T2Mode.distance
        cases mode <;> simp only [T2Mode.userPacketSize, pktSize] at hlong ⊢ <;> omega
      rw [if_pos hinside]
      have hadded := addedBytes_of_lt mode (show mode.distance position <
        (slice stream position size).length by omega) false history.length
      have hpositive : 0 < mode.distance position := by
        cases mode <;> simp only [T2Mode.userPacketSize, pktSize] at hdistance hlong <;> omega
      have hpart : ¬history.length % pktSize = 0 := by
        unfold pktSize at hlong ⊢
        omega
      rw [hadded, if_pos ⟨rfl, hpositive⟩, if_neg hpart, List.nil_append, ← List.append_assoc]
      conv_rhs => rw [← List.take_append_drop (mode.distance position)
        (slice stream position size), ← List.append_assoc]
      apply take_append_eq _ rfl
      rw [List.length_append, List.length_take, hdata]
      cases mode <;> simp only [T2Mode.userPacketSize, pktSize] at hdistance ⊢ <;> omega
    · rw [if_neg hinside, addedBytes_of_le]

/-- The data before the first start, then the stream. -/
theorem received_take {sizes : List ℕ} (history : ByteBlock)
    (hstream : position + sizes.sum ≤ stream.length) :
    (received true history (mode.frames stream position sizes)).take pktSize =
      (history ++ slice stream position (mode.lead position sizes) ++
        if mode.distance position < sizes.sum then
          syncByte :: slice stream (position + mode.distance position)
            (sizes.sum - mode.distance position)
        else []).take pktSize := by
  induction sizes generalizing position history with
  | nil =>
    rw [List.sum_nil, if_neg (Nat.not_lt_zero _), T2Mode.lead, slice, List.take_zero,
      List.append_nil, List.append_nil]
    rfl
  | cons size sizes ih =>
    rw [List.sum_cons] at hstream ⊢
    have hdata : (slice stream position size).length = size := length_slice (by omega)
    rw [T2Mode.frames, received, T2Mode.lead]
    dsimp only
    by_cases hinside : mode.distance position < size
    · have hadded := addedBytes_of_lt mode (show mode.distance position <
        (slice stream position size).length by omega) true history.length
      rw [if_pos hinside, if_neg (mode.syncd_ne position), if_pos hinside, if_pos (by omega)]
      have hstart : mode.distance (position + mode.distance position) = 0 := by
        rw [mode.distance_add le_rfl, Nat.sub_self]
      have hempty : slice stream position 0 = [] := List.take_zero
      rw [hempty, List.append_nil, show size + sizes.sum - mode.distance position =
        position + size - (position + mode.distance position) + sizes.sum by omega]
      rw [drop_slice] at hadded
      rw [hadded, if_neg (fun hboth ↦ Bool.false_ne_true hboth.1.symm), List.nil_append]
      apply received_started mode hstart history _ (by omega) (by omega)
      apply take_append_congr
      rw [show position + size - (position + mode.distance position) =
        size - mode.distance position by omega]
      apply take_putAllUserPackets
      apply List.ne_nil_of_length_pos
      rw [length_slice (by omega)]
      omega
    · rw [if_neg hinside, if_pos rfl, addedBytes_of_le, if_neg hinside]
      have hfollowing := ih (history ++ slice stream position size)
        (show position + size + sizes.sum ≤ stream.length by omega)
      have hdistance := mode.distance_add (not_lt.mp hinside)
      rw [hdistance, show position + size + (mode.distance position - size) =
        position + mode.distance position by omega, show
        sizes.sum - (mode.distance position - size) = size + sizes.sum - mode.distance position by
          omega] at hfollowing
      rw [slice_add, ← List.append_assoc history]
      have hsame : (mode.distance position - size < sizes.sum) =
          (mode.distance position < size + sizes.sum) := by
        apply propext
        omega
      simp only [hsame] at hfollowing
      exact hfollowing

end History

/-! ### The frames in the T2-MI stream -/

theorem readT2MIPacket_data (pkt : T2MIPacket) (rest : ByteBlock) :
    readT2MIPacket (pkt.data ++ rest) = some (pkt.data, rest) := by
  have hlength := pkt.le_length
  have hsize : t2miPacketSize (pkt.data ++ rest) = pkt.data.length := by
    rw [pkt.length_eq]
    unfold t2miHeaderSize at hlength
    unfold t2miPacketSize
    rw [getUInt16, getUInt16, byteAt_append_left _ (by omega), byteAt_append_left _ (by omega)]
  unfold readT2MIPacket
  rw [hsize, List.take_left, List.drop_left, if_pos]
  rw [List.length_append]
  unfold t2miHeaderSize sectionCrc32Size at *
  omega

theorem takeAllRecords_t2mi (packets : List T2MIPacket) :
    takeAllRecords readT2MIPacket (packets.flatMap (·.data)) = (packets.map (·.data), []) := by
  induction packets with
  | nil => rfl
  | cons pkt packets ih =>
    rw [List.flatMap_cons, isStream_readT2MIPacket.takeAllRecords_eq, readT2MIPacket_data]
    dsimp only
    rw [ih]
    rfl

variable {plp : UInt8}

theorem T2MIPacket.Carries.frame_eq {pkt : T2MIPacket} {frame : BasebandFrame}
    (hcarries : pkt.Carries plp frame) : pkt.frame = some frame := by
  obtain ⟨header, padding, -, hframe, hlength, hmode, hnpd, hdfl, hsyncd⟩ := hcarries
  have hbyte : ∀ offset, offset < t2BBHeaderSize →
      byteAt (header ++ frame.data ++ padding) offset = byteAt header offset := by
    intro offset hoffset
    rw [List.append_assoc, byteAt_append_left _ (by omega)]
  have hword : ∀ offset, offset + 1 < t2BBHeaderSize →
      getUInt16 (header ++ frame.data ++ padding) offset = getUInt16 header offset := by
    intro offset hoffset
    rw [getUInt16, getUInt16, hbyte _ (by omega), hbyte _ hoffset]
  have hdrop : (header ++ frame.data ++ padding).drop t2BBHeaderSize = frame.data ++ padding := by
    rw [List.append_assoc, ← hlength, List.drop_left]
  unfold T2MIPacket.frame
  rw [hframe, Option.bind_some]
  unfold BasebandFrame.read
  rw [if_neg (by rw [List.length_append, List.length_append]; omega), hbyte 0 (by decide),
    if_neg (not_not.mpr hmode), hdrop, hword 7 (by decide), hword 4 (by decide), hnpd, hdfl, hsyncd]
  have hbytes : min ((8 * frame.data.length + 7) / 8) (frame.data ++ padding).length =
      frame.data.length := by
    rw [List.length_append]
    omega
  dsimp only
  rw [hbytes, List.take_left]

theorem framesOf_map_data {packets : List T2MIPacket} {frames : List BasebandFrame}
    (hcarry : CarryFrames plp packets frames) :
    framesOf plp (packets.map (·.data)) = frames := by
  unfold CarryFrames at hcarry
  unfold framesOf
  rw [List.filterMap_map]
  induction packets generalizing frames with
  | nil =>
    cases hcarry
    rfl
  | cons pkt packets ih =>
    have hread : ((fun bytes ↦ (T2MIPacket.ofBytes bytes).bind fun pkt ↦
        if pkt.plp = plp then pkt.frame else none) ∘ fun pkt : T2MIPacket ↦ pkt.data) pkt =
          if pkt.plp = plp then pkt.frame else none := by
      show (T2MIPacket.ofBytes pkt.data).bind _ = _
      rw [pkt.ofBytes_data]
      rfl
    by_cases hown : pkt.plp = plp ∧ pkt.basebandFrame ≠ none
    · rw [List.filter_cons_of_pos (by rw [decide_eq_true_eq]; exact hown)] at hcarry
      obtain ⟨frame, others, hfirst, hothers, rfl⟩ := List.forall₂_cons_left_iff.mp hcarry
      rw [List.filterMap_cons_some (hread.trans ((if_pos hown.1).trans hfirst.frame_eq)),
        ih hothers]
    · rw [List.filter_cons_of_neg (by rw [decide_eq_true_eq]; exact hown)] at hcarry
      rw [List.filterMap_cons_none, ih hcarry]
      rw [hread]
      by_cases hplp : pkt.plp = plp
      · have hnone := not_not.mp fun hsome ↦ hown ⟨hplp, hsome⟩
        rw [if_pos hplp, T2MIPacket.frame, hnone]
        rfl
      · rw [if_neg hplp]

theorem packetsOf_receiveAll {packets : List T2MIPacket} {frames : List BasebandFrame}
    (hcarry : CarryFrames plp packets frames) {pieces : List ByteBlock}
    (hpieces : pieces.flatten = packets.flatMap (·.data)) :
    packetsOf plp (T2MIPIDContext.new.receiveAll pieces).2 =
      (takeAllRecords readTSPacket (received true [] frames)).1 := by
  rw [receiveAll_eq, hpieces, takeAllRecords_t2mi, framesOf_map_data hcarry]

def BasebandFrame.bytes (frame : BasebandFrame) : ByteBlock :=
  [0xC0, 0, 0, 0] ++ putUInt16 (8 * frame.data.length) ++ (0 :: putUInt16 frame.syncd ++ [0]) ++
    frame.data

theorem BasebandFrame.length_bytes (frame : BasebandFrame) :
    frame.bytes.length = t2BBHeaderSize + frame.data.length := by
  unfold BasebandFrame.bytes
  rw [List.length_append]
  rfl

theorem carries_basebandPacket (plp : UInt8) {frame : BasebandFrame} (hnpd : frame.npd = 0)
    (hsyncd : frame.syncd < 0x10000) (hfits : 8 * (3 + frame.bytes.length) < 0x10000) :
    (basebandPacket plp hfits).basebandFrame ≠ none ∧
      (basebandPacket plp hfits).Carries plp frame := by
  have hheader : ([0xC0, 0, 0, 0] ++ putUInt16 (8 * frame.data.length) ++
      (0 :: putUInt16 frame.syncd ++ [0])).length = t2BBHeaderSize := rfl
  have hlength := frame.length_bytes
  obtain ⟨hplp, hframe⟩ := basebandFrame_basebandPacket plp hfits
  have hmode : ((0xC0 : UInt8) >>> 6) &&& 0x03 = 3 := by
    decide
  constructor
  · rw [hframe]
    exact Option.some_ne_none _
  refine ⟨_, [], hplp, ?_, hheader, hmode, ?_, ?_, ?_⟩
  · rw [hframe, List.append_nil]
    rfl
  · have hflag : (if (0xC0 : UInt8) &&& 0x04 ≠ 0 then 1 else 0) = 0 := by
      decide
    rw [hnpd]
    exact hflag
  · show (UInt8.ofNat (8 * frame.data.length / 256)).toNat * 256 +
      (UInt8.ofNat (8 * frame.data.length)).toNat = _
    rw [UInt8.toNat_ofNat', UInt8.toNat_ofNat']
    omega
  · show (UInt8.ofNat (frame.syncd / 256)).toNat * 256 + (UInt8.ofNat frame.syncd).toNat = _
    rw [UInt8.toNat_ofNat', UInt8.toNat_ofNat']
    omega

section Stream

variable (mode : T2Mode) (crc8 : ByteBlock → UInt8)

theorem T2Mode.length_userPacket (crc : UInt8) (pkt : TSPacket) :
    (mode.userPacket crc pkt).length = mode.userPacketSize := by
  have hlength : pkt.bytes.tail.length = pktSize - 1 := by
    rw [List.length_tail, pkt.length_eq]
  cases mode with
  | normal => exact congrArg (· + 1) hlength
  | highEfficiency => exact hlength

theorem T2Mode.length_userStream (crc : UInt8) (packets : List TSPacket) :
    (mode.userStream crc8 crc packets).length = mode.userPacketSize * packets.length := by
  induction packets generalizing crc with
  | nil => rfl
  | cons pkt packets ih =>
    rw [T2Mode.userStream, List.length_append, mode.length_userPacket, ih, List.length_cons,
      Nat.mul_succ, Nat.add_comm]

theorem T2Mode.drop_userStream (crc : UInt8) (packets : List TSPacket) (count : ℕ) :
    ∃ crc', (mode.userStream crc8 crc packets).drop (mode.userPacketSize * count) =
      mode.userStream crc8 crc' (packets.drop count) := by
  induction packets generalizing crc count with
  | nil => exact ⟨crc, by simp [T2Mode.userStream]⟩
  | cons pkt packets ih =>
    cases count with
    | zero => exact ⟨crc, rfl⟩
    | succ count =>
      obtain ⟨crc', hdrop⟩ := ih (crc8 pkt.bytes.tail) count
      refine ⟨crc', ?_⟩
      have hlength := mode.length_userPacket crc pkt
      rw [List.drop_succ_cons, ← hdrop, T2Mode.userStream, Nat.mul_succ, Nat.add_comm,
        ← List.drop_drop, ← hlength, List.drop_left]

theorem T2Mode.firstIndex_eq (position : ℕ) :
    mode.userPacketSize * ((position + mode.userPacketSize - 1) / mode.userPacketSize) =
      position + mode.distance position := by
  unfold T2Mode.distance
  cases mode <;> simp only [T2Mode.userPacketSize, pktSize] <;> omega

end Stream

/-! ### The high efficiency mode -/

theorem putAllUserPackets_append (first second : ByteBlock) :
    putAllUserPackets (first ++ second) = putAllUserPackets first ++
        (second.take (T2Mode.highEfficiency.distance first.length) ++
          putAllUserPackets (second.drop (T2Mode.highEfficiency.distance first.length))) := by
  induction hlength : first.length using Nat.strong_induction_on generalizing first with
  | _ length ih =>
    have hempty : putAllUserPackets [] = [] := rfl
    by_cases hnil : first = []
    · subst hnil
      rw [← hlength]
      rfl
    have hpositive := List.length_pos_of_ne_nil hnil
    rw [putAllUserPackets_cons hnil, putAllUserPackets_cons (List.append_ne_nil_of_left_ne_nil hnil _)]
    by_cases hlong : pktSize - 1 ≤ first.length
    · have hdistance : T2Mode.highEfficiency.distance length =
          T2Mode.highEfficiency.distance (first.drop (pktSize - 1)).length := by
        unfold T2Mode.distance
        rw [List.length_drop]
        simp only [T2Mode.userPacketSize, pktSize] at hlong ⊢
        omega
      rw [List.take_append_of_le_length hlong, List.drop_append_of_le_length hlong, hdistance,
        ih _ (by rw [List.length_drop, pktSize]; omega) (first.drop (pktSize - 1)) rfl,
        List.append_assoc]
    · have hdistance : T2Mode.highEfficiency.distance length = pktSize - 1 - first.length := by
        unfold T2Mode.distance
        simp only [T2Mode.userPacketSize, pktSize] at hlong ⊢
        omega
      rw [List.take_append, List.drop_append, hdistance, List.take_of_length_le (by omega),
        List.drop_eq_nil_of_le (by omega), hempty, List.append_nil, List.nil_append,
        List.cons_append, List.cons_append, List.append_assoc]

theorem length_putAllUserPackets (data : ByteBlock) :
    (putAllUserPackets data).length = data.length + (data.length + (pktSize - 2)) / (pktSize - 1) := by
  induction hlength : data.length using Nat.strong_induction_on generalizing data with
  | _ length ih =>
    by_cases hnil : data = []
    · subst hnil
      rw [← hlength]
      rfl
    have hpositive := List.length_pos_of_ne_nil hnil
    have hrest := ih _ (by rw [List.length_drop, pktSize]; omega) (data.drop (pktSize - 1)) rfl
    rw [putAllUserPackets_cons hnil, List.length_append, hrest, List.length_cons, List.length_take,
      List.length_drop]
    unfold pktSize
    omega

section HighEfficiency

variable {stream : ByteBlock}

theorem received_of_started {start : ℕ} (hstart : T2Mode.highEfficiency.distance start = 0)
    {sizes : List ℕ} {position : ℕ} (hposition : start ≤ position)
    (hstream : position + sizes.sum ≤ stream.length) :
    received false (putAllUserPackets (slice stream start (position - start)))
        (T2Mode.highEfficiency.frames stream position sizes) =
      putAllUserPackets (slice stream start (position - start + sizes.sum)) := by
  induction sizes generalizing position with
  | nil => rfl
  | cons size sizes ih =>
    rw [List.sum_cons] at hstream ⊢
    have hdata : (slice stream position size).length = size := length_slice (by omega)
    have hbefore : (slice stream start (position - start)).length = position - start :=
      length_slice (by omega)
    have hdistance := T2Mode.highEfficiency.distance_start hstart (position - start)
    rw [show start + (position - start) = position by omega] at hdistance
    have hnext : slice stream start (position + size - start) =
        slice stream start (position - start) ++ slice stream position size := by
      rw [show position + size - start = position - start + size by omega, slice_add,
        show start + (position - start) = position by omega]
    have hadded : addedBytes false (putAllUserPackets (slice stream start (position - start))).length
        0 (if T2Mode.highEfficiency.distance position < size then
          8 * T2Mode.highEfficiency.distance position else 0xFFFF) (slice stream position size) =
        (slice stream position size).take (T2Mode.highEfficiency.distance position) ++
          putAllUserPackets
            ((slice stream position size).drop (T2Mode.highEfficiency.distance position)) := by
      by_cases hinside : T2Mode.highEfficiency.distance position < size
      · rw [if_pos hinside, addedBytes_of_lt _ (by omega)]
        by_cases hzero : T2Mode.highEfficiency.distance position = 0
        · rw [hzero]
          rfl
        · have hpart : ¬(putAllUserPackets
              (slice stream start (position - start))).length % pktSize = 0 := by
            rw [length_putAllUserPackets, hbefore]
            rw [hdistance] at hzero
            unfold T2Mode.distance at hzero
            simp only [T2Mode.userPacketSize, pktSize] at hzero ⊢
            omega
          rw [if_pos ⟨rfl, Nat.pos_of_ne_zero hzero⟩, if_neg hpart, List.nil_append]
      · have hempty : putAllUserPackets [] = [] := rfl
        rw [if_neg hinside, addedBytes_of_le, List.take_of_length_le (by omega),
          List.drop_eq_nil_of_le (by omega), hempty, List.append_nil]
    have hfollowing := ih (show start ≤ position + size by omega) (by omega)
    rw [hnext, putAllUserPackets_append, hbefore, ← hdistance] at hfollowing
    rw [T2Mode.frames, received]
    dsimp only
    rw [ite_self, hadded, hfollowing]
    congr 2
    omega

theorem received_of_lead {sizes : List ℕ} {position : ℕ}
    (hlead : T2Mode.highEfficiency.lead position sizes = 0)
    (hstream : position + sizes.sum ≤ stream.length) :
    received true [] (T2Mode.highEfficiency.frames stream position sizes) =
      putAllUserPackets (slice stream (position + T2Mode.highEfficiency.distance position)
        (sizes.sum - T2Mode.highEfficiency.distance position)) := by
  induction sizes generalizing position with
  | nil =>
    rw [List.sum_nil, Nat.zero_sub]
    rfl
  | cons size sizes ih =>
    rw [List.sum_cons] at hstream ⊢
    rw [T2Mode.lead] at hlead
    have hdata : (slice stream position size).length = size := length_slice (by omega)
    rw [T2Mode.frames, received]
    dsimp only
    by_cases hinside : T2Mode.highEfficiency.distance position < size
    · have hadded := addedBytes_of_lt T2Mode.highEfficiency
        (show T2Mode.highEfficiency.distance position < (slice stream position size).length by omega)
        true 0
      rw [if_neg (fun hboth ↦ Bool.false_ne_true hboth.1.symm), List.nil_append, drop_slice] at hadded
      have hstart : T2Mode.highEfficiency.distance
          (position + T2Mode.highEfficiency.distance position) = 0 := by
        rw [T2Mode.distance_add _ le_rfl, Nat.sub_self]
      have hnext : slice stream (position + T2Mode.highEfficiency.distance position)
          (size - T2Mode.highEfficiency.distance position) =
            slice stream (position + T2Mode.highEfficiency.distance position)
              (position + size - (position + T2Mode.highEfficiency.distance position)) := by
        congr 1
        omega
      rw [if_pos hinside, List.nil_append, List.length_nil, hadded,
        if_neg (T2Mode.highEfficiency.syncd_ne position), hnext,
        received_of_started hstart (by omega) (by omega)]
      congr 2
      omega
    · rw [if_neg hinside] at hlead
      obtain rfl : size = 0 := by omega
      rw [Nat.zero_add] at hlead
      have hempty : slice stream position 0 = [] := List.take_zero
      rw [if_neg hinside, if_pos rfl, addedBytes_of_le, hempty, List.append_nil, Nat.add_zero,
        Nat.zero_add]
      exact ih hlead (by omega)

variable (crc8 : ByteBlock → UInt8)

theorem readTSPacket_bytes (pkt : TSPacket) (rest : ByteBlock) :
    readTSPacket (pkt.bytes ++ rest) = some (pkt, rest) := by
  have hlength := pkt.length_eq
  have hsize : pktSize ≤ (pkt.bytes ++ rest).length := by
    rw [List.length_append]
    omega
  unfold readTSPacket
  rw [dif_pos hsize]
  congr 2
  · obtain ⟨bytes, hbytes⟩ := pkt
    congr 1
    rw [← hbytes, List.take_left]
  · rw [← hlength, List.drop_left]

theorem takeAllRecords_of_short {data : ByteBlock} (hdata : data.length < pktSize) :
    takeAllRecords readTSPacket data = ([], data) := by
  rw [isStream_readTSPacket.takeAllRecords_eq]
  have hnone : readTSPacket data = none := dif_neg (by omega)
  rw [hnone]

theorem takeAllRecords_userStream (crc : UInt8) {packets : List TSPacket}
    (hsync : ∀ pkt ∈ packets, pkt.hasValidSync = true) {size : ℕ}
    (hsize : size ≤ (pktSize - 1) * packets.length) :
    (takeAllRecords readTSPacket (putAllUserPackets
        ((T2Mode.highEfficiency.userStream crc8 crc packets).take size))).1 =
      packets.take (size / (pktSize - 1)) := by
  induction packets generalizing crc size with
  | nil =>
    obtain rfl : size = 0 := by
      rw [List.length_nil, Nat.mul_zero] at hsize
      omega
    rfl
  | cons pkt packets ih =>
    rw [List.length_cons, Nat.mul_succ] at hsize
    by_cases hshort : size < pktSize - 1
    · rw [Nat.div_eq_of_lt hshort, takeAllRecords_of_short]
      · rfl
      · rw [length_putAllUserPackets, List.length_take, T2Mode.length_userStream]
        simp only [T2Mode.userPacketSize, pktSize, List.length_cons] at hshort ⊢
        omega
    obtain ⟨rest, rfl⟩ := Nat.exists_eq_add_of_le (not_lt.mp hshort)
    have hlength : pkt.bytes.tail.length = pktSize - 1 := by
      rw [List.length_tail, pkt.length_eq]
    have hbytes : pkt.bytes = syncByte :: pkt.bytes.tail := by
      have hfirst : byteAt pkt.bytes 0 = syncByte := beq_iff_eq.mp (hsync pkt List.mem_cons_self)
      cases hcons : pkt.bytes with
      | nil =>
        have hnil := pkt.length_eq
        rw [hcons] at hnil
        exact absurd hnil (by decide)
      | cons first tail =>
        rw [hcons] at hfirst
        rw [List.tail_cons]
        exact congrArg (· :: tail) hfirst
    have hput : putAllUserPackets ((T2Mode.highEfficiency.userStream crc8 crc (pkt :: packets)).take
        (pktSize - 1 + rest)) =
          pkt.bytes ++ putAllUserPackets ((T2Mode.highEfficiency.userStream crc8
            (crc8 pkt.bytes.tail) packets).take rest) := by
      rw [T2Mode.userStream]
      show putAllUserPackets ((pkt.bytes.tail ++ _).take _) = _
      rw [← hlength, List.take_length_add_append, putAllUserPackets_append, hlength,
        putAllUserPackets_cons (List.ne_nil_of_length_eq_add_one hlength), ← hlength,
        List.take_length, List.drop_length]
      have hempty : putAllUserPackets [] = [] := rfl
      have hzero : T2Mode.highEfficiency.distance pkt.bytes.tail.length = 0 := by
        rw [hlength]
        rfl
      rw [hempty, hzero, List.append_nil, List.take_zero, List.drop_zero, List.nil_append, ← hbytes]
    rw [hput, isStream_readTSPacket.takeAllRecords_eq, readTSPacket_bytes]
    dsimp only
    rw [ih (crc8 pkt.bytes.tail) (List.forall_mem_cons.mp hsync).2
      (by omega), Nat.add_div_left _ (by decide), List.take_succ_cons]

end HighEfficiency

/-! ### The first packet that is given -/

/-- A packet whose first bytes are different. -/
def markedPacket : TSPacket where
  bytes := syncByte :: 0 :: 1 :: List.replicate 185 0
  length_eq := rfl

theorem byteAt_markedPacket (offset : ℕ) : byteAt markedPacket.bytes.tail offset ≠ syncByte := by
  have hall : ∀ byte ∈ markedPacket.bytes.tail, byte ≠ syncByte := by
    intro byte hbyte
    rcases List.mem_cons.mp hbyte with rfl | hbyte
    · decide
    rcases List.mem_cons.mp hbyte with rfl | hbyte
    · decide
    · rw [List.eq_of_mem_replicate hbyte]
      decide
  unfold byteAt
  rw [List.getD_eq_getElem?_getD]
  cases hget : markedPacket.bytes.tail[offset]? with
  | none => decide
  | some byte => exact hall byte (List.mem_of_getElem? hget)

theorem T2Mode.distance_pos_of_lead_pos (mode : T2Mode) {position : ℕ} {sizes : List ℕ}
    (hlead : 0 < mode.lead position sizes) : 0 < mode.distance position := by
  induction sizes generalizing position with
  | nil => exact absurd hlead (Nat.lt_irrefl 0)
  | cons size sizes ih =>
    rw [T2Mode.lead] at hlead
    by_cases hinside : mode.distance position < size
    · rw [if_pos hinside] at hlead
      exact absurd hlead (Nat.lt_irrefl 0)
    rw [if_neg hinside] at hlead
    by_cases hsize : size = 0
    · subst hsize
      rw [Nat.zero_add, Nat.add_zero] at hlead
      exact ih hlead
    · omega

theorem T2Mode.byteAt_userStream (mode : T2Mode) (crc8 : ByteBlock → UInt8) (crc : UInt8)
    {count position : ℕ} (hposition : position < mode.userPacketSize * count)
    (hinside : 0 < mode.distance position) :
    byteAt (mode.userStream crc8 crc (List.replicate count markedPacket)) position ≠ syncByte := by
  have hpositive : 0 < mode.userPacketSize := by
    cases mode <;> decide
  have hindex : position / mode.userPacketSize < count :=
    Nat.div_lt_of_lt_mul hposition
  obtain ⟨crc', hdrop⟩ := mode.drop_userStream crc8 crc (List.replicate count markedPacket)
    (position / mode.userPacketSize)
  obtain ⟨left, hleft⟩ := Nat.exists_eq_add_of_lt hindex
  have hshift : byteAt (mode.userStream crc8 crc (List.replicate count markedPacket)) position =
      byteAt ((mode.userStream crc8 crc (List.replicate count markedPacket)).drop
        (mode.userPacketSize * (position / mode.userPacketSize)))
          (position % mode.userPacketSize) := by
    conv_lhs => rw [← Nat.div_add_mod position mode.userPacketSize]
    unfold byteAt
    rw [List.getD_eq_getElem?_getD, List.getD_eq_getElem?_getD, List.getElem?_drop]
  rw [hshift, hdrop, List.drop_replicate, show count - position / mode.userPacketSize = left + 1 by
    omega, List.replicate_succ, T2Mode.userStream, byteAt_append_left]
  · have hnonzero : position % mode.userPacketSize ≠ 0 := by
      intro hzero
      unfold T2Mode.distance at hinside
      rw [hzero, Nat.sub_zero, Nat.mod_self] at hinside
      exact Nat.lt_irrefl 0 hinside
    cases mode with
    | normal =>
      obtain ⟨offset, hoffset⟩ := Nat.exists_eq_succ_of_ne_zero hnonzero
      rw [hoffset]
      exact byteAt_markedPacket offset
    | highEfficiency => exact byteAt_markedPacket _
  · rw [mode.length_userPacket]
    exact Nat.mod_lt _ hpositive

/-! ### The packets of a slicing -/

namespace Slicing

variable (slicing : Slicing) (crc8 : ByteBlock → UInt8)

/-- The handler gets the packets which are complete. -/
def Reassembles (plp crc : UInt8) (tsPackets : List TSPacket) : Prop :=
  ∀ (packets : List T2MIPacket) (pieces : List ByteBlock),
    CarryFrames plp packets (slicing.mode.frames (slicing.mode.userStream crc8 crc tsPackets)
      slicing.position slicing.sizes) →
    pieces.flatten = packets.flatMap (·.data) →
    packetsOf plp (T2MIPIDContext.new.receiveAll pieces).2 = slicing.expected tsPackets

theorem exists_carryFrames (plp : UInt8) (stream : ByteBlock) :
    ∃ packets, CarryFrames plp packets
      (slicing.mode.frames stream slicing.position slicing.sizes) := by
  obtain ⟨mode, position, sizes, hfits⟩ := slicing
  dsimp only
  induction sizes generalizing position with
  | nil => exact ⟨[], List.Forall₂.nil⟩
  | cons size sizes ih =>
    obtain ⟨packets, hpackets⟩ := ih (position + size) (List.forall_mem_cons.mp hfits).2
    have hsize := hfits size List.mem_cons_self
    have hdata : (slice stream position size).length ≤ size := List.length_take_le _ _
    obtain ⟨frame, hframe⟩ : ∃ frame : BasebandFrame, frame =
        { npd := 0
          syncd := if mode.distance position < size then 8 * mode.distance position else 0xFFFF
          data := slice stream position size } := ⟨_, rfl⟩
    have hsyncd : frame.syncd < 0x10000 := by
      have hdistance := mode.distance_lt position
      rw [hframe]
      dsimp only
      split_ifs
      · cases mode <;> simp only [T2Mode.userPacketSize, pktSize] at hdistance <;> omega
      · decide
    have hfit : 8 * (3 + frame.bytes.length) < 0x10000 := by
      rw [frame.length_bytes, hframe]
      dsimp only
      omega
    obtain ⟨hnone, hcarries⟩ :=
      carries_basebandPacket plp (show frame.npd = 0 by rw [hframe]) hsyncd hfit
    generalize basebandPacket plp hfit = pkt at hnone hcarries
    rw [hframe] at hcarries
    refine ⟨pkt :: packets, ?_⟩
    have hplp : pkt.plp = plp := by
      obtain ⟨_, _, hplp, -⟩ := hcarries
      exact hplp
    unfold CarryFrames
    rw [List.filter_cons_of_pos (by rw [decide_eq_true_eq]; exact ⟨hplp, hnone⟩)]
    exact List.Forall₂.cons hcarries hpackets

variable {slicing}

theorem Reassembles.takeAllRecords_eq {plp crc : UInt8} {tsPackets : List TSPacket}
    (hreassembles : slicing.Reassembles crc8 plp crc tsPackets) :
    (takeAllRecords readTSPacket (received true [] (slicing.mode.frames
      (slicing.mode.userStream crc8 crc tsPackets) slicing.position slicing.sizes))).1 =
        slicing.expected tsPackets := by
  obtain ⟨packets, hpackets⟩ := slicing.exists_carryFrames plp
    (slicing.mode.userStream crc8 crc tsPackets)
  have hpieces : [packets.flatMap (·.data)].flatten = packets.flatMap (·.data) := by
    rw [List.flatten_singleton]
  rw [← hreassembles packets [packets.flatMap (·.data)] hpackets hpieces,
    packetsOf_receiveAll hpackets hpieces]

theorem count_eq (slicing : Slicing) :
    slicing.stop / slicing.mode.userPacketSize - slicing.firstIndex =
      (slicing.sizes.sum - slicing.mode.distance slicing.position) /
        slicing.mode.userPacketSize := by
  have hfirst := slicing.mode.firstIndex_eq slicing.position
  have hpositive : 0 < slicing.mode.userPacketSize := by
    cases slicing.mode <;> decide
  have hmoved : slicing.sizes.sum - slicing.mode.distance slicing.position =
      slicing.stop - slicing.mode.userPacketSize * slicing.firstIndex := by
    unfold stop firstIndex
    omega
  rw [hmoved, Nat.sub_mul_div]

end Slicing

theorem T2Mode.lead_le (mode : T2Mode) (position : ℕ) (sizes : List ℕ) :
    mode.lead position sizes ≤ sizes.sum := by
  induction sizes generalizing position with
  | nil => exact le_rfl
  | cons size sizes ih =>
    have hrest := ih (position + size)
    rw [T2Mode.lead, List.sum_cons]
    split_ifs <;> omega

/-- As many bytes in the buffer as kept of the frames. -/
theorem T2Mode.length_received_lt_iff (mode : T2Mode) {stream : ByteBlock} {position : ℕ}
    {sizes : List ℕ} (hstream : position + sizes.sum ≤ stream.length) :
    (received true [] (mode.frames stream position sizes)).length < pktSize ↔
      mode.kept position sizes < pktSize := by
  have htake := congrArg List.length (received_take mode [] hstream)
  have hlead := mode.lead_le position sizes
  have hkept : ([] ++ slice stream position (mode.lead position sizes) ++
      if mode.distance position < sizes.sum then
        syncByte :: slice stream (position + mode.distance position)
          (sizes.sum - mode.distance position)
      else []).length = mode.kept position sizes := by
    rw [List.nil_append, List.length_append, length_slice (by omega), T2Mode.kept]
    split_ifs with hstart
    · rw [List.length_cons, length_slice (by omega), Nat.add_comm 1]
    · rfl
  rw [List.length_take, List.length_take, hkept] at htake
  omega

/-- Exactly in high efficiency mode with no data before the frame of the first start, and when there
are too few data. -/
theorem reassembled_iff (slicing : Slicing) (crc8 : ByteBlock → UInt8) (plp crc : UInt8) :
    (∀ tsPackets : List TSPacket, (∀ pkt ∈ tsPackets, pkt.hasValidSync = true) →
      slicing.stop ≤ (slicing.mode.userStream crc8 crc tsPackets).length →
      slicing.Reassembles crc8 plp crc tsPackets) ↔ slicing.IsReassembled := by
  constructor
  · intro hall
    by_contra hnot
    obtain ⟨hmode, hkept⟩ := not_or.mp hnot
    have hsync : ∀ pkt ∈ List.replicate slicing.stop markedPacket, pkt.hasValidSync = true := by
      intro pkt hpkt
      rw [List.eq_of_mem_replicate hpkt]
      rfl
    have hlong : slicing.stop ≤ (slicing.mode.userStream crc8 crc
        (List.replicate slicing.stop markedPacket)).length := by
      rw [T2Mode.length_userStream, List.length_replicate]
      apply Nat.le_mul_of_pos_left
      cases slicing.mode <;> decide
    have hgiven := (hall _ hsync hlong).takeAllRecords_eq
    have htake := received_take slicing.mode [] hlong
    have hbuffer := mt (slicing.mode.length_received_lt_iff hlong).mp hkept
    rw [not_lt] at hbuffer hkept
    generalize received true [] (slicing.mode.frames (slicing.mode.userStream crc8 crc
      (List.replicate slicing.stop markedPacket)) slicing.position slicing.sizes) = buffer
      at hgiven htake hbuffer
    -- the first packet which is given starts with the first bytes in the buffer
    have hfirst : buffer.take pktSize = markedPacket.bytes := by
      have hread : readTSPacket buffer =
          some (⟨buffer.take pktSize, List.length_take_of_le hbuffer⟩, buffer.drop pktSize) :=
        dif_pos hbuffer
      rw [isStream_readTSPacket.takeAllRecords_eq, hread] at hgiven
      have hmem : ⟨buffer.take pktSize, List.length_take_of_le hbuffer⟩ ∈
          slicing.expected (List.replicate slicing.stop markedPacket) := by
        rw [← hgiven]
        exact List.mem_cons_self
      have hmarked := List.mem_of_mem_drop (List.mem_of_mem_take hmem)
      exact congrArg TSPacket.bytes (List.eq_of_mem_replicate hmarked)
    rw [hfirst, List.nil_append] at htake
    have hlead := slicing.mode.lead_le slicing.position slicing.sizes
    have hstream : slicing.stop ≤ slicing.mode.userPacketSize * slicing.stop := by
      apply Nat.le_mul_of_pos_left
      cases slicing.mode <;> decide
    have hstop : slicing.stop = slicing.position + slicing.sizes.sum := rfl
    by_cases hzero : slicing.mode.lead slicing.position slicing.sizes = 0
    · have hnormal : slicing.mode = .normal := by
        cases hcases : slicing.mode with
        | normal => rfl
        | highEfficiency => exact absurd ⟨hcases, hzero⟩ hmode
      have hstart : slicing.mode.distance slicing.position < slicing.sizes.sum ∧
          1 < slicing.sizes.sum - slicing.mode.distance slicing.position := by
        unfold T2Mode.kept pktSize at hkept
        rw [hzero] at hkept
        split_ifs at hkept with hstart
        · omega
        · omega
      obtain ⟨crc', hdrop⟩ := slicing.mode.drop_userStream crc8 crc
        (List.replicate slicing.stop markedPacket) slicing.firstIndex
      have hindex : slicing.mode.userPacketSize * slicing.firstIndex =
          slicing.position + slicing.mode.distance slicing.position :=
        slicing.mode.firstIndex_eq slicing.position
      have hcount : slicing.firstIndex < slicing.stop := by
        have hone : 2 ≤ slicing.mode.userPacketSize := by
          cases slicing.mode <;> decide
        have hscaled := Nat.mul_le_mul_right slicing.firstIndex hone
        omega
      have hempty : slice (slicing.mode.userStream crc8 crc
          (List.replicate slicing.stop markedPacket)) slicing.position 0 = [] := List.take_zero
      rw [hzero, hempty, List.nil_append, if_pos hstart.1] at htake
      obtain ⟨left, hleft⟩ := Nat.exists_eq_add_of_lt hcount
      have hbyte : byteAt markedPacket.bytes 2 = _ := congrArg (byteAt · 2) htake
      have hsecond : ∀ data : ByteBlock, byteAt (syncByte :: data) 2 = byteAt data 1 := fun _ ↦ rfl
      have hdropped : ∀ data : ByteBlock, byteAt data
          (slicing.position + slicing.mode.distance slicing.position + 1) =
            byteAt (data.drop (slicing.mode.userPacketSize * slicing.firstIndex)) 1 := by
        intro data
        rw [← hindex, byteAt, byteAt, List.getD_eq_getElem?_getD, List.getD_eq_getElem?_getD,
          List.getElem?_drop]
      rw [byteAt_take _ (by decide), hsecond, byteAt_slice _ _ hstart.2, hdropped, hdrop,
        List.drop_replicate, show slicing.stop - slicing.firstIndex = left + 1 by omega,
        List.replicate_succ, T2Mode.userStream, hnormal] at hbyte
      exact absurd hbyte (by decide : (1 : UInt8) ≠ 0)
    · have hslice : 0 < (slice (slicing.mode.userStream crc8 crc
          (List.replicate slicing.stop markedPacket)) slicing.position
            (slicing.mode.lead slicing.position slicing.sizes)).length := by
        rw [length_slice (by omega)]
        omega
      have hbyte : byteAt markedPacket.bytes 0 = _ := congrArg (byteAt · 0) htake
      rw [byteAt_take _ (by decide), byteAt_append_left _ hslice, byteAt_slice _ _ (by omega),
        Nat.add_zero] at hbyte
      exact slicing.mode.byteAt_userStream crc8 crc (by omega)
        (slicing.mode.distance_pos_of_lead_pos (Nat.pos_of_ne_zero hzero)) hbyte.symm
  · intro hreassembled tsPackets hsync hlong packets pieces hcarry hpieces
    rw [packetsOf_receiveAll hcarry hpieces]
    unfold Slicing.expected
    rw [slicing.count_eq]
    rcases hreassembled with ⟨hmode, hlead⟩ | hkept
    · have hindex : slicing.mode.userPacketSize * slicing.firstIndex =
          slicing.position + slicing.mode.distance slicing.position :=
        slicing.mode.firstIndex_eq slicing.position
      obtain ⟨crc', hdrop⟩ := slicing.mode.drop_userStream crc8 crc tsPackets slicing.firstIndex
      have hstop : slicing.stop = slicing.position + slicing.sizes.sum := rfl
      rw [hmode] at hlead hlong hdrop hindex ⊢
      rw [received_of_lead hlead hlong]
      unfold slice
      rw [← hindex, hdrop]
      apply takeAllRecords_userStream crc8 crc'
      · intro pkt hpkt
        exact hsync pkt (List.mem_of_mem_drop hpkt)
      · rw [T2Mode.length_userStream] at hlong
        rw [List.length_drop, Nat.mul_sub]
        change slicing.stop ≤ (pktSize - 1) * tsPackets.length at hlong
        change (pktSize - 1) * slicing.firstIndex = _ at hindex
        omega
    · have hshort := (slicing.mode.length_received_lt_iff hlong).mpr hkept
      have hcount : (slicing.sizes.sum - slicing.mode.distance slicing.position) /
          slicing.mode.userPacketSize = 0 := by
        have hpacket : pktSize - 1 ≤ slicing.mode.userPacketSize := by
          cases slicing.mode <;> decide
        apply Nat.div_eq_of_lt
        unfold T2Mode.kept at hkept
        split_ifs at hkept with hstart
        · omega
        · have hdistance := slicing.mode.distance_lt slicing.position
          omega
      rw [takeAllRecords_of_short hshort, hcount, List.take_zero]

/-- The end of a packet in a frame, then a whole packet. -/
def lateSlicing : Slicing where
  mode := .highEfficiency
  position := 186
  sizes := [1, 187]
  fits := by decide

/-- The packet is shifted after a byte of the first frame. -/
theorem lateSlicing_not_reassembled :
    ¬lateSlicing.Reassembles (fun _ ↦ 0) 0 0 [markedPacket, markedPacket] := by
  intro hreassembles
  have hgiven := hreassembles.takeAllRecords_eq
  revert hgiven
  decide +kernel

end TSDuck
