import TSDuck.Library.CircularWindow
import Mathlib.Data.UInt

/-!
# A buffered input file

A buffered input file keeps the last packets which were read from a file in a circular buffer, and
it can go back to them and forth again.

The loop which reads from the buffer never compares the number of packets to read with those which
the buffer holds: it only stops at the end of the circular buffer. `follows_iff` states when the
buffered file is the plain file.

Scope. The file is open, and no read of the file fails. Its packets are those which the plain file
delivers, as many times as it is repeated. A buffer and a file have fewer than 2^63 packets.
-/

namespace TSDuck

open CircularWindow

universe u

variable {Packet : Type u}

/-- A plain input file. -/
structure TSFileInput (Packet : Type u) where
  packets : List Packet
  totalPackets : ℕ
  length_lt : packets.length < 2 ^ 63

namespace TSFileInput

def read (file : TSFileInput Packet) (maxPackets : ℕ) : List Packet × TSFileInput Packet :=
  let buffer := (file.packets.drop file.totalPackets).take maxPackets
  (buffer, { file with totalPackets := file.totalPackets + buffer.length })

end TSFileInput

structure TSFileInputBuffered (Packet : Type u) where
  file : TSFileInput Packet
  buffer : ℕ → Packet
  bufferSize : ℕ
  firstIndex : ℕ
  currentOffset : ℕ
  totalCount : ℕ
  bufferSize_ge : 16 ≤ bufferSize
  bufferSize_lt : bufferSize < 2 ^ 63

namespace TSFileInputBuffered

def openFile (packets : List Packet) (hlength : packets.length < 2 ^ 63) (slots : ℕ → Packet)
    (bufferSize : ℕ) (hsize : bufferSize < 2 ^ 63) : TSFileInputBuffered Packet where
  file := { packets := packets, totalPackets := 0, length_lt := hlength }
  buffer := slots
  bufferSize := max bufferSize 16
  firstIndex := 0
  currentOffset := 0
  totalCount := 0
  bufferSize_ge := le_max_right _ _
  bufferSize_lt := max_lt hsize (by decide)

def moveTo (input : TSFileInputBuffered Packet) (offset : ℕ) : TSFileInputBuffered Packet :=
  { input with currentOffset := offset }

/-- The number of packets which are read for the first time. -/
def getPacketCount (input : TSFileInputBuffered Packet) : ℕ :=
  input.file.totalPackets - (input.totalCount - input.currentOffset)

/-- The position is inside the buffer, as signed 64-bit values. -/
def canSeek (input : TSFileInputBuffered Packet) (pos : UInt64) : Bool :=
  let rel : ℤ := (pos.toNat - input.getPacketCount : ℤ).bmod (2 ^ 64)
  (rel ≥ 0 && input.currentOffset + rel ≤ input.totalCount) ||
    (rel < 0 && -rel ≤ input.currentOffset)

def seek (input : TSFileInputBuffered Packet) (pos : UInt64) : Bool × TSFileInputBuffered Packet :=
  if input.canSeek pos then
    (true, input.moveTo
      ((input.currentOffset + pos.toNat - input.getPacketCount : ℤ) % 2 ^ 64).toNat)
  else (false, input)

def seekBackward (input : TSFileInputBuffered Packet) (packetCount : UInt64) :
    Bool × TSFileInputBuffered Packet :=
  if packetCount.toNat > input.currentOffset then (false, input)
  else (true, input.moveTo (input.currentOffset - packetCount.toNat))

def seekForward (input : TSFileInputBuffered Packet) (packetCount : UInt64) :
    Bool × TSFileInputBuffered Packet :=
  let offset := (input.currentOffset + packetCount.toNat) % 2 ^ 64
  if offset > input.totalCount then (false, input)
  else (true, input.moveTo offset)

/-! ### Reading -/

def currentIndex (input : TSFileInputBuffered Packet) : ℕ :=
  (input.firstIndex + input.currentOffset) % input.bufferSize

/-- The number of packets up to the end of the buffer. -/
def chunk (input : TSFileInputBuffered Packet) (maxPackets : ℕ) : ℕ :=
  min maxPackets (input.bufferSize - input.currentIndex)

/-- Reads from the buffer, with what is still to read. -/
def readBuffer : ℕ → TSFileInputBuffered Packet → ℕ → List Packet × TSFileInputBuffered Packet × ℕ
  | 0, input, maxPackets => ([], input, maxPackets)
  | iterations + 1, input, maxPackets =>
    if input.currentOffset < input.totalCount ∧ maxPackets > 0 then
      let count := input.chunk maxPackets
      let others := readBuffer iterations (input.moveTo (input.currentOffset + count))
        (maxPackets - count)
      ((List.range count).map (fun offset ↦ input.buffer (input.currentIndex + offset)) ++ others.1,
        others.2)
    else ([], input, maxPackets)

def fillFree : ℕ → TSFileInputBuffered Packet → List Packet →
    TSFileInputBuffered Packet × List Packet
  | 0, input, packets => (input, packets)
  | iterations + 1, input, packets =>
    if packets.length > 0 ∧ input.totalCount < input.bufferSize then
      let index := (input.firstIndex + input.totalCount) % input.bufferSize
      let count := min packets.length (input.bufferSize - index)
      fillFree iterations
        { input with
          buffer := write input.buffer index (packets.take count)
          totalCount := input.totalCount + count
          currentOffset := input.currentOffset + count } (packets.drop count)
    else (input, packets)

def override : ℕ → TSFileInputBuffered Packet → List Packet → TSFileInputBuffered Packet
  | 0, input, _ => input
  | iterations + 1, input, packets =>
    if packets.length > 0 then
      let count := min packets.length (input.bufferSize - input.firstIndex)
      override iterations
        { input with
          buffer := write input.buffer input.firstIndex (packets.take count)
          firstIndex := (input.firstIndex + count) % input.bufferSize } (packets.drop count)
    else input

def keepPackets (input : TSFileInputBuffered Packet) (packets : List Packet) :
    TSFileInputBuffered Packet :=
  if packets.length ≥ input.bufferSize then
    { input with
      buffer := write input.buffer 0 (packets.drop (packets.length - input.bufferSize))
      firstIndex := 0
      currentOffset := input.bufferSize
      totalCount := input.bufferSize }
  else
    let filled := fillFree packets.length input packets
    override filled.2.length filled.1 filled.2

def read (input : TSFileInputBuffered Packet) (maxPackets : ℕ) :
    List Packet × TSFileInputBuffered Packet :=
  let first := readBuffer maxPackets input maxPackets
  let user := first.2.1.file.read first.2.2
  (first.1 ++ user.1, keepPackets { first.2.1 with file := user.2 } user.1)

/-! ### Calls -/

inductive Call
  | read (maxPackets : ℕ)
  | seek (pos : UInt64)
  | seekBackward (packetCount : UInt64)
  | seekForward (packetCount : UInt64)

/-- The result of a call. -/
inductive Answer (Packet : Type u)
  | packets (buffer : List Packet)
  | status (success : Bool)

def perform (input : TSFileInputBuffered Packet) :
    Call → Answer Packet × TSFileInputBuffered Packet
  | .read maxPackets => (.packets (input.read maxPackets).1, (input.read maxPackets).2)
  | .seek pos => (.status (input.seek pos).1, (input.seek pos).2)
  | .seekBackward packetCount =>
    (.status (input.seekBackward packetCount).1, (input.seekBackward packetCount).2)
  | .seekForward packetCount =>
    (.status (input.seekForward packetCount).1, (input.seekForward packetCount).2)

/-- The indexes are in their ranges. -/
structure InRange (input : TSFileInputBuffered Packet) : Prop where
  firstIndex_lt : input.firstIndex < input.bufferSize
  currentOffset_le : input.currentOffset ≤ input.totalCount
  totalCount_le : input.totalCount ≤ input.bufferSize

/-- A seek moves the position to the requested one, or does not move it. -/
def Moves (input next : TSFileInputBuffered Packet) (success : Bool) (requested : ℤ) : Prop :=
  (next.getPacketCount : ℤ) = if success then requested else input.getPacketCount

/-- A call does what it does on the plain file with these packets. -/
def IsFaithful (packets : List Packet) (input next : TSFileInputBuffered Packet) :
    Call → Answer Packet → Prop
  | .read maxPackets, .packets buffer =>
    buffer = (packets.drop input.getPacketCount).take maxPackets ∧
      next.getPacketCount = input.getPacketCount + buffer.length
  | .seek pos, .status success =>
    success = input.canSeek pos ∧ Moves input next success pos.toNat
  | .seekBackward packetCount, .status success =>
    Moves input next success (input.getPacketCount - packetCount.toNat)
  | .seekForward packetCount, .status success =>
    Moves input next success (input.getPacketCount + packetCount.toNat)
  | _, _ => False

/-- The calls do what they do on the plain file. -/
def Follows (packets : List Packet) : TSFileInputBuffered Packet → List Call → Prop
  | input, [] => input.InRange
  | input, call :: calls =>
    input.InRange ∧ IsFaithful packets input (input.perform call).2 call (input.perform call).1 ∧
      Follows packets (input.perform call).2 calls

/-- Only packets of the buffer are read, without overflow. -/
def IsSafe (input : TSFileInputBuffered Packet) : Call → Prop
  | .read maxPackets =>
    input.currentOffset = input.totalCount ∨ maxPackets ≤ input.totalCount - input.currentOffset ∨
      input.firstIndex = 0 ∧ input.totalCount = input.bufferSize
  | .seekForward packetCount => input.currentOffset + packetCount.toNat < 2 ^ 64
  | _ => True

instance decidableIsSafe (input : TSFileInputBuffered Packet) :
    (call : Call) → Decidable (input.IsSafe call)
  | .read maxPackets => inferInstanceAs (Decidable (input.currentOffset = input.totalCount ∨
      maxPackets ≤ input.totalCount - input.currentOffset ∨
      input.firstIndex = 0 ∧ input.totalCount = input.bufferSize))
  | .seek _ => isTrue trivial
  | .seekBackward _ => isTrue trivial
  | .seekForward packetCount =>
    inferInstanceAs (Decidable (input.currentOffset + packetCount.toNat < 2 ^ 64))

/-- All calls of a sequence are safe in the state before them. -/
def AllSafe : TSFileInputBuffered Packet → List Call → Prop
  | _, [] => True
  | input, call :: calls => input.IsSafe call ∧ AllSafe (input.perform call).2 calls

instance decidableAllSafe :
    (input : TSFileInputBuffered Packet) → (calls : List Call) → Decidable (input.AllSafe calls)
  | _, [] => isTrue trivial
  | input, call :: calls =>
    have := decidableAllSafe (input.perform call).2 calls
    inferInstanceAs (Decidable (input.IsSafe call ∧ AllSafe (input.perform call).2 calls))

def kept (input : TSFileInputBuffered Packet) : List Packet :=
  contents input.buffer input.bufferSize input.firstIndex input.totalCount

/-- The buffer starts at its first slot as long as it is not full. -/
structure Circular (input : TSFileInputBuffered Packet) : Prop extends input.InRange where
  firstIndex_eq : input.totalCount < input.bufferSize → input.firstIndex = 0

/-- The buffer holds the last packets which were read from the file. -/
structure Sound (input : TSFileInputBuffered Packet) : Prop extends input.Circular where
  totalCount_le_total : input.totalCount ≤ input.file.totalPackets
  totalPackets_le : input.file.totalPackets ≤ input.file.packets.length
  kept_eq : input.kept = (input.file.packets.take input.file.totalPackets).drop
    (input.file.totalPackets - input.totalCount)

variable {input : TSFileInputBuffered Packet}

theorem bufferSize_pos (input : TSFileInputBuffered Packet) : 0 < input.bufferSize :=
  (Nat.succ_pos 15).trans_le input.bufferSize_ge

theorem sound_openFile (packets : List Packet) (hlength : packets.length < 2 ^ 63)
    (slots : ℕ → Packet) (bufferSize : ℕ) (hsize : bufferSize < 2 ^ 63) :
    (openFile packets hlength slots bufferSize hsize).Sound where
  firstIndex_lt := bufferSize_pos _
  currentOffset_le := le_rfl
  totalCount_le := Nat.zero_le _
  firstIndex_eq := fun _ ↦ rfl
  totalCount_le_total := le_rfl
  totalPackets_le := Nat.zero_le _
  kept_eq := rfl

@[simp] theorem length_kept (input : TSFileInputBuffered Packet) :
    input.kept.length = input.totalCount :=
  length_contents

/-! ### Reading from the buffer -/

theorem readBuffer_end {maxPackets : ℕ}
    (hend : input.totalCount ≤ input.currentOffset ∨ maxPackets = 0) (iterations : ℕ) :
    readBuffer iterations input maxPackets = ([], input, maxPackets) := by
  cases iterations with
  | zero => rfl
  | succ iterations =>
    rw [readBuffer, if_neg]
    omega

theorem readBuffer_succ {iterations maxPackets : ℕ}
    (hmore : input.currentOffset < input.totalCount ∧ maxPackets > 0) :
    readBuffer (iterations + 1) input maxPackets = ((List.range (input.chunk maxPackets)).map
          (fun offset ↦ input.buffer (input.currentIndex + offset)) ++
        (readBuffer iterations (input.moveTo (input.currentOffset + input.chunk maxPackets))
          (maxPackets - input.chunk maxPackets)).1,
      (readBuffer iterations (input.moveTo (input.currentOffset + input.chunk maxPackets))
        (maxPackets - input.chunk maxPackets)).2) := by
  rw [readBuffer, if_pos hmore]

theorem currentIndex_lt (input : TSFileInputBuffered Packet) :
    input.currentIndex < input.bufferSize :=
  Nat.mod_lt _ input.bufferSize_pos

theorem map_range_eq (hcircular : input.Circular) {count : ℕ}
    (hcount : count ≤ input.totalCount - input.currentOffset)
    (hend : input.currentIndex + count ≤ input.bufferSize) :
    (List.range count).map (fun offset ↦ input.buffer (input.currentIndex + offset)) =
      (input.kept.drop input.currentOffset).take count := by
  have hsplit : input.kept = contents input.buffer input.bufferSize input.firstIndex
      input.currentOffset ++ contents input.buffer input.bufferSize input.currentIndex
        (input.totalCount - input.currentOffset) := by
    rw [currentIndex, ← contents_add, Nat.add_sub_cancel' hcircular.currentOffset_le]
    rfl
  rw [← contents_contiguous hend, hsplit, List.drop_left' length_contents, take_contents hcount]

theorem circular_moveTo (hcircular : input.Circular) {offset : ℕ}
    (hle : offset ≤ input.totalCount) : (input.moveTo offset).Circular :=
  { hcircular with currentOffset_le := hle }

theorem readBuffer_of_le (hcircular : input.Circular) {iterations maxPackets : ℕ}
    (hiterations : maxPackets ≤ iterations)
    (hmax : maxPackets ≤ input.totalCount - input.currentOffset) :
    readBuffer iterations input maxPackets = ((input.kept.drop input.currentOffset).take maxPackets,
        input.moveTo (input.currentOffset + maxPackets), 0) := by
  induction iterations generalizing input maxPackets with
  | zero =>
    rw [Nat.le_zero.mp hiterations]
    rfl
  | succ iterations ih =>
    by_cases hmore : input.currentOffset < input.totalCount ∧ maxPackets > 0
    · have hindex := input.currentIndex_lt
      have hchunk : input.chunk maxPackets = min maxPackets (input.bufferSize - input.currentIndex) :=
        rfl
      rw [readBuffer_succ hmore]
      generalize input.chunk maxPackets = count at hchunk
      have hnext := circular_moveTo hcircular (show input.currentOffset + count ≤ _ by omega)
      rw [map_range_eq hcircular (by omega) (by omega), ih hnext (by omega)
        (show maxPackets - count ≤ input.totalCount - (input.currentOffset + count) by omega)]
      have htotal : maxPackets = count + (maxPackets - count) := by omega
      refine Prod.ext ?_ (Prod.ext ?_ rfl)
      · show (input.kept.drop input.currentOffset).take count ++
          (input.kept.drop (input.currentOffset + count)).take (maxPackets - count) =
            (input.kept.drop input.currentOffset).take maxPackets
        conv_rhs => rw [htotal, List.take_add, List.drop_drop]
      · show input.moveTo (input.currentOffset + count + (maxPackets - count)) = _
        rw [Nat.add_assoc, ← htotal]
    · have hzero : maxPackets = 0 := by omega
      rw [readBuffer, if_neg hmore, hzero]
      rfl

theorem readBuffer_of_isSafe (hcircular : input.Circular) {maxPackets : ℕ}
    (hsafe : input.IsSafe (.read maxPackets)) :
    readBuffer maxPackets input maxPackets = ((input.kept.drop input.currentOffset).take maxPackets,
        input.moveTo (min (input.currentOffset + maxPackets) input.totalCount),
        maxPackets - (input.totalCount - input.currentOffset)) := by
  have hoffset := hcircular.currentOffset_le
  rcases Nat.lt_or_ge (input.totalCount - input.currentOffset) maxPackets with hlarge | hle
  · have hall : (input.kept.drop input.currentOffset).take maxPackets =
        input.kept.drop input.currentOffset := by
      rw [List.take_of_length_le]
      rw [List.length_drop, length_kept]
      exact hlarge.le
    rw [hall, Nat.min_eq_right (by omega)]
    rcases hoffset.lt_or_eq with hlt | heq
    · obtain ⟨hfirst, hfull⟩ : input.firstIndex = 0 ∧ input.totalCount = input.bufferSize := by
        rcases hsafe with heq | hsmall | hend
        · omega
        · omega
        · exact hend
      obtain ⟨iterations, hiterations⟩ := Nat.exists_eq_succ_of_ne_zero
        (show maxPackets ≠ 0 by omega)
      have hindex : input.currentIndex = input.currentOffset := by
        rw [currentIndex, hfirst, Nat.zero_add, Nat.mod_eq_of_lt (by omega)]
      have hchunk : input.chunk maxPackets = input.totalCount - input.currentOffset := by
        rw [chunk, hindex]
        omega
      have hread := map_range_eq hcircular (le_refl (input.totalCount - input.currentOffset))
        (by rw [hindex]; omega)
      rw [List.take_of_length_le (by rw [List.length_drop, length_kept])] at hread
      have hsum : input.currentOffset + (input.totalCount - input.currentOffset) =
          input.totalCount := by
        omega
      conv_lhs => rw [hiterations, Nat.succ_eq_add_one]
      rw [readBuffer_succ ⟨hlt, by omega⟩, ← Nat.succ_eq_add_one, ← hiterations, hchunk, hread, hsum,
        readBuffer_end (Or.inl le_rfl), List.append_nil]
    · rw [readBuffer_end (Or.inl heq.ge), List.drop_eq_nil_of_le (by rw [length_kept, heq]), ← heq,
        Nat.sub_self, Nat.sub_zero]
      rfl
  · rw [readBuffer_of_le hcircular le_rfl hle, Nat.min_eq_left (by omega),
      Nat.sub_eq_zero_of_le hle]

theorem lt_readBuffer (hcircular : input.Circular) {maxPackets : ℕ}
    (hnot : ¬input.IsSafe (.read maxPackets)) :
    (readBuffer maxPackets input maxPackets).2.1.currentOffset >
      (readBuffer maxPackets input maxPackets).2.1.totalCount := by
  rw [IsSafe, not_or, not_or, not_le, not_and] at hnot
  obtain ⟨hne, hlarge, hnotfull⟩ := hnot
  have hoffset := hcircular.currentOffset_le
  have hfirst_lt := hcircular.firstIndex_lt
  have htotal := hcircular.totalCount_le
  have hindex := input.currentIndex_lt
  have hchunk : input.chunk maxPackets = min maxPackets (input.bufferSize - input.currentIndex) :=
    rfl
  obtain ⟨iterations, hiterations⟩ := Nat.exists_eq_succ_of_ne_zero (show maxPackets ≠ 0 by omega)
  have hfirst := @readBuffer_succ _ input iterations maxPackets ⟨by omega, by omega⟩
  rw [← Nat.succ_eq_add_one, ← hiterations] at hfirst
  rw [hfirst]
  generalize input.chunk maxPackets = count at hchunk
  rcases Nat.lt_or_ge (input.totalCount - input.currentOffset) count with hover | hinside
  · rw [readBuffer_end (Or.inl (show input.totalCount ≤ input.currentOffset + count by omega))]
    show input.currentOffset + count > input.totalCount
    omega
  · -- The first iteration stops at the end of the circular buffer, inside its packets.
    have hfull : input.totalCount = input.bufferSize := by
      by_contra hnot
      have hzero := hcircular.firstIndex_eq (by omega)
      rw [currentIndex, hzero, Nat.zero_add, Nat.mod_eq_of_lt (by omega)] at hchunk
      omega
    have hpos : input.firstIndex ≠ 0 := fun hzero ↦ hnotfull hzero hfull
    have hcurrent : input.currentIndex = input.firstIndex + input.currentOffset := by
      rw [currentIndex]
      by_contra hnot
      have hwraps : input.bufferSize ≤ input.firstIndex + input.currentOffset := by
        by_contra hlt
        exact hnot (Nat.mod_eq_of_lt (Nat.not_le.mp hlt))
      rw [currentIndex, Nat.mod_eq_sub_mod hwraps, Nat.mod_eq_of_lt (by omega)] at hchunk
      omega
    have hzero : (input.moveTo (input.currentOffset + count)).currentIndex = 0 := by
      have hend : input.firstIndex + (input.currentOffset + count) = input.bufferSize := by omega
      show (input.firstIndex + (input.currentOffset + count)) % input.bufferSize = 0
      rw [hend, Nat.mod_self]
    have hsecond : (input.moveTo (input.currentOffset + count)).chunk (maxPackets - count) =
        min (maxPackets - count) input.bufferSize := by
      rw [chunk, hzero, Nat.sub_zero]
      rfl
    obtain ⟨others, hothers⟩ := Nat.exists_eq_succ_of_ne_zero (show iterations ≠ 0 by omega)
    rw [hothers, Nat.succ_eq_add_one, readBuffer_succ
      ⟨show input.currentOffset + count < input.totalCount by omega, by omega⟩, hsecond,
      readBuffer_end (Or.inl (show input.totalCount ≤
        input.currentOffset + count + min (maxPackets - count) input.bufferSize by omega))]
    show input.currentOffset + count + min (maxPackets - count) input.bufferSize > input.totalCount
    omega

/-! ### Keeping packets -/

/-- The buffer takes packets from the file after its own. -/
structure Keeps (input next : TSFileInputBuffered Packet) (packets : List Packet) : Prop
    extends next.Circular where
  file_eq : next.file = input.file
  bufferSize_eq : next.bufferSize = input.bufferSize
  currentOffset_eq : next.currentOffset = next.totalCount
  totalCount_eq : next.totalCount = min input.bufferSize (input.totalCount + packets.length)
  kept_eq : next.kept =
    (input.kept ++ packets).drop (input.totalCount + packets.length - next.totalCount)

variable {next last : TSFileInputBuffered Packet} {packets more : List Packet}

theorem keeps_nil (hcircular : input.Circular) (hend : input.currentOffset = input.totalCount) :
    Keeps input input [] where
  toCircular := hcircular
  file_eq := rfl
  bufferSize_eq := rfl
  currentOffset_eq := hend
  totalCount_eq := (Nat.min_eq_right hcircular.totalCount_le).symm
  kept_eq := by rw [List.length_nil, Nat.add_zero, Nat.sub_self, List.append_nil, List.drop_zero]

theorem Keeps.append (hfirst : Keeps input next packets) (hsecond : Keeps next last more) :
    Keeps input last (packets ++ more) where
  toCircular := hsecond.toCircular
  file_eq := hsecond.file_eq.trans hfirst.file_eq
  bufferSize_eq := hsecond.bufferSize_eq.trans hfirst.bufferSize_eq
  currentOffset_eq := hsecond.currentOffset_eq
  totalCount_eq := by
    rw [hsecond.totalCount_eq, hfirst.totalCount_eq, hfirst.bufferSize_eq, List.length_append]
    omega
  kept_eq := by
    have hnext := hfirst.totalCount_eq
    have hlast := hsecond.totalCount_eq
    rw [hfirst.bufferSize_eq] at hlast
    have hshort : input.totalCount + packets.length - next.totalCount ≤
        (input.kept ++ packets).length := by
      rw [List.length_append, length_kept]
      exact Nat.sub_le _ _
    rw [hsecond.kept_eq, hfirst.kept_eq, ← List.drop_append_of_le_length hshort, List.drop_drop,
      List.append_assoc, List.length_append]
    congr 1
    omega

theorem keeps_fill (hcircular : input.Circular) (hend : input.currentOffset = input.totalCount)
    (hfit : packets.length ≤ input.bufferSize - input.totalCount) (hpos : 0 < packets.length) :
    Keeps input
      { input with
        buffer := write input.buffer ((input.firstIndex + input.totalCount) % input.bufferSize)
          packets
        totalCount := input.totalCount + packets.length
        currentOffset := input.currentOffset + packets.length } packets := by
  have htotal := hcircular.totalCount_le
  have hfirst := hcircular.firstIndex_eq (by omega)
  have hindex : (input.firstIndex + input.totalCount) % input.bufferSize = input.totalCount := by
    rw [hfirst, Nat.zero_add, Nat.mod_eq_of_lt (by omega)]
  have hbefore : input.totalCount + packets.length ≤ input.bufferSize := by omega
  have hslots : (input.firstIndex + input.totalCount) % input.bufferSize + packets.length ≤
      input.bufferSize := by
    rwa [hindex]
  exact {
    firstIndex_lt := hcircular.firstIndex_lt
    currentOffset_le := Nat.add_le_add_right hcircular.currentOffset_le _
    totalCount_le := hbefore
    firstIndex_eq := fun _ ↦ hfirst
    file_eq := rfl
    bufferSize_eq := rfl
    currentOffset_eq := congrArg (· + packets.length) hend
    totalCount_eq := (Nat.min_eq_right hbefore).symm
    kept_eq := by
      show contents _ input.bufferSize input.firstIndex (input.totalCount + packets.length) =
        (input.kept ++ packets).drop
          (input.totalCount + packets.length - (input.totalCount + packets.length))
      rw [contents_add, contents_write hbefore hslots, contents_written hslots, Nat.sub_self,
        List.drop_zero]
      rfl }

theorem keeps_override (hcircular : input.Circular) (hend : input.currentOffset = input.totalCount)
    (hfull : input.totalCount = input.bufferSize)
    (hfit : packets.length ≤ input.bufferSize - input.firstIndex) :
    Keeps input
      { input with
        buffer := write input.buffer input.firstIndex packets
        firstIndex := (input.firstIndex + packets.length) % input.bufferSize } packets := by
  have hfirst := hcircular.firstIndex_lt
  have hslots : input.firstIndex + packets.length ≤ input.bufferSize := by omega
  -- The slots which are written are those after the packets which stay.
  have hindex : ((input.firstIndex + packets.length) % input.bufferSize +
      (input.bufferSize - packets.length)) % input.bufferSize = input.firstIndex := by
    rw [Nat.mod_add_mod, show input.firstIndex + packets.length +
      (input.bufferSize - packets.length) = input.firstIndex + input.bufferSize by omega,
      Nat.add_mod_right, Nat.mod_eq_of_lt hfirst]
  exact {
    firstIndex_lt := Nat.mod_lt _ input.bufferSize_pos
    currentOffset_le := hcircular.currentOffset_le
    totalCount_le := hcircular.totalCount_le
    firstIndex_eq := fun hlt ↦ absurd hfull hlt.ne
    file_eq := rfl
    bufferSize_eq := rfl
    currentOffset_eq := hend
    totalCount_eq := by
      show input.totalCount = _
      rw [hfull, Nat.min_eq_left (Nat.le_add_right _ _)]
    kept_eq := by
      have hsplit : input.totalCount = input.bufferSize - packets.length + packets.length := by
        omega
      have hkeep := @contents_write _ input.buffer input.bufferSize
        ((input.firstIndex + packets.length) % input.bufferSize)
        (input.bufferSize - packets.length) packets (by omega) (by rwa [hindex])
      rw [hindex] at hkeep
      have hrelease := @contents_release _ input.buffer input.bufferSize input.firstIndex
        input.bufferSize packets.length (by omega)
      show contents _ input.bufferSize _ input.totalCount =
        (input.kept ++ packets).drop (input.totalCount + packets.length - input.totalCount)
      conv_lhs => rw [hsplit]
      rw [contents_add, hindex, hkeep, contents_written hslots, hrelease, Nat.add_sub_cancel_left,
        List.drop_append_of_le_length (by rw [length_kept]; omega), kept, hfull] }

theorem keeps_fillFree (hcircular : input.Circular) (hend : input.currentOffset = input.totalCount)
    {iterations : ℕ} (hiterations : packets.length ≤ iterations) :
    ∃ taken, packets = taken ++ (fillFree iterations input packets).2 ∧
      Keeps input (fillFree iterations input packets).1 taken ∧
      ((fillFree iterations input packets).2 = [] ∨
        (fillFree iterations input packets).1.totalCount = input.bufferSize) := by
  induction iterations generalizing input packets with
  | zero =>
    exact ⟨[], rfl, keeps_nil hcircular hend, Or.inl (List.length_eq_zero_iff.mp
      (Nat.le_zero.mp hiterations))⟩
  | succ iterations ih =>
    by_cases hmore : packets.length > 0 ∧ input.totalCount < input.bufferSize
    · have hindex : (input.firstIndex + input.totalCount) % input.bufferSize = input.totalCount := by
        rw [hcircular.firstIndex_eq hmore.2, Nat.zero_add, Nat.mod_eq_of_lt hmore.2]
      have hcount : (packets.take (min packets.length (input.bufferSize - input.totalCount))).length =
          min packets.length (input.bufferSize - input.totalCount) := by
        rw [List.length_take]
        omega
      have hfill := @keeps_fill _ input
        (packets.take (min packets.length (input.bufferSize - input.totalCount))) hcircular hend
        (by rw [hcount]; omega) (by rw [hcount]; omega)
      rw [hcount] at hfill
      rw [fillFree, if_pos hmore, hindex]
      rw [hindex] at hfill
      obtain ⟨taken, hpackets, hkeeps, hlast⟩ := ih hfill.toCircular hfill.currentOffset_eq
        (show (packets.drop (min packets.length (input.bufferSize - input.totalCount))).length ≤
          iterations by rw [List.length_drop]; omega)
      refine ⟨_, ?_, hfill.append hkeeps, hlast⟩
      rw [List.append_assoc, ← hpackets, List.take_append_drop]
    · rw [fillFree, if_neg hmore]
      refine ⟨[], rfl, keeps_nil hcircular hend, ?_⟩
      rcases Nat.eq_zero_or_pos packets.length with hnil | hpos
      · exact Or.inl (List.length_eq_zero_iff.mp hnil)
      · exact Or.inr (hcircular.totalCount_le.antisymm (Nat.not_lt.mp fun hlt ↦ hmore ⟨hpos, hlt⟩))

theorem keeps_overrideAll (hcircular : input.Circular)
    (hend : input.currentOffset = input.totalCount)
    (hfull : packets = [] ∨ input.totalCount = input.bufferSize)
    {iterations : ℕ} (hiterations : packets.length ≤ iterations) :
    Keeps input (override iterations input packets) packets := by
  induction iterations generalizing input packets with
  | zero =>
    rw [List.length_eq_zero_iff.mp (Nat.le_zero.mp hiterations)]
    exact keeps_nil hcircular hend
  | succ iterations ih =>
    by_cases hmore : packets.length > 0
    · have hsize : input.totalCount = input.bufferSize := by
        refine hfull.resolve_left fun hnil ↦ ?_
        rw [hnil] at hmore
        exact absurd hmore (Nat.lt_irrefl 0)
      have hcount : (packets.take (min packets.length (input.bufferSize - input.firstIndex))).length =
          min packets.length (input.bufferSize - input.firstIndex) := by
        rw [List.length_take]
        omega
      have hfirst := hcircular.firstIndex_lt
      have hover := @keeps_override _ input
        (packets.take (min packets.length (input.bufferSize - input.firstIndex))) hcircular hend
        hsize (by rw [hcount]; omega)
      rw [hcount] at hover
      have hothers := ih hover.toCircular hover.currentOffset_eq (Or.inr hsize)
        (show (packets.drop (min packets.length (input.bufferSize - input.firstIndex))).length ≤
          iterations by rw [List.length_drop]; omega)
      have happend := hover.append hothers
      rw [List.take_append_drop] at happend
      rw [override, if_pos hmore]
      exact happend
    · rw [override, if_neg hmore, List.length_eq_zero_iff.mp (Nat.eq_zero_of_not_pos hmore)]
      exact keeps_nil hcircular hend

theorem keeps_keepPackets (hcircular : input.Circular)
    (hend : input.currentOffset = input.totalCount) (packets : List Packet) :
    Keeps input (input.keepPackets packets) packets := by
  rw [keepPackets]
  split_ifs with hlarge
  · have hlength : (packets.drop (packets.length - input.bufferSize)).length = input.bufferSize := by
      rw [List.length_drop]
      omega
    exact {
      firstIndex_lt := input.bufferSize_pos
      currentOffset_le := le_rfl
      totalCount_le := le_rfl
      firstIndex_eq := fun _ ↦ rfl
      file_eq := rfl
      bufferSize_eq := rfl
      currentOffset_eq := rfl
      totalCount_eq := (Nat.min_eq_left (hlarge.trans (Nat.le_add_left _ _))).symm
      kept_eq := by
        have hwritten := @contents_written _ input.buffer input.bufferSize
          (packets.drop (packets.length - input.bufferSize)) 0 (by rw [Nat.zero_add, hlength])
        rw [hlength] at hwritten
        have hold : input.kept.drop (input.totalCount + (packets.length - input.bufferSize)) = [] := by
          rw [List.drop_eq_nil_iff, length_kept]
          exact Nat.le_add_right _ _
        show contents _ input.bufferSize 0 input.bufferSize = (input.kept ++ packets).drop
          (input.totalCount + packets.length - input.bufferSize)
        rw [hwritten, Nat.add_sub_assoc hlarge, List.drop_append, length_kept,
          Nat.add_sub_cancel_left, hold, List.nil_append] }
  · obtain ⟨taken, hpackets, hkeeps, hlast⟩ := keeps_fillFree hcircular hend (le_refl packets.length)
    have hover := keeps_overrideAll hkeeps.toCircular hkeeps.currentOffset_eq
      (by rwa [hkeeps.bufferSize_eq]) (le_refl (fillFree packets.length input packets).2.length)
    conv => arg 3; rw [hpackets]
    exact hkeeps.append hover

theorem currentOffset_fillFree (iterations : ℕ) (input : TSFileInputBuffered Packet)
    (packets : List Packet) :
    ((fillFree iterations input packets).1.currentOffset : ℤ) -
        (fillFree iterations input packets).1.totalCount =
      input.currentOffset - input.totalCount := by
  induction iterations generalizing input packets with
  | zero => rfl
  | succ iterations ih =>
    rw [fillFree]
    split_ifs
    · refine (ih _ _).trans ?_
      dsimp only
      omega
    · rfl

theorem currentOffset_override (iterations : ℕ) (input : TSFileInputBuffered Packet)
    (packets : List Packet) :
    ((override iterations input packets).currentOffset : ℤ) -
        (override iterations input packets).totalCount =
      input.currentOffset - input.totalCount := by
  induction iterations generalizing input packets with
  | zero => rfl
  | succ iterations ih =>
    rw [override]
    split_ifs
    · exact ih _ _
    · rfl

theorem currentOffset_keepPackets (input : TSFileInputBuffered Packet)
    (hsmall : packets.length < input.bufferSize) :
    ((input.keepPackets packets).currentOffset : ℤ) - (input.keepPackets packets).totalCount =
      input.currentOffset - input.totalCount := by
  rw [keepPackets, if_neg (Nat.not_le.mpr hsmall)]
  exact (currentOffset_override _ _ _).trans (currentOffset_fillFree _ _ _)

/-! ### Reading and seeking -/

theorem Sound.getPacketCount_eq (hsound : input.Sound) :
    input.getPacketCount + (input.totalCount - input.currentOffset) = input.file.totalPackets := by
  have htotal := hsound.totalCount_le_total
  rw [getPacketCount]
  omega

theorem Sound.drop_kept (hsound : input.Sound) :
    input.kept.drop input.currentOffset =
      (input.file.packets.take input.file.totalPackets).drop input.getPacketCount := by
  have hcount := hsound.getPacketCount_eq
  have htotal := hsound.totalCount_le_total
  have hoffset := hsound.currentOffset_le
  rw [hsound.kept_eq, List.drop_drop]
  congr 1
  omega

theorem Sound.moveTo (hsound : input.Sound) {offset : ℕ} (hle : offset ≤ input.totalCount) :
    (input.moveTo offset).Sound :=
  { hsound with currentOffset_le := hle }

theorem Sound.getPacketCount_moveTo (hsound : input.Sound) {offset : ℕ}
    (hle : offset ≤ input.totalCount) :
    ((input.moveTo offset).getPacketCount : ℤ) =
      input.getPacketCount + offset - input.currentOffset := by
  have hbefore := hsound.getPacketCount_eq
  have hafter := (hsound.moveTo hle).getPacketCount_eq
  have hoffset := hsound.currentOffset_le
  have hafter' : (input.moveTo offset).getPacketCount + (input.totalCount - offset) =
      input.file.totalPackets :=
    hafter
  omega

theorem Sound.take_append (hsound : input.Sound) (maxPackets : ℕ) :
    (input.kept.drop input.currentOffset).take maxPackets ++
        (input.file.packets.drop input.file.totalPackets).take
          (maxPackets - (input.totalCount - input.currentOffset)) =
      (input.file.packets.drop input.getPacketCount).take maxPackets := by
  have hcount := hsound.getPacketCount_eq
  have htotal := hsound.totalPackets_le
  have hlength : (input.kept.drop input.currentOffset).length =
      input.totalCount - input.currentOffset := by
    rw [List.length_drop, length_kept]
  have hsplit : input.file.packets.drop input.getPacketCount =
      input.kept.drop input.currentOffset ++ input.file.packets.drop input.file.totalPackets := by
    conv_lhs => rw [← List.take_append_drop input.file.totalPackets input.file.packets]
    rw [hsound.drop_kept, List.drop_append_of_le_length]
    rw [List.length_take]
    omega
  rw [hsplit, List.take_append, hlength]

theorem keepPackets_nil (input : TSFileInputBuffered Packet) : input.keepPackets [] = input :=
  if_neg (Nat.not_le.mpr input.bufferSize_pos)

theorem length_read_le (file : TSFileInput Packet) (maxPackets : ℕ) :
    (file.read maxPackets).1.length ≤ file.packets.length - file.totalPackets := by
  rw [TSFileInput.read, List.length_take, List.length_drop]
  exact Nat.min_le_right _ _

theorem sound_keepPackets (hsound : input.Sound) (hend : input.currentOffset = input.totalCount)
    (maxPackets : ℕ) :
    (keepPackets { input with file := (input.file.read maxPackets).2 }
      (input.file.read maxPackets).1).Sound := by
  have hlength := length_read_le input.file maxPackets
  have hread : (input.file.read maxPackets).1 =
      (input.file.packets.drop input.file.totalPackets).take maxPackets :=
    rfl
  have hkeeps := @keeps_keepPackets _ { input with file := (input.file.read maxPackets).2 }
    { hsound.toCircular with } hend (input.file.read maxPackets).1
  generalize (input.file.read maxPackets).1 = user at hkeeps hlength hread
  generalize keepPackets { input with file := _ } user = next at hkeeps ⊢
  have hfile : next.file = { input.file with
      totalPackets := input.file.totalPackets + user.length } := by
    rw [hkeeps.file_eq, hread]
    rfl
  have hcount := hkeeps.totalCount_eq
  dsimp only at hcount
  have htotal := hsound.totalCount_le_total
  have hpackets := hsound.totalPackets_le
  have htake : input.file.packets.take (input.file.totalPackets + user.length) =
      input.file.packets.take input.file.totalPackets ++ user := by
    rw [List.take_add, hread, List.length_take, ← List.take_take, List.take_length]
  exact {
    toCircular := hkeeps.toCircular
    totalCount_le_total := by
      rw [hfile]
      dsimp only
      omega
    totalPackets_le := by
      rw [hfile]
      dsimp only
      omega
    kept_eq := by
      rw [hfile]
      show next.kept = (input.file.packets.take (input.file.totalPackets + user.length)).drop
        (input.file.totalPackets + user.length - next.totalCount)
      rw [hkeeps.kept_eq]
      show (input.kept ++ user).drop (input.totalCount + user.length - next.totalCount) = _
      rw [htake, hsound.kept_eq, ← List.drop_append_of_le_length
        (by rw [List.length_take]; omega), List.drop_drop]
      congr 1
      omega }

theorem getPacketCount_keepPackets (hsound : input.Sound)
    (hend : input.currentOffset = input.totalCount) (maxPackets : ℕ) :
    (keepPackets { input with file := (input.file.read maxPackets).2 }
        (input.file.read maxPackets).1).getPacketCount =
      input.file.totalPackets + (input.file.read maxPackets).1.length := by
  have hkeeps := @keeps_keepPackets _ { input with file := (input.file.read maxPackets).2 }
    { hsound.toCircular with } hend (input.file.read maxPackets).1
  rw [getPacketCount, hkeeps.file_eq, hkeeps.currentOffset_eq, Nat.sub_self, Nat.sub_zero]
  rfl

theorem packets_keepPackets (hsound : input.Sound)
    (hend : input.currentOffset = input.totalCount) (maxPackets : ℕ) :
    (keepPackets { input with file := (input.file.read maxPackets).2 }
      (input.file.read maxPackets).1).file.packets = input.file.packets := by
  have hkeeps := @keeps_keepPackets _ { input with file := (input.file.read maxPackets).2 }
    { hsound.toCircular with } hend (input.file.read maxPackets).1
  rw [hkeeps.file_eq]
  rfl

theorem read_of_le (hsound : input.Sound) {maxPackets : ℕ}
    (hle : maxPackets ≤ input.totalCount - input.currentOffset) :
    input.read maxPackets = ((input.kept.drop input.currentOffset).take maxPackets,
      input.moveTo (input.currentOffset + maxPackets)) := by
  rw [read, readBuffer_of_le hsound.toCircular le_rfl hle]
  exact Prod.ext (List.append_nil _) (keepPackets_nil _)

theorem read_of_ge (hsound : input.Sound) {maxPackets : ℕ} (hsafe : input.IsSafe (.read maxPackets))
    (hge : input.totalCount - input.currentOffset ≤ maxPackets) :
    input.read maxPackets = ((input.kept.drop input.currentOffset).take maxPackets ++
        (input.file.read (maxPackets - (input.totalCount - input.currentOffset))).1,
      keepPackets { input.moveTo input.totalCount with
        file := (input.file.read (maxPackets - (input.totalCount - input.currentOffset))).2 }
        (input.file.read (maxPackets - (input.totalCount - input.currentOffset))).1) := by
  have hoffset := hsound.currentOffset_le
  rw [read, readBuffer_of_isSafe hsound.toCircular hsafe, Nat.min_eq_right (by omega)]
  rfl

theorem read_eq_take (hsound : input.Sound) {maxPackets : ℕ}
    (hsafe : input.IsSafe (.read maxPackets)) :
    (input.read maxPackets).1 = (input.file.packets.drop input.getPacketCount).take maxPackets := by
  rw [← hsound.take_append maxPackets]
  rcases le_total maxPackets (input.totalCount - input.currentOffset) with hle | hge
  · rw [read_of_le hsound hle, Nat.sub_eq_zero_of_le hle, List.take_zero, List.append_nil]
  · rw [read_of_ge hsound hsafe hge]
    rfl

theorem sound_read (hsound : input.Sound) {maxPackets : ℕ}
    (hsafe : input.IsSafe (.read maxPackets)) : (input.read maxPackets).2.Sound := by
  rcases le_total maxPackets (input.totalCount - input.currentOffset) with hle | hge
  · have hoffset := hsound.currentOffset_le
    rw [read_of_le hsound hle]
    exact hsound.moveTo (by omega)
  · rw [read_of_ge hsound hsafe hge]
    exact sound_keepPackets (hsound.moveTo le_rfl) rfl _

theorem packets_read (hsound : input.Sound) {maxPackets : ℕ}
    (hsafe : input.IsSafe (.read maxPackets)) :
    (input.read maxPackets).2.file.packets = input.file.packets := by
  rcases le_total maxPackets (input.totalCount - input.currentOffset) with hle | hge
  · rw [read_of_le hsound hle]
    rfl
  · rw [read_of_ge hsound hsafe hge]
    exact packets_keepPackets (hsound.moveTo le_rfl) rfl _

theorem getPacketCount_read (hsound : input.Sound) {maxPackets : ℕ}
    (hsafe : input.IsSafe (.read maxPackets)) :
    (input.read maxPackets).2.getPacketCount =
      input.getPacketCount + (input.read maxPackets).1.length := by
  have hoffset := hsound.currentOffset_le
  rcases le_total maxPackets (input.totalCount - input.currentOffset) with hle | hge
  · have hmove := hsound.getPacketCount_moveTo
      (show input.currentOffset + maxPackets ≤ input.totalCount by omega)
    rw [read_of_le hsound hle]
    show (input.moveTo (input.currentOffset + maxPackets)).getPacketCount = _
    rw [List.length_take, List.length_drop, length_kept, Nat.min_eq_left hle]
    omega
  · have hcount := hsound.getPacketCount_eq
    rw [read_of_ge hsound hsafe hge]
    show (keepPackets _ _).getPacketCount = _
    rw [List.length_append, List.length_take, List.length_drop, length_kept, Nat.min_eq_right hge,
      ← Nat.add_assoc, hcount]
    exact getPacketCount_keepPackets (hsound.moveTo le_rfl) rfl _

theorem readBuffer_moveTo (iterations : ℕ) (input : TSFileInputBuffered Packet) (maxPackets : ℕ) :
    (readBuffer iterations input maxPackets).2.1 =
      input.moveTo (input.currentOffset + (readBuffer iterations input maxPackets).1.length) := by
  induction iterations generalizing input maxPackets with
  | zero => rfl
  | succ iterations ih =>
    by_cases hmore : input.currentOffset < input.totalCount ∧ maxPackets > 0
    · rw [readBuffer_succ hmore]
      refine (ih _ _).trans ?_
      rw [List.length_append, List.length_map, List.length_range, ← Nat.add_assoc]
      rfl
    · rw [readBuffer, if_neg hmore]
      rfl

theorem keepPackets_of_lt (hpast : input.totalCount < input.currentOffset) (packets : List Packet) :
    ¬(input.keepPackets packets).InRange ∨
      (input.keepPackets packets).getPacketCount = input.file.totalPackets := by
  rcases Nat.lt_or_ge packets.length input.bufferSize with hsmall | hlarge
  · refine Or.inl fun hrange ↦ ?_
    have hoffset := currentOffset_keepPackets input hsmall
    have hle := hrange.currentOffset_le
    omega
  · refine Or.inr ?_
    rw [keepPackets, if_pos hlarge]
    show input.file.totalPackets - (input.bufferSize - input.bufferSize) = _
    rw [Nat.sub_self, Nat.sub_zero]

theorem not_read_of_unsafe (hsound : input.Sound) {maxPackets : ℕ}
    (hnot : ¬input.IsSafe (.read maxPackets)) :
    ¬(input.read maxPackets).2.InRange ∨ (input.read maxPackets).2.getPacketCount ≠
        input.getPacketCount + (input.read maxPackets).1.length := by
  have hpast := lt_readBuffer hsound.toCircular hnot
  have hmove := readBuffer_moveTo maxPackets input maxPackets
  have hcount := hsound.getPacketCount_eq
  have hoffset := hsound.currentOffset_le
  rw [read]
  generalize readBuffer maxPackets input maxPackets = first at hpast hmove
  obtain ⟨before, after, remaining⟩ := first
  dsimp only at hpast hmove ⊢
  subst hmove
  have hpast' : input.totalCount < input.currentOffset + before.length := hpast
  have hkeep := @keepPackets_of_lt _ { input.moveTo (input.currentOffset + before.length) with
    file := (input.file.read remaining).2 } hpast' (input.file.read remaining).1
  refine hkeep.imp id fun hequal ↦ ?_
  refine hequal.trans_ne ?_
  rw [List.length_append]
  show input.file.totalPackets + (input.file.read remaining).1.length ≠
    input.getPacketCount + (before.length + (input.file.read remaining).1.length)
  omega

/-- The positions which are inside the buffer. -/
theorem Sound.canSeek_iff (hsound : input.Sound) (pos : UInt64) :
    input.canSeek pos = true ↔ 0 ≤ (input.currentOffset + pos.toNat - input.getPacketCount : ℤ) ∧
        (input.currentOffset + pos.toNat - input.getPacketCount : ℤ) ≤ input.totalCount := by
  have hcount := hsound.getPacketCount_eq
  have htotal := hsound.totalCount_le_total
  have hpackets := hsound.totalPackets_le
  have hlength := input.file.length_lt
  have hoffset := hsound.currentOffset_le
  have hpos := pos.toNat_lt
  rw [canSeek, Bool.or_eq_true, Bool.and_eq_true, Bool.and_eq_true, decide_eq_true_eq,
    decide_eq_true_eq, decide_eq_true_eq, decide_eq_true_eq, Int.bmod_def]
  split_ifs with hlarge
  · omega
  · omega

theorem Sound.seek_of_canSeek (hsound : input.Sound) {pos : UInt64}
    (hseek : input.canSeek pos = true) :
    ∃ offset ≤ input.totalCount, input.seek pos = (true, input.moveTo offset) ∧
      (offset : ℤ) = input.currentOffset + pos.toNat - input.getPacketCount := by
  obtain ⟨hnonneg, hle⟩ := (hsound.canSeek_iff pos).mp hseek
  have hlt : (input.currentOffset + pos.toNat - input.getPacketCount : ℤ) < 2 ^ 64 := by
    have hsize := input.bufferSize_lt
    have htotal := hsound.totalCount_le
    omega
  refine ⟨(input.currentOffset + pos.toNat - input.getPacketCount : ℤ).toNat, by omega, ?_,
    Int.toNat_of_nonneg hnonneg⟩
  rw [seek, if_pos hseek, Int.emod_eq_of_lt hnonneg hlt]

/-! ### Calls one after the other -/

theorem Sound.moves_moveTo (hsound : input.Sound) {offset : ℕ} (hle : offset ≤ input.totalCount)
    {requested : ℤ}
    (hrequested : input.getPacketCount + offset - input.currentOffset = requested) :
    Moves input (input.moveTo offset) true requested := by
  rw [Moves, if_pos rfl, hsound.getPacketCount_moveTo hle, hrequested]

theorem moves_of_failure (requested : ℤ) : Moves input input false requested := by
  rw [Moves, if_neg Bool.false_ne_true]

/-- What a safe call does in a sound state. -/
structure Steps (input : TSFileInputBuffered Packet) (call : Call) : Prop where
  isFaithful :
    IsFaithful input.file.packets input (input.perform call).2 call (input.perform call).1
  sound : (input.perform call).2.Sound
  packets_eq : (input.perform call).2.file.packets = input.file.packets

theorem steps_read (hsound : input.Sound) {maxPackets : ℕ}
    (hsafe : input.IsSafe (.read maxPackets)) : input.Steps (.read maxPackets) where
  isFaithful := ⟨read_eq_take hsound hsafe, getPacketCount_read hsound hsafe⟩
  sound := sound_read hsound hsafe
  packets_eq := packets_read hsound hsafe

theorem steps_seek (hsound : input.Sound) (pos : UInt64) : input.Steps (.seek pos) := by
  by_cases hseek : input.canSeek pos = true
  · obtain ⟨offset, hle, heq, hoffset⟩ := hsound.seek_of_canSeek hseek
    have hperform : input.perform (.seek pos) = (.status true, input.moveTo offset) := by
      rw [perform, heq]
    refine ⟨?_, ?_, ?_⟩
    · rw [hperform]
      exact ⟨hseek.symm, hsound.moves_moveTo hle (by omega)⟩
    · rw [hperform]
      exact hsound.moveTo hle
    · rw [hperform]
      rfl
  · have hperform : input.perform (.seek pos) = (.status false, input) := by
      rw [perform, seek, if_neg hseek]
    refine ⟨?_, ?_, ?_⟩
    · rw [hperform]
      exact ⟨(Bool.eq_false_of_not_eq_true hseek).symm, moves_of_failure _⟩
    · rw [hperform]
      exact hsound
    · rw [hperform]

theorem steps_seekBackward (hsound : input.Sound) (packetCount : UInt64) :
    input.Steps (.seekBackward packetCount) := by
  have hoffset := hsound.currentOffset_le
  by_cases hfar : packetCount.toNat > input.currentOffset
  · have hperform : input.perform (.seekBackward packetCount) = (.status false, input) := by
      rw [perform, seekBackward, if_pos hfar]
    refine ⟨?_, ?_, ?_⟩
    · rw [hperform]
      exact moves_of_failure _
    · rw [hperform]
      exact hsound
    · rw [hperform]
  · have hperform : input.perform (.seekBackward packetCount) =
        (.status true, input.moveTo (input.currentOffset - packetCount.toNat)) := by
      rw [perform, seekBackward, if_neg hfar]
    refine ⟨?_, ?_, ?_⟩
    · rw [hperform]
      exact hsound.moves_moveTo (by omega) (by omega)
    · rw [hperform]
      exact hsound.moveTo (by omega)
    · rw [hperform]
      rfl

theorem steps_seekForward (hsound : input.Sound) {packetCount : UInt64}
    (hsafe : input.IsSafe (.seekForward packetCount)) :
    input.Steps (.seekForward packetCount) := by
  have hsum : (input.currentOffset + packetCount.toNat) % 2 ^ 64 =
      input.currentOffset + packetCount.toNat :=
    Nat.mod_eq_of_lt hsafe
  by_cases hfar : input.currentOffset + packetCount.toNat > input.totalCount
  · have hperform : input.perform (.seekForward packetCount) = (.status false, input) := by
      rw [perform, seekForward, hsum, if_pos hfar]
    refine ⟨?_, ?_, ?_⟩
    · rw [hperform]
      exact moves_of_failure _
    · rw [hperform]
      exact hsound
    · rw [hperform]
  · have hperform : input.perform (.seekForward packetCount) =
        (.status true, input.moveTo (input.currentOffset + packetCount.toNat)) := by
      rw [perform, seekForward, hsum, if_neg hfar]
    refine ⟨?_, ?_, ?_⟩
    · rw [hperform]
      exact hsound.moves_moveTo (by omega) (by omega)
    · rw [hperform]
      exact hsound.moveTo (by omega)
    · rw [hperform]
      rfl

theorem steps_of_isSafe (hsound : input.Sound) {call : Call} (hsafe : input.IsSafe call) :
    input.Steps call := by
  cases call with
  | read maxPackets => exact steps_read hsound hsafe
  | seek pos => exact steps_seek hsound pos
  | seekBackward packetCount => exact steps_seekBackward hsound packetCount
  | seekForward packetCount => exact steps_seekForward hsound hsafe

theorem not_isFaithful_seekForward (hsound : input.Sound) {packetCount : UInt64}
    (hnot : ¬input.IsSafe (.seekForward packetCount)) (packets : List Packet) :
    ¬IsFaithful packets input (input.perform (.seekForward packetCount)).2
      (.seekForward packetCount) (input.perform (.seekForward packetCount)).1 := by
  have hsum : 2 ^ 64 ≤ input.currentOffset + packetCount.toNat := Nat.not_lt.mp hnot
  have hcount := packetCount.toNat_lt
  have hoffset := hsound.currentOffset_le
  have htotal := hsound.totalCount_le
  have hsize := input.bufferSize_lt
  have hwrap : (input.currentOffset + packetCount.toNat) % 2 ^ 64 =
      input.currentOffset + packetCount.toNat - 2 ^ 64 := by
    rw [Nat.mod_eq_sub_mod hsum, Nat.mod_eq_of_lt (by omega)]
  have hmove := @Sound.getPacketCount_moveTo _ input hsound
    (input.currentOffset + packetCount.toNat - 2 ^ 64) (by omega)
  have hperform : input.perform (.seekForward packetCount) =
      (.status true, input.moveTo (input.currentOffset + packetCount.toNat - 2 ^ 64)) := by
    rw [perform, seekForward, hwrap, if_neg (by omega)]
  rw [hperform]
  show ¬Moves input (input.moveTo _) true _
  rw [Moves, if_pos rfl, hmove]
  omega

theorem Follows.inRange {calls : List Call} (hfollows : Follows packets input calls) :
    input.InRange := by
  cases calls with
  | nil => exact hfollows
  | cons call calls => exact hfollows.1

theorem not_follows_of_not_safe (hsound : input.Sound) {call : Call} (hnot : ¬input.IsSafe call)
    (calls : List Call) : ¬Follows packets input (call :: calls) := by
  rintro ⟨_, hfaithful, hothers⟩
  cases call with
  | read maxPackets =>
    rcases not_read_of_unsafe hsound hnot with hrange | hcount
    · exact hrange hothers.inRange
    · exact hcount hfaithful.2
  | seek pos => exact hnot trivial
  | seekBackward packetCount => exact hnot trivial
  | seekForward packetCount => exact not_isFaithful_seekForward hsound hnot packets hfaithful

theorem follows_iff_of_sound (calls : List Call) (hsound : input.Sound) :
    Follows input.file.packets input calls ↔ input.AllSafe calls := by
  induction calls generalizing input with
  | nil => exact iff_of_true hsound.toInRange trivial
  | cons call calls ih =>
    by_cases hsafe : input.IsSafe call
    · have hsteps := steps_of_isSafe hsound hsafe
      have hothers := ih hsteps.sound
      rw [hsteps.packets_eq] at hothers
      constructor
      · rintro ⟨_, _, hfollows⟩
        exact ⟨hsafe, hothers.mp hfollows⟩
      · rintro ⟨_, hall⟩
        exact ⟨hsound.toInRange, hsteps.isFaithful, hothers.mpr hall⟩
    · exact iff_of_false (not_follows_of_not_safe hsound hsafe calls) fun hall ↦ hsafe hall.1

/-- The buffered file is the plain file exactly when each call is safe. -/
theorem follows_iff (packets : List Packet) (hlength : packets.length < 2 ^ 63)
    (slots : ℕ → Packet) (bufferSize : ℕ) (hsize : bufferSize < 2 ^ 63) (calls : List Call) :
    Follows packets (openFile packets hlength slots bufferSize hsize) calls ↔
      AllSafe (openFile packets hlength slots bufferSize hsize) calls :=
  follows_iff_of_sound calls (sound_openFile packets hlength slots bufferSize hsize)

/-- The last of four packets is read again alone. -/
theorem follows_of_packet_again :
    Follows (List.range 20) (openFile (List.range 20) (by decide) (fun _ ↦ 0) 16 (by decide))
      [.read 4, .seekBackward 1, .read 1, .read 10] :=
  (follows_iff (List.range 20) (by decide) (fun _ ↦ 0) 16 (by decide) _).mpr (by decide)

/-- Ten packets are read after the last of four is to be read again. -/
theorem not_follows_of_packet_again :
    ¬Follows (List.range 20) (openFile (List.range 20) (by decide) (fun _ ↦ 0) 16 (by decide))
      [.read 4, .seekBackward 1, .read 10] := by
  rw [Follows, Follows, Follows, Follows]
  rintro ⟨_, _, _, _, _, _, hrange⟩
  exact absurd hrange.currentOffset_le (by decide)

end TSFileInputBuffered

end TSDuck
