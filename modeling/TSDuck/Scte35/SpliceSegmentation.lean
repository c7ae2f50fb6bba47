import TSDuck.Psi.DescriptorList
import TSDuck.Scte35.SpliceInsert
import Mathlib

/-!
# Splice segmentation descriptors

A `SpliceSegmentation` describes a segment of a program.

The reader of the binary descriptor clears a validity flag as soon as a part is missing, and stops
reading. But the final status only tests that nothing is left in the payload, so that a payload
which ends before some of the announced parts is accepted (`IsCut`). `isValid_deserialize_iff` is
the exact law of the reader, and `roundTrips_iff_fits` the one of the round trip.
-/

namespace TSDuck

def getUInt40 (data : ByteBlock) : ℕ := (byteAt data 0).toNat <<< 32 ||| getUInt32 data 1

def putUInt40 (value : ℕ) : ByteBlock := UInt8.ofNat (value >>> 32) :: putUInt32 value

@[simp] theorem length_putUInt40 (value : ℕ) : (putUInt40 value).length = 5 := rfl

theorem getUInt40_putUInt40 (value : ℕ) (rest : ByteBlock) :
    getUInt40 (putUInt40 value ++ rest) = value % 2 ^ 40 := by
  have hhigh : byteAt (putUInt40 value ++ rest) 0 = UInt8.ofNat (value >>> 32) := rfl
  have hlow : getUInt32 (putUInt40 value ++ rest) 1 = value % 2 ^ 32 := getUInt32_putUInt32 value rest
  rw [getUInt40, hhigh, hlow, UInt8.toNat_ofNat',
    ← Nat.shiftLeft_add_eq_or_of_lt (Nat.mod_lt _ (by decide)), Nat.shiftLeft_eq,
    Nat.shiftRight_eq_div_pow]
  omega

structure SpliceSegmentation where
  identifier : UInt32
  eventId : UInt32
  canceled : Bool
  programSegmentation : Bool
  webDeliveryAllowed : Bool
  noRegionalBlackout : Bool
  archiveAllowed : Bool
  deviceRestrictions : UInt8
  ptsOffsets : SortedMap (Fin 256) UInt64
  duration : Option UInt64
  upidType : UInt8
  upid : ByteBlock
  typeId : UInt8
  segmentNum : UInt8
  segmentsExpected : UInt8
  subSegmentNum : UInt8
  subSegmentsExpected : UInt8
  deriving DecidableEq

namespace SpliceSegmentation

def myDid : UInt8 := 0x02

def spliceIdCuei : UInt32 := 0x43554549

def hasSubSegments (typeId : UInt8) : Bool := typeId == 0x34 || typeId == 0x36

def cleared : SpliceSegmentation :=
  { identifier := spliceIdCuei, eventId := 0, canceled := false, programSegmentation := true,
    webDeliveryAllowed := true, noRegionalBlackout := true, archiveAllowed := true,
    deviceRestrictions := 3, ptsOffsets := .empty, duration := none, upidType := 0, upid := [],
    typeId := 0, segmentNum := 0, segmentsExpected := 0, subSegmentNum := 0,
    subSegmentsExpected := 0 }

/-- The other fields have their initial values. -/
def significant (desc : SpliceSegmentation) : SpliceSegmentation :=
  if desc.canceled then
    { cleared with identifier := desc.identifier, eventId := desc.eventId, canceled := true }
  else
    { desc with
      ptsOffsets := if desc.programSegmentation then .empty else desc.ptsOffsets
      subSegmentNum := if hasSubSegments desc.typeId then desc.subSegmentNum else 0
      subSegmentsExpected := if hasSubSegments desc.typeId then desc.subSegmentsExpected else 0 }

def deliveryNotRestricted (desc : SpliceSegmentation) : Bool :=
  desc.webDeliveryAllowed && desc.noRegionalBlackout && desc.archiveAllowed &&
    desc.deviceRestrictions == 3

def flags (desc : SpliceSegmentation) : UInt8 :=
  (if desc.programSegmentation then 0x80 else 0x00) ||| (if desc.duration.isSome then 0x40 else 0x00) |||
    (if desc.deliveryNotRestricted then 0x20 else 0x00) |||
    (if desc.webDeliveryAllowed then 0x10 else 0x00) |||
    (if desc.noRegionalBlackout then 0x08 else 0x00) |||
    (if desc.archiveAllowed then 0x04 else 0x00) ||| (desc.deviceRestrictions &&& 0x03)

def serializeComponent (component : Fin 256 × UInt64) : ByteBlock :=
  UInt8.ofFin component.1 ::
    (if (component.2 >>> 32) &&& 0x01 == 0x00 then (0xFE : UInt8) else 0xFF) ::
    putUInt32 component.2.toNat

def serializeComponents (desc : SpliceSegmentation) : ByteBlock :=
  if desc.programSegmentation then []
  else
    UInt8.ofNat desc.ptsOffsets.entries.length :: desc.ptsOffsets.entries.flatMap serializeComponent

def serializeDuration (desc : SpliceSegmentation) : ByteBlock :=
  match desc.duration with
  | some duration => putUInt40 duration.toNat
  | none => []

def serializeUpid (desc : SpliceSegmentation) : ByteBlock :=
  desc.upidType :: UInt8.ofNat desc.upid.length ::
    (desc.upid ++ [desc.typeId, desc.segmentNum, desc.segmentsExpected])

def serializeSubSegments (desc : SpliceSegmentation) : ByteBlock :=
  if hasSubSegments desc.typeId then [desc.subSegmentNum, desc.subSegmentsExpected] else []

def payload (desc : SpliceSegmentation) : ByteBlock :=
  putUInt32 desc.identifier.toNat ++ putUInt32 desc.eventId.toNat ++
    [if desc.canceled then 0xFF else 0x7F] ++
    if desc.canceled then []
    else
      [desc.flags] ++ desc.serializeComponents ++ desc.serializeDuration ++ desc.serializeUpid ++
        desc.serializeSubSegments

def serialize (desc : SpliceSegmentation) : Option Descriptor :=
  if 257 < desc.payload.length + 2 then none
  else
    (Descriptor.read (myDid :: UInt8.ofNat desc.payload.length :: desc.payload)).map Prod.fst

/-! ### Deserialization -/

/-- The validity, the rest, the duration flag, the descriptor. -/
structure Reader where
  isValid : Bool
  data : ByteBlock
  hasDuration : Bool
  desc : SpliceSegmentation

namespace Reader

def readFlags (reader : Reader) : Reader :=
  if 0 < reader.data.length then
    let byte := byteAt reader.data 0
    let notRestricted := byte &&& 0x20 != 0
    { isValid := true
      data := reader.data.drop 1
      hasDuration := byte &&& 0x40 != 0
      desc := { reader.desc with
        programSegmentation := byte &&& 0x80 != 0
        webDeliveryAllowed := notRestricted || byte &&& 0x10 != 0
        noRegionalBlackout := notRestricted || byte &&& 0x08 != 0
        archiveAllowed := notRestricted || byte &&& 0x04 != 0
        deviceRestrictions := if notRestricted then 3 else byte &&& 0x03 } }
  else { reader with isValid := false }

/-- Reads the offsets of components, keeping the last ones. -/
def readOffsets : ℕ → SortedMap (Fin 256) UInt64 → ByteBlock → SortedMap (Fin 256) UInt64
  | 0, offsets, _ => offsets
  | count + 1, offsets, data =>
    readOffsets count (offsets.update (byteAt data 0).toFin fun _ ↦
      UInt64.ofNat (getUInt40 (data.drop 1) &&& ptsDtsMask)) (data.drop 6)

/-- Reads the components, unless for the program. -/
def readComponents (reader : Reader) : Reader :=
  if reader.isValid && !reader.desc.programSegmentation then
    let count := (byteAt reader.data 0).toNat
    if 0 < reader.data.length ∧ 1 + 6 * count < reader.data.length then
      { reader with
        data := reader.data.drop (1 + 6 * count)
        desc := { reader.desc with
          ptsOffsets := readOffsets count reader.desc.ptsOffsets (reader.data.drop 1) } }
    else { reader with isValid := false }
  else reader

def readDuration (reader : Reader) : Reader :=
  if reader.isValid && reader.hasDuration then
    if 5 ≤ reader.data.length then
      { reader with
        data := reader.data.drop 5
        desc := { reader.desc with duration := some (UInt64.ofNat (getUInt40 reader.data)) } }
    else { reader with isValid := false }
  else reader

def readUpid (reader : Reader) : Reader :=
  let upidSize := (byteAt reader.data 1).toNat
  if reader.isValid ∧ 2 ≤ reader.data.length ∧ 5 + upidSize ≤ reader.data.length then
    let rest := reader.data.drop (2 + upidSize)
    { reader with
      data := rest.drop 3
      desc := { reader.desc with
        upidType := byteAt reader.data 0
        upid := (reader.data.drop 2).take upidSize
        typeId := byteAt rest 0
        segmentNum := byteAt rest 1
        segmentsExpected := byteAt rest 2 } }
  else { reader with isValid := false }

def readSubSegments (reader : Reader) : Reader :=
  if reader.isValid && hasSubSegments reader.desc.typeId then
    if 2 ≤ reader.data.length then
      { reader with
        data := reader.data.drop 2
        desc := { reader.desc with
          subSegmentNum := byteAt reader.data 0
          subSegmentsExpected := byteAt reader.data 1 } }
    else { reader with isValid := false }
  else reader

end Reader

def deserializePayload (tag : UInt8) (data : ByteBlock) : Bool × SpliceSegmentation :=
  if tag == myDid && decide (9 ≤ data.length) then
    let desc := { cleared with
      identifier := UInt32.ofNat (getUInt32 data 0)
      eventId := UInt32.ofNat (getUInt32 data 4)
      canceled := byteAt data 8 &&& 0x80 != 0 }
    let rest := data.drop 9
    if desc.canceled then (rest.length == 0, desc)
    else
      let start : Reader := { isValid := true, data := rest, hasDuration := false, desc := desc }
      let last := start.readFlags.readComponents.readDuration.readUpid.readSubSegments
      (last.data.length == 0, last.desc)
  else (data.length == 0, cleared)

def deserialize (desc : Descriptor) : Bool × SpliceSegmentation :=
  deserializePayload (byteAt desc.content 0) (desc.content.drop 2)

section Syntax

variable (data : ByteBlock)

def isCanceled : Bool := byteAt data 8 &&& 0x80 != 0

def componentsSize : ℕ :=
  if byteAt data 9 &&& 0x80 != 0 then 0 else 1 + 6 * (byteAt data 10).toNat

def durationSize : ℕ := if byteAt data 9 &&& 0x40 != 0 then 5 else 0

def upidStart : ℕ := 10 + componentsSize data + durationSize data

/-- The size of the UPID and of the segment numbers. -/
def upidSize : ℕ := 5 + (byteAt data 1).toNat

def subSegmentsSize : ℕ :=
  if hasSubSegments (byteAt data (2 + (byteAt data 1).toNat)) then 2 else 0

def announcedSize : ℕ :=
  if isCanceled data then 9
  else
    let rest := data.drop (upidStart data)
    upidStart data + (upidSize rest + subSegmentsSize rest)

/-- The payload is exactly one segmentation descriptor. -/
def IsComplete : Prop := data.length = announcedSize data

/-- The payload ends before a part which it announces. -/
def IsCut : Prop :=
  data.length = 0 ∨ (isCanceled data = false ∧ (data.length = 9 ∨ data.length = 10 ∨
      (durationSize data = 5 ∧ data.length = upidStart data) ∨
        let rest := data.drop (upidStart data)
        (subSegmentsSize rest = 2 ∧ data.length = upidStart data + upidSize rest)))

end Syntax

/-! ### What is accepted -/

namespace Reader

variable {reader : Reader}

theorem length_readSubSegments :
    reader.readSubSegments.data.length = 0 ↔ reader.data.length = 0 ∨
        (reader.isValid = true ∧ hasSubSegments reader.desc.typeId = true ∧
          reader.data.length = 2) := by
  rw [readSubSegments]
  split_ifs with hannounced hsize
  · obtain ⟨hvalid, htype⟩ := Bool.and_eq_true_iff.mp hannounced
    simp only [List.length_drop, hvalid, htype, true_and]
    omega
  · simp only
    omega
  · rw [Bool.and_eq_true] at hannounced
    simp only [← and_assoc, hannounced, false_and, or_false]

/-- Nothing, or a UPID, the segments and the sub-segments. -/
def IsTail (data : ByteBlock) : Prop :=
  data.length = 0 ∨ data.length = upidSize data + subSegmentsSize data ∨
    (subSegmentsSize data = 2 ∧ data.length = upidSize data)

theorem length_readUpid :
    reader.readUpid.readSubSegments.data.length = 0 ↔
      reader.data.length = 0 ∨ (reader.isValid = true ∧ IsTail reader.data) := by
  rw [length_readSubSegments, readUpid]
  split_ifs with hfits
  · obtain ⟨hvalid, -, hsize⟩ := hfits
    rw [IsTail, upidSize, subSegmentsSize]
    simp only [List.length_drop, byteAt_drop, hvalid, true_and, Nat.add_zero]
    split_ifs with htype
    · simp only [htype, true_and]
      omega
    · simp only [htype, Bool.false_eq_true, false_and, or_false]
      omega
  · simp only [false_and, or_false]
    constructor
    · exact Or.inl
    · rintro (hempty | ⟨hvalid, htail⟩)
      · exact hempty
      · rw [not_and] at hfits
        have hshort := hfits hvalid
        rw [IsTail, upidSize] at htail
        omega

theorem length_readDuration :
    reader.readDuration.readUpid.readSubSegments.data.length = 0 ↔
      reader.data.length = 0 ∨ (reader.isValid = true ∧
        if reader.hasDuration then 5 ≤ reader.data.length ∧ IsTail (reader.data.drop 5)
        else IsTail reader.data) := by
  rw [length_readUpid, readDuration]
  cases hvalid : reader.isValid with
  | false => simp [hvalid]
  | true =>
    cases hduration : reader.hasDuration with
    | false => simp [hvalid]
    | true =>
      simp only [Bool.and_self, if_true, true_and]
      split_ifs with hsize
      · simp only [true_and, hsize]
        have hempty : (reader.data.drop 5).length = 0 → IsTail (reader.data.drop 5) := Or.inl
        rw [or_iff_right_of_imp hempty, or_iff_right (by omega)]
      · simp [hsize]

theorem length_readComponents :
    reader.readComponents.readDuration.readUpid.readSubSegments.data.length = 0 ↔
      reader.data.length = 0 ∨ (reader.isValid = true ∧
        let size := if reader.desc.programSegmentation then 0
          else 1 + 6 * (byteAt reader.data 0).toNat
        let rest := reader.data.drop size
        size < reader.data.length ∧
          if reader.hasDuration then 5 ≤ rest.length ∧ IsTail (rest.drop 5) else IsTail rest) := by
  rw [length_readDuration, readComponents]
  cases hvalid : reader.isValid with
  | false => simp [hvalid]
  | true =>
    cases hprogram : reader.desc.programSegmentation with
    | true =>
      simp only [Bool.not_true, Bool.and_false, Bool.false_eq_true, if_false, hvalid, true_and,
        if_true, List.drop_zero]
      by_cases hempty : reader.data.length = 0
      · simp [hempty]
      · rw [or_iff_right hempty, or_iff_right hempty, and_iff_right (Nat.pos_of_ne_zero hempty)]
    | false =>
      simp only [Bool.not_false, Bool.and_self, if_true, Bool.false_eq_true, if_false]
      by_cases hsize : 0 < reader.data.length ∧
          1 + 6 * (byteAt reader.data 0).toNat < reader.data.length
      · have hrest : (reader.data.drop (1 + 6 * (byteAt reader.data 0).toNat)).length ≠ 0 := by
          rw [List.length_drop]
          omega
        obtain ⟨hpos, hlt⟩ := hsize
        simp only [hpos, hlt, and_self, if_true, or_iff_right hrest, or_iff_right hpos.ne', true_and]
      · have hshort : ¬1 + 6 * (byteAt reader.data 0).toNat < reader.data.length :=
          fun hlt ↦ hsize ⟨by omega, hlt⟩
        simp only [hshort, Bool.false_eq_true, false_and, and_false, if_false]

end Reader

theorem isValid_of_active {data : ByteBlock} {desc : SpliceSegmentation} :
    ({ isValid := true, data := data, hasDuration := false, desc := desc :
        Reader}.readFlags.readComponents.readDuration.readUpid.readSubSegments.data.length = 0) ↔
      data.length = 0 ∨ data.length = 1 ∨
        (let size := if byteAt data 0 &&& 0x80 != 0 then 0 else 1 + 6 * (byteAt data 1).toNat
        let rest := data.drop (1 + size)
        1 + size < data.length ∧
          if byteAt data 0 &&& 0x40 != 0 then 5 ≤ rest.length ∧ Reader.IsTail (rest.drop 5)
          else Reader.IsTail rest) := by
  rw [Reader.length_readComponents, Reader.readFlags]
  by_cases hempty : data.length = 0
  · simp [hempty]
  · have hpos : 0 < data.length := Nat.pos_of_ne_zero hempty
    simp only [hpos, if_true, hempty, false_or, true_and, List.drop_drop, List.length_drop,
      byteAt_drop, Nat.add_zero]
    exact or_congr (by omega) (and_congr (by omega) Iff.rfl)

theorem isValid_of_header {data : ByteBlock} (hheader : 9 ≤ data.length)
    (hactive : isCanceled data = false) {desc : SpliceSegmentation} :
    ({ isValid := true, data := data.drop 9, hasDuration := false, desc := desc :
        Reader}.readFlags.readComponents.readDuration.readUpid.readSubSegments.data.length = 0) ↔
      IsComplete data ∨ IsCut data := by
  have hupid : ∀ rest : ByteBlock, 5 ≤ upidSize rest := fun _ ↦ Nat.le_add_right 5 _
  have hsize : (if byteAt data 9 &&& 0x80 != 0 then 0 else 1 + 6 * (byteAt data 10).toNat) =
      componentsSize data := rfl
  rw [isValid_of_active, IsComplete, announcedSize, IsCut]
  simp only [byteAt_drop, List.length_drop, List.drop_drop, Nat.add_zero, Nat.reduceAdd, hsize,
    hactive, Bool.false_eq_true, if_false, true_and]
  by_cases hduration : (byteAt data 9 &&& 0x40 != 0) = true
  · have hstart : upidStart data = 9 + (1 + componentsSize data) + 5 := by
      rw [upidStart, durationSize, if_pos hduration]
      omega
    have hfive : durationSize data = 5 := if_pos hduration
    simp only [if_pos hduration, Reader.IsTail, ← hstart, hfive, true_and, List.length_drop]
    have hrest := hupid (data.drop (upidStart data))
    omega
  · have hstart : upidStart data = 9 + (1 + componentsSize data) := by
      rw [upidStart, durationSize, if_neg hduration]
      omega
    have hzero : durationSize data = 0 := if_neg hduration
    simp only [if_neg hduration, Reader.IsTail, ← hstart, hzero, List.length_drop]
    have hrest := hupid (data.drop (upidStart data))
    omega

/-- A descriptor is accepted, or its start before a part. -/
theorem isValid_deserialize_iff (data : ByteBlock) :
    (deserializePayload myDid data).1 = true ↔ IsComplete data ∨ IsCut data := by
  rw [deserializePayload]
  by_cases hheader : 9 ≤ data.length
  · rw [if_pos (by simp [hheader])]
    cases hcanceled : isCanceled data with
    | true =>
      have hevent : (byteAt data 8 &&& 0x80 != 0) = true := hcanceled
      simp only [hevent, if_true, List.length_drop, beq_iff_eq, IsComplete, announcedSize, IsCut,
        hcanceled, Bool.true_eq_false, false_and, or_false]
      omega
    | false =>
      have hevent : (byteAt data 8 &&& 0x80 != 0) = false := hcanceled
      simp only [hevent, Bool.false_eq_true, if_false, beq_iff_eq]
      exact isValid_of_header hheader hcanceled
  · rw [if_neg (by simp [hheader])]
    have hupid : ∀ rest : ByteBlock, 5 ≤ upidSize rest := fun _ ↦ Nat.le_add_right 5 _
    have hrest := hupid (data.drop (upidStart data))
    have hstart : 10 ≤ upidStart data := by
      rw [upidStart]
      omega
    simp only [beq_iff_eq, IsComplete, announcedSize, IsCut]
    split_ifs <;> omega

theorem not_isComplete_of_isCut {data : ByteBlock} (hcut : IsCut data) : ¬IsComplete data := by
  have hupid : ∀ rest : ByteBlock, 5 ≤ upidSize rest := fun _ ↦ Nat.le_add_right 5 _
  have hrest := hupid (data.drop (upidStart data))
  have hstart : 10 ≤ upidStart data := by
    rw [upidStart]
    omega
  rw [IsComplete, announcedSize]
  rcases hcut with hempty | ⟨hactive, hcut⟩
  · simp only
    split_ifs <;> omega
  · simp only [hactive, Bool.false_eq_true, if_false]
    simp only at hcut
    omega

/-! ### The binary round trip -/

def reducePts (pts : UInt64) : UInt64 := UInt64.ofNat (pts.toNat % 2 ^ 33)

def reduceDuration (duration : UInt64) : UInt64 := UInt64.ofNat (duration.toNat % 2 ^ 40)

def reduced (desc : SpliceSegmentation) : SpliceSegmentation :=
  { desc with
    deviceRestrictions := desc.deviceRestrictions &&& 0x03
    ptsOffsets := desc.ptsOffsets.mapValues reducePts
    duration := desc.duration.map reduceDuration }

theorem and_three_cases (byte : UInt8) :
    byte &&& 0x03 = 0 ∨ byte &&& 0x03 = 1 ∨ byte &&& 0x03 = 2 ∨ byte &&& 0x03 = 3 := by
  have hle : (byte &&& 0x03).toNat ≤ 3 := by
    rw [UInt8.toNat_and]
    exact Nat.and_le_right
  have hcases : (byte &&& 0x03).toNat = 0 ∨ (byte &&& 0x03).toNat = 1 ∨
      (byte &&& 0x03).toNat = 2 ∨ (byte &&& 0x03).toNat = 3 := by omega
  simp only [← UInt8.toNat_inj]
  exact hcases

theorem flags_bits (desc : SpliceSegmentation) :
    (desc.flags &&& 0x80 != 0) = desc.programSegmentation ∧
      (desc.flags &&& 0x40 != 0) = desc.duration.isSome ∧
        (desc.flags &&& 0x20 != 0) = desc.deliveryNotRestricted ∧
          (desc.flags &&& 0x10 != 0) = desc.webDeliveryAllowed ∧
            (desc.flags &&& 0x08 != 0) = desc.noRegionalBlackout ∧
              (desc.flags &&& 0x04 != 0) = desc.archiveAllowed ∧
                desc.flags &&& 0x03 = desc.deviceRestrictions &&& 0x03 := by
  rw [flags]
  generalize desc.deliveryNotRestricted = free
  generalize desc.duration.isSome = timed
  rcases and_three_cases desc.deviceRestrictions with hbits | hbits | hbits | hbits <;>
    · rw [hbits]
      cases desc.programSegmentation <;> cases timed <;> cases free <;>
        cases desc.webDeliveryAllowed <;> cases desc.noRegionalBlackout <;>
          cases desc.archiveAllowed <;> decide

namespace Reader

theorem length_flatMap_serializeComponent (entries : List (Fin 256 × UInt64)) :
    (entries.flatMap serializeComponent).length = 6 * entries.length := by
  induction entries with
  | nil => rfl
  | cons entry entries ih =>
    rw [List.flatMap_cons, List.length_append, ih, List.length_cons]
    show 6 + _ = _
    omega

theorem getUInt40_serializeComponent (entry : Fin 256 × UInt64) (rest : ByteBlock) :
    getUInt40 ((serializeComponent entry ++ rest).drop 1) &&& ptsDtsMask =
      entry.2.toNat % 2 ^ 33 := by
  obtain ⟨tag, pts⟩ := entry
  have hbit : ((pts >>> 32) &&& 0x01 == 0x00) = decide (pts.toNat / 2 ^ 32 % 2 = 0) := by
    rw [Bool.eq_iff_iff, beq_iff_eq, decide_eq_true_eq, ← UInt64.toNat_inj, UInt64.toNat_and,
      UInt64.toNat_shiftRight]
    show pts.toNat >>> 32 &&& 1 = 0 ↔ _
    rw [Nat.and_one_is_mod, Nat.shiftRight_eq_div_pow]
  have hbyte : byteAt ((serializeComponent (tag, pts) ++ rest).drop 1) 0 =
      if (pts >>> 32) &&& 0x01 == 0x00 then (0xFE : UInt8) else 0xFF := rfl
  have hlow : getUInt32 ((serializeComponent (tag, pts) ++ rest).drop 1) 1 = pts.toNat % 2 ^ 32 :=
    getUInt32_putUInt32 pts.toNat rest
  rw [getUInt40, hbyte, hlow, hbit, show ptsDtsMask = 2 ^ 33 - 1 from rfl,
    Nat.and_two_pow_sub_one_eq_mod, ← Nat.shiftLeft_add_eq_or_of_lt (Nat.mod_lt _ (by decide)),
    Nat.shiftLeft_eq]
  by_cases hzero : pts.toNat / 2 ^ 32 % 2 = 0
  · rw [decide_eq_true hzero, if_pos rfl]
    show (254 * 2 ^ 32 + pts.toNat % 2 ^ 32) % 2 ^ 33 = pts.toNat % 2 ^ 33
    omega
  · rw [decide_eq_false hzero, if_neg Bool.false_ne_true]
    show (255 * 2 ^ 32 + pts.toNat % 2 ^ 32) % 2 ^ 33 = pts.toNat % 2 ^ 33
    omega

theorem readOffsets_flatMap (entries : List (Fin 256 × UInt64))
    (offsets : SortedMap (Fin 256) UInt64) (rest : ByteBlock) :
    readOffsets entries.length offsets (entries.flatMap serializeComponent ++ rest) =
      entries.foldl (fun loaded entry ↦ loaded.update entry.1 fun _ ↦ reducePts entry.2) offsets := by
  induction entries generalizing offsets with
  | nil => rfl
  | cons entry entries ih =>
    have hsplit : (entry :: entries).flatMap serializeComponent ++ rest =
        serializeComponent entry ++ (entries.flatMap serializeComponent ++ rest) := by
      rw [List.flatMap_cons, List.append_assoc]
    have hvalue : ∀ more : ByteBlock,
        getUInt40 ((serializeComponent entry ++ more).drop 1) &&& ptsDtsMask =
          entry.2.toNat % 2 ^ 33 :=
      getUInt40_serializeComponent entry
    have htag : ∀ more : ByteBlock,
        (byteAt (serializeComponent entry ++ more) 0).toFin = entry.1 := fun _ ↦ rfl
    have hdrop : ∀ more : ByteBlock, (serializeComponent entry ++ more).drop 6 = more :=
      fun _ ↦ rfl
    rw [hsplit, List.length_cons, readOffsets, htag, hvalue, hdrop, ih, List.foldl_cons]
    rfl

variable {reader : Reader} {desc : SpliceSegmentation} {rest : ByteBlock}

theorem readFlags_cons (hdata : reader.data = desc.flags :: rest) :
    reader.readFlags =
      { isValid := true
        data := rest
        hasDuration := desc.duration.isSome
        desc := { reader.desc with
          programSegmentation := desc.programSegmentation
          webDeliveryAllowed := desc.webDeliveryAllowed
          noRegionalBlackout := desc.noRegionalBlackout
          archiveAllowed := desc.archiveAllowed
          deviceRestrictions := desc.deviceRestrictions &&& 0x03 } } := by
  obtain ⟨_, data, _, read⟩ := reader
  obtain rfl : data = desc.flags :: rest := hdata
  obtain ⟨hprogram, hduration, hfree, hweb, hblackout, harchive, hdevice⟩ := desc.flags_bits
  have hbyte : byteAt (desc.flags :: rest) 0 = desc.flags := rfl
  rw [readFlags, if_pos (by simp)]
  simp only [hbyte, hprogram, hduration, hfree, hweb, hblackout, harchive, hdevice,
    List.drop_succ_cons, List.drop_zero]
  cases hrestricted : desc.deliveryNotRestricted with
  | false => simp
  | true =>
    simp only [deliveryNotRestricted, Bool.and_eq_true, beq_iff_eq] at hrestricted
    obtain ⟨⟨⟨hweb, hblackout⟩, harchive⟩, hdevice⟩ := hrestricted
    simp only [hweb, hblackout, harchive, hdevice, Bool.or_true, if_true]
    rfl

theorem readComponents_append (hvalid : reader.isValid = true)
    (hdata : reader.data = desc.serializeComponents ++ rest) (hrest : rest ≠ [])
    (hprogram : reader.desc.programSegmentation = desc.programSegmentation)
    (hcount : desc.programSegmentation = false → desc.ptsOffsets.entries.length ≤ 255)
    (hempty : reader.desc.ptsOffsets = .empty) :
    reader.readComponents = { reader with
        data := rest
        desc := { reader.desc with
          ptsOffsets := if desc.programSegmentation then .empty
            else desc.ptsOffsets.mapValues reducePts } } := by
  obtain ⟨isValid, data, hasDuration, read⟩ := reader
  obtain rfl : isValid = true := hvalid
  obtain rfl : data = desc.serializeComponents ++ rest := hdata
  change read.programSegmentation = _ at hprogram
  change read.ptsOffsets = _ at hempty
  rw [readComponents, serializeComponents]
  cases hkind : desc.programSegmentation with
  | true =>
    have hsame : ({ read with ptsOffsets := .empty } : SpliceSegmentation) = read := by
      rw [← hempty]
    have hskip : (true && !read.programSegmentation) = false := by
      rw [hprogram, hkind]
      rfl
    simp only [hskip, Bool.false_eq_true, if_false, if_true, List.nil_append, hsame]
  | false =>
    have hlength := length_flatMap_serializeComponent desc.ptsOffsets.entries
    have hbyte : (UInt8.ofNat desc.ptsOffsets.entries.length).toNat =
        desc.ptsOffsets.entries.length := by
      rw [UInt8.toNat_ofNat']
      exact Nat.mod_eq_of_lt (Nat.lt_succ_of_le (hcount hkind))
    have hsome := List.length_pos_iff.mpr hrest
    have hload := SortedMap.foldl_update_mapValues reducePts (fun entry _ ↦ reducePts entry.2)
      (fun _ ↦ rfl) desc.ptsOffsets
    have hfirst : ∀ more : ByteBlock,
        byteAt (UInt8.ofNat desc.ptsOffsets.entries.length :: more) 0 =
          UInt8.ofNat desc.ptsOffsets.entries.length := fun _ ↦ rfl
    have hdrop : (desc.ptsOffsets.entries.flatMap serializeComponent ++ rest).drop
        (6 * desc.ptsOffsets.entries.length) = rest := by
      rw [← hlength, List.drop_left]
    simp only [hprogram, hkind, Bool.not_false, Bool.and_self, if_true, Bool.false_eq_true,
      if_false, List.cons_append, hfirst, hbyte, List.length_cons, List.length_append, hlength]
    rw [if_pos (by omega), Nat.add_comm 1, List.drop_succ_cons, hdrop, List.drop_succ_cons,
      List.drop_zero, hempty, readOffsets_flatMap, hload]

theorem readDuration_append (hvalid : reader.isValid = true)
    (hdata : reader.data = desc.serializeDuration ++ rest)
    (hduration : reader.hasDuration = desc.duration.isSome) (hnone : reader.desc.duration = none) :
    reader.readDuration = { reader with
        data := rest
        desc := { reader.desc with duration := desc.duration.map reduceDuration } } := by
  obtain ⟨isValid, data, hasDuration, read⟩ := reader
  obtain rfl : isValid = true := hvalid
  obtain rfl : hasDuration = desc.duration.isSome := hduration
  obtain rfl : data = desc.serializeDuration ++ rest := hdata
  change read.duration = none at hnone
  rw [readDuration, serializeDuration]
  cases desc.duration with
  | none =>
    have hsame : ({ read with duration := none } : SpliceSegmentation) = read := by
      rw [← hnone]
    simp only [Option.isSome_none, Bool.and_false, Bool.false_eq_true, if_false, List.nil_append,
      Option.map_none, hsame]
  | some duration =>
    have hdrop : (putUInt40 duration.toNat ++ rest).drop 5 = rest := rfl
    simp only [Option.isSome_some, Bool.and_self, if_true, getUInt40_putUInt40, hdrop,
      List.length_append, length_putUInt40]
    rw [if_pos (Nat.le_add_right 5 _)]
    rfl

theorem readUpid_append (hvalid : reader.isValid = true)
    (hdata : reader.data = desc.serializeUpid ++ rest) (hupid : desc.upid.length ≤ 255) :
    reader.readUpid = { reader with
        data := rest
        desc := { reader.desc with
          upidType := desc.upidType
          upid := desc.upid
          typeId := desc.typeId
          segmentNum := desc.segmentNum
          segmentsExpected := desc.segmentsExpected } } := by
  obtain ⟨isValid, data, _, read⟩ := reader
  obtain rfl : isValid = true := hvalid
  obtain rfl : data = desc.serializeUpid ++ rest := hdata
  have hbyte : (UInt8.ofNat desc.upid.length).toNat = desc.upid.length := by
    rw [UInt8.toNat_ofNat']
    exact Nat.mod_eq_of_lt (Nat.lt_succ_of_le hupid)
  have hsecond : ∀ more : ByteBlock,
      byteAt (desc.upidType :: UInt8.ofNat desc.upid.length :: more) 1 =
        UInt8.ofNat desc.upid.length := fun _ ↦ rfl
  have hend : ∀ more : ByteBlock,
      (desc.upidType :: UInt8.ofNat desc.upid.length :: (desc.upid ++ more)).drop
        (2 + desc.upid.length) = more := by
    intro more
    rw [Nat.add_comm, List.drop_succ_cons, List.drop_succ_cons, List.drop_left]
  have hupidBytes : ∀ more : ByteBlock,
      ((desc.upidType :: UInt8.ofNat desc.upid.length :: (desc.upid ++ more)).drop 2).take
        desc.upid.length = desc.upid := by
    intro more
    rw [List.drop_succ_cons, List.drop_succ_cons, List.drop_zero, List.take_left]
  rw [readUpid, serializeUpid]
  simp only [List.cons_append, List.append_assoc, hsecond, hbyte, hend, hupidBytes]
  rw [if_pos ⟨trivial, by simp, by simp; omega⟩]
  rfl

theorem readSubSegments_eq (hvalid : reader.isValid = true)
    (hdata : reader.data = desc.serializeSubSegments) (htype : reader.desc.typeId = desc.typeId)
    (hnum : reader.desc.subSegmentNum = 0) (hexpected : reader.desc.subSegmentsExpected = 0) :
    reader.readSubSegments = { reader with
        data := []
        desc := { reader.desc with
          subSegmentNum := if hasSubSegments desc.typeId then desc.subSegmentNum else 0
          subSegmentsExpected :=
            if hasSubSegments desc.typeId then desc.subSegmentsExpected else 0 } } := by
  obtain ⟨isValid, data, _, read⟩ := reader
  obtain rfl : isValid = true := hvalid
  obtain rfl : data = desc.serializeSubSegments := hdata
  change read.typeId = desc.typeId at htype
  change read.subSegmentNum = 0 at hnum
  change read.subSegmentsExpected = 0 at hexpected
  rw [readSubSegments, serializeSubSegments]
  have hannounced : (true && hasSubSegments read.typeId) = hasSubSegments desc.typeId := by
    rw [htype, Bool.true_and]
  dsimp only
  rw [hannounced]
  cases hasSubSegments desc.typeId with
  | true => rfl
  | false =>
    have hsame : ({ read with subSegmentNum := 0, subSegmentsExpected := 0 } :
        SpliceSegmentation) = read := by
      cases read
      simp_all
    simp only [Bool.false_eq_true, if_false, hsame]

end Reader

theorem payload_of_active {desc : SpliceSegmentation} (hactive : desc.canceled = false) :
    desc.payload = putUInt32 desc.identifier.toNat ++ (putUInt32 desc.eventId.toNat ++
      (0x7F :: desc.flags :: (desc.serializeComponents ++ (desc.serializeDuration ++
        (desc.serializeUpid ++ desc.serializeSubSegments))))) := by
  rw [payload, hactive]
  simp only [Bool.false_eq_true, if_false, List.append_assoc, List.cons_append, List.nil_append]

theorem length_le_of_payload {desc : SpliceSegmentation} (hactive : desc.canceled = false)
    (hsize : desc.payload.length ≤ 255) :
    (desc.programSegmentation = false → desc.ptsOffsets.entries.length ≤ 255) ∧
      desc.upid.length ≤ 255 := by
  rw [payload_of_active hactive] at hsize
  simp only [List.length_append, List.length_cons, serializeUpid, serializeComponents] at hsize
  constructor
  · intro hprogram
    simp only [hprogram, Bool.false_eq_true, if_false, List.length_cons,
      Reader.length_flatMap_serializeComponent] at hsize
    omega
  · omega

theorem deserializePayload_payload {desc : SpliceSegmentation} (hsize : desc.payload.length ≤ 255) :
    deserializePayload myDid desc.payload = (true, desc.reduced.significant) := by
  cases hcanceled : desc.canceled with
  | true =>
    have hpayload : desc.payload = putUInt32 desc.identifier.toNat ++
        (putUInt32 desc.eventId.toNat ++ [0xFF]) := by
      rw [payload, hcanceled]
      simp only [if_true, List.append_nil, List.append_assoc]
    have hid := ofNat_getUInt32_putUInt32 desc.identifier (putUInt32 desc.eventId.toNat ++ [0xFF])
    have hevent : UInt32.ofNat (getUInt32 (putUInt32 desc.identifier.toNat ++
        (putUInt32 desc.eventId.toNat ++ [0xFF])) 4) = desc.eventId :=
      ofNat_getUInt32_putUInt32 desc.eventId [0xFF]
    have hcancel : (byteAt (putUInt32 desc.identifier.toNat ++
        (putUInt32 desc.eventId.toNat ++ [0xFF])) 8 &&& 0x80 != 0) = true := by
      show ((0xFF : UInt8) &&& 0x80 != 0) = true
      decide
    have hdrop : (putUInt32 desc.identifier.toNat ++
        (putUInt32 desc.eventId.toNat ++ [0xFF])).drop 9 = ([] : ByteBlock) := rfl
    rw [hpayload, deserializePayload, if_pos (by rfl), hid, hevent, hcancel, hdrop]
    simp only [significant, reduced, hcanceled, if_true, List.length_nil, beq_self_eq_true]
  | false =>
    obtain ⟨hcount, hupid⟩ := length_le_of_payload hcanceled hsize
    rw [payload_of_active hcanceled]
    generalize hparts : desc.serializeComponents ++ (desc.serializeDuration ++
      (desc.serializeUpid ++ desc.serializeSubSegments)) = parts
    have hid := ofNat_getUInt32_putUInt32 desc.identifier
      (putUInt32 desc.eventId.toNat ++ 0x7F :: desc.flags :: parts)
    have hevent : UInt32.ofNat (getUInt32 (putUInt32 desc.identifier.toNat ++
        (putUInt32 desc.eventId.toNat ++ 0x7F :: desc.flags :: parts)) 4) = desc.eventId :=
      ofNat_getUInt32_putUInt32 desc.eventId (0x7F :: desc.flags :: parts)
    have hactive : (byteAt (putUInt32 desc.identifier.toNat ++
        (putUInt32 desc.eventId.toNat ++ 0x7F :: desc.flags :: parts)) 8 &&& 0x80 != 0) = false := by
      show ((0x7F : UInt8) &&& 0x80 != 0) = false
      decide
    have hdrop : (putUInt32 desc.identifier.toNat ++
        (putUInt32 desc.eventId.toNat ++ 0x7F :: desc.flags :: parts)).drop 9 =
          desc.flags :: parts := rfl
    have hlength : 9 ≤ (putUInt32 desc.identifier.toNat ++
        (putUInt32 desc.eventId.toNat ++ 0x7F :: desc.flags :: parts)).length := by
      show 9 ≤ parts.length + 10
      omega
    have hrest : desc.serializeDuration ++ (desc.serializeUpid ++ desc.serializeSubSegments) ≠ [] := by
      simp [serializeUpid]
    rw [deserializePayload, if_pos (by rw [decide_eq_true hlength]; rfl), hid, hevent, hactive, hdrop]
    simp only [Bool.false_eq_true, if_false]
    rw [@Reader.readFlags_cons _ desc _ rfl,
      @Reader.readComponents_append _ desc _ rfl hparts.symm hrest rfl hcount rfl,
      @Reader.readDuration_append _ desc _ rfl rfl rfl rfl,
      @Reader.readUpid_append _ desc _ rfl rfl hupid,
      @Reader.readSubSegments_eq _ desc rfl rfl rfl rfl rfl]
    simp only [significant, reduced, hcanceled]
    cases desc.programSegmentation <;> rfl

/-- The fields have the sizes of the binary syntax. -/
structure Fits (desc : SpliceSegmentation) : Prop where
  deviceRestrictions : desc.deviceRestrictions &&& 0x03 = desc.deviceRestrictions
  duration : ∀ duration ∈ desc.duration, duration.toNat < 2 ^ 40
  ptsOffsets : desc.programSegmentation = false →
    ∀ entry ∈ desc.ptsOffsets.entries, entry.2.toNat < 2 ^ 33

/-- The descriptor is read back with its significant fields. -/
def RoundTrips (desc : SpliceSegmentation) : Prop :=
  ∃ bin, desc.serialize = some bin ∧ (deserialize bin).1 = true ∧
    (deserialize bin).2.significant = desc.significant

theorem serialize_eq {desc : SpliceSegmentation} (hsize : desc.payload.length ≤ 255) :
    ∃ bin, desc.serialize = some bin ∧ deserialize bin = deserializePayload myDid desc.payload := by
  have hbyte : (UInt8.ofNat desc.payload.length).toNat = desc.payload.length := by
    rw [UInt8.toNat_ofNat']
    exact Nat.mod_eq_of_lt (Nat.lt_succ_of_le hsize)
  let bin : Descriptor :=
    { content := myDid :: UInt8.ofNat desc.payload.length :: desc.payload
      header := by simp
      announced := by
        show (UInt8.ofNat desc.payload.length).toNat + 2 = _
        rw [hbyte]
        rfl }
  refine ⟨bin, ?_, rfl⟩
  rw [serialize, if_neg (by omega)]
  have hread := bin.read_append []
  rw [List.append_nil] at hread
  show (Descriptor.read bin.content).map Prod.fst = some bin
  rw [hread]
  rfl

theorem significant_significant (desc : SpliceSegmentation) :
    desc.significant.significant = desc.significant := by
  unfold significant
  cases hcanceled : desc.canceled with
  | true => simp
  | false =>
    cases desc.programSegmentation <;> cases htype : hasSubSegments desc.typeId <;>
      simp [htype]

theorem reducePts_eq_iff (pts : UInt64) : reducePts pts = pts ↔ pts.toNat < 2 ^ 33 := by
  have hlt := pts.toNat_lt
  rw [reducePts, ← UInt64.toNat_inj, UInt64.toNat_ofNat']
  omega

theorem reduceDuration_eq_iff (duration : UInt64) :
    reduceDuration duration = duration ↔ duration.toNat < 2 ^ 40 := by
  have hlt := duration.toNat_lt
  rw [reduceDuration, ← UInt64.toNat_inj, UInt64.toNat_ofNat']
  omega

theorem mapValues_reducePts_eq_iff (offsets : SortedMap (Fin 256) UInt64) :
    offsets.mapValues reducePts = offsets ↔ ∀ entry ∈ offsets.entries, entry.2.toNat < 2 ^ 33 := by
  obtain ⟨entries, hsorted⟩ := offsets
  rw [SortedMap.mapValues, SortedMap.mk.injEq]
  have hmap : entries.map (fun entry ↦ (entry.1, reducePts entry.2)) = entries ↔
      ∀ entry ∈ entries, (entry.1, reducePts entry.2) = entry := by
    have hsame := @List.map_inj_left _ _ entries (fun entry ↦ (entry.1, reducePts entry.2)) id
    rwa [List.map_id] at hsame
  rw [hmap]
  refine forall₂_congr fun entry _ ↦ ?_
  rw [← reducePts_eq_iff, Prod.ext_iff]
  exact and_iff_right rfl

theorem reduced_significant_iff {desc : SpliceSegmentation} (hactive : desc.canceled = false) :
    desc.reduced.significant = desc.significant ↔ desc.Fits := by
  have hduration : desc.duration.map reduceDuration = desc.duration ↔
      ∀ duration ∈ desc.duration, duration.toNat < 2 ^ 40 := by
    cases desc.duration with
    | none => simp
    | some duration => simp [reduceDuration_eq_iff]
  have hoffsets : ((if desc.programSegmentation then .empty else desc.ptsOffsets.mapValues reducePts) =
      if desc.programSegmentation then .empty else desc.ptsOffsets) ↔
        (desc.programSegmentation = false →
          ∀ entry ∈ desc.ptsOffsets.entries, entry.2.toNat < 2 ^ 33) := by
    cases desc.programSegmentation with
    | true => simp
    | false => simp [mapValues_reducePts_eq_iff]
  have hfields : desc.reduced.significant = desc.significant ↔
      desc.deviceRestrictions &&& 0x03 = desc.deviceRestrictions ∧
        ((if desc.programSegmentation then .empty else desc.ptsOffsets.mapValues reducePts) =
          if desc.programSegmentation then .empty else desc.ptsOffsets) ∧
        desc.duration.map reduceDuration = desc.duration := by
    simp only [significant, reduced, hactive, Bool.false_eq_true, if_false,
      SpliceSegmentation.mk.injEq, and_true, true_and]
  rw [hfields, hoffsets, hduration]
  exact ⟨fun hall ↦ ⟨hall.1, hall.2.2, hall.2.1⟩, fun hfits ↦
    ⟨hfits.deviceRestrictions, hfits.ptsOffsets, hfits.duration⟩⟩

theorem roundTrips_iff_fits {desc : SpliceSegmentation} (hsize : desc.payload.length ≤ 255) :
    desc.RoundTrips ↔ (desc.canceled = false → desc.Fits) := by
  obtain ⟨bin, hbin, hread⟩ := serialize_eq hsize
  have hcore : desc.RoundTrips ↔ desc.reduced.significant = desc.significant := by
    rw [RoundTrips, hbin]
    simp only [Option.some.injEq, exists_eq_left', hread, deserializePayload_payload hsize,
      true_and, significant_significant]
  rw [hcore]
  cases hcanceled : desc.canceled with
  | true => simp [significant, reduced, hcanceled]
  | false => rw [reduced_significant_iff hcanceled, forall_prop_of_true rfl]

end SpliceSegmentation

end TSDuck
