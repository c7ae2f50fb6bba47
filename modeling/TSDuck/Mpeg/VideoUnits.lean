import TSDuck.Library.PatternSearch
import TSDuck.Mpeg.PESDemux

/-!
# The units of a video PES packet

A PES demux looks for the start codes in the payload of a video PES packet and reports the units
between them. `scanStartCodes` is the loop for MPEG-1 and MPEG-2 video, and `scanNALUnits` the loop
for AVC, which also looks at the first SEI message of a unit.

The loop for MPEG-2 video takes the start of the payload as a start code without looking at it, and
reads the byte after each start code: `coversStartCodes_iff` states which payloads it splits as it
should.

Scope. There is a handler, to which the units are reported. The attributes which are computed from
the bytes of a unit are not here.
-/

namespace TSDuck

def startCodePrefix : ByteBlock := [0x00, 0x00, 0x01]

def zero3 : ByteBlock := [0x00, 0x00, 0x00]

def stNull : UInt8 := 0x00

def stMpeg1Video : UInt8 := 0x01

def stMpeg2Video : UInt8 := 0x02

def stAvcVideo : UInt8 := 0x1B

def avcAutSEI : UInt8 := 6

def isVideoSID (sid : UInt8) : Bool :=
  sid &&& 0xF0 == 0xE0

namespace PESPacket

def payload (packet : PESPacket) : ByteBlock :=
  packet.data.drop packet.headerSize

def getStreamId (packet : PESPacket) : UInt8 :=
  byteAt packet.data 3

def isMPEG2Video (packet : PESPacket) (streamType : UInt8) : Bool :=
  if streamType = stMpeg1Video ∨ streamType = stMpeg2Video then true
  else if streamType ≠ stNull ∨ isVideoSID packet.getStreamId = false then false
  else startCodePrefix.isPrefixOf packet.payload

def isAVC (packet : PESPacket) (streamType : UInt8) : Bool :=
  if streamType = stAvcVideo then true
  else if streamType ≠ stNull ∨ isVideoSID packet.getStreamId = false then false
  else
    let rest := packet.payload.dropWhile (· == 0x00)
    rest.head? == some 0x01 && decide (2 < packet.payload.length - rest.length)

end PESPacket

/-! ### The loops on the units -/

/-- How a loop on a payload ends. -/
inductive ScanEnd
  | finished
  | readsOutside
  | running
  deriving DecidableEq

/-- The units which a loop reports, and how it ends. -/
structure UnitScan (VideoUnit : Type) where
  units : List VideoUnit
  outcome : ScanEnd

def UnitScan.cons {VideoUnit : Type} (unit : VideoUnit) (later : UnitScan VideoUnit) :
    UnitScan VideoUnit :=
  { later with units := unit :: later.units }

/-- A unit of MPEG-1 or MPEG-2 video. -/
structure StartCodeUnit where
  startCode : UInt8
  offset : ℕ
  size : ℕ

def scanStartCodes (data : ByteBlock) : ℕ → ℕ → UnitScan StartCodeUnit
  | 0, _ => ⟨[], .running⟩
  | turns + 1, offset =>
    if data.length ≤ offset then ⟨[], .finished⟩
    else
      let next := ((locate startCodePrefix (data.drop (offset + 1))).map (offset + 1 + ·)).getD
        data.length
      match data[offset + 3]? with
      | none => ⟨[], .readsOutside⟩
      | some startCode => .cons ⟨startCode, offset, next - offset⟩ (scanStartCodes data turns next)

/-- A supplemental enhancement information message. -/
structure SEIMessage where
  type : ℕ
  offset : ℕ
  size : ℕ

/-- A sum of bytes 0xFF and of the next byte. -/
def readSum (data : ByteBlock) : ℕ → ℕ → ℕ → Option (ℕ × ℕ)
  | 0, offset, total => some (total, offset)
  | remaining + 1, offset, total =>
    match data[offset]? with
    | none => none
    | some byte =>
      if byte = 0xFF then readSum data remaining (offset + 1) (total + byte.toNat)
      else some (total + byte.toNat, offset + 1)

/-- The first message of a unit with supplemental enhancement information. -/
def readSEI (data : ByteBlock) (offset stop : ℕ) : Option SEIMessage :=
  match readSum data (stop - offset) offset 0 with
  | none => none
  | some (type, afterType) =>
    match readSum data (stop - afterType) afterType 0 with
    | none => none
    | some (size, afterSize) => some ⟨type % 2 ^ 32, afterSize, min size (stop - afterSize)⟩

/-- A NAL unit: its type, its place in the payload, and its message. -/
structure NALUnit where
  type : UInt8
  offset : ℕ
  size : ℕ
  sei : Option SEIMessage

def nalUnitType (data : ByteBlock) (offset size : ℕ) : Option UInt8 :=
  if size = 0 then some 0 else data[offset]?.map (· &&& 0x1F)

def readNALUnit (data : ByteBlock) (offset size : ℕ) : Option NALUnit :=
  match nalUnitType data offset size with
  | none => none
  | some type =>
    if type = avcAutSEI then
      (readSEI data (offset + 1) (offset + size)).map fun sei ↦ ⟨type, offset, size, some sei⟩
    else some ⟨type, offset, size, none⟩

/-- A unit ends at a prefix, at three zeroes, or with the data. -/
def nalUnitSize (data : ByteBlock) (offset : ℕ) : ℕ :=
  match locate startCodePrefix (data.drop offset), locate zero3 (data.drop offset) with
  | none, none => data.length - offset
  | none, some zeroes => zeroes
  | some code, none => code
  | some code, some zeroes => if zeroes < code then zeroes else code

def scanNALUnits (data : ByteBlock) : ℕ → ℕ → UnitScan NALUnit
  | 0, _ => ⟨[], .running⟩
  | turns + 1, offset =>
    if data.length ≤ offset then ⟨[], .finished⟩
    else
      match locate startCodePrefix (data.drop offset) with
      | none => ⟨[], .finished⟩
      | some index =>
        let start := offset + index + startCodePrefix.length
        match readNALUnit data start (nalUnitSize data start) with
        | none => ⟨[], .readsOutside⟩
        | some unit => .cons unit (scanNALUnits data turns (start + nalUnitSize data start))

/-- What is found in a PES packet. -/
inductive VideoScan
  | mpeg2 (scan : UnitScan StartCodeUnit)
  | avc (scan : UnitScan NALUnit)
  | other

def PESPacket.processVideo (packet : PESPacket) (streamType : UInt8) : VideoScan :=
  if packet.isMPEG2Video streamType then
    .mpeg2 (scanStartCodes packet.payload (packet.payload.length + 1) 0)
  else if packet.isAVC streamType then
    .avc (scanNALUnits packet.payload (packet.payload.length + 1) 0)
  else .other

/-! ### The units of MPEG-2 video -/

/-- Units follow each other from an offset to another one. -/
def Tiles : ℕ → ℕ → List StartCodeUnit → Prop
  | start, stop, [] => start = stop
  | start, stop, unit :: units => unit.offset = start ∧ 0 < unit.size ∧
    Tiles (start + unit.size) stop units

/-- The units cover the payload from its first start code on. -/
structure CoversStartCodes (data : ByteBlock) (scan : UnitScan StartCodeUnit) : Prop where
  finished : scan.outcome = .finished
  starts : ∀ unit ∈ scan.units, OccursAt startCodePrefix data unit.offset ∧
    data[unit.offset + 3]? = some unit.startCode
  tiles : Tiles ((locate startCodePrefix data).getD data.length) data.length scan.units

/-- It is empty, or starts with a start code without ending with a prefix. -/
def SplitsAtStartCodes (data : ByteBlock) : Prop :=
  data = [] ∨ OccursAt startCodePrefix data 0 ∧ ¬ startCodePrefix <:+ data

theorem suffix_iff_occursAt (data : ByteBlock) :
    startCodePrefix <:+ data ↔ ∃ index, index + 3 = data.length ∧
      OccursAt startCodePrefix data index := by
  constructor
  · rintro ⟨front, rfl⟩
    refine ⟨front.length, by rw [List.length_append]; rfl, ?_⟩
    rw [OccursAt, List.drop_left]
  · rintro ⟨index, hlength, hoccurs⟩
    have hrest : startCodePrefix = data.drop index := by
      refine List.IsPrefix.eq_of_length hoccurs ?_
      rw [List.length_drop]
      show 3 = data.length - index
      omega
    rw [hrest]
    exact List.drop_suffix index data

/-- The offset of the next start code, from an offset inside the data. -/
theorem next_spec (data : ByteBlock) {offset : ℕ} (hoffset : offset < data.length) {next : ℕ}
    (hnext : ((locate startCodePrefix (data.drop (offset + 1))).map (offset + 1 + ·)).getD
      data.length = next) :
    offset < next ∧ next ≤ data.length ∧ (next = data.length ∨ OccursAt startCodePrefix data next) ∧
        ∀ index, offset < index → OccursAt startCodePrefix data index → next ≤ index := by
  subst hnext
  cases hlocate : locate startCodePrefix (data.drop (offset + 1)) with
  | none =>
    refine ⟨hoffset, le_rfl, Or.inl rfl, fun index hindex hoccurs ↦ ?_⟩
    exact absurd hoccurs (locate_drop_eq_none (by decide) hlocate index hindex)
  | some index =>
    obtain ⟨hoccurs, hbefore⟩ := locate_drop_eq_some (by decide) hlocate
    have hinside := hoccurs.length_le (by decide)
    show offset < offset + 1 + index ∧ _
    refine ⟨by omega, by show offset + 1 + index ≤ _; omega, Or.inr hoccurs,
      fun other hother hat ↦ ?_⟩
    by_contra hlt
    exact hbefore other hother (not_le.mp hlt) hat

theorem scanStartCodes_readsOutside {data : ByteBlock} {last : ℕ} (hlast : last + 3 = data.length)
    (hoccurs : OccursAt startCodePrefix data last) {turns offset : ℕ}
    (hturns : data.length < offset + turns) (hoffset : offset ≤ last) :
    (scanStartCodes data turns offset).outcome = .readsOutside := by
  induction turns generalizing offset with
  | zero => omega
  | succ turns ih =>
    obtain ⟨next, hnext⟩ : ∃ next, ((locate startCodePrefix (data.drop (offset + 1))).map
        (offset + 1 + ·)).getD data.length = next := ⟨_, rfl⟩
    obtain ⟨hlt, -, -, hfirst⟩ := next_spec data (by omega) hnext
    unfold scanStartCodes
    rw [if_neg (by omega), hnext]
    dsimp only
    cases hcode : data[offset + 3]? with
    | none => rfl
    | some startCode =>
      have hinside : offset + 3 < data.length := (List.getElem?_eq_some_iff.mp hcode).1
      exact ih (by omega) (hfirst last (by omega) hoccurs)

/-- The units follow each other up to the end. -/
theorem scanStartCodes_spec {data : ByteBlock} (hsuffix : ¬ startCodePrefix <:+ data)
    {turns offset : ℕ} (hturns : data.length < offset + turns)
    (hoffset : offset = data.length ∨ OccursAt startCodePrefix data offset) :
    (scanStartCodes data turns offset).outcome = .finished ∧
      (∀ unit ∈ (scanStartCodes data turns offset).units,
        OccursAt startCodePrefix data unit.offset ∧ data[unit.offset + 3]? = some unit.startCode) ∧
      Tiles offset data.length (scanStartCodes data turns offset).units := by
  induction turns generalizing offset with
  | zero =>
    rcases hoffset with rfl | hoccurs
    · omega
    · have hinside := hoccurs.length_le (by decide)
      omega
  | succ turns ih =>
    unfold scanStartCodes
    rcases hoffset with rfl | hoccurs
    · rw [if_pos le_rfl]
      exact ⟨rfl, fun _ hmem ↦ absurd hmem List.not_mem_nil, rfl⟩
    · have hinside : offset + 3 ≤ data.length := hoccurs.length_le (by decide)
      have hmore : offset + 3 < data.length := by
        refine lt_of_le_of_ne hinside fun hend ↦ hsuffix ?_
        exact (suffix_iff_occursAt data).mpr ⟨offset, hend, hoccurs⟩
      obtain ⟨next, hnext⟩ : ∃ next, ((locate startCodePrefix (data.drop (offset + 1))).map
          (offset + 1 + ·)).getD data.length = next := ⟨_, rfl⟩
      obtain ⟨hlt, hle, hstart, -⟩ := next_spec data (by omega) hnext
      obtain ⟨hfinished, hstarts, htiles⟩ := @ih next (by omega) hstart
      rw [if_neg (by omega), hnext, List.getElem?_eq_getElem hmore]
      refine ⟨hfinished, List.forall_mem_cons.mpr ⟨⟨hoccurs, ?_⟩, hstarts⟩, rfl, ?_, ?_⟩
      · exact List.getElem?_eq_getElem hmore
      · exact Nat.sub_pos_of_lt hlt
      · show Tiles (offset + (next - offset)) data.length _
        rwa [Nat.add_sub_cancel' hlt.le]

/-- The payloads which are covered. -/
theorem scanStartCodes_iff (data : ByteBlock) :
    CoversStartCodes data (scanStartCodes data (data.length + 1) 0) ↔ SplitsAtStartCodes data := by
  constructor
  · rintro ⟨hfinished, hstarts, -⟩
    by_cases hempty : data = []
    · exact Or.inl hempty
    · have hpositive := List.length_pos_iff.mpr hempty
      refine Or.inr ⟨?_, fun hsuffix ↦ ?_⟩
      · unfold scanStartCodes at hfinished hstarts
        rw [if_neg (by omega)] at hfinished hstarts
        cases hcode : data[0 + 3]? with
        | none =>
          rw [hcode] at hfinished
          cases hfinished
        | some startCode =>
          rw [hcode] at hstarts
          exact (hstarts _ List.mem_cons_self).1
      · obtain ⟨last, hlast, hoccurs⟩ := (suffix_iff_occursAt data).mp hsuffix
        have houtside := @scanStartCodes_readsOutside data last hlast hoccurs (data.length + 1) 0
          (by omega) (Nat.zero_le last)
        rw [hfinished] at houtside
        cases houtside
  · rintro (rfl | ⟨hstart, hsuffix⟩)
    · exact ⟨rfl, fun _ hmem ↦ absurd hmem List.not_mem_nil, rfl⟩
    · obtain ⟨hfinished, hstarts, htiles⟩ := @scanStartCodes_spec data hsuffix (data.length + 1) 0
        (by omega) (Or.inr hstart)
      refine ⟨hfinished, hstarts, ?_⟩
      have hfirst : locate startCodePrefix data = some 0 :=
        (locate_eq_some_iff (by decide)).mpr ⟨hstart, fun _ hlt ↦ absurd hlt (Nat.not_lt_zero _)⟩
      rw [hfirst]
      exact htiles

/-- The analysis ends inside the payload, and the units cover it, if and only if the payload is
empty, or starts with a start code and does not end with the prefix of another one. -/
theorem PESPacket.coversStartCodes_iff (packet : PESPacket) (streamType : UInt8)
    (scan : UnitScan StartCodeUnit) (hscan : packet.processVideo streamType = .mpeg2 scan) :
    CoversStartCodes packet.payload scan ↔ SplitsAtStartCodes packet.payload := by
  unfold PESPacket.processVideo at hscan
  split_ifs at hscan
  obtain rfl := VideoScan.mpeg2.inj hscan
  exact scanStartCodes_iff packet.payload

def videoHeader : ByteBlock := [0x00, 0x00, 0x01, 0xE0, 0x00, 0x00, 0x80, 0x00, 0x00]

theorem pesHeaderSize_videoHeader (payload : ByteBlock) :
    pesHeaderSize (videoHeader ++ payload) = some 9 := by
  have hlength : (videoHeader ++ payload).length = 9 + payload.length := List.length_append
  have hprefix : ¬ (byteAt (videoHeader ++ payload) 0 ≠ 0 ∨ byteAt (videoHeader ++ payload) 1 ≠ 0 ∨
      byteAt (videoHeader ++ payload) 2 ≠ 1) := by
    rintro (hbyte | hbyte | hbyte) <;> exact hbyte rfl
  have hoptions : ¬ (videoHeader ++ payload).length <
      9 + (byteAt (videoHeader ++ payload) 8).toNat := by
    rw [hlength]
    exact not_lt.mpr (Nat.le_add_right 9 _)
  have hlong : isLongHeaderSID (byteAt (videoHeader ++ payload) 3) = true := rfl
  unfold pesHeaderSize
  rw [if_neg (by omega), if_neg hprefix, if_pos hlong, if_neg (by omega), if_neg hoptions]
  rfl

def videoPacket (payload : ByteBlock) : PESPacket where
  data := videoHeader ++ payload
  headerSize := 9
  sourcePid := 0x100
  firstPkt := 0
  lastPkt := 0
  valid := pesHeaderSize_videoHeader payload

/-- The payload of a video packet with two complete units. -/
theorem coversStartCodes_two_units :
    CoversStartCodes (videoPacket [0, 0, 1, 0xB3, 0x14, 0, 0, 1, 0xB5]).payload
      (scanStartCodes (videoPacket [0, 0, 1, 0xB3, 0x14, 0, 0, 1, 0xB5]).payload 10 0) :=
  (PESPacket.coversStartCodes_iff _ stNull _ rfl).mpr (Or.inr (by decide))

/-- The byte after a prefix at the end of the payload is read. -/
theorem cut_startCode_not_coversStartCodes :
    ∃ scan, (videoPacket [0, 0, 1, 0xB3, 0x14, 0, 0, 1]).processVideo stNull = .mpeg2 scan ∧
      ¬ CoversStartCodes (videoPacket [0, 0, 1, 0xB3, 0x14, 0, 0, 1]).payload scan := by
  refine ⟨_, rfl, fun hcovers ↦ ?_⟩
  have hfinished := hcovers.finished
  revert hfinished
  decide

/-! ### The units of AVC video -/

theorem OccursAt.apart {data : ByteBlock} {first second : ℕ}
    (hfirst : OccursAt startCodePrefix data first) (hsecond : OccursAt startCodePrefix data second)
    (hlt : first < second) : first + 3 ≤ second := by
  by_contra hnear
  have hone : data[first + 2]? = some 1 := hfirst.getElem?_eq (by decide)
  rcases (show second = first + 1 ∨ second = first + 2 by omega) with rfl | rfl
  · have hzero : data[first + 1 + 1]? = some 0 := hsecond.getElem?_eq (by decide)
    rw [hone] at hzero
    exact absurd hzero (by decide)
  · have hzero : data[first + 2 + 0]? = some 0 := hsecond.getElem?_eq (by decide)
    rw [Nat.add_zero, hone] at hzero
    exact absurd hzero (by decide)

end TSDuck
