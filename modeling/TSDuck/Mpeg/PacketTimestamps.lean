import TSDuck.Mpeg.PacketClocks
import Mathlib.Tactic.IntervalCases

/-!
# The time stamps of a transport packet

`TSPacket.KeepsTimestamps` is what an application expects from their setters: the value which is
read back is the one which was set, modulo the range of the field, no bit changes outside of the
bits of the value, the other time stamps read the same, and a packet with a DTS has a PTS.

`PTSOffset` checks that the stream id is one with a long header and `DTSOffset` does not, so a
packet may have a DTS only.
-/

namespace TSDuck

namespace TSPacket

namespace Clock

/-- The setter of a clock, `none` when there is no such clock. -/
def replace (clock : Clock) (pkt : TSPacket) (value : ℕ) : Option TSPacket :=
  match clock with
  | pts => some (pkt.setPTS value)
  | dts => some (pkt.setDTS value)
  | pcr => pkt.setPCR value
  | opcr => pkt.setOPCR value

def range : Clock → ℕ
  | pts => 2 ^ 33
  | dts => 2 ^ 33
  | pcr => 2 ^ 33 * 300
  | opcr => 2 ^ 33 * 300

def valueBits : Clock → List UInt8
  | pts => [0x0E, 0xFF, 0xFE, 0xFF, 0xFE]
  | dts => [0x0E, 0xFF, 0xFE, 0xFF, 0xFE]
  | pcr => [0xFF, 0xFF, 0xFF, 0xFF, 0x81, 0xFF]
  | opcr => [0xFF, 0xFF, 0xFF, 0xFF, 0x81, 0xFF]

def maskAt (clock : Clock) (pkt : TSPacket) (index : ℕ) : UInt8 :=
  if clock.offset pkt ≤ index then clock.valueBits.getD (index - clock.offset pkt) 0 else 0

/-- A packet has the bits of another one, but for the value of a clock. -/
def ChangesOnly (clock : Clock) (pkt next : TSPacket) : Prop :=
  ∀ index, byteAt next.bytes index &&& ~~~(clock.maskAt pkt index) =
    byteAt pkt.bytes index &&& ~~~(clock.maskAt pkt index)

/-- A new value is read back and nothing else changes. -/
def IsReplaceable (clock : Clock) (pkt : TSPacket) : Prop :=
  ∀ value : UInt64, ∃ next, clock.replace pkt value.toNat = some next ∧
    clock.get next = value.toNat % clock.range ∧ clock.ChangesOnly pkt next ∧
      ∀ other, other ≠ clock → other.get next = other.get pkt

end Clock

/-- The time stamps can be replaced, and a DTS has a PTS. -/
structure KeepsTimestamps (pkt : TSPacket) : Prop where
  replaceable : ∀ clock, Clock.offset pkt clock ≠ 0 → clock.IsReplaceable pkt
  pts_of_dts : pkt.hasDTS = true → pkt.hasPTS = true

/-- The reserved bits of the clock references of a packet are ones. -/
def HasReservedBits (pkt : TSPacket) : Prop :=
  (pkt.pcrOffset ≠ 0 → byteAt pkt.bytes (pkt.pcrOffset + 4) &&& 0x7E = 0x7E) ∧
    (pkt.opcrOffset ≠ 0 → byteAt pkt.bytes (pkt.opcrOffset + 4) &&& 0x7E = 0x7E)

/-- The stream id is one with a long header. -/
def HasLongHeaderSID (pkt : TSPacket) : Prop :=
  isLongHeaderSID (byteAt pkt.payload 3) = true

namespace Clock

variable {clock other : Clock} {pkt : TSPacket}

theorem replace_eq (hclock : clock.offset pkt ≠ 0) (value : ℕ) :
    clock.replace pkt value = some (clock.set pkt value) := by
  cases clock with
  | pts => rfl
  | dts => rfl
  | pcr => exact (if_neg hclock).trans (congrArg some (if_neg hclock).symm)
  | opcr => exact (if_neg hclock).trans (congrArg some (if_neg hclock).symm)

theorem kept_eq (clock : Clock) (value : ℕ) : clock.kept value = value % clock.range := by
  have hreference : value / 300 % 2 ^ 33 * 300 + value % 300 = value % (2 ^ 33 * 300) := by
    rw [Nat.mul_comm (2 ^ 33) 300, Nat.mod_mul]
    omega
  cases clock with
  | pts => rfl
  | dts => rfl
  | pcr => exact hreference
  | opcr => exact hreference

theorem reserved_putPCR (value : ℕ) :
    byteAt (putPCR value) 4 &&& ~~~(0x81 : UInt8) = 0x7E := by
  have hextension : value % 300 < 2 ^ 9 := (Nat.mod_lt _ (by decide)).trans (by decide)
  have hbyte : byteAt (putPCR value) 4 =
      UInt8.ofNat (value / 300 % 2 * 128 + 126 + value % 300 / 256) := by
    refine UInt8.toNat.inj ?_
    simp only [putPCR, putUInt32, putPCR_low _ hextension, putUInt16, byteAt, List.cons_append,
      List.nil_append, List.getD_cons_zero, List.getD_cons_succ, UInt8.toNat_ofNat']
    omega
  have hbase : value / 300 % 2 < 2 := Nat.mod_lt _ (by decide)
  have hhigh : value % 300 / 256 < 2 := by omega
  rw [hbyte]
  generalize value / 300 % 2 = base at hbase
  generalize value % 300 / 256 = high at hhigh
  interval_cases base <;> interval_cases high <;> decide

theorem stamp_bits (data : ByteBlock) (offset value : ℕ) {index : ℕ} (hindex : index < 5) :
    byteAt (putPDTS data offset value) index &&& ~~~(valueBits .pts).getD index 0 =
      byteAt data (offset + index) &&& ~~~(valueBits .pts).getD index 0 := by
  obtain ⟨hzero, htwo, hfour⟩ := marks_putPDTS data offset value
  interval_cases index
  · exact hzero
  · exact (UInt8.and_zero).trans (UInt8.and_zero).symm
  · exact htwo
  · exact (UInt8.and_zero).trans (UInt8.and_zero).symm
  · exact hfour

theorem reference_bits (data : ByteBlock) (offset value : ℕ) {index : ℕ} (hindex : index < 6)
    (hreserved : byteAt data (offset + 4) &&& 0x7E = 0x7E) :
    byteAt (putPCR value) index &&& ~~~(valueBits .pcr).getD index 0 =
      byteAt data (offset + index) &&& ~~~(valueBits .pcr).getD index 0 := by
  interval_cases index
  · exact (UInt8.and_zero).trans (UInt8.and_zero).symm
  · exact (UInt8.and_zero).trans (UInt8.and_zero).symm
  · exact (UInt8.and_zero).trans (UInt8.and_zero).symm
  · exact (UInt8.and_zero).trans (UInt8.and_zero).symm
  · exact (reserved_putPCR value).trans hreserved.symm
  · exact (UInt8.and_zero).trans (UInt8.and_zero).symm

theorem changesOnly_set (hclock : clock.offset pkt ≠ 0) (value : ℕ) (hbits : ∀ index < clock.size,
      byteAt (clock.put pkt.bytes (clock.offset pkt) value) index &&&
          ~~~clock.valueBits.getD index 0 =
        byteAt pkt.bytes (clock.offset pkt + index) &&& ~~~clock.valueBits.getD index 0) :
    clock.ChangesOnly pkt (clock.set pkt value) := by
  intro index
  by_cases hinside : clock.offset pkt ≤ index ∧ index < clock.offset pkt + clock.size
  · obtain ⟨position, rfl⟩ := Nat.exists_eq_add_of_le hinside.1
    have hposition : position < clock.size := by omega
    rw [byteAt_set_self hclock value hposition, maskAt, if_pos hinside.1, Nat.add_sub_cancel_left]
    exact hbits position hposition
  · rw [byteAt_set value (by omega)]

/-- A time stamp can be replaced. -/
theorem isReplaceable_of_bits (hclock : clock.offset pkt ≠ 0)
    (hbits : ∀ value, ∀ index < clock.size,
      byteAt (clock.put pkt.bytes (clock.offset pkt) value) index &&&
          ~~~clock.valueBits.getD index 0 =
        byteAt pkt.bytes (clock.offset pkt + index) &&& ~~~clock.valueBits.getD index 0) :
    clock.IsReplaceable pkt := by
  intro value
  refine ⟨clock.set pkt value.toNat, replace_eq hclock _, ?_, changesOnly_set hclock _ (hbits _),
    fun other hne ↦ get_set_of_ne hne.symm pkt _⟩
  rw [get_set_self hclock, kept_eq]

theorem reserved_of_isReplaceable (hclock : clock.offset pkt ≠ 0)
    (hput : ∀ data start value, clock.put data start value = putPCR value)
    (hvalue : clock.valueBits = valueBits .pcr) (hsize : clock.size = 6)
    (hreplaceable : clock.IsReplaceable pkt) :
    byteAt pkt.bytes (clock.offset pkt + 4) &&& 0x7E = 0x7E := by
  obtain ⟨next, hnext, -, hchanges, -⟩ := hreplaceable 0
  obtain rfl := Option.some.inj ((replace_eq hclock _).symm.trans hnext)
  have hbyte := hchanges (clock.offset pkt + 4)
  rw [byteAt_set_self hclock _ (by omega), maskAt, if_pos (Nat.le_add_right _ _),
    Nat.add_sub_cancel_left, hput, hvalue] at hbyte
  exact hbyte.symm.trans (reserved_putPCR _)

end Clock

theorem shiftRight_of_and {flags : UInt8} (hflags : flags &&& 0xC0 = 0xC0) : flags >>> 6 = 0x03 := by
  have hand : flags.toNat &&& 192 = 192 := by
    have hnat := congrArg UInt8.toNat hflags
    rwa [UInt8.toNat_and] at hnat
  have hle : 192 ≤ flags.toNat := by
    calc 192 = flags.toNat &&& 192 := hand.symm
      _ ≤ flags.toNat := Nat.and_le_left
  have hlt := flags.toNat_lt
  refine UInt8.toNat.inj ?_
  rw [UInt8.toNat_shiftRight]
  show flags.toNat >>> 6 = 3
  rw [Nat.shiftRight_eq_div_pow]
  omega

theorem hasPTS_iff_of_hasDTS {pkt : TSPacket} (hdts : pkt.hasDTS = true) :
    pkt.hasPTS = true ↔ pkt.HasLongHeaderSID := by
  unfold hasDTS dtsOffset at hdts
  rw [decide_eq_true_iff] at hdts
  dsimp only at hdts
  split_ifs at hdts with hstart hbad
  · exact absurd hdts (lt_irrefl 0)
  · exact absurd hdts (lt_irrefl 0)
  · simp only [not_or, not_not, not_lt] at hbad
    obtain ⟨hsize, hflags, hnine, heleven, hthirteen, -⟩ := hbad
    unfold hasPTS ptsOffset HasLongHeaderSID
    rw [decide_eq_true_iff]
    dsimp only
    rw [if_neg hstart]
    by_cases hlong : isLongHeaderSID (byteAt pkt.payload 3) = true
    · have hhigh := shiftRight_of_and hflags
      have hfields : ¬ (byteAt pkt.payload 7 >>> 6 &&& 0x02 = 0 ∨
          byteAt pkt.payload 7 >>> 6 = 0x02 ∧ byteAt pkt.payload 9 &&& 0xF1 ≠ 0x21 ∨
          byteAt pkt.payload 7 >>> 6 = 0x03 ∧ byteAt pkt.payload 9 &&& 0xF1 ≠ 0x31 ∨
          byteAt pkt.payload 11 &&& 0x01 ≠ 0x01 ∨ byteAt pkt.payload 13 &&& 0x01 ≠ 0x01) := by
        rw [hhigh, hnine, heleven, hthirteen]
        decide
      have hheader : ¬ (pkt.payload.length < 14 ∨
          (!isLongHeaderSID (byteAt pkt.payload 3)) = true) := by
        rw [hlong]
        simp only [Bool.not_true, Bool.false_eq_true, or_false, not_lt]
        omega
      rw [if_neg hheader, if_neg hfields]
      exact iff_of_true (Nat.add_pos_right _ (by decide)) hlong
    · have hheader : pkt.payload.length < 14 ∨
          (!isLongHeaderSID (byteAt pkt.payload 3)) = true := Or.inr (by simpa using hlong)
      rw [if_pos hheader]
      exact iff_of_false (lt_irrefl 0) hlong

/-- It holds if and only if the reserved bits of the clock references are ones and a packet with a
DTS has a stream id with a long header. -/
theorem keepsTimestamps_iff (pkt : TSPacket) :
    pkt.KeepsTimestamps ↔ pkt.HasReservedBits ∧ (pkt.hasDTS = true → pkt.HasLongHeaderSID) := by
  constructor
  · intro hkeeps
    refine ⟨⟨fun hpcr ↦ ?_, fun hopcr ↦ ?_⟩, fun hdts ↦
      (hasPTS_iff_of_hasDTS hdts).mp (hkeeps.pts_of_dts hdts)⟩
    · exact @Clock.reserved_of_isReplaceable .pcr pkt hpcr (fun _ _ _ ↦ rfl) rfl rfl
        (hkeeps.replaceable .pcr hpcr)
    · exact @Clock.reserved_of_isReplaceable .opcr pkt hopcr (fun _ _ _ ↦ rfl) rfl rfl
        (hkeeps.replaceable .opcr hopcr)
  · rintro ⟨⟨hpcr, hopcr⟩, hlong⟩
    refine ⟨fun clock hclock ↦ Clock.isReplaceable_of_bits hclock fun value index hindex ↦ ?_,
      fun hdts ↦ (hasPTS_iff_of_hasDTS hdts).mpr (hlong hdts)⟩
    cases clock with
    | pts => exact Clock.stamp_bits pkt.bytes _ value hindex
    | dts => exact Clock.stamp_bits pkt.bytes _ value hindex
    | pcr => exact Clock.reference_bits pkt.bytes _ value hindex (hpcr hclock)
    | opcr => exact Clock.reference_bits pkt.bytes _ value hindex (hopcr hclock)

/-- A padding PES packet, with bytes in the place of time stamps. -/
def paddingPacket : TSPacket where
  bytes := packetHeader true 0x100 0 ++ [0, 0, 1, sidPad, 0, 180, 0x80, 0xC0, 10, 0x31, 0, 1, 0, 1,
    0x11, 0, 1, 0, 1] ++ List.replicate 165 0xFF
  length_eq := rfl

/-- The packet has a DTS and no PTS. -/
theorem paddingPacket_not_keepsTimestamps : ¬ paddingPacket.KeepsTimestamps := by
  intro hkeeps
  have hpts := hkeeps.pts_of_dts (by decide +kernel)
  revert hpts
  decide +kernel

end TSPacket

end TSDuck
