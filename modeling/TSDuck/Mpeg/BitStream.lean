import Mathlib.Tactic.Ring
import TSDuck.Library.Machine
import TSDuck.Text.IntegerParser

/-!
# Bit streams in memory

A `BitStream` reads the bits of an area of memory, from the most significant one of each byte on. An
integer is read with a loop on bits, a loop on complete bytes and another loop on bits.

`isBitStream_iff` states in which sequences of calls the position stays in the stream and the integers
are made of their bits: the positions are computed with 64 bits, which nothing checks.

Scope. The area has less than 2^60 bytes. A read outside of it is refused by the machine.
-/

namespace TSDuck

/-- An area of memory with some bits inside. -/
structure BitArea where
  data : ByteBlock
  sizeInBits : ℕ
  offset : ℕ
  inside : offset + sizeInBits ≤ 8 * data.length
  small : data.length < 2 ^ 60

structure BitStream where
  base : ByteBlock
  startBit : ℕ
  endBit : ℕ
  nextBit : ℕ
  deriving DecidableEq

namespace BitStream

def reset (area : BitArea) : BitStream where
  base := area.data.drop (area.offset / 8)
  startBit := area.offset % 8
  endBit := (area.offset % 8 + area.sizeInBits) % 2 ^ 64
  nextBit := area.offset % 8

variable (stream : BitStream)

def seek (offset : ℕ) : BitStream :=
  { stream with nextBit := min stream.endBit ((stream.startBit + offset) % 2 ^ 64) }

def skip (count : ℕ) : BitStream :=
  { stream with nextBit := min stream.endBit ((stream.nextBit + count) % 2 ^ 64) }

def back (count : ℕ) : BitStream :=
  { stream with
    nextBit :=
      if stream.nextBit ≤ (stream.startBit + count) % 2 ^ 64 then stream.startBit
      else (stream.nextBit + 2 ^ 64 - count) % 2 ^ 64 }

def skipToNextByte : BitStream :=
  { stream with nextBit := min stream.endBit ((stream.nextBit + 8) % 2 ^ 64 / 8 * 8) }

/-- The position after some bits. -/
def advance (count : ℕ) : BitStream :=
  { stream with nextBit := stream.nextBit + count }

/-- Reads a bit; `none` is a read outside of the area. -/
def readBit (default : ℕ) : Option (ℕ × BitStream) :=
  if stream.endBit ≤ stream.nextBit then some (default, stream)
  else
    stream.base[stream.nextBit / 8]?.map fun byte ↦
      (byte.toNat >>> (7 - stream.nextBit % 8) % 2, stream.advance 1)

/-- The leading bits up to a byte boundary. -/
def readLeading (type : IntType) : ℤ → ℕ → BitStream → Option (ℤ × ℕ × BitStream)
  | value, 0, stream => some (value, 0, stream)
  | value, count + 1, stream =>
    if stream.nextBit % 8 = 0 then some (value, count + 1, stream)
    else (stream.readBit 0).bind fun bit ↦ readLeading type (type.wrap (2 * value + bit.1)) count bit.2

/-- The complete bytes. -/
def readBytes (type : IntType) : ℤ → ℕ → BitStream → Option (ℤ × ℕ × BitStream)
  | value, count + 8, stream =>
    stream.base[stream.nextBit / 8]?.bind fun byte ↦
      readBytes type (type.wrap (256 * value + byte.toNat)) count (stream.advance 8)
  | value, count, stream => some (value, count, stream)

/-- The trailing bits. -/
def readTrailing (type : IntType) : ℤ → ℕ → BitStream → Option (ℤ × BitStream)
  | value, 0, stream => some (value, stream)
  | value, count + 1, stream =>
    (stream.readBit 0).bind fun bit ↦ readTrailing type (type.wrap (2 * value + bit.1)) count bit.2

def read (type : IntType) (count : ℕ) (default : ℤ) : Option (ℤ × BitStream) :=
  if stream.endBit < stream.nextBit + count then some (default, stream)
  else
    (readLeading type 0 count stream).bind fun leading ↦
      (readBytes type leading.1 leading.2.1 leading.2.2).bind fun bytes ↦
        readTrailing type bytes.1 bytes.2.1 bytes.2.2

inductive Call
  | seek (offset : UInt64)
  | skip (count : UInt64)
  | back (count : UInt64)
  | skipToNextByte
  | readBit (default : ℕ)
  | read (type : IntType) (count : ℕ) (default : ℤ) (hcount : count ≤ type.width)

def perform : Call → Option (ℤ × BitStream)
  | .seek offset => some (0, stream.seek offset.toNat)
  | .skip count => some (0, stream.skip count.toNat)
  | .back count => some (0, stream.back count.toNat)
  | .skipToNextByte => some (0, stream.skipToNextByte)
  | .readBit default => (stream.readBit default).map fun bit ↦ (bit.1, bit.2)
  | .read type count default _ => stream.read type count default

/-- A call, its result, and the stream before and after it. -/
structure Done where
  call : Call
  result : ℤ
  before : BitStream
  after : BitStream

def machine : Machine BitStream Call Done where
  step stream call :=
    (stream.perform call).map fun last ↦ (last.2, [⟨call, last.1, stream, last.2⟩])

/-- The bits of successive calls to `readBit`. -/
def readBits : ℕ → BitStream → Option (List ℕ × BitStream)
  | 0, stream => some ([], stream)
  | count + 1, stream =>
    (readBits count stream).bind fun first ↦
      (first.2.readBit 0).map fun bit ↦ (first.1 ++ [bit.1], bit.2)

/-- The integer whose bits are given, from the most significant one on. -/
def compose (bits : List ℕ) : ℕ :=
  bits.foldl (fun value bit ↦ 2 * value + bit) 0

/-- An integer is made of its bits, or the default value. -/
def Done.IsRight (done : Done) : Prop :=
  match done.call with
  | .read type count default _ =>
    if done.before.nextBit + count ≤ done.before.endBit then
      ∃ bits, readBits count done.before = some (bits, done.after) ∧
        done.result = type.wrap (compose bits)
    else done.result = default ∧ done.after = done.before
  | _ => True

def IsInside : Prop :=
  stream.startBit ≤ stream.nextBit ∧ stream.nextBit ≤ stream.endBit

/-- The reads are in the area and all results are right. -/
def IsRight (area : BitArea) (calls : List Call) : Prop :=
  (∃ last dones, machine.run (reset area) calls = some (last, dones)) ∧
    machine.HoldsAlong IsInside Done.IsRight (reset area) calls

/-- The position does not leave the stream by a wrap around. -/
def IsSafe : Call → Prop
  | .seek offset => stream.startBit + offset.toNat < 2 ^ 64
  | .skip count =>
    stream.nextBit + count.toNat < 2 ^ 64 ∨ 2 ^ 64 + stream.startBit ≤ stream.nextBit + count.toNat
  | .back count =>
    stream.startBit + count.toNat < 2 ^ 64 ∨
      stream.nextBit + 2 ^ 64 ≤ stream.endBit + count.toNat
  | _ => True

/-- The stream is in the area, wherever the position is. -/
structure Fits : Prop where
  endBit_le : stream.endBit ≤ 8 * stream.base.length
  startBit_lt : stream.startBit < 8
  small : stream.endBit < 2 ^ 63

/-- A bit of the area. -/
def bitAt (data : ByteBlock) (index : ℕ) : ℕ :=
  (byteAt data (index / 8)).toNat >>> (7 - index % 8) % 2

/-- The value of some successive bits. -/
def valueFrom (data : ByteBlock) (first : ℕ) : ℕ → ℕ
  | 0 => 0
  | count + 1 => 2 * valueFrom data first count + bitAt data (first + count)

variable {stream}

theorem fits_reset (area : BitArea) : (reset area).Fits ∧ (reset area).IsInside := by
  have hinside := area.inside
  have hsmall := area.small
  have hend : (area.offset % 8 + area.sizeInBits) % 2 ^ 64 = area.offset % 8 + area.sizeInBits :=
    Nat.mod_eq_of_lt (by omega)
  refine ⟨⟨?_, Nat.mod_lt _ (by decide), ?_⟩, le_rfl, ?_⟩
  all_goals
    dsimp only [reset]
    rw [hend]
  · rw [List.length_drop]
    omega
  · omega
  · exact Nat.le_add_right _ _

theorem Fits.of_eq (hfits : stream.Fits) {next : BitStream} (hbase : next.base = stream.base)
    (hstart : next.startBit = stream.startBit) (hend : next.endBit = stream.endBit) : next.Fits :=
  ⟨by rw [hend, hbase]; exact hfits.endBit_le, hstart ▸ hfits.startBit_lt, hend ▸ hfits.small⟩

theorem Fits.advance (hfits : stream.Fits) (count : ℕ) : (stream.advance count).Fits :=
  hfits.of_eq rfl rfl rfl

@[simp] theorem advance_zero : stream.advance 0 = stream :=
  rfl

@[simp] theorem nextBit_advance (count : ℕ) :
    (stream.advance count).nextBit = stream.nextBit + count :=
  rfl

@[simp] theorem endBit_advance (count : ℕ) : (stream.advance count).endBit = stream.endBit :=
  rfl

theorem advance_advance (first second : ℕ) :
    (stream.advance first).advance second = stream.advance (first + second) := by
  rw [advance, advance, advance, Nat.add_assoc]

theorem Fits.getElem?_base (hfits : stream.Fits) (hnext : stream.nextBit < stream.endBit) :
    stream.base[stream.nextBit / 8]? = some (byteAt stream.base (stream.nextBit / 8)) := by
  have hle := hfits.endBit_le
  have hlt : stream.nextBit / 8 < stream.base.length := by omega
  rw [byteAt, List.getD_eq_getElem?_getD, List.getElem?_eq_getElem hlt, Option.getD_some]

theorem Fits.readBit (hfits : stream.Fits) (hnext : stream.nextBit < stream.endBit) (default : ℕ) :
    stream.readBit default = some (bitAt stream.base stream.nextBit, stream.advance 1) := by
  rw [BitStream.readBit, if_neg (Nat.not_le.mpr hnext), hfits.getElem?_base hnext]
  rfl

theorem valueFrom_add (data : ByteBlock) (first count other : ℕ) :
    valueFrom data first (count + other) =
      valueFrom data first count * 2 ^ other + valueFrom data (first + count) other := by
  induction other with
  | zero => rw [pow_zero, Nat.mul_one, Nat.add_zero, valueFrom, Nat.add_zero]
  | succ other ih =>
    rw [← Nat.add_assoc, valueFrom, ih, valueFrom, pow_succ, Nat.add_assoc first]
    ring

/-- The bits of a byte. -/
theorem valueFrom_byte (data : ByteBlock) {first : ℕ} (hfirst : first % 8 = 0) :
    valueFrom data first 8 = (byteAt data (first / 8)).toNat := by
  have hbit : ∀ index < 8, bitAt data (first + index) =
      (byteAt data (first / 8)).toNat >>> (7 - index) % 2 := by
    intro index hindex
    rw [bitAt, show (first + index) / 8 = first / 8 by omega,
      show (first + index) % 8 = index by omega]
  have hall : ∀ value < 256, (List.range 8).foldl
      (fun total index ↦ 2 * total + value >>> (7 - index) % 2) 0 = value := by
    decide +kernel
  rw [← hall _ (byteAt data (first / 8)).toNat_lt]
  simp only [valueFrom, hbit, Nat.reduceLT]
  rfl

/-- The calls to `readBit` give the bits of the area. -/
theorem Fits.readBits (hfits : stream.Fits) {count : ℕ}
    (hcount : stream.nextBit + count ≤ stream.endBit) :
    ∃ bits, BitStream.readBits count stream = some (bits, stream.advance count) ∧
      compose bits = valueFrom stream.base stream.nextBit count := by
  induction count with
  | zero => exact ⟨[], rfl, rfl⟩
  | succ count ih =>
    obtain ⟨bits, hbits, hvalue⟩ := ih (by omega)
    refine ⟨bits ++ [bitAt stream.base (stream.nextBit + count)], ?_, ?_⟩
    · have hbit := (hfits.advance count).readBit (show stream.nextBit + count < _ from hcount) 0
      rw [BitStream.readBits, hbits, Option.bind_some, hbit, advance_advance]
      rfl
    · rw [compose, List.foldl_append, ← compose, hvalue]
      rfl

section Read

variable (type : IntType)

/-- Bits are added after a value which is already reduced. -/
theorem wrap_mul_wrap_add (factor total other : ℤ) :
    type.wrap (factor * type.wrap total + other) = type.wrap (factor * total + other) :=
  type.wrap_eq_wrap_iff.mpr (((type.wrap_modEq total).mul_left factor).add_right other)

/-- The value after some more bits. -/
def following (stream : BitStream) (total : ℤ) (count : ℕ) : ℤ :=
  total * 2 ^ count + valueFrom stream.base stream.nextBit count

theorem following_advance (total : ℤ) (first second : ℕ) :
    (stream.advance first).following (stream.following total first) second =
      stream.following total (first + second) := by
  rw [following, following, following, valueFrom_add, pow_add]
  rw [nextBit_advance]
  push_cast
  rw [show (stream.advance first).base = stream.base from rfl]
  ring

theorem Fits.readBit_following (hfits : stream.Fits) (hnext : stream.nextBit < stream.endBit)
    (total : ℤ) :
    ∃ bit, stream.readBit 0 = some (bit, stream.advance 1) ∧
      type.wrap (2 * type.wrap total + bit) = type.wrap (stream.following total 1) := by
  refine ⟨_, hfits.readBit hnext 0, ?_⟩
  rw [wrap_mul_wrap_add, following, valueFrom, valueFrom, Nat.mul_zero, Nat.zero_add, pow_one,
    mul_comm total]
  rfl

theorem Fits.readLeading (hfits : stream.Fits) {count : ℕ}
    (hcount : stream.nextBit + count ≤ stream.endBit) (total : ℤ) :
    ∃ taken rest, count = taken + rest ∧ (rest = 0 ∨ (stream.nextBit + taken) % 8 = 0) ∧
      BitStream.readLeading type (type.wrap total) count stream =
        some (type.wrap (stream.following total taken), rest, stream.advance taken) := by
  induction count generalizing stream total with
  | zero => exact ⟨0, 0, rfl, Or.inl rfl, by simp [BitStream.readLeading, following, valueFrom]⟩
  | succ count ih =>
    rw [BitStream.readLeading]
    split_ifs with haligned
    · exact ⟨0, count + 1, (Nat.zero_add _).symm, Or.inr haligned,
        by simp [following, valueFrom]⟩
    · obtain ⟨bit, hbit, hvalue⟩ := hfits.readBit_following type (by omega) total
      obtain ⟨taken, rest, hsum, hend, hread⟩ := ih (hfits.advance 1)
        (by simp only [nextBit_advance, endBit_advance]; omega) (stream.following total 1)
      refine ⟨1 + taken, rest, by omega, ?_, ?_⟩
      · rwa [← Nat.add_assoc]
      · rw [hbit, Option.bind_some, hvalue, hread, following_advance, advance_advance]

theorem Fits.readBytes (hfits : stream.Fits) {count : ℕ}
    (hcount : stream.nextBit + count ≤ stream.endBit)
    (haligned : count = 0 ∨ stream.nextBit % 8 = 0) (total : ℤ) :
    ∃ taken rest, count = taken + rest ∧
      BitStream.readBytes type (type.wrap total) count stream =
        some (type.wrap (stream.following total taken), rest, stream.advance taken) := by
  induction count using Nat.strong_induction_on generalizing stream total with
  | _ count ih =>
    match count, ih with
    | more + 8, ih =>
      have hbyte : type.wrap (256 * type.wrap total + (byteAt stream.base (stream.nextBit / 8)).toNat) =
          type.wrap (stream.following total 8) := by
        rw [wrap_mul_wrap_add, following, valueFrom_byte _ (by omega), mul_comm total]
        rfl
      obtain ⟨taken, rest, hsum, hread⟩ := ih more (by omega) (hfits.advance 8)
        (by simp only [nextBit_advance, endBit_advance]; omega) (Or.inr (by rw [nextBit_advance]; omega))
        (stream.following total 8)
      refine ⟨8 + taken, rest, by omega, ?_⟩
      rw [BitStream.readBytes, hfits.getElem?_base (by omega), Option.bind_some, hbyte, hread,
        following_advance, advance_advance]
    | 0, _ | 1, _ | 2, _ | 3, _ | 4, _ | 5, _ | 6, _ | 7, _ =>
      exact ⟨0, _, (Nat.zero_add _).symm, by simp [BitStream.readBytes, following, valueFrom]⟩

theorem Fits.readTrailing (hfits : stream.Fits) {count : ℕ}
    (hcount : stream.nextBit + count ≤ stream.endBit) (total : ℤ) :
    BitStream.readTrailing type (type.wrap total) count stream =
      some (type.wrap (stream.following total count), stream.advance count) := by
  induction count generalizing stream total with
  | zero => simp [BitStream.readTrailing, following, valueFrom]
  | succ count ih =>
    obtain ⟨bit, hbit, hvalue⟩ := hfits.readBit_following type (by omega) total
    rw [BitStream.readTrailing, hbit, Option.bind_some, hvalue,
      ih (hfits.advance 1) (by simp only [nextBit_advance, endBit_advance]; omega), following_advance, advance_advance,
      Nat.add_comm 1]

/-- The three loops read all the bits. -/
theorem Fits.read (hfits : stream.Fits) {count : ℕ}
    (hcount : stream.nextBit + count ≤ stream.endBit) (default : ℤ) :
    stream.read type count default =
      some (type.wrap (valueFrom stream.base stream.nextBit count), stream.advance count) := by
  obtain ⟨first, rest, rfl, haligned, hleading⟩ := hfits.readLeading type hcount 0
  obtain ⟨second, third, rfl, hbytes⟩ := (hfits.advance first).readBytes type
    (by simp only [nextBit_advance, endBit_advance]; omega) haligned (stream.following 0 first)
  have htrailing := (hfits.advance (first + second)).readTrailing type
    (show _ + third ≤ _ by simp only [nextBit_advance, endBit_advance]; omega)
    (stream.following 0 (first + second))
  rw [following_advance, advance_advance] at hbytes htrailing
  rw [type.wrap_zero] at hleading
  rw [BitStream.read, if_neg (Nat.not_lt.mpr hcount), hleading, Option.bind_some, hbytes,
    Option.bind_some, htrailing, Nat.add_assoc, following, zero_mul, zero_add]

end Read

/-- No call is refused, and the safe ones stay in the stream. -/
theorem Fits.perform (hfits : stream.Fits) (call : Call) :
    ∃ result next, stream.perform call = some (result, next) ∧ next.Fits ∧
      Done.IsRight ⟨call, result, stream, next⟩ ∧
        (stream.IsInside → (next.IsInside ↔ stream.IsSafe call)) := by
  have hstart := hfits.startBit_lt
  have hsmall := hfits.small
  cases call with
  | seek offset =>
    refine ⟨0, _, rfl, hfits.of_eq rfl rfl rfl, trivial, fun ⟨hafter, hbefore⟩ ↦ ?_⟩
    have hoffset := offset.toNat_lt
    simp only [IsInside, IsSafe, seek]
    omega
  | skip count =>
    refine ⟨0, _, rfl, hfits.of_eq rfl rfl rfl, trivial, fun ⟨hafter, hbefore⟩ ↦ ?_⟩
    have hcount := count.toNat_lt
    simp only [IsInside, IsSafe, skip]
    omega
  | back count =>
    refine ⟨0, _, rfl, hfits.of_eq rfl rfl rfl, trivial, fun ⟨hafter, hbefore⟩ ↦ ?_⟩
    have hcount := count.toNat_lt
    simp only [IsInside, IsSafe, back]
    split_ifs <;> omega
  | skipToNextByte =>
    refine ⟨0, _, rfl, hfits.of_eq rfl rfl rfl, trivial, fun ⟨hafter, hbefore⟩ ↦
      iff_of_true ?_ trivial⟩
    simp only [IsInside, skipToNextByte]
    omega
  | readBit default =>
    rw [BitStream.perform]
    rcases Nat.lt_or_ge stream.nextBit stream.endBit with hlt | hle
    · rw [hfits.readBit hlt]
      exact ⟨_, _, rfl, hfits.advance 1, trivial, fun hinside ↦
        iff_of_true ⟨Nat.le_add_right_of_le hinside.1, hlt⟩ trivial⟩
    · rw [BitStream.readBit, if_pos hle]
      exact ⟨_, _, rfl, hfits, trivial, fun hinside ↦ iff_of_true hinside trivial⟩
  | read type count default hcount =>
    rw [BitStream.perform]
    by_cases henough : stream.nextBit + count ≤ stream.endBit
    · obtain ⟨bits, hbits, hvalue⟩ := hfits.readBits henough
      rw [hfits.read _ henough, ← hvalue]
      refine ⟨_, _, rfl, hfits.advance count, ?_, fun hinside ↦
        iff_of_true ⟨Nat.le_add_right_of_le hinside.1, henough⟩ trivial⟩
      simp only [Done.IsRight, if_pos henough]
      exact ⟨bits, hbits, rfl⟩
    · rw [BitStream.read, if_pos (Nat.not_le.mp henough)]
      refine ⟨_, _, rfl, hfits, ?_, fun hinside ↦ iff_of_true hinside trivial⟩
      simp only [Done.IsRight, if_neg henough, and_self]

theorem Fits.machine_step (hfits : stream.Fits) (call : Call) :
    ∃ next done, machine.step stream call = some (next, [done]) ∧ next.Fits ∧ done.IsRight ∧
      (stream.IsInside → (next.IsInside ↔ stream.IsSafe call)) := by
  obtain ⟨result, next, hperform, hnext⟩ := hfits.perform call
  exact ⟨next, _, congrArg (Option.map _) hperform, hnext⟩

theorem isBitStream_iff (area : BitArea) (calls : List Call) :
    IsRight area calls ↔ machine.Meets IsSafe (reset area) calls := by
  obtain ⟨hfits, hinside⟩ := fits_reset area
  obtain ⟨last, dones, hrun, -⟩ := @machine.exists_run_history_of_meets _ _ _ _ _ [] _
    (fun stream _ ↦ stream.Fits)
    (fun stream call _ hstream _ ↦
      (hstream.machine_step call).imp fun next ⟨done, hstep, hnext, _⟩ ↦ ⟨[done], hstep, hnext⟩)
    hfits (machine.meets_true _ calls)
  rw [IsRight, and_iff_right ⟨last, dones, hrun⟩]
  refine machine.holdsAlong_iff_meets
    (fun stream (hstream : stream.Fits ∧ stream.IsInside) ↦ hstream.2) ?_ ?_
    (fun _ _ ↦ trivial) ⟨hfits, hinside⟩ hrun
  · rintro stream call next outputs - ⟨hstream, hposition⟩ hsafe hstep
    obtain ⟨other, done, hother, hnext, hright, hiff⟩ := hstream.machine_step call
    cases hstep.symm.trans hother
    exact ⟨⟨hnext, (hiff hposition).mpr hsafe⟩, List.forall_mem_singleton.mpr hright⟩
  · rintro stream call next outputs - ⟨hstream, hposition⟩ hunsafe hstep ⟨hlater, -⟩
    obtain ⟨other, done, hother, -, -, hiff⟩ := hstream.machine_step call
    cases hstep.symm.trans hother
    exact hunsafe ((hiff hposition).mp hlater)

/-- Two bytes, without their first bit. -/
def afterFirstBit : BitArea where
  data := [0x12, 0x34]
  sizeInBits := 15
  offset := 1
  inside := by decide
  small := by decide

/-- A seek far after the end goes before the start. -/
theorem not_isRight_seek : ¬ IsRight afterFirstBit [.seek 0xFFFFFFFFFFFFFFFF] := by
  rintro ⟨-, halong⟩
  have hlast := (halong [.seek 0xFFFFFFFFFFFFFFFF] (List.prefix_refl _) _ _ rfl).1
  exact absurd hlast.1 (by decide)

end BitStream

end TSDuck
