import Mathlib.Algebra.Order.Field.Basic
import Mathlib.Data.Nat.Cast.Order.Field
import Mathlib.Data.Rat.Cast.Order
import Mathlib.Tactic.Linarith
import Mathlib.Tactic.NormNum
import Mathlib.Tactic.Positivity
import Mathlib.Tactic.Ring
import TSDuck.Library.Machine
import TSDuck.Mpeg.PCRAnalyzer
import TSDuck.Mpeg.PacketWriter

/-!
# Limitation of the bitrate of a stream

The plugin evaluates the bitrate of the stream between two clock references of a PID. When it exceeds
a maximum, packets are in excess and some of them are dropped.

The excess is computed from the last evaluation in excess, also when there were other evaluations
since then. `isAccounted_iff` states in which runs the packets which are dropped are in excess.

Scope. The bitrate is not evaluated with the wall clock. The tables, which say which PIDs are audio
or video, are a part of the inputs. The sums of the counters do not reach 64 bits; the products are
the 64-bit words of the code.
-/

namespace TSDuck

structure LimitOptions where
  maxBitrate : ℕ
  threshold1 : ℕ
  threshold2 : ℕ
  threshold3 : ℕ
  pids1 : List ℕ

def LimitOptions.thresholdAV (options : LimitOptions) : ℕ :=
  if options.pids1.isEmpty then options.threshold2 else options.threshold3

/-- The context of a PID is its last PCR and the index of its packet. -/
structure LimitPlugin where
  curBitrate : ℕ
  currentPacket : ℕ
  excessPoint : ℕ
  excessPackets : ℕ
  excessBits : ℕ
  contexts : ℕ → Option (ℕ × ℕ)

namespace LimitPlugin

def pktBits : ℕ := 8 * pktSize

def systemClockFreq : ℕ := 27000000

def start : LimitPlugin where
  curBitrate := 0
  currentPacket := 0
  excessPoint := 0
  excessPackets := 0
  excessBits := 0
  contexts := fun _ ↦ none

variable (plugin : LimitPlugin) (options : LimitOptions) (pkt : TSPacket)

def addExcessBits (bits : ℕ) : LimitPlugin :=
  { plugin with
    excessPackets := plugin.excessPackets + (plugin.excessBits + bits) / pktBits
    excessBits := (plugin.excessBits + bits) % pktBits }

/-- The last clock reference of the PID of a packet, when a bitrate is evaluated from it. -/
def lastReference : Option (ℕ × ℕ) :=
  if pkt.hasPCR then
    (plugin.contexts pkt.getPID).filter fun last ↦ decide (last.1 < pkt.getPCR)
  else none

def newBitrate (last : ℕ × ℕ) : ℕ :=
  (plugin.currentPacket - last.2) * pktBits * systemClockFreq % wordMax / (pkt.getPCR - last.1) % 2 ^ 32

def evaluate (bitrate : ℕ) : LimitPlugin :=
  if bitrate ≤ options.maxBitrate then
    { plugin with curBitrate := bitrate, excessPackets := 0, excessBits := 0 }
  else
    let bits := (plugin.currentPacket - plugin.excessPoint) * pktBits % wordMax
    { plugin.addExcessBits (bits * (bitrate - options.maxBitrate) % wordMax / bitrate) with
      curBitrate := bitrate
      excessPoint := plugin.currentPacket }

def processPCR : LimitPlugin :=
  let evaluated := (plugin.lastReference pkt).elim plugin fun last ↦
    plugin.evaluate options (plugin.newBitrate pkt last)
  if pkt.hasPCR then
    { evaluated with
      contexts := Function.update plugin.contexts pkt.getPID (some (pkt.getPCR, plugin.currentPacket)) }
  else evaluated

def drops (isAV : Bool) : Bool :=
  let precious := pkt.hasPCR || pkt.getPUSI
  0 < plugin.excessPackets &&
    (options.threshold3 ≤ plugin.excessPackets ||
      options.thresholdAV ≤ plugin.excessPackets && !precious && isAV ||
      options.threshold1 ≤ plugin.excessPackets && !precious && decide (pkt.getPID ∈ options.pids1) ||
      pkt.getPID == 0x1FFF)

/-- Whether a packet is dropped, and the next state. -/
def processPacket (isAV : Bool) : Bool × LimitPlugin :=
  let measured := plugin.processPCR options pkt
  let drop := measured.drops options pkt isAV
  (drop,
    { measured with
      excessPackets := measured.excessPackets - drop.toNat
      currentPacket := measured.currentPacket + 1 })

/-- An evaluation of the bitrate: the packets of the interval, those from which the excess is
computed, those since the last clock reference, and the result. -/
structure Evaluation where
  packets : ℕ
  counted : ℕ
  distance : ℕ
  bitrate : ℕ

/-- The packets in excess of the maximum bitrate in an interval. -/
def Evaluation.excess (evaluation : Evaluation) : ℚ :=
  if options.maxBitrate < evaluation.bitrate then
    evaluation.packets * (evaluation.bitrate - options.maxBitrate) / evaluation.bitrate
  else 0

/-- No product overflows, and the excess is the one of the packets of the interval. -/
structure Evaluation.IsRight (evaluation : Evaluation) : Prop where
  rate : evaluation.distance * pktBits * systemClockFreq < wordMax
  excess : options.maxBitrate < evaluation.bitrate → evaluation.counted = evaluation.packets ∧
    evaluation.counted * pktBits * (evaluation.bitrate - options.maxBitrate) < wordMax

/-- A plugin with the packet of the last evaluation, the dropped packets and those in excess. -/
structure Traced where
  plugin : LimitPlugin
  lastEvaluation : ℕ
  dropped : ℕ
  inExcess : ℚ

namespace Traced

variable (traced : Traced)

def start : Traced := ⟨LimitPlugin.start, 0, 0, 0⟩

def evaluation : Option Evaluation :=
  (traced.plugin.lastReference pkt).map fun last ↦
    { packets := traced.plugin.currentPacket - traced.lastEvaluation
      counted := traced.plugin.currentPacket - traced.plugin.excessPoint
      distance := traced.plugin.currentPacket - last.2
      bitrate := traced.plugin.newBitrate pkt last }

/-- A packet, which is audio or video or not. -/
def step (isAV : Bool) : Traced :=
  let result := traced.plugin.processPacket options pkt isAV
  { plugin := result.2
    lastEvaluation :=
      if (traced.evaluation pkt).isSome then traced.plugin.currentPacket else traced.lastEvaluation
    dropped := traced.dropped + result.1.toNat
    inExcess := traced.inExcess + ((traced.evaluation pkt).map (·.excess options)).getD 0 }

def machine : Machine Traced (TSPacket × Bool) Evaluation where
  step traced input := some (traced.step options input.1 input.2, (traced.evaluation input.1).toList)

/-- Not more packets are dropped than there are in excess. -/
def IsBounded : Prop := (traced.dropped : ℚ) ≤ traced.inExcess

/-- A bitrate in excess is evaluated just after another one, or first; the distance between the clock
references and the packets in excess have a bound. -/
def IsSafe (input : TSPacket × Bool) : Prop :=
  ∀ last, traced.plugin.lastReference input.1 = some last →
    traced.plugin.currentPacket - last.2 ≤ 454263792 ∧
      (options.maxBitrate < traced.plugin.newBitrate input.1 last →
        traced.plugin.excessPoint = traced.lastEvaluation ∧
          (traced.plugin.currentPacket - traced.lastEvaluation) * pktBits *
            (traced.plugin.newBitrate input.1 last - options.maxBitrate) < wordMax)

/-- The bits which are still to drop and those which are dropped are in excess. -/
structure Sound : Prop where
  excessPoint_le : traced.plugin.excessPoint ≤ traced.plugin.currentPacket
  lastEvaluation_le : traced.lastEvaluation ≤ traced.plugin.currentPacket
  bits : ((traced.dropped + traced.plugin.excessPackets) * pktBits + traced.plugin.excessBits : ℚ) ≤
    traced.inExcess * pktBits

end Traced

variable {plugin options pkt} {traced : Traced}

theorem addExcessBits_bits (bits : ℕ) :
    (plugin.addExcessBits bits).excessPackets * pktBits + (plugin.addExcessBits bits).excessBits =
      plugin.excessPackets * pktBits + plugin.excessBits + bits := by
  have hsum := Nat.div_add_mod (plugin.excessBits + bits) pktBits
  rw [addExcessBits]
  dsimp only
  rw [Nat.add_mul, Nat.mul_comm (_ / _)]
  omega

/-- The excess of an evaluation which is computed from its interval. -/
theorem evaluate_bits {evaluation : Evaluation} {bitrate : ℕ} (hright : evaluation.IsRight options)
    (hbitrate : evaluation.bitrate = bitrate)
    (hcounted : evaluation.counted = plugin.currentPacket - plugin.excessPoint) :
    (((plugin.evaluate options bitrate).excessPackets * pktBits +
        (plugin.evaluate options bitrate).excessBits : ℕ) : ℚ) ≤
      (plugin.excessPackets * pktBits + plugin.excessBits : ℕ) + evaluation.excess options * pktBits := by
  subst hbitrate
  rw [evaluate, Evaluation.excess]
  by_cases hmax : options.maxBitrate < evaluation.bitrate
  · obtain ⟨heq, hlt⟩ := hright.excess hmax
    rw [if_neg (not_le.mpr hmax), if_pos hmax, ← hcounted]
    have hbits : evaluation.counted * pktBits < wordMax :=
      (Nat.le_mul_of_pos_right _ (Nat.sub_pos_of_lt hmax)).trans_lt hlt
    dsimp only
    rw [Nat.mod_eq_of_lt hbits, Nat.mod_eq_of_lt hlt, addExcessBits_bits, Nat.cast_add, heq]
    refine add_le_add_right (Nat.cast_div_le.trans_eq ?_) _
    push_cast [Nat.cast_sub hmax.le]
    ring
  · rw [if_pos (not_lt.mp hmax), if_neg hmax]
    dsimp only
    rw [Nat.zero_mul, zero_mul, add_zero]
    exact mod_cast Nat.zero_le _

theorem evaluate_places (options : LimitOptions) (bitrate : ℕ)
    (hexcess : plugin.excessPoint ≤ plugin.currentPacket) :
    (plugin.evaluate options bitrate).excessPoint ≤ plugin.currentPacket ∧
      (plugin.evaluate options bitrate).currentPacket = plugin.currentPacket := by
  rw [evaluate]
  generalize (plugin.currentPacket - plugin.excessPoint) * pktBits % wordMax = bits
  by_cases hmax : bitrate ≤ options.maxBitrate
  · rw [if_pos hmax]
    exact ⟨hexcess, rfl⟩
  · rw [if_neg hmax]
    exact ⟨le_rfl, rfl⟩

theorem processPCR_counters (plugin : LimitPlugin) (pkt : TSPacket) {evaluated : LimitPlugin}
    (hevaluated : (plugin.lastReference pkt).elim plugin (fun last ↦
      plugin.evaluate options (plugin.newBitrate pkt last)) = evaluated) :
    (plugin.processPCR options pkt).excessPackets = evaluated.excessPackets ∧
      (plugin.processPCR options pkt).excessBits = evaluated.excessBits ∧
      (plugin.processPCR options pkt).excessPoint = evaluated.excessPoint ∧
      (plugin.processPCR options pkt).currentPacket = evaluated.currentPacket := by
  rw [processPCR, hevaluated]
  split_ifs <;> exact ⟨rfl, rfl, rfl, rfl⟩

theorem processPacket_bits (isAV : Bool) :
    (((plugin.processPacket options pkt isAV).1.toNat +
        (plugin.processPacket options pkt isAV).2.excessPackets) * pktBits +
      (plugin.processPacket options pkt isAV).2.excessBits) =
    (plugin.processPCR options pkt).excessPackets * pktBits +
      (plugin.processPCR options pkt).excessBits := by
  rw [processPacket]
  dsimp only
  cases hdrop : (plugin.processPCR options pkt).drops options pkt isAV with
  | false => rw [Bool.toNat_false, Nat.zero_add, Nat.sub_zero]
  | true =>
    have hpos : 0 < (plugin.processPCR options pkt).excessPackets := by
      rw [drops, Bool.and_eq_true, decide_eq_true_eq] at hdrop
      exact hdrop.1
    rw [Bool.toNat_true, Nat.add_sub_cancel' hpos]

theorem processPacket_places (plugin : LimitPlugin) (options : LimitOptions) (pkt : TSPacket)
    (isAV : Bool) :
    (plugin.processPacket options pkt isAV).2.excessPoint =
        (plugin.processPCR options pkt).excessPoint ∧
      (plugin.processPacket options pkt isAV).2.currentPacket =
        (plugin.processPCR options pkt).currentPacket + 1 := by
  rw [processPacket]
  exact ⟨rfl, rfl⟩

namespace Traced

theorem isRight_iff_isSafe (hsound : traced.Sound) (input : TSPacket × Bool) :
    (∀ evaluation ∈ (traced.evaluation input.1).toList, evaluation.IsRight options) ↔
      traced.IsSafe options input := by
  have hexcess := hsound.excessPoint_le
  have hlast := hsound.lastEvaluation_le
  rw [evaluation, IsSafe]
  cases traced.plugin.lastReference input.1 with
  | none => exact iff_of_true nofun nofun
  | some last =>
    rw [Option.map_some, Option.toList_some, List.forall_mem_singleton]
    have hrate : ∀ distance, distance * pktBits * systemClockFreq < wordMax ↔
        distance ≤ 454263792 := by
      intro distance
      rw [pktBits, pktSize, systemClockFreq, wordMax]
      omega
    constructor
    · rintro ⟨hlt, hright⟩ _ ⟨⟩
      refine ⟨(hrate _).mp hlt, fun hmax ↦ ?_⟩
      obtain ⟨heq, hproduct⟩ := hright hmax
      dsimp only at heq hproduct
      rw [heq] at hproduct
      exact ⟨by omega, hproduct⟩
    · intro hsafe
      obtain ⟨hle, hpoint⟩ := hsafe last rfl
      refine ⟨(hrate _).mpr hle, fun hmax ↦ ?_⟩
      obtain ⟨heq, hproduct⟩ := hpoint hmax
      dsimp only
      rw [heq]
      exact ⟨rfl, hproduct⟩

theorem Sound.step (hsound : traced.Sound) {input : TSPacket × Bool}
    (hright : ∀ evaluation ∈ (traced.evaluation input.1).toList, evaluation.IsRight options) :
    (traced.step options input.1 input.2).Sound := by
  have hbits := hsound.bits
  have hexcess := hsound.excessPoint_le
  have hlast := hsound.lastEvaluation_le
  have hmeasured : ((traced.plugin.processPCR options input.1).excessPackets * pktBits +
        (traced.plugin.processPCR options input.1).excessBits : ℕ) ≤
      ((traced.plugin.excessPackets * pktBits + traced.plugin.excessBits : ℕ) : ℚ) +
        ((traced.evaluation input.1).map (·.excess options)).getD 0 * pktBits ∧
      (traced.plugin.processPCR options input.1).excessPoint ≤ traced.plugin.currentPacket ∧
      (traced.plugin.processPCR options input.1).currentPacket = traced.plugin.currentPacket := by
    obtain ⟨hpackets, hexcessBits, hpoint, hcurrent⟩ :=
      traced.plugin.processPCR_counters input.1 rfl
    rw [hpackets, hexcessBits, hpoint, hcurrent]
    rw [evaluation] at hright ⊢
    cases hreference : traced.plugin.lastReference input.1 with
    | none => simpa using hexcess
    | some last =>
      rw [hreference, Option.map_some, Option.toList_some, List.forall_mem_singleton] at hright
      rw [Option.map_some, Option.map_some, Option.getD_some, Option.elim_some]
      generalize traced.plugin.newBitrate input.1 last = bitrate at hright ⊢
      exact ⟨evaluate_bits hright rfl rfl, evaluate_places options bitrate hexcess⟩
  obtain ⟨hcredit, hpoint, hcurrent⟩ := hmeasured
  rw [← processPacket_bits input.2] at hcredit
  have hnext := traced.plugin.processPacket_places options input.1 input.2
  rw [Traced.step]
  generalize traced.plugin.processPacket options input.1 input.2 = result at hcredit hnext ⊢
  rw [hcurrent] at hnext
  refine ⟨?_, ?_, ?_⟩
  · dsimp only
    rw [hnext.1, hnext.2]
    exact hpoint.trans (Nat.le_succ _)
  · dsimp only
    rw [hnext.2]
    split_ifs <;> omega
  · dsimp only
    push_cast at hcredit ⊢
    linarith

theorem Sound.isBounded (hsound : traced.Sound) : traced.IsBounded := by
  have hbits := hsound.bits
  have hpos : (0 : ℚ) < pktBits := by norm_num [pktBits, pktSize]
  have hrest : (0 : ℚ) ≤ traced.plugin.excessPackets * pktBits + traced.plugin.excessBits := by
    positivity
  refine le_of_mul_le_mul_right ?_ hpos
  linarith

/-- Only packets in excess are dropped, exactly in the runs whose evaluations are safe. -/
theorem isAccounted_iff (options : LimitOptions) (inputs : List (TSPacket × Bool)) :
    (machine options).HoldsAlong IsBounded (Evaluation.IsRight options) start inputs ↔
      (machine options).Meets (IsSafe options) start inputs := by
  obtain ⟨last, outputs, hrun⟩ := (machine options).exists_run (fun _ _ ↦ ⟨_, _, rfl⟩) start inputs
  refine (machine options).holdsAlong_iff_meets
    (fun traced (hsound : traced.Sound) ↦ hsound.isBounded) ?_ ?_ (fun _ _ ↦ trivial) ?_ hrun
  · rintro traced input _ _ - hsound hsafe ⟨⟩
    have hright := (isRight_iff_isSafe hsound input).mpr hsafe
    exact ⟨hsound.step hright, hright⟩
  · rintro traced input _ _ - hsound hunsafe ⟨⟩ ⟨-, hright⟩
    exact hunsafe ((isRight_iff_isSafe hsound input).mp hright)
  · exact ⟨le_rfl, le_rfl, by norm_num [start, LimitPlugin.start]⟩

/-- A packet of PID 100 with a clock reference. -/
def pcrPacket (pcr : ℕ) : TSPacket :=
  TSPacket.zero.write 0 ([0x47, 0x00, 0x64, 0x30, 0x07, 0x10] ++ TSPacket.putPCR pcr)

def megabit : LimitOptions := ⟨1000000, 1, 1, 1, []⟩

/-- Three intervals of 500 kb/s, then one packet at 2 Mb/s: half a packet is in excess. -/
theorem not_isAccounted_after_normal_bitrate :
    ¬ (machine megabit).HoldsAlong IsBounded (Evaluation.IsRight megabit) start
      ([0, 81216, 162432, 243648, 263952].map fun pcr ↦ (pcrPacket pcr, false)) := by
  intro halong
  have hbounded := (halong _ (List.prefix_refl _) _ _ rfl).1
  revert hbounded
  rw [IsBounded]
  decide +kernel

end Traced

end LimitPlugin

end TSDuck
