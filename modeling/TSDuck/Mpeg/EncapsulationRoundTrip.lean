import TSDuck.Mpeg.DecapsulationLosses
import Mathlib.Data.List.TakeWhile

/-!
# The round trip of an encapsulation

Packets are encapsulated, and the output packets go to a new decapsulation without any loss.
`RoundTrip` says that the packets which are then extracted are the encapsulated packets from the
first one on, apart from those which are still in the queue, that the packets of the other PIDs are
unchanged, and that no assertion fails.

A queued packet is extracted only after an output packet with a pointer field, and the first one has
none. `roundTrip_iff` states that the round trip holds exactly when no packet has to be extracted,
which means that at most one output packet is built, and when the clock reference which is inserted
in this output packet fits in the adaptation field.
-/

namespace TSDuck

open PacketDecapsulation (fragment outOfRange withSync extracted)
open PacketEncapsulation (queuedPackets builtPackets)
open Losses (restored)

namespace PacketEncapsulation

/-! ### The assertions on the clock references -/

/-- The last clock reference is before the current packet. -/
def Clocked (enc : PacketEncapsulation) : Prop :=
  ∀ last, enc.pcrLastPacket = some last → last < enc.currentPacket

variable {enc : PacketEncapsulation} {sent : List TSPacket} {position index : ℕ}

theorem clocked_trackContinuity (hclocked : enc.Clocked) (pkt : TSPacket) :
    (enc.trackContinuity pkt).Clocked := by
  have hreset : ∀ counters, (resetPCR { enc with lastCC := counters }).Clocked := by
    intro counters last hlast
    cases (show none = some last from hlast)
  rw [trackContinuity]
  split_ifs
  · exact hclocked
  · dsimp only
    cases enc.lastCC pkt.getPID with
    | none => exact hclocked
    | some last =>
      dsimp only
      split_ifs
      · exact hreset _
      · exact hclocked

theorem collectPCR_clocked (hclocked : enc.Clocked) (pkt : TSPacket) :
    (enc.collectPCR pkt).2 = true ∧
      (∀ last, (enc.collectPCR pkt).1.pcrLastPacket = some last → last ≤ enc.currentPacket) ∧
      (enc.collectPCR pkt).1.currentPacket = enc.currentPacket := by
  have hle : ∀ last, enc.pcrLastPacket = some last → last ≤ enc.currentPacket :=
    fun last hlast ↦ (hclocked last hlast).le
  have hsaved : ∀ last, some enc.currentPacket = some last → last ≤ enc.currentPacket :=
    fun last hlast ↦ (Option.some.inj hlast).ge
  rw [collectPCR]
  split_ifs
  · dsimp only
    split
    · rename_i lastPacket _ hlastPacket _
      split_ifs
      · exact ⟨decide_eq_true (hclocked _ hlastPacket), hsaved, rfl⟩
      · exact ⟨rfl, hsaved, rfl⟩
    · exact ⟨rfl, hsaved, rfl⟩
  · exact ⟨rfl, hle, rfl⟩

/-- What is known of the clocks when an output packet is built. -/
def SameClock (enc other : PacketEncapsulation) : Prop :=
  other.pcrLastPacket = enc.pcrLastPacket ∧ other.currentPacket = enc.currentPacket

theorem sameClock_fillPacket (filling : Filling) : SameClock filling.enc (fillPacket filling).enc := by
  rw [fillPacket]
  split
  · exact ⟨rfl, rfl⟩
  · dsimp only
    split_ifs <;> exact ⟨rfl, rfl⟩

theorem sameClock_replacePacket (enc : PacketEncapsulation) :
    SameClock enc enc.replacePacket.enc := by
  have hopen : SameClock enc enc.openPacket.enc := by
    rw [openPacket]
    cases enc.nextPCR <;> exact ⟨rfl, rfl⟩
  have hhead : enc.headPacket.enc = enc.openPacket.enc := by
    rw [headPacket, stuffPacket, pointPacket]
    split_ifs <;> rfl
  have hfirst := sameClock_fillPacket enc.headPacket
  have hsecond := sameClock_fillPacket (fillPacket enc.headPacket)
  rw [hhead] at hfirst
  have hfill : enc.replacePacket.enc = (fillPayload enc.headPacket).enc := rfl
  rw [hfill, fillPayload]
  split_ifs
  · exact ⟨hsecond.1.trans (hfirst.1.trans hopen.1), hsecond.2.trans (hfirst.2.trans hopen.2)⟩
  · exact ⟨hfirst.1.trans hopen.1, hfirst.2.trans hopen.2⟩

theorem clocked_processPacket (hsends : enc.Sends sent position index) (hclocked : enc.Clocked)
    (pkt : TSPacket) :
    (enc.processPacket pkt).1.Clocked ∧ ((enc.processPacket pkt).2.asserted = true ↔
        ((enc.processPacket pkt).2.replaced = true → (enc.readyPacket pkt).PcrFits)) := by
  obtain ⟨hcollected, hle, hcurrent⟩ :=
    collectPCR_clocked (clocked_trackContinuity hclocked pkt) pkt
  have hready : SameClock ((enc.trackContinuity pkt).collectPCR pkt).1 (enc.readyPacket pkt) := by
    rw [PacketEncapsulation.readyPacket, checkPacket, PacketEncapsulation.queuePacket, checkConflict]
    split_ifs <;> exact ⟨rfl, rfl⟩
  have hnext : ∀ other : PacketEncapsulation, SameClock (enc.readyPacket pkt) other →
      Clocked { other with currentPacket := other.currentPacket + 1 } := by
    intro other hother last hlast
    have hsame := hle last (hready.1 ▸ hother.1 ▸ hlast)
    show last < other.currentPacket + 1
    rw [hother.2, hready.2, hcurrent]
    exact Nat.lt_succ_of_le hsame
  cases hreplaced : (enc.processPacket pkt).2.replaced with
  | false =>
    obtain ⟨-, -, hasserted⟩ := PacketEncapsulation.processPacket_of_kept hreplaced
    refine ⟨?_, by simp [hasserted, hcollected]⟩
    rw [processPacket_fst, hreplaced]
    exact hnext _ ⟨rfl, rfl⟩
  | true =>
    obtain ⟨-, -, hasserted⟩ := PacketEncapsulation.processPacket_of_replaced hreplaced
    obtain ⟨-, -, -, -, -, -, hfits⟩ :=
      (hsends.readyPacket pkt).replacePacket (hsends.latePackets_ne_nil hreplaced)
    refine ⟨?_, ?_⟩
    · rw [processPacket_fst, hreplaced]
      exact hnext _ (sameClock_replacePacket _)
    · rw [hasserted, hcollected, Bool.true_and]
      simpa using hfits

/-! ### Runs -/

/-- Packets which are not replaced: no output packet is built. -/
theorem Sends.processPackets_of_kept (hsends : enc.Sends sent position index)
    (hclocked : enc.Clocked) {packets : List TSPacket}
    (hinput : ∀ pkt ∈ packets, enc.isInput pkt = false)
    (hnull : position = (bodies sent).length ∨ ∀ pkt ∈ packets, pkt.getPID ≠ pidNull) :
    (enc.processPackets packets).1.Sends sent position index ∧
      (enc.processPackets packets).1.Clocked ∧
      ((enc.processPackets packets).1.pidOutput = enc.pidOutput ∧
        (enc.processPackets packets).1.pidInput = enc.pidInput) ∧
      builtPackets (enc.processPackets packets).2 = [] ∧
      ∀ outcome ∈ (enc.processPackets packets).2, outcome.asserted = true := by
  induction packets generalizing enc with
  | nil => exact ⟨hsends, hclocked, ⟨rfl, rfl⟩, rfl, fun _ houtcome ↦ absurd houtcome List.not_mem_nil⟩
  | cons pkt rest ih =>
    have hpkt := hinput pkt List.mem_cons_self
    have hqueued : (enc.processPacket pkt).2.queued = false := by rw [queued_eq, hpkt, Bool.false_and]
    have hsame : sentAfter sent pkt (enc.processPacket pkt).2 = sent := by
      rw [sentAfter, hqueued, if_neg Bool.false_ne_true]
    have hkept : (enc.processPacket pkt).2.replaced = false := by
      rw [Bool.eq_false_iff, ne_eq, hsends.replaced_iff pkt, hpkt, hsame]
      rintro ⟨hany, hlt⟩
      rcases hnull with hend | hnone
      · omega
      · exact hnone pkt List.mem_cons_self (hany.resolve_left Bool.false_ne_true)
    have hnext := hsends.processPacket_of_kept hkept
    rw [hsame] at hnext
    obtain ⟨hnextClocked, hasserted⟩ := clocked_processPacket hsends hclocked pkt
    obtain ⟨hpid, hpidInput⟩ := hsends.processPacket_frame pkt
    have hrest : ∀ other ∈ rest, (enc.processPacket pkt).1.isInput other = false := by
      intro other hother
      rw [isInput, hpid, hpidInput]
      exact hinput other (List.mem_cons_of_mem _ hother)
    obtain ⟨hlast, hlastClocked, ⟨hlastPid, hlastInput⟩, hbuilt, hall⟩ := ih hnext hnextClocked hrest
      (hnull.imp_right fun hnone other hother ↦ hnone other (List.mem_cons_of_mem _ hother))
    rw [processPackets_cons]
    refine ⟨hlast, hlastClocked, ⟨hlastPid.trans hpid, hlastInput.trans hpidInput⟩, ?_, ?_⟩
    · rw [builtPackets_cons, hkept, if_neg Bool.false_ne_true, hbuilt]
    · exact List.forall_mem_cons.mpr ⟨hasserted.mpr (by simp [hkept]), hall⟩

def isSlot (enc : PacketEncapsulation) (pkt : TSPacket) : Bool :=
  enc.isInput pkt || pkt.getPID == pidNull

/-- The input and null packets, from the first input one. -/
def slots (enc : PacketEncapsulation) (packets : List TSPacket) : List TSPacket :=
  (packets.dropWhile fun pkt ↦ !enc.isInput pkt).filter enc.isSlot

/-- The first clock reference fits in the adaptation field. -/
def FirstFits (enc : PacketEncapsulation) (packets : List TSPacket) : Prop :=
  ∀ first ∈ (packets.dropWhile fun pkt ↦ !enc.isInput pkt).head?,
    ((enc.processPackets (packets.takeWhile fun pkt ↦ !enc.isInput pkt)).1.readyPacket first).PcrFits

def sentBytes (enc : PacketEncapsulation) (packets : List TSPacket) : ℕ :=
  Reassembly.extent ((builtPackets (enc.processPackets packets).2).map fragment)

theorem Sends.processPacket_first (hsends : enc.Sends [] 0 0) {pkt : TSPacket}
    (hinput : enc.isInput pkt = true) :
    (enc.processPacket pkt).2.replaced = true ∧
      let length := (fragment (enc.processPacket pkt).2.packet).data.length
      (enc.processPacket pkt).1.Sends [pkt] length 1 ∧ 12 ≤ length ∧ length < pktBodySize := by
  have hempty : enc.latePackets = [] := hsends.latePackets_eq_nil_iff.mpr rfl
  have hoverflow : enc.overflows = false := by simp [overflows, hempty]
  have hreplaced : (enc.processPacket pkt).2.replaced = true :=
    (hsends.replaced_iff pkt).mpr ⟨Or.inl hinput, hsends.lt_of_isInput hinput⟩
  have hsent : sentAfter [] pkt (enc.processPacket pkt).2 = [pkt] := by
    rw [sentAfter, queued_eq, hinput, hoverflow]
    rfl
  obtain ⟨-, hnext, -, -⟩ := hsends.processPacket_of_replaced hreplaced
  have hlength := (hsends.readyPacket pkt).length_data (hsends.latePackets_ne_nil hreplaced)
  rw [← (PacketEncapsulation.processPacket_of_replaced hreplaced).1] at hlength
  rw [hsent, Nat.zero_add, Nat.zero_add] at hnext
  obtain ⟨hlt, hle⟩ := hlength.1 (Nat.zero_mod _)
  exact ⟨hreplaced, hnext, hle, hlt⟩

theorem Sends.processPacket_second {first : TSPacket} (hsends : enc.Sends [first] position 1)
    (hposition : 12 ≤ position ∧ position < pktBodySize) {pkt : TSPacket}
    (hslot : enc.isInput pkt = true ∨ pkt.getPID = pidNull) :
    (enc.processPacket pkt).2.replaced = true ∧
      pktBodySize ≤ position + (fragment (enc.processPacket pkt).2.packet).data.length := by
  have hlt : position < (bodies (sentAfter [first] pkt (enc.processPacket pkt).2)).length := by
    have hle : pktBodySize ≤ (bodies (sentAfter [first] pkt (enc.processPacket pkt).2)).length := by
      rw [TSDuck.length_bodies, sentAfter]
      refine Nat.le_mul_of_pos_left _ ?_
      split_ifs <;> simp
    omega
  have hreplaced := (hsends.replaced_iff pkt).mpr ⟨hslot, hlt⟩
  have hlength := (hsends.readyPacket pkt).length_data (hsends.latePackets_ne_nil hreplaced)
  rw [← (PacketEncapsulation.processPacket_of_replaced hreplaced).1,
    Nat.mod_eq_of_lt hposition.2] at hlength
  exact ⟨hreplaced, hlength.2 hposition.1⟩

/-- The first packet is complete at the next slot. -/
theorem Sends.sentBytes_rest {first : TSPacket} (hsends : enc.Sends [first] position 1)
    (hposition : 12 ≤ position ∧ position < pktBodySize) (hclocked : enc.Clocked)
    (rest : List TSPacket) :
    (position + enc.sentBytes rest < pktBodySize ↔ rest.filter enc.isSlot = []) ∧
      (rest.filter enc.isSlot = [] →
        ∀ outcome ∈ (enc.processPackets rest).2, outcome.asserted = true) := by
  have hkept : ∀ packets : List TSPacket, (∀ pkt ∈ packets, enc.isSlot pkt = false) →
      (∀ pkt ∈ packets, enc.isInput pkt = false) ∧ ∀ pkt ∈ packets, pkt.getPID ≠ pidNull := by
    intro packets hnone
    simp only [isSlot, Bool.or_eq_false_iff, beq_eq_false_iff_ne] at hnone
    exact ⟨fun pkt hpkt ↦ (hnone pkt hpkt).1, fun pkt hpkt ↦ (hnone pkt hpkt).2⟩
  by_cases hslots : rest.filter enc.isSlot = []
  · have hnone : ∀ pkt ∈ rest, enc.isSlot pkt = false := by
      simpa [List.filter_eq_nil_iff] using hslots
    obtain ⟨hinput, hnull⟩ := hkept rest hnone
    obtain ⟨-, -, -, hbuilt, hasserted⟩ :=
      hsends.processPackets_of_kept hclocked hinput (Or.inr hnull)
    have hzero : enc.sentBytes rest = 0 := by rw [sentBytes, hbuilt]; rfl
    rw [hzero, Nat.add_zero]
    exact ⟨⟨fun _ ↦ hslots, fun _ ↦ hposition.2⟩, fun _ ↦ hasserted⟩
  · refine ⟨⟨fun hlt ↦ absurd hlt ?_, fun hnone ↦ absurd hnone hslots⟩,
      fun hnone ↦ absurd hnone hslots⟩
    -- The packets before the next slot are kept.
    have hsplit := List.takeWhile_append_dropWhile (p := fun pkt ↦ !enc.isSlot pkt) (l := rest)
    have hfront : ∀ pkt ∈ rest.takeWhile fun pkt ↦ !enc.isSlot pkt, enc.isSlot pkt = false := by
      intro pkt hpkt
      simpa using List.mem_takeWhile_imp hpkt
    have hsecond := List.head?_dropWhile_not (fun pkt ↦ !enc.isSlot pkt) rest
    cases hdropped : rest.dropWhile fun pkt ↦ !enc.isSlot pkt with
    | nil =>
      rw [hdropped, List.append_nil] at hsplit
      refine absurd (List.filter_eq_nil_iff.mpr fun pkt hpkt ↦ ?_) hslots
      rw [← hsplit] at hpkt
      simp [hfront pkt hpkt]
    | cons second tail =>
      rw [hdropped] at hsecond hsplit
      obtain ⟨hinput, hnull⟩ := hkept _ hfront
      obtain ⟨hmiddle, -, ⟨hpid, hpidInput⟩, hbuilt, -⟩ :=
        hsends.processPackets_of_kept hclocked hinput (Or.inr hnull)
      have hslot : enc.isSlot second = true := by
        simpa using show (!enc.isSlot second) = false from hsecond
      rw [isSlot, Bool.or_eq_true, beq_iff_eq] at hslot
      obtain ⟨hreplaced, hlength⟩ := hmiddle.processPacket_second hposition
        (by rwa [isInput, hpid, hpidInput])
      rw [sentBytes, ← hsplit, processPackets_append, processPackets_cons, builtPackets_append,
        hbuilt, List.nil_append, builtPackets_cons, if_pos hreplaced, List.map_cons,
        Reassembly.extent_cons]
      omega

/-- Less bytes than a packet are sent with at most one slot. -/
theorem Sends.sentBytes_lt_iff (hsends : enc.Sends [] 0 0) (hclocked : enc.Clocked)
    (packets : List TSPacket) :
    (enc.sentBytes packets < pktBodySize ↔ (enc.slots packets).length ≤ 1) ∧
      ((∀ outcome ∈ (enc.processPackets packets).2, outcome.asserted = true) →
        enc.FirstFits packets) ∧
      ((enc.slots packets).length ≤ 1 → enc.FirstFits packets →
        ∀ outcome ∈ (enc.processPackets packets).2, outcome.asserted = true) := by
  have hsplit := List.takeWhile_append_dropWhile (p := fun pkt ↦ !enc.isInput pkt) (l := packets)
  have hfront : ∀ pkt ∈ packets.takeWhile fun pkt ↦ !enc.isInput pkt, enc.isInput pkt = false := by
    intro pkt hpkt
    simpa using List.mem_takeWhile_imp hpkt
  have hfirst := List.head?_dropWhile_not (fun pkt ↦ !enc.isInput pkt) packets
  obtain ⟨hmiddle, hmiddleClocked, ⟨hpid, hpidInput⟩, hnone, hasserted⟩ :=
    hsends.processPackets_of_kept hclocked hfront (Or.inl rfl)
  have hisInput : ∀ pkt, (enc.processPackets (packets.takeWhile fun pkt ↦
      !enc.isInput pkt)).1.isInput pkt = enc.isInput pkt := by
    intro pkt
    rw [isInput, isInput, hpid, hpidInput]
  rw [slots, FirstFits]
  cases hdropped : packets.dropWhile fun pkt ↦ !enc.isInput pkt with
  | nil =>
    rw [hdropped, List.append_nil] at hsplit
    rw [hsplit] at hnone hasserted
    have hzero : enc.sentBytes packets = 0 := by rw [sentBytes, hnone]; rfl
    rw [hzero]
    exact ⟨⟨fun _ ↦ Nat.zero_le 1, fun _ ↦ by decide⟩,
      fun _ first hhead ↦ absurd hhead (Option.not_mem_none first), fun _ _ ↦ hasserted⟩
  | cons first rest =>
    rw [hdropped] at hfirst
    have hinput : enc.isInput first = true := by
      simpa using show (!enc.isInput first) = false from hfirst
    have hrun := congrArg enc.processPackets hsplit.symm
    rw [hdropped, processPackets_append, processPackets_cons] at hrun
    generalize (enc.processPackets (packets.takeWhile fun pkt ↦ !enc.isInput pkt)).2 = front at *
    generalize (enc.processPackets (packets.takeWhile fun pkt ↦ !enc.isInput pkt)).1 = middle at *
    obtain ⟨hreplaced, hnext, hlength⟩ := hmiddle.processPacket_first (by rwa [hisInput])
    obtain ⟨hnextClocked, hfits⟩ := clocked_processPacket hmiddle hmiddleClocked first
    obtain ⟨hnextPid, hnextInput⟩ := hmiddle.processPacket_frame first
    obtain ⟨hrest, hrestAsserted⟩ := hnext.sentBytes_rest hlength hnextClocked rest
    have hisSlot : (middle.processPacket first).1.isSlot = enc.isSlot := by
      funext pkt
      rw [isSlot, isSlot, isInput, isInput, hnextPid, hnextInput, hpid, hpidInput]
    have hslots : ((first :: rest).filter enc.isSlot).length ≤ 1 ↔ rest.filter enc.isSlot = [] := by
      rw [List.filter_cons_of_pos (by rw [isSlot, hinput, Bool.true_or]), List.length_cons,
        ← List.length_eq_zero_iff]
      omega
    have hsum : enc.sentBytes packets =
        (fragment (middle.processPacket first).2.packet).data.length +
          (middle.processPacket first).1.sentBytes rest := by
      rw [sentBytes, hrun]
      dsimp only
      rw [builtPackets_append, hnone, List.nil_append, builtPackets_cons, if_pos hreplaced,
        List.map_cons, Reassembly.extent_cons]
      rfl
    rw [hisSlot] at hrest hrestAsserted
    rw [hsum, hslots, hrun]
    refine ⟨hrest, fun hall other hother ↦ ?_, fun hnone hfirstFits ↦ ?_⟩
    · cases hother
      exact hfits.mp (hall _ (List.mem_append_right _ List.mem_cons_self)) hreplaced
    · have hone := hfits.mpr fun _ ↦ hfirstFits first rfl
      exact List.forall_mem_append.mpr
        ⟨hasserted, List.forall_mem_cons.mpr ⟨hone, hrestAsserted hnone⟩⟩

theorem Sends.noConflict (hsends : enc.Sends sent position index) {packets : List TSPacket}
    (hstatus : ∀ outcome ∈ (enc.processPackets packets).2, outcome.status = true) :
    enc.NoConflict packets := by
  induction packets generalizing enc sent position index with
  | nil => exact fun pkt hpkt ↦ absurd hpkt List.not_mem_nil
  | cons pkt rest ih =>
    obtain ⟨hpid, hinput⟩ := hsends.processPacket_frame pkt
    obtain ⟨_, _, _, hnext⟩ := hsends.exists_next pkt
    rw [processPackets_cons] at hstatus
    obtain ⟨hfirst, hrest⟩ := List.forall_mem_cons.mp hstatus
    have hsame := (sameQueue_trackContinuity enc pkt).trans (sameQueue_collectPCR _ pkt)
    have htracked : ((enc.trackContinuity pkt).collectPCR pkt).1.hasConflict pkt =
        enc.hasConflict pkt := by
      rw [hasConflict, hasConflict, hsame.pidOutput_eq, hsame.pidInput_eq]
    have hfree : (!((enc.trackContinuity pkt).collectPCR pkt).1.hasConflict pkt) = true :=
      Bool.and_elim_left hfirst
    rw [htracked, Bool.not_eq_true'] at hfree
    intro other hother
    rcases List.mem_cons.mp hother with rfl | hlater
    · exact hfree
    · have hothers := ih hnext hrest other hlater
      rwa [hasConflict, hpid, hinput] at hothers

theorem Sends.forall₂_packets (hsends : enc.Sends sent position index) (packets : List TSPacket) :
    List.Forall₂ (fun pkt out ↦ enc.isSlot pkt = false → out = pkt) packets
      ((enc.processPackets packets).2.map Outcome.packet) := by
  induction packets generalizing enc sent position index with
  | nil => exact List.Forall₂.nil
  | cons pkt rest ih =>
    obtain ⟨hpid, hinput⟩ := hsends.processPacket_frame pkt
    obtain ⟨_, _, _, hnext⟩ := hsends.exists_next pkt
    have hisSlot : (enc.processPacket pkt).1.isSlot = enc.isSlot := by
      funext other
      rw [isSlot, isSlot, isInput, isInput, hpid, hinput]
    have hothers := ih hnext
    rw [hisSlot] at hothers
    rw [processPackets_cons, List.map_cons]
    refine List.Forall₂.cons (fun hslot ↦ ?_) hothers
    have hkept : (enc.processPacket pkt).2.replaced = false := by
      rw [Bool.eq_false_iff, ne_eq, hsends.replaced_iff pkt]
      rw [isSlot, Bool.or_eq_false_iff, beq_eq_false_iff_ne] at hslot
      rintro ⟨hin | hnull, -⟩
      · exact Bool.noConfusion (hslot.1.symm.trans hin)
      · exact hslot.2 hnull
    exact (PacketEncapsulation.processPacket_of_kept hkept).1

/-! ### The round trip -/

/-- The packets which left the queue are extracted in order. -/
def RoundTrip (enc : PacketEncapsulation) (packets : List TSPacket) : Prop :=
  let last := (enc.processPackets packets).1
  let outcomes := (enc.processPackets packets).2
  let sent := queuedPackets packets outcomes
  ∃ dec others, (PacketDecapsulation.new enc.pidOutput).processPackets
      (outcomes.map Outcome.packet) = some (dec, others) ∧
    extracted others = (sent.take (sent.length - last.latePackets.length)).map restored ∧
    List.Forall₂ (fun pkt other ↦ enc.isInput pkt = false → pkt.getPID ≠ pidNull →
      other.packet = pkt) packets others ∧
    ∀ outcome ∈ outcomes, outcome.asserted = true

theorem forall₂_unchanged (hnull : enc.pidOutput ≠ pidNull) {packets built : List TSPacket}
    {others : List PacketDecapsulation.Outcome} (hconflict : enc.NoConflict packets)
    (hbuilt : List.Forall₂ (fun pkt out ↦ enc.isSlot pkt = false → out = pkt) packets built)
    (hothers : List.Forall₂ (fun out other ↦ out.getPID ≠ enc.pidOutput → other.packet = out) built
      others) :
    List.Forall₂ (fun pkt other ↦ enc.isInput pkt = false → pkt.getPID ≠ pidNull →
      other.packet = pkt) packets others := by
  induction hbuilt generalizing others with
  | nil =>
    cases hothers
    exact List.Forall₂.nil
  | @cons pkt out rest builtRest hfirst _ ih =>
    cases hothers with
    | cons hother hrest =>
      refine List.Forall₂.cons (fun hinput hpid ↦ ?_)
        (ih (List.forall_mem_cons.mp hconflict).2 hrest)
      have hsame : out = pkt := by
        refine hfirst ?_
        rw [isSlot, hinput, Bool.false_or]
        exact beq_eq_false_iff_ne.mpr hpid
      have hotherPid : pkt.getPID ≠ enc.pidOutput := by
        intro houtput
        have hfree := hconflict pkt List.mem_cons_self
        simp only [hasConflict, houtput, decide_true, Bool.true_and, Bool.not_eq_false'] at hfree
        simp [isInput, houtput, hfree, hnull] at hinput
      rw [hsame] at hother
      exact hother hotherPid

/-- Everything is extracted if nothing is complete. -/
theorem extracted_eq_iff {sent given : List TSPacket} {fragments : List (Reassembly.Fragment UInt8)}
    (hcut : Reassembly.Cut ccMax pktBodySize (bodies sent) 0 0 fragments)
    (hle : Reassembly.extent fragments ≤ (bodies sent).length)
    (hgiven : given.map TSPacket.bytes = (Reassembly.Assembler.fresh.assemble ccMax pktBodySize
      fragments).2.map withSync) :
    given = (sent.take (Reassembly.extent fragments / pktBodySize)).map restored ↔
      Reassembly.extent fragments < pktBodySize := by
  obtain ⟨first, hfirst, hassembled⟩ := Reassembly.Assembler.assemble_fresh hcut
  have hpkt : 0 < pktBodySize := by decide
  rw [Nat.zero_add] at hassembled
  rw [Nat.zero_div] at hfirst
  have hlength := congrArg List.length hgiven
  rw [hassembled, List.length_map, List.length_map, Reassembly.length_records] at hlength
  have hcount : Reassembly.extent fragments / pktBodySize ≤ sent.length := by
    rw [TSDuck.length_bodies] at hle
    exact Nat.div_le_of_le_mul (by rwa [Nat.mul_comm])
  rw [← Nat.div_eq_zero_iff_lt hpkt]
  constructor
  · intro hsame
    rw [hsame, List.length_map, List.length_take, Nat.min_eq_left hcount] at hlength
    omega
  · intro hzero
    rw [hzero, Nat.zero_sub] at hlength
    rw [hzero, List.take_zero, List.map_nil]
    exact List.length_eq_zero_iff.mp hlength

end PacketEncapsulation

/-- When all calls succeed, the round trip holds exactly when no packet after the first input one is
null or in the input set, and its clock reference fits in the adaptation field. -/
theorem PacketEncapsulation.roundTrip_iff (pidOutput : ℕ) (pidInput : ℕ → Bool)
    (pcrReference maxBuffered : ℕ) (packets : List TSPacket) (hpid : pidOutput < pidNull)
    (hstatus : ∀ outcome ∈ ((start pidOutput pidInput pcrReference maxBuffered).processPackets
      packets).2, outcome.status = true) :
    let enc := start pidOutput pidInput pcrReference maxBuffered
    enc.RoundTrip packets ↔ (enc.slots packets).length ≤ 1 ∧ enc.FirstFits packets := by
  intro enc
  have hsends : enc.Sends [] 0 0 :=
    sends_start (hpid.trans (by decide)) pidInput pcrReference maxBuffered
  have hclocked : enc.Clocked := fun last hlast ↦ by cases (show none = some last from hlast)
  have hconflict : enc.NoConflict packets := hsends.noConflict hstatus
  obtain ⟨hslots, hfits, hasserted⟩ := hsends.sentBytes_lt_iff hclocked packets
  obtain ⟨-, hlast, -⟩ := hsends.processPackets packets
  have hlate := hlast.length_latePackets
  -- Every output packet is received.
  let flagged := ((enc.processPackets packets).2.map Outcome.packet).map fun pkt ↦ (pkt, true)
  have hflagged : flagged.map Prod.fst = (enc.processPackets packets).2.map Outcome.packet := by
    rw [List.map_map]
    exact List.map_id' _
  have hreceived : Losses.received flagged = (enc.processPackets packets).2.map Outcome.packet := by
    rw [← hflagged, Losses.received, List.filter_eq_self.mpr]
    exact fun entry hentry ↦ Losses.snd_of_mem_map hentry
  obtain ⟨hcut, hle, dec, others, hsome, hgiven, hothers⟩ :=
    Losses.exists_outcomes hsends hpid hconflict hflagged
  have hparts : Losses.fragments (Losses.onPID enc.pidOutput flagged) =
      ((builtPackets (enc.processPackets packets).2).map fragment).map fun part ↦ (part, true) := by
    rw [← Losses.map_fst_onPID hsends hpid.ne hconflict hflagged]
    exact Losses.fragments_of_received fun entry hentry ↦
      Losses.snd_of_mem_map (List.mem_filter.mp hentry).1
  rw [hparts, Reassembly.Assembler.received_all] at hgiven
  rw [hparts, List.map_map, Function.comp_def, List.map_id'] at hcut hle
  rw [hreceived] at hsome hothers
  have hcount : enc.sentBytes packets / pktBodySize ≤
      (queuedPackets packets (enc.processPackets packets).2).length := by
    rw [TSDuck.length_bodies] at hle
    exact Nat.div_le_of_le_mul (by rwa [Nat.mul_comm])
  have hsent : (queuedPackets packets (enc.processPackets packets).2).length -
      (enc.processPackets packets).1.latePackets.length = enc.sentBytes packets / pktBodySize := by
    rw [List.nil_append, Nat.zero_add] at hlate
    rw [hlate]
    exact Nat.sub_sub_self hcount
  have hextracted : extracted others = ((queuedPackets packets (enc.processPackets packets).2).take
      (enc.sentBytes packets / pktBodySize)).map restored ↔ (enc.slots packets).length ≤ 1 :=
    (extracted_eq_iff hcut hle hgiven).trans hslots
  constructor
  · rintro ⟨dec', others', hsome', hall, -, hassertions⟩
    obtain ⟨-, rfl⟩ := Prod.mk.inj (Option.some.inj (hsome.symm.trans hsome'))
    rw [hsent] at hall
    exact ⟨hextracted.mp hall, hfits hassertions⟩
  · rintro ⟨hone, hfirst⟩
    refine ⟨dec, others, hsome, ?_, ?_, hasserted hone hfirst⟩
    · rw [hsent]
      exact hextracted.mpr hone
    · exact forall₂_unchanged hpid.ne hconflict (hsends.forall₂_packets packets) hothers

/-- One packet, which stays in the queue. -/
theorem PacketEncapsulation.roundTrip_of_one_packet :
    Losses.encapsulation.RoundTrip [Losses.unitPacket 512 0] := by
  have hstatus : ∀ outcome ∈ (Losses.encapsulation.processPackets [Losses.unitPacket 512 0]).2,
      outcome.status = true := by decide +kernel
  refine (roundTrip_iff 256 (fun pid ↦ pid == 512) pidNull 8 [Losses.unitPacket 512 0] (by decide)
    hstatus).mpr ⟨by decide, ?_⟩
  intro first hfirst pcr hpcr
  cases (show first = Losses.unitPacket 512 0 from (Option.mem_some.mp hfirst).symm)
  cases (show none = some pcr from hpcr)

def twoPackets : List TSPacket :=
  [Losses.unitPacket 512 0, Losses.unitPacket 512 1]

/-- The first packet leaves the queue and is not extracted. -/
theorem PacketEncapsulation.not_roundTrip_of_two_packets :
    (∀ outcome ∈ (Losses.encapsulation.processPackets twoPackets).2, outcome.status = true) ∧
      ¬Losses.encapsulation.RoundTrip twoPackets := by
  refine ⟨by decide +kernel, ?_⟩
  rintro ⟨dec, others, hsome, hextracted, -⟩
  have hnone : ((PacketDecapsulation.new Losses.encapsulation.pidOutput).processPackets
      ((Losses.encapsulation.processPackets twoPackets).2.map Outcome.packet)).map
        (fun result ↦ (extracted result.2).length) = some 0 := by decide +kernel
  have hone : ((queuedPackets twoPackets (Losses.encapsulation.processPackets twoPackets).2).take
      ((queuedPackets twoPackets (Losses.encapsulation.processPackets twoPackets).2).length -
        (Losses.encapsulation.processPackets twoPackets).1.latePackets.length)).length = 1 := by
    decide +kernel
  have hlength := congrArg List.length hextracted
  rw [List.length_map, hone] at hlength
  rw [hsome, Option.map_some, hlength] at hnone
  exact absurd hnone (by decide)

end TSDuck
