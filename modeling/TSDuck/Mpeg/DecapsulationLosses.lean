import TSDuck.Mpeg.EncapsulationStream

/-!
# Decapsulation under losses

Some of the packets which an encapsulation produces are lost before they reach the decapsulation,
less than sixteen successive ones of the output PID. `extracted_of_losses` states that each packet
which is extracted is then one of the packets which have been encapsulated, in their order, and that
from a packet with a pointer field on, up to the next loss, all packets which are complete are
extracted.
-/

namespace TSDuck

open PacketDecapsulation (fragment pointerField outOfRange withSync extracted)
open PacketEncapsulation (queuedPackets builtPackets)

theorem bodies_drop (packets : List TSPacket) (count : ℕ) :
    (bodies packets).drop (count * pktBodySize) = bodies (packets.drop count) := by
  induction count generalizing packets with
  | zero => rw [Nat.zero_mul, List.drop_zero, List.drop_zero]
  | succ count ih =>
    cases packets with
    | nil => rfl
    | cons pkt rest =>
      have hpkt : bodies (pkt :: rest) = pkt.bytes.drop 1 ++ bodies rest := List.flatMap_cons
      have hlength := PacketEncapsulation.length_body pkt
      rw [hpkt, Nat.succ_mul, Nat.add_comm, ← List.drop_drop, List.drop_left' hlength, ih,
        List.drop_succ_cons]

namespace Losses

def received (flagged : List (TSPacket × Bool)) : List TSPacket :=
  (flagged.filter fun entry ↦ entry.2).map Prod.fst

def onPID (pid : ℕ) (flagged : List (TSPacket × Bool)) : List (TSPacket × Bool) :=
  flagged.filter fun entry ↦ entry.1.getPID = pid

/-- A packet with the synchronization byte. -/
def restored (pkt : TSPacket) : TSPacket :=
  pkt.setByte 0 syncByte

theorem bytes_restored (pkt : TSPacket) : (restored pkt).bytes = withSync (pkt.bytes.drop 1) := by
  obtain ⟨first, rest, hbytes⟩ := List.exists_cons_of_ne_nil
    (List.ne_nil_of_length_pos (pkt.length_eq.symm ▸ show 0 < pktSize by decide))
  rw [restored, TSPacket.setByte, withSync]
  dsimp only
  rw [hbytes]
  rfl

def fragments (flagged : List (TSPacket × Bool)) : List (Reassembly.Fragment UInt8 × Bool) :=
  flagged.map fun entry ↦ (fragment entry.1, entry.2)

theorem map_fst_fragments (flagged : List (TSPacket × Bool)) :
    (fragments flagged).map Prod.fst = (flagged.map Prod.fst).map fragment := by
  simp [fragments]

theorem map_snd_fragments (flagged : List (TSPacket × Bool)) :
    (fragments flagged).map Prod.snd = flagged.map Prod.snd := by
  simp [fragments]

theorem received_fragments (pid : ℕ) (flagged : List (TSPacket × Bool)) :
    ((received flagged).filter fun pkt ↦ pkt.getPID = pid).map fragment =
      Reassembly.received (fragments (onPID pid flagged)) := by
  induction flagged with
  | nil => rfl
  | cons entry rest ih =>
    obtain ⟨pkt, kept⟩ := entry
    rw [received, onPID, fragments, Reassembly.received] at ih ⊢
    by_cases hpid : pkt.getPID = pid <;> cases kept <;> simp [hpid, ih]

variable {packets sent given : List TSPacket} {flagged : List (TSPacket × Bool)}

theorem snd_of_mem_map {entry : TSPacket × Bool} (hentry : entry ∈ packets.map fun pkt ↦ (pkt, true)) :
    entry.2 = true := by
  obtain ⟨pkt, -, rfl⟩ := List.mem_map.mp hentry
  rfl

theorem fragments_of_received (hall : ∀ entry ∈ flagged, entry.2 = true) :
    (flagged.map fun entry ↦ (fragment entry.1, entry.2)) =
      ((flagged.map Prod.fst).map fragment).map fun part ↦ (part, true) := by
  rw [List.map_map, List.map_map]
  refine List.map_congr_left fun entry hentry ↦ ?_
  rw [hall entry hentry]
  rfl

theorem map_records {first last : ℕ} (hfirst : first ≤ last) (hlast : last ≤ sent.length) :
    (Reassembly.records pktBodySize (bodies sent) first last).map withSync =
      (((sent.take last).drop first).map restored).map TSPacket.bytes := by
  have hbodies : bodies sent = (sent.map fun pkt ↦ pkt.bytes.drop 1).flatten := rfl
  rw [hbodies, Reassembly.records_flatten_drop _ hfirst (by rwa [List.length_map]), ← List.map_take,
    ← List.map_drop, List.map_map, List.map_map]
  · exact List.map_congr_left fun pkt _ ↦ (bytes_restored pkt).symm
  · intro part hpart
    obtain ⟨pkt, -, rfl⟩ := List.mem_map.mp hpart
    exact PacketEncapsulation.length_body pkt

/-- The bytes received from the first packet start on. -/
def bytesFrom (pkt : TSPacket) (rest : List TSPacket) : ByteBlock :=
  ((pkt :: rest).flatMap fun other ↦ (fragment other).data).drop (pointerField pkt).1

theorem map_fst_onPID {enc : PacketEncapsulation} {position index : ℕ}
    (hsends : enc.Sends sent position index) (hnull : enc.pidOutput ≠ pidNull)
    (hconflict : enc.NoConflict packets) (hflagged : flagged.map Prod.fst =
      (enc.processPackets packets).2.map PacketEncapsulation.Outcome.packet) :
    (onPID enc.pidOutput flagged).map Prod.fst = builtPackets (enc.processPackets packets).2 := by
  have hreplaced := hsends.replaced_eq hnull hconflict
  have hfilter : (onPID enc.pidOutput flagged).map Prod.fst =
      (flagged.map Prod.fst).filter fun pkt ↦ pkt.getPID = enc.pidOutput := by
    rw [onPID, List.filter_map]
    rfl
  rw [hfilter, hflagged, List.filter_map, builtPackets]
  exact congrArg _ (List.filter_congr fun outcome houtcome ↦ (hreplaced outcome houtcome).symm)

/-- The decapsulation is the assembler on the fragments. -/
theorem exists_outcomes {enc : PacketEncapsulation} (hsends : enc.Sends [] 0 0)
    (hpid : enc.pidOutput < pidNull) (hconflict : enc.NoConflict packets)
    (hflagged : flagged.map Prod.fst =
      (enc.processPackets packets).2.map PacketEncapsulation.Outcome.packet) :
    let stream := bodies (queuedPackets packets (enc.processPackets packets).2)
    let cut := fragments (onPID enc.pidOutput flagged)
    Reassembly.Cut ccMax pktBodySize stream 0 0 (cut.map Prod.fst) ∧
      Reassembly.extent (cut.map Prod.fst) ≤ stream.length ∧
      ∃ last outcomes, (PacketDecapsulation.new enc.pidOutput).processPackets (received flagged) =
          some (last, outcomes) ∧
        (extracted outcomes).map TSPacket.bytes =
          (Reassembly.Assembler.fresh.assemble ccMax pktBodySize
            (Reassembly.received cut)).2.map withSync ∧
        List.Forall₂ (fun pkt other ↦ pkt.getPID ≠ enc.pidOutput → other.packet = pkt)
          (received flagged) outcomes := by
  have hbuilt := map_fst_onPID hsends hpid.ne hconflict hflagged
  obtain ⟨hcut, hlast, hranges⟩ := hsends.processPackets packets
  have hle := hlast.position_le
  rw [List.nil_append] at hcut hle
  rw [Nat.zero_add] at hle
  dsimp only
  rw [map_fst_fragments, hbuilt]
  refine ⟨hcut, hle, ?_⟩
  have hrange : ∀ pkt ∈ received flagged, pkt.getPID = enc.pidOutput → outOfRange pkt = false := by
    intro pkt hpkt hsame
    obtain ⟨entry, hentry, rfl⟩ := List.mem_map.mp hpkt
    have hon : entry ∈ onPID enc.pidOutput flagged :=
      List.mem_filter.mpr ⟨(List.mem_filter.mp hentry).1, by simpa using hsame⟩
    exact (hranges _ (hbuilt ▸ List.mem_map_of_mem hon)).2
  obtain ⟨last, outcomes, hsome, hgiven, hothers⟩ :=
    (PacketDecapsulation.matches_new enc.pidOutput).processPackets hpid.ne hrange
  refine ⟨last, outcomes, hsome, ?_, hothers⟩
  rw [hgiven, ← received_fragments]
  rfl

theorem eq_of_map_bytes {others : List TSPacket}
    (hbytes : given.map TSPacket.bytes = others.map TSPacket.bytes) : given = others := by
  have hinjective : Function.Injective TSPacket.bytes := by
    rintro ⟨bytes, hlength⟩ ⟨otherBytes, hother⟩ hsame
    cases hsame
    rfl
  exact (List.map_injective_iff.mpr hinjective) hbytes

theorem sublist_of_losses {cut : List (Reassembly.Fragment UInt8 × Bool)}
    (hcut : Reassembly.Cut ccMax pktBodySize (bodies sent) 0 0 (cut.map Prod.fst))
    (hle : Reassembly.extent (cut.map Prod.fst) ≤ (bodies sent).length)
    (hloss : Reassembly.SparseLoss ccMax 0 (cut.map Prod.snd))
    (hgiven : given.map TSPacket.bytes = (Reassembly.Assembler.fresh.assemble ccMax pktBodySize
      (Reassembly.received cut)).2.map withSync) : List.Sublist given (sent.map restored) := by
  have hfollows : (Reassembly.Assembler.fresh).Follows ccMax pktBodySize (bodies sent) 0 0 0 :=
    Or.inl rfl
  obtain ⟨-, hsublist⟩ := hfollows.assemble hcut hloss
  have hcount : Reassembly.extent (cut.map Prod.fst) / pktBodySize ≤ sent.length := by
    rw [length_bodies] at hle
    exact Nat.div_le_of_le_mul (by rwa [Nat.mul_comm])
  rw [Nat.zero_add, Nat.zero_div] at hsublist
  have hbytes := hsublist.map withSync
  rw [map_records (Nat.zero_le _) hcount, ← hgiven, List.drop_zero] at hbytes
  obtain ⟨others, hothers, hsame⟩ := List.sublist_map_iff.mp hbytes
  rw [eq_of_map_bytes hsame]
  exact hothers.trans ((List.take_sublist _ _).map restored)

/-- The bytes without loss from a packet start on. -/
theorem contiguous_of_losses {before after : List (Reassembly.Fragment UInt8 × Bool)}
    {fragment : Reassembly.Fragment UInt8} {rest : List (Reassembly.Fragment UInt8)} {start : ℕ}
    (hcut : Reassembly.Cut ccMax pktBodySize (bodies sent) 0 0
      (before.map Prod.fst ++ (fragment :: rest) ++ after.map Prod.fst))
    (hle : Reassembly.extent (before.map Prod.fst ++ (fragment :: rest)) ≤ (bodies sent).length)
    (hloss : Reassembly.SparseLoss ccMax 0 (before.map Prod.snd)) (hstart : fragment.start = some start)
    (hgiven : given.map TSPacket.bytes = (Reassembly.Assembler.fresh.assemble ccMax pktBodySize
      (Reassembly.received before ++ (fragment :: rest) ++ Reassembly.received after)).2.map
        withSync) :
    let bytes := ((fragment :: rest).flatMap Reassembly.Fragment.data).drop start
    ∃ first front back, bytes = (bodies (sent.drop first)).take bytes.length ∧
      given = front ++ ((sent.drop first).take (bytes.length / pktBodySize)).map restored ++
        back := by
  have hfollows : (Reassembly.Assembler.fresh).Follows ccMax pktBodySize (bodies sent) 0 0 0 :=
    Or.inl rfl
  obtain ⟨front, back, hassembled⟩ := hfollows.assemble_between hcut hloss hstart
  rw [Reassembly.cut_append, Reassembly.cut_append] at hcut
  obtain ⟨⟨-, hmiddle⟩, -⟩ := hcut
  obtain ⟨hstarts, -, -⟩ := Reassembly.Assembler.div_mod_of_start hmiddle.1 hstart
  obtain ⟨-, -, hstartLe⟩ := hmiddle.1.start_eq start hstart
  have hdata := Reassembly.flatMap_data hmiddle
  rw [Reassembly.extent_append] at hle
  rw [Nat.zero_add] at hstarts hdata hassembled
  generalize Reassembly.extent (before.map Prod.fst) = position at hle hstarts hdata hassembled
  generalize hfirst : position / pktBodySize + 1 = first at hstarts
  have hextent : fragment.data.length ≤ Reassembly.extent (fragment :: rest) := Nat.le_add_right _ _
  generalize Reassembly.extent (fragment :: rest) = extent at hle hdata hassembled hextent
  -- The bytes are in the stream from the first packet on which starts after the pointer field.
  have hbytes : ((fragment :: rest).flatMap Reassembly.Fragment.data).drop start =
      (bodies (sent.drop first)).take (extent - start) := by
    rw [hdata, List.drop_take, List.drop_drop, hstarts, bodies_drop]
  have hpkt : 0 < pktBodySize := by decide
  have hlength : (((fragment :: rest).flatMap Reassembly.Fragment.data).drop start).length =
      extent - start := by
    rw [hbytes, ← bodies_drop, List.length_take, List.length_drop, Nat.min_eq_left (by omega)]
  have hlast : (position + extent) / pktBodySize = first + (extent - start) / pktBodySize := by
    have hsum : position + extent = extent - start + first * pktBodySize := by omega
    rw [hsum, Nat.add_mul_div_right _ _ hpkt, Nat.add_comm]
  have hcount : first + (extent - start) / pktBodySize ≤ sent.length := by
    rw [length_bodies] at hle
    rw [← hlast]
    exact Nat.div_le_of_le_mul (by rwa [Nat.mul_comm])
  rw [hassembled, hstarts, Nat.mul_div_cancel _ hpkt, hlast, List.map_append, List.map_append,
    map_records (Nat.le_add_right _ _) hcount, List.drop_take, Nat.add_sub_cancel_left] at hgiven
  obtain ⟨left, right, hgivenEq, hleft, -⟩ := List.map_eq_append_iff.mp hgiven
  obtain ⟨given1, given2, hleftEq, -, hrecords⟩ := List.map_eq_append_iff.mp hleft
  refine ⟨first, given1, right, hbytes.trans (by rw [hlength]), ?_⟩
  rw [hlength, hgivenEq, hleftEq, eq_of_map_bytes hrecords]

/-- Without PID conflict, and provided that sixteen successive packets of the output PID are never
lost, the extracted packets are encapsulated ones, in order; from a packet with a pointer field to
the next loss, all complete ones are extracted; no assertion fails and no copy is outside of a
packet. -/
theorem extracted_of_losses (pidOutput : ℕ) (pidInput : ℕ → Bool) (pcrReference maxBuffered : ℕ)
    (packets : List TSPacket) (flagged : List (TSPacket × Bool)) (hpid : pidOutput < pidNull)
    (hconflict : (PacketEncapsulation.start pidOutput pidInput pcrReference maxBuffered).NoConflict
      packets)
    (hflagged : flagged.map Prod.fst =
      ((PacketEncapsulation.start pidOutput pidInput pcrReference maxBuffered).processPackets
        packets).2.map PacketEncapsulation.Outcome.packet)
    (hloss : ¬List.replicate ccMax false <:+: (onPID pidOutput flagged).map Prod.snd) :
    let enc := PacketEncapsulation.start pidOutput pidInput pcrReference maxBuffered
    let sent := queuedPackets packets (enc.processPackets packets).2
    (∃ last outcomes,
      (PacketDecapsulation.new pidOutput).processPackets (received flagged) = some (last, outcomes) ∧
        List.Sublist (extracted outcomes) (sent.map restored) ∧
        ∀ before pkt rest after, flagged = before ++ (pkt, true) :: rest ++ after →
          pkt.getPID = pidOutput → pkt.getPUSI = true →
          (∀ entry ∈ onPID pidOutput rest, entry.2 = true) →
          let bytes := bytesFrom pkt ((onPID pidOutput rest).map Prod.fst)
          ∃ first front back, bytes = (bodies (sent.drop first)).take bytes.length ∧
            extracted outcomes = front ++
              ((sent.drop first).take (bytes.length / pktBodySize)).map restored ++ back) ∧
      ∀ any : List TSPacket, ((PacketDecapsulation.new pidOutput).processPackets any).isSome := by
  intro enc sent
  replace hloss : Reassembly.SparseLoss ccMax 0 ((onPID pidOutput flagged).map Prod.snd) :=
    Reassembly.Assembler.sparseLoss_of_not_replicate (by decide) hloss
  refine ⟨?_, fun any ↦ ?_⟩
  · obtain ⟨hcut, hle, last, outcomes, hsome, hgiven, -⟩ := exists_outcomes
      (PacketEncapsulation.sends_start (hpid.trans (by decide)) pidInput pcrReference maxBuffered)
      hpid hconflict hflagged
    have hsame : (PacketEncapsulation.start pidOutput pidInput pcrReference maxBuffered).pidOutput =
        pidOutput := rfl
    rw [hsame] at hcut hle hgiven hsome
    refine ⟨last, outcomes, hsome, sublist_of_losses hcut hle ?_ hgiven, ?_⟩
    · rw [map_snd_fragments]
      exact hloss
    · intro before pkt rest after hsplit hsame hpusi hrest
      have hon : onPID pidOutput flagged = onPID pidOutput before ++
          ((pkt, true) :: onPID pidOutput rest) ++ onPID pidOutput after := by
        rw [hsplit, onPID, List.filter_append, List.filter_append,
          List.filter_cons_of_pos (by simpa using hsame)]
        rfl
      have hparts : fragments (onPID pidOutput flagged) = fragments (onPID pidOutput before) ++
          (fragment pkt :: ((onPID pidOutput rest).map Prod.fst).map fragment).map
            (fun part ↦ (part, true)) ++ fragments (onPID pidOutput after) := by
        rw [hon, fragments, List.map_append, List.map_append, List.map_cons,
          fragments_of_received hrest]
        rfl
      have hstart : (fragment pkt).start = some (pointerField pkt).1 := by
        rw [fragment, hpusi, if_pos rfl]
      rw [hparts] at hcut hle hgiven
      rw [Reassembly.Assembler.received_append, Reassembly.Assembler.received_append, Reassembly.Assembler.received_all] at hgiven
      rw [List.map_append, List.map_append, List.map_map, Function.comp_def] at hcut hle
      dsimp only at hcut hle
      rw [List.map_id'] at hcut hle
      rw [hon, List.map_append, List.map_append, List.append_assoc] at hloss
      have hbytes : bytesFrom pkt ((onPID pidOutput rest).map Prod.fst) =
          ((fragment pkt :: ((onPID pidOutput rest).map Prod.fst).map fragment).flatMap
            Reassembly.Fragment.data).drop (pointerField pkt).1 := by
        rw [← List.map_cons, List.flatMap_map]
        rfl
      dsimp only
      rw [hbytes]
      refine contiguous_of_losses hcut ?_ ?_ hstart hgiven
      · rw [Reassembly.extent_append] at hle
        exact (Nat.le_add_right _ _).trans hle
      · rw [map_snd_fragments]
        exact Reassembly.Assembler.sparseLoss_of_append hloss
  · obtain ⟨last, outcomes, hsome, -⟩ :=
      (PacketDecapsulation.sound_new pidOutput).processPackets any
    rw [hsome]
    rfl

theorem not_replicate_onPID (pid : ℕ) (hlength : flagged.length < ccMax) :
    ¬List.replicate ccMax false <:+: (onPID pid flagged).map Prod.snd := by
  intro hlost
  have hle := hlost.length_le
  rw [List.length_replicate, List.length_map] at hle
  exact absurd (hle.trans (List.length_filter_le _ _)) (Nat.not_le.mpr hlength)

def unitPacket (pid : ℕ) (cc : UInt8) : TSPacket :=
  ((((TSPacket.zero.setByte 0 syncByte).setByte 3 0x10).setPID pid).setCC cc).setPUSI

def threePackets : List TSPacket :=
  [unitPacket 512 0, unitPacket 512 1, unitPacket 512 2]

def encapsulation : PacketEncapsulation :=
  PacketEncapsulation.start 256 (fun pid ↦ pid == 512) pidNull 8

def firstLost : List (TSPacket × Bool) :=
  ((encapsulation.processPackets threePackets).2.map PacketEncapsulation.Outcome.packet).zip
    [false, true, true]

/-- Three packets are encapsulated, and the first output packet is lost. -/
theorem extracted_of_firstLost :
    ∃ last outcomes, (PacketDecapsulation.new 256).processPackets (received firstLost) =
        some (last, outcomes) ∧
      List.Sublist (extracted outcomes) ((queuedPackets threePackets
        (encapsulation.processPackets threePackets).2).map restored) := by
  have hconflict : encapsulation.NoConflict threePackets := by
    intro pkt hpkt
    simp only [threePackets, List.mem_cons, List.not_mem_nil, or_false] at hpkt
    rcases hpkt with rfl | rfl | rfl <;> decide
  have hlength : firstLost.length < ccMax := by
    rw [firstLost, List.length_zip]
    exact Nat.lt_of_le_of_lt (Nat.min_le_right _ _) (show 3 < ccMax by decide)
  have hloss := not_replicate_onPID 256 hlength
  have hflagged : firstLost.map Prod.fst =
      (encapsulation.processPackets threePackets).2.map PacketEncapsulation.Outcome.packet := by
    refine List.map_fst_zip ?_
    rw [List.length_map, PacketEncapsulation.length_processPackets]
    exact le_rfl
  obtain ⟨⟨last, outcomes, hsome, hsublist, -⟩, -⟩ := extracted_of_losses 256
    (fun pid ↦ pid == 512) pidNull 8 threePackets firstLost (by decide) hconflict hflagged hloss
  exact ⟨last, outcomes, hsome, hsublist⟩

/-- The output PID is present on input: a packet is extracted and none has been encapsulated. -/
theorem extracted_of_conflict :
    let enc := PacketEncapsulation.start 256 (fun _ ↦ false) pidNull 8
    let packets := [unitPacket 256 0, unitPacket 256 1]
    let outcomes := (enc.processPackets packets).2
    queuedPackets packets outcomes = [] ∧ ((PacketDecapsulation.new 256).processPackets
        (outcomes.map PacketEncapsulation.Outcome.packet)).map
          (fun result ↦ (extracted result.2).length) = some 1 := by
  exact ⟨rfl, by decide +kernel⟩

end Losses

end TSDuck
