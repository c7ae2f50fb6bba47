import TSDuck.Psi.Packetizer

/-!
# Number of packets of a list of sections

The number of packets of a list of sections is computed without building the packets.

`packetCount_le_iff` states that the sections are completely inserted by a packetizer after this
number of packets and not before.

Scope. The sections are valid ones. The provider gives the sections of the list one after the other.
-/

namespace TSDuck

namespace PacketCount

/-- The state of the loop over the sections. -/
structure Simulation where
  pktCount : ℕ
  remainInPkt : ℕ
  hasPf : Bool

/-- Moves to the next packet without room for a header. -/
def Simulation.makeRoom (state : Simulation) (sect : Section) : Simulation :=
  if state.remainInPkt < (if state.hasPf then 0 else 1) + sect.headerSize then
    { state with remainInPkt := 184, hasPf := false }
  else state

/-- Adds a section to the current packet. -/
def Simulation.insert (state : Simulation) (sect : Section) : Simulation :=
  let pktCount := if state.remainInPkt = 184 then state.pktCount + 1 else state.pktCount
  let size := sect.size + if state.hasPf then 0 else 1
  if size ≤ state.remainInPkt then
    { pktCount := pktCount, remainInPkt := state.remainInPkt - size, hasPf := true }
  else
    { pktCount := pktCount + (size - state.remainInPkt + 183) / 184
      remainInPkt := 184 - (size - state.remainInPkt) % 184
      hasPf := false }

def Simulation.next (state : Simulation) (sect : Section) : Simulation :=
  (state.makeRoom sect).insert sect

end PacketCount

open PacketCount

def packetCount (sections : List Section) (pack : Bool) : ℕ :=
  if pack then (sections.foldl Simulation.next ⟨0, 184, false⟩).pktCount
  else (sections.map Section.packetCount).sum

/-- A provider with stuffing always or never. -/
def steadyProvider (stuffing : Bool) : SectionProvider Section (List Section) where
  provideSection _ _ sections := (sections.head?, sections.tail)
  doStuffing sections := (stuffing, sections)

/-- The packetizer and its sections after some packets. -/
def afterPackets (stuffing : Bool) (pid : ℕ) (sections : List Section) :
    ℕ → Packetizer Section × List Section
  | 0 => (.new pid, sections)
  | packets + 1 =>
    let before := afterPackets stuffing pid sections packets
    let result := before.1.getNextPacket id (some (steadyProvider stuffing)) before.2
    (result.packetizer, result.provider)

namespace PacketCount

/-! ### The number of packets from a state on -/

/-- The packets for some more sections. -/
def more (pack : Bool) (remain : ℕ) (hasPf : Bool) (sections : List Section) : ℕ :=
  if pack then (sections.foldl Simulation.next ⟨0, remain, hasPf⟩).pktCount
  else (sections.map Section.packetCount).sum

/-- The packets for the rest of a section and the next ones. -/
def tail (pack : Bool) (rest : ℕ) (sections : List Section) : ℕ :=
  (rest + 183) / 184 + more pack (184 - rest % 184) false sections

variable {pack : Bool} {sect : Section} {sections : List Section} {room : ℕ}

def Simulation.shift (count : ℕ) (state : Simulation) : Simulation :=
  { state with pktCount := count + state.pktCount }

theorem Simulation.makeRoom_shift (count : ℕ) (state : Simulation) (sect : Section) :
    (state.shift count).makeRoom sect = (state.makeRoom sect).shift count := by
  obtain ⟨pktCount, remainInPkt, hasPf⟩ := state
  rw [makeRoom, makeRoom, shift]
  dsimp only
  by_cases hroom : remainInPkt < (if hasPf then 0 else 1) + sect.headerSize
  · rw [if_pos hroom, if_pos hroom]
    rfl
  · rw [if_neg hroom, if_neg hroom]
    rfl

theorem Simulation.insert_shift (count : ℕ) (state : Simulation) (sect : Section) :
    (state.shift count).insert sect = (state.insert sect).shift count := by
  obtain ⟨pktCount, remainInPkt, hasPf⟩ := state
  have hcount : (if remainInPkt = 184 then count + pktCount + 1 else count + pktCount) =
      count + if remainInPkt = 184 then pktCount + 1 else pktCount := by
    rw [apply_ite (count + ·), Nat.add_assoc]
  rw [insert, insert, shift, shift]
  dsimp only
  rw [hcount]
  generalize sect.size + (if hasPf then 0 else 1) = size
  by_cases hfits : size ≤ remainInPkt
  · rw [if_pos hfits, if_pos hfits]
  · rw [if_neg hfits, if_neg hfits, Nat.add_assoc]

theorem foldl_shift (count : ℕ) (state : Simulation) (sections : List Section) :
    sections.foldl Simulation.next (state.shift count) =
      (sections.foldl Simulation.next state).shift count := by
  induction sections generalizing state with
  | nil => rfl
  | cons sect sections ih =>
    have hnext : (state.shift count).next sect = (state.next sect).shift count := by
      rw [Simulation.next, Simulation.next, Simulation.makeRoom_shift, Simulation.insert_shift]
    rw [List.foldl_cons, List.foldl_cons, hnext, ih]

theorem more_nil (remain : ℕ) (hasPf : Bool) : more pack remain hasPf [] = 0 := by
  cases pack with
  | false => rfl
  | true => rfl

theorem more_cons_true (remain : ℕ) (hasPf : Bool) (sect : Section) (sections : List Section) :
    more true remain hasPf (sect :: sections) = (Simulation.next ⟨0, remain, hasPf⟩ sect).pktCount +
        more true (Simulation.next ⟨0, remain, hasPf⟩ sect).remainInPkt
          (Simulation.next ⟨0, remain, hasPf⟩ sect).hasPf sections := by
  generalize hstate : Simulation.next ⟨0, remain, hasPf⟩ sect = state
  rw [more, if_pos rfl, List.foldl_cons, hstate]
  exact congrArg Simulation.pktCount
    (foldl_shift state.pktCount ⟨0, state.remainInPkt, state.hasPf⟩ sections)

theorem headerSize_range (sect : Section) : 3 ≤ sect.headerSize ∧ sect.headerSize ≤ 8 := by
  rw [Section.headerSize]
  split_ifs
  · exact ⟨by decide, le_rfl⟩
  · exact ⟨le_rfl, by decide⟩

theorem more_cons_of_lt {hasPf : Bool} (hroom : room < (if hasPf then 0 else 1) + sect.headerSize) :
    more pack room hasPf (sect :: sections) = more pack 184 false (sect :: sections) := by
  cases pack with
  | false => rfl
  | true =>
    have hheader := headerSize_range sect
    have hsame : Simulation.next ⟨0, room, hasPf⟩ sect = Simulation.next ⟨0, 184, false⟩ sect := by
      have hmove : (⟨0, room, hasPf⟩ : Simulation).makeRoom sect = ⟨0, 184, false⟩ := if_pos hroom
      have hkeep : (⟨0, 184, false⟩ : Simulation).makeRoom sect = ⟨0, 184, false⟩ := by
        refine if_neg ?_
        show ¬184 < 1 + sect.headerSize
        omega
      rw [Simulation.next, Simulation.next, hmove, hkeep]
    rw [more_cons_true, more_cons_true, hsame]

theorem more_zero (sections : List Section) :
    more pack 0 false sections = more pack 184 false sections := by
  cases sections with
  | nil => rw [more_nil, more_nil]
  | cons sect sections =>
    refine more_cons_of_lt ?_
    show 0 < 1 + sect.headerSize
    omega

theorem more_cons_of_le (hheader : sect.headerSize ≤ room) (hroom : room ≤ 183) :
    more true room true (sect :: sections) =
      if sect.size ≤ room then more true (room - sect.size) true sections
      else tail true (sect.size - room) sections := by
  have hkeep : (⟨0, room, true⟩ : Simulation).makeRoom sect = ⟨0, room, true⟩ := by
    refine if_neg ?_
    show ¬room < 0 + sect.headerSize
    omega
  rw [more_cons_true, Simulation.next, hkeep, Simulation.insert]
  dsimp only
  rw [if_neg (show ¬room = 184 by omega), if_pos rfl, Nat.add_zero]
  split_ifs
  · rw [Nat.zero_add]
  · rw [Nat.zero_add]
    rfl

theorem more_cons_of_lt_room (hheader : sect.headerSize ≤ room) (hroom : room < 183) :
    more true (room + 1) false (sect :: sections) = more true room true (sect :: sections) := by
  have hkeep : (⟨0, room + 1, false⟩ : Simulation).makeRoom sect = ⟨0, room + 1, false⟩ := by
    refine if_neg ?_
    show ¬room + 1 < 1 + sect.headerSize
    omega
  rw [more_cons_of_le hheader hroom.le, more_cons_true, Simulation.next, hkeep, Simulation.insert]
  dsimp only
  rw [if_neg (show ¬room + 1 = 184 by omega), if_neg Bool.false_ne_true]
  by_cases hfits : sect.size ≤ room
  · rw [if_pos hfits, if_pos (Nat.succ_le_succ hfits), Nat.zero_add, Nat.add_sub_add_right]
  · rw [if_neg hfits, if_neg (by omega), Nat.zero_add, Nat.add_sub_add_right]
    rfl

theorem more_cons_new (sect : Section) (sections : List Section) :
    more pack 184 false (sect :: sections) =
      1 + if sect.size ≤ 183 then more pack (183 - sect.size) true sections
        else tail pack (sect.size - 183) sections := by
  cases pack with
  | false =>
    rw [more, if_neg Bool.false_ne_true, List.map_cons, List.sum_cons, Section.packetCount]
    split_ifs
    · rw [more, if_neg Bool.false_ne_true]
      omega
    · rw [tail, more, if_neg Bool.false_ne_true]
      omega
  | true =>
    have hheader := headerSize_range sect
    have hkeep : (⟨0, 184, false⟩ : Simulation).makeRoom sect = ⟨0, 184, false⟩ := by
      refine if_neg ?_
      show ¬184 < 1 + sect.headerSize
      omega
    rw [more_cons_true, Simulation.next, hkeep, Simulation.insert]
    dsimp only
    rw [if_pos rfl, if_neg Bool.false_ne_true]
    by_cases hfits : sect.size ≤ 183
    · rw [if_pos hfits, if_pos (Nat.succ_le_succ hfits)]
      rw [show 184 - (sect.size + 1) = 183 - sect.size by omega]
    · rw [if_neg hfits, if_neg (by omega), tail, Nat.zero_add,
        show sect.size + 1 - 184 = sect.size - 183 by omega, Nat.add_assoc]

theorem tail_of_lt {rest : ℕ} (hrest : 184 < rest) :
    tail pack rest sections = 1 + tail pack (rest - 184) sections := by
  rw [tail, tail, show rest % 184 = (rest - 184) % 184 by omega]
  omega

theorem tail_of_le {rest : ℕ} (hpos : 0 < rest) (hrest : rest ≤ 184) :
    tail pack rest sections = 1 + more pack (184 - rest) false sections := by
  rw [tail, show (rest + 183) / 184 = 1 by omega]
  rcases Nat.eq_or_lt_of_le hrest with hfull | hlt
  · rw [hfull, Nat.mod_self, Nat.sub_zero, Nat.sub_self, more_zero]
  · rw [Nat.mod_eq_of_lt hlt]

/-! ### Between two packets -/

def pendingCount (pack : Bool) (packetizer : Packetizer Section) (sections : List Section) : ℕ :=
  match packetizer.currentSection with
  | none => more pack 184 false sections
  | some sect =>
    if packetizer.nextByte = 0 then more pack 184 false (sect :: sections)
    else tail pack (sect.size - packetizer.nextByte) sections

theorem pendingCount_of_eq {packetizer : Packetizer Section} (hbyte : packetizer.nextByte = 0)
    (sections : List Section) :
    pendingCount pack packetizer sections =
      more pack 184 false (packetizer.currentSection.toList ++ sections) := by
  rw [pendingCount]
  cases packetizer.currentSection with
  | none => rfl
  | some sect => exact if_pos hbyte

theorem pendingCount_of_ne {packetizer : Packetizer Section} {sect : Section}
    (hcurrent : packetizer.currentSection = some sect) (hbyte : packetizer.nextByte ≠ 0)
    (sections : List Section) :
    pendingCount pack packetizer sections = tail pack (sect.size - packetizer.nextByte) sections := by
  rw [pendingCount, hcurrent]
  exact if_neg hbyte

/-- The packets and the sections which are still to build. -/
structure Rest (pack : Bool) (count total : ℕ) (packetizer : Packetizer Section)
    (sections : List Section) : Prop where
  nextByte_lt : ∀ sect, packetizer.currentSection = some sect → packetizer.nextByte < sect.size
  nextByte_eq : packetizer.currentSection = none → packetizer.nextByte = 0
  count_eq : pendingCount pack packetizer sections = count
  total_eq : packetizer.sectionOutCount + packetizer.currentSection.toList.length +
    sections.length = total

def others (fill : FillState Section (List Section)) : List Section :=
  fill.nextSection.toList ++ fill.provider

/-- The packets to build after the one which is filled. -/
structure Pending (pack : Bool) (count total : ℕ) (fill : FillState Section (List Section)) :
    Prop where
  current : ∃ sect, fill.packetizer.currentSection = some sect ∧
    fill.packetizer.nextByte + fill.remainInSection = sect.size
  started : fill.packetizer.nextByte = 0 → 0 < fill.remainInPacket
  remain_pos : 0 < fill.remainInSection
  packed : fill.doStuffing = false → pack = true ∧ fill.remainInPacket ≤ 183
  next_fits : fill.nextSection ≠ none → fill.remainInSection ≤ fill.remainInPacket
  count_eq : (if fill.remainInSection ≤ fill.remainInPacket then
      if fill.doStuffing then more pack 184 false (others fill)
      else more pack (fill.remainInPacket - fill.remainInSection) true (others fill)
    else tail pack (fill.remainInSection - fill.remainInPacket) (others fill)) = count
  total_eq : fill.packetizer.sectionOutCount + 1 + (others fill).length = total

variable {count total : ℕ} {fill : FillState Section (List Section)}

/-- What a turn gives: the loop goes on, or the packet is built. -/
def Outcome (pack : Bool) (count total room : ℕ)
    (result : Bool × FillState Section (List Section)) : Prop :=
  (result.1 = true → Pending pack count total result.2 ∧ result.2.remainInPacket = room) ∧
    (result.1 = false → Rest pack count total result.2.packetizer result.2.provider)

theorem outcome_startSection {sect : Section} (hcurrent : fill.packetizer.currentSection = some sect)
    (hbyte : fill.packetizer.nextByte = 0) (hnext : fill.nextSection = none)
    (hroom : fill.remainInPacket ≤ 183)
    (hcount : more true fill.remainInPacket true (sect :: fill.provider) = count)
    (htotal : fill.packetizer.sectionOutCount + 1 + fill.provider.length = total) :
    Outcome true count total fill.remainInPacket (fill.startSection sect) := by
  have hothers : others fill = fill.provider := by
    rw [others, hnext]
    rfl
  have hpos := headerSize_range sect
  rw [FillState.startSection]
  dsimp only
  by_cases hheader : fill.remainInPacket < sect.headerSize
  · rw [if_pos hheader]
    refine ⟨fun hfalse ↦ absurd hfalse Bool.false_ne_true, fun _ ↦ ⟨?_, ?_, ?_, ?_⟩⟩
    · intro other hother
      show fill.packetizer.nextByte < other.size
      rw [hbyte]
      exact other.size_pos
    · exact fun _ ↦ hbyte
    · rw [pendingCount_of_eq hbyte, ← hcount]
      dsimp only
      rw [hcurrent]
      exact (more_cons_of_lt (by rw [if_pos rfl, Nat.zero_add]; exact hheader)).symm
    · dsimp only
      rw [hcurrent]
      exact htotal
  · rw [if_neg hheader]
    refine ⟨fun _ ↦ ⟨⟨⟨sect, hcurrent, ?_⟩, fun _ ↦ ?_, sect.size_pos, fun _ ↦ ⟨rfl, hroom⟩,
      fun hsome ↦ absurd hnext hsome, ?_, ?_⟩, rfl⟩, fun htrue ↦ absurd htrue.symm Bool.false_ne_true⟩
    · dsimp only
      rw [hbyte, Nat.zero_add]
    · dsimp only
      omega
    · show (if sect.size ≤ fill.remainInPacket then _ else _) = count
      rw [← hcount, more_cons_of_le (Nat.not_lt.mp hheader) hroom]
      show (if sect.size ≤ fill.remainInPacket then
        more true (fill.remainInPacket - sect.size) true (others fill)
        else tail true (sect.size - fill.remainInPacket) (others fill)) = _
      rw [hothers]
    · show fill.packetizer.sectionOutCount + 1 + (others fill).length = total
      rw [hothers]
      exact htotal

theorem outcome_endSection {stuffing : Bool} {room : ℕ}
    (hpacked : fill.doStuffing = false → stuffing = false ∧ room ≤ 183)
    (hremain : fill.remainInPacket = room)
    (hcount : (if fill.doStuffing then more (!stuffing) 184 false (others fill)
      else more (!stuffing) room true (others fill)) = count)
    (htotal : fill.packetizer.sectionOutCount + 1 + (others fill).length = total) :
    Outcome (!stuffing) count total room
      (fill.endSection id (some (steadyProvider stuffing))) := by
  rw [FillState.endSection]
  have hboundary : fill.ended.packetizer.nextByte = 0 := rfl
  have hlength : (others fill).length = fill.nextSection.toList.length + fill.provider.length :=
    List.length_append
  cases hstuffing : fill.doStuffing with
  | true =>
    rw [hstuffing, if_pos rfl] at hcount
    rw [if_pos rfl]
    refine ⟨fun hfalse ↦ absurd hfalse Bool.false_ne_true, fun _ ↦ ⟨?_, fun _ ↦ rfl, ?_, ?_⟩⟩
    · exact fun other _ ↦ other.size_pos
    · rw [pendingCount_of_eq hboundary]
      exact hcount
    · show fill.packetizer.sectionOutCount + 1 + fill.nextSection.toList.length +
        fill.provider.length = total
      omega
  | false =>
    obtain ⟨rfl, hroom⟩ := hpacked hstuffing
    rw [hstuffing, if_neg Bool.false_ne_true] at hcount
    rw [if_neg Bool.false_ne_true, FillState.findNext]
    subst hremain
    cases hnext : fill.nextSection with
    | some next =>
      have hends : fill.ended.packetizer.currentSection = some next := hnext
      rw [hends]
      rw [others, hnext] at hcount
      rw [hnext] at hlength
      refine @outcome_startSection count total fill.ended next hends rfl rfl hroom hcount ?_
      show fill.packetizer.sectionOutCount + 1 + 1 + fill.provider.length = total
      rw [hlength] at htotal
      rw [← htotal]
      show _ = fill.packetizer.sectionOutCount + 1 + (1 + fill.provider.length)
      omega
    | none =>
      have hends : fill.ended.packetizer.currentSection = none := hnext
      rw [hends]
      rw [others, hnext] at hcount
      rw [hnext] at hlength
      dsimp only
      rw [show requestStuffing (some (steadyProvider false)) fill.ended.provider =
        (false, fill.provider) from rfl]
      rw [if_neg Bool.false_ne_true]
      dsimp only
      rw [show requestSection (some (steadyProvider false)) fill.ended.packetizer fill.provider =
        (fill.provider.head?, { fill.ended.packetizer with
          sectionInCount := fill.ended.packetizer.sectionInCount + 1 }, fill.provider.tail) from rfl]
      dsimp only
      rw [hlength] at htotal
      cases hgiven : fill.provider with
      | nil =>
        rw [hgiven] at hcount htotal
        refine ⟨fun hfalse ↦ absurd hfalse Bool.false_ne_true, fun _ ↦ ⟨?_, fun _ ↦ rfl, ?_, ?_⟩⟩
        · exact fun other _ ↦ other.size_pos
        · rw [pendingCount_of_eq rfl, ← hcount]
          exact (more_nil _ _).trans (more_nil _ _).symm
        · exact htotal
      | cons next sections =>
        rw [hgiven] at hcount htotal
        refine @outcome_startSection count total { fill.ended with
          packetizer := { fill.ended.packetizer with
            sectionInCount := fill.ended.packetizer.sectionInCount + 1
            currentSection := some next }
          provider := sections } next rfl rfl rfl hroom hcount ?_
        show fill.packetizer.sectionOutCount + 1 + 1 + sections.length = total
        rw [← htotal]
        show _ = fill.packetizer.sectionOutCount + 1 + (0 + (sections.length + 1))
        omega

theorem outcome_turn {stuffing : Bool} {sect : Section}
    (hpending : Pending (!stuffing) count total fill) (hroom : 0 < fill.remainInPacket)
    (hcurrent : fill.packetizer.currentSection = some sect) :
    Outcome (!stuffing) count total
      (fill.remainInPacket - min fill.remainInSection fill.remainInPacket)
      (fill.turn id (some (steadyProvider stuffing)) sect) := by
  obtain ⟨other, hother, hsize⟩ := hpending.current
  obtain rfl := Option.some.inj (hcurrent.symm.trans hother)
  have hcount := hpending.count_eq
  have hremain : (fill.copied sect).remainInSection =
      fill.remainInSection - min fill.remainInSection fill.remainInPacket := rfl
  rw [FillState.turn, hremain]
  by_cases hfits : fill.remainInSection ≤ fill.remainInPacket
  · rw [if_pos hfits] at hcount
    rw [if_pos (by omega)]
    refine @outcome_endSection count total (fill.copied sect) stuffing _
      (fun hstuffing ↦ ?_) rfl ?_ hpending.total_eq
    · obtain ⟨hpack, hle⟩ := hpending.packed hstuffing
      exact ⟨by rwa [Bool.not_eq_true'] at hpack, (Nat.sub_le _ _).trans hle⟩
    · rw [Nat.min_eq_left hfits]
      exact hcount
  · rw [if_neg hfits] at hcount
    rw [if_neg (by omega)]
    refine ⟨fun _ ↦ ⟨⟨⟨sect, hcurrent, ?_⟩, ?_, ?_, ?_, ?_, ?_, hpending.total_eq⟩, rfl⟩,
      fun htrue ↦ absurd htrue.symm Bool.false_ne_true⟩
    · show fill.packetizer.nextByte + min fill.remainInSection fill.remainInPacket +
        (fill.remainInSection - min fill.remainInSection fill.remainInPacket) = sect.size
      omega
    · show fill.packetizer.nextByte + min fill.remainInSection fill.remainInPacket = 0 → _
      omega
    · show 0 < fill.remainInSection - min fill.remainInSection fill.remainInPacket
      omega
    · intro hstuffing
      obtain ⟨hpack, hle⟩ := hpending.packed hstuffing
      exact ⟨hpack, (Nat.sub_le _ _).trans hle⟩
    · exact fun hsome ↦ absurd (hpending.next_fits hsome) hfits
    · rw [← hcount]
      show (if fill.remainInSection - min fill.remainInSection fill.remainInPacket ≤
        fill.remainInPacket - min fill.remainInSection fill.remainInPacket then _
          else tail (!stuffing) (fill.remainInSection - min fill.remainInSection fill.remainInPacket -
            (fill.remainInPacket - min fill.remainInSection fill.remainInPacket))
              (others (fill.copied sect))) = _
      rw [if_neg (by omega), Nat.min_eq_right (Nat.le_of_not_le hfits), Nat.sub_self, Nat.sub_zero]
      rfl

theorem rest_fill {stuffing : Bool} {turns : ℕ} (hpending : Pending (!stuffing) count total fill)
    (hturns : fill.remainInPacket ≤ turns) :
    Rest (!stuffing) count total
      (FillState.fill id (some (steadyProvider stuffing)) turns fill).packetizer
      (FillState.fill id (some (steadyProvider stuffing)) turns fill).provider := by
  refine FillState.fill_rule id (some (steadyProvider stuffing)) (Pending (!stuffing) count total)
    (fun state ↦ Rest (!stuffing) count total state.packetizer state.provider) ?_ ?_ ?_ ?_ hpending
    hturns
  · intro state hstate
    obtain ⟨sect, hcurrent, -⟩ := hstate.current
    exact ⟨sect, hcurrent⟩
  · intro state sect next hstate hroom hcurrent hresult
    have houtcome := (outcome_turn hstate hroom hcurrent).1
    have hremain := hstate.remain_pos
    rw [id_eq] at hresult
    rw [hresult] at houtcome
    obtain ⟨hnext, hless⟩ := houtcome rfl
    exact ⟨hnext, lt_of_eq_of_lt hless (by omega)⟩
  · intro state sect next hstate hroom hcurrent hresult
    have houtcome := (outcome_turn hstate hroom hcurrent).2
    rw [id_eq] at hresult
    rw [hresult] at houtcome
    exact houtcome rfl
  · intro state hstate hfull
    obtain ⟨sect, hcurrent, hsize⟩ := hstate.current
    have hremain := hstate.remain_pos
    have hcount := hstate.count_eq
    have hstarted : state.packetizer.nextByte ≠ 0 := fun hzero ↦
      absurd (hstate.started hzero) (by omega)
    have hnone : state.nextSection = none := by
      by_contra hsome
      have hfits := hstate.next_fits hsome
      omega
    have hothers : others state = state.provider := by
      rw [others, hnone]
      rfl
    rw [if_neg (by omega), hothers, hfull, Nat.sub_zero] at hcount
    refine ⟨fun other hother ↦ ?_, fun hempty ↦ ?_, ?_, ?_⟩
    · obtain rfl := Option.some.inj (hcurrent.symm.trans hother)
      omega
    · exact absurd (hcurrent.symm.trans hempty) (Option.some_ne_none _)
    · rw [pendingCount_of_ne hcurrent hstarted, ← hcount]
      congr 1
      omega
    · rw [← hstate.total_eq, hothers, hcurrent]
      rfl

/-! ### One packet -/

theorem more_of_no_room {hasPf : Bool} (hroom : pack = true → ∀ next ∈ sections.head?,
    room < (if hasPf then 0 else 1) + next.headerSize) :
    more pack room hasPf sections = more pack 184 false sections := by
  cases pack with
  | false => rfl
  | true =>
    cases sections with
    | nil => rw [more_nil, more_nil]
    | cons next sections => exact more_cons_of_lt (hroom rfl next rfl)

theorem lookAhead_steadyProvider (stuffing : Bool) (packetizer : Packetizer Section)
    (sections : List Section) (rest : ℕ) :
    ∃ counter doStuffing next given,
      packetizer.lookAhead id (some (steadyProvider stuffing)) sections rest =
        (doStuffing, next, { packetizer with sectionInCount := counter }, given) ∧
      next.toList ++ given = sections ∧ (next ≠ none → rest ≤ 180) ∧
      (doStuffing = true → (!stuffing) = true → ∀ follower ∈ sections.head?,
        183 < rest + follower.headerSize) ∧
      (doStuffing = false → stuffing = false ∧ ∃ follower others, sections = follower :: others ∧
        rest + follower.headerSize ≤ 183) := by
  rw [Packetizer.lookAhead]
  by_cases hshort : rest ≤ pktSize - 5 - shortSectionHeaderSize
  · rw [if_pos hshort]
    cases stuffing with
    | true =>
      exact ⟨_, true, none, sections, rfl, rfl, fun hsome ↦ absurd rfl hsome,
        fun _ hfalse ↦ absurd hfalse Bool.false_ne_true,
        fun hfalse ↦ absurd hfalse.symm Bool.false_ne_true⟩
    | false =>
      cases sections with
      | nil =>
        exact ⟨_, true, none, [], rfl, rfl, fun hsome ↦ absurd rfl hsome,
          fun _ _ _ hfollower ↦ absurd hfollower (Option.not_mem_none _),
          fun hfalse ↦ absurd hfalse.symm Bool.false_ne_true⟩
      | cons follower others =>
        have hheader := headerSize_range follower
        refine ⟨_, _, some follower, others, rfl, rfl, fun _ ↦ hshort, fun hdo _ other hother ↦ ?_,
          fun hdo ↦ ⟨rfl, follower, others, rfl, ?_⟩⟩
        · obtain rfl := Option.some.inj hother
          have hlt : pktSize - 5 - follower.headerSize < rest := of_decide_eq_true hdo
          rw [pktSize] at hlt
          omega
        · have hle : ¬pktSize - 5 - follower.headerSize < rest := of_decide_eq_false hdo
          rw [pktSize] at hle
          omega
  · rw [if_neg hshort]
    refine ⟨_, true, none, sections, rfl, rfl, fun hsome ↦ absurd rfl hsome,
      fun _ _ follower _ ↦ ?_, fun hfalse ↦ absurd hfalse.symm Bool.false_ne_true⟩
    have hheader := headerSize_range follower
    rw [pktSize, shortSectionHeaderSize] at hshort
    omega

theorem rest_fillPacket {stuffing : Bool} {packetizer : Packetizer Section}
    {sections : List Section} {sect : Section}
    (hrest : Rest (!stuffing) count total packetizer sections)
    (hcurrent : packetizer.currentSection = some sect) :
    ∃ after, count = after + 1 ∧ Rest (!stuffing) after total
        (packetizer.fillPacket id (some (steadyProvider stuffing)) sections sect).packetizer
        (packetizer.fillPacket id (some (steadyProvider stuffing)) sections sect).provider := by
  have hlt := hrest.nextByte_lt sect hcurrent
  have hcount := hrest.count_eq
  have htotal := hrest.total_eq
  rw [hcurrent] at htotal
  obtain ⟨counter, doStuffing, next, given, hahead, hgiven, hshort, hdo, hnot⟩ :=
    lookAhead_steadyProvider stuffing packetizer sections (sect.size - packetizer.nextByte)
  rw [Packetizer.fillPacket, id_eq, hahead]
  dsimp only
  have hothers : next.toList.length + given.length = sections.length := by
    rw [← List.length_append, hgiven]
  generalize hstart : ({ packetizer with sectionInCount := counter } : Packetizer Section).packetStart
    (Packetizer.pointerField packetizer.nextByte (sect.size - packetizer.nextByte) doStuffing) = start
  have hlength : start.length = 4 + (Packetizer.pointerField packetizer.nextByte
      (sect.size - packetizer.nextByte) doStuffing).toList.length := by
    rw [← hstart, Packetizer.packetStart, List.length_append, length_packetHeader]
    cases Packetizer.pointerField packetizer.nextByte (sect.size - packetizer.nextByte) doStuffing with
    | none => rfl
    | some field => rfl
  -- It is enough to count the packets after this one, from the room in the packet.
  have hfill : ∀ room after, pktSize - start.length = room → 183 ≤ room →
      (doStuffing = false → room ≤ 183) →
      (if sect.size - packetizer.nextByte ≤ room then
        if doStuffing then more (!stuffing) 184 false sections
        else more (!stuffing) (room - (sect.size - packetizer.nextByte)) true sections
      else tail (!stuffing) (sect.size - packetizer.nextByte - room) sections) = after →
      Rest (!stuffing) after total
        (FillState.fill id (some (steadyProvider stuffing)) (pktSize - start.length)
          { packetizer := { packetizer with
              sectionInCount := counter
              continuity := (packetizer.continuity + 1) &&& 0x0F }
            provider := given, nextSection := next, doStuffing := doStuffing,
            remainInSection := sect.size - packetizer.nextByte,
            remainInPacket := pktSize - start.length, data := [], finished := [] }).packetizer
        (FillState.fill id (some (steadyProvider stuffing)) (pktSize - start.length)
          { packetizer := { packetizer with
              sectionInCount := counter
              continuity := (packetizer.continuity + 1) &&& 0x0F }
            provider := given, nextSection := next, doStuffing := doStuffing,
            remainInSection := sect.size - packetizer.nextByte,
            remainInPacket := pktSize - start.length, data := [], finished := [] }).provider := by
    intro room after hroom hlarge hpacked hafter
    subst hroom
    refine rest_fill ⟨⟨sect, hcurrent, ?_⟩, fun _ ↦ ?_, ?_, fun hdoes ↦ ⟨?_, hpacked hdoes⟩,
      fun hsome ↦ ?_, ?_, ?_⟩ le_rfl
    · exact Nat.add_sub_cancel' hlt.le
    · dsimp only
      omega
    · exact Nat.sub_pos_of_lt hlt
    · rw [(hnot hdoes).1]
      rfl
    · exact (hshort hsome).trans (by dsimp only; omega)
    · rw [← hafter, others]
      dsimp only
      rw [hgiven]
    · rw [others]
      dsimp only
      rw [hgiven]
      exact htotal
  by_cases hbyte : packetizer.nextByte = 0
  · rw [Packetizer.pointerField, if_pos hbyte] at hlength
    rw [pendingCount_of_eq hbyte, hcurrent] at hcount
    rw [← hcount]
    rw [hbyte, Nat.sub_zero] at hdo hfill ⊢
    refine ⟨_, (more_cons_new sect sections).trans (Nat.add_comm _ _), hfill 183 _
      (by rw [hlength]; rfl) le_rfl (fun _ ↦ le_rfl) ?_⟩
    by_cases hfits : sect.size ≤ 183
    · rw [if_pos hfits, if_pos hfits]
      cases doStuffing with
      | false => rfl
      | true =>
        refine (more_of_no_room fun hpack follower hfollower ↦ ?_).symm
        have hfar := hdo rfl hpack follower hfollower
        show 183 - sect.size < 0 + follower.headerSize
        omega
    · rw [if_neg hfits, if_neg hfits]
  · rw [pendingCount_of_ne hcurrent hbyte] at hcount
    rw [← hcount]
    rw [Packetizer.pointerField, if_neg hbyte] at hlength
    have hpos : 0 < sect.size - packetizer.nextByte := Nat.sub_pos_of_lt hlt
    generalize sect.size - packetizer.nextByte = rest at *
    cases doStuffing with
    | true =>
      by_cases hfits : rest ≤ 184
      · refine ⟨_, (tail_of_le hpos hfits).trans (Nat.add_comm _ _), hfill 184 _
          (by rw [hlength]; rfl) (by decide) (fun hfalse ↦ absurd hfalse.symm Bool.false_ne_true) ?_⟩
        rw [if_pos hfits, if_pos rfl]
        refine (more_of_no_room fun hpack follower hfollower ↦ ?_).symm
        have hfar := hdo rfl hpack follower hfollower
        show 184 - rest < 1 + follower.headerSize
        omega
      · refine ⟨_, (tail_of_lt (Nat.not_le.mp hfits)).trans (Nat.add_comm _ _), hfill 184 _
          (by rw [hlength]; rfl) (by decide) (fun hfalse ↦ absurd hfalse.symm Bool.false_ne_true) ?_⟩
        rw [if_neg hfits]
    | false =>
      obtain ⟨rfl, follower, others, rfl, hroom⟩ := hnot rfl
      have hheader := headerSize_range follower
      refine ⟨_, (tail_of_le hpos (by omega)).trans (Nat.add_comm _ _), hfill 183 _
        (by rw [hlength]; rfl) le_rfl (fun _ ↦ le_rfl) ?_⟩
      rw [if_pos (by omega), if_neg Bool.false_ne_true, show 184 - rest = 183 - rest + 1 by omega]
      exact (more_cons_of_lt_room (by omega) (by omega)).symm

theorem rest_getNextPacket {stuffing : Bool} {packetizer : Packetizer Section}
    {sections : List Section} (hrest : Rest (!stuffing) count total packetizer sections) :
    Rest (!stuffing) (count - 1) total
      (packetizer.getNextPacket id (some (steadyProvider stuffing)) sections).packetizer
      (packetizer.getNextPacket id (some (steadyProvider stuffing)) sections).provider := by
  rw [Packetizer.getNextPacket, Packetizer.acquire]
  cases hcurrent : packetizer.currentSection with
  | some sect =>
    rw [if_neg fun hboth ↦ Bool.false_ne_true hboth.1]
    have hcounted : Rest (!stuffing) count total packetizer.counted sections :=
      ⟨hrest.nextByte_lt, hrest.nextByte_eq, hrest.count_eq, hrest.total_eq⟩
    have hcurrent' : packetizer.counted.currentSection = some sect := hcurrent
    obtain ⟨after, rfl, hafter⟩ := rest_fillPacket hcounted hcurrent'
    rw [Nat.add_sub_cancel]
    dsimp only
    rw [hcurrent']
    exact hafter
  | none =>
    have hcount := hrest.count_eq
    have htotal := hrest.total_eq
    rw [pendingCount_of_eq (hrest.nextByte_eq hcurrent), hcurrent] at hcount
    rw [hcurrent] at htotal
    rw [if_pos ⟨rfl, rfl⟩]
    dsimp only
    rw [show requestSection (some (steadyProvider stuffing)) packetizer.counted sections =
      (sections.head?, { packetizer.counted with
        sectionInCount := packetizer.counted.sectionInCount + 1 }, sections.tail) from rfl]
    dsimp only
    cases sections with
    | nil =>
      refine ⟨fun _ hsome ↦ absurd hsome.symm (Option.some_ne_none _), fun _ ↦ rfl, ?_, htotal⟩
      rw [pendingCount_of_eq rfl, ← hcount]
      show more (!stuffing) 184 false [] = more (!stuffing) 184 false [] - 1
      rw [more_nil]
    | cons sect sections =>
      have hacquired : Rest (!stuffing) count total { packetizer.counted with
          sectionInCount := packetizer.counted.sectionInCount + 1
          currentSection := some sect
          nextByte := 0 } sections := by
        refine ⟨fun other _ ↦ other.size_pos, fun _ ↦ rfl, ?_, ?_⟩
        · rw [pendingCount_of_eq rfl]
          exact hcount
        · rw [← htotal]
          show packetizer.sectionOutCount + 1 + sections.length =
            packetizer.sectionOutCount + 0 + (sections.length + 1)
          omega
      obtain ⟨after, rfl, hafter⟩ := rest_fillPacket hacquired rfl
      rw [Nat.add_sub_cancel]
      exact hafter

theorem rest_afterPackets (stuffing : Bool) (pid : ℕ) (sections : List Section) (packets : ℕ) :
    Rest (!stuffing) (packetCount sections (!stuffing) - packets) sections.length
      (afterPackets stuffing pid sections packets).1
      (afterPackets stuffing pid sections packets).2 := by
  induction packets with
  | zero =>
    refine ⟨fun _ hsome ↦ absurd hsome.symm (Option.some_ne_none _), fun _ ↦ rfl, rfl, ?_⟩
    exact (Nat.zero_add _)
  | succ packets ih => exact rest_getNextPacket ih

theorem Rest.count_eq_zero_iff {stuffing : Bool} {packetizer : Packetizer Section}
    {sections : List Section} (hrest : Rest (!stuffing) count total packetizer sections) :
    count = 0 ↔ packetizer.sectionOutCount = total := by
  have htotal := hrest.total_eq
  have hcount := hrest.count_eq
  cases hcurrent : packetizer.currentSection with
  | some sect =>
    obtain ⟨after, hafter, -⟩ := rest_fillPacket hrest hcurrent
    rw [hcurrent] at htotal
    have hone : (some sect).toList.length = 1 := rfl
    omega
  | none =>
    rw [pendingCount_of_eq (hrest.nextByte_eq hcurrent), hcurrent] at hcount
    rw [hcurrent] at htotal
    have hzero : (none : Option Section).toList.length = 0 := rfl
    cases sections with
    | nil =>
      have hempty : ([] : List Section).length = 0 := rfl
      refine iff_of_true (hcount.symm.trans (more_nil _ _)) ?_
      omega
    | cons sect sections =>
      have hlength : (sect :: sections).length = sections.length + 1 := rfl
      have hpos : (none : Option Section).toList ++ sect :: sections = sect :: sections := rfl
      rw [hpos, more_cons_new] at hcount
      refine iff_of_false ?_ ?_
      · omega
      · omega

end PacketCount

/-- The sections are inserted after this number of packets and not before. -/
theorem packetCount_le_iff (sections : List Section) (pack : Bool) (pid packets : ℕ) :
    packetCount sections pack ≤ packets ↔
      (afterPackets (!pack) pid sections packets).1.sectionOutCount = sections.length := by
  have hrest := rest_afterPackets (!pack) pid sections packets
  rw [← hrest.count_eq_zero_iff, Bool.not_not, Nat.sub_eq_zero_iff_le]

end TSDuck
