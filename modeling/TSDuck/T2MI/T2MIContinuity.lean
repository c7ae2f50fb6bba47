import TSDuck.T2MI.PacketAlignment

/-!
# Continuity in the T2-MI demux

The demux follows the continuity counters of each PID. A packet with the discontinuity indicator, or
with another counter than the next one, loses the synchronization: what has been collected of a
T2-MI packet is dropped and the PID is ignored until a T2-MI packet starts.

A transport packet without payload does not increment the counter, and a packet may be sent twice
with the same counter. The T2-MI demux takes them for a discontinuity:
`FilteringT2MIDemux.keepsCollected_iff` says when nothing is lost then.

Scope. The tables which announce the PIDs of T2-MI streams are not modelled: the application adds
and removes PIDs at any time. A reset which a handler asks for is executed after the packet, as one
that comes after it.
-/

namespace TSDuck

/-- A call with a T2-MI packet or a transport packet. -/
inductive T2MICall
  | t2miPacket (pkt : T2MIPacket)
  | tsPacket (pkt : T2MIPacket) (tsPkt : TSPacket)

def T2MICall.tsPacket? : T2MICall → Option (T2MIPacket × TSPacket)
  | .t2miPacket _ => none
  | .tsPacket pkt tsPkt => some (pkt, tsPkt)

namespace T2MIPIDContext

/-- Calls the handler for each valid T2-MI packet. -/
def notifyAll : T2MIPIDContext → List ByteBlock → T2MIPIDContext × List T2MICall
  | context, [] => (context, [])
  | context, bytes :: rest =>
    match T2MIPacket.ofBytes bytes with
    | none => context.notifyAll rest
    | some pkt =>
      let first := context.demuxTS pkt
      let others := first.1.notifyAll rest
      (others.1, .t2miPacket pkt :: first.2.map (fun call ↦ .tsPacket call.1 call.2) ++ others.2)

/-- Adds a payload and takes the complete packets. -/
def collect (context : T2MIPIDContext) (data : ByteBlock) : T2MIPIDContext × List T2MICall :=
  let packets := takeAllRecords readT2MIPacket (context.t2mi ++ data)
  { context with t2mi := packets.2 }.notifyAll packets.1

end T2MIPIDContext

namespace TSPacket

def t2miPointer (pkt : TSPacket) : ℕ :=
  (byteAt pkt.payload 0).toNat

/-- The pointer field designates a byte of the payload. -/
def HasT2MIPointer (pkt : TSPacket) : Prop :=
  1 + pkt.t2miPointer < pkt.payload.length

instance (pkt : TSPacket) : Decidable pkt.HasT2MIPointer :=
  inferInstanceAs (Decidable (_ < _))

end TSPacket

def PIDReception.receivePacket (reception : PIDReception) (pkt : TSPacket) :
    PIDReception × List T2MICall :=
  let accepted := reception.accept pkt
  match accepted.2 with
  | none => (accepted.1, [])
  | some data =>
    let result := accepted.1.context.collect data
    ({ accepted.1 with context := result.1 }, result.2)

/-- The demux with its filter and the PIDs it received. -/
structure FilteringT2MIDemux where
  pidFilter : ℕ → Bool
  pids : ℕ → Option PIDReception

/-- What happens to a demux. -/
inductive T2MIInput
  | packet (pkt : TSPacket)
  | reset
  | resetPID (pid : ℕ)
  | addPID (pid : ℕ)
  | removePID (pid : ℕ)

namespace FilteringT2MIDemux

def new : FilteringT2MIDemux where
  pidFilter := fun _ ↦ false
  pids := fun _ ↦ none

def reception (demux : FilteringT2MIDemux) (pid : ℕ) : PIDReception :=
  (demux.pids pid).getD .new

def feedPacket (demux : FilteringT2MIDemux) (pkt : TSPacket) : FilteringT2MIDemux × List T2MICall :=
  if demux.pidFilter pkt.getPID = false ∨ pkt.isScrambled = true then (demux, [])
  else
    let result := (demux.reception pkt.getPID).receivePacket pkt
    ({ demux with pids := Function.update demux.pids pkt.getPID (some result.1) }, result.2)

def resetPID (demux : FilteringT2MIDemux) (pid : ℕ) : FilteringT2MIDemux :=
  { demux with pids := Function.update demux.pids pid none }

def machine : Machine FilteringT2MIDemux T2MIInput T2MICall where
  step demux input :=
    match input with
    | .packet pkt => some (demux.feedPacket pkt)
    | .reset => some ({ demux with pids := fun _ ↦ none }, [])
    | .resetPID pid => some (demux.resetPID pid, [])
    | .addPID pid => some ({ demux with pidFilter := Function.update demux.pidFilter pid true }, [])
    | .removePID pid =>
      some (if demux.pidFilter pid = true then
          { demux with pidFilter := Function.update demux.pidFilter pid false }.resetPID pid
        else demux, [])

end FilteringT2MIDemux

/-! ### The T2-MI packets in the data -/

/-- The data are one T2-MI packet. -/
def IsT2MIPacket (data : ByteBlock) : Prop :=
  data.length = t2miPacketSize data

theorem readT2MIPacket_append {bytes : ByteBlock} (hbytes : IsT2MIPacket bytes) (more : ByteBlock) :
    readT2MIPacket (bytes ++ more) = some (bytes, more) := by
  have hread : readT2MIPacket bytes = some (bytes, []) := by
    have hheader : t2miHeaderSize < bytes.length := by
      rw [hbytes, t2miPacketSize, t2miHeaderSize, sectionCrc32Size]
      omega
    unfold readT2MIPacket
    rw [if_pos ⟨hheader, le_of_eq hbytes.symm⟩, ← hbytes, List.take_length, List.drop_length]
  exact isStream_readT2MIPacket.append hread more

theorem readT2MIPacket_spec {data bytes rest : ByteBlock}
    (hread : readT2MIPacket data = some (bytes, rest)) :
    IsT2MIPacket bytes ∧ data = bytes ++ rest := by
  unfold readT2MIPacket at hread
  split_ifs at hread with hsize
  obtain ⟨rfl, rfl⟩ := Prod.mk.inj (Option.some.inj hread)
  obtain ⟨hheader, hcomplete⟩ := hsize
  refine ⟨?_, (List.take_append_drop _ _).symm⟩
  have hlength : (data.take (t2miPacketSize data)).length = t2miPacketSize data :=
    List.length_take_of_le hcomplete
  have hbyte : ∀ index < 6, byteAt (data.take (t2miPacketSize data)) index = byteAt data index := by
    intro index hindex
    have hinside : index < t2miPacketSize data := by
      rw [t2miPacketSize, t2miHeaderSize]
      omega
    rw [byteAt, byteAt, List.getD_eq_getElem?_getD, List.getD_eq_getElem?_getD,
      List.getElem?_take_of_lt hinside]
  have hannounced : t2miPacketSize (data.take (t2miPacketSize data)) = t2miPacketSize data := by
    have hfield : getUInt16 (data.take (t2miPacketSize data)) 4 = getUInt16 data 4 := by
      unfold getUInt16
      rw [hbyte 4 (by omega), hbyte (4 + 1) (by omega)]
    exact congrArg (fun bits ↦ t2miHeaderSize + (bits + 7) / 8 + sectionCrc32Size) hfield
  exact hlength.trans hannounced.symm

theorem takeAllRecords_readT2MIPacket (data : ByteBlock) :
    (∀ bytes ∈ (takeAllRecords readT2MIPacket data).1, IsT2MIPacket bytes) ∧
      (takeAllRecords readT2MIPacket data).1.flatten ++ (takeAllRecords readT2MIPacket data).2 =
        data := by
  induction hlength : data.length using Nat.strong_induction_on generalizing data with
  | _ length ih =>
    rw [isStream_readT2MIPacket.takeAllRecords_eq]
    cases hread : readT2MIPacket data with
    | none => exact ⟨fun _ hmem ↦ absurd hmem List.not_mem_nil, rfl⟩
    | some result =>
      obtain ⟨bytes, rest⟩ := result
      obtain ⟨hbytes, hdata⟩ := readT2MIPacket_spec hread
      have hshorter := isStream_readT2MIPacket.shorter hread
      obtain ⟨hall, hrest⟩ := ih rest.length (by omega) rest rfl
      dsimp only
      constructor
      · exact List.forall_mem_cons.mpr ⟨hbytes, hall⟩
      · rw [List.flatten_cons, List.append_assoc, hrest, hdata]

theorem takeAllRecords_flatten {packets : List ByteBlock}
    (hpackets : ∀ bytes ∈ packets, IsT2MIPacket bytes) {remaining : ByteBlock}
    (hremaining : readT2MIPacket remaining = none) :
    takeAllRecords readT2MIPacket (packets.flatten ++ remaining) = (packets, remaining) := by
  induction packets with
  | nil =>
    rw [List.flatten_nil, List.nil_append, isStream_readT2MIPacket.takeAllRecords_eq, hremaining]
  | cons bytes packets ih =>
    obtain ⟨hbytes, hothers⟩ := List.forall_mem_cons.mp hpackets
    rw [List.flatten_cons, List.append_assoc, isStream_readT2MIPacket.takeAllRecords_eq,
      readT2MIPacket_append hbytes]
    dsimp only
    rw [ih hothers]

namespace T2MIPIDContext

variable (context : T2MIPIDContext)

theorem notifyAll_t2mi (packets : List ByteBlock) :
    (context.notifyAll packets).1.t2mi = context.t2mi := by
  induction packets generalizing context with
  | nil => rfl
  | cons bytes packets ih =>
    unfold notifyAll
    cases T2MIPacket.ofBytes bytes with
    | none => exact ih context
    | some pkt =>
      dsimp only
      rw [ih]
      unfold demuxTS
      cases pkt.frame <;> rfl

theorem notifyAll_eq_nil_iff (packets : List ByteBlock) :
    (context.notifyAll packets).2 = [] ↔ ∀ bytes ∈ packets, T2MIPacket.ofBytes bytes = none := by
  induction packets generalizing context with
  | nil => exact ⟨fun _ _ hmem ↦ absurd hmem List.not_mem_nil, fun _ ↦ rfl⟩
  | cons bytes packets ih =>
    rw [List.forall_mem_cons]
    unfold notifyAll
    cases T2MIPacket.ofBytes bytes with
    | none => exact (ih context).trans ⟨fun hall ↦ ⟨rfl, hall⟩, And.right⟩
    | some pkt =>
      exact ⟨fun hnil ↦ absurd hnil (List.cons_ne_nil _ _),
        fun hnone ↦ absurd hnone.1 (Option.some_ne_none pkt)⟩

theorem notifyAll_demuxAll (packets : List ByteBlock) :
    (context.notifyAll packets).1 = (context.demuxAll packets).1 ∧
      (context.notifyAll packets).2.filterMap T2MICall.tsPacket? =
        (context.demuxAll packets).2 := by
  induction packets generalizing context with
  | nil => exact ⟨rfl, rfl⟩
  | cons bytes packets ih =>
    unfold notifyAll demuxAll
    cases T2MIPacket.ofBytes bytes with
    | none => exact ih context
    | some pkt =>
      obtain ⟨hcontext, hcalls⟩ := ih (context.demuxTS pkt).1
      dsimp only
      refine ⟨hcontext, ?_⟩
      rw [List.filterMap_append, List.filterMap_cons_none rfl, List.filterMap_map, hcalls]
      exact congrArg (· ++ _) (List.filterMap_some)

theorem collect_t2mi (data : ByteBlock) :
    (context.collect data).1.t2mi = (takeAllRecords readT2MIPacket (context.t2mi ++ data)).2 :=
  notifyAll_t2mi _ _

end T2MIPIDContext

/-! ### The contexts of the demux -/

namespace PIDReception

/-- What is collected is synchronized and not complete. -/
structure IsValid (reception : PIDReception) : Prop where
  nil_of_not_sync : reception.sync = false → reception.context.t2mi = []
  incomplete : readT2MIPacket reception.context.t2mi = none

theorem isValid_new : PIDReception.new.IsValid where
  nil_of_not_sync := fun _ ↦ rfl
  incomplete := rfl

variable {reception : PIDReception} {pkt : TSPacket}

theorem hasBadPointer_eq_true_iff :
    hasBadPointer pkt = true ↔ pkt.getPUSI = true ∧ ¬pkt.HasT2MIPointer := by
  have hfield : (if pkt.payload = [] then 0 else (byteAt pkt.payload 0).toNat) =
      pkt.t2miPointer := by
    unfold TSPacket.t2miPointer
    split_ifs with hempty
    · rw [hempty]
      rfl
    · rfl
  unfold hasBadPointer TSPacket.HasT2MIPointer
  rw [hfield, Bool.and_eq_true, decide_eq_true_iff, not_lt]

theorem isBroken_eq_true_iff :
    reception.isBroken pkt = true ↔ reception.sync = true ∧
      (pkt.getDiscontinuityIndicator = true ∨ pkt.getCC ≠ (reception.continuity + 1) &&& 0x0F) := by
  unfold isBroken
  rw [Bool.and_eq_true, Bool.or_eq_true, bne_iff_ne]

theorem track_t2mi (reception : PIDReception) (pkt : TSPacket) :
    (reception.track pkt).context.t2mi =
      if reception.isBroken pkt = true then [] else reception.context.t2mi := by
  unfold track
  split_ifs <;> rfl

theorem track_sync (reception : PIDReception) (pkt : TSPacket) :
    (reception.track pkt).sync =
      if reception.isBroken pkt = true then false else reception.sync := by
  unfold track
  split_ifs <;> rfl

theorem IsValid.track (hvalid : reception.IsValid) (pkt : TSPacket) :
    (reception.track pkt).IsValid := by
  constructor
  · rw [track_sync, track_t2mi]
    split_ifs
    · exact fun _ ↦ rfl
    · exact hvalid.nil_of_not_sync
  · rw [track_t2mi]
    split_ifs
    · rfl
    · exact hvalid.incomplete

theorem isValid_collect (hsync : reception.sync = true) (data : ByteBlock) :
    ({ reception with context := (reception.context.collect data).1 } : PIDReception).IsValid where
  nil_of_not_sync := fun hnot ↦ Bool.noConfusion (hsync.symm.trans hnot)
  incomplete := by
    show readT2MIPacket (reception.context.collect data).1.t2mi = none
    rw [T2MIPIDContext.collect_t2mi]
    exact isStream_readT2MIPacket.readRecord_remaining _

theorem accept_of_not_pusi (hpusi : ¬pkt.getPUSI = true) :
    reception.accept pkt = (reception.track pkt,
        if (reception.track pkt).sync = true then some pkt.payload else none) := by
  have hpointer : ¬hasBadPointer pkt = true := fun hbad ↦
    hpusi (hasBadPointer_eq_true_iff.mp hbad).1
  unfold accept
  rw [if_neg hpointer, if_neg hpusi]

theorem accept_of_bad_pointer (hpusi : pkt.getPUSI = true) (hpointer : ¬pkt.HasT2MIPointer) :
    reception.accept pkt = ((reception.track pkt).lostSync, none) := by
  unfold accept
  rw [if_pos (hasBadPointer_eq_true_iff.mpr ⟨hpusi, hpointer⟩)]

/-- The payload of a start is added. -/
theorem accept_of_start (hpusi : pkt.getPUSI = true) (hpointer : pkt.HasT2MIPointer) :
    reception.accept pkt = if (reception.track pkt).sync = true then
        (reception.track pkt, some (pkt.payload.drop 1))
      else
        ({ reception.track pkt with sync := true },
          some (pkt.payload.drop (1 + pkt.t2miPointer))) := by
  have hgood : ¬hasBadPointer pkt = true := fun hbad ↦
    (hasBadPointer_eq_true_iff.mp hbad).2 hpointer
  unfold accept
  rw [if_neg hgood, if_pos hpusi]
  rfl

theorem IsValid.receivePacket (hvalid : reception.IsValid) (pkt : TSPacket) :
    (reception.receivePacket pkt).1.IsValid := by
  have htracked := hvalid.track pkt
  unfold PIDReception.receivePacket
  by_cases hpusi : pkt.getPUSI = true
  · by_cases hpointer : pkt.HasT2MIPointer
    · rw [accept_of_start hpusi hpointer]
      split_ifs with hsync
      · exact isValid_collect hsync _
      · have hsynced : ({ reception.track pkt with sync := true } : PIDReception).sync = true := rfl
        exact isValid_collect hsynced _
    · rw [accept_of_bad_pointer hpusi hpointer]
      exact ⟨fun _ ↦ rfl, rfl⟩
  · rw [accept_of_not_pusi hpusi]
    split_ifs with hsync
    · exact isValid_collect hsync _
    · exact htracked

end PIDReception

namespace FilteringT2MIDemux

/-- The demux without its filter. -/
def forget (demux : FilteringT2MIDemux) : T2MIDemux :=
  ⟨demux.reception⟩

/-- All contexts of the demux are valid. -/
def IsValid (demux : FilteringT2MIDemux) : Prop :=
  ∀ pid, (demux.reception pid).IsValid

theorem reception_update (demux : FilteringT2MIDemux) (pid : ℕ) (context : Option PIDReception)
    (other : ℕ) :
    ({ demux with pids := Function.update demux.pids pid context } : FilteringT2MIDemux).reception other =
      if other = pid then context.getD .new else demux.reception other := by
  unfold reception
  by_cases hother : other = pid
  · rw [if_pos hother, hother]
    exact congrArg (fun found ↦ Option.getD found _) (Function.update_self _ _ _)
  · rw [if_neg hother]
    exact congrArg (fun found ↦ Option.getD found _) (Function.update_of_ne hother _ _)

/-- The demux with a filter and all calls does what `T2MIDemux` does. -/
theorem feedPacket_forget (demux : FilteringT2MIDemux) (pkt : TSPacket) :
    (demux.feedPacket pkt).1.forget = (demux.forget.feedPacket demux.pidFilter pkt).1 ∧
      (demux.feedPacket pkt).2.filterMap T2MICall.tsPacket? =
        (demux.forget.feedPacket demux.pidFilter pkt).2 := by
  have hreceived : ∀ reception : PIDReception,
      (reception.receivePacket pkt).1 = (reception.feed pkt).1 ∧
        (reception.receivePacket pkt).2.filterMap T2MICall.tsPacket? = (reception.feed pkt).2 := by
    intro reception
    unfold PIDReception.receivePacket PIDReception.feed
    obtain ⟨kept, accepted⟩ := reception.accept pkt
    cases accepted with
    | none => exact ⟨rfl, rfl⟩
    | some data =>
      obtain ⟨hcontext, hcalls⟩ := T2MIPIDContext.notifyAll_demuxAll
        { kept.context with
          t2mi := (takeAllRecords readT2MIPacket (kept.context.t2mi ++ data)).2 }
        (takeAllRecords readT2MIPacket (kept.context.t2mi ++ data)).1
      exact ⟨congrArg (fun context ↦ ({ kept with context } : PIDReception)) hcontext, hcalls⟩
  obtain ⟨hreception, hcalls⟩ := hreceived (demux.reception pkt.getPID)
  unfold feedPacket T2MIDemux.feedPacket
  by_cases hignored : demux.pidFilter pkt.getPID = false ∨ pkt.isScrambled = true
  · have hignored' : (!demux.pidFilter pkt.getPID || pkt.isScrambled) = true := by
      rwa [Bool.or_eq_true, Bool.not_eq_true']
    rw [if_pos hignored, if_pos hignored']
    exact ⟨rfl, rfl⟩
  · have hignored' : ¬(!demux.pidFilter pkt.getPID || pkt.isScrambled) = true := by
      rwa [Bool.or_eq_true, Bool.not_eq_true']
    rw [if_neg hignored, if_neg hignored']
    refine ⟨?_, hcalls⟩
    unfold forget
    congr 1
    funext other
    rw [reception_update, Function.update_apply]
    exact congrArg (fun updated ↦ if other = pkt.getPID then updated else _) hreception

theorem isValid_new : FilteringT2MIDemux.new.IsValid :=
  fun _ ↦ PIDReception.isValid_new

theorem IsValid.resetPID {demux : FilteringT2MIDemux} (hvalid : demux.IsValid) (pid : ℕ) :
    (demux.resetPID pid).IsValid := by
  intro other
  unfold FilteringT2MIDemux.resetPID
  rw [reception_update]
  split_ifs
  · exact PIDReception.isValid_new
  · exact hvalid other

theorem IsValid.feedPacket {demux : FilteringT2MIDemux} (hvalid : demux.IsValid) (pkt : TSPacket) :
    (demux.feedPacket pkt).1.IsValid := by
  unfold FilteringT2MIDemux.feedPacket
  split_ifs
  · exact hvalid
  · intro other
    dsimp only
    rw [reception_update]
    split_ifs
    · exact (hvalid pkt.getPID).receivePacket pkt
    · exact hvalid other

theorem isValid_of_run {inputs : List T2MIInput} {demux : FilteringT2MIDemux} {calls : List T2MICall}
    (hrun : machine.run .new inputs = some (demux, calls)) : demux.IsValid := by
  have hstep : ∀ state input next outputs, IsValid state →
      machine.step state input = some (next, outputs) →
        IsValid next ∧ ∀ output ∈ outputs, (fun _ : T2MICall ↦ True) output := by
    intro state input next outputs hvalid hnext
    refine ⟨?_, fun _ _ ↦ trivial⟩
    cases input with
    | packet pkt =>
      obtain ⟨rfl, -⟩ := Prod.mk.inj (Option.some.inj hnext)
      exact hvalid.feedPacket pkt
    | reset =>
      obtain ⟨rfl, -⟩ := Prod.mk.inj (Option.some.inj hnext)
      exact isValid_new
    | resetPID pid =>
      obtain ⟨rfl, -⟩ := Prod.mk.inj (Option.some.inj hnext)
      exact hvalid.resetPID pid
    | addPID pid =>
      obtain ⟨rfl, -⟩ := Prod.mk.inj (Option.some.inj hnext)
      exact hvalid
    | removePID pid =>
      obtain ⟨rfl, -⟩ := Prod.mk.inj (Option.some.inj hnext)
      have hunfiltered : ∀ pidFilter, ({ state with pidFilter } : FilteringT2MIDemux).IsValid :=
        fun _ ↦ hvalid
      split_ifs
      · exact (hunfiltered _).resetPID pid
      · exact hvalid
  exact (machine.run_invariant hstep isValid_new hrun).1

end FilteringT2MIDemux

/-! ### Packets without payload and duplicate packets -/

/-- The packet has the counter of the previous one. -/
def Duplicates (previous : Option PIDReception) (pkt : TSPacket) : Prop :=
  ∃ reception, previous = some reception ∧ pkt.getCC = reception.continuity

/-- The packet has no payload or duplicates the previous one. -/
def BringsNothing (previous : Option PIDReception) (pkt : TSPacket) : Prop :=
  pkt.payload = [] ∨ Duplicates previous pkt

/-- A discontinuity which is not a duplicate. -/
def RealDiscontinuity (previous : Option PIDReception) (pkt : TSPacket) : Prop :=
  pkt.getDiscontinuityIndicator = true ∨
    (∃ reception, previous = some reception ∧ pkt.getCC ≠ reception.continuity ∧
      pkt.getCC ≠ (reception.continuity + 1) &&& 0x0F) ∨
    (¬BringsNothing previous pkt ∧ pkt.getPUSI = true ∧ ¬pkt.HasT2MIPointer)

/-- Complete packets, and what is collected now. -/
def Carried (before after : ByteBlock) : Prop :=
  ∃ packets : List ByteBlock, (∀ bytes ∈ packets, IsT2MIPacket bytes) ∧
    before <+: packets.flatten ++ after

/-- There is nothing to lose, or the packet follows. -/
def IsHarmless (reception : PIDReception) (pkt : TSPacket) : Prop :=
  if pkt.getPUSI = true ∧ pkt.HasT2MIPointer then
    ∃ packets : List ByteBlock,
      (∀ bytes ∈ packets, IsT2MIPacket bytes ∧ T2MIPacket.ofBytes bytes = none) ∧
        pkt.payload.drop (1 + pkt.t2miPointer) = packets.flatten ++ reception.context.t2mi
  else
    reception.context.t2mi = [] ∨ (pkt.getCC ≠ reception.continuity ∧ pkt.getPUSI = false)

namespace FilteringT2MIDemux

variable (demux : FilteringT2MIDemux) (pkt : TSPacket)

/-- What is partially collected is only dropped by a real discontinuity. -/
def KeepsCollected : Prop :=
  ¬RealDiscontinuity (demux.pids pkt.getPID) pkt → Carried (demux.reception pkt.getPID).context.t2mi
        ((demux.feedPacket pkt).1.reception pkt.getPID).context.t2mi ∧
      (BringsNothing (demux.pids pkt.getPID) pkt →
        ((demux.feedPacket pkt).1.reception pkt.getPID).context.t2mi =
            (demux.reception pkt.getPID).context.t2mi ∧
          (demux.feedPacket pkt).2 = [])

/-- The demux looks at the packet, which is continuous and brings nothing. -/
structure IsIdle : Prop where
  filtered : demux.pidFilter pkt.getPID = true
  clear : pkt.isScrambled = false
  continuous : ¬RealDiscontinuity (demux.pids pkt.getPID) pkt
  bringsNothing : BringsNothing (demux.pids pkt.getPID) pkt

end FilteringT2MIDemux

theorem ne_next_counter (continuity : UInt8) : continuity ≠ (continuity + 1) &&& 0x0F := by
  intro hsame
  have hnat := congrArg UInt8.toNat hsame
  rw [UInt8.toNat_and, UInt8.toNat_add, show (0x0F : UInt8).toNat = 2 ^ 4 - 1 from rfl,
    Nat.and_two_pow_sub_one_eq_mod, show (1 : UInt8).toNat = 1 from rfl] at hnat
  omega

theorem carried_self (data : ByteBlock) : Carried data data :=
  ⟨[], fun _ hmem ↦ absurd hmem List.not_mem_nil, List.prefix_rfl⟩

theorem T2MIPIDContext.carried_collect (context : T2MIPIDContext) (data : ByteBlock) :
    Carried context.t2mi (context.collect data).1.t2mi := by
  rw [collect_t2mi]
  obtain ⟨hpackets, hdata⟩ := takeAllRecords_readT2MIPacket (context.t2mi ++ data)
  exact ⟨_, hpackets, by rw [hdata]; exact List.prefix_append _ _⟩

namespace PIDReception

variable {reception : PIDReception} {pkt : TSPacket}

/-- A packet that brings nothing calls no handler. -/
theorem receivePacket_of_not_start (hvalid : reception.IsValid)
    (hnothing : pkt.payload = [] ∨ pkt.getCC = reception.continuity)
    (hstart : ¬(pkt.getPUSI = true ∧ pkt.HasT2MIPointer)) :
    (reception.receivePacket pkt).1.context.t2mi =
        (if reception.isBroken pkt = true ∨ pkt.getPUSI = true then []
          else reception.context.t2mi) ∧
      (reception.receivePacket pkt).2 = [] := by
  unfold receivePacket
  by_cases hpusi : pkt.getPUSI = true
  · have hpointer : ¬pkt.HasT2MIPointer := fun hpointer ↦ hstart ⟨hpusi, hpointer⟩
    rw [accept_of_bad_pointer hpusi hpointer, if_pos (Or.inr hpusi)]
    exact ⟨rfl, rfl⟩
  · rw [accept_of_not_pusi hpusi, track_sync]
    by_cases hbroken : reception.isBroken pkt = true
    · rw [if_pos hbroken, if_neg Bool.false_ne_true, if_pos (Or.inl hbroken)]
      refine ⟨?_, rfl⟩
      dsimp only
      rw [track_t2mi, if_pos hbroken]
    · rw [if_neg hbroken, if_neg (not_or.mpr ⟨hbroken, hpusi⟩)]
      have htracked : (reception.track pkt).context.t2mi = reception.context.t2mi := by
        rw [track_t2mi, if_neg hbroken]
      by_cases hsync : reception.sync = true
      · have hempty : pkt.payload = [] := by
          rcases hnothing with hempty | hsame
          · exact hempty
          · exact absurd (isBroken_eq_true_iff.mpr
              ⟨hsync, Or.inr (hsame ▸ ne_next_counter reception.continuity)⟩) hbroken
        have hkept : takeAllRecords readT2MIPacket reception.context.t2mi =
            ([], reception.context.t2mi) := by
          rw [isStream_readT2MIPacket.takeAllRecords_eq, hvalid.incomplete]
        rw [if_pos hsync, hempty]
        dsimp only
        rw [T2MIPIDContext.collect_t2mi]
        unfold T2MIPIDContext.collect
        rw [List.append_nil, htracked, hkept]
        exact ⟨rfl, rfl⟩
      · rw [if_neg hsync]
        exact ⟨htracked, rfl⟩

/-- A duplicate with a start loses what was collected. -/
theorem receivePacket_of_start (hvalid : reception.IsValid)
    (hsame : pkt.getCC = reception.continuity) (hpusi : pkt.getPUSI = true)
    (hpointer : pkt.HasT2MIPointer) :
    (reception.receivePacket pkt).1.context.t2mi =
        (takeAllRecords readT2MIPacket (pkt.payload.drop (1 + pkt.t2miPointer))).2 ∧
      ((reception.receivePacket pkt).2 = [] ↔
        ∀ bytes ∈ (takeAllRecords readT2MIPacket (pkt.payload.drop (1 + pkt.t2miPointer))).1,
          T2MIPacket.ofBytes bytes = none) := by
  have hsync : (reception.track pkt).sync = false := by
    rw [track_sync]
    split_ifs with hbroken
    · rfl
    · by_contra hsync
      exact hbroken (isBroken_eq_true_iff.mpr ⟨Bool.eq_true_of_not_eq_false hsync,
        Or.inr (hsame ▸ ne_next_counter reception.continuity)⟩)
  have hnil := (hvalid.track pkt).nil_of_not_sync hsync
  unfold receivePacket
  rw [accept_of_start hpusi hpointer, hsync, if_neg Bool.false_ne_true]
  dsimp only
  constructor
  · rw [T2MIPIDContext.collect_t2mi, hnil, List.nil_append]
  · unfold T2MIPIDContext.collect
    rw [T2MIPIDContext.notifyAll_eq_nil_iff, hnil, List.nil_append]

/-- Only invalid packets come in front of what was collected. -/
theorem takeAllRecords_unchanged_iff (hvalid : reception.IsValid) (data : ByteBlock) :
    ((takeAllRecords readT2MIPacket data).2 = reception.context.t2mi ∧
        ∀ bytes ∈ (takeAllRecords readT2MIPacket data).1, T2MIPacket.ofBytes bytes = none) ↔
      ∃ packets : List ByteBlock,
        (∀ bytes ∈ packets, IsT2MIPacket bytes ∧ T2MIPacket.ofBytes bytes = none) ∧
          data = packets.flatten ++ reception.context.t2mi := by
  constructor
  · rintro ⟨hremaining, hinvalid⟩
    obtain ⟨hpackets, hdata⟩ := takeAllRecords_readT2MIPacket data
    refine ⟨(takeAllRecords readT2MIPacket data).1,
      fun bytes hmem ↦ ⟨hpackets bytes hmem, hinvalid bytes hmem⟩, ?_⟩
    rw [← hremaining, hdata]
  · rintro ⟨packets, hpackets, rfl⟩
    rw [takeAllRecords_flatten (fun bytes hmem ↦ (hpackets bytes hmem).1) hvalid.incomplete]
    exact ⟨rfl, fun bytes hmem ↦ (hpackets bytes hmem).2⟩

/-- Nothing changes exactly when the packet is harmless. -/
theorem receivePacket_unchanged_iff (hvalid : reception.IsValid)
    (hindicator : ¬pkt.getDiscontinuityIndicator = true)
    (hnothing : pkt.payload = [] ∨ pkt.getCC = reception.continuity)
    (hcounter : pkt.getCC = reception.continuity ∨ pkt.getCC = (reception.continuity + 1) &&& 0x0F ∨
      reception.sync = false) :
    ((reception.receivePacket pkt).1.context.t2mi = reception.context.t2mi ∧
        (reception.receivePacket pkt).2 = []) ↔ IsHarmless reception pkt := by
  unfold IsHarmless
  by_cases hstart : pkt.getPUSI = true ∧ pkt.HasT2MIPointer
  · have hsame : pkt.getCC = reception.continuity := by
      rcases hnothing with hempty | hsame
      · have hinside := hstart.2
        unfold TSPacket.HasT2MIPointer at hinside
        rw [hempty, List.length_nil] at hinside
        exact absurd hinside (Nat.not_lt_zero _)
      · exact hsame
    obtain ⟨hdata, hcalls⟩ := receivePacket_of_start hvalid hsame hstart.1 hstart.2
    rw [if_pos hstart, hdata, hcalls]
    exact takeAllRecords_unchanged_iff hvalid _
  · obtain ⟨hdata, hcalls⟩ := receivePacket_of_not_start hvalid hnothing hstart
    rw [if_neg hstart, hdata, hcalls]
    by_cases hpusi : pkt.getPUSI = true
    · have hnotFalse : ¬pkt.getPUSI = false := fun hfalse ↦
        Bool.noConfusion (hpusi.symm.trans hfalse)
      rw [if_pos (Or.inr hpusi)]
      exact ⟨fun hnil ↦ Or.inl hnil.1.symm, fun hharmless ↦
        ⟨(hharmless.resolve_right fun hnext ↦ hnotFalse hnext.2).symm, rfl⟩⟩
    by_cases hlost : reception.isBroken pkt = true
    · rw [if_pos (Or.inl hlost)]
      have hsame : pkt.getCC = reception.continuity := by
        obtain ⟨hsync, hbroken⟩ := isBroken_eq_true_iff.mp hlost
        rcases hcounter with hsame | hnext | hnot
        · exact hsame
        · exact absurd hnext (hbroken.resolve_left hindicator)
        · exact Bool.noConfusion (hsync.symm.trans hnot)
      exact ⟨fun hnil ↦ Or.inl hnil.1.symm, fun hharmless ↦
        ⟨(hharmless.resolve_right fun hnext ↦ hnext.1 hsame).symm, rfl⟩⟩
    · rw [if_neg (not_or.mpr ⟨hlost, hpusi⟩)]
      refine ⟨fun _ ↦ ?_, fun _ ↦ ⟨rfl, rfl⟩⟩
      by_cases hsync : reception.sync = true
      · refine Or.inr ⟨fun hsame ↦ hlost ?_, Bool.eq_false_of_not_eq_true hpusi⟩
        exact isBroken_eq_true_iff.mpr
          ⟨hsync, Or.inr (hsame ▸ ne_next_counter reception.continuity)⟩
      · exact Or.inl (hvalid.nil_of_not_sync (Bool.eq_false_of_not_eq_true hsync))

theorem carried_receivePacket (hkept : ¬reception.isBroken pkt = true)
    (hstart : pkt.getPUSI = true → pkt.HasT2MIPointer) (hvalid : reception.IsValid) :
    Carried reception.context.t2mi (reception.receivePacket pkt).1.context.t2mi := by
  have htracked : (reception.track pkt).context.t2mi = reception.context.t2mi := by
    rw [track_t2mi, if_neg hkept]
  have hcollected := fun data ↦ (reception.track pkt).context.carried_collect data
  rw [htracked] at hcollected
  by_cases hsync : reception.sync = true
  · have hstill : (reception.track pkt).sync = true := by
      rw [track_sync, if_neg hkept, hsync]
    unfold receivePacket
    by_cases hpusi : pkt.getPUSI = true
    · rw [accept_of_start hpusi (hstart hpusi), if_pos hstill]
      exact hcollected _
    · rw [accept_of_not_pusi hpusi, if_pos hstill]
      exact hcollected _
  · rw [hvalid.nil_of_not_sync (Bool.eq_false_of_not_eq_true hsync)]
    exact ⟨[], fun _ hmem ↦ absurd hmem List.not_mem_nil, List.nil_prefix⟩

end PIDReception

/-! ### The effect of a packet on the demux -/

namespace FilteringT2MIDemux

variable {demux : FilteringT2MIDemux} {pkt : TSPacket}

theorem feedPacket_of_ignored
    (hignored : demux.pidFilter pkt.getPID = false ∨ pkt.isScrambled = true) :
    demux.feedPacket pkt = (demux, []) :=
  if_pos hignored

theorem feedPacket_of_received
    (hreceived : ¬(demux.pidFilter pkt.getPID = false ∨ pkt.isScrambled = true)) :
    (demux.feedPacket pkt).1.reception pkt.getPID =
        ((demux.reception pkt.getPID).receivePacket pkt).1 ∧
      (demux.feedPacket pkt).2 = ((demux.reception pkt.getPID).receivePacket pkt).2 := by
  unfold feedPacket
  rw [if_neg hreceived]
  dsimp only
  rw [reception_update, if_pos rfl]
  exact ⟨rfl, rfl⟩

theorem counter_of_continuous (hcontinuous : ¬RealDiscontinuity (demux.pids pkt.getPID) pkt) :
    pkt.getCC = (demux.reception pkt.getPID).continuity ∨
      pkt.getCC = ((demux.reception pkt.getPID).continuity + 1) &&& 0x0F ∨
        (demux.reception pkt.getPID).sync = false := by
  unfold reception
  cases hprevious : demux.pids pkt.getPID with
  | none => exact Or.inr (Or.inr rfl)
  | some previous =>
    by_contra hneither
    obtain ⟨hother, hneither⟩ := not_or.mp hneither
    exact hcontinuous (Or.inr (Or.inl ⟨previous, hprevious, hother, (not_or.mp hneither).1⟩))

/-- What was collected is kept exactly when the packet is harmless, or is not an idle one. -/
theorem keepsCollected_iff {inputs : List T2MIInput} {calls : List T2MICall}
    (hrun : machine.run .new inputs = some (demux, calls)) (pkt : TSPacket) :
    demux.KeepsCollected pkt ↔
      (demux.IsIdle pkt → IsHarmless (demux.reception pkt.getPID) pkt) := by
  have hvalid := isValid_of_run hrun pkt.getPID
  by_cases hignored : demux.pidFilter pkt.getPID = false ∨ pkt.isScrambled = true
  · unfold KeepsCollected
    rw [feedPacket_of_ignored hignored]
    refine ⟨fun _ hidle ↦ ?_, fun _ _ ↦ ⟨carried_self _, fun _ ↦ ⟨rfl, rfl⟩⟩⟩
    rcases hignored with hunfiltered | hscrambled
    · exact Bool.noConfusion (hidle.filtered.symm.trans hunfiltered)
    · exact Bool.noConfusion (hscrambled.symm.trans hidle.clear)
  obtain ⟨hreception, hcalls⟩ := feedPacket_of_received hignored
  unfold KeepsCollected
  rw [hreception, hcalls]
  by_cases hcontinuous : ¬RealDiscontinuity (demux.pids pkt.getPID) pkt
  swap
  · exact ⟨fun _ hidle ↦ absurd hidle.continuous hcontinuous, fun _ hnot ↦ absurd hnot hcontinuous⟩
  have hindicator : ¬pkt.getDiscontinuityIndicator = true := fun hset ↦
    hcontinuous (Or.inl hset)
  by_cases hnothing : BringsNothing (demux.pids pkt.getPID) pkt
  · have hidle : demux.IsIdle pkt :=
      { filtered := Bool.eq_true_of_not_eq_false (not_or.mp hignored).1
        clear := Bool.eq_false_of_not_eq_true (not_or.mp hignored).2
        continuous := hcontinuous
        bringsNothing := hnothing }
    have hbrings : pkt.payload = [] ∨ pkt.getCC = (demux.reception pkt.getPID).continuity := by
      refine hnothing.imp_right ?_
      rintro ⟨previous, hprevious, hsame⟩
      rw [reception, hprevious]
      exact hsame
    have hunchanged := PIDReception.receivePacket_unchanged_iff hvalid hindicator hbrings
      (counter_of_continuous hcontinuous)
    constructor
    · intro hkeeps _
      exact hunchanged.mp ((hkeeps hcontinuous).2 hnothing)
    · intro hharmless _
      obtain ⟨hdata, hnone⟩ := hunchanged.mpr (hharmless hidle)
      rw [hdata]
      exact ⟨carried_self _, fun _ ↦ ⟨rfl, hnone⟩⟩
  · have hkept : ¬(demux.reception pkt.getPID).isBroken pkt = true := by
      intro hlost
      obtain ⟨hsync, hbroken⟩ := PIDReception.isBroken_eq_true_iff.mp hlost
      rcases counter_of_continuous hcontinuous with hsame | hnext | hnot
      · refine hnothing (Or.inr ?_)
        cases hprevious : demux.pids pkt.getPID with
        | none =>
          rw [reception, hprevious] at hsync
          exact Bool.noConfusion hsync
        | some previous =>
          rw [reception, hprevious] at hsame
          exact ⟨previous, rfl, hsame⟩
      · exact hbroken.resolve_left hindicator hnext
      · exact Bool.noConfusion (hsync.symm.trans hnot)
    have hstart : pkt.getPUSI = true → pkt.HasT2MIPointer := fun hpusi ↦ by
      by_contra hpointer
      exact hcontinuous (Or.inr (Or.inr ⟨hnothing, hpusi, hpointer⟩))
    exact ⟨fun _ hidle ↦ absurd hidle.bringsNothing hnothing,
      fun _ _ ↦ ⟨PIDReception.carried_receivePacket hkept hstart hvalid,
        fun hbrings ↦ absurd hbrings hnothing⟩⟩

end FilteringT2MIDemux

/-! ### A duplicate packet in the middle of a T2-MI packet -/

def firstPieceT2MI : TSPacket where
  bytes := packetHeader true 0x100 0 ++ 0 :: List.replicate 183 0xFF
  length_eq := rfl

def secondPieceT2MI : TSPacket where
  bytes := packetHeader false 0x100 1 ++ List.replicate 184 0xFF
  length_eq := rfl

/-- The second packet keeps what was collected. -/
theorem FilteringT2MIDemux.keepsCollected_second_piece :
    ∃ demux calls, machine.run .new [.addPID 0x100, .packet firstPieceT2MI] = some (demux, calls) ∧
        demux.KeepsCollected secondPieceT2MI := by
  have hrun : machine.run .new [.addPID 0x100, .packet firstPieceT2MI] = some (_, _) := rfl
  refine ⟨_, _, hrun, (keepsCollected_iff hrun secondPieceT2MI).mpr fun hidle ↦ ?_⟩
  rcases hidle.bringsNothing with hempty | ⟨previous, hprevious, hsame⟩
  · exact absurd hempty (by decide +kernel)
  · have hcontinuity := congrArg (Option.map PIDReception.continuity) hprevious
    rw [Option.map_some, ← hsame] at hcontinuity
    exact absurd hcontinuity (by decide +kernel)

def FilteringT2MIDemux.afterPieces : FilteringT2MIDemux :=
  ((machine.run .new [.addPID 0x100, .packet firstPieceT2MI, .packet secondPieceT2MI]).map
    Prod.fst).getD .new

/-- The second packet is sent twice: 367 bytes are dropped. -/
theorem FilteringT2MIDemux.duplicate_not_keepsCollected :
    (∃ calls, machine.run .new [.addPID 0x100, .packet firstPieceT2MI, .packet secondPieceT2MI] =
        some (afterPieces, calls)) ∧
      ¬afterPieces.KeepsCollected secondPieceT2MI := by
  have hduplicates : Duplicates (afterPieces.pids secondPieceT2MI.getPID) secondPieceT2MI := by
    have hcontinuity : (afterPieces.pids secondPieceT2MI.getPID).map PIDReception.continuity =
        some secondPieceT2MI.getCC := by decide +kernel
    obtain ⟨previous, hprevious, hsame⟩ := Option.map_eq_some_iff.mp hcontinuity
    exact ⟨previous, hprevious, hsame.symm⟩
  have hcontinuous :
      ¬RealDiscontinuity (afterPieces.pids secondPieceT2MI.getPID) secondPieceT2MI := by
    rintro (hindicator | ⟨previous, hprevious, hother, -⟩ | ⟨hnothing, -⟩)
    · exact absurd hindicator (by decide +kernel)
    · obtain ⟨same, hsame, hcounter⟩ := hduplicates
      rw [hprevious] at hsame
      exact hother (Option.some.inj hsame ▸ hcounter)
    · exact hnothing (Or.inr hduplicates)
  refine ⟨⟨_, rfl⟩, fun hkeeps ↦ ?_⟩
  have hsame := congrArg List.length ((hkeeps hcontinuous).2 (Or.inr hduplicates)).1
  have hbefore : (afterPieces.reception secondPieceT2MI.getPID).context.t2mi.length = 367 := by
    decide +kernel
  have hafter : ((afterPieces.feedPacket secondPieceT2MI).1.reception
      secondPieceT2MI.getPID).context.t2mi.length = 0 := by decide +kernel
  rw [hbefore, hafter] at hsame
  exact absurd hsame (by decide)

end TSDuck
