import TSDuck.Library.Repetition
import TSDuck.Mpeg.AdaptationField
import TSDuck.Psi.SectionDemux

/-!
# The PES packet demux

`PESDemux` collects the PES packets of each PID: the payloads of the packets from one payload unit
start to the next one (`PESContext`). A PES packet is reported when the next one starts, and only if
its header is valid (`PESPacket.ofContent`).

A packet with a payload unit start is never compared with the continuity counter of the previous
one. A copy of it is the start of another PES packet (`PESDemux.Truncates`). Any other copy changes
nothing (`PESDemux.machine_ignoresCopies`).

Scope. The stream types of the PMT, which are given to the PES packets, and the analysis of the
video and audio contents of a PES packet are not here. PES packets are compared by their bytes and
their PID.
-/

namespace TSDuck

/-! ### PES packets -/

def sidPsmap : UInt8 := 0xBC

def sidPad : UInt8 := 0xBE

def sidPriv2 : UInt8 := 0xBF

def sidECM : UInt8 := 0xF0

def sidEMM : UInt8 := 0xF1

def sidDsmcc : UInt8 := 0xF2

def sidH2221E : UInt8 := 0xF8

def sidPsdir : UInt8 := 0xFF

def isLongHeaderSID (sid : UInt8) : Bool :=
  sid != sidPsmap && sid != sidPad && sid != sidPriv2 && sid != sidECM && sid != sidEMM &&
    sid != sidPsdir && sid != sidDsmcc && sid != sidH2221E

def pesHeaderSize (data : ByteBlock) : Option ℕ :=
  if data.length < 6 then none
  else if byteAt data 0 ≠ 0 ∨ byteAt data 1 ≠ 0 ∨ byteAt data 2 ≠ 1 then none
  else if isLongHeaderSID (byteAt data 3) then
    if data.length < 9 then none
    else if data.length < 9 + (byteAt data 8).toNat then none
    else some (9 + (byteAt data 8).toNat)
  else some 6

/-- A valid PES packet. -/
structure PESPacket where
  data : ByteBlock
  headerSize : ℕ
  sourcePid : ℕ
  firstPkt : ℕ
  lastPkt : ℕ
  valid : pesHeaderSize data = some headerSize
  deriving DecidableEq

namespace PESPacket

def ofContent (data : ByteBlock) (sourcePid firstPkt lastPkt : ℕ) : Option PESPacket :=
  match hsize : pesHeaderSize data with
  | none => none
  | some headerSize => some ⟨data, headerSize, sourcePid, firstPkt, lastPkt, hsize⟩

def forget (packet : PESPacket) : PESPacket :=
  { packet with firstPkt := 0, lastPkt := 0 }

theorem ofContent_eq_none {data : ByteBlock} (hsize : pesHeaderSize data = none)
    (sourcePid firstPkt lastPkt : ℕ) : ofContent data sourcePid firstPkt lastPkt = none := by
  unfold ofContent
  split
  · rfl
  · next hsome => exact absurd (hsome.symm.trans hsize) (by simp)

theorem ofContent_forget (data : ByteBlock) (sourcePid firstPkt lastPkt : ℕ) :
    (ofContent data sourcePid firstPkt lastPkt).map forget = ofContent data sourcePid 0 0 := by
  unfold ofContent
  split
  · rfl
  · rfl

end PESPacket

namespace TSPacket

def startsPESPacket (pkt : TSPacket) : Bool :=
  3 ≤ pkt.payload.length && byteAt pkt.payload 0 == 0 && byteAt pkt.payload 1 == 0 &&
    byteAt pkt.payload 2 == 1

end TSPacket

/-! ### The demux -/

structure PESContext where
  continuity : UInt8
  sync : Bool
  ts : ByteBlock
  firstPkt : ℕ
  lastPkt : ℕ
  deriving DecidableEq

def PESContext.syncLost (context : PESContext) : PESContext :=
  { context with sync := false, ts := [] }

/-- The handler of an application, on a state of the application. -/
structure PESHandler (State : Type) where
  handlePESPacket : Option (State → PESPacket → State × List DemuxRequest)

/-- A demux, with the application that handles its PES packets. -/
structure PESDemux (State : Type) where
  pidFilter : ℕ → Bool
  packetCount : ℕ
  pids : ℕ → Option PESContext
  application : State

namespace PESDemux

variable {State : Type}

def new (pidFilter : ℕ → Bool) (application : State) : PESDemux State :=
  { pidFilter, packetCount := 0, pids := fun _ ↦ none, application }

def setPID (demux : PESDemux State) (pid : ℕ) (context : Option PESContext) : PESDemux State :=
  { demux with pids := Function.update demux.pids pid context }

def immediateReset (demux : PESDemux State) : PESDemux State :=
  { demux with pids := fun _ ↦ none }

def immediateResetPID (demux : PESDemux State) (pid : ℕ) : PESDemux State :=
  demux.setPID pid none

/-- The resets of other PIDs are immediate. -/
def serve (demux : PESDemux State) (pid : ℕ) (requests : List DemuxRequest) : PESDemux State :=
  let others := requests.foldl
    (fun current request ↦
      match request with
      | .resetPID other => if other = pid then current else current.immediateResetPID other
      | .reset => current)
    demux
  let pidReset := if .resetPID pid ∈ requests then others.immediateResetPID pid else others
  if .reset ∈ requests then pidReset.immediateReset else pidReset

/-- Processes a collected PES packet, if it is valid. -/
def processPESPacket (handler : PESHandler State) (demux : PESDemux State) (pid : ℕ)
    (context : PESContext) : PESDemux State × List PESPacket :=
  match PESPacket.ofContent context.ts pid context.firstPkt context.lastPkt,
      handler.handlePESPacket with
  | some packet, some handle =>
    let (application, requests) := handle demux.application packet
    (({ demux with application } : PESDemux State).serve pid requests, [packet])
  | _, _ => (demux, [])

/-- The PES packet which a payload unit start completes, if any. -/
def complete (demux : PESDemux State) (pkt : TSPacket) : Option PESContext :=
  if pkt.getPUSI then (demux.pids pkt.getPID).filter fun context ↦ context.sync else none

def collectPayload (demux : PESDemux State) (pkt : TSPacket) : PESDemux State :=
  if pkt.getScrambling ≠ 0 then demux.setPID pkt.getPID none
  else if pkt.getPUSI then
    if pkt.startsPESPacket then
      demux.setPID pkt.getPID
        (some
          { continuity := pkt.getCC, sync := true, ts := pkt.payload, firstPkt := demux.packetCount,
            lastPkt := demux.packetCount })
    else demux.setPID pkt.getPID none
  else
    match demux.pids pkt.getPID with
    | none => demux
    | some context =>
      if context.sync = false then demux
      else if pkt.getCC = context.continuity then demux
      else if pkt.getCC.toNat ≠ (context.continuity.toNat + 1) % ccMax then
        demux.setPID pkt.getPID (some context.syncLost)
      else
        demux.setPID pkt.getPID
          (some { context with
            continuity := pkt.getCC, ts := context.ts ++ pkt.payload, lastPkt := demux.packetCount })

def processPacket (handler : PESHandler State) (demux : PESDemux State) (pkt : TSPacket) :
    PESDemux State × List PESPacket :=
  if pkt.hasValidSync = false then (demux, [])
  else if demux.pids pkt.getPID = none ∧ pkt.getPUSI = false then (demux, [])
  else
    match demux.complete pkt with
    | none => (demux.collectPayload pkt, [])
    | some context =>
      let (processed, packets) := demux.processPESPacket handler pkt.getPID context
      (processed.collectPayload pkt, packets)

def feedPacket (handler : PESHandler State) (demux : PESDemux State) (pkt : TSPacket) :
    PESDemux State × List PESPacket :=
  let (processed, packets) :=
    if demux.pidFilter pkt.getPID then demux.processPacket handler pkt else (demux, [])
  ({ processed with packetCount := processed.packetCount + 1 }, packets)

/-- A machine that reports the PES packets. -/
def machine (handler : PESHandler State) : Machine (PESDemux State) TSPacket PESPacket where
  step demux pkt := some (demux.feedPacket handler pkt)

end PESDemux

/-! ### Demuxes that are alike -/

def PESContext.forget (context : PESContext) : PESContext :=
  { context with firstPkt := 0, lastPkt := 0 }

theorem PESContext.eq_of_forget {context context' : PESContext}
    (hsame : context.forget = context'.forget) :
    context.continuity = context'.continuity ∧ context.sync = context'.sync ∧
      context.ts = context'.ts :=
  ⟨(congrArg PESContext.continuity hsame :), (congrArg PESContext.sync hsame :),
    (congrArg PESContext.ts hsame :)⟩

/-- The handler does not look at the indexes of packets. -/
def PESHandler.IgnoreIndexes {State Erased : Type} (handler : PESHandler State)
    (erase : State → Erased) : Prop :=
  ∀ handle ∈ handler.handlePESPacket, ∀ state state' packet packet', erase state = erase state' →
    PESPacket.forget packet = PESPacket.forget packet' →
      erase (handle state packet).1 = erase (handle state' packet').1 ∧
        (handle state packet).2 = (handle state' packet').2

def PESPacket.call (packet : PESPacket) : Option PESPacket :=
  some packet.forget

namespace PESDemux

variable {State Erased : Type} (erase : State → Erased)

/-- The demuxes are the same, without the indexes of packets. -/
structure Alike (first second : PESDemux State) : Prop where
  pidFilter : first.pidFilter = second.pidFilter
  pids : ∀ pid, (first.pids pid).map PESContext.forget = (second.pids pid).map PESContext.forget
  application : erase first.application = erase second.application

theorem alike_equivalence : Equivalence (Alike erase) where
  refl _ := ⟨rfl, fun _ ↦ rfl, rfl⟩
  symm halike :=
    ⟨halike.pidFilter.symm, fun pid ↦ (halike.pids pid).symm, halike.application.symm⟩
  trans hfirst hsecond :=
    ⟨hfirst.pidFilter.trans hsecond.pidFilter, fun pid ↦ (hfirst.pids pid).trans (hsecond.pids pid),
      hfirst.application.trans hsecond.application⟩

variable {erase} {first second : PESDemux State}

theorem Alike.counted (halike : Alike erase first second) (count count' : ℕ) :
    Alike erase { first with packetCount := count } { second with packetCount := count' } :=
  ⟨halike.pidFilter, halike.pids, halike.application⟩

theorem Alike.setPID (halike : Alike erase first second) (pid : ℕ)
    {context context' : Option PESContext}
    (hcontext : context.map PESContext.forget = context'.map PESContext.forget) :
    Alike erase (first.setPID pid context) (second.setPID pid context') := by
  refine ⟨halike.pidFilter, fun other ↦ ?_, halike.application⟩
  unfold PESDemux.setPID
  by_cases hother : other = pid
  · subst hother
    simp only [Function.update_self]
    exact hcontext
  · simp only [Function.update_of_ne hother]
    exact halike.pids other

theorem Alike.immediateResetPID (halike : Alike erase first second) (pid : ℕ) :
    Alike erase (first.immediateResetPID pid) (second.immediateResetPID pid) :=
  halike.setPID pid rfl

theorem Alike.immediateReset (halike : Alike erase first second) :
    Alike erase first.immediateReset second.immediateReset :=
  ⟨halike.pidFilter, fun _ ↦ rfl, halike.application⟩

theorem Alike.serve (halike : Alike erase first second) (pid : ℕ) (requests : List DemuxRequest) :
    Alike erase (first.serve pid requests) (second.serve pid requests) := by
  have hothers : ∀ (list : List DemuxRequest) (first second : PESDemux State),
      Alike erase first second →
      Alike erase
        (list.foldl (fun current request ↦
          match request with
          | .resetPID other => if other = pid then current else current.immediateResetPID other
          | .reset => current) first)
        (list.foldl (fun current request ↦
          match request with
          | .resetPID other => if other = pid then current else current.immediateResetPID other
          | .reset => current) second) := by
    intro list
    induction list with
    | nil => exact fun _ _ h ↦ h
    | cons request list ih =>
      intro first second hboth
      rw [List.foldl_cons, List.foldl_cons]
      apply ih
      cases request with
      | reset => exact hboth
      | resetPID other =>
        dsimp only
        split_ifs
        · exact hboth
        · exact hboth.immediateResetPID other
  unfold PESDemux.serve
  dsimp only
  have hserved := hothers requests first second halike
  split_ifs
  · exact (hserved.immediateResetPID pid).immediateReset
  · exact hserved.immediateReset
  · exact hserved.immediateResetPID pid
  · exact hserved

theorem Alike.context (halike : Alike erase first second) (pid : ℕ) :
    (first.pids pid = none ∧ second.pids pid = none) ∨
      ∃ context context', first.pids pid = some context ∧ second.pids pid = some context' ∧
        context.forget = context'.forget := by
  have hpid := halike.pids pid
  cases hfirst : first.pids pid with
  | none =>
    rw [hfirst, Option.map_none, eq_comm, Option.map_eq_none_iff] at hpid
    exact Or.inl ⟨rfl, hpid⟩
  | some context =>
    rw [hfirst, Option.map_some, eq_comm, Option.map_eq_some_iff] at hpid
    obtain ⟨context', hsecond, hsame⟩ := hpid
    exact Or.inr ⟨context, context', rfl, hsecond, hsame.symm⟩

theorem Alike.collectPayload (halike : Alike erase first second) (pkt : TSPacket) :
    Alike erase (first.collectPayload pkt) (second.collectPayload pkt) := by
  unfold PESDemux.collectPayload
  split_ifs with hscrambled hpusi hstarts
  · exact halike.setPID _ rfl
  · exact halike.setPID _ rfl
  · exact halike.setPID _ rfl
  · obtain ⟨hfirst, hsecond⟩ | ⟨context, context', hfirst, hsecond, hsame⟩ :=
      halike.context pkt.getPID
    · rw [hfirst, hsecond]
      exact halike
    · obtain ⟨hcontinuity, hsync, hts⟩ := PESContext.eq_of_forget hsame
      rw [hfirst, hsecond]
      dsimp only
      rw [hcontinuity, hsync]
      split_ifs with hlost hcopy hgap
      · exact halike
      · exact halike
      · apply halike.setPID
        unfold PESContext.syncLost PESContext.forget
        simp only [Option.map_some, hcontinuity]
      · apply halike.setPID
        unfold PESContext.forget
        simp only [Option.map_some, hts]

variable {handler : PESHandler State}

theorem Alike.processPESPacket (hignore : handler.IgnoreIndexes erase)
    (halike : Alike erase first second) (pid : ℕ) {context context' : PESContext}
    (hcontext : context.forget = context'.forget) :
    Alike erase (first.processPESPacket handler pid context).1
        (second.processPESPacket handler pid context').1 ∧
      (first.processPESPacket handler pid context).2.filterMap PESPacket.call =
        (second.processPESPacket handler pid context').2.filterMap PESPacket.call := by
  have hts : context.ts = context'.ts := (PESContext.eq_of_forget hcontext).2.2
  have hsame := (PESPacket.ofContent_forget context.ts pid context.firstPkt context.lastPkt).trans
    (PESPacket.ofContent_forget context.ts pid context'.firstPkt context'.lastPkt).symm
  unfold PESDemux.processPESPacket
  rw [← hts]
  cases hpacket : PESPacket.ofContent context.ts pid context.firstPkt context.lastPkt with
  | none =>
    rw [hpacket, Option.map_none, eq_comm, Option.map_eq_none_iff] at hsame
    rw [hsame]
    exact ⟨halike, rfl⟩
  | some packet =>
    rw [hpacket, Option.map_some, eq_comm, Option.map_eq_some_iff] at hsame
    obtain ⟨packet', hpacket', hforget⟩ := hsame
    rw [hpacket']
    cases hhandle : handler.handlePESPacket with
    | none => exact ⟨halike, rfl⟩
    | some handle =>
      obtain ⟨happlication, hrequests⟩ := hignore handle hhandle first.application
        second.application packet packet' halike.application hforget.symm
      dsimp only
      rw [hrequests]
      constructor
      · apply Alike.serve
        exact ⟨halike.pidFilter, halike.pids, happlication⟩
      · show [packet.forget] = [packet'.forget]
        rw [hforget]

theorem Alike.processPacket (hignore : handler.IgnoreIndexes erase)
    (halike : Alike erase first second) (pkt : TSPacket) :
    Alike erase (first.processPacket handler pkt).1 (second.processPacket handler pkt).1 ∧
      (first.processPacket handler pkt).2.filterMap PESPacket.call =
        (second.processPacket handler pkt).2.filterMap PESPacket.call := by
  unfold PESDemux.processPacket PESDemux.complete
  obtain ⟨hfirst, hsecond⟩ | ⟨context, context', hfirst, hsecond, hsame⟩ :=
    halike.context pkt.getPID
  · rw [hfirst, hsecond]
    split_ifs
    · exact ⟨halike, rfl⟩
    · exact ⟨halike, rfl⟩
    · exact ⟨halike.collectPayload pkt, rfl⟩
    · exact ⟨halike.collectPayload pkt, rfl⟩
  · obtain ⟨hcontinuity, hsync, hts⟩ := PESContext.eq_of_forget hsame
    rw [hfirst, hsecond, Option.filter_some, Option.filter_some, hsync]
    split_ifs with hvalid hnone hpusi hcollecting
    · exact ⟨halike, rfl⟩
    · exact absurd hnone.1 (by simp)
    · obtain ⟨hprocessed, hcalls⟩ := halike.processPESPacket hignore pkt.getPID hsame
      exact ⟨hprocessed.collectPayload pkt, hcalls⟩
    · exact ⟨halike.collectPayload pkt, rfl⟩
    · exact ⟨halike.collectPayload pkt, rfl⟩

theorem Alike.feedPacket (hignore : handler.IgnoreIndexes erase)
    (halike : Alike erase first second) (pkt : TSPacket) :
    Alike erase (first.feedPacket handler pkt).1 (second.feedPacket handler pkt).1 ∧
      (first.feedPacket handler pkt).2.filterMap PESPacket.call =
        (second.feedPacket handler pkt).2.filterMap PESPacket.call := by
  unfold PESDemux.feedPacket
  rw [halike.pidFilter]
  split_ifs
  · obtain ⟨hprocessed, hcalls⟩ := halike.processPacket hignore pkt
    exact ⟨hprocessed.counted _ _, hcalls⟩
  · exact ⟨halike.counted _ _, rfl⟩

theorem machine_congruence (hignore : handler.IgnoreIndexes erase) :
    (machine handler).Congruence (Alike erase) PESPacket.call := by
  intro first second pkt next next' outputs outputs' halike hstep hstep'
  obtain ⟨rfl, rfl⟩ := Prod.mk.inj (Option.some.inj hstep)
  obtain ⟨rfl, rfl⟩ := Prod.mk.inj (Option.some.inj hstep')
  exact halike.feedPacket hignore pkt

/-! ### A copy of the last packet -/

/-- A copy completes what the first copy has collected alone. -/
def Truncates (handler : PESHandler State) (demux : PESDemux State) (pkt : TSPacket) : Prop :=
  demux.pidFilter pkt.getPID = true ∧ pkt.hasValidSync = true ∧
    handler.handlePESPacket.isSome = true ∧
      ∃ context ∈ demux.complete pkt, (pesHeaderSize context.ts).isSome = true

theorem alike_setPID (demux : PESDemux State) (pid : ℕ) {context : Option PESContext}
    (hcontext : (demux.pids pid).map PESContext.forget = context.map PESContext.forget) :
    Alike erase demux (demux.setPID pid context) := by
  have hsame : demux.setPID pid (demux.pids pid) = demux := by
    unfold setPID
    rw [Function.update_eq_self]
  have halike := ((alike_equivalence erase).refl demux).setPID pid hcontext
  rwa [hsame] at halike

theorem alike_collectPayload (before demux : PESDemux State) (pkt : TSPacket)
    (hpids : demux.pids = (before.collectPayload pkt).pids) :
    Alike erase demux (demux.collectPayload pkt) := by
  have hpid := congrFun hpids pkt.getPID
  unfold collectPayload at hpid ⊢
  have hself : ∀ context, (before.setPID pkt.getPID context).pids pkt.getPID = context :=
    fun context ↦ Function.update_self _ _ _
  split_ifs at hpid ⊢ with hscrambled hpusi hstarts
  · exact demux.alike_setPID _ (by rw [hpid, hself])
  · exact demux.alike_setPID _ (by rw [hpid, hself]; rfl)
  · exact demux.alike_setPID _ (by rw [hpid, hself])
  · cases hbefore : before.pids pkt.getPID with
    | none =>
      rw [hbefore] at hpid
      rw [hpid.trans hbefore]
      exact (alike_equivalence erase).refl demux
    | some context =>
      rw [hbefore] at hpid
      dsimp only at hpid
      split_ifs at hpid with hlost hcopy hgap
      · rw [hpid.trans hbefore]
        dsimp only
        rw [if_pos hlost]
        exact (alike_equivalence erase).refl demux
      · rw [hpid.trans hbefore]
        dsimp only
        rw [if_neg hlost, if_pos hcopy]
        exact (alike_equivalence erase).refl demux
      · rw [hpid, hself]
        exact (alike_equivalence erase).refl demux
      · rw [hpid, hself]
        dsimp only
        rw [if_neg hlost, if_pos rfl]
        exact (alike_equivalence erase).refl demux

/-- A packet is ignored, or its payload is collected. -/
theorem processPacket_cases (handler : PESHandler State) (demux : PESDemux State) (pkt : TSPacket) :
    ((pkt.hasValidSync = false ∨ demux.pids pkt.getPID = none ∧ pkt.getPUSI = false) ∧
        demux.processPacket handler pkt = (demux, [])) ∨
      ∃ middle : PESDemux State,
        (demux.processPacket handler pkt).1 = middle.collectPayload pkt := by
  unfold processPacket
  split_ifs with hvalid hnone
  · exact Or.inl ⟨Or.inl hvalid, rfl⟩
  · exact Or.inl ⟨Or.inr hnone, rfl⟩
  · refine Or.inr ?_
    cases demux.complete pkt with
    | none => exact ⟨demux, rfl⟩
    | some context => exact ⟨_, rfl⟩

theorem processPacket_of_not_truncates (demux : PESDemux State) (pkt : TSPacket)
    (hfiltered : demux.pidFilter pkt.getPID = true) (htruncates : ¬ demux.Truncates handler pkt) :
    demux.processPacket handler pkt =
      if pkt.hasValidSync = false ∨ demux.pids pkt.getPID = none ∧ pkt.getPUSI = false then
        (demux, [])
      else (demux.collectPayload pkt, []) := by
  unfold processPacket
  by_cases hvalid : pkt.hasValidSync = false
  · rw [if_pos hvalid, if_pos (Or.inl hvalid)]
  · rw [if_neg hvalid]
    by_cases hnone : demux.pids pkt.getPID = none ∧ pkt.getPUSI = false
    · rw [if_pos hnone, if_pos (Or.inr hnone)]
    · rw [if_neg hnone, if_neg (not_or.mpr ⟨hvalid, hnone⟩)]
      cases hcomplete : demux.complete pkt with
      | none => rfl
      | some context =>
        have hquiet : demux.processPESPacket handler pkt.getPID context = (demux, []) := by
          unfold processPESPacket
          cases hhandle : handler.handlePESPacket with
          | none =>
            cases PESPacket.ofContent context.ts pkt.getPID context.firstPkt context.lastPkt <;> rfl
          | some handle =>
            cases hsize : pesHeaderSize context.ts with
            | none =>
              rw [PESPacket.ofContent_eq_none hsize]
            | some size =>
              refine absurd ⟨hfiltered, Bool.not_eq_false _ ▸ hvalid, ?_, context, hcomplete, ?_⟩
                htruncates
              · rw [hhandle]
                rfl
              · rw [hsize]
                rfl
        dsimp only
        rw [hquiet]

theorem machine_ignoresCopies : (machine handler).IgnoresCopies (Alike erase) PESPacket.call
    fun demux pkt ↦ ¬ demux.Truncates handler pkt := by
  intro before state next pkt outputs outputs' hstep htruncates hstep'
  have hfed : before.feedPacket handler pkt = (state, outputs) := Option.some.inj hstep
  have hcopied : state.feedPacket handler pkt = (next, outputs') := Option.some.inj hstep'
  have hrefl := (alike_equivalence erase).refl state
  unfold feedPacket at hcopied
  by_cases hfiltered : state.pidFilter pkt.getPID = true
  · rw [if_pos hfiltered, state.processPacket_of_not_truncates pkt hfiltered htruncates] at hcopied
    split_ifs at hcopied with hignored
    · obtain ⟨rfl, rfl⟩ := Prod.mk.inj hcopied
      exact ⟨hrefl.counted state.packetCount _, rfl⟩
    · obtain ⟨rfl, rfl⟩ := Prod.mk.inj hcopied
      have hcollected : ∃ middle : PESDemux State,
          state.pids = (middle.collectPayload pkt).pids := by
        unfold feedPacket at hfed
        split_ifs at hfed with hbefore
        · obtain ⟨hreason, hsame⟩ | ⟨middle, hmiddle⟩ := before.processPacket_cases handler pkt
          · rw [hsame] at hfed
            obtain ⟨rfl, rfl⟩ := Prod.mk.inj hfed
            exact absurd hreason hignored
          · have hpids : (before.processPacket handler pkt).1.pids = state.pids :=
              congrArg (fun fed ↦ fed.1.pids) hfed
            rw [hmiddle] at hpids
            exact ⟨middle, hpids.symm⟩
        · obtain ⟨rfl, rfl⟩ := Prod.mk.inj hfed
          exact absurd hfiltered hbefore
      obtain ⟨middle, hpids⟩ := hcollected
      exact ⟨(alike_collectPayload middle state pkt hpids).counted state.packetCount _, rfl⟩
  · rw [if_neg hfiltered] at hcopied
    obtain ⟨rfl, rfl⟩ := Prod.mk.inj hcopied
    exact ⟨hrefl.counted state.packetCount _, rfl⟩

end PESDemux

end TSDuck
