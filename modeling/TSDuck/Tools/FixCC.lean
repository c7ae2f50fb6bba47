import TSDuck.Mpeg.PacketWriter
import Mathlib.Data.Nat.ModEq

/-!
# Correction of continuity counters

The tool reads a file of packets and rewrites the continuity counters of a PID from its first
discontinuity on. With the option `circular` it appends empty packets on each PID, so that the file
can be played repeatedly.

`IsContinuous` is the continuity rule. `isCorrect_iff` states when the tool does what it is for.

Scope. No input or output fails. A file ends at its first packet without synchronization byte, which
is an error. The messages to the user are left out.
-/

namespace TSDuck.FixCC

/-- The options of the command line. -/
structure Options where
  circular : Bool
  test : Bool

/-- The state of a PID. A counter above the largest one is not set. -/
structure PIDState where
  firstCC : UInt8 := 0xFF
  lastCC : UInt8 := 0xFF
  sync : Bool := false

/-- The expected counter, any on the first packet. -/
def goodCC (state : PIDState) (pkt : TSPacket) : UInt8 :=
  if state.firstCC > 0x0F then pkt.getCC
  else if pkt.hasPayload then (state.lastCC + 1) &&& 0x0F
  else state.lastCC

def analyze (state : PIDState) (pkt : TSPacket) : PIDState :=
  if state.firstCC > 0x0F then
    { firstCC := pkt.getCC, lastCC := pkt.getCC, sync := true }
  else
    { state with
      lastCC := goodCC state pkt
      sync := state.sync && pkt.getCC == goodCC state pkt }

def rewrite (test : Bool) (state : PIDState) (pkt : TSPacket) : TSPacket :=
  if !(analyze state pkt).sync && !test then pkt.setCC (goodCC state pkt) else pkt

/-- The main loop: the file and whether there is no error. -/
def process (test : Bool) :
    (ℕ → PIDState) → List TSPacket → List TSPacket × (ℕ → PIDState) × Bool
  | pids, [] => ([], pids, true)
  | pids, pkt :: rest =>
    if pkt.hasValidSync then
      let state := pids pkt.getPID
      let others := process test (Function.update pids pkt.getPID (analyze state pkt)) rest
      (rewrite test state pkt :: others.1, others.2)
    else (pkt :: rest, pids, false)

def emptyPacket : TSPacket :=
  ((nullPacket.setByte 3 0x20).setByte 4 183).setByte 5 0x00

/-- The counters between the last one and the first one, after some steps. -/
def missingCCs (firstCC : UInt8) : ℕ → UInt8 → List UInt8
  | 0, _ => []
  | steps + 1, lastCC =>
    let next := (lastCC + 1) &&& 0x0F
    if firstCC = next then [] else next :: missingCCs firstCC steps next

def extraPackets (state : PIDState) (pid : ℕ) : List TSPacket :=
  if state.firstCC ≤ 0x0F ∧ state.firstCC ≠ (state.lastCC + 1) &&& 0x0F then
    (missingCCs state.firstCC ccMax state.lastCC).map fun cc ↦ (emptyPacket.setPID pid).setCC cc
  else []

def run (opt : Options) (file : List TSPacket) : List TSPacket :=
  let result := process opt.test (fun _ ↦ {}) file
  if opt.circular && result.2.2 && !opt.test then
    result.1 ++ (List.range pidMax).flatMap fun pid ↦ extraPackets (result.2.1 pid) pid
  else result.1

def nextCC (lastCC : UInt8) (pkt : TSPacket) : UInt8 :=
  if pkt.hasPayload then (lastCC + 1) &&& 0x0F else lastCC

/-- The packets of a PID satisfy the rule. -/
def Continuous : Option UInt8 → List TSPacket → Prop
  | _, [] => True
  | none, pkt :: rest => Continuous (some pkt.getCC) rest
  | some lastCC, pkt :: rest =>
    pkt.getCC = nextCC lastCC pkt ∧ Continuous (some pkt.getCC) rest

def packetsOf (pid : ℕ) (file : List TSPacket) : List TSPacket :=
  file.filter fun pkt ↦ pkt.getPID = pid

/-- The packets of each PID satisfy the rule. -/
def IsContinuous (file : List TSPacket) : Prop :=
  ∀ pid, Continuous none (packetsOf pid file)

/-- The result satisfies the rule, a second run does not modify it, and two copies of it satisfy the
rule when the file is to be played repeatedly. -/
def IsCorrect (opt : Options) (file : List TSPacket) : Prop :=
  IsContinuous (run opt file) ∧ run opt (run opt file) = run opt file ∧
    (opt.circular = true → IsContinuous (run opt file ++ run opt file))

/-! ### Packets with another counter -/

theorem next_le (cc : UInt8) : (cc + 1) &&& 0x0F ≤ 0x0F := by
  rw [UInt8.le_iff_toNat_le, TSPacket.next_cc_eq]
  exact Nat.le_of_lt_succ (Nat.mod_lt _ (by decide))

theorem getCC_le (pkt : TSPacket) : pkt.getCC ≤ 0x0F := by
  rw [UInt8.le_iff_toNat_le, TSPacket.getCC, UInt8.toNat_and]
  exact Nat.and_le_right

theorem getCC_setCC (pkt : TSPacket) {cc : UInt8} (hcc : cc ≤ 0x0F) :
    (pkt.setCC cc).getCC = cc := by
  have hlow : cc &&& 0x0F = cc := by
    refine UInt8.toNat.inj ?_
    rw [UInt8.toNat_and]
    refine (Nat.and_two_pow_sub_one_eq_mod _ 4).trans (Nat.mod_eq_of_lt ?_)
    exact Nat.lt_succ_of_le (UInt8.le_iff_toNat_le.mp hcc)
  rw [TSPacket.getCC, TSPacket.setCC, TSPacket.byteAt_setByte_self _ (by decide), TSPacket.and_replaced]
  show (byteAt pkt.bytes 3 &&& 0) ||| (cc &&& 0x0F) = cc
  rw [UInt8.and_zero, UInt8.zero_or, hlow]

@[simp] theorem hasPayload_setCC (pkt : TSPacket) (cc : UInt8) :
    (pkt.setCC cc).hasPayload = pkt.hasPayload := by
  rw [TSPacket.hasPayload, TSPacket.setCC, TSPacket.byteAt_setByte_self _ (by decide), TSPacket.and_replaced]
  show ((byteAt pkt.bytes 3 &&& 0x10) ||| (cc &&& 0) != 0) = pkt.hasPayload
  rw [UInt8.and_zero, UInt8.or_zero]
  rfl

@[simp] theorem getPID_setCC (pkt : TSPacket) (cc : UInt8) : (pkt.setCC cc).getPID = pkt.getPID :=
  congrArg (· &&& 0x1FFF) (getUInt16_congr (TSPacket.byteAt_setByte_of_ne _ (by decide))
    (TSPacket.byteAt_setByte_of_ne _ (by decide)))

@[simp] theorem hasValidSync_setCC (pkt : TSPacket) (cc : UInt8) :
    (pkt.setCC cc).hasValidSync = pkt.hasValidSync :=
  congrArg (· == syncByte) (TSPacket.byteAt_setByte_of_ne _ (by decide))

section Rewrite

variable (test : Bool) (state : PIDState) (pkt : TSPacket)

@[simp] theorem hasPayload_rewrite : (rewrite test state pkt).hasPayload = pkt.hasPayload := by
  rw [rewrite, apply_ite TSPacket.hasPayload, hasPayload_setCC, ite_self]

@[simp] theorem getPID_rewrite : (rewrite test state pkt).getPID = pkt.getPID := by
  rw [rewrite, apply_ite TSPacket.getPID, getPID_setCC, ite_self]

@[simp] theorem hasValidSync_rewrite :
    (rewrite test state pkt).hasValidSync = pkt.hasValidSync := by
  rw [rewrite, apply_ite TSPacket.hasValidSync, hasValidSync_setCC, ite_self]

end Rewrite

/-! ### One PID -/

def processPID (test : Bool) : PIDState → List TSPacket → List TSPacket × PIDState
  | state, [] => ([], state)
  | state, pkt :: rest =>
    let others := processPID test (analyze state pkt) rest
    (rewrite test state pkt :: others.1, others.2)

theorem packetsOf_cons (pid : ℕ) (pkt : TSPacket) (rest : List TSPacket) :
    packetsOf pid (pkt :: rest) =
      if pkt.getPID = pid then pkt :: packetsOf pid rest else packetsOf pid rest := by
  rw [packetsOf, List.filter_cons]
  simp only [decide_eq_true_eq, packetsOf]

theorem packetsOf_append (pid : ℕ) (file others : List TSPacket) :
    packetsOf pid (file ++ others) = packetsOf pid file ++ packetsOf pid others :=
  List.filter_append ..

/-- The main loop processes the packets of each PID apart. -/
theorem process_eq (test : Bool) (pids : ℕ → PIDState) {file : List TSPacket}
    (hfile : ∀ pkt ∈ file, pkt.hasValidSync = true) :
    (process test pids file).2.2 = true ∧ ∀ pid, packetsOf pid (process test pids file).1 =
          (processPID test (pids pid) (packetsOf pid file)).1 ∧
        (process test pids file).2.1 pid = (processPID test (pids pid) (packetsOf pid file)).2 := by
  induction file generalizing pids with
  | nil => exact ⟨rfl, fun _ ↦ ⟨rfl, rfl⟩⟩
  | cons pkt rest ih =>
    have hpkt : pkt.hasValidSync = true := hfile pkt List.mem_cons_self
    obtain ⟨hvalid, hpids⟩ := ih (Function.update pids pkt.getPID (analyze (pids pkt.getPID) pkt))
      (List.forall_mem_cons.mp hfile).2
    rw [process, if_pos hpkt]
    refine ⟨hvalid, fun pid ↦ ?_⟩
    obtain ⟨hpackets, hstate⟩ := hpids pid
    rw [packetsOf_cons, packetsOf_cons, getPID_rewrite, hpackets, hstate]
    by_cases hpid : pkt.getPID = pid
    · subst hpid
      rw [if_pos rfl, if_pos rfl, Function.update_self, processPID]
      exact ⟨rfl, rfl⟩
    · rw [if_neg hpid, if_neg hpid, Function.update_of_ne (Ne.symm hpid)]
      exact ⟨rfl, rfl⟩

/-- The state of a PID after its first packets. -/
structure PIDState.IsSet (state : PIDState) : Prop where
  firstCC_le : state.firstCC ≤ 0x0F
  lastCC_le : state.lastCC ≤ 0x0F

namespace PIDState.IsSet

variable {state : PIDState} (hset : state.IsSet) (pkt : TSPacket)

theorem not_gt (hset : state.IsSet) : ¬state.firstCC > 0x0F :=
  UInt8.not_lt.mpr hset.firstCC_le

theorem goodCC_eq (hset : state.IsSet) (pkt : TSPacket) :
    goodCC state pkt = nextCC state.lastCC pkt := by
  rw [goodCC, if_neg hset.not_gt, nextCC]

theorem goodCC_le (hset : state.IsSet) (pkt : TSPacket) : goodCC state pkt ≤ 0x0F := by
  rw [hset.goodCC_eq, nextCC]
  split_ifs
  · exact next_le _
  · exact hset.lastCC_le

theorem analyze_eq (hset : state.IsSet) (pkt : TSPacket) :
    analyze state pkt = { state with
      lastCC := goodCC state pkt
      sync := state.sync && pkt.getCC == goodCC state pkt } := by
  rw [analyze, if_neg hset.not_gt]

theorem analyze (hset : state.IsSet) (pkt : TSPacket) : (analyze state pkt).IsSet := by
  rw [hset.analyze_eq]
  exact ⟨hset.firstCC_le, hset.goodCC_le pkt⟩

theorem getCC_rewrite (hset : state.IsSet) (pkt : TSPacket) :
    (rewrite false state pkt).getCC = goodCC state pkt := by
  rw [rewrite, hset.analyze_eq]
  cases hsync : state.sync && pkt.getCC == goodCC state pkt with
  | false => exact getCC_setCC pkt (hset.goodCC_le pkt)
  | true =>
    rw [Bool.and_eq_true, beq_iff_eq] at hsync
    exact hsync.2

end PIDState.IsSet

theorem continuous_processPID {state : PIDState} (hset : state.IsSet) (packets : List TSPacket) :
    Continuous (some state.lastCC) (processPID false state packets).1 := by
  induction packets generalizing state with
  | nil => trivial
  | cons pkt rest ih =>
    rw [processPID]
    have hnext := ih (hset.analyze pkt)
    rw [hset.analyze_eq] at hnext ⊢
    refine ⟨?_, ?_⟩
    · rw [hset.getCC_rewrite, hset.goodCC_eq, nextCC, nextCC, hasPayload_rewrite]
    · rwa [hset.getCC_rewrite]

theorem isSet_processPID {state : PIDState} (hset : state.IsSet) (packets : List TSPacket) :
    (processPID false state packets).2.IsSet := by
  induction packets generalizing state with
  | nil => exact hset
  | cons pkt rest ih => exact ih (hset.analyze pkt)

theorem lastCC_processPID {state : PIDState} (hset : state.IsSet) (packets : List TSPacket) :
    (processPID false state packets).2.firstCC = state.firstCC ∧
      (processPID false state packets).2.lastCC.toNat =
        (state.lastCC.toNat + packets.countP TSPacket.hasPayload) % ccMax := by
  induction packets generalizing state with
  | nil =>
    refine ⟨rfl, (Nat.mod_eq_of_lt ?_).symm⟩
    exact Nat.lt_succ_of_le (UInt8.le_iff_toNat_le.mp hset.lastCC_le)
  | cons pkt rest ih =>
    obtain ⟨hfirst, hlast⟩ := ih (hset.analyze pkt)
    have hcounter : (analyze state pkt).lastCC.toNat ≡
        state.lastCC.toNat + (if pkt.hasPayload then 1 else 0) [MOD ccMax] := by
      rw [hset.analyze_eq, hset.goodCC_eq, nextCC]
      split_ifs
      · rw [TSPacket.next_cc_eq]
        exact Nat.mod_modEq _ _
      · rfl
    rw [processPID, hfirst, hlast, hset.analyze_eq, List.countP_cons]
    refine ⟨rfl, ?_⟩
    rw [hset.analyze_eq] at hcounter
    have hsum := hcounter.add_right (rest.countP TSPacket.hasPayload)
    rw [Nat.add_assoc, Nat.add_comm (if pkt.hasPayload then 1 else 0)] at hsum
    exact hsum

/-- The last counter of packets, or the one before them. -/
def endCC : Option UInt8 → List TSPacket → Option UInt8
  | lastCC, [] => lastCC
  | _, pkt :: rest => endCC (some pkt.getCC) rest

theorem continuous_append (lastCC : Option UInt8) (packets others : List TSPacket) :
    Continuous lastCC (packets ++ others) ↔
      Continuous lastCC packets ∧ Continuous (endCC lastCC packets) others := by
  induction packets generalizing lastCC with
  | nil => exact (and_iff_right trivial).symm
  | cons pkt rest ih =>
    cases lastCC with
    | none => exact ih _
    | some cc =>
      show _ ∧ Continuous _ (rest ++ others) ↔ (_ ∧ _) ∧ _
      rw [ih, and_assoc]
      rfl

theorem endCC_processPID {state : PIDState} (hset : state.IsSet) (packets : List TSPacket) :
    endCC (some state.lastCC) (processPID false state packets).1 =
      some (processPID false state packets).2.lastCC := by
  induction packets generalizing state with
  | nil => rfl
  | cons pkt rest ih =>
    rw [processPID, endCC, ← ih (hset.analyze pkt), hset.getCC_rewrite, hset.analyze_eq]

def firstState (pkt : TSPacket) : PIDState :=
  { firstCC := pkt.getCC, lastCC := pkt.getCC, sync := true }

theorem isSet_firstState (pkt : TSPacket) : (firstState pkt).IsSet :=
  ⟨getCC_le pkt, getCC_le pkt⟩

theorem processPID_first (test : Bool) (first : TSPacket) (rest : List TSPacket) :
    processPID test {} (first :: rest) = (first :: (processPID test (firstState first) rest).1,
        (processPID test (firstState first) rest).2) :=
  rfl

theorem continuous_processPID_new (packets : List TSPacket) :
    Continuous none (processPID false {} packets).1 := by
  cases packets with
  | nil => trivial
  | cons first rest =>
    rw [processPID_first]
    exact continuous_processPID (isSet_firstState first) rest

theorem isContinuous_process {file : List TSPacket}
    (hfile : ∀ pkt ∈ file, pkt.hasValidSync = true) :
    IsContinuous (process false (fun _ ↦ {}) file).1 := by
  intro pid
  rw [((process_eq false _ hfile).2 pid).1]
  exact continuous_processPID_new _

theorem countP_processPID (test : Bool) (state : PIDState) (packets : List TSPacket) :
    (processPID test state packets).1.countP TSPacket.hasPayload =
      packets.countP TSPacket.hasPayload := by
  induction packets generalizing state with
  | nil => rfl
  | cons pkt rest ih =>
    rw [processPID, List.countP_cons, ih, hasPayload_rewrite, List.countP_cons]

/-! ### A second run -/

/-- What remains of a synchronized PID. -/
def Expects (state : PIDState) (packets : List TSPacket) : Prop :=
  if state.firstCC > 0x0F then Continuous none packets
  else state.IsSet ∧ state.sync = true ∧ Continuous (some state.lastCC) packets

theorem Expects.cons {state : PIDState} {pkt : TSPacket} {rest : List TSPacket}
    (hexpects : Expects state (pkt :: rest)) (test : Bool) :
    rewrite test state pkt = pkt ∧ Expects (analyze state pkt) rest := by
  rw [Expects] at hexpects
  split_ifs at hexpects with hnew
  · have hstate : analyze state pkt = firstState pkt := if_pos hnew
    refine ⟨by rw [rewrite, hstate]; rfl, ?_⟩
    rw [hstate, Expects, if_neg (isSet_firstState pkt).not_gt]
    exact ⟨isSet_firstState pkt, rfl, hexpects⟩
  · obtain ⟨hset, hsync, hpkt, hrest⟩ := hexpects
    rw [← hset.goodCC_eq] at hpkt
    have hstill : (analyze state pkt).sync = true := by
      rw [hset.analyze_eq, hsync, Bool.true_and, beq_iff_eq]
      exact hpkt
    have hlast : (analyze state pkt).lastCC = pkt.getCC := by
      rw [hset.analyze_eq, hpkt]
    refine ⟨by rw [rewrite, hstill]; rfl, ?_⟩
    rw [Expects, if_neg (hset.analyze pkt).not_gt, hlast]
    exact ⟨hset.analyze pkt, hstill, hrest⟩

theorem process_of_expects (test : Bool) {pids : ℕ → PIDState} {file : List TSPacket}
    (hexpects : ∀ pid, Expects (pids pid) (packetsOf pid file)) :
    (process test pids file).1 = file := by
  induction file generalizing pids with
  | nil => rfl
  | cons pkt rest ih =>
    rw [process]
    split_ifs with hpkt
    · have hself := hexpects pkt.getPID
      rw [packetsOf_cons, if_pos rfl] at hself
      obtain ⟨hsame, hnext⟩ := hself.cons test
      dsimp only
      rw [hsame, ih]
      intro pid
      by_cases hpid : pkt.getPID = pid
      · subst hpid
        rwa [Function.update_self]
      · rw [Function.update_of_ne (Ne.symm hpid)]
        have hother := hexpects pid
        rwa [packetsOf_cons, if_neg hpid] at hother
    · rfl

theorem process_of_isContinuous (test : Bool) {file : List TSPacket}
    (hcontinuous : IsContinuous file) : (process test (fun _ ↦ {}) file).1 = file :=
  process_of_expects test hcontinuous

/-! ### The end of the file -/

theorem extraPackets_eq_cons {state : PIDState} {pid : ℕ} (hextra : extraPackets state pid ≠ []) :
    ∃ rest, extraPackets state pid =
      (emptyPacket.setPID pid).setCC ((state.lastCC + 1) &&& 0x0F) :: rest := by
  rw [extraPackets] at hextra ⊢
  split_ifs at hextra ⊢ with hmissing
  · rw [show ccMax = 15 + 1 from rfl, missingCCs, if_neg hmissing.2]
    exact ⟨_, rfl⟩
  · exact absurd rfl hextra

theorem extraPackets_eq_nil_iff {state : PIDState} (hset : state.IsSet) (pid : ℕ) :
    extraPackets state pid = [] ↔ state.firstCC = (state.lastCC + 1) &&& 0x0F := by
  constructor
  · intro hextra
    by_contra hne
    rw [extraPackets, if_pos ⟨hset.firstCC_le, hne⟩, show ccMax = 15 + 1 from rfl, missingCCs,
      if_neg hne] at hextra
    cases hextra
  · intro heq
    rw [extraPackets, if_neg fun hmissing ↦ hmissing.2 heq]

theorem extraPackets_processPID (first : TSPacket) (rest : List TSPacket) (pid : ℕ) :
    extraPackets (processPID false {} (first :: rest)).2 pid = [] ↔
      ccMax ∣ rest.countP TSPacket.hasPayload + 1 := by
  have hset := isSet_processPID (isSet_firstState first) rest
  obtain ⟨hfirst, hlast⟩ := lastCC_processPID (isSet_firstState first) rest
  have hcounter : (firstState first).lastCC.toNat < ccMax :=
    Nat.lt_succ_of_le (UInt8.le_iff_toNat_le.mp (isSet_firstState first).lastCC_le)
  rw [processPID_first, extraPackets_eq_nil_iff hset, hfirst, ← UInt8.toNat_inj,
    TSPacket.next_cc_eq, hlast]
  show (firstState first).lastCC.toNat = _ ↔ _
  unfold ccMax at hcounter ⊢
  omega

theorem extra_facts {pid : ℕ} (hpid : pid < pidMax) (cc : UInt8) :
    ((emptyPacket.setPID pid).setCC cc).getPID = pid ∧
      ((emptyPacket.setPID pid).setCC cc).hasPayload = false := by
  unfold pidMax at hpid
  rw [getPID_setCC, hasPayload_setCC]
  refine ⟨?_, ?_⟩
  · have hhigh : pid / 256 < 32 := by omega
    have hone : byteAt (emptyPacket.setPID pid).bytes 1 = UInt8.ofNat (pid / 256) &&& 0x1F := by
      rw [TSPacket.setPID, TSPacket.byteAt_setByte_of_ne _ (by decide),
        TSPacket.byteAt_setByte_self _ (by decide)]
      exact UInt8.zero_or
    have htwo : byteAt (emptyPacket.setPID pid).bytes 2 = UInt8.ofNat pid := by
      rw [TSPacket.setPID, TSPacket.byteAt_setByte_self _ (by decide)]
    have hlow : (UInt8.ofNat (pid / 256) &&& 0x1F).toNat = pid / 256 := by
      rw [UInt8.toNat_and, UInt8.toNat_ofNat']
      refine (Nat.and_two_pow_sub_one_eq_mod _ 5).trans ?_
      omega
    have hvalue : getUInt16 (emptyPacket.setPID pid).bytes 1 = pid := by
      rw [getUInt16, hone, htwo, hlow, UInt8.toNat_ofNat']
      omega
    rw [TSPacket.getPID, hvalue]
    exact (Nat.and_two_pow_sub_one_eq_mod _ 13).trans (Nat.mod_eq_of_lt hpid)
  · rw [TSPacket.hasPayload, TSPacket.setPID, TSPacket.byteAt_setByte_of_ne _ (by decide),
      TSPacket.byteAt_setByte_of_ne _ (by decide)]
    rfl

theorem packetsOf_extraPackets (state : PIDState) {pid : ℕ} (hpid : pid < pidMax) (other : ℕ) :
    packetsOf other (extraPackets state pid) = if pid = other then extraPackets state pid else [] := by
  have hall : ∀ pkt ∈ extraPackets state pid, pkt.getPID = pid := by
    intro pkt hmem
    rw [extraPackets] at hmem
    split_ifs at hmem
    · obtain ⟨cc, -, rfl⟩ := List.mem_map.mp hmem
      exact (extra_facts hpid cc).1
    · cases hmem
  split_ifs with hother
  · rw [packetsOf, List.filter_eq_self]
    exact fun pkt hmem ↦ decide_eq_true ((hall pkt hmem).trans hother)
  · rw [packetsOf, List.filter_eq_nil_iff]
    intro pkt hmem hpkt
    exact hother ((hall pkt hmem).symm.trans (of_decide_eq_true hpkt))

theorem packetsOf_flatMap (states : ℕ → PIDState) {count : ℕ} (hcount : count ≤ pidMax) (other : ℕ) :
    packetsOf other ((List.range count).flatMap fun pid ↦ extraPackets (states pid) pid) =
      if other < count then extraPackets (states other) other else [] := by
  induction count with
  | zero => rfl
  | succ count ih =>
    rw [List.range_succ, List.flatMap_append, packetsOf_append, ih (Nat.le_of_succ_le hcount),
      List.flatMap_singleton, packetsOf_extraPackets _ hcount]
    rcases lt_trichotomy other count with hlt | rfl | hgt
    · rw [if_pos hlt, if_neg hlt.ne', List.append_nil, if_pos (Nat.lt_succ_of_lt hlt)]
    · rw [if_neg (lt_irrefl _), if_pos rfl, List.nil_append, if_pos (Nat.lt_succ_self _)]
    · rw [if_neg hgt.not_gt, if_neg hgt.ne, List.append_nil, if_neg (by omega)]

theorem lt_of_packetsOf_eq_cons {pid : ℕ} {file : List TSPacket} {first : TSPacket}
    {rest : List TSPacket} (hpackets : packetsOf pid file = first :: rest) : pid < pidMax := by
  have hmem : first ∈ packetsOf pid file := hpackets ▸ List.mem_cons_self
  rw [packetsOf, List.mem_filter, decide_eq_true_eq] at hmem
  exact hmem.2 ▸ first.getPID_lt

theorem packetsOf_run {opt : Options} (hcircular : opt.circular = true) (htest : opt.test = false)
    {file : List TSPacket} (hfile : ∀ pkt ∈ file, pkt.hasValidSync = true) {pid : ℕ}
    {first : TSPacket} {rest : List TSPacket} (hpackets : packetsOf pid file = first :: rest) :
    packetsOf pid (run opt file) = (processPID false {} (first :: rest)).1 ++
      extraPackets (processPID false {} (first :: rest)).2 pid := by
  obtain ⟨hvalid, hpids⟩ := process_eq false (fun _ ↦ {}) hfile
  have hpid := lt_of_packetsOf_eq_cons hpackets
  rw [run, hcircular, htest, hvalid]
  show packetsOf pid (_ ++ List.flatMap _ _) = _
  rw [packetsOf_append, packetsOf_flatMap _ le_rfl, if_pos hpid, (hpids pid).1, (hpids pid).2,
    hpackets]

/-! ### The circular case -/

/-- A payload first, and complete turns of the counter. -/
def IsCycle (packets : List TSPacket) : Prop :=
  ∀ first rest, packets = first :: rest →
    first.hasPayload = true ∧ ccMax ∣ packets.countP TSPacket.hasPayload

theorem isCycle_cons_iff (first : TSPacket) (rest : List TSPacket) :
    IsCycle (first :: rest) ↔
      first.hasPayload = true ∧ ccMax ∣ rest.countP TSPacket.hasPayload + 1 := by
  constructor
  · intro hcycle
    obtain ⟨hpayload, hdvd⟩ := hcycle first rest rfl
    rw [List.countP_cons_of_pos hpayload] at hdvd
    exact ⟨hpayload, hdvd⟩
  · rintro ⟨hpayload, hdvd⟩ other others heq
    obtain ⟨rfl, rfl⟩ := List.cons.inj heq
    rw [List.countP_cons_of_pos hpayload]
    exact ⟨hpayload, hdvd⟩

theorem not_continuous_extraPackets {state : PIDState} (hset : state.IsSet) {pid : ℕ}
    (hpid : pid < pidMax) (hextra : extraPackets state pid ≠ []) (others : List TSPacket) :
    ¬ Continuous (some state.lastCC) (extraPackets state pid ++ others) := by
  obtain ⟨rest, hrest⟩ := extraPackets_eq_cons hextra
  rw [hrest]
  rintro ⟨hcounter, -⟩
  rw [getCC_setCC _ (next_le _), nextCC, (extra_facts hpid _).2, if_neg Bool.false_ne_true,
    ← UInt8.toNat_inj, TSPacket.next_cc_eq] at hcounter
  have hlast := UInt8.le_iff_toNat_le.mp hset.lastCC_le
  have hbound : (0x0F : UInt8).toNat = 15 := rfl
  rw [hbound] at hlast
  unfold ccMax at hcounter
  omega

/-- The packets of a PID in two copies of the result. -/
theorem continuous_twice_iff {pid : ℕ} (hpid : pid < pidMax) (first : TSPacket)
    (rest : List TSPacket) :
    Continuous none
        (((processPID false {} (first :: rest)).1 ++
            extraPackets (processPID false {} (first :: rest)).2 pid) ++
          ((processPID false {} (first :: rest)).1 ++
            extraPackets (processPID false {} (first :: rest)).2 pid)) ↔
      IsCycle (first :: rest) := by
  have hset := isSet_processPID (isSet_firstState first) rest
  have hend : endCC none (processPID false {} (first :: rest)).1 =
      some (processPID false {} (first :: rest)).2.lastCC := by
    rw [processPID_first]
    exact endCC_processPID (isSet_firstState first) rest
  rw [isCycle_cons_iff, ← extraPackets_processPID first rest pid, List.append_assoc,
    continuous_append, hend, and_iff_right (continuous_processPID_new _)]
  by_cases hextra : extraPackets (processPID false {} (first :: rest)).2 pid = []
  · have hnext := (extraPackets_eq_nil_iff hset pid).mp hextra
    rw [hextra, List.nil_append, List.append_nil, and_iff_left rfl]
    rw [(lastCC_processPID (isSet_firstState first) rest).1] at hnext
    have hrest : Continuous (some first.getCC) (processPID false (firstState first) rest).1 :=
      continuous_processPID (isSet_firstState first) rest
    rw [processPID_first]
    show (first.getCC = nextCC _ first ∧ _) ↔ _
    rw [and_iff_left hrest, nextCC]
    cases hpayload : first.hasPayload with
    | true => exact iff_of_true hnext rfl
    | false =>
      refine iff_of_false (fun hsame ↦ ?_) Bool.false_ne_true
      have hboth : first.getCC = (first.getCC + 1) &&& 0x0F := by
        rw [if_neg Bool.false_ne_true] at hsame
        rw [← hsame] at hnext
        exact hnext
      have hcounter := congrArg UInt8.toNat hboth
      have hle := UInt8.le_iff_toNat_le.mp (getCC_le first)
      have hbound : (0x0F : UInt8).toNat = 15 := rfl
      rw [TSPacket.next_cc_eq] at hcounter
      rw [hbound] at hle
      unfold ccMax at hcounter
      omega
  · refine iff_of_false (fun htwice ↦ ?_) fun hcycle ↦ hextra hcycle.2
    exact not_continuous_extraPackets hset hpid hextra _ htwice

theorem run_of_isCycle {opt : Options} (htest : opt.test = false) {file : List TSPacket}
    (hfile : ∀ pkt ∈ file, pkt.hasValidSync = true)
    (hcycle : opt.circular = true → ∀ pid, IsCycle (packetsOf pid file)) :
    run opt file = (process false (fun _ ↦ {}) file).1 := by
  cases hcircular : opt.circular with
  | false =>
    rw [run, hcircular, htest]
    rfl
  | true =>
    obtain ⟨hvalid, hpids⟩ := process_eq false (fun _ ↦ {}) hfile
    have hnone : ((List.range pidMax).flatMap fun pid ↦
        extraPackets ((process false (fun _ ↦ {}) file).2.1 pid) pid) = [] := by
      refine List.flatMap_eq_nil_iff.mpr fun pid _ ↦ ?_
      rw [(hpids pid).2]
      cases hpackets : packetsOf pid file with
      | nil => rfl
      | cons first rest =>
        rw [extraPackets_processPID]
        exact ((isCycle_cons_iff first rest).mp (hpackets ▸ hcycle hcircular pid)).2
    rw [run, hcircular, htest, hvalid]
    show _ ++ List.flatMap _ _ = _
    rw [hnone, List.append_nil]

theorem hasValidSync_process {test : Bool} {pids : ℕ → PIDState} {file : List TSPacket}
    (hfile : ∀ pkt ∈ file, pkt.hasValidSync = true) :
    ∀ pkt ∈ (process test pids file).1, pkt.hasValidSync = true := by
  induction file generalizing pids with
  | nil => exact hfile
  | cons first rest ih =>
    have hfirst : first.hasValidSync = true := hfile first List.mem_cons_self
    rw [process, if_pos hfirst]
    intro pkt hmem
    rcases List.mem_cons.mp hmem with rfl | hrest
    · rwa [hasValidSync_rewrite]
    · exact ih (List.forall_mem_cons.mp hfile).2 pkt hrest

theorem IsCycle.processPID {packets : List TSPacket} (hcycle : IsCycle packets) :
    IsCycle (processPID false {} packets).1 := by
  cases packets with
  | nil => nofun
  | cons first rest =>
    rw [processPID_first, isCycle_cons_iff, countP_processPID]
    exact (isCycle_cons_iff first rest).mp hcycle

/-- Assumes: a valid file, which may be modified. It is right unless the file is to be played
repeatedly and, for some PID, the first packet has no payload or those with one are not complete
turns of the counter. -/
theorem isCorrect_iff {opt : Options} (htest : opt.test = false) {file : List TSPacket}
    (hfile : ∀ pkt ∈ file, pkt.hasValidSync = true) :
    IsCorrect opt file ↔ (opt.circular = true → ∀ pid, IsCycle (packetsOf pid file)) := by
  constructor
  · rintro ⟨-, -, htwice⟩ hcircular pid
    cases hpackets : packetsOf pid file with
    | nil => nofun
    | cons first rest =>
      have hpid := lt_of_packetsOf_eq_cons hpackets
      have hpid_twice := htwice hcircular pid
      rw [packetsOf_append, packetsOf_run hcircular htest hfile hpackets] at hpid_twice
      exact (continuous_twice_iff hpid first rest).mp hpid_twice
  · intro hcycle
    have hrun := run_of_isCycle htest hfile hcycle
    have hcontinuous := isContinuous_process hfile
    have hvalid := @hasValidSync_process false (fun _ ↦ {}) file hfile
    have hpids := (process_eq false (fun _ ↦ {}) hfile).2
    have hagain : opt.circular = true →
        ∀ pid, IsCycle (packetsOf pid (process false (fun _ ↦ {}) file).1) := by
      intro hcircular pid
      rw [(hpids pid).1]
      exact (hcycle hcircular pid).processPID
    refine ⟨by rwa [hrun], ?_, fun hcircular pid ↦ ?_⟩
    · rw [hrun, run_of_isCycle htest hvalid hagain, process_of_isContinuous false hcontinuous]
    · rw [packetsOf_append]
      cases hpackets : packetsOf pid file with
      | nil =>
        rw [hrun, (hpids pid).1, hpackets]
        trivial
      | cons first rest =>
        have hpid := lt_of_packetsOf_eq_cons hpackets
        rw [packetsOf_run hcircular htest hfile hpackets]
        exact (continuous_twice_iff hpid first rest).mpr (hpackets ▸ hcycle hcircular pid)

/-- A complete turn of the counter of one PID. -/
theorem isCorrect_of_one_turn :
    IsCorrect { circular := true, test := false } (List.replicate 16 nullPacket) := by
  refine (isCorrect_iff rfl ?_).mpr fun _ pid ↦ ?_
  · intro pkt hmem
    rw [List.eq_of_mem_replicate hmem]
    rfl
  · by_cases hpid : nullPacket.getPID = pid
    · rw [packetsOf, List.filter_replicate, if_pos (decide_eq_true hpid)]
      exact (isCycle_cons_iff nullPacket (List.replicate 15 nullPacket)).mpr ⟨rfl, by decide⟩
    · rw [packetsOf, List.filter_replicate, if_neg fun heq ↦ hpid (of_decide_eq_true heq)]
      nofun

/-- Fifteen empty packets do not repeat the only counter. -/
theorem not_isCorrect_of_one_packet :
    ¬ IsCorrect { circular := true, test := false } [nullPacket] := by
  rintro ⟨-, -, htwice⟩
  have hpackets : packetsOf nullPacket.getPID [nullPacket] = nullPacket :: [] := by
    rw [packetsOf_cons, if_pos rfl]
    rfl
  have hfile : ∀ pkt ∈ [nullPacket], pkt.hasValidSync = true := by
    intro pkt hmem
    rw [List.mem_singleton.mp hmem]
    rfl
  generalize hfirst : nullPacket.getPID = pid at hpackets
  have hpid := htwice rfl pid
  rw [packetsOf_append, packetsOf_run rfl rfl hfile hpackets,
    continuous_twice_iff (lt_of_packetsOf_eq_cons hpackets), isCycle_cons_iff] at hpid
  have hturn : ccMax ∣ 1 := hpid.2
  revert hturn
  decide

end TSDuck.FixCC
