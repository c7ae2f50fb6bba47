import TSDuck.Library.Machine
import TSDuck.Mpeg.PCRAnalyzer
import TSDuck.Mpeg.PacketWriter

/-!
# Merging two transport streams

The plugin replaces the null packets of a main stream by the packets of another one. The packets of
the merged stream are filtered by PID: `--drop` and `--pass` give the PIDs as `pid[-pid]`, over a
default set without the PIDs `0x00` to `0x1F`.

`isMerge_iff` states which runs filter the packets as the options say.

Scope. The tables which are merged in the PAT, the CAT and the SDT are a parameter, and so is what
replaces the packets of these PIDs. The merged packets go through a queue between two threads:
whether one of them is available is a part of each input.
-/

namespace TSDuck

namespace Merge

/-! ### Options -/

def pidPAT : ℕ := 0x00

def pidCAT : ℕ := 0x01

def pidSDT : ℕ := 0x11

def pidDVBLast : ℕ := 0x1F

/-- The value of an option `--drop` or `--pass`. -/
inductive PIDRange
  | single (pid : ℕ)
  | range (first last : ℕ)

structure Options where
  drop : List PIDRange
  pass : List PIDRange
  transparent : Bool
  ignoreConflicts : Bool
  noPcrRestamp : Bool
  noPsiMerge : Bool

def PIDSet : Type := ℕ → Bool

def PIDSet.set (pids : PIDSet) (pid : ℕ) (value : Bool) : PIDSet :=
  fun other ↦ if other = pid then value else pids other

def PIDSet.setRange (pids : PIDSet) (value : Bool) (pid : ℕ) : ℕ → PIDSet
  | 0 => pids
  | count + 1 => (pids.set pid value).setRange value (pid + 1) count

/-- The number of scanned values, and the two variables. -/
def PIDRange.scan (pid2 : ℕ) : PIDRange → ℕ × ℕ × ℕ
  | single pid => (1, pid, pid2)
  | range first last => (2, first, last)

/-- Adds or removes the PIDs of an option. -/
def processOption (allowed : Bool) (result : PIDSet × Bool) (option : PIDRange) : PIDSet × Bool :=
  let (num, pid1, pid2) := option.scan pidNull
  if pidMax ≤ pid1 ∨ pidMax ≤ pid2 ∨ (num = 2 ∧ pid2 < pid1) then (result.1, false)
  -- The loop runs while `pid1` is not after `pid2`.
  else (result.1.setRange allowed pid1 (pid2 + 1 - pid1), result.2)

def processDropPassOption (options : List PIDRange) (allowed : Bool) (pids : PIDSet) :
    PIDSet × Bool :=
  options.foldl (processOption allowed) (pids, true)

structure Plugin where
  mergePsi : Bool
  pcrRestamp : Bool
  ignoreConflicts : Bool
  allowedPids : PIDSet

def start (options : Options) : Option Plugin :=
  let allPids : PIDSet := fun _ ↦ true
  let pids := if options.transparent then allPids else allPids.setRange false 0x00 (pidDVBLast + 1)
  let dropped := processDropPassOption options.drop false pids
  let passed := processDropPassOption options.pass true dropped.1
  if dropped.2 && passed.2 then
    some {
      mergePsi := !options.transparent && !options.noPsiMerge
      pcrRestamp := !options.noPcrRestamp
      ignoreConflicts := options.transparent || options.ignoreConflicts
      allowedPids := passed.1 }
  else none

/-! ### Packets -/

/-- The last PCR of a PID, and the index of its packet. -/
structure PIDContext where
  lastPcr : ℕ
  pcrPkt : ℕ

/-- The demultiplexers and the packetizers of the tables which are merged. -/
structure PsiMerger (Psi : Type) where
  feedMain : Psi → TSPacket → Psi
  feedMerge : Psi → TSPacket → Psi
  nextPacket : Psi → TSPacket → Psi × TSPacket

/-- A conflict which is reported to the user. -/
inductive Conflict
  | afterMerge (pid : ℕ)
  | dropping (pid : ℕ)

structure State (Psi : Type) where
  merged : List TSPacket
  mainPids : PIDSet
  mergePids : PIDSet
  pcrPids : ℕ → Option PIDContext
  pktCount : ℕ
  psi : Psi
  conflicts : List Conflict

def State.initial {Psi : Type} (psi : Psi) (merged : List TSPacket) : State Psi where
  merged := merged
  mainPids := fun _ ↦ false
  mergePids := fun _ ↦ false
  pcrPids := fun _ ↦ none
  pktCount := 0
  psi := psi
  conflicts := []

/-- A main packet, with the merged packet available then. -/
structure Input where
  packet : TSPacket
  available : Bool
  bitrate : ℕ

/-- What is done with a packet. -/
inductive Status
  | ok
  | null
  deriving DecidableEq

section Packets

variable {Psi : Type} (plugin : Plugin) (merger : PsiMerger Psi) (state : State Psi) (input : Input)

/-- The clock at a packet, from the last one. -/
def PIDContext.next (context : PIDContext) (pktCount bitrate : ℕ) : ℕ :=
  (context.lastPcr + (pktCount - context.pcrPkt) * 8 * pktSize * systemClockFreq % 2 ^ 64 / bitrate) %
    2 ^ 64

/-- Adjusts a PCR, `none` when it has no room. -/
def restamp (bitrate : ℕ) (pkt : TSPacket) : Option (State Psi × TSPacket) :=
  let setContext (context : PIDContext) : State Psi :=
    { state with
      pcrPids := fun pid ↦ if pid = pkt.getPID then some context else state.pcrPids pid }
  if plugin.pcrRestamp && pkt.hasPCR then
    match state.pcrPids pkt.getPID with
    | none => some (setContext ⟨pkt.getPCR, state.pktCount⟩, pkt)
    | some context =>
      if 0 < bitrate then
        let lastPcr := context.next state.pktCount bitrate
        (pkt.setPCR lastPcr).map fun sent ↦ (setContext ⟨lastPcr, state.pktCount⟩, sent)
      else some (state, pkt)
  else some (state, pkt)

def seeMain (pid : ℕ) : State Psi :=
  if !plugin.ignoreConflicts && pid != pidNull && !state.mainPids pid then
    { state with
      mainPids := state.mainPids.set pid true
      conflicts :=
        if state.mergePids pid then state.conflicts ++ [.afterMerge pid] else state.conflicts }
  else state

def seeMerge (pid : ℕ) : State Psi :=
  if !plugin.ignoreConflicts && pid != pidNull && !state.mergePids pid then
    { state with
      mergePids := state.mergePids.set pid true
      conflicts :=
        if state.mainPids pid then state.conflicts ++ [.dropping pid] else state.conflicts }
  else state

def filterMergePacket (bitrate : ℕ) (pkt : TSPacket) : Option (State Psi × Status × TSPacket) :=
  let pid := pkt.getPID
  if !plugin.allowedPids pid then some (state, .null, pkt)
  else
    let state := seeMerge plugin state pid
    if !plugin.ignoreConflicts && pid != pidNull && state.mainPids pid then some (state, .null, pkt)
    else (restamp plugin state bitrate pkt).map fun result ↦ (result.1, .ok, result.2)

/-- Replaces a null packet by a merged one. -/
def processMergePacket : Option (State Psi × Status × TSPacket) :=
  match state.merged, input.available with
  | pkt :: rest, true =>
    let psi := if plugin.mergePsi then merger.feedMerge state.psi pkt else state.psi
    filterMergePacket plugin { state with merged := rest, psi := psi } input.bitrate pkt
  | _, _ => some (state, .ok, input.packet)

def dispatch : Option (State Psi × Status × TSPacket) :=
  let pid := input.packet.getPID
  if pid = pidPAT ∨ pid = pidCAT ∨ pid = pidSDT then
    let result := merger.nextPacket state.psi input.packet
    some ({ state with psi := result.1 }, .ok, result.2)
  else if pid = pidNull then processMergePacket plugin merger state input
  else some (state, .ok, input.packet)

def processPacket : Option (State Psi × Status × TSPacket) :=
  let psi := if plugin.mergePsi then merger.feedMain state.psi input.packet else state.psi
  let state := seeMain plugin { state with psi := psi } input.packet.getPID
  (dispatch plugin merger state input).map fun result ↦
    ({ result.1 with pktCount := result.1.pktCount + 1 }, result.2)

def machine : Machine (State Psi) Input (Status × TSPacket) where
  step state input :=
    (processPacket plugin merger state input).map fun result ↦ (result.1, [result.2])

end Packets

/-! ### What the options say -/

/-- The PIDs of an option. -/
def PIDRange.Contains (pid : ℕ) : PIDRange → Prop
  | single first => pid = first
  | range first last => first ≤ pid ∧ pid ≤ last

/-- The option has valid PIDs. -/
def PIDRange.IsAccepted : PIDRange → Prop
  | single pid => pid < pidMax
  | range first last => first ≤ last ∧ last < pidMax

/-- The PIDs after the one of an option with a single PID. -/
def PIDRange.IsAfter (pid : ℕ) : PIDRange → Prop
  | single first => first < pid
  | range _ _ => False

namespace Options

variable (options : Options)

/-- The PID is in the default set and in no `--drop`. -/
def IsKept (pid : ℕ) : Prop :=
  (options.transparent = true ∨ pidDVBLast < pid) ∧ ∀ range ∈ options.drop, ¬range.Contains pid

/-- The PIDs which are merged. -/
def IsPassed (pid : ℕ) : Prop :=
  options.IsKept pid ∨ ∃ range ∈ options.pass, range.Contains pid

/-- The PID is the one of a packet of the main stream. -/
def IsSeen (seen : List TSPacket) (pid : ℕ) : Prop :=
  pid ≠ pidNull ∧ ∃ pkt ∈ seen, pkt.getPID = pid

/-- A packet replaces a null packet of the main stream. -/
def IsMerged (seen : List TSPacket) (pid : ℕ) : Prop :=
  options.IsPassed pid ∧
    (options.transparent = true ∨ options.ignoreConflicts = true ∨ ¬IsSeen seen pid)

/-- The packet as it is, or with another PCR. -/
def IsCopy (pkt sent : TSPacket) : Prop :=
  sent = pkt ∨ (options.noPcrRestamp = false ∧ pkt.hasPCR = true ∧
    ∃ pcr, pkt.setPCR pcr = some sent)

end Options

def Input.taken (input : Input) (merged : List TSPacket) : Option TSPacket :=
  if input.packet.getPID = pidNull ∧ input.available = true then merged.head? else none

def Input.following (input : Input) (merged : List TSPacket) : List TSPacket :=
  if input.packet.getPID = pidNull ∧ input.available = true then merged.tail else merged

namespace Options

variable (options : Options)

/-- A null packet is replaced by the next merged packet. -/
def IsSent (seen merged : List TSPacket) (input : Input) (output : Status × TSPacket) : Prop :=
  let pid := input.packet.getPID
  match input.taken merged with
  | some pkt =>
    (output.1 = .ok ↔ options.IsMerged seen pkt.getPID) ∧
      (output.1 = .ok → options.IsCopy pkt output.2)
  | none => pid ≠ pidPAT → pid ≠ pidCAT → pid ≠ pidSDT → output = (.ok, input.packet)

/-- What is sent for the packets of the main stream. -/
def IsMerge : List TSPacket → List TSPacket → List Input → List (Status × TSPacket) → Prop
  | _, _, [], [] => True
  | seen, merged, input :: inputs, output :: outputs =>
    options.IsSent seen merged input output ∧
      IsMerge (input.packet :: seen) (input.following merged) inputs outputs
  | _, _, _, _ => False

/-- The PID is in a range of `--pass`; or it is dropped, and after no single PID of `--pass`; or it
is not dropped, and after no single PID of `--drop` or after one of `--pass` too. -/
def IsFiltered (pid : ℕ) : Prop :=
  (∃ range ∈ options.pass, range.Contains pid) ∨
    ((∃ range ∈ options.pass, range.IsAfter pid) → options.IsKept pid) ∧
      (options.IsKept pid → (∃ range ∈ options.drop, range.IsAfter pid) →
        ∃ range ∈ options.pass, range.IsAfter pid)

/-- The PID of a merged packet is in conflict with the main stream. -/
def IsConflict {Psi : Type} (state : State Psi) (pid : ℕ) : Prop :=
  options.transparent = false ∧ options.ignoreConflicts = false ∧ pid ≠ pidNull ∧
    state.mainPids pid = true

/-- There is room for a PCR which must be restamped. -/
def HasRoom {Psi : Type} (state : State Psi) (bitrate : ℕ) (pkt : TSPacket) : Prop :=
  options.noPcrRestamp = false → pkt.hasPCR = true → state.pcrPids pkt.getPID ≠ none →
    0 < bitrate → pkt.pcrOffset ≠ 0

/-- The merged packet is filtered as the options say. -/
def IsSafe {Psi : Type} (state : State Psi) (input : Input) : Prop :=
  ∀ pkt ∈ input.taken state.merged,
    options.IsConflict state pkt.getPID ∨ options.IsFiltered pkt.getPID ∧
      (options.IsPassed pkt.getPID → options.HasRoom state input.bitrate pkt)

end Options

/-! ### The set of PIDs -/

section Pids

variable {pids : PIDSet} {pid : ℕ} {ranges : List PIDRange}

theorem setRange_apply (pids : PIDSet) (value : Bool) (first count pid : ℕ) :
    pids.setRange value first count pid =
      if first ≤ pid ∧ pid < first + count then value else pids pid := by
  induction count generalizing pids first with
  | zero => rw [PIDSet.setRange, if_neg (by omega)]
  | succ count ih =>
    rw [PIDSet.setRange, ih, PIDSet.set]
    split_ifs <;> first | rfl | omega

/-- A single PID is understood with those after it. -/
theorem processOption_spec (allowed : Bool) (result : PIDSet × Bool) {range : PIDRange}
    (haccepted : range.IsAccepted) :
    (processOption allowed result range).2 = result.2 ∧ ∀ pid < pidMax,
      (range.Contains pid ∨ range.IsAfter pid →
        (processOption allowed result range).1 pid = allowed) ∧
      (¬(range.Contains pid ∨ range.IsAfter pid) →
        (processOption allowed result range).1 pid = result.1 pid) := by
  have hmax : pidMax = pidNull + 1 := rfl
  cases range with
  | single first =>
    have hvalid : first < pidMax := haccepted
    have hset : processOption allowed result (.single first) =
        (result.1.setRange allowed first (pidNull + 1 - first), result.2) :=
      if_neg (by omega)
    rw [hset]
    refine ⟨rfl, fun pid hpid ↦ ?_⟩
    simp only [setRange_apply, PIDRange.Contains, PIDRange.IsAfter]
    exact ⟨fun hmem ↦ if_pos (by omega), fun hmem ↦ if_neg (by omega)⟩
  | range first last =>
    obtain ⟨hordered, hvalid⟩ : first ≤ last ∧ last < pidMax := haccepted
    have hset : processOption allowed result (.range first last) =
        (result.1.setRange allowed first (last + 1 - first), result.2) :=
      if_neg (by omega)
    rw [hset]
    refine ⟨rfl, fun pid _ ↦ ?_⟩
    simp only [setRange_apply, PIDRange.Contains, PIDRange.IsAfter, or_false]
    exact ⟨fun hmem ↦ if_pos (by omega), fun hmem ↦ if_neg (by omega)⟩

theorem foldl_processOption (allowed : Bool) (result : PIDSet × Bool)
    (haccepted : ∀ range ∈ ranges, range.IsAccepted) :
    (ranges.foldl (processOption allowed) result).2 = result.2 ∧ ∀ pid < pidMax,
      ((∃ range ∈ ranges, range.Contains pid ∨ range.IsAfter pid) →
        (ranges.foldl (processOption allowed) result).1 pid = allowed) ∧
      ((∀ range ∈ ranges, ¬(range.Contains pid ∨ range.IsAfter pid)) →
        (ranges.foldl (processOption allowed) result).1 pid = result.1 pid) := by
  induction ranges generalizing result with
  | nil => simp
  | cons range rest ih =>
    obtain ⟨hrange, hrest⟩ := List.forall_mem_cons.mp haccepted
    obtain ⟨hstatus, hfirst⟩ := processOption_spec allowed result hrange
    obtain ⟨hlater, hnext⟩ := ih (processOption allowed result range) hrest
    refine ⟨hlater.trans hstatus, fun pid hpid ↦ ⟨?_, ?_⟩⟩
    · rw [List.exists_mem_cons_iff]
      by_cases hcovered : ∃ range ∈ rest, range.Contains pid ∨ range.IsAfter pid
      · intro _
        exact (hnext pid hpid).1 hcovered
      · have hkept : ∀ range ∈ rest, ¬(range.Contains pid ∨ range.IsAfter pid) := by
          simpa using hcovered
        intro hany
        exact ((hnext pid hpid).2 hkept).trans
          ((hfirst pid hpid).1 (hany.resolve_right hcovered))
    · intro hnone
      obtain ⟨hhead, htail⟩ := List.forall_mem_cons.mp hnone
      exact ((hnext pid hpid).2 htail).trans ((hfirst pid hpid).2 hhead)

end Pids

/-- The plugin allows the PIDs as they are understood. -/
structure Plugin.Obeys (plugin : Plugin) (options : Options) : Prop where
  pcrRestamp : plugin.pcrRestamp = !options.noPcrRestamp
  ignoreConflicts : plugin.ignoreConflicts = (options.transparent || options.ignoreConflicts)
  allowedPids : ∀ pid < pidMax, plugin.allowedPids pid = true ↔
    (∃ range ∈ options.pass, range.Contains pid ∨ range.IsAfter pid) ∨
      (options.IsKept pid ∧ ¬∃ range ∈ options.drop, range.IsAfter pid)

theorem start_spec {options : Options}
    (haccepted : ∀ range ∈ options.drop ++ options.pass, range.IsAccepted) :
    ∃ plugin, start options = some plugin ∧ plugin.Obeys options := by
  obtain ⟨hdrop, hpass⟩ := List.forall_mem_append.mp haccepted
  let allPids : PIDSet := fun _ ↦ true
  let pids := if options.transparent then allPids else allPids.setRange false 0x00 (pidDVBLast + 1)
  let dropped := processDropPassOption options.drop false pids
  let passed := processDropPassOption options.pass true dropped.1
  obtain ⟨hfirst, hdropped⟩ := foldl_processOption false (pids, true) hdrop
  obtain ⟨hsecond, hpassed⟩ := foldl_processOption true (dropped.1, true) hpass
  have hstart : start options = some {
      mergePsi := !options.transparent && !options.noPsiMerge
      pcrRestamp := !options.noPcrRestamp
      ignoreConflicts := options.transparent || options.ignoreConflicts
      allowedPids := passed.1 } :=
    if_pos (Bool.and_eq_true_iff.mpr ⟨hfirst, hsecond⟩)
  refine ⟨_, hstart, ⟨rfl, rfl, fun pid hpid ↦ ?_⟩⟩
  have hdefault : pids pid = true ↔ options.transparent = true ∨ pidDVBLast < pid := by
    cases htransparent : options.transparent with
    | false =>
      have hpids : pids = allPids.setRange false 0x00 (pidDVBLast + 1) :=
        if_neg (by rw [htransparent]; exact Bool.false_ne_true)
      rw [hpids, setRange_apply]
      split_ifs with hlow
      · simp only [false_or, false_iff]
        omega
      · simp only [allPids, false_or, true_iff]
        omega
    | true =>
      have hpids : pids = allPids := if_pos htransparent
      rw [hpids]
      simp [allPids]
  show passed.1 pid = true ↔ _
  by_cases hin : ∃ range ∈ options.pass, range.Contains pid ∨ range.IsAfter pid
  · exact iff_of_true ((hpassed pid hpid).1 hin) (Or.inl hin)
  · have hnone : ∀ range ∈ options.pass, ¬(range.Contains pid ∨ range.IsAfter pid) := by
      simpa using hin
    rw [show passed.1 pid = dropped.1 pid from (hpassed pid hpid).2 hnone, or_iff_right hin]
    by_cases hout : ∃ range ∈ options.drop, range.Contains pid ∨ range.IsAfter pid
    · refine iff_of_false (by rw [show dropped.1 pid = false from (hdropped pid hpid).1 hout]; simp) ?_
      rintro ⟨hkept, hafter⟩
      obtain ⟨range, hrange, hcontains | hcontains⟩ := hout
      · exact hkept.2 range hrange hcontains
      · exact hafter ⟨range, hrange, hcontains⟩
    · have hclear : ∀ range ∈ options.drop, ¬(range.Contains pid ∨ range.IsAfter pid) := by
        simpa using hout
      rw [show dropped.1 pid = pids pid from (hdropped pid hpid).2 hclear, hdefault]
      constructor
      · exact fun hpids ↦ ⟨⟨hpids, fun range hrange hcontains ↦
          hclear range hrange (Or.inl hcontains)⟩, fun ⟨range, hrange, hafter⟩ ↦
            hclear range hrange (Or.inr hafter)⟩
      · exact fun hkept ↦ hkept.1.1

theorem allowedPids_iff_isPassed {plugin : Plugin} {options : Options}
    (hobeys : plugin.Obeys options) {pid : ℕ} (hpid : pid < pidMax) :
    (plugin.allowedPids pid = true ↔ options.IsPassed pid) ↔ options.IsFiltered pid := by
  have hpass : (∃ range ∈ options.pass, range.Contains pid ∨ range.IsAfter pid) ↔
      (∃ range ∈ options.pass, range.Contains pid) ∨ ∃ range ∈ options.pass, range.IsAfter pid := by
    simp only [and_or_left, exists_or]
  rw [hobeys.allowedPids pid hpid, hpass, Options.IsPassed, Options.IsFiltered]
  generalize options.IsKept pid = kept
  generalize (∃ range ∈ options.drop, range.IsAfter pid) = afterDrop
  generalize (∃ range ∈ options.pass, range.IsAfter pid) = afterPass
  generalize (∃ range ∈ options.pass, range.Contains pid) = passed
  tauto

/-! ### Steps -/

section Steps

variable {Psi : Type} {plugin : Plugin} {merger : PsiMerger Psi} {state next : State Psi}
  {input : Input} {output : Status × TSPacket} {options : Options} {seen : List TSPacket}
  {pkt sent : TSPacket} {bitrate : ℕ}

/-- The state notes the PIDs of the main stream. -/
def Tracks (options : Options) (seen : List TSPacket) (state : State Psi) : Prop :=
  options.transparent = false → options.ignoreConflicts = false →
    ∀ pid, state.mainPids pid = true ↔ Options.IsSeen seen pid

theorem tracks_initial (options : Options) (psi : Psi) (merged : List TSPacket) :
    Tracks options [] (State.initial psi merged) := by
  intro _ _ pid
  simp [State.initial, Options.IsSeen]

@[simp] theorem seeMerge_mainPids (pid : ℕ) :
    (seeMerge plugin state pid).mainPids = state.mainPids := by
  rw [seeMerge]
  split <;> rfl

@[simp] theorem seeMerge_merged (pid : ℕ) : (seeMerge plugin state pid).merged = state.merged := by
  rw [seeMerge]
  split <;> rfl

@[simp] theorem seeMerge_pcrPids (pid : ℕ) :
    (seeMerge plugin state pid).pcrPids = state.pcrPids := by
  rw [seeMerge]
  split <;> rfl

@[simp] theorem seeMain_merged (pid : ℕ) : (seeMain plugin state pid).merged = state.merged := by
  rw [seeMain]
  split <;> rfl

theorem seeMain_null : seeMain plugin state pidNull = state :=
  if_neg (by simp)

theorem seeMain_mainPids (pid other : ℕ) :
    (seeMain plugin state pid).mainPids other =
      (state.mainPids other || (!plugin.ignoreConflicts && pid != pidNull && other == pid)) := by
  by_cases hnew : (!plugin.ignoreConflicts && pid != pidNull && !state.mainPids pid) = true
  · rw [seeMain, if_pos hnew]
    by_cases hother : other = pid
    · subst hother
      simp_all [PIDSet.set]
    · simp [PIDSet.set, hother]
  · rw [seeMain, if_neg hnew]
    by_cases hother : other = pid
    · subst hother
      cases hnoted : state.mainPids other <;> simp_all
    · simp [hother]

theorem tracks_seeMain (hobeys : plugin.Obeys options) (htracks : Tracks options seen state)
    (pkt : TSPacket) : Tracks options (pkt :: seen) (seeMain plugin state pkt.getPID) := by
  intro htransparent hconflicts pid
  have hignore : plugin.ignoreConflicts = false := by
    rw [hobeys.ignoreConflicts, htransparent, hconflicts]
    rfl
  have hseen : Options.IsSeen (pkt :: seen) pid ↔
      Options.IsSeen seen pid ∨ (pkt.getPID ≠ pidNull ∧ pid = pkt.getPID) := by
    simp only [Options.IsSeen, List.exists_mem_cons_iff, and_or_left]
    rw [or_comm, @eq_comm _ pid]
    exact or_congr_right (and_congr_left fun heq ↦ by rw [heq])
  rw [hseen, ← htracks htransparent hconflicts pid, seeMain_mainPids, hignore]
  simp only [Bool.not_false, Bool.true_and, Bool.or_eq_true, Bool.and_eq_true, bne_iff_ne,
    beq_iff_eq]

theorem restamp_spec (hobeys : plugin.Obeys options)
    (hrestamp : restamp plugin state bitrate pkt = some (next, sent)) :
    next.merged = state.merged ∧ next.mainPids = state.mainPids ∧ options.IsCopy pkt sent := by
  unfold restamp at hrestamp
  split at hrestamp
  · case isTrue hstamped =>
    obtain ⟨henabled, hpcr⟩ := Bool.and_eq_true_iff.mp hstamped
    rw [hobeys.pcrRestamp, Bool.not_eq_true'] at henabled
    split at hrestamp
    · obtain ⟨rfl, rfl⟩ := Prod.mk.inj (Option.some.inj hrestamp)
      exact ⟨rfl, rfl, Or.inl rfl⟩
    · split at hrestamp
      · obtain ⟨written, hwritten, hresult⟩ := Option.map_eq_some_iff.mp hrestamp
        obtain ⟨rfl, rfl⟩ := Prod.mk.inj hresult
        exact ⟨rfl, rfl, Or.inr ⟨henabled, hpcr, _, hwritten⟩⟩
      · obtain ⟨rfl, rfl⟩ := Prod.mk.inj (Option.some.inj hrestamp)
        exact ⟨rfl, rfl, Or.inl rfl⟩
  · obtain ⟨rfl, rfl⟩ := Prod.mk.inj (Option.some.inj hrestamp)
    exact ⟨rfl, rfl, Or.inl rfl⟩

/-- A packet is refused when its PCR must be adjusted and has no room. -/
theorem restamp_eq_none_iff (hobeys : plugin.Obeys options) :
    restamp plugin state bitrate pkt = none ↔
      ¬(options.noPcrRestamp = false → pkt.hasPCR = true → state.pcrPids pkt.getPID ≠ none →
        0 < bitrate → pkt.pcrOffset ≠ 0) := by
  have henabled : plugin.pcrRestamp = true ↔ options.noPcrRestamp = false := by
    rw [hobeys.pcrRestamp, Bool.not_eq_true']
  by_cases hstamped : (plugin.pcrRestamp && pkt.hasPCR) = true
  · obtain ⟨hrestamp, hpcr⟩ := Bool.and_eq_true_iff.mp hstamped
    rw [restamp, if_pos hstamped]
    cases hcontext : state.pcrPids pkt.getPID with
    | none => simp
    | some context =>
      by_cases hbitrate : 0 < bitrate
      · simp only [if_pos hbitrate, Option.map_eq_none_iff, TSPacket.setPCR]
        simp [henabled.mp hrestamp, hpcr, hbitrate]
      · simp [hbitrate]
  · rw [restamp, if_neg hstamped]
    rw [Bool.and_eq_true, henabled] at hstamped
    simp only [reduceCtorEq, false_iff, not_not]
    exact fun hfirst hsecond ↦ absurd ⟨hfirst, hsecond⟩ hstamped

theorem isMerged_iff (htracks : Tracks options seen state) {pid : ℕ} :
    options.IsMerged seen pid ↔ options.IsPassed pid ∧ ¬options.IsConflict state pid := by
  refine and_congr_right fun _ ↦ ?_
  constructor
  · rintro (htransparent | hignore | hseen) ⟨hfiltering, hconflicts, -, hnoted⟩
    · exact Bool.false_ne_true (hfiltering.symm.trans htransparent)
    · exact Bool.false_ne_true (hconflicts.symm.trans hignore)
    · exact hseen ((htracks hfiltering hconflicts pid).mp hnoted)
  · intro hfree
    by_contra hnone
    simp only [not_or, Bool.not_eq_true, not_not] at hnone
    obtain ⟨hfiltering, hconflicts, hseen⟩ := hnone
    exact hfree ⟨hfiltering, hconflicts, hseen.1, (htracks hfiltering hconflicts pid).mpr hseen⟩

theorem isConflict_iff (hobeys : plugin.Obeys options) {pid : ℕ} :
    (!plugin.ignoreConflicts && pid != pidNull && (seeMerge plugin state pid).mainPids pid) = true ↔
      options.IsConflict state pid := by
  rw [seeMerge_mainPids, hobeys.ignoreConflicts, Options.IsConflict]
  simp [and_assoc]

variable (state pkt bitrate) in
/-- The three outcomes of the filter. -/
theorem filterMergePacket_cases (hobeys : plugin.Obeys options) :
    (plugin.allowedPids pkt.getPID = false ∧
        filterMergePacket plugin state bitrate pkt = some (state, .null, pkt)) ∨
      (plugin.allowedPids pkt.getPID = true ∧ options.IsConflict state pkt.getPID ∧
        filterMergePacket plugin state bitrate pkt =
          some (seeMerge plugin state pkt.getPID, .null, pkt)) ∨
      (plugin.allowedPids pkt.getPID = true ∧ ¬options.IsConflict state pkt.getPID ∧
        filterMergePacket plugin state bitrate pkt =
          (restamp plugin (seeMerge plugin state pkt.getPID) bitrate pkt).map fun result ↦
            (result.1, .ok, result.2)) := by
  rw [filterMergePacket]
  cases hallowed : plugin.allowedPids pkt.getPID with
  | false => exact Or.inl ⟨rfl, rfl⟩
  | true =>
    by_cases hconflict : options.IsConflict state pkt.getPID
    · exact Or.inr (Or.inl ⟨rfl, hconflict, if_pos ((isConflict_iff hobeys).mpr hconflict)⟩)
    · have hkept : ¬(!plugin.ignoreConflicts && pkt.getPID != pidNull &&
          (seeMerge plugin state pkt.getPID).mainPids pkt.getPID) = true :=
        fun hdropped ↦ hconflict ((isConflict_iff hobeys).mp hdropped)
      exact Or.inr (Or.inr ⟨rfl, hconflict, if_neg hkept⟩)

theorem filterMergePacket_next (hobeys : plugin.Obeys options)
    (hfilter : filterMergePacket plugin state bitrate pkt = some (next, output)) :
    next.merged = state.merged ∧ next.mainPids = state.mainPids := by
  obtain ⟨-, hresult⟩ | ⟨-, -, hresult⟩ | ⟨-, -, hresult⟩ :=
    filterMergePacket_cases state pkt bitrate hobeys
  · rw [hresult] at hfilter
    obtain ⟨rfl, -⟩ := Prod.mk.inj (Option.some.inj hfilter)
    exact ⟨rfl, rfl⟩
  · rw [hresult] at hfilter
    obtain ⟨rfl, -⟩ := Prod.mk.inj (Option.some.inj hfilter)
    exact ⟨seeMerge_merged _, seeMerge_mainPids _⟩
  · rw [hresult] at hfilter
    obtain ⟨⟨last, sent⟩, hrestamp, hlast⟩ := Option.map_eq_some_iff.mp hfilter
    obtain ⟨rfl, -⟩ := Prod.mk.inj hlast
    obtain ⟨hmerged, hmain, -⟩ := restamp_spec hobeys hrestamp
    exact ⟨hmerged.trans (seeMerge_merged _), hmain.trans (seeMerge_mainPids _)⟩

variable (pkt bitrate) in
/-- The merged packets which are filtered as the options say. -/
theorem filterMergePacket_iff (hobeys : plugin.Obeys options) (htracks : Tracks options seen state) :
    (∃ next output, filterMergePacket plugin state bitrate pkt = some (next, output) ∧
        (output.1 = .ok ↔ options.IsMerged seen pkt.getPID) ∧
          (output.1 = .ok → options.IsCopy pkt output.2)) ↔
      options.IsConflict state pkt.getPID ∨ options.IsFiltered pkt.getPID ∧
        (options.IsPassed pkt.getPID → options.HasRoom state bitrate pkt) := by
  rw [isMerged_iff htracks, ← allowedPids_iff_isPassed hobeys pkt.getPID_lt]
  obtain ⟨hallowed, hresult⟩ | ⟨hallowed, hconflict, hresult⟩ | ⟨hallowed, hconflict, hresult⟩ :=
    filterMergePacket_cases state pkt bitrate hobeys
  · simp only [hresult, hallowed, Option.some.injEq, Prod.mk.injEq, reduceCtorEq, false_iff]
    constructor
    · rintro ⟨_, _, ⟨-, rfl⟩, hmerged, -⟩
      by_cases hconflict : options.IsConflict state pkt.getPID
      · exact Or.inl hconflict
      · have hdropped : ¬options.IsPassed pkt.getPID :=
          fun hpassed ↦ Status.noConfusion (hmerged.mpr ⟨hpassed, hconflict⟩)
        exact Or.inr ⟨by simpa using hdropped, fun hpassed ↦ absurd hpassed hdropped⟩
    · intro hsafe
      refine ⟨_, _, ⟨rfl, rfl⟩, iff_of_false (by simp) ?_, by simp⟩
      rintro ⟨hpassed, hfree⟩
      exact (hsafe.resolve_left hfree).1 hpassed
  · refine iff_of_true ⟨_, _, hresult, iff_of_false (by simp) ?_, by simp⟩ (Or.inl hconflict)
    exact fun hmerged ↦ hmerged.2 hconflict
  · rw [or_iff_right hconflict, hresult]
    have hroom : restamp plugin (seeMerge plugin state pkt.getPID) bitrate pkt = none ↔
        ¬options.HasRoom state bitrate pkt := by
      rw [restamp_eq_none_iff hobeys, seeMerge_pcrPids, Options.HasRoom]
    constructor
    · rintro ⟨next, output, hfilter, hmerged, -⟩
      obtain ⟨⟨last, sent⟩, hrestamp, hlast⟩ := Option.map_eq_some_iff.mp hfilter
      obtain ⟨rfl, rfl⟩ := Prod.mk.inj hlast
      refine ⟨iff_of_true hallowed (hmerged.mp rfl).1, fun _ ↦ not_not.mp fun hfull ↦ ?_⟩
      exact Option.some_ne_none _ (hrestamp.symm.trans (hroom.mpr hfull))
    · rintro ⟨hfiltered, hfits⟩
      have hpassed := hfiltered.mp hallowed
      cases hrestamp : restamp plugin (seeMerge plugin state pkt.getPID) bitrate pkt with
      | none => exact absurd (hfits hpassed) (hroom.mp hrestamp)
      | some result =>
        exact ⟨result.1, (.ok, result.2), rfl, iff_of_true rfl ⟨hpassed, hconflict⟩,
          fun _ ↦ (restamp_spec hobeys hrestamp).2.2⟩

/-! ### Runs -/

theorem processPacket_of_null (hnull : input.packet.getPID = pidNull) :
    processPacket plugin merger state input = (processMergePacket plugin merger
        { state with
          psi := if plugin.mergePsi then merger.feedMain state.psi input.packet else state.psi }
        input).map fun result ↦
          ({ result.1 with pktCount := result.1.pktCount + 1 }, result.2) := by
  have htable : ¬(pidNull = pidPAT ∨ pidNull = pidCAT ∨ pidNull = pidSDT) := by decide
  rw [processPacket]
  simp only [hnull, seeMain_null, dispatch, if_neg htable, if_true]

/-- The main packet is replaced by what the filter makes. -/
theorem processPacket_of_taken (plugin : Plugin) (merger : PsiMerger Psi)
    (htaken : input.taken state.merged = some pkt) :
    ∃ current : State Psi, current.merged = input.following state.merged ∧
      current.mainPids = state.mainPids ∧ current.pcrPids = state.pcrPids ∧
        processPacket plugin merger state input =
          (filterMergePacket plugin current input.bitrate pkt).map fun result ↦
            ({ result.1 with pktCount := result.1.pktCount + 1 }, result.2) := by
  rw [Input.taken] at htaken
  split at htaken
  · case isTrue htakes =>
    obtain ⟨hnull, havailable⟩ := htakes
    obtain ⟨rest, hmerged⟩ : ∃ rest, state.merged = pkt :: rest := by
      cases hlist : state.merged with
      | nil => simp [hlist] at htaken
      | cons first rest =>
        rw [hlist, List.head?_cons, Option.some.injEq] at htaken
        exact ⟨rest, by rw [htaken]⟩
    have hrest : input.following state.merged = rest := by
      rw [Input.following, if_pos ⟨hnull, havailable⟩, hmerged, List.tail_cons]
    rw [processPacket_of_null hnull, processMergePacket, hrest]
    simp only [hmerged, havailable]
    refine ⟨_, ?_, ?_, ?_, rfl⟩ <;> rfl
  · exact absurd htaken (by simp)

theorem processPacket_of_not_taken (plugin : Plugin) (merger : PsiMerger Psi)
    (htaken : input.taken state.merged = none) :
    ∃ next output, processPacket plugin merger state input = some (next, output) ∧
      next.merged = input.following state.merged ∧
        next.mainPids = (seeMain plugin state input.packet.getPID).mainPids ∧
          (input.packet.getPID ≠ pidPAT → input.packet.getPID ≠ pidCAT →
            input.packet.getPID ≠ pidSDT → output = (.ok, input.packet)) := by
  by_cases hnull : input.packet.getPID = pidNull
  · have hstays : ∀ psi, processMergePacket plugin merger { state with psi := psi } input =
        some ({ state with psi := psi }, .ok, input.packet) ∧
          state.merged = input.following state.merged := by
      intro psi
      rw [processMergePacket, Input.following]
      cases havailable : input.available with
      | false => cases state.merged <;> simp
      | true =>
        cases hmerged : state.merged with
        | nil => simp
        | cons first rest => simp [Input.taken, hnull, havailable, hmerged] at htaken
    rw [processPacket_of_null hnull, (hstays _).1]
    refine ⟨_, _, rfl, (hstays state.psi).2, ?_, fun _ _ _ ↦ rfl⟩
    rw [hnull, seeMain_null]
  · have hsame : input.following state.merged = state.merged :=
      if_neg fun htakes ↦ hnull htakes.1
    rw [processPacket, dispatch, hsame]
    have hmain : ∀ psi : Psi,
        (seeMain plugin { state with psi := psi } input.packet.getPID).mainPids =
          (seeMain plugin state input.packet.getPID).mainPids := by
      intro psi
      funext other
      rw [seeMain_mainPids, seeMain_mainPids]
    by_cases htable : input.packet.getPID = pidPAT ∨ input.packet.getPID = pidCAT ∨
        input.packet.getPID = pidSDT
    · simp only [if_pos htable, Option.map_some]
      refine ⟨_, _, rfl, seeMain_merged _, hmain _, fun hpat hcat hsdt ↦ ?_⟩
      exact absurd htable (by simp [hpat, hcat, hsdt])
    · simp only [if_neg htable, if_neg hnull, Option.map_some]
      exact ⟨_, _, rfl, seeMain_merged _, hmain _, fun _ _ _ ↦ rfl⟩

variable (merger) in
theorem exists_isSent_iff (hobeys : plugin.Obeys options) (htracks : Tracks options seen state) :
    (∃ next output, processPacket plugin merger state input = some (next, output) ∧
      options.IsSent seen state.merged input output) ↔ options.IsSafe state input := by
  cases htaken : input.taken state.merged with
  | none =>
    obtain ⟨next, output, hprocess, -, -, hsent⟩ :=
      processPacket_of_not_taken plugin merger htaken
    refine iff_of_true ⟨next, output, hprocess, ?_⟩ (by simp [Options.IsSafe, htaken])
    rw [Options.IsSent, htaken]
    exact hsent
  | some pkt =>
    obtain ⟨current, -, hmain, hpcr, hprocess⟩ :=
      processPacket_of_taken plugin merger htaken
    have hcurrent : Tracks options seen current := by
      intro htransparent hconflicts pid
      rw [hmain]
      exact htracks htransparent hconflicts pid
    have hfilter := filterMergePacket_iff pkt input.bitrate hobeys hcurrent
    have hsafe : options.IsSafe state input ↔
        options.IsConflict current pkt.getPID ∨ options.IsFiltered pkt.getPID ∧
          (options.IsPassed pkt.getPID → options.HasRoom current input.bitrate pkt) := by
      simp only [Options.IsSafe, htaken, Option.mem_def, Option.some.injEq, forall_eq',
        Options.IsConflict, Options.HasRoom, hmain, hpcr]
    rw [hsafe, ← hfilter, hprocess]
    simp only [Options.IsSent, htaken]
    constructor
    · rintro ⟨next, output, hresult, hsent⟩
      obtain ⟨⟨last, sent⟩, hlast, hpair⟩ := Option.map_eq_some_iff.mp hresult
      obtain ⟨-, rfl⟩ := Prod.mk.inj hpair
      exact ⟨last, sent, hlast, hsent⟩
    · rintro ⟨last, sent, hlast, hsent⟩
      exact ⟨_, sent, by rw [hlast]; rfl, hsent⟩

theorem processPacket_next (hobeys : plugin.Obeys options) (htracks : Tracks options seen state)
    (hstep : processPacket plugin merger state input = some (next, output)) :
    next.merged = input.following state.merged ∧ Tracks options (input.packet :: seen) next := by
  have hseen := tracks_seeMain hobeys htracks input.packet
  have hkept : ∀ other : State Psi,
      other.mainPids = (seeMain plugin state input.packet.getPID).mainPids →
        Tracks options (input.packet :: seen) other := by
    intro other hother htransparent hconflicts pid
    rw [hother]
    exact hseen htransparent hconflicts pid
  cases htaken : input.taken state.merged with
  | none =>
    obtain ⟨last, sent, hprocess, hmerged, hmain, -⟩ :=
      processPacket_of_not_taken plugin merger htaken
    rw [hprocess] at hstep
    obtain ⟨rfl, -⟩ := Prod.mk.inj (Option.some.inj hstep)
    exact ⟨hmerged, hkept _ hmain⟩
  | some pkt =>
    obtain ⟨current, hmerged, hmain, -, hprocess⟩ :=
      processPacket_of_taken plugin merger htaken
    rw [hprocess] at hstep
    obtain ⟨⟨last, sent⟩, hlast, hpair⟩ := Option.map_eq_some_iff.mp hstep
    obtain ⟨rfl, -⟩ := Prod.mk.inj hpair
    obtain ⟨hrest, hsame⟩ := filterMergePacket_next hobeys hlast
    have hnull : input.packet.getPID = pidNull := by
      by_contra hother
      rw [Input.taken, if_neg fun htakes ↦ hother htakes.1] at htaken
      exact Option.some_ne_none _ htaken.symm
    refine ⟨hrest.trans hmerged, hkept _ ?_⟩
    rw [hnull, seeMain_null]
    exact hsame.trans hmain

theorem isMerge_iff_meets (hobeys : plugin.Obeys options) {inputs : List Input}
    (htracks : Tracks options seen state) :
    (∃ last outputs, (machine plugin merger).run state inputs = some (last, outputs) ∧
      options.IsMerge seen state.merged inputs outputs) ↔
        (machine plugin merger).Meets options.IsSafe state inputs := by
  induction inputs generalizing state seen with
  | nil => exact iff_of_true ⟨state, [], rfl, trivial⟩ trivial
  | cons input inputs ih =>
    rw [Machine.Meets, ← exists_isSent_iff merger hobeys htracks]
    constructor
    · rintro ⟨last, outputs, hrun, hmerge⟩
      obtain ⟨next, first, later, hstep, hrest, rfl⟩ := Machine.run_cons_eq_some _ |>.mp hrun
      obtain ⟨⟨_, output⟩, hprocess, hpair⟩ := Option.map_eq_some_iff.mp hstep
      obtain ⟨rfl, rfl⟩ := Prod.mk.inj hpair
      obtain ⟨hmerged, hnext⟩ := processPacket_next hobeys htracks hprocess
      obtain ⟨hsent, hfollow⟩ := hmerge
      rw [← hmerged] at hfollow
      refine ⟨⟨_, output, hprocess, hsent⟩, fun other outputs hother ↦ ?_⟩
      rw [hstep, Option.some.injEq, Prod.mk.injEq] at hother
      exact hother.1 ▸ (ih hnext).mp ⟨last, later, hrest, hfollow⟩
    · rintro ⟨⟨next, output, hprocess, hsent⟩, hmeets⟩
      have hstep : (machine plugin merger).step state input = some (next, [output]) := by
        show (processPacket plugin merger state input).map _ = _
        rw [hprocess]
        rfl
      obtain ⟨hmerged, hnext⟩ := processPacket_next hobeys htracks hprocess
      obtain ⟨last, later, hrest, hfollow⟩ := (ih hnext).mpr (hmeets next [output] hstep)
      rw [hmerged] at hfollow
      exact ⟨last, output :: later,
        Machine.run_cons_eq_some _ |>.mpr ⟨next, [output], later, hstep, hrest, rfl⟩, hsent, hfollow⟩

end Steps

/-- Assumes: options with valid PIDs. The main packets are sent unmodified, except those of the
merged tables, and the null packets are replaced by the merged packets which the options pass, in
their order, if and only if the inputs are safe. -/
theorem isMerge_iff {Psi : Type} {options : Options}
    (haccepted : ∀ range ∈ options.drop ++ options.pass, range.IsAccepted)
    (merger : PsiMerger Psi) (psi : Psi) (merged : List TSPacket) (inputs : List Input) :
    ∃ plugin, start options = some plugin ∧ ((∃ last outputs,
        (machine plugin merger).run (State.initial psi merged) inputs = some (last, outputs) ∧
          options.IsMerge [] merged inputs outputs) ↔
        (machine plugin merger).Meets options.IsSafe (State.initial psi merged) inputs) := by
  obtain ⟨plugin, hstart, hobeys⟩ := start_spec haccepted
  exact ⟨plugin, hstart, isMerge_iff_meets hobeys (tracks_initial options psi merged)⟩

def noMerger : PsiMerger Unit where
  feedMain _ _ := ()
  feedMerge _ _ := ()
  nextPacket _ pkt := ((), pkt)

/-- A null packet of the main stream, when a merged packet is available. -/
def nullInput : Input where
  packet := nullPacket
  available := true
  bitrate := 10000000

theorem taken_nullInput (pkt : TSPacket) (rest : List TSPacket) :
    nullInput.taken (pkt :: rest) = some pkt :=
  if_pos ⟨by decide +kernel, rfl⟩

def rangeOptions : Options where
  drop := [.range 100 199]
  pass := [.range 17 18]
  transparent := false
  ignoreConflicts := false
  noPcrRestamp := false
  noPsiMerge := true

theorem isMerge_of_ranges :
    ∃ plugin, start rangeOptions = some plugin ∧ ∃ last outputs,
      (machine plugin noMerger).run (State.initial () [nullPacket.setPID 18]) [nullInput] =
        some (last, outputs) ∧
      rangeOptions.IsMerge [] [nullPacket.setPID 18] [nullInput] outputs := by
  have haccepted : ∀ range ∈ rangeOptions.drop ++ rangeOptions.pass, range.IsAccepted := by
    simp [rangeOptions, PIDRange.IsAccepted, pidMax]
  obtain ⟨plugin, hstart, hmerge⟩ :=
    isMerge_iff haccepted noMerger () [nullPacket.setPID 18] [nullInput]
  have hpid : (nullPacket.setPID 18).getPID = 18 := by decide +kernel
  have hsafe : rangeOptions.IsSafe (State.initial () [nullPacket.setPID 18]) nullInput := by
    intro pkt hpkt
    obtain rfl := Option.some.inj ((taken_nullInput _ _).symm.trans hpkt)
    refine Or.inr ⟨Or.inl ⟨_, List.mem_cons_self, ?_⟩, fun _ _ _ hknown ↦ absurd rfl hknown⟩
    rw [hpid]
    exact ⟨by decide, by decide⟩
  exact ⟨plugin, hstart, hmerge.mpr ⟨hsafe, fun _ _ _ ↦ trivial⟩⟩

def singleOptions : Options where
  drop := [.single 100]
  pass := []
  transparent := false
  ignoreConflicts := false
  noPcrRestamp := false
  noPsiMerge := true

/-- With `--drop 100`, a packet of the PID 200 is dropped. -/
theorem not_isMerge_of_single :
    ∃ plugin, start singleOptions = some plugin ∧ ¬∃ last outputs,
      (machine plugin noMerger).run (State.initial () [nullPacket.setPID 200]) [nullInput] =
        some (last, outputs) ∧
      singleOptions.IsMerge [] [nullPacket.setPID 200] [nullInput] outputs := by
  have haccepted : ∀ range ∈ singleOptions.drop ++ singleOptions.pass, range.IsAccepted := by
    simp [singleOptions, PIDRange.IsAccepted, pidMax]
  obtain ⟨plugin, hstart, hobeys⟩ := start_spec haccepted
  refine ⟨plugin, hstart, fun hmerge ↦ ?_⟩
  have hmeets := (isMerge_iff_meets hobeys
    (tracks_initial singleOptions () [nullPacket.setPID 200])).mp hmerge
  have hpid : (nullPacket.setPID 200).getPID = 200 := by decide +kernel
  obtain ⟨-, -, -, hnoted⟩ | ⟨hfiltered, -⟩ := hmeets.1 _ (taken_nullInput _ _)
  · exact Bool.false_ne_true hnoted
  · rw [hpid] at hfiltered
    simp [Options.IsFiltered, Options.IsKept, singleOptions, PIDRange.Contains, PIDRange.IsAfter,
      pidDVBLast] at hfiltered

end Merge

end TSDuck
