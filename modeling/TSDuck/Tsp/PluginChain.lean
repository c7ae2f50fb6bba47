import TSDuck.Library.Machine
import TSDuck.Library.StageRing
import Mathlib.Data.List.DropRight

/-!
# The circular packet buffer of `tsp`

The plugins of a `tsp` process run in one thread each and share a circular buffer of packets. Their
executors form a ring: the input, the packet processors, the output, and back to the input.

`PluginChain` is the state of all executors, with the input at index `0` and the output at the last
index.

The packets are numbered as the input reads them, and `StageRing` is the abstract buffer: each
executor has the number of the next packet it will pass.

Scope. The wake-up conditions only decide when a blocked `waitWork` looks at its area again, so they
are not part of the state. The packets themselves are not either: a slot of the buffer stands for
the packet in it.
-/

namespace TSDuck.Tsp

/-- The area and the flags of one plugin executor. -/
structure PluginExecutor where
  pktFirst : ℕ
  pktCnt : ℕ
  inputEnd : Bool
  bitrate : ℕ
  tspAborting : Bool
  granted : ℕ
  deriving DecidableEq, Repr

/-- The executors around a buffer. -/
structure PluginChain (plugins : ℕ) where
  bufferCount : ℕ
  executor : Fin (plugins + 2) → PluginExecutor

inductive Call (plugins : ℕ)
  | waitWork (caller : Fin (plugins + 2))
  | passPackets (caller : Fin (plugins + 2)) (count bitrate : ℕ) (inputEnd aborted : Bool)

/-- The area of `waitWork`, or the result of `passPackets`. -/
inductive Answer (plugins : ℕ)
  | work (caller : Fin (plugins + 2)) (pktFirst pktCnt bitrate : ℕ) (inputEnd aborted : Bool)
  | passed (caller : Fin (plugins + 2)) (pktFirst count : ℕ) (goOn : Bool)

namespace PluginChain

variable {plugins : ℕ}

def initBuffer (pktFirst pktCnt : ℕ) (inputEnd aborted : Bool) (bitrate : ℕ) : PluginExecutor :=
  { pktFirst, pktCnt, inputEnd, bitrate, tspAborting := aborted, granted := 0 }

/-- The buffer once `pktRead` packets have been loaded: they belong to the executor after the input.
There is none when no packet could be loaded. -/
def initAllBuffers (plugins bufferCount pktRead bitrate : ℕ) : Option (PluginChain plugins) :=
  if pktRead = 0 then none
  else
    some
      { bufferCount
        executor := fun index ↦
          if index = 0 then
            initBuffer (pktRead % bufferCount) (bufferCount - pktRead) (pktRead == 0) (pktRead == 0)
              bitrate
          else if index = 1 then initBuffer 0 pktRead (pktRead == 0) (pktRead == 0) bitrate
          else initBuffer 0 0 (pktRead == 0) (pktRead == 0) bitrate }

def update (chain : PluginChain plugins) (index : Fin (plugins + 2)) (executor : PluginExecutor) :
    PluginChain plugins :=
  { chain with executor := Function.update chain.executor index executor }

def waitWork (chain : PluginChain plugins) (caller : Fin (plugins + 2)) :
    Option (PluginChain plugins × Answer plugins) :=
  let self := chain.executor caller
  let next := chain.executor (caller + 1)
  if self.pktCnt = 0 ∧ self.inputEnd = false ∧ next.tspAborting = false then none
  else
    let pktCnt := min self.pktCnt (chain.bufferCount - self.pktFirst)
    some (chain.update caller { self with granted := pktCnt },
      .work caller self.pktFirst pktCnt self.bitrate
        (self.inputEnd && pktCnt == self.pktCnt) next.tspAborting)

/-- An executor passes packets, and tells the next one that no more will come when `inputEnd` is
set. It aborts when `aborted` is set or when the next one aborts. -/
def passPackets (chain : PluginChain plugins) (caller : Fin (plugins + 2)) (count bitrate : ℕ)
    (inputEnd aborted : Bool) : PluginChain plugins × Answer plugins :=
  let self := chain.executor caller
  let chain₁ := chain.update caller
    { self with
      pktFirst := (self.pktFirst + count) % chain.bufferCount
      pktCnt := self.pktCnt - count
      granted := self.granted - count }
  let next := chain₁.executor (caller + 1)
  let chain₂ := chain₁.update (caller + 1)
    { next with
      pktCnt := next.pktCnt + count
      inputEnd := next.inputEnd || inputEnd
      bitrate := bitrate }
  let aborted := aborted || next.tspAborting
  let chain₃ :=
    if aborted then chain₂.update caller { chain₂.executor caller with tspAborting := true }
    else chain₂
  (chain₃, .passed caller self.pktFirst count (!inputEnd && !aborted))

/-- A thread passes at most what `waitWork` gave it. -/
def step (chain : PluginChain plugins) :
    Call plugins → Option (PluginChain plugins × List (Answer plugins))
  | .waitWork caller => (chain.waitWork caller).map fun result ↦ (result.1, [result.2])
  | .passPackets caller count bitrate inputEnd aborted =>
    if count ≤ (chain.executor caller).granted then
      let result := chain.passPackets caller count bitrate inputEnd aborted
      some (result.1, [result.2])
    else none

def machine (plugins : ℕ) : Machine (PluginChain plugins) (Call plugins) (Answer plugins) where
  step := step

def area (chain : PluginChain plugins) (index : Fin (plugins + 2)) : Set ℕ :=
  {slot | ∃ offset < (chain.executor index).pktCnt,
    slot = ((chain.executor index).pktFirst + offset) % chain.bufferCount}

/-- The slots that an executor has passed, in order. -/
def passedSlots (answers : List (Answer plugins)) (index : Fin (plugins + 2)) : List ℕ :=
  answers.flatMap fun answer ↦
    match answer with
    | .passed caller pktFirst count _ => if caller = index then List.range' pktFirst count else []
    | .work .. => []

/-- The first packet that an executor passes. -/
def firstPacket (pktRead : ℕ) (index : Fin (plugins + 2)) : ℕ :=
  if index = 0 then pktRead else 0

/-! ### Refinement of the numbered packets -/

/-- The area of an executor is what it holds, from its position to its limit, and the packets
granted to the thread are at its start, before the end of the buffer. -/
structure Refines (chain : PluginChain plugins) (bufferCount : ℕ)
    (position : Fin (plugins + 2) → ℕ) : Prop where
  bufferCount_eq : chain.bufferCount = bufferCount
  bufferCount_pos : 0 < bufferCount
  ordered : StageRing.Ordered bufferCount position
  pktFirst_eq : ∀ index, (chain.executor index).pktFirst = position index % bufferCount
  pktCnt_eq : ∀ index, (chain.executor index).pktCnt =
    StageRing.limit bufferCount position index - position index
  granted_le : ∀ index, (chain.executor index).granted ≤ (chain.executor index).pktCnt
  granted_contiguous : ∀ index,
    (chain.executor index).pktFirst + (chain.executor index).granted ≤ bufferCount

variable {bufferCount : ℕ} {chain : PluginChain plugins}

theorem refines_initAllBuffers {pktRead bitrate : ℕ} (hread : pktRead ≤ bufferCount)
    (hinit : initAllBuffers plugins bufferCount pktRead bitrate = some chain) :
    chain.Refines bufferCount (firstPacket pktRead) := by
  unfold initAllBuffers at hinit
  split_ifs at hinit with hzero
  obtain rfl := Option.some.inj hinit
  have hone : (1 : Fin (plugins + 2)) ≠ 0 := one_ne_zero
  have hlimit : ∀ index : Fin (plugins + 2),
      StageRing.limit bufferCount (firstPacket pktRead) index =
        if index = 0 then bufferCount else if index = 1 then pktRead else 0 := by
    intro index
    rw [← sub_add_cancel index 1, StageRing.limit_add_one, sub_add_cancel, firstPacket]
    by_cases hindex : index = 0
    · subst hindex
      simp
    · by_cases hfirst : index = 1
      · simp [hfirst]
      · have hprevious : index - 1 ≠ 0 := sub_ne_zero.mpr hfirst
        simp [hindex, hfirst, hprevious]
  refine ⟨rfl, by omega, ?_, ?_, ?_, ?_, ?_⟩
  · intro index
    rw [hlimit, firstPacket]
    split_ifs <;> omega
  · intro index
    by_cases hindex : index = 0
    · simp [hindex, initBuffer, firstPacket]
    · by_cases hfirst : index = 1 <;> simp [hindex, hfirst, initBuffer, firstPacket]
  · intro index
    rw [hlimit]
    by_cases hindex : index = 0
    · simp [hindex, initBuffer, firstPacket]
    · by_cases hfirst : index = 1 <;> simp [hindex, hfirst, initBuffer, firstPacket]
  · intro index
    by_cases hindex : index = 0
    · simp [hindex, initBuffer]
    · by_cases hfirst : index = 1 <;> simp [hindex, hfirst, initBuffer]
  · intro index
    have hpos : 0 < bufferCount := by omega
    by_cases hindex : index = 0
    · simpa [hindex, initBuffer] using (Nat.mod_lt pktRead hpos).le
    · by_cases hfirst : index = 1 <;> simp [hindex, hfirst, initBuffer]

theorem update_executor_of_ne {index other : Fin (plugins + 2)} (hne : other ≠ index)
    (executor : PluginExecutor) :
    (chain.update index executor).executor other = chain.executor other :=
  Function.update_of_ne hne ..

@[simp] theorem update_executor_self (chain : PluginChain plugins) (index : Fin (plugins + 2))
    (executor : PluginExecutor) : (chain.update index executor).executor index = executor :=
  Function.update_self ..

theorem passPackets_executor (chain : PluginChain plugins) (caller : Fin (plugins + 2))
    (count bitrate : ℕ) (inputEnd aborted : Bool) (index : Fin (plugins + 2)) :
    let before := chain.executor index
    let after := (chain.passPackets caller count bitrate inputEnd aborted).1.executor index
    after.pktFirst = (if index = caller then (before.pktFirst + count) % chain.bufferCount
        else before.pktFirst) ∧
      after.pktCnt = (if index = caller then before.pktCnt - count
        else if index = caller + 1 then before.pktCnt + count else before.pktCnt) ∧
      after.granted = if index = caller then before.granted - count else before.granted := by
  have hnext : caller + 1 ≠ caller := StageRing.add_one_ne caller
  intro before after
  by_cases hself : index = caller
  · subst hself
    simp only [after, before, passPackets, if_true]
    split_ifs <;> simp [update_executor_of_ne hnext.symm]
  · by_cases hother : index = caller + 1
    · subst hother
      simp only [after, before, passPackets, if_neg hself, if_true]
      split_ifs <;> simp [update_executor_of_ne hself]
    · simp only [after, before, passPackets, if_neg hself, if_neg hother]
      split_ifs <;> simp [update_executor_of_ne hself, update_executor_of_ne hother]

@[simp] theorem passPackets_bufferCount (chain : PluginChain plugins) (caller : Fin (plugins + 2))
    (count bitrate : ℕ) (inputEnd aborted : Bool) :
    (chain.passPackets caller count bitrate inputEnd aborted).1.bufferCount =
      chain.bufferCount := by
  simp only [passPackets]
  split_ifs <;> rfl

theorem Refines.waitWork {next : PluginChain plugins} {position : Fin (plugins + 2) → ℕ}
    {caller : Fin (plugins + 2)} {answer : Answer plugins}
    (hrefines : chain.Refines bufferCount position)
    (hwork : chain.waitWork caller = some (next, answer)) : next.Refines bufferCount position := by
  simp only [PluginChain.waitWork] at hwork
  split_ifs at hwork
  simp only [Option.some.injEq, Prod.mk.injEq] at hwork
  obtain ⟨rfl, -⟩ := hwork
  have hfirst : (chain.executor caller).pktFirst < bufferCount := by
    rw [hrefines.pktFirst_eq]
    exact Nat.mod_lt _ hrefines.bufferCount_pos
  refine ⟨hrefines.bufferCount_eq, hrefines.bufferCount_pos, hrefines.ordered, ?_, ?_, ?_, ?_⟩
  all_goals
    intro index
    by_cases hself : index = caller
  · subst hself
    simpa using hrefines.pktFirst_eq index
  · rw [update_executor_of_ne hself]
    exact hrefines.pktFirst_eq index
  · subst hself
    simpa using hrefines.pktCnt_eq index
  · rw [update_executor_of_ne hself]
    exact hrefines.pktCnt_eq index
  · subst hself
    simp
  · rw [update_executor_of_ne hself]
    exact hrefines.granted_le index
  · subst hself
    simp only [update_executor_self, hrefines.bufferCount_eq]
    omega
  · rw [update_executor_of_ne hself]
    exact hrefines.granted_contiguous index

theorem Refines.passPackets {position : Fin (plugins + 2) → ℕ}
    (hrefines : chain.Refines bufferCount position) {caller : Fin (plugins + 2)} {count : ℕ}
    (hcount : count ≤ (chain.executor caller).granted) (bitrate : ℕ) (inputEnd aborted : Bool) :
    (chain.passPackets caller count bitrate inputEnd aborted).1.Refines bufferCount
      (StageRing.advance position caller count) := by
  have heffect := passPackets_executor chain caller count bitrate inputEnd aborted
  have hbuffer := hrefines.bufferCount_eq
  have hheld : count ≤ StageRing.limit bufferCount position caller - position caller := by
    rw [← hrefines.pktCnt_eq]
    exact hcount.trans (hrefines.granted_le caller)
  refine ⟨by rw [passPackets_bufferCount, hbuffer], hrefines.bufferCount_pos,
    hrefines.ordered.advance hheld, fun index ↦ ?_, fun index ↦ ?_, fun index ↦ ?_,
    fun index ↦ ?_⟩
  · rw [(heffect index).1, hrefines.pktFirst_eq, hbuffer]
    by_cases hself : index = caller
    · subst hself
      rw [if_pos rfl, StageRing.advance_self, Nat.mod_add_mod]
    · rw [if_neg hself, StageRing.advance_of_ne hself]
  · rw [(heffect index).2.1, hrefines.pktCnt_eq]
    by_cases hself : index = caller
    · subst hself
      rw [if_pos rfl, StageRing.advance_self,
        StageRing.limit_advance_of_ne (StageRing.add_one_ne index).symm]
      omega
    · rw [if_neg hself, StageRing.advance_of_ne hself]
      have hbound := hrefines.ordered index
      by_cases hnext : index = caller + 1
      · subst hnext
        rw [if_pos rfl, StageRing.limit_advance_add_one]
        omega
      · rw [if_neg hnext, StageRing.limit_advance_of_ne hnext]
  · rw [(heffect index).2.1, (heffect index).2.2]
    have hgranted := hrefines.granted_le index
    split_ifs <;> omega
  · rw [(heffect index).1, (heffect index).2.2, hbuffer]
    have hcontiguous := hrefines.granted_contiguous index
    by_cases hself : index = caller
    · subst hself
      rw [if_pos rfl, if_pos rfl]
      have hpos := hrefines.bufferCount_pos
      rcases Nat.lt_or_ge ((chain.executor index).pktFirst + count) bufferCount with hlt | hge
      · rw [Nat.mod_eq_of_lt hlt]
        omega
      · have hend : (chain.executor index).pktFirst + count = bufferCount := by omega
        rw [hend, Nat.mod_self]
        omega
    · rw [if_neg hself, if_neg hself]
      exact hcontiguous

/-! ### What the executors have passed -/

/-- The chain refines the positions reached by passing, from the first packet of each executor on,
the slots of consecutive packets. -/
def PassedInOrder (bufferCount pktRead : ℕ) (chain : PluginChain plugins)
    (answers : List (Answer plugins)) : Prop :=
  chain.Refines bufferCount
      (fun index ↦ firstPacket pktRead index + (passedSlots answers index).length) ∧
    ∀ index, passedSlots answers index =
      (List.range (passedSlots answers index).length).map fun offset ↦
        (firstPacket pktRead index + offset) % bufferCount

@[simp] theorem passedSlots_append (before after : List (Answer plugins))
    (index : Fin (plugins + 2)) :
    passedSlots (before ++ after) index = passedSlots before index ++ passedSlots after index :=
  List.flatMap_append ..

theorem range'_mod_eq {start count : ℕ} (hcontiguous : start % bufferCount + count ≤ bufferCount) :
    List.range' (start % bufferCount) count =
      (List.range count).map fun offset ↦ (start + offset) % bufferCount := by
  rw [List.range'_eq_map_range]
  refine List.map_congr_left fun offset hoffset ↦ ?_
  have hlt : start % bufferCount + offset < bufferCount := by
    have := List.mem_range.mp hoffset
    omega
  rw [← Nat.mod_add_mod, Nat.mod_eq_of_lt hlt]

theorem PassedInOrder.step {pktRead : ℕ} {next : PluginChain plugins}
    {before after : List (Answer plugins)} {call : Call plugins}
    (hpassed : PassedInOrder bufferCount pktRead chain before)
    (hstep : chain.step call = some (next, after)) :
    PassedInOrder bufferCount pktRead next (before ++ after) := by
  obtain ⟨hrefines, horder⟩ := hpassed
  cases call with
  | waitWork caller =>
    simp only [PluginChain.step, Option.map_eq_some_iff, Prod.mk.injEq, Prod.exists] at hstep
    obtain ⟨_, answer, hwork, rfl, rfl⟩ := hstep
    have hnone : ∀ index, passedSlots [answer] index = [] := by
      intro index
      simp only [PluginChain.waitWork] at hwork
      split_ifs at hwork
      simp only [Option.some.injEq, Prod.mk.injEq] at hwork
      obtain ⟨-, rfl⟩ := hwork
      rfl
    simp only [PassedInOrder, passedSlots_append, hnone, List.append_nil]
    exact ⟨hrefines.waitWork hwork, horder⟩
  | passPackets caller count bitrate inputEnd aborted =>
    simp only [PluginChain.step] at hstep
    split_ifs at hstep with hcount
    simp only [Option.some.injEq, Prod.mk.injEq] at hstep
    obtain ⟨rfl, rfl⟩ := hstep
    have hslots : ∀ index, passedSlots
        [(chain.passPackets caller count bitrate inputEnd aborted).2] index =
          if caller = index then List.range' (chain.executor caller).pktFirst count else [] := by
      intro index
      simp [passedSlots, PluginChain.passPackets]
    have hposition : (fun index ↦ firstPacket pktRead index +
        (passedSlots (before ++ [(chain.passPackets caller count bitrate inputEnd aborted).2])
          index).length) =
        StageRing.advance
          (fun index ↦ firstPacket pktRead index + (passedSlots before index).length) caller
          count := by
      funext index
      rw [passedSlots_append, hslots, List.length_append]
      by_cases hself : index = caller
      · subst hself
        rw [if_pos rfl, StageRing.advance_self, List.length_range', Nat.add_assoc]
      · rw [if_neg (Ne.symm hself), StageRing.advance_of_ne hself, List.length_nil, Nat.add_zero]
    refine ⟨hposition ▸ hrefines.passPackets hcount bitrate inputEnd aborted, fun index ↦ ?_⟩
    rw [passedSlots_append, hslots]
    by_cases hself : caller = index
    · subst hself
      have hcontiguous := hrefines.granted_contiguous caller
      rw [hrefines.pktFirst_eq] at hcontiguous
      rw [if_pos rfl, hrefines.pktFirst_eq, range'_mod_eq (by omega), List.length_append,
        List.length_map, List.length_range, List.range_add, List.map_append, ← horder,
        List.map_map]
      simp [Function.comp_def, Nat.add_assoc]
    · rw [if_neg hself, List.append_nil]
      exact horder index

theorem Refines.existsUnique_area {position : Fin (plugins + 2) → ℕ}
    (hrefines : chain.Refines bufferCount position) {slot : ℕ} (hslot : slot < bufferCount) :
    ∃! index, slot ∈ chain.area index := by
  have hmem : ∀ index, slot ∈ chain.area index ↔ ∃ item, position index ≤ item ∧
      item < StageRing.limit bufferCount position index ∧ item % bufferCount = slot := by
    intro index
    simp only [area, Set.mem_ofPred_eq, hrefines.pktCnt_eq, hrefines.pktFirst_eq,
      hrefines.bufferCount_eq, Nat.mod_add_mod]
    constructor
    · rintro ⟨offset, hoffset, rfl⟩
      exact ⟨position index + offset, by omega, by omega, rfl⟩
    · rintro ⟨item, hlow, hhigh, rfl⟩
      exact ⟨item - position index, by omega, by rw [Nat.add_sub_cancel' hlow]⟩
  simp only [hmem]
  exact hrefines.ordered.existsUnique_stage hslot

/-- Assumes: the input has loaded at most the half of the buffer. In every interleaving of any
calls, the sizes of the areas add up to the buffer size, each area starts where the next one ends,
and every slot is in exactly one area. Every executor passes consecutive packets, each one after the
executor before it, and the input fills a slot again after the output has passed its packet. -/
theorem areas_partition {bufferCount pktRead bitrate : ℕ} {chain last : PluginChain plugins}
    {calls : List (Call plugins)} {answers : List (Answer plugins)}
    (hread : pktRead ≤ bufferCount / 2)
    (hinit : initAllBuffers plugins bufferCount pktRead bitrate = some chain)
    (hrun : (machine plugins).run chain calls = some (last, answers)) :
    (∑ index, (last.executor index).pktCnt = bufferCount) ∧
      (∀ index, (last.executor index).pktFirst =
        ((last.executor (index + 1)).pktFirst + (last.executor (index + 1)).pktCnt) %
          bufferCount) ∧
      (∀ slot < bufferCount, ∃! index, slot ∈ last.area index) ∧
      (∀ index, passedSlots answers index =
        (List.range (passedSlots answers index).length).map fun offset ↦
          (firstPacket pktRead index + offset) % bufferCount) ∧
      (∀ index, index + 1 ≠ 0 →
        firstPacket pktRead (index + 1) + (passedSlots answers (index + 1)).length ≤
          firstPacket pktRead index + (passedSlots answers index).length) ∧
      pktRead + (passedSlots answers 0).length ≤
        (passedSlots answers (Fin.last (plugins + 1))).length + bufferCount := by
  have hstart : PassedInOrder bufferCount pktRead chain [] :=
    ⟨by simpa [passedSlots] using refines_initAllBuffers (by omega) hinit,
      fun index ↦ by simp [passedSlots]⟩
  obtain ⟨hrefines, horder⟩ : PassedInOrder bufferCount pktRead last ([] ++ answers) :=
    (machine plugins).run_history
      (fun _ _ _ _ _ hhistory hstep ↦ PassedInOrder.step hhistory hstep) hstart hrun
  rw [List.nil_append] at hrefines horder
  refine ⟨?_, fun index ↦ ?_, fun slot hslot ↦ hrefines.existsUnique_area hslot, horder,
    fun index hindex ↦ ?_, ?_⟩
  · simp only [hrefines.pktCnt_eq]
    exact hrefines.ordered.sum_held
  · rw [hrefines.pktFirst_eq, hrefines.pktFirst_eq, hrefines.pktCnt_eq, Nat.mod_add_mod,
      Nat.add_sub_cancel' (hrefines.ordered _), StageRing.limit_add_one]
    split_ifs <;> simp
  · have hbound := hrefines.ordered (index + 1)
    rw [StageRing.limit_add_one, if_neg hindex] at hbound
    exact hbound
  · have hbound := hrefines.ordered (Fin.last (plugins + 1) + 1)
    rw [StageRing.limit_add_one, Fin.last_add_one, if_pos rfl] at hbound
    simpa [firstPacket] using hbound

/-- One processor and four packets, half of them loaded: the input reads three packets in two steps.
-/
theorem areas_partition_one_processor : ∃ chain last answers, initAllBuffers 1 4 2 0 = some chain ∧
      (machine 1).run chain [.waitWork 1, .passPackets 1 2 0 false false, .waitWork 2,
        .passPackets 2 1 0 false false, .waitWork 0, .passPackets 0 2 0 false false, .waitWork 0,
        .passPackets 0 1 0 false false] = some (last, answers) ∧
      passedSlots answers 0 = [2, 3, 0] ∧
      ∑ index, (last.executor index).pktCnt = 4 := by
  obtain ⟨chain, last, answers, hinit, hrun, hslots⟩ : ∃ chain last answers,
      initAllBuffers 1 4 2 0 = some chain ∧
        (machine 1).run chain [.waitWork 1, .passPackets 1 2 0 false false, .waitWork 2,
          .passPackets 2 1 0 false false, .waitWork 0, .passPackets 0 2 0 false false, .waitWork 0,
          .passPackets 0 1 0 false false] = some (last, answers) ∧
        passedSlots answers 0 = [2, 3, 0] :=
    ⟨_, _, _, rfl, rfl, rfl⟩
  exact ⟨chain, last, answers, hinit, hrun, hslots, (areas_partition (by decide) hinit hrun).1⟩

/-! ### Progress and end of the input -/

section Runs

variable {next last : PluginChain plugins} {caller : Fin (plugins + 2)} {pktRead rate : ℕ}
  {call : Call plugins} {calls : List (Call plugins)} {answers : List (Answer plugins)}

theorem passedInOrder_of_run (hread : pktRead ≤ bufferCount)
    (hinit : initAllBuffers plugins bufferCount pktRead rate = some chain)
    (hrun : (machine plugins).run chain calls = some (last, answers)) :
    PassedInOrder bufferCount pktRead last answers := by
  have hstart : PassedInOrder bufferCount pktRead chain [] :=
    ⟨by simpa [passedSlots] using refines_initAllBuffers hread hinit,
      fun index ↦ by simp [passedSlots]⟩
  exact (machine plugins).run_history
    (fun _ _ _ _ _ hhistory hstep ↦ PassedInOrder.step hhistory hstep) hstart hrun

/-- In every reachable state, one of the executors does not wait, and it can pass its next packet. -/
theorem exists_progress_of_run (hread : pktRead ≤ bufferCount)
    (hinit : initAllBuffers plugins bufferCount pktRead rate = some chain)
    (hrun : (machine plugins).run chain calls = some (last, answers)) (bitrate : ℕ)
    (inputEnd aborted : Bool) :
    ∃ caller next more, (machine plugins).run last
        [.waitWork caller, .passPackets caller 1 bitrate inputEnd aborted] = some (next, more) ∧
      passedSlots more caller =
        [(firstPacket pktRead caller + (passedSlots answers caller).length) % bufferCount] := by
  obtain ⟨hrefines, -⟩ := passedInOrder_of_run hread hinit hrun
  have hsum : ∑ index, (last.executor index).pktCnt = bufferCount := by
    simp only [hrefines.pktCnt_eq]
    exact hrefines.ordered.sum_held
  obtain ⟨caller, -, hheld⟩ : ∃ caller ∈ Finset.univ, (last.executor caller).pktCnt ≠ 0 :=
    Finset.exists_ne_zero_of_sum_ne_zero (hsum ▸ hrefines.bufferCount_pos.ne')
  have hfirst : (last.executor caller).pktFirst < last.bufferCount := by
    rw [hrefines.pktFirst_eq, hrefines.bufferCount_eq]
    exact Nat.mod_lt _ hrefines.bufferCount_pos
  have hgranted : 1 ≤ min (last.executor caller).pktCnt
      (last.bufferCount - (last.executor caller).pktFirst) := by omega
  have hwork : last.waitWork caller = some (_, _) := if_neg fun hwaits ↦ hheld hwaits.1
  refine ⟨caller, _, _, (Machine.run_cons_eq_some _).mpr ⟨_, _, _, congrArg (Option.map _) hwork,
    (Machine.run_cons_eq_some _).mpr ⟨_, _, _, if_pos ?_, rfl, rfl⟩, rfl⟩, ?_⟩
  · simpa using hgranted
  · simp [passedSlots, passPackets, hrefines.pktFirst_eq]

theorem exists_progress_one_processor : ∃ chain last answers,
    initAllBuffers 1 4 2 0 = some chain ∧
      (machine 1).run chain [.waitWork 1, .passPackets 1 2 0 false false] = some (last, answers) ∧
      ∃ caller next more, (machine 1).run last
          [.waitWork caller, .passPackets caller 1 0 true true] = some (next, more) ∧
        passedSlots more caller =
          [(firstPacket 2 caller + (passedSlots answers caller).length) % 4] := by
  obtain ⟨chain, last, answers, hinit, hrun⟩ : ∃ chain last answers,
    initAllBuffers 1 4 2 0 = some chain ∧ (machine 1).run chain
      [.waitWork 1, .passPackets 1 2 0 false false] = some (last, answers) := ⟨_, _, _, rfl, rfl⟩
  exact ⟨chain, last, answers, hinit, hrun,
    exists_progress_of_run (by decide) hinit hrun 0 true true⟩

theorem exists_granted_of_waitWork
    (hstep : (machine plugins).step chain (.waitWork caller) = some (next, answers)) :
    ∃ granted, next = chain.update caller { chain.executor caller with granted } ∧
      answers = [.work caller (chain.executor caller).pktFirst granted
        (chain.executor caller).bitrate
        ((chain.executor caller).inputEnd && granted == (chain.executor caller).pktCnt)
        (chain.executor (caller + 1)).tspAborting] := by
  obtain ⟨_, hwork, heq⟩ := Option.map_eq_some_iff.mp hstep
  obtain ⟨rfl, rfl⟩ := Prod.mk.inj heq
  obtain ⟨-, heq⟩ := Option.ite_none_left_eq_some.mp hwork
  obtain rfl := Option.some.inj heq
  exact ⟨_, rfl, rfl⟩

theorem inputEnd_update {index other : Fin (plugins + 2)} {executor : PluginExecutor}
    (hexecutor : (chain.executor other).inputEnd = true → executor.inputEnd = true)
    (hended : (chain.executor index).inputEnd = true) :
    ((chain.update other executor).executor index).inputEnd = true := by
  rcases eq_or_ne index other with rfl | hother
  · simpa using hexecutor hended
  · rwa [update_executor_of_ne hother]

theorem inputEnd_of_step (hstep : (machine plugins).step chain call = some (next, answers))
    {index : Fin (plugins + 2)} (hended : (chain.executor index).inputEnd = true) :
    (next.executor index).inputEnd = true := by
  cases call with
  | waitWork caller =>
    obtain ⟨_, rfl, -⟩ := exists_granted_of_waitWork hstep
    exact inputEnd_update id hended
  | passPackets caller count bitrate inputEnd aborted =>
    obtain ⟨-, heq⟩ := Option.ite_none_right_eq_some.mp hstep
    obtain ⟨rfl, -⟩ := Prod.mk.inj (Option.some.inj heq)
    simp only [passPackets]
    split_ifs
    · exact inputEnd_update id (inputEnd_update Bool.or_inl (inputEnd_update id hended))
    · exact inputEnd_update Bool.or_inl (inputEnd_update id hended)

/-- An executor which has told the next one that no more packets will come passes none. -/
def StopsAtEnd (chain : PluginChain plugins) : Call plugins → Prop
  | .waitWork _ => True
  | .passPackets caller .. => (chain.executor (caller + 1)).inputEnd = false

theorem passedSlots_of_ended (hended : (chain.executor (caller + 1)).inputEnd = true)
    (hmeets : (machine plugins).Meets StopsAtEnd chain calls)
    (hrun : (machine plugins).run chain calls = some (last, answers)) :
    passedSlots answers caller = [] := by
  induction calls generalizing chain answers with
  | nil =>
    obtain ⟨-, rfl⟩ := Prod.mk.inj (Option.some.inj hrun)
    rfl
  | cons call calls ih =>
    obtain ⟨next, first, _, hstep, hrest, rfl⟩ := (Machine.run_cons_eq_some _).mp hrun
    obtain ⟨hstops, hlater⟩ := hmeets
    rw [passedSlots_append, ih (inputEnd_of_step hstep hended) (hlater _ _ hstep) hrest,
      List.append_nil]
    cases call with
    | waitWork other =>
      obtain ⟨_, -, rfl⟩ := exists_granted_of_waitWork hstep
      rfl
    | passPackets other count bitrate inputEnd aborted =>
      obtain ⟨-, heq⟩ := Option.ite_none_right_eq_some.mp hstep
      obtain ⟨-, rfl⟩ := Prod.mk.inj (Option.some.inj heq)
      have hother : other ≠ caller := by
        rintro rfl
        exact Bool.false_ne_true (hstops.symm.trans hended)
      simp [passedSlots, passPackets, hother]

/-- Assumes: no executor passes packets after it has declared the end. When an executor is told that
its input ends, its area holds all the packets which the executor before it will ever pass. -/
theorem end_of_run {before after : List (Call plugins)} {passed later : List (Answer plugins)}
    {pktFirst pktCnt bitrate : ℕ} {aborted : Bool} (hcaller : caller + 1 ≠ 0)
    (hread : pktRead ≤ bufferCount)
    (hinit : initAllBuffers plugins bufferCount pktRead rate = some chain)
    (hmeets : (machine plugins).Meets StopsAtEnd chain (before ++ .waitWork (caller + 1) :: after))
    (hbefore : (machine plugins).run chain before = some (next, passed))
    (hafter : (machine plugins).run next (.waitWork (caller + 1) :: after) =
      some (last, .work (caller + 1) pktFirst pktCnt bitrate true aborted :: later)) :
    firstPacket pktRead (caller + 1) + (passedSlots passed (caller + 1)).length + pktCnt =
      firstPacket pktRead caller + (passedSlots (passed ++ later) caller).length := by
  obtain ⟨hrefines, -⟩ := passedInOrder_of_run hread hinit hbefore
  obtain ⟨_, _, rest, hstep, hrest, heq⟩ := (Machine.run_cons_eq_some _).mp hafter
  obtain ⟨granted, -, rfl⟩ := exists_granted_of_waitWork hstep
  simp only [List.singleton_append, List.cons.injEq, Answer.work.injEq, true_and] at heq
  obtain ⟨⟨-, rfl, -, hend, -⟩, rfl⟩ := heq
  obtain ⟨hended, hwhole⟩ := Bool.and_eq_true_iff.mp hend.symm
  have hlater := (Machine.Meets.following _ hmeets hbefore).2 _ _ hstep
  rw [passedSlots_append,
    passedSlots_of_ended (inputEnd_of_step hstep hended) hlater hrest, List.append_nil,
    beq_iff_eq.mp hwhole, hrefines.pktCnt_eq, Nat.add_sub_cancel' (hrefines.ordered _),
    StageRing.limit_add_one, if_neg hcaller, Nat.add_zero]

theorem end_one_processor : 0 + 0 + 2 = 0 + (passedSlots
    ([.work 1 0 2 0 false false, .passed 1 0 2 false] ++ []) (1 : Fin 3)).length := by
  obtain ⟨chain, next, last, hinit, hbefore, hafter⟩ : ∃ chain next last,
    initAllBuffers 1 4 2 0 = some chain ∧
      (machine 1).run chain [.waitWork 1, .passPackets 1 2 0 true false] =
        some (next, [.work 1 0 2 0 false false, .passed 1 0 2 false]) ∧
      (machine 1).run next [.waitWork 2] = some (last, [.work 2 0 2 0 true false]) :=
    ⟨_, _, _, rfl, rfl, rfl⟩
  have hmeets : (machine 1).Meets StopsAtEnd chain
      [.waitWork 1, .passPackets 1 2 0 true false, .waitWork 2] := by
    obtain rfl := Option.some.inj hinit
    exact Machine.meets_cons_of_step _ rfl trivial (Machine.meets_cons_of_step _ rfl rfl
      (Machine.meets_cons_of_step _ rfl trivial trivial))
  exact end_of_run (show (1 : Fin 3) + 1 ≠ 0 by decide) (by decide) hinit hmeets hbefore hafter

end Runs

end PluginChain

end TSDuck.Tsp
