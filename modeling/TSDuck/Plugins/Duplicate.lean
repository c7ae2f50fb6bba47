import TSDuck.Library.Machine
import TSDuck.Mpeg.PacketWriter
import TSDuck.Xml.Scan

/-!
# Duplication of PIDs

The packets of some PIDs are copied with another PID, and the copies wait in a bounded queue until they
replace null packets.

The new PIDs of a range are not checked, and a queue of no packet is accepted. `isQueue_iff` states in
which runs the plugin is a queue from the selected packets to the null ones.
-/

namespace TSDuck

structure DuplicateOptions where
  parameters : List UString
  maxBuffered : ℕ
  unchecked : Bool

structure DuplicatePlugin where
  ignoreConflicts : Bool
  maxBuffered : ℕ
  newPIDs : ℕ → Bool
  pidMap : ℕ → Option ℕ
  queue : List TSPacket

namespace DuplicatePlugin

/-- The plugin stops with an error, or goes out of a set or of a queue. -/
inductive Stop
  | error
  | failed

/-- The first and the last PID, and the first new one, as 16-bit words. -/
def scanPIDs (param : UString) : Option (ℕ × ℕ × ℕ) :=
  let pid (scanned : UString.Scanned) (index : ℕ) : ℕ :=
    (scanned.values.getD index 0 % 2 ^ 16).toNat
  let simple := UString.scan ['%', 'd', '=', '%', 'd'] param
  let range := UString.scan ['%', 'd', '-', '%', 'd', '=', '%', 'd'] param
  if simple.isComplete then some (pid simple 0, pid simple 0, pid simple 1)
  else if range.isComplete then some (pid range 0, pid range 1, pid range 2)
  else none

/-- The PIDs of a parameter with their new PIDs, or an error. -/
def duplications (param : UString) : List (Option (ℕ × ℕ)) :=
  match scanPIDs param with
  | none => [none]
  | some (pid1, pid2, newpid) =>
    if pid2 < pid1 ∨ pidNull ≤ pid2 then [none]
    else if pid1 = newpid then []
    else (List.range (pid2 + 1 - pid1)).map fun index ↦ some (pid1 + index, newpid + index)

variable (plugin : DuplicatePlugin) (pkt : TSPacket)

def duplicate : Option (ℕ × ℕ) → Except Stop DuplicatePlugin
  | none => .error .error
  | some (pid, newpid) =>
    if (plugin.pidMap pid).any (· ≠ newpid) then .error .error
    -- The set is tested, unless conflicts are ignored, and then set.
    else if pidNull < newpid then .error .failed
    else if !plugin.ignoreConflicts && plugin.newPIDs newpid then .error .error
    else .ok { plugin with
      pidMap := Function.update plugin.pidMap pid (some newpid)
      newPIDs := Function.update plugin.newPIDs newpid true }

def clear (options : DuplicateOptions) : DuplicatePlugin where
  ignoreConflicts := options.unchecked
  maxBuffered := options.maxBuffered
  newPIDs := fun _ ↦ false
  pidMap := fun _ ↦ none
  queue := []

def getOptions (options : DuplicateOptions) : Except Stop DuplicatePlugin :=
  (options.parameters.flatMap duplications).foldlM duplicate (clear options)

def start : DuplicatePlugin := { plugin with queue := [] }

def processPacket : Except Stop (TSPacket × DuplicatePlugin) :=
  let newpid := plugin.pidMap pkt.getPID
  if !plugin.ignoreConflicts && newpid.isNone && plugin.newPIDs pkt.getPID then .error .error
  else
    let inserts := pkt.getPID == pidNull && !plugin.queue.isEmpty
    let output := if inserts then plugin.queue.headD pkt else pkt
    let queue := if inserts then plugin.queue.tail else plugin.queue
    match newpid with
    | none => .ok (output, { plugin with queue })
    | some newpid =>
      if plugin.maxBuffered ≤ queue.length then
        match queue with
        | [] => .error .failed
        | _ :: rest => .ok (output, { plugin with queue := rest ++ [output.setPID newpid] })
      else .ok (output, { plugin with queue := queue ++ [output.setPID newpid] })

/-- The copy of a selected packet. -/
def copy : Option TSPacket := (plugin.pidMap pkt.getPID).map pkt.setPID

/-- A copy which leaves the queue, with the queue. -/
structure Departure where
  copy : TSPacket
  inserted : Bool
  pending : List TSPacket

/-- A plugin, whether it has stopped, the packets which were processed, those which were written with
the packet that each of them replaces, and the copies which have left. -/
structure Traced where
  plugin : DuplicatePlugin
  ended : Bool
  processed : List TSPacket
  written : List (TSPacket × Option TSPacket)
  left : List Departure

def departures : List Departure :=
  if pkt.getPID = pidNull ∨ (plugin.pidMap pkt.getPID).isSome ∧ plugin.maxBuffered ≤ plugin.queue.length
  then plugin.queue.head?.toList.map fun copy ↦ ⟨copy, pkt.getPID == pidNull, plugin.queue⟩
  else []

def replaced : Option TSPacket :=
  if pkt.getPID = pidNull ∧ plugin.queue ≠ [] then some pkt else none

namespace Traced

variable (traced : Traced) (pkt : TSPacket)

def new (plugin : DuplicatePlugin) : Traced := ⟨plugin.start, false, [], [], []⟩

/-- A packet was processed. -/
def process (output : TSPacket) (queue : List TSPacket) : Traced where
  plugin := { traced.plugin with queue }
  ended := false
  processed := traced.processed ++ [pkt]
  written := traced.written ++ [(output, traced.plugin.replaced pkt)]
  left := traced.left ++ traced.plugin.departures pkt

def step : Option Traced :=
  if traced.ended then some traced
  else match traced.plugin.processPacket pkt with
    | .error .error => some { traced with ended := true }
    | .error .failed => none
    | .ok (output, next) => some (traced.process pkt output next.queue)

/-- A queue from the selected packets to the null ones, which loses its oldest packet when it is
full. -/
structure IsFIFO : Prop where
  restored : traced.written.map (fun packet ↦ packet.2.getD packet.1) = traced.processed
  nulls : ∀ packet ∈ traced.written, ∀ null ∈ packet.2, null.getPID = pidNull
  copies : traced.processed.filterMap traced.plugin.copy =
    traced.left.map (·.copy) ++ traced.plugin.queue
  inserted : traced.written.filterMap (fun packet ↦ packet.2.map fun _ ↦ packet.1) =
    (traced.left.filter (·.inserted)).map (·.copy)
  oldest : ∀ departure ∈ traced.left, departure.pending.head? = some departure.copy ∧
    (departure.inserted = false → departure.pending.length = traced.plugin.maxBuffered)
  pending : traced.plugin.queue.length ≤ traced.plugin.maxBuffered

/-- No packet is selected when the queue has no place. -/
def IsSafe : Prop :=
  traced.ended = false → (traced.plugin.pidMap pkt.getPID).isSome → 0 < traced.plugin.maxBuffered

def machine : Machine Traced TSPacket Unit where
  step traced pkt := (traced.step pkt).map (·, [])

end Traced

/-- The options and the packets never make the plugin fail, and it is a queue. -/
def IsRight (options : DuplicateOptions) (packets : List TSPacket) : Prop :=
  getOptions options ≠ .error .failed ∧ ∀ plugin, getOptions options = .ok plugin →
    (∃ last, Traced.machine.run (Traced.new plugin) packets = some last) ∧
      Traced.machine.HoldsAlong Traced.IsFIFO (fun _ ↦ True) (Traced.new plugin) packets

/-- The decoding of the options. -/
def decoder : Machine DuplicatePlugin (Option (ℕ × ℕ)) Unit where
  step plugin duplication := (plugin.duplicate duplication).toOption.map (·, [])

/-- A new PID is in range, unless the PID has already another one. -/
def IsInRange (duplication : Option (ℕ × ℕ)) : Prop :=
  ∀ pids ∈ duplication, (plugin.pidMap pids.1).any (· ≠ pids.2) ∨ pids.2 ≤ pidNull

variable {plugin pkt} {traced : Traced} {options : DuplicateOptions}

theorem duplicate_eq_failed_iff {duplication : Option (ℕ × ℕ)} :
    plugin.duplicate duplication = .error .failed ↔ ¬ plugin.IsInRange duplication := by
  rw [IsInRange]
  cases duplication with
  | none => exact iff_of_false nofun (not_not.mpr nofun)
  | some pids =>
    rw [duplicate]
    split_ifs with htwice hrange hconflict
    · exact iff_of_false nofun (not_not.mpr fun _ h ↦ .inl (Option.some.inj h ▸ htwice))
    · refine iff_of_true rfl fun hsafe ↦ ?_
      exact (hsafe pids rfl).elim htwice fun hle ↦ absurd hrange (not_lt.mpr hle)
    all_goals
      exact iff_of_false nofun (not_not.mpr fun _ h ↦ .inr (Option.some.inj h ▸ not_lt.mp hrange))

theorem foldlM_duplicate_ne_failed_iff (requests : List (Option (ℕ × ℕ))) :
    requests.foldlM duplicate plugin ≠ .error .failed ↔ decoder.Meets IsInRange plugin requests := by
  induction requests generalizing plugin with
  | nil => exact iff_of_true nofun trivial
  | cons request rest ih =>
    have hfailed := @duplicate_eq_failed_iff plugin request
    rw [List.foldlM_cons, Machine.Meets]
    simp only [decoder]
    cases hrequest : plugin.duplicate request with
    | ok next =>
      rw [hrequest] at hfailed
      rw [and_iff_right (not_not.mp (mt hfailed.mpr nofun))]
      refine ih.trans ⟨?_, fun hrest ↦ hrest next [] rfl⟩
      rintro hnext _ _ ⟨⟩
      exact hnext
    | error stop =>
      cases stop with
      | error =>
        rw [hrequest] at hfailed
        exact iff_of_true nofun ⟨not_not.mp (mt hfailed.mpr nofun), fun _ _ ↦ nofun⟩
      | failed => exact iff_of_false (· rfl) fun hmeets ↦ hfailed.mp hrequest hmeets.1

/-- The null PID is not duplicated. -/
theorem pidMap_pidNull {last : DuplicatePlugin} {requests : List (Option (ℕ × ℕ))}
    (hrequests : ∀ request ∈ requests, ∀ pids ∈ request, pids.1 ≠ pidNull)
    (hnull : plugin.pidMap pidNull = none) (hlast : requests.foldlM duplicate plugin = .ok last) :
    last.pidMap pidNull = none := by
  induction requests generalizing plugin with
  | nil => exact Except.ok.inj hlast ▸ hnull
  | cons request rest ih =>
    rw [List.forall_mem_cons] at hrequests
    rw [List.foldlM_cons] at hlast
    cases hrequest : plugin.duplicate request with
    | error => rw [hrequest] at hlast; cases hlast
    | ok next =>
      rw [hrequest] at hlast
      refine ih hrequests.2 ?_ hlast
      cases request with
      | none => cases hrequest
      | some pids =>
        rw [duplicate] at hrequest
        split_ifs at hrequest
        cases hrequest
        exact (Function.update_of_ne (Ne.symm (hrequests.1 pids rfl)) _ _).trans hnull

theorem getOptions_pidNull (hplugin : getOptions options = .ok plugin) :
    plugin.pidMap pidNull = none := by
  refine pidMap_pidNull (fun request hrequest pids hpids ↦ ?_) rfl hplugin
  obtain ⟨param, -, hparam⟩ := List.mem_flatMap.mp hrequest
  rw [duplications] at hparam
  split at hparam
  · cases List.mem_singleton.mp hparam
    cases hpids
  · split_ifs at hparam with hrange
    · cases List.mem_singleton.mp hparam
      cases hpids
    · cases hparam
    · obtain ⟨index, hindex, rfl⟩ := List.mem_map.mp hparam
      cases hpids
      rw [List.mem_range] at hindex
      dsimp only
      omega

namespace Traced

/-- What a packet must do for the queue to remain one. -/
theorem IsFIFO.process (hfifo : traced.IsFIFO) {output : TSPacket} {queue : List TSPacket}
    {replaced : Option TSPacket} {left : List Departure}
    (hreplaced : traced.plugin.replaced pkt = replaced) (hleft : traced.plugin.departures pkt = left)
    (houtput : replaced.getD output = pkt)
    (hqueue : traced.plugin.queue ++ (traced.plugin.copy pkt).toList = left.map (·.copy) ++ queue)
    (hinserted : (replaced.map fun _ ↦ output).toList = (left.filter (·.inserted)).map (·.copy))
    (holdest : ∀ departure ∈ left, departure.pending.head? = some departure.copy ∧
      (departure.inserted = false → departure.pending.length = traced.plugin.maxBuffered))
    (hpending : queue.length ≤ traced.plugin.maxBuffered) :
    (traced.process pkt output queue).IsFIFO := by
  have hnull : ∀ null ∈ replaced, null.getPID = pidNull := by
    rw [← hreplaced, DuplicatePlugin.replaced]
    split_ifs with hpid
    · rintro _ ⟨⟩
      exact hpid.1
    · exact nofun
  have hcopy : [pkt].filterMap traced.plugin.copy = (traced.plugin.copy pkt).toList := by
    cases hcopy : traced.plugin.copy pkt <;> simp [hcopy]
  subst hreplaced hleft
  refine ⟨?_, fun packet hpacket null ↦ ?_, ?_, ?_, fun departure hdeparture ↦ ?_, hpending⟩
  · rw [Traced.process, List.map_append, hfifo.restored, List.map_singleton, houtput]
  · rcases List.mem_append.mp hpacket with hpacket | hpacket
    · exact hfifo.nulls packet hpacket null
    · rw [List.mem_singleton.mp hpacket]
      exact hnull null
  · rw [Traced.process, List.filterMap_append, List.map_append, List.append_assoc, ← hqueue,
      ← List.append_assoc]
    exact congrArg₂ (· ++ ·) hfifo.copies hcopy
  · rw [Traced.process, List.filterMap_append, hfifo.inserted, List.filter_append, List.map_append,
      ← hinserted]
    cases traced.plugin.replaced pkt <;> rfl
  · exact (List.mem_append.mp hdeparture).elim (hfifo.oldest departure) (holdest departure)

theorem IsFIFO.step_selected (hfifo : traced.IsFIFO) {newpid : ℕ} (hpid : pkt.getPID ≠ pidNull)
    (hnewpid : traced.plugin.pidMap pkt.getPID = some newpid) (hpositive : 0 < traced.plugin.maxBuffered) :
    ∃ output next, traced.plugin.processPacket pkt = .ok (output, next) ∧
      (traced.process pkt output next.queue).IsFIFO := by
  have hpending := hfifo.pending
  have hreplaced : traced.plugin.replaced pkt = none := if_neg (hpid ·.1)
  have hcopy : traced.plugin.copy pkt = some (pkt.setPID newpid) := by rw [copy, hnewpid]; rfl
  rw [processPacket, hnewpid]
  simp only [Option.isNone_some, Bool.and_false, Bool.false_and, Bool.false_eq_true, if_false,
    beq_false_of_ne hpid]
  split_ifs with hfull
  · have hleft : traced.plugin.departures pkt = traced.plugin.queue.head?.toList.map fun copy ↦
        ⟨copy, false, traced.plugin.queue⟩ := by
      rw [departures, if_pos (.inr ⟨by rw [hnewpid]; rfl, hfull⟩), beq_false_of_ne hpid]
    cases hqueue : traced.plugin.queue with
    | nil => rw [hqueue] at hfull; exact absurd hpositive (Nat.not_lt.mpr hfull)
    | cons front rest =>
      rw [hqueue] at hleft hfull hpending
      exact ⟨_, _, rfl, hfifo.process hreplaced hleft rfl (by rw [hqueue, hcopy]; rfl) rfl
        (List.forall_mem_singleton.mpr ⟨rfl, fun _ ↦ le_antisymm hpending hfull⟩)
        (by rwa [List.length_append, List.length_singleton])⟩
  · have hleft : traced.plugin.departures pkt = [] :=
      if_neg (not_or.mpr ⟨hpid, fun hlost ↦ hfull hlost.2⟩)
    exact ⟨_, _, rfl, hfifo.process hreplaced hleft rfl (by rw [hcopy]; rfl) rfl nofun
      (by rw [List.length_append, List.length_singleton]; omega)⟩

theorem IsFIFO.step_other (hfifo : traced.IsFIFO) (hnewpid : traced.plugin.pidMap pkt.getPID = none) :
    traced.plugin.processPacket pkt = .error .error ∨
      ∃ output next, traced.plugin.processPacket pkt = .ok (output, next) ∧
        (traced.process pkt output next.queue).IsFIFO := by
  have hpending := hfifo.pending
  have hcopy : traced.plugin.copy pkt = none := by rw [copy, hnewpid]; rfl
  rw [processPacket, hnewpid]
  dsimp only
  split_ifs with hconflict hinserts
  · exact .inl rfl
  · rw [Bool.and_eq_true, beq_iff_eq, Bool.not_eq_true', List.isEmpty_eq_false_iff] at hinserts
    have hreplaced : traced.plugin.replaced pkt = some pkt := if_pos hinserts
    have hleft : traced.plugin.departures pkt = traced.plugin.queue.head?.toList.map fun copy ↦
        ⟨copy, true, traced.plugin.queue⟩ := by
      rw [departures, if_pos (.inl hinserts.1), beq_iff_eq.mpr hinserts.1]
    cases hqueue : traced.plugin.queue with
    | nil => exact absurd hqueue hinserts.2
    | cons front rest =>
      rw [hqueue] at hleft hpending
      exact .inr ⟨_, _, rfl, hfifo.process hreplaced hleft rfl
        (by rw [hqueue, hcopy, Option.toList_none, List.append_nil]; rfl) rfl
        (List.forall_mem_singleton.mpr ⟨rfl, nofun⟩) ((Nat.le_succ _).trans hpending)⟩
  · rw [Bool.and_eq_true, beq_iff_eq, Bool.not_eq_true', List.isEmpty_eq_false_iff] at hinserts
    have hleft : traced.plugin.departures pkt = [] := by
      rw [departures, hnewpid]
      split_ifs with hleaves
      · have hpid := hleaves.resolve_right fun hlost ↦ Bool.false_ne_true hlost.1
        rw [not_not.mp (not_and.mp hinserts hpid)]
        rfl
      · rfl
    exact .inr ⟨_, _, rfl, hfifo.process (if_neg hinserts) hleft rfl
      (by rw [hcopy, Option.toList_none, List.append_nil]; rfl) rfl nofun hpending⟩

/-- One packet, when it does not make the plugin fail. -/
theorem IsFIFO.step (hfifo : traced.IsFIFO) (hnull : traced.plugin.pidMap pidNull = none)
    (hsafe : traced.IsSafe pkt) :
    ∃ next, traced.step pkt = some next ∧ next.IsFIFO ∧ next.plugin.pidMap pidNull = none := by
  rw [Traced.step]
  cases hended : traced.ended with
  | true => exact ⟨traced, rfl, hfifo, hnull⟩
  | false =>
  rw [if_neg Bool.false_ne_true]
  cases hnewpid : traced.plugin.pidMap pkt.getPID with
  | some newpid =>
    have hpid : pkt.getPID ≠ pidNull := fun heq ↦ by rw [heq, hnull] at hnewpid; cases hnewpid
    obtain ⟨output, next, hprocess, hnext⟩ :=
      hfifo.step_selected hpid hnewpid (hsafe hended (by rw [hnewpid]; rfl))
    rw [hprocess]
    exact ⟨_, rfl, hnext, hnull⟩
  | none =>
    obtain hprocess | ⟨output, next, hprocess, hnext⟩ := hfifo.step_other hnewpid <;> rw [hprocess]
    · exact ⟨_, rfl, ⟨hfifo.restored, hfifo.nulls, hfifo.copies, hfifo.inserted, hfifo.oldest,
        hfifo.pending⟩, hnull⟩
    · exact ⟨_, rfl, hnext, hnull⟩

theorem IsFIFO.isSafe (hfifo : traced.IsFIFO) {next : Traced} (hnext : traced.step pkt = some next) :
    traced.IsSafe pkt := by
  intro hended hselected
  obtain ⟨newpid, hnewpid⟩ := Option.isSome_iff_exists.mp hselected
  by_contra hzero
  have hqueue : traced.plugin.queue = [] :=
    List.eq_nil_of_length_eq_zero (by have := hfifo.pending; omega)
  rw [Traced.step, hended, if_neg Bool.false_ne_true, processPacket, hnewpid, hqueue] at hnext
  simp [Nat.eq_zero_of_not_pos hzero] at hnext

end Traced

open Traced in
/-- The plugin is a queue exactly when no step of the decoding gives a new PID out of range and no
selected packet finds a queue without a place. -/
theorem isQueue_iff (options : DuplicateOptions) (packets : List TSPacket) :
    IsRight options packets ↔
      decoder.Meets IsInRange (clear options) (options.parameters.flatMap duplications) ∧
        ∀ plugin, getOptions options = .ok plugin → machine.Meets IsSafe (new plugin) packets := by
  rw [← foldlM_duplicate_ne_failed_iff]
  refine and_congr_right fun _ ↦ forall₂_congr fun plugin hplugin ↦ ?_
  have hnull := getOptions_pidNull hplugin
  have hstart : (new plugin).IsFIFO ∧ (new plugin).plugin.pidMap pidNull = none :=
    ⟨⟨rfl, nofun, rfl, rfl, nofun, Nat.zero_le _⟩, hnull⟩
  have hiff {last} (hrun : machine.run (new plugin) packets = some last) :
      machine.HoldsAlong IsFIFO (fun _ ↦ True) (new plugin) packets ↔
        machine.Meets IsSafe (new plugin) packets := by
    refine machine.holdsAlong_iff_meets
      (fun traced (hsound : traced.IsFIFO ∧ traced.plugin.pidMap pidNull = none) ↦ hsound.1) ?_ ?_
      (fun _ _ ↦ trivial) hstart hrun
    · rintro traced pkt next outputs - ⟨hfifo, hnull⟩ hsafe hnext
      obtain ⟨other, hother, hright⟩ := hfifo.step hnull hsafe
      cases (congrArg (Option.map (·, [])) hother).symm.trans hnext
      exact ⟨hright, fun _ _ ↦ trivial⟩
    · rintro traced pkt next outputs - ⟨hfifo, -⟩ hunsafe hnext
      obtain ⟨other, hother, -⟩ := Option.map_eq_some_iff.mp hnext
      exact absurd (hfifo.isSafe hother) hunsafe
  refine ⟨fun ⟨⟨last, hrun⟩, halong⟩ ↦ (hiff hrun).mp halong, fun hmeets ↦ ?_⟩
  obtain ⟨last, outputs, hrun, -⟩ := @machine.exists_run_history_of_meets _ _ _ _ _ [] _
    (fun traced _ ↦ traced.IsFIFO ∧ traced.plugin.pidMap pidNull = none)
    (fun traced pkt _ ⟨hfifo, hnull⟩ hsafe ↦
      let ⟨next, hnext, hright⟩ := hfifo.step hnull hsafe
      ⟨next, [], congrArg (Option.map (·, [])) hnext, hright⟩)
    hstart hmeets
  exact ⟨⟨_, hrun⟩, (hiff hrun).mpr hmeets⟩

/-- The new PID does not exist. -/
theorem not_isQueue_range :
    ¬ IsRight ⟨[['1', '=', '8', '1', '9', '2']], 1024, false⟩ [] :=
  fun hright ↦ hright.1 (by rfl)

end DuplicatePlugin

end TSDuck
