import TSDuck.Mpeg.PtsSequence
import TSDuck.Scte35.SpliceInformationTable
import Mathlib.Data.List.DropRight

/-!
# Injection of splice commands

Listener threads receive splice information tables and enqueue commands.

`SpliceInject.machine` interleaves the operations of the queue. `losesNothing_of_run` states that no
command is lost in the runs where no command is enqueued in front of the one which is peeked, and
where no PTS is compared with one which is half of the circle behind.

Scope. The assertions are not compiled. The sections of a table and their packets are those of other
modules: a command is injected when its section is provided.
-/

namespace TSDuck

universe u

namespace MessagePriorityQueue

variable {Message : Type u}

def insert (less : Message → Message → Bool) (message : Message) (queue : List Message) :
    List Message :=
  queue.rdropWhile (less message) ++ message :: queue.rtakeWhile (less message)

theorem insert_perm (less : Message → Message → Bool) (message : Message) (queue : List Message) :
    (insert less message queue).Perm (message :: queue) := by
  refine List.perm_middle.trans (List.Perm.cons message ?_)
  rw [List.rdropWhile_append_rtakeWhile]

theorem head?_insert {less : Message → Message → Bool} {message first : Message}
    {queue : List Message} (hhead : queue.head? = some first)
    (hless : less message first = false) :
    (insert less message queue).head? = some first := by
  have hne : queue.rdropWhile (less message) ≠ [] := by
    intro hnil
    have hall := List.rdropWhile_eq_nil_iff.mp hnil first (List.mem_of_head? hhead)
    rw [hless] at hall
    exact Bool.false_ne_true hall
  obtain ⟨others, hothers⟩ := List.rdropWhile_prefix (less message) queue
  obtain ⟨head, rest, hrest⟩ := List.exists_cons_of_ne_nil hne
  rw [hrest] at hothers
  rw [← hothers] at hhead
  rw [insert, hrest]
  exact hhead

end MessagePriorityQueue

/-! ### Commands -/

def systemClockSubfreq : ℕ := 90000

structure SpliceInjectOptions where
  injectCount : ℕ
  injectInterval : ℕ
  startDelay : ℕ
  queueSize : ℕ

structure SpliceCommand where
  sit : SpliceInformationTable
  nextPts : UInt64
  lastPts : UInt64
  interval : UInt64
  count : ℕ

namespace SpliceCommand

def earliestPts (times : List SpliceTime) : UInt64 :=
  times.foldl (fun last time ↦
    match time with
    | some pts => if last = invalidPts ∨ sequencedPts pts.toNat last.toNat then pts else last
    | none => last) invalidPts

def eventPts (insert : SpliceInsert) : UInt64 :=
  if insert.programSplice then insert.programPts.getD invalidPts
  else earliestPts (insert.componentsPts.entries.map Prod.snd)

def new (options : SpliceInjectOptions) (sit : SpliceInformationTable) : SpliceCommand :=
  let immediate : SpliceCommand :=
    { sit := sit
      nextPts := invalidPts
      lastPts := invalidPts
      interval := UInt64.ofNat (options.injectInterval * systemClockSubfreq / 1000)
      count := 1 }
  if sit.spliceCommandType = SpliceInformationTable.spliceInsertType ∧
      !sit.spliceInsert.canceled ∧ !sit.spliceInsert.immediate ∧
      eventPts sit.spliceInsert ≠ invalidPts then
    let lastPts := (eventPts sit.spliceInsert + sit.ptsAdjustment) &&& UInt64.ofNat ptsDtsMask
    let preceding := UInt64.ofNat (options.startDelay * systemClockSubfreq / 1000)
    { immediate with
      lastPts := lastPts
      count := options.injectCount
      nextPts := (lastPts - preceding) &&& UInt64.ofNat ptsDtsMask }
  else immediate

/-- A command is before another one, in order of PTS. -/
def less (command other : SpliceCommand) : Bool :=
  if command.nextPts = other.nextPts then false
  else if command.nextPts = invalidPts then true
  else decide (other.nextPts ≠ invalidPts) && decide (command.nextPts < other.nextPts)

def isObsolete (command : SpliceCommand) (now : UInt64) : Bool :=
  decide (command.lastPts ≠ invalidPts) && sequencedPts command.lastPts.toNat now.toNat

def isEarly (command : SpliceCommand) (now : UInt64) : Bool :=
  decide (command.nextPts ≠ invalidPts) && sequencedPts now.toNat command.nextPts.toNat

def repeated (command : SpliceCommand) : SpliceCommand :=
  { command with
    count := command.count - 1
    nextPts := (command.nextPts + command.interval) &&& UInt64.ofNat ptsDtsMask }

end SpliceCommand

/-! ### The threads -/

namespace SpliceInject

open MessagePriorityQueue

inductive PacketThread
  | idle
  | looking
  | found (id : ℕ)
  | requeueing (id : ℕ)
  deriving DecidableEq

/-- The state of the plugin, with commands as pointers. -/
structure Plugin where
  commands : ℕ → SpliceCommand
  created : ℕ
  queue : List ℕ
  hasInjectPid : Bool
  lastPts : UInt64
  thread : PacketThread

def start (options : SpliceInjectOptions) (hasInjectPid : Bool) : Plugin where
  commands := fun _ ↦ SpliceCommand.new options .cleared
  created := 0
  queue := []
  hasInjectPid := hasInjectPid
  lastPts := invalidPts
  thread := .idle

/-- What a thread does. -/
inductive Action
  | enqueue (sit : SpliceInformationTable)
  | setInjectPid
  | setLastPts (pts : UInt64)
  | provideSection
  | peek
  | dequeue
  | forceEnqueue

/-- What happens to commands. -/
inductive Event
  | removed (id : ℕ) (now : UInt64)
  | injected (id : ℕ)
  deriving DecidableEq

def isLess (commands : ℕ → SpliceCommand) (first second : ℕ) : Bool :=
  (commands first).less (commands second)

def place (plugin : Plugin) (commands : ℕ → SpliceCommand) (id : ℕ) : List ℕ :=
  insert (isLess commands) id plugin.queue

def isFull (options : SpliceInjectOptions) (plugin : Plugin) : Bool :=
  decide (options.queueSize ≠ 0) && decide (plugin.queue.length ≥ options.queueSize)

def enqueue (options : SpliceInjectOptions) (plugin : Plugin) (sit : SpliceInformationTable) :
    Plugin :=
  if isFull options plugin then plugin
  else
    let commands := Function.update plugin.commands plugin.created (SpliceCommand.new options sit)
    { plugin with
      commands := commands
      created := plugin.created + 1
      queue := place plugin commands plugin.created }

def provideSection (plugin : Plugin) : Plugin :=
  if !plugin.hasInjectPid || plugin.lastPts = invalidPts then plugin
  else { plugin with thread := .looking }

def peek (plugin : Plugin) : Plugin :=
  match plugin.queue with
  | [] => { plugin with thread := .idle }
  | id :: _ => { plugin with thread := .found id }

def removeFirst (plugin : Plugin) : Plugin × List Event :=
  match plugin.queue with
  | [] => (plugin, [])
  | id :: queue => ({ plugin with queue := queue }, [.removed id plugin.lastPts])

/-- The injected command is enqueued again, if necessary. -/
def afterInjection (plugin : Plugin) (id : ℕ) : Plugin :=
  if (plugin.commands id).count > 1 then
    let command := (plugin.commands id).repeated
    { plugin with
      commands := Function.update plugin.commands id command
      thread :=
        if sequencedPts command.nextPts.toNat command.lastPts.toNat then .requeueing id else .idle }
  else { plugin with thread := .idle }

/-- After a command was peeked, the first command of the queue is dropped if the peeked one is
obsolete, nothing is done if it is not ready, and else the first command is removed and the peeked
one injected. -/
def dequeue (plugin : Plugin) (id : ℕ) : Plugin × List Event :=
  if (plugin.commands id).isObsolete plugin.lastPts then
    ({ (removeFirst plugin).1 with thread := .looking }, (removeFirst plugin).2)
  else if (plugin.commands id).isEarly plugin.lastPts then ({ plugin with thread := .idle }, [])
  else (afterInjection (removeFirst plugin).1 id, (removeFirst plugin).2 ++ [.injected id])

/-- Enqueues a command again, even in a full queue. -/
def forceEnqueue (plugin : Plugin) (id : ℕ) : Plugin :=
  { plugin with queue := place plugin plugin.commands id, thread := .idle }

def step (options : SpliceInjectOptions) (plugin : Plugin) :
    Action → Option (Plugin × List Event)
  | .enqueue sit => some (enqueue options plugin sit, [])
  | .setInjectPid =>
    if plugin.thread = .idle then some ({ plugin with hasInjectPid := true }, []) else none
  | .setLastPts pts =>
    if plugin.thread = .idle then some ({ plugin with lastPts := pts }, []) else none
  | .provideSection =>
    if plugin.thread = .idle then some (provideSection plugin, []) else none
  | .peek => if plugin.thread = .looking then some (peek plugin, []) else none
  | .dequeue =>
    match plugin.thread with
    | .found id => some (dequeue plugin id)
    | _ => none
  | .forceEnqueue =>
    match plugin.thread with
    | .requeueing id => some (forceEnqueue plugin id, [])
    | _ => none

def machine (options : SpliceInjectOptions) : Machine Plugin Action Event where
  step := step options

def injections (events : List Event) : List ℕ :=
  events.filterMap fun event ↦
    match event with
    | .injected id => some id
    | .removed _ _ => none

/-- The command of an identity is immediate. -/
def IsImmediate (options : SpliceInjectOptions) (plugin : Plugin) (id : ℕ) : Prop :=
  (SpliceCommand.new options (plugin.commands id).sit).nextPts = invalidPts

/-- No command is lost, and none is injected too many times. -/
structure LosesNothing (options : SpliceInjectOptions) (plugin : Plugin) (events : List Event) :
    Prop where
  stays : ∀ id < plugin.created, id ∈ plugin.queue ∨ ∃ now, .removed id now ∈ events
  injected : ∀ id now, .removed id now ∈ events → id ∈ injections events ∨
    (plugin.commands id).lastPts ≠ invalidPts ∧ IsPast (plugin.commands id).lastPts.toNat now.toNat
  immediate : ∀ id < plugin.created, IsImmediate options plugin id →
    (injections events).count id = if id ∈ plugin.queue then 0 else 1
  count_le : ∀ id, (injections events).count id ≤ max 1 options.injectCount

/-- The peeked command is obsolete or ready. -/
def takes (plugin : Plugin) (id : ℕ) : Bool :=
  (plugin.commands id).isObsolete plugin.lastPts || !(plugin.commands id).isEarly plugin.lastPts

/-- No listener enqueues a command in front of the peeked one which leaves the queue. The last PTS
of a new command is not half of the circle behind when it is looked at. -/
def IsTimely (options : SpliceInjectOptions) (plugin : Plugin) : Action → Prop
  | .enqueue sit =>
    ∀ id, plugin.thread = .found id → takes plugin id = true → isFull options plugin = false →
      (SpliceCommand.new options sit).less (plugin.commands id) = false
  | .dequeue =>
    ∀ id, plugin.thread = .found id → (plugin.commands id).lastPts ≠ invalidPts →
      plugin.commands id = SpliceCommand.new options (plugin.commands id).sit →
        plugin.lastPts.toNat < (plugin.commands id).lastPts.toNat + ptsDtsScale / 2
  | _ => True

/-! ### The account of each command -/

def budget (plugin : Plugin) (id : ℕ) : ℕ :=
  if id ∈ plugin.queue ∨ plugin.thread = .requeueing id then max 1 (plugin.commands id).count else 0

/-- The account of a command which was enqueued. -/
structure Accounted (options : SpliceInjectOptions) (plugin : Plugin) (events : List Event)
    (id : ℕ) : Prop where
  stays : id ∈ plugin.queue ∨ ∃ now, .removed id now ∈ events
  lastPts_eq : (plugin.commands id).lastPts =
    (SpliceCommand.new options (plugin.commands id).sit).lastPts
  fresh : plugin.commands id = SpliceCommand.new options (plugin.commands id).sit ∨
    id ∈ injections events
  count_add_le : (injections events).count id + budget plugin id ≤
    max 1 (SpliceCommand.new options (plugin.commands id).sit).count

/-- The queue, the place of the packet thread and what happened agree. -/
structure Sound (options : SpliceInjectOptions) (plugin : Plugin) (events : List Event) : Prop where
  nodup : plugin.queue.Nodup
  lt_created : ∀ id ∈ plugin.queue, id < plugin.created
  found_lt : ∀ id, plugin.thread = .found id → id < plugin.created
  head : ∀ id, plugin.thread = .found id → takes plugin id = true → plugin.queue.head? = some id
  requeueing : ∀ id, plugin.thread = .requeueing id → id < plugin.created ∧ id ∉ plugin.queue
  removed_lt : ∀ id now, .removed id now ∈ events → id < plugin.created
  injected_lt : ∀ id ∈ injections events, id < plugin.created
  injected : ∀ id now, .removed id now ∈ events → id ∈ injections events ∨
    (plugin.commands id).lastPts ≠ invalidPts ∧ IsPast (plugin.commands id).lastPts.toNat now.toNat
  accounted : ∀ id < plugin.created, Accounted options plugin events id

variable {options : SpliceInjectOptions} {plugin : Plugin} {events : List Event} {id : ℕ}

theorem injections_append (events others : List Event) :
    injections (events ++ others) = injections events ++ injections others :=
  List.filterMap_append

theorem and_mask_ne_invalid (pts : UInt64) : pts &&& UInt64.ofNat ptsDtsMask ≠ invalidPts := by
  intro hinvalid
  have hle : (pts &&& UInt64.ofNat ptsDtsMask).toNat ≤ ptsDtsMask := by
    rw [UInt64.toNat_and]
    exact Nat.and_le_right
  rw [hinvalid] at hle
  exact absurd hle (by decide)

@[simp] theorem sit_new (options : SpliceInjectOptions) (sit : SpliceInformationTable) :
    (SpliceCommand.new options sit).sit = sit := by
  unfold SpliceCommand.new
  dsimp only
  split_ifs
  · rfl
  · rfl

theorem new_of_immediate {sit : SpliceInformationTable}
    (himmediate : (SpliceCommand.new options sit).nextPts = invalidPts) :
    (SpliceCommand.new options sit).count = 1 ∧
      (SpliceCommand.new options sit).lastPts = invalidPts := by
  unfold SpliceCommand.new at himmediate ⊢
  dsimp only at himmediate ⊢
  split_ifs at himmediate ⊢
  · exact absurd himmediate (and_mask_ne_invalid _)
  · exact ⟨rfl, rfl⟩

theorem max_count_new_le (options : SpliceInjectOptions) (sit : SpliceInformationTable) :
    max 1 (SpliceCommand.new options sit).count ≤ max 1 options.injectCount := by
  unfold SpliceCommand.new
  dsimp only
  split_ifs
  · exact le_rfl
  · exact max_le le_sup_left le_sup_left

theorem Sound.losesNothing (hsound : Sound options plugin events) :
    LosesNothing options plugin events where
  stays := fun id hid ↦ (hsound.accounted id hid).stays
  injected := hsound.injected
  immediate := by
    intro id hid himmediate
    obtain ⟨hcount, hlast⟩ := new_of_immediate himmediate
    have haccount := hsound.accounted id hid
    have hbudget := haccount.count_add_le
    rw [hcount, budget] at hbudget
    split_ifs with hqueue
    · rw [if_pos (Or.inl hqueue)] at hbudget
      omega
    · obtain ⟨now, hremoved⟩ := haccount.stays.resolve_left hqueue
      have hinjected : id ∈ injections events := by
        refine (hsound.injected id now hremoved).resolve_right fun hpast ↦ hpast.1 ?_
        rw [haccount.lastPts_eq, hlast]
      have hpos := List.count_pos_iff.mpr hinjected
      omega
  count_le := by
    intro id
    by_cases hid : id < plugin.created
    · have haccount := (hsound.accounted id hid).count_add_le
      have hmax := max_count_new_le options (plugin.commands id).sit
      omega
    · have hzero : (injections events).count id = 0 :=
        List.count_eq_zero.mpr fun hmem ↦ hid (hsound.injected_lt id hmem)
      rw [hzero]
      exact Nat.zero_le _

theorem sound_start (options : SpliceInjectOptions) (hasInjectPid : Bool) :
    Sound options (start options hasInjectPid) [] where
  nodup := List.nodup_nil
  lt_created := fun _ hmem ↦ absurd hmem List.not_mem_nil
  found_lt := fun _ hthread ↦ PacketThread.noConfusion hthread
  head := fun _ hthread ↦ PacketThread.noConfusion hthread
  requeueing := fun _ hthread ↦ PacketThread.noConfusion hthread
  removed_lt := fun _ _ hmem ↦ absurd hmem List.not_mem_nil
  injected_lt := fun _ hmem ↦ absurd hmem List.not_mem_nil
  injected := fun _ _ hmem ↦ absurd hmem List.not_mem_nil
  accounted := fun id hid ↦ absurd hid (Nat.not_lt_zero id)

/-! ### Each action -/

theorem Sound.move {next : Plugin} (hsound : Sound options plugin events)
    (hcommands : next.commands = plugin.commands) (hcreated : next.created = plugin.created)
    (hqueue : next.queue = plugin.queue) (hbefore : ∀ id, plugin.thread ≠ .requeueing id)
    (hafter : ∀ id, next.thread ≠ .requeueing id)
    (hhead : ∀ id, next.thread = .found id → plugin.queue.head? = some id) :
    Sound options next events where
  nodup := hqueue ▸ hsound.nodup
  lt_created := by
    rw [hqueue, hcreated]
    exact hsound.lt_created
  found_lt := by
    rw [hcreated]
    exact fun id hthread ↦ hsound.lt_created id (List.mem_of_head? (hhead id hthread))
  head := by
    rw [hqueue]
    exact fun id hthread _ ↦ hhead id hthread
  requeueing := fun id hthread ↦ absurd hthread (hafter id)
  removed_lt := by
    rw [hcreated]
    exact hsound.removed_lt
  injected_lt := by
    rw [hcreated]
    exact hsound.injected_lt
  injected := by
    rw [hcommands]
    exact hsound.injected
  accounted := by
    intro id hid
    have haccount := hsound.accounted id (hcreated ▸ hid)
    have hbudget : budget next id = budget plugin id := by
      unfold budget
      rw [hqueue, hcommands]
      simp only [hbefore id, hafter id, or_false]
    refine ⟨?_, ?_, ?_, ?_⟩
    · rw [hqueue]
      exact haccount.stays
    · rw [hcommands]
      exact haccount.lastPts_eq
    · rw [hcommands]
      exact haccount.fresh
    · rw [hbudget, hcommands]
      exact haccount.count_add_le

theorem sound_peek (hsound : Sound options plugin events) (hthread : plugin.thread = .looking) :
    Sound options (peek plugin) events := by
  have hbefore : ∀ id, plugin.thread ≠ .requeueing id := fun id ↦ by simp [hthread]
  unfold peek
  split
  · exact hsound.move rfl rfl rfl hbefore (fun id ↦ by simp) (fun id ↦ by simp)
  · rename_i first rest hqueue
    refine hsound.move rfl rfl rfl hbefore (fun id ↦ by simp) fun id hfound ↦ ?_
    rw [hqueue]
    exact congrArg some (PacketThread.found.inj hfound)

theorem perm_place (plugin : Plugin) (commands : ℕ → SpliceCommand) (id : ℕ) :
    (place plugin commands id).Perm (id :: plugin.queue) :=
  insert_perm _ _ _

theorem mem_place {commands : ℕ → SpliceCommand} {other : ℕ} :
    other ∈ place plugin commands id ↔ other = id ∨ other ∈ plugin.queue := by
  rw [(perm_place plugin commands id).mem_iff, List.mem_cons]

theorem sound_enqueue (hsound : Sound options plugin events) {sit : SpliceInformationTable}
    (htimely : IsTimely options plugin (.enqueue sit)) :
    Sound options (enqueue options plugin sit) events := by
  unfold enqueue
  split_ifs with hfull
  · exact hsound
  · have hfresh : plugin.created ∉ plugin.queue := fun hmem ↦
      Nat.lt_irrefl _ (hsound.lt_created _ hmem)
    have hother : ∀ id < plugin.created, Function.update plugin.commands plugin.created
        (SpliceCommand.new options sit) id = plugin.commands id :=
      fun id hid ↦ Function.update_of_ne hid.ne _ _
    have hself : Function.update plugin.commands plugin.created
        (SpliceCommand.new options sit) plugin.created = SpliceCommand.new options sit :=
      Function.update_self _ _ _
    exact {
      nodup := (perm_place _ _ _).nodup_iff.mpr (List.nodup_cons.mpr ⟨hfresh, hsound.nodup⟩)
      lt_created := by
        intro id hmem
        rcases mem_place.mp hmem with rfl | hqueue
        · exact Nat.lt_succ_self _
        · exact Nat.lt_succ_of_lt (hsound.lt_created id hqueue)
      found_lt := fun id hthread ↦ Nat.lt_succ_of_lt (hsound.found_lt id hthread)
      head := by
        intro id hthread htakes
        have hid := hsound.found_lt id hthread
        unfold takes at htakes
        dsimp only at htakes
        rw [hother id hid] at htakes
        refine head?_insert (hsound.head id hthread htakes) ?_
        rw [isLess, hself, hother id hid]
        exact htimely id hthread htakes (Bool.eq_false_of_not_eq_true hfull)
      requeueing := by
        intro id hthread
        obtain ⟨hid, hqueue⟩ := hsound.requeueing id hthread
        refine ⟨Nat.lt_succ_of_lt hid, fun hmem ↦ ?_⟩
        exact (mem_place.mp hmem).elim hid.ne hqueue
      removed_lt := fun id now hmem ↦ Nat.lt_succ_of_lt (hsound.removed_lt id now hmem)
      injected_lt := fun id hmem ↦ Nat.lt_succ_of_lt (hsound.injected_lt id hmem)
      injected := by
        intro id now hmem
        dsimp only
        rw [hother id (hsound.removed_lt id now hmem)]
        exact hsound.injected id now hmem
      accounted := by
        intro id hid
        rcases Nat.lt_succ_iff_lt_or_eq.mp hid with hlt | rfl
        · have haccount := hsound.accounted id hlt
          have hqueue : id ∈ place plugin (Function.update plugin.commands plugin.created
              (SpliceCommand.new options sit)) plugin.created ↔ id ∈ plugin.queue :=
            mem_place.trans (or_iff_right hlt.ne)
          refine ⟨haccount.stays.imp_left hqueue.mpr, ?_, ?_, ?_⟩
          · dsimp only
            rw [hother id hlt]
            exact haccount.lastPts_eq
          · dsimp only
            rw [hother id hlt]
            exact haccount.fresh
          · unfold budget
            dsimp only
            simp only [hqueue, hother id hlt]
            exact haccount.count_add_le
        · have hzero : (injections events).count plugin.created = 0 :=
            List.count_eq_zero.mpr fun hmem ↦ Nat.lt_irrefl _ (hsound.injected_lt _ hmem)
          have hmem : plugin.created ∈ place plugin (Function.update plugin.commands plugin.created
              (SpliceCommand.new options sit)) plugin.created :=
            mem_place.mpr (Or.inl rfl)
          refine ⟨Or.inl hmem, ?_, Or.inl ?_, ?_⟩
          · dsimp only
            rw [hself, sit_new]
          · dsimp only
            rw [hself, sit_new]
          · unfold budget
            dsimp only
            rw [if_pos (Or.inl hmem), hself, sit_new, hzero, Nat.zero_add] }

theorem sound_forceEnqueue (hsound : Sound options plugin events)
    (hthread : plugin.thread = .requeueing id) :
    Sound options (forceEnqueue plugin id) events := by
  obtain ⟨hid, hqueue⟩ := hsound.requeueing id hthread
  have hmem : ∀ other, (other ∈ place plugin plugin.commands id ∨
      PacketThread.idle = .requeueing other) ↔
        (other ∈ plugin.queue ∨ plugin.thread = .requeueing other) := by
    intro other
    rw [mem_place, hthread, PacketThread.requeueing.injEq, or_iff_left PacketThread.noConfusion,
      eq_comm, or_comm]
  exact {
    nodup := (perm_place _ _ _).nodup_iff.mpr (List.nodup_cons.mpr ⟨hqueue, hsound.nodup⟩)
    lt_created := by
      intro other hother
      rcases mem_place.mp hother with rfl | hbefore
      · exact hid
      · exact hsound.lt_created other hbefore
    found_lt := fun _ hidle ↦ PacketThread.noConfusion hidle
    head := fun _ hidle ↦ PacketThread.noConfusion hidle
    requeueing := fun _ hidle ↦ PacketThread.noConfusion hidle
    removed_lt := hsound.removed_lt
    injected_lt := hsound.injected_lt
    injected := hsound.injected
    accounted := by
      intro other hother
      have haccount := hsound.accounted other hother
      refine ⟨haccount.stays.imp_left fun hbefore ↦ mem_place.mpr (Or.inr hbefore),
        haccount.lastPts_eq, haccount.fresh, ?_⟩
      have hbudget : budget (forceEnqueue plugin id) other = budget plugin other :=
        if_congr (hmem other) rfl rfl
      rw [hbudget]
      exact haccount.count_add_le }

theorem removeFirst_eq {rest : List ℕ} (hqueue : plugin.queue = id :: rest) :
    removeFirst plugin = ({ plugin with queue := rest }, [.removed id plugin.lastPts]) := by
  rw [removeFirst, hqueue]

theorem sound_drop (hsound : Sound options plugin events) (hthread : plugin.thread = .found id)
    (htimely : IsTimely options plugin .dequeue)
    (hobsolete : (plugin.commands id).isObsolete plugin.lastPts = true) :
    Sound options { (removeFirst plugin).1 with thread := .looking }
      (events ++ (removeFirst plugin).2) := by
  have hhead := hsound.head id hthread (by rw [takes, hobsolete, Bool.true_or])
  obtain ⟨rest, hqueue⟩ := List.head?_eq_some_iff.mp hhead
  have hid := hsound.found_lt id hthread
  have hnodup := hsound.nodup
  rw [hqueue, List.nodup_cons] at hnodup
  rw [SpliceCommand.isObsolete, Bool.and_eq_true, decide_eq_true_eq] at hobsolete
  rw [removeFirst_eq hqueue]
  have hinjections : injections (events ++ [.removed id plugin.lastPts]) = injections events := by
    rw [injections_append]
    exact List.append_nil _
  have hsubset : ∀ other ∈ rest, other ∈ plugin.queue := fun other hmem ↦
    hqueue ▸ List.mem_cons_of_mem id hmem
  have hmem : ∀ other now, Event.removed other now ∈ events ++ [.removed id plugin.lastPts] →
      .removed other now ∈ events ∨ other = id ∧ now = plugin.lastPts := by
    intro other now hevent
    rcases List.mem_append.mp hevent with hbefore | hlast
    · exact Or.inl hbefore
    · exact Or.inr (Event.removed.inj (List.mem_singleton.mp hlast))
  exact {
    nodup := hnodup.2
    lt_created := fun other hother ↦ hsound.lt_created other (hsubset other hother)
    found_lt := fun _ hlooking ↦ PacketThread.noConfusion hlooking
    head := fun _ hlooking ↦ PacketThread.noConfusion hlooking
    requeueing := fun _ hlooking ↦ PacketThread.noConfusion hlooking
    removed_lt := by
      intro other now hevent
      rcases hmem other now hevent with hbefore | ⟨rfl, -⟩
      · exact hsound.removed_lt other now hbefore
      · exact hid
    injected_lt := by
      rw [hinjections]
      exact hsound.injected_lt
    injected := by
      intro other now hevent
      rw [hinjections]
      rcases hmem other now hevent with hbefore | ⟨rfl, rfl⟩
      · exact hsound.injected other now hbefore
      · rcases (hsound.accounted other hid).fresh with hfresh | hinjected
        · exact Or.inr ⟨hobsolete.1, isPast_of_sequencedPts
            (htimely other hthread hobsolete.1 hfresh) hobsolete.2⟩
        · exact Or.inl hinjected
    accounted := by
      intro other hother
      have haccount := hsound.accounted other hother
      refine ⟨?_, haccount.lastPts_eq, ?_, ?_⟩
      · rcases haccount.stays with hbefore | ⟨now, hremoved⟩
        · rw [hqueue, List.mem_cons] at hbefore
          rcases hbefore with rfl | hrest
          · exact Or.inr ⟨_, List.mem_append_right _ (List.mem_singleton_self _)⟩
          · exact Or.inl hrest
        · exact Or.inr ⟨now, List.mem_append_left _ hremoved⟩
      · rw [hinjections]
        exact haccount.fresh
      · have hbudget : budget { plugin with queue := rest, thread := .looking } other ≤
            budget plugin other := by
          unfold budget
          dsimp only
          by_cases hrest : other ∈ rest
          · rw [if_pos (Or.inl hrest), if_pos (Or.inl (hsubset other hrest))]
          · rw [if_neg fun hheld ↦ hheld.elim hrest PacketThread.noConfusion]
            exact Nat.zero_le _
        rw [hinjections]
        exact (Nat.add_le_add_left hbudget _).trans haccount.count_add_le }

@[simp] theorem queue_afterInjection (plugin : Plugin) (id : ℕ) :
    (afterInjection plugin id).queue = plugin.queue := by
  unfold afterInjection
  split_ifs
  · rfl
  · rfl

@[simp] theorem created_afterInjection (plugin : Plugin) (id : ℕ) :
    (afterInjection plugin id).created = plugin.created := by
  unfold afterInjection
  split_ifs
  · rfl
  · rfl

theorem commands_afterInjection_of_ne (plugin : Plugin) {other : ℕ} (hne : other ≠ id) :
    (afterInjection plugin id).commands other = plugin.commands other := by
  unfold afterInjection
  split_ifs
  · exact Function.update_of_ne hne _ _
  · rfl

theorem commands_afterInjection (plugin : Plugin) (id other : ℕ) :
    ((afterInjection plugin id).commands other).sit = (plugin.commands other).sit ∧
      ((afterInjection plugin id).commands other).lastPts = (plugin.commands other).lastPts := by
  by_cases hne : other = id
  · subst hne
    unfold afterInjection
    split_ifs
    · dsimp only
      rw [Function.update_self]
      exact ⟨rfl, rfl⟩
    · exact ⟨rfl, rfl⟩
  · rw [commands_afterInjection_of_ne plugin hne]
    exact ⟨rfl, rfl⟩

theorem thread_afterInjection (plugin : Plugin) (id : ℕ) :
    (afterInjection plugin id).thread = .idle ∨
      (afterInjection plugin id).thread = .requeueing id := by
  unfold afterInjection
  split_ifs
  · dsimp only
    split_ifs
    · exact Or.inr rfl
    · exact Or.inl rfl
  · exact Or.inl rfl

theorem budget_afterInjection_self (hqueue : id ∉ plugin.queue) :
    1 + budget (afterInjection plugin id) id ≤ max 1 (plugin.commands id).count := by
  have hrepeated : (plugin.commands id).repeated.count = (plugin.commands id).count - 1 := rfl
  unfold budget
  rw [queue_afterInjection]
  unfold afterInjection
  split_ifs with hcount hheld hheld
  · dsimp only
    rw [Function.update_self]
    omega
  · omega
  · exact absurd hheld (not_or_intro hqueue not_false)
  · omega

theorem budget_afterInjection_of_ne (hbefore : ∀ other, plugin.thread ≠ .requeueing other)
    {other : ℕ} (hne : other ≠ id) :
    budget (afterInjection plugin id) other = budget plugin other := by
  have hthread : (afterInjection plugin id).thread ≠ .requeueing other := by
    rcases thread_afterInjection plugin id with hidle | hrequeueing
    · rw [hidle]
      exact PacketThread.noConfusion
    · rw [hrequeueing]
      exact fun heq ↦ hne (PacketThread.requeueing.inj heq).symm
  unfold budget
  rw [queue_afterInjection, commands_afterInjection_of_ne plugin hne]
  simp only [hthread, hbefore other, or_false]

theorem sound_inject (hsound : Sound options plugin events) (hthread : plugin.thread = .found id)
    (hready : (plugin.commands id).isEarly plugin.lastPts = false) :
    Sound options (afterInjection (removeFirst plugin).1 id)
      (events ++ ((removeFirst plugin).2 ++ [.injected id])) := by
  have hhead := hsound.head id hthread (by rw [takes, hready, Bool.not_false, Bool.or_true])
  obtain ⟨rest, hqueue⟩ := List.head?_eq_some_iff.mp hhead
  have hid := hsound.found_lt id hthread
  have hnodup := hsound.nodup
  rw [hqueue, List.nodup_cons] at hnodup
  have hbefore : ∀ other, plugin.thread ≠ .requeueing other := fun other ↦ by simp [hthread]
  rw [removeFirst_eq hqueue]
  have hinjections : injections (events ++ ([.removed id plugin.lastPts] ++ [.injected id])) =
      injections events ++ [id] := by
    rw [injections_append]
    rfl
  have hsubset : ∀ other ∈ rest, other ∈ plugin.queue := fun other hmem ↦
    hqueue ▸ List.mem_cons_of_mem id hmem
  have hmem : ∀ other now, Event.removed other now ∈
      events ++ ([.removed id plugin.lastPts] ++ [.injected id]) →
      .removed other now ∈ events ∨ other = id := by
    intro other now hevent
    rcases List.mem_append.mp hevent with hold | hlast
    · exact Or.inl hold
    · simp only [List.cons_append, List.nil_append, List.mem_cons, Event.removed.injEq,
        reduceCtorEq, List.not_mem_nil, or_false] at hlast
      exact Or.inr hlast.1
  have hother : ∀ other, other ∈ (afterInjection { plugin with queue := rest } id).queue ↔
      other ∈ rest := by
    intro other
    rw [queue_afterInjection]
  exact {
    nodup := by
      rw [queue_afterInjection]
      exact hnodup.2
    lt_created := by
      rw [created_afterInjection]
      exact fun other hmem ↦ hsound.lt_created other (hsubset other ((hother other).mp hmem))
    found_lt := by
      intro other hfound
      rcases thread_afterInjection { plugin with queue := rest } id with hidle | hrequeueing
      · exact PacketThread.noConfusion (hidle.symm.trans hfound)
      · exact PacketThread.noConfusion (hrequeueing.symm.trans hfound)
    head := by
      intro other hfound
      rcases thread_afterInjection { plugin with queue := rest } id with hidle | hrequeueing
      · exact PacketThread.noConfusion (hidle.symm.trans hfound)
      · exact PacketThread.noConfusion (hrequeueing.symm.trans hfound)
    requeueing := by
      intro other hheld
      rw [created_afterInjection, hother]
      rcases thread_afterInjection { plugin with queue := rest } id with hidle | hrequeueing
      · exact PacketThread.noConfusion (hidle.symm.trans hheld)
      · obtain rfl := PacketThread.requeueing.inj (hrequeueing.symm.trans hheld)
        exact ⟨hid, hnodup.1⟩
    removed_lt := by
      intro other now hevent
      rw [created_afterInjection]
      rcases hmem other now hevent with hold | rfl
      · exact hsound.removed_lt other now hold
      · exact hid
    injected_lt := by
      intro other hinjected
      rw [created_afterInjection]
      rw [hinjections, List.mem_append, List.mem_singleton] at hinjected
      rcases hinjected with hold | rfl
      · exact hsound.injected_lt other hold
      · exact hid
    injected := by
      intro other now hevent
      rw [(commands_afterInjection _ id other).2, hinjections, List.mem_append]
      rcases hmem other now hevent with hold | rfl
      · exact (hsound.injected other now hold).imp_left Or.inl
      · exact Or.inl (Or.inr (List.mem_singleton_self _))
    accounted := by
      intro other hlt
      rw [created_afterInjection] at hlt
      have haccount := hsound.accounted other hlt
      obtain ⟨hsit, hlast⟩ := commands_afterInjection { plugin with queue := rest } id other
      refine ⟨?_, ?_, ?_, ?_⟩
      · rw [hother]
        rcases haccount.stays with hold | ⟨now, hremoved⟩
        · rw [hqueue, List.mem_cons] at hold
          rcases hold with rfl | hrest
          · exact Or.inr ⟨plugin.lastPts, List.mem_append_right _ List.mem_cons_self⟩
          · exact Or.inl hrest
        · exact Or.inr ⟨now, List.mem_append_left _ hremoved⟩
      · rw [hsit, hlast]
        exact haccount.lastPts_eq
      · rw [hsit, hinjections, List.mem_append]
        by_cases hne : other = id
        · exact Or.inr (Or.inr (List.mem_singleton.mpr hne))
        · rw [commands_afterInjection_of_ne _ hne]
          exact haccount.fresh.imp_right Or.inl
      · rw [hsit, hinjections, List.count_append]
        have hcount := haccount.count_add_le
        by_cases hne : other = id
        · subst hne
          have hbudget : 1 + budget (afterInjection { plugin with queue := rest } other) other ≤
              max 1 (plugin.commands other).count :=
            budget_afterInjection_self hnodup.1
          rw [budget, if_pos (Or.inl (hqueue ▸ List.mem_cons_self))] at hcount
          rw [List.count_singleton_self, Nat.add_assoc]
          exact (Nat.add_le_add_left hbudget _).trans hcount
        · have hbudget := @budget_afterInjection_of_ne { plugin with queue := rest } id hbefore
            other hne
          have hsame : budget { plugin with queue := rest } other = budget plugin other := by
            unfold budget
            rw [hqueue]
            simp only [List.mem_cons, hne, false_or]
          have hzero : [id].count other = 0 :=
            List.count_eq_zero.mpr fun hmem ↦ hne (List.mem_singleton.mp hmem)
          rw [hbudget, hsame, hzero, Nat.add_zero]
          exact hcount }

theorem sound_dequeue (hsound : Sound options plugin events) (hthread : plugin.thread = .found id)
    (htimely : IsTimely options plugin .dequeue) :
    Sound options (dequeue plugin id).1 (events ++ (dequeue plugin id).2) := by
  unfold dequeue
  split_ifs with hobsolete hearly
  · exact sound_drop hsound hthread htimely hobsolete
  · rw [List.append_nil]
    exact hsound.move rfl rfl rfl (fun other ↦ by simp [hthread]) (fun other ↦ by simp)
      (fun other ↦ by simp)
  · exact sound_inject hsound hthread (Bool.eq_false_of_not_eq_true hearly)

theorem sound_provideSection (hsound : Sound options plugin events)
    (hthread : plugin.thread = .idle) : Sound options (provideSection plugin) events := by
  unfold provideSection
  split_ifs
  · exact hsound
  · exact hsound.move rfl rfl rfl (fun id ↦ by simp [hthread]) (fun id ↦ by simp)
      (fun id ↦ by simp)

theorem sound_of_idle {next : Plugin} (hsound : Sound options plugin events)
    (hthread : plugin.thread = .idle) (hcommands : next.commands = plugin.commands)
    (hcreated : next.created = plugin.created) (hqueue : next.queue = plugin.queue)
    (hsame : next.thread = plugin.thread) : Sound options next events :=
  hsound.move hcommands hcreated hqueue (fun id ↦ by simp [hthread])
    (fun id ↦ by simp [hsame, hthread]) (fun id ↦ by simp [hsame, hthread])

theorem sound_step {next : Plugin} {action : Action} {outputs : List Event}
    (hsound : Sound options plugin events) (htimely : IsTimely options plugin action)
    (hstep : step options plugin action = some (next, outputs)) :
    Sound options next (events ++ outputs) := by
  cases action with
  | enqueue sit =>
    obtain ⟨rfl, rfl⟩ := Prod.mk.inj (Option.some.inj hstep)
    rw [List.append_nil]
    exact sound_enqueue hsound htimely
  | setInjectPid =>
    obtain ⟨hthread, hnext⟩ := Option.ite_none_right_eq_some.mp hstep
    obtain ⟨rfl, rfl⟩ := Prod.mk.inj (Option.some.inj hnext)
    rw [List.append_nil]
    exact sound_of_idle hsound hthread rfl rfl rfl rfl
  | setLastPts pts =>
    obtain ⟨hthread, hnext⟩ := Option.ite_none_right_eq_some.mp hstep
    obtain ⟨rfl, rfl⟩ := Prod.mk.inj (Option.some.inj hnext)
    rw [List.append_nil]
    exact sound_of_idle hsound hthread rfl rfl rfl rfl
  | provideSection =>
    obtain ⟨hthread, hnext⟩ := Option.ite_none_right_eq_some.mp hstep
    obtain ⟨rfl, rfl⟩ := Prod.mk.inj (Option.some.inj hnext)
    rw [List.append_nil]
    exact sound_provideSection hsound hthread
  | peek =>
    obtain ⟨hthread, hnext⟩ := Option.ite_none_right_eq_some.mp hstep
    obtain ⟨rfl, rfl⟩ := Prod.mk.inj (Option.some.inj hnext)
    rw [List.append_nil]
    exact sound_peek hsound hthread
  | dequeue =>
    simp only [step] at hstep
    split at hstep
    · rename_i id hthread
      obtain ⟨rfl, rfl⟩ := Prod.ext_iff.mp (Option.some.inj hstep)
      exact sound_dequeue hsound hthread htimely
    · exact absurd hstep.symm (Option.some_ne_none _)
  | forceEnqueue =>
    simp only [step] at hstep
    split at hstep
    · rename_i id hthread
      obtain ⟨rfl, rfl⟩ := Prod.mk.inj (Option.some.inj hstep)
      rw [List.append_nil]
      exact sound_forceEnqueue hsound hthread
    · exact absurd hstep.symm (Option.some_ne_none _)

/-- Assumes: no command is enqueued in front of a peeked one, nor looked at half of the circle
later. None is lost, whatever the interleaving. -/
theorem losesNothing_of_run (options : SpliceInjectOptions) (hasInjectPid : Bool)
    {actions : List Action} {last : Plugin} {events : List Event}
    (htimely : (machine options).Meets (IsTimely options) (start options hasInjectPid) actions)
    (hrun : (machine options).run (start options hasInjectPid) actions = some (last, events)) :
    LosesNothing options last events := by
  have hsound := (machine options).run_history_of_meets
    (fun _ _ _ _ _ hbefore hcondition hstep ↦ sound_step hbefore hcondition hstep)
    (sound_start options hasInjectPid) htimely hrun
  exact hsound.losesNothing

def defaultOptions : SpliceInjectOptions where
  injectCount := 2
  injectInterval := 800
  startDelay := 2000
  queueSize := 100

def insertAt (pts : UInt64) : SpliceInformationTable :=
  { SpliceInformationTable.cleared with
    spliceCommandType := SpliceInformationTable.spliceInsertType
    spliceInsert := { SpliceInsert.cleared with
      canceled := false
      programSplice := true
      programPts := some pts } }

/-- A command is enqueued after the dequeue. -/
theorem losesNothing_of_command_after : ∃ last events,
    (machine defaultOptions).run (start defaultOptions true)
      [.enqueue (insertAt 1000000), .setLastPts 900000, .provideSection, .peek, .dequeue,
        .enqueue .cleared] = some (last, events) ∧
      LosesNothing defaultOptions last events := by
  have hrun : (machine defaultOptions).run (start defaultOptions true)
      [.enqueue (insertAt 1000000), .setLastPts 900000, .provideSection, .peek, .dequeue,
        .enqueue .cleared] = some (_, _) := rfl
  refine ⟨_, _, hrun, losesNothing_of_run defaultOptions true ?_ hrun⟩
  refine Machine.meets_cons_of_step _ rfl (fun _ hthread ↦ PacketThread.noConfusion hthread) ?_
  refine Machine.meets_cons_of_step _ rfl trivial ?_
  refine Machine.meets_cons_of_step _ rfl trivial ?_
  refine Machine.meets_cons_of_step _ rfl trivial ?_
  refine Machine.meets_cons_of_step _ rfl (fun id hthread _ _ ↦ ?_) ?_
  · obtain rfl := PacketThread.found.inj hthread
    decide
  · exact Machine.meets_cons_of_step _ rfl
      (fun _ hthread ↦ PacketThread.noConfusion hthread) trivial

/-- A command which is enqueued before the dequeue is removed in place of the peeked one. -/
theorem not_losesNothing_of_command_in_front :
    ¬∀ actions last events, (machine defaultOptions).run (start defaultOptions true) actions =
      some (last, events) → LosesNothing defaultOptions last events := by
  intro hall
  have hlost := hall [.enqueue (insertAt 1000000), .setLastPts 900000, .provideSection, .peek,
    .enqueue .cleared, .dequeue] _ _ rfl
  rcases hlost.injected 1 900000 List.mem_cons_self with hinjected | hpast
  · exact absurd hinjected (by decide)
  · exact hpast.1 rfl

end SpliceInject

end TSDuck
