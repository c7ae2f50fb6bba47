import TSDuck.Library.CircularWindow
import TSDuck.Library.Machine
import TSDuck.Switch.Options

/-!
# The packet buffer of an input of `tsswitch`

Each input plugin of `tsswitch` runs in a thread of its own, which receives packets in a circular
buffer: `outCount` packets from index `outFirst` on are to be output. `InputExecutor` is the state
of an input, `Phase` the place where its thread is between two locked sequences, and `HandOver` the
input with the area that the output thread holds, the packets received so far and the packets sent
so far.

An area that is handed over is intact (`HandOver.Intact`) when it still is at the start of the
window and holds the packets it was returned with, and the packets are sent in the order in which
they have been received. The thread of an input that is not current drops packets which may be held
(`HandOver.DropsInUse`): `HandOver.intact_iff_never_dropsInUse` says that no other step spoils an
area.

Scope. A locked sequence that waits on the condition is cut where it starts to wait. The calls of
the input thread to the core are the requests which the core then makes.
-/

namespace TSDuck.TSSwitch

/-- The place of an input thread. -/
inductive Phase
  | newSession
  | waitingStart
  | starting
  | waitingRoom
  | receiving (inFirst inCount : ℕ)
  | signaling (inCount : ℕ)
  | ending
  | stopping
  | exited
  deriving DecidableEq, Repr

/-- The buffer, the shared fields and the thread of an input. -/
structure InputExecutor (Packet : Type) where
  buffer : ℕ → Packet
  isCurrent : Bool
  outputInUse : Bool
  startRequest : Bool
  stopRequest : Bool
  terminated : Bool
  outFirst : ℕ
  outCount : ℕ
  phase : Phase

namespace InputExecutor

variable {Packet : Type}

def new (buffer : ℕ → Packet) : InputExecutor Packet :=
  { buffer, isCurrent := false, outputInUse := false, startRequest := false, stopRequest := false
    terminated := false, outFirst := 0, outCount := 0, phase := .newSession }

def startInput (input : InputExecutor Packet) (isCurrent : Bool) : InputExecutor Packet :=
  { input with isCurrent, startRequest := true, stopRequest := false }

def stopInput (input : InputExecutor Packet) : InputExecutor Packet :=
  { input with startRequest := false, stopRequest := true }

def setCurrent (input : InputExecutor Packet) (isCurrent : Bool) : InputExecutor Packet :=
  { input with isCurrent }

def terminateInput (input : InputExecutor Packet) : InputExecutor Packet :=
  { input with terminated := true }

variable (options : Options)

/-- The area of packets to output, limited by the end of the buffer. -/
def getOutputArea (input : InputExecutor Packet) : InputExecutor Packet × ℕ × ℕ :=
  let count := min input.outCount (options.bufferedPackets - input.outFirst)
  ({ input with outputInUse := decide (0 < count) }, input.outFirst, count)

/-- Frees packets at the start of the buffer, after they have been sent. -/
def freeOutput (input : InputExecutor Packet) (count : ℕ) : InputExecutor Packet :=
  { input with
    outFirst := (input.outFirst + count) % options.bufferedPackets
    outCount := input.outCount - count
    outputInUse := false }

/-- The buffer is full and the session goes on. -/
def LacksRoom (input : InputExecutor Packet) : Prop :=
  options.bufferedPackets ≤ input.outCount ∧ input.stopRequest = false ∧ input.terminated = false

instance (input : InputExecutor Packet) : Decidable (input.LacksRoom options) :=
  inferInstanceAs (Decidable (_ ∧ _ ∧ _))

/-- The input is current, or the mode is not fast. -/
def KeepsPackets (input : InputExecutor Packet) : Prop :=
  input.isCurrent = true ∨ options.fastSwitch = false

instance (input : InputExecutor Packet) : Decidable (input.KeepsPackets options) :=
  inferInstanceAs (Decidable (_ ∨ _))

def dropOldest (input : InputExecutor Packet) : InputExecutor Packet :=
  let freeCount := min options.maxInputPackets (options.bufferedPackets - input.outFirst)
  { input with
    outFirst := (input.outFirst + freeCount) % options.bufferedPackets
    outCount := input.outCount - freeCount }

def makeRoom : ℕ → InputExecutor Packet → Option (InputExecutor Packet)
  | 0, _ => none
  | turns + 1, input =>
    if input.LacksRoom options then
      if input.KeepsPackets options then none else makeRoom turns (input.dropOldest options)
    else some input

def inFirst (input : InputExecutor Packet) : ℕ :=
  (input.outFirst + input.outCount) % options.bufferedPackets

/-- The size of the receive area. -/
def inCount (input : InputExecutor Packet) : ℕ :=
  min options.maxInputPackets
    (min (options.bufferedPackets - input.outCount)
      (options.bufferedPackets - input.inFirst options))

/-- The next locked sequence, or the end of a session. -/
def advance (input : InputExecutor Packet) : Option (InputExecutor Packet) :=
  match input.phase with
  | .newSession => some { input with outFirst := 0, outCount := 0, phase := .waitingStart }
  | .waitingStart =>
    if input.terminated then some { input with phase := .exited }
    else if input.startRequest then
      some { input with startRequest := false, stopRequest := false, phase := .starting }
    else none
  | .starting => none
  | .waitingRoom =>
    (makeRoom options (input.outCount + 1) input).map fun roomy ↦
      if roomy.stopRequest ∨ roomy.terminated then { roomy with phase := .ending }
      else { roomy with phase := .receiving (roomy.inFirst options) (roomy.inCount options) }
  | .receiving _ _ => none
  | .signaling inCount =>
    some { input with outCount := input.outCount + inCount, phase := .waitingRoom }
  | .ending =>
    if input.outputInUse ∨
        (0 < input.outCount ∧ input.stopRequest = false ∧ input.terminated = false) then none
    else some { input with outFirst := 0, outCount := 0, phase := .stopping }
  | .stopping => some { input with phase := .newSession }
  | .exited => none

def started (input : InputExecutor Packet) (success : Bool) : Option (InputExecutor Packet) :=
  match input.phase with
  | .starting => some { input with phase := if success then .waitingRoom else .newSession }
  | _ => none

/-- The plugin returns packets, none at the end. -/
def receive (input : InputExecutor Packet) (packets : List Packet) :
    Option (InputExecutor Packet) :=
  match input.phase with
  | .receiving inFirst inCount =>
    if inCount < packets.length then none
    else
      some
        { input with
          buffer := CircularWindow.write input.buffer inFirst packets
          phase := if packets = [] then .ending else .signaling packets.length }
  | _ => none

end InputExecutor

/-- An area of packets that the output thread holds. -/
structure Area (Packet : Type) where
  first : ℕ
  packets : List Packet
  isSent : Bool

/-- An input, the output thread, and the packets so far. -/
structure HandOver (Packet : Type) where
  input : InputExecutor Packet
  held : Option (Area Packet)
  received : List Packet
  sent : List Packet

/-- The next locked sequence or plugin call of one of the threads. -/
inductive HandOver.Move (Packet : Type)
  | startInput (isCurrent : Bool)
  | stopInput
  | setCurrent (isCurrent : Bool)
  | terminateInput
  | getOutputArea
  | send
  | freeOutput
  | advance
  | started (success : Bool)
  | receive (packets : List Packet)

/-- The packets released, and those in the buffer. -/
structure Release where
  count : ℕ
  buffered : ℕ

/-- A release frees packets of the buffer only. -/
def Release.IsBuffered (release : Release) : Prop :=
  release.count ≤ release.buffered

def slots {Packet : Type} (buffer : ℕ → Packet) (first count : ℕ) : List Packet :=
  (List.range count).map fun offset ↦ buffer (first + offset)

namespace HandOver

variable {Packet : Type} (options : Options)

def new (buffer : ℕ → Packet) : HandOver Packet :=
  { input := .new buffer, held := none, received := [], sent := [] }

/-- The output thread asks for an area. -/
def getOutputArea (state : HandOver Packet) : Option (HandOver Packet) :=
  match state.held with
  | some _ => none
  | none =>
    let (input, first, count) := state.input.getOutputArea options
    some
      { state with
        input
        held :=
          if count = 0 then none
          else some { first, packets := slots input.buffer first count, isSent := false } }

/-- The output thread sends the packets that are now in the area it holds. -/
def send (state : HandOver Packet) : Option (HandOver Packet) :=
  state.held.bind fun area ↦
    if area.isSent then none
    else
      some
        { state with
          held := some { area with isSent := true }
          sent := state.sent ++ slots state.input.buffer area.first area.packets.length }

def freeOutput (state : HandOver Packet) : Option (HandOver Packet × List Release) :=
  state.held.bind fun area ↦
    if area.isSent then
      some
        ({ state with input := state.input.freeOutput options area.packets.length, held := none },
          [{ count := area.packets.length, buffered := state.input.outCount }])
    else none

def moved (state : HandOver Packet) (input : InputExecutor Packet) : HandOver Packet :=
  { state with input }

def counted (state : HandOver Packet) (packets : List Packet) : HandOver Packet :=
  { state with received := state.received ++ packets }

def step (state : HandOver Packet) : Move Packet → Option (HandOver Packet × List Release)
  | .startInput isCurrent => some (state.moved (state.input.startInput isCurrent), [])
  | .stopInput => some (state.moved state.input.stopInput, [])
  | .setCurrent isCurrent => some (state.moved (state.input.setCurrent isCurrent), [])
  | .terminateInput => some (state.moved state.input.terminateInput, [])
  | .getOutputArea => (state.getOutputArea options).map fun next ↦ (next, [])
  | .send => state.send.map fun next ↦ (next, [])
  | .freeOutput => state.freeOutput options
  | .advance => (state.input.advance options).map fun input ↦ (state.moved input, [])
  | .started success => (state.input.started success).map fun input ↦ (state.moved input, [])
  | .receive packets =>
    (state.input.receive packets).map fun input ↦ ((state.moved input).counted packets, [])

/-- A machine that reports the releases of packets. -/
def machine : Machine (HandOver Packet) (Move Packet) Release :=
  ⟨step options⟩

/-- The area is at the start of the window, with the packets it was returned with, and the packets
are sent in the order of reception. -/
structure Intact (state : HandOver Packet) : Prop where
  buffered : ∀ area ∈ state.held,
    area.first = state.input.outFirst ∧ area.packets.length ≤ state.input.outCount
  unchanged : ∀ area ∈ state.held,
    slots state.input.buffer area.first area.packets.length = area.packets
  ordered : state.sent.Sublist state.received

/-- Packets of a full buffer are dropped while in use. -/
def DropsInUse (state : HandOver Packet) (move : Move Packet) : Prop :=
  move = .advance ∧ state.input.phase = .waitingRoom ∧ state.input.LacksRoom options ∧
    ¬ state.input.KeepsPackets options ∧ state.input.outputInUse = true

/-! ### The invariant -/

end HandOver

/-- The thread is in an input session: the buffer may contain packets. -/
def Phase.InSession : Phase → Prop
  | .waitingRoom | .receiving _ _ | .signaling _ | .ending => True
  | .newSession | .waitingStart | .starting | .stopping | .exited => False

/-- The packets reserved after the window. -/
def Phase.reserved : Phase → ℕ
  | .receiving _ inCount => inCount
  | .signaling inCount => inCount
  | _ => 0

/-- The packets received and not signaled yet. -/
def Phase.unsignaled : Phase → ℕ
  | .signaling inCount => inCount
  | _ => 0

namespace HandOver

variable {Packet : Type} (options : Options)

def sending (state : HandOver Packet) : List Packet :=
  state.held.elim [] fun area ↦ if area.isSent then area.packets else []

/-- The window, the area in use, and the packets in and out. -/
structure Consistent (state : HandOver Packet) : Prop where
  first_lt : state.input.outFirst < options.bufferedPackets
  inUse : state.input.outputInUse = state.held.isSome
  idle : ¬ state.input.phase.InSession → state.input.outCount = 0
  room : state.input.outCount + state.input.phase.reserved ≤ options.bufferedPackets
  stuck : options.maxInputPackets = 0 → state.input.outCount + state.input.phase.reserved = 0
  reserve : ∀ inFirst inCount, state.input.phase = .receiving inFirst inCount →
    inFirst = state.input.inFirst options ∧ inFirst + inCount ≤ options.bufferedPackets
  area : ∀ area ∈ state.held, area.first = state.input.outFirst ∧ area.packets ≠ [] ∧
      area.packets.length ≤ state.input.outCount ∧
        area.first + area.packets.length ≤ options.bufferedPackets ∧
          slots state.input.buffer area.first area.packets.length = area.packets
  window : ∃ before gone, before.Sublist gone ∧ state.sent = before ++ state.sending ∧
    state.received = gone ++ CircularWindow.contents state.input.buffer options.bufferedPackets
      state.input.outFirst (state.input.outCount + state.input.phase.unsignaled)

variable {options} {state : HandOver Packet}

theorem consistent_new (buffer : ℕ → Packet) : Consistent options (new buffer) where
  first_lt := options.bufferedPackets_pos
  inUse := rfl
  idle _ := rfl
  room := Nat.zero_le _
  stuck _ := rfl
  reserve _ _ hphase := nomatch hphase
  area _ harea := nomatch harea
  window := ⟨[], [], .slnil, rfl, rfl⟩

namespace Consistent

theorem packets_eq (hconsistent : Consistent options state) {area : Area Packet}
    (harea : area ∈ state.held) :
    area.packets = CircularWindow.contents state.input.buffer options.bufferedPackets
      state.input.outFirst area.packets.length := by
  obtain ⟨hfirst, -, -, hend, hslots⟩ := hconsistent.area area harea
  rw [← hfirst, CircularWindow.contents_contiguous hend]
  exact hslots.symm

theorem intact (hconsistent : Consistent options state) : state.Intact := by
  refine ⟨fun area harea ↦ ?_, fun area harea ↦ ?_, ?_⟩
  · obtain ⟨hfirst, -, hcount, -⟩ := hconsistent.area area harea
    exact ⟨hfirst, hcount⟩
  · exact (hconsistent.area area harea).2.2.2.2
  · obtain ⟨before, gone, hbefore, hsent, hreceived⟩ := hconsistent.window
    rw [hsent, hreceived]
    refine hbefore.append ?_
    unfold sending
    cases hheld : state.held with
    | none => exact List.nil_sublist _
    | some area =>
      rw [Option.elim_some]
      split_ifs with hsend
      · rw [hconsistent.packets_eq hheld, ← CircularWindow.take_contents
          (Nat.le_add_right_of_le (hconsistent.area area hheld).2.2.1)]
        exact List.take_sublist _ _
      · exact List.nil_sublist _

theorem held_eq_none (hconsistent : Consistent options state) (hempty : state.input.outCount = 0) :
    state.held = none := by
  cases hheld : state.held with
  | none => rfl
  | some area =>
    obtain ⟨-, hne, hcount, -⟩ := hconsistent.area area hheld
    exact absurd (List.length_eq_zero_iff.mp (by omega)) hne

theorem held_eq_none_of_not_inUse (hconsistent : Consistent options state)
    (hnot : state.input.outputInUse = false) : state.held = none := by
  rw [hconsistent.inUse] at hnot
  simpa using hnot

theorem flagged (hconsistent : Consistent options state)
    (isCurrent startRequest stopRequest terminated : Bool) :
    Consistent options (state.moved
      { state.input with isCurrent, startRequest, stopRequest, terminated }) :=
  { hconsistent with }

/-- A thread that has reserved nothing changes its phase. -/
theorem rephase (hconsistent : Consistent options state) {phase : Phase}
    (hreserved : state.input.phase.unsignaled = 0) (hnext : phase.reserved = 0)
    (hunsignaled : phase.unsignaled = 0)
    (hreceiving : ∀ inFirst inCount, phase ≠ .receiving inFirst inCount)
    (hidle : ¬ phase.InSession → state.input.outCount = 0) :
    Consistent options (state.moved { state.input with phase }) where
  first_lt := hconsistent.first_lt
  inUse := hconsistent.inUse
  idle := hidle
  room := by
    have hroom := hconsistent.room
    show state.input.outCount + phase.reserved ≤ _
    omega
  stuck hmax := by
    have hstuck := hconsistent.stuck hmax
    show state.input.outCount + phase.reserved = 0
    omega
  reserve inFirst inCount hphase := absurd hphase (hreceiving inFirst inCount)
  area := hconsistent.area
  window := by
    obtain ⟨before, gone, hbefore, hsent, hreceived⟩ := hconsistent.window
    refine ⟨before, gone, hbefore, hsent, ?_⟩
    rw [hreserved] at hreceived
    show state.received = gone ++ CircularWindow.contents state.input.buffer _
      state.input.outFirst (state.input.outCount + phase.unsignaled)
    rw [hunsignaled, hreceived]

theorem reset (hconsistent : Consistent options state) {phase : Phase}
    (hheld : state.held = none) (hnext : phase.reserved = 0) (hunsignaled : phase.unsignaled = 0)
    (hreceiving : ∀ inFirst inCount, phase ≠ .receiving inFirst inCount) :
    Consistent options (state.moved { state.input with outFirst := 0, outCount := 0, phase }) where
  first_lt := options.bufferedPackets_pos
  inUse := hconsistent.inUse
  idle _ := rfl
  room := by
    show 0 + phase.reserved ≤ _
    omega
  stuck _ := by
    show 0 + phase.reserved = 0
    omega
  reserve inFirst inCount hphase := absurd hphase (hreceiving inFirst inCount)
  area area harea := by
    have hnone : area ∈ (none : Option (Area Packet)) := hheld ▸ harea
    cases hnone
  window := by
    obtain ⟨before, gone, hbefore, hsent, hreceived⟩ := hconsistent.window
    refine ⟨before, state.received, ?_, hsent, ?_⟩
    · rw [hreceived]
      exact hbefore.trans (List.sublist_append_left _ _)
    · show state.received = state.received ++ CircularWindow.contents _ _ _ (0 + phase.unsignaled)
      rw [hunsignaled, CircularWindow.contents_zero, List.append_nil]

theorem release (hconsistent : Consistent options state) {count : ℕ}
    (hcount : count ≤ state.input.outCount)
    (hsending : state.sending.Sublist (CircularWindow.contents state.input.buffer
      options.bufferedPackets state.input.outFirst count)) :
    Consistent options
      { state with input := state.input.freeOutput options count, held := none } where
  first_lt := Nat.mod_lt _ options.bufferedPackets_pos
  inUse := rfl
  idle hidle := by
    show state.input.outCount - count = 0
    rw [hconsistent.idle hidle, Nat.zero_sub]
  room := by
    have hroom := hconsistent.room
    show state.input.outCount - count + state.input.phase.reserved ≤ _
    omega
  stuck hmax := by
    have hstuck := hconsistent.stuck hmax
    show state.input.outCount - count + state.input.phase.reserved = 0
    omega
  reserve inFirst inCount hphase := by
    obtain ⟨hfirst, hend⟩ := hconsistent.reserve inFirst inCount hphase
    refine ⟨hfirst.trans ?_, hend⟩
    show _ % _ = ((state.input.outFirst + count) % options.bufferedPackets +
      (state.input.outCount - count)) % options.bufferedPackets
    rw [Nat.mod_add_mod, Nat.add_assoc, Nat.add_sub_cancel' hcount]
  area _ harea := nomatch harea
  window := by
    obtain ⟨before, gone, hbefore, hsent, hreceived⟩ := hconsistent.window
    refine ⟨before ++ state.sending,
      gone ++ CircularWindow.contents state.input.buffer options.bufferedPackets
        state.input.outFirst count, hbefore.append hsending, ?_, ?_⟩
    · rw [hsent]
      exact (List.append_nil _).symm
    · have hsplit : state.input.outCount + state.input.phase.unsignaled =
          count + (state.input.outCount - count + state.input.phase.unsignaled) := by omega
      rw [hreceived, hsplit, CircularWindow.contents_add, List.append_assoc]
      rfl

theorem dropOldest (hconsistent : Consistent options state) (hnot : state.input.outputInUse = false)
    (hfull : options.bufferedPackets ≤ state.input.outCount) :
    Consistent options (state.moved (state.input.dropOldest options)) := by
  have hheld := hconsistent.held_eq_none_of_not_inUse hnot
  have hsame : state.moved (state.input.dropOldest options) = { state with
        input := state.input.freeOutput options
          (min options.maxInputPackets (options.bufferedPackets - state.input.outFirst))
        held := none } := by
    simp only [moved, InputExecutor.dropOldest, InputExecutor.freeOutput, hnot, hheld]
  rw [hsame]
  exact hconsistent.release (by omega) (by simp [sending, hheld])

theorem reserved (hconsistent : Consistent options state)
    (hphase : state.input.phase = .waitingRoom) :
    Consistent options (state.moved { state.input with
      phase := .receiving (state.input.inFirst options) (state.input.inCount options) }) where
  first_lt := hconsistent.first_lt
  inUse := hconsistent.inUse
  idle hidle := absurd trivial hidle
  room := by
    have hroom := hconsistent.room
    show state.input.outCount + state.input.inCount options ≤ _
    unfold InputExecutor.inCount
    omega
  stuck hmax := by
    have hstuck := hconsistent.stuck hmax
    show state.input.outCount + state.input.inCount options = 0
    unfold InputExecutor.inCount
    omega
  reserve inFirst inCount hreceiving := by
    obtain ⟨rfl, rfl⟩ := Phase.receiving.inj hreceiving
    refine ⟨rfl, ?_⟩
    have hlt : state.input.inFirst options < options.bufferedPackets :=
      Nat.mod_lt _ options.bufferedPackets_pos
    unfold InputExecutor.inCount
    omega
  area := hconsistent.area
  window := by
    have hwindow := hconsistent.window
    rw [hphase] at hwindow
    exact hwindow

theorem signaled (hconsistent : Consistent options state) {inCount : ℕ}
    (hphase : state.input.phase = .signaling inCount) :
    Consistent options (state.moved { state.input with
      outCount := state.input.outCount + inCount, phase := .waitingRoom }) where
  first_lt := hconsistent.first_lt
  inUse := hconsistent.inUse
  idle hidle := absurd trivial hidle
  room := by
    have hroom := hconsistent.room
    rw [hphase] at hroom
    exact hroom
  stuck hmax := by
    have hstuck := hconsistent.stuck hmax
    rw [hphase] at hstuck
    exact hstuck
  reserve _ _ hreceiving := nomatch hreceiving
  area area harea := by
    obtain ⟨hfirst, hne, hcount, hend, hslots⟩ := hconsistent.area area harea
    exact ⟨hfirst, hne, Nat.le_add_right_of_le hcount, hend, hslots⟩
  window := by
    have hwindow := hconsistent.window
    rw [hphase] at hwindow
    exact hwindow

theorem receive (hconsistent : Consistent options state) {inFirst inCount : ℕ}
    {packets : List Packet} (hphase : state.input.phase = .receiving inFirst inCount)
    (hlength : packets.length ≤ inCount) :
    Consistent options ((state.moved { state.input with
      buffer := CircularWindow.write state.input.buffer inFirst packets
      phase := if packets = [] then .ending else .signaling packets.length }).counted packets) := by
  obtain ⟨rfl, hend⟩ := hconsistent.reserve inFirst inCount hphase
  have hroom := hconsistent.room
  rw [hphase] at hroom
  have hfit : state.input.outCount + packets.length ≤ options.bufferedPackets :=
    (Nat.add_le_add_left hlength _).trans hroom
  have hbefore : state.input.inFirst options + packets.length ≤ options.bufferedPackets := by omega
  have hkept : ∀ count, count ≤ state.input.outCount → CircularWindow.contents
        (CircularWindow.write state.input.buffer (state.input.inFirst options) packets)
        options.bufferedPackets state.input.outFirst count =
      CircularWindow.contents state.input.buffer options.bufferedPackets state.input.outFirst
        count := by
    intro count hcount
    rw [← CircularWindow.take_contents hcount, ← CircularWindow.take_contents hcount,
      InputExecutor.inFirst, CircularWindow.contents_write hfit hbefore]
  have hreserved : (if packets = [] then Phase.ending else .signaling packets.length).reserved =
      packets.length := by
    split_ifs with hempty
    · rw [hempty]
      rfl
    · rfl
  have hunsignaled : (if packets = [] then Phase.ending else .signaling packets.length).unsignaled =
      packets.length := by
    split_ifs with hempty
    · rw [hempty]
      rfl
    · rfl
  refine
    { first_lt := hconsistent.first_lt
      inUse := hconsistent.inUse
      idle := fun hidle ↦ absurd ?_ hidle
      room := ?_
      stuck := fun hmax ↦ ?_
      reserve := fun first count hreceiving ↦ ?_
      area := fun area harea ↦ ?_
      window := ?_ }
  · show Phase.InSession (if packets = [] then _ else _)
    split_ifs <;> trivial
  · show state.input.outCount + Phase.reserved (if packets = [] then _ else _) ≤ _
    rw [hreserved]
    exact hfit
  · have hstuck := hconsistent.stuck hmax
    rw [hphase] at hstuck
    show state.input.outCount + Phase.reserved (if packets = [] then _ else _) = 0
    rw [hreserved]
    change state.input.outCount + inCount = 0 at hstuck
    omega
  · change (if packets = [] then Phase.ending else .signaling packets.length) = _ at hreceiving
    split_ifs at hreceiving
  · obtain ⟨hfirst, hne, hcount, hfits, hslots⟩ := hconsistent.area area harea
    refine ⟨hfirst, hne, hcount, hfits, ?_⟩
    have hpackets := hconsistent.packets_eq harea
    show slots (CircularWindow.write _ _ _) _ _ = _
    rw [hfirst] at hfits ⊢
    rw [slots, ← CircularWindow.contents_contiguous hfits, hkept _ hcount]
    exact hpackets.symm
  · obtain ⟨before, gone, hsublist, hsent, hreceived⟩ := hconsistent.window
    refine ⟨before, gone, hsublist, hsent, ?_⟩
    show state.received ++ packets = gone ++ CircularWindow.contents
      (CircularWindow.write state.input.buffer _ packets) _ state.input.outFirst
        (state.input.outCount + Phase.unsignaled (if packets = [] then _ else _))
    rw [hunsignaled, CircularWindow.contents_add, hkept _ le_rfl, hreceived, hphase]
    rw [← InputExecutor.inFirst, CircularWindow.contents_written hbefore, List.append_assoc]
    rfl

theorem getOutputArea (hconsistent : Consistent options state) {next : HandOver Packet}
    (hnext : state.getOutputArea options = some next) : Consistent options next := by
  obtain ⟨count, hcount⟩ :
      ∃ count, count = min state.input.outCount (options.bufferedPackets - state.input.outFirst) :=
    ⟨_, rfl⟩
  have hfirst := hconsistent.first_lt
  have hlength : (slots state.input.buffer state.input.outFirst count).length = count := by
    simp [slots]
  cases hheld : state.held with
  | some area => simp [HandOver.getOutputArea, hheld] at hnext
  | none =>
    have hresult : state.getOutputArea options = some
        { state with
          input := { state.input with outputInUse := decide (0 < count) }
          held :=
            if count = 0 then none
            else
              some
                { first := state.input.outFirst
                  packets := slots state.input.buffer state.input.outFirst count
                  isSent := false } } := by
      simp only [HandOver.getOutputArea, hheld, hcount]
      rfl
    obtain rfl := Option.some.inj (hresult.symm.trans hnext)
    obtain ⟨before, gone, hbefore, hsent, hreceived⟩ := hconsistent.window
    rw [sending, hheld] at hsent
    by_cases hempty : count = 0
    · rw [if_pos hempty]
      exact
        { first_lt := hconsistent.first_lt
          inUse := by simp [hempty]
          idle := hconsistent.idle
          room := hconsistent.room
          stuck := hconsistent.stuck
          reserve := hconsistent.reserve
          area := fun area harea ↦ nomatch harea
          window := ⟨before, gone, hbefore, hsent, hreceived⟩ }
    · rw [if_neg hempty]
      refine
        { first_lt := hconsistent.first_lt
          inUse := by simpa using Nat.pos_of_ne_zero hempty
          idle := hconsistent.idle
          room := hconsistent.room
          stuck := hconsistent.stuck
          reserve := hconsistent.reserve
          area := fun area harea ↦ ?_
          window := ⟨before, gone, hbefore, hsent, hreceived⟩ }
      obtain rfl := Option.some.inj harea
      refine ⟨rfl, fun hnil ↦ hempty ?_, ?_, ?_, ?_⟩
      · rw [← hlength]
        exact List.length_eq_zero_iff.mpr hnil
      · have hle : count ≤ state.input.outCount := by omega
        exact hlength.le.trans hle
      · show state.input.outFirst + (slots _ _ _).length ≤ _
        omega
      · show slots _ _ (slots _ _ _).length = _
        rw [hlength]

theorem send (hconsistent : Consistent options state) {next : HandOver Packet}
    (hnext : state.send = some next) : Consistent options next := by
  obtain ⟨area, hheld, hsend⟩ := Option.bind_eq_some_iff.mp hnext
  split_ifs at hsend with hsent
  obtain rfl := Option.some.inj hsend
  obtain ⟨before, gone, hbefore, hprevious, hreceived⟩ := hconsistent.window
  have harea := hconsistent.area area hheld
  refine
    { first_lt := hconsistent.first_lt
      inUse := ?_
      idle := hconsistent.idle
      room := hconsistent.room
      stuck := hconsistent.stuck
      reserve := hconsistent.reserve
      area := ?_
      window := ⟨before, gone, hbefore, ?_, hreceived⟩ }
  · rw [hconsistent.inUse, hheld]
    rfl
  · intro other hother
    obtain rfl := Option.some.inj hother
    exact harea
  · show state.sent ++ slots _ _ _ = before ++ area.packets
    rw [harea.2.2.2.2, hprevious, sending, hheld, Option.elim_some, if_neg hsent, List.append_nil]

theorem freeOutput (hconsistent : Consistent options state) {next : HandOver Packet}
    {releases : List Release} (hnext : state.freeOutput options = some (next, releases)) :
    Consistent options next ∧ ∀ release ∈ releases, release.IsBuffered := by
  obtain ⟨area, hheld, hfree⟩ := Option.bind_eq_some_iff.mp hnext
  split_ifs at hfree with hsent
  obtain ⟨rfl, rfl⟩ := Prod.mk.inj (Option.some.inj hfree)
  have hcount := (hconsistent.area area hheld).2.2.1
  refine ⟨hconsistent.release hcount ?_, ?_⟩
  · rw [sending, hheld, Option.elim_some, if_pos hsent, ← hconsistent.packets_eq hheld]
  · intro release hrelease
    obtain rfl := List.mem_singleton.mp hrelease
    exact hcount

end Consistent

/-- Packets are dropped once, if there is no room. -/
theorem makeRoom_spec (hconsistent : Consistent options state) {roomy : InputExecutor Packet}
    (hroomy : InputExecutor.makeRoom options (state.input.outCount + 1) state.input = some roomy) :
    ¬ state.input.LacksRoom options ∧ roomy = state.input ∨
      state.input.LacksRoom options ∧ ¬ state.input.KeepsPackets options ∧
        roomy = state.input.dropOldest options := by
  unfold InputExecutor.makeRoom at hroomy
  split_ifs at hroomy with hlacks hkeeps
  · refine Or.inr ⟨hlacks, hkeeps, ?_⟩
    have hsize := options.bufferedPackets_pos
    have hfirst := hconsistent.first_lt
    have hroom := hconsistent.room
    have hfull := hlacks.1
    have hmax : options.maxInputPackets ≠ 0 := by
      intro hzero
      have hstuck := hconsistent.stuck hzero
      omega
    have hroom : ¬ (state.input.dropOldest options).LacksRoom options := by
      rintro ⟨hstill, -⟩
      change options.bufferedPackets ≤ state.input.outCount -
        min options.maxInputPackets (options.bufferedPackets - state.input.outFirst) at hstill
      omega
    obtain ⟨turns, hturns⟩ : ∃ turns, state.input.outCount = turns + 1 :=
      Nat.exists_eq_add_of_le' (by omega)
    rw [hturns, InputExecutor.makeRoom, if_neg hroom, Option.some.injEq] at hroomy
    exact hroomy.symm
  · exact Or.inl ⟨hlacks, (Option.some.inj hroomy).symm⟩

theorem Consistent.advance (hconsistent : Consistent options state)
    (hcondition : ¬ DropsInUse options state .advance) {input : InputExecutor Packet}
    (hadvance : state.input.advance options = some input) :
    Consistent options (state.moved input) := by
  have hidle := hconsistent.idle
  unfold InputExecutor.advance at hadvance
  cases hphase : state.input.phase with
  | newSession =>
    simp only [hphase, Option.some.injEq] at hadvance
    subst hadvance
    rw [hphase] at hidle
    exact hconsistent.reset (hconsistent.held_eq_none (hidle id)) rfl rfl nofun
  | waitingStart =>
    simp only [hphase] at hadvance
    rw [hphase] at hidle
    have hnothing : state.input.phase.unsignaled = 0 := by rw [hphase]; rfl
    split_ifs at hadvance
    · obtain rfl := Option.some.inj hadvance
      exact hconsistent.rephase hnothing rfl rfl nofun fun _ ↦ hidle id
    · obtain rfl := Option.some.inj hadvance
      have hstarting : Consistent options
          (state.moved { state.input with phase := .starting }) :=
        hconsistent.rephase hnothing rfl rfl nofun fun _ ↦ hidle id
      exact hstarting.flagged state.input.isCurrent false false state.input.terminated
  | starting => simp [hphase] at hadvance
  | waitingRoom =>
    simp only [hphase, Option.map_eq_some_iff] at hadvance
    obtain ⟨roomy, hroomy, rfl⟩ := hadvance
    have hwaiting : Consistent options (state.moved roomy) ∧ roomy.phase = .waitingRoom := by
      rcases makeRoom_spec hconsistent hroomy with ⟨-, rfl⟩ | ⟨hlacks, hkeeps, rfl⟩
      · exact ⟨hconsistent, hphase⟩
      · have hnot : state.input.outputInUse = false := by
          by_contra hinUse
          exact hcondition ⟨rfl, hphase, hlacks, hkeeps, Bool.eq_true_of_not_eq_false hinUse⟩
        exact ⟨hconsistent.dropOldest hnot hlacks.1, hphase⟩
    obtain ⟨hroomyConsistent, hroomyPhase⟩ := hwaiting
    have hnothing : (state.moved roomy).input.phase.unsignaled = 0 := by
      show roomy.phase.unsignaled = 0
      rw [hroomyPhase]
      rfl
    split_ifs
    · exact hroomyConsistent.rephase hnothing rfl rfl nofun fun hout ↦ absurd trivial hout
    · exact hroomyConsistent.reserved hroomyPhase
  | receiving inFirst inCount => simp [hphase] at hadvance
  | signaling inCount =>
    simp only [hphase, Option.some.injEq] at hadvance
    subst hadvance
    exact hconsistent.signaled hphase
  | ending =>
    simp only [hphase] at hadvance
    split_ifs at hadvance with hwaits
    obtain rfl := Option.some.inj hadvance
    have hnot : state.input.outputInUse = false := by
      by_contra hinUse
      exact hwaits (Or.inl (Bool.eq_true_of_not_eq_false hinUse))
    exact hconsistent.reset (hconsistent.held_eq_none_of_not_inUse hnot) rfl rfl nofun
  | stopping =>
    simp only [hphase, Option.some.injEq] at hadvance
    subst hadvance
    rw [hphase] at hidle
    have hnothing : state.input.phase.unsignaled = 0 := by rw [hphase]; rfl
    exact hconsistent.rephase hnothing rfl rfl nofun fun _ ↦ hidle id
  | exited => simp [hphase] at hadvance

theorem Consistent.step (hconsistent : Consistent options state) {move : Move Packet}
    (hcondition : ¬ DropsInUse options state move) {next : HandOver Packet}
    {releases : List Release} (hnext : step options state move = some (next, releases)) :
    Consistent options next ∧ ∀ release ∈ releases, release.IsBuffered := by
  have hsilent : ∀ {other : HandOver Packet}, Consistent options other →
      some (other, []) = some (next, releases) →
        Consistent options next ∧ ∀ release ∈ releases, release.IsBuffered := by
    intro other hother hsame
    obtain ⟨rfl, rfl⟩ := Prod.mk.inj (Option.some.inj hsame)
    exact ⟨hother, by simp⟩
  cases move with
  | startInput isCurrent =>
    exact hsilent (hconsistent.flagged isCurrent true false state.input.terminated) hnext
  | stopInput =>
    exact hsilent
      (hconsistent.flagged state.input.isCurrent false true state.input.terminated) hnext
  | setCurrent isCurrent =>
    exact hsilent (hconsistent.flagged isCurrent state.input.startRequest
      state.input.stopRequest state.input.terminated) hnext
  | terminateInput =>
    exact hsilent (hconsistent.flagged state.input.isCurrent state.input.startRequest
      state.input.stopRequest true) hnext
  | getOutputArea =>
    obtain ⟨other, hother, hsame⟩ := Option.map_eq_some_iff.mp hnext
    exact hsilent (hconsistent.getOutputArea hother) (congrArg some hsame)
  | send =>
    obtain ⟨other, hother, hsame⟩ := Option.map_eq_some_iff.mp hnext
    exact hsilent (hconsistent.send hother) (congrArg some hsame)
  | freeOutput => exact hconsistent.freeOutput hnext
  | advance =>
    obtain ⟨input, hinput, hsame⟩ := Option.map_eq_some_iff.mp hnext
    exact hsilent (hconsistent.advance hcondition hinput) (congrArg some hsame)
  | started success =>
    obtain ⟨input, hinput, hsame⟩ := Option.map_eq_some_iff.mp hnext
    refine hsilent ?_ (congrArg some hsame)
    unfold InputExecutor.started at hinput
    split at hinput
    case h_1 hphase =>
      obtain rfl := Option.some.inj hinput
      have hempty : state.input.outCount = 0 := by
        refine hconsistent.idle ?_
        rw [hphase]
        exact id
      have hnothing : state.input.phase.unsignaled = 0 := by rw [hphase]; rfl
      cases success with
      | false => exact hconsistent.rephase hnothing rfl rfl nofun fun _ ↦ hempty
      | true => exact hconsistent.rephase hnothing rfl rfl nofun fun _ ↦ hempty
    case h_2 => cases hinput
  | receive packets =>
    obtain ⟨input, hinput, hsame⟩ := Option.map_eq_some_iff.mp hnext
    refine hsilent ?_ (congrArg some hsame)
    unfold InputExecutor.receive at hinput
    split at hinput
    case h_1 inFirst inCount hphase =>
      by_cases hlong : inCount < packets.length
      · simp [hlong] at hinput
      · rw [if_neg hlong] at hinput
        obtain rfl := Option.some.inj hinput
        exact hconsistent.receive hphase (Nat.le_of_not_lt hlong)
    case h_2 => cases hinput

theorem Consistent.not_intact_of_dropsInUse (hconsistent : Consistent options state)
    {move : Move Packet} (hdrops : DropsInUse options state move) {next : HandOver Packet}
    {releases : List Release} (hnext : HandOver.step options state move = some (next, releases)) :
    ¬ next.Intact := by
  obtain ⟨rfl, hphase, hlacks, hkeeps, hinUse⟩ := hdrops
  obtain ⟨input, hinput, hsame⟩ := Option.map_eq_some_iff.mp hnext
  obtain ⟨rfl, rfl⟩ := Prod.mk.inj hsame
  rw [hconsistent.inUse] at hinUse
  obtain ⟨area, harea⟩ := Option.isSome_iff_exists.mp hinUse
  obtain ⟨hfirst, hne, hcount, hend, -⟩ := hconsistent.area area harea
  simp only [InputExecutor.advance, hphase, Option.map_eq_some_iff] at hinput
  obtain ⟨roomy, hroomy, rfl⟩ := hinput
  have hdropped : roomy = state.input.dropOldest options := by
    rcases makeRoom_spec hconsistent hroomy with ⟨hroom, -⟩ | ⟨-, -, hdropped⟩
    · exact absurd hlacks hroom
    · exact hdropped
  subst hdropped
  intro hintact
  obtain ⟨hstill, hbuffered⟩ := hintact.buffered area harea
  have hwindow : area.first = (state.input.outFirst + min options.maxInputPackets
        (options.bufferedPackets - state.input.outFirst)) % options.bufferedPackets ∧
      area.packets.length ≤ state.input.outCount -
        min options.maxInputPackets (options.bufferedPackets - state.input.outFirst) := by
    split_ifs at hstill hbuffered <;> exact ⟨hstill, hbuffered⟩
  obtain ⟨hsame, hle⟩ := hwindow
  have hmax : options.maxInputPackets ≠ 0 := by
    intro hzero
    have hstuck := hconsistent.stuck hzero
    have hsize := options.bufferedPackets_pos
    have hfull := hlacks.1
    omega
  have hpos := List.length_pos_iff.mpr hne
  have hlt := hconsistent.first_lt
  have hroom := hconsistent.room
  have hfull := hlacks.1
  rcases Nat.lt_or_ge options.maxInputPackets
    (options.bufferedPackets - state.input.outFirst) with hshort | hlong
  · rw [min_eq_left hshort.le, Nat.mod_eq_of_lt (by omega)] at hsame
    omega
  · rw [min_eq_right hlong, Nat.add_sub_cancel' hlt.le, Nat.mod_self] at hsame
    rw [min_eq_right hlong] at hle
    omega

/-- Every area stays intact, the packets are sent in order and only packets of the buffer are freed
if and only if the input thread never drops packets in use. -/
theorem intact_iff_never_dropsInUse (options : Options) (buffer : ℕ → Packet)
    (moves : List (Move Packet)) {last : HandOver Packet} {releases : List Release}
    (hrun : (machine options).run (new buffer) moves = some (last, releases)) :
    (machine options).HoldsAlong Intact Release.IsBuffered (new buffer) moves ↔
      (machine options).Meets (fun state move ↦ ¬ DropsInUse options state move) (new buffer)
        moves := by
  refine (machine options).holdsAlong_iff_meets (fun state ↦ Consistent.intact)
    (fun state move next releases _ hconsistent hcondition hnext ↦
      hconsistent.step hcondition hnext)
    (fun state move next releases _ hconsistent hcondition hnext hproperty ↦
      hconsistent.not_intact_of_dropsInUse (not_not.mp hcondition) hnext hproperty.1)
    (fun move _ ↦ trivial) (consistent_new buffer) hrun

/-- Fast switch, with two buffers of two packets. -/
def fastOptions : Options where
  inputs := 2
  fastSwitch := true
  delayedSwitch := false
  terminate := false
  firstInput := 0
  primaryInput := none
  cycleCount := 0
  bufferedPackets := 2
  maxInputPackets := 1
  firstInput_lt := Nat.two_pos
  primaryInput_lt := fun _ hindex ↦ absurd hindex (Option.not_mem_none _)
  exclusive := fun hboth ↦ Bool.false_ne_true hboth.2
  bufferedPackets_pos := Nat.two_pos
  maxInputPackets_le := by decide

/-- The input changes before both packets are sent. -/
def switchedMoves : List (Move ℕ) :=
  [.startInput true, .advance, .advance, .started true, .advance, .receive [1], .advance, .advance,
    .receive [2], .advance, .getOutputArea, .setCurrent false, .advance, .receive [3], .send]

/-- Packet 3 is sent before packet 2, and packet 1 never. -/
theorem switchedMoves_not_intact :
    ¬ (machine fastOptions).HoldsAlong Intact Release.IsBuffered (new fun _ ↦ 0)
      switchedMoves := by
  intro hholds
  have hordered := (hholds switchedMoves (List.prefix_refl _) _ _ rfl).1.ordered
  have hnot : ¬ [3, 2].Sublist [1, 2, 3] := by decide
  exact hnot hordered

/-- These moves are a run, to which the characterisation applies. -/
theorem intact_iff_never_dropsInUse_switchedMoves :
    (machine fastOptions).HoldsAlong Intact Release.IsBuffered (new fun _ ↦ 0) switchedMoves ↔
      (machine fastOptions).Meets (fun state move ↦ ¬ DropsInUse fastOptions state move)
        (new fun _ ↦ 0) switchedMoves :=
  intact_iff_never_dropsInUse fastOptions (fun _ ↦ 0) switchedMoves rfl

end HandOver

end TSDuck.TSSwitch
