import TSDuck.Library.CircularWindow
import TSDuck.Library.Machine
import TSDuck.Mpeg.PCRAnalyzer

/-!
# A queue of transport packets

A writer thread and a reader thread share a circular buffer of packets. The writer asks for a
contiguous write window, fills it outside of the lock, and releases the first packets of it, which
become part of the queue.

`QueueMachine.machine` interleaves the calls of the two threads with the assignments of the writer
inside its window. The invariant `QueueMachine.Sound` relates the two indexes, the count and the
window, and `QueueMachine.fifo_of_run` states that the reader gets the packets which are written, in
order and without loss or duplication.

Scope. Each call is one step, as the mutex of the queue makes it. The writer releases at most what
remains of the window which was granted last. Sizes are natural numbers, all of them at most the
size of the buffer.
-/

namespace TSDuck

def queuePcrSettings : PCRSettings :=
  { useDts := false, ignoreErrors := false, minPid := 1, minPcr := 12 }

structure TSPacketQueue where
  eof : Bool
  stopped : Bool
  size : ℕ
  buffer : ℕ → TSPacket
  pcr : PCRAnalyzer
  inCount : ℕ
  readIndex : ℕ
  writeIndex : ℕ
  bitrate : ℕ

namespace TSPacketQueue

def new (size : ℕ) (buffer : ℕ → TSPacket) : TSPacketQueue where
  eof := false
  stopped := false
  size := size
  buffer := buffer
  pcr := PCRAnalyzer.start
  inCount := 0
  readIndex := 0
  writeIndex := 0
  bitrate := 0

/-- The size of the granted window, `none` while waiting. -/
def lockWriteBuffer (queue : TSPacketQueue) (minSize : ℕ) : Option ℕ :=
  let maxSize := queue.size - queue.writeIndex
  if !queue.stopped && decide (queue.size - queue.inCount < max 1 (min minSize maxSize)) then none
  else if queue.stopped then some 0
  else if queue.readIndex > queue.writeIndex then some (queue.readIndex - queue.writeIndex)
  else some maxSize

def maxCount (queue : TSPacketQueue) : ℕ :=
  (if queue.readIndex > queue.writeIndex then queue.readIndex else queue.size) - queue.writeIndex

def windowPackets (queue : TSPacketQueue) (count : ℕ) : List TSPacket :=
  (List.range count).map fun offset ↦ queue.buffer (queue.writeIndex + offset)

def setPacket (queue : TSPacketQueue) (index : ℕ) (packet : TSPacket) : TSPacketQueue :=
  { queue with buffer := Function.update queue.buffer index packet }

def releaseWriteBuffer (queue : TSPacketQueue) (count : ℕ) : TSPacketQueue :=
  let count := if count > queue.maxCount then queue.maxCount else count
  { queue with
    pcr :=
      if queue.bitrate = 0 then
        (queue.windowPackets count).foldl (PCRAnalyzer.feedPacket .words queuePcrSettings) queue.pcr
      else queue.pcr
    inCount := queue.inCount + count
    writeIndex := (queue.writeIndex + count) % queue.size }

def setBitrate (queue : TSPacketQueue) (bitrate : ℕ) : TSPacketQueue :=
  { queue with
    bitrate := bitrate
    pcr := if bitrate > 0 then PCRAnalyzer.start else queue.pcr }

/-- All packets are read and the writer has reported the end of its input. -/
def isEof (queue : TSPacketQueue) : Bool :=
  queue.eof && queue.inCount == 0

def setEOF (queue : TSPacketQueue) : TSPacketQueue :=
  { queue with eof := true }

def getBitrate (queue : TSPacketQueue) : ℕ :=
  if queue.bitrate ≠ 0 then queue.bitrate
  else if queue.pcr.bitrateValid then queue.pcr.bitrate188
  else 0

def nextPacket (queue : TSPacketQueue) : TSPacket :=
  queue.buffer queue.readIndex

def dropPacket (queue : TSPacketQueue) : TSPacketQueue :=
  { queue with
    readIndex := (queue.readIndex + 1) % queue.size
    inCount := queue.inCount - 1 }

def getPacket (queue : TSPacketQueue) : (Option TSPacket × ℕ) × TSPacketQueue :=
  if queue.inCount = 0 then ((none, queue.getBitrate), queue)
  else ((some queue.nextPacket, queue.getBitrate), queue.dropPacket)

/-- Copies packets of the queue while there is room. -/
def copyPackets (queue : TSPacketQueue) : ℕ → List TSPacket × TSPacketQueue
  | 0 => ([], queue)
  | bufferCount + 1 =>
    if queue.inCount > 0 then
      let (packets, last) := queue.dropPacket.copyPackets bufferCount
      (queue.nextPacket :: packets, last)
    else ([], queue)

/-- The available packets and the bitrate, `none` while waiting. -/
def waitPackets (queue : TSPacketQueue) (bufferCount : ℕ) :
    Option ((List TSPacket × ℕ) × TSPacketQueue) :=
  if !queue.eof && !queue.stopped && queue.inCount == 0 then none
  else
    let (packets, last) := queue.copyPackets bufferCount
    some ((packets, last.getBitrate), last)

def stop (queue : TSPacketQueue) : TSPacketQueue :=
  { queue with stopped := true }

def contents (queue : TSPacketQueue) : List TSPacket :=
  CircularWindow.contents queue.buffer queue.size queue.readIndex queue.inCount

/-- The indexes are inside the buffer. -/
structure Sound (queue : TSPacketQueue) : Prop where
  readIndex_lt : queue.readIndex < queue.size
  inCount_le : queue.inCount ≤ queue.size
  writeIndex_eq : queue.writeIndex = (queue.readIndex + queue.inCount) % queue.size

variable {queue : TSPacketQueue}

namespace Sound

theorem writeIndex_lt (hqueue : queue.Sound) : queue.writeIndex < queue.size := by
  rw [hqueue.writeIndex_eq]
  exact Nat.mod_lt _ (Nat.zero_lt_of_lt hqueue.readIndex_lt)

theorem writeIndex_cases (hqueue : queue.Sound) :
    queue.readIndex + queue.inCount = queue.writeIndex ∨
      queue.readIndex + queue.inCount = queue.writeIndex + queue.size := by
  have hread := hqueue.readIndex_lt
  have hcount := hqueue.inCount_le
  rw [hqueue.writeIndex_eq]
  by_cases hend : queue.readIndex + queue.inCount < queue.size
  · exact Or.inl (Nat.mod_eq_of_lt hend).symm
  · right
    rw [Nat.mod_eq_sub_mod (by omega), Nat.mod_eq_of_lt (by omega)]
    omega

theorem lockWriteBuffer (hqueue : queue.Sound) {minSize granted : ℕ}
    (hgranted : queue.lockWriteBuffer minSize = some granted) :
    queue.inCount + granted ≤ queue.size ∧ queue.writeIndex + granted ≤ queue.size := by
  have hwrite := hqueue.writeIndex_lt
  have hread := hqueue.readIndex_lt
  have hcount := hqueue.inCount_le
  have hcases := hqueue.writeIndex_cases
  simp only [TSPacketQueue.lockWriteBuffer, Bool.and_eq_true, Bool.not_eq_true',
    decide_eq_true_eq] at hgranted
  split_ifs at hgranted with hwaits hstopped hwrapped
  · obtain rfl := Option.some.inj hgranted
    omega
  · obtain rfl := Option.some.inj hgranted
    omega
  · obtain rfl := Option.some.inj hgranted
    -- A writer which does not wait finds a free packet: equal indexes mean an empty buffer.
    have hfree : ¬ queue.size - queue.inCount < max 1 (min minSize (queue.size - queue.writeIndex)) :=
      fun hless ↦ hwaits ⟨by simpa using hstopped, hless⟩
    omega

theorem le_maxCount (hqueue : queue.Sound) {count : ℕ} (hfree : queue.inCount + count ≤ queue.size)
    (hend : queue.writeIndex + count ≤ queue.size) : count ≤ queue.maxCount := by
  have hcases := hqueue.writeIndex_cases
  have hread := hqueue.readIndex_lt
  rw [maxCount]
  split_ifs <;> omega

theorem dropPacket (hqueue : queue.Sound) (hsome : 0 < queue.inCount) :
    queue.dropPacket.Sound ∧ queue.contents = queue.nextPacket :: queue.dropPacket.contents := by
  have hread := hqueue.readIndex_lt
  have hcount := hqueue.inCount_le
  refine ⟨⟨Nat.mod_lt _ (by omega), ?_, ?_⟩, ?_⟩
  · exact (Nat.sub_le _ _).trans hcount
  · show queue.writeIndex = ((queue.readIndex + 1) % queue.size + (queue.inCount - 1)) % queue.size
    rw [Nat.mod_add_mod, hqueue.writeIndex_eq]
    congr 1
    omega
  · have hsplit : queue.inCount = 1 + (queue.inCount - 1) := by omega
    have hfirst : queue.readIndex % queue.size = queue.readIndex := Nat.mod_eq_of_lt hread
    rw [contents, hsplit, CircularWindow.contents_add]
    simp [CircularWindow.contents, hfirst, nextPacket, TSPacketQueue.dropPacket, contents]

theorem copyPackets (hqueue : queue.Sound) (bufferCount : ℕ) :
    (queue.copyPackets bufferCount).2.Sound ∧ queue.contents =
        (queue.copyPackets bufferCount).1 ++ (queue.copyPackets bufferCount).2.contents := by
  induction bufferCount generalizing queue with
  | zero => exact ⟨hqueue, rfl⟩
  | succ bufferCount ih =>
    rw [TSPacketQueue.copyPackets]
    split_ifs with hsome
    · obtain ⟨hnext, hcontents⟩ := hqueue.dropPacket hsome
      obtain ⟨hlast, hothers⟩ := ih hnext
      exact ⟨hlast, by rw [hcontents, hothers, List.cons_append]⟩
    · exact ⟨hqueue, rfl⟩

theorem copyPackets_frame (queue : TSPacketQueue) (bufferCount : ℕ) :
    (queue.copyPackets bufferCount).2.size = queue.size ∧
      (queue.copyPackets bufferCount).2.eof = queue.eof ∧
      (queue.copyPackets bufferCount).2.writeIndex = queue.writeIndex ∧
      (queue.copyPackets bufferCount).2.inCount ≤ queue.inCount := by
  induction bufferCount generalizing queue with
  | zero => exact ⟨rfl, rfl, rfl, le_rfl⟩
  | succ bufferCount ih =>
    rw [TSPacketQueue.copyPackets]
    split_ifs with hsome
    · obtain ⟨hsize, heof, hwrite, hcount⟩ := ih queue.dropPacket
      exact ⟨hsize, heof, hwrite, hcount.trans (Nat.sub_le _ _)⟩
    · exact ⟨rfl, rfl, rfl, le_rfl⟩

theorem releaseWriteBuffer (hqueue : queue.Sound) {count : ℕ}
    (hfree : queue.inCount + count ≤ queue.size) (hend : queue.writeIndex + count ≤ queue.size) :
    (queue.releaseWriteBuffer count).Sound ∧
      (queue.releaseWriteBuffer count).contents = queue.contents ++ queue.windowPackets count := by
  have hmax := hqueue.le_maxCount hfree hend
  have hread := hqueue.readIndex_lt
  have hcount : (if count > queue.maxCount then queue.maxCount else count) = count :=
    if_neg (Nat.not_lt.mpr hmax)
  refine ⟨⟨hread, ?_, ?_⟩, ?_⟩
  · simpa only [TSPacketQueue.releaseWriteBuffer, hcount] using hfree
  · simp only [TSPacketQueue.releaseWriteBuffer, hcount, hqueue.writeIndex_eq, Nat.mod_add_mod,
      Nat.add_assoc]
  · simp only [TSPacketQueue.releaseWriteBuffer, contents, hcount, CircularWindow.contents_add,
      ← hqueue.writeIndex_eq, windowPackets, CircularWindow.contents_contiguous hend]

theorem setPacket (hqueue : queue.Sound) {offset : ℕ}
    (hfree : queue.inCount + offset < queue.size) (hend : queue.writeIndex + offset < queue.size)
    (packet : TSPacket) :
    (queue.setPacket (queue.writeIndex + offset) packet).Sound ∧
      (queue.setPacket (queue.writeIndex + offset) packet).contents = queue.contents := by
  refine ⟨⟨hqueue.readIndex_lt, hqueue.inCount_le, hqueue.writeIndex_eq⟩, ?_⟩
  refine CircularWindow.contents_update (fun position hposition ↦ ?_) packet
  rw [hqueue.writeIndex_eq] at hend ⊢
  have hlater : offset + queue.inCount < queue.size := by omega
  exact CircularWindow.slot_ne_following hposition hlater hend

end Sound

end TSPacketQueue

/-! ### The two threads -/

/-- A step of one of the two threads. -/
inductive QueueCall
  | lockWriteBuffer (minSize : ℕ)
  | writePacket (offset : ℕ) (packet : TSPacket)
  | releaseWriteBuffer (count : ℕ)
  | setBitrate (bitrate : ℕ)
  | setEOF
  | getPacket
  | waitPackets (bufferCount : ℕ)
  | stop
  deriving DecidableEq

/-- What the two threads see. -/
inductive QueueEvent
  | written (packets : List TSPacket)
  | returned (packets : List TSPacket) (bitrate : ℕ)

namespace QueueEvent

def writtenPackets (events : List QueueEvent) : List TSPacket :=
  events.flatMap fun
    | written packets => packets
    | returned _ _ => []

def returnedPackets (events : List QueueEvent) : List TSPacket :=
  events.flatMap fun
    | written _ => []
    | returned packets _ => packets

@[simp] theorem writtenPackets_append (first second : List QueueEvent) :
    writtenPackets (first ++ second) = writtenPackets first ++ writtenPackets second :=
  List.flatMap_append

@[simp] theorem returnedPackets_append (first second : List QueueEvent) :
    returnedPackets (first ++ second) = returnedPackets first ++ returnedPackets second :=
  List.flatMap_append

end QueueEvent

/-- A queue with the write window which the writer may use. -/
structure QueueMachine where
  queue : TSPacketQueue
  windowStart : ℕ
  windowSize : ℕ

namespace QueueMachine

open QueueEvent

def new (size : ℕ) (buffer : ℕ → TSPacket) : QueueMachine :=
  { queue := TSPacketQueue.new size buffer, windowStart := 0, windowSize := 0 }

/-- One step of a thread, `none` while it waits. -/
def step (state : QueueMachine) : QueueCall → Option (QueueMachine × List QueueEvent)
  | .lockWriteBuffer minSize =>
    (state.queue.lockWriteBuffer minSize).map fun granted ↦
      ({ state with windowStart := state.queue.writeIndex, windowSize := granted }, [])
  | .writePacket offset packet =>
    if offset < state.windowSize then
      some ({ state with queue := state.queue.setPacket (state.windowStart + offset) packet }, [])
    else none
  | .releaseWriteBuffer count =>
    if count ≤ state.windowSize then
      some ({ state with
          queue := state.queue.releaseWriteBuffer count
          windowStart := state.windowStart + count
          windowSize := state.windowSize - count },
        [written (state.queue.windowPackets count)])
    else none
  | .setBitrate bitrate => some ({ state with queue := state.queue.setBitrate bitrate }, [])
  | .setEOF => some ({ state with queue := state.queue.setEOF }, [])
  | .getPacket =>
    let ((packet, bitrate), queue) := state.queue.getPacket
    some ({ state with queue := queue }, [returned packet.toList bitrate])
  | .waitPackets bufferCount =>
    (state.queue.waitPackets bufferCount).map fun ((packets, bitrate), queue) ↦
      ({ state with queue := queue }, [returned packets bitrate])
  | .stop => some ({ state with queue := state.queue.stop }, [])

def machine : Machine QueueMachine QueueCall QueueEvent where
  step := step

/-- The write window is free and starts at the write index. -/
structure Sound (state : QueueMachine) : Prop where
  queue : state.queue.Sound
  windowStart_eq : state.windowSize ≠ 0 → state.windowStart = state.queue.writeIndex
  free : state.queue.inCount + state.windowSize ≤ state.queue.size
  ends : state.queue.writeIndex + state.windowSize ≤ state.queue.size

structure Trace (state : QueueMachine) (calls : List QueueCall) (events : List QueueEvent) :
    Prop where
  sound : state.Sound
  written_eq : writtenPackets events = returnedPackets events ++ state.queue.contents
  setEOF_mem : state.queue.eof = true → .setEOF ∈ calls

variable {state next : QueueMachine} {calls : List QueueCall} {events reported : List QueueEvent}

namespace Trace

theorem lockWriteBuffer (htrace : Trace state calls events) {minSize granted : ℕ}
    (hgranted : state.queue.lockWriteBuffer minSize = some granted) :
    Trace { state with windowStart := state.queue.writeIndex, windowSize := granted }
      (calls ++ [.lockWriteBuffer minSize]) events := by
  obtain ⟨hfree, hends⟩ := htrace.sound.queue.lockWriteBuffer hgranted
  exact ⟨⟨htrace.sound.queue, fun _ ↦ rfl, hfree, hends⟩, htrace.written_eq,
    fun heof ↦ List.mem_append_left _ (htrace.setEOF_mem heof)⟩

theorem writePacket (htrace : Trace state calls events) {offset : ℕ}
    (hoffset : offset < state.windowSize) (packet : TSPacket) :
    Trace { state with queue := state.queue.setPacket (state.windowStart + offset) packet }
      (calls ++ [.writePacket offset packet]) events := by
  have hfree := htrace.sound.free
  have hends := htrace.sound.ends
  have hstart := htrace.sound.windowStart_eq (Nat.ne_zero_of_lt hoffset)
  obtain ⟨hqueue, hcontents⟩ := htrace.sound.queue.setPacket
    (show state.queue.inCount + offset < state.queue.size by omega) (by omega) packet
  refine ⟨⟨?_, fun _ ↦ hstart, hfree, hends⟩, ?_, fun heof ↦
    List.mem_append_left _ (htrace.setEOF_mem heof)⟩
  · rwa [hstart]
  · rw [hstart, hcontents]
    exact htrace.written_eq

theorem releaseWriteBuffer (htrace : Trace state calls events) {count : ℕ}
    (hcount : count ≤ state.windowSize) :
    Trace
      { state with
        queue := state.queue.releaseWriteBuffer count
        windowStart := state.windowStart + count
        windowSize := state.windowSize - count }
      (calls ++ [.releaseWriteBuffer count])
      (events ++ [written (state.queue.windowPackets count)]) := by
  have hfree := htrace.sound.free
  have hends := htrace.sound.ends
  have hwrite := htrace.sound.queue.writeIndex_lt
  have hroom : state.queue.inCount + count ≤ state.queue.size := by omega
  obtain ⟨hqueue, hcontents⟩ := htrace.sound.queue.releaseWriteBuffer hroom (by omega)
  have hmax := htrace.sound.queue.le_maxCount hroom (by omega)
  have hkept : (if count > state.queue.maxCount then state.queue.maxCount else count) = count :=
    if_neg (Nat.not_lt.mpr hmax)
  have hremains : state.windowSize - count ≠ 0 →
      (state.queue.writeIndex + count) % state.queue.size = state.queue.writeIndex + count :=
    fun hremains ↦ Nat.mod_eq_of_lt (by omega)
  refine ⟨⟨hqueue, ?_, ?_, ?_⟩, ?_, fun heof ↦
    List.mem_append_left _ (htrace.setEOF_mem heof)⟩
  · intro hsome
    show state.windowStart + count = (state.queue.releaseWriteBuffer count).writeIndex
    rw [TSPacketQueue.releaseWriteBuffer, hkept]
    have hstart := htrace.sound.windowStart_eq (fun hzero ↦ hsome (by simp [hzero]))
    rw [hremains hsome, hstart]
  · simp only [TSPacketQueue.releaseWriteBuffer, hkept]
    omega
  · simp only [TSPacketQueue.releaseWriteBuffer, hkept]
    by_cases hsome : state.windowSize - count = 0
    · rw [hsome]
      exact (Nat.mod_lt _ (Nat.zero_lt_of_lt hwrite)).le
    · rw [hremains hsome]
      omega
  · rw [hcontents, writtenPackets_append, returnedPackets_append, htrace.written_eq]
    simp [writtenPackets, returnedPackets]

theorem returned (htrace : Trace state calls events) {queue : TSPacketQueue}
    (hqueue : queue.Sound) {packets : List TSPacket} (bitrate : ℕ) (call : QueueCall)
    (hcontents : state.queue.contents = packets ++ queue.contents)
    (hsame : queue.size = state.queue.size ∧ queue.eof = state.queue.eof ∧
      queue.writeIndex = state.queue.writeIndex ∧ queue.inCount ≤ state.queue.inCount) :
    Trace { state with queue := queue } (calls ++ [call])
      (events ++ [.returned packets bitrate]) := by
  obtain ⟨hsize, heof, hwrite, hcount⟩ := hsame
  refine ⟨⟨hqueue, ?_, ?_, ?_⟩, ?_, ?_⟩
  · exact fun hsome ↦ (htrace.sound.windowStart_eq hsome).trans hwrite.symm
  · show queue.inCount + state.windowSize ≤ queue.size
    rw [hsize]
    exact (Nat.add_le_add_right hcount _).trans htrace.sound.free
  · show queue.writeIndex + state.windowSize ≤ queue.size
    rw [hsize, hwrite]
    exact htrace.sound.ends
  · rw [writtenPackets_append, returnedPackets_append, htrace.written_eq, hcontents]
    simp [writtenPackets, returnedPackets]
  · intro hset
    exact List.mem_append_left _ (htrace.setEOF_mem (heof.symm.trans hset))

theorem setFlag (htrace : Trace state calls events) {queue : TSPacketQueue} (call : QueueCall)
    (hbuffer : queue.buffer = state.queue.buffer) (hsize : queue.size = state.queue.size)
    (hread : queue.readIndex = state.queue.readIndex)
    (hwrite : queue.writeIndex = state.queue.writeIndex)
    (hcount : queue.inCount = state.queue.inCount)
    (heof : queue.eof = true → state.queue.eof = true ∨ call = .setEOF) :
    Trace { state with queue := queue } (calls ++ [call]) events := by
  have hsound := htrace.sound
  refine ⟨⟨⟨?_, ?_, ?_⟩, ?_, ?_, ?_⟩, ?_, ?_⟩
  · rw [hread, hsize]
    exact hsound.queue.readIndex_lt
  · rw [hcount, hsize]
    exact hsound.queue.inCount_le
  · rw [hread, hwrite, hcount, hsize]
    exact hsound.queue.writeIndex_eq
  · rw [hwrite]
    exact hsound.windowStart_eq
  · rw [hcount, hsize]
    exact hsound.free
  · rw [hwrite, hsize]
    exact hsound.ends
  · rw [TSPacketQueue.contents, hbuffer, hsize, hread, hcount]
    exact htrace.written_eq
  · intro hset
    rcases heof hset with hbefore | rfl
    · exact List.mem_append_left _ (htrace.setEOF_mem hbefore)
    · exact List.mem_append_right _ (List.mem_singleton.mpr rfl)

theorem step (htrace : Trace state calls events) {call : QueueCall}
    (hstep : state.step call = some (next, reported)) :
    Trace next (calls ++ [call]) (events ++ reported) := by
  cases call with
  | lockWriteBuffer minSize =>
    obtain ⟨granted, hgranted, heq⟩ := Option.map_eq_some_iff.mp hstep
    obtain ⟨rfl, rfl⟩ := Prod.mk.inj heq
    rw [List.append_nil]
    exact htrace.lockWriteBuffer hgranted
  | writePacket offset packet =>
    obtain ⟨hoffset, heq⟩ := Option.ite_none_right_eq_some.mp hstep
    obtain ⟨rfl, rfl⟩ := Prod.mk.inj (Option.some.inj heq)
    rw [List.append_nil]
    exact htrace.writePacket hoffset packet
  | releaseWriteBuffer count =>
    obtain ⟨hcount, heq⟩ := Option.ite_none_right_eq_some.mp hstep
    obtain ⟨rfl, rfl⟩ := Prod.mk.inj (Option.some.inj heq)
    exact htrace.releaseWriteBuffer hcount
  | setBitrate bitrate =>
    obtain ⟨rfl, rfl⟩ := Prod.mk.inj (Option.some.inj hstep)
    rw [List.append_nil]
    exact htrace.setFlag _ rfl rfl rfl rfl rfl Or.inl
  | setEOF =>
    obtain ⟨rfl, rfl⟩ := Prod.mk.inj (Option.some.inj hstep)
    rw [List.append_nil]
    exact htrace.setFlag _ rfl rfl rfl rfl rfl fun _ ↦ Or.inr rfl
  | getPacket =>
    by_cases hempty : state.queue.inCount = 0
    · simp only [QueueMachine.step, TSPacketQueue.getPacket, if_pos hempty] at hstep
      obtain ⟨rfl, rfl⟩ := Prod.mk.inj (Option.some.inj hstep)
      exact htrace.returned htrace.sound.queue _ _ rfl ⟨rfl, rfl, rfl, le_rfl⟩
    · simp only [QueueMachine.step, TSPacketQueue.getPacket, if_neg hempty] at hstep
      obtain ⟨rfl, rfl⟩ := Prod.mk.inj (Option.some.inj hstep)
      obtain ⟨hqueue, hcontents⟩ := htrace.sound.queue.dropPacket (Nat.pos_of_ne_zero hempty)
      exact htrace.returned hqueue _ _ hcontents ⟨rfl, rfl, rfl, Nat.sub_le _ _⟩
  | waitPackets bufferCount =>
    obtain ⟨result, hresult, heq⟩ := Option.map_eq_some_iff.mp hstep
    obtain ⟨rfl, rfl⟩ := Prod.mk.inj heq
    rw [TSPacketQueue.waitPackets] at hresult
    split_ifs at hresult
    obtain rfl := Option.some.inj hresult
    obtain ⟨hqueue, hcontents⟩ := htrace.sound.queue.copyPackets bufferCount
    exact htrace.returned hqueue _ _ hcontents
      (TSPacketQueue.Sound.copyPackets_frame state.queue bufferCount)
  | stop =>
    obtain ⟨rfl, rfl⟩ := Prod.mk.inj (Option.some.inj hstep)
    rw [List.append_nil]
    exact htrace.setFlag _ rfl rfl rfl rfl rfl Or.inl

end Trace

theorem trace_new {size : ℕ} (hsize : 0 < size) (buffer : ℕ → TSPacket) :
    Trace (new size buffer) [] [] where
  sound :=
    { queue := ⟨hsize, Nat.zero_le _, (Nat.zero_mod size).symm⟩
      windowStart_eq := fun hsome ↦ (hsome rfl).elim
      free := Nat.zero_le _
      ends := Nat.zero_le _ }
  written_eq := rfl
  setEOF_mem := fun heof ↦ Bool.noConfusion heof

/-- What the two threads may rely on after some calls. -/
structure Fifo (state : QueueMachine) (calls : List QueueCall) (events : List QueueEvent) :
    Prop where
  returned_prefix : returnedPackets events <+: writtenPackets events
  window_free : ∀ unread < state.queue.inCount, ∀ position < state.windowSize,
    (state.queue.readIndex + unread) % state.queue.size ≠ state.windowStart + position
  inside : state.queue.readIndex < state.queue.size ∧ state.queue.writeIndex < state.queue.size ∧
    ∀ position < state.windowSize, state.windowStart + position < state.queue.size
  releasable : state.windowSize ≤ state.queue.maxCount
  eof : state.queue.isEof = true → returnedPackets events = writtenPackets events ∧ .setEOF ∈ calls

theorem Trace.fifo (htrace : Trace state calls events) : Fifo state calls events := by
  have hqueue := htrace.sound.queue
  have hfree := htrace.sound.free
  have hends := htrace.sound.ends
  constructor
  · exact ⟨state.queue.contents, htrace.written_eq.symm⟩
  · intro unread hunread position hposition
    rw [htrace.sound.windowStart_eq (Nat.ne_zero_of_lt hposition), hqueue.writeIndex_eq]
    rw [hqueue.writeIndex_eq] at hends
    exact CircularWindow.slot_ne_following hunread (by omega) (by omega)
  · refine ⟨hqueue.readIndex_lt, hqueue.writeIndex_lt, fun position hposition ↦ ?_⟩
    rw [htrace.sound.windowStart_eq (Nat.ne_zero_of_lt hposition)]
    omega
  · exact hqueue.le_maxCount hfree hends
  · intro heof
    simp only [TSPacketQueue.isEof, Bool.and_eq_true, beq_iff_eq] at heof
    refine ⟨?_, htrace.setEOF_mem heof.1⟩
    rw [htrace.written_eq, TSPacketQueue.contents, heof.2, CircularWindow.contents_zero,
      List.append_nil]

/-- In every interleaving, on a queue of any size but zero, the reader gets the packets in order and
without loss or duplication, and the write window holds no packet which is not yet read. -/
theorem fifo_of_run {size : ℕ} (hsize : 0 < size) {buffer : ℕ → TSPacket}
    (hrun : machine.run (new size buffer) calls = some (state, events)) :
    Fifo state calls events := by
  have hstep : ∀ state call next passed reported outputs, Trace state passed reported →
      machine.step state call = some (next, outputs) →
        Trace next (passed ++ [call]) (reported ++ outputs) :=
    fun _ _ _ _ _ _ htrace hnext ↦ htrace.step hnext
  exact (machine.run_trace hstep (trace_new hsize buffer) hrun).fifo

/-- A queue of two packets whose write window wraps up. -/
theorem fifo_of_three_packets :
    ∃ state events, Fifo state [.lockWriteBuffer 5, .writePacket 1 nullPacket, .releaseWriteBuffer 2,
      .getPacket, .lockWriteBuffer 1, .releaseWriteBuffer 1, .waitPackets 7, .setEOF] events ∧
        state.queue.isEof = true :=
  ⟨_, _, @fifo_of_run _ _ _ 2 (by decide) (fun _ ↦ nullPacket) rfl, rfl⟩

/-! ### Progress -/

theorem inCount_copyPackets (queue : TSPacketQueue) (bufferCount : ℕ) :
    (queue.copyPackets bufferCount).2.inCount = queue.inCount - bufferCount := by
  induction bufferCount generalizing queue with
  | zero => rfl
  | succ bufferCount ih =>
    rw [TSPacketQueue.copyPackets]
    split_ifs with hsome
    · show (queue.dropPacket.copyPackets bufferCount).2.inCount = _
      rw [ih]
      show queue.inCount - 1 - bufferCount = _
      omega
    · show queue.inCount = _
      omega

/-- The writer is granted what it asks for, up to the end of the buffer; while it waits, the reader
gets packets, and it waits no more once the reader has got all of them. -/
structure IsLive (queue : TSPacketQueue) : Prop where
  granted : ∀ minSize granted, queue.stopped = false →
    queue.lockWriteBuffer minSize = some granted →
      1 ≤ granted ∧ min minSize (queue.size - queue.writeIndex) ≤ granted
  readable : ∀ minSize bufferCount, queue.lockWriteBuffer minSize = none → 0 < bufferCount →
    ∃ packets bitrate last, queue.waitPackets bufferCount = some ((packets, bitrate), last) ∧
      packets ≠ []
  drained : ∀ minSize bufferCount, queue.inCount ≤ bufferCount →
    (queue.copyPackets bufferCount).2.lockWriteBuffer minSize ≠ none

theorem isLive_of_sound {queue : TSPacketQueue} (hqueue : queue.Sound) : IsLive queue := by
  have hread := hqueue.readIndex_lt
  have hwrite := hqueue.writeIndex_lt
  have hcases := hqueue.writeIndex_cases
  constructor
  · intro minSize granted hstopped hgranted
    rw [TSPacketQueue.lockWriteBuffer, hstopped] at hgranted
    simp only [Bool.not_false, Bool.true_and, decide_eq_true_eq, Bool.false_eq_true, if_false]
      at hgranted
    split_ifs at hgranted <;> obtain rfl := Option.some.inj hgranted <;> omega
  · intro minSize bufferCount hwaits hcount
    have hsome : 0 < queue.inCount := by
      unfold TSPacketQueue.lockWriteBuffer at hwaits
      simp only [Bool.and_eq_true, decide_eq_true_eq] at hwaits
      split_ifs at hwaits
      omega
    obtain ⟨count, rfl⟩ := Nat.exists_eq_add_one_of_ne_zero hcount.ne'
    refine ⟨_, _, _, if_neg (by simp [hsome.ne']), ?_⟩
    show (if _ then _ else _ : _ × _).1 ≠ []
    rw [if_pos hsome]
    exact List.cons_ne_nil _ _
  · intro minSize bufferCount hall hwaits
    have hsize := (TSPacketQueue.Sound.copyPackets_frame queue bufferCount).1
    have hempty := inCount_copyPackets queue bufferCount
    unfold TSPacketQueue.lockWriteBuffer at hwaits
    simp only [Bool.and_eq_true, decide_eq_true_eq] at hwaits
    split_ifs at hwaits
    omega

/-- In every interleaving, the two threads never wait for each other. -/
theorem isLive_of_run {size : ℕ} (hsize : 0 < size) {buffer : ℕ → TSPacket}
    (hrun : machine.run (new size buffer) calls = some (state, events)) : IsLive state.queue := by
  have hstep : ∀ state call next passed reported outputs, Trace state passed reported →
      machine.step state call = some (next, outputs) →
        Trace next (passed ++ [call]) (reported ++ outputs) :=
    fun _ _ _ _ _ _ htrace hnext ↦ htrace.step hnext
  exact isLive_of_sound (machine.run_trace hstep (trace_new hsize buffer) hrun).sound.queue

/-- A full queue. -/
theorem isLive_of_full : ∃ state events,
    machine.run (new 2 fun _ ↦ nullPacket) [.lockWriteBuffer 2, .releaseWriteBuffer 2] =
        some (state, events) ∧ state.queue.lockWriteBuffer 1 = none ∧ IsLive state.queue := by
  obtain ⟨state, events, hrun, hwaits⟩ : ∃ state events,
    machine.run (new 2 fun _ ↦ nullPacket) [.lockWriteBuffer 2, .releaseWriteBuffer 2] =
      some (state, events) ∧ state.queue.lockWriteBuffer 1 = none := ⟨_, _, rfl, rfl⟩
  exact ⟨state, events, hrun, hwaits, isLive_of_run (by decide) hrun⟩

end QueueMachine

end TSDuck
