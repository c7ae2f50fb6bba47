import TSDuck.Library.Interleaving
import TSDuck.Library.Machine
import TSDuck.Mpeg.TransportPacket
import Mathlib.Data.List.TakeWhile

/-!
# Input stuffing

The input executor of a packet processor reads packets from its plugin and may add null packets:
`instuffStart` of them before the first packet, then `instuffNullpkt` after each group of
`instuffInpkt` packets of the plugin. `receiveAndStuff` fills an area of the packet buffer.

`stuffedInput` is the sequence that the executor has to produce, whatever the sizes of the areas and
of the chunks of input are.

Scope. The packets that the plugin returns after one without a synchronization byte are not used,
and the plugin is not called any more. `Session` is the calling loop, which stops at the first empty
area.
-/

namespace TSDuck.Tsp

structure StuffingOptions where
  instuffStart : ℕ
  instuffNullpkt : ℕ
  instuffInpkt : ℕ

/-- It returns at most the packets it is asked for. -/
structure InputPlugin (State : Type) where
  receive : State → ℕ → List TSPacket × State
  length_le : ∀ state maxPackets, (receive state maxPackets).1.length ≤ maxPackets

/-- One answer of the plugin. -/
structure InputAnswer where
  maxPackets : ℕ
  packets : List TSPacket

structure InputExecutor (State : Type) where
  options : StuffingOptions
  input : State
  totalInPackets : ℕ
  inSyncLost : Bool
  totalPackets : ℕ
  instuffStartRemain : ℕ
  instuffNullpktRemain : ℕ
  instuffInpktRemain : ℕ

/-- The packets of a call, and the answers of the plugin. -/
structure Reception (State : Type) where
  packets : List TSPacket
  answers : List InputAnswer
  executor : InputExecutor State

/-- What one call of `receiveAndStuff` has delivered. -/
structure Delivery where
  maxPackets : ℕ
  packets : List TSPacket
  answers : List InputAnswer

namespace InputExecutor

variable {State : Type}

def new (options : StuffingOptions) (input : State) : InputExecutor State :=
  { options, input, totalInPackets := 0, inSyncLost := false, totalPackets := 0,
    instuffStartRemain := options.instuffStart, instuffNullpktRemain := 0,
    instuffInpktRemain := 0 }

/-- Keeps the packets with a synchronization byte. -/
def receiveAndValidate (plugin : InputPlugin State) (executor : InputExecutor State)
    (maxPackets : ℕ) : Reception State :=
  if executor.inSyncLost then ⟨[], [], executor⟩
  else
    let received := plugin.receive executor.input maxPackets
    let valid := received.1.takeWhile TSPacket.hasValidSync
    ⟨valid, [⟨maxPackets, received.1⟩], { executor with
        input := received.2
        totalInPackets := executor.totalInPackets + valid.length
        inSyncLost := decide (valid.length < received.1.length) }⟩

/-- Starts a group when the previous one is complete. -/
def startGroup (executor : InputExecutor State) : InputExecutor State :=
  if executor.instuffNullpktRemain = 0 ∧ executor.instuffInpktRemain = 0 then
    { executor with instuffInpktRemain := executor.options.instuffInpkt }
  else executor

/-- Ends a complete group: its stuffing is due. -/
def endGroup (executor : InputExecutor State) : InputExecutor State :=
  if executor.instuffNullpktRemain = 0 ∧ executor.instuffInpktRemain = 0 then
    { executor with instuffNullpktRemain := executor.options.instuffNullpkt }
  else executor

/-- What was put in an area, and what remains. -/
structure Filling (State : Type) where
  executor : InputExecutor State
  packets : List TSPacket
  pktRemain : ℕ
  answers : List InputAnswer
  pktFromInput : ℕ

namespace Filling

def stuffStart (filling : Filling State) : Filling State :=
  let count := min filling.executor.instuffStartRemain filling.pktRemain
  { filling with
    executor :=
      { filling.executor with
        instuffStartRemain := filling.executor.instuffStartRemain - count }
    packets := filling.packets ++ List.replicate count nullPacket
    pktRemain := filling.pktRemain - count }

/-- Adds the null packets which are due and fit. -/
def stuffNullpkt (filling : Filling State) : Filling State :=
  let count := min filling.executor.instuffNullpktRemain filling.pktRemain
  { filling with
    executor :=
      { filling.executor with
        instuffNullpktRemain := filling.executor.instuffNullpktRemain - count }
    packets := filling.packets ++ List.replicate count nullPacket
    pktRemain := filling.pktRemain - count }

/-- Starts a group when the previous one is complete. -/
def startGroup (filling : Filling State) : Filling State :=
  { filling with executor := filling.executor.startGroup }

def maxPackets (filling : Filling State) : ℕ :=
  if filling.pktRemain < filling.executor.instuffInpktRemain then filling.pktRemain
  else filling.executor.instuffInpktRemain

def addInput (filling : Filling State) (received : Reception State) : Filling State :=
  { executor := InputExecutor.endGroup
      { received.executor with
        instuffInpktRemain := received.executor.instuffInpktRemain - received.packets.length }
    packets := filling.packets ++ received.packets
    pktRemain := filling.pktRemain - received.packets.length
    answers := filling.answers ++ received.answers
    pktFromInput := filling.pktFromInput + received.packets.length }

/-- Alternates until the area is full or the input ends. -/
def alternate (plugin : InputPlugin State) : ℕ → Filling State → Reception State
  | 0, filling => ⟨filling.packets, filling.answers, filling.executor⟩
  | turns + 1, filling =>
    if filling.pktRemain = 0 then ⟨filling.packets, filling.answers, filling.executor⟩
    else
      let stuffed := filling.stuffNullpkt
      if stuffed.pktRemain = 0 then ⟨stuffed.packets, stuffed.answers, stuffed.executor⟩
      else
        let group := stuffed.startGroup
        let received := receiveAndValidate plugin group.executor group.maxPackets
        let filled := group.addInput received
        if filled.pktFromInput = 0 then ⟨[], filled.answers, filled.executor⟩
        else if received.packets.length < group.maxPackets then
          ⟨filled.packets, filled.answers, filled.executor⟩
        else alternate plugin turns filled

def readAll (plugin : InputPlugin State) (filling : Filling State) : Reception State :=
  let received := receiveAndValidate plugin filling.executor filling.pktRemain
  ⟨filling.packets ++ received.packets, filling.answers ++ received.answers, received.executor⟩

end Filling

/-- Fills an area, the initial stuffing first. -/
def receiveAndStuff (plugin : InputPlugin State) (executor : InputExecutor State)
    (maxPackets : ℕ) : Reception State :=
  let filling := Filling.stuffStart ⟨executor, [], maxPackets, [], 0⟩
  let received :=
    if executor.options.instuffInpkt = 0 then filling.readAll plugin
    else filling.alternate plugin filling.pktRemain
  { received with
    executor :=
      { received.executor with
        totalPackets := received.executor.totalPackets + received.packets.length } }

end InputExecutor

/-- The calling loop, up to the first empty area. -/
structure Session (State : Type) where
  executor : InputExecutor State
  pluginCompleted : Bool

namespace Session

variable {State : Type}

def new (options : StuffingOptions) (input : State) : Session State :=
  ⟨InputExecutor.new options input, false⟩

def machine (plugin : InputPlugin State) : Machine (Session State) ℕ Delivery where
  step session maxPackets :=
    if session.pluginCompleted then none
    else
      let received := session.executor.receiveAndStuff plugin maxPackets
      some (⟨received.executor, received.packets.isEmpty⟩,
        [⟨maxPackets, received.packets, received.answers⟩])

end Session

def stuffedInput (options : StuffingOptions) (input : List TSPacket) : List TSPacket :=
  List.replicate options.instuffStart nullPacket ++
    interleave options.instuffInpkt options.instuffNullpkt nullPacket 0 input

/-- The null packets after the last input packet. -/
def trailingStuffing (options : StuffingOptions) (input : List TSPacket) : ℕ :=
  if input = [] then options.instuffStart
  else if input.length % options.instuffInpkt = 0 then options.instuffNullpkt
  else 0

def answered (answers : List InputAnswer) : List TSPacket :=
  answers.flatMap InputAnswer.packets

/-- The packets before the first invalid one. -/
def validInput (answers : List InputAnswer) : List TSPacket :=
  (answered answers).takeWhile TSPacket.hasValidSync

/-! ### The packets which are read -/

/-- The synchronization lasts as long as the packets have it. -/
def Tracked (answers : List InputAnswer) {State : Type} (executor : InputExecutor State) : Prop :=
  executor.inSyncLost = false ↔ ∀ packet ∈ answered answers, packet.hasValidSync = true

namespace InputExecutor

variable {State : Type} (plugin : InputPlugin State)

/-- One reception from the plugin. -/
theorem receiveAndValidate_spec {answers : List InputAnswer} {executor : InputExecutor State}
    (htracked : Tracked answers executor) (maxPackets : ℕ) {received : Reception State}
    (hreceived : received = receiveAndValidate plugin executor maxPackets) :
    Tracked (answers ++ received.answers) received.executor ∧
      validInput (answers ++ received.answers) = validInput answers ++ received.packets ∧
      received.packets.length ≤ maxPackets ∧
      (∃ input total lost, received.executor =
        { executor with input := input, totalInPackets := total, inSyncLost := lost }) ∧
      (received.packets = [] → received.answers = [⟨maxPackets, []⟩] ∨
        received.executor.inSyncLost = true) := by
  subst hreceived
  unfold receiveAndValidate
  split_ifs with hlost
  · refine ⟨by rwa [List.append_nil], by simp, Nat.zero_le _, ⟨_, _, _, rfl⟩, fun _ ↦ ?_⟩
    exact Or.inr hlost
  · rw [Bool.not_eq_true] at hlost
    have hvalid := htracked.mp hlost
    have hlength := plugin.length_le executor.input maxPackets
    dsimp only
    generalize plugin.receive executor.input maxPackets = answer at hlength
    have hanswered : answered (answers ++ [⟨maxPackets, answer.1⟩]) =
        answered answers ++ answer.1 := by
      simp [answered]
    have hshorter := (List.takeWhile_prefix TSPacket.hasValidSync : _ <+: answer.1)
    have hwhole : (answer.1.takeWhile TSPacket.hasValidSync).length < answer.1.length ∨
        answer.1.takeWhile TSPacket.hasValidSync = answer.1 := by
      rcases lt_or_eq_of_le hshorter.length_le with hless | hequal
      · exact Or.inl hless
      · exact Or.inr (hshorter.eq_of_length hequal)
    refine ⟨?_, ?_, hshorter.length_le.trans hlength, ⟨_, _, _, rfl⟩, fun hnothing ↦ ?_⟩
    · unfold Tracked
      rw [hanswered, List.forall_mem_append, and_iff_right hvalid, decide_eq_false_iff_not,
        ← List.takeWhile_eq_self_iff]
      constructor
      · exact hwhole.resolve_left
      · intro hequal hless
        rw [hequal] at hless
        exact lt_irrefl _ hless
    · rw [validInput, validInput, hanswered, List.takeWhile_append_of_pos hvalid,
        List.takeWhile_eq_self_iff.mpr hvalid]
    · rcases hwhole with hless | hequal
      · exact Or.inr (decide_eq_true hless)
      · rw [hnothing] at hequal
        exact Or.inl (by rw [← hequal])

end InputExecutor

/-! ### The place in the sequence -/

/-- The packets so far, with what is due. -/
structure Placed (options : StuffingOptions) (packets input : List TSPacket) {State : Type}
    (executor : InputExecutor State) : Prop where
  options_eq : executor.options = options
  packets_eq : packets ++
      List.replicate (executor.instuffStartRemain + executor.instuffNullpktRemain) nullPacket =
    stuffedInput options input
  start : executor.instuffStartRemain ≠ 0 → input = [] ∧ executor.instuffNullpktRemain = 0
  group : options.instuffInpkt ≠ 0 →
    (input.length + executor.instuffInpktRemain) % options.instuffInpkt = 0
  inpkt_le : executor.instuffInpktRemain ≤ options.instuffInpkt
  nullpkt : executor.instuffNullpktRemain ≠ 0 →
    options.instuffInpkt ≠ 0 ∧ input ≠ [] ∧ executor.instuffInpktRemain = 0
  nullpkt_le : executor.instuffNullpktRemain ≤ options.instuffNullpkt

/-- The sequence without some of its last null packets. -/
def UpToTrailing (options : StuffingOptions) (packets input : List TSPacket) : Prop :=
  ∃ missing ≤ trailingStuffing options input,
    packets ++ List.replicate missing nullPacket = stuffedInput options input

namespace Placed

variable {options : StuffingOptions} {packets input : List TSPacket} {State : Type}
  {executor : InputExecutor State}

theorem new (options : StuffingOptions) (state : State) :
    Placed options [] [] (InputExecutor.new options state) := by
  refine ⟨rfl, ?_, fun _ ↦ ⟨rfl, rfl⟩, fun _ ↦ Nat.zero_mod _, Nat.zero_le _,
    fun h ↦ absurd rfl h, Nat.zero_le _⟩
  rw [stuffedInput, interleave, List.append_nil]
  rfl

theorem congr (hplaced : Placed options packets input executor) {other : InputExecutor State}
    (hoptions : other.options = executor.options)
    (hstart : other.instuffStartRemain = executor.instuffStartRemain)
    (hnullpkt : other.instuffNullpktRemain = executor.instuffNullpktRemain)
    (hinpkt : other.instuffInpktRemain = executor.instuffInpktRemain) :
    Placed options packets input other := by
  obtain ⟨h1, h2, h3, h4, h5, h6, h7⟩ := hplaced
  rw [← hstart] at h2 h3
  rw [← hnullpkt] at h2 h3 h6 h7
  rw [← hinpkt] at h4 h5 h6
  exact ⟨hoptions.trans h1, h2, h3, h4, h5, h6, h7⟩

theorem due_le (hplaced : Placed options packets input executor) :
    executor.instuffStartRemain + executor.instuffNullpktRemain ≤
      trailingStuffing options input := by
  unfold trailingStuffing
  by_cases hstart : executor.instuffStartRemain = 0
  · by_cases hnullpkt : executor.instuffNullpktRemain = 0
    · rw [hstart, hnullpkt]
      exact Nat.zero_le _
    · obtain ⟨hgroups, hinput, hinpkt⟩ := hplaced.nullpkt hnullpkt
      have hgroup := hplaced.group hgroups
      rw [hinpkt, add_zero] at hgroup
      rw [if_neg hinput, if_pos hgroup, hstart, zero_add]
      exact hplaced.nullpkt_le
  · obtain ⟨hinput, hnullpkt⟩ := hplaced.start hstart
    have hlength := congrArg List.length hplaced.packets_eq
    rw [hinput, stuffedInput, interleave, List.append_nil, List.length_append,
      List.length_replicate, List.length_replicate] at hlength
    rw [if_pos hinput]
    omega

theorem upToTrailing (hplaced : Placed options packets input executor) :
    UpToTrailing options packets input :=
  ⟨_, hplaced.due_le, hplaced.packets_eq⟩

theorem stuffStart (hplaced : Placed options packets input executor) {count : ℕ}
    (hcount : count ≤ executor.instuffStartRemain) :
    Placed options (packets ++ List.replicate count nullPacket) input
      { executor with instuffStartRemain := executor.instuffStartRemain - count } := by
  refine { hplaced with
    packets_eq := ?_
    start := fun (hstart : executor.instuffStartRemain - count ≠ 0) ↦ hplaced.start (by omega) }
  have hdue : count + (executor.instuffStartRemain - count + executor.instuffNullpktRemain) =
      executor.instuffStartRemain + executor.instuffNullpktRemain := by omega
  rw [List.append_assoc, List.replicate_append_replicate, ← hplaced.packets_eq, ← hdue]

theorem stuffNullpkt (hplaced : Placed options packets input executor) {count : ℕ}
    (hcount : count ≤ executor.instuffNullpktRemain) :
    Placed options (packets ++ List.replicate count nullPacket) input
      { executor with instuffNullpktRemain := executor.instuffNullpktRemain - count } := by
  refine { hplaced with
    packets_eq := ?_
    start := fun hstart ↦ ⟨(hplaced.start hstart).1, ?_⟩
    nullpkt := fun (hnullpkt : executor.instuffNullpktRemain - count ≠ 0) ↦
      hplaced.nullpkt (by omega)
    nullpkt_le := (Nat.sub_le _ _).trans hplaced.nullpkt_le }
  · have hdue : count + (executor.instuffStartRemain + (executor.instuffNullpktRemain - count)) =
        executor.instuffStartRemain + executor.instuffNullpktRemain := by omega
    rw [List.append_assoc, List.replicate_append_replicate, ← hplaced.packets_eq, ← hdue]
  · show executor.instuffNullpktRemain - count = 0
    rw [(hplaced.start hstart).2, Nat.zero_sub]

theorem startGroup (hplaced : Placed options packets input executor)
    (hnullpkt : executor.instuffNullpktRemain = 0) (hgroups : options.instuffInpkt ≠ 0) :
    Placed options packets input (executor.startGroup) ∧
      0 < (executor.startGroup).instuffInpktRemain := by
  unfold InputExecutor.startGroup
  split_ifs with hcomplete
  · obtain ⟨-, hinpkt⟩ := hcomplete
    have hgroup := hplaced.group hgroups
    rw [hinpkt, add_zero] at hgroup
    have hinpkt : executor.options.instuffInpkt = options.instuffInpkt := by
      rw [hplaced.options_eq]
    refine ⟨{ hplaced with
      group := fun _ ↦ ?_
      inpkt_le := le_of_eq hinpkt
      nullpkt := fun h ↦ absurd hnullpkt h }, ?_⟩
    · rw [hinpkt, Nat.add_mod_right, hgroup]
    · rw [hinpkt]
      exact Nat.pos_of_ne_zero hgroups
  · exact ⟨hplaced, Nat.pos_of_ne_zero fun hinpkt ↦ hcomplete ⟨hnullpkt, hinpkt⟩⟩

/-- Reading input packets inside a group keeps the place. -/
theorem readGroup (hplaced : Placed options packets input executor)
    (hstart : executor.instuffStartRemain = 0) (hnullpkt : executor.instuffNullpktRemain = 0)
    (hgroups : options.instuffInpkt ≠ 0) (hpos : 0 < executor.instuffInpktRemain)
    {received : List TSPacket} (hlength : received.length ≤ executor.instuffInpktRemain) :
    Placed options (packets ++ received) (input ++ received)
      (InputExecutor.endGroup
        { executor with instuffInpktRemain := executor.instuffInpktRemain - received.length }) := by
  have hbefore := hplaced.packets_eq
  rw [hstart, hnullpkt, List.replicate_zero, List.append_nil] at hbefore
  have hgroup := hplaced.group hgroups
  have hsequence : stuffedInput options (input ++ received) = packets ++ received ++
      if received.length = executor.instuffInpktRemain then
        List.replicate options.instuffNullpkt nullPacket else [] := by
    rw [stuffedInput, interleave_append, ← List.append_assoc, ← stuffedInput, ← hbefore, zero_add,
      interleave_of_length_le _ _ hgroup hpos hplaced.inpkt_le hlength, List.append_assoc]
  have hposition : (input ++ received).length + (executor.instuffInpktRemain - received.length) =
      input.length + executor.instuffInpktRemain := by
    rw [List.length_append]
    omega
  have hnullpktOption : executor.options.instuffNullpkt = options.instuffNullpkt := by
    rw [hplaced.options_eq]
  unfold InputExecutor.endGroup
  by_cases hcomplete : received.length = executor.instuffInpktRemain
  · rw [if_pos ⟨hnullpkt, by dsimp only; omega⟩]
    refine { options_eq := hplaced.options_eq, packets_eq := ?_, start := fun h ↦ absurd hstart h,
             group := fun _ ↦ ?_, inpkt_le := (Nat.sub_le _ _).trans hplaced.inpkt_le,
             nullpkt := fun _ ↦ ⟨hgroups, ?_, by dsimp only; omega⟩,
             nullpkt_le := le_of_eq hnullpktOption }
    · rw [hsequence, if_pos hcomplete, hstart, zero_add, hplaced.options_eq]
    · rw [hposition, hgroup]
    · apply List.append_ne_nil_of_right_ne_nil
      apply List.ne_nil_of_length_pos
      omega
  · rw [if_neg fun h ↦ hcomplete (by have := h.2; dsimp only at this; omega)]
    refine { options_eq := hplaced.options_eq, packets_eq := ?_, start := fun h ↦ absurd hstart h,
             group := fun _ ↦ ?_, inpkt_le := (Nat.sub_le _ _).trans hplaced.inpkt_le,
             nullpkt := fun h ↦ absurd hnullpkt h, nullpkt_le := hplaced.nullpkt_le }
    · rw [hsequence, if_neg hcomplete, hstart, hnullpkt, List.replicate_zero, List.append_nil]
    · rw [hposition, hgroup]

theorem readAll (hplaced : Placed options packets input executor)
    (hstart : executor.instuffStartRemain = 0) (hgroups : options.instuffInpkt = 0)
    (received : List TSPacket) : Placed options (packets ++ received) (input ++ received) executor := by
  have hnullpkt : executor.instuffNullpktRemain = 0 := by
    by_contra hdue
    exact (hplaced.nullpkt hdue).1 hgroups
  refine { hplaced with
    packets_eq := ?_
    start := fun h ↦ absurd hstart h
    group := fun h ↦ absurd hgroups h
    nullpkt := fun h ↦ absurd hnullpkt h }
  have hbefore := hplaced.packets_eq
  rw [hstart, hnullpkt, List.replicate_zero, List.append_nil] at hbefore ⊢
  rw [hbefore, stuffedInput, stuffedInput, hgroups, interleave_zero, interleave_zero,
    List.append_assoc]

end Placed

/-! ### Filling an area -/

/-- What one call delivers: packets of the sequence, short of trailing null packets, while the
executor keeps its place. A call that delivers nothing has met the end of input. -/
structure Delivered (options : StuffingOptions) (before : List TSPacket) (answers : List InputAnswer)
    (maxPackets : ℕ) {State : Type} (received : Reception State) : Prop where
  tracked : Tracked (answers ++ received.answers) received.executor
  placed : received.packets ≠ [] → Placed options (before ++ received.packets)
    (validInput (answers ++ received.answers)) received.executor
  upToTrailing : UpToTrailing options (before ++ received.packets)
    (validInput (answers ++ received.answers))
  length_le : received.packets.length ≤ maxPackets
  ended : received.packets = [] → 0 < maxPackets →
    (∃ asked, 0 < asked ∧ received.answers = [⟨asked, []⟩]) ∨ received.executor.inSyncLost = true
  complete : received.packets = [] → 0 < maxPackets → options.instuffInpkt = 0 →
    before = stuffedInput options (validInput (answers ++ received.answers))

namespace InputExecutor.Filling

/-- An area during a call, after the calls before it. -/
structure Sound (options : StuffingOptions) (before : List TSPacket) (answers : List InputAnswer)
    (maxPackets : ℕ) {State : Type} (filling : Filling State) : Prop where
  tracked : Tracked (answers ++ filling.answers) filling.executor
  placed : Placed options (before ++ filling.packets) (validInput (answers ++ filling.answers))
    filling.executor
  room : filling.pktRemain ≠ 0 → filling.executor.instuffStartRemain = 0
  size : filling.packets.length + filling.pktRemain = maxPackets
  input : ∃ received, validInput (answers ++ filling.answers) = validInput answers ++ received ∧
    received.length = filling.pktFromInput
  fromInput_le : filling.pktFromInput ≤ filling.packets.length
  fresh : filling.pktFromInput = 0 → filling.answers = []

variable {options : StuffingOptions} {before : List TSPacket} {answers : List InputAnswer}
  {maxPackets : ℕ} {State : Type} {filling : Filling State}

theorem sound_stuffStart {executor : InputExecutor State} (htracked : Tracked answers executor)
    (hplaced : Placed options before (validInput answers) executor) (maxPackets : ℕ) :
    (stuffStart ⟨executor, [], maxPackets, [], 0⟩).Sound options before answers maxPackets := by
  have hcount := min_le_left executor.instuffStartRemain maxPackets
  refine { tracked := ?_, placed := ?_, room := fun hroom ↦ ?_, size := ?_,
           input := ⟨[], ?_, rfl⟩, fromInput_le := Nat.zero_le _, fresh := fun _ ↦ rfl }
  · show Tracked (answers ++ []) _
    rw [List.append_nil]
    exact htracked
  · show Placed options _ (validInput (answers ++ [])) _
    rw [List.append_nil]
    exact hplaced.stuffStart hcount
  · have hmore : maxPackets - min executor.instuffStartRemain maxPackets ≠ 0 := hroom
    show executor.instuffStartRemain - min executor.instuffStartRemain maxPackets = 0
    omega
  · show ([] ++ List.replicate (min executor.instuffStartRemain maxPackets) nullPacket).length +
      (maxPackets - min executor.instuffStartRemain maxPackets) = maxPackets
    rw [List.nil_append, List.length_replicate]
    omega
  · show validInput (answers ++ []) = _
    rw [List.append_nil, List.append_nil]

theorem Sound.stuffNullpkt (hsound : filling.Sound options before answers maxPackets) :
    filling.stuffNullpkt.Sound options before answers maxPackets := by
  have hcount := min_le_left filling.executor.instuffNullpktRemain filling.pktRemain
  refine { tracked := hsound.tracked, placed := ?_, room := fun hroom ↦ ?_, size := ?_,
           input := hsound.input, fromInput_le := ?_, fresh := hsound.fresh }
  · show Placed options (before ++ (filling.packets ++ _)) _ _
    rw [← List.append_assoc]
    exact hsound.placed.stuffNullpkt hcount
  · have hmore : filling.pktRemain -
        min filling.executor.instuffNullpktRemain filling.pktRemain ≠ 0 := hroom
    exact hsound.room (by omega)
  · show (filling.packets ++ List.replicate _ nullPacket).length +
      (filling.pktRemain - min filling.executor.instuffNullpktRemain filling.pktRemain) = maxPackets
    rw [List.length_append, List.length_replicate]
    have hsize := hsound.size
    omega
  · show _ ≤ (filling.packets ++ _).length
    rw [List.length_append]
    exact hsound.fromInput_le.trans (Nat.le_add_right _ _)

theorem nullpktRemain_stuffNullpkt (hroom : filling.stuffNullpkt.pktRemain ≠ 0) :
    filling.stuffNullpkt.executor.instuffNullpktRemain = 0 := by
  have hmore : filling.pktRemain -
      min filling.executor.instuffNullpktRemain filling.pktRemain ≠ 0 := hroom
  show filling.executor.instuffNullpktRemain -
    min filling.executor.instuffNullpktRemain filling.pktRemain = 0
  omega

theorem Sound.delivered (hsound : filling.Sound options before answers maxPackets)
    (hsome : filling.packets = [] → maxPackets = 0) :
    Delivered options before answers maxPackets
      ⟨filling.packets, filling.answers, filling.executor⟩ := by
  have hsize := hsound.size
  refine { tracked := hsound.tracked, placed := fun _ ↦ hsound.placed,
           upToTrailing := hsound.placed.upToTrailing, length_le := ?_,
           ended := fun hnothing hpos ↦ ?_, complete := fun hnothing hpos ↦ ?_ }
  · show filling.packets.length ≤ maxPackets
    omega
  · exact absurd (hsome hnothing) (Nat.ne_of_gt hpos)
  · exact absurd (hsome hnothing) (Nat.ne_of_gt hpos)

theorem Sound.startGroup (hsound : filling.Sound options before answers maxPackets)
    (hgroups : options.instuffInpkt ≠ 0) (hnullpkt : filling.executor.instuffNullpktRemain = 0) :
    filling.startGroup.Sound options before answers maxPackets ∧
      filling.startGroup.executor.instuffNullpktRemain = 0 ∧
      0 < filling.startGroup.executor.instuffInpktRemain := by
  obtain ⟨hplaced, hpos⟩ := hsound.placed.startGroup hnullpkt hgroups
  obtain ⟨inpkt, hinpkt⟩ : ∃ inpkt, filling.startGroup.executor =
      { filling.executor with instuffInpktRemain := inpkt } := by
    show ∃ inpkt, filling.executor.startGroup = _
    unfold InputExecutor.startGroup
    split_ifs
    · exact ⟨_, rfl⟩
    · exact ⟨filling.executor.instuffInpktRemain, rfl⟩
  refine ⟨{ hsound with tracked := ?_, placed := hplaced, room := fun hroom ↦ ?_ }, ?_, hpos⟩
  · rw [hinpkt]
    exact hsound.tracked
  · rw [hinpkt]
    exact hsound.room hroom
  · rw [hinpkt]
    exact hnullpkt

theorem inSyncLost_endGroup (executor : InputExecutor State) :
    (endGroup executor).inSyncLost = executor.inSyncLost := by
  unfold endGroup
  split_ifs <;> rfl

section AddInput

variable (plugin : InputPlugin State) (hsound : filling.Sound options before answers maxPackets)
  (hgroups : options.instuffInpkt ≠ 0) (hroom : filling.pktRemain ≠ 0)
  (hnullpkt : filling.executor.instuffNullpktRemain = 0)
  (hpos : 0 < filling.executor.instuffInpktRemain) {received : Reception State}
  (hreceived : received = receiveAndValidate plugin filling.executor filling.maxPackets)

include hsound hgroups hroom hnullpkt hpos hreceived

theorem Sound.addInput (hsome : (filling.addInput received).pktFromInput ≠ 0) :
    (filling.addInput received).Sound options before answers maxPackets := by
  obtain ⟨htracked, hinput, hlength, ⟨input, total, lost, hexecutor⟩, -⟩ :=
    receiveAndValidate_spec plugin hsound.tracked filling.maxPackets hreceived
  have hasked : filling.maxPackets ≤ filling.executor.instuffInpktRemain ∧
      filling.maxPackets ≤ filling.pktRemain := by
    unfold Filling.maxPackets
    split_ifs <;> omega
  have hplaced : Placed options (before ++ filling.packets)
      (validInput (answers ++ filling.answers)) received.executor := by
    rw [hexecutor]
    exact hsound.placed.congr rfl rfl rfl rfl
  have hremain : received.executor.instuffInpktRemain = filling.executor.instuffInpktRemain := by
    rw [hexecutor]
  have hstart : received.executor.instuffStartRemain = 0 := by
    rw [hexecutor]
    exact hsound.room hroom
  have hafter := hplaced.readGroup hstart (by rw [hexecutor]; exact hnullpkt) hgroups
    (by omega) (show received.packets.length ≤ _ by omega)
  rw [← hinput, List.append_assoc, List.append_assoc] at hafter
  obtain ⟨read, hread, hcount⟩ := hsound.input
  have hsize := hsound.size
  have hfromInput := hsound.fromInput_le
  refine { tracked := ?_, placed := hafter, room := fun _ ↦ ?_, size := ?_,
           input := ⟨read ++ received.packets, ?_, ?_⟩, fromInput_le := ?_,
           fresh := fun h ↦ absurd h hsome }
  · unfold Tracked
    show (endGroup _).inSyncLost = false ↔
      ∀ packet ∈ answered (answers ++ (filling.answers ++ received.answers)), _
    rw [inSyncLost_endGroup, ← List.append_assoc]
    exact htracked
  · show (endGroup _).instuffStartRemain = 0
    unfold endGroup
    split_ifs <;> exact hstart
  · show (filling.packets ++ received.packets).length +
      (filling.pktRemain - received.packets.length) = maxPackets
    rw [List.length_append]
    omega
  · show validInput (answers ++ (filling.answers ++ received.answers)) = _
    rw [← List.append_assoc, hinput, hread, List.append_assoc]
  · show _ = filling.pktFromInput + received.packets.length
    rw [List.length_append, hcount]
  · show filling.pktFromInput + received.packets.length ≤
      (filling.packets ++ received.packets).length
    rw [List.length_append]
    omega

omit hnullpkt in
theorem Sound.delivered_nothing (hbefore : UpToTrailing options before (validInput answers))
    (hnone : (filling.addInput received).pktFromInput = 0) :
    Delivered options before answers maxPackets
      ⟨[], (filling.addInput received).answers, (filling.addInput received).executor⟩ := by
  obtain ⟨htracked, hinput, -, -, hend⟩ :=
    receiveAndValidate_spec plugin hsound.tracked filling.maxPackets hreceived
  have hnone' : filling.pktFromInput + received.packets.length = 0 := hnone
  have hpackets : received.packets = [] := List.eq_nil_of_length_eq_zero (by omega)
  have hfresh := hsound.fresh (by omega)
  have hanswers : answers ++ (filling.addInput received).answers =
      answers ++ filling.answers ++ received.answers := by
    rw [List.append_assoc]
    rfl
  have hsame : validInput (answers ++ (filling.addInput received).answers) =
      validInput answers := by
    rw [hanswers, hinput, hpackets, hfresh, List.append_nil, List.append_nil]
  refine { tracked := ?_, placed := fun h ↦ absurd rfl h, upToTrailing := ?_,
           length_le := Nat.zero_le _, ended := fun _ _ ↦ ?_, complete := fun _ _ h ↦ ?_ }
  · unfold Tracked
    show (endGroup _).inSyncLost = false ↔ ∀ packet ∈ answered (answers ++ _), _
    rw [hanswers, inSyncLost_endGroup]
    exact htracked
  · rw [List.append_nil]
    show UpToTrailing options before (validInput (answers ++ _))
    rw [hsame]
    exact hbefore
  · rcases hend hpackets with hanswer | hlost
    · refine Or.inl ⟨filling.maxPackets, ?_, ?_⟩
      · unfold Filling.maxPackets
        split_ifs <;> omega
      · show filling.answers ++ received.answers = _
        rw [hfresh, hanswer, List.nil_append]
    · refine Or.inr ?_
      show (endGroup _).inSyncLost = true
      rw [inSyncLost_endGroup]
      exact hlost
  · exact absurd h hgroups

end AddInput

theorem delivered_alternate (plugin : InputPlugin State) (hgroups : options.instuffInpkt ≠ 0)
    (hbefore : UpToTrailing options before (validInput answers)) {turns : ℕ}
    (hsound : filling.Sound options before answers maxPackets) (hturns : filling.pktRemain ≤ turns) :
    Delivered options before answers maxPackets (filling.alternate plugin turns) := by
  have hfull : ∀ {other : Filling State}, other.Sound options before answers maxPackets →
      other.pktRemain = 0 → other.packets = [] → maxPackets = 0 := by
    intro other hother hremain hnothing
    have hsize := hother.size
    rw [hnothing, List.length_nil] at hsize
    omega
  induction turns generalizing filling with
  | zero => exact hsound.delivered (hfull hsound (Nat.le_zero.mp hturns))
  | succ turns ih =>
    unfold alternate
    have hstuffed := hsound.stuffNullpkt
    have hless : filling.stuffNullpkt.pktRemain ≤ filling.pktRemain := Nat.sub_le _ _
    dsimp only
    split_ifs with hroom hstill hnone hshort
    · exact hsound.delivered (hfull hsound hroom)
    · exact hstuffed.delivered (hfull hstuffed hstill)
    all_goals
      obtain ⟨hgroup, hnullpkt, hpos⟩ :=
        hstuffed.startGroup hgroups (nullpktRemain_stuffNullpkt hstill)
    · exact hgroup.delivered_nothing plugin hgroups hstill hpos rfl hbefore hnone
    · refine (hgroup.addInput plugin hgroups hstill hnullpkt hpos rfl hnone).delivered ?_
      intro hnothing
      have hread := (hgroup.addInput plugin hgroups hstill hnullpkt hpos rfl hnone).fromInput_le
      rw [hnothing, List.length_nil] at hread
      exact absurd (Nat.le_zero.mp hread) hnone
    · apply ih (hgroup.addInput plugin hgroups hstill hnullpkt hpos rfl hnone)
      have hasked : 0 < filling.stuffNullpkt.startGroup.maxPackets := by
        unfold Filling.maxPackets
        split_ifs
        · exact Nat.pos_of_ne_zero hstill
        · exact hpos
      have hread := not_lt.mp hshort
      show filling.stuffNullpkt.pktRemain - _ ≤ turns
      omega

theorem delivered_readAll (plugin : InputPlugin State) (hgroups : options.instuffInpkt = 0)
    (hsound : filling.Sound options before answers maxPackets) (hanswers : filling.answers = []) :
    Delivered options before answers maxPackets (filling.readAll plugin) := by
  generalize hreceived : receiveAndValidate plugin filling.executor filling.pktRemain = received
  obtain ⟨htracked, hinput, hlength, ⟨input, total, lost, hexecutor⟩, hend⟩ :=
    receiveAndValidate_spec plugin hsound.tracked filling.pktRemain hreceived.symm
  have hresult : filling.readAll plugin =
      ⟨filling.packets ++ received.packets, received.answers, received.executor⟩ := by
    unfold readAll
    rw [hreceived, hanswers]
    rfl
  have hsize := hsound.size
  rw [hanswers, List.append_nil] at hinput htracked
  have hplaced : Placed options (before ++ filling.packets) (validInput answers)
      received.executor := by
    have hbefore := hsound.placed
    rw [hanswers, List.append_nil] at hbefore
    rw [hexecutor]
    exact hbefore.congr rfl rfl rfl rfl
  have hstart : filling.pktRemain ≠ 0 → received.executor.instuffStartRemain = 0 := by
    intro hroom
    rw [hexecutor]
    exact hsound.room hroom
  have hafter : Placed options (before ++ (filling.packets ++ received.packets))
      (validInput (answers ++ received.answers)) received.executor := by
    rw [hinput, ← List.append_assoc]
    by_cases hroom : filling.pktRemain = 0
    · have hnothing : received.packets = [] := List.eq_nil_of_length_eq_zero (by omega)
      rw [hnothing, List.append_nil, List.append_nil]
      exact hplaced
    · exact hplaced.readAll (hstart hroom) hgroups received.packets
  rw [hresult]
  refine { tracked := htracked, placed := fun _ ↦ hafter, upToTrailing := hafter.upToTrailing,
           length_le := ?_, ended := fun hnothing hpos ↦ ?_, complete := fun hnothing hpos _ ↦ ?_ }
  · show (filling.packets ++ received.packets).length ≤ maxPackets
    rw [List.length_append]
    omega
  · obtain ⟨hpackets, hreceivedNothing⟩ := List.append_eq_nil_iff.mp hnothing
    rw [hpackets, List.length_nil] at hsize
    rcases hend hreceivedNothing with hanswer | hlost
    · exact Or.inl ⟨filling.pktRemain, by omega, hanswer⟩
    · exact Or.inr hlost
  · obtain ⟨hpackets, hreceivedNothing⟩ := List.append_eq_nil_iff.mp hnothing
    rw [hpackets, List.length_nil] at hsize
    have hnullpkt : received.executor.instuffNullpktRemain = 0 := by
      by_contra hdue
      exact (hafter.nullpkt hdue).1 hgroups
    have hequal := hafter.packets_eq
    rw [hstart (by omega), hnullpkt, hpackets, hreceivedNothing] at hequal
    simpa using hequal

end InputExecutor.Filling

theorem InputExecutor.delivered_receiveAndStuff {State : Type} (plugin : InputPlugin State)
    {options : StuffingOptions} {before : List TSPacket} {answers : List InputAnswer}
    {executor : InputExecutor State} (htracked : Tracked answers executor)
    (hplaced : Placed options before (validInput answers) executor) (maxPackets : ℕ) :
    Delivered options before answers maxPackets (executor.receiveAndStuff plugin maxPackets) := by
  have hsound := Filling.sound_stuffStart htracked hplaced maxPackets
  have hcounted : ∀ {received : Reception State},
      Delivered options before answers maxPackets received →
        Delivered options before answers maxPackets
          { received with
            executor :=
              { received.executor with
                totalPackets := received.executor.totalPackets + received.packets.length } } := by
    intro received hreceived
    exact { hreceived with placed := fun h ↦ (hreceived.placed h).congr rfl rfl rfl rfl }
  unfold receiveAndStuff
  dsimp only
  rw [hplaced.options_eq]
  split_ifs with hgroups
  · exact hcounted (Filling.delivered_readAll plugin hgroups hsound rfl)
  · refine hcounted (Filling.delivered_alternate plugin hgroups hplaced.upToTrailing hsound ?_)
    exact le_refl _

/-! ### Whole runs -/

def deliveredPackets (deliveries : List Delivery) : List TSPacket :=
  deliveries.flatMap Delivery.packets

def allAnswers (deliveries : List Delivery) : List InputAnswer :=
  deliveries.flatMap Delivery.answers

/-- No packet, or one without a synchronization byte. -/
def Delivery.MeetsEnd (answers : List InputAnswer) (delivery : Delivery) : Prop :=
  (∃ asked, 0 < asked ∧ delivery.answers = [⟨asked, []⟩]) ∨
    ∃ packet ∈ answered answers, packet.hasValidSync = false

/-- What holds of the calls made so far. -/
structure Session.Faithful (options : StuffingOptions) {State : Type} (session : Session State)
    (deliveries : List Delivery) : Prop where
  tracked : Tracked (allAnswers deliveries) session.executor
  placed : session.pluginCompleted = false → Placed options (deliveredPackets deliveries)
    (validInput (allAnswers deliveries)) session.executor
  upToTrailing : UpToTrailing options (deliveredPackets deliveries)
    (validInput (allAnswers deliveries))
  length_le : ∀ delivery ∈ deliveries, delivery.packets.length ≤ delivery.maxPackets
  ended : ∀ delivery ∈ deliveries, delivery.packets = [] → 0 < delivery.maxPackets →
    delivery.MeetsEnd (allAnswers deliveries) ∧ (options.instuffInpkt = 0 →
      deliveredPackets deliveries = stuffedInput options (validInput (allAnswers deliveries)))
  nonempty : session.pluginCompleted = false → ∀ delivery ∈ deliveries, delivery.packets ≠ []

namespace Session

variable {State : Type} (plugin : InputPlugin State) {options : StuffingOptions}

theorem Faithful.step {session next : Session State} {deliveries outputs : List Delivery}
    (hfaithful : session.Faithful options deliveries) {maxPackets : ℕ}
    (hstep : (machine plugin).step session maxPackets = some (next, outputs)) :
    next.Faithful options (deliveries ++ outputs) := by
  simp only [machine] at hstep
  split_ifs at hstep with hcompleted
  rw [Bool.not_eq_true] at hcompleted
  have hdelivered := InputExecutor.delivered_receiveAndStuff plugin hfaithful.tracked
    (hfaithful.placed hcompleted) maxPackets
  obtain ⟨hnext, houtputs⟩ := Prod.mk.inj (Option.some.inj hstep)
  generalize session.executor.receiveAndStuff plugin maxPackets = received at *
  subst hnext houtputs
  have hpackets : deliveredPackets (deliveries ++ [⟨maxPackets, received.packets, received.answers⟩])
      = deliveredPackets deliveries ++ received.packets := by
    simp [deliveredPackets]
  have hanswers : allAnswers (deliveries ++ [⟨maxPackets, received.packets, received.answers⟩])
      = allAnswers deliveries ++ received.answers := by
    simp [allAnswers]
  have hearlier := hfaithful.nonempty hcompleted
  refine { tracked := ?_, placed := fun hmore ↦ ?_, upToTrailing := ?_, length_le := ?_,
           ended := ?_, nonempty := fun hmore ↦ ?_ }
  · rw [hanswers]
    exact hdelivered.tracked
  · rw [hanswers, hpackets]
    apply hdelivered.placed
    rintro hnothing
    simp [hnothing] at hmore
  · rw [hanswers, hpackets]
    exact hdelivered.upToTrailing
  · intro delivery hdelivery
    rcases List.mem_append.mp hdelivery with hold | hnew
    · exact hfaithful.length_le delivery hold
    · obtain rfl := List.mem_singleton.mp hnew
      exact hdelivered.length_le
  · intro delivery hdelivery hnothing hpos
    rcases List.mem_append.mp hdelivery with hold | hnew
    · exact absurd hnothing (hearlier delivery hold)
    · obtain rfl := List.mem_singleton.mp hnew
      have hnone : received.packets = [] := hnothing
      rw [hanswers, hpackets, hnone, List.append_nil]
      refine ⟨?_, hdelivered.complete hnothing hpos⟩
      rcases hdelivered.ended hnothing hpos with hanswer | hlost
      · exact Or.inl hanswer
      · refine Or.inr ?_
        by_contra hall
        have hkept := hdelivered.tracked.mpr fun packet hpacket ↦ by
          by_contra hinvalid
          rw [Bool.not_eq_true] at hinvalid
          exact hall ⟨packet, hpacket, hinvalid⟩
        rw [hlost] at hkept
        exact Bool.noConfusion hkept
  · intro delivery hdelivery
    rcases List.mem_append.mp hdelivery with hold | hnew
    · exact hearlier delivery hold
    · obtain rfl := List.mem_singleton.mp hnew
      rintro hnothing
      have hnone : received.packets = [] := hnothing
      simp [hnone] at hmore

end Session

end TSDuck.Tsp
