import TSDuck.Library.Machine
import TSDuck.Psi.Packetizer
import TSDuck.Tools.FixCC

/-!
# Data injection

A multiplexer receives data from a client, in packets or in sections, and replaces null packets of
the stream by packets of data. The messages of the client are handled by server threads and the
packets of the stream by another one.

In an input packet, the change of the bitrate and the time of the next insertion are examined before
the lock is taken. `Input.packet` is the part before the lock, and `Input.insert` the part under it,
so that any message may come in between.

`isRobust_of_run` states in which runs the messages are processed, the packets of data have
continuous counters and the allocated bitrate is respected.

Scope. The messages are decoded. Those which change no state, the answers to the client and the
reports to the user are left out. `Input.connect` is a new session of a client, at any time.
-/

namespace TSDuck

namespace DataInject

section Queue

variable {Message : Type}

/-- A queue, and the number of lost messages. -/
structure Queue (Message : Type) where
  messages : List Message
  lost : ℕ

def enqueue (maxMessages : ℕ) (messages : List Message) (msg : Message) : Bool × List Message :=
  if maxMessages ≠ 0 ∧ maxMessages ≤ messages.length then (false, messages)
  else (true, messages ++ [msg])

def processPacketLoss (lost : ℕ) (enqueueSuccess : Bool) : ℕ :=
  if enqueueSuccess then 0 else lost + 1

def Queue.push (maxMessages : ℕ) (queue : Queue Message) (msg : Message) : Queue Message :=
  let result := enqueue maxMessages queue.messages msg
  ⟨result.2, processPacketLoss queue.lost result.1⟩

/-- There is room for more messages. -/
def HasRoom (maxMessages : ℕ) (messages more : List Message) : Prop :=
  maxMessages = 0 ∨ messages.length + more.length ≤ maxMessages

end Queue

def queueProvider : SectionProvider Section (List Section) where
  provideSection := fun _ _ queue ↦ (queue.head?, queue.tail)
  doStuffing := fun queue ↦ (false, queue)

structure Options where
  dataPid : ℕ
  maxBitrate : ℕ
  unregulated : Bool
  queueSize : ℕ

/-- The state which the threads share. -/
structure Plugin where
  pktCurrent : ℕ
  pktNextData : ℕ
  dataCC : UInt8
  channelEstablished : Bool
  streamEstablished : Bool
  reqBitrateChanged : Bool
  clientId : UInt32
  dataId : UInt16
  sectionMode : Bool
  packetizer : Packetizer Section
  packetQueue : List TSPacket
  sectionQueue : List Section
  reqBitrate : ℕ
  lostPackets : ℕ
  waiting : Bool
  ended : Bool

namespace Plugin

def clearSession (options : Options) (plugin : Plugin) : Plugin :=
  { plugin with
    channelEstablished := false
    streamEstablished := false
    packetQueue := []
    sectionQueue := []
    packetizer := plugin.packetizer.reset
    lostPackets := 0
    reqBitrate := options.maxBitrate
    reqBitrateChanged := false }

def start (options : Options) : Plugin :=
  clearSession options
    { pktCurrent := 0, pktNextData := 0, dataCC := 0, channelEstablished := false,
      streamEstablished := false, reqBitrateChanged := false, clientId := 0, dataId := 0,
      sectionMode := false, packetizer := .new pidNull, packetQueue := [], sectionQueue := [],
      reqBitrate := 0, lostPackets := 0, waiting := false, ended := false }

/-! ### Messages -/

def channelSetup (plugin : Plugin) (clientId : UInt32) (sectionTSpktFlag : Bool) : Plugin :=
  if plugin.channelEstablished then plugin
  else { plugin with
    clientId := clientId
    sectionMode := !sectionTSpktFlag
    channelEstablished := true }

def channelClose (plugin : Plugin) : Plugin :=
  { plugin with channelEstablished := false, streamEstablished := false }

def streamSetup (plugin : Plugin) (dataId : UInt16) : Plugin :=
  if plugin.channelEstablished && !plugin.streamEstablished then
    { plugin with dataId := dataId, streamEstablished := true }
  else plugin

def streamCloseRequest (plugin : Plugin) : Plugin :=
  { plugin with streamEstablished := false }

def processBandwidthRequest (options : Options) (plugin : Plugin) (bandwidth : Option UInt16) :
    Plugin :=
  match bandwidth with
  | none => plugin
  | some bandwidth =>
    if plugin.streamEstablished then
      let requested := 1000 * bandwidth.toNat
      { plugin with
        reqBitrate := if options.maxBitrate = 0 then requested else min requested options.maxBitrate
        reqBitrateChanged := true }
    else plugin

end Plugin

/-- A message with data. -/
structure DataProvision where
  clientId : UInt32
  dataId : UInt16
  datagrams : List ByteBlock

def copyFrom (data : ByteBlock) (hsize : pktSize ≤ data.length) : TSPacket where
  bytes := data.take pktSize
  length_eq := by rwa [List.length_take, Nat.min_eq_left]

/-- Enqueues the packets of a datagram, in a number of turns. -/
def locatePackets (maxMessages : ℕ) : ℕ → Queue TSPacket → ByteBlock → Option (Queue TSPacket)
  | 0, _, _ => none
  | turns + 1, queue, data =>
    if hsize : pktSize ≤ data.length then
      if byteAt data 0 ≠ syncByte then locatePackets maxMessages turns queue data
      else locatePackets maxMessages turns (queue.push maxMessages (copyFrom data hsize))
        (data.drop pktSize)
    else some queue

def enqueueSection (maxMessages : ℕ) (queue : Queue Section) (datagram : ByteBlock) :
    Queue Section :=
  match Section.ofContent datagram pidNull .ignore with
  | none => queue
  | some sect => queue.push maxMessages sect

namespace Plugin

def accepts (plugin : Plugin) (msg : DataProvision) : Bool :=
  plugin.streamEstablished && msg.clientId == plugin.clientId && msg.dataId == plugin.dataId

def processDataProvision (options : Options) (plugin : Plugin) (msg : DataProvision) :
    Option Plugin :=
  if !plugin.accepts msg then some plugin
  else if plugin.sectionMode then
    let queue := msg.datagrams.foldl (enqueueSection options.queueSize)
      ⟨plugin.sectionQueue, plugin.lostPackets⟩
    some { plugin with sectionQueue := queue.messages, lostPackets := queue.lost }
  else
    (msg.datagrams.foldlM (fun queue datagram ↦
        locatePackets options.queueSize (datagram.length / pktSize + 1) queue datagram)
      (⟨plugin.packetQueue, plugin.lostPackets⟩ : Queue TSPacket)).map fun queue ↦
        { plugin with packetQueue := queue.messages, lostPackets := queue.lost }

def processPacket (options : Options) (plugin : Plugin) (pkt : TSPacket) : Plugin :=
  let counted := { plugin with pktCurrent := plugin.pktCurrent + 1 }
  if pkt.getPID = options.dataPid then { counted with ended := true }
  else if pkt.getPID = pidNull then
    let examined :=
      if counted.reqBitrateChanged then
        { counted with pktNextData := counted.pktCurrent, reqBitrateChanged := false }
      else counted
    { examined with
      waiting := options.unregulated || decide (examined.pktNextData ≤ examined.pktCurrent) }
  else counted

def nextPacket (plugin : Plugin) : Option TSPacket × Plugin :=
  if plugin.sectionMode then
    let result := plugin.packetizer.getNextPacket id (some queueProvider) plugin.sectionQueue
    (if result.found then some result.packet else none,
      { plugin with packetizer := result.packetizer, sectionQueue := result.provider })
  else
    match plugin.packetQueue with
    | [] => (none, plugin)
    | pkt :: rest => (some pkt, { plugin with packetQueue := rest })

/-- A packet of the stream may be replaced, under the lock. -/
def insert (options : Options) (plugin : Plugin) (bitrate : ℕ) :
    Option (Plugin × Option TSPacket) :=
  let next := { plugin.nextPacket.2 with waiting := false }
  match plugin.nextPacket.1 with
  | none => some (next, none)
  | some pkt =>
    let sent := (pkt.setPID options.dataPid).setCC plugin.dataCC
    let counted := { next with dataCC := (plugin.dataCC + 1) &&& 0x0F }
    if !options.unregulated || plugin.reqBitrate != 0 then
      if plugin.reqBitrate = 0 then none
      else some ({ counted with
        pktNextData := plugin.pktNextData + bitrate / plugin.reqBitrate }, some sent)
    else some (counted, some sent)

end Plugin

/-! ### Runs -/

/-- What happens. -/
inductive Input
  | connect
  | channelSetup (clientId : UInt32) (sectionTSpktFlag : Bool)
  | channelClose
  | streamSetup (dataId : UInt16)
  | streamCloseRequest
  | streamBWRequest (bandwidth : Option UInt16)
  | dataProvision (msg : DataProvision)
  | packet (pkt : TSPacket)
  | insert (bitrate : ℕ)

/-- What is done. -/
inductive Output
  | provision (before after : Plugin) (msg : DataProvision)
  | inserted (pkt : TSPacket)

/-- What is inserted since the last change of the allocated bitrate. -/
structure Account where
  since : ℕ
  inserted : ℕ
  bitrates : List ℕ
  lastCC : Option UInt8

/-- The state, with the account of the insertions. -/
structure Server where
  plugin : Plugin
  account : Account

def Account.restart (account : Account) (pktCurrent : ℕ) : Account :=
  { account with since := pktCurrent, inserted := 0, bitrates := [] }

def Server.start (options : Options) : Server where
  plugin := .start options
  account := { since := 0, inserted := 0, bitrates := [], lastCC := none }

def connect (options : Options) (server : Server) : Server where
  plugin := server.plugin.clearSession options
  account :=
    if server.plugin.reqBitrate = options.maxBitrate then server.account
    else server.account.restart server.plugin.pktCurrent

def requestBandwidth (options : Options) (server : Server) (bandwidth : Option UInt16) :
    Server where
  plugin := server.plugin.processBandwidthRequest options bandwidth
  account :=
    if bandwidth.isSome && server.plugin.streamEstablished then
      server.account.restart server.plugin.pktCurrent
    else server.account

def Account.insert (account : Account) (bitrate : ℕ) (sent : TSPacket) : Account where
  since := account.since
  inserted := account.inserted + 1
  bitrates := account.bitrates ++ [bitrate]
  lastCC := some sent.getCC

def insertData (options : Options) (server : Server) (bitrate : ℕ) :
    Option (Server × List Output) :=
  (server.plugin.insert options bitrate).map fun result ↦
    match result.2 with
    | none => (⟨result.1, server.account⟩, [])
    | some sent => (⟨result.1, server.account.insert bitrate sent⟩, [.inserted sent])

def step (options : Options) (server : Server) : Input → Option (Server × List Output)
  | .connect => some (connect options server, [])
  | .channelSetup clientId flag =>
    some ({ server with plugin := server.plugin.channelSetup clientId flag }, [])
  | .channelClose => some ({ server with plugin := server.plugin.channelClose }, [])
  | .streamSetup dataId => some ({ server with plugin := server.plugin.streamSetup dataId }, [])
  | .streamCloseRequest => some ({ server with plugin := server.plugin.streamCloseRequest }, [])
  | .streamBWRequest bandwidth => some (requestBandwidth options server bandwidth, [])
  | .dataProvision msg =>
    (server.plugin.processDataProvision options msg).map fun next ↦
      ({ server with plugin := next }, [.provision server.plugin next msg])
  | .packet pkt =>
    if server.plugin.waiting || server.plugin.ended then some (server, [])
    else some ({ server with plugin := server.plugin.processPacket options pkt }, [])
  | .insert bitrate =>
    if server.plugin.waiting then insertData options server bitrate else some (server, [])

def machine (options : Options) : Machine Server Input Output where
  step := step options

/-! ### What is expected -/

def blocks (data : ByteBlock) : List ByteBlock :=
  (List.range (data.length / pktSize)).map fun index ↦
    (data.drop (index * pktSize)).take pktSize

def packetOf (block : ByteBlock) : Option TSPacket :=
  if hblock : block.length = pktSize ∧ byteAt block 0 = syncByte then some ⟨block, hblock.1⟩
  else none

def validPackets (msg : DataProvision) : List TSPacket :=
  msg.datagrams.flatMap fun datagram ↦ (blocks datagram).filterMap packetOf

def validSections (msg : DataProvision) : List Section :=
  msg.datagrams.filterMap fun datagram ↦ Section.ofContent datagram pidNull .ignore

/-- An accepted message enqueues its packets or sections. -/
def Output.EnqueuesAll : Output → Prop
  | .provision before after msg =>
    if !before.accepts msg then after = before
    else if before.sectionMode then
      after.sectionQueue = before.sectionQueue ++ validSections msg ∧
        after.packetQueue = before.packetQueue
    else
      after.packetQueue = before.packetQueue ++ validPackets msg ∧
        after.sectionQueue = before.sectionQueue
  | .inserted _ => True

def Output.packet? : Output → Option TSPacket
  | .provision _ _ _ => none
  | .inserted pkt => some pkt

/-- At most one packet more than the allocated part. -/
def IsRegulated (options : Options) (server : Server) : Prop :=
  options.unregulated = false → ∀ bitrate, (∀ other ∈ server.account.bitrates, other = bitrate) →
    server.account.inserted * bitrate ≤
      bitrate + server.plugin.reqBitrate * (server.plugin.pktCurrent - server.account.since)

/-- What the outputs of a run and its last state are expected to be. -/
structure IsRobust (options : Options) (last : Server) (outputs : List Output) : Prop where
  enqueues : ∀ output ∈ outputs, output.EnqueuesAll
  continuous : FixCC.Continuous none (outputs.filterMap Output.packet?)
  regulated : IsRegulated options last

/-- A condition on the inputs. In the messages which are accepted, all blocks are packets, and there
is room for the valid packets or sections. A packet which is inserted after another one has a
payload; in regulated mode a bitrate is allocated, its last change was seen and it divides the one
of the stream, or is not less. In a new session with another bitrate, the insertion point is not
late. -/
def IsSafe (options : Options) (server : Server) : Input → Prop
  | .connect => options.unregulated = false →
    (server.plugin.reqBitrateChanged = true ∨ server.plugin.reqBitrate ≠ options.maxBitrate) →
      server.plugin.pktCurrent ≤ server.plugin.pktNextData
  | .dataProvision msg => server.plugin.accepts msg = true → if server.plugin.sectionMode then
      HasRoom options.queueSize server.plugin.sectionQueue (validSections msg)
    else
      (∀ datagram ∈ msg.datagrams, ∀ block ∈ blocks datagram, byteAt block 0 = syncByte) ∧
        HasRoom options.queueSize server.plugin.packetQueue (validPackets msg)
  | .insert bitrate => server.plugin.waiting = true → ∀ pkt, server.plugin.nextPacket.1 = some pkt →
      (server.plugin.sectionMode = false → server.account.lastCC ≠ none → pkt.hasPayload = true) ∧
        (options.unregulated = false → server.plugin.reqBitrate ≠ 0 ∧
          server.plugin.reqBitrateChanged = false ∧
            (server.plugin.reqBitrate ∣ bitrate ∨ bitrate ≤ server.plugin.reqBitrate))
  | _ => True

/-! ### Messages with data -/

section Messages

variable {Message : Type} {maxMessages : ℕ}

theorem messages_foldl_push {more : List Message} {queue : Queue Message}
    (hroom : HasRoom maxMessages queue.messages more) :
    (more.foldl (Queue.push maxMessages) queue).messages = queue.messages ++ more := by
  induction more generalizing queue with
  | nil => exact (List.append_nil _).symm
  | cons msg rest ih =>
    have hfirst : (queue.push maxMessages msg).messages = queue.messages ++ [msg] := by
      have hnot : ¬(maxMessages ≠ 0 ∧ maxMessages ≤ queue.messages.length) := by
        rintro ⟨hlimit, hfull⟩
        have hle := hroom.resolve_left hlimit
        rw [List.length_cons] at hle
        omega
      rw [Queue.push, enqueue, if_neg hnot]
    have hrest : HasRoom maxMessages (queue.push maxMessages msg).messages rest := by
      refine hroom.imp_right fun hle ↦ ?_
      rw [hfirst, List.length_append, List.length_singleton]
      rwa [List.length_cons, Nat.add_comm rest.length, ← Nat.add_assoc] at hle
    rw [List.foldl_cons, ih hrest, hfirst, List.append_assoc, List.singleton_append]

variable {data : ByteBlock}

theorem blocks_of_lt (hsize : data.length < pktSize) : blocks data = [] := by
  rw [blocks, Nat.div_eq_of_lt hsize, List.range_zero, List.map_nil]

theorem blocks_of_le (hsize : pktSize ≤ data.length) :
    blocks data = data.take pktSize :: blocks (data.drop pktSize) := by
  have hcount : data.length / pktSize = (data.length - pktSize) / pktSize + 1 :=
    Nat.div_eq_sub_div (by decide) hsize
  rw [blocks, blocks, hcount, List.range_succ_eq_map, List.map_cons, List.map_map, Nat.zero_mul,
    List.drop_zero, List.length_drop]
  refine congrArg _ (List.map_congr_left fun index _ ↦ ?_)
  rw [Function.comp_apply, List.drop_drop, Nat.succ_mul, Nat.add_comm]

theorem locatePackets_of_valid {turns : ℕ} (queue : Queue TSPacket)
    (hvalid : ∀ block ∈ blocks data, byteAt block 0 = syncByte) (hturns : data.length / pktSize < turns) :
    locatePackets maxMessages turns queue data =
      some (((blocks data).filterMap packetOf).foldl (Queue.push maxMessages) queue) := by
  induction turns generalizing data queue with
  | zero => exact absurd hturns (Nat.not_lt_zero _)
  | succ turns ih =>
    rw [locatePackets]
    split_ifs with hsize hsync
    · refine absurd (hvalid (data.take pktSize) ?_) ?_
      · rw [blocks_of_le hsize]
        exact List.mem_cons_self
      · rwa [byteAt_take data (show 0 < pktSize by decide)]
    · have hcount : data.length / pktSize = (data.length - pktSize) / pktSize + 1 :=
        Nat.div_eq_sub_div (by decide) hsize
      have hblock : packetOf (data.take pktSize) = some (copyFrom data hsize) := by
        refine dif_pos ⟨(copyFrom data hsize).length_eq, ?_⟩
        rwa [byteAt_take data (show 0 < pktSize by decide), ← not_ne_iff]
      rw [blocks_of_le hsize, List.filterMap_cons_some hblock, List.foldl_cons]
      refine ih _ (fun block hmem ↦ hvalid block ?_) ?_
      · rw [blocks_of_le hsize]
        exact List.mem_cons_of_mem _ hmem
      · rw [List.length_drop]
        omega
    · rw [blocks_of_lt (Nat.not_le.mp hsize)]
      rfl

theorem locate_all {datagrams : List ByteBlock} (queue : Queue TSPacket)
    (hvalid : ∀ datagram ∈ datagrams, ∀ block ∈ blocks datagram, byteAt block 0 = syncByte) :
    datagrams.foldlM (fun queue datagram ↦
        locatePackets maxMessages (datagram.length / pktSize + 1) queue datagram) queue =
      some ((datagrams.flatMap fun datagram ↦ (blocks datagram).filterMap packetOf).foldl
        (Queue.push maxMessages) queue) := by
  induction datagrams generalizing queue with
  | nil => rfl
  | cons datagram rest ih =>
    rw [List.foldlM_cons, locatePackets_of_valid queue (hvalid datagram List.mem_cons_self)
      (Nat.lt_succ_self _), List.flatMap_cons, List.foldl_append]
    exact ih _ (List.forall_mem_cons.mp hvalid).2

theorem enqueue_all (datagrams : List ByteBlock) (queue : Queue Section) :
    datagrams.foldl (enqueueSection maxMessages) queue =
      (datagrams.filterMap fun datagram ↦ Section.ofContent datagram pidNull .ignore).foldl
        (Queue.push maxMessages) queue := by
  induction datagrams generalizing queue with
  | nil => rfl
  | cons datagram rest ih =>
    rw [List.foldl_cons, ih, List.filterMap_cons, enqueueSection]
    cases Section.ofContent datagram pidNull .ignore with
    | none => rfl
    | some sect => rfl

end Messages

variable {options : Options} {server : Server} {plugin : Plugin} {account : Account}

theorem processDataProvision_of_isSafe {msg : DataProvision}
    (hsafe : IsSafe options ⟨plugin, account⟩ (.dataProvision msg)) :
    ∃ packets sections lost, plugin.processDataProvision options msg = some { plugin with
        packetQueue := packets, sectionQueue := sections, lostPackets := lost } ∧
      (Output.provision plugin { plugin with
        packetQueue := packets, sectionQueue := sections, lostPackets := lost } msg).EnqueuesAll := by
  unfold Plugin.processDataProvision
  by_cases haccepts : (!plugin.accepts msg) = true
  · rw [if_pos haccepts]
    refine ⟨_, _, _, rfl, ?_⟩
    rw [Output.EnqueuesAll, if_pos haccepts]
  · have hcondition := hsafe (by rwa [Bool.not_eq_true', Bool.not_eq_false] at haccepts)
    dsimp only at hcondition
    rw [if_neg haccepts]
    by_cases hmode : plugin.sectionMode = true
    · rw [if_pos hmode] at hcondition
      rw [if_pos hmode, enqueue_all]
      refine ⟨_, _, _, rfl, ?_⟩
      rw [Output.EnqueuesAll, if_neg haccepts, if_pos hmode]
      exact ⟨messages_foldl_push hcondition, rfl⟩
    · rw [if_neg hmode] at hcondition
      rw [if_neg hmode, locate_all _ hcondition.1]
      refine ⟨_, _, _, rfl, ?_⟩
      rw [Output.EnqueuesAll, if_neg haccepts, if_neg hmode]
      exact ⟨messages_foldl_push hcondition.2, rfl⟩

/-! ### The state between steps -/

/-- The account of the insertions in regulated mode. -/
structure IsPaced (server : Server) : Prop where
  length_eq : server.account.inserted = server.account.bitrates.length
  since_le : server.account.since ≤ server.plugin.pktCurrent
  changed : server.plugin.reqBitrateChanged = true → server.account.bitrates = []
  next_le : server.plugin.waiting = true → server.plugin.pktNextData ≤ server.plugin.pktCurrent
  le_next : server.plugin.reqBitrateChanged = false →
    server.account.since + (server.account.bitrates.map (· / server.plugin.reqBitrate)).sum ≤
      server.plugin.pktNextData
  inserted_le : server.account.inserted ≤ server.plugin.pktCurrent - server.account.since + 1
  waiting_le : server.plugin.waiting = true →
    server.account.inserted ≤ server.plugin.pktCurrent - server.account.since
  regulated : ∀ bitrate, (∀ other ∈ server.account.bitrates, other = bitrate) →
    server.account.inserted * bitrate ≤
      bitrate + server.plugin.reqBitrate * (server.plugin.pktCurrent - server.account.since)

/-- The state between two steps. -/
structure Sound (options : Options) (server : Server) : Prop where
  ready : server.plugin.packetizer.Ready id
  dataCC_le : server.plugin.dataCC ≤ 0x0F
  dataCC_eq : ∀ cc, server.account.lastCC = some cc → server.plugin.dataCC = (cc + 1) &&& 0x0F
  paced : options.unregulated = false → IsPaced server

theorem sound_start (options : Options) : Sound options (.start options) where
  ready := (Packetizer.ready_new pidNull).reset
  dataCC_le := show (0 : UInt8) ≤ 0x0F by decide
  dataCC_eq := fun _ hnone ↦ absurd hnone.symm (Option.some_ne_none _)
  paced := fun _ ↦
    { length_eq := rfl
      since_le := Nat.le_refl 0
      changed := fun _ ↦ rfl
      next_le := fun _ ↦ Nat.le_refl 0
      le_next := fun _ ↦ Nat.le_refl 0
      inserted_le := Nat.zero_le _
      waiting_le := fun _ ↦ Nat.zero_le _
      regulated := fun bitrate _ ↦ (Nat.zero_mul bitrate).le.trans (Nat.zero_le _) }

variable {next : Plugin} {outputs : List Output}

theorem isPaced_restart (account : Account)
    (hpoint : next.reqBitrateChanged = false → next.pktCurrent ≤ next.pktNextData)
    (hwaiting : next.waiting = true → next.pktNextData ≤ next.pktCurrent) :
    IsPaced ⟨next, account.restart next.pktCurrent⟩ where
  length_eq := rfl
  since_le := Nat.le_refl _
  changed := fun _ ↦ rfl
  next_le := hwaiting
  le_next := hpoint
  inserted_le := Nat.zero_le _
  waiting_le := fun _ ↦ Nat.zero_le _
  regulated := fun bitrate _ ↦ (Nat.zero_mul bitrate).le.trans (Nat.zero_le _)

theorem IsPaced.congr (hpaced : IsPaced ⟨plugin, account⟩)
    (hcurrent : next.pktCurrent = plugin.pktCurrent) (hpoint : next.pktNextData = plugin.pktNextData)
    (hchanged : next.reqBitrateChanged = plugin.reqBitrateChanged)
    (hbitrate : next.reqBitrate = plugin.reqBitrate)
    (hwaiting : next.waiting = true → plugin.waiting = true) : IsPaced ⟨next, account⟩ := by
  obtain ⟨hlength, hsince, hflag, hnext, hle, hinserted, hwait, hregulated⟩ := hpaced
  dsimp only at hsince hflag hnext hle hinserted hwait hregulated
  rw [← hcurrent] at hsince hinserted hregulated
  rw [← hbitrate] at hregulated hle
  rw [← hchanged] at hflag hle
  rw [← hpoint] at hle
  refine ⟨hlength, hsince, hflag, fun hnow ↦ ?_, hle, hinserted, fun hnow ↦ ?_, hregulated⟩
  · dsimp only
    rw [hpoint, hcurrent]
    exact hnext (hwaiting hnow)
  · dsimp only
    rw [hcurrent]
    exact hwait (hwaiting hnow)

theorem Sound.congr (hsound : Sound options ⟨plugin, account⟩)
    (hpacketizer : next.packetizer = plugin.packetizer) (hcc : next.dataCC = plugin.dataCC)
    (hcurrent : next.pktCurrent = plugin.pktCurrent) (hpoint : next.pktNextData = plugin.pktNextData)
    (hchanged : next.reqBitrateChanged = plugin.reqBitrateChanged)
    (hbitrate : next.reqBitrate = plugin.reqBitrate) (hwaiting : next.waiting = plugin.waiting) :
    Sound options ⟨next, account⟩ where
  ready := by
    dsimp only
    rw [hpacketizer]
    exact hsound.ready
  dataCC_le := by
    dsimp only
    rw [hcc]
    exact hsound.dataCC_le
  dataCC_eq := by
    dsimp only
    rw [hcc]
    exact hsound.dataCC_eq
  paced := fun hregulated ↦ (hsound.paced hregulated).congr hcurrent hpoint hchanged hbitrate
    fun hnow ↦ hwaiting.symm.trans hnow

theorem sound_messages (hsound : Sound options ⟨plugin, account⟩) (clientId : UInt32) (flag : Bool)
    (dataId : UInt16) :
    Sound options ⟨plugin.channelSetup clientId flag, account⟩ ∧
      Sound options ⟨plugin.channelClose, account⟩ ∧
        Sound options ⟨plugin.streamSetup dataId, account⟩ ∧
          Sound options ⟨plugin.streamCloseRequest, account⟩ := by
  refine ⟨?_, hsound.congr rfl rfl rfl rfl rfl rfl rfl, ?_,
    hsound.congr rfl rfl rfl rfl rfl rfl rfl⟩
  · unfold Plugin.channelSetup
    split_ifs
    · exact hsound
    · exact hsound.congr rfl rfl rfl rfl rfl rfl rfl
  · unfold Plugin.streamSetup
    split_ifs
    · exact hsound.congr rfl rfl rfl rfl rfl rfl rfl
    · exact hsound

theorem sound_connect (hsound : Sound options server) (hsafe : IsSafe options server .connect) :
    Sound options (connect options server) where
  ready := hsound.ready.reset
  dataCC_le := hsound.dataCC_le
  dataCC_eq := by
    intro cc hcc
    refine hsound.dataCC_eq cc ?_
    unfold connect at hcc
    dsimp only at hcc
    split_ifs at hcc
    · exact hcc
    · exact hcc
  paced := by
    intro hregulated
    have hpaced := hsound.paced hregulated
    have hlate := hsafe hregulated
    unfold connect
    split_ifs with hsame
    · obtain ⟨hlength, hsince, hflag, hnext, hle, hinserted, hwait, hbound⟩ := hpaced
      rw [hsame] at hle hbound
      refine ⟨hlength, hsince, fun hfalse ↦ absurd hfalse Bool.false_ne_true, hnext, fun _ ↦ ?_,
        hinserted, hwait, hbound⟩
      show server.account.since + (server.account.bitrates.map (· / options.maxBitrate)).sum ≤
        server.plugin.pktNextData
      cases hchanged : server.plugin.reqBitrateChanged with
      | true =>
        rw [hflag hchanged]
        exact hsince.trans (hlate (Or.inl hchanged))
      | false => exact hle hchanged
    · exact @isPaced_restart (server.plugin.clearSession options) server.account
        (fun _ ↦ hlate (Or.inr hsame)) hpaced.next_le

theorem sound_requestBandwidth (hsound : Sound options server) (bandwidth : Option UInt16) :
    Sound options (requestBandwidth options server bandwidth) := by
  unfold requestBandwidth Plugin.processBandwidthRequest
  cases bandwidth with
  | none => exact hsound
  | some bandwidth =>
    dsimp only
    rw [Option.isSome_some, Bool.true_and]
    by_cases hstream : server.plugin.streamEstablished = true
    · rw [if_pos hstream, if_pos hstream]
      exact {
        ready := hsound.ready
        dataCC_le := hsound.dataCC_le
        dataCC_eq := hsound.dataCC_eq
        paced := fun hregulated ↦ isPaced_restart server.account
          (fun hfalse ↦ absurd hfalse.symm Bool.false_ne_true) (hsound.paced hregulated).next_le }
    · rw [if_neg hstream, if_neg hstream]
      exact hsound

theorem isPaced_processPacket (hpaced : IsPaced ⟨plugin, account⟩)
    (hregulated : options.unregulated = false) (hidle : plugin.waiting = false) (pkt : TSPacket) :
    IsPaced ⟨plugin.processPacket options pkt, account⟩ := by
  obtain ⟨hlength, hsince, hflag, hnext, hle, hinserted, hwait, hbound⟩ := hpaced
  dsimp only at hlength hsince hflag hnext hle hinserted hwait hbound
  have hlater : ∀ bitrate, (∀ other ∈ account.bitrates, other = bitrate) →
      account.inserted * bitrate ≤
        bitrate + plugin.reqBitrate * (plugin.pktCurrent + 1 - account.since) := by
    intro bitrate hsame
    refine (hbound bitrate hsame).trans (Nat.add_le_add_left (Nat.mul_le_mul_left _ ?_) _)
    omega
  have hcounted : IsPaced ⟨{ plugin with pktCurrent := plugin.pktCurrent + 1 }, account⟩ := by
    refine ⟨hlength, Nat.le_succ_of_le hsince, hflag, fun hnow ↦ ?_, hle, ?_, fun hnow ↦ ?_, hlater⟩
    · exact absurd (hidle.symm.trans hnow) Bool.false_ne_true
    · dsimp only
      omega
    · exact absurd (hidle.symm.trans hnow) Bool.false_ne_true
  unfold Plugin.processPacket
  dsimp only
  split_ifs with hconflict hnull hchanged
  · exact hcounted.congr rfl rfl rfl rfl id
  · have hnone : account.bitrates = [] := hflag hchanged
    have hzero : account.inserted = 0 := by rw [hlength, hnone, List.length_nil]
    refine ⟨hlength, Nat.le_succ_of_le hsince, fun hfalse ↦ absurd hfalse Bool.false_ne_true,
      fun _ ↦ Nat.le_refl _, fun _ ↦ ?_, hcounted.inserted_le, fun _ ↦ ?_, hlater⟩
    · dsimp only
      rw [hnone]
      exact Nat.le_succ_of_le hsince
    · dsimp only
      rw [hzero]
      exact Nat.zero_le _
  · refine ⟨hlength, Nat.le_succ_of_le hsince, hflag, fun hnow ↦ ?_, hle, hcounted.inserted_le,
      fun _ ↦ ?_, hlater⟩
    · rw [hregulated, Bool.false_or] at hnow
      exact of_decide_eq_true hnow
    · dsimp only
      omega
  · exact hcounted

theorem sound_processPacket (hsound : Sound options ⟨plugin, account⟩)
    (hidle : plugin.waiting = false) (pkt : TSPacket) :
    Sound options ⟨plugin.processPacket options pkt, account⟩ := by
  have hkept : (plugin.processPacket options pkt).packetizer = plugin.packetizer ∧
      (plugin.processPacket options pkt).dataCC = plugin.dataCC := by
    unfold Plugin.processPacket
    dsimp only
    split_ifs
    · exact ⟨rfl, rfl⟩
    · exact ⟨rfl, rfl⟩
    · exact ⟨rfl, rfl⟩
    · exact ⟨rfl, rfl⟩
  exact {
    ready := by
      dsimp only
      rw [hkept.1]
      exact hsound.ready
    dataCC_le := by
      dsimp only
      rw [hkept.2]
      exact hsound.dataCC_le
    dataCC_eq := by
      dsimp only
      rw [hkept.2]
      exact hsound.dataCC_eq
    paced := fun hregulated ↦
      isPaced_processPacket (hsound.paced hregulated) hregulated hidle pkt }

/-! ### Insertions -/

theorem nextPacket_spec (hready : plugin.packetizer.Ready id) :
    (∃ packetizer packets sections, plugin.nextPacket.2 = { plugin with
        packetizer := packetizer, packetQueue := packets, sectionQueue := sections } ∧
      packetizer.Ready id) ∧
      (plugin.sectionMode = true → ∀ pkt, plugin.nextPacket.1 = some pkt → pkt.hasPayload = true) := by
  unfold Plugin.nextPacket
  obtain ⟨hprogress, -, hresult⟩ :=
    Packetizer.getNextPacket_spec (some queueProvider) plugin.sectionQueue hready
  by_cases hmode : plugin.sectionMode = true
  · rw [if_pos hmode]
    refine ⟨⟨_, plugin.packetQueue, _, rfl, hprogress.ready⟩, fun _ pkt hpkt ↦ ?_⟩
    rcases hresult with ⟨hfound, -, -⟩ | ⟨hfound, offset, stuffing, hlayout⟩
    · dsimp only at hpkt
      rw [hfound] at hpkt
      exact absurd hpkt.symm (Option.some_ne_none _)
    · dsimp only at hpkt
      rw [hfound, if_pos rfl] at hpkt
      obtain rfl := Option.some.inj hpkt
      exact (flags_of_header hlayout.bytes hready.continuity_lt).2.2
  · rw [if_neg hmode]
    refine ⟨?_, fun hyes ↦ absurd hyes hmode⟩
    cases plugin.packetQueue with
    | nil => exact ⟨plugin.packetizer, _, plugin.sectionQueue, rfl, hready⟩
    | cons pkt rest => exact ⟨plugin.packetizer, _, plugin.sectionQueue, rfl, hready⟩

theorem hasPayload_setPID (pkt : TSPacket) (pid : ℕ) : (pkt.setPID pid).hasPayload = pkt.hasPayload := by
  rw [TSPacket.hasPayload, TSPacket.setPID, TSPacket.byteAt_setByte_of_ne _ (by decide),
    TSPacket.byteAt_setByte_of_ne _ (by decide), TSPacket.hasPayload]

/-- An insertion in regulated mode, with a dividing bitrate. -/
theorem isPaced_insert (hpaced : IsPaced ⟨plugin, account⟩) (hwaiting : plugin.waiting = true)
    (hseen : plugin.reqBitrateChanged = false) {bitrate : ℕ}
    (hbitrate : plugin.reqBitrate ∣ bitrate ∨ bitrate ≤ plugin.reqBitrate) (sent : TSPacket)
    (hcurrent : next.pktCurrent = plugin.pktCurrent)
    (hchanged : next.reqBitrateChanged = plugin.reqBitrateChanged)
    (hallocated : next.reqBitrate = plugin.reqBitrate) (hidle : next.waiting = false)
    (hpoint : next.pktNextData = plugin.pktNextData + bitrate / plugin.reqBitrate) :
    IsPaced ⟨next, account.insert bitrate sent⟩ := by
  obtain ⟨hlength, hsince, hflag, hnext, hle, hinserted, hwait, hbound⟩ := hpaced
  dsimp only at hlength hsince hflag hnext hle hinserted hwait hbound
  have hnow := hnext hwaiting
  have hbefore := hle hseen
  have hcount := hwait hwaiting
  refine ⟨?_, by rwa [hcurrent], fun hyes ↦ ?_, fun hyes ↦ ?_, fun _ ↦ ?_, ?_, fun hyes ↦ ?_, ?_⟩
  · show account.inserted + 1 = (account.bitrates ++ [bitrate]).length
    rw [List.length_append, List.length_singleton, hlength]
  · exact absurd ((hchanged.trans hseen).symm.trans hyes) Bool.false_ne_true
  · exact absurd (hidle.symm.trans hyes) Bool.false_ne_true
  · show account.since + ((account.bitrates ++ [bitrate]).map (· / next.reqBitrate)).sum ≤
      next.pktNextData
    rw [List.map_append, List.sum_append, List.map_singleton, List.sum_singleton, hpoint, hallocated]
    omega
  · show account.inserted + 1 ≤ next.pktCurrent - account.since + 1
    omega
  · exact absurd (hidle.symm.trans hyes) Bool.false_ne_true
  · intro constant hsame
    show (account.inserted + 1) * constant ≤
      constant + next.reqBitrate * (next.pktCurrent - account.since)
    rw [hallocated, hcurrent]
    have hold : account.bitrates = List.replicate account.inserted constant := by
      rw [hlength]
      exact List.eq_replicate_of_mem fun other hother ↦ hsame other (List.mem_append_left _ hother)
    have hlast : bitrate = constant := hsame bitrate (List.mem_append_right _ List.mem_cons_self)
    subst hlast
    rw [Nat.succ_mul, Nat.add_comm]
    refine Nat.add_le_add_left ?_ _
    rcases hbitrate with ⟨interval, hinterval⟩ | hmore
    · rcases Nat.eq_zero_or_pos plugin.reqBitrate with hzero | hpos
      · rw [hinterval, hzero, Nat.zero_mul, Nat.mul_zero]
        exact Nat.zero_le _
      · rw [hold, List.map_replicate, List.sum_replicate_nat, hinterval,
          Nat.mul_div_cancel_left _ hpos] at hbefore
        rw [hinterval, Nat.mul_left_comm]
        exact Nat.mul_le_mul_left _ (by omega)
    · rw [Nat.mul_comm]
      exact Nat.mul_le_mul hmore hcount

/-- What an insertion gives: nothing, or a packet with the next counter. -/
inductive Inserted (options : Options) (server next : Server) : List Output → Prop
  | nothing (hsame : next.account = server.account) : Inserted options server next []
  | packet (sent : TSPacket) (hlast : next.account.lastCC = some sent.getCC)
    (hright : ∀ cc, server.account.lastCC = some cc → sent.getCC = FixCC.nextCC cc sent) :
    Inserted options server next [.inserted sent]

theorem insertData_of_isSafe (hsound : Sound options server)
    (hwaiting : server.plugin.waiting = true) {bitrate : ℕ}
    (hsafe : IsSafe options server (.insert bitrate)) :
    ∃ next outputs, insertData options server bitrate = some (next, outputs) ∧
      Sound options next ∧ Inserted options server next outputs := by
  obtain ⟨plugin, account⟩ := server
  obtain ⟨⟨packetizer, packets, sections, hnext, hready⟩, hsections⟩ :=
    nextPacket_spec hsound.ready
  have hpaced := hsound.paced
  dsimp only at hwaiting hnext
  cases hpkt : plugin.nextPacket.1 with
  | none =>
    unfold insertData Plugin.insert
    dsimp only
    rw [hpkt, hnext]
    refine ⟨_, _, rfl, ?_, .nothing rfl⟩
    exact ⟨hready, hsound.dataCC_le, hsound.dataCC_eq, fun hregulated ↦
      (hpaced hregulated).congr rfl rfl rfl rfl fun hfalse ↦ absurd hfalse Bool.false_ne_true⟩
  | some pkt =>
    obtain ⟨hpackets, hallocated⟩ := hsafe hwaiting pkt hpkt
    have hcc : ((pkt.setPID options.dataPid).setCC plugin.dataCC).getCC = plugin.dataCC :=
      FixCC.getCC_setCC _ hsound.dataCC_le
    have hright : ∀ cc, account.lastCC = some cc →
        ((pkt.setPID options.dataPid).setCC plugin.dataCC).getCC =
          FixCC.nextCC cc ((pkt.setPID options.dataPid).setCC plugin.dataCC) := by
      intro cc hlast
      have hne : account.lastCC ≠ none := by
        rw [hlast]
        exact Option.some_ne_none cc
      have hpayload : pkt.hasPayload = true := by
        cases hmode : plugin.sectionMode with
        | true => exact hsections hmode pkt hpkt
        | false => exact hpackets hmode hne
      rw [FixCC.nextCC, FixCC.hasPayload_setCC, hasPayload_setPID, hpayload, if_pos rfl, hcc]
      exact hsound.dataCC_eq cc hlast
    have hlast : ∀ cc, some ((pkt.setPID options.dataPid).setCC plugin.dataCC).getCC = some cc →
        (plugin.dataCC + 1) &&& 0x0F = (cc + 1) &&& 0x0F := by
      intro cc hsome
      rw [← Option.some.inj hsome, hcc]
    unfold insertData Plugin.insert
    dsimp only
    rw [hpkt, hnext]
    dsimp only
    by_cases hcounted : (!options.unregulated || plugin.reqBitrate != 0) = true
    · have hnonzero : plugin.reqBitrate ≠ 0 := by
        cases hregulated : options.unregulated with
        | false => exact (hallocated hregulated).1
        | true =>
          rw [hregulated] at hcounted
          exact bne_iff_ne.mp hcounted
      rw [if_pos hcounted, if_neg hnonzero]
      refine ⟨_, _, rfl, ?_, .packet _ rfl hright⟩
      refine ⟨hready, FixCC.next_le _, hlast, fun hregulated ↦ ?_⟩
      obtain ⟨-, hseen, hbitrate⟩ := hallocated hregulated
      exact isPaced_insert (hpaced hregulated) hwaiting hseen hbitrate _ rfl rfl rfl rfl rfl
    · have hunregulated : options.unregulated ≠ false := by
        intro hregulated
        rw [hregulated] at hcounted
        exact hcounted rfl
      rw [if_neg hcounted]
      refine ⟨_, _, rfl, ?_, .packet _ rfl hright⟩
      exact ⟨hready, FixCC.next_le _, hlast, fun hregulated ↦ absurd hregulated hunregulated⟩

/-! ### Runs -/

/-- What the outputs so far and the state have in common. -/
structure History (options : Options) (server : Server) (outputs : List Output) : Prop where
  sound : Sound options server
  enqueues : ∀ output ∈ outputs, output.EnqueuesAll
  continuous : FixCC.Continuous none (outputs.filterMap Output.packet?)
  endCC_eq : FixCC.endCC none (outputs.filterMap Output.packet?) = server.account.lastCC

theorem History.quiet {next : Server} (hhistory : History options server outputs)
    (hnext : Sound options next) (hlast : next.account.lastCC = server.account.lastCC) :
    History options next (outputs ++ []) := by
  rw [List.append_nil]
  exact ⟨hnext, hhistory.enqueues, hhistory.continuous, hhistory.endCC_eq.trans hlast.symm⟩

theorem History.provision {next : Server} {before after : Plugin} {msg : DataProvision}
    (hhistory : History options server outputs) (hnext : Sound options next)
    (hlast : next.account.lastCC = server.account.lastCC)
    (henqueues : (Output.provision before after msg).EnqueuesAll) :
    History options next (outputs ++ [.provision before after msg]) := by
  have hpackets : (outputs ++ [Output.provision before after msg]).filterMap Output.packet? =
      outputs.filterMap Output.packet? := by
    rw [List.filterMap_append]
    exact List.append_nil _
  refine ⟨hnext, fun output houtput ↦ ?_, ?_, ?_⟩
  · rcases List.mem_append.mp houtput with hold | hnew
    · exact hhistory.enqueues output hold
    · rwa [List.mem_singleton.mp hnew]
  · rw [hpackets]
    exact hhistory.continuous
  · rw [hpackets, hlast]
    exact hhistory.endCC_eq

theorem endCC_append (lastCC : Option UInt8) (packets : List TSPacket) (pkt : TSPacket) :
    FixCC.endCC lastCC (packets ++ [pkt]) = some pkt.getCC := by
  induction packets generalizing lastCC with
  | nil => rfl
  | cons first rest ih => exact ih _

theorem History.inserted {next : Server} {later : List Output}
    (hhistory : History options server outputs) (hnext : Sound options next)
    (hinserted : Inserted options server next later) :
    History options next (outputs ++ later) := by
  cases hinserted with
  | nothing hsame => exact hhistory.quiet hnext (by rw [hsame])
  | packet sent hlast hright =>
    have hpackets : (outputs ++ [Output.inserted sent]).filterMap Output.packet? =
        outputs.filterMap Output.packet? ++ [sent] :=
      List.filterMap_append
    refine ⟨hnext, fun output houtput ↦ ?_, ?_, ?_⟩
    · rcases List.mem_append.mp houtput with hold | hnew
      · exact hhistory.enqueues output hold
      · rw [List.mem_singleton.mp hnew]
        trivial
    · rw [hpackets, FixCC.continuous_append, hhistory.endCC_eq]
      refine ⟨hhistory.continuous, ?_⟩
      cases hcc : server.account.lastCC with
      | none => trivial
      | some cc => exact ⟨hright cc hcc, trivial⟩
    · rw [hpackets, endCC_append, hlast]

theorem history_step (hhistory : History options server outputs) {input : Input}
    (hsafe : IsSafe options server input) :
    ∃ next later, step options server input = some (next, later) ∧
      History options next (outputs ++ later) := by
  have hsound := hhistory.sound
  cases input with
  | connect =>
    refine ⟨_, _, rfl, hhistory.quiet (sound_connect hsound hsafe) ?_⟩
    unfold connect
    dsimp only
    split_ifs
    · rfl
    · rfl
  | channelSetup clientId flag =>
    exact ⟨_, _, rfl, hhistory.quiet (sound_messages hsound clientId flag 0).1 rfl⟩
  | channelClose => exact ⟨_, _, rfl, hhistory.quiet (sound_messages hsound 0 false 0).2.1 rfl⟩
  | streamSetup dataId =>
    exact ⟨_, _, rfl, hhistory.quiet (sound_messages hsound 0 false dataId).2.2.1 rfl⟩
  | streamCloseRequest =>
    exact ⟨_, _, rfl, hhistory.quiet (sound_messages hsound 0 false 0).2.2.2 rfl⟩
  | streamBWRequest bandwidth =>
    refine ⟨_, _, rfl, hhistory.quiet (sound_requestBandwidth hsound bandwidth) ?_⟩
    unfold requestBandwidth
    dsimp only
    split_ifs
    · rfl
    · rfl
  | dataProvision msg =>
    obtain ⟨packets, sections, lost, hresult, henqueues⟩ := processDataProvision_of_isSafe hsafe
    dsimp only [step]
    rw [hresult]
    exact ⟨_, _, rfl, hhistory.provision (hsound.congr rfl rfl rfl rfl rfl rfl rfl) rfl henqueues⟩
  | packet pkt =>
    dsimp only [step]
    split_ifs with hbusy
    · exact ⟨_, _, rfl, hhistory.quiet hsound rfl⟩
    · rw [Bool.or_eq_true, not_or] at hbusy
      exact ⟨_, _, rfl, hhistory.quiet
        (sound_processPacket hsound (Bool.eq_false_of_not_eq_true hbusy.1) pkt) rfl⟩
  | insert bitrate =>
    dsimp only [step]
    split_ifs with hwaiting
    · obtain ⟨next, later, hresult, hnext, hinserted⟩ :=
        insertData_of_isSafe hsound hwaiting hsafe
      exact ⟨next, later, hresult, hhistory.inserted hnext hinserted⟩
    · exact ⟨_, _, rfl, hhistory.quiet hsound rfl⟩

/-- Assumes: all inputs meet the condition. They are processed, the packets and sections are
enqueued, the counters are continuous and the allocated bitrate is respected. -/
theorem isRobust_of_run (options : Options) {inputs : List Input}
    (hmeets : (machine options).Meets (IsSafe options) (.start options) inputs) :
    ∃ last outputs, (machine options).run (.start options) inputs = some (last, outputs) ∧
      IsRobust options last outputs := by
  have hstart : History options (.start options) [] :=
    ⟨sound_start options, fun _ hmem ↦ absurd hmem List.not_mem_nil, trivial, rfl⟩
  have hstep : ∀ server input reported, History options server reported →
      IsSafe options server input → ∃ next later,
        (machine options).step server input = some (next, later) ∧
          History options next (reported ++ later) :=
    fun _ _ _ hcurrent hsafe ↦ history_step hcurrent hsafe
  obtain ⟨last, outputs, hrun, hhistory⟩ :=
    (machine options).exists_run_history_of_meets hstep hstart hmeets
  exact ⟨last, outputs, hrun, hhistory.enqueues, hhistory.continuous,
    fun hregulated ↦ (hhistory.sound.paced hregulated).regulated⟩

def onePid : Options where
  dataPid := 0x100
  maxBitrate := 0
  unregulated := false
  queueSize := 1000

def oneDatagram : DataProvision where
  clientId := 1
  dataId := 2
  datagrams := [nullPacket.bytes]

/-- A bandwidth is requested, and a section is inserted. -/
theorem isRobust_of_one_section : ∃ last outputs,
    (machine onePid).run (.start onePid) [.channelSetup 1 false, .streamSetup 2,
      .streamBWRequest (some 100), .dataProvision ⟨1, 2, [[0x80, 0x70, 0x01, 0xAA]]⟩,
      .packet nullPacket, .insert 1000000] = some (last, outputs) ∧
        IsRobust onePid last outputs := by
  refine isRobust_of_run onePid ?_
  refine Machine.meets_cons_of_step _ rfl trivial (Machine.meets_cons_of_step _ rfl trivial
    (Machine.meets_cons_of_step _ rfl trivial (Machine.meets_cons_of_step _ rfl (fun _ ↦ ?_)
      (Machine.meets_cons_of_step _ rfl trivial ⟨fun _ ↦ ?_, fun _ _ _ ↦ trivial⟩))))
  · exact Or.inr (by decide +kernel)
  · exact fun _ _ ↦ ⟨fun _ hne ↦ absurd rfl hne, fun _ ↦
      ⟨by decide +kernel, by decide +kernel, Or.inl (by decide +kernel)⟩⟩

/-- A packet is inserted without any bandwidth. -/
theorem not_isRobust_of_no_bandwidth :
    ¬∀ options inputs, ∃ last outputs,
      (machine options).run (.start options) inputs = some (last, outputs) ∧
        IsRobust options last outputs := by
  intro hall
  obtain ⟨last, outputs, hrun, -⟩ := hall onePid [.channelSetup 1 true, .streamSetup 2,
    .dataProvision oneDatagram, .packet nullPacket, .insert 1000000]
  have hnone : ((machine onePid).run (.start onePid) [.channelSetup 1 true, .streamSetup 2,
      .dataProvision oneDatagram, .packet nullPacket, .insert 1000000]).isNone = true := by
    decide +kernel
  rw [hrun] at hnone
  exact absurd hnone Bool.false_ne_true

end DataInject

end TSDuck
