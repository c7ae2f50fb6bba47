import TSDuck.Mpeg.TransportPacket
import TSDuck.Psi.Section

/-!
# Packetization of sections

A packetizer cuts sections into transport stream packets.

Its core is a loop that copies parts of sections into the packet, `FillState.fill`, with one turn
for each section that ends in the packet. `fill_rule` is the induction on the turns, for a property
of the states between turns and one of the last state.

Scope. A pointer designates a section (`target`), and the packetizer reads nothing else from it. The
counters of packets and sections do not wrap.
-/

universe u v

namespace TSDuck

structure SectionProvider (Pointer : Type u) (State : Type v) where
  provideSection : ℕ → ℕ → State → Option Pointer × State
  doStuffing : State → Bool × State

/-- A packetizer on one PID. -/
structure Packetizer (Pointer : Type u) where
  pid : ℕ
  continuity : ℕ
  currentSection : Option Pointer
  nextByte : ℕ
  packetCount : ℕ
  sectionOutCount : ℕ
  sectionInCount : ℕ

/-- The loop that fills a packet. -/
structure FillState (Pointer : Type u) (State : Type v) where
  packetizer : Packetizer Pointer
  provider : State
  nextSection : Option Pointer
  doStuffing : Bool
  remainInSection : ℕ
  remainInPacket : ℕ
  data : ByteBlock
  finished : List Pointer

/-- The outcome of `getNextPacket`. -/
structure PacketResult (Pointer : Type u) (State : Type v) where
  found : Bool
  packet : TSPacket
  packetizer : Packetizer Pointer
  provider : State
  data : ByteBlock
  finished : List Pointer

def TSPacket.stuffed (start : ByteBlock) : TSPacket where
  bytes := (start ++ List.replicate (pktSize - start.length) 0xFF).take pktSize
  length_eq := by
    rw [List.length_take, List.length_append, List.length_replicate]
    omega

variable {Pointer : Type u} {State : Type v}

namespace Packetizer

def new (pid : ℕ) : Packetizer Pointer :=
  { pid, continuity := 0, currentSection := none, nextByte := 0, packetCount := 0,
    sectionOutCount := 0, sectionInCount := 0 }

def reset (packetizer : Packetizer Pointer) : Packetizer Pointer :=
  { packetizer with currentSection := none, nextByte := 0 }

def atSectionBoundary (packetizer : Packetizer Pointer) : Bool :=
  packetizer.nextByte == 0

end Packetizer

variable (target : Pointer → Section) (provider : Option (SectionProvider Pointer State))

def requestSection (packetizer : Packetizer Pointer) (state : State) :
    Option Pointer × Packetizer Pointer × State :=
  match provider with
  | none => (none, packetizer, state)
  | some provider =>
    let given := provider.provideSection packetizer.packetCount packetizer.sectionInCount state
    (given.1, { packetizer with sectionInCount := packetizer.sectionInCount + 1 }, given.2)

def requestStuffing (state : State) : Bool × State :=
  match provider with
  | none => (true, state)
  | some provider => provider.doStuffing state

namespace FillState

/-- Goes on with a section if its header fits. -/
def startSection (fill : FillState Pointer State) (sect : Section) :
    Bool × FillState Pointer State :=
  let known := { fill with doStuffing := false }
  if known.remainInPacket < sect.headerSize then (false, known)
  else (true, { known with remainInSection := sect.size })

/-- The next section, if known, becomes the current one. -/
def ended (fill : FillState Pointer State) : FillState Pointer State :=
  { fill with
    packetizer :=
      { fill.packetizer with
        sectionOutCount := fill.packetizer.sectionOutCount + 1
        currentSection := fill.nextSection
        nextByte := 0 }
    nextSection := none
    finished := fill.finished ++ fill.packetizer.currentSection.toList }

def findNext (fill : FillState Pointer State) : Bool × FillState Pointer State :=
  match fill.packetizer.currentSection with
  | some next => fill.startSection (target next)
  | none =>
    let stuffing := requestStuffing provider fill.provider
    if stuffing.1 then (false, { fill with provider := stuffing.2 })
    else
      let given := requestSection provider fill.packetizer stuffing.2
      let requested :=
        { fill with
          packetizer := { given.2.1 with currentSection := given.1 }
          provider := given.2.2 }
      match given.1 with
      | none => (false, requested)
      | some next => requested.startSection (target next)

/-- Ends the current section and goes on with the next one. -/
def endSection (fill : FillState Pointer State) : Bool × FillState Pointer State :=
  if fill.doStuffing then (false, fill.ended) else fill.ended.findNext target provider

/-- A part of the current section is copied. -/
def copied (fill : FillState Pointer State) (sect : Section) : FillState Pointer State :=
  let length := min fill.remainInSection fill.remainInPacket
  { fill with
    data := fill.data ++ (sect.content.drop fill.packetizer.nextByte).take length
    remainInPacket := fill.remainInPacket - length
    remainInSection := fill.remainInSection - length
    packetizer := { fill.packetizer with nextByte := fill.packetizer.nextByte + length } }

/-- Copies a part of a section; tells if the loop goes on. -/
def turn (fill : FillState Pointer State) (sect : Section) : Bool × FillState Pointer State :=
  if (fill.copied sect).remainInSection = 0 then
    (fill.copied sect).endSection target provider
  else (true, fill.copied sect)

def fill : ℕ → FillState Pointer State → FillState Pointer State
  | 0, state => state
  | turns + 1, state =>
    if state.remainInPacket = 0 then state
    else
      match state.packetizer.currentSection with
      | none => state
      | some pointer =>
        let next := state.turn target provider (target pointer)
        if next.1 then fill turns next.2 else next.2

end FillState

namespace Packetizer

def counted (packetizer : Packetizer Pointer) : Packetizer Pointer :=
  { packetizer with packetCount := packetizer.packetCount + 1 }

def acquire (packetizer : Packetizer Pointer) (state : State) : Packetizer Pointer × State :=
  if packetizer.currentSection.isNone ∧ provider.isSome then
    let given := requestSection provider packetizer.counted state
    ({ given.2.1 with currentSection := given.1, nextByte := 0 }, given.2.2)
  else (packetizer.counted, state)

/-- Looks for the section after the current one. -/
def lookAhead (packetizer : Packetizer Pointer) (state : State) (remainInSection : ℕ) :
    Bool × Option Pointer × Packetizer Pointer × State :=
  if remainInSection ≤ pktSize - 5 - shortSectionHeaderSize then
    let stuffing := requestStuffing provider state
    if stuffing.1 then (true, none, packetizer, stuffing.2)
    else
      let given := requestSection provider packetizer stuffing.2
      match given.1 with
      | none => (true, none, given.2.1, given.2.2)
      | some next =>
        (decide (pktSize - 5 - (target next).headerSize < remainInSection), some next,
          given.2.1, given.2.2)
  else (true, none, packetizer, state)

/-- The start of a section in the packet, if there is one. -/
def pointerField (nextByte remainInSection : ℕ) (doStuffing : Bool) : Option ℕ :=
  if nextByte = 0 then some 0 else if doStuffing then none else some remainInSection

def packetStart (packetizer : Packetizer Pointer) (pointer : Option ℕ) : ByteBlock :=
  packetHeader pointer.isSome packetizer.pid packetizer.continuity ++
    (pointer.map UInt8.ofNat).toList

def fillPacket (packetizer : Packetizer Pointer) (state : State) (pointer : Pointer) :
    PacketResult Pointer State :=
  let remainInSection := (target pointer).size - packetizer.nextByte
  let ahead := packetizer.lookAhead target provider state remainInSection
  let start := ahead.2.2.1.packetStart (pointerField packetizer.nextByte remainInSection ahead.1)
  let filled := FillState.fill target provider (pktSize - start.length)
    { packetizer := { ahead.2.2.1 with continuity := (ahead.2.2.1.continuity + 1) &&& 0x0F }
      provider := ahead.2.2.2
      nextSection := ahead.2.1
      doStuffing := ahead.1
      remainInSection
      remainInPacket := pktSize - start.length
      data := []
      finished := [] }
  { found := true, packet := TSPacket.stuffed (start ++ filled.data),
    packetizer := filled.packetizer, provider := filled.provider, data := filled.data,
    finished := filled.finished }

/-- Builds the next packet, a null one without section. -/
def getNextPacket (packetizer : Packetizer Pointer) (state : State) :
    PacketResult Pointer State :=
  let acquired := packetizer.acquire provider state
  match acquired.1.currentSection with
  | none =>
    { found := false, packet := nullPacket, packetizer := acquired.1, provider := acquired.2,
      data := [], finished := [] }
  | some pointer => acquired.1.fillPacket target provider acquired.2 pointer

end Packetizer

/-! ### The induction on the turns -/

namespace FillState

/-- The induction on the turns of the loop. -/
theorem fill_rule (between last : FillState Pointer State → Prop)
    (hcurrent : ∀ state, between state → ∃ pointer, state.packetizer.currentSection = some pointer)
    (hgo : ∀ state pointer next, between state → 0 < state.remainInPacket →
      state.packetizer.currentSection = some pointer →
        state.turn target provider (target pointer) = (true, next) →
          between next ∧ next.remainInPacket < state.remainInPacket)
    (hstop : ∀ state pointer next, between state → 0 < state.remainInPacket →
      state.packetizer.currentSection = some pointer →
        state.turn target provider (target pointer) = (false, next) → last next)
    (hfull : ∀ state, between state → state.remainInPacket = 0 → last state)
    {turns : ℕ} {start : FillState Pointer State} (hstart : between start)
    (hturns : start.remainInPacket ≤ turns) : last (fill target provider turns start) := by
  induction turns generalizing start with
  | zero => exact hfull start hstart (by omega)
  | succ turns ih =>
    obtain ⟨pointer, hpointer⟩ := hcurrent start hstart
    unfold fill
    split_ifs with hroom
    · exact hfull start hstart hroom
    · rw [hpointer]
      show last (if (start.turn target provider (target pointer)).1 then _ else _)
      rcases hresult : start.turn target provider (target pointer) with ⟨goesOn, next⟩
      cases goesOn with
      | true =>
        obtain ⟨hnext, hless⟩ := hgo start pointer next hstart (by omega) hpointer hresult
        exact ih hnext (Nat.le_of_lt_succ (lt_of_lt_of_le hless hturns))
      | false => exact hstop start pointer next hstart (by omega) hpointer hresult

end FillState

/-- The provider requires no stuffing. -/
def Unstuffed (provider : Option (SectionProvider Pointer State)) (state : State) : Prop :=
  ∃ before, requestStuffing provider before = (false, state)

/-- The provider is asked until it is exhausted. -/
inductive Requests (provider : Option (SectionProvider Pointer State)) (allowed : State → Prop)
    (packetCount : ℕ) : ℕ → State → List Pointer → Bool → ℕ → State → Prop
  | nil (counter : ℕ) (state : State) :
    Requests provider allowed packetCount counter state [] false counter state
  | stuffing {first last : ℕ} {start state : State} {given : List Pointer} {exhausted : Bool} :
    Requests provider allowed packetCount first start given exhausted last state →
      Requests provider allowed packetCount first start given exhausted last
        (requestStuffing provider state).2
  | sect {first last : ℕ} {start state : State} {given : List Pointer}
    {asked : SectionProvider Pointer State} :
    Requests provider allowed packetCount first start given false last state →
      provider = some asked → allowed state → Requests provider allowed packetCount first start
          (given ++ (asked.provideSection packetCount last state).1.toList)
          (asked.provideSection packetCount last state).1.isNone (last + 1)
          (asked.provideSection packetCount last state).2

variable {target provider}

variable {first : ℕ} {start : State}

/-- A request adds a section to those which are given. -/
theorem Requests.request {state : State} {given : List Pointer} {packetizer : Packetizer Pointer}
    (hrequests : Requests provider (Unstuffed provider) packetizer.packetCount first start given
      false packetizer.sectionInCount state) (hunstuffed : Unstuffed provider state) :
    Requests provider (Unstuffed provider) packetizer.packetCount first start
      (given ++ (requestSection provider packetizer state).1.toList)
      (requestSection provider packetizer state).1.isNone
      (requestSection provider packetizer state).2.1.sectionInCount
      (requestSection provider packetizer state).2.2 := by
  cases hprovider : provider with
  | none =>
    obtain ⟨before, hstuffing⟩ := hunstuffed
    rw [hprovider] at hstuffing
    simp [requestStuffing] at hstuffing
  | some asked =>
    rw [hprovider] at hrequests hunstuffed
    exact hrequests.sect rfl hunstuffed

theorem Requests.trans {allowed : State → Prop} {packetCount middle last : ℕ} {between finish : State}
    {before after : List Pointer} {exhausted : Bool}
    (hbefore : Requests provider (fun _ ↦ True) packetCount first start before false middle between)
    (hafter : Requests provider allowed packetCount middle between after exhausted last finish) :
    Requests provider (fun _ ↦ True) packetCount first start (before ++ after) exhausted last
      finish := by
  induction hafter with
  | nil => simpa using hbefore
  | stuffing _ ih => exact (ih hbefore).stuffing
  | sect _ hasked _ ih =>
    rw [← List.append_assoc]
    exact (ih hbefore).sect hasked trivial

theorem exists_requestSection_packetizer (provider : Option (SectionProvider Pointer State))
    (packetizer : Packetizer Pointer) (state : State) :
    ∃ counter, (requestSection provider packetizer state).2.1 =
      { packetizer with sectionInCount := counter } := by
  cases provider with
  | none => exact ⟨packetizer.sectionInCount, rfl⟩
  | some asked => exact ⟨packetizer.sectionInCount + 1, rfl⟩

/-- A property that each request keeps is kept along all requests. -/
theorem Requests.keep {allowed : State → Prop} {packetCount last : ℕ} {state : State}
    {given : List Pointer} {exhausted : Bool} {asked : SectionProvider Pointer State}
    {property : State → Prop}
    (hstuffing : ∀ current, property current → property (asked.doStuffing current).2)
    (hsection : ∀ counter current, property current →
      property (asked.provideSection packetCount counter current).2)
    (hrequests : Requests (some asked) allowed packetCount first start given exhausted last state)
    (hstart : property start) : property state := by
  induction hrequests with
  | nil => exact hstart
  | stuffing hbefore ih => exact hstuffing _ (ih hstart)
  | sect hbefore hasked _ ih =>
    obtain rfl := Option.some.inj hasked
    exact hsection _ _ (ih hstart)

/-! ### What a packet holds -/

def Packetizer.inserted (target : Pointer → Section) (packetizer : Packetizer Pointer) :
    ByteBlock :=
  match packetizer.currentSection with
  | none => []
  | some pointer => (target pointer).content.take packetizer.nextByte

/-- Between two packets, the next byte is one of the current section. -/
structure Packetizer.Ready (target : Pointer → Section) (packetizer : Packetizer Pointer) :
    Prop where
  nextByte_lt : ∀ pointer, packetizer.currentSection = some pointer →
    packetizer.nextByte < (target pointer).size
  nextByte_eq : packetizer.currentSection = none → packetizer.nextByte = 0
  continuity_lt : packetizer.continuity < ccMax

theorem Packetizer.ready_new (pid : ℕ) : (Packetizer.new pid).Ready target :=
  ⟨fun _ hpointer ↦ by simp [Packetizer.new] at hpointer, fun _ ↦ rfl, Nat.succ_pos 15⟩

theorem Packetizer.Ready.reset {packetizer : Packetizer Pointer}
    (hready : packetizer.Ready target) : packetizer.reset.Ready target :=
  ⟨fun _ hpointer ↦ by simp [Packetizer.reset] at hpointer, fun _ ↦ rfl, hready.continuity_lt⟩

namespace FillState

/-- The bytes go on with the current section and the next ones. -/
structure Delivered (target : Pointer → Section)
    (provider : Option (SectionProvider Pointer State)) (before : ByteBlock)
    (known : List Pointer) (exhausted : Bool) (entry fill : FillState Pointer State) : Prop where
  requests : ∃ given, Requests provider (Unstuffed provider) entry.packetizer.packetCount
      entry.packetizer.sectionInCount entry.provider given exhausted
      fill.packetizer.sectionInCount fill.provider ∧
    known ++ given =
      fill.finished ++ fill.packetizer.currentSection.toList ++ fill.nextSection.toList
  bytes : before ++ fill.data = fill.finished.flatMap (fun pointer ↦ (target pointer).content) ++
      fill.packetizer.inserted target
  room : fill.data.length + fill.remainInPacket = entry.remainInPacket
  outCount : fill.packetizer.sectionOutCount =
    entry.packetizer.sectionOutCount + fill.finished.length
  pid_eq : fill.packetizer.pid = entry.packetizer.pid
  continuity_eq : fill.packetizer.continuity = entry.packetizer.continuity
  packetCount_eq : fill.packetizer.packetCount = entry.packetizer.packetCount

/-- The current section has something left. -/
structure Between (target : Pointer → Section)
    (provider : Option (SectionProvider Pointer State)) (before : ByteBlock)
    (known : List Pointer) (exhausted : Bool) (entry fill : FillState Pointer State) : Prop
    extends Delivered target provider before known exhausted entry fill where
  current : ∃ pointer, fill.packetizer.currentSection = some pointer ∧
    fill.packetizer.nextByte + fill.remainInSection = (target pointer).size
  remain_pos : 0 < fill.remainInSection
  next_fits : fill.nextSection ≠ none → fill.remainInSection ≤ fill.remainInPacket
  exhausted_stuffing : exhausted = true → fill.doStuffing = true

/-- The packet is full, or no section is started. -/
structure Last (target : Pointer → Section)
    (provider : Option (SectionProvider Pointer State)) (before : ByteBlock)
    (known : List Pointer) (exhausted : Bool) (entry fill : FillState Pointer State) : Prop
    extends Delivered target provider before known exhausted entry fill where
  nextSection_eq : fill.nextSection = none
  full : fill.remainInPacket = 0 ∨ fill.packetizer.nextByte = 0
  data_ne : fill.data ≠ []
  nextByte_lt : ∀ pointer, fill.packetizer.currentSection = some pointer →
    fill.packetizer.nextByte < (target pointer).size
  nextByte_eq : fill.packetizer.currentSection = none → fill.packetizer.nextByte = 0

variable {before : ByteBlock} {known : List Pointer} {exhausted : Bool}
  {entry : FillState Pointer State}

/-- A state between two turns, or the last one. -/
def Outcome (target : Pointer → Section)
    (provider : Option (SectionProvider Pointer State)) (before : ByteBlock)
    (known : List Pointer) (entry : FillState Pointer State) (room : ℕ)
    (result : Bool × FillState Pointer State) : Prop :=
  ∃ exhausted, (result.1 = true → Between target provider before known exhausted entry result.2 ∧
        result.2.remainInPacket = room) ∧
    (result.1 = false → Last target provider before known exhausted entry result.2)

variable {fill : FillState Pointer State} {pointer : Pointer}

theorem Delivered.startSection (hdelivered : Delivered target provider before known false entry fill)
    (hnext : fill.nextSection = none) (hdata : fill.data ≠ []) (hstart : fill.packetizer.nextByte = 0)
    (hpointer : fill.packetizer.currentSection = some pointer) :
    Outcome target provider before known entry fill.remainInPacket
      (fill.startSection (target pointer)) := by
  obtain ⟨hrequests, hbytes, hroom, hout, hpid, hcontinuity, hcount⟩ := hdelivered
  have hsize := (target pointer).size_pos
  dsimp only [FillState.startSection]
  split_ifs with hheader
  · refine ⟨false, fun h ↦ by simp at h, fun _ ↦
      ⟨⟨hrequests, hbytes, hroom, hout, hpid, hcontinuity, hcount⟩, hnext, Or.inr hstart, hdata,
        fun other _ ↦ ?_, fun _ ↦ hstart⟩⟩
    show fill.packetizer.nextByte < (target other).size
    rw [hstart]
    exact (target other).size_pos
  · refine ⟨false, fun _ ↦ ⟨⟨⟨hrequests, hbytes, hroom, hout, hpid, hcontinuity, hcount⟩,
      ⟨pointer, hpointer, ?_⟩, hsize, fun hsome ↦ absurd hnext hsome, fun h ↦ by simp at h⟩,
      rfl⟩, fun h ↦ by simp at h⟩
    show fill.packetizer.nextByte + (target pointer).size = (target pointer).size
    omega

theorem Delivered.requestStuffing
    (hdelivered : Delivered target provider before known exhausted entry fill) :
    Delivered target provider before known exhausted entry
      { fill with provider := (TSDuck.requestStuffing provider fill.provider).2 } := by
  obtain ⟨given, hrequests, hsections⟩ := hdelivered.requests
  exact { hdelivered with requests := ⟨given, hrequests.stuffing, hsections⟩ }

/-- The section which is given becomes the current one. -/
theorem Delivered.requestSection (hdelivered : Delivered target provider before known false entry fill)
    (hunstuffed : Unstuffed provider fill.provider) (hnext : fill.nextSection = none)
    (hcurrent : fill.packetizer.currentSection = none) (hstart : fill.packetizer.nextByte = 0) :
    Delivered target provider before known
      (TSDuck.requestSection provider fill.packetizer fill.provider).1.isNone entry
      { fill with
        packetizer :=
          { (TSDuck.requestSection provider fill.packetizer fill.provider).2.1 with
            currentSection := (TSDuck.requestSection provider fill.packetizer fill.provider).1 }
        provider := (TSDuck.requestSection provider fill.packetizer fill.provider).2.2 } := by
  obtain ⟨given, hrequests, hsections⟩ := hdelivered.requests
  rw [← hdelivered.packetCount_eq] at hrequests
  have hrequest := hrequests.request hunstuffed
  obtain ⟨counter, hpacketizer⟩ :=
    exists_requestSection_packetizer provider fill.packetizer fill.provider
  rw [hdelivered.packetCount_eq] at hrequest
  have hinserted : fill.packetizer.inserted target = [] := by
    rw [Packetizer.inserted, hcurrent]
  rw [hpacketizer] at hrequest ⊢
  refine ⟨⟨_, hrequest, ?_⟩, ?_, hdelivered.room, hdelivered.outCount, hdelivered.pid_eq,
    hdelivered.continuity_eq, hdelivered.packetCount_eq⟩
  · rw [hcurrent, hnext] at hsections
    rw [← List.append_assoc, hsections, hnext]
    simp
  · rw [hdelivered.bytes, hinserted]
    congr 1
    unfold Packetizer.inserted
    split
    · rfl
    · rw [hstart]
      exact List.take_zero.symm

theorem Delivered.findNext (hdelivered : Delivered target provider before known false entry fill)
    (hnext : fill.nextSection = none) (hdata : fill.data ≠ []) (hstart : fill.packetizer.nextByte = 0) :
    Outcome target provider before known entry fill.remainInPacket
      (fill.findNext target provider) := by
  unfold FillState.findNext
  split
  · rename_i pointer hpointer
    exact hdelivered.startSection hnext hdata hstart hpointer
  · rename_i hcurrent
    have hstuffing := hdelivered.requestStuffing
    dsimp only
    split_ifs with hasked
    · refine ⟨false, fun h ↦ by simp at h, fun _ ↦ ⟨hstuffing, hnext, Or.inr hstart, hdata,
        fun pointer hpointer ↦ ?_, fun _ ↦ hstart⟩⟩
      rw [hcurrent] at hpointer
      simp at hpointer
    · have hunstuffed : Unstuffed provider (TSDuck.requestStuffing provider fill.provider).2 :=
        ⟨fill.provider, Prod.ext (by simpa using hasked) rfl⟩
      have hgiven := hstuffing.requestSection hunstuffed hnext hcurrent hstart
      obtain ⟨counter, hpacketizer⟩ := exists_requestSection_packetizer provider fill.packetizer
        (TSDuck.requestStuffing provider fill.provider).2
      have hzero : (TSDuck.requestSection provider fill.packetizer
          (TSDuck.requestStuffing provider fill.provider).2).2.1.nextByte = 0 := by
        rw [hpacketizer]
        exact hstart
      split
      · rename_i hnone
        refine ⟨_, fun h ↦ by simp at h, fun _ ↦ ⟨hgiven, hnext, Or.inr hzero, hdata,
          fun pointer hpointer ↦ ?_, fun _ ↦ hzero⟩⟩
        rw [hnone] at hpointer
        simp at hpointer
      · rename_i pointer hpointer
        rw [hpointer] at hgiven
        have hcurrentGiven : Delivered target provider before known false entry
            { fill with
              packetizer :=
                { (TSDuck.requestSection provider fill.packetizer
                    (TSDuck.requestStuffing provider fill.provider).2).2.1 with
                  currentSection := (TSDuck.requestSection provider fill.packetizer
                    (TSDuck.requestStuffing provider fill.provider).2).1 }
              provider := (TSDuck.requestSection provider fill.packetizer
                (TSDuck.requestStuffing provider fill.provider).2).2.2 } := by
          rw [hpointer]
          exact hgiven
        exact hcurrentGiven.startSection hnext hdata hzero hpointer

theorem Delivered.ended (hdelivered : Delivered target provider before known exhausted entry fill)
    (hpointer : fill.packetizer.currentSection = some pointer)
    (hend : fill.packetizer.nextByte = (target pointer).size) :
    Delivered target provider before known exhausted entry fill.ended := by
  obtain ⟨⟨given, hrequests, hsections⟩, hbytes, hroom, hout, hpid, hcontinuity, hcount⟩ :=
    hdelivered
  have hinserted : fill.packetizer.inserted target = (target pointer).content := by
    rw [Packetizer.inserted, hpointer]
    show (target pointer).content.take fill.packetizer.nextByte = _
    rw [hend]
    exact List.take_length
  have hnothing : fill.ended.packetizer.inserted target = [] := by
    unfold Packetizer.inserted
    split
    · rfl
    · exact List.take_zero
  refine ⟨⟨given, hrequests, ?_⟩, ?_, hroom, ?_, hpid, hcontinuity, hcount⟩
  · rw [hsections]
    simp [FillState.ended]
  · rw [hnothing, List.append_nil]
    show before ++ fill.data = _
    rw [hbytes, hinserted]
    simp [FillState.ended, hpointer]
  · show fill.packetizer.sectionOutCount + 1 = _
    simp only [FillState.ended, hpointer, Option.toList_some, List.length_append,
      List.length_singleton]
    omega

theorem Delivered.endSection (hdelivered : Delivered target provider before known exhausted entry fill)
    (hexhausted : exhausted = true → fill.doStuffing = true) (hdata : fill.data ≠ [])
    (hpointer : fill.packetizer.currentSection = some pointer)
    (hend : fill.packetizer.nextByte = (target pointer).size) :
    Outcome target provider before known entry fill.remainInPacket
      (fill.endSection target provider) := by
  have hended := hdelivered.ended hpointer hend
  unfold FillState.endSection
  split_ifs with hstuffing
  · refine ⟨exhausted, fun h ↦ by simp at h, fun _ ↦ ⟨hended, rfl, Or.inr rfl, hdata,
      fun other _ ↦ ?_, fun _ ↦ rfl⟩⟩
    exact (target other).size_pos
  · obtain rfl : exhausted = false := by
      cases exhausted with
      | false => rfl
      | true => exact absurd (hexhausted rfl) hstuffing
    exact hended.findNext rfl hdata rfl

theorem Between.copied (hbetween : Between target provider before known exhausted entry fill)
    (hroom : 0 < fill.remainInPacket) (hpointer : fill.packetizer.currentSection = some pointer) :
    Delivered target provider before known exhausted entry (fill.copied (target pointer)) ∧
      (fill.copied (target pointer)).data ≠ [] ∧
      (fill.copied (target pointer)).packetizer.nextByte +
        (fill.copied (target pointer)).remainInSection = (target pointer).size := by
  obtain ⟨other, hother, hsize⟩ := hbetween.current
  obtain rfl : pointer = other := Option.some.inj (hpointer.symm.trans hother)
  have hremain := hbetween.remain_pos
  have hlength : ((((target pointer).content.drop fill.packetizer.nextByte).take
      (min fill.remainInSection fill.remainInPacket))).length =
        min fill.remainInSection fill.remainInPacket := by
    unfold Section.size at hsize
    rw [List.length_take, List.length_drop]
    omega
  refine ⟨⟨hbetween.requests, ?_, ?_, hbetween.outCount, hbetween.pid_eq,
    hbetween.continuity_eq, hbetween.packetCount_eq⟩, ?_, ?_⟩
  · have hbytes := hbetween.bytes
    simp only [Packetizer.inserted, hpointer] at hbytes
    simp only [FillState.copied, Packetizer.inserted, hpointer]
    rw [← List.append_assoc, hbytes, List.append_assoc, ← List.take_add]
  · show (fill.data ++ _).length + _ = _
    rw [List.length_append, hlength, ← hbetween.room]
    simp only [FillState.copied]
    omega
  · refine List.append_ne_nil_of_right_ne_nil _ (List.ne_nil_of_length_pos ?_)
    rw [hlength]
    omega
  · simp only [FillState.copied]
    omega

theorem Between.turn (hbetween : Between target provider before known exhausted entry fill)
    (hroom : 0 < fill.remainInPacket) (hpointer : fill.packetizer.currentSection = some pointer) :
    Outcome target provider before known entry
      (fill.remainInPacket - min fill.remainInSection fill.remainInPacket)
      (fill.turn target provider (target pointer)) := by
  obtain ⟨hdelivered, hdata, hsize⟩ := hbetween.copied hroom hpointer
  unfold FillState.turn
  split_ifs with hend
  · exact hdelivered.endSection hbetween.exhausted_stuffing hdata hpointer (by omega)
  · have hlonger : fill.remainInPacket < fill.remainInSection := by
      simp only [FillState.copied] at hend
      omega
    refine ⟨exhausted, fun _ ↦ ⟨⟨hdelivered, ⟨pointer, hpointer, hsize⟩,
      Nat.pos_of_ne_zero hend, fun hsome ↦ ?_, hbetween.exhausted_stuffing⟩, rfl⟩,
      fun h ↦ by simp at h⟩
    have hfits := hbetween.next_fits hsome
    omega

theorem last_fill {turns : ℕ} (hbetween : Between target provider before known exhausted entry fill)
    (hroom : 0 < entry.remainInPacket) (hturns : fill.remainInPacket ≤ turns) :
    ∃ exhausted, Last target provider before known exhausted entry
      (FillState.fill target provider turns fill) := by
  refine fill_rule target provider
    (fun state ↦ ∃ exhausted, Between target provider before known exhausted entry state)
    (fun state ↦ ∃ exhausted, Last target provider before known exhausted entry state)
    ?_ ?_ ?_ ?_ ⟨exhausted, hbetween⟩ hturns
  · rintro state ⟨exhausted, hstate⟩
    obtain ⟨pointer, hpointer, -⟩ := hstate.current
    exact ⟨pointer, hpointer⟩
  · rintro state pointer next ⟨exhausted, hstate⟩ hpositive hpointer hresult
    have houtcome := hstate.turn hpositive hpointer
    rw [hresult] at houtcome
    obtain ⟨exhausted, hgoes, -⟩ := houtcome
    obtain ⟨hnext, hless⟩ := hgoes rfl
    have hremain := hstate.remain_pos
    refine ⟨⟨exhausted, hnext⟩, lt_of_eq_of_lt hless ?_⟩
    omega
  · rintro state pointer next ⟨exhausted, hstate⟩ hpositive hpointer hresult
    have houtcome := hstate.turn hpositive hpointer
    rw [hresult] at houtcome
    obtain ⟨exhausted, -, hstops⟩ := houtcome
    exact ⟨exhausted, hstops rfl⟩
  · rintro state ⟨exhausted, hstate⟩ hfull
    have hremain := hstate.remain_pos
    have hall := hstate.room
    obtain ⟨pointer, hpointer, hsize⟩ := hstate.current
    refine ⟨exhausted, hstate.toDelivered, ?_, Or.inl hfull, ?_, fun other hother ↦ ?_,
      fun hnone ↦ ?_⟩
    · by_contra hsome
      have hfits := hstate.next_fits hsome
      omega
    · refine List.ne_nil_of_length_pos ?_
      omega
    · obtain rfl : pointer = other := Option.some.inj (hpointer.symm.trans hother)
      omega
    · rw [hpointer] at hnone
      simp at hnone

end FillState

/-! ### One packet -/

namespace Packetizer

variable {packetizer : Packetizer Pointer} {state : State}

/-- Getting a section changes the section and the counters. -/
theorem acquire_spec (provider : Option (SectionProvider Pointer State)) (state : State)
    (hready : packetizer.Ready target) :
    ∃ current counter, (packetizer.acquire provider state).1 = { packetizer with
          packetCount := packetizer.packetCount + 1
          currentSection := current
          sectionInCount := counter } ∧
      ((packetizer.currentSection = current ∧ counter = packetizer.sectionInCount ∧
          (packetizer.acquire provider state).2 = state ∧ (current = none → provider = none)) ∨
        ∃ asked, provider = some asked ∧ packetizer.currentSection = none ∧
          counter = packetizer.sectionInCount + 1 ∧
          (current, (packetizer.acquire provider state).2) =
            asked.provideSection (packetizer.packetCount + 1) packetizer.sectionInCount state) := by
  unfold acquire
  dsimp only
  split_ifs with hnone
  · have hcurrent := Option.isNone_iff_eq_none.mp hnone.1
    obtain ⟨asked, rfl⟩ := Option.isSome_iff_exists.mp hnone.2
    refine ⟨_, _, ?_, Or.inr ⟨asked, rfl, hcurrent, rfl, rfl⟩⟩
    rw [hready.nextByte_eq hcurrent]
    rfl
  · refine ⟨packetizer.currentSection, packetizer.sectionInCount, rfl,
      Or.inl ⟨rfl, rfl, rfl, fun hcurrent ↦ ?_⟩⟩
    by_contra hprovider
    exact hnone ⟨by rw [hcurrent]; rfl, Option.isSome_iff_ne_none.mpr hprovider⟩

/-- Looking for a section changes the number of requests. -/
theorem lookAhead_spec (target : Pointer → Section)
    (provider : Option (SectionProvider Pointer State)) (packetizer : Packetizer Pointer)
    (state : State) (remainInSection : ℕ) :
    ∃ counter exhausted, (packetizer.lookAhead target provider state remainInSection).2.2.1 =
        { packetizer with sectionInCount := counter } ∧
      Requests provider (Unstuffed provider) packetizer.packetCount packetizer.sectionInCount state
        (packetizer.lookAhead target provider state remainInSection).2.1.toList exhausted counter
        (packetizer.lookAhead target provider state remainInSection).2.2.2 ∧
      (exhausted = true → (packetizer.lookAhead target provider state remainInSection).1 = true) ∧
      ((packetizer.lookAhead target provider state remainInSection).1 = true ∧
          (packetizer.lookAhead target provider state remainInSection).2.1 = none ∨
        remainInSection ≤ pktSize - 5 - shortSectionHeaderSize) ∧
      ((packetizer.lookAhead target provider state remainInSection).1 = false →
        (requestStuffing provider state).1 = false) := by
  unfold lookAhead
  dsimp only
  split_ifs with hroom hstuffing
  · exact ⟨packetizer.sectionInCount, false, rfl, (Requests.nil _ _).stuffing,
      fun h ↦ by simp at h, Or.inr hroom, fun h ↦ by simp at h⟩
  · have hfalse : (requestStuffing provider state).1 = false := by simpa using hstuffing
    obtain ⟨counter, hpacketizer⟩ := exists_requestSection_packetizer provider packetizer
      (requestStuffing provider state).2
    have hnothing : Requests provider (Unstuffed provider) packetizer.packetCount
        packetizer.sectionInCount state [] false packetizer.sectionInCount
        (requestStuffing provider state).2 := (Requests.nil _ _).stuffing
    have hrequest := hnothing.request ⟨state, Prod.ext hfalse rfl⟩
    rw [hpacketizer, List.nil_append] at hrequest
    split
    · rename_i hnone
      rw [hnone] at hrequest
      exact ⟨counter, true, hpacketizer, hrequest, fun _ ↦ rfl, Or.inr hroom, fun h ↦ by simp at h⟩
    · rename_i next hnext
      rw [hnext] at hrequest
      exact ⟨counter, false, hpacketizer, hrequest, fun h ↦ by simp at h, Or.inr hroom,
        fun _ ↦ hfalse⟩
  · exact ⟨packetizer.sectionInCount, false, rfl, Requests.nil _ _, fun h ↦ by simp at h,
      Or.inl ⟨rfl, rfl⟩, fun h ↦ by simp at h⟩

/-- The sections and bytes go on with what was inserted. -/
structure Progress (target : Pointer → Section)
    (provider : Option (SectionProvider Pointer State)) (allowed : State → Prop)
    (packetizer : Packetizer Pointer) (state : State)
    (result : PacketResult Pointer State) : Prop where
  requests : ∃ given exhausted, Requests provider allowed result.packetizer.packetCount
      packetizer.sectionInCount state given exhausted result.packetizer.sectionInCount
      result.provider ∧
    packetizer.currentSection.toList ++ given =
      result.finished ++ result.packetizer.currentSection.toList
  bytes : packetizer.inserted target ++ result.data =
    result.finished.flatMap (fun pointer ↦ (target pointer).content) ++
      result.packetizer.inserted target
  outCount : result.packetizer.sectionOutCount = packetizer.sectionOutCount + result.finished.length
  pid_eq : result.packetizer.pid = packetizer.pid
  ready : result.packetizer.Ready target

/-- A header, a pointer field, bytes of sections, stuffing. -/
structure Layout (target : Pointer → Section)
    (provider : Option (SectionProvider Pointer State)) (packetizer : Packetizer Pointer)
    (state : State) (result : PacketResult Pointer State) (pointer : Option ℕ)
    (stuffing : ℕ) : Prop where
  bytes : result.packet.bytes = packetHeader pointer.isSome packetizer.pid packetizer.continuity ++
      ((pointer.map UInt8.ofNat).toList ++ result.data ++ List.replicate stuffing 0xFF)
  size : (pointer.map UInt8.ofNat).toList.length + result.data.length + stuffing = 184
  data_ne : result.data ≠ []
  continuity_eq : result.packetizer.continuity = (packetizer.continuity + 1) % ccMax
  pointer_none : pointer = none → packetizer.nextByte ≠ 0
  pointer_some : ∀ offset, pointer = some offset → packetizer.nextByte = 0 ∧ offset = 0 ∨
    packetizer.nextByte ≠ 0 ∧ 0 < offset ∧ offset ≤ 180 ∧
      (requestStuffing provider state).1 = false ∧
      ∀ current, packetizer.currentSection = some current →
        packetizer.nextByte + offset = (target current).size
  stuffed : stuffing = 0 ∨ result.packetizer.nextByte = 0

theorem stuffed_bytes {start : ByteBlock} {stuffing : ℕ}
    (hsize : start.length + stuffing = pktSize) :
    (TSPacket.stuffed start).bytes = start ++ List.replicate stuffing 0xFF := by
  have hrest : pktSize - start.length = stuffing := by omega
  show (start ++ List.replicate (pktSize - start.length) 0xFF).take pktSize = _
  rw [hrest]
  refine List.take_of_length_le ?_
  rw [List.length_append, List.length_replicate]
  omega

variable {pointer : Pointer}

/-- The loop that fills a packet starts between two turns. -/
theorem between_fillPacket (hready : packetizer.Ready target)
    (hpointer : packetizer.currentSection = some pointer) {counter : ℕ} {next : Option Pointer}
    {looked : State} {exhausted doStuffing : Bool}
    (hrequests : Requests provider (Unstuffed provider) packetizer.packetCount
      packetizer.sectionInCount state next.toList exhausted counter looked)
    (hnext : next ≠ none → (target pointer).size - packetizer.nextByte ≤ 180)
    (hexhausted : exhausted = true → doStuffing = true) {room : ℕ} (hroom : 183 ≤ room) (continuity : ℕ) :
    FillState.Between target provider (packetizer.inserted target) [pointer] exhausted
      { packetizer := { packetizer with continuity }, provider := state, nextSection := none,
        doStuffing := true, remainInSection := 0, remainInPacket := room, data := [],
        finished := [] }
      { packetizer := { packetizer with sectionInCount := counter, continuity },
        provider := looked, nextSection := next, doStuffing,
        remainInSection := (target pointer).size - packetizer.nextByte,
        remainInPacket := room, data := [], finished := [] } := by
  have hbyte := hready.nextByte_lt pointer hpointer
  refine ⟨⟨⟨next.toList, hrequests, ?_⟩, ?_, ?_, rfl, rfl, rfl, rfl⟩, ⟨pointer, hpointer, ?_⟩, ?_,
    fun hsome ↦ ?_, hexhausted⟩
  · simp [hpointer]
  · simp [Packetizer.inserted]
  · simp
  · show packetizer.nextByte + ((target pointer).size - packetizer.nextByte) = _
    omega
  · show 0 < (target pointer).size - packetizer.nextByte
    omega
  · exact (hnext hsome).trans (by simp only; omega)

/-- The packet makes progress, with sections. -/
theorem fillPacket_spec (provider : Option (SectionProvider Pointer State)) (state : State)
    (hready : packetizer.Ready target) (hpointer : packetizer.currentSection = some pointer) :
    Progress target provider (Unstuffed provider) packetizer state
        (packetizer.fillPacket target provider state pointer) ∧
      (packetizer.fillPacket target provider state pointer).packetizer.packetCount =
        packetizer.packetCount ∧
      ∃ offset stuffing, Layout target provider packetizer state
        (packetizer.fillPacket target provider state pointer) offset stuffing := by
  have hbyte := hready.nextByte_lt pointer hpointer
  obtain ⟨counter, exhausted, hahead, hrequests, hexhausted, hroom, hunstuffed⟩ :=
    lookAhead_spec target provider packetizer state ((target pointer).size - packetizer.nextByte)
  unfold fillPacket
  dsimp only
  generalize packetizer.lookAhead target provider state
    ((target pointer).size - packetizer.nextByte) = ahead
      at hahead hrequests hexhausted hroom hunstuffed ⊢
  obtain ⟨doStuffing, next, looked, lookedState⟩ := ahead
  simp only at hahead hrequests hexhausted hroom hunstuffed ⊢
  subst hahead
  generalize hfield : pointerField packetizer.nextByte
    ((target pointer).size - packetizer.nextByte) doStuffing = offset
  have hstart : ({ packetizer with sectionInCount := counter } : Packetizer Pointer).packetStart
      offset = packetHeader offset.isSome packetizer.pid packetizer.continuity ++
        (offset.map UInt8.ofNat).toList := rfl
  rw [hstart]
  generalize hroomEq : pktSize - (packetHeader offset.isSome packetizer.pid
    packetizer.continuity ++ (offset.map UInt8.ofNat).toList).length = room
  have hlength : (offset.map UInt8.ofNat).toList.length + room = 184 ∧ 183 ≤ room := by
    rw [List.length_append, length_packetHeader, pktSize] at hroomEq
    cases offset <;> simp at hroomEq ⊢ <;> omega
  have hmask : (packetizer.continuity + 1) &&& 0x0F = (packetizer.continuity + 1) % ccMax :=
    Nat.and_two_pow_sub_one_eq_mod _ 4
  rw [hmask]
  have hnext : next ≠ none → (target pointer).size - packetizer.nextByte ≤ 180 := fun hsome ↦
    hroom.resolve_left fun hnone ↦ hsome hnone.2
  have hbetween := between_fillPacket hready hpointer hrequests hnext hexhausted hlength.2
    ((packetizer.continuity + 1) % ccMax)
  obtain ⟨last, hlast⟩ := FillState.last_fill hbetween (by simp only; omega) (le_refl _)
  generalize FillState.fill target provider _ _ = filled at hlast ⊢
  obtain ⟨⟨hgiven, hbytes, hsize, hout, hpid, hcontinuity, hcount⟩, hnone, hfull, hdata, hlt,
    hzero⟩ := hlast
  have hfilled : filled.data.length + filled.remainInPacket = room := hsize
  refine ⟨⟨?_, hbytes, hout, hpid, hlt, hzero, ?_⟩, hcount, offset, filled.remainInPacket,
    ?_, ?_, hdata, hcontinuity, ?_, ?_, hfull⟩
  · obtain ⟨given, hgivenRequests, hgivenSections⟩ := hgiven
    rw [hnone] at hgivenSections
    refine ⟨given, last, ?_, ?_⟩
    · rw [hcount]
      exact hgivenRequests
    · simpa [hpointer] using hgivenSections
  · rw [hcontinuity]
    exact Nat.mod_lt _ (by decide)
  · show (TSPacket.stuffed _).bytes = _
    have htotal : (packetHeader offset.isSome packetizer.pid packetizer.continuity ++
        (offset.map UInt8.ofNat).toList ++ filled.data).length + filled.remainInPacket =
          pktSize := by
      rw [List.length_append, List.length_append, length_packetHeader, pktSize]
      omega
    rw [stuffed_bytes htotal]
    simp only [List.append_assoc]
  · show (offset.map UInt8.ofNat).toList.length + filled.data.length + filled.remainInPacket = 184
    omega
  · intro hnoField
    rw [← hfield] at hnoField
    unfold pointerField at hnoField
    split_ifs at hnoField with hzeroByte
    exact hzeroByte
  · intro value hvalue
    rw [← hfield] at hvalue
    unfold pointerField at hvalue
    split_ifs at hvalue with hzeroByte hstuffing
    · exact Or.inl ⟨hzeroByte, (Option.some.inj hvalue).symm⟩
    · obtain rfl := Option.some.inj hvalue
      have hshort := hroom.resolve_left fun hfalse ↦ hstuffing hfalse.1
      refine Or.inr ⟨hzeroByte, by omega, hshort, hunstuffed (by simpa using hstuffing),
        fun current hcurrent ↦ ?_⟩
      obtain rfl : pointer = current := Option.some.inj (hpointer.symm.trans hcurrent)
      omega

theorem acquired_ready (hready : packetizer.Ready target)
    (hfirst : packetizer.currentSection = some pointer ∨ packetizer.currentSection = none) (counter : ℕ) :
    Ready target
        { packetizer with
          packetCount := packetizer.packetCount + 1
          currentSection := some pointer
          sectionInCount := counter } ∧
      inserted target
        { packetizer with
          packetCount := packetizer.packetCount + 1
          currentSection := some pointer
          sectionInCount := counter } = packetizer.inserted target := by
  refine ⟨⟨fun other hother ↦ ?_, fun hnone ↦ by simp at hnone, hready.continuity_lt⟩, ?_⟩
  · obtain rfl : pointer = other := Option.some.inj hother
    show packetizer.nextByte < _
    rcases hfirst with hsame | hnone
    · exact hready.nextByte_lt pointer hsame
    · rw [hready.nextByte_eq hnone]
      exact (target pointer).size_pos
  · unfold inserted
    dsimp only
    rcases hfirst with hsame | hnone
    · rw [hsame]
    · rw [hnone, hready.nextByte_eq hnone]
      exact List.take_zero

/-- The next packet makes progress. -/
theorem getNextPacket_spec (provider : Option (SectionProvider Pointer State)) (state : State)
    (hready : packetizer.Ready target) :
    Progress target provider (fun _ ↦ True) packetizer state
        (packetizer.getNextPacket target provider state) ∧
      (packetizer.getNextPacket target provider state).packetizer.packetCount =
        packetizer.packetCount + 1 ∧
      (((packetizer.getNextPacket target provider state).found = false ∧
          (packetizer.getNextPacket target provider state).packetizer.currentSection = none ∧
          (packetizer.getNextPacket target provider state).finished = []) ∨
        ((packetizer.getNextPacket target provider state).found = true ∧
          ∃ offset stuffing, Layout target provider packetizer state
            (packetizer.getNextPacket target provider state) offset stuffing)) := by
  obtain ⟨current, counter, hacquired, hsource⟩ := acquire_spec provider state hready
  have hrequests : ∃ given exhausted, Requests provider (fun _ ↦ True)
      (packetizer.packetCount + 1) packetizer.sectionInCount state given exhausted counter
      (packetizer.acquire provider state).2 ∧
        packetizer.currentSection.toList ++ given = current.toList ∧
        (current ≠ none → exhausted = false) := by
    rcases hsource with ⟨hsame, rfl, hstate, -⟩ | ⟨asked, rfl, hnone, rfl, hgiven⟩
    · rw [hstate, hsame]
      exact ⟨[], false, Requests.nil _ _, List.append_nil _, fun _ ↦ rfl⟩
    · obtain ⟨rfl, hstate⟩ := Prod.mk.inj hgiven
      rw [hstate, hnone]
      refine ⟨_, _, (Requests.nil _ _).sect rfl trivial, rfl, fun hsome ↦ ?_⟩
      exact Option.isNone_eq_false_iff.mpr (Option.isSome_iff_ne_none.mpr hsome)
  have hunchanged : packetizer.nextByte ≠ 0 → (packetizer.acquire provider state).2 = state := by
    intro hbyte
    rcases hsource with ⟨-, -, hstate, -⟩ | ⟨-, -, hnone, -⟩
    · exact hstate
    · exact absurd (hready.nextByte_eq hnone) hbyte
  have hfirst : packetizer.currentSection = current ∨ packetizer.currentSection = none := by
    rcases hsource with ⟨hsame, -⟩ | ⟨-, -, hnone, -⟩
    · exact Or.inl hsame
    · exact Or.inr hnone
  obtain ⟨given, exhausted, hgiven, hsections, hnotExhausted⟩ := hrequests
  unfold getNextPacket
  dsimp only
  generalize packetizer.acquire provider state = acquired at hacquired hgiven hunchanged ⊢
  obtain ⟨acquired, acquiredState⟩ := acquired
  simp only at hacquired hgiven hunchanged ⊢
  subst hacquired
  dsimp only
  cases current with
  | none =>
    have hnone : packetizer.currentSection = none := by
      rcases hfirst with h | h
      · exact h
      · exact h
    refine ⟨⟨⟨given, exhausted, hgiven, ?_⟩, by simp [inserted, hnone], by simp, rfl,
      fun pointer hpointer ↦ by simp at hpointer, fun _ ↦ hready.nextByte_eq hnone,
      hready.continuity_lt⟩, rfl, Or.inl ⟨rfl, rfl, rfl⟩⟩
    rw [hsections]
    rfl
  | some pointer =>
    obtain rfl : exhausted = false := hnotExhausted (by simp)
    obtain ⟨hacquired, hinserted⟩ := acquired_ready hready hfirst counter
    obtain ⟨⟨⟨later, last, hlater, hlaterSections⟩, hbytes, hout, hpid, hreadyAfter⟩, hcount,
      offset, stuffing, hlayout⟩ := fillPacket_spec provider acquiredState hacquired rfl
    rw [hinserted] at hbytes
    refine ⟨⟨⟨given ++ later, last, ?_, ?_⟩, hbytes, hout, hpid, hreadyAfter⟩, hcount,
      Or.inr ⟨rfl, offset, stuffing, hlayout.bytes, hlayout.size, hlayout.data_ne,
        hlayout.continuity_eq, hlayout.pointer_none, fun value hvalue ↦ ?_, hlayout.stuffed⟩⟩
    · rw [hcount] at hlater ⊢
      exact hgiven.trans hlater
    · rw [← List.append_assoc, hsections]
      exact hlaterSections
    · rcases hlayout.pointer_some value hvalue with
        hzero | ⟨hbyte, hpositive, hsmall, hunstuffed, hend⟩
      · exact Or.inl hzero
      · rw [hunchanged hbyte] at hunstuffed
        refine Or.inr ⟨hbyte, hpositive, hsmall, hunstuffed, fun current hother ↦ ?_⟩
        rcases hfirst with hsame | hnone
        · obtain rfl : pointer = current := Option.some.inj (hsame.symm.trans hother)
          exact hend pointer rfl
        · rw [hnone] at hother
          simp at hother

end Packetizer

end TSDuck
