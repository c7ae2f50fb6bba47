import TSDuck.Library.Records
import TSDuck.Scte35.SpliceInsert

/-!
# Splice schedule commands

A `SpliceSchedule` is a list of splice events which are announced with their UTC times.

The command is read back from its bytes, in front of any other data (`deserialize_serialize`).

Scope. The code reads the identifier of an event and its first flag without a check of the remaining
size; here there is no command when they are not in the data.
-/

namespace TSDuck

structure SpliceEvent where
  eventId : UInt32
  canceled : Bool
  spliceOut : Bool
  programSplice : Bool
  useDuration : Bool
  programUtc : UInt32
  componentsUtc : SortedMap (Fin 256) UInt32
  durationPts : UInt64
  autoReturn : Bool
  programId : UInt16
  availNum : UInt8
  availsExpected : UInt8
  deriving DecidableEq

namespace SpliceEvent

def initial : SpliceEvent :=
  { eventId := 0, canceled := false, spliceOut := false, programSplice := false, useDuration := false,
    programUtc := 0, componentsUtc := .empty, durationPts := 0, autoReturn := false, programId := 0,
    availNum := 0, availsExpected := 0 }

/-- The other fields have their initial values. -/
def significant (event : SpliceEvent) : SpliceEvent :=
  if event.canceled then { initial with eventId := event.eventId, canceled := true }
  else
    { event with
      programUtc := if event.programSplice then event.programUtc else initial.programUtc
      componentsUtc := if event.programSplice then .empty else event.componentsUtc
      durationPts := if event.useDuration then event.durationPts else initial.durationPts
      autoReturn := if event.useDuration then event.autoReturn else initial.autoReturn }

def deserializeComponent (data : ByteBlock) : Option ((Fin 256 × UInt32) × ByteBlock) :=
  if data.length < 5 then none
  else some (((byteAt data 0).toFin, UInt32.ofNat (getUInt32 data 1)), data.drop 5)

def deserializeTimes (event : SpliceEvent) (data : ByteBlock) : Option (SpliceEvent × ByteBlock) :=
  if event.programSplice then
    if data.length < 4 then none
    else some ({ event with programUtc := UInt32.ofNat (getUInt32 data 0) }, data.drop 4)
  else if data.length < 1 then none
  else
    (readCounted deserializeComponent (byteAt data 0).toNat (data.drop 1)).map fun read ↦
      ({ event with
        componentsUtc := read.1.foldl (fun loaded entry ↦
          loaded.update entry.1 fun previous ↦ previous.getD entry.2) event.componentsUtc }, read.2)

def deserializeDuration (event : SpliceEvent) (data : ByteBlock) : Option (SpliceEvent × ByteBlock) :=
  if event.useDuration then
    if data.length < 5 then none
    else
      some ({ event with autoReturn := byteAt data 0 &&& 0x80 != 0, durationPts := getPts data },
        data.drop 5)
  else some (event, data)

def deserializeProgram (event : SpliceEvent) (data : ByteBlock) : Option (SpliceEvent × ByteBlock) :=
  if data.length < 4 then none
  else
    some ({ event with
      programId := UInt16.ofNat (getUInt16 data 0)
      availNum := byteAt data 2
      availsExpected := byteAt data 3 }, data.drop 4)

def deserialize (data : ByteBlock) : Option (SpliceEvent × ByteBlock) :=
  if data.length < 5 then none
  else
    let started := { initial with
      eventId := UInt32.ofNat (getUInt32 data 0)
      canceled := byteAt data 4 &&& 0x80 != 0 }
    if started.canceled then some (started, data.drop 5)
    else if data.length < 6 then none
    else
      let flagged := { started with
        spliceOut := byteAt data 5 &&& 0x80 != 0
        programSplice := byteAt data 5 &&& 0x40 != 0
        useDuration := byteAt data 5 &&& 0x20 != 0 }
      ((flagged.deserializeTimes (data.drop 6)).bind fun timed ↦
        timed.1.deserializeDuration timed.2).bind fun read ↦
          read.1.deserializeProgram read.2

def flags (event : SpliceEvent) : UInt8 :=
  (if event.spliceOut then 0x80 else 0x00) ||| (if event.programSplice then 0x40 else 0x00) |||
    (if event.useDuration then 0x20 else 0x00) ||| 0x1F

def serializeComponent (component : Fin 256 × UInt32) : ByteBlock :=
  UInt8.ofFin component.1 :: putUInt32 component.2.toNat

def serializeTimes (event : SpliceEvent) : ByteBlock :=
  if event.programSplice then putUInt32 event.programUtc.toNat
  else
    UInt8.ofNat event.componentsUtc.entries.length ::
      event.componentsUtc.entries.flatMap serializeComponent

def serializeDuration (event : SpliceEvent) : ByteBlock :=
  if event.useDuration then putPts (if event.autoReturn then 0xFE else 0x7E) event.durationPts
  else []

def serialize (event : SpliceEvent) : ByteBlock :=
  putUInt32 event.eventId.toNat ++ [if event.canceled then 0xFF else 0x7F] ++
    if event.canceled then []
    else
      [event.flags] ++ event.serializeTimes ++ event.serializeDuration ++
        (putUInt16 event.programId.toNat ++ [event.availNum, event.availsExpected])

/-- At most 255 components and a duration of 33 bits. -/
structure IsRegular (event : SpliceEvent) : Prop where
  components : event.programSplice = false → event.componentsUtc.entries.length ≤ 255
  durationPts : event.useDuration = true → event.durationPts.toNat ≤ ptsDtsMask

/-- It is cancelled, or its fields are regular. -/
def IsValid (event : SpliceEvent) : Prop :=
  event.canceled = false → event.IsRegular

/-! ### The round trip of an event -/

theorem deserializeComponent_append (component : Fin 256 × UInt32) (rest : ByteBlock) :
    deserializeComponent (serializeComponent component ++ rest) = some (component, rest) := by
  have hlength : (serializeComponent component ++ rest).length = rest.length + 5 := rfl
  have hutc : UInt32.ofNat (getUInt32 (serializeComponent component ++ rest) 1) = component.2 :=
    ofNat_getUInt32_putUInt32 component.2 rest
  unfold deserializeComponent
  rw [hutc, hlength, if_neg (by omega)]
  rfl

theorem deserializeTimes_serializeTimes {event started : SpliceEvent} (hregular : event.IsRegular)
    (hprogram : started.programSplice = event.programSplice)
    (hcomponents : started.componentsUtc = .empty) (rest : ByteBlock) :
    started.deserializeTimes (event.serializeTimes ++ rest) = some ({ started with
        programUtc := if event.programSplice then event.programUtc else started.programUtc
        componentsUtc := if event.programSplice then .empty else event.componentsUtc }, rest) := by
  obtain ⟨_, _, _, programSplice, _, _, components, _, _, _, _, _⟩ := started
  obtain rfl : programSplice = event.programSplice := hprogram
  obtain rfl : components = .empty := hcomponents
  unfold deserializeTimes serializeTimes
  dsimp only
  cases hsplice : event.programSplice with
  | true =>
    have hlength : (putUInt32 event.programUtc.toNat ++ rest).length = rest.length + 4 := rfl
    simp only [if_true]
    rw [ofNat_getUInt32_putUInt32, hlength, if_neg (by omega)]
    rfl
  | false =>
    have hbyte : (UInt8.ofNat event.componentsUtc.entries.length).toNat =
        event.componentsUtc.entries.length := by
      rw [UInt8.toNat_ofNat']
      exact Nat.mod_eq_of_lt (Nat.lt_succ_of_le (hregular.components hsplice))
    have hread := readCounted_flatMap
      (fun component (_ : component ∈ event.componentsUtc.entries) more ↦
        deserializeComponent_append component more) rest
    rw [List.map_id'] at hread
    have hload := SortedMap.foldl_update_mapValues id (fun entry previous ↦ previous.getD entry.2)
      (fun _ ↦ rfl) event.componentsUtc
    simp only [Bool.false_eq_true, if_false, List.cons_append, List.length_cons,
      List.drop_succ_cons, List.drop_zero]
    rw [if_neg (by omega)]
    show (readCounted _ (UInt8.ofNat event.componentsUtc.entries.length).toNat _).map _ = _
    rw [SortedMap.mapValues_id] at hload
    rw [hbyte, hread, Option.map_some]
    dsimp only
    rw [hload]

theorem deserializeDuration_serializeDuration {event started : SpliceEvent}
    (hregular : event.IsRegular) (hflag : started.useDuration = event.useDuration)
    (rest : ByteBlock) :
    started.deserializeDuration (event.serializeDuration ++ rest) = some ({ started with
        durationPts := if event.useDuration then event.durationPts else started.durationPts
        autoReturn := if event.useDuration then event.autoReturn else started.autoReturn },
        rest) := by
  obtain ⟨_, _, _, _, useDuration, _, _, _, _, _, _, _⟩ := started
  obtain rfl : useDuration = event.useDuration := hflag
  unfold deserializeDuration serializeDuration
  dsimp only
  cases hduration : event.useDuration with
  | false => simp only [Bool.false_eq_true, if_false, List.nil_append]
  | true =>
    obtain ⟨hread, hbit⟩ :=
      getPts_duration event.autoReturn (hregular.durationPts hduration) rest
    simp only [if_true, List.length_append, length_putPts]
    rw [if_neg (by omega), hread, hbit]
    rfl

theorem deserializeProgram_append (event started : SpliceEvent) (rest : ByteBlock) :
    started.deserializeProgram (putUInt16 event.programId.toNat ++
        [event.availNum, event.availsExpected] ++ rest) =
      some ({ started with
        programId := event.programId
        availNum := event.availNum
        availsExpected := event.availsExpected }, rest) := by
  have hid : UInt16.ofNat (getUInt16 (putUInt16 event.programId.toNat ++
      ([event.availNum, event.availsExpected] ++ rest)) 0) = event.programId := by
    rw [getUInt16_putUInt16_append event.programId.toNat_lt]
    exact UInt16.ofNat_toNat
  unfold deserializeProgram
  rw [List.append_assoc, hid, if_neg (by simp [putUInt16])]
  rfl

theorem flags_bits (event : SpliceEvent) :
    (event.flags &&& 0x80 != 0) = event.spliceOut ∧
      (event.flags &&& 0x40 != 0) = event.programSplice ∧
        (event.flags &&& 0x20 != 0) = event.useDuration := by
  unfold flags
  cases event.spliceOut <;> cases event.programSplice <;> cases event.useDuration <;> decide

theorem deserialize_serialize {event : SpliceEvent} (hvalid : event.IsValid) (rest : ByteBlock) :
    deserialize (event.serialize ++ rest) = some (event.significant, rest) := by
  have hbit : ∀ more : ByteBlock, (byteAt (putUInt32 event.eventId.toNat ++
      (if event.canceled then 0xFF else 0x7F) :: more) 4 &&& 0x80 != 0) = event.canceled := by
    intro more
    show ((if event.canceled then (0xFF : UInt8) else 0x7F) &&& 0x80 != 0) = event.canceled
    cases event.canceled <;> decide
  have hlength : ∀ (first : UInt8) (more : ByteBlock),
      (putUInt32 event.eventId.toNat ++ first :: more).length = more.length + 5 := fun _ _ ↦ rfl
  have hdrop : ∀ (first : UInt8) (more : ByteBlock),
      (putUInt32 event.eventId.toNat ++ first :: more).drop 5 = more := fun _ _ ↦ rfl
  unfold deserialize serialize significant
  rw [List.append_assoc, List.append_assoc, List.singleton_append]
  dsimp only
  rw [ofNat_getUInt32_putUInt32, hbit, hlength, hdrop, if_neg (by omega)]
  cases hcanceled : event.canceled with
  | true => rfl
  | false =>
    have hregular := hvalid hcanceled
    obtain ⟨hout, hprogram, hduration⟩ := event.flags_bits
    obtain ⟨program, hend⟩ : ∃ program, program = putUInt16 event.programId.toNat ++
        [event.availNum, event.availsExpected] := ⟨_, rfl⟩
    have hassoc : [event.flags] ++ event.serializeTimes ++ event.serializeDuration ++ program ++
        rest = event.flags :: (event.serializeTimes ++
          (event.serializeDuration ++ (program ++ rest))) := by
      simp only [List.append_assoc, List.cons_append, List.nil_append]
    have hflags : ∀ more : ByteBlock, byteAt (putUInt32 event.eventId.toNat ++
        0x7F :: event.flags :: more) 5 = event.flags := fun _ ↦ rfl
    have hfields : ∀ more : ByteBlock, (putUInt32 event.eventId.toNat ++
        0x7F :: event.flags :: more).drop 6 = more := fun _ ↦ rfl
    simp only [Bool.false_eq_true, if_false]
    rw [if_neg (by simp), ← hend, hassoc, hflags, hfields, hout, hprogram, hduration,
      deserializeTimes_serializeTimes hregular, Option.bind_some,
      deserializeDuration_serializeDuration hregular, Option.bind_some, hend,
      deserializeProgram_append]
    all_goals rfl

end SpliceEvent

abbrev SpliceSchedule := List SpliceEvent

namespace SpliceSchedule

def significant (schedule : SpliceSchedule) : SpliceSchedule :=
  schedule.map SpliceEvent.significant

def deserialize (data : ByteBlock) : Option (SpliceSchedule × ByteBlock) :=
  if data.length < 1 then none
  else readCounted SpliceEvent.deserialize (byteAt data 0).toNat (data.drop 1)

def serialize (schedule : SpliceSchedule) : ByteBlock :=
  UInt8.ofNat schedule.length :: schedule.flatMap SpliceEvent.serialize

/-- A command is valid: it has at most 255 events, which are valid. -/
structure IsValid (schedule : SpliceSchedule) : Prop where
  count : schedule.length ≤ 255
  events : ∀ event ∈ schedule, event.IsValid

theorem deserialize_serialize {schedule : SpliceSchedule} (hvalid : IsValid schedule)
    (rest : ByteBlock) :
    deserialize (serialize schedule ++ rest) = some (significant schedule, rest) := by
  have hbyte : (UInt8.ofNat schedule.length).toNat = schedule.length := by
    rw [UInt8.toNat_ofNat']
    exact Nat.mod_eq_of_lt (Nat.lt_succ_of_le hvalid.count)
  unfold deserialize serialize
  rw [List.cons_append, List.length_cons, if_neg (by omega)]
  show readCounted SpliceEvent.deserialize (UInt8.ofNat schedule.length).toNat _ = _
  rw [hbyte]
  exact readCounted_flatMap
    (fun event hevent more ↦ SpliceEvent.deserialize_serialize (hvalid.events event hevent) more) rest

end SpliceSchedule

end TSDuck
