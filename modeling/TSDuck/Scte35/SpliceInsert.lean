import TSDuck.Library.SortedMap
import TSDuck.Mpeg.BitFields
import Mathlib.Data.UInt

/-!
# Splice insert commands

A `SpliceInsert` announces a splice event: when the program, or each of its components, leaves or
comes back to the network.

The command is read back from its bytes, in front of any other data (`deserialize_serialize`).
-/

namespace TSDuck

def ptsDtsMask : ℕ := 0x1FFFFFFFF

def invalidPts : UInt64 := 0xFFFFFFFFFFFFFFFF

def getPts (data : ByteBlock) : UInt64 :=
  UInt64.ofNat (((byteAt data 0 &&& 0x01).toNat <<< 32) ||| getUInt32 data 1)

def putPts (high : UInt8) (pts : UInt64) : ByteBlock :=
  (high ||| UInt8.ofNat (pts.toNat >>> 32)) :: putUInt32 pts.toNat

@[simp] theorem length_putPts (high : UInt8) (pts : UInt64) : (putPts high pts).length = 5 :=
  rfl

theorem getPts_cons {first : UInt8} {pts : UInt64}
    (hfirst : (first &&& 0x01).toNat = pts.toNat >>> 32) (rest : ByteBlock) :
    getPts (first :: (putUInt32 pts.toNat ++ rest)) = pts := by
  have hvalue : ((pts.toNat >>> 32) <<< 32 ||| pts.toNat % 2 ^ 32) = pts.toNat := by
    rw [← Nat.shiftLeft_add_eq_or_of_lt (Nat.mod_lt _ (by decide)), Nat.shiftLeft_eq,
      Nat.shiftRight_eq_div_pow]
    omega
  have hbit : byteAt (first :: (putUInt32 pts.toNat ++ rest)) 0 = first := rfl
  have hlow : getUInt32 (first :: (putUInt32 pts.toNat ++ rest)) 1 = pts.toNat % 2 ^ 32 :=
    getUInt32_putUInt32 pts.toNat rest
  rw [getPts, hbit, hfirst, hlow, hvalue]
  exact UInt64.ofNat_toNat

theorem shiftRight_pts {pts : UInt64} (hpts : pts.toNat ≤ ptsDtsMask) :
    pts.toNat >>> 32 = 0 ∨ pts.toNat >>> 32 = 1 := by
  rw [Nat.shiftRight_eq_div_pow]
  unfold ptsDtsMask at hpts
  omega

theorem getPts_putPts {high : UInt8} (hhigh : high = 0xFE ∨ high = 0x7E) {pts : UInt64}
    (hpts : pts.toNat ≤ ptsDtsMask) (rest : ByteBlock) :
    getPts (putPts high pts ++ rest) = pts ∧
      (byteAt (putPts high pts ++ rest) 0 &&& 0x80 != 0) = (high == 0xFE) := by
  have hfirst : ((high ||| UInt8.ofNat (pts.toNat >>> 32)) &&& 0x01).toNat = pts.toNat >>> 32 ∧
      ((high ||| UInt8.ofNat (pts.toNat >>> 32)) &&& 0x80 != 0) = (high == 0xFE) := by
    rcases shiftRight_pts hpts with hbit | hbit
    · rw [hbit]
      rcases hhigh with rfl | rfl <;> decide
    · rw [hbit]
      rcases hhigh with rfl | rfl <;> decide
  exact ⟨getPts_cons hfirst.1 rest, hfirst.2⟩

theorem getPts_duration (autoReturn : Bool) {duration : UInt64}
    (hduration : duration.toNat ≤ ptsDtsMask) (rest : ByteBlock) :
    getPts (putPts (if autoReturn then 0xFE else 0x7E) duration ++ rest) = duration ∧
      (byteAt (putPts (if autoReturn then 0xFE else 0x7E) duration ++ rest) 0 &&& 0x80 != 0) =
        autoReturn := by
  cases autoReturn with
  | true => exact getPts_putPts (Or.inl rfl) hduration rest
  | false => exact getPts_putPts (Or.inr rfl) hduration rest

abbrev SpliceTime := Option UInt64

namespace SpliceTime

def deserialize (data : ByteBlock) : Option (SpliceTime × ByteBlock) :=
  if data.length < 1 then none
  else if byteAt data 0 &&& 0x80 == 0 then some (none, data.drop 1)
  else if data.length < 5 then none
  else some (some (getPts data), data.drop 5)

def serialize : SpliceTime → ByteBlock
  | some pts => putPts 0xFE pts
  | none => [0x7F]

/-- The PTS value has 33 bits, if it is set. -/
def IsPts (time : SpliceTime) : Prop :=
  ∀ pts ∈ time, pts.toNat ≤ ptsDtsMask

instance (time : SpliceTime) : Decidable time.IsPts :=
  match time with
  | none => .isTrue nofun
  | some pts => decidable_of_iff (pts.toNat ≤ ptsDtsMask)
      ⟨fun hpts _ hmem ↦ Option.some.inj hmem ▸ hpts, fun hpts ↦ hpts pts rfl⟩

theorem deserialize_serialize {time : SpliceTime} (hpts : time.IsPts) (rest : ByteBlock) :
    deserialize (serialize time ++ rest) = some (time, rest) := by
  cases time with
  | none =>
    have hunset : (byteAt ([0x7F] ++ rest) 0 &&& 0x80 == 0) = true := by
      show ((0x7F : UInt8) &&& 0x80 == 0) = true
      decide
    unfold deserialize serialize
    dsimp only
    rw [List.length_append, if_neg (by simp), if_pos hunset]
    rfl
  | some pts =>
    obtain ⟨hread, hbit⟩ := getPts_putPts (Or.inl rfl) (hpts pts rfl) rest
    have hset : (byteAt (putPts 0xFE pts ++ rest) 0 &&& 0x80 == 0) = false := by
      rw [← Bool.not_eq_true', ← bne, hbit]
      rfl
    unfold deserialize serialize
    rw [hset, hread, List.length_append, length_putPts, if_neg (by omega), if_neg (by simp),
      if_neg (by omega)]
    rfl

end SpliceTime

/-! ### Commands -/

structure SpliceInsert where
  eventId : UInt32
  canceled : Bool
  spliceOut : Bool
  immediate : Bool
  programSplice : Bool
  useDuration : Bool
  programPts : SpliceTime
  componentsPts : SortedMap (Fin 256) SpliceTime
  durationPts : UInt64
  autoReturn : Bool
  programId : UInt16
  availNum : UInt8
  availsExpected : UInt8
  deriving DecidableEq

namespace SpliceInsert

def cleared : SpliceInsert :=
  { eventId := 0, canceled := true, spliceOut := false, immediate := false, programSplice := false,
    useDuration := false, programPts := some invalidPts, componentsPts := .empty,
    durationPts := invalidPts, autoReturn := false, programId := 0, availNum := 0,
    availsExpected := 0 }

def hasProgramPts (insert : SpliceInsert) : Bool :=
  insert.programSplice && !insert.immediate

/-- The other fields have their initial values. -/
def significant (insert : SpliceInsert) : SpliceInsert :=
  if insert.canceled then { cleared with eventId := insert.eventId }
  else
    { insert with
      programPts := if insert.hasProgramPts then insert.programPts else cleared.programPts
      componentsPts :=
        if insert.programSplice then .empty
        else insert.componentsPts.mapValues fun pts ↦ if insert.immediate then none else pts
      durationPts := if insert.useDuration then insert.durationPts else cleared.durationPts
      autoReturn := if insert.useDuration then insert.autoReturn else cleared.autoReturn }

/-- The times of the components, keeping the first ones. -/
def deserializeComponents (immediate : Bool) :
    ℕ → SortedMap (Fin 256) SpliceTime → ByteBlock → Option (SortedMap (Fin 256) SpliceTime × ByteBlock)
  | 0, components, data => some (components, data)
  | count + 1, components, data =>
    if data.length < 1 then none
    else
      match if immediate then some (none, data.drop 1) else SpliceTime.deserialize (data.drop 1) with
      | none => none
      | some (pts, rest) =>
        deserializeComponents immediate count
          (components.update (byteAt data 0).toFin fun previous ↦ previous.getD pts) rest

def deserializeTimes (insert : SpliceInsert) (data : ByteBlock) : Option (SpliceInsert × ByteBlock) :=
  if insert.programSplice then
    if insert.immediate then some (insert, data)
    else (SpliceTime.deserialize data).map fun read ↦ ({ insert with programPts := read.1 }, read.2)
  else if data.length < 1 then none
  else
    (deserializeComponents insert.immediate (byteAt data 0).toNat insert.componentsPts
      (data.drop 1)).map fun read ↦ ({ insert with componentsPts := read.1 }, read.2)

def deserializeDuration (insert : SpliceInsert) (data : ByteBlock) :
    Option (SpliceInsert × ByteBlock) :=
  if insert.useDuration then
    if data.length < 5 then none
    else
      some ({ insert with autoReturn := byteAt data 0 &&& 0x80 != 0, durationPts := getPts data },
        data.drop 5)
  else some (insert, data)

def deserializeProgram (insert : SpliceInsert) (data : ByteBlock) :
    Option (SpliceInsert × ByteBlock) :=
  if data.length < 4 then none
  else
    some ({ insert with
      programId := UInt16.ofNat (getUInt16 data 0)
      availNum := byteAt data 2
      availsExpected := byteAt data 3 }, data.drop 4)

def deserialize (data : ByteBlock) : Option (SpliceInsert × ByteBlock) :=
  if data.length < 5 then none
  else
    let started := { cleared with
      eventId := UInt32.ofNat (getUInt32 data 0)
      canceled := byteAt data 4 &&& 0x80 != 0 }
    if started.canceled then some (started, data.drop 5)
    else if data.length < 6 then none
    else
      let flagged := { started with
        spliceOut := byteAt data 5 &&& 0x80 != 0
        programSplice := byteAt data 5 &&& 0x40 != 0
        useDuration := byteAt data 5 &&& 0x20 != 0
        immediate := byteAt data 5 &&& 0x10 != 0 }
      ((flagged.deserializeTimes (data.drop 6)).bind fun timed ↦
        timed.1.deserializeDuration timed.2).bind fun read ↦
          read.1.deserializeProgram read.2

def flags (insert : SpliceInsert) : UInt8 :=
  (if insert.spliceOut then 0x80 else 0x00) ||| (if insert.programSplice then 0x40 else 0x00) |||
    (if insert.useDuration then 0x20 else 0x00) ||| (if insert.immediate then 0x10 else 0x00) ||| 0x0F

def serializeComponent (immediate : Bool) (component : Fin 256 × SpliceTime) : ByteBlock :=
  UInt8.ofFin component.1 :: if immediate then [] else component.2.serialize

def serializeTimes (insert : SpliceInsert) : ByteBlock :=
  if insert.programSplice then if insert.immediate then [] else insert.programPts.serialize
  else
    UInt8.ofNat insert.componentsPts.entries.length ::
      insert.componentsPts.entries.flatMap (serializeComponent insert.immediate)

def serializeDuration (insert : SpliceInsert) : ByteBlock :=
  if insert.useDuration then putPts (if insert.autoReturn then 0xFE else 0x7E) insert.durationPts
  else []

def serialize (insert : SpliceInsert) : ByteBlock :=
  putUInt32 insert.eventId.toNat ++ [if insert.canceled then 0xFF else 0x7F] ++
    if insert.canceled then []
    else
      [insert.flags] ++ insert.serializeTimes ++ insert.serializeDuration ++
        (putUInt16 insert.programId.toNat ++ [insert.availNum, insert.availsExpected])

/-! ### The round trip of a command -/

/-- The times have 33 bits, with at most 255 components. -/
structure HasRegularTimes (insert : SpliceInsert) : Prop where
  programPts : insert.hasProgramPts = true → insert.programPts.IsPts
  components : insert.programSplice = false → insert.componentsPts.entries.length ≤ 255
  componentsPts : insert.programSplice = false → insert.immediate = false →
    ∀ entry ∈ insert.componentsPts.entries, entry.2.IsPts

/-- The significant fields fit in the binary syntax. -/
structure IsRegular (insert : SpliceInsert) : Prop extends insert.HasRegularTimes where
  durationPts : insert.useDuration = true → insert.durationPts.toNat ≤ ptsDtsMask

/-- It is cancelled, or its fields are regular. -/
def IsValid (insert : SpliceInsert) : Prop :=
  insert.canceled = false → insert.IsRegular

/-- Components with PTS values of 33 bits are read back from their bytes. -/
theorem deserializeComponents_flatMap {immediate : Bool} {entries : List (Fin 256 × SpliceTime)}
    (hpts : immediate = false → ∀ entry ∈ entries, entry.2.IsPts)
    (components : SortedMap (Fin 256) SpliceTime) (rest : ByteBlock) :
    deserializeComponents immediate entries.length components
        (entries.flatMap (serializeComponent immediate) ++ rest) =
      some (entries.foldl (fun loaded entry ↦ loaded.update entry.1 fun previous ↦
        previous.getD (if immediate then none else entry.2)) components, rest) := by
  induction entries generalizing components with
  | nil => rfl
  | cons entry entries ih =>
    have hrest := ih (fun himmediate other hother ↦
      hpts himmediate other (List.mem_cons_of_mem _ hother))
    have hsplit : (entry :: entries).flatMap (serializeComponent immediate) ++ rest =
        UInt8.ofFin entry.1 :: ((if immediate then [] else entry.2.serialize) ++
          (entries.flatMap (serializeComponent immediate) ++ rest)) := by
      rw [List.flatMap_cons, serializeComponent, List.append_assoc, List.cons_append]
    rw [hsplit, List.length_cons, deserializeComponents, if_neg (by simp)]
    cases immediate with
    | true => exact hrest _
    | false =>
      have hread := SpliceTime.deserialize_serialize (hpts rfl entry List.mem_cons_self)
        (entries.flatMap (serializeComponent false) ++ rest)
      simp only [Bool.false_eq_true, if_false, List.drop_succ_cons, List.drop_zero, hread]
      exact hrest _

/-- Regular times are read back. -/
theorem deserializeTimes_serializeTimes {insert started : SpliceInsert} (hregular : insert.IsRegular)
    (hprogram : started.programSplice = insert.programSplice)
    (himmediate : started.immediate = insert.immediate)
    (hcomponents : started.componentsPts = .empty) (rest : ByteBlock) :
    started.deserializeTimes (insert.serializeTimes ++ rest) = some ({ started with
        programPts := if insert.hasProgramPts then insert.programPts else started.programPts
        componentsPts :=
          if insert.programSplice then .empty
          else insert.componentsPts.mapValues fun pts ↦ if insert.immediate then none else pts },
        rest) := by
  obtain ⟨_, _, _, immediate, programSplice, _, _, components, _, _, _, _, _⟩ := started
  obtain rfl : programSplice = insert.programSplice := hprogram
  obtain rfl : immediate = insert.immediate := himmediate
  obtain rfl : components = .empty := hcomponents
  unfold deserializeTimes serializeTimes hasProgramPts
  dsimp only
  cases hsplice : insert.programSplice with
  | true =>
    cases hsoon : insert.immediate with
    | true =>
      simp only [if_true, Bool.not_true, Bool.and_false, Bool.false_eq_true, if_false,
        List.nil_append]
    | false =>
      have hpts := hregular.programPts (by rw [hasProgramPts, hsplice, hsoon]; rfl)
      simp only [if_true, Bool.not_false, Bool.and_true, Bool.false_eq_true, if_false,
        SpliceTime.deserialize_serialize hpts, Option.map_some]
  | false =>
    have hcount := hregular.components hsplice
    have hread := deserializeComponents_flatMap (hregular.componentsPts hsplice) .empty rest
    have hload := SortedMap.foldl_update_mapValues
      (fun pts : SpliceTime ↦ if insert.immediate then none else pts)
      (fun entry previous ↦ previous.getD (if insert.immediate then none else entry.2))
      (fun _ ↦ rfl) insert.componentsPts
    rw [hload] at hread
    have hbyte : (UInt8.ofNat insert.componentsPts.entries.length).toNat =
        insert.componentsPts.entries.length := by
      rw [UInt8.toNat_ofNat']
      exact Nat.mod_eq_of_lt (Nat.lt_succ_of_le hcount)
    simp only [Bool.false_eq_true, if_false, Bool.false_and, List.cons_append, List.length_cons,
      List.drop_succ_cons, List.drop_zero]
    rw [if_neg (by omega)]
    show (deserializeComponents _ (UInt8.ofNat insert.componentsPts.entries.length).toNat _ _).map _
      = _
    rw [hbyte, hread]
    rfl

theorem deserializeDuration_serializeDuration {insert started : SpliceInsert}
    (hregular : insert.IsRegular) (hflag : started.useDuration = insert.useDuration)
    (rest : ByteBlock) :
    started.deserializeDuration (insert.serializeDuration ++ rest) = some ({ started with
        durationPts := if insert.useDuration then insert.durationPts else started.durationPts
        autoReturn := if insert.useDuration then insert.autoReturn else started.autoReturn },
        rest) := by
  obtain ⟨_, _, _, _, _, useDuration, _, _, _, _, _, _, _⟩ := started
  obtain rfl : useDuration = insert.useDuration := hflag
  unfold deserializeDuration serializeDuration
  dsimp only
  cases hduration : insert.useDuration with
  | false => simp only [Bool.false_eq_true, if_false, List.nil_append]
  | true =>
    obtain ⟨hread, hbit⟩ :=
      getPts_duration insert.autoReturn (hregular.durationPts hduration) rest
    simp only [if_true, List.length_append, length_putPts]
    rw [if_neg (by omega), hread, hbit]
    rfl

theorem deserializeProgram_append (insert started : SpliceInsert) (rest : ByteBlock) :
    started.deserializeProgram (putUInt16 insert.programId.toNat ++
        [insert.availNum, insert.availsExpected] ++ rest) =
      some ({ started with
        programId := insert.programId
        availNum := insert.availNum
        availsExpected := insert.availsExpected }, rest) := by
  have hid : UInt16.ofNat (getUInt16 (putUInt16 insert.programId.toNat ++
      ([insert.availNum, insert.availsExpected] ++ rest)) 0) = insert.programId := by
    rw [getUInt16_putUInt16_append insert.programId.toNat_lt]
    exact UInt16.ofNat_toNat
  unfold deserializeProgram
  rw [List.append_assoc, hid, if_neg (by simp [putUInt16])]
  rfl

theorem flags_bits (insert : SpliceInsert) :
    (insert.flags &&& 0x80 != 0) = insert.spliceOut ∧
      (insert.flags &&& 0x40 != 0) = insert.programSplice ∧
        (insert.flags &&& 0x20 != 0) = insert.useDuration ∧
          (insert.flags &&& 0x10 != 0) = insert.immediate := by
  unfold flags
  cases insert.spliceOut <;> cases insert.programSplice <;> cases insert.useDuration <;>
    cases insert.immediate <;> decide

theorem deserialize_serialize {insert : SpliceInsert} (hvalid : insert.IsValid) (rest : ByteBlock) :
    deserialize (insert.serialize ++ rest) = some (insert.significant, rest) := by
  have hbit : ∀ more : ByteBlock, (byteAt (putUInt32 insert.eventId.toNat ++
      (if insert.canceled then 0xFF else 0x7F) :: more) 4 &&& 0x80 != 0) = insert.canceled := by
    intro more
    show ((if insert.canceled then (0xFF : UInt8) else 0x7F) &&& 0x80 != 0) = insert.canceled
    cases insert.canceled <;> decide
  have hlength : ∀ (first : UInt8) (more : ByteBlock),
      (putUInt32 insert.eventId.toNat ++ first :: more).length = more.length + 5 := by
    intro first more
    show more.length + 1 + 1 + 1 + 1 + 1 = _
    omega
  have hdrop : ∀ (first : UInt8) (more : ByteBlock),
      (putUInt32 insert.eventId.toNat ++ first :: more).drop 5 = more := fun _ _ ↦ rfl
  unfold deserialize serialize significant
  rw [List.append_assoc, List.append_assoc, List.singleton_append]
  dsimp only
  rw [ofNat_getUInt32_putUInt32, hbit, hlength, hdrop, if_neg (by omega)]
  cases hcanceled : insert.canceled with
  | true => rfl
  | false =>
    have hregular := hvalid hcanceled
    obtain ⟨hout, hprogram, hduration, himmediate⟩ := insert.flags_bits
    obtain ⟨program, hend⟩ : ∃ program, program = putUInt16 insert.programId.toNat ++
        [insert.availNum, insert.availsExpected] := ⟨_, rfl⟩
    have hassoc : [insert.flags] ++ insert.serializeTimes ++ insert.serializeDuration ++ program ++
        rest = insert.flags :: (insert.serializeTimes ++
          (insert.serializeDuration ++ (program ++ rest))) := by
      simp only [List.append_assoc, List.cons_append, List.nil_append]
    have hflags : ∀ more : ByteBlock, byteAt (putUInt32 insert.eventId.toNat ++
        0x7F :: insert.flags :: more) 5 = insert.flags := fun _ ↦ rfl
    have hfields : ∀ more : ByteBlock, (putUInt32 insert.eventId.toNat ++
        0x7F :: insert.flags :: more).drop 6 = more := fun _ ↦ rfl
    simp only [Bool.false_eq_true, if_false]
    rw [if_neg (by simp), ← hend, hassoc, hflags, hfields, hout, hprogram, hduration, himmediate,
      deserializeTimes_serializeTimes hregular, Option.bind_some,
      deserializeDuration_serializeDuration hregular, Option.bind_some, hend,
      deserializeProgram_append]
    all_goals rfl

end SpliceInsert

end TSDuck
