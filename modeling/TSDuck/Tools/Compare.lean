import TSDuck.Library.GreedyMatching
import TSDuck.Mpeg.PacketClocks

/-!
# Comparison of two files

The tool compares two files, packet by packet.

`isExact_iff` states when the status of the tool is the expected one.

Scope. The files are lists of packets. The reports are left out, with the positions of differences
inside the packets, and the counters do not reach 64 bits.
-/

namespace TSDuck

namespace TSCmp

/-- The options of the command line. -/
structure Options where
  subset : Bool
  thresholdDiff : ℕ
  payloadOnly : Bool
  pcrIgnore : Bool
  pidIgnore : Bool
  ccIgnore : Bool
  continueAll : Bool
  quiet : Bool

/-- The result of a comparison. -/
structure Comparator where
  equal : Bool
  diffCount : ℕ

def compareRegions (mem1 mem2 : ByteBlock) : Comparator :=
  let diffCount := (mem1.zip mem2).countP fun bytes ↦ bytes.1 != bytes.2
  { equal := diffCount == 0 && mem1.length == mem2.length
    diffCount := diffCount }

/-- Resets the ignored clocks, `none` without room. -/
def resetClocks (opt : Options) (pkt : TSPacket) : Option TSPacket :=
  if opt.pcrIgnore then
    match if pkt.hasPCR then pkt.setPCR 0 else some pkt with
    | none => none
    | some next => if next.hasOPCR then next.setOPCR 0 else some next
  else some pkt

def resetHeader (opt : Options) (pkt : TSPacket) : TSPacket :=
  let next := if opt.pidIgnore then pkt.setPID pidNull else pkt
  if opt.ccIgnore then next.setCC 0 else next

/-- Resets the ignored fields, `none` without room. -/
def resetFields (opt : Options) (pkt : TSPacket) : Option TSPacket :=
  (resetClocks opt pkt).map (resetHeader opt)

def compare (opt : Options) (pkt1 pkt2 : TSPacket) : Option Comparator :=
  if pkt1.getPID = pidNull ∨ pkt2.getPID = pidNull then
    some { compareRegions pkt1.bytes pkt2.bytes with
      equal := pkt1.getPID == pidNull && pkt2.getPID == pidNull }
  else if opt.payloadOnly then some (compareRegions pkt1.payload pkt2.payload)
  else if !opt.pcrIgnore && !opt.pidIgnore && !opt.ccIgnore then
    some (compareRegions pkt1.bytes pkt2.bytes)
  else
    match resetFields opt pkt1, resetFields opt pkt2 with
    | some p1, some p2 => some (compareRegions p1.bytes p2.bytes)
    | _, _ => none

/-- The number of differences, `none` on an exception. -/
def compareFiles (opt : Options) :
    List TSPacket → List TSPacket → Option TSPacket → ℕ → ℕ → Option ℕ
  | [], file2, pkt2, subsetSkipped, diffCount =>
    let read2 := if subsetSkipped = 0 then file2.head? else pkt2
    some (if read2.isSome then diffCount + 1 else diffCount)
  | pkt1 :: file1, file2, pkt2, subsetSkipped, diffCount =>
    match if subsetSkipped = 0 then (file2.head?, file2.tail) else (pkt2, file2) with
    | (none, _) => some (diffCount + 1)
    | (some pkt2, file2) =>
      match compare opt pkt1 pkt2 with
      | none => none
      | some comp =>
        if opt.subset && !comp.equal && comp.diffCount > opt.thresholdDiff then
          compareFiles opt file1 file2 (some pkt2) (subsetSkipped + 1) diffCount
        else if comp.equal then compareFiles opt file1 file2 (some pkt2) 0 diffCount
        else if opt.quiet || !opt.continueAll then some (diffCount + 1)
        else compareFiles opt file1 file2 (some pkt2) 0 (diffCount + 1)

def tscmp (opt : Options) (file1 file2 : List TSPacket) : Option Bool :=
  (compareFiles opt file1 file2 none 0 0).map fun diffCount ↦ diffCount == 0

/-- An offset is inside a clock reference. -/
def IsClock (offset start : ℕ) : Prop :=
  start ≠ 0 ∧ start ≤ offset ∧ offset < start + 6

instance (offset start : ℕ) : Decidable (IsClock offset start) :=
  inferInstanceAs (Decidable (start ≠ 0 ∧ start ≤ offset ∧ offset < start + 6))

def keptBits (opt : Options) (pkt : TSPacket) (offset : ℕ) : UInt8 :=
  if opt.pcrIgnore = true ∧ (IsClock offset pkt.pcrOffset ∨ IsClock offset pkt.opcrOffset) then 0
  else if opt.pidIgnore = true ∧ offset = 1 then 0xE0
  else if opt.pidIgnore = true ∧ offset = 2 then 0
  else if opt.ccIgnore = true ∧ offset = 3 then 0xF0
  else 0xFF

/-- Equal without the ignored fields, or both null packets. -/
def IsSame (opt : Options) (pkt1 pkt2 : TSPacket) : Prop :=
  if pkt1.getPID = pidNull ∨ pkt2.getPID = pidNull then
    pkt1.getPID = pidNull ∧ pkt2.getPID = pidNull
  else if opt.payloadOnly then pkt1.payload = pkt2.payload
  else ∀ offset < pktSize, byteAt pkt1.bytes offset &&& keptBits opt pkt1 offset =
    byteAt pkt2.bytes offset &&& keptBits opt pkt2 offset

instance (opt : Options) (pkt1 pkt2 : TSPacket) : Decidable (IsSame opt pkt1 pkt2) :=
  inferInstanceAs (Decidable (if pkt1.getPID = pidNull ∨ pkt2.getPID = pidNull then
      pkt1.getPID = pidNull ∧ pkt2.getPID = pidNull
    else if opt.payloadOnly then pkt1.payload = pkt2.payload
    else ∀ offset < pktSize, byteAt pkt1.bytes offset &&& keptBits opt pkt1 offset =
      byteAt pkt2.bytes offset &&& keptBits opt pkt2 offset))

/-- The same packets, or a subsequence. -/
def Matches (opt : Options) (file1 file2 : List TSPacket) : Prop :=
  if opt.subset then List.SublistForall₂ (fun pkt2 pkt1 ↦ IsSame opt pkt1 pkt2) file2 file1
  else List.Forall₂ (IsSame opt) file1 file2

/-- The tool gives a status, which is a success when the files match. -/
def IsExact (opt : Options) (file1 file2 : List TSPacket) : Prop :=
  ∃ status, tscmp opt file1 file2 = some status ∧ (status = true ↔ Matches opt file1 file2)

/-- The clock references which are announced have their room. -/
def HasRoom (pkt : TSPacket) : Prop :=
  (pkt.hasPCR = true → pkt.pcrOffset ≠ 0) ∧ (pkt.hasOPCR = true → pkt.opcrOffset ≠ 0)

/-- Two packets can be compared. -/
def IsComparable (opt : Options) (pkt1 pkt2 : TSPacket) : Prop :=
  pkt1.getPID = pidNull ∨ pkt2.getPID = pidNull ∨ opt.payloadOnly = true ∨
    opt.pcrIgnore = false ∨ HasRoom pkt1 ∧ HasRoom pkt2

/-- A payload is the start of the other one. -/
def IsTruncated (opt : Options) (pkt1 pkt2 : TSPacket) : Prop :=
  pkt1.getPID ≠ pidNull ∧ pkt2.getPID ≠ pidNull ∧ opt.payloadOnly = true ∧
    pkt1.payload ≠ pkt2.payload ∧ (pkt1.payload <+: pkt2.payload ∨ pkt2.payload <+: pkt1.payload)

instance (opt : Options) (pkt1 pkt2 : TSPacket) : Decidable (IsTruncated opt pkt1 pkt2) :=
  inferInstanceAs (Decidable (_ ∧ _ ∧ _ ∧ _ ∧ (_ ∨ _)))

def pairs (opt : Options) : List TSPacket → List TSPacket → List (TSPacket × TSPacket)
  | pkt1 :: file1, pkt2 :: file2 =>
    (pkt1, pkt2) ::
      if IsSame opt pkt1 pkt2 then pairs opt file1 file2
      else if opt.subset = true ∧ ¬IsTruncated opt pkt1 pkt2 then pairs opt file1 (pkt2 :: file2)
      else if opt.quiet || !opt.continueAll then []
      else pairs opt file1 file2
  | _, _ => []

/-- The clock references have their room, and with a subset, when the second file is a subsequence,
the last packet is not missing and no payload is the start of the compared one. -/
structure IsRegular (opt : Options) (file1 file2 : List TSPacket) : Prop where
  comparable : ∀ pair ∈ pairs opt file1 file2, IsComparable opt pair.1 pair.2
  subset : opt.subset = true →
    List.SublistForall₂ (fun pkt2 pkt1 ↦ IsSame opt pkt1 pkt2) file2 file1 →
      (file1 = [] ∨ ¬List.SublistForall₂ (fun pkt2 pkt1 ↦ IsSame opt pkt1 pkt2) file2
        file1.dropLast) ∧
      ∀ pair ∈ pairs opt file1 file2, ¬IsTruncated opt pair.1 pair.2

/-! ### Memory regions -/

/-- A region is the start of the other one. -/
theorem forall_zip_iff (mem1 mem2 : ByteBlock) :
    (∀ bytes ∈ mem1.zip mem2, bytes.1 = bytes.2) ↔ mem1 <+: mem2 ∨ mem2 <+: mem1 := by
  induction mem1 generalizing mem2 with
  | nil =>
    exact iff_of_true (fun _ hbytes ↦ absurd hbytes List.not_mem_nil) (Or.inl List.nil_prefix)
  | cons byte mem1 ih =>
    cases mem2 with
    | nil =>
      exact iff_of_true (fun _ hbytes ↦ absurd hbytes List.not_mem_nil) (Or.inr List.nil_prefix)
    | cons other mem2 =>
      rw [List.zip_cons_cons, List.forall_mem_cons, ih mem2, List.cons_prefix_cons,
        List.cons_prefix_cons, eq_comm (a := other), and_or_left]

theorem diffCount_compareRegions (mem1 mem2 : ByteBlock) :
    (compareRegions mem1 mem2).diffCount = 0 ↔ mem1 <+: mem2 ∨ mem2 <+: mem1 := by
  rw [← forall_zip_iff, compareRegions, List.countP_eq_zero]
  refine forall₂_congr fun bytes _ ↦ ?_
  rw [bne_iff_ne, not_not]

theorem equal_compareRegions (mem1 mem2 : ByteBlock) :
    (compareRegions mem1 mem2).equal = true ↔ mem1 = mem2 := by
  have hcount := diffCount_compareRegions mem1 mem2
  rw [compareRegions] at hcount ⊢
  dsimp only at hcount ⊢
  rw [Bool.and_eq_true, beq_iff_eq, beq_iff_eq, hcount]
  constructor
  · rintro ⟨hfirst | hsecond, hlength⟩
    · exact hfirst.eq_of_length hlength
    · exact (hsecond.eq_of_length hlength.symm).symm
  · rintro rfl
    exact ⟨Or.inl List.prefix_rfl, rfl⟩

theorem diffCount_compareRegions_of_length {mem1 mem2 : ByteBlock}
    (hlength : mem1.length = mem2.length) :
    (compareRegions mem1 mem2).diffCount = 0 ↔ mem1 = mem2 := by
  rw [diffCount_compareRegions]
  constructor
  · rintro (hfirst | hsecond)
    · exact hfirst.eq_of_length hlength
    · exact (hsecond.eq_of_length hlength.symm).symm
  · rintro rfl
    exact Or.inl List.prefix_rfl

theorem bytes_eq_iff (pkt1 pkt2 : TSPacket) :
    pkt1.bytes = pkt2.bytes ↔
      ∀ offset < pktSize, byteAt pkt1.bytes offset = byteAt pkt2.bytes offset := by
  constructor
  · rintro hsame offset -
    rw [hsame]
  · intro hall
    refine List.ext_getElem (pkt1.length_eq.trans pkt2.length_eq.symm) fun offset hfirst hsecond ↦ ?_
    have hbyte := hall offset (pkt1.length_eq ▸ hfirst)
    rw [byteAt, byteAt, List.getD_eq_getElem _ _ hfirst, List.getD_eq_getElem _ _ hsecond] at hbyte
    exact hbyte

/-! ### Fields which are ignored -/

/-- The flags of the adaptation field and its size are the same. -/
structure SameFlags (pkt other : TSPacket) : Prop where
  control : byteAt other.bytes 3 &&& 0xF0 = byteAt pkt.bytes 3 &&& 0xF0
  size : byteAt other.bytes 4 = byteAt pkt.bytes 4
  flags : byteAt other.bytes 5 = byteAt pkt.bytes 5

namespace SameFlags

variable {pkt other : TSPacket}

theorem getAFSize_eq (hflags : SameFlags pkt other) : other.getAFSize = pkt.getAFSize := by
  have hmask : ∀ byte : UInt8, byte &&& 0x20 = (byte &&& 0xF0) &&& 0x20 := by
    intro byte
    rw [UInt8.and_assoc]
    rfl
  rw [TSPacket.getAFSize, TSPacket.getAFSize, TSPacket.hasAF, TSPacket.hasAF, hmask, hflags.control,
    ← hmask, hflags.size]

theorem hasPCR_eq (hflags : SameFlags pkt other) : other.hasPCR = pkt.hasPCR := by
  rw [TSPacket.hasPCR, TSPacket.hasPCR, hflags.getAFSize_eq, hflags.flags]

theorem hasOPCR_eq (hflags : SameFlags pkt other) : other.hasOPCR = pkt.hasOPCR := by
  rw [TSPacket.hasOPCR, TSPacket.hasOPCR, hflags.getAFSize_eq, hflags.flags]

theorem pcrOffset_eq (hflags : SameFlags pkt other) : other.pcrOffset = pkt.pcrOffset := by
  rw [TSPacket.pcrOffset, TSPacket.pcrOffset, hflags.hasPCR_eq, hflags.size]

theorem opcrOffset_eq (hflags : SameFlags pkt other) : other.opcrOffset = pkt.opcrOffset := by
  rw [TSPacket.opcrOffset, TSPacket.opcrOffset, hflags.hasOPCR_eq, hflags.hasPCR_eq, hflags.size]

end SameFlags

theorem clock_range (pkt : TSPacket) :
    (pkt.pcrOffset ≠ 0 → pkt.pcrOffset = 6) ∧
      (pkt.opcrOffset ≠ 0 → pkt.opcrOffset = 6 ∨ pkt.opcrOffset = 12) := by
  constructor
  · intro hne
    rw [TSPacket.pcrOffset] at hne ⊢
    split_ifs at hne ⊢
    · rfl
    · exact absurd rfl hne
  · intro hne
    rw [TSPacket.opcrOffset] at hne ⊢
    split_ifs at hne ⊢
    · exact absurd rfl hne
    · exact Or.inr rfl
    · exact absurd rfl hne
    · exact Or.inl rfl
    · exact absurd rfl hne

theorem not_isClock_pcrOffset (pkt : TSPacket) {offset : ℕ} (hoffset : offset < 6) :
    ¬IsClock offset pkt.pcrOffset := by
  rintro ⟨hne, hle, -⟩
  have hvalue := (clock_range pkt).1 hne
  omega

theorem not_isClock_opcrOffset (pkt : TSPacket) {offset : ℕ} (hoffset : offset < 6) :
    ¬IsClock offset pkt.opcrOffset := by
  rintro ⟨hne, hle, -⟩
  have hvalue := (clock_range pkt).2 hne
  omega

theorem byteAt_write_putPCR (pkt : TSPacket) {start offset : ℕ} (hstart : start ≠ 0)
    (hend : start + 6 ≤ pktSize) :
    byteAt (pkt.write start (TSPacket.putPCR 0)).bytes offset =
      if IsClock offset start then byteAt (TSPacket.putPCR 0) (offset - start)
      else byteAt pkt.bytes offset := by
  have hlength : (TSPacket.putPCR 0).length = 6 := rfl
  show byteAt (writeBytes pkt.bytes start (TSPacket.putPCR 0)) offset = _
  by_cases hclock : IsClock offset start
  · rw [if_pos hclock]
    obtain ⟨-, hle, hlt⟩ := hclock
    have hbyte : byteAt (writeBytes pkt.bytes start (TSPacket.putPCR 0)) (start + (offset - start)) = _ :=
      byteAt_writeBytes (by omega) (by rw [pkt.length_eq]; omega)
    rwa [Nat.add_sub_cancel' hle] at hbyte
  · rw [if_neg hclock]
    rcases Nat.lt_or_ge offset start with hlt | hge
    · exact byteAt_writeBytes_of_lt pkt.bytes hlt _
    · refine byteAt_writeBytes_of_le pkt.bytes ?_
      by_contra hinside
      exact hclock ⟨hstart, hge, by omega⟩

def resetByte (opt : Options) (pkt : TSPacket) (offset : ℕ) : UInt8 :=
  if opt.pcrIgnore = true ∧ IsClock offset pkt.opcrOffset then
    byteAt (TSPacket.putPCR 0) (offset - pkt.opcrOffset)
  else if opt.pcrIgnore = true ∧ IsClock offset pkt.pcrOffset then
    byteAt (TSPacket.putPCR 0) (offset - pkt.pcrOffset)
  else byteAt pkt.bytes offset

theorem resetPCR_of_room {pkt : TSPacket} (hpcr : pkt.hasPCR = true → pkt.pcrOffset ≠ 0) :
    ∃ next, (if pkt.hasPCR then pkt.setPCR 0 else some pkt) = some next ∧ SameFlags pkt next ∧
      ∀ offset, byteAt next.bytes offset = if IsClock offset pkt.pcrOffset then
        byteAt (TSPacket.putPCR 0) (offset - pkt.pcrOffset) else byteAt pkt.bytes offset := by
  by_cases hhas : pkt.hasPCR = true
  · rw [if_pos hhas, TSPacket.setPCR, if_neg (hpcr hhas)]
    have hbytes := fun offset ↦ @byteAt_write_putPCR pkt pkt.pcrOffset offset (hpcr hhas)
      (by rw [(clock_range pkt).1 (hpcr hhas)]; decide)
    have hkept : ∀ offset < 6,
        byteAt (pkt.write pkt.pcrOffset (TSPacket.putPCR 0)).bytes offset = byteAt pkt.bytes offset :=
      fun offset hoffset ↦ (hbytes offset).trans (if_neg (not_isClock_pcrOffset pkt hoffset))
    exact ⟨_, rfl, ⟨congrArg (· &&& 0xF0) (hkept 3 (by decide)), hkept 4 (by decide),
      hkept 5 (by decide)⟩, hbytes⟩
  · rw [if_neg hhas]
    refine ⟨pkt, rfl, ⟨rfl, rfl, rfl⟩, fun offset ↦ ?_⟩
    rw [if_neg]
    rintro ⟨hne, -⟩
    rw [Bool.not_eq_true] at hhas
    rw [TSPacket.pcrOffset, hhas] at hne
    exact hne rfl

theorem resetClocks_spec {opt : Options} {pkt : TSPacket}
    (hroom : opt.pcrIgnore = false ∨ HasRoom pkt) :
    ∃ next, resetClocks opt pkt = some next ∧
      ∀ offset, byteAt next.bytes offset = resetByte opt pkt offset := by
  unfold resetClocks resetByte
  cases hignore : opt.pcrIgnore with
  | false =>
    refine ⟨pkt, rfl, fun offset ↦ ?_⟩
    rw [if_neg fun hboth ↦ Bool.false_ne_true hboth.1,
      if_neg fun hboth ↦ Bool.false_ne_true hboth.1]
  | true =>
    rw [hignore] at hroom
    obtain ⟨hpcr, hopcr⟩ := hroom.resolve_left (Bool.false_ne_true ·.symm)
    obtain ⟨next, hnext, hflags, hbytes⟩ := resetPCR_of_room hpcr
    rw [if_pos rfl, hnext]
    dsimp only
    simp only [true_and]
    by_cases hhas : pkt.hasOPCR = true
    · have hne : next.opcrOffset ≠ 0 := by
        rw [hflags.opcrOffset_eq]
        exact hopcr hhas
      rw [if_pos (hflags.hasOPCR_eq.trans hhas), TSPacket.setOPCR, if_neg hne]
      refine ⟨_, rfl, fun offset ↦ ?_⟩
      have hend : next.opcrOffset + 6 ≤ pktSize := by
        rw [hflags.opcrOffset_eq]
        rcases (clock_range pkt).2 (hopcr hhas) with hvalue | hvalue
        · rw [hvalue]
          decide
        · rw [hvalue]
          decide
      rw [byteAt_write_putPCR next hne hend, hflags.opcrOffset_eq, hbytes]
    · rw [if_neg (by rwa [hflags.hasOPCR_eq])]
      refine ⟨next, rfl, fun offset ↦ ?_⟩
      have hnone : ¬IsClock offset pkt.opcrOffset := by
        rintro ⟨hne, -⟩
        rw [Bool.not_eq_true] at hhas
        rw [TSPacket.opcrOffset, hhas] at hne
        exact hne rfl
      rw [if_neg hnone, hbytes]

theorem resetClocks_eq_none {opt : Options} {pkt : TSPacket} (hignore : opt.pcrIgnore = true)
    (hroom : ¬HasRoom pkt) : resetClocks opt pkt = none := by
  unfold resetClocks
  rw [if_pos hignore]
  by_cases hpcr : pkt.hasPCR = true → pkt.pcrOffset ≠ 0
  · obtain ⟨next, hnext, hflags, -⟩ := resetPCR_of_room hpcr
    rw [HasRoom, not_and, Classical.not_imp, not_not] at hroom
    obtain ⟨hhas, hzero⟩ := hroom hpcr
    rw [hnext]
    dsimp only
    rw [if_pos (hflags.hasOPCR_eq.trans hhas), TSPacket.setOPCR,
      if_pos (hflags.opcrOffset_eq.trans hzero)]
  · rw [Classical.not_imp, not_not] at hpcr
    rw [if_pos hpcr.1, TSPacket.setPCR, if_pos hpcr.2]

/-! ### Bits which are kept -/

def fillBits (opt : Options) (pkt : TSPacket) (offset : ℕ) : UInt8 :=
  if opt.pcrIgnore = true ∧ IsClock offset pkt.opcrOffset then
    byteAt (TSPacket.putPCR 0) (offset - pkt.opcrOffset)
  else if opt.pcrIgnore = true ∧ IsClock offset pkt.pcrOffset then
    byteAt (TSPacket.putPCR 0) (offset - pkt.pcrOffset)
  else if opt.pidIgnore = true ∧ offset = 1 then 0x1F
  else if opt.pidIgnore = true ∧ offset = 2 then 0xFF
  else 0

theorem byteAt_resetHeader (opt : Options) (pkt : TSPacket) (offset : ℕ) :
    byteAt (resetHeader opt pkt).bytes offset =
      if opt.pidIgnore = true ∧ offset = 1 then (byteAt pkt.bytes 1 &&& 0xE0) ||| 0x1F
      else if opt.pidIgnore = true ∧ offset = 2 then 0xFF
      else if opt.ccIgnore = true ∧ offset = 3 then byteAt pkt.bytes 3 &&& 0xF0
      else byteAt pkt.bytes offset := by
  have hpid : ∀ other, byteAt (if opt.pidIgnore then pkt.setPID pidNull else pkt).bytes other =
      if opt.pidIgnore = true ∧ other = 1 then (byteAt pkt.bytes 1 &&& 0xE0) ||| 0x1F
      else if opt.pidIgnore = true ∧ other = 2 then 0xFF
      else byteAt pkt.bytes other := by
    intro other
    cases opt.pidIgnore with
    | false => rfl
    | true =>
      rw [if_pos rfl, TSPacket.setPID]
      simp only [true_and]
      split_ifs with hone htwo
      · rw [hone, TSPacket.byteAt_setByte_of_ne _ (by decide),
          TSPacket.byteAt_setByte_self _ (by decide)]
        rfl
      · rw [htwo, TSPacket.byteAt_setByte_self _ (by decide)]
        rfl
      · rw [TSPacket.byteAt_setByte_of_ne _ (Ne.symm htwo),
          TSPacket.byteAt_setByte_of_ne _ (Ne.symm hone)]
  unfold resetHeader
  dsimp only
  cases opt.ccIgnore with
  | false => exact hpid offset
  | true =>
    rw [if_pos rfl, TSPacket.setCC]
    simp only [true_and]
    by_cases hthree : offset = 3
    · have hkept : byteAt (if opt.pidIgnore then pkt.setPID pidNull else pkt).bytes 3 =
          byteAt pkt.bytes 3 := by
        rw [hpid, if_neg fun hboth ↦ absurd hboth.2 (by decide),
          if_neg fun hboth ↦ absurd hboth.2 (by decide)]
      rw [hthree, TSPacket.byteAt_setByte_self _ (by decide), hkept,
        if_neg fun hboth ↦ absurd hboth.2 (by decide),
        if_neg fun hboth ↦ absurd hboth.2 (by decide), if_pos rfl]
      exact UInt8.or_zero
    · rw [TSPacket.byteAt_setByte_of_ne _ (Ne.symm hthree), hpid, if_neg hthree]

theorem resetFields_spec {opt : Options} {pkt : TSPacket}
    (hroom : opt.pcrIgnore = false ∨ HasRoom pkt) :
    ∃ next, resetFields opt pkt = some next ∧ ∀ offset, byteAt next.bytes offset =
        (byteAt pkt.bytes offset &&& keptBits opt pkt offset) ||| fillBits opt pkt offset := by
  obtain ⟨clocks, hclocks, hbytes⟩ := resetClocks_spec hroom
  refine ⟨_, by rw [resetFields, hclocks, Option.map_some], fun offset ↦ ?_⟩
  have hheader : ∀ index < 6, byteAt clocks.bytes index = byteAt pkt.bytes index := by
    intro index hindex
    rw [hbytes, resetByte, if_neg fun hboth ↦ not_isClock_opcrOffset pkt hindex hboth.2,
      if_neg fun hboth ↦ not_isClock_pcrOffset pkt hindex hboth.2]
  rw [byteAt_resetHeader, keptBits, fillBits, hheader 1 (by decide), hheader 3 (by decide), hbytes,
    resetByte]
  have hfar : IsClock offset pkt.opcrOffset ∨ IsClock offset pkt.pcrOffset → 6 ≤ offset := by
    rintro (hclock | hclock)
    · exact Nat.not_lt.mp fun hlt ↦ not_isClock_opcrOffset pkt hlt hclock
    · exact Nat.not_lt.mp fun hlt ↦ not_isClock_pcrOffset pkt hlt hclock
  by_cases hopcr : opt.pcrIgnore = true ∧ IsClock offset pkt.opcrOffset
  · have hsix := hfar (Or.inl hopcr.2)
    rw [if_neg fun hboth ↦ absurd hboth.2 (by omega), if_neg fun hboth ↦ absurd hboth.2 (by omega),
      if_neg fun hboth ↦ absurd hboth.2 (by omega), if_pos hopcr, if_pos hopcr,
      if_pos ⟨hopcr.1, Or.inr hopcr.2⟩, UInt8.and_zero, UInt8.zero_or]
  rw [if_neg hopcr, if_neg hopcr]
  by_cases hpcr : opt.pcrIgnore = true ∧ IsClock offset pkt.pcrOffset
  · have hsix := hfar (Or.inr hpcr.2)
    rw [if_neg fun hboth ↦ absurd hboth.2 (by omega), if_neg fun hboth ↦ absurd hboth.2 (by omega),
      if_neg fun hboth ↦ absurd hboth.2 (by omega), if_pos hpcr, if_pos hpcr,
      if_pos ⟨hpcr.1, Or.inl hpcr.2⟩, UInt8.and_zero, UInt8.zero_or]
  have hnot : ¬(opt.pcrIgnore = true ∧
      (IsClock offset pkt.pcrOffset ∨ IsClock offset pkt.opcrOffset)) := by
    rintro ⟨hignore, hclock | hclock⟩
    · exact hpcr ⟨hignore, hclock⟩
    · exact hopcr ⟨hignore, hclock⟩
  rw [if_neg hpcr, if_neg hpcr, if_neg hnot]
  split_ifs with hone htwo hthree
  · rw [hone.2]
  · rw [UInt8.and_zero, UInt8.zero_or]
  · rw [hthree.2, UInt8.or_zero]
  · rw [UInt8.or_zero]
    exact UInt8.and_neg_one.symm

theorem keptBits_flags (opt : Options) (pkt : TSPacket) :
    keptBits opt pkt 3 &&& 0xF0 = 0xF0 ∧ keptBits opt pkt 4 = 0xFF ∧ keptBits opt pkt 5 = 0xFF := by
  have hclock : ∀ offset < 6, ¬(opt.pcrIgnore = true ∧
      (IsClock offset pkt.pcrOffset ∨ IsClock offset pkt.opcrOffset)) := by
    rintro offset hlt ⟨-, hclock | hclock⟩
    · exact not_isClock_pcrOffset pkt hlt hclock
    · exact not_isClock_opcrOffset pkt hlt hclock
  refine ⟨?_, ?_, ?_⟩
  · rw [keptBits, if_neg (hclock 3 (by decide)), if_neg fun hboth ↦ absurd hboth.2 (by decide),
      if_neg fun hboth ↦ absurd hboth.2 (by decide)]
    split_ifs
    · rfl
    · rfl
  · rw [keptBits, if_neg (hclock 4 (by decide)), if_neg fun hboth ↦ absurd hboth.2 (by decide),
      if_neg fun hboth ↦ absurd hboth.2 (by decide), if_neg fun hboth ↦ absurd hboth.2 (by decide)]
  · rw [keptBits, if_neg (hclock 5 (by decide)), if_neg fun hboth ↦ absurd hboth.2 (by decide),
      if_neg fun hboth ↦ absurd hboth.2 (by decide), if_neg fun hboth ↦ absurd hboth.2 (by decide)]

theorem fillBits_and_keptBits (opt : Options) (pkt : TSPacket) (offset : ℕ) :
    fillBits opt pkt offset &&& keptBits opt pkt offset = 0 := by
  rw [fillBits, keptBits]
  by_cases hopcr : opt.pcrIgnore = true ∧ IsClock offset pkt.opcrOffset
  · have hboth : opt.pcrIgnore = true ∧
        (IsClock offset pkt.pcrOffset ∨ IsClock offset pkt.opcrOffset) := ⟨hopcr.1, Or.inr hopcr.2⟩
    rw [if_pos hboth, UInt8.and_zero]
  rw [if_neg hopcr]
  by_cases hpcr : opt.pcrIgnore = true ∧ IsClock offset pkt.pcrOffset
  · have hboth : opt.pcrIgnore = true ∧
        (IsClock offset pkt.pcrOffset ∨ IsClock offset pkt.opcrOffset) := ⟨hpcr.1, Or.inl hpcr.2⟩
    rw [if_pos hboth, UInt8.and_zero]
  have hnot : ¬(opt.pcrIgnore = true ∧
      (IsClock offset pkt.pcrOffset ∨ IsClock offset pkt.opcrOffset)) := by
    rintro ⟨hignore, hclock | hclock⟩
    · exact hpcr ⟨hignore, hclock⟩
    · exact hopcr ⟨hignore, hclock⟩
  rw [if_neg hpcr, if_neg hnot]
  split_ifs
  · rfl
  · rfl
  · exact UInt8.zero_and
  · exact UInt8.zero_and

/-- Assumes: two packets are reset. The bits which are kept decide. -/
theorem reset_eq_iff {opt : Options} {pkt1 pkt2 next1 next2 : TSPacket}
    (hfirst : ∀ offset, byteAt next1.bytes offset =
      (byteAt pkt1.bytes offset &&& keptBits opt pkt1 offset) ||| fillBits opt pkt1 offset)
    (hsecond : ∀ offset, byteAt next2.bytes offset =
      (byteAt pkt2.bytes offset &&& keptBits opt pkt2 offset) ||| fillBits opt pkt2 offset) :
    next1.bytes = next2.bytes ↔ ∀ offset < pktSize,
      byteAt pkt1.bytes offset &&& keptBits opt pkt1 offset =
        byteAt pkt2.bytes offset &&& keptBits opt pkt2 offset := by
  rw [bytes_eq_iff]
  have hkept : ∀ (pkt next : TSPacket), (∀ offset, byteAt next.bytes offset =
      (byteAt pkt.bytes offset &&& keptBits opt pkt offset) ||| fillBits opt pkt offset) →
      ∀ offset, byteAt next.bytes offset &&& keptBits opt pkt offset =
        byteAt pkt.bytes offset &&& keptBits opt pkt offset := by
    intro pkt next hnext offset
    have hmask := TSPacket.and_replaced (byteAt pkt.bytes offset) (fillBits opt pkt offset)
      (keptBits opt pkt offset) (-1) (keptBits opt pkt offset)
    rw [UInt8.and_neg_one, UInt8.and_self, UInt8.neg_one_and, fillBits_and_keptBits, UInt8.or_zero]
      at hmask
    rw [hnext, hmask]
  -- The clock references are at the same place when the flags are the same.
  have hlayout : SameFlags pkt1 pkt2 → ∀ offset, keptBits opt pkt2 offset = keptBits opt pkt1 offset ∧
      fillBits opt pkt2 offset = fillBits opt pkt1 offset := by
    intro hflags offset
    rw [keptBits, keptBits, fillBits, fillBits, hflags.pcrOffset_eq, hflags.opcrOffset_eq]
    exact ⟨rfl, rfl⟩
  have hthree : ∀ pkt, byteAt pkt.bytes 3 &&& 0xF0 =
      (byteAt pkt.bytes 3 &&& keptBits opt pkt 3) &&& 0xF0 := by
    intro pkt
    rw [UInt8.and_assoc, (keptBits_flags opt pkt).1]
  have hbyte : ∀ (pkt : TSPacket) offset, keptBits opt pkt offset = 0xFF →
      byteAt pkt.bytes offset = byteAt pkt.bytes offset &&& keptBits opt pkt offset := by
    intro pkt offset hkeep
    rw [hkeep]
    exact UInt8.and_neg_one.symm
  -- In both cases the flags are the same.
  have hflags : (∀ offset < 6, byteAt pkt1.bytes offset &&& keptBits opt pkt1 offset =
      byteAt pkt2.bytes offset &&& keptBits opt pkt2 offset) → SameFlags pkt1 pkt2 := by
    intro hall
    refine ⟨?_, ?_, ?_⟩
    · rw [hthree pkt2, hthree pkt1, hall 3 (by decide)]
    · rw [hbyte pkt2 4 (keptBits_flags opt pkt2).2.1, hbyte pkt1 4 (keptBits_flags opt pkt1).2.1,
        hall 4 (by decide)]
    · rw [hbyte pkt2 5 (keptBits_flags opt pkt2).2.2, hbyte pkt1 5 (keptBits_flags opt pkt1).2.2,
        hall 5 (by decide)]
  constructor
  · intro hsame
    have hheader : ∀ offset < 6, keptBits opt pkt2 offset = keptBits opt pkt1 offset := by
      intro offset hlt
      have hclock : ∀ pkt : TSPacket, ¬(opt.pcrIgnore = true ∧
          (IsClock offset pkt.pcrOffset ∨ IsClock offset pkt.opcrOffset)) := by
        rintro pkt ⟨-, hclock | hclock⟩
        · exact not_isClock_pcrOffset pkt hlt hclock
        · exact not_isClock_opcrOffset pkt hlt hclock
      rw [keptBits, keptBits, if_neg (hclock pkt1), if_neg (hclock pkt2)]
    have hstart := hflags fun offset hlt ↦ by
      rw [← hkept pkt1 next1 hfirst, ← hkept pkt2 next2 hsecond, hheader offset hlt,
        hsame offset (hlt.trans (by decide))]
    intro offset hoffset
    rw [← hkept pkt1 next1 hfirst, ← hkept pkt2 next2 hsecond, (hlayout hstart offset).1,
      hsame offset hoffset]
  · intro hall offset hoffset
    have hstart := hflags fun offset hlt ↦ hall offset (hlt.trans (by decide))
    rw [hfirst, hsecond, hall offset hoffset, (hlayout hstart offset).2]

/-! ### Comparison of two packets -/

theorem compare_spec {opt : Options} {pkt1 pkt2 : TSPacket} (hcomparable : IsComparable opt pkt1 pkt2) :
    ∃ comp, compare opt pkt1 pkt2 = some comp ∧ (comp.equal = true ↔ IsSame opt pkt1 pkt2) ∧
      (comp.equal = false → (comp.diffCount = 0 ↔ IsTruncated opt pkt1 pkt2)) := by
  have hlength : pkt1.bytes.length = pkt2.bytes.length := pkt1.length_eq.trans pkt2.length_eq.symm
  -- Regions of the size of a packet.
  have hwhole : ∀ p1 p2 : TSPacket, (opt.payloadOnly = false) →
      (compareRegions p1.bytes p2.bytes).equal = false →
        ((compareRegions p1.bytes p2.bytes).diffCount = 0 ↔ IsTruncated opt pkt1 pkt2) := by
    intro p1 p2 hpayload hdiffers
    refine iff_of_false ?_ fun htruncated ↦ ?_
    · rw [diffCount_compareRegions_of_length (p1.length_eq.trans p2.length_eq.symm),
        ← equal_compareRegions, hdiffers]
      exact Bool.false_ne_true
    · exact Bool.false_ne_true (hpayload.symm.trans htruncated.2.2.1)
  unfold compare IsSame
  by_cases hnull : pkt1.getPID = pidNull ∨ pkt2.getPID = pidNull
  · rw [if_pos hnull, if_pos hnull]
    refine ⟨_, rfl, ?_, fun hdiffers ↦ iff_of_false (fun hzero ↦ ?_) fun htruncated ↦ ?_⟩
    · rw [Bool.and_eq_true, beq_iff_eq, beq_iff_eq]
    · have hsame := (diffCount_compareRegions_of_length hlength).mp hzero
      have hpids : pkt1.getPID = pkt2.getPID := by
        rw [TSPacket.getPID, TSPacket.getPID, hsame]
      dsimp only at hdiffers
      rw [hpids, or_self] at hnull
      rw [hpids, hnull] at hdiffers
      exact absurd hdiffers (by decide)
    · exact hnull.elim htruncated.1 htruncated.2.1
  rw [if_neg hnull, if_neg hnull]
  rw [not_or] at hnull
  cases hpayload : opt.payloadOnly with
  | true =>
    refine ⟨_, rfl, equal_compareRegions _ _, fun hdiffers ↦ ?_⟩
    rw [diffCount_compareRegions, IsTruncated, and_iff_right hnull.1, and_iff_right hnull.2,
      and_iff_right hpayload, and_iff_right]
    intro hsame
    rw [(equal_compareRegions _ _).mpr hsame] at hdiffers
    exact Bool.false_ne_true hdiffers.symm
  | false =>
    rw [if_neg Bool.false_ne_true, if_neg Bool.false_ne_true]
    by_cases hfull : (!opt.pcrIgnore && !opt.pidIgnore && !opt.ccIgnore) = true
    · rw [if_pos hfull]
      rw [Bool.and_eq_true, Bool.and_eq_true, Bool.not_eq_true', Bool.not_eq_true',
        Bool.not_eq_true'] at hfull
      obtain ⟨⟨hpcr, hpid⟩, hcc⟩ := hfull
      refine ⟨_, rfl, ?_, hwhole pkt1 pkt2 hpayload⟩
      have hall : ∀ (pkt : TSPacket) offset, byteAt pkt.bytes offset &&& keptBits opt pkt offset =
          byteAt pkt.bytes offset := by
        intro pkt offset
        rw [keptBits, if_neg fun hboth ↦ Bool.false_ne_true (hpcr.symm.trans hboth.1),
          if_neg fun hboth ↦ Bool.false_ne_true (hpid.symm.trans hboth.1),
          if_neg fun hboth ↦ Bool.false_ne_true (hpid.symm.trans hboth.1),
          if_neg fun hboth ↦ Bool.false_ne_true (hcc.symm.trans hboth.1)]
        exact UInt8.and_neg_one
      rw [equal_compareRegions, bytes_eq_iff]
      refine forall₂_congr fun offset _ ↦ ?_
      rw [hall, hall]
    · rw [if_neg hfull]
      have hrooms : opt.pcrIgnore = false ∨ HasRoom pkt1 ∧ HasRoom pkt2 := by
        rcases hcomparable with hfirst | hsecond | honly | hrooms
        · exact absurd hfirst hnull.1
        · exact absurd hsecond hnull.2
        · exact absurd (hpayload.symm.trans honly) Bool.false_ne_true
        · exact hrooms
      obtain ⟨next1, hnext1, hfirst⟩ := resetFields_spec (hrooms.imp_right And.left)
      obtain ⟨next2, hnext2, hsecond⟩ := resetFields_spec (hrooms.imp_right And.right)
      rw [hnext1, hnext2]
      refine ⟨_, rfl, ?_, hwhole next1 next2 hpayload⟩
      rw [equal_compareRegions, reset_eq_iff hfirst hsecond]

theorem compare_eq_none {opt : Options} {pkt1 pkt2 : TSPacket}
    (hcomparable : ¬IsComparable opt pkt1 pkt2) : compare opt pkt1 pkt2 = none := by
  rw [IsComparable, not_or, not_or, not_or, not_or, Bool.not_eq_true, Bool.not_eq_false] at hcomparable
  obtain ⟨hfirst, hsecond, hpayload, hignore, hrooms⟩ := hcomparable
  unfold compare
  rw [if_neg (not_or.mpr ⟨hfirst, hsecond⟩), hpayload, if_neg Bool.false_ne_true, hignore,
    Bool.not_true, Bool.false_and, Bool.false_and, if_neg Bool.false_ne_true, resetFields, resetFields]
  rcases not_and_or.mp hrooms with hroom | hroom
  · rw [resetClocks_eq_none hignore hroom]
    rfl
  · rw [resetClocks_eq_none hignore hroom]
    cases (resetClocks opt pkt1).map (resetHeader opt) with
    | none => rfl
    | some next => rfl

/-! ### Comparison of two files -/

/-- The packets of the second file which are not matched yet. -/
def remaining (file2 : List TSPacket) (pkt2 : Option TSPacket) (subsetSkipped : ℕ) : List TSPacket :=
  if subsetSkipped = 0 then file2 else pkt2.toList ++ file2

theorem read_remaining {file2 : List TSPacket} {pkt2 : Option TSPacket} {subsetSkipped : ℕ}
    (hpkt2 : subsetSkipped ≠ 0 → pkt2.isSome = true) :
    (if subsetSkipped = 0 then (file2.head?, file2.tail) else (pkt2, file2)) =
      ((remaining file2 pkt2 subsetSkipped).head?, (remaining file2 pkt2 subsetSkipped).tail) := by
  rw [remaining]
  by_cases hzero : subsetSkipped = 0
  · rw [if_pos hzero, if_pos hzero]
  · rw [if_neg hzero, if_neg hzero]
    obtain ⟨pkt, rfl⟩ := Option.isSome_iff_exists.mp (hpkt2 hzero)
    rfl

/-- The files have no difference. -/
def NoDifference (opt : Options) : List TSPacket → List TSPacket → Prop
  | [], [] => True
  | [], _ :: _ => False
  | _ :: _, [] => False
  | pkt1 :: file1, pkt2 :: file2 =>
    if IsSame opt pkt1 pkt2 then NoDifference opt file1 file2
    else opt.subset = true ∧ ¬IsTruncated opt pkt1 pkt2 ∧ NoDifference opt file1 (pkt2 :: file2)

/-- Whether the files have a difference. -/
theorem compareFiles_spec {opt : Options} (hthreshold : opt.subset = true → opt.thresholdDiff = 0)
    (file1 : List TSPacket) {file2 : List TSPacket} {pkt2 : Option TSPacket} {subsetSkipped : ℕ}
    (hpkt2 : subsetSkipped ≠ 0 → pkt2.isSome = true) (diffCount : ℕ) :
    ((∃ total, compareFiles opt file1 file2 pkt2 subsetSkipped diffCount = some total) ↔
      ∀ pair ∈ pairs opt file1 (remaining file2 pkt2 subsetSkipped),
        IsComparable opt pair.1 pair.2) ∧
    ∀ total, compareFiles opt file1 file2 pkt2 subsetSkipped diffCount = some total →
      diffCount ≤ total ∧
        (total = diffCount ↔ NoDifference opt file1 (remaining file2 pkt2 subsetSkipped)) := by
  induction file1 generalizing file2 pkt2 subsetSkipped diffCount with
  | nil =>
    have hhead : (if subsetSkipped = 0 then file2.head? else pkt2) =
        (remaining file2 pkt2 subsetSkipped).head? := by
      have hread := congrArg Prod.fst (@read_remaining file2 pkt2 subsetSkipped hpkt2)
      rwa [apply_ite Prod.fst] at hread
    have hpairs : ∀ targets, pairs opt [] targets = [] := fun targets ↦ by
      cases targets with
      | nil => rfl
      | cons target targets => rfl
    rw [compareFiles, hhead, hpairs]
    refine ⟨iff_of_true ⟨_, rfl⟩ fun _ hpair ↦ absurd hpair List.not_mem_nil, fun total htotal ↦ ?_⟩
    obtain rfl := Option.some.inj htotal
    cases remaining file2 pkt2 subsetSkipped with
    | nil => exact ⟨le_rfl, iff_of_true rfl trivial⟩
    | cons target targets => exact ⟨Nat.le_succ _, iff_of_false (Nat.succ_ne_self _) id⟩
  | cons pkt1 file1 ih =>
    rw [compareFiles, read_remaining hpkt2]
    cases hremaining : remaining file2 pkt2 subsetSkipped with
    | nil =>
      refine ⟨iff_of_true ⟨_, rfl⟩ fun _ hpair ↦ absurd hpair List.not_mem_nil, fun total htotal ↦ ?_⟩
      obtain rfl := Option.some.inj htotal
      exact ⟨Nat.le_succ _, iff_of_false (Nat.succ_ne_self _) id⟩
    | cons current rest =>
      rw [List.head?_cons, List.tail_cons, pairs, List.forall_mem_cons, NoDifference]
      dsimp only
      by_cases hcomparable : IsComparable opt pkt1 current
      · obtain ⟨comp, hcomp, hequal, htruncated⟩ := compare_spec hcomparable
        rw [hcomp, and_iff_right hcomparable]
        dsimp only
        by_cases hsame : IsSame opt pkt1 current
        · rw [if_pos hsame, if_pos hsame, hequal.mpr hsame, Bool.not_true, Bool.and_false,
            Bool.false_and, if_neg Bool.false_ne_true, if_pos rfl]
          exact ih (fun hne ↦ absurd rfl hne) diffCount
        · have hdiffers : comp.equal = false := by
            rw [← Bool.not_eq_true, hequal]
            exact hsame
          rw [if_neg hsame, if_neg hsame, hdiffers, Bool.not_false, Bool.and_true,
            if_neg Bool.false_ne_true]
          by_cases hskip : opt.subset = true ∧ ¬IsTruncated opt pkt1 current
          · have hcount : 0 < comp.diffCount :=
              Nat.pos_of_ne_zero fun hzero ↦ hskip.2 ((htruncated hdiffers).mp hzero)
            rw [if_pos hskip, hskip.1, hthreshold hskip.1, Bool.true_and,
              if_pos (decide_eq_true hcount), and_iff_right rfl, and_iff_right hskip.2]
            exact ih (fun _ ↦ rfl) diffCount
          · have hnot : (opt.subset && decide (comp.diffCount > opt.thresholdDiff)) ≠ true := by
              rw [Ne, Bool.and_eq_true, decide_eq_true_eq]
              rintro ⟨hsubset, hcount⟩
              rw [hthreshold hsubset] at hcount
              exact hskip ⟨hsubset, fun his ↦ hcount.ne' ((htruncated hdiffers).mpr his)⟩
            have hdifference : ¬(opt.subset = true ∧ ¬IsTruncated opt pkt1 current ∧
                NoDifference opt file1 (current :: rest)) :=
              fun hall ↦ hskip ⟨hall.1, hall.2.1⟩
            rw [if_neg hskip, if_neg hnot]
            split_ifs with hstop
            · refine ⟨iff_of_true ⟨_, rfl⟩ fun _ hpair ↦ absurd hpair List.not_mem_nil,
                fun total htotal ↦ ?_⟩
              obtain rfl := Option.some.inj htotal
              exact ⟨Nat.le_succ _, iff_of_false (Nat.succ_ne_self _) hdifference⟩
            · obtain ⟨hresult, htotals⟩ := @ih rest (some current) 0 (fun hne ↦ absurd rfl hne)
                (diffCount + 1)
              refine ⟨hresult, fun total htotal ↦ ?_⟩
              have hmore := (htotals total htotal).1
              exact ⟨Nat.le_of_succ_le hmore, iff_of_false (Nat.ne_of_gt hmore) hdifference⟩
      · rw [compare_eq_none hcomparable]
        refine ⟨iff_of_false ?_ fun hall ↦ hcomparable hall.1, fun total htotal ↦ ?_⟩
        · rintro ⟨total, htotal⟩
          exact absurd htotal.symm (Option.some_ne_none _)
        · exact absurd htotal.symm (Option.some_ne_none _)

theorem noDifference_iff_forall₂ {opt : Options} (hsubset : opt.subset = false)
    (file1 file2 : List TSPacket) :
    NoDifference opt file1 file2 ↔ List.Forall₂ (IsSame opt) file1 file2 := by
  induction file1 generalizing file2 with
  | nil =>
    cases file2 with
    | nil => exact iff_of_true trivial .nil
    | cons pkt2 file2 => exact iff_of_false id fun hall ↦ by cases hall
  | cons pkt1 file1 ih =>
    cases file2 with
    | nil => exact iff_of_false id fun hall ↦ by cases hall
    | cons pkt2 file2 =>
      rw [NoDifference, List.forall₂_cons]
      by_cases hsame : IsSame opt pkt1 pkt2
      · rw [if_pos hsame, and_iff_right hsame, ih]
      · rw [if_neg hsame]
        exact iff_of_false (fun hall ↦ Bool.false_ne_true (hsubset.symm.trans hall.1))
          fun hall ↦ hsame hall.1

theorem noDifference_iff_ends {opt : Options} (hsubset : opt.subset = true)
    (file1 file2 : List TSPacket) :
    NoDifference opt file1 file2 ↔
      GreedyMatching.Ends (fun pkt2 pkt1 ↦ IsSame opt pkt1 pkt2) file1 file2 ∧
        ∀ pair ∈ pairs opt file1 file2, ¬IsTruncated opt pair.1 pair.2 := by
  induction file1 generalizing file2 with
  | nil =>
    cases file2 with
    | nil => exact iff_of_true trivial ⟨trivial, fun _ hpair ↦ absurd hpair List.not_mem_nil⟩
    | cons pkt2 file2 => exact iff_of_false id fun hboth ↦ hboth.1
  | cons pkt1 file1 ih =>
    cases file2 with
    | nil => exact iff_of_false id fun hboth ↦ hboth.1
    | cons pkt2 file2 =>
      rw [NoDifference, GreedyMatching.Ends, pairs, List.forall_mem_cons]
      by_cases hsame : IsSame opt pkt1 pkt2
      · have hnot : ¬IsTruncated opt pkt1 pkt2 := by
          rintro ⟨hfirst, hsecond, hpayload, hdiffers, -⟩
          rw [IsSame, if_neg (not_or.mpr ⟨hfirst, hsecond⟩), if_pos hpayload] at hsame
          exact hdiffers hsame
        rw [if_pos hsame, if_pos hsame, ih, and_iff_right hnot, and_iff_right hsame,
          or_iff_left fun hother ↦ hother.1 hsame]
      · rw [if_neg hsame, if_neg hsame, and_iff_right hsubset, and_iff_right hsame,
          or_iff_right fun hother ↦ hsame hother.1]
        by_cases htruncated : IsTruncated opt pkt1 pkt2
        · exact iff_of_false (fun hall ↦ hall.1 htruncated) fun hall ↦ hall.2.1 htruncated
        · rw [if_pos ⟨hsubset, htruncated⟩, ih, and_iff_right htruncated, and_iff_right htruncated]

/-- The status is the expected one if and only if the condition holds. Assumes: with a subset, the
threshold is zero. -/
theorem isExact_iff (opt : Options) (file1 file2 : List TSPacket)
    (hthreshold : opt.subset = true → opt.thresholdDiff = 0) :
    IsExact opt file1 file2 ↔ IsRegular opt file1 file2 := by
  obtain ⟨hresult, htotals⟩ := @compareFiles_spec opt hthreshold file1 file2 none 0
    (fun hne ↦ absurd rfl hne) 0
  have hstart : remaining file2 none 0 = file2 := rfl
  rw [hstart] at hresult htotals
  constructor
  · rintro ⟨status, hstatus, hmatches⟩
    rw [tscmp, Option.map_eq_some_iff] at hstatus
    obtain ⟨total, htotal, rfl⟩ := hstatus
    have hzero := (htotals total htotal).2
    rw [beq_iff_eq, hzero] at hmatches
    refine ⟨hresult.mp ⟨total, htotal⟩, fun hsubset hsublist ↦ ?_⟩
    rw [Matches, if_pos hsubset, noDifference_iff_ends hsubset] at hmatches
    obtain ⟨hends, htruncated⟩ := hmatches.mpr hsublist
    exact ⟨((GreedyMatching.ends_iff _ _).mp hends).2, htruncated⟩
  · rintro ⟨hcomparable, hcondition⟩
    obtain ⟨total, htotal⟩ := hresult.mpr hcomparable
    refine ⟨_, by rw [tscmp, htotal, Option.map_some], ?_⟩
    rw [beq_iff_eq, (htotals total htotal).2, Matches]
    cases hsubset : opt.subset with
    | false =>
      rw [if_neg Bool.false_ne_true]
      exact noDifference_iff_forall₂ hsubset file1 file2
    | true =>
      rw [if_pos rfl, noDifference_iff_ends hsubset, GreedyMatching.ends_iff]
      constructor
      · exact fun hboth ↦ hboth.1.1
      · intro hsublist
        obtain ⟨hlast, htruncated⟩ := hcondition hsubset hsublist
        exact ⟨⟨hsublist, hlast⟩, htruncated⟩

def Options.ofSubset (subset : Bool) : Options where
  subset := subset
  thresholdDiff := 0
  payloadOnly := false
  pcrIgnore := false
  pidIgnore := false
  ccIgnore := false
  continueAll := false
  quiet := false

/-- A file is compared with itself. -/
theorem isExact_of_one_packet : IsExact (.ofSubset true) [nullPacket] [nullPacket] := by
  have hpairs : pairs (.ofSubset true) [nullPacket] [nullPacket] = [(nullPacket, nullPacket)] := by
    decide +kernel
  refine (isExact_iff (.ofSubset true) [nullPacket] [nullPacket] fun _ ↦ rfl).mpr
    ⟨fun pair hpair ↦ ?_, fun _ _ ↦ ⟨Or.inr GreedyMatching.not_sublist_nil, fun pair hpair ↦ ?_⟩⟩
  · rw [hpairs, List.mem_singleton] at hpair
    subst hpair
    exact Or.inl (by decide +kernel)
  · rw [hpairs, List.mem_singleton] at hpair
    subst hpair
    exact fun htruncated ↦ htruncated.1 (by decide +kernel)

/-- The last packet of the first file is missing in the second file. -/
theorem not_isExact_of_missing_end :
    ¬∀ (opt : Options) (file1 file2 : List TSPacket),
      (opt.subset = true → opt.thresholdDiff = 0) → IsExact opt file1 file2 := by
  intro hall
  obtain ⟨status, hstatus, hmatches⟩ := hall (.ofSubset true) [nullPacket, nullPacket] [nullPacket]
    fun _ ↦ rfl
  have hfailure : tscmp (.ofSubset true) [nullPacket, nullPacket] [nullPacket] = some false := by
    decide +kernel
  obtain rfl := Option.some.inj (hfailure.symm.trans hstatus)
  refine Bool.false_ne_true (hmatches.mpr ?_)
  rw [Matches, if_pos (show (Options.ofSubset true).subset = true from rfl)]
  exact .cons (by decide +kernel) .nil

end TSCmp

end TSDuck
