import TSDuck.Mpeg.MJD

/-!
# Encoding of times of any precision

A `Time` is a number of clock ticks since the epoch of the operating system. A time before the
Julian epoch is an error, and the five bytes of a complete date are then cleared, whatever the size
of the area.

`isRight_iff` gives the times and sizes for which the area is written and the time read back.
-/

namespace TSDuck

def System.ticksPerMs : System → ℤ
  | .unix => 1000
  | .windows => 10000

structure Time where
  value : ℤ
  deriving DecidableEq

namespace Time

variable (system : System)

def sinceEpoch (time : Time) : ℤ := time.value.tdiv system.ticksPerMs

def afterEpoch (ms : ℤ) : Time := ⟨ms * system.ticksPerMs⟩

def truncate (time : Time) : Time := ⟨time.value - time.value % (1000 * system.ticksPerMs)⟩

/-- Decodes a date and the time which the area has. -/
def decodeMJD (mjd : ByteBlock) (mjdSize : ℕ) : Bool × Time :=
  if mjdSize < 2 ∨ 5 < mjdSize then (false, afterEpoch system system.unixEpoch)
  else
    let day := getUInt16 mjd 0
    let field (offset : ℕ) (unit : ℤ) (decoded : Bool × ℤ) : Bool × ℤ :=
      if offset < mjdSize ∧ decoded.1 = true then
        (isValidBCD (byteAt mjd offset), decoded.2 + decodeBCD (byteAt mjd offset) * unit)
      else decoded
    let decoded := field 4 1000 (field 3 60000 (field 2 3600000
      (day != 0xFFFF, day * milliSecPerDay)))
    if decoded.1 = false then (false, afterEpoch system system.unixEpoch)
    else if 0 ≤ system.julianEpochOffset ∨ -system.julianEpochOffset ≤ decoded.2 then
      (true, afterEpoch system (decoded.2 + system.julianEpochOffset))
    else (true, afterEpoch system 0)

def encodeMJD (time : Time) (mjdSize : ℕ) : Bool × ByteBlock :=
  if mjdSize < 2 ∨ 5 < mjdSize then (false, [])
  else
    let ms := time.sinceEpoch system
    if ms < system.julianEpochOffset then (false, List.replicate 5 0)
    else
      let seconds := ((ms - system.julianEpochOffset) / 1000).toNat
      (true, putUInt16 (seconds / 86400) ++
        (if 3 ≤ mjdSize then [encodeBCD ((seconds / 3600) % 24)] else []) ++
        (if 4 ≤ mjdSize then [encodeBCD ((seconds / 60) % 60)] else []) ++
        (if 5 ≤ mjdSize then [encodeBCD (seconds % 60)] else []))

/-- The area is written, and read back if complete. -/
structure IsRight (time : Time) (mjdSize : ℕ) : Prop where
  inside : (time.encodeMJD system mjdSize).2.length ≤ mjdSize
  length_eq : 2 ≤ mjdSize → (time.encodeMJD system mjdSize).2.length = mjdSize
  roundTrip : mjdSize = 5 → (time.encodeMJD system mjdSize).1 = true →
    decodeMJD system (time.encodeMJD system mjdSize).2 5 = (true, time.truncate system)

/-! ### Complete dates -/

theorem ticksPerMs_pos : 0 < system.ticksPerMs := by
  cases system with
  | unix => decide
  | windows => decide

theorem encodeMJD_five (time : Time) :
    time.encodeMJD system 5 = (decide (system.julianEpochOffset ≤ time.sinceEpoch system),
        TSDuck.encodeMJD system (time.sinceEpoch system)) := by
  rw [encodeMJD, if_neg (by decide), TSDuck.encodeMJD]
  dsimp only
  by_cases hepoch : time.sinceEpoch system < system.julianEpochOffset
  · rw [if_pos hepoch, if_pos hepoch, decide_eq_false (not_le.mpr hepoch)]
  · rw [if_neg hepoch, if_neg hepoch, decide_eq_true (not_lt.mp hepoch)]
    rfl

theorem decodeMJD_five (mjd : ByteBlock) :
    decodeMJD system mjd 5 =
      ((TSDuck.decodeMJD system mjd).1, afterEpoch system (TSDuck.decodeMJD system mjd).2) := by
  rw [decodeMJD, if_neg (by decide), TSDuck.decodeMJD]
  cases hday : getUInt16 mjd 0 != 0xFFFF with
  | false => simp [hday]
  | true =>
    cases hhours : isValidBCD (byteAt mjd 2) with
    | false => simp [hday, hhours]
    | true =>
      cases hminutes : isValidBCD (byteAt mjd 3) with
      | false => simp [hday, hhours, hminutes]
      | true =>
        cases hseconds : isValidBCD (byteAt mjd 4) with
        | false => simp [hday, hhours, hminutes, hseconds]
        | true =>
          simp only [hday, hhours, hminutes, hseconds]
          split_ifs <;> simp_all

theorem julianEpochOffset_mod : system.julianEpochOffset % 1000 = 0 := by
  cases system with
  | unix => rfl
  | windows => rfl

theorem julianEpochOffset_lt : -system.julianEpochOffset < 65535 * milliSecPerDay := by
  cases system with
  | unix => decide
  | windows => decide

/-- What is decoded from an encoded time. -/
theorem decodeMJD_encodeMJD_eq {ms : ℤ} (hjulian : system.julianEpochOffset ≤ ms) {seconds : ℕ}
    (hseconds : ((ms - system.julianEpochOffset) / 1000).toNat = seconds) :
    TSDuck.decodeMJD system (TSDuck.encodeMJD system ms) =
      if seconds / 86400 % 65536 = 65535 then (false, system.unixEpoch)
      else if 0 ≤ system.julianEpochOffset ∨ -system.julianEpochOffset ≤
          (1000 * (86400 * (seconds / 86400 % 65536) + seconds % 86400) : ℕ) then
        (true, (1000 * (86400 * (seconds / 86400 % 65536) + seconds % 86400) : ℕ) +
          system.julianEpochOffset)
      else (true, 0) := by
  have hbytes : TSDuck.encodeMJD system ms = putUInt16 (seconds / 86400) ++
      [encodeBCD ((seconds / 3600) % 24), encodeBCD ((seconds / 60) % 60),
        encodeBCD (seconds % 60)] := by
    unfold TSDuck.encodeMJD
    rw [if_neg (not_lt.mpr hjulian)]
    simp only [hseconds]
  have hday : getUInt16 (TSDuck.encodeMJD system ms) 0 = seconds / 86400 % 65536 := by
    rw [hbytes]
    simp only [getUInt16, byteAt, putUInt16, List.cons_append, List.nil_append,
      List.getD_cons_zero, List.getD_cons_succ, zero_add, UInt8.toNat_ofNat']
    omega
  have hhours : byteAt (TSDuck.encodeMJD system ms) 2 = encodeBCD ((seconds / 3600) % 24) := by
    rw [hbytes]
    rfl
  have hminutes : byteAt (TSDuck.encodeMJD system ms) 3 = encodeBCD ((seconds / 60) % 60) := by
    rw [hbytes]
    rfl
  have hsecs : byteAt (TSDuck.encodeMJD system ms) 4 = encodeBCD (seconds % 60) := by
    rw [hbytes]
    rfl
  obtain ⟨hvalidHours, hdecodeHours⟩ := decodeBCD_encodeBCD ((seconds / 3600) % 24) (by omega)
  obtain ⟨hvalidMinutes, hdecodeMinutes⟩ :=
    decodeBCD_encodeBCD ((seconds / 60) % 60) (by omega)
  obtain ⟨hvalidSecs, hdecodeSecs⟩ := decodeBCD_encodeBCD (seconds % 60) (by omega)
  have hsum : ((seconds / 86400 % 65536 : ℕ) : ℤ) * milliSecPerDay +
      ((seconds / 3600) % 24 : ℕ) * 3600000 + ((seconds / 60) % 60 : ℕ) * 60000 +
      (seconds % 60 : ℕ) * 1000 =
      (1000 * (86400 * (seconds / 86400 % 65536) + seconds % 86400) : ℕ) := by
    unfold milliSecPerDay
    omega
  unfold TSDuck.decodeMJD
  simp only [hday, hhours, hminutes, hsecs, hvalidHours, hvalidMinutes, hvalidSecs,
    hdecodeHours, hdecodeMinutes, hdecodeSecs, hsum, Bool.and_true]
  by_cases hlast : seconds / 86400 % 65536 = 65535
  · rw [if_pos hlast, if_pos (by rw [hlast]; rfl)]
  · rw [if_neg hlast, if_neg (by rw [bne_iff_ne.mpr hlast]; decide)]

/-! ### The round trip -/

theorem afterEpoch_inj {first second : ℤ} :
    afterEpoch system first = afterEpoch system second ↔ first = second := by
  rw [afterEpoch, afterEpoch, Time.mk.injEq]
  exact Int.mul_eq_mul_right_iff (ticksPerMs_pos system).ne'

theorem truncate_eq_afterEpoch {time : Time} (hvalue : 0 ≤ time.value) :
    time.truncate system = afterEpoch system (1000 * (time.sinceEpoch system / 1000)) := by
  have hms : time.sinceEpoch system = time.value / system.ticksPerMs :=
    Int.tdiv_eq_ediv_of_nonneg hvalue
  have hdiv : time.value / (1000 * system.ticksPerMs) = time.value / system.ticksPerMs / 1000 := by
    rw [mul_comm, Int.ediv_ediv_of_nonneg (ticksPerMs_pos system).le]
  have hmod := Int.mul_ediv_add_emod time.value (1000 * system.ticksPerMs)
  rw [hdiv] at hmod
  rw [truncate, afterEpoch, hms, Time.mk.injEq, mul_right_comm]
  omega

theorem truncate_neg {time : Time} (hvalue : time.value < 0) : (time.truncate system).value < 0 := by
  have hmod := Int.emod_nonneg time.value
    (Int.mul_pos (by decide : (0 : ℤ) < 1000) (ticksPerMs_pos system)).ne'
  show time.value - time.value % (1000 * system.ticksPerMs) < 0
  omega

theorem decodeMJD_nonneg (mjd : ByteBlock) : 0 ≤ (TSDuck.decodeMJD system mjd).2 := by
  have hunix : 0 ≤ system.unixEpoch := by
    cases system with
    | unix => decide
    | windows => decide
  have hdays : 0 ≤ (getUInt16 mjd 0 : ℤ) * milliSecPerDay :=
    Int.mul_nonneg (Int.natCast_nonneg _) (by decide)
  unfold TSDuck.decodeMJD
  dsimp only
  by_cases hvalid : (getUInt16 mjd 0 != 0xFFFF && isValidBCD (byteAt mjd 2) &&
      isValidBCD (byteAt mjd 3) && isValidBCD (byteAt mjd 4)) = false
  · rw [if_pos hvalid]
    exact hunix
  · rw [if_neg hvalid]
    split_ifs with hepoch
    · dsimp only
      obtain hepoch | hepoch := hepoch
      · omega
      · omega
    · exact le_refl 0

/-- The dates which are read back exactly. -/
theorem decodeMJD_encodeMJD_iff {time : Time}
    (hjulian : system.julianEpochOffset ≤ time.sinceEpoch system) :
    decodeMJD system (TSDuck.encodeMJD system (time.sinceEpoch system)) 5 =
        (true, time.truncate system) ↔
      0 ≤ time.value ∧
        time.sinceEpoch system - system.julianEpochOffset < 65535 * milliSecPerDay := by
  rw [decodeMJD_five, Prod.mk.injEq]
  by_cases hvalue : 0 ≤ time.value
  · have hms : 0 ≤ time.sinceEpoch system := Int.tdiv_nonneg hvalue (ticksPerMs_pos system).le
    have hoffset := julianEpochOffset_mod system
    have hlast := julianEpochOffset_lt system
    generalize hseconds :
      ((time.sinceEpoch system - system.julianEpochOffset) / 1000).toNat = seconds
    have hwhole : 1000 * (time.sinceEpoch system / 1000) =
        1000 * seconds + system.julianEpochOffset := by omega
    have hdays : time.sinceEpoch system - system.julianEpochOffset < 65535 * milliSecPerDay ↔
        seconds / 86400 < 65535 := by
      unfold milliSecPerDay
      omega
    rw [truncate_eq_afterEpoch system hvalue, afterEpoch_inj, hwhole, hdays,
      decodeMJD_encodeMJD_eq system hjulian hseconds]
    unfold milliSecPerDay at hlast
    split_ifs with hday hepoch
    · constructor
      · rintro ⟨h, -⟩
        cases h
      · rintro ⟨-, h⟩
        omega
    · constructor
      · rintro ⟨-, h⟩
        exact ⟨hvalue, by omega⟩
      · rintro ⟨-, h⟩
        exact ⟨rfl, by omega⟩
    · constructor
      · rintro ⟨-, h⟩
        omega
      · rintro ⟨-, h⟩
        omega
  · constructor
    · rintro ⟨-, h⟩
      have hneg := truncate_neg system (not_le.mp hvalue)
      have hnonneg := Int.mul_nonneg (decodeMJD_nonneg system
        (TSDuck.encodeMJD system (time.sinceEpoch system))) (ticksPerMs_pos system).le
      rw [← h] at hneg
      exact absurd hneg (not_lt.mpr hnonneg)
    · rintro ⟨h, -⟩
      exact absurd h hvalue

theorem length_encodeMJD (time : Time) (mjdSize : ℕ) :
    (time.encodeMJD system mjdSize).2.length = if mjdSize < 2 ∨ 5 < mjdSize then 0
      else if time.sinceEpoch system < system.julianEpochOffset then 5
      else mjdSize := by
  rw [encodeMJD]
  by_cases hsize : mjdSize < 2 ∨ 5 < mjdSize
  · rw [if_pos hsize, if_pos hsize]
    rfl
  · rw [if_neg hsize, if_neg hsize]
    dsimp only
    by_cases hepoch : time.sinceEpoch system < system.julianEpochOffset
    · rw [if_pos hepoch, if_pos hepoch]
      rfl
    · rw [if_neg hepoch, if_neg hepoch]
      simp only [List.length_append, putUInt16, List.length_cons, List.length_nil]
      split_ifs <;> simp only [List.length_cons, List.length_nil] <;> omega

/-- The area has the size of a date or nothing is written, it is complete when the time is before
the Julian epoch, and otherwise the time in a complete area is not before the epoch of the system
and its day number is less than the last one. -/
theorem isRight_iff (time : Time) (mjdSize : ℕ) :
    IsRight system time mjdSize ↔ mjdSize < 2 ∨ mjdSize ≤ 5 ∧
        (time.sinceEpoch system < system.julianEpochOffset → mjdSize = 5) ∧
        (system.julianEpochOffset ≤ time.sinceEpoch system → mjdSize = 5 → 0 ≤ time.value ∧
          time.sinceEpoch system - system.julianEpochOffset < 65535 * milliSecPerDay) := by
  have hlength := length_encodeMJD system time mjdSize
  constructor
  · intro hright
    by_cases hsmall : mjdSize < 2
    · exact .inl hsmall
    · right
      have hexact := hright.length_eq (not_lt.mp hsmall)
      rw [hlength] at hexact
      refine ⟨?_, ?_, ?_⟩
      · by_contra hlarge
        rw [if_pos (by omega)] at hexact
        omega
      · intro hepoch
        split_ifs at hexact with hsize
        · omega
        · exact hexact.symm
      · rintro hjulian rfl
        have hroundTrip := hright.roundTrip rfl
        rw [encodeMJD_five, decide_eq_true hjulian] at hroundTrip
        exact (decodeMJD_encodeMJD_iff system hjulian).mp (hroundTrip rfl)
  · intro hcondition
    refine ⟨?_, ?_, ?_⟩
    · rw [hlength]
      split_ifs <;> omega
    · intro hsize
      rw [hlength]
      split_ifs <;> omega
    · rintro rfl hencoded
      rw [encodeMJD_five] at hencoded ⊢
      have hjulian : system.julianEpochOffset ≤ time.sinceEpoch system := of_decide_eq_true hencoded
      rw [decodeMJD_encodeMJD_iff system hjulian]
      obtain hsmall | ⟨-, -, hright⟩ := hcondition
      · omega
      · exact hright hjulian rfl

/-- Five bytes are cleared in an area of two bytes. -/
theorem not_isRight_before_julianEpoch :
    ¬ ∀ time mjdSize, IsRight .windows time mjdSize := by
  intro hright
  have hinside := (hright ⟨0⟩ 2).inside
  exact absurd hinside (by decide)

end Time

end TSDuck
