import TSDuck.Mpeg.BitFields

/-!
# Modified Julian dates

A time is a number of milliseconds since the epoch of the operating system, which is its first
representable time.

Dates before the epoch of the system are decoded as this epoch, and the last day number is not a
valid date. `decodeMJD_encodeMJD` is the round trip of the other ones.
-/

namespace TSDuck

def isValidBCD (byte : UInt8) : Bool :=
  decide ((byte &&& 0xF0) < 0xA0) && decide ((byte &&& 0x0F) < 0x0A)

def decodeBCD (byte : UInt8) : ℕ := 10 * (byte >>> 4).toNat + (byte &&& 0x0F).toNat

def encodeBCD (value : ℕ) : UInt8 := UInt8.ofNat (((value / 10) % 10) <<< 4 ||| (value % 10))

theorem decodeBCD_encodeBCD (value : ℕ) (hvalue : value < 100) :
    isValidBCD (encodeBCD value) = true ∧ decodeBCD (encodeBCD value) = value := by
  have hall : ∀ value < 100,
      isValidBCD (encodeBCD value) = true ∧ decodeBCD (encodeBCD value) = value := by
    decide
  exact hall value hvalue

/-- The operating systems, which have different epochs. -/
inductive System
  | unix
  | windows
  deriving DecidableEq

def milliSecPerDay : ℤ := 86400000

namespace System

def unixEpoch : System → ℤ
  | unix => 0
  | windows => 134774 * milliSecPerDay

def julianEpochOffset : System → ℤ
  | unix => -40587 * milliSecPerDay
  | windows => 94187 * milliSecPerDay

end System

variable (system : System)

def decodeMJD (mjd : ByteBlock) : Bool × ℤ :=
  let day := getUInt16 mjd 0
  let valid := day != 0xFFFF && isValidBCD (byteAt mjd 2) && isValidBCD (byteAt mjd 3) &&
    isValidBCD (byteAt mjd 4)
  let ms : ℤ := day * milliSecPerDay + decodeBCD (byteAt mjd 2) * 3600000 +
    decodeBCD (byteAt mjd 3) * 60000 + decodeBCD (byteAt mjd 4) * 1000
  if valid = false then (false, system.unixEpoch)
  else if 0 ≤ system.julianEpochOffset ∨ -system.julianEpochOffset ≤ ms then
    (true, ms + system.julianEpochOffset)
  else (true, 0)

def encodeMJD (time : ℤ) : ByteBlock :=
  if time < system.julianEpochOffset then List.replicate 5 0
  else
    let seconds := ((time - system.julianEpochOffset) / 1000).toNat
    putUInt16 (seconds / 86400) ++ [encodeBCD ((seconds / 3600) % 24),
      encodeBCD ((seconds / 60) % 60), encodeBCD (seconds % 60)]

/-- Whole seconds on a day which can be decoded. -/
def IsDate (time : ℤ) : Prop :=
  0 ≤ time ∧ system.julianEpochOffset ≤ time ∧ time % 1000 = 0 ∧
    time - system.julianEpochOffset < 65535 * milliSecPerDay

theorem length_encodeMJD (time : ℤ) : (encodeMJD system time).length = 5 := by
  unfold encodeMJD
  split_ifs
  · rfl
  · rfl

theorem decodeMJD_encodeMJD {time : ℤ} (hdate : IsDate system time) (rest : ByteBlock) :
    decodeMJD system (encodeMJD system time ++ rest) = (true, time) := by
  obtain ⟨hepoch, hjulian, hwhole, hlast⟩ := hdate
  have hoffset : system.julianEpochOffset % 1000 = 0 := by
    cases system with
    | unix => rfl
    | windows => rfl
  generalize hseconds : ((time - system.julianEpochOffset) / 1000).toNat = seconds
  have htime : time - system.julianEpochOffset = 1000 * seconds := by omega
  have hday : seconds / 86400 < 65535 := by
    unfold milliSecPerDay at hlast
    omega
  have hbytes : encodeMJD system time ++ rest = putUInt16 (seconds / 86400) ++
      ([encodeBCD ((seconds / 3600) % 24), encodeBCD ((seconds / 60) % 60),
        encodeBCD (seconds % 60)] ++ rest) := by
    unfold encodeMJD
    rw [if_neg (by omega)]
    simp only [hseconds]
    rw [List.append_assoc]
  have hdayRead : getUInt16 (encodeMJD system time ++ rest) 0 = seconds / 86400 := by
    rw [hbytes]
    exact getUInt16_putUInt16_append (by omega) _
  have hhours : byteAt (encodeMJD system time ++ rest) 2 = encodeBCD ((seconds / 3600) % 24) := by
    rw [hbytes]
    rfl
  have hminutes : byteAt (encodeMJD system time ++ rest) 3 = encodeBCD ((seconds / 60) % 60) := by
    rw [hbytes]
    rfl
  have hsecs : byteAt (encodeMJD system time ++ rest) 4 = encodeBCD (seconds % 60) := by
    rw [hbytes]
    rfl
  obtain ⟨hvalidHours, hdecodeHours⟩ := decodeBCD_encodeBCD ((seconds / 3600) % 24) (by omega)
  obtain ⟨hvalidMinutes, hdecodeMinutes⟩ :=
    decodeBCD_encodeBCD ((seconds / 60) % 60) (by omega)
  obtain ⟨hvalidSecs, hdecodeSecs⟩ := decodeBCD_encodeBCD (seconds % 60) (by omega)
  have hvalidDay : (seconds / 86400 != 0xFFFF) = true := bne_iff_ne.mpr (by omega)
  have hsum : ((seconds / 86400 : ℕ) : ℤ) * milliSecPerDay + ((seconds / 3600) % 24 : ℕ) * 3600000 +
      ((seconds / 60) % 60 : ℕ) * 60000 + (seconds % 60 : ℕ) * 1000 = 1000 * seconds := by
    unfold milliSecPerDay
    omega
  unfold decodeMJD
  simp only [hdayRead, hhours, hminutes, hsecs, hvalidHours, hvalidMinutes, hvalidSecs, hvalidDay,
    hdecodeHours, hdecodeMinutes, hdecodeSecs, hsum]
  rw [if_neg (by decide), if_pos (by omega), ← htime, Int.sub_add_cancel]

end TSDuck
