import TSDuck.Mpeg.Bytes
import Mathlib.Algebra.Order.Ring.Nat

/-!
# Fields of big-endian integers

The lengths and the identifiers in sections are the low bits of 16-bit integers, whose high bits are
flags or reserved bits. These lemmas read a field back from the bytes of an integer, whatever comes
after them.
-/

namespace TSDuck

abbrev Uint16 := Fin 65536

abbrev Pid := Fin 8192

theorem getUInt16_lt (data : ByteBlock) (offset : ℕ) : getUInt16 data offset < 65536 := by
  have hhigh := (byteAt data offset).toNat_lt
  have hlow := (byteAt data (offset + 1)).toNat_lt
  unfold getUInt16
  omega

theorem getUInt16_putUInt16_append {value : ℕ} (hvalue : value < 65536) (rest : ByteBlock) :
    getUInt16 (putUInt16 value ++ rest) 0 = value := by
  simp only [getUInt16, byteAt, putUInt16, List.cons_append, List.nil_append, List.getD_cons_zero,
    List.getD_cons_succ, zero_add, UInt8.toNat_ofNat']
  omega

theorem byteAt_append_right (front back : ByteBlock) (offset : ℕ) :
    byteAt (front ++ back) (front.length + offset) = byteAt back offset := by
  rw [byteAt, byteAt, List.getD_append_right _ _ _ _ (Nat.le_add_right _ _),
    Nat.add_sub_cancel_left]

theorem getUInt16_append_right (front back : ByteBlock) (offset : ℕ) :
    getUInt16 (front ++ back) (front.length + offset) = getUInt16 back offset := by
  rw [getUInt16, getUInt16, Nat.add_assoc, byteAt_append_right, byteAt_append_right]

theorem getUInt32_putUInt32 (value : ℕ) (rest : ByteBlock) :
    getUInt32 (putUInt32 value ++ rest) 0 = value % 2 ^ 32 := by
  simp only [getUInt32, getUInt16, byteAt, putUInt32, putUInt16, List.cons_append, List.nil_append,
    List.getD_cons_zero, List.getD_cons_succ, zero_add, UInt8.toNat_ofNat']
  omega

theorem ofNat_getUInt32_putUInt32 (value : UInt32) (rest : ByteBlock) :
    UInt32.ofNat (getUInt32 (putUInt32 value.toNat ++ rest) 0) = value := by
  rw [getUInt32_putUInt32, Nat.mod_eq_of_lt value.toNat_lt]
  exact UInt32.ofNat_toNat

theorem getUInt32_putUInt32_append (front : ByteBlock) {value : ℕ} (hvalue : value < 2 ^ 32) :
    getUInt32 (front ++ putUInt32 value) front.length = value := by
  have hread := getUInt16_append_right front (putUInt32 value)
  have hfirst := hread 0
  have hsecond := hread 2
  rw [Nat.add_zero] at hfirst
  rw [getUInt32, hfirst, hsecond]
  have hhigh : getUInt16 (putUInt32 value) 0 = value / 65536 :=
    getUInt16_putUInt16_append (by omega) (putUInt16 value)
  have hlow : getUInt16 (putUInt32 value) 2 = value % 65536 := by
    show (UInt8.ofNat (value / 256)).toNat * 256 + (UInt8.ofNat value).toNat = _
    rw [UInt8.toNat_ofNat', UInt8.toNat_ofNat']
    omega
  rw [hhigh, hlow]
  omega

theorem or_high_bits {low : ℕ} (width high : ℕ) (hlow : low < 2 ^ width) :
    low ||| 2 ^ width * high = 2 ^ width * high + low := by
  rw [Nat.or_comm]
  exact (Nat.two_pow_add_eq_or_of_lt hlow high).symm

theorem length_or_reserved {length : ℕ} (hlength : length < 4096) :
    length ||| 0xF000 = 0xF000 + length :=
  or_high_bits 12 15 hlength

theorem pid_or_reserved (pid : Pid) : pid.val ||| 0xE000 = 0xE000 + pid.val :=
  or_high_bits 13 7 pid.isLt

theorem and_length_mask (value : ℕ) : value &&& 0x0FFF = value % 4096 :=
  Nat.and_two_pow_sub_one_eq_mod value 12

theorem and_pid_mask (value : ℕ) : value &&& 0x1FFF = value % 8192 :=
  Nat.and_two_pow_sub_one_eq_mod value 13

def getPid (data : ByteBlock) (offset : ℕ) : Pid :=
  ⟨getUInt16 data offset &&& 0x1FFF, by
    rw [and_pid_mask]
    exact Nat.mod_lt _ (by decide)⟩

def getWord (data : ByteBlock) (offset : ℕ) : Uint16 :=
  ⟨getUInt16 data offset, getUInt16_lt data offset⟩

theorem getWord_putUInt16 (value : Uint16) (rest : ByteBlock) :
    getWord (putUInt16 value.val ++ rest) 0 = value :=
  Fin.ext (getUInt16_putUInt16_append value.isLt rest)

theorem getPid_putUInt16 (pid : Pid) (rest : ByteBlock) :
    getPid (putUInt16 (pid.val ||| 0xE000) ++ rest) 0 = pid := by
  have hpid := pid.isLt
  apply Fin.ext
  show getUInt16 _ 0 &&& 0x1FFF = pid.val
  rw [pid_or_reserved, getUInt16_putUInt16_append (by omega), and_pid_mask]
  omega

theorem length_putUInt16 {length : ℕ} (hlength : length < 4096) (rest : ByteBlock) :
    getUInt16 (putUInt16 (length ||| 0xF000) ++ rest) 0 &&& 0x0FFF = length := by
  rw [length_or_reserved hlength, getUInt16_putUInt16_append (by omega), and_length_mask]
  omega

theorem getUInt32_writeBytes {data : ByteBlock} {offset : ℕ} (hinside : offset + 4 ≤ data.length)
    (value : UInt32) :
    getUInt32 (writeBytes data offset (putUInt32 value.toNat)) offset = value.toNat := by
  have hvalue := value.toNat_lt
  have hbyte : ∀ index, index < 4 →
      byteAt (writeBytes data offset (putUInt32 value.toNat)) (offset + index) =
        byteAt (putUInt32 value.toNat) index :=
    fun index hindex ↦ byteAt_writeBytes hindex hinside
  have hread : getUInt32 (writeBytes data offset (putUInt32 value.toNat)) offset =
      getUInt32 (putUInt32 value.toNat ++ []) 0 := by
    rw [List.append_nil]
    unfold getUInt32 getUInt16
    rw [show offset + 2 + 1 = offset + 3 from rfl, hbyte 1 (by omega), hbyte 2 (by omega),
      hbyte 3 (by omega)]
    exact congrArg (fun byte : UInt8 ↦ (byte.toNat * 256 + _) * 65536 + _) (hbyte 0 (by omega))
  rw [hread, getUInt32_putUInt32, Nat.mod_eq_of_lt hvalue]

end TSDuck
