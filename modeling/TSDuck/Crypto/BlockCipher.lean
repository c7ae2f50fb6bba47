import TSDuck.Library.ChunkLoop
import TSDuck.Mpeg.Bytes

/-!
# Block ciphers

A block cipher encrypts and decrypts blocks of one size. `IsInverse` is what the chaining modes rely
on: the decryption of an encrypted block gives the block back.
-/

namespace TSDuck

/-- The exclusive or of the common bytes of two blocks. -/
def xorBytes (left right : ByteBlock) : ByteBlock :=
  List.zipWith (· ^^^ ·) left right

variable (left right : ByteBlock)

@[simp] theorem length_xorBytes :
    (xorBytes left right).length = min left.length right.length :=
  List.length_zipWith

theorem xorBytes_comm : xorBytes left right = xorBytes right left :=
  List.zipWith_comm_of_comm UInt8.xor_comm

theorem take_xorBytes (count : ℕ) :
    (xorBytes left right).take count = xorBytes (left.take count) (right.take count) :=
  List.take_zipWith

theorem drop_xorBytes (count : ℕ) :
    (xorBytes left right).drop count = xorBytes (left.drop count) (right.drop count) :=
  List.drop_zipWith

theorem xorBytes_cancel {left right : ByteBlock} (hle : right.length ≤ left.length) :
    xorBytes left (xorBytes left right) = right := by
  induction left generalizing right with
  | nil =>
    rw [List.length_nil, Nat.le_zero, List.length_eq_zero_iff] at hle
    rw [hle]
    rfl
  | cons byte rest ih =>
    cases right with
    | nil => rfl
    | cons other others =>
      show (byte ^^^ (byte ^^^ other)) :: xorBytes rest (xorBytes rest others) = other :: others
      rw [ih (Nat.le_of_succ_le_succ hle), ← UInt8.xor_assoc, UInt8.xor_self, UInt8.zero_xor]

theorem xorBytes_zeros (left : ByteBlock) :
    xorBytes left (List.replicate left.length 0) = left := by
  induction left with
  | nil => rfl
  | cons byte rest ih =>
    show (byte ^^^ 0) :: xorBytes rest (List.replicate rest.length 0) = byte :: rest
    rw [ih, UInt8.xor_zero]

/-- Why an encryption or a decryption does not return a success. -/
inductive CipherFailure
  | refused
  | assertion
  deriving DecidableEq

structure BlockCipher where
  blockSize : ℕ
  blockSize_pos : 0 < blockSize
  encrypt : ByteBlock → Except CipherFailure ByteBlock
  decrypt : ByteBlock → Except CipherFailure ByteBlock

/-- The decryption of a block is the inverse of its encryption. -/
def BlockCipher.IsInverse (cipher : BlockCipher) : Prop :=
  ∀ ⦃block encrypted⦄, block.length = cipher.blockSize → cipher.encrypt block = .ok encrypted →
    encrypted.length = cipher.blockSize ∧ cipher.decrypt encrypted = .ok block

end TSDuck
