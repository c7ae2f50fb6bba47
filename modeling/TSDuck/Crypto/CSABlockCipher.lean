import TSDuck.Crypto.BlockCipher

/-!
# The block cipher of DVB-CSA2

The block cipher has 56 rounds on eight registers. A round of the decryption undoes a round of the
encryption whatever the tables are (`decipherRound_encipherRound`), hence the deciphering of an
enciphered block gives the block back (`decipher_encipher`).
-/

namespace TSDuck

namespace CSABlockCipher

/-- The permutation of the 64 bits of a key. The first bit is number one. -/
def keyPerm : List ℕ :=
  [0x12, 0x24, 0x09, 0x07, 0x2A, 0x31, 0x1D, 0x15, 0x1C, 0x36, 0x3E, 0x32,
    0x13, 0x21, 0x3B, 0x40, 0x18, 0x14, 0x25, 0x27, 0x02, 0x35, 0x1B, 0x01,
    0x22, 0x04, 0x0D, 0x0E, 0x39, 0x28, 0x1A, 0x29, 0x33, 0x23, 0x34, 0x0C,
    0x16, 0x30, 0x1E, 0x3A, 0x2D, 0x1F, 0x08, 0x19, 0x17, 0x2F, 0x3D, 0x11,
    0x3C, 0x05, 0x38, 0x2B, 0x0B, 0x06, 0x0A, 0x2C, 0x20, 0x3F, 0x2E, 0x0F,
    0x03, 0x26, 0x10, 0x37]

def blockSBox : List UInt8 :=
  [0x3A, 0xEA, 0x68, 0xFE, 0x33, 0xE9, 0x88, 0x1A, 0x83, 0xCF, 0xE1, 0x7F, 0xBA, 0xE2, 0x38, 0x12,
    0xE8, 0x27, 0x61, 0x95, 0x0C, 0x36, 0xE5, 0x70, 0xA2, 0x06, 0x82, 0x7C, 0x17, 0xA3, 0x26, 0x49,
    0xBE, 0x7A, 0x6D, 0x47, 0xC1, 0x51, 0x8F, 0xF3, 0xCC, 0x5B, 0x67, 0xBD, 0xCD, 0x18, 0x08, 0xC9,
    0xFF, 0x69, 0xEF, 0x03, 0x4E, 0x48, 0x4A, 0x84, 0x3F, 0xB4, 0x10, 0x04, 0xDC, 0xF5, 0x5C, 0xC6,
    0x16, 0xAB, 0xAC, 0x4C, 0xF1, 0x6A, 0x2F, 0x3C, 0x3B, 0xD4, 0xD5, 0x94, 0xD0, 0xC4, 0x63, 0x62,
    0x71, 0xA1, 0xF9, 0x4F, 0x2E, 0xAA, 0xC5, 0x56, 0xE3, 0x39, 0x93, 0xCE, 0x65, 0x64, 0xE4, 0x58,
    0x6C, 0x19, 0x42, 0x79, 0xDD, 0xEE, 0x96, 0xF6, 0x8A, 0xEC, 0x1E, 0x85, 0x53, 0x45, 0xDE, 0xBB,
    0x7E, 0x0A, 0x9A, 0x13, 0x2A, 0x9D, 0xC2, 0x5E, 0x5A, 0x1F, 0x32, 0x35, 0x9C, 0xA8, 0x73, 0x30,
    0x29, 0x3D, 0xE7, 0x92, 0x87, 0x1B, 0x2B, 0x4B, 0xA5, 0x57, 0x97, 0x40, 0x15, 0xE6, 0xBC, 0x0E,
    0xEB, 0xC3, 0x34, 0x2D, 0xB8, 0x44, 0x25, 0xA4, 0x1C, 0xC7, 0x23, 0xED, 0x90, 0x6E, 0x50, 0x00,
    0x99, 0x9E, 0x4D, 0xD9, 0xDA, 0x8D, 0x6F, 0x5F, 0x3E, 0xD7, 0x21, 0x74, 0x86, 0xDF, 0x6B, 0x05,
    0x8E, 0x5D, 0x37, 0x11, 0xD2, 0x28, 0x75, 0xD6, 0xA7, 0x77, 0x24, 0xBF, 0xF0, 0xB0, 0x02, 0xB7,
    0xF8, 0xFC, 0x81, 0x09, 0xB1, 0x01, 0x76, 0x91, 0x7D, 0x0F, 0xC8, 0xA0, 0xF2, 0xCB, 0x78, 0x60,
    0xD1, 0xF7, 0xE0, 0xB5, 0x98, 0x22, 0xB3, 0x20, 0x1D, 0xA6, 0xDB, 0x7B, 0x59, 0x9F, 0xAE, 0x31,
    0xFB, 0xD3, 0xB6, 0xCA, 0x43, 0x72, 0x07, 0xF4, 0xD8, 0x41, 0x14, 0x55, 0x0D, 0x54, 0x8B, 0xB9,
    0xAD, 0x46, 0x0B, 0xAF, 0x80, 0x52, 0x2C, 0xFA, 0x8C, 0x89, 0x66, 0xFD, 0xB2, 0xA9, 0x9B, 0xC0]

def blockPerm : List UInt8 :=
  [0x00, 0x02, 0x80, 0x82, 0x20, 0x22, 0xA0, 0xA2, 0x10, 0x12, 0x90, 0x92, 0x30, 0x32, 0xB0, 0xB2,
    0x04, 0x06, 0x84, 0x86, 0x24, 0x26, 0xA4, 0xA6, 0x14, 0x16, 0x94, 0x96, 0x34, 0x36, 0xB4, 0xB6,
    0x40, 0x42, 0xC0, 0xC2, 0x60, 0x62, 0xE0, 0xE2, 0x50, 0x52, 0xD0, 0xD2, 0x70, 0x72, 0xF0, 0xF2,
    0x44, 0x46, 0xC4, 0xC6, 0x64, 0x66, 0xE4, 0xE6, 0x54, 0x56, 0xD4, 0xD6, 0x74, 0x76, 0xF4, 0xF6,
    0x01, 0x03, 0x81, 0x83, 0x21, 0x23, 0xA1, 0xA3, 0x11, 0x13, 0x91, 0x93, 0x31, 0x33, 0xB1, 0xB3,
    0x05, 0x07, 0x85, 0x87, 0x25, 0x27, 0xA5, 0xA7, 0x15, 0x17, 0x95, 0x97, 0x35, 0x37, 0xB5, 0xB7,
    0x41, 0x43, 0xC1, 0xC3, 0x61, 0x63, 0xE1, 0xE3, 0x51, 0x53, 0xD1, 0xD3, 0x71, 0x73, 0xF1, 0xF3,
    0x45, 0x47, 0xC5, 0xC7, 0x65, 0x67, 0xE5, 0xE7, 0x55, 0x57, 0xD5, 0xD7, 0x75, 0x77, 0xF5, 0xF7,
    0x08, 0x0A, 0x88, 0x8A, 0x28, 0x2A, 0xA8, 0xAA, 0x18, 0x1A, 0x98, 0x9A, 0x38, 0x3A, 0xB8, 0xBA,
    0x0C, 0x0E, 0x8C, 0x8E, 0x2C, 0x2E, 0xAC, 0xAE, 0x1C, 0x1E, 0x9C, 0x9E, 0x3C, 0x3E, 0xBC, 0xBE,
    0x48, 0x4A, 0xC8, 0xCA, 0x68, 0x6A, 0xE8, 0xEA, 0x58, 0x5A, 0xD8, 0xDA, 0x78, 0x7A, 0xF8, 0xFA,
    0x4C, 0x4E, 0xCC, 0xCE, 0x6C, 0x6E, 0xEC, 0xEE, 0x5C, 0x5E, 0xDC, 0xDE, 0x7C, 0x7E, 0xFC, 0xFE,
    0x09, 0x0B, 0x89, 0x8B, 0x29, 0x2B, 0xA9, 0xAB, 0x19, 0x1B, 0x99, 0x9B, 0x39, 0x3B, 0xB9, 0xBB,
    0x0D, 0x0F, 0x8D, 0x8F, 0x2D, 0x2F, 0xAD, 0xAF, 0x1D, 0x1F, 0x9D, 0x9F, 0x3D, 0x3F, 0xBD, 0xBF,
    0x49, 0x4B, 0xC9, 0xCB, 0x69, 0x6B, 0xE9, 0xEB, 0x59, 0x5B, 0xD9, 0xDB, 0x79, 0x7B, 0xF9, 0xFB,
    0x4D, 0x4F, 0xCD, 0xCF, 0x6D, 0x6F, 0xED, 0xEF, 0x5D, 0x5F, 0xDD, 0xDF, 0x7D, 0x7F, 0xFD, 0xFF]

/-- A bit of a 64-bit key, the most significant one first. -/
def keyBit (key : ByteBlock) (position : ℕ) : UInt8 :=
  (byteAt key (position / 8) >>> UInt8.ofNat (7 - position % 8)) &&& 1

def permuteBits (key : ByteBlock) : List UInt8 :=
  (List.range 64).foldl
    (fun newbit position ↦ newbit.set (keyPerm.getD position 0 - 1) (keyBit key position))
    (List.replicate 64 0)

def byteOfBits (newbit : List UInt8) (index : ℕ) : UInt8 :=
  (List.range 8).foldl
    (fun byte k ↦ byte ||| (byteAt newbit (index * 8 + k) <<< UInt8.ofNat (7 - k))) 0

def permuteKey (key : ByteBlock) : ByteBlock :=
  (List.range 8).map (byteOfBits (permuteBits key))

/-- The intermediate keys, from the key itself, number seven. -/
def intermediateKey (key : ByteBlock) (index : ℕ) : ByteBlock :=
  permuteKey^[7 - index] key

/-- The scheduled keys of the 56 rounds, in the order of the encryption. -/
def scheduledKeys (key : ByteBlock) : List UInt8 :=
  (List.range 7).flatMap fun i ↦
    (List.range 8).map fun j ↦ byteAt (intermediateKey key (1 + i)) j ^^^ UInt8.ofNat i

structure Registers where
  r1 : UInt8
  r2 : UInt8
  r3 : UInt8
  r4 : UInt8
  r5 : UInt8
  r6 : UInt8
  r7 : UInt8
  r8 : UInt8

def Registers.ofBlock (block : ByteBlock) : Registers where
  r1 := byteAt block 0
  r2 := byteAt block 1
  r3 := byteAt block 2
  r4 := byteAt block 3
  r5 := byteAt block 4
  r6 := byteAt block 5
  r7 := byteAt block 6
  r8 := byteAt block 7

def Registers.toBlock (regs : Registers) : ByteBlock :=
  [regs.r1, regs.r2, regs.r3, regs.r4, regs.r5, regs.r6, regs.r7, regs.r8]

def encipherRound (regs : Registers) (key : UInt8) : Registers :=
  let sboxIn := key ^^^ regs.r8
  let sboxOut := byteAt blockSBox sboxIn.toNat
  let permOut := byteAt blockPerm sboxOut.toNat
  { r1 := regs.r2
    r2 := regs.r3 ^^^ regs.r1
    r3 := regs.r4 ^^^ regs.r1
    r4 := regs.r5 ^^^ regs.r1
    r5 := regs.r6
    r6 := regs.r7 ^^^ permOut
    r7 := regs.r8
    r8 := regs.r1 ^^^ sboxOut }

def decipherRound (regs : Registers) (key : UInt8) : Registers :=
  let sboxIn := key ^^^ regs.r7
  let sboxOut := byteAt blockSBox sboxIn.toNat
  let permOut := byteAt blockPerm sboxOut.toNat
  { r1 := regs.r8 ^^^ sboxOut
    r2 := regs.r1
    r3 := regs.r2 ^^^ regs.r8 ^^^ sboxOut
    r4 := regs.r3 ^^^ regs.r8 ^^^ sboxOut
    r5 := regs.r4 ^^^ regs.r8 ^^^ sboxOut
    r6 := regs.r5
    r7 := regs.r6 ^^^ permOut
    r8 := regs.r7 }

def encipher (kk : List UInt8) (block : ByteBlock) : ByteBlock :=
  (kk.foldl encipherRound (Registers.ofBlock block)).toBlock

def decipher (kk : List UInt8) (block : ByteBlock) : ByteBlock :=
  (kk.reverse.foldl decipherRound (Registers.ofBlock block)).toBlock

theorem Registers.ofBlock_toBlock (regs : Registers) : Registers.ofBlock regs.toBlock = regs :=
  rfl

theorem Registers.toBlock_ofBlock {block : ByteBlock} (hlength : block.length = 8) :
    (Registers.ofBlock block).toBlock = block := by
  match block, hlength with
  | [_, _, _, _, _, _, _, _], _ => rfl

@[simp] theorem length_encipher (kk : List UInt8) (block : ByteBlock) :
    (encipher kk block).length = 8 :=
  rfl

theorem xor_xor_self (first second : UInt8) : first ^^^ second ^^^ second = first := by
  rw [UInt8.xor_assoc, UInt8.xor_self, UInt8.xor_zero]

theorem decipherRound_encipherRound (regs : Registers) (key : UInt8) :
    decipherRound (encipherRound regs key) key = regs := by
  have hmiddle : ∀ first second out : UInt8,
      first ^^^ second ^^^ (second ^^^ out) ^^^ out = first := by
    intro first second out
    rw [← UInt8.xor_assoc, xor_xor_self, xor_xor_self]
  simp only [decipherRound, encipherRound, xor_xor_self, hmiddle]

theorem foldl_decipherRound (kk : List UInt8) (regs : Registers) :
    kk.reverse.foldl decipherRound (kk.foldl encipherRound regs) = regs := by
  induction kk generalizing regs with
  | nil => rfl
  | cons key rest ih =>
    rw [List.reverse_cons, List.foldl_append]
    show decipherRound (rest.reverse.foldl decipherRound
      (rest.foldl encipherRound (encipherRound regs key))) key = regs
    rw [ih, decipherRound_encipherRound]

theorem decipher_encipher (kk : List UInt8) {block : ByteBlock} (hlength : block.length = 8) :
    decipher kk (encipher kk block) = block := by
  rw [decipher, encipher, Registers.ofBlock_toBlock, foldl_decipherRound,
    Registers.toBlock_ofBlock hlength]

end CSABlockCipher

end TSDuck
