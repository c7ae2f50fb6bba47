import TSDuck.Mpeg.Bytes

/-!
# The stream cipher of DVB-CSA2

The stream cipher has two registers of ten nibbles, six nibbles and three bits. During its
initialization the nibbles of a block are combined into the registers and its output is the block
itself.
-/

namespace TSDuck

namespace CSAStreamCipher

def sbox1 : List UInt8 :=
  [2, 0, 1, 1, 2, 3, 3, 0, 3, 2, 2, 0, 1, 1, 0, 3, 0, 3, 3, 0, 2, 2, 1, 1, 2, 2, 0, 3, 1, 1, 3, 0]

def sbox2 : List UInt8 :=
  [3, 1, 0, 2, 2, 3, 3, 0, 1, 3, 2, 1, 0, 0, 1, 2, 3, 1, 0, 3, 3, 2, 0, 2, 0, 0, 1, 2, 2, 1, 3, 1]

def sbox3 : List UInt8 :=
  [2, 0, 1, 2, 2, 3, 3, 1, 1, 1, 0, 3, 3, 0, 2, 0, 1, 3, 0, 1, 3, 0, 2, 2, 2, 0, 1, 2, 0, 3, 3, 1]

def sbox4 : List UInt8 :=
  [3, 1, 2, 3, 0, 2, 1, 2, 1, 2, 0, 1, 3, 0, 0, 3, 1, 0, 3, 1, 2, 3, 0, 3, 0, 3, 2, 0, 1, 2, 2, 1]

def sbox5 : List UInt8 :=
  [2, 0, 0, 1, 3, 2, 3, 2, 0, 1, 3, 3, 1, 0, 2, 1, 2, 3, 2, 0, 0, 3, 1, 1, 1, 0, 3, 2, 3, 1, 0, 2]

def sbox6 : List UInt8 :=
  [0, 1, 2, 3, 1, 2, 2, 0, 0, 1, 3, 0, 2, 3, 1, 3, 2, 3, 0, 2, 3, 0, 1, 1, 2, 1, 1, 2, 0, 3, 3, 0]

def sbox7 : List UInt8 :=
  [0, 3, 2, 2, 3, 0, 0, 1, 3, 0, 1, 3, 1, 2, 2, 1, 1, 0, 3, 3, 0, 1, 1, 2, 2, 3, 1, 0, 2, 3, 0, 2]

end CSAStreamCipher

/-- The state of the stream cipher. -/
structure CSAStreamCipher where
  regA : ByteBlock
  regB : ByteBlock
  regX : UInt8
  regY : UInt8
  regZ : UInt8
  regD : UInt8
  regE : UInt8
  regF : UInt8
  p : UInt8
  q : UInt8
  r : UInt8

namespace CSAStreamCipher

def bit (nibble number : UInt8) : UInt8 :=
  nibble >>> number &&& (1 : UInt8)

def highNibble (byte : UInt8) : UInt8 :=
  byte >>> (4 : UInt8) &&& (0x0F : UInt8)

def lowNibble (byte : UInt8) : UInt8 :=
  byte &&& 0x0F

def loadNibbles (key : ByteBlock) (offset : ℕ) : ByteBlock :=
  0 :: ((List.range 4).flatMap fun i ↦
    [highNibble (byteAt key (offset + i)), lowNibble (byteAt key (offset + i))]) ++ [0, 0]

def init (key : ByteBlock) : CSAStreamCipher where
  regA := loadNibbles key 0
  regB := loadNibbles key 4
  regX := 0
  regY := 0
  regZ := 0
  regD := 0
  regE := 0
  regF := 0
  p := 0
  q := 0
  r := 0

def sboxOutput (sbox : List UInt8) (bit4 bit3 bit2 bit1 bit0 : UInt8) : UInt8 :=
  let index : UInt8 := (bit4 <<< 4) ||| (bit3 <<< 3) ||| (bit2 <<< 2) ||| (bit1 <<< 1) ||| bit0
  byteAt sbox index.toNat

def outputNibble (first second third fourth : UInt8) : UInt8 :=
  ((first &&& 1) <<< (3 : UInt8)) ||| ((second &&& 1) <<< (2 : UInt8)) ||| (third &&& 2) |||
    ((fourth &&& 2) >>> (1 : UInt8))

def extraB (b : ByteBlock) : UInt8 :=
  let b3 := byteAt b 3
  let b4 := byteAt b 4
  let b5 := byteAt b 5
  let b6 := byteAt b 6
  let b7 := byteAt b 7
  let b8 := byteAt b 8
  let b9 := byteAt b 9
  let bits3 : UInt8 :=
    ((b3 &&& 1) <<< 3) ^^^ ((b6 &&& 2) <<< 2) ^^^ ((b7 &&& 4) <<< 1) ^^^ (b9 &&& 8)
  let bits2 : UInt8 :=
    ((b6 &&& 1) <<< 2) ^^^ ((b8 &&& 2) <<< 1) ^^^ ((b3 &&& 8) >>> 1) ^^^ (b4 &&& 4)
  let bits1 : UInt8 :=
    ((b5 &&& 8) >>> 2) ^^^ ((b8 &&& 4) >>> 1) ^^^ ((b4 &&& 1) <<< 1) ^^^ (b5 &&& 2)
  let bits0 : UInt8 :=
    ((b9 &&& 4) >>> 2) ^^^ ((b6 &&& 8) >>> 3) ^^^ ((b3 &&& 2) >>> 1) ^^^ (b8 &&& 1)
  bits3 ||| bits2 ||| bits1 ||| bits0

def shift (reg : ByteBlock) (next : UInt8) : ByteBlock :=
  0 :: next :: (reg.drop 1).take 9

/-- Iteration number `j` on one byte. -/
def iterate (ctx : CSAStreamCipher) (input : Option UInt8) (j : ℕ) : CSAStreamCipher :=
  let a := byteAt ctx.regA
  let b := byteAt ctx.regB
  let s1 := sboxOutput sbox1 (bit (a 4) 0) (bit (a 1) 2) (bit (a 6) 1) (bit (a 7) 3) (bit (a 9) 0)
  let s2 := sboxOutput sbox2 (bit (a 2) 1) (bit (a 3) 2) (bit (a 6) 3) (bit (a 7) 0) (bit (a 9) 1)
  let s3 := sboxOutput sbox3 (bit (a 1) 3) (bit (a 2) 0) (bit (a 5) 1) (bit (a 5) 3) (bit (a 6) 2)
  let s4 := sboxOutput sbox4 (bit (a 3) 3) (bit (a 1) 1) (bit (a 2) 3) (bit (a 4) 2) (bit (a 8) 0)
  let s5 := sboxOutput sbox5 (bit (a 5) 2) (bit (a 4) 3) (bit (a 6) 0) (bit (a 8) 1) (bit (a 9) 2)
  let s6 := sboxOutput sbox6 (bit (a 3) 1) (bit (a 4) 1) (bit (a 5) 0) (bit (a 7) 2) (bit (a 9) 3)
  let s7 := sboxOutput sbox7 (bit (a 2) 2) (bit (a 3) 0) (bit (a 7) 1) (bit (a 8) 2) (bit (a 8) 3)
  let in1 := highNibble (input.getD 0)
  let in2 := lowNibble (input.getD 0)
  let a10 := a 10 ^^^ ctx.regX
  let nextA1 :=
    if input.isSome then a10 ^^^ ctx.regD ^^^ (if j % 2 = 1 then in2 else in1) else a10
  let b10 := b 7 ^^^ b 10 ^^^ ctx.regY
  let b10 := if input.isSome then b10 ^^^ (if j % 2 = 1 then in1 else in2) else b10
  let nextB1 := if ctx.p ≠ 0 then ((b10 <<< (1 : UInt8)) ||| bit b10 3) &&& 0x0F else b10
  let sum := ctx.regZ + ctx.regE + ctx.r
  { regA := shift ctx.regA nextA1
    regB := shift ctx.regB nextB1
    regX := outputNibble s4 s3 s2 s1
    regY := outputNibble s6 s5 s4 s3
    regZ := outputNibble s2 s1 s6 s5
    regD := ctx.regE ^^^ ctx.regZ ^^^ extraB ctx.regB
    regE := ctx.regF
    regF := if ctx.q ≠ 0 then sum &&& 0x0F else ctx.regE
    p := (s7 &&& 2) >>> 1
    q := s7 &&& 1
    r := if ctx.q ≠ 0 then bit sum 4 else ctx.r }

def outputBits (ctx : CSAStreamCipher) : UInt8 :=
  let pairs := ctx.regD ^^^ (ctx.regD >>> 1)
  ((pairs >>> (1 : UInt8)) &&& 2) ||| (pairs &&& 1)

/-- The output byte and the next state. -/
def cipherByte (ctx : CSAStreamCipher) (input : Option UInt8) : UInt8 × CSAStreamCipher :=
  let last := (List.range 4).foldl
    (fun (state : UInt8 × CSAStreamCipher) j ↦
      let next := state.2.iterate input j
      ((state.1 <<< 2) ^^^ next.outputBits, next))
    (0, ctx)
  (input.getD last.1, last.2)

def cipherBytes : CSAStreamCipher → List (Option UInt8) → ByteBlock × CSAStreamCipher
  | ctx, [] => ([], ctx)
  | ctx, input :: rest =>
    let first := ctx.cipherByte input
    let others := cipherBytes first.2 rest
    (first.1 :: others.1, others.2)

/-- Eight bytes of output and the next state. -/
def cipher (ctx : CSAStreamCipher) (sb : Option ByteBlock) : ByteBlock × CSAStreamCipher :=
  match sb with
  | some block => ctx.cipherBytes ((block.take 8).map some)
  | none => ctx.cipherBytes (List.replicate 8 none)

variable (ctx : CSAStreamCipher)

theorem length_cipherBytes (inputs : List (Option UInt8)) :
    (ctx.cipherBytes inputs).1.length = inputs.length := by
  induction inputs generalizing ctx with
  | nil => rfl
  | cons input rest ih =>
    rw [cipherBytes, List.length_cons, List.length_cons, ih]

theorem cipherBytes_some (block : ByteBlock) :
    (ctx.cipherBytes (block.map some)).1 = block := by
  induction block generalizing ctx with
  | nil => rfl
  | cons byte rest ih =>
    rw [List.map_cons, cipherBytes]
    exact congrArg (byte :: ·) (ih _)

theorem cipher_some {block : ByteBlock} (hlength : block.length = 8) :
    (ctx.cipher (some block)).1 = block := by
  rw [cipher, List.take_of_length_le hlength.le, cipherBytes_some]

@[simp] theorem length_cipher_none : (ctx.cipher none).1.length = 8 :=
  length_cipherBytes ctx _

end CSAStreamCipher

end TSDuck
