import TSDuck.Crypto.BlockCipher

/-!
# Cipher chaining

A message is encrypted and decrypted with a block cipher in one of several chaining modes. `CBC`
needs a multiple of the block size; the alternatives of cipher text stealing (`CTS1` to `CTS4`) and
`DVS042` process a residue after the last complete block, each in its own way.

The work buffer is always written before it is read, so that only its size is in the state.
-/

namespace TSDuck

open ChunkLoop

structure CipherChaining where
  algo : BlockCipher
  ivMinSize : ℕ
  ivMaxSize : ℕ
  iv : ByteBlock
  shortIV : ByteBlock
  workSize : ℕ

namespace CipherChaining

def new (cipher : BlockCipher) (ivMinBlocks ivMaxBlocks workBlocks : ℕ) : CipherChaining where
  algo := cipher
  ivMinSize := ivMinBlocks * cipher.blockSize
  ivMaxSize := ivMaxBlocks * cipher.blockSize
  iv := List.replicate (ivMaxBlocks * cipher.blockSize) 0
  shortIV := List.replicate cipher.blockSize 0
  workSize := workBlocks * cipher.blockSize

def setLongIV (chain : CipherChaining) (data : ByteBlock) : CipherChaining × Bool :=
  if chain.ivMinSize = 0 ∧ data.length = 0 then ({ chain with iv := [] }, true)
  else if data.length < chain.ivMinSize ∨ data.length > chain.ivMaxSize then
    ({ chain with iv := [] }, false)
  else ({ chain with iv := data }, true)

def setShortIV (chain : CipherChaining) (data : ByteBlock) : CipherChaining × Bool :=
  if chain.ivMinSize = 0 ∧ data.length = 0 then ({ chain with shortIV := [] }, true)
  else if data.length < chain.ivMinSize ∨ data.length > chain.ivMaxSize then
    ({ chain with shortIV := [] }, false)
  else ({ chain with shortIV := data }, true)

variable (chain : CipherChaining)

abbrev blockSize : ℕ :=
  chain.algo.blockSize

/-- The next block of cipher text. -/
def encryptBlock : Step UInt8 ByteBlock CipherFailure := fun previous block ↦
  (chain.algo.encrypt (xorBytes previous block)).map fun encrypted ↦ (encrypted, encrypted)

/-- The next block of plain text. -/
def decryptBlock : Step UInt8 ByteBlock CipherFailure := fun previous block ↦
  (chain.algo.decrypt block).map fun work ↦ (xorBytes previous work, block)

def encryptAlone : Step UInt8 Unit CipherFailure := fun _ block ↦
  (chain.algo.encrypt block).map fun encrypted ↦ (encrypted, ())

def decryptAlone : Step UInt8 Unit CipherFailure := fun _ block ↦
  (chain.algo.decrypt block).map fun decrypted ↦ (decrypted, ())

/-- Encrypts in CBC mode while more than a bound remains. -/
def encryptChained (bound : ℕ) (previous data : ByteBlock) :
    Except CipherFailure (Result UInt8 ByteBlock) :=
  run chain.algo.blockSize_pos bound chain.encryptBlock previous data

def decryptChained (bound : ℕ) (previous data : ByteBlock) :
    Except CipherFailure (Result UInt8 ByteBlock) :=
  run chain.algo.blockSize_pos bound chain.decryptBlock previous data

def encryptAll (bound : ℕ) (data : ByteBlock) : Except CipherFailure (Result UInt8 Unit) :=
  run chain.algo.blockSize_pos bound chain.encryptAlone () data

def decryptAll (bound : ℕ) (data : ByteBlock) : Except CipherFailure (Result UInt8 Unit) :=
  run chain.algo.blockSize_pos bound chain.decryptAlone () data

def encryptCBC (plain : ByteBlock) (maxSize : ℕ) : Except CipherFailure ByteBlock :=
  if chain.iv.length ≠ chain.blockSize ∨ chain.workSize < chain.blockSize ∨
      plain.length % chain.blockSize ≠ 0 ∨ maxSize < plain.length then .error .refused
  else (chain.encryptChained 0 chain.iv plain).map Result.done

def decryptCBC (cipher : ByteBlock) (maxSize : ℕ) : Except CipherFailure ByteBlock :=
  if chain.iv.length ≠ chain.blockSize ∨ chain.workSize < chain.blockSize ∨
      cipher.length % chain.blockSize ≠ 0 ∨ maxSize < cipher.length then .error .refused
  else (chain.decryptChained 0 chain.iv cipher).map Result.done

/-- The last two blocks are swapped, the padded one encrypted. -/
def encryptCTS1 (plain : ByteBlock) (maxSize : ℕ) : Except CipherFailure ByteBlock :=
  if chain.iv.length ≠ chain.blockSize ∨ chain.workSize < 2 * chain.blockSize ∨
      maxSize < plain.length then .error .refused
  else if plain.length ≤ chain.blockSize then .error .refused
  else
    (chain.encryptChained chain.blockSize chain.iv plain).bind fun loop ↦
      let padded := loop.rest ++ List.replicate (chain.blockSize - loop.rest.length) 0
      (chain.algo.encrypt (xorBytes loop.state padded)).map fun last ↦
        loop.done.take (loop.done.length - chain.blockSize) ++ last ++
          loop.state.take loop.rest.length

def decryptCTS1 (cipher : ByteBlock) (maxSize : ℕ) : Except CipherFailure ByteBlock :=
  if chain.iv.length ≠ chain.blockSize ∨ chain.workSize < 2 * chain.blockSize ∨
      maxSize < cipher.length then .error .refused
  else if cipher.length ≤ chain.blockSize then .error .refused
  else
    (chain.decryptChained (2 * chain.blockSize) chain.iv cipher).bind fun loop ↦
      let lastSize := loop.rest.length - chain.blockSize
      let padded := (loop.rest.drop chain.blockSize).take lastSize
      (chain.algo.decrypt (loop.rest.take chain.blockSize)).bind fun work ↦
        let last := xorBytes (work.take lastSize) padded
        -- The end of the previous cipher text block is in the work buffer.
        (chain.algo.decrypt (padded ++ work.drop lastSize)).map fun block ↦
          loop.done ++ xorBytes block loop.state ++ last

/-- An incomplete block gets the end of the previous one. -/
def encryptCTS2 (plain : ByteBlock) (maxSize : ℕ) : Except CipherFailure ByteBlock :=
  if chain.iv.length ≠ chain.blockSize ∨ chain.workSize < chain.blockSize ∨
      plain.length < chain.blockSize ∨ maxSize < plain.length then .error .refused
  else
    (chain.encryptChained (chain.blockSize - 1) chain.iv plain).bind fun loop ↦
      if loop.rest.length > 0 then
        let work := xorBytes loop.state loop.rest ++ loop.state.drop loop.rest.length
        (chain.algo.encrypt work).map fun last ↦
          loop.done.take (loop.done.length - chain.blockSize + loop.rest.length) ++ last
      else .ok loop.done

def decryptCTS2 (cipher : ByteBlock) (maxSize : ℕ) : Except CipherFailure ByteBlock :=
  if chain.iv.length ≠ chain.blockSize ∨ chain.workSize < chain.blockSize ∨
      cipher.length < chain.blockSize ∨ maxSize < cipher.length then .error .refused
  else
    let residueSize := cipher.length % chain.blockSize
    let trickSize := if residueSize = 0 then 0 else chain.blockSize + residueSize
    (chain.decryptChained trickSize chain.iv cipher).bind fun loop ↦
      if loop.rest.length > 0 then
        if loop.rest.length = trickSize then
          (chain.algo.decrypt ((loop.rest.drop residueSize).take chain.blockSize)).bind fun work ↦
            let last := xorBytes (loop.rest.take residueSize) (work.take residueSize)
            let work := loop.rest.take residueSize ++ work.drop residueSize
            (chain.algo.decrypt work).map fun block ↦
              loop.done ++ xorBytes block loop.state ++ last
        else .error .assertion
      else .ok loop.done

/-- The last two blocks are swapped, the last one padded. -/
def encryptCTS3 (plain : ByteBlock) (maxSize : ℕ) : Except CipherFailure ByteBlock :=
  if chain.workSize < chain.blockSize ∨ plain.length ≤ chain.blockSize ∨
      maxSize < plain.length then .error .refused
  else
    (chain.encryptAll (2 * chain.blockSize) plain).bind fun loop ↦
      if loop.rest.length > chain.blockSize then
        let residueSize := loop.rest.length - chain.blockSize
        (chain.algo.encrypt (loop.rest.take chain.blockSize)).bind fun work ↦
          let last := work.take residueSize
          let work := (loop.rest.drop chain.blockSize).take residueSize ++ work.drop residueSize
          (chain.algo.encrypt work).map fun block ↦ loop.done ++ block ++ last
      else .error .assertion

def decryptCTS3 (cipher : ByteBlock) (maxSize : ℕ) : Except CipherFailure ByteBlock :=
  if chain.workSize < chain.blockSize ∨ cipher.length ≤ chain.blockSize ∨
      maxSize < cipher.length then .error .refused
  else
    (chain.decryptAll (2 * chain.blockSize) cipher).bind fun loop ↦
      if loop.rest.length > chain.blockSize then
        let residueSize := loop.rest.length - chain.blockSize
        (chain.algo.decrypt (loop.rest.take chain.blockSize)).bind fun work ↦
          let last := work.take residueSize
          let work := (loop.rest.drop chain.blockSize).take residueSize ++ work.drop residueSize
          (chain.algo.decrypt work).map fun block ↦ loop.done ++ block ++ last
      else .error .assertion

/-- The last bytes are encrypted as a block, then those before. -/
def encryptCTS4 (plain : ByteBlock) (maxSize : ℕ) : Except CipherFailure ByteBlock :=
  if chain.workSize < chain.blockSize ∨ plain.length < chain.blockSize ∨
      maxSize < plain.length then .error .refused
  else
    (chain.encryptAll (2 * chain.blockSize) plain).bind fun loop ↦
      if loop.rest.length > chain.blockSize then
        let residueSize := loop.rest.length - chain.blockSize
        let work := (loop.rest.drop residueSize).take (chain.blockSize - residueSize) ++
          (loop.rest.drop chain.blockSize).take residueSize
        (chain.algo.encrypt work).bind fun last ↦
          let work := loop.rest.take residueSize ++ last.take (chain.blockSize - residueSize)
          (chain.algo.encrypt work).map fun block ↦
            loop.done ++ block ++ last.drop (chain.blockSize - residueSize)
      else .error .assertion

def decryptCTS4 (cipher : ByteBlock) (maxSize : ℕ) : Except CipherFailure ByteBlock :=
  if chain.workSize < chain.blockSize ∨ cipher.length < chain.blockSize ∨
      maxSize < cipher.length then .error .refused
  else
    (chain.decryptAll chain.blockSize cipher).bind fun loop ↦
      if loop.rest.length ≤ chain.blockSize then
        -- The cipher text of the last bytes is after the start of the last block which is decrypted.
        let start := loop.done.length + loop.rest.length - chain.blockSize
        let work := (loop.done.drop start).take (chain.blockSize - loop.rest.length) ++ loop.rest
        (chain.algo.decrypt work).map fun last ↦ loop.done.take start ++ last
      else .error .assertion

def selectIV (length : ℕ) : ByteBlock :=
  if length < chain.blockSize then chain.shortIV else chain.iv

/-- An incomplete block is combined with an encrypted one. -/
def encryptDVS042 (plain : ByteBlock) (maxSize : ℕ) : Except CipherFailure ByteBlock :=
  if chain.iv.length ≠ chain.blockSize ∨ chain.shortIV.length ≠ chain.blockSize ∨
      chain.workSize < chain.blockSize ∨ maxSize < plain.length then .error .refused
  else
    (chain.encryptChained (chain.blockSize - 1) (chain.selectIV plain.length) plain).bind fun loop ↦
      if loop.rest.length > 0 then
        (chain.algo.encrypt loop.state).map fun work ↦ loop.done ++ xorBytes work loop.rest
      else .ok loop.done

def decryptDVS042 (cipher : ByteBlock) (maxSize : ℕ) : Except CipherFailure ByteBlock :=
  if chain.iv.length ≠ chain.blockSize ∨ chain.shortIV.length ≠ chain.blockSize ∨
      chain.workSize < chain.blockSize ∨ maxSize < cipher.length then .error .refused
  else
    (chain.decryptChained (chain.blockSize - 1) (chain.selectIV cipher.length) cipher).bind fun loop ↦
      if loop.rest.length > 0 then
        (chain.algo.encrypt loop.state).map fun work ↦ loop.done ++ xorBytes work loop.rest
      else .ok loop.done

/-! ### The modes -/

end CipherChaining

inductive ChainingMode
  | cbc
  | cts1
  | cts2
  | cts3
  | cts4
  | dvs042
  deriving DecidableEq

namespace ChainingMode

def create (mode : ChainingMode) (cipher : BlockCipher) : CipherChaining :=
  match mode with
  | cbc => .new cipher 1 1 1
  | cts1 => .new cipher 1 1 2
  | cts2 => .new cipher 1 1 1
  | cts3 => .new cipher 0 0 1
  | cts4 => .new cipher 0 0 1
  | dvs042 => .new cipher 1 1 1

/-- Sets the initialization vector, of short blocks too. -/
def setIV (mode : ChainingMode) (chain : CipherChaining) (data : ByteBlock) :
    CipherChaining × Bool :=
  match mode with
  | dvs042 =>
    let long := chain.setLongIV data
    let short := long.1.setShortIV data
    (short.1, long.2 && short.2)
  | _ => chain.setLongIV data

def encrypt (mode : ChainingMode) (chain : CipherChaining) (plain : ByteBlock) (maxSize : ℕ) :
    Except CipherFailure ByteBlock :=
  match mode with
  | cbc => chain.encryptCBC plain maxSize
  | cts1 => chain.encryptCTS1 plain maxSize
  | cts2 => chain.encryptCTS2 plain maxSize
  | cts3 => chain.encryptCTS3 plain maxSize
  | cts4 => chain.encryptCTS4 plain maxSize
  | dvs042 => chain.encryptDVS042 plain maxSize

def decrypt (mode : ChainingMode) (chain : CipherChaining) (cipher : ByteBlock) (maxSize : ℕ) :
    Except CipherFailure ByteBlock :=
  match mode with
  | cbc => chain.decryptCBC cipher maxSize
  | cts1 => chain.decryptCTS1 cipher maxSize
  | cts2 => chain.decryptCTS2 cipher maxSize
  | cts3 => chain.decryptCTS3 cipher maxSize
  | cts4 => chain.decryptCTS4 cipher maxSize
  | dvs042 => chain.decryptDVS042 cipher maxSize

def encryptInPlace (mode : ChainingMode) (chain : CipherChaining) (data : ByteBlock)
    (maxActualLength : Option ℕ) : Except CipherFailure ByteBlock :=
  mode.encrypt chain data (maxActualLength.getD data.length)

def decryptInPlace (mode : ChainingMode) (chain : CipherChaining) (data : ByteBlock)
    (maxActualLength : Option ℕ) : Except CipherFailure ByteBlock :=
  mode.decrypt chain data (maxActualLength.getD data.length)

end ChainingMode

namespace CipherChaining

/-! ### The round trip of the loops -/

variable {chain : CipherChaining}

theorem decrypt_of_encrypt (hcipher : chain.algo.IsInverse) {block encrypted : ByteBlock}
    (hlength : block.length = chain.blockSize)
    (hencrypt : chain.algo.encrypt block = .ok encrypted) :
    encrypted.length = chain.blockSize ∧ chain.algo.decrypt encrypted = .ok block :=
  hcipher hlength hencrypt

theorem inverse_chained (hcipher : chain.algo.IsInverse) :
    Inverse chain.blockSize (fun previous ↦ previous.length = chain.blockSize) chain.encryptBlock
      chain.decryptBlock := by
  intro previous block out next hprevious hblock hstep
  obtain ⟨encrypted, hencrypted, hpair⟩ := map_eq_ok.mp hstep
  cases hpair
  have hlength : (xorBytes previous block).length = chain.blockSize := by
    rw [length_xorBytes, hprevious, hblock, Nat.min_self]
  obtain ⟨hout, hdecrypted⟩ := decrypt_of_encrypt hcipher hlength hencrypted
  refine ⟨hout, hout, ?_⟩
  rw [decryptBlock, hdecrypted]
  simp only [Except.map, xorBytes_cancel (hblock.trans hprevious.symm).le]

theorem inverse_alone (hcipher : chain.algo.IsInverse) :
    Inverse chain.blockSize (fun _ ↦ True) chain.encryptAlone chain.decryptAlone := by
  intro _ block out _ _ hblock hstep
  obtain ⟨encrypted, hencrypted, hpair⟩ := map_eq_ok.mp hstep
  cases hpair
  obtain ⟨hout, hdecrypted⟩ := decrypt_of_encrypt hcipher hblock hencrypted
  refine ⟨hout, trivial, ?_⟩
  rw [decryptAlone, hdecrypted]
  rfl

variable {plain cipher : ByteBlock} {maxSize plainMax bound : ℕ}

/-- What is encrypted in CBC mode is decrypted. -/
theorem decryptChained_encryptChained (hcipher : chain.algo.IsInverse) {previous : ByteBlock}
    (hprevious : previous.length = chain.blockSize) (hfull : Full chain.blockSize bound plain.length)
    {loop : Result UInt8 ByteBlock} (hloop : chain.encryptChained bound previous plain = .ok loop) :
    ∃ first, plain = first ++ loop.rest ∧ loop.done.length = first.length ∧
      loop.state.length = chain.blockSize ∧
      ∀ tail : ByteBlock, tail.length = loop.rest.length →
        chain.decryptChained bound previous (loop.done ++ tail) =
          .ok { done := first, state := loop.state, rest := tail } :=
  run_inverse (inverse_chained hcipher) hprevious hfull hloop

/-- What is encrypted in ECB mode is decrypted. -/
theorem decryptAll_encryptAll (hcipher : chain.algo.IsInverse)
    (hfull : Full chain.blockSize bound plain.length) {loop : Result UInt8 Unit}
    (hloop : chain.encryptAll bound plain = .ok loop) :
    ∃ first, plain = first ++ loop.rest ∧ loop.done.length = first.length ∧
      ∀ tail : ByteBlock, tail.length = loop.rest.length →
        chain.decryptAll bound (loop.done ++ tail) =
          .ok { done := first, state := loop.state, rest := tail } := by
  obtain ⟨first, hfirst, hdone, -, hgiven⟩ :=
    run_inverse (inverse_alone hcipher) trivial hfull hloop
  exact ⟨first, hfirst, hdone, hgiven⟩

/-! ### The round trip of each mode -/

theorem decryptCBC_encryptCBC (hcipher : chain.algo.IsInverse)
    (hencrypt : chain.encryptCBC plain maxSize = .ok cipher) (hmax : plain.length ≤ plainMax) :
    plain.length ≤ maxSize ∧ cipher.length = plain.length ∧
      chain.decryptCBC cipher plainMax = .ok plain := by
  rw [encryptCBC] at hencrypt
  split_ifs at hencrypt with hcheck
  obtain ⟨hiv, hwork, hmultiple, hsize⟩ := by simpa only [not_or, not_not, not_lt] using hcheck
  obtain ⟨loop, hloop, rfl⟩ := map_eq_ok.mp hencrypt
  have hfull := full_of_dvd (Nat.dvd_of_mod_eq_zero hmultiple)
  obtain ⟨first, hfirst, hdone, -, hgiven⟩ :=
    decryptChained_encryptChained hcipher hiv hfull hloop
  have hrest : loop.rest = [] :=
    List.length_eq_zero_iff.mp (Nat.le_zero.mp (length_rest hloop).1)
  rw [hrest, List.append_nil] at hfirst
  have hdecrypted := hgiven [] (by rw [hrest])
  rw [List.append_nil] at hdecrypted
  rw [← hfirst] at hdone
  refine ⟨hsize, hdone, ?_⟩
  rw [decryptCBC, if_neg, hdecrypted, hfirst]
  · rfl
  · simp only [not_or, not_not, not_lt, hdone]
    exact ⟨hiv, hwork, hmultiple, hmax⟩

theorem decryptDVS042_encryptDVS042 (hcipher : chain.algo.IsInverse)
    (hencrypt : chain.encryptDVS042 plain maxSize = .ok cipher) (hmax : plain.length ≤ plainMax) :
    plain.length ≤ maxSize ∧ cipher.length = plain.length ∧
      chain.decryptDVS042 cipher plainMax = .ok plain := by
  rw [encryptDVS042] at hencrypt
  split_ifs at hencrypt with hcheck
  obtain ⟨hiv, hshort, hwork, hsize⟩ := by simpa only [not_or, not_not, not_lt] using hcheck
  obtain ⟨loop, hloop, hlast⟩ := bind_eq_ok.mp hencrypt
  have hselect : (chain.selectIV plain.length).length = chain.blockSize := by
    rw [selectIV]
    split_ifs
    · exact hshort
    · exact hiv
  have hfull := full_of_le (show chain.blockSize ≤ chain.blockSize - 1 + 1 by omega) plain.length
  obtain ⟨first, hfirst, hdone, hstate, hgiven⟩ :=
    decryptChained_encryptChained hcipher hselect hfull hloop
  have hlength : plain.length = first.length + loop.rest.length := by
    rw [hfirst, List.length_append]
  have hrest := (length_rest hloop).1
  -- The decryption combines the incomplete block with the same bytes.
  have hdecrypt : ∀ tail : ByteBlock, tail.length = loop.rest.length →
      chain.decryptDVS042 (loop.done ++ tail) plainMax = if tail.length > 0 then
          (chain.algo.encrypt loop.state).map fun work ↦ first ++ xorBytes work tail
        else .ok first := by
    intro tail htail
    have hsame : (loop.done ++ tail).length = plain.length := by
      rw [List.length_append, hdone, htail, hlength]
    rw [decryptDVS042, if_neg, hsame, hgiven tail htail]
    · rfl
    · simp only [not_or, not_not, not_lt, hsame]
      exact ⟨hiv, hshort, hwork, hmax⟩
  split_ifs at hlast with hmore
  · obtain ⟨work, hwhiten, rfl⟩ := map_eq_ok.mp hlast
    have hworkLength : work.length = chain.blockSize := (decrypt_of_encrypt hcipher hstate hwhiten).1
    have htail : (xorBytes work loop.rest).length = loop.rest.length := by
      rw [length_xorBytes, Nat.min_eq_right (by omega)]
    refine ⟨hsize, by rw [List.length_append, hdone, htail, hlength], ?_⟩
    rw [hdecrypt _ htail, htail, if_pos hmore, hwhiten]
    simp only [Except.map, xorBytes_cancel (show loop.rest.length ≤ work.length by omega)]
    rw [← hfirst]
  · have hnil : loop.rest = [] := List.length_eq_zero_iff.mp (by omega)
    cases hlast
    rw [hnil, List.append_nil] at hfirst
    have hgivenNil := hdecrypt [] (by rw [hnil])
    rw [List.append_nil] at hgivenNil
    refine ⟨hsize, by rw [hdone, hfirst], ?_⟩
    rw [hgivenNil, hfirst]
    rfl

theorem decryptCTS3_encryptCTS3 (hcipher : chain.algo.IsInverse)
    (hencrypt : chain.encryptCTS3 plain maxSize = .ok cipher) (hmax : plain.length ≤ plainMax) :
    plain.length ≤ maxSize ∧ cipher.length = plain.length ∧
      chain.decryptCTS3 cipher plainMax = .ok plain := by
  rw [encryptCTS3] at hencrypt
  split_ifs at hencrypt with hcheck
  obtain ⟨hworkSize, hlong, hsize⟩ := by simpa only [not_or, not_le, not_lt] using hcheck
  obtain ⟨loop, hloop, hlast⟩ := bind_eq_ok.mp hencrypt
  have hfull := full_of_le (show chain.blockSize ≤ 2 * chain.blockSize + 1 by omega) plain.length
  obtain ⟨first, hfirst, hdone, hgiven⟩ := decryptAll_encryptAll hcipher hfull hloop
  have hlength : plain.length = first.length + loop.rest.length := by
    rw [hfirst, List.length_append]
  have hrest := (length_rest hloop).1
  split_ifs at hlast with hmore
  obtain ⟨head, hhead, hlast⟩ := bind_eq_ok.mp hlast
  obtain ⟨block, hblock, rfl⟩ := map_eq_ok.mp hlast
  generalize hresidue : loop.rest.length - chain.blockSize = residue at *
  have hresidueLe : residue ≤ chain.blockSize := by omega
  have htake : (loop.rest.take chain.blockSize).length = chain.blockSize := by
    rw [List.length_take, Nat.min_eq_left hmore.le]
  have hdrop : (loop.rest.drop chain.blockSize).length = residue := by
    rw [List.length_drop, hresidue]
  have hall : (loop.rest.drop chain.blockSize).take residue = loop.rest.drop chain.blockSize :=
    List.take_of_length_le hdrop.le
  rw [hall] at hblock
  obtain ⟨hheadLength, hheadBack⟩ := decrypt_of_encrypt hcipher htake hhead
  have hwork : (loop.rest.drop chain.blockSize ++ head.drop residue).length = chain.blockSize := by
    rw [List.length_append, hdrop, List.length_drop, hheadLength, Nat.add_sub_cancel' hresidueLe]
  obtain ⟨hblockLength, hblockBack⟩ := decrypt_of_encrypt hcipher hwork hblock
  have hlastLength : (head.take residue).length = residue := by
    rw [List.length_take, hheadLength, Nat.min_eq_left hresidueLe]
  have htail : (block ++ head.take residue).length = loop.rest.length := by
    rw [List.length_append, hblockLength, hlastLength]
    omega
  have hcipherLength : (loop.done ++ (block ++ head.take residue)).length = plain.length := by
    rw [List.length_append, hdone, htail, hlength]
  rw [List.append_assoc]
  refine ⟨hsize, hcipherLength, ?_⟩
  rw [decryptCTS3, if_neg, hgiven _ htail]
  · simp only [Except.bind, htail, hmore, if_true, hresidue]
    rw [List.take_left' hblockLength, hblockBack]
    dsimp only
    rw [List.drop_left' hblockLength, List.take_of_length_le hlastLength.le,
      List.take_left' hdrop, List.drop_left' hdrop, List.take_append_drop, hheadBack]
    simp only [Except.map]
    rw [List.append_assoc, List.take_append_drop, ← hfirst]
  · simp only [not_or, not_le, not_lt, hcipherLength]
    exact ⟨hworkSize, hlong, hmax⟩

theorem decryptCTS4_encryptCTS4 (hcipher : chain.algo.IsInverse)
    (hencrypt : chain.encryptCTS4 plain maxSize = .ok cipher) (hmax : plain.length ≤ plainMax) :
    plain.length ≤ maxSize ∧ cipher.length = plain.length ∧
      chain.decryptCTS4 cipher plainMax = .ok plain := by
  rw [encryptCTS4] at hencrypt
  split_ifs at hencrypt with hcheck
  obtain ⟨hworkSize, hlong, hsize⟩ := by simpa only [not_or, not_le, not_lt] using hcheck
  obtain ⟨loop, hloop, hlast⟩ := bind_eq_ok.mp hencrypt
  have hfull := full_of_le (show chain.blockSize ≤ 2 * chain.blockSize + 1 by omega) plain.length
  obtain ⟨first, hfirst, hdone, hgiven⟩ := decryptAll_encryptAll hcipher hfull hloop
  have hlength : plain.length = first.length + loop.rest.length := by
    rw [hfirst, List.length_append]
  have hrest := (length_rest hloop).1
  split_ifs at hlast with hmore
  obtain ⟨last, hlastBlock, hlast⟩ := bind_eq_ok.mp hlast
  obtain ⟨block, hblock, rfl⟩ := map_eq_ok.mp hlast
  generalize hresidue : loop.rest.length - chain.blockSize = residue at *
  have hresidueLe : residue ≤ chain.blockSize := by omega
  -- The block which is encrypted first is the end of the message.
  have hend : (loop.rest.drop residue).take (chain.blockSize - residue) ++
      (loop.rest.drop chain.blockSize).take residue = loop.rest.drop residue := by
    have hall : (loop.rest.drop chain.blockSize).take residue = loop.rest.drop chain.blockSize :=
      List.take_of_length_le (by rw [List.length_drop, hresidue])
    have hdrop : loop.rest.drop chain.blockSize =
        (loop.rest.drop residue).drop (chain.blockSize - residue) := by
      rw [List.drop_drop, Nat.add_sub_cancel' hresidueLe]
    rw [hall, hdrop, List.take_append_drop]
  rw [hend] at hlastBlock
  have hendLength : (loop.rest.drop residue).length = chain.blockSize := by
    rw [List.length_drop]
    omega
  obtain ⟨hlastLength, hlastBack⟩ := decrypt_of_encrypt hcipher hendLength hlastBlock
  have hstart : (loop.rest.take residue).length = residue := by
    rw [List.length_take]
    omega
  have hwork : (loop.rest.take residue ++ last.take (chain.blockSize - residue)).length =
      chain.blockSize := by
    rw [List.length_append, hstart, List.length_take, hlastLength,
      Nat.min_eq_left (Nat.sub_le _ _), Nat.add_sub_cancel' hresidueLe]
  obtain ⟨hblockLength, hblockBack⟩ := decrypt_of_encrypt hcipher hwork hblock
  have htailEnd : (last.drop (chain.blockSize - residue)).length = residue := by
    rw [List.length_drop, hlastLength]
    omega
  have htail : (block ++ last.drop (chain.blockSize - residue)).length = loop.rest.length := by
    rw [List.length_append, hblockLength, htailEnd]
    omega
  have hcipherLength :
      (loop.done ++ (block ++ last.drop (chain.blockSize - residue))).length = plain.length := by
    rw [List.length_append, hdone, htail, hlength]
  -- The decryption processes one more block in its loop.
  have hdecrypted : chain.decryptAll chain.blockSize
      (loop.done ++ (block ++ last.drop (chain.blockSize - residue))) =
        .ok { done := first ++ (loop.rest.take residue ++ last.take (chain.blockSize - residue))
              state := ()
              rest := last.drop (chain.blockSize - residue) } := by
    have hmoreBlock : chain.blockSize < (block ++ last.drop (chain.blockSize - residue)).length := by
      rw [htail]
      exact hmore
    have hfront := hgiven _ htail
    rw [decryptAll] at hfront ⊢
    rw [run_run (show chain.blockSize ≤ 2 * chain.blockSize by omega), hfront]
    refine map_eq_ok.mpr ⟨_, (run_eq_ok_iff hmoreBlock).mpr
      ⟨loop.rest.take residue ++ last.take (chain.blockSize - residue), (), _, ?_, run_of_le ?_, rfl⟩,
      ?_⟩
    · rw [List.take_left' hblockLength, decryptAlone, hblockBack]
      rfl
    · rw [List.drop_left' hblockLength, htailEnd]
      exact hresidueLe
    · simp only [List.append_nil, List.drop_left' hblockLength]
  rw [List.append_assoc]
  refine ⟨hsize, hcipherLength, ?_⟩
  rw [decryptCTS4, if_neg, hdecrypted]
  · have hindex : (first ++ (loop.rest.take residue ++
        last.take (chain.blockSize - residue))).length + residue - chain.blockSize =
          first.length + residue := by
      rw [List.length_append, hwork]
      omega
    have hcut : (last.take (chain.blockSize - residue)).take (chain.blockSize - residue) =
        last.take (chain.blockSize - residue) := by
      rw [List.take_take, Nat.min_self]
    simp only [Except.bind, htailEnd, hresidueLe, if_true, hindex]
    rw [← List.append_assoc first, List.drop_left' (by rw [List.length_append, hstart]), hcut,
      List.take_append_drop, hlastBack]
    simp only [Except.map]
    rw [List.take_left' (by rw [List.length_append, hstart]), List.append_assoc,
      List.take_append_drop, ← hfirst]
  · simp only [not_or, not_lt, hcipherLength]
    exact ⟨hworkSize, hlong, hmax⟩

/-- The last block of a loop in CBC mode and its surroundings. -/
theorem encryptChained_last (hcipher : chain.algo.IsInverse) {previous : ByteBlock}
    (hprevious : previous.length = chain.blockSize) (hbound : chain.blockSize ≤ bound + 1)
    (hlt : bound < plain.length) {loop : Result UInt8 ByteBlock}
    (hloop : chain.encryptChained bound previous plain = .ok loop) :
    ∃ first front state rest, plain = first ++ rest ∧
      (bound < rest.length ∧ rest.length ≤ bound + chain.blockSize) ∧
      loop.done = front ++ loop.state ∧ loop.rest = rest.drop chain.blockSize ∧
      (front.length = first.length ∧ chain.blockSize ∣ front.length) ∧
      (loop.state.length = chain.blockSize ∧ state.length = chain.blockSize) ∧
      chain.algo.decrypt loop.state = .ok (xorBytes state (rest.take chain.blockSize)) ∧
      ∀ tail : ByteBlock, tail.length = rest.length →
        chain.decryptChained (bound + chain.blockSize) previous (front ++ tail) =
          .ok { done := first, state := state, rest := tail } := by
  obtain ⟨front, out, hfront, hrest, hstep, hdone, hlast⟩ := run_last hlt hloop
  have hfull := full_of_le (show chain.blockSize ≤ bound + chain.blockSize + 1 by omega) plain.length
  obtain ⟨first, hfirst, hlength, hstate, hgiven⟩ :=
    decryptChained_encryptChained hcipher hprevious hfull hfront
  have hdvd := dvd_length_done (inverse_chained hcipher) hprevious hfull hfront
  obtain ⟨encrypted, hencrypted, hpair⟩ := map_eq_ok.mp hstep
  obtain ⟨rfl, hsame⟩ := Prod.mk.inj hpair
  have hblock : (front.rest.take chain.blockSize).length = chain.blockSize := by
    rw [List.length_take, Nat.min_eq_left]
    omega
  obtain ⟨hsize, hback⟩ := decrypt_of_encrypt hcipher (by
    rw [length_xorBytes, hstate, hblock, Nat.min_self]) hencrypted
  rw [hsame] at hsize hback hdone
  exact ⟨first, front.done, front.state, front.rest, hfirst, hrest, hdone, hlast,
    ⟨hlength, hdvd⟩, ⟨hsize, hstate⟩, hback, hgiven⟩

theorem decryptCTS1_encryptCTS1 (hcipher : chain.algo.IsInverse)
    (hencrypt : chain.encryptCTS1 plain maxSize = .ok cipher) (hmax : plain.length ≤ plainMax) :
    plain.length ≤ maxSize ∧ cipher.length = plain.length ∧
      chain.decryptCTS1 cipher plainMax = .ok plain := by
  rw [encryptCTS1] at hencrypt
  split_ifs at hencrypt with hcheck hshort
  obtain ⟨hiv, hworkSize, hsize⟩ := by simpa only [not_or, not_not, not_lt] using hcheck
  obtain ⟨loop, hloop, hlast⟩ := bind_eq_ok.mp hencrypt
  obtain ⟨last, hlastBlock, rfl⟩ := map_eq_ok.mp hlast
  obtain ⟨first, front, state, rest, hfirst, hrest, hdone, hloopRest, ⟨hfront, -⟩,
    ⟨hloopState, hstate⟩, hback, hgiven⟩ :=
    encryptChained_last hcipher hiv (Nat.le_succ _) (Nat.not_le.mp hshort) hloop
  have hlength : plain.length = first.length + rest.length := by rw [hfirst, List.length_append]
  rw [hloopRest] at hlastBlock ⊢
  have hresidue : (rest.drop chain.blockSize).length = rest.length - chain.blockSize :=
    List.length_drop
  have hblock : (rest.take chain.blockSize).length = chain.blockSize := by
    rw [List.length_take, Nat.min_eq_left hrest.1.le]
  have hrestLength : chain.blockSize + (rest.drop chain.blockSize).length = rest.length := by omega
  have hresidueLe : (rest.drop chain.blockSize).length ≤ chain.blockSize := by omega
  have hrestEq := List.take_append_drop chain.blockSize rest
  generalize rest.drop chain.blockSize = residue at *
  generalize rest.take chain.blockSize = block at *
  -- The padding completes the last block.
  have hpadded : (residue ++ List.replicate (chain.blockSize - residue.length) 0).length =
      chain.blockSize := by
    rw [List.length_append, List.length_replicate, Nat.add_sub_cancel' hresidueLe]
  have hcombined : (xorBytes loop.state (residue ++
      List.replicate (chain.blockSize - residue.length) 0)).length = chain.blockSize := by
    rw [length_xorBytes, hloopState, hpadded, Nat.min_self]
  obtain ⟨hlastLength, hlastBack⟩ := decrypt_of_encrypt hcipher hcombined hlastBlock
  have hstolen : (loop.state.take residue.length).length = residue.length := by
    rw [List.length_take, hloopState, Nat.min_eq_left hresidueLe]
  have htail : (last ++ loop.state.take residue.length).length = rest.length := by
    rw [List.length_append, hlastLength, hstolen, hrestLength]
  have hdoneFront : loop.done.take (loop.done.length - chain.blockSize) = front := by
    rw [hdone, List.length_append, hloopState, Nat.add_sub_cancel, List.take_left' rfl]
  have hcipherLength : (front ++ (last ++ loop.state.take residue.length)).length =
      plain.length := by
    rw [List.length_append, hfront, htail, hlength]
  -- The residue is where the message is, and the zeros are where the stolen bytes are.
  have hresidueBack : xorBytes ((xorBytes loop.state (residue ++
      List.replicate (chain.blockSize - residue.length) 0)).take residue.length)
        (loop.state.take residue.length) = residue := by
    rw [take_xorBytes, List.take_left' rfl, xorBytes_comm, xorBytes_cancel hstolen.ge]
  have hstolenBack : loop.state.take residue.length ++ (xorBytes loop.state (residue ++
      List.replicate (chain.blockSize - residue.length) 0)).drop residue.length = loop.state := by
    have hdropLength : chain.blockSize - residue.length =
        (loop.state.drop residue.length).length := by rw [List.length_drop, hloopState]
    rw [drop_xorBytes, List.drop_left' rfl, hdropLength, xorBytes_zeros, List.take_append_drop]
  have hblockBack : xorBytes (xorBytes state block) state = block := by
    rw [xorBytes_comm, xorBytes_cancel (hblock.trans hstate.symm).le]
  rw [hdoneFront, List.append_assoc]
  refine ⟨hsize, hcipherLength, ?_⟩
  rw [decryptCTS1, if_neg, if_neg, Nat.two_mul, hgiven _ htail]
  · have hresidueSize : rest.length - chain.blockSize = residue.length := by omega
    simp only [Except.bind, htail, hresidueSize]
    rw [List.take_left' hlastLength, List.drop_left' hlastLength,
      List.take_of_length_le hstolen.le, hlastBack]
    dsimp only
    rw [hstolenBack, hback, hresidueBack]
    simp only [Except.map]
    rw [hblockBack, List.append_assoc, hrestEq, ← hfirst]
  · rw [hcipherLength]
    exact hshort
  · simp only [not_or, not_not, not_lt, hcipherLength]
    exact ⟨hiv, hworkSize, hmax⟩

theorem decryptCTS2_encryptCTS2 (hcipher : chain.algo.IsInverse)
    (hencrypt : chain.encryptCTS2 plain maxSize = .ok cipher) (hmax : plain.length ≤ plainMax) :
    plain.length ≤ maxSize ∧ cipher.length = plain.length ∧
      chain.decryptCTS2 cipher plainMax = .ok plain := by
  rw [encryptCTS2] at hencrypt
  split_ifs at hencrypt with hcheck
  obtain ⟨hiv, hworkSize, hlong, hsize⟩ := by simpa only [not_or, not_not, not_lt] using hcheck
  obtain ⟨loop, hloop, hlast⟩ := bind_eq_ok.mp hencrypt
  have hpos := chain.algo.blockSize_pos
  have hone : chain.blockSize ≤ chain.blockSize - 1 + 1 := by omega
  have hbefore : chain.blockSize - 1 < plain.length := by
    have hposBlock : 0 < chain.blockSize := hpos
    omega
  split_ifs at hlast with hmore
  · obtain ⟨last, hlastBlock, rfl⟩ := map_eq_ok.mp hlast
    obtain ⟨first, front, state, rest, hfirst, hrest, hdone, hloopRest, ⟨hfront, hdvd⟩,
      ⟨hloopState, hstate⟩, hback, hgiven⟩ :=
      encryptChained_last hcipher hiv hone hbefore hloop
    have hlength : plain.length = first.length + rest.length := by rw [hfirst, List.length_append]
    have hblock : (rest.take chain.blockSize).length = chain.blockSize := by
      rw [List.length_take, Nat.min_eq_left (by omega)]
    have hresidue : loop.rest.length = rest.length - chain.blockSize := by
      rw [hloopRest, List.length_drop]
    have hresidueLt : loop.rest.length < chain.blockSize := by omega
    have hrestEq := List.take_append_drop chain.blockSize rest
    rw [← hloopRest] at hrestEq
    generalize rest.take chain.blockSize = block at *
    have hstolen : (loop.state.take loop.rest.length).length = loop.rest.length := by
      rw [List.length_take, hloopState, Nat.min_eq_left hresidueLt.le]
    have hcombined : xorBytes loop.state loop.rest =
        xorBytes (loop.state.take loop.rest.length) loop.rest := by
      have hall : (xorBytes loop.state loop.rest).length ≤ loop.rest.length := by
        rw [length_xorBytes]
        exact Nat.min_le_right _ _
      rw [← List.take_of_length_le hall, take_xorBytes, List.take_length]
    have hcombinedLength : (xorBytes loop.state loop.rest).length = loop.rest.length := by
      rw [length_xorBytes, hloopState, Nat.min_eq_right hresidueLt.le]
    have hwork : (xorBytes loop.state loop.rest ++ loop.state.drop loop.rest.length).length =
        chain.blockSize := by
      rw [List.length_append, hcombinedLength, List.length_drop, hloopState,
        Nat.add_sub_cancel' hresidueLt.le]
    obtain ⟨hlastLength, hlastBack⟩ := decrypt_of_encrypt hcipher hwork hlastBlock
    have htail : (loop.state.take loop.rest.length ++ last).length = rest.length := by
      rw [List.length_append, hlastLength, hstolen]
      omega
    have hdoneFront : loop.done.take (loop.done.length - chain.blockSize + loop.rest.length) ++ last =
        front ++ (loop.state.take loop.rest.length ++ last) := by
      rw [hdone, List.length_append, hloopState, Nat.add_sub_cancel, List.take_length_add_append,
        List.append_assoc]
    have hcipherLength : (front ++ (loop.state.take loop.rest.length ++ last)).length =
        plain.length := by
      rw [List.length_append, hfront, htail, hlength]
    have hmod : plain.length % chain.blockSize = loop.rest.length := by
      obtain ⟨count, hcount⟩ := hdvd
      have hsum : plain.length = loop.rest.length + chain.blockSize * (count + 1) := by
        rw [hlength, ← hfront, hcount, Nat.mul_succ]
        omega
      rw [hsum, Nat.add_mul_mod_self_left, Nat.mod_eq_of_lt hresidueLt]
    have htrick : rest.length = chain.blockSize + loop.rest.length := by omega
    have hdecrypted : chain.decryptChained (chain.blockSize + loop.rest.length) chain.iv
        (front ++ (loop.state.take loop.rest.length ++ last)) =
          .ok { done := first, state := state, rest := loop.state.take loop.rest.length ++ last } := by
      have hfrontRun := hgiven _ htail
      rw [decryptChained] at hfrontRun ⊢
      exact run_of_run (by omega) hfrontRun (htail.trans htrick).le
    have hblockBack : xorBytes (xorBytes state block) state = block := by
      rw [xorBytes_comm, xorBytes_cancel (hblock.trans hstate.symm).le]
    rw [hdoneFront]
    refine ⟨hsize, hcipherLength, ?_⟩
    rw [decryptCTS2, if_neg, hcipherLength, hmod]
    · have hnonzero : loop.rest.length ≠ 0 := by omega
      simp only [hnonzero, if_false, hdecrypted, Except.bind, htail, htrick, if_true]
      rw [if_pos (by omega), List.drop_left' hstolen, List.take_of_length_le hlastLength.le, hlastBack]
      dsimp only
      rw [List.take_left' hstolen, List.take_left' hcombinedLength, List.drop_left' hcombinedLength,
        List.take_append_drop, hback, hcombined, xorBytes_cancel hstolen.ge]
      simp only [Except.map]
      rw [hblockBack, List.append_assoc, hrestEq, ← hfirst]
    · simp only [not_or, not_not, not_lt, hcipherLength]
      exact ⟨hiv, hworkSize, hlong, hmax⟩
  · cases hlast
    have hnil : loop.rest = [] := List.length_eq_zero_iff.mp (by omega)
    have hfull := full_of_le hone plain.length
    obtain ⟨first, hfirst, hdone, -, hgiven⟩ :=
      decryptChained_encryptChained hcipher hiv hfull hloop
    have hdvd := dvd_length_done (inverse_chained hcipher) hiv hfull hloop
    rw [hnil, List.append_nil] at hfirst
    have hdecrypted := hgiven [] (by rw [hnil])
    rw [List.append_nil] at hdecrypted
    rw [← hfirst] at hdone hdecrypted
    refine ⟨hsize, hdone, ?_⟩
    rw [decryptCTS2, if_neg, Nat.mod_eq_zero_of_dvd hdvd]
    · simp only [if_true]
      rw [decryptChained] at hdecrypted ⊢
      rw [run_of_run (Nat.zero_le _) hdecrypted (Nat.zero_le _)]
      rfl
    · simp only [not_or, not_not, not_lt, hdone]
      exact ⟨hiv, hworkSize, hlong, hmax⟩

end CipherChaining

theorem ChainingMode.decrypt_of_encrypt (mode : ChainingMode) {chain : CipherChaining}
    (hcipher : chain.algo.IsInverse) {plain cipher : ByteBlock} {maxSize plainMax : ℕ}
    (hencrypt : mode.encrypt chain plain maxSize = .ok cipher) (hmax : plain.length ≤ plainMax) :
    plain.length ≤ maxSize ∧ cipher.length = plain.length ∧
      mode.decrypt chain cipher plainMax = .ok plain := by
  cases mode with
  | cbc => exact CipherChaining.decryptCBC_encryptCBC hcipher hencrypt hmax
  | cts1 => exact CipherChaining.decryptCTS1_encryptCTS1 hcipher hencrypt hmax
  | cts2 => exact CipherChaining.decryptCTS2_encryptCTS2 hcipher hencrypt hmax
  | cts3 => exact CipherChaining.decryptCTS3_encryptCTS3 hcipher hencrypt hmax
  | cts4 => exact CipherChaining.decryptCTS4_encryptCTS4 hcipher hencrypt hmax
  | dvs042 => exact CipherChaining.decryptDVS042_encryptDVS042 hcipher hencrypt hmax

/-- In each mode, with any block cipher and any state, a message which is encrypted is given back by
the decryption with the same parameters, also in place. -/
theorem ChainingMode.decrypt_encrypt (mode : ChainingMode) (chain : CipherChaining)
    (hcipher : chain.algo.IsInverse) (plain cipher : ByteBlock) :
    (∀ maxSize, mode.encrypt chain plain maxSize = .ok cipher →
      mode.decrypt chain cipher maxSize = .ok plain) ∧
    ∀ maxLength, mode.encryptInPlace chain plain maxLength = .ok cipher →
      mode.decryptInPlace chain cipher maxLength = .ok plain ∧
        mode.decryptInPlace chain cipher (maxLength.map fun _ ↦ cipher.length) = .ok plain := by
  constructor
  · intro maxSize hencrypt
    obtain ⟨hmax, -, -⟩ := mode.decrypt_of_encrypt hcipher hencrypt le_rfl
    exact (mode.decrypt_of_encrypt hcipher hencrypt hmax).2.2
  · intro maxLength hencrypt
    obtain ⟨hmax, hlength, -⟩ := mode.decrypt_of_encrypt hcipher hencrypt le_rfl
    refine ⟨(mode.decrypt_of_encrypt hcipher hencrypt ?_).2.2,
      (mode.decrypt_of_encrypt hcipher hencrypt ?_).2.2⟩
    · rwa [hlength]
    · cases maxLength <;> exact hlength.ge

def complementCipher : BlockCipher where
  blockSize := 4
  blockSize_pos := by decide
  encrypt block := if block.length = 4 then .ok (block.map fun byte ↦ ~~~byte) else .error .refused
  decrypt block := if block.length = 4 then .ok (block.map fun byte ↦ ~~~byte) else .error .refused

theorem complementCipher_isInverse : complementCipher.IsInverse := by
  intro block encrypted hlength hencrypt
  have hfour : block.length = 4 := hlength
  simp only [complementCipher, hfour, if_true, Except.ok.injEq] at hencrypt
  have hback : (block.map fun byte ↦ ~~~byte).map (fun byte ↦ ~~~byte) = block := by
    rw [List.map_map]
    exact (List.map_congr_left fun byte _ ↦ UInt8.not_not).trans (List.map_id' block)
  rw [← hencrypt]
  simp only [complementCipher, List.length_map, hfour, if_true, hback, and_self]

/-- Six bytes in CTS2 mode. -/
theorem ChainingMode.decrypt_six_bytes :
    cts2.decrypt (cts2.create complementCipher) [254, 253, 4, 4, 3, 4] 6 =
      .ok [1, 2, 3, 4, 5, 6] := by
  refine (cts2.decrypt_encrypt (cts2.create complementCipher) complementCipher_isInverse
    [1, 2, 3, 4, 5, 6] _).1 6 ?_
  simp [encrypt, create, CipherChaining.new, CipherChaining.encryptCTS2,
    CipherChaining.blockSize, CipherChaining.encryptChained, CipherChaining.encryptBlock,
    complementCipher, xorBytes, run, Except.bind, Except.map]
  decide

end TSDuck
