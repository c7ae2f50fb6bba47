import TSDuck.Crypto.CSABlockCipher
import TSDuck.Crypto.CSAStreamCipher

/-!
# DVB-CSA2

The Common Scrambling Algorithm of DVB. The complete blocks of the data are chained by the block
cipher from the last one to the first one, after which the stream cipher, which is initialized with
the first encrypted block, is combined with all other blocks and with the residue.

`DVBCSA2.decryptInPlace_encryptInPlace` is the round trip.
-/

namespace TSDuck

/-- Control word entropy reduction. -/
inductive EntropyMode
  | fullCW
  | reduceEntropy
  deriving DecidableEq

/-- A DVB-CSA2 scrambler or descrambler. -/
structure DVBCSA2 where
  initialized : Bool
  mode : EntropyMode
  key : ByteBlock
  block : List UInt8
  stream : CSAStreamCipher

namespace DVBCSA2

def keySize : ℕ := 8

def maxNBlocks : ℕ := 184 / 8

def initVector : ByteBlock :=
  List.replicate 8 0

def reduceCW (cw : ByteBlock) : ByteBlock :=
  let first := cw.set 3 (byteAt cw 0 + byteAt cw 1 + byteAt cw 2)
  first.set 7 (byteAt first 4 + byteAt first 5 + byteAt first 6)

def new (mode : EntropyMode) : DVBCSA2 where
  initialized := false
  mode := mode
  key := List.replicate keySize 0
  block := []
  stream := CSAStreamCipher.init []

def setKey (csa : DVBCSA2) (key : ByteBlock) : DVBCSA2 × Bool :=
  if key.length ≠ keySize then (csa, false)
  else
    let cw := if csa.mode = .reduceEntropy then reduceCW key else key
    ({ csa with
        initialized := true
        key := cw
        block := CSABlockCipher.scheduledKeys cw
        stream := CSAStreamCipher.init cw }, true)

def blocks : ℕ → ByteBlock → List ByteBlock
  | 0, _ => []
  | count + 1, data => data.take 8 :: blocks count (data.drop 8)

/-- The intermediate blocks, from the last one to the first. -/
def intermediateBlocks (kk : List UInt8) : List ByteBlock → List ByteBlock
  | [] => []
  | block :: rest =>
    let ib := intermediateBlocks kk rest
    CSABlockCipher.encipher kk (xorBytes block (ib.headD initVector)) :: ib

def streamBlocks : CSAStreamCipher → List ByteBlock → List ByteBlock × CSAStreamCipher
  | ctx, [] => ([], ctx)
  | ctx, block :: rest =>
    let ostream := ctx.cipher none
    let others := streamBlocks ostream.2 rest
    (xorBytes block ostream.1 :: others.1, others.2)

def streamResidue (ctx : CSAStreamCipher) (residue : ByteBlock) : ByteBlock :=
  if residue.length > 0 then xorBytes residue (ctx.cipher none).1 else residue

/-- Encrypts a message, with a control word only. -/
def encryptInPlace (csa : DVBCSA2) (data : ByteBlock) : Option ByteBlock :=
  let nblocks := data.length / 8
  if nblocks > maxNBlocks ∨ ¬csa.initialized then none
  else if data.length < 8 then some data
  else
    let ib := intermediateBlocks csa.block (blocks nblocks data)
    let first := ib.headD initVector
    let ctx := (csa.stream.cipher (some first)).2
    let others := streamBlocks ctx ib.tail
    some (first ++ others.1.flatten ++ streamResidue others.2 (data.drop (8 * nblocks)))

/-- Decrypts each block when the next intermediate is known. -/
def decryptBlocks (kk : List UInt8) :
    CSAStreamCipher → ByteBlock → List ByteBlock → List ByteBlock × CSAStreamCipher
  | ctx, ib, [] => ([CSABlockCipher.decipher kk ib], ctx)
  | ctx, ib, block :: rest =>
    let oblock := CSABlockCipher.decipher kk ib
    let ostream := ctx.cipher none
    let next := xorBytes block ostream.1
    let others := decryptBlocks kk ostream.2 next rest
    (xorBytes next oblock :: others.1, others.2)

/-- Decrypts a message, with a control word only. -/
def decryptInPlace (csa : DVBCSA2) (data : ByteBlock) : Option ByteBlock :=
  let nblocks := data.length / 8
  if nblocks > maxNBlocks ∨ ¬csa.initialized then none
  else if data.length < 8 then some data
  else
    let ib := csa.stream.cipher (some (data.take 8))
    let plain := decryptBlocks csa.block ib.2 ib.1 (blocks (nblocks - 1) (data.drop 8))
    some (plain.1.flatten ++ streamResidue plain.2 (data.drop (8 * nblocks)))

theorem length_blocks (count : ℕ) (data : ByteBlock) : (blocks count data).length = count := by
  induction count generalizing data with
  | zero => rfl
  | succ count ih => rw [blocks, List.length_cons, ih]

variable {block residue : ByteBlock} {parts : List ByteBlock} {csa : DVBCSA2}

theorem length_of_mem_blocks {count : ℕ} {data : ByteBlock} (hcount : 8 * count ≤ data.length)
    (hmem : block ∈ blocks count data) : block.length = 8 := by
  induction count generalizing data with
  | zero => cases hmem
  | succ count ih =>
    rcases List.mem_cons.mp hmem with rfl | hrest
    · rw [List.length_take]
      omega
    · refine ih ?_ hrest
      rw [List.length_drop]
      omega

theorem flatten_blocks (count : ℕ) (data : ByteBlock) :
    (blocks count data).flatten = data.take (8 * count) := by
  induction count generalizing data with
  | zero => rfl
  | succ count ih => rw [blocks, List.flatten_cons, ih, ← List.take_add, Nat.mul_succ, Nat.add_comm]

theorem blocks_flatten (hparts : ∀ part ∈ parts, part.length = 8) (residue : ByteBlock) :
    blocks parts.length (parts.flatten ++ residue) = parts := by
  induction parts with
  | nil => rfl
  | cons part rest ih =>
    have hpart : part.length = 8 := hparts part List.mem_cons_self
    rw [List.length_cons, blocks, List.flatten_cons, List.append_assoc, List.take_left' hpart,
      List.drop_left' hpart, ih (List.forall_mem_cons.mp hparts).2]

theorem length_flatten (hparts : ∀ part ∈ parts, part.length = 8) :
    parts.flatten.length = 8 * parts.length := by
  induction parts with
  | nil => rfl
  | cons part rest ih =>
    rw [List.flatten_cons, List.length_append, hparts part List.mem_cons_self,
      ih (List.forall_mem_cons.mp hparts).2, List.length_cons]
    omega

variable (kk : List UInt8)

theorem length_intermediateBlocks (parts : List ByteBlock) :
    (intermediateBlocks kk parts).length = parts.length := by
  induction parts with
  | nil => rfl
  | cons block rest ih => rw [intermediateBlocks, List.length_cons, ih, List.length_cons]

theorem length_of_mem_intermediateBlocks {kk : List UInt8} (hmem : block ∈ intermediateBlocks kk parts) :
    block.length = 8 := by
  induction parts with
  | nil => cases hmem
  | cons first rest ih =>
    rcases List.mem_cons.mp hmem with rfl | hrest
    · rfl
    · exact ih hrest

theorem length_headD_intermediateBlocks (parts : List ByteBlock) :
    ((intermediateBlocks kk parts).headD initVector).length = 8 := by
  cases parts with
  | nil => rfl
  | cons first rest => rfl

variable (ctx : CSAStreamCipher)

theorem length_streamBlocks (parts : List ByteBlock) :
    (streamBlocks ctx parts).1.length = parts.length := by
  induction parts generalizing ctx with
  | nil => rfl
  | cons block rest ih => rw [streamBlocks, List.length_cons, ih, List.length_cons]

theorem length_of_mem_streamBlocks {ctx : CSAStreamCipher} (hparts : ∀ part ∈ parts, part.length = 8)
    (hmem : block ∈ (streamBlocks ctx parts).1) : block.length = 8 := by
  induction parts generalizing ctx with
  | nil => cases hmem
  | cons first rest ih =>
    rcases List.mem_cons.mp hmem with rfl | hrest
    · rw [length_xorBytes, hparts first List.mem_cons_self, CSAStreamCipher.length_cipher_none,
        Nat.min_self]
    · exact ih (List.forall_mem_cons.mp hparts).2 hrest

/-- The decryption goes forward through the chained blocks. -/
theorem decryptBlocks_streamBlocks {rest : List ByteBlock}
    (hparts : ∀ part ∈ block :: rest, part.length = 8) (ctx : CSAStreamCipher) :
    decryptBlocks kk ctx
        (CSABlockCipher.encipher kk
          (xorBytes block ((intermediateBlocks kk rest).headD initVector)))
        (streamBlocks ctx (intermediateBlocks kk rest)).1 =
      (block :: rest, (streamBlocks ctx (intermediateBlocks kk rest)).2) := by
  have hblock : block.length = 8 := hparts block List.mem_cons_self
  have hdecipher : CSABlockCipher.decipher kk (CSABlockCipher.encipher kk
      (xorBytes block ((intermediateBlocks kk rest).headD initVector))) =
      xorBytes block ((intermediateBlocks kk rest).headD initVector) := by
    refine CSABlockCipher.decipher_encipher kk ?_
    rw [length_xorBytes, hblock, length_headD_intermediateBlocks, Nat.min_self]
  induction rest generalizing block ctx with
  | nil =>
    show ([CSABlockCipher.decipher kk _], ctx) = ([block], ctx)
    rw [hdecipher]
    show ([xorBytes block (List.replicate 8 0)], ctx) = ([block], ctx)
    rw [← hblock, xorBytes_zeros]
  | cons following rest ih =>
    have htail : ∀ part ∈ following :: rest, part.length = 8 :=
      (List.forall_mem_cons.mp hparts).2
    have hfollowing : (xorBytes following ((intermediateBlocks kk rest).headD initVector)).length = 8
        := by
      rw [length_xorBytes, htail following List.mem_cons_self, length_headD_intermediateBlocks,
        Nat.min_self]
    have hnext := ih htail (ctx.cipher none).2 (htail following List.mem_cons_self)
      (CSABlockCipher.decipher_encipher kk hfollowing)
    -- The next intermediate block comes out of the stream cipher again.
    have hstream : xorBytes (xorBytes (CSABlockCipher.encipher kk (xorBytes following
        ((intermediateBlocks kk rest).headD initVector))) (ctx.cipher none).1)
        (ctx.cipher none).1 = CSABlockCipher.encipher kk (xorBytes following
          ((intermediateBlocks kk rest).headD initVector)) := by
      rw [xorBytes_comm, xorBytes_comm _ (ctx.cipher none).1, xorBytes_cancel]
      rw [CSABlockCipher.length_encipher, CSAStreamCipher.length_cipher_none]
    rw [intermediateBlocks, List.headD_cons] at hdecipher ⊢
    rw [streamBlocks, decryptBlocks, hdecipher]
    simp only [hstream, hnext]
    rw [xorBytes_comm block, xorBytes_cancel]
    rw [hblock, CSABlockCipher.length_encipher]

theorem streamResidue_streamResidue (hlength : residue.length < 8) :
    streamResidue ctx (streamResidue ctx residue) = residue := by
  by_cases hempty : residue.length > 0
  · have hle : residue.length ≤ (ctx.cipher none).1.length := by
      rw [CSAStreamCipher.length_cipher_none]
      exact hlength.le
    have houtput : (xorBytes residue (ctx.cipher none).1).length = residue.length := by
      rw [length_xorBytes, Nat.min_eq_left hle]
    rw [streamResidue, streamResidue, if_pos hempty, houtput, if_pos hempty,
      xorBytes_comm, xorBytes_comm residue, xorBytes_cancel hle]
  · rw [streamResidue, streamResidue, if_neg hempty, if_neg hempty]

theorem length_streamResidue (hlength : residue.length < 8) :
    (streamResidue ctx residue).length = residue.length := by
  by_cases hempty : residue.length > 0
  · rw [streamResidue, if_pos hempty, length_xorBytes, CSAStreamCipher.length_cipher_none]
    omega
  · rw [streamResidue, if_neg hempty]

theorem setKey_congr {other : DVBCSA2} (hmode : csa.mode = other.mode) {key : ByteBlock}
    (hkey : key.length = keySize) : (csa.setKey key).1 = (other.setKey key).1 := by
  rw [setKey, setKey, if_neg (not_not_intro hkey), if_neg (not_not_intro hkey), hmode]

theorem encryptInPlace_of_le {data encrypted : ByteBlock}
    (hencrypt : csa.encryptInPlace data = some encrypted) (hle : 8 ≤ data.length) :
    data.length / 8 ≤ maxNBlocks ∧ csa.initialized = true ∧
      ∃ block rest first ctx, blocks (data.length / 8) data = block :: rest ∧
        first = CSABlockCipher.encipher csa.block
          (xorBytes block ((intermediateBlocks csa.block rest).headD initVector)) ∧
        ctx = (csa.stream.cipher (some first)).2 ∧
        encrypted = first ++ (streamBlocks ctx (intermediateBlocks csa.block rest)).1.flatten ++
          streamResidue (streamBlocks ctx (intermediateBlocks csa.block rest)).2
            (data.drop (8 * (data.length / 8))) := by
  rw [encryptInPlace] at hencrypt
  split at hencrypt
  · cases hencrypt
  · rename_i haccepted
    rw [not_or, not_lt, not_not] at haccepted
    rw [if_neg (Nat.not_lt.mpr hle)] at hencrypt
    refine ⟨haccepted.1, haccepted.2, ?_⟩
    have hcount : (blocks (data.length / 8) data).length = data.length / 8 := length_blocks _ _
    cases hblocks : blocks (data.length / 8) data with
    | nil =>
      rw [hblocks, List.length_nil] at hcount
      omega
    | cons block rest =>
      rw [hblocks] at hencrypt
      exact ⟨block, rest, _, _, rfl, rfl, rfl, (Option.some.inj hencrypt).symm⟩

theorem decryptInPlace_append {first : ByteBlock} {others : List ByteBlock}
    (hinitialized : csa.initialized = true) (hfirst : first.length = 8)
    (hothers : ∀ other ∈ others, other.length = 8) (hcount : others.length + 1 ≤ maxNBlocks)
    (hresidue : residue.length < 8) :
    csa.decryptInPlace (first ++ others.flatten ++ residue) =
      some ((decryptBlocks csa.block (csa.stream.cipher (some first)).2 first others).1.flatten ++
        streamResidue (decryptBlocks csa.block (csa.stream.cipher (some first)).2 first others).2
          residue) := by
  have hlength : (first ++ others.flatten ++ residue).length =
      8 * (others.length + 1) + residue.length := by
    rw [List.length_append, List.length_append, hfirst, length_flatten hothers]
    omega
  have hnblocks : (first ++ others.flatten ++ residue).length / 8 = others.length + 1 := by
    omega
  have hdrop : (first ++ others.flatten ++ residue).drop (8 * (others.length + 1)) = residue := by
    refine List.drop_left' ?_
    rw [List.length_append, hfirst, length_flatten hothers]
    omega
  have haccepted : ¬(others.length + 1 > maxNBlocks ∨ ¬csa.initialized) := by
    rw [not_or, not_not]
    exact ⟨Nat.not_lt.mpr hcount, hinitialized⟩
  rw [decryptInPlace, hnblocks, hlength, hdrop, if_neg haccepted,
    if_neg (by omega), List.append_assoc, List.take_left' hfirst, List.drop_left' hfirst,
    Nat.add_sub_cancel, blocks_flatten hothers]
  simp only [CSAStreamCipher.cipher_some _ hfirst]

/-- Assumes: a control word of eight bytes and a message which is accepted. It is restored. -/
theorem decryptInPlace_encryptInPlace {scrambler descrambler : DVBCSA2}
    (hmode : scrambler.mode = descrambler.mode) {key data encrypted : ByteBlock}
    (hkey : key.length = keySize)
    (hencrypt : (scrambler.setKey key).1.encryptInPlace data = some encrypted) :
    (descrambler.setKey key).1.decryptInPlace encrypted = some data ∧
      (data.length < 8 → encrypted = data) := by
  rw [← setKey_congr hmode hkey]
  generalize (scrambler.setKey key).1 = csa at hencrypt
  rcases Nat.lt_or_ge data.length 8 with hshort | hle
  · have hsame : encrypted = data ∧ csa.decryptInPlace data = some data := by
      rw [encryptInPlace, if_pos hshort] at hencrypt
      rw [decryptInPlace, if_pos hshort]
      split at hencrypt
      · cases hencrypt
      · rename_i haccepted
        rw [if_neg haccepted]
        exact ⟨(Option.some.inj hencrypt).symm, rfl⟩
    rw [hsame.1]
    exact ⟨hsame.2, fun _ ↦ rfl⟩
  · refine ⟨?_, fun hshort ↦ absurd hshort (Nat.not_lt.mpr hle)⟩
    obtain ⟨hcount, hinitialized, block, rest, first, ctx, hblocks, hfirst, hctx, rfl⟩ :=
      encryptInPlace_of_le hencrypt hle
    have hparts : ∀ part ∈ block :: rest, part.length = 8 := by
      intro part hmem
      rw [← hblocks] at hmem
      exact length_of_mem_blocks (by omega) hmem
    have hrest : rest.length + 1 = data.length / 8 := by
      rw [← length_blocks (data.length / 8) data, hblocks, List.length_cons]
    have hresidue : (data.drop (8 * (data.length / 8))).length < 8 := by
      rw [List.length_drop]
      omega
    have hround := decryptBlocks_streamBlocks csa.block hparts ctx
    rw [← hfirst] at hround
    rw [decryptInPlace_append hinitialized, ← hctx, hround, streamResidue_streamResidue _ hresidue,
      ← hblocks, flatten_blocks, List.take_append_drop]
    · rw [hfirst, CSABlockCipher.length_encipher]
    · exact fun other hmem ↦ length_of_mem_streamBlocks
        (fun part hpart ↦ length_of_mem_intermediateBlocks hpart) hmem
    · rwa [length_streamBlocks, length_intermediateBlocks, hrest]
    · rwa [length_streamResidue _ hresidue]

/-- Two complete blocks and a residue of three bytes. -/
theorem decryptInPlace_of_two_blocks :
    ((new .reduceEntropy).setKey [1, 2, 3, 4, 5, 6, 7, 8]).1.decryptInPlace
        [54, 241, 134, 191, 199, 255, 107, 100, 123, 172, 208, 102, 161, 218, 94, 110, 8, 150, 176] =
      some [0, 1, 2, 3, 4, 5, 6, 7, 8, 9, 10, 11, 12, 13, 14, 15, 16, 17, 18] :=
  (@decryptInPlace_encryptInPlace (new .reduceEntropy) (new .reduceEntropy) rfl
    [1, 2, 3, 4, 5, 6, 7, 8] _ _ rfl (by decide +kernel)).1

end DVBCSA2

end TSDuck
