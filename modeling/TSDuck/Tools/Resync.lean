import TSDuck.Mpeg.PCRAnalyzer

/-!
# Resynchronization of a transport stream

The tool looks for packets in the first bytes of its input: it loads a buffer, searches a slice of
contiguous packets in it, for each size of packets which it knows, and writes the packets of the
buffer from there on.

`ValidStream` is an input of contiguous packets. `transparent_iff` states that the output is the
input exactly when the input is empty or fills the buffer.

Scope. The output never fails, and the user does not give packets which are larger than the buffer.
A read of the input delivers all the bytes which it is asked for, or it delivers the last bytes and
fails. The loops are given a number of steps. The messages to the user are left out.
-/

namespace TSDuck.Resync

def pktM2tsSize : ℕ := 192

def m2tsHeaderSize : ℕ := 4

/-- The options of the command line, with the bounds which it checks. -/
structure Options where
  syncSize : ℕ := 1024 * 1024
  contigSize : ℕ := 512 * 1024
  packetSize : ℕ := 0
  headerSize : ℕ := 0
  contSync : Bool := false
  keep : Bool := false
  syncSize_mem : 1024 ≤ syncSize ∧ syncSize ≤ 8 * 1024 * 1024 := by decide
  contigSize_mem : 2 * pktSize ≤ contigSize ∧ contigSize ≤ 8 * 1024 * 1024 := by decide
  packetSize_mem : packetSize = 0 ∨ pktSize ≤ packetSize ∧ packetSize ≤ 0x7FFFFFFF := by decide
  headerSize_le : 0 < packetSize → headerSize + pktSize ≤ packetSize := by decide

def Options.bufferSize (options : Options) : ℕ :=
  options.syncSize + options.contigSize

/-- The bytes not read yet, and whether no read has failed. -/
structure InputStream where
  remaining : ByteBlock
  good : Bool

/-- What is delivered, and whether it is all. -/
def InputStream.read (input : InputStream) (size : ℕ) : (ByteBlock × Bool) × InputStream :=
  if input.good then
    if size ≤ input.remaining.length then
      ((input.remaining.take size, true), { input with remaining := input.remaining.drop size })
    else ((input.remaining, false), { remaining := [], good := false })
  else (([], false), input)

/-- The status of the processing. -/
inductive Status
  | ok
  | syncLost
  | eof
  | error
  deriving DecidableEq

/-- The state of the processing, with the standard input and output. -/
structure Resynchronizer where
  status : Status
  keepPacketSize : Bool
  outSize : ℕ
  inPktSize : ℕ
  inHeaderSize : ℕ
  outPktSize : ℕ
  outHeaderSize : ℕ
  cin : InputStream
  cout : ByteBlock

namespace Resynchronizer

def new (keepPacketSize : Bool) (input : ByteBlock) : Resynchronizer where
  status := .ok
  keepPacketSize := keepPacketSize
  outSize := 0
  inPktSize := 0
  inHeaderSize := 0
  outPktSize := 0
  outHeaderSize := 0
  cin := { remaining := input, good := true }
  cout := []

def reset (resync : Resynchronizer) : Resynchronizer :=
  { resync with status := .ok, inPktSize := 0, inHeaderSize := 0 }

/-- Reads the input, without what a failing read delivers. -/
def readData (resync : Resynchronizer) (size : ℕ) : ByteBlock × Resynchronizer :=
  if size > 0 then
    let ((bytes, complete), cin) := resync.cin.read size
    -- A complete read leaves nothing to read, so the loop has one turn and `got` is still zero here.
    if complete then (bytes, { resync with cin := cin })
    else ([], { resync with cin := cin, status := .eof })
  else ([], resync)

def writePacket (resync : Resynchronizer) (bytes : ByteBlock) : Resynchronizer :=
  let outPkt := bytes.drop (resync.inHeaderSize - resync.outHeaderSize)
  { resync with
    cout := resync.cout ++ outPkt.take resync.outPktSize
    outSize := resync.outSize + resync.outPktSize }

/-- The sizes, if all packets have their synchronization byte. -/
def checkSync (resync : Resynchronizer) (buf : ByteBlock) (bufSize pktSize headerSize : ℕ) :
    Option Resynchronizer :=
  if (List.range (bufSize / pktSize)).all fun index ↦
      byteAt buf (index * pktSize + headerSize) == syncByte then
    some
      { resync with
        inPktSize := pktSize
        inHeaderSize := headerSize
        outPktSize := if resync.keepPacketSize then pktSize else TSDuck.pktSize
        outHeaderSize := if resync.keepPacketSize then headerSize else 0 }
  else none

/-- Looks for packets of all the sizes at a position. -/
def checkSizes (resync : Resynchronizer) (options : Options) (buf : ByteBlock) (searchSize : ℕ) :
    Option Resynchronizer :=
  if options.packetSize > 0 then
    resync.checkSync buf searchSize options.packetSize options.headerSize
  else
    (resync.checkSync buf searchSize pktSize 0).orElse fun _ ↦
      (resync.checkSync buf searchSize pktRsSize 0).orElse fun _ ↦
        resync.checkSync buf searchSize pktM2tsSize m2tsHeaderSize

/-- The bytes from the first valid packet on. -/
def search (resync : Resynchronizer) (options : Options) (searchSize : ℕ) :
    ℕ → ByteBlock → Option (ByteBlock × Resynchronizer)
  | 0, _ => none
  | positions + 1, start =>
    match resync.checkSizes options start searchSize with
    | some found => some (start, found)
    | none => resync.search options searchSize positions (start.drop 1)

/-- Writes valid packets: what is left of the bytes. -/
def writeValid : ℕ → Resynchronizer → ByteBlock → ByteBlock × Resynchronizer
  | 0, resync, start => (start, resync)
  | turns + 1, resync, start =>
    if resync.inPktSize ≤ start.length ∧ byteAt start resync.inHeaderSize = syncByte then
      writeValid turns (resync.writePacket start) (start.drop resync.inPktSize)
    else (start, resync)

/-- Reads the rest of the input, packet by packet. -/
def readRest : ℕ → Resynchronizer → ByteBlock → Option (ByteBlock × Resynchronizer)
  | 0, _, _ => none
  | steps + 1, resync, loaded =>
    if resync.status = .ok then
      let remainSize := resync.inPktSize - loaded.length
      let (bytes, resync) := resync.readData remainSize
      if bytes.length ≠ remainSize then readRest steps { resync with status := .eof } loaded
      else if byteAt (loaded ++ bytes) resync.inHeaderSize ≠ syncByte then
        readRest steps { resync with status := .syncLost } (loaded ++ bytes)
      else readRest steps (resync.writePacket (loaded ++ bytes)) []
    else some (loaded, resync)

/-- The loop on synchronization starts. -/
def synchronize (options : Options) :
    ℕ → Resynchronizer → ByteBlock → Option Resynchronizer
  | 0, _, _ => none
  | steps + 1, resync, loaded =>
    let (bytes, resync) := resync.reset.readData (options.bufferSize - loaded.length)
    let buf := loaded ++ bytes
    let searchSize := min options.contigSize buf.length
    match resync.search options searchSize (buf.length - searchSize + 1) buf with
    | none => some { resync with status := .error }
    | some (start, resync) =>
      let (rest, resync) := writeValid start.length resync start
      if resync.status ≠ .ok then some resync
      else
        let status := if rest.length ≥ resync.inPktSize then .syncLost else resync.status
        match readRest steps { resync with status := status } rest with
        | none => none
        | some (loaded, resync) =>
          if resync.status = .ok ∨ resync.status = .syncLost ∧ options.contSync = true then
            synchronize options steps resync loaded
          else some resync

end Resynchronizer

/-- The tool: its success and its output, `none` when the steps run out. -/
def run (options : Options) (input : ByteBlock) (steps : ℕ) : Option (Bool × ByteBlock) :=
  (Resynchronizer.synchronize options steps (.new options.keep input) []).map fun resync ↦
    (resync.status == .eof, resync.cout)

/-- The tool succeeds and its output is its input. -/
def Transparent (options : Options) (input : ByteBlock) : Prop :=
  ∃ steps, run options input steps = some (true, input)

/-- Contiguous packets with their synchronization bytes. -/
structure ValidStream (input : ByteBlock) : Prop where
  dvd_length : pktSize ∣ input.length
  byteAt_eq : ∀ index, index * pktSize < input.length → byteAt input (index * pktSize) = syncByte

namespace ValidStream

variable {input : ByteBlock}

theorem drop (hinput : ValidStream input) (count : ℕ) :
    ValidStream (input.drop (count * pktSize)) := by
  obtain ⟨packets, hpackets⟩ := hinput.dvd_length
  constructor
  · rw [List.length_drop, hpackets, Nat.mul_comm count, ← Nat.mul_sub]
    exact Nat.dvd_mul_right _ _
  · intro index hindex
    rw [List.length_drop] at hindex
    have hbyte := hinput.byteAt_eq (count + index) (by rw [Nat.add_mul]; omega)
    rwa [byteAt, List.getD_eq_getElem?_getD, List.getElem?_drop, ← Nat.add_mul,
      ← List.getD_eq_getElem?_getD]

end ValidStream

namespace Resynchronizer

variable {resync : Resynchronizer} {options : Options} {input : ByteBlock}

/-! ### The input does not fill the buffer -/

theorem readData_short {size : ℕ} (hgood : resync.cin.good = true)
    (hshort : resync.cin.remaining.length < size) :
    resync.readData size =
      ([], { resync with cin := { remaining := [], good := false }, status := .eof }) := by
  rw [readData, if_pos (Nat.zero_lt_of_lt hshort), InputStream.read, if_pos hgood,
    if_neg (Nat.not_le.mpr hshort)]
  rfl

theorem readData_full {size : ℕ} (hpos : 0 < size) (hgood : resync.cin.good = true)
    (hfull : size ≤ resync.cin.remaining.length) :
    resync.readData size = (resync.cin.remaining.take size,
      { resync with cin := { remaining := resync.cin.remaining.drop size, good := true } }) := by
  rw [readData, if_pos hpos, InputStream.read, if_pos hgood, if_pos hfull, hgood]
  rfl

theorem search_empty :
    ∃ found, resync.search options 0 1 [] = some ([], found) ∧ found.status = resync.status ∧
      found.cout = resync.cout := by
  rw [search, checkSizes]
  split_ifs
  · simp [checkSync]
  · simp [checkSync]

theorem synchronize_of_search {steps : ℕ} {loaded bytes start : ByteBlock}
    {after found : Resynchronizer}
    (hread : resync.reset.readData (options.bufferSize - loaded.length) = (bytes, after))
    (hsearch : after.search options (min options.contigSize (loaded ++ bytes).length)
      ((loaded ++ bytes).length - min options.contigSize (loaded ++ bytes).length + 1)
      (loaded ++ bytes) = some (start, found)) :
    synchronize options (steps + 1) resync loaded =
      if (writeValid start.length found start).2.status ≠ .ok then
        some (writeValid start.length found start).2
      else
        match readRest steps
            { (writeValid start.length found start).2 with
              status :=
                if (writeValid start.length found start).1.length ≥
                    (writeValid start.length found start).2.inPktSize then .syncLost
                else (writeValid start.length found start).2.status }
            (writeValid start.length found start).1 with
        | none => none
        | some (loaded, resync) =>
          if resync.status = .ok ∨ resync.status = .syncLost ∧ options.contSync = true then
            synchronize options steps resync loaded
          else some resync := by
  rw [synchronize, hread]
  dsimp only
  rw [hsearch]

theorem run_short {steps : ℕ} (hshort : input.length < options.bufferSize) :
    run options input (steps + 1) = some (true, []) := by
  have hread := @readData_short (new options.keep input).reset options.bufferSize rfl hshort
  obtain ⟨found, hfound, hstatus, hcout⟩ := @search_empty
    { (new options.keep input).reset with
      cin := { remaining := [], good := false }, status := .eof } options
  rw [run, synchronize_of_search hread (by simpa using hfound), List.length_nil, writeValid,
    if_pos (by simp [hstatus]), Option.map_some, hstatus, hcout]
  rfl

/-! ### The input fills the buffer -/

/-- The sizes of packets alone, on both sides. -/
structure Standard (resync : Resynchronizer) : Prop where
  inPktSize_eq : resync.inPktSize = pktSize
  inHeaderSize_eq : resync.inHeaderSize = 0
  outPktSize_eq : resync.outPktSize = pktSize
  outHeaderSize_eq : resync.outHeaderSize = 0

theorem checkSizes_of_valid (hinput : ValidStream input)
    (hsize : options.packetSize = 0 ∨ options.packetSize = pktSize) {size searchSize : ℕ}
    (hsearch : searchSize ≤ size) (hlength : size ≤ input.length) :
    ∃ found, resync.checkSizes options (input.take size) searchSize = some found ∧
      found.Standard ∧ found.status = resync.status ∧ found.cin = resync.cin ∧
      found.cout = resync.cout := by
  have hpackets : ((List.range (searchSize / pktSize)).all fun index ↦
      byteAt (input.take size) (index * pktSize + 0) == syncByte) = true := by
    rw [List.all_eq_true]
    intro index hindex
    have hend : (index + 1) * pktSize ≤ searchSize :=
      (Nat.le_div_iff_mul_le (by decide)).mp (List.mem_range.mp hindex)
    have hpos : 0 < pktSize := by decide
    rw [Nat.add_mul, Nat.one_mul] at hend
    rw [Nat.add_zero, byteAt_take _ (by omega), hinput.byteAt_eq index (by omega), beq_self_eq_true]
  have hfound : resync.checkSizes options (input.take size) searchSize =
      resync.checkSync (input.take size) searchSize pktSize 0 := by
    rw [checkSizes]
    rcases hsize with hzero | hstandard
    · simp only [hzero, gt_iff_lt, lt_irrefl, if_false]
      rw [checkSync, if_pos hpackets]
      rfl
    · have hheader := options.headerSize_le (by rw [hstandard]; decide)
      rw [hstandard] at hheader
      rw [hstandard, if_pos (by decide), show options.headerSize = 0 by omega]
  rw [hfound, checkSync, if_pos hpackets]
  refine ⟨_, rfl, ⟨rfl, rfl, ?_, ?_⟩, rfl, rfl, rfl⟩
  · exact ite_self _
  · exact ite_self _

theorem Standard.writePacket (hresync : resync.Standard) (bytes : ByteBlock) :
    (resync.writePacket bytes).Standard ∧
      (resync.writePacket bytes).cout = resync.cout ++ bytes.take pktSize ∧
      (resync.writePacket bytes).status = resync.status ∧
      (resync.writePacket bytes).cin = resync.cin := by
  refine ⟨⟨hresync.inPktSize_eq, hresync.inHeaderSize_eq, hresync.outPktSize_eq,
    hresync.outHeaderSize_eq⟩, ?_, rfl, rfl⟩
  rw [Resynchronizer.writePacket, hresync.inHeaderSize_eq, hresync.outPktSize_eq, Nat.zero_sub,
    List.drop_zero]

theorem writeValid_of_valid (hresync : resync.Standard) (hinput : ValidStream input)
    {size turns : ℕ} (hlength : size ≤ input.length) (hturns : size ≤ turns) :
    ∃ last, writeValid turns resync (input.take size) =
        ((input.drop (size / pktSize * pktSize)).take (size % pktSize), last) ∧
      last.Standard ∧ last.status = resync.status ∧ last.cin = resync.cin ∧
      last.cout = resync.cout ++ input.take (size / pktSize * pktSize) := by
  induction turns generalizing resync input size with
  | zero =>
    obtain rfl : size = 0 := Nat.le_zero.mp hturns
    exact ⟨resync, by simp [writeValid], hresync, rfl, rfl, by simp⟩
  | succ turns ih =>
    by_cases hpacket : pktSize ≤ size
    · have hpos : 0 < pktSize := by decide
      have hbyte : byteAt (input.take size) resync.inHeaderSize = syncByte := by
        rw [hresync.inHeaderSize_eq, byteAt_take _ (by omega)]
        simpa using hinput.byteAt_eq 0 (by omega)
      obtain ⟨hnext, hcout, hstatus, hcin⟩ := hresync.writePacket (input.take size)
      have htail : ValidStream (input.drop pktSize) := by
        simpa using hinput.drop 1
      have hshorter : size - pktSize ≤ (input.drop pktSize).length := by
        rw [List.length_drop]
        omega
      obtain ⟨last, hlast, hstandard, hstatus', hcin', hcout'⟩ :=
        ih hnext htail hshorter (by omega)
      have hcount : size / pktSize * pktSize = (size - pktSize) / pktSize * pktSize + pktSize := by
        rw [Nat.div_eq_sub_div hpos hpacket, Nat.add_mul, Nat.one_mul]
      refine ⟨last, ?_, hstandard, hstatus'.trans hstatus, hcin'.trans hcin, ?_⟩
      · rw [writeValid, if_pos ⟨by rw [hresync.inPktSize_eq, List.length_take]; omega, hbyte⟩,
          hresync.inPktSize_eq, List.drop_take, hlast, List.drop_drop, hcount, Nat.add_comm,
          Nat.mod_eq_sub_mod hpacket]
      · rw [hcout', hcout, hcount, List.append_assoc, List.take_take, Nat.min_eq_left hpacket,
          Nat.add_comm, List.take_add]
    · have hsize : size < pktSize := Nat.lt_of_not_le hpacket
      refine ⟨resync, ?_, hresync, rfl, rfl, ?_⟩
      · rw [writeValid, if_neg, Nat.div_eq_of_lt hsize, Nat.mod_eq_of_lt hsize, Nat.zero_mul,
          List.drop_zero]
        rw [hresync.inPktSize_eq, List.length_take]
        omega
      · rw [Nat.div_eq_of_lt hsize, Nat.zero_mul, List.take_zero, List.append_nil]

theorem readRest_of_valid (hresync : resync.Standard) (hstatus : resync.status = .ok)
    (hgood : resync.cin.good = true) {packets : ℕ} {loaded tail : ByteBlock}
    (htail : ValidStream tail) (hpackets : tail.length = packets * pktSize)
    (hloaded : loaded.length < pktSize) (hsplit : loaded ++ resync.cin.remaining = tail) :
    ∃ left last, readRest (packets + 2) resync loaded = some (left, last) ∧ last.status = .eof ∧
      last.cout = resync.cout ++ tail := by
  have hlength : loaded.length + resync.cin.remaining.length = tail.length := by
    rw [← hsplit, List.length_append]
  induction packets generalizing resync loaded tail with
  | zero =>
    rw [Nat.zero_mul] at hpackets
    have hread := @readData_short resync (resync.inPktSize - loaded.length) hgood
      (by rw [hresync.inPktSize_eq]; omega)
    refine ⟨loaded, { resync with cin := { remaining := [], good := false }, status := .eof },
      ?_, rfl, ?_⟩
    · have hmissing : resync.inPktSize - loaded.length ≠ 0 := by
        rw [hresync.inPktSize_eq]
        omega
      rw [readRest, if_pos hstatus]
      dsimp only
      rw [hread, if_pos (by simpa using hmissing.symm), readRest, if_neg (by simp)]
    · rw [List.eq_nil_of_length_eq_zero hpackets, List.append_nil]
  | succ packets ih =>
    have hpos : 0 < pktSize := by decide
    have hcount : tail.length = packets * pktSize + pktSize := by rw [hpackets, Nat.succ_mul]
    have hfits : pktSize - loaded.length ≤ resync.cin.remaining.length := by omega
    have hsize : resync.inPktSize - loaded.length = pktSize - loaded.length := by
      rw [hresync.inPktSize_eq]
    have hread := readData_full (by omega) hgood hfits
    have hpacket : loaded ++ resync.cin.remaining.take (pktSize - loaded.length) =
        tail.take pktSize := by
      rw [← hsplit, List.take_append, List.take_of_length_le hloaded.le]
    have hrest : resync.cin.remaining.drop (pktSize - loaded.length) = tail.drop pktSize := by
      rw [← hsplit, List.drop_append, List.drop_eq_nil_of_le hloaded.le, List.nil_append]
    rw [hrest] at hread
    have hbyte : byteAt (tail.take pktSize) 0 = syncByte := by
      rw [byteAt_take _ hpos]
      simpa using htail.byteAt_eq 0 (by omega)
    have hstandard : Standard
        { resync with cin := { remaining := tail.drop pktSize, good := true } } :=
      ⟨hresync.inPktSize_eq, hresync.inHeaderSize_eq, hresync.outPktSize_eq,
        hresync.outHeaderSize_eq⟩
    obtain ⟨hnext, hcout, hstatus', hcin⟩ := hstandard.writePacket (tail.take pktSize)
    have hafter : ValidStream (tail.drop pktSize) := by
      simpa using htail.drop 1
    have hnil : ([] : ByteBlock).length < pktSize := hpos
    obtain ⟨left, last, hlast, heof, hlastCout⟩ := ih hnext (hstatus'.trans hstatus)
      (by rw [hcin]) hafter (by rw [List.length_drop]; omega) hnil
      (by rw [hcin, List.nil_append]) (by rw [hcin, List.length_nil, Nat.zero_add])
    refine ⟨left, last, ?_, heof, ?_⟩
    · rw [readRest, if_pos hstatus]
      dsimp only
      rw [hsize, hread, if_neg, hpacket, if_neg]
      · exact hlast
      · rw [hresync.inHeaderSize_eq]
        exact not_not.mpr hbyte
      · rw [List.length_take]
        omega
    · rw [hlastCout, hcout, List.append_assoc, List.take_take, Nat.min_self, List.take_append_drop]

theorem run_full (hinput : ValidStream input)
    (hsize : options.packetSize = 0 ∨ options.packetSize = pktSize)
    (hfull : options.bufferSize ≤ input.length) :
    ∃ steps, run options input steps = some (true, input) := by
  have hpos : 0 < options.bufferSize :=
    Nat.lt_of_lt_of_le (by decide) (options.syncSize_mem.1.trans (Nat.le_add_right _ _))
  obtain ⟨after, hread, hafterStatus, hafterCin, hafterCout⟩ : ∃ after,
      (new options.keep input).reset.readData options.bufferSize =
        (input.take options.bufferSize, after) ∧ after.status = .ok ∧
      after.cin = { remaining := input.drop options.bufferSize, good := true } ∧
      after.cout = [] := ⟨_, readData_full hpos rfl hfull, rfl, rfl, rfl⟩
  have hcontig : options.contigSize ≤ options.bufferSize := Nat.le_add_left _ _
  have hbuffer : (input.take options.bufferSize).length = options.bufferSize := by
    rw [List.length_take, Nat.min_eq_left hfull]
  obtain ⟨found, hfound, hstandard, hstatus, hcin, hcout⟩ :=
    @checkSizes_of_valid after _ _ hinput hsize _ _ hcontig hfull
  obtain ⟨written, hwritten, hstandard', hstatus', hcin', hcout'⟩ :=
    writeValid_of_valid hstandard hinput hfull le_rfl
  have hmod : options.bufferSize % pktSize < pktSize := Nat.mod_lt _ (by decide)
  have hdiv := Nat.div_add_mod' options.bufferSize pktSize
  have htail := hinput.drop (options.bufferSize / pktSize)
  generalize hfirst : options.bufferSize / pktSize * pktSize = first at *
  obtain ⟨packets, hpackets⟩ := htail.dvd_length
  have hrest : ((input.drop first).take (options.bufferSize % pktSize)).length < pktSize :=
    (List.length_take_le _ _).trans_lt hmod
  have hsplit : (input.drop first).take (options.bufferSize % pktSize) ++
      written.cin.remaining = input.drop first := by
    have hremaining : input.drop options.bufferSize =
        (input.drop first).drop (options.bufferSize % pktSize) := by
      rw [List.drop_drop, hdiv]
    rw [hcin', hcin, hafterCin, hremaining, List.take_append_drop]
  obtain ⟨left, last, hlast, heof, hlastCout⟩ := readRest_of_valid hstandard'
    (hstatus'.trans (hstatus.trans hafterStatus)) (by rw [hcin', hcin, hafterCin]) htail
    (hpackets.trans (Nat.mul_comm _ _)) hrest hsplit
  have hsearch : after.search options
      (min options.contigSize ([] ++ input.take options.bufferSize).length)
      (([] ++ input.take options.bufferSize).length -
        min options.contigSize ([] ++ input.take options.bufferSize).length + 1)
      ([] ++ input.take options.bufferSize) = some (input.take options.bufferSize, found) := by
    rw [List.nil_append, hbuffer, Nat.min_eq_left hcontig, search, hfound]
  refine ⟨packets + 2 + 1, ?_⟩
  rw [run, synchronize_of_search hread hsearch, hbuffer, hwritten]
  dsimp only
  rw [if_neg (by simp [hstatus', hstatus, hafterStatus]),
    if_neg (by rw [hstandard'.inPktSize_eq]; omega), hlast]
  simp [heof, hlastCout, hcout', hcout, hafterCout]

end Resynchronizer

/-- Assumes: contiguous packets of a size which the user expects. The output is the input if and
only if it is empty or it fills the buffer, whose size is the sum of two options. -/
theorem transparent_iff {options : Options} {input : ByteBlock} (hinput : ValidStream input)
    (hsize : options.packetSize = 0 ∨ options.packetSize = pktSize) :
    Transparent options input ↔
      input = [] ∨ options.syncSize + options.contigSize ≤ input.length := by
  constructor
  · rintro ⟨steps, hsteps⟩
    by_contra hnot
    rw [not_or, Nat.not_le] at hnot
    cases steps with
    | zero => cases hsteps
    | succ steps =>
      rw [Resynchronizer.run_short hnot.2, Option.some.injEq, Prod.mk.injEq] at hsteps
      exact hnot.1 hsteps.2.symm
  · rintro (rfl | hfull)
    · have hpos : 0 < options.bufferSize :=
        Nat.lt_of_lt_of_le (by decide) (options.syncSize_mem.1.trans (Nat.le_add_right _ _))
      exact ⟨1, Resynchronizer.run_short hpos⟩
    · exact Resynchronizer.run_full hinput hsize hfull

theorem validStream_replicate (packets : ℕ) :
    ValidStream (List.replicate (packets * pktSize) syncByte) where
  dvd_length := by
    rw [List.length_replicate]
    exact Nat.dvd_mul_left _ _
  byteAt_eq index hindex := by
    rw [List.length_replicate] at hindex
    rw [byteAt, List.getD_eq_getElem?_getD, List.getElem?_replicate, if_pos hindex,
      Option.getD_some]

/-- 6000 packets with the default options. -/
theorem transparent_of_6000_packets :
    Transparent {} (List.replicate (6000 * pktSize) syncByte) ↔
      List.replicate (6000 * pktSize) syncByte = [] ∨
        1024 * 1024 + 512 * 1024 ≤ (List.replicate (6000 * pktSize) syncByte).length :=
  transparent_iff (validStream_replicate 6000) (Or.inl rfl)

/-- 4000 packets are lost, whereas the 512 kB which a slice of packets needs are less than 2800
packets. -/
theorem not_transparent_of_4000_packets :
    ¬ ∀ input, ValidStream input → (Options.contigSize {}) ≤ input.length →
      Transparent {} input := by
  intro hall
  have hlength : (List.replicate (4000 * pktSize) syncByte).length = 752000 := by
    rw [List.length_replicate]
    rfl
  have hstream := validStream_replicate 4000
  have htransparent := hall _ hstream (by rw [hlength]; decide)
  obtain ⟨steps, hsteps⟩ := htransparent
  cases steps with
  | zero => cases hsteps
  | succ steps =>
    rw [Resynchronizer.run_short (by rw [hlength]; decide), Option.some.injEq,
      Prod.mk.injEq] at hsteps
    have hempty := congrArg List.length hsteps.2
    rw [hlength] at hempty
    exact absurd hempty (by decide)

end TSDuck.Resync
