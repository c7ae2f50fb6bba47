import TSDuck.Teletext.TeletextPage

/-!
# Teletext demux

The bytes of the payload are read with `readBytes`, and a read outside of the payload is the fault
`payload`.

The loop on the data units checks that a Teletext packet is inside the payload, but it subtracts the
length of any data unit from the remaining size, which is unsigned: after a data unit which
announces more than what remains, it goes on outside of the payload. `isSafe_iff` states that
nothing else goes wrong.

Scope. Absent pages and contexts are new ones. The duration of a PID is given with each PES packet.
-/

namespace TSDuck

inductive TransMode
  | parallel
  | serial
  deriving DecidableEq

namespace TeletextDemux

def unham84Table : ByteBlock := [
  1, 255, 1, 1, 255, 0, 1, 255, 255, 2, 1, 255, 10, 255, 255, 7, 255, 0, 1, 255, 0, 0, 255, 0, 6, 255,
  255, 11, 255, 0, 3, 255, 255, 12, 1, 255, 4, 255, 255, 7, 6, 255, 255, 7, 255, 7, 7, 7, 6, 255, 255,
  5, 255, 0, 13, 255, 6, 6, 6, 255, 6, 255, 255, 7, 255, 2, 1, 255, 4, 255, 255, 9, 2, 2, 255, 2, 255,
  2, 3, 255, 8, 255, 255, 5, 255, 0, 3, 255, 255, 2, 3, 255, 3, 255, 3, 3, 4, 255, 255, 5, 4, 4, 4,
  255, 255, 2, 15, 255, 4, 255, 255, 7, 255, 5, 5, 5, 4, 255, 255, 5, 6, 255, 255, 5, 255, 14, 3, 255,
  255, 12, 1, 255, 10, 255, 255, 9, 10, 255, 255, 11, 10, 10, 10, 255, 8, 255, 255, 11, 255, 0, 13,
  255, 255, 11, 11, 11, 10, 255, 255, 11, 12, 12, 255, 12, 255, 12, 13, 255, 255, 12, 15, 255, 10, 255,
  255, 7, 255, 12, 13, 255, 13, 255, 13, 13, 6, 255, 255, 11, 255, 14, 13, 255, 8, 255, 255, 9, 255, 9,
  9, 9, 255, 2, 15, 255, 10, 255, 255, 9, 8, 8, 8, 255, 8, 255, 255, 9, 8, 255, 255, 11, 255, 14, 3,
  255, 255, 12, 15, 255, 4, 255, 255, 9, 15, 255, 15, 15, 255, 14, 15, 255, 8, 255, 255, 5, 255, 14,
  13, 255, 255, 14, 15, 255, 14, 14, 255, 14]

/-- The table `REVERSE_8` swaps the bits of a byte. -/
def reverse8 (byte : UInt8) : UInt8 :=
  ⟨byte.toBitVec.reverse⟩

def unham84 (a : UInt8) : UInt8 :=
  let r := byteAt unham84Table a.toNat
  if r = 0xFF then 0 else r &&& 0x0F

def unham2418 (a : UInt32) : UInt32 :=
  let bit (i : ℕ) : UInt8 := ((a >>> UInt32.ofNat i) &&& 1).toUInt8
  let parity := (List.range 23).foldl (fun test i ↦ test ^^^ bit i * UInt8.ofNat (i + 33)) 0
  let test := parity ^^^ bit 23 * 32
  let value (a : UInt32) : UInt32 :=
    (a &&& 0x000004) >>> 2 ||| (a &&& 0x000070) >>> 3 ||| (a &&& 0x007F00) >>> 4 |||
      (a &&& 0x7F0000) >>> 5
  if test &&& 0x1F = 0x1F then value a
  else if test &&& 0x20 = 0x20 then 0xFFFFFFFF
  else value (a ^^^ 1 <<< (30 - test).toUInt32)

structure PIDContext (Charset : Type) where
  receivingData : Bool
  transMode : TransMode
  currentPage : ℕ
  pages : ℕ → TeletextPage Charset

def magazineOf (page : ℕ) : ℕ :=
  (page >>> 8) &&& 0x0F

def pageOf (page : ℕ) : ℕ :=
  page &&& 0xFF

variable {Charset : Type} [TeletextCharset Charset]

open TeletextCharset TeletextPage

def PIDContext.new : PIDContext Charset :=
  ⟨false, .serial, 0, fun _ ↦ TeletextPage.new⟩

def PIDContext.setPage (context : PIDContext Charset) (number : ℕ) (page : TeletextPage Charset) :
    PIDContext Charset :=
  { context with pages := Function.update context.pages number page }

/-- The characters of a row which were not given by a packet X/26. -/
def writeRow (data : ByteBlock) (row : ℕ) (page : TeletextPage Charset) :
    Except TeletextFault (TeletextPage Charset) :=
  (List.range 40).foldlM (fun page i ↦ do
    let char ← page.read row i
    if char = 0 then page.write row i (teletextToUcs2 page.charset (byteAt data i)) else .ok page) page

def triplet (data : ByteBlock) (i : ℕ) : UInt32 :=
  unham2418 ((byteAt data (i + 2)).toUInt32 <<< 16 ||| (byteAt data (i + 1)).toUInt32 <<< 8 |||
    (byteAt data i).toUInt32)

/-- The loop on the triplets of a packet X/26, from some active row. -/
def writeTriplets : List UInt32 → ℕ → TeletextPage Charset → Except TeletextFault (TeletextPage Charset)
  | [], _, page => .ok page
  | triplet :: rest, x26Row, page =>
    if triplet = 0xFFFFFFFF then writeTriplets rest x26Row page
    else
      let tdata := ((triplet &&& 0x3F800) >>> 11).toUInt8
      let tmode := ((triplet &&& 0x7C0) >>> 6).toUInt8
      let taddr := (triplet &&& 0x3F).toNat
      let rowAddressGroup := decide (40 ≤ taddr ∧ taddr ≤ 63)
      let row := if tmode = 0x04 ∧ rowAddressGroup then (if taddr = 40 then 24 else taddr - 40) else x26Row
      if 0x11 ≤ tmode ∧ tmode ≤ 0x1F ∧ rowAddressGroup then .ok page
      else if tmode = 0x0F ∧ ¬ rowAddressGroup ∧ 31 < tdata then
        page.write row taddr (g2ToUcs2 page.charset tdata) >>= writeTriplets rest row
      else if 0x11 ≤ tmode ∧ tmode ≤ 0x1F ∧ ¬ rowAddressGroup then
        page.write row taddr (g2AccentToUcs2 page.charset tdata (tmode - 0x11)) >>=
          writeTriplets rest row
      else writeTriplets rest row page

/-- A page in progress is processed and a new one starts. -/
def processHeader (addColors : Bool) (pid : ℕ) (duration : ℤ) (dataUnitId : UInt8) (m : ℕ)
    (data : ByteBlock) (context : PIDContext Charset) :
    Except TeletextFault (PIDContext Charset × List TeletextFrame) :=
  let pageNumber := m <<< 8 ||| (unham84 (byteAt data 1)).toNat <<< 4 ||| (unham84 (byteAt data 0)).toNat
  let control := unham84 (byteAt data 7)
  let transMode := if control &&& 1 = 0 then TransMode.parallel else .serial
  if transMode = .parallel ∧ dataUnitId ≠ 0x03 then .ok ({ context with transMode }, [])
  else
    let page := context.pages pageNumber
    let processed := if page.tainted then
      TeletextPage.processTeletextPage { page with hideTimestamp := duration - 40 } addColors pid pageNumber
      else .ok (page, [])
    processed >>= fun (page, frames) ↦
      let page := page.reset duration
      let page := { page with charset := resetX28 page.charset ((control &&& 0x0E) >>> 1) }
      .ok (({ context with transMode, currentPage := pageNumber, receivingData := true }).setPage
        pageNumber page, frames)

/-- What X/28 and M/29 do with the characters. -/
def setCharset (data : ByteBlock) (mask : UInt32) (set : Charset → UInt8 → Charset)
    (context : PIDContext Charset) : PIDContext Charset :=
  let designationCode := unham84 (byteAt data 0)
  let triplet0 := triplet data 1
  if (designationCode = 0 ∨ designationCode = 4) ∧ triplet0 &&& mask = 0 then
    let page := context.pages context.currentPage
    context.setPage context.currentPage { page with
      charset := set (setG0Charset page.charset triplet0) ((triplet0 &&& 0x3F80) >>> 7).toUInt8 }
  else context

def processTeletextPacket (addColors : Bool) (pid : ℕ) (duration : ℤ) (dataUnitId : UInt8)
    (pkt : ByteBlock) (context : PIDContext Charset) :
    Except TeletextFault (PIDContext Charset × List TeletextFrame) :=
  let address := unham84 (byteAt pkt 3) <<< 4 ||| unham84 (byteAt pkt 2)
  let m := if address &&& 0x07 = 0 then 8 else (address &&& 0x07).toNat
  let y := ((address >>> 3) &&& 0x1F).toNat
  let data := pkt.drop 4
  let page := context.pages context.currentPage
  if y = 0 then processHeader addColors pid duration dataUnitId m data context
  else if m = magazineOf context.currentPage ∧ 1 ≤ y ∧ y ≤ 23 ∧ context.receivingData then do
    let page ← writeRow data y page
    .ok (context.setPage context.currentPage { page with tainted := true }, [])
  else if m = magazineOf context.currentPage ∧ y = 26 ∧ context.receivingData then do
    let page ← writeTriplets ((List.range 13).map fun j ↦ triplet data (3 * j + 1)) 0 page
    .ok (context.setPage context.currentPage page, [])
  else if m = magazineOf context.currentPage ∧ y = 28 ∧ context.receivingData then
    .ok (setCharset data 0x0F setX28 context, [])
  else if m = magazineOf context.currentPage ∧ y = 29 then
    .ok (setCharset data 0xFF setM29 context, [])
  else .ok (context, [])

def readBytes (payload : ByteBlock) (offset size : ℕ) : Except TeletextFault ByteBlock :=
  if offset + size ≤ payload.length then .ok ((payload.drop offset).take size) else .error .payload

/-- The context of a PID and the frames which have been reported. -/
abbrev Progress (Charset : Type) := PIDContext Charset × List TeletextFrame

/-- A data unit, with the remaining size after its header. -/
def processUnit (addColors : Bool) (pid : ℕ) (duration : ℤ) (payload : ByteBlock) (offset remaining : ℕ)
    (progress : Progress Charset) : Except TeletextFault (Progress Charset) :=
  let unitId := byteAt payload offset
  let unitSize := (byteAt payload (offset + 1)).toNat
  if unitSize ≤ remaining ∧ unitSize = 44 ∧ (unitId = 0x02 ∨ unitId = 0x03) then do
    let pkt ← readBytes payload (offset + 2) unitSize
    let (context, frames) ←
      processTeletextPacket addColors pid duration unitId (pkt.map reverse8) progress.1
    .ok (context, progress.2 ++ frames)
  else .ok progress

/-- The loop on the data units, with the remaining size. -/
def exploreUnits (addColors : Bool) (pid : ℕ) (duration : ℤ) (payload : ByteBlock) (offset plSize : ℕ)
    (progress : Progress Charset) : Except TeletextFault (Progress Charset) :=
  if plSize < 2 then .ok progress
  else if payload.length < offset + 2 then .error .payload
  else
    let unitSize := (byteAt payload (offset + 1)).toNat
    let remaining := plSize - 2
    processUnit addColors pid duration payload offset remaining progress >>=
      exploreUnits addColors pid duration payload (offset + 2 + unitSize)
        (if unitSize ≤ remaining then remaining - unitSize else remaining + 2 ^ 64 - unitSize)
  termination_by payload.length - offset
  decreasing_by omega

/-- A PES packet, with the duration of its PID. -/
structure PESPayload where
  pid : ℕ
  duration : ℤ
  payload : ByteBlock

end TeletextDemux

/-- The contexts of the PID's and the frames which have been reported. -/
structure TeletextDemux (Charset : Type) where
  addColors : Bool
  pids : ℕ → TeletextDemux.PIDContext Charset
  frames : List TeletextFrame

namespace TeletextDemux

variable {Charset : Type} [TeletextCharset Charset]

def new (addColors : Bool) : TeletextDemux Charset :=
  ⟨addColors, fun _ ↦ .new, []⟩

def handlePESPacket (demux : TeletextDemux Charset) (packet : PESPayload) :
    Except TeletextFault (TeletextDemux Charset) :=
  match packet.payload with
  | [] => .ok demux
  | dataIdentifier :: _ =>
    if dataIdentifier < 0x10 ∨ 0x1F < dataIdentifier then .ok demux
    else do
      let (context, frames) ← exploreUnits demux.addColors packet.pid packet.duration packet.payload 1
        (packet.payload.length - 1) (demux.pids packet.pid, demux.frames)
      .ok { demux with pids := Function.update demux.pids packet.pid context, frames }

theorem succeeds_writeRow (data : ByteBlock) {row : ℕ} (hrow : row < 25)
    (page : TeletextPage Charset) : Succeeds (writeRow data row page) := by
  refine succeeds_foldlM (fun i hi page ↦ ?_) page
  have hcol := List.mem_range.mp hi
  refine (page.succeeds_read hrow hcol).bind fun char ↦ ?_
  exact .ite (fun _ ↦ page.succeeds_write hrow hcol _) fun _ ↦ succeeds_ok page

/-- A triplet has a column, or the address of a row. -/
theorem succeeds_writeTriplets (triplets : List UInt32) {row : ℕ} (hrow : row < 25)
    (page : TeletextPage Charset) : Succeeds (writeTriplets triplets row page) := by
  induction triplets generalizing row page with
  | nil => exact succeeds_ok page
  | cons triplet rest ih =>
    have haddr : (triplet &&& 0x3F).toNat < 64 := by
      rw [UInt32.toNat_and]
      exact Nat.and_lt_two_pow _ (show _ < 2 ^ 6 by decide)
    rw [writeTriplets]
    generalize (triplet &&& 0x3F).toNat = taddr at haddr
    have hnext : ∀ group : Bool, (if ((triplet &&& 0x7C0) >>> 6).toUInt8 = 0x04 ∧ group = true then
        (if taddr = 40 then 24 else taddr - 40) else row) < 25 := by
      intro group
      split_ifs <;> omega
    have hcol : ¬ decide (40 ≤ taddr ∧ taddr ≤ 63) = true → taddr < 40 := by
      rw [decide_eq_true_eq]
      omega
    refine .ite (fun _ ↦ ih hrow page) fun _ ↦ .ite (fun _ ↦ succeeds_ok page) fun _ ↦
      .ite (fun hmode ↦ ?_) fun _ ↦ .ite (fun hmode ↦ ?_) fun _ ↦ ih (hnext _) page
    · exact (page.succeeds_write (hnext _) (hcol hmode.2.1) _).bind fun page ↦ ih (hnext _) page
    · exact (page.succeeds_write (hnext _) (hcol hmode.2.2) _).bind fun page ↦ ih (hnext _) page

variable (addColors : Bool) (pid : ℕ) (duration : ℤ)

theorem succeeds_processTeletextPacket (dataUnitId : UInt8) (pkt : ByteBlock)
    (context : PIDContext Charset) :
    Succeeds (processTeletextPacket addColors pid duration dataUnitId pkt context) := by
  refine .ite (fun _ ↦ ?_) fun _ ↦ .ite (fun hdata ↦ ?_) fun _ ↦ .ite (fun _ ↦ ?_) fun _ ↦
    .ite (fun _ ↦ succeeds_ok _) fun _ ↦ .ite (fun _ ↦ succeeds_ok _) fun _ ↦ succeeds_ok _
  · refine .ite (fun _ ↦ succeeds_ok _) fun _ ↦ Succeeds.bind (.ite (fun _ ↦ ?_) fun _ ↦
      succeeds_ok _) fun _ ↦ succeeds_ok _
    exact TeletextPage.succeeds_processTeletextPage _ _ _ _
  · exact (succeeds_writeRow _ (Nat.lt_of_le_of_lt hdata.2.2.1 (by decide)) _).bind fun _ ↦ succeeds_ok _
  · exact (succeeds_writeTriplets _ (by decide) _).bind fun _ ↦ succeeds_ok _

/-! ### The accesses to the payload -/

/-- No data unit announces more bytes than what remains. -/
def UnitsFit : ByteBlock → Prop
  | _ :: unitSize :: rest => unitSize.toNat ≤ rest.length ∧ UnitsFit (rest.drop unitSize.toNat)
  | _ => True
  termination_by data => data.length
  decreasing_by
    rw [List.length_drop, List.length_cons, List.length_cons]
    omega

/-- The payload has no Teletext data, or its data units fit in it. -/
def PESPayload.Fits (packet : PESPayload) : Prop :=
  ∀ dataIdentifier data, packet.payload = dataIdentifier :: data → 0x10 ≤ dataIdentifier →
    dataIdentifier ≤ 0x1F → UnitsFit data

variable {payload : ByteBlock} {offset : ℕ}

theorem succeeds_processUnit {remaining : ℕ} (hsize : offset + 2 + remaining ≤ payload.length)
    (progress : Progress Charset) :
    Succeeds (processUnit addColors pid duration payload offset remaining progress) := by
  refine .ite (fun hunit ↦ ?_) fun _ ↦ succeeds_ok progress
  have hinside := (Nat.add_le_add_left hunit.1 (offset + 2)).trans hsize
  refine Succeeds.bind ⟨_, if_pos hinside⟩ fun pkt ↦ ?_
  exact (succeeds_processTeletextPacket _ _ _ _ _ _).bind fun _ ↦ succeeds_ok _

/-- The loop stays in the payload when the units fit in it. -/
theorem exploreUnits_spec (hoffset : offset ≤ payload.length) (progress : Progress Charset) :
    (UnitsFit (payload.drop offset) → Succeeds
      (exploreUnits addColors pid duration payload offset (payload.length - offset) progress)) ∧
    (¬ UnitsFit (payload.drop offset) →
      exploreUnits addColors pid duration payload offset (payload.length - offset) progress =
        .error .payload) := by
  induction hdata : payload.drop offset using UnitsFit.induct generalizing offset progress with
  | case1 unitId unitSize rest ih =>
    have hlength : payload.length - offset = rest.length + 2 := by
      rw [← List.length_drop, hdata]
      rfl
    have hbyte : byteAt payload (offset + 1) = unitSize := by
      rw [← byteAt_drop, hdata]
      rfl
    obtain ⟨next, hnext⟩ := succeeds_processUnit addColors pid duration
      (show offset + 2 + rest.length ≤ payload.length by omega) progress
    have hloop : exploreUnits addColors pid duration payload offset (rest.length + 2) progress =
        exploreUnits addColors pid duration payload (offset + 2 + unitSize.toNat)
          (if unitSize.toNat ≤ rest.length then rest.length - unitSize.toNat
          else rest.length + 2 ^ 64 - unitSize.toNat) next := by
      rw [exploreUnits, if_neg (by omega), if_neg (by omega), hbyte, Nat.add_sub_cancel]
      dsimp only
      rw [hnext]
      rfl
    rw [UnitsFit, hlength, hloop]
    by_cases hfit : unitSize.toNat ≤ rest.length
    · have hdrop : payload.drop (offset + 2 + unitSize.toNat) = rest.drop unitSize.toNat := by
        rw [← List.drop_drop, ← List.drop_drop, hdata]
        rfl
      have hsize : rest.length - unitSize.toNat =
          payload.length - (offset + 2 + unitSize.toNat) := by omega
      rw [if_pos hfit, hsize, and_iff_right hfit]
      exact ih (by omega) next hdrop
    · refine ⟨fun hunits ↦ (hfit hunits.1).elim, fun _ ↦ ?_⟩
      -- The remaining size has wrapped, and the next data unit is after the payload.
      have hlong := unitSize.toNat_lt
      rw [if_neg hfit, exploreUnits, if_neg (by omega), if_pos (by omega)]
  | case2 data hshort =>
    have hsize : payload.length - offset < 2 := by
      rw [← List.length_drop, hdata]
      rcases data with _ | ⟨first, _ | ⟨second, rest⟩⟩
      · exact Nat.zero_lt_two
      · exact Nat.one_lt_two
      · exact (hshort first second rest rfl).elim
    rw [exploreUnits, if_pos hsize]
    refine ⟨fun _ ↦ succeeds_ok progress, fun hunits ↦ (hunits ?_).elim⟩
    rw [UnitsFit]
    · trivial
    · exact hshort

theorem handlePESPacket_spec (demux : TeletextDemux Charset) (packet : PESPayload) :
    (packet.Fits → Succeeds (demux.handlePESPacket packet)) ∧
      (¬ packet.Fits → demux.handlePESPacket packet = .error .payload) := by
  obtain ⟨pid, duration, payload⟩ := packet
  cases payload with
  | nil => exact ⟨fun _ ↦ succeeds_ok demux, fun hfits ↦ (hfits nofun).elim⟩
  | cons dataIdentifier data =>
    by_cases hother : dataIdentifier < 0x10 ∨ 0x1F < dataIdentifier
    · have hhandled : demux.handlePESPacket ⟨pid, duration, dataIdentifier :: data⟩ = .ok demux :=
        if_pos hother
      refine ⟨fun _ ↦ ⟨demux, hhandled⟩, fun hfits ↦ (hfits ?_).elim⟩
      rintro _ _ ⟨⟩ hfirst hlast
      rcases hother with hbefore | hafter
      · exact (UInt8.not_lt.mpr hfirst hbefore).elim
      · exact (UInt8.not_lt.mpr hlast hafter).elim
    · obtain ⟨hfirst, hlast⟩ := not_or.mp hother
      have hhandled : demux.handlePESPacket ⟨pid, duration, dataIdentifier :: data⟩ =
          exploreUnits demux.addColors pid duration (dataIdentifier :: data) 1 data.length
            (demux.pids pid, demux.frames) >>= fun (context, frames) ↦
              .ok { demux with pids := Function.update demux.pids pid context, frames } :=
        if_neg hother
      have hfits : PESPayload.Fits ⟨pid, duration, dataIdentifier :: data⟩ ↔ UnitsFit data := by
        refine ⟨fun hfits ↦ hfits _ _ rfl (UInt8.not_lt.mp hfirst) (UInt8.not_lt.mp hlast), ?_⟩
        rintro hunits _ _ ⟨⟩ - -
        exact hunits
      obtain ⟨hinside, houtside⟩ := exploreUnits_spec demux.addColors pid duration
        (show 1 ≤ (dataIdentifier :: data).length by exact Nat.succ_pos _)
        (demux.pids pid, demux.frames)
      rw [hhandled, hfits]
      refine ⟨fun hunits ↦ (hinside hunits).bind fun _ ↦ succeeds_ok _, fun hunits ↦ ?_⟩
      rw [show data.length = (dataIdentifier :: data).length - 1 from rfl, houtside hunits]
      rfl

/-- The PES packets are handled, without any access out of bounds. -/
def IsSafe (demux : TeletextDemux Charset) (packets : List PESPayload) : Prop :=
  Succeeds (packets.foldlM handlePESPacket demux)

/-- No access is outside of a payload or of a page if and only if the data units of each payload fit
in it. -/
theorem isSafe_iff (demux : TeletextDemux Charset) (packets : List PESPayload) :
    (demux.IsSafe packets ↔ ∀ packet ∈ packets, packet.Fits) ∧
      packets.foldlM handlePESPacket demux ≠ .error .text := by
  unfold IsSafe
  induction packets generalizing demux with
  | nil => exact ⟨iff_of_true (succeeds_ok demux) nofun, nofun⟩
  | cons packet rest ih =>
    obtain ⟨hfits, hlong⟩ := demux.handlePESPacket_spec packet
    rw [List.foldlM_cons, List.forall_mem_cons]
    by_cases hpacket : packet.Fits
    · obtain ⟨next, hnext⟩ := hfits hpacket
      rw [hnext, and_iff_right hpacket]
      exact ih next
    · rw [hlong hpacket]
      exact ⟨iff_of_false nofun fun hall ↦ hpacket hall.1, nofun⟩

/-- Characters which are their own codes, without any table. -/
instance codes : TeletextCharset Unit where
  new := ()
  teletextToUcs2 _ c := c.toUInt16
  g2ToUcs2 _ c := c.toUInt16
  g2AccentToUcs2 _ c _ := c.toUInt16
  setG0Charset _ _ := ()
  setX28 _ _ := ()
  setM29 _ _ := ()
  resetX28 _ _ := ()

/-- A data unit which announces one byte, in a payload which ends there. -/
theorem not_isSafe_of_long_unit :
    ¬ (new false : TeletextDemux Unit).IsSafe [⟨0x100, 0, [0x10, 0x02, 0x01]⟩] := by
  have hlong : ¬ PESPayload.Fits ⟨0x100, 0, [0x10, 0x02, 0x01]⟩ := by
    intro hfits
    have hunits := hfits _ _ rfl (by decide) (by decide)
    rw [UnitsFit] at hunits
    exact absurd hunits.1 (by decide)
  rintro ⟨last, hlast⟩
  rw [List.foldlM_cons, ((new false).handlePESPacket_spec _).2 hlong] at hlast
  cases hlast

end TeletextDemux

end TSDuck
