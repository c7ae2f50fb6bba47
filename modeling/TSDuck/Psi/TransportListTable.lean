import TSDuck.Psi.EntryLoop

/-!
# Tables with a list of transport streams

A NIT and a BAT have descriptors and a list of transport streams with their descriptors. A section
hint is the number of the section where a transport stream should preferably be.

The descriptors of the table are written first, in as many sections as necessary.

`TransportSection` is the content of a section, and `deserialize_ofPayloads` reads a table from the
contents of its sections.
-/

namespace TSDuck

/-- The table ids of the NIT and of the BAT. -/
def tidNitAct : UInt8 := 0x40

def tidNitOth : UInt8 := 0x41

def tidBat : UInt8 := 0x4A

/-- The identification of a transport stream in a DVB network. -/
@[ext] structure TransportStreamId where
  transportStreamId : Uint16
  originalNetworkId : Uint16

namespace TransportStreamId

/-- A 32-bit identifier, with the original network id in its upper part. -/
def normalized (id : TransportStreamId) : ℕ :=
  id.transportStreamId.val ||| 2 ^ 16 * id.originalNetworkId.val

theorem normalized_injective : Function.Injective normalized := by
  rintro ⟨⟨first, hfirst⟩, ⟨firstNetwork, hfirstNetwork⟩⟩
    ⟨⟨second, hsecond⟩, ⟨secondNetwork, hsecondNetwork⟩⟩ hequal
  unfold normalized at hequal
  dsimp only at hequal
  rw [or_high_bits 16 firstNetwork hfirst, or_high_bits 16 secondNetwork hsecond] at hequal
  have hsame : first = second ∧ firstNetwork = secondNetwork := by omega
  obtain ⟨rfl, rfl⟩ := hsame
  rfl

instance : LinearOrder TransportStreamId := LinearOrder.lift' normalized normalized_injective

def bytes (id : TransportStreamId) : ByteBlock :=
  putUInt16 id.transportStreamId.val ++ putUInt16 id.originalNetworkId.val

def ofBytes (data : ByteBlock) : TransportStreamId :=
  { transportStreamId := getWord data 0, originalNetworkId := getWord data 2 }

theorem ofBytes_bytes (id : TransportStreamId) : ofBytes id.bytes = id := by
  apply TransportStreamId.ext
  · exact getWord_putUInt16 id.transportStreamId _
  · apply Fin.ext
    show getUInt16 (putUInt16 id.transportStreamId.val ++ putUInt16 id.originalNetworkId.val)
      ((putUInt16 id.transportStreamId.val).length + 0) = _
    rw [getUInt16_append_right]
    exact congrArg Fin.val (getWord_putUInt16 id.originalNetworkId [])

theorem bytes_injective : Function.Injective bytes :=
  Function.LeftInverse.injective ofBytes_bytes

end TransportStreamId

/-- A NIT or a BAT, with its transport streams. -/
structure AbstractTransportListTable where
  isValid : Bool
  tableId : UInt8
  version : UInt8
  isCurrent : Bool
  tidExt : Uint16
  descs : DescriptorList
  transports : SortedMap TransportStreamId DescriptorList
  sectionHints : SortedMap TransportStreamId ℤ
  deriving DecidableEq

/-- A table with the place of the length of its loop. -/
structure TransportWriter where
  writer : SectionWriter
  tsllAddr : ℕ

namespace AbstractTransportListTable

/-! ### Serialization -/

def header (table : AbstractTransportListTable) : LongHeader :=
  { tableId := table.tableId
    isPrivateSection := true
    tableIdExtension := table.tidExt
    version := table.version
    isCurrent := table.isCurrent }

def topEntry (descs : DescriptorList) : EntryWithDescriptors :=
  { fixed := [], high := 0xF0, descs := descs }

def transportEntry (entry : TransportStreamId × DescriptorList) : EntryWithDescriptors :=
  { fixed := entry.1.bytes, high := 0xF0, descs := entry.2 }

def overwriteUInt16 (data : ByteBlock) (offset value : ℕ) : ByteBlock :=
  data.take offset ++ putUInt16 value ++ data.drop (offset + 2)

/-- Adds the section and opens an empty one. -/
def addSection (header : LongHeader) (output : TransportWriter) : TransportWriter :=
  let length := output.writer.payload.length - output.tsllAddr - 2
  let filled :=
    { output.writer with
      payload := overwriteUInt16 output.writer.payload output.tsllAddr (length ||| 0xF000) }
  { writer := (filled.addSection header 0).write (putUInt16 0xF000 ++ putUInt16 0xF000)
    tsllAddr := 2 }

def transportOutput (header : LongHeader) : EntryOutput TransportWriter where
  remain output := output.writer.remain
  write output data := { output with writer := output.writer.write data }
  close := addSection header
  remain_le _ := Nat.sub_le _ _

variable (table : AbstractTransportListTable)

/-- Registers a stream, with descriptors added to its own. -/
def putTransport (entry : EntryWithDescriptors) : AbstractTransportListTable :=
  { table with
    transports := table.transports.update (TransportStreamId.ofBytes entry.fixed) fun descs ↦
      descs.elim [] id ++ entry.descs }

def readSection (sect : Section) :
    Except AbstractTransportListTable AbstractTransportListTable :=
  if sect.tableId ≠ table.tableId then .error table
  else
    let table :=
      { table with
        version := sect.version
        isCurrent := sect.isCurrent
        tidExt := Fin.ofNat 65536 sect.tableIdExtension }
    match EntryWithDescriptors.read 0 sect.payload with
    | none => .error table
    | some (top, rest) =>
      let table := { table with descs := table.descs ++ top.descs }
      if rest.length < 2 then .error table
      else
        let tsLength := min (getUInt16 rest 0 &&& 0x0FFF) (rest.length - 2)
        .ok ((readAllRecords (EntryWithDescriptors.read 4) ((rest.drop 2).take tsLength)).foldl
          putTransport table)

def clear : AbstractTransportListTable :=
  { table with
    isValid := false
    tidExt := 0xFFFF
    descs := []
    transports := SortedMap.empty
    sectionHints := SortedMap.empty }

/-- The table ids are the same, or they are those of a NIT. -/
def IsCompatible (tableId : UInt8) : Prop :=
  ((table.tableId = tidNitAct ∨ table.tableId = tidNitOth) ∧
    (tableId = tidNitAct ∨ tableId = tidNitOth)) ∨ tableId = table.tableId

instance (tableId : UInt8) : Decidable (table.IsCompatible tableId) := by
  unfold IsCompatible
  infer_instance

def deserialize (binary : BinaryTable) : AbstractTransportListTable :=
  if ¬ binary.isValid then table.clear
  else if ¬ table.IsCompatible binary.tableId then table.clear
  else
    match binary.allSections.foldlM readSection { table.clear with tableId := binary.tableId } with
    | .error table => table
    | .ok table => { table with isValid := true }

end AbstractTransportListTable

/-! ### The content of a section -/

/-- Descriptors of the table and entries of a loop. -/
structure TransportSection where
  descs : DescriptorList
  transports : List EntryWithDescriptors
  deriving DecidableEq

namespace TransportSection

def loop (sect : TransportSection) : ByteBlock :=
  sect.transports.flatMap EntryWithDescriptors.bytes

def payloadWith (sect : TransportSection) (length : ℕ) : ByteBlock :=
  (AbstractTransportListTable.topEntry sect.descs).bytes ++
    (putUInt16 (length ||| 0xF000) ++ sect.loop)

def payload (sect : TransportSection) : ByteBlock := sect.payloadWith sect.loop.length

theorem length_payloadWith (sect : TransportSection) (length : ℕ) :
    (sect.payloadWith length).length = sect.descs.binarySize + 4 + sect.loop.length := by
  rw [payloadWith, List.length_append, List.length_append, EntryWithDescriptors.length_bytes]
  show 0 + 2 + sect.descs.binarySize + (2 + sect.loop.length) = _
  omega

/-- The entries of the transport loop are those of transport streams. -/
def HasTransports (sect : TransportSection) : Prop :=
  ∀ entry ∈ sect.transports, entry.fixed.length = 4 ∧ entry.high &&& 0x0F = 0

end TransportSection

namespace AbstractTransportListTable

def addContent (table : AbstractTransportListTable) (sect : TransportSection) :
    AbstractTransportListTable :=
  sect.transports.foldl putTransport { table with descs := table.descs ++ sect.descs }

def withHeader (header : LongHeader) (table : AbstractTransportListTable) :
    AbstractTransportListTable :=
  { table with
    version := header.version
    isCurrent := header.isCurrent
    tidExt := header.tableIdExtension }

theorem foldl_putTransport (table : AbstractTransportListTable)
    (entries : List EntryWithDescriptors) :
    entries.foldl putTransport table = { table with
        transports := entries.foldl (fun transports entry ↦
          transports.update (TransportStreamId.ofBytes entry.fixed) fun descs ↦
            descs.elim [] id ++ entry.descs) table.transports } := by
  induction entries generalizing table with
  | nil => rfl
  | cons entry rest ih =>
    rw [List.foldl_cons, ih]
    rfl

theorem foldl_addContent (table : AbstractTransportListTable) (sections : List TransportSection) :
    sections.foldl addContent table =
      (sections.flatMap TransportSection.transports).foldl putTransport
        { table with descs := table.descs ++ sections.flatMap TransportSection.descs } := by
  induction sections generalizing table with
  | nil =>
    rw [List.flatMap_nil, List.append_nil]
    rfl
  | cons sect rest ih =>
    rw [List.foldl_cons, ih, List.flatMap_cons, List.flatMap_cons, List.foldl_append, addContent,
      ← List.append_assoc, foldl_putTransport, foldl_putTransport, foldl_putTransport,
      foldl_putTransport]

theorem addContent_withHeader (header : LongHeader) (table : AbstractTransportListTable)
    (sect : TransportSection) :
    addContent (withHeader header table) sect = withHeader header (addContent table sect) := by
  unfold addContent
  rw [foldl_putTransport, foldl_putTransport]
  rfl

/-- A section adds its content. -/
theorem readSection_build {table source : AbstractTransportListTable}
    (htable : table.tableId = source.tableId) (hversion : source.version ≤ 31)
    (number last : UInt8) {sect : TransportSection} (hentries : sect.HasTransports)
    (hfits : sect.payload.length ≤ maxPsiLongSectionPayloadSize)
    (hsize : sect.payload.length ≤ 4084) :
    table.readSection (source.header.build number last hsize) =
      .ok (addContent (withHeader source.header table) sect) := by
  have hmax : maxPsiLongSectionPayloadSize = 1012 := rfl
  have hid : Fin.ofNat 65536 source.header.tableIdExtension.val =
      source.header.tableIdExtension := Fin.ofNat_val_eq_self _
  have htid : (source.header.build number last hsize).tableId = table.tableId := htable.symm
  have hlength := sect.length_payloadWith sect.loop.length
  rw [show sect.payloadWith sect.loop.length = sect.payload from rfl] at hlength
  have htop : EntryWithDescriptors.read 0 sect.payload =
      some (topEntry sect.descs, putUInt16 (sect.loop.length ||| 0xF000) ++ sect.loop) :=
    EntryWithDescriptors.read_append rfl (show (0xF0 : UInt8) &&& 0x0F = 0 by decide) (by
      show sect.descs.binarySize < 4096
      omega) _
  have hword : getUInt16 (putUInt16 (sect.loop.length ||| 0xF000) ++ sect.loop) 0 &&& 0x0FFF =
      sect.loop.length := length_putUInt16 (by omega) _
  have hloop : (putUInt16 (sect.loop.length ||| 0xF000) ++ sect.loop).length =
      2 + sect.loop.length := List.length_append
  have hdrop : (putUInt16 (sect.loop.length ||| 0xF000) ++ sect.loop).drop 2 = sect.loop := rfl
  have hread : readAllRecords (EntryWithDescriptors.read 4) sect.loop = sect.transports := by
    apply EntryWithDescriptors.readAllRecords_bytes
    intro entry hentry
    obtain ⟨hfixed, hhigh⟩ := hentries entry hentry
    refine ⟨hfixed, hhigh, ?_⟩
    obtain ⟨before, after, hsplit⟩ := List.append_of_mem hentry
    have hpart : sect.loop.length = (before.flatMap EntryWithDescriptors.bytes).length +
        (entry.bytes.length + (after.flatMap EntryWithDescriptors.bytes).length) := by
      rw [TransportSection.loop, hsplit, List.flatMap_append, List.flatMap_cons,
        List.length_append, List.length_append]
    rw [EntryWithDescriptors.length_bytes] at hpart
    omega
  unfold readSection
  rw [if_neg (not_not.mpr htid)]
  simp only [source.header.payload_build, source.header.version_build _ _ _ hversion,
    source.header.isCurrent_build _ _ _ hversion, source.header.tableIdExtension_build, hid, htop,
    hword, hloop, hdrop, Nat.add_sub_cancel_left, Nat.min_self, List.take_length, hread]
  rw [if_neg (by omega)]
  rfl

/-- The table is rebuilt from the payloads. -/
theorem deserialize_ofPayloads {table : AbstractTransportListTable} (hvalid : table.isValid = true)
    (hversion : table.version ≤ 31) {sections : List TransportSection} (hnonempty : sections ≠ [])
    (hcount : sections.length ≤ 256)
    (hsizes : ∀ sect ∈ sections, sect.payload.length ≤ maxPsiLongSectionPayloadSize)
    (hdescs : sections.flatMap TransportSection.descs = table.descs)
    (entries : List (TransportStreamId × DescriptorList))
    (hperm : entries.Perm table.transports.entries) {cuts : List (List EntryWithDescriptors)}
    (hcuts : List.Forall₂ EntryWithDescriptors.IsCut (entries.map transportEntry) cuts)
    (htransports : sections.flatMap TransportSection.transports = cuts.flatten)
    {target : AbstractTransportListTable} (hcompatible : target.IsCompatible table.tableId) :
    target.deserialize (BinaryTable.ofPayloads table.header
      (sections.map TransportSection.payload)) =
        { table with sectionHints := SortedMap.empty } := by
  have hentries : ∀ sect ∈ sections, sect.HasTransports := by
    intro sect hsect record hrecord
    obtain ⟨entry, hentry, hfixed, hhigh⟩ := EntryWithDescriptors.exists_of_mem_cuts hcuts
      (htransports ▸ List.mem_flatMap.mpr ⟨sect, hsect, hrecord⟩)
    obtain ⟨transport, -, rfl⟩ := List.mem_map.mp hentry
    rw [hfixed, hhigh]
    exact ⟨rfl, show (0xF0 : UInt8) &&& 0x0F = 0 by decide⟩
  have hread := BinaryTable.foldlM_ofPayloads (Except AbstractTransportListTable) table.header
    readSection (fun state sect ↦ addContent (withHeader table.header state) sect)
    (fun state ↦ state.tableId = table.tableId) hversion
    (fun sect hsect ↦ (hsizes sect hsect).trans (by decide)) hcount
    (fun state sect hstate ↦ by
      rw [addContent, foldl_putTransport]
      exact hstate)
    (fun state number last sect hstate hsect hsize ↦
      readSection_build hstate hversion number last (hentries sect hsect) (hsizes sect hsect) hsize)
    { target.clear with tableId := table.tableId } rfl
  have hsteps : ∀ (sections : List TransportSection) (state : AbstractTransportListTable),
      sections ≠ [] → sections.foldl (fun state sect ↦
        addContent (withHeader table.header state) sect) state =
          withHeader table.header (sections.foldl addContent state) := by
    intro sections
    induction sections with
    | nil =>
      intro _ hne
      exact absurd rfl hne
    | cons sect rest ih =>
      intro state _
      rw [List.foldl_cons, List.foldl_cons, addContent_withHeader]
      by_cases hlast : rest = []
      · rw [hlast]
        rfl
      · rw [ih _ hlast, foldl_comm (addContent_withHeader table.header)]
        rfl
  have hmap := EntryWithDescriptors.foldl_update_cuts TransportStreamId.ofBytes (fun _ _ descs ↦ descs) id (fun _ _ _ ↦ rfl) transportEntry
    (fun entry _ ↦ ⟨TransportStreamId.ofBytes_bytes entry.1, rfl⟩) hperm hcuts
  have hrebuilt : withHeader table.header (sections.foldl addContent
      { target.clear with tableId := table.tableId }) =
        { table with isValid := false, sectionHints := SortedMap.empty } := by
    rw [foldl_addContent, hdescs, htransports, foldl_putTransport, withHeader,
      AbstractTransportListTable.mk.injEq]
    exact ⟨rfl, rfl, rfl, rfl, rfl, rfl, hmap, rfl⟩
  rw [hsteps _ _ hnonempty, hrebuilt] at hread
  have haccepted : ¬ ¬ (BinaryTable.ofPayloads table.header
      (sections.map TransportSection.payload)).isValid = true := not_not.mpr rfl
  have htid : (BinaryTable.ofPayloads table.header
      (sections.map TransportSection.payload)).tableId = table.tableId := rfl
  unfold deserialize
  rw [if_neg haccepted, htid, if_neg (not_not.mpr hcompatible), hread]
  show { table with isValid := true, sectionHints := SortedMap.empty } = _
  rw [← hvalid]

end AbstractTransportListTable

end TSDuck
