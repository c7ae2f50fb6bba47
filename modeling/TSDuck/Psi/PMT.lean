import TSDuck.Library.SortedMap
import TSDuck.Psi.DescriptorList
import TSDuck.Psi.SectionWriter

/-!
# Program Map Table

When the descriptors of a stream do not fit in what is left of the section, nothing is serialized
and the table is not valid.

The two other ways not to fit are not checked. `roundTrips_iff_fits_or_overflows` states exactly
when a PMT is rebuilt from its table or the table is not valid.
-/

namespace TSDuck

def tidPmt : UInt8 := 0x02

namespace PMT

/-- The description of an elementary stream. -/
structure Stream where
  streamType : UInt8
  descs : DescriptorList
  deriving DecidableEq

end PMT

/-- A Program Map Table. -/
structure PMT where
  isValid : Bool
  version : UInt8
  isCurrent : Bool
  serviceId : Uint16
  pcrPid : Pid
  descs : DescriptorList
  streams : SortedMap Pid PMT.Stream
  deriving DecidableEq

namespace PMT

def header (pmt : PMT) : LongHeader :=
  { tableId := tidPmt
    isPrivateSection := false
    tableIdExtension := pmt.serviceId
    version := pmt.version
    isCurrent := pmt.isCurrent }

def remain (payload : ByteBlock) : ℕ := maxPsiLongSectionPayloadSize - payload.length

/-- Adds streams as long as five bytes are left. -/
def addStreams : ByteBlock → List (Pid × Stream) → Option ByteBlock
  | payload, [] => some payload
  | payload, (pid, stream) :: rest =>
    if remain payload < 5 then some payload
    else
      let loop := stream.descs.lengthSerialize (remain payload - 3) 0
      if loop.2 ≠ stream.descs.length then none
      else addStreams
        (payload ++ ([stream.streamType] ++ putUInt16 (pid.val ||| 0xE000)) ++ loop.1) rest

def programInfo (pmt : PMT) : ByteBlock :=
  putUInt16 (pmt.pcrPid.val ||| 0xE000) ++
    (pmt.descs.lengthSerialize (maxPsiLongSectionPayloadSize - 2) 0).1

def serialize (pmt : PMT) : BinaryTable :=
  if pmt.isValid then
    match addStreams pmt.programInfo pmt.streams.entries with
    | none => BinaryTable.empty
    | some payload => BinaryTable.addPayload pmt.header BinaryTable.empty 0 payload
  else BinaryTable.empty

def streamPid (entry : EntryWithDescriptors) : Pid := getPid entry.fixed 1

def putStream (entry : EntryWithDescriptors) (stream : Option Stream) : Stream :=
  { streamType := byteAt entry.fixed 0
    descs := (stream.elim [] Stream.descs) ++ entry.descs }

/-- Reads a section, an error if the fixed parts are missing. -/
def readSection (pmt : PMT) (sect : Section) : Except PMT PMT :=
  let pmt :=
    { pmt with
      version := sect.version
      isCurrent := sect.isCurrent
      serviceId := Fin.ofNat 65536 sect.tableIdExtension }
  if sect.payload.length < 2 then .error pmt
  else
    let pmt := { pmt with pcrPid := getPid sect.payload 0 }
    match EntryWithDescriptors.read 0 (sect.payload.drop 2) with
    | none => .error pmt
    | some (info, rest) =>
      .ok { pmt with
        descs := pmt.descs ++ info.descs
        streams := (readAllRecords (EntryWithDescriptors.read 3) rest).foldl
          (fun streams entry ↦ streams.update (streamPid entry) (putStream entry)) pmt.streams }

def clear (pmt : PMT) : PMT :=
  { pmt with
    isValid := false
    serviceId := 0
    pcrPid := ⟨pidNull, pidNull_lt⟩
    descs := []
    streams := SortedMap.empty }

def deserialize (pmt : PMT) (table : BinaryTable) : PMT :=
  if ¬ table.isValid ∨ table.tableId ≠ tidPmt then pmt.clear
  else
    match table.allSections.foldlM readSection pmt.clear with
    | .error pmt => pmt
    | .ok pmt => { pmt with isValid := true }

/-! ### What is written in the section -/

def streamEntry (entry : Pid × Stream) : EntryWithDescriptors :=
  { fixed := [entry.2.streamType] ++ putUInt16 (entry.1.val ||| 0xE000)
    high := 0xF0
    descs := entry.2.descs }

def streamsSize (entries : List (Pid × Stream)) : ℕ :=
  (entries.map fun entry ↦ 5 + entry.2.descs.binarySize).sum

/-- A stream has five bytes left but no room for its descriptors. -/
def Overflow (entries : List (Pid × Stream)) (room : ℕ) : Prop :=
  ∃ before entry after, entries = before ++ entry :: after ∧ streamsSize before + 5 ≤ room ∧
    room < streamsSize before + 5 + entry.2.descs.binarySize

def streamsBytes (entries : List (Pid × Stream)) : ByteBlock :=
  (entries.map streamEntry).flatMap EntryWithDescriptors.bytes

theorem length_streamsBytes (entries : List (Pid × Stream)) :
    (streamsBytes entries).length = streamsSize entries := by
  induction entries with
  | nil => rfl
  | cons entry rest ih =>
    have hentry : (streamEntry entry).bytes.length = 5 + entry.2.descs.binarySize := by
      rw [EntryWithDescriptors.length_bytes]
      rfl
    unfold streamsBytes at ih ⊢
    rw [List.map_cons, List.flatMap_cons, List.length_append, ih, hentry]
    exact List.sum_cons.symm

@[simp] theorem streamsSize_nil : streamsSize [] = 0 := rfl

@[simp] theorem streamsSize_cons (entry : Pid × Stream) (rest : List (Pid × Stream)) :
    streamsSize (entry :: rest) = 5 + entry.2.descs.binarySize + streamsSize rest :=
  List.sum_cons

@[simp] theorem streamsSize_append (first second : List (Pid × Stream)) :
    streamsSize (first ++ second) = streamsSize first + streamsSize second := by
  unfold streamsSize
  rw [List.map_append, List.sum_append]

theorem not_overflow_nil (room : ℕ) : ¬ Overflow [] room := by
  rintro ⟨before, entry, after, hsplit, -⟩
  exact absurd hsplit.symm (List.append_ne_nil_of_right_ne_nil _ (List.cons_ne_nil _ _))

theorem overflow_cons (entry : Pid × Stream) (rest : List (Pid × Stream)) (room : ℕ) :
    Overflow (entry :: rest) room ↔ (5 ≤ room ∧ room < 5 + entry.2.descs.binarySize) ∨
        Overflow rest (room - (5 + entry.2.descs.binarySize)) := by
  constructor
  · rintro ⟨before, other, after, hsplit, hreached, hover⟩
    cases before with
    | nil =>
      obtain ⟨rfl, rfl⟩ := List.cons.inj hsplit
      rw [streamsSize_nil] at hreached hover
      left
      omega
    | cons first before =>
      obtain ⟨rfl, rfl⟩ := List.cons.inj hsplit
      rw [streamsSize_cons] at hreached hover
      right
      exact ⟨before, other, after, rfl, by omega, by omega⟩
  · rintro (⟨hreached, hover⟩ | ⟨before, other, after, rfl, hreached, hover⟩)
    · refine ⟨[], entry, rest, rfl, ?_, ?_⟩
      · rw [streamsSize_nil]
        omega
      · rw [streamsSize_nil]
        omega
    · refine ⟨entry :: before, other, after, rfl, ?_, ?_⟩
      · rw [streamsSize_cons]
        omega
      · rw [streamsSize_cons]
        omega

/-- All the descriptors of a stream are serialized if they fit. -/
theorem lengthSerialize_stream (entry : Pid × Stream) {room : ℕ} (hroom : room ≤ 4096) :
    ((entry.2.descs.lengthSerialize (room - 3) 0).2 = entry.2.descs.length ↔
      entry.2.descs.binarySize ≤ room - 5) ∧
    (entry.2.descs.binarySize ≤ room - 5 →
      [entry.2.streamType] ++ putUInt16 (entry.1.val ||| 0xE000) ++
        (entry.2.descs.lengthSerialize (room - 3) 0).1 = (streamEntry entry).bytes) := by
  obtain ⟨written, hfits, hloop⟩ :=
    EntryWithDescriptors.lengthSerialize_spec entry.2.descs (room - 3) (by omega) 0
  rw [List.drop_zero] at hfits
  have hiff := hfits.fits_iff
  rw [Nat.sub_sub] at hiff
  rw [hloop, hiff, Nat.zero_add]
  constructor
  · obtain ⟨rest, hsplit, -⟩ := hfits
    rw [hsplit, List.append_right_eq_self, List.length_append]
    constructor
    · intro hlength
      apply List.eq_nil_of_length_eq_zero
      omega
    · rintro rfl
      rfl
  · intro hall
    rw [EntryWithDescriptors.bytes_eq, ← hall]
    rfl

/-- The streams overflow, or the other ones have no room. -/
theorem addStreams_spec (payload : ByteBlock) (entries : List (Pid × Stream))
    (hpayload : payload.length ≤ maxPsiLongSectionPayloadSize) :
    (addStreams payload entries = none ∧ Overflow entries (remain payload)) ∨
      ∃ written left, entries = written ++ left ∧
        addStreams payload entries = some (payload ++ streamsBytes written) ∧
          streamsSize written ≤ remain payload ∧
            (left ≠ [] → remain payload < streamsSize written + 5) ∧
              ¬ Overflow entries (remain payload) := by
  have hmax : maxPsiLongSectionPayloadSize = 1012 := rfl
  induction entries generalizing payload with
  | nil =>
    right
    refine ⟨[], [], rfl, ?_, Nat.zero_le _, fun hne ↦ absurd rfl hne, not_overflow_nil _⟩
    rw [streamsBytes, List.map_nil, List.flatMap_nil, List.append_nil, addStreams]
  | cons entry rest ih =>
    have hroom : remain payload ≤ 4096 := by
      unfold remain
      omega
    by_cases hstop : remain payload < 5
    · right
      refine ⟨[], entry :: rest, rfl, ?_, Nat.zero_le _, ?_, ?_⟩
      · rw [streamsBytes, List.map_nil, List.flatMap_nil, List.append_nil, addStreams, if_pos hstop]
      · intro _
        rw [streamsSize_nil]
        omega
      · rintro ⟨before, other, after, -, hreached, -⟩
        omega
    · by_cases hover : remain payload < 5 + entry.2.descs.binarySize
      · left
        constructor
        · have hleft : ¬ entry.2.descs.binarySize ≤ remain payload - 5 := by omega
          rw [← (lengthSerialize_stream entry hroom).1] at hleft
          rw [addStreams, if_neg hstop]
          exact if_pos hleft
        · rw [overflow_cons]
          left
          omega
      · obtain ⟨hall, hbytes⟩ := lengthSerialize_stream entry hroom
        have hfits : entry.2.descs.binarySize ≤ remain payload - 5 := by omega
        have hnext : addStreams payload (entry :: rest) =
            addStreams (payload ++ (streamEntry entry).bytes) rest := by
          rw [addStreams, if_neg hstop, ← hbytes hfits]
          dsimp only
          rw [if_neg (not_not.mpr (hall.mpr hfits)), List.append_assoc payload]
        have hsize : (streamEntry entry).bytes.length = 5 + entry.2.descs.binarySize := by
          rw [EntryWithDescriptors.length_bytes]
          rfl
        have hremain : remain (payload ++ (streamEntry entry).bytes) =
            remain payload - (5 + entry.2.descs.binarySize) := by
          unfold remain
          rw [List.length_append, hsize]
          omega
        have hlength : (payload ++ (streamEntry entry).bytes).length ≤
            maxPsiLongSectionPayloadSize := by
          unfold remain at hover
          rw [List.length_append, hsize]
          omega
        rw [hnext, overflow_cons, ← hremain]
        rcases ih _ hlength with ⟨hnone, hrest⟩ | ⟨written, left, rfl, hsome, hfits, hend, hrest⟩
        · exact Or.inl ⟨hnone, Or.inr hrest⟩
        · right
          refine ⟨entry :: written, left, rfl, ?_, ?_, ?_, ?_⟩
          · rw [hsome, List.append_assoc]
            rfl
          · rw [streamsSize_cons]
            omega
          · intro hleft
            have hbound := hend hleft
            rw [streamsSize_cons]
            omega
          · rintro (⟨-, hfirst⟩ | hother)
            · omega
            · exact hrest hother

/-- The PCR PID and the first program descriptors. -/
theorem programInfo_spec (pmt : PMT) :
    ∃ written : DescriptorList, pmt.descs.FitsUpTo written 1008 ∧
      pmt.programInfo = putUInt16 (pmt.pcrPid.val ||| 0xE000) ++
        EntryWithDescriptors.bytes ⟨[], 0xF0, written⟩ ∧
          pmt.programInfo.length = 4 + written.binarySize := by
  obtain ⟨written, hfits, hloop⟩ := EntryWithDescriptors.lengthSerialize_spec pmt.descs
    (maxPsiLongSectionPayloadSize - 2) (by decide) 0
  rw [List.drop_zero] at hfits
  have hinfo : pmt.programInfo = putUInt16 (pmt.pcrPid.val ||| 0xE000) ++
      EntryWithDescriptors.bytes ⟨[], 0xF0, written⟩ := by
    rw [programInfo, hloop, EntryWithDescriptors.bytes_eq]
    rfl
  refine ⟨written, hfits, hinfo, ?_⟩
  rw [hinfo, List.length_append, EntryWithDescriptors.length_bytes]
  show 2 + (0 + 2 + written.binarySize) = _
  omega

/-! ### Reading the section -/

def firstStreams (streams : SortedMap Pid Stream) {written left : List (Pid × Stream)}
    (hsplit : streams.entries = written ++ left) : SortedMap Pid Stream :=
  ⟨written, (List.pairwise_append.mp (hsplit ▸ streams.sorted)).1⟩

theorem readAllRecords_streamsBytes {entries : List (Pid × Stream)}
    (hsize : streamsSize entries < 4096) :
    readAllRecords (EntryWithDescriptors.read 3) (streamsBytes entries) =
      entries.map streamEntry := by
  apply EntryWithDescriptors.readAllRecords_bytes
  intro record hrecord
  obtain ⟨entry, hentry, rfl⟩ := List.mem_map.mp hrecord
  obtain ⟨before, after, rfl⟩ := List.append_of_mem hentry
  refine ⟨rfl, show (0xF0 : UInt8) &&& 0x0F = 0 by decide, ?_⟩
  rw [streamsSize_append, streamsSize_cons] at hsize
  show entry.2.descs.binarySize < 4096
  omega

theorem foldl_putStream (streams : SortedMap Pid Stream) :
    (streams.entries.map streamEntry).foldl
      (fun streams entry ↦ streams.update (streamPid entry) (putStream entry)) SortedMap.empty =
        streams := by
  have hparts : List.Forall₂ (SortedMap.MakeEntry streamPid putStream) streams.entries
      (streams.entries.map fun entry ↦ [streamEntry entry]) := by
    rw [List.forall₂_map_right_iff]
    apply List.forall₂_same.mpr
    intro entry _
    constructor
    · intro record hrecord
      rw [List.mem_singleton.mp hrecord]
      exact getPid_putUInt16 entry.1 []
    · rfl
  have hload := SortedMap.foldl_update_flatten _ _ (List.Perm.refl _) hparts
  rw [← List.flatMap_def, ← List.map_eq_flatMap] at hload
  exact hload

/-- What is read from a payload. -/
theorem deserialize_payload {pmt : PMT} (hversion : pmt.version ≤ 31) (descs : DescriptorList)
    (streams : SortedMap Pid Stream) {payload : ByteBlock}
    (hpayload : payload = putUInt16 (pmt.pcrPid.val ||| 0xE000) ++
      EntryWithDescriptors.bytes ⟨[], 0xF0, descs⟩ ++ streamsBytes streams.entries)
    (hsize : payload.length ≤ maxPsiLongSectionPayloadSize) (target : PMT) :
    target.deserialize (BinaryTable.addPayload pmt.header BinaryTable.empty 0 payload) =
      { pmt with isValid := true, descs := descs, streams := streams } := by
  have hmax : maxPsiLongSectionPayloadSize = 1012 := rfl
  have hfits : payload.length ≤ 4084 := by omega
  have hlength : payload.length = 4 + descs.binarySize + streamsSize streams.entries := by
    rw [hpayload, List.length_append, List.length_append, EntryWithDescriptors.length_bytes,
      length_streamsBytes]
    show 2 + (0 + 2 + descs.binarySize) + _ = _
    omega
  have hpcr : getPid payload 0 = pmt.pcrPid := by
    rw [hpayload, List.append_assoc]
    exact getPid_putUInt16 pmt.pcrPid _
  have hinfo : EntryWithDescriptors.read 0 (payload.drop 2) =
      some (⟨[], 0xF0, descs⟩, streamsBytes streams.entries) := by
    have hrest : payload.drop 2 =
        EntryWithDescriptors.bytes ⟨[], 0xF0, descs⟩ ++ streamsBytes streams.entries := by
      rw [hpayload]
      rfl
    rw [hrest]
    apply EntryWithDescriptors.read_append rfl
    · show (0xF0 : UInt8) &&& 0x0F = 0
      decide
    · show descs.binarySize < 4096
      omega
  have hid : Fin.ofNat 65536 pmt.header.tableIdExtension.val = pmt.serviceId :=
    Fin.ofNat_val_eq_self _
  have hread : ∀ number last, readSection target.clear (pmt.header.build number last hfits) =
      .ok { pmt with isValid := false, descs := descs, streams := streams } := by
    intro number last
    unfold readSection
    simp only [pmt.header.payload_build, pmt.header.version_build _ _ _ hversion,
      pmt.header.isCurrent_build _ _ _ hversion, pmt.header.tableIdExtension_build, hid, hpcr, hinfo]
    rw [if_neg (by omega), readAllRecords_streamsBytes (by omega)]
    show Except.ok _ = _
    rw [Except.ok.injEq, PMT.mk.injEq]
    refine ⟨rfl, rfl, rfl, rfl, rfl, rfl, ?_⟩
    exact foldl_putStream streams
  have hheader : pmt.header.version ≤ 31 := hversion
  obtain ⟨number, last, hsections⟩ := BinaryTable.allSections_addPayload_empty hheader hfits
  have haccepted : ¬ (¬ (BinaryTable.addPayload pmt.header BinaryTable.empty 0 payload).isValid =
      true ∨ (BinaryTable.addPayload pmt.header BinaryTable.empty 0 payload).tableId ≠ tidPmt) := by
    rw [BinaryTable.addPayload_empty hversion hfits]
    rintro (hinvalid | hother)
    · exact hinvalid rfl
    · exact hother rfl
  unfold deserialize
  rw [if_neg haccepted, hsections, List.foldlM_cons, hread]
  rfl

/-! ### Round trip -/

/-- The table is not valid, or deserializing it rebuilds the PMT. -/
def RoundTrips (pmt : PMT) : Prop :=
  pmt.serialize.isValid = false ∨ ∀ target : PMT, target.deserialize pmt.serialize = pmt

/-- All descriptors and streams are not larger than a section. -/
def FitsInSection (pmt : PMT) : Prop :=
  4 + pmt.descs.binarySize + streamsSize pmt.streams.entries ≤ maxPsiLongSectionPayloadSize

/-- A stream has five bytes but no room for its descriptors. -/
def StreamOverflows (pmt : PMT) : Prop :=
  ∃ written, pmt.descs.FitsUpTo written 1008 ∧
    Overflow pmt.streams.entries (1008 - written.binarySize)

theorem serialize_of_version {pmt : PMT} (hversion : ¬ pmt.version ≤ 31) :
    pmt.serialize = BinaryTable.empty := by
  have hnone : ∀ payload, BinaryTable.addPayload pmt.header BinaryTable.empty 0 payload =
      BinaryTable.empty := by
    intro payload
    exact (BinaryTable.payloadTable_concat pmt.header [] payload).symm.trans
      (BinaryTable.payloadTable_of_version hversion ([] ++ [payload]))
  unfold serialize
  split_ifs
  · cases addStreams pmt.programInfo pmt.streams.entries with
    | none => rfl
    | some payload => exact hnone payload
  · rfl

/-- A stream overflows, or everything is read if it fits. -/
theorem serialize_cases {pmt : PMT} (hvalid : pmt.isValid = true) (hversion : pmt.version ≤ 31) :
    (pmt.serialize = BinaryTable.empty ∧ pmt.StreamOverflows) ∨
      (pmt.serialize.isValid = true ∧ ¬ pmt.StreamOverflows ∧ ∃ descs streams,
        (∀ target : PMT, target.deserialize pmt.serialize =
          { pmt with descs := descs, streams := streams }) ∧
        (pmt.FitsInSection ↔ descs = pmt.descs ∧ streams = pmt.streams)) := by
  have hmax : maxPsiLongSectionPayloadSize = 1012 := rfl
  obtain ⟨descs, hfits, hinfo, hlength⟩ := pmt.programInfo_spec
  have hdescs : descs.binarySize ≤ 1008 := by
    obtain ⟨-, -, hle, -⟩ := hfits
    exact hle
  have hremain : remain pmt.programInfo = 1008 - descs.binarySize := by
    unfold remain
    omega
  rcases addStreams_spec pmt.programInfo pmt.streams.entries (by omega) with
    ⟨hnone, hover⟩ | ⟨written, left, hsplit, hsome, hsize, hend, hover⟩
  · left
    constructor
    · rw [serialize, if_pos hvalid, hnone]
    · rw [hremain] at hover
      exact ⟨descs, hfits, hover⟩
  · right
    have hserialize : pmt.serialize = BinaryTable.addPayload pmt.header BinaryTable.empty 0
        (pmt.programInfo ++ streamsBytes written) := by
      rw [serialize, if_pos hvalid, hsome]
    have hpayload : (pmt.programInfo ++ streamsBytes written).length ≤
        maxPsiLongSectionPayloadSize := by
      rw [List.length_append, length_streamsBytes]
      omega
    refine ⟨?_, ?_, descs, firstStreams pmt.streams hsplit, ?_, ?_⟩
    · rw [hserialize, BinaryTable.addPayload_empty hversion (by omega)]
      rfl
    · rintro ⟨other, hother, hoverflow⟩
      rw [hfits.unique hother] at hremain
      rw [hremain] at hover
      exact hover hoverflow
    · intro target
      rw [hserialize, deserialize_payload hversion descs (firstStreams pmt.streams hsplit)
        (by rw [hinfo]; rfl) hpayload, hvalid]
    · have hstreams : firstStreams pmt.streams hsplit = pmt.streams ↔ left = [] := by
        constructor
        · intro hsame
          have hentries := congrArg SortedMap.entries hsame
          rw [hsplit] at hentries
          exact List.append_right_eq_self.mp hentries.symm
        · rintro rfl
          rw [List.append_nil] at hsplit
          obtain ⟨valid, version, current, serviceId, pcrPid, all, ⟨entries, hsorted⟩⟩ := pmt
          obtain rfl : entries = written := hsplit
          rfl
      rw [hstreams, eq_comm, ← hfits.fits_iff]
      unfold FitsInSection
      rw [hsplit, streamsSize_append, hmax]
      constructor
      · intro hall
        refine ⟨by omega, ?_⟩
        by_contra hleft
        have hbound := hend hleft
        have heq := hfits.fits_iff.mp (by omega)
        obtain ⟨entry, after, rfl⟩ := List.exists_cons_of_ne_nil hleft
        rw [streamsSize_cons, heq] at hall
        omega
      · rintro ⟨hprogram, rfl⟩
        have heq := hfits.fits_iff.mp hprogram
        rw [streamsSize_nil, heq]
        omega

def largeProgramInfo : PMT where
  isValid := true
  version := 0
  isCurrent := true
  serviceId := 1
  pcrPid := 0x100
  descs := [Descriptor.largest, Descriptor.largest, Descriptor.largest, Descriptor.largest]
  streams := SortedMap.empty

/-- The last program descriptor is not in the valid table. -/
theorem largeProgramInfo_not_roundTrips : ¬ largeProgramInfo.RoundTrips := by
  have hsize : largeProgramInfo.descs.binarySize = 1028 := by
    unfold largeProgramInfo DescriptorList.binarySize
    simp only [List.map_cons, List.map_nil, Descriptor.size_largest]
    rfl
  have hlarge : ¬ largeProgramInfo.FitsInSection := by
    unfold FitsInSection
    rw [hsize]
    decide
  have hnone : ¬ largeProgramInfo.StreamOverflows := by
    rintro ⟨written, -, hover⟩
    exact not_overflow_nil _ hover
  have hversion : largeProgramInfo.version ≤ 31 := by decide
  rcases serialize_cases rfl hversion with
    ⟨-, hover⟩ | ⟨htable, -, descs, streams, hread, hall⟩
  · exact absurd hover hnone
  · rintro (hinvalid | hrebuilt)
    · rw [htable] at hinvalid
      cases hinvalid
    · have hsame := (hread largeProgramInfo).symm.trans (hrebuilt largeProgramInfo)
      exact hlarge (hall.mpr ⟨congrArg PMT.descs hsame, congrArg PMT.streams hsame⟩)

/-- It holds if and only if the PMT is not valid, or its version has more than five bits, or
everything fits in the section, or the first stream which does not fit has five bytes left. -/
theorem roundTrips_iff_fits_or_overflows (pmt : PMT) :
    pmt.RoundTrips ↔
      (pmt.isValid = false ∨ 31 < pmt.version ∨ pmt.FitsInSection ∨ pmt.StreamOverflows) := by
  cases hvalid : pmt.isValid with
  | false =>
    apply iff_of_true
    · left
      unfold serialize
      rw [hvalid]
      rfl
    · exact Or.inl rfl
  | true =>
    by_cases hversion : pmt.version ≤ 31
    · rcases serialize_cases hvalid hversion with ⟨hempty, hover⟩ | ⟨htable, hover, descs, streams, hread, hall⟩
      · apply iff_of_true
        · left
          rw [hempty]
          rfl
        · exact Or.inr (Or.inr (Or.inr hover))
      · have hround : pmt.RoundTrips ↔ pmt.FitsInSection := by
          rw [hall]
          constructor
          · rintro (hinvalid | hrebuilt)
            · rw [htable] at hinvalid
              cases hinvalid
            · have hsame := (hread pmt).symm.trans (hrebuilt pmt)
              exact ⟨congrArg PMT.descs hsame, congrArg PMT.streams hsame⟩
          · rintro ⟨rfl, rfl⟩
            exact Or.inr hread
        rw [hround]
        constructor
        · intro hfits
          exact Or.inr (Or.inr (Or.inl hfits))
        · rintro (hinvalid | hbad | hfits | hoverflow)
          · cases hinvalid
          · exact absurd hbad (UInt8.not_lt.mpr hversion)
          · exact hfits
          · exact absurd hoverflow hover
    · apply iff_of_true
      · left
        rw [serialize_of_version hversion]
        rfl
      · exact Or.inr (Or.inl (UInt8.not_le.mp hversion))

end PMT

end TSDuck
