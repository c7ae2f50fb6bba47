import TSDuck.Psi.DescriptorSpecifiers

/-!
# Serializing a descriptor list in chunks

A descriptor list which does not fit in one section is serialized with several calls of `serialize`,
each one from the index which the previous one has returned and in the space that remains in its
section (`ElementVector.chunks`).

The private data specifiers of the rebuilt list are computed from its descriptors, so they are those
of the list only when they are the right ones there (`IsConsistent`). `serializesInChunks_iff`
states that nothing else can go wrong.
-/

namespace TSDuck

namespace ElementVector

/-- Serializes the descriptors as long as they fit. -/
def serializeLoop : ElementVector → ℕ → ℕ → Option (ByteBlock × ℕ)
  | [], _, index => some ([], index)
  | element :: rest, size, index =>
    match element.desc with
    | none => none
    | some desc =>
      if desc.size ≤ size then
        (serializeLoop rest (size - desc.size) (index + 1)).map fun later ↦
          (desc.content ++ later.1, later.2)
      else some ([], index)

def serialize (elements : ElementVector) (size start : ℕ) : Option (ByteBlock × ℕ) :=
  serializeLoop (elements.drop start) size start

/-- Calls of `serialize`, each from the last index. -/
def chunks (elements : ElementVector) : Machine ℕ ℕ ByteBlock where
  step start size := (elements.serialize size start).map fun chunk ↦ (chunk.2, [chunk.1])

/-- One call writes some descriptors, one at least if it fits. -/
def WritesChunk (elements : ElementVector) (size start : ℕ) : Prop :=
  ∃ written : DescriptorList, elements.serialize size start =
      some (DescriptorList.bytes written, start + written.length) ∧
    ((elements.drop start).take written.length).map DescriptorElement.desc = written.map some ∧
    (DescriptorList.bytes written).length ≤ size ∧
    ∀ element desc, elements[start]? = some element → element.desc = some desc →
      desc.size ≤ size → 0 < written.length

/-- The list is rebuilt from all the chunks. -/
structure SerializesInChunks (elements : ElementVector) : Prop where
  writes : ∀ size start, start ≤ elements.length → elements.WritesChunk size start
  rebuilds : ∀ sizes written, elements.chunks.run 0 sizes = some (elements.length, written) →
    written.foldl addBytes [] = elements

/-- The descriptors of a list are valid. -/
def AllValid (elements : ElementVector) : Prop :=
  ∀ element ∈ elements, element.desc ≠ none

variable {elements : ElementVector}

theorem serializeLoop_eq {descs : DescriptorList}
    (hdescs : elements.map DescriptorElement.desc = descs.map some) (size index : ℕ) :
    elements.serializeLoop size index = some (descs.serializeLoop size index) := by
  induction elements generalizing descs size index with
  | nil =>
    obtain rfl : descs = [] := by simpa using hdescs.symm
    rfl
  | cons element rest ih =>
    cases descs with
    | nil => simp at hdescs
    | cons desc descs =>
      obtain ⟨hfirst, hrest⟩ := List.cons.inj hdescs
      unfold serializeLoop DescriptorList.serializeLoop
      rw [show element.desc = some desc from hfirst]
      dsimp only
      split_ifs
      · rw [ih hrest]
        rfl
      · rfl

theorem AllValid.exists_descs (hvalid : elements.AllValid) :
    ∃ descs : DescriptorList, elements.map DescriptorElement.desc = descs.map some := by
  refine ⟨elements.filterMap DescriptorElement.desc, ?_⟩
  induction elements with
  | nil => rfl
  | cons element rest ih =>
    obtain ⟨desc, hdesc⟩ := Option.ne_none_iff_exists'.mp (hvalid element List.mem_cons_self)
    rw [List.map_cons, List.filterMap_cons_some hdesc, List.map_cons, hdesc,
      ih fun other hother ↦ hvalid other (List.mem_cons_of_mem element hother)]

theorem AllValid.writesChunk (hvalid : elements.AllValid) (size start : ℕ) :
    elements.WritesChunk size start := by
  obtain ⟨descs, hdescs⟩ := hvalid.exists_descs
  have hdrop : (elements.drop start).map DescriptorElement.desc = (descs.drop start).map some := by
    rw [List.map_drop, hdescs, List.map_drop]
  obtain ⟨written, ⟨rest, hsplit, hsize, hend⟩, hloop⟩ :=
    DescriptorList.serializeLoop_spec (descs.drop start) size start
  refine ⟨written, (serializeLoop_eq hdrop size start).trans (congrArg some hloop), ?_, ?_, ?_⟩
  · rw [List.map_take, hdrop, hsplit, List.map_append, ← List.length_map some, List.take_left]
  · rw [DescriptorList.length_bytes]
    exact hsize
  · intro element desc helement hdesc hfits
    refine Nat.pos_of_ne_zero fun hzero ↦ ?_
    obtain rfl := List.eq_nil_of_length_eq_zero hzero
    have hhead : rest.head? = some desc := by
      have hsome : some (some desc) = (rest.map some).head? := by
        rw [← show (descs.drop start) = rest from hsplit, ← hdrop, List.head?_map, List.head?_drop,
          helement]
        exact congrArg some hdesc.symm
      rw [List.head?_map] at hsome
      obtain ⟨first, hfirst, heq⟩ := Option.map_eq_some_iff.mp hsome.symm
      rw [hfirst, heq]
    have hover := hend desc hhead
    rw [DescriptorList.binarySize_nil] at hover
    omega

theorem addBytes_bytes (elements : ElementVector) (descs : DescriptorList) :
    elements.addBytes (DescriptorList.bytes descs) =
      descs.foldl (fun elements desc ↦ elements.add (some desc)) elements := by
  have hread : readAllRecords Descriptor.read (DescriptorList.bytes descs) = descs :=
    DescriptorList.add_bytes [] descs
  rw [addBytes, hread]

theorem foldl_add_of_consistent (hconsistent : ConsistentFrom 0 elements)
    {before part after : ElementVector} (hsplit : elements = before ++ part ++ after)
    {descs : DescriptorList} (hdescs : part.map DescriptorElement.desc = descs.map some) :
    descs.foldl (fun elements desc ↦ elements.add (some desc)) before = before ++ part := by
  induction part generalizing before descs with
  | nil =>
    obtain rfl : descs = [] := by simpa using hdescs.symm
    rw [List.append_nil]
    rfl
  | cons element rest ih =>
    cases descs with
    | nil => simp at hdescs
    | cons desc descs =>
      obtain ⟨hfirst, hrest⟩ := List.cons.inj hdescs
      have hbefore : ConsistentFrom 0 (before ++ (element :: rest ++ after)) := by
        rwa [← List.append_assoc, ← hsplit]
      obtain ⟨hfront, hspecifier, -⟩ := (consistentFrom_append 0 before _).mp hbefore
      have hadd : before.add (some desc) = before ++ [element] := by
        rw [inForce_eq_lastPDS hfront] at hspecifier
        obtain ⟨elementDesc, pds⟩ := element
        obtain rfl : elementDesc = some desc := hfirst
        rw [add, show pds = _ from hspecifier]
        rfl
      rw [List.foldl_cons, hadd, ih (by rw [hsplit]; simp) hrest, List.append_assoc]
      rfl

theorem rebuilds_take (hvalid : elements.AllValid) (hconsistent : ConsistentFrom 0 elements)
    {sizes : List ℕ} {start last : ℕ} {written : List ByteBlock} (hstart : start ≤ elements.length)
    (hrun : elements.chunks.run start sizes = some (last, written)) :
    written.foldl addBytes (elements.take start) = elements.take last := by
  induction sizes generalizing start written with
  | nil =>
    obtain ⟨rfl, rfl⟩ := Prod.mk.inj (Option.some.inj hrun)
    rfl
  | cons size sizes ih =>
    obtain ⟨next, first, later, hstep, hlater, rfl⟩ :=
      (Machine.run_cons_eq_some _).mp hrun
    obtain ⟨descs, hserialize, hdescs, -, -⟩ := hvalid.writesChunk size start
    have hchunk : elements.chunks.step start size =
        some (start + descs.length, [DescriptorList.bytes descs]) := by
      show (elements.serialize size start).map _ = _
      rw [hserialize]
      rfl
    obtain ⟨rfl, rfl⟩ := Prod.mk.inj (Option.some.inj (hchunk.symm.trans hstep))
    have hlength : start + descs.length ≤ elements.length := by
      have hcount := congrArg List.length hdescs
      rw [List.length_map, List.length_map, List.length_take, List.length_drop] at hcount
      omega
    have htake : elements.take (start + descs.length) =
        elements.take start ++ (elements.drop start).take descs.length := List.take_add
    have hsplit : elements = elements.take start ++ (elements.drop start).take descs.length ++
        elements.drop (start + descs.length) := by
      rw [← htake, List.take_append_drop]
    show later.foldl addBytes (addBytes (elements.take start) (DescriptorList.bytes descs)) = _
    rw [addBytes_bytes, foldl_add_of_consistent hconsistent hsplit hdescs, ← htake]
    exact ih hlength hlater

theorem AllValid.exists_chunk (hvalid : elements.AllValid) :
    ∃ size data, elements.chunks.run 0 [size] = some (elements.length, [data]) := by
  obtain ⟨descs, hdescs⟩ := hvalid.exists_descs
  obtain ⟨written, hfits, hloop⟩ := descs.serializeLoop_spec descs.binarySize 0
  obtain rfl := hfits.fits_iff.mp le_rfl
  have hlength : elements.length = descs.length := by
    rw [← List.length_map DescriptorElement.desc, hdescs, List.length_map]
  refine ⟨descs.binarySize, DescriptorList.bytes descs, ?_⟩
  refine (Machine.run_cons_eq_some _).mpr ⟨elements.length, [DescriptorList.bytes descs], [], ?_,
    rfl, rfl⟩
  show (serializeLoop (elements.drop 0) _ 0).map _ = _
  rw [List.drop_zero, serializeLoop_eq hdescs, hloop, hlength, Nat.zero_add]
  rfl

/-- It holds if and only if the descriptors are valid and the private data specifiers are the right
ones. -/
theorem serializesInChunks_iff (elements : ElementVector) :
    elements.SerializesInChunks ↔ elements.AllValid ∧ elements.IsConsistent := by
  constructor
  · rintro ⟨hwrites, hrebuilds⟩
    have hvalid : elements.AllValid := by
      intro element hmem hnone
      obtain ⟨index, hindex⟩ := List.getElem?_of_mem hmem
      obtain ⟨hlt, hget⟩ := List.getElem?_eq_some_iff.mp hindex
      obtain ⟨written, hserialize, -⟩ := hwrites 0 index hlt.le
      unfold serialize at hserialize
      rw [List.drop_eq_getElem_cons hlt, serializeLoop, hget, hnone] at hserialize
      cases hserialize
    refine ⟨hvalid, ?_⟩
    obtain ⟨size, data, hrun⟩ := hvalid.exists_chunk
    have hrebuilt : addBytes [] data = elements := hrebuilds [size] [data] hrun
    rw [isConsistent_iff, ← hrebuilt]
    exact (show ConsistentFrom 0 [] from trivial).addBytes data
  · rintro ⟨hvalid, hconsistent⟩
    rw [isConsistent_iff] at hconsistent
    refine ⟨fun size start _ ↦ hvalid.writesChunk size start, fun sizes written hrun ↦ ?_⟩
    have hrebuilt := rebuilds_take hvalid hconsistent (Nat.zero_le _) hrun
    rwa [List.take_zero, List.take_length] at hrebuilt

/-- A list with a specifier, to which another one is added. -/
def extendedList : ElementVector :=
  (addPrivateDataSpecifier [] 1).addList privateList

/-- The private descriptor of the rebuilt list has another specifier. -/
theorem extendedList_not_serializesInChunks :
    Built extendedList ∧ ¬ extendedList.SerializesInChunks := by
  constructor
  · have hspecifier : Built (call [] (.addPrivateDataSpecifier 1)) := .call .empty nofun
    have hadded : Built (call (addPrivateDataSpecifier [] 1) (.addList privateList)) := by
      refine .call hspecifier fun other hother ↦ ?_
      obtain rfl := Call.addList.inj hother
      exact built_privateList
    exact hadded
  · intro hchunks
    have hrebuilt := hchunks.rebuilds [9] [[0x5F, 4, 0, 0, 0, 1, 0x80, 1, 0x2A]] rfl
    exact absurd hrebuilt (by decide)

end ElementVector

end TSDuck
