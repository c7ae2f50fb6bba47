import TSDuck.Library.Records
import TSDuck.Library.SortedMap
import TSDuck.Psi.SectionWriter
import Mathlib.Data.List.FinRange

/-!
# Program Association Table

The PAT maps the services of a transport stream to the PID of their PMT.

A table has at most 256 sections, and the section numbers are bytes. When the pairs need more than
256 sections, the number wraps and the first sections are replaced: the table is still valid but the
services which were there are lost. This happens exactly when there are more than 64768 pairs
(`roundTrips_iff_pairs_fit`).
-/

namespace TSDuck

def tidPat : UInt8 := 0x00

def noPid : Pid := ⟨pidNull, pidNull_lt⟩

/-- A Program Association Table. -/
structure PAT where
  isValid : Bool
  version : UInt8
  isCurrent : Bool
  tsId : Uint16
  nitPid : Pid
  pmts : SortedMap Uint16 Pid
  deriving DecidableEq

namespace PAT

def header (pat : PAT) : LongHeader :=
  { tableId := tidPat
    isPrivateSection := false
    tableIdExtension := pat.tsId
    version := pat.version
    isCurrent := pat.isCurrent }

def putPair (pair : Uint16 × Pid) : ByteBlock :=
  putUInt16 pair.1.val ++ putUInt16 (pair.2.val ||| 0xE000)

def addService (pat : PAT) (writer : SectionWriter) (service : Uint16 × Pid) : SectionWriter :=
  (if writer.remain < 4 then writer.addSection pat.header 0 else writer).write (putPair service)

def startNit (pat : PAT) : SectionWriter :=
  if pat.nitPid ≠ noPid then (SectionWriter.start []).write (putPair (0, pat.nitPid))
  else SectionWriter.start []

def serialize (pat : PAT) : BinaryTable :=
  if pat.isValid then
    ((pat.pmts.entries.foldl pat.addService pat.startNit).finish pat.header 0).table
  else BinaryTable.empty

def readPair (data : ByteBlock) : Option ((Uint16 × Pid) × ByteBlock) :=
  if data.length < 4 then none else some ((getWord data 0, getPid data 2), data.drop 4)

def register (pat : PAT) (pair : Uint16 × Pid) : PAT :=
  if pair.1 = 0 then { pat with nitPid := pair.2 }
  else { pat with pmts := pat.pmts.update pair.1 fun _ ↦ pair.2 }

def readSection (pat : PAT) (sect : Section) : PAT :=
  (readAllRecords readPair sect.payload).foldl register
    { pat with
      version := sect.version
      isCurrent := sect.isCurrent
      tsId := Fin.ofNat 65536 sect.tableIdExtension }

def clear (pat : PAT) : PAT :=
  { pat with isValid := false, nitPid := noPid, pmts := SortedMap.empty }

/-- Deserializes a valid table with the table id of a PAT. -/
def deserialize (pat : PAT) (table : BinaryTable) : PAT :=
  if ¬ table.isValid ∨ table.tableId ≠ tidPat then pat.clear
  else { table.allSections.foldl readSection pat.clear with isValid := true }

@[simp] theorem length_putPair (pair : Uint16 × Pid) : (putPair pair).length = 4 :=
  rfl

theorem readPair_append (pair : Uint16 × Pid) (rest : ByteBlock) :
    readPair (putPair pair ++ rest) = some (pair, rest) := by
  have hlength : ¬ (putPair pair ++ rest).length < 4 := by
    rw [List.length_append, length_putPair]
    omega
  have hid : getWord (putPair pair ++ rest) 0 = pair.1 :=
    getWord_putUInt16 pair.1 (putUInt16 (pair.2.val ||| 0xE000) ++ rest)
  have hpid : getPid (putPair pair ++ rest) 2 = pair.2 :=
    getPid_putUInt16 pair.2 rest
  unfold readPair
  rw [if_neg hlength, hid, hpid]
  rfl

theorem readAllRecords_putPair (pairs : List (Uint16 × Pid)) :
    readAllRecords readPair (pairs.flatMap putPair) = pairs := by
  have hread : readAllRecords readPair (pairs.flatMap putPair ++ []) = pairs :=
    readAllRecords_flatMap (fun pair _ ↦ List.ne_nil_of_length_eq_add_one (length_putPair pair))
      (fun pair _ ↦ readPair_append pair) rfl
  rwa [List.append_nil] at hread

theorem length_flatMap_putPair (pairs : List (Uint16 × Pid)) :
    (pairs.flatMap putPair).length = 4 * pairs.length := by
  induction pairs with
  | nil => rfl
  | cons pair rest ih =>
    rw [List.flatMap_cons, List.length_append, ih, length_putPair, List.length_cons]
    omega

/-! ### The pairs of the sections -/

def pairs (pat : PAT) : List (Uint16 × Pid) :=
  (if pat.nitPid ≠ noPid then [(0, pat.nitPid)] else []) ++ pat.pmts.entries

/-- The sections are full, and the last pairs are not yet added. -/
def Filled (header : LongHeader) (writer : SectionWriter) (pairs : List (Uint16 × Pid)) : Prop :=
  ∃ (full : List (List (Uint16 × Pid))) (current : List (Uint16 × Pid)),
    SectionWriter.Wrote header writer (full.map (·.flatMap putPair)) ∧
      writer.payload = current.flatMap putPair ∧ pairs = full.flatten ++ current ∧
        (∀ part ∈ full, part.length = 253) ∧ current.length ≤ 253 ∧ (current = [] → full = [])

variable {pat : PAT} {writer : SectionWriter} {before : List (Uint16 × Pid)}

theorem remain_of_payload {current : List (Uint16 × Pid)}
    (hpayload : writer.payload = current.flatMap putPair) :
    writer.remain = 1012 - 4 * current.length := by
  rw [SectionWriter.remain, hpayload, length_flatMap_putPair]
  rfl

theorem filled_addService (hfilled : Filled pat.header writer before) (service : Uint16 × Pid) :
    Filled pat.header (pat.addService writer service) (before ++ [service]) := by
  obtain ⟨full, current, hwrote, hpayload, rfl, hfull, hcurrent, hempty⟩ := hfilled
  have hremain := remain_of_payload hpayload
  unfold addService
  split_ifs with hroom
  · refine ⟨full ++ [current], [service], ?_, ?_, ?_, ?_, ?_, ?_⟩
    · have hadded := hwrote.addSection 0
      rw [hpayload] at hadded
      rw [List.map_append]
      exact hadded.write _
    · show List.take 0 writer.payload ++ putPair service = _
      rw [List.take_zero, List.flatMap_singleton]
      rfl
    · rw [List.flatten_append, List.flatten_singleton]
    · intro part hpart
      rcases List.mem_append.mp hpart with hin | hlast
      · exact hfull part hin
      · rw [List.mem_singleton.mp hlast]
        omega
    · exact Nat.le_of_ble_eq_true rfl
    · intro hnone
      exact absurd hnone (List.cons_ne_nil _ _)
  · refine ⟨full, current ++ [service], hwrote.write _, ?_, ?_, hfull, ?_, ?_⟩
    · show writer.payload ++ putPair service = _
      rw [hpayload, List.flatMap_append, List.flatMap_singleton]
    · rw [List.append_assoc]
    · rw [List.length_append, List.length_singleton]
      omega
    · intro hnone
      exact absurd hnone (List.append_ne_nil_of_right_ne_nil _ (List.cons_ne_nil _ _))

theorem filled_foldl_addService (hfilled : Filled pat.header writer before)
    (services : List (Uint16 × Pid)) :
    Filled pat.header (services.foldl pat.addService writer) (before ++ services) := by
  induction services generalizing writer before with
  | nil =>
    rw [List.append_nil]
    exact hfilled
  | cons service rest ih =>
    have hnext := ih (filled_addService hfilled service)
    rw [List.append_assoc] at hnext
    exact hnext

theorem filled_startNit (pat : PAT) :
    Filled pat.header pat.startNit (if pat.nitPid ≠ noPid then [(0, pat.nitPid)] else []) := by
  unfold startNit
  split_ifs with hnit
  · refine ⟨[], [(0, pat.nitPid)], SectionWriter.wrote_start _ _, rfl, rfl, ?_, ?_, ?_⟩
    · intro part hpart
      exact absurd hpart List.not_mem_nil
    · exact Nat.le_of_ble_eq_true rfl
    · intro _
      rfl
  · refine ⟨[], [], SectionWriter.wrote_start _ _, rfl, rfl, ?_, Nat.zero_le _, fun _ ↦ rfl⟩
    intro part hpart
    exact absurd hpart List.not_mem_nil

theorem exists_parts (hvalid : pat.isValid = true) :
    ∃ (full : List (List (Uint16 × Pid))) (last : List (Uint16 × Pid)),
      pat.serialize = BinaryTable.payloadTable pat.header
          ((full ++ [last]).map (·.flatMap putPair)) ∧
        pat.pairs = (full ++ [last]).flatten ∧ (∀ part ∈ full, part.length = 253) ∧
          last.length ≤ 253 ∧ (last = [] → full = []) := by
  obtain ⟨full, last, hwrote, hpayload, hpairs, hfull, hlast, hempty⟩ :=
    filled_foldl_addService (filled_startNit pat) pat.pmts.entries
  refine ⟨full, last, ?_, ?_, hfull, hlast, hempty⟩
  · have hsizes : ∀ payload ∈ full.map (·.flatMap putPair), payload.length ≤ 4084 := by
      intro payload hmem
      obtain ⟨part, hpart, rfl⟩ := List.mem_map.mp hmem
      rw [length_flatMap_putPair, hfull part hpart]
      decide
    have hadded := hwrote.finish hsizes 0 (by
      rw [hpayload, length_flatMap_putPair]
      intro hnone
      rw [hempty (List.eq_nil_of_length_eq_zero (by omega))]
      rfl)
    rw [hpayload] at hadded
    unfold serialize
    rw [if_pos hvalid, hadded.1, List.map_append]
    rfl
  · rw [List.flatten_append, List.flatten_singleton]
    exact hpairs

/-! ### Reading the sections of a table -/

def withHeader (header : LongHeader) (pat : PAT) : PAT :=
  { pat with
    version := header.version
    isCurrent := header.isCurrent
    tsId := header.tableIdExtension }

theorem register_withHeader (header : LongHeader) (pat : PAT) (pair : Uint16 × Pid) :
    register (withHeader header pat) pair = withHeader header (register pat pair) := by
  unfold register
  split_ifs <;> rfl

theorem readSection_build {header : LongHeader} (hversion : header.version ≤ 31) (pat : PAT)
    (number last : UInt8) {part : List (Uint16 × Pid)}
    (hsize : (part.flatMap putPair).length ≤ 4084) :
    readSection pat (header.build number last hsize) =
      part.foldl register (withHeader header pat) := by
  have hid : Fin.ofNat 65536 header.tableIdExtension.val = header.tableIdExtension :=
    Fin.ofNat_val_eq_self _
  unfold readSection withHeader
  rw [header.payload_build, readAllRecords_putPair, header.version_build _ _ _ hversion,
    header.isCurrent_build _ _ _ hversion, header.tableIdExtension_build, hid]

theorem deserialize_ofPayloads {header : LongHeader} (hversion : header.version ≤ 31)
    (htid : header.tableId = tidPat) {parts : List (List (Uint16 × Pid))}
    (hparts : ∀ part ∈ parts, part.length ≤ 253) (hcount : parts.length ≤ 256)
    (hnonempty : parts ≠ []) (target : PAT) :
    target.deserialize (BinaryTable.ofPayloads header (parts.map (·.flatMap putPair))) =
      { withHeader header (parts.flatten.foldl register target.clear) with isValid := true } := by
  have hsizes : ∀ part ∈ parts, (part.flatMap putPair).length ≤ 4084 := by
    intro part hpart
    have hpairs := hparts part hpart
    rw [length_flatMap_putPair]
    omega
  have hread := BinaryTable.foldlM_ofPayloads Id header readSection
    (fun pat part ↦ part.foldl register (withHeader header pat)) (fun _ ↦ True) hversion hsizes
    hcount (fun _ _ _ ↦ trivial)
    (fun pat number last part _ _ hsize ↦ readSection_build hversion pat number last hsize)
    target.clear trivial
  rw [foldl_parts (register_withHeader header) (fun _ ↦ rfl) hnonempty] at hread
  have hfold := List.idRun_foldlM.symm.trans (congrArg Id.run hread)
  have haccepted : ¬ (¬ (BinaryTable.ofPayloads header
      (parts.map (·.flatMap putPair))).isValid = true ∨ (BinaryTable.ofPayloads header
        (parts.map (·.flatMap putPair))).tableId ≠ tidPat) := by
    rintro (hinvalid | hother)
    · exact hinvalid rfl
    · exact hother htid
  unfold deserialize
  rw [if_neg haccepted]
  exact congrArg (fun pat : PAT ↦ { pat with isValid := true }) hfold

theorem find?_foldl_register {id : Uint16} {pairs : List (Uint16 × Pid)}
    (hother : ∀ pair ∈ pairs, pair.1 ≠ id) (pat : PAT) :
    (pairs.foldl register pat).pmts.find? id = pat.pmts.find? id := by
  induction pairs generalizing pat with
  | nil => rfl
  | cons pair rest ih =>
    have hpair := hother pair List.mem_cons_self
    rw [List.foldl_cons, ih (List.forall_mem_cons.mp hother).2]
    unfold register
    split_ifs with hzero
    · rfl
    · exact SortedMap.find?_update_of_ne pair.1 _ (Ne.symm hpair) pat.pmts

theorem foldl_register_services {services : List (Uint16 × Pid)}
    (hids : ∀ pair ∈ services, pair.1 ≠ 0) (pat : PAT) :
    services.foldl register pat = { pat with
        pmts := services.foldl (fun map entry ↦ map.update entry.1 fun _ ↦ entry.2) pat.pmts } := by
  induction services generalizing pat with
  | nil => rfl
  | cons pair rest ih =>
    have hpair : register pat pair = { pat with pmts := pat.pmts.update pair.1 fun _ ↦ pair.2 } :=
      if_neg (hids pair List.mem_cons_self)
    rw [List.foldl_cons, ih (List.forall_mem_cons.mp hids).2, hpair]
    rfl

/-! ### Round trip -/

/-- The table is not valid, or deserializing it rebuilds the PAT. -/
def RoundTrips (pat : PAT) : Prop :=
  pat.serialize.isValid = false ∨ ∀ target : PAT, target.deserialize pat.serialize = pat

theorem services_ne_zero (hids : pat.pmts.find? 0 = none) :
    ∀ pair ∈ pat.pmts.entries, pair.1 ≠ 0 := by
  rintro ⟨id, pid⟩ hmem rfl
  rw [SortedMap.mem_entries_iff, hids] at hmem
  cases hmem

theorem foldl_register_pairs (hvalid : pat.isValid = true) (hids : pat.pmts.find? 0 = none)
    (target : PAT) :
    { withHeader pat.header (pat.pairs.foldl register target.clear) with isValid := true } =
      pat := by
  have hservices : ∀ start : PAT, start.pmts = SortedMap.empty →
      pat.pmts.entries.foldl register start = { start with pmts := pat.pmts } := by
    intro start hstart
    rw [foldl_register_services (services_ne_zero hids), hstart, SortedMap.foldl_update_entries]
  unfold pairs
  by_cases hnit : pat.nitPid = noPid
  · have hbuilt : pat.pmts.entries.foldl register target.clear =
        { target.clear with pmts := pat.pmts } := hservices _ rfl
    rw [if_neg (not_not.mpr hnit), List.nil_append, hbuilt]
    obtain ⟨valid, version, current, tsId, nitPid, pmts⟩ := pat
    simp only at hvalid hnit
    rw [hvalid, hnit]
    rfl
  · have hfirst : register target.clear (0, pat.nitPid) =
        { target.clear with nitPid := pat.nitPid } := if_pos rfl
    rw [if_pos hnit, List.singleton_append, List.foldl_cons, hfirst, hservices _ rfl]
    obtain ⟨valid, version, current, tsId, nitPid, pmts⟩ := pat
    simp only at hvalid
    rw [hvalid]
    rfl

theorem pairs_pairwise (hids : pat.pmts.find? 0 = none) :
    pat.pairs.Pairwise fun first second ↦ first.1 < second.1 := by
  unfold pairs
  apply List.pairwise_append.mpr
  refine ⟨?_, pat.pmts.sorted, ?_⟩
  · split_ifs
    · exact List.pairwise_singleton _ _
    · exact List.Pairwise.nil
  · intro nit hnit service hservice
    have hnonzero := services_ne_zero hids service hservice
    split_ifs at hnit with hpid
    · rw [List.mem_singleton.mp hnit]
      exact Fin.pos_iff_ne_zero.mpr hnonzero
    · exact absurd hnit List.not_mem_nil

theorem payloadsAtMost_serialize (pat : PAT) :
    pat.serialize.PayloadsAtMost maxPsiLongSectionPayloadSize := by
  by_cases hvalid : pat.isValid = true
  · obtain ⟨full, last, htable, -, hfull, hlast, -⟩ := exists_parts hvalid
    rw [htable]
    apply BinaryTable.payloadsAtMost_payloadTable (by decide)
    intro payload hmem
    obtain ⟨part, hpart, rfl⟩ := List.mem_map.mp hmem
    have hpairs : part.length ≤ 253 := by
      rcases List.mem_append.mp hpart with hin | hin
      · exact (hfull part hin).le
      · rw [List.mem_singleton.mp hin]
        exact hlast
    rw [length_flatMap_putPair]
    show _ ≤ 1012
    omega
  · unfold serialize
    rw [if_neg hvalid]
    exact BinaryTable.payloadsAtMost_empty _

theorem sections_le_iff {full : List (List (Uint16 × Pid))} {last : List (Uint16 × Pid)}
    (hfull : ∀ part ∈ full, part.length = 253) (hlast : last.length ≤ 253)
    (hempty : last = [] → full = []) :
    (full ++ [last]).length ≤ 256 ↔ (full ++ [last]).flatten.length ≤ 64768 := by
  have hlength : full.flatten.length = 253 * full.length := by
    clear hempty
    induction full with
    | nil => rfl
    | cons part full ih =>
      rw [List.flatten_cons, List.length_append, hfull part List.mem_cons_self,
        ih (List.forall_mem_cons.mp hfull).2, List.length_cons]
      omega
  rw [List.flatten_append, List.flatten_singleton, List.length_append, List.length_append, hlength,
    List.length_singleton]
  by_cases hnone : last = []
  · rw [hempty hnone, hnone]
    decide
  · have hpositive := List.length_pos_iff.mpr hnone
    omega

theorem deserialize_serialize (hvalid : pat.isValid = true) (hversion : pat.version ≤ 31)
    (hids : pat.pmts.find? 0 = none) (hfit : pat.pairs.length ≤ 64768) (target : PAT) :
    target.deserialize pat.serialize = pat := by
  obtain ⟨full, last, htable, hpairs, hfull, hlast, hempty⟩ := exists_parts hvalid
  have hparts : ∀ part ∈ full ++ [last], part.length ≤ 253 := by
    intro part hpart
    rcases List.mem_append.mp hpart with hin | hin
    · exact (hfull part hin).le
    · rw [List.mem_singleton.mp hin]
      exact hlast
  have hsizes : ∀ payload ∈ (full ++ [last]).map (·.flatMap putPair), payload.length ≤ 4084 := by
    intro payload hmem
    obtain ⟨part, hpart, rfl⟩ := List.mem_map.mp hmem
    have hcount := hparts part hpart
    rw [length_flatMap_putPair]
    omega
  have hcount : (full ++ [last]).length ≤ 256 := by
    apply (sections_le_iff hfull hlast hempty).mpr
    rw [← hpairs]
    exact hfit
  have hnonempty : full ++ [last] ≠ [] :=
    List.append_ne_nil_of_right_ne_nil _ (List.cons_ne_nil _ _)
  rw [htable, BinaryTable.payloadTable_eq_ofPayloads hversion hsizes
      (by rw [List.length_map]; exact hcount) (List.map_eq_nil_iff.not.mpr hnonempty),
    deserialize_ofPayloads hversion rfl hparts hcount hnonempty, ← hpairs]
  exact foldl_register_pairs hvalid hids target

theorem exists_map_eq {First Second : Type} (convert : First → Second) (Among : First → Prop)
    {images : List Second}
    (himages : ∀ image ∈ images, ∃ item, Among item ∧ convert item = image) :
    ∃ items : List First, images = items.map convert ∧ ∀ item ∈ items, Among item := by
  induction images with
  | nil => exact ⟨[], rfl, fun _ hmem ↦ absurd hmem List.not_mem_nil⟩
  | cons image images ih =>
    obtain ⟨items, rfl, hitems⟩ := ih (List.forall_mem_cons.mp himages).2
    obtain ⟨item, hitem, rfl⟩ := himages image List.mem_cons_self
    refine ⟨item :: items, rfl, ?_⟩
    intro other hother
    rcases List.mem_cons.mp hother with rfl | hin
    · exact hitem
    · exact hitems other hin

theorem lost_service (hvalid : pat.isValid = true) (hversion : pat.version ≤ 31)
    (hids : pat.pmts.find? 0 = none) (hover : 64768 < pat.pairs.length) :
    pat.serialize.isValid = true ∧ ∃ id pid, pat.pmts.find? id = some pid ∧
      ∀ target : PAT, (target.deserialize pat.serialize).pmts.find? id = none := by
  obtain ⟨full, last, htable, hpairs, hfull, hlast, hempty⟩ := exists_parts hvalid
  have hmany : ¬ (full ++ [last]).length ≤ 256 := by
    rw [sections_le_iff hfull hlast hempty, ← hpairs]
    omega
  obtain ⟨first, rest, rfl⟩ := List.exists_cons_of_ne_nil (l := full) (by
    rintro rfl
    exact hmany (Nat.le_of_ble_eq_true rfl))
  have hparts : ∀ part ∈ first :: rest ++ [last], part.length ≤ 253 := by
    intro part hpart
    rcases List.mem_append.mp hpart with hin | hin
    · exact (hfull part hin).le
    · rw [List.mem_singleton.mp hin]
      exact hlast
  have hsizes : ∀ payload ∈ (first :: rest ++ [last]).map (·.flatMap putPair),
      payload.length ≤ 4084 := by
    intro payload hmem
    obtain ⟨part, hpart, rfl⟩ := List.mem_map.mp hmem
    have hcount := hparts part hpart
    rw [length_flatMap_putPair]
    omega
  -- The table has the last 256 sections: the first one is not among them.
  have hheader : pat.header.version ≤ 31 := hversion
  obtain ⟨kept, hkept, hwrapped, hslots⟩ := BinaryTable.payloadTable_wrapped hheader hsizes (by
    rw [List.length_map]
    omega)
  have himages : ∀ payload ∈ kept, ∃ part ∈ rest ++ [last], part.flatMap putPair = payload := by
      intro payload hmem
      obtain ⟨index, hindex, hpayload⟩ := BinaryTable.exists_position_of_mem hkept (by
        rw [List.length_map]
        omega) hslots hmem
      rw [List.length_map] at hindex
      obtain ⟨before, rfl⟩ := Nat.exists_eq_succ_of_ne_zero (by omega : index ≠ 0)
      rw [List.cons_append, List.map_cons, List.getElem?_cons_succ] at hpayload
      exact List.mem_map.mp (List.mem_of_getElem? hpayload)
  obtain ⟨parts, rfl, hamong⟩ := exists_map_eq (fun part : List (Uint16 × Pid) ↦
    part.flatMap putPair) (fun part ↦ part ∈ rest ++ [last]) himages
  rw [List.length_map] at hkept
  have hread : ∀ target : PAT, target.deserialize pat.serialize =
      { withHeader pat.header (parts.flatten.foldl register target.clear) with
        isValid := true } := by
    rw [htable, hwrapped]
    apply deserialize_ofPayloads hversion rfl
    · intro part hpart
      exact hparts part (List.mem_cons_of_mem _ (hamong part hpart))
    · exact hkept.le
    · rintro rfl
      exact absurd hkept (by decide)
  -- The second pair of the first section is the one of a service.
  have hcountFirst := hfull first List.mem_cons_self
  have hordered := pairs_pairwise hids
  rw [hpairs, List.cons_append, List.flatten_cons, List.pairwise_append] at hordered
  obtain ⟨hfirst, -, hbetween⟩ := hordered
  have hless := List.pairwise_iff_getElem.mp hfirst 0 1 (by omega) (by omega) (by decide)
  have hin : first[1] ∈ first := List.getElem_mem (by omega)
  have hservice : first[1] ∈ pat.pmts.entries := by
    have hmem : first[1] ∈ pat.pairs := by
      rw [hpairs, List.cons_append, List.flatten_cons]
      exact List.mem_append_left _ hin
    unfold pairs at hmem
    rcases List.mem_append.mp hmem with hnit | hservice
    · split_ifs at hnit
      · rw [List.mem_singleton.mp hnit] at hless
        exact absurd hless (Fin.not_lt_zero _)
      · exact absurd hnit List.not_mem_nil
    · exact hservice
  constructor
  · rw [htable, hwrapped]
    rfl
  · refine ⟨first[1].1, first[1].2, SortedMap.mem_entries_iff.mp hservice, ?_⟩
    intro target
    rw [hread]
    show (parts.flatten.foldl register target.clear).pmts.find? _ = none
    rw [find?_foldl_register]
    · rfl
    · intro pair hpair hsame
      obtain ⟨part, hpart, hmem⟩ := List.mem_flatten.mp hpair
      have hlater := hbetween first[1] hin pair
        (List.mem_flatten.mpr ⟨part, hamong part hpart, hmem⟩)
      rw [hsame] at hlater
      exact lt_irrefl _ hlater

def firstServices (count : ℕ) (hcount : count < 65536) : PAT where
  isValid := true
  version := 0
  isCurrent := true
  tsId := 1
  nitPid := noPid
  pmts :=
    { entries := (List.finRange count).map fun index ↦ (⟨index.val + 1, by omega⟩, 0x20)
      sorted := by
        rw [List.pairwise_map]
        apply (List.pairwise_lt_finRange count).imp
        intro first second hlt
        exact Nat.succ_lt_succ hlt }

theorem firstServices_not_roundTrips {count : ℕ} (hcount : count < 65536) (hover : 64768 < count) :
    ¬ (firstServices count hcount).RoundTrips := by
  have hids : (firstServices count hcount).pmts.find? 0 = none := by
    apply Option.eq_none_iff_forall_ne_some.mpr
    intro pid hfound
    obtain ⟨index, -, hentry⟩ := List.mem_map.mp (SortedMap.mem_entries_iff.mpr hfound)
    exact absurd (congrArg (fun entry ↦ entry.1.val) hentry) (Nat.succ_ne_zero index.val)
  have hpairs : 64768 < (firstServices count hcount).pairs.length := by
    have hlength : (firstServices count hcount).pairs.length = count := by
      show ((List.finRange count).map _).length = count
      rw [List.length_map, List.length_finRange]
    rw [hlength]
    exact hover
  obtain ⟨htable, id, pid, hfound, hlost⟩ := lost_service rfl
    (show (0 : UInt8) ≤ 31 by decide) hids hpairs
  rintro (hinvalid | hrebuilt)
  · rw [htable] at hinvalid
    cases hinvalid
  · have hnone := hlost (firstServices count hcount)
    rw [hrebuilt, hfound] at hnone
    cases hnone

/-- The PAT of 64769 services is not rebuilt. -/
theorem manyServices_not_roundTrips : ¬ (firstServices 64769 (by decide)).RoundTrips :=
  firstServices_not_roundTrips _ (by decide)

/-- Assumes: non-zero service ids. A PAT is rebuilt or has no valid table, in payloads that fit, if
and only if it is not valid, or its version has more than five bits, or it has at most 64768 pairs.
-/
theorem roundTrips_iff_pairs_fit (pat : PAT) (hids : pat.pmts.find? 0 = none) :
    (pat.RoundTrips ∧ pat.serialize.PayloadsAtMost maxPsiLongSectionPayloadSize) ↔
      (pat.isValid = false ∨ 31 < pat.version ∨ pat.pairs.length ≤ 64768) := by
  constructor
  · rintro ⟨hround, -⟩
    by_contra hnone
    push Not at hnone
    obtain ⟨hvalid, hversion, hover⟩ := hnone
    obtain ⟨htable, id, pid, hfound, hlost⟩ := lost_service
      (Bool.eq_true_of_not_eq_false hvalid) (UInt8.not_lt.mp hversion) hids hover
    rcases hround with hinvalid | hrebuilt
    · rw [htable] at hinvalid
      cases hinvalid
    · have hnone := hlost pat
      rw [hrebuilt pat, hfound] at hnone
      cases hnone
  · intro hcondition
    refine ⟨?_, payloadsAtMost_serialize pat⟩
    by_cases hvalid : pat.isValid = true
    · by_cases hversion : pat.version ≤ 31
      · right
        rcases hcondition with hinvalid | hbad | hfit
        · rw [hvalid] at hinvalid
          cases hinvalid
        · exact absurd hbad (UInt8.not_lt.mpr hversion)
        · exact deserialize_serialize hvalid hversion hids hfit
      · left
        obtain ⟨full, last, htable, -⟩ := exists_parts hvalid
        rw [htable, BinaryTable.payloadTable_of_version hversion]
        rfl
    · left
      unfold serialize
      rw [if_neg hvalid]
      rfl

/-- A PAT with two services and a NIT is rebuilt from its table. -/
theorem two_services_roundTrips :
    let pat : PAT :=
      { isValid := true, version := 5, isCurrent := true, tsId := 0x1234, nitPid := 0x10,
        pmts := (SortedMap.empty.update 0x0101 fun _ ↦ 0x100).update 0x0102 fun _ ↦ 0x200 }
    pat.RoundTrips ∧ pat.serialize.PayloadsAtMost maxPsiLongSectionPayloadSize :=
  (roundTrips_iff_pairs_fit _ rfl).mpr (Or.inr (Or.inr (by decide)))

end PAT

end TSDuck
