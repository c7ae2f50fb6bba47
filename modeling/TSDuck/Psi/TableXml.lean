import TSDuck.Psi.SectionFields
import TSDuck.Xml.Element

/-!
# Tables in XML

A table is converted to an XML element: either the element of its type, if the tables factory knows
the type and makes it, or a generic element. The table is rebuilt from the element.

The payloads are written with any size and read with the maximum sizes of the sections of a table,
which are smaller than those of a private section. A generic element has one private indicator, the
one of the first section, and a generic short table is one section, whose reserved bits are set when
it is rebuilt. `roundTripsGeneric_iff` states that a valid table is rebuilt if and only if its
sections agree with this.

Scope. The typed elements are made and read by the tables factory, which is a parameter: only the
names of its elements matter for a generic one.
-/

namespace TSDuck

/-- What the tables factory makes of the tables of the types it knows. -/
structure TablesFactory where
  toXML : BinaryTable → Option XmlNode
  fromXML : XmlNode → BinaryTable

def registeredTableNames : List UString :=
  ["BAT", "TOT", "PAT", "selection_information_table", "TSDT", "AIT", "SDT", "NIT",
    "discontinuity_information_table", "RST", "CAT", "splice_information_table", "EIT", "TDT", "PMT",
    "DSMCC_stream_descriptors_table", "INT"].map String.toList

def genericShortTable : UString := "generic_short_table".toList

def genericLongTable : UString := "generic_long_table".toList

namespace BinaryTable

def sectionNode (depth : ℕ) (payload : ByteBlock) : XmlNode :=
  .element "section".toList [] [XmlNode.hexaText (depth + 1) payload]

def shortAttributes (tableId : UInt8) (isPrivateSection : Bool) : List (UString × UString) :=
  XmlNode.setBoolAttribute (XmlNode.setIntAttribute [] "table_id".toList 2 tableId.toNat true)
    "private".toList isPrivateSection

def longAttributes (table : BinaryTable) (first : Section) : List (UString × UString) :=
  let tableId := XmlNode.setIntAttribute [] "table_id".toList 2 table.tableId.toNat true
  let extension :=
    XmlNode.setIntAttribute tableId "table_id_ext".toList 4 table.tableIdExtension true
  let version := XmlNode.setIntAttribute extension "version".toList 2 table.version.toNat false
  let current := XmlNode.setBoolAttribute version "current".toList first.isCurrent
  XmlNode.setBoolAttribute current "private".toList first.isPrivateSection

def genericNode (table : BinaryTable) (depth : ℕ) (first : Section) : XmlNode :=
  if first.isLongSection then
    .element genericLongTable (table.longAttributes first)
      ((table.sections.filterMap id).map fun sect ↦ sectionNode depth sect.payload)
  else
    .element genericShortTable (shortAttributes table.tableId first.isPrivateSection)
      [XmlNode.hexaText depth first.payload]

/-- Converts a valid table into an element. -/
def toXML (factory : TablesFactory) (table : BinaryTable) (depth : ℕ) (forceGeneric : Bool) :
    Option XmlNode :=
  if table.isValid then
    match table.sections with
    | some first :: _ =>
      match (if forceGeneric then none else factory.toXML table) with
      | some node => some node
      | none => some (table.genericNode depth first)
    | _ => none
  else none

def addSectionNodes (header : LongHeader) : List XmlNode → ℕ → BinaryTable → BinaryTable
  | [], _, table => table
  | node :: nodes, index, table =>
    match node.getHexaText 0 maxPsiLongSectionPayloadSize with
    | some payload => addSectionNodes header nodes (index + 1) (addPayload header table index payload)
    | none => table.clear

def ofShortNode (node : XmlNode) : BinaryTable :=
  match node.getIntAttribute "table_id".toList true 256 0xFF 0x00 0xFF,
    node.getBoolAttribute "private".toList false true,
    node.getHexaText 0 maxPsiShortSectionPayloadSize with
  | some tableId, some isPrivateSection, some payload =>
    (empty.addSection (Section.ofShortPayload (UInt8.ofNat tableId) isPrivateSection payload)
      true true).2
  | _, _, _ => empty

def ofLongNode (node : XmlNode) : BinaryTable :=
  match node.getIntAttribute "table_id".toList true 256 0xFF 0x00 0xFF,
    node.getIntAttribute "table_id_ext".toList false 65536 0xFFFF 0x0000 0xFFFF,
    node.getIntAttribute "version".toList false 256 0 0 31,
    node.getBoolAttribute "current".toList false true,
    node.getBoolAttribute "private".toList false true,
    node.getChildren "section".toList 1 256 with
  | some tableId, some extension, some version, some isCurrent, some isPrivateSection, some nodes =>
    addSectionNodes
      { tableId := UInt8.ofNat tableId
        isPrivateSection := isPrivateSection
        tableIdExtension := Fin.ofNat 65536 extension
        version := UInt8.ofNat version
        isCurrent := isCurrent } nodes 0 empty
  | _, _, _, _, _, _ => empty

/-- Converts an element into a table, if it is one. -/
def fromXML (factory : TablesFactory) : Option XmlNode → Bool × BinaryTable
  | none => (false, empty)
  | some node =>
    if registeredTableNames.any node.name.similar then (true, factory.fromXML node)
    else if node.name.similar genericShortTable then (true, ofShortNode node)
    else if node.name.similar genericLongTable then (true, ofLongNode node)
    else (false, empty)

/-- The same identity and the same sections. -/
def Equals (first second : BinaryTable) : Prop :=
  first.isValid = true ∧ second.isValid = true ∧ first.tableId = second.tableId ∧
    first.tableIdExtension = second.tableIdExtension ∧ first.version = second.version ∧
      List.Forall₂ (fun one other ↦ ∃ sect same, one = some sect ∧ other = some same ∧
        sect.content = same.content) first.sections second.sections

/-- The table is rebuilt from the generic element which is made of it. -/
def RoundTripsGeneric (factory : TablesFactory) (depth : ℕ) (table : BinaryTable) : Prop :=
  ∃ node, table.toXML factory depth true = some node ∧
    (fromXML factory (some node)).1 = true ∧ table.Equals (fromXML factory (some node)).2

/-- The sections have the identity and the numbers. -/
def HoldsItsSections (table : BinaryTable) : Prop :=
  ∀ (index : ℕ) (sect : Section), table.sections[index]? = some (some sect) →
    sect.tableId = table.tableId ∧ (sect.isLongSection = true →
      sect.tableIdExtension = table.tableIdExtension ∧ sect.version = table.version ∧
        sect.sectionNumber = index ∧ sect.lastSectionNumber = table.sections.length - 1)

theorem Aligned.holdsItsSections {table : BinaryTable} (haligned : table.Aligned) :
    table.HoldsItsSections := by
  intro index sect hsect
  obtain ⟨⟨htableId, hextension, hversion⟩, hnumbers⟩ := haligned.slot index sect hsect
  exact ⟨htableId, fun hlong ↦ ⟨hextension, hversion, hnumbers hlong⟩⟩

/-- Reserved bits, CRC32 and current indicators are regular. -/
def HasRegularSections (table : BinaryTable) : Prop :=
  ∀ sect, some sect ∈ table.sections → sect.isLongSection = true →
    sect.HasReservedBits ∧ crcMatches sect.content = true ∧
      ∀ other, some other ∈ table.sections → other.isLongSection = true →
        other.isCurrent = sect.isCurrent

/-- One short section, not larger than in a table. -/
def IsGenericShort (table : BinaryTable) : Prop :=
  table.tableIdExtension = 0 ∧ table.version = 0 ∧
    ∃ sect, table.sections = [some sect] ∧ sect.isLongSection = false ∧ sect.HasReservedBits ∧
      sect.payload.length ≤ maxPsiShortSectionPayloadSize

/-- Long sections, not larger than in a table. -/
def IsGenericLong (table : BinaryTable) : Prop :=
  ∃ first, table.sections.head? = some (some first) ∧
    ∀ slot ∈ table.sections, ∃ sect, slot = some sect ∧ sect.isLongSection = true ∧
      sect.isPrivateSection = first.isPrivateSection ∧
        sect.payload.length ≤ maxPsiLongSectionPayloadSize

variable {table : BinaryTable} {first : Section} {rest : List (Option Section)}

theorem toXML_generic (factory : TablesFactory) (depth : ℕ) (hvalid : table.isValid = true)
    (hsections : table.sections = some first :: rest) :
    table.toXML factory depth true = some (table.genericNode depth first) := by
  unfold toXML
  rw [hvalid, hsections]
  rfl

/-! ### Generic short tables -/

theorem exists_ofShortPayload (tableId : UInt8) (isPrivateSection : Bool) {payload : ByteBlock}
    (hsize : payload.length ≤ 4093) :
    ∃ sect, Section.ofShortPayload tableId isPrivateSection payload = some sect ∧
      sect.content = Section.shortBytes tableId isPrivateSection payload := by
  have hfits : shortSectionHeaderSize + payload.length ≤ maxPrivateSectionSize := by
    unfold shortSectionHeaderSize maxPrivateSectionSize
    omega
  unfold Section.ofShortPayload
  rw [dif_pos hfits]
  exact ⟨_, rfl, rfl⟩

theorem ofShortNode_element (tableId : UInt8) (isPrivateSection : Bool) (depth : ℕ)
    (payload : ByteBlock) :
    ofShortNode (.element genericShortTable (shortAttributes tableId isPrivateSection)
        [XmlNode.hexaText depth payload]) =
      if payload.length ≤ maxPsiShortSectionPayloadSize then
        (empty.addSection (Section.ofShortPayload tableId isPrivateSection payload) true true).2
      else empty := by
  have hsmall := tableId.toNat_lt
  have htableId := XmlNode.getIntAttribute_hexa
    (.element genericShortTable (shortAttributes tableId isPrivateSection)
      [XmlNode.hexaText depth payload]) "table_id".toList true 1 0xFF rfl
    (show tableId.toNat < 16 ^ (1 + 1) from hsmall) hsmall (Nat.zero_le _)
    (Nat.le_of_lt_succ hsmall)
  have hprivate := XmlNode.getBoolAttribute_trueFalse
    (.element genericShortTable (shortAttributes tableId isPrivateSection)
      [XmlNode.hexaText depth payload]) "private".toList false true
    (show _ = some (UString.trueFalse isPrivateSection) from rfl)
  unfold ofShortNode
  rw [htableId, hprivate, XmlNode.getHexaText_hexaText]
  by_cases hsize : payload.length ≤ maxPsiShortSectionPayloadSize
  · rw [if_pos ⟨Nat.zero_le _, hsize⟩, if_pos hsize]
    simp only [UInt8.ofNat_toNat]
  · rw [if_neg fun hboth ↦ hsize hboth.2, if_neg hsize]

theorem fields_congr {second : Section} (hcontent : first.content = second.content) :
    first.tableId = second.tableId ∧ first.isLongSection = second.isLongSection ∧
      first.isPrivateSection = second.isPrivateSection := by
  unfold Section.tableId Section.isLongSection Section.isPrivateSection
  rw [hcontent]
  exact ⟨rfl, rfl, rfl⟩

theorem roundTripsGeneric_iff_of_short (factory : TablesFactory) (depth : ℕ)
    (hvalid : table.isValid = true) (hholds : table.HoldsItsSections)
    (hsections : table.sections = some first :: rest) (hshort : first.isLongSection = false) :
    table.RoundTripsGeneric factory depth ↔ table.IsGenericShort := by
  have hmax := first.bytes.length_le
  unfold maxPrivateSectionSize at hmax
  have hfits : first.payload.length ≤ 4093 := by
    rw [Section.payload_of_short hshort, List.length_drop]
    omega
  obtain ⟨htableId, -⟩ := hholds 0 first (by rw [hsections]; rfl)
  have hnode : table.toXML factory depth true = some (.element genericShortTable
      (shortAttributes table.tableId first.isPrivateSection)
      [XmlNode.hexaText depth first.payload]) := by
    rw [toXML_generic factory depth hvalid hsections, genericNode, if_neg (by rw [hshort]; decide)]
  have hread : fromXML factory (some (.element genericShortTable
      (shortAttributes table.tableId first.isPrivateSection)
      [XmlNode.hexaText depth first.payload])) =
        (true, if first.payload.length ≤ maxPsiShortSectionPayloadSize then
          (empty.addSection (Section.ofShortPayload table.tableId first.isPrivateSection
            first.payload) true true).2
        else empty) := by
    rw [← ofShortNode_element table.tableId first.isPrivateSection depth]
    rfl
  obtain ⟨rebuilt, hrebuilt, hcontent⟩ :=
    exists_ofShortPayload table.tableId first.isPrivateSection hfits
  have hrebuiltShort : rebuilt.isLongSection = false := by
    unfold Section.isLongSection
    rw [hcontent]
    exact (Section.sectionBytes_shortBytes table.tableId first.isPrivateSection hfits).2
  have hrebuiltId : rebuilt.tableId = table.tableId := by
    unfold Section.tableId
    rw [hcontent]
    rfl
  have hsame : first.content = rebuilt.content ↔ first.HasReservedBits := by
    rw [hcontent, ← htableId, eq_comm]
    exact Section.shortBytes_eq_iff hshort
  unfold RoundTripsGeneric
  rw [hnode]
  simp only [Option.some.injEq, exists_eq_left', hread, true_and]
  rw [hrebuilt, addSection_empty_short hrebuiltShort]
  by_cases hsize : first.payload.length ≤ maxPsiShortSectionPayloadSize
  · rw [if_pos hsize]
    constructor
    · rintro ⟨-, -, -, hextension, hversion, hall⟩
      rw [hsections] at hall
      obtain ⟨⟨sect, same, hfirst, hother, hequal⟩, hrest⟩ := List.forall₂_cons.mp hall
      obtain rfl := Option.some.inj hfirst
      obtain rfl := Option.some.inj hother
      obtain rfl := List.forall₂_nil_right_iff.mp hrest
      exact ⟨hextension, hversion, first, hsections, hshort, hsame.mp hequal, hsize⟩
    · rintro ⟨hextension, hversion, sect, hsect, -, hreserved, -⟩
      rw [hsections, List.cons.injEq] at hsect
      obtain ⟨hfirst, hrest⟩ := hsect
      obtain rfl := Option.some.inj hfirst
      refine ⟨hvalid, rfl, hrebuiltId.symm, hextension, hversion, ?_⟩
      rw [hsections, hrest]
      exact List.Forall₂.cons ⟨first, rebuilt, rfl, rfl, hsame.mpr hreserved⟩ List.Forall₂.nil
  · rw [if_neg hsize]
    constructor
    · rintro ⟨-, hfalse, -⟩
      exact absurd hfalse (by decide)
    · rintro ⟨-, -, sect, hsect, -, -, hsmall⟩
      rw [hsections, List.cons.injEq] at hsect
      obtain rfl := Option.some.inj hsect.1
      exact absurd hsmall hsize

/-! ### Generic long tables -/

/-- The header of the sections which are rebuilt. -/
def genericHeader (table : BinaryTable) (first : Section) : LongHeader where
  tableId := table.tableId
  isPrivateSection := first.isPrivateSection
  tableIdExtension := Fin.ofNat 65536 table.tableIdExtension
  version := table.version
  isCurrent := first.isCurrent

/-- Reading the elements is adding their payloads. -/
theorem addSectionNodes_map (header : LongHeader) (depth : ℕ) (payloads : List ByteBlock)
    (index : ℕ) (table : BinaryTable) :
    addSectionNodes header (payloads.map (sectionNode depth)) index table =
      if ∀ payload ∈ payloads, payload.length ≤ maxPsiLongSectionPayloadSize then
        (payloads.zipIdx index).foldl
          (fun table (entry : ByteBlock × ℕ) ↦ addPayload header table entry.2 entry.1) table
      else empty := by
  induction payloads generalizing index table with
  | nil => rfl
  | cons payload payloads ih =>
    rw [List.map_cons, addSectionNodes, sectionNode, XmlNode.getHexaText_hexaText]
    by_cases hsize : payload.length ≤ maxPsiLongSectionPayloadSize
    · rw [if_pos ⟨Nat.zero_le _, hsize⟩]
      show addSectionNodes header (payloads.map (sectionNode depth)) (index + 1) _ = _
      rw [ih]
      simp only [List.forall_mem_cons, hsize, true_and, List.zipIdx_cons, List.foldl_cons]
    · rw [if_neg fun hboth ↦ hsize hboth.2, if_neg fun hall ↦ hsize (hall _ List.mem_cons_self)]
      rfl

theorem getChildren_sectionNodes (name : UString) (attributes : List (UString × UString))
    (depth : ℕ) {payloads : List ByteBlock} (hmin : 1 ≤ payloads.length)
    (hmax : payloads.length ≤ 256) :
    (XmlNode.element name attributes (payloads.map (sectionNode depth))).getChildren
      "section".toList 1 256 = some (payloads.map (sectionNode depth)) := by
  have hfound : (XmlNode.element name attributes
      (payloads.map (sectionNode depth))).children.filter
        (fun child ↦ child.isElement && UString.similar "section".toList child.name) =
          payloads.map (sectionNode depth) := by
    apply List.filter_eq_self.mpr
    intro child hchild
    obtain ⟨payload, -, rfl⟩ := List.mem_map.mp hchild
    rfl
  unfold XmlNode.getChildren
  rw [if_neg (by decide), hfound]
  dsimp only
  rw [List.length_map, if_pos ⟨hmin, hmax⟩]

/-- Assumes: a table with the identity of a long section. The table of its generic element of at
most 256 payloads. -/
theorem ofLongNode_element (first : Section) (depth : ℕ) (hextension : table.tableIdExtension < 65536)
    (hversion : table.version ≤ 31) {payloads : List ByteBlock} (hmin : 1 ≤ payloads.length)
    (hmax : payloads.length ≤ 256) :
    ofLongNode (.element genericLongTable (table.longAttributes first)
        (payloads.map (sectionNode depth))) =
      if ∀ payload ∈ payloads, payload.length ≤ maxPsiLongSectionPayloadSize then
        payloadTable (table.genericHeader first) payloads
      else empty := by
  have hsmall := table.tableId.toNat_lt
  have hversionLt : table.version.toNat < 32 :=
    Nat.lt_succ_of_le (UInt8.le_iff_toNat_le.mp hversion)
  have htableId := XmlNode.getIntAttribute_hexa
    (.element genericLongTable (table.longAttributes first) (payloads.map (sectionNode depth)))
    "table_id".toList true 1 0xFF rfl (show table.tableId.toNat < 16 ^ (1 + 1) from hsmall) hsmall
    (Nat.zero_le _) (Nat.le_of_lt_succ hsmall)
  have hext := XmlNode.getIntAttribute_hexa
    (.element genericLongTable (table.longAttributes first) (payloads.map (sectionNode depth)))
    "table_id_ext".toList false 3 0xFFFF rfl
    (show table.tableIdExtension < 16 ^ (3 + 1) from hextension) hextension
    (Nat.zero_le _) (Nat.le_of_lt_succ hextension)
  have hread : XmlNode.getIntAttribute
      (.element genericLongTable (table.longAttributes first) (payloads.map (sectionNode depth)))
      "version".toList false 256 0 0 31 = some table.version.toNat := by
    rw [XmlNode.getIntAttribute_decimal _ _ _ 0 0 31
      (show _ = some (UString.decimal table.version.toNat) from rfl) table.version.toNat_lt]
    exact if_neg (by omega)
  have hcurrent := XmlNode.getBoolAttribute_trueFalse
    (.element genericLongTable (table.longAttributes first) (payloads.map (sectionNode depth)))
    "current".toList false true (show _ = some (UString.trueFalse first.isCurrent) from rfl)
  have hprivate := XmlNode.getBoolAttribute_trueFalse
    (.element genericLongTable (table.longAttributes first) (payloads.map (sectionNode depth)))
    "private".toList false true (show _ = some (UString.trueFalse first.isPrivateSection) from rfl)
  unfold ofLongNode
  rw [htableId, hext, hread, hcurrent, hprivate, getChildren_sectionNodes _ _ _ hmin hmax]
  simp only [UInt8.ofNat_toNat]
  rw [addSectionNodes_map]
  rfl

theorem exists_mem_of_forall₂ {α β : Type*} {relation : α → β → Prop} {first : List α}
    {second : List β} (hall : List.Forall₂ relation first second) {one : α} (hone : one ∈ first) :
    ∃ other ∈ second, relation one other := by
  induction hall with
  | nil => exact absurd hone List.not_mem_nil
  | cons hhead _ ih =>
    rcases List.mem_cons.mp hone with rfl | hrest
    · exact ⟨_, List.mem_cons_self, hhead⟩
    · obtain ⟨other, hother, hrelation⟩ := ih hrest
      exact ⟨other, List.mem_cons_of_mem _ hother, hrelation⟩

/-- A regular long section has the content of the one which is rebuilt. -/
theorem content_eq_build (hholds : table.HoldsItsSections) (hregular : table.HasRegularSections)
    (hfirst : some first ∈ table.sections) (hfirstLong : first.isLongSection = true) {index : ℕ}
    {sect : Section} (hsect : table.sections[index]? = some (some sect))
    (hlong : sect.isLongSection = true) (hprivate : sect.isPrivateSection = first.isPrivateSection)
    (hsize : sect.payload.length ≤ 4084) :
    sect.content = ((table.genericHeader first).build (UInt8.ofNat index)
      (UInt8.ofNat (table.sections.length - 1)) hsize).content := by
  obtain ⟨hreserved, hcrc, hcurrent⟩ := hregular sect (List.mem_of_getElem? hsect) hlong
  obtain ⟨htableId, hidentity⟩ := hholds index sect hsect
  obtain ⟨hextension, hversion, hnumber, hlast⟩ := hidentity hlong
  unfold Section.tableIdExtension at hextension
  unfold Section.sectionNumber at hnumber
  unfold Section.lastSectionNumber at hlast
  rw [if_pos hlong] at hextension hnumber hlast
  have hheader : sect.longHeader = table.genericHeader first := by
    unfold Section.longHeader genericHeader
    rw [LongHeader.mk.injEq]
    refine ⟨htableId, hprivate, ?_, hversion, (hcurrent first hfirst hfirstLong).symm⟩
    apply Fin.ext
    rw [← hextension]
    exact (Nat.mod_eq_of_lt (getUInt16_lt sect.content 3)).symm
  have hindex : byteAt sect.content 6 = UInt8.ofNat index := by
    rw [← hnumber, UInt8.ofNat_toNat]
  have hcount : byteAt sect.content 7 = UInt8.ofNat (table.sections.length - 1) := by
    rw [← hlast, UInt8.ofNat_toNat]
  rw [Section.content_eq_bytes hlong hreserved hcrc, hheader, hindex, hcount]
  rfl

/-- Tables of long sections which are rebuilt. -/
theorem roundTripsGeneric_iff_of_long (factory : TablesFactory) (depth : ℕ)
    (hvalid : table.isValid = true) (hholds : table.HoldsItsSections)
    (hregular : table.HasRegularSections) (hsections : table.sections = some first :: rest)
    (hlong : first.isLongSection = true) :
    table.RoundTripsGeneric factory depth ↔ table.IsGenericLong := by
  have hfirst : some first ∈ table.sections := by
    rw [hsections]
    exact List.mem_cons_self
  obtain ⟨-, hidentity⟩ := hholds 0 first (by rw [hsections]; rfl)
  obtain ⟨hextension, hversion, -, hlast⟩ := hidentity hlong
  have hcount := first.lastSectionNumber_lt
  have hpositive : 0 < table.sections.length := List.length_pos_of_mem hfirst
  rw [hlast] at hcount
  have hextensionLt : table.tableIdExtension < 65536 := by
    rw [← hextension, Section.tableIdExtension, if_pos hlong]
    exact getUInt16_lt _ _
  have hversionLe : table.version ≤ 31 := by
    rw [← hversion]
    exact first.version_le
  obtain ⟨present, hpresent⟩ : ∃ present, table.sections.filterMap id = present := ⟨_, rfl⟩
  have hmem : ∀ sect, sect ∈ present ↔ some sect ∈ table.sections := by
    intro sect
    rw [← hpresent, List.mem_filterMap]
    constructor
    · rintro ⟨slot, hslot, rfl⟩
      exact hslot
    · intro hsect
      exact ⟨some sect, hsect, rfl⟩
  have hle : present.length ≤ table.sections.length := by
    rw [← hpresent]
    exact List.length_filterMap_le _ _
  have hmin : 1 ≤ (present.map Section.payload).length := by
    rw [List.length_map]
    exact List.length_pos_of_mem ((hmem first).mpr hfirst)
  have hmax : (present.map Section.payload).length ≤ 256 := by
    rw [List.length_map]
    omega
  have hnode : table.toXML factory depth true = some (.element genericLongTable
      (table.longAttributes first) ((present.map Section.payload).map (sectionNode depth))) := by
    rw [toXML_generic factory depth hvalid hsections, genericNode, if_pos hlong, hpresent,
      List.map_map]
    rfl
  have hread : fromXML factory (some (.element genericLongTable
      (table.longAttributes first) ((present.map Section.payload).map (sectionNode depth)))) =
        (true, if ∀ payload ∈ present.map Section.payload,
            payload.length ≤ maxPsiLongSectionPayloadSize then
          payloadTable (table.genericHeader first) (present.map Section.payload)
        else empty) := by
    rw [← ofLongNode_element first depth hextensionLt hversionLe hmin hmax]
    rfl
  unfold RoundTripsGeneric
  rw [hnode]
  simp only [Option.some.injEq, exists_eq_left', hread, true_and]
  by_cases hsizes : ∀ payload ∈ present.map Section.payload,
      payload.length ≤ maxPsiLongSectionPayloadSize
  case neg =>
    rw [if_neg hsizes]
    constructor
    · rintro ⟨-, hfalse, -⟩
      exact absurd hfalse (by decide)
    · rintro ⟨_, -, hall⟩
      refine absurd (fun payload hpayload ↦ ?_) hsizes
      obtain ⟨sect, hsect, rfl⟩ := List.mem_map.mp hpayload
      obtain ⟨same, hsame, -, -, hsize⟩ := hall _ ((hmem sect).mp hsect)
      obtain rfl := Option.some.inj hsame
      exact hsize
  have hfits : ∀ payload ∈ present.map Section.payload, payload.length ≤ 4084 := by
    intro payload hpayload
    have hsize := hsizes payload hpayload
    unfold maxPsiLongSectionPayloadSize longSectionHeaderSize sectionCrc32Size at hsize
    omega
  have hheader : (table.genericHeader first).version ≤ 31 := hversionLe
  rw [if_pos hsizes, payloadTable_eq_ofPayloads hheader hfits hmax (List.ne_nil_of_length_pos hmin)]
  constructor
  · rintro ⟨-, -, -, -, -, hall⟩
    refine ⟨first, by rw [hsections]; rfl, fun slot hslot ↦ ?_⟩
    obtain ⟨other, hother, sect, same, rfl, rfl, hcontent⟩ := exists_mem_of_forall₂ hall hslot
    obtain ⟨index, hindex⟩ := List.getElem?_of_mem hother
    obtain ⟨payload, hpayload⟩ : ∃ payload,
        (present.map Section.payload)[index]? = some payload := by
      have hlt := (List.getElem?_eq_some_iff.mp hindex).1
      rw [length_sections_ofPayloads] at hlt
      exact ⟨_, List.getElem?_eq_getElem hlt⟩
    obtain ⟨hsize, hbuilt⟩ := getElem?_ofPayloads hheader hfits hpayload hmax
    rw [hindex, Option.some.injEq, Option.some.injEq] at hbuilt
    obtain ⟨-, hsameLong, hsamePrivate⟩ := fields_congr hcontent
    rw [hbuilt, LongHeader.isLongSection_build] at hsameLong
    rw [hbuilt, LongHeader.isPrivateSection_build] at hsamePrivate
    exact ⟨sect, rfl, hsameLong, hsamePrivate,
      hsizes _ (List.mem_map_of_mem ((hmem sect).mpr hslot))⟩
  · rintro ⟨head, hhead, hall⟩
    rw [hsections, List.head?_cons, Option.some.injEq, Option.some.injEq] at hhead
    subst hhead
    have hslots : table.sections = present.map some := by
      have hnone : none ∉ table.sections := by
        intro hnone
        obtain ⟨sect, hsect, -⟩ := hall none hnone
        exact absurd hsect (by simp)
      obtain ⟨sections, hmap⟩ := exists_sections_eq hnone
      rw [hmap, ← hpresent, hmap, List.filterMap_map, Function.id_comp, List.filterMap_some]
    have hlength : table.sections.length = present.length := by
      rw [hslots, List.length_map]
    refine ⟨hvalid, rfl, rfl, (Nat.mod_eq_of_lt hextensionLt).symm, rfl, ?_⟩
    rw [List.forall₂_iff_get]
    refine ⟨by rw [length_sections_ofPayloads, List.length_map, hlength], fun index hone hother ↦ ?_⟩
    have hindex : index < present.length := by omega
    have hsect : table.sections[index]? = some (some present[index]) := by
      rw [hslots, List.getElem?_map, List.getElem?_eq_getElem hindex]
      rfl
    have hpayload : (present.map Section.payload)[index]? = some present[index].payload := by
      rw [List.getElem?_map, List.getElem?_eq_getElem hindex]
      rfl
    obtain ⟨hsize, hbuilt⟩ := getElem?_ofPayloads hheader hfits hpayload hmax
    obtain ⟨same, hsame, hsameLong, hprivate, -⟩ := hall _ (List.mem_of_getElem? hsect)
    obtain rfl := Option.some.inj hsame
    refine ⟨_, _, ?_, ?_, content_eq_build hholds hregular hfirst hlong hsect hsameLong hprivate
      hsize⟩
    · exact (List.getElem?_eq_some_iff.mp hsect).2
    · rw [hlength, ← List.length_map Section.payload]
      exact (List.getElem?_eq_some_iff.mp hbuilt).2

/-- Assumes: a valid table with regular long sections. It is rebuilt if and only if a generic
element describes it. -/
theorem roundTripsGeneric_iff (factory : TablesFactory) (depth : ℕ) {table : BinaryTable}
    (hvalid : table.isValid = true) (hholds : table.HoldsItsSections)
    (hregular : table.HasRegularSections) :
    table.RoundTripsGeneric factory depth ↔ table.IsGenericShort ∨ table.IsGenericLong := by
  have hnoElement : (∀ first rest, table.sections ≠ some first :: rest) →
      (table.RoundTripsGeneric factory depth ↔ table.IsGenericShort ∨ table.IsGenericLong) := by
    intro hnone
    constructor
    · rintro ⟨node, hnode, -⟩
      unfold toXML at hnode
      rw [if_pos hvalid] at hnode
      split at hnode
      · next hsections => exact absurd hsections (hnone _ _)
      · cases hnode
    · rintro (⟨-, -, sect, hsect, -⟩ | ⟨first, hfirst, -⟩)
      · exact absurd hsect (hnone _ _)
      · obtain ⟨rest, hrest⟩ := List.head?_eq_some_iff.mp hfirst
        exact absurd hrest (hnone _ _)
  cases hsections : table.sections with
  | nil => exact hnoElement fun first rest ↦ by rw [hsections]; exact (List.cons_ne_nil _ _).symm
  | cons slot rest =>
    cases slot with
    | none =>
      apply hnoElement
      intro first other
      rw [hsections, Ne, List.cons.injEq]
      exact fun hequal ↦ absurd hequal.1 (by simp)
    | some first =>
      by_cases hlong : first.isLongSection = true
      · rw [roundTripsGeneric_iff_of_long factory depth hvalid hholds hregular hsections hlong]
        refine ⟨Or.inr, ?_⟩
        rintro (⟨-, -, sect, hsect, hshort, -⟩ | hgeneric)
        · rw [hsections, List.cons.injEq, Option.some.injEq] at hsect
          rw [← hsect.1, hlong] at hshort
          cases hshort
        · exact hgeneric
      · rw [Bool.not_eq_true] at hlong
        rw [roundTripsGeneric_iff_of_short factory depth hvalid hholds hsections hlong]
        refine ⟨Or.inl, ?_⟩
        rintro (hgeneric | ⟨_, -, hall⟩)
        · exact hgeneric
        · obtain ⟨sect, hsect, hstill, -⟩ := hall (some first) (by
            rw [hsections]
            exact List.mem_cons_self)
          obtain rfl := Option.some.inj hsect
          rw [hlong] at hstill
          cases hstill

def emptyFactory : TablesFactory := ⟨fun _ ↦ none, fun _ ↦ empty⟩

def smallLongTable : BinaryTable :=
  addPayload ⟨0x80, true, 0x1234, 5, true⟩ empty 0 [0x01, 0x02, 0x03]

/-- The table is rebuilt from its generic element. -/
theorem smallLongTable_rebuilt : smallLongTable.RoundTripsGeneric emptyFactory 1 := by
  obtain ⟨sect, hsect⟩ : ∃ sect, smallLongTable.sections = [some sect] := ⟨_, rfl⟩
  have hfields : sect.tableId = 0x80 ∧ sect.tableIdExtension = 0x1234 ∧ sect.version = 5 ∧
      sect.sectionNumber = 0 ∧ sect.lastSectionNumber = 0 ∧ sect.HasReservedBits ∧
        crcMatches sect.content = true ∧ sect.isLongSection = true ∧
          sect.payload.length ≤ maxPsiLongSectionPayloadSize := by
    have hall : smallLongTable.sections.all (Option.all fun sect ↦
        decide (sect.tableId = 0x80 ∧ sect.tableIdExtension = 0x1234 ∧ sect.version = 5 ∧
          sect.sectionNumber = 0 ∧ sect.lastSectionNumber = 0 ∧ sect.HasReservedBits ∧
            crcMatches sect.content = true ∧ sect.isLongSection = true ∧
              sect.payload.length ≤ maxPsiLongSectionPayloadSize)) = true := by
      decide +kernel
    rw [hsect] at hall
    simpa using hall
  obtain ⟨htableId, hextension, hversion, hnumber, hlast, hreserved, hcrc, hlong, hsize⟩ := hfields
  have hholds : smallLongTable.HoldsItsSections := by
    intro index other hother
    rw [hsect] at hother ⊢
    obtain ⟨rfl, rfl⟩ : index = 0 ∧ sect = other := by
      cases index with
      | zero => exact ⟨rfl, Option.some.inj (Option.some.inj hother)⟩
      | succ index => simp at hother
    exact ⟨htableId, fun _ ↦ ⟨hextension, hversion, hnumber, hlast⟩⟩
  have hregular : smallLongTable.HasRegularSections := by
    intro one hone _
    rw [hsect] at hone ⊢
    obtain rfl := Option.some.inj (List.mem_singleton.mp hone)
    refine ⟨hreserved, hcrc, fun other hother _ ↦ ?_⟩
    obtain rfl := Option.some.inj (List.mem_singleton.mp hother)
    rfl
  apply (roundTripsGeneric_iff emptyFactory 1 (by decide) hholds hregular).mpr
  refine Or.inr ⟨sect, by rw [hsect]; rfl, fun slot hslot ↦ ?_⟩
  rw [hsect, List.mem_singleton] at hslot
  exact ⟨sect, hslot, hlong, rfl, hsize⟩

/-- A short section, larger than in a table. -/
def largeShortTable : BinaryTable :=
  (empty.addSection (Section.ofShortPayload 0x80 true (List.replicate 1022 0)) true true).2

/-- The table is valid but not rebuilt. -/
theorem largeShortTable_not_rebuilt :
    largeShortTable.isValid = true ∧ largeShortTable.HoldsItsSections ∧
      largeShortTable.HasRegularSections ∧ ¬ largeShortTable.RoundTripsGeneric emptyFactory 1 := by
  have hlength : (List.replicate 1022 (0 : UInt8)).length = 1022 := List.length_replicate
  obtain ⟨sect, hbuilt, hcontent⟩ := exists_ofShortPayload 0x80 true
    (show (List.replicate 1022 (0 : UInt8)).length ≤ 4093 by rw [hlength]; decide)
  have hshort : sect.isLongSection = false := by
    unfold Section.isLongSection
    rw [hcontent]
    exact (Section.sectionBytes_shortBytes 0x80 true (by rw [hlength]; decide)).2
  have htable : largeShortTable =
      { isValid := true, tableId := sect.tableId, tableIdExtension := 0, version := 0
        sourcePid := sect.sourcePid, missingCount := 0, sections := [some sect] } := by
    unfold largeShortTable
    rw [hbuilt, addSection_empty_short hshort]
  have hholds : largeShortTable.HoldsItsSections := by
    rw [htable]
    intro index other hother
    obtain rfl := Option.some.inj (List.mem_singleton.mp (List.mem_of_getElem? hother))
    exact ⟨rfl, fun hlong ↦ absurd hlong (by rw [hshort]; decide)⟩
  have hvalid : largeShortTable.isValid = true := by
    rw [htable]
  refine ⟨hvalid, hholds, ?_, ?_⟩
  · rw [htable]
    intro other hother hlong
    obtain rfl := Option.some.inj (List.mem_singleton.mp hother)
    rw [hshort] at hlong
    cases hlong
  · have hsections : largeShortTable.sections = [some sect] := by
      rw [htable]
    rw [roundTripsGeneric_iff_of_short emptyFactory 1 hvalid hholds hsections hshort]
    rintro ⟨-, -, other, hother, -, -, hsize⟩
    rw [hsections, List.cons.injEq, Option.some.injEq] at hother
    rw [← hother.1, Section.payload_of_short hshort, List.length_drop, hcontent,
      Section.length_shortBytes, hlength] at hsize
    exact absurd hsize (by decide)

end BinaryTable

end TSDuck
