import TSDuck.Scte35.SpliceSegmentation
import TSDuck.Xml.Element

/-!
# Splice segmentation descriptors in XML

The XML element of a splice segmentation descriptor has no attribute for the kind of segmentation.
So a segmentation of components without any component is read back as the one of the program.

`roundTripsXml_iff_fits` states that all other descriptors are read back, when their fields have the
sizes of the binary syntax, and `isCodec_iff` is the law of both codecs.
-/

namespace TSDuck

namespace SpliceSegmentation

def xmlName : UString := "splice_segmentation_descriptor".toList

/-! ### Writing -/

def restrictionAttributes (desc : SpliceSegmentation) (attributes : List (UString × UString)) :
    List (UString × UString) :=
  if !desc.deliveryNotRestricted then
    let web := XmlNode.setBoolAttribute attributes "web_delivery_allowed".toList desc.webDeliveryAllowed
    let blackout :=
      XmlNode.setBoolAttribute web "no_regional_blackout".toList desc.noRegionalBlackout
    let archive := XmlNode.setBoolAttribute blackout "archive_allowed".toList desc.archiveAllowed
    XmlNode.setIntAttribute archive "device_restrictions".toList 2 desc.deviceRestrictions.toNat false
  else attributes

def durationAttributes (desc : SpliceSegmentation) (attributes : List (UString × UString)) :
    List (UString × UString) :=
  match desc.duration with
  | some duration =>
    XmlNode.setIntAttribute attributes "segmentation_duration".toList 16 duration.toNat false
  | none => attributes

def subSegmentAttributes (desc : SpliceSegmentation) (attributes : List (UString × UString)) :
    List (UString × UString) :=
  if hasSubSegments desc.typeId then
    XmlNode.setIntAttribute
      (XmlNode.setIntAttribute attributes "sub_segment_num".toList 2 desc.subSegmentNum.toNat false)
      "sub_segments_expected".toList 2 desc.subSegmentsExpected.toNat false
  else attributes

def xmlAttributes (desc : SpliceSegmentation) : List (UString × UString) :=
  let id := XmlNode.setIntAttribute [] "identifier".toList 8 desc.identifier.toNat true
  let event := XmlNode.setIntAttribute id "segmentation_event_id".toList 8 desc.eventId.toNat true
  let cancel := XmlNode.setBoolAttribute event "segmentation_event_cancel".toList desc.canceled
  if desc.canceled then cancel
  else
    let timed := desc.durationAttributes (desc.restrictionAttributes cancel)
    let typed :=
      XmlNode.setIntAttribute timed "segmentation_type_id".toList 2 desc.typeId.toNat true
    let num := XmlNode.setIntAttribute typed "segment_num".toList 2 desc.segmentNum.toNat false
    let expected :=
      XmlNode.setIntAttribute num "segments_expected".toList 2 desc.segmentsExpected.toNat false
    desc.subSegmentAttributes expected

def upidNode (desc : SpliceSegmentation) (depth : ℕ) : XmlNode :=
  .element "segmentation_upid".toList
    (XmlNode.setIntAttribute [] "type".toList 2 desc.upidType.toNat true)
    (if desc.upid.isEmpty then [] else [XmlNode.hexaText depth desc.upid])

def componentNode (component : Fin 256 × UInt64) : XmlNode :=
  .element "component".toList
    (XmlNode.setIntAttribute
      (XmlNode.setIntAttribute [] "component_tag".toList 2 component.1.val false)
      "pts_offset".toList 16 component.2.toNat false) []

def toXML (desc : SpliceSegmentation) (depth : ℕ) : XmlNode :=
  .element xmlName desc.xmlAttributes
    (if desc.canceled then []
    else
      desc.upidNode depth ::
        if desc.programSegmentation then [] else desc.ptsOffsets.entries.map componentNode)

/-! ### Reading -/

/-- There are component tags. -/
local instance (priority := high) neZero_tags : NeZero 256 := ⟨by decide⟩

def componentsFromXML (offsets : SortedMap (Fin 256) UInt64) :
    List XmlNode → Option (SortedMap (Fin 256) UInt64)
  | [] => some offsets
  | node :: nodes =>
    match node.getIntAttribute "component_tag".toList true 256 0 0 255,
      node.getIntAttribute "pts_offset".toList true (2 ^ 64) 0 0 ptsDtsMask with
    | some tag, some pts =>
      componentsFromXML (offsets.update (Fin.ofNat 256 tag) fun _ ↦ UInt64.ofNat pts) nodes
    | _, _ => none

def restrictionsFromXML (desc : SpliceSegmentation) (node : XmlNode) : Option SpliceSegmentation :=
  match node.getBoolAttribute "web_delivery_allowed".toList false true,
    node.getBoolAttribute "no_regional_blackout".toList false true,
    node.getBoolAttribute "archive_allowed".toList false true,
    node.getIntAttribute "device_restrictions".toList false 256 3 0 3,
    node.getOptionalIntAttribute "segmentation_duration".toList (2 ^ 64) 0 0x000000FFFFFFFFFF with
  | some webDeliveryAllowed, some noRegionalBlackout, some archiveAllowed, some deviceRestrictions,
      some duration =>
    some { desc with
      webDeliveryAllowed
      noRegionalBlackout
      archiveAllowed
      deviceRestrictions := UInt8.ofNat deviceRestrictions
      duration := duration.map UInt64.ofNat }
  | _, _, _, _, _ => none

def segmentFromXML (desc : SpliceSegmentation) (node : XmlNode) : Option SpliceSegmentation :=
  match node.getIntAttribute "segmentation_type_id".toList true 256 0 0 255,
    node.getIntAttribute "segment_num".toList true 256 0 0 255,
    node.getIntAttribute "segments_expected".toList true 256 0 0 255,
    node.getChildren "segmentation_upid".toList 1 1 with
  | some typeId, some segmentNum, some segmentsExpected, some (upid :: _) =>
    match upid.getIntAttribute "type".toList true 256 0 0 255, upid.getHexaText 0 255 with
    | some upidType, some bytes =>
      some { desc with
        typeId := UInt8.ofNat typeId
        segmentNum := UInt8.ofNat segmentNum
        segmentsExpected := UInt8.ofNat segmentsExpected
        upidType := UInt8.ofNat upidType
        upid := bytes }
    | _, _ => none
  | _, _, _, _ => none

def subSegmentsFromXML (desc : SpliceSegmentation) (node : XmlNode) : Option SpliceSegmentation :=
  if hasSubSegments desc.typeId then
    match node.getIntAttribute "sub_segment_num".toList true 256 0 0 255,
      node.getIntAttribute "sub_segments_expected".toList true 256 0 0 255 with
    | some subSegmentNum, some subSegmentsExpected =>
      some { desc with
        subSegmentNum := UInt8.ofNat subSegmentNum
        subSegmentsExpected := UInt8.ofNat subSegmentsExpected }
    | _, _ => none
  else some desc

def eventFromXML (desc : SpliceSegmentation) (node : XmlNode) : Option SpliceSegmentation :=
  (desc.restrictionsFromXML node).bind fun restricted ↦
    (restricted.segmentFromXML node).bind fun segment ↦
      (node.getChildren "component".toList 0 255).bind fun components ↦
        (segment.subSegmentsFromXML node).bind fun read ↦
          (componentsFromXML read.ptsOffsets components).map fun ptsOffsets ↦
            { read with ptsOffsets, programSegmentation := ptsOffsets.entries.isEmpty }

def fromXML (node : XmlNode) : Option SpliceSegmentation :=
  if node.name.similar xmlName then
    match node.getIntAttribute "identifier".toList false (2 ^ 32) spliceIdCuei.toNat 0 (2 ^ 32 - 1),
      node.getIntAttribute "segmentation_event_id".toList true (2 ^ 32) 0 0 (2 ^ 32 - 1),
      node.getBoolAttribute "segmentation_event_cancel".toList false false with
    | some identifier, some eventId, some canceled =>
      let desc := { cleared with
        identifier := UInt32.ofNat identifier
        eventId := UInt32.ofNat eventId
        canceled }
      if canceled then some desc else desc.eventFromXML node
    | _, _, _ => none
  else none

/-- The descriptor is read back with its significant fields. -/
def RoundTripsXml (desc : SpliceSegmentation) (depth : ℕ) : Prop :=
  ∃ read, fromXML (desc.toXML depth) = some read ∧ read.significant = desc.significant

/-! ### What is read back -/

variable {desc : SpliceSegmentation}

theorem lookup_xmlAttributes (hactive : desc.canceled = false) :
    let attributes := desc.xmlAttributes
    attributes.lookup "identifier".toList = some (UString.hexa 8 desc.identifier.toNat) ∧
      attributes.lookup "segmentation_event_id".toList =
        some (UString.hexa 8 desc.eventId.toNat) ∧
      attributes.lookup "segmentation_event_cancel".toList = some (UString.trueFalse false) ∧
      attributes.lookup "segmentation_duration".toList =
        desc.duration.map (fun duration ↦ UString.decimal duration.toNat) ∧
      attributes.lookup "segmentation_type_id".toList = some (UString.hexa 2 desc.typeId.toNat) ∧
      attributes.lookup "segment_num".toList = some (UString.decimal desc.segmentNum.toNat) ∧
      attributes.lookup "segments_expected".toList =
        some (UString.decimal desc.segmentsExpected.toNat) := by
  unfold xmlAttributes subSegmentAttributes durationAttributes restrictionAttributes
  rw [hactive]
  cases desc.deliveryNotRestricted <;> cases desc.duration <;> cases hasSubSegments desc.typeId <;>
    exact ⟨rfl, rfl, rfl, rfl, rfl, rfl, rfl⟩

theorem lookup_restrictions (hactive : desc.canceled = false) :
    let attributes := desc.xmlAttributes
    (attributes.lookup "web_delivery_allowed".toList =
        if desc.deliveryNotRestricted then none
        else some (UString.trueFalse desc.webDeliveryAllowed)) ∧
      (attributes.lookup "no_regional_blackout".toList =
        if desc.deliveryNotRestricted then none
        else some (UString.trueFalse desc.noRegionalBlackout)) ∧
      (attributes.lookup "archive_allowed".toList =
        if desc.deliveryNotRestricted then none
        else some (UString.trueFalse desc.archiveAllowed)) ∧
      (attributes.lookup "device_restrictions".toList =
        if desc.deliveryNotRestricted then none
        else some (UString.decimal desc.deviceRestrictions.toNat)) := by
  unfold xmlAttributes subSegmentAttributes durationAttributes restrictionAttributes
  rw [hactive]
  cases desc.deliveryNotRestricted <;> cases desc.duration <;> cases hasSubSegments desc.typeId <;>
    exact ⟨rfl, rfl, rfl, rfl⟩

theorem lookup_subSegments (hactive : desc.canceled = false) (htype : hasSubSegments desc.typeId = true) :
    desc.xmlAttributes.lookup "sub_segment_num".toList =
        some (UString.decimal desc.subSegmentNum.toNat) ∧
      desc.xmlAttributes.lookup "sub_segments_expected".toList =
        some (UString.decimal desc.subSegmentsExpected.toNat) := by
  unfold xmlAttributes subSegmentAttributes durationAttributes restrictionAttributes
  rw [hactive, htype]
  cases desc.deliveryNotRestricted <;> cases desc.duration <;> exact ⟨rfl, rfl⟩

theorem getIntAttribute_byte {node : XmlNode} {attributeName : UString} {value : UInt8}
    (hattribute : node.attributes.lookup (XmlNode.attributeKey attributeName) =
      some (UString.decimal value.toNat)) :
    node.getIntAttribute attributeName true 256 0 0 255 = some value.toNat := by
  have hlt := value.toNat_lt
  rw [XmlNode.getIntAttribute_decimal _ _ true 0 0 255 hattribute hlt, if_neg (by omega)]

theorem getBoolAttribute_of_lookup {node : XmlNode} {attributeName : UString} {absent value : Bool}
    (hattribute : node.attributes.lookup (XmlNode.attributeKey attributeName) =
      if absent then none else some (UString.trueFalse value))
    (habsent : absent = true → value = true) :
    node.getBoolAttribute attributeName false true = some value := by
  cases absent with
  | false => exact node.getBoolAttribute_trueFalse attributeName false true hattribute
  | true =>
    rw [habsent rfl, XmlNode.getBoolAttribute, XmlNode.getAttribute, hattribute]
    rfl

theorem restrictionsFromXML_toXML (hactive : desc.canceled = false) (depth : ℕ)
    (started : SpliceSegmentation) :
    started.restrictionsFromXML (desc.toXML depth) =
      if desc.deviceRestrictions.toNat ≤ 3 ∧ ∀ duration ∈ desc.duration, duration.toNat < 2 ^ 40 then
        some { started with
          webDeliveryAllowed := desc.webDeliveryAllowed
          noRegionalBlackout := desc.noRegionalBlackout
          archiveAllowed := desc.archiveAllowed
          deviceRestrictions := desc.deviceRestrictions
          duration := desc.duration }
      else none := by
  obtain ⟨hweb, hblackout, harchive, hdevice⟩ := lookup_restrictions hactive
  obtain ⟨-, -, -, hduration, -⟩ := lookup_xmlAttributes hactive
  have hfree : desc.deliveryNotRestricted = true → desc.webDeliveryAllowed = true ∧
      desc.noRegionalBlackout = true ∧ desc.archiveAllowed = true ∧
        desc.deviceRestrictions = 3 := by
    intro hfree
    simp only [deliveryNotRestricted, Bool.and_eq_true, beq_iff_eq] at hfree
    exact ⟨hfree.1.1.1, hfree.1.1.2, hfree.1.2, hfree.2⟩
  have hwebRead : (desc.toXML depth).getBoolAttribute "web_delivery_allowed".toList false true =
      some desc.webDeliveryAllowed :=
    getBoolAttribute_of_lookup hweb fun h ↦ (hfree h).1
  have hblackoutRead : (desc.toXML depth).getBoolAttribute "no_regional_blackout".toList false
      true = some desc.noRegionalBlackout :=
    getBoolAttribute_of_lookup hblackout fun h ↦ (hfree h).2.1
  have harchiveRead : (desc.toXML depth).getBoolAttribute "archive_allowed".toList false true =
      some desc.archiveAllowed :=
    getBoolAttribute_of_lookup harchive fun h ↦ (hfree h).2.2.1
  have hdeviceRead : (desc.toXML depth).getIntAttribute "device_restrictions".toList false 256 3 0
      3 = if desc.deviceRestrictions.toNat ≤ 3 then some desc.deviceRestrictions.toNat else none := by
    cases hnone : desc.deliveryNotRestricted with
    | true =>
      have hlookup : (desc.toXML depth).attributes.lookup
          (XmlNode.attributeKey "device_restrictions".toList) = none := by
        rw [hnone] at hdevice
        exact hdevice
      rw [(hfree hnone).2.2.2, XmlNode.getIntAttribute, XmlNode.getAttribute, hlookup]
      rfl
    | false =>
      have hlookup : (desc.toXML depth).attributes.lookup
          (XmlNode.attributeKey "device_restrictions".toList) =
            some (UString.decimal desc.deviceRestrictions.toNat) := by
        rw [hnone] at hdevice
        exact hdevice
      rw [XmlNode.getIntAttribute_decimal _ _ false 3 0 3 hlookup desc.deviceRestrictions.toNat_lt]
      split_ifs <;> first | rfl | omega
  have hdurationRead : (desc.toXML depth).getOptionalIntAttribute "segmentation_duration".toList
      (2 ^ 64) 0 0x000000FFFFFFFFFF = if ∀ duration ∈ desc.duration, duration.toNat < 2 ^ 40 then
          some (desc.duration.map UInt64.toNat) else none := by
    have hlookup : (desc.toXML depth).attributes.lookup
        (XmlNode.attributeKey "segmentation_duration".toList) =
          desc.duration.map fun duration ↦ UString.decimal duration.toNat := hduration
    cases htime : desc.duration with
    | none =>
      rw [htime] at hlookup
      rw [XmlNode.getOptionalIntAttribute, XmlNode.hasAttribute, hlookup]
      simp
    | some duration =>
      rw [htime] at hlookup
      rw [XmlNode.getOptionalIntAttribute_decimal _ _ 0 _ hlookup duration.toNat_lt]
      simp only [Option.mem_def, Option.some.injEq, forall_eq', Option.map_some]
      split_ifs <;> first | rfl | omega
  rw [restrictionsFromXML, hwebRead, hblackoutRead, harchiveRead, hdeviceRead, hdurationRead]
  by_cases hsmall : desc.deviceRestrictions.toNat ≤ 3
  · by_cases htime : ∀ duration ∈ desc.duration, duration.toNat < 2 ^ 40
    · have hsame : (desc.duration.map UInt64.toNat).map UInt64.ofNat = desc.duration := by
        cases desc.duration with
        | none => rfl
        | some duration => rw [Option.map_some, Option.map_some, UInt64.ofNat_toNat]
      simp only [if_pos hsmall, if_pos htime, if_pos (And.intro hsmall htime), hsame,
        UInt8.ofNat_toNat]
    · rw [if_pos hsmall, if_neg htime, if_neg fun hall ↦ htime hall.2]
  · have hlarge : ¬(desc.deviceRestrictions.toNat ≤ 3 ∧
        ∀ duration ∈ desc.duration, duration.toNat < 2 ^ 40) := fun hall ↦ hsmall hall.1
    rw [if_neg hsmall, if_neg hlarge]

theorem filter_children (hactive : desc.canceled = false) (depth : ℕ) (searchName : UString) :
    (desc.toXML depth).children.filter
        (fun child ↦ child.isElement && searchName.similar child.name) =
      (if searchName.similar "segmentation_upid".toList then [desc.upidNode depth] else []) ++
        if desc.programSegmentation then []
        else if searchName.similar "component".toList then
          desc.ptsOffsets.entries.map componentNode
        else [] := by
  have hchildren : (desc.toXML depth).children = [desc.upidNode depth] ++
      if desc.programSegmentation then [] else desc.ptsOffsets.entries.map componentNode := by
    rw [toXML, hactive]
    rfl
  have hcomponents : (desc.ptsOffsets.entries.map componentNode).filter
      (fun child ↦ child.isElement && searchName.similar child.name) =
        if searchName.similar "component".toList then desc.ptsOffsets.entries.map componentNode
        else [] := by
    have hname : ∀ child ∈ desc.ptsOffsets.entries.map componentNode,
        (child.isElement && searchName.similar child.name) =
          searchName.similar "component".toList := by
      intro child hchild
      obtain ⟨entry, -, rfl⟩ := List.mem_map.mp hchild
      rfl
    split_ifs with hsame
    · exact List.filter_eq_self.mpr fun child hchild ↦ (hname child hchild).trans hsame
    · refine List.filter_eq_nil_iff.mpr fun child hchild ↦ ?_
      rw [hname child hchild]
      exact hsame
  have hupid : ((desc.upidNode depth).isElement && searchName.similar (desc.upidNode depth).name) =
      searchName.similar "segmentation_upid".toList := rfl
  rw [hchildren, List.filter_append, List.filter_singleton, hupid, cond_eq_ite]
  cases desc.programSegmentation with
  | true => rfl
  | false => rw [if_neg Bool.false_ne_true, if_neg Bool.false_ne_true, hcomponents]

theorem getChildren_upid (hactive : desc.canceled = false) (depth : ℕ) :
    (desc.toXML depth).getChildren "segmentation_upid".toList 1 1 =
      some [desc.upidNode depth] := by
  have hself : UString.similar "segmentation_upid".toList "segmentation_upid".toList = true := by
    decide
  have hother : UString.similar "segmentation_upid".toList "component".toList = false := by
    decide
  rw [XmlNode.getChildren, if_neg (by decide), filter_children hactive, hself, hother]
  simp

theorem getChildren_components (hactive : desc.canceled = false)
    (hcount : desc.programSegmentation = false → desc.ptsOffsets.entries.length ≤ 255) (depth : ℕ) :
    (desc.toXML depth).getChildren "component".toList 0 255 =
      some (if desc.programSegmentation then [] else desc.ptsOffsets.entries.map componentNode) := by
  have hself : UString.similar "component".toList "component".toList = true := by
    decide
  have hother : UString.similar "component".toList "segmentation_upid".toList = false := by
    decide
  rw [XmlNode.getChildren, if_neg (by decide), filter_children hactive, hself, hother]
  cases hprogram : desc.programSegmentation with
  | true => simp
  | false => simp [hcount hprogram]

theorem segmentFromXML_toXML (hactive : desc.canceled = false) (hupid : desc.upid.length ≤ 255)
    (depth : ℕ) (started : SpliceSegmentation) :
    started.segmentFromXML (desc.toXML depth) = some { started with
        typeId := desc.typeId
        segmentNum := desc.segmentNum
        segmentsExpected := desc.segmentsExpected
        upidType := desc.upidType
        upid := desc.upid } := by
  obtain ⟨-, -, -, -, htype, hnum, hexpected⟩ := lookup_xmlAttributes hactive
  have htypeRead : (desc.toXML depth).getIntAttribute "segmentation_type_id".toList true 256 0 0
      255 = some desc.typeId.toNat := by
    have hlt := desc.typeId.toNat_lt
    exact XmlNode.getIntAttribute_hexa _ _ true 1 0 htype (by omega) hlt (Nat.zero_le _) (by omega)
  have hnumRead : (desc.toXML depth).getIntAttribute "segment_num".toList true 256 0 0 255 =
      some desc.segmentNum.toNat := getIntAttribute_byte hnum
  have hexpectedRead : (desc.toXML depth).getIntAttribute "segments_expected".toList true 256 0 0
      255 = some desc.segmentsExpected.toNat := getIntAttribute_byte hexpected
  have hchild : (desc.toXML depth).getChildren "segmentation_upid".toList 1 1 =
      some [desc.upidNode depth] := getChildren_upid hactive depth
  have hupidType : (desc.upidNode depth).getIntAttribute "type".toList true 256 0 0 255 =
      some desc.upidType.toNat := by
    have hlt := desc.upidType.toNat_lt
    exact XmlNode.getIntAttribute_hexa _ _ true 1 0 rfl (by omega) hlt (Nat.zero_le _) (by omega)
  have hbytes : (desc.upidNode depth).getHexaText 0 255 = some desc.upid := by
    rw [upidNode]
    cases hempty : desc.upid with
    | nil => rfl
    | cons byte rest =>
      rw [List.isEmpty_cons, if_neg Bool.false_ne_true, XmlNode.getHexaText_hexaText, ← hempty,
        if_pos ⟨Nat.zero_le _, hupid⟩]
  rw [segmentFromXML, htypeRead, hnumRead, hexpectedRead, hchild]
  simp only [hupidType, hbytes, UInt8.ofNat_toNat]

theorem subSegmentsFromXML_toXML {started : SpliceSegmentation} (hactive : desc.canceled = false)
    (htype : started.typeId = desc.typeId) (depth : ℕ) :
    started.subSegmentsFromXML (desc.toXML depth) = some { started with
        subSegmentNum :=
          if hasSubSegments desc.typeId then desc.subSegmentNum else started.subSegmentNum
        subSegmentsExpected :=
          if hasSubSegments desc.typeId then desc.subSegmentsExpected
          else started.subSegmentsExpected } := by
  have hsame : hasSubSegments started.typeId = hasSubSegments desc.typeId := by rw [htype]
  rw [subSegmentsFromXML, hsame]
  cases hsub : hasSubSegments desc.typeId with
  | false => simp only [Bool.false_eq_true, if_false]
  | true =>
    obtain ⟨hnum, hexpected⟩ := lookup_subSegments hactive hsub
    have hnumRead : (desc.toXML depth).getIntAttribute "sub_segment_num".toList true 256 0 0 255 =
        some desc.subSegmentNum.toNat := getIntAttribute_byte hnum
    have hexpectedRead : (desc.toXML depth).getIntAttribute "sub_segments_expected".toList true 256
        0 0 255 = some desc.subSegmentsExpected.toNat := getIntAttribute_byte hexpected
    simp only [if_true, hnumRead, hexpectedRead, UInt8.ofNat_toNat]

theorem componentsFromXML_map (entries : List (Fin 256 × UInt64))
    (offsets : SortedMap (Fin 256) UInt64) :
    componentsFromXML offsets (entries.map componentNode) =
      if ∀ entry ∈ entries, entry.2.toNat < 2 ^ 33 then
        some (entries.foldl (fun loaded entry ↦ loaded.update entry.1 fun _ ↦ entry.2) offsets)
      else none := by
  induction entries generalizing offsets with
  | nil => simp [componentsFromXML]
  | cons entry entries ih =>
    have htag : (componentNode entry).getIntAttribute "component_tag".toList true 256 0 0 255 =
        some entry.1.val := by
      have hlt := entry.1.isLt
      have hlookup : (componentNode entry).attributes.lookup
          (XmlNode.attributeKey "component_tag".toList) = some (UString.decimal entry.1.val) := rfl
      rw [XmlNode.getIntAttribute_decimal _ _ true 0 0 255 hlookup hlt, if_neg (by omega)]
    have hpts : (componentNode entry).getIntAttribute "pts_offset".toList true (2 ^ 64) 0 0
        ptsDtsMask = if entry.2.toNat < 2 ^ 33 then some entry.2.toNat else none := by
      have hlookup : (componentNode entry).attributes.lookup
          (XmlNode.attributeKey "pts_offset".toList) = some (UString.decimal entry.2.toNat) := rfl
      rw [XmlNode.getIntAttribute_decimal _ _ true 0 0 ptsDtsMask hlookup entry.2.toNat_lt,
        show ptsDtsMask = 2 ^ 33 - 1 from rfl]
      split_ifs <;> first | rfl | omega
    rw [List.map_cons, componentsFromXML, htag, hpts]
    simp only [List.forall_mem_cons]
    by_cases hfits : entry.2.toNat < 2 ^ 33
    · rw [if_pos hfits]
      simp only [and_iff_right hfits, ih, Fin.ofNat_val_eq_self, UInt64.ofNat_toNat,
        List.foldl_cons]
    · rw [if_neg hfits, if_neg fun hall ↦ hfits hall.1]

/-- The element shows that the segmentation is the one of components. -/
def ShowsComponents (desc : SpliceSegmentation) : Prop :=
  desc.programSegmentation = false → desc.ptsOffsets.entries ≠ []

theorem fromXML_toXML (desc : SpliceSegmentation) (depth : ℕ) :
    fromXML (desc.toXML depth) = let read := { cleared with
        identifier := desc.identifier
        eventId := desc.eventId
        canceled := desc.canceled }
      if desc.canceled then some read else read.eventFromXML (desc.toXML depth) := by
  have hlookup : desc.xmlAttributes.lookup "identifier".toList =
        some (UString.hexa 8 desc.identifier.toNat) ∧
      desc.xmlAttributes.lookup "segmentation_event_id".toList =
        some (UString.hexa 8 desc.eventId.toNat) ∧
      desc.xmlAttributes.lookup "segmentation_event_cancel".toList =
        some (UString.trueFalse desc.canceled) := by
    cases hcanceled : desc.canceled with
    | true =>
      unfold xmlAttributes
      rw [hcanceled]
      exact ⟨rfl, rfl, rfl⟩
    | false =>
      obtain ⟨hid, hevent, hcancel, -⟩ := lookup_xmlAttributes hcanceled
      exact ⟨hid, hevent, hcancel⟩
  obtain ⟨hid, hevent, hcancel⟩ := hlookup
  have hidLt := desc.identifier.toNat_lt
  have heventLt := desc.eventId.toNat_lt
  have hidRead : (desc.toXML depth).getIntAttribute "identifier".toList false (2 ^ 32)
      spliceIdCuei.toNat 0 (2 ^ 32 - 1) = some desc.identifier.toNat :=
    XmlNode.getIntAttribute_hexa _ _ false 7 _ hid (by omega) hidLt (Nat.zero_le _) (by omega)
  have heventRead : (desc.toXML depth).getIntAttribute "segmentation_event_id".toList true (2 ^ 32) 0
      0 (2 ^ 32 - 1) = some desc.eventId.toNat :=
    XmlNode.getIntAttribute_hexa _ _ true 7 _ hevent (by omega) heventLt (Nat.zero_le _) (by omega)
  have hcancelRead : (desc.toXML depth).getBoolAttribute "segmentation_event_cancel".toList false
      false = some desc.canceled :=
    XmlNode.getBoolAttribute_trueFalse _ _ false false hcancel
  have hname : (desc.toXML depth).name.similar xmlName = true := by
    show UString.similar xmlName xmlName = true
    decide
  rw [fromXML, if_pos hname, hidRead, heventRead, hcancelRead]
  simp only [UInt32.ofNat_toNat]

theorem and_three_eq_iff (byte : UInt8) : byte &&& 0x03 = byte ↔ byte.toNat ≤ 3 := by
  rw [← UInt8.toNat_inj, UInt8.toNat_and, show (0x03 : UInt8).toNat = 2 ^ 2 - 1 from rfl,
    Nat.and_two_pow_sub_one_eq_mod]
  omega

/-- What is read from the element of an event which is not cancelled. -/
theorem eventFromXML_toXML {started : SpliceSegmentation} (hactive : desc.canceled = false)
    (hsize : desc.payload.length ≤ 255) (hempty : started.ptsOffsets = .empty) (depth : ℕ) :
    started.eventFromXML (desc.toXML depth) =
      if (desc.deviceRestrictions.toNat ≤ 3 ∧ ∀ duration ∈ desc.duration, duration.toNat < 2 ^ 40) ∧
          (desc.programSegmentation = false →
            ∀ entry ∈ desc.ptsOffsets.entries, entry.2.toNat < 2 ^ 33) then
        some { desc with
          identifier := started.identifier
          eventId := started.eventId
          canceled := started.canceled
          programSegmentation := desc.programSegmentation || desc.ptsOffsets.entries.isEmpty
          ptsOffsets := if desc.programSegmentation then .empty else desc.ptsOffsets
          subSegmentNum :=
            if hasSubSegments desc.typeId then desc.subSegmentNum else started.subSegmentNum
          subSegmentsExpected :=
            if hasSubSegments desc.typeId then desc.subSegmentsExpected
            else started.subSegmentsExpected }
      else none := by
  obtain ⟨hcount, hupid⟩ := length_le_of_payload hactive hsize
  rw [eventFromXML, restrictionsFromXML_toXML hactive]
  by_cases hsmall : desc.deviceRestrictions.toNat ≤ 3 ∧
      ∀ duration ∈ desc.duration, duration.toNat < 2 ^ 40
  · rw [if_pos hsmall, Option.bind_some, segmentFromXML_toXML hactive hupid, Option.bind_some,
      getChildren_components hactive hcount, Option.bind_some,
      subSegmentsFromXML_toXML hactive ?type depth, Option.bind_some]
    case type => rfl
    simp only [and_iff_right hsmall]
    cases hprogram : desc.programSegmentation with
    | true =>
      rw [if_pos rfl, if_pos fun h ↦ absurd h.symm Bool.false_ne_true]
      simp only [componentsFromXML, Option.map_some, hempty]
      rfl
    | false =>
      have hload := SortedMap.foldl_update_entries desc.ptsOffsets
      rw [if_neg Bool.false_ne_true]
      simp only [componentsFromXML_map, hempty, hload, forall_const]
      by_cases hfits : ∀ entry ∈ desc.ptsOffsets.entries, entry.2.toNat < 2 ^ 33
      · rw [if_pos hfits, if_pos hfits, Option.map_some]
        rfl
      · rw [if_neg hfits, if_neg hfits, Option.map_none]
  · rw [if_neg hsmall, if_neg fun hall ↦ hsmall hall.1, Option.bind_none]

theorem roundTripsXml_of_active (hactive : desc.canceled = false) (hsize : desc.payload.length ≤ 255)
    (depth : ℕ) :
    desc.RoundTripsXml depth ↔ desc.Fits ∧ desc.ShowsComponents := by
  have hfits : desc.Fits ↔ (desc.deviceRestrictions.toNat ≤ 3 ∧
      ∀ duration ∈ desc.duration, duration.toNat < 2 ^ 40) ∧ (desc.programSegmentation = false →
          ∀ entry ∈ desc.ptsOffsets.entries, entry.2.toNat < 2 ^ 33) := by
    rw [← and_three_eq_iff]
    exact ⟨fun h ↦ ⟨⟨h.deviceRestrictions, h.duration⟩, h.ptsOffsets⟩, fun h ↦ ⟨h.1.1, h.1.2, h.2⟩⟩
  rw [RoundTripsXml, fromXML_toXML, if_neg (by rw [hactive]; exact Bool.false_ne_true), hfits]
  dsimp only
  rw [eventFromXML_toXML hactive hsize rfl]
  by_cases hall : (desc.deviceRestrictions.toNat ≤ 3 ∧
      ∀ duration ∈ desc.duration, duration.toNat < 2 ^ 40) ∧ (desc.programSegmentation = false →
          ∀ entry ∈ desc.ptsOffsets.entries, entry.2.toNat < 2 ^ 33)
  · rw [if_pos hall, and_iff_right hall]
    simp only [Option.some.injEq, exists_eq_left', ShowsComponents]
    cases hprogram : desc.programSegmentation with
    | true =>
      apply iff_of_true
      · cases htype : hasSubSegments desc.typeId <;>
          simp [significant, hactive, hprogram, htype]
      · exact fun h ↦ absurd h.symm Bool.false_ne_true
    | false =>
      cases hentries : desc.ptsOffsets.entries with
      | nil =>
        refine iff_of_false (fun hsame ↦ ?_) (fun h ↦ h rfl rfl)
        have hkind := congrArg SpliceSegmentation.programSegmentation hsame
        simp [significant, hactive, hprogram] at hkind
      | cons entry entries =>
        apply iff_of_true
        · cases htype : hasSubSegments desc.typeId <;>
            simp [significant, hactive, hprogram, htype]
        · exact fun _ ↦ List.cons_ne_nil _ _
  · rw [if_neg hall]
    refine iff_of_false ?_ fun h ↦ hall h.1
    rintro ⟨read, hread, -⟩
    cases hread

theorem roundTripsXml_iff_fits (hsize : desc.payload.length ≤ 255) (depth : ℕ) :
    desc.RoundTripsXml depth ↔ (desc.canceled = false → desc.Fits ∧ desc.ShowsComponents) := by
  cases hcanceled : desc.canceled with
  | true =>
    refine iff_of_true ⟨_, (fromXML_toXML desc depth).trans (if_pos hcanceled), ?_⟩
      fun h ↦ absurd h.symm Bool.false_ne_true
    simp [significant, hcanceled]
  | false => rw [roundTripsXml_of_active hcanceled hsize, forall_prop_of_true rfl]

/-- Assumes: at most 255 bytes of payload. The codecs are right if and only if the payload is not
cut before a part, and the object is cancelled, or its fields fit and its components are shown. -/
theorem isCodec_iff (data : ByteBlock) {desc : SpliceSegmentation}
    (hsize : desc.payload.length ≤ 255) (depth : ℕ) :
    (((deserializePayload myDid data).1 = true ↔ IsComplete data) ∧
      desc.RoundTrips ∧ desc.RoundTripsXml depth) ↔
        ¬IsCut data ∧ (desc.canceled = false → desc.Fits ∧ desc.ShowsComponents) := by
  have haccepted : ((deserializePayload myDid data).1 = true ↔ IsComplete data) ↔ ¬IsCut data := by
    rw [isValid_deserialize_iff]
    constructor
    · exact fun hlaw hcut ↦ not_isComplete_of_isCut hcut (hlaw.mp (Or.inr hcut))
    · exact fun hcut ↦ or_iff_left hcut
  rw [haccepted, roundTrips_iff_fits hsize, roundTripsXml_iff_fits hsize]
  refine and_congr_right fun _ ↦ and_iff_right_of_imp fun hboth hactive ↦ (hboth hactive).1

theorem isCodec_of_cleared :
    ((deserializePayload myDid cleared.payload).1 = true ↔ IsComplete cleared.payload) ∧
      cleared.RoundTrips ∧ cleared.RoundTripsXml 2 := by
  have hcut : ¬IsCut cleared.payload := by
    rintro (hempty | ⟨-, hnine | hten | ⟨hduration, -⟩ | ⟨hsub, -⟩⟩)
    · exact absurd hempty (by decide +kernel)
    · exact absurd hnine (by decide +kernel)
    · exact absurd hten (by decide +kernel)
    · exact absurd hduration (by decide +kernel)
    · exact absurd hsub (by decide +kernel)
  have hfits : cleared.Fits :=
    ⟨by decide, fun _ hduration ↦ absurd hduration (Option.not_mem_none _),
      fun h ↦ absurd h.symm Bool.false_ne_true⟩
  exact (isCodec_iff cleared.payload (by decide +kernel) 2).mpr
    ⟨hcut, fun _ ↦ ⟨hfits, fun h ↦ absurd h.symm Bool.false_ne_true⟩⟩

def emptyComponents : SpliceSegmentation := { cleared with programSegmentation := false }

/-- An empty payload is accepted, and has no component. -/
theorem not_isCodec_of_empty :
    ¬((deserializePayload myDid []).1 = true ↔ IsComplete []) ∧
      emptyComponents.payload.length ≤ 255 ∧ ¬emptyComponents.RoundTripsXml 2 := by
  have hsize : emptyComponents.payload.length ≤ 255 := by decide +kernel
  refine ⟨fun hlaw ↦ not_isComplete_of_isCut (Or.inl rfl) (hlaw.mp rfl), hsize, fun hread ↦ ?_⟩
  exact ((roundTripsXml_iff_fits hsize 2).mp hread rfl).2 rfl rfl

end SpliceSegmentation

end TSDuck
