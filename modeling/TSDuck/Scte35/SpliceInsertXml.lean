import TSDuck.Scte35.SpliceInsert
import TSDuck.Xml.Element
import Mathlib

/-!
# Splice insert commands in XML

Whoever reads the element decides from what is there: a splice is a program splice if it has a time,
or if it is immediate and without components.

`roundTripsXml_iff` states that all other commands are read back, up to the number of components and
the size of the times.
-/

namespace TSDuck

namespace SpliceInsert

def xmlName : UString := "splice_insert".toList

def ptsAttributes (attributes : List (UString × UString)) (written : Bool) (time : SpliceTime) :
    List (UString × UString) :=
  match time with
  | some pts =>
    if written then XmlNode.setIntAttribute attributes "pts_time".toList 16 pts.toNat false
    else attributes
  | none => attributes

def xmlAttributes (insert : SpliceInsert) : List (UString × UString) :=
  let id := XmlNode.setIntAttribute [] "splice_event_id".toList 8 insert.eventId.toNat true
  let cancel := XmlNode.setBoolAttribute id "splice_event_cancel".toList insert.canceled
  if insert.canceled then cancel
  else
    let out := XmlNode.setBoolAttribute cancel "out_of_network".toList insert.spliceOut
    let soon := XmlNode.setBoolAttribute out "splice_immediate".toList insert.immediate
    let program :=
      XmlNode.setIntAttribute soon "unique_program_id".toList 4 insert.programId.toNat true
    let avail := XmlNode.setIntAttribute program "avail_num".toList 2 insert.availNum.toNat false
    let avails :=
      XmlNode.setIntAttribute avail "avails_expected".toList 2 insert.availsExpected.toNat false
    ptsAttributes avails insert.hasProgramPts insert.programPts

def durationNode (insert : SpliceInsert) : XmlNode :=
  .element "break_duration".toList
    (XmlNode.setIntAttribute (XmlNode.setBoolAttribute [] "auto_return".toList insert.autoReturn)
      "duration".toList 16 insert.durationPts.toNat false) []

def componentNode (immediate : Bool) (component : Fin 256 × SpliceTime) : XmlNode :=
  .element "component".toList
    (ptsAttributes (XmlNode.setIntAttribute [] "component_tag".toList 2 component.1.val false)
      (!immediate) component.2) []

def xmlChildren (insert : SpliceInsert) : List XmlNode :=
  if insert.canceled then []
  else
    (if insert.useDuration then [insert.durationNode] else []) ++ if insert.programSplice then []
      else insert.componentsPts.entries.map (componentNode insert.immediate)

def toXML (insert : SpliceInsert) : XmlNode :=
  .element xmlName insert.xmlAttributes insert.xmlChildren

/-! ### Reading -/

def durationFromXML (insert : SpliceInsert) (breakDuration : List XmlNode) : Option SpliceInsert :=
  match breakDuration with
  | [] => some insert
  | node :: _ =>
    match node.getBoolAttribute "auto_return".toList true false,
      node.getIntAttribute "duration".toList true (2 ^ 64) 0 0 (2 ^ 64 - 1) with
    | some autoReturn, some duration =>
      some { insert with autoReturn, durationPts := UInt64.ofNat duration }
    | _, _ => none

def ptsFromXML (node : XmlNode) : Option SpliceTime :=
  (node.getOptionalIntAttribute "pts_time".toList (2 ^ 64) 0 ptsDtsMask).map
    (Option.map UInt64.ofNat)

/-- There are component tags. -/
local instance (priority := high) neZero_tags : NeZero 256 := ⟨by decide⟩

/-- Reads the times of the components, keeping the last ones. -/
def componentsFromXML (components : SortedMap (Fin 256) SpliceTime) :
    List XmlNode → Option (SortedMap (Fin 256) SpliceTime)
  | [] => some components
  | node :: nodes =>
    match node.getIntAttribute "component_tag".toList true 256 0 0 255, ptsFromXML node with
    | some tag, some pts =>
      componentsFromXML (components.update (Fin.ofNat 256 tag) fun _ ↦ pts) nodes
    | _, _ => none

/-- Reads the times of a command, for the program or for its components. -/
def timesFromXML (insert : SpliceInsert) (node : XmlNode) (components : List XmlNode) :
    Option SpliceInsert :=
  if insert.programSplice then
    if insert.immediate then some insert
    else (ptsFromXML node).map fun programPts ↦ { insert with programPts }
  else
    (componentsFromXML insert.componentsPts components).map fun componentsPts ↦
      { insert with componentsPts }

def eventFromXML (insert : SpliceInsert) (node : XmlNode) : Option SpliceInsert :=
  match node.getBoolAttribute "out_of_network".toList true false,
    node.getBoolAttribute "splice_immediate".toList false false,
    node.getIntAttribute "unique_program_id".toList true 65536 0 0 65535,
    node.getIntAttribute "avail_num".toList false 256 0 0 255,
    node.getIntAttribute "avails_expected".toList false 256 0 0 255,
    node.getChildren "break_duration".toList 0 1, node.getChildren "component".toList 0 255 with
  | some spliceOut, some immediate, some programId, some availNum, some availsExpected,
      some breakDuration, some components =>
    let read := { insert with
      spliceOut
      immediate
      programId := UInt16.ofNat programId
      availNum := UInt8.ofNat availNum
      availsExpected := UInt8.ofNat availsExpected
      useDuration := !breakDuration.isEmpty
      programSplice := node.hasAttribute "pts_time".toList || (immediate && components.isEmpty) }
    (read.durationFromXML breakDuration).bind fun timed ↦ timed.timesFromXML node components
  | _, _, _, _, _, _, _ => none

def fromXML (node : XmlNode) : Option SpliceInsert :=
  if node.name.similar xmlName then
    match node.getIntAttribute "splice_event_id".toList true (2 ^ 32) 0 0 (2 ^ 32 - 1),
      node.getBoolAttribute "splice_event_cancel".toList false false with
    | some eventId, some canceled =>
      let insert := { cleared with eventId := UInt32.ofNat eventId, canceled }
      if canceled then some insert else insert.eventFromXML node
    | _, _ => none
  else none

/-- The command is read back with its significant fields. -/
def RoundTripsXml (insert : SpliceInsert) : Prop :=
  ∃ read, fromXML insert.toXML = some read ∧ read.significant = insert.significant

/-- The time or the components tell the kind of splice. -/
structure ShowsItsKind (insert : SpliceInsert) : Prop where
  programPts : insert.hasProgramPts = true → insert.programPts.isSome = true
  components : insert.programSplice = false → insert.immediate = true →
    insert.componentsPts.entries ≠ []

/-! ### What is read back -/

theorem lookup_ptsAttributes {attributes : List (UString × UString)}
    (hnone : attributes.lookup "pts_time".toList = none) (written : Bool) (time : SpliceTime) :
    (ptsAttributes attributes written time).lookup "pts_time".toList =
      if written then time.map fun pts ↦ UString.decimal pts.toNat else none := by
  unfold ptsAttributes XmlNode.setIntAttribute
  cases time with
  | none =>
    rw [hnone]
    split_ifs <;> rfl
  | some pts =>
    cases written with
    | false => exact hnone
    | true =>
      show (XmlNode.setAttribute _ _ _).lookup _ = _
      rw [XmlNode.lookup_setAttribute, if_pos (by decide)]
      rfl

theorem lookup_ptsAttributes_of_ne {key : UString} (hkey : key ≠ "pts_time".toList)
    (attributes : List (UString × UString)) (written : Bool) (time : SpliceTime) :
    (ptsAttributes attributes written time).lookup key = attributes.lookup key := by
  unfold ptsAttributes XmlNode.setIntAttribute
  cases time with
  | none => rfl
  | some pts =>
    cases written with
    | false => rfl
    | true =>
      show (XmlNode.setAttribute _ _ _).lookup _ = _
      rw [XmlNode.lookup_setAttribute]
      exact if_neg hkey

theorem ptsFromXML_element (name : UString) {attributes : List (UString × UString)}
    (children : List XmlNode) (hnone : attributes.lookup "pts_time".toList = none) (written : Bool)
    (time : SpliceTime) :
    (XmlNode.element name (ptsAttributes attributes written time) children).hasAttribute
        "pts_time".toList = (written && time.isSome) ∧
      ptsFromXML (.element name (ptsAttributes attributes written time) children) =
        if written = true → time.IsPts then some (if written then time else none) else none := by
  have hlookup : (XmlNode.element name (ptsAttributes attributes written time)
      children).attributes.lookup (XmlNode.attributeKey "pts_time".toList) =
        if written then time.map fun pts ↦ UString.decimal pts.toNat else none :=
    lookup_ptsAttributes hnone written time
  have habsent : (if written then time.map fun pts ↦ UString.decimal pts.toNat else none) = none →
      (XmlNode.element name (ptsAttributes attributes written time) children).hasAttribute
        "pts_time".toList = false ∧
          ptsFromXML (.element name (ptsAttributes attributes written time) children) = some none := by
    intro hnothing
    have hattribute : (XmlNode.element name (ptsAttributes attributes written time)
        children).hasAttribute "pts_time".toList = false := by
      rw [XmlNode.hasAttribute, hlookup, hnothing]
      rfl
    refine ⟨hattribute, ?_⟩
    rw [ptsFromXML, XmlNode.getOptionalIntAttribute, hattribute]
    rfl
  cases written with
  | false =>
    obtain ⟨hattribute, hread⟩ := habsent rfl
    rw [hattribute, hread, if_pos fun hwritten ↦ by cases hwritten]
    exact ⟨rfl, rfl⟩
  | true =>
    cases time with
    | none =>
      obtain ⟨hattribute, hread⟩ := habsent rfl
      have hnopts : true = true → SpliceTime.IsPts none := fun _ value hvalue ↦ by cases hvalue
      rw [hattribute, hread, if_pos hnopts]
      exact ⟨rfl, rfl⟩
    | some pts =>
      have hread := XmlNode.getOptionalIntAttribute_decimal _ "pts_time".toList 0 ptsDtsMask hlookup
        pts.toNat_lt
      have hregular : SpliceTime.IsPts (some pts) ↔ pts.toNat ≤ ptsDtsMask := by
        unfold SpliceTime.IsPts
        simp
      constructor
      · rw [XmlNode.hasAttribute, hlookup]
        rfl
      · rw [ptsFromXML, hread]
        by_cases hpts : pts.toNat ≤ ptsDtsMask
        · rw [if_neg (by omega), if_pos fun _ ↦ hregular.mpr hpts, if_pos rfl, Option.map_some,
            Option.map_some, UInt64.ofNat_toNat]
        · rw [if_pos (by omega), if_neg fun hall ↦ hpts (hregular.mp (hall rfl))]
          rfl

theorem componentsFromXML_map (immediate : Bool) (entries : List (Fin 256 × SpliceTime))
    (components : SortedMap (Fin 256) SpliceTime) :
    componentsFromXML components (entries.map (componentNode immediate)) =
      if immediate = false → ∀ entry ∈ entries, entry.2.IsPts then
        some (entries.foldl (fun loaded entry ↦ loaded.update entry.1 fun _ ↦
          if immediate then none else entry.2) components)
      else none := by
  induction entries generalizing components with
  | nil =>
    rw [if_pos fun _ ↦ nofun]
    rfl
  | cons entry entries ih =>
    have hnone : (XmlNode.setIntAttribute [] "component_tag".toList 2 entry.1.val false).lookup
        "pts_time".toList = none := rfl
    have htag : (componentNode immediate entry).getIntAttribute "component_tag".toList true 256 0 0
        255 = some entry.1.val := by
      have hlookup : (componentNode immediate entry).attributes.lookup
          (XmlNode.attributeKey "component_tag".toList) = some (UString.decimal entry.1.val) :=
        lookup_ptsAttributes_of_ne (by decide) _ _ _
      rw [XmlNode.getIntAttribute_decimal _ _ true 0 0 255 hlookup entry.1.isLt, if_neg]
      have hlt := entry.1.isLt
      omega
    have hpts : ptsFromXML (componentNode immediate entry) = _ :=
      (ptsFromXML_element "component".toList [] hnone (!immediate) entry.2).2
    have hkey : Fin.ofNat 256 entry.1.val = entry.1 := Fin.ofNat_val_eq_self entry.1
    rw [List.map_cons, componentsFromXML, htag, hpts]
    by_cases hregular : immediate = false → entry.2.IsPts
    · rw [if_pos fun hwritten ↦ hregular (by simpa using hwritten)]
      have htime : (if (!immediate) = true then entry.2 else none) =
          if immediate = true then none else entry.2 := by
        cases immediate <;> rfl
      have hall : (immediate = false → ∀ other ∈ entry :: entries, other.2.IsPts) ↔
          (immediate = false → ∀ other ∈ entries, other.2.IsPts) := by
        refine forall_congr' fun hsoon ↦ ?_
        rw [List.forall_mem_cons, and_iff_right (hregular hsoon)]
      dsimp only
      rw [ih, hkey, htime]
      simp only [hall, List.foldl_cons]
    · rw [if_neg fun hwritten ↦ hregular fun hsoon ↦ hwritten (by simpa using hsoon),
        if_neg fun hall ↦ hregular fun hsoon ↦ hall hsoon entry List.mem_cons_self]

theorem filter_durationNode (insert : SpliceInsert) (searchName : UString) :
    (if insert.useDuration then [insert.durationNode] else []).filter
        (fun child ↦ child.isElement && searchName.similar child.name) =
      if searchName.similar "break_duration".toList then
        if insert.useDuration then [insert.durationNode] else []
      else [] := by
  cases insert.useDuration with
  | false => rw [if_neg Bool.false_ne_true, List.filter_nil, ite_self]
  | true =>
    have hname : (insert.durationNode.isElement && searchName.similar insert.durationNode.name) =
        searchName.similar "break_duration".toList := rfl
    rw [if_pos rfl, List.filter_singleton, hname, cond_eq_ite]

theorem filter_componentNode (insert : SpliceInsert) (searchName : UString) :
    (insert.componentsPts.entries.map (componentNode insert.immediate)).filter
        (fun child ↦ child.isElement && searchName.similar child.name) =
      if searchName.similar "component".toList then
        insert.componentsPts.entries.map (componentNode insert.immediate)
      else [] := by
  have hname : ∀ child ∈ insert.componentsPts.entries.map (componentNode insert.immediate),
      (child.isElement && searchName.similar child.name) =
        searchName.similar "component".toList := by
    intro child hchild
    obtain ⟨entry, -, rfl⟩ := List.mem_map.mp hchild
    rfl
  split_ifs with hsame
  · exact List.filter_eq_self.mpr fun child hchild ↦ (hname child hchild).trans hsame
  · refine List.filter_eq_nil_iff.mpr fun child hchild ↦ ?_
    rw [hname child hchild]
    exact hsame

theorem durationFromXML_durationNode (insert started : SpliceInsert) :
    started.durationFromXML (if insert.useDuration then [insert.durationNode] else []) =
      some { started with
        durationPts := if insert.useDuration then insert.durationPts else started.durationPts
        autoReturn := if insert.useDuration then insert.autoReturn else started.autoReturn } := by
  cases insert.useDuration with
  | false => simp only [Bool.false_eq_true, if_false, durationFromXML]
  | true =>
    have hlt := insert.durationPts.toNat_lt
    have hreturn := insert.durationNode.getBoolAttribute_trueFalse "auto_return".toList true false rfl
    have hduration := insert.durationNode.getIntAttribute_decimal "duration".toList true 0 0
      (2 ^ 64 - 1) rfl hlt
    rw [if_neg (by omega)] at hduration
    rw [if_pos rfl, durationFromXML, hreturn, hduration]
    dsimp only
    rw [UInt64.ofNat_toNat, if_pos rfl, if_pos rfl]

section Event

variable {insert : SpliceInsert} (hcanceled : insert.canceled = false)

include hcanceled

theorem exists_xmlAttributes : ∃ attributes : List (UString × UString),
    insert.xmlAttributes = ptsAttributes attributes insert.hasProgramPts insert.programPts ∧
      attributes.lookup "pts_time".toList = none ∧
      attributes.lookup "splice_event_id".toList = some (UString.hexa 8 insert.eventId.toNat) ∧
      attributes.lookup "splice_event_cancel".toList = some (UString.trueFalse false) ∧
      attributes.lookup "out_of_network".toList = some (UString.trueFalse insert.spliceOut) ∧
      attributes.lookup "splice_immediate".toList = some (UString.trueFalse insert.immediate) ∧
      attributes.lookup "unique_program_id".toList = some (UString.hexa 4 insert.programId.toNat) ∧
      attributes.lookup "avail_num".toList = some (UString.decimal insert.availNum.toNat) ∧
      attributes.lookup "avails_expected".toList =
        some (UString.decimal insert.availsExpected.toNat) := by
  unfold xmlAttributes
  rw [hcanceled]
  exact ⟨_, rfl, rfl, rfl, rfl, rfl, rfl, rfl, rfl, rfl⟩

theorem ptsFromXML_toXML : insert.toXML.hasAttribute "pts_time".toList =
      (insert.hasProgramPts && insert.programPts.isSome) ∧
    ptsFromXML insert.toXML = if insert.hasProgramPts = true → insert.programPts.IsPts then
        some (if insert.hasProgramPts then insert.programPts else none) else none := by
  obtain ⟨attributes, hattributes, hnone, -⟩ := exists_xmlAttributes hcanceled
  unfold toXML
  rw [hattributes]
  exact ptsFromXML_element xmlName insert.xmlChildren hnone _ _

theorem filter_children (searchName : UString) :
    insert.toXML.children.filter (fun child ↦ child.isElement && searchName.similar child.name) =
      (if searchName.similar "break_duration".toList then
        if insert.useDuration then [insert.durationNode] else []
      else []) ++ if insert.programSplice then []
        else if searchName.similar "component".toList then
          insert.componentsPts.entries.map (componentNode insert.immediate)
        else [] := by
  have hchildren : insert.toXML.children =
      (if insert.useDuration then [insert.durationNode] else []) ++ if insert.programSplice then []
        else insert.componentsPts.entries.map (componentNode insert.immediate) := by
    show insert.xmlChildren = _
    unfold xmlChildren
    rw [hcanceled]
    rfl
  rw [hchildren, List.filter_append, filter_durationNode]
  cases insert.programSplice with
  | true => rw [if_pos rfl, if_pos rfl, List.filter_nil]
  | false => rw [if_neg Bool.false_ne_true, if_neg Bool.false_ne_true, filter_componentNode]

theorem getChildren_breakDuration : insert.toXML.getChildren "break_duration".toList 0 1 =
    some (if insert.useDuration then [insert.durationNode] else []) := by
  have hself : UString.similar "break_duration".toList "break_duration".toList = true := by
    decide
  have hother : UString.similar "break_duration".toList "component".toList = false := by
    decide
  unfold XmlNode.getChildren
  rw [if_neg (by decide), filter_children hcanceled, hself, hother, if_pos rfl,
    if_neg Bool.false_ne_true, ite_self, List.append_nil]
  refine if_pos ⟨Nat.zero_le _, ?_⟩
  split_ifs
  · exact le_rfl
  · exact Nat.zero_le 1

theorem getChildren_component : insert.toXML.getChildren "component".toList 0 255 =
    if insert.programSplice = false → insert.componentsPts.entries.length ≤ 255 then
      some (if insert.programSplice then []
        else insert.componentsPts.entries.map (componentNode insert.immediate))
    else none := by
  have hself : UString.similar "component".toList "component".toList = true := by
    decide
  have hother : UString.similar "component".toList "break_duration".toList = false := by
    decide
  unfold XmlNode.getChildren
  rw [if_neg (by decide), filter_children hcanceled, hself, hother, if_pos rfl,
    if_neg Bool.false_ne_true, List.nil_append]
  cases insert.programSplice with
  | true =>
    dsimp only
    rw [if_pos fun hfalse : true = false ↦ absurd hfalse (by decide), if_pos rfl]
    exact if_pos ⟨le_rfl, Nat.zero_le _⟩
  | false =>
    dsimp only
    rw [if_neg Bool.false_ne_true, List.length_map]
    by_cases hcount : insert.componentsPts.entries.length ≤ 255
    · rw [if_pos ⟨Nat.zero_le _, hcount⟩, if_pos fun _ ↦ hcount]
    · rw [if_neg fun hboth ↦ hcount hboth.2, if_neg fun hall ↦ hcount (hall rfl)]

theorem eventFromXML_toXML (started : SpliceInsert) :
    started.eventFromXML insert.toXML =
      if insert.programSplice = false → insert.componentsPts.entries.length ≤ 255 then
        let components := if insert.programSplice then []
          else insert.componentsPts.entries.map (componentNode insert.immediate)
        timesFromXML { started with
          spliceOut := insert.spliceOut
          immediate := insert.immediate
          programId := insert.programId
          availNum := insert.availNum
          availsExpected := insert.availsExpected
          useDuration := insert.useDuration
          durationPts := if insert.useDuration then insert.durationPts else started.durationPts
          autoReturn := if insert.useDuration then insert.autoReturn else started.autoReturn
          programSplice := insert.hasProgramPts && insert.programPts.isSome ||
            (insert.immediate && components.isEmpty) } insert.toXML components
      else none := by
  obtain ⟨attributes, hattributes, -, -, -, hout, hsoon, hprogram, havail, havails⟩ :=
    exists_xmlAttributes hcanceled
  have hlookup : ∀ key, key ≠ "pts_time".toList →
      insert.toXML.attributes.lookup key = attributes.lookup key := by
    intro key hkey
    show insert.xmlAttributes.lookup key = _
    rw [hattributes, lookup_ptsAttributes_of_ne hkey]
  have hreadOut := insert.toXML.getBoolAttribute_trueFalse "out_of_network".toList true false
    ((hlookup _ (by decide)).trans hout)
  have hreadSoon := insert.toXML.getBoolAttribute_trueFalse "splice_immediate".toList false false
    ((hlookup _ (by decide)).trans hsoon)
  have hreadProgram := insert.toXML.getIntAttribute_hexa "unique_program_id".toList true 3 0
    ((hlookup _ (by decide)).trans hprogram) insert.programId.toNat_lt insert.programId.toNat_lt
    (Nat.zero_le _) (Nat.le_of_lt_succ insert.programId.toNat_lt)
  have hreadAvail := insert.toXML.getIntAttribute_decimal "avail_num".toList false 0 0 255
    ((hlookup _ (by decide)).trans havail) insert.availNum.toNat_lt
  have hreadAvails := insert.toXML.getIntAttribute_decimal "avails_expected".toList false 0 0 255
    ((hlookup _ (by decide)).trans havails) insert.availsExpected.toNat_lt
  have havailLt := insert.availNum.toNat_lt
  have havailsLt := insert.availsExpected.toNat_lt
  rw [if_neg (by omega)] at hreadAvail hreadAvails
  unfold eventFromXML
  rw [hreadOut, hreadSoon, hreadProgram, hreadAvail, hreadAvails,
    getChildren_breakDuration hcanceled, getChildren_component hcanceled,
    (ptsFromXML_toXML hcanceled).1]
  by_cases hcount : insert.programSplice = false → insert.componentsPts.entries.length ≤ 255
  · rw [if_pos hcount, if_pos hcount]
    dsimp only
    have hempty : (!(if insert.useDuration then [insert.durationNode] else []).isEmpty) =
        insert.useDuration := by
      cases insert.useDuration <;> rfl
    rw [UInt16.ofNat_toNat, UInt8.ofNat_toNat, UInt8.ofNat_toNat, hempty,
      durationFromXML_durationNode, Option.bind_some]
  · rw [if_neg hcount, if_neg hcount]

end Event

theorem fromXML_toXML (insert : SpliceInsert) :
    fromXML insert.toXML = if insert.canceled then some { cleared with eventId := insert.eventId }
      else eventFromXML { cleared with eventId := insert.eventId, canceled := false }
        insert.toXML := by
  have hlookup : insert.toXML.attributes.lookup "splice_event_id".toList =
      some (UString.hexa 8 insert.eventId.toNat) ∧
        insert.toXML.attributes.lookup "splice_event_cancel".toList =
          some (UString.trueFalse insert.canceled) := by
    cases hcanceled : insert.canceled with
    | true =>
      show insert.xmlAttributes.lookup _ = _ ∧ insert.xmlAttributes.lookup _ = _
      unfold xmlAttributes
      rw [hcanceled]
      exact ⟨rfl, rfl⟩
    | false =>
      obtain ⟨attributes, hattributes, -, hid, hcancel, -⟩ := exists_xmlAttributes hcanceled
      show insert.xmlAttributes.lookup _ = _ ∧ insert.xmlAttributes.lookup _ = _
      rw [hattributes, lookup_ptsAttributes_of_ne (by decide), lookup_ptsAttributes_of_ne (by decide)]
      exact ⟨hid, hcancel⟩
  have hlt := insert.eventId.toNat_lt
  have hid : insert.toXML.getIntAttribute "splice_event_id".toList true (2 ^ 32) 0 0 (2 ^ 32 - 1) =
      some insert.eventId.toNat :=
    insert.toXML.getIntAttribute_hexa "splice_event_id".toList true 7 0 hlookup.1 hlt hlt
      (Nat.zero_le _) (Nat.le_of_lt_succ hlt)
  have hcancel := insert.toXML.getBoolAttribute_trueFalse "splice_event_cancel".toList false false
    hlookup.2
  have hname : UString.similar insert.toXML.name xmlName = true := by
    show UString.similar xmlName xmlName = true
    decide
  unfold fromXML
  rw [if_pos hname, hid, hcancel]
  dsimp only
  rw [UInt32.ofNat_toNat]
  cases insert.canceled <;> rfl

theorem roundTripsXml_of_canceled {insert : SpliceInsert} (hcanceled : insert.canceled = true) :
    insert.RoundTripsXml := by
  refine ⟨{ cleared with eventId := insert.eventId }, ?_, ?_⟩
  · rw [fromXML_toXML, if_pos hcanceled]
  · unfold significant
    rw [if_pos hcanceled]
    rfl

theorem roundTripsXml_program {insert : SpliceInsert} (hcanceled : insert.canceled = false)
    (hprogram : insert.programSplice = true) :
    insert.RoundTripsXml ↔ insert.HasRegularTimes ∧ insert.ShowsItsKind := by
  have hpts := ptsFromXML_toXML hcanceled
  unfold RoundTripsXml
  rw [fromXML_toXML, if_neg (by rw [hcanceled]; decide), eventFromXML_toXML hcanceled,
    if_pos fun hfalse ↦ absurd (hprogram.symm.trans hfalse) (by decide), hprogram, if_pos rfl]
  dsimp only
  cases hsoon : insert.immediate with
  | true =>
    have hnone : insert.hasProgramPts = false := by
      rw [hasProgramPts, hprogram, hsoon]
      rfl
    have hkind : (insert.hasProgramPts && insert.programPts.isSome ||
        (true && ([] : List XmlNode).isEmpty)) = true := by
      rw [hnone]
      rfl
    rw [hkind]
    apply iff_of_true
    · refine ⟨_, rfl, ?_⟩
      unfold significant
      cases hduration : insert.useDuration <;>
        simp [hcanceled, hprogram, hsoon, hasProgramPts]
    · refine ⟨⟨fun h ↦ ?_, fun h ↦ ?_, fun h ↦ ?_⟩, fun h ↦ ?_, fun h ↦ ?_⟩
      · exact absurd (hnone.symm.trans h) (by decide)
      · exact absurd (hprogram.symm.trans h) (by decide)
      · exact absurd (hprogram.symm.trans h) (by decide)
      · exact absurd (hnone.symm.trans h) (by decide)
      · exact absurd (hprogram.symm.trans h) (by decide)
  | false =>
    have hhas : insert.hasProgramPts = true := by
      rw [hasProgramPts, hprogram, hsoon]
      rfl
    have hcondition : insert.HasRegularTimes ∧ insert.ShowsItsKind ↔
        insert.programPts.IsPts ∧ insert.programPts.isSome = true := by
      constructor
      · rintro ⟨hregular, hshows⟩
        exact ⟨hregular.programPts hhas, hshows.programPts hhas⟩
      · rintro ⟨hregular, hsome⟩
        refine ⟨⟨fun _ ↦ hregular, fun h ↦ ?_, fun h ↦ ?_⟩, fun _ ↦ hsome, fun h ↦ ?_⟩
        all_goals exact absurd (hprogram.symm.trans h) (by decide)
    rw [hcondition, hhas, Bool.true_and, Bool.false_and, Bool.or_false]
    cases htime : insert.programPts with
    | none =>
      apply iff_of_false
      · rintro ⟨read, hread, hsame⟩
        obtain rfl := Option.some.inj hread
        have hkind := congrArg SpliceInsert.programSplice hsame
        unfold significant at hkind
        simp [hcanceled, hprogram] at hkind
      · rintro ⟨-, hsome⟩
        cases hsome
    | some pts =>
      have hread : ptsFromXML insert.toXML = if SpliceTime.IsPts (some pts) then
          some (some pts) else none := by
        rw [hpts.2, hhas, htime]
        simp
      unfold timesFromXML
      dsimp only
      rw [hread]
      by_cases hregular : SpliceTime.IsPts (some pts)
      · rw [if_pos hregular]
        apply iff_of_true
        · refine ⟨_, rfl, ?_⟩
          unfold significant
          cases hduration : insert.useDuration <;>
            simp [hcanceled, hprogram, hsoon, hasProgramPts, htime]
        · exact ⟨hregular, rfl⟩
      · rw [if_neg hregular]
        apply iff_of_false
        · rintro ⟨read, hnothing, -⟩
          cases hnothing
        · exact fun hboth ↦ hregular hboth.1

theorem roundTripsXml_components {insert : SpliceInsert} (hcanceled : insert.canceled = false)
    (hprogram : insert.programSplice = false) :
    insert.RoundTripsXml ↔ insert.HasRegularTimes ∧ insert.ShowsItsKind := by
  have hnone : insert.hasProgramPts = false := by
    rw [hasProgramPts, hprogram]
    rfl
  have hcondition : insert.HasRegularTimes ∧ insert.ShowsItsKind ↔
      insert.componentsPts.entries.length ≤ 255 ∧
        (insert.immediate = false → ∀ entry ∈ insert.componentsPts.entries, entry.2.IsPts) ∧
          (insert.immediate = true → insert.componentsPts.entries ≠ []) := by
    constructor
    · rintro ⟨hregular, hshows⟩
      exact ⟨hregular.components hprogram, hregular.componentsPts hprogram,
        hshows.components hprogram⟩
    · rintro ⟨hcount, hpts, hsome⟩
      refine ⟨⟨fun h ↦ ?_, fun _ ↦ hcount, fun _ ↦ hpts⟩, fun h ↦ ?_, fun _ ↦ hsome⟩
      · exact absurd (hnone.symm.trans h) (by decide)
      · exact absurd (hnone.symm.trans h) (by decide)
  have hread := componentsFromXML_map insert.immediate insert.componentsPts.entries .empty
  have hload := SortedMap.foldl_update_mapValues
    (fun pts : SpliceTime ↦ if insert.immediate then none else pts)
    (fun entry _ ↦ if insert.immediate then none else entry.2) (fun _ ↦ rfl) insert.componentsPts
  rw [hload] at hread
  have hempty : (insert.componentsPts.entries.map (componentNode insert.immediate)).isEmpty =
      insert.componentsPts.entries.isEmpty := List.isEmpty_map
  unfold RoundTripsXml
  rw [fromXML_toXML, if_neg (by rw [hcanceled]; decide), eventFromXML_toXML hcanceled, hcondition]
  dsimp only
  rw [hprogram, if_neg Bool.false_ne_true, hempty, hnone, Bool.false_and, Bool.false_or]
  by_cases hcount : insert.componentsPts.entries.length ≤ 255
  · rw [if_pos fun _ ↦ hcount]
    cases hkind : insert.immediate && insert.componentsPts.entries.isEmpty with
    | true =>
      obtain ⟨hsoon, hentries⟩ := Bool.and_eq_true_iff.mp hkind
      rw [List.isEmpty_iff] at hentries
      apply iff_of_false
      · rintro ⟨read, hread, hsame⟩
        unfold timesFromXML at hread
        rw [if_pos rfl, if_pos hsoon] at hread
        obtain rfl := Option.some.inj hread
        have hprogramSplice := congrArg SpliceInsert.programSplice hsame
        unfold significant at hprogramSplice
        simp [hcanceled, hprogram] at hprogramSplice
      · exact fun hall ↦ hall.2.2 hsoon hentries
    | false =>
      have hsome : insert.immediate = true → insert.componentsPts.entries ≠ [] := by
        intro hsoon hentries
        rw [hsoon, hentries] at hkind
        cases hkind
      unfold timesFromXML
      rw [if_neg Bool.false_ne_true]
      dsimp only
      show (∃ read, (componentsFromXML .empty _).map _ = some read ∧ _) ↔ _
      rw [hread]
      by_cases hregular : insert.immediate = false →
          ∀ entry ∈ insert.componentsPts.entries, entry.2.IsPts
      · rw [if_pos hregular]
        apply iff_of_true
        · refine ⟨_, rfl, ?_⟩
          unfold significant
          cases hduration : insert.useDuration <;> cases hsoon : insert.immediate <;>
            simp [hcanceled, hprogram, hasProgramPts, SortedMap.mapValues_mapValues]
        · exact ⟨hcount, hregular, hsome⟩
      · rw [if_neg hregular]
        apply iff_of_false
        · rintro ⟨read, hnothing, -⟩
          cases hnothing
        · exact fun hall ↦ hregular hall.2.1
  · rw [if_neg fun hall ↦ hcount (hall rfl)]
    apply iff_of_false
    · rintro ⟨read, hnothing, -⟩
      cases hnothing
    · exact fun hall ↦ hcount hall.1

/-- It is read back if and only if it is cancelled, or its times fit and the element tells its kind
of splice. -/
theorem roundTripsXml_iff (insert : SpliceInsert) :
    insert.RoundTripsXml ↔
      (insert.canceled = false → insert.HasRegularTimes ∧ insert.ShowsItsKind) := by
  cases hcanceled : insert.canceled with
  | true => exact iff_of_true (roundTripsXml_of_canceled hcanceled) nofun
  | false =>
    rw [forall_prop_of_true rfl]
    cases hprogram : insert.programSplice with
    | true => exact roundTripsXml_program hcanceled hprogram
    | false => exact roundTripsXml_components hcanceled hprogram

def unsetProgramTime : SpliceInsert :=
  { cleared with canceled := false, programSplice := true, programPts := none }

/-- It is read back as a component splice. -/
theorem not_roundTripsXml_unsetProgramTime : ¬ unsetProgramTime.RoundTripsXml := by
  rintro ⟨read, hread, hsame⟩
  have hdifferent : (fromXML unsetProgramTime.toXML).map significant ≠
      some unsetProgramTime.significant := by
    decide +kernel
  apply hdifferent
  rw [hread, Option.map_some, hsame]

end SpliceInsert

end TSDuck
