import TSDuck.Library.Machine
import TSDuck.Psi.DescriptorList

/-!
# The private data specifiers of a descriptor list

A descriptor list keeps with each of its descriptors the private data specifier which applies to it:
the one that is carried by the nearest private_data_specifier descriptor at or before it, zero when
there is none.

`consistent_iff` states when the specifiers that are kept are the right ones: a list that is added
to another one comes with the specifiers of its own descriptors, which are not computed again.

Scope. A descriptor object of the code is a descriptor, or no descriptor when it is invalid; its tag
is then zero. The descriptors are not modified after they are added to a list.
-/

namespace TSDuck

def didPrivDataSpecif : UInt8 := 0x5F

namespace Descriptor

def tag (desc : Descriptor) : UInt8 := byteAt desc.content 0

def payload (desc : Descriptor) : ByteBlock := desc.content.drop 2

end Descriptor

/-- A descriptor and its private data specifier. -/
structure DescriptorElement where
  desc : Option Descriptor
  pds : ℕ
  deriving DecidableEq

namespace DescriptorElement

def tag (element : DescriptorElement) : UInt8 :=
  (element.desc.map Descriptor.tag).getD 0

/-- What a private_data_specifier descriptor carries. -/
def specifier (element : DescriptorElement) : Option ℕ :=
  match element.desc with
  | none => none
  | some desc =>
    if desc.tag = didPrivDataSpecif then
      some (if desc.payload.length < 4 then 0 else getUInt32 desc.payload 0)
    else none

/-- A private descriptor. -/
def IsPrivate (element : DescriptorElement) : Prop :=
  0x80 ≤ element.tag

instance (element : DescriptorElement) : Decidable element.IsPrivate :=
  inferInstanceAs (Decidable (_ ≤ _))

end DescriptorElement

abbrev ElementVector := List DescriptorElement

namespace ElementVector

/-- The private data specifier at the end of a list, zero if it is empty. -/
def lastPDS (elements : ElementVector) : ℕ :=
  (elements.getLast?.map DescriptorElement.pds).getD 0

def add (elements : ElementVector) (desc : Option Descriptor) : ElementVector :=
  elements ++ [⟨desc, (DescriptorElement.mk desc 0).specifier.getD elements.lastPDS⟩]

def addSerialized (elements : ElementVector) (desc : Option Descriptor) : ElementVector :=
  if desc.isSome then elements.add desc else elements

/-- Adds the descriptors of another list. -/
def addList (elements other : ElementVector) : ElementVector :=
  elements ++ other

def addBytes (elements : ElementVector) (data : ByteBlock) : ElementVector :=
  (readAllRecords Descriptor.read data).foldl (fun elements desc ↦ elements.add (some desc))
    elements

def specifierDescriptor (pds : UInt32) : Descriptor where
  content := didPrivDataSpecif :: 4 :: putUInt32 pds.toNat
  header := Nat.le_of_ble_eq_true rfl
  announced := rfl

/-- Adds a private_data_specifier descriptor, if necessary. -/
def addPrivateDataSpecifier (elements : ElementVector) (pds : UInt32) : ElementVector :=
  if pds ≠ 0 ∧ (elements = [] ∨ elements.lastPDS ≠ pds.toNat) then
    elements.addSerialized (some (specifierDescriptor pds))
  else elements

/-- Prepares the removal of a private_data_specifier descriptor. It is refused before a private
descriptor; otherwise the elements up to the next one get the specifier before it. -/
def prepareRemovePDS (previous : ℕ) : ElementVector → Option ElementVector
  | [] => some []
  | element :: ahead =>
    if element.IsPrivate then none
    else if element.tag = didPrivDataSpecif then some (element :: ahead)
    else (prepareRemovePDS previous ahead).map ({ element with pds := previous } :: ·)

def removeElement (previous : ℕ) (element : DescriptorElement) (ahead : ElementVector) :
    Option ElementVector :=
  if element.tag = didPrivDataSpecif then prepareRemovePDS previous ahead else some ahead

def removeInvalidPrivateDescriptors (elements : ElementVector) : ElementVector :=
  elements.filter fun element ↦
    ¬ (element.pds = 0 ∧ element.desc.isSome = true ∧ element.IsPrivate)

def removeByIndex (elements : ElementVector) (index : ℕ) : Bool × ElementVector :=
  match elements.drop index with
  | [] => (false, elements)
  | element :: ahead =>
    match removeElement (lastPDS (elements.take index)) element ahead with
    | none => (false, elements)
    | some remaining => (true, elements.take index ++ remaining)

/-- Removes the descriptors with a tag, in a number of turns. -/
def removeTagLoop (tag : UInt8) (pds : ℕ) : ℕ → ℕ → ElementVector → ElementVector × ℕ
  | 0, _, elements => (elements, 0)
  | _ + 1, _, [] => ([], 0)
  | turns + 1, previous, element :: ahead =>
    let removed :=
      if element.tag = tag ∧ (pds ≠ 0 ∧ 0x80 ≤ tag → element.pds = pds) then
        removeElement previous element ahead
      else none
    match removed with
    | some remaining =>
      let rest := removeTagLoop tag pds turns previous remaining
      (rest.1, rest.2 + 1)
    | none =>
      let rest := removeTagLoop tag pds turns element.pds ahead
      (element :: rest.1, rest.2)

/-- Removes the descriptors with a tag. -/
def removeByTag (elements : ElementVector) (tag : UInt8) (pds : ℕ) : ElementVector × ℕ :=
  removeTagLoop tag pds elements.length 0 elements

/-- A call that changes a descriptor list. -/
inductive Call
  | add (desc : Option Descriptor)
  | addSerialized (desc : Option Descriptor)
  | addList (other : ElementVector)
  | addBytes (data : ByteBlock)
  | addPrivateDataSpecifier (pds : UInt32)
  | removeInvalidPrivateDescriptors
  | removeByIndex (index : ℕ)
  | removeByTag (tag : UInt8) (pds : ℕ)

def call (elements : ElementVector) : Call → ElementVector
  | .add desc => elements.add desc
  | .addSerialized desc => elements.addSerialized desc
  | .addList other => elements.addList other
  | .addBytes data => elements.addBytes data
  | .addPrivateDataSpecifier pds => elements.addPrivateDataSpecifier pds
  | .removeInvalidPrivateDescriptors => elements.removeInvalidPrivateDescriptors
  | .removeByIndex index => (elements.removeByIndex index).2
  | .removeByTag tag pds => (elements.removeByTag tag pds).1

def Call.removes : Call → Bool
  | .removeInvalidPrivateDescriptors | .removeByIndex _ | .removeByTag _ _ => true
  | _ => false

/-- A machine that reports each removal. -/
def machine : Machine ElementVector Call (ElementVector × ElementVector) where
  step elements request :=
    some (elements.call request,
      if request.removes then [(elements, elements.call request)] else [])

/-- A list that calls build, with such lists added to it. -/
inductive Built : ElementVector → Prop
  | empty : Built []
  | call {elements : ElementVector} {request : Call} :
    Built elements → (∀ other, request = .addList other → Built other) →
      Built (elements.call request)

/-- The specifier of the nearest descriptor before an index. -/
def nearestSpecifier (current : ℕ) (elements : ElementVector) (index : ℕ) : ℕ :=
  ((elements.take (index + 1)).reverse.findSome? DescriptorElement.specifier).getD current

/-- Each specifier is the nearest one. -/
def IsConsistent (elements : ElementVector) : Prop :=
  ∀ index element, elements[index]? = some element → element.pds = nearestSpecifier 0 elements index

def privateSpecifiers (current : ℕ) (elements : ElementVector) : List (Option Descriptor × ℕ) :=
  (elements.mapIdx fun index element ↦ (element, nearestSpecifier current elements index)).filterMap
    fun applied ↦ if applied.1.IsPrivate then some (applied.1.desc, applied.2) else none

/-- The private descriptors that remain keep their specifiers. -/
def KeepsSpecifiers (removal : ElementVector × ElementVector) : Prop :=
  (removal.2.map DescriptorElement.desc).Sublist (removal.1.map DescriptorElement.desc) ∧
    (privateSpecifiers 0 removal.2).Sublist (privateSpecifiers 0 removal.1)

/-- A list that is added has the right specifiers, and it is empty, or it starts with a
private_data_specifier descriptor, or the specifier at the end of the other one is zero. -/
def KeepsContext (elements : ElementVector) : Call → Prop
  | .addList other => IsConsistent other ∧
      (other = [] ∨ (∃ first ∈ other.head?, first.tag = didPrivDataSpecif) ∨ elements.lastPDS = 0)
  | _ => True

/-! ### The specifiers along a list -/

theorem specifier_eq_none_iff (element : DescriptorElement) :
    element.specifier = none ↔ element.tag ≠ didPrivDataSpecif := by
  unfold DescriptorElement.specifier DescriptorElement.tag
  cases element.desc with
  | none =>
    apply iff_of_true rfl
    show (0 : UInt8) ≠ didPrivDataSpecif
    decide
  | some desc =>
    show (if desc.tag = didPrivDataSpecif then _ else none) = none ↔ desc.tag ≠ _
    split_ifs with htag
    · exact iff_of_false (by simp) (not_not.mpr htag)
    · exact iff_of_true rfl htag

variable {element : DescriptorElement} {elements : ElementVector} {previous : ℕ}

theorem not_isPrivate_of_tag (htag : element.tag = didPrivDataSpecif) :
    ¬ element.IsPrivate := by
  unfold DescriptorElement.IsPrivate
  rw [htag]
  decide

def inForce (current : ℕ) (elements : ElementVector) : ℕ :=
  elements.foldl (fun current element ↦ element.specifier.getD current) current

/-- The specifiers are right, after one which is in force. -/
def ConsistentFrom : ℕ → ElementVector → Prop
  | _, [] => True
  | current, element :: ahead =>
    element.pds = element.specifier.getD current ∧
      ConsistentFrom (element.specifier.getD current) ahead

theorem nearestSpecifier_zero (current : ℕ) (element : DescriptorElement) (ahead : ElementVector) :
    nearestSpecifier current (element :: ahead) 0 = element.specifier.getD current := by
  unfold nearestSpecifier
  show (List.findSome? DescriptorElement.specifier [element]).getD current = _
  rw [List.findSome?_singleton]

theorem nearestSpecifier_succ (current : ℕ) (element : DescriptorElement) (ahead : ElementVector)
    (index : ℕ) : nearestSpecifier current (element :: ahead) (index + 1) =
      nearestSpecifier (element.specifier.getD current) ahead index := by
  unfold nearestSpecifier
  rw [List.take_succ_cons, List.reverse_cons, List.findSome?_append, List.findSome?_singleton]
  cases (List.findSome? DescriptorElement.specifier (ahead.take (index + 1)).reverse) <;> rfl

theorem consistentFrom_iff (current : ℕ) (elements : ElementVector) :
    ConsistentFrom current elements ↔ ∀ index element, elements[index]? = some element →
      element.pds = nearestSpecifier current elements index := by
  induction elements generalizing current with
  | nil => exact iff_of_true trivial fun _ _ h ↦ by simp at h
  | cons first ahead ih =>
    rw [ConsistentFrom, ih]
    constructor
    · rintro ⟨hfirst, hahead⟩ index element helement
      cases index with
      | zero =>
        obtain rfl : first = element := Option.some.inj helement
        rw [nearestSpecifier_zero]
        exact hfirst
      | succ index =>
        rw [nearestSpecifier_succ]
        exact hahead index element helement
    · intro hall
      constructor
      · rw [← nearestSpecifier_zero current first ahead]
        exact hall 0 first rfl
      · intro index element helement
        rw [← nearestSpecifier_succ]
        exact hall (index + 1) element helement

theorem isConsistent_iff (elements : ElementVector) :
    IsConsistent elements ↔ ConsistentFrom 0 elements :=
  (consistentFrom_iff 0 elements).symm

theorem consistentFrom_append (current : ℕ) (elements other : ElementVector) :
    ConsistentFrom current (elements ++ other) ↔
      ConsistentFrom current elements ∧ ConsistentFrom (inForce current elements) other := by
  induction elements generalizing current with
  | nil => exact (and_iff_right trivial).symm
  | cons first ahead ih =>
    rw [List.cons_append, ConsistentFrom, ConsistentFrom, ih, and_assoc]
    rfl

theorem inForce_eq_lastPDS (hconsistent : ConsistentFrom 0 elements) :
    inForce 0 elements = elements.lastPDS := by
  rcases List.eq_nil_or_concat elements with rfl | ⟨before, last, rfl⟩
  · rfl
  · rw [List.concat_eq_append] at hconsistent ⊢
    obtain ⟨-, hlast, -⟩ := (consistentFrom_append 0 before [last]).mp hconsistent
    unfold lastPDS
    rw [List.getLast?_concat, inForce, List.foldl_append]
    exact hlast.symm

theorem privateSpecifiers_cons (current : ℕ) (element : DescriptorElement) (ahead : ElementVector) :
    privateSpecifiers current (element :: ahead) =
      (if element.IsPrivate then [(element.desc, element.specifier.getD current)] else []) ++
        privateSpecifiers (element.specifier.getD current) ahead := by
  unfold privateSpecifiers
  rw [List.mapIdx_cons, List.filterMap_cons, nearestSpecifier_zero]
  simp only [nearestSpecifier_succ]
  by_cases hprivate : element.IsPrivate
  · simp only [hprivate, if_true]
    rfl
  · simp only [hprivate, if_false]
    rfl

theorem ConsistentFrom.add (hconsistent : ConsistentFrom 0 elements) (desc : Option Descriptor) :
    ConsistentFrom 0 (elements.add desc) := by
  unfold ElementVector.add
  rw [consistentFrom_append]
  refine ⟨hconsistent, ?_, trivial⟩
  rw [inForce_eq_lastPDS hconsistent]
  rfl

theorem ConsistentFrom.addSerialized (hconsistent : ConsistentFrom 0 elements)
    (desc : Option Descriptor) :
    ConsistentFrom 0 (elements.addSerialized desc) := by
  unfold ElementVector.addSerialized
  split_ifs
  · exact hconsistent.add desc
  · exact hconsistent

theorem ConsistentFrom.addBytes (hconsistent : ConsistentFrom 0 elements) (data : ByteBlock) :
    ConsistentFrom 0 (elements.addBytes data) := by
  unfold ElementVector.addBytes
  generalize readAllRecords Descriptor.read data = descs
  induction descs generalizing elements with
  | nil => exact hconsistent
  | cons desc descs ih => exact ih (hconsistent.add (some desc))

theorem ConsistentFrom.addPrivateDataSpecifier (hconsistent : ConsistentFrom 0 elements) (pds : UInt32) :
    ConsistentFrom 0 (elements.addPrivateDataSpecifier pds) := by
  unfold ElementVector.addPrivateDataSpecifier
  split_ifs
  · exact hconsistent.addSerialized _
  · exact hconsistent

/-! ### Removing -/

/-- The first elements have no private data specifier. -/
def LeadingZero : ElementVector → Prop
  | [] => True
  | element :: ahead => element.specifier = none → element.pds = 0 ∧ LeadingZero ahead

/-- Elements are removed: some descriptors remain, right specifiers stay right, those of the private
descriptors do not change, and the first elements still have none. -/
structure RemovesFrom (previous : ℕ) (before after : ElementVector) : Prop where
  descs : (after.map DescriptorElement.desc).Sublist (before.map DescriptorElement.desc)
  consistent : ConsistentFrom previous before → ConsistentFrom previous after
  privates : ∀ current, (privateSpecifiers current after).Sublist (privateSpecifiers current before)
  leading : previous = 0 → LeadingZero before → LeadingZero after

theorem RemovesFrom.refl (previous : ℕ) (elements : ElementVector) :
    RemovesFrom previous elements elements :=
  ⟨List.Sublist.refl _, id, fun _ ↦ List.Sublist.refl _, fun _ ↦ id⟩

theorem RemovesFrom.trans {before middle after : ElementVector}
    (hfirst : RemovesFrom previous before middle) (hsecond : RemovesFrom previous middle after) :
    RemovesFrom previous before after :=
  ⟨hsecond.descs.trans hfirst.descs, fun h ↦ hsecond.consistent (hfirst.consistent h),
    fun current ↦ (hsecond.privates current).trans (hfirst.privates current),
    fun hzero h ↦ hsecond.leading hzero (hfirst.leading hzero h)⟩

theorem RemovesFrom.cons {before after : ElementVector}
    (hremoves : RemovesFrom element.pds before after) (previous : ℕ) :
    RemovesFrom previous (element :: before) (element :: after) := by
  refine ⟨hremoves.descs.cons_cons _, ?_, fun current ↦ ?_, fun _ hleading hnone ↦ ?_⟩
  · rintro ⟨hfirst, hbefore⟩
    rw [← hfirst] at hbefore
    refine ⟨hfirst, ?_⟩
    rw [← hfirst]
    exact hremoves.consistent hbefore
  · rw [privateSpecifiers_cons, privateSpecifiers_cons]
    exact (List.Sublist.refl _).append (hremoves.privates _)
  · obtain ⟨hzero, hbefore⟩ := hleading hnone
    exact ⟨hzero, hremoves.leading hzero hbefore⟩

theorem removesFrom_tail (previous : ℕ) (ahead : ElementVector) (htag : element.tag ≠ didPrivDataSpecif) :
    RemovesFrom previous (element :: ahead) ahead := by
  have hnone := (specifier_eq_none_iff element).mpr htag
  refine ⟨List.sublist_cons_self _ _, ?_, fun current ↦ ?_, fun _ hleading ↦ (hleading hnone).2⟩
  · rintro ⟨-, hahead⟩
    rw [hnone] at hahead
    exact hahead
  · rw [privateSpecifiers_cons, hnone]
    exact List.sublist_append_right _ _

/-- The elements after a removal keep right specifiers. -/
theorem prepareRemovePDS_spec {ahead remaining : ElementVector}
    (hprepared : prepareRemovePDS previous ahead = some remaining) :
    remaining.map DescriptorElement.desc = ahead.map DescriptorElement.desc ∧
      (∀ current, ConsistentFrom current ahead → ConsistentFrom previous remaining) ∧
      (∀ current other, privateSpecifiers other remaining = privateSpecifiers current ahead) ∧
      (previous = 0 → LeadingZero remaining) := by
  induction ahead generalizing remaining with
  | nil =>
    obtain rfl := Option.some.inj hprepared
    exact ⟨rfl, fun _ _ ↦ trivial, fun _ _ ↦ rfl, fun _ ↦ trivial⟩
  | cons element ahead ih =>
    unfold prepareRemovePDS at hprepared
    split_ifs at hprepared with hprivate htag
    · obtain rfl := Option.some.inj hprepared
      have hsome : element.specifier ≠ none := fun hnone ↦
        (specifier_eq_none_iff element).mp hnone htag
      obtain ⟨value, hvalue⟩ := Option.ne_none_iff_exists'.mp hsome
      refine ⟨rfl, fun current hconsistent ↦ ?_, fun current other ↦ ?_, fun _ hnone ↦ ?_⟩
      · unfold ConsistentFrom at hconsistent ⊢
        rw [hvalue] at hconsistent ⊢
        exact hconsistent
      · rw [privateSpecifiers_cons, privateSpecifiers_cons, hvalue]
        rfl
      · exact absurd hnone hsome
    · obtain ⟨later, hlater, rfl⟩ := Option.map_eq_some_iff.mp hprepared
      obtain ⟨hdescs, hconsistent, hprivates, hleading⟩ := ih hlater
      have hnone := (specifier_eq_none_iff element).mpr htag
      have hsame : ({ element with pds := previous } : DescriptorElement).specifier = none := hnone
      have hnot : ¬ ({ element with pds := previous } : DescriptorElement).IsPrivate := hprivate
      refine ⟨?_, fun current hbefore ↦ ?_, fun current other ↦ ?_, fun hzero _ ↦ ?_⟩
      · rw [List.map_cons, List.map_cons, hdescs]
      · obtain ⟨-, hahead⟩ := hbefore
        unfold ConsistentFrom
        rw [hsame]
        exact ⟨rfl, hconsistent _ hahead⟩
      · rw [privateSpecifiers_cons, privateSpecifiers_cons, if_neg hprivate, if_neg hnot,
          List.nil_append, List.nil_append]
        exact hprivates _ _
      · exact ⟨hzero, hleading hzero⟩

theorem removeElement_spec {ahead remaining : ElementVector}
    (hremoved : removeElement previous element ahead = some remaining) :
    RemovesFrom previous (element :: ahead) remaining := by
  unfold removeElement at hremoved
  split_ifs at hremoved with htag
  · obtain ⟨hdescs, hconsistent, hprivates, hleading⟩ := prepareRemovePDS_spec hremoved
    refine ⟨?_, fun hbefore ↦ hconsistent _ hbefore.2, fun current ↦ ?_, fun hzero _ ↦ hleading hzero⟩
    · rw [hdescs]
      exact List.sublist_cons_self _ _
    · rw [privateSpecifiers_cons, hprivates (element.specifier.getD current) current]
      exact List.sublist_append_right _ _
  · obtain rfl := Option.some.inj hremoved
    exact removesFrom_tail previous ahead htag

theorem removeTagLoop_spec (tag : UInt8) (pds turns previous : ℕ) (elements : ElementVector) :
    RemovesFrom previous elements (removeTagLoop tag pds turns previous elements).1 := by
  induction turns generalizing previous elements with
  | zero => exact .refl previous elements
  | succ turns ih =>
    cases elements with
    | nil => exact .refl previous []
    | cons element ahead =>
      unfold removeTagLoop
      dsimp only
      cases hremoved : (if element.tag = tag ∧ (pds ≠ 0 ∧ 0x80 ≤ tag → element.pds = pds) then
        removeElement previous element ahead else none) with
      | none => exact (ih element.pds ahead).cons previous
      | some remaining =>
        split_ifs at hremoved
        exact (removeElement_spec hremoved).trans (ih previous remaining)

theorem removeInvalidPrivateDescriptors_spec (previous : ℕ) (elements : ElementVector) :
    RemovesFrom previous elements elements.removeInvalidPrivateDescriptors := by
  induction elements generalizing previous with
  | nil => exact .refl previous []
  | cons element ahead ih =>
    unfold removeInvalidPrivateDescriptors at ih ⊢
    by_cases hinvalid : element.pds = 0 ∧ element.desc.isSome = true ∧ element.IsPrivate
    · rw [List.filter_cons_of_neg (by rw [decide_eq_true_eq]; exact not_not.mpr hinvalid)]
      have htag : element.tag ≠ didPrivDataSpecif := fun htag ↦
        not_isPrivate_of_tag htag hinvalid.2.2
      exact (removesFrom_tail previous ahead htag).trans (ih previous)
    · rw [List.filter_cons_of_pos (by rw [decide_eq_true_eq]; exact hinvalid)]
      exact (ih element.pds).cons previous

theorem removeByIndex_spec (elements : ElementVector) (index : ℕ) :
    RemovesFrom 0 elements (elements.removeByIndex index).2 := by
  have hgeneral : ∀ (before : ElementVector) (previous : ℕ) (element : DescriptorElement)
      (ahead remaining : ElementVector),
      RemovesFrom ((before.getLast?.map DescriptorElement.pds).getD previous) (element :: ahead)
        remaining → RemovesFrom previous (before ++ element :: ahead) (before ++ remaining) := by
    intro before
    induction before with
    | nil => exact fun _ _ _ _ h ↦ h
    | cons first before ih =>
      intro previous element ahead remaining hremoves
      refine (ih first.pds element ahead remaining ?_).cons previous
      cases before with
      | nil => exact hremoves
      | cons second before =>
        rw [List.getLast?_cons_cons] at hremoves
        obtain ⟨last, hlast⟩ : ∃ last, (second :: before).getLast? = some last :=
          ⟨_, List.getLast?_eq_some_getLast (List.cons_ne_nil _ _)⟩
        rw [hlast] at hremoves ⊢
        exact hremoves
  unfold removeByIndex
  cases hdrop : elements.drop index with
  | nil => exact .refl 0 elements
  | cons element ahead =>
    dsimp only
    cases hremoved : removeElement (lastPDS (elements.take index)) element ahead with
    | none => exact .refl 0 elements
    | some remaining =>
      have hsplit := List.take_append_drop index elements
      rw [hdrop] at hsplit
      have hremoves := hgeneral (elements.take index) 0 element ahead remaining
        (removeElement_spec hremoved)
      rw [hsplit] at hremoves
      exact hremoves

theorem removesFrom_call (elements : ElementVector) {request : Call}
    (hremoves : request.removes = true) : RemovesFrom 0 elements (elements.call request) := by
  cases request with
  | removeInvalidPrivateDescriptors => exact removeInvalidPrivateDescriptors_spec 0 elements
  | removeByIndex index => exact removeByIndex_spec elements index
  | removeByTag tag pds => exact removeTagLoop_spec tag pds _ 0 elements
  | _ => cases hremoves

/-! ### Every sequence of calls -/

theorem LeadingZero.append {other : ElementVector} (hleading : LeadingZero elements)
    (hother : (∀ element ∈ elements, element.specifier = none ∧ element.pds = 0) →
      LeadingZero other) : LeadingZero (elements ++ other) := by
  induction elements with
  | nil => exact hother fun _ hmem ↦ absurd hmem List.not_mem_nil
  | cons element ahead ih =>
    intro hnone
    obtain ⟨hzero, hahead⟩ := hleading hnone
    refine ⟨hzero, ih hahead fun hall ↦ hother fun other hmem ↦ ?_⟩
    rcases List.mem_cons.mp hmem with rfl | hlater
    · exact ⟨hnone, hzero⟩
    · exact hall other hlater

theorem LeadingZero.add (hleading : LeadingZero elements) (desc : Option Descriptor) :
    LeadingZero (elements.add desc) := by
  apply hleading.append
  intro hall hnone
  have hnoDesc : (DescriptorElement.mk desc 0).specifier = none := hnone
  refine ⟨?_, trivial⟩
  show (DescriptorElement.mk desc 0).specifier.getD elements.lastPDS = 0
  rw [hnoDesc]
  show lastPDS elements = 0
  unfold lastPDS
  cases hlast : elements.getLast? with
  | none => rfl
  | some last => exact (hall last (List.mem_of_getLast? hlast)).2

theorem LeadingZero.addSerialized (hleading : LeadingZero elements) (desc : Option Descriptor) :
    LeadingZero (elements.addSerialized desc) := by
  unfold ElementVector.addSerialized
  split_ifs
  · exact hleading.add desc
  · exact hleading

theorem LeadingZero.addBytes (hleading : LeadingZero elements) (data : ByteBlock) :
    LeadingZero (elements.addBytes data) := by
  unfold ElementVector.addBytes
  generalize readAllRecords Descriptor.read data = descs
  induction descs generalizing elements with
  | nil => exact hleading
  | cons desc descs ih => exact ih (hleading.add (some desc))

theorem LeadingZero.addPrivateDataSpecifier (hleading : LeadingZero elements) (pds : UInt32) :
    LeadingZero (elements.addPrivateDataSpecifier pds) := by
  unfold ElementVector.addPrivateDataSpecifier
  split_ifs
  · exact hleading.addSerialized _
  · exact hleading

theorem Built.leadingZero (hbuilt : Built elements) :
    LeadingZero elements := by
  induction hbuilt with
  | empty => trivial
  | @call elements request _ _ ih ihOther =>
    by_cases hremoves : request.removes = true
    · exact (removesFrom_call elements hremoves).leading rfl ih
    · cases request with
      | add desc => exact ih.add desc
      | addSerialized desc => exact ih.addSerialized desc
      | addList other => exact ih.append fun _ ↦ ihOther other rfl
      | addBytes data => exact ih.addBytes data
      | addPrivateDataSpecifier pds => exact ih.addPrivateDataSpecifier pds
      | _ => exact absurd rfl hremoves

/-- Assumes: a list with the right specifiers, and one that is built by calls. After the addition
they are right if and only if the second list has the right ones, and is empty, or starts with a
private_data_specifier descriptor, or comes after the specifier zero. -/
theorem consistentFrom_addList_iff {other : ElementVector} (hconsistent : ConsistentFrom 0 elements)
    (hbuilt : Built other) :
    ConsistentFrom 0 (elements.addList other) ↔ KeepsContext elements (.addList other) := by
  show _ ↔ IsConsistent other ∧ _
  unfold addList
  rw [consistentFrom_append, and_iff_right hconsistent, inForce_eq_lastPDS hconsistent,
    isConsistent_iff]
  cases other with
  | nil => exact iff_of_true trivial ⟨trivial, Or.inl rfl⟩
  | cons first ahead =>
    have hleading := hbuilt.leadingZero
    have hhead : (∃ other ∈ (first :: ahead).head?, other.tag = didPrivDataSpecif) ↔
        first.specifier ≠ none := by
      rw [ne_eq, specifier_eq_none_iff, not_not]
      simp
    rw [hhead]
    unfold ConsistentFrom
    cases hfirst : first.specifier with
    | some value => simp
    | none =>
      obtain ⟨hzero, -⟩ := hleading hfirst
      simp only [Option.getD_none, hzero]
      constructor
      · rintro ⟨hlast, hahead⟩
        rw [← hlast] at hahead
        exact ⟨⟨trivial, hahead⟩, Or.inr (Or.inr hlast.symm)⟩
      · rintro ⟨⟨-, hahead⟩, hcases⟩
        have hlast : elements.lastPDS = 0 := by simpa using hcases
        rw [hlast]
        exact ⟨rfl, hahead⟩

/-- Assumes: calls which add lists that are built by calls. The specifiers are always right and no
removal changes the one of a private descriptor if and only if every list that is added keeps the
context. -/
theorem consistent_iff {calls : List Call}
    (hother : ∀ request ∈ calls, ∀ other, request = .addList other → Built other) :
    machine.HoldsAlong IsConsistent KeepsSpecifiers [] calls ↔
      machine.Meets KeepsContext [] calls := by
  obtain ⟨last, outputs, hrun⟩ := machine.exists_run (fun _ _ ↦ ⟨_, _, rfl⟩) [] calls
  have hstep : ∀ {elements next : ElementVector} {request : Call}
      {outputs : List (ElementVector × ElementVector)},
      machine.step elements request = some (next, outputs) → next = elements.call request ∧
        ∀ output ∈ outputs, KeepsSpecifiers output := by
    intro elements next request outputs hnext
    obtain ⟨rfl, rfl⟩ := Prod.mk.inj (Option.some.inj hnext)
    refine ⟨rfl, fun output houtput ↦ ?_⟩
    split_ifs at houtput with hremoves
    · obtain rfl := List.mem_singleton.mp houtput
      have hspec := removesFrom_call elements hremoves
      exact ⟨hspec.descs, hspec.privates 0⟩
    · exact absurd houtput List.not_mem_nil
  apply machine.holdsAlong_iff_meets (fun _ h ↦ h) ?_ ?_ hother ?_ hrun
  · intro elements request next outputs hadmissible hconsistent hcondition hnext
    obtain ⟨rfl, houtputs⟩ := hstep hnext
    refine ⟨?_, houtputs⟩
    rw [isConsistent_iff] at hconsistent ⊢
    cases request with
    | add desc => exact hconsistent.add desc
    | addSerialized desc => exact hconsistent.addSerialized desc
    | addList other =>
      exact (consistentFrom_addList_iff hconsistent (hadmissible other rfl)).mpr hcondition
    | addBytes data => exact hconsistent.addBytes data
    | addPrivateDataSpecifier pds => exact hconsistent.addPrivateDataSpecifier pds
    | _ => exact (removesFrom_call elements rfl).consistent hconsistent
  · rintro elements request next outputs hadmissible hconsistent hcondition hnext ⟨hafter, -⟩
    obtain ⟨rfl, -⟩ := hstep hnext
    rw [isConsistent_iff] at hconsistent hafter
    cases request with
    | addList other =>
      exact hcondition ((consistentFrom_addList_iff hconsistent (hadmissible other rfl)).mp hafter)
    | _ => exact hcondition trivial
  · intro index element helement
    simp at helement

def privateDescriptor : Descriptor where
  content := [0x80, 0x01, 0x2A]
  header := Nat.le_of_ble_eq_true rfl
  announced := rfl

def privateList : ElementVector :=
  [⟨some privateDescriptor, 0⟩]

theorem built_privateList : Built privateList := by
  have hadded : Built (call [] (.add (some privateDescriptor))) := .call .empty nofun
  exact hadded

/-- The list is added to an empty one. -/
theorem privateList_added : machine.HoldsAlong IsConsistent KeepsSpecifiers []
    [.addList privateList, .addPrivateDataSpecifier 1] := by
  apply (consistent_iff ?_).mpr
  · refine ⟨⟨?_, Or.inr (Or.inr rfl)⟩, fun next outputs hnext ↦ ⟨trivial, fun _ _ _ ↦ trivial⟩⟩
    rw [isConsistent_iff]
    exact ⟨by decide, trivial⟩
  · intro request hrequest other hother
    subst hother
    simp only [List.mem_cons, List.not_mem_nil, or_false, Call.addList.injEq, reduceCtorEq]
      at hrequest
    rw [hrequest]
    exact built_privateList

/-- The private descriptor has not the specifier which applies. -/
theorem privateList_added_not_consistent : Built privateList ∧
    ¬ machine.HoldsAlong IsConsistent KeepsSpecifiers []
      [.addPrivateDataSpecifier 1, .addList privateList] := by
  refine ⟨built_privateList, fun hholds ↦ ?_⟩
  obtain ⟨hconsistent, -⟩ := hholds _ List.prefix_rfl _ _ rfl
  have hsecond := hconsistent 1 ⟨some privateDescriptor, 0⟩ rfl
  exact absurd hsecond (by decide)

end ElementVector

end TSDuck
