import TSDuck.Xml.UString

/-!
# XML elements

An XML element has a name, attributes, and children which are texts and other elements.

The texts are kept as they are: the characters which a document file replaces by entities are not
part of the model, nor are the reports of errors.
-/

namespace TSDuck

/-- A node of an XML document, with its attributes by their keys. -/
inductive XmlNode
  | text (value : UString)
  | element (name : UString) (attributes : List (UString × UString)) (children : List XmlNode)

namespace XmlNode

def name : XmlNode → UString
  | text _ => []
  | element name _ _ => name

def attributes : XmlNode → List (UString × UString)
  | text _ => []
  | element _ attributes _ => attributes

def children : XmlNode → List XmlNode
  | text _ => []
  | element _ _ children => children

def textValue : XmlNode → UString
  | text value => value
  | element _ _ _ => []

def isElement : XmlNode → Bool
  | text _ => false
  | element _ _ _ => true

def attributeKey (attributeName : UString) : UString := attributeName.map Char.toLower

def setAttribute (attributes : List (UString × UString)) (attributeName value : UString) :
    List (UString × UString) :=
  (attributeKey attributeName, value) :: attributes.filter (·.1 != attributeKey attributeName)

/-- Sets an integer attribute, in hexadecimal or in decimal. -/
def setIntAttribute (attributes : List (UString × UString)) (attributeName : UString) (width value : ℕ)
    (hexa : Bool) : List (UString × UString) :=
  setAttribute attributes attributeName
    (if hexa then UString.hexa width value else UString.decimal value)

def setBoolAttribute (attributes : List (UString × UString)) (attributeName : UString) (value : Bool) :
    List (UString × UString) :=
  setAttribute attributes attributeName (UString.trueFalse value)

/-- A text with the dump of bytes, at some depth. -/
def hexaText (depth : ℕ) (data : ByteBlock) : XmlNode :=
  text ([UString.lineFeed] ++ UString.dump data (2 * depth) 16 ++
    List.replicate (if depth = 0 then 0 else 2 * (depth - 1)) ' ')

section Reading

variable (node : XmlNode) (attributeName : UString) (required : Bool)

def getAttribute (defValue : UString) : Option UString :=
  match node.attributes.lookup (attributeKey attributeName) with
  | some value => some value
  | none => if required then none else some defValue

/-- An integer attribute of an unsigned type, in a range. -/
def getIntAttribute (modulus : ℕ) (defValue minValue maxValue : ℕ) : Option ℕ :=
  match node.getAttribute attributeName required (UString.decimal defValue) with
  | none => none
  | some str =>
    match UString.toInteger modulus str with
    | none => none
    | some value => if value < minValue ∨ maxValue < value then none else some value

def hasAttribute : Bool := (node.attributes.lookup (attributeKey attributeName)).isSome

/-- The integer attribute, if it is present, in a range. -/
def getOptionalIntAttribute (modulus minValue maxValue : ℕ) : Option (Option ℕ) :=
  if node.hasAttribute attributeName then
    (node.getIntAttribute attributeName false modulus 0 minValue maxValue).map some
  else some none

def getBoolAttribute (defValue : Bool) : Option Bool :=
  match node.getAttribute attributeName required (UString.trueFalse defValue) with
  | none => none
  | some str =>
    if str.similar "true".toList || str.similar "yes".toList || str.similar "1".toList then
      some true
    else if str.similar "false".toList || str.similar "no".toList || str.similar "0".toList then
      some false
    else none

def getChildren (searchName : UString) (minCount maxCount : ℕ) : Option (List XmlNode) :=
  if searchName = [] then none
  else
    let found := node.children.filter fun child ↦ child.isElement && searchName.similar child.name
    if minCount ≤ found.length ∧ found.length ≤ maxCount then some found else none

def getText : UString := UString.trim (node.children.flatMap textValue)

/-- The bytes of a hexadecimal text, as many as required. -/
def getHexaText (minSize maxSize : ℕ) : Option ByteBlock :=
  match UString.hexaDecode node.getText with
  | none => none
  | some data => if minSize ≤ data.length ∧ data.length ≤ maxSize then some data else none

end Reading

theorem lookup_setAttribute (attributes : List (UString × UString)) (attributeName value key : UString) :
    (setAttribute attributes attributeName value).lookup key =
      if key = attributeKey attributeName then some value else attributes.lookup key := by
  have hfilter : key ≠ attributeKey attributeName →
      (attributes.filter (·.1 != attributeKey attributeName)).lookup key =
        attributes.lookup key := by
    intro hne
    induction attributes with
    | nil => rfl
    | cons attr rest ih =>
      obtain ⟨name, text⟩ := attr
      rw [List.filter_cons, List.lookup_cons]
      by_cases hkey : key = name
      · have hkept : (name != attributeKey attributeName) = true :=
          bne_iff_ne.mpr fun hsame ↦ hne (hkey.trans hsame)
        rw [if_pos hkept, List.lookup_cons, hkey, beq_self_eq_true]
      · have hskip : (key == name) = false := beq_eq_false_iff_ne.mpr hkey
        split_ifs
        · rw [List.lookup_cons, hskip]
          exact ih
        · rw [hskip]
          exact ih
  unfold setAttribute
  rw [List.lookup_cons]
  split_ifs with hkey
  · rw [hkey, beq_self_eq_true]
  · rw [beq_eq_false_iff_ne.mpr hkey]
    exact hfilter hkey

section RoundTrips

variable (node : XmlNode) (attributeName : UString) (required : Bool)

theorem getIntAttribute_hexa {modulus value : ℕ} (width : ℕ) (defValue : ℕ) {minValue maxValue : ℕ}
    (hattribute : node.attributes.lookup (attributeKey attributeName) =
      some (UString.hexa (width + 1) value))
    (hwidth : value < 16 ^ (width + 1)) (hmodulus : value < modulus)
    (hmin : minValue ≤ value) (hmax : value ≤ maxValue) :
    node.getIntAttribute attributeName required modulus defValue minValue maxValue = some value := by
  unfold getIntAttribute getAttribute
  rw [hattribute]
  simp only [UString.toInteger_hexa width hwidth hmodulus]
  rw [if_neg (by omega)]

theorem getIntAttribute_decimal {modulus value : ℕ} (defValue minValue maxValue : ℕ)
    (hattribute : node.attributes.lookup (attributeKey attributeName) =
      some (UString.decimal value)) (hmodulus : value < modulus) :
    node.getIntAttribute attributeName required modulus defValue minValue maxValue =
      if value < minValue ∨ maxValue < value then none else some value := by
  unfold getIntAttribute getAttribute
  rw [hattribute]
  simp only [UString.toInteger_decimal hmodulus]

theorem getOptionalIntAttribute_decimal {modulus value : ℕ} (minValue maxValue : ℕ)
    (hattribute : node.attributes.lookup (attributeKey attributeName) =
      some (UString.decimal value)) (hmodulus : value < modulus) :
    node.getOptionalIntAttribute attributeName modulus minValue maxValue =
      if value < minValue ∨ maxValue < value then none else some (some value) := by
  have hpresent : node.hasAttribute attributeName = true := by
    rw [hasAttribute, hattribute]
    rfl
  rw [getOptionalIntAttribute, if_pos hpresent,
    node.getIntAttribute_decimal attributeName false 0 minValue maxValue hattribute hmodulus]
  split_ifs <;> rfl

theorem getBoolAttribute_trueFalse {value : Bool} (defValue : Bool)
    (hattribute : node.attributes.lookup (attributeKey attributeName) =
      some (UString.trueFalse value)) :
    node.getBoolAttribute attributeName required defValue = some value := by
  unfold getBoolAttribute getAttribute
  rw [hattribute]
  cases value with
  | true => rfl
  | false => rfl

theorem getHexaText_hexaText (name : UString) (attributes : List (UString × UString)) (depth : ℕ)
    (data : ByteBlock) (minSize maxSize : ℕ) :
    (element name attributes [hexaText depth data]).getHexaText minSize maxSize =
      if minSize ≤ data.length ∧ data.length ≤ maxSize then some data else none := by
  have hspaces : ∀ char ∈ List.replicate (if depth = 0 then 0 else 2 * (depth - 1)) ' ',
      UString.isSpace char := by
    intro char hchar
    rw [(List.mem_replicate.mp hchar).2]
    rfl
  have hline : ∀ char ∈ [UString.lineFeed], UString.isSpace char := by
    intro char hchar
    rw [List.mem_singleton.mp hchar]
    decide
  have hdecoded : UString.hexaDecode (element name attributes [hexaText depth data]).getText =
      some data := by
    unfold getText
    rw [UString.hexaDecode_trim]
    show UString.hexaDecode ((_ ++ _ ++ _) ++ []) = _
    rw [List.append_nil]
    exact UString.hexaDecode_dump data (2 * depth) 16 hline hspaces
  unfold getHexaText
  rw [hdecoded]

end RoundTrips

end XmlNode

end TSDuck
