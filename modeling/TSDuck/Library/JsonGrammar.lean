import Mathlib.Data.List.Basic

/-!
# The grammar of JSON texts

A `JsonSyntax` says what the tokens of JSON texts are and what they mean: the white space, the
punctuation, the scalars (literals, numbers and strings) with their values, the names of the fields
of an object. `Reads` are the texts of the values: a scalar, or the elements of an array or the
members of an object between brackets, separated by commas (`IsBody`).

`ecma404` is the standard syntax of texts in UTF-16, for integer numbers.
-/

universe u v w

/-- The tokens of JSON texts and what they mean. -/
structure JsonSyntax (Code : Type u) (Name : Type v) (Value : Type w) where
  IsSpace : Code → Prop
  openArray : Code
  closeArray : Code
  openObject : Code
  closeObject : Code
  comma : Code
  colon : Code
  Scalar : List Code → Value → Prop
  IsName : List Code → Name → Prop
  array : List Value → Value
  object : List (Name × Value) → Value
  trailingComma : Prop

/-- A value in a text, with the white space around it. -/
structure JsonElement (Code : Type u) (Value : Type w) where
  before : List Code
  text : List Code
  after : List Code
  value : Value

/-- A member of an object: a label and a value. -/
structure JsonMember (Code : Type u) (Name : Type v) (Value : Type w) where
  label : List Code
  name : Name
  element : JsonElement Code Value

variable {Code : Type u} {Name : Type v} {Value : Type w}

def JsonElement.spaced (element : JsonElement Code Value) : List Code :=
  element.before ++ element.text ++ element.after

def JsonMember.spaced (member : JsonMember Code Name Value) : List Code :=
  member.label ++ member.element.spaced

def JsonMember.field (member : JsonMember Code Name Value) : Name × Value :=
  (member.name, member.element.value)

namespace JsonSyntax

variable (style : JsonSyntax Code Name Value)

/-- A gap is made of white space, or empty. -/
def IsGap (gap : List Code) : Prop :=
  ∀ code ∈ gap, style.IsSpace code

/-- The label of a member: its name and a colon. -/
def IsLabel (label : List Code) (name : Name) : Prop :=
  ∃ before text after, label = before ++ text ++ after ++ [style.colon] ∧ style.IsGap before ∧
    style.IsGap after ∧ style.IsName text name

/-- Parts with commas between them, or a gap. -/
def IsBody : List (List Code) → List Code → Prop
  | [], body => style.IsGap body
  | part :: parts, body =>
    (parts = [] ∧ body = part) ∨ ((parts = [] → style.trailingComma) ∧
        ∃ rest, IsBody parts rest ∧ body = part ++ style.comma :: rest)

/-- The texts of the values. -/
inductive Reads : List Code → Value → Prop
  | scalar {text : List Code} {value : Value} (hscalar : style.Scalar text value) : Reads text value
  | array {elements : List (JsonElement Code Value)} {body : List Code}
      (hgaps : ∀ element ∈ elements, style.IsGap element.before ∧ style.IsGap element.after)
      (hreads : ∀ element ∈ elements, Reads element.text element.value)
      (hbody : style.IsBody (elements.map JsonElement.spaced) body) :
      Reads (style.openArray :: (body ++ [style.closeArray]))
        (style.array (elements.map JsonElement.value))
  | object {members : List (JsonMember Code Name Value)} {body : List Code}
      (hlabels : ∀ member ∈ members, style.IsLabel member.label member.name)
      (hgaps : ∀ member ∈ members,
        style.IsGap member.element.before ∧ style.IsGap member.element.after)
      (hreads : ∀ member ∈ members, Reads member.element.text member.element.value)
      (hbody : style.IsBody (members.map JsonMember.spaced) body) :
      Reads (style.openObject :: (body ++ [style.closeObject]))
        (style.object (members.map JsonMember.field))

/-- A document: one value, with white space around it. -/
def IsDocument (document : List Code) (value : Value) : Prop :=
  ∃ before text after, document = before ++ text ++ after ∧ style.IsGap before ∧
    style.IsGap after ∧ style.Reads text value

variable {style}

/-- Any other text is the one of a scalar. -/
theorem Reads.scalar_of_head {text : List Code} {value : Value} (hreads : style.Reads text value)
    (hhead : text.head? ≠ some style.openArray ∧ text.head? ≠ some style.openObject) :
    style.Scalar text value := by
  cases hreads with
  | scalar hscalar => exact hscalar
  | array => exact absurd rfl hhead.1
  | object => exact absurd rfl hhead.2

/-- Without a comma after the last part, the inside does not end with one. -/
theorem IsBody.getLast_ne_comma (hspace : ¬ style.IsSpace style.comma) (hcomma : ¬ style.trailingComma)
    {parts : List (List Code)}
    (hparts : ∀ part ∈ parts, part ≠ [] ∧ part.getLast? ≠ some style.comma) {body : List Code}
    (hbody : style.IsBody parts body) : body.getLast? ≠ some style.comma := by
  induction parts generalizing body with
  | nil =>
    intro hlast
    exact hspace (hbody _ (List.mem_of_getLast? hlast))
  | cons part parts ih =>
    obtain ⟨-, rfl⟩ | ⟨hnext, rest, hrest, rfl⟩ := hbody
    · exact (hparts body List.mem_cons_self).2
    · have htail := ih (List.forall_mem_cons.mp hparts).2 hrest
      have hne : rest ≠ [] := by
        rintro rfl
        cases parts with
        | nil => exact hcomma (hnext rfl)
        | cons other parts =>
          obtain ⟨-, hother⟩ | ⟨-, more, -, hother⟩ := hrest
          · exact (hparts other (List.mem_cons_of_mem _ List.mem_cons_self)).1 hother.symm
          · exact absurd hother.symm (by simp)
      obtain ⟨code, more, rfl⟩ := List.exists_cons_of_ne_nil hne
      rw [List.getLast?_append_cons, List.getLast?_cons_cons]
      exact htail

/-- Assumes: no white space around. The document is a value. -/
theorem IsDocument.reads {document : List Code} {value : Value}
    (hdocument : style.IsDocument document value)
    (hfirst : ∀ code ∈ document.head?, ¬ style.IsSpace code)
    (hlast : ∀ code ∈ document.getLast?, ¬ style.IsSpace code) : style.Reads document value := by
  obtain ⟨before, text, after, rfl, hbefore, hafter, hreads⟩ := hdocument
  have hstart : before = [] := by
    cases before with
    | nil => rfl
    | cons code rest => exact absurd (hbefore code List.mem_cons_self) (hfirst code rfl)
  have hend : after = [] := by
    cases hcodes : after.getLast? with
    | none => exact List.getLast?_eq_none_iff.mp hcodes
    | some code =>
      refine absurd (hafter code (List.mem_of_getLast? hcodes)) (hlast code ?_)
      rw [List.getLast?_append, hcodes]
      rfl
  rw [hstart, hend, List.nil_append, List.append_nil]
  exact hreads

/-! ### The standard syntax -/

def isDigit (code : UInt16) : Bool := 0x30 ≤ code && code ≤ 0x39

def isHexDigit (code : UInt16) : Bool :=
  isDigit code || (0x41 ≤ code && code ≤ 0x46) || (0x61 ≤ code && code ≤ 0x66)

def isNatural : List UInt16 → Bool
  | [] => false
  | digit :: digits => isDigit digit && digits.all isDigit && (digit != 0x30 || digits.isEmpty)

/-- An integer, which has no other sign than the one of negative integers. -/
def isInteger : List UInt16 → Bool
  | [] => false
  | sign :: digits => if sign = 0x2D then isNatural digits else isNatural (sign :: digits)

def escapes : List UInt16 := [0x22, 0x5C, 0x2F, 0x62, 0x66, 0x6E, 0x72, 0x74]

/-- The characters and the escape sequences of a string. -/
def areCharacters : List UInt16 → Bool
  | [] => true
  | code :: rest =>
    if code = 0x5C then
      match rest with
      | [] => false
      | escaped :: rest =>
        if escaped = 0x75 then
          match rest with
          | first :: second :: third :: fourth :: rest =>
            [first, second, third, fourth].all isHexDigit && areCharacters rest
          | _ => false
        else escapes.contains escaped && areCharacters rest
    else code != 0x22 && 0x20 ≤ code && areCharacters rest

def isString : List UInt16 → Bool
  | [] => false
  | quote :: rest => quote == 0x22 && rest.getLast? == some 0x22 && areCharacters rest.dropLast

def literals : List (List UInt16) :=
  [[0x6E, 0x75, 0x6C, 0x6C], [0x74, 0x72, 0x75, 0x65], [0x66, 0x61, 0x6C, 0x73, 0x65]]

def ecma404 : JsonSyntax UInt16 Unit Unit where
  IsSpace code := code ∈ ([0x20, 0x09, 0x0A, 0x0D] : List UInt16)
  openArray := 0x5B
  closeArray := 0x5D
  openObject := 0x7B
  closeObject := 0x7D
  comma := 0x2C
  colon := 0x3A
  Scalar text _ := text ∈ literals ∨ isInteger text = true ∨ isString text = true
  IsName text _ := isString text = true
  array _ := ()
  object _ := ()
  trailingComma := False

variable {text : List UInt16} {value : Unit}

/-- A scalar is not empty and does not end with a comma. -/
theorem getLast_scalar_ne_comma (hscalar : ecma404.Scalar text value) :
    text ≠ [] ∧ text.getLast? ≠ some 0x2C := by
  rcases hscalar with hliteral | hinteger | hstring
  · have hall : ∀ literal ∈ literals, literal ≠ [] ∧ literal.getLast? ≠ some 0x2C := by decide
    exact hall text hliteral
  · have hnatural : ∀ digits : List UInt16, isNatural digits = true →
        digits ≠ [] ∧ digits.getLast? ≠ some 0x2C := by
      intro digits hdigits
      cases digits with
      | nil => cases hdigits
      | cons digit rest =>
        rw [isNatural, Bool.and_eq_true, Bool.and_eq_true, List.all_eq_true] at hdigits
        refine ⟨List.cons_ne_nil _ _, fun hlast ↦ ?_⟩
        rcases List.mem_cons.mp (List.mem_of_getLast? hlast) with hsame | hmem
        · rw [← hsame] at hdigits
          exact absurd hdigits.1.1 (by decide)
        · exact absurd (hdigits.1.2 _ hmem) (by decide)
    cases text with
    | nil => cases hinteger
    | cons sign digits =>
      rw [isInteger] at hinteger
      split_ifs at hinteger
      · obtain ⟨hne, hlast⟩ := hnatural digits hinteger
        obtain ⟨digit, rest, rfl⟩ := List.exists_cons_of_ne_nil hne
        exact ⟨List.cons_ne_nil _ _, hlast⟩
      · exact hnatural _ hinteger
  · cases text with
    | nil => cases hstring
    | cons quote rest =>
      rw [isString, Bool.and_eq_true, Bool.and_eq_true, beq_iff_eq, beq_iff_eq] at hstring
      refine ⟨List.cons_ne_nil _ _, ?_⟩
      cases rest with
      | nil => cases hstring.1.2
      | cons next rest =>
        rw [List.getLast?_cons_cons, hstring.1.2]
        decide

/-- The text of a value is not empty and does not end with a comma. -/
theorem getLast_reads_ne_comma (hreads : ecma404.Reads text value) :
    text ≠ [] ∧ text.getLast? ≠ some 0x2C := by
  have hclose : ∀ code close : UInt16, close ≠ 0x2C → ∀ body : List UInt16,
      code :: (body ++ [close]) ≠ [] ∧ (code :: (body ++ [close])).getLast? ≠ some 0x2C := by
    intro code close hne body
    refine ⟨List.cons_ne_nil _ _, ?_⟩
    rw [← List.cons_append, List.getLast?_concat]
    exact fun h ↦ hne (Option.some.inj h)
  cases hreads with
  | scalar hscalar => exact getLast_scalar_ne_comma hscalar
  | array => exact hclose 0x5B 0x5D (by decide) _
  | object => exact hclose 0x7B 0x7D (by decide) _

/-- A value with white space around it does not end with a comma. -/
theorem getLast_spaced_ne_comma {element : JsonElement UInt16 Unit}
    (hreads : ecma404.Reads element.text element.value) (hgap : ecma404.IsGap element.after)
    (label : List UInt16) :
    label ++ element.spaced ≠ [] ∧ (label ++ element.spaced).getLast? ≠ some 0x2C := by
  obtain ⟨hne, hlast⟩ := getLast_reads_ne_comma hreads
  unfold JsonElement.spaced
  constructor
  · intro hempty
    rw [List.append_eq_nil_iff, List.append_eq_nil_iff, List.append_eq_nil_iff] at hempty
    exact hne hempty.2.1.2
  · rw [← List.append_assoc, List.getLast?_append]
    cases hafter : element.after.getLast? with
    | none =>
      rw [Option.none_or, ← List.append_assoc, List.getLast?_append]
      cases htext : element.text.getLast? with
      | none => exact absurd (List.getLast?_eq_none_iff.mp htext) hne
      | some code =>
        rw [htext] at hlast
        exact hlast
    | some code =>
      have hspace : code ∈ ([0x20, 0x09, 0x0A, 0x0D] : List UInt16) :=
        hgap code (List.mem_of_getLast? hafter)
      rintro hsame
      rw [Option.some_or, Option.some.injEq] at hsame
      rw [hsame] at hspace
      exact absurd hspace (by decide)

/-- A scalar does not start as an array or as an object. -/
theorem head?_scalar_ne (hscalar : ecma404.Scalar text value) :
    text.head? ≠ some 0x5B ∧ text.head? ≠ some 0x7B := by
  rcases hscalar with hliteral | hinteger | hstring
  · have hall : ∀ literal ∈ literals, literal.head? ≠ some 0x5B ∧ literal.head? ≠ some 0x7B := by
      decide
    exact hall text hliteral
  · constructor
    all_goals
      intro hhead
      cases text with
      | nil => cases hinteger
      | cons sign digits =>
        obtain rfl := Option.some.inj hhead
        exact absurd hinteger Bool.false_ne_true
  · constructor
    all_goals
      intro hhead
      cases text with
      | nil => cases hstring
      | cons quote rest =>
        obtain rfl := Option.some.inj hhead
        exact absurd hstring Bool.false_ne_true

theorem comma_not_space : ¬ ecma404.IsSpace ecma404.comma := by
  show (0x2C : UInt16) ∉ ([0x20, 0x09, 0x0A, 0x0D] : List UInt16)
  decide

theorem not_reads_array_comma (inside : List UInt16) (value : Unit) :
    ¬ ecma404.Reads (0x5B :: (inside ++ [0x2C] ++ [0x5D])) value := by
  intro hreads
  generalize htext : 0x5B :: (inside ++ [0x2C] ++ [0x5D]) = text at hreads
  cases hreads with
  | scalar hscalar => exact (head?_scalar_ne hscalar).1 (htext ▸ rfl)
  | object => exact absurd (List.cons.inj htext).1 (by decide)
  | array hgaps hreads hbody =>
    rw [← (List.append_inj' (List.cons.inj htext).2 rfl).1] at hbody
    have hcomma := hbody.getLast_ne_comma comma_not_space id (by
      intro part hpart
      obtain ⟨element, helement, rfl⟩ := List.mem_map.mp hpart
      exact getLast_spaced_ne_comma (hreads element helement) (hgaps element helement).2 [])
    rw [List.getLast?_concat] at hcomma
    exact hcomma rfl

theorem not_reads_object_comma (inside : List UInt16) (value : Unit) :
    ¬ ecma404.Reads (0x7B :: (inside ++ [0x2C] ++ [0x7D])) value := by
  intro hreads
  generalize htext : 0x7B :: (inside ++ [0x2C] ++ [0x7D]) = text at hreads
  cases hreads with
  | scalar hscalar => exact (head?_scalar_ne hscalar).2 (htext ▸ rfl)
  | array => exact absurd (List.cons.inj htext).1 (by decide)
  | object hlabels hgaps hreads hbody =>
    rw [← (List.append_inj' (List.cons.inj htext).2 rfl).1] at hbody
    have hcomma := hbody.getLast_ne_comma comma_not_space id (by
      intro part hpart
      obtain ⟨member, hmember, rfl⟩ := List.mem_map.mp hpart
      exact getLast_spaced_ne_comma (hreads member hmember) (hgaps member hmember).2 member.label)
    rw [List.getLast?_concat] at hcomma
    exact hcomma rfl

end JsonSyntax
