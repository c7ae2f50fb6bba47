import TSDuck.Json.JsonAcceptance
import TSDuck.Text.TextFormatter

/-!
# JSON printer

What is printed is a text of the value in the syntax of the parser (`reads_print`), so that the
value is parsed back, with any indentation (`parse_printed`).
-/

namespace TSDuck

namespace JsonValue

open TextFormatter U16String UChar TextLines

mutual

def print : JsonValue → TextFormatter → TextFormatter
  | .null, output => output.put (ofASCII "null")
  | .boolean true, output => output.put (ofASCII "true")
  | .boolean false, output => output.put (ofASCII "false")
  | .number value, output => output.put (decimal value)
  | .string value, output =>
    ((output.put [QUOTATION_MARK]).put (convertToJSON value)).put [QUOTATION_MARK]
  | .object fields, output =>
    (printFields true fields (output.put (ofASCII "\x7b")).indent).endl.unindent.margin.put (ofASCII "\x7d")
  | .array elements, output =>
    (printElements true elements (output.put (ofASCII "[")).indent).endl.unindent.margin.put
      (ofASCII "]")

/-- The loop on the fields of an object. -/
def printFields : Bool → List (U16String × JsonValue) → TextFormatter → TextFormatter
  | _, [], output => output
  | isFirst, (name, value) :: rest, output =>
    let start := (if isFirst then output else output.put (ofASCII ",")).endl.margin
    let label := ((start.put [QUOTATION_MARK]).put (convertToJSON name)).put (ofASCII "\": ")
    printFields false rest (print value label)

/-- The loop on the elements of an array. -/
def printElements : Bool → List JsonValue → TextFormatter → TextFormatter
  | _, [], output => output
  | isFirst, value :: rest, output =>
    let start := (if isFirst then output else output.put (ofASCII ",")).endl.margin
    printElements false rest (print value start)

end

def printed (indent : ℕ) (value : JsonValue) : U16String :=
  (print value (TextFormatter.new indent)).toString

/-- The fields are in order and no number is the smallest one. -/
inductive IsRegular : JsonValue → Prop
  | null : IsRegular .null
  | boolean (value : Bool) : IsRegular (.boolean value)
  | number {value : Int64} (hvalue : value ≠ Int64.minValue) : IsRegular (.number value)
  | string (value : U16String) : IsRegular (.string value)
  | object {fields : List (U16String × JsonValue)}
      (hsorted : fields.Pairwise fun first second ↦ first.1 < second.1)
      (hfields : ∀ field ∈ fields, IsRegular field.2) : IsRegular (.object fields)
  | array {elements : List JsonValue} (helements : ∀ element ∈ elements, IsRegular element) :
      IsRegular (.array elements)

/-! ### Strings and numbers -/

theorem isPrintable_unitToJSON (unit : UChar) :
    ∀ other ∈ unitToJSON unit, isPrintable other = true := by
  have hexa : ∀ nibble < 16, isPrintable (hexaUnit nibble) = true := by decide
  have hcode := unit.toNat_lt
  unfold unitToJSON
  cases hquoted : quotedUnit unit with
  | some quoted =>
    have hquote : isPrintable quoted = true := by
      unfold quotedUnit at hquoted
      split_ifs at hquoted with hself
      · obtain rfl := Option.some.inj hquoted
        rcases hself with rfl | rfl <;> decide
      all_goals
        obtain rfl := Option.some.inj hquoted
        decide
    intro other hother
    rcases List.mem_pair.mp hother with rfl | rfl
    · decide
    · exact hquote
  | none =>
    dsimp only
    intro other hother
    split_ifs at hother with hplain
    · rw [List.mem_singleton.mp hother]
      unfold isPrintable
      rw [decide_eq_true hplain.1, decide_eq_true hplain.2]
      rfl
    · simp only [hexaCode, List.mem_cons, List.not_mem_nil, or_false] at hother
      rcases hother with rfl | rfl | rfl | rfl | rfl | rfl
      · decide
      · decide
      · exact hexa _ (by omega)
      · exact hexa _ (by omega)
      · exact hexa _ (by omega)
      · exact hexa _ (by omega)

theorem isPrintable_convertToJSON (text : U16String) :
    ∀ unit ∈ convertToJSON text, isPrintable unit = true := by
  intro unit hunit
  obtain ⟨source, -, hsource⟩ := List.mem_flatMap.mp hunit
  exact isPrintable_unitToJSON source unit hsource

theorem isQuoted_convertToJSON (text : U16String) :
    isQuoted QUOTATION_MARK (convertToJSON text) = true := by
  have hescape : REVERSE_SOLIDUS ≠ QUOTATION_MARK := by decide
  have hexa : ∀ nibble < 16, hexaUnit nibble ≠ QUOTATION_MARK ∧
      hexaUnit nibble ≠ REVERSE_SOLIDUS := by
    decide
  induction text with
  | nil => rfl
  | cons unit rest ih =>
    have hcode := unit.toNat_lt
    show isQuoted QUOTATION_MARK (unitToJSON unit ++ convertToJSON rest) = true
    unfold unitToJSON
    cases hquoted : quotedUnit unit with
    | some quoted =>
      show isQuoted QUOTATION_MARK (REVERSE_SOLIDUS :: quoted :: convertToJSON rest) = true
      rw [isQuoted_escaped hescape, ih]
    | none =>
      have hplain : unit ≠ QUOTATION_MARK ∧ unit ≠ REVERSE_SOLIDUS := by
        constructor <;>
        · rintro rfl
          cases hquoted
      dsimp only
      split_ifs
      · rw [List.singleton_append, isQuoted_plain hplain.1 hplain.2, ih]
      · show isQuoted QUOTATION_MARK (REVERSE_SOLIDUS :: 0x75 :: (hexaCode unit ++ _)) = true
        obtain ⟨hfirst₁, hfirst₂⟩ := hexa (unit.toNat / 0x1000) (by omega)
        obtain ⟨hsecond₁, hsecond₂⟩ := hexa (unit.toNat / 0x100 % 16) (by omega)
        obtain ⟨hthird₁, hthird₂⟩ := hexa (unit.toNat / 0x10 % 16) (by omega)
        obtain ⟨hfourth₁, hfourth₂⟩ := hexa (unit.toNat % 16) (by omega)
        rw [isQuoted_escaped hescape, hexaCode, List.cons_append, isQuoted_plain hfirst₁ hfirst₂,
          List.cons_append, isQuoted_plain hsecond₁ hsecond₂, List.cons_append,
          isQuoted_plain hthird₁ hthird₂, List.cons_append, isQuoted_plain hfourth₁ hfourth₂,
          List.nil_append, ih]

theorem isStringLiteral_convertToJSON (text : U16String) :
    IsStringLiteral (QUOTATION_MARK :: (convertToJSON text ++ [QUOTATION_MARK])) text := by
  refine ⟨convertToJSON text, (convertFromJSON_convertToJSON text).symm, isQuoted_convertToJSON text,
    fun hfeed ↦ ?_, rfl⟩
  exact absurd (isPrintable_convertToJSON text _ hfeed) (by decide)

theorem isDecimalLiteral_decimal {value : Int64} (hvalue : value ≠ Int64.minValue) :
    IsDecimalLiteral (decimal value) ∧ ofLiteral (decimal value) = .number value ∧
      ∀ unit ∈ decimal value, isPrintable unit = true := by
  obtain ⟨digits, hdecimal, hne, hdigits, -⟩ := decimal_eq hvalue
  have hsign : IsSign (if value < 0 then [0x2D] else []) := by
    split_ifs
    · exact Or.inr (Or.inl rfl)
    · exact Or.inl rfl
  refine ⟨⟨_, digits, [], [], hsign, hne, hdigits, Or.inl rfl, Or.inl rfl, ?_⟩, ?_, ?_⟩
  · rw [hdecimal, List.append_nil, List.append_nil]
  · unfold ofLiteral
    rw [toInt64_decimal hvalue]
  · rw [hdecimal]
    intro unit hunit
    rcases List.mem_append.mp hunit with hunit | hunit
    · split_ifs at hunit
      · rw [List.mem_singleton.mp hunit]
        decide
      · cases hunit
    · have hdigit := hdigits unit hunit
      unfold isDigit at hdigit
      unfold isPrintable
      rw [Bool.and_eq_true, decide_eq_true_iff, decide_eq_true_iff] at hdigit ⊢
      omega

/-! ### What is printed -/

/-- What is printed for a value is one of its texts. -/
def PrintsAs (value : JsonValue) : Prop :=
  ∀ output, ∃ text, Emits output (print value output) text ∧ extended.Reads text value

def separator {Element : Type} (isFirst : Bool) (elements : List Element) : U16String :=
  if isFirst = true ∨ elements = [] then [] else [0x2C]

theorem separator_nil {Element : Type} (isFirst : Bool) :
    separator isFirst ([] : List Element) = [] := if_pos (Or.inr rfl)

theorem separator_cons {Element : Type} (isFirst : Bool) (element : Element) (rest : List Element) :
    separator isFirst (element :: rest) = if isFirst then [] else [0x2C] := by
  unfold separator
  cases isFirst <;> rfl

theorem separator_next {Element : Type} {elements : List Element} (hne : elements ≠ []) :
    separator false elements = [0x2C] := by
  apply if_neg
  rintro (h | h)
  · cases h
  · exact hne h

theorem emits_newElement (isFirst : Bool) (output : TextFormatter) :
    ∃ gap, extended.IsGap gap ∧
      Emits output (if isFirst then output else output.put (ofASCII ",")).endl.margin
        ((if isFirst then [] else [0x2C]) ++ gap) := by
  obtain ⟨start, hstart⟩ : ∃ start, start = if isFirst then output else output.put (ofASCII ",") :=
    ⟨_, rfl⟩
  have hcomma : Emits output start (if isFirst then [] else [0x2C]) := by
    rw [hstart]
    cases isFirst with
    | false => exact emits_put [0x2C] (List.all_eq_true.mp rfl) output
    | true => exact ⟨(List.append_nil _).symm, nofun⟩
  obtain ⟨gap, hmargin, hgap⟩ := emits_margin start.endl
  refine ⟨[LINE_FEED] ++ gap, ?_, ?_⟩
  · apply isGap_append _ hgap
    intro unit hunit
    rw [List.mem_singleton.mp hunit]
    rfl
  · rw [← hstart]
    exact hcomma.trans ((emits_endl start).trans hmargin)

/-- The loop prints the inside of an array. -/
theorem prints_elements {elements : List JsonValue} (helements : ∀ element ∈ elements, PrintsAs element)
    (isFirst : Bool) (output : TextFormatter) :
    ∃ text, Emits output (printElements isFirst elements output) text ∧
      ∀ last, extended.IsGap last → ∃ (parts : List (JsonElement UChar JsonValue)) (body : U16String),
        (∀ part ∈ parts, extended.IsGap part.before ∧ extended.IsGap part.after) ∧
          (∀ part ∈ parts, extended.Reads part.text part.value) ∧
            extended.IsBody (parts.map JsonElement.spaced) body ∧
              parts.map JsonElement.value = elements ∧
                text ++ last = separator isFirst elements ++ body := by
  induction elements generalizing isFirst output with
  | nil =>
    refine ⟨[], ⟨(List.append_nil _).symm, nofun⟩, fun last hlast ↦ ⟨[], last, nofun, nofun, hlast, rfl, ?_⟩⟩
    rw [separator_nil, List.nil_append]
  | cons value rest ih =>
    obtain ⟨gap, hgap, hstart⟩ := emits_newElement isFirst output
    obtain ⟨valueText, hvalue, hreads⟩ := helements value List.mem_cons_self
      (if isFirst then output else output.put (ofASCII ",")).endl.margin
    obtain ⟨restText, hrest, hbody⟩ :=
      ih (List.forall_mem_cons.mp helements).2 false
        (print value (if isFirst then output else output.put (ofASCII ",")).endl.margin)
    refine ⟨_, hstart.trans (hvalue.trans hrest), fun last hlast ↦ ?_⟩
    obtain ⟨parts, body, hgaps, hparts, hinside, hvalues, htext⟩ := hbody last hlast
    rw [separator_cons, List.append_assoc, List.append_assoc valueText, htext]
    by_cases hempty : rest = []
    · subst hempty
      rw [List.map_eq_nil_iff.mp hvalues] at hinside
      refine ⟨[⟨gap, valueText, body, value⟩], gap ++ valueText ++ body, ?_, ?_, Or.inl ⟨rfl, rfl⟩, rfl, ?_⟩
      · exact fun part hpart ↦ (List.mem_singleton.mp hpart) ▸ ⟨hgap, hinside⟩
      · exact List.forall_mem_singleton.mpr hreads
      · rw [separator_nil]
        simp only [List.append_assoc, List.nil_append]
    · refine ⟨⟨gap, valueText, [], value⟩ :: parts, gap ++ valueText ++ [] ++ 0x2C :: body, ?_, ?_,
        Or.inr ⟨fun _ ↦ trivial, body, hinside, rfl⟩, congrArg _ hvalues, ?_⟩
      · rintro part (_ | ⟨_, hpart⟩)
        · exact ⟨hgap, isGap_nil⟩
        · exact hgaps part hpart
      · exact List.forall_mem_cons.mpr ⟨hreads, hparts⟩
      · rw [separator_next hempty]
        simp only [List.append_assoc, List.nil_append, List.singleton_append]

/-- The loop prints the inside of an object. -/
theorem prints_fields {fields : List (U16String × JsonValue)}
    (hfields : ∀ field ∈ fields, PrintsAs field.2) (isFirst : Bool) (output : TextFormatter) :
    ∃ text, Emits output (printFields isFirst fields output) text ∧ ∀ last, extended.IsGap last →
        ∃ (parts : List (JsonMember UChar U16String JsonValue)) (body : U16String),
          (∀ part ∈ parts, extended.IsLabel part.label part.name) ∧
            (∀ part ∈ parts, extended.IsGap part.element.before ∧ extended.IsGap part.element.after) ∧
              (∀ part ∈ parts, extended.Reads part.element.text part.element.value) ∧
                extended.IsBody (parts.map JsonMember.spaced) body ∧
                  parts.map JsonMember.field = fields ∧
                    text ++ last = separator isFirst fields ++ body := by
  induction fields generalizing isFirst output with
  | nil =>
    refine ⟨[], ⟨(List.append_nil _).symm, nofun⟩,
      fun last hlast ↦ ⟨[], last, nofun, nofun, nofun, hlast, rfl, ?_⟩⟩
    rw [separator_nil, List.nil_append]
  | cons field rest ih =>
    obtain ⟨name, value⟩ := field
    obtain ⟨gap, hgap, hstart⟩ := emits_newElement isFirst output
    obtain ⟨start, hstartEq⟩ : ∃ start,
        start = (if isFirst then output else output.put (ofASCII ",")).endl.margin := ⟨_, rfl⟩
    obtain ⟨label, hlabelEq⟩ : ∃ label, label =
        ((start.put [QUOTATION_MARK]).put (convertToJSON name)).put (ofASCII "\": ") := ⟨_, rfl⟩
    have hprint : printFields isFirst ((name, value) :: rest) output =
        printFields false rest (print value label) := by
      rw [printFields, hlabelEq, hstartEq]
    rw [← hstartEq] at hstart
    have hlabel : Emits start label
        ([QUOTATION_MARK] ++ (convertToJSON name ++ [QUOTATION_MARK, 0x3A, 0x20])) := by
      rw [hlabelEq]
      apply (emits_put [QUOTATION_MARK] (List.all_eq_true.mp rfl) start).trans
      exact (emits_put _ (isPrintable_convertToJSON name) _).trans
        (emits_put [QUOTATION_MARK, 0x3A, 0x20] (List.all_eq_true.mp rfl) _)
    obtain ⟨valueText, hvalue, hreads⟩ := hfields (name, value) List.mem_cons_self label
    obtain ⟨restText, hrest, hbody⟩ :=
      ih (List.forall_mem_cons.mp hfields).2 false (print value label)
    rw [hprint]
    refine ⟨_, hstart.trans (hlabel.trans (hvalue.trans hrest)), fun last hlast ↦ ?_⟩
    obtain ⟨parts, body, hlabels, hgaps, hparts, hinside, hvalues, htext⟩ := hbody last hlast
    obtain ⟨labelText, hlabelText⟩ : ∃ labelText, labelText =
        gap ++ (QUOTATION_MARK :: (convertToJSON name ++ [QUOTATION_MARK])) ++ [] ++ [0x3A] := ⟨_, rfl⟩
    have hisLabel : extended.IsLabel labelText name :=
      ⟨gap, _, [], hlabelText, hgap, isGap_nil, isStringLiteral_convertToJSON name⟩
    have hspace : extended.IsGap [0x20] := by
      intro unit hunit
      rw [List.mem_singleton.mp hunit]
      rfl
    have hsplit : gap ++ ([QUOTATION_MARK] ++
        (convertToJSON name ++ [QUOTATION_MARK, 0x3A, 0x20])) = labelText ++ [0x20] := by
      rw [hlabelText]
      simp only [List.append_assoc, List.cons_append, List.nil_append]
    rw [separator_cons, List.append_assoc, List.append_assoc, List.append_assoc,
      List.append_assoc valueText, htext, ← List.append_assoc gap, hsplit]
    by_cases hempty : rest = []
    · subst hempty
      rw [List.map_eq_nil_iff.mp hvalues] at hinside
      refine ⟨[⟨labelText, name, [0x20], valueText, body, value⟩],
        labelText ++ ([0x20] ++ valueText ++ body), ?_, ?_, ?_, Or.inl ⟨rfl, rfl⟩, rfl, ?_⟩
      · exact List.forall_mem_singleton.mpr hisLabel
      · exact fun part hpart ↦ (List.mem_singleton.mp hpart) ▸ ⟨hspace, hinside⟩
      · exact List.forall_mem_singleton.mpr hreads
      · rw [separator_nil]
        simp only [List.append_assoc, List.nil_append]
    · refine ⟨⟨labelText, name, [0x20], valueText, [], value⟩ :: parts,
        labelText ++ ([0x20] ++ valueText ++ []) ++ 0x2C :: body, ?_, ?_, ?_,
        Or.inr ⟨fun _ ↦ trivial, body, hinside, rfl⟩, congrArg _ hvalues, ?_⟩
      · exact List.forall_mem_cons.mpr ⟨hisLabel, hlabels⟩
      · rintro part (_ | ⟨_, hpart⟩)
        · exact ⟨hspace, isGap_nil⟩
        · exact hgaps part hpart
      · exact List.forall_mem_cons.mpr ⟨hreads, hparts⟩
      · rw [separator_next hempty]
        simp only [List.append_assoc, List.nil_append, List.cons_append]

theorem emits_close (output : TextFormatter) :
    ∃ gap, extended.IsGap gap ∧ Emits output output.endl.unindent.margin gap := by
  obtain ⟨gap, hgap, hmargin⟩ := emits_newElement true output.unindent
  exact ⟨gap, hgap, hmargin⟩

theorem reads_print {value : JsonValue} (hvalue : IsRegular value) : PrintsAs value := by
  induction hvalue with
  | null => exact fun output ↦ ⟨_, emits_put _ (List.all_eq_true.mp rfl) output, .scalar .null⟩
  | boolean value =>
    intro output
    cases value with
    | false => exact ⟨_, emits_put _ (List.all_eq_true.mp rfl) output, .scalar .false⟩
    | true => exact ⟨_, emits_put _ (List.all_eq_true.mp rfl) output, .scalar .true⟩
  | number hvalue =>
    obtain ⟨hliteral, hsame, hprintable⟩ := isDecimalLiteral_decimal hvalue
    refine fun output ↦ ⟨_, emits_put _ hprintable output, ?_⟩
    rw [← hsame]
    exact .scalar (.number hliteral)
  | string value =>
    intro output
    refine ⟨_, ?_, .scalar (.string (isStringLiteral_convertToJSON value))⟩
    have hopen := emits_put [QUOTATION_MARK] (List.all_eq_true.mp rfl) output
    have hbody := emits_put _ (isPrintable_convertToJSON value) (output.put [QUOTATION_MARK])
    have hclose := emits_put [QUOTATION_MARK] (List.all_eq_true.mp rfl)
      ((output.put [QUOTATION_MARK]).put (convertToJSON value))
    exact hopen.trans (hbody.trans hclose)
  | object hsorted hfields ih =>
    rename_i fields
    intro output
    have hopen := (emits_put [0x7B] (List.all_eq_true.mp rfl) output).trans (emits_indent _)
    obtain ⟨inside, hinside, hbody⟩ := prints_fields ih true (output.put (ofASCII "\x7b")).indent
    obtain ⟨gap, hgap, hmargin⟩ :=
      emits_close (printFields true fields (output.put (ofASCII "\x7b")).indent)
    obtain ⟨parts, body, hlabels, hgaps, hparts, hreads, hvalues, htext⟩ := hbody gap hgap
    have hclose := emits_put [0x7D] (List.all_eq_true.mp rfl)
      (printFields true fields (output.put (ofASCII "\x7b")).indent).endl.unindent.margin
    have hloaded : (addFields .empty fields).entries = fields :=
      congrArg SortedMap.entries (SortedMap.foldl_update_entries ⟨fields, hsorted⟩)
    refine ⟨0x7B :: (body ++ [0x7D]), ?_, ?_⟩
    · have hall := hopen.trans (hinside.trans (hmargin.trans hclose))
      rw [← List.append_assoc inside, htext] at hall
      exact hall
    · have hobject := JsonSyntax.Reads.object hlabels hgaps hparts hreads
      rw [hvalues] at hobject
      rw [← hloaded]
      exact hobject
  | array helements ih =>
    rename_i elements
    intro output
    have hopen := (emits_put [0x5B] (List.all_eq_true.mp rfl) output).trans (emits_indent _)
    obtain ⟨inside, hinside, hbody⟩ := prints_elements ih true (output.put (ofASCII "[")).indent
    obtain ⟨gap, hgap, hmargin⟩ :=
      emits_close (printElements true elements (output.put (ofASCII "[")).indent)
    obtain ⟨parts, body, hgaps, hparts, hreads, hvalues, htext⟩ := hbody gap hgap
    have hclose := emits_put [0x5D] (List.all_eq_true.mp rfl)
      (printElements true elements (output.put (ofASCII "[")).indent).endl.unindent.margin
    refine ⟨0x5B :: (body ++ [0x5D]), ?_, ?_⟩
    · have hall := hopen.trans (hinside.trans (hmargin.trans hclose))
      rw [← List.append_assoc inside, htext] at hall
      exact hall
    · have harray := JsonSyntax.Reads.array hgaps hparts hreads
      rw [hvalues] at harray
      exact harray

/-- Assumes: a regular value. Its text is parsed as this value. -/
theorem parse_printed {value : JsonValue} (hvalue : IsRegular value) (indent : ℕ) :
    parse (printed indent value) = some value := by
  obtain ⟨text, hemits, hreads⟩ := reads_print hvalue (TextFormatter.new indent)
  have hunits : ∀ unit ∈ text, unit ≠ CARRIAGE_RETURN ∧ unit ≠ 0 := by
    intro unit hunit
    rcases hemits.2 unit hunit with hprintable | rfl
    · constructor
      all_goals
        rintro rfl
        exact absurd hprintable (by decide)
    · decide
  have hdocument : documentText text = text := by
    unfold documentText
    rw [List.filter_eq_self.mpr fun unit hunit ↦ decide_eq_true (hunits unit hunit).1,
      List.takeWhile_eq_self_iff]
    exact fun unit hunit ↦ decide_eq_true (hunits unit hunit).2
  have htext : printed indent value = text := toString_of_emits hemits
  rw [htext]
  apply parse_of_isDocument
  rw [hdocument]
  exact ⟨[], text, [], by rw [List.append_nil, List.nil_append], isGap_nil, isGap_nil, hreads⟩

/-- An array with a negative number and a string of controls. -/
theorem parse_printed_nested :
    parse (printed 2 (.object [([0x61], .array [.number (-1), .string [0x22, 0x0A, 0xD83D, 0xDE00]]),
        ([0x62], .null)])) =
      some (.object [([0x61], .array [.number (-1), .string [0x22, 0x0A, 0xD83D, 0xDE00]]),
        ([0x62], .null)]) := by
  apply parse_printed
  have hnumber : IsRegular (.number (-1)) := .number (by decide)
  have harray : IsRegular (.array [.number (-1), .string [0x22, 0x0A, 0xD83D, 0xDE00]]) := by
    apply IsRegular.array
    intro element helement
    rcases List.mem_pair.mp helement with rfl | rfl
    · exact hnumber
    · exact .string _
  apply IsRegular.object
  · exact List.pairwise_pair.mpr (by decide)
  · intro field hfield
    rcases List.mem_pair.mp hfield with rfl | rfl
    · exact harray
    · exact .null

end JsonValue

end TSDuck
