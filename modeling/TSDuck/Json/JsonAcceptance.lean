import TSDuck.Json.JsonParser

/-!
# What the JSON parser accepts

`extended` is the syntax of the texts which are accepted.

`parse_eq_some_iff` states that a text is parsed as a value if and only if, without its carriage
returns and up to a null character, it is a document with this value in the extended syntax.
-/

namespace TSDuck

namespace JsonValue

open TextLines U16String UChar

/-- A string literal and its value. -/
def IsStringLiteral (text value : U16String) : Prop :=
  ∃ body, value = convertFromJSON body ∧ isQuoted QUOTATION_MARK body = true ∧ LINE_FEED ∉ body ∧
    text = QUOTATION_MARK :: (body ++ [QUOTATION_MARK])

/-- A literal, a string or a number and its value. -/
inductive IsScalar : U16String → JsonValue → Prop
  | null : IsScalar (ofASCII "null") .null
  | true : IsScalar (ofASCII "true") (.boolean Bool.true)
  | false : IsScalar (ofASCII "false") (.boolean Bool.false)
  | string {text value : U16String} (hstring : IsStringLiteral text value) :
      IsScalar text (.string value)
  | number {text : U16String} (hnumber : IsDecimalLiteral text) : IsScalar text (ofLiteral text)

/-- The fields of an object after some more of them. -/
def addFields (fields : Fields) (added : List (U16String × JsonValue)) : Fields :=
  added.foldl (fun fields field ↦ fields.update field.1 fun _ ↦ field.2) fields

def extended : JsonSyntax UChar U16String JsonValue where
  IsSpace unit := isSpace unit = true
  openArray := 0x5B
  closeArray := 0x5D
  openObject := 0x7B
  closeObject := 0x7D
  comma := 0x2C
  colon := 0x3A
  Scalar := IsScalar
  IsName := IsStringLiteral
  array := .array
  object fields := .object (addFields .empty fields).entries
  trailingComma := True

theorem exists_gap (lines : TextLines) :
    ∃ gap, extended.IsGap gap ∧ remaining lines = gap ++ remaining (skipWhiteSpace lines) := by
  refine ⟨(remaining lines).takeWhile isSpace, fun _ h ↦ List.mem_takeWhile_imp h, ?_⟩
  rw [remaining_skipWhiteSpace, List.takeWhile_append_dropWhile]

theorem isGap_nil : extended.IsGap [] := nofun

theorem isGap_append {first second : U16String} (hfirst : extended.IsGap first)
    (hsecond : extended.IsGap second) : extended.IsGap (first ++ second) := by
  intro unit hunit
  rcases List.mem_append.mp hunit with hunit | hunit
  · exact hfirst unit hunit
  · exact hsecond unit hunit

variable {lines : TextLines} {value : JsonValue} {turns : ℕ} {rest gap text body : U16String}

theorem of_parseScalar {rest : TextLines} (hparse : parseScalar lines = some (value, rest))
    (hlines : HaveNoLineFeed lines) :
    HaveNoLineFeed rest ∧ ∃ text, IsScalar text value ∧ remaining lines = text ++ remaining rest := by
  unfold parseScalar at hparse
  split at hparse
  · rename_i hnull
    obtain ⟨rfl, rfl⟩ := Prod.mk.inj (Option.some.inj hparse)
    obtain ⟨hremaining, hrest⟩ := of_matchText hnull hlines
    exact ⟨hrest, _, .null, hremaining⟩
  · split at hparse
    · rename_i htrue
      obtain ⟨rfl, rfl⟩ := Prod.mk.inj (Option.some.inj hparse)
      obtain ⟨hremaining, hrest⟩ := of_matchText htrue hlines
      exact ⟨hrest, _, .true, hremaining⟩
    · split at hparse
      · rename_i hfalse
        obtain ⟨rfl, rfl⟩ := Prod.mk.inj (Option.some.inj hparse)
        obtain ⟨hremaining, hrest⟩ := of_matchText hfalse hlines
        exact ⟨hrest, _, .false, hremaining⟩
      · split at hparse
        · rename_i hstring
          obtain ⟨rfl, rfl⟩ := Prod.mk.inj (Option.some.inj hparse)
          obtain ⟨hrest, body, hvalue, hquoted, hfeed, hremaining⟩ :=
            of_parseJSONStringLiteral hstring hlines
          exact ⟨hrest, _, .string ⟨body, hvalue, hquoted, hfeed, rfl⟩, hremaining⟩
        · rw [Option.map_eq_some_iff] at hparse
          obtain ⟨⟨literal, after⟩, hnumber, hsame⟩ := hparse
          obtain ⟨rfl, rfl⟩ := Prod.mk.inj hsame
          obtain ⟨hrest, hliteral, hremaining⟩ := of_parseNumericLiteral hnumber hlines
          exact ⟨hrest, _, .number hliteral, hremaining⟩

/-! ### What is accepted is in the syntax -/

/-- What is parsed as a value is one, after white space. -/
def SoundValue (turns : ℕ) : Prop :=
  ∀ {lines rest : TextLines} {value : JsonValue}, parseValue turns lines = some (value, rest) →
    HaveNoLineFeed lines → HaveNoLineFeed rest ∧ ∃ before text, extended.IsGap before ∧
      extended.Reads text value ∧ remaining lines = before ++ text ++ remaining rest

/-- What the loop accepts ends the inside of an array. -/
def SoundElements (turns : ℕ) : Prop :=
  ∀ {lines rest : TextLines} {known result : List JsonValue},
    parseElements turns known lines = some (result, rest) → HaveNoLineFeed lines →
      HaveNoLineFeed rest ∧ ∃ (elements : List (JsonElement UChar JsonValue)) (body : U16String),
        (∀ element ∈ elements, extended.IsGap element.before ∧ extended.IsGap element.after) ∧
          (∀ element ∈ elements, extended.Reads element.text element.value) ∧
            extended.IsBody (elements.map JsonElement.spaced) body ∧
              result = known ++ elements.map JsonElement.value ∧
                remaining lines = body ++ [0x5D] ++ remaining rest

/-- What the loop accepts ends the inside of an object. -/
def SoundFields (turns : ℕ) : Prop :=
  ∀ {lines rest : TextLines} {known result : Fields},
    parseFields turns known lines = some (result, rest) → HaveNoLineFeed lines →
      HaveNoLineFeed rest ∧
        ∃ (members : List (JsonMember UChar U16String JsonValue)) (body : U16String),
          (∀ member ∈ members, extended.IsLabel member.label member.name) ∧ (∀ member ∈ members,
              extended.IsGap member.element.before ∧ extended.IsGap member.element.after) ∧
                (∀ member ∈ members, extended.Reads member.element.text member.element.value) ∧
                  extended.IsBody (members.map JsonMember.spaced) body ∧
                    result = addFields known (members.map JsonMember.field) ∧
                      remaining lines = body ++ [0x7D] ++ remaining rest

theorem soundElements_succ (hvalue : SoundValue turns) (helements : SoundElements turns) :
    SoundElements (turns + 1) := by
  intro lines rest known result hparse hlines
  obtain ⟨gap, hgap, hskip⟩ := exists_gap lines
  have hstart := hlines.skipWhiteSpace
  rw [parseElements] at hparse
  dsimp only at hparse
  split at hparse
  · rename_i hclose
    obtain ⟨rfl, rfl⟩ := Prod.mk.inj (Option.some.inj hparse)
    obtain ⟨hremaining, hrest⟩ := of_matchText hclose hstart
    refine ⟨hrest, [], gap, nofun, nofun, hgap, (List.append_nil _).symm, ?_⟩
    rw [hskip, hremaining, List.append_assoc]
    rfl
  · rw [Option.bind_eq_some_iff] at hparse
    obtain ⟨⟨value, after⟩, hread, hparse⟩ := hparse
    obtain ⟨hafter, before, text, hbefore, hreads, htext⟩ := hvalue hread hstart
    obtain ⟨last, hlast, hnext⟩ := exists_gap after
    have hnextLines := hafter.skipWhiteSpace
    have hgaps : extended.IsGap (gap ++ before) ∧ extended.IsGap last :=
      ⟨isGap_append hgap hbefore, hlast⟩
    dsimp only at hparse
    split at hparse
    · rename_i hclose
      obtain ⟨rfl, rfl⟩ := Prod.mk.inj (Option.some.inj hparse)
      obtain ⟨hremaining, hrest⟩ := of_matchText hclose hnextLines
      refine ⟨hrest, [⟨gap ++ before, text, last, value⟩], _, ?_, ?_, Or.inl ⟨rfl, rfl⟩, rfl, ?_⟩
      · exact List.forall_mem_singleton.mpr hgaps
      · exact List.forall_mem_singleton.mpr hreads
      · rw [hskip, htext, hnext, hremaining]
        simp only [JsonElement.spaced, List.append_assoc]
        rfl
    · rw [Option.bind_eq_some_iff] at hparse
      obtain ⟨more, hcomma, hparse⟩ := hparse
      obtain ⟨hremaining, hmore⟩ := of_matchText hcomma hnextLines
      obtain ⟨hrest, elements, body, hinside, hvalues, hbody, hresult, htail⟩ :=
        helements hparse hmore
      refine ⟨hrest, ⟨gap ++ before, text, last, value⟩ :: elements, _, ?_, ?_,
        Or.inr ⟨fun _ ↦ trivial, body, hbody, rfl⟩, ?_, ?_⟩
      · exact List.forall_mem_cons.mpr ⟨hgaps, hinside⟩
      · rintro element (_ | ⟨_, helement⟩)
        · exact hreads
        · exact hvalues element helement
      · rw [hresult, List.append_assoc]
        rfl
      · rw [hskip, htext, hnext, hremaining, htail]
        simp only [JsonElement.spaced, List.append_assoc, List.cons_append]
        rfl

theorem soundFields_succ (hvalue : SoundValue turns) (hfields : SoundFields turns) :
    SoundFields (turns + 1) := by
  intro lines rest known result hparse hlines
  obtain ⟨gap, hgap, hskip⟩ := exists_gap lines
  have hstart := hlines.skipWhiteSpace
  rw [parseFields] at hparse
  dsimp only at hparse
  split at hparse
  · rename_i hclose
    obtain ⟨rfl, rfl⟩ := Prod.mk.inj (Option.some.inj hparse)
    obtain ⟨hremaining, hrest⟩ := of_matchText hclose hstart
    refine ⟨hrest, [], gap, nofun, nofun, nofun, hgap, rfl, ?_⟩
    rw [hskip, hremaining, List.append_assoc]
    rfl
  · rw [Option.bind_eq_some_iff] at hparse
    obtain ⟨⟨name, afterName⟩, hname, hparse⟩ := hparse
    obtain ⟨hafterName, literal, hliteral, hquoted, hfeed, hnameText⟩ :=
      of_parseJSONStringLiteral hname hstart
    obtain ⟨beforeColon, hbeforeColon, hskipName⟩ := exists_gap afterName
    rw [Option.bind_eq_some_iff] at hparse
    obtain ⟨afterColon, hcolon, hparse⟩ := hparse
    obtain ⟨hcolonText, hafterColon⟩ := of_matchText hcolon hafterName.skipWhiteSpace
    obtain ⟨beforeValue, hbeforeValue, hskipColon⟩ := exists_gap afterColon
    rw [Option.bind_eq_some_iff] at hparse
    obtain ⟨⟨value, after⟩, hread, hparse⟩ := hparse
    obtain ⟨hafter, before, text, hbefore, hreads, htext⟩ :=
      hvalue hread hafterColon.skipWhiteSpace
    obtain ⟨last, hlast, hnext⟩ := exists_gap after
    have hnextLines := hafter.skipWhiteSpace
    obtain ⟨nameText, hnameEq⟩ :
        ∃ nameText, nameText = QUOTATION_MARK :: (literal ++ [QUOTATION_MARK]) := ⟨_, rfl⟩
    rw [← hnameEq] at hnameText
    have hlabel : extended.IsLabel (gap ++ nameText ++ beforeColon ++ [0x3A]) name :=
      ⟨gap, nameText, beforeColon, rfl, hgap, hbeforeColon, literal, hliteral, hquoted, hfeed,
        hnameEq⟩
    have hgaps : extended.IsGap (beforeValue ++ before) ∧ extended.IsGap last :=
      ⟨isGap_append hbeforeValue hbefore, hlast⟩
    dsimp only at hparse
    split at hparse
    · rename_i hclose
      obtain ⟨rfl, rfl⟩ := Prod.mk.inj (Option.some.inj hparse)
      obtain ⟨hremaining, hrest⟩ := of_matchText hclose hnextLines
      refine ⟨hrest, [⟨gap ++ nameText ++ beforeColon ++ [0x3A], name,
        ⟨beforeValue ++ before, text, last, value⟩⟩], _, ?_, ?_, ?_, Or.inl ⟨rfl, rfl⟩, rfl, ?_⟩
      · exact List.forall_mem_singleton.mpr hlabel
      · exact List.forall_mem_singleton.mpr hgaps
      · exact List.forall_mem_singleton.mpr hreads
      · rw [hskip, hnameText, hskipName, hcolonText, hskipColon, htext, hnext, hremaining]
        simp only [JsonMember.spaced, JsonElement.spaced, List.append_assoc]
        rfl
    · rw [Option.bind_eq_some_iff] at hparse
      obtain ⟨more, hcomma, hparse⟩ := hparse
      obtain ⟨hremaining, hmore⟩ := of_matchText hcomma hnextLines
      obtain ⟨hrest, members, body, hlabels, hinside, hvalues, hbody, hresult, htail⟩ :=
        hfields hparse hmore
      refine ⟨hrest, ⟨gap ++ nameText ++ beforeColon ++ [0x3A], name,
        ⟨beforeValue ++ before, text, last, value⟩⟩ :: members, _, ?_, ?_, ?_,
        Or.inr ⟨fun _ ↦ trivial, body, hbody, rfl⟩, hresult, ?_⟩
      · exact List.forall_mem_cons.mpr ⟨hlabel, hlabels⟩
      · rintro member (_ | ⟨_, hmember⟩)
        · exact hgaps
        · exact hinside member hmember
      · exact List.forall_mem_cons.mpr ⟨hreads, hvalues⟩
      · rw [hskip, hnameText, hskipName, hcolonText, hskipColon, htext, hnext, hremaining, htail]
        simp only [JsonMember.spaced, JsonElement.spaced, List.append_assoc, List.cons_append]
        rfl

theorem soundValue_succ (helements : SoundElements turns) (hfields : SoundFields turns) :
    SoundValue (turns + 1) := by
  intro lines rest value hparse hlines
  obtain ⟨gap, hgap, hskip⟩ := exists_gap lines
  have hstart := hlines.skipWhiteSpace
  rw [parseValue] at hparse
  split at hparse
  · rename_i hscalar
    obtain rfl := Option.some.inj hparse
    obtain ⟨hrest, text, hkind, hremaining⟩ := of_parseScalar hscalar hstart
    refine ⟨hrest, gap, text, hgap, .scalar hkind, ?_⟩
    rw [hskip, hremaining, List.append_assoc]
  · split at hparse
    · rename_i hopen
      obtain ⟨hremaining, hinside⟩ := of_matchText hopen hstart
      rw [Option.map_eq_some_iff] at hparse
      obtain ⟨⟨fields, after⟩, hread, hsame⟩ := hparse
      obtain ⟨rfl, rfl⟩ := Prod.mk.inj hsame
      obtain ⟨hrest, members, body, hlabels, hgaps, hvalues, hbody, hresult, htail⟩ :=
        hfields hread hinside
      refine ⟨hrest, gap, 0x7B :: (body ++ [0x7D]), hgap, ?_, ?_⟩
      · rw [hresult]
        exact .object hlabels hgaps hvalues hbody
      · rw [hskip, hremaining, htail]
        simp only [List.append_assoc, List.cons_append]
        rfl
    · split at hparse
      · rename_i hopen
        obtain ⟨hremaining, hinside⟩ := of_matchText hopen hstart
        rw [Option.map_eq_some_iff] at hparse
        obtain ⟨⟨result, after⟩, hread, hsame⟩ := hparse
        obtain ⟨rfl, rfl⟩ := Prod.mk.inj hsame
        obtain ⟨hrest, elements, body, hgaps, hvalues, hbody, hresult, htail⟩ :=
          helements hread hinside
        refine ⟨hrest, gap, 0x5B :: (body ++ [0x5D]), hgap, ?_, ?_⟩
        · rw [hresult]
          exact .array hgaps hvalues hbody
        · rw [hskip, hremaining, htail]
          simp only [List.append_assoc, List.cons_append]
          rfl
      · cases hparse

theorem sound (turns : ℕ) : SoundValue turns ∧ SoundElements turns ∧ SoundFields turns := by
  induction turns with
  | zero => exact ⟨nofun, nofun, nofun⟩
  | succ turns ih =>
    obtain ⟨hvalue, helements, hfields⟩ := ih
    exact ⟨soundValue_succ helements hfields, soundElements_succ hvalue helements,
      soundFields_succ hvalue hfields⟩

/-! ### What is in the syntax is accepted -/

/-- What follows a value. -/
def Follows (rest : U16String) : Prop :=
  ∀ unit ∈ rest.head?, isSpace unit = true ∨ unit = 0x2C ∨ unit = 0x5D ∨ unit = 0x7D

/-- The beginning of a value: what it is not. -/
def StartsValue (text : U16String) : Prop :=
  ∃ unit more, text = unit :: more ∧ isSpace unit = false ∧ unit ≠ 0x2C ∧ unit ≠ 0x5D ∧ unit ≠ 0x7D

theorem Follows.isDelimited (hrest : Follows rest) : IsDelimited rest := by
  have hspaces : ∀ code ∈ UString.spaceCodes, isDigit (UInt16.ofNat code) = false ∧
      isAlpha (UInt16.ofNat code) = false ∧ UInt16.ofNat code ≠ 0x2E ∧ UInt16.ofNat code ≠ 0x5F ∧
        UInt16.ofNat code ≠ 0x2B ∧ UInt16.ofNat code ≠ 0x2D := by
    decide
  intro unit hunit
  rcases hrest unit hunit with hspace | rfl | rfl | rfl
  · have hmem : unit.toNat ∈ UString.spaceCodes := List.contains_iff_mem.mp hspace
    have hcode := hspaces unit.toNat hmem
    rw [UInt16.ofNat_toNat] at hcode
    exact hcode
  · decide
  · decide
  · decide

theorem remaining_skip (hremaining : remaining lines = gap ++ rest) (hgap : extended.IsGap gap)
    (hrest : ∀ unit ∈ rest.head?, isSpace unit = false) : remaining (skipWhiteSpace lines) = rest := by
  rw [remaining_skipWhiteSpace, hremaining, List.dropWhile_append_of_pos hgap]
  cases rest with
  | nil => rfl
  | cons unit more =>
    rw [List.dropWhile_cons_of_neg]
    rw [hrest unit rfl]
    exact Bool.false_ne_true

theorem follows_gap (hgap : extended.IsGap gap) (hrest : Follows rest) :
    Follows (gap ++ rest) := by
  apply head?_append_imp
  · exact fun unit hunit ↦ Or.inl (hgap unit (List.mem_of_head? hunit))
  · exact hrest

theorem startsValue_of_reads (hreads : extended.Reads text value) : StartsValue text := by
  cases hreads with
  | scalar hscalar =>
    cases hscalar with
    | null => exact ⟨0x6E, _, rfl, by decide⟩
    | true => exact ⟨0x74, _, rfl, by decide⟩
    | false => exact ⟨0x66, _, rfl, by decide⟩
    | string hstring =>
      obtain ⟨body, -, -, -, rfl⟩ := hstring
      exact ⟨QUOTATION_MARK, _, rfl, by decide⟩
    | number hnumber =>
      obtain ⟨unit, hunit, hkind⟩ := hnumber.head?_mem
      cases text with
      | nil => cases hunit
      | cons first more =>
        obtain rfl := Option.some.inj hunit
        refine ⟨first, more, rfl, ?_⟩
        rcases hkind with hdigit | rfl | rfl
        · have hother : ∀ code : UChar, isDigit code = false → first ≠ code := by
            rintro code hcode rfl
            rw [hdigit] at hcode
            cases hcode
          exact ⟨(of_isDigit hdigit).1, hother _ (by decide), hother _ (by decide),
            hother _ (by decide)⟩
        · decide
        · decide
  | array => exact ⟨0x5B, _, rfl, by decide⟩
  | object => exact ⟨0x7B, _, rfl, by decide⟩

theorem exists_parseScalar (hscalar : IsScalar text value) (hlines : HaveNoLineFeed lines)
    (hremaining : remaining lines = text ++ rest) (hrest : Follows rest) :
    ∃ after, parseScalar lines = some (value, after) ∧ remaining after = rest := by
  have hnone : ∀ str : U16String, str ≠ [] → text.head? ≠ str.head? → text ≠ [] →
      matchText str lines = none := by
    intro str hne hhead htext
    apply matchText_eq_none hlines hne
    rw [hremaining, List.head?_append_of_ne_nil _ htext]
    exact hhead
  unfold parseScalar
  cases hscalar with
  | null =>
    obtain ⟨after, hmatch, hafter⟩ := exists_matchText hremaining (by decide) (by decide)
    rw [hmatch]
    exact ⟨after, rfl, hafter⟩
  | true =>
    obtain ⟨after, hmatch, hafter⟩ := exists_matchText hremaining (by decide) (by decide)
    rw [hnone (ofASCII "null") (by decide) (by decide) (by decide), hmatch]
    exact ⟨after, rfl, hafter⟩
  | false =>
    obtain ⟨after, hmatch, hafter⟩ := exists_matchText hremaining (by decide) (by decide)
    rw [hnone (ofASCII "null") (by decide) (by decide) (by decide),
      hnone (ofASCII "true") (by decide) (by decide) (by decide), hmatch]
    exact ⟨after, rfl, hafter⟩
  | string hstring =>
    obtain ⟨body, rfl, hquoted, hfeed, rfl⟩ := hstring
    obtain ⟨after, hparse, hafter⟩ := exists_parseJSONStringLiteral hremaining hquoted hfeed
    have hquote : ∀ str : U16String, str ≠ [] → str.head? ≠ some QUOTATION_MARK →
        matchText str lines = none :=
      fun str hne hhead ↦ hnone str hne (fun h ↦ hhead h.symm) (List.cons_ne_nil _ _)
    rw [hquote (ofASCII "null") (by decide) (by decide),
      hquote (ofASCII "true") (by decide) (by decide),
      hquote (ofASCII "false") (by decide) (by decide), hparse]
    exact ⟨after, rfl, hafter⟩
  | number hnumber =>
    obtain ⟨unit, hunit, hkind⟩ := hnumber.head?_mem
    have htext : text ≠ [] := by
      rintro rfl
      cases hunit
    have hother : ∀ code : UChar, isDigit code = false → code ≠ 0x2D → code ≠ 0x2B →
        text.head? ≠ some code := by
      intro code hdigit hminus hplus hhead
      rw [hunit, Option.some.injEq] at hhead
      subst hhead
      rw [hdigit] at hkind
      rcases hkind with h | h | h
      · cases h
      · exact hminus h
      · exact hplus h
    have hstring : parseJSONStringLiteral lines = none := by
      apply parseJSONStringLiteral_eq_none hlines
      rw [hremaining, List.head?_append_of_ne_nil _ htext]
      exact hother _ (by decide) (by decide) (by decide)
    obtain ⟨after, hparse, hafter⟩ := parseNumericLiteral_eq_some hremaining hnumber hrest.isDelimited
    rw [hnone (ofASCII "null") (by decide) (hother 0x6E (by decide) (by decide) (by decide)) htext,
      hnone (ofASCII "true") (by decide) (hother 0x74 (by decide) (by decide) (by decide)) htext,
      hnone (ofASCII "false") (by decide) (hother 0x66 (by decide) (by decide) (by decide)) htext,
      hstring, hparse]
    exact ⟨after, rfl, hafter⟩

theorem parseScalar_eq_none (hlines : HaveNoLineFeed lines) {unit : UChar}
    (hhead : (remaining lines).head? = some unit) (hunit : unit = 0x5B ∨ unit = 0x7B) :
    parseScalar lines = none := by
  have hnone : ∀ str : U16String, str ≠ [] → str.head? ≠ some 0x5B → str.head? ≠ some 0x7B →
      matchText str lines = none := by
    intro str hne harray hobject
    apply matchText_eq_none hlines hne
    rw [hhead]
    rcases hunit with rfl | rfl
    · exact fun h ↦ harray h.symm
    · exact fun h ↦ hobject h.symm
  have hstring : parseJSONStringLiteral lines = none := by
    apply parseJSONStringLiteral_eq_none hlines
    rw [hhead]
    rcases hunit with rfl | rfl <;> decide
  have hnumber : parseNumericLiteral false true lines = none := by
    apply parseNumericLiteral_eq_none hlines
    intro other hother
    rw [hhead] at hother
    obtain rfl := Option.some.inj hother
    rcases hunit with rfl | rfl <;> decide
  unfold parseScalar
  rw [hnone (ofASCII "null") (by decide) (by decide) (by decide),
    hnone (ofASCII "true") (by decide) (by decide) (by decide),
    hnone (ofASCII "false") (by decide) (by decide) (by decide), hstring, hnumber]
  rfl

/-- What is read as a value is parsed as this value. -/
def Accepted (text : U16String) (value : JsonValue) : Prop :=
  ∀ (turns : ℕ) (lines : TextLines) (before rest : U16String), 2 * text.length ≤ turns →
    HaveNoLineFeed lines → extended.IsGap before → remaining lines = before ++ (text ++ rest) →
      Follows rest → ∃ after, parseValue turns lines = some (value, after) ∧
        HaveNoLineFeed after ∧ remaining after = rest

theorem remaining_skip_value (htext : StartsValue text) (hgap : extended.IsGap gap)
    (hremaining : remaining lines = gap ++ (text ++ rest)) :
    remaining (skipWhiteSpace lines) = text ++ rest := by
  obtain ⟨unit, more, rfl, hspace, -⟩ := htext
  apply remaining_skip hremaining hgap
  intro other hother
  rw [← Option.some.inj hother]
  exact hspace

theorem accepted_scalar (hscalar : IsScalar text value) :
    Accepted text value := by
  intro turns lines before rest hturns hlines hbefore hremaining hrest
  have hstarts := startsValue_of_reads (.scalar hscalar)
  have hstart := remaining_skip_value hstarts hbefore hremaining
  have hlength : 0 < text.length := by
    obtain ⟨unit, more, rfl, -⟩ := hstarts
    exact Nat.succ_pos _
  obtain ⟨after, hparse, hafter⟩ :=
    exists_parseScalar hscalar hlines.skipWhiteSpace hstart hrest
  obtain ⟨turns, rfl⟩ := Nat.exists_eq_succ_of_ne_zero (show turns ≠ 0 by omega)
  refine ⟨after, ?_, (of_parseScalar hparse hlines.skipWhiteSpace).1, hafter⟩
  rw [parseValue, hparse]

theorem matchText_value_eq_none (hlines : HaveNoLineFeed lines) (htext : StartsValue text)
    (hremaining : remaining lines = text ++ rest) {str : U16String}
    (hstr : str.head? = some 0x5D ∨ str.head? = some 0x7D) :
    matchText str lines = none := by
  obtain ⟨unit, more, rfl, -, -, harray, hobject⟩ := htext
  apply matchText_eq_none hlines
  · rintro rfl
    rcases hstr with h | h <;> cases h
  · rw [hremaining]
    rcases hstr with h | h
    · rw [h]
      exact fun hsame ↦ harray (Option.some.inj hsame)
    · rw [h]
      exact fun hsame ↦ hobject (Option.some.inj hsame)

theorem exists_parseElement {element : JsonElement UChar JsonValue}
    (haccepted : Accepted element.text element.value) (hgap : extended.IsGap element.after)
    (unit : UChar) (hunit : isSpace unit = false ∧ (unit = 0x2C ∨ unit = 0x5D ∨ unit = 0x7D))
    (hturns : 2 * element.text.length ≤ turns) (hlines : HaveNoLineFeed lines) {before more : U16String}
    (hbefore : extended.IsGap before) (hremaining : remaining lines =
      before ++ (element.text ++ (element.after ++ unit :: more))) :
    ∃ after, parseValue turns lines = some (element.value, after) ∧ HaveNoLineFeed after ∧
      remaining (skipWhiteSpace after) = unit :: more := by
  have hfollows : Follows (element.after ++ unit :: more) := by
    apply follows_gap hgap
    intro other hother
    rw [← Option.some.inj hother]
    exact Or.inr hunit.2
  obtain ⟨after, hparse, hafter, hrest⟩ := haccepted _ _ _ _ hturns hlines hbefore hremaining hfollows
  refine ⟨after, hparse, hafter, remaining_skip hrest hgap ?_⟩
  intro other hother
  rw [← Option.some.inj hother]
  exact hunit.1

theorem exists_parseElements {elements : List (JsonElement UChar JsonValue)}
    (hgaps : ∀ element ∈ elements, extended.IsGap element.before ∧ extended.IsGap element.after)
    (hstarts : ∀ element ∈ elements, StartsValue element.text)
    (haccepted : ∀ element ∈ elements, Accepted element.text element.value)
    (hbody : extended.IsBody (elements.map JsonElement.spaced) body)
    (hturns : 2 * body.length + 1 ≤ turns) (hlines : HaveNoLineFeed lines)
    (hremaining : remaining lines = body ++ 0x5D :: rest) (known : List JsonValue) :
    ∃ after, parseElements turns known lines =
        some (known ++ elements.map JsonElement.value, after) ∧
      HaveNoLineFeed after ∧ remaining after = rest := by
  obtain ⟨turns, rfl⟩ := Nat.exists_eq_succ_of_ne_zero (show turns ≠ 0 by omega)
  have hstartLines := hlines.skipWhiteSpace
  induction elements generalizing body turns lines known with
  | nil =>
    have hskip : remaining (skipWhiteSpace lines) = 0x5D :: rest := by
      apply remaining_skip hremaining hbody
      intro unit hunit
      rw [← Option.some.inj hunit]
      decide
    obtain ⟨after, hmatch, hafter⟩ :=
      exists_matchText (show _ = ofASCII "]" ++ rest from hskip) (by decide) (by decide)
    refine ⟨after, ?_, (of_matchText hmatch hstartLines).2, hafter⟩
    rw [parseElements, hmatch, List.map_nil, List.append_nil]
  | cons element elements ih =>
    have hgap := hgaps element List.mem_cons_self
    have hstart := hstarts element List.mem_cons_self
    have hvalue := haccepted element List.mem_cons_self
    obtain ⟨hlast, rfl⟩ | ⟨-, inside, hinside, rfl⟩ := hbody
    · have hsplit : remaining lines =
          element.before ++ (element.text ++ (element.after ++ 0x5D :: rest)) := by
        rw [hremaining]
        simp only [JsonElement.spaced, List.append_assoc]
      have hskip := remaining_skip_value hstart hgap.1 hsplit
      have hnone := matchText_value_eq_none hstartLines hstart hskip
        (show (ofASCII "]").head? = some 0x5D ∨ _ from Or.inl (by decide))
      have hlength : 2 * element.text.length ≤ turns := by
        simp only [JsonElement.spaced, List.length_append] at hturns
        omega
      obtain ⟨next, hparse, hnextLines, hnext⟩ :=
        exists_parseElement hvalue hgap.2 0x5D (by decide) hlength hstartLines isGap_nil hskip
      obtain ⟨after, hmatch, hafter⟩ :=
        exists_matchText (show _ = ofASCII "]" ++ rest from hnext) (by decide) (by decide)
      refine ⟨after, ?_, (of_matchText hmatch hnextLines.skipWhiteSpace).2, hafter⟩
      rw [parseElements, hnone, hparse, Option.bind_some]
      dsimp only
      rw [hmatch, List.map_eq_nil_iff.mp hlast]
      rfl
    · have hsplit : remaining lines = element.before ++
          (element.text ++ (element.after ++ 0x2C :: (inside ++ 0x5D :: rest))) := by
        rw [hremaining]
        simp only [JsonElement.spaced, List.append_assoc, List.cons_append]
        rfl
      have hskip := remaining_skip_value hstart hgap.1 hsplit
      have hnone := matchText_value_eq_none hstartLines hstart hskip
        (show (ofASCII "]").head? = some 0x5D ∨ _ from Or.inl (by decide))
      have hlength : 2 * element.text.length ≤ turns ∧ 2 * inside.length + 1 ≤ turns := by
        simp only [JsonElement.spaced, List.length_append, List.length_cons] at hturns
        omega
      obtain ⟨next, hparse, hnextLines, hnext⟩ :=
        exists_parseElement hvalue hgap.2 0x2C (by decide) hlength.1 hstartLines isGap_nil hskip
      have hclose : matchText (ofASCII "]") (skipWhiteSpace next) = none := by
        apply matchText_eq_none hnextLines.skipWhiteSpace (by decide)
        rw [hnext]
        show some 0x2C ≠ (ofASCII "]").head?
        decide
      obtain ⟨comma, hmatch, hcomma⟩ :=
        exists_matchText (show _ = ofASCII "," ++ (inside ++ 0x5D :: rest) from hnext) (by decide)
          (by decide)
      have hcommaLines := (of_matchText hmatch hnextLines.skipWhiteSpace).2
      obtain ⟨turns, rfl⟩ := Nat.exists_eq_succ_of_ne_zero (show turns ≠ 0 by omega)
      obtain ⟨after, hresult, hafterLines, hafter⟩ :=
        ih (List.forall_mem_cons.mp hgaps).2
          (List.forall_mem_cons.mp hstarts).2
          (List.forall_mem_cons.mp haccepted).2 hinside
          hcommaLines hcomma (known ++ [element.value]) turns hlength.2 hcommaLines.skipWhiteSpace
      refine ⟨after, ?_, hafterLines, hafter⟩
      rw [parseElements, hnone, hparse, Option.bind_some]
      dsimp only
      rw [hclose, hmatch, Option.bind_some, hresult, List.append_assoc]
      rfl

theorem exists_parseLabel {label name : U16String} (hlabel : extended.IsLabel label name)
    (hlines : HaveNoLineFeed lines) (hremaining : remaining lines = label ++ rest) :
    matchText (ofASCII "\x7d") (skipWhiteSpace lines) = none ∧ ∃ afterName afterColon,
      parseJSONStringLiteral (skipWhiteSpace lines) = some (name, afterName) ∧
        matchText (ofASCII ":") (skipWhiteSpace afterName) = some afterColon ∧
          HaveNoLineFeed afterColon ∧ remaining afterColon = rest := by
  obtain ⟨before, text, last, rfl, hbefore, hlast, body, rfl, hquoted, hfeed, rfl⟩ := hlabel
  have hsplit : remaining lines = before ++ (QUOTATION_MARK :: (body ++ [QUOTATION_MARK]) ++
      (last ++ 0x3A :: rest)) := by
    rw [hremaining]
    simp only [List.append_assoc, List.cons_append]
    rfl
  have hskip := remaining_skip hsplit hbefore (by
    intro unit hunit
    rw [← Option.some.inj hunit]
    decide)
  have hclose : matchText (ofASCII "\x7d") (skipWhiteSpace lines) = none := by
    apply matchText_eq_none hlines.skipWhiteSpace (by decide)
    rw [hskip]
    show some QUOTATION_MARK ≠ (ofASCII "\x7d").head?
    decide
  obtain ⟨afterName, hname, hafterName⟩ := exists_parseJSONStringLiteral hskip hquoted hfeed
  have hnameLines := (of_parseJSONStringLiteral hname hlines.skipWhiteSpace).1
  have hcolon := remaining_skip hafterName hlast (by
    intro unit hunit
    rw [← Option.some.inj hunit]
    decide)
  obtain ⟨afterColon, hmatch, hafterColon⟩ :=
    exists_matchText (show _ = ofASCII ":" ++ rest from hcolon) (by decide) (by decide)
  exact ⟨hclose, afterName, afterColon, hname, hmatch,
    (of_matchText hmatch hnameLines.skipWhiteSpace).2, hafterColon⟩

theorem exists_parseFields {members : List (JsonMember UChar U16String JsonValue)}
    (hlabels : ∀ member ∈ members, extended.IsLabel member.label member.name)
    (hgaps : ∀ member ∈ members,
      extended.IsGap member.element.before ∧ extended.IsGap member.element.after)
    (hstarts : ∀ member ∈ members, StartsValue member.element.text)
    (haccepted : ∀ member ∈ members, Accepted member.element.text member.element.value)
    (hbody : extended.IsBody (members.map JsonMember.spaced) body)
    (hturns : 2 * body.length + 1 ≤ turns) (hlines : HaveNoLineFeed lines)
    (hremaining : remaining lines = body ++ 0x7D :: rest) (known : Fields) :
    ∃ after, parseFields turns known lines =
        some (addFields known (members.map JsonMember.field), after) ∧
      HaveNoLineFeed after ∧ remaining after = rest := by
  obtain ⟨turns, rfl⟩ := Nat.exists_eq_succ_of_ne_zero (show turns ≠ 0 by omega)
  have hstartLines := hlines.skipWhiteSpace
  induction members generalizing body turns lines known with
  | nil =>
    have hskip : remaining (skipWhiteSpace lines) = 0x7D :: rest := by
      apply remaining_skip hremaining hbody
      intro unit hunit
      rw [← Option.some.inj hunit]
      decide
    obtain ⟨after, hmatch, hafter⟩ :=
      exists_matchText (show _ = ofASCII "\x7d" ++ rest from hskip) (by decide) (by decide)
    refine ⟨after, ?_, (of_matchText hmatch hstartLines).2, hafter⟩
    rw [parseFields, hmatch]
    rfl
  | cons member members ih =>
    have hlabel := hlabels member List.mem_cons_self
    have hgap := hgaps member List.mem_cons_self
    have hstart := hstarts member List.mem_cons_self
    have hvalue := haccepted member List.mem_cons_self
    obtain ⟨hlast, rfl⟩ | ⟨-, inside, hinside, rfl⟩ := hbody
    · have hsplit : remaining lines = member.label ++ (member.element.before ++
          (member.element.text ++ (member.element.after ++ 0x7D :: rest))) := by
        rw [hremaining]
        simp only [JsonMember.spaced, JsonElement.spaced, List.append_assoc]
      obtain ⟨hnone, afterName, afterColon, hname, hcolon, hcolonLines, hafterColon⟩ :=
        exists_parseLabel hlabel hlines hsplit
      have hskip := remaining_skip_value hstart hgap.1 hafterColon
      have hlength : 2 * member.element.text.length ≤ turns := by
        simp only [JsonMember.spaced, JsonElement.spaced, List.length_append] at hturns
        omega
      obtain ⟨next, hparse, hnextLines, hnext⟩ :=
        exists_parseElement hvalue hgap.2 0x7D (by decide) hlength hcolonLines.skipWhiteSpace
          isGap_nil hskip
      obtain ⟨after, hmatch, hafter⟩ :=
        exists_matchText (show _ = ofASCII "\x7d" ++ rest from hnext) (by decide) (by decide)
      refine ⟨after, ?_, (of_matchText hmatch hnextLines.skipWhiteSpace).2, hafter⟩
      rw [parseFields, hnone, hname, Option.bind_some, hcolon, Option.bind_some, hparse,
        Option.bind_some]
      dsimp only
      rw [hmatch, List.map_eq_nil_iff.mp hlast]
      rfl
    · have hsplit : remaining lines = member.label ++ (member.element.before ++
          (member.element.text ++ (member.element.after ++ 0x2C :: (inside ++ 0x7D :: rest)))) := by
        rw [hremaining]
        simp only [JsonMember.spaced, JsonElement.spaced, List.append_assoc, List.cons_append]
        rfl
      obtain ⟨hnone, afterName, afterColon, hname, hcolon, hcolonLines, hafterColon⟩ :=
        exists_parseLabel hlabel hlines hsplit
      have hskip := remaining_skip_value hstart hgap.1 hafterColon
      have hlength : 2 * member.element.text.length ≤ turns ∧ 2 * inside.length + 1 ≤ turns := by
        simp only [JsonMember.spaced, JsonElement.spaced, List.length_append,
          List.length_cons] at hturns
        omega
      obtain ⟨next, hparse, hnextLines, hnext⟩ :=
        exists_parseElement hvalue hgap.2 0x2C (by decide) hlength.1 hcolonLines.skipWhiteSpace
          isGap_nil hskip
      have hclose : matchText (ofASCII "\x7d") (skipWhiteSpace next) = none := by
        apply matchText_eq_none hnextLines.skipWhiteSpace (by decide)
        rw [hnext]
        show some 0x2C ≠ (ofASCII "\x7d").head?
        decide
      obtain ⟨comma, hmatch, hcomma⟩ :=
        exists_matchText (show _ = ofASCII "," ++ (inside ++ 0x7D :: rest) from hnext) (by decide)
          (by decide)
      have hcommaLines := (of_matchText hmatch hnextLines.skipWhiteSpace).2
      obtain ⟨turns, rfl⟩ := Nat.exists_eq_succ_of_ne_zero (show turns ≠ 0 by omega)
      obtain ⟨after, hresult, hafterLines, hafter⟩ :=
        ih (List.forall_mem_cons.mp hlabels).2
          (List.forall_mem_cons.mp hgaps).2
          (List.forall_mem_cons.mp hstarts).2
          (List.forall_mem_cons.mp haccepted).2 hinside
          hcommaLines hcomma (known.update member.name fun _ ↦ member.element.value) turns
          hlength.2 hcommaLines.skipWhiteSpace
      refine ⟨after, ?_, hafterLines, hafter⟩
      rw [parseFields, hnone, hname, Option.bind_some, hcolon, Option.bind_some, hparse,
        Option.bind_some]
      dsimp only
      rw [hclose, hmatch, Option.bind_some, hresult]
      rfl

theorem accepted_array {elements : List (JsonElement UChar JsonValue)}
    (hgaps : ∀ element ∈ elements, extended.IsGap element.before ∧ extended.IsGap element.after)
    (hstarts : ∀ element ∈ elements, StartsValue element.text)
    (haccepted : ∀ element ∈ elements, Accepted element.text element.value)
    (hbody : extended.IsBody (elements.map JsonElement.spaced) body) :
    Accepted (0x5B :: (body ++ [0x5D])) (.array (elements.map JsonElement.value)) := by
  intro turns lines before rest hturns hlines hbefore hremaining _
  have hsplit : remaining lines = before ++ (ofASCII "[" ++ (body ++ 0x5D :: rest)) := by
    rw [hremaining, List.cons_append, List.append_assoc]
    rfl
  have hskip := remaining_skip hsplit hbefore (by
    intro unit hunit
    rw [← Option.some.inj hunit]
    decide)
  have hstartLines := hlines.skipWhiteSpace
  have hhead : (remaining (skipWhiteSpace lines)).head? = some 0x5B := by
    rw [hskip]
    rfl
  have hscalar := parseScalar_eq_none hstartLines hhead (Or.inl rfl)
  have hobject : matchText (ofASCII "\x7b") (skipWhiteSpace lines) = none := by
    apply matchText_eq_none hstartLines (by decide)
    rw [hhead]
    decide
  obtain ⟨inside, hmatch, hinside⟩ := exists_matchText hskip (by decide) (by decide)
  have hinsideLines := (of_matchText hmatch hstartLines).2
  rw [List.length_cons, List.length_append, List.length_singleton] at hturns
  obtain ⟨turns, rfl⟩ := Nat.exists_eq_succ_of_ne_zero (show turns ≠ 0 by omega)
  obtain ⟨after, hresult, hafterLines, hafter⟩ :=
    exists_parseElements hgaps hstarts haccepted hbody (show _ ≤ turns by omega) hinsideLines hinside
      []
  refine ⟨after, ?_, hafterLines, hafter⟩
  rw [parseValue, hscalar, hobject, hmatch]
  dsimp only
  rw [hresult]
  rfl

theorem accepted_object {members : List (JsonMember UChar U16String JsonValue)}
    (hlabels : ∀ member ∈ members, extended.IsLabel member.label member.name)
    (hgaps : ∀ member ∈ members,
      extended.IsGap member.element.before ∧ extended.IsGap member.element.after)
    (hstarts : ∀ member ∈ members, StartsValue member.element.text)
    (haccepted : ∀ member ∈ members, Accepted member.element.text member.element.value)
    (hbody : extended.IsBody (members.map JsonMember.spaced) body) :
    Accepted (0x7B :: (body ++ [0x7D]))
      (.object (addFields .empty (members.map JsonMember.field)).entries) := by
  intro turns lines before rest hturns hlines hbefore hremaining _
  have hsplit : remaining lines = before ++ (ofASCII "\x7b" ++ (body ++ 0x7D :: rest)) := by
    rw [hremaining, List.cons_append, List.append_assoc]
    rfl
  have hskip := remaining_skip hsplit hbefore (by
    intro unit hunit
    rw [← Option.some.inj hunit]
    decide)
  have hstartLines := hlines.skipWhiteSpace
  have hhead : (remaining (skipWhiteSpace lines)).head? = some 0x7B := by
    rw [hskip]
    rfl
  have hscalar := parseScalar_eq_none hstartLines hhead (Or.inr rfl)
  obtain ⟨inside, hmatch, hinside⟩ := exists_matchText hskip (by decide) (by decide)
  have hinsideLines := (of_matchText hmatch hstartLines).2
  rw [List.length_cons, List.length_append, List.length_singleton] at hturns
  obtain ⟨turns, rfl⟩ := Nat.exists_eq_succ_of_ne_zero (show turns ≠ 0 by omega)
  obtain ⟨after, hresult, hafterLines, hafter⟩ :=
    exists_parseFields hlabels hgaps hstarts haccepted hbody (show _ ≤ turns by omega) hinsideLines
      hinside .empty
  refine ⟨after, ?_, hafterLines, hafter⟩
  rw [parseValue, hscalar, hmatch]
  dsimp only
  rw [hresult]
  rfl

theorem accepted_of_reads (hreads : extended.Reads text value) :
    Accepted text value := by
  induction hreads with
  | scalar hscalar => exact accepted_scalar hscalar
  | array hgaps hreads hbody ih =>
    exact accepted_array hgaps (fun element helement ↦ startsValue_of_reads (hreads element helement)) ih
      hbody
  | object hlabels hgaps hreads hbody ih =>
    exact accepted_object hlabels hgaps
      (fun member hmember ↦ startsValue_of_reads (hreads member hmember)) ih hbody

/-- The text without carriage returns, up to a null character. -/
def documentText (text : U16String) : U16String :=
  (text.filter (· ≠ CARRIAGE_RETURN)).takeWhile (· ≠ 0)

theorem eof_iff (rest : TextLines) :
    eof (skipWhiteSpace rest) = true ↔ remaining (skipWhiteSpace rest) = [] := by
  rw [eof_skipWhiteSpace, List.isEmpty_iff]

theorem isDocument_of_parse (hparse : parse text = some value) :
    extended.IsDocument (documentText text) value := by
  unfold parse at hparse
  rw [Option.bind_eq_some_iff] at hparse
  obtain ⟨⟨read, rest⟩, hread, hparse⟩ := hparse
  dsimp only at hparse
  split_ifs at hparse with hend
  obtain rfl := Option.some.inj hparse
  obtain ⟨-, before, valueText, hbefore, hreads, hsplit⟩ :=
    (sound _).1 hread (haveNoLineFeed_loadDocument text)
  obtain ⟨after, hafter, hskip⟩ := exists_gap rest
  rw [(eof_iff rest).mp hend, List.append_nil] at hskip
  refine ⟨before, valueText, after, ?_, hbefore, hafter, hreads⟩
  rw [remaining_loadDocument, hskip] at hsplit
  exact hsplit

theorem parse_of_isDocument (hdocument : extended.IsDocument (documentText text) value) :
    parse text = some value := by
  obtain ⟨before, valueText, after, hsplit, hbefore, hafter, hreads⟩ := hdocument
  have hremaining : remaining (loadDocument text) = before ++ (valueText ++ after) := by
    rw [remaining_loadDocument, ← List.append_assoc]
    exact hsplit
  have hlength : valueText.length ≤ text.length := by
    have hle := ((List.takeWhile_sublist (· ≠ 0)).trans
      (List.filter_sublist (p := (· ≠ CARRIAGE_RETURN)) (l := text))).length_le
    rw [show List.takeWhile _ _ = _ from hsplit, List.length_append, List.length_append] at hle
    omega
  have hfollows : Follows after :=
    fun unit hunit ↦ Or.inl (hafter unit (List.mem_of_head? hunit))
  obtain ⟨rest, hread, -, hrest⟩ := accepted_of_reads hreads (2 * text.length + 1)
    (loadDocument text) before after (by omega) (haveNoLineFeed_loadDocument text) hbefore
    hremaining hfollows
  have hend : eof (skipWhiteSpace rest) = true := by
    rw [eof_iff, remaining_skipWhiteSpace, hrest, List.dropWhile_eq_nil_iff]
    exact hafter
  unfold parse
  rw [hread, Option.bind_some, if_pos hend]

/-- The texts which are parsed as a value are its documents. -/
theorem parse_eq_some_iff (text : U16String) (value : JsonValue) :
    parse text = some value ↔ extended.IsDocument (documentText text) value :=
  ⟨isDocument_of_parse, parse_of_isDocument⟩

/-- Texts of scalars without a value in the standard syntax. -/
def lenientScalars : List U16String :=
  [[0x2B, 0x31], [0x30, 0x31], [0x31, 0x2E, 0x35], [0x22, 0x5C, 0x71, 0x22], [0x22, 0x09, 0x22],
    [0x22, 0x0D, 0x22], [0x0B, 0x31], [0x31, 0x00, 0x78]]

/-- An array and an object with a comma at the end. -/
def lenientSequences : List U16String :=
  [[0x5B, 0x31, 0x2C, 0x5D], [0x7B, 0x22, 0x61, 0x22, 0x3A, 0x31, 0x2C, 0x7D]]

theorem parse_isSome {valueText : U16String} (hreads : extended.Reads valueText value) (gap : U16String)
    (hgap : extended.IsGap gap) (htext : documentText text = gap ++ valueText) :
    (parse text).isSome = true := by
  have hdocument : extended.IsDocument (documentText text) value :=
    ⟨gap, valueText, [], by rw [htext, List.append_nil], hgap, isGap_nil, hreads⟩
  rw [parse_of_isDocument hdocument]
  rfl

theorem reads_number {sign digits fraction : U16String} (hsign : IsSign sign) (hne : digits ≠ [])
    (hdigits : AreDigits digits) (hfraction : IsFraction fraction) :
    extended.Reads (sign ++ (digits ++ (fraction ++ [])))
      (ofLiteral (sign ++ (digits ++ (fraction ++ [])))) :=
  .scalar (.number ⟨sign, digits, fraction, [], hsign, hne, hdigits, hfraction, Or.inl rfl, rfl⟩)

theorem reads_string (body : U16String) (hquoted : isQuoted QUOTATION_MARK body = true)
    (hfeed : LINE_FEED ∉ body) :
    extended.Reads (QUOTATION_MARK :: (body ++ [QUOTATION_MARK])) (.string (convertFromJSON body)) :=
  .scalar (.string ⟨body, rfl, hquoted, hfeed, rfl⟩)

theorem areDigits_singleton {unit : UChar} (hunit : isDigit unit = true) : AreDigits [unit] := by
  intro other hother
  rw [List.mem_singleton.mp hother]
  exact hunit

theorem parse_lenientScalars : ∀ text ∈ lenientScalars, (parse text).isSome = true := by
  have hone : AreDigits [0x31] := areDigits_singleton (by decide)
  have hdigits : AreDigits [0x30, 0x31] := List.all_eq_true.mp rfl
  have hinteger := reads_number (Or.inl rfl) (List.cons_ne_nil _ _) hone (Or.inl rfl)
  intro text htext
  simp only [lenientScalars, List.mem_cons, List.not_mem_nil, or_false] at htext
  rcases htext with rfl | rfl | rfl | rfl | rfl | rfl | rfl | rfl
  · have hplus := reads_number (Or.inr (Or.inr rfl)) (List.cons_ne_nil _ _) hone (Or.inl rfl)
    exact parse_isSome hplus [] isGap_nil rfl
  · have hzero := reads_number (Or.inl rfl) (List.cons_ne_nil _ _) hdigits (Or.inl rfl)
    exact parse_isSome hzero [] isGap_nil rfl
  · have hfraction : IsFraction [0x2E, 0x35] := Or.inr ⟨[0x35], areDigits_singleton (by decide), rfl⟩
    have hdecimal := reads_number (Or.inl rfl) (List.cons_ne_nil _ _) hone hfraction
    exact parse_isSome hdecimal [] isGap_nil rfl
  · exact parse_isSome (reads_string [0x5C, 0x71] (by decide) (by decide)) [] isGap_nil rfl
  · exact parse_isSome (reads_string [0x09] (by decide) (by decide)) [] isGap_nil rfl
  · exact parse_isSome (reads_string [] (by decide) (by decide)) [] isGap_nil rfl
  · have hgap : extended.IsGap [0x0B] := by
      intro unit hunit
      rw [List.mem_singleton.mp hunit]
      rfl
    exact parse_isSome hinteger [0x0B] hgap rfl
  · exact parse_isSome hinteger [] isGap_nil rfl

theorem parse_lenientSequences : ∀ text ∈ lenientSequences, (parse text).isSome = true := by
  have hone : AreDigits [0x31] := areDigits_singleton (by decide)
  have hinteger := reads_number (Or.inl rfl) (List.cons_ne_nil _ _) hone (Or.inl rfl)
  intro text htext
  obtain ⟨element, helement⟩ : ∃ element : JsonElement UChar JsonValue,
      element = ⟨[], [0x31], [], ofLiteral [0x31]⟩ := ⟨_, rfl⟩
  have hgaps : extended.IsGap element.before ∧ extended.IsGap element.after := by
    rw [helement]
    exact ⟨isGap_nil, isGap_nil⟩
  have hreads : extended.Reads element.text element.value := by
    rw [helement]
    exact hinteger
  rcases List.mem_pair.mp htext with rfl | rfl
  · have hbody : extended.IsBody ([element].map JsonElement.spaced) [0x31, 0x2C] := by
      rw [helement]
      exact Or.inr ⟨fun _ ↦ trivial, [], isGap_nil, rfl⟩
    have harray := JsonSyntax.Reads.array
      (List.forall_mem_singleton.mpr hgaps)
      (List.forall_mem_singleton.mpr hreads) hbody
    exact parse_isSome harray [] isGap_nil rfl
  · obtain ⟨member, hmember⟩ : ∃ member : JsonMember UChar U16String JsonValue,
        member = ⟨[0x22, 0x61, 0x22, 0x3A], convertFromJSON [0x61], element⟩ := ⟨_, rfl⟩
    have hlabel : extended.IsLabel member.label member.name := by
      rw [hmember]
      exact ⟨[], [0x22, 0x61, 0x22], [], rfl, isGap_nil, isGap_nil, [0x61], rfl, by decide, by decide,
        rfl⟩
    have hinside : member.element = element := by rw [hmember]
    have hbody : extended.IsBody ([member].map JsonMember.spaced)
        [0x22, 0x61, 0x22, 0x3A, 0x31, 0x2C] := by
      rw [hmember, helement]
      exact Or.inr ⟨fun _ ↦ trivial, [], isGap_nil, rfl⟩
    have hobject := JsonSyntax.Reads.object
      (List.forall_mem_singleton.mpr hlabel)
      (fun other hother ↦ (List.mem_singleton.mp hother) ▸ hinside.symm ▸ hgaps)
      (fun other hother ↦ (List.mem_singleton.mp hother) ▸ hinside.symm ▸ hreads) hbody
    exact parse_isSome hobject [] isGap_nil rfl

/-- The parser accepts more than the standard syntax. -/
theorem parse_isSome_not_standard : (lenientScalars ++ lenientSequences).Forall fun text ↦
    (parse text).isSome = true ∧ ∀ value, ¬ JsonSyntax.ecma404.IsDocument text value := by
  have hspace : ∀ text ∈ lenientScalars ++ lenientSequences,
      (text.head?.all fun code ↦ decide (code ∉ ([0x20, 0x09, 0x0A, 0x0D] : List UInt16))) = true ∧
        (text.getLast?.all fun code ↦
          decide (code ∉ ([0x20, 0x09, 0x0A, 0x0D] : List UInt16))) = true := by
    decide
  have hends : ∀ code : Option UInt16,
      (code.all fun code ↦ decide (code ∉ ([0x20, 0x09, 0x0A, 0x0D] : List UInt16))) = true →
        ∀ found ∈ code, found ∉ ([0x20, 0x09, 0x0A, 0x0D] : List UInt16) := by
    rintro code hall found rfl
    exact of_decide_eq_true hall
  rw [List.forall_iff_forall_mem]
  intro text htext
  constructor
  · rcases List.mem_append.mp htext with hscalar | hsequence
    · exact parse_lenientScalars text hscalar
    · exact parse_lenientSequences text hsequence
  · intro value hdocument
    have hreads := hdocument.reads (hends _ (hspace text htext).1) (hends _ (hspace text htext).2)
    rcases List.mem_append.mp htext with hscalar | hsequence
    · have hhead : ∀ text ∈ lenientScalars, (text.head? ≠ some 0x5B ∧ text.head? ≠ some 0x7B) ∧
          ¬ (text ∈ JsonSyntax.literals ∨ JsonSyntax.isInteger text = true ∨
            JsonSyntax.isString text = true) := by
        decide
      exact (hhead text hscalar).2 (hreads.scalar_of_head (hhead text hscalar).1)
    · rcases List.mem_pair.mp hsequence with rfl | rfl
      · exact JsonSyntax.not_reads_array_comma [0x31] value hreads
      · exact JsonSyntax.not_reads_object_comma [0x22, 0x61, 0x22, 0x3A, 0x31] value hreads

end JsonValue

end TSDuck
