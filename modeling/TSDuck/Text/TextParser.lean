import TSDuck.Text.JsonString

/-!
# Text parser

A `TextParser` reads a document line after line: what it accepts never goes over the end of a line,
but the white space which it skips does. The tokens are texts, numeric literals and string literals.

What remains to parse is also a single text (`remaining`), where each line ends with a line feed.

Scope. The position in the document is what remains of the current line and of the document; the
number of the line, which only the error messages use, is left out.
-/

namespace TSDuck

open UChar

/-- The end of the current line and the next lines. -/
abbrev TextLines := List U16String

namespace TextLines

/-- The lines without carriage returns, up to a null character. -/
def loadDocument (text : U16String) : TextLines :=
  ((text.filter (· ≠ CARRIAGE_RETURN)).takeWhile (· ≠ 0)).splitOn LINE_FEED

def eof (lines : TextLines) : Bool := lines.isEmpty

def skipWhiteSpace : TextLines → TextLines
  | [] => []
  | line :: rest =>
    if line.dropWhile isSpace = [] then skipWhiteSpace rest else line.dropWhile isSpace :: rest

def matchText (str : U16String) : TextLines → Option TextLines
  | [] => none
  | line :: rest => if str <+: line then some (line.drop str.length :: rest) else none

def skipSign (line : U16String) : U16String :=
  if line.head? = some 0x2D ∨ line.head? = some 0x2B then line.drop 1 else line

def skipFraction (line : U16String) : U16String :=
  if line.head? = some 0x2E then (line.drop 1).dropWhile isDigit else line

def skipExponent (line : U16String) : U16String :=
  if line.head? = some 0x65 ∨ line.head? = some 0x45 then (skipSign (line.drop 1)).dropWhile isDigit
  else line

def startsHexa (line : U16String) : Bool :=
  (line)[0]? == some 0x30 && ((line)[1]? == some 0x78 || (line)[1]? == some 0x58) &&
    ((line)[2]?.any isHexa)

def validateEnd (line : U16String) : Option U16String :=
  if line.head?.any fun unit ↦ unit == 0x2E || unit == 0x5F || isAlpha unit then none else some line

def numericLiteralEnd (allowHexa allowFloat : Bool) (line : U16String) : Option U16String :=
  let start := skipSign line
  if start.head?.any isDigit = false then none
  else if startsHexa start then
    if allowHexa then validateEnd ((start.drop 3).dropWhile isHexa) else none
  else if allowFloat then validateEnd (skipExponent (skipFraction (start.dropWhile isDigit)))
  else validateEnd (start.dropWhile isDigit)

def parseNumericLiteral (allowHexa allowFloat : Bool) : TextLines → Option (U16String × TextLines)
  | [] => none
  | line :: rest =>
    (numericLiteralEnd allowHexa allowFloat line).map fun last ↦
      (line.take (line.length - last.length), last :: rest)

def closeQuote (quote : UChar) : U16String → Option (U16String × U16String)
  | [] => none
  | unit :: rest =>
    if unit = quote then some ([], rest)
    else if unit = REVERSE_SOLIDUS then
      match rest with
      | [] => none
      | escaped :: after =>
        (closeQuote quote after).map fun read ↦ (unit :: escaped :: read.1, read.2)
    else (closeQuote quote rest).map fun read ↦ (unit :: read.1, read.2)

def parseStringLiteral (requiredQuote : Option UChar) : TextLines → Option (U16String × TextLines)
  | [] => none
  | [] :: _ => none
  | (quote :: line) :: rest =>
    if requiredQuote = some APOSTROPHE ∧ quote ≠ APOSTROPHE then none
    else if requiredQuote = some QUOTATION_MARK ∧ quote ≠ QUOTATION_MARK then none
    else if quote ≠ APOSTROPHE ∧ quote ≠ QUOTATION_MARK then none
    else
      (closeQuote quote line).map fun read ↦ (quote :: (read.1 ++ [quote]), read.2 :: rest)

def parseJSONStringLiteral (lines : TextLines) : Option (U16String × TextLines) :=
  (parseStringLiteral (some QUOTATION_MARK) lines).map fun read ↦
    (U16String.convertFromJSON (read.1.drop 1).dropLast, read.2)

/-! ### What remains -/

def remaining : TextLines → U16String
  | [] => []
  | [line] => line
  | line :: next :: rest => line ++ LINE_FEED :: remaining (next :: rest)

/-- There is no line feed inside a line. -/
def HaveNoLineFeed (lines : TextLines) : Prop :=
  ∀ line ∈ lines, LINE_FEED ∉ line

theorem remaining_append (token line : U16String) (rest : TextLines) :
    remaining ((token ++ line) :: rest) = token ++ remaining (line :: rest) := by
  cases rest with
  | nil => rfl
  | cons next rest =>
    rw [remaining, remaining, List.append_assoc]

variable {lines : TextLines} {rest line str body literal : U16String} {quote : UChar}

theorem exists_line {token : U16String} (hremaining : remaining lines = token ++ rest)
    (hne : token ≠ []) (hline : LINE_FEED ∉ token) :
    ∃ line others, lines = (token ++ line) :: others ∧ rest = remaining (line :: others) := by
  have hlead : ∀ line others, lines = line :: others → token <+: line := by
    rintro line others rfl
    cases others with
    | nil => exact ⟨rest, hremaining.symm⟩
    | cons next others =>
      rw [remaining, List.append_eq_append_iff] at hremaining
      obtain ⟨more, rfl, hmore⟩ | ⟨more, rfl, -⟩ := hremaining
      · cases more with
        | nil => exact ⟨[], by rw [List.append_nil, List.append_nil]⟩
        | cons unit more =>
          rw [List.cons_append, List.cons.injEq] at hmore
          exact absurd (List.mem_append_right _ (hmore.1 ▸ List.mem_cons_self)) hline
      · exact ⟨more, rfl⟩
  cases lines with
  | nil =>
    exact absurd (List.append_eq_nil_iff.mp hremaining.symm).1 hne
  | cons line others =>
    obtain ⟨last, rfl⟩ := hlead line others rfl
    refine ⟨last, others, rfl, ?_⟩
    rw [remaining_append] at hremaining
    exact (List.append_cancel_left hremaining).symm

theorem remaining_loadDocument (text : U16String) :
    remaining (loadDocument text) = (text.filter (· ≠ CARRIAGE_RETURN)).takeWhile (· ≠ 0) := by
  have hintercalate : ∀ lines : TextLines, remaining lines = [LINE_FEED].intercalate lines := by
    intro lines
    induction lines with
    | nil => rfl
    | cons line rest ih =>
      cases rest with
      | nil => exact List.intercalate_singleton.symm
      | cons next rest =>
        rw [remaining, ih, List.intercalate_cons_cons]
        simp only [List.append_assoc, List.singleton_append]
  unfold loadDocument
  rw [hintercalate, List.intercalate_splitOn]

theorem haveNoLineFeed_loadDocument (text : U16String) : HaveNoLineFeed (loadDocument text) := by
  have hsplit : ∀ text : U16String, HaveNoLineFeed (text.splitOn LINE_FEED) := by
    intro text
    induction text with
    | nil =>
      intro line hline
      rw [List.splitOn_nil] at hline
      rw [List.mem_singleton.mp hline]
      exact List.not_mem_nil
    | cons unit rest ih =>
      rw [List.splitOn_cons_eq_if_modifyHead]
      obtain ⟨first, others, hlines⟩ := List.exists_cons_of_ne_nil (List.splitOn_ne_nil LINE_FEED rest)
      rw [hlines] at ih ⊢
      by_cases hfeed : unit = LINE_FEED
      · rw [if_pos (beq_iff_eq.mpr hfeed)]
        intro line hline
        rcases List.mem_cons.mp hline with rfl | hline
        · exact List.not_mem_nil
        · exact ih line hline
      · rw [if_neg (fun h ↦ hfeed (beq_iff_eq.mp h))]
        intro line hline
        rcases List.mem_cons.mp hline with rfl | hline
        · rw [List.mem_cons, not_or]
          exact ⟨fun h ↦ hfeed h.symm, ih first List.mem_cons_self⟩
        · exact ih line (List.mem_cons_of_mem _ hline)
  exact hsplit _

theorem HaveNoLineFeed.of_append {token : U16String} {rest : TextLines}
    (hlines : HaveNoLineFeed ((token ++ line) :: rest)) :
    LINE_FEED ∉ token ∧ HaveNoLineFeed (line :: rest) := by
  have hfirst := hlines _ List.mem_cons_self
  rw [List.mem_append, not_or] at hfirst
  refine ⟨hfirst.1, ?_⟩
  intro other hother
  rcases List.mem_cons.mp hother with rfl | hother
  · exact hfirst.2
  · exact hlines other (List.mem_cons_of_mem _ hother)

/-! ### White space -/

theorem remaining_skipWhiteSpace (lines : TextLines) :
    remaining (skipWhiteSpace lines) = (remaining lines).dropWhile isSpace := by
  induction lines with
  | nil => rfl
  | cons line rest ih =>
    rw [skipWhiteSpace]
    by_cases hblank : line.dropWhile isSpace = []
    · rw [if_pos hblank, ih]
      cases rest with
      | nil => exact hblank.symm
      | cons next rest =>
        have hall := List.dropWhile_eq_nil_iff.mp hblank
        rw [remaining, List.dropWhile_append_of_pos hall, List.dropWhile_cons_of_pos (by decide)]
    · obtain ⟨unit, more, hmore⟩ := List.exists_cons_of_ne_nil hblank
      have hunit : ¬ isSpace unit = true := by
        have hhead := List.head_dropWhile_not isSpace hblank
        simp only [hmore, List.head_cons] at hhead
        rw [hhead]
        decide
      have hsplit := remaining_append (line.takeWhile isSpace) (line.dropWhile isSpace) rest
      rw [List.takeWhile_append_dropWhile, hmore] at hsplit
      have hfirst : remaining ((unit :: more) :: rest) = unit :: remaining (more :: rest) :=
        remaining_append [unit] more rest
      rw [if_neg hblank, hsplit, List.dropWhile_append_of_pos fun _ h ↦ List.mem_takeWhile_imp h,
        hmore, hfirst, List.dropWhile_cons_of_neg hunit]

theorem HaveNoLineFeed.skipWhiteSpace (hlines : HaveNoLineFeed lines) :
    HaveNoLineFeed (skipWhiteSpace lines) := by
  induction lines with
  | nil => exact hlines
  | cons line rest ih =>
    have hrest : HaveNoLineFeed rest := (List.forall_mem_cons.mp hlines).2
    rw [TextLines.skipWhiteSpace]
    by_cases hblank : line.dropWhile isSpace = []
    · rw [if_pos hblank]
      exact ih hrest
    · have hsplit := List.takeWhile_append_dropWhile (p := isSpace) (l := line)
      rw [← hsplit] at hlines
      rw [if_neg hblank]
      exact hlines.of_append.2

theorem eof_skipWhiteSpace (lines : TextLines) :
    eof (skipWhiteSpace lines) = (remaining (skipWhiteSpace lines)).isEmpty := by
  induction lines with
  | nil => rfl
  | cons line rest ih =>
    rw [skipWhiteSpace]
    by_cases hblank : line.dropWhile isSpace = []
    · rw [if_pos hblank]
      exact ih
    · obtain ⟨unit, more, hmore⟩ := List.exists_cons_of_ne_nil hblank
      rw [if_neg hblank, hmore]
      cases rest with
      | nil => rfl
      | cons next rest => rfl

theorem of_matchText {rest : TextLines} (hmatch : matchText str lines = some rest)
    (hlines : HaveNoLineFeed lines) :
    remaining lines = str ++ remaining rest ∧ HaveNoLineFeed rest := by
  cases lines with
  | nil => cases hmatch
  | cons line others =>
    rw [matchText] at hmatch
    split_ifs at hmatch with hlead
    obtain rfl := Option.some.inj hmatch
    obtain ⟨last, rfl⟩ := hlead
    rw [List.drop_left]
    exact ⟨remaining_append str last others, hlines.of_append.2⟩

theorem exists_matchText (hremaining : remaining lines = str ++ rest) (hne : str ≠ [])
    (hline : LINE_FEED ∉ str) :
    ∃ after, matchText str lines = some after ∧ remaining after = rest := by
  obtain ⟨line, others, rfl, rfl⟩ := exists_line hremaining hne hline
  refine ⟨line :: others, ?_, rfl⟩
  rw [matchText, if_pos (List.prefix_append _ _), List.drop_left]

theorem matchText_eq_none (hlines : HaveNoLineFeed lines) (hne : str ≠ [])
    (hhead : (remaining lines).head? ≠ str.head?) : matchText str lines = none := by
  apply Option.eq_none_iff_forall_ne_some.mpr
  intro rest hmatch
  obtain ⟨unit, more, rfl⟩ := List.exists_cons_of_ne_nil hne
  rw [(of_matchText hmatch hlines).1] at hhead
  exact hhead rfl

/-! ### Strings -/

/-- No quote except after a backslash. -/
def isQuoted (quote : UChar) : U16String → Bool
  | [] => true
  | unit :: rest =>
    if unit = quote then false
    else if unit = REVERSE_SOLIDUS then
      match rest with
      | [] => false
      | _ :: after => isQuoted quote after
    else isQuoted quote rest

theorem closeQuote_quote (quote : UChar) (rest : U16String) :
    closeQuote quote (quote :: rest) = some ([], rest) := by
  rw [closeQuote.eq_def]
  exact if_pos rfl

theorem closeQuote_escaped (hquote : REVERSE_SOLIDUS ≠ quote) (escaped : UChar) (rest : U16String) :
    closeQuote quote (REVERSE_SOLIDUS :: escaped :: rest) =
      (closeQuote quote rest).map fun read ↦ (REVERSE_SOLIDUS :: escaped :: read.1, read.2) := by
  rw [closeQuote, if_neg hquote, if_pos rfl]

theorem closeQuote_plain {unit : UChar} (hquote : unit ≠ quote) (hescape : unit ≠ REVERSE_SOLIDUS)
    (rest : U16String) :
    closeQuote quote (unit :: rest) =
      (closeQuote quote rest).map fun read ↦ (unit :: read.1, read.2) := by
  rw [closeQuote.eq_def]
  dsimp only
  rw [if_neg hquote, if_neg hescape]

theorem isQuoted_escaped (hquote : REVERSE_SOLIDUS ≠ quote) (escaped : UChar) (rest : U16String) :
    isQuoted quote (REVERSE_SOLIDUS :: escaped :: rest) = isQuoted quote rest := by
  rw [isQuoted, if_neg hquote, if_pos rfl]

theorem isQuoted_plain {unit : UChar} (hquote : unit ≠ quote) (hescape : unit ≠ REVERSE_SOLIDUS)
    (rest : U16String) : isQuoted quote (unit :: rest) = isQuoted quote rest := by
  rw [isQuoted.eq_def]
  dsimp only
  rw [if_neg hquote, if_neg hescape]

theorem of_closeQuote (hclose : closeQuote quote line = some (body, rest)) :
    line = body ++ quote :: rest ∧ isQuoted quote body = true := by
  induction line using closeQuote.induct quote generalizing body with
  | case1 => cases hclose
  | case2 line =>
    rw [closeQuote_quote, Option.some.injEq, Prod.mk.injEq] at hclose
    obtain ⟨rfl, rfl⟩ := hclose
    exact ⟨rfl, rfl⟩
  | case3 hquote =>
    rw [closeQuote, if_neg hquote, if_pos rfl] at hclose
    cases hclose
  | case4 escaped after hquote ih =>
    rw [closeQuote_escaped hquote, Option.map_eq_some_iff] at hclose
    obtain ⟨⟨inside, last⟩, hread, hsame⟩ := hclose
    obtain ⟨rfl, rfl⟩ := Prod.mk.inj hsame
    obtain ⟨rfl, hinside⟩ := ih hread
    exact ⟨rfl, (isQuoted_escaped hquote escaped inside).trans hinside⟩
  | case5 unit line hquote hescape ih =>
    rw [closeQuote_plain hquote hescape, Option.map_eq_some_iff] at hclose
    obtain ⟨⟨inside, last⟩, hread, hsame⟩ := hclose
    obtain ⟨rfl, rfl⟩ := Prod.mk.inj hsame
    obtain ⟨rfl, hinside⟩ := ih hread
    exact ⟨rfl, (isQuoted_plain hquote hescape inside).trans hinside⟩

theorem closeQuote_append (hbody : isQuoted quote body = true) (rest : U16String) :
    closeQuote quote (body ++ quote :: rest) = some (body, rest) := by
  induction body using isQuoted.induct quote with
  | case1 => exact closeQuote_quote quote rest
  | case2 line =>
    rw [isQuoted.eq_def] at hbody
    dsimp only at hbody
    rw [if_pos rfl] at hbody
    cases hbody
  | case3 hquote =>
    rw [isQuoted, if_neg hquote, if_pos rfl] at hbody
    cases hbody
  | case4 escaped after hquote ih =>
    rw [isQuoted_escaped hquote] at hbody
    show closeQuote quote (REVERSE_SOLIDUS :: escaped :: (after ++ quote :: rest)) = _
    rw [closeQuote_escaped hquote, ih hbody]
    rfl
  | case5 unit line hquote hescape ih =>
    rw [isQuoted_plain hquote hescape] at hbody
    rw [List.cons_append, closeQuote_plain hquote hescape, ih hbody]
    rfl

theorem of_parseJSONStringLiteral {rest : TextLines} {value : U16String}
    (hparse : parseJSONStringLiteral lines = some (value, rest)) (hlines : HaveNoLineFeed lines) :
    HaveNoLineFeed rest ∧ ∃ body, value = U16String.convertFromJSON body ∧
      isQuoted QUOTATION_MARK body = true ∧ LINE_FEED ∉ body ∧
        remaining lines = QUOTATION_MARK :: (body ++ [QUOTATION_MARK]) ++ remaining rest := by
  unfold parseJSONStringLiteral at hparse
  rw [Option.map_eq_some_iff] at hparse
  obtain ⟨⟨literal, after⟩, hliteral, hvalue⟩ := hparse
  obtain ⟨rfl, rfl⟩ := Prod.mk.inj hvalue
  cases lines with
  | nil => cases hliteral
  | cons line others =>
    cases line with
    | nil => cases hliteral
    | cons quote line =>
      rw [parseStringLiteral] at hliteral
      split_ifs at hliteral with hapostrophe hquote hother
      have hmark : quote = QUOTATION_MARK := by
        by_contra hne
        exact hquote ⟨rfl, hne⟩
      rw [Option.map_eq_some_iff] at hliteral
      obtain ⟨⟨body, last⟩, hclose, hsame⟩ := hliteral
      obtain ⟨rfl, rfl⟩ := Prod.mk.inj hsame
      obtain ⟨rfl, hquoted⟩ := of_closeQuote hclose
      have hsplit : quote :: (body ++ quote :: last) = quote :: (body ++ [quote]) ++ last := by
        rw [List.cons_append, List.append_assoc, List.singleton_append]
      rw [hsplit] at hlines ⊢
      obtain ⟨hfeed, hrest⟩ := hlines.of_append
      refine ⟨hrest, body, ?_, ?_, fun h ↦ hfeed ?_, ?_⟩
      · rw [List.drop_one, List.tail_cons, List.dropLast_concat]
      · rw [← hmark]
        exact hquoted
      · exact List.mem_cons_of_mem _ (List.mem_append_left _ h)
      · rw [remaining_append, hmark]

theorem exists_parseJSONStringLiteral
    (hremaining : remaining lines = QUOTATION_MARK :: (body ++ [QUOTATION_MARK]) ++ rest)
    (hquoted : isQuoted QUOTATION_MARK body = true) (hfeed : LINE_FEED ∉ body) :
    ∃ after, parseJSONStringLiteral lines = some (U16String.convertFromJSON body, after) ∧
      remaining after = rest := by
  have hline : LINE_FEED ∉ QUOTATION_MARK :: (body ++ [QUOTATION_MARK]) := by
    rw [List.mem_cons, List.mem_append, List.mem_singleton, not_or, not_or]
    exact ⟨by decide, hfeed, by decide⟩
  obtain ⟨line, others, rfl, rfl⟩ := exists_line hremaining (List.cons_ne_nil _ _) hline
  refine ⟨line :: others, ?_, rfl⟩
  have hsplit : QUOTATION_MARK :: (body ++ [QUOTATION_MARK]) ++ line =
      QUOTATION_MARK :: (body ++ QUOTATION_MARK :: line) := by
    rw [List.cons_append, List.append_assoc, List.singleton_append]
  unfold parseJSONStringLiteral
  rw [hsplit, parseStringLiteral, if_neg (by decide), if_neg (by decide), if_neg (by decide),
    closeQuote_append hquoted, Option.map_some, Option.map_some]
  dsimp only
  rw [List.drop_one, List.tail_cons, List.dropLast_concat]

theorem parseJSONStringLiteral_eq_none (hlines : HaveNoLineFeed lines)
    (hhead : (remaining lines).head? ≠ some QUOTATION_MARK) : parseJSONStringLiteral lines = none := by
  apply Option.eq_none_iff_forall_ne_some.mpr
  rintro ⟨value, rest⟩ hparse
  obtain ⟨-, body, -, -, -, hremaining⟩ := of_parseJSONStringLiteral hparse hlines
  rw [hremaining] at hhead
  exact hhead rfl

/-! ### Numbers -/

/-- An optional sign. -/
def IsSign (sign : U16String) : Prop := sign = [] ∨ sign = [0x2D] ∨ sign = [0x2B]

/-- Decimal digits. -/
def AreDigits (digits : U16String) : Prop := ∀ unit ∈ digits, isDigit unit = true

/-- An optional fractional part. -/
def IsFraction (fraction : U16String) : Prop :=
  fraction = [] ∨ ∃ digits, AreDigits digits ∧ fraction = 0x2E :: digits

/-- An optional exponent. -/
def IsExponent (exponent : U16String) : Prop :=
  exponent = [] ∨ ∃ letter sign digits, (letter = 0x65 ∨ letter = 0x45) ∧ IsSign sign ∧
    AreDigits digits ∧ exponent = letter :: (sign ++ digits)

/-- A number in decimal, with an optional sign. -/
def IsDecimalLiteral (literal : U16String) : Prop :=
  ∃ sign digits fraction exponent, IsSign sign ∧ digits ≠ [] ∧ AreDigits digits ∧
    IsFraction fraction ∧ IsExponent exponent ∧ literal = sign ++ (digits ++ (fraction ++ exponent))

/-- A numeric literal ends in front of this text. -/
def IsDelimited (rest : U16String) : Prop :=
  ∀ unit ∈ rest.head?, isDigit unit = false ∧ isAlpha unit = false ∧ unit ≠ 0x2E ∧ unit ≠ 0x5F ∧
    unit ≠ 0x2B ∧ unit ≠ 0x2D

theorem head?_append_imp {holds : UChar → Prop} {first second : U16String}
    (hfirst : ∀ unit ∈ first.head?, holds unit) (hsecond : ∀ unit ∈ second.head?, holds unit) :
    ∀ unit ∈ (first ++ second).head?, holds unit := by
  cases first with
  | nil => exact hsecond
  | cons unit rest => exact hfirst

theorem of_skipSign (line : U16String) : ∃ sign, IsSign sign ∧ line = sign ++ skipSign line := by
  unfold skipSign
  split_ifs with hhead
  · cases line with
    | nil => rcases hhead with h | h <;> cases h
    | cons unit rest =>
      refine ⟨[unit], ?_, rfl⟩
      rcases hhead with h | h
      · rw [Option.some.inj h]
        exact Or.inr (Or.inl rfl)
      · rw [Option.some.inj h]
        exact Or.inr (Or.inr rfl)
  · exact ⟨[], Or.inl rfl, rfl⟩

theorem of_dropWhile_isDigit (line : U16String) :
    ∃ digits, AreDigits digits ∧ line = digits ++ line.dropWhile isDigit :=
  ⟨line.takeWhile isDigit, fun _ h ↦ List.mem_takeWhile_imp h, List.takeWhile_append_dropWhile.symm⟩

theorem of_skipFraction (line : U16String) :
    ∃ fraction, IsFraction fraction ∧ line = fraction ++ skipFraction line := by
  unfold skipFraction
  split_ifs with hhead
  · cases line with
    | nil => cases hhead
    | cons unit rest =>
      obtain ⟨digits, hdigits, hrest⟩ := of_dropWhile_isDigit rest
      refine ⟨unit :: digits, Or.inr ⟨digits, hdigits, ?_⟩, ?_⟩
      · rw [Option.some.inj hhead]
      · rw [List.drop_one, List.tail_cons, List.cons_append, ← hrest]
  · exact ⟨[], Or.inl rfl, rfl⟩

theorem of_skipExponent (line : U16String) :
    ∃ exponent, IsExponent exponent ∧ line = exponent ++ skipExponent line := by
  unfold skipExponent
  split_ifs with hhead
  · cases line with
    | nil => rcases hhead with h | h <;> cases h
    | cons unit rest =>
      obtain ⟨sign, hsign, hrest⟩ := of_skipSign rest
      obtain ⟨digits, hdigits, hafter⟩ := of_dropWhile_isDigit (skipSign rest)
      refine ⟨unit :: (sign ++ digits), Or.inr ⟨unit, sign, digits, ?_, hsign, hdigits, rfl⟩, ?_⟩
      · rcases hhead with h | h
        · exact Or.inl (Option.some.inj h)
        · exact Or.inr (Option.some.inj h)
      · rw [List.drop_one, List.tail_cons, List.cons_append, List.append_assoc, ← hafter, ← hrest]
  · exact ⟨[], Or.inl rfl, rfl⟩

theorem of_numericLiteralEnd {last : U16String} (hend : numericLiteralEnd false true line = some last) :
    ∃ literal, IsDecimalLiteral literal ∧ line = literal ++ last := by
  unfold numericLiteralEnd at hend
  simp only [Bool.false_eq_true, if_false, if_true] at hend
  split_ifs at hend with hdigit hhexa
  obtain ⟨sign, hsign, hline⟩ := of_skipSign line
  obtain ⟨digits, hdigits, hstart⟩ := of_dropWhile_isDigit (skipSign line)
  obtain ⟨fraction, hfraction, hintegral⟩ := of_skipFraction ((skipSign line).dropWhile isDigit)
  obtain ⟨exponent, hexponent, hfloat⟩ :=
    of_skipExponent (skipFraction ((skipSign line).dropWhile isDigit))
  have hlast : skipExponent (skipFraction ((skipSign line).dropWhile isDigit)) = last := by
    unfold validateEnd at hend
    split_ifs at hend
    exact Option.some.inj hend
  have hne : digits ≠ [] := by
    rintro rfl
    rw [List.nil_append] at hstart
    obtain ⟨unit, more, hmore⟩ : ∃ unit more, skipSign line = unit :: more := by
      cases hskip : skipSign line with
      | nil =>
        rw [hskip] at hdigit
        exact absurd rfl hdigit
      | cons unit more => exact ⟨unit, more, rfl⟩
    rw [hmore] at hdigit hstart
    have hunit : isDigit unit = true := Bool.not_eq_false _ ▸ hdigit
    have hlength := congrArg List.length hstart
    rw [List.dropWhile_cons_of_pos hunit, List.length_cons] at hlength
    have hle := List.length_dropWhile_le isDigit more
    omega
  refine ⟨sign ++ (digits ++ (fraction ++ exponent)),
    ⟨sign, digits, fraction, exponent, hsign, hne, hdigits, hfraction, hexponent, rfl⟩, ?_⟩
  rw [← hlast, List.append_assoc, List.append_assoc, List.append_assoc, ← hfloat, ← hintegral,
    ← hstart, ← hline]

theorem skipSign_append {sign : U16String} (hsign : IsSign sign)
    (hrest : ∀ unit ∈ rest.head?, unit ≠ 0x2D ∧ unit ≠ 0x2B) : skipSign (sign ++ rest) = rest := by
  rcases hsign with rfl | rfl | rfl
  · rw [List.nil_append, skipSign, if_neg]
    rintro (h | h)
    · exact (hrest _ h).1 rfl
    · exact (hrest _ h).2 rfl
  · rfl
  · rfl

theorem dropWhile_isDigit_append {digits : U16String} (hdigits : AreDigits digits)
    (hrest : ∀ unit ∈ rest.head?, isDigit unit = false) :
    (digits ++ rest).dropWhile isDigit = rest := by
  rw [List.dropWhile_append_of_pos hdigits]
  cases rest with
  | nil => rfl
  | cons unit more =>
    rw [List.dropWhile_cons_of_neg (by rw [hrest unit rfl]; decide)]

theorem skipFraction_append {fraction : U16String} (hfraction : IsFraction fraction)
    (hrest : ∀ unit ∈ rest.head?, isDigit unit = false ∧ unit ≠ 0x2E) :
    skipFraction (fraction ++ rest) = rest := by
  rcases hfraction with rfl | ⟨digits, hdigits, rfl⟩
  · rw [List.nil_append, skipFraction, if_neg]
    intro h
    exact (hrest _ h).2 rfl
  · exact dropWhile_isDigit_append hdigits fun unit hunit ↦ (hrest unit hunit).1

theorem skipExponent_append {exponent : U16String} (hexponent : IsExponent exponent)
    (hrest : ∀ unit ∈ rest.head?, isDigit unit = false ∧ unit ≠ 0x65 ∧ unit ≠ 0x45 ∧
      unit ≠ 0x2D ∧ unit ≠ 0x2B) :
    skipExponent (exponent ++ rest) = rest := by
  rcases hexponent with rfl | ⟨letter, sign, digits, hletter, hsign, hdigits, rfl⟩
  · rw [List.nil_append, skipExponent, if_neg]
    rintro (h | h)
    · exact (hrest _ h).2.1 rfl
    · exact (hrest _ h).2.2.1 rfl
  · have hhead : ∀ unit ∈ (digits ++ rest).head?, unit ≠ 0x2D ∧ unit ≠ 0x2B := by
      apply head?_append_imp
      · intro unit hunit
        have hunit := U16String.of_isDigit (hdigits unit (List.mem_of_head? hunit))
        exact ⟨hunit.2.2.1, hunit.2.1⟩
      · exact fun unit hunit ↦ (hrest unit hunit).2.2.2
    have hcond : (letter :: (sign ++ digits) ++ rest).head? = some 0x65 ∨
        (letter :: (sign ++ digits) ++ rest).head? = some 0x45 :=
      hletter.imp (congrArg some) (congrArg some)
    rw [skipExponent, if_pos hcond]
    show (skipSign (sign ++ digits ++ rest)).dropWhile isDigit = rest
    rw [List.append_assoc, skipSign_append hsign hhead,
      dropWhile_isDigit_append hdigits fun unit hunit ↦ (hrest unit hunit).1]

theorem numericLiteralEnd_append (hliteral : IsDecimalLiteral literal) (hrest : IsDelimited rest) :
    numericLiteralEnd false true (literal ++ rest) = some rest := by
  obtain ⟨sign, digits, fraction, exponent, hsign, hne, hdigits, hfraction, hexponent, rfl⟩ := hliteral
  have halpha : ∀ unit ∈ rest.head?, ∀ letter, isAlpha letter = true → unit ≠ letter := by
    rintro unit hunit letter hletter rfl
    rw [(hrest unit hunit).2.1] at hletter
    cases hletter
  have hexponentHead : ∀ unit ∈ (exponent ++ rest).head?,
      isDigit unit = false ∧ unit ≠ 0x2E ∧ unit ≠ 0x78 ∧ unit ≠ 0x58 := by
    apply head?_append_imp
    · intro unit hunit
      rcases hexponent with rfl | ⟨letter, _, _, hletter, -, -, rfl⟩
      · cases hunit
      · rw [← Option.some.inj hunit]
        rcases hletter with rfl | rfl <;> decide
    · intro unit hunit
      obtain ⟨hdigit, -, hpoint, -⟩ := hrest unit hunit
      exact ⟨hdigit, hpoint, halpha unit hunit _ (by decide), halpha unit hunit _ (by decide)⟩
  have hfractionHead : ∀ unit ∈ (fraction ++ (exponent ++ rest)).head?,
      isDigit unit = false ∧ unit ≠ 0x78 ∧ unit ≠ 0x58 := by
    apply head?_append_imp
    · intro unit hunit
      rcases hfraction with rfl | ⟨_, -, rfl⟩
      · cases hunit
      · rw [← Option.some.inj hunit]
        decide
    · exact fun unit hunit ↦ ⟨(hexponentHead unit hunit).1, (hexponentHead unit hunit).2.2⟩
  obtain ⟨digit, others, rfl⟩ := List.exists_cons_of_ne_nil hne
  have hdigit : isDigit digit = true := hdigits digit List.mem_cons_self
  have hlead : ¬ startsHexa (digit :: others ++ (fraction ++ (exponent ++ rest))) = true := by
    have hsecond : ∀ unit ∈ (others ++ (fraction ++ (exponent ++ rest))).head?,
        unit ≠ 0x78 ∧ unit ≠ 0x58 := by
      apply head?_append_imp
      · intro unit hunit
        have hunit := U16String.of_isDigit (hdigits unit
          (List.mem_cons_of_mem _ (List.mem_of_head? hunit)))
        exact hunit.2.2.2
      · exact fun unit hunit ↦ (hfractionHead unit hunit).2
    unfold startsHexa
    rw [Bool.and_eq_true, Bool.and_eq_true, Bool.or_eq_true, beq_iff_eq, beq_iff_eq, beq_iff_eq,
      List.cons_append, List.getElem?_cons_succ]
    rintro ⟨⟨-, h | h⟩, -⟩
    · exact (hsecond _ (List.head?_eq_getElem?.trans h)).1 rfl
    · exact (hsecond _ (List.head?_eq_getElem?.trans h)).2 rfl
  have hsigned : skipSign (sign ++ (digit :: others ++ (fraction ++ exponent)) ++ rest) =
      digit :: others ++ (fraction ++ (exponent ++ rest)) := by
    rw [List.append_assoc, skipSign_append hsign, List.append_assoc, List.append_assoc]
    intro unit hunit
    rw [← Option.some.inj hunit]
    have hunit := U16String.of_isDigit hdigit
    exact ⟨hunit.2.2.1, hunit.2.1⟩
  have hvalid : validateEnd rest = some rest := by
    unfold validateEnd
    rw [if_neg]
    rw [Option.any_eq_true]
    rintro ⟨unit, hunit, hforbidden⟩
    obtain ⟨-, hletter, hpoint, hline, -⟩ := hrest unit hunit
    rw [hletter, Bool.or_false, Bool.or_eq_true, beq_iff_eq, beq_iff_eq] at hforbidden
    exact hforbidden.elim hpoint hline
  unfold numericLiteralEnd
  dsimp only
  rw [hsigned, if_neg, if_neg hlead, if_pos rfl,
    dropWhile_isDigit_append hdigits fun unit hunit ↦ (hfractionHead unit hunit).1,
    skipFraction_append hfraction fun unit hunit ↦
      ⟨(hexponentHead unit hunit).1, (hexponentHead unit hunit).2.1⟩,
    skipExponent_append hexponent, hvalid]
  · intro unit hunit
    obtain ⟨hdigit, -, -, -, hplus, hminus⟩ := hrest unit hunit
    exact ⟨hdigit, halpha unit hunit _ (by decide), halpha unit hunit _ (by decide), hminus, hplus⟩
  · show ¬ isDigit digit = false
    rw [hdigit]
    decide

theorem of_parseNumericLiteral {rest : TextLines}
    (hparse : parseNumericLiteral false true lines = some (literal, rest))
    (hlines : HaveNoLineFeed lines) :
    HaveNoLineFeed rest ∧ IsDecimalLiteral literal ∧
      remaining lines = literal ++ remaining rest := by
  cases lines with
  | nil => cases hparse
  | cons line others =>
    rw [parseNumericLiteral, Option.map_eq_some_iff] at hparse
    obtain ⟨last, hend, hsame⟩ := hparse
    obtain ⟨rfl, rfl⟩ := Prod.mk.inj hsame
    obtain ⟨number, hnumber, rfl⟩ := of_numericLiteralEnd hend
    rw [List.length_append, Nat.add_sub_cancel, List.take_left]
    exact ⟨hlines.of_append.2, hnumber, remaining_append number last others⟩

theorem IsDecimalLiteral.head?_mem (hliteral : IsDecimalLiteral literal) :
    ∃ unit, literal.head? = some unit ∧ (isDigit unit = true ∨ unit = 0x2D ∨ unit = 0x2B) := by
  obtain ⟨sign, digits, fraction, exponent, hsign, hne, hdigits, -, -, rfl⟩ := hliteral
  rcases hsign with rfl | rfl | rfl
  · obtain ⟨digit, others, rfl⟩ := List.exists_cons_of_ne_nil hne
    exact ⟨digit, rfl, Or.inl (hdigits digit List.mem_cons_self)⟩
  · exact ⟨0x2D, rfl, Or.inr (Or.inl rfl)⟩
  · exact ⟨0x2B, rfl, Or.inr (Or.inr rfl)⟩

theorem IsDecimalLiteral.not_mem_lineFeed (hliteral : IsDecimalLiteral literal) :
    LINE_FEED ∉ literal := by
  obtain ⟨sign, digits, fraction, exponent, hsign, -, hdigits, hfraction, hexponent, rfl⟩ := hliteral
  have hdigitsFeed : ∀ digits, AreDigits digits → LINE_FEED ∉ digits :=
    fun digits hdigits h ↦ absurd (hdigits _ h) (by decide)
  have hsignFeed : ∀ sign, IsSign sign → LINE_FEED ∉ sign := by
    rintro sign (rfl | rfl | rfl) <;> decide
  simp only [List.mem_append, not_or]
  refine ⟨hsignFeed sign hsign, hdigitsFeed digits hdigits, ?_, ?_⟩
  · rcases hfraction with rfl | ⟨more, hmore, rfl⟩
    · exact List.not_mem_nil
    · rw [List.mem_cons, not_or]
      exact ⟨by decide, hdigitsFeed more hmore⟩
  · rcases hexponent with rfl | ⟨letter, other, more, hletter, hother, hmore, rfl⟩
    · exact List.not_mem_nil
    · rw [List.mem_cons, List.mem_append, not_or, not_or]
      refine ⟨?_, hsignFeed other hother, hdigitsFeed more hmore⟩
      rcases hletter with rfl | rfl <;> decide

theorem parseNumericLiteral_eq_some (hremaining : remaining lines = literal ++ rest)
    (hliteral : IsDecimalLiteral literal) (hrest : IsDelimited rest) :
    ∃ after, parseNumericLiteral false true lines = some (literal, after) ∧
      remaining after = rest := by
  obtain ⟨first, hfirst, -⟩ := hliteral.head?_mem
  have hne : literal ≠ [] := by
    rintro rfl
    cases hfirst
  obtain ⟨line, others, rfl, rfl⟩ := exists_line hremaining hne hliteral.not_mem_lineFeed
  have hline : IsDelimited line := by
    intro unit hunit
    cases line with
    | nil => cases hunit
    | cons other more =>
      apply hrest
      rw [show remaining ((other :: more) :: others) = other :: remaining (more :: others) from
        remaining_append [other] more others]
      exact hunit
  refine ⟨line :: others, ?_, rfl⟩
  rw [parseNumericLiteral, numericLiteralEnd_append hliteral hline, Option.map_some,
    List.length_append, Nat.add_sub_cancel, List.take_left]

theorem parseNumericLiteral_eq_none (hlines : HaveNoLineFeed lines)
    (hhead : ∀ unit ∈ (remaining lines).head?, isDigit unit = false ∧ unit ≠ 0x2D ∧ unit ≠ 0x2B) :
    parseNumericLiteral false true lines = none := by
  apply Option.eq_none_iff_forall_ne_some.mpr
  rintro ⟨literal, rest⟩ hparse
  obtain ⟨-, hliteral, hremaining⟩ := of_parseNumericLiteral hparse hlines
  obtain ⟨unit, hunit, hkind⟩ := hliteral.head?_mem
  cases literal with
  | nil => cases hunit
  | cons first more =>
    rw [hremaining] at hhead
    obtain ⟨hdigit, hminus, hplus⟩ := hhead unit hunit
    rcases hkind with h | h | h
    · rw [hdigit] at h
      cases h
    · exact hminus h
    · exact hplus h

end TextLines

end TSDuck
