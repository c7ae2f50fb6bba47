import TSDuck.Text.TextParser

/-!
# Positions of a text parser

A position of a `TextParser` is an iterator in a list of lines and an index in the current line. The
lines are in a list of the caller, or in the own list of the parser, which each call of
`loadDocument` replaces: a position which was in lines that no longer exist cannot be used.

After any sequence of calls a position should be in the loaded document, `skipLine` should go to the
next line, `rewind` to the start of the loaded document, and a call which fails should leave the
position where it is (`StepIsRight`). `isRight_iff_meets` says in which sequences of calls this is
the case.

Scope. The texts which `parseText` and `parseXMLName` return are left out, as is the number of the
line. The uppercase of a character outside ASCII, which depends on the locale, is a parameter.
-/

namespace TSDuck.TextParser

open UChar

/-- The document of a call of `loadDocument`. -/
inductive Document where
  | own (loads : ℕ)
  | caller (list : ℕ)
deriving DecidableEq

/-- The list of a document, `none` for the own one. -/
def Document.list : Document → Option ℕ
  | own _ => none
  | caller list => some list

inductive Position where
  | atEnd (list : Option ℕ)
  | inLine (document : Document) (line index : ℕ)
deriving DecidableEq

def Position.list : Position → Option ℕ
  | atEnd list => list
  | inLine document _ _ => document.list

def Position.begin (document : Document) (lines : TextLines) : Position :=
  if lines.isEmpty then atEnd document.list else inLine document 0 0

/-- The position is in a line or at the end of the document. -/
def Position.IsIn (document : Document) (lines : TextLines) : Position → Prop
  | .atEnd list => list = document.list
  | .inLine other line index =>
    other = document ∧ ∃ current, (lines)[line]? = some current ∧ index ≤ current.length

/-- A parser with its last document and its positions. -/
structure Parser where
  ownLines : TextLines
  loads : ℕ
  loaded : Document
  position : Position
  visited : List Position

def Parser.new : Parser := ⟨[], 0, .own 0, .atEnd none, []⟩

/-- The tokens in one line. -/
inductive Token where
  | text (str : U16String) (skipIfMatch caseSensitive : Bool)
  | xmlName
  | numericLiteral (allowHexa allowFloat : Bool)
  | stringLiteral (requiredQuote : Option UChar)
  | jsonStringLiteral

inductive Operation where
  | loadLines (list : ℕ)
  | loadText (text : U16String)
  | skipWhiteSpace
  | skipLine
  | rewind
  | seek (visit : ℕ)
  | token (token : Token)
  | parseText (endToken : U16String) (skipIfMatch : Bool)

def isXMLNameStartChar (unit : UChar) : Bool := isAlpha unit || unit == 0x3A || unit == 0x5F

def isXMLNameChar (unit : UChar) : Bool :=
  isXMLNameStartChar unit || isDigit unit || unit == 0x2E || unit == 0x2D

/-! ### Moves -/

section Moves

variable (lists : ℕ → TextLines) (toUpper : UChar → UChar)

def matchesLine (str line : U16String) (caseSensitive : Bool) : Bool :=
  if caseSensitive then str.isPrefixOf line else (str.map toUpper).isPrefixOf (line.map toUpper)

/-- The line after a token, `none` if it is not there. -/
def lineAfter (line : U16String) : Token → Option U16String
  | .text str skipIfMatch caseSensitive =>
    if matchesLine toUpper str line caseSensitive then
      some (if skipIfMatch then line.drop str.length else line)
    else none
  | .xmlName => if line.head?.any isXMLNameStartChar then some (line.dropWhile isXMLNameChar) else none
  | .numericLiteral allowHexa allowFloat =>
    (TextLines.parseNumericLiteral allowHexa allowFloat [line]).bind (·.2.head?)
  | .stringLiteral requiredQuote => (TextLines.parseStringLiteral requiredQuote [line]).bind (·.2.head?)
  | .jsonStringLiteral => (TextLines.parseJSONStringLiteral [line]).bind (·.2.head?)

def skipSpaces (document : Document) : TextLines → ℕ → ℕ → Position
  | [], _, _ => .atEnd document.list
  | current :: rest, line, index =>
    let stop := index + ((current.drop index).takeWhile isSpace).length
    if stop < current.length then .inLine document line stop else skipSpaces document rest (line + 1) 0

def skipLines (document : Document) : TextLines → Position
  | [] => .atEnd document.list
  | _ :: rest => skipLines document rest

def find (token : U16String) : U16String → Option ℕ
  | [] => if token = [] then some 0 else none
  | unit :: rest => if token.isPrefixOf (unit :: rest) then some 0 else (find token rest).map (· + 1)

def findToken (document : Document) (endToken : U16String) (skipIfMatch : Bool) :
    TextLines → ℕ → ℕ → Position × Bool
  | [], _, _ => (.atEnd document.list, false)
  | current :: rest, line, index =>
    match find endToken (current.drop index) with
    | none => findToken document endToken skipIfMatch rest (line + 1) 0
    | some place =>
      (.inLine document line (index + place + if skipIfMatch then endToken.length else 0), true)

namespace Parser

variable (parser : Parser)

def linesOf : Document → Option TextLines
  | .own loads => if loads = parser.loads then some parser.ownLines else none
  | .caller list => some (lists list)

def moveTo (position : Position) : Parser :=
  { parser with position, visited := parser.visited ++ [position] }

def loadDocument (document : Document) (ownLines lines : TextLines) : Parser :=
  moveTo { parser with ownLines, loads := parser.loads + 1, loaded := document }
    (Position.begin document lines)

/-- The position after an operation, and its result. -/
def read (document : Document) (lines : TextLines) (line index : ℕ) : Operation → Position × Bool
  | .skipWhiteSpace => (skipSpaces document (lines.drop line) line index, true)
  | .skipLine => (skipLines document (lines.drop line), true)
  | .token token =>
    match lineAfter toUpper (((lines)[line]?.getD []).drop index) token with
    | none => (.inLine document line index, false)
    | some rest => (.inLine document line (((lines)[line]?.getD []).length - rest.length), true)
  | .parseText endToken skipIfMatch =>
    findToken document endToken skipIfMatch (lines.drop line) line index
  | _ => (.inLine document line index, true)

def step : Operation → Option (Parser × Bool)
  | .loadLines list => some (parser.loadDocument (.caller list) [] (lists list), true)
  | .loadText text =>
    some (parser.loadDocument (.own (parser.loads + 1)) (TextLines.loadDocument text)
      (TextLines.loadDocument text), true)
  | .rewind => some (parser.moveTo (Position.begin (.own parser.loads) parser.ownLines), true)
  | .seek visit =>
    (parser.visited)[visit]?.map fun position ↦
      if position.list = parser.position.list then (parser.moveTo position, true)
      else (parser.moveTo parser.position, false)
  | operation =>
    match parser.position with
    | .atEnd list =>
      some (parser.moveTo (.atEnd list), operation matches .skipWhiteSpace | .skipLine)
    | .inLine document line index =>
      (parser.linesOf lists document).map fun lines ↦
        (parser.moveTo (read toUpper document lines line index operation).1,
          (read toUpper document lines line index operation).2)

/-! ### Right runs -/

/-- The position is in the document which was loaded last. -/
def Designates (position : Position) : Prop :=
  ∃ lines, parser.linesOf lists parser.loaded = some lines ∧ position.IsIn parser.loaded lines

/-- The start of the next line, or the end. -/
def nextLine : Position :=
  match parser.position with
  | .atEnd list => .atEnd list
  | .inLine document line _ =>
    if line + 1 < ((parser.linesOf lists document).getD []).length then .inLine document (line + 1) 0
    else .atEnd document.list

def IsParsing : Operation → Prop
  | .token _ | .parseText _ _ => True
  | _ => False

structure StepIsRight (operation : Operation) (next : Parser) (success : Bool) : Prop where
  designates : next.Designates lists next.position
  skipLine : operation = .skipLine → next.position = parser.nextLine lists
  rewind : operation = .rewind → ∀ lines, parser.linesOf lists parser.loaded = some lines →
    next.position = .begin parser.loaded lines
  unchanged : IsParsing operation → success = false → next.position = parser.position

/-- Each operation of a sequence does what it should. -/
def IsRight : Parser → List Operation → Prop
  | _, [] => True
  | parser, operation :: rest => ∀ next success,
    parser.step lists toUpper operation = some (next, success) →
    parser.StepIsRight lists operation next success ∧ IsRight next rest

/-- The skipped line is the last one, the document which is rewound is in the own list, a position
is restored in the same document, and the token which ends a text is in what remains. -/
def KeepsPlace : Operation → Prop
  | .skipLine => ∀ document line index lines, parser.position = .inLine document line index →
    parser.linesOf lists document = some lines → lines.length ≤ line + 1
  | .rewind => parser.loaded.list = none
  | .seek visit => ∀ document line index, (parser.visited)[visit]? = some (.inLine document line index) →
    document.list = parser.position.list → document = parser.loaded
  | .parseText endToken _ => ∀ document line index lines, parser.position = .inLine document line index →
    parser.linesOf lists document = some lines →
    endToken <:+: ((lines)[line]?.getD []).drop index ∨ ∃ text ∈ lines.drop (line + 1), endToken <:+: text
  | _ => True

/-- Each operation of a sequence meets its condition. -/
def Meets : Parser → List Operation → Prop
  | _, [] => True
  | parser, operation :: rest => ∀ next success,
    parser.step lists toUpper operation = some (next, success) →
    parser.KeepsPlace lists operation ∧ Meets next rest

/-- A position is in its document while the lines exist. -/
def Keeps (position : Position) : Prop :=
  ∀ document line index, position = .inLine document line index →
    (∀ loads, document = .own loads → loads ≤ parser.loads) ∧
      ∀ lines, parser.linesOf lists document = some lines → position.IsIn document lines

structure IsSound : Prop where
  designates : parser.Designates lists parser.position
  visited : ∀ position ∈ parser.visited, parser.Keeps lists position
  loaded : ∀ loads, parser.loaded = .own loads → loads = parser.loads

end Parser

end Moves

/-! ### The loops -/

theorem find_add_length_le {token line : U16String} {place : ℕ} (hfind : find token line = some place) :
    place + token.length ≤ line.length := by
  induction line generalizing place with
  | nil =>
    rw [find] at hfind
    split_ifs at hfind with hempty
    obtain rfl := Option.some.inj hfind
    rw [hempty]
    exact le_rfl
  | cons unit rest ih =>
    rw [find] at hfind
    split_ifs at hfind with hprefix
    · obtain rfl := Option.some.inj hfind
      rw [Nat.zero_add]
      exact (List.isPrefixOf_iff_prefix.mp hprefix).length_le
    · obtain ⟨before, hbefore, rfl⟩ := Option.map_eq_some_iff.mp hfind
      have hle := ih hbefore
      rw [List.length_cons]
      omega

theorem isSome_find_iff (token line : U16String) : (find token line).isSome ↔ token <:+: line := by
  induction line with
  | nil =>
    rw [find, List.infix_nil]
    split_ifs with hempty
    · exact iff_of_true rfl hempty
    · exact iff_of_false Bool.false_ne_true hempty
  | cons unit rest ih =>
    rw [find, List.infix_cons_iff, ← List.isPrefixOf_iff_prefix]
    split_ifs with hlead
    · exact iff_of_true rfl (Or.inl hlead)
    · rw [Option.isSome_map, ih]
      exact (or_iff_right hlead).symm

variable {document : Document} {lines rest : TextLines} {line index : ℕ}

theorem Position.isIn_begin (document : Document) (lines : TextLines) :
    (Position.begin document lines).IsIn document lines := by
  cases lines with
  | nil => exact rfl
  | cons first rest => exact ⟨rfl, first, rfl, Nat.zero_le _⟩

theorem getElem?_of_drop {current : U16String} (hrest : lines.drop line = current :: rest) :
    (lines)[line]? = some current ∧ lines.drop (line + 1) = rest := by
  constructor
  · rw [← List.head?_drop, hrest, List.head?_cons]
  · rw [← List.tail_drop, hrest, List.tail_cons]

theorem isIn_skipSpaces (hrest : lines.drop line = rest) :
    (skipSpaces document rest line index).IsIn document lines := by
  induction rest generalizing line index with
  | nil => exact rfl
  | cons current rest ih =>
    obtain ⟨hcurrent, hnext⟩ := getElem?_of_drop hrest
    rw [skipSpaces]
    split_ifs with hstop
    · exact ⟨rfl, current, hcurrent, hstop.le⟩
    · exact ih hnext

theorem skipLines_eq (document : Document) (lines : TextLines) :
    skipLines document lines = .atEnd document.list := by
  induction lines with
  | nil => rfl
  | cons first rest ih => exact ih

theorem isIn_findToken (endToken : U16String) (skipIfMatch : Bool) (hrest : lines.drop line = rest)
    (hindex : ∀ current, rest.head? = some current → index ≤ current.length) :
    (findToken document endToken skipIfMatch rest line index).1.IsIn document lines := by
  induction rest generalizing line index with
  | nil => exact rfl
  | cons current rest ih =>
    obtain ⟨hcurrent, hnext⟩ := getElem?_of_drop hrest
    rw [findToken]
    cases hfind : find endToken (current.drop index) with
    | none => exact ih hnext fun _ _ ↦ Nat.zero_le _
    | some place =>
      refine ⟨rfl, current, hcurrent, ?_⟩
      have hle := find_add_length_le hfind
      have hstart := hindex current rfl
      rw [List.length_drop] at hle
      split_ifs <;> omega

theorem findToken_eq_true_iff (endToken : U16String) (skipIfMatch : Bool) (current : U16String) :
    (findToken document endToken skipIfMatch (current :: rest) line index).2 = true ↔
      endToken <:+: current.drop index ∨ ∃ text ∈ rest, endToken <:+: text := by
  induction rest generalizing current line index with
  | nil =>
    rw [findToken, ← isSome_find_iff]
    cases hfind : find endToken (current.drop index) with
    | none =>
      refine iff_of_false Bool.false_ne_true ?_
      rintro (hnone | ⟨text, htext, -⟩)
      · exact Bool.false_ne_true hnone
      · exact List.not_mem_nil htext
    | some place => exact iff_of_true rfl (Or.inl rfl)
  | cons next rest ih =>
    rw [findToken, ← isSome_find_iff]
    cases hfind : find endToken (current.drop index) with
    | none =>
      rw [List.exists_mem_cons_iff, or_iff_right (show ¬ none.isSome = true from Bool.false_ne_true)]
      exact ih next
    | some place => exact iff_of_true rfl (Or.inl rfl)

theorem findToken_of_not_found {endToken : U16String} {skipIfMatch : Bool}
    (hfound : (findToken document endToken skipIfMatch rest line index).2 = false) :
    (findToken document endToken skipIfMatch rest line index).1 = .atEnd document.list := by
  induction rest generalizing line index with
  | nil => rfl
  | cons current rest ih =>
    rw [findToken] at hfound ⊢
    cases hfind : find endToken (current.drop index) with
    | none =>
      rw [hfind] at hfound
      exact ih hfound
    | some place =>
      rw [hfind] at hfound
      cases hfound

/-! ### One operation -/

namespace Parser

variable {lists : ℕ → TextLines} {toUpper : UChar → UChar} {parser next : Parser} {success : Bool}
  {operation : Operation} {position : Position}

theorem IsSound.keeps (hsound : parser.IsSound lists) (hposition : parser.Designates lists position) :
    parser.Keeps lists position := by
  rintro document line index rfl
  obtain ⟨lines, hlines, rfl, hcurrent⟩ := hposition
  refine ⟨fun loads hloads ↦ (hsound.loaded loads hloads).le, ?_⟩
  intro others hothers
  obtain rfl := Option.some.inj (hlines.symm.trans hothers)
  exact ⟨rfl, hcurrent⟩

theorem IsSound.moveTo (hsound : parser.IsSound lists) (hposition : parser.Designates lists position) :
    (parser.moveTo position).IsSound lists where
  designates := hposition
  visited := by
    intro other hother
    rcases List.mem_append.mp hother with hother | hother
    · exact hsound.visited other hother
    · rw [List.mem_singleton.mp hother]
      exact hsound.keeps hposition
  loaded := hsound.loaded

theorem IsSound.loadDocument {document : Document} {ownLines lines : TextLines}
    (hsound : parser.IsSound lists)
    (hlines : (parser.loadDocument document ownLines lines).linesOf lists document = some lines)
    (hloaded : ∀ loads, document = .own loads → loads = parser.loads + 1) :
    (parser.loadDocument document ownLines lines).IsSound lists := by
  have hnew : IsSound lists
      { parser with ownLines, loads := parser.loads + 1, loaded := document,
                    position := .begin document lines } := by
    refine ⟨⟨lines, hlines, Position.isIn_begin _ _⟩, ?_, hloaded⟩
    rintro visit hvisit other line index rfl
    obtain ⟨hloads, hcurrent⟩ := hsound.visited _ hvisit other line index rfl
    refine ⟨fun loads hother ↦ Nat.le_succ_of_le (hloads loads hother), ?_⟩
    intro others hothers
    cases other with
    | own loads =>
      -- the lines of a document which was in the own list have been replaced
      rw [linesOf, if_neg (Nat.ne_of_lt (Nat.lt_succ_of_le (hloads loads rfl)))] at hothers
      cases hothers
    | caller list => exact hcurrent others hothers
  exact hnew.moveTo hnew.designates

theorem IsSound.linesOf_loaded (hsound : parser.IsSound lists) (hown : parser.loaded.list = none) :
    parser.loaded = .own parser.loads ∧ parser.linesOf lists parser.loaded = some parser.ownLines := by
  cases hloaded : parser.loaded with
  | own loads =>
    obtain rfl := hsound.loaded loads hloaded
    exact ⟨rfl, if_pos rfl⟩
  | caller list =>
    rw [hloaded] at hown
    cases hown

theorem isSound_new (lists : ℕ → TextLines) : new.IsSound lists where
  designates := ⟨[], rfl, rfl⟩
  visited := fun _ hposition ↦ absurd hposition List.not_mem_nil
  loaded := by
    rintro loads hloads
    cases hloads
    rfl

theorem isIn_read {document : Document} {lines : TextLines} {line index : ℕ} {current : U16String}
    (hcurrent : (lines)[line]? = some current) (hindex : index ≤ current.length) :
    (read toUpper document lines line index operation).1.IsIn document lines := by
  have hstays : (Position.inLine document line index).IsIn document lines :=
    ⟨rfl, current, hcurrent, hindex⟩
  cases operation with
  | skipWhiteSpace => exact isIn_skipSpaces rfl
  | skipLine =>
    rw [read, skipLines_eq]
    exact rfl
  | token token =>
    rw [read]
    cases lineAfter toUpper (((lines)[line]?.getD []).drop index) token with
    | none => exact hstays
    | some rest =>
      refine ⟨rfl, current, hcurrent, ?_⟩
      rw [hcurrent]
      exact Nat.sub_le _ _
  | parseText endToken skipIfMatch =>
    refine isIn_findToken endToken skipIfMatch rfl ?_
    intro first hfirst
    rw [List.head?_drop, hcurrent] at hfirst
    exact Option.some.inj hfirst ▸ hindex
  | loadLines | loadText | rewind | seek => exact hstays

/-- The operations which read the lines. -/
def Reads : Operation → Prop
  | .skipWhiteSpace | .skipLine | .token _ | .parseText _ _ => True
  | _ => False

theorem IsSound.reads_atEnd {list : Option ℕ} (hsound : parser.IsSound lists) (hreads : Reads operation)
    (hposition : parser.position = .atEnd list)
    (hstep : parser.step lists toUpper operation = some (next, success)) :
    parser.StepIsRight lists operation next success ∧ parser.KeepsPlace lists operation ∧
      next = parser.moveTo parser.position := by
  have hnext : next = parser.moveTo parser.position := by
    cases operation with
    | skipWhiteSpace | skipLine | token | parseText =>
      simp only [step, hposition, Option.some.injEq, Prod.mk.injEq] at hstep
      exact hposition ▸ hstep.1.symm
    | loadLines | loadText | rewind | seek => exact absurd hreads id
  subst hnext
  refine ⟨⟨hsound.designates, ?_, ?_, fun _ _ ↦ rfl⟩, ?_, rfl⟩
  · intro _
    rw [nextLine, hposition]
    exact rfl
  · rintro rfl
    exact absurd hreads id
  · cases operation with
    | skipLine | parseText =>
      intro document line index lines hline
      rw [hposition] at hline
      cases hline
    | skipWhiteSpace | token => exact trivial
    | loadLines | loadText | rewind | seek => exact absurd hreads id

theorem step_inLine {line index : ℕ} {lines : TextLines} (hreads : Reads operation)
    (hposition : parser.position = .inLine parser.loaded line index)
    (hlines : parser.linesOf lists parser.loaded = some lines) :
    parser.step lists toUpper operation =
      some (parser.moveTo (read toUpper parser.loaded lines line index operation).1,
        (read toUpper parser.loaded lines line index operation).2) := by
  cases operation with
  | skipWhiteSpace | skipLine | token | parseText =>
    simp only [step, hposition, hlines, Option.map_some]
  | loadLines | loadText | rewind | seek => exact absurd hreads id

theorem nextLine_eq_atEnd_iff {line index : ℕ} {lines : TextLines}
    (hposition : parser.position = .inLine parser.loaded line index)
    (hlines : parser.linesOf lists parser.loaded = some lines) :
    .atEnd parser.loaded.list = parser.nextLine lists ↔ lines.length ≤ line + 1 := by
  rw [nextLine, hposition]
  simp only [hlines, Option.getD_some]
  split_ifs with hline
  · exact iff_of_false id (by omega)
  · exact iff_of_true rfl (by omega)

theorem forall_inLine_iff {line index : ℕ} {lines : TextLines} {place : ℕ → ℕ → TextLines → Prop}
    (hposition : parser.position = .inLine parser.loaded line index)
    (hlines : parser.linesOf lists parser.loaded = some lines) :
    (∀ document line index lines, parser.position = .inLine document line index →
      parser.linesOf lists document = some lines → place line index lines) ↔ place line index lines := by
  constructor
  · intro hplace
    exact hplace _ _ _ _ hposition hlines
  · intro hplace document other place others hother hothers
    rw [hposition] at hother
    obtain ⟨rfl, rfl, rfl⟩ := Position.inLine.inj hother
    obtain rfl := Option.some.inj (hlines.symm.trans hothers)
    exact hplace

theorem reads_inLine {line index : ℕ} {lines : TextLines} {current : U16String}
    (hreads : Reads operation) (hposition : parser.position = .inLine parser.loaded line index)
    (hlines : parser.linesOf lists parser.loaded = some lines)
    (hcurrent : (lines)[line]? = some current) (hindex : index ≤ current.length)
    (hstep : parser.step lists toUpper operation = some (next, success)) :
    parser.StepIsRight lists operation next success ↔ parser.KeepsPlace lists operation := by
  rw [step_inLine hreads hposition hlines] at hstep
  obtain ⟨rfl, rfl⟩ := Prod.mk.inj (Option.some.inj hstep)
  have hdesignates : (read toUpper parser.loaded lines line index operation).1.IsIn parser.loaded lines :=
    isIn_read hcurrent hindex
  cases operation with
  | skipWhiteSpace =>
    exact iff_of_true ⟨⟨lines, hlines, hdesignates⟩, Operation.noConfusion, Operation.noConfusion,
      fun hparsing _ ↦ hparsing.elim⟩ trivial
  | skipLine =>
    rw [KeepsPlace, forall_inLine_iff hposition hlines, ← nextLine_eq_atEnd_iff hposition hlines]
    constructor
    · intro hright
      exact (skipLines_eq _ _).symm.trans (hright.skipLine rfl)
    · intro hnext
      exact ⟨⟨lines, hlines, hdesignates⟩, fun _ ↦ (skipLines_eq _ _).trans hnext, Operation.noConfusion,
        fun hparsing _ ↦ hparsing.elim⟩
  | token token =>
    refine iff_of_true ⟨⟨lines, hlines, hdesignates⟩, Operation.noConfusion, Operation.noConfusion, ?_⟩
      trivial
    intro _ hfailed
    rw [read] at hfailed ⊢
    cases hafter : lineAfter toUpper (((lines)[line]?.getD []).drop index) token with
    | none => exact hposition.symm
    | some rest =>
      rw [hafter] at hfailed
      cases hfailed
  | parseText endToken skipIfMatch =>
    have hdrop : lines.drop line = current :: lines.drop (line + 1) := by
      rw [List.drop_eq_getElem?_toList_append, hcurrent]
      rfl
    have hfound :
        (findToken parser.loaded endToken skipIfMatch (current :: lines.drop (line + 1)) line index).2 =
          true ↔ _ :=
      findToken_eq_true_iff endToken skipIfMatch current
    rw [← hdrop] at hfound
    rw [KeepsPlace, forall_inLine_iff hposition hlines, hcurrent, Option.getD_some, ← hfound]
    constructor
    · intro hright
      by_contra hmissing
      have hfailed := Bool.eq_false_of_not_eq_true hmissing
      have hstays := hright.unchanged trivial hfailed
      rw [hposition] at hstays
      cases (findToken_of_not_found hfailed).symm.trans hstays
    · intro htrue
      refine ⟨⟨lines, hlines, hdesignates⟩, Operation.noConfusion, Operation.noConfusion, ?_⟩
      intro _ hfailed
      cases htrue.symm.trans hfailed
  | loadLines | loadText | rewind | seek => exact absurd hreads id

theorem IsSound.rewind_iff (hsound : parser.IsSound lists)
    (hstep : parser.step lists toUpper .rewind = some (next, success)) :
    parser.StepIsRight lists .rewind next success ↔ parser.loaded.list = none := by
  obtain ⟨rfl, rfl⟩ := Prod.mk.inj (Option.some.inj hstep)
  constructor
  · intro hright
    obtain ⟨lines, -, hin⟩ := hright.designates
    cases hown : parser.ownLines with
    | nil =>
      rw [hown] at hin
      exact hin.symm
    | cons first rest =>
      rw [hown] at hin
      exact congrArg Document.list hin.1.symm
  · intro hown
    obtain ⟨hloaded, hlines⟩ := hsound.linesOf_loaded hown
    refine ⟨⟨parser.ownLines, hlines, ?_⟩, Operation.noConfusion, ?_, fun hparsing _ ↦ hparsing.elim⟩
    · rw [show (parser.moveTo _).loaded = parser.loaded from rfl, hloaded]
      exact Position.isIn_begin _ _
    · intro _ lines hothers
      obtain rfl := Option.some.inj (hlines.symm.trans hothers)
      rw [hloaded]
      rfl

theorem IsSound.seek_iff {visit : ℕ} (hsound : parser.IsSound lists)
    (hstep : parser.step lists toUpper (.seek visit) = some (next, success)) :
    parser.StepIsRight lists (.seek visit) next success ↔ parser.KeepsPlace lists (.seek visit) := by
  obtain ⟨place, hplace, hnext⟩ := Option.map_eq_some_iff.mp hstep
  obtain ⟨lines, hlines, hcurrent⟩ := hsound.designates
  have hlist : parser.position.list = parser.loaded.list := by
    cases hposition : parser.position with
    | atEnd list =>
      rw [hposition] at hcurrent
      exact hcurrent
    | inLine document line index =>
      rw [hposition] at hcurrent
      exact congrArg Document.list hcurrent.1
  have hright : parser.StepIsRight lists (.seek visit) next success ↔
      next.Designates lists next.position :=
    ⟨StepIsRight.designates, fun hdesignates ↦
      ⟨hdesignates, Operation.noConfusion, Operation.noConfusion, fun hparsing _ ↦ hparsing.elim⟩⟩
  rw [hright, KeepsPlace, hplace]
  split_ifs at hnext with hsame
  · obtain ⟨rfl, rfl⟩ := Prod.mk.inj hnext
    cases place with
    | atEnd list => exact iff_of_true ⟨lines, hlines, hsame.trans hlist⟩ fun _ _ _ hline ↦ nomatch hline
    | inLine document line index =>
      constructor
      · rintro ⟨others, -, hin⟩ _ _ _ hline -
        cases hline
        exact hin.1
      · intro hkeeps
        obtain rfl := hkeeps document line index rfl hsame
        have hvisit := hsound.visited _ (List.mem_of_getElem? hplace) _ line index rfl
        exact ⟨lines, hlines, hvisit.2 lines hlines⟩
  · obtain ⟨rfl, rfl⟩ := Prod.mk.inj hnext
    refine iff_of_true ⟨lines, hlines, hcurrent⟩ ?_
    intro document line index hline hother
    obtain rfl := Option.some.inj hline
    exact absurd hother hsame

theorem IsSound.loadLines (hsound : parser.IsSound lists) (list : ℕ) :
    (parser.loadDocument (.caller list) [] (lists list)).IsSound lists :=
  hsound.loadDocument rfl fun _ hloads ↦ nomatch hloads

theorem IsSound.loadText (hsound : parser.IsSound lists) (lines : TextLines) :
    (parser.loadDocument (.own (parser.loads + 1)) lines lines).IsSound lists :=
  hsound.loadDocument (if_pos rfl) fun _ hloads ↦ (Document.own.inj hloads).symm

theorem stepIsRight_of_load (hnext : next.IsSound lists) (hreads : ¬ Reads operation)
    (hrewind : operation ≠ .rewind) : parser.StepIsRight lists operation next success := by
  refine ⟨hnext.designates, ?_, fun h ↦ absurd h hrewind, ?_⟩
  · rintro rfl
    exact absurd trivial hreads
  · intro hparsing
    cases operation with
    | token | parseText => exact absurd trivial hreads
    | loadLines | loadText | skipWhiteSpace | skipLine | rewind | seek => exact hparsing.elim

theorem IsSound.stepIsRight_iff (hsound : parser.IsSound lists)
    (hstep : parser.step lists toUpper operation = some (next, success)) :
    parser.StepIsRight lists operation next success ↔ parser.KeepsPlace lists operation := by
  by_cases hreads : Reads operation
  · cases hposition : parser.position with
    | atEnd list =>
      obtain ⟨hright, hkeeps, -⟩ := hsound.reads_atEnd hreads hposition hstep
      exact iff_of_true hright hkeeps
    | inLine document line index =>
      obtain ⟨lines, hlines, hin⟩ := hsound.designates
      rw [hposition] at hin
      obtain ⟨rfl, current, hcurrent, hindex⟩ := hin
      exact reads_inLine hreads hposition hlines hcurrent hindex hstep
  · cases operation with
    | loadLines list =>
      obtain ⟨rfl, -⟩ := Prod.mk.inj (Option.some.inj hstep)
      exact iff_of_true (stepIsRight_of_load (hsound.loadLines list) hreads Operation.noConfusion) trivial
    | loadText text =>
      obtain ⟨rfl, -⟩ := Prod.mk.inj (Option.some.inj hstep)
      exact iff_of_true (stepIsRight_of_load (hsound.loadText _) hreads Operation.noConfusion) trivial
    | rewind => exact hsound.rewind_iff hstep
    | seek visit => exact hsound.seek_iff hstep
    | skipWhiteSpace | skipLine | token | parseText => exact absurd trivial hreads

theorem IsSound.step (hsound : parser.IsSound lists)
    (hstep : parser.step lists toUpper operation = some (next, success))
    (hright : parser.StepIsRight lists operation next success) : next.IsSound lists := by
  have hmove : ∀ position, next = parser.moveTo position → next.IsSound lists := by
    rintro position rfl
    exact hsound.moveTo hright.designates
  by_cases hreads : Reads operation
  · cases hposition : parser.position with
    | atEnd list => exact hmove _ (hsound.reads_atEnd hreads hposition hstep).2.2
    | inLine document line index =>
      obtain ⟨lines, hlines, hin⟩ := hsound.designates
      rw [hposition] at hin
      obtain ⟨rfl, -⟩ := hin
      rw [step_inLine hreads hposition hlines] at hstep
      exact hmove _ (Prod.mk.inj (Option.some.inj hstep)).1.symm
  · cases operation with
    | loadLines list =>
      obtain ⟨rfl, -⟩ := Prod.mk.inj (Option.some.inj hstep)
      exact hsound.loadLines list
    | loadText text =>
      obtain ⟨rfl, -⟩ := Prod.mk.inj (Option.some.inj hstep)
      exact hsound.loadText _
    | rewind => exact hmove _ (Prod.mk.inj (Option.some.inj hstep)).1.symm
    | seek visit =>
      obtain ⟨place, -, hnext⟩ := Option.map_eq_some_iff.mp hstep
      split_ifs at hnext
      · exact hmove _ (Prod.mk.inj hnext).1.symm
      · exact hmove _ (Prod.mk.inj hnext).1.symm
    | skipWhiteSpace | skipLine | token | parseText => exact absurd trivial hreads

theorem IsSound.run_isRight_iff (hsound : parser.IsSound lists) (operations : List Operation) :
    IsRight lists toUpper parser operations ↔ Meets lists toUpper parser operations := by
  induction operations generalizing parser with
  | nil => exact Iff.rfl
  | cons operation rest ih =>
    constructor
    · intro hright next success hstep
      obtain ⟨hfirst, hrest⟩ := hright next success hstep
      exact ⟨(hsound.stepIsRight_iff hstep).mp hfirst, (ih (hsound.step hstep hfirst)).mp hrest⟩
    · intro hmeets next success hstep
      obtain ⟨hkeeps, hrest⟩ := hmeets next success hstep
      have hfirst := (hsound.stepIsRight_iff hstep).mpr hkeeps
      exact ⟨hfirst, (ih (hsound.step hstep hfirst)).mpr hrest⟩

/-- Each call does what it should if and only if each call meets its condition. -/
theorem isRight_iff_meets (lists : ℕ → TextLines) (toUpper : UChar → UChar) (operations : List Operation) :
    IsRight lists toUpper new operations ↔ Meets lists toUpper new operations :=
  (isSound_new lists).run_isRight_iff operations

/-- `skipLine` on the first of two lines goes to the end of the document. -/
theorem not_isRight_of_two_lines :
    ¬ IsRight (fun _ ↦ []) id new [.loadText [0x41, 0x0A, 0x42], .skipLine] := by
  intro hright
  obtain ⟨-, hrest⟩ := hright _ _ rfl
  obtain ⟨hskip, -⟩ := hrest _ _ rfl
  have hnext := hskip.skipLine rfl
  revert hnext
  decide

end Parser

end TSDuck.TextParser
