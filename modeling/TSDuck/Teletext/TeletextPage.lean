import TSDuck.Text.UChar

/-!
# Teletext pages

A Teletext page is a screen of 25 rows and 40 columns of characters. The text is read and written
with checked accesses (`read`, `write`), and an access outside of the screen is the fault `text`.

Scope. `TeletextCharset` stands for the tables of characters, which say which characters are in a
page and not where.
-/

namespace TSDuck

open U16String

/-- What is accessed outside of its bounds. -/
inductive TeletextFault
  | payload
  | text
  deriving DecidableEq

/-- The operation ends without any access out of bounds. -/
def Succeeds {Value : Type} (result : Except TeletextFault Value) : Prop :=
  ∃ value, result = .ok value

section Succeeds

variable {Value Other : Type} {result : Except TeletextFault Value} {items : List Value}

theorem succeeds_ok (value : Value) : Succeeds (.ok value) :=
  ⟨value, rfl⟩

theorem Succeeds.bind {next : Value → Except TeletextFault Other} (hresult : Succeeds result)
    (hnext : ∀ value, Succeeds (next value)) : Succeeds (result >>= next) := by
  obtain ⟨value, rfl⟩ := hresult
  exact hnext value

theorem Succeeds.ite {condition : Prop} [Decidable condition] {other : Except TeletextFault Value}
    (hthen : condition → Succeeds result) (helse : ¬ condition → Succeeds other) :
    Succeeds (if condition then result else other) := by
  split_ifs with hcondition
  · exact hthen hcondition
  · exact helse hcondition

theorem succeeds_foldlM {step : Other → Value → Except TeletextFault Other}
    (hstep : ∀ item ∈ items, ∀ state, Succeeds (step state item)) (state : Other) :
    Succeeds (items.foldlM step state) := by
  induction items generalizing state with
  | nil => exact succeeds_ok state
  | cons item rest ih =>
    obtain ⟨hitem, hrest⟩ := List.forall_mem_cons.mp hstep
    exact (hitem state).bind (ih hrest)

theorem succeeds_mapM {step : Value → Except TeletextFault Other}
    (hstep : ∀ item ∈ items, Succeeds (step item)) : Succeeds (items.mapM step) := by
  induction items with
  | nil => exact succeeds_ok []
  | cons item rest ih =>
    obtain ⟨hitem, hrest⟩ := List.forall_mem_cons.mp hstep
    rw [List.mapM_cons]
    exact hitem.bind fun _ ↦ (ih hrest).bind fun _ ↦ succeeds_ok _

end Succeeds

/-- The conversions to UCS-2 and what changes them. -/
class TeletextCharset (Charset : Type) where
  new : Charset
  teletextToUcs2 : Charset → UInt8 → UChar
  g2ToUcs2 : Charset → UInt8 → UChar
  g2AccentToUcs2 : Charset → UInt8 → UInt8 → UChar
  setG0Charset : Charset → UInt32 → Charset
  setX28 : Charset → UInt8 → Charset
  setM29 : Charset → UInt8 → Charset
  resetX28 : Charset → UInt8 → Charset

structure TeletextFrame where
  pid : ℕ
  page : ℕ
  frameCount : UInt32
  showTimestamp : ℤ
  hideTimestamp : ℤ
  lines : List U16String

structure TeletextPage (Charset : Type) where
  frameCount : UInt32
  showTimestamp : ℤ
  hideTimestamp : ℤ
  tainted : Bool
  charset : Charset
  text : ℕ → ℕ → UChar

namespace TeletextPage

variable {Charset : Type}

def new [TeletextCharset Charset] : TeletextPage Charset :=
  ⟨0, 0, 0, false, TeletextCharset.new, fun _ _ ↦ 0⟩

def reset (page : TeletextPage Charset) (timestamp : ℤ) : TeletextPage Charset :=
  { page with showTimestamp := timestamp, hideTimestamp := 0, tainted := false, text := fun _ _ ↦ 0 }

def read (page : TeletextPage Charset) (row col : ℕ) : Except TeletextFault UChar :=
  if row < 25 ∧ col < 40 then .ok (page.text row col) else .error .text

def write (page : TeletextPage Charset) (row col : ℕ) (char : UChar) :
    Except TeletextFault (TeletextPage Charset) :=
  if row < 25 ∧ col < 40 then
    .ok { page with text := Function.update page.text row (Function.update (page.text row) col char) }
  else .error .text

/-- The first position, among some of them, where a box starts. -/
def findBox (page : TeletextPage Charset) : List (ℕ × ℕ) → Except TeletextFault (Option (ℕ × ℕ))
  | [] => .ok none
  | (row, col) :: rest => do
    let char ← page.read row col
    if char = 0x0B then .ok (some (row, col)) else page.findBox rest

/-- The columns of a line without spaces around it. -/
def trimLine (page : TeletextPage Charset) (row : ℕ) :
    List ℕ → ℕ → ℕ → Except TeletextFault (ℕ × ℕ)
  | [], colStart, colStop => .ok (colStart, colStop)
  | col :: rest, colStart, colStop => do
    let char ← page.read row col
    let first := if 0x20 < char ∧ 39 < colStop then col else colStart
    let last := if 0x20 < char then col else colStop
    if char = 0x0A then .ok (first, last) else page.trimLine row rest first last

def teletextColors : List U16String :=
  ["#000000", "#ff0000", "#00ff00", "#ffff00", "#0000ff", "#ff00ff", "#00ffff", "#ffffff"].map ofASCII

def fontTag (color : UChar) : U16String :=
  ofASCII "<font color=\"" ++ teletextColors.getD color.toNat [] ++ ofASCII "\">"

def htmlEntities : List (UChar × U16String) :=
  [(0x3C, ofASCII "&lt;"), (0x3E, ofASCII "&gt;"), (0x26, ofASCII "&amp;")]

structure LineInProgress where
  line : U16String
  foregroundColor : UChar
  fontTagOpened : Bool

def LineInProgress.start : LineInProgress :=
  ⟨[], 7, false⟩

def LineInProgress.openFont (state : LineInProgress) (color : UChar) : LineInProgress :=
  { state with line := state.line ++ fontTag color, fontTagOpened := true }

def LineInProgress.closeFont (state : LineInProgress) (tag : String) : LineInProgress :=
  if state.fontTagOpened then { state with line := state.line ++ ofASCII tag, fontTagOpened := false }
  else state

/-- A character which is displayed, as an entity when the line has tags. -/
def LineInProgress.append (addColors : Bool) (char : UChar) (state : LineInProgress) : LineInProgress :=
  if char < 0x20 then state
  else if addColors then { state with line := state.line ++ (htmlEntities.lookup char).getD [char] }
  else { state with line := state.line ++ [char] }

/-- One turn of the loop on the columns of a line. -/
def LineInProgress.add (addColors : Bool) (colStart col : ℕ) (char : UChar)
    (state : LineInProgress) : LineInProgress :=
  if col < colStart then if char ≤ 7 then { state with foregroundColor := char } else state
  else
    let started := if col = colStart ∧ state.foregroundColor ≠ 7 ∧ addColors = true then
      state.openFont state.foregroundColor else state
    if char ≤ 7 then
      if addColors then
        let closed := started.closeFont "</font> "
        if 0 < char ∧ char < 7 then closed.openFont char else closed
      else started.append addColors 0x20
    else started.append addColors char

/-- The line of a row, if a box starts in it. -/
def processRow (page : TeletextPage Charset) (addColors : Bool) (row : ℕ) :
    Except TeletextFault (Option U16String) := do
  match ← page.findBox ((List.range 40).reverse.map fun col ↦ (row, col)) with
  | none => .ok none
  | some (_, box) =>
    let (colStart, colStop) ← page.trimLine row (List.range' (box + 1) (39 - box)) box 40
    if 39 < colStop then .ok none
    else do
      let state ← (List.range (colStop + 1)).foldlM (fun (state : LineInProgress) col ↦ do
        let char ← page.read row col
        .ok (state.add addColors colStart col char)) .start
      .ok (some (if addColors then state.closeFont "</font>" else state).line)

def pageBcdToBinary (bcd : ℕ) : ℕ :=
  100 * ((bcd >>> 8) &&& 0x0F) + 10 * ((bcd >>> 4) &&& 0x0F) + (bcd &&& 0x0F)

/-- The frame of a page, unless the page is empty. -/
def processTeletextPage (page : TeletextPage Charset) (addColors : Bool) (pid pageNumber : ℕ) :
    Except TeletextFault (TeletextPage Charset × List TeletextFrame) := do
  match ← page.findBox
    ((List.range 40).flatMap fun col ↦ (List.range' 1 24).map fun row ↦ (row, col)) with
  | none => .ok (page, [])
  | some _ =>
    let page := { page with frameCount := page.frameCount + 1,
                            hideTimestamp := max page.showTimestamp page.hideTimestamp }
    let lines ← (List.range' 1 24).mapM (page.processRow addColors)
    .ok (page, [⟨pid, pageBcdToBinary pageNumber, page.frameCount, page.showTimestamp,
      page.hideTimestamp, lines.filterMap id⟩])

/-! ### The accesses to the text -/

variable {row col : ℕ}

variable (page : TeletextPage Charset)

theorem succeeds_read (hrow : row < 25) (hcol : col < 40) :
    Succeeds (page.read row col) :=
  ⟨_, if_pos ⟨hrow, hcol⟩⟩

theorem succeeds_write (hrow : row < 25) (hcol : col < 40) (char : UChar) :
    Succeeds (page.write row col char) :=
  ⟨_, if_pos ⟨hrow, hcol⟩⟩

theorem succeeds_findBox {cells : List (ℕ × ℕ)} (hcells : ∀ cell ∈ cells, cell.1 < 25 ∧ cell.2 < 40) :
    Succeeds (page.findBox cells) := by
  induction cells with
  | nil => exact succeeds_ok none
  | cons cell rest ih =>
    obtain ⟨hcell, hrest⟩ := List.forall_mem_cons.mp hcells
    refine (page.succeeds_read hcell.1 hcell.2).bind fun char ↦ ?_
    exact .ite (fun _ ↦ succeeds_ok _) fun _ ↦ ih hrest

theorem succeeds_trimLine (hrow : row < 25) {cols : List ℕ} (hcols : ∀ col ∈ cols, col < 40)
    (colStart colStop : ℕ) :
    Succeeds (page.trimLine row cols colStart colStop) := by
  induction cols generalizing colStart colStop with
  | nil => exact succeeds_ok _
  | cons col rest ih =>
    obtain ⟨hcol, hrest⟩ := List.forall_mem_cons.mp hcols
    refine (page.succeeds_read hrow hcol).bind fun char ↦ ?_
    exact .ite (fun _ ↦ succeeds_ok _) fun _ ↦ ih hrest _ _

theorem succeeds_processRow (addColors : Bool) (hrow : row < 25) :
    Succeeds (page.processRow addColors row) := by
  refine (page.succeeds_findBox fun cell hcell ↦ ?_).bind fun box ↦ ?_
  · obtain ⟨col, hcol, rfl⟩ := List.mem_map.mp hcell
    exact ⟨hrow, List.mem_range.mp (List.mem_reverse.mp hcol)⟩
  · cases box with
    | none => exact succeeds_ok none
    | some box =>
      refine (page.succeeds_trimLine hrow (fun col hcol ↦ ?_) _ _).bind fun ends ↦ ?_
      · have hrange := List.mem_range'_1.mp hcol
        omega
      · refine .ite (fun _ ↦ succeeds_ok none) fun hline ↦ ?_
        refine (succeeds_foldlM (fun col hcol state ↦ ?_) _).bind fun _ ↦ succeeds_ok _
        have hcolStop := List.mem_range.mp hcol
        exact (page.succeeds_read hrow (by omega)).bind fun _ ↦ succeeds_ok _

theorem succeeds_processTeletextPage (addColors : Bool) (pid pageNumber : ℕ) :
    Succeeds (page.processTeletextPage addColors pid pageNumber) := by
  have hrows : ∀ row ∈ List.range' 1 24, row < 25 := fun row hrow ↦ (List.mem_range'_1.mp hrow).2
  refine (page.succeeds_findBox fun cell hcell ↦ ?_).bind fun box ↦ ?_
  · obtain ⟨col, hcol, hcell⟩ := List.mem_flatMap.mp hcell
    obtain ⟨row, hrow, rfl⟩ := List.mem_map.mp hcell
    exact ⟨hrows row hrow, List.mem_range.mp hcol⟩
  · cases box with
    | none => exact succeeds_ok _
    | some box =>
      refine (succeeds_mapM fun row hrow ↦ ?_).bind fun _ ↦ succeeds_ok _
      exact succeeds_processRow _ addColors (hrows row hrow)

end TeletextPage

end TSDuck
