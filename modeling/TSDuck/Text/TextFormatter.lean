import TSDuck.Text.UChar

/-!
# Text formatter

A `TextFormatter` writes text in UTF-8 with a margin: `margin` goes to the column of the current
margin, after a new line if something was already written in the line, and the tabulations are
expanded.

`Emits` is what the clients need: which text was added to the output.

Scope. The buffer of the stream is left out: it is flushed before the state of the line is used. The
margin of the outermost elements is zero, as it is at the beginning.
-/

namespace TSDuck

/-- What was written, the margins, and the state of the line. -/
structure TextFormatter where
  out : ByteBlock
  indentSize : ℕ
  curMargin : ℕ
  column : ℕ
  afterSpace : Bool

namespace TextFormatter

open UChar

def TAB_SIZE : ℕ := 8

def new (indentSize : ℕ) : TextFormatter := ⟨[], indentSize, 0, 0, false⟩

def flushByte (output : TextFormatter) (byte : UInt8) : TextFormatter :=
  if byte = 0x09 then
    let column := (output.column / TAB_SIZE + 1) * TAB_SIZE
    { output with
      out := output.out ++ List.replicate (column - (output.column + 1)) 0x20
      column := column }
  else if byte = 0x0D ∨ byte = 0x0A then
    { output with
      out := output.out ++ [byte]
      column := 0
      afterSpace := false }
  else
    { output with
      out := output.out ++ [byte]
      column := output.column + 1
      afterSpace := output.afterSpace || byte != 0x20 }

def put (text : U16String) (output : TextFormatter) : TextFormatter :=
  (toUTF8 text).foldl flushByte output

def endl (output : TextFormatter) : TextFormatter := output.flushByte 0x0A

def margin (output : TextFormatter) : TextFormatter :=
  let newLine := output.curMargin < output.column || output.afterSpace
  let column := if newLine then 0 else output.column
  { output with
    out := output.out ++ (if newLine then [0x0A] else []) ++
      List.replicate (output.curMargin - column) 0x20
    column := output.curMargin
    afterSpace := false }

def indent (output : TextFormatter) : TextFormatter :=
  { output with curMargin := output.curMargin + output.indentSize }

def unindent (output : TextFormatter) : TextFormatter :=
  { output with curMargin := output.curMargin - min output.curMargin output.indentSize }

def toString (output : TextFormatter) : U16String :=
  (fromUTF8 output.out).filter (· ≠ CARRIAGE_RETURN)

def asciiBytes (text : U16String) : ByteBlock := text.map fun unit ↦ UInt8.ofNat unit.toNat

theorem asciiBytes_append (first second : U16String) :
    asciiBytes (first ++ second) = asciiBytes first ++ asciiBytes second := List.map_append

variable {text : U16String}

theorem convertUTF16ToUTF8_ascii (htext : ∀ unit ∈ text, unit.toNat < 0x80) {room : ℕ}
    (hroom : text.length ≤ room) : (convertUTF16ToUTF8 text room).1 = asciiBytes text := by
  induction text generalizing room with
  | nil => rfl
  | cons unit rest ih =>
    have hunit := htext unit List.mem_cons_self
    have hhigh := high6_eq (show unit.toNat < 0x10000 by omega)
    rw [List.length_cons] at hroom
    rw [convertUTF16ToUTF8, if_neg (by omega)]
    dsimp only
    rw [hhigh, if_neg (by omega), if_pos (by omega), if_pos hunit, written,
      ih (List.forall_mem_cons.mp htext).2 (by omega)]
    rfl

theorem toUTF8_ascii (htext : ∀ unit ∈ text, unit.toNat < 0x80) :
    toUTF8 text = asciiBytes text :=
  convertUTF16ToUTF8_ascii htext (by omega)

theorem convertUTF8ToUTF16_ascii (htext : ∀ unit ∈ text, unit.toNat < 0x80) {room : ℕ}
    (hroom : text.length ≤ room) :
    (convertUTF8ToUTF16 (asciiBytes text) room).1 = text := by
  induction text generalizing room with
  | nil => rfl
  | cons unit rest ih =>
    have hunit := htext unit List.mem_cons_self
    have hbyte : (UInt8.ofNat unit.toNat).toNat = unit.toNat := toNat_byte (by omega)
    rw [List.length_cons] at hroom
    show (convertUTF8ToUTF16 (UInt8.ofNat unit.toNat :: asciiBytes rest) room).1 = _
    rw [convertUTF8ToUTF16, if_neg (by omega)]
    dsimp only
    rw [hbyte, if_pos hunit, written, ih (List.forall_mem_cons.mp htext).2 (by omega),
      UInt16.ofNat_toNat]
    rfl

theorem fromUTF8_ascii (htext : ∀ unit ∈ text, unit.toNat < 0x80) :
    fromUTF8 (asciiBytes text) = text :=
  convertUTF8ToUTF16_ascii htext (List.length_map _).ge

def isPrintable (unit : UChar) : Bool := 0x20 ≤ unit.toNat && unit.toNat ≤ 0x7E

/-- The text is made of printable ASCII characters and line feeds. -/
def IsPrinted (text : U16String) : Prop :=
  ∀ unit ∈ text, isPrintable unit = true ∨ unit = LINE_FEED

/-- A text was added to the output. -/
def Emits (before after : TextFormatter) (text : U16String) : Prop :=
  after.out = before.out ++ asciiBytes text ∧ IsPrinted text

theorem isPrinted_append {first second : U16String} (hfirst : IsPrinted first)
    (hsecond : IsPrinted second) : IsPrinted (first ++ second) := by
  intro unit hunit
  rcases List.mem_append.mp hunit with hunit | hunit
  · exact hfirst unit hunit
  · exact hsecond unit hunit

theorem Emits.trans {first second third : TextFormatter} {next : U16String}
    (hfirst : Emits first second text) (hsecond : Emits second third next) :
    Emits first third (text ++ next) := by
  refine ⟨?_, isPrinted_append hfirst.2 hsecond.2⟩
  rw [hsecond.1, hfirst.1, asciiBytes_append, List.append_assoc]

theorem toNat_of_isPrintable {unit : UChar} (hunit : isPrintable unit = true) :
    0x20 ≤ unit.toNat ∧ unit.toNat ≤ 0x7E := by
  unfold isPrintable at hunit
  rw [Bool.and_eq_true, decide_eq_true_iff, decide_eq_true_iff] at hunit
  exact hunit

theorem emits_put (text : U16String) (htext : ∀ unit ∈ text, isPrintable unit = true)
    (output : TextFormatter) : Emits output (output.put text) text := by
  have hascii : ∀ unit ∈ text, unit.toNat < 0x80 := by
    intro unit hunit
    have := toNat_of_isPrintable (htext unit hunit)
    omega
  refine ⟨?_, fun unit hunit ↦ Or.inl (htext unit hunit)⟩
  unfold put
  rw [toUTF8_ascii hascii]
  clear hascii
  induction text generalizing output with
  | nil => exact (List.append_nil _).symm
  | cons unit rest ih =>
    have hunit := toNat_of_isPrintable (htext unit List.mem_cons_self)
    have hne : ∀ control : UInt8, control.toNat < 0x20 → UInt8.ofNat unit.toNat ≠ control := by
      intro control hcontrol hsame
      have hnat := congrArg UInt8.toNat hsame
      rw [toNat_byte (by omega)] at hnat
      omega
    have hflush : (output.flushByte (UInt8.ofNat unit.toNat)).out =
        output.out ++ [UInt8.ofNat unit.toNat] := by
      unfold flushByte
      rw [if_neg (hne 0x09 (by decide)), if_neg]
      rintro (h | h)
      · exact hne 0x0D (by decide) h
      · exact hne 0x0A (by decide) h
    show ((asciiBytes rest).foldl flushByte (output.flushByte (UInt8.ofNat unit.toNat))).out = _
    rw [ih (List.forall_mem_cons.mp htext).2, hflush, List.append_assoc]
    rfl

theorem emits_endl (output : TextFormatter) : Emits output output.endl [LINE_FEED] :=
  ⟨rfl, fun _ hunit ↦ Or.inr (List.mem_singleton.mp hunit)⟩

theorem emits_indent (output : TextFormatter) : Emits output output.indent [] :=
  ⟨(List.append_nil _).symm, nofun⟩

theorem emits_margin (output : TextFormatter) :
    ∃ gap, Emits output output.margin gap ∧ ∀ unit ∈ gap, isSpace unit = true := by
  obtain ⟨newLine, hnewLine⟩ : ∃ newLine : Bool,
      newLine = (decide (output.curMargin < output.column) || output.afterSpace) := ⟨_, rfl⟩
  obtain ⟨count, hcount⟩ : ∃ count,
      count = output.curMargin - if newLine then 0 else output.column := ⟨_, rfl⟩
  have hline : ∀ unit ∈ (if newLine then [LINE_FEED] else []), unit = LINE_FEED := by
    intro unit hunit
    split_ifs at hunit
    · exact List.mem_singleton.mp hunit
    · cases hunit
  have hspaces : ∀ unit ∈ List.replicate count (0x20 : UChar), unit = 0x20 :=
    fun unit hunit ↦ List.eq_of_mem_replicate hunit
  refine ⟨(if newLine then [LINE_FEED] else []) ++ List.replicate count 0x20, ⟨?_, ?_⟩, ?_⟩
  · rw [asciiBytes_append, ← List.append_assoc]
    unfold margin
    dsimp only
    rw [← hnewLine, ← hcount, asciiBytes, asciiBytes, List.map_replicate]
    cases newLine <;> rfl
  · intro unit hunit
    rcases List.mem_append.mp hunit with hunit | hunit
    · exact Or.inr (hline unit hunit)
    · rw [hspaces unit hunit]
      exact Or.inl (by decide)
  · intro unit hunit
    rcases List.mem_append.mp hunit with hunit | hunit
    · rw [hline unit hunit]
      decide
    · rw [hspaces unit hunit]
      decide

theorem toString_of_emits {indentSize : ℕ} {output : TextFormatter}
    (htext : Emits (new indentSize) output text) : output.toString = text := by
  have hunits : ∀ unit ∈ text, unit.toNat < 0x80 ∧ unit ≠ CARRIAGE_RETURN := by
    intro unit hunit
    rcases htext.2 unit hunit with hprintable | rfl
    · have hrange := toNat_of_isPrintable hprintable
      refine ⟨by omega, ?_⟩
      rintro rfl
      exact absurd hprintable (by decide)
    · decide
  unfold toString
  rw [htext.1]
  show (fromUTF8 (asciiBytes text)).filter _ = text
  rw [fromUTF8_ascii fun unit hunit ↦ (hunits unit hunit).1, List.filter_eq_self]
  exact fun unit hunit ↦ decide_eq_true (hunits unit hunit).2

end TextFormatter

end TSDuck
