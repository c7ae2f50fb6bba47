import TSDuck.Library.Machine
import TSDuck.Text.TextFormatter

/-!
# Columns of the text formatter

`isTracked_iff` states in which runs of the formatter, with its buffer, the column is the one of the
output: a tabulation is expanded with one space less than what is added to the column.

Scope. A character is a byte. The output does not fail and the sizes do not reach 64 bits.
-/

namespace TSDuck

/-- A formatter with its outermost margin and what is not flushed yet. -/
structure BufferedFormatter extends TextFormatter where
  marginSize : ℕ
  buffer : ByteBlock

namespace BufferedFormatter

def bufferSize : ℕ := 256

def new : BufferedFormatter := ⟨TextFormatter.new 2, 0, []⟩

variable (output : BufferedFormatter)

def flushData (data : ByteBlock) : BufferedFormatter :=
  { output with toTextFormatter := data.foldl TextFormatter.flushByte output.toTextFormatter }

def flushBuffer : BufferedFormatter := output.flushData output.buffer

def resetBuffer : BufferedFormatter := { output with buffer := [] }

def overflow (c : UInt8) : BufferedFormatter := (output.flushBuffer.flushData [c]).resetBuffer

def sync : BufferedFormatter := output.flushBuffer.resetBuffer

/-- A character in the stream. -/
def sputc (c : UInt8) : BufferedFormatter :=
  if output.buffer.length < bufferSize then { output with buffer := output.buffer ++ [c] }
  else output.overflow c

def margin : BufferedFormatter :=
  { output.sync with toTextFormatter := output.sync.toTextFormatter.margin }

def moveTo (col : ℕ) : BufferedFormatter :=
  let synced := output.sync
  let text := if col < synced.column then synced.toTextFormatter.endl else synced.toTextFormatter
  { synced with
    toTextFormatter :=
      { text with
        out := text.out ++ List.replicate (col - text.column) 0x20
        column := col } }

def spaces (count : ℕ) : BufferedFormatter :=
  let synced := output.sync
  { synced with
    out := synced.out ++ List.replicate count 0x20
    column := synced.column + count }

def setMarginSize (margin : ℕ) : BufferedFormatter :=
  { output with
    curMargin :=
      if output.marginSize < margin then output.curMargin + (margin - output.marginSize)
      else output.curMargin - min output.curMargin (output.marginSize - margin)
    marginSize := margin }

inductive Operation
  | put (c : UInt8)
  | sync
  | margin
  | column (col : ℕ)
  | spaces (count : ℕ)
  | indent
  | unindent
  | setMarginSize (margin : ℕ)
  | setIndentSize (indent : ℕ)

def perform : Operation → BufferedFormatter
  | .put c => output.sputc c
  | .sync => output.sync
  | .margin => output.margin
  | .column col => output.moveTo col
  | .spaces count => output.spaces count
  | .indent => { output with toTextFormatter := output.toTextFormatter.indent }
  | .unindent => { output with toTextFormatter := output.toTextFormatter.unindent }
  | .setMarginSize margin => output.setMarginSize margin
  | .setIndentSize indent => { output with indentSize := indent }

def isEndOfLine (byte : UInt8) : Bool := byte == 0x0D || byte == 0x0A

/-- The characters which were written since the last end of line. -/
def line (out : ByteBlock) : ByteBlock := out.rtakeWhile fun byte ↦ !isEndOfLine byte

/-- A character, or the spaces up to the next multiple of the tabulation size. -/
def expand (out : ByteBlock) (byte : UInt8) : ByteBlock :=
  out ++ if byte = 0x09 then
    List.replicate (TextFormatter.TAB_SIZE - (line out).length % TextFormatter.TAB_SIZE) 0x20
  else [byte]

/-- The characters that an operation flushes. -/
def flushed : Operation → ByteBlock
  | .put c => if output.buffer.length < bufferSize then [] else output.buffer ++ [c]
  | .sync | .margin | .column _ | .spaces _ => output.buffer
  | .indent | .unindent | .setMarginSize _ | .setIndentSize _ => []

/-- The state where these characters are flushed. -/
def synced : Operation → BufferedFormatter
  | .put c => output.sputc c
  | .sync | .margin | .column _ | .spaces _ => output.sync
  | .indent | .unindent | .setMarginSize _ | .setIndentSize _ => output

structure Done where
  operation : Operation
  before : BufferedFormatter

/-- The characters are expanded, and a margin leaves its spaces on the line. -/
structure Done.IsRight (done : Done) : Prop where
  expanded : (done.before.synced done.operation).out =
    (done.before.flushed done.operation).foldl expand done.before.out
  margin : done.operation = .margin → line (done.before.perform done.operation).out =
    List.replicate (done.before.perform done.operation).curMargin 0x20

def machine : Machine BufferedFormatter Operation Done where
  step output operation := some (output.perform operation, [⟨operation, output⟩])

def IsAtColumn : Prop := output.column = (line output.out).length

/-- No tabulation is flushed. -/
def IsSafe (operation : Operation) : Prop := 0x09 ∉ output.flushed operation

end BufferedFormatter

namespace TextFormatter

open BufferedFormatter

/-- The state of the line is the one of the output. -/
structure Sound (text : TextFormatter) : Prop where
  column : text.column = (line text.out).length
  spaces : text.afterSpace = false → ∀ byte ∈ line text.out, byte = 0x20

variable {text : TextFormatter} {out data : ByteBlock} {byte : UInt8}

theorem line_concat (out : ByteBlock) (byte : UInt8) :
    line (out ++ [byte]) = if isEndOfLine byte then [] else line out ++ [byte] := by
  rw [line, List.rtakeWhile_concat]
  cases isEndOfLine byte <;> rfl

theorem line_append_spaces (out : ByteBlock) (count : ℕ) :
    line (out ++ List.replicate count 0x20) = line out ++ List.replicate count 0x20 := by
  induction count with
  | zero => simp
  | succ count ih =>
    rw [List.replicate_succ', ← List.append_assoc, line_concat, ih, List.append_assoc]
    rfl

theorem Sound.append_spaces (hsound : text.Sound) (count : ℕ) :
    Sound { text with
      out := text.out ++ List.replicate count 0x20
      column := text.column + count } where
  column := by rw [line_append_spaces, List.length_append, List.length_replicate, hsound.column]
  spaces hafter byte hbyte := by
    rw [line_append_spaces, List.mem_append] at hbyte
    exact hbyte.elim (hsound.spaces hafter byte) List.eq_of_mem_replicate

theorem Sound.moveTo (hsound : text.Sound) {col : ℕ} (hcol : text.column ≤ col) :
    Sound { text with
      out := text.out ++ List.replicate (col - text.column) 0x20
      column := col } := by
  have hspaces := hsound.append_spaces (col - text.column)
  rwa [Nat.add_sub_cancel' hcol] at hspaces

/-- The column is the one of the expanded characters. -/
theorem column_flushByte (hcolumn : text.column = (line out).length) (byte : UInt8) :
    (text.flushByte byte).column = (line (expand out byte)).length := by
  rw [flushByte, expand]
  by_cases htab : byte = 0x09
  · rw [if_pos htab, if_pos htab, line_append_spaces, List.length_append, List.length_replicate]
    dsimp only
    rw [hcolumn, TAB_SIZE]
    omega
  rw [if_neg htab, if_neg htab, line_concat, isEndOfLine]
  by_cases hend : byte = 0x0D ∨ byte = 0x0A
  · rw [if_pos hend, if_pos (by simpa using hend)]
    rfl
  · rw [if_neg hend, if_neg (by simpa using hend), List.length_append, ← hcolumn]
    rfl

/-- One space is missing for a tabulation. -/
theorem length_flushByte (hcolumn : text.column = (line out).length) (byte : UInt8) :
    (expand out byte).length + text.out.length =
      (text.flushByte byte).out.length + out.length + [byte].count 0x09 := by
  rw [flushByte, expand, List.length_append, List.count_singleton]
  by_cases htab : byte = 0x09
  · rw [if_pos htab, if_pos htab, if_pos (by rw [htab]; rfl)]
    simp only [List.length_append, List.length_replicate, hcolumn, TAB_SIZE]
    omega
  · rw [if_neg htab, if_neg htab, beq_false_of_ne htab, if_neg Bool.false_ne_true]
    split_ifs <;> simp only [List.length_append, List.length_singleton] <;> omega

theorem length_foldl_flushByte (hcolumn : text.column = (line out).length) :
    (data.foldl expand out).length + text.out.length =
      (data.foldl flushByte text).out.length + out.length + data.count 0x09 := by
  induction data generalizing text out with
  | nil => exact Nat.add_comm _ _
  | cons byte data ih =>
    have hbyte := length_flushByte hcolumn byte
    have hdata := ih (column_flushByte hcolumn byte)
    rw [List.foldl_cons, List.foldl_cons, ← List.singleton_append, List.count_append]
    omega

theorem out_flushByte (hbyte : byte ≠ 0x09) : (text.flushByte byte).out = expand text.out byte := by
  rw [flushByte, expand, if_neg hbyte, if_neg hbyte]
  split_ifs <;> rfl

theorem Sound.flushByte (hsound : text.Sound) (hbyte : byte ≠ 0x09) :
    (text.flushByte byte).Sound where
  column := by rw [out_flushByte hbyte, column_flushByte hsound.column]
  spaces := by
    rw [out_flushByte hbyte, expand, if_neg hbyte, line_concat, isEndOfLine, TextFormatter.flushByte,
      if_neg hbyte]
    by_cases hend : byte = 0x0D ∨ byte = 0x0A
    · rw [if_pos hend, if_pos (by simpa using hend)]
      exact fun _ ↦ nofun
    · rw [if_neg hend, if_neg (by simpa using hend)]
      intro hafter other hother
      rw [Bool.or_eq_false_iff, bne_eq_false_iff_eq] at hafter
      rw [List.mem_append, List.mem_singleton] at hother
      exact hother.elim (hsound.spaces hafter.1 other) fun heq ↦ heq.trans hafter.2

theorem Sound.foldl_flushByte (hsound : text.Sound) (hdata : 0x09 ∉ data) :
    (data.foldl TextFormatter.flushByte text).Sound ∧
      (data.foldl TextFormatter.flushByte text).out = data.foldl expand text.out := by
  induction data generalizing text with
  | nil => exact ⟨hsound, rfl⟩
  | cons byte data ih =>
    rw [List.mem_cons, not_or] at hdata
    rw [List.foldl_cons, List.foldl_cons, ← out_flushByte (Ne.symm hdata.1)]
    exact ih (hsound.flushByte (Ne.symm hdata.1)) hdata.2

/-- The characters are expanded exactly when there is no tabulation. -/
theorem Sound.out_foldl_flushByte_iff (hsound : text.Sound) :
    (data.foldl TextFormatter.flushByte text).out = data.foldl expand text.out ↔ 0x09 ∉ data := by
  refine ⟨fun hout ↦ ?_, fun hdata ↦ (hsound.foldl_flushByte hdata).2⟩
  have hlength : (data.foldl expand text.out).length + _ = _ :=
    length_foldl_flushByte hsound.column
  rw [← hout] at hlength
  exact List.count_eq_zero.mp (by omega)

theorem Sound.endl (hsound : text.Sound) : text.endl.Sound := hsound.flushByte (by decide)

theorem Sound.margin (hsound : text.Sound) :
    text.margin.Sound ∧ line text.margin.out = List.replicate text.curMargin 0x20 := by
  have hline : line text.margin.out = List.replicate text.curMargin 0x20 := by
    rw [TextFormatter.margin]
    cases hnew : decide (text.curMargin < text.column) || text.afterSpace with
    | true =>
      dsimp only
      rw [if_pos rfl, if_pos rfl, line_append_spaces, line_concat]
      rfl
    | false =>
      rw [Bool.or_eq_false_iff, decide_eq_false_iff_not, not_lt] at hnew
      have hspaces := List.eq_replicate_of_mem (hsound.spaces hnew.2)
      dsimp only
      rw [if_neg Bool.false_ne_true, if_neg Bool.false_ne_true, List.append_nil, line_append_spaces,
        hspaces, ← hsound.column, List.replicate_append_replicate, Nat.add_sub_cancel' hnew.1]
  refine ⟨⟨?_, fun _ byte hbyte ↦ ?_⟩, hline⟩
  · rw [hline, List.length_replicate]
    rfl
  · rw [hline] at hbyte
    exact List.eq_of_mem_replicate hbyte

end TextFormatter

namespace BufferedFormatter

open TextFormatter

variable {output : BufferedFormatter}

theorem sync_sound (hsound : output.Sound) (hbuffer : 0x09 ∉ output.buffer) : output.sync.Sound :=
  (hsound.foldl_flushByte hbuffer).1

theorem moveTo_sound (hsound : output.sync.Sound) (col : ℕ) : (output.moveTo col).Sound := by
  rw [moveTo]
  dsimp only
  split_ifs with hcol
  · exact hsound.endl.moveTo (Nat.zero_le col)
  · exact hsound.moveTo (not_lt.mp hcol)

theorem perform_sound (hsound : output.Sound) {operation : Operation}
    (hsafe : output.IsSafe operation) : (output.perform operation).Sound := by
  rw [IsSafe] at hsafe
  cases operation with
  | put c =>
    rw [perform, sputc]
    rw [flushed] at hsafe
    split_ifs at hsafe ⊢
    · exact ⟨hsound.column, hsound.spaces⟩
    · have hdata := (hsound.foldl_flushByte hsafe).1
      rwa [List.foldl_append] at hdata
  | sync => exact sync_sound hsound hsafe
  | margin => exact (sync_sound hsound hsafe).margin.1
  | column col => exact moveTo_sound (sync_sound hsound hsafe) col
  | spaces count => exact (sync_sound hsound hsafe).append_spaces count
  | indent | unindent | setMarginSize _ | setIndentSize _ => exact ⟨hsound.column, hsound.spaces⟩

theorem out_synced (output : BufferedFormatter) (operation : Operation) :
    (output.synced operation).out = (output.flushData (output.flushed operation)).out := by
  cases operation with
  | put c =>
    rw [synced, sputc, flushed]
    split_ifs
    · rfl
    · rw [flushData, List.foldl_append]
      rfl
  | _ => rfl

theorem isRight_iff_isSafe (hsound : output.Sound) (operation : Operation) :
    Done.IsRight ⟨operation, output⟩ ↔ output.IsSafe operation := by
  have hexpanded : (output.synced operation).out =
      (output.flushed operation).foldl expand output.out ↔ output.IsSafe operation := by
    rw [out_synced]
    exact hsound.out_foldl_flushByte_iff
  refine ⟨fun hright ↦ hexpanded.mp hright.expanded, fun hsafe ↦ ⟨hexpanded.mpr hsafe, ?_⟩⟩
  rintro rfl
  exact (sync_sound hsound hsafe).margin.2

/-- The column is the one of the output exactly in the runs which flush no tabulation. -/
theorem isTracked_iff (operations : List Operation) :
    machine.HoldsAlong IsAtColumn Done.IsRight new operations ↔
      machine.Meets IsSafe new operations := by
  obtain ⟨last, dones, hrun⟩ := machine.exists_run (fun _ _ ↦ ⟨_, _, rfl⟩) new operations
  refine machine.holdsAlong_iff_meets
    (fun output (hsound : output.Sound) ↦ hsound.column) ?_ ?_ (fun _ _ ↦ trivial)
    ⟨rfl, fun _ ↦ nofun⟩ hrun
  · rintro output operation _ _ - hsound hsafe ⟨⟩
    exact ⟨perform_sound hsound hsafe,
      List.forall_mem_singleton.mpr ((isRight_iff_isSafe hsound operation).mpr hsafe)⟩
  · rintro output operation _ _ - hsound hunsafe ⟨⟩ ⟨-, hright⟩
    exact hunsafe ((isRight_iff_isSafe hsound operation).mp (List.forall_mem_singleton.mp hright))

/-- Seven spaces are written for a tabulation at the start of the line. -/
theorem not_isTracked_tabulation :
    ¬ machine.HoldsAlong IsAtColumn Done.IsRight new [.put 0x09, .sync] := by
  intro halong
  have hcolumn := (halong _ (List.prefix_refl _) _ _ rfl).1
  revert hcolumn
  rw [IsAtColumn]
  decide +kernel

end BufferedFormatter

end TSDuck
