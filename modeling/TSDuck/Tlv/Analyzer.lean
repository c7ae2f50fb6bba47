import TSDuck.Mpeg.BitFields

/-!
# Analysis of TLV structures

A TLV field has a 16-bit tag, the 16-bit length of its value and this value. What it finds at an
offset is given by `readField`, which reads the field at the front of some bytes: there is a
complete field, or the analyzer is at the end of the block, with a valid structure only when nothing
remains (`read_of_field`, `read_of_none`).
-/

namespace TSDuck.Tlv

abbrev Tag := Uint16

/-! ### Fields -/

/-- A TLV field. -/
@[ext] structure Field where
  tag : Tag
  value : ByteBlock
  length_lt : value.length < 65536

namespace Field

def bytes (field : Field) : ByteBlock :=
  putUInt16 field.tag.val ++ putUInt16 field.value.length ++ field.value

theorem length_bytes (field : Field) : field.bytes.length = 4 + field.value.length := by
  simp only [bytes, putUInt16, List.length_append, List.length_cons, List.length_nil]

end Field

theorem length_value_lt (rest : ByteBlock) :
    ((rest.drop 4).take (getUInt16 rest 2)).length < 65536 := by
  rw [List.length_take]
  exact (Nat.min_le_left _ _).trans_lt (getUInt16_lt rest 2)

/-- Reads the complete field at the front of some bytes. -/
def readField (rest : ByteBlock) : Option (Field × ByteBlock) :=
  if rest.length < 4 ∨ rest.length < 4 + getUInt16 rest 2 then none
  else some
    ({ tag := getWord rest 0
       value := (rest.drop 4).take (getUInt16 rest 2)
       length_lt := length_value_lt rest }, rest.drop (4 + getUInt16 rest 2))

theorem readField_append (field : Field) (tail : ByteBlock) :
    readField (field.bytes ++ tail) = some (field, tail) := by
  have hlength : getUInt16 (field.bytes ++ tail) 2 = field.value.length := by
    have hread := getUInt16_append_right (putUInt16 field.tag.val)
      (putUInt16 field.value.length ++ (field.value ++ tail)) 0
    rw [getUInt16_putUInt16_append field.length_lt] at hread
    rw [Field.bytes, List.append_assoc, List.append_assoc]
    exact hread
  have htag : getWord (field.bytes ++ tail) 0 = field.tag := by
    rw [Field.bytes, List.append_assoc, List.append_assoc]
    exact getWord_putUInt16 field.tag _
  have hvalue : (field.bytes ++ tail).drop 4 = field.value ++ tail := rfl
  have hrest : (field.bytes ++ tail).drop (4 + field.value.length) = tail := by
    rw [← List.drop_drop, hvalue, List.drop_left' rfl]
  have hinside : ¬ ((field.bytes ++ tail).length < 4 ∨
      (field.bytes ++ tail).length < 4 + getUInt16 (field.bytes ++ tail) 2) := by
    rw [hlength, List.length_append, field.length_bytes]
    omega
  rw [readField, if_neg hinside, Option.some.injEq, Prod.mk.injEq]
  constructor
  · apply Field.ext htag
    show ((field.bytes ++ tail).drop 4).take (getUInt16 (field.bytes ++ tail) 2) = field.value
    rw [hlength, hvalue, List.take_left' rfl]
  · rw [hlength, hrest]

theorem putUInt16_bytes (high low : UInt8) :
    putUInt16 (high.toNat * 256 + low.toNat) = [high, low] := by
  have hlow := low.toNat_lt
  have hquotient : (high.toNat * 256 + low.toNat) / 256 = high.toNat := by omega
  have hremainder : UInt8.ofNat (high.toNat * 256 + low.toNat) = low := by
    apply UInt8.toNat_inj.mp
    rw [UInt8.toNat_ofNat']
    omega
  rw [putUInt16, hquotient, hremainder, UInt8.ofNat_toNat]

theorem eq_of_readField {rest tail : ByteBlock} {field : Field}
    (hread : readField rest = some (field, tail)) : rest = field.bytes ++ tail := by
  unfold readField at hread
  split_ifs at hread with houtside
  rw [not_or, not_lt, not_lt] at houtside
  obtain ⟨rfl, rfl⟩ := Prod.mk.inj (Option.some.inj hread)
  have hlength : ((rest.drop 4).take (getUInt16 rest 2)).length = getUInt16 rest 2 := by
    rw [List.length_take, List.length_drop]
    omega
  have hheader : rest = putUInt16 (getUInt16 rest 0) ++ putUInt16 (getUInt16 rest 2) ++
      rest.drop 4 := by
    obtain ⟨first, rest, rfl⟩ := List.exists_cons_of_length_pos (show 0 < rest.length by omega)
    rw [List.length_cons] at houtside
    obtain ⟨second, rest, rfl⟩ := List.exists_cons_of_length_pos (show 0 < rest.length by omega)
    rw [List.length_cons] at houtside
    obtain ⟨third, rest, rfl⟩ := List.exists_cons_of_length_pos (show 0 < rest.length by omega)
    rw [List.length_cons] at houtside
    obtain ⟨fourth, rest, rfl⟩ := List.exists_cons_of_length_pos (show 0 < rest.length by omega)
    show first :: second :: third :: fourth :: rest =
      putUInt16 (first.toNat * 256 + second.toNat) ++
        putUInt16 (third.toNat * 256 + fourth.toNat) ++ rest
    rw [putUInt16_bytes, putUInt16_bytes]
    rfl
  rw [Field.bytes, hlength]
  show rest = putUInt16 (getUInt16 rest 0) ++ putUInt16 (getUInt16 rest 2) ++
    (rest.drop 4).take (getUInt16 rest 2) ++ rest.drop (4 + getUInt16 rest 2)
  rw [List.append_assoc, ← List.drop_drop, List.take_append_drop]
  exact hheader

theorem length_lt_of_readField {rest tail : ByteBlock} {field : Field}
    (hread : readField rest = some (field, tail)) : tail.length < rest.length := by
  rw [eq_of_readField hread, List.length_append, field.length_bytes]
  omega

/-! ### The analyzer -/

/-- The analyzer of a block. Addresses are offsets. -/
structure Analyzer where
  data : ByteBlock
  eom : Bool
  valid : Bool
  tlvAddr : ℕ
  tlvSize : ℕ
  tag : Tag
  valueAddr : ℕ
  length : ℕ

namespace Analyzer

def read (anl : Analyzer) (tlvAddr : ℕ) : Analyzer :=
  if tlvAddr = anl.data.length then { anl with tlvAddr := tlvAddr, eom := true }
  else if anl.data.length < tlvAddr + 2 + 2 then
    { anl with tlvAddr := tlvAddr, eom := true, valid := false }
  else
    let length := getUInt16 anl.data (tlvAddr + 2)
    let found :=
      { anl with
        tlvAddr := tlvAddr
        tag := getWord anl.data tlvAddr
        length := length
        valueAddr := tlvAddr + 2 + 2
        tlvSize := 2 + 2 + length }
    if anl.data.length < tlvAddr + 2 + 2 + length then { found with eom := true, valid := false }
    else found

/-- Analyzes the next field, if there is one. -/
def next (anl : Analyzer) : Analyzer :=
  if anl.eom || !anl.valid then anl else anl.read (anl.valueAddr + anl.length)

def start (data : ByteBlock) : Analyzer :=
  next
    { data := data
      eom := data.isEmpty
      valid := true
      tlvAddr := 0
      tlvSize := 0
      tag := 0
      valueAddr := 0
      length := 0 }

def field (anl : Analyzer) : ByteBlock :=
  (anl.data.drop anl.tlvAddr).take anl.tlvSize

def value (anl : Analyzer) : ByteBlock :=
  (anl.data.drop anl.valueAddr).take anl.length

/-- The analyzer is at a field of its block. -/
structure AtField (anl : Analyzer) (front : ByteBlock) (found : Field) (tail : ByteBlock) :
    Prop where
  data : anl.data = front ++ (found.bytes ++ tail)
  eom : anl.eom = false
  valid : anl.valid = true
  address : anl.tlvAddr = front.length
  tag : anl.tag = found.tag
  valueAddr : anl.valueAddr = front.length + 4
  length : anl.length = found.value.length
  size : anl.tlvSize = found.bytes.length

structure AtEnd (anl : Analyzer) (front rest : ByteBlock) : Prop where
  data : anl.data = front ++ rest
  eom : anl.eom = true
  valid : anl.valid = rest.isEmpty
  address : anl.tlvAddr = front.length

section Read

variable {anl : Analyzer} {front rest : ByteBlock} (hdata : anl.data = front ++ rest)
  (heom : anl.eom = false) (hvalid : anl.valid = true)

include hdata in
theorem getUInt16_data (offset : ℕ) :
    getUInt16 anl.data (front.length + offset) = getUInt16 rest offset := by
  rw [hdata, getUInt16_append_right]

include hdata heom hvalid in
theorem read_of_field {found : Field} {tail : ByteBlock}
    (hread : readField rest = some (found, tail)) :
    AtField (anl.read front.length) front found tail := by
  have hrest := eq_of_readField hread
  have hlength : anl.data.length = front.length + (4 + found.value.length + tail.length) := by
    rw [hdata, hrest, List.length_append, List.length_append, found.length_bytes]
  unfold readField at hread
  split_ifs at hread with houtside
  obtain ⟨hfound, -⟩ := Prod.mk.inj (Option.some.inj hread)
  have htag : found.tag = getWord rest 0 := by rw [← hfound]
  have hsize : getUInt16 rest 2 = found.value.length := by
    rw [not_or, not_lt, not_lt] at houtside
    rw [← hfound]
    show _ = ((rest.drop 4).take (getUInt16 rest 2)).length
    rw [List.length_take, List.length_drop]
    omega
  have hfield : getWord anl.data front.length = found.tag := by
    rw [htag]
    exact Fin.ext (getUInt16_data hdata 0)
  have hvalue : getUInt16 anl.data (front.length + 2) = found.value.length :=
    (getUInt16_data hdata 2).trans hsize
  have hbytes := found.length_bytes
  unfold read
  rw [if_neg (by omega), if_neg (by omega)]
  dsimp only
  rw [hvalue, if_neg (by omega)]
  exact ⟨hdata.trans (by rw [hrest]), heom, hvalid, rfl, hfield, rfl, rfl, hbytes.symm⟩

include hdata hvalid in
theorem read_of_none (hread : readField rest = none) :
    AtEnd (anl.read front.length) front rest := by
  have hlength : anl.data.length = front.length + rest.length := by
    rw [hdata, List.length_append]
  have hvalue := getUInt16_data hdata 2
  unfold readField at hread
  split_ifs at hread with houtside
  unfold read
  by_cases hend : rest = []
  · rw [if_pos (by rw [hlength, hend, List.length_nil, Nat.add_zero])]
    exact ⟨hdata, rfl, by rw [hend]; exact hvalid, rfl⟩
  · have hpos := List.length_pos_iff.mpr hend
    have hempty : rest.isEmpty = false := List.isEmpty_eq_false_iff.mpr hend
    rw [if_neg (by omega)]
    split_ifs with hheader
    · exact ⟨hdata, rfl, hempty.symm, rfl⟩
    · dsimp only
      rw [hvalue, if_pos (by omega)]
      exact ⟨hdata, rfl, hempty.symm, rfl⟩

end Read

theorem start_of_ne_nil {data : ByteBlock} (hdata : data ≠ []) :
    ∃ anl : Analyzer, start data = anl.read ([] : ByteBlock).length ∧ anl.data = [] ++ data ∧
      anl.eom = false ∧ anl.valid = true := by
  have hempty : data.isEmpty = false := List.isEmpty_eq_false_iff.mpr hdata
  refine ⟨⟨data, false, true, 0, 0, 0, 0, 0⟩, ?_, rfl, rfl, rfl⟩
  rw [start, next, hempty]
  rfl

theorem start_of_field {data tail : ByteBlock} {found : Field}
    (hread : readField data = some (found, tail)) : AtField (start data) [] found tail := by
  have hdata : data ≠ [] := by
    rintro rfl
    simp [readField] at hread
  obtain ⟨anl, hstart, hblock, heom, hvalid⟩ := start_of_ne_nil hdata
  rw [hstart]
  exact read_of_field hblock heom hvalid hread

theorem start_of_none {data : ByteBlock} (hread : readField data = none) :
    AtEnd (start data) [] data := by
  by_cases hempty : data = []
  · subst hempty
    exact ⟨rfl, rfl, rfl, rfl⟩
  · obtain ⟨anl, hstart, hblock, -, hvalid⟩ := start_of_ne_nil hempty
    rw [hstart]
    exact read_of_none hblock hvalid hread

section Next

variable {anl : Analyzer} {front tail : ByteBlock} {found : Field}
  (hfield : AtField anl front found tail)

include hfield

theorem AtField.next_eq : anl.next = anl.read (front ++ found.bytes).length := by
  rw [next, hfield.eom, hfield.valid, if_neg (by decide), hfield.valueAddr, hfield.length,
    List.length_append, found.length_bytes]
  congr 1
  omega

theorem AtField.next_of_field {other : Field} {rest : ByteBlock}
    (hread : readField tail = some (other, rest)) :
    AtField anl.next (front ++ found.bytes) other rest := by
  rw [hfield.next_eq]
  exact read_of_field (by rw [hfield.data, List.append_assoc]) hfield.eom hfield.valid hread

theorem AtField.next_of_none (hread : readField tail = none) :
    AtEnd anl.next (front ++ found.bytes) tail := by
  rw [hfield.next_eq]
  exact read_of_none (by rw [hfield.data, List.append_assoc]) hfield.valid hread

theorem AtField.field_eq : anl.field = found.bytes := by
  rw [field, hfield.data, hfield.address, hfield.size, List.drop_left' rfl, List.take_left' rfl]

theorem AtField.value_eq : anl.value = found.value := by
  have hbytes : found.bytes.drop 4 = found.value := rfl
  rw [value, hfield.data, hfield.valueAddr, hfield.length, ← List.drop_drop, List.drop_left' rfl,
    List.drop_append_of_le_length (by rw [found.length_bytes]; omega), hbytes, List.take_left' rfl]

end Next

end Analyzer

end TSDuck.Tlv
