import TSDuck.Library.Records
import TSDuck.Mpeg.BitFields
import Mathlib.Algebra.BigOperators.Group.List.Basic

/-!
# Descriptor lists

A descriptor is a tag, a length and as many bytes of payload.

In the tables, a descriptor list comes after its length, and the descriptor list of an entry (a
stream, a service, an event, a transport stream) after the fixed part of the entry.
`EntryWithDescriptors` is such an entry as it is found in a section, and
`EntryWithDescriptors.read_append` reads it back.

The private data specifier which a list attaches to its descriptors is left out.
-/

namespace TSDuck

/-- The content of a valid descriptor: a tag, a length and as many bytes. -/
structure Descriptor where
  content : ByteBlock
  header : 2 ≤ content.length
  announced : (byteAt content 1).toNat + 2 = content.length
  deriving DecidableEq

namespace Descriptor

def size (desc : Descriptor) : ℕ := desc.content.length

theorem size_le (desc : Descriptor) : desc.size ≤ 257 := by
  have hbyte := (byteAt desc.content 1).toNat_lt
  have hannounced := desc.announced
  unfold size
  omega

def largest : Descriptor where
  content := 0x80 :: 0xFF :: List.replicate 255 0
  header := by
    rw [List.length_cons, List.length_cons, List.length_replicate]
    decide
  announced := by
    rw [List.length_cons, List.length_cons, List.length_replicate]
    rfl

theorem size_largest : largest.size = 257 := by
  show (0x80 :: 0xFF :: List.replicate 255 0).length = 257
  rw [List.length_cons, List.length_cons, List.length_replicate]

/-- The first descriptor, none if it is beyond the end. -/
def read (data : ByteBlock) : Option (Descriptor × ByteBlock) :=
  if h : 2 ≤ data.length ∧ (byteAt data 1).toNat + 2 ≤ data.length then
    some (⟨data.take ((byteAt data 1).toNat + 2), show 2 ≤ (data.take _).length by
        rw [List.length_take]
        omega,
      show (byteAt (data.take _) 1).toNat + 2 = (data.take _).length by
        rw [byteAt_take data (by omega), List.length_take]
        omega⟩,
      data.drop ((byteAt data 1).toNat + 2))
  else none

theorem read_append (desc : Descriptor) (rest : ByteBlock) :
    read (desc.content ++ rest) = some (desc, rest) := by
  obtain ⟨content, hheader, hannounced⟩ := desc
  have hbyte : byteAt (content ++ rest) 1 = byteAt content 1 :=
    byteAt_append_left rest (by omega)
  have hfits : 2 ≤ (content ++ rest).length ∧
      (byteAt (content ++ rest) 1).toNat + 2 ≤ (content ++ rest).length := by
    rw [hbyte, hannounced, List.length_append]
    omega
  unfold read
  rw [dif_pos hfits]
  simp only [hbyte, hannounced, List.take_left, List.drop_left]

theorem read_nil : read [] = none := rfl

end Descriptor

abbrev DescriptorList := List Descriptor

namespace DescriptorList

/-- The number of bytes of a list of descriptors. -/
def binarySize (descs : DescriptorList) : ℕ := (descs.map Descriptor.size).sum

def bytes (descs : DescriptorList) : ByteBlock := descs.flatMap Descriptor.content

@[simp] theorem binarySize_nil : binarySize [] = 0 := rfl

@[simp] theorem binarySize_cons (desc : Descriptor) (descs : DescriptorList) :
    binarySize (desc :: descs) = desc.size + binarySize descs :=
  List.sum_cons

@[simp] theorem binarySize_append (first second : DescriptorList) :
    binarySize (first ++ second) = binarySize first + binarySize second := by
  unfold binarySize
  rw [List.map_append, List.sum_append]

@[simp] theorem length_bytes (descs : DescriptorList) :
    (bytes descs).length = binarySize descs := by
  unfold bytes
  rw [List.length_flatMap]
  rfl

def add (descs : DescriptorList) (data : ByteBlock) : DescriptorList :=
  descs ++ readAllRecords Descriptor.read data

theorem add_bytes (descs more : DescriptorList) : add descs (bytes more) = descs ++ more := by
  have hnonempty : ∀ desc ∈ more, desc.content ≠ [] := by
    intro desc _ hempty
    have hheader := desc.header
    rw [hempty] at hheader
    exact absurd hheader (by decide)
  have hread := readAllRecords_flatMap hnonempty (fun desc _ ↦ desc.read_append)
    Descriptor.read_nil
  rw [List.append_nil] at hread
  unfold add bytes
  rw [hread]

/-! ### Serializing in a limited space -/

/-- Serializes the descriptors as long as they fit. -/
def serializeLoop : DescriptorList → ℕ → ℕ → ByteBlock × ℕ
  | [], _, index => ([], index)
  | desc :: rest, size, index =>
    if desc.size ≤ size then
      (desc.content ++ (serializeLoop rest (size - desc.size) (index + 1)).1,
        (serializeLoop rest (size - desc.size) (index + 1)).2)
    else ([], index)

def serialize (descs : DescriptorList) (size start : ℕ) : ByteBlock × ℕ :=
  serializeLoop (descs.drop start) size start

def lengthSerialize (descs : DescriptorList) (size start : ℕ) : ByteBlock × ℕ :=
  (putUInt16 ((serialize descs (size - 2) start).1.length ||| (0x0F <<< 12)) ++
      (serialize descs (size - 2) start).1,
    (serialize descs (size - 2) start).2)

/-- The first part of a list which fits in a space. -/
def FitsUpTo (descs written : DescriptorList) (size : ℕ) : Prop :=
  ∃ rest : DescriptorList, descs = written ++ rest ∧ binarySize written ≤ size ∧
    ∀ desc ∈ rest.head?, size < binarySize written + desc.size

theorem serializeLoop_spec (descs : DescriptorList) (size index : ℕ) :
    ∃ written : DescriptorList, FitsUpTo descs written size ∧
      serializeLoop descs size index = (bytes written, index + written.length) := by
  induction descs generalizing size index with
  | nil =>
    refine ⟨[], ⟨[], rfl, Nat.zero_le _, ?_⟩, rfl⟩
    intro desc hdesc
    cases hdesc
  | cons desc descs ih =>
    unfold serializeLoop
    split_ifs with hfits
    · obtain ⟨written, ⟨rest, rfl, hsize, hend⟩, hloop⟩ := ih (size - desc.size) (index + 1)
      refine ⟨desc :: written, ⟨rest, rfl, ?_, ?_⟩, ?_⟩
      · rw [binarySize_cons]
        omega
      · intro other hother
        have hover := hend other hother
        rw [binarySize_cons]
        omega
      · rw [hloop, List.length_cons]
        show (_, _) = (_, _)
        rw [Prod.mk.injEq]
        constructor
        · rfl
        · omega
    · refine ⟨[], ⟨desc :: descs, rfl, Nat.zero_le _, ?_⟩, rfl⟩
      intro other hother
      obtain rfl : desc = other := Option.some.inj hother
      rw [binarySize_nil, Nat.zero_add]
      exact Nat.lt_of_not_le hfits

theorem FitsUpTo.fits_iff {descs written : DescriptorList} {size : ℕ}
    (hfits : FitsUpTo descs written size) : binarySize descs ≤ size ↔ descs = written := by
  obtain ⟨rest, rfl, hsize, hend⟩ := hfits
  cases rest with
  | nil =>
    rw [List.append_nil]
    exact iff_of_true hsize rfl
  | cons desc rest =>
    have hover := hend desc rfl
    rw [binarySize_append, binarySize_cons, List.append_right_eq_self]
    apply iff_of_false
    · omega
    · exact List.cons_ne_nil _ _

theorem FitsUpTo.unique {descs first second : DescriptorList} {size : ℕ}
    (hfirst : FitsUpTo descs first size) (hsecond : FitsUpTo descs second size) :
    first = second := by
  have hle : ∀ first second : DescriptorList, FitsUpTo descs first size →
      FitsUpTo descs second size → second.length ≤ first.length := by
    rintro first second ⟨rest, rfl, -, hend⟩ ⟨other, hother, hsize, -⟩
    by_contra hlonger
    obtain ⟨more, rfl⟩ : first <+: second :=
      List.prefix_of_prefix_length_le ⟨rest, rfl⟩ ⟨other, hother.symm⟩ (by omega)
    rw [List.append_assoc, List.append_cancel_left_eq] at hother
    cases more with
    | nil =>
      rw [List.append_nil] at hlonger
      exact hlonger le_rfl
    | cons desc more =>
      have hover := hend desc (by rw [hother]; rfl)
      rw [binarySize_append, binarySize_cons] at hsize
      omega
  obtain ⟨rest, hrest, -⟩ := id hfirst
  obtain ⟨other, hother, -⟩ := id hsecond
  exact (List.append_inj (hrest.symm.trans hother)
    (le_antisymm (hle _ _ hsecond hfirst) (hle _ _ hfirst hsecond))).1

end DescriptorList

/-- The fixed part of an entry, four bits and its descriptors. -/
structure EntryWithDescriptors where
  fixed : ByteBlock
  high : UInt8
  descs : DescriptorList
  deriving DecidableEq

namespace EntryWithDescriptors

/-- Reads an entry with a fixed part of some size. -/
def read (fixedSize : ℕ) (data : ByteBlock) : Option (EntryWithDescriptors × ByteBlock) :=
  if data.length < fixedSize + 2 then none
  else
    let length := min (getUInt16 data fixedSize &&& 0x0FFF) (data.length - (fixedSize + 2))
    some ({ fixed := data.take fixedSize
            high := byteAt data fixedSize &&& 0xF0
            descs := DescriptorList.add [] ((data.drop (fixedSize + 2)).take length) },
      data.drop (fixedSize + 2 + length))

def bytes (entry : EntryWithDescriptors) : ByteBlock :=
  entry.fixed ++ [UInt8.ofNat (entry.descs.binarySize / 256) ||| entry.high,
    UInt8.ofNat entry.descs.binarySize] ++ entry.descs.bytes

@[simp] theorem length_bytes (entry : EntryWithDescriptors) :
    entry.bytes.length = entry.fixed.length + 2 + entry.descs.binarySize := by
  simp only [bytes, List.length_append, List.length_cons, List.length_nil,
    DescriptorList.length_bytes]

theorem high_low_bits {high : UInt8} (hhigh : high &&& 0x0F = 0) (low : ℕ) (hlow : low < 16) :
    (UInt8.ofNat low ||| high) &&& 0xF0 = high ∧ (UInt8.ofNat low ||| high).toNat % 16 = low := by
  have hall : ∀ high : Fin 16, ∀ low : Fin 16,
      ((UInt8.ofNat low ||| UInt8.ofNat (16 * high)) &&& 0xF0 = UInt8.ofNat (16 * high)) ∧
        (UInt8.ofNat low ||| UInt8.ofNat (16 * high)).toNat % 16 = low := by
    decide
  have hmultiple : high.toNat % 16 = 0 := by
    have hnat : high.toNat &&& 2 ^ 4 - 1 = 0 := congrArg UInt8.toNat hhigh
    rw [Nat.and_two_pow_sub_one_eq_mod] at hnat
    exact hnat
  have hlt := high.toNat_lt
  have hsame : UInt8.ofNat (16 * (high.toNat / 16)) = high := by
    rw [Nat.mul_div_cancel' (Nat.dvd_of_mod_eq_zero hmultiple)]
    exact UInt8.ofNat_toNat
  have hboth := hall ⟨high.toNat / 16, by omega⟩ ⟨low, hlow⟩
  simp only [hsame] at hboth
  exact hboth

theorem read_append {fixedSize : ℕ} {entry : EntryWithDescriptors}
    (hfixed : entry.fixed.length = fixedSize) (hhigh : entry.high &&& 0x0F = 0)
    (hsize : entry.descs.binarySize < 4096) (rest : ByteBlock) :
    read fixedSize (entry.bytes ++ rest) = some (entry, rest) := by
  subst hfixed
  obtain ⟨hread, hlow⟩ := high_low_bits hhigh (entry.descs.binarySize / 256) (by omega)
  have hsplit : entry.bytes ++ rest = entry.fixed ++
      ([UInt8.ofNat (entry.descs.binarySize / 256) ||| entry.high,
        UInt8.ofNat entry.descs.binarySize] ++ (entry.descs.bytes ++ rest)) := by
    simp only [bytes, List.append_assoc]
  have hbyte : byteAt (entry.bytes ++ rest) entry.fixed.length =
      UInt8.ofNat (entry.descs.binarySize / 256) ||| entry.high := by
    rw [hsplit]
    exact byteAt_append_right entry.fixed _ 0
  have hnext : byteAt (entry.bytes ++ rest) (entry.fixed.length + 1) =
      UInt8.ofNat entry.descs.binarySize := by
    rw [hsplit]
    exact byteAt_append_right entry.fixed _ 1
  have hword : getUInt16 (entry.bytes ++ rest) entry.fixed.length &&& 0x0FFF =
      entry.descs.binarySize := by
    rw [getUInt16, hbyte, hnext, and_length_mask, UInt8.toNat_ofNat']
    omega
  have hlength : (entry.bytes ++ rest).length =
      entry.fixed.length + 2 + (entry.descs.binarySize + rest.length) := by
    rw [List.length_append, length_bytes]
    omega
  have htail : (entry.bytes ++ rest).drop (entry.fixed.length + 2) = entry.descs.bytes ++ rest := by
    rw [hsplit, ← List.drop_drop, List.drop_left]
    rfl
  have hend : (entry.bytes ++ rest).drop (entry.fixed.length + 2 + entry.descs.binarySize) =
      rest := by
    rw [← List.drop_drop, htail, ← DescriptorList.length_bytes, List.drop_left]
  have hfixedPart : (entry.bytes ++ rest).take entry.fixed.length = entry.fixed := by
    rw [hsplit, List.take_left]
  have hmin : min entry.descs.binarySize
      (entry.fixed.length + 2 + (entry.descs.binarySize + rest.length) -
        (entry.fixed.length + 2)) = entry.descs.binarySize := by
    omega
  have hall : DescriptorList.add [] ((entry.descs.bytes ++ rest).take entry.descs.binarySize) =
      entry.descs := by
    rw [← DescriptorList.length_bytes, List.take_left]
    exact DescriptorList.add_bytes [] entry.descs
  unfold read
  rw [if_neg (by omega)]
  simp only [hword, hlength, hmin, htail, hend, hfixedPart, hbyte, hread, hall]

theorem read_nil (fixedSize : ℕ) : read fixedSize [] = none := by
  unfold read
  rw [if_pos]
  exact Nat.succ_pos _

theorem readAllRecords_bytes {fixedSize : ℕ} {entries : List EntryWithDescriptors}
    (hentries : ∀ entry ∈ entries, entry.fixed.length = fixedSize ∧ entry.high &&& 0x0F = 0 ∧
      entry.descs.binarySize < 4096) :
    readAllRecords (read fixedSize) (entries.flatMap bytes) = entries := by
  have hread : readAllRecords (read fixedSize) (entries.flatMap bytes ++ []) = entries := by
    apply readAllRecords_flatMap
    · intro entry _ hempty
      have hlength := congrArg List.length hempty
      rw [length_bytes, List.length_nil] at hlength
      omega
    · intro entry hentry rest
      obtain ⟨hfixed, hhigh, hsize⟩ := hentries entry hentry
      exact read_append hfixed hhigh hsize rest
    · exact read_nil fixedSize
  rw [List.append_nil] at hread
  exact hread

/-! ### Writing entries -/

def lengthField (high : UInt8) (descs : DescriptorList) : ByteBlock :=
  [UInt8.ofNat (descs.binarySize / 256) ||| high, UInt8.ofNat descs.binarySize]

theorem bytes_eq (entry : EntryWithDescriptors) :
    entry.bytes = entry.fixed ++ (lengthField entry.high entry.descs ++ entry.descs.bytes) :=
  List.append_assoc _ _ _

theorem putUInt16_length {descs : DescriptorList} (hsize : descs.binarySize < 4096) :
    putUInt16 (descs.binarySize ||| (0x0F <<< 12)) = lengthField 0xF0 descs := by
  have hall : ∀ low < 16, UInt8.ofNat (240 + low) = UInt8.ofNat low ||| 0xF0 := by
    decide
  have hword : descs.binarySize ||| (0x0F <<< 12) = 0xF000 + descs.binarySize :=
    length_or_reserved hsize
  have hhigh : (0xF000 + descs.binarySize) / 256 = 240 + descs.binarySize / 256 := by
    omega
  have hlow : UInt8.ofNat (0xF000 + descs.binarySize) = UInt8.ofNat descs.binarySize := by
    apply UInt8.toNat_inj.mp
    rw [UInt8.toNat_ofNat', UInt8.toNat_ofNat']
    omega
  unfold putUInt16 lengthField
  rw [hword, hhigh, hall _ (by omega), hlow]

theorem lengthSerialize_spec (descs : DescriptorList) (size : ℕ) (hsize : size < 4096) (start : ℕ) :
    ∃ written : DescriptorList, DescriptorList.FitsUpTo (descs.drop start) written (size - 2) ∧
        descs.lengthSerialize size start =
          (lengthField 0xF0 written ++ written.bytes, start + written.length) := by
  obtain ⟨written, hfits, hloop⟩ :=
    DescriptorList.serializeLoop_spec (descs.drop start) (size - 2) start
  refine ⟨written, hfits, ?_⟩
  obtain ⟨-, -, hle, -⟩ := hfits
  unfold DescriptorList.lengthSerialize DescriptorList.serialize
  rw [hloop]
  simp only [DescriptorList.length_bytes]
  rw [putUInt16_length (by omega)]

end EntryWithDescriptors

end TSDuck
