import TSDuck.Library.BitString
import TSDuck.Text.IntegerParser

/-!
# Parsing of AVC data

The parser reads bits and Exp-Golomb codes of an area of memory and skips the byte 03 after two null
bytes, which prevents the emulation of a start code. `rbsp` is the area without these bytes, and
`plainRead` reads it without skipping anything.

`agrees_iff` states which reads give what the plain reads give: those which satisfy `IsSafe` in the
state before them.

Scope. A read outside of the area and an operation on integers which the language does not define
stop the program, each one is a `Fault`. The sizes of the area are those of a 64-bit machine.
-/

namespace TSDuck

open BitString

/-- What the program must never do. -/
inductive AVCParser.Fault
  | outOfArea
  | undefined
  deriving DecidableEq

/-- A parser of AVC data. -/
structure AVCParser where
  data : ByteBlock
  byte : ℕ
  bit : ℕ

namespace AVCParser

/-! ### The parser -/

def new (data : ByteBlock) : AVCParser where
  data := data
  byte := 0
  bit := 0

def remainingBits (parser : AVCParser) : ℕ :=
  8 * (parser.data.length - parser.byte) - parser.bit

def endOfStream (parser : AVCParser) : Bool :=
  parser.data.length ≤ parser.byte

/-- A byte 03 after two null bytes is not payload. -/
def IsEmulation (data : ByteBlock) (index : ℕ) : Prop :=
  index < data.length ∧ byteAt data index = 3 ∧ 1 < index ∧ byteAt data (index - 1) = 0 ∧
    byteAt data (index - 2) = 0

instance (data : ByteBlock) (index : ℕ) : Decidable (IsEmulation data index) :=
  inferInstanceAs (Decidable (_ ∧ _))

/-- Advances to the next byte, skipping an emulation byte. -/
def nextByte (parser : AVCParser) : AVCParser :=
  let next := parser.byte + 1
  { parser with
    byte := if IsEmulation parser.data next then next + 1 else next
    bit := 0 }

def nextBit (parser : AVCParser) : Except Fault (Bool × AVCParser) :=
  if parser.byte < parser.data.length then
    let value := (byteAt parser.data parser.byte).toNat.testBit (7 - parser.bit)
    .ok (value, if parser.bit + 1 > 7 then parser.nextByte else { parser with bit := parser.bit + 1 })
  else .error .outOfArea

/-- Reads up to a byte boundary, with what is left to read. -/
def readLeading (type : IntType) : ℤ → ℕ → AVCParser → Except Fault (ℤ × ℕ × AVCParser)
  | value, 0, parser => .ok (value, 0, parser)
  | value, count + 1, parser =>
    if parser.bit ≠ 0 then
      parser.nextBit.bind fun next ↦
        readLeading type (type.wrap (2 * value + next.1.toNat)) count next.2
    else .ok (value, count + 1, parser)

def readBytes (type : IntType) : ℤ → ℕ → AVCParser → Except Fault (ℤ × ℕ × AVCParser)
  | value, count + 8, parser =>
    if parser.byte < parser.data.length then
      readBytes type (type.wrap (256 * value + (byteAt parser.data parser.byte).toNat)) count
        parser.nextByte
    else .error .outOfArea
  | value, count, parser => .ok (value, count, parser)

def readTrailing (type : IntType) : ℤ → ℕ → AVCParser → Except Fault (ℤ × AVCParser)
  | value, 0, parser => .ok (value, parser)
  | value, count + 1, parser =>
    parser.nextBit.bind fun next ↦
      readTrailing type (type.wrap (2 * value + next.1.toNat)) count next.2

/-- Reads bits, `none` when there are not enough. -/
def readBits (type : IntType) (parser : AVCParser) (count : ℕ) :
    Except Fault (Option ℤ × AVCParser) :=
  if parser.remainingBits < count then .ok (none, parser)
  else
    (readLeading type 0 count parser).bind fun leading ↦
      (readBytes type leading.1 leading.2.1 leading.2.2).bind fun bytes ↦
        (readTrailing type bytes.1 bytes.2.1 bytes.2.2).map fun last ↦ (some last.1, last.2)

def nextBits (type : IntType) (parser : AVCParser) (count : ℕ) :
    Except Fault (Option ℤ × AVCParser) :=
  (parser.readBits type count).map fun last ↦ (last.1, parser)

def intMax : ℕ := 2 ^ 31 - 1

/-- Counts the zeros before a one, in a number of iterations. -/
def leadingZeroBits : ℕ → ℕ → AVCParser → Except Fault (Option ℕ × AVCParser)
  | 0, _, parser => .ok (none, parser)
  | iterations + 1, zeros, parser =>
    if parser.endOfStream then .ok (none, parser)
    else
      parser.nextBit.bind fun next ↦
        if zeros > intMax then .error .undefined
        else if next.1 then .ok (some zeros, next.2)
        else leadingZeroBits iterations (zeros + 1) next.2

/-- The shift and the decrement are defined. -/
def ShiftDefined (type : IntType) (zeros : ℕ) : Prop :=
  if type.width < 32 then zeros < 31
  else if type.isSigned then zeros + 1 < type.width
  else zeros < type.width

instance (type : IntType) (zeros : ℕ) : Decidable (ShiftDefined type zeros) := by
  unfold ShiftDefined
  infer_instance

/-- Extracts a code, `none` when there are not enough bits. -/
def expColomb (type : IntType) (parser : AVCParser) : Except Fault (Option ℤ × AVCParser) :=
  (leadingZeroBits (parser.remainingBits + 1) 0 parser).bind fun leading ↦
    match leading.1 with
    | none => .ok (none, leading.2)
    | some zeros =>
      (leading.2.readBits type zeros).bind fun last ↦
        match last.1 with
        | none => .ok (none, last.2)
        | some value =>
          if ShiftDefined type zeros then
            .ok (some (type.wrap (value + (2 ^ zeros - 1))), last.2)
          else .error .undefined

def se (type : IntType) (parser : AVCParser) : Except Fault (Option ℤ × AVCParser) :=
  (parser.expColomb type).map fun last ↦
    (last.1.map fun value ↦
      type.wrap (((if value.tmod 2 = 0 then -1 else 1) * (value + 1)).tdiv 2), last.2)

/-- A call of the parser. -/
inductive Read
  | readBits (type : IntType) (count : ℕ)
  | nextBits (type : IntType) (count : ℕ)
  | ue (type : IntType)
  | se (type : IntType)

/-- The type allows the read. -/
def Read.IsAllowed : Read → Prop
  | .readBits type count => count ≤ type.width
  | .nextBits type count => count ≤ type.width
  | .ue type => type.isSigned = false
  | .se type => type.isSigned = true

/-- The result of a call, `none` when it fails, and the parser after it. -/
def perform (parser : AVCParser) : Read → Except Fault (Option ℤ × AVCParser)
  | .readBits type count => parser.readBits type count
  | .nextBits type count => parser.nextBits type count
  | .ue type => parser.expColomb type
  | .se type => parser.se type

def rbspFrom (data : ByteBlock) (index : ℕ) : ByteBlock :=
  ((List.range' index (data.length - index)).filter fun other ↦ ¬IsEmulation data other).map
    (byteAt data)

/-- The area without the byte 03 of every 00 00 03. -/
def rbsp (data : ByteBlock) : ByteBlock :=
  rbspFrom data 0

def signedValue (code : ℕ) : ℤ :=
  if code % 2 = 0 then -(code / 2 : ℕ) else ((code + 1) / 2 : ℕ)

/-- Reads a code, with the remaining bits. -/
def plainCode (type : IntType) (meaning : ℕ → ℤ) (bits : List Bool) : Option ℤ × List Bool :=
  match splitAtOne 0 bits with
  | none => (none, [])
  | some (zeros, rest) =>
    if rest.length < zeros then (none, rest)
    else if type.InRange (meaning (codeNum zeros rest)) then
      (some (meaning (codeNum zeros rest)), rest.drop zeros)
    else (none, rest.drop zeros)

/-- The result of a call on the bits of the payload. -/
def plainRead (bits : List Bool) : Read → Option ℤ × List Bool
  | .readBits type count =>
    if bits.length < count then (none, bits)
    else (some (type.wrap (valueOf (bits.take count))), bits.drop count)
  | .nextBits type count =>
    if bits.length < count then (none, bits)
    else (some (type.wrap (valueOf (bits.take count))), bits)
  | .ue type => plainCode type (fun code ↦ code) bits
  | .se type => plainCode type signedValue bits

/-- Calls give what the plain reads give, inside the area. -/
def Agrees : AVCParser → List Bool → List Read → Prop
  | _, _, [] => True
  | parser, bits, read :: reads =>
    ∃ next, parser.perform read = .ok ((plainRead bits read).1, next) ∧
      Agrees next (plainRead bits read).2 reads

/-! ### The remaining bits of the payload -/

def rest (parser : AVCParser) : List Bool :=
  (bitsOf (rbspFrom parser.data parser.byte)).drop parser.bit

/-- The position is in the area, on a byte of the payload. -/
structure Sound (parser : AVCParser) : Prop where
  bit_lt : parser.bit < 8
  inside : parser.byte < parser.data.length ∨ parser.byte = parser.data.length ∧ parser.bit = 0
  not_isEmulation : ¬IsEmulation parser.data parser.byte

theorem sound_new (data : ByteBlock) : (new data).Sound where
  bit_lt := Nat.succ_pos 7
  inside := (Nat.eq_zero_or_pos data.length).symm.imp_right fun hempty ↦ ⟨hempty.symm, rfl⟩
  not_isEmulation := fun hemulation ↦ Nat.not_lt_zero 1 hemulation.2.2.1

theorem rbspFrom_of_le {data : ByteBlock} {index : ℕ} (hle : data.length ≤ index) :
    rbspFrom data index = [] := by
  rw [rbspFrom, Nat.sub_eq_zero_of_le hle]
  rfl

theorem rbspFrom_of_lt {data : ByteBlock} {index : ℕ} (hlt : index < data.length) :
    rbspFrom data index = if IsEmulation data index then rbspFrom data (index + 1)
      else byteAt data index :: rbspFrom data (index + 1) := by
  have hlength : data.length - index = (data.length - (index + 1)) + 1 := by omega
  rw [rbspFrom, hlength, List.range'_succ, List.filter_cons]
  by_cases hemulation : IsEmulation data index
  · rw [if_neg (by simpa using hemulation), if_pos hemulation]
    rfl
  · rw [if_pos (by simpa using hemulation), if_neg hemulation]
    rfl

variable {parser : AVCParser}

theorem endOfStream_iff : parser.endOfStream = true ↔ parser.data.length ≤ parser.byte :=
  decide_eq_true_iff

theorem rest_of_le (hle : parser.data.length ≤ parser.byte) :
    parser.rest = [] := by
  rw [rest, rbspFrom_of_le hle]
  exact List.drop_nil

theorem length_rest_le (parser : AVCParser) : parser.rest.length ≤ parser.remainingBits := by
  have hfilter := List.length_filter_le (fun other ↦ decide ¬IsEmulation parser.data other)
    (List.range' parser.byte (parser.data.length - parser.byte))
  rw [List.length_range'] at hfilter
  rw [rest, List.length_drop, length_bitsOf, rbspFrom, List.length_map, remainingBits]
  omega

theorem Sound.nextByte (hsound : parser.Sound) (hlt : parser.byte < parser.data.length) :
    parser.nextByte.Sound ∧ rbspFrom parser.data parser.byte =
        byteAt parser.data parser.byte :: rbspFrom parser.data parser.nextByte.byte := by
  rw [rbspFrom_of_lt hlt, if_neg hsound.not_isEmulation, AVCParser.nextByte]
  by_cases hemulation : IsEmulation parser.data (parser.byte + 1)
  · simp only [if_pos hemulation]
    refine ⟨⟨Nat.succ_pos 7, ?_, fun hsecond ↦ ?_⟩, ?_⟩
    · have hinside := hemulation.1
      dsimp only
      omega
    · have hthree : byteAt parser.data (parser.byte + 1) = 3 := hemulation.2.1
      have hzero : byteAt parser.data (parser.byte + 1) = 0 := hsecond.2.2.2.1
      rw [hthree] at hzero
      exact absurd hzero (by decide)
    · rw [rbspFrom_of_lt hemulation.1, if_pos hemulation]
  · simp only [if_neg hemulation]
    refine ⟨⟨Nat.succ_pos 7, ?_, hemulation⟩, trivial⟩
    dsimp only
    omega

theorem Sound.nextBit (hsound : parser.Sound) :
    (parser.data.length ≤ parser.byte ∧ parser.rest = [] ∧ parser.nextBit = .error .outOfArea) ∨
      (parser.byte < parser.data.length ∧ ∃ bit next, parser.nextBit = .ok (bit, next) ∧
        next.Sound ∧ parser.rest = bit :: next.rest ∧
        next.remainingBits < parser.remainingBits) := by
  rcases Nat.lt_or_ge parser.byte parser.data.length with hlt | hle
  · refine Or.inr ⟨hlt, _, _, by rw [AVCParser.nextBit, if_pos hlt], ?_⟩
    obtain ⟨hnext, hbytes⟩ := hsound.nextByte hlt
    have hbit := hsound.bit_lt
    have hrest : parser.rest = (byteAt parser.data parser.byte).toNat.testBit (7 - parser.bit) ::
          (bitsOf (rbspFrom parser.data parser.byte)).drop (parser.bit + 1) := by
      rw [rest, hbytes]
      exact drop_bitsOf_cons _ _ hbit
    by_cases hlast : parser.bit + 1 > 7
    · rw [if_pos hlast]
      refine ⟨hnext, ?_, ?_⟩
      · have height : parser.bit + 1 = 8 := by omega
        rw [hrest, height, hbytes, bitsOf_cons, List.drop_left' (length_byteBits _)]
        rfl
      · have hbyte : parser.byte + 1 ≤ parser.nextByte.byte := by
          rw [AVCParser.nextByte]
          dsimp only
          split_ifs <;> omega
        have hzero : parser.nextByte.bit = 0 := rfl
        have hdata : parser.nextByte.data = parser.data := rfl
        rw [remainingBits, remainingBits, hzero, hdata]
        omega
    · rw [if_neg hlast]
      refine ⟨⟨by dsimp only; omega, Or.inl hlt, hsound.not_isEmulation⟩, hrest, ?_⟩
      rw [remainingBits, remainingBits]
      dsimp only
      omega
  · exact Or.inl ⟨hle, rest_of_le hle, by rw [AVCParser.nextBit, if_neg (Nat.not_lt.mpr hle)]⟩

/-! ### Reading bits -/

/-- Bits of the payload are read: the value after them and the parser. -/
structure Consumes (type : IntType) (parser : AVCParser) (value : ℤ) (taken : List Bool)
    (last : ℤ) (next : AVCParser) : Prop where
  sound : next.Sound
  rest_eq : parser.rest = taken ++ next.rest
  value_eq : last = type.wrap (value * 2 ^ taken.length + valueOf taken)

namespace Consumes

variable {type : IntType} {value middle last : ℤ} {taken others : List Bool}
  {between next : AVCParser}

theorem refl (hsound : parser.Sound) (hvalue : type.wrap value = value) :
    Consumes type parser value [] value parser where
  sound := hsound
  rest_eq := rfl
  value_eq := by
    rw [List.length_nil, pow_zero, mul_one, show (valueOf [] : ℕ) = 0 from rfl, Nat.cast_zero,
      add_zero, hvalue]

theorem wrap_eq (hconsumes : Consumes type parser value taken last next) :
    type.wrap last = last := by
  rw [hconsumes.value_eq, type.wrap_of_inRange (type.inRange_wrap _)]

theorem trans (hfirst : Consumes type parser value taken middle between)
    (hsecond : Consumes type between middle others last next) :
    Consumes type parser value (taken ++ others) last next where
  sound := hsecond.sound
  rest_eq := by rw [hfirst.rest_eq, hsecond.rest_eq, List.append_assoc]
  value_eq := by
    rw [hsecond.value_eq, hfirst.value_eq, type.wrap_eq_wrap_iff, valueOf_append, List.length_append]
    have hwrap := ((type.wrap_modEq (value * 2 ^ taken.length + valueOf taken)).mul_right
      (2 ^ others.length)).add_right (valueOf others : ℤ)
    have hsum : (value * 2 ^ taken.length + valueOf taken) * 2 ^ others.length + valueOf others =
        value * 2 ^ (taken.length + others.length) +
          ((valueOf taken * 2 ^ others.length + valueOf others : ℕ) : ℤ) := by
      push_cast
      ring
    rwa [hsum] at hwrap

end Consumes

theorem Sound.consumes_nextBit (hsound : parser.Sound) {type : IntType} (value : ℤ) {bit : Bool}
    {next : AVCParser} (hbit : parser.nextBit = .ok (bit, next)) :
    Consumes type parser value [bit] (type.wrap (2 * value + bit.toNat)) next := by
  rcases hsound.nextBit with ⟨-, -, herror⟩ | ⟨-, other, after, hok, hnext, hrest, -⟩
  · rw [herror] at hbit
    cases hbit
  · rw [hok] at hbit
    cases hbit
    refine ⟨hnext, hrest, ?_⟩
    rw [List.length_singleton, pow_one, valueOf_singleton, mul_comm]

theorem Sound.readLeading (hsound : parser.Sound) {type : IntType} {value : ℤ}
    (hvalue : type.wrap value = value) (count : ℕ) :
    ∃ taken last remaining next, parser.readLeading type value count = .ok (last, remaining, next) ∧
      Consumes type parser value taken last next ∧ count = taken.length + remaining ∧
      (remaining = 0 ∨ next.bit = 0) := by
  induction count generalizing parser value with
  | zero => exact ⟨[], value, 0, parser, rfl, .refl hsound hvalue, rfl, Or.inl rfl⟩
  | succ count ih =>
    rw [AVCParser.readLeading]
    by_cases hbit : parser.bit = 0
    · rw [if_neg (not_not_intro hbit)]
      exact ⟨[], value, count + 1, parser, rfl, .refl hsound hvalue, (Nat.zero_add _).symm,
        Or.inr hbit⟩
    · rw [if_pos hbit]
      rcases hsound.nextBit with ⟨hle, -, -⟩ | ⟨-, bit, after, hok, hafter, -, -⟩
      · rcases hsound.inside with hlt | ⟨-, hzero⟩
        · exact absurd hlt (Nat.not_lt.mpr hle)
        · exact absurd hzero hbit
      · have hfirst : Consumes type parser value [bit] _ _ := hsound.consumes_nextBit value hok
        obtain ⟨taken, last, remaining, next, hread, hconsumes, hcount, hend⟩ :=
          ih hafter hfirst.wrap_eq
        rw [hok]
        refine ⟨[bit] ++ taken, last, remaining, next, hread, hfirst.trans hconsumes, ?_, hend⟩
        rw [List.singleton_append, List.length_cons]
        omega

theorem Sound.readBytes (hsound : parser.Sound) {type : IntType} {value : ℤ}
    (hvalue : type.wrap value = value) {count : ℕ} (hboundary : count = 0 ∨ parser.bit = 0) :
    (parser.rest.length < count ∧ parser.readBytes type value count = .error .outOfArea) ∨
      ∃ taken last remaining next, parser.readBytes type value count = .ok (last, remaining, next) ∧
        Consumes type parser value taken last next ∧ count = taken.length + remaining := by
  induction count using Nat.strong_induction_on generalizing parser value with
  | _ count ih =>
    match count, ih with
    | more + 8, ih =>
      have hbit : parser.bit = 0 := hboundary.resolve_left (Nat.succ_ne_zero _)
      rw [AVCParser.readBytes]
      rcases Nat.lt_or_ge parser.byte parser.data.length with hlt | hle
      · obtain ⟨hnext, hbytes⟩ := hsound.nextByte hlt
        have hrest : parser.rest = byteBits (byteAt parser.data parser.byte) ++ parser.nextByte.rest := by
          rw [rest, hbytes, hbit, List.drop_zero, bitsOf_cons]
          rfl
        have hfirst : Consumes type parser value (byteBits (byteAt parser.data parser.byte))
            (type.wrap (256 * value + (byteAt parser.data parser.byte).toNat)) parser.nextByte := by
          refine ⟨hnext, hrest, ?_⟩
          rw [length_byteBits, valueOf_byteBits, mul_comm]
          rfl
        rw [if_pos hlt]
        rcases ih more (by omega) hnext hfirst.wrap_eq (Or.inr rfl) with ⟨hshort, herror⟩ |
          ⟨taken, last, remaining, next, hread, hconsumes, hcount⟩
        · refine Or.inl ⟨?_, herror⟩
          rw [hrest, List.length_append, length_byteBits]
          omega
        · refine Or.inr ⟨_, last, remaining, next, hread, hfirst.trans hconsumes, ?_⟩
          rw [List.length_append, length_byteBits]
          omega
      · refine Or.inl ⟨?_, by rw [if_neg (Nat.not_lt.mpr hle)]⟩
        rw [rest_of_le hle]
        exact Nat.succ_pos _
    | 0, _ | 1, _ | 2, _ | 3, _ | 4, _ | 5, _ | 6, _ | 7, _ =>
      exact Or.inr ⟨[], value, _, parser, rfl, .refl hsound hvalue, (Nat.zero_add _).symm⟩

theorem Sound.readTrailing (hsound : parser.Sound) {type : IntType} {value : ℤ}
    (hvalue : type.wrap value = value) (count : ℕ) :
    (parser.rest.length < count ∧ parser.readTrailing type value count = .error .outOfArea) ∨
      ∃ taken last next, parser.readTrailing type value count = .ok (last, next) ∧
        Consumes type parser value taken last next ∧ count = taken.length := by
  induction count generalizing parser value with
  | zero => exact Or.inr ⟨[], value, parser, rfl, .refl hsound hvalue, rfl⟩
  | succ count ih =>
    rw [AVCParser.readTrailing]
    rcases hsound.nextBit with ⟨-, hnil, herror⟩ | ⟨-, bit, after, hok, hafter, hrest, -⟩
    · refine Or.inl ⟨?_, by rw [herror]; rfl⟩
      rw [hnil]
      exact Nat.succ_pos _
    · have hfirst : Consumes type parser value [bit] _ _ := hsound.consumes_nextBit value hok
      rw [hok]
      rcases ih hafter hfirst.wrap_eq with ⟨hshort, herror⟩ |
        ⟨taken, last, next, hread, hconsumes, hcount⟩
      · refine Or.inl ⟨?_, herror⟩
        rw [hrest, List.length_cons]
        exact Nat.succ_lt_succ hshort
      · refine Or.inr ⟨_, last, next, hread, hfirst.trans hconsumes, ?_⟩
        rw [List.singleton_append, List.length_cons, hcount]

/-- What a read of some bits gives. -/
theorem Sound.readBits (hsound : parser.Sound) (type : IntType) (count : ℕ) :
    (parser.remainingBits < count ∧ parser.readBits type count = .ok (none, parser)) ∨
      (count ≤ parser.rest.length ∧ ∃ next, parser.readBits type count =
          .ok (some (type.wrap (valueOf (parser.rest.take count))), next) ∧
        next.Sound ∧ next.rest = parser.rest.drop count) ∨
      (parser.rest.length < count ∧ count ≤ parser.remainingBits ∧
        parser.readBits type count = .error .outOfArea) := by
  rw [AVCParser.readBits]
  split_ifs with henough
  · exact Or.inl ⟨henough, rfl⟩
  obtain ⟨first, value, remaining, between, hleading, hfirst, hcount, hboundary⟩ :=
    hsound.readLeading type.wrap_zero count
  rw [hleading]
  rcases hfirst.sound.readBytes hfirst.wrap_eq hboundary with ⟨hshort, herror⟩ |
    ⟨second, middle, trailing, after, hbytes, hsecond, hmore⟩
  · refine Or.inr (Or.inr ⟨?_, Nat.not_lt.mp henough, ?_⟩)
    · rw [hfirst.rest_eq, List.length_append, hcount]
      omega
    · show Except.bind (between.readBytes type value remaining) _ = _
      rw [herror]
      rfl
  rcases hsecond.sound.readTrailing hsecond.wrap_eq trailing with ⟨hshort, herror⟩ |
    ⟨third, last, next, htrailing, hthird, hall⟩
  · refine Or.inr (Or.inr ⟨?_, Nat.not_lt.mp henough, ?_⟩)
    · rw [hfirst.rest_eq, hsecond.rest_eq, List.length_append, List.length_append, hcount, hmore]
      omega
    · show Except.bind (between.readBytes type value remaining) _ = _
      rw [hbytes]
      show Except.map _ (after.readTrailing type middle trailing) = _
      rw [herror]
      rfl
  · have htotal := (hfirst.trans hsecond).trans hthird
    have htaken : (first ++ second ++ third).length = count := by
      rw [List.length_append, List.length_append]
      omega
    have htake : parser.rest.take count = first ++ second ++ third := by
      rw [htotal.rest_eq, List.take_left' htaken]
    refine Or.inr (Or.inl ⟨?_, next, ?_, hthird.sound, ?_⟩)
    · rw [htotal.rest_eq, List.length_append, htaken]
      exact Nat.le_add_right _ _
    · show Except.bind (between.readBytes type value remaining) _ = _
      rw [hbytes]
      show Except.map _ (after.readTrailing type middle trailing) = _
      rw [htrailing, htake]
      have hvalue := htotal.value_eq
      rw [zero_mul, zero_add] at hvalue
      show Except.ok (some last, next) = _
      rw [hvalue]
    · rw [htotal.rest_eq, List.drop_left' htaken]

/-! ### Leading zeros -/

def CountsZeros (zeros : ℕ) (bits : List Bool) (result : Except Fault (Option ℕ × AVCParser)) :
    Prop :=
  match splitAtOne zeros bits with
  | some (total, after) =>
    if total ≤ intMax then
      ∃ next, result = .ok (some total, next) ∧ next.Sound ∧ next.rest = after
    else result = .error .undefined
  | none =>
    if bits = [] ∨ zeros + bits.length ≤ intMax + 1 then
      ∃ next, result = .ok (none, next) ∧ next.Sound ∧ next.rest = []
    else result = .error .undefined

theorem Sound.leadingZeroBits (hsound : parser.Sound) (zeros : ℕ) {iterations : ℕ}
    (henough : parser.remainingBits < iterations) :
    CountsZeros zeros parser.rest (parser.leadingZeroBits iterations zeros) := by
  induction iterations generalizing parser zeros with
  | zero => exact absurd henough (Nat.not_lt_zero _)
  | succ iterations ih =>
    rw [AVCParser.leadingZeroBits]
    rcases hsound.nextBit with ⟨hle, hnil, -⟩ | ⟨hlt, bit, after, hok, hafter, hrest, hless⟩
    · rw [hnil, CountsZeros, splitAtOne]
      dsimp only
      rw [if_pos (Or.inl rfl), if_pos (endOfStream_iff.mpr hle)]
      exact ⟨parser, rfl, hsound, hnil⟩
    · have hinside : ¬parser.endOfStream = true := fun hend ↦
        absurd hlt (Nat.not_lt.mpr (endOfStream_iff.mp hend))
      rw [if_neg hinside, hok, hrest]
      show CountsZeros zeros (bit :: after.rest)
        (if zeros > intMax then .error .undefined
          else if bit then .ok (some zeros, after)
          else after.leadingZeroBits iterations (zeros + 1))
      have hnext : CountsZeros (zeros + 1) after.rest
          (after.leadingZeroBits iterations (zeros + 1)) := ih hafter (zeros + 1) (by omega)
      unfold CountsZeros at hnext ⊢
      cases bit with
      | true =>
        rw [splitAtOne]
        dsimp only
        rcases Nat.lt_or_ge intMax zeros with hover | hle
        · rw [if_neg (Nat.not_le.mpr hover), if_pos hover]
        · rw [if_pos hle, if_neg (Nat.not_lt.mpr hle), if_pos rfl]
          exact ⟨after, rfl, hafter, rfl⟩
      | false =>
        rw [splitAtOne]
        rcases Nat.lt_or_ge intMax zeros with hover | hle
        · simp only [if_pos hover]
          cases hsplit : splitAtOne (zeros + 1) after.rest with
          | none =>
            have hlong : ¬(false :: after.rest = [] ∨
                zeros + (false :: after.rest).length ≤ intMax + 1) := by
              rw [List.length_cons]
              rintro (hnil | hshort)
              · cases hnil
              · omega
            dsimp only
            rw [if_neg hlong]
            trivial
          | some split =>
            have htotal := le_of_splitAtOne hsplit
            dsimp only
            rw [if_neg (by omega)]
            trivial
        · simp only [if_neg (Nat.not_lt.mpr hle), Bool.false_eq_true, if_false]
          cases hsplit : splitAtOne (zeros + 1) after.rest with
          | none =>
            rw [hsplit] at hnext
            dsimp only at hnext ⊢
            have hiff : (false :: after.rest = [] ∨
                zeros + (false :: after.rest).length ≤ intMax + 1) ↔
                (after.rest = [] ∨ zeros + 1 + after.rest.length ≤ intMax + 1) := by
              rw [List.length_cons]
              constructor
              · rintro (hnil | hshort)
                · cases hnil
                · exact Or.inr (by omega)
              · rintro (hnil | hshort)
                · rw [hnil, List.length_nil]
                  exact Or.inr (by omega)
                · exact Or.inr (by omega)
            simp only [hiff]
            exact hnext
          | some split =>
            rw [hsplit] at hnext
            exact hnext

/-! ### Safe reads -/

/-- The bits are bits of the payload, or the read fails. -/
def IsSafeBits (parser : AVCParser) (count : ℕ) : Prop :=
  ¬(parser.rest.length < count ∧ count ≤ parser.remainingBits)

/-- The zeros fit in the counter and the code in the type. -/
def IsSafeCode (type : IntType) (parser : AVCParser) : Prop :=
  match splitAtOne 0 parser.rest with
  | none => parser.rest.length ≤ intMax + 1
  | some (zeros, after) =>
    zeros ≤ intMax ∧
      (∀ next, parser.leadingZeroBits (parser.remainingBits + 1) 0 = .ok (some zeros, next) →
        next.IsSafeBits zeros) ∧
      (zeros ≤ after.length → ShiftDefined type zeros ∧ type.InRange (codeNum zeros after))

/-- The parser gives what the plain read gives. -/
def IsSafe (parser : AVCParser) : Read → Prop
  | .readBits _ count => parser.IsSafeBits count
  | .nextBits _ count => parser.IsSafeBits count
  | .ue type => parser.IsSafeCode type
  | .se type => parser.IsSafeCode type

/-- All reads of a sequence are safe in the state before them. -/
def AllSafe : AVCParser → List Read → Prop
  | _, [] => True
  | parser, read :: reads =>
    parser.IsSafe read ∧ ∀ result next, parser.perform read = .ok (result, next) → AllSafe next reads

/-- What the extraction of a code gives. -/
inductive Extracted (type : IntType) (parser : AVCParser) :
    Except Fault (Option ℤ × AVCParser) → Prop
  | endless (hsplit : splitAtOne 0 parser.rest = none) (hlong : intMax + 1 < parser.rest.length) :
    Extracted type parser (.error .undefined)
  | noCode {next : AVCParser} (hsplit : splitAtOne 0 parser.rest = none)
    (hshort : parser.rest.length ≤ intMax + 1) (hnext : next.Sound) (hrest : next.rest = []) :
    Extracted type parser (.ok (none, next))
  | tooLong {zeros : ℕ} {after : List Bool} (hsplit : splitAtOne 0 parser.rest = some (zeros, after))
    (hlong : intMax < zeros) : Extracted type parser (.error .undefined)
  | outside {zeros : ℕ} {after : List Bool} {between : AVCParser}
    (hsplit : splitAtOne 0 parser.rest = some (zeros, after))
    (hleading : parser.leadingZeroBits (parser.remainingBits + 1) 0 = .ok (some zeros, between))
    (hnot : ¬between.IsSafeBits zeros) : Extracted type parser (.error .outOfArea)
  | tooShort {zeros : ℕ} {after : List Bool} {between : AVCParser}
    (hsplit : splitAtOne 0 parser.rest = some (zeros, after)) (hzeros : zeros ≤ intMax)
    (hleading : parser.leadingZeroBits (parser.remainingBits + 1) 0 = .ok (some zeros, between))
    (hsafe : between.IsSafeBits zeros) (hshort : after.length < zeros) (hbetween : between.Sound)
    (hrest : between.rest = after) : Extracted type parser (.ok (none, between))
  | notDefined {zeros : ℕ} {after : List Bool}
    (hsplit : splitAtOne 0 parser.rest = some (zeros, after)) (henough : zeros ≤ after.length)
    (hshift : ¬ShiftDefined type zeros) : Extracted type parser (.error .undefined)
  | value {zeros : ℕ} {after : List Bool} {between next : AVCParser}
    (hsplit : splitAtOne 0 parser.rest = some (zeros, after)) (hzeros : zeros ≤ intMax)
    (hleading : parser.leadingZeroBits (parser.remainingBits + 1) 0 = .ok (some zeros, between))
    (hsafe : between.IsSafeBits zeros) (henough : zeros ≤ after.length)
    (hshift : ShiftDefined type zeros) (hnext : next.Sound) (hrest : next.rest = after.drop zeros) :
    Extracted type parser (.ok (some (type.wrap (codeNum zeros after)), next))

theorem wrap_wrap_add (type : IntType) (value other : ℤ) :
    type.wrap (type.wrap value + other) = type.wrap (value + other) :=
  type.wrap_eq_wrap_iff.mpr ((type.wrap_modEq value).add_right other)

theorem Sound.expColomb (hsound : parser.Sound) (type : IntType) :
    Extracted type parser (parser.expColomb type) := by
  have hleading := hsound.leadingZeroBits 0 (Nat.lt_succ_self parser.remainingBits)
  rw [AVCParser.expColomb]
  cases hsplit : splitAtOne 0 parser.rest with
  | none =>
    rw [CountsZeros, hsplit] at hleading
    dsimp only at hleading
    split_ifs at hleading with hshort
    · obtain ⟨next, hok, hnext, hnil⟩ := hleading
      rw [hok]
      refine .noCode hsplit ?_ hnext hnil
      rcases hshort with hempty | hle
      · rw [hempty]
        exact Nat.zero_le _
      · rwa [Nat.zero_add] at hle
    · rw [hleading]
      rw [not_or, Nat.zero_add, not_le] at hshort
      exact .endless hsplit hshort.2
  | some split =>
    obtain ⟨zeros, after⟩ := split
    rw [CountsZeros, hsplit] at hleading
    dsimp only at hleading
    split_ifs at hleading with hzeros
    · obtain ⟨between, hok, hbetween, hafter⟩ := hleading
      rw [hok]
      show Extracted type parser ((between.readBits type zeros).bind _)
      rcases hbetween.readBits type zeros with ⟨hfew, hread⟩ | ⟨henough, next, hread, hnext, hrest⟩ |
        ⟨hshort, hmany, hread⟩
      · rw [hread]
        have hlength := length_rest_le between
        refine .tooShort hsplit hzeros hok (fun hunsafe ↦ absurd hunsafe.2 (Nat.not_le.mpr hfew)) ?_
          hbetween hafter
        rw [← hafter]
        omega
      · rw [hafter] at henough hread hrest
        rw [hread]
        show Extracted type parser (if ShiftDefined type zeros then _ else _)
        split_ifs with hshift
        · have hcode : type.wrap (type.wrap (valueOf (after.take zeros)) + (2 ^ zeros - 1)) =
              type.wrap (codeNum zeros after) := by
            have hpos : 1 ≤ 2 ^ zeros := Nat.one_le_two_pow
            rw [wrap_wrap_add, codeNum]
            push_cast [Nat.cast_sub hpos]
            rw [add_comm]
          rw [hcode]
          refine .value hsplit hzeros hok (fun hunsafe ↦ ?_) henough hshift hnext hrest
          rw [hafter] at hunsafe
          exact absurd hunsafe.1 (Nat.not_lt.mpr henough)
        · exact .notDefined hsplit henough hshift
      · rw [hread]
        exact .outside hsplit hok (not_not_intro ⟨hshort, hmany⟩)
    · rw [hleading]
      exact .tooLong hsplit (Nat.not_le.mp hzeros)

theorem map_id_eq (result : Except Fault (Option ℤ × AVCParser)) :
    result.map (fun last ↦ (last.1.map id, last.2)) = result := by
  cases result with
  | error fault => rfl
  | ok last =>
    rw [Option.map_id]
    rfl

/-- The conversion is right for the values of the type only. -/
structure Decodes (type : IntType) (meaning : ℕ → ℤ) (convert : ℤ → ℤ) : Prop where
  right : ∀ code : ℕ, type.InRange code → type.InRange (meaning code) ∧ convert code = meaning code
  wrong : ∀ code : ℕ, ¬type.InRange code → type.InRange (meaning code) →
    convert (type.wrap code) ≠ meaning code

theorem Extracted.of_isSafeCode {type : IntType} {meaning : ℕ → ℤ} {convert : ℤ → ℤ}
    (hdecodes : Decodes type meaning convert) {result : Except Fault (Option ℤ × AVCParser)}
    (hresult : Extracted type parser result) (hsafe : parser.IsSafeCode type) :
    ∃ next, result.map (fun last ↦ (last.1.map convert, last.2)) =
        .ok ((plainCode type meaning parser.rest).1, next) ∧ next.Sound ∧
      next.rest = (plainCode type meaning parser.rest).2 := by
  rw [IsSafeCode] at hsafe
  rw [plainCode]
  cases hresult with
  | endless hsplit hlong =>
    rw [hsplit] at hsafe
    exact absurd hsafe (Nat.not_le.mpr hlong)
  | noCode hsplit hshort hnext hrest =>
    rw [hsplit]
    exact ⟨_, rfl, hnext, hrest⟩
  | tooLong hsplit hlong =>
    rw [hsplit] at hsafe
    exact absurd hsafe.1 (Nat.not_le.mpr hlong)
  | outside hsplit hleading hunsafe =>
    rw [hsplit] at hsafe
    exact absurd (hsafe.2.1 _ hleading) hunsafe
  | tooShort hsplit hzeros hleading hbits hshort hbetween hrest =>
    rw [hsplit]
    dsimp only
    rw [if_pos hshort]
    exact ⟨_, rfl, hbetween, hrest⟩
  | notDefined hsplit henough hshift =>
    rw [hsplit] at hsafe
    exact absurd (hsafe.2.2 henough).1 hshift
  | value hsplit hzeros hleading hbits henough hshift hnext hrest =>
    rw [hsplit] at hsafe ⊢
    have hrange := (hsafe.2.2 henough).2
    obtain ⟨hmeaning, hconvert⟩ := hdecodes.right _ hrange
    dsimp only
    rw [if_neg (Nat.not_lt.mpr henough), if_pos hmeaning, type.wrap_of_inRange hrange]
    refine ⟨_, ?_, hnext, hrest⟩
    show Except.ok (some (convert _), _) = _
    rw [hconvert]

theorem Extracted.isSafeCode {type : IntType} {meaning : ℕ → ℤ} {convert : ℤ → ℤ}
    (hdecodes : Decodes type meaning convert) {result : Except Fault (Option ℤ × AVCParser)}
    (hresult : Extracted type parser result) {last : AVCParser}
    (hsame : result.map (fun last ↦ (last.1.map convert, last.2)) =
      .ok ((plainCode type meaning parser.rest).1, last)) : parser.IsSafeCode type := by
  rw [plainCode] at hsame
  rw [IsSafeCode]
  cases hresult with
  | endless hsplit hlong => cases hsame
  | noCode hsplit hshort hnext hrest => rwa [hsplit]
  | tooLong hsplit hlong => cases hsame
  | outside hsplit hleading hunsafe => cases hsame
  | tooShort hsplit hzeros hleading hbits hshort hbetween hrest =>
    rw [hsplit]
    refine ⟨hzeros, fun next hnext ↦ ?_, fun henough ↦ absurd hshort (Nat.not_lt.mpr henough)⟩
    rw [hleading] at hnext
    cases hnext
    exact hbits
  | notDefined hsplit henough hshift => cases hsame
  | value hsplit hzeros hleading hbits henough hshift hnext hrest =>
    rw [hsplit] at hsame ⊢
    refine ⟨hzeros, fun next hnext ↦ ?_, fun _ ↦ ⟨hshift, ?_⟩⟩
    · rw [hleading] at hnext
      cases hnext
      exact hbits
    · by_contra hrange
      dsimp only at hsame
      rw [if_neg (Nat.not_lt.mpr henough)] at hsame
      have hvalues := congrArg Prod.fst (Except.ok.inj hsame)
      split_ifs at hvalues with hmeaning
      · exact hdecodes.wrong _ hrange hmeaning (Option.some.inj hvalues)
      · cases hvalues

/-! ### Signed and unsigned codes -/

theorem decodes_ue (type : IntType) : Decodes type (fun code ↦ code) id where
  right := fun _ hcode ↦ ⟨hcode, rfl⟩
  wrong := fun _ hcode hmeaning ↦ absurd hmeaning hcode

def convertSigned (type : IntType) (value : ℤ) : ℤ :=
  type.wrap (((if value.tmod 2 = 0 then -1 else 1) * (value + 1)).tdiv 2)

theorem convertSigned_even (type : IntType) (half : ℕ) :
    convertSigned type (2 * half : ℕ) = type.wrap (-(half : ℤ)) := by
  have hmod : ((2 * half : ℕ) : ℤ).tmod 2 = 0 := by
    rw [Int.tmod_eq_emod_of_nonneg (Int.natCast_nonneg _)]
    omega
  rw [convertSigned, if_pos hmod, neg_one_mul, Int.neg_tdiv, Int.tdiv_eq_ediv_of_nonneg (by omega)]
  congr 2
  omega

theorem convertSigned_odd (type : IntType) (half : ℕ) :
    convertSigned type (2 * half + 1 : ℕ) = type.wrap (half + 1 : ℤ) := by
  have hmod : ((2 * half + 1 : ℕ) : ℤ).tmod 2 ≠ 0 := by
    rw [Int.tmod_eq_emod_of_nonneg (Int.natCast_nonneg _)]
    omega
  rw [convertSigned, if_neg hmod, one_mul, Int.tdiv_eq_ediv_of_nonneg (by omega)]
  congr 1
  omega

theorem convertSigned_neg_even (type : IntType) (half : ℕ) :
    convertSigned type (-(2 * half + 2 : ℕ)) = type.wrap (half : ℤ) := by
  have hmod : (-((2 * half + 2 : ℕ) : ℤ)).tmod 2 = 0 := by
    rw [Int.neg_tmod, Int.tmod_eq_emod_of_nonneg (Int.natCast_nonneg _)]
    omega
  rw [convertSigned, if_pos hmod, neg_one_mul, Int.tdiv_eq_ediv_of_nonneg (by omega)]
  congr 1
  omega

theorem convertSigned_neg_odd (type : IntType) (half : ℕ) :
    convertSigned type (-(2 * half + 1 : ℕ)) = type.wrap (-(half : ℤ)) := by
  have hmod : (-((2 * half + 1 : ℕ) : ℤ)).tmod 2 ≠ 0 := by
    rw [Int.neg_tmod, Int.tmod_eq_emod_of_nonneg (Int.natCast_nonneg _)]
    omega
  have hneg : -((2 * half + 1 : ℕ) : ℤ) + 1 = -(2 * half : ℕ) := by
    push_cast
    omega
  rw [convertSigned, if_neg hmod, one_mul, hneg, Int.neg_tdiv,
    Int.tdiv_eq_ediv_of_nonneg (Int.natCast_nonneg _)]
  congr 2
  omega

theorem exists_signedRange {type : IntType} (hsigned : type.isSigned = true) :
    ∃ limit : ℤ, 0 < limit ∧ type.size = 2 * limit ∧
      ∀ value, type.InRange value ↔ -limit ≤ value ∧ value < limit := by
  have hsize : type.size = 2 * 2 ^ (type.width - 1) := by
    rw [IntType.size, ← pow_succ', Nat.sub_add_cancel ((by decide : 1 ≤ 8).trans type.width_ge)]
  refine ⟨2 ^ (type.width - 1), Int.pow_pos (by decide), hsize, fun value ↦ ?_⟩
  rw [IntType.InRange, IntType.minValue, hsigned, if_pos rfl, hsize]
  omega

theorem decodes_se {type : IntType} (hsigned : type.isSigned = true) :
    Decodes type signedValue (convertSigned type) := by
  obtain ⟨limit, hlimit, hsize, hrange⟩ := exists_signedRange hsigned
  have heven : ∀ half : ℕ, signedValue (2 * half) = -(half : ℤ) := by
    intro half
    rw [signedValue, if_pos (by omega), Nat.mul_div_cancel_left _ (by decide)]
  have hodd : ∀ half : ℕ, signedValue (2 * half + 1) = half + 1 := by
    intro half
    rw [signedValue, if_neg (by omega)]
    omega
  refine ⟨fun code hcode ↦ ?_, fun code hcode hmeaning ↦ ?_⟩
  · rw [hrange] at hcode
    obtain ⟨half, rfl | rfl⟩ := Nat.even_or_odd' code
    · have hin : type.InRange (-(half : ℤ)) := (hrange _).mpr (by omega)
      rw [heven, convertSigned_even, type.wrap_of_inRange hin]
      exact ⟨hin, rfl⟩
    · have hin : type.InRange (half + 1 : ℤ) := (hrange _).mpr (by omega)
      rw [hodd, convertSigned_odd, type.wrap_of_inRange hin]
      exact ⟨hin, rfl⟩
  · -- The code wraps around to a value of the other sign, or to zero.
    have hwrap : ∀ value : ℤ, type.InRange value → value ≡ code [ZMOD type.size] →
        type.wrap code = value := by
      intro value hvalue hmod
      rw [← type.wrap_of_inRange hvalue]
      exact type.wrap_eq_wrap_iff.mpr hmod.symm
    rw [hrange] at hcode
    obtain ⟨half, rfl | rfl⟩ := Nat.even_or_odd' code
    · rw [heven, hrange] at hmeaning
      rw [heven]
      rcases lt_or_ge (half : ℤ) limit with hlt | hge
      · obtain ⟨other, hother⟩ := Int.eq_ofNat_of_zero_le (by omega : 0 ≤ limit - half - 1)
        have hcode_eq : type.wrap (2 * half : ℕ) = -(2 * other + 2 : ℕ) := by
          refine hwrap _ ((hrange _).mpr (by omega)) ?_
          rw [hsize, Int.modEq_iff_dvd]
          exact ⟨1, by push_cast; omega⟩
        rw [hcode_eq, convertSigned_neg_even, type.wrap_of_inRange ((hrange _).mpr (by omega))]
        omega
      · have hcode_eq : type.wrap (2 * half : ℕ) = (2 * 0 : ℕ) := by
          refine hwrap _ ((hrange _).mpr (by omega)) ?_
          rw [hsize, Int.modEq_iff_dvd]
          exact ⟨1, by push_cast; omega⟩
        rw [hcode_eq, convertSigned_even, type.wrap_of_inRange ((hrange _).mpr (by omega))]
        omega
    · rw [hodd, hrange] at hmeaning
      obtain ⟨other, hother⟩ := Int.eq_ofNat_of_zero_le (by omega : 0 ≤ limit - half - 1)
      have hcode_eq : type.wrap (2 * half + 1 : ℕ) = -(2 * other + 1 : ℕ) := by
        refine hwrap _ ((hrange _).mpr (by omega)) ?_
        rw [hsize, Int.modEq_iff_dvd]
        exact ⟨1, by push_cast; omega⟩
      rw [hodd, hcode_eq, convertSigned_neg_odd, type.wrap_of_inRange ((hrange _).mpr (by omega))]
      omega

/-! ### Sequences of reads -/

/-- Bits are read as in the payload when the read is safe. -/
theorem Sound.readBits_eq_iff (hsound : parser.Sound) (type : IntType) (count : ℕ) :
    parser.IsSafeBits count ↔ ∃ next, parser.readBits type count =
        .ok ((plainRead parser.rest (.readBits type count)).1, next) ∧ next.Sound ∧
      next.rest = (plainRead parser.rest (.readBits type count)).2 := by
  rw [plainRead]
  rcases hsound.readBits type count with ⟨hfew, hread⟩ | ⟨henough, next, hread, hnext, hrest⟩ |
    ⟨hshort, hmany, hread⟩
  · have hlength := length_rest_le parser
    rw [hread, if_pos (hlength.trans_lt hfew)]
    exact iff_of_true (fun hunsafe ↦ absurd hunsafe.2 (Nat.not_le.mpr hfew))
      ⟨parser, rfl, hsound, rfl⟩
  · rw [hread, if_neg (Nat.not_lt.mpr henough)]
    exact iff_of_true (fun hunsafe ↦ absurd hunsafe.1 (Nat.not_lt.mpr henough))
      ⟨next, rfl, hnext, hrest⟩
  · rw [hread]
    exact iff_of_false (not_not_intro ⟨hshort, hmany⟩) fun ⟨_, hok, _⟩ ↦ by cases hok

theorem Sound.perform_of_isSafe (hsound : parser.Sound) {read : Read} (hallowed : read.IsAllowed)
    (hsafe : parser.IsSafe read) :
    ∃ next, parser.perform read = .ok ((plainRead parser.rest read).1, next) ∧ next.Sound ∧
      next.rest = (plainRead parser.rest read).2 := by
  cases read with
  | readBits type count => exact (hsound.readBits_eq_iff type count).mp hsafe
  | nextBits type count =>
    obtain ⟨next, hread, -, -⟩ := (hsound.readBits_eq_iff type count).mp hsafe
    refine ⟨parser, ?_, hsound, ?_⟩
    · rw [perform, nextBits, hread, plainRead, plainRead]
      split_ifs <;> rfl
    · rw [plainRead]
      split_ifs <;> rfl
  | ue type =>
    obtain ⟨next, hread, hnext, hrest⟩ :=
      (hsound.expColomb type).of_isSafeCode (decodes_ue type) hsafe
    refine ⟨next, ?_, hnext, hrest⟩
    rw [map_id_eq] at hread
    exact hread
  | se type => exact (hsound.expColomb type).of_isSafeCode (decodes_se hallowed) hsafe

theorem Sound.isSafe_of_perform (hsound : parser.Sound) {read : Read} (hallowed : read.IsAllowed)
    {next : AVCParser} (hread : parser.perform read = .ok ((plainRead parser.rest read).1, next)) :
    parser.IsSafe read := by
  cases read with
  | readBits type count =>
    rcases hsound.readBits type count with ⟨hfew, -⟩ | ⟨henough, -⟩ | ⟨-, -, herror⟩
    · exact fun hunsafe ↦ absurd hunsafe.2 (Nat.not_le.mpr hfew)
    · exact fun hunsafe ↦ absurd hunsafe.1 (Nat.not_lt.mpr henough)
    · rw [perform, herror] at hread
      cases hread
  | nextBits type count =>
    rcases hsound.readBits type count with ⟨hfew, -⟩ | ⟨henough, -⟩ | ⟨-, -, herror⟩
    · exact fun hunsafe ↦ absurd hunsafe.2 (Nat.not_le.mpr hfew)
    · exact fun hunsafe ↦ absurd hunsafe.1 (Nat.not_lt.mpr henough)
    · rw [perform, nextBits, herror] at hread
      cases hread
  | ue type =>
    have hsame : (parser.expColomb type).map (fun last ↦ (last.1.map id, last.2)) =
        .ok ((plainCode type (fun code ↦ (code : ℤ)) parser.rest).1, next) :=
      (map_id_eq _).trans hread
    exact (hsound.expColomb type).isSafeCode (decodes_ue type) hsame
  | se type => exact (hsound.expColomb type).isSafeCode (decodes_se hallowed) hread

theorem Sound.agrees_iff (hsound : parser.Sound) {reads : List Read}
    (hallowed : ∀ read ∈ reads, read.IsAllowed) :
    Agrees parser parser.rest reads ↔ AllSafe parser reads := by
  induction reads generalizing parser with
  | nil => exact Iff.rfl
  | cons read reads ih =>
    have hread : read.IsAllowed := hallowed read List.mem_cons_self
    have hrest : ∀ other ∈ reads, other.IsAllowed :=
      (List.forall_mem_cons.mp hallowed).2
    constructor
    · rintro ⟨next, hperform, hagrees⟩
      have hsafe := hsound.isSafe_of_perform hread hperform
      refine ⟨hsafe, fun result other hother ↦ ?_⟩
      obtain ⟨same, hsame, hnext, hbits⟩ := hsound.perform_of_isSafe hread hsafe
      rw [hsame] at hperform hother
      cases hperform
      cases hother
      rw [← hbits] at hagrees
      exact (ih hnext hrest).mp hagrees
    · rintro ⟨hsafe, hall⟩
      obtain ⟨next, hperform, hnext, hbits⟩ := hsound.perform_of_isSafe hread hsafe
      refine ⟨next, hperform, ?_⟩
      rw [← hbits]
      exact (ih hnext hrest).mpr (hall _ _ hperform)

/-- Assumes: allowed calls. They agree with the payload exactly when each one is safe. -/
theorem agrees_rbsp_iff (data : ByteBlock) {reads : List Read}
    (hallowed : ∀ read ∈ reads, read.IsAllowed) :
    Agrees (new data) (bitsOf (rbsp data)) reads ↔ AllSafe (new data) reads :=
  (sound_new data).agrees_iff hallowed

def uint32 : IntType := { isSigned := false, width := 32, width_ge := by decide }

/-- Two null bytes, a byte which is skipped, and a code. -/
theorem allSafe_of_skipped_byte :
    AllSafe (new [0x00, 0x00, 0x03, 0x28]) [.readBits uint32 16, .nextBits uint32 3, .ue uint32] := by
  refine (agrees_rbsp_iff _ ?_).mp ⟨_, rfl, _, rfl, _, rfl, trivial⟩
  intro read hmem
  simp only [List.mem_cons, List.not_mem_nil, or_false] at hmem
  rcases hmem with rfl | rfl | rfl
  · exact (by decide : 16 ≤ 32)
  · exact (by decide : 3 ≤ 32)
  · exact rfl

/-- The last byte is skipped, and 24 bits are read before it. -/
theorem not_agrees_of_last_byte :
    ¬ ∀ (data : ByteBlock) (reads : List Read), (∀ read ∈ reads, read.IsAllowed) →
      Agrees (new data) (bitsOf (rbsp data)) reads := by
  intro hagrees
  obtain ⟨next, hread, -⟩ := hagrees [0x00, 0x00, 0x03] [.readBits uint32 24] fun read hmem ↦ by
    rw [List.mem_singleton.mp hmem]
    exact (by decide : 24 ≤ 32)
  have herror : (new [0x00, 0x00, 0x03]).perform (.readBits uint32 24) = .error .outOfArea := rfl
  rw [herror] at hread
  cases hread

end AVCParser

end TSDuck
