import TSDuck.Text.IntegerFormatter

/-!
# Hexadecimal format of integers

`Hexa` writes a given number of hexadecimal digits of an integer, with a separator between groups of
four. `HexaMin` writes digits until there are enough of them and until the rest of the integer is
zero. `toInteger` should give back the integer, modulo the number of values of its type.

Scope. `HexaMin` is run for a limited number of turns of its loop. See `IntType` for the types.
-/

namespace TSDuck.U16String

open UChar

def hexaChar (upper : Bool) (nibble : ℕ) : UChar :=
  if nibble < 10 then 0x30 + UInt16.ofNat nibble
  else if upper then 0x41 + UInt16.ofNat (nibble - 10)
  else 0x61 + UInt16.ofNat (nibble - 10)

/-- The loop of `Hexa`, in reverse order. -/
def hexaReversed (separator : U16String) (upper : Bool) : ℕ → ℕ → ℤ → U16String
  | 0, _, _ => []
  | width + 1, count, value =>
    hexaChar upper (value % 16).toNat ::
      ((if (count + 1) % 4 = 0 ∧ 0 < width then separator.reverse else []) ++
        hexaReversed separator upper width (count + 1) (value / 16))

def prefixReversed (usePrefix : Bool) : U16String := if usePrefix then [0x78, 0x30] else []

/-- The number of digits, the one of the type if not given. -/
def hexaWidth (type : IntType) (width : ℕ) : ℕ := if width = 0 then 2 * (type.width / 8) else width

def hexa (type : IntType) (value : ℤ) (width : ℕ) (separator : U16String) (usePrefix upper : Bool) :
    U16String :=
  (hexaReversed separator upper (hexaWidth type width) 0 value ++ prefixReversed usePrefix).reverse

/-- The loop of `HexaMin`, in a number of turns. -/
def hexaMinReversed (separator : U16String) (upper : Bool) (minDigit minWidth : ℕ) :
    ℕ → ℕ → ℤ → U16String → Option U16String
  | 0, _, _, _ => none
  | turns + 1, count, value, text =>
    if count = 0 ∨ count < minDigit ∨ text.length < minWidth ∨ value ≠ 0 then
      hexaMinReversed separator upper minDigit minWidth turns (count + 1) (value / 16)
        (text ++ ((if count % 4 = 0 ∧ 0 < count then separator.reverse else []) ++
          [hexaChar upper (value % 16).toNat]))
    else some text

def minDigits (type : IntType) (minWidth : ℕ) : ℕ := if 0 < minWidth then 0 else 2 * (type.width / 8)

def widthAfterPrefix (usePrefix : Bool) (minWidth : ℕ) : ℕ :=
  if usePrefix = true ∧ 2 ≤ minWidth then minWidth - 2 else minWidth

def hexaMin (type : IntType) (value : ℤ) (minWidth : ℕ) (separator : U16String) (usePrefix upper : Bool)
    (turns : ℕ) : Option U16String :=
  (hexaMinReversed separator upper (minDigits type minWidth) (widthAfterPrefix usePrefix minWidth)
    turns 0 value []).map fun text ↦ (text ++ prefixReversed usePrefix).reverse

/-- The string, with a prefix, gives the unsigned image. -/
def ReadsBack (type : IntType) (value : ℤ) (separator text : U16String) : Prop :=
  toIntegerOf { type with isSigned := false } separator text = (true, value % type.size)

def HexaIsRight (type : IntType) (value : ℤ) (width : ℕ) (separator : U16String) (upper : Bool) : Prop :=
  ReadsBack type value separator (hexa type value width separator true upper)

/-- `HexaMin` ends, with a string which is converted back. -/
def HexaMinIsRight (type : IntType) (value : ℤ) (minWidth : ℕ) (separator : U16String) (upper : Bool) :
    Prop :=
  ∀ usePrefix, ∃ turns text, hexaMin type value minWidth separator usePrefix upper turns = some text ∧
    (usePrefix = true → ReadsBack type value separator text)

theorem hexaChar_spec (upper : Bool) {nibble : ℕ} (hnibble : nibble < 16) :
    isSpace (hexaChar upper nibble) = false ∧ toDigit 16 (hexaChar upper nibble) = some nibble := by
  have hall : ∀ upper, ∀ nibble < 16,
      isSpace (hexaChar upper nibble) = false ∧ toDigit 16 (hexaChar upper nibble) = some nibble := by
    decide
  exact hall upper nibble hnibble

theorem nibble_lt (value : ℤ) : (value % 16).toNat < 16 := by omega

def nibbles (value : ℤ) : ℕ → List ℕ
  | 0 => []
  | count + 1 => (value % 16).toNat :: nibbles (value / 16) count

theorem ofDigits_nibbles (value : ℤ) (count : ℕ) :
    ((Nat.ofDigits 16 (nibbles value count) : ℕ) : ℤ) = value % 16 ^ count := by
  induction count generalizing value with
  | zero => exact (Int.emod_one value).symm
  | succ count ih =>
    rw [nibbles, Nat.ofDigits_cons, Nat.cast_add, Nat.cast_mul, Nat.cast_ofNat, ih,
      Int.toNat_of_nonneg (Int.emod_nonneg value (by decide)), pow_succ']
    have hpos : (0 : ℤ) < 16 ^ count := Int.pow_pos (by decide)
    have hnonneg := Int.emod_nonneg (value / 16) hpos.ne'
    have hlt := Int.emod_lt_of_pos (value / 16) hpos
    have hvalue : value = value % 16 + 16 * ((value / 16) % 16 ^ count) +
        16 * 16 ^ count * (value / 16 / 16 ^ count) := by
      rw [Int.mul_assoc, Int.add_assoc, ← Int.mul_add, Int.emod_add_mul_ediv, Int.emod_add_mul_ediv]
    have hunique : value % (16 * 16 ^ count) = value % 16 + 16 * ((value / 16) % 16 ^ count) := by
      conv_lhs => rw [hvalue]
      rw [Int.add_mul_emod_self_left]
      exact Int.emod_eq_of_lt (by omega) (by omega)
    rw [hunique]

/-- Inserted characters are separators, and no digits. -/
def Inserts (separators inserted : U16String) : Prop :=
  ∀ unit ∈ inserted, unit ∈ separators ∧ toDigit 16 unit = none

/-- The string has the digits, and otherwise separators. -/
def Spells (separators text : U16String) (digits : List ℕ) : Prop :=
  IsSeparated separators 16 text ∧ digitsIn 16 text = digits

variable {separators inserted text first second : U16String} {digits others : List ℕ} {upper : Bool}

theorem Spells.append (hfirst : Spells separators first digits)
    (hsecond : Spells separators second others) :
    Spells separators (first ++ second) (digits ++ others) := by
  refine ⟨?_, ?_⟩
  · intro unit hunit
    exact (List.mem_append.mp hunit).elim (hfirst.1 unit) (hsecond.1 unit)
  · rw [digitsIn, List.filterMap_append]
    exact congrArg₂ _ hfirst.2 hsecond.2

theorem spells_unit (separators : U16String) (upper : Bool) {nibble : ℕ} (hnibble : nibble < 16) :
    Spells separators [hexaChar upper nibble] [nibble] := by
  have hdigit := (hexaChar_spec upper hnibble).2
  refine ⟨?_, ?_⟩
  · intro unit hunit
    rw [List.mem_singleton.mp hunit, hdigit]
    exact Or.inl rfl
  · rw [digitsIn, List.filterMap_cons, hdigit]
    rfl

theorem Inserts.spells (hinserts : Inserts separators inserted) {insert : Prop} [Decidable insert] :
    Spells separators (if insert then inserted.reverse else []) [] := by
  split_ifs
  · refine ⟨fun unit hunit ↦ Or.inr (hinserts unit (List.mem_reverse.mp hunit)).1, ?_⟩
    apply List.filterMap_eq_nil_iff.mpr
    intro unit hunit
    exact (hinserts unit (List.mem_reverse.mp hunit)).2
  · exact ⟨fun _ hunit ↦ absurd hunit List.not_mem_nil, rfl⟩

theorem spells_hexaReversed (hinserts : Inserts separators inserted) (width count : ℕ) (value : ℤ) :
    Spells separators (hexaReversed inserted upper width count value) (nibbles value width) := by
  induction width generalizing count value with
  | zero => exact ⟨fun _ hunit ↦ absurd hunit List.not_mem_nil, rfl⟩
  | succ width ih =>
    exact (spells_unit separators upper (nibble_lt value)).append (hinserts.spells.append (ih _ _))

theorem toIntegerOf_of_spells (type : IntType) {nibble : ℕ} (hnibble : nibble < 16)
    (htext : Spells separators (hexaChar upper nibble :: text) digits) :
    toIntegerOf { type with isSigned := false } separators
        ((hexaChar upper nibble :: text) ++ prefixReversed true).reverse =
      (true, ((Nat.ofDigits 16 digits : ℕ) : ℤ) % type.size) := by
  have hreverse : ((hexaChar upper nibble :: text) ++ prefixReversed true).reverse =
      0x30 :: 0x78 :: (hexaChar upper nibble :: text).reverse := by
    rw [List.reverse_append]
    rfl
  have htrim : trim (0x30 :: 0x78 :: (hexaChar upper nibble :: text).reverse) =
      0x30 :: 0x78 :: (hexaChar upper nibble :: text).reverse := by
    have hpadded := @trim_padded 0x20 rfl 0 0 (0x30 :: 0x78 :: (hexaChar upper nibble :: text).reverse)
      (by rintro unit ⟨⟩; rfl) (by
        rw [List.reverse_cons, ← List.cons_append, ← List.cons_append, List.getLast?_concat]
        rintro unit ⟨⟩
        exact (hexaChar_spec upper hnibble).1) (List.cons_ne_nil _ _)
    rwa [List.replicate_zero, List.nil_append, List.append_nil] at hpadded
  have hsign : (skipSign (trim (0x30 :: 0x78 :: (hexaChar upper nibble :: text).reverse))).1 = false := by
    rw [htrim]
    rfl
  have hbody : skipPrefix (skipSign (trim (0x30 :: 0x78 :: (hexaChar upper nibble :: text).reverse))).2 =
      (16, (hexaChar upper nibble :: text).reverse) := by
    rw [htrim]
    rfl
  rw [hreverse, toIntegerOf_eq_true_iff _ separators _ _ hsign hbody]
  refine ⟨fun h ↦ Bool.false_ne_true h.1, ?_, ?_, ?_⟩
  · rw [ne_eq, List.reverse_eq_nil_iff]
    exact List.cons_ne_nil _ _
  · intro unit hunit
    exact htext.1 unit (List.mem_reverse.mp hunit)
  · rw [digitsIn, List.filterMap_reverse, accumulate_reverse,
      show List.filterMap (toDigit 16) _ = digits from htext.2, IntType.wrap, IntType.minValue, if_neg Bool.false_ne_true, Int.sub_zero, Int.add_zero]
    rfl

/-- Reading some digits of the integer back. -/
theorem readsBack_iff {type : IntType} {value : ℤ} {count : ℕ} {nibble : ℕ} (hnibble : nibble < 16)
    (htext : Spells separators (hexaChar upper nibble :: text) (nibbles value count)) :
    ReadsBack type value separators ((hexaChar upper nibble :: text) ++ prefixReversed true).reverse ↔
      value % type.size < 16 ^ count := by
  rw [ReadsBack, toIntegerOf_of_spells type hnibble htext, ofDigits_nibbles, Prod.mk.injEq,
    and_iff_right rfl]
  have hpower : (16 : ℤ) ^ count = 2 ^ (4 * count) := by
    rw [pow_mul]
    rfl
  have hsize := type.size_pos
  rcases Nat.le_total type.width (4 * count) with hle | hle
  · have hdvd : type.size ∣ 16 ^ count := hpower ▸ pow_dvd_pow 2 hle
    rw [Int.emod_emod_of_dvd _ hdvd]
    exact iff_of_true rfl ((Int.emod_lt_of_pos value hsize).trans_le
      (Int.le_of_dvd (Int.pow_pos (by decide)) hdvd))
  · have hdvd : (16 : ℤ) ^ count ∣ type.size := hpower ▸ pow_dvd_pow 2 hle
    have hpos : (0 : ℤ) < 16 ^ count := Int.pow_pos (by decide)
    have hlt := Int.emod_lt_of_pos value hpos
    rw [Int.emod_eq_of_lt (Int.emod_nonneg value hpos.ne') (hlt.trans_le (Int.le_of_dvd hsize hdvd)),
      ← Int.emod_emod_of_dvd value hdvd]
    constructor
    · intro hsame
      rw [← hsame]
      exact Int.emod_lt_of_pos _ hpos
    · exact Int.emod_eq_of_lt (Int.emod_nonneg value hsize.ne')

theorem hexaMinReversed_of_neg (minDigit minWidth turns count : ℕ) {value : ℤ} (hvalue : value < 0)
    (text : U16String) :
    hexaMinReversed inserted upper minDigit minWidth turns count value text = none := by
  induction turns generalizing count value text with
  | zero => rfl
  | succ turns ih =>
    rw [hexaMinReversed, if_pos (Or.inr (Or.inr (Or.inr hvalue.ne)))]
    exact ih _ (by omega) _

/-- The induction is on a bound of what remains. -/
theorem exists_hexaMinReversed (hinserts : Inserts separators inserted) (upper : Bool)
    (minDigit minWidth bound : ℕ) {count : ℕ} {value : ℤ} (hvalue : 0 ≤ value) (text : U16String)
    (hbound : (1 - count) + (minDigit - count) + (minWidth - text.length) + value.toNat ≤ bound) :
    ∃ turns extra digits,
      hexaMinReversed inserted upper minDigit minWidth turns count value text = some (text ++ extra) ∧
        Spells separators extra (nibbles value digits) ∧ value < 16 ^ digits ∧
        (count = 0 → ∃ rest, extra = hexaChar upper (value % 16).toNat :: rest) := by
  induction bound generalizing count value text with
  | zero =>
    refine ⟨1, [], 0, ?_, ⟨fun _ hunit ↦ absurd hunit List.not_mem_nil, rfl⟩, by omega, by omega⟩
    rw [hexaMinReversed, if_neg (by omega), List.append_nil]
  | succ bound ih =>
    by_cases hmore : count = 0 ∨ count < minDigit ∨ text.length < minWidth ∨ value ≠ 0
    · obtain ⟨turns, extra, digits, hrun, hspells, hlt, -⟩ := @ih (count + 1) (value / 16) (by omega)
        (text ++ ((if count % 4 = 0 ∧ 0 < count then inserted.reverse else []) ++
          [hexaChar upper (value % 16).toNat])) (by
            rw [List.length_append, List.length_append, List.length_singleton]
            omega)
      refine ⟨turns + 1, ((if count % 4 = 0 ∧ 0 < count then inserted.reverse else []) ++
        [hexaChar upper (value % 16).toNat]) ++ extra, digits + 1, ?_, ?_, ?_, ?_⟩
      · rw [hexaMinReversed, if_pos hmore, hrun, List.append_assoc]
      · exact (hinserts.spells.append (spells_unit separators upper (nibble_lt value))).append hspells
      · rw [pow_succ]
        omega
      · rintro rfl
        exact ⟨extra, by rw [if_neg (by omega)]; rfl⟩
    · refine ⟨1, [], 0, ?_, ⟨fun _ hunit ↦ absurd hunit List.not_mem_nil, rfl⟩, by omega, by omega⟩
      rw [hexaMinReversed, if_neg hmore, List.append_nil]

theorem hexaReversed_of_le (separator : U16String) (upper : Bool) {width count : ℕ} (value : ℤ)
    (hwidth : width + count ≤ 4) :
    hexaReversed separator upper width count value = hexaReversed [] upper width count value := by
  induction width generalizing count value with
  | zero => rfl
  | succ width ih =>
    rw [hexaReversed, hexaReversed, if_neg (by omega), if_neg (by omega), ih _ (by omega)]

theorem hexaMinReversed_of_le (separator : U16String) (upper : Bool) {minDigit minWidth count turns : ℕ}
    {value : ℤ} {text : U16String} (hdigit : minDigit ≤ 4) (hwidth : minWidth ≤ 4)
    (hcount : count ≤ 4) (htext : text.length = count) (hvalue : 0 ≤ value)
    (hlt : value < 16 ^ (4 - count)) :
    hexaMinReversed separator upper minDigit minWidth turns count value text =
      hexaMinReversed [] upper minDigit minWidth turns count value text := by
  induction turns generalizing count value text with
  | zero => rfl
  | succ turns ih =>
    rw [hexaMinReversed, hexaMinReversed]
    by_cases hmore : count = 0 ∨ count < minDigit ∨ text.length < minWidth ∨ value ≠ 0
    · have hfour : count < 4 := by
        by_contra hfull
        obtain rfl : count = 4 := by omega
        have hone : value < 1 := hlt
        omega
      have hpower : (16 : ℤ) ^ (4 - count) = 16 ^ (4 - (count + 1)) * 16 := by
        rw [← pow_succ, show 4 - count = 4 - (count + 1) + 1 by omega]
      rw [if_pos hmore, if_pos hmore, if_neg (by omega), if_neg (by omega)]
      refine ih (by omega) ?_ (by omega) (by omega)
      rw [List.nil_append, List.length_append, htext]
      rfl
    · rw [if_neg hmore, if_neg hmore]

def HasNoDigit16 (separator : U16String) : Prop := ∀ unit ∈ separator, toDigit 16 unit = none

theorem HasNoDigit16.inserts {separator : U16String} (hseparator : HasNoDigit16 separator) :
    Inserts separator separator :=
  fun unit hunit ↦ ⟨hunit, hseparator unit hunit⟩

theorem inserts_nil (separator : U16String) : Inserts separator [] :=
  fun _ hunit ↦ absurd hunit List.not_mem_nil

section Main

variable (type : IntType) (value : ℤ) (width : ℕ) {separator : U16String} (upper : Bool)

theorem hexaWidth_pos : 0 < hexaWidth type width := by
  have hwidth := type.width_ge
  rw [hexaWidth]
  split_ifs <;> omega

theorem hexaIsRight_of_inserts (hinserts : Inserts separator inserted)
    (hsame : hexaReversed separator upper (hexaWidth type width) 0 value =
      hexaReversed inserted upper (hexaWidth type width) 0 value) :
    HexaIsRight type value width separator upper ↔ value % type.size < 16 ^ hexaWidth type width := by
  have hspells : Spells separator (hexaReversed inserted upper (hexaWidth type width) 0 value)
      (nibbles value (hexaWidth type width)) := spells_hexaReversed hinserts _ _ _
  rw [HexaIsRight, hexa, hsame]
  obtain ⟨turns, hturns⟩ := Nat.exists_eq_succ_of_ne_zero (hexaWidth_pos type width).ne'
  rw [hturns] at hspells ⊢
  exact readsBack_iff (nibble_lt value) hspells

theorem hexaIsRight_iff (hseparator : HasNoDigit16 separator ∨ hexaWidth type width ≤ 4) :
    HexaIsRight type value width separator upper ↔ value % type.size < 16 ^ hexaWidth type width := by
  rcases hseparator with hdigit | hshort
  · exact hexaIsRight_of_inserts type value width upper hdigit.inserts rfl
  · exact hexaIsRight_of_inserts type value width upper (inserts_nil separator)
      (hexaReversed_of_le separator upper value hshort)

theorem hexaMinIsRight_of_inserts (hvalue : 0 ≤ value) (hinserts : Inserts separator inserted)
    (hsame : ∀ usePrefix turns,
      hexaMinReversed separator upper (minDigits type width) (widthAfterPrefix usePrefix width) turns 0
          value [] =
        hexaMinReversed inserted upper (minDigits type width) (widthAfterPrefix usePrefix width) turns 0
          value []) :
    HexaMinIsRight type value width separator upper := by
  intro usePrefix
  obtain ⟨turns, extra, digits, hrun, hspells, hlt, hfirst⟩ := exists_hexaMinReversed hinserts upper
    (minDigits type width) (widthAfterPrefix usePrefix width) _ hvalue [] le_rfl
  obtain ⟨rest, rfl⟩ := hfirst rfl
  refine ⟨turns, (hexaChar upper (value % 16).toNat :: rest ++ prefixReversed usePrefix).reverse, ?_, ?_⟩
  · rw [hexaMin, hsame, hrun]
    rfl
  · rintro rfl
    have hrest := Int.mul_nonneg type.size_pos.le (Int.ediv_nonneg hvalue type.size_pos.le)
    have hle : value % type.size ≤ value := by
      calc _ ≤ value % type.size + type.size * (value / type.size) := Int.le_add_of_nonneg_right hrest
        _ = value := Int.emod_add_mul_ediv value type.size
    exact (readsBack_iff (nibble_lt value) hspells).mpr (hle.trans_lt hlt)

theorem minDigits_le (hwidth : hexaWidth type width ≤ 4) (usePrefix : Bool) :
    minDigits type width ≤ 4 ∧ widthAfterPrefix usePrefix width ≤ 4 := by
  rw [hexaWidth] at hwidth
  rw [minDigits, widthAfterPrefix]
  split_ifs at hwidth ⊢ <;> omega

theorem hexaMinIsRight_iff
    (hseparator : HasNoDigit16 separator ∨ hexaWidth type width ≤ 4 ∧ value < 16 ^ 4) :
    HexaMinIsRight type value width separator upper ↔ 0 ≤ value := by
  constructor
  · intro hright
    by_contra hnegative
    obtain ⟨turns, text, hrun, -⟩ := hright true
    rw [hexaMin, hexaMinReversed_of_neg _ _ _ _ (Int.not_le.mp hnegative)] at hrun
    cases hrun
  · intro hvalue
    rcases hseparator with hdigit | ⟨hshort, hlt⟩
    · exact hexaMinIsRight_of_inserts type value width upper hvalue hdigit.inserts fun _ _ ↦ rfl
    · refine hexaMinIsRight_of_inserts type value width upper hvalue (inserts_nil separator) ?_
      intro usePrefix turns
      obtain ⟨hdigits, hwidth⟩ := minDigits_le type width hshort usePrefix
      exact hexaMinReversed_of_le separator upper hdigits hwidth (Nat.zero_le _) rfl hvalue hlt

/-- Assumes: a separator without hexadecimal digit, or no separator. `Hexa` is right if and only if
the unsigned image has no more digits than the width, and `HexaMin` if and only if the integer is
not negative. -/
theorem hexa_isRight_iff
    (hseparator : HasNoDigit16 separator ∨ hexaWidth type width ≤ 4 ∧ value < 16 ^ 4) :
    (HexaIsRight type value width separator upper ↔ value % type.size < 16 ^ hexaWidth type width) ∧
      (HexaMinIsRight type value width separator upper ↔ 0 ≤ value) :=
  ⟨hexaIsRight_iff type value width upper (hseparator.imp_right And.left),
    hexaMinIsRight_iff type value width upper hseparator⟩

end Main

theorem hasNoDigit16_comma : HasNoDigit16 (ofASCII ",") := by
  intro unit hunit
  rw [List.mem_singleton.mp hunit]
  rfl

/-- The byte -56: two digits are enough, and `HexaMin` does not end. -/
theorem hexa_isRight_minus_fifty_six :
    HexaIsRight int8 (-56) 2 (ofASCII ",") true ∧ ¬ HexaMinIsRight int8 (-56) 2 (ofASCII ",") true :=
  ⟨(hexa_isRight_iff int8 (-56) 2 true (Or.inl hasNoDigit16_comma)).1.mpr (by decide),
    fun hright ↦ absurd ((hexa_isRight_iff int8 (-56) 2 true (Or.inl hasNoDigit16_comma)).2.mp hright)
      (by decide)⟩

/-- `HexaMin` does not end for -1. -/
theorem not_hexaMinIsRight_minus_one :
    ¬ ∀ type value width separator upper, type.InRange value →
      HexaIsRight type value width separator upper ∧ HexaMinIsRight type value width separator upper := by
  intro hright
  obtain ⟨turns, text, hrun, -⟩ := (hright int8 (-1) 0 [] true (by decide)).2 true
  rw [hexaMin, hexaMinReversed_of_neg _ _ _ _ (by decide)] at hrun
  cases hrun

end TSDuck.U16String
