import TSDuck.Text.IntegerFormatter

/-!
# Formatting and scanning integers

A text is formatted from integers in decimal with a minimum width, and scanned with a format: spaces
are skipped, a `%d` matches an integer in decimal, or in hexadecimal after `0x`, and other
characters match themselves.

`scan_integer` is the step of a scan on an integer which is formatted in decimal.

Scope. The only sequence in a format is `%d`, and there is a result for each of them.
-/

namespace TSDuck

namespace UString

def plainDecimal (value : ℕ) : UString :=
  ((U16String.decimalDigits value).map fun digit ↦ Char.ofNat ('0'.toNat + digit)).reverse

/-- An integer in decimal, with zeroes on the left up to a minimum width. -/
def formatDecimal (minWidth : ℕ) (value : ℤ) : UString :=
  let text := (if value < 0 then ['-'] else []) ++ plainDecimal value.natAbs
  List.replicate (minWidth - text.length) '0' ++ text

def isDigit (char : Char) : Bool := decide ('0' ≤ char) && decide (char ≤ '9')

def isHexa (char : Char) : Bool :=
  isDigit char || (decide ('a' ≤ char) && decide (char ≤ 'f')) ||
    (decide ('A' ≤ char) && decide (char ≤ 'F'))

def startsHexa (text : UString) : Bool :=
  text.head? == some '0' && (text[1]? == some 'x' || text[1]? == some 'X')

/-- The integer at the beginning of a text, and the rest. -/
def spanInteger (text : UString) : UString × UString :=
  if startsHexa text then
    let digits := (text.drop 2).takeWhile isHexa
    if digits = [] then ([], text) else (text.take 2 ++ digits, (text.drop 2).dropWhile isHexa)
  else if text.head? = some '-' then
    let digits := text.tail.takeWhile isDigit
    if digits = [] then ([], text) else ('-' :: digits, text.tail.dropWhile isDigit)
  else (text.takeWhile isDigit, text.dropWhile isDigit)

def int64 : IntType := ⟨true, 64, by omega⟩

theorem width_int32 : 8 ≤ 32 := by omega

def int32 : IntType := ⟨true, 32, width_int32⟩

def scannedValue (text : UString) : ℤ :=
  if text.head? = some '-' then
    int64.wrap (-((decodeUnsigned (2 ^ 64) text.tail).getD 0 : ℕ))
  else int64.wrap ((decodeUnsigned (2 ^ 64) text).getD 0 : ℕ)

/-- What a scan has found, and what is left of the text and of the format. -/
structure Scanned where
  values : List ℤ
  input : UString
  format : UString
  deriving DecidableEq

def Scanned.push (value : ℤ) (scanned : Scanned) : Scanned :=
  { scanned with values := value :: scanned.values }

def scan : UString → UString → Scanned
  | [], input => ⟨[], input.dropWhile isSpace, []⟩
  | '%' :: 'd' :: format, input =>
    if input.dropWhile isSpace = [] then ⟨[], [], '%' :: 'd' :: format⟩
    else
      let span := spanInteger (input.dropWhile isSpace)
      if span.1 = [] then ⟨[], input.dropWhile isSpace, format⟩
      else (scan format span.2).push (scannedValue span.1)
  | char :: format, input =>
    if isSpace char then scan format input
    else if (input.dropWhile isSpace).head? = some char then
      scan format (input.dropWhile isSpace).tail
    else ⟨[], input.dropWhile isSpace, char :: format⟩

def Scanned.isComplete (scanned : Scanned) : Bool := scanned.input.isEmpty && scanned.format.isEmpty

/-- What follows an integer is neither a digit nor the letter of a prefix. -/
def IsDelimited (rest : UString) : Prop :=
  ∀ char ∈ rest.head?, isDigit char = false ∧ char ≠ 'x' ∧ char ≠ 'X'

theorem isDigit_decimalDigit {digit : ℕ} (hdigit : digit < 10) :
    let char := Char.ofNat ('0'.toNat + digit)
    isDigit char = true ∧ isSpace char = false ∧ toDigit 10 char = some digit ∧
      char ∉ ['-', 'x', 'X'] := by
  have hall : ∀ digit < 10, isDigit (Char.ofNat ('0'.toNat + digit)) = true ∧
      isSpace (Char.ofNat ('0'.toNat + digit)) = false ∧
        toDigit 10 (Char.ofNat ('0'.toNat + digit)) = some digit ∧
          Char.ofNat ('0'.toNat + digit) ∉ ['-', 'x', 'X'] := by
    decide
  exact hall digit hdigit

theorem formatDecimal_natCast (minWidth value : ℕ) :
    ∃ digits : List ℕ, digits ≠ [] ∧ (∀ digit ∈ digits, digit < 10) ∧
      Nat.ofDigits 10 digits = value ∧
      formatDecimal minWidth value =
        (digits.map fun digit ↦ Char.ofNat ('0'.toNat + digit)).reverse := by
  have hpositive : ¬ (value : ℤ) < 0 := by omega
  refine ⟨U16String.decimalDigits value ++
    List.replicate (minWidth - (plainDecimal value).length) 0, ?_, ?_, ?_, ?_⟩
  · exact List.append_ne_nil_of_left_ne_nil (U16String.decimalDigits_ne_nil value) _
  · intro digit hdigit
    rcases List.mem_append.mp hdigit with hdigit | hdigit
    · exact U16String.decimalDigits_lt hdigit
    · rw [List.eq_of_mem_replicate hdigit]
      decide
  · rw [Nat.ofDigits_append, Nat.ofDigits_replicate_zero, Nat.mul_zero, Nat.add_zero,
      U16String.ofDigits_decimalDigits]
  · rw [formatDecimal, if_neg hpositive, List.nil_append, Int.natAbs_natCast, List.map_append,
      List.reverse_append, List.map_replicate, List.reverse_replicate]
    rfl

theorem decodeDigits_reverse (modulus : ℕ) {digits : List ℕ} (hdigits : ∀ digit ∈ digits, digit < 10)
    (hmodulus : Nat.ofDigits 10 digits < modulus) (rest : UString) :
    decodeDigits modulus 10
        ((digits.map fun digit ↦ Char.ofNat ('0'.toNat + digit)).reverse ++ rest) 0 =
      decodeDigits modulus 10 rest (Nat.ofDigits 10 digits) := by
  induction digits generalizing rest with
  | nil => rfl
  | cons digit digits ih =>
    have hdigit := (isDigit_decimalDigit (hdigits digit List.mem_cons_self)).2.2.1
    rw [Nat.ofDigits_cons] at hmodulus ⊢
    have hsum : (Nat.ofDigits 10 digits * 10 + digit) % modulus =
        digit + 10 * Nat.ofDigits 10 digits := by
      rw [Nat.mod_eq_of_lt (by omega)]
      omega
    rw [List.map_cons, List.reverse_cons, List.append_assoc,
      ih (List.forall_mem_cons.mp hdigits).2 (by omega),
      List.singleton_append, decodeDigits, hdigit]
    simp only [hsum]

theorem spanInteger_digits {digits : UString} (hne : digits ≠ [])
    (hdigits : ∀ char ∈ digits, isDigit char = true ∧ char ∉ ['-', 'x', 'X']) {rest : UString}
    (hrest : IsDelimited rest) : spanInteger (digits ++ rest) = (digits, rest) := by
  obtain ⟨first, digits, rfl⟩ := List.exists_cons_of_ne_nil hne
  have hall : ∀ char ∈ first :: digits, isDigit char = true := fun char hchar ↦ (hdigits char hchar).1
  have hsecond : ∀ letter ∈ ['x', 'X'], (digits ++ rest).head? ≠ some letter := by
    intro letter hletter hhead
    cases digits with
    | nil =>
      have hdelimiter := hrest letter hhead
      rcases List.mem_pair.mp hletter with rfl | rfl
      · exact hdelimiter.2.1 rfl
      · exact hdelimiter.2.2 rfl
    | cons second digits =>
      have hsame : second = letter := Option.some.inj hhead
      have hnot := (hdigits second (List.mem_cons_of_mem _ List.mem_cons_self)).2
      rw [hsame] at hnot
      exact hnot (List.mem_cons_of_mem _ hletter)
  have hprefix : startsHexa (first :: digits ++ rest) = false := by
    have hindex : (first :: digits ++ rest)[1]? = (digits ++ rest).head? := by
      rw [List.cons_append, List.getElem?_cons_succ, List.head?_eq_getElem?]
    rw [startsHexa, hindex, Bool.and_eq_false_iff]
    right
    rw [Bool.or_eq_false_iff, beq_eq_false_iff_ne, beq_eq_false_iff_ne]
    exact ⟨hsecond 'x' (by decide), hsecond 'X' (by decide)⟩
  have hsign : ¬ (first :: digits ++ rest).head? = some '-' := by
    intro hhead
    have hnot := (hdigits first List.mem_cons_self).2
    rw [Option.some.inj hhead] at hnot
    exact hnot (by decide)
  have htake : rest.takeWhile isDigit = [] := by
    cases rest with
    | nil => rfl
    | cons char rest =>
      rw [List.takeWhile_cons_of_neg]
      rw [(hrest char rfl).1]
      decide
  have hdrop : rest.dropWhile isDigit = rest := by
    have happend := List.takeWhile_append_dropWhile (p := isDigit) (l := rest)
    rwa [htake] at happend
  rw [spanInteger, hprefix]
  rw [if_neg Bool.false_ne_true, if_neg hsign, List.takeWhile_append_of_pos hall,
    List.dropWhile_append_of_pos hall, htake, hdrop, List.append_nil]

theorem scan_integer (minWidth : ℕ) {value : ℕ} (hvalue : value < 2 ^ 63) (format : UString)
    {rest : UString} (hrest : IsDelimited rest) :
    scan ('%' :: 'd' :: format) (formatDecimal minWidth value ++ rest) =
      (scan format rest).push value := by
  obtain ⟨digits, hne, hdigits, hsum, hformat⟩ := formatDecimal_natCast minWidth value
  have hchars : ∀ char ∈ formatDecimal minWidth value,
      isDigit char = true ∧ isSpace char = false ∧ char ∉ ['-', 'x', 'X'] := by
    intro char hchar
    rw [hformat, List.mem_reverse] at hchar
    obtain ⟨digit, hdigit, rfl⟩ := List.mem_map.mp hchar
    obtain ⟨h, hspace, -, hsign⟩ := isDigit_decimalDigit (hdigits digit hdigit)
    exact ⟨h, hspace, hsign⟩
  have htext : formatDecimal minWidth value ≠ [] := by
    rw [hformat, Ne, List.reverse_eq_nil_iff, List.map_eq_nil_iff]
    exact hne
  have hspan := spanInteger_digits htext (fun char hchar ↦
    ⟨(hchars char hchar).1, (hchars char hchar).2.2⟩) hrest
  have hskip : (formatDecimal minWidth value ++ rest).dropWhile isSpace =
      formatDecimal minWidth value ++ rest := by
    obtain ⟨first, digits, hfirst⟩ := List.exists_cons_of_ne_nil htext
    have hspace := (hchars first (by rw [hfirst]; exact List.mem_cons_self)).2.1
    rw [hfirst, List.cons_append, List.dropWhile_cons_of_neg]
    rw [hspace]
    decide
  have hdecoded : scannedValue (formatDecimal minWidth value) = value := by
    have hsign : ¬ (formatDecimal minWidth value).head? = some '-' := by
      intro hhead
      exact (hchars '-' (List.mem_of_head? hhead)).2.2 (by decide)
    have hdigitsDecoded := decodeDigits_reverse (2 ^ 64) hdigits
      (by rw [hsum]; omega) []
    rw [List.append_nil, hsum, ← hformat] at hdigitsDecoded
    have hunsigned : decodeUnsigned (2 ^ 64) (formatDecimal minWidth value) = some value := by
      unfold decodeUnsigned
      split
      · next hempty => exact absurd hempty htext
      · next rest hlead => exact absurd (hchars 'x' (by rw [hlead]; simp)).2.2 (by decide)
      · next rest hlead => exact absurd (hchars 'X' (by rw [hlead]; simp)).2.2 (by decide)
      · exact hdigitsDecoded
    rw [scannedValue, if_neg hsign, hunsigned]
    refine int64.wrap_of_inRange ?_
    simp only [IntType.InRange, IntType.minValue, IntType.size, int64, Option.getD_some]
    omega
  rw [scan, hskip, if_neg (List.append_ne_nil_of_left_ne_nil htext _)]
  simp only [hspan, hdecoded]
  rw [if_neg htext]

theorem isDelimited_cons (separator : Char) (hseparator : separator ∈ [' ', ':']) (rest : UString) :
    IsDelimited (separator :: rest) := by
  intro first hfirst
  obtain rfl : separator = first := Option.some.inj hfirst
  rcases List.mem_pair.mp hseparator with rfl | rfl
  · decide
  · decide

theorem scan_separator (separator : Char) (hseparator : separator ∈ [' ', ':'])
    (format rest : UString) :
    scan (separator :: '%' :: 'd' :: format) (separator :: rest) =
      scan ('%' :: 'd' :: format) rest := by
  rcases List.mem_pair.mp hseparator with rfl | rfl
  · rfl
  · rfl

theorem scan_next (separator : Char) (hseparator : separator ∈ [' ', ':']) (minWidth : ℕ) {value : ℕ}
    (hvalue : value < 2 ^ 63) (format rest : UString) :
    scan ('%' :: 'd' :: separator :: '%' :: 'd' :: format)
        (formatDecimal minWidth value ++ separator :: rest) =
      (scan ('%' :: 'd' :: format) rest).push value := by
  rw [scan_integer minWidth hvalue _ (isDelimited_cons separator hseparator rest),
    scan_separator separator hseparator]

theorem scan_last (minWidth : ℕ) {value : ℕ} (hvalue : value < 2 ^ 63) (format : UString) :
    scan ('%' :: 'd' :: format) (formatDecimal minWidth value) = (scan format []).push value := by
  have hdelimited : IsDelimited [] := fun char hchar ↦ absurd hchar (Option.not_mem_none char)
  have hlast := scan_integer minWidth hvalue format hdelimited
  rwa [List.append_nil] at hlast

end UString

end TSDuck
