import TSDuck.Text.UChar

/-!
# Display width of strings

On display a combining diacritical character and the second half of a surrogate pair take no place.
`width` counts the other characters, and the first one in any case.

A truncated string should be the longest part which fits and which does not separate a character
from those which are combined with it, and a justified string should have the required width when it
is not longer (`WidthIsRight`). `widthIsRight_iff` says when. A string which begins with a character
without place has one more in its width than places are counted from the left, and this character is
no longer the first one when something is inserted before it.

Scope. The functions which return a new string instead of changing one are not repeated, and
`justify`, which joins two strings, is left out.
-/

namespace TSDuck.U16String

open UChar

def SPACE : UChar := 0x0020

def isCombiningDiacritical (unit : UChar) : Bool :=
  [(0xA8, 0xA8), (0xB4, 0xB8), (0x300, 0x36F), (0x384, 0x385), (0x64B, 0x652), (0x200E, 0x200F)].any
    fun range ↦ range.1 ≤ unit.toNat && unit.toNat ≤ range.2

def isTrailingSurrogate (unit : UChar) : Bool := unit &&& 0xFC00 == 0xDC00

def noSpace (unit : UChar) : Bool := isCombiningDiacritical unit || isTrailingSurrogate unit

def places (text : U16String) : ℕ := text.countP fun unit ↦ !noSpace unit

def width : U16String → ℕ
  | [] => 0
  | _ :: rest => 1 + places rest

inductive StringDirection where
  | leftToRight
  | rightToLeft

def passed : U16String → ℕ → ℕ
  | [], _ => 0
  | _ :: _, 0 => 0
  | unit :: rest, count + 1 => 1 + passed rest (if noSpace unit then count + 1 else count)

/-- The move to the start of a combining sequence. -/
def startOfSequence (text : U16String) : ℕ → ℕ
  | 0 => 0
  | index + 1 => if noSpace ((text)[index + 1]?.getD 0) then startOfSequence text index else index + 1

def displayPosition (text : U16String) (count start : ℕ) : StringDirection → ℕ
  | .leftToRight =>
    let moved := start + passed (text.drop start) count
    min (moved + ((text.drop moved).takeWhile noSpace).length) text.length
  | .rightToLeft =>
    let last := min start text.length
    startOfSequence text (last - passed (text.take last).reverse count)

def kept (text : U16String) (index : ℕ) : StringDirection → U16String
  | .leftToRight => text.take index
  | .rightToLeft => text.drop index

def truncateWidth (text : U16String) (maxWidth : ℕ) : StringDirection → U16String
  | .leftToRight => kept text (displayPosition text maxWidth 0 .leftToRight) .leftToRight
  | .rightToLeft => kept text (displayPosition text maxWidth text.length .rightToLeft) .rightToLeft

section Justification

variable (text : U16String) (wid : ℕ) (pad : UChar) (truncate : Bool) (spaces : ℕ)

def justifyLeft : U16String :=
  if truncate && wid < width text then truncateWidth text wid .leftToRight
  else if width text < wid then
    text ++ (List.replicate (min spaces (wid - width text)) SPACE ++
      List.replicate (wid - width text - min spaces (wid - width text)) pad)
  else text

def justifyRight : U16String :=
  if truncate && wid < width text then truncateWidth text wid .rightToLeft
  else if width text < wid then
    (List.replicate (wid - width text - min spaces (wid - width text)) pad ++
      List.replicate (min spaces (wid - width text)) SPACE) ++ text
  else text

def justifyCentered : U16String :=
  if truncate && wid < width text then truncateWidth text wid .leftToRight
  else if width text < wid then
    let leftSize := (wid - width text) / 2
    let leftSpaces := min spaces leftSize
    let rightSize := wid - width text - leftSize
    let rightSpaces := min spaces rightSize
    (List.replicate (leftSize - leftSpaces) pad ++ List.replicate leftSpaces SPACE) ++ text ++
      (List.replicate rightSpaces SPACE ++ List.replicate (rightSize - rightSpaces) pad)
  else text

/-- No pair is split, and no combined character separated. -/
def KeepsSequences (index : ℕ) : Prop :=
  0 < index → ∀ unit, (text)[index]? = some unit → noSpace unit = false

/-- Cut at the index, the string is the longest part which fits. -/
structure TruncatesAt (direction : StringDirection) (index : ℕ) : Prop where
  keepsSequences : KeepsSequences text index
  width_le : width (kept text index direction) ≤ wid
  longest : ∀ other, KeepsSequences text other → width (kept text other direction) ≤ wid →
    (kept text other direction).length ≤ (kept text index direction).length

structure WidthIsRight : Prop where
  truncated : ∀ direction, ∃ index, truncateWidth text wid direction = kept text index direction ∧
    TruncatesAt text wid direction index
  left : width text ≤ wid → width (justifyLeft text wid pad truncate spaces) = wid
  right : width text ≤ wid → width (justifyRight text wid pad truncate spaces) = wid
  centered : width text ≤ wid → width (justifyCentered text wid pad truncate spaces) = wid

end Justification

def startsWithoutPlace (text : U16String) : Bool := text.head?.any noSpace

theorem places_append (front back : U16String) : places (front ++ back) = places front + places back :=
  List.countP_append

theorem width_eq (text : U16String) :
    width text = places text + if startsWithoutPlace text then 1 else 0 := by
  cases text with
  | nil => rfl
  | cons unit rest =>
    rw [width, places, places, List.countP_cons,
      show startsWithoutPlace (unit :: rest) = noSpace unit from rfl]
    cases noSpace unit
    · exact Nat.add_comm _ _
    · exact Nat.add_comm _ _

theorem width_append {front : U16String} (hfront : front ≠ []) (back : U16String) :
    width (front ++ back) = width front + places back := by
  obtain ⟨unit, rest, rfl⟩ := List.exists_cons_of_ne_nil hfront
  rw [List.cons_append, width, width, places_append, Nat.add_assoc]

theorem places_of_forall {text : U16String} (htext : ∀ unit ∈ text, noSpace unit = false) :
    places text = text.length := by
  apply List.countP_eq_length.mpr
  intro unit hunit
  rw [htext unit hunit]
  rfl

theorem places_le_width (text : U16String) : places text ≤ width text := by
  rw [width_eq]
  exact Nat.le_add_right _ _

/-! ### Positions -/

theorem places_take_passed (text : U16String) (count : ℕ) :
    places (text.take (passed text count)) = min count (places text) := by
  induction text generalizing count with
  | nil => exact (Nat.min_zero count).symm
  | cons unit rest ih =>
    cases count with
    | zero => exact (Nat.zero_min _).symm
    | succ count =>
      rw [passed, Nat.add_comm 1, List.take_succ_cons, places, List.countP_cons, ← places, ih, places,
        places, List.countP_cons]
      cases noSpace unit
      · show min count (places rest) + 1 = min (count + 1) (places rest + 1)
        omega
      · rfl

theorem passed_eq_length {text : U16String} {count : ℕ} (hcount : places text < count) :
    passed text count = text.length := by
  induction text generalizing count with
  | nil => rfl
  | cons unit rest ih =>
    obtain ⟨count, rfl⟩ := Nat.exists_eq_succ_of_ne_zero (Nat.ne_of_gt (Nat.zero_lt_of_lt hcount))
    rw [places, List.countP_cons, ← places] at hcount
    rw [passed, List.length_cons, Nat.add_comm 1]
    refine congrArg (· + 1) (ih ?_)
    cases hunit : noSpace unit with
    | false =>
      rw [hunit] at hcount
      exact Nat.lt_of_succ_lt_succ hcount
    | true =>
      rw [hunit] at hcount
      exact hcount

theorem passed_le_length (text : U16String) (count : ℕ) : passed text count ≤ text.length := by
  induction text generalizing count with
  | nil => exact le_rfl
  | cons unit rest ih =>
    cases count with
    | zero => exact Nat.zero_le _
    | succ count =>
      rw [passed, List.length_cons, Nat.add_comm 1]
      exact Nat.succ_le_succ (ih _)

theorem noSpace_of_passed {text : U16String} {count last : ℕ} {unit : UChar}
    (hcount : count ≤ places text) (hpassed : passed text count = last + 1)
    (hunit : (text)[last]? = some unit) : noSpace unit = false := by
  induction text generalizing count last with
  | nil => cases hunit
  | cons first rest ih =>
    cases count with
    | zero => cases hpassed
    | succ count =>
      rw [passed, Nat.add_comm 1] at hpassed
      have hrest := Nat.succ.inj hpassed
      rw [places, List.countP_cons, ← places] at hcount
      cases hfirst : noSpace first with
      | false =>
        rw [hfirst] at hcount hrest
        cases last with
        | zero => exact Option.some.inj hunit ▸ hfirst
        | succ last => exact ih (Nat.le_of_succ_le_succ hcount) hrest hunit
      | true =>
        rw [hfirst] at hcount hrest
        cases last with
        | zero =>
          -- no place has been passed after the first character, and there are some
          have hnone := places_take_passed rest (count + 1)
          have hsome : count + 1 ≤ places rest := hcount
          rw [if_pos rfl] at hrest
          rw [hrest, Nat.min_eq_left hsome] at hnone
          cases hnone
        | succ last => exact ih hcount hrest hunit

/-! ### Truncation -/

variable {text : U16String} {wid count : ℕ}

theorem displayPosition_leftToRight (text : U16String) (count : ℕ) :
    text.take (displayPosition text count 0 .leftToRight) =
      text.take (passed text count) ++ (text.drop (passed text count)).takeWhile noSpace := by
  rw [displayPosition, List.drop_zero, Nat.zero_add, ← List.take_eq_take_min, List.take_add,
    ← List.prefix_iff_eq_take.mp (List.takeWhile_prefix noSpace)]

theorem places_leftToRight (text : U16String) (count : ℕ) :
    places (text.take (displayPosition text count 0 .leftToRight)) = min count (places text) := by
  have hnone : places ((text.drop (passed text count)).takeWhile noSpace) = 0 := by
    apply List.countP_eq_zero.mpr
    intro unit hunit
    rw [List.mem_takeWhile_imp hunit]
    exact Bool.false_ne_true
  rw [displayPosition_leftToRight, places_append, places_take_passed, hnone, Nat.add_zero]

theorem keepsSequences_leftToRight (text : U16String) (count : ℕ) :
    KeepsSequences text (displayPosition text count 0 .leftToRight) := by
  intro _ unit hunit
  rw [displayPosition, List.drop_zero, Nat.zero_add] at hunit
  rcases Nat.le_total text.length
    (passed text count + ((text.drop (passed text count)).takeWhile noSpace).length) with hle | hle
  · rw [Nat.min_eq_right hle, List.getElem?_eq_none le_rfl] at hunit
    cases hunit
  · have hdrop : (text.drop (passed text count)).drop
        ((text.drop (passed text count)).takeWhile noSpace).length =
          (text.drop (passed text count)).dropWhile noSpace := by
      calc _ = ((text.drop (passed text count)).takeWhile noSpace ++
            (text.drop (passed text count)).dropWhile noSpace).drop _ := by
              rw [List.takeWhile_append_dropWhile]
        _ = _ := List.drop_left
    rw [Nat.min_eq_left hle, ← List.head?_drop, ← List.drop_drop, hdrop] at hunit
    have hhead := List.head?_dropWhile_not noSpace (text.drop (passed text count))
    rw [hunit] at hhead
    exact hhead

theorem displayPosition_rightToLeft (text : U16String) (count : ℕ) :
    displayPosition text count text.length .rightToLeft = text.length - passed text.reverse count := by
  have hle := passed_le_length text.reverse count
  rw [List.length_reverse] at hle
  simp only [displayPosition, Nat.min_self, List.take_length]
  cases hindex : text.length - passed text.reverse count with
  | zero => rfl
  | succ index =>
    rw [startOfSequence]
    refine if_neg ?_
    cases hpassed : passed text.reverse count with
    | zero =>
      -- the null character after the last one
      rw [← hindex, hpassed, Nat.sub_zero, List.getElem?_eq_none le_rfl]
      decide
    | succ last =>
      have hcount : count ≤ places text.reverse := by
        by_contra hmany
        have hall := passed_eq_length (Nat.lt_of_not_le hmany)
        rw [List.length_reverse] at hall
        omega
      have hunit : (text)[index + 1]? = some ((text)[index + 1]?.getD 0) := by
        rw [List.getElem?_eq_getElem (show index + 1 < text.length by omega), Option.getD_some]
      have hreverse : (text.reverse)[last]? = (text)[index + 1]? := by
        rw [List.getElem?_reverse (by omega), show text.length - 1 - last = index + 1 by omega]
      rw [noSpace_of_passed hcount hpassed (hreverse.trans hunit)]
      exact Bool.false_ne_true

theorem drop_rightToLeft (text : U16String) (count : ℕ) :
    text.drop (displayPosition text count text.length .rightToLeft) =
      (text.reverse.take (passed text.reverse count)).reverse := by
  rw [displayPosition_rightToLeft, List.take_reverse, List.reverse_reverse]

theorem places_reverse (text : U16String) : places text.reverse = places text :=
  List.countP_reverse

theorem places_rightToLeft (text : U16String) (count : ℕ) :
    places (text.drop (displayPosition text count text.length .rightToLeft)) =
      min count (places text) := by
  rw [drop_rightToLeft, places_reverse, places_take_passed, places_reverse]

/-- After enough places, before a character with one. -/
theorem rightToLeft_cases (text : U16String) (count : ℕ) :
    displayPosition text count text.length .rightToLeft = 0 ∧ places text < count ∨
      count ≤ places text ∧ ∀ unit,
        (text)[displayPosition text count text.length .rightToLeft]? = some unit →
          noSpace unit = false := by
  rcases Nat.lt_or_ge (places text) count with hlt | hge
  · refine Or.inl ⟨?_, hlt⟩
    rw [displayPosition_rightToLeft, passed_eq_length ((places_reverse text).trans_lt hlt),
      List.length_reverse, Nat.sub_self]
  · refine Or.inr ⟨hge, ?_⟩
    intro unit hunit
    rw [displayPosition_rightToLeft] at hunit
    cases hpassed : passed text.reverse count with
    | zero =>
      rw [hpassed, Nat.sub_zero, List.getElem?_eq_none le_rfl] at hunit
      cases hunit
    | succ last =>
      have hle := passed_le_length text.reverse count
      rw [List.length_reverse, hpassed] at hle
      refine noSpace_of_passed (hge.trans (places_reverse text).ge) hpassed ?_
      rw [List.getElem?_reverse (by omega), ← hunit, hpassed]
      congr 1
      omega

theorem truncatesAt_rightToLeft (text : U16String) (wid : ℕ) :
    TruncatesAt text wid .rightToLeft (displayPosition text wid text.length .rightToLeft) := by
  have hplaces := places_rightToLeft text wid
  obtain ⟨hstart, hlt⟩ | ⟨hle, hhead⟩ := rightToLeft_cases text wid
  · rw [hstart]
    refine ⟨fun hpos ↦ absurd hpos (Nat.lt_irrefl 0), ?_, ?_⟩
    · rw [kept, List.drop_zero, width_eq]
      split_ifs <;> omega
    · intro other _ _
      rw [kept, kept, List.length_drop, List.length_drop]
      omega
  · rw [Nat.min_eq_left hle] at hplaces
    refine ⟨fun _ ↦ hhead, ?_, ?_⟩
    · have hfirst : startsWithoutPlace
          (text.drop (displayPosition text wid text.length .rightToLeft)) = false := by
        rw [startsWithoutPlace, List.head?_drop]
        cases hunit : (text)[displayPosition text wid text.length .rightToLeft]? with
        | none => rfl
        | some unit => exact hhead unit hunit
      rw [kept, width_eq, hfirst, hplaces]
      exact le_rfl
    · intro other _ hother
      rw [kept] at hother ⊢
      rw [kept, List.length_drop, List.length_drop]
      by_contra hlonger
      -- the first character counts, and the places which are kept are after it
      have hindex : other < text.length := by omega
      rw [List.drop_eq_getElem_cons hindex, width] at hother
      have hmore : places (text.drop (displayPosition text wid text.length .rightToLeft)) ≤
          places (text.drop (other + 1)) :=
        (List.drop_sublist_drop_left text (by omega)).countP_le
      omega

theorem startsWithoutPlace_take (hstarts : startsWithoutPlace text = false) (index : ℕ) :
    startsWithoutPlace (text.take index) = false := by
  cases text with
  | nil => rw [List.take_nil, hstarts]
  | cons unit rest =>
    cases index with
    | zero => rfl
    | succ index => exact hstarts

theorem startsWithoutPlace_leftToRight (hstarts : startsWithoutPlace text = true) (count : ℕ) :
    startsWithoutPlace (text.take (displayPosition text count 0 .leftToRight)) = true := by
  cases text with
  | nil => cases hstarts
  | cons unit rest =>
    have hunit : noSpace unit = true := hstarts
    rw [displayPosition_leftToRight]
    cases passed (unit :: rest) count with
    | zero =>
      rw [List.take_zero, List.nil_append, List.drop_zero, List.takeWhile_cons_of_pos hunit]
      exact hunit
    | succ last => exact hunit

theorem truncatesAt_leftToRight (hwidth : startsWithoutPlace text = true → width text ≤ wid) :
    TruncatesAt text wid .leftToRight (displayPosition text wid 0 .leftToRight) := by
  have hplaces := places_leftToRight text wid
  have hkeeps := keepsSequences_leftToRight text wid
  have htext := width_eq text
  refine ⟨hkeeps, ?_, ?_⟩
  · rw [kept, width_eq, hplaces]
    cases hstarts : startsWithoutPlace text with
    | true =>
      have hle := hwidth hstarts
      rw [hstarts, if_pos rfl] at htext
      rw [startsWithoutPlace_leftToRight hstarts, if_pos rfl]
      omega
    | false =>
      rw [startsWithoutPlace_take hstarts]
      exact Nat.min_le_left _ _
  · intro other _ hother
    rw [kept] at hother ⊢
    rw [kept, List.length_take, List.length_take]
    by_contra hlonger
    have hindex : displayPosition text wid 0 .leftToRight < text.length := by omega
    have hmany : wid ≤ places text := by
      by_contra hfew
      rw [displayPosition, List.drop_zero, passed_eq_length (Nat.lt_of_not_le hfew)] at hindex
      omega
    obtain ⟨unit, hget⟩ : ∃ unit, (text)[displayPosition text wid 0 .leftToRight]? = some unit :=
      ⟨_, List.getElem?_eq_getElem hindex⟩
    have hunit : noSpace unit = false := by
      rcases Nat.eq_zero_or_pos (displayPosition text wid 0 .leftToRight) with hzero | hpos
      · cases hstarts : startsWithoutPlace text with
        | true =>
          have hle := hwidth hstarts
          rw [htext, hstarts, if_pos rfl] at hle
          omega
        | false =>
          rw [hzero] at hget
          rw [startsWithoutPlace, List.head?_eq_getElem?, hget] at hstarts
          exact hstarts
      · exact hkeeps hpos unit hget
    -- the next character takes a place
    have hnext : places (text.take (displayPosition text wid 0 .leftToRight + 1)) = wid + 1 := by
      rw [List.take_add_one, places_append, hplaces, Nat.min_eq_left hmany, hget]
      refine congrArg (wid + ·) (places_of_forall ?_)
      intro next hmem
      rw [Option.toList_some, List.mem_singleton] at hmem
      exact hmem ▸ hunit
    have hle : places (text.take (displayPosition text wid 0 .leftToRight + 1)) ≤
        places (text.take other) :=
      (List.take_sublist_take_left (by omega)).countP_le
    have hmore := places_le_width (text.take other)
    omega

theorem width_leftToRight (hstarts : startsWithoutPlace text = true) (hwid : wid < width text) :
    wid < width (truncateWidth text wid .leftToRight) := by
  rw [width_eq, hstarts, if_pos rfl] at hwid
  rw [truncateWidth, kept, width_eq, places_leftToRight, startsWithoutPlace_leftToRight hstarts,
    if_pos rfl]
  omega

/-! ### Justification -/

variable {front back : U16String} {pad : UChar} {truncate : Bool} {spaces pads gap : ℕ}

theorem width_surrounded (htext : startsWithoutPlace text = false)
    (hfront : ∀ unit ∈ front, noSpace unit = false) (hback : ∀ unit ∈ back, noSpace unit = false) :
    width (front ++ text ++ back) = front.length + width text + back.length := by
  have hstarts : startsWithoutPlace (front ++ text ++ back) = false := by
    cases front with
    | cons unit rest => exact hfront unit List.mem_cons_self
    | nil =>
      cases text with
      | cons unit rest => exact htext
      | nil =>
        cases back with
        | nil => rfl
        | cons unit rest => exact hback unit List.mem_cons_self
  rw [width_eq, hstarts, places_append, places_append, places_of_forall hfront, places_of_forall hback,
    width_eq text, htext]
  rfl

theorem width_before (htext : startsWithoutPlace text = false)
    (hback : ∀ unit ∈ back, noSpace unit = false) : width (text ++ back) = width text + back.length := by
  have hwidth := @width_surrounded text [] back htext (fun _ h ↦ absurd h List.not_mem_nil) hback
  rwa [List.nil_append, List.length_nil, Nat.zero_add] at hwidth

theorem width_after (htext : startsWithoutPlace text = false)
    (hfront : ∀ unit ∈ front, noSpace unit = false) :
    width (front ++ text) = front.length + width text := by
  have hwidth := @width_surrounded text front [] htext hfront fun _ h ↦ absurd h List.not_mem_nil
  rwa [List.append_nil] at hwidth

theorem noSpace_of_mem_padding {unit : UChar} (hpad : noSpace pad = false ∨ pads = 0)
    (hunit : unit ∈ List.replicate pads pad ∨ unit ∈ List.replicate spaces SPACE) :
    noSpace unit = false := by
  rcases hunit with hunit | hunit
  · obtain ⟨hpads, rfl⟩ := List.mem_replicate.mp hunit
    exact hpad.resolve_right hpads
  · rw [List.eq_of_mem_replicate hunit]
    decide

theorem not_kept_of_lt (hwid : width text < wid) : ¬ (truncate && decide (wid < width text)) = true := by
  rw [decide_eq_false (Nat.lt_asymm hwid), Bool.and_false]
  exact Bool.false_ne_true

theorem width_justify (htext : startsWithoutPlace text = false) (hwid : width text < wid)
    (hpad : noSpace pad = false ∨ wid ≤ width text + spaces) :
    width (justifyLeft text wid pad truncate spaces) = wid ∧
      width (justifyRight text wid pad truncate spaces) = wid ∧
      width (justifyCentered text wid pad truncate spaces) = wid := by
  have hkept : ¬ (truncate && decide (wid < width text)) = true := not_kept_of_lt hwid
  have hpads : ∀ {size : ℕ}, size ≤ wid - width text →
      noSpace pad = false ∨ size - min spaces size = 0 := by
    intro size hsize
    exact hpad.imp_right fun hspaces ↦ by omega
  refine ⟨?_, ?_, ?_⟩
  · rw [justifyLeft, if_neg hkept, if_pos hwid]
    rw [width_before htext fun unit hunit ↦
      noSpace_of_mem_padding (hpads le_rfl) (List.mem_append.mp hunit).symm]
    rw [List.length_append, List.length_replicate, List.length_replicate]
    omega
  · rw [justifyRight, if_neg hkept, if_pos hwid]
    rw [width_after htext fun unit hunit ↦
      noSpace_of_mem_padding (hpads le_rfl) (List.mem_append.mp hunit)]
    rw [List.length_append, List.length_replicate, List.length_replicate]
    omega
  · rw [justifyCentered, if_neg hkept, if_pos hwid]
    dsimp only
    rw [width_surrounded htext
      (fun unit hunit ↦ noSpace_of_mem_padding (hpads (by omega)) (List.mem_append.mp hunit))
      (fun unit hunit ↦ noSpace_of_mem_padding (hpads (by omega)) (List.mem_append.mp hunit).symm)]
    simp only [List.length_append, List.length_replicate]
    omega

theorem width_le_length (text : U16String) : width text ≤ text.length := by
  cases text with
  | nil => exact le_rfl
  | cons unit rest =>
    rw [width, List.length_cons, Nat.add_comm]
    exact Nat.succ_le_succ List.countP_le_length

theorem of_width_justifyRight (hwid : width text < wid)
    (hright : width (justifyRight text wid pad truncate spaces) = wid) :
    startsWithoutPlace text = false := by
  by_contra hstarts
  rw [justifyRight, if_neg (not_kept_of_lt hwid), if_pos hwid] at hright
  generalize hfront : List.replicate (wid - width text - min spaces (wid - width text)) pad ++
    List.replicate (min spaces (wid - width text)) SPACE = front at hright
  have hlength := congrArg List.length hfront
  rw [List.length_append, List.length_replicate, List.length_replicate] at hlength
  have hne : front ≠ [] := by
    rintro rfl
    rw [List.length_nil] at hlength
    omega
  have hle := width_le_length front
  rw [width_append hne] at hright
  rw [width_eq, if_pos (Bool.eq_true_of_not_eq_false hstarts)] at hwid hlength
  omega

theorem places_replicate (size : ℕ) (unit : UChar) :
    places (List.replicate size unit) = if noSpace unit then 0 else size := by
  rw [places, List.countP_replicate]
  cases noSpace unit
  · rfl
  · rfl

theorem width_replicate_space (size : ℕ) : width (List.replicate size SPACE) = size := by
  cases size with
  | zero => rfl
  | succ size => exact (congrArg (1 + ·) (places_replicate size SPACE)).trans (Nat.add_comm 1 size)

theorem of_width_justifyLeft (hwid : width text < wid)
    (hleft : width (justifyLeft text wid pad truncate spaces) = wid) :
    noSpace pad = false ∨ wid ≤ width text + spaces ∨ text = [] ∧ wid = 1 := by
  by_contra hcontra
  rw [not_or, not_or, Bool.not_eq_false, Nat.not_le] at hcontra
  obtain ⟨hpad, hspaces, hsome⟩ := hcontra
  rw [justifyLeft, if_neg (not_kept_of_lt hwid), if_pos hwid, Nat.min_eq_left (by omega)] at hleft
  cases text with
  | nil =>
    rw [width, List.nil_append] at hleft
    cases spaces with
    | zero =>
      obtain ⟨wid, rfl⟩ := Nat.exists_eq_succ_of_ne_zero (Nat.ne_of_gt hwid)
      have hone : 1 + places (List.replicate wid pad) = wid + 1 := hleft
      rw [places_replicate, if_pos hpad] at hone
      exact hsome ⟨rfl, by omega⟩
    | succ spaces =>
      rw [List.replicate_succ, width_append (List.cons_ne_nil _ _), ← List.replicate_succ,
        width_replicate_space, places_replicate, if_pos hpad] at hleft
      rw [width] at hspaces
      omega
  | cons unit rest =>
    rw [width_append (List.cons_ne_nil _ _), places_append, places_replicate, places_replicate, if_pos hpad,
      if_neg (by decide)] at hleft
    omega

theorem width_justify_nil (pad : UChar) (truncate : Bool) (spaces : ℕ) :
    width (justifyLeft [] 1 pad truncate spaces) = 1 ∧ width (justifyRight [] 1 pad truncate spaces) = 1 ∧
      width (justifyCentered [] 1 pad truncate spaces) = 1 := by
  cases spaces with
  | zero => cases truncate <;> exact ⟨rfl, rfl, rfl⟩
  | succ spaces => exact width_justify rfl Nat.zero_lt_one (Or.inr (by omega))

theorem width_justify_of_eq (hwid : width text = wid) :
    width (justifyLeft text wid pad truncate spaces) = wid ∧
      width (justifyRight text wid pad truncate spaces) = wid ∧
      width (justifyCentered text wid pad truncate spaces) = wid := by
  subst hwid
  simp [justifyLeft, justifyRight, justifyCentered]

/-- It is right if and only if the string has exactly the width when it begins with a character
without place, and the padding characters take a place, apart from one which is alone. -/
theorem widthIsRight_iff (text : U16String) (wid : ℕ) (pad : UChar) (truncate : Bool) (spaces : ℕ) :
    WidthIsRight text wid pad truncate spaces ↔
      (startsWithoutPlace text = true → width text = wid) ∧
        (width text < wid → noSpace pad = false ∨ wid ≤ width text + spaces ∨ text = [] ∧ wid = 1) := by
  constructor
  · intro hright
    refine ⟨?_, fun hwid ↦ of_width_justifyLeft hwid (hright.left hwid.le)⟩
    intro hstarts
    rcases Nat.lt_trichotomy (width text) wid with hlt | heq | hgt
    · rw [of_width_justifyRight hlt (hright.right hlt.le)] at hstarts
      cases hstarts
    · exact heq
    · obtain ⟨index, hkept, hindex⟩ := hright.truncated .leftToRight
      have hle := hindex.width_le
      rw [← hkept] at hle
      exact absurd hle (Nat.not_le_of_lt (width_leftToRight hstarts hgt))
  · rintro ⟨hstarts, hpad⟩
    have hjustified : width text ≤ wid → width (justifyLeft text wid pad truncate spaces) = wid ∧
        width (justifyRight text wid pad truncate spaces) = wid ∧
        width (justifyCentered text wid pad truncate spaces) = wid := by
      intro hle
      rcases Nat.lt_or_eq_of_le hle with hlt | heq
      · have htext : startsWithoutPlace text = false :=
          Bool.eq_false_of_not_eq_true fun h ↦ Nat.ne_of_lt hlt (hstarts h)
        rcases hpad hlt with hplace | hspaces | ⟨rfl, rfl⟩
        · exact width_justify htext hlt (Or.inl hplace)
        · exact width_justify htext hlt (Or.inr hspaces)
        · exact width_justify_nil pad truncate spaces
      · exact width_justify_of_eq heq
    refine ⟨?_, fun h ↦ (hjustified h).1, fun h ↦ (hjustified h).2.1, fun h ↦ (hjustified h).2.2⟩
    intro direction
    cases direction with
    | leftToRight => exact ⟨_, rfl, truncatesAt_leftToRight fun h ↦ (hstarts h).le⟩
    | rightToLeft => exact ⟨_, rfl, truncatesAt_rightToLeft text wid⟩

/-- An acute accent and a letter, cut at one place: both remain. -/
theorem not_widthIsRight_of_accent : ¬ WidthIsRight [0xB4, 0x41, 0x42] 1 SPACE false 0 := by
  intro hright
  obtain ⟨index, hkept, hindex⟩ := hright.truncated .leftToRight
  have hle := hindex.width_le
  rw [← hkept] at hle
  revert hle
  decide

end TSDuck.U16String
