import TSDuck.Text.UChar

/-!
# Lists of strings

A string is split into the segments between its separators, and a list of strings is joined into one
string.

`joinRoundTrips_iff` states which lists are found again when their join is split.

A string is also split into lines which are not wider than a maximum, with a margin in front of all
lines but the first one. `splitsLines_iff` states when nothing but white space is added or lost.
-/

namespace TSDuck

open UChar

namespace U16String

/-- The segments up to the terminating null character. -/
def segments (separator : UChar) : U16String → List U16String
  | [] => [[]]
  | unit :: rest =>
    if unit = 0 then [[]]
    else if unit = separator then [] :: segments separator rest
    else (segments separator rest).modifyHead (unit :: ·)

def split (separator : UChar) (trimSpaces removeEmpty : Bool) (text : U16String) : List U16String :=
  ((segments separator text).map fun segment ↦ if trimSpaces then trim segment else segment).filter
    fun segment ↦ !removeEmpty || !segment.isEmpty

def join (separator : U16String) (strings : List U16String) : U16String :=
  strings.foldl (fun res str ↦ (if res.isEmpty then res else res ++ separator) ++ str) []

/-- The list is found again when its join is split. -/
def JoinRoundTrips (separator : UChar) (strings : List U16String) : Prop :=
  split separator false false (join [separator] strings) = strings

theorem segments_eq (separator : UChar) (text : U16String) :
    segments separator text = (text.takeWhile (· ≠ 0)).splitOn separator := by
  induction text with
  | nil => rfl
  | cons unit rest ih =>
    rw [segments]
    split_ifs with hnull hseparator
    · rw [hnull]
      rfl
    · rw [ih, List.takeWhile_cons_of_pos (by simpa using hnull), List.splitOn_cons_eq_if_modifyHead,
        if_pos (by simpa using hseparator)]
    · rw [ih, List.takeWhile_cons_of_pos (by simpa using hnull), List.splitOn_cons_eq_if_modifyHead,
        if_neg (by simpa using hseparator)]

theorem split_eq (separator : UChar) (text : U16String) :
    split separator false false text = segments separator text := by
  simp [split]

theorem length_segments_le (separator : UChar) (text : U16String) :
    (segments separator text).length ≤ text.count separator + 1 := by
  induction text with
  | nil => exact le_rfl
  | cons unit rest ih =>
    rw [segments]
    split_ifs with hnull hseparator
    · exact Nat.le_add_left 1 _
    · rw [hseparator, List.count_cons_self, List.length_cons]
      exact Nat.succ_le_succ ih
    · rw [List.length_modifyHead, List.count_cons_of_ne (fun h ↦ hseparator h)]
      exact ih

theorem zero_notMem_segments {separator : UChar} {text segment : U16String}
    (hsegment : segment ∈ segments separator text) : 0 ∉ segment := by
  induction text generalizing segment with
  | nil =>
    rw [List.mem_singleton.mp hsegment]
    exact List.not_mem_nil
  | cons unit rest ih =>
    rw [segments] at hsegment
    split_ifs at hsegment with hnull hseparator
    · rw [List.mem_singleton.mp hsegment]
      exact List.not_mem_nil
    · rcases List.mem_cons.mp hsegment with rfl | hrest
      · exact List.not_mem_nil
      · exact ih hrest
    · cases hlist : segments separator rest with
      | nil =>
        rw [hlist] at hsegment
        exact absurd hsegment List.not_mem_nil
      | cons first others =>
        rw [hlist] at hsegment ih
        rcases List.mem_cons.mp hsegment with rfl | hrest
        · rw [List.mem_cons, not_or]
          exact ⟨fun h ↦ hnull h.symm, ih List.mem_cons_self⟩
        · exact ih (List.mem_cons_of_mem _ hrest)

theorem foldl_join_of_ne_nil (separator : U16String) {res : U16String} (hres : res ≠ [])
    (strings : List U16String) :
    strings.foldl (fun res str ↦ (if res.isEmpty then res else res ++ separator) ++ str) res =
      separator.intercalate (res :: strings) := by
  induction strings generalizing res with
  | nil => exact List.intercalate_singleton.symm
  | cons str strings ih =>
    have hempty : res.isEmpty = false := by simpa using hres
    rw [List.foldl_cons, hempty, if_neg Bool.false_ne_true,
      ih (List.append_ne_nil_of_left_ne_nil (List.append_ne_nil_of_left_ne_nil hres _) _),
      List.intercalate_cons_cons]
    cases strings with
    | nil => rw [List.intercalate_singleton, List.intercalate_singleton, List.append_assoc]
    | cons next strings =>
      rw [List.intercalate_cons_cons, List.intercalate_cons_cons]
      simp only [List.append_assoc]

theorem notMem_intercalate {unit : UChar} {separator first : U16String} {rest : List U16String}
    (hfree : ∀ str ∈ first :: rest, unit ∉ str) (hseparator : rest ≠ [] → unit ∉ separator) :
    unit ∉ separator.intercalate (first :: rest) := by
  induction rest generalizing first with
  | nil =>
    rw [List.intercalate_singleton]
    exact hfree first List.mem_cons_self
  | cons next rest ih =>
    rw [List.intercalate_cons_cons, List.mem_append, List.mem_append, not_or, not_or]
    exact ⟨⟨hfree first List.mem_cons_self, hseparator (List.cons_ne_nil _ _)⟩,
      ih (List.forall_mem_cons.mp hfree).2
        fun _ ↦ hseparator (List.cons_ne_nil _ _)⟩

theorem count_foldl_join_le (separator : UChar) {strings : List U16String}
    (hfree : ∀ str ∈ strings, separator ∉ str) (res : U16String) :
    (strings.foldl (fun res str ↦ (if res.isEmpty then res else res ++ [separator]) ++ str)
      res).count separator ≤ res.count separator + strings.length := by
  induction strings generalizing res with
  | nil => exact le_rfl
  | cons str strings ih =>
    have hrest := ih (List.forall_mem_cons.mp hfree).2
      ((if res.isEmpty then res else res ++ [separator]) ++ str)
    rw [List.count_append, List.count_eq_zero_of_not_mem (hfree str List.mem_cons_self)] at hrest
    rw [List.foldl_cons, List.length_cons]
    split_ifs at hrest ⊢
    · omega
    · rw [List.count_append, List.count_singleton_self] at hrest
      omega

/-- Assumes: a list without the separator. It is found again if and only if it does not begin with
an empty string in front of another one, it has no null character, and the separator it needs is not
null. -/
theorem joinRoundTrips_iff {separator : UChar} {strings : List U16String}
    (hne : strings ≠ []) (hfree : ∀ str ∈ strings, separator ∉ str) :
    JoinRoundTrips separator strings ↔ (strings.head? = some [] → strings = [[]]) ∧
      (∀ str ∈ strings, 0 ∉ str) ∧ (separator = 0 → strings.length = 1) := by
  rw [JoinRoundTrips, split_eq]
  obtain ⟨first, rest, rfl⟩ := List.exists_cons_of_ne_nil hne
  constructor
  · intro hsplit
    refine ⟨fun hhead ↦ ?_, fun str hstr ↦ ?_, fun hnull ↦ ?_⟩
    · obtain rfl : first = [] := Option.some.inj hhead
      cases rest with
      | nil => rfl
      | cons next rest =>
        have hsegments := length_segments_le separator (join [separator] ([] :: next :: rest))
        have hcount := count_foldl_join_le separator (fun str hstr ↦
          hfree str (List.mem_cons_of_mem _ (List.mem_cons_of_mem _ hstr))) next
        rw [List.count_eq_zero_of_not_mem (hfree next (by simp))] at hcount
        rw [hsplit] at hsegments
        have hjoin : join [separator] ([] :: next :: rest) = rest.foldl
            (fun res str ↦ (if res.isEmpty then res else res ++ [separator]) ++ str) next := rfl
        rw [← hjoin] at hcount
        rw [List.length_cons, List.length_cons] at hsegments
        omega
    · rw [← hsplit] at hstr
      exact zero_notMem_segments hstr
    · rw [segments_eq, hnull] at hsplit
      have hsingle : ((join [0] (first :: rest)).takeWhile (· ≠ 0)).splitOn 0 =
          [(join [0] (first :: rest)).takeWhile (· ≠ 0)] := by
        rw [List.splitOn_eq_splitOnP]
        exact List.splitOnP_eq_singleton fun unit hunit ↦ by
          simpa using List.mem_takeWhile_imp hunit
      rw [← hsplit, hsingle]
      rfl
  · rintro ⟨hhead, hnull, hsingle⟩
    by_cases hempty : first = []
    · rw [hempty] at hhead ⊢
      obtain rfl : rest = [] := (List.cons.inj (hhead rfl)).2
      rfl
    · have hjoin : join [separator] (first :: rest) = [separator].intercalate (first :: rest) :=
        foldl_join_of_ne_nil [separator] hempty rest
      have hseparator : rest ≠ [] → (0 : UChar) ∉ [separator] := fun hrest hmem ↦
        hrest (List.length_eq_zero_iff.mp
          (Nat.succ_inj.mp (hsingle (List.mem_singleton.mp hmem).symm)))
      have hkept := notMem_intercalate hnull hseparator
      rw [segments_eq, hjoin, List.takeWhile_eq_self_iff.mpr fun unit hunit ↦
        decide_eq_true (ne_of_mem_of_not_mem hunit hkept)]
      exact List.splitOn_intercalate separator hfree hne

/-- With an empty string between two other ones. -/
theorem joinRoundTrips_inner_empty :
    JoinRoundTrips 0x2C [[0x41], [], [0x42]] :=
  (joinRoundTrips_iff (by decide) (by decide)).mpr (by decide)

/-- With an empty string in front of another one. -/
theorem not_joinRoundTrips_empty_head :
    ¬ ∀ separator strings, strings ≠ [] → (∀ str ∈ strings, separator ∉ str) →
      JoinRoundTrips separator strings := by
  intro hall
  have hsplit := hall 0x2C [[], [0x41]] (by decide) (by decide)
  exact absurd hsplit (by unfold JoinRoundTrips; decide)

/-! ### Lines -/

/-- The lines so far, the margin and the current line. -/
structure LineSplit where
  lines : List U16String
  marginLength : ℕ
  start : ℕ
  eol : ℕ
  cur : ℕ

section Lines

variable (text otherSeparators nextMargin : U16String) (maxWidth : ℕ) (forceSplit : Bool)

def mayEnd (start cur : ℕ) : Bool :=
  isSpace (text.getD cur 0) || (decide (start < cur) && otherSeparators.contains (text.getD (cur - 1) 0))

def nextStart (eol : ℕ) : ℕ :=
  let start := if eol < text.length ∧ text.getD eol 0 = LINE_FEED then eol + 1 else eol
  start + ((text.drop start).takeWhile fun unit ↦ isSpace unit && unit != LINE_FEED).length

namespace LineSplit

def cutAt (split : LineSplit) (eol : ℕ) : LineSplit :=
  { lines := split.lines ++ [(if split.marginLength = 0 then [] else nextMargin) ++
      (text.drop split.start).take (eol - split.start)]
    marginLength := nextMargin.length
    start := nextStart text eol
    eol := nextStart text eol
    cur := nextStart text eol }

def step (split : LineSplit) : LineSplit :=
  let eol := if mayEnd text otherSeparators split.start split.cur then split.cur else split.eol
  if text.getD split.cur 0 = LINE_FEED then split.cutAt text nextMargin eol
  else if maxWidth ≤ split.marginLength + split.cur - split.start then
    if split.start < eol then split.cutAt text nextMargin eol
    else if forceSplit then split.cutAt text nextMargin split.cur
    else { split with eol, cur := split.cur + 1 }
  else { split with eol, cur := split.cur + 1 }

def run : ℕ → LineSplit → Option (List U16String)
  | 0, _ => none
  | fuel + 1, split =>
    if split.cur < text.length then
      run fuel (split.step text otherSeparators nextMargin maxWidth forceSplit)
    else
      some (split.lines ++
        if split.start < text.length then [nextMargin ++ text.drop split.start] else [])

end LineSplit

def splitLines (fuel : ℕ) : Option (List U16String) :=
  if text.length ≤ maxWidth ∨ maxWidth ≤ nextMargin.length then some [text]
  else LineSplit.run text otherSeparators nextMargin maxWidth forceSplit fuel ⟨[], 0, 0, 0, 0⟩

def withMargin : List U16String → List U16String
  | [] => []
  | first :: rest => first :: rest.map (nextMargin ++ ·)

/-- The text is the pieces of the lines and white space. -/
def IsCutInto (lines : List U16String) : Prop :=
  ∃ pieces : List (U16String × U16String), text = pieces.flatMap (fun piece ↦ piece.1 ++ piece.2) ∧
      (∀ piece ∈ pieces, ∀ unit ∈ piece.2, isSpace unit = true) ∧
        lines = withMargin nextMargin (pieces.map Prod.fst)

/-- Only white space is lost, and forced cuts give no wide line. -/
def SplitsLines : Prop :=
  ∃ fuel lines, splitLines text otherSeparators nextMargin maxWidth forceSplit fuel = some lines ∧
    IsCutInto text nextMargin lines ∧
      (forceSplit = true → nextMargin.length < maxWidth → ∀ line ∈ lines, line.length ≤ maxWidth)

/-- The text has an end of line, or may be cut. -/
def HasCut : Prop :=
  LINE_FEED ∈ text ∨ ∃ index, 0 < index ∧ index < text.length ∧ mayEnd text otherSeparators 0 index = true

end Lines

variable {text otherSeparators nextMargin : U16String} {maxWidth : ℕ} {forceSplit : Bool}

/-- White space up to the start of the next line. -/
theorem nextStart_spec {eol : ℕ} (heol : eol ≤ text.length) :
    eol ≤ nextStart text eol ∧ nextStart text eol ≤ text.length ∧
      (eol < text.length → text.getD eol 0 = LINE_FEED → eol < nextStart text eol) ∧
        ∃ white : U16String, (∀ unit ∈ white, isSpace unit = true) ∧
          text.take (nextStart text eol) = text.take eol ++ white := by
  have hskip : ∀ start, start ≤ text.length → ∀ spaces,
      spaces = (text.drop start).takeWhile (fun unit ↦ isSpace unit && unit != LINE_FEED) →
        start + spaces.length ≤ text.length ∧ (∀ unit ∈ spaces, isSpace unit = true) ∧
          text.take (start + spaces.length) = text.take start ++ spaces := by
    rintro start hstart spaces rfl
    have hlength := (List.takeWhile_sublist (l := text.drop start)
      fun unit ↦ isSpace unit && unit != LINE_FEED).length_le
    rw [List.length_drop] at hlength
    refine ⟨by omega, fun unit hunit ↦ ?_, ?_⟩
    · have hboth := List.mem_takeWhile_imp hunit
      exact (Bool.and_eq_true_iff.mp hboth).1
    · rw [List.take_add, ← List.prefix_iff_eq_take.mp (List.takeWhile_prefix _)]
  unfold nextStart
  dsimp only
  split_ifs with hfeed
  · obtain ⟨hlt, hunit⟩ := hfeed
    obtain ⟨hle, hspace, htake⟩ := hskip (eol + 1) hlt _ rfl
    refine ⟨by omega, hle, fun _ _ ↦ by omega, LINE_FEED :: (text.drop (eol + 1)).takeWhile
      (fun unit ↦ isSpace unit && unit != LINE_FEED), fun unit hmem ↦ ?_, ?_⟩
    · rcases List.mem_cons.mp hmem with rfl | hmem
      · decide
      · exact hspace unit hmem
    · rw [htake, List.take_add_one, List.getElem?_eq_getElem hlt]
      rw [List.getD_eq_getElem?_getD, List.getElem?_eq_getElem hlt, Option.getD_some] at hunit
      rw [hunit, Option.toList_some, List.append_assoc]
      rfl
  · obtain ⟨hle, hspace, htake⟩ := hskip eol heol _ rfl
    exact ⟨Nat.le_add_right _ _, hle, fun hlt hunit ↦ absurd ⟨hlt, hunit⟩ hfeed, _, hspace, htake⟩

theorem withMargin_concat (pieces : List U16String) (piece : U16String) :
    withMargin nextMargin (pieces ++ [piece]) =
      withMargin nextMargin pieces ++ [(if pieces = [] then [] else nextMargin) ++ piece] := by
  cases pieces with
  | nil => rfl
  | cons first rest => simp [withMargin]

namespace LineSplit

/-- No possible cut is passed over. -/
structure IsSplit (text otherSeparators nextMargin : U16String) (maxWidth : ℕ) (forceSplit : Bool)
    (split : LineSplit) : Prop where
  cut : IsCutInto (text.take split.start) nextMargin split.lines
  marginLength : split.marginLength = if split.lines = [] then 0 else nextMargin.length
  start_le : split.start ≤ split.eol
  eol_le : split.eol ≤ split.cur
  cur_le : split.cur ≤ text.length
  width : forceSplit = true → (∀ line ∈ split.lines, line.length ≤ maxWidth) ∧
    split.marginLength + (split.cur - split.start) ≤ maxWidth
  uncut : split.lines = [] → split.start = 0 ∧ LINE_FEED ∉ text.take split.cur ∧
    (∀ index, 0 < index → index < split.cur → mayEnd text otherSeparators 0 index = true →
      0 < split.eol) ∧ (maxWidth < split.cur → split.eol = 0 ∧ forceSplit = false)
  hasCut : split.start < split.eol → HasCut text otherSeparators
  cause : split.lines ≠ [] → forceSplit = true ∨ HasCut text otherSeparators

variable {split : LineSplit}

/-- The line may be cut there. -/
theorem IsSplit.cutAt (hsplit : IsSplit text otherSeparators nextMargin maxWidth forceSplit split)
    (hmargin : nextMargin.length < maxWidth) {eol : ℕ} (hstart : split.start ≤ eol)
    (heol : eol ≤ split.cur) (hcur : split.cur < text.length)
    (hprogress : split.start < eol ∨ text.getD eol 0 = LINE_FEED)
    (hcause : forceSplit = true ∨ HasCut text otherSeparators) :
    IsSplit text otherSeparators nextMargin maxWidth forceSplit (split.cutAt text nextMargin eol) ∧
      split.start < (split.cutAt text nextMargin eol).start := by
  obtain ⟨⟨pieces, htext, hspaces, hlines⟩, hlength, -, -, -, hwidth, -, -, -⟩ := hsplit
  obtain ⟨hle, hend, hfeed, white, hwhite, htake⟩ := nextStart_spec (show eol ≤ text.length by omega)
  have hmargin₀ : (if split.marginLength = 0 then [] else nextMargin) =
      if pieces.map Prod.fst = [] then [] else nextMargin := by
    rw [hlength, hlines]
    cases hpieces : pieces.map Prod.fst with
    | nil => rfl
    | cons first rest =>
      rw [withMargin, if_neg (List.cons_ne_nil _ _), if_neg (List.cons_ne_nil _ _)]
      split_ifs with hnone
      · exact (List.length_eq_zero_iff.mp hnone).symm
      · rfl
  have hnew : IsCutInto (text.take (nextStart text eol)) nextMargin
      (split.lines ++ [(if split.marginLength = 0 then [] else nextMargin) ++
        (text.drop split.start).take (eol - split.start)]) := by
    refine ⟨pieces ++ [((text.drop split.start).take (eol - split.start), white)], ?_, ?_, ?_⟩
    · rw [htake, List.flatMap_append, ← htext, List.flatMap_singleton, ← List.append_assoc,
        ← List.take_add, Nat.add_sub_cancel' hstart]
    · intro piece hpiece
      rcases List.mem_append.mp hpiece with hpiece | hpiece
      · exact hspaces piece hpiece
      · rw [List.mem_singleton.mp hpiece]
        exact hwhite
    · rw [List.map_append, List.map_singleton, withMargin_concat, hlines, hmargin₀]
  refine ⟨⟨hnew, ?_, le_rfl, le_rfl, hend, fun hforce ↦ ⟨?_, ?_⟩, fun hnil ↦ ?_,
    fun hlt ↦ absurd hlt (lt_irrefl _), fun _ ↦ hcause⟩, ?_⟩
  · exact (if_neg (List.append_ne_nil_of_right_ne_nil _ (List.cons_ne_nil _ _))).symm
  · intro line hmem
    rcases List.mem_append.mp hmem with hmem | hmem
    · exact (hwidth hforce).1 line hmem
    · have hcurrent := (hwidth hforce).2
      rw [List.mem_singleton.mp hmem, List.length_append, List.length_take, List.length_drop]
      have hshort : (if split.marginLength = 0 then [] else nextMargin).length ≤
          split.marginLength := by
        split_ifs with hzero
        · exact Nat.zero_le _
        · rw [hlength] at hzero ⊢
          split_ifs at hzero ⊢
          · exact absurd rfl hzero
          · exact le_rfl
      omega
  · show nextMargin.length + (nextStart text eol - nextStart text eol) ≤ maxWidth
    omega
  · exact absurd hnil (List.append_ne_nil_of_right_ne_nil _ (List.cons_ne_nil _ _))
  · show split.start < nextStart text eol
    rcases hprogress with hlt | hunit
    · omega
    · exact hstart.trans_lt (hfeed (by omega) hunit)

/-- An iteration cuts the line or goes forward. -/
theorem IsSplit.step (hsplit : IsSplit text otherSeparators nextMargin maxWidth forceSplit split)
    (hmargin : nextMargin.length < maxWidth) (hcur : split.cur < text.length) :
    IsSplit text otherSeparators nextMargin maxWidth forceSplit
        (split.step text otherSeparators nextMargin maxWidth forceSplit) ∧
      (split.start < (split.step text otherSeparators nextMargin maxWidth forceSplit).start ∨
        (split.step text otherSeparators nextMargin maxWidth forceSplit).start = split.start ∧
          (split.step text otherSeparators nextMargin maxWidth forceSplit).cur = split.cur + 1) := by
  have hmarginLength : split.marginLength < maxWidth := by
    rw [hsplit.marginLength]
    split_ifs <;> omega
  have hstart := hsplit.start_le
  have hend := hsplit.eol_le
  rw [LineSplit.step]
  generalize heol :
    (if mayEnd text otherSeparators split.start split.cur = true then split.cur else split.eol) = eol
  have hbounds : split.start ≤ eol ∧ eol ≤ split.cur := by
    rw [← heol]
    split_ifs <;> omega
  have hhasCut : split.start < eol → HasCut text otherSeparators := by
    intro hlt
    rw [← heol] at hlt
    split_ifs at hlt with hmay
    · refine Or.inr ⟨split.cur, by omega, hcur, ?_⟩
      rw [mayEnd, decide_eq_true hlt] at hmay
      rw [mayEnd, decide_eq_true (show 0 < split.cur by omega)]
      exact hmay
    · exact hsplit.hasCut hlt
  have hadvance : text.getD split.cur 0 ≠ LINE_FEED →
      (maxWidth ≤ split.marginLength + split.cur - split.start →
        ¬split.start < eol ∧ forceSplit = false) →
      IsSplit text otherSeparators nextMargin maxWidth forceSplit
        { split with eol, cur := split.cur + 1 } := by
    intro hunit hwide
    refine ⟨hsplit.cut, hsplit.marginLength, hbounds.1, hbounds.2.trans (Nat.le_succ _), hcur,
      fun hforce ↦ ⟨(hsplit.width hforce).1, ?_⟩, fun hnil ↦ ?_, hhasCut, hsplit.cause⟩
    · by_contra hlong
      have hnot := (hwide (by dsimp only at hlong; omega)).2
      rw [hforce] at hnot
      exact Bool.noConfusion hnot
    · obtain ⟨hzero, hfeeds, hpassed, hlate⟩ := hsplit.uncut hnil
      have hmarginZero : split.marginLength = 0 := hsplit.marginLength.trans (if_pos hnil)
      refine ⟨hzero, ?_, fun index hpos hlt hmay ↦ ?_, fun hlt ↦ ?_⟩
      · have hget := List.getElem?_eq_getElem hcur
        rw [List.getD_eq_getElem?_getD, hget, Option.getD_some] at hunit
        rw [List.take_add_one, hget, Option.toList_some, List.mem_append, List.mem_singleton, not_or]
        exact ⟨hfeeds, fun h ↦ hunit h.symm⟩
      · rcases Nat.lt_succ_iff_lt_or_eq.mp hlt with hlt | rfl
        · have hbefore := hpassed index hpos hlt hmay
          dsimp only
          rw [← heol]
          split_ifs <;> omega
        · dsimp only
          rw [← heol, hzero, if_pos hmay]
          exact hpos
      · obtain ⟨hnot, hforce⟩ := hwide (by dsimp only at hlt; omega)
        exact ⟨by dsimp only; omega, hforce⟩
  split_ifs with hunit hwide hcut hforce
  · have hcurEol : eol = split.cur := by
      rw [← heol, mayEnd, hunit, show isSpace LINE_FEED = true from by decide]
      rfl
    have hfeed : LINE_FEED ∈ text := by
      rw [List.getD_eq_getElem?_getD, List.getElem?_eq_getElem hcur, Option.getD_some] at hunit
      exact hunit ▸ List.getElem_mem hcur
    obtain ⟨hnext, hlt⟩ := hsplit.cutAt hmargin hbounds.1 hbounds.2 hcur
      (Or.inr (by rw [hcurEol]; exact hunit)) (Or.inr (Or.inl hfeed))
    exact ⟨hnext, Or.inl hlt⟩
  · obtain ⟨hnext, hlt⟩ := hsplit.cutAt hmargin hbounds.1 hbounds.2 hcur (Or.inl hcut)
      (Or.inr (hhasCut hcut))
    exact ⟨hnext, Or.inl hlt⟩
  · obtain ⟨hnext, hlt⟩ := hsplit.cutAt hmargin (hstart.trans hend) le_rfl hcur (Or.inl (by omega))
      (Or.inl hforce)
    exact ⟨hnext, Or.inl hlt⟩
  · exact ⟨hadvance hunit fun _ ↦ ⟨hcut, by simpa using hforce⟩, Or.inr ⟨rfl, rfl⟩⟩
  · exact ⟨hadvance hunit fun h ↦ absurd h hwide, Or.inr ⟨rfl, rfl⟩⟩

theorem IsSplit.exists_run (hsplit : IsSplit text otherSeparators nextMargin maxWidth forceSplit split)
    (hmargin : nextMargin.length < maxWidth) {fuel : ℕ}
    (hfuel : (text.length - split.start) * (text.length + 1) + (text.length - split.cur) < fuel) :
    ∃ lines, run text otherSeparators nextMargin maxWidth forceSplit fuel split = some lines := by
  induction fuel generalizing split with
  | zero => exact absurd hfuel (Nat.not_lt_zero _)
  | succ fuel ih =>
    rw [run]
    by_cases hcur : split.cur < text.length
    · rw [if_pos hcur]
      obtain ⟨hnext, hprogress⟩ := hsplit.step hmargin hcur
      refine ih hnext ?_
      have hlast := hnext.cur_le
      rcases hprogress with hlt | ⟨hsame, hsucc⟩
      · have hless : (text.length - (split.step text otherSeparators nextMargin maxWidth
            forceSplit).start + 1) * (text.length + 1) ≤
              (text.length - split.start) * (text.length + 1) :=
          Nat.mul_le_mul_right _ (by have := hnext.start_le; have := hnext.eol_le; omega)
        rw [Nat.add_mul] at hless
        omega
      · rw [hsame, hsucc]
        omega
    · rw [if_neg hcur]
      exact ⟨_, rfl⟩

theorem IsSplit.of_run (hsplit : IsSplit text otherSeparators nextMargin maxWidth forceSplit split)
    (hmargin : nextMargin.length < maxWidth) {fuel : ℕ} {lines : List U16String}
    (hrun : run text otherSeparators nextMargin maxWidth forceSplit fuel split = some lines) :
    ∃ last, IsSplit text otherSeparators nextMargin maxWidth forceSplit last ∧
      last.cur = text.length ∧ lines = last.lines ++
        if last.start < text.length then [nextMargin ++ text.drop last.start] else [] := by
  induction fuel generalizing split with
  | zero => cases hrun
  | succ fuel ih =>
    rw [run] at hrun
    by_cases hcur : split.cur < text.length
    · rw [if_pos hcur] at hrun
      exact ih (hsplit.step hmargin hcur).1 hrun
    · rw [if_neg hcur] at hrun
      exact ⟨split, hsplit, le_antisymm hsplit.cur_le (not_lt.mp hcur), (Option.some.inj hrun).symm⟩

theorem IsSplit.isCutInto (hsplit : IsSplit text otherSeparators nextMargin maxWidth forceSplit split)
    (hlines : split.lines = [] → nextMargin = []) :
    IsCutInto text nextMargin (split.lines ++
      if split.start < text.length then [nextMargin ++ text.drop split.start] else []) := by
  obtain ⟨pieces, htext, hspaces, hpieces⟩ := hsplit.cut
  split_ifs with hrest
  · refine ⟨pieces ++ [(text.drop split.start, [])], ?_, fun piece hpiece ↦ ?_, ?_⟩
    · rw [List.flatMap_append, ← htext, List.flatMap_singleton, List.append_nil,
        List.take_append_drop]
    · rcases List.mem_append.mp hpiece with hpiece | hpiece
      · exact hspaces piece hpiece
      · rw [List.mem_singleton.mp hpiece]
        exact fun _ h ↦ absurd h List.not_mem_nil
    · rw [List.map_append, List.map_singleton, withMargin_concat, ← hpieces]
      split_ifs with hnone
      · rw [hnone] at hpieces
        rw [hlines hpieces]
      · rfl
  · rw [List.append_nil]
    rw [List.take_of_length_le (not_lt.mp hrest)] at htext
    exact ⟨pieces, htext, hspaces, hpieces⟩

end LineSplit

/-- Nothing is lost if and only if it fits in a line, the margin does not fit or is empty, the cuts
are forced, or there is a possible cut after its first character. -/
theorem splitsLines_iff (text otherSeparators nextMargin : U16String) (maxWidth : ℕ) (forceSplit : Bool) :
    SplitsLines text otherSeparators nextMargin maxWidth forceSplit ↔
      text.length ≤ maxWidth ∨ maxWidth ≤ nextMargin.length ∨ nextMargin = [] ∨ forceSplit = true ∨
        HasCut text otherSeparators := by
  have hwhole : IsCutInto text nextMargin [text] :=
    ⟨[(text, [])], by simp, by simp, rfl⟩
  by_cases hshort : text.length ≤ maxWidth ∨ maxWidth ≤ nextMargin.length
  · refine iff_of_true ⟨0, [text], if_pos hshort, hwhole, fun _ hmargin line hline ↦ ?_⟩
      (or_assoc.mp (Or.inl hshort))
    rw [List.mem_singleton.mp hline]
    exact hshort.resolve_right (not_le.mpr hmargin)
  have hsize := not_or.mp hshort
  rw [← or_assoc, or_iff_right hshort]
  have hstart : LineSplit.IsSplit text otherSeparators nextMargin maxWidth forceSplit ⟨[], 0, 0, 0, 0⟩ :=
    ⟨⟨[], rfl, fun _ h ↦ absurd h List.not_mem_nil, rfl⟩, rfl, le_rfl, le_rfl, Nat.zero_le _,
      fun _ ↦ ⟨fun _ h ↦ absurd h List.not_mem_nil, Nat.zero_le _⟩,
      fun _ ↦ ⟨rfl, List.not_mem_nil, fun _ _ hlt ↦ absurd hlt (Nat.not_lt_zero _),
        fun hlt ↦ absurd hlt (Nat.not_lt_zero _)⟩,
      fun hlt ↦ absurd hlt (lt_irrefl 0), fun h ↦ absurd rfl h⟩
  have hmargin := not_le.mp hsize.2
  constructor
  · rintro ⟨fuel, lines, hlines, ⟨pieces, htext, -, hpieces⟩, -⟩
    by_contra hnone
    rw [not_or, not_or, Bool.not_eq_true] at hnone
    obtain ⟨hne, hforce, hcut⟩ := hnone
    obtain ⟨last, hlast, -, rfl⟩ := hstart.of_run hmargin ((if_neg hshort).symm.trans hlines)
    have hnil : last.lines = [] := by
      by_contra hcause
      rcases hlast.cause hcause with h | h
      · exact Bool.false_ne_true (hforce.symm.trans h)
      · exact hcut h
    rw [hnil, (hlast.uncut hnil).1, if_pos (by omega), List.nil_append, List.drop_zero] at hpieces
    cases pieces with
    | nil => exact List.cons_ne_nil _ _ hpieces
    | cons first rest =>
      have hfirst : nextMargin ++ text = first.1 := (List.cons.inj hpieces).1
      have hlength := congrArg List.length htext
      rw [List.flatMap_cons, ← hfirst] at hlength
      simp only [List.length_append] at hlength
      exact hne (List.length_eq_zero_iff.mp (by omega))
  · intro hcondition
    obtain ⟨lines, hrun⟩ := hstart.exists_run hmargin (Nat.lt_succ_self _)
    obtain ⟨last, hlast, hcur, rfl⟩ := hstart.of_run hmargin hrun
    refine ⟨_, _, (if_neg hshort).trans hrun, hlast.isCutInto fun hnil ↦ ?_,
      fun hforce _ line hline ↦ ?_⟩
    · obtain ⟨-, hfeed, hpassed, hlate⟩ := hlast.uncut hnil
      obtain ⟨heol, hforce⟩ := hlate (by omega)
      rw [hcur, List.take_length] at hfeed
      rcases hcondition with hempty | hforced | hfound | ⟨index, hpos, hlt, hmay⟩
      · exact hempty
      · exact absurd (hforce.symm.trans hforced) Bool.false_ne_true
      · exact absurd hfound hfeed
      · have hbefore := hpassed index hpos (by omega) hmay
        omega
    · rcases List.mem_append.mp hline with hline | hline
      · exact (hlast.width hforce).1 line hline
      · have hwidth := (hlast.width hforce).2
        split_ifs at hline with hrest
        · rw [List.mem_singleton.mp hline, List.length_append, List.length_drop]
          have hnotNil : last.lines ≠ [] := fun hnil ↦ by
            have hlate := ((hlast.uncut hnil).2.2.2 (by omega)).2
            exact Bool.false_ne_true (hlate.symm.trans hforce)
          rw [hlast.marginLength, if_neg hnotNil] at hwidth
          omega
        · exact absurd hline List.not_mem_nil

/-- A word without any cut gets the margin. -/
theorem not_splitsLines_of_long_word :
    ¬ ∀ text otherSeparators nextMargin maxWidth forceSplit,
      SplitsLines text otherSeparators nextMargin maxWidth forceSplit := by
  intro hall
  have hcondition := (splitsLines_iff [0x41, 0x41, 0x41] [] [0x20] 2 false).mp (hall _ _ _ _ _)
  rcases hcondition with h | h | h | h | h | ⟨index, hpos, hlt, hmay⟩
  · exact absurd h (by decide)
  · exact absurd h (by decide)
  · exact absurd h (by decide)
  · exact absurd h (by decide)
  · exact absurd h (by decide)
  · have hnever : ∀ index < 3, 0 < index → mayEnd [0x41, 0x41, 0x41] [] 0 index = false := by decide
    exact Bool.false_ne_true ((hnever index hlt hpos).symm.trans hmay)

end U16String

end TSDuck
