import TSDuck.Mpeg.PCRAnalyzer
import Mathlib.Algebra.BigOperators.Ring.Finset
import Mathlib.Algebra.Order.BigOperators.Group.Finset

/-!
# Arithmetic of the bitrates

The states of the analyzer with exact arithmetic satisfy `Sound`: what a PID has accumulated is part
of what the stream has accumulated, and the packets of all PIDs are packets of the stream.

`WithinWords` is the property of a run that nothing overflows and that the bitrates are the exact
quotients, and `Bounded` the condition on the packets under which it holds: the greatest values that
the analyzer computes, with exact arithmetic, are words and the averages are bitrates.
-/

namespace TSDuck

namespace PCRAnalyzer

structure Part (an : PCRAnalyzer) (ps : PIDAnalysis) : Prop where
  counted : 0 < ps.tsPktCnt
  last : ps.lastPcrPacket ≤ an.tsPktCnt
  sum188 : ps.tsBitrate188 ≤ an.tsBitrate188
  sum204 : ps.tsBitrate204 ≤ an.tsBitrate204
  measures : ps.tsBitrateCnt ≤ an.tsBitrateCnt

def totalCount (an : PCRAnalyzer) : ℕ :=
  ∑ pid ∈ Finset.range pidMax, an.packetCount pid

/-- What each PID has accumulated is part of what the stream has. -/
structure Sound (an : PCRAnalyzer) (others : ℕ) : Prop where
  part : ∀ pid ps, an.pids pid = some ps → pid < pidMax ∧ Part an ps
  sums : an.tsBitrate188 ≤ an.tsBitrate204
  total : an.totalCount + others ≤ an.tsPktCnt

/-- Whatever is accumulated only grows. -/
structure Grows (an next : PCRAnalyzer) : Prop where
  packets : an.tsPktCnt ≤ next.tsPktCnt
  sum188 : an.tsBitrate188 ≤ next.tsBitrate188
  sum204 : an.tsBitrate204 ≤ next.tsBitrate204
  measures : an.tsBitrateCnt ≤ next.tsBitrateCnt
  counts : ∀ pid, an.packetCount pid ≤ next.packetCount pid

theorem Grows.refl (an : PCRAnalyzer) : Grows an an :=
  ⟨le_refl _, le_refl _, le_refl _, le_refl _, fun _ ↦ le_refl _⟩

theorem Grows.trans {first second third : PCRAnalyzer} (hfirst : Grows first second)
    (hsecond : Grows second third) : Grows first third :=
  ⟨hfirst.packets.trans hsecond.packets, hfirst.sum188.trans hsecond.sum188,
    hfirst.sum204.trans hsecond.sum204, hfirst.measures.trans hsecond.measures,
    fun pid ↦ (hfirst.counts pid).trans (hsecond.counts pid)⟩

section SetPid

variable {an : PCRAnalyzer} {pid : ℕ} {ps : PIDAnalysis}

theorem pids_setPid : (an.setPid pid ps).pids pid = some ps :=
  Function.update_self _ _ _

theorem pids_setPid_of_ne {other : ℕ} (hother : other ≠ pid) :
    (an.setPid pid ps).pids other = an.pids other :=
  Function.update_of_ne hother _ _

theorem packetCount_setPid (an : PCRAnalyzer) (pid : ℕ) (ps : PIDAnalysis) (other : ℕ) :
    (an.setPid pid ps).packetCount other =
      if other = pid then ps.tsPktCnt else an.packetCount other := by
  unfold packetCount
  by_cases hother : other = pid
  · rw [hother, pids_setPid, if_pos rfl, Option.map_some, Option.getD_some]
  · rw [pids_setPid_of_ne hother, if_neg hother]

theorem tsPktCnt_analysis (an : PCRAnalyzer) (pid : ℕ) :
    (an.analysis pid).tsPktCnt = an.packetCount pid := by
  unfold analysis packetCount
  cases an.pids pid <;> rfl

theorem totalCount_setPid (an : PCRAnalyzer) (hpid : pid < pidMax) (ps : PIDAnalysis) :
    (an.setPid pid ps).totalCount + an.packetCount pid = an.totalCount + ps.tsPktCnt := by
  have hmem : pid ∈ Finset.range pidMax := Finset.mem_range.mpr hpid
  have hrest : ∑ other ∈ (Finset.range pidMax).erase pid, (an.setPid pid ps).packetCount other =
      ∑ other ∈ (Finset.range pidMax).erase pid, an.packetCount other := by
    apply Finset.sum_congr rfl
    intro other hother
    rw [packetCount_setPid, if_neg (Finset.ne_of_mem_erase hother)]
  have hown : (an.setPid pid ps).packetCount pid = ps.tsPktCnt := by
    rw [packetCount_setPid, if_pos rfl]
  unfold totalCount
  rw [← Finset.add_sum_erase _ _ hmem, hrest, hown, ← Finset.add_sum_erase _ an.packetCount hmem]
  omega

end SetPid

/-! ### Steps with exact arithmetic -/

section Steps

variable (settings : PCRSettings) {an : PCRAnalyzer} {others : ℕ}

theorem Sound.analysis (han : Sound an others) (pid : ℕ) :
    (an.analysis pid).lastPcrPacket ≤ an.tsPktCnt ∧
      (an.analysis pid).tsBitrate188 ≤ an.tsBitrate188 ∧
      (an.analysis pid).tsBitrate204 ≤ an.tsBitrate204 ∧
      (an.analysis pid).tsBitrateCnt ≤ an.tsBitrateCnt := by
  unfold PCRAnalyzer.analysis
  cases hps : an.pids pid with
  | none => exact ⟨Nat.zero_le _, Nat.zero_le _, Nat.zero_le _, Nat.zero_le _⟩
  | some ps =>
    obtain ⟨-, hpart⟩ := han.part pid ps hps
    exact ⟨hpart.last, hpart.sum188, hpart.sum204, hpart.measures⟩

theorem Sound.setPid (han : Sound an others) {pid : ℕ} (hpid : pid < pidMax) {ps : PIDAnalysis}
    (hps : Part an ps) {fewer : ℕ} (hcount : ps.tsPktCnt + fewer ≤ an.packetCount pid + others) :
    Sound (an.setPid pid ps) fewer := by
  refine ⟨fun other found hfound ↦ ?_, han.sums, ?_⟩
  · by_cases hother : other = pid
    · subst hother
      obtain rfl := Option.some.inj (pids_setPid.symm.trans hfound)
      exact ⟨hpid, hps.counted, hps.last, hps.sum188, hps.sum204, hps.measures⟩
    · rw [pids_setPid_of_ne hother] at hfound
      obtain ⟨hrange, hpart⟩ := han.part other found hfound
      exact ⟨hrange, hpart.counted, hpart.last, hpart.sum188, hpart.sum204, hpart.measures⟩
  · have htotal := totalCount_setPid an hpid ps
    have hbefore := han.total
    show (an.setPid pid ps).totalCount + fewer ≤ an.tsPktCnt
    omega

theorem grows_setPid {pid : ℕ} {ps : PIDAnalysis} (hcount : an.packetCount pid ≤ ps.tsPktCnt) :
    Grows an (an.setPid pid ps) := by
  refine ⟨le_refl _, le_refl _, le_refl _, le_refl _, fun other ↦ ?_⟩
  rw [packetCount_setPid]
  split_ifs with hother
  · exact hother ▸ hcount
  · exact le_refl _

theorem Sound.countPacket (han : Sound an others) :
    Sound (an.countPacket .exact) (others + 1) := by
  refine ⟨fun pid ps hps ↦ ?_, han.sums, Nat.succ_le_succ han.total⟩
  obtain ⟨hrange, hpart⟩ := han.part pid ps hps
  exact ⟨hrange, hpart.counted, hpart.last.trans (Nat.le_succ _), hpart.sum188, hpart.sum204,
    hpart.measures⟩

theorem grows_countPacket (an : PCRAnalyzer) : Grows an (an.countPacket .exact) :=
  ⟨Nat.le_succ _, le_refl _, le_refl _, le_refl _, fun _ ↦ le_refl _⟩

theorem packetCount_processDiscontinuity (an : PCRAnalyzer) (pid : ℕ) :
    an.processDiscontinuity.packetCount pid = an.packetCount pid := by
  unfold packetCount processDiscontinuity
  dsimp only
  cases an.pids pid <;> rfl

theorem Sound.processDiscontinuity (han : Sound an others) :
    Sound an.processDiscontinuity others := by
  refine ⟨fun pid ps hps ↦ ?_, han.sums, ?_⟩
  · obtain ⟨found, hfound, rfl⟩ := Option.map_eq_some_iff.mp hps
    obtain ⟨hrange, hpart⟩ := han.part pid found hfound
    exact ⟨hrange, hpart.counted, hpart.last, hpart.sum188, hpart.sum204, hpart.measures⟩
  · have hsame : an.processDiscontinuity.totalCount = an.totalCount :=
      Finset.sum_congr rfl fun pid _ ↦ packetCount_processDiscontinuity an pid
    rw [hsame]
    exact han.total

theorem grows_processDiscontinuity (an : PCRAnalyzer) : Grows an an.processDiscontinuity :=
  ⟨le_refl _, le_refl _, le_refl _, le_refl _,
    fun pid ↦ Nat.le_of_eq (packetCount_processDiscontinuity an pid).symm⟩

theorem Sound.countPid (han : Sound an (others + 1)) (pkt : TSPacket) :
    Sound (an.countPid .exact settings pkt) others ∧ Grows an (an.countPid .exact settings pkt) ∧
      (an.countPid .exact settings pkt).packetCount pkt.getPID = an.packetCount pkt.getPID + 1 := by
  have hpid := pkt.getPID_lt
  obtain ⟨hlast, h188, h204, hmeasures⟩ := han.analysis pkt.getPID
  have hcount := tsPktCnt_analysis an pkt.getPID
  have hset : ∀ ps, Part an ps → ps.tsPktCnt = (an.analysis pkt.getPID).tsPktCnt + 1 →
      Sound (an.setPid pkt.getPID ps) others ∧ Grows an (an.setPid pkt.getPID ps) ∧
        (an.setPid pkt.getPID ps).packetCount pkt.getPID = an.packetCount pkt.getPID + 1 := by
    intro ps hpart hnext
    refine ⟨han.setPid hpid hpart (by omega), grows_setPid (by omega), ?_⟩
    rw [packetCount_setPid, if_pos rfl, hnext, hcount]
  have hsucc : 0 < (an.analysis pkt.getPID).tsPktCnt + 1 := Nat.succ_pos _
  unfold PCRAnalyzer.countPid
  dsimp only
  split_ifs
  · exact hset _ ⟨hsucc, hlast, h188, h204, hmeasures⟩ rfl
  · obtain ⟨hsound, hgrows, hown⟩ :=
      hset { an.analysis pkt.getPID with
        tsPktCnt := (an.analysis pkt.getPID).tsPktCnt + 1, curContinuity := pkt.getCC }
        ⟨hsucc, hlast, h188, h204, hmeasures⟩ rfl
    exact ⟨hsound.processDiscontinuity, hgrows.trans (grows_processDiscontinuity _),
      (packetCount_processDiscontinuity _ _).trans hown⟩
  · exact hset _ ⟨hsucc, hlast, h188, h204, hmeasures⟩ rfl

theorem rate_mono (gap cycles : ℕ) :
    rate .exact gap pktSize cycles ≤ rate .exact gap pktRsSize cycles := by
  apply Nat.div_le_div_right
  show gap * systemClockFreq * 188 * 8 ≤ gap * systemClockFreq * 204 * 8
  omega

theorem Sound.addRate (han : Sound an others) {pid : ℕ} (hcounted : 0 < an.packetCount pid)
    (hpid : pid < pidMax) (pcr : ℕ) :
    Sound (an.addRate .exact settings pid pcr) others ∧
      Grows an (an.addRate .exact settings pid pcr) := by
  obtain ⟨hlast, h188, h204, hmeasures⟩ := han.analysis pid
  have hcount := tsPktCnt_analysis an pid
  have hmono := rate_mono (an.tsPktCnt - (an.analysis pid).lastPcrPacket)
    (pcr - (an.analysis pid).lastPcrValue)
  have hsums := han.sums
  have hnext : ∀ other, (an.addRate .exact settings pid pcr).packetCount other =
      an.packetCount other := by
    intro other
    refine (packetCount_setPid an pid _ other).trans ?_
    split_ifs with hother
    · rw [hother]
      exact hcount
    · rfl
  refine ⟨⟨fun other found hfound ↦ ?_, Nat.add_le_add hsums hmono, ?_⟩,
    ⟨le_refl _, Nat.le_add_right _ _, Nat.le_add_right _ _, Nat.le_add_right _ _,
      fun other ↦ Nat.le_of_eq (hnext other).symm⟩⟩
  · by_cases hother : other = pid
    · subst hother
      obtain rfl := Option.some.inj (pids_setPid.symm.trans hfound)
      exact ⟨hpid, by rw [hcount]; exact hcounted, hlast, Nat.add_le_add_right h188 _,
        Nat.add_le_add_right h204 _, Nat.add_le_add_right hmeasures 1⟩
    · obtain ⟨hrange, hpart⟩ := han.part other found ((pids_setPid_of_ne hother).symm.trans hfound)
      exact ⟨hrange, hpart.counted, hpart.last, hpart.sum188.trans (Nat.le_add_right _ _),
        hpart.sum204.trans (Nat.le_add_right _ _), hpart.measures.trans (Nat.le_add_right _ _)⟩
  · have hsame : (an.addRate .exact settings pid pcr).totalCount = an.totalCount :=
      Finset.sum_congr rfl fun other _ ↦ hnext other
    rw [hsame]
    exact han.total

theorem Sound.saveClock (han : Sound an others) {pid : ℕ} (hcounted : 0 < an.packetCount pid)
    (hpid : pid < pidMax) (pcr : ℕ) :
    Sound (an.saveClock pid pcr) others ∧ Grows an (an.saveClock pid pcr) := by
  obtain ⟨-, h188, h204, hmeasures⟩ := han.analysis pid
  have hcount := tsPktCnt_analysis an pid
  have hfirst : 0 < (an.analysis pid).tsPktCnt := hcount ▸ hcounted
  unfold PCRAnalyzer.saveClock
  dsimp only
  split_ifs
  · have hset : ∀ ps, Part an ps → ps.tsPktCnt = (an.analysis pid).tsPktCnt →
        Sound (an.setPid pid ps) others ∧ Grows an (an.setPid pid ps) := by
      intro ps hpart hsame
      exact ⟨han.setPid hpid hpart (by omega), grows_setPid (by omega)⟩
    exact hset _ ⟨hfirst, le_refl _, h188, h204, hmeasures⟩ rfl
  · exact ⟨han, Grows.refl an⟩

theorem Sound.processClock (han : Sound an others) {pid : ℕ} (hcounted : 0 < an.packetCount pid)
    (hpid : pid < pidMax) (pcr : ℕ) :
    Sound (an.processClock .exact settings pid pcr) others ∧
      Grows an (an.processClock .exact settings pid pcr) := by
  unfold PCRAnalyzer.processClock
  split_ifs
  · obtain ⟨hsound, hgrows⟩ := han.addRate settings hcounted hpid pcr
    obtain ⟨hsaved, hmore⟩ := hsound.saveClock (hcounted.trans_le (hgrows.counts pid)) hpid pcr
    exact ⟨hsaved, hgrows.trans hmore⟩
  · exact han.saveClock hcounted hpid pcr

theorem Sound.feedPacket (han : Sound an 0) (pkt : TSPacket) :
    Sound (an.feedPacket .exact settings pkt) 0 ∧ Grows an (an.feedPacket .exact settings pkt) := by
  have hfirst := grows_countPacket an
  unfold PCRAnalyzer.feedPacket
  split_ifs with hanalyzed
  · obtain ⟨hsound, hgrows, hown⟩ := han.countPacket.countPid settings pkt
    dsimp only
    split
    · exact ⟨hsound, hfirst.trans hgrows⟩
    · obtain ⟨hclock, hmore⟩ := hsound.processClock settings
        (by rw [hown]; exact Nat.succ_pos _) pkt.getPID_lt ‹ℕ›
      exact ⟨hclock, hfirst.trans (hgrows.trans hmore)⟩
  · have hsound := han.countPacket.processDiscontinuity
    have htotal := hsound.total
    exact ⟨⟨hsound.part, hsound.sums, by omega⟩, hfirst.trans (grows_processDiscontinuity _)⟩

end Steps

/-! ### Steps with words -/

/-- Nothing that a packet makes the analyzer compute overflows. -/
def FeedFits (settings : PCRSettings) (an : PCRAnalyzer) (pkt : TSPacket) : Prop :=
  ∀ value ∈ feedValues settings an pkt, value < wordMax

section Words

variable (settings : PCRSettings) {an : PCRAnalyzer} {others : ℕ}

theorem word_words {value : ℕ} (hvalue : value < wordMax) :
    Arithmetic.words.word value = Arithmetic.exact.word value :=
  Nat.mod_eq_of_lt hvalue

theorem diff_words {left right : ℕ} (hright : right ≤ left) (hleft : left < wordMax) :
    Arithmetic.words.diff left right = Arithmetic.exact.diff left right := by
  show (left + wordMax - right) % wordMax = left - right
  rw [Nat.sub_add_comm hright, Nat.add_mod_right, Nat.mod_eq_of_lt (by omega)]

theorem countPacket_words (hfits : an.tsPktCnt + 1 < wordMax) :
    an.countPacket .words = an.countPacket .exact := by
  rw [countPacket, countPacket, word_words hfits]

theorem countPid_words {pkt : TSPacket} (hfits : (an.analysis pkt.getPID).tsPktCnt + 1 < wordMax) :
    an.countPid .words settings pkt = an.countPid .exact settings pkt := by
  rw [countPid, countPid, word_words hfits]

theorem rate_words {gap size : ℕ} (hsize : 0 < size) (cycles : ℕ)
    (hfits : gap * systemClockFreq * size * 8 < wordMax) :
    rate .words gap size cycles = rate .exact gap size cycles := by
  have hsecond : gap * systemClockFreq * size < wordMax :=
    (Nat.le_mul_of_pos_right _ (by decide)).trans_lt hfits
  have hfirst : gap * systemClockFreq < wordMax :=
    (Nat.le_mul_of_pos_right _ hsize).trans_lt hsecond
  have hexact : ∀ value, Arithmetic.exact.word value = value := fun _ ↦ rfl
  rw [rate, rate, word_words hfirst, hexact, word_words hsecond, hexact, word_words hfits]

theorem addRate_words (han : Sound an others) (hcount : an.tsPktCnt < wordMax) {pid pcr : ℕ}
    (hfits : ∀ value ∈ an.rateValues pid pcr, value < wordMax) :
    an.addRate .words settings pid pcr = an.addRate .exact settings pid pcr := by
  obtain ⟨hlast, -⟩ := han.analysis pid
  have hgap := diff_words hlast hcount
  have hdiff : Arithmetic.exact.diff an.tsPktCnt (an.analysis pid).lastPcrPacket =
      an.tsPktCnt - (an.analysis pid).lastPcrPacket := rfl
  simp only [rateValues, List.forall_mem_cons, List.not_mem_nil, false_implies, implies_true,
    and_true] at hfits
  obtain ⟨hproduct188, hproduct204, hown188, hown204, hownCount, h188, h204, hmeasures⟩ := hfits
  have hrate188 := rate_words (by decide : 0 < pktSize) (pcr - (an.analysis pid).lastPcrValue)
    hproduct188
  have hrate204 := rate_words (by decide : 0 < pktRsSize) (pcr - (an.analysis pid).lastPcrValue)
    hproduct204
  unfold addRate
  dsimp only
  rw [hgap, hdiff, hrate188, hrate204, word_words hown188, word_words hown204, word_words hownCount,
    word_words h188, word_words h204, word_words hmeasures]

theorem tsPktCnt_countPid (an : PCRAnalyzer) (pkt : TSPacket) :
    (an.countPid .exact settings pkt).tsPktCnt = an.tsPktCnt := by
  unfold countPid
  dsimp only
  split_ifs <;> rfl

theorem feedPacket_words (han : Sound an 0) {pkt : TSPacket} (hfits : FeedFits settings an pkt) :
    an.feedPacket .words settings pkt = an.feedPacket .exact settings pkt := by
  have hstream : an.tsPktCnt + 1 < wordMax := hfits _ List.mem_cons_self
  have hrest : ∀ value ∈ (feedValues settings an pkt).tail, value < wordMax :=
    fun value hvalue ↦ hfits value (List.mem_of_mem_tail hvalue)
  unfold feedPacket
  rw [countPacket_words hstream]
  split_ifs with hanalyzed
  · rw [feedValues, List.tail_cons, if_pos hanalyzed] at hrest
    have hown : ((an.countPacket .exact).analysis pkt.getPID).tsPktCnt + 1 < wordMax :=
      hrest _ List.mem_cons_self
    dsimp only
    rw [countPid_words settings hown]
    cases hclock : clockValue settings pkt with
    | none => rfl
    | some pcr =>
      obtain ⟨hsound, -, -⟩ := han.countPacket.countPid settings pkt
      have hcounted : ((an.countPacket .exact).countPid .exact settings pkt).tsPktCnt < wordMax := by
        rw [tsPktCnt_countPid]
        exact hstream
      dsimp only
      unfold processClock
      split_ifs with hmeasures
      · rw [hclock] at hrest
        dsimp only at hrest
        rw [if_pos (show (counted settings an pkt).Measures pkt.getPID pcr from hmeasures)] at hrest
        rw [addRate_words settings hsound hcounted
          (List.forall_mem_cons.mp hrest).2]
      · rfl
  · rfl

end Words

/-! ### Runs -/

section Runs

variable (settings : PCRSettings)

theorem analyze_snoc (arithmetic : Arithmetic) (passed : List TSPacket) (pkt : TSPacket) :
    analyze arithmetic settings (passed ++ [pkt]) =
      (analyze arithmetic settings passed).feedPacket arithmetic settings pkt := by
  rw [analyze, List.foldl_append, analyze]
  rfl

theorem sound_start : Sound start 0 := by
  refine ⟨fun pid ps hps ↦ absurd hps (by simp [start]), le_refl _, ?_⟩
  have hzero : start.totalCount = 0 := Finset.sum_eq_zero fun _ _ ↦ rfl
  rw [hzero]
  exact le_refl _

theorem sound_analyze (packets : List TSPacket) : Sound (analyze .exact settings packets) 0 := by
  induction packets using List.reverseRecOn with
  | nil => exact sound_start
  | append_singleton passed pkt ih =>
    rw [analyze_snoc]
    exact (ih.feedPacket settings pkt).1

theorem grows_analyze {passed packets : List TSPacket} (hpassed : passed <+: packets) :
    Grows (analyze .exact settings passed) (analyze .exact settings packets) := by
  obtain ⟨rest, rfl⟩ := hpassed
  induction rest using List.reverseRecOn with
  | nil =>
    rw [List.append_nil]
    exact Grows.refl _
  | append_singleton rest pkt ih =>
    rw [← List.append_assoc, analyze_snoc]
    exact ih.trans ((sound_analyze settings (passed ++ rest)).feedPacket settings pkt).2

theorem tsPktCnt_feedPacket (an : PCRAnalyzer) (pkt : TSPacket) :
    (an.feedPacket .exact settings pkt).tsPktCnt = an.tsPktCnt + 1 := by
  have hsave : ∀ (state : PCRAnalyzer) (pid pcr : ℕ),
      (state.saveClock pid pcr).tsPktCnt = state.tsPktCnt := by
    intro state pid pcr
    unfold saveClock
    dsimp only
    split_ifs <;> rfl
  unfold feedPacket
  split_ifs with hanalyzed
  · dsimp only
    split
    · exact tsPktCnt_countPid settings _ pkt
    · unfold processClock
      split_ifs
      · exact (hsave _ _ _).trans (tsPktCnt_countPid settings _ pkt)
      · exact (hsave _ _ _).trans (tsPktCnt_countPid settings _ pkt)
  · rfl

theorem tsPktCnt_analyze (packets : List TSPacket) :
    (analyze .exact settings packets).tsPktCnt = packets.length := by
  induction packets using List.reverseRecOn with
  | nil => rfl
  | append_singleton passed pkt ih =>
    rw [analyze_snoc, tsPktCnt_feedPacket, ih, List.length_append, List.length_singleton]

theorem analyze_words {packets : List TSPacket} (hfits : ∀ passed pkt, passed ++ [pkt] <+: packets →
      FeedFits settings (analyze .exact settings passed) pkt) {passed : List TSPacket}
    (hpassed : passed <+: packets) :
    analyze .words settings passed = analyze .exact settings passed := by
  induction passed using List.reverseRecOn with
  | nil => rfl
  | append_singleton passed pkt ih =>
    rw [analyze_snoc, analyze_snoc, ih ((List.prefix_append _ _).trans hpassed),
      feedPacket_words settings (sound_analyze settings passed) (hfits passed pkt hpassed)]

/-- The bitrates are exact quotients. -/
structure ResultsExact (an : PCRAnalyzer) : Prop where
  products188 : ∀ pid, an.tsBitrate188 * an.packetCount pid < wordMax
  products204 : ∀ pid, an.tsBitrate204 * an.packetCount pid < wordMax
  total : an.tsBitrateCnt * an.tsPktCnt < wordMax
  stream188 : an.bitrate188 = an.tsBitrate188 / an.tsBitrateCnt
  stream204 : an.bitrate204 = an.tsBitrate204 / an.tsBitrateCnt
  pid188 : ∀ pid, an.pidBitrate188 pid =
    an.tsBitrate188 * an.packetCount pid / (an.tsBitrateCnt * an.tsPktCnt)
  pid204 : ∀ pid, an.pidBitrate204 pid =
    an.tsBitrate204 * an.packetCount pid / (an.tsBitrateCnt * an.tsPktCnt)
  sum188 : ∑ pid ∈ Finset.range pidMax, an.pidBitrate188 pid ≤ an.bitrate188

/-- Along a run nothing overflows. -/
structure WithinWords (packets : List TSPacket) : Prop where
  feed : ∀ passed pkt, passed ++ [pkt] <+: packets →
    FeedFits settings (analyze .words settings passed) pkt
  results : ∀ passed, passed <+: packets → ResultsExact (analyze .words settings passed)

/-- The number of packets of a measured bitrate. -/
def measuredGap (an : PCRAnalyzer) (pkt : TSPacket) : Option ℕ :=
  if Analyzed settings pkt then
    (clockValue settings pkt).bind fun pcr ↦
      if (counted settings an pkt).Measures pkt.getPID pcr then
        some (an.tsPktCnt + 1 - ((counted settings an pkt).analysis pkt.getPID).lastPcrPacket)
      else none
  else none

/-- The greatest values of a run with exact arithmetic are words, and the averages are bitrates. -/
structure Bounded (packets : List TSPacket) : Prop where
  length : packets.length < wordMax
  gaps : ∀ passed pkt, passed ++ [pkt] <+: packets →
    ∀ gap, measuredGap settings (analyze .exact settings passed) pkt = some gap →
      gap * systemClockFreq * pktRsSize * 8 < wordMax
  averages : ∀ passed, passed <+: packets →
    (analyze .exact settings passed).tsBitrate204 / (analyze .exact settings passed).tsBitrateCnt <
      bitRateMax
  products : ∀ pid, (analyze .exact settings packets).tsBitrate204 *
    (analyze .exact settings packets).packetCount pid < wordMax
  counts : (analyze .exact settings packets).tsBitrateCnt * packets.length < wordMax

end Runs

/-! ### Results of a state -/

section Results

variable {an : PCRAnalyzer}

theorem average_eq {sum count : ℕ} (hbitrate : sum / count < bitRateMax) :
    average sum count = sum / count := by
  unfold average
  split_ifs with hzero
  · rw [hzero, Nat.div_zero]
  · exact Nat.mod_eq_of_lt hbitrate

theorem average_lt (sum count : ℕ) : average sum count < bitRateMax := by
  unfold average
  split_ifs
  · decide
  · exact Nat.mod_lt _ (by decide)

theorem share_eq {sum count packets total : ℕ} (hpackets : packets ≤ total)
    (hproduct : sum * packets < wordMax) (htotal : count * total < wordMax)
    (hbitrate : sum / count < bitRateMax) :
    share .words sum count packets total = sum * packets / (count * total) := by
  unfold share
  split_ifs with hzero
  · rcases hzero with hcount | hnone
    · rw [hcount, Nat.zero_mul, Nat.div_zero]
    · rw [hnone, Nat.mul_zero, Nat.div_zero]
  · rw [not_or] at hzero
    have hless : sum * packets / (count * total) ≤ sum / count := by
      calc
        sum * packets / (count * total) ≤ sum * total / (count * total) :=
          Nat.div_le_div_right (Nat.mul_le_mul_left sum hpackets)
        _ = sum / count := Nat.mul_div_mul_right sum count (Nat.pos_of_ne_zero hzero.2)
    rw [word_words hproduct, word_words htotal]
    exact Nat.mod_eq_of_lt (hless.trans_lt hbitrate)

theorem Sound.packetCount_le (han : Sound an 0) (pid : ℕ) : an.packetCount pid ≤ an.tsPktCnt := by
  by_cases hpid : pid < pidMax
  · have hmem : an.packetCount pid ≤ an.totalCount :=
      Finset.single_le_sum (fun _ _ ↦ Nat.zero_le _) (Finset.mem_range.mpr hpid)
    have htotal := han.total
    omega
  · have hnone : an.pids pid = none := by
      cases hps : an.pids pid with
      | none => rfl
      | some ps => exact absurd (han.part pid ps hps).1 hpid
    rw [packetCount, hnone]
    exact Nat.zero_le _

theorem sum_div_le (values : ℕ → ℕ) (divisor : ℕ) (indices : Finset ℕ) :
    ∑ index ∈ indices, values index / divisor ≤ (∑ index ∈ indices, values index) / divisor := by
  rcases Nat.eq_zero_or_pos divisor with rfl | hpos
  · simp
  · rw [Nat.le_div_iff_mul_le hpos, Finset.sum_mul]
    exact Finset.sum_le_sum fun index _ ↦ Nat.div_mul_le_self _ _

theorem Sound.pidBitrate_eq (han : Sound an 0) (sum pid : ℕ) : an.pidBitrate sum pid =
    share .words sum an.tsBitrateCnt (an.packetCount pid) an.tsPktCnt := by
  unfold pidBitrate
  split_ifs with hsome
  · rfl
  · have hzero : an.packetCount pid = 0 := by
      unfold packetCount
      cases hps : an.pids pid with
      | none => rfl
      | some ps =>
        exact absurd ⟨(han.part pid ps hps).1, by rw [hps, Option.isSome_some]⟩ hsome
    rw [hzero, share]
    split_ifs
    · rfl
    · rw [Nat.mul_zero, word_words (by decide)]
      show 0 = 0 / _ % bitRateMax
      rw [Nat.zero_div, Nat.zero_mod]

theorem Sound.totalCount_le (han : Sound an 0) : an.totalCount ≤ an.tsPktCnt := by
  have htotal := han.total
  rwa [Nat.add_zero] at htotal

theorem Sound.sum_shares_le (han : Sound an 0) (sum count : ℕ) :
    ∑ pid ∈ Finset.range pidMax, sum * an.packetCount pid / (count * an.tsPktCnt) ≤ sum / count := by
  have hcounts := han.totalCount_le
  calc
    ∑ pid ∈ Finset.range pidMax, sum * an.packetCount pid / (count * an.tsPktCnt)
      ≤ (∑ pid ∈ Finset.range pidMax, sum * an.packetCount pid) / (count * an.tsPktCnt) :=
        sum_div_le _ _ _
    _ = sum * an.totalCount / (count * an.tsPktCnt) := by rw [totalCount, Finset.mul_sum]
    _ ≤ sum * an.tsPktCnt / (count * an.tsPktCnt) :=
        Nat.div_le_div_right (Nat.mul_le_mul_left _ hcounts)
    _ ≤ sum / count := by
        rcases Nat.eq_zero_or_pos an.tsPktCnt with hzero | hpos
        · rw [hzero, Nat.mul_zero, Nat.zero_div]
          exact Nat.zero_le _
        · exact Nat.le_of_eq (Nat.mul_div_mul_right _ _ hpos)

/-- The results are exact when the products are words. -/
theorem Sound.resultsExact_iff (han : Sound an 0) : ResultsExact an ↔
    (∀ pid, an.tsBitrate204 * an.packetCount pid < wordMax) ∧
      an.tsBitrateCnt * an.tsPktCnt < wordMax ∧
      an.tsBitrate204 / an.tsBitrateCnt < bitRateMax := by
  constructor
  · intro hresults
    refine ⟨hresults.products204, hresults.total, ?_⟩
    rw [← hresults.stream204]
    exact average_lt _ _
  · rintro ⟨hproducts, htotal, haverage⟩
    have hless : ∀ count, an.tsBitrate188 * count ≤ an.tsBitrate204 * count :=
      fun count ↦ Nat.mul_le_mul_right count han.sums
    have haverage188 : an.tsBitrate188 / an.tsBitrateCnt < bitRateMax :=
      (Nat.div_le_div_right han.sums).trans_lt haverage
    have hpid188 : ∀ pid, an.pidBitrate188 pid =
        an.tsBitrate188 * an.packetCount pid / (an.tsBitrateCnt * an.tsPktCnt) := by
      intro pid
      rw [pidBitrate188, han.pidBitrate_eq]
      exact share_eq (han.packetCount_le pid) ((hless _).trans_lt (hproducts pid)) htotal haverage188
    refine ⟨fun pid ↦ (hless _).trans_lt (hproducts pid), hproducts, htotal,
      average_eq haverage188, average_eq haverage, hpid188, fun pid ↦ ?_, ?_⟩
    · rw [pidBitrate204, han.pidBitrate_eq]
      exact share_eq (han.packetCount_le pid) (hproducts pid) htotal haverage
    · have hsum : ∑ pid ∈ Finset.range pidMax, an.pidBitrate188 pid = ∑ pid ∈ Finset.range pidMax,
            an.tsBitrate188 * an.packetCount pid / (an.tsBitrateCnt * an.tsPktCnt) :=
        Finset.sum_congr rfl fun pid _ ↦ hpid188 pid
      rw [hsum, bitrate188, average_eq haverage188]
      exact han.sum_shares_le _ _

end Results

/-! ### The condition of a run -/

section Condition

variable (settings : PCRSettings)

theorem mem_feedValues_of_measuredGap {an : PCRAnalyzer} {pkt : TSPacket} {gap : ℕ}
    (hgap : measuredGap settings an pkt = some gap) :
    gap * systemClockFreq * pktRsSize * 8 ∈ feedValues settings an pkt := by
  unfold measuredGap at hgap
  split_ifs at hgap with hanalyzed
  obtain ⟨pcr, hclock, hsome⟩ := Option.bind_eq_some_iff.mp hgap
  split_ifs at hsome with hmeasures
  obtain rfl := Option.some.inj hsome
  have hcount : (counted settings an pkt).tsPktCnt = an.tsPktCnt + 1 :=
    tsPktCnt_countPid settings _ pkt
  rw [feedValues, if_pos hanalyzed, hclock]
  dsimp only
  rw [if_pos hmeasures, ← hcount]
  simp [rateValues]

theorem rateValues_le {an : PCRAnalyzer} (han : Sound an 0) {pid pcr : ℕ} {value : ℕ}
    (hvalue : value ∈ an.rateValues pid pcr) {gap : ℕ}
    (hgap : gap = an.tsPktCnt - (an.analysis pid).lastPcrPacket) :
    value ≤ gap * systemClockFreq * pktRsSize * 8 ∨
      value ≤ (an.addRate .exact settings pid pcr).tsBitrate188 ∨
      value ≤ (an.addRate .exact settings pid pcr).tsBitrate204 ∨
      value ≤ (an.addRate .exact settings pid pcr).tsBitrateCnt := by
  obtain ⟨-, h188, h204, hmeasures⟩ := han.analysis pid
  subst hgap
  simp only [rateValues, List.mem_cons, List.not_mem_nil, or_false] at hvalue
  rcases hvalue with rfl | rfl | rfl | rfl | rfl | rfl | rfl | rfl
  · left
    unfold pktSize pktRsSize
    omega
  · exact Or.inl (le_refl _)
  · exact Or.inr (Or.inl (Nat.add_le_add_right h188 _))
  · exact Or.inr (Or.inr (Or.inl (Nat.add_le_add_right h204 _)))
  · exact Or.inr (Or.inr (Or.inr (Nat.add_le_add_right hmeasures 1)))
  · exact Or.inr (Or.inl (le_refl _))
  · exact Or.inr (Or.inr (Or.inl (le_refl _)))
  · exact Or.inr (Or.inr (Or.inr (le_refl _)))

theorem Bounded.feedFits {packets : List TSPacket} (hbounded : Bounded settings packets)
    {passed : List TSPacket} {pkt : TSPacket} (hpassed : passed ++ [pkt] <+: packets) :
    FeedFits settings (analyze .exact settings passed) pkt := by
  have hlength : passed.length + 1 ≤ packets.length := by
    have hle := hpassed.length_le
    rwa [List.length_append, List.length_singleton] at hle
  have hshort := hbounded.length
  have hsound := sound_analyze settings passed
  have htotal := tsPktCnt_analyze settings passed
  obtain ⟨hcounted, hgrows, hown⟩ := hsound.countPacket.countPid settings pkt
  have hcountedTotal : (counted settings (analyze .exact settings passed) pkt).tsPktCnt =
      passed.length + 1 := by
    rw [← htotal]
    exact tsPktCnt_countPid settings _ pkt
  intro value hvalue
  unfold feedValues at hvalue
  rcases List.mem_cons.mp hvalue with rfl | hvalue
  · omega
  split_ifs at hvalue with hanalyzed
  · rcases List.mem_cons.mp hvalue with rfl | hvalue
    · have hle := hcounted.packetCount_le pkt.getPID
      have hcount := tsPktCnt_analysis (analyze .exact settings passed) pkt.getPID
      have hsame : (PCRAnalyzer.countPacket .exact (analyze .exact settings passed)).packetCount
          pkt.getPID = (analyze .exact settings passed).packetCount pkt.getPID := rfl
      unfold counted at hcountedTotal
      omega
    · cases hclock : clockValue settings pkt with
      | none =>
        rw [hclock] at hvalue
        exact absurd hvalue List.not_mem_nil
      | some pcr =>
        rw [hclock] at hvalue
        dsimp only at hvalue
        split_ifs at hvalue with hmeasures
        · have hfirst : 0 < (counted settings (analyze .exact settings passed) pkt).packetCount
              pkt.getPID := by
            rw [counted, hown]
            exact Nat.succ_pos _
          obtain ⟨hadded, hmore⟩ := hcounted.addRate settings hfirst pkt.getPID_lt pcr
          obtain ⟨-, hsaved⟩ :=
            hadded.saveClock (hfirst.trans_le (hmore.counts _)) pkt.getPID_lt pcr
          have hfed : (analyze .exact settings passed).feedPacket .exact settings pkt =
              ((counted settings (analyze .exact settings passed) pkt).addRate .exact settings
                pkt.getPID pcr).saveClock pkt.getPID pcr := by
            rw [feedPacket, if_pos hanalyzed, hclock]
            dsimp only
            rw [processClock, counted,
              if_pos (show (PCRAnalyzer.countPid .exact settings _ pkt).Measures _ _ from hmeasures)]
          have hfinal := grows_analyze settings hpassed
          rw [analyze_snoc, hfed] at hfinal
          have hlast := hsaved.trans hfinal
          have hpid : 0 < (analyze .exact settings packets).packetCount pkt.getPID :=
            hfirst.trans_le ((hmore.trans hlast).counts _)
          have hsum204 : (analyze .exact settings packets).tsBitrate204 < wordMax :=
            (Nat.le_mul_of_pos_right _ hpid).trans_lt (hbounded.products pkt.getPID)
          have hcounts : (analyze .exact settings packets).tsBitrateCnt < wordMax :=
            (Nat.le_mul_of_pos_right _ (by omega)).trans_lt hbounded.counts
          have hgap : measuredGap settings (analyze .exact settings passed) pkt =
              some ((counted settings (analyze .exact settings passed) pkt).tsPktCnt -
                ((counted settings (analyze .exact settings passed) pkt).analysis
                  pkt.getPID).lastPcrPacket) := by
            rw [measuredGap, if_pos hanalyzed, hclock, Option.bind_some, if_pos hmeasures,
              hcountedTotal, htotal]
          rcases rateValues_le settings hcounted hvalue rfl with hle | hle | hle | hle
          · exact hle.trans_lt (hbounded.gaps passed pkt hpassed _ hgap)
          · exact (hle.trans (hadded.sums.trans hlast.sum204)).trans_lt hsum204
          · exact (hle.trans hlast.sum204).trans_lt hsum204
          · exact (hle.trans hlast.measures).trans_lt hcounts
        · exact absurd hvalue List.not_mem_nil
  · exact absurd hvalue List.not_mem_nil

theorem WithinWords.analyze_eq {packets : List TSPacket} (hwithin : WithinWords settings packets)
    {passed : List TSPacket} (hpassed : passed <+: packets) :
    analyze .words settings passed = analyze .exact settings passed := by
  induction passed using List.reverseRecOn with
  | nil => rfl
  | append_singleton passed pkt ih =>
    have hbefore := ih ((List.prefix_append _ _).trans hpassed)
    have hfits := hwithin.feed passed pkt hpassed
    rw [hbefore] at hfits
    rw [analyze_snoc, analyze_snoc, hbefore,
      feedPacket_words settings (sound_analyze settings passed) hfits]

/-- Nothing overflows and the bitrates are exact if and only if the run is bounded. -/
theorem withinWords_iff_bounded (packets : List TSPacket) :
    WithinWords settings packets ↔ Bounded settings packets := by
  constructor
  · intro hwithin
    have hexact : ∀ passed, passed <+: packets → ResultsExact (analyze .exact settings passed) := by
      intro passed hpassed
      rw [← hwithin.analyze_eq settings hpassed]
      exact hwithin.results passed hpassed
    have hfits : ∀ passed pkt, passed ++ [pkt] <+: packets →
        FeedFits settings (analyze .exact settings passed) pkt := by
      intro passed pkt hpassed
      rw [← hwithin.analyze_eq settings ((List.prefix_append _ _).trans hpassed)]
      exact hwithin.feed passed pkt hpassed
    obtain ⟨hproducts, htotal, -⟩ :=
      (sound_analyze settings packets).resultsExact_iff.mp (hexact packets List.prefix_rfl)
    rw [tsPktCnt_analyze] at htotal
    refine ⟨?_, fun passed pkt hpassed gap hgap ↦ ?_, fun passed hpassed ↦ ?_, hproducts, htotal⟩
    · rcases List.eq_nil_or_concat packets with rfl | ⟨passed, pkt, rfl⟩
      · decide
      · have hhead := hfits passed pkt (by rw [List.concat_eq_append])
        have hlast : (analyze .exact settings passed).tsPktCnt + 1 < wordMax :=
          hhead _ List.mem_cons_self
        rwa [tsPktCnt_analyze, ← List.length_concat] at hlast
    · exact hfits passed pkt hpassed _ (mem_feedValues_of_measuredGap settings hgap)
    · exact ((sound_analyze settings passed).resultsExact_iff.mp (hexact passed hpassed)).2.2
  · intro hbounded
    have heq : ∀ passed, passed <+: packets →
        analyze .words settings passed = analyze .exact settings passed :=
      fun passed hpassed ↦
        analyze_words settings (fun _ _ hstep ↦ hbounded.feedFits settings hstep) hpassed
    refine ⟨fun passed pkt hpassed ↦ ?_, fun passed hpassed ↦ ?_⟩
    · rw [heq passed ((List.prefix_append _ _).trans hpassed)]
      exact hbounded.feedFits settings hpassed
    · rw [heq passed hpassed]
      have hgrows := grows_analyze settings hpassed
      refine (sound_analyze settings passed).resultsExact_iff.mpr
        ⟨fun pid ↦ ?_, ?_, hbounded.averages passed hpassed⟩
      · exact (Nat.mul_le_mul hgrows.sum204 (hgrows.counts pid)).trans_lt (hbounded.products pid)
      · rw [tsPktCnt_analyze]
        exact (Nat.mul_le_mul hgrows.measures hpassed.length_le).trans_lt hbounded.counts

end Condition

def defaultSettings : PCRSettings where
  useDts := false
  ignoreErrors := false
  minPid := 1
  minPcr := 64

def clockPacket (reference : UInt8) : TSPacket where
  bytes := [0x47, 0x01, 0x00, 0x20, 183, 0x10, 0, 0, 0, 0, 0x7E, reference] ++ List.replicate 176 0xFF
  length_eq := rfl

/-- Consecutive clock references give a bitrate above 32 bits. -/
theorem not_withinWords_consecutive_references :
    ¬ WithinWords defaultSettings [clockPacket 1, clockPacket 2] := by
  intro hwithin
  have hstream := (hwithin.results _ List.prefix_rfl).stream188
  revert hstream
  decide

end PCRAnalyzer

end TSDuck
