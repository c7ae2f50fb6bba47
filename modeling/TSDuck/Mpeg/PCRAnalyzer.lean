import TSDuck.Mpeg.AdaptationField
import Mathlib.Algebra.BigOperators.Group.Finset.Basic

/-!
# Bitrates from program clock references

A `PCRAnalyzer` reads the packets of a transport stream.

The analyzer is written over an `Arithmetic`: the code computes with 64-bit words (`words`), and
`exact` is the same analyzer with the natural numbers, which says what is computed as long as
nothing overflows.
-/

namespace TSDuck

/-- How sums, products and differences are computed. -/
structure Arithmetic where
  word : ℕ → ℕ
  diff : ℕ → ℕ → ℕ

def wordMax : ℕ := 2 ^ 64

def bitRateMax : ℕ := 2 ^ 32

def Arithmetic.words : Arithmetic where
  word value := value % wordMax
  diff left right := (left + wordMax - right) % wordMax

def Arithmetic.exact : Arithmetic where
  word value := value
  diff left right := left - right

def systemClockFreq : ℕ := 27000000

/-- Cycles of the system clock in one of a time stamp. -/
def systemClockSubfactor : ℕ := 300

def pktRsSize : ℕ := 204

/-- Analysis of one PID. -/
structure PIDAnalysis where
  tsPktCnt : ℕ
  curContinuity : UInt8
  lastPcrValue : ℕ
  lastPcrPacket : ℕ
  tsBitrate188 : ℕ
  tsBitrate204 : ℕ
  tsBitrateCnt : ℕ
  deriving DecidableEq

def PIDAnalysis.start : PIDAnalysis where
  tsPktCnt := 0
  curContinuity := 0
  lastPcrValue := 0
  lastPcrPacket := 0
  tsBitrate188 := 0
  tsBitrate204 := 0
  tsBitrateCnt := 0

/-- Parameters of an analyzer. -/
structure PCRSettings where
  useDts : Bool
  ignoreErrors : Bool
  minPid : ℕ
  minPcr : ℕ

/-- The state of an analyzer. -/
structure PCRAnalyzer where
  bitrateValid : Bool
  tsPktCnt : ℕ
  tsBitrate188 : ℕ
  tsBitrate204 : ℕ
  tsBitrateCnt : ℕ
  completedPids : ℕ
  pcrPids : ℕ
  pids : ℕ → Option PIDAnalysis

namespace PCRAnalyzer

def start : PCRAnalyzer where
  bitrateValid := false
  tsPktCnt := 0
  tsBitrate188 := 0
  tsBitrate204 := 0
  tsBitrateCnt := 0
  completedPids := 0
  pcrPids := 0
  pids _ := none

def analysis (an : PCRAnalyzer) (pid : ℕ) : PIDAnalysis :=
  (an.pids pid).getD PIDAnalysis.start

def setPid (an : PCRAnalyzer) (pid : ℕ) (ps : PIDAnalysis) : PCRAnalyzer :=
  { an with pids := Function.update an.pids pid (some ps) }

/-- No clock reference is valid any more. -/
def processDiscontinuity (an : PCRAnalyzer) : PCRAnalyzer :=
  { an with pids := fun pid ↦ (an.pids pid).map fun ps ↦ { ps with lastPcrValue := 0 } }

/-- The measure of the bitrate of the PID is broken. -/
def brokenRate (curContinuity : UInt8) (pkt : TSPacket) : Bool :=
  if pkt.getDiscontinuityIndicator then true
  else if pkt.hasPayload then
    pkt.getCC != curContinuity && pkt.getCC != (curContinuity + 1) &&& 0x0F
  else pkt.getCC != curContinuity

def clockValue (settings : PCRSettings) (pkt : TSPacket) : Option ℕ :=
  if settings.useDts then
    if pkt.hasDTS then some (pkt.getDTS * systemClockSubfactor) else none
  else if pkt.hasPCR then some pkt.getPCR else none

section Feed

variable (arithmetic : Arithmetic) (settings : PCRSettings)

def countPacket (an : PCRAnalyzer) : PCRAnalyzer :=
  { an with tsPktCnt := arithmetic.word (an.tsPktCnt + 1) }

def countPid (an : PCRAnalyzer) (pkt : TSPacket) : PCRAnalyzer :=
  let ps := an.analysis pkt.getPID
  let counted := { ps with tsPktCnt := arithmetic.word (ps.tsPktCnt + 1) }
  if settings.ignoreErrors then an.setPid pkt.getPID counted
  else
    let next := an.setPid pkt.getPID { counted with curContinuity := pkt.getCC }
    if counted.tsPktCnt ≠ 1 ∧ brokenRate ps.curContinuity pkt = true then next.processDiscontinuity
    else next

/-- The bitrate of some packets in some clock cycles. -/
def rate (gap size cycles : ℕ) : ℕ :=
  arithmetic.word (arithmetic.word (arithmetic.word (gap * systemClockFreq) * size) * 8) / cycles

/-- Accumulates the bitrate from the last clock value. -/
def addRate (an : PCRAnalyzer) (pid pcr : ℕ) : PCRAnalyzer :=
  let ps := an.analysis pid
  let gap := arithmetic.diff an.tsPktCnt ps.lastPcrPacket
  let rate188 := rate arithmetic gap pktSize (pcr - ps.lastPcrValue)
  let rate204 := rate arithmetic gap pktRsSize (pcr - ps.lastPcrValue)
  let measured : PIDAnalysis :=
    { ps with
      tsBitrate188 := arithmetic.word (ps.tsBitrate188 + rate188)
      tsBitrate204 := arithmetic.word (ps.tsBitrate204 + rate204)
      tsBitrateCnt := arithmetic.word (ps.tsBitrateCnt + 1) }
  let completed := measured.tsBitrateCnt = max 1 settings.minPcr
  { an.setPid pid measured with
    pcrPids := if measured.tsBitrateCnt = 1 then an.pcrPids + 1 else an.pcrPids
    tsBitrate188 := arithmetic.word (an.tsBitrate188 + rate188)
    tsBitrate204 := arithmetic.word (an.tsBitrate204 + rate204)
    tsBitrateCnt := arithmetic.word (an.tsBitrateCnt + 1)
    completedPids := if completed then an.completedPids + 1 else an.completedPids
    bitrateValid :=
      if completed then decide (max 1 settings.minPid ≤ an.completedPids + 1) else an.bitrateValid }

/-- A clock value follows the last one of a PID. -/
def Measures (an : PCRAnalyzer) (pid pcr : ℕ) : Prop :=
  (an.analysis pid).lastPcrValue ≠ 0 ∧ (an.analysis pid).lastPcrValue < pcr

instance (an : PCRAnalyzer) (pid pcr : ℕ) : Decidable (an.Measures pid pcr) :=
  inferInstanceAs (Decidable (_ ∧ _))

/-- Saves a clock value for the next measure, unless it is the last one. -/
def saveClock (an : PCRAnalyzer) (pid pcr : ℕ) : PCRAnalyzer :=
  let ps := an.analysis pid
  if ps.lastPcrValue ≠ pcr then
    an.setPid pid { ps with lastPcrValue := pcr, lastPcrPacket := an.tsPktCnt }
  else an

def processClock (an : PCRAnalyzer) (pid pcr : ℕ) : PCRAnalyzer :=
  (if an.Measures pid pcr then an.addRate arithmetic settings pid pcr else an).saveClock pid pcr

/-- The synchronization byte is valid, or ignored. -/
def Analyzed (pkt : TSPacket) : Prop :=
  settings.ignoreErrors = true ∨ pkt.hasValidSync = true

instance (pkt : TSPacket) : Decidable (Analyzed settings pkt) :=
  inferInstanceAs (Decidable (_ ∨ _))

def feedPacket (an : PCRAnalyzer) (pkt : TSPacket) : PCRAnalyzer :=
  if Analyzed settings pkt then
    let counted := (an.countPacket arithmetic).countPid arithmetic settings pkt
    match clockValue settings pkt with
    | none => counted
    | some pcr => counted.processClock arithmetic settings pkt.getPID pcr
  else (an.countPacket arithmetic).processDiscontinuity

def analyze (packets : List TSPacket) : PCRAnalyzer :=
  packets.foldl (feedPacket arithmetic settings) start

end Feed

def rateValues (an : PCRAnalyzer) (pid pcr : ℕ) : List ℕ :=
  let ps := an.analysis pid
  let gap := an.tsPktCnt - ps.lastPcrPacket
  let rate188 := rate .exact gap pktSize (pcr - ps.lastPcrValue)
  let rate204 := rate .exact gap pktRsSize (pcr - ps.lastPcrValue)
  [gap * systemClockFreq * pktSize * 8, gap * systemClockFreq * pktRsSize * 8,
    ps.tsBitrate188 + rate188, ps.tsBitrate204 + rate204, ps.tsBitrateCnt + 1,
    an.tsBitrate188 + rate188, an.tsBitrate204 + rate204, an.tsBitrateCnt + 1]

/-- The state in which a clock value is processed. -/
def counted (settings : PCRSettings) (an : PCRAnalyzer) (pkt : TSPacket) : PCRAnalyzer :=
  (an.countPacket .exact).countPid .exact settings pkt

def feedValues (settings : PCRSettings) (an : PCRAnalyzer) (pkt : TSPacket) : List ℕ :=
  (an.tsPktCnt + 1) ::
    if Analyzed settings pkt then
      ((an.analysis pkt.getPID).tsPktCnt + 1) ::
        match clockValue settings pkt with
        | none => []
        | some pcr =>
          if (counted settings an pkt).Measures pkt.getPID pcr then
            (counted settings an pkt).rateValues pkt.getPID pcr
          else []
    else []

def average (sum count : ℕ) : ℕ :=
  if count = 0 then 0 else sum / count % bitRateMax

def share (arithmetic : Arithmetic) (sum count packets total : ℕ) : ℕ :=
  if count = 0 ∨ total = 0 then 0
  else arithmetic.word (sum * packets) / arithmetic.word (count * total) % bitRateMax

def bitrate188 (an : PCRAnalyzer) : ℕ :=
  average an.tsBitrate188 an.tsBitrateCnt

def bitrate204 (an : PCRAnalyzer) : ℕ :=
  average an.tsBitrate204 an.tsBitrateCnt

def packetCount (an : PCRAnalyzer) (pid : ℕ) : ℕ :=
  ((an.pids pid).map PIDAnalysis.tsPktCnt).getD 0

def pidBitrate (an : PCRAnalyzer) (sum pid : ℕ) : ℕ :=
  if pid < pidMax ∧ (an.pids pid).isSome then
    share .words sum an.tsBitrateCnt (an.packetCount pid) an.tsPktCnt
  else 0

def pidBitrate188 (an : PCRAnalyzer) (pid : ℕ) : ℕ :=
  an.pidBitrate an.tsBitrate188 pid

def pidBitrate204 (an : PCRAnalyzer) (pid : ℕ) : ℕ :=
  an.pidBitrate an.tsBitrate204 pid

end PCRAnalyzer

end TSDuck
