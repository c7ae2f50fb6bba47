import TSDuck.Mpeg.AVCParser
import TSDuck.Mpeg.BitStream
import TSDuck.Mpeg.EncapsulationRoundTrip
import TSDuck.Mpeg.MPEChecksums
import TSDuck.Mpeg.PCRBitrate
import TSDuck.Mpeg.PacketTimestamps
import TSDuck.Mpeg.TSPacketQueue
import TSDuck.Mpeg.VideoUnits
import TSDuck.Psi.DescriptorChunks
import TSDuck.Psi.DuplicatePackets
import TSDuck.Psi.EITStream
import TSDuck.Psi.EITXml
import TSDuck.Psi.PAT
import TSDuck.Psi.PMT
import TSDuck.Psi.PacketCount
import TSDuck.Psi.SDT
import TSDuck.Psi.ScheduleOrder
import TSDuck.Psi.SectionAcceptance
import TSDuck.Psi.SectionFlush
import TSDuck.Psi.TableAttributes
import TSDuck.Psi.TableXml
import TSDuck.Psi.TransportRoundTrip
import TSDuck.Psi.TruncatedSections
import TSDuck.Scte35.RMSpliceOutput
import TSDuck.Scte35.SpliceInformationXml
import TSDuck.Scte35.SpliceInjectTiming
import TSDuck.Scte35.SpliceInsertStatus
import TSDuck.Scte35.SpliceSegmentationXml
import TSDuck.T2MI.T2MIContinuity
import TSDuck.Text.DVBString
import TSDuck.Text.DisplayWidth
import TSDuck.Text.EnumMap
import TSDuck.Text.FormatterColumns
import TSDuck.Text.HexaFormat
import TSDuck.Text.ParserPosition
import TSDuck.Text.StringLists
import TSDuck.Json.JsonPrinter
import TSDuck.Tlv.Serializer
import TSDuck.Crypto.CipherChaining
import TSDuck.Crypto.DVBCSA2
import TSDuck.Tsp.InputStuffing
import TSDuck.Tsp.JointTermination
import TSDuck.Tsp.PluginChain
import TSDuck.Tsp.RingNode
import TSDuck.Switch.EventCausality
import TSDuck.Switch.InputExecutor
import TSDuck.Plugins.DataInject
import TSDuck.Plugins.Duplicate
import TSDuck.Plugins.Limit
import TSDuck.Plugins.Merge
import TSDuck.Plugins.TimeRef
import TSDuck.Tools.Compare
import TSDuck.Tools.Resync
import TSDuck.Tools.Stuff
import TSDuck.Teletext.TeletextDemux
