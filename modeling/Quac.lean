import Quac.Lib.BigEndian
import Quac.Lib.BoundedQueue
import Quac.Lib.Slabs
import Quac.Lib.Transition
import Quac.Coding
import Quac.Cid
import Quac.Packet
import Quac.DcidRouting
import Quac.ConnectionAffinity
import Quac.EngineTile
import Quac.Identifiers
import Quac.Ranges
import Quac.SendData
import Quac.Reassembly
import Quac.SendHalf
import Quac.RecvHalf
import Quac.Streams
import Quac.StreamAccess
import Quac.StreamTransmit
import Quac.Timers
import Quac.ProtoConnection
import Quac.ProtoEndpoint
import Quac.Bridge
import Quac.TileEngine
import Quac.EngineSteps
import Quac.StreamSignals
import Quac.EngineSettles
import Quac.PollRead
import Quac.App
import Quac.Tile
import Quac.HandleIsolation
import Quac.WriteIntegrity
import Quac.TimerSync
import Quac.Lifecycle
import Quac.SlotAgreement
import Quac.CellSteps
import Quac.TerminalSignal
import Quac.ReadableStreams
import Quac.ReceivePath
import Quac.ReadThrough
import Quac.Stranding
import Quac.StreamAccounts
import Quac.FrameAccounts
import Quac.CallAccounts
import Quac.TransmitAccounts
import Quac.PartySteps
import Quac.RemoteLimit
import Quac.BufferedBytes
import Quac.Lib.Tallies
import Quac.ReceiveCredit
import Quac.SendContents
import Quac.Lib.Registry
import Quac.StreamHalves
import Quac.ReceiveLedger
import Quac.StreamLink
import Quac.StreamDelivery
import Quac.StreamQueue
import Quac.StreamLimits
import Quac.LimitSoundness
import Quac.Lib.Membership
import Quac.Lib.WallClock
import Quac.AddressToken
import Quac.Writer
import Quac.LocalCids
import Quac.Backpressure
import Quac.PollBi
import Quac.StreamOpens
import Quac.OpenMatching
import Quac.Lib.Faults
import Quac.Lib.SortedMaps
import Quac.PacketSpaces
import Quac.Recovery
import Quac.FlightAccounts
import Quac.TransmitQueue
import Quac.PacketSocket
import Quac.ZerocopyRetention
import Quac.SendPath
import Quac.StreamSession
import Quac.StreamSchedule
import Quac.WriteNotify
import Quac.FailedReads
import Quac.Lib.Counting
import Quac.RemoteBooks
import Quac.RemoteCount
import Quac.FreshStart
import Quac.UnackedBuffers
import Quac.EarlyResend
import Quac.Coverage
import Quac.FinalSize
import Quac.Frames
import Quac.FrameCodec
import Quac.AckRanges
import Quac.PacketNumbers
import Quac.AckCodec
import Quac.OrderedAssembly
import Quac.AckFrequency
import Quac.CloseFrames
import Quac.Lib.Rings
import Quac.RemoteCids
import Quac.SkippedNumbers
import Quac.KeyDiscard
import Quac.Datagrams
import Quac.Migration
import Quac.Bandwidth
import Quac.Responses
import Quac.SentTail
import Quac.ChunkedWrite
