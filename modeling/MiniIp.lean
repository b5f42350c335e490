import MiniIp.Guarantees.HeaderWindow
import MiniIp.Guarantees.PacketConservation
import MiniIp.Guarantees.PoolNeverDry
import MiniIp.Guarantees.AddressResolution
import MiniIp.Invariant.ClientFrame
import MiniIp.Invariant.ApplicationFrame
import MiniIp.Library.StopAndWait
import MiniIp.Invariant.Poll
import MiniIp.Invariant.FileServer
import MiniIp.Guarantees.TransferIntegrity
import MiniIp.Guarantees.TransferCompletion
import MiniIp.Guarantees.BroadcastAgreement
import MiniIp.Invariant.DhcpClient
import MiniIp.Invariant.DhcpOptions
import MiniIp.Invariant.Lease
import MiniIp.Guarantees.ConfigurationAgreement
import MiniIp.Guarantees.LeaseDuration
import MiniIp.Guarantees.LeaseExtension
import MiniIp.Guarantees.LostLease
import MiniIp.Invariant.ClientPairs
import MiniIp.Guarantees.ResidueIndependence
import MiniIp.Guarantees.RejectedPackets
import MiniIp.Invariant.Adapter
import MiniIp.Guarantees.TransmitRing
import MiniIp.Guarantees.ReceiveRing
import MiniIp.Guarantees.UdpQueues
import MiniIp.Guarantees.RepeatedDownloads
import MiniIp.Invariant.Handover
import MiniIp.Invariant.HandoverRun
import MiniIp.Invariant.Building
import MiniIp.Guarantees.StaleBytes
import MiniIp.Invariant.OptionGrammar
import MiniIp.Guarantees.OptionParser
import MiniIp.Invariant.Reception
import MiniIp.Invariant.Replies
import MiniIp.Invariant.Attempts
import MiniIp.Invariant.LeaseTimers
import MiniIp.Guarantees.ServerAnswers
import MiniIp.Guarantees.FreshBackoff
import MiniIp.Guarantees.Fragments
import MiniIp.Guarantees.DatagramWindow
import MiniIp.Invariant.Checksum
import MiniIp.Guarantees.EchoReply
import MiniIp.Guarantees.UdpRoundTrip
import MiniIp.Invariant.Steady
import MiniIp.Guarantees.BlockRollover
import MiniIp.Invariant.Renewal
import MiniIp.Guarantees.LeaseFreshness
import MiniIp.Guarantees.RequestedFile
import MiniIp.Guarantees.ReturnedBytes
import MiniIp.Guarantees.UdpChecksum
import MiniIp.Invariant.ArpFrame
import MiniIp.Guarantees.ArpReply
import MiniIp.Guarantees.ArpCache
import MiniIp.Invariant.Transcript
import MiniIp.Guarantees.ChosenServer
import MiniIp.Invariant.PollMarks
import MiniIp.Guarantees.HonestAcks
import MiniIp.Invariant.ArpLedger
import MiniIp.Invariant.ArpBypass
import MiniIp.Invariant.ArpQueue
import MiniIp.Invariant.ArpAllocation
import MiniIp.Guarantees.ArpOrder
import MiniIp.Invariant.Composition
import MiniIp.Invariant.ArpPoll
import MiniIp.Guarantees.BoundedResolution
import MiniIp.Guarantees.OverlappingMove
import MiniIp.Guarantees.OptionComparison
import MiniIp.Guarantees.BackoffArithmetic
import MiniIp.Guarantees.RetransmissionSchedule
import MiniIp.Library.Numerals
import MiniIp.Source.Text
import MiniIp.Invariant.AsciiDigits
import MiniIp.Guarantees.IpText
import MiniIp.Guarantees.MacText
import MiniIp.Source.Format
import MiniIp.Guarantees.FormatEnd
import MiniIp.Invariant.FormatOutput
import MiniIp.Guarantees.FormatTruncation
import MiniIp.Invariant.FormatNumber
import MiniIp.Guarantees.RenderedNumbers
import MiniIp.Library.Simulation
import MiniIp.Invariant.Translation
import MiniIp.Guarantees.ClockTranslation
import MiniIp.Invariant.Lifecycle
import MiniIp.Guarantees.LeaseLifecycle
import MiniIp.Guarantees.NetworkTask
import MiniIp.Guarantees.FormatMeaning
import MiniIp.Library.Spending
import MiniIp.Library.Network
import MiniIp.Invariant.Emission
import MiniIp.Guarantees.UnresolvedNetwork
import MiniIp.Guarantees.BoundedAnswers
import MiniIp.Guarantees.DistinctLeases
import MiniIp.Invariant.WireFormat
import MiniIp.Invariant.Idle
import MiniIp.Invariant.WireInvariant
import MiniIp.Invariant.WireRun
import MiniIp.Invariant.Forming
import MiniIp.Guarantees.WellFormedFrames
import MiniIp.Guarantees.AuthenticDatagrams
import MiniIp.Guarantees.ConfirmedSource
import MiniIp.Library.Lanes
import MiniIp.Invariant.Departures
import MiniIp.Invariant.Ordering
import MiniIp.Guarantees.DatagramOrder
