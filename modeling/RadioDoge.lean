import RadioDoge.Lib.Traced
import RadioDoge.Lib.SlotTable
import RadioDoge.Lib.Pieces
import RadioDoge.Lib.Elementwise
import RadioDoge.Lib.Collector
import RadioDoge.V3.Memory
import RadioDoge.V3.MultipartSend
import RadioDoge.V3.Reassembly
import RadioDoge.V3.Assembly
import RadioDoge.V3.Traffic
import RadioDoge.V3.RoundTrip
import RadioDoge.V3.Mixing
import RadioDoge.V3.ReassemblySafety
import RadioDoge.V3.Senders
import RadioDoge.V3.Addressing
import RadioDoge.Lib.Ledger
import RadioDoge.V3.RequestQueue
import RadioDoge.V3.Confirmations
import RadioDoge.Lib.FrameStream
import RadioDoge.Serdog.SerialPoll
import RadioDoge.V3.Gateway
import RadioDoge.V3.Node
import RadioDoge.V3.Paths
import RadioDoge.V3.Formats
import RadioDoge.V3.Mesh
import RadioDoge.V3.Deliveries
import RadioDoge.V3.Recognition
import RadioDoge.Arduino
import RadioDoge.HostPackets
import RadioDoge.Types
import RadioDoge.V3.WrappedCounters
import RadioDoge.Serdog.Command
import RadioDoge.Heltec.Firmware
import RadioDoge.Sharp.PacketHelper
import RadioDoge.Sharp.MultipartPacket
import RadioDoge.Sharp.Runtime
import RadioDoge.Serdog.Receive
import RadioDoge.Sharp.SerialPort
import RadioDoge.HostTransfer
import RadioDoge.V3.HostLayout
import RadioDoge.DogeTypes
import RadioDoge.Lib.LittleEndian
import RadioDoge.Sharp.Responses
import RadioDoge.Serdog.Utxos
import RadioDoge.Lib.GuardedBook
import RadioDoge.Sharp.Registration
import RadioDoge.UtxoTransfer
import RadioDoge.Sharp.AddressGuard
import RadioDoge.Sharp.Watchlist
import RadioDoge.Sharp.DogeMode
import RadioDoge.Sharp.PortData
import RadioDoge.Serdog.Registration
import RadioDoge.PinAgreement
import RadioDoge.Lib.CausalLog
import RadioDoge.V3.Rebroadcasts
import RadioDoge.Lib.WrappedSum
import RadioDoge.Serdog.CreateTransaction
import RadioDoge.Lib.Depot
import RadioDoge.Serdog.Spending
import RadioDoge.Serdog.UtxoCapacity
import RadioDoge.Serdog.Attribution
import RadioDoge.Sharp.SetupMode
import RadioDoge.TextMessage
import RadioDoge.Serdog.FileHelper
import RadioDoge.V3.GatewayFailures
import RadioDoge.V3.Answers
import RadioDoge.V3.HostFrames
import RadioDoge.V3.SerialOutput
import RadioDoge.V3.Dispatch
import RadioDoge.V3.MessageText
import RadioDoge.V3.Sessions
import RadioDoge.Serdog.SendCommand
import RadioDoge.V3.Waiting
import RadioDoge.V3.WholeText
import RadioDoge.Serdog.Delivery
import RadioDoge.Sharp.Recovery
import RadioDoge.V3.WebReplies
import RadioDoge.V3.BroadcastTypes
import RadioDoge.V3.Rejections
import RadioDoge.Lib.LoggedRun
import RadioDoge.Heltec.MainLoop
import RadioDoge.Heltec.Replies
import RadioDoge.OwnBytes
import RadioDoge.OwnPayload
import RadioDoge.V3.RadioCalls
import RadioDoge.V3.WebInterface
import RadioDoge.Lib.LimitedStore
import RadioDoge.V3.GatewayStorage
import RadioDoge.V3.TargetAddress
import RadioDoge.V3.MainLoop
import RadioDoge.V3.Silence
import RadioDoge.V3.Transmitting
import RadioDoge.V3.PendingAck
import RadioDoge.Sharp.RegistrationReplies
import RadioDoge.V3.SenderBuffers
import RadioDoge.Serdog.Outcomes
import RadioDoge.BalanceReply
import RadioDoge.AddressForms
import RadioDoge.Lib.Json
import RadioDoge.Lib.RingLog
import RadioDoge.V3.JsonEscape
import RadioDoge.V3.LogRing
import RadioDoge.Lib.Search
import RadioDoge.V3.CoreResponse
import RadioDoge.Lib.EagerLoad
import RadioDoge.V3.ConfigurationLoads
import RadioDoge.V3.InternetBridge
import RadioDoge.Lib.Numeral
import RadioDoge.Libdogecoin.Koinu
import RadioDoge.Lib.Wire
import RadioDoge.Libdogecoin.Tx
import RadioDoge.Libdogecoin.Transaction
import RadioDoge.Serdog.Payment
import RadioDoge.Lib.FallibleRun
import RadioDoge.Sharp.Serving
import RadioDoge.TransactionTransfer
import RadioDoge.V3.ConfigurationRuns
import RadioDoge.Lib.Radix
import RadioDoge.Libdogecoin.Base58
import RadioDoge.Libdogecoin.Addresses
import RadioDoge.Serdog.Payees
