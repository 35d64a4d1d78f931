import CanOpen.Foundation.Exec
import CanOpen.Foundation.LittleEndian
import CanOpen.Foundation.BoundedVec
import CanOpen.Foundation.Loop
import CanOpen.Foundation.Trace
import CanOpen.Foundation.Relational
import CanOpen.Foundation.BitSearch
import CanOpen.Foundation.BinaryPolynomial
import CanOpen.Foundation.BitErrors
import CanOpen.Foundation.Listing
import CanOpen.Foundation.SortedMap
import CanOpen.Foundation.Text
import CanOpen.Foundation.Utf8
import CanOpen.Foundation.CheckedSum
import CanOpen.Types
import CanOpen.Datatypes
import CanOpen.Encoding
import CanOpen.ObjectDictionary
import CanOpen.Sdo.Codec
import CanOpen.Sdo.Server
import CanOpen.Sdo.Effect
import CanOpen.Sdo.Confirmation
import CanOpen.Sdo.Client
import CanOpen.Sdo.Exchange
import CanOpen.Sdo.Write
import CanOpen.Sdo.Read
import CanOpen.Sdo.History
import CanOpen.Sdo.Lossy
import CanOpen.Lss.Frames
import CanOpen.Lss.Slave
import CanOpen.Lss.Fastscan
import CanOpen.Lss.Scan
import CanOpen.Lss.Answers
import CanOpen.Lss.Recording
import CanOpen.Lss.Commissioning
import CanOpen.Lss.Identity
import CanOpen.Lss.Selective
import CanOpen.Nmt
import CanOpen.Emcy
import CanOpen.Sync
import CanOpen.Pdo
import CanOpen.Pdo.Acceptance
import CanOpen.Node.Node
import CanOpen.Node.Receive
import CanOpen.Node.Traffic
import CanOpen.Node.Operations
import CanOpen.Node.Effects
import CanOpen.Node.Adoption
import CanOpen.Node.Assignment
import CanOpen.Node.Identity
import CanOpen.Node.Reset
import CanOpen.Standard
import CanOpen.Node.ErrorField
import CanOpen.Node.ErrorHistory
import CanOpen.Sdo.Segments
import CanOpen.Node.Isolation
import CanOpen.Node.Gating
import CanOpen.Node.PdoExchange
import CanOpen.Node.Secrecy
import CanOpen.Sdo.Superseded
import CanOpen.Sdo.Responses
import CanOpen.Sdo.SegmentedRead
import CanOpen.Sdo.Block
import CanOpen.Sdo.FrameKinds
import CanOpen.Sdo.BlockTransfer
import CanOpen.Sdo.BlockWriting
import CanOpen.Sdo.Checksum
import CanOpen.Sdo.BitErrors
import CanOpen.Sdo.Segmenting
import CanOpen.Sdo.ClientWrite
import CanOpen.Sdo.Expedited
import CanOpen.Sdo.AbortCause
import CanOpen.Node.PdoParameters
import CanOpen.Node.TransmitPdos
import CanOpen.Node.Transmission
import CanOpen.Node.Reconfiguration
import CanOpen.Node.Producers
import CanOpen.Node.Lifecycle
import CanOpen.Foundation.Broadcast
import CanOpen.Foundation.Fairness
import CanOpen.Host.HeartbeatMonitor
import CanOpen.Host.Eds
import CanOpen.Host.Parsing
import CanOpen.Cli.Arguments
import CanOpen.Cli.Monitor
import CanOpen.Host.Integers
import CanOpen.Host.DictionaryView
import CanOpen.Host.Layout
import CanOpen.Host.VisibleStrings
import CanOpen.Host.Transport
import CanOpen.Foundation.Numerals
import CanOpen.Foundation.Tokens
import CanOpen.Foundation.Grammar
import CanOpen.Host.RustSource
import CanOpen.Host.Codegen
import CanOpen.Network.Line
import CanOpen.Network.Sessions
import CanOpen.Network.Liveness
import CanOpen.Network.Supervision
import CanOpen.Network.BringUp
import CanOpen.Network.ConnectionSet
import CanOpen.Cli.Commands
