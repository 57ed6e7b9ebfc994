import AsComponents.AcceptRequests
import AsComponents.Accepting
import AsComponents.Algorithms
import AsComponents.Begins
import AsComponents.Buffers
import AsComponents.Checked
import AsComponents.Cleanup
import AsComponents.ClientAgreement
import AsComponents.ClientClosing
import AsComponents.ClientConnections
import AsComponents.ClientConsistency
import AsComponents.ClientEvents
import AsComponents.ClientFailedWrites
import AsComponents.ClientFailures
import AsComponents.ClientHeaders
import AsComponents.ClientInvariant
import AsComponents.ClientParts
import AsComponents.ClientReads
import AsComponents.ClientReceive
import AsComponents.ClientReceptions
import AsComponents.ClientRecordStates
import AsComponents.ClientRecords
import AsComponents.ClientReference
import AsComponents.ClientRefinement
import AsComponents.ClientRequests
import AsComponents.ClientRules
import AsComponents.ClientRun
import AsComponents.ClientSections
import AsComponents.ClientSend
import AsComponents.ClientSending
import AsComponents.ClientState
import AsComponents.ClientStreams
import AsComponents.ClientTables
import AsComponents.ClientTracking
import AsComponents.ClientTransitions
import AsComponents.Closes
import AsComponents.ClosureRequests
import AsComponents.Completing
import AsComponents.ConnectionModel
import AsComponents.Consistency
import AsComponents.Counts
import AsComponents.Critical
import AsComponents.Deadlock
import AsComponents.Encoding
import AsComponents.EncodingBuffers
import AsComponents.EncodingCalls
import AsComponents.EncodingLimits
import AsComponents.EncodingRecords
import AsComponents.EncodingSimulation
import AsComponents.Environment
import AsComponents.ExtractContent
import AsComponents.Extraction
import AsComponents.FcgiRequest
import AsComponents.GetValues
import AsComponents.IdManager
import AsComponents.IdManagerCalls
import AsComponents.InterfaceRules
import AsComponents.Interference
import AsComponents.Invariant
import AsComponents.LockUse
import AsComponents.Locking
import AsComponents.ManagementExchange
import AsComponents.ManagementRecords
import AsComponents.ManagementRequests
import AsComponents.Moves
import AsComponents.NameValue
import AsComponents.Objects
import AsComponents.Output
import AsComponents.Partition
import AsComponents.PartitionBuffers
import AsComponents.PartitionCalls
import AsComponents.Program
import AsComponents.Protocol
import AsComponents.Races
import AsComponents.Reachability
import AsComponents.Reading
import AsComponents.ReceivedBytes
import AsComponents.ReceivedRecords
import AsComponents.ReceivedRequests
import AsComponents.ReceivedSections
import AsComponents.Receiving
import AsComponents.Reception
import AsComponents.RecordStatus
import AsComponents.Rejections
import AsComponents.RequestAssembly
import AsComponents.RequestData
import AsComponents.RequestIds
import AsComponents.RequestRecords
import AsComponents.RequestSteps
import AsComponents.Responses
import AsComponents.Rests
import AsComponents.Rounds
import AsComponents.Run
import AsComponents.ScatterGather
import AsComponents.Sections
import AsComponents.SentRequests
import AsComponents.ServerInterface
import AsComponents.Signals
import AsComponents.SocketFunctions
import AsComponents.System
import AsComponents.Tables
import AsComponents.Timeouts
import AsComponents.Traces
import AsComponents.Uninterrupted
import AsComponents.Wakeups
import AsComponents.Wires
