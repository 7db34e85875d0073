import DpcppTrace.Foundation.Bytes
import DpcppTrace.Foundation.Stream
import DpcppTrace.Foundation.Framing
import DpcppTrace.Foundation.Wire
import DpcppTrace.Foundation.ByteReader
import DpcppTrace.Foundation.FileSystem
import DpcppTrace.Foundation.PathResolution
import DpcppTrace.Foundation.LinkedSystem
import DpcppTrace.Foundation.UnlinkedSystem
import DpcppTrace.Foundation.Machine
import DpcppTrace.Foundation.Interleaving
import DpcppTrace.Foundation.Seccomp
import DpcppTrace.Foundation.Naming
import DpcppTrace.Foundation.Lines
import DpcppTrace.Foundation.Variables
import DpcppTrace.Foundation.Memory
import DpcppTrace.Foundation.MappedMemory
import DpcppTrace.Foundation.Placement
import DpcppTrace.Foundation.Dictionary
import DpcppTrace.Foundation.Tally
import DpcppTrace.Foundation.Slots
import DpcppTrace.Foundation.Sorting
import DpcppTrace.Foundation.Outcome
import DpcppTrace.Foundation.Effects
import DpcppTrace.Foundation.Interaction
import DpcppTrace.Foundation.Pattern
import DpcppTrace.Foundation.PacketFrame
import DpcppTrace.Foundation.ReplyStream
import DpcppTrace.Foundation.ShellWords
import DpcppTrace.Foundation.ShellMarks
import DpcppTrace.Foundation.ShellExpansion
import DpcppTrace.Foundation.ShellProbe
import DpcppTrace.Model.ApiCall
import DpcppTrace.Model.ApiCallWire
import DpcppTrace.Model.TraceFile
import DpcppTrace.Model.Archive
import DpcppTrace.Model.CollectArgs
import DpcppTrace.Model.PrettyPrinters
import DpcppTrace.Model.RecordCommand
import DpcppTrace.Model.Which
import DpcppTrace.Model.Options
import DpcppTrace.Model.PackCommand
import DpcppTrace.Model.PackCopies
import DpcppTrace.Model.ReplayCommand
import DpcppTrace.Model.PrintOnly
import DpcppTrace.Model.SelectBinary
import DpcppTrace.Model.Threads
import DpcppTrace.Model.PrintTrace
import DpcppTrace.Model.Pi
import DpcppTrace.Model.Recorder
import DpcppTrace.Model.DeviceBinary
import DpcppTrace.Model.DeviceBinaryWire
import DpcppTrace.Model.GraphDump
import DpcppTrace.Model.Replayer
import DpcppTrace.Model.RecordPlugin
import DpcppTrace.Model.ReplayThreads
import DpcppTrace.Model.TraceListing
import DpcppTrace.Model.PrintImages
import DpcppTrace.Model.GraphFile
import DpcppTrace.Model.PacketText
import DpcppTrace.Model.Debugger
import DpcppTrace.Model.GDBServerProtocol
import DpcppTrace.Model.DebugServer
import DpcppTrace.Model.HostDebugger
import DpcppTrace.Model.HostProcess
import DpcppTrace.Model.Tracer
import DpcppTrace.Model.TraceeMemory
import DpcppTrace.Model.TraceLoop
import DpcppTrace.Model.FileServing
import DpcppTrace.Soundness.TraceFile
import DpcppTrace.Soundness.Archive
import DpcppTrace.Soundness.SelectBinary
import DpcppTrace.Soundness.PrintedImages
import DpcppTrace.Soundness.Threads
import DpcppTrace.Soundness.ReplayEffects
import DpcppTrace.Soundness.Replay
import DpcppTrace.Soundness.ReplayRuns
import DpcppTrace.Soundness.ReplayHeap
import DpcppTrace.Soundness.ThreadedReplay
import DpcppTrace.Soundness.ReplayFootprint
import DpcppTrace.Soundness.ReplayOutputs
import DpcppTrace.Soundness.HandleQueries
import DpcppTrace.Soundness.InfoQuery
import DpcppTrace.Soundness.PacketText
import DpcppTrace.Soundness.Dispatch
import DpcppTrace.Soundness.ReplyFrame
import DpcppTrace.Soundness.Acknowledgement
import DpcppTrace.Soundness.ObjectTransfer
import DpcppTrace.Soundness.Segmentation
import DpcppTrace.Soundness.RegisterWrite
import DpcppTrace.Soundness.TextCodecs
import DpcppTrace.Soundness.UpperDigits
import DpcppTrace.Soundness.Breakpoints
import DpcppTrace.Soundness.ArgumentPrint
import DpcppTrace.Soundness.RecordedEnvironment
import DpcppTrace.Soundness.LaunchEnvironment
import DpcppTrace.Soundness.PrintedCommand
import DpcppTrace.Soundness.FileRedirect
import DpcppTrace.Soundness.PackRuns
import DpcppTrace.Soundness.PackedLaunch
import DpcppTrace.Soundness.PackedCopies
import DpcppTrace.Soundness.TracedCalls
import DpcppTrace.Soundness.FileNames
import DpcppTrace.Soundness.FileReplacement
import DpcppTrace.Soundness.TraceLoop
import DpcppTrace.Soundness.Reproducer
import DpcppTrace.Soundness.RecordedFiles
import DpcppTrace.Soundness.BufferTransfer
import DpcppTrace.Soundness.MemoryPackets
import DpcppTrace.Soundness.ThreadSelection
import DpcppTrace.Soundness.ThreadList
import DpcppTrace.Soundness.AuxvTransfer
import DpcppTrace.Soundness.RegisterRead
import DpcppTrace.Soundness.RegisterLayout
import DpcppTrace.Soundness.FileRead
import DpcppTrace.Soundness.RemoteCommands
import DpcppTrace.Soundness.RemoteHandlers
import DpcppTrace.Soundness.RemoteSession
import DpcppTrace.Soundness.FileFetch
import DpcppTrace.Soundness.ServerSafety
import DpcppTrace.Soundness.HostSafety
import DpcppTrace.Soundness.ArchiveBounds
import DpcppTrace.Soundness.ArchiveTruncation
import DpcppTrace.Soundness.ArchiveConfinement
import DpcppTrace.Soundness.ArchiveSystems
import DpcppTrace.Soundness.TraceTermination
import DpcppTrace.Soundness.ReplayExhausted
import DpcppTrace.Soundness.PrintOrder
import DpcppTrace.Soundness.PrintedRecording
import DpcppTrace.Soundness.PerformanceSummary
import DpcppTrace.Soundness.GraphEvents
import DpcppTrace.Soundness.GraphFile
import DpcppTrace.Soundness.ImageDescriptor
import DpcppTrace.Soundness.RecordOptions
import DpcppTrace.Soundness.OptionBounds
import DpcppTrace.Soundness.CommandSearch
