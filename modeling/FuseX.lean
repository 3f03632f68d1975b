import FuseX.Gdb.Framing
import FuseX.Xfs.Chdir
import FuseX.Xfs.Handles
import FuseX.Xfs.HandleOwnership
import FuseX.Gdb.Handoff
import FuseX.Nic.Controller
import FuseX.Nic.Mailbox
import FuseX.Lib.Ring
import FuseX.W5100.Socket
import FuseX.W5100.TcpSend
import FuseX.W5100.UdpSend
import FuseX.W5100.Receive
import FuseX.Lib.Tree
import FuseX.Xfs.Fs
import FuseX.Xfs.Overlay
import FuseX.Xfs.OverlayView
import FuseX.Xfs.OverlayUnion
import FuseX.Xfs.OverlayNamespace
import FuseX.Http.Downloader
import FuseX.Http.Stream
import FuseX.Lib.Packed
import FuseX.Lib.Utf8
import FuseX.Engines.Utf8
import FuseX.PhantomTypist.Machine
import FuseX.PhantomTypist.Script
import FuseX.PhantomTypist.Performs
import FuseX.Lib.Reader
import FuseX.Engines.Cp
import FuseX.Engines.CpExact
import FuseX.Nic.Dns
import FuseX.Nic.DnsAnswers
import FuseX.Lib.Spacing
import FuseX.Rzx.Autosave
import FuseX.Rzx.AutosaveSpacing
import FuseX.Lib.Serial
import FuseX.Lib.Stuffing
import FuseX.If1.Rs232
import FuseX.If1.Rs232Sent
import FuseX.If1.Rs232Received
import FuseX.Lib.Tiling
import FuseX.Display.Rectangles
import FuseX.Engines.Utf8Decode
import FuseX.Engines.Utf8Fold
import FuseX.Spectranet.Config
import FuseX.Spectranet.ConfigPage
import FuseX.Spectranet.ConfigStore
import FuseX.Display.Agreement
import FuseX.Disk.Slot
import FuseX.Disk.Udi
import FuseX.Disk.UdiPack
import FuseX.Disk.UdiRoundTrip
import FuseX.Disk.Cells
import FuseX.Disk.Fdd
import FuseX.Disk.WdFdc
import FuseX.Disk.Sectors
import FuseX.Disk.WdSearch
import FuseX.Disk.WdCommand
import FuseX.Lib.Dependencies
import FuseX.Startup.Manager
import FuseX.Startup.Ordering
import FuseX.Lib.Parsing
import FuseX.Lib.RunLength
import FuseX.Movie.Coder
import FuseX.Movie.Recorder
import FuseX.Movie.Format
import FuseX.Movie.Reading
import FuseX.Movie.RoundTrip
import FuseX.Nic.Relay
import FuseX.Nic.RelayRuns
import FuseX.Ssh.KnownHosts
import FuseX.Ssh.TrustStore
import FuseX.Ssh.Control
import FuseX.Ssh.Answers
import FuseX.Ssh.Protocol
import FuseX.Ssh.HostKey
import FuseX.Ssh.ControlRuns
import FuseX.Lib.JumpChain
import FuseX.Z80.Checks
import FuseX.Z80.JumpLoop
import FuseX.Rzx.Counter
import FuseX.Lib.Paths
import FuseX.If1.Microdrive
import FuseX.If1.Tape
import FuseX.Lockstep.Machine
import FuseX.Lib.Stores
import FuseX.Lib.Sweep
import FuseX.Pokefinder.Finder
import FuseX.Pokefinder.Candidates
import FuseX.Tape.Trap
import FuseX.Tape.TrapRoundTrip
import FuseX.Pokefinder.Trainer
import FuseX.Pokefinder.Reversal
import FuseX.Flash.Am29f010
import FuseX.Flash.Commands
import FuseX.Matchmaking.Client
import FuseX.Matchmaking.Session
import FuseX.Debugger.TimedBreakpoints
import FuseX.Debugger.TimedRuns
import FuseX.Https.DirCache
import FuseX.Https.Coherence
import FuseX.Gdb.Vfile
import FuseX.Gdb.VfileArgs
import FuseX.Gdb.VfileServed
import FuseX.Gdb.VfileLaw
import FuseX.Debugger.Expression
import FuseX.Debugger.Printed
import FuseX.Debugger.Reassociated
import FuseX.Debugger.RoundTrip
import FuseX.Events.Queue
import FuseX.Events.Dispatch
import FuseX.Tape.Deck
import FuseX.Tape.Timeline
import FuseX.Tape.Runs
import FuseX.Lib.Orbits
import FuseX.Spectranet.ConfigScan
import FuseX.Lib.Writes
import FuseX.Spectranet.ConfigWrites
import FuseX.Matchmaking.PeerRuns
import FuseX.Gdb.BreakpointRequests
import FuseX.Gdb.PreadRuns
import FuseX.Https.IndexText
import FuseX.Https.IndexListing
import FuseX.Xfs.OverlayCursor
import FuseX.Xfs.OverlayCreation
import FuseX.Xfs.Transfer
import FuseX.Xfs.TransferBounds
import FuseX.Xfs.RomImage
import FuseX.Nic.FileRead
import FuseX.Nic.FileReadBounds
import FuseX.Lib.Spool
import FuseX.Nic.Enc28j60
import FuseX.Nic.ReceiveFifo
import FuseX.Disk.TrackWriter
import FuseX.Disk.TrackSpots
import FuseX.Disk.TrackScan
import FuseX.Disk.TrackGen
import FuseX.Disk.TrackPlaces
import FuseX.Disk.Trdos
import FuseX.Disk.TrdosTracks
import FuseX.Disk.TrdosCatalogue
import FuseX.Disk.TrdosBoot
import FuseX.Disk.TrdosBooted
import FuseX.Disk.TeleDisk
import FuseX.Display.RectangleCover
import FuseX.Display.LastScreen
import FuseX.Display.LastScreenFields
import FuseX.Display.BorderColumn
import FuseX.Display.LastScreenFaithful
import FuseX.Lib.Turns
import FuseX.Z80.Blocks
import FuseX.Z80.BlockRuns
import FuseX.Engines.Argv
import FuseX.Engines.ArgvWords
import FuseX.Engines.ArgvParse
import FuseX.Lib.Json
import FuseX.Automation.Json
import FuseX.Automation.JsonTrees
import FuseX.If1.Cartridges
import FuseX.Display.Border
import FuseX.Display.BorderBeam
import FuseX.Tape.Record
import FuseX.Sound.Psg
import FuseX.Lib.Carries
import FuseX.Z80.Alu
import FuseX.Z80.Decimal
import FuseX.Sound.Sfifo
import FuseX.Hardware.Periph
import FuseX.Hardware.Paging
import FuseX.Hardware.PagingRuns
