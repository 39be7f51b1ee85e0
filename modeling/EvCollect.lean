import EvCollect.Process.Basic
import EvCollect.Process.Preserve
import EvCollect.Process.Beside
import EvCollect.Process.Causal
import EvCollect.Process.Compositional
import EvCollect.Process.Endless
import EvCollect.Process.Total
import EvCollect.Queue.Keyed
import EvCollect.Transition.Basic
import EvCollect.Text.Records
import EvCollect.Text.Cursor
import EvCollect.Text.LittleEndian
import EvCollect.Text.Transducer
import EvCollect.Text.Separators
import EvCollect.Text.Substitution
import EvCollect.Json.Grammar
import EvCollect.Json.Reader
import EvCollect.Json.Completeness
import EvCollect.Json.Scan
import EvCollect.Basic
import EvCollect.Util.StringUtil
import EvCollect.Util.JsonEscape
import EvCollect.Util.Splitting
import EvCollect.Util.Format
import EvCollect.Util.Base64
import EvCollect.Util.FlagParser
import EvCollect.Util.FlagNames
import EvCollect.Util.CommandLine
import EvCollect.Config.Properties
import EvCollect.Config.Lexer
import EvCollect.Config.Printing
import EvCollect.Config.Parser
import EvCollect.Config.Progress
import EvCollect.Config.Quoted
import EvCollect.Config.Scanner
import EvCollect.Config.Comments
import EvCollect.Config.Layout
import EvCollect.Config.Termination
import EvCollect.Config.Declarations
import EvCollect.Config.Simulation
import EvCollect.Service.PluginMap
import EvCollect.Service.Schedule
import EvCollect.Service.Invariant
import EvCollect.Service.Defs
import EvCollect.Service.Walk
import EvCollect.Service.Run
import EvCollect.Service.Carry
import EvCollect.Service.Foreign
import EvCollect.Service.Uphold
import EvCollect.Service.Observe
import EvCollect.Service.Isolation
import EvCollect.Service.Rounds
import EvCollect.Service.Balance
import EvCollect.Service.Timing
import EvCollect.Service.Stopping
import EvCollect.Logfile.Disk
import EvCollect.Logfile.Source
import EvCollect.Logfile.Reader
import EvCollect.Logfile.Frame
import EvCollect.Logfile.Invariant
import EvCollect.Logfile.Run
import EvCollect.Logfile.Delivery
import EvCollect.Logfile.Recovery
import EvCollect.Logfile.Rotation
import EvCollect.Logfile.Durable
import EvCollect.Logfile.Plugin
import EvCollect.Logfile.Touched
import EvCollect.Logfile.Fleet
import EvCollect.Logfile.Polling
import EvCollect.Logfile.Encoding
import EvCollect.Logfile.Regex
import EvCollect.Logfile.Placed
import EvCollect.Logfile.Draining
import EvCollect.EventQL.Target
import EvCollect.EventQL.Upload
import EvCollect.EventQL.Threads
import EvCollect.EventQL.Queue
import EvCollect.EventQL.Shutdown
import EvCollect.EventQL.Plugin
import EvCollect.EventQL.Attach
import EvCollect.EventQL.Numerals
import EvCollect.EventQL.Request
import EvCollect.EventQL.Discard
import EvCollect.EventQL.Routing
import EvCollect.EventQL.Lifecycle
import EvCollect.EventQL.Waiting
import EvCollect.Daemon.Ledger
import EvCollect.Daemon.Emission
import EvCollect.Daemon.Setup
import EvCollect.Daemon.AtLeastOnce
import EvCollect.Daemon.Plain
import EvCollect.Daemon.CleanShutdown
import EvCollect.Daemon.Draining
import EvCollect.Text.BigEndian
import EvCollect.Hash.Blocks
import EvCollect.Hash.Sha1
import EvCollect.Util.Sha1
import EvCollect.Util.Sha1Rounds
import EvCollect.Util.Sha1Messages
import EvCollect.Util.Sha1Hex
import EvCollect.Logfile.CheckpointNames
import EvCollect.Logfile.Restarts
import EvCollect.Daemon.PidFile
import EvCollect.Daemon.Exclusion
import EvCollect.Daemon.Removal
import EvCollect.Service.Worlds
import EvCollect.Text.Backtrack
import EvCollect.Plugin.Library
import EvCollect.Plugin.Paths
import EvCollect.Plugin.Loading
import EvCollect.Plugin.Safety
import EvCollect.Daemon.Flags
import EvCollect.Daemon.Main
import EvCollect.Daemon.Startup
import EvCollect.Daemon.Conformance
import EvCollect.EventQL.Forked
import EvCollect.Hostname.Event
import EvCollect.Logging.Slots
import EvCollect.Logging.Logger
import EvCollect.Logging.Delivery
import EvCollect.Logging.Lines
import EvCollect.Config.Positions
import EvCollect.Config.Outcome
