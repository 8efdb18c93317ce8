import Longrun.Library.Json
import Longrun.Library.JsonText
import Longrun.Library.Base64
import Longrun.Library.Dict
import Longrun.Library.Transition
import Longrun.Library.Utf8
import Longrun.Library.Lines
import Longrun.Library.FileSystem
import Longrun.Library.RealPath
import Longrun.Bridge.State
import Longrun.Bridge.Protocol
import Longrun.Bridge.World
import Longrun.Bridge.Goal
import Longrun.Bridge.Session
import Longrun.Bridge.System
import Longrun.Bridge.Invariant
import Longrun.Bridge.Move
import Longrun.Bridge.Lifecycle
import Longrun.Bridge.Frame
import Longrun.Bridge.Preservation
import Longrun.Bridge.Coroutine
import Longrun.Bridge.GoalMoves
import Longrun.Bridge.SessionMoves
import Longrun.Bridge.StepMoves
import Longrun.Bridge.Recovery
import Longrun.Bridge.Runs
import Longrun.Bridge.Requests
import Longrun.Bridge.Scenario
import Longrun.Bridge.Revocation
import Longrun.Bridge.Activation
import Longrun.Bridge.Outcome
import Longrun.Bridge.Continuation
import Longrun.Bridge.Registration
import Longrun.Bridge.ExternalChange
import Longrun.Bridge.Reconciliation
import Longrun.Bridge.IdleWait
import Longrun.Server.Output
import Longrun.Server.Tail
import Longrun.Server.Redaction
import Longrun.Server.Executable
import Longrun.Secret.Store
import Longrun.Secret.Claims
import Longrun.Secret.Pair
import Longrun.Bridge.Quiet
import Longrun.Bridge.Evidence
import Longrun.Bridge.Ownership
import Longrun.Library.Script
import Longrun.Library.Cooperative
import Longrun.Tui.Messages
import Longrun.Tui.Connection
import Longrun.Tui.Process
import Longrun.Tui.FullRead
import Longrun.Tui.Relay
import Longrun.Tui.Scrollback
import Longrun.Tui.CachedRead
import Longrun.Tui.Freshness
import Longrun.Server.Job
import Longrun.Server.Executor
import Longrun.Server.Execution
import Longrun.Library.Interleaved
import Longrun.Server.Metadata
import Longrun.Server.Tools
import Longrun.Server.Hosts
import Longrun.Server.Accounting
import Longrun.Server.Reservation
import Longrun.Server.Recovery
import Longrun.Server.Limit
import Longrun.Library.Processes
import Longrun.Supervision.Supervise
import Longrun.Supervision.Signals
import Longrun.Supervision.Grace
import Longrun.Supervision.Orphans
import Longrun.AppServer.Client
import Longrun.Server.Watch
