import Longrun.Library.Dict
import Longrun.Library.Transition
import Longrun.Bridge.Protocol

/-!
# The state of the coordinator

One process runs the Goal bridge, the session bridge and the proxy connections on one event loop.
Code between two awaits is atomic, so a coroutine is represented by the await at which it is
suspended together with the local variables that it still needs, and the state of the program is
the database, the tables in memory and the suspended coroutines.

An awaited request is issued where the coroutine calls it and ends when the environment answers:
with a result, with an error (which covers refusals, timeouts and lost connections) or never. A
task whose cancellation was requested may receive the cancellation at any of its awaits, or may
still see the awaited operation end, as `asyncio.wait_for` before Python 3.12 lets it.

The world also records the trace of what happened, newest first. No function of the program reads
it; the properties of runs are stated on it.
-/

namespace Longrun.Bridge

/-- A connection of the proxy: the object that the source calls a peer. -/
abbrev PeerId := Nat

/-- A task of the event loop, or the coroutine that handles one bridge request. -/
abbrev TaskId := Nat

/-- How an awaited operation or a coroutine can fail. -/
inductive Raised where
  | exception (error : PyError)
  | cancelled
deriving DecidableEq

/-- The connection over which a request is sent. -/
inductive Channel where
  | app
  | peer (peer : PeerId)
deriving DecidableEq

/-! ### Suspended coroutines -/

/-- A session registration after the checks on its arguments. -/
structure SessionCall where
  jobId : JobId
  threadId : ThreadId
  goal : Json
  callId : String
  timeoutSec : Int
  gracePeriodSec : Int

/-- A handoff in progress; `jobState` goes into the receipt. -/
structure HandoffCall where
  lease : WakeLease
  jobState : String
  peer : PeerId

/-- The awaits of `_handoff`. An event object of `turn_done` is its key and a number. -/
inductive HandoffAt where
  | lock
  | checkGoal
  | latestTurn
  | interrupt (done : Nat)
  | turnDone (done : Nat)
  | confirm
  | inject
deriving DecidableEq

/-- The awaits of `GoalBridge._deliver`, `_wait_until_idle` and `_activate_goal`. -/
inductive DeliverAt where
  | start
  | firstRead
  | secondRead
  | parked (sets : Nat)
  | lock
  | read
  | goalGet
  | setActive
deriving DecidableEq

/-- The awaits of `SessionBridge._deliver`; `current` is the row read after taking the lock. -/
inductive WakeAt where
  | lock
  | checkGoal (current : WakeLease)
  | latestTurn (current : WakeLease)
  | turnStart (current : WakeLease)
deriving DecidableEq

/-- The receipt that tells the model why its call was interrupted. -/
def receipt (call : HandoffCall) : String :=
  "[Longrun session handoff]\nJob " ++ call.lease.jobId ++
  " was registered for automatic session continuation; its state at handoff was " ++
  call.jobState ++
  ". The bridge intentionally interrupted the pending start_job transport after startup to " ++
  "release the model turn. An aborted outer functions.exec does not mean the background job " ++
  "failed to start. Do not launch a duplicate. On the completion wake, call longrun.get_job " ++
  "once for this job, inspect its result, and continue the original user task. No Goal was " ++
  "created or reactivated. New user instructions take precedence."

/-- The input of the turn that wakes the session. -/
def wakeMessage (current : WakeLease) : String :=
  "[Longrun session wake]\nJob " ++ current.jobId ++ " reached terminal state " ++
  current.terminalState.getD "None" ++
  ". Read its result once with longrun.get_job, then continue the original task under the " ++
  "latest user instructions. This is one job completion notification, not a new Goal. Do not " ++
  "restart the job."

inductive DeadlineAt where
  | start
  | sleeping
deriving DecidableEq

/-- The awaits of `client_to_upstream` for a message that counts as user activity. -/
inductive ClientAt where
  | activityLock (message : Json)
  | controlLock (thread : ThreadId)
  | controlOperation (thread : ThreadId)
  | forward

/-- The await at which a coroutine is suspended, with its local variables. -/
inductive Pc where
  | prepareGoalGet (call : PrepareCall)
  | prepareSetPaused (call : PrepareCall) (lease : WakeLease) (updatedAt : Int)
  | prepareConfirm (call : PrepareCall) (lease : WakeLease) (updatedAt pausedUpdatedAt : Int)
  | sessionGoalGet (jobId : JobId) (threadId : ThreadId) (request : Json) (auto : Bool)
  | sessionObserved (call : SessionCall)
  | sessionLock (call : SessionCall) (turn : String) (peer : PeerId)
  | sessionLatestTurn (call : SessionCall) (turn : String) (peer : PeerId)
  | sessionGoalNow (call : SessionCall) (turn : String) (peer : PeerId)
  | handoff (call : HandoffCall) (await : HandoffAt)
  | deliver (lease : WakeLease) (await : DeliverAt)
  | wake (lease : WakeLease) (peer : PeerId) (await : WakeAt)
  | deadline (lease : WakeLease) (await : DeadlineAt)
  | client (peer : PeerId) (await : ClientAt)

/-- The request that a coroutine awaits, with the job that it is issued for. -/
def Pc.awaits : Pc → Option (JobId × Channel × Rpc)
  | .prepareGoalGet call => some (call.jobId, .app, .goalGet call.threadId)
  | .prepareSetPaused call _ _ => some (call.jobId, .app, .goalSet call.threadId "paused")
  | .prepareConfirm call _ _ _ => some (call.jobId, .app, .goalGet call.threadId)
  | .sessionGoalGet jobId threadId _ _ => some (jobId, .app, .goalGet threadId)
  | .sessionObserved _ => none
  | .sessionLock _ _ _ => none
  | .sessionLatestTurn call _ peer => some (call.jobId, .peer peer, .turnsList call.threadId)
  | .sessionGoalNow call _ peer => some (call.jobId, .peer peer, .goalGet call.threadId)
  | .handoff call await =>
      let request (rpc : Rpc) := some (call.lease.jobId, Channel.peer call.peer, rpc)
      match await with
      | .lock => none
      | .checkGoal => request (.goalGet call.lease.threadId)
      | .latestTurn => request (.turnsList call.lease.threadId)
      | .interrupt _ => request (.turnInterrupt call.lease.threadId call.lease.turnId)
      | .turnDone _ => none
      | .confirm => request (.turnsList call.lease.threadId)
      | .inject => request (.injectItems call.lease.threadId (receipt call))
  | .deliver lease await =>
      let request (rpc : Rpc) := some (lease.jobId, Channel.app, rpc)
      match await with
      | .start | .parked _ | .lock => none
      | .firstRead | .secondRead | .read => request (.threadRead lease.threadId)
      | .goalGet => request (.goalGet lease.threadId)
      | .setActive => request (.goalSet lease.threadId "active")
  | .wake lease peer await =>
      let request (rpc : Rpc) := some (lease.jobId, Channel.peer peer, rpc)
      match await with
      | .lock => none
      | .checkGoal _ => request (.goalGet lease.threadId)
      | .latestTurn _ => request (.turnsList lease.threadId)
      | .turnStart current => request (.turnStart lease.threadId (wakeMessage current))
  | .deadline _ _ => none
  | .client _ _ => none

inductive TaskStatus where
  | running
  | suspended (pc : Pc)
  | finished

/-- What ends an await. -/
inductive Input where
  /-- An awaited request has ended. -/
  | reply (result : Except PyError Json)
  /-- The task may go on: it is scheduled, the lock is free, the event is set, the sleep is over. -/
  | ready
  /-- An enclosing `wait_for` has run out. -/
  | timeout
  /-- The cancellation of the task is delivered. -/
  | cancelled

/-! ### The trace -/

inductive Event where
  | started
  | received (task : TaskId) (request : Json)
  | ended (task : TaskId) (result : Except Raised Json)
  /-- The row of a job is inserted by a task. -/
  | registered (task : TaskId) (job : JobId)
  /-- A terminal request is recorded in the row of a session job. -/
  | terminalRecorded (job : JobId)
  | sent (task : TaskId) (job : JobId) (via : Channel) (rpc : Rpc)
  | replied (task : TaskId) (job : JobId) (via : Channel) (rpc : Rpc)
      (result : Except PyError Json)
  /-- A task enters or leaves the critical section `_goal_controls` of a thread. -/
  | acquired (task : TaskId) (thread : ThreadId)
  | released (task : TaskId) (thread : ThreadId)
  /-- `user_goal_control` is entered; its operation runs. -/
  | controlEntered (task : TaskId) (thread : ThreadId)
  | controlRun (task : TaskId) (thread : ThreadId)
  | userActivity (thread : ThreadId)
  /-- The item of a `start_job` call is observed on a connection. -/
  | observed (peer : PeerId) (thread : ThreadId) (callId turn : String)
  | turnCompleted (thread : ThreadId) (turn : String)
  /-- Something outside the coordinator cancels a task. -/
  | cancelRequested (task : TaskId)

/-! ### The state -/

/-- An `asyncio.Event`, with the number of times that it was set: a waiter goes on once the event
has been set after it began to wait, even if it has been cleared again. -/
structure ThreadEvent where
  isSet : Bool := false
  sets : Nat := 0

inductive Phase where
  | down
  /-- Connected to the App Server; the pending leases are not recovered yet. -/
  | connecting
  | serving
deriving DecidableEq

structure World where
  store : BridgeState
  clock : Int
  phase : Phase
  tasks : List TaskStatus
  cancelling : List TaskId
  /-- The holders of the `_goal_controls` locks. -/
  goalControls : Dict ThreadId TaskId
  /-- The holders of the connections' activity locks. -/
  activityLocks : Dict PeerId TaskId
  threadEvents : Dict ThreadId ThreadEvent
  expectedGoalStatus : Dict ThreadId (String × Option Int)
  pauseNotifications : Dict ThreadId (List Json)
  deliveryTasks : Dict JobId TaskId
  deadlineTasks : Dict JobId TaskId
  peers : Dict ThreadId PeerId
  leasePeers : Dict JobId PeerId
  ambiguousThreads : Dict ThreadId Unit
  calls : Dict (ThreadId × String) (String × PeerId)
  turnDone : Dict (ThreadId × String) Nat
  doneEvents : List ((ThreadId × String) × Nat)
  nextEvent : Nat
  trace : List Event

/-- What a coroutine does when it runs to its next await. -/
inductive Outcome where
  | await (pc : Pc)
  | done (result : Json)
  | fail (raised : Raised)

namespace World

def initial : World where
  store := .empty
  clock := 0
  phase := .down
  tasks := []
  cancelling := []
  goalControls := .empty
  activityLocks := .empty
  threadEvents := .empty
  expectedGoalStatus := .empty
  pauseNotifications := .empty
  deliveryTasks := .empty
  deadlineTasks := .empty
  peers := .empty
  leasePeers := .empty
  ambiguousThreads := .empty
  calls := .empty
  turnDone := .empty
  doneEvents := []
  nextEvent := 0
  trace := []

/-- `state.get(job_id)`. -/
abbrev row (world : World) (job : JobId) : Option WakeLease := world.store.get job

@[simps]
def log (world : World) (event : Event) : World := { world with trace := event :: world.trace }

/-- `state.update(job_id, ...)`. No update of the coordinator is refused by the store: each names
an existing row, and none brings a settled lease back to life. -/
@[simps clock phase tasks cancelling goalControls activityLocks threadEvents expectedGoalStatus
  pauseNotifications deliveryTasks deadlineTasks peers leasePeers ambiguousThreads calls turnDone
  doneEvents nextEvent trace]
def update (world : World) (job : JobId) (fields : LeaseUpdate) : World :=
  { world with store := match world.store.update job fields with
      | .ok store => store
      | .error _ => world.store }

/-! #### Tasks -/

@[simps]
def setTask (world : World) (task : TaskId) (status : TaskStatus) : World :=
  { world with tasks := world.tasks.set task status }

@[simps]
def spawn (world : World) (status : TaskStatus) : World :=
  { world with tasks := world.tasks ++ [status] }

/-- `task.done()`. -/
def isDone (world : World) (task : TaskId) : Bool :=
  match world.tasks[task]? with
  | some .finished => true
  | _ => false

/-- `task.cancel()`. -/
@[simps]
def cancelTask (world : World) (task : TaskId) : World :=
  { world with cancelling := task :: world.cancelling }

/-- The await of a request issues it. -/
def issue (world : World) (task : TaskId) (pc : Pc) : World :=
  match pc.awaits with
  | some (job, via, rpc) => world.log (.sent task job via rpc)
  | none => world

/-- A task that ran to its next await is suspended there, or has ended. -/
def settle (world : World) (task : TaskId) : Outcome → World
  | .await pc => (world.issue task pc).setTask task (.suspended pc)
  | .done result => (world.setTask task .finished).log (.ended task (.ok result))
  | .fail raised => (world.setTask task .finished).log (.ended task (.error raised))

/-! #### Locks and events -/

@[simps]
def lockGoal (world : World) (task : TaskId) (thread : ThreadId) : World :=
  { world with
    goalControls := world.goalControls.set thread task
    trace := .acquired task thread :: world.trace }

@[simps]
def unlockGoal (world : World) (task : TaskId) (thread : ThreadId) : World :=
  { world with
    goalControls := world.goalControls.pop thread
    trace := .released task thread :: world.trace }

@[simps]
def lockPeer (world : World) (task : TaskId) (peer : PeerId) : World :=
  { world with activityLocks := world.activityLocks.set peer task }

@[simps]
def unlockPeer (world : World) (peer : PeerId) : World :=
  { world with activityLocks := world.activityLocks.pop peer }

/-- `_thread_events.setdefault(thread_id, asyncio.Event())`. -/
def threadEvent (world : World) (thread : ThreadId) : ThreadEvent :=
  (world.threadEvents.get? thread).getD {}

@[simps]
def setThreadEvent (world : World) (thread : ThreadId) : World :=
  { world with threadEvents :=
      world.threadEvents.set thread ⟨true, (world.threadEvent thread).sets + 1⟩ }

@[simps]
def clearThreadEvent (world : World) (thread : ThreadId) : World :=
  { world with threadEvents :=
      world.threadEvents.set thread ⟨false, (world.threadEvent thread).sets⟩ }

end World

end Longrun.Bridge
