import Longrun.Bridge.Invariant

/-!
# The moves of the coordinator

What the code between two awaits can do to the state, as a sequence of small moves. A move changes
one component and names what the code has made sure of before, so that every property of runs is
proved over two dozen moves and not over every branch of every coroutine.

The moves leave out the components that no property depends on: the clock, the events that threads
wait for, the expected and buffered notifications, the owners of the leases.
-/

namespace Longrun.Bridge

/-- The coroutine that goes on in a step: its task, where it was suspended, what ended the await. -/
structure Origin where
  task : TaskId
  pc : Pc
  input : Input

namespace Pc

/-- The job of a handoff that holds the activity lock. -/
def transfers : Pc → Option JobId
  | .handoff _ .lock => none
  | .handoff call _ => some call.lease.jobId
  | _ => none

/-- The thread of a registration that waits for its pause. -/
def pauses : Pc → Option ThreadId
  | .prepareSetPaused call _ _ | .prepareConfirm call _ _ _ => some call.threadId
  | _ => none

/-- The coroutine of a connection, which no registration goes through. -/
def isClient : Pc → Bool
  | .client _ _ => true
  | _ => false

end Pc

namespace World

/-- No suspended task delivers the job. -/
def Undelivered (world : World) (job : JobId) : Prop :=
  ∀ task pc, world.At task pc → pc.delivers ≠ some job

/-- No suspended task transfers the job. -/
def Untransferred (world : World) (job : JobId) : Prop :=
  ∀ task pc, world.At task pc → pc.transfers ≠ some job

/-- The leases of a thread are revoked, except one whose activation is under way. -/
def Revoked (world : World) (thread : ThreadId) : Prop :=
  ∀ job row, world.row job = some row → row.threadId = thread → row.isLive = true →
    row.deliveryState = .activating

/-- The same for the session leases of a thread. -/
def SessionRevoked (world : World) (thread : ThreadId) : Prop :=
  ∀ job row, world.row job = some row → row.threadId = thread → row.wakeMode = .session →
    row.isLive = true → row.deliveryState = .activating

/-- A task that is not the one that started a continuation turn. -/
def NotInFlight (world : World) (task : TaskId) : Prop :=
  world.Calm → ∀ job row, world.deliveryTasks.get? job = some task →
    world.row job = some row → row.wakeMode = .session → row.isLive = true →
      row.deliveryState ≠ .activating

end World

/-- The updates of a row, each with what holds of the row when it is made. -/
inductive Legal (origin : Option Origin) (world : World) (row : WakeLease) : LeaseUpdate → Prop where
  /-- A terminal request that comes before the registration is complete. -/
  | earlyTerminal (terminalState : String) : row.state = .preparing →
      row.terminalState = none → Legal origin world row { terminalState := some terminalState }
  | commit (revision : Int) : row.state = .preparing →
      PauseConfirmed world.trace { row with goalUpdatedAt := revision } →
      Legal origin world row (GoalBridge.commitFields row revision)
  | terminate (terminalState : String) (error : Option String) :
      row.wakeMode = .goal → row.state = .armed →
      Legal origin world row
        { state := some .terminal, terminalState := some terminalState,
          deliveryState := some .waitingForIdle, error := error }
  | terminateSession (terminalState : String) :
      row.wakeMode = .session → row.state = .armed →
      .terminalRecorded row.jobId ∈ world.processTrace →
      Legal origin world row
        { state := some .terminal, terminalState := some terminalState,
          deliveryState := some .waitingForHandoff }
  | abandon (reason : String) : row.isLive = true → row.deliveryState ≠ .activating →
      Legal origin world row
        { state := some .abandoned, deliveryState := some .abandoned, error := some reason }
  | fail (reason : String) : row.isLive = true ∨ row.deliveryState = .needsManualRecovery →
      (row.wakeMode = .goal → row.deliveryState = .activating → world.Undelivered row.jobId) →
      Legal origin world row (GoalBridge.needsManualRecovery reason)
  | resumeGoal : row.wakeMode = .goal → row.isLive = true → row.deliveryState = .activating →
      world.Undelivered row.jobId →
      Legal origin world row { state := some .delivered, deliveryState := some .resumed }
  /-- The only update that does not look at the row first. -/
  | resumeSession (turn : String) : row.wakeMode = .session →
      0 < world.trace.countP (·.sends row.jobId Rpc.isTurnStart) →
      (∃ task lease peer current result,
        origin = some ⟨task, .wake lease peer (.turnStart current), .reply result⟩ ∧
          lease.jobId = row.jobId ∧ result.bind SessionBridge.startedTurn = .ok turn) →
      Legal origin world row (SessionBridge.resumedFields turn)
  | recordReceipt : row.wakeMode = .session → row.isLive = true →
      row.handoffState = .interrupting → world.Untransferred row.jobId →
      Legal origin world row { handoffState := some .recordingReceipt }
  | ready : row.wakeMode = .session → row.isLive = true →
      row.handoffState = .recordingReceipt → HandoffConfirmed world.processTrace row →
      world.Untransferred row.jobId →
      Legal origin world row { handoffState := some .ready }
  /-- A registration repeated for a lease that is armed already. -/
  | rearm : row.wakeMode = .session → row.state = .armed →
      Legal origin world row { state := some .armed }

/-- The events that may be logged on their own, each with what holds when it happens. -/
def Loggable (origin : Option Origin) (world : World) : Event → Prop
  | .started | .registered _ _ | .acquired _ _ | .released _ _ => False
  | .received task _ => task < world.tasks.length
  | .sent task job _ rpc =>
      (rpc.isActivation = false ∧ rpc.isInterrupt = false ∧ rpc.isTurnStart = false) ∧
      (rpc.isPause = true → ∃ call result,
        origin = some ⟨task, .prepareGoalGet call, .reply result⟩ ∧ call.jobId = job) ∧
      (rpc.isReceipt = true → ∃ row, world.row job = some row ∧ row.isLive = true ∧
        row.deliveryState ≠ .activating)
  | .controlEntered _ thread => world.Revoked thread
  | .controlRun task thread =>
      world.Revoked thread ∧ world.goalControls.get? thread = some task
  | .userActivity thread => world.SessionRevoked thread ∧
      (∀ callId, world.calls.get? (thread, callId) = none) ∧
      ∀ task pc input, origin = some ⟨task, pc, input⟩ → pc.isClient = true
  | _ => True

/-- How a registration gets into its exclusive section. -/
def Entry (origin : Option Origin) (world : World) (task : TaskId) : Pc → Prop
  | .sessionLatestTurn call turn peer =>
      world.calls.get? (call.threadId, call.callId) = some (turn, peer) ∧
        ∃ input, origin = some ⟨task, .sessionLock call turn peer, input⟩
  | .sessionGoalNow call turn peer =>
      ∃ input, origin = some ⟨task, .sessionLatestTurn call turn peer, input⟩
  | _ => True

/-- The coroutine that goes on is a registration that waits for its pause. -/
def Pauses (origin : Option Origin) (thread : ThreadId) : Prop :=
  ∃ task pc input, origin = some ⟨task, pc, input⟩ ∧ pc.pauses = some thread

/-- One move in a step that a coroutine's going on begins, or none's. -/
inductive Move (origin : Option Origin) : World → World → Prop where
  /-- Components that no property depends on. -/
  | internal {world : World} (clock : Int) (threadEvents : Dict ThreadId ThreadEvent)
      (expectedGoalStatus : Dict ThreadId (String × Option Int)) (leasePeers : Dict JobId PeerId)
      (ambiguousThreads : Dict ThreadId Unit) (turnDone : Dict (ThreadId × String) Nat)
      (nextEvent : Nat) :
      Move origin world
        { world with
          clock := clock, threadEvents := threadEvents
          expectedGoalStatus := expectedGoalStatus, leasePeers := leasePeers
          ambiguousThreads := ambiguousThreads
          turnDone := turnDone, nextEvent := nextEvent }
  | log {world : World} (event : Event) : Loggable origin world event →
      Move origin world (world.log event)
  /-- A registration starts to buffer the notifications of its thread, or one is buffered. -/
  | setPause {world : World} (thread : ThreadId) (buffer : List Json) :
      (world.pauseNotifications.get? thread).isSome = true ∨
        (∃ task call input, origin = some ⟨task, .prepareGoalGet call, input⟩ ∧
          call.threadId = thread) →
      Move origin world (world.setPauseNotifications thread buffer)
  | popPause {world : World} (thread : ThreadId) : Pauses origin thread →
      Move origin world (world.popPauseNotifications thread)
  | run {world : World} (task : TaskId) (pc : Pc) (input : Input) :
      origin = some ⟨task, pc, input⟩ → world.At task pc →
      Move origin world (world.setTask task .running)
  | suspend {world : World} (task : TaskId) (pc : Pc) : world.IsRunning task →
      Suspended world task pc → Entry origin world task pc →
      Move origin world (world.setTask task (.suspended pc))
  | finish {world : World} (task : TaskId) : world.IsRunning task → world.NotInFlight task →
      Move origin world (world.setTask task .finished)
  | cancel {world : World} (tasks : List TaskId)
      (allowed : world.Undisturbed → ∀ task ∈ tasks, task < world.tasks.length ∧
        ∀ pc job, world.At task pc → pc.delivers = some job → ¬world.Live job) :
      Move origin world { world with cancelling := tasks ++ world.cancelling }
  | update {world : World} {row : WakeLease} (job : JobId) (fields : LeaseUpdate) :
      world.row job = some row → Legal origin world row fields →
      Move origin world (world.update job fields)
  | register {world : World} {store : BridgeState} {lease : WakeLease} (task : TaskId)
      (new : NewLease) : world.IsRunning task → world.PrepareReceived task new.jobId →
      world.row new.jobId = none → world.store.createLease new = .ok (store, lease) →
      new.wakeMode = .goal →
      Move origin world (({ world with store := store } : World).log (.registered task new.jobId))
  | registerSession {world : World} {store : BridgeState} {lease : WakeLease} (task : TaskId)
      (new : NewLease) : world.IsRunning task → world.PrepareReceived task new.jobId →
      world.row new.jobId = none → world.store.createLease new = .ok (store, lease) →
      new.wakeMode = .session → new.turnId.isSome = true → new.callId.isSome = true →
      (∃ call turn peer input, origin = some ⟨task, .sessionGoalNow call turn peer, input⟩ ∧
        new.threadId = call.threadId ∧ new.callId = some call.callId) →
      Move origin world ((({ world with store := store } : World).log
        (.registered task new.jobId)).update new.jobId { state := some .armed })
  | spawnDelivery {world : World} {row : WakeLease} (lease : WakeLease) :
      world.row lease.jobId = some row → row.identity = lease.identity → 2 ≤ row.state.rank →
      (∀ task, world.deliveryTasks.get? lease.jobId = some task → world.isDone task = true) →
      Move origin world (world.spawnDelivery lease)
  | spawnDeadline {world : World} (lease : WakeLease) : world.Snapshot lease →
      Move origin world (world.spawnDeadline lease)
  | popDelivery {world : World} (job : JobId) :
      (∀ task pc, world.At task pc → pc.delivers = some job → ¬world.Live job) →
      (world.Calm → world.WhileLive job fun row => row.wakeMode = .session →
        row.deliveryState ≠ .activating) →
      Move origin world (world.popDelivery job)
  | popDeadline {world : World} (job : JobId) : Move origin world (world.popDeadline job)
  | lockGoal {world : World} (task : TaskId) (thread : ThreadId) :
      world.goalControls.get? thread = none → Move origin world (world.lockGoal task thread)
  | unlockGoal {world : World} (task : TaskId) (thread : ThreadId) :
      (∀ other pc, world.At other pc → pc.holdsGoal ≠ some thread) →
      Move origin world (world.unlockGoal task thread)
  | lockPeer {world : World} (task : TaskId) (peer : PeerId) :
      world.activityLocks.get? peer = none → Move origin world (world.lockPeer task peer)
  | unlockPeer {world : World} (peer : PeerId) :
      (∀ other pc, world.At other pc → pc.holdsPeer ≠ some peer) →
      Move origin world (world.unlockPeer peer)
  | setPeer {world : World} (thread : ThreadId) (peer : PeerId) :
      (∀ owner, world.peers.get? thread = some owner → owner = peer) →
      Move origin world (SessionBridge.setPeer world thread peer)
  | popPeer {world : World} (thread : ThreadId) : world.SessionRevoked thread →
      Move origin world (SessionBridge.popPeer world thread)
  | setCalls {world : World} (calls : Dict (ThreadId × String) (String × PeerId)) :
      (∀ key call, calls.get? key = some call → world.calls.get? key = some call ∨
        world.trace.head? = some (.observed call.2 key.1 key.2 call.1)) →
      Move origin world (SessionBridge.setCalls world calls)
  | setDone {world : World} (event : (ThreadId × String) × Nat) :
      .turnCompleted event.1.1 event.1.2 ∈ world.processTrace →
      Move origin world (SessionBridge.setDone world event)
  /-- The activation of a Goal is committed before it is sent. -/
  | activateGoal {world : World} {row : WakeLease} (task : TaskId) (lease : WakeLease) :
      world.row lease.jobId = some row → row.wakeMode = .goal → row.state = .terminal →
      row.deliveryState = .waitingForIdle →
      (∃ result, origin = some ⟨task, .deliver lease .goalGet, .reply result⟩) →
      Move origin world ((world.update lease.jobId { deliveryState := some .activating }).log
        (.sent task lease.jobId .app (.goalSet lease.threadId "active")))
  /-- So is the interruption of a turn. -/
  | interrupt {world : World} {row : WakeLease} (task : TaskId) (peer : PeerId)
      (jobState : String) :
      world.row row.jobId = some row → row.wakeMode = .session → row.isLive = true →
      row.handoffState = .pending → world.Untransferred row.jobId →
      Move origin world ((world.update row.jobId
        { handoffState := some .interrupting, receiptState := some jobState }).log
        (.sent task row.jobId (.peer peer) (.turnInterrupt row.threadId row.turnId)))
  /-- So is the continuation turn. -/
  | activateSession {world : World} {row : WakeLease} (task : TaskId) (peer : PeerId)
      (text : String) :
      world.row row.jobId = some row → row.wakeMode = .session → row.state = .terminal →
      row.handoffState = .ready → world.phase = .serving →
      (world.Undisturbed → row.deliveryState ≠ .activating) → world.Undelivered row.jobId →
      (world.Undisturbed → ∃ holder, world.deliveryTasks.get? row.jobId = some holder ∧
        world.isDone holder = false) →
      Move origin world ((world.update row.jobId { deliveryState := some .activating }).log
        (.sent task row.jobId (.peer peer) (.turnStart row.threadId text)))

/-- The moves of one step. -/
abbrev Moves (origin : Option Origin) : World → World → Prop :=
  Relation.ReflTransGen (Move origin)

end Longrun.Bridge
