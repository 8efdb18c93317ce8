import Longrun.Bridge.System

/-!
# The invariant of the coordinator

What holds in every state that the coordinator reaches: how the columns of a row fit together,
what each suspended coroutine may rely on when it goes on, and how the rows relate to what has
been sent.

A coroutine relies on little. Other tasks run at every await, so what it knew before may be gone;
what remains is stated as far as its lease is still live, because a lease that is revoked behind
its back stays revoked, and every coroutine finds this out before it acts again.
-/

namespace Longrun.Bridge

/-! ### Rows -/

namespace LeaseState

/-- The life of a lease goes one way: registered, armed, terminal, settled. -/
def rank : LeaseState → Nat
  | preparing => 0
  | armed => 1
  | terminal => 2
  | delivered | failed | abandoned => 3

theorem rank_le (state : LeaseState) : state.rank ≤ 3 := by
  cases state <;> decide

end LeaseState

namespace WakeLease

/-- Which combinations of the state columns occur. -/
structure Consistent (lease : WakeLease) : Prop where
  preparing : lease.state = .preparing → lease.deliveryState = .pending ∧ lease.wakeMode = .goal
  armed : lease.state = .armed → lease.deliveryState = .pending ∧ lease.terminalState = none
  terminal : lease.state = .terminal → lease.deliveryState = .activating ∨
    (lease.wakeMode = .goal ∧ lease.deliveryState = .waitingForIdle) ∨
    (lease.wakeMode = .session ∧ lease.deliveryState = .waitingForHandoff)
  terminated : lease.state = .terminal → lease.terminalState.isSome = true
  delivered : lease.state = .delivered → lease.deliveryState = .resumed
  failed : lease.state = .failed → lease.deliveryState = .needsManualRecovery
  abandoned : lease.state = .abandoned → lease.deliveryState = .abandoned
  goal : lease.wakeMode = .goal → lease.handoffState = .notApplicable
  session : lease.wakeMode = .session →
    lease.handoffState ≠ .notApplicable ∧ lease.turnId.isSome ∧ lease.callId.isSome
  activatingReady : lease.wakeMode = .session → lease.isLive = true →
    lease.deliveryState = .activating → lease.handoffState = .ready

/-- A lease is live as long as its outcome is open. -/
theorem Consistent.isFinal_iff {lease : WakeLease} (consistent : lease.Consistent) :
    lease.deliveryState.isFinal = true ↔ lease.isLive = false := by
  cases state : lease.state <;>
    simp only [isLive, state, LeaseState.isLive]
  case preparing => simp [(consistent.preparing state).1, DeliveryState.isFinal]
  case armed => simp [(consistent.armed state).1, DeliveryState.isFinal]
  case terminal =>
    rcases consistent.terminal state with delivery | ⟨-, delivery⟩ | ⟨-, delivery⟩ <;>
      simp [delivery, DeliveryState.isFinal]
  case delivered => simp [consistent.delivered state, DeliveryState.isFinal]
  case failed => simp [consistent.failed state, DeliveryState.isFinal]
  case abandoned => simp [consistent.abandoned state, DeliveryState.isFinal]

theorem isLive_iff {lease : WakeLease} :
    lease.isLive = true ↔
      lease.state = .preparing ∨ lease.state = .armed ∨ lease.state = .terminal := by
  cases state : lease.state <;> simp [isLive, state, LeaseState.isLive]

theorem isLive_iff_rank {lease : WakeLease} : lease.isLive = true ↔ lease.state.rank < 3 := by
  cases state : lease.state <;> simp [isLive, state, LeaseState.isLive, LeaseState.rank]

/-- What later versions of a row have in common with an earlier one. -/
def Later (before after : WakeLease) : Prop :=
  after.identity = before.identity ∧ before.state.rank ≤ after.state.rank

theorem Later.refl (lease : WakeLease) : lease.Later lease := ⟨rfl, le_refl _⟩

theorem Later.trans {first second third : WakeLease} (before : first.Later second)
    (after : second.Later third) : first.Later third :=
  ⟨after.1.trans before.1, before.2.trans after.2⟩

theorem Later.live {before after : WakeLease} (later : before.Later after)
    (live : after.isLive = true) : before.isLive = true := by
  rw [isLive_iff_rank] at *
  exact lt_of_le_of_lt later.2 live

theorem Later.jobId {before after : WakeLease} (later : before.Later after) :
    after.jobId = before.jobId := congrArg (·.1) later.1

theorem Later.threadId {before after : WakeLease} (later : before.Later after) :
    after.threadId = before.threadId := congrArg (·.2.1) later.1

theorem Later.wakeMode {before after : WakeLease} (later : before.Later after) :
    after.wakeMode = before.wakeMode := congrArg (·.2.2.2.2.1) later.1

end WakeLease

/-! ### Suspended coroutines -/

namespace Pc

/-- The lease that a coroutine holds a copy of. -/
def lease? : Pc → Option WakeLease
  | .prepareSetPaused _ lease _ | .prepareConfirm _ lease _ _ => some lease
  | .handoff call _ => some call.lease
  | .deliver lease _ | .wake lease _ _ | .deadline lease _ => some lease
  | _ => none

/-- The job that a delivery task delivers. -/
def delivers : Pc → Option JobId
  | .deliver lease _ | .wake lease _ _ => some lease.jobId
  | _ => none

def isDeadline : Pc → Bool
  | .deadline _ _ => true
  | _ => false

/-- The thread whose Goal controls are locked across an await. -/
def holdsGoal : Pc → Option ThreadId
  | .deliver lease .read | .deliver lease .goalGet | .deliver lease .setActive =>
      some lease.threadId
  | .client _ (.controlOperation thread) => some thread
  | _ => none

/-- The connection whose activity lock is held across an await. -/
def holdsPeer : Pc → Option PeerId
  | .sessionLatestTurn _ _ peer | .sessionGoalNow _ _ peer => some peer
  | .handoff _ .lock => none
  | .handoff call _ => some call.peer
  | .wake _ _ .lock => none
  | .wake _ peer _ => some peer
  | .client _ (.activityLock _) => none
  | .client peer _ => some peer
  | _ => none

/-- The job of a registration that has not inserted its row. -/
def registers : Pc → Option JobId
  | .prepareGoalGet call => some call.jobId
  | .sessionGoalGet jobId _ _ _ => some jobId
  | .sessionObserved call | .sessionLock call _ _ | .sessionLatestTurn call _ _
  | .sessionGoalNow call _ _ => some call.jobId
  | _ => none

end Pc

/-! ### The trace -/

namespace Rpc

def isPause : Rpc → Bool
  | .goalSet _ status => status = "paused"
  | _ => false

def isActivation : Rpc → Bool
  | .goalSet _ status => status = "active"
  | _ => false

def isInterrupt : Rpc → Bool
  | .turnInterrupt _ _ => true
  | _ => false

def isReceipt : Rpc → Bool
  | .injectItems _ _ => true
  | _ => false

def isTurnStart : Rpc → Bool
  | .turnStart _ _ => true
  | _ => false

end Rpc

namespace Event

def isStarted : Event → Bool
  | .started => true
  | _ => false

/-- A request for a job that satisfies a condition. -/
def sends (job : JobId) (kind : Rpc → Bool) : Event → Bool
  | .sent _ owner _ rpc => owner = job && kind rpc
  | _ => false

@[simp]
theorem sends_sent (job owner : JobId) (kind : Rpc → Bool) (task : TaskId) (via : Channel)
    (rpc : Rpc) : (sent task owner via rpc).sends job kind = (owner = job && kind rpc) := rfl

end Event

/-- The registration requests for a job. -/
def prepares (job : JobId) (request : Json) : Bool :=
  (request.get "action").isStr "prepare" && (request.get "job_id").isStr job

/-- The events since a task last entered the critical section of a thread that it has not left. -/
def InSection (trace : List Event) (task : TaskId) (thread : ThreadId) (recent : List Event) :
    Prop :=
  (∃ older, trace = recent ++ .acquired task thread :: older) ∧ .released task thread ∉ recent

/-- A task read the status of the lease's thread and found it idle. -/
def IdleRead (events : List Event) (task : TaskId) (lease : WakeLease) : Prop :=
  ∃ result, .replied task lease.jobId .app (.threadRead lease.threadId) (.ok result) ∈ events ∧
    threadStatus result = .ok "idle"

/-- A task read the Goal and found the lease's Goal, paused, at a revision. -/
def PausedRead (events : List Event) (task : TaskId) (lease : WakeLease) (revision : Int) : Prop :=
  ∃ result goal, .replied task lease.jobId .app (.goalGet lease.threadId) (.ok result) ∈ events ∧
    goalFromResult result = .ok goal ∧ pausedAt lease revision goal = true

/-- The App Server answered the pause of a registration with a revision. -/
def PauseAnswered (trace : List Event) (task : TaskId) (lease : WakeLease) (updatedAt : Int)
    (revision : Int) : Prop :=
  ∃ result, .replied task lease.jobId .app (.goalSet lease.threadId "paused") (.ok result) ∈ trace ∧
    pausedRevision lease updatedAt result = .ok revision

/-- The revision of a row is one that the App Server answered the pause with and then confirmed. -/
def PauseConfirmed (trace : List Event) (row : WakeLease) : Prop :=
  ∃ task lease updatedAt, lease.identity = row.identity ∧
    PauseAnswered trace task lease updatedAt row.goalUpdatedAt ∧
    PausedRead trace task lease row.goalUpdatedAt

/-- A read of the latest turn that shows the originating turn interrupted. -/
def InterruptedTurn (lease : WakeLease) (result : Json) : Prop :=
  ∃ latest, latestTurn result = .ok latest ∧ isTurn latest lease.turnId "interrupted" = true

/-- The end of the originating turn was observed, and then a handoff read the turn as
interrupted. -/
def InterruptConfirmed (events : List Event) (task : TaskId) (call : HandoffCall) : Prop :=
  ∃ turn result, call.lease.turnId = some turn ∧ InterruptedTurn call.lease result ∧
    [.replied task call.lease.jobId (.peer call.peer) (.turnsList call.lease.threadId)
      (.ok result), .turnCompleted call.lease.threadId turn].Sublist events

/-- After that, the receipt was accepted. -/
def HandoffConfirmed (events : List Event) (lease : WakeLease) : Prop :=
  ∃ task peer turn result text accepted, lease.turnId = some turn ∧
    InterruptedTurn lease result ∧
    [.replied task lease.jobId (.peer peer) (.injectItems lease.threadId text) (.ok accepted),
      .replied task lease.jobId (.peer peer) (.turnsList lease.threadId) (.ok result),
      .turnCompleted lease.threadId turn].Sublist events

namespace World

/-- A coroutine is suspended at an await. -/
def At (world : World) (task : TaskId) (pc : Pc) : Prop :=
  world.tasks[task]? = some (.suspended pc)

def IsRunning (world : World) (task : TaskId) : Prop :=
  world.tasks[task]? = some .running

/-- The events of the current process. -/
def processTrace (world : World) : List Event :=
  world.trace.takeWhile fun event => !event.isStarted

/-- No task was cancelled from outside. -/
def Undisturbed (world : World) : Prop :=
  ∀ task, .cancelRequested task ∉ world.trace

/-- The process serves requests, and no task was cancelled from outside. -/
def Calm (world : World) : Prop :=
  world.phase = .serving ∧ world.Undisturbed

def PrepareReceived (world : World) (task : TaskId) (job : JobId) : Prop :=
  ∃ request, .received task request ∈ world.trace ∧ prepares job request = true

/-- The job has a live lease. -/
def Live (world : World) (job : JobId) : Prop :=
  ∃ row, world.row job = some row ∧ row.isLive = true

/-- A property of the job's row as long as it is live. -/
def WhileLive (world : World) (job : JobId) (property : WakeLease → Prop) : Prop :=
  ∀ row, world.row job = some row → row.isLive = true → property row

/-- A copy of a lease agrees with its row in the columns that never change. -/
def Snapshot (world : World) (lease : WakeLease) : Prop :=
  ∃ row, world.row lease.jobId = some row ∧ row.identity = lease.identity

/-- The row of a delivered lease has passed the armed state. -/
def BeyondArmed (world : World) (job : JobId) : Prop :=
  ∀ row, world.row job = some row → 2 ≤ row.state.rank

/-- No other delivery has started the continuation turn. -/
def Unstarted (world : World) (lease : WakeLease) : Prop :=
  lease.wakeMode = .session → world.Calm →
    world.WhileLive lease.jobId fun row => row.deliveryState ≠ .activating

end World

/-- What a handoff relies on at its awaits. -/
def HandoffStage (world : World) (task : TaskId) (call : HandoffCall) : HandoffAt → Prop
  | .lock => True
  | .checkGoal | .latestTurn =>
      world.WhileLive call.lease.jobId fun row => row.handoffState = .pending
  | .interrupt _ | .turnDone _ =>
      world.WhileLive call.lease.jobId fun row => row.handoffState = .interrupting
  | .confirm =>
      world.WhileLive call.lease.jobId (fun row => row.handoffState = .interrupting) ∧
        .turnCompleted call.lease.threadId (call.lease.turnId.getD "") ∈ world.processTrace
  | .inject =>
      world.WhileLive call.lease.jobId (fun row => row.handoffState = .recordingReceipt) ∧
        InterruptConfirmed world.processTrace task call

/-- What the delivery of a Goal lease relies on at its awaits. -/
def DeliverStage (world : World) (task : TaskId) (lease : WakeLease) : DeliverAt → Prop
  | .read => ∃ recent, InSection world.trace task lease.threadId recent
  | .goalGet => ∃ recent, InSection world.trace task lease.threadId recent ∧
      IdleRead recent task lease
  | .setActive => ∃ row, world.row lease.jobId = some row ∧ row.isLive = true ∧
      row.deliveryState = .activating
  | _ => True

/-- What the delivery of a session lease relies on at its awaits. -/
def WakeStage (world : World) (lease : WakeLease) : WakeAt → Prop
  | .lock => world.Unstarted lease
  | .checkGoal _ | .latestTurn _ => world.Unstarted lease ∧
      world.WhileLive lease.jobId fun row => row.state = .terminal ∧ row.handoffState = .ready
  | .turnStart _ => ∃ event ∈ world.trace, event.sends lease.jobId Rpc.isTurnStart = true

/-- What a coroutine relies on at its await. -/
def Stage (world : World) (task : TaskId) : Pc → Prop
  | .prepareSetPaused call lease _ => lease.jobId = call.jobId ∧ lease.threadId = call.threadId
  | .prepareConfirm call lease updatedAt pausedUpdatedAt =>
      lease.jobId = call.jobId ∧ lease.threadId = call.threadId ∧
        PauseAnswered world.trace task lease updatedAt pausedUpdatedAt
  | .handoff call await => call.lease.wakeMode = .session ∧
      world.WhileLive call.lease.jobId (fun row => row.deliveryState ≠ .activating →
        world.peers.get? call.lease.threadId = some call.peer) ∧
      HandoffStage world task call await
  | .deliver lease await => world.BeyondArmed lease.jobId ∧
      (await = .start ∨ lease.wakeMode = .goal) ∧ (await = .start → world.Unstarted lease) ∧
      DeliverStage world task lease await
  | .wake lease _ await => world.BeyondArmed lease.jobId ∧ lease.wakeMode = .session ∧
      WakeStage world lease await
  | _ => True

/-- What ties a coroutine at an await to the tables, the locks and the row of its lease. -/
structure Bound (world : World) (task : TaskId) (pc : Pc) : Prop where
  snapshot : ∀ lease, pc.lease? = some lease → world.Snapshot lease
  goalLock : ∀ thread, pc.holdsGoal = some thread → world.goalControls.get? thread = some task
  peerLock : ∀ peer, pc.holdsPeer = some peer → world.activityLocks.get? peer = some task
  deliveryTable : ∀ job, world.deliveryTasks.get? job = some task → pc.delivers = some job
  deadlineTable : ∀ job, world.deadlineTasks.get? job = some task → pc.isDeadline = true
  unique : ∀ job, pc.delivers = some job → world.Live job →
    world.deliveryTasks.get? job = some task
  cancelled : world.Undisturbed → task ∈ world.cancelling → ∀ job, pc.delivers = some job →
    ¬world.Live job
  registering : ∀ job, pc.registers = some job → world.PrepareReceived task job ∧
    .registered task job ∉ world.trace

/-- What holds of a task that is suspended at an await. -/
structure Suspended (world : World) (task : TaskId) (pc : Pc) : Prop
    extends Bound world task pc where
  stage : Stage world task pc

/-- The row of a job and what was sent for it. -/
structure JobInv (world : World) (job : JobId) : Prop where
  consistent : ∀ row, world.row job = some row → row.Consistent
  registered : ∀ row, world.row job = some row → ∃ task,
    world.PrepareReceived task job ∧ .registered task job ∈ world.trace
  /-- A Goal is activated at most once, and its row shows it. -/
  activatedOnce : world.trace.countP (·.sends job Rpc.isActivation) ≤ 1
  activated : 0 < world.trace.countP (·.sends job Rpc.isActivation) →
    ∃ row, world.row job = some row ∧ row.wakeMode = .goal ∧
      (row.deliveryState = .activating ∨ row.isLive = false)
  activating : ∀ row, world.row job = some row → row.wakeMode = .goal →
    row.deliveryState = .activating → 0 < world.trace.countP (·.sends job Rpc.isActivation)
  confirmed : ∀ row, world.row job = some row → row.wakeMode = .goal →
    row.state = .armed ∨ row.state = .terminal → PauseConfirmed world.trace row
  /-- A turn is interrupted at most once, and the row shows it. -/
  interruptedOnce : world.trace.countP (·.sends job Rpc.isInterrupt) ≤ 1
  interrupted : 0 < world.trace.countP (·.sends job Rpc.isInterrupt) →
    ∃ row, world.row job = some row ∧ row.wakeMode = .session ∧ row.handoffState ≠ .pending
  /-- A continuation turn is started at most once, and the row shows it. -/
  startedOnce : world.Undisturbed → world.trace.countP (·.sends job Rpc.isTurnStart) ≤ 1
  started : 0 < world.trace.countP (·.sends job Rpc.isTurnStart) →
    ∃ row, world.row job = some row ∧ row.wakeMode = .session ∧
      (row.deliveryState = .activating ∨ row.deliveryState = .resumed ∨
        row.deliveryState = .needsManualRecovery)
  starting : ∀ row, world.row job = some row → row.wakeMode = .session →
    row.deliveryState = .activating → 0 < world.trace.countP (·.sends job Rpc.isTurnStart)
  ready : world.phase = .serving → ∀ row, world.row job = some row → row.wakeMode = .session →
    row.isLive = true → row.handoffState = .ready → HandoffConfirmed world.processTrace row
  recorded : world.phase = .serving → ∀ row, world.row job = some row →
    row.wakeMode = .session → row.state = .terminal →
    .terminalRecorded job ∈ world.processTrace

/-- The tables in memory. -/
structure TablesInv (world : World) : Prop where
  deliveryTable : ∀ job task, world.deliveryTasks.get? job = some task →
    task < world.tasks.length
  deadlineTable : ∀ job task, world.deadlineTasks.get? job = some task →
    task < world.tasks.length
  cancelling : world.Undisturbed → ∀ task ∈ world.cancelling, task < world.tasks.length
  received : ∀ task request, .received task request ∈ world.trace → task < world.tasks.length
  registered : ∀ task job, .registered task job ∈ world.trace → task < world.tasks.length
  /-- A continuation turn whose start is not answered yet has its task in the table. -/
  inFlight : world.Calm → ∀ job row, world.row job = some row →
    row.wakeMode = .session → row.isLive = true → row.deliveryState = .activating →
    ∃ task, world.deliveryTasks.get? job = some task ∧ world.isDone task = false
  done : ∀ key event, (key, event) ∈ world.doneEvents →
    .turnCompleted key.1 key.2 ∈ world.processTrace

/-- The invariant of the coordinator. -/
structure Inv (world : World) : Prop where
  jobs : ∀ job, JobInv world job
  tables : TablesInv world
  suspended : ∀ task pc, world.At task pc → Suspended world task pc

theorem inv_initial : Inv World.initial where
  jobs := fun _ =>
    { consistent := fun _ found => by cases found
      registered := fun _ found => by cases found
      activatedOnce := Nat.zero_le _
      activated := fun sent => absurd sent (lt_irrefl 0)
      activating := fun _ found => by cases found
      confirmed := fun _ found => by cases found
      interruptedOnce := Nat.zero_le _
      interrupted := fun sent => absurd sent (lt_irrefl 0)
      startedOnce := fun _ => Nat.zero_le _
      started := fun sent => absurd sent (lt_irrefl 0)
      starting := fun _ found => by cases found
      ready := fun serving => by cases serving
      recorded := fun serving => by cases serving }
  tables :=
    { deliveryTable := fun _ _ found => by cases found
      deadlineTable := fun _ _ found => by cases found
      cancelling := fun _ _ mem => by cases mem
      received := fun _ _ mem => by cases mem
      registered := fun _ _ mem => by cases mem
      inFlight := fun _ _ _ found => by cases found
      done := fun _ _ mem => by cases mem }
  suspended := fun _ _ suspended => by cases suspended

end Longrun.Bridge
