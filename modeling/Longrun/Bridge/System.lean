import Longrun.Bridge.Session

/-!
# The coordinator as a transition system

The environment chooses every step: which request, notification or connection event arrives, which
suspended coroutine goes on and with what answer, when the process dies and starts again. Each
step runs one coroutine or handler from where it is to its next await.
-/

namespace Longrun.Bridge

/-! ### Messages of the TUI -/

namespace Client

/-- The messages of the TUI that count as user activity. -/
def activityMethods : List String :=
  ["turn/start", "turn/steer", "turn/interrupt", "thread/archive", "thread/unsubscribe",
    "thread/start", "thread/resume", "thread/goal/set", "thread/goal/clear", "thread/rollback",
    "thread/compact/start"]

/-- The messages that change a Goal and are forwarded through `user_goal_control`. -/
def isGoalControl (message : Json) : Bool :=
  (message.get "method").isStr "thread/goal/set" ||
    (message.get "method").isStr "thread/goal/clear"

/-- Why `user_goal_control` revokes a wakeup. -/
def controlReason : String := "Explicit user Goal control"

/-- `client_to_upstream` with the activity lock held. A Goal control enters `user_goal_control`,
which revokes the wakeup before it waits for the lock of the thread. -/
def activity (world : World) (task : TaskId) (peer : PeerId) (message : Json) :
    World × Outcome :=
  match (message.get "params").get "threadId" with
  | .str thread =>
      let world := SessionBridge.userActivity world thread
      if isGoalControl message then
        (abandonForManualChange (world.log (.controlEntered task thread)) thread controlReason,
          .await (.client peer (.controlLock thread)))
      else (world, .await (.client peer .forward))
  | _ =>
      ((SessionBridge.keysOf world.peers peer).foldl SessionBridge.userActivity world,
        .await (.client peer .forward))

/-- `user_goal_control` with the lock of the thread: revokes again, then runs the operation. -/
def control (world : World) (task : TaskId) (peer : PeerId) (thread : ThreadId) :
    World × Outcome :=
  ((abandonForManualChange (world.lockGoal task thread) thread controlReason).log
      (.controlRun task thread),
    .await (.client peer (.controlOperation thread)))

/-- The handling of a client message goes on after an await. -/
def resume (world : World) (task : TaskId) (peer : PeerId) (await : ClientAt) (input : Input) :
    Option (World × Outcome) :=
  match await, input with
  | .activityLock message, .ready =>
      if (world.activityLocks.get? peer).isSome then none
      else some (activity (world.lockPeer task peer) task peer message)
  | .controlLock thread, .ready =>
      if (world.goalControls.get? thread).isSome then none
      else some (control world task peer thread)
  | .controlOperation thread, .reply result =>
      some ((world.unlockGoal task thread).unlockPeer peer,
        match result with
        | .ok _ => .done .null
        | .error error => raise error)
  | .forward, .reply result =>
      some (world.unlockPeer peer,
        match result with
        | .ok _ => .done .null
        | .error error => raise error)
  | .activityLock _, .cancelled => some (world, .fail .cancelled)
  | .controlLock _, .cancelled => some (world.unlockPeer peer, .fail .cancelled)
  | .controlOperation thread, .cancelled =>
      some ((world.unlockGoal task thread).unlockPeer peer, .fail .cancelled)
  | .forward, .cancelled => some (world.unlockPeer peer, .fail .cancelled)
  | _, _ => none

end Client

/-! ### Resuming a coroutine -/

/-- `_prepare` of the Goal bridge goes on after an await. -/
def GoalBridge.prepareResume (world : World) (task : TaskId) (pc : Pc) (input : Input) :
    Option (World × Outcome) :=
  match pc, input with
  | .prepareGoalGet call, .reply result => some (prepareRegister world task call result)
  | .prepareSetPaused call lease updatedAt, .reply result =>
      some (preparePaused world call lease updatedAt result)
  | .prepareConfirm call lease updatedAt pausedUpdatedAt, .reply result =>
      some (prepareCommit world call lease updatedAt pausedUpdatedAt result)
  | .prepareGoalGet _, .cancelled => some (world, .fail .cancelled)
  | .prepareSetPaused call _ _, .cancelled => some (prepareFailed world call .cancelled)
  | .prepareConfirm call _ _ _, .cancelled => some (prepareFailed world call .cancelled)
  | _, _ => none

/-- `_prepare` of the session bridge goes on after an await. -/
def SessionBridge.prepareResume (world : World) (task : TaskId) (pc : Pc) (input : Input) :
    Option (World × Outcome) :=
  match pc, input with
  | .sessionGoalGet jobId threadId request auto, .reply result =>
      some (prepareGoalState world jobId threadId request auto result)
  | .sessionObserved call, .ready => prepareObserved world call
  | .sessionObserved _, .timeout =>
      some (world, raise (runtimeError
        "session handoff requires the matching live codex-longrun TUI connection"))
  | .sessionLock call turn peer, .ready =>
      if (world.activityLocks.get? peer).isSome then none
      else some (prepareExclusive (world.lockPeer task peer) call turn peer)
  | .sessionLatestTurn call turn peer, .reply result =>
      some (prepareLatestTurn world call turn peer result)
  | .sessionGoalNow call turn peer, .reply result =>
      some (prepareArm world task call turn peer result)
  | .sessionGoalGet _ _ _ _, .cancelled | .sessionObserved _, .cancelled
  | .sessionLock _ _ _, .cancelled => some (world, .fail .cancelled)
  | .sessionLatestTurn _ _ peer, .cancelled | .sessionGoalNow _ _ peer, .cancelled =>
      some (world.unlockPeer peer, .fail .cancelled)
  | _, _ => none

/-- A coroutine goes on after its await; `none` where the input does not end that await. -/
def resume (world : World) (task : TaskId) (pc : Pc) (input : Input) : Option (World × Outcome) :=
  match pc with
  | .prepareGoalGet _ | .prepareSetPaused _ _ _ | .prepareConfirm _ _ _ _ =>
      GoalBridge.prepareResume world task pc input
  | .sessionGoalGet _ _ _ _ | .sessionObserved _ | .sessionLock _ _ _
  | .sessionLatestTurn _ _ _ | .sessionGoalNow _ _ _ =>
      SessionBridge.prepareResume world task pc input
  | .handoff call await => SessionBridge.handoffResume world task call await input
  | .deliver lease await =>
      match await, input, lease.wakeMode with
      | .start, .ready, .session => some (SessionBridge.wakeStart world lease)
      | _, _, _ => GoalBridge.deliver world task lease await input
  | .wake lease peer await => SessionBridge.wakeResume world task lease peer await input
  | .deadline lease await => SessionBridge.deadlineResume world lease await input
  | .client peer await => Client.resume world task peer await input

/-! ### Steps -/

inductive Action where
  /-- The clock is read as this time from now on; it may jump. -/
  | tick (now : Int)
  | request (request : Json)
  | notification (method : String) (params : Json)
  | observe (peer : PeerId) (method : String) (params : Json)
  | clientMessage (peer : PeerId) (message : Json)
  | disconnect (peer : PeerId)
  | resume (task : TaskId) (input : Input)
  /-- Something outside the coordinator cancels a task. -/
  | cancel (task : TaskId)
  | crash
  | connect
  | start

namespace World

/-- The result of a request is logged before its coroutine sees it. -/
def logReply (world : World) (task : TaskId) (pc : Pc) (input : Input) : World :=
  match pc.awaits, input with
  | some (job, via, rpc), .reply result => world.log (.replied task job via rpc result)
  | _, _ => world

/-- The process is gone: the database and the trace remain, no coroutine runs any more. -/
def crash (world : World) : World :=
  { initial with
    store := world.store
    clock := world.clock
    tasks := world.tasks.map fun _ => .finished
    nextEvent := world.nextEvent
    trace := world.trace }

/-- A cancellation can only be delivered to a task for which it was requested. -/
def mayReceive (world : World) (task : TaskId) : Input → Bool
  | .cancelled => task ∈ world.cancelling
  | _ => true

/-- Starts a coroutine that runs at once. -/
def begin (world : World) (start : World → TaskId → World × Outcome) : World :=
  let task := world.tasks.length
  let (after, outcome) := start (world.spawn .running) task
  after.settle task outcome

/-- A suspended coroutine that handles a message of a connection. -/
def isClientOf (peer : PeerId) : Option TaskStatus → Bool
  | some (.suspended (.client owner _)) => owner = peer
  | _ => false

/-- The client tasks of a connection are cancelled when it ends. -/
def cancelClients (world : World) (peer : PeerId) : World :=
  let clients := (List.range world.tasks.length).filter fun task =>
    isClientOf peer world.tasks[task]?
  { world with cancelling := clients ++ world.cancelling }

/-- A suspended coroutine runs to its next await. -/
def resumeTask (world : World) (task : TaskId) (input : Input) : Option World :=
  match world.tasks[task]? with
  | some (.suspended pc) =>
      if world.mayReceive task input then
        (resume ((world.logReply task pc input).setTask task .running) task pc input).map
          fun (after, outcome) => after.settle task outcome
      else none
  | _ => none

end World

/-- One step of the coordinator. -/
def step (world : World) : Action → Option World
  | .tick now => some { world with clock := now }
  | .crash => some world.crash
  | .connect => if world.phase = .down then some { world with phase := .connecting } else none
  | .start =>
      -- The leases that were live when the process started are recovered in one go.
      if world.phase = .connecting then
        some (({ world.store.pending.foldl SessionBridge.recoverLease world with
          phase := .serving } : World).log .started)
      else none
  | .notification method params =>
      if world.phase = .down then none
      else some (SessionBridge.onNotification world method params)
  | .request request =>
      if world.phase = .serving then
        some (world.begin fun world task =>
          SessionBridge.dispatch (world.log (.received task request)) request)
      else none
  | .observe peer method params =>
      if world.phase = .serving then some (SessionBridge.observe world peer method params)
      else none
  | .clientMessage peer message =>
      if world.phase = .serving ∧
          Client.activityMethods.any (message.get "method").isStr then
        some (world.begin fun world _ => (world, .await (.client peer (.activityLock message))))
      else none
  | .disconnect peer =>
      if world.phase = .serving then
        some (SessionBridge.disconnected (world.cancelClients peer) peer)
      else none
  | .resume task input => if world.phase = .serving then world.resumeTask task input else none
  | .cancel task =>
      if world.phase = .serving then
        some ((world.cancelTask task).log (.cancelRequested task))
      else none

/-- The coordinator, started for the first time on an empty database. -/
def coordinator : System World Action := ⟨World.initial, step⟩

end Longrun.Bridge
