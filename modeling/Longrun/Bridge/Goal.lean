import Longrun.Bridge.World

/-!
# The Goal bridge

The coroutines of `GoalBridge`, each cut at its awaits: a function takes the world in which its
coroutine goes on and gives the world and the outcome with which it stops again. Methods that the
session bridge overrides are defined here in the overriding form, because every call through
`self` reaches that form.
-/

namespace Longrun.Bridge

/-- `{"ok": True, ...}` -/
def answer (fields : List (String × Json)) : Outcome :=
  .done (.obj (("ok", .bool true) :: fields))

def raise (error : PyError) : Outcome := .fail (.exception error)

/-- `str(exc)` -/
def Raised.text : Raised → String
  | .exception error => error.message
  | .cancelled => ""

/-- `f"{value!r}"`, exact for strings without quotes and escapes and for `None`. -/
def reprText : Json → String
  | .null => "None"
  | .str text => "'" ++ text ++ "'"
  | value => value.dumps

namespace World

/-! ### Task tables -/

@[simps!]
def spawnDelivery (world : World) (lease : WakeLease) : World :=
  { world.spawn (.suspended (.deliver lease .start)) with
    deliveryTasks := world.deliveryTasks.set lease.jobId world.tasks.length }

/-- `_schedule_delivery`: a job has at most one unfinished task in the table. -/
def scheduleDelivery (world : World) (lease : WakeLease) : World :=
  match world.deliveryTasks.get? lease.jobId with
  | some existing => if world.isDone existing then world.spawnDelivery lease else world
  | none => world.spawnDelivery lease

@[simps!]
def spawnDeadline (world : World) (lease : WakeLease) : World :=
  { world.spawn (.suspended (.deadline lease .start)) with
    deadlineTasks := world.deadlineTasks.set lease.jobId world.tasks.length }

/-- `_schedule_deadline` -/
def scheduleDeadline (world : World) (lease : WakeLease) : World :=
  match world.deadlineTasks.get? lease.jobId with
  | some existing => if world.isDone existing then world.spawnDeadline lease else world
  | none => world.spawnDeadline lease

@[simps]
def popDelivery (world : World) (job : JobId) : World :=
  { world with deliveryTasks := world.deliveryTasks.pop job }

@[simps]
def popDeadline (world : World) (job : JobId) : World :=
  { world with deadlineTasks := world.deadlineTasks.pop job }

/-- Removes the delivery task of a job from the table and cancels it. -/
def cancelDelivery (world : World) (job : JobId) : World :=
  match world.deliveryTasks.get? job with
  | some task => (world.popDelivery job).cancelTask task
  | none => world

def cancelDeadline (world : World) (job : JobId) : World :=
  match world.deadlineTasks.get? job with
  | some task => (world.popDeadline job).cancelTask task
  | none => world

@[simps]
def popLeasePeer (world : World) (job : JobId) : World :=
  { world with leasePeers := world.leasePeers.pop job }

@[simps]
def popExpected (world : World) (thread : ThreadId) : World :=
  { world with expectedGoalStatus := world.expectedGoalStatus.pop thread }

@[simps]
def setExpected (world : World) (thread : ThreadId) (status : String × Option Int) : World :=
  { world with expectedGoalStatus := world.expectedGoalStatus.set thread status }

@[simps]
def popPauseNotifications (world : World) (thread : ThreadId) : World :=
  { world with pauseNotifications := world.pauseNotifications.pop thread }

@[simps]
def setPauseNotifications (world : World) (thread : ThreadId) (buffer : List Json) : World :=
  { world with pauseNotifications := world.pauseNotifications.set thread buffer }

end World

/-! ### Revocation -/

/-- `GoalBridge._abandon_for_manual_change`: revokes the live lease of a thread, whichever job it
belongs to, unless its activation is under way. -/
def GoalBridge.abandonForManualChange (world : World) (thread : ThreadId) (reason : String) :
    World :=
  match world.store.liveForThread thread with
  | none => world
  | some lease =>
      if lease.deliveryState = .activating then world
      else
        ((world.update lease.jobId
          { state := some .abandoned, deliveryState := some .abandoned,
            error := some reason }).cancelDelivery lease.jobId).cancelDeadline lease.jobId

/-- `SessionBridge._abandon_for_manual_change` -/
def abandonForManualChange (world : World) (thread : ThreadId) (reason : String) : World :=
  let after := GoalBridge.abandonForManualChange world thread reason
  match world.store.liveForThread thread with
  | none => after
  | some lease =>
      if lease.wakeMode = .session ∧
          (after.row lease.jobId).any (fun current => current.state = .abandoned) then
        after.popLeasePeer lease.jobId
      else after

namespace GoalBridge

/-! ### Registration -/

/-- `_prepare` up to the read of the Goal. -/
def prepare (world : World) (jobId : JobId) (request : Json) : World × Outcome :=
  match prepareArguments jobId request with
  | .error error => (world, raise error)
  | .ok call =>
      match world.row jobId with
      | some existing =>
          if existing.threadId = call.threadId ∧ existing.state = .armed ∧
              existing.deliveryState = .pending then
            (world, answer [("automatic_wakeup", .bool true), ("idempotent", .bool true)])
          else (world, raise (runtimeError "job already has a non-reusable wake lease"))
      | none => (world, .await (.prepareGoalGet call))

/-- Gives up a lease that is still preparing. -/
def abandonPreparing (world : World) (job : JobId) (raised : Raised) : World :=
  match world.row job with
  | some current =>
      if current.state = .preparing then
        world.update job
          { state := some .abandoned, deliveryState := some .abandoned,
            error := some ("prepare failed: " ++ raised.text) }
      else world
  | none => world

/-- The `except` and `finally` clauses of `_prepare`. -/
def prepareFailed (world : World) (call : PrepareCall) (raised : Raised) : World × Outcome :=
  ((abandonPreparing (world.popExpected call.threadId) call.jobId raised).popPauseNotifications
    call.threadId, .fail raised)

/-- The new lease of a Goal registration. -/
def newGoalLease (world : World) (call : PrepareCall) (objective : String)
    (createdAt updatedAt : Int) : NewLease where
  jobId := call.jobId
  threadId := call.threadId
  objective := objective
  goalCreatedAt := createdAt
  goalUpdatedAt := updatedAt
  deadlineAt := world.clock + call.timeoutSec + call.gracePeriodSec + 60

/-- `create_lease`, with the journal entry of an inserted row. -/
def createLease (world : World) (task : TaskId) (new : NewLease) :
    Except PyError (World × WakeLease) :=
  match world.store.createLease new with
  | .error error => .error error
  | .ok (store, lease) =>
      match world.row new.jobId with
      | some _ => .ok ({ world with store := store }, lease)
      | none => .ok (({ world with store := store } : World).log (.registered task new.jobId),
          lease)

/-- `_prepare` with the Goal it read: inserts the lease and pauses the Goal. -/
def prepareRegister (world : World) (task : TaskId) (call : PrepareCall)
    (result : Except PyError Json) : World × Outcome :=
  match result.bind activeGoal with
  | .error error => (world, raise error)
  | .ok (objective, createdAt, updatedAt) =>
      match createLease world task (newGoalLease world call objective createdAt updatedAt) with
      | .error error => (world, raise error)
      | .ok (world, lease) =>
          (world.setPauseNotifications call.threadId [],
            .await (.prepareSetPaused call lease updatedAt))

/-- `_prepare` with the answer to `set(paused)`. -/
def preparePaused (world : World) (call : PrepareCall) (lease : WakeLease) (updatedAt : Int)
    (result : Except PyError Json) : World × Outcome :=
  match result.bind (pausedRevision lease updatedAt) with
  | .error error => prepareFailed world call (.exception error)
  | .ok pausedUpdatedAt => (world, .await (.prepareConfirm call lease updatedAt pausedUpdatedAt))

/-- The checks of `_prepare` between the confirming read and the commit; the row to commit. -/
def prepareChecks (world : World) (call : PrepareCall) (lease : WakeLease)
    (updatedAt pausedUpdatedAt : Int) (result : Except PyError Json) :
    Except PyError WakeLease := do
  confirmLatest lease pausedUpdatedAt (← result)
  let some buffer := world.pauseNotifications.get? call.threadId
    | throw ⟨"KeyError", "'" ++ call.threadId ++ "'"⟩
  reconcilePause lease updatedAt pausedUpdatedAt false buffer
  let some current := world.row call.jobId
    | throw (runtimeError "wake registration was revoked before pause confirmation")
  if current.state ≠ .preparing ∨ current.deliveryState ≠ .pending then
    throw (runtimeError "wake registration was revoked before pause confirmation")
  return current

/-- The assignments of the commit: a terminal event that came early is kept. -/
def commitFields (current : WakeLease) (pausedUpdatedAt : Int) : LeaseUpdate :=
  if current.terminalState.isSome then
    { state := some .terminal, deliveryState := some .waitingForIdle,
      goalUpdatedAt := some pausedUpdatedAt }
  else
    { state := some .armed, deliveryState := some .pending,
      goalUpdatedAt := some pausedUpdatedAt }

/-- `_prepare` with the answer to the confirming read: commits the registration. -/
def prepareCommit (world : World) (call : PrepareCall) (lease : WakeLease)
    (updatedAt pausedUpdatedAt : Int) (result : Except PyError Json) : World × Outcome :=
  match prepareChecks world call lease updatedAt pausedUpdatedAt result with
  | .error error => prepareFailed world call (.exception error)
  | .ok current =>
      let fields := commitFields current pausedUpdatedAt
      let world := (world.update call.jobId fields).popPauseNotifications call.threadId
      let committed := fields.apply current
      let world := if committed.state = .terminal then world.scheduleDelivery committed
        else world.scheduleDeadline committed
      (world, answer [("automatic_wakeup", .bool true), ("thread_id", .str call.threadId)])

/-! ### Terminal events and aborts -/

def deliveryAnswer (lease : WakeLease) : Outcome :=
  answer [("delivery_state", .str lease.deliveryState.text), ("idempotent", .bool true)]

/-- `_terminal` -/
def terminal (world : World) (jobId : JobId) (request : Json) : World × Outcome :=
  match threadIdOf (request.get "thread_id"), terminalStateOf request with
  | .error error, _ => (world, raise error)
  | .ok _, .error error => (world, raise error)
  | .ok threadId, .ok terminalState =>
      match world.row jobId with
      | none => (world, raise (runtimeError "no matching wake lease"))
      | some lease =>
          if lease.threadId ≠ threadId then
            (world, raise (runtimeError "no matching wake lease"))
          else if lease.deliveryState.isFinal then (world, deliveryAnswer lease)
          else if lease.state = .terminal then (world, deliveryAnswer lease)
          else if lease.state = .preparing ∧ lease.deliveryState = .pending then
            (if lease.terminalState.isNone then
                world.update jobId { terminalState := some terminalState }
              else world,
              answer [("delivery_state", .str "waiting_for_registration")])
          else if lease.state ≠ .armed ∨ lease.deliveryState ≠ .pending then
            (world, raise (runtimeError "wake lease is not armed for terminal delivery"))
          else
            let fields : LeaseUpdate :=
              { state := some .terminal, terminalState := some terminalState,
                deliveryState := some .waitingForIdle }
            (((world.update jobId fields).cancelDeadline jobId).scheduleDelivery
                (fields.apply lease),
              answer [("delivery_state", .str "waiting_for_idle")])

/-- `_abort` -/
def abort (world : World) (jobId : JobId) (request : Json) : World × Outcome :=
  match threadIdOf (request.get "thread_id") with
  | .error error => (world, raise error)
  | .ok threadId =>
      match world.row jobId with
      | none => (world, answer [("delivery_state", .str "not_registered")])
      | some lease =>
          if lease.threadId ≠ threadId then
            (world, raise (runtimeError "wake lease belongs to another thread"))
          else if lease.deliveryState.isFinal then
            (world, answer [("delivery_state", .str lease.deliveryState.text)])
          else if lease.state = .preparing then
            (Bridge.abandonForManualChange world threadId
                "Wake registration aborted before pause confirmation",
              answer [("delivery_state", .str "abandoned")])
          else if lease.state = .terminal then
            (world, answer [("delivery_state", .str lease.deliveryState.text)])
          else if lease.state ≠ .armed ∨ lease.deliveryState ≠ .pending then
            (world, raise (runtimeError "wake lease cannot be aborted from its current state"))
          else
            let fields : LeaseUpdate :=
              { state := some .terminal, terminalState := some "bridge_aborted",
                deliveryState := some .waitingForIdle }
            ((world.update jobId fields).scheduleDelivery (fields.apply lease),
              answer [("delivery_state", .str "waiting_for_idle")])

/-! ### Delivery -/

/-- The `finally` clause of `_deliver`. -/
def deliverEnd (world : World) (lease : WakeLease) (outcome : Outcome) : World × Outcome :=
  (world.popDelivery lease.jobId, outcome)

/-- `_deliver` returns. -/
def deliverReturn (world : World) (lease : WakeLease) : World × Outcome :=
  deliverEnd world lease (.done .null)

/-- The row of a lease whose activation is ambiguous or was not confirmed. -/
def needsManualRecovery (reason : String) : LeaseUpdate :=
  { state := some .failed, deliveryState := some .needsManualRecovery, error := some reason }

/-- Records the failure of a delivery whose outcome is not decided. -/
def failDelivery (world : World) (job : JobId) (error : PyError) : World :=
  match world.row job with
  | some current =>
      if current.deliveryState ≠ .resumed ∧ current.deliveryState ≠ .abandoned then
        world.update job
          (needsManualRecovery ("delivery failed: " ++ error.type ++ ": " ++ error.message))
      else world
  | none => world

/-- The `except Exception` clause of `_deliver`. -/
def deliverException (world : World) (lease : WakeLease) (error : PyError) : World × Outcome :=
  deliverReturn (failDelivery world lease.jobId error) lease

/-- `_deliver` starts. -/
def deliverStart (world : World) (lease : WakeLease) : World × Outcome :=
  match world.row lease.jobId with
  | none => deliverReturn world lease
  | some current =>
      if current.state ≠ .terminal ∨ current.deliveryState ≠ .waitingForIdle then
        deliverReturn world lease
      else (world, .await (.deliver lease .firstRead))

/-- `_wait_until_idle` with a status read: `busy` is what it does while the thread is busy. -/
def idleRead (world : World) (lease : WakeLease) (result : Except PyError Json)
    (busy : World × Outcome) : World × Outcome :=
  match result.bind threadStatus with
  | .error error => deliverException world lease error
  | .ok status =>
      if status = "idle" then (world, .await (.deliver lease .lock))
      else if status = "systemError" then
        deliverException world lease
          (runtimeError "thread entered systemError before Goal wakeup")
      else busy

/-- The first read of `_wait_until_idle`; a busy thread is read again after clearing the event. -/
def firstRead (world : World) (lease : WakeLease) (result : Except PyError Json) :
    World × Outcome :=
  idleRead world lease result
    (world.clearThreadEvent lease.threadId, .await (.deliver lease .secondRead))

/-- The second read of `_wait_until_idle`; `event.wait()` returns at once if the event is set. -/
def secondRead (world : World) (lease : WakeLease) (result : Except PyError Json) :
    World × Outcome :=
  idleRead world lease result
    (if (world.threadEvent lease.threadId).isSet then (world, .await (.deliver lease .firstRead))
      else (world, .await (.deliver lease (.parked (world.threadEvent lease.threadId).sets))))

/-- An exception leaves the critical section and reaches the `except` clause of `_deliver`. -/
def activateException (world : World) (task : TaskId) (lease : WakeLease) (error : PyError) :
    World × Outcome :=
  deliverException (world.unlockGoal task lease.threadId) lease error

/-- `_activate_goal` returns `True`. -/
def activateReturn (world : World) (task : TaskId) (lease : WakeLease) : World × Outcome :=
  deliverReturn (world.unlockGoal task lease.threadId) lease

/-- `_activate_goal` with the status read under the lock. -/
def activateRead (world : World) (task : TaskId) (lease : WakeLease)
    (result : Except PyError Json) : World × Outcome :=
  match result.bind threadStatus with
  | .error error => activateException world task lease error
  | .ok status =>
      if status ≠ "idle" then
        (world.unlockGoal task lease.threadId, .await (.deliver lease .firstRead))
      else
        match world.row lease.jobId with
        | none => activateReturn world task lease
        | some current =>
            if current.deliveryState.isFinal then activateReturn world task lease
            else (world, .await (.deliver lease .goalGet))

/-- Why `_activate_goal` gives a lease up when it sees the Goal. -/
def activationObstacle (lease current : WakeLease) (goal : Json) : Option String :=
  if ¬sameGoal lease goal then some "Goal identity changed before terminal delivery"
  else if (goal.get "status").isStr "active" then some "Goal was resumed outside the bridge"
  else if ¬(goal.get "status").isStr "paused" then
    some ("Goal status changed to " ++ reprText (goal.get "status"))
  else if ¬(goal.get "updatedAt").isInt current.goalUpdatedAt then
    some "Paused Goal revision changed before terminal delivery"
  else none

/-- `_activate_goal` with the Goal read under the lock: the last checks before the activation. -/
def activateGoalGet (world : World) (task : TaskId) (lease : WakeLease)
    (result : Except PyError Json) : World × Outcome :=
  match result.bind goalFromResult with
  | .error error => activateException world task lease error
  | .ok goal =>
      match world.row lease.jobId with
      | none => activateReturn world task lease
      | some current =>
          if current.state ≠ .terminal ∨ current.deliveryState ≠ .waitingForIdle then
            activateReturn world task lease
          else
            match activationObstacle lease current goal with
            | some reason =>
                activateReturn
                  (world.update lease.jobId
                    { state := some .abandoned, deliveryState := some .abandoned,
                      error := some reason }) task lease
            | none =>
                ((world.update lease.jobId { deliveryState := some .activating }).setExpected
                    lease.threadId ("active", none),
                  .await (.deliver lease .setActive))

/-- `_activate_goal` with the answer to `set(active)`. An activation is never retried. -/
def activateSetActive (world : World) (task : TaskId) (lease : WakeLease)
    (result : Except PyError Json) : World × Outcome :=
  match result with
  | .error error =>
      activateReturn ((world.popExpected lease.threadId).update lease.jobId
        (needsManualRecovery ("ambiguous Goal activation: " ++ error.message))) task lease
  | .ok result =>
      match goalFromResult result with
      | .error error => activateException world task lease error
      | .ok activated =>
          if ¬sameGoal lease activated ∨ ¬(activated.get "status").isStr "active" then
            activateReturn (world.update lease.jobId
              (needsManualRecovery "App Server did not confirm Goal activation")) task lease
          else if (activated.get "updatedAt").int?.isNone then
            activateReturn (world.update lease.jobId
              (needsManualRecovery "App Server returned incomplete active Goal revision"))
              task lease
          else
            activateReturn ((world.popExpected lease.threadId).update lease.jobId
              { state := some .delivered, deliveryState := some .resumed }) task lease

/-- `_deliver` of a Goal lease goes on after an await. -/
def deliver (world : World) (task : TaskId) (lease : WakeLease) (await : DeliverAt)
    (input : Input) : Option (World × Outcome) :=
  let isLocked := (world.goalControls.get? lease.threadId).isSome
  match await, input with
  | .start, .ready => some (deliverStart world lease)
  | .firstRead, .reply result => some (firstRead world lease result)
  | .secondRead, .reply result => some (secondRead world lease result)
  | .parked sets, .ready =>
      if sets < (world.threadEvent lease.threadId).sets then
        some (world, .await (.deliver lease .firstRead))
      else none
  | .lock, .ready =>
      if isLocked then none
      else some (world.lockGoal task lease.threadId, .await (.deliver lease .read))
  | .read, .reply result => some (activateRead world task lease result)
  | .goalGet, .reply result => some (activateGoalGet world task lease result)
  | .setActive, .reply result => some (activateSetActive world task lease result)
  -- A task that is cancelled before it starts never enters its `try`.
  | .start, .cancelled => some (world, .fail .cancelled)
  | .read, .cancelled | .goalGet, .cancelled | .setActive, .cancelled =>
      some (deliverEnd (world.unlockGoal task lease.threadId) lease (.fail .cancelled))
  | .firstRead, .cancelled | .secondRead, .cancelled | .parked _, .cancelled
  | .lock, .cancelled => some (deliverEnd world lease (.fail .cancelled))
  | _, _ => none

/-! ### Deadlines -/

def deadlineFields : LeaseUpdate :=
  { state := some .terminal, terminalState := some "bridge_deadline_expired",
    deliveryState := some .waitingForIdle,
    error := some "MCP server did not deliver a terminal event before the guarded deadline" }

/-- Ends the wait for a terminal event of an armed lease. -/
def expireArmed (world : World) (job : JobId) : World :=
  match world.row job with
  | some current =>
      if current.state ≠ .armed ∨ current.deliveryState ≠ .pending then world
      else (world.update job deadlineFields).scheduleDelivery (deadlineFields.apply current)
  | none => world

/-- `_expire_at_deadline` of a Goal lease when its sleep is over. -/
def expireAtDeadline (world : World) (lease : WakeLease) : World × Outcome :=
  ((expireArmed world lease.jobId).popDeadline lease.jobId, .done .null)

/-! ### Notifications -/

/-- The part of a Goal that is buffered while a pause is being confirmed. -/
def notificationEntry (goal : Json) : Json :=
  .obj (["threadId", "objective", "createdAt", "updatedAt", "status"].map
    fun key => (key, goal.get key))

/-- A Goal update that reaches a thread without a registration in progress. -/
def goalUpdated (world : World) (threadId : ThreadId) (goal : Json) : World :=
  match world.store.liveForThread threadId with
  | none => world
  | some lease =>
      -- A delayed older event cannot revoke a newer confirmed pause.
      if sameGoal lease goal ∧
          (goal.get "updatedAt").exactInt?.any (· < lease.goalUpdatedAt) then world
      else if ¬pausedAt lease lease.goalUpdatedAt goal then
        Bridge.abandonForManualChange world threadId "Goal was changed outside the bridge"
      else world

/-- `_on_notification` -/
def onNotification (world : World) (method : String) (params : Json) : World :=
  match params.get "threadId" with
  | .str threadId =>
      if method = "thread/status/changed" ∨ method = "turn/completed" then
        world.setThreadEvent threadId
      else if method = "thread/goal/cleared" then
        Bridge.abandonForManualChange world threadId "Goal was cleared"
      else if method = "thread/goal/updated" ∧ (params.get "goal").isDict then
        let goal := params.get "goal"
        match world.pauseNotifications.get? threadId with
        | some pending =>
            if 64 ≤ pending.length then
              Bridge.abandonForManualChange world threadId
                "Too many Goal changes during pause confirmation"
            else world.setPauseNotifications threadId (pending ++ [notificationEntry goal])
        | none =>
            match world.expectedGoalStatus.get? threadId with
            | some (expectedStatus, expectedUpdatedAt) =>
                if (goal.get "status").isStr expectedStatus ∧
                    expectedUpdatedAt.all (goal.get "updatedAt").isInt then
                  world.popExpected threadId
                else goalUpdated world threadId goal
            | none => goalUpdated world threadId goal
      else world
  | _ => world

/-! ### Recovery -/

/-- `_recover_lease` of a Goal lease. -/
def recoverLease (world : World) (lease : WakeLease) : World :=
  match lease.deliveryState with
  | .abandoned => world.update lease.jobId { state := some .abandoned }
  | .resumed => world.update lease.jobId { state := some .delivered }
  | .needsManualRecovery => world.update lease.jobId { state := some .failed }
  | .activating =>
      world.update lease.jobId
        (needsManualRecovery "bridge restarted during ambiguous Goal activation")
  | _ =>
      if lease.state = .terminal then world.scheduleDelivery lease
      else if lease.state = .armed then world.scheduleDeadline lease
      else world.update lease.jobId
        (needsManualRecovery "bridge restarted during wake lease preparation")

end GoalBridge

end Longrun.Bridge
