import Longrun.Bridge.Goal

/-!
# The session bridge

The coroutines and event handlers that `SessionBridge` adds to the Goal bridge: registration
against an observed tool call, the handoff that interrupts the originating turn, and the delivery
that starts one continuation turn.
-/

namespace Longrun.Bridge.SessionBridge

/-! ### Tables -/

@[simps]
def setCalls (world : World) (calls : Dict (ThreadId × String) (String × PeerId)) : World :=
  { world with calls := calls }

@[simps]
def setPeer (world : World) (thread : ThreadId) (peer : PeerId) : World :=
  { world with peers := world.peers.set thread peer }

@[simps]
def popPeer (world : World) (thread : ThreadId) : World :=
  { world with peers := world.peers.pop thread }

@[simps]
def addAmbiguous (world : World) (thread : ThreadId) : World :=
  { world with ambiguousThreads := world.ambiguousThreads.set thread () }

@[simps]
def discardAmbiguous (world : World) (thread : ThreadId) : World :=
  { world with ambiguousThreads := world.ambiguousThreads.pop thread }

@[simps]
def setLeasePeer (world : World) (job : JobId) (peer : PeerId) : World :=
  { world with leasePeers := world.leasePeers.set job peer }

/-- The key of a handoff in `turn_done`. -/
def turnKey (lease : WakeLease) : ThreadId × String := (lease.threadId, lease.turnId.getD "")

@[simps]
def newTurnDone (world : World) (lease : WakeLease) : World :=
  { world with
    turnDone := world.turnDone.set (turnKey lease) world.nextEvent
    nextEvent := world.nextEvent + 1 }

@[simps]
def popTurnDone (world : World) (lease : WakeLease) : World :=
  { world with turnDone := world.turnDone.pop (turnKey lease) }

@[simps]
def setDone (world : World) (event : (ThreadId × String) × Nat) : World :=
  { world with doneEvents := event :: world.doneEvents }

/-! ### Events of the connections -/

/-- `user_activity` -/
def userActivity (world : World) (thread : ThreadId) : World :=
  let forgotten := (setCalls world
    (world.calls.filter fun entry => entry.1.1 ≠ thread)).log (.userActivity thread)
  match world.store.liveForThread thread with
  | some lease =>
      if lease.wakeMode = .session then
        abandonForManualChange forgotten thread
          "User activity superseded automatic continuation"
      else forgotten
  | none => forgotten

/-- The call and turn of an `item/started` event for a `start_job` call. -/
def startJobItem (params : Json) : Option (String × String) :=
  let item := params.get "item"
  if (item.get "type").isStr "mcpToolCall" ∧ (item.get "server").isStr "longrun" ∧
      (item.get "tool").isStr "start_job" then
    match item.get "id", params.get "turnId" with
    | .str callId, .str turn => some (callId, turn)
    | _, _ => none
  else none

theorem startJobItem_eq_some_iff {params : Json} {callId turn : String} :
    startJobItem params = some (callId, turn) ↔
      (params.get "item").get "type" = .str "mcpToolCall" ∧
        (params.get "item").get "server" = .str "longrun" ∧
          (params.get "item").get "tool" = .str "start_job" ∧
            (params.get "item").get "id" = .str callId ∧ params.get "turnId" = .str turn := by
  rw [startJobItem]
  constructor
  · intro found
    split_ifs at found with isStartJob
    split at found
    · rename_i givenCall givenTurn isCall isTurn
      rcases Prod.mk.inj (Option.some.inj found) with ⟨rfl, rfl⟩
      rcases isStartJob with ⟨isToolCall, isLongrun, isTool⟩
      exact ⟨Json.isStr_iff.mp isToolCall, Json.isStr_iff.mp isLongrun, Json.isStr_iff.mp isTool,
        isCall, isTurn⟩
    · cases found
  · rintro ⟨isToolCall, isLongrun, isTool, isCall, isTurn⟩
    rw [if_pos ⟨Json.isStr_iff.mpr isToolCall, Json.isStr_iff.mpr isLongrun,
      Json.isStr_iff.mpr isTool⟩, isCall, isTurn]

/-- Remembers an observed call; the oldest ones beyond 256 are dropped. -/
def rememberCall (world : World) (peer : PeerId) (thread : ThreadId) (callId turn : String) :
    World :=
  (setCalls world ((world.calls.set (thread, callId) (turn, peer)).evict 256)).log
    (.observed peer thread callId turn)

/-- `params.get("turn", {})` is not a dictionary, so the `.get` on it raises `AttributeError`. -/
def malformedTurn (params : Json) : Bool :=
  params.hasKey "turn" && !(params.get "turn").isDict

/-- `observe` of `turn/started`. -/
def observeTurnStarted (world : World) (peer : PeerId) (thread : ThreadId) (params : Json) :
    World :=
  let world := setPeer world thread peer
  if malformedTurn params then world
  else
    match world.store.liveForThread thread with
    | some lease =>
        if lease.wakeMode = .session ∧
            ¬((params.get "turn").get "id").eq ((lease.turnId.map Json.str).getD .null) ∧
            lease.deliveryState ≠ .activating then
          abandonForManualChange world thread "Another turn started before wake delivery"
        else world
    | none => world

/-- `event.set()` for the handoff that waits for the end of a turn. -/
def setTurnDone (world : World) (thread : ThreadId) (turn : String) : World :=
  match world.turnDone.get? (thread, turn) with
  | some event => setDone world ((thread, turn), event)
  | none => world

/-- The calls of a turn that has ended are forgotten. -/
def forgetCalls (world : World) (thread : ThreadId) (turn : String) : World :=
  setCalls world
    (world.calls.filter fun entry => ¬(entry.1.1 = thread ∧ entry.2.1 = turn))

/-- `observe` of `turn/completed` with the id of the turn. -/
def observeTurnCompleted (world : World) (thread : ThreadId) (turn : String) : World :=
  let world := setTurnDone (world.log (.turnCompleted thread turn)) thread turn
  let world : World := match world.store.liveForThread thread with
    | some lease =>
        if lease.wakeMode = .session ∧ lease.turnId = some turn ∧
            lease.handoffState ≠ .interrupting ∧ lease.handoffState ≠ .ready then
          abandonForManualChange world thread "Originating turn ended before handoff"
        else world
    | none => world
  forgetCalls world thread turn

/-- A second connection that shows events of the thread makes its owner ambiguous. -/
def foreignOwner (world : World) (peer : PeerId) (thread : ThreadId) : Bool :=
  (world.peers.get? thread).any (· ≠ peer)

/-- `observe`. Where the source raises, the connection that delivered the event ends; what was
done before stays. -/
def observe (world : World) (peer : PeerId) (method : String) (params : Json) : World :=
  match params.get "threadId" with
  | .str thread =>
      if (method = "item/started" ∨ method = "turn/started") ∧ foreignOwner world peer thread then
        userActivity (addAmbiguous world thread) thread
      else if method = "item/started" then
        match startJobItem params with
        | some (callId, turn) => setPeer (rememberCall world peer thread callId turn) thread peer
        | none => world
      else if method = "turn/started" then observeTurnStarted world peer thread params
      else if method = "turn/completed" then
        if malformedTurn params then world
        else
          match (params.get "turn").get "id" with
          | .str turn => (observeTurnCompleted world thread turn).setThreadEvent thread
          | _ => world.setThreadEvent thread
      else if method = "thread/status/changed" then world.setThreadEvent thread
      else world
  | _ => world

/-- A thread whose owner disconnects. -/
def disownThread (world : World) (thread : ThreadId) : World :=
  discardAmbiguous (popPeer (userActivity world thread) thread) thread

/-- A registered job whose owner disconnects. -/
def disownJob (world : World) (job : JobId) : World :=
  let after : World := match world.row job with
    | some lease => userActivity world lease.threadId
    | none => world
  after.popLeasePeer job

def forgetPeerCalls (world : World) (peer : PeerId) : World :=
  setCalls world (world.calls.filter fun entry => entry.2.2 ≠ peer)

/-- The keys whose value is the given one. -/
def keysOf {Key : Type} (dict : Dict Key PeerId) (peer : PeerId) : List Key :=
  (dict.entries.filter fun entry => entry.2 = peer).map Prod.fst

/-- `disconnected` -/
def disconnected (world : World) (peer : PeerId) : World :=
  let world := (keysOf world.peers peer).foldl disownThread world
  let world := (keysOf world.leasePeers peer).foldl disownJob world
  forgetPeerCalls world peer

/-! ### Liveness and ownership -/

/-- `_live_session` -/
def liveSession (world : World) (job : JobId) : Except PyError WakeLease :=
  match world.row job with
  | some lease =>
      if lease.wakeMode ≠ .session ∨ ¬(lease.state = .armed ∨ lease.state = .terminal) ∨
          lease.deliveryState.isFinal then
        .error (runtimeError "session wake lease is no longer live")
      else .ok lease
  | none => .error (runtimeError "session wake lease is no longer live")

/-- `_owner` -/
def owner (world : World) (lease : WakeLease) : Except PyError PeerId :=
  match world.leasePeers.get? lease.jobId with
  | some peer =>
      if world.peers.get? lease.threadId = some peer ∧
          (world.ambiguousThreads.get? lease.threadId).isNone then
        .ok peer
      else .error (runtimeError "the original owning TUI is unavailable or ambiguous")
  | none => .error (runtimeError "the original owning TUI is unavailable or ambiguous")

/-- `_check_goal` with the answer to its read. -/
def checkGoal (lease : WakeLease) (result : Json) : Except PyError Unit :=
  if ¬result.hasKey "goal" then .error (runtimeError "cannot confirm unchanged Goal state")
  else if (result.get "goal").dumps ≠ lease.objective then
    .error (runtimeError "Goal changed while session continuation was pending")
  else .ok ()

/-- `_session_failed` -/
def sessionFailed (world : World) (job : JobId) (reason : String) : World :=
  match world.row job with
  | some lease =>
      if lease.state = .armed ∨ lease.state = .terminal then
        (world.update job (GoalBridge.needsManualRecovery reason)).popLeasePeer job
      else world
  | none => world

/-! ### Registration -/

/-- The checks of `_prepare` on the Goal and on its arguments. -/
def sessionArguments (jobId : JobId) (threadId : ThreadId) (goal request : Json) :
    Except PyError SessionCall := do
  if ¬goal.eq .null ∧ ¬(goal.isDict ∧ (goal.get "status").isStr "complete") then
    throw (runtimeError ("session wakeup requires no Goal or a completed Goal; " ++
      "paused Goals are not bypassed"))
  let some callId := (request.get "call_id").str?
    | throw (runtimeError "session wakeup requires trusted MCP call metadata")
  if ¬(1 ≤ callId.length ∧ callId.length ≤ 256) then
    throw (runtimeError "session wakeup requires trusted MCP call metadata")
  let some timeout := (request.get "timeout_sec").exactInt?
    | throw (valueError "invalid session wake deadline")
  let some grace := (request.get "grace_period_sec").exactInt?
    | throw (valueError "invalid session wake deadline")
  if ¬(1 ≤ timeout ∧ timeout ≤ weekSec ∧ 1 ≤ grace ∧ grace ≤ 120) then
    throw (valueError "invalid session wake deadline")
  return ⟨jobId, threadId, goal, callId, timeout, grace⟩

/-- `_prepare` up to the read of the Goal. -/
def prepare (world : World) (jobId : JobId) (request : Json) : World × Outcome :=
  let policy := if request.hasKey "wake_policy" then request.get "wake_policy" else .str "goal"
  if policy.isStr "goal" then GoalBridge.prepare world jobId request
  else
    match inStrings policy ["auto", "session"], threadIdOf (request.get "thread_id") with
    | .error error, _ => (world, raise error)
    | .ok false, _ => (world, raise (valueError "invalid wake policy"))
    | .ok true, .error error => (world, raise error)
    | .ok true, .ok threadId =>
        (world, .await (.sessionGoalGet jobId threadId request (policy.isStr "auto")))

/-- `_prepare` with the Goal: an active one goes to the Goal bridge under policy `auto`. -/
def prepareGoalState (world : World) (jobId : JobId) (threadId : ThreadId) (request : Json)
    (auto : Bool) (result : Except PyError Json) : World × Outcome :=
  match result with
  | .error error => (world, raise error)
  | .ok result =>
      let goal := result.get "goal"
      if ¬result.hasKey "goal" then (world, raise (runtimeError "cannot establish Goal state"))
      else if (goal.get "status").isStr "active" ∧ auto then
        GoalBridge.prepare world jobId request
      else
        match sessionArguments jobId threadId goal request with
        | .error error => (world, raise error)
        | .ok call => (world, .await (.sessionObserved call))

/-- `observed()` returns the call that the connection reported. -/
def prepareObserved (world : World) (call : SessionCall) : Option (World × Outcome) :=
  match world.calls.get? (call.threadId, call.callId) with
  | some (turn, peer) => some (world, .await (.sessionLock call turn peer))
  | none => none

/-- The exclusive section of `_prepare` starts, with the activity lock held. -/
def prepareExclusive (world : World) (call : SessionCall) (turn : String) (peer : PeerId) :
    World × Outcome :=
  if (world.ambiguousThreads.get? call.threadId).isSome then
    (world.unlockPeer peer,
      raise (runtimeError "session handoff requires one unambiguous owning TUI connection"))
  else if world.calls.get? (call.threadId, call.callId) ≠ some (turn, peer) then
    (world.unlockPeer peer,
      raise (runtimeError "user activity superseded the originating tool call"))
  else (world, .await (.sessionLatestTurn call turn peer))

def prepareLatestTurn (world : World) (call : SessionCall) (turn : String) (peer : PeerId)
    (result : Except PyError Json) : World × Outcome :=
  match result.bind latestTurn with
  | .error error => (world.unlockPeer peer, raise error)
  | .ok latest =>
      if ¬isTurn latest (some turn) "inProgress" then
        (world.unlockPeer peer,
          raise (runtimeError "originating tool call is no longer in the active turn"))
      else (world, .await (.sessionGoalNow call turn peer))

/-- The new lease of a session registration. -/
def newSessionLease (world : World) (call : SessionCall) (turn : String) : NewLease where
  jobId := call.jobId
  threadId := call.threadId
  objective := call.goal.dumps
  goalCreatedAt := 0
  goalUpdatedAt := 0
  deadlineAt := world.clock + call.timeoutSec + call.gracePeriodSec + 60
  wakeMode := .session
  turnId := some turn
  callId := some call.callId

/-- The answer to the second read of the Goal must show the Goal of the first. -/
def sameGoalNow (call : SessionCall) (result : Json) : Except PyError Unit :=
  if result.hasKey "goal" ∧ (result.get "goal").eq call.goal then .ok ()
  else .error (runtimeError "Goal changed before session registration")

/-- A lease that a registration may arm: none yet, or one that it has armed before. -/
def reusable (world : World) (job : JobId) : Bool :=
  (world.row job).all fun existing => existing.state = .armed && existing.handoffState = .pending

/-- Arms the lease of a registration for its owning connection. -/
def armSession (world : World) (job : JobId) (lease : WakeLease) (peer : PeerId) : World :=
  let fields : LeaseUpdate := { state := some .armed }
  (setLeasePeer (world.update job fields) job peer).scheduleDeadline (fields.apply lease)

/-- `_prepare` with the second read of the Goal: creates the lease and arms it. -/
def prepareArm (world : World) (task : TaskId) (call : SessionCall) (turn : String)
    (peer : PeerId) (result : Except PyError Json) : World × Outcome :=
  let released (world : World) (outcome : Outcome) := (world.unlockPeer peer, outcome)
  match result.bind (sameGoalNow call) with
  | .error error => released world (raise error)
  | .ok () =>
      if ¬reusable world call.jobId then
        released world (raise (runtimeError "job already has a non-reusable wake lease"))
      else
        match GoalBridge.createLease world task (newSessionLease world call turn) with
        | .error error => released world (raise error)
        | .ok (world, lease) =>
            if lease.wakeMode ≠ .session ∨ lease.turnId ≠ some turn ∨
                lease.callId ≠ some call.callId then
              released world
                (raise (runtimeError "job already belongs to a different wake registration"))
            else
              released (armSession world call.jobId lease peer)
                (answer [("automatic_wakeup", .bool true), ("wake_mode", .str "session"),
                  ("thread_id", .str call.threadId), ("turn_id", .str turn)])

/-! ### Handoff -/

def jobStates : List String :=
  ["starting", "running", "succeeded", "failed", "timed_out", "inactive_timeout", "cancelled",
    "spawn_error", "success_condition_not_met", "orphaned_recovered"]

/-- `_handoff` up to the activity lock. -/
def handoff (world : World) (jobId : JobId) (request : Json) : World × Outcome :=
  match inStrings (request.get "job_state") jobStates, (request.get "job_state").str? with
  | .ok true, some jobState =>
      match liveSession world jobId with
      | .error error => (world, raise error)
      | .ok lease =>
          if lease.handoffState = .ready then
            (world, answer [("handoff", .str "complete"), ("idempotent", .bool true)])
          else
            match owner world lease with
            | .error error => (world, raise error)
            | .ok peer => (world, .await (.handoff ⟨lease, jobState, peer⟩ .lock))
  | .error error, _ => (world, raise error)
  | _, _ => (world, raise (valueError "invalid session start receipt"))

/-- `_handoff` raises outside the activity lock. -/
def handoffFailed (world : World) (call : HandoffCall) (error : PyError) : World × Outcome :=
  (sessionFailed world call.lease.jobId ("handoff failed: " ++ error.message), raise error)

/-- `transfer` raises: the lock is released before the failure is recorded. -/
def transferException (world : World) (call : HandoffCall) (error : PyError) : World × Outcome :=
  handoffFailed (world.unlockPeer call.peer) call error

/-- `transfer` raises inside its `try`. -/
def interruptException (world : World) (call : HandoffCall) (error : PyError) : World × Outcome :=
  transferException (popTurnDone world call.lease) call error

/-- `transfer` starts, with the activity lock held. -/
def transferStart (world : World) (call : HandoffCall) : World × Outcome :=
  match liveSession world call.lease.jobId with
  | .error error => transferException world call error
  | .ok current =>
      if current.handoffState ≠ .pending then
        transferException world call
          (runtimeError "handoff already attempted; do not retry interruption")
      else (world, .await (.handoff call .checkGoal))

def transferChecked (world : World) (call : HandoffCall) (result : Except PyError Json) :
    World × Outcome :=
  match result.bind (checkGoal call.lease) with
  | .error error => transferException world call error
  | .ok () => (world, .await (.handoff call .latestTurn))

/-- `turn_done.setdefault(key, asyncio.Event())` -/
def turnDoneEvent (world : World) (lease : WakeLease) : World × Nat :=
  match world.turnDone.get? (turnKey lease) with
  | some event => (world, event)
  | none => (newTurnDone world lease, world.nextEvent)

/-- The last checks before the turn is interrupted. -/
def interruptChecks (world : World) (call : HandoffCall) (result : Except PyError Json) :
    Except PyError Unit := do
  let latest ← latestTurn (← result)
  if ¬isTurn latest call.lease.turnId "inProgress" then
    throw (runtimeError "originating turn changed before handoff")
  let _ ← liveSession world call.lease.jobId
  let _ ← owner world call.lease
  return ()

/-- `transfer` with the latest turn: interrupts it. -/
def transferInterrupt (world : World) (call : HandoffCall) (result : Except PyError Json) :
    World × Outcome :=
  match interruptChecks world call result with
  | .error error => transferException world call error
  | .ok () =>
      let (world, done) := turnDoneEvent world call.lease
      (world.update call.lease.jobId
          { handoffState := some .interrupting, receiptState := some call.jobState },
        .await (.handoff call (.interrupt done)))

def transferInterrupted (world : World) (call : HandoffCall) (done : Nat)
    (result : Except PyError Json) : World × Outcome :=
  match result with
  | .error error => interruptException world call error
  | .ok _ => (world, .await (.handoff call (.turnDone done)))

/-- The checks before the receipt is recorded. -/
def confirmChecks (world : World) (call : HandoffCall) (result : Except PyError Json) :
    Except PyError Unit := do
  let latest ← latestTurn (← result)
  if ¬isTurn latest call.lease.turnId "interrupted" then
    throw (runtimeError "App Server did not confirm interruption of the originating turn")
  let _ ← liveSession world call.lease.jobId
  return ()

/-- `transfer` with the turn read again: records the receipt. -/
def transferConfirm (world : World) (call : HandoffCall) (result : Except PyError Json) :
    World × Outcome :=
  match confirmChecks world call result with
  | .error error => interruptException world call error
  | .ok () =>
      (world.update call.lease.jobId { handoffState := some .recordingReceipt },
        .await (.handoff call .inject))

/-- `transfer` with the answer to the receipt: the handoff is complete. -/
def transferReady (world : World) (call : HandoffCall) (result : Except PyError Json) :
    World × Outcome :=
  match result.bind fun _ => liveSession world call.lease.jobId with
  | .error error => interruptException world call error
  | .ok current =>
      let fields : LeaseUpdate := { handoffState := some .ready }
      let world := world.update call.lease.jobId fields
      let world := if current.state = .terminal then world.scheduleDelivery (fields.apply current)
        else world
      ((popTurnDone world call.lease).unlockPeer call.peer,
        answer [("handoff", .str "complete")])

/-- What the `finally` clauses undo when `transfer` stops at an await. -/
def transferLeave (world : World) (call : HandoffCall) : HandoffAt → World
  | .lock => world
  | .checkGoal | .latestTurn => world.unlockPeer call.peer
  | .interrupt _ | .turnDone _ | .confirm | .inject =>
      (popTurnDone world call.lease).unlockPeer call.peer

/-- `_handoff` goes on after an await. -/
def handoffResume (world : World) (task : TaskId) (call : HandoffCall) (await : HandoffAt)
    (input : Input) : Option (World × Outcome) :=
  match await, input with
  | .lock, .ready =>
      if (world.activityLocks.get? call.peer).isSome then none
      else some (transferStart (world.lockPeer task call.peer) call)
  | .checkGoal, .reply result => some (transferChecked world call result)
  | .latestTurn, .reply result => some (transferInterrupt world call result)
  | .interrupt done, .reply result => some (transferInterrupted world call done result)
  | .turnDone done, .ready =>
      if (turnKey call.lease, done) ∈ world.doneEvents then some (world, .await (.handoff call .confirm)) else none
  | .confirm, .reply result => some (transferConfirm world call result)
  | .inject, .reply result => some (transferReady world call result)
  | await, .timeout =>
      some (handoffFailed (transferLeave world call await) call ⟨"TimeoutError", ""⟩)
  | await, .cancelled => some (transferLeave world call await, .fail .cancelled)
  | _, _ => none

/-! ### Terminal events and aborts -/

/-- `_terminal` -/
def terminal (world : World) (jobId : JobId) (request : Json) : World × Outcome :=
  match world.row jobId with
  | none => GoalBridge.terminal world jobId request
  | some lease =>
      if lease.wakeMode ≠ .session then GoalBridge.terminal world jobId request
      else
        match threadIdOf (request.get "thread_id") with
        | .error error => (world, raise error)
        | .ok threadId =>
            if lease.threadId ≠ threadId then
              (world, raise (runtimeError "wake lease belongs to another thread"))
            else if ¬(lease.state = .armed ∨ lease.state = .terminal) then
              (world, answer [("delivery_state", .str lease.deliveryState.text)])
            else
              match terminalStateOf request with
              | .error error => (world, raise error)
              | .ok terminalState =>
                  let fields : LeaseUpdate :=
                    { state := some .terminal, terminalState := some terminalState,
                      deliveryState := some .waitingForHandoff }
                  let (world, lease) :=
                    if lease.state = .terminal then (world, lease)
                    else ((world.update jobId fields).log (.terminalRecorded jobId),
                      fields.apply lease)
                  (if lease.handoffState = .ready then world.scheduleDelivery lease else world,
                    answer [("delivery_state", .str lease.deliveryState.text)])

/-- `_abort` -/
def abort (world : World) (jobId : JobId) (request : Json) : World × Outcome :=
  match world.row jobId with
  | none => GoalBridge.abort world jobId request
  | some lease =>
      if lease.wakeMode ≠ .session then GoalBridge.abort world jobId request
      else
        match threadIdOf (request.get "thread_id") with
        | .error error => (world, raise error)
        | .ok threadId =>
            if lease.threadId ≠ threadId then
              (world, raise (runtimeError "wake lease belongs to another thread"))
            else
              (abandonForManualChange world lease.threadId "Session registration aborted",
                answer [("delivery_state", .str "abandoned")])

/-! ### Delivery -/

/-- The `finally` clause of `_deliver`. -/
def wakeEnd (world : World) (lease : WakeLease) (outcome : Outcome) : World × Outcome :=
  let world := world.popDelivery lease.jobId
  (if (world.row lease.jobId).any fun current =>
      ¬(current.state = .armed ∨ current.state = .terminal) then
    world.popLeasePeer lease.jobId
  else world, outcome)

/-- The `except Exception` clause of `_deliver`. -/
def wakeException (world : World) (lease : WakeLease) (error : PyError) : World × Outcome :=
  wakeEnd (sessionFailed world lease.jobId ("session delivery failed: " ++ error.message)) lease
    (.done .null)

/-- `_deliver` starts: the owner of the lease is looked up. -/
def wakeStart (world : World) (lease : WakeLease) : World × Outcome :=
  match owner world lease with
  | .error error => wakeException world lease error
  | .ok peer => (world, .await (.wake lease peer .lock))

/-- `wake` raises: the lock is released first. -/
def wakeRaise (world : World) (lease : WakeLease) (peer : PeerId) (error : PyError) :
    World × Outcome :=
  wakeException (world.unlockPeer peer) lease error

/-- `wake` starts, with the activity lock held. -/
def wakeLocked (world : World) (lease : WakeLease) (peer : PeerId) : World × Outcome :=
  match liveSession world lease.jobId with
  | .error error => wakeRaise world lease peer error
  | .ok current =>
      if current.state ≠ .terminal ∨ current.handoffState ≠ .ready then
        wakeEnd (world.unlockPeer peer) lease (.done .null)
      else (world, .await (.wake lease peer (.checkGoal current)))

def wakeChecked (world : World) (lease : WakeLease) (peer : PeerId) (current : WakeLease)
    (result : Except PyError Json) : World × Outcome :=
  match result.bind (checkGoal current) with
  | .error error => wakeRaise world lease peer error
  | .ok () => (world, .await (.wake lease peer (.latestTurn current)))

/-- The last checks before the continuation turn is started. -/
def startChecks (world : World) (lease : WakeLease) (result : Except PyError Json) :
    Except PyError Unit := do
  let latest ← latestTurn (← result)
  if ¬isTurn latest lease.turnId "interrupted" then
    throw (runtimeError "newer user activity superseded this wakeup")
  let _ ← liveSession world lease.jobId
  let _ ← owner world lease
  return ()

/-- `wake` with the latest turn: commits, then starts the continuation turn. -/
def wakeTurnStart (world : World) (lease : WakeLease) (peer : PeerId) (current : WakeLease)
    (result : Except PyError Json) : World × Outcome :=
  match startChecks world lease result with
  | .error error => wakeRaise world lease peer error
  | .ok () =>
      (world.update lease.jobId { deliveryState := some .activating },
        .await (.wake lease peer (.turnStart current)))

/-- The id of the turn that `turn/start` created. -/
def startedTurn (result : Json) : Except PyError String :=
  if result.hasKey "turn" ∧ ¬(result.get "turn").isDict then
    .error ⟨"AttributeError",
      "'" ++ (result.get "turn").typeName ++ "' object has no attribute 'get'"⟩
  else
    match (result.get "turn").get "id" with
    | .str turn => .ok turn
    | _ => .error (runtimeError "App Server did not confirm the continuation turn")

def resumedFields (turn : String) : LeaseUpdate :=
  { state := some .delivered, deliveryState := some .resumed, wakeTurnId := some turn }

/-- `wake` with the answer to `turn/start`. The row is not read again before it is written. -/
def wakeStarted (world : World) (lease : WakeLease) (peer : PeerId)
    (result : Except PyError Json) : World × Outcome :=
  match result.bind startedTurn with
  | .error error => wakeRaise world lease peer error
  | .ok turn =>
      wakeEnd (((world.update lease.jobId (resumedFields turn)).cancelDeadline
        lease.jobId).unlockPeer peer) lease (.done .null)

/-- `_deliver` of a session lease goes on after an await. -/
def wakeResume (world : World) (task : TaskId) (lease : WakeLease) (peer : PeerId)
    (await : WakeAt) (input : Input) : Option (World × Outcome) :=
  match await, input with
  | .lock, .ready =>
      if (world.activityLocks.get? peer).isSome then none
      else some (wakeLocked (world.lockPeer task peer) lease peer)
  | .checkGoal current, .reply result => some (wakeChecked world lease peer current result)
  | .latestTurn current, .reply result => some (wakeTurnStart world lease peer current result)
  | .turnStart _, .reply result => some (wakeStarted world lease peer result)
  | .lock, .cancelled => some (wakeEnd world lease (.fail .cancelled))
  | _, .cancelled => some (wakeEnd (world.unlockPeer peer) lease (.fail .cancelled))
  | _, _ => none

/-! ### Deadlines, notifications, recovery -/

/-- `_expire_at_deadline` when its sleep is over. -/
def expireAtDeadline (world : World) (lease : WakeLease) : World × Outcome :=
  if lease.wakeMode ≠ .session then GoalBridge.expireAtDeadline world lease
  else
    ((sessionFailed world lease.jobId
        "session completion or handoff acknowledgement deadline expired").popDeadline lease.jobId,
      .done .null)

/-- A deadline task goes on after an await. -/
def deadlineResume (world : World) (lease : WakeLease) (await : DeadlineAt) (input : Input) :
    Option (World × Outcome) :=
  match await, input with
  | .start, .ready => some (world, .await (.deadline lease .sleeping))
  | .sleeping, .ready => some (expireAtDeadline world lease)
  | .start, .cancelled => some (world, .fail .cancelled)
  | .sleeping, .cancelled => some (world.popDeadline lease.jobId, .fail .cancelled)
  | _, _ => none

/-- `_on_notification` -/
def onNotification (world : World) (method : String) (params : Json) : World :=
  let lease := match params.get "threadId" with
    | .str thread => world.store.liveForThread thread
    | _ => none
  match lease with
  | some lease =>
      if lease.wakeMode = .session ∧
          (method = "thread/goal/updated" ∨ method = "thread/goal/cleared") then
        let goal := if method = "thread/goal/updated" then params.get "goal" else .null
        if goal.dumps ≠ lease.objective then
          abandonForManualChange world lease.threadId
            "Goal changed while session wakeup was pending"
        else world
      else GoalBridge.onNotification world method params
  | none => GoalBridge.onNotification world method params

/-- `_recover_lease` -/
def recoverLease (world : World) (lease : WakeLease) : World :=
  if lease.wakeMode = .session then
    world.update lease.jobId (GoalBridge.needsManualRecovery
      "coordinator restarted; session ownership must be re-established manually")
  else GoalBridge.recoverLease world lease

/-! ### Requests -/

/-- A `handoff`, `cancel_wakeup` or `wake_status` request for a job. -/
def sessionControl (world : World) (action : String) (jobId : JobId) (request : Json) :
    World × Outcome :=
  match threadIdOf (request.get "thread_id") with
  | .error error => (world, raise error)
  | .ok threadId =>
      match world.row jobId with
      | none => (world, raise (runtimeError "no matching wake lease"))
      | some lease =>
          if lease.threadId ≠ threadId then
            (world, raise (runtimeError "no matching wake lease"))
          else if lease.wakeMode ≠ .session then
            (world, raise (runtimeError "session control cannot change a Goal lease"))
          else if action = "wake_status" then
            (world, answer [("delivery_state", .str lease.deliveryState.text),
              ("error", (lease.error.map Json.str).getD .null)])
          else if action = "cancel_wakeup" then
            if ¬(lease.state = .preparing ∨ lease.state = .armed ∨ lease.state = .terminal ∨
                lease.state = .abandoned) then
              (world, answer [("wakeup_cancelled", .bool false), ("job_cancelled", .bool false),
                ("delivery_state", .str lease.deliveryState.text)])
            else
              (abandonForManualChange world threadId "Session wakeup explicitly cancelled",
                answer [("wakeup_cancelled", .bool true), ("job_cancelled", .bool false)])
          else handoff world jobId request

/-- `_dispatch` -/
def dispatch (world : World) (request : Json) : World × Outcome :=
  if ¬request.isDict then (world, raise (valueError "bridge request must be an object"))
  else if ¬(request.get "version").isInt protocolVersion then
    (world, raise (valueError "unsupported bridge protocol version"))
  else
    let action := request.get "action"
    if action.isStr "health" then
      (world, answer [("version", .int protocolVersion), ("session_wakeup_supported", .bool true),
        ("session_transport_ready", .bool (!world.peers.entries.isEmpty))])
    else if ¬action.hashable then (world, raise ⟨"TypeError", "unhashable type"⟩)
    else
      match jobIdOf (request.get "job_id") with
      | .error error => (world, raise error)
      | .ok jobId =>
          match action with
          | .str "handoff" => sessionControl world "handoff" jobId request
          | .str "cancel_wakeup" => sessionControl world "cancel_wakeup" jobId request
          | .str "wake_status" => sessionControl world "wake_status" jobId request
          | .str "prepare" => prepare world jobId request
          | .str "terminal" => terminal world jobId request
          | .str "abort" => abort world jobId request
          | _ => (world, raise (valueError ("unsupported bridge action: " ++ reprText action)))

end Longrun.Bridge.SessionBridge
