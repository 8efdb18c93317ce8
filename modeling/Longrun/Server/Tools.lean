import Longrun.Server.Metadata

/-!
# The tools of the server

What a request of the client and a task of the server do with a job: they start it, follow it, tell the
bridge about it and cancel it.
-/

namespace Longrun.Server

open Bridge (WakeMode)

inductive WakePolicy where
  | auto | goal | session | none
deriving DecidableEq

def WakePolicy.name : WakePolicy → String
  | .auto => "auto"
  | .goal => "goal"
  | .session => "session"
  | .none => "none"

def wakeModeName : WakeMode → String
  | .goal => "goal"
  | .session => "session"

/-- What the request of a tool tells about the thread it comes from. -/
structure Context where
  threadId : Option String
  callId : Json

/-! ### The bridge -/

/-- A request about a job to the bridge. -/
def bridgeRequest (action jobId threadId : String) (more : List (String × Json)) : Json := .obj
  ([("action", .str action), ("job_id", .str jobId), ("thread_id", .str threadId)] ++ more)

/-- `_abort_wake_registration`. -/
def abortWakeRegistration (jobId : String) (registration : WakeRegistration) : Coroutine Unit :=
  catching "BridgeError"
    (do
      let _ ← await (.requestBridge registration.socketPath
        (bridgeRequest "abort" jobId registration.threadId []) none)
      return ())
    fun _ => updateJobMetadata jobId [("wake_delivery", .str "abort_failed")]

/-- The mode that the bridge has answered with, if the policy admits it. -/
def wakeModeOf (policy : WakePolicy) (response : Json) : Option WakeMode :=
  let mode := if response.hasKey "wake_mode" then response.get "wake_mode" else .str "goal"
  if mode.isStr "session" then some .session
  else if mode.isStr "goal" ∧ policy ≠ .session then some .goal
  else none

/-- A bridge of an older version cannot hand a session over. -/
def checkSessionSupport (policy : WakePolicy) (socketPath : String) : Coroutine Unit :=
  if policy = .session then do
    let health ← await (.requestBridge socketPath (.obj [("action", .str "health")]) none)
    if (health.get "session_wakeup_supported").isTrue then return ()
    else .raised (.exception "BridgeError"
      "bridge does not support session handoff; restart with the updated codex-longrun launcher")
  else pure ()

/-- The exchange with the bridge in `_prepare_wake_registration`. -/
def requestWakeup (job : JobRequest) (context : Context) (policy : WakePolicy)
    (socketPath threadId : String) : Coroutine Json := do
  checkSessionSupport policy socketPath
  await (.requestBridge socketPath
    (bridgeRequest "prepare" job.jobId threadId
      [("timeout_sec", .int job.timeoutSec), ("grace_period_sec", .int job.gracePeriodSec),
        ("wake_policy", .str policy.name), ("call_id", context.callId)]) none)

/-- The bridge may have prepared the wakeup although its answer was lost. -/
def abandonWakeup (jobId socketPath threadId text : String) : Coroutine Json := do
  ignoring "BridgeError" do
    let _ ← await (.requestBridge socketPath (bridgeRequest "abort" jobId threadId []) none)
    return ()
  .raised (.exception "RuntimeError" ("Automatic wakeup setup failed: " ++ text))

/-- `_prepare_wake_registration`. -/
def prepareWakeRegistration (settings : Settings) (job : JobRequest) (context : Context)
    (policy : WakePolicy) : Coroutine (Option WakeRegistration × Option String) := do
  if policy = .none then return (none, none)
  else
    match settings.bridge, context.threadId with
    | some socketPath, some threadId =>
        let response ← catching "BridgeError"
          (requestWakeup job context policy socketPath threadId)
          (abandonWakeup job.jobId socketPath threadId)
        if ¬(response.get "automatic_wakeup").isTrue then
          .raised (.exception "RuntimeError" "Bridge did not confirm automatic wakeup")
        else if ¬(response.get "wake_mode").hashable then
          .raised (.exception "TypeError" "unhashable wake mode")
        else
          match wakeModeOf policy response with
          | none => .raised (.exception "RuntimeError" "Bridge returned an incompatible wake mode")
          | some wakeMode => return (some ⟨socketPath, threadId, wakeMode⟩, some "armed")
    | socketPath, _ =>
        if policy = .auto then return (none, some "bridge_unavailable")
        else
          let missing := if socketPath.isNone then "bridge socket" else "trusted Codex thread metadata"
          .raised (.exception "RuntimeError"
            (policy.name ++ " wakeup requested but " ++ missing ++ " is unavailable"))

/-- `_session_handoff`. -/
def sessionHandoff (settings : Settings) (jobId : String) (registration : WakeRegistration) :
    Coroutine Unit :=
  catchingAll
    (do
      let payload ← readJobMetadata jobId
      let state := if payload.hasKey "state" then payload.get "state" else .str "spawn_error"
      let response ← await (.requestBridge registration.socketPath
        (bridgeRequest "handoff" jobId registration.threadId
          [("job_state", .str (settings.str state))]) (some 20))
      if ¬(response.get "handoff").isStr "complete" then
        .raised (.exception "BridgeError" "bridge did not confirm session handoff")
      else updateJobMetadata jobId [("handoff_state", .str "complete")])
    fun type text => do
      abortWakeRegistration jobId registration
      updateJobMetadata jobId
        [("handoff_state", .str "failed"), ("automatic_wakeup", .bool false),
          ("wake_error", .str ("session handoff failed: " ++ describe type text))]
      .raised (.exception "RuntimeError"
        ("Job " ++ jobId ++ " was already started but session handoff failed: " ++ text ++
          ". Do not launch a duplicate; inspect this job with get_job."))

/-- `delivery in {"abandoned", "needs_manual_recovery"}`. -/
def isFailedDelivery (delivery : Json) : Coroutine Bool :=
  if delivery.hashable then
    pure (delivery.isStr "abandoned" || delivery.isStr "needs_manual_recovery")
  else .raised (.exception "TypeError" "unhashable delivery state")

/-- The bridge is told that a job has ended. -/
def tellTerminal (jobId : String) (registration : WakeRegistration) (state : String) :
    Coroutine Unit := do
  let response ← await (.requestBridge registration.socketPath
    (bridgeRequest "terminal" jobId registration.threadId [("terminal_state", .str state)]) none)
  let delivery := response.get "delivery_state"
  let failed ← isFailedDelivery delivery
  updateJobMetadata jobId
    (("wake_delivery", .str (delivery.str?.getD "accepted")) ::
      if failed then [("automatic_wakeup", .bool false)] else [])

/-- `_deliver_terminal_wakeup`. -/
def deliverTerminalWakeup (settings : Settings) (jobId : String) (registration : WakeRegistration) :
    Coroutine Unit := do
  match ← (readJobMetadata jobId).attempt with
  | .error .cancelled => .raised .cancelled
  | .error (.exception _ _) => return ()
  | .ok payload =>
      let state := settings.str (if payload.hasKey "state" then payload.get "state" else .str "")
      if state ∈ terminalJobStates then
        catching "BridgeError" (tellTerminal jobId registration state) fun text =>
          updateJobMetadata jobId
            [("wake_delivery", .str "delivery_failed"),
              ("wake_error", .str (describe "BridgeError" text))]
      else return ()

/-! ### Background jobs -/

/-- The record of a job whose task has failed. -/
def backgroundError (type text finishedAt : String) : List (String × Json) :=
  [("state", .str "spawn_error"), ("finished_at_utc", .str finishedAt),
    ("error", .str ("background task error: " ++ describe type text))]

/-- The delivery of a job that may have a registration. -/
def deliverRegistered (settings : Settings) (jobId : String) :
    Option WakeRegistration → Coroutine Unit
  | some registration => deliverTerminalWakeup settings jobId registration
  | none => return ()

/-- `_run_background_job`. -/
def runBackgroundJob (settings : Settings) (background : BackgroundJob) : Coroutine RunResult :=
  (catchingAll (executeJob settings background.job background.wakeMetadata true) fun type text => do
      let finishedAt ← await .utcNow
      updateJobMetadata background.job.jobId
        (backgroundError type text finishedAt ++ background.wakeMetadata)
      .raised (.exception type text)).finish
    (deliverRegistered settings background.job.jobId background.registration)

/-- What is stored of a job, or what stands for it. -/
def storedMetadata (jobId : String) : Coroutine Json := do
  match ← await (.readMetadata jobId) with
  | some payload => return payload
  | none => freshMetadata jobId

/-- The failure of a task is recorded. -/
def recordFailure (jobId type text : String) : Coroutine Unit := withJobState do
  let payload ← storedMetadata jobId
  let finishedAt ← await .utcNow
  if ¬payload.isDict then
    .raised (.exception "AttributeError"
      ("'" ++ payload.typeName ++ "' object has no attribute 'update'"))
  else await (.writeMetadata jobId (updated payload (backgroundError type text finishedAt)))

/-- `_consume_background_result`, which is called when the task of a job is done. -/
def consumeBackgroundResult (jobId : String) (result : Except Exit RunResult) : Coroutine Unit := do
  await (.forgetBackground jobId)
  match result with
  | .ok _ => return ()
  | .error .cancelled => return ()
  | .error (.exception type text) => recordFailure jobId type text

/-- The task of a job, with the callback at its end. -/
def backgroundTask (settings : Settings) (background : BackgroundJob) : Coroutine Unit := do
  let result ← (runBackgroundJob settings background).attempt
  consumeBackgroundResult background.job.jobId result

/-! ### Starting jobs -/

/-- The secret of a request, as validation returns it. -/
def JobRequest.withSecret (job : JobRequest) : SecretInput → JobRequest
  | .none => { job with stdinSecretId := none, stdinSecretIds := none }
  | .scalar handle => { job with stdinSecretId := some handle, stdinSecretIds := none }
  | .pair handles => { job with stdinSecretId := none, stdinSecretIds := some handles }

/-- The validation of `start_job`. Where it fails, it is left to `_execute_job` to reject the job. -/
def prevalidate (settings : Settings) (job : JobRequest) : Coroutine (Option String × JobRequest) :=
  catchingAll
    (do
      let cwd ← await (.resolveCwd job.cwd)
      let _ ← await (.validateArgv job.argv cwd)
      if settings.maxTimeoutSec < job.timeoutSec then
        .raised (.exception "ValueError"
          ("timeout_sec exceeds configured maximum " ++ toString settings.maxTimeoutSec))
      else
        let successContains ← checked "ValueError"
          (validateMatchText job.successContains "success_contains")
        let failureContains ← checked "ValueError"
          (validateMatchText job.failureContains "failure_contains")
        let secret ← checked "ValueError" (validateSecretInputs job.stdinSecretId job.stdinSecretIds
          successContains failureContains)
        return (some cwd, job.withSecret secret))
    fun _ _ => pure (none, job)

/-- The wakeup of a job is prepared. Where this fails, so does the job. -/
def register (settings : Settings) (job : JobRequest) (context : Context) (policy : WakePolicy) :
    Coroutine (Option WakeRegistration × Option String) :=
  catchingAll (prepareWakeRegistration settings job context policy) fun type text => do
    let finishedAt ← await .utcNow
    updateJobMetadata job.jobId
      [("state", .str "spawn_error"), ("finished_at_utc", .str finishedAt),
        ("automatic_wakeup", .bool false), ("wake_policy", .str policy.name),
        ("wake_delivery", .str "setup_failed"),
        ("error", .str ("Automatic wakeup setup failed before command start: " ++ text))]
    .raised (.exception type text)

/-- `wake_metadata`. -/
def wakeMetadata (policy : WakePolicy) (registration : Option WakeRegistration)
    (delivery : Option String) : List (String × Json) :=
  [("automatic_wakeup", .bool registration.isSome), ("wake_policy", .str policy.name)] ++
    (delivery.map fun text => ("wake_delivery", .str text)).toList ++
      match registration with
      | some registration =>
          [("wake_thread_id", .str registration.threadId),
            ("wake_mode", .str (wakeModeName registration.wakeMode))]
      | none => []

/-- A job that has passed validation is reserved, and its wakeup is prepared and recorded. -/
def reserveAndRegister (settings : Settings) (job : JobRequest) (context : Context)
    (policy : WakePolicy) (cwd : String) :
    Coroutine (Option WakeRegistration × List (String × Json)) := do
  reserveJob settings job.jobId cwd
  let (registration, delivery) ← register settings job context policy
  let fields := wakeMetadata policy registration delivery
  updateJobMetadata job.jobId fields
  return (registration, fields)

/-- Aborts a registration, if there is one. -/
def abortIfRegistered (jobId : String) : Option WakeRegistration → Coroutine Unit
  | some registration => abortWakeRegistration jobId registration
  | none => pure ()

/-- The job gets its task, which is waited for until the command runs or the job has failed. -/
def launchBackground (background : BackgroundJob) : Coroutine Unit := do
  catchingAll (await (.createBackground background)) fun type text => do
    abortIfRegistered background.job.jobId background.registration
    .raised (.exception type text)
  ignoring "TimeoutError" (await .waitReady)

/-- The turn that has started a job is handed over, if the session is to be woken up. -/
def handOver (jobId : String) : Option WakeRegistration → Coroutine Unit
  | some registration =>
      if registration.wakeMode = .session then do
        await (.createHandoff jobId registration)
        await (.waitHandoff jobId)
      else pure ()
  | none => pure ()

/-- A job that has not passed validation is neither reserved nor registered. -/
def reserveIfValid (settings : Settings) (job : JobRequest) (context : Context) (policy : WakePolicy) :
    Option String → Coroutine (Option WakeRegistration × List (String × Json))
  | some cwd => reserveAndRegister settings job context policy cwd
  | none => pure (none, wakeMetadata policy none none)

/-- `start_job`; the request gets a new identifier. -/
def startJob (settings : Settings) (request : JobRequest) (context : Context) (policy : WakePolicy) :
    Coroutine Json := do
  let jobId ← await .newJobId
  let (cwd, job) ← prevalidate settings { request with jobId := jobId }
  let (registration, fields) ← reserveIfValid settings job context policy cwd
  launchBackground ⟨job, registration, fields⟩
  handOver jobId registration
  readJobMetadata jobId

/-- `run_and_wait`. -/
def runAndWait (settings : Settings) (request : JobRequest) : Coroutine RunResult := do
  let jobId ← await .newJobId
  ignoring "ValueError" do
    let cwd ← await (.resolveCwd request.cwd)
    reserveJob settings jobId cwd
  executeJob settings { request with jobId := jobId } [] false

/-! ### Jobs that were started -/

/-- The state of a wakeup, as the bridge knows it, is recorded. -/
def refreshWakeup (jobId socketPath : String) (payload : Json) : Coroutine Unit :=
  ignoring "BridgeError" do
    let wake ← await (.requestBridge socketPath (.obj
      [("action", .str "wake_status"), ("job_id", .str jobId),
        ("thread_id", payload.get "wake_thread_id")]) (some 2))
    let failed ← isFailedDelivery (wake.get "delivery_state")
    updateJobMetadata jobId
      (("wake_delivery", wake.get "delivery_state") ::
        if failed then [("automatic_wakeup", .bool false), ("wake_error", wake.get "error")] else [])

/-- `get_job`, which returns the metadata of its answer. -/
def getJob (settings : Settings) (jobId : String) : Coroutine Json := do
  let payload ← readJobMetadata jobId
  match settings.bridge with
  | some socketPath =>
      if (payload.get "wake_mode").isStr "session" then
        refreshWakeup jobId socketPath payload
        readJobMetadata jobId
      else readJobMetadata jobId
  | none => readJobMetadata jobId

/-- `cancel_wakeup`, which returns whether the wakeup was cancelled. -/
def cancelWakeup (settings : Settings) (jobId : String) (context : Context) : Coroutine Bool := do
  let payload ← readJobMetadata jobId
  match settings.bridge, context.threadId with
  | some socketPath, some threadId =>
      if ¬(payload.get "wake_thread_id").isStr threadId then
        .raised (.exception "RuntimeError"
          "cancelling a wakeup requires its originating thread and bridge")
      else if ¬(payload.get "wake_mode").isStr "session" then
        .raised (.exception "RuntimeError"
          "Goal wakeups follow the existing Goal pause/cancel controls")
      else
        let reply ← await (.requestBridge socketPath (bridgeRequest "cancel_wakeup" jobId threadId [])
          none)
        if (reply.get "wakeup_cancelled").isTrue then
          updateJobMetadata jobId
            [("automatic_wakeup", .bool false), ("wake_delivery", .str "cancelled_by_user")]
          return true
        else return false
  | _, _ =>
      .raised (.exception "RuntimeError"
        "cancelling a wakeup requires its originating thread and bridge")

/-- The cancellation is recorded, unless the job is over. -/
def recordCancellation (settings : Settings) (jobId : String) : Coroutine (Option Json) :=
  withJobState do
    let payload ← readJobMetadata jobId
    let state := settings.str (if payload.hasKey "state" then payload.get "state" else .str "spawn_error")
    if state ∈ terminalJobStates then return none
    else
      let now ← await .utcNow
      checkJobId jobId
      let payload := payload.set "cancel_requested_at_utc" (.str now)
      await (.writeMetadata jobId payload)
      return some payload

/-- The supervisor of a job of another server is told to stop. -/
def signalSupervisor (payload : Json) : Coroutine Unit := do
  if ← pidMatches (payload.get "pid") (payload.get "process_start_ticks") then
    ignoring "ProcessLookupError"
      (await (.terminateProcess ((payload.get "pid").int?.getD 0)))
  else return ()

/-- `cancel_job`, which returns whether the cancellation was requested. -/
def cancelJob (settings : Settings) (jobId : String) : Coroutine Bool := do
  match ← recordCancellation settings jobId with
  | none => return false
  | some payload =>
      if ← await (.cancelBackground jobId) then return true
      else
        signalSupervisor payload
        return true

end Longrun.Server
