import Longrun.Server.Job

/-!
# The executor of a job

`_execute_job` validates a request once more, claims its secret, starts the command under a
supervisor, follows it to its end and records the result. Any call may raise, and where the coroutine
waits it may be cancelled.
-/

namespace Longrun.Server

/-- How the supervisor is started. -/
structure Spawn where
  parentPid : Int
  gracePeriodSec : Int
  statusFd : Nat
  secretFd : Option Nat
  command : List Text
  cwd : String
  environment : List String

/-- The process that was started. -/
structure Child where
  pid : Int
  /-- `proc.stdout is not None` -/
  hasStdout : Bool

/-- The arguments of `_run_background_job` that the task of a job is created with. -/
structure BackgroundJob where
  job : JobRequest
  registration : Option WakeRegistration
  wakeMetadata : List (String × Json)

inductive Call where
  /-- `_ensure_state_dirs` -/
  | ensureStateDirs
  | utcNow
  | monotonic
  /-- `round(time.monotonic() - started, 3)` -/
  | duration (started : ℚ)
  /-- `_resolve_cwd` -/
  | resolveCwd (cwd : String)
  /-- `_validate_argv` -/
  | validateArgv (argv : List Text) (cwd : String)
  /-- The names of `FORWARD_ENV_NAMES` in the environment of `_build_process_env`. -/
  | buildEnvironment (cwd : String)
  /-- `_atomic_write_json` of the metadata file of a job. -/
  | writeMetadata (jobId : String) (value : Json)
  /-- The metadata file of a job, where `none` stands for an `OSError` or a `ValueError`. -/
  | readMetadata (jobId : String)
  /-- `_atomic_write_text` of the tail file of a job. -/
  | writeTail (jobId : String) (text : Text)
  /-- `_atomic_write_text` of `latest-log-path`. -/
  | writeLatestLogPath (path : String)
  /-- `flock(LOCK_EX)` -/
  | lockState
  | unlockState
  /-- `claim_one_time_secret` -/
  | claimSecret (handle : Secret.SecretId)
  /-- `claim_secret_pair` -/
  | claimSecretPair (handles : Dict Text Secret.SecretId)
  | pipe
  | close (fd : Nat)
  /-- `create_subprocess_exec` -/
  | spawn (request : Spawn)
  /-- `connect_read_pipe` -/
  | connectReadPipe (fd : Nat)
  /-- `reader.readline()`, for 2 seconds at most. -/
  | readLine
  | closeTransport (fd : Nat)
  /-- `_proc_start_ticks` -/
  | procStartTicks (pid : Int)
  | setReady
  /-- `create_task(_drain_output(…))` -/
  | startReader (suppressOutput : Bool) (successContains failureContains : Option MatchText)
  /-- `_wait_with_limits` -/
  | waitWithLimits (started : ℚ) (timeoutSec noOutputTimeoutSec : Int) (reportsProgress : Bool)
  | returncode
  | terminate
  /-- `wait_for(proc.wait(), …)` -/
  | waitFor (seconds : Int)
  | kill
  /-- `proc.wait()` -/
  | wait
  | readerDone
  | cancelReader
  /-- `await reader_task` -/
  | joinReader
  /-- What the tracker has. -/
  | report
  /-- `_new_job_id` -/
  | newJobId
  /-- `JOBS_DIR.glob("*.json")`, as the names of jobs -/
  | listMetadata
  /-- `json.loads(path.read_text(…))` of the metadata file of a job -/
  | loadMetadata (jobId : String)
  /-- Whether the resolved directory is within the allowed roots. -/
  | isAllowed (cwd : String)
  | getpgid (pid : Int)
  /-- `os.killpg(…, SIGKILL)` -/
  | killpg (pgid : Int)
  /-- `os.kill(…, SIGKILL)` -/
  | killProcess (pid : Int)
  /-- `os.kill(…, SIGTERM)` -/
  | terminateProcess (pid : Int)
  /-- `request_bridge`, with a timeout if it is not the default one -/
  | requestBridge (socketPath : String) (request : Json) (timeoutSec : Option Int)
  /-- `create_task(_run_background_job(…))`, which also becomes known under the name of its job -/
  | createBackground (background : BackgroundJob)
  /-- `wait_for(ready_event.wait(), 3.0)` -/
  | waitReady
  /-- `create_task(_session_handoff(…))` -/
  | createHandoff (jobId : String) (registration : WakeRegistration)
  /-- `await asyncio.shield(handoff)` -/
  | waitHandoff (jobId : String)
  /-- `_BACKGROUND_JOBS.get(job_id)`, which is cancelled if there is one -/
  | cancelBackground (jobId : String)
  /-- `_BACKGROUND_JOBS.pop(job_id, None)` -/
  | forgetBackground (jobId : String)

@[reducible]
def Call.Answer : Call → Type
  | .utcNow => String
  | .monotonic => ℚ
  | .duration _ => ℚ
  | .resolveCwd _ => String
  | .validateArgv _ _ => List Text
  | .buildEnvironment _ => List String
  | .readMetadata _ => Option Json
  | .claimSecret _ => Nat
  | .claimSecretPair _ => Nat
  | .pipe => Nat × Nat
  | .spawn _ => Child
  | .readLine => List UInt8
  | .procStartTicks _ => Option String
  | .waitWithLimits _ _ _ _ => Option StopReason
  | .returncode => Option Int
  | .wait => Int
  | .readerDone => Bool
  | .report => TrackerReport
  | .newJobId => String
  | .listMetadata => List String
  | .loadMetadata _ => Json
  | .isAllowed _ => Bool
  | .getpgid _ => Int
  | .requestBridge _ _ _ => Json
  | .cancelBackground _ => Bool
  | _ => Unit

abbrev server : Interface := ⟨Call, Call.Answer⟩

abbrev Coroutine (Value : Type) : Type := Script server Exit Value

def await (request : Call) : Coroutine request.Answer :=
  @Script.perform server Exit request

/-- A function that returns or raises at once. -/
def checked {Value : Type} (type : String) (result : Except String Value) : Coroutine Value :=
  .ofExcept (result.mapError (Exit.exception type))

/-- `ValueError` and its subclasses. -/
def valueErrors : List String :=
  ["ValueError", "UnicodeError", "UnicodeDecodeError", "UnicodeEncodeError",
    "UnicodeTranslateError", "JSONDecodeError", "UnsupportedOperation", "ValidationError"]

/-- `except error` catches the exceptions of a type. Of the classes that the server catches by name
only `ValueError` has subclasses. -/
def catches (error type : String) : Bool :=
  if error = "ValueError" then type ∈ valueErrors else type = error

/-- `try: … except error: pass`. -/
def ignoring (error : String) (body : Coroutine Unit) : Coroutine Unit :=
  body.handle fun exit =>
    match exit with
    | .exception type text => if catches error type then pure () else .raised (.exception type text)
    | .cancelled => .raised .cancelled

/-- `except error: pass` does not catch it. -/
def Exit.escapes (error : String) : Exit → Bool
  | .exception type _ => !catches error type
  | .cancelled => true

/-- `_locked_job_state`. -/
def withJobState {Value : Type} (body : Coroutine Value) : Coroutine Value := do
  await .ensureStateDirs
  await .lockState
  body.finish (await .unlockState)

/-! ### Validation -/

/-- The `try` block at the beginning of `_execute_job`. -/
def validate (settings : Settings) (job : JobRequest) : Coroutine ValidJob := do
  let cwd ← await (.resolveCwd job.cwd)
  let argv ← await (.validateArgv job.argv cwd)
  if settings.maxTimeoutSec < job.timeoutSec then
    .raised (.exception "ValueError"
      ("timeout_sec exceeds configured maximum " ++ toString settings.maxTimeoutSec))
  else
    let successContains ← checked "ValueError"
      (validateMatchText job.successContains "success_contains")
    let failureContains ← checked "ValueError"
      (validateMatchText job.failureContains "failure_contains")
    let secret ← checked "ValueError"
      (validateSecretInputs job.stdinSecretId job.stdinSecretIds successContains failureContains)
    let forwarded ← await (.buildEnvironment cwd)
    return ⟨cwd, argv, successContains, failureContains, secret, forwarded⟩

/-! ### Records -/

/-- What `_execute_job` knows from its beginning. -/
structure Execution where
  settings : Settings
  job : JobRequest
  wakeMetadata : List (String × Json)
  /-- `ready_event is not None` -/
  hasReadyEvent : Bool
  startedAt : String
  started : ℚ

namespace Execution

variable (execution : Execution)

/-- `if ready_event is not None: ready_event.set()`. -/
def ready : Coroutine Unit := if execution.hasReadyEvent then await .setReady else pure ()

/-- A result of the kinds that `_execute_job` makes: they differ in the end of the command, in what
was seen of its output and in the names under which it is shown. -/
def result (state : RunState) (exitCode : Option Int) (duration : ℚ) (finishedAt display cwd : String)
    (supplied : Bool) (error : Option String) (seen : Option TrackerReport) : RunResult where
  jobId := execution.job.jobId
  state := state
  exitCode := exitCode
  durationSec := duration
  startedAtUtc := execution.startedAt
  finishedAtUtc := finishedAt
  commandDisplay := display
  cwd := cwd
  logPath := execution.settings.logPath execution.job.jobId
  metadataPath := execution.settings.metadataPath execution.job.jobId
  outputBytesSeen := seen.elim 0 (·.tracker.bytesSeen)
  outputBytesLogged := seen.elim 0 (·.tracker.bytesWritten)
  logTruncated := seen.elim false (·.tracker.logTruncated)
  stdinSecretSupplied := supplied
  outputSuppressed := supplied
  successMatch := seen.bind (·.tracker.successMatch)
  failureMatch := seen.bind (·.tracker.failureMatch)
  error := error
  tail := seen.elim [] fun report =>
    limitTail report.tracker.tailText execution.job.tailLines execution.job.tailBytes

/-- Records a result that ends with `spawn_error`. -/
def fail (exitCode : Option Int) (display cwd : String) (supplied : Bool) (error : String)
    (seen : Option TrackerReport) : Coroutine RunResult := do
  let duration ← await (.duration execution.started)
  let finishedAt ← await .utcNow
  let result :=
    execution.result .spawnError exitCode duration finishedAt display cwd supplied (some error) seen
  await (.writeMetadata execution.job.jobId (updated result.dump execution.wakeMetadata))
  execution.ready
  return result

end Execution

/-- What `_execute_job` knows of a valid request. -/
structure Launch extends Execution where
  valid : ValidJob

namespace Launch

variable (launch : Launch)

/-- `command_display` -/
def display : String := textString (commandDisplay launch.settings.mapping launch.valid.argv)

/-- `forwarded_env_names`, as metadata has them. -/
def forwardedNames : Json := .arr (launch.valid.forwarded.map .str)

/-- `initial_metadata`. -/
def initialMetadata : Json :=
  updated (.obj
    [("job_id", .str launch.job.jobId),
      ("state", .str "starting"),
      ("started_at_utc", .str launch.startedAt),
      ("server_pid", .int launch.settings.serverPid),
      ("server_start_ticks", optional .str launch.settings.serverStartTicks),
      ("argv_sha256", .str (launch.settings.argvDigest launch.valid.argv)),
      ("command_display", .str launch.display),
      ("cwd", .str launch.valid.cwd),
      ("log_path", .str (launch.settings.logPath launch.job.jobId)),
      ("timeout_sec", .int launch.job.timeoutSec),
      ("no_output_timeout_sec", .int launch.job.noOutputTimeoutSec),
      ("heartbeat_initial_sec", .int launch.settings.heartbeatInitialSec),
      ("heartbeat_interval_sec", .int launch.settings.heartbeatIntervalSec),
      ("forwarded_env_names", launch.forwardedNames),
      ("stdin_secret_supplied", .bool launch.job.secretSupplied),
      ("output_suppressed", .bool launch.job.secretSupplied)])
    launch.wakeMetadata

/-- A failure of a valid request. -/
def fail (exitCode : Option Int) (error : String) (seen : Option TrackerReport) :
    Coroutine RunResult :=
  launch.toExecution.fail exitCode launch.display launch.valid.cwd launch.job.secretSupplied error
    seen

end Launch

/-! ### Processes and descriptors -/

/-- The beginning of `_terminate_process`: the supervisor is given the grace period. -/
def requestStop (gracePeriodSec : Int) : Coroutine Unit := do
  if (← await .returncode).isNone then
    ignoring "ProcessLookupError" (await .terminate)
    ignoring "TimeoutError" (await (.waitFor (gracePeriodSec + 2)))

/-- The end of `_terminate_process`. -/
def killIfRunning : Coroutine Unit := do
  if (← await .returncode).isNone then
    ignoring "ProcessLookupError" (await .kill)
    let _ ← await .wait

/-- `_terminate_process`. -/
def terminateProcess (gracePeriodSec : Int) : Coroutine Unit := do
  requestStop gracePeriodSec
  killIfRunning

/-- `_read_command_pgid`. -/
def readCommandPgid (settings : Settings) (fd : Nat) : Coroutine Int := do
  (await (.connectReadPipe fd)).handle fun exit => do
    await (.close fd)
    .raised exit
  let line ← (await .readLine).finish (await (.closeTransport fd))
  match settings.parseInt line with
  | none =>
      .raised (.exception "RuntimeError"
        ("supervisor returned an invalid command PGID: " ++ settings.reprBytes line))
  | some pgid =>
      if pgid ≤ 0 then
        .raised (.exception "RuntimeError"
          ("supervisor returned a non-positive command PGID: " ++ toString pgid))
      else return pgid

/-- Closes a descriptor, if there is one. -/
def closeIfOpen : Option Nat → Coroutine Unit
  | some fd => await (.close fd)
  | none => pure ()

/-- Claims the secret of a job. -/
def claim : SecretInput → Coroutine (Option Nat)
  | .none => pure none
  | .scalar handle => do return some (← await (.claimSecret handle))
  | .pair handles => do return some (← await (.claimSecretPair handles))

/-- Starts the supervisor; the descriptors that it has inherited are closed. -/
def Launch.start (launch : Launch) (statusFd : Nat) (secretFd : Option Nat) : Coroutine Child :=
  (await (.spawn ⟨launch.settings.serverPid, launch.job.gracePeriodSec, statusFd, secretFd,
      launch.valid.argv, launch.valid.cwd, launch.valid.forwarded⟩)).finish do
    await (.close statusFd)
    closeIfOpen secretFd

/-! ### The running command -/

/-- What is recorded of a process. -/
structure Identity where
  pid : Int
  processStartTicks : Option String
  commandPgid : Int
  commandStartTicks : Option String

namespace Identity

/-- The fields in metadata. -/
def fields (identity : Identity) : List (String × Json) :=
  [("pid", .int identity.pid),
    ("process_start_ticks", optional .str identity.processStartTicks),
    ("command_pgid", .int identity.commandPgid),
    ("command_start_ticks", optional .str identity.commandStartTicks)]

end Identity

namespace Launch

variable (launch : Launch)

/-- `initial_metadata` of a command that runs. -/
def runningMetadata (identity : Identity) : Json :=
  updated launch.initialMetadata (("state", .str "running") :: identity.fields)

/-- The cancellation while the supervisor starts. -/
def cancelStartup : Coroutine RunResult := do
  terminateProcess launch.job.gracePeriodSec
  let finishedAt ← await .utcNow
  let duration ← await (.duration launch.started)
  let exitCode ← await .returncode
  await (.writeMetadata launch.job.jobId (updated launch.initialMetadata
    ([("state", .str "cancelled"), ("finished_at_utc", .str finishedAt),
      ("duration_sec", .float duration), ("exit_code", optional .int exitCode),
      ("error", .str "cancelled while waiting for supervisor startup")] ++ launch.wakeMetadata)))
  launch.ready
  .raised .cancelled

/-- `try: await reader_task except BaseException: pass`. -/
def settleReader : Coroutine Unit := (await .joinReader).handle fun _ => pure ()

/-- The cancellation of a command that runs. -/
def cancelRunning (identity : Identity) : Coroutine RunResult := do
  terminateProcess launch.job.gracePeriodSec
  settleReader
  let report ← await .report
  await (.writeTail launch.job.jobId report.tracker.tailText)
  let finishedAt ← await .utcNow
  let duration ← await (.duration launch.started)
  let exitCode ← await .returncode
  await (.writeMetadata launch.job.jobId (updated (launch.runningMetadata identity)
    ([("state", .str "cancelled"), ("finished_at_utc", .str finishedAt),
      ("duration_sec", .float duration), ("exit_code", optional .int exitCode),
      ("output_bytes_seen", .int report.tracker.bytesSeen),
      ("output_bytes_logged", .int report.tracker.bytesWritten),
      ("log_truncated", .bool report.tracker.logTruncated),
      ("heartbeat_reports_completed", .int report.heartbeatReportsCompleted),
      ("heartbeat_error", optional .str report.heartbeatError),
      ("tail_path", .str (launch.settings.tailPath launch.job.jobId))] ++ launch.wakeMetadata)))
  .raised .cancelled

/-- `if not reader_task.done(): reader_task.cancel()`. -/
def stopReader : Coroutine Unit := do
  if ¬(← await .readerDone) then await .cancelReader

/-- An exception while the command runs. -/
def failRunning (type text : String) : Coroutine RunResult := do
  terminateProcess launch.job.gracePeriodSec
  stopReader
  settleReader
  let report ← await .report
  await (.writeTail launch.job.jobId report.tracker.tailText)
  let exitCode ← await .returncode
  launch.fail exitCode ("runtime error: " ++ describe type text) (some report)

/-- `if stop_reason is not None: await _terminate_process(…)`. -/
def stopFor (stopReason : Option StopReason) : Coroutine Unit :=
  if stopReason.isSome then terminateProcess launch.job.gracePeriodSec else pure ()

/-- Follows the command to its end. -/
def follow : Coroutine (Option StopReason × Int) := do
  let stopReason ← await (.waitWithLimits launch.started launch.job.timeoutSec
    launch.job.noOutputTimeoutSec launch.job.reportsProgress)
  launch.stopFor stopReason
  let exitCode ← await .wait
  await .joinReader
  return (stopReason, exitCode)

/-- The keys of the metadata that belong to the wakeup of a job. -/
def wakeKeys : List String :=
  ["automatic_wakeup", "wake_delivery", "wake_mode", "handoff_state", "wake_error"]

/-- The fields of a completed job beside its result, as they stand before the commit. -/
def completedFields (identity : Identity) (report : TrackerReport) : List (String × Json) :=
  identity.fields ++
    [("server_pid", .int launch.settings.serverPid),
      ("server_start_ticks", optional .str launch.settings.serverStartTicks),
      ("argv_sha256", launch.initialMetadata.get "argv_sha256"),
      ("tail_path", .str (launch.settings.tailPath launch.job.jobId)),
      ("forwarded_env_names", launch.initialMetadata.get "forwarded_env_names"),
      ("heartbeat_reports_completed", .int report.heartbeatReportsCompleted),
      ("heartbeat_error", optional .str report.heartbeatError)] ++ launch.wakeMetadata

/-- The fields that a commit takes from the stored metadata. -/
def keptFields (current : Json) (cancelled : Bool) : List (String × Json) :=
  (if cancelled then [("cancel_requested_at_utc", current.get "cancel_requested_at_utc")] else []) ++
    (wakeKeys.filter current.hasKey).map fun key => (key, current.get key)

/-- Python's truth value. -/
def truthy : Json → Bool
  | .null => false
  | .bool value => value
  | .int value => value ≠ 0
  | .float value => value ≠ 0
  | .str value => value ≠ ""
  | .arr items => ¬items.isEmpty
  | .obj fields => ¬fields.isEmpty

/-- The terminal commit of a command that has ended. -/
def commit (identity : Identity) (stopReason : Option StopReason) (exitCode : Int)
    (report : TrackerReport) : Coroutine RunResult := withJobState do
  let current := (← await (.readMetadata launch.job.jobId)).getD (.obj [])
  let cancelled := truthy (current.get "cancel_requested_at_utc")
  let state := if cancelled then .cancelled else resultState stopReason (some exitCode) report.tracker
  let duration ← await (.duration launch.started)
  let finishedAt ← await .utcNow
  let result := launch.result state (some exitCode) duration finishedAt launch.display
    launch.valid.cwd launch.job.secretSupplied none (some report)
  await (.writeMetadata launch.job.jobId
    (updated result.dump (launch.completedFields identity report ++ keptFields current cancelled)))
  return result

/-- The output of the command is read until the command ends, and its end is recorded. -/
def conclude (identity : Identity) : Coroutine RunResult := do
  await (.startReader launch.job.secretSupplied launch.valid.successContains
    launch.valid.failureContains)
  match ← launch.follow.attempt with
  | .error .cancelled => launch.cancelRunning identity
  | .error (.exception type text) => launch.failRunning type text
  | .ok (stopReason, exitCode) =>
      let report ← await .report
      await (.writeTail launch.job.jobId report.tracker.tailText)
      launch.commit identity stopReason exitCode report

/-- The command runs. -/
def supervise (pid commandPgid : Int) : Coroutine RunResult := do
  let processStartTicks ← await (.procStartTicks pid)
  let commandStartTicks ← await (.procStartTicks commandPgid)
  let identity : Identity := ⟨pid, processStartTicks, commandPgid, commandStartTicks⟩
  await (.writeMetadata launch.job.jobId (launch.runningMetadata identity))
  launch.ready
  launch.conclude identity

/-- The supervisor has been started. -/
def awaitStartup (child : Child) (statusFd : Nat) : Coroutine RunResult := do
  if ¬child.hasStdout then
    await (.close statusFd)
    terminateProcess launch.job.gracePeriodSec
    .raised (.exception "RuntimeError" "subprocess stdout pipe was not created")
  else
    match ← (readCommandPgid launch.settings statusFd).attempt with
    | .error .cancelled => launch.cancelStartup
    | .error (.exception type text) =>
        terminateProcess launch.job.gracePeriodSec
        let exitCode ← await .returncode
        launch.fail exitCode ("supervisor startup error: " ++ describe type text) none
    | .ok commandPgid => launch.supervise child.pid commandPgid

/-- The command is started with its secret. -/
def run (secretFd : Option Nat) : Coroutine RunResult := do
  match ← (await .pipe).attempt with
  | .error exit =>
      closeIfOpen secretFd
      .raised exit
  | .ok (readFd, writeFd) =>
      match ← (launch.start writeFd secretFd).attempt with
      | .error .cancelled => .raised .cancelled
      | .error (.exception type text) =>
          await (.close readFd)
          launch.fail none ("spawn error: " ++ describe type text) none
      | .ok child => launch.awaitStartup child readFd

/-- A valid request. -/
def execute : Coroutine RunResult := do
  await (.writeMetadata launch.job.jobId launch.initialMetadata)
  await (.writeLatestLogPath (launch.settings.logPath launch.job.jobId))
  match ← (claim launch.valid.secret).attempt with
  | .error .cancelled => .raised .cancelled
  | .error (.exception _ text) =>
      launch.toExecution.fail none launch.display launch.valid.cwd true
        ("secret stdin error: " ++ text) none
  | .ok secretFd => launch.run secretFd

end Launch

/-- `_execute_job`. -/
def executeJob (settings : Settings) (job : JobRequest) (wakeMetadata : List (String × Json))
    (hasReadyEvent : Bool) : Coroutine RunResult := do
  await .ensureStateDirs
  let startedAt ← await .utcNow
  let started ← await .monotonic
  let execution : Execution := ⟨settings, job, wakeMetadata, hasReadyEvent, startedAt, started⟩
  match ← (validate settings job).attempt with
  | .error .cancelled => .raised .cancelled
  | .error (.exception _ text) =>
      execution.fail none "<rejected command>" job.cwd job.secretSupplied
        ("validation error: " ++ text) none
  | .ok valid => Launch.execute ⟨execution, valid⟩

end Longrun.Server
