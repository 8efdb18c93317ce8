import Longrun.Server.Executor

/-!
# The metadata of jobs

The server processes of a state directory share the metadata files of their jobs. What reads a file and
writes it again holds a lock; the executor of a job replaces the file of its own job without it.
-/

namespace Longrun.Server

/-- `JOB_ID_RE.fullmatch(job_id)`. -/
def isJobId (jobId : String) : Bool :=
  (jobId.length = 12 ∨ jobId.length = 32) ∧
    jobId.toList.all fun char => ('a' ≤ char ∧ char ≤ 'f') ∨ ('0' ≤ char ∧ char ≤ '9')

/-- `_metadata_path`, of which only the check is modelled. -/
def checkJobId (jobId : String) : Coroutine Unit :=
  if isJobId jobId then pure () else .raised (.exception "ValueError" "invalid job_id")

/-- `try: body except error as exc: handler`. -/
def catching {Value : Type} (error : String) (body : Coroutine Value)
    (handler : String → Coroutine Value) : Coroutine Value :=
  body.handle fun exit =>
    match exit with
    | .exception type text =>
        if catches error type then handler text else .raised (.exception type text)
    | .cancelled => .raised .cancelled

/-- `try: body except Exception as exc: handler`. -/
def catchingAll {Value : Type} (body : Coroutine Value)
    (handler : String → String → Coroutine Value) : Coroutine Value :=
  body.handle fun exit =>
    match exit with
    | .exception type text => handler type text
    | .cancelled => .raised .cancelled

/-! ### Owners -/

/-- `_pid_matches`. -/
def pidMatches (pid startTicks : Json) : Coroutine Bool :=
  match pid.int?, startTicks.str? with
  | some pid, some ticks => do return (← await (.procStartTicks pid)) = some ticks
  | _, _ => pure false

/-- `payload.get("state") in {"queued", "starting", "running"}`. -/
def isActive (payload : Json) : Coroutine Bool :=
  let state := payload.get "state"
  if state.hashable then pure (activeJobStates.any state.isStr)
  else .raised (.exception "TypeError" "unhashable state")

/-- The process that has accepted a job still runs. -/
def ownerMatches (payload : Json) : Coroutine Bool :=
  pidMatches (payload.get "server_pid") (payload.get "server_start_ticks")

/-! ### Recovery -/

/-- The command group of an orphaned job is killed, if it is still the one that was recorded. -/
def killCommandGroup (payload : Json) : Coroutine Bool := do
  if ← pidMatches (payload.get "command_pgid") (payload.get "command_start_ticks") then
    let pgid := (payload.get "command_pgid").int?.getD 0
    catching "PermissionError"
      (catching "ProcessLookupError"
        (do
          if (← await (.getpgid pgid)) = pgid then
            await (.killpg pgid)
            return true
          else return false)
        fun _ => pure false)
      fun _ => pure false
  else return false

/-- The supervisor of an orphaned job is killed, if it is still the one that was recorded. -/
def killSupervisor (payload : Json) : Coroutine Bool := do
  if ← pidMatches (payload.get "pid") (payload.get "process_start_ticks") then
    catching "PermissionError"
      (catching "ProcessLookupError"
        (do
          await (.killProcess ((payload.get "pid").int?.getD 0))
          return true)
        fun _ => pure false)
      fun _ => pure false
  else return false

/-- An orphaned job gets its final record. -/
def recoverJob (jobId : String) (payload : Json) : Coroutine Unit := do
  let groupTerminated ← killCommandGroup payload
  let supervisorTerminated ← killSupervisor payload
  let finishedAt ← await .utcNow
  await (.writeMetadata jobId (updated payload
    [("state", .str "orphaned_recovered"), ("finished_at_utc", .str finishedAt),
      ("recovery_terminated_command_group", .bool groupTerminated),
      ("recovery_terminated_supervisor", .bool supervisorTerminated),
      ("error", .str "the owning MCP server exited before recording a terminal result")]))

/-- One file of the loop of `_recover_orphaned_jobs_locked`. -/
def recoverIfOrphaned (jobId : String) (payload : Json) : Coroutine Nat := do
  if ¬payload.isDict then return 0
  else if ¬(← isActive payload) then return 0
  else if ← ownerMatches payload then return 0
  else
    recoverJob jobId payload
    return 1

/-- The loop of `_recover_orphaned_jobs_locked`. -/
def recoverAll : List String → Nat → Coroutine Nat
  | [], recovered => pure recovered
  | jobId :: rest, recovered => do
      match ← await (.readMetadata jobId) with
      | none => recoverAll rest recovered
      | some payload =>
          let more ← recoverIfOrphaned jobId payload
          recoverAll rest (recovered + more)

/-- `_recover_orphaned_jobs`, which every server runs as it starts. -/
def recoverOrphanedJobs : Coroutine Nat := withJobState do
  await .ensureStateDirs
  let names ← await .listMetadata
  recoverAll names 0

/-! ### Reservation -/

/-- One file of the loop of `_active_job_count_locked`. -/
def countsAsActive (payload : Json) : Coroutine Bool := do
  if ¬payload.isDict then return false
  else if ¬(← isActive payload) then return false
  else ownerMatches payload

/-- The loop of `_active_job_count_locked`. -/
def countActive : List String → Nat → Coroutine Nat
  | [], active => pure active
  | jobId :: rest, active => do
      match ← await (.readMetadata jobId) with
      | none => countActive rest active
      | some payload =>
          let counts ← countsAsActive payload
          countActive rest (if counts then active + 1 else active)

/-- `_active_job_count_locked`. -/
def activeJobCountLocked : Coroutine Nat := do
  let names ← await .listMetadata
  countActive names 0

section Settings

variable (settings : Settings)

/-- The first record of a job. -/
def queuedMetadata (jobId cwd startedAt : String) : Json := .obj
  [("job_id", .str jobId),
    ("state", .str "queued"),
    ("started_at_utc", .str startedAt),
    ("server_pid", .int settings.serverPid),
    ("server_start_ticks", optional .str settings.serverStartTicks),
    ("command_display", .str "<pending validation>"),
    ("cwd", .str cwd),
    ("log_path", .str (settings.logPath jobId))]

/-- `_reserve_job`. -/
def reserveJob (jobId cwd : String) : Coroutine Unit := withJobState do
  let active ← activeJobCountLocked
  if settings.maxActiveJobs ≤ active then
    .raised (.exception "RuntimeError"
      ("active job limit reached (" ++ toString active ++ "/" ++ toString settings.maxActiveJobs ++
        ")"))
  else
    checkJobId jobId
    let startedAt ← await .utcNow
    await (.writeMetadata jobId (queuedMetadata settings jobId cwd startedAt))

/-! ### Reading and updating -/

/-- `_read_job_metadata`. -/
def readJobMetadata (jobId : String) : Coroutine Json := do
  checkJobId jobId
  let payload ← catching "FileNotFoundError" (await (.loadMetadata jobId)) fun _ =>
    .raised (.exception "FileNotFoundError" ("no job metadata found for " ++ jobId))
  if ¬payload.isDict ∨ ¬(payload.get "job_id").isStr jobId then
    .raised (.exception "ValueError" ("invalid metadata for job " ++ jobId))
  else
    match (payload.get "cwd").str? with
    | none => return payload
    | some cwd =>
        if ← await (.isAllowed cwd) then return payload
        else .raised (.exception "PermissionError"
          ("job " ++ jobId ++ " is outside the currently allowed roots"))

/-- What is updated where the metadata file cannot be read. -/
def freshMetadata (jobId : String) : Coroutine Json := do
  let startedAt ← await .utcNow
  return .obj [("job_id", .str jobId), ("started_at_utc", .str startedAt), ("cwd", .str "")]

/-- The payload that `_update_job_metadata` starts from. -/
def currentMetadata (jobId : String) : Coroutine Json := do
  match ← await (.readMetadata jobId) with
  | some payload => if payload.isDict then return payload else freshMetadata jobId
  | none => freshMetadata jobId

/-- `_update_job_metadata`. -/
def updateJobMetadata (jobId : String) (fields : List (String × Json)) : Coroutine Unit := do
  checkJobId jobId
  withJobState do
    let payload ← currentMetadata jobId
    await (.writeMetadata jobId (updated payload fields))

end Settings

end Longrun.Server
