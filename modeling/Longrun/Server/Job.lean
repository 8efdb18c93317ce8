import Longrun.Bridge.State
import Longrun.Library.Json
import Longrun.Library.Script
import Longrun.Secret.Pair
import Longrun.Server.Output
import Longrun.Server.Redaction
import Longrun.Server.Tail

/-!
# Jobs

What the coroutines of the server work with: the request and the settings of a job, its metadata and
its result, and the calls by which a coroutine reaches files, processes, the clock and the bridge.
-/

namespace Longrun.Server

/-- How a coroutine is left early: by an exception, or because its task is cancelled. -/
inductive Exit where
  | exception (type text : String)
  | cancelled
deriving DecidableEq

/-- `f"{type(exc).__name__}: {exc}"`. -/
def describe (type text : String) : String := type ++ ": " ++ text

/-- A text as a JSON string. A file cannot be written with a surrogate in it. -/
def textString (text : Text) : String :=
  String.ofList (text.map fun point =>
    if point.IsSurrogate then Char.ofNat CodePoint.replacement.val else Char.ofNat point.val)

/-- `None` or a value. -/
def optional {Value : Type} (toJson : Value → Json) : Option Value → Json
  | some value => toJson value
  | none => .null

/-- `{**value, **fields}`. -/
def updated (value : Json) (fields : List (String × Json)) : Json :=
  fields.foldl (fun value field => value.set field.1 field.2) value

section Updated

variable {value : Json} {fields : List (String × Json)} {key : String}

theorem isDict_updated : (updated value fields).isDict = value.isDict := by
  induction fields generalizing value with
  | nil => rfl
  | cons field fields ih => exact ih.trans (Json.isDict_set ..)

theorem get_updated_of_notMem (absent : key ∉ fields.map Prod.fst) :
    (updated value fields).get key = value.get key := by
  induction fields generalizing value with
  | nil => rfl
  | cons field fields ih =>
      rw [List.map_cons, List.mem_cons, not_or] at absent
      exact (ih absent.2).trans (Json.get_set_of_ne _ _ absent.1)

theorem get_updated_cons (isDict : value.isDict = true) {item : Json}
    (absent : key ∉ fields.map Prod.fst) :
    (updated value ((key, item) :: fields)).get key = item := by
  have set : (updated (value.set key item) fields).get key = (value.set key item).get key :=
    get_updated_of_notMem absent
  exact set.trans (Json.get_set_self isDict key item)

end Updated

/-! ### Settings and requests -/

/-- The settings of a server process, with what it uses of the libraries. -/
structure Settings where
  mapping : CaseMapping
  maxTimeoutSec : Int
  maxLogBytes : Nat
  maxActiveJobs : Nat
  heartbeatInitialSec : Int
  heartbeatIntervalSec : Int
  forwardEnvNames : List String
  jobsDir : String
  serverPid : Int
  serverStartTicks : Option String
  bridgeSocket : Option String
  /-- `_argv_digest` -/
  argvDigest : List Text → String
  /-- `int(line.strip())`, unless it raises `ValueError` -/
  parseInt : List UInt8 → Option Int
  /-- `repr(line)` -/
  reprBytes : List UInt8 → String
  /-- `str(value)` of a value that is no string -/
  reprValue : Json → String

namespace Settings

variable (settings : Settings) (jobId : String)

def logPath : String := settings.jobsDir ++ "/" ++ jobId ++ ".log"

def tailPath : String := settings.jobsDir ++ "/" ++ jobId ++ ".tail.txt"

def metadataPath : String := settings.jobsDir ++ "/" ++ jobId ++ ".json"

/-- `str(value)`. -/
def str : Json → String
  | .str text => text
  | value => settings.reprValue value

/-- `BRIDGE_SOCKET`, unless it is empty. -/
def bridge : Option String := settings.bridgeSocket.filter (· ≠ "")

end Settings

structure WakeRegistration where
  socketPath : String
  threadId : String
  wakeMode : Bridge.WakeMode

/-- The arguments of `_execute_job`, without the event and the wake metadata. -/
structure JobRequest where
  jobId : String
  argv : List Text
  cwd : String
  timeoutSec : Int
  noOutputTimeoutSec : Int
  gracePeriodSec : Int
  successContains : Option Text
  failureContains : Option Text
  tailLines : Nat
  tailBytes : Nat
  /-- `ctx is not None` -/
  reportsProgress : Bool
  stdinSecretId : Option Secret.SecretId
  stdinSecretIds : Option (Dict Text Secret.SecretId)

/-- The secret that a job is given. -/
inductive SecretInput where
  | none
  | scalar (handle : Secret.SecretId)
  | pair (handles : Dict Text Secret.SecretId)

/-- `_validate_stdin_secret_id`. -/
def validateStdinSecretId :
    Option Secret.SecretId → Except String (Option Secret.SecretId)
  | none => .ok none
  | some handle =>
      if handle = [] then .ok none
      else if Secret.isSecretId handle then .ok (some handle)
      else .error "stdin_secret_id must be a 32-character lowercase hexadecimal handle"

/-- `_validate_secret_inputs`. -/
def validateSecretInputs (scalar : Option Secret.SecretId)
    (pair : Option (Dict Text Secret.SecretId)) (successContains failureContains : Option MatchText) :
    Except String SecretInput := do
  let scalar ← validateStdinSecretId scalar
  let pair ← Secret.validateSecretPair pair
  let matching := successContains.isSome || failureContains.isSome
  match scalar, pair with
  | some _, some _ => .error "stdin_secret_id and stdin_secret_ids are mutually exclusive"
  | some handle, none =>
      if matching then
        .error "success_contains and failure_contains are unavailable with secret stdin"
      else .ok (.scalar handle)
  | none, some handles =>
      if matching then
        .error "success_contains and failure_contains are unavailable with secret stdin"
      else .ok (.pair handles)
  | none, none => .ok .none

/-- A request that has passed `_execute_job`'s own validation. -/
structure ValidJob where
  cwd : String
  argv : List Text
  successContains : Option MatchText
  failureContains : Option MatchText
  secret : SecretInput
  /-- The forwarded names that the environment of the server has. -/
  forwarded : List String

namespace JobRequest

variable (job : JobRequest)

/-- `stdin_secret_supplied`, which suppresses the output as well. -/
def secretSupplied : Bool :=
  job.stdinSecretId.any (· ≠ []) || job.stdinSecretIds.isSome

end JobRequest

/-! ### Results -/

/-- The name of a state in metadata and answers. -/
def RunState.name : RunState → String
  | .succeeded => "succeeded"
  | .failed => "failed"
  | .timedOut => "timed_out"
  | .inactiveTimeout => "inactive_timeout"
  | .successConditionNotMet => "success_condition_not_met"
  | .spawnError => "spawn_error"
  | .cancelled => "cancelled"

/-- `TERMINAL_JOB_STATES`. -/
def terminalJobStates : List String :=
  ["succeeded", "failed", "timed_out", "inactive_timeout", "success_condition_not_met",
    "spawn_error", "cancelled", "orphaned_recovered"]

/-- The states of a job that is not over. -/
def activeJobStates : List String := ["queued", "starting", "running"]

structure RunResult where
  jobId : String
  state : RunState
  exitCode : Option Int
  durationSec : ℚ
  startedAtUtc : String
  finishedAtUtc : String
  commandDisplay : String
  cwd : String
  logPath : String
  metadataPath : String
  outputBytesSeen : Nat
  outputBytesLogged : Nat
  logTruncated : Bool
  stdinSecretSupplied : Bool
  outputSuppressed : Bool
  successMatch : Option Text
  failureMatch : Option Text
  error : Option String
  tail : Text

namespace RunResult

variable (result : RunResult)

/-- `model_dump()`, as a list of fields. -/
def fields : List (String × Json) :=
  [("job_id", .str result.jobId),
    ("state", .str result.state.name),
    ("exit_code", optional .int result.exitCode),
    ("duration_sec", .float result.durationSec),
    ("started_at_utc", .str result.startedAtUtc),
    ("finished_at_utc", .str result.finishedAtUtc),
    ("command_display", .str result.commandDisplay),
    ("cwd", .str result.cwd),
    ("log_path", .str result.logPath),
    ("metadata_path", .str result.metadataPath),
    ("output_bytes_seen", .int result.outputBytesSeen),
    ("output_bytes_logged", .int result.outputBytesLogged),
    ("log_truncated", .bool result.logTruncated),
    ("stdin_secret_supplied", .bool result.stdinSecretSupplied),
    ("output_suppressed", .bool result.outputSuppressed),
    ("success_match", optional (.str ∘ textString) result.successMatch),
    ("failure_match", optional (.str ∘ textString) result.failureMatch),
    ("error", optional .str result.error),
    ("tail", .str (textString result.tail))]

def dump : Json := .obj result.fields

def fieldNames : List String :=
  ["job_id", "state", "exit_code", "duration_sec", "started_at_utc", "finished_at_utc",
    "command_display", "cwd", "log_path", "metadata_path", "output_bytes_seen",
    "output_bytes_logged", "log_truncated", "stdin_secret_supplied", "output_suppressed",
    "success_match", "failure_match", "error", "tail"]

/-- A record shows a result if it has every field of it. -/
def ShownBy (record : Json) : Prop := ∀ field ∈ result.fields, record.get field.1 = field.2

variable {result} {more : List (String × Json)}

theorem get_dump {field : String × Json} (mem : field ∈ result.fields) :
    result.dump.get field.1 = field.2 := by
  have distinct : (result.fields.map Prod.fst).Nodup := by
    change fieldNames.Nodup
    decide
  have found : result.fields.lookup field.1 = some field.2 := by
    cases lookup : result.fields.lookup field.1 with
    | none =>
        have isKey := Json.isSome_lookup_iff.mpr (List.mem_map_of_mem (f := Prod.fst) mem)
        simp [lookup] at isKey
    | some value =>
        have same := List.inj_on_of_nodup_map distinct (Json.mem_of_lookup lookup) mem rfl
        rw [← same]
  simp [dump, Json.get, found]

/-- What is added to a result under other names leaves it shown. -/
theorem shownBy_updated (others : ∀ field ∈ more, field.1 ∉ fieldNames) :
    result.ShownBy (updated result.dump more) := by
  intro field mem
  have absent : field.1 ∉ more.map Prod.fst := by
    intro isKey
    rcases List.mem_map.mp isKey with ⟨other, otherMem, same⟩
    apply others other otherMem
    rw [same]
    exact List.mem_map_of_mem (f := Prod.fst) mem
  rw [get_updated_of_notMem absent, get_dump mem]

theorem ShownBy.state {record : Json} (shown : result.ShownBy record) :
    record.get "state" = .str result.state.name :=
  shown ("state", .str result.state.name) (by simp [fields])

end RunResult

/-- What the tracker of a job has at a moment, with the two fields that `_wait_with_limits` sets. -/
structure TrackerReport where
  tracker : OutputTracker
  heartbeatReportsCompleted : Nat
  heartbeatError : Option String

end Longrun.Server
