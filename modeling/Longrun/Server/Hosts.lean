import Longrun.Library.Interleaved
import Longrun.Server.Tools

/-!
# Servers that share a state directory

Any number of server processes come and go over one state directory. Their tools, their background
tasks and the recovery at their start take turns at every call. Files are replaced atomically, the lock
is exclusive, and two processes differ in their number or in the time of their start.
-/

namespace Longrun.Server

/-- A process: its number and the time of its start. -/
abbrev ProcessIdentity := Int × String

def Settings.identity (settings : Settings) : Option ProcessIdentity :=
  settings.serverStartTicks.map fun ticks => (settings.serverPid, ticks)

/-- What a request is validated against, and the limit that the servers agree on. -/
structure Host where
  resolveCwd : String → Except Exit String
  validateArgv : List Text → String → Except Exit (List Text)
  buildEnvironment : String → Except Exit (List String)
  maxActiveJobs : Nat

/-- Who brings a job to its end: a task, or one that was created and has not begun. -/
inductive Holder where
  | task (number : Nat)
  | waiting
  deriving DecidableEq

/-- The state directory and the processes, with what has become of the jobs. -/
structure Directory where
  files : Dict String Json
  /-- The processes that run. -/
  processes : Int → Option String
  /-- The processes that have run. -/
  born : List ProcessIdentity
  lock : Option Nat
  /-- What the holder of the lock has read last. -/
  reading : Option (String × Json)
  /-- The servers that the tasks belong to. -/
  settings : Nat → Option Settings
  /-- The servers that have issued the identifiers. -/
  servers : String → Option ProcessIdentity
  holders : String → Option Holder
  /-- The background tasks that have not begun. -/
  waiting : List (Settings × BackgroundJob)

namespace Directory

def initial : Directory where
  files := .empty
  processes _ := none
  born := []
  lock := none
  reading := none
  settings _ := none
  servers _ := none
  holders _ := none
  waiting := []

variable (directory : Directory)

def Lives (identity : ProcessIdentity) : Prop := directory.processes identity.1 = some identity.2

instance instDecidableLives (identity : ProcessIdentity) : Decidable (directory.Lives identity) :=
  inferInstanceAs (Decidable (_ = _))

/-- The server of a task. -/
def serverOf (task : Nat) : Option ProcessIdentity :=
  (directory.settings task).bind Settings.identity

/-- The server of a task runs. -/
def Runs (task : Nat) : Prop := ∃ identity ∈ directory.serverOf task, directory.Lives identity

instance instDecidableRuns (task : Nat) : Decidable (directory.Runs task) :=
  decidable_of_iff (((directory.serverOf task).any fun identity => directory.Lives identity) = true)
    (by simp [Runs, Option.any_eq_true])

def acquire (task : Nat) : Directory := { directory with lock := some task, reading := none }

def release (task : Nat) : Directory :=
  if directory.lock = some task then { directory with lock := none, reading := none } else directory

/-- A file is read, which matters if the reader holds the lock. -/
def read (task : Nat) (jobId : String) : Directory :=
  if directory.lock = some task then
    { directory with reading := (directory.files.get? jobId).map fun payload => (jobId, payload) }
  else directory

def write (jobId : String) (value : Json) : Directory :=
  { directory with files := directory.files.set jobId value }

/-- A new identifier. -/
def issue (task : Nat) (jobId : String) : Directory :=
  { directory with
    servers := Function.update directory.servers jobId (directory.serverOf task)
    holders := Function.update directory.holders jobId (some (.task task)) }

/-- A background task is created. -/
def create (settings : Settings) (background : BackgroundJob) : Directory :=
  { directory with
    holders := Function.update directory.holders background.job.jobId (some .waiting)
    waiting := directory.waiting ++ [(settings, background)] }

/-- A task begins. -/
def begin (task : Nat) (settings : Settings) : Directory :=
  { directory with settings := Function.update directory.settings task (some settings) }

/-- A process begins. -/
def launch (identity : ProcessIdentity) : Directory :=
  { directory with
    processes := Function.update directory.processes identity.1 (some identity.2)
    born := identity :: directory.born }

/-- A process ends. -/
def stop (pid : Int) : Directory :=
  { directory with processes := Function.update directory.processes pid none }

/-- The lock is released where the process of its holder has ended. -/
def dropLock : Directory :=
  if directory.lock.any fun task => ¬directory.Runs task then
    { directory with lock := none, reading := none }
  else directory

/-- A background task begins. -/
def beginBackground (task index : Nat) (settings : Settings) (background : BackgroundJob) : Directory :=
  { directory with
    settings := Function.update directory.settings task (some settings)
    holders := Function.update directory.holders background.job.jobId (some (.task task))
    waiting := directory.waiting.eraseIdx index }

end Directory

/-- A call that works on files and time only, and does not raise `ValueError`. -/
def Call.IsPlain : Call → Bool
  | .ensureStateDirs => true
  | .utcNow => true
  | .lockState => true
  | .unlockState => true
  | .listMetadata => true
  | .writeMetadata _ _ => true
  | _ => false

/-- The answer to a call, in view of what else may happen, where nothing that is read fails. -/
def answer (host : Host) (task : Nat) (directory : Directory) :
    (request : Call) → Except Exit request.Answer → Option (Except Exit request.Answer × Directory)
  | .resolveCwd cwd, _ => some (host.resolveCwd cwd, directory)
  | .validateArgv argv cwd, _ => some (host.validateArgv argv cwd, directory)
  | .buildEnvironment cwd, _ => some (host.buildEnvironment cwd, directory)
  | .procStartTicks pid, _ => some (.ok (directory.processes pid), directory)
  | .readMetadata jobId, _ => some (.ok (directory.files.get? jobId), directory.read task jobId)
  | .loadMetadata jobId, .ok _ =>
      (directory.files.get? jobId).map fun payload => (.ok payload, directory.read task jobId)
  | .writeMetadata jobId value, .ok _ => some (.ok (), directory.write jobId value)
  | .listMetadata, .ok names =>
      if directory.files.entries.all fun entry => entry.1 ∈ names then some (.ok names, directory)
      else none
  | .lockState, .ok _ =>
      if directory.lock = none then some (.ok (), directory.acquire task) else none
  | .unlockState, .ok _ => some (.ok (), directory.release task)
  | .newJobId, .ok jobId =>
      if isJobId jobId = true ∧ directory.servers jobId = none then
        some (.ok jobId, directory.issue task jobId)
      else none
  | .createBackground background, .ok _ =>
      (directory.settings task).map fun settings => (.ok (), directory.create settings background)
  | .close _, .error _ => none
  | .closeTransport _, .error _ => none
  | .returncode, .error _ => none
  | request, .error exit =>
      if request.IsPlain = true ∧ exit.escapes "ValueError" = false then none
      else some (.error exit,
        match request with
        | .unlockState => directory.release task
        | _ => directory)
  | _, choice => some (choice, directory)

section Answer

variable {host : Host} {task : Nat} {directory : Directory} {jobId : String} {exit : Exit}

theorem answer_resolveCwd {cwd : String} {choice : Except Exit String} :
    answer host task directory (.resolveCwd cwd) choice =
      some (host.resolveCwd cwd, directory) := rfl

theorem answer_validateArgv {argv : List Text} {cwd : String}
    {choice : Except Exit (List Text)} :
    answer host task directory (.validateArgv argv cwd) choice =
      some (host.validateArgv argv cwd, directory) := rfl

theorem answer_procStartTicks {pid : Int} {choice : Except Exit (Option String)} :
    answer host task directory (.procStartTicks pid) choice =
      some (.ok (directory.processes pid), directory) := rfl

theorem answer_readMetadata {choice : Except Exit (Option Json)} :
    answer host task directory (.readMetadata jobId) choice =
      some (.ok (directory.files.get? jobId), directory.read task jobId) := rfl

theorem answer_loadMetadata {value : Json} :
    answer host task directory (.loadMetadata jobId) (.ok value) =
      (directory.files.get? jobId).map fun payload =>
        (.ok payload, directory.read task jobId) := rfl

theorem answer_loadMetadata_error :
    answer host task directory (.loadMetadata jobId) (.error exit) =
      some (.error exit, directory) := rfl

theorem answer_writeMetadata {value : Json} {done : Unit} :
    answer host task directory (.writeMetadata jobId value) (.ok done) =
      some (.ok (), directory.write jobId value) := rfl

theorem answer_listMetadata {names : List String} :
    answer host task directory .listMetadata (.ok names) =
      if directory.files.entries.all fun entry => entry.1 ∈ names then some (.ok names, directory)
      else none := rfl

theorem answer_lockState {done : Unit} :
    answer host task directory .lockState (.ok done) =
      if directory.lock = none then some (.ok (), directory.acquire task) else none := rfl

theorem answer_unlockState {done : Unit} :
    answer host task directory .unlockState (.ok done) =
      some (.ok (), directory.release task) := rfl

theorem answer_unlockState_error :
    answer host task directory .unlockState (.error exit) =
      if Call.unlockState.IsPlain = true ∧ exit.escapes "ValueError" = false then none
      else some (.error exit, directory.release task) := rfl

theorem answer_newJobId {name : String} :
    answer host task directory .newJobId (.ok name) =
      if isJobId name = true ∧ directory.servers name = none then
        some (.ok name, directory.issue task name)
      else none := rfl

theorem answer_newJobId_error :
    answer host task directory .newJobId (.error exit) = some (.error exit, directory) := rfl

theorem answer_createBackground {background : BackgroundJob} {done : Unit} :
    answer host task directory (.createBackground background) (.ok done) =
      (directory.settings task).map fun settings =>
        (.ok (), directory.create settings background) := rfl

theorem answer_createBackground_error {background : BackgroundJob} :
    answer host task directory (.createBackground background) (.error exit) =
      some (.error exit, directory) := rfl

/-- A call that works on files and time only fails with an exception that goes on. -/
theorem answer_plain_error (request : Call) (plain : request.IsPlain = true)
    (keeps : request ≠ .unlockState) :
    answer host task directory request (.error exit) =
      if request.IsPlain = true ∧ exit.escapes "ValueError" = false then none
      else some (.error exit, directory) := by
  cases request <;> first | rfl | exact absurd rfl keeps | cases plain

end Answer

/-- The answer to a call, where reading may also fail: with an error that is taken for the end of a
process or for a missing file, or with another exception. -/
def reply (host : Host) (task : Nat) (directory : Directory) :
    (request : Call) → Except Exit request.Answer → Option (Except Exit request.Answer × Directory)
  | .procStartTicks _, .ok none => some (.ok none, directory)
  | .procStartTicks _, .error exit => some (.error exit, directory)
  | .readMetadata _, .ok none => some (.ok none, directory)
  | .readMetadata _, .error exit => some (.error exit, directory)
  | request, choice => answer host task directory request choice

/-- A call is served as long as the server runs. -/
def serve (host : Host) (task : Nat) (directory : Directory) (request : Call)
    (choice : Except Exit request.Answer) : Option (Except Exit request.Answer × Directory) :=
  if directory.Runs task then reply host task directory request choice else none

/-- What begins in a server, or happens to it. -/
inductive Entry where
  | launch (identity : ProcessIdentity)
  | exit (pid : Int)
  | recover (settings : Settings)
  | startJob (settings : Settings) (request : JobRequest) (context : Context) (policy : WakePolicy)
  | runAndWait (settings : Settings) (request : JobRequest)
  | getJob (settings : Settings) (jobId : String)
  | cancelWakeup (settings : Settings) (jobId : String) (context : Context)
  | cancelJob (settings : Settings) (jobId : String)
  | handoff (settings : Settings) (jobId : String) (registration : WakeRegistration)
  | background (index : Nat)

/-- The server runs under the common limit. -/
def Host.runs (host : Host) (directory : Directory) (settings : Settings) : Bool :=
  settings.maxActiveJobs = host.maxActiveJobs &&
    settings.identity.any fun identity => directory.Lives identity

/-- A tool or a task, of which only what it does to the directory is of interest. -/
def discard {Value : Type} (body : Coroutine Value) : Coroutine Unit := do
  let _ ← body
  return ()

/-- What a server does. -/
def bodyOf : Entry → Option (Settings × Coroutine Unit)
  | .recover settings => some (settings, discard recoverOrphanedJobs)
  | .startJob settings request context policy =>
      some (settings, discard (startJob settings request context policy))
  | .runAndWait settings request => some (settings, discard (runAndWait settings request))
  | .getJob settings jobId => some (settings, discard (getJob settings jobId))
  | .cancelWakeup settings jobId context => some (settings, discard (cancelWakeup settings jobId context))
  | .cancelJob settings jobId => some (settings, discard (cancelJob settings jobId))
  | .handoff settings jobId registration => some (settings, sessionHandoff settings jobId registration)
  | _ => none

def enter (host : Host) (task : Nat) (directory : Directory) :
    Entry → Option (Directory × Coroutine Unit)
  | .launch identity =>
      if directory.processes identity.1 = none ∧ identity ∉ directory.born then
        some (directory.launch identity, pure ())
      else none
  | .exit pid => some ((directory.stop pid).dropLock, pure ())
  | .background index =>
      (directory.waiting[index]?).bind fun (settings, background) =>
        if host.runs directory settings then
          some (directory.beginBackground task index settings background,
            backgroundTask settings background)
        else none
  | entry =>
      (bodyOf entry).bind fun (settings, body) =>
        if host.runs directory settings then some (directory.begin task settings, body) else none

/-- The servers of a state directory. -/
def servers (host : Host) : Interleaved server Exit Nat Entry Directory where
  initial := .initial
  enter := enter host
  serve := serve host

/-- Nothing that is read at this step fails. -/
def ReadsSucceed (_world : Process.World server Exit Nat Directory) :
    Process.Action server Exit Nat Entry → Prop
  | .enter _ _ => True
  | .resume _ choices =>
      (∀ pid, ∃ ticks, choices (.procStartTicks pid) = .ok (some ticks)) ∧
        ∀ jobId, ∃ payload, choices (.readMetadata jobId) = .ok (some payload)

/-- A call is served without failing to read. -/
def serveSteadily (host : Host) (task : Nat) (directory : Directory) (request : Call)
    (choice : Except Exit request.Answer) : Option (Except Exit request.Answer × Directory) :=
  if directory.Runs task then answer host task directory request choice else none

/-- The servers as long as nothing that is read fails. -/
def steadyServers (host : Host) : Interleaved server Exit Nat Entry Directory where
  initial := .initial
  enter := enter host
  serve := serveSteadily host

variable {host : Host} {world : Process.World server Exit Nat Directory}
  {action : Process.Action server Exit Nat Entry}

theorem reply_of_readsSucceed {task : Nat} {directory : Directory} {request : Call}
    {choices : ∀ request : Call, Except Exit request.Answer}
    (reads : ReadsSucceed world (.resume task choices)) :
    reply host task directory request (choices request) =
      answer host task directory request (choices request) := by
  cases request with
  | procStartTicks pid =>
      rcases reads.1 pid with ⟨ticks, found⟩
      rw [found, reply]
      all_goals simp
  | readMetadata jobId =>
      rcases reads.2 jobId with ⟨payload, found⟩
      rw [found, reply]
      all_goals simp
  | _ => rfl

/-- A step whose reads succeed is one of the steady servers. -/
theorem steadyServers_step (reads : ReadsSucceed world action) :
    (steadyServers host).step world action = (servers host).step world action := by
  cases action with
  | enter task entry => rfl
  | resume task choices =>
      cases waiting : world.scripts task with
      | call request resume =>
          have same : (steadyServers host).serve task world.memory request (choices request) =
              (servers host).serve task world.memory request (choices request) := by
            simp only [steadyServers, servers, serve, serveSteadily, reply_of_readsSucceed reads]
          simp only [Interleaved.step, waiting, same]
      | _ => simp only [Interleaved.step, waiting]

theorem reachable_steadyServers
    (reachable : (servers host).system.ReachableBy ReadsSucceed world) :
    (steadyServers host).system.Reachable world := by
  induction reachable with
  | refl => exact .refl _
  | tail action _ reads taken ih =>
      exact ih.next trivial ((steadyServers_step reads).trans taken)

end Longrun.Server
