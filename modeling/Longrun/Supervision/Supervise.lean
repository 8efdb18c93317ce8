import Longrun.Library.Processes
import Longrun.Library.Transition

/-!
# Supervisors of commands

The supervisor of a job and the guard of a daemon start a command in a session of its own, pass on
the end of their parent to its process group, and sweep the group before they let the identifier
of the command go. The model runs them among any other processes: what those do to the table of
processes, when, and how long anything takes is left open.
-/

namespace Longrun.Supervision

open ProcessTable

inductive Signal where
  | sigterm
  | sigkill
  deriving DecidableEq

/-- Where a supervisor is. -/
inductive Pc where
  /-- `prctl(PR_SET_PDEATHSIG, …)` -/
  | enableDeathSignal
  /-- `os.getppid()` -/
  | checkParent
  /-- The guard looks for a termination request before it forks. -/
  | checkRequested
  | fork
  /-- `os.waitid(…)` without reaping -/
  | waitid
  | sweepTerm
  /-- `time.sleep(0.1)` -/
  | sweepPause
  | sweepKill
  /-- `os.waitpid(command_pid, 0)` -/
  | reap
  /-- The guard looks at the pipe from its parent. -/
  | select
  | checkTermination
  /-- `termination_started_at = time.monotonic()` -/
  | startClock
  | measure
  | signal (sig : Signal)
  /-- `time.sleep(0.05)` -/
  | pause
  | returned (code : Nat)
  /-- An exception has left the supervisor. -/
  | raised
  deriving DecidableEq

/-- Where the command is before it executes its program. -/
inductive Prelude where
  | enableDeathSignal
  | checkParent
  | setsid
  /-- It exits without becoming the program. -/
  | leaving
  | program
  deriving DecidableEq

/-- The two programs. -/
inductive Program where
  | jobExec
  | parentGuard
  deriving DecidableEq

/-- A supervisor: itself, the parent that it expects, its grace period, and whether SIGTERM was
blocked when its program was started. -/
structure Supervisor where
  program : Program
  pid : Nat
  birth : Nat
  parentPid : Nat
  parentBirth : Nat
  gracePeriodSec : Nat
  sigtermBlocked : Bool

/-- The process that was forked for the command. -/
structure Command where
  pid : Nat
  birth : Nat

/-- A signal that was sent to the group of the command. -/
structure Sent where
  sig : Signal
  time : ℚ
  group : Nat
  /-- The processes when it was sent. -/
  table : ProcessTable

/-- The processes that it reached. -/
def Sent.recipients (sent : Sent) : List UnixProcess :=
  (sent.table.members sent.group).filter (·.foreign = false)

structure World where
  table : ProcessTable
  now : ℚ
  pc : Pc
  prelude : Prelude
  command : Option Command
  /-- `_termination_requested`, with the time since when it is set. -/
  terminationRequested : Option ℚ
  terminationStartedAt : Option ℚ
  sent : List Sent

namespace World

/-- `_request_termination`. -/
def request (world : World) : World :=
  { world with terminationRequested := some (world.terminationRequested.getD world.now) }

/-- `_signal_command_group`: an empty group is no error, one without any process that may be
signalled is. -/
def signalCommandGroup (world : World) (group : Nat) (sig : Signal) (next : Pc) : World :=
  if world.table.members group = [] then { world with pc := next }
  else if (world.table.members group).all (·.foreign) then { world with pc := .raised }
  else
    { world with
      pc := next
      sent := ⟨sig, world.now, group, world.table⟩ :: world.sent
      table := if sig = .sigkill then world.table.killGroup group else world.table }

/-- A call of the process of a birth, which runs. -/
def performs (world : World) (birth : Nat) (call : SystemCall) : Option World :=
  match found : world.table.find birth with
  | some process =>
      if acts : process.Acts then
        (world.table.perform process (List.mem_of_find?_eq_some found) acts call).map
          fun table => { world with table }
      else none
  | none => none

end World

/-- `_exit_code`, of a wait status as the kernel encodes it. -/
def exitCode (waitStatus : Nat) : Nat :=
  if waitStatus % 128 = 0 then waitStatus / 256 % 256
  else if waitStatus % 128 ≠ 127 then 128 + waitStatus % 128
  else 1

namespace Supervisor

/-- Where the command begins. -/
def preludeStart (supervisor : Supervisor) : Prelude :=
  if supervisor.program = .parentGuard then .enableDeathSignal else .setsid

/-- The child of the supervisor with the identifier of the command. -/
def child (supervisor : Supervisor) (world : World) (command : Command) : Option UnixProcess :=
  (world.table.withPid command.pid).filter (·.parent = supervisor.pid)

/-- After `waitid` has found nothing. -/
def unended (supervisor : Supervisor) (world : World) : Pc :=
  if supervisor.program = .parentGuard ∧ world.terminationRequested = none then .select else .checkTermination

/-- The next step of `_supervise` once the command is forked. -/
def supervise (supervisor : Supervisor) (world : World) (command : Command) : Option World :=
  match world.pc with
  | .waitid =>
      match supervisor.child world command with
      | some process =>
          some { world with
            pc := if process.ended.isSome then .sweepTerm else supervisor.unended world }
      | none => some { world with pc := .raised }
  | .sweepTerm => some (world.signalCommandGroup command.pid .sigterm .sweepPause)
  | .sweepPause => some { world with pc := .sweepKill }
  | .sweepKill => some (world.signalCommandGroup command.pid .sigkill .reap)
  | .reap =>
      match supervisor.child world command with
      | some process =>
          match process.ended with
          | some status =>
              (world.performs supervisor.birth (.waitpid command.pid)).map fun after =>
                { after with pc := .returned (exitCode status) }
          | none => none
      | none => some { world with pc := .raised }
  | .checkTermination =>
      some { world with
        pc :=
          if world.terminationRequested = none then
            if supervisor.program = .parentGuard then .waitid else .pause
          else if world.terminationStartedAt = none then .startClock
          else .measure }
  | .startClock =>
      some { world with pc := .measure, terminationStartedAt := some world.now }
  | .measure =>
      world.terminationStartedAt.map fun started =>
        { world with
          pc := .signal
            (if supervisor.gracePeriodSec ≤ world.now - started then .sigkill else .sigterm) }
  | .signal sig => some (world.signalCommandGroup command.pid sig .pause)
  | .pause => some { world with pc := .waitid }
  | _ => none

/-- The next step of the supervisor, where nothing from outside is needed for it. -/
def advance (supervisor : Supervisor) (world : World) : Option World :=
  match world.pc with
  | .enableDeathSignal =>
      (world.performs supervisor.birth .armDeathSignal).map fun after => { after with pc := .checkParent }
  | .checkParent =>
      (world.table.find supervisor.birth).map fun process =>
        { world with
          pc :=
            if process.parent ≠ supervisor.parentPid then .returned 143
            else if supervisor.program = .parentGuard then .checkRequested
            else .fork }
  | .checkRequested =>
      some { world with pc := if world.terminationRequested = none then .fork else .returned 143 }
  | _ => world.command.bind (supervisor.supervise world)

/-- The supervisor runs. -/
def Runs (supervisor : Supervisor) (world : World) : Prop :=
  ∃ process ∈ world.table.processes, process.birth = supervisor.birth ∧ process.Acts

instance (supervisor : Supervisor) (world : World) : Decidable (supervisor.Runs world) :=
  inferInstanceAs (Decidable (∃ process ∈ world.table.processes, _))

/-- The next step of the command before it executes its program. -/
def begins (supervisor : Supervisor) (world : World) (command : Command) : Option World :=
  match world.prelude with
  | .enableDeathSignal =>
      (world.performs command.birth .armDeathSignal).map fun after =>
        { after with prelude := .checkParent }
  | .checkParent =>
      (world.table.find command.birth).map fun process =>
        { world with prelude := if process.parent = supervisor.pid then .setsid else .leaving }
  | .setsid =>
      (world.performs command.birth .setsid).map fun after => { after with prelude := .program }
  | .leaving => none
  | .program => none

/-- A process that goes its own way: neither the supervisor nor a command that is still being
started. -/
def IsOther (supervisor : Supervisor) (world : World) (birth : Nat) : Prop :=
  birth ≠ supervisor.birth ∧
    (world.prelude = .program ∨ ∀ command ∈ world.command, command.birth ≠ birth)

instance (supervisor : Supervisor) (world : World) (birth : Nat) :
    Decidable (supervisor.IsOther world birth) :=
  inferInstanceAs (Decidable (_ ∧ (_ ∨ ∀ command ∈ world.command, _)))

/-- SIGTERM does not reach the supervisor: the guard unblocks it before it asks for its death signal,
the supervisor of a job does not. -/
def missesSigterm (supervisor : Supervisor) : Bool :=
  supervisor.program = .jobExec && supervisor.sigtermBlocked

/-- A supervisor that is sent its death signal is asked to terminate. -/
def notice (supervisor : Supervisor) (world : World) : World :=
  if !supervisor.missesSigterm && (world.table.find supervisor.birth).any (·.warned) then
    world.request
  else world

end Supervisor

inductive Event where
  /-- The next step of the supervisor. -/
  | supervisor
  /-- Its `fork` returns an identifier. -/
  | forked (pid : Nat)
  /-- Its `select` returns, and the pipe may be closed at the other end. -/
  | selected (closed : Bool)
  /-- The next step of the command before its program. -/
  | command
  /-- A call of another process. -/
  | call (birth : Nat) (call : SystemCall)
  /-- A process ends. -/
  | finish (birth adopter status : Nat)
  /-- SIGTERM, SIGINT or, for the guard, SIGHUP reaches the supervisor. -/
  | request
  | tick (now : ℚ)

/-- One step of the supervisor, of its command or of anything around them. -/
def step (supervisor : Supervisor) (world : World) : Event → Option World
  | .supervisor => if supervisor.Runs world then supervisor.advance world else none
  | .forked pid =>
      if world.pc = .fork ∧ supervisor.Runs world then
        (world.performs supervisor.birth (.fork pid)).map fun after =>
          { after with
            pc := .waitid
            prelude := supervisor.preludeStart
            command := some ⟨pid, world.table.births⟩ }
      else none
  | .selected closed =>
      if world.pc = .select ∧ supervisor.Runs world then
        some { (if closed then world.request else world) with pc := .checkTermination }
      else none
  | .command => world.command.bind (supervisor.begins world)
  | .call birth call => if supervisor.IsOther world birth then world.performs birth call else none
  | .finish birth adopter status =>
      (world.table.find birth).bind fun dead =>
        (world.table.find adopter).bind fun adopter =>
          (world.table.finish dead adopter status).map fun table =>
            supervisor.notice { world with table }
  | .request => some world.request
  | .tick now => if world.now ≤ now then some { world with now } else none

/-- A supervisor in a world. -/
def supervision (supervisor : Supervisor) (world : World) : System World Event where
  initial := world
  step := step supervisor

/-- The parent has just started the supervisor. -/
structure Starts (supervisor : Supervisor) (world : World) : Prop where
  self : ∃ process ∈ world.table.processes, process.birth = supervisor.birth ∧
    process.pid = supervisor.pid ∧ process.parent = supervisor.parentPid ∧ process.line ≠ []
  parent : ∃ process ∈ world.table.processes, process.birth = supervisor.parentBirth ∧
    process.pid = supervisor.parentPid
  pc : world.pc = .enableDeathSignal
  command : world.command = none
  terminationRequested : world.terminationRequested = none
  terminationStartedAt : world.terminationStartedAt = none
  sent : world.sent = []

/-! ### An example -/

/-- A process that has done nothing yet. -/
def sampleProcess (pid parent birth : Nat) (line : List Nat) : UnixProcess where
  pid := pid
  parent := parent
  group := pid
  session := pid
  birth := birth
  line := line
  deathSignal := none
  warned := false
  foreign := false
  strayed := false
  doomed := false
  ended := none

/-- The first process, a server, and the supervisor that it has started. -/
def sampleTable : ProcessTable where
  processes := [sampleProcess 1 0 0 [], sampleProcess 10 1 1 [0], sampleProcess 20 10 2 [1, 0]]
  births := 3
  wellFormed := by constructor <;> decide

def sampleSupervisor : Supervisor where
  program := .jobExec
  pid := 20
  birth := 2
  parentPid := 10
  parentBirth := 1
  gracePeriodSec := 5
  sigtermBlocked := false

def sampleWorld : World where
  table := sampleTable
  now := 0
  pc := .enableDeathSignal
  prelude := .program
  command := none
  terminationRequested := none
  terminationStartedAt := none
  sent := []

theorem sampleStarts : Starts sampleSupervisor sampleWorld where
  self := by decide
  parent := by decide
  pc := rfl
  command := rfl
  terminationRequested := rfl
  terminationStartedAt := rfl
  sent := rfl

/-- The command forks a child, the server ends, and the supervisor has to kill the group. -/
def sampleEvents : List Event :=
  [.supervisor, .supervisor, .forked 30, .command, .call 3 (.fork 31), .finish 1 0 0,
    .supervisor, .supervisor, .supervisor, .supervisor, .supervisor, .tick 5, .supervisor,
    .supervisor, .supervisor, .supervisor, .supervisor]

/-- The command ends, and the supervisor sweeps its group and waits for it. -/
def sampleEnd : List Event :=
  [.finish 3 2 9, .supervisor, .supervisor, .supervisor, .supervisor, .supervisor]

end Longrun.Supervision
