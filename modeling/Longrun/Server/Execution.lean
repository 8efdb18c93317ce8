import Longrun.Server.Executor

/-!
# Runs of the executor

What a run of `_execute_job` leaves behind, however its calls end: the records of the job, the
process that was started, the descriptors and the claimed secret.
-/

namespace Longrun.Server

open Script (Exchange Oracle)

/-! ### What is seen of a run -/

/-- The process that a run has started. -/
inductive ProcessStatus where
  | absent
  | alive
  /-- It has been sent `SIGKILL`. -/
  | killed
  /-- It is known to have ended. -/
  | ended
  /-- It was still running when a call failed that was to record it or to end it. -/
  | abandoned
  deriving DecidableEq

namespace ProcessStatus

def reap : ProcessStatus → ProcessStatus
  | .absent => .absent
  | _ => .ended

def kill : ProcessStatus → ProcessStatus
  | .alive => .killed
  | status => status

def abandon : ProcessStatus → ProcessStatus
  | .alive => .abandoned
  | .killed => .abandoned
  | status => status

/-- A call and its reply, as they concern the process. -/
def after (status : ProcessStatus) : Exchange server Exit → ProcessStatus
  | ⟨.spawn _, .ok _⟩ => .alive
  | ⟨.writeMetadata _ _, .error _⟩ => status.abandon
  | ⟨.setReady, .error _⟩ => status.abandon
  | ⟨.procStartTicks _, .error _⟩ => status.abandon
  | ⟨.startReader _ _ _, .error _⟩ => status.abandon
  | ⟨.returncode, .ok (some _)⟩ => status.reap
  | ⟨.terminate, .error exit⟩ => if exit.escapes "ProcessLookupError" then status.abandon else status
  | ⟨.waitFor _, .ok _⟩ => status.reap
  | ⟨.waitFor _, .error exit⟩ => if exit.escapes "TimeoutError" then status.abandon else status
  | ⟨.kill, .ok _⟩ => status.kill
  | ⟨.kill, .error exit⟩ =>
      if exit.escapes "ProcessLookupError" then status.abandon else status.kill
  | ⟨.wait, .ok _⟩ => status.reap
  | ⟨.wait, .error _⟩ => if status = .killed then status.abandon else status
  | _ => status

/-- No process of the job is left. -/
def Gone (status : ProcessStatus) : Prop := status = .absent ∨ status = .ended

/-- The run does not leave a process that it should still end. -/
def LetGo (status : ProcessStatus) : Prop := status ≠ .alive ∧ status ≠ .killed

theorem Gone.letGo {status : ProcessStatus} (gone : status.Gone) : status.LetGo := by
  rcases gone with rfl | rfl <;> simp [LetGo]

@[simp]
theorem abandon_of_gone {status : ProcessStatus} (gone : status.Gone) : status.abandon = status := by
  rcases gone with rfl | rfl <;> rfl

theorem letGo_abandon (status : ProcessStatus) : status.abandon.LetGo := by
  cases status <;> simp [abandon, LetGo]

end ProcessStatus

/-- The descriptor that a claim has returned. -/
def claimed? : Exchange server Exit → Option Nat
  | ⟨.claimSecret _, .ok fd⟩ => some fd
  | ⟨.claimSecretPair _, .ok fd⟩ => some fd
  | _ => none

/-- The start of the supervisor was cancelled. -/
def startCancelled : Exchange server Exit → Bool
  | ⟨.spawn _, .error .cancelled⟩ => true
  | _ => false

def tellsReady : Exchange server Exit → Bool
  | ⟨.setReady, .ok _⟩ => true
  | _ => false

def recordsAfter : Exchange server Exit → List Json → List Json
  | ⟨.writeMetadata _ value, .ok _⟩, records => records ++ [value]
  | _, records => records

/-- A descriptor that is closed is gone even if the call raises. A transport closes its descriptor at
the next turn of the event loop, which is counted here as part of its `close()`. -/
def descriptorsAfter : Exchange server Exit → Multiset Nat → Multiset Nat
  | ⟨.claimSecret _, .ok fd⟩, others => fd ::ₘ others
  | ⟨.claimSecretPair _, .ok fd⟩, others => fd ::ₘ others
  | ⟨.pipe, .ok ends⟩, others => ends.1 ::ₘ ends.2 ::ₘ others
  | ⟨.close fd, _⟩, others => others.erase fd
  | ⟨.closeTransport fd, _⟩, others => others.erase fd
  | _, others => others

/-- What is seen of a run from outside. -/
structure Progress where
  /-- The records of the job, the last one at the end. -/
  records : List Json
  ready : Bool
  process : ProcessStatus
  /-- The open descriptors. -/
  descriptors : Multiset Nat
  /-- The descriptor of the claimed secret. -/
  secretFd : Option Nat
  /-- The run was cancelled while the supervisor was being started. -/
  interrupted : Bool

namespace Progress

def start : Progress := ⟨[], false, .absent, 0, none, false⟩

variable (progress : Progress)

def abandon : Progress := { progress with process := progress.process.abandon }

def reap : Progress := { progress with process := progress.process.reap }

def claimed (fd : Nat) : Progress :=
  { progress with secretFd := some fd, descriptors := fd ::ₘ progress.descriptors }

def closed (fd : Nat) : Progress :=
  { progress with descriptors := progress.descriptors.erase fd }

def recorded (value : Json) : Progress := { progress with records := progress.records ++ [value] }

/-- A call of a run and its reply. -/
def add (exchange : Exchange server Exit) : Progress where
  records := recordsAfter exchange progress.records
  ready := tellsReady exchange || progress.ready
  process := progress.process.after exchange
  descriptors := descriptorsAfter exchange progress.descriptors
  secretFd := (claimed? exchange).or progress.secretFd
  interrupted := startCancelled exchange || progress.interrupted

/-- The state of the last record. -/
def state : Option Json := progress.records.getLast?.map (·.get "state")

/-- No record is a final one. -/
def Open : Prop :=
  progress.records = [] ∨ progress.state = some (.str "starting") ∨
    progress.state = some (.str "running")

/-- The states that may be recorded. A final state comes last, once nothing of the job is left. -/
inductive Recordable : String → Prop where
  | starting (first : progress.records = []) (absent : progress.process = .absent) :
      Recordable "starting"
  | running (starts : progress.state = some (.str "starting")) (alive : progress.process = .alive) :
      Recordable "running"
  | final (state : RunState) (isOpen : progress.Open) (gone : progress.process.Gone) :
      Recordable state.name

/-- The record tells that the command runs, or how it has ended. -/
def Announced : Prop :=
  progress.state = some (.str "running") ∨ ∃ state : RunState, progress.state = some (.str state.name)

/-- A secret may be claimed. -/
structure Claimable : Prop where
  starts : progress.state = some (.str "starting")
  absent : progress.process = .absent
  first : progress.secretFd = none

/-- The command may be started. -/
structure Startable (job : JobRequest) (spawn : Spawn) : Prop where
  starts : progress.state = some (.str "starting")
  absent : progress.process = .absent
  sameSecret : spawn.secretFd = progress.secretFd
  hasSecret : job.secretSupplied = true → progress.secretFd.isSome
  held : spawn.statusFd ∈ progress.descriptors
  heldSecret : ∀ fd, spawn.secretFd = some fd → fd ∈ progress.descriptors

end Progress

/-- The server is named as the owner of a job. -/
structure OwnedBy (settings : Settings) (value : Json) : Prop where
  pid : value.get "server_pid" = .int settings.serverPid
  startTicks : value.get "server_start_ticks" = optional .str settings.serverStartTicks

/-- When a call may be made. As long as a job is not over its records name its server. -/
def Allowed (settings : Settings) (job : JobRequest) (progress : Progress) : Call → Prop
  | .writeMetadata jobId value =>
      jobId = job.jobId ∧ ∃ name, value.get "state" = .str name ∧ progress.Recordable name ∧
        (name ∈ activeJobStates → OwnedBy settings value)
  | .setReady => progress.Announced
  | .claimSecret handle => job.stdinSecretId = some handle ∧ progress.Claimable
  | .claimSecretPair handles => job.stdinSecretIds = some handles ∧ progress.Claimable
  | .spawn spawn => progress.Startable job spawn
  | .startReader suppressOutput _ _ => suppressOutput = job.secretSupplied
  | .newJobId => False
  | .createBackground _ => False
  | _ => True

/-- Descriptors can be closed and the return code can be read; every other call returns anything or
raises any exception. -/
def Admitted : ∀ request : Call, Except Exit request.Answer → Prop
  | .returncode, reply => reply.isOk
  | .close _, reply => reply.isOk
  | .closeTransport _, reply => reply.isOk
  | _, _ => True

/-- The effects of the calls of a run. -/
abbrev executing (settings : Settings) (job : JobRequest) : Script.Effects server Exit Progress :=
  Script.checking (Allowed settings job) Admitted Progress.add

/-- What a run leaves behind. -/
structure Settled (progress : Progress) : Prop where
  letGo : progress.process.LetGo
  closed : progress.descriptors = 0 ↔ progress.interrupted = false

/-- The last record shows the result. -/
def Progress.Shows (progress : Progress) (result : RunResult) : Prop :=
  ∃ record, progress.records.getLast? = some record ∧ result.ShownBy record

/-- How a run ends. -/
structure Concludes (hasReadyEvent : Bool) (result : Except Exit RunResult) (progress : Progress) :
    Prop where
  settled : Settled progress
  shows : ∀ value, result = .ok value → progress.Shows value
  ready : ∀ value, result = .ok value → hasReadyEvent = true → progress.ready = true

/-! ### Rules -/

section Rules

variable {settings : Settings} {job : JobRequest} {request : Call} {Next : Type} {progress : Progress}

theorem ensures_await {post : Except Exit request.Answer → Progress → Prop} :
    (await request).Ensures (executing settings job) post progress ↔
      Allowed settings job progress request ∧
        ∀ reply, Admitted request reply → post reply (progress.add ⟨request, reply⟩) := by
  rw [await, Script.ensures_perform]
  simp [executing, Script.checking]

variable {next : request.Answer → Coroutine Next} {post : Except Exit Next → Progress → Prop}

theorem ensures_awaitThen (allowed : Allowed settings job progress request)
    (fails : ∀ exit, Admitted request (.error exit) →
      post (.error exit) (progress.add ⟨request, .error exit⟩))
    (goesOn : ∀ value, (next value).Ensures (executing settings job) post
      (progress.add ⟨request, .ok value⟩)) :
    (await request >>= next).Ensures (executing settings job) post progress := by
  apply Script.ensures_monadBind.mpr
  apply ensures_await.mpr
  refine ⟨allowed, ?_⟩
  intro reply admitted
  cases reply with
  | ok value => exact goesOn value
  | error exit => exact fails exit admitted

/-- Goes on after a call that nothing is seen of. -/
theorem ensures_unseen (unseen : ∀ reply, progress.add ⟨request, reply⟩ = progress)
    (allowed : Allowed settings job progress request) (fails : ∀ exit, post (.error exit) progress)
    (goesOn : ∀ value, (next value).Ensures (executing settings job) post progress) :
    (await request >>= next).Ensures (executing settings job) post progress := by
  apply ensures_awaitThen allowed
  · intro exit _
    rw [unseen]
    exact fails exit
  · intro value
    rw [unseen]
    exact goesOn value

/-- Goes on after a script. -/
theorem ensures_andThen {Value : Type} {script : Coroutine Value} {next : Value → Coroutine Next}
    {first : Except Exit Value → Progress → Prop}
    (ensures : script.Ensures (executing settings job) first progress)
    (fails : ∀ exit after, first (.error exit) after → post (.error exit) after)
    (goesOn : ∀ value after, first (.ok value) after →
      (next value).Ensures (executing settings job) post after) :
    (script >>= next).Ensures (executing settings job) post progress := by
  apply Script.ensures_monadBind.mpr
  apply ensures.mono
  intro result after holds
  cases result with
  | ok value => exact goesOn value after holds
  | error exit => exact fails exit after holds

end Rules

/-! ### Ending the process -/

section Terminate

variable {settings : Settings} {job : JobRequest} {gracePeriodSec : Int} {progress before : Progress}

/-- What a script has to reach where an exception of one type is ignored. -/
def Ignored (error : String) (post : Except Exit Unit → Progress → Prop) :
    Except Exit Unit → Progress → Prop
  | .ok (), after => post (.ok ()) after
  | .error exit, after => if exit.escapes error then post (.error exit) after else post (.ok ()) after

theorem ensures_ignoring {error : String} {body : Coroutine Unit}
    {post : Except Exit Unit → Progress → Prop}
    (ensures : body.Ensures (executing settings job) (Ignored error post) progress) :
    (ignoring error body).Ensures (executing settings job) post progress := by
  apply Script.ensures_handle.mpr
  apply ensures.mono
  intro result after holds
  cases result with
  | ok value => exact holds
  | error exit =>
      cases exit with
      | cancelled => simpa [Ignored, Exit.escapes, Script.orElse] using holds
      | exception type text =>
          cases caught : catches error type with
          | true => simpa [Ignored, Exit.escapes, caught, Script.orElse] using holds
          | false => simpa [Ignored, Exit.escapes, caught, Script.orElse] using holds

/-- The process was started, and nothing else has changed. -/
def Pursued (before after : Progress) : Prop :=
  ∃ status, status ≠ .absent ∧ after = { before with process := status }

/-- The process is known to have ended, and nothing else has changed. -/
def Reaped (before after : Progress) : Prop := after = { before with process := .ended }

/-- `_terminate_process` has returned or raised. -/
def Terminated {Value : Type} (before : Progress) (result : Except Exit Value) (after : Progress) :
    Prop :=
  Reaped before after ∨
    result.isOk = false ∧ after = { before with process := .abandoned }

/-- A part of `_terminate_process` has returned or raised. -/
def Stopping {Value : Type} (before : Progress) : Except Exit Value → Progress → Prop
  | .ok _, after => Pursued before after
  | .error exit, after => Terminated before (.error exit : Except Exit Value) after

theorem Pursued.refl (started : progress.process ≠ .absent) : Pursued progress progress :=
  ⟨progress.process, started, rfl⟩

theorem Pursued.trans {middle after : Progress} (first : Pursued before middle)
    (second : Pursued middle after) : Pursued before after := by
  rcases first with ⟨_, -, rfl⟩
  rcases second with ⟨status, started, rfl⟩
  exact ⟨status, started, rfl⟩

theorem Pursued.reap (pursued : Pursued before progress) : Reaped before progress.reap := by
  rcases pursued with ⟨status, started, rfl⟩
  cases status with
  | absent => exact absurd rfl started
  | _ => rfl

/-- A call has failed on which the end of the process depends. -/
theorem Pursued.abandon {Value : Type} {exit : Exit} (pursued : Pursued before progress) :
    Terminated before (.error exit : Except Exit Value) progress.abandon := by
  rcases pursued with ⟨status, started, rfl⟩
  cases status with
  | absent => exact absurd rfl started
  | ended => exact .inl rfl
  | _ => exact .inr ⟨rfl, rfl⟩

theorem Reaped.pursued {after : Progress} (reaped : Reaped before after) : Pursued before after :=
  ⟨.ended, ProcessStatus.noConfusion, reaped⟩

/-- `proc.returncode`, and what is done where it is `None`. -/
theorem ensures_ifRunning {body : Coroutine Unit} {post : Except Exit Unit → Progress → Prop}
    (pursued : Pursued before progress) (ended : ∀ after, Reaped before after → post (.ok ()) after)
    (running : body.Ensures (executing settings job) post progress) :
    (await .returncode >>= fun returncode =>
      if returncode.isNone = true then body else pure ()).Ensures (executing settings job) post progress := by
  apply ensures_awaitThen (by trivial)
  · intro exit admitted
    cases admitted
  · intro returncode
    cases returncode with
    | some code => exact ended _ pursued.reap
    | none => exact running

theorem terminate_ensures (pursued : Pursued before progress) :
    (ignoring "ProcessLookupError" (await .terminate)).Ensures (executing settings job) (Stopping before)
      progress := by
  apply ensures_ignoring
  apply ensures_await.mpr
  refine ⟨trivial, ?_⟩
  intro reply _
  cases reply with
  | ok value => exact pursued
  | error exit =>
      have seen : progress.add ⟨.terminate, .error exit⟩ = { progress with
          process := if exit.escapes "ProcessLookupError" then progress.process.abandon else progress.process } := rfl
      cases escapes : exit.escapes "ProcessLookupError" with
      | true => simpa [Ignored, Stopping, seen, Progress.abandon, escapes] using pursued.abandon
      | false => simpa [Ignored, Stopping, seen, Progress.abandon, escapes] using pursued

theorem waitFor_ensures (pursued : Pursued before progress) {seconds : Int} :
    (ignoring "TimeoutError" (await (.waitFor seconds))).Ensures (executing settings job) (Stopping before)
      progress := by
  apply ensures_ignoring
  apply ensures_await.mpr
  refine ⟨trivial, ?_⟩
  intro reply _
  cases reply with
  | ok value => exact pursued.reap.pursued
  | error exit =>
      have seen : progress.add ⟨.waitFor seconds, .error exit⟩ = { progress with
          process := if exit.escapes "TimeoutError" then progress.process.abandon else progress.process } := rfl
      cases escapes : exit.escapes "TimeoutError" with
      | true => simpa [Ignored, Stopping, seen, Progress.abandon, escapes] using pursued.abandon
      | false => simpa [Ignored, Stopping, seen, Progress.abandon, escapes] using pursued

/-- The process has been sent `SIGKILL`, unless it has ended. -/
def Struck (before after : Progress) : Prop :=
  ∃ status, status ≠ .absent ∧ status ≠ .alive ∧ after = { before with process := status }

theorem Pursued.struck (pursued : Pursued before progress) :
    Struck before { progress with process := progress.process.kill } := by
  rcases pursued with ⟨status, started, rfl⟩
  refine ⟨status.kill, ?_, ?_, rfl⟩ <;> cases status <;> simp [ProcessStatus.kill] at started ⊢

theorem kill_ensures (pursued : Pursued before progress) {post : Except Exit Unit → Progress → Prop}
    (fails : ∀ exit after, Terminated before (.error exit : Except Exit Unit) after →
      post (.error exit) after)
    (goesOn : ∀ after, Struck before after → post (.ok ()) after) :
    (ignoring "ProcessLookupError" (await .kill)).Ensures (executing settings job) post progress := by
  apply ensures_ignoring
  apply ensures_await.mpr
  refine ⟨trivial, ?_⟩
  intro reply _
  cases reply with
  | ok value => exact goesOn _ pursued.struck
  | error exit =>
      have seen : progress.add ⟨.kill, .error exit⟩ = { progress with
          process := if exit.escapes "ProcessLookupError" then progress.process.abandon else progress.process.kill } := rfl
      cases escapes : exit.escapes "ProcessLookupError" with
      | true => simpa [Ignored, seen, Progress.abandon, escapes] using fails exit _ pursued.abandon
      | false => simpa [Ignored, seen, Progress.abandon, escapes] using goesOn _ pursued.struck

theorem requestStop_ensures (pursued : Pursued before progress) :
    (requestStop gracePeriodSec).Ensures (executing settings job) (Stopping before) progress := by
  apply ensures_ifRunning pursued
  · exact fun after reaped => reaped.pursued
  · apply ensures_andThen (terminate_ensures pursued)
    · exact fun _ _ holds => holds
    · exact fun _ _ pursued => waitFor_ensures pursued

theorem killIfRunning_ensures (pursued : Pursued before progress) :
    killIfRunning.Ensures (executing settings job) (Terminated before) progress := by
  apply ensures_ifRunning pursued
  · exact fun after reaped => .inl reaped
  · apply Script.ensures_monadBind.mpr
    apply kill_ensures pursued
    · exact fun _ _ terminated => terminated
    · rintro _ ⟨status, started, struck, rfl⟩
      apply ensures_awaitThen (by trivial)
      · intro exit _
        cases status with
        | absent => exact absurd rfl started
        | alive => exact absurd rfl struck
        | ended => exact .inl rfl
        | _ => exact .inr ⟨rfl, rfl⟩
      · intro _
        have pursued : Pursued before { before with process := status } := ⟨status, started, rfl⟩
        exact .inl pursued.reap

/-- Where `_terminate_process` returns, the process has ended. -/
theorem terminateProcess_ensures (pursued : Pursued before progress) :
    (terminateProcess gracePeriodSec).Ensures (executing settings job) (Terminated before) progress := by
  apply ensures_andThen (requestStop_ensures pursued)
  · exact fun _ _ terminated => terminated
  · exact fun _ _ pursued => killIfRunning_ensures pursued

theorem Terminated.pursued {Value : Type} {result : Except Exit Value} {after : Progress}
    (terminated : Terminated before result after) : Pursued before after := by
  rcases terminated with reaped | ⟨-, rfl⟩
  · exact reaped.pursued
  · exact ⟨.abandoned, ProcessStatus.noConfusion, rfl⟩

theorem Terminated.reaped {Value : Type} {value : Value} {after : Progress}
    (terminated : Terminated before (.ok value : Except Exit Value) after) : Reaped before after := by
  rcases terminated with reaped | ⟨impossible, -⟩
  · exact reaped
  · cases impossible

theorem Terminated.letGo {Value : Type} {result : Except Exit Value} {after : Progress}
    (terminated : Terminated before result after) : after.process.LetGo := by
  rcases terminated with reaped | ⟨-, rfl⟩
  · rw [Reaped] at reaped
    simp [reaped, ProcessStatus.LetGo]
  · simp [ProcessStatus.LetGo]

end Terminate

/-! ### Records -/

section Records

variable {execution : Execution} {progress : Progress} {settings : Settings} {job : JobRequest}
  {hasReadyEvent : Bool}

/-- No descriptor is open, and the run has not been cancelled while the supervisor was started. -/
structure Tidy (progress : Progress) : Prop where
  closed : progress.descriptors = 0
  uninterrupted : progress.interrupted = false

theorem Tidy.settled (tidy : Tidy progress) (letGo : progress.process.LetGo) : Settled progress where
  letGo := letGo
  closed := by simp [tidy.closed, tidy.uninterrupted]

theorem Tidy.abandon (tidy : Tidy progress) : Settled progress.abandon where
  letGo := progress.process.letGo_abandon
  closed := by simp [Progress.abandon, tidy.closed, tidy.uninterrupted]

theorem Tidy.recorded (tidy : Tidy progress) (value : Json) : Tidy (progress.recorded value) :=
  ⟨tidy.closed, tidy.uninterrupted⟩

theorem Progress.getLast?_recorded (progress : Progress) (value : Json) :
    (progress.recorded value).records.getLast? = some value := by
  simp [recorded]

theorem Progress.state_recorded (value : Json) :
    (progress.recorded value).state = some (value.get "state") := by
  simp [Progress.state, Progress.getLast?_recorded]

theorem Tidy.settled_recorded (tidy : Tidy progress) (gone : progress.process.Gone) (value : Json) :
    Settled (progress.recorded value) :=
  (tidy.recorded value).settled gone.letGo

/-- A run that raises has nothing to show. -/
theorem Settled.raises {exit : Exit} (settled : Settled progress) :
    Concludes hasReadyEvent (.error exit) progress where
  settled := settled
  shows := by
    intro _ impossible
    cases impossible
  ready := by
    intro _ impossible
    cases impossible

theorem final_notMem_active (state : RunState) : state.name ∉ activeJobStates := by
  cases state <;> decide

/-- A final record may be written. -/
theorem allowed_final {value : Json} (state : RunState) (isState : value.get "state" = .str state.name)
    (isOpen : progress.Open) (gone : progress.process.Gone) :
    Allowed settings job progress (.writeMetadata job.jobId value) :=
  ⟨rfl, _, isState, .final state isOpen gone, fun active => absurd active (final_notMem_active state)⟩

/-- The metadata of a wakeup, as `start_job` makes it. -/
def wakeFieldNames : List String :=
  ["automatic_wakeup", "wake_policy", "wake_delivery", "wake_thread_id", "wake_mode"]

def WakeFields (fields : List (String × Json)) : Prop := ∀ field ∈ fields, field.1 ∈ wakeFieldNames

theorem WakeFields.others {fields : List (String × Json)} (wake : WakeFields fields) :
    ∀ field ∈ fields, field.1 ∉ RunResult.fieldNames := by
  intro field mem
  have separate : ∀ name ∈ wakeFieldNames, name ∉ RunResult.fieldNames := by decide
  exact separate _ (wake field mem)

theorem WakeFields.notMem {fields : List (String × Json)} (wake : WakeFields fields) {key : String}
    (other : key ∉ wakeFieldNames) : key ∉ fields.map Prod.fst := by
  intro mem
  rcases List.mem_map.mp mem with ⟨field, isField, rfl⟩
  exact other (wake field isField)

theorem WakeFields.state {fields : List (String × Json)} (wake : WakeFields fields) :
    "state" ∉ fields.map Prod.fst := wake.notMem (by decide)

/-- What `ready_event.set()` leads to, if there is an event. -/
def Readied (hasReadyEvent : Bool) (before : Progress) : Except Exit Unit → Progress → Prop
  | .ok _, after => after = { before with ready := before.ready || hasReadyEvent }
  | .error _, after => after = before.abandon

theorem ready_ensures (announced : progress.Announced) :
    execution.ready.Ensures (executing settings job) (Readied execution.hasReadyEvent progress) progress := by
  rw [Execution.ready]
  split
  · rename_i hasEvent
    apply ensures_await.mpr
    refine ⟨announced, ?_⟩
    intro reply _
    cases reply with
    | ok value =>
        rw [Readied, hasEvent, Bool.or_true]
        rfl
    | error exit => rfl
  · rename_i noEvent
    simp [Readied, noEvent]

theorem Settled.returns {result : RunResult} {record : Json} (settled : Settled progress)
    (last : progress.records.getLast? = some record) (shown : result.ShownBy record)
    (ready : hasReadyEvent = true → progress.ready = true) :
    Concludes hasReadyEvent (.ok result) progress := by
  constructor
  · exact settled
  · rintro _ ⟨⟩
    exact ⟨record, last, shown⟩
  · exact fun _ _ => ready

/-- A final state is recorded and announced. -/
theorem announced_final {record : Json} (state : RunState)
    (isState : record.get "state" = .str state.name) : (progress.recorded record).Announced := by
  right
  exact ⟨state, by rw [Progress.state_recorded, isState]⟩

theorem fail_ensures {exitCode : Option Int} {display cwd error : String} {supplied : Bool}
    {seen : Option TrackerReport} (wake : WakeFields execution.wakeMetadata) (tidy : Tidy progress)
    (isOpen : progress.Open) (gone : progress.process.Gone) :
    (execution.fail exitCode display cwd supplied error seen).Ensures (executing execution.settings execution.job)
      (Concludes execution.hasReadyEvent) progress := by
  have settled := tidy.settled gone.letGo
  apply ensures_unseen (fun _ => rfl) (by trivial)
  · exact fun _ => settled.raises
  intro duration
  apply ensures_unseen (fun _ => rfl) (by trivial)
  · exact fun _ => settled.raises
  intro finishedAt
  have shown : (execution.result .spawnError exitCode duration finishedAt display cwd supplied
      (some error) seen).ShownBy (updated _ execution.wakeMetadata) :=
    RunResult.shownBy_updated wake.others
  apply ensures_awaitThen
  · exact allowed_final .spawnError shown.state isOpen gone
  · exact fun _ _ => tidy.abandon.raises
  intro _
  apply ensures_andThen (ready_ensures (announced_final .spawnError shown.state))
  · rintro exit after holds
    rw [Readied] at holds
    subst holds
    exact (tidy.recorded _).abandon.raises
  · rintro _ after readied
    rw [Readied] at readied
    subst readied
    refine Settled.returns ⟨gone.letGo, ?_⟩ (Progress.getLast?_recorded _ _) shown (by simp_all)
    simp [Progress.recorded, tidy.closed, tidy.uninterrupted]

end Records

/-! ### The running command -/

section Running

variable {launch : Launch} {identity : Identity} {progress before : Progress}

theorem add_returncode {reply : Except Exit (Option Int)} (gone : progress.process.Gone) :
    progress.add ⟨.returncode, reply⟩ = progress := by
  rcases progress with ⟨records, ready, process, descriptors, secretFd, interrupted⟩
  cases reply with
  | error exit => rfl
  | ok code =>
      cases code with
      | none => rfl
      | some code => rcases gone with rfl | rfl <;> rfl

theorem Reaped.gone (reaped : Reaped before progress) : progress.process.Gone := by
  rw [Reaped] at reaped
  exact .inr (by rw [reaped])

theorem Reaped.tidy (reaped : Reaped before progress) (tidy : Tidy before) : Tidy progress := by
  rw [Reaped] at reaped
  subst reaped
  exact ⟨tidy.closed, tidy.uninterrupted⟩

theorem Reaped.open (reaped : Reaped before progress) (isOpen : before.Open) : progress.Open := by
  rw [Reaped] at reaped
  subst reaped
  exact isOpen

theorem Terminated.settled {Value : Type} {result : Except Exit Value}
    (terminated : Terminated before result progress) (tidy : Tidy before) : Settled progress := by
  have letGo := terminated.letGo
  rcases terminated.pursued with ⟨status, -, rfl⟩
  exact Tidy.settled ⟨tidy.closed, tidy.uninterrupted⟩ letGo

theorem settleReader_ensures : Launch.settleReader.Ensures (executing launch.settings launch.job)
    (fun result after => result = .ok () ∧ after = progress) progress := by
  apply Script.ensures_handle.mpr
  apply ensures_await.mpr
  refine ⟨trivial, ?_⟩
  intro reply _
  cases reply <;> exact ⟨rfl, rfl⟩

/-- The record of a cancellation that has left nothing behind. -/
theorem cancelled_ensures {value : Json} {fields : List (String × Json)}
    (isDict : value.isDict = true) (others : "state" ∉ fields.map Prod.fst)
    {rest : Unit → Coroutine RunResult} {hasReadyEvent : Bool} (tidy : Tidy progress)
    (isOpen : progress.Open) (gone : progress.process.Gone)
    (goesOn : ∀ after, Tidy after → after.process.Gone → after.Announced →
      (rest ()).Ensures (executing launch.settings launch.job) (Concludes hasReadyEvent) after) :
    (await (.writeMetadata launch.job.jobId (updated value (("state", .str "cancelled") :: fields))) >>=
      rest).Ensures (executing launch.settings launch.job) (Concludes hasReadyEvent) progress := by
  have isState : (updated value (("state", .str "cancelled") :: fields)).get "state" =
      .str RunState.cancelled.name := get_updated_cons isDict others
  apply ensures_awaitThen
  · exact allowed_final .cancelled isState isOpen gone
  · exact fun _ _ => tidy.abandon.raises
  · intro _
    exact goesOn _ (tidy.recorded _) gone (announced_final .cancelled isState)

theorem isDict_initialMetadata : launch.initialMetadata.isDict = true := isDict_updated

theorem isDict_runningMetadata : (launch.runningMetadata identity).isDict = true :=
  isDict_updated.trans isDict_initialMetadata

theorem ownedBy_initial (wake : WakeFields launch.wakeMetadata) :
    OwnedBy launch.settings launch.initialMetadata where
  pid := (get_updated_of_notMem (wake.notMem (by decide))).trans rfl
  startTicks := (get_updated_of_notMem (wake.notMem (by decide))).trans rfl

theorem ownedBy_running (wake : WakeFields launch.wakeMetadata) :
    OwnedBy launch.settings (launch.runningMetadata identity) where
  pid := (get_updated_of_notMem (by simp [Identity.fields])).trans (ownedBy_initial wake).pid
  startTicks :=
    (get_updated_of_notMem (by simp [Identity.fields])).trans (ownedBy_initial wake).startTicks

theorem WakeFields.state_append {fields wakeMetadata : List (String × Json)}
    (wake : WakeFields wakeMetadata) (others : "state" ∉ fields.map Prod.fst) :
    "state" ∉ (fields ++ wakeMetadata).map Prod.fst := by
  rw [List.map_append, List.mem_append, not_or]
  exact ⟨others, wake.state⟩

theorem cancelRunning_ensures (wake : WakeFields launch.wakeMetadata) (tidy : Tidy before)
    (isOpen : before.Open) (pursued : Pursued before progress) :
    (launch.cancelRunning identity).Ensures (executing launch.settings launch.job)
      (Concludes launch.hasReadyEvent) progress := by
  apply ensures_andThen (terminateProcess_ensures pursued)
  · exact fun _ _ terminated => (terminated.settled tidy).raises
  intro _ progress terminated
  have reaped := terminated.reaped
  have settled := terminated.settled tidy
  apply ensures_andThen settleReader_ensures
  · rintro _ _ ⟨impossible, -⟩
    cases impossible
  rintro _ _ ⟨-, rfl⟩
  apply ensures_unseen (fun _ => rfl) (by trivial) (fun _ => settled.raises)
  intro report
  apply ensures_unseen (fun _ => rfl) (by trivial) (fun _ => settled.raises)
  intro _
  apply ensures_unseen (fun _ => rfl) (by trivial) (fun _ => settled.raises)
  intro finishedAt
  apply ensures_unseen (fun _ => rfl) (by trivial) (fun _ => settled.raises)
  intro duration
  apply ensures_unseen (fun _ => add_returncode reaped.gone) (by trivial) (fun _ => settled.raises)
  intro exitCode
  apply cancelled_ensures isDict_runningMetadata (wake.state_append (by simp)) (reaped.tidy tidy)
    (reaped.open isOpen) reaped.gone
  exact fun after tidy gone _ => (tidy.settled gone.letGo).raises

theorem stopReader_ensures : Launch.stopReader.Ensures (executing launch.settings launch.job)
    (fun _ after => after = progress) progress := by
  apply ensures_unseen (fun _ => rfl) (by trivial) (fun _ => rfl)
  intro isDone
  split
  · apply ensures_await.mpr
    exact ⟨trivial, fun _ _ => rfl⟩
  · rfl

theorem failRunning_ensures {type text : String} (wake : WakeFields launch.wakeMetadata)
    (tidy : Tidy before) (isOpen : before.Open) (pursued : Pursued before progress) :
    (launch.failRunning type text).Ensures (executing launch.settings launch.job)
      (Concludes launch.hasReadyEvent) progress := by
  apply ensures_andThen (terminateProcess_ensures pursued)
  · exact fun _ _ terminated => (terminated.settled tidy).raises
  intro _ progress terminated
  have reaped := terminated.reaped
  have settled := terminated.settled tidy
  apply ensures_andThen stopReader_ensures
  · rintro _ _ rfl
    exact settled.raises
  rintro _ _ rfl
  apply ensures_andThen settleReader_ensures
  · rintro _ _ ⟨impossible, -⟩
    cases impossible
  rintro _ _ ⟨-, rfl⟩
  apply ensures_unseen (fun _ => rfl) (by trivial) (fun _ => settled.raises)
  intro report
  apply ensures_unseen (fun _ => rfl) (by trivial) (fun _ => settled.raises)
  intro _
  apply ensures_unseen (fun _ => add_returncode reaped.gone) (by trivial) (fun _ => settled.raises)
  intro exitCode
  exact fail_ensures wake (reaped.tidy tidy) (reaped.open isOpen) reaped.gone

/-- Where the command was followed to its end, its process is reaped. -/
def Followed {Value : Type} (before : Progress) : Except Exit Value → Progress → Prop
  | .ok _, after => Reaped before after
  | .error _, after => Pursued before after

theorem stopFor_ensures {stopReason : Option StopReason} (started : progress.process ≠ .absent) :
    (launch.stopFor stopReason).Ensures (executing launch.settings launch.job)
      (fun _ after => Pursued progress after) progress := by
  have pursued := Pursued.refl started
  rw [Launch.stopFor]
  split
  · exact (terminateProcess_ensures pursued).mono fun _ _ terminated => terminated.pursued
  · exact pursued

theorem follow_ensures (alive : progress.process = .alive) :
    launch.follow.Ensures (executing launch.settings launch.job) (Followed progress) progress := by
  have started : progress.process ≠ .absent := by simp [alive]
  have first := Pursued.refl started
  apply ensures_unseen (fun _ => rfl) (by trivial) (fun _ => first)
  intro stopReason
  apply ensures_andThen (stopFor_ensures started)
  · exact fun _ _ pursued => pursued
  intro _ after pursued
  apply ensures_awaitThen (by trivial)
  · intro exit _
    rcases pursued with ⟨status, started, rfl⟩
    cases status with
    | killed => exact ⟨.abandoned, ProcessStatus.noConfusion, rfl⟩
    | absent => exact absurd rfl started
    | _ => exact ⟨_, started, rfl⟩
  intro exitCode
  have reaped := pursued.reap
  apply ensures_unseen (fun _ => rfl) (by trivial) (fun _ => reaped.pursued)
  exact fun _ => reaped

theorem others_of_keys {fields : List (String × Json)} (names : List String)
    (keys : ∀ field ∈ fields, field.1 ∈ names) (separate : ∀ name ∈ names, name ∉ RunResult.fieldNames) :
    ∀ field ∈ fields, field.1 ∉ RunResult.fieldNames :=
  fun field mem => separate _ (keys field mem)

/-- What a commit adds to the result stands under other names. -/
theorem others_completed {report : TrackerReport} {current : Json} {cancelled : Bool}
    (wake : WakeFields launch.wakeMetadata) :
    ∀ field ∈ launch.completedFields identity report ++ Launch.keptFields current cancelled,
      field.1 ∉ RunResult.fieldNames := by
  intro field mem
  simp only [Launch.completedFields, List.append_assoc, List.mem_append] at mem
  rcases mem with mem | mem | mem | mem
  · apply others_of_keys ["pid", "process_start_ticks", "command_pgid", "command_start_ticks"] _
      (by decide) field mem
    simp [Identity.fields]
  · apply others_of_keys ["server_pid", "server_start_ticks", "argv_sha256", "tail_path",
      "forwarded_env_names", "heartbeat_reports_completed", "heartbeat_error"] _ (by decide) field mem
    simp
  · exact wake.others field mem
  · apply others_of_keys ("cancel_requested_at_utc" :: Launch.wakeKeys) _ (by decide) field mem
    intro field mem
    rcases List.mem_append.mp mem with mem | mem
    · cases cancelled with
      | true => simp_all
      | false => simp at mem
    · rcases List.mem_map.mp mem with ⟨key, isKey, rfl⟩
      exact List.mem_cons_of_mem _ (List.mem_filter.mp isKey).1

theorem commit_ensures {stopReason : Option StopReason} {exitCode : Int} {report : TrackerReport}
    (wake : WakeFields launch.wakeMetadata) (tidy : Tidy progress) (isOpen : progress.Open)
    (gone : progress.process.Gone) (ready : launch.hasReadyEvent = true → progress.ready = true) :
    (launch.commit identity stopReason exitCode report).Ensures (executing launch.settings launch.job)
      (Concludes launch.hasReadyEvent) progress := by
  have settled := tidy.settled gone.letGo
  apply ensures_unseen (fun _ => rfl) (by trivial) (fun _ => settled.raises)
  intro _
  apply ensures_unseen (fun _ => rfl) (by trivial) (fun _ => settled.raises)
  intro _
  apply Script.ensures_finish.mpr
  -- The lock is released whatever has happened.
  have unlocks (result : Except Exit RunResult) (after : Progress) (settled : Settled after)
      (concludes : Concludes launch.hasReadyEvent result after) :
      (await .unlockState).Ensures (executing launch.settings launch.job)
        (Script.Leads (executing launch.settings launch.job) (Concludes launch.hasReadyEvent)
          fun _ => Script.ofExcept result) after := by
    apply ensures_await.mpr
    refine ⟨trivial, ?_⟩
    intro reply _
    cases reply with
    | ok value => exact Script.ensures_ofExcept.mpr concludes
    | error exit => exact settled.raises
  have fails (exit : Exit) := unlocks (.error exit) progress settled settled.raises
  apply ensures_unseen (fun _ => rfl) (by trivial) fails
  intro current
  apply ensures_unseen (fun _ => rfl) (by trivial) fails
  intro duration
  apply ensures_unseen (fun _ => rfl) (by trivial) fails
  intro finishedAt
  have shown (result : RunResult) (current : Json) (cancelled : Bool) : result.ShownBy
      (updated result.dump (launch.completedFields identity report ++
        Launch.keptFields current cancelled)) :=
    RunResult.shownBy_updated (others_completed wake)
  apply ensures_awaitThen
  · exact allowed_final _ (shown _ _ _).state isOpen gone
  · exact fun _ _ => unlocks _ _ tidy.abandon tidy.abandon.raises
  · intro _
    apply unlocks
    · exact tidy.settled_recorded gone _
    · exact (tidy.settled_recorded gone _).returns (progress.getLast?_recorded _) (shown _ _ _) ready

theorem conclude_ensures (wake : WakeFields launch.wakeMetadata) (tidy : Tidy progress)
    (running : progress.state = some (.str "running")) (alive : progress.process = .alive)
    (ready : launch.hasReadyEvent = true → progress.ready = true) :
    (launch.conclude identity).Ensures (executing launch.settings launch.job) (Concludes launch.hasReadyEvent)
      progress := by
  apply ensures_awaitThen (by exact rfl)
  · exact fun _ _ => tidy.abandon.raises
  intro _
  apply Script.ensures_monadBind.mpr
  apply Script.ensures_attempt.mpr
  apply (follow_ensures alive).mono
  intro result after holds
  have isOpen : progress.Open := .inr (.inr running)
  cases result with
  | error exit =>
      cases exit with
      | cancelled => exact cancelRunning_ensures wake tidy isOpen holds
      | exception type text => exact failRunning_ensures wake tidy isOpen holds
  | ok followed =>
      have reaped : Reaped progress after := holds
      have settled := (reaped.tidy tidy).settled reaped.gone.letGo
      apply ensures_unseen (fun _ => rfl) (by trivial) (fun _ => settled.raises)
      intro report
      apply ensures_unseen (fun _ => rfl) (by trivial) (fun _ => settled.raises)
      intro _
      have stillReady : launch.hasReadyEvent = true → after.ready = true := by
        rw [Reaped] at reaped
        subst reaped
        exact ready
      exact commit_ensures wake (reaped.tidy tidy) (reaped.open isOpen) reaped.gone stillReady

/-- The command runs, and its record tells so. -/
theorem supervise_ensures {pid commandPgid : Int} (wake : WakeFields launch.wakeMetadata)
    (tidy : Tidy progress) (starts : progress.state = some (.str "starting"))
    (alive : progress.process = .alive) :
    (launch.supervise pid commandPgid).Ensures (executing launch.settings launch.job)
      (Concludes launch.hasReadyEvent) progress := by
  apply ensures_awaitThen (by trivial)
  · exact fun _ _ => tidy.abandon.raises
  intro processStartTicks
  apply ensures_awaitThen (by trivial)
  · exact fun _ _ => tidy.abandon.raises
  intro commandStartTicks
  have isState (identity : Identity) :
      (launch.runningMetadata identity).get "state" = .str "running" :=
    get_updated_cons isDict_initialMetadata (by simp [Identity.fields])
  apply ensures_awaitThen
  · exact ⟨rfl, _, isState _, .running starts alive, fun _ => ownedBy_running wake⟩
  · exact fun _ _ => tidy.abandon.raises
  intro _
  have running (identity : Identity) :
      (progress.recorded (launch.runningMetadata identity)).state = some (.str "running") := by
    rw [Progress.state_recorded, isState]
  apply ensures_andThen (ready_ensures (.inl (running _)))
  · rintro exit after holds
    rw [Readied] at holds
    subst holds
    exact (tidy.recorded _).abandon.raises
  rintro _ after readied
  rw [Readied] at readied
  subst readied
  exact conclude_ensures wake ⟨tidy.closed, tidy.uninterrupted⟩ (running _) alive (by simp_all)

theorem cancelStartup_ensures (wake : WakeFields launch.wakeMetadata) (tidy : Tidy progress)
    (isOpen : progress.Open) (alive : progress.process = .alive) :
    launch.cancelStartup.Ensures (executing launch.settings launch.job) (Concludes launch.hasReadyEvent)
      progress := by
  have pursued := Pursued.refl (by simp [alive] : progress.process ≠ .absent)
  apply ensures_andThen (terminateProcess_ensures pursued)
  · exact fun _ _ terminated => (terminated.settled tidy).raises
  intro _ progress terminated
  have reaped := terminated.reaped
  have settled := terminated.settled tidy
  apply ensures_unseen (fun _ => rfl) (by trivial) (fun _ => settled.raises)
  intro finishedAt
  apply ensures_unseen (fun _ => rfl) (by trivial) (fun _ => settled.raises)
  intro duration
  apply ensures_unseen (fun _ => add_returncode reaped.gone) (by trivial) (fun _ => settled.raises)
  intro exitCode
  apply cancelled_ensures isDict_initialMetadata (wake.state_append (by simp)) (reaped.tidy tidy)
    (reaped.open isOpen) reaped.gone
  intro after tidy gone announced
  apply ensures_andThen (ready_ensures announced)
  · rintro _ _ rfl
    exact tidy.abandon.raises
  · rintro _ _ rfl
    exact Settled.raises ⟨gone.letGo, (tidy.settled gone.letGo).closed⟩

theorem readCommandPgid_ensures {settings : Settings} {job : JobRequest} {fd : Nat} :
    (readCommandPgid settings fd).Ensures (executing settings job) (fun _ after => after = progress.closed fd)
      progress := by
  apply Script.ensures_monadBind.mpr
  apply Script.ensures_handle.mpr
  apply ensures_await.mpr
  refine ⟨trivial, ?_⟩
  intro reply _
  cases reply with
  | error exit =>
      apply ensures_awaitThen (by trivial)
      · intro _ admitted
        cases admitted
      · exact fun _ => rfl
  | ok value =>
      apply Script.ensures_monadBind.mpr
      apply Script.ensures_finish.mpr
      apply ensures_await.mpr
      refine ⟨trivial, ?_⟩
      intro line _
      apply ensures_await.mpr
      refine ⟨trivial, ?_⟩
      intro closed admitted
      cases closed with
      | error exit => cases admitted
      | ok value =>
          cases line with
          | error exit => rfl
          | ok line =>
              simp only [Script.leads_ok, Script.ensures_ofExcept]
              split
              · rfl
              · split <;> rfl

end Running

/-! ### Starting the command -/

section Starting

variable {launch : Launch} {progress : Progress}

theorem awaitStartup_ensures {child : Child} {statusFd : Nat} (wake : WakeFields launch.wakeMetadata)
    (starts : progress.state = some (.str "starting")) (alive : progress.process = .alive)
    (held : progress.descriptors = {statusFd}) (uninterrupted : progress.interrupted = false) :
    (launch.awaitStartup child statusFd).Ensures (executing launch.settings launch.job)
      (Concludes launch.hasReadyEvent) progress := by
  have tidy : Tidy (progress.closed statusFd) :=
    ⟨by simp [Progress.closed, held], uninterrupted⟩
  have isOpen : (progress.closed statusFd).Open := .inr (.inl starts)
  have pursued : Pursued (progress.closed statusFd) (progress.closed statusFd) :=
    .refl (by simp [Progress.closed, alive])
  rw [Launch.awaitStartup]
  split
  · apply ensures_awaitThen (by trivial)
    · intro _ admitted
      cases admitted
    intro _
    apply ensures_andThen (terminateProcess_ensures pursued)
    · exact fun _ _ terminated => (terminated.settled tidy).raises
    · exact fun _ _ terminated => (terminated.settled tidy).raises
  · apply Script.ensures_monadBind.mpr
    apply Script.ensures_attempt.mpr
    apply readCommandPgid_ensures.mono
    rintro result _ rfl
    cases result with
    | ok commandPgid => exact supervise_ensures wake tidy starts alive
    | error exit =>
        cases exit with
        | cancelled => exact cancelStartup_ensures wake tidy isOpen alive
        | exception type text =>
            apply ensures_andThen (terminateProcess_ensures pursued)
            · exact fun _ _ terminated => (terminated.settled tidy).raises
            intro _ after terminated
            have reaped := terminated.reaped
            apply ensures_unseen (fun _ => add_returncode reaped.gone) (by trivial)
              (fun _ => (terminated.settled tidy).raises)
            intro exitCode
            exact fail_ensures wake (reaped.tidy tidy) (reaped.open isOpen) reaped.gone

/-- The descriptor of a secret is closed, if there is one. -/
def Progress.released (progress : Progress) : Option Nat → Progress
  | some fd => progress.closed fd
  | none => progress

theorem closeIfOpen_ensures {settings : Settings} {job : JobRequest} {secretFd : Option Nat} :
    (closeIfOpen secretFd).Ensures (executing settings job)
      (fun result after => result = .ok () ∧ after = progress.released secretFd) progress := by
  cases secretFd with
  | none => exact ⟨rfl, rfl⟩
  | some fd =>
      apply ensures_await.mpr
      refine ⟨trivial, ?_⟩
      intro reply admitted
      cases reply with
      | error exit => cases admitted
      | ok value => exact ⟨rfl, rfl⟩

/-- Whether the supervisor was started or not, its ends of the descriptors are closed. -/
theorem start_ensures {statusFd : Nat} {secretFd : Option Nat}
    (startable : progress.Startable launch.job ⟨launch.settings.serverPid, launch.job.gracePeriodSec,
      statusFd, secretFd, launch.valid.argv, launch.valid.cwd, launch.valid.forwarded⟩) :
    (launch.start statusFd secretFd).Ensures (executing launch.settings launch.job)
      (fun reply after => ∃ spawn, after =
        ((progress.add ⟨.spawn spawn, reply⟩).closed statusFd).released secretFd) progress := by
  apply Script.ensures_finish.mpr
  apply ensures_await.mpr
  refine ⟨startable, ?_⟩
  intro reply _
  apply ensures_awaitThen (by trivial)
  · intro _ admitted
    cases admitted
  intro _
  apply closeIfOpen_ensures.mono
  rintro _ _ ⟨rfl, rfl⟩
  simp only [Script.leads_ok, Script.ensures_ofExcept]
  exact ⟨_, rfl⟩

/-- The descriptors of a run that has claimed its secret. -/
def held : Option Nat → Multiset Nat
  | some fd => {fd}
  | none => 0

/-- Of the descriptors that a start needs, the reading end of the pipe is left. -/
theorem released_closed (progress : Progress) (readFd writeFd : Nat) (secretFd : Option Nat) :
    (({ progress with descriptors := readFd ::ₘ writeFd ::ₘ held secretFd } : Progress).closed
      writeFd).released secretFd = { progress with descriptors := {readFd} } := by
  have first : (readFd ::ₘ writeFd ::ₘ held secretFd).erase writeFd = readFd ::ₘ held secretFd := by
    rw [Multiset.cons_swap, Multiset.erase_cons_head]
  cases secretFd with
  | none => simpa [Progress.released, Progress.closed, held] using first
  | some fd =>
      have swapped : readFd ::ₘ held (some fd) = fd ::ₘ {readFd} := Multiset.cons_swap readFd fd 0
      simp only [Progress.released, Progress.closed, first]
      rw [swapped, Multiset.erase_cons_head]

theorem tidy_released {secretFd : Option Nat} (isHeld : progress.descriptors = held secretFd)
    (uninterrupted : progress.interrupted = false) : Tidy (progress.released secretFd) := by
  cases secretFd with
  | none => exact ⟨isHeld, uninterrupted⟩
  | some fd => exact ⟨by simp [Progress.released, Progress.closed, isHeld, held], uninterrupted⟩

theorem process_released {secretFd : Option Nat} :
    (progress.released secretFd).process = progress.process := by
  cases secretFd <;> rfl

theorem run_ensures {secretFd : Option Nat} (wake : WakeFields launch.wakeMetadata)
    (starts : progress.state = some (.str "starting")) (absent : progress.process = .absent)
    (isHeld : progress.descriptors = held secretFd) (sameSecret : secretFd = progress.secretFd)
    (hasSecret : launch.job.secretSupplied = true → secretFd.isSome)
    (uninterrupted : progress.interrupted = false) :
    (launch.run secretFd).Ensures (executing launch.settings launch.job) (Concludes launch.hasReadyEvent)
      progress := by
  apply Script.ensures_monadBind.mpr
  apply Script.ensures_attempt.mpr
  apply ensures_await.mpr
  refine ⟨trivial, ?_⟩
  intro reply _
  cases reply with
  | error exit =>
      apply ensures_andThen closeIfOpen_ensures
      · rintro _ _ ⟨impossible, -⟩
        cases impossible
      rintro _ _ ⟨-, rfl⟩
      have tidy := tidy_released isHeld uninterrupted
      exact (tidy.settled (by simp [process_released, absent, ProcessStatus.LetGo])).raises
  | ok ends =>
      rcases ends with ⟨readFd, writeFd⟩
      have piped : progress.add ⟨.pipe, .ok (readFd, writeFd)⟩ =
          { progress with descriptors := readFd ::ₘ writeFd ::ₘ held secretFd } := by
        rw [← isHeld]
        rfl
      rw [piped]
      apply Script.ensures_monadBind.mpr
      apply Script.ensures_attempt.mpr
      apply (start_ensures _).mono
      · rintro reply after ⟨spawn, isAfter⟩
        cases reply with
        | ok child =>
            have started : after = { progress with process := .alive, descriptors := {readFd} } :=
              isAfter.trans
                (released_closed { progress with process := .alive } readFd writeFd secretFd)
            subst started
            exact awaitStartup_ensures wake starts rfl rfl uninterrupted
        | error exit =>
            cases exit with
            | cancelled =>
                have stopped : after = { progress with interrupted := true, descriptors := {readFd} } :=
                  isAfter.trans
                    (released_closed { progress with interrupted := true } readFd writeFd secretFd)
                subst stopped
                exact Settled.raises ⟨by simp [absent, ProcessStatus.LetGo], by simp⟩
            | exception type text =>
                have failed : after = { progress with descriptors := {readFd} } :=
                  isAfter.trans (released_closed progress readFd writeFd secretFd)
                subst failed
                apply ensures_awaitThen (by trivial)
                · intro _ admitted
                  cases admitted
                intro _
                exact fail_ensures wake ⟨Multiset.erase_singleton readFd, uninterrupted⟩
                  (.inr (.inl starts)) (.inl absent)
      · constructor
        · exact starts
        · exact absent
        · exact sameSecret
        · exact fun supplied => sameSecret ▸ hasSecret supplied
        · simp
        · intro fd isSecret
          simp_all [held]

/-- The secret of a request. -/
def SecretInput.IsOf (job : JobRequest) : SecretInput → Prop
  | .none => job.secretSupplied = false
  | .scalar handle => job.stdinSecretId = some handle
  | .pair handles => job.stdinSecretIds = some handles

/-- What a claim has led to. -/
def Claimed (job : JobRequest) (before : Progress) : Except Exit (Option Nat) → Progress → Prop
  | .ok (some fd), after => after = before.claimed fd
  | .ok none, after => after = before ∧ job.secretSupplied = false
  | .error _, after => after = before

theorem claim_ensures {settings : Settings} {job : JobRequest} {secret : SecretInput} (isOf : secret.IsOf job)
    (claimable : progress.Claimable) :
    (claim secret).Ensures (executing settings job) (Claimed job progress) progress := by
  cases secret with
  | none => exact ⟨rfl, isOf⟩
  | scalar handle =>
      apply ensures_awaitThen
      · exact ⟨isOf, claimable⟩
      · exact fun _ _ => rfl
      · exact fun _ => rfl
  | pair handles =>
      apply ensures_awaitThen
      · exact ⟨isOf, claimable⟩
      · exact fun _ _ => rfl
      · exact fun _ => rfl

theorem execute_ensures (wake : WakeFields launch.wakeMetadata)
    (isOf : launch.valid.secret.IsOf launch.job) :
    launch.execute.Ensures (executing launch.settings launch.job) (Concludes launch.hasReadyEvent)
      Progress.start := by
  have tidy : Tidy Progress.start := ⟨rfl, rfl⟩
  have isState : launch.initialMetadata.get "state" = .str "starting" :=
    (get_updated_of_notMem wake.state).trans rfl
  apply ensures_awaitThen
  · exact ⟨rfl, _, isState, .starting rfl rfl, fun _ => ownedBy_initial wake⟩
  · exact fun _ _ => tidy.abandon.raises
  intro _
  have starts : (Progress.start.recorded launch.initialMetadata).state =
      some (.str "starting") := by
    rw [Progress.state_recorded, isState]
  have settled := tidy.settled_recorded (.inl rfl) launch.initialMetadata
  apply ensures_unseen (fun _ => rfl) (by trivial) (fun _ => settled.raises)
  intro _
  apply Script.ensures_monadBind.mpr
  apply Script.ensures_attempt.mpr
  apply (claim_ensures isOf ⟨starts, rfl, rfl⟩).mono
  intro result after claimed
  cases result with
  | error exit =>
      rw [Claimed] at claimed
      subst claimed
      cases exit with
      | cancelled => exact settled.raises
      | exception type text =>
          exact fail_ensures wake (tidy.recorded _) (.inr (.inl starts)) (.inl rfl)
  | ok secretFd =>
      cases secretFd with
      | none =>
          rcases claimed with ⟨rfl, unsupplied⟩
          exact run_ensures wake starts rfl rfl rfl (by simp [unsupplied]) rfl
      | some fd =>
          rw [Claimed] at claimed
          subst claimed
          exact run_ensures wake starts rfl rfl rfl (fun _ => rfl) rfl

theorem validateStdinSecretId_ok {value found : Option Secret.SecretId}
    (valid : validateStdinSecretId value = .ok found) :
    found = none ∧ value.any (· ≠ []) = false ∨ ∃ handle, found = some handle ∧ value = some handle := by
  cases value with
  | none =>
      left
      simpa [validateStdinSecretId, eq_comm] using valid
  | some handle =>
      rw [validateStdinSecretId] at valid
      split at valid
      · rename_i empty
        left
        simpa [empty, eq_comm] using valid
      · split at valid
        · right
          exact ⟨handle, by simpa [eq_comm] using valid, rfl⟩
        · contradiction

theorem validateSecretPair_ok {value found : Option (Dict Text Secret.SecretId)}
    (valid : Secret.validateSecretPair value = .ok found) : found = value := by
  cases value with
  | none => simpa [Secret.validateSecretPair, eq_comm] using valid
  | some handles =>
      rw [Secret.validateSecretPair] at valid
      split at valid
      · contradiction
      · split at valid
        · contradiction
        · split at valid
          · contradiction
          · simpa [eq_comm] using valid

/-- What validation has found out about the secret. -/
theorem isOf_of_validateSecretInputs {job : JobRequest} {secret : SecretInput}
    {successContains failureContains : Option MatchText}
    (valid : validateSecretInputs job.stdinSecretId job.stdinSecretIds successContains
      failureContains = .ok secret) : secret.IsOf job := by
  rw [validateSecretInputs] at valid
  cases isScalar : validateStdinSecretId job.stdinSecretId with
  | error error => simp [isScalar, bind, Except.bind] at valid
  | ok scalar =>
      cases isPair : Secret.validateSecretPair job.stdinSecretIds with
      | error error => simp [isScalar, isPair, bind, Except.bind] at valid
      | ok pair =>
          have samePair := validateSecretPair_ok isPair
          simp only [isScalar, isPair, bind, Except.bind] at valid
          rcases validateStdinSecretId_ok isScalar with ⟨rfl, unsupplied⟩ | ⟨handle, rfl, isHandle⟩
          · cases pair with
            | none =>
                obtain rfl : SecretInput.none = secret := by simpa using valid
                rw [SecretInput.IsOf, JobRequest.secretSupplied, unsupplied, ← samePair]
                rfl
            | some handles =>
                dsimp only at valid
                split at valid
                · contradiction
                · obtain rfl : SecretInput.pair handles = secret := by simpa using valid
                  exact samePair.symm
          · cases pair with
            | none =>
                dsimp only at valid
                split at valid
                · contradiction
                · obtain rfl : SecretInput.scalar handle = secret := by simpa using valid
                  exact isHandle
            | some handles => contradiction

theorem checked_ensures {settings : Settings} {job : JobRequest} {Value : Type} {type : String}
    {result : Except String Value} {post : Except Exit Value → Progress → Prop}
    (returns : ∀ value, result = .ok value → post (.ok value) progress)
    (raises : ∀ exit, post (.error exit) progress) :
    (checked type result).Ensures (executing settings job) post progress := by
  apply Script.ensures_ofExcept.mpr
  cases result with
  | ok value => exact returns value rfl
  | error error => exact raises _

/-- What validation leads to. -/
def Validated (job : JobRequest) (before : Progress) : Except Exit ValidJob → Progress → Prop
  | .ok valid, after => after = before ∧ valid.secret.IsOf job
  | .error _, after => after = before

theorem validate_ensures {settings : Settings} {job : JobRequest} :
    (validate settings job).Ensures (executing settings job) (Validated job progress) progress := by
  apply ensures_unseen (fun _ => rfl) (by trivial) (fun _ => rfl)
  intro cwd
  apply ensures_unseen (fun _ => rfl) (by trivial) (fun _ => rfl)
  intro argv
  split
  · rfl
  · apply Script.ensures_monadBind.mpr
    apply checked_ensures _ (fun _ => rfl)
    intro successContains _
    apply Script.ensures_monadBind.mpr
    apply checked_ensures _ (fun _ => rfl)
    intro failureContains _
    apply Script.ensures_monadBind.mpr
    apply checked_ensures _ (fun _ => rfl)
    intro secret isSecret
    apply ensures_unseen (fun _ => rfl) (by trivial) (fun _ => rfl)
    exact fun _ => ⟨rfl, isOf_of_validateSecretInputs isSecret⟩

end Starting

/-! ### Whole runs -/

section Runs

variable {settings : Settings} {job : JobRequest} {wakeMetadata : List (String × Json)}
  {hasReadyEvent : Bool} {oracle : Oracle server Exit}

theorem executeJob_ensures (wake : WakeFields wakeMetadata) :
    (executeJob settings job wakeMetadata hasReadyEvent).Ensures (executing settings job)
      (Concludes hasReadyEvent) Progress.start := by
  have tidy : Tidy Progress.start := ⟨rfl, rfl⟩
  have settled : Settled Progress.start := tidy.settled (by simp [Progress.start, ProcessStatus.LetGo])
  apply ensures_unseen (fun _ => rfl) (by trivial) (fun _ => settled.raises)
  intro _
  apply ensures_unseen (fun _ => rfl) (by trivial) (fun _ => settled.raises)
  intro startedAt
  apply ensures_unseen (fun _ => rfl) (by trivial) (fun _ => settled.raises)
  intro started
  apply Script.ensures_monadBind.mpr
  apply Script.ensures_attempt.mpr
  apply validate_ensures.mono
  intro result after validated
  cases result with
  | error exit =>
      rw [Validated] at validated
      subst validated
      cases exit with
      | cancelled => exact settled.raises
      | exception type text =>
          have sameWake : WakeFields (Execution.mk settings job wakeMetadata hasReadyEvent startedAt
            started).wakeMetadata := wake
          exact fail_ensures sameWake tidy (.inl rfl) (.inl rfl)
  | ok valid =>
      rcases validated with ⟨rfl, isOf⟩
      have sameWake : WakeFields (Launch.mk (Execution.mk settings job wakeMetadata hasReadyEvent
        startedAt started) valid).wakeMetadata := wake
      exact execute_ensures sameWake isOf

/-- What is seen of the calls of a run. -/
def Progress.of (history : List (Exchange server Exit)) : Progress := history.foldl Progress.add .start

/-- The oracle answers as the calls may be answered. -/
def Answers (oracle : Oracle server Exit) : Prop :=
  ∀ history request, Admitted request (oracle history request)

theorem executeJob_concludes (wake : WakeFields wakeMetadata) (answers : Answers oracle) :
    Concludes hasReadyEvent ((executeJob settings job wakeMetadata hasReadyEvent).run oracle []).2
      (.of ((executeJob settings job wakeMetadata hasReadyEvent).run oracle []).1) :=
  Script.run_of_checks answers (executeJob_ensures wake)

theorem executeJob_allowed {before after : List (Exchange server Exit)}
    {exchange : Exchange server Exit} (wake : WakeFields wakeMetadata) (answers : Answers oracle)
    (ran : ((executeJob settings job wakeMetadata hasReadyEvent).run oracle []).1 =
      before ++ exchange :: after) : Allowed settings job (.of before) exchange.request :=
  Script.allows_of_checks answers (executeJob_ensures wake) ran

/-- A result that is returned is the one that the last record of the job shows, and whoever waits for
the job has been told. -/
theorem result_recorded {history : List (Exchange server Exit)} {result : RunResult}
    (wake : WakeFields wakeMetadata) (answers : Answers oracle)
    (ran : (executeJob settings job wakeMetadata hasReadyEvent).run oracle [] =
      (history, .ok result)) :
    (Progress.of history).Shows result ∧
      (hasReadyEvent = true → (Progress.of history).ready = true) := by
  have concludes : Concludes hasReadyEvent
      ((executeJob settings job wakeMetadata hasReadyEvent).run oracle []).2
      (.of ((executeJob settings job wakeMetadata hasReadyEvent).run oracle []).1) :=
    executeJob_concludes wake answers
  rw [ran] at concludes
  exact ⟨concludes.shows result rfl, concludes.ready result rfl⟩

/-- The records of a job go from `starting` over `running` to one final state, which is recorded when
nothing is left of the process. -/
theorem records_in_order {before after : List (Exchange server Exit)} {jobId : String} {value : Json}
    {reply : Except Exit Unit} (wake : WakeFields wakeMetadata) (answers : Answers oracle)
    (ran : ((executeJob settings job wakeMetadata hasReadyEvent).run oracle []).1 =
      before ++ ⟨.writeMetadata jobId value, reply⟩ :: after) :
    jobId = job.jobId ∧
      ∃ name, value.get "state" = .str name ∧ (Progress.of before).Recordable name := by
  rcases executeJob_allowed wake answers ran with ⟨same, name, isState, recordable, -⟩
  exact ⟨same, name, isState, recordable⟩

/-- A run does not end while its process is known to be running, unless a call failed that was to end
or to record it. -/
theorem process_let_go (wake : WakeFields wakeMetadata) (answers : Answers oracle) :
    (Progress.of ((executeJob settings job wakeMetadata hasReadyEvent).run oracle []).1).process.LetGo :=
  (executeJob_concludes wake answers).settled.letGo

theorem Progress.of_concat (history : List (Exchange server Exit)) (exchange : Exchange server Exit) :
    Progress.of (history ++ [exchange]) = (Progress.of history).add exchange :=
  List.foldl_concat ..

theorem Progress.interrupted_of {history : List (Exchange server Exit)} :
    (Progress.of history).interrupted = history.any startCancelled := by
  induction history using List.reverseRecOn with
  | nil => rfl
  | append_singleton history exchange ih =>
      rw [Progress.of_concat, List.any_append, ← ih]
      simp [Progress.add, Bool.or_comm]

/-- However a run ends, it has closed every descriptor that it had opened, unless it was cancelled
while the supervisor was being started. -/
theorem descriptors_closed (wake : WakeFields wakeMetadata) (answers : Answers oracle) :
    (Progress.of ((executeJob settings job wakeMetadata hasReadyEvent).run oracle []).1).descriptors = 0 ↔
      ((executeJob settings job wakeMetadata hasReadyEvent).run oracle []).1.any startCancelled =
        false := by
  rw [(executeJob_concludes wake answers).settled.closed, Progress.interrupted_of]

/-- The descriptors of the secrets that were claimed. -/
def claims (history : List (Exchange server Exit)) : List Nat := history.filterMap claimed?

theorem Progress.secretFd_of {history : List (Exchange server Exit)} :
    (Progress.of history).secretFd = (claims history).getLast? := by
  induction history using List.reverseRecOn with
  | nil => rfl
  | append_singleton history exchange ih =>
      have step : (claims (history ++ [exchange])) = claims history ++ (claimed? exchange).toList := by
        cases found : claimed? exchange <;> simp [claims, found]
      have after : ((Progress.of history).add exchange).secretFd =
        (claimed? exchange).or (Progress.of history).secretFd := rfl
      rw [Progress.of_concat, after, ih, step]
      cases claimed? exchange <;> simp

/-- A claim that is allowed is the first one. -/
theorem claims_of_allowed {history : List (Exchange server Exit)} {exchange : Exchange server Exit}
    {fd : Nat} (allowed : Allowed settings job (.of history) exchange.request)
    (claimed : claimed? exchange = some fd) : claims history = [] := by
  have claimable : (Progress.of history).Claimable := by
    rw [claimed?.eq_def] at claimed
    split at claimed
    · exact allowed.2
    · exact allowed.2
    · contradiction
  have first := claimable.first
  rwa [Progress.secretFd_of, List.getLast?_eq_none_iff] at first

/-- A run claims one secret at most. -/
theorem claims_le_one {history : List (Exchange server Exit)} (wake : WakeFields wakeMetadata)
    (answers : Answers oracle)
    (isPart : history <+: ((executeJob settings job wakeMetadata hasReadyEvent).run oracle []).1) :
    (claims history).length ≤ 1 := by
  induction history using List.reverseRecOn with
  | nil => simp [claims]
  | append_singleton history exchange ih =>
      have earlier := ih ((List.prefix_append _ _).trans isPart)
      rcases isPart with ⟨rest, ran⟩
      rw [List.append_assoc, List.singleton_append] at ran
      have allowed := executeJob_allowed wake answers ran.symm
      cases found : claimed? exchange with
      | none => simpa [claims, found] using earlier
      | some fd =>
          have none : history.filterMap claimed? = [] := claims_of_allowed allowed found
          simp [claims, found, none]

/-- A run claims one secret at most, and a job that has a secret is started with the descriptor that
was claimed, open until then, and never without it. -/
theorem started_with_secret (wake : WakeFields wakeMetadata) (answers : Answers oracle) :
    (claims ((executeJob settings job wakeMetadata hasReadyEvent).run oracle []).1).length ≤ 1 ∧
      ∀ before after spawn reply,
        ((executeJob settings job wakeMetadata hasReadyEvent).run oracle []).1 =
          before ++ ⟨.spawn spawn, reply⟩ :: after →
        claims before = spawn.secretFd.toList ∧
          (job.secretSupplied = true → spawn.secretFd.isSome) ∧
          (Progress.of before).Startable job spawn := by
  refine ⟨claims_le_one wake answers (List.prefix_refl _), fun before after spawn reply ran => ?_⟩
  have startable : (Progress.of before).Startable job spawn := executeJob_allowed wake answers ran
  have few : (claims before).length ≤ 1 := claims_le_one wake answers ⟨_, ran.symm⟩
  refine ⟨?_, fun supplied => ?_, startable⟩
  · rw [startable.sameSecret, Progress.secretFd_of]
    rcases isClaims : claims before with _ | ⟨fd, _ | ⟨other, rest⟩⟩
    · rfl
    · rfl
    · simp [isClaims] at few
  · rw [startable.sameSecret]
    exact startable.hasSecret supplied

end Runs

/-! ### A run -/

def sampleSettings : Settings where
  mapping := asciiCase
  maxTimeoutSec := 43200
  maxLogBytes := 1024
  maxActiveJobs := 4
  heartbeatInitialSec := 0
  heartbeatIntervalSec := 60
  forwardEnvNames := ["PATH"]
  jobsDir := "/state/jobs"
  serverPid := 7
  serverStartTicks := some "700"
  bridgeSocket := none
  argvDigest _ := "digest"
  parseInt line := if line = [0x39, 0x0A] then some 9 else none
  reprBytes _ := "b''"
  reprValue _ := ""

/-- A job with a secret. -/
def sampleJob : JobRequest where
  jobId := "0123456789ab"
  argv := [Text.ofString "true"]
  cwd := "/work"
  timeoutSec := 60
  noOutputTimeoutSec := 0
  gracePeriodSec := 5
  successContains := none
  failureContains := none
  tailLines := 80
  tailBytes := 16384
  reportsProgress := false
  stdinSecretId := some (List.replicate 32 0x61)
  stdinSecretIds := none

/-- Every call succeeds, and the command ends with 0. -/
def smooth : Oracle server Exit := fun _ request =>
  match request with
  | .utcNow => .ok "2026-01-01T00:00:00+00:00"
  | .monotonic => .ok 0
  | .duration _ => .ok 1
  | .resolveCwd cwd => .ok cwd
  | .validateArgv argv _ => .ok argv
  | .buildEnvironment _ => .ok ["PATH"]
  | .readMetadata _ => .ok (some (.obj []))
  | .claimSecret _ => .ok 5
  | .claimSecretPair _ => .ok 5
  | .pipe => .ok (3, 4)
  | .spawn _ => .ok ⟨8, true⟩
  | .readLine => .ok [0x39, 0x0A]
  | .procStartTicks _ => .ok (some "800")
  | .waitWithLimits _ _ _ _ => .ok none
  | .returncode => .ok (some 0)
  | .wait => .ok 0
  | .readerDone => .ok true
  | .report => .ok ⟨.create 1024 none none 0 true, 0, none⟩
  | .ensureStateDirs => .ok ()
  | .writeMetadata _ _ => .ok ()
  | .writeTail _ _ => .ok ()
  | .writeLatestLogPath _ => .ok ()
  | .lockState => .ok ()
  | .unlockState => .ok ()
  | .close _ => .ok ()
  | .connectReadPipe _ => .ok ()
  | .closeTransport _ => .ok ()
  | .setReady => .ok ()
  | .startReader _ _ _ => .ok ()
  | .terminate => .ok ()
  | .waitFor _ => .ok ()
  | .kill => .ok ()
  | .cancelReader => .ok ()
  | .joinReader => .ok ()
  | .newJobId => .ok "0123456789ab"
  | .listMetadata => .ok []
  | .loadMetadata _ => .ok .null
  | .isAllowed _ => .ok true
  | .getpgid pid => .ok pid
  | .killpg _ => .ok ()
  | .killProcess _ => .ok ()
  | .terminateProcess _ => .ok ()
  | .requestBridge _ _ _ => .ok .null
  | .createBackground _ => .ok ()
  | .waitReady => .ok ()
  | .createHandoff _ _ => .ok ()
  | .waitHandoff _ => .ok ()
  | .cancelBackground _ => .ok false
  | .forgetBackground _ => .ok ()

theorem answers_smooth : Answers smooth := by
  intro history request
  cases request <;> trivial

def sampleRun : List (Exchange server Exit) × Except Exit RunResult :=
  (executeJob sampleSettings sampleJob [("wake_policy", .str "none")] true).run smooth []

theorem wake_sample : WakeFields [("wake_policy", .str "none")] := by
  simp [WakeFields, wakeFieldNames]

theorem result_recorded_sample : ∃ history result, sampleRun = (history, .ok result) ∧
    (Progress.of history).Shows result ∧ (true = true → (Progress.of history).ready = true) := by
  have returns : sampleRun.2.isOk = true := rfl
  rcases ran : sampleRun with ⟨history, error | result⟩
  · rw [ran] at returns
    cases returns
  · exact ⟨history, result, rfl, result_recorded wake_sample answers_smooth ran⟩

theorem records_in_order_sample : ∃ before after value reply,
    sampleRun.1 = before ++ ⟨.writeMetadata "0123456789ab" value, reply⟩ :: after ∧
      "0123456789ab" = sampleJob.jobId ∧
        ∃ name, value.get "state" = .str name ∧ (Progress.of before).Recordable name :=
  have ran : sampleRun.1 = sampleRun.1.take 6 ++ _ :: sampleRun.1.drop 7 := rfl
  ⟨_, _, _, _, ran, records_in_order wake_sample answers_smooth ran⟩

theorem process_let_go_sample : (Progress.of sampleRun.1).process.LetGo :=
  process_let_go wake_sample answers_smooth

theorem descriptors_closed_sample :
    (Progress.of sampleRun.1).descriptors = 0 ↔ sampleRun.1.any startCancelled = false :=
  descriptors_closed wake_sample answers_smooth

theorem started_with_secret_sample : (claims sampleRun.1).length = 1 ∧
    ∃ before after spawn reply, sampleRun.1 = before ++ ⟨.spawn spawn, reply⟩ :: after ∧
      claims before = spawn.secretFd.toList ∧
        (sampleJob.secretSupplied = true → spawn.secretFd.isSome) ∧
          (Progress.of before).Startable sampleJob spawn := by
  have ran : sampleRun.1 = sampleRun.1.take 10 ++ _ :: sampleRun.1.drop 11 := rfl
  have few : (claims sampleRun.1).length ≤ 1 := (started_with_secret wake_sample answers_smooth).1
  exact ⟨le_antisymm few (by decide +kernel), _, _, _, _, ran,
    (started_with_secret wake_sample answers_smooth).2 _ _ _ _ ran⟩

end Longrun.Server
