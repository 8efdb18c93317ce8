import Longrun.Bridge.Frame

/-!
# The moves preserve the invariant

One lemma for each kind of move, and from them the invariant rule for whole steps.
-/

namespace Longrun.Bridge

variable {origin : Option Origin} {world : World} {task : TaskId} {pc : Pc} {job : JobId}

/-! ### Tasks after a move -/

namespace World

theorem At.lt_length (suspended : world.At task pc) : task < world.tasks.length :=
  (List.getElem?_eq_some_iff.mp suspended).1

theorem IsRunning.lt_length (running : world.IsRunning task) : task < world.tasks.length :=
  (List.getElem?_eq_some_iff.mp running).1

theorem At.not_running (suspended : world.At task pc) : ¬world.IsRunning task := by
  intro running
  simp [At, IsRunning] at suspended running
  simp [suspended] at running

theorem At.not_isDone (suspended : world.At task pc) : world.isDone task = false := by
  rw [At] at suspended
  simp [isDone, suspended]

theorem at_setTask {other : TaskId} {status : TaskStatus}
    (suspended : (world.setTask task status).At other pc) :
    (other = task ∧ status = .suspended pc) ∨ (other ≠ task ∧ world.At other pc) := by
  simp only [At, setTask_tasks, List.getElem?_set] at suspended
  by_cases same : task = other
  · rw [if_pos same] at suspended
    split at suspended
    · exact .inl ⟨same.symm, Option.some.inj suspended⟩
    · contradiction
  · rw [if_neg same] at suspended
    exact .inr ⟨fun equal => same equal.symm, suspended⟩

theorem at_spawn {other : TaskId} {status : TaskStatus}
    (suspended : (world.spawn status).At other pc) :
    (other = world.tasks.length ∧ status = .suspended pc) ∨ world.At other pc := by
  simp only [At, spawn_tasks, List.getElem?_append] at suspended
  split at suspended
  · exact .inr suspended
  · rename_i outside
    rcases List.getElem?_eq_some_iff.mp suspended with ⟨isLast, isStatus⟩
    rw [List.length_singleton, Nat.lt_one_iff, Nat.sub_eq_zero_iff_le] at isLast
    exact .inl ⟨le_antisymm isLast (not_lt.mp outside), by simpa using isStatus⟩

theorem isDone_setTask_of_ne {other : TaskId} {status : TaskStatus} (different : other ≠ task) :
    (world.setTask task status).isDone other = world.isDone other := by
  simp [isDone, Ne.symm different]

theorem isDone_setTask_self {status : TaskStatus} (inside : task < world.tasks.length) :
    (world.setTask task status).isDone task = match status with
      | .finished => true
      | _ => false := by
  simp only [isDone, setTask_tasks, List.getElem?_set_self inside]
  cases status <;> rfl

theorem isDone_spawn {status : TaskStatus} (inside : task < world.tasks.length) :
    (world.spawn status).isDone task = world.isDone task := by
  simp [isDone, List.getElem?_append, inside]

end World

/-! ### Events -/

namespace Event

/-- An event other than the requests that are sent at most once for a job. -/
def Repeatable (job : JobId) (event : Event) : Prop :=
  event.sends job Rpc.isActivation = false ∧ event.sends job Rpc.isInterrupt = false ∧
    event.sends job Rpc.isTurnStart = false

end Event

namespace Loggable

variable {event : Event}

theorem old (loggable : Loggable origin world event) : event.isStarted = false := by
  cases event <;> simp [Loggable, Event.isStarted] at loggable ⊢

theorem repeatable (loggable : Loggable origin world event) (job : JobId) :
    event.Repeatable job := by
  cases event with
  | sent _ _ _ rpc =>
      rcases loggable with ⟨⟨activation, interrupt, turnStart⟩, -⟩
      simp [Event.Repeatable, Event.sends, activation, interrupt, turnStart]
  | _ => exact ⟨rfl, rfl, rfl⟩

theorem not_released (loggable : Loggable origin world event) (thread : ThreadId) :
    event ≠ .released task thread := by
  rintro rfl
  exact loggable

theorem not_registered (loggable : Loggable origin world event) (job : JobId) :
    event ≠ .registered task job := by
  rintro rfl
  exact loggable

end Loggable

/-! ### The row of a job -/

namespace JobInv

theorem congr {after : World} (inv : JobInv world job) (row : after.row job = world.row job)
    (trace : after.trace = world.trace) (phase : after.phase = world.phase) :
    JobInv after job := by
  rcases inv with ⟨h1, h2, h3, h4, h5, h6, h7, h8, h9, h10, h11, h12, h13⟩
  constructor <;>
    simpa only [World.Undisturbed, World.PrepareReceived, World.processTrace, row, trace, phase]

theorem log (inv : JobInv world job) (event : Event)
    (old : world.phase = .serving → event.isStarted = false) (repeatable : event.Repeatable job) :
    JobInv (world.log event) job := by
  rcases repeatable with ⟨activation, interrupt, turnStart⟩
  have count {kind : Rpc → Bool} (other : event.sends job kind = false) :
      (world.log event).trace.countP (·.sends job kind) =
        world.trace.countP (·.sends job kind) := by
    simp [other]
  exact
    { consistent := inv.consistent
      registered := by
        intro row isRow
        rcases inv.registered row isRow with ⟨task, received, registered⟩
        exact ⟨task, received.log event, List.mem_cons_of_mem _ registered⟩
      activatedOnce := count activation ▸ inv.activatedOnce
      activated := count activation ▸ inv.activated
      activating := count activation ▸ inv.activating
      confirmed := fun row isRow goal state => (inv.confirmed row isRow goal state).cons event
      interruptedOnce := count interrupt ▸ inv.interruptedOnce
      interrupted := count interrupt ▸ inv.interrupted
      startedOnce := fun undisturbed => count turnStart ▸ inv.startedOnce undisturbed.of_log
      started := count turnStart ▸ inv.started
      starting := count turnStart ▸ inv.starting
      ready := by
        intro serving row isRow session live ready
        rw [World.processTrace_log (old serving)]
        exact (inv.ready serving row isRow session live ready).cons event
      recorded := by
        intro serving row isRow session terminal
        rw [World.processTrace_log (old serving)]
        exact List.mem_cons_of_mem _ (inv.recorded serving row isRow session terminal) }

/-- A row that changes, or appears, with nothing sent. -/
theorem change {after : World} {row : WakeLease} (inv : JobInv world job)
    (isRow : after.row job = some row) (trace : after.trace = world.trace)
    (phase : after.phase = world.phase) (consistent : row.Consistent)
    (registered : ∃ task, world.PrepareReceived task job ∧ .registered task job ∈ world.trace)
    (before : ∀ old, world.row job = some old → old.Later row)
    (activating : ∀ old, world.row job = some old → old.deliveryState = .activating →
      row.isLive = true → row.deliveryState = .activating)
    (activated : row.deliveryState = .activating →
      ∃ old, world.row job = some old ∧ old.deliveryState = .activating)
    (confirmed : row.wakeMode = .goal → row.state = .armed ∨ row.state = .terminal →
      PauseConfirmed world.trace row)
    (interrupted : ∀ old, world.row job = some old → old.handoffState ≠ .pending →
      row.handoffState ≠ .pending)
    (started : ∀ old, world.row job = some old → old.deliveryState = .activating ∨
        old.deliveryState = .resumed ∨ old.deliveryState = .needsManualRecovery →
      row.deliveryState = .activating ∨ row.deliveryState = .resumed ∨
        row.deliveryState = .needsManualRecovery)
    (ready : world.phase = .serving → row.wakeMode = .session → row.isLive = true →
      row.handoffState = .ready → HandoffConfirmed world.processTrace row)
    (recorded : world.phase = .serving → row.wakeMode = .session → row.state = .terminal →
      .terminalRecorded job ∈ world.processTrace) : JobInv after job := by
  have only {current : WakeLease} (found : after.row job = some current) : row = current :=
    Option.some.inj (isRow.symm.trans found)
  have process : after.processTrace = world.processTrace := by rw [World.processTrace, trace]; rfl
  refine
    { consistent := fun current found => only found ▸ consistent
      registered := fun _ _ => ?_
      activatedOnce := trace ▸ inv.activatedOnce
      activated := fun sent => ?_
      activating := fun current found goal active => ?_
      confirmed := fun current found => only found ▸ trace ▸ confirmed
      interruptedOnce := trace ▸ inv.interruptedOnce
      interrupted := fun sent => ?_
      startedOnce := fun undisturbed => trace ▸ inv.startedOnce fun task mem =>
        undisturbed task (trace ▸ mem)
      started := fun sent => ?_
      starting := fun current found session active => ?_
      ready := fun serving current found => only found ▸ process ▸ ready (phase ▸ serving)
      recorded := fun serving current found => only found ▸ process ▸ recorded (phase ▸ serving) }
  · rcases registered with ⟨task, ⟨request, mem, isPrepare⟩, mem'⟩
    exact ⟨task, ⟨request, trace ▸ mem, isPrepare⟩, trace ▸ mem'⟩
  · rcases inv.activated (trace ▸ sent) with ⟨old, found, goal, active⟩
    refine ⟨row, isRow, (before old found).wakeMode.trans goal, ?_⟩
    cases live : row.isLive with
    | false => exact .inr rfl
    | true =>
        rcases active with active | settled
        · exact .inl (activating old found active live)
        · rw [(before old found).live live] at settled
          contradiction
  · rcases only found with rfl
    rcases activated active with ⟨old, wasRow, wasActive⟩
    rw [trace]
    exact inv.activating old wasRow ((before old wasRow).wakeMode.symm.trans goal) wasActive
  · rcases inv.interrupted (trace ▸ sent) with ⟨old, found, session, attempted⟩
    exact ⟨row, isRow, (before old found).wakeMode.trans session,
      interrupted old found attempted⟩
  · rcases inv.started (trace ▸ sent) with ⟨old, found, session, delivery⟩
    exact ⟨row, isRow, (before old found).wakeMode.trans session, started old found delivery⟩
  · rcases only found with rfl
    rcases activated active with ⟨old, wasRow, wasActive⟩
    rw [trace]
    exact inv.starting old wasRow ((before old wasRow).wakeMode.symm.trans session) wasActive

theorem update {row : WakeLease} {fields : LeaseUpdate} (inv : JobInv world job)
    (found : world.row job = some row) (legal : Legal origin world row fields) :
    JobInv (world.update job fields) job := by
  have consistent := inv.consistent row found
  have only {old : WakeLease} (isOld : world.row job = some old) : row = old :=
    Option.some.inj (found.symm.trans isOld)
  have sameJob := BridgeState.jobId_of_get found
  refine inv.change (World.row_update_self found legal.later) rfl rfl (legal.consistent consistent)
    (inv.registered row found) ?_ ?_ ?_ ?_ ?_ ?_ ?_ ?_
  · exact fun old isOld => only isOld ▸ legal.later
  · exact fun old isOld => only isOld ▸ legal.activating_stays consistent
  · exact fun active => ⟨row, found, legal.activating_before active⟩
  · exact fun goal => legal.confirmed (inv.confirmed row found goal) goal
  · exact fun old isOld => only isOld ▸ legal.not_pending_stays
  · exact fun old isOld => only isOld ▸ legal.started consistent
  · exact fun serving session =>
      legal.handoffConfirmed (inv.ready serving row found session)
  · intro serving session terminal
    have before (state : row.state = .terminal) : .terminalRecorded row.jobId ∈
        world.processTrace := by
      rw [sameJob]
      exact inv.recorded serving row found session state
    rw [← sameJob]
    exact legal.terminalRecorded before consistent session terminal

end JobInv

/-! ### Each move -/

namespace Inv

variable (inv : Inv world)

include inv

theorem row_consistent {row : WakeLease} (found : world.row job = some row) : row.Consistent :=
  (inv.jobs job).consistent row found

/-- An event of the current process that breaks no promise. -/
theorem event {event : Event} (old : event.isStarted = false)
    (repeatable : ∀ job, event.Repeatable job)
    (received : ∀ task request, event = .received task request → task < world.tasks.length)
    (registered : ∀ task job, event = .registered task job → world.IsRunning task)
    (released : ∀ task pc thread, world.At task pc → pc.holdsGoal = some thread →
      event ≠ .released task thread) : Inv (world.log event) where
  jobs := fun job => (inv.jobs job).log event (fun _ => old) (repeatable job)
  tables :=
    { inv.tables with
      cancelling := fun undisturbed => inv.tables.cancelling undisturbed.of_log
      received := by
        intro task request mem
        rcases List.mem_cons.mp mem with isEvent | mem
        · exact received task request isEvent.symm
        · exact inv.tables.received task request mem
      registered := by
        intro task job mem
        rcases List.mem_cons.mp mem with isEvent | mem
        · exact (registered task job isEvent.symm).lt_length
        · exact inv.tables.registered task job mem
      inFlight := fun calm => inv.tables.inFlight calm.of_log
      done := by
        intro key done mem
        rw [World.processTrace_log old]
        exact List.mem_cons_of_mem _ (inv.tables.done key done mem) }
  suspended := fun task pc suspended => (inv.suspended task pc suspended).log old
    (fun thread => released task pc thread suspended)
    (fun job isEvent => suspended.not_running (registered task job isEvent))

theorem log {event : Event} (loggable : Loggable origin world event) : Inv (world.log event) := by
  refine inv.event loggable.old loggable.repeatable ?_ ?_ ?_
  · rintro task request rfl
    exact loggable
  · intro task job isEvent
    exact absurd isEvent (loggable.not_registered job)
  · exact fun task pc thread _ _ => loggable.not_released thread

theorem spawn : Inv (world.spawn .running) where
  jobs := fun job => { inv.jobs job with }
  tables :=
    { inv.tables with
      deliveryTable := fun job task found =>
        (inv.tables.deliveryTable job task found).trans_le (by simp)
      deadlineTable := fun job task found =>
        (inv.tables.deadlineTable job task found).trans_le (by simp)
      cancelling := fun undisturbed task mem =>
        (inv.tables.cancelling undisturbed task mem).trans_le (by simp)
      received := fun task request mem =>
        (inv.tables.received task request mem).trans_le (by simp)
      registered := fun task job mem =>
        (inv.tables.registered task job mem).trans_le (by simp)
      inFlight := by
        intro calm job row isRow session live activating
        rcases inv.tables.inFlight calm job row isRow session live activating with
          ⟨task, found, undone⟩
        refine ⟨task, found, ?_⟩
        rw [World.isDone_spawn (inv.tables.deliveryTable job task found), undone] }
  suspended := by
    intro task pc suspended
    rcases World.at_spawn suspended with ⟨-, running⟩ | suspended
    · contradiction
    · exact { inv.suspended task pc suspended with }

/-- A task stops or goes on; where it stops, it must be able to rely on what it needs. -/
theorem setTask {status : TaskStatus} (inside : task < world.tasks.length)
    (relies : ∀ pc, status = .suspended pc → Suspended world task pc)
    (ends : status = .finished → world.NotInFlight task) : Inv (world.setTask task status) where
  jobs := fun job => { inv.jobs job with }
  tables :=
    { inv.tables with
      deliveryTable := by simpa using inv.tables.deliveryTable
      deadlineTable := by simpa using inv.tables.deadlineTable
      cancelling := fun undisturbed => by simpa using inv.tables.cancelling undisturbed
      received := by simpa using inv.tables.received
      registered := by simpa using inv.tables.registered
      inFlight := by
        intro calm job row isRow session live activating
        rcases inv.tables.inFlight calm job row isRow session live activating with
          ⟨holder, found, undone⟩
        refine ⟨holder, found, ?_⟩
        by_cases same : holder = task
        · subst same
          rw [World.isDone_setTask_self inside]
          cases status with
          | finished => exact absurd activating (ends rfl calm job row found isRow session live)
          | _ => rfl
        · rw [World.isDone_setTask_of_ne same, undone] }
  suspended := by
    intro other pc suspended
    rcases World.at_setTask suspended with ⟨rfl, isStatus⟩ | ⟨-, suspended⟩
    · exact { relies pc isStatus with }
    · exact { inv.suspended other pc suspended with }

theorem cancel {tasks : List TaskId}
    (allowed : world.Undisturbed → ∀ task ∈ tasks, task < world.tasks.length ∧
      ∀ pc job, world.At task pc → pc.delivers = some job → ¬world.Live job) :
    Inv { world with cancelling := tasks ++ world.cancelling } where
  jobs := fun job => { inv.jobs job with }
  tables :=
    { inv.tables with
      cancelling := by
        intro undisturbed task mem
        rcases List.mem_append.mp mem with mem | mem
        · exact (allowed undisturbed task mem).1
        · exact inv.tables.cancelling undisturbed task mem }
  suspended := fun task pc suspended =>
    { inv.suspended task pc suspended with
      cancelled := by
        intro undisturbed mem job delivers
        rcases List.mem_append.mp mem with mem | mem
        · exact (allowed undisturbed task mem).2 pc job suspended delivers
        · exact (inv.suspended task pc suspended).cancelled undisturbed mem job delivers }

theorem update {row : WakeLease} {fields : LeaseUpdate} (found : world.row job = some row)
    (legal : Legal origin world row fields) : Inv (world.update job fields) where
  jobs := by
    intro other
    by_cases same : other = job
    · exact same ▸ (inv.jobs job).update found legal
    · refine (inv.jobs other).congr ?_ rfl rfl
      rw [World.row_update found legal.later, if_neg same]
  tables :=
    { inv.tables with
      inFlight := by
        intro calm other after isRow session live activating
        rcases World.row_before_update found legal.later isRow with ⟨rfl, rfl⟩ | ⟨-, before⟩
        · exact inv.tables.inFlight calm other row found session (legal.later.live live)
            (legal.activating_before activating)
        · exact inv.tables.inFlight calm other after before session live activating }
  suspended := fun task pc suspended =>
    (inv.suspended task pc suspended).update found (legal.evolves (inv.row_consistent found))
      suspended

theorem spawnDelivery {row : WakeLease} {lease : WakeLease}
    (found : world.row lease.jobId = some row) (identity : row.identity = lease.identity)
    (beyond : 2 ≤ row.state.rank)
    (free : ∀ task, world.deliveryTasks.get? lease.jobId = some task → world.isDone task = true) :
    Inv (world.spawnDelivery lease) where
  jobs := fun job => { inv.jobs job with }
  tables :=
    { inv.tables with
      deliveryTable := by
        intro job task isTask
        simp only [World.spawnDelivery_deliveryTasks, Dict.get?_set] at isTask
        split at isTask
        · simp [← Option.some.inj isTask]
        · exact (inv.tables.deliveryTable job task isTask).trans_le (by simp)
      deadlineTable := fun job task isTask =>
        (inv.tables.deadlineTable job task isTask).trans_le (by simp)
      cancelling := fun undisturbed task mem =>
        (inv.tables.cancelling undisturbed task mem).trans_le (by simp)
      received := fun task request mem =>
        (inv.tables.received task request mem).trans_le (by simp)
      registered := fun task job mem =>
        (inv.tables.registered task job mem).trans_le (by simp)
      inFlight := by
        intro calm job current isRow session live activating
        rcases inv.tables.inFlight calm job current isRow session live activating with
          ⟨task, isTask, undone⟩
        by_cases same : job = lease.jobId
        · subst same
          rw [free task isTask] at undone
          contradiction
        · refine ⟨task, by simp [same, isTask], ?_⟩
          exact (World.isDone_spawn (inv.tables.deliveryTable job task isTask)).trans undone }
  suspended := by
    intro task pc suspended
    rcases World.at_spawn suspended with ⟨rfl, isStart⟩ | suspended
    · rcases TaskStatus.suspended.inj isStart with rfl
      refine
        { snapshot := ?_
          goalLock := fun _ holds => by cases holds
          peerLock := fun _ holds => by cases holds
          deliveryTable := ?_
          deadlineTable := ?_
          unique := ?_
          cancelled := ?_
          registering := fun _ registers => by cases registers
          stage := ⟨?_, .inl rfl, fun _ => ?_, trivial⟩ }
      · intro copy isCopy
        rcases Option.some.inj isCopy with rfl
        exact ⟨row, found, identity⟩
      · intro job isTask
        simp only [World.spawnDelivery_deliveryTasks, Dict.get?_set] at isTask
        split at isTask
        · rename_i same
          exact congrArg some same.symm
        · exact absurd (inv.tables.deliveryTable job _ isTask) (lt_irrefl _)
      · intro job isTask
        exact absurd (inv.tables.deadlineTable job _ isTask) (lt_irrefl _)
      · intro job delivers _
        rcases Option.some.inj delivers with rfl
        simp
      · intro undisturbed mem
        exact absurd (inv.tables.cancelling undisturbed _ mem) (lt_irrefl _)
      · intro current isRow
        rcases Option.some.inj (found.symm.trans isRow) with rfl
        exact beyond
      · intro session calm current isRow live activating
        rcases Option.some.inj (found.symm.trans isRow) with rfl
        have sessionRow : row.wakeMode = .session :=
          (congrArg (·.2.2.2.2.1) identity).trans session
        rcases inv.tables.inFlight calm _ row found sessionRow live activating with
          ⟨task, isTask, undone⟩
        rw [free task isTask] at undone
        contradiction
    · have before := inv.suspended task pc suspended
      exact
        { before with
          deliveryTable := by
            intro job isTask
            simp only [World.spawnDelivery_deliveryTasks, Dict.get?_set] at isTask
            split at isTask
            · exact absurd (Option.some.inj isTask) suspended.lt_length.ne'
            · exact before.deliveryTable job isTask
          unique := by
            intro job delivers live
            have isTask := before.unique job delivers live
            by_cases same : job = lease.jobId
            · subst same
              have done := free task isTask
              rw [suspended.not_isDone] at done
              contradiction
            · simpa [same] using isTask }

theorem spawnDeadline {lease : WakeLease} (snapshot : world.Snapshot lease) :
    Inv (world.spawnDeadline lease) where
  jobs := fun job => { inv.jobs job with }
  tables :=
    { inv.tables with
      deliveryTable := fun job task isTask =>
        (inv.tables.deliveryTable job task isTask).trans_le (by simp)
      deadlineTable := by
        intro job task isTask
        simp only [World.spawnDeadline_deadlineTasks, Dict.get?_set] at isTask
        split at isTask
        · simp [← Option.some.inj isTask]
        · exact (inv.tables.deadlineTable job task isTask).trans_le (by simp)
      cancelling := fun undisturbed task mem =>
        (inv.tables.cancelling undisturbed task mem).trans_le (by simp)
      received := fun task request mem =>
        (inv.tables.received task request mem).trans_le (by simp)
      registered := fun task job mem =>
        (inv.tables.registered task job mem).trans_le (by simp)
      inFlight := by
        intro calm job current isRow session live activating
        rcases inv.tables.inFlight calm job current isRow session live activating with
          ⟨task, isTask, undone⟩
        exact ⟨task, isTask,
          (World.isDone_spawn (inv.tables.deliveryTable job task isTask)).trans undone⟩ }
  suspended := by
    intro task pc suspended
    rcases World.at_spawn suspended with ⟨rfl, isStart⟩ | suspended
    · rcases TaskStatus.suspended.inj isStart with rfl
      refine
        { snapshot := ?_
          goalLock := fun _ holds => by cases holds
          peerLock := fun _ holds => by cases holds
          deliveryTable := ?_
          deadlineTable := fun _ _ => rfl
          unique := fun _ delivers => by cases delivers
          cancelled := fun _ _ _ delivers => by cases delivers
          registering := fun _ registers => by cases registers
          stage := trivial }
      · intro copy isCopy
        rcases Option.some.inj isCopy with rfl
        exact snapshot
      · intro job isTask
        exact absurd (inv.tables.deliveryTable job _ isTask) (lt_irrefl _)
    · have before := inv.suspended task pc suspended
      exact
        { before with
          deadlineTable := by
            intro job isTask
            simp only [World.spawnDeadline_deadlineTasks, Dict.get?_set] at isTask
            split at isTask
            · exact absurd (Option.some.inj isTask) suspended.lt_length.ne'
            · exact before.deadlineTable job isTask }

theorem popDelivery
    (undelivered : ∀ task pc, world.At task pc → pc.delivers = some job → ¬world.Live job)
    (idle : world.Calm → world.WhileLive job fun row => row.wakeMode = .session →
      row.deliveryState ≠ .activating) : Inv (world.popDelivery job) where
  jobs := fun job => { inv.jobs job with }
  tables :=
    { inv.tables with
      deliveryTable := by
        intro other task isTask
        rw [World.popDelivery_deliveryTasks, Dict.get?_pop] at isTask
        split at isTask
        · contradiction
        · exact inv.tables.deliveryTable other task isTask
      inFlight := by
        intro calm other row isRow session live activating
        by_cases same : other = job
        · subst same
          exact absurd activating (idle calm row isRow live session)
        · rcases inv.tables.inFlight calm other row isRow session live activating with
            ⟨task, isTask, undone⟩
          exact ⟨task, by simp [same, isTask], undone⟩ }
  suspended := by
    intro task pc suspended
    have before := inv.suspended task pc suspended
    exact
      { before with
        deliveryTable := by
          intro other isTask
          rw [World.popDelivery_deliveryTasks, Dict.get?_pop] at isTask
          split at isTask
          · contradiction
          · exact before.deliveryTable other isTask
        unique := by
          intro other delivers live
          by_cases same : other = job
          · subst same
            exact absurd live (undelivered task pc suspended delivers)
          · simpa [same] using before.unique other delivers live }

theorem popDeadline : Inv (world.popDeadline job) where
  jobs := fun job => { inv.jobs job with }
  tables :=
    { inv.tables with
      deadlineTable := by
        intro other task isTask
        rw [World.popDeadline_deadlineTasks, Dict.get?_pop] at isTask
        split at isTask
        · contradiction
        · exact inv.tables.deadlineTable other task isTask }
  suspended := by
    intro task pc suspended
    have before := inv.suspended task pc suspended
    exact
      { before with
        deadlineTable := by
          intro other isTask
          rw [World.popDeadline_deadlineTasks, Dict.get?_pop] at isTask
          split at isTask
          · contradiction
          · exact before.deadlineTable other isTask }

/-! #### Locks -/

theorem setGoalControls {controls : Dict ThreadId TaskId}
    (keeps : ∀ task pc thread, world.At task pc → pc.holdsGoal = some thread →
      world.goalControls.get? thread = some task → controls.get? thread = some task) :
    Inv { world with goalControls := controls } where
  jobs := fun job => { inv.jobs job with }
  tables := { inv.tables with }
  suspended := fun task pc suspended =>
    { inv.suspended task pc suspended with
      goalLock := fun thread holds => keeps task pc thread suspended holds
        ((inv.suspended task pc suspended).goalLock thread holds) }

theorem lockGoal {thread : ThreadId} (free : world.goalControls.get? thread = none) :
    Inv (world.lockGoal task thread) := by
  have logged : Inv (world.log (.acquired task thread)) :=
    inv.event rfl (fun _ => ⟨rfl, rfl, rfl⟩) (fun _ _ isEvent => by cases isEvent)
      (fun _ _ isEvent => by cases isEvent) (fun _ _ _ _ _ isEvent => by cases isEvent)
  refine logged.setGoalControls ?_
  intro other pc held _ _ isHolder
  have different : held ≠ thread := by
    rintro rfl
    rw [World.log_goalControls, free] at isHolder
    contradiction
  simpa [different] using isHolder

theorem unlockGoal {thread : ThreadId}
    (free : ∀ other pc, world.At other pc → pc.holdsGoal ≠ some thread) :
    Inv (world.unlockGoal task thread) := by
  have logged : Inv (world.log (.released task thread)) := by
    refine inv.event rfl (fun _ => ⟨rfl, rfl, rfl⟩) (fun _ _ isEvent => by cases isEvent)
      (fun _ _ isEvent => by cases isEvent) ?_
    intro other pc held suspended holds isEvent
    rcases Event.released.inj isEvent with ⟨-, rfl⟩
    exact free other pc suspended holds
  refine logged.setGoalControls ?_
  intro other pc held suspended holds isHolder
  have different : held ≠ thread := by
    rintro rfl
    exact free other pc suspended holds
  simpa [different] using isHolder

theorem setActivityLocks {locks : Dict PeerId TaskId}
    (keeps : ∀ task pc peer, world.At task pc → pc.holdsPeer = some peer →
      world.activityLocks.get? peer = some task → locks.get? peer = some task) :
    Inv { world with activityLocks := locks } where
  jobs := fun job => { inv.jobs job with }
  tables := { inv.tables with }
  suspended := fun task pc suspended =>
    { inv.suspended task pc suspended with
      peerLock := fun peer holds => keeps task pc peer suspended holds
        ((inv.suspended task pc suspended).peerLock peer holds) }

theorem lockPeer {peer : PeerId} (free : world.activityLocks.get? peer = none) :
    Inv (world.lockPeer task peer) := by
  refine inv.setActivityLocks ?_
  intro other pc held _ _ isHolder
  have different : held ≠ peer := by
    rintro rfl
    rw [free] at isHolder
    contradiction
  simpa [different] using isHolder

theorem unlockPeer {peer : PeerId}
    (free : ∀ other pc, world.At other pc → pc.holdsPeer ≠ some peer) :
    Inv (world.unlockPeer peer) := by
  refine inv.setActivityLocks ?_
  intro other pc held suspended holds isHolder
  have different : held ≠ peer := by
    rintro rfl
    exact free other pc suspended holds
  simpa [different] using isHolder

/-! #### Connections -/

/-- The owner of a thread changes in a way that no handoff in progress notices. -/
theorem setPeers {peers : Dict ThreadId PeerId}
    (keeps : ∀ task call await, world.At task (.handoff call await) →
      call.lease.wakeMode = .session → world.Snapshot call.lease →
      world.WhileLive call.lease.jobId (fun row => row.deliveryState ≠ .activating →
        world.peers.get? call.lease.threadId = some call.peer →
        peers.get? call.lease.threadId = some call.peer)) :
    Inv { world with peers := peers } where
  jobs := fun job => { inv.jobs job with }
  tables := { inv.tables with }
  suspended := by
    intro task pc suspended
    have before := inv.suspended task pc suspended
    refine { before with stage := ?_ }
    have stage := before.stage
    cases pc with
    | handoff call await =>
        refine ⟨stage.1, ?_, stage.2.2⟩
        intro row isRow live idle
        exact keeps task call await suspended stage.1 (before.snapshot _ rfl) row isRow live idle
          (stage.2.1 row isRow live idle)
    | _ => exact stage

theorem setPeer {thread : ThreadId} {peer : PeerId}
    (same : ∀ owner, world.peers.get? thread = some owner → owner = peer) :
    Inv (SessionBridge.setPeer world thread peer) := by
  refine inv.setPeers ?_
  intro task call await _ _ _ row _ _ _ owned
  rw [Dict.get?_set]
  split
  · rename_i isThread
    rw [← same call.peer (isThread ▸ owned)]
  · exact owned

theorem popPeer {thread : ThreadId} (revoked : world.SessionRevoked thread) :
    Inv (SessionBridge.popPeer world thread) := by
  refine inv.setPeers ?_
  intro task call await _ session snapshot row isRow live idle owned
  rcases snapshot with ⟨current, isCurrent, identity⟩
  rcases Option.some.inj (isRow.symm.trans isCurrent) with rfl
  rw [Dict.get?_pop, if_neg]
  · exact owned
  · rintro rfl
    exact idle (revoked _ row isRow (congrArg (·.2.1) identity)
      ((congrArg (·.2.2.2.2.1) identity).trans session) live)

theorem setCalls {calls : Dict (ThreadId × String) (String × PeerId)} :
    Inv (SessionBridge.setCalls world calls) where
  jobs := fun job => { inv.jobs job with }
  tables := { inv.tables with }
  suspended := fun task pc suspended => { inv.suspended task pc suspended with }

theorem setDone {event : (ThreadId × String) × Nat}
    (completed : .turnCompleted event.1.1 event.1.2 ∈ world.processTrace) :
    Inv (SessionBridge.setDone world event) where
  jobs := fun job => { inv.jobs job with }
  tables :=
    { inv.tables with
      done := by
        intro key number mem
        rcases List.mem_cons.mp mem with rfl | mem
        · exact completed
        · exact inv.tables.done key number mem }
  suspended := fun task pc suspended => { inv.suspended task pc suspended with }

/-! #### Registrations -/

theorem insertRow {store : BridgeState} (row : WakeLease) (fresh : world.row job = none)
    (isRow : store.get job = some row)
    (others : ∀ other, other ≠ job → store.get other = world.row other)
    (consistent : row.Consistent) (pending : row.deliveryState = .pending)
    (notReady : row.handoffState ≠ .ready)
    (unfinished : row.state ≠ .terminal) (unconfirmed : row.wakeMode = .goal → row.state ≠ .armed)
    (registered : ∃ task, world.PrepareReceived task job ∧
      .registered task job ∈ world.trace) : Inv { world with store := store } := by
  have unchanged {lease : WakeLease} (snapshot : world.Snapshot lease) :
      store.get lease.jobId = world.row lease.jobId := by
    rcases snapshot with ⟨current, isCurrent, -⟩
    refine others _ fun same => ?_
    rw [same, fresh] at isCurrent
    contradiction
  refine ⟨?_, { inv.tables with inFlight := ?_ }, ?_⟩
  · intro other
    by_cases same : other = job
    · subst same
      have none_before {old : WakeLease} {claim : Prop} (found : world.row other = some old) :
          claim := absurd (found.symm.trans fresh) (by simp)
      refine (inv.jobs other).change isRow rfl rfl consistent registered
        (fun _ found => none_before found) (fun _ found => none_before found) ?_ ?_
        (fun _ found => none_before found) (fun _ found => none_before found) ?_ ?_
      · intro activating
        simp [pending] at activating
      · intro goal state
        exact absurd state (by simp [unconfirmed goal, unfinished])
      · exact fun _ _ _ ready => absurd ready notReady
      · exact fun _ _ terminal => absurd terminal unfinished
    · exact (inv.jobs other).congr (others other same) rfl rfl
  · intro calm other current isCurrent session live activating
    by_cases same : other = job
    · subst same
      rcases Option.some.inj (isRow.symm.trans isCurrent) with rfl
      simp [pending] at activating
    · exact inv.tables.inFlight calm other current
        ((others other same).symm.trans isCurrent) session live activating
  · intro task pc suspended
    have before := inv.suspended task pc suspended
    have live_before {lease : WakeLease} (snapshot : world.Snapshot lease)
        (live : ({ world with store := store } : World).Live lease.jobId) :
        world.Live lease.jobId := by
      rcases live with ⟨current, isCurrent, live⟩
      exact ⟨current, (unchanged snapshot).symm.trans isCurrent, live⟩
    have delivered {other : JobId} (delivers : pc.delivers = some other) :
        ∃ lease, pc.lease? = some lease ∧ lease.jobId = other := by
      cases pc <;> simp_all [Pc.delivers, Pc.lease?]
    have while_before {lease : WakeLease} {property : WakeLease → Prop}
        (snapshot : world.Snapshot lease)
        (holds : world.WhileLive lease.jobId property) :
        ({ world with store := store } : World).WhileLive lease.jobId property :=
      fun current isCurrent => holds current ((unchanged snapshot).symm.trans isCurrent)
    have unstarted {lease : WakeLease} (snapshot : world.Snapshot lease)
        (unstarted : world.Unstarted lease) :
        ({ world with store := store } : World).Unstarted lease :=
      fun session calm => while_before snapshot (unstarted session calm)
    refine
      { before with
        snapshot := ?_
        unique := ?_
        cancelled := ?_
        stage := ?_ }
    · intro lease isCopy
      rcases before.snapshot lease isCopy with ⟨current, isCurrent, identity⟩
      exact ⟨current, (unchanged ⟨current, isCurrent, identity⟩).trans isCurrent, identity⟩
    · intro other delivers live
      rcases delivered delivers with ⟨lease, isCopy, rfl⟩
      exact before.unique _ delivers (live_before (before.snapshot lease isCopy) live)
    · intro undisturbed mem other delivers live
      rcases delivered delivers with ⟨lease, isCopy, rfl⟩
      exact before.cancelled undisturbed mem _ delivers
        (live_before (before.snapshot lease isCopy) live)
    · have stage := before.stage
      cases pc with
      | handoff call await =>
          have snapshot := before.snapshot _ rfl
          refine ⟨stage.1, while_before snapshot stage.2.1, ?_⟩
          have stage := stage.2.2
          cases await with
          | lock => trivial
          | checkGoal | latestTurn | interrupt | turnDone => exact while_before snapshot stage
          | confirm | inject => exact ⟨while_before snapshot stage.1, stage.2⟩
      | deliver lease await =>
          have snapshot := before.snapshot _ rfl
          refine ⟨fun current isCurrent =>
            stage.1 current ((unchanged snapshot).symm.trans isCurrent), stage.2.1,
            fun start => unstarted snapshot (stage.2.2.1 start), ?_⟩
          have stage := stage.2.2.2
          cases await with
          | setActive =>
              rcases stage with ⟨current, isCurrent, active⟩
              exact ⟨current, (unchanged snapshot).trans isCurrent, active⟩
          | _ => exact stage
      | wake lease peer await =>
          have snapshot := before.snapshot _ rfl
          refine ⟨fun current isCurrent =>
            stage.1 current ((unchanged snapshot).symm.trans isCurrent), stage.2.1, ?_⟩
          have stage := stage.2.2
          cases await with
          | lock => exact unstarted snapshot stage
          | checkGoal _ | latestTurn _ =>
              exact ⟨unstarted snapshot stage.1, while_before snapshot stage.2⟩
          | turnStart _ => exact stage
      | _ => exact stage

theorem registered (running : world.IsRunning task) :
    Inv (world.log (.registered task job)) := by
  refine inv.event rfl (fun _ => ⟨rfl, rfl, rfl⟩) (fun _ _ isEvent => by cases isEvent) ?_
    (fun _ _ _ _ _ isEvent => by cases isEvent)
  rintro other otherJob isEvent
  rcases Event.registered.inj isEvent with ⟨rfl, rfl⟩
  exact running

theorem register {store : BridgeState} {lease : WakeLease} {new : NewLease}
    (running : world.IsRunning task) (received : world.PrepareReceived task new.jobId)
    (fresh : world.row new.jobId = none)
    (created : world.store.createLease new = .ok (store, lease)) (goal : new.wakeMode = .goal) :
    Inv (({ world with store := store } : World).log (.registered task new.jobId)) := by
  have rows := BridgeState.get_createLease fresh created
  refine (inv.registered running).insertRow new.row fresh ?_ ?_ ?_ rfl ?_ ?_ ?_
    ⟨task, received.log _, List.mem_cons_self⟩
  · rw [rows, if_pos rfl]
  · exact fun other different => by rw [rows, if_neg different]; rfl
  · constructor <;> simp [NewLease.row, goal]
  · simp [NewLease.row, goal]
  · simp [NewLease.row]
  · simp [NewLease.row]

theorem registerSession {store : BridgeState} {lease : WakeLease} {new : NewLease}
    (running : world.IsRunning task) (received : world.PrepareReceived task new.jobId)
    (fresh : world.row new.jobId = none)
    (created : world.store.createLease new = .ok (store, lease))
    (session : new.wakeMode = .session) (hasTurn : new.turnId.isSome = true)
    (hasCall : new.callId.isSome = true) :
    Inv ((({ world with store := store } : World).log (.registered task new.jobId)).update
      new.jobId { state := some .armed }) := by
  have rows := BridgeState.get_createLease fresh created
  have found : (({ world with store := store } : World).log (.registered task new.jobId)).row
      new.jobId = some new.row := (rows new.jobId).trans (if_pos rfl)
  have later : new.row.Later (LeaseUpdate.apply { state := some .armed } new.row) :=
    ⟨rfl, Nat.zero_le _⟩
  refine (inv.registered running).insertRow _ fresh (World.row_update_self found later) ?_ ?_ rfl
    ?_ ?_ ?_ ⟨task, received.log _, List.mem_cons_self⟩
  · intro other different
    refine (World.row_update found later other).trans ?_
    rw [if_neg different]
    exact (rows other).trans (if_neg different)
  · constructor <;> simp [LeaseUpdate.apply, NewLease.row, session, hasTurn, hasCall,
      WakeLease.isLive, LeaseState.isLive]
  · simp [LeaseUpdate.apply, NewLease.row, session]
  · simp [LeaseUpdate.apply]
  · simp [NewLease.row, session]

/-! #### Requests that are committed before they are sent -/

theorem updateAndSend {row : WakeLease} {fields : LeaseUpdate} {via : Channel} {rpc : Rpc}
    (found : world.row job = some row) (evolves : Evolves world row (fields.apply row))
    (inFlight : (fields.apply row).wakeMode = .session → (fields.apply row).isLive = true →
      (fields.apply row).deliveryState = .activating → world.Calm →
      ∃ task, world.deliveryTasks.get? job = some task ∧ world.isDone task = false)
    (jobInv : JobInv ((world.update job fields).log (.sent task job via rpc)) job) :
    Inv ((world.update job fields).log (.sent task job via rpc)) where
  jobs := by
    intro other
    by_cases same : other = job
    · exact same ▸ jobInv
    · refine ((inv.jobs other).congr ?_ rfl rfl : JobInv (world.update job fields) other).log _
        (fun _ => rfl) ?_
      · rw [World.row_update found evolves.later, if_neg same]
      · simp [Event.Repeatable, Event.sends, Ne.symm same]
  tables :=
    { inv.tables with
      cancelling := fun undisturbed => inv.tables.cancelling
        (World.Undisturbed.of_log undisturbed)
      received := by simpa using inv.tables.received
      registered := by simpa using inv.tables.registered
      inFlight := by
        intro calm other after isRow session live activating
        rcases World.row_before_update found evolves.later isRow with ⟨rfl, rfl⟩ | ⟨-, before⟩
        · exact inFlight session live activating (World.Calm.of_log calm)
        · exact inv.tables.inFlight (World.Calm.of_log calm) other after before session live
            activating
      done := by
        intro key done mem
        rw [World.processTrace_log rfl]
        exact List.mem_cons_of_mem _ (inv.tables.done key done mem) }
  suspended := fun task pc suspended =>
    ((inv.suspended task pc suspended).update found evolves suspended).log rfl
      (fun _ _ isEvent => by cases isEvent) (fun _ isEvent => by cases isEvent)

theorem activateGoal {row : WakeLease} {lease : WakeLease}
    (found : world.row lease.jobId = some row) (goal : row.wakeMode = .goal)
    (terminal : row.state = .terminal) (waiting : row.deliveryState = .waitingForIdle) :
    Inv ((world.update lease.jobId { deliveryState := some .activating }).log
      (.sent task lease.jobId .app (.goalSet lease.threadId "active"))) := by
  have jobInv := inv.jobs lease.jobId
  have consistent := inv.row_consistent found
  have live := WakeLease.isLive_of_terminal terminal
  have later : row.Later (LeaseUpdate.apply { deliveryState := some .activating } row) :=
    ⟨rfl, le_refl _⟩
  have only {current : WakeLease} (isRow : world.row lease.jobId = some current) :
      row = current := Option.some.inj (found.symm.trans isRow)
  have isRow := World.row_update_self found later
  have unsent : world.trace.countP (·.sends lease.jobId Rpc.isActivation) = 0 := by
    by_contra sent
    rcases jobInv.activated (Nat.pos_of_ne_zero sent) with ⟨current, isCurrent, -, active⟩
    rcases only isCurrent with rfl
    simp [waiting, live] at active
  refine inv.updateAndSend found ?_ ?_ ?_
  · exact
      { later := later
        terminal := fun _ _ => terminal
        ready := fun ready => ready
        transferred := fun _ => rfl
        activating := fun _ _ => rfl
        started := fun session => by simp [goal] at session
        delivered := fun _ _ _ _ => live }
  · simp [goal]
  · have after {current : WakeLease}
        (isCurrent : ((world.update lease.jobId { deliveryState := some .activating }).log
          (.sent task lease.jobId .app (.goalSet lease.threadId "active"))).row lease.jobId =
            some current) :
        current = LeaseUpdate.apply { deliveryState := some .activating } row :=
      Option.some.inj (isCurrent.symm.trans isRow)
    refine
      { consistent := fun current isCurrent => ?_
        registered := fun _ _ => ?_
        activatedOnce := ?_
        activated := fun _ => ⟨_, isRow, goal, .inl rfl⟩
        activating := fun _ _ _ _ => ?_
        confirmed := fun current isCurrent _ state => ?_
        interruptedOnce := by simpa [Rpc.isInterrupt] using jobInv.interruptedOnce
        interrupted := fun sent => ?_
        startedOnce := fun undisturbed => ?_
        started := fun sent => ?_
        starting := fun current isCurrent session => ?_
        ready := fun _ current isCurrent session => ?_
        recorded := fun _ current isCurrent session => ?_ }
    · rcases after isCurrent with rfl
      constructor <;> simp [LeaseUpdate.apply, terminal, goal, consistent.goal goal,
        consistent.terminated terminal]
    · rcases jobInv.registered row found with ⟨registrar, received, registered⟩
      exact ⟨registrar, received.log _, List.mem_cons_of_mem _ registered⟩
    · simp [Rpc.isActivation, unsent]
    · simp [Rpc.isActivation]
    · rcases after isCurrent with rfl
      exact ((jobInv.confirmed row found goal (.inr terminal)).congr rfl rfl).cons _
    · obtain ⟨current, isCurrent, session, -⟩ :=
        jobInv.interrupted (by simpa [Rpc.isInterrupt] using sent)
      simp [← only isCurrent, goal] at session
    · simpa [Rpc.isTurnStart] using
        jobInv.startedOnce (World.Undisturbed.of_log undisturbed)
    · obtain ⟨current, isCurrent, session, -⟩ :=
        jobInv.started (by simpa [Rpc.isTurnStart] using sent)
      simp [← only isCurrent, goal] at session
    all_goals
      rcases after isCurrent with rfl
      simp [goal] at session

theorem interrupt {row : WakeLease} {peer : PeerId} {jobState : String}
    (found : world.row row.jobId = some row) (session : row.wakeMode = .session)
    (live : row.isLive = true) (pending : row.handoffState = .pending)
    (untransferred : world.Untransferred row.jobId) :
    Inv ((world.update row.jobId
      { handoffState := some .interrupting, receiptState := some jobState }).log
      (.sent task row.jobId (.peer peer) (.turnInterrupt row.threadId row.turnId))) := by
  have jobInv := inv.jobs row.jobId
  have consistent := inv.row_consistent found
  let fields : LeaseUpdate :=
    { handoffState := some .interrupting, receiptState := some jobState }
  have later : row.Later (fields.apply row) := ⟨rfl, le_refl _⟩
  have only {current : WakeLease} (isRow : world.row row.jobId = some current) :
      row = current := Option.some.inj (found.symm.trans isRow)
  have isRow := World.row_update_self found later
  have idle : row.deliveryState ≠ .activating := by
    intro activating
    simp [consistent.activatingReady session live activating] at pending
  have unsent : world.trace.countP (·.sends row.jobId Rpc.isInterrupt) = 0 := by
    by_contra sent
    rcases jobInv.interrupted (Nat.pos_of_ne_zero sent) with ⟨current, isCurrent, -, attempted⟩
    rcases only isCurrent with rfl
    exact attempted pending
  refine inv.updateAndSend found ?_ ?_ ?_
  · exact
      { later := later
        terminal := fun terminal _ => terminal
        ready := fun ready => by simp [pending] at ready
        transferred := fun transferred => absurd untransferred transferred
        activating := fun activating _ => activating
        started := fun _ activating _ => activating
        delivered := fun goal => by simp [session] at goal }
  · exact fun _ _ activating => absurd activating idle
  · have after {current : WakeLease}
        (isCurrent : ((world.update row.jobId fields).log
          (.sent task row.jobId (.peer peer) (.turnInterrupt row.threadId row.turnId))).row
            row.jobId = some current) : current = fields.apply row :=
      Option.some.inj (isCurrent.symm.trans isRow)
    refine
      { consistent := fun current isCurrent => ?_
        registered := fun _ _ => ?_
        activatedOnce := by simpa [Rpc.isActivation] using jobInv.activatedOnce
        activated := fun sent => ?_
        activating := fun current isCurrent goal => ?_
        confirmed := fun current isCurrent goal => ?_
        interruptedOnce := ?_
        interrupted := fun _ => ⟨_, isRow, session, by simp [fields, LeaseUpdate.apply]⟩
        startedOnce := fun undisturbed => ?_
        started := fun sent => ?_
        starting := fun current isCurrent _ activating => ?_
        ready := fun _ current isCurrent _ _ ready => ?_
        recorded := fun serving current isCurrent _ terminal => ?_ }
    · rcases after isCurrent with rfl
      refine ⟨consistent.preparing, consistent.armed, consistent.terminal, consistent.terminated,
        consistent.delivered, consistent.failed, consistent.abandoned, ?_, ?_, ?_⟩
      · simp [session]
      · simp [fields, LeaseUpdate.apply, consistent.session session]
      · exact fun _ _ activating => absurd activating idle
    · rcases jobInv.registered row found with ⟨registrar, received, registered⟩
      exact ⟨registrar, received.log _, List.mem_cons_of_mem _ registered⟩
    · obtain ⟨current, isCurrent, goal, -⟩ :=
        jobInv.activated (by simpa [Rpc.isActivation] using sent)
      simp [← only isCurrent, session] at goal
    · rcases after isCurrent with rfl
      simp [session] at goal
    · rcases after isCurrent with rfl
      simp [session] at goal
    · simp [Rpc.isInterrupt, unsent]
    · simpa [Rpc.isTurnStart] using
        jobInv.startedOnce (World.Undisturbed.of_log undisturbed)
    · obtain ⟨current, isCurrent, -, delivery⟩ :=
        jobInv.started (by simpa [Rpc.isTurnStart] using sent)
      rcases only isCurrent with rfl
      exact ⟨_, isRow, session, delivery⟩
    · rcases after isCurrent with rfl
      exact absurd activating idle
    · rcases after isCurrent with rfl
      simp [fields, LeaseUpdate.apply] at ready
    · rcases after isCurrent with rfl
      rw [World.processTrace_log rfl]
      exact List.mem_cons_of_mem _ (jobInv.recorded serving row found session terminal)

theorem activateSession {row : WakeLease} {peer : PeerId} {text : String}
    (found : world.row row.jobId = some row) (session : row.wakeMode = .session)
    (terminal : row.state = .terminal) (ready : row.handoffState = .ready)
    (serving : world.phase = .serving)
    (idle : world.Undisturbed → row.deliveryState ≠ .activating)
    (undelivered : world.Undelivered row.jobId)
    (inTable : world.Undisturbed →
      ∃ task, world.deliveryTasks.get? row.jobId = some task ∧ world.isDone task = false) :
    Inv ((world.update row.jobId { deliveryState := some .activating }).log
      (.sent task row.jobId (.peer peer) (.turnStart row.threadId text))) := by
  have jobInv := inv.jobs row.jobId
  have consistent := inv.row_consistent found
  have live := WakeLease.isLive_of_terminal terminal
  have later : row.Later (LeaseUpdate.apply { deliveryState := some .activating } row) :=
    ⟨rfl, le_refl _⟩
  have only {current : WakeLease} (isRow : world.row row.jobId = some current) :
      row = current := Option.some.inj (found.symm.trans isRow)
  have isRow := World.row_update_self found later
  have unsent (undisturbed : world.Undisturbed) :
      world.trace.countP (·.sends row.jobId Rpc.isTurnStart) = 0 := by
    by_contra sent
    rcases jobInv.started (Nat.pos_of_ne_zero sent) with ⟨current, isCurrent, -, delivery⟩
    rcases only isCurrent with rfl
    have undecided := consistent.not_isFinal live
    rcases delivery with delivery | delivery | delivery
    · exact idle undisturbed delivery
    · simp [delivery, DeliveryState.isFinal] at undecided
    · simp [delivery, DeliveryState.isFinal] at undecided
  refine inv.updateAndSend found ?_ ?_ ?_
  · exact
      { later := later
        terminal := fun _ _ => terminal
        ready := fun ready => ready
        transferred := fun _ => rfl
        activating := fun _ _ => rfl
        started := fun _ _ delivered => absurd undelivered delivered
        delivered := fun goal => by simp [session] at goal }
  · exact fun _ _ _ calm => inTable calm.2
  · have after {current : WakeLease}
        (isCurrent : ((world.update row.jobId { deliveryState := some .activating }).log
          (.sent task row.jobId (.peer peer) (.turnStart row.threadId text))).row row.jobId =
            some current) :
        current = LeaseUpdate.apply { deliveryState := some .activating } row :=
      Option.some.inj (isCurrent.symm.trans isRow)
    refine
      { consistent := fun current isCurrent => ?_
        registered := fun _ _ => ?_
        activatedOnce := by simpa [Rpc.isActivation] using jobInv.activatedOnce
        activated := fun sent => ?_
        activating := fun current isCurrent goal => ?_
        confirmed := fun current isCurrent goal => ?_
        interruptedOnce := by simpa [Rpc.isInterrupt] using jobInv.interruptedOnce
        interrupted := fun sent => ?_
        startedOnce := fun undisturbed => ?_
        started := fun _ => ⟨_, isRow, session, .inl rfl⟩
        starting := fun _ _ _ _ => by simp [Rpc.isTurnStart]
        ready := fun _ current isCurrent _ _ _ => ?_
        recorded := fun _ current isCurrent _ _ => ?_ }
    · rcases after isCurrent with rfl
      constructor <;> simp [LeaseUpdate.apply, terminal, session, ready,
        consistent.session session, consistent.terminated terminal]
    · rcases jobInv.registered row found with ⟨registrar, received, registered⟩
      exact ⟨registrar, received.log _, List.mem_cons_of_mem _ registered⟩
    · obtain ⟨current, isCurrent, goal, -⟩ :=
        jobInv.activated (by simpa [Rpc.isActivation] using sent)
      simp [← only isCurrent, session] at goal
    · rcases after isCurrent with rfl
      simp [session] at goal
    · rcases after isCurrent with rfl
      simp [session] at goal
    · obtain ⟨current, isCurrent, -, attempted⟩ :=
        jobInv.interrupted (by simpa [Rpc.isInterrupt] using sent)
      rcases only isCurrent with rfl
      exact ⟨_, isRow, session, attempted⟩
    · simp [Rpc.isTurnStart, unsent (World.Undisturbed.of_log undisturbed)]
    · rcases after isCurrent with rfl
      rw [World.processTrace_log rfl]
      exact (jobInv.ready serving row found session live ready).cons _
    · rcases after isCurrent with rfl
      rw [World.processTrace_log rfl]
      exact List.mem_cons_of_mem _ (jobInv.recorded serving row found session terminal)

theorem internal {clock : Int} {threadEvents : Dict ThreadId ThreadEvent}
    {expectedGoalStatus : Dict ThreadId (String × Option Int)}
    {pauseNotifications : Dict ThreadId (List Json)} {leasePeers : Dict JobId PeerId}
    {ambiguousThreads : Dict ThreadId Unit} {turnDone : Dict (ThreadId × String) Nat}
    {nextEvent : Nat} :
    Inv { world with
      clock := clock, threadEvents := threadEvents
      expectedGoalStatus := expectedGoalStatus, pauseNotifications := pauseNotifications
      leasePeers := leasePeers, ambiguousThreads := ambiguousThreads
      turnDone := turnDone, nextEvent := nextEvent } where
  jobs := fun job => { inv.jobs job with }
  tables := { inv.tables with }
  suspended := fun task pc suspended => { inv.suspended task pc suspended with }

theorem move {after : World} (move : Move origin world after) : Inv after := by
  cases move with
  | internal => exact inv.internal
  | log event loggable => exact inv.log loggable
  | setPause thread buffer _ => exact inv.internal
  | popPause thread _ => exact inv.internal
  | run task pc input _ suspended =>
      exact inv.setTask suspended.lt_length (fun _ isStatus => by cases isStatus)
        (fun isStatus => by cases isStatus)
  | suspend task pc running relies entry =>
      refine inv.setTask running.lt_length ?_ (fun isStatus => by cases isStatus)
      intro other isStatus
      exact TaskStatus.suspended.inj isStatus ▸ relies
  | finish task running ends =>
      exact inv.setTask running.lt_length (fun _ isStatus => by cases isStatus) (fun _ => ends)
  | cancel tasks allowed => exact inv.cancel allowed
  | update job fields found legal => exact inv.update found legal
  | register task new running received fresh created goal =>
      exact inv.register running received fresh created goal
  | registerSession task new running received fresh created session hasTurn hasCall =>
      exact inv.registerSession running received fresh created session hasTurn hasCall
  | spawnDelivery lease found identity beyond free =>
      exact inv.spawnDelivery found identity beyond free
  | spawnDeadline lease snapshot => exact inv.spawnDeadline snapshot
  | popDelivery job undelivered idle => exact inv.popDelivery undelivered idle
  | popDeadline job => exact inv.popDeadline
  | lockGoal task thread free => exact inv.lockGoal free
  | unlockGoal task thread free => exact inv.unlockGoal free
  | lockPeer task peer free => exact inv.lockPeer free
  | unlockPeer peer free => exact inv.unlockPeer free
  | setPeer thread peer same => exact inv.setPeer same
  | popPeer thread revoked => exact inv.popPeer revoked
  | setCalls calls known => exact inv.setCalls
  | setDone event completed => exact inv.setDone completed
  | activateGoal task lease found goal terminal waiting _ =>
      exact inv.activateGoal found goal terminal waiting
  | interrupt task peer jobState found session live pending untransferred =>
      exact inv.interrupt found session live pending untransferred
  | activateSession task peer text found session terminal ready serving idle undelivered inTable =>
      exact inv.activateSession found session terminal ready serving idle undelivered inTable

/-- The invariant rule for a step. -/
theorem moves {after : World} (moves : Moves origin world after) : Inv after := by
  induction moves with
  | refl => exact inv
  | tail _ move ih => exact ih.move move

end Inv

end Longrun.Bridge
