import Longrun.Bridge.Preservation

/-!
# Running coroutines

The moves that every coroutine makes: it goes on after an await, takes and releases locks, starts
and cancels other tasks, revokes leases, and stops at its next await or for good.
-/

namespace Longrun.Bridge

variable {origin : Option Origin} {world after : World} {task : TaskId} {pc : Pc} {job : JobId}

/-- A coroutine that has stopped is suspended or has ended. -/
def World.stop (task : TaskId) (stopped : World × Outcome) : World :=
  stopped.1.settle task stopped.2

/-- The outcome ends the coroutine. -/
def Outcome.Ends : Outcome → Prop
  | .await _ => False
  | _ => True

theorem answer_ends (fields : List (String × Json)) : (answer fields).Ends := trivial

theorem raise_ends (error : PyError) : (raise error).Ends := trivial

/-! ### The running task -/

/-- A running task that delivers no job. -/
structure Handling (world : World) (task : TaskId) : Prop where
  inv : Inv world
  running : world.IsRunning task
  unlisted : ∀ job, world.deliveryTasks.get? job ≠ some task

/-- The running task that delivers a job. -/
structure Delivering (world : World) (task : TaskId) (job : JobId) : Prop where
  inv : Inv world
  running : world.IsRunning task
  alone : ∀ other pc, world.At other pc → pc.delivers = some job → ¬world.Live job
  listed : ∀ other, world.deliveryTasks.get? other = some task → other = job

namespace Handling

theorem next (handling : Handling world task) (moves : Moves origin world after)
    (tasks : after.tasks = world.tasks) (table : after.deliveryTasks = world.deliveryTasks) :
    Handling after task where
  inv := handling.inv.moves moves
  running := by rw [World.IsRunning, tasks]; exact handling.running
  unlisted := by rw [table]; exact handling.unlisted

theorem ends (handling : Handling world task) {outcome : Outcome} (ends : outcome.Ends) :
    Moves origin world (world.settle task outcome) := by
  have finished : Moves origin world (world.setTask task .finished) :=
    .single (.finish task handling.running fun _ job _ isTask =>
      absurd isTask (handling.unlisted job))
  cases outcome with
  | await => exact ends.elim
  | done => exact finished.tail (.log _ trivial)
  | fail => exact finished.tail (.log _ trivial)

end Handling

namespace Delivering

theorem next (delivering : Delivering world task job) (moves : Moves origin world after)
    (tasks : after.tasks = world.tasks) (table : after.deliveryTasks = world.deliveryTasks)
    (live : after.Live job → world.Live job) : Delivering after task job where
  inv := delivering.inv.moves moves
  running := by rw [World.IsRunning, tasks]; exact delivering.running
  alone := by
    intro other pc suspended delivers isLive
    rw [World.At, tasks] at suspended
    exact delivering.alone other pc suspended delivers (live isLive)
  listed := by rw [table]; exact delivering.listed

/-- While the lease is live, no suspended task delivers it. -/
theorem undelivered (delivering : Delivering world task job) (live : world.Live job) :
    world.Undelivered job :=
  fun other pc suspended delivers => delivering.alone other pc suspended delivers live

/-- The `finally` clause takes the task out of the table. -/
theorem ends (delivering : Delivering world task job) {outcome : Outcome} (ends : outcome.Ends)
    (idle : world.Calm → world.WhileLive job fun row => row.wakeMode = .session →
      row.deliveryState ≠ .activating) :
    Moves origin world ((world.popDelivery job).settle task outcome) := by
  have popped : Moves origin world (world.popDelivery job) :=
    .single (.popDelivery job delivering.alone idle)
  refine popped.trans (Handling.ends ?_ ends)
  refine ⟨delivering.inv.moves popped, delivering.running, ?_⟩
  intro other isTask
  rw [World.popDelivery_deliveryTasks, Dict.get?_pop] at isTask
  split at isTask
  · contradiction
  · rename_i different
    exact different (delivering.listed other isTask)

end Delivering

/-! ### Going on after an await -/

/-- The world in which a coroutine goes on. -/
def World.goOn (world : World) (task : TaskId) (pc : Pc) (input : Input) : World :=
  (world.logReply task pc input).setTask task .running

/-- The answer to a request is logged; nothing else ends an await with an event. -/
theorem World.logReply_cases (world : World) (task : TaskId) (pc : Pc) (input : Input) :
    world.logReply task pc input = world ∨ ∃ job via rpc result,
      world.logReply task pc input = world.log (.replied task job via rpc result) := by
  unfold World.logReply
  split
  · exact .inr ⟨_, _, _, _, rfl⟩
  · exact .inl rfl

section GoOn

variable (world : World) (task : TaskId) (pc : Pc) (input : Input)

/-- Going on changes the status of the task and the trace only. -/
theorem World.goOn_eq : world.goOn task pc input =
    { world with
      tasks := world.tasks.set task .running
      trace := (world.goOn task pc input).trace } := by
  rcases world.logReply_cases task pc input with same | ⟨_, _, _, _, logged⟩
  · simp [goOn, same, setTask]
  · simp [goOn, logged, setTask, log]

@[simp]
theorem World.goOn_row (job : JobId) : (world.goOn task pc input).row job = world.row job := by
  rw [goOn_eq]

@[simp]
theorem World.goOn_calls : (world.goOn task pc input).calls = world.calls := by
  rw [goOn_eq]

@[simp]
theorem World.goOn_pauseNotifications :
    (world.goOn task pc input).pauseNotifications = world.pauseNotifications := by
  rw [goOn_eq]

end GoOn

/-- The other tasks are where they were. -/
theorem World.at_goOn {input : Input} {other : TaskId} {otherPc : Pc}
    (suspended : (world.goOn task pc input).At other otherPc) :
    other ≠ task ∧ world.At other otherPc := by
  rcases World.at_setTask suspended with ⟨-, running⟩ | ⟨different, suspended⟩
  · contradiction
  · refine ⟨different, ?_⟩
    rcases world.logReply_cases task pc input with same | ⟨_, _, _, _, logged⟩
    · rw [same] at suspended
      exact suspended
    · rw [logged] at suspended
      exact suspended

theorem World.goOn_trace {via : Channel} {rpc : Rpc}
    (awaits : pc.awaits = some (job, via, rpc)) (result : Except PyError Json) :
    (world.goOn task pc (.reply result)).trace =
      .replied task job via rpc result :: world.trace := by
  simp [World.goOn, World.logReply, awaits]

/-- A coroutine that has just gone on after an await. -/
structure Resumed (world : World) (task : TaskId) (pc : Pc) (input : Input) : Prop where
  inv : Inv world
  suspended : world.At task pc

namespace Resumed

variable {input : Input} (resumed : Resumed world task pc input)

include resumed

theorem before : Suspended world task pc := resumed.inv.suspended task pc resumed.suspended

theorem moves : Moves (some ⟨task, pc, input⟩) world (world.goOn task pc input) := by
  have ran (other : World) (suspended : other.At task pc) :
      Moves (some ⟨task, pc, input⟩) other (other.setTask task .running) :=
    .single (.run task pc input rfl suspended)
  rw [World.goOn]
  rcases world.logReply_cases task pc input with same | ⟨_, _, _, _, logged⟩
  · rw [same]
    exact ran world resumed.suspended
  · rw [logged]
    exact (Relation.ReflTransGen.single (.log _ trivial)).trans (ran _ resumed.suspended)

theorem next_inv : Inv (world.goOn task pc input) :=
  resumed.inv.moves resumed.moves

theorem running : (world.goOn task pc input).IsRunning task := by
  have inside := resumed.suspended.lt_length
  simp only [World.goOn, World.IsRunning, World.setTask_tasks]
  rcases world.logReply_cases task pc input with same | ⟨_, _, _, _, logged⟩
  · simp [same, inside]
  · simp [logged, inside]

theorem now : Suspended (world.goOn task pc input) task pc := by
  rw [World.goOn]
  rcases world.logReply_cases task pc input with same | ⟨job, via, rpc, result, logged⟩
  · rw [same]
    exact { resumed.before with }
  · rw [logged]
    have relies : Suspended (world.log (.replied task job via rpc result)) task pc :=
      resumed.before.log rfl
      (fun _ _ isEvent => by cases isEvent) (fun _ isEvent => by cases isEvent)
    exact { relies with }

theorem handling (delivers : pc.delivers = none) :
    Handling (world.goOn task pc input) task where
  inv := resumed.next_inv
  running := resumed.running
  unlisted := by
    intro job isTask
    rw [resumed.now.deliveryTable job isTask] at delivers
    contradiction

theorem delivering (delivers : pc.delivers = some job) :
    Delivering (world.goOn task pc input) task job where
  inv := resumed.next_inv
  running := resumed.running
  alone := by
    intro other otherPc suspended otherDelivers live
    have mine := resumed.now.unique job delivers live
    have theirs := (resumed.next_inv.suspended other otherPc suspended).unique job otherDelivers live
    exact (World.at_goOn suspended).1 (Option.some.inj (theirs.symm.trans mine))
  listed := fun other isTask =>
    Option.some.inj ((resumed.now.deliveryTable other isTask).symm.trans delivers)

/-- A lock that the coroutine held across the await is held by no suspended task. -/
theorem peer_free {peer : PeerId} (holds : pc.holdsPeer = some peer) :
    ∀ other otherPc, (world.goOn task pc input).At other otherPc →
      otherPc.holdsPeer ≠ some peer := by
  intro other otherPc suspended otherHolds
  have mine := resumed.now.peerLock peer holds
  have theirs := (resumed.next_inv.suspended other otherPc suspended).peerLock peer otherHolds
  exact (World.at_goOn suspended).1 (Option.some.inj (theirs.symm.trans mine))

theorem goal_free {thread : ThreadId} (holds : pc.holdsGoal = some thread) :
    ∀ other otherPc, (world.goOn task pc input).At other otherPc →
      otherPc.holdsGoal ≠ some thread := by
  intro other otherPc suspended otherHolds
  have mine := resumed.now.goalLock thread holds
  have theirs := (resumed.next_inv.suspended other otherPc suspended).goalLock thread otherHolds
  exact (World.at_goOn suspended).1 (Option.some.inj (theirs.symm.trans mine))

end Resumed

/-! ### Stopping at an await -/

/-- The requests that may be sent again and again. -/
def Rpc.isRead : Rpc → Bool
  | .goalGet _ | .threadRead _ | .turnsList _ => true
  | _ => false

theorem loggable_read {via : Channel} {rpc : Rpc} (read : rpc.isRead = true) :
    Loggable origin world (.sent task job via rpc) := by
  cases rpc <;> simp_all [Rpc.isRead, Loggable, Rpc.isActivation, Rpc.isInterrupt,
    Rpc.isTurnStart, Rpc.isPause, Rpc.isReceipt]

theorem settle_silent (pc : Pc) (running : world.IsRunning task) (relies : Suspended world task pc)
    (entry : Entry origin world task pc) (silent : pc.awaits = none) :
    Moves origin world (world.settle task (.await pc)) := by
  rw [World.settle, World.issue, silent]
  exact .single (.suspend task pc running relies entry)

theorem settle_request (pc : Pc) {via : Channel} {rpc : Rpc} (running : world.IsRunning task)
    (relies : Suspended world task pc) (entry : Entry origin world task pc)
    (awaits : pc.awaits = some (job, via, rpc))
    (loggable : Loggable origin world (.sent task job via rpc)) :
    Moves origin world (world.settle task (.await pc)) := by
  rw [World.settle, World.issue, awaits]
  refine (Relation.ReflTransGen.single (.log _ loggable)).tail
    (.suspend task pc running ?_ ?_)
  · exact relies.log rfl (fun _ _ isEvent => by cases isEvent) (fun _ isEvent => by cases isEvent)
  · cases pc <;> exact entry

theorem settle_read (pc : Pc) {via : Channel} {rpc : Rpc} (running : world.IsRunning task)
    (relies : Suspended world task pc) (entry : Entry origin world task pc)
    (awaits : pc.awaits = some (job, via, rpc)) (read : rpc.isRead = true) :
    Moves origin world (world.settle task (.await pc)) :=
  settle_request pc running relies entry awaits (loggable_read read)

/-! ### Other tasks -/

namespace World

theorem IsRunning.spawn (running : world.IsRunning task) (status : TaskStatus) :
    (world.spawn status).IsRunning task := by
  rw [IsRunning, spawn_tasks, List.getElem?_append_left running.lt_length]
  exact running

/-- A delivery is scheduled for a lease that has passed the armed state. -/
theorem scheduleDelivery_cases (world : World) (lease : WakeLease) :
    world.scheduleDelivery lease = world ∨
      (world.scheduleDelivery lease = world.spawnDelivery lease ∧
        ∀ task, world.deliveryTasks.get? lease.jobId = some task → world.isDone task = true) := by
  unfold scheduleDelivery
  split
  · rename_i existing found
    split
    · rename_i done
      refine .inr ⟨rfl, fun task isTask => ?_⟩
      rw [← Option.some.inj (found.symm.trans isTask), done]
    · exact .inl rfl
  · rename_i found
    exact .inr ⟨rfl, fun task isTask => absurd (found.symm.trans isTask) (by simp)⟩

theorem scheduleDeadline_cases (world : World) (lease : WakeLease) :
    world.scheduleDeadline lease = world ∨
      world.scheduleDeadline lease = world.spawnDeadline lease := by
  unfold scheduleDeadline
  split
  · split
    · exact .inr rfl
    · exact .inl rfl
  · exact .inr rfl

@[simp]
theorem scheduleDelivery_row (world : World) (lease : WakeLease) (job : JobId) :
    (world.scheduleDelivery lease).row job = world.row job := by
  rcases world.scheduleDelivery_cases lease with same | ⟨spawned, -⟩
  · rw [same]
  · rw [spawned]
    rfl

@[simp]
theorem scheduleDeadline_row (world : World) (lease : WakeLease) (job : JobId) :
    (world.scheduleDeadline lease).row job = world.row job := by
  rcases world.scheduleDeadline_cases lease with same | spawned
  · rw [same]
  · rw [spawned]
    rfl

end World

theorem scheduleDelivery_moves {row lease : WakeLease} (found : world.row lease.jobId = some row)
    (identity : row.identity = lease.identity) (beyond : 2 ≤ row.state.rank) :
    Moves origin world (world.scheduleDelivery lease) := by
  rcases world.scheduleDelivery_cases lease with same | ⟨spawned, free⟩
  · rw [same]
  · rw [spawned]
    exact .single (.spawnDelivery lease found identity beyond free)

theorem scheduleDeadline_moves {lease : WakeLease} (snapshot : world.Snapshot lease) :
    Moves origin world (world.scheduleDeadline lease) := by
  rcases world.scheduleDeadline_cases lease with same | spawned
  · rw [same]
  · rw [spawned]
    exact .single (.spawnDeadline lease snapshot)

namespace Handling

theorem scheduleDelivery {row lease : WakeLease} (handling : Handling world task)
    (found : world.row lease.jobId = some row) (identity : row.identity = lease.identity)
    (beyond : 2 ≤ row.state.rank) : Handling (world.scheduleDelivery lease) task where
  inv := handling.inv.moves
    (scheduleDelivery_moves found identity beyond : Moves none _ _)
  running := by
    rcases world.scheduleDelivery_cases lease with same | ⟨spawned, -⟩
    · rw [same]
      exact handling.running
    · rw [spawned]
      exact handling.running.spawn _
  unlisted := by
    intro job
    rcases world.scheduleDelivery_cases lease with same | ⟨spawned, -⟩
    · rw [same]
      exact handling.unlisted job
    · rw [spawned, World.spawnDelivery_deliveryTasks, Dict.get?_set]
      split
      · exact fun isTask => handling.running.lt_length.ne' (Option.some.inj isTask)
      · exact handling.unlisted job

theorem scheduleDeadline {lease : WakeLease} (handling : Handling world task)
    (snapshot : world.Snapshot lease) : Handling (world.scheduleDeadline lease) task where
  inv := handling.inv.moves (scheduleDeadline_moves snapshot : Moves none _ _)
  running := by
    rcases world.scheduleDeadline_cases lease with same | spawned
    · rw [same]
      exact handling.running
    · rw [spawned]
      exact handling.running.spawn _
  unlisted := by
    rcases world.scheduleDeadline_cases lease with same | spawned
    · rw [same]
      exact handling.unlisted
    · rw [spawned]
      exact handling.unlisted

end Handling

/-! ### Cancelling -/

theorem cancelDeadline_moves (inv : Inv world) (job : JobId) :
    Moves origin world (world.cancelDeadline job) := by
  unfold World.cancelDeadline
  split
  · rename_i holder found
    refine (Relation.ReflTransGen.single (.popDeadline job)).tail (.cancel [holder] ?_)
    intro _ other isHolder
    rcases List.mem_singleton.mp isHolder with rfl
    refine ⟨inv.tables.deadlineTable job other found, fun pc delivered suspended delivers => ?_⟩
    have isDeadline := (inv.suspended other pc suspended).deadlineTable job found
    cases pc <;> simp [Pc.isDeadline, Pc.delivers] at isDeadline delivers
  · exact .refl

theorem cancelDelivery_moves (inv : Inv world) (settled : ¬world.Live job) :
    Moves origin world (world.cancelDelivery job) := by
  unfold World.cancelDelivery
  split
  · rename_i holder found
    have popped : Move origin world (world.popDelivery job) :=
      .popDelivery job (fun _ _ _ _ => settled)
        fun _ row isRow live => absurd ⟨row, isRow, live⟩ settled
    refine (Relation.ReflTransGen.single popped).tail (.cancel [holder] ?_)
    · intro _ other isHolder
      rcases List.mem_singleton.mp isHolder with rfl
      refine ⟨inv.tables.deliveryTable job other found, fun pc delivered suspended delivers => ?_⟩
      have isJob := (inv.suspended other pc suspended).deliveryTable job found
      rcases Option.some.inj (isJob.symm.trans delivers) with rfl
      exact settled
  · exact .refl

namespace World

@[simp]
theorem cancelDelivery_row (world : World) (job other : JobId) :
    (world.cancelDelivery job).row other = world.row other := by
  unfold cancelDelivery
  split <;> rfl

@[simp]
theorem cancelDeadline_row (world : World) (job other : JobId) :
    (world.cancelDeadline job).row other = world.row other := by
  unfold cancelDeadline
  split <;> rfl

end World

/-! ### Revocation -/

/-- A revocation leaves the thread alone, or abandons its live lease. -/
theorem abandonForManualChange_cases (world : World) (thread : ThreadId) (reason : String) :
    (abandonForManualChange world thread reason = world ∧ world.Revoked thread) ∨
      ∃ lease, world.row lease.jobId = some lease ∧ lease.threadId = thread ∧
        lease.isLive = true ∧ lease.deliveryState ≠ .activating ∧
        ∃ leasePeers, abandonForManualChange world thread reason =
          { (((world.update lease.jobId
            { state := some .abandoned, deliveryState := some .abandoned,
              error := some reason }).cancelDelivery lease.jobId).cancelDeadline lease.jobId) with
            leasePeers := leasePeers } := by
  cases found : world.store.liveForThread thread with
  | none =>
      refine .inl ⟨by simp [abandonForManualChange, GoalBridge.abandonForManualChange, found], ?_⟩
      intro job row isRow sameThread live
      have sameJob := BridgeState.jobId_of_get isRow
      have isLive := BridgeState.liveForThread_eq_some_iff.mpr
        ⟨sameJob.symm ▸ isRow, sameThread, live⟩
      simp [found] at isLive
  | some lease =>
      rcases BridgeState.liveForThread_eq_some_iff.mp found with ⟨isRow, sameThread, live⟩
      by_cases activating : lease.deliveryState = .activating
      · refine .inl ⟨?_, ?_⟩
        · have current : (world.row lease.jobId).any
              (fun current => decide (current.state = .abandoned)) = false := by
            rcases WakeLease.isLive_iff.mp live with state | state | state <;>
              simp [World.row, isRow, state]
          simp [abandonForManualChange, GoalBridge.abandonForManualChange, found, activating,
            current]
        · intro job row isRow' sameThread' live'
          have sameJob := BridgeState.jobId_of_get isRow'
          have isLive := BridgeState.liveForThread_eq_some_iff.mpr
            ⟨sameJob.symm ▸ isRow', sameThread', live'⟩
          rcases Option.some.inj (found.symm.trans isLive) with rfl
          exact activating
      · refine .inr ⟨lease, isRow, sameThread, live, activating, ?_⟩
        simp only [abandonForManualChange, GoalBridge.abandonForManualChange, found, activating,
          if_false]
        split
        · exact ⟨_, rfl⟩
        · exact ⟨_, rfl⟩

/-- What a revocation, or a series of them, does not touch. -/
structure Revises (before after : World) : Prop where
  tasks : after.tasks = before.tasks
  trace : after.trace = before.trace
  phase : after.phase = before.phase
  goalControls : after.goalControls = before.goalControls
  activityLocks : after.activityLocks = before.activityLocks
  peers : after.peers = before.peers
  calls : after.calls = before.calls
  doneEvents : after.doneEvents = before.doneEvents
  deliveryTasks : ∀ job task, after.deliveryTasks.get? job = some task →
    before.deliveryTasks.get? job = some task
  deadlineTasks : ∀ job task, after.deadlineTasks.get? job = some task →
    before.deadlineTasks.get? job = some task

theorem Dict.get?_of_pop {Key Value : Type} [DecidableEq Key] {dict : Dict Key Value}
    {key other : Key} {value : Value} (found : (dict.pop key).get? other = some value) :
    dict.get? other = some value := by
  rw [Dict.get?_pop] at found
  split at found
  · contradiction
  · exact found

theorem cancelDelivery_revises (world : World) (job : JobId) :
    Revises world (world.cancelDelivery job) := by
  unfold World.cancelDelivery
  split <;> constructor <;> intros <;> first
    | rfl
    | assumption
    | exact Dict.get?_of_pop ‹_›

theorem cancelDeadline_revises (world : World) (job : JobId) :
    Revises world (world.cancelDeadline job) := by
  unfold World.cancelDeadline
  split <;> constructor <;> intros <;> first
    | rfl
    | assumption
    | exact Dict.get?_of_pop ‹_›

namespace Revises

theorem refl (world : World) : Revises world world where
  tasks := rfl
  trace := rfl
  phase := rfl
  goalControls := rfl
  activityLocks := rfl
  peers := rfl
  calls := rfl
  doneEvents := rfl
  deliveryTasks := fun _ _ found => found
  deadlineTasks := fun _ _ found => found

theorem trans {first second third : World} (before : Revises first second)
    (after : Revises second third) : Revises first third where
  tasks := after.tasks.trans before.tasks
  trace := after.trace.trans before.trace
  phase := after.phase.trans before.phase
  goalControls := after.goalControls.trans before.goalControls
  activityLocks := after.activityLocks.trans before.activityLocks
  peers := after.peers.trans before.peers
  calls := after.calls.trans before.calls
  doneEvents := after.doneEvents.trans before.doneEvents
  deliveryTasks := fun job task found =>
    before.deliveryTasks job task (after.deliveryTasks job task found)
  deadlineTasks := fun job task found =>
    before.deadlineTasks job task (after.deadlineTasks job task found)

theorem handling (revises : Revises world after) (moves : Moves origin world after)
    (handling : Handling world task) : Handling after task where
  inv := handling.inv.moves moves
  running := by rw [World.IsRunning, revises.tasks]; exact handling.running
  unlisted := fun job isTask => handling.unlisted job (revises.deliveryTasks job task isTask)

theorem delivering (revises : Revises world after) (moves : Moves origin world after)
    (delivering : Delivering world task job) (live : after.Live job → world.Live job) :
    Delivering after task job where
  inv := delivering.inv.moves moves
  running := by rw [World.IsRunning, revises.tasks]; exact delivering.running
  alone := by
    intro other pc suspended delivers isLive
    rw [World.At, revises.tasks] at suspended
    exact delivering.alone other pc suspended delivers (live isLive)
  listed := fun other isTask => delivering.listed other (revises.deliveryTasks other task isTask)

end Revises

section Revocation

variable (thread : ThreadId) (reason : String)

theorem abandonForManualChange_revises (world : World) :
    Revises world (abandonForManualChange world thread reason) := by
  rcases abandonForManualChange_cases world thread reason with
    ⟨same, -⟩ | ⟨lease, -, -, -, -, leasePeers, abandoned⟩
  · rw [same]
    exact .refl world
  · rw [abandoned]
    have cancelled := (cancelDelivery_revises (world.update lease.jobId
      { state := some .abandoned, deliveryState := some .abandoned, error := some reason })
      lease.jobId).trans (cancelDeadline_revises _ lease.jobId)
    exact { cancelled with }

theorem abandonForManualChange_moves (inv : Inv world) :
    Moves origin world (abandonForManualChange world thread reason) := by
  rcases abandonForManualChange_cases world thread reason with
    ⟨same, -⟩ | ⟨lease, isRow, -, live, idle, leasePeers, abandoned⟩
  · rw [same]
  · rw [abandoned]
    have legal : Legal origin world lease
        { state := some .abandoned, deliveryState := some .abandoned, error := some reason } :=
      .abandon reason live idle
    have updated : Moves origin world (world.update lease.jobId _) :=
      .single (.update lease.jobId _ isRow legal)
    have settled : ¬(world.update lease.jobId
        { state := some .abandoned, deliveryState := some .abandoned,
          error := some reason }).Live lease.jobId := by
      rintro ⟨row, found, live⟩
      rw [World.row_update_self isRow legal.later, Option.some.injEq] at found
      subst found
      contradiction
    have invUpdated := inv.moves updated
    have delivery : Moves origin _ _ := cancelDelivery_moves invUpdated settled
    have deadline : Moves origin _ _ := cancelDeadline_moves (invUpdated.moves delivery)
      lease.jobId
    exact (updated.trans (delivery.trans deadline)).tail (.internal _ _ _ leasePeers _ _ _)

/-- After a revocation no lease of the thread is live, except one that is being activated. -/
theorem abandonForManualChange_revoked (world : World) :
    (abandonForManualChange world thread reason).Revoked thread := by
  rcases abandonForManualChange_cases world thread reason with
    ⟨same, revoked⟩ | ⟨lease, isRow, isThread, live, idle, leasePeers, abandoned⟩
  · rw [same]
    exact revoked
  · have legal : Legal none world lease _ := .abandon reason live idle
    have later := legal.later
    rw [abandoned]
    intro job row found sameThread rowLive
    have found : (((world.update lease.jobId _).cancelDelivery lease.jobId).cancelDeadline
        lease.jobId).row job = some row := found
    rw [World.cancelDeadline_row, World.cancelDelivery_row] at found
    rcases World.row_before_update isRow later found with ⟨rfl, rfl⟩ | ⟨different, before⟩
    · contradiction
    · exact absurd (BridgeState.live_unique before isRow (sameThread.trans isThread.symm) rowLive
        live) different

end Revocation

end Longrun.Bridge
