import Longrun.Bridge.Lifecycle

/-!
# Frame lemmas

What a suspended coroutine relies on survives the moves of the others: new events only add to the
trace, updates only take a row further in its life, and a lock that is held is not given away.
-/

namespace Longrun.Bridge

variable {origin : Option Origin} {world : World} {task : TaskId} {pc : Pc}

/-! ### Reading the world after a move -/

namespace World

theorem row_update {job : JobId} {row : WakeLease} {fields : LeaseUpdate}
    (found : world.row job = some row) (later : row.Later (fields.apply row)) (other : JobId) :
    (world.update job fields).row other =
      if other = job then some (fields.apply row) else world.row other := by
  rcases BridgeState.update_accepted found later.live with ⟨store, updated, rows⟩
  simp only [World.row, update, updated]
  exact rows other

theorem row_update_self {job : JobId} {row : WakeLease} {fields : LeaseUpdate}
    (found : world.row job = some row) (later : row.Later (fields.apply row)) :
    (world.update job fields).row job = some (fields.apply row) := by
  rw [row_update found later, if_pos rfl]

/-- Every row after an update was there before, at least as early in its life. -/
theorem row_before_update {job other : JobId} {row after : WakeLease} {fields : LeaseUpdate}
    (found : world.row job = some row) (later : row.Later (fields.apply row))
    (isRow : (world.update job fields).row other = some after) :
    (other = job ∧ after = fields.apply row) ∨ (other ≠ job ∧ world.row other = some after) := by
  rw [row_update found later] at isRow
  by_cases same : other = job
  · rw [if_pos same, Option.some.injEq] at isRow
    exact .inl ⟨same, isRow.symm⟩
  · rw [if_neg same] at isRow
    exact .inr ⟨same, isRow⟩

theorem later_before_update {job other : JobId} {row after : WakeLease} {fields : LeaseUpdate}
    (found : world.row job = some row) (later : row.Later (fields.apply row))
    (isRow : (world.update job fields).row other = some after) :
    ∃ before, world.row other = some before ∧ before.Later after := by
  rcases row_before_update found later isRow with ⟨rfl, rfl⟩ | ⟨-, before⟩
  · exact ⟨row, found, later⟩
  · exact ⟨after, before, .refl _⟩

theorem later_after_update {job other : JobId} {row before : WakeLease} {fields : LeaseUpdate}
    (found : world.row job = some row) (later : row.Later (fields.apply row))
    (isRow : world.row other = some before) :
    ∃ after, (world.update job fields).row other = some after ∧ before.Later after := by
  rw [row_update found later]
  by_cases same : other = job
  · subst same
    rw [found, Option.some.injEq] at isRow
    exact ⟨_, if_pos rfl, isRow ▸ later⟩
  · exact ⟨before, by rw [if_neg same, isRow], .refl _⟩

theorem live_before_update {job other : JobId} {row : WakeLease} {fields : LeaseUpdate}
    (found : world.row job = some row) (later : row.Later (fields.apply row))
    (live : (world.update job fields).Live other) : world.Live other := by
  rcases live with ⟨after, isRow, live⟩
  rcases later_before_update found later isRow with ⟨before, isRow, later⟩
  exact ⟨before, isRow, later.live live⟩

theorem processTrace_log {event : Event} (old : event.isStarted = false) :
    (world.log event).processTrace = event :: world.processTrace := by
  simp [processTrace, old]

theorem Undisturbed.of_log {event : Event} (undisturbed : (world.log event).Undisturbed) :
    world.Undisturbed :=
  fun task mem => undisturbed task (List.mem_cons_of_mem _ mem)

theorem Calm.of_log {event : Event} (calm : (world.log event).Calm) : world.Calm :=
  ⟨calm.1, calm.2.of_log⟩

theorem PrepareReceived.log {job : JobId} (received : world.PrepareReceived task job)
    (event : Event) : (world.log event).PrepareReceived task job := by
  rcases received with ⟨request, mem, isPrepare⟩
  exact ⟨request, List.mem_cons_of_mem _ mem, isPrepare⟩

end World

theorem InSection.cons {trace recent : List Event} {thread : ThreadId} {event : Event}
    (section_ : InSection trace task thread recent) (stays : event ≠ .released task thread) :
    InSection (event :: trace) task thread (event :: recent) := by
  rcases section_ with ⟨⟨older, rfl⟩, inside⟩
  refine ⟨⟨older, rfl⟩, ?_⟩
  rw [List.mem_cons, not_or]
  exact ⟨stays.symm, inside⟩

theorem IdleRead.cons {events : List Event} {lease : WakeLease} (read : IdleRead events task lease)
    (event : Event) : IdleRead (event :: events) task lease := by
  rcases read with ⟨result, mem, idle⟩
  exact ⟨result, List.mem_cons_of_mem _ mem, idle⟩

theorem PausedRead.cons {events : List Event} {lease : WakeLease} {revision : Int}
    (read : PausedRead events task lease revision) (event : Event) :
    PausedRead (event :: events) task lease revision := by
  rcases read with ⟨result, goal, mem, isGoal⟩
  exact ⟨result, goal, List.mem_cons_of_mem _ mem, isGoal⟩

theorem PauseAnswered.cons {trace : List Event} {lease : WakeLease} {updatedAt revision : Int}
    (answered : PauseAnswered trace task lease updatedAt revision) (event : Event) :
    PauseAnswered (event :: trace) task lease updatedAt revision := by
  rcases answered with ⟨result, mem, isRevision⟩
  exact ⟨result, List.mem_cons_of_mem _ mem, isRevision⟩

theorem PauseConfirmed.cons {trace : List Event} {row : WakeLease}
    (confirmed : PauseConfirmed trace row) (event : Event) :
    PauseConfirmed (event :: trace) row := by
  rcases confirmed with ⟨task, lease, updatedAt, same, answered, read⟩
  exact ⟨task, lease, updatedAt, same, answered.cons event, read.cons event⟩

theorem InterruptConfirmed.cons {events : List Event} {call : HandoffCall}
    (confirmed : InterruptConfirmed events task call) (event : Event) :
    InterruptConfirmed (event :: events) task call := by
  rcases confirmed with ⟨turn, result, isTurn, interrupted, order⟩
  exact ⟨turn, result, isTurn, interrupted, order.cons _⟩

theorem HandoffConfirmed.cons {events : List Event} {lease : WakeLease}
    (confirmed : HandoffConfirmed events lease) (event : Event) :
    HandoffConfirmed (event :: events) lease := by
  rcases confirmed with ⟨task, peer, turn, result, text, accepted, isTurn, interrupted, order⟩
  exact ⟨task, peer, turn, result, text, accepted, isTurn, interrupted, order.cons _⟩

/-- What a handoff has confirmed belongs to the columns that never change. -/
theorem HandoffConfirmed.congr {events : List Event} {before after : WakeLease}
    (confirmed : HandoffConfirmed events before) (sameJob : after.jobId = before.jobId)
    (sameThread : after.threadId = before.threadId) (sameTurn : after.turnId = before.turnId) :
    HandoffConfirmed events after := by
  rcases confirmed with ⟨task, peer, turn, result, text, accepted, isTurn, interrupted, order⟩
  refine ⟨task, peer, turn, result, text, accepted, sameTurn.trans isTurn, ?_, ?_⟩
  · rw [InterruptedTurn, sameTurn]
    exact interrupted
  · rw [sameJob, sameThread]
    exact order

/-! ### New events -/

theorem HandoffStage.log {call : HandoffCall} {await : HandoffAt} {event : Event}
    (stage : HandoffStage world task call await) (old : event.isStarted = false) :
    HandoffStage (world.log event) task call await := by
  cases await with
  | confirm =>
      refine ⟨stage.1, ?_⟩
      rw [World.processTrace_log old]
      exact List.mem_cons_of_mem _ stage.2
  | inject =>
      refine ⟨stage.1, ?_⟩
      rw [World.processTrace_log old]
      exact stage.2.cons event
  | _ => exact stage

theorem DeliverStage.log {lease : WakeLease} {await : DeliverAt} {event : Event}
    (stage : DeliverStage world task lease await)
    (stays : (Pc.deliver lease await).holdsGoal = some lease.threadId →
      event ≠ .released task lease.threadId) :
    DeliverStage (world.log event) task lease await := by
  cases await with
  | read =>
      rcases stage with ⟨recent, inside⟩
      exact ⟨event :: recent, inside.cons (stays rfl)⟩
  | goalGet =>
      rcases stage with ⟨recent, inside, idle⟩
      exact ⟨event :: recent, inside.cons (stays rfl), idle.cons event⟩
  | _ => exact stage

theorem World.Unstarted.log {lease : WakeLease} (unstarted : world.Unstarted lease)
    (event : Event) : (world.log event).Unstarted lease :=
  fun session calm => unstarted session calm.of_log

theorem WakeStage.log {lease : WakeLease} {await : WakeAt} (stage : WakeStage world lease await)
    (event : Event) : WakeStage (world.log event) lease await := by
  cases await with
  | lock => exact World.Unstarted.log stage event
  | checkGoal _ | latestTurn _ => exact ⟨stage.1.log event, stage.2⟩
  | turnStart _ =>
      rcases stage with ⟨sent, mem, isTurnStart⟩
      exact ⟨sent, List.mem_cons_of_mem _ mem, isTurnStart⟩

theorem Stage.log {event : Event} (stage : Stage world task pc) (old : event.isStarted = false)
    (stays : ∀ thread, pc.holdsGoal = some thread → event ≠ .released task thread) :
    Stage (world.log event) task pc := by
  cases pc with
  | prepareConfirm => exact ⟨stage.1, stage.2.1, stage.2.2.cons event⟩
  | handoff => exact ⟨stage.1, stage.2.1, stage.2.2.log old⟩
  | deliver lease =>
      exact ⟨stage.1, stage.2.1, fun start => (stage.2.2.1 start).log event,
        stage.2.2.2.log (stays _)⟩
  | wake => exact ⟨stage.1, stage.2.1, stage.2.2.log event⟩
  | _ => exact stage

theorem Bound.log (bound : Bound world task pc) (event : Event)
    (others : ∀ job, event ≠ .registered task job) : Bound (world.log event) task pc :=
  { bound with
    cancelled := fun undisturbed => bound.cancelled undisturbed.of_log
    registering := by
      intro job registers
      rcases bound.registering job registers with ⟨received, unregistered⟩
      refine ⟨received.log event, ?_⟩
      rw [World.log_trace, List.mem_cons, not_or]
      exact ⟨fun equal => others job equal.symm, unregistered⟩ }

theorem Suspended.log {event : Event} (suspended : Suspended world task pc)
    (old : event.isStarted = false)
    (stays : ∀ thread, pc.holdsGoal = some thread → event ≠ .released task thread)
    (others : ∀ job, event ≠ .registered task job) : Suspended (world.log event) task pc :=
  { suspended.toBound.log event others with stage := suspended.stage.log old stays }

/-! ### Updates of a row -/

/-- What the update of a row leaves to the coroutines that hold a copy of the lease. -/
structure Evolves (world : World) (before after : WakeLease) : Prop where
  later : before.Later after
  terminal : before.state = .terminal → after.isLive = true → after.state = .terminal
  ready : before.handoffState = .ready → after.handoffState = .ready
  transferred : ¬world.Untransferred before.jobId → after.handoffState = before.handoffState
  activating : before.deliveryState = .activating → after.isLive = true →
    after.deliveryState = .activating
  /-- Only the task that delivers a session lease activates it. -/
  started : before.wakeMode = .session → after.deliveryState = .activating →
    ¬world.Undelivered before.jobId → before.deliveryState = .activating
  /-- Only the task that delivers a Goal lease settles its activation. -/
  delivered : before.wakeMode = .goal → before.deliveryState = .activating →
    before.isLive = true → ¬world.Undelivered before.jobId → after.isLive = true

theorem Legal.evolves {row : WakeLease} {fields : LeaseUpdate}
    (legal : Legal origin world row fields) (consistent : row.Consistent) :
    Evolves world row (fields.apply row) where
  later := legal.later
  terminal := legal.terminal_stays
  ready := legal.ready_stays
  transferred := legal.handoffState_eq
  activating := legal.activating_stays consistent
  started := fun _ activating _ => legal.activating_before activating
  delivered := legal.activating_delivered consistent

theorem World.At.delivered {job : JobId} (suspended : world.At task pc)
    (delivers : pc.delivers = some job) : ¬world.Undelivered job :=
  fun undelivered => undelivered task pc suspended delivers

theorem World.At.transferred {job : JobId} (suspended : world.At task pc)
    (transfers : pc.transfers = some job) : ¬world.Untransferred job :=
  fun untransferred => untransferred task pc suspended transfers

section Update

variable {job : JobId} {row : WakeLease} {fields : LeaseUpdate}

/-- A property of live rows that survives the update of a row. -/
theorem World.WhileLive.update {other : JobId} {property : WakeLease → Prop}
    (holds : world.WhileLive other property) (found : world.row job = some row)
    (evolves : Evolves world row (fields.apply row))
    (stays : other = job → property row → (fields.apply row).isLive = true →
      property (fields.apply row)) :
    (world.update job fields).WhileLive other property := by
  intro after isRow live
  rcases World.row_before_update found evolves.later isRow with ⟨rfl, rfl⟩ | ⟨-, before⟩
  · exact stays rfl (holds row found (evolves.later.live live)) live
  · exact holds after before live

theorem World.Snapshot.update {lease : WakeLease} (snapshot : world.Snapshot lease)
    (found : world.row job = some row) (later : row.Later (fields.apply row)) :
    (world.update job fields).Snapshot lease := by
  rcases snapshot with ⟨before, isRow, identity⟩
  rcases World.later_after_update found later isRow with ⟨after, isAfter, later⟩
  exact ⟨after, isAfter, later.1.trans identity⟩

theorem World.BeyondArmed.update {other : JobId} (beyond : world.BeyondArmed other)
    (found : world.row job = some row) (later : row.Later (fields.apply row)) :
    (world.update job fields).BeyondArmed other := by
  intro after isRow
  rcases World.later_before_update found later isRow with ⟨before, isBefore, later⟩
  exact (beyond before isBefore).trans later.2

theorem HandoffStage.update {call : HandoffCall} {await : HandoffAt}
    (stage : HandoffStage world task call await) (found : world.row job = some row)
    (evolves : Evolves world row (fields.apply row))
    (suspended : world.At task (.handoff call await)) :
    HandoffStage (world.update job fields) task call await := by
  have sameJob := BridgeState.jobId_of_get found
  have stays {state : HandoffState}
      (transfers : (Pc.handoff call await).transfers = some call.lease.jobId)
      (holds : world.WhileLive call.lease.jobId fun row => row.handoffState = state) :
      (world.update job fields).WhileLive call.lease.jobId
        fun row => row.handoffState = state := by
    refine holds.update found evolves fun same before _ => ?_
    rw [evolves.transferred (suspended.transferred (transfers.trans (by rw [same, sameJob])))]
    exact before
  cases await with
  | lock => trivial
  | checkGoal | latestTurn | interrupt | turnDone => exact stays rfl stage
  | confirm | inject => exact ⟨stays rfl stage.1, stage.2⟩

theorem World.Unstarted.update {lease : WakeLease} (unstarted : world.Unstarted lease)
    (snapshot : world.Snapshot lease) (found : world.row job = some row)
    (evolves : Evolves world row (fields.apply row)) (suspended : world.At task pc)
    (delivers : pc.delivers = some lease.jobId) :
    (world.update job fields).Unstarted lease := by
  have sameJob := BridgeState.jobId_of_get found
  intro session calm
  refine World.WhileLive.update (unstarted session calm) found evolves
    fun same before _ activating => ?_
  rcases snapshot with ⟨current, isRow, identity⟩
  rw [same, found, Option.some.injEq] at isRow
  have sessionRow : row.wakeMode = .session :=
    (congrArg WakeLease.wakeMode isRow).trans
      ((congrArg (·.2.2.2.2.1) identity).trans session)
  exact before (evolves.started sessionRow activating
    (suspended.delivered (delivers.trans (by rw [same, sameJob]))))

theorem DeliverStage.update {lease : WakeLease} {await : DeliverAt}
    (stage : DeliverStage world task lease await) (goal : await = .start ∨ lease.wakeMode = .goal)
    (snapshot : world.Snapshot lease) (found : world.row job = some row)
    (evolves : Evolves world row (fields.apply row))
    (suspended : world.At task (.deliver lease await)) :
    DeliverStage (world.update job fields) task lease await := by
  have sameJob := BridgeState.jobId_of_get found
  cases await with
  | setActive =>
      rcases stage with ⟨current, isRow, live, activating⟩
      by_cases same : lease.jobId = job
      · rw [same, found, Option.some.injEq] at isRow
        subst isRow
        rcases snapshot with ⟨before, isBefore, identity⟩
        rw [same, found, Option.some.injEq] at isBefore
        subst isBefore
        have goalRow : row.wakeMode = .goal :=
          (congrArg (·.2.2.2.2.1) identity).trans (goal.resolve_left (by simp))
        have liveAfter := evolves.delivered goalRow activating live
          (suspended.delivered (by rw [sameJob, ← same]; rfl))
        exact ⟨_, by rw [same]; exact World.row_update_self found evolves.later, liveAfter,
          evolves.activating activating liveAfter⟩
      · refine ⟨current, ?_, live, activating⟩
        rw [World.row_update found evolves.later, if_neg same, isRow]
  | _ => exact stage

theorem WakeStage.update {lease : WakeLease} {peer : PeerId} {await : WakeAt}
    (stage : WakeStage world lease await) (snapshot : world.Snapshot lease)
    (found : world.row job = some row) (evolves : Evolves world row (fields.apply row))
    (suspended : world.At task (.wake lease peer await)) :
    WakeStage (world.update job fields) lease await := by
  cases await with
  | lock => exact World.Unstarted.update stage snapshot found evolves suspended rfl
  | checkGoal _ | latestTurn _ =>
      exact ⟨stage.1.update snapshot found evolves suspended rfl,
        stage.2.update found evolves fun _ before live =>
          ⟨evolves.terminal before.1 live, evolves.ready before.2⟩⟩
  | turnStart _ => exact stage

theorem Stage.update (suspendedInv : Suspended world task pc) (found : world.row job = some row)
    (evolves : Evolves world row (fields.apply row)) (suspended : world.At task pc) :
    Stage (world.update job fields) task pc := by
  have stage := suspendedInv.stage
  cases pc with
  | handoff call =>
      refine ⟨stage.1, ?_, stage.2.2.update found evolves suspended⟩
      refine stage.2.1.update found evolves fun same owned live idle => owned fun activating => ?_
      exact idle (evolves.activating activating live)
  | deliver lease await =>
      have snapshot := suspendedInv.snapshot lease rfl
      exact ⟨stage.1.update found evolves.later, stage.2.1,
        fun start => (stage.2.2.1 start).update snapshot found evolves suspended rfl,
        stage.2.2.2.update stage.2.1 snapshot found evolves suspended⟩
  | wake lease =>
      exact ⟨stage.1.update found evolves.later, stage.2.1,
        stage.2.2.update (suspendedInv.snapshot lease rfl) found evolves suspended⟩
  | _ => exact stage

theorem Bound.update (bound : Bound world task pc) (found : world.row job = some row)
    (later : row.Later (fields.apply row)) : Bound (world.update job fields) task pc :=
  { bound with
    snapshot := fun lease copy => (bound.snapshot lease copy).update found later
    unique := fun other delivers live =>
      bound.unique other delivers (World.live_before_update found later live)
    cancelled := fun undisturbed requested other delivers live =>
      bound.cancelled undisturbed requested other delivers
        (World.live_before_update found later live) }

theorem Suspended.update (suspendedInv : Suspended world task pc)
    (found : world.row job = some row) (evolves : Evolves world row (fields.apply row))
    (suspended : world.At task pc) : Suspended (world.update job fields) task pc :=
  { suspendedInv.toBound.update found evolves.later with
    stage := Stage.update suspendedInv found evolves suspended }

end Update

end Longrun.Bridge
