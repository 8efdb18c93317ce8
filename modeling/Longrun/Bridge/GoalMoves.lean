import Longrun.Bridge.Coroutine

/-!
# The moves of the Goal bridge

Every coroutine of the Goal bridge, from one await to the next, is a sequence of moves.
-/

namespace Longrun.Bridge

variable {origin : Option Origin} {world after : World} {task : TaskId} {job : JobId}

/-- A running coroutine that is in neither table. -/
structure Detached (world : World) (task : TaskId) : Prop extends Handling world task where
  undeadlined : ∀ other, world.deadlineTasks.get? other ≠ some task

namespace Detached

theorem next (detached : Detached world task) (moves : Moves origin world after)
    (tasks : after.tasks = world.tasks) (deliveryTable : after.deliveryTasks = world.deliveryTasks)
    (deadlineTable : after.deadlineTasks = world.deadlineTasks) : Detached after task where
  toHandling := detached.toHandling.next moves tasks deliveryTable
  undeadlined := by rw [deadlineTable]; exact detached.undeadlined

/-- It may stop at an await without holding a lock. -/
theorem suspended (detached : Detached world task) {pc : Pc}
    (snapshot : ∀ lease, pc.lease? = some lease → world.Snapshot lease)
    (noGoal : pc.holdsGoal = none) (noPeer : pc.holdsPeer = none)
    (noDelivery : pc.delivers = none)
    (registering : ∀ job, pc.registers = some job → world.PrepareReceived task job ∧
      .registered task job ∉ world.trace)
    (stage : Stage world task pc) : Suspended world task pc where
  snapshot := snapshot
  goalLock := fun _ holds => by rw [noGoal] at holds; contradiction
  peerLock := fun _ holds => by rw [noPeer] at holds; contradiction
  deliveryTable := fun other isTask => absurd isTask (detached.unlisted other)
  deadlineTable := fun other isTask => absurd isTask (detached.undeadlined other)
  unique := fun _ delivers => by rw [noDelivery] at delivers; contradiction
  cancelled := fun _ _ _ delivers => by rw [noDelivery] at delivers; contradiction
  registering := registering
  stage := stage

end Detached

theorem Resumed.detached {pc : Pc} {input : Input} (resumed : Resumed world task pc input)
    (delivers : pc.delivers = none) (noDeadline : pc.isDeadline = false) :
    Detached (world.goOn task pc input) task where
  toHandling := resumed.handling delivers
  undeadlined := by
    intro other isTask
    rw [resumed.now.deadlineTable other isTask] at noDeadline
    contradiction

/-- A running registration that has not inserted its row. -/
structure Registering (world : World) (task : TaskId) (job : JobId) : Prop
    extends Detached world task where
  received : world.PrepareReceived task job
  unregistered : .registered task job ∉ world.trace

/-- A registration goes on after an await before its row exists. -/
theorem Resumed.registering {pc : Pc} {input : Input} (resumed : Resumed world task pc input)
    (registers : pc.registers = some job) : Registering (world.goOn task pc input) task job where
  toDetached := resumed.detached
    (by cases pc <;> simp [Pc.registers, Pc.delivers] at registers ⊢)
    (by cases pc <;> simp [Pc.registers, Pc.isDeadline] at registers ⊢)
  received := (resumed.now.registering job registers).1
  unregistered := (resumed.now.registering job registers).2

/-- A registration without a lock may stop at an await. -/
theorem Registering.suspended (registering : Registering world task job) {pc : Pc}
    (noLease : pc.lease? = none) (noGoal : pc.holdsGoal = none) (noPeer : pc.holdsPeer = none)
    (noDelivery : pc.delivers = none) (registers : pc.registers = some job)
    (stage : Stage world task pc) : Suspended world task pc := by
  refine registering.toDetached.suspended ?_ noGoal noPeer noDelivery ?_ stage
  · intro lease isCopy
    rw [noLease] at isCopy
    contradiction
  · intro other otherRegisters
    rcases Option.some.inj (registers.symm.trans otherRegisters) with rfl
    exact ⟨registering.received, registering.unregistered⟩

theorem prepareArguments_jobId {request : Json} {call : PrepareCall}
    (arguments : prepareArguments job request = .ok call) : call.jobId = job := by
  unfold prepareArguments at arguments
  simp only [bind, Except.bind, pure, Except.pure, throw, throwThe, MonadExceptOf.throw]
    at arguments
  repeat' split at arguments
  all_goals cases arguments
  rfl

namespace GoalBridge

/-! ### Registration -/

theorem prepare_moves (registering : Registering world task job) (request : Json) :
    Moves origin world (World.stop task (prepare world job request)) := by
  unfold prepare
  split
  · exact registering.ends (raise_ends _)
  · rename_i call arguments
    rcases prepareArguments_jobId arguments with rfl
    split
    · split
      · exact registering.ends (answer_ends _)
      · exact registering.ends (raise_ends _)
    · exact settle_read _ registering.running
        (registering.suspended rfl rfl rfl rfl rfl trivial) trivial rfl rfl

/-- The failure of a registration gives up its lease if it is still preparing. -/
theorem prepareFailed_moves (handling : Handling world task) (call : PrepareCall)
    (raised : Raised) (isPausing : Pauses origin call.threadId) :
    Moves origin world (World.stop task (prepareFailed world call raised)) := by
  have popped : Moves origin world (world.popExpected call.threadId) :=
    .single (.internal _ _ _ _ _ _ _)
  have handlingPopped := handling.next popped rfl rfl
  have pops (other : World) : Moves origin other (other.popPauseNotifications call.threadId) :=
    .single (.popPause call.threadId isPausing)
  unfold World.stop prepareFailed abandonPreparing
  split
  · rename_i current isRow
    split
    · rename_i preparing
      have idle : current.deliveryState ≠ .activating :=
        (handling.inv.row_consistent isRow).not_activating_of_preparing preparing
      have updated := popped.tail (.update call.jobId _ isRow
        (.abandon ("prepare failed: " ++ raised.text)
          (WakeLease.isLive_of_preparing preparing) idle))
      have moves := updated.trans (pops _)
      exact moves.trans ((handling.next moves rfl rfl).ends trivial)
    · have moves := popped.trans (pops _)
      exact moves.trans ((handling.next moves rfl rfl).ends trivial)
  · have moves := popped.trans (pops _)
    exact moves.trans ((handling.next moves rfl rfl).ends trivial)

/-- The lease of a registration is a new row, or the row that the job has already. -/
theorem createLease_cases {new : NewLease} {lease : WakeLease}
    (created : createLease world task new = .ok (after, lease)) :
    (∃ store, world.row new.jobId = none ∧ world.store.createLease new = .ok (store, lease) ∧
        lease = new.row ∧ (∀ job, store.get job = if job = new.jobId then some new.row
          else world.row job) ∧
        after = ({ world with store := store } : World).log (.registered task new.jobId)) ∨
      (after = world ∧ world.row new.jobId = some lease ∧ lease.threadId = new.threadId) := by
  unfold createLease at created
  split at created
  · contradiction
  · rename_i store stored isStored
    rcases BridgeState.createLease_cases isStored with ⟨fresh, -, rfl, rows⟩ | ⟨rfl, found, same⟩
    · simp only [World.row, fresh, Except.ok.injEq, Prod.mk.injEq] at created
      rcases created with ⟨rfl, rfl⟩
      exact .inl ⟨store, fresh, isStored, rfl, rows, rfl⟩
    · simp only [World.row, found, Except.ok.injEq, Prod.mk.injEq] at created
      rcases created with ⟨rfl, rfl⟩
      exact .inr ⟨rfl, found, same⟩

theorem prepareRegister_moves {call : PrepareCall}
    (registering : Registering world task call.jobId) (result : Except PyError Json) :
    Moves (some ⟨task, .prepareGoalGet call, .reply result⟩) world
      (World.stop task (prepareRegister world task call result)) := by
  unfold prepareRegister
  split
  · exact registering.ends (raise_ends _)
  · rename_i objective createdAt updatedAt _
    split
    · exact registering.ends (raise_ends _)
    · rename_i registered lease created
      have pauses (other : World) : Moves (some ⟨task, .prepareGoalGet call, .reply result⟩) other
          (other.setPauseNotifications call.threadId []) :=
        .single (.setPause call.threadId [] (.inr ⟨task, call, .reply result, rfl, rfl⟩))
      have awaits : (Pc.prepareSetPaused call lease updatedAt).awaits =
        some (call.jobId, .app, .goalSet call.threadId "paused") := rfl
      have stops {other : World} (detached : Detached other task)
          (snapshot : other.Snapshot lease) (sameJob : lease.jobId = call.jobId)
          (sameThread : lease.threadId = call.threadId) :
          Moves (some ⟨task, .prepareGoalGet call, .reply result⟩) other
            ((other.setPauseNotifications call.threadId []).settle task
              (.await (.prepareSetPaused call lease updatedAt))) := by
        refine (pauses other).trans (settle_request _ detached.running ?_ trivial awaits ?_)
        · refine (detached.next (pauses other) rfl rfl rfl).suspended ?_ rfl rfl rfl
            (fun _ registers => by cases registers) ⟨sameJob, sameThread⟩
          intro copy isCopy
          rcases Option.some.inj isCopy with rfl
          exact snapshot
        · exact ⟨⟨rfl, rfl, rfl⟩, fun _ => ⟨call, result, rfl, rfl⟩, fun receipt => by cases receipt⟩
      rcases createLease_cases created with
        ⟨store, fresh, isStored, rfl, rows, rfl⟩ | ⟨rfl, found, same⟩
      · have inserted : Moves (some ⟨task, .prepareGoalGet call, .reply result⟩) world
            (({ world with store := store } : World).log (.registered task call.jobId)) :=
          .single (.register task _ registering.running registering.received fresh isStored rfl)
        have isRow : store.get call.jobId = some _ := (rows call.jobId).trans (if_pos rfl)
        exact inserted.trans (stops (registering.toDetached.next inserted rfl rfl rfl)
          ⟨_, isRow, rfl⟩ rfl rfl)
      · have sameJob := BridgeState.jobId_of_get found
        refine stops registering.toDetached ⟨lease, ?_, rfl⟩ sameJob same
        rw [sameJob]
        exact found

theorem preparePaused_moves {call : PrepareCall} {lease : WakeLease} {updatedAt : Int}
    {result : Except PyError Json} (detached : Detached world task)
    (isPausing : Pauses origin call.threadId)
    (relies : Suspended world task (.prepareSetPaused call lease updatedAt))
    (answered : .replied task call.jobId .app (.goalSet call.threadId "paused") result ∈
      world.trace) :
    Moves origin world (World.stop task (preparePaused world call lease updatedAt result)) := by
  unfold preparePaused
  split
  · exact prepareFailed_moves detached.toHandling call _ isPausing
  · rename_i pausedUpdatedAt isRevision
    rcases bind_eq_ok.mp isRevision with ⟨answer, rfl, isRevision⟩
    refine settle_read (.prepareConfirm call lease updatedAt pausedUpdatedAt)
      detached.running ?_ trivial rfl rfl
    refine { relies with stage := ⟨relies.stage.1, relies.stage.2, answer, ?_, isRevision⟩ }
    rw [relies.stage.1, relies.stage.2]
    exact answered

/-- What the checks before the commit make sure of. -/
theorem prepareChecks_ok {call : PrepareCall} {lease current : WakeLease}
    {updatedAt pausedUpdatedAt : Int} {result : Except PyError Json}
    (checked : prepareChecks world call lease updatedAt pausedUpdatedAt result = .ok current) :
    world.row call.jobId = some current ∧ current.state = .preparing ∧
      ∃ latest goal, result = .ok latest ∧ goalFromResult latest = .ok goal ∧
        pausedAt lease pausedUpdatedAt goal = true := by
  unfold prepareChecks confirmLatest at checked
  rcases bind_eq_ok.mp checked with ⟨latest, isLatest, afterRead⟩
  rcases bind_eq_ok.mp afterRead with ⟨_, confirmed, afterConfirm⟩
  rcases bind_eq_ok.mp confirmed with ⟨goal, isGoal, isPaused⟩
  have paused : pausedAt lease pausedUpdatedAt goal = true := by
    by_contra unpaused
    simp [unpaused, throw, throwThe, MonadExceptOf.throw] at isPaused
  simp only [bind, Except.bind, pure, Except.pure, throw, throwThe, MonadExceptOf.throw]
    at afterConfirm
  repeat' split at afterConfirm
  all_goals cases afterConfirm
  rename_i found unrevoked
  simp only [not_or, not_not] at unrevoked
  exact ⟨found, unrevoked.1, latest, goal, isLatest, isGoal, paused⟩

theorem prepareCommit_moves {call : PrepareCall} {lease : WakeLease}
    {updatedAt pausedUpdatedAt : Int} {result : Except PyError Json}
    (detached : Detached world task) (isPausing : Pauses origin call.threadId)
    (relies : Suspended world task (.prepareConfirm call lease updatedAt pausedUpdatedAt))
    (answered : .replied task call.jobId .app (.goalGet call.threadId) result ∈ world.trace) :
    Moves origin world
      (World.stop task (prepareCommit world call lease updatedAt pausedUpdatedAt result)) := by
  unfold prepareCommit
  split
  · exact prepareFailed_moves detached.toHandling call _ isPausing
  · rename_i current checked
    rcases prepareChecks_ok checked with ⟨found, preparing, latest, goal, rfl, isGoal, paused⟩
    rcases relies.stage with ⟨sameJob, sameThread, isPause⟩
    rcases relies.snapshot lease rfl with ⟨row, isRow, identity⟩
    rw [sameJob] at isRow
    rcases Option.some.inj (found.symm.trans isRow) with rfl
    have isRead : PausedRead world.trace task lease pausedUpdatedAt := by
      refine ⟨latest, goal, ?_, isGoal, paused⟩
      rw [sameJob, sameThread]
      exact answered
    have legal : Legal origin world current (commitFields current pausedUpdatedAt) :=
      .commit pausedUpdatedAt preparing ⟨task, lease, updatedAt, identity.symm, isPause, isRead⟩
    have updated : Moves origin world
        ((world.update call.jobId (commitFields current pausedUpdatedAt)).popPauseNotifications
          call.threadId) :=
      (Relation.ReflTransGen.single (.update call.jobId _ found legal)).tail
        (.popPause call.threadId isPausing)
    have handling := detached.toHandling.next updated rfl rfl
    have sameRow : current.jobId = call.jobId := BridgeState.jobId_of_get found
    have isCommitted : ((world.update call.jobId
        (commitFields current pausedUpdatedAt)).popPauseNotifications call.threadId).row
          ((commitFields current pausedUpdatedAt).apply current).jobId =
        some ((commitFields current pausedUpdatedAt).apply current) := by
      rw [LeaseUpdate.apply_jobId, sameRow]
      exact World.row_update_self found legal.later
    simp only [World.stop]
    split
    · rename_i terminal
      have beyond : 2 ≤ ((commitFields current pausedUpdatedAt).apply current).state.rank := by
        rw [terminal]
        exact le_refl _
      exact updated.trans ((scheduleDelivery_moves isCommitted rfl beyond).trans
        ((handling.scheduleDelivery isCommitted rfl beyond).ends (answer_ends _)))
    · exact updated.trans ((scheduleDeadline_moves ⟨_, isCommitted, rfl⟩).trans
        ((handling.scheduleDeadline ⟨_, isCommitted, rfl⟩).ends (answer_ends _)))

theorem prepareResume_moves {pc : Pc} {input : Input} {stopped : World × Outcome}
    (resumed : Resumed world task pc input)
    (goesOn : prepareResume (world.goOn task pc input) task pc input = some stopped) :
    Moves (some ⟨task, pc, input⟩) (world.goOn task pc input) (World.stop task stopped) := by
  unfold prepareResume at goesOn
  split at goesOn <;> cases goesOn
  · exact prepareRegister_moves (resumed.registering rfl) _
  · refine preparePaused_moves (resumed.detached rfl rfl) ⟨task, _, _, rfl, rfl⟩ resumed.now ?_
    rw [World.goOn_trace rfl]
    exact List.mem_cons_self
  · refine prepareCommit_moves (resumed.detached rfl rfl) ⟨task, _, _, rfl, rfl⟩ resumed.now ?_
    rw [World.goOn_trace rfl]
    exact List.mem_cons_self
  · exact (resumed.handling rfl).ends trivial
  · exact prepareFailed_moves (resumed.handling rfl) _ _ ⟨task, _, _, rfl, rfl⟩
  · exact prepareFailed_moves (resumed.handling rfl) _ _ ⟨task, _, _, rfl, rfl⟩

/-! ### Terminal events and aborts -/

/-- A Goal lease that is armed becomes terminal, and its delivery is scheduled. -/
theorem terminate_moves {row : WakeLease} (handling : Handling world task)
    (found : world.row job = some row) (goal : row.wakeMode = .goal) (armed : row.state = .armed)
    (terminalState : String) (error : Option String) :
    let fields : LeaseUpdate :=
      { state := some .terminal, terminalState := some terminalState,
        deliveryState := some .waitingForIdle, error := error }
    (Moves origin world ((world.update job fields).scheduleDelivery (fields.apply row)) ∧
      Handling ((world.update job fields).scheduleDelivery (fields.apply row)) task) ∧
    (Moves origin world
        (((world.update job fields).cancelDeadline job).scheduleDelivery (fields.apply row)) ∧
      Handling (((world.update job fields).cancelDeadline job).scheduleDelivery
        (fields.apply row)) task) := by
  intro fields
  have legal : Legal origin world row fields := .terminate terminalState error goal armed
  have updated : Moves origin world (world.update job fields) :=
    .single (.update job fields found legal)
  have handlingUpdated := handling.next updated rfl rfl
  have sameJob : row.jobId = job := BridgeState.jobId_of_get found
  have isRow : (world.update job fields).row (fields.apply row).jobId =
      some (fields.apply row) := by
    rw [LeaseUpdate.apply_jobId, sameJob]
    exact World.row_update_self found legal.later
  have cancelled : Moves origin (world.update job fields)
      ((world.update job fields).cancelDeadline job) := cancelDeadline_moves handlingUpdated.inv job
  have handlingCancelled := (cancelDeadline_revises _ job).handling cancelled handlingUpdated
  have isRowStill : ((world.update job fields).cancelDeadline job).row (fields.apply row).jobId =
      some (fields.apply row) := by
    rw [World.cancelDeadline_row]
    exact isRow
  have beyond : 2 ≤ (fields.apply row).state.rank := le_refl 2
  exact ⟨⟨updated.trans (scheduleDelivery_moves isRow rfl beyond),
      handlingUpdated.scheduleDelivery isRow rfl beyond⟩,
    updated.trans (cancelled.trans (scheduleDelivery_moves isRowStill rfl beyond)),
    handlingCancelled.scheduleDelivery isRowStill rfl beyond⟩

theorem terminal_moves (handling : Handling world task) (request : Json)
    (goal : ∀ row, world.row job = some row → row.wakeMode = .goal) :
    Moves origin world (World.stop task (terminal world job request)) := by
  unfold terminal
  split
  · exact handling.ends (raise_ends _)
  · exact handling.ends (raise_ends _)
  · rename_i threadId terminalState _ _
    split
    · exact handling.ends (raise_ends _)
    · rename_i lease found
      simp only [deliveryAnswer]
      split_ifs with _ _ _ preparing unset unarmed
      · exact handling.ends (raise_ends _)
      · exact handling.ends (answer_ends _)
      · exact handling.ends (answer_ends _)
      · have updated : Moves origin world
            (world.update job { terminalState := some terminalState }) :=
          .single (.update job _ found (.earlyTerminal terminalState preparing.1
            (by simpa using unset)))
        exact updated.trans ((handling.next updated rfl rfl).ends (answer_ends _))
      · exact handling.ends (answer_ends _)
      · exact handling.ends (raise_ends _)
      · simp only [not_or, not_not] at unarmed
        rcases (terminate_moves handling found (goal lease found) unarmed.1 _ none).2 with
          ⟨moves, handling⟩
        exact moves.trans (handling.ends (answer_ends _))

theorem abort_moves (handling : Handling world task) (request : Json)
    (goal : ∀ row, world.row job = some row → row.wakeMode = .goal) :
    Moves origin world (World.stop task (abort world job request)) := by
  unfold abort
  split
  · exact handling.ends (raise_ends _)
  · rename_i thread _
    split
    · exact handling.ends (answer_ends _)
    · rename_i lease found
      split_ifs with _ _ _ _ unarmed
      · exact handling.ends (raise_ends _)
      · exact handling.ends (answer_ends _)
      · have moves : Moves origin _ _ := abandonForManualChange_moves thread
          "Wake registration aborted before pause confirmation" handling.inv
        exact moves.trans
          (((abandonForManualChange_revises thread _ world).handling moves handling).ends
            (answer_ends _))
      · exact handling.ends (answer_ends _)
      · exact handling.ends (raise_ends _)
      · simp only [not_or, not_not] at unarmed
        rcases (terminate_moves handling found (goal lease found) unarmed.1 _ none).1 with
          ⟨moves, handling⟩
        exact moves.trans (handling.ends (answer_ends _))

/-! ### Delivery -/

/-- The running task that delivers a Goal lease. -/
structure DeliveringGoal (world : World) (task : TaskId) (lease : WakeLease) : Prop
    extends Delivering world task lease.jobId where
  goal : ∀ row, world.row lease.jobId = some row → row.wakeMode = .goal

namespace DeliveringGoal

variable {lease row : WakeLease} {fields : LeaseUpdate}

theorem update (delivering : DeliveringGoal world task lease)
    (found : world.row lease.jobId = some row) (legal : Legal origin world row fields) :
    Moves origin world (world.update lease.jobId fields) ∧
      DeliveringGoal (world.update lease.jobId fields) task lease := by
  have moves : Moves origin world (world.update lease.jobId fields) :=
    .single (.update lease.jobId fields found legal)
  refine ⟨moves, ⟨delivering.toDelivering.next moves rfl rfl
    (World.live_before_update found legal.later), ?_⟩⟩
  intro after isRow
  rw [World.row_update_self found legal.later, Option.some.injEq] at isRow
  subst isRow
  exact delivering.goal row found

theorem unlock (delivering : DeliveringGoal world task lease) (origin : Option Origin)
    (free : ∀ other pc, world.At other pc → pc.holdsGoal ≠ some lease.threadId) :
    Moves origin world (world.unlockGoal task lease.threadId) ∧
      DeliveringGoal (world.unlockGoal task lease.threadId) task lease := by
  have moves : Moves origin world (world.unlockGoal task lease.threadId) :=
    .single (.unlockGoal task lease.threadId free)
  exact ⟨moves, ⟨delivering.toDelivering.next moves rfl rfl id, delivering.goal⟩⟩

theorem ends (delivering : DeliveringGoal world task lease) {outcome : Outcome}
    (ends : outcome.Ends) :
    Moves origin world (World.stop task (deliverEnd world lease outcome)) :=
  delivering.toDelivering.ends ends fun _ row isRow _ session => by
    rw [delivering.goal row isRow] at session
    contradiction

theorem fail (delivering : DeliveringGoal world task lease) (origin : Option Origin)
    (error : PyError) :
    Moves origin world (failDelivery world lease.jobId error) ∧
      DeliveringGoal (failDelivery world lease.jobId error) task lease := by
  unfold failDelivery
  split
  · rename_i current found
    split
    · rename_i undecided
      have consistent := delivering.inv.row_consistent found
      have sameJob : current.jobId = lease.jobId := BridgeState.jobId_of_get found
      refine delivering.update found (.fail _ ?_ ?_)
      · cases live : current.isLive with
        | true => exact .inl rfl
        | false =>
            have final := consistent.isFinal_iff.mpr live
            cases delivery : current.deliveryState <;>
              simp_all [DeliveryState.isFinal]
      · intro _ activating
        rw [sameJob]
        refine delivering.undelivered ⟨current, found, ?_⟩
        cases live : current.isLive with
        | true => rfl
        | false =>
            have final := consistent.isFinal_iff.mpr live
            simp [activating, DeliveryState.isFinal] at final
    · exact ⟨.refl, delivering⟩
  · exact ⟨.refl, delivering⟩

theorem exception (delivering : DeliveringGoal world task lease) (error : PyError) :
    Moves origin world (World.stop task (deliverException world lease error)) := by
  rcases delivering.fail origin error with ⟨moves, failed⟩
  exact moves.trans (failed.ends trivial)

end DeliveringGoal

section Deliver

variable {lease : WakeLease} {result : Except PyError Json}

/-- The task may stop at an await of `_deliver` at which it relies on nothing. -/
theorem deliver_suspended {await next : DeliverAt}
    (relies : Suspended world task (.deliver lease await)) (goal : lease.wakeMode = .goal)
    (noGoal : (Pc.deliver lease next).holdsGoal = none) (notStart : next ≠ .start)
    (nothing : DeliverStage world task lease next) :
    Suspended world task (.deliver lease next) :=
  { relies with
    goalLock := fun _ holds => by rw [noGoal] at holds; contradiction
    stage := ⟨relies.stage.1, .inr goal, fun start => absurd start notStart, nothing⟩ }

theorem deliverStart_moves (delivering : DeliveringGoal world task lease)
    (relies : Suspended world task (.deliver lease .start)) (goal : lease.wakeMode = .goal) :
    Moves origin world (World.stop task (deliverStart world lease)) := by
  unfold deliverStart
  split
  · exact delivering.ends trivial
  · split
    · exact delivering.ends trivial
    · exact settle_read _ delivering.running
        (deliver_suspended relies goal rfl (by simp) trivial) trivial rfl rfl

theorem idleRead_moves {await : DeliverAt} (delivering : DeliveringGoal world task lease)
    (relies : Suspended world task (.deliver lease await)) (goal : lease.wakeMode = .goal)
    {busy : World × Outcome} (busyMoves : Moves origin world (World.stop task busy)) :
    Moves origin world (World.stop task (idleRead world lease result busy)) := by
  unfold idleRead
  split
  · exact delivering.exception _
  · split_ifs
    · exact settle_silent _ delivering.running
        (deliver_suspended relies goal rfl (by simp) trivial) trivial rfl
    · exact delivering.exception _
    · exact busyMoves

theorem firstRead_moves {await : DeliverAt} (delivering : DeliveringGoal world task lease)
    (relies : Suspended world task (.deliver lease await)) (goal : lease.wakeMode = .goal) :
    Moves origin world (World.stop task (firstRead world lease result)) := by
  refine idleRead_moves delivering relies goal ?_
  have cleared : Moves origin world (world.clearThreadEvent lease.threadId) :=
    .single (.internal _ _ _ _ _ _ _)
  have relies : Suspended (world.clearThreadEvent lease.threadId) task (.deliver lease await) :=
    { relies with }
  exact cleared.trans (settle_read _ delivering.running
    (deliver_suspended relies goal rfl (by simp) trivial) trivial rfl rfl)

theorem secondRead_moves {await : DeliverAt} (delivering : DeliveringGoal world task lease)
    (relies : Suspended world task (.deliver lease await)) (goal : lease.wakeMode = .goal) :
    Moves origin world (World.stop task (secondRead world lease result)) := by
  refine idleRead_moves delivering relies goal ?_
  split
  · exact settle_read _ delivering.running
      (deliver_suspended relies goal rfl (by simp) trivial) trivial rfl rfl
  · exact settle_silent _ delivering.running
      (deliver_suspended relies goal rfl (by simp) trivial) trivial rfl

theorem activateReturn_moves (delivering : DeliveringGoal world task lease)
    (free : ∀ other pc, world.At other pc → pc.holdsGoal ≠ some lease.threadId) :
    Moves origin world (World.stop task (activateReturn world task lease)) := by
  rcases delivering.unlock origin free with ⟨moves, unlocked⟩
  exact moves.trans (unlocked.ends trivial)

theorem activateException_moves (delivering : DeliveringGoal world task lease)
    (free : ∀ other pc, world.At other pc → pc.holdsGoal ≠ some lease.threadId)
    (error : PyError) :
    Moves origin world (World.stop task (activateException world task lease error)) := by
  rcases delivering.unlock origin free with ⟨moves, unlocked⟩
  exact moves.trans (unlocked.exception error)

/-- The status read under the lock. -/
theorem activateRead_moves (delivering : DeliveringGoal world task lease)
    (free : ∀ other pc, world.At other pc → pc.holdsGoal ≠ some lease.threadId)
    (relies : Suspended world task (.deliver lease .read)) (goal : lease.wakeMode = .goal)
    (recent : List Event) (inside : InSection world.trace task lease.threadId recent)
    (replied : .replied task lease.jobId .app (.threadRead lease.threadId) result ∈ recent) :
    Moves origin world (World.stop task (activateRead world task lease result)) := by
  unfold activateRead
  split
  · exact activateException_moves delivering free _
  · rename_i status isStatus
    split
    · rcases delivering.unlock origin free with ⟨moves, unlocked⟩
      refine moves.trans (settle_read (.deliver lease .firstRead) unlocked.running ?_
        trivial rfl rfl)
      have bound : Bound (world.log (.released task lease.threadId)) task
          (.deliver lease .read) := relies.toBound.log _ fun _ isEvent => by cases isEvent
      exact { bound with
        goalLock := fun _ holds => by cases holds
        stage := ⟨relies.stage.1, .inr goal, (fun impossible => by cases impossible), trivial⟩ }
    · rename_i idle
      rw [not_not] at idle
      subst idle
      rcases bind_eq_ok.mp isStatus with ⟨answer, rfl, isIdle⟩
      split
      · exact activateReturn_moves delivering free
      · split
        · exact activateReturn_moves delivering free
        · refine settle_read (.deliver lease .goalGet) delivering.running ?_ trivial rfl rfl
          exact { relies with
            stage := ⟨relies.stage.1, .inr goal, (fun impossible => by cases impossible), recent, inside,
              answer, replied, isIdle⟩ }

/-- The Goal read under the lock, and the activation. -/
theorem activateGoalGet_moves (delivering : DeliveringGoal world task lease)
    (free : ∀ other pc, world.At other pc → pc.holdsGoal ≠ some lease.threadId)
    (relies : Suspended world task (.deliver lease .goalGet)) (goal : lease.wakeMode = .goal) :
    Moves (some ⟨task, .deliver lease .goalGet, .reply result⟩) world
      (World.stop task (activateGoalGet world task lease result)) := by
  unfold activateGoalGet
  split
  · exact activateException_moves delivering free _
  · split
    · exact activateReturn_moves delivering free
    · rename_i current found
      split
      · exact activateReturn_moves delivering free
      · rename_i waiting
        simp only [not_or, not_not] at waiting
        rcases waiting with ⟨terminal, waiting⟩
        split
        · rename_i reason _
          have legal : Legal (some ⟨task, .deliver lease .goalGet, .reply result⟩) world current
              { state := some .abandoned, deliveryState := some .abandoned,
                error := some reason } :=
            .abandon reason (WakeLease.isLive_of_terminal terminal) (by simp [waiting])
          rcases delivering.update found legal with ⟨moves, updated⟩
          exact moves.trans (activateReturn_moves updated free)
        · have isGoal := delivering.goal current found
          have later : current.Later
              (LeaseUpdate.apply { deliveryState := some .activating } current) :=
            ⟨rfl, le_refl _⟩
          have sent : Moves (some ⟨task, .deliver lease .goalGet, .reply result⟩) world
              ((world.update lease.jobId { deliveryState := some .activating }).log
                (.sent task lease.jobId .app (.goalSet lease.threadId "active"))) :=
            .single (.activateGoal task lease found isGoal terminal waiting ⟨result, rfl⟩)
          refine (sent.tail (.internal _ _ (world.expectedGoalStatus.set lease.threadId
            ("active", none)) _ _ _ _)).tail
            (.suspend task (.deliver lease .setActive) delivering.running ?_ trivial)
          have bound := (relies.toBound.update found later).log
            (.sent task lease.jobId .app (.goalSet lease.threadId "active"))
            fun _ isEvent => by cases isEvent
          exact { bound with
            stage := ⟨relies.stage.1.update found later, .inr goal, (fun impossible => by cases impossible),
              _, World.row_update_self found later, WakeLease.isLive_of_terminal terminal, rfl⟩ }

/-- The answer to the activation. -/
theorem activateSetActive_moves (delivering : DeliveringGoal world task lease)
    (free : ∀ other pc, world.At other pc → pc.holdsGoal ≠ some lease.threadId)
    (relies : Suspended world task (.deliver lease .setActive)) :
    Moves origin world (World.stop task (activateSetActive world task lease result)) := by
  rcases relies.stage.2.2.2 with ⟨row, found, live, activating⟩
  have sameJob : row.jobId = lease.jobId := BridgeState.jobId_of_get found
  have undelivered : world.Undelivered row.jobId := by
    rw [sameJob]
    exact delivering.undelivered ⟨row, found, live⟩
  have fails (reason : String) : Legal origin world row (needsManualRecovery reason) :=
    .fail reason (.inl live) fun _ _ => undelivered
  have resumes : Legal origin world row
      { state := some .delivered, deliveryState := some .resumed } :=
    .resumeGoal (delivering.goal row found) live activating undelivered
  have popped : Moves origin world (world.popExpected lease.threadId) :=
    .single (.internal _ _ _ _ _ _ _)
  have stops {fields : LeaseUpdate} (legal : Legal origin world row fields) :
      Moves origin world
        (World.stop task (activateReturn (world.update lease.jobId fields) task lease)) := by
    rcases delivering.update found legal with ⟨moves, updated⟩
    exact moves.trans (activateReturn_moves updated free)
  have stopsPopped {fields : LeaseUpdate} (legal : Legal origin world row fields) :
      Moves origin world (World.stop task (activateReturn
        ((world.popExpected lease.threadId).update lease.jobId fields) task lease)) := by
    rcases delivering.update found legal with ⟨moves, updated⟩
    have poppedDelivering : DeliveringGoal
        ((world.popExpected lease.threadId).update lease.jobId fields) task lease :=
      ⟨updated.toDelivering.next (.single (.internal _ _ _ _ _ _ _) : Moves origin _ _)
        rfl rfl id, updated.goal⟩
    exact (moves.tail (.internal _ _ _ _ _ _ _)).trans
      (activateReturn_moves poppedDelivering free)
  unfold activateSetActive
  split
  · exact stopsPopped (fails _)
  · split
    · exact activateException_moves delivering free _
    · split_ifs
      · exact stops (fails _)
      · exact stops (fails _)
      · exact stopsPopped resumes

/-- A row has the wake mode of the copies of its lease. -/
theorem wakeMode_of_snapshot {row : WakeLease} (snapshot : world.Snapshot lease)
    (found : world.row lease.jobId = some row) : row.wakeMode = lease.wakeMode := by
  rcases snapshot with ⟨current, isCurrent, identity⟩
  rcases Option.some.inj (found.symm.trans isCurrent) with rfl
  exact congrArg (·.2.2.2.2.1) identity

theorem deliver_moves {await : DeliverAt} {input : Input} {stopped : World × Outcome}
    (resumed : Resumed world task (.deliver lease await) input)
    (goal : await = .start → input = .ready → lease.wakeMode = .goal)
    (goesOn : deliver (world.goOn task (.deliver lease await) input) task lease await input =
      some stopped) :
    Moves (some ⟨task, .deliver lease await, input⟩)
      (world.goOn task (.deliver lease await) input) (World.stop task stopped) := by
  have relies := resumed.now
  have delivering : Delivering _ task lease.jobId := resumed.delivering rfl
  have ofGoal (isGoal : lease.wakeMode = .goal) :
      DeliveringGoal (world.goOn task (.deliver lease await) input) task lease :=
    ⟨delivering, fun row found =>
      (wakeMode_of_snapshot (relies.snapshot lease rfl) found).trans isGoal⟩
  have isGoal (later : await ≠ .start) : lease.wakeMode = .goal :=
    relies.stage.2.1.resolve_left later
  unfold deliver at goesOn
  split at goesOn
  · rcases Option.some.inj goesOn with rfl
    exact deliverStart_moves (ofGoal (goal rfl rfl)) relies (goal rfl rfl)
  · rcases Option.some.inj goesOn with rfl
    exact firstRead_moves (ofGoal (isGoal (by simp))) relies (isGoal (by simp))
  · rcases Option.some.inj goesOn with rfl
    exact secondRead_moves (ofGoal (isGoal (by simp))) relies (isGoal (by simp))
  · split at goesOn
    · rcases Option.some.inj goesOn with rfl
      exact settle_read _ resumed.running
        (deliver_suspended relies (isGoal (by simp)) rfl (by simp) trivial) trivial rfl rfl
    · contradiction
  · dsimp only at goesOn
    split at goesOn
    · contradiction
    · rename_i free
      rcases Option.some.inj goesOn with rfl
      have unlocked : (world.goOn task (.deliver lease .lock) .ready).goalControls.get?
          lease.threadId = none := by simpa using free
      have locked : Moves (some ⟨task, .deliver lease .lock, .ready⟩)
          (world.goOn task (.deliver lease .lock) .ready)
          ((world.goOn task (.deliver lease .lock) .ready).lockGoal task lease.threadId) :=
        .single (.lockGoal task lease.threadId unlocked)
      refine locked.trans (settle_read (.deliver lease .read) resumed.running ?_ trivial
        rfl rfl)
      have bound := relies.toBound.log (.acquired task lease.threadId)
        fun _ isEvent => by cases isEvent
      exact { bound with
        goalLock := by
          intro thread holds
          rcases Option.some.inj holds with rfl
          exact Dict.get?_set_self _ _ _
        stage := ⟨relies.stage.1, .inr (isGoal (by simp)), (fun impossible => by cases impossible), [],
          ⟨_, rfl⟩, List.not_mem_nil⟩ }
  · rcases Option.some.inj goesOn with rfl
    rcases resumed.before.stage.2.2.2 with ⟨recent, inside⟩
    refine activateRead_moves (ofGoal (isGoal (by simp))) (resumed.goal_free rfl) relies
      (isGoal (by simp)) (.replied task lease.jobId .app (.threadRead lease.threadId) _ :: recent)
      ?_ List.mem_cons_self
    rw [World.goOn_trace rfl]
    exact inside.cons (by simp)
  · rcases Option.some.inj goesOn with rfl
    exact activateGoalGet_moves (ofGoal (isGoal (by simp))) (resumed.goal_free rfl) relies
      (isGoal (by simp))
  · rcases Option.some.inj goesOn with rfl
    exact activateSetActive_moves (ofGoal (isGoal (by simp))) (resumed.goal_free rfl) relies
  · rcases Option.some.inj goesOn with rfl
    refine Relation.ReflTransGen.tail (.single (.finish task resumed.running ?_))
      (.log _ trivial)
    intro undisturbed other row isTask found session live
    rcases delivering.listed other isTask with rfl
    have isSession := (wakeMode_of_snapshot (relies.snapshot lease rfl) found).symm.trans session
    exact relies.stage.2.2.1 rfl isSession undisturbed row found live
  · rcases Option.some.inj goesOn with rfl
    obtain ⟨moves, unlocked⟩ := (ofGoal (isGoal (by simp))).unlock
      (some ⟨task, .deliver lease .read, .cancelled⟩) (resumed.goal_free rfl)
    exact moves.trans (unlocked.ends trivial)
  · rcases Option.some.inj goesOn with rfl
    obtain ⟨moves, unlocked⟩ := (ofGoal (isGoal (by simp))).unlock
      (some ⟨task, .deliver lease .goalGet, .cancelled⟩) (resumed.goal_free rfl)
    exact moves.trans (unlocked.ends trivial)
  · rcases Option.some.inj goesOn with rfl
    obtain ⟨moves, unlocked⟩ := (ofGoal (isGoal (by simp))).unlock
      (some ⟨task, .deliver lease .setActive, .cancelled⟩) (resumed.goal_free rfl)
    exact moves.trans (unlocked.ends trivial)
  all_goals
    first
      | contradiction
      | (obtain rfl := Option.some.inj goesOn
         exact (ofGoal (isGoal (by simp))).ends trivial)

end Deliver

/-! ### Deadlines, notifications, recovery -/

theorem expireArmed_moves (origin : Option Origin) {lease : WakeLease} (handling : Handling world task)
    (goal : ∀ row, world.row lease.jobId = some row → row.wakeMode = .goal) :
    Moves origin world (expireArmed world lease.jobId) ∧
      Handling (expireArmed world lease.jobId) task := by
  unfold expireArmed
  split
  · rename_i current found
    split
    · exact ⟨.refl, handling⟩
    · rename_i armed
      simp only [not_or, not_not] at armed
      exact (terminate_moves handling found (goal current found) armed.1 _ _).1
  · exact ⟨.refl, handling⟩

theorem expireAtDeadline_moves {lease : WakeLease} (handling : Handling world task)
    (goal : ∀ row, world.row lease.jobId = some row → row.wakeMode = .goal) :
    Moves origin world (World.stop task (expireAtDeadline world lease)) := by
  rcases expireArmed_moves origin handling goal with ⟨moves, expired⟩
  have popped := moves.tail (.popDeadline lease.jobId)
  exact popped.trans ((expired.next (.single (.popDeadline lease.jobId) : Moves origin _ _) rfl
    rfl).ends trivial)

theorem goalUpdated_moves (inv : Inv world) (thread : ThreadId) (goal : Json) :
    Moves origin world (goalUpdated world thread goal) := by
  unfold goalUpdated
  split
  · exact .refl
  · split_ifs
    · exact .refl
    · exact .refl
    · exact abandonForManualChange_moves thread _ inv

theorem onNotification_moves (inv : Inv world) (method : String) (params : Json) :
    Moves origin world (onNotification world method params) := by
  unfold onNotification
  split
  · rename_i thread _
    split_ifs
    · exact .single (.internal _ _ _ _ _ _ _)
    · exact abandonForManualChange_moves thread _ inv
    · split
      · rename_i buffered
        split
        · exact abandonForManualChange_moves thread _ inv
        · exact .single (.setPause thread _ (.inl (by rw [buffered]; rfl)))
      · split
        · dsimp only
          split
          · exact .single (.internal _ _ _ _ _ _ _)
          · exact goalUpdated_moves inv thread _
        · exact goalUpdated_moves inv thread _
    · exact .refl
  · exact .refl

/-- Recovery of a live Goal lease when the coordinator has been started. -/
theorem recoverLease_moves {lease : WakeLease} (inv : Inv world)
    (found : world.row lease.jobId = some lease) (live : lease.isLive = true)
    (undelivered : lease.deliveryState = .activating → world.Undelivered lease.jobId) :
    Moves origin world (recoverLease world lease) := by
  have undecided := (inv.row_consistent found).not_isFinal live
  have fails (reason : String) :
      Moves origin world (world.update lease.jobId (needsManualRecovery reason)) :=
    .single (.update _ _ found (.fail reason (.inl live) fun _ => undelivered))
  unfold recoverLease
  split
  case h_1 abandoned => simp [abandoned, DeliveryState.isFinal] at undecided
  case h_2 resumed => simp [resumed, DeliveryState.isFinal] at undecided
  case h_3 failed => simp [failed, DeliveryState.isFinal] at undecided
  case h_4 => exact fails _
  case h_5 =>
    split_ifs with terminal
    · refine scheduleDelivery_moves found rfl ?_
      rw [terminal]
      exact le_refl _
    · exact scheduleDeadline_moves ⟨lease, found, rfl⟩
    · exact fails _

end GoalBridge

end Longrun.Bridge
