import Longrun.Bridge.Revocation

/-!
# External changes of a Goal

A notification about the Goal of an armed lease revokes the lease unless it reports the pause
itself or something older. Two tables come before the lease: the buffer of a registration, which is
gone when no registration of the thread waits for its pause, and the status that an activation
expects, which an activation that is not confirmed leaves behind.
-/

namespace Longrun.Bridge

variable {origin : Option Origin} {world after : World} {task : TaskId} {pc : Pc}
  {thread : ThreadId} {lease : WakeLease} {method : String} {params : Json}

/-! ### The buffers of registrations -/

/-- A registration of the thread waits for its pause. -/
def World.Pausing (world : World) (thread : ThreadId) : Prop :=
  ∃ task pc, world.At task pc ∧ pc.pauses = some thread

/-- A buffer belongs to a registration that waits for its pause. -/
def Buffered (world : World) : Prop :=
  ∀ thread, (world.pauseNotifications.get? thread).isSome = true → world.Pausing thread

/-- The coroutine is a Goal registration. -/
def Pc.preparesGoal : Pc → Bool
  | .prepareGoalGet _ | .prepareSetPaused _ _ _ | .prepareConfirm _ _ _ _ => true
  | _ => false

/-- A coroutine that is no Goal registration leaves the buffers of the others alone. -/
theorem Buffered.moves (buffered : Buffered world) (moves : Moves origin world after)
    (goesOn : ∀ task pc input, origin = some ⟨task, pc, input⟩ →
      world.At task pc ∧ pc.preparesGoal = false) : Buffered after := by
  have keeps : ∀ thread, (after.pauseNotifications.get? thread).isSome = true →
      (world.pauseNotifications.get? thread).isSome = true := by
    intro thread
    induction moves with
    | refl => exact id
    | tail _ move ih =>
        intro present
        apply ih
        cases move with
        | setPause other buffer allowed =>
            rcases allowed with present' | ⟨task, call, input, isOrigin, -⟩
            · rw [World.setPauseNotifications_pauseNotifications, Dict.get?_set] at present
              split at present
              · rename_i same
                exact same ▸ present'
              · exact present
            · cases (goesOn _ _ _ isOrigin).2
        | popPause other pauses =>
            rcases pauses with ⟨task, pc, input, isOrigin, pauses⟩
            have unprepared := (goesOn _ _ _ isOrigin).2
            cases pc <;> simp [Pc.pauses, Pc.preparesGoal] at pauses unprepared
        | _ => exact present
  intro thread present
  rcases buffered thread (keeps thread present) with ⟨task, pc, suspended, pauses⟩
  refine ⟨task, pc, moves.at_other suspended fun other input isOrigin => ?_, pauses⟩
  rcases goesOn _ _ _ isOrigin with ⟨suspended', unprepared⟩
  rcases TaskStatus.suspended.inj (Option.some.inj (suspended.symm.trans suspended')) with rfl
  cases pc <;> simp [Pc.pauses, Pc.preparesGoal] at pauses unprepared

@[simp]
theorem World.stop_pauseNotifications (task : TaskId) (stopped : World × Outcome) :
    (World.stop task stopped).pauseNotifications = stopped.1.pauseNotifications := by
  rcases stopped with ⟨world, outcome⟩
  cases outcome with
  | await pc =>
      rw [World.stop, World.settle, World.issue]
      split <;> rfl
  | done => rfl
  | fail => rfl

theorem World.stop_at {stopped : World × Outcome} (inside : task < stopped.1.tasks.length)
    (awaits : stopped.2 = .await pc) : (World.stop task stopped).At task pc := by
  rcases stopped with ⟨world, outcome⟩
  obtain rfl : outcome = .await pc := awaits
  rw [World.stop, World.settle, World.At, World.setTask_tasks, World.issue]
  split <;> exact List.getElem?_set_self inside

namespace World

variable (world : World) (lease : WakeLease)

@[simp]
theorem scheduleDelivery_pauseNotifications :
    (world.scheduleDelivery lease).pauseNotifications = world.pauseNotifications := by
  rcases world.scheduleDelivery_cases lease with same | ⟨spawned, -⟩
  · rw [same]
  · rw [spawned]
    rfl

@[simp]
theorem scheduleDeadline_pauseNotifications :
    (world.scheduleDeadline lease).pauseNotifications = world.pauseNotifications := by
  rcases world.scheduleDeadline_cases lease with same | spawned
  · rw [same]
  · rw [spawned]
    rfl

end World

namespace GoalBridge

@[simp]
theorem abandonPreparing_pauseNotifications (world : World) (job : JobId) (raised : Raised) :
    (abandonPreparing world job raised).pauseNotifications = world.pauseNotifications := by
  unfold abandonPreparing
  split
  · split <;> rfl
  · rfl

theorem prepareFailed_pauseNotifications (world : World) (call : PrepareCall) (raised : Raised) :
    (prepareFailed world call raised).1.pauseNotifications =
      world.pauseNotifications.pop call.threadId := by
  simp [prepareFailed]

/-- A registration that has read the Goal opens a buffer when it goes on to pause it. -/
theorem prepareRegister_buffer (world : World) (task : TaskId) (call : PrepareCall)
    (result : Except PyError Json) :
    (prepareRegister world task call result).1.pauseNotifications = world.pauseNotifications ∨
      ∃ lease updatedAt,
        (prepareRegister world task call result).2 = .await (.prepareSetPaused call lease updatedAt) ∧
        (prepareRegister world task call result).1.tasks = world.tasks ∧
        (prepareRegister world task call result).1.pauseNotifications =
          world.pauseNotifications.set call.threadId [] := by
  unfold prepareRegister
  split
  · exact .inl rfl
  · split
    · exact .inl rfl
    · rename_i created
      refine .inr ⟨_, _, rfl, ?_⟩
      rcases createLease_cases created with ⟨store, -, -, -, -, rfl⟩ | ⟨rfl, -, -⟩
      · exact ⟨rfl, rfl⟩
      · exact ⟨rfl, rfl⟩

/-- A registration with the answer to its pause waits on, or closes its buffer. -/
theorem preparePaused_buffer (world : World) (call : PrepareCall) (lease : WakeLease)
    (updatedAt : Int) (result : Except PyError Json) :
    (preparePaused world call lease updatedAt result).1.pauseNotifications =
        world.pauseNotifications.pop call.threadId ∨
      ∃ pausedUpdatedAt, preparePaused world call lease updatedAt result =
        (world, .await (.prepareConfirm call lease updatedAt pausedUpdatedAt)) := by
  unfold preparePaused
  split
  · exact .inl (prepareFailed_pauseNotifications _ _ _)
  · exact .inr ⟨_, rfl⟩

theorem prepareCommit_buffer (world : World) (call : PrepareCall) (lease : WakeLease)
    (updatedAt pausedUpdatedAt : Int) (result : Except PyError Json) :
    (prepareCommit world call lease updatedAt pausedUpdatedAt result).1.pauseNotifications =
      world.pauseNotifications.pop call.threadId := by
  unfold prepareCommit
  split
  · exact prepareFailed_pauseNotifications _ _ _
  · dsimp only
    split <;> simp

end GoalBridge

/-- A buffer that is there after a registration has gone on is its own, or another one's. -/
theorem Buffered.goesOn (buffered : Buffered world) (suspended : world.At task pc)
    (others : ∀ other pc, other ≠ task → world.At other pc → after.At other pc)
    (kept : ∀ thread, (after.pauseNotifications.get? thread).isSome = true →
      after.Pausing thread ∨
        ((world.pauseNotifications.get? thread).isSome = true ∧ pc.pauses ≠ some thread)) :
    Buffered after := by
  intro thread present
  rcases kept thread present with pausing | ⟨earlier, unpaused⟩
  · exact pausing
  · rcases buffered thread earlier with ⟨other, otherPc, suspended', pauses⟩
    refine ⟨other, otherPc, others other otherPc ?_ suspended', pauses⟩
    rintro rfl
    rcases TaskStatus.suspended.inj (Option.some.inj (suspended.symm.trans suspended')) with rfl
    exact unpaused pauses

theorem World.goOn_inside (suspended : world.At task pc) (input : Input) :
    task < (world.goOn task pc input).tasks.length := by
  rw [World.goOn_eq, List.length_set]
  exact suspended.lt_length

/-- A registration closes its buffer. -/
theorem kept_of_pop {call : PrepareCall} (pauses : pc.pauses = some call.threadId)
    (popped : after.pauseNotifications = world.pauseNotifications.pop call.threadId)
    (present : (after.pauseNotifications.get? thread).isSome = true) :
    (world.pauseNotifications.get? thread).isSome = true ∧ pc.pauses ≠ some thread := by
  rw [popped, Dict.get?_pop] at present
  split at present
  · contradiction
  · rename_i different
    refine ⟨present, fun same => different ?_⟩
    exact Option.some.inj (same.symm.trans pauses)

theorem Buffered.resume (reached : Reached world) (buffered : Buffered world)
    (suspended : world.At task pc) (prepares : pc.preparesGoal = true) {input : Input}
    (taken : step world (.resume task input) = some after) : Buffered after := by
  have others : ∀ other otherPc, other ≠ task → world.At other otherPc →
      after.At other otherPc := by
    intro other otherPc different suspended'
    cases progress reached.toInv taken with
    | moves moves =>
        refine moves.at_other suspended' fun _ _ isOrigin => different ?_
        rcases resumes_eq isOrigin with ⟨isAction, -⟩
        exact (Action.resume.inj isAction).1.symm
  rcases step_resume taken suspended with ⟨stopped, goesOn, rfl⟩
  refine buffered.goesOn suspended others fun thread present => ?_
  have inside := World.goOn_inside suspended input
  have buffers := world.goOn_pauseNotifications task pc input
  cases pc with
  | prepareGoalGet call =>
      cases input with
      | reply result =>
          rcases Option.some.inj goesOn with rfl
          rcases GoalBridge.prepareRegister_buffer _ task call result with
            same | ⟨lease, updatedAt, awaits, tasks, opened⟩
          · rw [World.stop_pauseNotifications, same, buffers] at present
            exact .inr ⟨present, fun impossible => by cases impossible⟩
          · rw [World.stop_pauseNotifications, opened, buffers, Dict.get?_set] at present
            split at present
            · rename_i same
              subst same
              exact .inl ⟨task, _, World.stop_at (tasks ▸ inside) awaits, rfl⟩
            · exact .inr ⟨present, fun impossible => by cases impossible⟩
      | cancelled =>
          rcases Option.some.inj goesOn with rfl
          rw [World.stop_pauseNotifications, buffers] at present
          exact .inr ⟨present, fun impossible => by cases impossible⟩
      | ready | timeout => contradiction
  | prepareSetPaused call lease updatedAt =>
      cases input with
      | reply result =>
          rcases Option.some.inj goesOn with rfl
          rcases GoalBridge.preparePaused_buffer _ call lease updatedAt result with
            popped | ⟨pausedUpdatedAt, waits⟩
          · rw [buffers] at popped
            exact .inr (kept_of_pop rfl ((World.stop_pauseNotifications _ _).trans popped) present)
          · by_cases same : thread = call.threadId
            · refine .inl ⟨task, _, World.stop_at (by rw [waits]; exact inside) (by rw [waits]), ?_⟩
              exact congrArg some same.symm
            · rw [World.stop_pauseNotifications, waits, buffers] at present
              exact .inr ⟨present, fun pauses => same (Option.some.inj pauses).symm⟩
      | cancelled =>
          rcases Option.some.inj goesOn with rfl
          have popped := GoalBridge.prepareFailed_pauseNotifications
            (world.goOn task (.prepareSetPaused call lease updatedAt) .cancelled) call .cancelled
          rw [buffers] at popped
          exact .inr (kept_of_pop rfl ((World.stop_pauseNotifications _ _).trans popped) present)
      | ready | timeout => contradiction
  | prepareConfirm call lease updatedAt pausedUpdatedAt =>
      cases input with
      | reply result =>
          rcases Option.some.inj goesOn with rfl
          have popped := GoalBridge.prepareCommit_buffer
            (world.goOn task (.prepareConfirm call lease updatedAt pausedUpdatedAt)
              (.reply result)) call lease updatedAt pausedUpdatedAt result
          rw [buffers] at popped
          exact .inr (kept_of_pop rfl ((World.stop_pauseNotifications _ _).trans popped) present)
      | cancelled =>
          rcases Option.some.inj goesOn with rfl
          have popped := GoalBridge.prepareFailed_pauseNotifications
            (world.goOn task (.prepareConfirm call lease updatedAt pausedUpdatedAt) .cancelled) call
            .cancelled
          rw [buffers] at popped
          exact .inr (kept_of_pop rfl ((World.stop_pauseNotifications _ _).trans popped) present)
      | ready | timeout => contradiction
  | _ => contradiction

theorem Buffered.step (reached : Reached world) (buffered : Buffered world) {action : Action}
    (taken : step world action = some after) : Buffered after := by
  by_cases registers : ∃ task pc input, world.resumes action = some ⟨task, pc, input⟩ ∧
      pc.preparesGoal = true
  · rcases registers with ⟨task, pc, input, isOrigin, prepares⟩
    rcases resumes_eq isOrigin with ⟨rfl, suspended⟩
    exact buffered.resume reached suspended prepares taken
  · cases progress reached.toInv taken with
    | moves moves =>
        have entered : Buffered (world.entered action) := by
          intro thread present
          have present' : (world.pauseNotifications.get? thread).isSome = true := by
            cases action <;> exact present
          rcases buffered thread present' with ⟨task, pc, suspended, pauses⟩
          exact ⟨task, pc, suspended.entered action, pauses⟩
        refine entered.moves moves fun task pc input isOrigin => ?_
        rcases resumes_eq isOrigin with ⟨rfl, suspended⟩
        refine ⟨suspended, Bool.eq_false_iff.mpr fun prepares => ?_⟩
        exact registers ⟨task, pc, input, isOrigin, prepares⟩
    | crash => exact fun thread present => by cases present
    | connect => exact buffered
    | start connecting =>
        have away : world.phase ≠ .serving := by rw [connecting]; decide
        rcases (reached.toInv.recovering (reached.offline away)).all none with ⟨moves, -⟩
        have recovered := buffered.moves moves fun _ _ _ isOrigin => by cases isOrigin
        exact recovered

theorem buffered (reachable : coordinator.Reachable world) : Buffered world := by
  refine reachable.invariant_of_reachable (fun thread present => by cases present) ?_
  intro state action next reachable buffered _ taken
  exact buffered.step (reached_of_reachable reachable) taken

/-! ### The notifications that revoke an armed lease -/

/-- A notification about the thread of a lease: the Goal is cleared, or it is neither the pause that
the lease confirmed nor an older revision of the same Goal. -/
inductive ExternalChange (lease : WakeLease) : String → Json → Prop where
  | cleared (params : Json) : params.get "threadId" = .str lease.threadId →
      ExternalChange lease "thread/goal/cleared" params
  | updated (params : Json) : params.get "threadId" = .str lease.threadId →
      (params.get "goal").isDict = true →
      pausedAt lease lease.goalUpdatedAt (params.get "goal") = false →
      ¬(sameGoal lease (params.get "goal") = true ∧
        ((params.get "goal").get "updatedAt").exactInt?.any (· < lease.goalUpdatedAt) = true) →
      ExternalChange lease "thread/goal/updated" params

/-- The thread on which a coroutine awaits the activation of its Goal. -/
def Pc.activates : Pc → Option ThreadId
  | .deliver lease .setActive => some lease.threadId
  | _ => none

/-- No registration of the thread waits for its pause, and no activation is in flight on it. -/
def World.Quiet (world : World) (thread : ThreadId) : Prop :=
  ∀ task pc, world.At task pc → pc.pauses ≠ some thread ∧ pc.activates ≠ some thread

/-- The notification is taken for the one that an activation of the thread expects. -/
def World.Expects (world : World) (thread : ThreadId) (method : String) (params : Json) : Prop :=
  method = "thread/goal/updated" ∧ ∃ status updatedAt,
    world.expectedGoalStatus.get? thread = some (status, updatedAt) ∧
      ((params.get "goal").get "status").isStr status = true ∧
      updatedAt.all ((params.get "goal").get "updatedAt").isInt = true

/-- The notification of a Goal lease's thread is handled by the Goal bridge. -/
theorem onNotification_goal {threadId : ThreadId} (isThread : params.get "threadId" = .str threadId)
    (isLease : world.store.liveForThread threadId = some lease) (goal : lease.wakeMode = .goal) :
    SessionBridge.onNotification world method params =
      GoalBridge.onNotification world method params := by
  simp [SessionBridge.onNotification, isThread, isLease, goal]

/-- The update of a Goal that no registration buffers. -/
theorem goalNotification_eq {threadId : ThreadId}
    (isThread : params.get "threadId" = .str threadId)
    (isGoal : (params.get "goal").isDict = true)
    (unbuffered : world.pauseNotifications.get? threadId = none) :
    (world.Expects threadId "thread/goal/updated" params ∧
        GoalBridge.onNotification world "thread/goal/updated" params = world.popExpected threadId) ∨
      (¬world.Expects threadId "thread/goal/updated" params ∧
        GoalBridge.onNotification world "thread/goal/updated" params =
          GoalBridge.goalUpdated world threadId (params.get "goal")) := by
  cases expected : world.expectedGoalStatus.get? threadId with
  | none =>
      refine .inr ⟨?_, ?_⟩
      · rintro ⟨-, status, updatedAt, isExpected, -⟩
        cases expected.symm.trans isExpected
      · simp [GoalBridge.onNotification, isThread, isGoal, unbuffered, expected]
  | some entry =>
      rcases entry with ⟨status, updatedAt⟩
      by_cases expects : ((params.get "goal").get "status").isStr status = true ∧
          updatedAt.all ((params.get "goal").get "updatedAt").isInt = true
      · refine .inl ⟨⟨rfl, status, updatedAt, expected, expects⟩, ?_⟩
        simp [GoalBridge.onNotification, isThread, isGoal, unbuffered, expected, expects]
      · refine .inr ⟨?_, ?_⟩
        · rintro ⟨-, _, _, isExpected, expects'⟩
          rcases Prod.mk.inj (Option.some.inj (expected.symm.trans isExpected)) with ⟨rfl, rfl⟩
          exact expects expects'
        · simp only [GoalBridge.onNotification, isThread, isGoal, unbuffered, expected, expects,
            if_false]
          simp

/-- An external change of the Goal of an armed lease revokes it, unless the notification is the one
that an earlier activation of the thread still expects. -/
theorem externalChange_revokes_iff (reachable : coordinator.Reachable world)
    (found : world.row lease.jobId = some lease) (goal : lease.wakeMode = .goal)
    (armed : lease.state = .armed) (quiet : world.Quiet lease.threadId)
    (change : ExternalChange lease method params)
    (taken : step world (.notification method params) = some after) :
    (∃ row, after.row lease.jobId = some row ∧ row.state = .abandoned) ↔
      ¬world.Expects lease.threadId method params := by
  have inv := (reached_of_reachable reachable).toInv
  have live := WakeLease.isLive_of_armed armed
  have isLease : world.store.liveForThread lease.threadId = some lease :=
    BridgeState.liveForThread_eq_some_iff.mpr ⟨found, rfl, live⟩
  have unbuffered : world.pauseNotifications.get? lease.threadId = none := by
    by_contra present
    rcases buffered reachable lease.threadId (Option.isSome_iff_ne_none.mpr present) with
      ⟨task, pc, suspended, pauses⟩
    exact (quiet task pc suspended).1 pauses
  have revokes (reason : String) : ∃ row,
      (abandonForManualChange world lease.threadId reason).row lease.jobId = some row ∧
        row.state = .abandoned := by
    rcases abandonForManualChange_row lease.threadId reason found with
      ⟨-, abandoned⟩ | ⟨spared, -⟩
    · exact ⟨_, abandoned, rfl⟩
    · have pending := (inv.row_consistent found).not_activating_of_armed armed
      exact absurd ⟨rfl, live, pending⟩ spared
  obtain ⟨-, rfl⟩ := by simpa [step] using taken
  cases change with
  | cleared _ isThread =>
      have revoked : GoalBridge.onNotification world "thread/goal/cleared" params =
          abandonForManualChange world lease.threadId "Goal was cleared" := by
        simp [GoalBridge.onNotification, isThread]
      rw [onNotification_goal isThread isLease goal, revoked]
      exact iff_of_true (revokes _) fun expects => absurd expects.1 (by simp)
  | updated _ isThread isGoal unpaused newer =>
      rw [onNotification_goal isThread isLease goal]
      rcases goalNotification_eq isThread isGoal unbuffered with
        ⟨expects, popped⟩ | ⟨unexpected, updated⟩
      · -- The notification only takes the expected status out of the table.
        rw [popped]
        refine iff_of_false ?_ fun unexpected => unexpected expects
        rintro ⟨row, isRow, abandoned⟩
        rcases Option.some.inj (found.symm.trans isRow) with rfl
        rw [armed] at abandoned
        contradiction
      · have revoked : GoalBridge.goalUpdated world lease.threadId (params.get "goal") =
            abandonForManualChange world lease.threadId "Goal was changed outside the bridge" := by
          simp only [GoalBridge.goalUpdated, isLease, newer, unpaused]
          simp
        rw [updated, revoked]
        exact iff_of_true (revokes _) unexpected

/-- The check that a thread is quiet. -/
def isQuiet (world : World) (thread : ThreadId) : Bool :=
  world.tasks.all fun status => match status with
    | .suspended pc => pc.pauses ≠ some thread && pc.activates ≠ some thread
    | _ => true

theorem quiet_of_isQuiet (isQuiet : isQuiet world thread = true) : world.Quiet thread := by
  intro task pc suspended
  have mem := List.mem_of_getElem? suspended
  simpa using List.all_eq_true.mp isQuiet _ mem

/-- A job of the quiet thread is armed at the revision of its pause. -/
def armedQuietly (job : JobId) (world : World) : Bool :=
  isQuiet world Scenario.thread && (world.row job).any fun row =>
    row.state = .armed && row.wakeMode = .goal && row.threadId = Scenario.thread &&
      row.goalUpdatedAt = 8

/-- The user resumes the Goal after the pause. -/
theorem externalChange_active {row : WakeLease} (isThread : row.threadId = Scenario.thread)
    (revision : row.goalUpdatedAt = 8) :
    ExternalChange row "thread/goal/updated"
      (.obj [("threadId", .str Scenario.thread), ("goal", Scenario.goalFields "active" 9)]) := by
  have isGoal : (Json.obj [("threadId", .str Scenario.thread),
      ("goal", Scenario.goalFields "active" 9)]).get "goal" = Scenario.goalFields "active" 9 := rfl
  have status : (Scenario.goalFields "active" 9).get "status" = .str "active" := rfl
  have updatedAt : (Scenario.goalFields "active" 9).get "updatedAt" = .int 9 := rfl
  refine .updated _ (isThread ▸ rfl) rfl ?_ ?_
  · simp [isGoal, pausedAt, status, Json.isStr, Json.str?]
  · simp [isGoal, updatedAt, Json.exactInt?, revision]

theorem exists_externalChange {actions : List Action} {job : JobId}
    {property : World → WakeLease → Bool}
    (ran : (coordinator.run World.initial actions).any (fun world => armedQuietly job world &&
      (step world (Scenario.goalUpdated "active" 9)).any fun after =>
        (after.row job).any (property world)) = true) :
    ∃ world lease after row, coordinator.Reachable world ∧ lease.jobId = job ∧
      world.row lease.jobId = some lease ∧ lease.wakeMode = .goal ∧ lease.state = .armed ∧
      world.Quiet lease.threadId ∧ lease.threadId = Scenario.thread ∧
      ExternalChange lease "thread/goal/updated"
        (.obj [("threadId", .str Scenario.thread), ("goal", Scenario.goalFields "active" 9)]) ∧
      step world (Scenario.goalUpdated "active" 9) = some after ∧
      after.row job = some row ∧ property world row = true := by
  rcases System.exists_reachable_of_run ran with ⟨world, reachable, holds⟩
  rcases Bool.and_eq_true_iff.mp holds with ⟨armedQuietly, steps⟩
  rcases Bool.and_eq_true_iff.mp armedQuietly with ⟨quiet, isArmed⟩
  rcases (Option.any_eq_true _ _).mp isArmed with ⟨lease, found, checks⟩
  rcases (Option.any_eq_true _ _).mp steps with ⟨after, taken, rows⟩
  rcases (Option.any_eq_true _ _).mp rows with ⟨row, isRow, holds⟩
  obtain ⟨⟨⟨armed, goal⟩, isThread⟩, revision⟩ := by simpa using checks
  have sameJob := BridgeState.jobId_of_get found
  exact ⟨world, lease, after, row, reachable, sameJob, sameJob ▸ found, goal, armed,
    isThread ▸ quiet_of_isQuiet quiet, isThread, externalChange_active isThread revision, taken,
    isRow, holds⟩

/-- An activation that was not confirmed leaves its expected status behind, and the next job of the
thread misses that the user resumes the Goal. -/
theorem externalChange_missed : ∃ world lease after row, coordinator.Reachable world ∧
    world.row lease.jobId = some lease ∧ lease.wakeMode = .goal ∧ lease.state = .armed ∧
    world.Quiet lease.threadId ∧
    ExternalChange lease "thread/goal/updated"
      (.obj [("threadId", .str Scenario.thread), ("goal", Scenario.goalFields "active" 9)]) ∧
    step world (Scenario.goalUpdated "active" 9) = some after ∧
    after.row lease.jobId = some row ∧ row.state = .armed := by
  have ran : (coordinator.run World.initial (Scenario.startUp ++
      Scenario.armGoal Scenario.firstJob 0 ++ [Scenario.terminal Scenario.firstJob "succeeded"] ++
        Scenario.activateGoal 3 ++ [Scenario.reply 3 (Scenario.goal "paused" 8)] ++
        Scenario.armGoal Scenario.secondJob 4)).any (fun world =>
      armedQuietly Scenario.secondJob world &&
      (step world (Scenario.goalUpdated "active" 9)).any fun after =>
        (after.row Scenario.secondJob).any fun row => row.state = .armed) = true := by
    decide +kernel
  rcases exists_externalChange ran with
    ⟨world, lease, after, row, reachable, isJob, found, goal, armed, quiet, -, change, taken, isRow,
      still⟩
  exact ⟨world, lease, after, row, reachable, found, goal, armed, quiet, change, taken,
    isJob ▸ isRow, of_decide_eq_true still⟩

/-- The job is revoked by the notification, which no activation expects. -/
theorem externalChange_revokes_iff_active : ∃ (world : World) (lease : WakeLease) (after : World),
    step world (Scenario.goalUpdated "active" 9) = some after ∧
    ((∃ row, after.row lease.jobId = some row ∧ row.state = .abandoned) ↔
      ¬world.Expects lease.threadId "thread/goal/updated"
        (.obj [("threadId", .str Scenario.thread), ("goal", Scenario.goalFields "active" 9)])) ∧
    ∃ row, after.row lease.jobId = some row ∧ row.state = .abandoned := by
  have ran : (coordinator.run World.initial (Scenario.startUp ++
      Scenario.armGoal Scenario.firstJob 0)).any (fun world =>
      armedQuietly Scenario.firstJob world &&
      (step world (Scenario.goalUpdated "active" 9)).any fun after =>
        (after.row Scenario.firstJob).any fun row => row.state = .abandoned) = true := by
    decide +kernel
  rcases exists_externalChange ran with
    ⟨world, lease, after, row, reachable, isJob, found, goal, armed, quiet, -, change, taken, isRow,
      abandoned⟩
  exact ⟨world, lease, after, taken,
    externalChange_revokes_iff reachable found goal armed quiet change taken,
    row, isJob ▸ isRow, of_decide_eq_true abandoned⟩

end Longrun.Bridge
