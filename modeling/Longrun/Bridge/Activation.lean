import Longrun.Bridge.Scenario

/-!
# The activation of a Goal

The bridge resumes a paused Goal at most once per job, after reading it under the lock of its
thread. A user who controls the Goal gets in before the activation or waits for its end.
-/

namespace Longrun.Bridge

variable {origin : Option Origin} {world after : World} {task : TaskId} {job : JobId}
  {lease : WakeLease} {result : Except PyError Json}

/-! ### The last checks -/

namespace GoalBridge

theorem deliverReturn_trace (world : World) (lease : WakeLease) :
    (World.stop task (deliverReturn world lease)).trace =
      .ended task (.ok .null) :: world.trace := rfl

theorem failDelivery_trace (world : World) (job : JobId) (error : PyError) :
    (failDelivery world job error).trace = world.trace := by
  unfold failDelivery
  split
  · split <;> rfl
  · rfl

theorem activateReturn_trace (world : World) (lease : WakeLease) :
    (World.stop task (activateReturn world task lease)).trace =
      .ended task (.ok .null) :: .released task lease.threadId :: world.trace := rfl

theorem activateException_trace (world : World) (lease : WakeLease) (error : PyError) :
    (World.stop task (activateException world task lease error)).trace =
      .ended task (.ok .null) :: .released task lease.threadId :: world.trace := by
  rw [activateException, deliverException, deliverReturn_trace, failDelivery_trace]
  rfl

/-- A Goal without an obstacle is the paused Goal of the lease at its revision. -/
theorem pausedAt_of_activationObstacle {current : WakeLease} {goal : Json}
    (free : activationObstacle lease current goal = none) :
    pausedAt lease current.goalUpdatedAt goal = true := by
  unfold activationObstacle at free
  split_ifs at free with same active paused revision
  simp [pausedAt, same, paused, revision]

/-- The Goal read under the lock ends the delivery, or the Goal is activated. -/
theorem activateGoalGet_cases (world : World) (task : TaskId) (lease : WakeLease)
    (result : Except PyError Json) :
    (World.stop task (activateGoalGet world task lease result)).trace =
        .ended task (.ok .null) :: .released task lease.threadId :: world.trace ∨
      ∃ goal current, result.bind goalFromResult = .ok goal ∧
        world.row lease.jobId = some current ∧ current.state = .terminal ∧
        pausedAt lease current.goalUpdatedAt goal = true ∧
        activateGoalGet world task lease result =
          ((world.update lease.jobId { deliveryState := some .activating }).setExpected
            lease.threadId ("active", none), .await (.deliver lease .setActive)) := by
  unfold activateGoalGet
  split
  · exact .inl (activateException_trace _ _ _)
  · rename_i goal isGoal
    split
    · exact .inl (activateReturn_trace _ _)
    · rename_i current found
      split
      · exact .inl (activateReturn_trace _ _)
      · rename_i waiting
        simp only [not_or, not_not] at waiting
        split
        · exact .inl (activateReturn_trace _ _)
        · rename_i free
          exact .inr ⟨goal, current, isGoal, found, waiting.1,
            pausedAt_of_activationObstacle free, rfl⟩

end GoalBridge

/-! ### What an activation rests on -/

/-- The columns that identify a Goal decide whether a Goal is the lease's. -/
theorem sameGoal_congr {left right : WakeLease} (identity : left.identity = right.identity)
    (goal : Json) : sameGoal left goal = sameGoal right goal := by
  simp only [WakeLease.identity, Prod.mk.injEq] at identity
  simp [sameGoal, identity]

theorem IdleRead.congr {events : List Event} {left right : WakeLease}
    (read : IdleRead events task left) (identity : left.identity = right.identity) :
    IdleRead events task right := by
  simp only [WakeLease.identity, Prod.mk.injEq] at identity
  simpa [IdleRead, identity] using read

theorem PausedRead.congr {events : List Event} {left right : WakeLease} {revision : Int}
    (read : PausedRead events task left revision) (identity : left.identity = right.identity) :
    PausedRead events task right revision := by
  rcases read with ⟨result, goal, mem, isGoal, paused⟩
  simp only [pausedAt, sameGoal_congr identity] at paused
  simp only [WakeLease.identity, Prod.mk.injEq] at identity
  rw [identity.1, identity.2.1] at mem
  exact ⟨result, goal, mem, isGoal, paused⟩

/-- An activation that was just sent: the row is terminal and activating, and the reads in the same
critical section showed the thread idle and the Goal paused at the revision that the App Server
had confirmed. -/
structure ActivationSent (after : World) (job : JobId) (event : Event) (older : List Event)
    (row : WakeLease) (recent : List Event) (task : TaskId) : Prop where
  isRow : after.row job = some row
  terminal : row.state = .terminal
  activating : row.deliveryState = .activating
  last : after.trace = event :: older
  isEvent : event = .sent task job .app (.goalSet row.threadId "active")
  section_ : InSection older task row.threadId recent
  idle : IdleRead recent task row
  paused : PausedRead recent task row row.goalUpdatedAt
  confirmed : PauseConfirmed older row

/-- A step that sends an activation has made sure of all this. -/
theorem Reached.activationSent (reached : Reached world) {action : Action}
    (taken : step world action = some after) {newer : List Event}
    (isNewer : after.trace = newer ++ world.trace) {event : Event} (mem : event ∈ newer)
    (sends : event.sends job Rpc.isActivation = true) :
    ∃ older row recent task, ActivationSent after job event older row recent task := by
  have old : event.isStarted = false := by
    cases event <;> simp_all [Event.sends, Event.isStarted]
  rcases reached.announces taken isNewer mem old with ⟨before, -, -, announced⟩
  rcases announced.of_activation sends with
    ⟨-, -, -, -, task, lease, result, rfl, isEvent, isOrigin⟩
  rcases resumes_eq isOrigin with ⟨rfl, suspended⟩
  rcases step_resume taken suspended with ⟨stopped, goesOn, rfl⟩
  have resumed : Resumed world task (.deliver lease .goalGet) (.reply result) :=
    ⟨reached.toInv, suspended⟩
  have awaits : (Pc.deliver lease .goalGet).awaits =
    some (lease.jobId, .app, .goalGet lease.threadId) := rfl
  have replied : (world.goOn task (.deliver lease .goalGet) (.reply result)).trace =
      .replied task lease.jobId .app (.goalGet lease.threadId) result :: world.trace :=
    World.goOn_trace awaits result
  obtain rfl : GoalBridge.activateGoalGet
      (world.goOn task (.deliver lease .goalGet) (.reply result)) task lease result = stopped :=
    Option.some.inj goesOn
  rcases GoalBridge.activateGoalGet_cases
      (world.goOn task (.deliver lease .goalGet) (.reply result)) task lease result with
    given | ⟨goal, current, isGoal, found, terminal, paused, activates⟩
  · -- The delivery has ended, so the step sends nothing.
    rw [given, replied] at isNewer
    have only : newer = [.ended task (.ok .null), .released task lease.threadId,
        .replied task lease.jobId .app (.goalGet lease.threadId) result] :=
      List.append_cancel_right isNewer.symm
    simp [only, isEvent] at mem
  · rw [World.goOn_row] at found
    have given : (World.stop task (GoalBridge.activateGoalGet
        (world.goOn task (.deliver lease .goalGet) (.reply result)) task lease result)).trace =
          event :: .replied task lease.jobId .app (.goalGet lease.threadId) result ::
            world.trace := by
      rw [activates, isEvent, ← replied]
      rfl
    have later : current.Later (LeaseUpdate.apply { deliveryState := some .activating } current) :=
      ⟨rfl, le_refl _⟩
    have isAfter : (World.stop task (GoalBridge.activateGoalGet
        (world.goOn task (.deliver lease .goalGet) (.reply result)) task lease result)).row
          lease.jobId =
        some (LeaseUpdate.apply { deliveryState := some .activating } current) := by
      rw [World.stop_row, activates]
      exact World.row_update_self ((World.goOn_row _ _ _ _ _).trans found) later
    have identity : lease.identity = current.identity := by
      rcases resumed.before.snapshot lease rfl with ⟨row, isRow, identity⟩
      rw [Option.some.inj (found.symm.trans isRow), identity]
    have threadId : current.threadId = lease.threadId := (congrArg (·.2.1) identity).symm
    have goal_ := GoalBridge.wakeMode_of_snapshot (resumed.before.snapshot lease rfl) found
    rcases resumed.before.stage with ⟨-, isGoalLease, -, recent, inside, idle⟩
    rcases bind_eq_ok.mp isGoal with ⟨answer, rfl, isAnswer⟩
    refine ⟨_, _, .replied task lease.jobId .app (.goalGet lease.threadId) (.ok answer) :: recent,
      task, isAfter, terminal, rfl, given, ?_, ?_, ?_, ?_, ?_⟩
    · rw [isEvent, LeaseUpdate.apply_threadId, threadId]
    · rw [LeaseUpdate.apply_threadId, threadId]
      exact inside.cons (by simp)
    · exact (idle.congr identity).cons _
    · refine PausedRead.congr ?_ identity
      exact ⟨answer, goal, List.mem_cons_self, isAnswer, paused⟩
    · have mode : current.wakeMode = .goal :=
        goal_.trans (isGoalLease.resolve_left (by simp))
      exact (((reached.toInv.jobs _).confirmed current found mode (.inr terminal)).congr rfl
        rfl).cons _

/-- A Goal is activated at most once per job, and only with the reads that the activation rests
on. -/
theorem activation_sent_once (reachable : coordinator.Reachable world) :
    (∀ job, world.trace.countP (·.sends job Rpc.isActivation) ≤ 1) ∧
      ∀ action after newer event job, step world action = some after →
        after.trace = newer ++ world.trace → event ∈ newer →
        event.sends job Rpc.isActivation = true →
        ∃ older row recent task, ActivationSent after job event older row recent task := by
  have reached := reached_of_reachable reachable
  refine ⟨fun job => (reached.jobs job).activatedOnce, ?_⟩
  intro action after newer event job taken isNewer mem sends
  exact reached.activationSent taken isNewer mem sends

/-- A Goal job from its registration to the read before its activation. -/
def goalReadRun : List Action :=
  Scenario.startUp ++ Scenario.armGoal Scenario.firstJob 0 ++
    [Scenario.terminal Scenario.firstJob "succeeded"] ++ (Scenario.activateGoal 3).take 4

/-- The answer to the read activates the Goal of a job. -/
def readActivates (world : World) (job : JobId) : Bool :=
  (step world (Scenario.reply 3 (Scenario.goal "paused" 8))).any fun after =>
    world.trace.length < after.trace.length &&
      after.trace.head?.any (·.sends job Rpc.isActivation)

theorem activation_sent_once_goalRead : ∃ world action after event,
    step world action = some after ∧ after.trace.head? = some event ∧
    ∃ older row recent task,
      ActivationSent after Scenario.firstJob event older row recent task := by
  have ran : (coordinator.run World.initial goalReadRun).any
      (readActivates · Scenario.firstJob) = true := by decide +kernel
  rcases System.exists_reachable_of_run ran with ⟨world, reachable, activates⟩
  rcases (Option.any_eq_true _ _).mp activates with ⟨after, taken, activates⟩
  rcases Bool.and_eq_true_iff.mp activates with ⟨longer, isHead⟩
  rcases (Option.any_eq_true _ _).mp isHead with ⟨event, isHead, sends⟩
  have grows : world.trace <:+ after.trace := (reached_of_reachable reachable).trace_grows taken
  rcases exists_newer grows isHead (by simpa using longer) with ⟨newer, isNewer, mem⟩
  exact ⟨world, _, after, event, taken, isHead,
    (activation_sent_once reachable).2 _ after newer event _ taken isNewer mem sends⟩

/-! ### User control -/

/-- A user control of a thread comes before the activation of a Goal job that is registered by then,
or after it. -/
def ControlWins (job : JobId) (store : BridgeState) (trace : List Event) : Prop :=
  ∀ newer older task thread row, trace = newer ++ .controlEntered task thread :: older →
    (∃ registrar, .registered registrar job ∈ older) →
    older.countP (·.sends job Rpc.isActivation) = 0 →
    store.get job = some row → row.threadId = thread → row.wakeMode = .goal →
    row.isLive = false ∧ newer.countP (·.sends job Rpc.isActivation) = 0

theorem ControlWins.move (inv : Inv world) (rows : RegisteredRows world.store world.trace)
    (wins : ControlWins job world.store world.trace) (move : Move origin world after) :
    ControlWins job after.store after.trace := by
  intro newer older task thread row isTrace registered unsent found isThread goal
  rcases registered with ⟨registrar, registered⟩
  -- The row was there before the move.
  have earlier (mem : .registered registrar job ∈ world.trace) : ∃ before,
      world.row job = some before ∧ before.threadId = thread ∧ before.wakeMode = .goal ∧
        (row.isLive = true → before.isLive = true) := by
    rcases rows registrar job mem with ⟨before, isBefore⟩
    rcases move.row_later isBefore with ⟨current, isCurrent, later⟩
    rcases Option.some.inj (found.symm.trans isCurrent) with rfl
    exact ⟨before, isBefore, later.threadId.symm.trans isThread, later.wakeMode.symm.trans goal,
      later.live⟩
  have settles {before : WakeLease} (settled : before.isLive = false)
      (live : row.isLive = true → before.isLive = true) : row.isLive = false := by
    cases isLive : row.isLive with
    | false => rfl
    | true => exact absurd (live isLive) (by simp [settled])
  rcases move.announces inv with unchanged | ⟨event, isEvent, announced⟩
  · rw [unchanged] at isTrace
    rcases earlier (by simp [isTrace, registered]) with ⟨before, isBefore, thread_, goal_, live⟩
    rcases wins newer older task thread before isTrace ⟨registrar, registered⟩ unsent isBefore
      thread_ goal_ with ⟨settled, none⟩
    exact ⟨settles settled live, none⟩
  · rw [isEvent] at isTrace
    cases newer with
    | nil =>
        rcases List.cons.inj isTrace with ⟨rfl, rfl⟩
        rcases earlier registered with ⟨before, isBefore, thread_, goal_, live⟩
        have revoked : world.Revoked thread := by
          cases announced with
          | loggable loggable => exact loggable
        refine ⟨?_, rfl⟩
        cases isLive : row.isLive with
        | false => rfl
        | true =>
            have activating := revoked job before isBefore thread_ (live isLive)
            have sent := (inv.jobs job).activating before isBefore goal_ activating
            rw [unsent] at sent
            contradiction
    | cons first newer =>
        rcases List.cons.inj isTrace with ⟨rfl, isOld⟩
        rcases earlier (by simp [isOld, registered]) with ⟨before, isBefore, thread_, goal_, live⟩
        rcases wins newer older task thread before isOld ⟨registrar, registered⟩ unsent isBefore
          thread_ goal_ with ⟨settled, none⟩
        refine ⟨settles settled live, ?_⟩
        rw [List.countP_cons, none]
        cases sends : event.sends job Rpc.isActivation with
        | false => rfl
        | true =>
            rcases announced.of_activation sends with ⟨current, isCurrent, -, terminal, -⟩
            rcases Option.some.inj (isBefore.symm.trans isCurrent) with rfl
            rw [WakeLease.isLive_of_terminal terminal] at settled
            contradiction

/-- The user's control of a thread wins over a Goal activation that was not sent yet, and waits for
one that is in flight. -/
theorem control_wins (reachable : coordinator.Reachable world) :
    (∀ job, ControlWins job world.store world.trace) ∧
      ∀ client peer thread task lease,
        world.At client (.client peer (.controlOperation thread)) →
        world.At task (.deliver lease .setActive) → lease.threadId ≠ thread := by
  constructor
  · intro job
    have both : RegisteredRows world.store world.trace ∧
        ControlWins job world.store world.trace := by
      refine durable (fun store trace => RegisteredRows store trace ∧ ControlWins job store trace)
        reachable ⟨fun _ _ => (fun impossible => by cases impossible), ?_⟩ ?_ ?_
      · intro newer older task thread row isTrace
        simp at isTrace
      · rintro store trace ⟨rows, wins⟩
        refine ⟨rows.started, ?_⟩
        intro newer older task thread row isTrace registered unsent found isThread goal
        cases newer with
        | nil => simp at isTrace
        | cons first newer =>
            rcases List.cons.inj isTrace with ⟨rfl, isOld⟩
            exact (wins newer older task thread row isOld registered unsent found isThread
              goal).imp_right fun none => (List.countP_cons ..).trans none
      · rintro _ _ before after - - inv ⟨rows, wins⟩ move
        exact ⟨rows.move inv move, wins.move inv rows move⟩
    exact both.2
  · rintro client peer thread task lease isClient isDelivery rfl
    have inv := (reached_of_reachable reachable).toInv
    have clientLock := (inv.suspended client _ isClient).goalLock lease.threadId rfl
    have deliveryLock := (inv.suspended task _ isDelivery).goalLock lease.threadId rfl
    rcases Option.some.inj (clientLock.symm.trans deliveryLock) with rfl
    cases TaskStatus.suspended.inj (Option.some.inj (isClient.symm.trans isDelivery))

/-- A task runs the operation of a Goal control of the thread. -/
def operates (world : World) (task : TaskId) (peer : PeerId) : Bool :=
  match world.tasks[task]? with
  | some (.suspended (.client owner (.controlOperation thread))) =>
      owner = peer && thread = Scenario.thread
  | _ => false

theorem at_of_operates {peer : PeerId} (runs : operates world task peer = true) :
    world.At task (.client peer (.controlOperation Scenario.thread)) := by
  unfold operates at runs
  split at runs
  · rename_i owner thread suspended
    obtain ⟨rfl, rfl⟩ := by simpa using runs
    exact suspended
  · contradiction

theorem control_wins_operation : ∃ world : World,
    world.At 2 (.client 0 (.controlOperation Scenario.thread)) ∧
    ControlWins Scenario.firstJob world.store world.trace ∧
    ∀ task (lease : WakeLease), world.At task (.deliver lease .setActive) →
      lease.threadId ≠ Scenario.thread := by
  have ran : (coordinator.run World.initial (Scenario.startUp ++
      Scenario.armGoal Scenario.firstJob 0 ++ [Scenario.userGoalSet 0, .resume 2 .ready,
        .resume 2 .ready])).any (operates · 2 0) = true := by decide +kernel
  rcases System.exists_reachable_of_run ran with ⟨world, reachable, runs⟩
  have suspended := at_of_operates runs
  refine ⟨world, suspended, (control_wins reachable).1 _, fun task lease => ?_⟩
  exact (control_wins reachable).2 2 0 _ task lease suspended

end Longrun.Bridge
