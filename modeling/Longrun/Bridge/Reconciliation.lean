import Longrun.Bridge.Activation
import Longrun.Bridge.ExternalChange

/-!
# Notifications around a pause

A notification about a registered Goal is either buffered and judged when the registration is
completed, or judged against the armed lease when it arrives. The first judgement knows the snapshot
that was read before the pause and remembers whether the pause was reported already, the second one
knows the confirmed revision only. This file says which notifications each of the two takes for a
change from outside, and when it makes no difference which of the two gets to see them.
-/

namespace Longrun.Bridge

variable {world after last : World} {task : TaskId} {thread : ThreadId} {lease row : WakeLease}
  {updatedAt revision : Int} {expected : Option (String × Option Int)} {goal : Json}
  {goals seen rest : List Json}

/-! ### The two judgements -/

/-- The integer revision of a Goal is at most a bound. -/
def revisedBy (bound : Int) (goal : Json) : Bool :=
  (goal.get "updatedAt").exactInt?.any (· ≤ bound)

/-- A notification of the pause that is newer than the snapshot. -/
def reportsPause (lease : WakeLease) (updatedAt revision : Int) (goal : Json) : Bool :=
  !revisedBy updatedAt goal && pausedAt lease revision goal

/-- What a registration takes for a change from outside, after the notifications it has seen. -/
def EarlyChange (lease : WakeLease) (updatedAt revision : Int) (seen : List Json) (goal : Json) :
    Prop :=
  revisedBy updatedAt goal = false ∧ pausedAt lease revision goal = false ∧
    ¬((goal.get "status").isStr "active" = true ∧ revisedBy revision goal = true ∧
      seen.any (reportsPause lease updatedAt revision) = false)

/-- What an armed lease takes for a change from outside. -/
def LateChange (lease : WakeLease) (revision : Int) (goal : Json) : Prop :=
  (goal.get "updatedAt").exactInt?.any (· < revision) = false ∧
    pausedAt lease revision goal = false

/-- The notification has the status, and the revision if there is one, that is expected. -/
def isExpected (expected : Option (String × Option Int)) (goal : Json) : Bool :=
  expected.any fun entry =>
    (goal.get "status").isStr entry.1 && entry.2.all (goal.get "updatedAt").isInt

/-- Some notification is a change for the registration that buffers all of them. -/
def EarlyRefused (lease : WakeLease) (updatedAt revision : Int) (goals : List Json) : Prop :=
  ∃ seen goal rest, goals = seen ++ goal :: rest ∧ EarlyChange lease updatedAt revision seen goal

/-- Some notification is a change for the armed lease that gets all of them. The first expected one
is not looked at. -/
def LateRefused (lease : WakeLease) (revision : Int) (expected : Option (String × Option Int))
    (goals : List Json) : Prop :=
  ∃ seen goal rest, goals = seen ++ goal :: rest ∧ LateChange lease revision goal ∧
    (isExpected expected goal = true → seen.any (isExpected expected) = true)

theorem EarlyRefused.append (refused : EarlyRefused lease updatedAt revision goals)
    (rest : List Json) : EarlyRefused lease updatedAt revision (goals ++ rest) := by
  rcases refused with ⟨seen, goal, later, rfl, change⟩
  exact ⟨seen, goal, later ++ rest, by simp, change⟩

theorem LateRefused.append (refused : LateRefused lease revision expected goals)
    (earlier : List Json) : LateRefused lease revision expected (earlier ++ goals) := by
  rcases refused with ⟨seen, goal, rest, rfl, change, looked⟩
  refine ⟨earlier ++ seen, goal, rest, by simp, change, fun isExpected => ?_⟩
  rw [List.any_append, looked isExpected, Bool.or_true]

/-- Among the notifications that are changes for a registration there is a first one. -/
theorem EarlyRefused.first (refused : EarlyRefused lease updatedAt revision goals) :
    ∃ seen goal rest, goals = seen ++ goal :: rest ∧
      EarlyChange lease updatedAt revision seen goal ∧
      ¬EarlyRefused lease updatedAt revision seen := by
  induction goals using List.reverseRecOn with
  | nil =>
      rcases refused with ⟨seen, goal, rest, isNil, -⟩
      simp at isNil
  | append_singleton goals last ih =>
      by_cases earlier : EarlyRefused lease updatedAt revision goals
      · rcases ih earlier with ⟨seen, goal, rest, rfl, change, first⟩
        exact ⟨seen, goal, rest ++ [last], by simp, change, first⟩
      · rcases refused with ⟨seen, goal, rest, isGoals, change⟩
        rcases List.eq_nil_or_concat rest with rfl | ⟨middle, end_, rfl⟩
        · rcases List.append_inj' isGoals rfl with ⟨rfl, -⟩
          exact ⟨goals, goal, [], isGoals, change, earlier⟩
        · rw [List.concat_eq_append, ← List.cons_append, ← List.append_assoc] at isGoals
          rcases List.append_inj' isGoals rfl with ⟨rfl, -⟩
          exact absurd ⟨seen, goal, middle, rfl, change⟩ earlier

/-! ### The judgement of a registration -/

/-- The buffered part of a notification is enough for the judgement. -/
theorem reconcilePause_entries (sawPaused : Bool) (goals : List Json) :
    reconcilePause lease updatedAt revision sawPaused (goals.map GoalBridge.notificationEntry) =
      reconcilePause lease updatedAt revision sawPaused goals := by
  induction goals generalizing sawPaused with
  | nil => rfl
  | cons goal goals ih =>
      have same : sameGoal lease (GoalBridge.notificationEntry goal) = sameGoal lease goal := rfl
      have paused : pausedAt lease revision (GoalBridge.notificationEntry goal) =
          pausedAt lease revision goal := rfl
      have status : (GoalBridge.notificationEntry goal).get "status" = goal.get "status" := rfl
      have updated : (GoalBridge.notificationEntry goal).get "updatedAt" = goal.get "updatedAt" :=
        rfl
      simp only [List.map_cons, reconcilePause, same, paused, status, updated, ih]

/-- One notification of a registered Goal, as the registration judges it. -/
theorem reconcilePause_cons (seen goals : List Json) (same : sameGoal lease goal = true) :
    (EarlyChange lease updatedAt revision seen goal ∧
        reconcilePause lease updatedAt revision (seen.any (reportsPause lease updatedAt revision))
          (goal :: goals) ≠ .ok ()) ∨
      (¬EarlyChange lease updatedAt revision seen goal ∧
        reconcilePause lease updatedAt revision (seen.any (reportsPause lease updatedAt revision))
            (goal :: goals) =
          reconcilePause lease updatedAt revision
            ((seen ++ [goal]).any (reportsPause lease updatedAt revision)) goals) := by
  have revised (bound : Int) : (goal.get "updatedAt").exactInt?.any (· ≤ bound) =
      revisedBy bound goal := rfl
  have exclusive : pausedAt lease revision goal = true →
      (goal.get "status").isStr "active" = false := by
    intro paused
    simp only [pausedAt, Bool.and_eq_true] at paused
    rw [Json.isStr_iff.mp paused.1.2]
    rfl
  simp only [reconcilePause, same, revised, true_and, List.any_append, List.any_cons, List.any_nil,
    Bool.or_false, EarlyChange, reportsPause]
  generalize seen.any (reportsPause lease updatedAt revision) = sawPaused
  -- The four conditions decide which branch is taken.
  cases superseded : revisedBy updatedAt goal <;> cases paused : pausedAt lease revision goal <;>
    cases active : (goal.get "status").isStr "active" <;> cases sawPaused <;>
    simp_all
  all_goals
    cases revisedBy revision goal <;> simp

/-- A registration accepts its buffer if no notification in it is a change. -/
theorem reconcilePause_eq_ok_iff (seen : List Json)
    (same : ∀ goal ∈ goals, sameGoal lease goal = true) :
    reconcilePause lease updatedAt revision (seen.any (reportsPause lease updatedAt revision))
        goals = .ok () ↔
      ∀ before goal rest, goals = before ++ goal :: rest →
        ¬EarlyChange lease updatedAt revision (seen ++ before) goal := by
  induction goals generalizing seen with
  | nil => simp [reconcilePause]
  | cons goal goals ih =>
      have tail := ih (seen ++ [goal]) fun other mem =>
        same other (List.mem_cons_of_mem _ mem)
      rcases reconcilePause_cons seen goals (same goal List.mem_cons_self) with
        ⟨change, refused⟩ | ⟨unchanged, accepted⟩
      · refine iff_of_false refused fun unchanged => ?_
        exact unchanged [] goal goals rfl (by simpa using change)
      · rw [accepted, tail]
        constructor
        · intro later before other rest isGoals
          cases before with
          | nil =>
              rcases List.cons.inj isGoals with ⟨rfl, rfl⟩
              simpa using unchanged
          | cons first before =>
              rcases List.cons.inj isGoals with ⟨rfl, isTail⟩
              simpa using later before other rest isTail
        · intro all before other rest isTail
          simpa using all (goal :: before) other rest (by simp [isTail])

/-- A registration refuses its buffer if a notification in it is a change. -/
theorem reconcilePause_entries_iff (same : ∀ goal ∈ goals, sameGoal lease goal = true) :
    reconcilePause lease updatedAt revision false (goals.map GoalBridge.notificationEntry) =
      .ok () ↔ ¬EarlyRefused lease updatedAt revision goals := by
  rw [reconcilePause_entries]
  refine (reconcilePause_eq_ok_iff [] same).trans ⟨?_, ?_⟩
  · rintro unchanged ⟨seen, goal, rest, isGoals, change⟩
    exact unchanged seen goal rest isGoals change
  · intro accepted seen goal rest isGoals change
    exact accepted ⟨seen, goal, rest, isGoals, change⟩

/-! ### The judgement of an armed lease -/

/-- A notification about the Goal of a lease, sent to its thread. -/
structure About (lease : WakeLease) (params : Json) : Prop where
  thread : params.get "threadId" = .str lease.threadId
  isDict : (params.get "goal").isDict = true
  same : sameGoal lease (params.get "goal") = true

def notify (params : Json) : Action := .notification "thread/goal/updated" params

theorem expects_iff {params : Json} : world.Expects thread "thread/goal/updated" params ↔
    isExpected (world.expectedGoalStatus.get? thread) (params.get "goal") = true := by
  constructor
  · rintro ⟨-, status, updatedAt, isEntry, status_, updatedAt_⟩
    simp [isExpected, isEntry, status_, updatedAt_]
  · intro expected
    rcases (Option.any_eq_true _ _).mp expected with ⟨⟨status, updatedAt⟩, isEntry, carries⟩
    exact ⟨rfl, status, updatedAt, isEntry, Bool.and_eq_true_iff.mp carries⟩

/-- A lease at a revision gets the notifications of its thread. -/
structure Watching (world : World) (lease : WakeLease) : Prop where
  reached : Reached world
  serving : world.phase ≠ .down
  found : world.row lease.jobId = some lease
  goal : lease.wakeMode = .goal
  live : lease.isLive = true
  idle : lease.deliveryState ≠ .activating
  unbuffered : world.pauseNotifications.get? lease.threadId = none

/-- One notification: it is the expected one, or no change, or it revokes the lease. -/
theorem Watching.notify {params : Json} (watching : Watching world lease)
    (about : About lease params) : ∃ after, step world (notify params) = some after ∧
      ((isExpected (world.expectedGoalStatus.get? lease.threadId) (params.get "goal") = true ∧
          after = world.popExpected lease.threadId) ∨
        (isExpected (world.expectedGoalStatus.get? lease.threadId) (params.get "goal") = false ∧
          ((¬LateChange lease lease.goalUpdatedAt (params.get "goal") ∧ after = world) ∨
            (LateChange lease lease.goalUpdatedAt (params.get "goal") ∧
              ∃ row, after.row lease.jobId = some row ∧ row.state = .abandoned)))) := by
  have isLease : world.store.liveForThread lease.threadId = some lease :=
    BridgeState.liveForThread_eq_some_iff.mpr ⟨watching.found, rfl, watching.live⟩
  refine ⟨SessionBridge.onNotification world "thread/goal/updated" params,
    if_neg watching.serving, ?_⟩
  rw [onNotification_goal about.thread isLease watching.goal]
  rcases goalNotification_eq about.thread about.isDict watching.unbuffered with
    ⟨expects, popped⟩ | ⟨unexpected, updated⟩
  · exact .inl ⟨expects_iff.mp expects, popped⟩
  · refine .inr ⟨Bool.eq_false_iff.mpr fun expected => unexpected (expects_iff.mpr expected), ?_⟩
    rw [updated]
    simp only [GoalBridge.goalUpdated, isLease, about.same, true_and]
    by_cases older : ((params.get "goal").get "updatedAt").exactInt?.any
        (· < lease.goalUpdatedAt) = true
    · exact .inl ⟨fun change => (by cases older.symm.trans change.1), if_pos older⟩
    · rw [if_neg older]
      cases paused : pausedAt lease lease.goalUpdatedAt (params.get "goal") with
      | true => exact .inl ⟨fun change => (by cases paused.symm.trans change.2), by simp⟩
      | false =>
          refine .inr ⟨⟨Bool.eq_false_iff.mpr older, paused⟩, ?_⟩
          simp only [Bool.false_eq_true, not_false_eq_true, if_true]
          rcases abandonForManualChange_row lease.threadId "Goal was changed outside the bridge"
            watching.found with ⟨-, abandoned⟩ | ⟨spared, -⟩
          · exact ⟨_, abandoned, rfl⟩
          · exact absurd ⟨rfl, watching.live, watching.idle⟩ spared

/-- Notifications can always be handled. -/
theorem notifyAll_enabled (notifications : List Json) (reached : Reached world)
    (serving : world.phase ≠ .down) :
    ∃ last, coordinator.run world (notifications.map notify) = some last := by
  induction notifications generalizing world with
  | nil => exact ⟨world, rfl⟩
  | cons params notifications ih =>
      have taken : step world (notify params) =
          some (SessionBridge.onNotification world "thread/goal/updated" params) :=
        if_neg serving
      have moves : Moves none world
          (SessionBridge.onNotification world "thread/goal/updated" params) :=
        SessionBridge.onNotification_moves reached.toInv _ _
      rcases ih (reached.next taken) (moves.phase_eq ▸ serving) with ⟨last, ran⟩
      refine ⟨last, ?_⟩
      rw [List.map_cons, System.run_cons]
      exact Option.bind_eq_some_iff.mpr ⟨_, taken, ran⟩

/-- The first expected notification is not looked at. -/
theorem lateRefused_cons_expected (isExpected : isExpected expected goal = true) :
    LateRefused lease revision expected (goal :: goals) ↔
      LateRefused lease revision none goals := by
  constructor
  · rintro ⟨seen, other, rest, isGoals, change, looked⟩
    cases seen with
    | nil =>
        rcases List.cons.inj isGoals with ⟨rfl, rfl⟩
        cases looked isExpected
    | cons first seen =>
        rcases List.cons.inj isGoals with ⟨rfl, isTail⟩
        exact ⟨seen, other, rest, isTail, change, fun impossible => by cases impossible⟩
  · rintro ⟨seen, other, rest, rfl, change, -⟩
    exact ⟨goal :: seen, other, rest, rfl, change, fun _ => by simp [isExpected]⟩

theorem lateRefused_cons (unexpected : isExpected expected goal = false) :
    LateRefused lease revision expected (goal :: goals) ↔
      LateChange lease revision goal ∨ LateRefused lease revision expected goals := by
  constructor
  · rintro ⟨seen, other, rest, isGoals, change, looked⟩
    cases seen with
    | nil =>
        rcases List.cons.inj isGoals with ⟨rfl, -⟩
        exact .inl change
    | cons first seen =>
        rcases List.cons.inj isGoals with ⟨rfl, isTail⟩
        refine .inr ⟨seen, other, rest, isTail, change, fun isExpected => ?_⟩
        simpa [unexpected] using looked isExpected
  · rintro (change | refused)
    · exact ⟨[], goal, goals, rfl, change, fun isExpected => by cases isExpected.symm.trans unexpected⟩
    · exact refused.append [goal]

/-- All the notifications of a sequence: they revoke the lease if one of them is a change. -/
theorem Watching.notifyAll {notifications : List Json} (watching : Watching world lease)
    (about : ∀ params ∈ notifications, About lease params) : ∃ last row,
      coordinator.run world (notifications.map Bridge.notify) = some last ∧
        last.row lease.jobId = some row ∧
        (row.state = .abandoned ↔ LateRefused lease lease.goalUpdatedAt
          (world.expectedGoalStatus.get? lease.threadId) (notifications.map (·.get "goal"))) := by
  induction notifications generalizing world with
  | nil =>
      refine ⟨world, lease, rfl, watching.found, iff_of_false ?_ ?_⟩
      · intro abandoned
        have live := watching.live
        simp [WakeLease.isLive, abandoned, LeaseState.isLive] at live
      · rintro ⟨seen, goal, rest, isGoals, -⟩
        simp at isGoals
  | cons params notifications ih =>
      have aboutRest : ∀ params ∈ notifications, About lease params :=
        fun other mem => about other (List.mem_cons_of_mem _ mem)
      rw [List.map_cons, List.map_cons, System.run_cons]
      rcases watching.notify (about params List.mem_cons_self) with
        ⟨after, taken, ⟨expected, rfl⟩ | ⟨unexpected, ⟨unchanged, rfl⟩ | ⟨change, revoked⟩⟩⟩
      · have watching' : Watching (world.popExpected lease.threadId) lease :=
          { watching with reached := watching.reached.next taken }
        have none : (world.popExpected lease.threadId).expectedGoalStatus.get? lease.threadId =
            none := by simp
        rcases ih watching' aboutRest with ⟨last, row, ran, isRow, outcome⟩
        rw [none] at outcome
        refine ⟨last, row, Option.bind_eq_some_iff.mpr ⟨_, taken, ran⟩, isRow, ?_⟩
        rw [outcome, lateRefused_cons_expected expected]
      · rcases ih watching aboutRest with ⟨last, row, ran, isRow, outcome⟩
        refine ⟨last, row, Option.bind_eq_some_iff.mpr ⟨_, taken, ran⟩, isRow, ?_⟩
        rw [outcome, lateRefused_cons unexpected, or_iff_right unchanged]
      · rcases revoked with ⟨revoked, isRevoked, abandoned⟩
        have reached := watching.reached.next taken
        have moves : Moves none world after := by
          obtain ⟨-, rfl⟩ := by simpa [step, Bridge.notify] using taken
          exact SessionBridge.onNotification_moves watching.reached.toInv _ _
        rcases notifyAll_enabled notifications reached (moves.phase_eq ▸ watching.serving) with
          ⟨last, ran⟩
        rcases (reached.withdrawn isRevoked abandoned (System.steps_of_run ran)).1 with
          ⟨row, isRow, stays⟩
        refine ⟨last, row, Option.bind_eq_some_iff.mpr ⟨_, taken, ran⟩, isRow, ?_⟩
        exact iff_of_true stays ((lateRefused_cons unexpected).mpr (.inl change))

/-! ### A registration that buffers -/

/-- A coroutine goes on with an answer. -/
theorem step_reply {pc : Pc} {result : Except PyError Json} {stopped : World × Outcome}
    (serving : world.phase = .serving) (suspended : world.At task pc)
    (goesOn : resume (world.goOn task pc (.reply result)) task pc (.reply result) =
      some stopped) :
    step world (.resume task (.reply result)) = some (World.stop task stopped) := by
  rw [step, if_pos serving, World.resumeTask, suspended]
  have received : world.mayReceive task (.reply result) = true := rfl
  dsimp only
  rw [if_pos received]
  exact Option.map_eq_some_iff.mpr ⟨stopped, goesOn, rfl⟩

@[simp]
theorem World.stop_expectedGoalStatus (task : TaskId) (stopped : World × Outcome) :
    (World.stop task stopped).expectedGoalStatus = stopped.1.expectedGoalStatus := by
  rcases stopped with ⟨world, outcome⟩
  cases outcome with
  | await pc =>
      rw [World.stop, World.settle, World.issue]
      split <;> rfl
  | done => rfl
  | fail => rfl

@[simp]
theorem World.goOn_expectedGoalStatus (world : World) (task : TaskId) (pc : Pc) (input : Input) :
    (world.goOn task pc input).expectedGoalStatus = world.expectedGoalStatus := by
  rw [World.goOn_eq]

@[simp]
theorem World.scheduleDelivery_expectedGoalStatus (world : World) (lease : WakeLease) :
    (world.scheduleDelivery lease).expectedGoalStatus = world.expectedGoalStatus := by
  rcases world.scheduleDelivery_cases lease with same | ⟨spawned, -⟩
  · rw [same]
  · rw [spawned]
    rfl

@[simp]
theorem World.scheduleDeadline_expectedGoalStatus (world : World) (lease : WakeLease) :
    (world.scheduleDeadline lease).expectedGoalStatus = world.expectedGoalStatus := by
  rcases world.scheduleDeadline_cases lease with same | spawned
  · rw [same]
  · rw [spawned]
    rfl

/-- A registration buffers the notifications of its thread for a row that is preparing. -/
structure Buffering (world : World) (task : TaskId) (pc : Pc) (row : WakeLease)
    (expected : Option (String × Option Int)) (buffer : List Json) : Prop where
  reached : Reached world
  suspended : world.At task pc
  found : world.row row.jobId = some row
  preparing : row.state = .preparing
  isBuffer : world.pauseNotifications.get? row.threadId = some buffer
  isExpected : world.expectedGoalStatus.get? row.threadId = expected

namespace Buffering

variable {pc : Pc} {buffer : List Json} {call : PrepareCall}

theorem serving (buffering : Buffering world task pc row expected buffer) :
    world.phase = .serving := by
  by_contra away
  exact (buffering.reached.offline away).suspended task pc buffering.suspended

theorem consistent (buffering : Buffering world task pc row expected buffer) : row.Consistent :=
  buffering.reached.toInv.row_consistent buffering.found

theorem isGoal (buffering : Buffering world task pc row expected buffer) :
    row.wakeMode = .goal :=
  (buffering.consistent.preparing buffering.preparing).2

/-- A notification is buffered. -/
theorem notify {params : Json} (buffering : Buffering world task pc row expected buffer)
    (about : About row params) (short : buffer.length < 64) :
    ∃ after, step world (Bridge.notify params) = some after ∧ Buffering after task pc row expected
      (buffer ++ [GoalBridge.notificationEntry (params.get "goal")]) := by
  have isLease : world.store.liveForThread row.threadId = some row :=
    BridgeState.liveForThread_eq_some_iff.mpr
      ⟨buffering.found, rfl, WakeLease.isLive_of_preparing buffering.preparing⟩
  have taken : step world (Bridge.notify params) = some (world.setPauseNotifications row.threadId
      (buffer ++ [GoalBridge.notificationEntry (params.get "goal")])) := by
    have serving : world.phase ≠ .down := by simp [buffering.serving]
    rw [Bridge.notify, step, if_neg serving,
      onNotification_goal about.thread isLease buffering.isGoal]
    simp [GoalBridge.onNotification, about.thread, about.isDict, buffering.isBuffer, short]
  exact ⟨_, taken,
    { reached := buffering.reached.next taken
      suspended := buffering.suspended
      found := buffering.found
      preparing := buffering.preparing
      isBuffer := by simp
      isExpected := buffering.isExpected }⟩

theorem notifyAll {notifications : List Json}
    (buffering : Buffering world task pc row expected buffer)
    (about : ∀ params ∈ notifications, About row params)
    (short : buffer.length + notifications.length ≤ 64) :
    ∃ after, coordinator.run world (notifications.map Bridge.notify) = some after ∧
      Buffering after task pc row expected
        (buffer ++ (notifications.map (·.get "goal")).map GoalBridge.notificationEntry) := by
  induction notifications generalizing world buffer with
  | nil => exact ⟨world, rfl, by simpa using buffering⟩
  | cons params notifications ih =>
      rw [List.length_cons] at short
      rcases buffering.notify (about params List.mem_cons_self) (by omega) with
        ⟨after, taken, buffering'⟩
      rcases ih buffering' (fun other mem => about other (List.mem_cons_of_mem _ mem))
        (by simp; omega) with ⟨last, ran, buffering''⟩
      refine ⟨last, ?_, by simpa using buffering''⟩
      rw [List.map_cons, System.run_cons]
      exact Option.bind_eq_some_iff.mpr ⟨_, taken, ran⟩

/-- The pause is confirmed. -/
theorem paused {paused : Json}
    (setting : Buffering world task (.prepareSetPaused call lease updatedAt) row expected buffer)
    (confirmed : pausedRevision lease updatedAt paused = .ok revision) :
    ∃ after, step world (.resume task (.reply (.ok paused))) = some after ∧
      Buffering after task (.prepareConfirm call lease updatedAt revision) row expected buffer := by
  let pc : Pc := .prepareSetPaused call lease updatedAt
  let running := world.goOn task pc (.reply (.ok paused))
  have goesOn : resume running task pc (.reply (.ok paused)) =
      some (running, .await (.prepareConfirm call lease updatedAt revision)) := by
    simp [pc, resume, GoalBridge.prepareResume, GoalBridge.preparePaused, Except.bind, confirmed]
  have taken := step_reply setting.serving setting.suspended goesOn
  refine ⟨_, taken, ?_⟩
  exact
    { reached := setting.reached.next taken
      suspended := World.stop_at (World.goOn_inside setting.suspended _) rfl
      found := by rw [World.stop_row, World.goOn_row]; exact setting.found
      preparing := setting.preparing
      isBuffer := by
        rw [World.stop_pauseNotifications, World.goOn_pauseNotifications]
        exact setting.isBuffer
      isExpected := by
        rw [World.stop_expectedGoalStatus, World.goOn_expectedGoalStatus]
        exact setting.isExpected }

/-- The checks of the commit come down to the judgement of the buffer. -/
theorem checks_eq {running : World} {latest : Json} (updatedAt : Int)
    (confirmed : confirmLatest lease revision latest = .ok ())
    (isBuffer : running.pauseNotifications.get? call.threadId = some buffer)
    (found : running.row call.jobId = some row) (preparing : row.state = .preparing)
    (pending : row.deliveryState = .pending) :
    GoalBridge.prepareChecks running call lease updatedAt revision (.ok latest) =
      (reconcilePause lease updatedAt revision false buffer).bind fun _ => .ok row := by
  simp [GoalBridge.prepareChecks, bind, Except.bind, confirmed, isBuffer, found, preparing,
    pending, pure, Except.pure]

/-- A commit leaves the lease armed, or terminal if its terminal event came early. -/
theorem commitFields_live (row : WakeLease) (revision : Int) :
    ((GoalBridge.commitFields row revision).apply row).isLive = true ∧
      ((GoalBridge.commitFields row revision).apply row).deliveryState ≠ .activating := by
  unfold GoalBridge.commitFields
  split <;> exact ⟨rfl, by simp [LeaseUpdate.apply]⟩

theorem commit_row {running : World} {result : Except PyError Json}
    (found : running.row call.jobId = some row) (preparing : row.state = .preparing)
    (checked : GoalBridge.prepareChecks running call lease updatedAt revision result = .ok row) :
    (GoalBridge.prepareCommit running call lease updatedAt revision result).1.row call.jobId =
        some ((GoalBridge.commitFields row revision).apply row) ∧
      (GoalBridge.prepareCommit running call lease updatedAt revision result).1.expectedGoalStatus =
        running.expectedGoalStatus := by
  have later : row.Later ((GoalBridge.commitFields row revision).apply row) := by
    refine ⟨rfl, ?_⟩
    rw [preparing]
    exact Nat.zero_le _
  have updated := World.row_update_self found later
  unfold GoalBridge.prepareCommit
  rw [checked]
  dsimp only
  split
  · exact ⟨(World.scheduleDelivery_row ..).trans updated, by simp⟩
  · exact ⟨(World.scheduleDeadline_row ..).trans updated, by simp⟩

theorem commit_refused {running : World} {result : Except PyError Json} {error : PyError}
    (found : running.row call.jobId = some row) (preparing : row.state = .preparing)
    (checked : GoalBridge.prepareChecks running call lease updatedAt revision result =
      .error error) :
    ∃ revoked, (GoalBridge.prepareCommit running call lease updatedAt revision result).1.row
      call.jobId = some revoked ∧ revoked.state = .abandoned := by
  let fields : LeaseUpdate :=
    { state := some .abandoned, deliveryState := some .abandoned,
      error := some ("prepare failed: " ++ (Raised.exception error).text) }
  have later : row.Later (fields.apply row) := ⟨rfl, row.state.rank_le⟩
  have isRow : (running.popExpected call.threadId).row call.jobId = some row := found
  refine ⟨fields.apply row, ?_, rfl⟩
  simp only [GoalBridge.prepareCommit, checked, GoalBridge.prepareFailed,
    GoalBridge.abandonPreparing, isRow, preparing, if_true]
  exact World.row_update_self isRow later

/-- The registration is completed: the row is committed or abandoned. -/
theorem commit {latest : Json}
    (confirming : Buffering world task (.prepareConfirm call lease updatedAt revision) row expected
      buffer)
    (isJob : row.jobId = call.jobId) (isThread : row.threadId = call.threadId)
    (confirmed : confirmLatest lease revision latest = .ok ()) :
    ∃ after, step world (.resume task (.reply (.ok latest))) = some after ∧
      Reached after ∧ after.phase ≠ .down ∧
      ((reconcilePause lease updatedAt revision false buffer = .ok () ∧
          ∃ committed, Watching after committed ∧ committed.identity = row.identity ∧
            committed.goalUpdatedAt = revision ∧
            after.expectedGoalStatus.get? row.threadId = expected) ∨
        (reconcilePause lease updatedAt revision false buffer ≠ .ok () ∧
          ∃ revoked, after.row row.jobId = some revoked ∧ revoked.state = .abandoned)) := by
  let pc : Pc := .prepareConfirm call lease updatedAt revision
  let running := world.goOn task pc (.reply (.ok latest))
  let stopped := GoalBridge.prepareCommit running call lease updatedAt revision (.ok latest)
  have goesOn : resume running task pc (.reply (.ok latest)) = some stopped := rfl
  have taken := step_reply confirming.serving confirming.suspended goesOn
  have reached := confirming.reached.next taken
  have serving : (World.stop task stopped).phase ≠ .down := by
    obtain ⟨-, resumed⟩ := by simpa [step] using taken
    have moves := resumeTask_moves confirming.reached.toInv confirming.serving resumed
    rw [moves.phase_eq, confirming.serving]
    decide
  refine ⟨World.stop task stopped, taken, reached, serving, ?_⟩
  have found : running.row call.jobId = some row :=
    isJob ▸ (World.goOn_row ..).trans confirming.found
  have isBuffer : running.pauseNotifications.get? call.threadId = some buffer := by
    rw [World.goOn_pauseNotifications, ← isThread]
    exact confirming.isBuffer
  have checks := checks_eq updatedAt confirmed isBuffer found confirming.preparing
    (confirming.consistent.preparing confirming.preparing).1
  cases judged : reconcilePause lease updatedAt revision false buffer with
  | ok =>
      rw [judged] at checks
      rcases commit_row found confirming.preparing checks with ⟨isCommitted, sameExpected⟩
      rcases commitFields_live row revision with ⟨live, idle⟩
      have watching : Watching (World.stop task stopped)
          ((GoalBridge.commitFields row revision).apply row) :=
        { reached := reached
          serving := serving
          found := by
            rw [World.stop_row, LeaseUpdate.apply_jobId, isJob]
            exact isCommitted
          goal := confirming.isGoal
          live := live
          idle := idle
          unbuffered := by
            rw [World.stop_pauseNotifications, GoalBridge.prepareCommit_buffer,
              LeaseUpdate.apply_threadId, isThread, Dict.get?_pop, if_pos rfl] }
      refine .inl ⟨rfl, _, watching, rfl, by simp [LeaseUpdate.apply], ?_⟩
      rw [World.stop_expectedGoalStatus, sameExpected, World.goOn_expectedGoalStatus]
      exact confirming.isExpected
  | error error =>
      rw [judged] at checks
      rcases commit_refused found confirming.preparing checks with ⟨revoked, isRow, abandoned⟩
      refine .inr ⟨(fun impossible => by cases impossible), revoked, ?_, abandoned⟩
      rw [World.stop_row, isJob]
      exact isRow

end Buffering

/-! ### All the ways of splitting a sequence of notifications -/

/-- A Goal registration that waits for its pause, nothing buffered yet, and the answers that confirm
the pause at a revision. -/
structure Confirmable (world : World) (task : TaskId) (call : PrepareCall) (lease row : WakeLease)
    (updatedAt revision : Int) (paused latest : Json) : Prop where
  reachable : coordinator.Reachable world
  suspended : world.At task (.prepareSetPaused call lease updatedAt)
  found : world.row call.jobId = some row
  preparing : row.state = .preparing
  fresh : world.pauseNotifications.get? call.threadId = some []
  paused : pausedRevision lease updatedAt paused = .ok revision
  latest : confirmLatest lease revision latest = .ok ()

/-- Some notifications come before the pause is answered, some before it is confirmed, the rest after
the registration is completed. -/
structure Split (notifications : List Json) where
  before : List Json
  between : List Json
  rest : List Json
  splits : before ++ between ++ rest = notifications

def Split.actions {notifications : List Json} (split : Split notifications) (task : TaskId)
    (paused latest : Json) : List Action :=
  split.before.map notify ++ .resume task (.reply (.ok paused)) ::
    (split.between.map notify ++ .resume task (.reply (.ok latest)) :: split.rest.map notify)

/-- A course of events ends with the lease of the job abandoned. -/
def Abandons (world : World) (job : JobId) (actions : List Action) : Prop :=
  ∃ last row, coordinator.run world actions = some last ∧ last.row job = some row ∧
    row.state = .abandoned

theorem lateRefused_congr {other : WakeLease} (identity : other.identity = lease.identity) :
    LateRefused other revision expected goals ↔ LateRefused lease revision expected goals := by
  simp only [LateRefused, LateChange, pausedAt, sameGoal_congr identity]

variable {call : PrepareCall} {paused latest : Json} {notifications : List Json}

/-- The outcome of a registration for one way of splitting the notifications. -/
theorem Confirmable.outcome
    (confirmable : Confirmable world task call lease row updatedAt revision paused latest)
    (about : ∀ params ∈ notifications, About row params) (short : notifications.length ≤ 64)
    (split : Split notifications) : ∃ last final,
      coordinator.run world (split.actions task paused latest) = some last ∧
        last.row call.jobId = some final ∧
        (final.state = .abandoned ↔
          EarlyRefused lease updatedAt revision
              ((split.before ++ split.between).map (·.get "goal")) ∨
            LateRefused lease revision (world.expectedGoalStatus.get? call.threadId)
              (split.rest.map (·.get "goal"))) := by
  rcases split with ⟨before, between, rest, rfl⟩
  have reached := reached_of_reachable confirmable.reachable
  have relies := reached.toInv.suspended task _ confirmable.suspended
  rcases relies.snapshot lease rfl with ⟨stored, isStored, identity⟩
  rw [relies.stage.1, confirmable.found] at isStored
  rcases Option.some.inj isStored with rfl
  have isJob : row.jobId = call.jobId := BridgeState.jobId_of_get confirmable.found
  have isThread : row.threadId = call.threadId := by
    have sameThread : row.threadId = lease.threadId := by
      simp only [WakeLease.identity, Prod.mk.injEq] at identity
      exact identity.2.1
    exact sameThread.trans relies.stage.2
  simp only [List.length_append] at short
  have setting : Buffering world task (.prepareSetPaused call lease updatedAt) row
      (world.expectedGoalStatus.get? call.threadId) [] :=
    { reached := reached
      suspended := confirmable.suspended
      found := isJob ▸ confirmable.found
      preparing := confirmable.preparing
      isBuffer := isThread ▸ confirmable.fresh
      isExpected := by rw [isThread] }
  have aboutBefore : ∀ params ∈ before, About row params :=
    fun params mem => about params (by simp [mem])
  have aboutBetween : ∀ params ∈ between, About row params :=
    fun params mem => about params (by simp [mem])
  rcases setting.notifyAll aboutBefore (by simp; omega) with ⟨buffered, ranBefore, setting'⟩
  rcases setting'.paused confirmable.paused with ⟨answered, takenPaused, confirming⟩
  rcases confirming.notifyAll aboutBetween (by simp; omega) with
    ⟨filled, ranBetween, confirming'⟩
  rcases confirming'.commit isJob isThread confirmable.latest with
    ⟨completed, takenLatest, reachedLast, serving, outcome⟩
  -- The buffer holds what came before the registration is completed, in its order.
  rw [List.nil_append, ← List.map_append, ← List.map_append] at outcome
  have same : ∀ goal ∈ (before ++ between).map (·.get "goal"), sameGoal lease goal = true := by
    intro goal mem
    rcases List.mem_map.mp mem with ⟨params, isParams, rfl⟩
    rw [← sameGoal_congr identity]
    exact (about params (List.mem_append_left rest isParams)).same
  have judged : _ ↔ ¬EarlyRefused lease updatedAt revision _ := reconcilePause_entries_iff same
  have ran (last : World) (ranRest : coordinator.run completed (rest.map notify) = some last) :
      coordinator.run world ((⟨before, between, rest, rfl⟩ : Split _).actions task paused latest) =
        some last := by
    have answers : coordinator.step buffered (.resume task (.reply (.ok paused))) =
        some answered := takenPaused
    have completes : coordinator.step filled (.resume task (.reply (.ok latest))) =
        some completed := takenLatest
    rw [Split.actions, System.run_append, ranBefore, Option.bind_some, System.run_cons, answers,
      Option.bind_some, System.run_append, ranBetween, Option.bind_some, System.run_cons, completes,
      Option.bind_some, ranRest]
  rcases outcome with
    ⟨accepted, committed, watching, sameIdentity, isRevision, isExpected⟩ |
      ⟨refused, revoked, isRevoked, abandoned⟩
  · have sameThread : committed.threadId = row.threadId := by
      simp only [WakeLease.identity, Prod.mk.injEq] at sameIdentity
      exact sameIdentity.2.1
    have sameJob : committed.jobId = call.jobId := by
      simp only [WakeLease.identity, Prod.mk.injEq] at sameIdentity
      exact sameIdentity.1.trans isJob
    have aboutRest : ∀ params ∈ rest, About committed params := by
      intro params mem
      have aboutRow := about params (by simp [mem])
      exact ⟨sameThread ▸ aboutRow.thread, aboutRow.isDict,
        (sameGoal_congr sameIdentity _).trans aboutRow.same⟩
    rcases watching.notifyAll aboutRest with ⟨last, final, ranRest, isFinal, ends⟩
    refine ⟨last, final, ran last ranRest, sameJob ▸ isFinal, ?_⟩
    rw [ends, isRevision, sameThread, isExpected,
      lateRefused_congr (sameIdentity.trans identity), or_iff_right (judged.mp accepted)]
  · rcases notifyAll_enabled rest reachedLast serving with ⟨last, ranRest⟩
    rcases (reachedLast.withdrawn isRevoked abandoned (System.steps_of_run ranRest)).1 with
      ⟨final, isFinal, stays⟩
    refine ⟨last, final, ran last ranRest, isJob ▸ isFinal, iff_of_true stays (.inl ?_)⟩
    by_contra accepted
    exact refused (judged.mpr accepted)

theorem Confirmable.abandons_iff
    (confirmable : Confirmable world task call lease row updatedAt revision paused latest)
    (about : ∀ params ∈ notifications, About row params) (short : notifications.length ≤ 64)
    (split : Split notifications) :
    Abandons world call.jobId (split.actions task paused latest) ↔
      EarlyRefused lease updatedAt revision ((split.before ++ split.between).map (·.get "goal")) ∨
        LateRefused lease revision (world.expectedGoalStatus.get? call.threadId)
          (split.rest.map (·.get "goal")) := by
  rcases confirmable.outcome about short split with ⟨last, final, ran, isFinal, ends⟩
  rw [← ends]
  constructor
  · rintro ⟨last', final', ran', isFinal', abandoned⟩
    rcases Option.some.inj (ran.symm.trans ran') with rfl
    rcases Option.some.inj (isFinal.symm.trans isFinal') with rfl
    exact abandoned
  · exact fun abandoned => ⟨last, final, ran, isFinal, abandoned⟩

/-- No notification is a change for either of the two judgements, or one that is a change for the
registration comes not later than one that is a change for the armed lease. -/
def Unambiguous (lease : WakeLease) (updatedAt revision : Int)
    (expected : Option (String × Option Int)) (goals : List Json) : Prop :=
  (¬EarlyRefused lease updatedAt revision goals ∧ ¬LateRefused lease revision expected goals) ∨
    ∃ seen goal rest, goals = seen ++ goal :: rest ∧
      EarlyChange lease updatedAt revision seen goal ∧
      LateRefused lease revision expected (goal :: rest)

/-- Wherever an unambiguous sequence is split, it is refused by both judgements or by none. -/
theorem Unambiguous.split (unambiguous : Unambiguous lease updatedAt revision expected goals) :
    (∀ early late, goals = early ++ late → ¬(EarlyRefused lease updatedAt revision early ∨
        LateRefused lease revision expected late)) ∨
      ∀ early late, goals = early ++ late → EarlyRefused lease updatedAt revision early ∨
        LateRefused lease revision expected late := by
  rcases unambiguous with ⟨unseen, unlooked⟩ | ⟨seen, goal, rest, isGoals, change, refused⟩
  · refine .inl fun early late splits => ?_
    subst splits
    rintro (seen | looked)
    · exact unseen (seen.append late)
    · exact unlooked (looked.append early)
  · refine .inr fun early late splits => ?_
    rcases List.append_eq_append_iff.mp (splits.symm.trans isGoals) with
      ⟨middle, -, isLate⟩ | ⟨middle, isEarly, isRest⟩
    · exact .inr (isLate ▸ refused.append middle)
    · cases middle with
      | nil =>
          rw [isRest] at refused
          exact .inr refused
      | cons first middle =>
          rcases List.cons.inj isRest with ⟨rfl, -⟩
          exact .inl ⟨seen, goal, middle, isEarly, change⟩

/-- The lease ends up the same for all ways of splitting the notifications if and only if the
sequence is unambiguous. -/
theorem reconciliation_iff
    (confirmable : Confirmable world task call lease row updatedAt revision paused latest)
    (about : ∀ params ∈ notifications, About row params) (short : notifications.length ≤ 64) :
    (∀ split split' : Split notifications,
        Abandons world call.jobId (split.actions task paused latest) ↔
          Abandons world call.jobId (split'.actions task paused latest)) ↔
      Unambiguous lease updatedAt revision (world.expectedGoalStatus.get? call.threadId)
        (notifications.map (·.get "goal")) := by
  have ends (split : Split notifications) := confirmable.abandons_iff about short split
  constructor
  · intro same
    -- All notifications are buffered, or none is.
    let whole : Split notifications := ⟨notifications, [], [], by simp⟩
    let none : Split notifications := ⟨[], [], notifications, by simp⟩
    by_cases refused : EarlyRefused lease updatedAt revision (notifications.map (·.get "goal"))
    · rcases refused.first with ⟨seen, goal, rest, isGoals, change, first⟩
      rcases List.map_eq_append_iff.mp isGoals with ⟨before, after, splits, isSeen, isRest⟩
      let split : Split notifications := ⟨before, [], after, by simp [splits]⟩
      have abandons := (ends whole).mpr (.inl (by simpa [whole] using refused))
      refine .inr ⟨seen, goal, rest, isGoals, change, ?_⟩
      rcases (ends split).mp ((same whole split).mp abandons) with earlier | looked
      · exact absurd (by simpa [split, isSeen] using earlier) first
      · exact isRest ▸ looked
    · refine .inl ⟨refused, fun looked => ?_⟩
      have abandons := (ends none).mpr (.inr looked)
      rcases (ends whole).mp ((same none whole).mp abandons) with seen | ⟨seen, goal, rest, isNil, -⟩
      · exact refused (by simpa [whole] using seen)
      · simp [whole] at isNil
  · intro unambiguous split split'
    rw [ends split, ends split']
    have splits (split : Split notifications) : notifications.map (·.get "goal") =
        (split.before ++ split.between).map (·.get "goal") ++ split.rest.map (·.get "goal") := by
      rw [← List.map_append, split.splits]
    rcases unambiguous.split with none | all
    · exact iff_of_false (none _ _ (splits split)) (none _ _ (splits split'))
    · exact iff_of_true (all _ _ (splits split)) (all _ _ (splits split'))

/-- An accounting event of the active Goal that shares the second of the pause, and the pause. -/
def sameSecond : List Json :=
  ["active", "paused"].map fun status =>
    .obj [("threadId", .str Scenario.thread), ("goal", Scenario.goalFields status 8)]

/-- The task waits for the pause of the first job, and the two answers confirm it. -/
def isConfirmable (world : World) (task : TaskId) : Bool :=
  match world.tasks[task]? with
  | some (.suspended (.prepareSetPaused call lease updatedAt)) =>
      call.jobId = Scenario.firstJob && call.threadId = Scenario.thread && updatedAt = 7 &&
        (pausedRevision lease 7 (Scenario.goal "paused" 8)).toOption = some 8 &&
        (confirmLatest lease 8 (Scenario.goal "paused" 8)).toBool &&
        (world.pauseNotifications.get? Scenario.thread).any List.isEmpty &&
        (world.row Scenario.firstJob).any fun row => row.state = .preparing &&
          row.threadId = Scenario.thread && sameGoal row (Scenario.goalFields "active" 8)
  | _ => false

theorem confirmable_of_isConfirmable (reachable : coordinator.Reachable world)
    (checked : isConfirmable world task = true) : ∃ call lease row,
      Confirmable world task call lease row 7 8 (Scenario.goal "paused" 8)
          (Scenario.goal "paused" 8) ∧
        call.jobId = Scenario.firstJob ∧ ∀ params ∈ sameSecond, About row params := by
  unfold isConfirmable at checked
  split at checked
  · rename_i call lease updatedAt suspended
    simp only [Bool.and_eq_true, decide_eq_true_eq] at checked
    rcases checked with ⟨⟨⟨⟨⟨⟨isJob, isThread⟩, rfl⟩, confirmed⟩, latest⟩, fresh⟩, isRow⟩
    rcases (Option.any_eq_true _ _).mp isRow with ⟨row, found, checks⟩
    simp only [Bool.and_eq_true, decide_eq_true_eq] at checks
    rcases checks with ⟨⟨preparing, rowThread⟩, same⟩
    rcases (Option.any_eq_true _ _).mp fresh with ⟨buffer, isBuffer, isEmpty⟩
    rcases List.isEmpty_iff.mp isEmpty with rfl
    refine ⟨call, lease, row, ?_, isJob, ?_⟩
    · exact
        { reachable := reachable
          suspended := suspended
          found := isJob ▸ found
          preparing := preparing
          fresh := isThread ▸ isBuffer
          paused := by
            cases result : pausedRevision lease 7 (Scenario.goal "paused" 8) with
            | ok given => simpa [result, Except.toOption] using confirmed
            | error => simp [result, Except.toOption] at confirmed
          latest := by
            cases result : confirmLatest lease 8 (Scenario.goal "paused" 8) with
            | ok => rfl
            | error => simp [result, Except.toBool] at latest }
    · intro params mem
      rcases List.mem_map.mp mem with ⟨status, -, rfl⟩
      exact ⟨rowThread ▸ rfl, rfl, same⟩
  · contradiction

/-- Whether a course of events abandons the first job. -/
def abandonsFirst (world : World) (actions : List Action) : Bool :=
  (coordinator.run world actions).any fun last =>
    (last.row Scenario.firstJob).any (·.state = .abandoned)

theorem abandons_iff_abandonsFirst (actions : List Action) :
    Abandons world Scenario.firstJob actions ↔ abandonsFirst world actions = true := by
  constructor
  · rintro ⟨last, row, ran, found, abandoned⟩
    simp [abandonsFirst, ran, found, abandoned]
  · intro abandons
    rcases (Option.any_eq_true _ _).mp abandons with ⟨last, ran, abandons⟩
    rcases (Option.any_eq_true _ _).mp abandons with ⟨row, found, abandoned⟩
    exact ⟨last, row, ran, found, of_decide_eq_true abandoned⟩

/-- All notifications are buffered. -/
def buffersAll : Split sameSecond := ⟨sameSecond, [], [], rfl⟩

/-- All notifications come after the registration is completed. -/
def buffersNone : Split sameSecond := ⟨[], [], sameSecond, rfl⟩

/-- The registration is abandoned if the events come late, and only then. -/
def splitsDiffer (world : World) : Bool :=
  isConfirmable world 0 &&
    !abandonsFirst world
      (buffersAll.actions 0 (Scenario.goal "paused" 8) (Scenario.goal "paused" 8)) &&
    abandonsFirst world
      (buffersNone.actions 0 (Scenario.goal "paused" 8) (Scenario.goal "paused" 8))

theorem exists_splitsDiffer : ∃ world, coordinator.Reachable world ∧ splitsDiffer world = true := by
  have ran : (coordinator.run World.initial (Scenario.startUp ++
      (Scenario.armGoal Scenario.firstJob 0).take 2)).any splitsDiffer = true := by
    decide +kernel
  exact System.exists_reachable_of_run ran

/-- An accounting event in the second of the pause revokes the lease if it comes after the
registration is completed, and not if it comes before. -/
theorem reconciliation_differs : ∃ world call lease row,
    Confirmable world 0 call lease row 7 8 (Scenario.goal "paused" 8) (Scenario.goal "paused" 8) ∧
    (∀ params ∈ sameSecond, About row params) ∧ sameSecond.length ≤ 64 ∧
    ¬(Abandons world call.jobId
        (buffersAll.actions 0 (Scenario.goal "paused" 8) (Scenario.goal "paused" 8)) ↔
      Abandons world call.jobId
        (buffersNone.actions 0 (Scenario.goal "paused" 8) (Scenario.goal "paused" 8))) := by
  rcases exists_splitsDiffer with ⟨world, reachable, differ⟩
  rcases Bool.and_eq_true_iff.mp differ with ⟨both, late⟩
  rcases Bool.and_eq_true_iff.mp both with ⟨checked, early⟩
  rcases confirmable_of_isConfirmable reachable checked with
    ⟨call, lease, row, confirmable, isJob, about⟩
  refine ⟨world, call, lease, row, confirmable, about, by decide, fun same => ?_⟩
  rw [isJob, abandons_iff_abandonsFirst, abandons_iff_abandonsFirst] at same
  rw [same.mpr late] at early
  contradiction

theorem reconciliation_iff_sameSecond : ∃ (world : World) (call : PrepareCall) (lease : WakeLease),
    (∀ split split' : Split sameSecond,
        Abandons world call.jobId
            (split.actions 0 (Scenario.goal "paused" 8) (Scenario.goal "paused" 8)) ↔
          Abandons world call.jobId
            (split'.actions 0 (Scenario.goal "paused" 8) (Scenario.goal "paused" 8))) ↔
      Unambiguous lease 7 8 (world.expectedGoalStatus.get? call.threadId)
        (sameSecond.map (·.get "goal")) := by
  rcases exists_splitsDiffer with ⟨world, reachable, differ⟩
  rcases Bool.and_eq_true_iff.mp differ with ⟨both, -⟩
  rcases Bool.and_eq_true_iff.mp both with ⟨checked, -⟩
  rcases confirmable_of_isConfirmable reachable checked with
    ⟨call, lease, row, confirmable, -, about⟩
  exact ⟨world, call, lease, reconciliation_iff confirmable about (by decide)⟩

end Longrun.Bridge
