import Longrun.Bridge.SessionMoves

/-!
# The moves of a step

The events of the connections, the messages of the TUI and every step of the coordinator that
neither starts nor ends the process are sequences of moves.
-/

namespace Longrun.Bridge

variable {origin : Option Origin} {world after : World} {task : TaskId} {job : JobId}

/-- A series of actions that are sequences of moves is one. -/
theorem foldl_moves {Item : Type} {act : World → Item → World}
    (each : ∀ {world : World} (item : Item), Inv world → Moves origin world (act world item))
    (items : List Item) (inv : Inv world) : Moves origin world (items.foldl act world) := by
  induction items generalizing world with
  | nil => exact .refl
  | cons item items ih =>
      have first := each item inv
      exact first.trans (ih (inv.moves first))

/-! ### User activity -/

/-- The world with other observed calls and another trace, which no revocation looks at. -/
def World.beside (world : World) (calls : Dict (ThreadId × String) (String × PeerId))
    (trace : List Event) : World :=
  { world with calls := calls, trace := trace }

section Beside

variable (calls : Dict (ThreadId × String) (String × PeerId)) (trace : List Event)

theorem cancelDelivery_beside (world : World) (job : JobId) :
    (world.beside calls trace).cancelDelivery job =
      (world.cancelDelivery job).beside calls trace := by
  cases found : world.deliveryTasks.get? job <;>
    simp [World.cancelDelivery, World.beside, found, World.popDelivery, World.cancelTask]

theorem cancelDeadline_beside (world : World) (job : JobId) :
    (world.beside calls trace).cancelDeadline job =
      (world.cancelDeadline job).beside calls trace := by
  cases found : world.deadlineTasks.get? job <;>
    simp [World.cancelDeadline, World.beside, found, World.popDeadline, World.cancelTask]

theorem abandonForManualChange_beside (world : World) (thread : ThreadId) (reason : String) :
    abandonForManualChange (world.beside calls trace) thread reason =
      (abandonForManualChange world thread reason).beside calls trace := by
  have sameStore : (world.beside calls trace).store = world.store := rfl
  have goal : GoalBridge.abandonForManualChange (world.beside calls trace) thread reason =
      (GoalBridge.abandonForManualChange world thread reason).beside calls trace := by
    unfold GoalBridge.abandonForManualChange
    rw [sameStore]
    cases world.store.liveForThread thread with
    | none => rfl
    | some lease =>
        dsimp only
        split
        · rfl
        · rw [← cancelDeadline_beside, ← cancelDelivery_beside]
          rfl
  unfold abandonForManualChange
  rw [goal, sameStore]
  cases world.store.liveForThread thread with
  | none => rfl
  | some lease =>
      dsimp only
      split <;> split <;> first | rfl | contradiction

end Beside

/-- What the handling of a message of the TUI relies on after a revocation. -/
structure Keeps (before after : World) : Prop where
  tasks : after.tasks = before.tasks
  activityLocks : after.activityLocks = before.activityLocks
  deliveryTasks : ∀ job task, after.deliveryTasks.get? job = some task →
    before.deliveryTasks.get? job = some task
  deadlineTasks : ∀ job task, after.deadlineTasks.get? job = some task →
    before.deadlineTasks.get? job = some task

namespace Keeps

theorem refl (world : World) : Keeps world world :=
  ⟨rfl, rfl, fun _ _ found => found, fun _ _ found => found⟩

theorem trans {first second third : World} (before : Keeps first second)
    (after : Keeps second third) : Keeps first third where
  tasks := after.tasks.trans before.tasks
  activityLocks := after.activityLocks.trans before.activityLocks
  deliveryTasks := fun job task found =>
    before.deliveryTasks job task (after.deliveryTasks job task found)
  deadlineTasks := fun job task found =>
    before.deadlineTasks job task (after.deadlineTasks job task found)

theorem foldl {Item : Type} {act : World → Item → World}
    (each : ∀ (world : World) (item : Item), Keeps world (act world item)) (items : List Item)
    (world : World) : Keeps world (items.foldl act world) := by
  induction items generalizing world with
  | nil => exact .refl world
  | cons item items ih => exact (each world item).trans (ih (act world item))

theorem detached (keeps : Keeps world after) (moves : Moves origin world after)
    (detached : Detached world task) : Detached after task where
  inv := detached.inv.moves moves
  running := by rw [World.IsRunning, keeps.tasks]; exact detached.running
  unlisted := fun job isTask => detached.unlisted job (keeps.deliveryTasks job task isTask)
  undeadlined := fun job isTask => detached.undeadlined job (keeps.deadlineTasks job task isTask)

end Keeps

theorem Revises.keeps (revises : Revises world after) : Keeps world after :=
  ⟨revises.tasks, revises.activityLocks, revises.deliveryTasks, revises.deadlineTasks⟩

theorem World.Revoked.sessionRevoked {thread : ThreadId} (revoked : world.Revoked thread) :
    world.SessionRevoked thread :=
  fun job row found sameThread _ live => revoked job row found sameThread live

/-- The coroutine that goes on in a step, if any, handles a message of the TUI. -/
def ClientOrigin (origin : Option Origin) : Prop :=
  ∀ task pc input, origin = some ⟨task, pc, input⟩ → pc.isClient = true

namespace SessionBridge

/-- User activity revokes the session lease of the thread and forgets its calls. -/
theorem userActivity_eq (world : World) (thread : ThreadId) :
    ∃ revoked, (revoked = world ∨ ∃ reason, revoked = abandonForManualChange world thread reason) ∧
      revoked.SessionRevoked thread ∧
      userActivity world thread =
        (setCalls revoked (world.calls.filter fun entry => entry.1.1 ≠ thread)).log
          (.userActivity thread) := by
  have isLive {job row} (isRow : world.row job = some row) (sameThread : row.threadId = thread)
      (live : row.isLive = true) : world.store.liveForThread thread = some row :=
    BridgeState.liveForThread_eq_some_iff.mpr
      ⟨BridgeState.jobId_of_get isRow ▸ isRow, sameThread, live⟩
  unfold userActivity
  extract_lets forgotten
  split
  · rename_i lease found
    split
    · refine ⟨_, .inr ⟨"User activity superseded automatic continuation", rfl⟩,
        (abandonForManualChange_revoked thread _ world).sessionRevoked, ?_⟩
      have revises := abandonForManualChange_revises thread
        "User activity superseded automatic continuation" world
      refine (abandonForManualChange_beside
        (world.calls.filter fun entry => entry.1.1 ≠ thread)
        (.userActivity thread :: world.trace) world thread
        "User activity superseded automatic continuation").trans ?_
      rw [← revises.trace]
      rfl
    · rename_i notSession
      refine ⟨world, .inl rfl, fun job row isRow sameThread session live => ?_, rfl⟩
      rw [Option.some.inj (found.symm.trans (isLive isRow sameThread live))] at notSession
      exact absurd session notSession
  · rename_i found
    refine ⟨world, .inl rfl, fun job row isRow sameThread _ live => ?_, rfl⟩
    rw [isLive isRow sameThread live] at found
    contradiction

theorem userActivity_moves (client : ClientOrigin origin) (thread : ThreadId) (inv : Inv world) :
    Moves origin world (userActivity world thread) := by
  rcases userActivity_eq world thread with ⟨revoked, isRevision, isRevoked, same⟩
  have moves : Moves origin world revoked ∧ revoked.calls = world.calls := by
    rcases isRevision with rfl | ⟨reason, rfl⟩
    · exact ⟨.refl, rfl⟩
    · exact ⟨abandonForManualChange_moves thread reason inv,
        (abandonForManualChange_revises thread reason world).calls⟩
  rw [same]
  refine (moves.1.tail (.setCalls _ ?_)).tail (.log _ ⟨isRevoked, ?_, client⟩)
  · intro key call found
    rw [moves.2]
    exact .inl (Dict.get?_filter.mp found).1
  · intro callId
    rw [Option.eq_none_iff_forall_ne_some]
    intro call found
    have kept := (Dict.get?_filter.mp found).2
    simp at kept

theorem userActivity_keeps (world : World) (thread : ThreadId) :
    Keeps world (userActivity world thread) := by
  rcases userActivity_eq world thread with ⟨revoked, isRevision, -, same⟩
  have keeps : Keeps world revoked := by
    rcases isRevision with rfl | ⟨reason, rfl⟩
    · exact .refl _
    · exact (abandonForManualChange_revises thread reason world).keeps
  rw [same]
  exact { keeps with }

theorem userActivity_revoked (world : World) (thread : ThreadId) :
    (userActivity world thread).SessionRevoked thread := by
  rcases userActivity_eq world thread with ⟨revoked, -, isRevoked, same⟩
  rw [same]
  exact isRevoked

/-! ### Events of the connections -/

theorem clientOrigin_none : ClientOrigin none :=
  fun _ _ _ isOrigin => by cases isOrigin

theorem observeTurnStarted_moves (inv : Inv world) {peer : PeerId} {thread : ThreadId}
    (params : Json) (owned : foreignOwner world peer thread = false) :
    Moves origin world (observeTurnStarted world peer thread params) := by
  have owns : Moves origin world (setPeer world thread peer) :=
    .single (.setPeer thread peer fun other isOwner => by
      simpa [foreignOwner, isOwner] using owned)
  have abandons (reason : String) :
      Moves origin world (abandonForManualChange (setPeer world thread peer) thread reason) :=
    owns.trans (abandonForManualChange_moves thread reason (inv.moves owns))
  unfold observeTurnStarted
  dsimp only
  split
  · exact owns
  · split
    · split
      · exact abandons _
      · exact owns
    · exact owns

theorem observeTurnCompleted_moves (inv : Inv world) (thread : ThreadId) (turn : String) :
    Moves origin world (observeTurnCompleted world thread turn) := by
  have logged : Moves origin world (world.log (.turnCompleted thread turn)) :=
    .single (.log _ trivial)
  have recorded : .turnCompleted thread turn ∈
      (world.log (.turnCompleted thread turn)).processTrace := by
    rw [World.processTrace_log rfl]
    exact List.mem_cons_self
  have done : Moves origin world
      (setTurnDone (world.log (.turnCompleted thread turn)) thread turn) := by
    unfold setTurnDone
    split
    · exact logged.tail (.setDone _ recorded)
    · exact logged
  have forgets {before : World} (moves : Moves origin world before) :
      Moves origin world (forgetCalls before thread turn) :=
    moves.tail (.setCalls _ fun _ _ found => .inl (Dict.get?_filter.mp found).1)
  unfold observeTurnCompleted
  dsimp only
  split
  · split
    · exact forgets (done.trans (abandonForManualChange_moves thread _ (inv.moves done)))
    · exact forgets done
  · exact forgets done

/-- The oldest calls may be dropped, the only one that can be new is the observed one. -/
theorem rememberCall_moves (peer : PeerId) (thread : ThreadId) (callId turn : String) :
    Moves origin world (rememberCall world peer thread callId turn) := by
  have logged : Move origin world (world.log (.observed peer thread callId turn)) :=
    .log _ trivial
  have remembers (bound : Nat) : Move origin (world.log (.observed peer thread callId turn))
      (setCalls (world.log (.observed peer thread callId turn))
        ((world.calls.set (thread, callId) (turn, peer)).evict bound)) := by
    refine .setCalls _ fun key call found => ?_
    have found := Dict.get?_evict found
    rw [Dict.get?_set] at found
    split at found
    · rename_i isKey
      rw [← Option.some.inj found, isKey]
      exact .inr rfl
    · exact .inl found
  have remembered := remembers 256
  unfold rememberCall
  generalize (world.calls.set (thread, callId) (turn, peer)).evict 256 = calls at remembered ⊢
  exact (Relation.ReflTransGen.single logged).tail remembered

theorem rememberCall_peers (peer : PeerId) (thread : ThreadId) (callId turn : String) :
    (rememberCall world peer thread callId turn).peers = world.peers := by
  simp [rememberCall]

theorem observe_moves (inv : Inv world) (peer : PeerId) (method : String) (params : Json) :
    Moves none world (observe world peer method params) := by
  have wakes {before : World} {thread : ThreadId} (moves : Moves none world before) :
      Moves none world (before.setThreadEvent thread) :=
    moves.tail (.internal _ _ _ _ _ _ _)
  unfold observe
  split
  · rename_i thread _
    split
    · have marked : Moves none world (addAmbiguous world thread) :=
        .single (.internal _ _ _ _ _ _ _)
      exact marked.trans (userActivity_moves clientOrigin_none thread (inv.moves marked))
    · rename_i notForeign
      split
      · rename_i isItem
        split
        · rename_i callId turn _
          refine (rememberCall_moves peer thread callId turn).tail
            (.setPeer thread peer fun other isOwner => ?_)
          rw [rememberCall_peers] at isOwner
          simpa [foreignOwner, isItem, isOwner] using notForeign
        · exact .refl
      · split
        · rename_i isStarted
          refine observeTurnStarted_moves inv params ?_
          simpa [isStarted] using notForeign
        · split
          · split
            · exact .refl
            · split
              · exact wakes (observeTurnCompleted_moves inv thread _)
              · exact wakes .refl
          · split
            · exact wakes .refl
            · exact .refl
  · exact .refl

theorem disownThread_moves (thread : ThreadId) (inv : Inv world) :
    Moves none world (disownThread world thread) :=
  ((userActivity_moves clientOrigin_none thread inv).tail
    (.popPeer thread (userActivity_revoked world thread))).tail (.internal _ _ _ _ _ _ _)

theorem disownJob_moves (job : JobId) (inv : Inv world) :
    Moves none world (disownJob world job) := by
  unfold disownJob
  dsimp only
  split
  · exact (userActivity_moves clientOrigin_none _ inv).tail (.internal _ _ _ _ _ _ _)
  · exact .single (.internal _ _ _ _ _ _ _)

/-- The end of a connection. -/
theorem disconnected_moves (inv : Inv world) (peer : PeerId) :
    Moves none world (disconnected world peer) := by
  have threads : Moves none world ((keysOf world.peers peer).foldl disownThread world) :=
    foldl_moves (fun thread => disownThread_moves thread) _ inv
  have jobs : Moves none _ _ := foldl_moves (fun job => disownJob_moves job)
    (keysOf ((keysOf world.peers peer).foldl disownThread world).leasePeers peer)
    (inv.moves threads)
  exact (threads.trans jobs).tail
    (.setCalls _ fun _ _ found => .inl (Dict.get?_filter.mp found).1)

end SessionBridge

/-! ### Messages of the TUI -/

namespace Client

variable {peer : PeerId}

/-- The handling of a message of a connection stops at an await. -/
theorem suspended (detached : Detached world task) {await : ClientAt}
    (goalLock : ∀ thread, (Pc.client peer await).holdsGoal = some thread →
      world.goalControls.get? thread = some task)
    (peerLock : ∀ held, (Pc.client peer await).holdsPeer = some held →
      world.activityLocks.get? held = some task) :
    Suspended world task (.client peer await) where
  snapshot := fun _ isCopy => by cases isCopy
  goalLock := goalLock
  peerLock := peerLock
  deliveryTable := fun other isTask => absurd isTask (detached.unlisted other)
  deadlineTable := fun other isTask => absurd isTask (detached.undeadlined other)
  unique := fun _ delivers => by cases delivers
  cancelled := fun _ _ _ delivers => by cases delivers
  registering := fun _ registers => by cases registers
  stage := trivial

/-- It waits with the activity lock of the connection held, and no other lock. -/
theorem waits (detached : Detached world task)
    (locked : world.activityLocks.get? peer = some task) {await : ClientAt}
    (holdsGoal : (Pc.client peer await).holdsGoal = none)
    (holdsPeer : (Pc.client peer await).holdsPeer = some peer) :
    Moves origin world (World.stop task (world, .await (.client peer await))) := by
  refine settle_silent _ detached.running (suspended detached ?_ ?_) trivial rfl
  · intro thread holds
    rw [holdsGoal] at holds
    contradiction
  · intro held holds
    rcases Option.some.inj (holdsPeer.symm.trans holds) with rfl
    exact locked

theorem activity_moves (client : ClientOrigin origin) (detached : Detached world task)
    (locked : world.activityLocks.get? peer = some task) (message : Json) :
    Moves origin world (World.stop task (activity world task peer message)) := by
  have stops {before : World} (moves : Moves origin world before) (keeps : Keeps world before)
      (await : ClientAt) (holdsGoal : (Pc.client peer await).holdsGoal = none)
      (holdsPeer : (Pc.client peer await).holdsPeer = some peer) :
      Moves origin world (World.stop task (before, .await (.client peer await))) :=
    moves.trans (waits (keeps.detached moves detached) (keeps.activityLocks ▸ locked) holdsGoal
      holdsPeer)
  unfold activity
  split
  · rename_i thread _
    have active := SessionBridge.userActivity_moves client thread detached.inv
    have keeps := SessionBridge.userActivity_keeps world thread
    dsimp only
    split
    · -- The entry is logged where the thread is revoked: nothing happens in between.
      have entered : abandonForManualChange
          ((SessionBridge.userActivity world thread).log (.controlEntered task thread)) thread
            controlReason =
          (abandonForManualChange (SessionBridge.userActivity world thread) thread
            controlReason).log (.controlEntered task thread) := by
        have revises := abandonForManualChange_revises thread controlReason
          (SessionBridge.userActivity world thread)
        refine (abandonForManualChange_beside _ _ _ _ _).trans ?_
        rw [World.beside, ← revises.trace, ← revises.calls]
        rfl
      rw [entered]
      have revokes : Moves origin _ _ := abandonForManualChange_moves thread controlReason
        (detached.inv.moves active)
      have revises := abandonForManualChange_revises thread controlReason
        (SessionBridge.userActivity world thread)
      have keepsBoth := keeps.trans revises.keeps
      exact stops ((active.trans revokes).tail (.log (.controlEntered task thread)
        (abandonForManualChange_revoked thread _ _))) { keepsBoth with } (.controlLock thread) rfl
        rfl
    · exact stops active keeps .forward rfl rfl
  · exact stops (foldl_moves (fun thread => SessionBridge.userActivity_moves client thread) _
      detached.inv) (.foldl SessionBridge.userActivity_keeps _ world) .forward rfl rfl

theorem control_moves (detached : Detached world task) {thread : ThreadId}
    (locked : world.activityLocks.get? peer = some task)
    (free : world.goalControls.get? thread = none) :
    Moves origin world (World.stop task (control world task peer thread)) := by
  have locks : Moves origin world (world.lockGoal task thread) :=
    .single (.lockGoal task thread free)
  have revokes : Moves origin _ _ := abandonForManualChange_moves thread controlReason
    (detached.inv.moves locks)
  have revises := abandonForManualChange_revises thread controlReason (world.lockGoal task thread)
  have holds : (abandonForManualChange (world.lockGoal task thread) thread
      controlReason).goalControls.get? thread = some task := by
    rw [revises.goalControls]
    exact Dict.get?_set_self _ _ _
  have moves : Moves origin world ((abandonForManualChange (world.lockGoal task thread) thread
      controlReason).log (.controlRun task thread)) :=
    (locks.trans revokes).tail (.log _ ⟨abandonForManualChange_revoked thread _ _, holds⟩)
  have keeps : Keeps world ((abandonForManualChange (world.lockGoal task thread) thread
      controlReason).log (.controlRun task thread)) := { revises.keeps with }
  have detachedNow := keeps.detached moves detached
  refine moves.trans (settle_silent _ detachedNow.running (suspended detachedNow ?_ ?_) trivial rfl)
  · intro held isHeld
    rcases Option.some.inj isHeld with rfl
    exact holds
  · intro held isHeld
    rcases Option.some.inj isHeld with rfl
    rw [keeps.activityLocks]
    exact locked

theorem resume_moves {await : ClientAt} {input : Input} {stopped : World × Outcome}
    (resumed : Resumed world task (.client peer await) input)
    (goesOn : resume (world.goOn task (.client peer await) input) task peer await input =
      some stopped) :
    Moves (some ⟨task, .client peer await, input⟩)
      (world.goOn task (.client peer await) input) (World.stop task stopped) := by
  have detached := resumed.detached rfl rfl
  have client : ClientOrigin (some ⟨task, .client peer await, input⟩) := by
    intro other pc otherInput isOrigin
    cases isOrigin
    rfl
  have leavesPeer (holds : (Pc.client peer await).holdsPeer = some peer) {outcome : Outcome}
      (ends : outcome.Ends) :
      Moves (some ⟨task, .client peer await, input⟩) (world.goOn task (.client peer await) input)
        (World.stop task ((world.goOn task (.client peer await) input).unlockPeer peer,
          outcome)) :=
    detached.toHandling.unlock_ends (resumed.peer_free holds) ends
  have leavesBoth {thread : ThreadId} (isOperation : await = .controlOperation thread)
      {outcome : Outcome} (ends : outcome.Ends) :
      Moves (some ⟨task, .client peer await, input⟩) (world.goOn task (.client peer await) input)
        (World.stop task (((world.goOn task (.client peer await) input).unlockGoal task
          thread).unlockPeer peer, outcome)) := by
    subst isOperation
    have unlocked : Moves (some ⟨task, .client peer (.controlOperation thread), input⟩)
        (world.goOn task (.client peer (.controlOperation thread)) input)
        ((world.goOn task (.client peer (.controlOperation thread)) input).unlockGoal task
          thread) := .single (.unlockGoal task thread (resumed.goal_free rfl))
    exact unlocked.trans ((detached.toHandling.next unlocked rfl rfl).unlock_ends
      (resumed.peer_free rfl) ends)
  unfold resume at goesOn
  split at goesOn
  · rename_i message
    split at goesOn
    · contradiction
    · rename_i free
      rcases Option.some.inj goesOn with rfl
      have locks : Moves (some ⟨task, .client peer (.activityLock message), .ready⟩)
          (world.goOn task (.client peer (.activityLock message)) .ready)
          ((world.goOn task (.client peer (.activityLock message)) .ready).lockPeer task peer) :=
        .single (.lockPeer task peer (by simpa using free))
      exact locks.trans (activity_moves client (detached.next locks rfl rfl rfl)
        (Dict.get?_set_self _ _ _) message)
  · split at goesOn
    · contradiction
    · rename_i free
      rcases Option.some.inj goesOn with rfl
      exact control_moves detached (resumed.now.peerLock peer rfl) (by simpa using free)
  · rename_i thread result
    rcases Option.some.inj goesOn with rfl
    apply leavesBoth rfl
    cases result <;> trivial
  · rename_i result
    rcases Option.some.inj goesOn with rfl
    apply leavesPeer rfl
    cases result <;> trivial
  · rcases Option.some.inj goesOn with rfl
    exact detached.ends trivial
  · rcases Option.some.inj goesOn with rfl
    exact leavesPeer rfl trivial
  · rcases Option.some.inj goesOn with rfl
    exact leavesBoth rfl trivial
  · rcases Option.some.inj goesOn with rfl
    exact leavesPeer rfl trivial
  · contradiction

end Client

/-! ### Steps -/

/-- Every coroutine, from one await to the next. -/
theorem resume_moves {pc : Pc} {input : Input} {stopped : World × Outcome}
    (resumed : Resumed world task pc input) (serving : world.phase = .serving)
    (mayReceive : world.mayReceive task input = true)
    (goesOn : resume (world.goOn task pc input) task pc input = some stopped) :
    Moves (some ⟨task, pc, input⟩) (world.goOn task pc input) (World.stop task stopped) := by
  cases pc with
  | prepareGoalGet | prepareSetPaused | prepareConfirm =>
      exact GoalBridge.prepareResume_moves resumed goesOn
  | sessionGoalGet | sessionObserved | sessionLock | sessionLatestTurn | sessionGoalNow =>
      exact SessionBridge.prepareResume_moves resumed goesOn
  | handoff => exact SessionBridge.handoffResume_moves resumed goesOn
  | deliver lease await =>
      simp only [resume] at goesOn
      split at goesOn
      · rename_i session
        rcases Option.some.inj goesOn with rfl
        exact SessionBridge.wakeStart_moves
          ⟨resumed.delivering rfl, fun _ found =>
            (GoalBridge.wakeMode_of_snapshot (resumed.now.snapshot lease rfl) found).trans session⟩
          resumed.now session
      · rename_i notWake
        refine GoalBridge.deliver_moves resumed (fun isStart isReady => ?_) goesOn
        cases mode : lease.wakeMode with
        | goal => rfl
        | session => exact (notWake isStart isReady mode).elim
  | wake =>
      refine SessionBridge.wakeResume_moves resumed ?_ ?_ goesOn
      · rw [World.goOn, World.setTask_phase]
        rcases world.logReply_cases task _ input with same | ⟨_, _, _, _, logged⟩
        · rw [same, serving]
        · rw [logged, World.log_phase, serving]
      · rw [World.goOn]
        rcases world.logReply_cases task _ input with same | ⟨_, _, _, _, logged⟩
        · rw [same]
          exact mayReceive
        · rw [logged]
          exact mayReceive
  | deadline => exact SessionBridge.deadlineResume_moves resumed goesOn
  | client => exact Client.resume_moves resumed goesOn

/-- A coroutine that has just been started. -/
theorem Inv.detached (inv : Inv world) : Detached (world.spawn .running) world.tasks.length where
  inv := inv.spawn
  running := by simp [World.IsRunning]
  unlisted := fun job isTask => (inv.tables.deliveryTable job _ isTask).ne rfl
  undeadlined := fun job isTask => (inv.tables.deadlineTable job _ isTask).ne rfl

theorem request_moves (inv : Inv world) (request : Json) :
    Moves none (world.spawn .running) (world.begin fun world task =>
      SessionBridge.dispatch (world.log (.received task request)) request) := by
  have received : Moves none (world.spawn .running)
      ((world.spawn .running).log (.received world.tasks.length request)) :=
    .single (.log _ (by simp [Loggable]))
  refine received.trans (SessionBridge.dispatch_moves (inv.detached.next received rfl rfl rfl)
    List.mem_cons_self fun job registered => ?_)
  rcases List.mem_cons.mp registered with isEvent | registered
  · contradiction
  · exact (inv.tables.registered _ job registered).ne rfl

theorem clientMessage_moves (inv : Inv world) (peer : PeerId) (message : Json) :
    Moves none (world.spawn .running) (world.begin fun world _ =>
      (world, .await (.client peer (.activityLock message)))) := by
  refine settle_silent _ inv.detached.running ?_ trivial rfl
  exact Client.suspended inv.detached (fun _ holds => by cases holds) fun _ holds => by cases holds

theorem disconnect_moves (inv : Inv world) (peer : PeerId) :
    Moves none world (SessionBridge.disconnected (world.cancelClients peer) peer) := by
  have cancels : Moves none world (world.cancelClients peer) := by
    refine .single (.cancel _ fun _ task isClient => ?_)
    rcases List.mem_filter.mp isClient with ⟨inside, isClient⟩
    refine ⟨List.mem_range.mp inside, fun pc job suspended delivers => ?_⟩
    rw [suspended] at isClient
    cases pc <;> simp [World.isClientOf, Pc.delivers] at isClient delivers
  exact cancels.trans (SessionBridge.disconnected_moves (inv.moves cancels) peer)

/-- The coroutine that goes on in a step. -/
def World.resumes (world : World) : Action → Option Origin
  | .resume task input =>
      match world.tasks[task]? with
      | some (.suspended pc) => some ⟨task, pc, input⟩
      | _ => none
  | _ => none

/-- The state in which the moves of a step begin: a new coroutine is already running. -/
def World.entered (world : World) : Action → World
  | .request _ | .clientMessage _ _ => world.spawn .running
  | _ => world

@[simp]
theorem World.entered_store (world : World) (action : Action) :
    (world.entered action).store = world.store := by
  cases action <;> rfl

@[simp]
theorem World.entered_trace (world : World) (action : Action) :
    (world.entered action).trace = world.trace := by
  cases action <;> rfl

@[simp]
theorem World.entered_phase (world : World) (action : Action) :
    (world.entered action).phase = world.phase := by
  cases action <;> rfl

theorem Inv.entered (inv : Inv world) (action : Action) : Inv (world.entered action) := by
  cases action with
  | request | clientMessage => exact inv.spawn
  | _ => exact inv

theorem resumeTask_moves {input : Input} (inv : Inv world) (serving : world.phase = .serving)
    (taken : world.resumeTask task input = some after) :
    Moves (world.resumes (.resume task input)) world after := by
  unfold World.resumeTask at taken
  split at taken
  · rename_i pc suspended
    split at taken
    · rename_i mayReceive
      rcases Option.map_eq_some_iff.mp taken with ⟨stopped, goesOn, rfl⟩
      have resumed : Resumed world task pc input := ⟨inv, suspended⟩
      rw [World.resumes, suspended]
      exact resumed.moves.trans (resume_moves resumed serving mayReceive goesOn)
    · contradiction
  · contradiction

/-- What a step of the coordinator consists of. -/
inductive Progress (world : World) : Action → World → Prop where
  | moves {action : Action} {after : World} :
      Moves (world.resumes action) (world.entered action) after →
      Progress world action after
  | crash : Progress world .crash world.crash
  | connect : world.phase = .down → Progress world .connect { world with phase := .connecting }
  | start : world.phase = .connecting → Progress world .start
      (({ world.store.pending.foldl SessionBridge.recoverLease world with
        phase := .serving } : World).log .started)

theorem progress (inv : Inv world) {action : Action} (taken : step world action = some after) :
    Progress world action after := by
  cases action with
  | tick now =>
      rcases Option.some.inj taken with rfl
      exact .moves (.single (.internal _ _ _ _ _ _ _))
  | request request =>
      obtain ⟨-, rfl⟩ := by simpa [step] using taken
      exact .moves (request_moves inv request)
  | notification method params =>
      obtain ⟨-, rfl⟩ := by simpa [step] using taken
      exact .moves (SessionBridge.onNotification_moves inv method params)
  | observe peer method params =>
      obtain ⟨-, rfl⟩ := by simpa [step] using taken
      exact .moves (SessionBridge.observe_moves inv peer method params)
  | clientMessage peer message =>
      obtain ⟨-, rfl⟩ := by simpa [step] using taken
      exact .moves (clientMessage_moves inv peer message)
  | disconnect peer =>
      obtain ⟨-, rfl⟩ := by simpa [step] using taken
      exact .moves (disconnect_moves inv peer)
  | resume task input =>
      obtain ⟨serving, taken⟩ := by simpa [step] using taken
      exact .moves (resumeTask_moves inv serving taken)
  | cancel task =>
      obtain ⟨-, rfl⟩ := by simpa [step] using taken
      have requested : Moves none world (world.log (.cancelRequested task)) :=
        .single (.log _ trivial)
      refine .moves (requested.tail (.cancel [task] fun undisturbed => ?_))
      exact absurd List.mem_cons_self (undisturbed task)
  | crash =>
      rcases Option.some.inj taken with rfl
      exact .crash
  | connect =>
      obtain ⟨down, rfl⟩ := by simpa [step] using taken
      exact .connect down
  | start =>
      obtain ⟨connecting, rfl⟩ := by simpa [step] using taken
      exact .start connecting

end Longrun.Bridge
