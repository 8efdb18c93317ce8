import Longrun.Bridge.GoalMoves

/-!
# The moves of the session bridge

Every coroutine and event handler of the session bridge, from one await to the next, is a sequence
of moves.
-/

namespace Longrun.Bridge

variable {origin : Option Origin} {world after : World} {task : TaskId} {job : JobId}

namespace World

theorem at_scheduleDelivery {lease : WakeLease} {pc : Pc}
    (suspended : (world.scheduleDelivery lease).At task pc) :
    world.At task pc ∨ pc = .deliver lease .start := by
  rcases world.scheduleDelivery_cases lease with same | ⟨spawned, -⟩
  · rw [same] at suspended
    exact .inl suspended
  · rw [spawned] at suspended
    rcases at_spawn suspended with ⟨-, isStart⟩ | suspended
    · exact .inr (TaskStatus.suspended.inj isStart).symm
    · exact .inl suspended

theorem at_scheduleDeadline {lease : WakeLease} {pc : Pc}
    (suspended : (world.scheduleDeadline lease).At task pc) :
    world.At task pc ∨ pc = .deadline lease .start := by
  rcases world.scheduleDeadline_cases lease with same | spawned
  · rw [same] at suspended
    exact .inl suspended
  · rw [spawned] at suspended
    rcases at_spawn suspended with ⟨-, isStart⟩ | suspended
    · exact .inr (TaskStatus.suspended.inj isStart).symm
    · exact .inl suspended

end World

/-- Nobody holds a lock that is free. -/
theorem Inv.peer_free (inv : Inv world) {peer : PeerId}
    (free : world.activityLocks.get? peer = none) :
    ∀ other pc, world.At other pc → pc.holdsPeer ≠ some peer := by
  intro other pc suspended holds
  rw [(inv.suspended other pc suspended).peerLock peer holds] at free
  contradiction

/-- A coroutine that held the activity lock of a connection ends. -/
theorem Handling.unlock_ends (handling : Handling world task) {peer : PeerId}
    (free : ∀ other pc, world.At other pc → pc.holdsPeer ≠ some peer) {outcome : Outcome}
    (ends : outcome.Ends) :
    Moves origin world (World.stop task (world.unlockPeer peer, outcome)) := by
  have unlocked : Moves origin world (world.unlockPeer peer) := .single (.unlockPeer peer free)
  exact unlocked.trans ((handling.next unlocked rfl rfl).ends ends)

namespace SessionBridge

/-! ### Registration -/

theorem sessionArguments_jobId {thread : ThreadId} {goal request : Json} {call : SessionCall}
    (arguments : sessionArguments job thread goal request = .ok call) : call.jobId = job := by
  unfold sessionArguments at arguments
  simp only [bind, Except.bind, pure, Except.pure, throw, throwThe, MonadExceptOf.throw]
    at arguments
  repeat' split at arguments
  all_goals cases arguments
  rfl

theorem prepare_moves (registering : Registering world task job) (request : Json) :
    Moves origin world (World.stop task (prepare world job request)) := by
  unfold prepare
  extract_lets policy
  split
  · exact GoalBridge.prepare_moves registering request
  · split
    · exact registering.ends (raise_ends _)
    · exact registering.ends (raise_ends _)
    · exact registering.ends (raise_ends _)
    · exact settle_read _ registering.running
        (registering.suspended rfl rfl rfl rfl rfl trivial) trivial rfl rfl

theorem prepareGoalState_moves (registering : Registering world task job) (thread : ThreadId)
    (request : Json) (auto : Bool) (result : Except PyError Json) :
    Moves origin world
      (World.stop task (prepareGoalState world job thread request auto result)) := by
  unfold prepareGoalState
  split
  · exact registering.ends (raise_ends _)
  · dsimp only
    split
    · exact registering.ends (raise_ends _)
    · split
      · exact GoalBridge.prepare_moves registering request
      · split
        · exact registering.ends (raise_ends _)
        · rename_i call arguments
          rcases sessionArguments_jobId arguments with rfl
          exact settle_silent _ registering.running
            (registering.suspended rfl rfl rfl rfl rfl trivial) trivial rfl

section Exclusive

variable {call : SessionCall} {turn : String} {peer : PeerId} {result : Except PyError Json}

theorem prepareExclusive_moves {input : Input} (handling : Handling world task)
    (relies : Suspended world task (.sessionLock call turn peer))
    (free : world.activityLocks.get? peer = none) :
    Moves (some ⟨task, .sessionLock call turn peer, input⟩) world
      (World.stop task (prepareExclusive (world.lockPeer task peer) call turn peer)) := by
  have locked : Moves (some ⟨task, .sessionLock call turn peer, input⟩) world
      (world.lockPeer task peer) := .single (.lockPeer task peer free)
  have handlingLocked := handling.next locked rfl rfl
  have others : ∀ other pc, (world.lockPeer task peer).At other pc →
      pc.holdsPeer ≠ some peer := handling.inv.peer_free free
  unfold prepareExclusive
  split
  · exact locked.trans (handlingLocked.unlock_ends others (raise_ends _))
  · split
    · exact locked.trans (handlingLocked.unlock_ends others (raise_ends _))
    · rename_i known
      rw [ne_eq, not_not] at known
      refine locked.trans (settle_read (.sessionLatestTurn call turn peer)
        handlingLocked.running ?_ ⟨known, input, rfl⟩ rfl rfl)
      exact { relies with
        peerLock := by
          intro held holds
          rcases Option.some.inj holds with rfl
          exact Dict.get?_set_self _ _ _
        stage := trivial }

theorem prepareLatestTurn_moves {input : Input} (handling : Handling world task)
    (relies : Suspended world task (.sessionLatestTurn call turn peer))
    (free : ∀ other pc, world.At other pc → pc.holdsPeer ≠ some peer) :
    Moves (some ⟨task, .sessionLatestTurn call turn peer, input⟩) world
      (World.stop task (prepareLatestTurn world call turn peer result)) := by
  unfold prepareLatestTurn
  split
  · exact handling.unlock_ends free (raise_ends _)
  · split
    · exact handling.unlock_ends free (raise_ends _)
    · exact settle_read (.sessionGoalNow call turn peer) handling.running
        { relies with stage := trivial } ⟨input, rfl⟩ rfl rfl

/-- A registered lease gets its owner and its deadline, and the lock is released. -/
theorem armed_moves (lease : WakeLease) {row : WakeLease} (handling : Handling world task)
    (free : ∀ other pc, world.At other pc → pc.holdsPeer ≠ some peer)
    (found : world.row lease.jobId = some row) (identity : row.identity = lease.identity)
    {outcome : Outcome} (ends : outcome.Ends) :
    Moves origin world (World.stop task
      (((setLeasePeer world job peer).scheduleDeadline lease).unlockPeer peer, outcome)) := by
  have owned : Moves origin world (setLeasePeer world job peer) :=
    .single (.internal _ _ _ _ _ _ _)
  have handlingOwned := handling.next owned rfl rfl
  have snapshot : (setLeasePeer world job peer).Snapshot lease := ⟨row, found, identity⟩
  refine owned.trans ((scheduleDeadline_moves snapshot).trans
    ((handlingOwned.scheduleDeadline snapshot).unlock_ends ?_ ends))
  intro other pc suspended
  rcases World.at_scheduleDeadline suspended with suspended | rfl
  · exact free other pc suspended
  · simp [Pc.holdsPeer]

theorem prepareArm_moves {input : Input} (registering : Registering world task call.jobId)
    (free : ∀ other pc, world.At other pc → pc.holdsPeer ≠ some peer) :
    Moves (some ⟨task, .sessionGoalNow call turn peer, input⟩) world
      (World.stop task (prepareArm world task call turn peer result)) := by
  unfold prepareArm
  dsimp only
  split
  · exact registering.unlock_ends free (raise_ends _)
  · split
    · exact registering.unlock_ends free (raise_ends _)
    · rename_i isReusable
      rw [not_not] at isReusable
      split
      · exact registering.unlock_ends free (raise_ends _)
      · rename_i registered lease created
        rcases GoalBridge.createLease_cases created with
          ⟨store, fresh, isStored, rfl, rows, rfl⟩ | ⟨rfl, found, -⟩
        · rw [if_neg (by simp [NewLease.row, newSessionLease])]
          have inserted : Moves (some ⟨task, .sessionGoalNow call turn peer, input⟩) world
              ((({ world with store := store } : World).log (.registered task call.jobId)).update
                call.jobId { state := some .armed }) :=
            .single (.registerSession task _ registering.running registering.received fresh
              isStored rfl rfl rfl ⟨call, turn, peer, input, rfl, rfl, rfl⟩)
          have isNew : (({ world with store := store } : World).log
              (.registered task call.jobId)).row call.jobId =
                some (newSessionLease world call turn).row :=
            (rows call.jobId).trans (if_pos rfl)
          have later : (newSessionLease world call turn).row.Later
              (LeaseUpdate.apply { state := some .armed }
                (newSessionLease world call turn).row) := ⟨rfl, Nat.zero_le _⟩
          exact inserted.trans (armed_moves
            (LeaseUpdate.apply { state := some .armed } (newSessionLease world call turn).row)
            (registering.toHandling.next inserted rfl rfl) free
            (World.row_update_self isNew later) rfl (answer_ends _))
        · split
          · exact registering.unlock_ends free (raise_ends _)
          · rename_i same
            simp only [not_or, not_not] at same
            have armed : lease.state = .armed := by
              simp only [reusable, World.row, newSessionLease] at isReusable found
              rw [found] at isReusable
              simp only [Option.all_some, Bool.and_eq_true, decide_eq_true_eq] at isReusable
              exact isReusable.1
            have sameJob : lease.jobId = call.jobId := BridgeState.jobId_of_get found
            have legal : Legal (some ⟨task, .sessionGoalNow call turn peer, input⟩) registered lease
                { state := some .armed } := .rearm same.1 armed
            have rearmed : Moves (some ⟨task, .sessionGoalNow call turn peer, input⟩) registered
                (registered.update call.jobId { state := some .armed }) :=
              .single (.update call.jobId _ found legal)
            have isRow : (registered.update call.jobId { state := some .armed }).row
                (LeaseUpdate.apply { state := some .armed } lease).jobId =
                  some (LeaseUpdate.apply { state := some .armed } lease) := by
              rw [LeaseUpdate.apply_jobId, sameJob]
              exact World.row_update_self found legal.later
            exact rearmed.trans (armed_moves _ (registering.toHandling.next rearmed rfl rfl) free
              isRow rfl (answer_ends _))

end Exclusive

theorem prepareResume_moves {pc : Pc} {input : Input} {stopped : World × Outcome}
    (resumed : Resumed world task pc input)
    (goesOn : prepareResume (world.goOn task pc input) task pc input = some stopped) :
    Moves (some ⟨task, pc, input⟩) (world.goOn task pc input) (World.stop task stopped) := by
  unfold prepareResume at goesOn
  split at goesOn
  · rcases Option.some.inj goesOn with rfl
    exact prepareGoalState_moves (resumed.registering rfl) _ _ _ _
  · unfold prepareObserved at goesOn
    split at goesOn
    · rcases Option.some.inj goesOn with rfl
      exact settle_silent _ resumed.running
        ((resumed.registering rfl).suspended rfl rfl rfl rfl rfl trivial) trivial rfl
    · contradiction
  · rcases Option.some.inj goesOn with rfl
    exact (resumed.handling rfl).ends (raise_ends _)
  · split at goesOn
    · contradiction
    · rename_i free
      rcases Option.some.inj goesOn with rfl
      exact prepareExclusive_moves (resumed.handling rfl) resumed.now (by simpa using free)
  · rcases Option.some.inj goesOn with rfl
    exact prepareLatestTurn_moves (resumed.handling rfl) resumed.now (resumed.peer_free rfl)
  · rcases Option.some.inj goesOn with rfl
    exact prepareArm_moves (resumed.registering rfl) (resumed.peer_free rfl)
  · rcases Option.some.inj goesOn with rfl
    exact (resumed.handling rfl).ends trivial
  · rcases Option.some.inj goesOn with rfl
    exact (resumed.handling rfl).ends trivial
  · rcases Option.some.inj goesOn with rfl
    exact (resumed.handling rfl).ends trivial
  · rcases Option.some.inj goesOn with rfl
    exact (resumed.handling rfl).unlock_ends (resumed.peer_free rfl) trivial
  · rcases Option.some.inj goesOn with rfl
    exact (resumed.handling rfl).unlock_ends (resumed.peer_free rfl) trivial
  · contradiction

/-! ### Liveness and ownership -/

theorem liveSession_ok {lease : WakeLease} (live : liveSession world job = .ok lease) :
    world.row job = some lease ∧ lease.wakeMode = .session ∧
      (lease.state = .armed ∨ lease.state = .terminal) := by
  unfold liveSession at live
  split at live
  · rename_i current found
    split at live
    · contradiction
    · rename_i isLive
      rcases Except.ok.inj live with rfl
      simp only [not_or, not_not, ne_eq] at isLive
      exact ⟨found, isLive.1, by tauto⟩
  · contradiction

theorem isLive_of_liveSession {lease : WakeLease} (live : liveSession world job = .ok lease) :
    lease.isLive = true := by
  rcases liveSession_ok live with ⟨-, -, state⟩
  exact WakeLease.isLive_iff.mpr (.inr state)

theorem owner_ok {lease : WakeLease} {peer : PeerId} (owned : owner world lease = .ok peer) :
    world.peers.get? lease.threadId = some peer := by
  unfold owner at owned
  split at owned
  · split at owned
    · rename_i owns
      rcases Except.ok.inj owned with rfl
      exact owns.1
    · contradiction
  · contradiction

/-- The failure of a session lease settles it, unless it is not live. -/
theorem sessionFailed_cases (world : World) (job : JobId) (reason : String) :
    (sessionFailed world job reason = world ∧ ∀ row, world.row job = some row →
        row.state ≠ .armed ∧ row.state ≠ .terminal) ∨
      ∃ row, world.row job = some row ∧ row.isLive = true ∧
        sessionFailed world job reason =
          (world.update job (GoalBridge.needsManualRecovery reason)).popLeasePeer job := by
  unfold sessionFailed
  split
  · rename_i row found
    split
    · rename_i state
      exact .inr ⟨row, found, WakeLease.isLive_iff.mpr (.inr state), rfl⟩
    · rename_i state
      rw [not_or] at state
      refine .inl ⟨rfl, fun other isOther => ?_⟩
      rcases Option.some.inj (found.symm.trans isOther) with rfl
      exact state
  · rename_i absent
    exact .inl ⟨rfl, fun row found => absurd (absent.symm.trans found) (by simp)⟩

theorem sessionFailed_moves (reason : String)
    (session : ∀ row, world.row job = some row → row.wakeMode = .session) :
    Moves origin world (sessionFailed world job reason) := by
  rcases sessionFailed_cases world job reason with ⟨same, -⟩ | ⟨row, found, live, failed⟩
  · rw [same]
  · rw [failed]
    have legal : Legal origin world row (GoalBridge.needsManualRecovery reason) := by
      refine .fail reason (.inl live) fun goal => ?_
      rw [session row found] at goal
      contradiction
    exact (Relation.ReflTransGen.single (.update job _ found legal)).tail
      (.internal _ _ _ _ _ _ _)

@[simp]
theorem sessionFailed_tasks (world : World) (job : JobId) (reason : String) :
    (sessionFailed world job reason).tasks = world.tasks := by
  rcases sessionFailed_cases world job reason with ⟨same, -⟩ | ⟨_, _, _, failed⟩
  · rw [same]
  · rw [failed]
    rfl

@[simp]
theorem sessionFailed_deliveryTasks (world : World) (job : JobId) (reason : String) :
    (sessionFailed world job reason).deliveryTasks = world.deliveryTasks := by
  rcases sessionFailed_cases world job reason with ⟨same, -⟩ | ⟨_, _, _, failed⟩
  · rw [same]
  · rw [failed]
    rfl

/-- After the failure the lease is not live; only a Goal lease can still be preparing. -/
theorem sessionFailed_settled (reason : String) (inv : Inv world)
    (session : ∀ row, world.row job = some row → row.wakeMode = .session) :
    ¬(sessionFailed world job reason).Live job := by
  rintro ⟨row, found, live⟩
  rcases sessionFailed_cases world job reason with ⟨same, unfit⟩ | ⟨before, isRow, -, failed⟩
  · rw [same] at found
    rcases WakeLease.isLive_iff.mp live with state | state | state
    · have goal := ((inv.row_consistent found).preparing state).2
      rw [session row found] at goal
      contradiction
    · exact (unfit row found).1 state
    · exact (unfit row found).2 state
  · rw [failed] at found
    have later : before.Later ((GoalBridge.needsManualRecovery reason).apply before) := by
      refine ⟨rfl, ?_⟩
      cases before.state <;> simp [GoalBridge.needsManualRecovery, LeaseUpdate.apply,
        LeaseState.rank]
    have isFailed := World.row_update_self isRow later
    rcases Option.some.inj (isFailed.symm.trans found) with rfl
    contradiction

/-! ### Handoff -/

section Handoff

variable {call : HandoffCall} {result : Except PyError Json}

theorem handoff_moves (detached : Detached world task) (request : Json) :
    Moves origin world (World.stop task (handoff world job request)) := by
  unfold handoff
  split
  · split
    · exact detached.ends (raise_ends _)
    · rename_i lease live
      split
      · exact detached.ends (answer_ends _)
      · split
        · exact detached.ends (raise_ends _)
        · rename_i jobState _ _ _ _ _ peer owned
          rcases liveSession_ok live with ⟨found, session, -⟩
          have sameJob : lease.jobId = job := BridgeState.jobId_of_get found
          refine settle_silent _ detached.running (detached.suspended ?_ rfl rfl rfl
            (fun _ registers => by cases registers) ⟨session, ?_, trivial⟩) trivial rfl
          · intro copy isCopy
            rcases Option.some.inj isCopy with rfl
            exact ⟨lease, by rw [sameJob]; exact found, rfl⟩
          · exact fun _ _ _ _ => owner_ok owned
  · exact detached.ends (raise_ends _)
  · exact detached.ends (raise_ends _)

/-- A running handoff that does not hold the activity lock, or is about to release it. -/
structure HandingOff (world : World) (task : TaskId) (call : HandoffCall) : Prop
    extends Handling world task where
  session : ∀ row, world.row call.lease.jobId = some row → row.wakeMode = .session

namespace HandingOff

theorem failed (handing : HandingOff world task call) (error : PyError) :
    Moves origin world (World.stop task (handoffFailed world call error)) := by
  have moves : Moves origin _ _ := sessionFailed_moves
    ("handoff failed: " ++ error.message) handing.session
  exact moves.trans ((handing.toHandling.next moves (sessionFailed_tasks ..)
    (sessionFailed_deliveryTasks ..)).ends (raise_ends _))

theorem unlock (handing : HandingOff world task call) (origin : Option Origin)
    (free : ∀ other pc, world.At other pc → pc.holdsPeer ≠ some call.peer) :
    Moves origin world (world.unlockPeer call.peer) ∧
      HandingOff (world.unlockPeer call.peer) task call := by
  have moves : Moves origin world (world.unlockPeer call.peer) :=
    .single (.unlockPeer call.peer free)
  exact ⟨moves, handing.toHandling.next moves rfl rfl, handing.session⟩

theorem exception (handing : HandingOff world task call)
    (free : ∀ other pc, world.At other pc → pc.holdsPeer ≠ some call.peer) (error : PyError) :
    Moves origin world (World.stop task (transferException world call error)) := by
  rcases handing.unlock origin free with ⟨moves, unlocked⟩
  exact moves.trans (unlocked.failed error)

theorem popTurnDone (handing : HandingOff world task call) (origin : Option Origin) :
    Moves origin world (SessionBridge.popTurnDone world call.lease) ∧
      HandingOff (SessionBridge.popTurnDone world call.lease) task call := by
  have moves : Moves origin world (SessionBridge.popTurnDone world call.lease) :=
    .single (.internal _ _ _ _ _ _ _)
  exact ⟨moves, handing.toHandling.next moves rfl rfl, handing.session⟩

theorem interruptException (handing : HandingOff world task call)
    (free : ∀ other pc, world.At other pc → pc.holdsPeer ≠ some call.peer) (error : PyError) :
    Moves origin world (World.stop task (SessionBridge.interruptException world call error)) := by
  rcases handing.popTurnDone origin with ⟨moves, popped⟩
  exact moves.trans (popped.exception free error)

end HandingOff

/-- A handoff that goes on after an await. -/
theorem handingOff_of_resumed {await : HandoffAt} {input : Input}
    (resumed : Resumed world task (.handoff call await) input) :
    HandingOff (world.goOn task (.handoff call await) input) task call where
  toHandling := resumed.handling rfl
  session := fun _ found =>
    (GoalBridge.wakeMode_of_snapshot (resumed.now.snapshot call.lease rfl) found).trans
      resumed.now.stage.1

theorem transferStart_moves (handing : HandingOff world task call)
    (relies : Suspended world task (.handoff call .lock))
    (free : world.activityLocks.get? call.peer = none) :
    Moves origin world (World.stop task (transferStart (world.lockPeer task call.peer) call)) := by
  have locked : Moves origin world (world.lockPeer task call.peer) :=
    .single (.lockPeer task call.peer free)
  have handingLocked : HandingOff (world.lockPeer task call.peer) task call :=
    ⟨handing.toHandling.next locked rfl rfl, handing.session⟩
  have others : ∀ other pc, (world.lockPeer task call.peer).At other pc →
      pc.holdsPeer ≠ some call.peer := handing.inv.peer_free free
  unfold transferStart
  split
  · exact locked.trans (handingLocked.exception others _)
  · rename_i current live
    split
    · exact locked.trans (handingLocked.exception others _)
    · rename_i pending
      rw [ne_eq, not_not] at pending
      refine locked.trans (settle_read (.handoff call .checkGoal) handingLocked.running ?_
        trivial rfl rfl)
      exact { relies with
        peerLock := by
          intro held holds
          rcases Option.some.inj holds with rfl
          exact Dict.get?_set_self _ _ _
        stage := by
          refine ⟨relies.stage.1, relies.stage.2.1, fun row found _ => ?_⟩
          rcases Option.some.inj ((liveSession_ok live).1.symm.trans found) with rfl
          exact pending }

theorem transferChecked_moves (handing : HandingOff world task call)
    (relies : Suspended world task (.handoff call .checkGoal))
    (free : ∀ other pc, world.At other pc → pc.holdsPeer ≠ some call.peer) :
    Moves origin world (World.stop task (transferChecked world call result)) := by
  unfold transferChecked
  split
  · exact handing.exception free _
  · exact settle_read (.handoff call .latestTurn) handing.running
      { relies with stage := relies.stage } trivial rfl rfl

/-- The connection whose activity lock it holds owns the thread of a live lease, so no other
handoff of the job holds an activity lock. -/
theorem untransferred_of_resumed {await : HandoffAt} {input : Input} {row : WakeLease}
    (resumed : Resumed world task (.handoff call await) input) (locked : await ≠ .lock)
    (found : (world.goOn task (.handoff call await) input).row call.lease.jobId = some row)
    (live : row.isLive = true) (idle : row.deliveryState ≠ .activating) :
    (world.goOn task (.handoff call await) input).Untransferred call.lease.jobId := by
  intro other pc suspended transfers
  have theirs := resumed.next_inv.suspended other pc suspended
  have mine := resumed.now
  cases pc with
  | handoff otherCall otherAwait =>
      have otherLocked : otherAwait ≠ .lock := by
        rintro rfl
        contradiction
      have sameJob : otherCall.lease.jobId = call.lease.jobId := by
        cases otherAwait <;> first | contradiction | exact Option.some.inj transfers
      have holds : (Pc.handoff otherCall otherAwait).holdsPeer = some otherCall.peer := by
        cases otherAwait <;> first | contradiction | rfl
      have iHold : (Pc.handoff call await).holdsPeer = some call.peer := by
        cases await <;> first | contradiction | rfl
      rcases theirs.snapshot otherCall.lease rfl with ⟨current, isCurrent, identity⟩
      rcases mine.snapshot call.lease rfl with ⟨own, isOwn, ownIdentity⟩
      rw [sameJob] at isCurrent
      rcases Option.some.inj (found.symm.trans isCurrent) with rfl
      rcases Option.some.inj (found.symm.trans isOwn) with rfl
      have owned := mine.stage.2.1 row found live idle
      have otherOwned := theirs.stage.2.1 row (by rw [sameJob]; exact found) live idle
      have sameThread : otherCall.lease.threadId = call.lease.threadId :=
        (congrArg (·.2.1) identity).symm.trans (congrArg (·.2.1) ownIdentity)
      rw [sameThread] at otherOwned
      have samePeer : otherCall.peer = call.peer :=
        Option.some.inj (otherOwned.symm.trans owned)
      exact resumed.peer_free iHold other _ suspended (samePeer ▸ holds)
  | _ => contradiction

theorem interruptChecks_ok (checked : interruptChecks world call result = .ok ()) :
    ∃ current, liveSession world call.lease.jobId = .ok current := by
  unfold interruptChecks at checked
  rcases bind_eq_ok.mp checked with ⟨answer, _, afterAnswer⟩
  rcases bind_eq_ok.mp afterAnswer with ⟨latest, _, afterLatest⟩
  simp only [bind, Except.bind, pure, Except.pure, throw, throwThe, MonadExceptOf.throw]
    at afterLatest
  repeat' split at afterLatest
  all_goals first | contradiction | exact ⟨_, ‹_›⟩

theorem turnDoneEvent_eq (world : World) (lease : WakeLease) :
    ∃ turnDone nextEvent, (turnDoneEvent world lease).1 =
      { world with turnDone := turnDone, nextEvent := nextEvent } := by
  unfold turnDoneEvent
  split
  · exact ⟨world.turnDone, world.nextEvent, rfl⟩
  · exact ⟨_, _, rfl⟩

/-- The connection, the row and the copy of a handoff belong together. -/
theorem handoff_row {row : WakeLease} (snapshot : world.Snapshot call.lease)
    (found : world.row call.lease.jobId = some row) :
    row.jobId = call.lease.jobId ∧ row.threadId = call.lease.threadId ∧
      row.turnId = call.lease.turnId := by
  rcases snapshot with ⟨current, isCurrent, identity⟩
  rcases Option.some.inj (found.symm.trans isCurrent) with rfl
  exact ⟨congrArg (·.1) identity, congrArg (·.2.1) identity,
    congrArg (·.2.2.2.2.2.1) identity⟩

theorem not_activating_of_handoff {row : WakeLease} (inv : Inv world)
    (found : world.row job = some row) (session : row.wakeMode = .session)
    (live : row.isLive = true) (notReady : row.handoffState ≠ .ready) :
    row.deliveryState ≠ .activating :=
  fun activating => notReady
    ((inv.row_consistent found).activatingReady session live activating)

theorem transferInterrupt_moves
    (resumed : Resumed world task (.handoff call .latestTurn) (.reply result)) :
    Moves origin (world.goOn task (.handoff call .latestTurn) (.reply result))
      (World.stop task (transferInterrupt (world.goOn task (.handoff call .latestTurn)
        (.reply result)) call result)) := by
  have handing := handingOff_of_resumed resumed
  have free := resumed.peer_free (show Pc.holdsPeer _ = some call.peer from rfl)
  have relies := resumed.now
  unfold transferInterrupt
  split
  · exact handing.exception free _
  · rename_i checked
    rcases interruptChecks_ok checked with ⟨row, isLive⟩
    rcases liveSession_ok isLive with ⟨found, session, -⟩
    have live := isLive_of_liveSession isLive
    have pending : row.handoffState = .pending := relies.stage.2.2 row found live
    rcases handoff_row (relies.snapshot _ rfl) found with ⟨sameJob, sameThread, sameTurn⟩
    have untransferred := untransferred_of_resumed resumed (by simp) found live
      (not_activating_of_handoff resumed.next_inv found session live (by simp [pending]))
    rcases isEvent : turnDoneEvent (world.goOn task (.handoff call .latestTurn) (.reply result))
      call.lease with ⟨prepared, done⟩
    obtain ⟨turnDone, nextEvent, isPrepared⟩ := turnDoneEvent_eq
      (world.goOn task (.handoff call .latestTurn) (.reply result)) call.lease
    rw [isEvent] at isPrepared
    dsimp only at isPrepared
    subst isPrepared
    let fields : LeaseUpdate :=
      { handoffState := some .interrupting, receiptState := some call.jobState }
    have later : row.Later (fields.apply row) := ⟨rfl, le_refl _⟩
    have sent : Move origin (world.goOn task (.handoff call .latestTurn) (.reply result)) _ :=
      .interrupt task call.peer call.jobState (sameJob ▸ found) session live pending
        (sameJob ▸ untransferred)
    rw [sameJob, sameThread, sameTurn] at sent
    refine ((Relation.ReflTransGen.single sent).tail
      (.internal _ _ _ _ _ turnDone nextEvent)).tail
        (.suspend task (.handoff call (.interrupt done)) resumed.running ?_ trivial)
    have bound := (relies.toBound.update found later).log
      (.sent task call.lease.jobId (.peer call.peer)
        (.turnInterrupt call.lease.threadId call.lease.turnId)) fun _ isEvent => by cases isEvent
    have isRow := World.row_update_self found later
    exact { bound with
      stage := by
        refine ⟨relies.stage.1, fun after isAfter live' idle => ?_, fun after isAfter _ => ?_⟩
        · rcases Option.some.inj (isRow.symm.trans isAfter) with rfl
          exact relies.stage.2.1 row found live idle
        · rcases Option.some.inj (isRow.symm.trans isAfter) with rfl
          rfl }

theorem transferInterrupted_moves {done : Nat} (handing : HandingOff world task call)
    (relies : Suspended world task (.handoff call (.interrupt done)))
    (free : ∀ other pc, world.At other pc → pc.holdsPeer ≠ some call.peer) :
    Moves origin world (World.stop task (transferInterrupted world call done result)) := by
  unfold transferInterrupted
  split
  · exact handing.interruptException free _
  · exact settle_silent (.handoff call (.turnDone done)) handing.running
      { relies with stage := relies.stage } trivial rfl

theorem confirmChecks_ok (checked : confirmChecks world call result = .ok ()) :
    ∃ answer current, result = .ok answer ∧ InterruptedTurn call.lease answer ∧
      liveSession world call.lease.jobId = .ok current := by
  unfold confirmChecks at checked
  rcases bind_eq_ok.mp checked with ⟨answer, isAnswer, afterAnswer⟩
  rcases bind_eq_ok.mp afterAnswer with ⟨latest, isLatest, afterLatest⟩
  have interrupted : isTurn latest call.lease.turnId "interrupted" = true := by
    by_contra other
    simp [other, throw, throwThe, MonadExceptOf.throw, bind, Except.bind] at afterLatest
  simp only [bind, Except.bind, pure, Except.pure, throw, throwThe, MonadExceptOf.throw]
    at afterLatest
  repeat' split at afterLatest
  all_goals first
    | contradiction
    | exact ⟨answer, _, isAnswer, ⟨latest, isLatest, interrupted⟩, ‹_›⟩

theorem transferConfirm_moves
    (resumed : Resumed world task (.handoff call .confirm) (.reply result)) :
    Moves origin (world.goOn task (.handoff call .confirm) (.reply result))
      (World.stop task (transferConfirm (world.goOn task (.handoff call .confirm)
        (.reply result)) call result)) := by
  have handing := handingOff_of_resumed resumed
  have free := resumed.peer_free (show Pc.holdsPeer _ = some call.peer from rfl)
  have relies := resumed.now
  unfold transferConfirm
  split
  · exact handing.interruptException free _
  · rename_i checked
    rcases confirmChecks_ok checked with ⟨answer, row, rfl, interrupted, isLive⟩
    rcases liveSession_ok isLive with ⟨found, session, -⟩
    have live := isLive_of_liveSession isLive
    have interrupting : row.handoffState = .interrupting := relies.stage.2.2.1 row found live
    have idle := not_activating_of_handoff resumed.next_inv found session live
      (by simp [interrupting])
    rcases handoff_row (relies.snapshot _ rfl) found with ⟨sameJob, -, sameTurn⟩
    have untransferred := untransferred_of_resumed resumed (by simp) found live idle
    have legal : Legal origin (world.goOn task (.handoff call .confirm) (.reply (.ok answer)))
        row { handoffState := some .recordingReceipt } :=
      .recordReceipt session live interrupting (sameJob ▸ untransferred)
    have updated : Moves origin (world.goOn task (.handoff call .confirm) (.reply (.ok answer)))
        _ := .single (.update call.lease.jobId _ found legal)
    have isRow := World.row_update_self found legal.later
    have hasTurn : ∃ turn, call.lease.turnId = some turn := by
      rw [← sameTurn]
      exact Option.isSome_iff_exists.mp
        ((resumed.next_inv.row_consistent found).session session).2.1
    rcases hasTurn with ⟨turn, isTurn⟩
    have completed := resumed.before.stage.2.2.2
    rw [isTurn] at completed
    have confirmed : InterruptConfirmed
        (world.goOn task (.handoff call .confirm) (.reply (.ok answer))).processTrace
          task call := by
      refine ⟨turn, answer, isTurn, interrupted, ?_⟩
      rw [World.processTrace, World.goOn_trace rfl, List.takeWhile_cons_of_pos rfl]
      exact (List.singleton_sublist.mpr completed).cons_cons _
    refine updated.trans (settle_request (.handoff call .inject) resumed.running ?_ trivial
      rfl ?_)
    · exact { relies.toBound.update found legal.later with
        stage := by
          refine ⟨relies.stage.1, fun after isAfter _ _ => ?_, fun after isAfter _ => ?_, ?_⟩
          · exact relies.stage.2.1 row found live idle
          · rcases Option.some.inj (isRow.symm.trans isAfter) with rfl
            rfl
          · exact confirmed }
    · exact ⟨⟨rfl, rfl, rfl⟩, (fun impossible => by cases impossible), fun _ => ⟨_, isRow, live, idle⟩⟩

theorem transferReady_moves
    (resumed : Resumed world task (.handoff call .inject) (.reply result)) :
    Moves origin (world.goOn task (.handoff call .inject) (.reply result))
      (World.stop task (transferReady (world.goOn task (.handoff call .inject)
        (.reply result)) call result)) := by
  have handing := handingOff_of_resumed resumed
  have free := resumed.peer_free (show Pc.holdsPeer _ = some call.peer from rfl)
  have relies := resumed.now
  unfold transferReady
  split
  · exact handing.interruptException free _
  · rename_i row answered
    rcases bind_eq_ok.mp answered with ⟨accepted, rfl, isLive⟩
    rcases liveSession_ok isLive with ⟨found, session, state⟩
    have live := isLive_of_liveSession isLive
    have recording : row.handoffState = .recordingReceipt := relies.stage.2.2.1 row found live
    have idle := not_activating_of_handoff resumed.next_inv found session live
      (by simp [recording])
    rcases handoff_row (relies.snapshot _ rfl) found with ⟨sameJob, sameThread, sameTurn⟩
    have untransferred := untransferred_of_resumed resumed (by simp) found live idle
    have confirmed : HandoffConfirmed
        (world.goOn task (.handoff call .inject) (.reply (.ok accepted))).processTrace
          call.lease := by
      rcases resumed.before.stage.2.2.2 with ⟨turn, answer, isTurn, interrupted, order⟩
      refine ⟨task, call.peer, turn, answer, receipt call, accepted, isTurn, interrupted, ?_⟩
      rw [World.processTrace, World.goOn_trace rfl, List.takeWhile_cons_of_pos rfl]
      exact order.cons_cons _
    have legal : Legal origin (world.goOn task (.handoff call .inject) (.reply (.ok accepted)))
        row { handoffState := some .ready } :=
      .ready session live recording (confirmed.congr sameJob sameThread sameTurn)
        (sameJob ▸ untransferred)
    have updated : Moves origin (world.goOn task (.handoff call .inject)
        (.reply (.ok accepted))) _ := .single (.update call.lease.jobId _ found legal)
    have handlingUpdated := handing.toHandling.next updated rfl rfl
    have isRow := World.row_update_self found legal.later
    -- The lock is released and the event of the handoff is dropped in any case.
    have leaves {other : World} (handling : Handling other task)
        (others : ∀ otherTask pc, other.At otherTask pc → pc.holdsPeer ≠ some call.peer) :
        Moves origin other (World.stop task ((popTurnDone other call.lease).unlockPeer call.peer,
          answer [("handoff", .str "complete")])) := by
      have popped : Moves origin other (popTurnDone other call.lease) :=
        .single (.internal _ _ _ _ _ _ _)
      exact popped.trans ((handling.next popped rfl rfl).unlock_ends others (answer_ends _))
    dsimp only
    split
    · rename_i terminal
      have isRow' : ((world.goOn task (.handoff call .inject) (.reply (.ok accepted))).update
          call.lease.jobId { handoffState := some .ready }).row
            (LeaseUpdate.apply { handoffState := some .ready } row).jobId =
              some (LeaseUpdate.apply { handoffState := some .ready } row) := by
        rw [LeaseUpdate.apply_jobId, sameJob]
        exact isRow
      have beyond : 2 ≤ (LeaseUpdate.apply { handoffState := some .ready } row).state.rank := by
        simp [LeaseUpdate.apply, terminal, LeaseState.rank]
      refine updated.trans ((scheduleDelivery_moves isRow' rfl beyond).trans
        (leaves (handlingUpdated.scheduleDelivery isRow' rfl beyond) ?_))
      intro other pc suspended
      rcases World.at_scheduleDelivery suspended with suspended | rfl
      · exact free other pc suspended
      · simp [Pc.holdsPeer]
    · exact updated.trans (leaves handlingUpdated free)

theorem handoffResume_moves {await : HandoffAt} {input : Input} {stopped : World × Outcome}
    (resumed : Resumed world task (.handoff call await) input)
    (goesOn : handoffResume (world.goOn task (.handoff call await) input) task call await input =
      some stopped) :
    Moves origin (world.goOn task (.handoff call await) input) (World.stop task stopped) := by
  have handing := handingOff_of_resumed resumed
  have relies := resumed.now
  -- A handoff that is interrupted at an await leaves what it holds.
  have leaves : Moves origin (world.goOn task (.handoff call await) input)
        (transferLeave (world.goOn task (.handoff call await) input) call await) ∧
      HandingOff (transferLeave (world.goOn task (.handoff call await) input) call await)
        task call := by
    cases await with
    | lock => exact ⟨.refl, handing⟩
    | checkGoal | latestTurn => exact handing.unlock _ (resumed.peer_free rfl)
    | interrupt | turnDone | confirm | inject =>
        rcases handing.popTurnDone origin with ⟨moves, popped⟩
        rcases popped.unlock origin (resumed.peer_free rfl) with ⟨unlocks, unlocked⟩
        exact ⟨moves.trans unlocks, unlocked⟩
  unfold handoffResume at goesOn
  split at goesOn
  · split at goesOn
    · contradiction
    · rename_i free
      rcases Option.some.inj goesOn with rfl
      exact transferStart_moves handing relies (by simpa using free)
  · rcases Option.some.inj goesOn with rfl
    exact transferChecked_moves handing relies (resumed.peer_free rfl)
  · rcases Option.some.inj goesOn with rfl
    exact transferInterrupt_moves resumed
  · rcases Option.some.inj goesOn with rfl
    exact transferInterrupted_moves handing relies (resumed.peer_free rfl)
  · split at goesOn
    · rename_i done completed
      rcases Option.some.inj goesOn with rfl
      refine settle_read (.handoff call .confirm) resumed.running ?_ trivial rfl rfl
      exact { relies with
        stage := ⟨relies.stage.1, relies.stage.2.1, relies.stage.2.2,
          resumed.next_inv.tables.done _ _ completed⟩ }
    · contradiction
  · rcases Option.some.inj goesOn with rfl
    exact transferConfirm_moves resumed
  · rcases Option.some.inj goesOn with rfl
    exact transferReady_moves resumed
  · rcases Option.some.inj goesOn with rfl
    exact leaves.1.trans (leaves.2.failed _)
  · rcases Option.some.inj goesOn with rfl
    exact leaves.1.trans (leaves.2.toHandling.ends trivial)
  · contradiction

end Handoff

/-! ### Terminal events and aborts -/

theorem terminal_moves (handling : Handling world task) (request : Json) :
    Moves origin world (World.stop task (terminal world job request)) := by
  unfold terminal
  split
  · rename_i absent
    exact GoalBridge.terminal_moves handling request fun row found =>
      absurd (absent.symm.trans found) (by simp)
  · rename_i lease found
    split
    · rename_i notSession
      refine GoalBridge.terminal_moves handling request fun row isRow => ?_
      rcases Option.some.inj (found.symm.trans isRow) with rfl
      cases mode : lease.wakeMode with
      | goal => rfl
      | session => exact absurd mode notSession
    · rename_i session
      rw [ne_eq, not_not] at session
      split
      · exact handling.ends (raise_ends _)
      · split
        · exact handling.ends (raise_ends _)
        · split
          · exact handling.ends (answer_ends _)
          · rename_i state
            rw [not_not] at state
            split
            · exact handling.ends (raise_ends _)
            · rename_i terminalState _
              have sameJob : lease.jobId = job := BridgeState.jobId_of_get found
              -- A live row is or becomes terminal; it is delivered if its handoff is complete.
              have delivers {other : World} {current : WakeLease}
                  (handling : Handling other task) (isRow : other.row job = some current)
                  (isTerminal : current.state = .terminal) :
                  Moves origin other (World.stop task
                    (if current.handoffState = .ready then other.scheduleDelivery current
                      else other,
                      answer [("delivery_state", .str current.deliveryState.text)])) := by
                have isJob : current.jobId = job := BridgeState.jobId_of_get isRow
                have beyond : 2 ≤ current.state.rank := by rw [isTerminal]; exact le_refl 2
                split
                · exact (scheduleDelivery_moves (isJob ▸ isRow) rfl beyond).trans
                    ((handling.scheduleDelivery (isJob ▸ isRow) rfl beyond).ends (answer_ends _))
                · exact handling.ends (answer_ends _)
              dsimp only
              by_cases isTerminal : lease.state = .terminal
              · simp only [isTerminal, if_true]
                exact delivers handling found isTerminal
              · simp only [isTerminal, if_false]
                have logged : Moves origin world (world.log (.terminalRecorded job)) :=
                  .single (.log _ trivial)
                have recorded : .terminalRecorded lease.jobId ∈
                    (world.log (.terminalRecorded job)).processTrace := by
                  rw [World.processTrace_log rfl, sameJob]
                  exact List.mem_cons_self
                have legal : Legal origin (world.log (.terminalRecorded job)) lease
                    { state := some .terminal, terminalState := some terminalState,
                      deliveryState := some .waitingForHandoff } :=
                  .terminateSession terminalState session (state.resolve_right isTerminal) recorded
                have updated := logged.tail (.update job _ found legal)
                exact updated.trans (delivers (handling.next updated rfl rfl)
                  (World.row_update_self (show (world.log (.terminalRecorded job)).row job =
                    some lease from found) legal.later) rfl)

theorem revoke_moves (handling : Handling world task) (thread : ThreadId) (reason : String)
    {outcome : Outcome} (ends : outcome.Ends) :
    Moves origin world
      (World.stop task (abandonForManualChange world thread reason, outcome)) := by
  have moves : Moves origin _ _ := abandonForManualChange_moves thread reason handling.inv
  exact moves.trans
    (((abandonForManualChange_revises thread reason world).handling moves handling).ends ends)

theorem abort_moves (handling : Handling world task) (request : Json) :
    Moves origin world (World.stop task (abort world job request)) := by
  unfold abort
  split
  · rename_i absent
    exact GoalBridge.abort_moves handling request fun row found =>
      absurd (absent.symm.trans found) (by simp)
  · rename_i lease found
    split
    · rename_i notSession
      refine GoalBridge.abort_moves handling request fun row isRow => ?_
      rcases Option.some.inj (found.symm.trans isRow) with rfl
      cases mode : lease.wakeMode with
      | goal => rfl
      | session => exact absurd mode notSession
    · split
      · exact handling.ends (raise_ends _)
      · split
        · exact handling.ends (raise_ends _)
        · exact revoke_moves handling _ _ (answer_ends _)

/-! ### Delivery -/

section Wake

variable {lease : WakeLease} {peer : PeerId} {result : Except PyError Json}

/-- The running task that delivers a session lease. -/
structure DeliveringSession (world : World) (task : TaskId) (lease : WakeLease) : Prop
    extends Delivering world task lease.jobId where
  session : ∀ row, world.row lease.jobId = some row → row.wakeMode = .session

namespace DeliveringSession

theorem unlock (delivering : DeliveringSession world task lease) (origin : Option Origin)
    (free : ∀ other pc, world.At other pc → pc.holdsPeer ≠ some peer) :
    Moves origin world (world.unlockPeer peer) ∧
      DeliveringSession (world.unlockPeer peer) task lease := by
  have moves : Moves origin world (world.unlockPeer peer) := .single (.unlockPeer peer free)
  exact ⟨moves, delivering.toDelivering.next moves rfl rfl id, delivering.session⟩

/-- The delivery ends without having started the continuation turn, or after it was settled. -/
theorem ends (delivering : DeliveringSession world task lease) {outcome : Outcome}
    (ends : outcome.Ends)
    (idle : world.Calm → world.WhileLive lease.jobId fun row =>
      row.deliveryState ≠ .activating) :
    Moves origin world (World.stop task (wakeEnd world lease outcome)) := by
  have popped : Moves origin world (World.stop task (world.popDelivery lease.jobId, outcome)) :=
    delivering.toDelivering.ends ends fun undisturbed row found live _ =>
      idle undisturbed row found live
  unfold wakeEnd
  dsimp only
  split
  · have left : Move origin (World.stop task (world.popDelivery lease.jobId, outcome))
        (World.stop task ((world.popDelivery lease.jobId).popLeasePeer lease.jobId, outcome)) := by
      cases outcome with
      | await => exact ends.elim
      | done => exact .internal _ _ _ _ _ _ _
      | fail => exact .internal _ _ _ _ _ _ _
    exact popped.tail left
  · exact popped

theorem exception (delivering : DeliveringSession world task lease) (error : PyError) :
    Moves origin world (World.stop task (wakeException world lease error)) := by
  have moves : Moves origin _ _ := sessionFailed_moves
    ("session delivery failed: " ++ error.message) delivering.session
  have settled := sessionFailed_settled ("session delivery failed: " ++ error.message)
    delivering.inv delivering.session
  have failed : DeliveringSession (sessionFailed world lease.jobId
      ("session delivery failed: " ++ error.message)) task lease := by
    refine ⟨delivering.toDelivering.next moves (sessionFailed_tasks ..)
      (sessionFailed_deliveryTasks ..) fun live => absurd live settled, fun row found => ?_⟩
    rcases sessionFailed_cases world lease.jobId
      ("session delivery failed: " ++ error.message) with ⟨same, -⟩ | ⟨before, isRow, _, isFailed⟩
    · rw [same] at found
      exact delivering.session row found
    · rw [isFailed] at found
      have later : before.Later ((GoalBridge.needsManualRecovery
          ("session delivery failed: " ++ error.message)).apply before) := by
        refine ⟨rfl, ?_⟩
        cases before.state <;> simp [GoalBridge.needsManualRecovery, LeaseUpdate.apply,
          LeaseState.rank]
      rcases Option.some.inj ((World.row_update_self isRow later).symm.trans found) with rfl
      exact delivering.session before isRow
  exact moves.trans (failed.ends trivial fun _ row found live => absurd ⟨row, found, live⟩ settled)

theorem raises (delivering : DeliveringSession world task lease)
    (free : ∀ other pc, world.At other pc → pc.holdsPeer ≠ some peer) (error : PyError) :
    Moves origin world (World.stop task (wakeRaise world lease peer error)) := by
  rcases delivering.unlock origin free with ⟨moves, unlocked⟩
  exact moves.trans (unlocked.exception error)

end DeliveringSession

theorem wakeStart_moves (delivering : DeliveringSession world task lease)
    (relies : Suspended world task (.deliver lease .start)) (session : lease.wakeMode = .session) :
    Moves origin world (World.stop task (wakeStart world lease)) := by
  unfold wakeStart
  split
  · exact delivering.exception _
  · rename_i peer _
    exact settle_silent (.wake lease peer .lock) delivering.running
      { relies with
        stage := ⟨relies.stage.1, session, relies.stage.2.2.1 rfl⟩ } trivial rfl

theorem wakeLocked_moves (delivering : DeliveringSession world task lease)
    (relies : Suspended world task (.wake lease peer .lock))
    (free : world.activityLocks.get? peer = none) :
    Moves origin world (World.stop task (wakeLocked (world.lockPeer task peer) lease peer)) := by
  have locked : Moves origin world (world.lockPeer task peer) := .single (.lockPeer task peer free)
  have deliveringLocked : DeliveringSession (world.lockPeer task peer) task lease :=
    ⟨delivering.toDelivering.next locked rfl rfl id, delivering.session⟩
  have others : ∀ other pc, (world.lockPeer task peer).At other pc →
      pc.holdsPeer ≠ some peer := delivering.inv.peer_free free
  have session := relies.stage.2.1
  have unstarted : world.Unstarted lease := relies.stage.2.2
  unfold wakeLocked
  split
  · exact locked.trans (deliveringLocked.raises others _)
  · rename_i current live
    split
    · rcases deliveringLocked.unlock origin others with ⟨moves, unlocked⟩
      exact locked.trans (moves.trans (unlocked.ends trivial (unstarted session)))
    · rename_i due
      simp only [not_or, not_not, ne_eq] at due
      refine locked.trans (settle_read (.wake lease peer (.checkGoal current))
        deliveringLocked.running ?_ trivial rfl rfl)
      exact { relies with
        peerLock := by
          intro held holds
          rcases Option.some.inj holds with rfl
          exact Dict.get?_set_self _ _ _
        stage := by
          refine ⟨relies.stage.1, session, unstarted, fun row found _ => ?_⟩
          rcases Option.some.inj ((liveSession_ok live).1.symm.trans found) with rfl
          exact due }

theorem wakeChecked_moves {current : WakeLease} (delivering : DeliveringSession world task lease)
    (relies : Suspended world task (.wake lease peer (.checkGoal current)))
    (free : ∀ other pc, world.At other pc → pc.holdsPeer ≠ some peer) :
    Moves origin world (World.stop task (wakeChecked world lease peer current result)) := by
  unfold wakeChecked
  split
  · exact delivering.raises free _
  · exact settle_read (.wake lease peer (.latestTurn current)) delivering.running
      { relies with stage := relies.stage } trivial rfl rfl

theorem startChecks_ok (checked : startChecks world lease result = .ok ()) :
    ∃ current, liveSession world lease.jobId = .ok current := by
  unfold startChecks at checked
  rcases bind_eq_ok.mp checked with ⟨answer, _, afterAnswer⟩
  rcases bind_eq_ok.mp afterAnswer with ⟨latest, _, afterLatest⟩
  simp only [bind, Except.bind, pure, Except.pure, throw, throwThe, MonadExceptOf.throw]
    at afterLatest
  repeat' split at afterLatest
  all_goals first | contradiction | exact ⟨_, ‹_›⟩

/-- The continuation turn is committed and started. -/
theorem wakeTurnStart_moves {current : WakeLease}
    (delivering : DeliveringSession world task lease)
    (relies : Suspended world task (.wake lease peer (.latestTurn current)))
    (free : ∀ other pc, world.At other pc → pc.holdsPeer ≠ some peer)
    (serving : world.phase = .serving) :
    Moves origin world (World.stop task (wakeTurnStart world lease peer current result)) := by
  unfold wakeTurnStart
  split
  · exact delivering.raises free _
  · rename_i checked
    rcases startChecks_ok checked with ⟨row, isLive⟩
    rcases liveSession_ok isLive with ⟨found, session, -⟩
    have live := isLive_of_liveSession isLive
    rcases relies.stage.2.2.2 row found live with ⟨terminal, ready⟩
    rcases relies.snapshot lease rfl with ⟨held, isHeld, identity⟩
    rcases Option.some.inj (found.symm.trans isHeld) with rfl
    have sameJob : row.jobId = lease.jobId := congrArg (·.1) identity
    have sameThread : row.threadId = lease.threadId := congrArg (·.2.1) identity
    have later : row.Later (LeaseUpdate.apply { deliveryState := some .activating } row) :=
      ⟨rfl, le_refl _⟩
    have sent : Move origin world _ :=
      .activateSession task peer (wakeMessage current) (sameJob ▸ found) session terminal ready
        serving (fun undisturbed => relies.stage.2.2.1 relies.stage.2.1 ⟨serving, undisturbed⟩ row found
          live)
        (sameJob ▸ delivering.undelivered ⟨row, found, live⟩)
        (fun _ => ⟨task, sameJob ▸ relies.unique lease.jobId rfl ⟨row, found, live⟩, by
          have running := delivering.running
          rw [World.IsRunning] at running
          simp [World.isDone, running]⟩)
    rw [sameJob, sameThread] at sent
    refine (Relation.ReflTransGen.single sent).tail
      (.suspend task (.wake lease peer (.turnStart current)) delivering.running ?_ trivial)
    have bound := (relies.toBound.update found later).log (.sent task lease.jobId (.peer peer)
        (.turnStart lease.threadId (wakeMessage current))) fun _ isEvent => by cases isEvent
    exact { bound with
      stage := ⟨relies.stage.1.update found later, relies.stage.2.1, _, List.mem_cons_self, by
        simp [Rpc.isTurnStart]⟩ }

/-- The answer to the continuation turn. -/
theorem wakeStarted_moves {current : WakeLease} (delivering : DeliveringSession world task lease)
    (relies : Suspended world task (.wake lease peer (.turnStart current)))
    (free : ∀ other pc, world.At other pc → pc.holdsPeer ≠ some peer) :
    Moves (some ⟨task, .wake lease peer (.turnStart current), .reply result⟩) world
      (World.stop task (wakeStarted world lease peer result)) := by
  unfold wakeStarted
  split
  · exact delivering.raises free _
  · rename_i turn started
    rcases relies.snapshot lease rfl with ⟨row, found, identity⟩
    have sameJob : row.jobId = lease.jobId := congrArg (·.1) identity
    have sent : 0 < world.trace.countP (·.sends row.jobId Rpc.isTurnStart) := by
      rw [sameJob, List.countP_pos_iff]
      exact relies.stage.2.2
    have legal : Legal (some ⟨task, .wake lease peer (.turnStart current), .reply result⟩) world
        row (resumedFields turn) :=
      .resumeSession turn (delivering.session row found) sent
        ⟨task, lease, peer, current, result, rfl, sameJob.symm, started⟩
    have updated : Moves (some ⟨task, .wake lease peer (.turnStart current), .reply result⟩) world
        (world.update lease.jobId (resumedFields turn)) :=
      .single (.update lease.jobId _ found legal)
    have isRow := World.row_update_self found legal.later
    have deliveringUpdated : DeliveringSession
        (world.update lease.jobId (resumedFields turn)) task lease := by
      refine ⟨delivering.toDelivering.next updated rfl rfl
        (World.live_before_update found legal.later), fun after isAfter => ?_⟩
      rcases Option.some.inj (isRow.symm.trans isAfter) with rfl
      exact delivering.session row found
    have cancelled : Moves (some ⟨task, .wake lease peer (.turnStart current), .reply result⟩) _ _ :=
      cancelDeadline_moves deliveringUpdated.inv lease.jobId
    have revises := cancelDeadline_revises (world.update lease.jobId (resumedFields turn))
      lease.jobId
    have deliveringCancelled : DeliveringSession
        ((world.update lease.jobId (resumedFields turn)).cancelDeadline lease.jobId) task
          lease := by
      refine ⟨revises.delivering cancelled deliveringUpdated.toDelivering ?_, ?_⟩
      · simp [World.Live]
      · simpa using deliveringUpdated.session
    have others : ∀ other pc, ((world.update lease.jobId (resumedFields turn)).cancelDeadline
        lease.jobId).At other pc → pc.holdsPeer ≠ some peer := by
      intro other pc suspended
      rw [World.At, revises.tasks] at suspended
      exact free other pc suspended
    obtain ⟨unlocks, unlocked⟩ := deliveringCancelled.unlock
      (some ⟨task, .wake lease peer (.turnStart current), .reply result⟩) others
    refine updated.trans (cancelled.trans (unlocks.trans (unlocked.ends trivial ?_)))
    intro _ after isAfter live
    have isAfter : ((world.update lease.jobId (resumedFields turn)).cancelDeadline
        lease.jobId).row lease.jobId = some after := isAfter
    rw [World.cancelDeadline_row] at isAfter
    rcases Option.some.inj (isRow.symm.trans isAfter) with rfl
    contradiction

theorem wakeResume_moves {await : WakeAt} {input : Input} {stopped : World × Outcome}
    (resumed : Resumed world task (.wake lease peer await) input)
    (serving : (world.goOn task (.wake lease peer await) input).phase = .serving)
    (mayReceive : (world.goOn task (.wake lease peer await) input).mayReceive task input = true)
    (goesOn : wakeResume (world.goOn task (.wake lease peer await) input) task lease peer await
      input = some stopped) :
    Moves (some ⟨task, .wake lease peer await, input⟩)
      (world.goOn task (.wake lease peer await) input) (World.stop task stopped) := by
  have relies := resumed.now
  have delivering : DeliveringSession (world.goOn task (.wake lease peer await) input) task
      lease :=
    ⟨resumed.delivering rfl, fun _ found =>
      (GoalBridge.wakeMode_of_snapshot (relies.snapshot lease rfl) found).trans relies.stage.2.1⟩
  -- A cancelled delivery has not started the turn, or its lease is settled.
  have cancels (free : ∀ other pc, (world.goOn task (.wake lease peer await) .cancelled).At
        other pc → pc.holdsPeer ≠ some peer)
      (delivering : DeliveringSession (world.goOn task (.wake lease peer await) .cancelled) task
        lease)
      (idle : (world.goOn task (.wake lease peer await) .cancelled).Calm →
        (world.goOn task (.wake lease peer await) .cancelled).WhileLive lease.jobId fun row =>
          row.deliveryState ≠ .activating) :
      Moves (some ⟨task, .wake lease peer await, .cancelled⟩)
        (world.goOn task (.wake lease peer await) .cancelled)
        (World.stop task (wakeEnd ((world.goOn task (.wake lease peer await)
          .cancelled).unlockPeer peer) lease (.fail .cancelled))) := by
    rcases delivering.unlock (some ⟨task, .wake lease peer await, .cancelled⟩) free with
      ⟨moves, unlocked⟩
    exact moves.trans (unlocked.ends trivial idle)
  unfold wakeResume at goesOn
  split at goesOn
  · split at goesOn
    · contradiction
    · rename_i free
      rcases Option.some.inj goesOn with rfl
      exact wakeLocked_moves delivering relies (by simpa using free)
  · rcases Option.some.inj goesOn with rfl
    exact wakeChecked_moves delivering relies (resumed.peer_free rfl)
  · rcases Option.some.inj goesOn with rfl
    exact wakeTurnStart_moves delivering relies (resumed.peer_free rfl) serving
  · rcases Option.some.inj goesOn with rfl
    exact wakeStarted_moves delivering relies (resumed.peer_free rfl)
  · rcases Option.some.inj goesOn with rfl
    exact delivering.ends trivial (relies.stage.2.2 relies.stage.2.1)
  · rename_i notLock
    rcases Option.some.inj goesOn with rfl
    have requested : task ∈ (world.goOn task (.wake lease peer await) .cancelled).cancelling := by
      simpa [World.mayReceive] using mayReceive
    cases await with
    | lock => exact (notLock rfl).elim
    | checkGoal | latestTurn =>
        exact cancels (resumed.peer_free rfl) delivering (relies.stage.2.2.1 relies.stage.2.1)
    | turnStart =>
        refine cancels (resumed.peer_free rfl) delivering fun calm row found live => ?_
        exact absurd ⟨row, found, live⟩ (relies.cancelled calm.2 requested _ rfl)
  · contradiction

end Wake

/-! ### Deadlines, notifications, recovery -/

theorem expireAtDeadline_moves {lease : WakeLease} (handling : Handling world task)
    (snapshot : world.Snapshot lease) :
    Moves origin world (World.stop task (expireAtDeadline world lease)) := by
  unfold expireAtDeadline
  split
  · rename_i notSession
    refine GoalBridge.expireAtDeadline_moves handling fun row found => ?_
    rw [GoalBridge.wakeMode_of_snapshot snapshot found]
    cases mode : lease.wakeMode with
    | goal => rfl
    | session => exact absurd mode notSession
  · rename_i session
    rw [ne_eq, not_not] at session
    have moves : Moves origin _ _ := sessionFailed_moves
      "session completion or handoff acknowledgement deadline expired"
      fun row found => (GoalBridge.wakeMode_of_snapshot snapshot found).trans session
    have failed := handling.next moves (sessionFailed_tasks ..) (sessionFailed_deliveryTasks ..)
    exact (moves.tail (.popDeadline lease.jobId)).trans
      ((failed.next (.single (.popDeadline lease.jobId) : Moves origin _ _) rfl rfl).ends trivial)

theorem deadlineResume_moves {lease : WakeLease} {await : DeadlineAt} {input : Input}
    {stopped : World × Outcome} (resumed : Resumed world task (.deadline lease await) input)
    (goesOn : deadlineResume (world.goOn task (.deadline lease await) input) lease await input =
      some stopped) :
    Moves origin (world.goOn task (.deadline lease await) input) (World.stop task stopped) := by
  have handling := resumed.handling rfl
  unfold deadlineResume at goesOn
  split at goesOn
  · rcases Option.some.inj goesOn with rfl
    exact settle_silent (.deadline lease .sleeping) handling.running
      { resumed.now with stage := trivial } trivial rfl
  · rcases Option.some.inj goesOn with rfl
    exact expireAtDeadline_moves handling (resumed.now.snapshot lease rfl)
  · rcases Option.some.inj goesOn with rfl
    exact handling.ends trivial
  · rcases Option.some.inj goesOn with rfl
    have popped : Moves origin (world.goOn task (.deadline lease .sleeping) .cancelled)
        ((world.goOn task (.deadline lease .sleeping) .cancelled).popDeadline lease.jobId) :=
      .single (.popDeadline lease.jobId)
    exact popped.trans ((handling.next popped rfl rfl).ends trivial)
  · contradiction

theorem onNotification_moves (inv : Inv world) (method : String) (params : Json) :
    Moves origin world (onNotification world method params) := by
  unfold onNotification
  extract_lets lease
  clear_value lease
  split
  · split
    · split
      · exact abandonForManualChange_moves _ _ inv
      · exact .refl
    · exact GoalBridge.onNotification_moves inv method params
  · exact GoalBridge.onNotification_moves inv method params

theorem recoverLease_moves {lease : WakeLease} (inv : Inv world)
    (found : world.row lease.jobId = some lease) (live : lease.isLive = true)
    (undelivered : lease.deliveryState = .activating → world.Undelivered lease.jobId) :
    Moves origin world (recoverLease world lease) := by
  unfold recoverLease
  split
  · rename_i session
    refine .single (.update _ _ found (.fail _ (.inl live) fun goal => ?_))
    rw [session] at goal
    contradiction
  · exact GoalBridge.recoverLease_moves inv found live undelivered

/-! ### Requests -/

theorem sessionControl_moves (detached : Detached world task) (action : String)
    (request : Json) :
    Moves origin world (World.stop task (sessionControl world action job request)) := by
  unfold sessionControl
  split
  · exact detached.ends (raise_ends _)
  · split
    · exact detached.ends (raise_ends _)
    · split_ifs
      · exact detached.ends (raise_ends _)
      · exact detached.ends (raise_ends _)
      · exact detached.ends (answer_ends _)
      · exact revoke_moves detached.toHandling _ _ (answer_ends _)
      · exact detached.ends (answer_ends _)
      · exact handoff_moves detached request

/-- The handling of a request up to its first await. -/
theorem dispatch_moves {request : Json} (detached : Detached world task)
    (received : .received task request ∈ world.trace)
    (unregistered : ∀ job, .registered task job ∉ world.trace) :
    Moves origin world (World.stop task (dispatch world request)) := by
  unfold dispatch
  split
  · exact detached.ends (raise_ends _)
  · split
    · exact detached.ends (raise_ends _)
    · extract_lets action
      have isRequested : request.get "action" = action := rfl
      clear_value action
      split
      · exact detached.ends (answer_ends _)
      · split
        · exact detached.ends (raise_ends _)
        · split
          · exact detached.ends (raise_ends _)
          · rename_i job isJob
            split
            · exact sessionControl_moves detached _ request
            · exact sessionControl_moves detached _ request
            · exact sessionControl_moves detached _ request
            · refine prepare_moves ⟨detached, ⟨request, received, ?_⟩, unregistered job⟩ request
              unfold jobIdOf at isJob
              split at isJob
              · rename_i text isText
                split at isJob
                · rcases Except.ok.inj isJob with rfl
                  simp [prepares, isText, isRequested, Json.isStr_iff]
                · contradiction
              · contradiction
            · exact terminal_moves detached.toHandling request
            · exact abort_moves detached.toHandling request
            · exact detached.ends (raise_ends _)

end SessionBridge

end Longrun.Bridge
