import Longrun.Bridge.Evidence

/-!
# The owner of a session lease

Every step of the coordinator either leaves the owners of leases alone, or suspends a coroutine at
an await that it is entitled to, or arms a lease for the connection that its registration has
checked. So a request alone steers nothing: what is sent for a session goes over the connection
that has shown the tool call.
-/

namespace Longrun.Bridge

variable {world before after : World} {task : TaskId} {job : JobId} {peer : PeerId}

/-! ### The coroutines -/

/-- A coroutine that quietly stops at an await to which it is entitled, or for good. -/
structure Stops (world : World) (task : TaskId) (stopped : World × Outcome) : Prop where
  quiet : Quiet world stopped.1
  enters : ∀ pc, stopped.2 = .await pc → Enters stopped.1 task pc

theorem Harmless.stops {stopped : World × Outcome} (harmless : Harmless world stopped) :
    Stops world task stopped where
  quiet := harmless.quiet
  enters := by
    intro pc isAwait
    have plain := harmless.plain
    rw [isAwait] at plain
    exact .of_isPlain plain

theorem Stops.await {pc : Pc} (quiet : Quiet world after) (enters : Enters after task pc) :
    Stops world task (after, .await pc) where
  quiet := quiet
  enters := by
    intro entered isAwait
    rcases Outcome.await.inj isAwait with rfl
    exact enters

/-- A call is remembered where it was observed. -/
def CallsObserved (world : World) : Prop :=
  ∀ key call, world.calls.get? key = some call →
    .observed call.2 key.1 key.2 call.1 ∈ world.trace

theorem sessionArguments_ok {thread : ThreadId} {goal request : Json} {call : SessionCall}
    (arguments : SessionBridge.sessionArguments job thread goal request = .ok call) :
    call.jobId = job ∧ call.threadId = thread ∧ call.goal = goal ∧
      (goal.eq .null = true ∨ (goal.isDict = true ∧ (goal.get "status").isStr "complete" = true)) := by
  unfold SessionBridge.sessionArguments at arguments
  simp only [bind, Except.bind, pure, Except.pure, throw, throwThe, MonadExceptOf.throw]
    at arguments
  split at arguments
  · contradiction
  · rename_i done
    repeat' split at arguments
    all_goals cases arguments
    refine ⟨rfl, rfl, rfl, ?_⟩
    tauto

theorem Quiet.goOn (world : World) (task : TaskId) (pc : Pc) (input : Input) :
    Quiet world (world.goOn task pc input) where
  leasePeers := by
    rw [World.goOn_eq]
    exact fun _ _ found => found
  waits := fun _ _ suspended => .inl (World.at_goOn suspended).2
  events := by
    rcases world.logReply_cases task pc input with same | ⟨job, via, rpc, result, logged⟩
    · refine ⟨[], ?_, fun _ mem => (by cases mem)⟩
      rw [World.goOn, same]
      rfl
    · refine ⟨[.replied task job via rpc result], ?_, fun event mem => ?_⟩
      · rw [World.goOn, logged]
        rfl
      · rw [List.mem_singleton.mp mem]
        rfl

/-- What stands behind a coroutine is still there when it goes on. -/
theorem Backed.goOn {pc : Pc} (backed : Backed world task pc) (input : Input) :
    Backed (world.goOn task pc input) task pc :=
  backed.quiet (.goOn ..) (.same (world.goOn_row task pc input))

theorem CallsObserved.goOn (calls : CallsObserved world) (task : TaskId) (pc : Pc)
    (input : Input) : CallsObserved (world.goOn task pc input) := by
  intro key call found
  rw [World.goOn_calls] at found
  exact (Quiet.goOn world task pc input).sublist.subset (calls key call found)

namespace SessionBridge

/-- A registration up to its last step. -/
theorem prepareResume_stops {pc : Pc} {input : Input} {stopped : World × Outcome}
    (backed : Backed world task pc) (calls : CallsObserved world)
    (unarmed : ∀ call turn peer, pc ≠ .sessionGoalNow call turn peer)
    (goesOn : prepareResume (world.goOn task pc input) task pc input = some stopped) :
    Stops (world.goOn task pc input) task stopped := by
  have now := backed.goOn input
  have callsNow := calls.goOn task pc input
  unfold prepareResume at goesOn
  split at goesOn
  · rename_i jobId thread request auto result
    rcases Option.some.inj goesOn with rfl
    rcases prepareGoalState_cases _ jobId thread request auto result with
      harmless | ⟨read, call, rfl, hasGoal, arguments, isStopped⟩
    · exact harmless.stops
    · rcases sessionArguments_ok arguments with ⟨rfl, rfl, isGoal, done⟩
      rw [isStopped]
      refine .await (.refl _) ⟨read, ⟨hasGoal, done⟩, isGoal.symm, ?_⟩
      rw [World.goOn_trace rfl]
      exact List.mem_cons_self
  · rename_i call
    unfold prepareObserved at goesOn
    split at goesOn
    · rcases Option.some.inj goesOn with rfl
      exact .await (.refl _) now
    · contradiction
  · rcases Option.some.inj goesOn with rfl
    exact (Harmless.refl _ rfl).stops
  · rename_i call turn peer
    split at goesOn
    · contradiction
    · rcases Option.some.inj goesOn with rfl
      have locked := (Quiet.refl (world.goOn task (.sessionLock call turn peer) .ready)).lockPeer
        task peer
      rcases prepareExclusive_cases ((world.goOn task (.sessionLock call turn peer)
        .ready).lockPeer task peer) call turn peer with harmless | ⟨known, isStopped⟩
      · exact (Harmless.of_quiet locked harmless).stops
      · rw [isStopped]
        exact .await locked ⟨now, callsNow _ _ known⟩
  · rename_i call turn peer result
    rcases Option.some.inj goesOn with rfl
    rcases prepareLatestTurn_cases (world.goOn task (.sessionLatestTurn call turn peer)
      (.reply result)) call turn peer result with
      harmless | ⟨read, latest, rfl, isLatest, inProgress, isStopped⟩
    · exact harmless.stops
    · rw [isStopped]
      rcases backed with ⟨⟨first, done, isGoal, isRead⟩, observed⟩
      refine .await (.refl _) ⟨first, read, done, isGoal, ⟨latest, isLatest, inProgress⟩, ?_, ?_⟩
      · rw [World.goOn_trace rfl]
        exact (List.singleton_sublist.mpr isRead).cons_cons _
      · rw [World.goOn_trace rfl]
        exact (List.singleton_sublist.mpr observed).cons_cons _
  · exact absurd rfl (unarmed _ _ _)
  · rcases Option.some.inj goesOn with rfl
    exact (Harmless.refl _ rfl).stops
  · rcases Option.some.inj goesOn with rfl
    exact (Harmless.refl _ rfl).stops
  · rcases Option.some.inj goesOn with rfl
    exact (Harmless.refl _ rfl).stops
  · rcases Option.some.inj goesOn with rfl
    exact Harmless.stops ⟨(Quiet.refl _).unlockPeer _, rfl⟩
  · rcases Option.some.inj goesOn with rfl
    exact Harmless.stops ⟨(Quiet.refl _).unlockPeer _, rfl⟩
  · contradiction

/-- The row of the lease that a coroutine holds a copy of. -/
theorem sessionRow_of_snapshot {lease : WakeLease} (snapshot : world.Snapshot lease)
    (session : lease.wakeMode = .session) : ∃ row, world.SessionRow lease row := by
  rcases snapshot with ⟨row, found, same⟩
  exact ⟨row, found, same, (congrArg (·.2.2.2.2.1) same).trans session⟩

theorem owner_leasePeers {lease : WakeLease} (owned : owner world lease = .ok peer) :
    world.leasePeers.get? lease.jobId = some peer ∧
      world.peers.get? lease.threadId = some peer := by
  unfold owner at owned
  split at owned
  · rename_i recorded isRecorded
    split at owned
    · rename_i owns
      rcases Except.ok.inj owned with rfl
      exact ⟨isRecorded, owns.1⟩
    · contradiction
  · contradiction

/-- A handoff that interrupts its turn has found the recorded owner to be its connection. -/
theorem interrupt_enters {call : HandoffCall} {current : WakeLease} {result : Except PyError Json}
    (resumed : Resumed world task (.handoff call .latestTurn) (.reply result))
    (live : liveSession (world.goOn task (.handoff call .latestTurn) (.reply result))
      call.lease.jobId = .ok current)
    (owned : owner (world.goOn task (.handoff call .latestTurn) (.reply result)) call.lease =
      .ok peer) : call.peer = peer := by
  rcases liveSession_ok live with ⟨found, session, -⟩
  have isLive := isLive_of_liveSession live
  rcases resumed.now.stage with ⟨-, holds, pending⟩
  have idle : current.deliveryState ≠ .activating := by
    refine not_activating_of_handoff resumed.next_inv found session isLive ?_
    rw [pending current found isLive]
    decide
  exact Option.some.inj ((holds current found isLive idle).symm.trans (owner_leasePeers owned).2)

theorem handoffResume_stops {call : HandoffCall} {await : HandoffAt} {input : Input}
    {stopped : World × Outcome} (resumed : Resumed world task (.handoff call await) input)
    (backed : Backed world task (.handoff call await))
    (rows : KeepsRows (world.goOn task (.handoff call await) input) stopped.1)
    (goesOn : handoffResume (world.goOn task (.handoff call await) input) task call await input =
      some stopped) : Stops (world.goOn task (.handoff call await) input) task stopped := by
  have now := backed.goOn input
  rcases sessionRow_of_snapshot (resumed.now.snapshot call.lease rfl) resumed.now.stage.1 with
    ⟨row, session⟩
  rcases session.next rows with ⟨later, isLater, -⟩
  unfold handoffResume at goesOn
  split at goesOn
  · split at goesOn
    · contradiction
    · rcases Option.some.inj goesOn with rfl
      exact (Harmless.of_quiet ((Quiet.refl _).lockPeer _ _) (transferStart_harmless ..)).stops
  · rcases Option.some.inj goesOn with rfl
    exact (transferChecked_harmless ..).stops
  · rename_i result
    rcases Option.some.inj goesOn with rfl
    rcases transferInterrupt_cases (world.goOn task (.handoff call .latestTurn) (.reply result))
      call result with harmless | ⟨current, peer, done, live, owned, quiet, leasePeers, isAwait⟩
    · exact harmless.stops
    · refine ⟨quiet, fun pc entered => ?_⟩
      rcases Outcome.await.inj (isAwait.symm.trans entered) with rfl
      refine ⟨⟨later, isLater⟩, ?_⟩
      rw [leasePeers, interrupt_enters resumed live owned]
      exact (owner_leasePeers owned).1
  · rename_i done result
    rcases Option.some.inj goesOn with rfl
    rcases transferInterrupted_cases (world.goOn task (.handoff call (.interrupt done))
      (.reply result)) call done result with harmless | isStopped
    · exact harmless.stops
    · rw [isStopped]
      exact .await (.refl _) now
  · split at goesOn
    · rcases Option.some.inj goesOn with rfl
      exact .await (.refl _) now
    · contradiction
  · rename_i result
    rcases Option.some.inj goesOn with rfl
    rcases transferConfirm_cases (world.goOn task (.handoff call .confirm) (.reply result)) call
      result with harmless | isStopped
    · exact harmless.stops
    · rw [isStopped] at isLater ⊢
      exact .await ((Quiet.refl _).update _ _) ⟨⟨later, isLater⟩, now⟩
  · rcases Option.some.inj goesOn with rfl
    exact (transferReady_harmless ..).stops
  · rcases Option.some.inj goesOn with rfl
    exact (handoffFailed_harmless (transferLeave_quiet ..) ..).stops
  · rcases Option.some.inj goesOn with rfl
    exact Harmless.stops ⟨transferLeave_quiet .., rfl⟩
  · contradiction

/-- The delivery of a session lease begins with the recorded owner. -/
theorem wakeStart_stops {lease : WakeLease}
    (resumed : Resumed world task (.deliver lease .start) .ready)
    (session : lease.wakeMode = .session) :
    Stops (world.goOn task (.deliver lease .start) .ready) task
      (wakeStart (world.goOn task (.deliver lease .start) .ready) lease) := by
  rcases wakeStart_cases (world.goOn task (.deliver lease .start) .ready) lease with
    harmless | ⟨peer, owned, isStopped⟩
  · exact harmless.stops
  · rw [isStopped]
    exact .await (.refl _) ⟨sessionRow_of_snapshot (resumed.now.snapshot lease rfl) session,
      (owner_leasePeers owned).1⟩

theorem wakeResume_stops {lease : WakeLease} {await : WakeAt} {input : Input}
    {stopped : World × Outcome} (backed : Backed world task (.wake lease peer await))
    (rows : KeepsRows (world.goOn task (.wake lease peer await) input) stopped.1)
    (goesOn : wakeResume (world.goOn task (.wake lease peer await) input) task lease peer await
      input = some stopped) : Stops (world.goOn task (.wake lease peer await) input) task stopped := by
  have now := backed.goOn input
  unfold wakeResume at goesOn
  split at goesOn
  · split at goesOn
    · contradiction
    · rcases Option.some.inj goesOn with rfl
      have locked := (Quiet.refl (world.goOn task (.wake lease peer .lock) .ready)).lockPeer task
        peer
      rcases wakeLocked_cases ((world.goOn task (.wake lease peer .lock) .ready).lockPeer task peer)
        lease peer with harmless | ⟨current, isStopped⟩
      · exact (Harmless.of_quiet locked harmless).stops
      · rw [isStopped]
        exact .await locked (Backed.quiet now locked (.same fun _ => rfl))
  · rename_i current result
    rcases Option.some.inj goesOn with rfl
    rcases wakeChecked_cases (world.goOn task (.wake lease peer (.checkGoal current))
      (.reply result)) lease peer current result with harmless | isStopped
    · exact harmless.stops
    · rw [isStopped]
      exact .await (.refl _) now
  · rename_i current result
    rcases Option.some.inj goesOn with rfl
    rcases wakeTurnStart_cases (world.goOn task (.wake lease peer (.latestTurn current))
      (.reply result)) lease peer current result with harmless | ⟨owning, owned, isStopped⟩
    · exact harmless.stops
    · rw [isStopped] at rows ⊢
      have updated : Quiet (world.goOn task (.wake lease peer (.latestTurn current))
          (.reply result)) _ := (Quiet.refl _).update lease.jobId
        { deliveryState := some .activating }
      refine .await updated ⟨Backed.quiet now updated rows, ?_⟩
      -- The recorded owner is the connection that controls the lease.
      rcases now with ⟨row, session, controls⟩
      have isJob : row.jobId = lease.jobId := BridgeState.jobId_of_get session.1
      have recorded := (owner_leasePeers owned).1
      rw [controls.owner owning (isJob ▸ recorded)] at recorded
      exact recorded
  · rcases Option.some.inj goesOn with rfl
    exact (wakeStarted_harmless ..).stops
  · rcases Option.some.inj goesOn with rfl
    exact (wakeEnd_harmless (.refl _) lease rfl).stops
  · rcases Option.some.inj goesOn with rfl
    exact (wakeEnd_harmless ((Quiet.refl _).unlockPeer _) lease rfl).stops
  · contradiction

end SessionBridge

/-- Every coroutine but a registration at its last step. -/
theorem resume_stops {pc : Pc} {input : Input} {stopped : World × Outcome}
    (resumed : Resumed world task pc input) (backed : Backed world task pc)
    (calls : CallsObserved world)
    (rows : KeepsRows (world.goOn task pc input) stopped.1)
    (unarmed : ∀ call turn peer, pc ≠ .sessionGoalNow call turn peer)
    (goesOn : resume (world.goOn task pc input) task pc input = some stopped) :
    Stops (world.goOn task pc input) task stopped := by
  cases pc with
  | prepareGoalGet | prepareSetPaused | prepareConfirm =>
      exact (GoalBridge.prepareResume_harmless goesOn).stops
  | sessionGoalGet | sessionObserved | sessionLock | sessionLatestTurn | sessionGoalNow =>
      exact SessionBridge.prepareResume_stops backed calls unarmed goesOn
  | handoff => exact SessionBridge.handoffResume_stops resumed backed rows goesOn
  | deliver lease await =>
      simp only [resume] at goesOn
      split at goesOn
      · rename_i session
        rcases Option.some.inj goesOn with rfl
        exact SessionBridge.wakeStart_stops resumed session
      · exact (GoalBridge.deliver_harmless goesOn).stops
  | wake => exact SessionBridge.wakeResume_stops backed rows goesOn
  | deadline => exact (SessionBridge.deadlineResume_harmless goesOn).stops
  | client => exact (Client.resume_harmless goesOn).stops

/-! ### Arming -/

namespace SessionBridge

theorem setLeasePeer_scheduleDeadline (world : World) (job : JobId) (peer : PeerId)
    (lease : WakeLease) : (setLeasePeer world job peer).scheduleDeadline lease =
      setLeasePeer (world.scheduleDeadline lease) job peer := by
  unfold World.scheduleDeadline
  rw [setLeasePeer_deadlineTasks]
  split
  · show (if world.isDone _ = true then _ else _) = _
    split <;> rfl
  · rfl

/-- What a registration arms is a session lease of its thread, call and turn. -/
def ArmedFor (call : SessionCall) (turn : String) (row : WakeLease) : Prop :=
  row.wakeMode = .session ∧ row.jobId = call.jobId ∧ row.threadId = call.threadId ∧
    row.turnId = some turn ∧ row.callId = some call.callId

theorem prepareArm_cases (world : World) (task : TaskId) (call : SessionCall) (turn : String)
    (peer : PeerId) (result : Except PyError Json) :
    (Harmless world (prepareArm world task call turn peer result) ∧
      ∀ job, (prepareArm world task call turn peer result).1.row job = world.row job) ∨
    ∃ read between outcome, result = .ok read ∧ sameGoalNow call read = .ok () ∧
      reusable world call.jobId = true ∧ outcome.Ends ∧
      prepareArm world task call turn peer result =
        ((setLeasePeer between call.jobId peer).unlockPeer peer, outcome) ∧
      Quiet world between ∧
      (∀ other, other ≠ call.jobId → between.row other = world.row other) ∧
      ∃ row, between.row call.jobId = some row ∧ ArmedFor call turn row := by
  have refused (error : PyError) : Harmless world (world.unlockPeer peer, raise error) :=
    ⟨(Quiet.refl world).unlockPeer peer, rfl⟩
  unfold prepareArm
  dsimp only
  split
  · exact .inl ⟨refused _, fun _ => rfl⟩
  · rename_i same
    split
    · exact .inl ⟨refused _, fun _ => rfl⟩
    · rename_i isReusable
      rw [not_not] at isReusable
      rcases bind_eq_ok.mp same with ⟨read, isRead, same⟩
      split
      · exact .inl ⟨refused _, fun _ => rfl⟩
      · rename_i registered lease created
        have quiet := GoalBridge.createLease_quiet created
        -- The lease is armed in the row that was inserted or found.
        have arms (found : registered.row call.jobId = some lease)
            (armedFor : ArmedFor call turn lease) (early : lease.state.rank ≤ 1)
            (others : ∀ other, other ≠ call.jobId → registered.row other = world.row other) :
            ∃ between, armSession registered call.jobId lease peer =
                setLeasePeer between call.jobId peer ∧ Quiet world between ∧
              (∀ other, other ≠ call.jobId → between.row other = world.row other) ∧
              ∃ row, between.row call.jobId = some row ∧ ArmedFor call turn row := by
          have later : lease.Later (LeaseUpdate.apply { state := some .armed } lease) :=
            ⟨rfl, early⟩
          refine ⟨_, setLeasePeer_scheduleDeadline .., (quiet.update _ _).scheduleDeadline _,
            fun other different => ?_, ?_⟩
          · rw [World.scheduleDeadline_row, World.row_update found later, if_neg different]
            exact others other different
          · refine ⟨LeaseUpdate.apply { state := some .armed } lease, ?_, armedFor⟩
            rw [World.scheduleDeadline_row]
            exact World.row_update_self found later
        rcases GoalBridge.createLease_cases created with
          ⟨store, fresh, isStored, rfl, rows, rfl⟩ | ⟨rfl, found, sameThread⟩
        · rw [if_neg (by simp [NewLease.row, newSessionLease])]
          rcases arms ((rows call.jobId).trans (if_pos rfl)) ⟨rfl, rfl, rfl, rfl, rfl⟩
            (Nat.zero_le _) (fun other different => (rows other).trans (if_neg different)) with
            ⟨between, isBetween, rest⟩
          rw [isBetween]
          exact .inr ⟨read, between, _, isRead, same, isReusable, answer_ends _, rfl, rest⟩
        · split
          · exact .inl ⟨refused _, fun _ => rfl⟩
          · rename_i fits
            simp only [not_or, not_not, ne_eq] at fits
            have armed : lease.state = .armed := by
              simp only [reusable, World.row, newSessionLease] at isReusable found
              rw [found] at isReusable
              simp only [Option.all_some, Bool.and_eq_true, decide_eq_true_eq] at isReusable
              exact isReusable.1
            rcases arms found ⟨fits.1, BridgeState.jobId_of_get found, sameThread, fits.2⟩
              (by rw [armed]; decide) (fun _ _ => rfl) with ⟨between, isBetween, rest⟩
            rw [isBetween]
            exact .inr ⟨read, between, _, isRead, same, isReusable, answer_ends _, rfl, rest⟩

/-- The second read shows the Goal of the first one. -/
theorem goalDone_again {call : SessionCall} {first read : Json} (done : GoalDone first)
    (isGoal : first.get "goal" = call.goal) (same : sameGoalNow call read = .ok ())
    (distinct : (read.get "goal").hasDistinctKeys = true) : GoalDone read := by
  unfold sameGoalNow at same
  split at same
  · rename_i isSame
    rw [← isGoal] at isSame
    refine ⟨isSame.1, ?_⟩
    rcases done.2 with absent | ⟨isDict, complete⟩
    · have isNull : first.get "goal" = .null := by
        cases goal : first.get "goal" <;> simp [goal, Json.eq, Json.number?] at absent ⊢
      rw [isNull] at isSame
      exact .inl isSame.2
    · refine .inr ⟨(Json.isDict_of_eq isSame.2).trans isDict, ?_⟩
      have status := Json.get_of_eq isSame.2 distinct "status"
      rw [Json.isStr_iff.mp complete, Json.eq_str] at status
      exact status
  · contradiction

/-- What was read in the course of a registration is evidence for the lease that it arms. -/
theorem evidence_of_reads {call : SessionCall} {turn : String} {read : Json} {row : WakeLease}
    (reads : TurnRead before.trace task call turn peer) (same : sameGoalNow call read = .ok ())
    (armedFor : ArmedFor call turn row) :
    Evidence (.replied task call.jobId (.peer peer) (.goalGet call.threadId) (.ok read) ::
      before.trace) row peer := by
  rcases reads with ⟨first, latest, done, isGoal, inProgress, reads, observed⟩
  rcases armedFor with ⟨-, sameJob, sameThread, isTurn, isCall⟩
  refine ⟨task, turn, call.callId, first, latest, read, isTurn, isCall, done, inProgress,
    goalDone_again done isGoal same, ?_, ?_⟩
  · rw [sameJob, sameThread]
    exact reads.cons_cons _
  · rw [sameJob, sameThread]
    exact observed.cons _

end SessionBridge

/-- For a lease that may be armed again nothing has been sent yet. -/
theorem Bonded.unsent (bonded : Bonded world) (inv : Inv world)
    (reusable : SessionBridge.reusable world job = true) :
    ∀ event ∈ world.trace, event.continues job = false := by
  have fresh {row : WakeLease} (found : world.row job = some row) :
      row.state = .armed ∧ row.handoffState = .pending := by
    rw [SessionBridge.reusable, found] at reusable
    simpa using reusable
  have uninterrupted {event : Event} (mem : event ∈ world.trace) :
      event.sends job Rpc.isInterrupt ≠ true := by
    intro interrupts
    rcases (inv.jobs job).interrupted (List.countP_pos_iff.mpr ⟨event, mem, interrupts⟩) with
      ⟨row, found, -, notPending⟩
    exact notPending (fresh found).2
  intro event mem
  rw [← Bool.not_eq_true]
  intro continues
  simp only [Event.continues, Bool.or_eq_true] at continues
  rcases continues with (interrupts | isReceipt) | starts
  · exact uninterrupted mem interrupts
  · rcases bonded.receipts job event mem isReceipt with ⟨sent, isSent, interrupts⟩
    exact uninterrupted isSent interrupts
  · rcases (inv.jobs job).started (List.countP_pos_iff.mpr ⟨event, mem, starts⟩) with
      ⟨row, found, -, state⟩
    rw [((inv.row_consistent found).armed (fresh found).1).1] at state
    simp at state

/-- Nobody delivers a lease that may be armed again. -/
theorem undelivered_of_reusable {lease : WakeLease} {await : WakeAt} (inv : Inv world)
    (reusable : SessionBridge.reusable world job = true)
    (suspended : world.At task (.wake lease peer await)) : lease.jobId ≠ job := by
  rintro rfl
  have relies := inv.suspended task _ suspended
  rcases relies.snapshot lease rfl with ⟨row, found, -⟩
  have beyond := relies.stage.1 row found
  rw [SessionBridge.reusable, found] at reusable
  simp only [Option.all_some, Bool.and_eq_true, decide_eq_true_eq] at reusable
  rw [reusable.1] at beyond
  simp [LeaseState.rank] at beyond

/-! ### Steps -/

/-- What a step does about owners. -/
inductive Shape (world : World) : Action → World → Prop
  /-- Nothing is sent, and owners are at most forgotten. -/
  | quiet {action : Action} {after : World} : Quiet world after → KeepsRows world after →
      Shape world action after
  /-- A connection shows a call of `start_job`. -/
  | observes {peer : PeerId} {params : Json} {thread : ThreadId} {callId turn : String} :
      params.get "threadId" = .str thread →
      SessionBridge.startJobItem params = some (callId, turn) →
      Shape world (.observe peer "item/started" params)
        (SessionBridge.setPeer (SessionBridge.rememberCall world peer thread callId turn) thread
          peer)
  /-- A coroutine gets to an await, and sends its request. -/
  | stops {action : Action} {between : World} {task : TaskId} {outcome : Outcome} :
      Quiet world between → KeepsRows world between →
      (∀ pc, outcome = .await pc → Enters between task pc) →
      Shape world action (between.settle task outcome)
  /-- A registration arms a lease. -/
  | arms {action : Action} {between : World} {job : JobId} {peer : PeerId} {task : TaskId}
      {outcome : Outcome} : Arms world between job peer → outcome.Ends →
      Shape world action
        (((SessionBridge.setLeasePeer between job peer).unlockPeer peer).settle task outcome)

theorem Shape.of_stops {action : Action} {stopped : World × Outcome} (quiet : Quiet world before)
    (stops : Stops before task stopped) (rows : KeepsRows world (World.stop task stopped)) :
    Shape world action (World.stop task stopped) :=
  .stops (quiet.trans stops.quiet)
    (rows.congr (fun _ => rfl) fun job => (World.stop_row task stopped job).symm) stops.enters

theorem Quiet.spawn (world : World) : Quiet world (world.spawn .running) where
  leasePeers := fun _ _ found => found
  waits := by
    intro task pc suspended
    rcases World.at_spawn suspended with ⟨-, running⟩ | suspended
    · contradiction
    · exact .inl suspended
  events := ⟨[], rfl, fun _ mem => (by cases mem)⟩

/-- A registration at its last step. -/
theorem Shape.of_registration {call : SessionCall} {turn : String} {input : Input}
    {stopped : World × Outcome} (reached : Reached world) (bonded : Bonded world)
    (suspended : world.At task (.sessionGoalNow call turn peer))
    (goesOn : SessionBridge.prepareResume (world.goOn task (.sessionGoalNow call turn peer) input)
      task (.sessionGoalNow call turn peer) input = some stopped) :
    Shape world (.resume task input) (World.stop task stopped) := by
  have goesQuietly := Quiet.goOn world task (.sessionGoalNow call turn peer) input
  have reusable_goOn : SessionBridge.reusable
      (world.goOn task (.sessionGoalNow call turn peer) input) call.jobId =
        SessionBridge.reusable world call.jobId := by
    rw [SessionBridge.reusable, World.goOn_row, SessionBridge.reusable]
  cases input with
  | reply result =>
      rcases Option.some.inj goesOn with rfl
      rcases SessionBridge.prepareArm_cases
        (world.goOn task (.sessionGoalNow call turn peer) (.reply result)) task call turn peer
        result with
        ⟨harmless, rows⟩ | ⟨read, between, outcome, rfl, same, reusable, ends, isStopped, quiet,
          others, row, isRow, armedFor⟩
      · refine .of_stops goesQuietly harmless.stops (.same fun job => ?_)
        rw [World.stop_row, rows, World.goOn_row]
      · rw [isStopped]
        rw [reusable_goOn] at reusable
        have reads := bonded.backed task _ suspended
        have evidence := SessionBridge.evidence_of_reads reads same armedFor
        have logged : (world.goOn task (.sessionGoalNow call turn peer) (.reply (.ok read))).trace =
            _ := World.goOn_trace rfl (.ok read)
        rw [← logged] at evidence
        have arms : Arms world between call.jobId peer := {
          quiet := goesQuietly.trans quiet
          unsent := bonded.unsent reached.toInv reusable
          undelivered := fun _ _ _ _ waits =>
            undelivered_of_reusable reached.toInv reusable waits
          rows := fun other different => (others other different).trans (World.goOn_row ..)
          armed := ⟨row, isRow, armedFor.1, evidence.mono rfl quiet.sublist⟩ }
        exact .arms arms ends
  | cancelled =>
      rcases Option.some.inj goesOn with rfl
      refine .of_stops goesQuietly (Harmless.stops ⟨(Quiet.refl _).unlockPeer _, rfl⟩)
        (.same fun job => ?_)
      rw [World.stop_row]
      exact World.goOn_row ..
  | _ => contradiction

theorem shape_of_step {action : Action} (reached : Reached world) (calls : CallsObserved world)
    (bonded : Bonded world) (taken : step world action = some after) :
    Shape world action after := by
  have rows (unresumed : world.resumes action = none) : KeepsRows world after :=
    KeepsRows.step reached taken fun _ _ _ _ _ => by rw [unresumed]; nofun
  cases action with
  | tick now =>
      have kept := rows rfl
      rcases Option.some.inj taken with rfl
      exact .quiet ((Quiet.refl world).same rfl rfl rfl) kept
  | crash =>
      have kept := rows rfl
      rcases Option.some.inj taken with rfl
      refine .quiet ⟨fun _ _ found => (by cases found), fun task pc suspended => ?_,
        ⟨[], rfl, fun _ mem => (by cases mem)⟩⟩ kept
      exact absurd suspended (world.crash_idle task pc)
  | connect =>
      have kept := rows rfl
      obtain ⟨-, rfl⟩ := by simpa [step] using taken
      exact .quiet ((Quiet.refl world).same rfl rfl rfl) kept
  | start =>
      have kept := rows rfl
      obtain ⟨-, rfl⟩ := by simpa [step] using taken
      have recovered := Quiet.foldl SessionBridge.recoverLease_quiet world.store.pending world
      have serving : Quiet world ({ world.store.pending.foldl SessionBridge.recoverLease world with
          phase := .serving } : World) := recovered.same rfl rfl rfl
      exact .quiet (serving.log rfl) kept
  | notification method params =>
      have kept := rows rfl
      obtain ⟨-, rfl⟩ := by simpa [step] using taken
      exact .quiet (SessionBridge.onNotification_quiet world method params) kept
  | request request =>
      have kept := rows rfl
      obtain ⟨-, rfl⟩ := by simpa [step] using taken
      exact .of_stops ((Quiet.spawn world).log rfl)
        (SessionBridge.dispatch_harmless _ request).stops kept
  | observe peer method params =>
      have kept := rows rfl
      obtain ⟨-, rfl⟩ := by simpa [step] using taken
      rcases SessionBridge.observe_cases world peer method params with
        quiet | ⟨rfl, thread, callId, turn, isThread, isItem, observed⟩
      · exact .quiet quiet kept
      · rw [observed]
        exact .observes isThread isItem
  | clientMessage peer message =>
      have kept := rows rfl
      obtain ⟨-, rfl⟩ := by simpa [step] using taken
      have waits : Stops (world.spawn .running) world.tasks.length
          (world.spawn .running, .await (.client peer (.activityLock message))) :=
        (Harmless.refl _ rfl).stops
      exact .of_stops (Quiet.spawn world) waits kept
  | disconnect peer =>
      have kept := rows rfl
      obtain ⟨-, rfl⟩ := by simpa [step] using taken
      have cancelled : Quiet world (world.cancelClients peer) :=
        (Quiet.refl world).same rfl rfl rfl
      exact .quiet (cancelled.trans (SessionBridge.disconnected_quiet _ peer)) kept
  | cancel task =>
      have kept := rows rfl
      obtain ⟨-, rfl⟩ := by simpa [step] using taken
      have requested : Quiet world (world.cancelTask task) := (Quiet.refl world).same rfl rfl rfl
      exact .quiet (requested.log rfl) kept
  | resume task input =>
      obtain ⟨-, resumes⟩ := by simpa [step] using taken
      unfold World.resumeTask at resumes
      split at resumes
      · rename_i pc suspended
        rcases step_resume taken suspended with ⟨stopped, goesOn, rfl⟩
        by_cases registration : ∃ call turn peer, pc = .sessionGoalNow call turn peer
        · rcases registration with ⟨call, turn, peer, rfl⟩
          exact .of_registration reached bonded suspended goesOn
        · have unarmed (call : SessionCall) (turn : String) (peer : PeerId) :
              pc ≠ .sessionGoalNow call turn peer :=
            fun isLast => registration ⟨call, turn, peer, isLast⟩
          have kept : KeepsRows world (World.stop task stopped) := by
            refine KeepsRows.step reached taken fun other call turn peer given isOrigin => ?_
            rw [World.resumes, suspended] at isOrigin
            exact unarmed call turn peer (congrArg Origin.pc (Option.some.inj isOrigin))
          refine .of_stops (.goOn ..) (resume_stops ⟨reached.toInv, suspended⟩
            (bonded.backed task pc suspended) calls ?_ unarmed goesOn) kept
          exact kept.congr (world.goOn_row task pc input)
            fun job => (World.stop_row task stopped job).symm
      · contradiction

/-- An observed call changes nothing for the leases that are controlled. -/
theorem Bonded.observe (bonded : Bonded world) (peer : PeerId) (thread : ThreadId)
    (callId turn : String) (tasks : after.tasks = world.tasks) (store : after.store = world.store)
    (leasePeers : after.leasePeers = world.leasePeers)
    (trace : after.trace = [.observed peer thread callId turn] ++ world.trace) :
    Bonded after := by
  have rows (job : JobId) : after.row job = world.row job := by rw [World.row, World.row, store]
  have grows : world.trace.Sublist after.trace := by
    rw [trace]
    exact List.sublist_append_right _ _
  have controls {row : WakeLease} {owning : PeerId} (controls : Controls world row owning) :
      Controls after row owning := by
    refine controls.next rfl trace (fun event mem => ?_) fun _ found => leasePeers ▸ found
    rw [List.mem_singleton.mp mem]
    rfl
  exact {
    backed := by
      intro task pc suspended
      rw [World.At, tasks] at suspended
      refine (bonded.backed task pc suspended).mono grows fun lease _ _ row _ session held => ?_
      exact ⟨row, ⟨(rows _).trans session.1, session.2⟩, controls held⟩
    controlled := by
      intro job row found session
      rcases bonded.controlled job row ((rows job).symm.trans found) session with ⟨owning, held⟩
      exact ⟨owning, controls held⟩
    recorded := by
      intro job owning found
      rw [leasePeers] at found
      rw [rows]
      exact bonded.recorded job owning found
    receipts := by
      intro job event mem isReceipt
      rcases List.mem_cons.mp (trace ▸ mem) with rfl | mem
      · contradiction
      · rcases bonded.receipts job event mem isReceipt with ⟨sent, isSent, interrupts⟩
        exact ⟨sent, grows.subset isSent, interrupts⟩ }

theorem Bonded.step {action : Action} (bonded : Bonded world) (shape : Shape world action after) :
    Bonded after := by
  cases shape with
  | quiet quiet rows => exact bonded.quiet quiet rows
  | @observes peer params thread callId turn =>
      apply bonded.observe peer thread callId turn <;> simp [SessionBridge.rememberCall]
  | stops quiet rows enters => exact (bonded.quiet quiet rows).settle enters
  | @arms _ between job peer task outcome arms ends =>
      have armed : Bonded ((SessionBridge.setLeasePeer between job peer).unlockPeer peer) :=
        (bonded.arm arms).quiet ((Quiet.refl _).unlockPeer peer) (.same fun _ => rfl)
      exact armed.settle fun pc isAwait => (isAwait ▸ ends).elim

/-! ### Runs -/

theorem Moves.callsObserved {origin : Option Origin} (inv : Inv before)
    (moves : Moves origin before after) (calls : CallsObserved before) : CallsObserved after := by
  refine moves.preserves CallsObserved inv calls fun first last _ calls move key call found => ?_
  have grows := move.trace_suffix.subset
  rcases move.calls with same | ⟨-, known⟩
  · rw [same] at found
    exact grows (calls key call found)
  · rcases known key call found with found | observed
    · exact grows (calls key call found)
    · exact grows (List.mem_of_mem_head? observed)

theorem CallsObserved.step {action : Action} (reached : Reached world)
    (calls : CallsObserved world) (taken : step world action = some after) :
    CallsObserved after := by
  cases progress reached.toInv taken with
  | moves moves =>
      refine moves.callsObserved (reached.toInv.entered action) fun key call found => ?_
      rw [World.entered_trace]
      refine calls key call ?_
      cases action <;> exact found
  | crash => exact fun _ _ found => (by cases found)
  | connect => exact calls
  | start connecting =>
      have away : world.phase ≠ .serving := by rw [connecting]; decide
      rcases (reached.toInv.recovering (reached.offline away)).all none with ⟨recovered, -⟩
      have recalled := recovered.callsObserved reached.toInv calls
      exact fun key call found => List.mem_cons_of_mem _ (recalled key call found)

theorem bonded_of_reachable {allowed : World → Action → Prop}
    (reachable : coordinator.ReachableBy allowed world) :
    Reached world ∧ CallsObserved world ∧ Bonded world := by
  let all (world : World) : Prop := Reached world ∧ CallsObserved world ∧ Bonded world
  have holds : all world := by
    refine reachable.invariant
      ⟨reached_initial, fun _ _ found => (by cases found), bonded_initial⟩ ?_
    rintro before action after ⟨reached, calls, bonded⟩ - taken
    exact ⟨reached.next taken, calls.step reached taken,
      bonded.step (shape_of_step reached calls bonded taken)⟩
  exact holds

/-! ### What a step adds to the trace -/

theorem World.settle_leasePeers (world : World) (task : TaskId) (outcome : Outcome) :
    (world.settle task outcome).leasePeers = world.leasePeers := by
  cases outcome with
  | await pc =>
      rw [settle, issue]
      split <;> rfl
  | done | fail => rfl

/-- A coroutine that stops adds the request that it awaits, or its end. -/
theorem World.mem_settle {outcome : Outcome} {event : Event}
    (mem : event ∈ (world.settle task outcome).trace) :
    event ∈ world.trace ∨ event.isPassive = true ∨ ∃ pc job via rpc, outcome = .await pc ∧
      pc.awaits = some (job, via, rpc) ∧ event = .sent task job via rpc := by
  cases outcome with
  | await pc =>
      rw [settle, setTask_trace, issue] at mem
      split at mem
      · rename_i job via rpc awaits
        rcases List.mem_cons.mp mem with rfl | mem
        · exact .inr (.inr ⟨pc, job, via, rpc, rfl, awaits, rfl⟩)
        · exact .inl mem
      · exact .inl mem
  | done | fail =>
      rcases List.mem_cons.mp mem with rfl | mem
      · exact .inr (.inl rfl)
      · exact .inl mem

theorem Quiet.mem (quiet : Quiet before after) {event : Event} (mem : event ∈ after.trace) :
    event ∈ before.trace ∨ event.isPassive = true := by
  rcases quiet.events with ⟨newer, trace, passive⟩
  rcases List.mem_append.mp (trace ▸ mem) with mem | mem
  · exact .inr (passive event mem)
  · exact .inl mem

/-- A call is observed where a connection shows that its item has started. -/
theorem Shape.observed {action : Action} (shape : Shape world action after) {thread : ThreadId}
    {callId turn : String} (mem : .observed peer thread callId turn ∈ after.trace) :
    .observed peer thread callId turn ∈ world.trace ∨
      ∃ params, action = .observe peer "item/started" params ∧
        params.get "threadId" = .str thread ∧
        SessionBridge.startJobItem params = some (callId, turn) := by
  have settled {between : World} {task : TaskId} {outcome : Outcome}
      (mem : .observed peer thread callId turn ∈ (between.settle task outcome).trace) :
      .observed peer thread callId turn ∈ between.trace := by
    rcases World.mem_settle mem with mem | passive | ⟨_, _, _, _, -, -, isSent⟩
    · exact mem
    · contradiction
    · contradiction
  cases shape with
  | quiet quiet => exact .inl ((quiet.mem mem).resolve_right (fun impossible => by cases impossible))
  | @observes _ params _ _ _ isThread isItem =>
      rw [SessionBridge.setPeer_trace, SessionBridge.rememberCall, World.log_trace,
        SessionBridge.setCalls_trace] at mem
      rcases List.mem_cons.mp mem with isEvent | mem
      · cases isEvent
        exact .inr ⟨params, rfl, isThread, isItem⟩
      · exact .inl mem
  | stops quiet => exact .inl ((quiet.mem (settled mem)).resolve_right (fun impossible => by cases impossible))
  | arms arms =>
      have mem := settled mem
      rw [World.unlockPeer_trace, SessionBridge.setLeasePeer_trace] at mem
      exact .inl ((arms.quiet.mem mem).resolve_right (fun impossible => by cases impossible))

/-- A turn is interrupted or started over the connection that is recorded as the owner then. -/
theorem Shape.sent {action : Action} {via : Channel} {rpc : Rpc} (shape : Shape world action after)
    (mem : .sent task job via rpc ∈ after.trace) (new : .sent task job via rpc ∉ world.trace)
    (kind : rpc.isInterrupt = true ∨ rpc.isTurnStart = true) :
    ∃ peer, via = .peer peer ∧ after.leasePeers.get? job = some peer := by
  cases shape with
  | quiet quiet => exact absurd ((quiet.mem mem).resolve_right (fun impossible => by cases impossible)) new
  | observes =>
      rw [SessionBridge.setPeer_trace, SessionBridge.rememberCall, World.log_trace,
        SessionBridge.setCalls_trace] at mem
      exact absurd ((List.mem_cons.mp mem).resolve_left (fun impossible => by cases impossible)) new
  | @stops _ between _ outcome quiet _ enters =>
      rcases World.mem_settle mem with
        mem | passive | ⟨pc, _, _, _, isAwait, awaits, isSent⟩
      · exact absurd ((quiet.mem mem).resolve_right (fun impossible => by cases impossible)) new
      · contradiction
      · injection isSent with _ sameJob sameVia sameRpc
        subst sameJob sameVia sameRpc
        have entered := enters pc isAwait
        rw [World.settle_leasePeers]
        rcases Pc.continues_cases awaits (by rcases kind with kind | kind <;>
          simp [Event.continues, kind]) with
          ⟨call, done, rfl⟩ | ⟨call, rfl⟩ | ⟨lease, peer, current, rfl⟩
        · obtain ⟨rfl, rfl, -⟩ : call.lease.jobId = job ∧ Channel.peer call.peer = via ∧
              Rpc.turnInterrupt call.lease.threadId call.lease.turnId = rpc := by
            simpa [Pc.awaits] using awaits
          exact ⟨call.peer, rfl, entered.2⟩
        · obtain ⟨-, -, rfl⟩ : call.lease.jobId = job ∧ Channel.peer call.peer = via ∧
              Rpc.injectItems call.lease.threadId (receipt call) = rpc := by
            simpa [Pc.awaits] using awaits
          rcases kind with kind | kind <;> contradiction
        · obtain ⟨rfl, rfl, -⟩ : lease.jobId = job ∧ Channel.peer peer = via ∧
              Rpc.turnStart lease.threadId (wakeMessage current) = rpc := by
            simpa [Pc.awaits] using awaits
          exact ⟨peer, rfl, entered.2⟩
  | arms arms ends =>
      rcases World.mem_settle mem with mem | passive | ⟨pc, _, _, _, rfl, -, -⟩
      · rw [World.unlockPeer_trace, SessionBridge.setLeasePeer_trace] at mem
        exact absurd ((arms.quiet.mem mem).resolve_right (fun impossible => by cases impossible)) new
      · contradiction
      · exact ends.elim

/-- A session lease is bound to the connection that has shown its tool call, and is continued over
this connection only. -/
theorem session_bound (reachable : coordinator.Reachable world) :
    (∀ job row, world.row job = some row → row.wakeMode = .session →
      ∃ peer, Controls world row peer) ∧
    (∀ job peer, world.leasePeers.get? job = some peer →
      ∃ row, world.row job = some row ∧ row.wakeMode = .session ∧ Controls world row peer) ∧
    ∀ action after, step world action = some after →
      (∀ peer thread callId turn, .observed peer thread callId turn ∈ after.trace →
        .observed peer thread callId turn ∈ world.trace ∨
          ∃ params, action = .observe peer "item/started" params ∧
            params.get "threadId" = .str thread ∧
            SessionBridge.startJobItem params = some (callId, turn)) ∧
      ∀ task job via rpc, .sent task job via rpc ∈ after.trace →
        .sent task job via rpc ∉ world.trace →
        rpc.isInterrupt = true ∨ rpc.isTurnStart = true →
        ∃ peer, via = .peer peer ∧ after.leasePeers.get? job = some peer := by
  rcases bonded_of_reachable reachable with ⟨reached, calls, bonded⟩
  refine ⟨bonded.controlled, fun job peer found => ?_, fun action after taken => ?_⟩
  · rcases bonded.recorded job peer found with ⟨row, isRow, session⟩
    rcases bonded.controlled job row isRow session with ⟨owning, controls⟩
    have isJob : row.jobId = job := BridgeState.jobId_of_get isRow
    rcases controls.owner peer (isJob ▸ found) with rfl
    exact ⟨row, isRow, session, controls⟩
  · have shape := shape_of_step reached calls bonded taken
    exact ⟨fun _ _ _ _ mem => shape.observed mem, fun _ _ _ _ mem new kind =>
      shape.sent mem new kind⟩

/-- The lease of a session that has been continued over its connection. -/
theorem session_bound_run : ∃ world row peer, coordinator.Reachable world ∧
    world.row Scenario.firstJob = some row ∧ row.wakeMode = .session ∧
    0 < world.trace.countP (·.sends Scenario.firstJob Rpc.isTurnStart) ∧
    Controls world row peer := by
  have ran : (coordinator.run World.initial
      (Scenario.startUp ++ Scenario.sessionRun Scenario.firstJob 0)).any (fun world =>
      (world.row Scenario.firstJob).any (·.wakeMode = .session) &&
        0 < world.trace.countP (·.sends Scenario.firstJob Rpc.isTurnStart)) = true := by
    decide +kernel
  rcases System.exists_reachable_of_run ran with ⟨world, reachable, holds⟩
  rcases Bool.and_eq_true_iff.mp holds with ⟨isRow, started⟩
  rcases Option.any_eq_true _ _ |>.mp isRow with ⟨row, found, session⟩
  have session : row.wakeMode = .session := by simpa using session
  rcases (session_bound reachable).1 Scenario.firstJob row found session with ⟨peer, controls⟩
  exact ⟨world, row, peer, reachable, found, session, by simpa using started, controls⟩

end Longrun.Bridge
