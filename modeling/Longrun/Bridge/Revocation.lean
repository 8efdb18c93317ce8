import Longrun.Bridge.Scenario

/-!
# Revocation on request

An `abort` or a `cancel_wakeup` names a job, but what it revokes is the live lease of the thread.
The two are the same as long as the job's own lease is live. This file says which rows such a
request changes, and when the answer to a `cancel_wakeup` is true.
-/

namespace Longrun.Bridge

variable {world after : World} {job : JobId} {thread : ThreadId} {request : Json}
  {action : String} {lease : WakeLease}

/-! ### What a revocation does to the rows -/

/-- The lease that a revocation of a thread abandons. -/
def WakeLease.Revocable (row : WakeLease) (thread : ThreadId) : Prop :=
  row.threadId = thread ∧ row.isLive = true ∧ row.deliveryState ≠ .activating

/-- What a revocation writes. -/
def revokedFields (reason : String) : LeaseUpdate :=
  { state := some .abandoned, deliveryState := some .abandoned, error := some reason }

/-- A revocation leaves all rows alone, or abandons the one that is revocable. -/
theorem abandonForManualChange_rows (world : World) (thread : ThreadId) (reason : String) :
    (world.Revoked thread ∧
        ∀ job, (abandonForManualChange world thread reason).row job = world.row job) ∨
      ∃ lease, world.row lease.jobId = some lease ∧ lease.Revocable thread ∧
        ∀ job, (abandonForManualChange world thread reason).row job =
          if job = lease.jobId then some ((revokedFields reason).apply lease)
          else world.row job := by
  rcases abandonForManualChange_cases world thread reason with
    ⟨same, revoked⟩ | ⟨lease, isLease, isThread, live, idle, leasePeers, abandoned⟩
  · exact .inl ⟨revoked, fun job => by rw [same]⟩
  · refine .inr ⟨lease, isLease, ⟨isThread, live, idle⟩, fun job => ?_⟩
    have later : lease.Later ((revokedFields reason).apply lease) := ⟨rfl, lease.state.rank_le⟩
    rw [abandoned, ← World.row_update isLease later]
    exact (World.cancelDeadline_row _ _ _).trans (World.cancelDelivery_row _ _ _)

/-- The row of a job after a revocation. -/
theorem abandonForManualChange_row {row : WakeLease} (thread : ThreadId) (reason : String)
    (found : world.row job = some row) :
    (row.Revocable thread ∧ (abandonForManualChange world thread reason).row job =
        some ((revokedFields reason).apply row)) ∨
      (¬row.Revocable thread ∧
        (abandonForManualChange world thread reason).row job = some row) := by
  rcases abandonForManualChange_rows world thread reason with
    ⟨revoked, rows⟩ | ⟨lease, isLease, isRevocable, rows⟩
  · refine .inr ⟨fun revocable => ?_, (rows job).trans found⟩
    exact revocable.2.2 (revoked job row found revocable.1 revocable.2.1)
  · rw [rows]
    by_cases same : job = lease.jobId
    · subst same
      rcases Option.some.inj (found.symm.trans isLease) with rfl
      exact .inl ⟨isRevocable, if_pos rfl⟩
    · refine .inr ⟨fun revocable => same ?_, (if_neg same).trans found⟩
      exact BridgeState.live_unique found isLease (revocable.1.trans isRevocable.1.symm)
        revocable.2.1 isRevocable.2.1

theorem abandonForManualChange_row_none (reason : String) (absent : world.row job = none) :
    (abandonForManualChange world thread reason).row job = none := by
  rcases abandonForManualChange_rows world thread reason with
    ⟨-, rows⟩ | ⟨lease, isLease, -, rows⟩
  · exact (rows job).trans absent
  · rw [rows]
    split
    · rename_i same
      rw [same, isLease] at absent
      contradiction
    · exact absent

/-! ### Aborts and cancellations -/

/-- Handling a request leaves the leases of all other jobs as they are. -/
def LeavesOthers (world after : World) (job : JobId) : Prop :=
  ∀ other, other ≠ job → after.row other = world.row other

/-- Another job has the revocable lease of the thread. -/
def Bystander (world : World) (lease : WakeLease) : Prop :=
  ∃ other row, other ≠ lease.jobId ∧ world.row other = some row ∧ row.Revocable lease.threadId

/-- A revocation of the thread leaves the other jobs alone if none of them has a revocable lease. -/
theorem leavesOthers_revocation (reason : String) :
    LeavesOthers world (abandonForManualChange world lease.threadId reason) lease.jobId ↔
      ¬Bystander world lease := by
  constructor
  · rintro leaves ⟨other, row, different, found, revocable⟩
    have kept := leaves other different
    rcases abandonForManualChange_row lease.threadId reason found with ⟨-, abandoned⟩ | ⟨spared, -⟩
    · rw [abandoned, found, Option.some.injEq] at kept
      have live := revocable.2.1
      rw [← kept] at live
      contradiction
    · exact spared revocable
  · intro none other different
    cases found : world.row other with
    | none => exact abandonForManualChange_row_none reason found
    | some row =>
        rcases abandonForManualChange_row lease.threadId reason found with ⟨revocable, -⟩ | ⟨-, kept⟩
        · exact absurd ⟨other, row, different, found, revocable⟩ none
        · exact kept

/-- The thread of a live lease has no other live lease. -/
theorem no_bystander (found : world.row lease.jobId = some lease) (live : lease.isLive = true) :
    ¬Bystander world lease := by
  rintro ⟨other, row, different, isRow, sameThread, otherLive, -⟩
  exact different (BridgeState.live_unique isRow found sameThread otherLive live)

/-- The request revokes the thread although the lease of its own job is not live. -/
def Strays (world : World) (action : String) (lease : WakeLease) : Prop :=
  lease.wakeMode = .session ∧ (action = "abort" ∨ lease.state = .abandoned) ∧
    Bystander world lease

theorem leavesOthers_update {row : WakeLease} {fields : LeaseUpdate}
    (found : world.row job = some row) (later : row.Later (fields.apply row)) :
    LeavesOthers world (world.update job fields) job :=
  fun other different => by rw [World.row_update found later, if_neg different]

/-- The abort of a Goal lease. -/
theorem leavesOthers_goalAbort (found : world.row job = some lease)
    (isThread : threadIdOf (request.get "thread_id") = .ok lease.threadId) :
    LeavesOthers world (GoalBridge.abort world job request).1 job := by
  have sameJob := BridgeState.jobId_of_get found
  unfold GoalBridge.abort
  simp only [isThread, found, ne_eq, not_true_eq_false, if_false]
  split_ifs with final preparing terminal unarmed
  · exact fun _ _ => rfl
  · subst sameJob
    exact (leavesOthers_revocation _).mpr
      (no_bystander found (WakeLease.isLive_of_preparing preparing))
  · exact fun _ _ => rfl
  · exact fun _ _ => rfl
  · rw [not_or, not_not, not_not] at unarmed
    intro other different
    refine (World.scheduleDelivery_row _ _ _).trans ?_
    refine leavesOthers_update found ⟨rfl, ?_⟩ other different
    simp [LeaseUpdate.apply, unarmed.1, LeaseState.rank]

/-- The abort of a session lease. -/
theorem sessionAbort_eq (found : world.row job = some lease) (session : lease.wakeMode = .session)
    (isThread : threadIdOf (request.get "thread_id") = .ok lease.threadId) :
    SessionBridge.abort world job request =
      (abandonForManualChange world lease.threadId "Session registration aborted",
        answer [("delivery_state", .str "abandoned")]) := by
  simp [SessionBridge.abort, found, session, isThread]

/-- The cancellation of a session wakeup. -/
theorem sessionCancel_eq (found : world.row job = some lease) (session : lease.wakeMode = .session)
    (isThread : threadIdOf (request.get "thread_id") = .ok lease.threadId) :
    SessionBridge.sessionControl world "cancel_wakeup" job request =
      if lease.isLive = true ∨ lease.state = .abandoned then
        (abandonForManualChange world lease.threadId "Session wakeup explicitly cancelled",
          answer [("wakeup_cancelled", .bool true), ("job_cancelled", .bool false)])
      else
        (world, answer [("wakeup_cancelled", .bool false), ("job_cancelled", .bool false),
          ("delivery_state", .str lease.deliveryState.text)]) := by
  cases state : lease.state <;>
    simp [SessionBridge.sessionControl, found, session, isThread, state, WakeLease.isLive,
      LeaseState.isLive]

/-- The cancellation of a Goal wakeup is refused. -/
theorem goalCancel_eq (found : world.row job = some lease) (goal : lease.wakeMode = .goal)
    (isThread : threadIdOf (request.get "thread_id") = .ok lease.threadId) :
    SessionBridge.sessionControl world "cancel_wakeup" job request =
      (world, raise (runtimeError "session control cannot change a Goal lease")) := by
  simp [SessionBridge.sessionControl, found, goal, isThread]

/-- A request for a job of its own thread touches no other lease, unless it revokes the thread
although the lease of its own job is not live. -/
theorem leavesOthers_iff (found : world.row job = some lease)
    (names : Names request action job lease.threadId)
    (isAction : action = "abort" ∨ action = "cancel_wakeup")
    (taken : step world (.request request) = some after) :
    LeavesOthers world after job ↔ ¬Strays world action lease := by
  have sameJob := BridgeState.jobId_of_get found
  subst sameJob
  have received : (world.received request).row lease.jobId = some lease := found
  have rows : LeavesOthers world after lease.jobId ↔ LeavesOthers (world.received request)
      (SessionBridge.dispatch (world.received request) request).1 lease.jobId := by
    rw [step_request taken]
    simp only [LeavesOthers, World.stop_row]
    exact Iff.rfl
  have revokes (reason : String) : LeavesOthers (world.received request)
      (abandonForManualChange (world.received request) lease.threadId reason) lease.jobId ↔
        ¬Bystander world lease := leavesOthers_revocation reason
  have alone (live : lease.isLive = true) : ¬Bystander world lease := no_bystander found live
  rw [rows]
  rcases isAction with rfl | rfl
  · rw [names.dispatch_abort]
    cases mode : lease.wakeMode with
    | goal =>
        have goalAbort : SessionBridge.abort (world.received request) lease.jobId request =
            GoalBridge.abort (world.received request) lease.jobId request := by
          simp [SessionBridge.abort, received, mode]
        rw [goalAbort]
        simp [Strays, mode, leavesOthers_goalAbort received names.threadId]
    | session =>
        rw [sessionAbort_eq received mode names.threadId]
        simp [Strays, mode, revokes]
  · rw [names.dispatch_cancel]
    cases mode : lease.wakeMode with
    | goal =>
        rw [goalCancel_eq received mode names.threadId]
        simp [Strays, mode, LeavesOthers]
    | session =>
        rw [sessionCancel_eq received mode names.threadId]
        split_ifs with state
        · rcases state with live | abandoned
          · simp [Strays, mode, revokes, alone live]
          · simp [Strays, mode, revokes, abandoned]
        · rw [not_or] at state
          simp [Strays, mode, state.2, LeavesOthers]

/-- A revoked session job, and a Goal job that was registered on the thread after it. -/
def revokedThenRegistered : List Action :=
  Scenario.startUp ++ Scenario.armSession Scenario.firstJob 0 0 ++
    [Scenario.abort Scenario.firstJob] ++ Scenario.armGoal Scenario.secondJob 3

/-- What the abort of a job in a state changes in the row of another one. -/
def abortChanges (world : World) (job other : JobId) : Bool :=
  (world.row job).any (·.threadId = Scenario.thread) &&
    (step world (Scenario.abort job)).any fun after => after.row other ≠ world.row other

theorem exists_abortChanges : ∃ world lease after, coordinator.Reachable world ∧
    world.row Scenario.firstJob = some lease ∧ lease.threadId = Scenario.thread ∧
    step world (Scenario.abort Scenario.firstJob) = some after ∧
    after.row Scenario.secondJob ≠ world.row Scenario.secondJob := by
  have ran : (coordinator.run World.initial revokedThenRegistered).any
      (abortChanges · Scenario.firstJob Scenario.secondJob) = true := by decide +kernel
  rcases System.exists_reachable_of_run ran with ⟨world, reachable, changes⟩
  rcases Bool.and_eq_true_iff.mp changes with ⟨isRow, changes⟩
  rcases (Option.any_eq_true _ _).mp isRow with ⟨lease, found, isThread⟩
  rcases (Option.any_eq_true _ _).mp changes with ⟨after, taken, changed⟩
  exact ⟨world, lease, after, reachable, found, by simpa using isThread, taken,
    by simpa using changed⟩

/-- Aborting a job twice revokes the wakeup of the job that was registered in between. -/
theorem abort_strays : ∃ world lease after, coordinator.Reachable world ∧
    world.row Scenario.firstJob = some lease ∧
    Names (Scenario.request "abort" Scenario.firstJob []) "abort" Scenario.firstJob
      lease.threadId ∧
    step world (Scenario.abort Scenario.firstJob) = some after ∧
    ¬LeavesOthers world after Scenario.firstJob := by
  rcases exists_abortChanges with ⟨world, lease, after, reachable, found, isThread, taken, changed⟩
  refine ⟨world, lease, after, reachable, found, ?_, taken, fun leaves => ?_⟩
  · rw [isThread]
    exact Scenario.names_request "abort" Scenario.jobIdOf_firstJob []
  · exact changed (leaves Scenario.secondJob (by decide))

theorem leavesOthers_iff_abort : ∃ world lease after,
    world.row Scenario.firstJob = some lease ∧
    step world (Scenario.abort Scenario.firstJob) = some after ∧
    (LeavesOthers world after Scenario.firstJob ↔ ¬Strays world "abort" lease) := by
  rcases exists_abortChanges with ⟨world, lease, after, -, found, isThread, taken, -⟩
  refine ⟨world, lease, after, found, taken, leavesOthers_iff found ?_ (.inl rfl) taken⟩
  rw [isThread]
  exact Scenario.names_request "abort" Scenario.jobIdOf_firstJob []

/-! ### Revoked leases -/

/-- The lease of a job is revoked, and its continuation turn was not started. -/
def Withdrawn (job : JobId) (store : BridgeState) (trace : List Event) : Prop :=
  (∃ row, store.get job = some row ∧ row.state = .abandoned) ∧
    trace.countP (·.sends job Rpc.isTurnStart) = 0

/-- A revoked lease never had its turn started. -/
theorem Inv.withdrawn {row : WakeLease} (inv : Inv world) (found : world.row job = some row)
    (abandoned : row.state = .abandoned) : Withdrawn job world.store world.trace := by
  refine ⟨⟨row, found, abandoned⟩, Nat.eq_zero_of_not_pos fun sent => ?_⟩
  rcases (inv.jobs job).started sent with ⟨current, isRow, -, delivery⟩
  rcases Option.some.inj (found.symm.trans isRow) with rfl
  have isAbandoned := (inv.row_consistent found).abandoned abandoned
  simp [isAbandoned] at delivery

/-- No move brings it back. -/
theorem Withdrawn.move {origin : Option Origin} (inv : Inv world)
    (withdrawn : Withdrawn job world.store world.trace) (move : Move origin world after) :
    Withdrawn job after.store after.trace := by
  rcases withdrawn with ⟨⟨row, found, abandoned⟩, unstarted⟩
  have consistent := inv.row_consistent found
  have settled : row.isLive = false := by simp [WakeLease.isLive, abandoned, LeaseState.isLive]
  have isAbandoned : ∃ row, after.row job = some row ∧ row.state = .abandoned := by
    cases move.rowChange job with
    | same unchanged => exact ⟨row, unchanged.trans found, abandoned⟩
    | @updated current fields isRow legal isAfter =>
        rcases Option.some.inj (found.symm.trans isRow) with rfl
        have sent := legal.of_abandoned consistent abandoned
        rw [BridgeState.jobId_of_get found, unstarted] at sent
        contradiction
    | committed _ isRow live =>
        rcases Option.some.inj (found.symm.trans isRow) with rfl
        simp [settled] at live
    | registered _ _ fresh => simp [found] at fresh
  refine ⟨isAbandoned, ?_⟩
  rcases move.announces inv with unchanged | ⟨event, isEvent, announced⟩
  · rw [unchanged]
    exact unstarted
  · rw [isEvent, List.countP_cons, unstarted]
    cases sends : event.sends job Rpc.isTurnStart with
    | false => rfl
    | true =>
        rcases announced.of_turnStart sends with ⟨current, isRow, -, terminal, -⟩
        rcases Option.some.inj (found.symm.trans isRow) with rfl
        simp [abandoned] at terminal

/-- What the answer to a cancellation promises: the lease is revoked, its continuation turn was not
started and never will be. -/
def WakeupCancelled (world : World) (job : JobId) : Prop :=
  (∃ row, world.row job = some row ∧ row.state = .abandoned) ∧
    ∀ last, coordinator.Steps System.anyStep world last →
      last.trace.countP (·.sends job Rpc.isTurnStart) = 0

/-- A revoked lease stays revoked. -/
theorem Reached.withdrawn {last : World} {row : WakeLease} (reached : Reached world)
    (found : world.row job = some row) (abandoned : row.state = .abandoned)
    (steps : coordinator.Steps System.anyStep world last) :
    Withdrawn job last.store last.trace := by
  refine reached.keeps_run (Withdrawn job) steps (reached.toInv.withdrawn found abandoned) ?_ ?_
  · exact fun _ _ withdrawn => ⟨withdrawn.1, (List.countP_cons ..).trans withdrawn.2⟩
  · exact fun _ _ _ _ _ _ inv withdrawn move => withdrawn.move inv move

/-- A revoked lease is a cancelled wakeup. -/
theorem Reached.wakeupCancelled {row : WakeLease} (reached : Reached world)
    (found : world.row job = some row) (abandoned : row.state = .abandoned) :
    WakeupCancelled world job :=
  ⟨⟨row, found, abandoned⟩, fun _ steps => (reached.withdrawn found abandoned steps).2⟩

/-- A cancellation that is answered as successful is one, unless the continuation turn is under
way. -/
theorem wakeupCancelled_iff (reachable : coordinator.Reachable world)
    (found : world.row job = some lease)
    (names : Names request "cancel_wakeup" job lease.threadId)
    (taken : step world (.request request) = some after) {result : Json}
    (answered : answerOf after = some result)
    (succeeds : (result.get "wakeup_cancelled").isTrue = true) :
    WakeupCancelled after job ↔ lease.deliveryState ≠ .activating := by
  have reached := reached_of_reachable reachable
  have received : (world.received request).row job = some lease := found
  have handled : after = World.stop world.tasks.length (SessionBridge.sessionControl
      (world.received request) "cancel_wakeup" job request) := by
    rw [step_request taken, names.dispatch_cancel]
  cases mode : lease.wakeMode with
  | goal =>
      rw [goalCancel_eq received mode names.threadId] at handled
      rw [handled] at answered
      cases answerOf_stop (raise_ends _) answered
  | session =>
      rw [sessionCancel_eq received mode names.threadId] at handled
      split_ifs at handled with open_
      · have rows : after.row job = (abandonForManualChange (world.received request)
            lease.threadId "Session wakeup explicitly cancelled").row job := by
          rw [handled, World.stop_row]
        constructor
        · -- An activation is not revoked, so the row is still terminal.
          rintro ⟨⟨row, isRow, abandoned⟩, -⟩ activating
          rcases abandonForManualChange_row lease.threadId
            "Session wakeup explicitly cancelled" received with ⟨revocable, -⟩ | ⟨-, kept⟩
          · exact revocable.2.2 activating
          · rcases Option.some.inj ((rows.trans kept).symm.trans isRow) with rfl
            have delivery := (reached.toInv.row_consistent found).abandoned abandoned
            simp [activating] at delivery
        · intro idle
          have now : Reached after := reached.next taken
          rcases abandonForManualChange_row lease.threadId "Session wakeup explicitly cancelled"
            received with ⟨-, abandoned⟩ | ⟨spared, kept⟩
          · exact now.wakeupCancelled (rows.trans abandoned) rfl
          · rcases open_ with live | abandoned
            · exact absurd ⟨rfl, live, idle⟩ spared
            · exact now.wakeupCancelled (rows.trans kept) abandoned
      · rw [handled] at answered
        rcases Outcome.done.inj (answerOf_stop (answer_ends _) answered) with rfl
        simp [Json.get, List.lookup, Json.isTrue] at succeeds

/-- The cancellation of a wakeup is answered as successful although its row stays terminal. -/
def cancelIgnored (world : World) (job : JobId) : Bool :=
  (world.row job).any (·.threadId = Scenario.thread) &&
    (step world (Scenario.cancelWakeup job)).any fun after =>
      (answerOf after).any (fun result => (result.get "wakeup_cancelled").isTrue) &&
        (after.row job).any (·.state = .terminal)

theorem exists_cancelIgnored : ∃ world lease after result, coordinator.Reachable world ∧
    world.row Scenario.firstJob = some lease ∧ lease.threadId = Scenario.thread ∧
    step world (Scenario.cancelWakeup Scenario.firstJob) = some after ∧
    answerOf after = some result ∧ (result.get "wakeup_cancelled").isTrue = true ∧
    ∃ row, after.row Scenario.firstJob = some row ∧ row.state = .terminal := by
  have ran : (coordinator.run World.initial
      (Scenario.startUp ++ Scenario.sessionRun Scenario.firstJob 0)).any
      (cancelIgnored · Scenario.firstJob) = true := by decide +kernel
  rcases System.exists_reachable_of_run ran with ⟨world, reachable, ignored⟩
  rcases Bool.and_eq_true_iff.mp ignored with ⟨isRow, ignored⟩
  rcases (Option.any_eq_true _ _).mp isRow with ⟨lease, found, isThread⟩
  rcases (Option.any_eq_true _ _).mp ignored with ⟨after, taken, ignored⟩
  rcases Bool.and_eq_true_iff.mp ignored with ⟨answers, stays⟩
  rcases (Option.any_eq_true _ _).mp answers with ⟨result, answered, succeeds⟩
  rcases (Option.any_eq_true _ _).mp stays with ⟨row, isAfter, terminal⟩
  exact ⟨world, lease, after, result, reachable, found, by simpa using isThread, taken, answered,
    succeeds, row, isAfter, by simpa using terminal⟩

/-- A cancellation during the continuation turn is confirmed, and the lease stays terminal. -/
theorem cancelWakeup_ignored : ∃ world lease after result, coordinator.Reachable world ∧
    world.row Scenario.firstJob = some lease ∧
    Names (Scenario.request "cancel_wakeup" Scenario.firstJob []) "cancel_wakeup"
      Scenario.firstJob lease.threadId ∧
    step world (Scenario.cancelWakeup Scenario.firstJob) = some after ∧
    answerOf after = some result ∧ (result.get "wakeup_cancelled").isTrue = true ∧
    ¬WakeupCancelled after Scenario.firstJob := by
  rcases exists_cancelIgnored with ⟨world, lease, after, result, reachable, found, isThread,
    taken, answered, succeeds, row, isRow, terminal⟩
  refine ⟨world, lease, after, result, reachable, found, ?_, taken, answered, succeeds, ?_⟩
  · rw [isThread]
    exact Scenario.names_request "cancel_wakeup" Scenario.jobIdOf_firstJob []
  · rintro ⟨⟨current, isCurrent, abandoned⟩, -⟩
    rcases Option.some.inj (isRow.symm.trans isCurrent) with rfl
    rw [terminal] at abandoned
    contradiction

theorem wakeupCancelled_iff_started : ∃ world lease after,
    world.row Scenario.firstJob = some lease ∧
    step world (Scenario.cancelWakeup Scenario.firstJob) = some after ∧
    (WakeupCancelled after Scenario.firstJob ↔ lease.deliveryState ≠ .activating) := by
  rcases exists_cancelIgnored with ⟨world, lease, after, result, reachable, found, isThread,
    taken, answered, succeeds, -⟩
  refine ⟨world, lease, after, found, taken,
    wakeupCancelled_iff reachable found ?_ taken answered succeeds⟩
  rw [isThread]
  exact Scenario.names_request "cancel_wakeup" Scenario.jobIdOf_firstJob []

end Longrun.Bridge
