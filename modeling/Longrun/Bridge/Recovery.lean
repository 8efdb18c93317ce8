import Longrun.Bridge.StepMoves

/-!
# Stopping and starting the process

A process that dies leaves its database behind; the next one goes through the live leases before
it serves. Neither is a sequence of moves. With them the invariant holds in every state that the
coordinator reaches.
-/

namespace Longrun.Bridge

variable {origin : Option Origin} {world after : World} {task : TaskId} {job : JobId}

/-- A process that does not serve yet has no coroutines. -/
structure Offline (world : World) : Prop where
  suspended : ∀ task pc, ¬world.At task pc
  doneEvents : world.doneEvents = []

/-! ### The end of the process -/

theorem World.crash_idle (world : World) (task : TaskId) (pc : Pc) : ¬world.crash.At task pc := by
  intro suspended
  rw [World.At, World.crash, List.getElem?_map, Option.map_eq_some_iff] at suspended
  rcases suspended with ⟨_, -, isFinished⟩
  contradiction

theorem Inv.crash (inv : Inv world) : Inv world.crash where
  jobs := fun job =>
    { inv.jobs job with
      ready := fun serving => by cases serving
      recorded := fun serving => by cases serving }
  tables :=
    { deliveryTable := fun _ _ found => by cases found
      deadlineTable := fun _ _ found => by cases found
      cancelling := fun _ _ mem => by cases mem
      received := fun task request mem =>
        (inv.tables.received task request mem).trans_eq (List.length_map _).symm
      registered := fun task job mem =>
        (inv.tables.registered task job mem).trans_eq (List.length_map _).symm
      inFlight := fun calm => by cases calm.1
      done := fun _ _ mem => by cases mem }
  suspended := fun task pc suspended => absurd suspended (world.crash_idle task pc)

theorem Inv.connect (inv : Inv world) (offline : Offline world) :
    Inv { world with phase := .connecting } where
  jobs := fun job =>
    { inv.jobs job with
      ready := fun serving => by cases serving
      recorded := fun serving => by cases serving }
  tables := { inv.tables with inFlight := fun calm => by cases calm.1 }
  suspended := fun task pc suspended => absurd suspended (offline.suspended task pc)

/-! ### The recovery of the live leases -/

/-- Recovery gives up a live lease, or schedules what it waits for. -/
theorem recoverLease_cases {lease : WakeLease} (inv : Inv world)
    (found : world.row lease.jobId = some lease) (live : lease.isLive = true) :
    (∃ reason, SessionBridge.recoverLease world lease =
        world.update lease.jobId (GoalBridge.needsManualRecovery reason)) ∨
      lease.wakeMode = .goal ∧
        (SessionBridge.recoverLease world lease = world.scheduleDelivery lease ∨
          SessionBridge.recoverLease world lease = world.scheduleDeadline lease) := by
  have undecided := (inv.row_consistent found).not_isFinal live
  unfold SessionBridge.recoverLease
  split
  · exact .inl ⟨_, rfl⟩
  · rename_i notSession
    have goal : lease.wakeMode = .goal := by
      cases mode : lease.wakeMode with
      | goal => rfl
      | session => exact absurd mode notSession
    unfold GoalBridge.recoverLease
    split
    case h_1 abandoned => simp [abandoned, DeliveryState.isFinal] at undecided
    case h_2 resumed => simp [resumed, DeliveryState.isFinal] at undecided
    case h_3 failed => simp [failed, DeliveryState.isFinal] at undecided
    case h_4 => exact .inl ⟨_, rfl⟩
    case h_5 =>
      split_ifs
      · exact .inr ⟨goal, .inl rfl⟩
      · exact .inr ⟨goal, .inr rfl⟩
      · exact .inl ⟨_, rfl⟩

/-- What the recovery of a lease changes. -/
structure Recovers (world after : World) (lease : WakeLease) : Prop where
  others : ∀ job, job ≠ lease.jobId → after.row job = world.row job
  settled : ∀ row, after.row lease.jobId = some row → row.wakeMode = .session → row.isLive = false
  started : ∀ task pc, after.At task pc → world.At task pc ∨
    lease.wakeMode = .goal ∧ (pc = .deliver lease .start ∨ pc = .deadline lease .start)
  doneEvents : after.doneEvents = world.doneEvents

theorem recoverLease_recovers {lease : WakeLease} (inv : Inv world)
    (found : world.row lease.jobId = some lease) (live : lease.isLive = true) :
    Recovers world (SessionBridge.recoverLease world lease) lease := by
  have goalRow (goal : lease.wakeMode = .goal) {row : WakeLease}
      (isRow : world.row lease.jobId = some row) (session : row.wakeMode = .session) :
      row.isLive = false := by
    rcases Option.some.inj (found.symm.trans isRow) with rfl
    rw [goal] at session
    contradiction
  rcases recoverLease_cases inv found live with ⟨reason, failed⟩ | ⟨goal, scheduled⟩
  · have later : lease.Later ((GoalBridge.needsManualRecovery reason).apply lease) :=
      ⟨rfl, lease.state.rank_le⟩
    rw [failed]
    refine ⟨fun job other => ?_, fun row isRow _ => ?_, fun _ _ suspended => .inl suspended, rfl⟩
    · rw [World.row_update found later, if_neg other]
    · rw [World.row_update_self found later, Option.some.injEq] at isRow
      rw [← isRow]
      rfl
  · rcases scheduled with scheduled | scheduled <;> rw [scheduled]
    · refine ⟨?_, ?_, fun task pc suspended => ?_, ?_⟩
      · rcases world.scheduleDelivery_cases lease with same | ⟨spawned, -⟩
        · exact fun _ _ => by rw [same]
        · exact fun _ _ => by rw [spawned]; rfl
      · rcases world.scheduleDelivery_cases lease with same | ⟨spawned, -⟩
        · exact fun row isRow => goalRow goal (same ▸ isRow)
        · exact fun row isRow => goalRow goal (by rw [spawned] at isRow; exact isRow)
      · exact (World.at_scheduleDelivery suspended).imp_right fun isStart => ⟨goal, .inl isStart⟩
      · rcases world.scheduleDelivery_cases lease with same | ⟨spawned, -⟩
        · rw [same]
        · rw [spawned]
          rfl
    · refine ⟨?_, ?_, fun task pc suspended => ?_, ?_⟩
      · rcases world.scheduleDeadline_cases lease with same | spawned
        · exact fun _ _ => by rw [same]
        · exact fun _ _ => by rw [spawned]; rfl
      · rcases world.scheduleDeadline_cases lease with same | spawned
        · exact fun row isRow => goalRow goal (same ▸ isRow)
        · exact fun row isRow => goalRow goal (by rw [spawned] at isRow; exact isRow)
      · exact (World.at_scheduleDeadline suspended).imp_right fun isStart => ⟨goal, .inr isStart⟩
      · rcases world.scheduleDeadline_cases lease with same | spawned
        · rw [same]
        · rw [spawned]
          rfl

/-- The live leases that recovery has still to go through. -/
structure Recovering (world : World) (rest : List WakeLease) : Prop where
  inv : Inv world
  distinct : (rest.map WakeLease.jobId).Nodup
  live : ∀ lease ∈ rest, world.row lease.jobId = some lease ∧ lease.isLive = true
  sessions : ∀ job row, world.row job = some row → row.wakeMode = .session → row.isLive = true →
    job ∈ rest.map WakeLease.jobId
  started : ∀ task pc, world.At task pc → ∃ lease,
    (pc = .deliver lease .start ∨ pc = .deadline lease .start) ∧
      lease.jobId ∉ rest.map WakeLease.jobId ∧ lease.wakeMode = .goal
  doneEvents : world.doneEvents = []

namespace Recovering

variable {lease : WakeLease} {rest : List WakeLease}

theorem moves (recovering : Recovering world (lease :: rest)) :
    Moves origin world (SessionBridge.recoverLease world lease) := by
  rcases recovering.live lease List.mem_cons_self with ⟨found, live⟩
  refine SessionBridge.recoverLease_moves recovering.inv found live fun _ task pc suspended => ?_
  rcases recovering.started task pc suspended with ⟨other, isStart, notHere, -⟩
  rw [List.map_cons, List.mem_cons, not_or] at notHere
  rcases isStart with rfl | rfl
  · exact fun delivers => notHere.1 (Option.some.inj delivers)
  · exact fun delivers => by cases delivers

theorem next (recovering : Recovering world (lease :: rest)) :
    Recovering (SessionBridge.recoverLease world lease) rest := by
  rcases recovering.live lease List.mem_cons_self with ⟨found, live⟩
  rcases recoverLease_recovers recovering.inv found live with ⟨others, settled, started, doneEvents⟩
  rcases List.nodup_cons.mp (List.map_cons ▸ recovering.distinct) with ⟨notHere, distinct⟩
  refine ⟨recovering.inv.moves (recovering.moves : Moves none _ _), distinct, ?_, ?_, ?_,
    doneEvents.trans recovering.doneEvents⟩
  · intro other mem
    rcases recovering.live other (List.mem_cons_of_mem _ mem) with ⟨otherFound, otherLive⟩
    rw [others]
    · exact ⟨otherFound, otherLive⟩
    · exact fun same => notHere (same ▸ List.mem_map_of_mem mem)
  · intro job row isRow session rowLive
    by_cases same : job = lease.jobId
    · subst same
      rw [settled row isRow session] at rowLive
      contradiction
    · rw [others job same] at isRow
      exact (List.mem_cons.mp (recovering.sessions job row isRow session rowLive)).resolve_left same
  · intro task pc suspended
    rcases started task pc suspended with before | ⟨goal, isStart⟩
    · rcases recovering.started task pc before with ⟨other, isStart, absent, goal⟩
      rw [List.map_cons, List.mem_cons, not_or] at absent
      exact ⟨other, isStart, absent.2, goal⟩
    · exact ⟨lease, isStart, notHere, goal⟩

/-- Recovery goes through all of them. -/
theorem all (recovering : Recovering world rest) (origin : Option Origin) :
    Moves origin world (rest.foldl SessionBridge.recoverLease world) ∧
      Recovering (rest.foldl SessionBridge.recoverLease world) [] := by
  induction rest generalizing world with
  | nil => exact ⟨.refl, recovering⟩
  | cons lease rest ih =>
      rcases ih recovering.next with ⟨moves, recovered⟩
      exact ⟨recovering.moves.trans moves, recovered⟩

end Recovering

theorem Inv.recovering (inv : Inv world) (offline : Offline world) :
    Recovering world world.store.pending where
  inv := inv
  distinct := world.store.jobIdPrimaryKey.sublist (List.filter_sublist.map _)
  live := fun _ mem => BridgeState.mem_pending_iff.mp mem
  sessions := by
    intro job row isRow _ live
    have sameJob := BridgeState.jobId_of_get isRow
    subst sameJob
    exact List.mem_map_of_mem (BridgeState.mem_pending_iff.mpr ⟨isRow, live⟩)
  started := fun task pc suspended => absurd suspended (offline.suspended task pc)
  doneEvents := offline.doneEvents

/-- Once all live leases are recovered, the process may serve. -/
theorem Recovering.start (recovering : Recovering world []) (connecting : world.phase ≠ .serving) :
    Inv (({ world with phase := .serving } : World).log .started) where
  jobs := by
    intro job
    have noSession (row : WakeLease) (isRow : world.row job = some row)
        (session : row.wakeMode = .session) (live : row.isLive = true) {claim : Prop} : claim :=
      absurd (recovering.sessions job row isRow session live) List.not_mem_nil
    have inv := (recovering.inv.jobs job).log .started
      (fun serving => absurd serving connecting) ⟨rfl, rfl, rfl⟩
    exact
      { inv with
        ready := fun _ row isRow session live _ => noSession row isRow session live
        recorded := fun _ row isRow session terminal =>
          noSession row isRow session (WakeLease.isLive_of_terminal terminal) }
  tables :=
    { recovering.inv.tables with
      cancelling := fun undisturbed => recovering.inv.tables.cancelling undisturbed.of_log
      received := by
        intro task request mem
        rcases List.mem_cons.mp mem with isEvent | mem
        · contradiction
        · exact recovering.inv.tables.received task request mem
      registered := by
        intro task job mem
        rcases List.mem_cons.mp mem with isEvent | mem
        · contradiction
        · exact recovering.inv.tables.registered task job mem
      inFlight := fun _ job row isRow session live _ =>
        absurd (recovering.sessions job row isRow session live) List.not_mem_nil
      done := by
        intro key event mem
        rw [World.log, recovering.doneEvents] at mem
        contradiction }
  suspended := by
    intro task pc suspended
    rcases recovering.started task pc suspended with ⟨lease, isStart, -, goal⟩
    have relies := recovering.inv.suspended task pc suspended
    have bound := relies.toBound.log .started fun _ isEvent => by cases isEvent
    refine { bound with stage := ?_ }
    rcases isStart with rfl | rfl
    · refine ⟨relies.stage.1, .inl rfl, fun _ session => ?_, trivial⟩
      rw [goal] at session
      contradiction
    · trivial

/-! ### Reachable states -/

/-- The moves stay within the process. -/
theorem Move.phase_eq (move : Move origin world after) : after.phase = world.phase := by
  cases move <;> rfl

theorem Moves.phase_eq (moves : Moves origin world after) : after.phase = world.phase := by
  induction moves with
  | refl => rfl
  | tail _ move ih => exact move.phase_eq.trans ih

/-- Neither coroutines nor events of handoffs appear or change. -/
def Still (before after : World) : Prop :=
  after.tasks = before.tasks ∧ after.doneEvents = before.doneEvents

theorem abandonForManualChange_still (world : World) (thread : ThreadId) (reason : String) :
    Still world (abandonForManualChange world thread reason) :=
  have revises := abandonForManualChange_revises thread reason world
  ⟨revises.tasks, revises.doneEvents⟩

theorem onNotification_still (world : World) (method : String) (params : Json) :
    Still world (SessionBridge.onNotification world method params) := by
  have updates (thread : ThreadId) (goal : Json) :
      Still world (GoalBridge.goalUpdated world thread goal) := by
    unfold GoalBridge.goalUpdated
    split
    · exact ⟨rfl, rfl⟩
    · split_ifs
      · exact ⟨rfl, rfl⟩
      · exact ⟨rfl, rfl⟩
      · exact abandonForManualChange_still world thread _
  have goal : Still world (GoalBridge.onNotification world method params) := by
    unfold GoalBridge.onNotification
    split
    · split_ifs
      · exact ⟨rfl, rfl⟩
      · exact abandonForManualChange_still world _ _
      · split
        · split
          · exact abandonForManualChange_still world _ _
          · exact ⟨rfl, rfl⟩
        · split
          · dsimp only
            split
            · exact ⟨rfl, rfl⟩
            · exact updates _ _
          · exact updates _ _
      · exact ⟨rfl, rfl⟩
    · exact ⟨rfl, rfl⟩
  unfold SessionBridge.onNotification
  extract_lets lease
  clear_value lease
  split
  · split
    · split
      · exact abandonForManualChange_still world _ _
      · exact ⟨rfl, rfl⟩
    · exact goal
  · exact goal

theorem Offline.of_still (offline : Offline world) (still : Still world after) : Offline after where
  suspended := fun task pc suspended => offline.suspended task pc (by
    rw [World.At, still.1] at suspended
    exact suspended)
  doneEvents := still.2.trans offline.doneEvents

theorem Offline.step (offline : Offline world) (away : world.phase ≠ .serving) {action : Action}
    (taken : step world action = some after) (stays : after.phase ≠ .serving) : Offline after := by
  cases action with
  | tick =>
      rcases Option.some.inj taken with rfl
      exact offline.of_still ⟨rfl, rfl⟩
  | notification method params =>
      obtain ⟨-, rfl⟩ := by simpa [Bridge.step] using taken
      exact offline.of_still (onNotification_still world method params)
  | crash =>
      rcases Option.some.inj taken with rfl
      exact ⟨world.crash_idle, rfl⟩
  | connect =>
      obtain ⟨-, rfl⟩ := by simpa [Bridge.step] using taken
      exact offline.of_still ⟨rfl, rfl⟩
  | start =>
      obtain ⟨-, rfl⟩ := by simpa [Bridge.step] using taken
      exact absurd rfl stays
  | _ => simp [Bridge.step, away] at taken

/-- The invariant, with what holds before the process serves. -/
structure Reached (world : World) : Prop extends Inv world where
  offline : world.phase ≠ .serving → Offline world

theorem Reached.next (reached : Reached world) {action : Action}
    (taken : step world action = some after) : Reached after := by
  refine ⟨?_, fun stays => ?_⟩
  · cases progress reached.toInv taken with
    | moves moves => exact (reached.toInv.entered action).moves moves
    | crash => exact reached.toInv.crash
    | connect down => exact reached.toInv.connect (reached.offline (by rw [down]; decide))
    | start connecting =>
        have away : world.phase ≠ .serving := by rw [connecting]; decide
        rcases (reached.toInv.recovering (reached.offline away)).all none with ⟨moves, recovered⟩
        exact recovered.start (moves.phase_eq ▸ away)
  · by_cases serving : world.phase = .serving
    · cases progress reached.toInv taken with
      | moves moves =>
          exact absurd (moves.phase_eq.trans ((world.entered_phase action).trans serving)) stays
      | crash => exact ⟨world.crash_idle, rfl⟩
      | connect down => rw [down] at serving; contradiction
      | start => exact absurd rfl stays
    · exact (reached.offline serving).step serving taken stays

theorem reached_initial : Reached World.initial where
  toInv := inv_initial
  offline := fun _ => ⟨fun _ _ => (fun impossible => by cases impossible), rfl⟩

/-- The invariant holds in every state that the coordinator reaches. -/
theorem reached_of_reachable {allowed : World → Action → Prop}
    (reachable : coordinator.ReachableBy allowed world) : Reached world :=
  reachable.invariant reached_initial fun _ _ _ reached _ taken => reached.next taken

end Longrun.Bridge
