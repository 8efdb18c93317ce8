import Longrun.Bridge.Move

/-!
# The life of a lease

What a legal update makes of a row. The lemmas say which columns are stable: the identity always,
the state in one direction, an activation and a completed handoff as long as the lease is live.
-/

namespace Longrun.Bridge

variable {origin : Option Origin} {world : World} {row : WakeLease} {fields : LeaseUpdate}

@[simp]
theorem LeaseUpdate.apply_jobId (fields : LeaseUpdate) (row : WakeLease) :
    (fields.apply row).jobId = row.jobId := rfl

@[simp]
theorem LeaseUpdate.apply_threadId (fields : LeaseUpdate) (row : WakeLease) :
    (fields.apply row).threadId = row.threadId := rfl

@[simp]
theorem LeaseUpdate.apply_wakeMode (fields : LeaseUpdate) (row : WakeLease) :
    (fields.apply row).wakeMode = row.wakeMode := rfl

@[simp]
theorem LeaseUpdate.apply_identity (fields : LeaseUpdate) (row : WakeLease) :
    (fields.apply row).identity = row.identity := rfl

@[simp]
theorem commitFields_handoffState (row : WakeLease) (revision : Int) :
    (GoalBridge.commitFields row revision).handoffState = none := by
  unfold GoalBridge.commitFields
  split <;> rfl

@[simp]
theorem commitFields_goalUpdatedAt (row : WakeLease) (revision : Int) :
    (GoalBridge.commitFields row revision).goalUpdatedAt = some revision := by
  unfold GoalBridge.commitFields
  split <;> rfl

/-- A confirmed pause belongs to the identity of a lease and a revision. -/
theorem PauseConfirmed.congr {trace : List Event} {before after : WakeLease}
    (confirmed : PauseConfirmed trace before) (identity : after.identity = before.identity)
    (revision : after.goalUpdatedAt = before.goalUpdatedAt) : PauseConfirmed trace after := by
  rcases confirmed with ⟨task, lease, updatedAt, same, answered, read⟩
  exact ⟨task, lease, updatedAt, same.trans identity.symm, revision ▸ answered, revision ▸ read⟩

namespace WakeLease

theorem isLive_of_armed (armed : row.state = .armed) : row.isLive = true :=
  isLive_iff.mpr (.inr (.inl armed))

theorem isLive_of_preparing (preparing : row.state = .preparing) : row.isLive = true :=
  isLive_iff.mpr (.inl preparing)

theorem isLive_of_terminal (terminal : row.state = .terminal) : row.isLive = true :=
  isLive_iff.mpr (.inr (.inr terminal))

namespace Consistent

theorem terminal_of_activating (consistent : row.Consistent) (live : row.isLive = true)
    (activating : row.deliveryState = .activating) : row.state = .terminal := by
  rcases isLive_iff.mp live with state | state | state
  · simp [(consistent.preparing state).1] at activating
  · simp [(consistent.armed state).1] at activating
  · exact state

/-- A live lease is not settled. -/
theorem not_isFinal (consistent : row.Consistent) (live : row.isLive = true) :
    row.deliveryState.isFinal = false := by
  cases final : row.deliveryState.isFinal
  · rfl
  · rw [consistent.isFinal_iff.mp final] at live
    contradiction

theorem not_activating_of_preparing (consistent : row.Consistent)
    (preparing : row.state = .preparing) : row.deliveryState ≠ .activating := by
  simp [(consistent.preparing preparing).1]

theorem not_activating_of_armed (consistent : row.Consistent)
    (armed : row.state = .armed) : row.deliveryState ≠ .activating := by
  simp [(consistent.armed armed).1]

end Consistent

end WakeLease

namespace Legal

theorem later (legal : Legal origin world row fields) : row.Later (fields.apply row) := by
  refine ⟨rfl, ?_⟩
  cases legal with
  | earlyTerminal => exact le_refl _
  | commit _ preparing =>
      simp only [preparing, LeaseState.rank]
      exact Nat.zero_le _
  | terminate _ _ _ armed | terminateSession _ _ armed =>
      simp [LeaseUpdate.apply, armed, LeaseState.rank]
  | abandon | fail | resumeGoal | resumeSession =>
      cases row.state <;> simp [LeaseUpdate.apply, GoalBridge.needsManualRecovery,
        SessionBridge.resumedFields, LeaseState.rank]
  | recordReceipt | ready => exact le_refl _
  | rearm _ armed => simp [LeaseUpdate.apply, armed]

theorem terminal_stays (legal : Legal origin world row fields) (terminal : row.state = .terminal)
    (live : (fields.apply row).isLive = true) : (fields.apply row).state = .terminal := by
  rcases WakeLease.isLive_iff.mp live with state | state | state
  · have later := legal.later.2
    simp [terminal, state, LeaseState.rank] at later
  · have later := legal.later.2
    simp [terminal, state, LeaseState.rank] at later
  · exact state

theorem handoffState_eq (legal : Legal origin world row fields)
    (transferred : ¬world.Untransferred row.jobId) :
    (fields.apply row).handoffState = row.handoffState := by
  cases legal with
  | recordReceipt _ _ _ untransferred => exact absurd untransferred transferred
  | ready _ _ _ _ untransferred => exact absurd untransferred transferred
  | commit => simp [LeaseUpdate.apply]
  | _ => rfl

theorem ready_stays (legal : Legal origin world row fields) (ready : row.handoffState = .ready) :
    (fields.apply row).handoffState = .ready := by
  cases legal with
  | recordReceipt _ _ interrupting => simp [ready] at interrupting
  | ready => rfl
  | commit => simp [LeaseUpdate.apply, ready]
  | _ => exact ready

theorem not_pending_stays (legal : Legal origin world row fields)
    (attempted : row.handoffState ≠ .pending) : (fields.apply row).handoffState ≠ .pending := by
  cases legal with
  | recordReceipt | ready => simp [LeaseUpdate.apply]
  | commit => simpa [LeaseUpdate.apply] using attempted
  | _ => exact attempted

/-- An update does not activate. -/
theorem activating_before (legal : Legal origin world row fields)
    (activating : (fields.apply row).deliveryState = .activating) :
    row.deliveryState = .activating := by
  cases legal with
  | commit =>
      cases terminalState : row.terminalState <;>
        simp [GoalBridge.commitFields, LeaseUpdate.apply, terminalState] at activating
  | earlyTerminal | recordReceipt | ready | rearm => exact activating
  | _ => simp [LeaseUpdate.apply, GoalBridge.needsManualRecovery,
      SessionBridge.resumedFields] at activating

/-- An activation lasts as long as the lease is live. -/
theorem activating_stays (legal : Legal origin world row fields) (consistent : row.Consistent)
    (activating : row.deliveryState = .activating) (live : (fields.apply row).isLive = true) :
    (fields.apply row).deliveryState = .activating := by
  cases legal with
  | earlyTerminal _ preparing | commit _ preparing =>
      exact absurd activating (consistent.not_activating_of_preparing preparing)
  | terminate _ _ _ armed | terminateSession _ _ armed | rearm _ armed =>
      exact absurd activating (consistent.not_activating_of_armed armed)
  | recordReceipt | ready => exact activating
  | abandon _ _ idle => exact absurd activating idle
  | fail | resumeGoal | resumeSession =>
      simp [LeaseUpdate.apply, GoalBridge.needsManualRecovery, SessionBridge.resumedFields,
        WakeLease.isLive, LeaseState.isLive] at live

/-- The activation of a Goal is settled by the task that delivers it, and by no other. -/
theorem activating_delivered (legal : Legal origin world row fields)
    (consistent : row.Consistent) (goal : row.wakeMode = .goal)
    (activating : row.deliveryState = .activating) (live : row.isLive = true)
    (delivered : ¬world.Undelivered row.jobId) : (fields.apply row).isLive = true := by
  cases legal with
  | earlyTerminal => exact live
  | commit _ preparing =>
      exact absurd activating (consistent.not_activating_of_preparing preparing)
  | terminate | terminateSession => rfl
  | rearm => rfl
  | recordReceipt | ready => exact live
  | abandon _ _ idle => exact absurd activating idle
  | fail _ _ settles => exact absurd (settles goal activating) delivered
  | resumeGoal _ _ _ undelivered => exact absurd undelivered delivered
  | resumeSession _ session => simp [session] at goal

theorem confirmed (legal : Legal origin world row fields)
    (before : row.state = .armed ∨ row.state = .terminal → PauseConfirmed world.trace row)
    (goal : row.wakeMode = .goal)
    (after : (fields.apply row).state = .armed ∨ (fields.apply row).state = .terminal) :
    PauseConfirmed world.trace (fields.apply row) := by
  cases legal with
  | earlyTerminal | recordReceipt | ready => exact before after
  | commit _ _ confirmed => exact confirmed.congr rfl (by simp [LeaseUpdate.apply])
  | terminate _ _ _ armed => exact before (.inl armed)
  | terminateSession _ session | rearm session => simp [session] at goal
  | _ => simp [LeaseUpdate.apply, GoalBridge.needsManualRecovery,
      SessionBridge.resumedFields] at after

theorem started (legal : Legal origin world row fields) (consistent : row.Consistent)
    (before : row.deliveryState = .activating ∨ row.deliveryState = .resumed ∨
      row.deliveryState = .needsManualRecovery) :
    (fields.apply row).deliveryState = .activating ∨
      (fields.apply row).deliveryState = .resumed ∨
      (fields.apply row).deliveryState = .needsManualRecovery := by
  cases legal with
  | earlyTerminal | recordReceipt | ready | rearm => exact before
  | commit _ preparing => simp [(consistent.preparing preparing).1] at before
  | terminate _ _ _ armed | terminateSession _ _ armed =>
      simp [(consistent.armed armed).1] at before
  | abandon _ live idle =>
      have open_ := consistent.not_isFinal live
      rcases before with before | before | before <;>
        simp [before, DeliveryState.isFinal] at idle open_
  | fail => exact .inr (.inr rfl)
  | resumeGoal | resumeSession => exact .inr (.inl rfl)

theorem handoffConfirmed (legal : Legal origin world row fields)
    (before : row.isLive = true → row.handoffState = .ready →
      HandoffConfirmed world.processTrace row)
    (live : (fields.apply row).isLive = true) (after : (fields.apply row).handoffState = .ready) :
    HandoffConfirmed world.processTrace (fields.apply row) := by
  have liveBefore := legal.later.live live
  cases legal with
  | ready _ _ _ confirmed => exact confirmed
  | recordReceipt => simp [LeaseUpdate.apply] at after
  | commit => exact before liveBefore (by simpa [LeaseUpdate.apply] using after)
  | _ => exact before liveBefore after

theorem terminalRecorded (legal : Legal origin world row fields)
    (before : row.state = .terminal → .terminalRecorded row.jobId ∈ world.processTrace)
    (consistent : row.Consistent)
    (session : row.wakeMode = .session) (after : (fields.apply row).state = .terminal) :
    .terminalRecorded row.jobId ∈ world.processTrace := by
  cases legal with
  | earlyTerminal | recordReceipt | ready => exact before after
  | commit _ preparing => simp [(consistent.preparing preparing).2] at session
  | terminate _ _ goal => simp [session] at goal
  | terminateSession _ _ _ recorded => exact recorded
  | rearm _ armed => simp [LeaseUpdate.apply] at after
  | _ => simp [LeaseUpdate.apply, GoalBridge.needsManualRecovery,
      SessionBridge.resumedFields] at after

/-- A settled lease keeps its outcome, unless the answer to its continuation turn arrives. -/
theorem live_or_resumes (legal : Legal origin world row fields) :
    row.isLive = true ∨
      (row.deliveryState = .needsManualRecovery ∧
        (fields.apply row).state = .failed ∧
        (fields.apply row).deliveryState = .needsManualRecovery) ∨ ∃ task lease peer current result turn,
      origin = some ⟨task, .wake lease peer (.turnStart current), .reply result⟩ ∧
        lease.jobId = row.jobId ∧ result.bind SessionBridge.startedTurn = .ok turn ∧
        fields = SessionBridge.resumedFields turn := by
  cases legal with
  | earlyTerminal _ preparing | commit _ preparing =>
      exact .inl (WakeLease.isLive_of_preparing preparing)
  | terminate _ _ _ armed | terminateSession _ _ armed | rearm _ armed =>
      exact .inl (WakeLease.isLive_of_armed armed)
  | abandon _ live => exact .inl live
  | fail _ live =>
      rcases live with live | settled
      · exact .inl live
      · exact .inr (.inl ⟨settled, rfl, rfl⟩)
  | resumeGoal _ live => exact .inl live
  | recordReceipt _ live | ready _ live => exact .inl live
  | resumeSession turn _ _ answered =>
      rcases answered with ⟨task, lease, peer, current, result, isOrigin, sameJob, started⟩
      exact .inr (.inr ⟨task, lease, peer, current, result, turn, isOrigin, sameJob, started,
        rfl⟩)

/-- A revoked lease is updated only where the answer to a continuation turn arrives late. -/
theorem of_abandoned (legal : Legal origin world row fields) (consistent : row.Consistent)
    (abandoned : row.state = .abandoned) :
    0 < world.trace.countP (·.sends row.jobId Rpc.isTurnStart) := by
  have settled : row.isLive = false := by
    simp [WakeLease.isLive, abandoned, LeaseState.isLive]
  cases legal with
  | resumeSession _ _ sent => exact sent
  | earlyTerminal _ preparing | commit _ preparing => simp [abandoned] at preparing
  | terminate _ _ _ armed | terminateSession _ _ armed | rearm _ armed =>
      simp [abandoned] at armed
  | abandon _ live | resumeGoal _ live | recordReceipt _ live | ready _ live =>
      simp [settled] at live
  | fail _ undecided =>
      simp [settled, consistent.abandoned abandoned] at undecided

/-- A recorded terminal state is not overwritten. -/
theorem terminalState_stays (legal : Legal origin world row fields) (consistent : row.Consistent)
    {text : String} (recorded : row.terminalState = some text) :
    (fields.apply row).terminalState = some text := by
  cases legal with
  | earlyTerminal _ _ unrecorded => simp [recorded] at unrecorded
  | terminate _ _ _ armed | terminateSession _ _ armed =>
      simp [(consistent.armed armed).2] at recorded
  | commit => simp [LeaseUpdate.apply, GoalBridge.commitFields, recorded]
  | _ => simp [LeaseUpdate.apply, GoalBridge.needsManualRecovery, SessionBridge.resumedFields,
      recorded]

theorem consistent (legal : Legal origin world row fields) (before : row.Consistent) :
    (fields.apply row).Consistent := by
  cases legal with
  | earlyTerminal _ preparing =>
      constructor <;> simp [LeaseUpdate.apply, preparing, WakeLease.isLive, LeaseState.isLive,
        before.preparing preparing, before.goal (before.preparing preparing).2]
  | commit _ preparing =>
      have goal := (before.preparing preparing).2
      cases terminalState : row.terminalState <;>
        constructor <;>
        simp [GoalBridge.commitFields, LeaseUpdate.apply, terminalState, goal, before.goal goal]
  | terminate _ _ goal armed =>
      constructor <;> simp [LeaseUpdate.apply, goal, before.goal goal]
  | terminateSession _ session armed =>
      constructor <;> simp [LeaseUpdate.apply, session, before.session session]
  | abandon _ _ _ =>
      constructor <;> simp +contextual [LeaseUpdate.apply, before.goal, before.session]
  | fail =>
      constructor <;> simp +contextual [GoalBridge.needsManualRecovery, LeaseUpdate.apply,
        before.goal, before.session]
  | resumeGoal goal =>
      constructor <;> simp [LeaseUpdate.apply, goal, before.goal goal]
  | resumeSession _ session =>
      constructor <;> simp [SessionBridge.resumedFields, LeaseUpdate.apply, session,
        before.session session]
  | recordReceipt session live interrupting =>
      refine ⟨before.preparing, before.armed, before.terminal, before.terminated,
        before.delivered, before.failed, before.abandoned, ?_, ?_, ?_⟩
      · simp [session]
      · simp [LeaseUpdate.apply, before.session session]
      · intro _ _ activating
        simp [before.activatingReady session live activating] at interrupting
  | ready session =>
      refine ⟨before.preparing, before.armed, before.terminal, before.terminated,
        before.delivered, before.failed, before.abandoned, ?_, ?_, ?_⟩ <;>
        simp [LeaseUpdate.apply, session, before.session session]
  | rearm session armed =>
      constructor <;> simp [LeaseUpdate.apply, session, before.armed armed,
        before.session session, WakeLease.isLive, LeaseState.isLive]

end Legal

end Longrun.Bridge
