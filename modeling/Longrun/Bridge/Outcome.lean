import Longrun.Bridge.Scenario

/-!
# Outcomes of leases

A lease that is settled stays settled, except where the answer to a continuation turn arrives after
the lease was given up. The terminal event of a lease is recorded once and is never overwritten.
-/

namespace Longrun.Bridge

variable {origin : Option Origin} {world after first last : World} {task : TaskId} {job : JobId}
  {row : WakeLease}

/-! ### Settled leases -/

/-- The App Server confirms a continuation turn whose lease is settled already. -/
def LateConfirmation (world : World) : Action → Prop
  | .resume task (.reply result) => ∃ lease peer current turn row,
      world.At task (.wake lease peer (.turnStart current)) ∧
        result.bind SessionBridge.startedTurn = .ok turn ∧
        world.row lease.jobId = some row ∧ row.deliveryState.isFinal = true
  | _ => False

/-- A row with the outcome of another one. -/
def SameOutcome (store : BridgeState) (job : JobId) (row : WakeLease) : Prop :=
  ∃ current, store.get job = some current ∧ current.state = row.state ∧
    current.deliveryState = row.deliveryState

/-- A given up lease is marked as failed. -/
theorem WakeLease.Consistent.failed_of_needsManualRecovery (consistent : row.Consistent)
    (failed : row.deliveryState = .needsManualRecovery) : row.state = .failed := by
  have settled : row.isLive = false := consistent.isFinal_iff.mp (by rw [failed]; rfl)
  cases state : row.state with
  | failed => rfl
  | delivered => simp [consistent.delivered state] at failed
  | abandoned => simp [consistent.abandoned state] at failed
  | _ => simp [WakeLease.isLive, state, LeaseState.isLive] at settled

/-- A step that is no late confirmation keeps the outcome of a settled lease. -/
theorem SameOutcome.step (reached : Reached world) {action : Action}
    (final : row.deliveryState.isFinal = true) (same : SameOutcome world.store job row)
    (timely : ¬LateConfirmation world action) (taken : step world action = some after) :
    SameOutcome after.store job row := by
  refine reached.keeps (fun store _ => SameOutcome store job row) taken same
    (fun _ _ holds => holds) ?_
  rintro before next inv ⟨current, found, state, delivery⟩ move
  have consistent := inv.row_consistent found
  have settled : current.isLive = false := consistent.isFinal_iff.mp (by rw [delivery, final])
  cases move.rowChange job with
  | same unchanged => exact ⟨current, unchanged.trans found, state, delivery⟩
  | updated isRow legal isAfter =>
      rcases Option.some.inj (found.symm.trans isRow) with rfl
      rcases legal.live_or_resumes with live | ⟨failed, isState, isDelivery⟩ |
        ⟨other, lease, peer, given, result, turn, isOrigin, sameJob, started, -⟩
      · rw [settled] at live
        contradiction
      · refine ⟨_, isAfter, ?_, ?_⟩
        · rw [isState, ← state, consistent.failed_of_needsManualRecovery failed]
        · rw [isDelivery, ← delivery, failed]
      · exfalso
        rcases resumes_eq isOrigin with ⟨rfl, suspended⟩
        rcases same with ⟨start, isStart, -, startDelivery⟩
        refine timely ⟨lease, peer, given, turn, start, suspended, started, ?_, ?_⟩
        · rw [sameJob, BridgeState.jobId_of_get found]
          exact isStart
        · rw [startDelivery, final]
  | committed _ isRow live =>
      rcases Option.some.inj (found.symm.trans isRow) with rfl
      rw [settled] at live
      contradiction
  | registered _ _ fresh => cases found.symm.trans fresh

/-- In a run without late confirmations the outcome of a settled lease does not change. -/
theorem outcome_stays (reachable : coordinator.Reachable first)
    (steps : coordinator.Steps (fun world action => ¬LateConfirmation world action) first last)
    (found : first.row job = some row) (final : row.deliveryState.isFinal = true) :
    SameOutcome last.store job row := by
  let both (world : World) : Prop := Reached world ∧ SameOutcome world.store job row
  have holds : both last :=
    steps.preserves ⟨reached_of_reachable reachable, row, found, rfl, rfl⟩
      fun world action next holds timely taken =>
        ⟨holds.1.next taken, holds.2.step holds.1 final timely taken⟩
  exact holds.2

/-- A session job whose deadline expires during its continuation turn. -/
def expiredRun : List Action :=
  Scenario.startUp ++ Scenario.sessionRun Scenario.firstJob 0 ++ [.resume 1 .ready, .resume 1 .ready]

/-- The outcome of a settled lease changes in a step. -/
def changesOutcome (world : World) (job : JobId) (action : Action) : Bool :=
  (world.row job).any fun row => row.deliveryState.isFinal &&
    (step world action).any fun after =>
      (after.row job).any fun later => row.deliveryState ≠ later.deliveryState

/-- The confirmation of a continuation turn overwrites the failure of its lease. -/
theorem outcome_overwritten : ∃ world row after later, coordinator.Reachable world ∧
    world.row Scenario.firstJob = some row ∧ row.deliveryState.isFinal = true ∧
    step world (Scenario.reply 4 Scenario.startedTurn) = some after ∧
    after.row Scenario.firstJob = some later ∧ later.deliveryState ≠ row.deliveryState := by
  have ran : (coordinator.run World.initial expiredRun).any
      (changesOutcome · Scenario.firstJob (Scenario.reply 4 Scenario.startedTurn)) = true := by
    decide +kernel
  rcases System.exists_reachable_of_run ran with ⟨world, reachable, changes⟩
  rcases (Option.any_eq_true _ _).mp changes with ⟨row, found, changes⟩
  rcases Bool.and_eq_true_iff.mp changes with ⟨final, changes⟩
  rcases (Option.any_eq_true _ _).mp changes with ⟨after, taken, changes⟩
  rcases (Option.any_eq_true _ _).mp changes with ⟨later, isLater, differs⟩
  exact ⟨world, row, after, later, reachable, found, final, taken, isLater,
    Ne.symm (by simpa using differs)⟩

/-- Another request does not. -/
theorem outcome_stays_cancelled : ∃ world row after, world.row Scenario.firstJob = some row ∧
    row.deliveryState.isFinal = true ∧
    step world (Scenario.cancelWakeup Scenario.firstJob) = some after ∧
    SameOutcome after.store Scenario.firstJob row := by
  have ran : (coordinator.run World.initial expiredRun).any (fun world =>
      (world.row Scenario.firstJob).any (·.deliveryState.isFinal) &&
        (step world (Scenario.cancelWakeup Scenario.firstJob)).isSome) = true := by decide +kernel
  rcases System.exists_reachable_of_run ran with ⟨world, reachable, settled⟩
  rcases Bool.and_eq_true_iff.mp settled with ⟨settled, taken⟩
  rcases (Option.any_eq_true _ _).mp settled with ⟨row, found, final⟩
  rcases Option.isSome_iff_exists.mp taken with ⟨after, taken⟩
  have request : ¬LateConfirmation world (Scenario.cancelWakeup Scenario.firstJob) :=
    fun late => late.elim
  have timely : coordinator.Steps (fun world action => ¬LateConfirmation world action) world
      after := System.Steps.single request taken
  exact ⟨world, row, after, found, final, taken, outcome_stays reachable timely found final⟩

/-! ### Terminal events -/

/-- The terminal state that is recorded for a job. -/
def Terminated (store : BridgeState) (job : JobId) (text : String) : Prop :=
  ∃ row, store.get job = some row ∧ row.terminalState = some text

theorem Terminated.move {text : String} (inv : Inv world)
    (terminated : Terminated world.store job text) (move : Move origin world after) :
    Terminated after.store job text := by
  rcases terminated with ⟨row, found, recorded⟩
  cases move.rowChange job with
  | same unchanged => exact ⟨row, unchanged.trans found, recorded⟩
  | updated isRow legal isAfter =>
      rcases Option.some.inj (found.symm.trans isRow) with rfl
      exact ⟨_, isAfter, legal.terminalState_stays (inv.row_consistent found) recorded⟩
  | committed _ isRow _ _ unrecorded _ isAfter =>
      rcases Option.some.inj (found.symm.trans isRow) with rfl
      exact ⟨_, isAfter, by simp [LeaseUpdate.apply, unrecorded, recorded]⟩
  | registered _ _ fresh => cases found.symm.trans fresh

theorem Reached.terminated {allowed : World → Action → Prop} {text : String}
    (reached : Reached first) (steps : coordinator.Steps allowed first last)
    (terminated : Terminated first.store job text) : Terminated last.store job text :=
  reached.keeps_run (fun store _ => Terminated store job text) steps terminated
    (fun _ _ holds => holds) fun _ _ _ _ _ _ inv holds move => holds.move inv move

/-- The answers to a terminal request that was accepted before its delivery. -/
def awaitsWakeup (result : Json) : Bool :=
  ["waiting_for_registration", "waiting_for_idle", "waiting_for_handoff"].any
    (result.get "delivery_state").isStr

/-- A handler that has recorded the terminal state of a request, where it answers that the wakeup is
awaited. -/
def Records (request : Json) (lease : WakeLease) (stopped : World × Outcome) : Prop :=
  stopped.2.Ends ∧ ∀ result, stopped.2 = .done result → awaitsWakeup result = true →
    ∃ text, terminalStateOf request = .ok text ∧
      Terminated stopped.1.store lease.jobId (lease.terminalState.getD text)

variable {request : Json} {lease : WakeLease}

theorem records_raise (world : World) (error : PyError) :
    Records request lease (world, raise error) :=
  ⟨raise_ends error, fun _ isDone => by cases isDone⟩

/-- An answer with a settled delivery state does not say that the wakeup is awaited. -/
theorem awaitsWakeup_final {fields : List (String × Json)} (final : lease.deliveryState.isFinal = true) :
    awaitsWakeup (.obj (("ok", .bool true) ::
      ("delivery_state", .str lease.deliveryState.text) :: fields)) = false := by
  cases delivery : lease.deliveryState <;>
    simp_all [DeliveryState.isFinal, DeliveryState.text, awaitsWakeup, Json.get, Json.isStr,
      Json.str?, List.lookup]

/-- A handler that leaves a recorded terminal state as it is. -/
theorem records_kept {text given : String} {fields : List (String × Json)}
    (found : world.row lease.jobId = some lease) (isGiven : terminalStateOf request = .ok given)
    (recorded : lease.terminalState = some text) :
    Records request lease (world, answer fields) := by
  refine ⟨answer_ends _, fun _ _ _ => ⟨given, isGiven, lease, found, ?_⟩⟩
  rw [recorded, Option.getD_some]

/-- A handler that records the terminal state of its request. -/
theorem records_update {text : String} {fields : List (String × Json)} (assigned : LeaseUpdate)
    (found : world.row lease.jobId = some lease) (isText : terminalStateOf request = .ok text)
    (later : lease.Later (assigned.apply lease)) (unrecorded : lease.terminalState = none)
    (assigns : assigned.terminalState = some text)
    (rows : ∀ job, after.row job = (world.update lease.jobId assigned).row job) :
    Records request lease (after, answer fields) := by
  refine ⟨answer_ends _, fun _ _ _ => ⟨text, isText, _,
    (rows _).trans (World.row_update_self found later), ?_⟩⟩
  simp [LeaseUpdate.apply, assigns, unrecorded]

theorem records_goalTerminal (found : world.row lease.jobId = some lease)
    (consistent : lease.Consistent) :
    Records request lease (GoalBridge.terminal world lease.jobId request) := by
  unfold GoalBridge.terminal
  split
  · exact records_raise _ _
  · exact records_raise _ _
  · rename_i threadId text _ isText
    simp only [found]
    split_ifs with other final terminal preparing unrecorded unarmed
    · exact records_raise _ _
    · refine ⟨answer_ends _, fun result isDone awaits => ?_⟩
      rcases Outcome.done.inj isDone with rfl
      rw [awaitsWakeup_final final] at awaits
      contradiction
    · rcases Option.isSome_iff_exists.mp (consistent.terminated terminal) with ⟨_, recorded⟩
      exact records_kept found isText recorded
    · exact records_update { terminalState := some text } found isText ⟨rfl, le_refl _⟩
        (by simpa using unrecorded) rfl fun _ => rfl
    · rcases Option.ne_none_iff_exists'.mp (by simpa using unrecorded) with ⟨_, recorded⟩
      exact records_kept found isText recorded
    · exact records_raise _ _
    · rw [not_or, not_not, not_not] at unarmed
      refine records_update
        { state := some .terminal, terminalState := some text,
          deliveryState := some .waitingForIdle }
        found isText ⟨rfl, ?_⟩ (consistent.armed unarmed.1).2 rfl ?_
      · simp [LeaseUpdate.apply, unarmed.1, LeaseState.rank]
      · intro job
        rw [World.scheduleDelivery_row, World.cancelDeadline_row]

theorem records_terminal (found : world.row lease.jobId = some lease)
    (consistent : lease.Consistent) :
    Records request lease (SessionBridge.terminal world lease.jobId request) := by
  have scheduled {current : WakeLease} {fields : List (String × Json)} {before : World}
      (records : Records request lease (before, answer fields)) :
      Records request lease (if current.handoffState = .ready then before.scheduleDelivery current
        else before, answer fields) := by
    refine ⟨answer_ends _, fun result isDone awaits => ?_⟩
    rcases records.2 result isDone awaits with ⟨text, isText, row, found, recorded⟩
    refine ⟨text, isText, row, ?_, recorded⟩
    dsimp only
    split
    · exact (World.scheduleDelivery_row _ _ _).trans found
    · exact found
  unfold SessionBridge.terminal
  simp only [found]
  split
  · exact records_goalTerminal found consistent
  · rename_i session
    rw [ne_eq, not_not] at session
    split
    · exact records_raise _ _
    · split
      · exact records_raise _ _
      · split
        · rename_i settled
          refine ⟨answer_ends _, fun result isDone awaits => ?_⟩
          rcases Outcome.done.inj isDone with rfl
          rw [awaitsWakeup_final ?_] at awaits
          · contradiction
          · rw [consistent.isFinal_iff]
            rw [not_or] at settled
            have unprepared : lease.state ≠ .preparing := fun preparing => by
              simp [(consistent.preparing preparing).2] at session
            rw [← Bool.not_eq_true, WakeLease.isLive_iff]
            simp [settled, unprepared]
        · rename_i unsettled
          split
          · exact records_raise _ _
          · rename_i text isText
            apply scheduled
            split
            · rename_i terminal
              rcases Option.isSome_iff_exists.mp (consistent.terminated terminal) with
                ⟨_, recorded⟩
              exact records_kept found isText recorded
            · rename_i pending
              have armed : lease.state = .armed := by
                rw [not_not] at unsettled
                exact unsettled.resolve_right pending
              refine records_update
                { state := some .terminal, terminalState := some text,
                  deliveryState := some .waitingForHandoff }
                found isText ⟨rfl, ?_⟩ (consistent.armed armed).2 rfl fun _ => rfl
              simp [LeaseUpdate.apply, armed, LeaseState.rank]

/-- A terminal request that is answered as accepted is recorded, unless an earlier one was. -/
theorem Reached.records {thread : ThreadId} {result : Json} (reached : Reached world)
    (names : Names request "terminal" job thread)
    (taken : step world (.request request) = some after) (answered : answerOf after = some result)
    (awaits : awaitsWakeup result = true) :
    ∃ lease text, world.row job = some lease ∧ terminalStateOf request = .ok text ∧
      Terminated after.store job (lease.terminalState.getD text) := by
  have handled := step_request taken
  rw [names.dispatch_terminal] at handled
  cases found : world.row job with
  | none =>
      have refused : ∃ error, (SessionBridge.terminal (world.received request) job request) =
          (world.received request, raise error) := by
        have absent : (world.received request).row job = none := found
        unfold SessionBridge.terminal
        rw [absent]
        unfold GoalBridge.terminal
        simp only [absent]
        split
        · exact ⟨_, rfl⟩
        · exact ⟨_, rfl⟩
        · exact ⟨_, rfl⟩
      rcases refused with ⟨error, refused⟩
      rw [handled, refused] at answered
      cases answerOf_stop (raise_ends _) answered
  | some lease =>
      have sameJob := BridgeState.jobId_of_get found
      subst sameJob
      have received : (world.received request).row lease.jobId = some lease := found
      have records : Records request lease
          (SessionBridge.terminal (world.received request) lease.jobId request) :=
        records_terminal received (reached.toInv.row_consistent found)
      rw [handled] at answered
      rcases records.2 result (answerOf_stop records.1 answered) awaits with
        ⟨text, isText, row, isRow, recorded⟩
      refine ⟨lease, text, rfl, isText, row, ?_, recorded⟩
      rw [handled]
      exact (World.stop_row _ _ _).trans isRow

/-- Terminal events are neither lost nor overwritten: a recorded terminal state stays, an armed lease
has none, and one that was accepted is that of the lease once its registration is complete, unless
the lease is given up. -/
theorem terminal_recorded (reachable : coordinator.Reachable world) :
    (∀ job text last, Terminated world.store job text →
        coordinator.Steps System.anyStep world last → Terminated last.store job text) ∧
      (∀ job row, world.row job = some row → row.state = .armed → row.terminalState = none) ∧
      ∀ request job thread after result last row, Names request "terminal" job thread →
        step world (.request request) = some after → answerOf after = some result →
        awaitsWakeup result = true → coordinator.Steps System.anyStep after last →
        last.row job = some row → row.state ≠ .preparing → row.state ≠ .abandoned →
        row.state ≠ .failed →
        (row.state = .terminal ∨ row.state = .delivered) ∧
          ∃ lease text, world.row job = some lease ∧ terminalStateOf request = .ok text ∧
            row.terminalState = some (lease.terminalState.getD text) := by
  have reached := reached_of_reachable reachable
  refine ⟨fun job text last terminated steps => reached.terminated steps terminated,
    fun job row found armed => ((reached.toInv.row_consistent found).armed armed).2, ?_⟩
  intro request job thread after result last row names taken answered awaits steps found
    committed kept confirmed
  rcases reached.records names taken answered awaits with ⟨lease, text, isLease, isText, recorded⟩
  rcases (reached.next taken).terminated steps recorded with ⟨current, isCurrent, recorded⟩
  rcases Option.some.inj (found.symm.trans isCurrent) with rfl
  refine ⟨?_, lease, text, isLease, isText, recorded⟩
  have reachedLast : Reached last := (reached.next taken).run steps
  cases state : row.state with
  | terminal => exact .inl rfl
  | delivered => exact .inr rfl
  | armed =>
      have unrecorded := ((reachedLast.toInv.row_consistent found).armed state).2
      simp [recorded] at unrecorded
  | preparing => exact absurd state committed
  | abandoned => exact absurd state kept
  | failed => exact absurd state confirmed

/-- A Goal registration whose pause is not confirmed yet. -/
def pausingRun : List Action :=
  Scenario.startUp ++ (Scenario.armGoal Scenario.firstJob 0).take 2

/-- A terminal request is accepted early, and the registration is completed after it. -/
def acceptsEarly (world : World) : Bool :=
  (step world (Scenario.terminal Scenario.firstJob "succeeded")).any fun after =>
    (answerOf after).any awaitsWakeup &&
      (coordinator.run after ((Scenario.armGoal Scenario.firstJob 0).drop 2)).any fun last =>
        (last.row Scenario.firstJob).any (·.state = .terminal)

theorem terminal_recorded_early : ∃ world after last row,
    step world (Scenario.terminal Scenario.firstJob "succeeded") = some after ∧
    coordinator.Steps System.anyStep after last ∧ last.row Scenario.firstJob = some row ∧
    (row.state = .terminal ∨ row.state = .delivered) ∧
    ∃ lease text, world.row Scenario.firstJob = some lease ∧
      row.terminalState = some (lease.terminalState.getD text) := by
  have ran : (coordinator.run World.initial pausingRun).any acceptsEarly = true := by
    decide +kernel
  rcases System.exists_reachable_of_run ran with ⟨world, reachable, accepts⟩
  rcases (Option.any_eq_true _ _).mp accepts with ⟨after, taken, accepts⟩
  rcases Bool.and_eq_true_iff.mp accepts with ⟨answers, commits⟩
  rcases (Option.any_eq_true _ _).mp answers with ⟨result, answered, awaits⟩
  rcases (Option.any_eq_true _ _).mp commits with ⟨last, ran, isTerminal⟩
  rcases (Option.any_eq_true _ _).mp isTerminal with ⟨row, found, terminal⟩
  have terminal : row.state = .terminal := by simpa using terminal
  have steps := System.steps_of_run ran
  rcases (terminal_recorded reachable).2.2 _ _ _ after result last row
    (Scenario.names_request "terminal" Scenario.jobIdOf_firstJob _) taken answered awaits steps
    found (by simp [terminal]) (by simp [terminal]) (by simp [terminal]) with
    ⟨state, lease, text, isLease, -, recorded⟩
  exact ⟨world, after, last, row, taken, steps, found, state, lease, text, isLease, recorded⟩

end Longrun.Bridge
