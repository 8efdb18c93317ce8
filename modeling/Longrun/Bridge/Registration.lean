import Longrun.Bridge.Revocation

/-!
# Registrations of a Goal job

The pause of a Goal is sent by the registration that has just read the Goal. This file says which
registrations send it: the one that inserts the row of its job, and a repeated one that finds the
row in the table when it reads the Goal. It also says when an abort keeps a registration from
being completed.
-/

namespace Longrun.Bridge

variable {origin : Option Origin} {world after first last : World} {task : TaskId} {job : JobId}
  {row lease : WakeLease} {thread : ThreadId} {request : Json}

/-! ### The pause -/

namespace GoalBridge

/-- A registration that has read the Goal gives up, or pauses the Goal for a row that it has
inserted or found. -/
theorem prepareRegister_cases (world : World) (task : TaskId) (call : PrepareCall)
    (result : Except PyError Json) :
    (∃ raised, (World.stop task (prepareRegister world task call result)).trace =
        .ended task (.error raised) :: world.trace) ∨
      ∃ identity, result.bind activeGoal = .ok identity ∧
        ((∃ row, world.row call.jobId = none ∧ row.state = .preparing ∧
            row.threadId = call.threadId ∧
            (World.stop task (prepareRegister world task call result)).row call.jobId = some row ∧
            (World.stop task (prepareRegister world task call result)).trace =
              .sent task call.jobId .app (.goalSet call.threadId "paused") ::
                .registered task call.jobId :: world.trace) ∨
          ∃ row, world.row call.jobId = some row ∧ row.threadId = call.threadId) := by
  unfold prepareRegister
  split
  · exact .inl ⟨_, rfl⟩
  · rename_i objective createdAt updatedAt isActive
    split
    · exact .inl ⟨_, rfl⟩
    · rename_i registered lease created
      refine .inr ⟨_, isActive, ?_⟩
      rcases createLease_cases created with
        ⟨store, fresh, -, rfl, rows, rfl⟩ | ⟨-, found, same⟩
      · refine .inl ⟨(newGoalLease world call objective createdAt updatedAt).row, fresh, rfl, rfl, ?_,
          rfl⟩
        rw [World.stop_row]
        exact (rows call.jobId).trans (if_pos rfl)
      · exact .inr ⟨lease, found, same⟩

end GoalBridge

/-- A registration reads an active Goal for a job that has its row already. -/
def RepeatedRegistration (world : World) : Action → Prop
  | .resume task (.reply result) => ∃ call identity row,
      world.At task (.prepareGoalGet call) ∧ result.bind activeGoal = .ok identity ∧
        world.row call.jobId = some row ∧ row.threadId = call.threadId
  | _ => False

/-- A pause that was just sent, by the registration that has inserted the row before it. -/
structure PauseSent (world after : World) (job : JobId) (newer : List Event) (event : Event)
    (task : TaskId) (row : WakeLease) : Prop where
  fresh : world.row job = none
  isRow : after.row job = some row
  preparing : row.state = .preparing
  isEvent : event = .sent task job .app (.goalSet row.threadId "paused")
  inserted : ∃ result, newer = [event, .registered task job,
    .replied task job .app (.goalGet row.threadId) result]

theorem Reached.pauseSent (reached : Reached world) {action : Action}
    (unrepeated : ¬RepeatedRegistration world action) (taken : step world action = some after)
    {newer : List Event} (isNewer : after.trace = newer ++ world.trace) {event : Event}
    (mem : event ∈ newer) (sends : event.sends job Rpc.isPause = true) :
    ∃ task row, PauseSent world after job newer event task row := by
  have old : event.isStarted = false := by
    cases event <;> simp_all [Event.sends, Event.isStarted]
  rcases reached.announces taken isNewer mem old with ⟨before, -, -, announced⟩
  rcases announced.of_pause sends with ⟨task, call, result, isOrigin, rfl⟩
  rcases resumes_eq isOrigin with ⟨rfl, suspended⟩
  rcases step_resume taken suspended with ⟨stopped, goesOn, rfl⟩
  have awaits : (Pc.prepareGoalGet call).awaits =
    some (call.jobId, .app, .goalGet call.threadId) := rfl
  have replied : (world.goOn task (.prepareGoalGet call) (.reply result)).trace =
      .replied task call.jobId .app (.goalGet call.threadId) result :: world.trace :=
    World.goOn_trace awaits result
  obtain rfl : GoalBridge.prepareRegister
      (world.goOn task (.prepareGoalGet call) (.reply result)) task call result = stopped :=
    Option.some.inj goesOn
  rcases GoalBridge.prepareRegister_cases
      (world.goOn task (.prepareGoalGet call) (.reply result)) task call result with
    ⟨raised, given⟩ | ⟨identity, isActive, inserted | ⟨row, found, sameThread⟩⟩
  · -- The registration has ended, so the step sends nothing.
    rw [given, replied] at isNewer
    have only : newer = [.ended task (.error raised),
        .replied task call.jobId .app (.goalGet call.threadId) result] :=
      List.append_cancel_right isNewer.symm
    rw [only] at mem
    rcases List.mem_pair.mp mem with rfl | rfl <;> simp [Event.sends] at sends
  · rcases inserted with ⟨row, fresh, preparing, sameThread, isRow, given⟩
    rw [given, replied] at isNewer
    have only : newer = [.sent task call.jobId .app (.goalSet call.threadId "paused"),
        .registered task call.jobId,
        .replied task call.jobId .app (.goalGet call.threadId) result] :=
      List.append_cancel_right isNewer.symm
    have isEvent : event = .sent task call.jobId .app (.goalSet call.threadId "paused") := by
      rw [only] at mem
      simp only [List.mem_cons, List.not_mem_nil, or_false] at mem
      rcases mem with rfl | rfl | rfl
      · rfl
      · simp [Event.sends] at sends
      · simp [Event.sends] at sends
    rw [World.goOn_row] at fresh
    rw [← sameThread] at isEvent only
    exact ⟨task, row, fresh, isRow, preparing, isEvent, result, isEvent ▸ only⟩
  · rw [World.goOn_row] at found
    exact absurd ⟨call, identity, row, suspended, isActive, found, sameThread⟩ unrepeated

/-- At most one pause was sent for a job, and none before its row was inserted. -/
structure PausedOnce (world : World) (job : JobId) : Prop where
  atMostOnce : world.trace.countP (·.sends job Rpc.isPause) ≤ 1
  fresh : world.row job = none → world.trace.countP (·.sends job Rpc.isPause) = 0

theorem PausedOnce.step (reached : Reached world) (once : PausedOnce world job) {action : Action}
    (unrepeated : ¬RepeatedRegistration world action) (taken : step world action = some after) :
    PausedOnce after job := by
  rcases reached.trace_grows taken with ⟨newer, isNewer⟩
  by_cases pauses : ∃ event ∈ newer, event.sends job Rpc.isPause = true
  · rcases pauses with ⟨event, mem, sends⟩
    rcases reached.pauseSent unrepeated taken isNewer.symm mem sends with ⟨task, row, sent⟩
    rcases sent.inserted with ⟨result, only⟩
    have unsent := once.fresh sent.fresh
    refine ⟨?_, fun fresh => by cases fresh.symm.trans sent.isRow⟩
    rw [← isNewer, only, List.countP_append, unsent, sent.isEvent]
    simp [Event.sends, Rpc.isPause]
  · have none : newer.countP (·.sends job Rpc.isPause) = 0 :=
      List.countP_eq_zero.mpr fun event mem sends => pauses ⟨event, mem, sends⟩
    have same : after.trace.countP (·.sends job Rpc.isPause) =
        world.trace.countP (·.sends job Rpc.isPause) := by
      rw [← isNewer, List.countP_append, none, Nat.zero_add]
    refine ⟨same ▸ once.atMostOnce, fun fresh => same.trans (once.fresh ?_)⟩
    cases found : world.row job with
    | none => rfl
    | some row =>
        rcases reached.row_later taken found with ⟨later, isLater, -⟩
        cases fresh.symm.trans isLater

/-- In a run without repeated registrations a Goal is paused at most once per row, by the registration
that has inserted the row, while the row is preparing. -/
theorem paused_once (reachable : coordinator.ReachableBy
      (fun world action => ¬RepeatedRegistration world action) world) (job : JobId) :
    world.trace.countP (·.sends job Rpc.isPause) ≤ 1 ∧
      ∀ action after newer event, ¬RepeatedRegistration world action →
        step world action = some after → after.trace = newer ++ world.trace → event ∈ newer →
        event.sends job Rpc.isPause = true →
        ∃ task row, PauseSent world after job newer event task row := by
  have reached := reached_of_reachable reachable
  let property (world : World) : Prop := PausedOnce world job
  have once : property world := by
    refine reachable.invariant_of_reachable ⟨Nat.zero_le _, fun _ => rfl⟩ ?_
    intro state action next reachable once unrepeated taken
    exact PausedOnce.step (reached_of_reachable reachable) once unrepeated taken
  refine ⟨once.atMostOnce, ?_⟩
  intro action after newer event unrepeated taken isNewer mem sends
  exact reached.pauseSent unrepeated taken isNewer mem sends

/-- The check that a step does not repeat a registration. -/
def resumesFresh (world : World) : Action → Bool
  | .resume task _ =>
      match world.tasks[task]? with
      | some (.suspended (.prepareGoalGet call)) => (world.row call.jobId).isNone
      | _ => true
  | _ => true

theorem not_repeated_of_resumesFresh {action : Action} (fresh : resumesFresh world action = true) :
    ¬RepeatedRegistration world action := by
  intro repeated
  cases action with
  | resume task input =>
      cases input with
      | reply result =>
          rcases repeated with ⟨call, identity, row, suspended, -, found, -⟩
          rw [resumesFresh, suspended] at fresh
          simp [found] at fresh
      | _ => exact repeated
  | _ => exact repeated

/-- The job is armed and its Goal was paused. -/
def pausedAndArmed (world : World) : Bool :=
  (world.row Scenario.firstJob).any (·.state = .armed) &&
    0 < world.trace.countP (·.sends Scenario.firstJob Rpc.isPause)

theorem paused_once_armed : ∃ (world : World) (row : WakeLease),
    world.row Scenario.firstJob = some row ∧ row.state = .armed ∧
    world.trace.countP (·.sends Scenario.firstJob Rpc.isPause) = 1 := by
  have ran : (coordinator.runBy resumesFresh World.initial
      (Scenario.startUp ++ Scenario.armGoal Scenario.firstJob 0)).any pausedAndArmed = true := by
    decide +kernel
  rcases (Option.any_eq_true _ _).mp ran with ⟨world, ran, holds⟩
  rcases Bool.and_eq_true_iff.mp holds with ⟨armed, paused⟩
  rcases (Option.any_eq_true _ _).mp armed with ⟨row, found, armed⟩
  have reachable : coordinator.ReachableBy
      (fun world action => ¬RepeatedRegistration world action) world :=
    System.steps_of_runBy (fun _ _ => not_repeated_of_resumesFresh) ran
  have once := (paused_once reachable Scenario.firstJob).1
  have paused := of_decide_eq_true paused
  exact ⟨world, row, found, by simpa using armed, by omega⟩

/-- The newest event is a pause that a task sends for the first job. -/
def sendsPause (world : World) (task : TaskId) : Bool :=
  match world.trace.head? with
  | some (.sent sender job _ rpc) => sender = task && job = Scenario.firstJob && rpc.isPause
  | _ => false

/-- The second of two registrations pauses the Goal of a lease that the first one has armed. -/
def pausesAgain (world : World) : Bool :=
  sendsPause world 1 && (world.row Scenario.firstJob).any (·.state = .armed) &&
    world.trace.countP (·.sends Scenario.firstJob Rpc.isPause) = 2

theorem paused_twice : ∃ world : World, coordinator.Reachable world ∧ pausesAgain world = true := by
  have ran : (coordinator.run World.initial
      (Scenario.startUp ++ [Scenario.prepare Scenario.firstJob "goal"] ++
        Scenario.prepare Scenario.firstJob "goal" ::
          ((Scenario.armGoal Scenario.firstJob 0).drop 1) ++
        [Scenario.reply 1 (Scenario.goal "active" 9)])).any pausesAgain = true := by
    decide +kernel
  exact System.exists_reachable_of_run ran

/-! ### Aborted registrations -/

/-- A registration request for a job. -/
def Event.isPrepare (job : JobId) : Event → Bool
  | .received _ request => prepares job request
  | _ => false

theorem two_le_rank_of_settled (settled : lease.isLive = false) : 2 ≤ lease.state.rank := by
  cases state : lease.state <;> simp_all [WakeLease.isLive, LeaseState.isLive, LeaseState.rank]

/-- A revocation leaves no lease of the thread before its terminal event. -/
theorem revocation_rank (found : world.row job = some lease) (consistent : lease.Consistent)
    (reason : String) : ∃ row,
      (abandonForManualChange world lease.threadId reason).row job = some row ∧
        2 ≤ row.state.rank := by
  rcases abandonForManualChange_row lease.threadId reason found with
    ⟨-, abandoned⟩ | ⟨spared, kept⟩
  · exact ⟨_, abandoned, by simp [revokedFields, LeaseUpdate.apply, LeaseState.rank]⟩
  · refine ⟨lease, kept, ?_⟩
    cases live : lease.isLive with
    | false => exact two_le_rank_of_settled live
    | true =>
        have activating : lease.deliveryState = .activating := by
          by_contra idle
          exact spared ⟨rfl, live, idle⟩
        rw [consistent.terminal_of_activating live activating]
        exact le_refl 2

/-- An abort that succeeds leaves the lease of its job at least terminal. -/
theorem abort_rank (found : world.row job = some lease) (consistent : lease.Consistent)
    (names : Names request "abort" job thread) {result : Json}
    (answered : (SessionBridge.abort world job request).2 = .done result) : ∃ row,
      (SessionBridge.abort world job request).1.row job = some row ∧ 2 ≤ row.state.rank := by
  by_cases isThread : lease.threadId = thread
  · subst isThread
    cases mode : lease.wakeMode with
    | session =>
        rw [sessionAbort_eq found mode names.threadId]
        exact revocation_rank found consistent _
    | goal =>
        have goalAbort : SessionBridge.abort world job request =
            GoalBridge.abort world job request := by
          simp [SessionBridge.abort, found, mode]
        rw [goalAbort] at answered ⊢
        unfold GoalBridge.abort at answered ⊢
        simp only [names.threadId, found, ne_eq, not_true_eq_false, if_false] at answered ⊢
        split_ifs at answered ⊢ with final preparing terminal unarmed
        · exact ⟨lease, found, two_le_rank_of_settled (consistent.isFinal_iff.mp final)⟩
        · exact revocation_rank found consistent _
        · exact ⟨lease, found, by simp [terminal, LeaseState.rank]⟩
        · contradiction
        · refine ⟨_, (World.scheduleDelivery_row _ _ _).trans (World.row_update_self found ?_), ?_⟩
          · exact ⟨rfl, by simp_all [LeaseUpdate.apply, LeaseState.rank]⟩
          · exact le_refl 2
  · have refused : (SessionBridge.abort world job request).2 =
        raise (runtimeError "wake lease belongs to another thread") := by
      cases mode : lease.wakeMode <;>
        simp [SessionBridge.abort, GoalBridge.abort, found, mode, names.threadId, isThread]
    rw [refused] at answered
    contradiction

theorem goalAbort_ends (world : World) (job : JobId) (request : Json) :
    (GoalBridge.abort world job request).2.Ends := by
  unfold GoalBridge.abort
  split
  · trivial
  · split
    · trivial
    · split_ifs <;> trivial

/-- An abort is answered at once. -/
theorem abort_ends (world : World) (job : JobId) (request : Json) :
    (SessionBridge.abort world job request).2.Ends := by
  unfold SessionBridge.abort
  split
  · exact goalAbort_ends _ _ _
  · split
    · exact goalAbort_ends _ _ _
    · split
      · trivial
      · split <;> trivial

/-- The registration of a job has inserted its row, or is over. -/
def RegistrationEntered (world : World) (job : JobId) : Prop :=
  (∃ row, world.row job = some row) ∨
    ∃ task, world.PrepareReceived task job ∧ world.isDone task = true

/-- The job will not be armed, and its Goal will not be paused. -/
structure Disarmed (world : World) (job : JobId) (pauses : Nat) : Prop where
  pauses : world.trace.countP (·.sends job Rpc.isPause) = pauses
  row : (∃ row, world.row job = some row ∧ 2 ≤ row.state.rank) ∨
    (world.row job = none ∧ ∃ task, world.PrepareReceived task job ∧ world.isDone task = true)

/-- Two tasks that handle registrations of a job have received two requests. -/
theorem two_prepares {other : TaskId} (different : task ≠ other)
    (received : world.PrepareReceived task job) (received' : world.PrepareReceived other job) :
    2 ≤ world.trace.countP (Event.isPrepare job) := by
  rcases received with ⟨request, mem, isPrepare⟩
  rcases received' with ⟨request', mem', isPrepare'⟩
  rcases List.append_of_mem mem with ⟨newer, older, isTrace⟩
  rw [isTrace] at mem' ⊢
  have isCounted : Event.isPrepare job (.received task request) = true := isPrepare
  have isCounted' : Event.isPrepare job (.received other request') = true := isPrepare'
  have counts {events : List Event} (mem : .received other request' ∈ events) :
      0 < events.countP (Event.isPrepare job) :=
    List.countP_pos_iff.mpr ⟨_, mem, isCounted'⟩
  rw [List.countP_append, List.countP_cons_of_pos isCounted]
  rcases List.mem_append.mp mem' with mem' | mem'
  · have := counts mem'
    omega
  · rcases List.mem_cons.mp mem' with same | mem'
    · exact absurd (Event.received.inj same).1.symm different
    · have := counts mem'
      omega

theorem World.PrepareReceived.suffix (received : world.PrepareReceived task job)
    (grows : world.trace <:+ after.trace) : after.PrepareReceived task job := by
  rcases received with ⟨request, mem, isPrepare⟩
  exact ⟨request, grows.subset mem, isPrepare⟩

/-- A registration that goes on, or inserts a row, keeps a job from being disarmed only if it is a
second one. -/
theorem Disarmed.step {pauses : Nat} (reached : Reached world)
    (rows : RegisteredRows world.store world.trace) (disarmed : Disarmed world job pauses)
    {action : Action} (taken : step world action = some after)
    (once : after.trace.countP (Event.isPrepare job) ≤ 1) : Disarmed after job pauses := by
  rcases reached.trace_grows taken with ⟨newer, isNewer⟩
  have grows : world.trace <:+ after.trace := ⟨newer, isNewer⟩
  have alone {task other : TaskId} (received : after.PrepareReceived task job)
      (received' : after.PrepareReceived other job) : task = other := by
    by_contra different
    have := two_prepares different received received'
    omega
  constructor
  · -- A new pause would come from a registration that has not inserted its row.
    have unpaused : newer.countP (·.sends job Rpc.isPause) = 0 := by
      refine List.countP_eq_zero.mpr fun event mem sends => ?_
      have old : event.isStarted = false := by
        cases event <;> simp_all [Event.sends, Event.isStarted]
      rcases reached.announces taken isNewer.symm mem old with ⟨before, -, -, announced⟩
      rcases announced.of_pause sends with ⟨task, call, result, isOrigin, rfl⟩
      rcases resumes_eq isOrigin with ⟨rfl, suspended⟩
      rcases (reached.toInv.suspended task _ suspended).registering call.jobId rfl with
        ⟨received, unregistered⟩
      rcases disarmed.row with ⟨row, found, -⟩ | ⟨-, other, received', done⟩
      · rcases (reached.toInv.jobs call.jobId).registered row found with
          ⟨registrar, received', registered⟩
        rcases alone (received.suffix grows) (received'.suffix grows) with rfl
        exact unregistered registered
      · rcases alone (received.suffix grows) (received'.suffix grows) with rfl
        rw [suspended.not_isDone] at done
        contradiction
    rw [← isNewer, List.countP_append, unpaused, Nat.zero_add, disarmed.pauses]
  · rcases disarmed.row with ⟨row, found, rank⟩ | ⟨fresh, other, received, done⟩
    · rcases reached.row_later taken found with ⟨later, isLater, grown⟩
      exact .inl ⟨later, isLater, le_trans rank grown.2⟩
    · refine .inr ⟨?_, other, received.suffix grows, reached.isDone taken done⟩
      cases found : after.row job with
      | none => rfl
      | some row =>
          -- The row would have been inserted by a registration that is still running.
          rcases ((reached.next taken).toInv.jobs job).registered row found with
            ⟨registrar, received', registered⟩
          have isNew : .registered registrar job ∈ newer := by
            rcases List.mem_append.mp (isNewer ▸ registered) with isNew | isOld
            · exact isNew
            · rcases rows registrar job isOld with ⟨row, found⟩
              cases fresh.symm.trans found
          rcases alone received' (received.suffix grows) with rfl
          rcases reached.announces taken isNewer.symm isNew rfl with ⟨before, -, moves, announced⟩
          have running : before.IsRunning registrar := by
            cases announced with
            | loggable loggable => exact loggable.elim
            | registered _ _ _ running => exact running
          have finished := moves.isDone (World.isDone_entered action done)
          rw [running.not_isDone] at finished
          contradiction

/-- Once an abort is answered, the job of the registration it names is not armed and its Goal is not
paused, unless the registration was still to come to its row. -/
theorem abort_bars (reachable : coordinator.Reachable world)
    (names : Names request "abort" job thread) (entered : RegistrationEntered world job)
    (taken : step world (.request request) = some after) {result : Json}
    (answered : answerOf after = some result) (steps : coordinator.Steps System.anyStep after last)
    (once : last.trace.countP (Event.isPrepare job) ≤ 1) :
    (∀ row, last.row job = some row → row.state ≠ .armed) ∧
      last.trace.countP (·.sends job Rpc.isPause) =
        after.trace.countP (·.sends job Rpc.isPause) := by
  have reached := reached_of_reachable reachable
  have next : coordinator.step world (.request request) = some after := taken
  have steps' : coordinator.Steps System.anyStep world after := .single trivial next
  have reachableAfter : coordinator.Reachable after := reachable.steps steps'
  have handled := step_request taken
  rw [names.dispatch_abort] at handled
  have disarmed : Disarmed after job (after.trace.countP (·.sends job Rpc.isPause)) := by
    refine ⟨rfl, ?_⟩
    cases found : world.row job with
    | some lease =>
        have received : (world.received request).row job = some lease := found
        rw [handled] at answered
        have done := answerOf_stop (abort_ends _ _ _) answered
        rcases abort_rank received (reached.toInv.row_consistent found) names done with
          ⟨row, isRow, rank⟩
        exact .inl ⟨row, handled ▸ (World.stop_row _ _ _).trans isRow, rank⟩
    | none =>
        rcases entered with ⟨row, isRow⟩ | ⟨task, received, done⟩
        · cases found.symm.trans isRow
        · have absent : (world.received request).row job = none := found
          refine .inr ⟨?_, task, received.suffix (reached.trace_grows taken),
            reached.isDone taken done⟩
          rw [handled, World.stop_row]
          simp [SessionBridge.abort, GoalBridge.abort, absent, names.threadId]
  let property (world : World) : Prop := coordinator.Reachable world ∧
    (world.trace.countP (Event.isPrepare job) ≤ 1 →
      Disarmed world job (after.trace.countP (·.sends job Rpc.isPause)))
  have holds : property last := by
    refine System.Steps.preserves steps ⟨reachableAfter, fun _ => disarmed⟩ ?_
    intro state action next holds _ taken
    refine ⟨holds.1.next trivial taken, fun once => ?_⟩
    have reached := reached_of_reachable holds.1
    have earlier := (reached.trace_grows taken).sublist.countP_le (p := Event.isPrepare job)
    exact (holds.2 (le_trans earlier once)).step reached (registeredRows holds.1) taken once
  have final := holds.2 once
  refine ⟨fun row found armed => ?_, final.pauses⟩
  rcases final.row with ⟨current, isCurrent, rank⟩ | ⟨absent, -⟩
  · rcases Option.some.inj (found.symm.trans isCurrent) with rfl
    simp [armed, LeaseState.rank] at rank
  · cases found.symm.trans absent

/-- An abort of the first job is answered, and a run goes on from there. -/
def abortsBefore (rest : List Action) (check : World → World → Bool) (world : World) : Bool :=
  (step world (Scenario.abort Scenario.firstJob)).any fun after =>
    (answerOf after).isSome && (coordinator.run after rest).any (check after)

/-- The job was prepared once, it is armed, and its Goal was paused after another state. -/
def pausedSince (after last : World) : Bool :=
  last.trace.countP (Event.isPrepare Scenario.firstJob) = 1 &&
    (last.row Scenario.firstJob).any (·.state = .armed) &&
    after.trace.countP (·.sends Scenario.firstJob Rpc.isPause) <
      last.trace.countP (·.sends Scenario.firstJob Rpc.isPause)

/-- An abort overtakes a registration that is still reading the Goal: the Goal is paused and the job
is armed after the abort was answered. -/
theorem abort_overtakes : ∃ world after last : World, coordinator.Reachable world ∧
    step world (Scenario.abort Scenario.firstJob) = some after ∧ (answerOf after).isSome = true ∧
    coordinator.Steps System.anyStep after last ∧ pausedSince after last = true := by
  have ran : (coordinator.run World.initial
      (Scenario.startUp ++ [Scenario.prepare Scenario.firstJob "goal"])).any
        (abortsBefore ((Scenario.armGoal Scenario.firstJob 0).drop 1) pausedSince) = true := by
    decide +kernel
  rcases System.exists_reachable_of_run ran with ⟨world, reachable, overtakes⟩
  rcases (Option.any_eq_true _ _).mp overtakes with ⟨after, taken, overtakes⟩
  rcases Bool.and_eq_true_iff.mp overtakes with ⟨answered, overtakes⟩
  rcases (Option.any_eq_true _ _).mp overtakes with ⟨last, ran, paused⟩
  exact ⟨world, after, last, reachable, taken, answered, System.steps_of_run ran, paused⟩

/-- The job was prepared once, and it has a row. -/
def preparedOnce (_ last : World) : Bool :=
  last.trace.countP (Event.isPrepare Scenario.firstJob) ≤ 1 &&
    (last.row Scenario.firstJob).isSome

/-- The check that an abort comes after the row of its registration. -/
def abortsEntered (world : World) : Bool :=
  (world.row Scenario.firstJob).isSome &&
    abortsBefore [Scenario.reply 0 (Scenario.goal "paused" 8)] preparedOnce world

theorem abort_bars_pausing : ∃ world after last : World,
    step world (Scenario.abort Scenario.firstJob) = some after ∧
    coordinator.Steps System.anyStep after last ∧
    (∃ row, last.row Scenario.firstJob = some row ∧ row.state ≠ .armed) ∧
    last.trace.countP (·.sends Scenario.firstJob Rpc.isPause) =
      after.trace.countP (·.sends Scenario.firstJob Rpc.isPause) := by
  have ran : (coordinator.run World.initial (Scenario.startUp ++
      (Scenario.armGoal Scenario.firstJob 0).take 2)).any abortsEntered = true := by
    decide +kernel
  rcases System.exists_reachable_of_run ran with ⟨world, reachable, aborts⟩
  rcases Bool.and_eq_true_iff.mp aborts with ⟨entered, aborts⟩
  rcases Option.isSome_iff_exists.mp entered with ⟨lease, isLease⟩
  rcases (Option.any_eq_true _ _).mp aborts with ⟨after, taken, aborts⟩
  rcases Bool.and_eq_true_iff.mp aborts with ⟨answered, aborts⟩
  rcases Option.isSome_iff_exists.mp answered with ⟨result, answered⟩
  rcases (Option.any_eq_true _ _).mp aborts with ⟨last, ran, prepared⟩
  rcases Bool.and_eq_true_iff.mp prepared with ⟨once, found⟩
  rcases Option.isSome_iff_exists.mp found with ⟨row, found⟩
  have steps := System.steps_of_run ran
  rcases abort_bars reachable (Scenario.names_request "abort" Scenario.jobIdOf_firstJob [])
    (.inl ⟨lease, isLease⟩) taken answered steps (of_decide_eq_true once) with ⟨unarmed, same⟩
  exact ⟨world, after, last, taken, steps, ⟨row, found, unarmed row found⟩, same⟩

end Longrun.Bridge
