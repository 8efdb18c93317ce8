import Longrun.Bridge.Recovery

/-!
# Runs of the coordinator

How rows and traces evolve from move to move and from step to step: a row stays in the table and
only gets later, the trace only grows, and each event of a kind that a property counts is announced
by what holds when it happens.
-/

namespace Longrun.Bridge

variable {origin : Option Origin} {world after : World} {task : TaskId} {job : JobId}

/-! ### Moves -/

/-- A property that every move preserves is preserved by a step. -/
theorem Moves.preserves (property : World → Prop) (moves : Moves origin world after)
    (inv : Inv world) (holds : property world)
    (move : ∀ before after, Inv before → property before → Move origin before after →
      property after) : property after := by
  have both : Inv after ∧ property after := by
    induction moves with
    | refl => exact ⟨inv, holds⟩
    | tail _ next ih => exact ⟨ih.1.move next, move _ _ ih.1 ih.2 next⟩
  exact both.2

/-- An event, with what holds when it happens. -/
inductive Announced (origin : Option Origin) (world : World) : Event → Prop where
  | loggable {event : Event} : Loggable origin world event → Announced origin world event
  | registered (task : TaskId) (job : JobId) : world.row job = none → world.IsRunning task →
      world.PrepareReceived task job → Announced origin world (.registered task job)
  | acquired (task : TaskId) (thread : ThreadId) : Announced origin world (.acquired task thread)
  | released (task : TaskId) (thread : ThreadId) : Announced origin world (.released task thread)
  | activation {row : WakeLease} (task : TaskId) (lease : WakeLease) :
      world.row lease.jobId = some row → row.wakeMode = .goal → row.state = .terminal →
      (∃ result, origin = some ⟨task, .deliver lease .goalGet, .reply result⟩) →
      Announced origin world (.sent task lease.jobId .app (.goalSet lease.threadId "active"))
  | interrupt {row : WakeLease} (task : TaskId) (peer : PeerId) :
      world.row row.jobId = some row → row.wakeMode = .session → row.isLive = true →
      row.deliveryState ≠ .activating →
      Announced origin world
        (.sent task row.jobId (.peer peer) (.turnInterrupt row.threadId row.turnId))
  | turnStart {row : WakeLease} (task : TaskId) (peer : PeerId) (text : String) :
      world.row row.jobId = some row → row.wakeMode = .session → row.state = .terminal →
      row.handoffState = .ready → world.phase = .serving →
      Announced origin world (.sent task row.jobId (.peer peer) (.turnStart row.threadId text))

theorem Move.announces (inv : Inv world) (move : Move origin world after) :
    after.trace = world.trace ∨
      ∃ event, after.trace = event :: world.trace ∧ Announced origin world event := by
  cases move with
  | log event loggable => exact .inr ⟨event, rfl, .loggable loggable⟩
  | register task new running received fresh created mode =>
      exact .inr ⟨_, rfl, .registered task new.jobId fresh running received⟩
  | registerSession task new running received fresh created mode =>
      exact .inr ⟨_, rfl, .registered task new.jobId fresh running received⟩
  | lockGoal task thread => exact .inr ⟨_, rfl, .acquired task thread⟩
  | unlockGoal task thread => exact .inr ⟨_, rfl, .released task thread⟩
  | activateGoal task lease found goal terminal _ isOrigin =>
      exact .inr ⟨_, rfl, .activation task lease found goal terminal isOrigin⟩
  | interrupt task peer _ found session live pending =>
      refine .inr ⟨_, rfl, .interrupt task peer found session live fun activating => ?_⟩
      have ready := (inv.row_consistent found).activatingReady session live activating
      rw [pending] at ready
      contradiction
  | activateSession task peer text found session terminal ready serving =>
      exact .inr ⟨_, rfl, .turnStart task peer text found session terminal ready serving⟩
  | _ => exact .inl rfl

namespace Announced

variable {event : Event} (announced : Announced origin world event)

include announced

/-- A Goal is activated by the delivery that has just read it. -/
theorem of_activation (sends : event.sends job Rpc.isActivation = true) :
    ∃ row, world.row job = some row ∧ row.wakeMode = .goal ∧ row.state = .terminal ∧
      ∃ task lease result, lease.jobId = job ∧
        event = .sent task job .app (.goalSet lease.threadId "active") ∧
        origin = some ⟨task, .deliver lease .goalGet, .reply result⟩ := by
  cases announced with
  | @activation row task lease found goal terminal isOrigin =>
      rcases isOrigin with ⟨result, isOrigin⟩
      obtain rfl : lease.jobId = job := by
        simpa [Event.sends, Rpc.isActivation] using sends
      exact ⟨row, found, goal, terminal, task, lease, result, rfl, rfl, isOrigin⟩
  | loggable loggable =>
      cases event <;> simp [Event.sends] at sends
      simp [loggable.1.1] at sends
  | _ => simp [Event.sends, Rpc.isActivation] at sends

/-- Only the turn of a live session lease is interrupted. -/
theorem of_interrupt (sends : event.sends job Rpc.isInterrupt = true) :
    ∃ row, world.row job = some row ∧ row.wakeMode = .session ∧ row.isLive = true ∧
      row.deliveryState ≠ .activating ∧
      ∃ task via, event = .sent task job via (.turnInterrupt row.threadId row.turnId) := by
  cases announced with
  | @interrupt row task peer found session live idle =>
      obtain rfl : row.jobId = job := by
        simpa [Event.sends, Rpc.isInterrupt] using sends
      exact ⟨row, found, session, live, idle, task, .peer peer, rfl⟩
  | loggable loggable =>
      cases event <;> simp [Event.sends] at sends
      simp [loggable.1.2.1] at sends
  | _ => simp [Event.sends, Rpc.isInterrupt] at sends

/-- A continuation turn is started for a terminal lease whose handoff is complete. -/
theorem of_turnStart (sends : event.sends job Rpc.isTurnStart = true) :
    ∃ row, world.row job = some row ∧ row.wakeMode = .session ∧ row.state = .terminal ∧
      row.handoffState = .ready ∧ world.phase = .serving ∧
      ∃ task via text, event = .sent task job via (.turnStart row.threadId text) := by
  cases announced with
  | @turnStart row task peer text found session terminal ready serving =>
      obtain rfl : row.jobId = job := by
        simpa [Event.sends, Rpc.isTurnStart] using sends
      exact ⟨row, found, session, terminal, ready, serving, task, .peer peer, text, rfl⟩
  | loggable loggable =>
      cases event <;> simp [Event.sends] at sends
      simp [loggable.1.2.2] at sends
  | _ => simp [Event.sends, Rpc.isTurnStart] at sends

/-- A receipt is recorded for a live lease. -/
theorem of_receipt (sends : event.sends job Rpc.isReceipt = true) :
    ∃ row, world.row job = some row ∧ row.isLive = true ∧ row.deliveryState ≠ .activating := by
  cases announced with
  | loggable loggable =>
      cases event with
      | sent task owner via rpc =>
          simp only [Event.sends, Bool.and_eq_true, decide_eq_true_eq] at sends
          rcases sends with ⟨rfl, receipt⟩
          exact loggable.2.2 receipt
      | _ => simp [Event.sends] at sends
  | _ => simp [Event.sends, Rpc.isReceipt] at sends

/-- A Goal is paused by the registration that has just read it. -/
theorem of_pause (sends : event.sends job Rpc.isPause = true) :
    ∃ task call result, origin = some ⟨task, .prepareGoalGet call, .reply result⟩ ∧
      call.jobId = job := by
  cases announced with
  | loggable loggable =>
      cases event with
      | sent task owner via rpc =>
          simp only [Event.sends, Bool.and_eq_true, decide_eq_true_eq] at sends
          rcases sends with ⟨rfl, pause⟩
          rcases loggable.2.1 pause with ⟨call, result, isOrigin, sameJob⟩
          exact ⟨task, call, result, isOrigin, sameJob⟩
      | _ => simp [Event.sends] at sends
  | _ => simp [Event.sends, Rpc.isPause] at sends

end Announced

/-- The trace only grows. -/
theorem Move.trace_suffix (move : Move origin world after) : world.trace <:+ after.trace := by
  cases move with
  | log | register | registerSession | lockGoal | unlockGoal | activateGoal | interrupt
  | activateSession => exact List.suffix_cons _ _
  | _ => exact List.suffix_refl _

theorem Moves.trace_suffix (moves : Moves origin world after) : world.trace <:+ after.trace := by
  induction moves with
  | refl => exact List.suffix_refl _
  | tail _ move ih => exact ih.trans move.trace_suffix

theorem World.IsRunning.not_isDone (running : world.IsRunning task) : world.isDone task = false := by
  rw [World.IsRunning] at running
  simp [World.isDone, running]

theorem World.lt_length_of_isDone (done : world.isDone task = true) :
    task < world.tasks.length := by
  by_contra outside
  simp [World.isDone, List.getElem?_eq_none (Nat.le_of_not_lt outside)] at done

theorem World.isDone_entered (action : Action) (done : world.isDone task = true) :
    (world.entered action).isDone task = true := by
  cases action with
  | request | clientMessage =>
      exact (World.isDone_spawn (World.lt_length_of_isDone done)).trans done
  | _ => exact done

theorem World.isDone_crash (done : world.isDone task = true) : world.crash.isDone task = true := by
  simp [World.isDone, World.crash, World.lt_length_of_isDone done]

/-- A finished task stays finished. -/
theorem Move.isDone (move : Move origin world after) (done : world.isDone task = true) :
    after.isDone task = true := by
  have inside : task < world.tasks.length := World.lt_length_of_isDone done
  have other {busy : TaskId} {status : TaskStatus} (unfinished : world.isDone busy = false) :
      (world.setTask busy status).isDone task = true := by
    rw [World.isDone_setTask_of_ne, done]
    rintro rfl
    rw [done] at unfinished
    contradiction
  cases move with
  | run _ _ _ _ suspended => exact other suspended.not_isDone
  | suspend _ _ running => exact other running.not_isDone
  | finish _ running => exact other running.not_isDone
  | spawnDelivery => exact (World.isDone_spawn inside).trans done
  | spawnDeadline => exact (World.isDone_spawn inside).trans done
  | _ => exact done

theorem Moves.isDone (moves : Moves origin world after) (done : world.isDone task = true) :
    after.isDone task = true := by
  induction moves with
  | refl => exact done
  | tail _ move ih => exact move.isDone ih

theorem World.At.entered {pc : Pc} (suspended : world.At task pc) (action : Action) :
    (world.entered action).At task pc := by
  cases action with
  | request | clientMessage =>
      exact (List.getElem?_append_left suspended.lt_length).trans suspended
  | _ => exact suspended

/-- A suspended task stays where it is, unless it is the one that goes on. -/
theorem Move.at_other {pc : Pc} (move : Move origin world after) (suspended : world.At task pc)
    (other : ∀ pc input, origin ≠ some ⟨task, pc, input⟩) : after.At task pc := by
  have unmoved {busy : TaskId} {status : TaskStatus} (different : busy ≠ task) :
      (world.setTask busy status).At task pc := by
    rw [World.At, World.setTask_tasks, List.getElem?_set_ne different]
    exact suspended
  have appended {status : TaskStatus} : (world.tasks ++ [status])[task]? = some (.suspended pc) :=
    (List.getElem?_append_left suspended.lt_length).trans suspended
  cases move with
  | run busy otherPc input isOrigin =>
      refine unmoved ?_
      rintro rfl
      exact other _ _ isOrigin
  | suspend busy _ running | finish busy running =>
      refine unmoved ?_
      rintro rfl
      exact suspended.not_running running
  | spawnDelivery => exact appended
  | spawnDeadline => exact appended
  | _ => exact suspended

theorem Moves.at_other {pc : Pc} (moves : Moves origin world after) (suspended : world.At task pc)
    (other : ∀ pc input, origin ≠ some ⟨task, pc, input⟩) : after.At task pc := by
  induction moves with
  | refl => exact suspended
  | tail _ move ih => exact move.at_other ih other

/-- What a move does to the row of a job. -/
inductive RowChange (origin : Option Origin) (world after : World) (job : JobId) : Prop where
  | same : after.row job = world.row job → RowChange origin world after job
  | updated {row : WakeLease} {fields : LeaseUpdate} : world.row job = some row →
      Legal origin world row fields → after.row job = some (fields.apply row) →
      after.trace = world.trace → RowChange origin world after job
  /-- A commit that precedes a request. -/
  | committed {row : WakeLease} (fields : LeaseUpdate) : world.row job = some row →
      row.isLive = true → fields.state = none → fields.terminalState = none →
      (fields.deliveryState = none ∨ fields.deliveryState = some .activating) →
      after.row job = some (fields.apply row) → RowChange origin world after job
  | registered {row : WakeLease} (task : TaskId) (new : NewLease) : world.row job = none →
      new.jobId = job → (row = new.row ∨ row = LeaseUpdate.apply { state := some .armed } new.row) →
      (row.state = .preparing ↔ row.wakeMode = .goal) → world.PrepareReceived task job →
      (row.wakeMode = .session → ∃ call turn peer input,
        origin = some ⟨task, .sessionGoalNow call turn peer, input⟩ ∧
          row.threadId = call.threadId ∧ row.callId = some call.callId) →
      after.row job = some row → after.trace = .registered task job :: world.trace →
      RowChange origin world after job

theorem rowChange_of_update {target : JobId} {row : WakeLease} (fields : LeaseUpdate)
    (found : world.row target = some row) (later : row.Later (fields.apply row))
    (rows : ∀ job, after.row job = (world.update target fields).row job)
    (change : after.row target = some (fields.apply row) → RowChange origin world after target)
    (job : JobId) : RowChange origin world after job := by
  by_cases isTarget : job = target
  · subst isTarget
    exact change ((rows job).trans (World.row_update_self found later))
  · refine .same ((rows job).trans ?_)
    rw [World.row_update found later, if_neg isTarget]

theorem Move.rowChange (move : Move origin world after) (job : JobId) :
    RowChange origin world after job := by
  cases move with
  | update target fields found legal =>
      exact rowChange_of_update fields found legal.later (fun _ => rfl)
        (fun isRow => .updated found legal isRow rfl) job
  | register task new running received fresh created mode =>
      have rows := BridgeState.get_createLease fresh created
      by_cases isNew : job = new.jobId
      · subst isNew
        refine .registered task new fresh rfl (.inl rfl) (by simp [NewLease.row, mode]) received
          (fun session => ?_) ((rows new.jobId).trans (if_pos rfl)) rfl
        exact absurd (mode.symm.trans session) (by decide)
      · exact .same ((rows job).trans (if_neg isNew))
  | registerSession task new running received fresh created mode _ _ isOrigin =>
      have rows := BridgeState.get_createLease fresh created
      have later : new.row.Later (LeaseUpdate.apply { state := some .armed } new.row) :=
        ⟨rfl, Nat.zero_le _⟩
      have found : (({ world with store := _ } : World).log (.registered task new.jobId)).row
          new.jobId = some new.row := (rows new.jobId).trans (if_pos rfl)
      by_cases isNew : job = new.jobId
      · subst isNew
        refine .registered task new fresh rfl (.inr rfl)
          (by simp [NewLease.row, LeaseUpdate.apply, mode]) received (fun _ => ?_)
          (World.row_update_self found later) rfl
        rcases isOrigin with ⟨call, turn, peer, input, isResumed, thread, callId⟩
        exact ⟨call, turn, peer, input, isResumed, thread, callId⟩
      · refine .same ((World.row_update found later job).trans ?_)
        rw [if_neg isNew]
        exact (rows job).trans (if_neg isNew)
  | activateGoal task lease found _ terminal =>
      refine rowChange_of_update { deliveryState := some .activating } found ⟨rfl, le_refl _⟩ ?_ ?_
        job
      · exact fun _ => rfl
      · exact .committed _ found (WakeLease.isLive_of_terminal terminal) rfl rfl (.inr rfl)
  | interrupt task peer jobState found _ live =>
      refine rowChange_of_update
        { handoffState := some .interrupting, receiptState := some jobState } found
        ⟨rfl, le_refl _⟩ ?_ ?_ job
      · exact fun _ => rfl
      · exact .committed _ found live rfl rfl (.inl rfl)
  | activateSession task peer text found _ terminal =>
      refine rowChange_of_update { deliveryState := some .activating } found ⟨rfl, le_refl _⟩ ?_ ?_
        job
      · exact fun _ => rfl
      · exact .committed _ found (WakeLease.isLive_of_terminal terminal) rfl rfl (.inr rfl)
  | _ => exact .same rfl

/-- Rows stay in the table. -/
theorem Move.row_later {row : WakeLease} (move : Move origin world after)
    (found : world.row job = some row) : ∃ later, after.row job = some later ∧ row.Later later := by
  cases move.rowChange job with
  | same unchanged => exact ⟨row, unchanged.trans found, .refl row⟩
  | updated isRow legal isAfter =>
      rcases Option.some.inj (found.symm.trans isRow) with rfl
      exact ⟨_, isAfter, legal.later⟩
  | committed _ isRow _ sameState _ _ isAfter =>
      rcases Option.some.inj (found.symm.trans isRow) with rfl
      refine ⟨_, isAfter, rfl, ?_⟩
      simp [LeaseUpdate.apply, sameState]
  | registered _ _ fresh =>
      rw [found] at fresh
      contradiction

/-- A registration inserts the row. -/
theorem Move.row_of_registered (move : Move origin world after)
    (registered : after.trace = .registered task job :: world.trace) :
    ∃ row, after.row job = some row := by
  have noEvent {claim : Prop} (unchanged : after.trace = world.trace) : claim :=
    absurd (congrArg List.length (unchanged.symm.trans registered)) (by simp)
  cases move with
  | log event loggable =>
      rcases List.cons.inj registered with ⟨rfl, -⟩
      exact loggable.elim
  | register other new _ _ fresh created =>
      rcases List.cons.inj registered with ⟨isEvent, -⟩
      rcases Event.registered.inj isEvent with ⟨-, rfl⟩
      exact ⟨new.row, (BridgeState.get_createLease fresh created _).trans (if_pos rfl)⟩
  | registerSession other new _ _ fresh created =>
      rcases List.cons.inj registered with ⟨isEvent, -⟩
      rcases Event.registered.inj isEvent with ⟨-, rfl⟩
      have found : (({ world with store := _ } : World).log (.registered other new.jobId)).row
          new.jobId = some new.row :=
        (BridgeState.get_createLease fresh created _).trans (if_pos rfl)
      exact ⟨_, World.row_update_self found ⟨rfl, Nat.zero_le _⟩⟩
  | lockGoal | unlockGoal | activateGoal | interrupt | activateSession =>
      rcases List.cons.inj registered with ⟨isEvent, -⟩
      contradiction
  | _ => exact noEvent rfl

/-! ### Steps and runs -/

section Durable

variable (property : BridgeState → List Event → Prop) {allowed : World → Action → Prop}

/-- A property of what outlives the process is kept by a step that keeps it move by move. -/
theorem Reached.keeps (reached : Reached world) {action : Action}
    (taken : step world action = some after) (holds : property world.store world.trace)
    (started : ∀ store trace, property store trace → property store (.started :: trace))
    (move : ∀ before after, Inv before → property before.store before.trace →
      Move (world.resumes action) before after → property after.store after.trace) :
    property after.store after.trace := by
  cases progress reached.toInv taken with
  | moves moves =>
      refine moves.preserves (fun world => property world.store world.trace)
        (reached.toInv.entered action) ?_ move
      rw [World.entered_store, World.entered_trace]
      exact holds
  | crash => exact holds
  | connect => exact holds
  | start connecting =>
      have away : world.phase ≠ .serving := by rw [connecting]; decide
      rcases (reached.toInv.recovering (reached.offline away)).all none with ⟨moves, -⟩
      refine started _ _ ?_
      exact moves.preserves (fun world => property world.store world.trace) reached.toInv holds move

theorem Reached.run {first last : World} (reached : Reached first)
    (steps : coordinator.Steps allowed first last) : Reached last :=
  steps.preserves reached fun _ _ _ reached _ taken => reached.next taken

/-- The same for a run from a state in which it holds. -/
theorem Reached.keeps_run {first last : World} (reached : Reached first)
    (steps : coordinator.Steps allowed first last) (holds : property first.store first.trace)
    (started : ∀ store trace, property store trace → property store (.started :: trace))
    (move : ∀ world action before after, Reached world → allowed world action → Inv before →
      property before.store before.trace → Move (world.resumes action) before after →
      property after.store after.trace) : property last.store last.trace := by
  let both (world : World) : Prop := Reached world ∧ property world.store world.trace
  have holds : both last :=
    steps.preserves ⟨reached, holds⟩ fun world action next holds isAllowed taken =>
      ⟨holds.1.next taken, holds.1.keeps property taken holds.2 started fun before after inv kept =>
        move world action before after holds.1 isAllowed inv kept⟩
  exact holds.2

/-- And for every reachable state. -/
theorem durable (reachable : coordinator.ReachableBy allowed world)
    (initial : property .empty [])
    (started : ∀ store trace, property store trace → property store (.started :: trace))
    (move : ∀ world action before after, Reached world → allowed world action → Inv before →
      property before.store before.trace → Move (world.resumes action) before after →
      property after.store after.trace) : property world.store world.trace :=
  reached_initial.keeps_run property reachable initial started move

end Durable

theorem Reached.row_later {action : Action} {row : WakeLease} (reached : Reached world)
    (taken : step world action = some after) (found : world.row job = some row) :
    ∃ later, after.row job = some later ∧ row.Later later := by
  refine reached.keeps (fun store _ => ∃ later, store.get job = some later ∧ row.Later later)
    taken ⟨row, found, .refl row⟩ (fun _ _ holds => holds) ?_
  rintro before after - ⟨middle, isMiddle, later⟩ move
  rcases move.row_later isMiddle with ⟨last, isLast, later'⟩
  exact ⟨last, isLast, later.trans later'⟩

theorem Reached.isDone {action : Action} (reached : Reached world)
    (taken : step world action = some after) (done : world.isDone task = true) :
    after.isDone task = true := by
  cases progress reached.toInv taken with
  | moves moves => exact moves.isDone (World.isDone_entered action done)
  | crash => exact World.isDone_crash done
  | connect => exact done
  | start connecting =>
      have away : world.phase ≠ .serving := by rw [connecting]; decide
      rcases (reached.toInv.recovering (reached.offline away)).all none with ⟨moves, -⟩
      have recovered := moves.isDone done
      exact recovered

theorem Reached.trace_grows {action : Action} (reached : Reached world)
    (taken : step world action = some after) : world.trace <:+ after.trace := by
  refine reached.keeps (fun _ trace => world.trace <:+ trace) taken (List.suffix_refl _)
    (fun _ trace older => older.trans (List.suffix_cons _ _)) ?_
  intro before after _ older move
  exact older.trans move.trace_suffix

theorem Reached.trace_suffix {first last : World} {allowed : World → Action → Prop}
    (reached : Reached first) (steps : coordinator.Steps allowed first last) :
    first.trace <:+ last.trace := by
  refine reached.keeps_run (fun _ trace => first.trace <:+ trace) steps
    (List.suffix_refl _) (fun _ trace older => older.trans (List.suffix_cons _ _)) ?_
  intro _ _ before after _ _ _ older move
  exact older.trans move.trace_suffix

/-- The jobs that have been registered have rows. -/
def RegisteredRows (store : BridgeState) (trace : List Event) : Prop :=
  ∀ task job, .registered task job ∈ trace → ∃ row, store.get job = some row

theorem RegisteredRows.move (inv : Inv world) (rows : RegisteredRows world.store world.trace)
    (move : Move origin world after) : RegisteredRows after.store after.trace := by
  intro task job mem
  have older (mem : .registered task job ∈ world.trace) : ∃ row, after.row job = some row := by
    rcases rows task job mem with ⟨row, found⟩
    rcases move.row_later found with ⟨later, isLater, -⟩
    exact ⟨later, isLater⟩
  rcases move.announces inv with unchanged | ⟨event, isEvent, -⟩
  · exact older (unchanged ▸ mem)
  · rcases List.mem_cons.mp (isEvent ▸ mem) with rfl | before
    · exact move.row_of_registered isEvent
    · exact older before

theorem RegisteredRows.started {store : BridgeState} {trace : List Event}
    (rows : RegisteredRows store trace) : RegisteredRows store (.started :: trace) :=
  fun task job mem => rows task job ((List.mem_cons.mp mem).resolve_left (by simp))

theorem registeredRows {allowed : World → Action → Prop}
    (reachable : coordinator.ReachableBy allowed world) :
    RegisteredRows world.store world.trace :=
  durable RegisteredRows reachable (fun _ _ mem => by cases mem) (fun _ _ rows => rows.started)
    fun _ _ _ _ _ _ inv rows move => rows.move inv move

/-- Every new event of a step is announced by the state in which it happens. -/
theorem Moves.announces (inv : Inv world) (moves : Moves origin world after) {newer : List Event}
    (isNewer : after.trace = newer ++ world.trace) {event : Event} (mem : event ∈ newer) :
    ∃ before, Inv before ∧ Moves origin world before ∧ Announced origin before event := by
  induction moves generalizing newer with
  | refl =>
      have none : newer = [] := by simpa using isNewer
      simp [none] at mem
  | @tail before after moves move ih =>
      have inv' := inv.moves moves
      rcases Moves.trace_suffix moves with ⟨older, isOlder⟩
      rcases move.announces inv' with unchanged | ⟨last, isLast, announced⟩
      · exact ih (unchanged ▸ isNewer) mem
      · have isCons : newer = last :: older := by
          rw [← isOlder, ← List.cons_append] at isLast
          exact List.append_cancel_right (isNewer.symm.trans isLast)
        rcases List.mem_cons.mp (isCons ▸ mem) with rfl | mem
        · exact ⟨before, inv', moves, announced⟩
        · exact ih isOlder.symm mem

theorem Reached.announces (reached : Reached world) {action : Action}
    (taken : step world action = some after) {newer : List Event}
    (isNewer : after.trace = newer ++ world.trace) {event : Event} (mem : event ∈ newer)
    (notStarted : event.isStarted = false) :
    ∃ before, Inv before ∧ Moves (world.resumes action) (world.entered action) before ∧
      Announced (world.resumes action) before event := by
  cases progress reached.toInv taken with
  | moves moves =>
      rw [← world.entered_trace action] at isNewer
      exact moves.announces (reached.toInv.entered action) isNewer mem
  | crash =>
      have none : newer = [] := List.append_cancel_right (isNewer.symm.trans (List.nil_append _).symm)
      simp [none] at mem
  | connect =>
      have none : newer = [] := List.append_cancel_right (isNewer.symm.trans (List.nil_append _).symm)
      simp [none] at mem
  | start connecting =>
      have away : world.phase ≠ .serving := by rw [connecting]; decide
      rcases (reached.toInv.recovering (reached.offline away)).all none with ⟨moves, -⟩
      rcases moves.trace_suffix with ⟨older, isOlder⟩
      have isBoth : newer ++ world.trace = .started :: older ++ world.trace := by
        rw [← isNewer, List.cons_append, isOlder]
        rfl
      have isCons := List.append_cancel_right isBoth
      rcases List.mem_cons.mp (isCons ▸ mem) with rfl | mem
      · contradiction
      · exact moves.announces reached.toInv isOlder.symm mem

/-- The newest event of a longer trace is new. -/
theorem exists_newer {older trace : List Event} {event : Event} (suffix : older <:+ trace)
    (isHead : trace.head? = some event) (longer : older.length < trace.length) :
    ∃ newer, trace = newer ++ older ∧ event ∈ newer := by
  rcases suffix with ⟨newer, rfl⟩
  refine ⟨newer, rfl, ?_⟩
  cases newer with
  | nil => simp at longer
  | cons first newer => simp_all

/-! ### The step of a coroutine -/

@[simp]
theorem World.stop_row (task : TaskId) (stopped : World × Outcome) (job : JobId) :
    (World.stop task stopped).row job = stopped.1.row job := by
  rcases stopped with ⟨world, outcome⟩
  cases outcome with
  | await pc =>
      rw [World.stop, World.settle, World.issue]
      split <;> rfl
  | done => rfl
  | fail => rfl

theorem resumes_eq {action : Action} {pc : Pc} {input : Input}
    (resumes : world.resumes action = some ⟨task, pc, input⟩) :
    action = .resume task input ∧ world.At task pc := by
  cases action with
  | resume other given =>
      rw [World.resumes] at resumes
      split at resumes
      · rename_i suspended
        cases resumes
        exact ⟨rfl, suspended⟩
      · contradiction
  | _ => contradiction

theorem step_resume {input : Input} {pc : Pc} (taken : step world (.resume task input) = some after)
    (suspended : world.At task pc) : ∃ stopped,
      resume (world.goOn task pc input) task pc input = some stopped ∧
        after = World.stop task stopped := by
  obtain ⟨-, taken⟩ := by simpa [step] using taken
  rw [World.resumeTask, suspended] at taken
  dsimp only at taken
  split at taken
  · rcases Option.map_eq_some_iff.mp taken with ⟨stopped, goesOn, rfl⟩
    exact ⟨stopped, goesOn, rfl⟩
  · contradiction

end Longrun.Bridge
