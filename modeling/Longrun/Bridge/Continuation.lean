import Longrun.Bridge.Scenario

/-!
# The continuation of a session

A session lease interrupts its originating turn at most once and starts at most one continuation
turn, after a handoff that the App Server has confirmed. User activity on the thread takes the
continuation back.
-/

namespace Longrun.Bridge

variable {origin : Option Origin} {world after : World} {task : TaskId} {job : JobId}
  {thread : ThreadId} {callId : String}

theorem WakeLease.Later.turnId {before after : WakeLease} (later : before.Later after) :
    after.turnId = before.turnId := congrArg (·.2.2.2.2.2.1) later.1

/-! ### Interrupts and continuation turns -/

/-- The events of a trace since the process was started. -/
def processEvents (trace : List Event) : List Event :=
  trace.takeWhile fun event => !event.isStarted

/-- Every interrupt names the originating turn of the job's lease. -/
def InterruptsNamed (job : JobId) (store : BridgeState) (trace : List Event) : Prop :=
  ∀ task via thread turn, .sent task job via (.turnInterrupt thread turn) ∈ trace →
    ∃ row, store.get job = some row ∧ thread = row.threadId ∧ turn = row.turnId

theorem InterruptsNamed.move (inv : Inv world)
    (named : InterruptsNamed job world.store world.trace) (move : Move origin world after) :
    InterruptsNamed job after.store after.trace := by
  intro task via thread turn mem
  have keeps {row : WakeLease} (found : world.row job = some row) (isThread : thread = row.threadId)
      (isTurn : turn = row.turnId) :
      ∃ row, after.row job = some row ∧ thread = row.threadId ∧ turn = row.turnId := by
    rcases move.row_later found with ⟨later, isLater, same⟩
    exact ⟨later, isLater, isThread.trans same.threadId.symm, isTurn.trans same.turnId.symm⟩
  have old (mem : .sent task job via (.turnInterrupt thread turn) ∈ world.trace) :
      ∃ row, after.row job = some row ∧ thread = row.threadId ∧ turn = row.turnId := by
    rcases named task via thread turn mem with ⟨row, found, isThread, isTurn⟩
    exact keeps found isThread isTurn
  rcases move.announces inv with unchanged | ⟨event, isEvent, announced⟩
  · exact old (unchanged ▸ mem)
  · rcases List.mem_cons.mp (isEvent ▸ mem) with rfl | mem
    · have sends : (Event.sent task job via (.turnInterrupt thread turn)).sends job
          Rpc.isInterrupt = true := by simp [Rpc.isInterrupt]
      rcases announced.of_interrupt sends with ⟨row, found, -, -, -, _, _, same⟩
      cases same
      exact keeps found rfl rfl
    · exact old mem

/-- Every continuation turn comes after a confirmed handoff and a terminal event, both in the same
process. -/
def TurnStartsConfirmed (job : JobId) (store : BridgeState) (trace : List Event) : Prop :=
  ∀ newer older event, trace = newer ++ event :: older →
    event.sends job Rpc.isTurnStart = true →
    ∃ row, store.get job = some row ∧ HandoffConfirmed (processEvents older) row ∧
      .terminalRecorded job ∈ processEvents older

theorem TurnStartsConfirmed.move (inv : Inv world)
    (confirmed : TurnStartsConfirmed job world.store world.trace)
    (move : Move origin world after) : TurnStartsConfirmed job after.store after.trace := by
  intro newer older event isTrace sends
  have keeps {row : WakeLease} (found : world.row job = some row)
      (handedOff : HandoffConfirmed (processEvents older) row)
      (recorded : .terminalRecorded job ∈ processEvents older) :
      ∃ row, after.row job = some row ∧ HandoffConfirmed (processEvents older) row ∧
        .terminalRecorded job ∈ processEvents older := by
    rcases move.row_later found with ⟨later, isLater, same⟩
    exact ⟨later, isLater, handedOff.congr same.jobId same.threadId same.turnId, recorded⟩
  have old {newer : List Event} (isTrace : world.trace = newer ++ event :: older) :
      ∃ row, after.row job = some row ∧ HandoffConfirmed (processEvents older) row ∧
        .terminalRecorded job ∈ processEvents older := by
    rcases confirmed newer older event isTrace sends with ⟨row, found, handedOff, recorded⟩
    exact keeps found handedOff recorded
  rcases move.announces inv with unchanged | ⟨last, isLast, announced⟩
  · exact old (unchanged ▸ isTrace)
  · rw [isLast] at isTrace
    cases newer with
    | nil =>
        rcases List.cons.inj isTrace with ⟨rfl, rfl⟩
        rcases announced.of_turnStart sends with
          ⟨row, found, session, terminal, ready, serving, -⟩
        exact keeps found ((inv.jobs job).ready serving row found session
          (WakeLease.isLive_of_terminal terminal) ready)
          ((inv.jobs job).recorded serving row found session terminal)
    | cons first newer => exact old (List.cons.inj isTrace).2

namespace Pc

/-- The call of a registration that is in its exclusive section. -/
def enters : Pc → Option (ThreadId × String)
  | .sessionLatestTurn call _ _ | .sessionGoalNow call _ _ => some (call.threadId, call.callId)
  | _ => none

end Pc

/-- The call was observed, and then there was user activity on its thread. -/
def Superseded (thread : ThreadId) (callId : String) (newer older trace : List Event) : Prop :=
  trace = newer ++ .userActivity thread :: older ∧
    ∃ peer turn, .observed peer thread callId turn ∈ older

/-- A superseded call was not observed again. -/
def ObservedOnce (thread : ThreadId) (callId : String) (trace : List Event) : Prop :=
  ∀ newer older, Superseded thread callId newer older trace →
    ∀ peer turn, .observed peer thread callId turn ∉ newer

/-- A step without user activity on a thread during the exclusive section of a registration on
it. -/
def Exclusive (world : World) (action : Action) : Prop :=
  ∀ after newer thread, step world action = some after → after.trace = newer ++ world.trace →
    .userActivity thread ∈ newer →
    ∀ task pc callId, world.At task pc → pc.enters ≠ some (thread, callId)

/-- A request that continues the session of a job. -/
def Event.continues (job : JobId) (event : Event) : Bool :=
  event.sends job Rpc.isInterrupt || event.sends job Rpc.isReceipt ||
    event.sends job Rpc.isTurnStart

/-- No registration of the call can be completed any more. -/
def Barred (world : World) (thread : ThreadId) (callId : String) : Prop :=
  world.calls.get? (thread, callId) = none ∧
    ∀ task pc, world.At task pc → pc.enters ≠ some (thread, callId)

/-- The session lease of a call. -/
structure WakeLease.Belongs (row : WakeLease) (thread : ThreadId) (callId : String) : Prop where
  session : row.wakeMode = .session
  threadId : row.threadId = thread
  callId : row.callId = some callId

/-- The lease of a superseded call is revoked, and nothing has been sent for it since. -/
def TakenBack (job : JobId) (callId : String) (newer older : List Event) (thread : ThreadId)
    (store : BridgeState) : Prop :=
  ∀ row, store.get job = some row → row.Belongs thread callId →
    older.countP (·.sends job Rpc.isTurnStart) = 0 →
    row.isLive = false ∧ newer.countP (·.continues job) = 0

/-- After user activity a call is barred, and the lease that it was registered for is revoked. -/
def UserWins (world : World) (thread : ThreadId) (callId : String) (job : JobId) : Prop :=
  ∀ newer older, Superseded thread callId newer older world.trace →
    Barred world thread callId ∧ TakenBack job callId newer older thread world.store

/-! ### Moves after user activity -/

/-- A coroutine that is newly suspended was entitled to enter. -/
theorem Move.at_entry {pc : Pc} (move : Move origin world after) (suspended : after.At task pc) :
    world.At task pc ∨ Entry origin world task pc := by
  cases move with
  | run other otherPc input =>
      rcases World.at_setTask suspended with ⟨-, running⟩ | ⟨-, before⟩
      · contradiction
      · exact .inl before
  | suspend other otherPc running relies entry =>
      rcases World.at_setTask suspended with ⟨rfl, same⟩ | ⟨-, before⟩
      · cases same
        exact .inr entry
      · exact .inl before
  | finish other =>
      rcases World.at_setTask suspended with ⟨-, finished⟩ | ⟨-, before⟩
      · contradiction
      · exact .inl before
  | spawnDelivery =>
      rcases World.at_spawn suspended with ⟨-, same⟩ | before
      · cases same
        exact .inr trivial
      · exact .inl before
  | spawnDeadline =>
      rcases World.at_spawn suspended with ⟨-, same⟩ | before
      · cases same
        exact .inr trivial
      · exact .inl before
  | _ => exact .inl suspended

/-- A call is remembered where it has just been observed. -/
theorem Move.calls (move : Move origin world after) :
    after.calls = world.calls ∨ after.trace = world.trace ∧
      ∀ key call, after.calls.get? key = some call → world.calls.get? key = some call ∨
        world.trace.head? = some (.observed call.2 key.1 key.2 call.1) := by
  cases move with
  | setCalls calls allowed => exact .inr ⟨rfl, allowed⟩
  | _ => exact .inl rfl

/-- A row after a move was there before, or was inserted for a call in its exclusive section. -/
theorem Move.belongs {row : WakeLease} (move : Move origin world after)
    (found : after.row job = some row) (belongs : row.Belongs thread callId) :
    (∃ before, world.row job = some before ∧ before.Belongs thread callId ∧
        (row.isLive = true → before.isLive = true)) ∨
      ∃ resumed, origin = some resumed ∧ resumed.pc.enters = some (thread, callId) := by
  cases isBefore : world.row job with
  | some before =>
      rcases move.row_later isBefore with ⟨later, isLater, same⟩
      rcases Option.some.inj (found.symm.trans isLater) with rfl
      have sameCall : row.callId = before.callId := congrArg (·.2.2.2.2.2.2) same.1
      exact .inl ⟨before, rfl, ⟨same.wakeMode.symm.trans belongs.session,
        same.threadId.symm.trans belongs.threadId, sameCall.symm.trans belongs.callId⟩, same.live⟩
  | none =>
      cases move.rowChange job with
      | same unchanged => cases (unchanged.trans isBefore).symm.trans found
      | updated isRow => cases isBefore.symm.trans isRow
      | committed _ isRow => cases isBefore.symm.trans isRow
      | @registered inserted _ _ _ _ _ _ _ isOrigin isAfter =>
          rcases Option.some.inj (found.symm.trans isAfter) with rfl
          rcases isOrigin belongs.session with
            ⟨call, turn, peer, input, isOrigin, isThread, isCall⟩
          refine .inr ⟨_, isOrigin, ?_⟩
          have sameCall := Option.some.inj (isCall.symm.trans belongs.callId)
          rw [Pc.enters, ← isThread, belongs.threadId, sameCall]

/-- What holds in the course of a step: the coroutine that goes on does not complete a superseded
registration, and only such a coroutine enters an exclusive section. -/
structure Superseding (origin : Option Origin) (start world : World) (thread : ThreadId)
    (callId : String) (job : JobId) : Prop where
  wins : UserWins world thread callId job
  barred : ∀ newer older, Superseded thread callId newer older world.trace →
    ∀ resumed, origin = some resumed → resumed.pc.enters ≠ some (thread, callId)
  entered : ∀ task pc, world.At task pc → pc.enters ≠ none →
    start.At task pc ∨ ∃ resumed, origin = some resumed ∧ resumed.pc.isClient = false

theorem TakenBack.revoked {row : WakeLease} {newer older : List Event} {store : BridgeState}
    (taken : TakenBack job callId newer older thread store) (found : store.get job = some row)
    (belongs : row.Belongs thread callId)
    (unstarted : older.countP (·.sends job Rpc.isTurnStart) = 0) : row.isLive = false :=
  (taken row found belongs unstarted).1

/-- Nothing is sent for a lease that is not live. -/
theorem Announced.continues {row : WakeLease} {event : Event}
    (announced : Announced origin world event) (continues : event.continues job = true)
    (found : world.row job = some row) : row.isLive = true := by
  have isRow {current : WakeLease} (isCurrent : world.row job = some current)
      (live : current.isLive = true) : row.isLive = true := by
    rwa [Option.some.inj (found.symm.trans isCurrent)]
  rw [Event.continues, Bool.or_eq_true, Bool.or_eq_true] at continues
  rcases continues with (interrupt | receipt) | turnStart
  · rcases announced.of_interrupt interrupt with ⟨current, isCurrent, -, live, -⟩
    exact isRow isCurrent live
  · rcases announced.of_receipt receipt with ⟨current, isCurrent, live, -⟩
    exact isRow isCurrent live
  · rcases announced.of_turnStart turnStart with ⟨current, isCurrent, -, terminal, -⟩
    exact isRow isCurrent (WakeLease.isLive_of_terminal terminal)

namespace Superseding

variable {start : World} {newer older : List Event}

theorem entered_next (superseding : Superseding origin start world thread callId job)
    (move : Move origin world after) {pc : Pc} (suspended : after.At task pc)
    (enters : pc.enters ≠ none) :
    start.At task pc ∨ ∃ resumed, origin = some resumed ∧ resumed.pc.isClient = false := by
  rcases move.at_entry suspended with before | entry
  · exact superseding.entered task pc before enters
  · cases pc with
    | sessionLatestTurn call turn peer =>
        rcases entry with ⟨-, input, isOrigin⟩
        exact .inr ⟨_, isOrigin, rfl⟩
    | sessionGoalNow call turn peer =>
        rcases entry with ⟨input, isOrigin⟩
        exact .inr ⟨_, isOrigin, rfl⟩
    | _ => exact absurd rfl enters

/-- A call that was superseded before a move stays barred, and its lease revoked. -/
theorem keeps (superseding : Superseding origin start world thread callId job)
    (superseded : Superseded thread callId newer older world.trace)
    (move : Move origin world after) (once : ObservedOnce thread callId world.trace) :
    Barred after thread callId ∧ ∀ row, after.row job = some row → row.Belongs thread callId →
      older.countP (·.sends job Rpc.isTurnStart) = 0 →
      row.isLive = false ∧ newer.countP (·.continues job) = 0 ∧
        ∃ before, world.row job = some before ∧ before.isLive = false := by
  rcases superseding.wins newer older superseded with ⟨⟨forgotten, outside⟩, taken⟩
  have origin_ := superseding.barred newer older superseded
  refine ⟨⟨?_, fun task pc suspended => ?_⟩, fun row found belongs unstarted => ?_⟩
  · rw [Option.eq_none_iff_forall_ne_some]
    intro call isCall
    rcases move.calls with same | ⟨-, known⟩
    · rw [same, forgotten] at isCall
      contradiction
    · rcases known _ _ isCall with before | isHead
      · rw [forgotten] at before
        contradiction
      · -- It would have been observed again.
        rw [superseded.1] at isHead
        cases newer with
        | nil => simp at isHead
        | cons first newer =>
            obtain rfl := by simpa using isHead
            exact once _ _ superseded call.2 call.1 List.mem_cons_self
  · rcases move.at_entry suspended with before | entry
    · exact outside task pc before
    · cases pc with
      | sessionLatestTurn call turn peer =>
          rintro same
          rcases entry with ⟨isCall, -⟩
          rw [Option.some.inj same, forgotten] at isCall
          contradiction
      | sessionGoalNow call turn peer =>
          rcases entry with ⟨input, isOrigin⟩
          exact origin_ _ isOrigin
      | _ => exact (fun impossible => by cases impossible)
  · rcases move.belongs found belongs with
      ⟨before, isBefore, belongs, live⟩ | ⟨resumed, isOrigin, enters⟩
    · rcases taken before isBefore belongs unstarted with ⟨settled, none⟩
      refine ⟨?_, none, before, isBefore, settled⟩
      rw [← Bool.not_eq_true] at settled ⊢
      exact fun isLive => settled (live isLive)
    · exact absurd enters (origin_ resumed isOrigin)

end Superseding

theorem ObservedOnce.of_suffix {older trace : List Event}
    (once : ObservedOnce thread callId trace) (suffix : older <:+ trace) :
    ObservedOnce thread callId older := by
  rintro recent oldest ⟨rfl, observed⟩ peer turn mem
  rcases suffix with ⟨newest, rfl⟩
  exact once (newest ++ recent) oldest ⟨(List.append_assoc ..).symm, observed⟩ peer turn
    (List.mem_append_right _ mem)

namespace Superseding

variable {start : World}

/-- The user activity itself. -/
theorem of_activity (inv : Inv world)
    (superseding : Superseding origin start world thread callId job)
    (move : Move origin world after) (active : after.trace = .userActivity thread :: world.trace)
    (exclusive : ∀ task pc, start.At task pc → pc.enters ≠ some (thread, callId)) :
    Barred after thread callId ∧ TakenBack job callId [] world.trace thread after.store := by
  have announced : Announced origin world (.userActivity thread) := by
    rcases move.announces inv with unchanged | ⟨event, isEvent, announced⟩
    · exact absurd (congrArg List.length (unchanged.symm.trans active)) (by simp)
    · rcases List.cons.inj (isEvent.symm.trans active) with ⟨rfl, -⟩
      exact announced
  cases announced with
  | loggable loggable =>
      rcases loggable with ⟨revoked, forgotten, client⟩
      refine ⟨⟨?_, fun task pc suspended enters => ?_⟩, fun row found belongs unstarted => ?_⟩
      · rcases move.calls with same | ⟨unchanged, -⟩
        · rw [same]
          exact forgotten callId
        · exact absurd (congrArg List.length (unchanged.symm.trans active)) (by simp)
      · rcases superseding.entered_next move suspended (by simp [enters]) with
          before | ⟨resumed, isOrigin, notClient⟩
        · exact exclusive task pc before enters
        · rw [client _ _ _ isOrigin] at notClient
          contradiction
      · rcases move.belongs found belongs with
          ⟨before, isBefore, belongs, live⟩ | ⟨resumed, isOrigin, enters⟩
        · refine ⟨?_, rfl⟩
          rw [← Bool.not_eq_true]
          intro isLive
          have activating := revoked job before isBefore belongs.threadId belongs.session
            (live isLive)
          have sent := (inv.jobs job).starting before isBefore belongs.session activating
          rw [unstarted] at sent
          contradiction
        · have isClient := client _ _ _ isOrigin
          cases pc : resumed.pc <;> simp [pc, Pc.enters, Pc.isClient] at enters isClient

/-- A move keeps all this, unless it is user activity during an exclusive section. -/
theorem move (inv : Inv world) (superseding : Superseding origin start world thread callId job)
    (move : Move origin world after) (once : ObservedOnce thread callId after.trace)
    (exclusive : after.trace = .userActivity thread :: world.trace →
      ∀ task pc, start.At task pc → pc.enters ≠ some (thread, callId)) :
    Superseding origin start after thread callId job := by
  have onceBefore : ObservedOnce thread callId world.trace := once.of_suffix move.trace_suffix
  refine ⟨?_, ?_, fun task pc suspended enters => superseding.entered_next move suspended enters⟩
  · rintro newer older ⟨isTrace, observed⟩
    rcases move.announces inv with unchanged | ⟨event, isEvent, announced⟩
    · have superseded : Superseded thread callId newer older world.trace :=
        ⟨unchanged ▸ isTrace, observed⟩
      rcases superseding.keeps superseded move onceBefore with ⟨barred, taken⟩
      refine ⟨barred, fun row found belongs unstarted => ?_⟩
      rcases taken row found belongs unstarted with ⟨settled, none, -⟩
      exact ⟨settled, none⟩
    · rw [isEvent] at isTrace
      cases newer with
      | nil =>
          rcases List.cons.inj isTrace with ⟨rfl, rfl⟩
          exact superseding.of_activity inv move isEvent (exclusive isEvent)
      | cons first newer =>
          rcases List.cons.inj isTrace with ⟨rfl, isOld⟩
          have superseded : Superseded thread callId newer older world.trace := ⟨isOld, observed⟩
          rcases superseding.keeps superseded move onceBefore with ⟨barred, taken⟩
          refine ⟨barred, fun row found belongs unstarted => ?_⟩
          rcases taken row found belongs unstarted with ⟨settled, none, before, isBefore, dead⟩
          refine ⟨settled, ?_⟩
          rw [List.countP_cons, none]
          cases continues : event.continues job with
          | false => rfl
          | true =>
              rw [announced.continues continues isBefore] at dead
              contradiction
  · rintro newer older ⟨isTrace, observed⟩ resumed isOrigin
    rcases move.announces inv with unchanged | ⟨event, isEvent, announced⟩
    · exact superseding.barred newer older ⟨unchanged ▸ isTrace, observed⟩ resumed isOrigin
    · rw [isEvent] at isTrace
      cases newer with
      | nil =>
          rcases List.cons.inj isTrace with ⟨rfl, rfl⟩
          cases announced with
          | loggable loggable =>
              have isClient := loggable.2.2 _ _ _ isOrigin
              cases pc : resumed.pc <;> simp [pc, Pc.enters, Pc.isClient] at isClient ⊢
      | cons first newer =>
          exact superseding.barred newer older ⟨(List.cons.inj isTrace).2, observed⟩ resumed
            isOrigin

end Superseding

/-! ### Steps after user activity -/

namespace Superseding

variable {start : World}

theorem moves (inv : Inv world) (superseding : Superseding origin start world thread callId job)
    (moves : Moves origin world after) (once : ObservedOnce thread callId after.trace)
    (exclusive : ∀ newer, after.trace = newer ++ world.trace → .userActivity thread ∈ newer →
      ∀ task pc, start.At task pc → pc.enters ≠ some (thread, callId)) :
    Superseding origin start after thread callId job := by
  induction moves with
  | refl => exact superseding
  | @tail middle after moves move ih =>
      rcases move.trace_suffix with ⟨last, isLast⟩
      rcases Moves.trace_suffix moves with ⟨newer, isNewer⟩
      refine (ih (once.of_suffix move.trace_suffix) ?_).move (inv.moves moves) move once ?_
      · intro given isGiven mem
        refine exclusive (last ++ given) ?_ (List.mem_append_right _ mem)
        rw [← isLast, isGiven, List.append_assoc]
      · intro active
        refine exclusive (.userActivity thread :: newer) ?_ List.mem_cons_self
        rw [active, ← isNewer, List.cons_append]

end Superseding

namespace UserWins

theorem superseding {action : Action} (wins : UserWins world thread callId job) :
    Superseding (world.resumes action) world (world.entered action) thread callId job := by
  have isOld {task : TaskId} {pc : Pc} (suspended : (world.entered action).At task pc) :
      world.At task pc := by
    cases action with
    | request | clientMessage =>
        exact (World.at_spawn suspended).resolve_left fun running => by cases running.2
    | _ => exact suspended
  refine ⟨?_, ?_, fun task pc suspended _ => .inl (isOld suspended)⟩
  · rintro newer older ⟨isTrace, observed⟩
    rw [World.entered_trace] at isTrace
    rcases wins newer older ⟨isTrace, observed⟩ with ⟨⟨forgotten, outside⟩, taken⟩
    rw [TakenBack, World.entered_store]
    refine ⟨⟨?_, fun task pc suspended => outside task pc (isOld suspended)⟩, taken⟩
    cases action <;> exact forgotten
  · rintro newer older ⟨isTrace, observed⟩ ⟨task, pc, input⟩ isOrigin
    rw [World.entered_trace] at isTrace
    exact (wins newer older ⟨isTrace, observed⟩).1.2 task pc (resumes_eq isOrigin).2

/-- The same for a state without coroutines and observed calls. -/
theorem of_restart (wins : UserWins world thread callId job) (trace : after.trace = world.trace)
    (store : after.store = world.store) (calls : after.calls.get? (thread, callId) = none)
    (idle : ∀ task pc, ¬after.At task pc) : UserWins after thread callId job := by
  intro newer older superseded
  rw [trace] at superseded
  refine ⟨⟨calls, fun task pc suspended => absurd suspended (idle task pc)⟩, ?_⟩
  rw [store]
  exact (wins newer older superseded).2

theorem step {action : Action} (reached : Reached world)
    (wins : UserWins world thread callId job) (exclusive : Exclusive world action)
    (taken : step world action = some after) (once : ObservedOnce thread callId after.trace) :
    UserWins after thread callId job := by
  cases progress reached.toInv taken with
  | moves moves =>
      refine (wins.superseding.moves (reached.toInv.entered action) moves once ?_).wins
      intro newer isNewer mem task pc suspended
      rw [World.entered_trace] at isNewer
      exact exclusive after newer thread taken isNewer mem task pc callId suspended
  | crash => exact wins.of_restart rfl rfl rfl fun task pc => world.crash_idle task pc
  | connect => exact wins
  | start connecting =>
      have away : world.phase ≠ .serving := by rw [connecting]; decide
      have offline := reached.offline away
      have begins : Superseding none world world thread callId job :=
        ⟨wins, fun _ _ _ _ => (fun impossible => by cases impossible), fun _ _ suspended _ => .inl suspended⟩
      rcases (reached.toInv.recovering offline).all none with ⟨moves, -⟩
      have recovered := begins.moves reached.toInv moves
        (once.of_suffix (List.suffix_cons _ _))
        fun _ _ _ task pc suspended => absurd suspended (offline.suspended task pc)
      rintro newer older ⟨isTrace, observed⟩
      cases newer with
      | nil => cases (List.cons.inj isTrace).1
      | cons first newer =>
          rcases List.cons.inj isTrace with ⟨rfl, isOld⟩
          rcases recovered.wins newer older ⟨isOld, observed⟩ with ⟨barred, taken⟩
          refine ⟨barred, fun row found belongs unstarted => ?_⟩
          rcases taken row found belongs unstarted with ⟨settled, none⟩
          exact ⟨settled, (List.countP_cons ..).trans none⟩

end UserWins

/-- User activity on a thread takes back the continuation of a session job whose call was observed
before it, if no registration on the thread was in its exclusive section and the call is not
observed again. -/
theorem user_wins (reachable : coordinator.ReachableBy Exclusive world)
    (once : ObservedOnce thread callId world.trace) {newer older : List Event}
    (superseded : Superseded thread callId newer older world.trace) {row : WakeLease}
    (found : world.row job = some row) (belongs : row.Belongs thread callId)
    (unstarted : older.countP (·.sends job Rpc.isTurnStart) = 0) :
    newer.countP (·.continues job) = 0 := by
  let property (world : World) : Prop :=
    ObservedOnce thread callId world.trace → UserWins world thread callId job
  have wins : property world := by
    refine reachable.invariant_of_reachable ?_ ?_
    · intro _ newer older superseded
      exact absurd superseded.1 (by simp [coordinator, World.initial])
    · intro state action next reachable wins exclusive taken once
      have reached := reached_of_reachable reachable
      exact (wins (once.of_suffix (reached.trace_grows taken))).step reached exclusive taken once
  exact ((wins once newer older superseded).2 row found belongs unstarted).2

/-! ### Registrations that user activity overtakes -/

def Event.isUserActivity : Event → Bool
  | .userActivity _ => true
  | _ => false

/-- No registration is in its exclusive section. -/
def unentered (world : World) : Bool :=
  world.tasks.all fun
    | .suspended pc => pc.enters.isNone
    | _ => true

/-- The new events of a step are no user activity, or no registration is in its exclusive
section. -/
def isExclusive (world : World) (action : Action) : Bool :=
  (step world action).all (fun after =>
    (after.trace.take (after.trace.length - world.trace.length)).all (!·.isUserActivity)) ||
      unentered world

theorem exclusive_of_isExclusive {action : Action} (holds : isExclusive world action = true) :
    Exclusive world action := by
  intro after newer thread taken isNewer mem task pc callId suspended enters
  rcases Bool.or_eq_true_iff.mp holds with inactive | unentered
  · simp only [taken, isNewer, List.length_append, Nat.add_sub_cancel, List.take_left',
      Option.all_some] at inactive
    simpa [Event.isUserActivity] using List.all_eq_true.mp inactive _ mem
  · have outside := List.all_eq_true.mp unentered _ (List.mem_of_getElem? suspended)
    simp [enters] at outside

/-- The observation of a call on a thread. -/
def Event.observes (thread : ThreadId) (callId : String) : Event → Bool
  | .observed _ seen call _ => seen = thread && call = callId
  | _ => false

theorem observedOnce_of_count {trace : List Event}
    (once : trace.countP (·.observes thread callId) ≤ 1) : ObservedOnce thread callId trace := by
  rintro newer older ⟨rfl, peer, turn, mem⟩ other again isNewer
  have first : 0 < older.countP (·.observes thread callId) :=
    List.countP_pos_iff.mpr ⟨_, mem, by simp [Event.observes]⟩
  have second : 0 < newer.countP (·.observes thread callId) :=
    List.countP_pos_iff.mpr ⟨_, isNewer, by simp [Event.observes]⟩
  rw [List.countP_append, List.countP_cons] at once
  omega

/-- The newest event is user activity on the thread of an observed call whose continuation turn was
not started. -/
def justSuperseded (world : World) (thread : ThreadId) (callId : String) (job : JobId) : Bool :=
  match world.trace with
  | .userActivity active :: older => active = thread &&
      0 < older.countP (·.observes thread callId) &&
      older.countP (·.sends job Rpc.isTurnStart) = 0
  | _ => false

theorem superseded_of_justSuperseded (holds : justSuperseded world thread callId job = true) :
    ∃ older, Superseded thread callId [] older world.trace ∧
      older.countP (·.sends job Rpc.isTurnStart) = 0 := by
  unfold justSuperseded at holds
  split at holds
  · rename_i active older isTrace
    simp only [Bool.and_eq_true, decide_eq_true_eq] at holds
    rcases holds with ⟨⟨rfl, observed⟩, unstarted⟩
    rcases List.countP_pos_iff.mp observed with ⟨event, mem, observes⟩
    cases event with
    | observed peer seen call turn =>
        simp only [Event.observes, Bool.and_eq_true, decide_eq_true_eq] at observes
        rcases observes with ⟨rfl, rfl⟩
        exact ⟨older, ⟨isTrace, peer, turn, mem⟩, unstarted⟩
    | _ => simp [Event.observes] at observes
  · contradiction

/-- The job has a session lease of the call. -/
def belongsTo (world : World) (job : JobId) (thread : ThreadId) (callId : String) : Bool :=
  (world.row job).any fun row =>
    row.wakeMode = .session && row.threadId = thread && row.callId = some callId

theorem belongs_of_belongsTo (holds : belongsTo world job thread callId = true) :
    ∃ row, world.row job = some row ∧ row.Belongs thread callId := by
  rcases (Option.any_eq_true _ _).mp holds with ⟨row, found, belongs⟩
  simp only [Bool.and_eq_true, decide_eq_true_eq] at belongs
  exact ⟨row, found, belongs.1.1, belongs.1.2, belongs.2⟩

/-- A message of the user on a second connection, during the exclusive section of a registration. -/
def overtakenRun : List Action :=
  Scenario.startUp ++ Scenario.enterSession Scenario.firstJob 0 0 ++
    [Scenario.userTurn 1, .resume 1 .ready]

/-- The registration and its handoff go on. -/
def overtakenHandoff : List Action :=
  [Scenario.reply 0 Scenario.noGoal, Scenario.handoff Scenario.firstJob, .resume 3 .ready,
    Scenario.reply 3 Scenario.noGoal, Scenario.reply 3 (Scenario.turns "inProgress")]

/-- After user activity the turn is interrupted all the same. -/
theorem user_overtaken : ∃ world newer older row, coordinator.Reachable world ∧
    Superseded Scenario.thread Scenario.callId newer older world.trace ∧
    world.row Scenario.firstJob = some row ∧ row.Belongs Scenario.thread Scenario.callId ∧
    older.countP (·.sends Scenario.firstJob Rpc.isTurnStart) = 0 ∧
    0 < newer.countP (·.continues Scenario.firstJob) := by
  have ran : (coordinator.run World.initial overtakenRun).any (fun first =>
      justSuperseded first Scenario.thread Scenario.callId Scenario.firstJob &&
        (coordinator.run first overtakenHandoff).any fun last =>
          belongsTo last Scenario.firstJob Scenario.thread Scenario.callId &&
            first.trace.countP (·.continues Scenario.firstJob) <
              last.trace.countP (·.continues Scenario.firstJob)) = true := by
    decide +kernel
  rcases System.exists_reachable_of_run ran with ⟨first, reachable, holds⟩
  rcases Bool.and_eq_true_iff.mp holds with ⟨superseded, holds⟩
  rcases (Option.any_eq_true _ _).mp holds with ⟨last, ran, holds⟩
  rcases Bool.and_eq_true_iff.mp holds with ⟨belongs, more⟩
  rcases superseded_of_justSuperseded superseded with ⟨older, ⟨isTrace, observed⟩, unstarted⟩
  rcases belongs_of_belongsTo belongs with ⟨row, found, belongs⟩
  have steps := System.steps_of_run ran
  rcases (reached_of_reachable reachable).trace_suffix steps with ⟨newer, isNewer⟩
  refine ⟨last, newer, older, row, reachable.steps steps, ⟨?_, observed⟩, found, belongs,
    unstarted, ?_⟩
  · rw [← isNewer, isTrace, List.nil_append]
  · rw [← isNewer, List.countP_append] at more
    simpa using more

/-- A message of the user after the registration, and then a handoff that is refused. -/
theorem user_wins_handoff : ∃ (world : World) (newer older : List Event) (row : WakeLease),
    Superseded Scenario.thread Scenario.callId newer older world.trace ∧
    world.row Scenario.firstJob = some row ∧ row.Belongs Scenario.thread Scenario.callId ∧
    newer ≠ [] ∧ newer.countP (·.continues Scenario.firstJob) = 0 := by
  have ran : (coordinator.runBy isExclusive World.initial (Scenario.startUp ++
      Scenario.armSession Scenario.firstJob 0 0 ++ [Scenario.userTurn 1, .resume 2 .ready])).any
      (fun first =>
        justSuperseded first Scenario.thread Scenario.callId Scenario.firstJob &&
          (coordinator.runBy isExclusive first [Scenario.handoff Scenario.firstJob]).any fun last =>
            belongsTo last Scenario.firstJob Scenario.thread Scenario.callId &&
              last.trace.countP (·.observes Scenario.thread Scenario.callId) ≤ 1 &&
              first.trace.length < last.trace.length) = true := by
    decide +kernel
  rcases (Option.any_eq_true _ _).mp ran with ⟨first, ran, holds⟩
  rcases Bool.and_eq_true_iff.mp holds with ⟨superseded, holds⟩
  rcases (Option.any_eq_true _ _).mp holds with ⟨last, ranLast, holds⟩
  simp only [Bool.and_eq_true, decide_eq_true_eq] at holds
  rcases holds with ⟨⟨belongs, once⟩, longer⟩
  rcases superseded_of_justSuperseded superseded with ⟨older, ⟨isTrace, observed⟩, unstarted⟩
  rcases belongs_of_belongsTo belongs with ⟨row, found, belongs⟩
  have reachable : coordinator.ReachableBy Exclusive first :=
    System.steps_of_runBy (fun _ _ => exclusive_of_isExclusive) ran
  have steps : coordinator.Steps Exclusive first last :=
    System.steps_of_runBy (fun _ _ => exclusive_of_isExclusive) ranLast
  rcases (reached_of_reachable reachable).trace_suffix steps with ⟨newer, isNewer⟩
  have superseded : Superseded Scenario.thread Scenario.callId newer older last.trace :=
    ⟨by rw [← isNewer, isTrace, List.nil_append], observed⟩
  refine ⟨last, newer, older, row, superseded, found, belongs, ?_, user_wins
    (reachable.steps steps) (observedOnce_of_count once) superseded found belongs unstarted⟩
  rintro rfl
  rw [← isNewer] at longer
  simp at longer

end Longrun.Bridge
