import Longrun.Bridge.Quiet

/-!
# The evidence behind a session lease

A session lease is registered by a request, but a request alone proves nothing: the bridge arms
the lease for a connection that has shown the tool call, and only as long as that connection reads
the originating turn as the one in progress and the Goal as absent or complete. From then on
everything that is sent to continue the session goes over this connection to this thread.
-/

namespace Longrun.Bridge

variable {world before after : World} {task : TaskId} {job : JobId} {peer : PeerId}

/-! ### Evidence -/

/-- The Goal in an answer is absent or complete. -/
def GoalDone (result : Json) : Prop :=
  result.hasKey "goal" = true ∧ ((result.get "goal").eq .null = true ∨
    ((result.get "goal").isDict = true ∧
      ((result.get "goal").get "status").isStr "complete" = true))

/-- An answer shows a turn in progress as the latest one. -/
def TurnInProgress (turn : String) (result : Json) : Prop :=
  ∃ latest, latestTurn result = .ok latest ∧ isTurn latest (some turn) "inProgress" = true

/-- What a lease was armed on, newest first: its registration read the Goal, then the turn in
progress over the connection that had shown the call, then the Goal again over that connection.
The keys of a Goal that comes from a parser are distinct. -/
def Evidence (trace : List Event) (row : WakeLease) (peer : PeerId) : Prop :=
  ∃ task turn callId first latest second, row.turnId = some turn ∧ row.callId = some callId ∧
    GoalDone first ∧ TurnInProgress turn latest ∧
    ((second.get "goal").hasDistinctKeys = true → GoalDone second) ∧
    [.replied task row.jobId (.peer peer) (.goalGet row.threadId) (.ok second),
      .replied task row.jobId (.peer peer) (.turnsList row.threadId) (.ok latest),
      .replied task row.jobId .app (.goalGet row.threadId) (.ok first)].Sublist trace ∧
    [.replied task row.jobId (.peer peer) (.turnsList row.threadId) (.ok latest),
      .observed peer row.threadId callId turn].Sublist trace

/-- A request concerns the thread of a lease, and its turn. -/
def Rpc.Addresses (row : WakeLease) : Rpc → Prop
  | .turnInterrupt thread turn => thread = row.threadId ∧ turn = row.turnId
  | .injectItems thread _ | .turnStart thread _ => thread = row.threadId
  | _ => True

/-- Everything that was sent to continue a session went over one connection to its thread. -/
def SentOver (trace : List Event) (row : WakeLease) (peer : PeerId) : Prop :=
  ∀ event ∈ trace, event.continues row.jobId = true →
    ∃ task rpc, event = .sent task row.jobId (.peer peer) rpc ∧ rpc.Addresses row

/-- A connection controls a lease: there is evidence for it, everything sent for the lease went
over it, and no other connection is recorded as the owner. -/
structure Controls (world : World) (row : WakeLease) (peer : PeerId) : Prop where
  evidence : Evidence world.trace row peer
  sent : SentOver world.trace row peer
  owner : ∀ other, world.leasePeers.get? row.jobId = some other → other = peer

/-! ### What coroutines carry with them -/

/-- A registration has read a Goal that is absent or complete. -/
def GoalRead (trace : List Event) (task : TaskId) (call : SessionCall) : Prop :=
  ∃ first, GoalDone first ∧ first.get "goal" = call.goal ∧
    .replied task call.jobId .app (.goalGet call.threadId) (.ok first) ∈ trace

/-- After that it has read the observed turn as the one in progress. -/
def TurnRead (trace : List Event) (task : TaskId) (call : SessionCall) (turn : String)
    (peer : PeerId) : Prop :=
  ∃ first latest, GoalDone first ∧ first.get "goal" = call.goal ∧ TurnInProgress turn latest ∧
    [.replied task call.jobId (.peer peer) (.turnsList call.threadId) (.ok latest),
      .replied task call.jobId .app (.goalGet call.threadId) (.ok first)].Sublist trace ∧
    [.replied task call.jobId (.peer peer) (.turnsList call.threadId) (.ok latest),
      .observed peer call.threadId call.callId turn].Sublist trace

/-- The row of a copy of a session lease. -/
def World.SessionRow (world : World) (lease row : WakeLease) : Prop :=
  world.row lease.jobId = some row ∧ row.identity = lease.identity ∧ row.wakeMode = .session

/-- What stands behind a coroutine at an await. -/
def Backed (world : World) (task : TaskId) : Pc → Prop
  | .sessionObserved call | .sessionLock call _ _ => GoalRead world.trace task call
  | .sessionLatestTurn call turn peer => GoalRead world.trace task call ∧
      .observed peer call.threadId call.callId turn ∈ world.trace
  | .sessionGoalNow call turn peer => TurnRead world.trace task call turn peer
  | .handoff call await => match await with
    | .lock | .checkGoal | .latestTurn => True
    | _ => .sent task call.lease.jobId (.peer call.peer)
        (.turnInterrupt call.lease.threadId call.lease.turnId) ∈ world.trace
  | .wake lease peer _ => ∃ row, world.SessionRow lease row ∧ Controls world row peer
  | _ => True

/-- The invariant of the owners. -/
structure Bonded (world : World) : Prop where
  backed : ∀ task pc, world.At task pc → Backed world task pc
  controlled : ∀ job row, world.row job = some row → row.wakeMode = .session →
    ∃ peer, Controls world row peer
  recorded : ∀ job peer, world.leasePeers.get? job = some peer →
    ∃ row, world.row job = some row ∧ row.wakeMode = .session
  /-- A receipt is recorded after an interruption only. -/
  receipts : ∀ job, ∀ event ∈ world.trace, event.sends job Rpc.isReceipt = true →
    ∃ sent ∈ world.trace, sent.sends job Rpc.isInterrupt = true

theorem bonded_initial : Bonded World.initial where
  backed := fun _ _ suspended => (by cases suspended)
  controlled := fun _ _ found => (by cases found)
  recorded := fun _ _ found => (by cases found)
  receipts := fun _ _ mem => (by cases mem)

/-! ### Evidence lasts -/

theorem Evidence.mono {row later : WakeLease} {trace longer : List Event}
    (evidence : Evidence trace row peer) (same : row.identity = later.identity)
    (grows : trace.Sublist longer) : Evidence longer later peer := by
  rcases evidence with ⟨task, turn, callId, first, latest, second, isTurn, isCall, firstDone,
    inProgress, secondDone, reads, observed⟩
  have sameJob : row.jobId = later.jobId := congrArg (·.1) same
  have sameThread : row.threadId = later.threadId := congrArg (·.2.1) same
  have sameTurn : row.turnId = later.turnId := congrArg (·.2.2.2.2.2.1) same
  have sameCall : row.callId = later.callId := congrArg (·.2.2.2.2.2.2) same
  rw [sameTurn] at isTurn
  rw [sameCall] at isCall
  rw [sameJob, sameThread] at reads observed
  exact ⟨task, turn, callId, first, latest, second, isTurn, isCall, firstDone, inProgress,
    secondDone, reads.trans grows, observed.trans grows⟩

theorem Rpc.Addresses.congr {row later : WakeLease} {rpc : Rpc} (addresses : rpc.Addresses row)
    (same : row.identity = later.identity) : rpc.Addresses later := by
  have sameThread : row.threadId = later.threadId := congrArg (·.2.1) same
  have sameTurn : row.turnId = later.turnId := congrArg (·.2.2.2.2.2.1) same
  cases rpc with
  | turnInterrupt => exact ⟨addresses.1.trans sameThread, addresses.2.trans sameTurn⟩
  | injectItems | turnStart => exact addresses.trans sameThread
  | _ => trivial

theorem Event.continues_of_isPassive {event : Event} (passive : event.isPassive = true) :
    event.continues job = false := by
  cases event <;> first | rfl | contradiction

/-- What was sent stays as it was while only passive events are added. -/
theorem SentOver.mono {row later : WakeLease} {trace newer : List Event}
    (sent : SentOver trace row peer) (same : row.identity = later.identity)
    (idle : ∀ event ∈ newer, event.continues row.jobId = false) :
    SentOver (newer ++ trace) later peer := by
  have sameJob : row.jobId = later.jobId := congrArg (·.1) same
  intro event mem continues
  rw [← sameJob] at continues
  rcases List.mem_append.mp mem with mem | mem
  · rw [idle event mem] at continues
    contradiction
  · rcases sent event mem continues with ⟨task, rpc, isEvent, addresses⟩
    exact ⟨task, rpc, by rw [← sameJob]; exact isEvent, addresses.congr same⟩

theorem Controls.next {row later : WakeLease} {newer : List Event}
    (controls : Controls before row peer) (same : row.identity = later.identity)
    (trace : after.trace = newer ++ before.trace)
    (idle : ∀ event ∈ newer, event.continues row.jobId = false)
    (owner : ∀ other, after.leasePeers.get? row.jobId = some other →
      before.leasePeers.get? row.jobId = some other) : Controls after later peer where
  evidence := by
    refine controls.evidence.mono same ?_
    rw [trace]
    exact List.sublist_append_right _ _
  sent := by
    rw [trace]
    exact controls.sent.mono same idle
  owner := by
    have sameJob : row.jobId = later.jobId := congrArg (·.1) same
    intro other found
    rw [← sameJob] at found
    exact controls.owner other (owner other found)

theorem GoalRead.mono {call : SessionCall} {trace longer : List Event}
    (read : GoalRead trace task call) (grows : trace.Sublist longer) :
    GoalRead longer task call := by
  rcases read with ⟨first, done, isGoal, mem⟩
  exact ⟨first, done, isGoal, grows.subset mem⟩

theorem TurnRead.mono {call : SessionCall} {turn : String} {trace longer : List Event}
    (read : TurnRead trace task call turn peer) (grows : trace.Sublist longer) :
    TurnRead longer task call turn peer := by
  rcases read with ⟨first, latest, done, isGoal, inProgress, reads, observed⟩
  exact ⟨first, latest, done, isGoal, inProgress, reads.trans grows, observed.trans grows⟩

/-! ### Rows -/

/-- Rows stay, and no session lease is registered. -/
structure KeepsRows (before after : World) : Prop where
  later : ∀ job row, before.row job = some row → ∃ later, after.row job = some later ∧
    row.Later later
  earlier : ∀ job row, after.row job = some row → row.wakeMode = .session →
    ∃ earlier, before.row job = some earlier ∧ earlier.Later row

namespace KeepsRows

theorem same (rows : ∀ job, after.row job = before.row job) : KeepsRows before after where
  later := fun job row found => ⟨row, (rows job).trans found, .refl row⟩
  earlier := fun job row found _ => ⟨row, (rows job).symm.trans found, .refl row⟩

theorem congr {first last : World} (keeps : KeepsRows before after)
    (firstRows : ∀ job, first.row job = before.row job)
    (lastRows : ∀ job, last.row job = after.row job) : KeepsRows first last where
  later := by
    intro job row found
    rw [lastRows]
    exact keeps.later job row ((firstRows job).symm.trans found)
  earlier := by
    intro job row found
    rw [firstRows]
    exact keeps.earlier job row ((lastRows job).symm.trans found)

theorem move {origin : Option Origin} {next : World} (keeps : KeepsRows before after)
    (move : Move origin after next)
    (unarmed : ∀ task call turn peer input,
      origin ≠ some ⟨task, .sessionGoalNow call turn peer, input⟩) : KeepsRows before next where
  later := by
    intro job row found
    rcases keeps.later job row found with ⟨middle, isMiddle, isLater⟩
    rcases move.row_later isMiddle with ⟨last, isLast, later⟩
    exact ⟨last, isLast, isLater.trans later⟩
  earlier := by
    intro job row found session
    have kept {middle : WakeLease} (isMiddle : after.row job = some middle) :
        ∃ earlier, before.row job = some earlier ∧ earlier.Later row := by
      rcases move.row_later isMiddle with ⟨last, isLast, later⟩
      rcases Option.some.inj (found.symm.trans isLast) with rfl
      rcases keeps.earlier job middle isMiddle (later.wakeMode.symm.trans session) with
        ⟨first, isFirst, isLater⟩
      exact ⟨first, isFirst, isLater.trans later⟩
    cases move.rowChange job with
    | same unchanged => exact kept (unchanged.symm.trans found)
    | updated isMiddle => exact kept isMiddle
    | committed _ isMiddle => exact kept isMiddle
    | registered _ _ _ _ _ _ _ isOrigin isAfter =>
        rcases Option.some.inj (found.symm.trans isAfter) with rfl
        rcases isOrigin session with ⟨call, turn, peer, input, isOrigin, -⟩
        exact absurd isOrigin (unarmed _ _ _ _ _)

theorem moves {origin : Option Origin} (inv : Inv before) (moves : Moves origin before after)
    (unarmed : ∀ task call turn peer input,
      origin ≠ some ⟨task, .sessionGoalNow call turn peer, input⟩) : KeepsRows before after :=
  moves.preserves (KeepsRows before) inv (.same fun _ => rfl)
    fun _ _ _ keeps move => keeps.move move unarmed

/-- Session leases are registered by the last step of a session registration only. -/
theorem step {action : Action} (reached : Reached world) (taken : step world action = some after)
    (unarmed : ∀ task call turn peer input,
      world.resumes action ≠ some ⟨task, .sessionGoalNow call turn peer, input⟩) :
    KeepsRows world after := by
  cases progress reached.toInv taken with
  | moves moved =>
      have keeps := moves (reached.toInv.entered action) moved unarmed
      refine keeps.congr (fun job => ?_) fun _ => rfl
      rw [World.row, World.row, World.entered_store]
  | crash => exact .same fun _ => rfl
  | connect => exact .same fun _ => rfl
  | start connecting =>
      have away : world.phase ≠ .serving := by rw [connecting]; decide
      rcases (reached.toInv.recovering (reached.offline away)).all none with ⟨recovered, -⟩
      exact (moves reached.toInv recovered fun _ _ _ _ _ => nofun).congr (fun _ => rfl)
        fun _ => rfl

end KeepsRows

/-! ### The invariant through quiet changes -/

theorem Quiet.sublist (quiet : Quiet before after) : before.trace.Sublist after.trace := by
  rcases quiet.events with ⟨newer, trace, -⟩
  rw [trace]
  exact List.sublist_append_right _ _

theorem Controls.quiet {row later : WakeLease} (controls : Controls before row peer)
    (quiet : Quiet before after) (same : row.identity = later.identity) :
    Controls after later peer := by
  rcases quiet.events with ⟨newer, trace, passive⟩
  exact controls.next same trace
    (fun event mem => Event.continues_of_isPassive (passive event mem))
    (fun other => quiet.leasePeers row.jobId other)

theorem World.SessionRow.next {lease row : WakeLease} (session : before.SessionRow lease row)
    (rows : KeepsRows before after) :
    ∃ later, after.SessionRow lease later ∧ row.identity = later.identity := by
  rcases session with ⟨found, same, mode⟩
  rcases rows.later _ row found with ⟨later, isLater, kept⟩
  exact ⟨later, ⟨isLater, kept.1.trans same, kept.wakeMode.trans mode⟩, kept.1.symm⟩

/-- What stands behind a coroutine lasts, given that the lease of a delivery stays controlled. -/
theorem Backed.mono {pc : Pc} (backed : Backed before task pc)
    (grows : before.trace.Sublist after.trace)
    (delivered : ∀ lease peer await row, pc = .wake lease peer await →
      before.SessionRow lease row → Controls before row peer →
      ∃ later, after.SessionRow lease later ∧ Controls after later peer) :
    Backed after task pc := by
  cases pc with
  | sessionObserved | sessionLock => exact GoalRead.mono backed grows
  | sessionLatestTurn => exact ⟨backed.1.mono grows, grows.subset backed.2⟩
  | sessionGoalNow => exact TurnRead.mono backed grows
  | handoff call await =>
      cases await with
      | lock | checkGoal | latestTurn => trivial
      | _ => exact grows.subset backed
  | wake lease peer await =>
      rcases backed with ⟨row, session, controls⟩
      exact delivered lease peer await row rfl session controls
  | _ => trivial

theorem Backed.quiet {pc : Pc} (backed : Backed before task pc) (quiet : Quiet before after)
    (rows : KeepsRows before after) : Backed after task pc := by
  refine backed.mono quiet.sublist fun lease peer await row _ session controls => ?_
  rcases session.next rows with ⟨later, isLater, same⟩
  exact ⟨later, isLater, controls.quiet quiet same⟩

theorem Backed.of_isStart {pc : Pc} (start : pc.isStart = true) : Backed world task pc := by
  cases pc <;> trivial

theorem Backed.of_isPlain {pc : Pc} (plain : pc.isPlain = true) : Backed world task pc := by
  cases pc with
  | handoff call await => cases await <;> trivial
  | _ => trivial

theorem Bonded.receipts_quiet (bonded : Bonded before) (quiet : Quiet before after) (job : JobId) :
    ∀ event ∈ after.trace, event.sends job Rpc.isReceipt = true →
      ∃ sent ∈ after.trace, sent.sends job Rpc.isInterrupt = true := by
  intro event mem isReceipt
  rcases quiet.events with ⟨newer, trace, passive⟩
  rw [trace] at mem
  rcases List.mem_append.mp mem with mem | mem
  · have isPassive := passive event mem
    cases event <;> contradiction
  · rcases bonded.receipts job event mem isReceipt with ⟨sent, isSent, interrupts⟩
    exact ⟨sent, quiet.sublist.subset isSent, interrupts⟩

theorem Bonded.quiet (bonded : Bonded before) (quiet : Quiet before after)
    (rows : KeepsRows before after) : Bonded after where
  backed := by
    intro task pc suspended
    rcases quiet.waits task pc suspended with suspended | start
    · exact (bonded.backed task pc suspended).quiet quiet rows
    · exact .of_isStart start
  controlled := by
    intro job row found session
    rcases rows.earlier job row found session with ⟨earlier, isEarlier, later⟩
    rcases bonded.controlled job earlier isEarlier (later.wakeMode.symm.trans session) with
      ⟨peer, controls⟩
    exact ⟨peer, controls.quiet quiet later.1.symm⟩
  recorded := by
    intro job peer found
    rcases bonded.recorded job peer (quiet.leasePeers job peer found) with ⟨row, isRow, session⟩
    rcases rows.later job row isRow with ⟨later, isLater, kept⟩
    exact ⟨later, isLater, kept.wakeMode.trans session⟩
  receipts := bonded.receipts_quiet quiet

/-! ### Sending -/

/-- A request may be sent: if it continues a session, it goes over the connection that controls
the lease. -/
def SendsOver (world : World) (job : JobId) (via : Channel) (rpc : Rpc) : Prop :=
  ∀ row owning, world.row job = some row → Controls world row owning →
    (Event.sent 0 job via rpc).continues job = true →
    via = .peer owning ∧ rpc.Addresses row

section Send

variable {via : Channel} {rpc : Rpc}

theorem Event.continues_sent {owner : JobId}
    (continues : (Event.sent task job via rpc).continues owner = true) :
    job = owner ∧ (Event.sent 0 job via rpc).continues job = true := by
  simp only [Event.continues, Event.sends_sent, Bool.or_eq_true, Bool.and_eq_true,
    decide_eq_true_eq] at continues ⊢
  tauto

theorem Controls.send {row : WakeLease} (controls : Controls world row peer)
    (found : world.row row.jobId = some row) (task : TaskId)
    (allowed : SendsOver world job via rpc) :
    Controls (world.log (.sent task job via rpc)) row peer where
  evidence := controls.evidence.mono rfl (List.sublist_cons_self _ _)
  sent := by
    intro event mem continues
    rcases List.mem_cons.mp mem with rfl | mem
    · rcases Event.continues_sent continues with ⟨rfl, continues⟩
      rcases allowed row peer found controls continues with ⟨rfl, addresses⟩
      exact ⟨task, rpc, rfl, addresses⟩
    · exact controls.sent event mem continues
  owner := controls.owner

theorem Backed.send {other : TaskId} {pc : Pc} (backed : Backed world other pc) (task : TaskId)
    (allowed : SendsOver world job via rpc) :
    Backed (world.log (.sent task job via rpc)) other pc := by
  refine backed.mono (List.sublist_cons_self _ _) fun lease peer await row _ session controls => ?_
  have found : world.row row.jobId = some row := by
    rw [BridgeState.jobId_of_get session.1]
    exact session.1
  exact ⟨row, session, controls.send found task allowed⟩

theorem Bonded.send (bonded : Bonded world) (task : TaskId)
    (allowed : SendsOver world job via rpc)
    (receipt : rpc.isReceipt = true →
      ∃ sent ∈ world.trace, sent.sends job Rpc.isInterrupt = true) :
    Bonded (world.log (.sent task job via rpc)) where
  backed := fun other pc suspended => (bonded.backed other pc suspended).send task allowed
  controlled := by
    intro other row found session
    rcases bonded.controlled other row found session with ⟨peer, controls⟩
    have isRow : world.row row.jobId = some row := by
      rw [BridgeState.jobId_of_get found]
      exact found
    exact ⟨peer, controls.send isRow task allowed⟩
  recorded := bonded.recorded
  receipts := by
    intro other event mem isReceipt
    have before : ∃ sent ∈ world.trace, sent.sends other Rpc.isInterrupt = true := by
      rcases List.mem_cons.mp mem with rfl | mem
      · simp only [Event.sends_sent, Bool.and_eq_true, decide_eq_true_eq] at isReceipt
        rcases isReceipt with ⟨rfl, isReceipt⟩
        exact receipt isReceipt
      · exact bonded.receipts other event mem isReceipt
    rcases before with ⟨sent, isSent, interrupts⟩
    exact ⟨sent, List.mem_cons_of_mem _ isSent, interrupts⟩

end Send

/-! ### Stopping -/

/-- What a coroutine has made sure of when it gets to an await. Before it interrupts the turn or
starts the next one it has looked the owner up. -/
def Enters (world : World) (task : TaskId) : Pc → Prop
  | .handoff call (.interrupt _) => (∃ row, world.SessionRow call.lease row) ∧
      world.leasePeers.get? call.lease.jobId = some call.peer
  | .handoff call .inject => (∃ row, world.SessionRow call.lease row) ∧
      Backed world task (.handoff call .inject)
  | .wake lease peer .lock => (∃ row, world.SessionRow lease row) ∧
      world.leasePeers.get? lease.jobId = some peer
  | .wake lease peer (.turnStart current) =>
      Backed world task (.wake lease peer (.turnStart current)) ∧
        world.leasePeers.get? lease.jobId = some peer
  | pc => Backed world task pc

theorem Enters.of_isPlain {pc : Pc} (plain : pc.isPlain = true) : Enters world task pc := by
  cases pc with
  | handoff call await => cases await <;> trivial
  | _ => trivial

namespace World

theorem at_settle {outcome : Outcome} {other : TaskId} {pc : Pc}
    (suspended : (world.settle task outcome).At other pc) :
    (other = task ∧ outcome = .await pc) ∨ world.At other pc := by
  cases outcome with
  | await entered =>
      have sameTasks : (world.issue task entered).tasks = world.tasks := by
        rw [issue]
        split <;> rfl
      rcases at_setTask suspended with ⟨isTask, same⟩ | ⟨-, suspended⟩
      · rcases TaskStatus.suspended.inj same with rfl
        exact .inl ⟨isTask, rfl⟩
      · rw [At, sameTasks] at suspended
        exact .inr suspended
  | done | fail =>
      rcases at_setTask suspended with ⟨-, finished⟩ | ⟨-, suspended⟩
      · contradiction
      · exact .inr suspended

end World

/-- A coroutine that has ended leaves an entry in the trace only. -/
theorem Quiet.ends {outcome : Outcome} (ends : outcome.Ends) (task : TaskId) :
    Quiet world (world.settle task outcome) where
  leasePeers := by
    cases outcome <;> first | exact fun _ _ found => found | exact ends.elim
  waits := by
    intro other pc suspended
    rcases World.at_settle suspended with ⟨-, rfl⟩ | suspended
    · exact ends.elim
    · exact .inl suspended
  events := by
    cases outcome with
    | await => exact ends.elim
    | done | fail =>
        refine ⟨[_], rfl, fun event mem => ?_⟩
        rw [List.mem_singleton.mp mem]
        rfl

theorem Backed.setTask {pc : Pc} (backed : Backed world task pc) (other : TaskId)
    (status : TaskStatus) : Backed (world.setTask other status) task pc := by
  cases pc with
  | handoff call await => cases await <;> exact backed
  | wake =>
      rcases backed with ⟨row, session, controls⟩
      exact ⟨row, session, { controls with }⟩
  | _ => exact backed

theorem Bonded.suspend {pc : Pc} (bonded : Bonded world) (backed : Backed world task pc) :
    Bonded (world.setTask task (.suspended pc)) where
  backed := by
    intro other otherPc suspended
    rcases World.at_setTask suspended with ⟨rfl, same⟩ | ⟨-, suspended⟩
    · rcases TaskStatus.suspended.inj same with rfl
      exact backed.setTask _ _
    · exact (bonded.backed other otherPc suspended).setTask _ _
  controlled := by
    intro job row found session
    rcases bonded.controlled job row found session with ⟨peer, controls⟩
    exact ⟨peer, { controls with }⟩
  recorded := bonded.recorded
  receipts := bonded.receipts

/-- The awaits that continue a session. -/
theorem Pc.continues_cases {pc : Pc} {via : Channel} {rpc : Rpc}
    (awaits : pc.awaits = some (job, via, rpc))
    (continues : (Event.sent 0 job via rpc).continues job = true) :
    (∃ call done, pc = .handoff call (.interrupt done)) ∨ (∃ call, pc = .handoff call .inject) ∨
      ∃ lease peer current, pc = .wake lease peer (.turnStart current) := by
  cases rpc with
  | turnInterrupt | injectItems | turnStart =>
      cases pc with
      | handoff call await | wake lease peer await | deliver lease await =>
          cases await <;> simp [Pc.awaits] at awaits ⊢
      | _ => simp [Pc.awaits] at awaits
  | _ => simp [Event.continues, Rpc.isInterrupt, Rpc.isReceipt, Rpc.isTurnStart] at continues

/-- What was looked up before a request is what `SendsOver` asks for. -/
theorem Enters.sendsOver {pc : Pc} (entered : Enters world task pc) {via : Channel} {rpc : Rpc}
    (awaits : pc.awaits = some (job, via, rpc)) : SendsOver world job via rpc := by
  intro row owning found controls continues
  have isJob : row.jobId = job := BridgeState.jobId_of_get found
  have sameRow {lease other : WakeLease} (session : world.SessionRow lease other)
      (isLease : lease.jobId = job) :
      lease.threadId = row.threadId ∧ lease.turnId = row.turnId := by
    rcases Option.some.inj (found.symm.trans (isLease ▸ session.1)) with rfl
    exact ⟨(congrArg (·.2.1) session.2.1).symm, (congrArg (·.2.2.2.2.2.1) session.2.1).symm⟩
  rcases Pc.continues_cases awaits continues with
    ⟨call, done, rfl⟩ | ⟨call, rfl⟩ | ⟨lease, peer, current, rfl⟩
  · rcases entered with ⟨⟨other, session⟩, owned⟩
    obtain ⟨rfl, rfl, rfl⟩ : call.lease.jobId = job ∧ Channel.peer call.peer = via ∧
        Rpc.turnInterrupt call.lease.threadId call.lease.turnId = rpc := by
      simpa [Pc.awaits] using awaits
    exact ⟨congrArg _ (controls.owner _ (isJob ▸ owned)), sameRow session rfl⟩
  · rcases entered with ⟨⟨other, session⟩, interrupted⟩
    obtain ⟨rfl, rfl, rfl⟩ : call.lease.jobId = job ∧ Channel.peer call.peer = via ∧
        Rpc.injectItems call.lease.threadId (receipt call) = rpc := by
      simpa [Pc.awaits] using awaits
    -- The interruption that came before went over the same connection.
    rcases controls.sent _ interrupted (by simp [Event.continues, isJob, Rpc.isInterrupt])
      with ⟨sender, request, isEvent, -⟩
    injection isEvent with _ _ sameVia _
    exact ⟨sameVia, (sameRow session rfl).1⟩
  · rcases entered with ⟨⟨other, session, -⟩, owned⟩
    obtain ⟨rfl, rfl, rfl⟩ : lease.jobId = job ∧ Channel.peer peer = via ∧
        Rpc.turnStart lease.threadId (wakeMessage current) = rpc := by
      simpa [Pc.awaits] using awaits
    exact ⟨congrArg _ (controls.owner _ (isJob ▸ owned)), (sameRow session rfl).1⟩

/-- A receipt is recorded by a handoff that has interrupted its turn. -/
theorem Enters.interrupted {pc : Pc} (entered : Enters world task pc) {via : Channel} {rpc : Rpc}
    (awaits : pc.awaits = some (job, via, rpc)) (isReceipt : rpc.isReceipt = true) :
    ∃ sent ∈ world.trace, sent.sends job Rpc.isInterrupt = true := by
  rcases Pc.continues_cases awaits (by simp [Event.continues, isReceipt]) with
    ⟨call, done, rfl⟩ | ⟨call, rfl⟩ | ⟨lease, peer, current, rfl⟩
  · obtain ⟨-, -, rfl⟩ : call.lease.jobId = job ∧ Channel.peer call.peer = via ∧
        Rpc.turnInterrupt call.lease.threadId call.lease.turnId = rpc := by
      simpa [Pc.awaits] using awaits
    contradiction
  · obtain ⟨rfl, -, -⟩ : call.lease.jobId = job ∧ Channel.peer call.peer = via ∧
        Rpc.injectItems call.lease.threadId (receipt call) = rpc := by
      simpa [Pc.awaits] using awaits
    exact ⟨_, entered.2, by simp [Rpc.isInterrupt]⟩
  · obtain ⟨-, -, rfl⟩ : lease.jobId = job ∧ Channel.peer peer = via ∧
        Rpc.turnStart lease.threadId (wakeMessage current) = rpc := by
      simpa [Pc.awaits] using awaits
    contradiction

/-- What stands behind a coroutine once it is suspended: an interruption is then in the trace, and
the delivery of a lease has found the connection that controls it. -/
theorem Bonded.enters {pc : Pc} (bonded : Bonded world) (entered : Enters world task pc) :
    Backed (world.issue task pc) task pc := by
  have issued (backed : Backed world task pc) : Backed (world.issue task pc) task pc := by
    rw [World.issue]
    split
    · rename_i awaits
      exact backed.send task (entered.sendsOver awaits)
    · exact backed
  cases pc with
  | handoff call await =>
      cases await with
      | interrupt => exact List.mem_cons_self
      | inject => exact issued entered.2
      | _ => exact issued entered
  | wake lease peer await =>
      cases await with
      | lock =>
          rcases entered with ⟨⟨row, session⟩, owned⟩
          rcases bonded.controlled _ row session.1 session.2.2 with ⟨owning, controls⟩
          have isJob : row.jobId = lease.jobId := BridgeState.jobId_of_get session.1
          rcases controls.owner peer (isJob ▸ owned) with rfl
          exact ⟨row, session, controls⟩
      | turnStart => exact issued entered.1
      | _ => exact issued entered
  | _ => exact issued entered

theorem Bonded.settle (bonded : Bonded world) {outcome : Outcome}
    (entered : ∀ pc, outcome = .await pc → Enters world task pc) :
    Bonded (world.settle task outcome) := by
  cases outcome with
  | await pc =>
      have enters := entered pc rfl
      refine Bonded.suspend ?_ (bonded.enters enters)
      rw [World.issue]
      split
      · rename_i awaits
        exact bonded.send task (enters.sendsOver awaits) (enters.interrupted awaits)
      · exact bonded
  | done result =>
      have ends : (Outcome.done result).Ends := trivial
      exact bonded.quiet (.ends ends task) (.same fun _ => rfl)
  | fail raised =>
      have ends : (Outcome.fail raised).Ends := trivial
      exact bonded.quiet (.ends ends task) (.same fun _ => rfl)

/-! ### Arming -/

/-- The state in which a registration records the owner of a lease: nothing has been sent for the
lease and nobody delivers it, so another connection may take it over. -/
structure Arms (before between : World) (job : JobId) (peer : PeerId) : Prop where
  quiet : Quiet before between
  unsent : ∀ event ∈ before.trace, event.continues job = false
  undelivered : ∀ task lease owner await, before.At task (.wake lease owner await) →
    lease.jobId ≠ job
  rows : ∀ other, other ≠ job → between.row other = before.row other
  armed : ∃ row, between.row job = some row ∧ row.wakeMode = .session ∧
    Evidence between.trace row peer

section Arming

variable {between : World} (arms : Arms before between job peer)

include arms

/-- The other leases are controlled as before. -/
theorem Arms.controls {row : WakeLease} {owning : PeerId} (controls : Controls before row owning)
    (other : row.jobId ≠ job) : Controls (SessionBridge.setLeasePeer between job peer) row owning := by
  rcases arms.quiet.events with ⟨newer, trace, passive⟩
  refine controls.next rfl trace
    (fun event mem => Event.continues_of_isPassive (passive event mem)) fun recorded found => ?_
  rw [SessionBridge.setLeasePeer_leasePeers, Dict.get?_set_of_ne _ _ other] at found
  exact arms.quiet.leasePeers _ recorded found

theorem Bonded.arm (bonded : Bonded before) :
    Bonded (SessionBridge.setLeasePeer between job peer) where
  backed := by
    intro task pc suspended
    rcases arms.quiet.waits task pc suspended with suspended | start
    · refine (bonded.backed task pc suspended).mono arms.quiet.sublist ?_
      rintro lease owner await row rfl ⟨found, session⟩ controls
      have other := arms.undelivered task lease owner await suspended
      have isJob : row.jobId = lease.jobId := BridgeState.jobId_of_get found
      exact ⟨row, ⟨(arms.rows _ other).trans found, session⟩,
        arms.controls controls (isJob ▸ other)⟩
    · exact .of_isStart start
  controlled := by
    intro other row found session
    by_cases isJob : other = job
    · subst isJob
      rcases arms.armed with ⟨armed, isArmed, -, evidence⟩
      rcases Option.some.inj (isArmed.symm.trans found) with rfl
      have sameJob : armed.jobId = other := BridgeState.jobId_of_get isArmed
      refine ⟨peer, evidence, fun event mem continues => ?_, fun recorded isRecorded => ?_⟩
      · rw [sameJob] at continues
        rcases arms.quiet.events with ⟨newer, trace, passive⟩
        have idle : event.continues other = false := by
          rcases List.mem_append.mp (trace ▸ mem) with mem | mem
          · exact Event.continues_of_isPassive (passive event mem)
          · exact arms.unsent event mem
        rw [idle] at continues
        contradiction
      · rw [sameJob, SessionBridge.setLeasePeer_leasePeers, Dict.get?_set_self] at isRecorded
        exact (Option.some.inj isRecorded).symm
    · have isRow : before.row other = some row := (arms.rows other isJob).symm.trans found
      rcases bonded.controlled other row isRow session with ⟨owning, controls⟩
      have sameJob : row.jobId = other := BridgeState.jobId_of_get isRow
      exact ⟨owning, arms.controls controls (sameJob ▸ isJob)⟩
  recorded := by
    intro other owning found
    by_cases isJob : other = job
    · subst isJob
      rcases arms.armed with ⟨armed, isArmed, session, -⟩
      exact ⟨armed, isArmed, session⟩
    · rw [SessionBridge.setLeasePeer_leasePeers, Dict.get?_set_of_ne _ _ isJob] at found
      rcases bonded.recorded other owning (arms.quiet.leasePeers other owning found) with
        ⟨row, isRow, session⟩
      exact ⟨row, (arms.rows other isJob).trans isRow, session⟩
  receipts := fun other event mem => bonded.receipts_quiet arms.quiet other event mem

end Arming

end Longrun.Bridge
