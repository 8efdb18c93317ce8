import Longrun.Bridge.Continuation

/-!
# What coroutines and handlers leave alone

The table of the owners of leases is written by registrations only; everything else at most takes
entries out of it. In the same way a coroutine that runs to its next await sends nothing before it
gets there, and starts other tasks only at their beginning. This file goes through all of them
once, so that the properties of owners are proved without looking at them again.
-/

namespace Longrun.Bridge

variable {world before middle after : World} {task : TaskId} {job : JobId}

/-- Neither a request that is sent nor a call that is observed. -/
def Event.isPassive : Event → Bool
  | .sent _ _ _ _ | .observed _ _ _ _ => false
  | _ => true

/-- The beginning of a task that another one starts. -/
def Pc.isStart : Pc → Bool
  | .deliver _ .start | .deadline _ .start => true
  | _ => false

/-- Owners are at most forgotten, other tasks at most started, and nothing is sent. -/
structure Quiet (before after : World) : Prop where
  leasePeers : ∀ job peer, after.leasePeers.get? job = some peer →
    before.leasePeers.get? job = some peer
  waits : ∀ task pc, after.At task pc → before.At task pc ∨ pc.isStart = true
  events : ∃ newer, after.trace = newer ++ before.trace ∧ ∀ event ∈ newer, event.isPassive = true

namespace Quiet

theorem refl (world : World) : Quiet world world where
  leasePeers := fun _ _ found => found
  waits := fun _ _ suspended => .inl suspended
  events := ⟨[], rfl, fun _ mem => (by cases mem)⟩

theorem trans (first : Quiet before middle) (second : Quiet middle after) : Quiet before after where
  leasePeers := fun job peer found => first.leasePeers job peer (second.leasePeers job peer found)
  waits := by
    intro task pc suspended
    rcases second.waits task pc suspended with suspended | start
    · exact first.waits task pc suspended
    · exact .inr start
  events := by
    rcases first.events with ⟨older, isMiddle, olderPassive⟩
    rcases second.events with ⟨newer, isAfter, newerPassive⟩
    refine ⟨newer ++ older, by rw [isAfter, isMiddle, List.append_assoc], ?_⟩
    intro event mem
    rcases List.mem_append.mp mem with mem | mem
    · exact newerPassive event mem
    · exact olderPassive event mem

/-- A change of the other components. -/
theorem same (quiet : Quiet before middle) (tasks : after.tasks = middle.tasks)
    (leasePeers : after.leasePeers = middle.leasePeers) (trace : after.trace = middle.trace) :
    Quiet before after where
  leasePeers := by
    rw [leasePeers]
    exact quiet.leasePeers
  waits := by
    intro task pc suspended
    rw [World.At, tasks] at suspended
    exact quiet.waits task pc suspended
  events := by
    rw [trace]
    exact quiet.events

theorem log (quiet : Quiet before middle) {event : Event} (passive : event.isPassive = true) :
    Quiet before (middle.log event) where
  leasePeers := quiet.leasePeers
  waits := quiet.waits
  events := by
    rcases quiet.events with ⟨newer, isMiddle, newerPassive⟩
    refine ⟨event :: newer, by rw [World.log_trace, isMiddle, List.cons_append], ?_⟩
    intro other mem
    rcases List.mem_cons.mp mem with rfl | mem
    · exact passive
    · exact newerPassive other mem

theorem update (quiet : Quiet before middle) (job : JobId) (fields : LeaseUpdate) :
    Quiet before (middle.update job fields) :=
  quiet.same rfl rfl rfl

theorem popLeasePeer (quiet : Quiet before middle) (job : JobId) :
    Quiet before (middle.popLeasePeer job) where
  leasePeers := fun other peer found => quiet.leasePeers other peer (Dict.get?_of_pop found)
  waits := quiet.waits
  events := quiet.events

theorem unlockPeer (quiet : Quiet before middle) (peer : PeerId) :
    Quiet before (middle.unlockPeer peer) :=
  quiet.same rfl rfl rfl

theorem lockPeer (quiet : Quiet before middle) (task : TaskId) (peer : PeerId) :
    Quiet before (middle.lockPeer task peer) :=
  quiet.same rfl rfl rfl

theorem lockGoal (quiet : Quiet before middle) (task : TaskId) (thread : ThreadId) :
    Quiet before (middle.lockGoal task thread) :=
  (quiet.log (show (Event.acquired task thread).isPassive = true from rfl)).same rfl rfl rfl

theorem unlockGoal (quiet : Quiet before middle) (task : TaskId) (thread : ThreadId) :
    Quiet before (middle.unlockGoal task thread) :=
  (quiet.log (show (Event.released task thread).isPassive = true from rfl)).same rfl rfl rfl

theorem popDelivery (quiet : Quiet before middle) (job : JobId) :
    Quiet before (middle.popDelivery job) :=
  quiet.same rfl rfl rfl

theorem scheduleDelivery (quiet : Quiet before middle) (lease : WakeLease) :
    Quiet before (middle.scheduleDelivery lease) := by
  rcases middle.scheduleDelivery_cases lease with same | ⟨spawned, -⟩
  · rw [same]
    exact quiet
  · refine ⟨?_, ?_, ?_⟩
    · rw [spawned]
      exact quiet.leasePeers
    · intro task pc suspended
      rcases World.at_scheduleDelivery suspended with suspended | rfl
      · exact quiet.waits task pc suspended
      · exact .inr rfl
    · rw [spawned]
      exact quiet.events

theorem scheduleDeadline (quiet : Quiet before middle) (lease : WakeLease) :
    Quiet before (middle.scheduleDeadline lease) := by
  rcases middle.scheduleDeadline_cases lease with same | spawned
  · rw [same]
    exact quiet
  · refine ⟨?_, ?_, ?_⟩
    · rw [spawned]
      exact quiet.leasePeers
    · intro task pc suspended
      rcases World.at_scheduleDeadline suspended with suspended | rfl
      · exact quiet.waits task pc suspended
      · exact .inr rfl
    · rw [spawned]
      exact quiet.events

theorem cancelDelivery (quiet : Quiet before middle) (job : JobId) :
    Quiet before (middle.cancelDelivery job) := by
  unfold World.cancelDelivery
  split
  · exact quiet.same rfl rfl rfl
  · exact quiet

theorem cancelDeadline (quiet : Quiet before middle) (job : JobId) :
    Quiet before (middle.cancelDeadline job) := by
  unfold World.cancelDeadline
  split
  · exact quiet.same rfl rfl rfl
  · exact quiet

theorem abandonForManualChange (quiet : Quiet before middle) (thread : ThreadId)
    (reason : String) : Quiet before (abandonForManualChange middle thread reason) := by
  have goal : Quiet before (GoalBridge.abandonForManualChange middle thread reason) := by
    unfold GoalBridge.abandonForManualChange
    split
    · exact quiet
    · split
      · exact quiet
      · exact ((quiet.update _ _).cancelDelivery _).cancelDeadline _
  unfold Bridge.abandonForManualChange
  dsimp only
  split
  · exact goal
  · split
    · exact goal.popLeasePeer _
    · exact goal

theorem userActivity (quiet : Quiet before middle) (thread : ThreadId) :
    Quiet before (SessionBridge.userActivity middle thread) := by
  have unset : Quiet before (SessionBridge.setCalls middle
      (middle.calls.filter fun entry => entry.1.1 ≠ thread)) := quiet.same rfl rfl rfl
  have forgotten := unset.log (show (Event.userActivity thread).isPassive = true from rfl)
  unfold SessionBridge.userActivity
  dsimp only
  split
  · split
    · exact forgotten.abandonForManualChange _ _
    · exact forgotten
  · exact forgotten

theorem sessionFailed (quiet : Quiet before middle) (job : JobId) (reason : String) :
    Quiet before (SessionBridge.sessionFailed middle job reason) := by
  rcases SessionBridge.sessionFailed_cases middle job reason with ⟨same, -⟩ | ⟨_, -, -, failed⟩
  · rw [same]
    exact quiet
  · rw [failed]
    exact (quiet.update _ _).popLeasePeer _

/-- A series of quiet changes. -/
theorem foldl {Item : Type} {change : World → Item → World}
    (quiet : ∀ world item, Quiet world (change world item)) (items : List Item) (world : World) :
    Quiet world (items.foldl change world) := by
  induction items generalizing world with
  | nil => exact .refl world
  | cons item items ih => exact (quiet world item).trans (ih _)

end Quiet

/-! ### Coroutines -/

namespace Pc

/-- An await that asks nothing of what came before: not one in the course of a session
registration, of a handoff that has interrupted its turn or of a delivery. -/
def isPlain : Pc → Bool
  | .sessionObserved _ | .sessionLock _ _ _ | .sessionLatestTurn _ _ _ | .sessionGoalNow _ _ _
  | .wake _ _ _ => false
  | .handoff _ await => match await with
    | .lock | .checkGoal | .latestTurn => true
    | _ => false
  | _ => true

end Pc

def Outcome.isPlain : Outcome → Bool
  | .await pc => pc.isPlain
  | _ => true

/-- A coroutine that quietly stops at a plain await or for good. -/
structure Harmless (world : World) (stopped : World × Outcome) : Prop where
  quiet : Quiet world stopped.1
  plain : stopped.2.isPlain = true

namespace Harmless

theorem refl (world : World) {outcome : Outcome} (plain : outcome.isPlain = true) :
    Harmless world (world, outcome) := ⟨.refl world, plain⟩

theorem of_quiet {stopped : World × Outcome} (quiet : Quiet before middle)
    (harmless : Harmless middle stopped) : Harmless before stopped :=
  ⟨quiet.trans harmless.quiet, harmless.plain⟩

end Harmless

/-! ### The Goal bridge -/

namespace GoalBridge

theorem prepare_harmless (world : World) (job : JobId) (request : Json) :
    Harmless world (prepare world job request) := by
  unfold prepare
  split
  · exact .refl world rfl
  · split
    · split
      · exact .refl world rfl
      · exact .refl world rfl
    · exact .refl world rfl

theorem prepareFailed_harmless (world : World) (call : PrepareCall) (raised : Raised) :
    Harmless world (prepareFailed world call raised) := by
  have popped : Quiet world (world.popExpected call.threadId) := (Quiet.refl world).same rfl rfl rfl
  have abandoned : Quiet world
      (abandonPreparing (world.popExpected call.threadId) call.jobId raised) := by
    unfold abandonPreparing
    split
    · split
      · exact popped.update _ _
      · exact popped
    · exact popped
  exact ⟨abandoned.same rfl rfl rfl, rfl⟩

theorem createLease_quiet {new : NewLease} {lease : WakeLease}
    (created : createLease world task new = .ok (after, lease)) : Quiet world after := by
  rcases createLease_cases created with ⟨store, -, -, -, -, rfl⟩ | ⟨rfl, -, -⟩
  · have stored : Quiet world ({ world with store := store } : World) :=
      (Quiet.refl world).same rfl rfl rfl
    exact stored.log rfl
  · exact .refl _

theorem prepareRegister_harmless (world : World) (task : TaskId) (call : PrepareCall)
    (result : Except PyError Json) : Harmless world (prepareRegister world task call result) := by
  unfold prepareRegister
  split
  · exact .refl world rfl
  · split
    · exact .refl world rfl
    · rename_i created
      exact ⟨(createLease_quiet created).same rfl rfl rfl, rfl⟩

theorem preparePaused_harmless (world : World) (call : PrepareCall) (lease : WakeLease)
    (updatedAt : Int) (result : Except PyError Json) :
    Harmless world (preparePaused world call lease updatedAt result) := by
  unfold preparePaused
  split
  · exact prepareFailed_harmless ..
  · exact .refl world rfl

theorem prepareCommit_harmless (world : World) (call : PrepareCall) (lease : WakeLease)
    (updatedAt pausedUpdatedAt : Int) (result : Except PyError Json) :
    Harmless world (prepareCommit world call lease updatedAt pausedUpdatedAt result) := by
  unfold prepareCommit
  split
  · exact prepareFailed_harmless ..
  · rename_i current _
    have committed : Quiet world ((world.update call.jobId
        (commitFields current pausedUpdatedAt)).popPauseNotifications call.threadId) :=
      ((Quiet.refl world).update call.jobId (commitFields current pausedUpdatedAt)).same rfl rfl rfl
    dsimp only
    split
    · exact ⟨committed.scheduleDelivery _, rfl⟩
    · exact ⟨committed.scheduleDeadline _, rfl⟩

theorem prepareResume_harmless {pc : Pc} {input : Input} {stopped : World × Outcome}
    (goesOn : prepareResume world task pc input = some stopped) : Harmless world stopped := by
  unfold prepareResume at goesOn
  split at goesOn
  · rcases Option.some.inj goesOn with rfl
    exact prepareRegister_harmless ..
  · rcases Option.some.inj goesOn with rfl
    exact preparePaused_harmless ..
  · rcases Option.some.inj goesOn with rfl
    exact prepareCommit_harmless ..
  · rcases Option.some.inj goesOn with rfl
    exact .refl world rfl
  · rcases Option.some.inj goesOn with rfl
    exact prepareFailed_harmless ..
  · rcases Option.some.inj goesOn with rfl
    exact prepareFailed_harmless ..
  · contradiction

theorem terminal_harmless (world : World) (job : JobId) (request : Json) :
    Harmless world (terminal world job request) := by
  unfold terminal
  split
  · exact .refl world rfl
  · exact .refl world rfl
  · split
    · exact .refl world rfl
    · split_ifs
      · exact .refl world rfl
      · exact .refl world rfl
      · exact .refl world rfl
      · exact ⟨(Quiet.refl world).update _ _, rfl⟩
      · exact .refl world rfl
      · exact .refl world rfl
      · exact ⟨(((Quiet.refl world).update _ _).cancelDeadline _).scheduleDelivery _, rfl⟩

theorem abort_harmless (world : World) (job : JobId) (request : Json) :
    Harmless world (abort world job request) := by
  unfold abort
  split
  · exact .refl world rfl
  · split
    · exact .refl world rfl
    · split_ifs
      · exact .refl world rfl
      · exact .refl world rfl
      · exact ⟨(Quiet.refl world).abandonForManualChange _ _, rfl⟩
      · exact .refl world rfl
      · exact .refl world rfl
      · exact ⟨((Quiet.refl world).update _ _).scheduleDelivery _, rfl⟩

/-! #### Delivery -/

theorem deliverException_harmless (world : World) (lease : WakeLease) (error : PyError) :
    Harmless world (deliverException world lease error) := by
  have failed : Quiet world (failDelivery world lease.jobId error) := by
    unfold failDelivery
    split
    · split
      · exact (Quiet.refl world).update _ _
      · exact .refl world
    · exact .refl world
  exact ⟨failed.popDelivery _, rfl⟩

theorem deliverStart_harmless (world : World) (lease : WakeLease) :
    Harmless world (deliverStart world lease) := by
  unfold deliverStart
  split
  · exact ⟨(Quiet.refl world).popDelivery _, rfl⟩
  · split
    · exact ⟨(Quiet.refl world).popDelivery _, rfl⟩
    · exact .refl world rfl

theorem idleRead_harmless (lease : WakeLease) (result : Except PyError Json)
    {busy : World × Outcome} (harmless : Harmless world busy) :
    Harmless world (idleRead world lease result busy) := by
  unfold idleRead
  split
  · exact deliverException_harmless ..
  · split_ifs
    · exact .refl world rfl
    · exact deliverException_harmless ..
    · exact harmless

theorem activateReturn_harmless (quiet : Quiet before world) (task : TaskId) (lease : WakeLease) :
    Harmless before (activateReturn world task lease) :=
  ⟨(quiet.unlockGoal _ _).popDelivery _, rfl⟩

theorem activateException_harmless (world : World) (task : TaskId) (lease : WakeLease)
    (error : PyError) : Harmless world (activateException world task lease error) :=
  .of_quiet ((Quiet.refl world).unlockGoal _ _) (deliverException_harmless ..)

theorem activateRead_harmless (world : World) (task : TaskId) (lease : WakeLease)
    (result : Except PyError Json) : Harmless world (activateRead world task lease result) := by
  unfold activateRead
  split
  · exact activateException_harmless ..
  · split
    · exact ⟨(Quiet.refl world).unlockGoal _ _, rfl⟩
    · split
      · exact activateReturn_harmless (.refl world) ..
      · split
        · exact activateReturn_harmless (.refl world) ..
        · exact .refl world rfl

theorem activateGoalGet_harmless (world : World) (task : TaskId) (lease : WakeLease)
    (result : Except PyError Json) : Harmless world (activateGoalGet world task lease result) := by
  unfold activateGoalGet
  split
  · exact activateException_harmless ..
  · split
    · exact activateReturn_harmless (.refl world) ..
    · split
      · exact activateReturn_harmless (.refl world) ..
      · split
        · exact activateReturn_harmless ((Quiet.refl world).update _ _) ..
        · have activating : Quiet world
              (world.update lease.jobId { deliveryState := some .activating }) :=
            (Quiet.refl world).update _ _
          exact ⟨activating.same rfl rfl rfl, rfl⟩

theorem activateSetActive_harmless (world : World) (task : TaskId) (lease : WakeLease)
    (result : Except PyError Json) :
    Harmless world (activateSetActive world task lease result) := by
  have popped : Quiet world (world.popExpected lease.threadId) :=
    (Quiet.refl world).same rfl rfl rfl
  unfold activateSetActive
  split
  · exact activateReturn_harmless (popped.update _ _) ..
  · split
    · exact activateException_harmless ..
    · split_ifs
      · exact activateReturn_harmless ((Quiet.refl world).update _ _) ..
      · exact activateReturn_harmless ((Quiet.refl world).update _ _) ..
      · exact activateReturn_harmless (popped.update _ _) ..

theorem deliver_harmless {lease : WakeLease} {await : DeliverAt} {input : Input}
    {stopped : World × Outcome} (goesOn : deliver world task lease await input = some stopped) :
    Harmless world stopped := by
  unfold deliver at goesOn
  dsimp only at goesOn
  split at goesOn
  · rcases Option.some.inj goesOn with rfl
    exact deliverStart_harmless ..
  · rcases Option.some.inj goesOn with rfl
    have cleared : Quiet world (world.clearThreadEvent lease.threadId) :=
      (Quiet.refl world).same rfl rfl rfl
    exact idleRead_harmless _ _ ⟨cleared, rfl⟩
  · rcases Option.some.inj goesOn with rfl
    refine idleRead_harmless _ _ ?_
    split
    · exact .refl world rfl
    · exact .refl world rfl
  · split at goesOn
    · rcases Option.some.inj goesOn with rfl
      exact .refl world rfl
    · contradiction
  · split at goesOn
    · contradiction
    · rcases Option.some.inj goesOn with rfl
      exact ⟨(Quiet.refl world).lockGoal _ _, rfl⟩
  · rcases Option.some.inj goesOn with rfl
    exact activateRead_harmless ..
  · rcases Option.some.inj goesOn with rfl
    exact activateGoalGet_harmless ..
  · rcases Option.some.inj goesOn with rfl
    exact activateSetActive_harmless ..
  · rcases Option.some.inj goesOn with rfl
    exact .refl world rfl
  · rcases Option.some.inj goesOn with rfl
    exact ⟨((Quiet.refl world).unlockGoal _ _).popDelivery _, rfl⟩
  · rcases Option.some.inj goesOn with rfl
    exact ⟨((Quiet.refl world).unlockGoal _ _).popDelivery _, rfl⟩
  · rcases Option.some.inj goesOn with rfl
    exact ⟨((Quiet.refl world).unlockGoal _ _).popDelivery _, rfl⟩
  · rcases Option.some.inj goesOn with rfl
    exact ⟨(Quiet.refl world).popDelivery _, rfl⟩
  · rcases Option.some.inj goesOn with rfl
    exact ⟨(Quiet.refl world).popDelivery _, rfl⟩
  · rcases Option.some.inj goesOn with rfl
    exact ⟨(Quiet.refl world).popDelivery _, rfl⟩
  · rcases Option.some.inj goesOn with rfl
    exact ⟨(Quiet.refl world).popDelivery _, rfl⟩
  · contradiction

/-! #### Deadlines, notifications, recovery -/

theorem expireAtDeadline_harmless (world : World) (lease : WakeLease) :
    Harmless world (expireAtDeadline world lease) := by
  have expired : Quiet world (expireArmed world lease.jobId) := by
    unfold expireArmed
    split
    · split
      · exact .refl world
      · exact ((Quiet.refl world).update _ _).scheduleDelivery _
    · exact .refl world
  exact ⟨expired.same rfl rfl rfl, rfl⟩

theorem onNotification_quiet (world : World) (method : String) (params : Json) :
    Quiet world (onNotification world method params) := by
  have updated (thread : ThreadId) (goal : Json) : Quiet world (goalUpdated world thread goal) := by
    unfold goalUpdated
    split
    · exact .refl world
    · split_ifs
      · exact .refl world
      · exact .refl world
      · exact (Quiet.refl world).abandonForManualChange _ _
  unfold onNotification
  split
  · split_ifs
    · exact (Quiet.refl world).same rfl rfl rfl
    · exact (Quiet.refl world).abandonForManualChange _ _
    · dsimp only
      split
      · split
        · exact (Quiet.refl world).abandonForManualChange _ _
        · exact (Quiet.refl world).same rfl rfl rfl
      · split
        · split
          · exact (Quiet.refl world).same rfl rfl rfl
          · exact updated _ _
        · exact updated _ _
    · exact .refl world
  · exact .refl world

theorem recoverLease_quiet (world : World) (lease : WakeLease) :
    Quiet world (recoverLease world lease) := by
  unfold recoverLease
  split
  · exact (Quiet.refl world).update _ _
  · exact (Quiet.refl world).update _ _
  · exact (Quiet.refl world).update _ _
  · exact (Quiet.refl world).update _ _
  · split_ifs
    · exact (Quiet.refl world).scheduleDelivery _
    · exact (Quiet.refl world).scheduleDeadline _
    · exact (Quiet.refl world).update _ _

end GoalBridge

/-! ### The session bridge -/

namespace SessionBridge

/-! #### Events of the connections -/

/-- What a connection shows is quiet, but for the calls of `start_job`. -/
theorem observe_cases (world : World) (peer : PeerId) (method : String) (params : Json) :
    Quiet world (observe world peer method params) ∨
      method = "item/started" ∧ ∃ thread callId turn, params.get "threadId" = .str thread ∧
        startJobItem params = some (callId, turn) ∧
        observe world peer method params =
          setPeer (rememberCall world peer thread callId turn) thread peer := by
  have quiet : Quiet world world := .refl world
  unfold observe
  split
  · rename_i thread isThread
    split
    · have ambiguous : Quiet world (addAmbiguous world thread) := quiet.same rfl rfl rfl
      exact .inl (ambiguous.userActivity _)
    · split
      · rename_i started
        split
        · rename_i callId turn isItem
          exact .inr ⟨started, thread, callId, turn, isThread, isItem, rfl⟩
        · exact .inl quiet
      · refine .inl ?_
        split_ifs
        · have owned : Quiet world (setPeer world thread peer) := quiet.same rfl rfl rfl
          unfold observeTurnStarted
          dsimp only
          split
          · exact owned
          · split
            · split
              · exact owned.abandonForManualChange _ _
              · exact owned
            · exact owned
        · exact quiet
        · split
          · rename_i turn _
            have completed : Quiet world (setTurnDone (world.log (.turnCompleted thread turn))
                thread turn) := by
              have logged := quiet.log
                (show (Event.turnCompleted thread turn).isPassive = true from rfl)
              unfold setTurnDone
              split
              · exact logged.same rfl rfl rfl
              · exact logged
            have observed : Quiet world (observeTurnCompleted world thread turn) := by
              unfold observeTurnCompleted
              dsimp only
              split
              · split
                · exact (completed.abandonForManualChange _ _).same rfl rfl rfl
                · exact completed.same rfl rfl rfl
              · exact completed.same rfl rfl rfl
            exact observed.same rfl rfl rfl
          · exact quiet.same rfl rfl rfl
        · exact quiet.same rfl rfl rfl
        · exact quiet
  · exact .inl quiet

theorem disconnected_quiet (world : World) (peer : PeerId) :
    Quiet world (disconnected world peer) := by
  have thread (world : World) (thread : ThreadId) : Quiet world (disownThread world thread) :=
    ((Quiet.refl world).userActivity thread).same rfl rfl rfl
  have job (world : World) (job : JobId) : Quiet world (disownJob world job) := by
    unfold disownJob
    dsimp only
    split
    · exact ((Quiet.refl world).userActivity _).popLeasePeer _
    · exact (Quiet.refl world).popLeasePeer _
  have disowned := (Quiet.foldl thread (keysOf world.peers peer) world).trans
    (Quiet.foldl job (keysOf ((keysOf world.peers peer).foldl disownThread world).leasePeers peer) _)
  exact disowned.same rfl rfl rfl

/-! #### Registration -/

theorem prepare_harmless (world : World) (job : JobId) (request : Json) :
    Harmless world (prepare world job request) := by
  unfold prepare
  extract_lets policy
  split
  · exact GoalBridge.prepare_harmless ..
  · split
    · exact .refl world rfl
    · exact .refl world rfl
    · exact .refl world rfl
    · exact .refl world rfl

/-- A registration that has read a Goal which is absent or complete waits for its call. -/
theorem prepareGoalState_cases (world : World) (job : JobId) (thread : ThreadId) (request : Json)
    (auto : Bool) (result : Except PyError Json) :
    Harmless world (prepareGoalState world job thread request auto result) ∨
      ∃ read call, result = .ok read ∧ read.hasKey "goal" = true ∧
        sessionArguments job thread (read.get "goal") request = .ok call ∧
        prepareGoalState world job thread request auto result =
          (world, .await (.sessionObserved call)) := by
  unfold prepareGoalState
  split
  · exact .inl (.refl world rfl)
  · rename_i read
    dsimp only
    split
    · exact .inl (.refl world rfl)
    · rename_i hasGoal
      rw [not_not] at hasGoal
      split
      · exact .inl (GoalBridge.prepare_harmless ..)
      · split
        · exact .inl (.refl world rfl)
        · rename_i call arguments
          exact .inr ⟨read, call, rfl, hasGoal, arguments, rfl⟩

section Exclusive

variable {call : SessionCall} {turn : String} {peer : PeerId} {result : Except PyError Json}

theorem prepareExclusive_cases (world : World) (call : SessionCall) (turn : String)
    (peer : PeerId) :
    Harmless world (prepareExclusive world call turn peer) ∨
      world.calls.get? (call.threadId, call.callId) = some (turn, peer) ∧
        prepareExclusive world call turn peer =
          (world, .await (.sessionLatestTurn call turn peer)) := by
  unfold prepareExclusive
  split
  · exact .inl ⟨(Quiet.refl world).unlockPeer _, rfl⟩
  · split
    · exact .inl ⟨(Quiet.refl world).unlockPeer _, rfl⟩
    · rename_i known
      rw [ne_eq, not_not] at known
      exact .inr ⟨known, rfl⟩

theorem prepareLatestTurn_cases (world : World) (call : SessionCall) (turn : String)
    (peer : PeerId) (result : Except PyError Json) :
    Harmless world (prepareLatestTurn world call turn peer result) ∨
      ∃ read latest, result = .ok read ∧ latestTurn read = .ok latest ∧
        isTurn latest (some turn) "inProgress" = true ∧
        prepareLatestTurn world call turn peer result =
          (world, .await (.sessionGoalNow call turn peer)) := by
  unfold prepareLatestTurn
  split
  · exact .inl ⟨(Quiet.refl world).unlockPeer _, rfl⟩
  · rename_i latest isLatest
    split
    · exact .inl ⟨(Quiet.refl world).unlockPeer _, rfl⟩
    · rename_i inProgress
      rw [not_not] at inProgress
      rcases bind_eq_ok.mp isLatest with ⟨read, isRead, isLatest⟩
      exact .inr ⟨read, latest, isRead, isLatest, inProgress, rfl⟩

end Exclusive

/-! #### Handoff -/

theorem handoff_harmless (world : World) (job : JobId) (request : Json) :
    Harmless world (handoff world job request) := by
  unfold handoff
  split
  · split
    · exact .refl world rfl
    · split
      · exact .refl world rfl
      · split
        · exact .refl world rfl
        · exact .refl world rfl
  · exact .refl world rfl
  · exact .refl world rfl

theorem handoffFailed_harmless (quiet : Quiet before world) (call : HandoffCall)
    (error : PyError) : Harmless before (handoffFailed world call error) :=
  ⟨quiet.sessionFailed _ _, rfl⟩

theorem transferException_harmless (world : World) (call : HandoffCall) (error : PyError) :
    Harmless world (transferException world call error) :=
  handoffFailed_harmless ((Quiet.refl world).unlockPeer _) ..

theorem interruptException_harmless (world : World) (call : HandoffCall) (error : PyError) :
    Harmless world (interruptException world call error) := by
  have popped : Quiet world (popTurnDone world call.lease) := (Quiet.refl world).same rfl rfl rfl
  exact .of_quiet popped (transferException_harmless ..)

theorem transferStart_harmless (world : World) (call : HandoffCall) :
    Harmless world (transferStart world call) := by
  unfold transferStart
  split
  · exact transferException_harmless ..
  · split
    · exact transferException_harmless ..
    · exact .refl world rfl

theorem transferChecked_harmless (world : World) (call : HandoffCall)
    (result : Except PyError Json) : Harmless world (transferChecked world call result) := by
  unfold transferChecked
  split
  · exact transferException_harmless ..
  · exact .refl world rfl

theorem owner_of_interruptChecks {call : HandoffCall} {result : Except PyError Json}
    (checked : interruptChecks world call result = .ok ()) :
    ∃ peer, owner world call.lease = .ok peer := by
  unfold interruptChecks at checked
  rcases bind_eq_ok.mp checked with ⟨answer, -, afterAnswer⟩
  rcases bind_eq_ok.mp afterAnswer with ⟨latest, -, afterLatest⟩
  simp only [bind, Except.bind, pure, Except.pure, throw, throwThe, MonadExceptOf.throw]
    at afterLatest
  repeat' split at afterLatest
  all_goals first | contradiction | exact ⟨_, ‹_›⟩

/-- The turn is interrupted by the handoff of a live lease whose owner is known. -/
theorem transferInterrupt_cases (world : World) (call : HandoffCall)
    (result : Except PyError Json) :
    Harmless world (transferInterrupt world call result) ∨
      ∃ current peer done, liveSession world call.lease.jobId = .ok current ∧
        owner world call.lease = .ok peer ∧ Quiet world (transferInterrupt world call result).1 ∧
        (transferInterrupt world call result).1.leasePeers = world.leasePeers ∧
        (transferInterrupt world call result).2 = .await (.handoff call (.interrupt done)) := by
  unfold transferInterrupt
  split
  · exact .inl (transferException_harmless ..)
  · rename_i checked
    rcases interruptChecks_ok checked with ⟨current, live⟩
    rcases owner_of_interruptChecks checked with ⟨peer, owned⟩
    rcases turnDoneEvent_eq world call.lease with ⟨turnDone, nextEvent, isEvent⟩
    refine .inr ⟨current, peer, _, live, owned, ?_, ?_, rfl⟩
    · have event : Quiet world (turnDoneEvent world call.lease).1 := by
        rw [isEvent]
        exact (Quiet.refl world).same rfl rfl rfl
      exact event.update _ _
    · show (turnDoneEvent world call.lease).1.leasePeers = world.leasePeers
      rw [isEvent]

theorem transferInterrupted_cases (world : World) (call : HandoffCall) (done : Nat)
    (result : Except PyError Json) :
    Harmless world (transferInterrupted world call done result) ∨
      transferInterrupted world call done result =
        (world, .await (.handoff call (.turnDone done))) := by
  unfold transferInterrupted
  split
  · exact .inl (interruptException_harmless ..)
  · exact .inr rfl

theorem transferConfirm_cases (world : World) (call : HandoffCall)
    (result : Except PyError Json) :
    Harmless world (transferConfirm world call result) ∨
      transferConfirm world call result =
        (world.update call.lease.jobId { handoffState := some .recordingReceipt },
          .await (.handoff call .inject)) := by
  unfold transferConfirm
  split
  · exact .inl (interruptException_harmless ..)
  · exact .inr rfl

theorem transferReady_harmless (world : World) (call : HandoffCall)
    (result : Except PyError Json) : Harmless world (transferReady world call result) := by
  unfold transferReady
  split
  · exact interruptException_harmless ..
  · have ready : Quiet world
        (world.update call.lease.jobId { handoffState := some .ready }) :=
      (Quiet.refl world).update _ _
    dsimp only
    split
    · exact ⟨(ready.scheduleDelivery _).same rfl rfl rfl, rfl⟩
    · exact ⟨ready.same rfl rfl rfl, rfl⟩

theorem transferLeave_quiet (world : World) (call : HandoffCall) (await : HandoffAt) :
    Quiet world (transferLeave world call await) := by
  cases await <;> exact (Quiet.refl world).same rfl rfl rfl

/-! #### Terminal events and aborts -/

theorem terminal_harmless (world : World) (job : JobId) (request : Json) :
    Harmless world (terminal world job request) := by
  unfold terminal
  split
  · exact GoalBridge.terminal_harmless ..
  · split
    · exact GoalBridge.terminal_harmless ..
    · split
      · exact .refl world rfl
      · split
        · exact .refl world rfl
        · split
          · exact .refl world rfl
          · split
            · exact .refl world rfl
            · rename_i lease _ _ _ _ _ _ _ terminalState _
              have recorded (fields : LeaseUpdate) : Quiet world
                  ((world.update job fields).log (.terminalRecorded job)) :=
                ((Quiet.refl world).update job fields).log rfl
              dsimp only
              split
              · split
                · exact ⟨(Quiet.refl world).scheduleDelivery _, rfl⟩
                · exact .refl world rfl
              · split
                · exact ⟨(recorded _).scheduleDelivery _, rfl⟩
                · exact ⟨recorded _, rfl⟩

theorem abort_harmless (world : World) (job : JobId) (request : Json) :
    Harmless world (abort world job request) := by
  unfold abort
  split
  · exact GoalBridge.abort_harmless ..
  · split
    · exact GoalBridge.abort_harmless ..
    · split
      · exact .refl world rfl
      · split
        · exact .refl world rfl
        · exact ⟨(Quiet.refl world).abandonForManualChange _ _, rfl⟩

/-! #### Delivery -/

theorem wakeEnd_harmless (quiet : Quiet before world) (lease : WakeLease) {outcome : Outcome}
    (plain : outcome.isPlain = true) : Harmless before (wakeEnd world lease outcome) := by
  unfold wakeEnd
  dsimp only
  split
  · exact ⟨(quiet.popDelivery _).popLeasePeer _, plain⟩
  · exact ⟨quiet.popDelivery _, plain⟩

theorem wakeRaise_harmless (world : World) (lease : WakeLease) (peer : PeerId) (error : PyError) :
    Harmless world (wakeRaise world lease peer error) :=
  wakeEnd_harmless (((Quiet.refl world).unlockPeer _).sessionFailed _ _) lease rfl

/-- The delivery of a lease begins with its owner. -/
theorem wakeStart_cases (world : World) (lease : WakeLease) :
    Harmless world (wakeStart world lease) ∨
      ∃ peer, owner world lease = .ok peer ∧
        wakeStart world lease = (world, .await (.wake lease peer .lock)) := by
  unfold wakeStart
  split
  · exact .inl (wakeEnd_harmless ((Quiet.refl world).sessionFailed _ _) lease rfl)
  · rename_i peer owned
    exact .inr ⟨peer, owned, rfl⟩

theorem wakeLocked_cases (world : World) (lease : WakeLease) (peer : PeerId) :
    Harmless world (wakeLocked world lease peer) ∨
      ∃ current, wakeLocked world lease peer =
        (world, .await (.wake lease peer (.checkGoal current))) := by
  unfold wakeLocked
  split
  · exact .inl (wakeRaise_harmless ..)
  · split
    · exact .inl (wakeEnd_harmless ((Quiet.refl world).unlockPeer _) lease rfl)
    · exact .inr ⟨_, rfl⟩

theorem wakeChecked_cases (world : World) (lease : WakeLease) (peer : PeerId)
    (current : WakeLease) (result : Except PyError Json) :
    Harmless world (wakeChecked world lease peer current result) ∨
      wakeChecked world lease peer current result =
        (world, .await (.wake lease peer (.latestTurn current))) := by
  unfold wakeChecked
  split
  · exact .inl (wakeRaise_harmless ..)
  · exact .inr rfl

theorem owner_of_startChecks {lease : WakeLease} {result : Except PyError Json}
    (checked : startChecks world lease result = .ok ()) :
    ∃ peer, owner world lease = .ok peer := by
  unfold startChecks at checked
  rcases bind_eq_ok.mp checked with ⟨answer, -, afterAnswer⟩
  rcases bind_eq_ok.mp afterAnswer with ⟨latest, -, afterLatest⟩
  simp only [bind, Except.bind, pure, Except.pure, throw, throwThe, MonadExceptOf.throw]
    at afterLatest
  repeat' split at afterLatest
  all_goals first | contradiction | exact ⟨_, ‹_›⟩

/-- The continuation turn is started where the owner is still known. -/
theorem wakeTurnStart_cases (world : World) (lease : WakeLease) (peer : PeerId)
    (current : WakeLease) (result : Except PyError Json) :
    Harmless world (wakeTurnStart world lease peer current result) ∨
      ∃ owning, owner world lease = .ok owning ∧
        wakeTurnStart world lease peer current result =
          (world.update lease.jobId { deliveryState := some .activating },
            .await (.wake lease peer (.turnStart current))) := by
  unfold wakeTurnStart
  split
  · exact .inl (wakeRaise_harmless ..)
  · rename_i checked
    rcases owner_of_startChecks checked with ⟨owning, owned⟩
    exact .inr ⟨owning, owned, rfl⟩

theorem wakeStarted_harmless (world : World) (lease : WakeLease) (peer : PeerId)
    (result : Except PyError Json) : Harmless world (wakeStarted world lease peer result) := by
  unfold wakeStarted
  split
  · exact wakeRaise_harmless ..
  · exact wakeEnd_harmless ((((Quiet.refl world).update _ _).cancelDeadline _).unlockPeer _)
      lease rfl

/-! #### Deadlines, notifications, recovery -/

theorem deadlineResume_harmless {lease : WakeLease} {await : DeadlineAt} {input : Input}
    {stopped : World × Outcome} (goesOn : deadlineResume world lease await input = some stopped) :
    Harmless world stopped := by
  unfold deadlineResume at goesOn
  split at goesOn
  · rcases Option.some.inj goesOn with rfl
    exact .refl world rfl
  · rcases Option.some.inj goesOn with rfl
    unfold expireAtDeadline
    split
    · exact GoalBridge.expireAtDeadline_harmless ..
    · exact ⟨((Quiet.refl world).sessionFailed _ _).same rfl rfl rfl, rfl⟩
  · rcases Option.some.inj goesOn with rfl
    exact .refl world rfl
  · rcases Option.some.inj goesOn with rfl
    exact ⟨(Quiet.refl world).same rfl rfl rfl, rfl⟩
  · contradiction

theorem onNotification_quiet (world : World) (method : String) (params : Json) :
    Quiet world (onNotification world method params) := by
  have goal := GoalBridge.onNotification_quiet world method params
  unfold onNotification
  extract_lets lease
  clear_value lease
  split
  · split
    · split
      · exact (Quiet.refl world).abandonForManualChange _ _
      · exact .refl world
    · exact goal
  · exact goal

theorem recoverLease_quiet (world : World) (lease : WakeLease) :
    Quiet world (recoverLease world lease) := by
  unfold recoverLease
  split
  · exact (Quiet.refl world).update _ _
  · exact GoalBridge.recoverLease_quiet ..

/-! #### Requests -/

theorem sessionControl_harmless (world : World) (action : String) (job : JobId) (request : Json) :
    Harmless world (sessionControl world action job request) := by
  unfold sessionControl
  split
  · exact .refl world rfl
  · split
    · exact .refl world rfl
    · split
      · exact .refl world rfl
      · split
        · exact .refl world rfl
        · split
          · exact .refl world rfl
          · split
            · split
              · exact .refl world rfl
              · exact ⟨(Quiet.refl world).abandonForManualChange _ _, rfl⟩
            · exact handoff_harmless ..

theorem dispatch_harmless (world : World) (request : Json) :
    Harmless world (dispatch world request) := by
  unfold dispatch
  split
  · exact .refl world rfl
  · split
    · exact .refl world rfl
    · dsimp only
      split
      · exact .refl world rfl
      · split
        · exact .refl world rfl
        · split
          · exact .refl world rfl
          · split
            · exact sessionControl_harmless ..
            · exact sessionControl_harmless ..
            · exact sessionControl_harmless ..
            · exact prepare_harmless ..
            · exact terminal_harmless ..
            · exact abort_harmless ..
            · exact .refl world rfl

end SessionBridge

/-! ### Messages of the TUI -/

namespace Client

theorem activity_harmless (world : World) (task : TaskId) (peer : PeerId) (message : Json) :
    Harmless world (activity world task peer message) := by
  unfold activity
  split
  · rename_i thread _
    have active := (Quiet.refl world).userActivity thread
    dsimp only
    split
    · have entered := active.log (show (Event.controlEntered task thread).isPassive = true from rfl)
      exact ⟨entered.abandonForManualChange _ _, rfl⟩
    · exact ⟨active, rfl⟩
  · exact ⟨Quiet.foldl (fun world thread => (Quiet.refl world).userActivity thread) _ world, rfl⟩

theorem control_harmless (world : World) (task : TaskId) (peer : PeerId) (thread : ThreadId) :
    Harmless world (control world task peer thread) :=
  ⟨(((Quiet.refl world).lockGoal task thread).abandonForManualChange thread controlReason).log rfl,
    rfl⟩

theorem resume_harmless {peer : PeerId} {await : ClientAt} {input : Input}
    {stopped : World × Outcome} (goesOn : resume world task peer await input = some stopped) :
    Harmless world stopped := by
  unfold resume at goesOn
  split at goesOn
  · split at goesOn
    · contradiction
    · rcases Option.some.inj goesOn with rfl
      exact .of_quiet ((Quiet.refl world).lockPeer _ _) (activity_harmless ..)
  · split at goesOn
    · contradiction
    · rcases Option.some.inj goesOn with rfl
      exact control_harmless ..
  · rename_i thread result
    rcases Option.some.inj goesOn with rfl
    refine ⟨((Quiet.refl world).unlockGoal _ _).unlockPeer _, ?_⟩
    cases result <;> rfl
  · rename_i result
    rcases Option.some.inj goesOn with rfl
    refine ⟨(Quiet.refl world).unlockPeer _, ?_⟩
    cases result <;> rfl
  · rcases Option.some.inj goesOn with rfl
    exact .refl world rfl
  · rcases Option.some.inj goesOn with rfl
    exact ⟨(Quiet.refl world).unlockPeer _, rfl⟩
  · rcases Option.some.inj goesOn with rfl
    exact ⟨((Quiet.refl world).unlockGoal _ _).unlockPeer _, rfl⟩
  · rcases Option.some.inj goesOn with rfl
    exact ⟨(Quiet.refl world).unlockPeer _, rfl⟩
  · contradiction

end Client

end Longrun.Bridge
