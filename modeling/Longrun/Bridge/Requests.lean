import Longrun.Bridge.Runs

/-!
# Requests about a job

The requests of the job server name a job and its thread. Handling one is a step of its own: the
coroutine of the request runs to its end or to its first await.
-/

namespace Longrun.Bridge

variable {world after : World} {job : JobId} {thread : ThreadId} {request : Json}
  {action : String}

/-- `request_bridge`: the request with the protocol version. -/
def requestBridge (action : String) (job : JobId) (thread : ThreadId)
    (fields : List (String × Json)) : Json :=
  .obj (("version", .int protocolVersion) :: ("action", .str action) :: ("job_id", .str job) ::
    ("thread_id", .str thread) :: fields)

/-- A well-formed request for an action on a job, with a thread. -/
structure Names (request : Json) (action : String) (job : JobId) (thread : ThreadId) : Prop where
  isDict : request.isDict = true
  version : (request.get "version").isInt protocolVersion = true
  action : request.get "action" = .str action
  jobId : jobIdOf (request.get "job_id") = .ok job
  threadId : threadIdOf (request.get "thread_id") = .ok thread

namespace Names

theorem dispatch_abort (names : Names request "abort" job thread) :
    SessionBridge.dispatch world request = SessionBridge.abort world job request := by
  simp [SessionBridge.dispatch, names.isDict, names.version, names.action, names.jobId,
    Json.hashable, Json.isStr, Json.str?]

theorem dispatch_cancel (names : Names request "cancel_wakeup" job thread) :
    SessionBridge.dispatch world request =
      SessionBridge.sessionControl world "cancel_wakeup" job request := by
  simp [SessionBridge.dispatch, names.isDict, names.version, names.action, names.jobId,
    Json.hashable, Json.isStr, Json.str?]

theorem dispatch_terminal (names : Names request "terminal" job thread) :
    SessionBridge.dispatch world request = SessionBridge.terminal world job request := by
  simp [SessionBridge.dispatch, names.isDict, names.version, names.action, names.jobId,
    Json.hashable, Json.isStr, Json.str?]

end Names

/-! ### The step of a request -/

/-- The state in which the handling of a request begins. -/
def World.received (world : World) (request : Json) : World :=
  (world.spawn .running).log (.received world.tasks.length request)

theorem step_request (taken : step world (.request request) = some after) :
    after = World.stop world.tasks.length
      (SessionBridge.dispatch (world.received request) request) := by
  obtain ⟨-, rfl⟩ := by simpa [step] using taken
  rfl

/-- The answer to a request whose coroutine has ended at once. -/
def answerOf (after : World) : Option Json :=
  match after.trace.head? with
  | some (.ended _ (.ok result)) => some result
  | _ => none

theorem answerOf_stop {task : TaskId} {stopped : World × Outcome} {result : Json}
    (ends : stopped.2.Ends) (answered : answerOf (World.stop task stopped) = some result) :
    stopped.2 = .done result := by
  rcases stopped with ⟨world, outcome⟩
  cases outcome with
  | await => exact ends.elim
  | done given => exact congrArg Outcome.done (Option.some.inj answered)
  | fail raised => cases answered

end Longrun.Bridge
