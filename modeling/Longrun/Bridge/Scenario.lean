import Longrun.Bridge.Requests

/-!
# Messages of one thread

The requests of the job server, the events of a connection and the answers of the App Server for
one thread, as the runs that refute a property need them.
-/

namespace Longrun.Bridge.Scenario

def thread : ThreadId := "01234567-89ab-cdef-0123-456789abcdef"

def firstJob : JobId := "0123456789abcdef0123456789abcdef"

def secondJob : JobId := "fedcba9876543210fedcba9876543210"

def turn : String := "turn"

def callId : String := "call"

theorem jobIdOf_firstJob : jobIdOf (.str firstJob) = .ok firstJob := by decide +kernel

theorem threadIdOf_thread : threadIdOf (.str thread) = .ok thread := by decide +kernel

/-! ### Requests of the job server -/

/-- A request about a job of the thread. -/
def request (action : String) (job : JobId) (fields : List (String × Json)) : Json :=
  requestBridge action job thread fields

theorem names_request (action : String) {job : JobId} (isJob : jobIdOf (.str job) = .ok job)
    (fields : List (String × Json)) : Names (request action job fields) action job thread where
  isDict := rfl
  version := by simp [request, requestBridge, Json.get]
  action := rfl
  jobId := isJob
  threadId := threadIdOf_thread

def abort (job : JobId) : Action := .request (request "abort" job [])

def cancelWakeup (job : JobId) : Action := .request (request "cancel_wakeup" job [])

def terminal (job : JobId) (state : String) : Action :=
  .request (request "terminal" job [("terminal_state", .str state)])

def prepare (job : JobId) (policy : String) : Action :=
  .request (request "prepare" job [("timeout_sec", .int 30), ("grace_period_sec", .int 1),
    ("wake_policy", .str policy), ("call_id", .str callId)])

def handoff (job : JobId) : Action :=
  .request (request "handoff" job [("job_state", .str "running")])

/-! ### Answers of the App Server -/

/-- The App Server answers the request that a task awaits. -/
def reply (task : TaskId) (result : Json) : Action := .resume task (.reply (.ok result))

def goalFields (status : String) (updatedAt : Int) : Json :=
  .obj [("threadId", .str thread), ("createdAt", .int 5), ("objective", .str "objective"),
    ("status", .str status), ("updatedAt", .int updatedAt)]

def goal (status : String) (updatedAt : Int) : Json := .obj [("goal", goalFields status updatedAt)]

def noGoal : Json := .obj [("goal", .null)]

def turns (status : String) : Json :=
  .obj [("data", .arr [.obj [("id", .str turn), ("status", .str status)]])]

def threadRead (status : String) : Json :=
  .obj [("thread", .obj [("status", .obj [("type", .str status)])])]

/-- The App Server confirms a continuation turn. -/
def startedTurn : Json := .obj [("turn", .obj [("id", .str "continuation")])]

def goalUpdated (status : String) (updatedAt : Int) : Action :=
  .notification "thread/goal/updated"
    (.obj [("threadId", .str thread), ("goal", goalFields status updatedAt)])

/-! ### Events of a connection -/

/-- The connection shows the call of `start_job`. -/
def startJobSeen (peer : PeerId) : Action :=
  .observe peer "item/started" (.obj [("threadId", .str thread), ("turnId", .str turn),
    ("item", .obj [("type", .str "mcpToolCall"), ("server", .str "longrun"),
      ("tool", .str "start_job"), ("id", .str callId)])])

def turnCompleted (peer : PeerId) : Action :=
  .observe peer "turn/completed"
    (.obj [("threadId", .str thread), ("turn", .obj [("id", .str turn)])])

/-- The user starts a turn. -/
def userTurn (peer : PeerId) : Action :=
  .clientMessage peer (.obj [("method", .str "turn/start"),
    ("params", .obj [("threadId", .str thread)])])

/-- The user sets the Goal of the thread. -/
def userGoalSet (peer : PeerId) : Action :=
  .clientMessage peer (.obj [("method", .str "thread/goal/set"),
    ("params", .obj [("threadId", .str thread)])])

/-! ### Courses of events -/

def startUp : List Action := [.connect, .start]

/-- A Goal registration from its request to its commit, handled by a task. -/
def armGoal (job : JobId) (task : TaskId) : List Action :=
  [prepare job "goal", reply task (goal "active" 7), reply task (goal "paused" 8),
    reply task (goal "paused" 8)]

/-- The delivery of a Goal lease up to its activation, handled by a task. -/
def activateGoal (task : TaskId) : List Action :=
  [.resume task .ready, reply task (threadRead "idle"), .resume task .ready,
    reply task (threadRead "idle"), reply task (goal "paused" 8)]

/-- A session registration from the observed call to the moment before it is armed. -/
def enterSession (job : JobId) (task : TaskId) (peer : PeerId) : List Action :=
  [startJobSeen peer, prepare job "session", reply task noGoal, .resume task .ready,
    .resume task .ready, reply task (turns "inProgress")]

def armSession (job : JobId) (task : TaskId) (peer : PeerId) : List Action :=
  enterSession job task peer ++ [reply task noGoal]

/-- The handoff of a session lease, handled by a task. -/
def completeHandoff (job : JobId) (task : TaskId) (peer : PeerId) : List Action :=
  [handoff job, .resume task .ready, reply task noGoal, reply task (turns "inProgress"),
    reply task .null, turnCompleted peer, .resume task .ready, reply task (turns "interrupted"),
    reply task .null]

/-- The delivery of a session lease up to its continuation turn, handled by a task. -/
def startTurn (task : TaskId) : List Action :=
  [.resume task .ready, .resume task .ready, reply task noGoal, reply task (turns "interrupted")]

/-- A session job from its registration to its continuation turn, in an idle coordinator. -/
def sessionRun (job : JobId) (peer : PeerId) : List Action :=
  armSession job 0 peer ++ completeHandoff job 2 peer ++ [terminal job "succeeded"] ++ startTurn 4

end Longrun.Bridge.Scenario
