import Longrun.Library.Cooperative
import Longrun.Library.Dict
import Longrun.Tui.Messages

/-!
# One TUI connection

The coroutines that `_handle_client` runs for one connection of the TUI: the loop over the frames of
the TUI, the loop over the frames of the App Server, a task for each full-history read that is
intercepted, and the internal calls that the session bridge makes over the connection. They share
the variables of `_handle_client`.

A loop is entered once for each frame. A send is one call: the locks around `upstream.send` and
`client.send` keep the order in which the messages were handed over. What the operating system, the
helper connection and the session bridge do is left open, so each of their answers may come at any
time and may be an exception; the session bridge observes a frame without waiting for anything.
-/

namespace Longrun.Tui

/-- The locks that coroutines wait for: one for the reads of each thread, and the activity lock. -/
inductive Lock where
  | history (thread : String)
  | activity
deriving DecidableEq

/-- The tasks of a connection; `timer` stands for the timers and the closing of the connection. -/
inductive Task where
  | client
  | upstream
  | read (number : Nat)
  | call (number : Nat)
  | exclusive (number : Nat)
  | timer
deriving DecidableEq

/-- The requests over a helper connection. -/
inductive HelperRequest where
  /-- `thread/read` without turns -/
  | threadRead (thread : String)
  /-- `thread/turns/list`, newest first, full items, at most so many -/
  | turnsList (thread : String) (limit : Nat)
deriving DecidableEq

inductive Call (Frame : Type) where
  /-- `summaries.get` -/
  | getSummary (thread : String)
  | setSummary (thread : String) (summary : Json)
  /-- `tail_cache.get` -/
  | getTail (thread : String)
  | setTail (thread : String) (turns : List Json)
  | popTail (thread : String)
  | setPendingRead (id : JsonId) (thread : String)
  | popPendingRead (id : JsonId)
  /-- `asyncio.create_task(guarded_full_read())` -/
  | createTask (read : Read Frame)
  /-- A future under a new id in `internal_requests`, and the id among the newest 256. -/
  | register
  /-- `internal_requests.get` -/
  | getInternal (id : Json)
  /-- `id in internal_ids` -/
  | isInternal (id : Json)
  /-- `set_result`, unless the future is done -/
  | setResult (call : Nat) (message : Json)
  /-- Waits until the future is done, for 10 seconds at most. -/
  | waitFor
  | futureResult
  | popInternal (id : String)
  | acquire (lock : Lock)
  | release (lock : Lock)
  | sendUpstream (message : Outgoing Frame)
  | sendClient (message : Outgoing Frame)
  /-- `_new_helper` -/
  | newHelper
  | helperCall (request : HelperRequest)
  | closeHelper
  /-- `Path(text).expanduser()` -/
  | expandUser (path : String)
  /-- `Path.stat`, where `none` stands for an `OSError` -/
  | stat (path : String)
  | print (line : String)
  /-- `session_bridge.user_activity` -/
  | userActivity (thread : String)
  /-- The threads of `session_bridge.peers` that this connection owns. -/
  | ownedThreads
  /-- `session_bridge.user_goal_control`, which sends the frame -/
  | userGoalControl (thread : String) (frame : Frame)
  /-- The operation that the session bridge runs under the activity lock. -/
  | operation

variable {Frame : Type}

@[reducible]
def Call.Answer : Call Frame → Type
  | .getSummary _ => Option Json
  | .getTail _ => Option (List Json)
  | .popPendingRead _ => Option String
  | .register => String
  | .getInternal _ => Option Nat
  | .isInternal _ => Bool
  | .futureResult => Json
  | .helperCall _ => Json
  | .expandUser _ => String
  | .stat _ => Option FileInfo
  | .ownedThreads => List String
  | _ => Unit

abbrev connection (Frame : Type) : Interface := ⟨Call Frame, Call.Answer⟩

abbrev Coroutine (Frame : Type) (Value : Type) : Type := Script (connection Frame) Exit Value

def await (request : Call Frame) : Coroutine Frame request.Answer :=
  @Script.perform (connection Frame) Exit request

/-- `async with lock`. -/
def withLock {Value : Type} (lock : Lock) (body : Coroutine Frame Value) : Coroutine Frame Value := do
  await (.acquire lock)
  body.finish (await (.release lock))

def send (frame : Frame) : Coroutine Frame Unit := await (.sendUpstream (.raw frame))

/-! ### Full-history reads -/

/-- The variables of `_handle_full_read` that its handlers look at. -/
structure ReadLocals where
  summary : Option Json
  helper : Bool

abbrev ReadBlock (Frame : Type) (Value : Type) : Type :=
  Block (connection Frame) Exit ReadLocals Value

def ReadBlock.await (request : Call Frame) : ReadBlock Frame request.Answer :=
  @Block.call (connection Frame) Exit ReadLocals request

/-- `helper = await self._new_helper()`. -/
def ReadBlock.newHelper : ReadBlock Frame Unit := do
  await .newHelper
  Block.assign fun locals => { locals with helper := true }

/-- `if helper is None: helper = await self._new_helper()`. -/
def ReadBlock.ensureHelper : ReadBlock Frame Unit := do
  if (← Block.locals).helper then
    return ()
  else newHelper

/-- `_rollout_size`. -/
def ReadBlock.rolloutSize (thread : Json) : ReadBlock Frame (Option Nat) :=
  match rolloutText thread with
  | none => pure none
  | some text => do
      let path ← await (.expandUser text)
      if isAbsolute path then
        let info ← await (.stat path)
        return (info.filter (·.regular)).map (·.size)
      else return none

/-- The turns of an answer to `thread/turns/list`, oldest first. -/
def turnsOfPage (page : Json) : Except Exit (List Json) :=
  match page.get "data" with
  | .arr newestFirst => .ok newestFirst.reverse
  | _ => .error (.exception "AppServerError")

/-- Fetches the newest turns. -/
def ReadBlock.fetchTurns (proxy : CompatibilityProxy Frame) (thread : String) :
    ReadBlock Frame (List Json) := do
  let page ← await (.helperCall (.turnsList thread proxy.historyTailTurns))
  match turnsOfPage page with
  | .ok turns => return turns
  | .error error => Block.raise error

/-- `except Exception` around it. -/
def ReadBlock.withoutHistory (thread : String) : Exit → ReadBlock Frame (List Json)
  | .cancelled => Block.raise .cancelled
  | .exception name => do
      await (.print ("codex-longrun history proxy: bounded tail unavailable for " ++ thread ++
        "; continuing without visible history: " ++ name))
      return []

/-- The turns that a protected read shows. -/
def ReadBlock.visibleTurns (proxy : CompatibilityProxy Frame) (thread : String) :
    ReadBlock Frame (List Json) := do
  if proxy.legacyHistoryMode ≠ .auto then
    return []
  match ← await (.getTail thread) with
  | some turns =>
      let _ ← Block.ofExcept (proxy.deepcopy .read (.arr turns))
      return turns
  | none =>
      ensureHelper
      let turns ← (fetchTurns proxy thread).handle (withoutHistory thread)
      let _ ← Block.ofExcept (proxy.deepcopy .read (.arr turns))
      await (.setTail thread turns)
      return turns

/-- `{"id": request_id, "result": …}` with the given turns. -/
def readResponse (id : JsonId) (summary : Json) (turns : List Json) : Json :=
  .obj [("id", id.toJson), ("result", withTurns summary turns)]

/-- The response is too long to be sent with its turns. -/
def CompatibilityProxy.exceeds (proxy : CompatibilityProxy Frame) (response : Json) : Bool :=
  proxy.helperMaxMessageBytes < proxy.dumpsLength response

/-- Answers a read with the given turns, or with none where they are too long. -/
def ReadBlock.respond (proxy : CompatibilityProxy Frame) (id : JsonId) (thread : String)
    (summary : Json) (turns : List Json) : ReadBlock Frame Unit := do
  let summary ← Block.ofExcept (proxy.deepcopy .read summary)
  if proxy.exceeds (readResponse id summary turns) then
    await (.print ("codex-longrun history proxy: bounded tail exceeded its message limit for " ++
      thread ++ "; continuing without visible history"))
    await (.sendClient (.object (readResponse id summary [])))
  else await (.sendClient (.object (readResponse id summary turns)))

/-- `if summary is None`: reads a summary over a helper connection. -/
def ReadBlock.obtainSummary (proxy : CompatibilityProxy Frame) (thread : String) :
    ReadBlock Frame Json := do
  match (← Block.locals).summary with
  | some summary => return summary
  | none =>
      newHelper
      let result ← await (.helperCall (.threadRead thread))
      if (threadFromResult result).isNone then
        Block.raise (.exception "AppServerError")
      else
        let summary := withoutTurns (← Block.ofExcept (proxy.deepcopy .read result))
        Block.assign fun locals => { locals with summary := some summary }
        await (.setSummary thread summary)
        return summary

/-- The `try` block of `_handle_full_read`. -/
def ReadBlock.fullRead (proxy : CompatibilityProxy Frame) (id : JsonId) (thread : String)
    (frame : Frame) : ReadBlock Frame Unit := do
  let summary ← obtainSummary proxy thread
  match threadFromResult summary with
  | none => Block.raise (.exception "AssertionError")
  | some found =>
      if proxy.historyMode found ≠ some "legacy" then
        await (.sendUpstream (.raw frame))
      else
        let size ← rolloutSize found
        if ¬proxy.shouldProtect size then
          await (.sendUpstream (.raw frame))
        else
          let turns ← visibleTurns proxy thread
          respond proxy id thread summary turns

/-- The error response of a read without a summary. -/
def unsafeResponse (id : JsonId) : Json :=
  .obj [("id", id.toJson), ("error", .obj [("code", .int (-32001)),
    ("message", .str "Legacy history could not be read safely")])]

/-- Answers a read with the error response. -/
def refuseRead (id : JsonId) (thread : String) (name : String) : Coroutine Frame Unit := do
  await (.sendClient (.object (unsafeResponse id)))
  await (.print ("codex-longrun history proxy: cannot obtain a safe summary for " ++ thread ++
    ": " ++ name))

/-- Its `except Exception` clause. The summary is copied again. -/
def recoverRead (proxy : CompatibilityProxy Frame) (id : JsonId) (thread : String)
    (locals : ReadLocals) : Exit → Coroutine Frame Unit
  | .cancelled => .raised .cancelled
  | .exception name =>
      match locals.summary with
      | some summary => do
          let summary ← Script.ofExcept (proxy.deepcopy .read summary)
          if (threadFromResult summary).isSome then
            await (.sendClient (.object (readResponse id summary [])))
            await (.print ("codex-longrun history proxy: history protection fallback used for " ++
              thread ++ ": " ++ name))
          else refuseRead id thread name
      | none => refuseRead id thread name

/-- Its `finally` clause. -/
def closeHelper (locals : ReadLocals) : Coroutine Frame Unit :=
  if locals.helper then await .closeHelper else pure ()

/-- `_handle_full_read`. -/
def handleFullRead (proxy : CompatibilityProxy Frame) (read : Read Frame) : Coroutine Frame Unit :=
  match jsonId read.request, ((read.request.get "params").get "threadId").str? with
  | some id, some thread => do
      let summary ← await (.getSummary thread)
      (ReadBlock.fullRead proxy id thread read.frame).guarded ⟨summary, false⟩
        (recoverRead proxy id thread) closeHelper
  | _, _ => send read.frame

/-- `guarded_full_read`. -/
def guardedFullRead (proxy : CompatibilityProxy Frame) (read : Read Frame) : Coroutine Frame Unit :=
  withLock (.history read.thread) (handleFullRead proxy read)

/-! ### The loops over the frames -/

/-- Tells the session bridge about every thread that the connection owns. -/
def tellOwned : List String → Coroutine Frame Unit
  | [] => pure ()
  | thread :: threads => do
      await (.userActivity thread)
      tellOwned threads

/-- A request that counts as activity of the user. -/
def userActivity (message : Json) (frame : Frame) : Coroutine Frame Unit :=
  withLock .activity do
    match ((message.get "params").get "threadId").str? with
    | some thread =>
        await (.userActivity thread)
        if ["thread/goal/set", "thread/goal/clear"].any (message.get "method").isStr then
          await (.userGoalControl thread frame)
        else send frame
    | none =>
        tellOwned (← await .ownedThreads)
        send frame

/-- One frame in `client_to_upstream`. -/
def clientToUpstream (proxy : CompatibilityProxy Frame) (frame : Frame) : Coroutine Frame Unit := do
  match ← Script.ofExcept (proxy.classify frame) with
  | .forward => send frame
  | .activity message => userActivity message frame
  | .summaryRead id thread =>
      await (.setPendingRead id thread)
      send frame
  | .fullRead read => await (.createTask read)

/-- The message is a response. -/
def isResponse (message : Json) : Bool := ¬message.hasKey "method"

/-- A response to an internal request: it completes its call, or it comes too late. -/
def takeInternal (message : Json) : Coroutine Frame Bool := do
  if isResponse message then
    match ← await (.getInternal (message.get "id")) with
    | some call =>
        await (.setResult call message)
        return true
    | none => await (.isInternal (message.get "id"))
  else return false

/-- `await self.session_bridge.observe(peer, method, params)`, which ends as given. -/
def CompatibilityProxy.observe (proxy : CompatibilityProxy Frame) (message : Json)
    (observed : Except Exit Unit) : Coroutine Frame Unit :=
  if proxy.hasSessionBridge ∧ (message.get "method").str?.isSome ∧ (message.get "params").isDict then
    .ofExcept observed
  else pure ()

/-- The thread whose turns a notification reports to have changed. -/
def changedThread (message : Json) : Except Exit (Option String) := do
  if ← inStrings (message.get "method") ["turn/started", "turn/completed"] then
    return ((message.get "params").get "threadId").str?
  return none

/-- The thread of the summary read that a response belongs to. -/
def takePendingRead (message : Json) : Coroutine Frame (Option String) :=
  match jsonId message with
  | some id => await (.popPendingRead id)
  | none => pure none

/-- Keeps the summary in a result, under its own thread or else the one that was read. -/
def storeSummary (proxy : CompatibilityProxy Frame) (result : Json) (expected : Option String) :
    Coroutine Frame Unit :=
  match threadFromResult result with
  | none => pure ()
  | some thread =>
      match (threadId thread).or expected with
      | some id => do
          let cached ← Script.ofExcept (proxy.deepcopy .relay result)
          await (.setSummary id (withoutTurns cached))
      | none => pure ()

/-- Keeps the summary in a response. -/
def keepSummary (proxy : CompatibilityProxy Frame) (message : Json) : Coroutine Frame Unit := do
  if isResponse message then
    storeSummary proxy (message.get "result") (← takePendingRead message)

/-- Forgets the cached turns of a thread whose turns have changed. -/
def forgetTail : Option String → Coroutine Frame Unit
  | some thread => await (.popTail thread)
  | none => pure ()

/-- What `upstream_to_client` does with a message before it is forwarded. -/
def noticeMessage (proxy : CompatibilityProxy Frame) (message : Json)
    (observed : Except Exit Unit) : Coroutine Frame Unit := do
  proxy.observe message observed
  forgetTail (← Script.ofExcept (changedThread message))
  keepSummary proxy message

/-- One frame in `upstream_to_client`. -/
def upstreamToClient (proxy : CompatibilityProxy Frame) (frame : Frame)
    (observed : Except Exit Unit) : Coroutine Frame Unit := do
  match ← Script.ofExcept (proxy.decodeObject frame) with
  | none => await (.sendClient (.raw frame))
  | some message =>
      if ← takeInternal message then pure ()
      else
        noticeMessage proxy message observed
        await (.sendClient (.raw frame))

/-! ### Internal calls -/

/-- The request that an internal call sends. -/
def internalRequest (id : String) (method : String) (params : Json) : Json :=
  .obj [("id", .str id), ("method", .str method), ("params", params)]

/-- `Peer.call`; what it returns goes to the session bridge. -/
def peerCall (method : String) (params : Json) : Coroutine Frame Json := do
  let id ← await .register
  Script.finish (do
    await (.sendUpstream (.object (internalRequest id method params)))
    await .waitFor
    let response ← await .futureResult
    if response.hasKey "error" then .raised (.exception "AppServerError")
    else return response.get "result") (await (.popInternal id))

/-- `Peer.exclusive`. -/
def exclusive : Coroutine Frame Unit := withLock .activity (await .operation)

end Longrun.Tui
