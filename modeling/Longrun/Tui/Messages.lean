import Longrun.Library.Json

/-!
# Messages of the TUI connection

What the compatibility proxy reads from JSON-RPC messages: their ids, the thread of a result and
what its summary says about the history, and which requests of the TUI it does not simply forward.
-/

namespace Longrun.Tui

/-- How a coroutine is left early: `except Exception` handles an exception of the given type, and
not the cancellation of its task. -/
inductive Exit where
  | exception (name : String)
  | cancelled
deriving DecidableEq

/-- A request id, as `_json_id` accepts it. -/
inductive JsonId where
  | int (value : Int)
  | str (value : String)
deriving DecidableEq

def JsonId.toJson : JsonId → Json
  | .int value => .int value
  | .str value => .str value

/-- `_json_id`. -/
def jsonId (message : Json) : Option JsonId :=
  match message.get "id" with
  | .int value => some (.int value)
  | .str value => some (.str value)
  | _ => none

/-- `value in {…}` for a set of strings, which raises for an unhashable value. -/
def inStrings (value : Json) (texts : List String) : Except Exit Bool :=
  if value.hashable then .ok (texts.any value.isStr) else .error (.exception "TypeError")

/-- What `json.loads` makes of a frame: a value, one of the exceptions that `_decode_object` handles,
or another exception. -/
inductive Loaded where
  | value (value : Json)
  | invalid
  | raises (error : String)

/-- What goes out over a connection: a frame as it came in, or an object that is encoded. -/
inductive Outgoing (Frame : Type) where
  | raw (frame : Frame)
  | object (message : Json)

/-! ### Threads -/

/-- `_thread_from_result`. -/
def threadFromResult (result : Json) : Option Json :=
  if result.isDict ∧ (result.get "thread").isDict then some (result.get "thread") else none

/-- `_thread_id`. -/
def threadId (thread : Json) : Option String :=
  (thread.get "id").str?.filter (· ≠ "")

/-- `thread.get(key, thread.get(other))`. -/
def getOr (value : Json) (key other : String) : Json :=
  if value.hasKey key then value.get key else value.get other

/-- A result without the turns of its thread. -/
def withoutTurns (result : Json) : Json :=
  result.set "thread" ((result.get "thread").erase "turns")

/-- A result with the given turns of its thread. -/
def withTurns (result : Json) (turns : List Json) : Json :=
  result.set "thread" ((result.get "thread").set "turns" (.arr turns))

/-- What `_rollout_path` finds before `~` is expanded. -/
def rolloutText (thread : Json) : Option String :=
  let value := getOr thread "path" "rolloutPath"
  let value := if value.isDict then getOr value "path" "value" else value
  value.str?.filter (· ≠ "")

/-- `Path(text).is_absolute()`. -/
def isAbsolute (path : String) : Bool := path.toList.head? = some '/'

/-- What `stat` finds out about a file. -/
structure FileInfo where
  regular : Bool
  size : Nat
deriving DecidableEq

/-! ### Settings -/

inductive HistoryMode where
  | auto
  | omit
  | off
deriving DecidableEq

/-- Where `copy.deepcopy` is called. How deep a value may be nested depends on the stack there, which
is the same for all copies of one coroutine. -/
inductive CopyPlace where
  /-- `upstream_to_client` -/
  | relay
  /-- `_handle_full_read` -/
  | read
deriving DecidableEq

/-- `TuiCompatibilityProxy`, with what it uses of the libraries: `json.loads`, the length of a message
that `json.dumps` encodes (its parts have been copied, so they are not nested too deep for it),
`str.lower`, and the exception that `copy.deepcopy` raises, if any. -/
structure CompatibilityProxy (Frame : Type) where
  legacyHistoryMode : HistoryMode
  historyThresholdBytes : Nat
  historyTailTurns : Nat
  helperMaxMessageBytes : Int
  hasSessionBridge : Bool
  loads : Frame → Loaded
  dumpsLength : Json → Nat
  lower : String → String
  copyError : CopyPlace → Json → Option String
  threshold_pos : 0 < historyThresholdBytes
  tail_pos : 0 < historyTailTurns

variable {Frame : Type}

namespace CompatibilityProxy

variable (proxy : CompatibilityProxy Frame)

/-- `_decode_object`. -/
def decodeObject (frame : Frame) : Except Exit (Option Json) :=
  match proxy.loads frame with
  | .value value => .ok (if value.isDict then some value else none)
  | .invalid => .ok none
  | .raises error => .error (.exception error)

/-- `_history_mode`. -/
def historyMode (thread : Json) : Option String :=
  (getOr thread "historyMode" "history_mode").str?.map proxy.lower

/-- `copy.deepcopy`. A copy has the value of the original. -/
def deepcopy (place : CopyPlace) (value : Json) : Except Exit Json :=
  match proxy.copyError place value with
  | none => .ok value
  | some name => .error (.exception name)

/-- The summary of a result says that its thread has a Legacy history. -/
def isLegacy (summary : Json) : Bool :=
  (threadFromResult summary).any fun thread => proxy.historyMode thread = some "legacy"

/-- `should_protect`, for a Legacy thread of a known or unknown size. -/
def shouldProtect (size : Option Nat) : Bool :=
  proxy.legacyHistoryMode = .omit ∨
    proxy.legacyHistoryMode = .auto ∧ size.all (proxy.historyThresholdBytes ≤ ·)

theorem shouldProtect_iff (size : Option Nat) : proxy.shouldProtect size = true ↔
    proxy.legacyHistoryMode = .omit ∨ proxy.legacyHistoryMode = .auto ∧
      ∀ bytes, size = some bytes → proxy.historyThresholdBytes ≤ bytes := by
  cases size <;> simp [shouldProtect]

theorem isLegacy_iff (summary : Json) : proxy.isLegacy summary = true ↔
    ∃ thread mode, threadFromResult summary = some thread ∧
      getOr thread "historyMode" "history_mode" = .str mode ∧ proxy.lower mode = "legacy" := by
  have isMode (thread : Json) : proxy.historyMode thread = some "legacy" ↔
      ∃ mode, getOr thread "historyMode" "history_mode" = .str mode ∧
        proxy.lower mode = "legacy" := by
    simp only [historyMode, Option.map_eq_some_iff, Json.str?_eq_some_iff]
  simp only [isLegacy, Option.any_eq_true, decide_eq_true_eq, isMode, exists_and_left]

theorem deepcopy_cases (place : CopyPlace) (value : Json) :
    (proxy.copyError place value = none ∧ proxy.deepcopy place value = .ok value) ∨
      ∃ name, proxy.copyError place value = some name ∧
        proxy.deepcopy place value = .error (.exception name) := by
  rw [deepcopy]
  cases proxy.copyError place value with
  | none => exact .inl ⟨rfl, rfl⟩
  | some name => exact .inr ⟨name, rfl, rfl⟩

end CompatibilityProxy

/-- A proxy in automatic mode, without a session bridge, for frames that are parsed already. -/
def CompatibilityProxy.plain : CompatibilityProxy Json where
  legacyHistoryMode := .auto
  historyThresholdBytes := 1
  historyTailTurns := 5
  helperMaxMessageBytes := 100
  hasSessionBridge := false
  loads := .value
  dumpsLength _ := 0
  lower text := text
  copyError _ _ := none
  threshold_pos := by decide
  tail_pos := by decide

/-! ### Requests of the TUI -/

/-- The methods that count as activity of the user. -/
def activityMethods : List String :=
  ["turn/start", "turn/steer", "turn/interrupt", "thread/archive", "thread/unsubscribe",
    "thread/start", "thread/resume", "thread/goal/set", "thread/goal/clear", "thread/rollback",
    "thread/compact/start"]

/-- A full-history read: its thread, the request and the frame that it came in. -/
structure Read (Frame : Type) where
  thread : String
  request : Json
  frame : Frame

/-- What the proxy does with a frame from the TUI. -/
inductive Handling (Frame : Type) where
  | forward
  | activity (message : Json)
  | summaryRead (id : JsonId) (thread : String)
  | fullRead (read : Read Frame)

/-- Whether the session bridge is told about a message. -/
def CompatibilityProxy.isActivity (proxy : CompatibilityProxy Frame) (message : Json) :
    Except Exit Bool :=
  if proxy.hasSessionBridge then inStrings (message.get "method") activityMethods else .ok false

/-- The tests of `client_to_upstream`. -/
def CompatibilityProxy.classify (proxy : CompatibilityProxy Frame) (frame : Frame) :
    Except Exit (Handling Frame) := do
  let some message ← proxy.decodeObject frame
    | return .forward
  if ← proxy.isActivity message then
    return .activity message
  if ¬(message.get "method").isStr "thread/read" then
    return .forward
  let some id := jsonId message
    | return .forward
  let some thread := ((message.get "params").get "threadId").str?
    | return .forward
  if thread = "" then
    return .forward
  if ¬((message.get "params").get "includeTurns").isTrue then
    return .summaryRead id thread
  if proxy.legacyHistoryMode = .off then
    return .forward
  return .fullRead ⟨thread, message, frame⟩

end Longrun.Tui
