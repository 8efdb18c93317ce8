import Longrun.Library.Json
import Longrun.Bridge.State

/-!
# Requests, answers and the checks on them

The bridge takes JSON requests from the job server and sends JSON requests to the App Server. This
file holds what the coordinator checks about both without looking at its own state: the syntax of
identifiers, the arguments of a registration, the identity of a Goal in an answer.
-/

namespace Longrun.Bridge

def protocolVersion : Int := 1

/-- The requests that the coordinator sends to the App Server, with the parameters it chooses. -/
inductive Rpc where
  /-- `thread/goal/get` -/
  | goalGet (thread : ThreadId)
  /-- `thread/goal/set` -/
  | goalSet (thread : ThreadId) (status : String)
  /-- `thread/read` without turns -/
  | threadRead (thread : ThreadId)
  /-- `thread/turns/list`, newest turn only -/
  | turnsList (thread : ThreadId)
  /-- `turn/interrupt` -/
  | turnInterrupt (thread : ThreadId) (turn : Option String)
  /-- `thread/inject_items` with one developer message -/
  | injectItems (thread : ThreadId) (text : String)
  /-- `turn/start` with one text input -/
  | turnStart (thread : ThreadId) (text : String)
deriving DecidableEq

/-- A computation that may raise succeeds if both of its parts do. -/
theorem bind_eq_ok {First Second : Type} {first : Except PyError First}
    {next : First → Except PyError Second} {result : Second} :
    first.bind next = .ok result ↔ ∃ value, first = .ok value ∧ next value = .ok result := by
  cases first <;> simp [Except.bind]

/-! ### Identifiers -/

def isLowerHex (char : Char) : Bool :=
  ('0' ≤ char && char ≤ '9') || ('a' ≤ char && char ≤ 'f')

/-- `_job_id`: `JOB_ID_RE` is `^[a-f0-9]{32}$`, matched in full. -/
def jobIdOf (value : Json) : Except PyError JobId :=
  match value with
  | .str text =>
      if text.toList.length = 32 ∧ text.toList.all isLowerHex then .ok text
      else .error (valueError "invalid job_id")
  | _ => .error (valueError "invalid job_id")

/-- `str.lower`, which on the characters of a UUID is the lower case of ASCII. -/
def lower (text : String) : String := String.ofList (text.toList.map Char.toLower)

/-- The canonical form of a UUID: hexadecimal groups of 8, 4, 4, 4 and 12 digits. -/
def isCanonicalUuid (text : String) : Bool :=
  let groups := text.toList.splitOn '-'
  groups.map List.length = [8, 4, 4, 4, 12] && groups.all fun group => group.all isLowerHex

/-- Takes the characters away that satisfy a condition, at both ends: `str.strip`. -/
def stripChars (drop : Char → Bool) (chars : List Char) : List Char :=
  ((chars.dropWhile drop).reverse.dropWhile drop).reverse

/-- `str.isspace` for ASCII. -/
def isAsciiSpace (char : Char) : Bool :=
  char = ' ' || ('\t' ≤ char && char ≤ '\r') || ('\x1c' ≤ char && char ≤ '\x1f')

/-- `int(text, 16)` reads a text of ASCII characters: white space around it, a sign, `0x`, and digits
in groups that are separated by single underscores. -/
def readsAsHex (chars : List Char) : Bool :=
  let bare := stripChars isAsciiSpace chars
  let unsigned := if bare.head? = some '+' then bare.tail else bare
  let digits :=
    if (unsigned.take 2).map Char.toLower = ['0', 'x'] then
      if (unsigned.drop 2).head? = some '_' then unsigned.drop 3 else unsigned.drop 2
    else unsigned
  (digits.splitOn '_').all fun group => group ≠ [] && group.all fun char => isLowerHex char.toLower

/-- What `uuid.UUID` accepts: 32 characters after removing the prefixes, braces and hyphens, which
are read as a hexadecimal number. -/
def parsesAsUuid (text : String) : Bool :=
  let bare := ((text.replace "urn:" "").replace "uuid:" "").toList
  let stripped := (stripChars (fun char => char ∈ ['\x7b', '\x7d']) bare).filter (· ≠ '-')
  stripped.length = 32 && readsAsHex stripped

/-- `_thread_id`. -/
def threadIdOf (value : Json) : Except PyError ThreadId :=
  match value with
  | .str text =>
      if isCanonicalUuid (lower text) then .ok (lower text)
      else if parsesAsUuid text then
        .error (valueError "thread_id must use canonical UUID syntax")
      else .error (valueError "invalid thread_id")
  | _ => .error (valueError "invalid thread_id")

/-! ### Registration requests -/

/-- A Goal registration in progress. -/
structure PrepareCall where
  jobId : JobId
  threadId : ThreadId
  timeoutSec : Int
  gracePeriodSec : Int
deriving DecidableEq

def weekSec : Int := 7 * 24 * 60 * 60

/-- The arguments of `GoalBridge._prepare`. `isinstance(_, int)` lets booleans pass. -/
def prepareArguments (jobId : JobId) (request : Json) : Except PyError PrepareCall := do
  let threadId ← threadIdOf (request.get "thread_id")
  let some timeoutSec := (request.get "timeout_sec").int?
    | throw (valueError "invalid timeout_sec")
  if ¬(1 ≤ timeoutSec ∧ timeoutSec ≤ weekSec) then throw (valueError "invalid timeout_sec")
  let some gracePeriodSec := (request.get "grace_period_sec").int?
    | throw (valueError "invalid grace_period_sec")
  if ¬(1 ≤ gracePeriodSec ∧ gracePeriodSec ≤ 120) then
    throw (valueError "invalid grace_period_sec")
  return ⟨jobId, threadId, timeoutSec, gracePeriodSec⟩

/-- The text of `terminal_state` in a terminal request. -/
def terminalStateOf (request : Json) : Except PyError String :=
  match request.get "terminal_state" with
  | .str text =>
      if text.length ≤ 64 then .ok text else .error (valueError "invalid terminal_state")
  | _ => .error (valueError "invalid terminal_state")

theorem terminalStateOf_ok_iff {request : Json} {text : String} :
    terminalStateOf request = .ok text ↔
      request.get "terminal_state" = .str text ∧ text.length ≤ 64 := by
  rw [terminalStateOf]
  constructor
  · intro found
    split at found
    · rename_i given isGiven
      split_ifs at found with short
      rcases Except.ok.inj found with rfl
      exact ⟨isGiven, short⟩
    · cases found
  · rintro ⟨isText, short⟩
    simp only [isText, if_pos short]

/-- `value in {...}` for a set of strings, which raises for an unhashable value. -/
def inStrings (value : Json) (texts : List String) : Except PyError Bool :=
  if value.hashable then .ok (texts.any value.isStr)
  else .error ⟨"TypeError", "unhashable type"⟩

/-! ### Answers of the App Server -/

/-- `_goal_from_result`. -/
def goalFromResult (result : Json) : Except PyError Json :=
  if result.isDict ∧ (result.get "goal").isDict then .ok (result.get "goal")
  else .error (runtimeError "thread has no durable Goal")

/-- `_same_goal`: the identity of a Goal is its thread, creation time and objective. -/
def sameGoal (lease : WakeLease) (goal : Json) : Bool :=
  (goal.get "threadId").isStr lease.threadId &&
    (goal.get "createdAt").isInt lease.goalCreatedAt &&
    (goal.get "objective").isStr lease.objective

theorem sameGoal_iff {lease : WakeLease} {goal : Json} :
    sameGoal lease goal = true ↔ goal.get "threadId" = .str lease.threadId ∧
      (goal.get "createdAt").isInt lease.goalCreatedAt = true ∧
        goal.get "objective" = .str lease.objective := by
  rw [sameGoal, Bool.and_eq_true, Bool.and_eq_true, Json.isStr_iff, Json.isStr_iff, and_assoc]

/-- `_thread_status`. -/
def threadStatus (result : Json) : Except PyError String :=
  if result.isDict then
    match ((result.get "thread").get "status").get "type" with
    | .str text => .ok text
    | _ => .error (runtimeError "thread/read response has no runtime status")
  else .error (runtimeError "invalid thread/read response")

/-- The identity and revision of an active Goal: objective, creation and update times. -/
def activeGoal (result : Json) : Except PyError (String × Int × Int) := do
  let goal ← goalFromResult result
  if ¬(goal.get "status").isStr "active" then
    throw (runtimeError "Goal wakeup requires an active Goal")
  let some objective := (goal.get "objective").str?
    | throw (runtimeError "App Server returned incomplete Goal identity")
  let some createdAt := (goal.get "createdAt").int?
    | throw (runtimeError "App Server returned incomplete Goal identity")
  let some updatedAt := (goal.get "updatedAt").int?
    | throw (runtimeError "App Server returned incomplete Goal identity")
  return (objective, createdAt, updatedAt)

/-- The revision of the pause that the App Server confirms in the answer to `set(paused)`. -/
def pausedRevision (lease : WakeLease) (updatedAt : Int) (result : Json) :
    Except PyError Int := do
  let paused ← goalFromResult result
  if ¬sameGoal lease paused ∨ ¬(paused.get "status").isStr "paused" then
    throw (runtimeError "Goal identity changed while the wake lease was being armed")
  let some pausedUpdatedAt := (paused.get "updatedAt").exactInt?
    | throw (runtimeError "App Server returned incomplete paused Goal revision")
  if pausedUpdatedAt < updatedAt then
    throw (runtimeError "App Server returned incomplete paused Goal revision")
  return pausedUpdatedAt

/-- A Goal that is the lease's, paused, at the given revision. -/
def pausedAt (lease : WakeLease) (revision : Int) (goal : Json) : Bool :=
  sameGoal lease goal && (goal.get "status").isStr "paused" &&
    (goal.get "updatedAt").isInt revision

/-- The read that follows the pause: it catches a change whose notification is still under way. -/
def confirmLatest (lease : WakeLease) (pausedUpdatedAt : Int) (result : Json) :
    Except PyError Unit := do
  let latest ← goalFromResult result
  if ¬pausedAt lease pausedUpdatedAt latest then
    throw (runtimeError "Goal changed while its bridge pause was being confirmed")

/-- Reconciles the notifications that arrived while the pause was being confirmed. -/
def reconcilePause (lease : WakeLease) (updatedAt pausedUpdatedAt : Int) :
    Bool → List Json → Except PyError Unit
  | _, [] => .ok ()
  | sawPausedNotification, notification :: rest =>
      let same := sameGoal lease notification
      let revision := (notification.get "updatedAt").exactInt?
      -- Superseded by the active snapshot that was read before the pause.
      if same ∧ revision.any (· ≤ updatedAt) then
        reconcilePause lease updatedAt pausedUpdatedAt sawPausedNotification rest
      -- Goal accounting may update the active snapshot before the pause.
      else if ¬sawPausedNotification ∧ same ∧ (notification.get "status").isStr "active" ∧
          revision.any (· ≤ pausedUpdatedAt) then
        reconcilePause lease updatedAt pausedUpdatedAt sawPausedNotification rest
      else if ¬pausedAt lease pausedUpdatedAt notification then
        .error (runtimeError "Goal was changed outside the bridge during registration")
      else reconcilePause lease updatedAt pausedUpdatedAt true rest

/-- The newest turn in an answer to `thread/turns/list`. -/
def latestTurn (result : Json) : Except PyError Json :=
  match result.get "data" with
  | .arr [turn] =>
      if turn.isDict then .ok turn
      else .error (runtimeError "cannot confirm the current turn through bounded history")
  | _ => .error (runtimeError "cannot confirm the current turn through bounded history")

/-- A turn with the given id and status. -/
def isTurn (turn : Json) (id : Option String) (status : String) : Bool :=
  (match id with
    | some id => (turn.get "id").isStr id
    | none => (turn.get "id").eq .null) && (turn.get "status").isStr status

theorem isTurn_some_iff {turn : Json} {id status : String} :
    isTurn turn (some id) status = true ↔
      turn.get "id" = .str id ∧ turn.get "status" = .str status := by
  rw [isTurn, Bool.and_eq_true, Json.isStr_iff, Json.isStr_iff]

end Longrun.Bridge
