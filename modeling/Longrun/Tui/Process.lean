import Longrun.Tui.Connection

/-!
# The tasks of one TUI connection

The shared variables of `_handle_client`, what each call does to them, and the system in which the
tasks take turns. Every call that waits, every reply to one and every frame that arrives is in the
trace, newest first.
-/

namespace Longrun.Tui

open Process (World Action Entering)

/-- The future of an internal call. -/
inductive Future where
  | pending
  | result (message : Json)
  | cancelled

inductive Event (Frame : Type) where
  /-- The loop over the frames of the App Server takes a frame. -/
  | arrived (frame : Frame)
  | called (task : Task) (request : Call Frame)
  | replied (task : Task) (request : Call Frame) (reply : Except Exit request.Answer)
  /-- A message becomes the result of the future of a call. -/
  | completed (call : Nat) (message : Json)
  /-- An id is taken out of `internal_requests`. -/
  | removed (id : String)

/-- The variables of `_handle_client`. -/
structure Memory (Frame : Type) where
  summaries : Dict String Json
  pendingSummaryReads : Dict JsonId String
  tailCache : Dict String (List Json)
  /-- Who holds each lock. -/
  holder : Lock → Option Task
  /-- The reads that tasks were created for, and how many of the tasks have started. -/
  reads : List (Read Frame)
  startedReads : Nat
  internalRequests : Dict String Nat
  internalIds : Dict String Unit
  futures : Nat → Future
  calls : Nat
  exclusives : Nat
  /-- The exceptions that printing raises, if any, and how many lines have been printed. -/
  printing : Nat → Option String
  printed : Nat
  trace : List (Event Frame)

variable {Frame : Type}

/-- The ids that internal calls were given, newest first. -/
def issuedIds : List (Event Frame) → List String
  | [] => []
  | .replied _ .register (.ok id) :: trace => id :: issuedIds trace
  | _ :: trace => issuedIds trace

namespace Memory

def initial (printing : Nat → Option String) : Memory Frame where
  summaries := .empty
  pendingSummaryReads := .empty
  tailCache := .empty
  holder _ := none
  reads := []
  startedReads := 0
  internalRequests := .empty
  internalIds := .empty
  futures _ := .pending
  calls := 0
  exclusives := 0
  printing := printing
  printed := 0
  trace := []

variable (memory : Memory Frame)

def log (event : Event Frame) : Memory Frame := { memory with trace := event :: memory.trace }

/-- How many ids of internal calls are remembered. -/
def maxInternalIds : Nat := 256

/-- `internal_requests[id] = future`, and `internal_ids[id] = None` with the eviction. -/
def registerCall (call : Nat) (id : String) : Memory Frame :=
  { memory with
    internalRequests := memory.internalRequests.set id call
    internalIds := (memory.internalIds.set id ()).evict maxInternalIds }

/-- Changes the future of a call that is not done. -/
def settleFuture (call : Nat) (future : Future) : Memory Frame :=
  match memory.futures call with
  | .pending => { memory with futures := Function.update memory.futures call future }
  | _ => memory

/-- `set_result`, unless the future is done. -/
def complete (call : Nat) (message : Json) : Memory Frame :=
  match memory.futures call with
  | .pending => (memory.settleFuture call (.result message)).log (.completed call message)
  | _ => memory

end Memory

/-- `internal_requests.get(id)`, which raises for an unhashable id. -/
def lookInternal (memory : Memory Frame) (id : Json) : Except Exit (Option Nat) :=
  if id.hashable then .ok (id.str?.bind memory.internalRequests.get?)
  else .error (.exception "TypeError")

/-- `id in internal_ids`. -/
def knowsInternal (memory : Memory Frame) (id : Json) : Except Exit Bool :=
  if id.hashable then .ok (id.str?.any fun text => (memory.internalIds.get? text).isSome)
  else .error (.exception "TypeError")

/-- `future.result()`, for the future of the calling task. -/
def resultOf (task : Task) (memory : Memory Frame) : Except Exit Json :=
  match task with
  | .call number =>
      match memory.futures number with
      | .result message => .ok message
      | _ => .error (.exception "InvalidStateError")
  | _ => .error (.exception "InvalidStateError")

/-- `print` to the standard error stream, which does not wait. -/
def printed (memory : Memory Frame) : Except Exit Unit :=
  match memory.printing memory.printed with
  | none => .ok ()
  | some name => .error (.exception name)

/-- The calls that are answered at once, and the others. -/
def perform (task : Task) (memory : Memory Frame) (request : Call Frame) :
    Performed (Except Exit request.Answer) (Memory Frame) :=
  match request with
  | .getSummary thread => .replies (.ok (memory.summaries.get? thread)) memory
  | .setSummary thread summary =>
      .replies (.ok ()) { memory with summaries := memory.summaries.set thread summary }
  | .getTail thread => .replies (.ok (memory.tailCache.get? thread)) memory
  | .setTail thread turns =>
      .replies (.ok ()) { memory with tailCache := memory.tailCache.set thread turns }
  | .popTail thread =>
      .replies (.ok ()) { memory with tailCache := memory.tailCache.pop thread }
  | .setPendingRead id thread =>
      .replies (.ok ())
        { memory with pendingSummaryReads := memory.pendingSummaryReads.set id thread }
  | .popPendingRead id =>
      .replies (.ok (memory.pendingSummaryReads.get? id))
        { memory with pendingSummaryReads := memory.pendingSummaryReads.pop id }
  | .createTask read => .replies (.ok ()) { memory with reads := memory.reads ++ [read] }
  | .getInternal id => .replies (lookInternal memory id) memory
  | .isInternal id => .replies (knowsInternal memory id) memory
  | .setResult call message => .replies (.ok ()) (memory.complete call message)
  | .futureResult => .replies (resultOf task memory) memory
  | .popInternal id =>
      .replies (.ok ()) ({ memory with internalRequests := memory.internalRequests.pop id }.log
        (.removed id))
  | .print line =>
      .replies (printed memory)
        ({ memory with printed := memory.printed + 1 }.log
          (.replied task (.print line) (printed memory)))
  | .release lock =>
      if memory.holder lock = some task then
        .replies (.ok ()) { memory with holder := Function.update memory.holder lock none }
      else .replies (.error (.exception "RuntimeError")) memory
  | request => .waits (memory.log (.called task request))

/-- The changes that come with a reply, where it is possible. A new id differs from all before. -/
def grant (task : Task) (memory : Memory Frame) (request : Call Frame)
    (reply : Except Exit request.Answer) : Option (Memory Frame) :=
  match request, reply with
  | .acquire lock, .ok _ =>
      if memory.holder lock = none then
        some { memory with holder := Function.update memory.holder lock (some task) }
      else none
  | .register, .ok id =>
      match task with
      | .call number =>
          if id ∈ issuedIds memory.trace then none else some (memory.registerCall number id)
      | _ => none
  | .register, .error _ => none
  | .waitFor, reply =>
      match task with
      | .call number =>
          match reply, memory.futures number with
          | .ok _, .result _ => some memory
          | .ok _, _ => none
          | .error _, _ => some (memory.settleFuture number .cancelled)
      | _ => none
  | _, _ => some memory

/-- The reply to a call that waits. -/
def answer (task : Task) (memory : Memory Frame) (request : Call Frame)
    (reply : Except Exit request.Answer) : Option (Memory Frame) :=
  (grant task memory request reply).map (·.log (.replied task request reply))

/-- What starts a task: a frame, and for one from the App Server how its observation ends; the loop's
turn to start the next read; a call or an operation of the session bridge; the end of a future. -/
inductive Entry (Frame : Type) where
  | fromTui (frame : Frame)
  | fromAppServer (frame : Frame) (observed : Except Exit Unit)
  | startRead
  | call (method : String) (params : Json)
  | exclusive
  | expire (call : Nat)

/-- Starts a task. The tasks of reads start in the order in which they were created. -/
def enter (proxy : CompatibilityProxy Frame) (task : Task) (memory : Memory Frame)
    (entry : Entry Frame) : Option (Memory Frame × Coroutine Frame Unit) :=
  match task, entry with
  | .client, .fromTui frame => some (memory, clientToUpstream proxy frame)
  | .upstream, .fromAppServer frame observed =>
      some (memory.log (.arrived frame), upstreamToClient proxy frame observed)
  | .read number, .startRead =>
      if memory.startedReads = number then
        memory.reads[number]?.map fun read =>
          ({ memory with startedReads := number + 1 }, guardedFullRead proxy read)
      else none
  | .call number, .call method params =>
      if memory.calls = number then
        some ({ memory with calls := number + 1 }, do let _ ← peerCall method params)
      else none
  | .exclusive number, .exclusive =>
      if memory.exclusives = number then
        some ({ memory with exclusives := number + 1 }, exclusive)
      else none
  | .timer, .expire call =>
      if call < memory.calls then some (memory.settleFuture call .cancelled, pure ()) else none
  | _, _ => none

/-- The tasks of a connection. -/
def connectionProcess (proxy : CompatibilityProxy Frame) (printing : Nat → Option String) :
    Process (connection Frame) Exit Task (Entry Frame) (Memory Frame) where
  initial := .initial printing
  enter := enter proxy
  perform := perform
  answer := answer

/-! ### The calls of each task -/

/-- The calls that a task may make. -/
def Task.MayCall (proxy : CompatibilityProxy Frame) : Task → Call Frame → Prop
  | .client, .setPendingRead _ _ => True
  | .client, .createTask source => ∃ frame, proxy.classify frame = .ok (.fullRead source)
  | .client, .sendUpstream (.raw _) => True
  | .client, .acquire .activity => True
  | .client, .release .activity => True
  | .client, .userActivity _ => True
  | .client, .ownedThreads => True
  | .client, .userGoalControl _ _ => True
  | .upstream, .getInternal _ => True
  | .upstream, .isInternal _ => True
  | .upstream, .setResult _ _ => True
  | .upstream, .popTail _ => True
  | .upstream, .popPendingRead _ => True
  | .upstream, .setSummary _ _ => True
  | .upstream, .sendClient (.raw _) => True
  | .read _, .acquire (.history _) => True
  | .read _, .release (.history _) => True
  | .read _, .getSummary _ => True
  | .read _, .setSummary _ _ => True
  | .read _, .getTail _ => True
  | .read _, .setTail _ _ => True
  | .read _, .sendUpstream (.raw _) => True
  | .read _, .sendClient (.object _) => True
  | .read _, .newHelper => True
  | .read _, .helperCall _ => True
  | .read _, .closeHelper => True
  | .read _, .expandUser _ => True
  | .read _, .stat _ => True
  | .read _, .print _ => True
  | .call _, .register => True
  | .call _, .sendUpstream (.object _) => True
  | .call _, .waitFor => True
  | .call _, .futureResult => True
  | .call _, .popInternal _ => True
  | .exclusive _, .acquire .activity => True
  | .exclusive _, .release .activity => True
  | .exclusive _, .operation => True
  | _, _ => False

section Uses

variable {proxy : CompatibilityProxy Frame} {allowed : Call Frame → Prop} {number : Nat}

theorem await_uses {request : Call Frame} (isAllowed : allowed request) :
    (await request).Uses allowed :=
  Script.uses_perform isAllowed

theorem readAwait_uses {request : Call Frame} (isAllowed : allowed request) :
    (ReadBlock.await request).Uses allowed :=
  Block.uses_call isAllowed

theorem withLock_uses {Value : Type} {lock : Lock} {body : Coroutine Frame Value}
    (acquires : allowed (.acquire lock)) (releases : allowed (.release lock))
    (uses : body.Uses allowed) : (withLock lock body).Uses allowed := by
  apply (await_uses acquires).monadBind
  intro _
  exact uses.finish (await_uses releases)

theorem tellOwned_uses (threads : List String) :
    (tellOwned threads : Coroutine Frame Unit).Uses (Task.client.MayCall proxy) := by
  induction threads with
  | nil => trivial
  | cons thread threads ih => exact (await_uses trivial).monadBind fun _ => ih

theorem userActivity_uses (message : Json) (frame : Frame) :
    (userActivity message frame).Uses (Task.client.MayCall proxy) := by
  apply withLock_uses trivial trivial
  split
  · apply (await_uses trivial).monadBind
    intro _
    split <;> exact await_uses trivial
  · apply (await_uses trivial).monadBind
    intro threads
    exact (tellOwned_uses threads).monadBind fun _ => await_uses trivial

theorem clientToUpstream_uses (frame : Frame) :
    (clientToUpstream proxy frame).Uses (Task.client.MayCall proxy) := by
  rw [clientToUpstream]
  cases classified : proxy.classify frame with
  | error exit => trivial
  | ok handling =>
      cases handling with
      | forward => exact await_uses trivial
      | summaryRead id thread => exact (await_uses trivial).monadBind fun _ => await_uses trivial
      | fullRead read => exact await_uses ⟨frame, classified⟩
      | activity message => exact userActivity_uses message frame

theorem peerCall_uses (method : String) (params : Json) :
    (peerCall method params : Coroutine Frame Json).Uses ((Task.call number).MayCall proxy) := by
  apply (await_uses trivial).monadBind
  intro id
  apply Script.Uses.finish _ (await_uses trivial)
  apply (await_uses trivial).monadBind
  intro _
  apply (await_uses trivial).monadBind
  intro _
  apply (await_uses trivial).monadBind
  intro response
  split <;> trivial

theorem exclusive_uses : (exclusive : Coroutine Frame Unit).Uses ((Task.exclusive number).MayCall proxy) :=
  withLock_uses trivial trivial (await_uses trivial)

theorem newHelper_uses :
    (ReadBlock.newHelper : ReadBlock Frame Unit).Uses ((Task.read number).MayCall proxy) :=
  (readAwait_uses trivial).bind fun _ => Block.uses_assign _

theorem ensureHelper_uses :
    (ReadBlock.ensureHelper : ReadBlock Frame Unit).Uses ((Task.read number).MayCall proxy) := by
  apply Block.uses_locals.bind
  intro locals
  split
  · exact Block.uses_pure _
  · exact newHelper_uses

theorem fetchTurns_uses (thread : String) :
    (ReadBlock.fetchTurns proxy thread).Uses ((Task.read number).MayCall proxy) := by
  apply (readAwait_uses trivial).bind
  intro page
  split
  · exact Block.uses_pure _
  · exact Block.uses_raise _

theorem withoutHistory_uses (thread : String) (exit : Exit) :
    (ReadBlock.withoutHistory thread exit : ReadBlock Frame (List Json)).Uses
      ((Task.read number).MayCall proxy) := by
  cases exit with
  | cancelled => exact Block.uses_raise _
  | exception name => exact (readAwait_uses trivial).bind fun _ => Block.uses_pure _

theorem visibleTurns_uses (thread : String) :
    (ReadBlock.visibleTurns proxy thread).Uses ((Task.read number).MayCall proxy) := by
  rw [ReadBlock.visibleTurns]
  split
  · exact Block.uses_pure _
  · apply (readAwait_uses trivial).bind
    intro cached
    cases cached with
    | some turns => exact (Block.uses_ofExcept _).bind fun _ => Block.uses_pure _
    | none =>
        apply ensureHelper_uses.bind
        intro _
        apply ((fetchTurns_uses thread).handle (withoutHistory_uses thread)).bind
        intro turns
        apply (Block.uses_ofExcept _).bind
        intro _
        exact (readAwait_uses trivial).bind fun _ => Block.uses_pure _

theorem rolloutSize_uses (found : Json) :
    (ReadBlock.rolloutSize found : ReadBlock Frame (Option Nat)).Uses ((Task.read number).MayCall proxy) := by
  rw [ReadBlock.rolloutSize]
  split
  · exact Block.uses_pure _
  · apply (readAwait_uses trivial).bind
    intro path
    split
    · exact (readAwait_uses trivial).bind fun _ => Block.uses_pure _
    · exact Block.uses_pure _

theorem obtainSummary_uses (thread : String) :
    (ReadBlock.obtainSummary proxy thread).Uses ((Task.read number).MayCall proxy) := by
  apply Block.uses_locals.bind
  intro locals
  split
  · exact Block.uses_pure _
  · apply newHelper_uses.bind
    intro _
    apply (readAwait_uses trivial).bind
    intro result
    split
    · exact Block.uses_raise _
    · apply (Block.uses_ofExcept _).bind
      intro copied
      apply (Block.uses_assign _).bind
      intro _
      exact (readAwait_uses trivial).bind fun _ => Block.uses_pure _

theorem respond_uses (id : JsonId) (thread : String)
    (summary : Json) (turns : List Json) :
    (ReadBlock.respond proxy id thread summary turns).Uses ((Task.read number).MayCall proxy) := by
  rw [ReadBlock.respond]
  apply (Block.uses_ofExcept _).bind
  intro copied
  split
  · exact (readAwait_uses trivial).bind fun _ => readAwait_uses trivial
  · exact readAwait_uses trivial

theorem fullRead_uses (id : JsonId) (thread : String)
    (frame : Frame) : (ReadBlock.fullRead proxy id thread frame).Uses ((Task.read number).MayCall proxy) := by
  apply (obtainSummary_uses thread).bind
  intro summary
  split
  · exact Block.uses_raise _
  · split
    · exact readAwait_uses trivial
    · apply (rolloutSize_uses _).bind
      intro size
      split
      · exact readAwait_uses trivial
      · exact (visibleTurns_uses thread).bind fun turns => respond_uses _ _ _ turns

theorem refuseRead_uses (id : JsonId) (thread name : String) :
    (refuseRead id thread name : Coroutine Frame Unit).Uses ((Task.read number).MayCall proxy) :=
  (await_uses trivial).monadBind fun _ => await_uses trivial

theorem recoverRead_uses (id : JsonId) (thread : String) (locals : ReadLocals) (exit : Exit) :
    (recoverRead proxy id thread locals exit).Uses ((Task.read number).MayCall proxy) := by
  cases exit with
  | cancelled => trivial
  | exception name =>
      rw [recoverRead]
      split
      · apply (Script.uses_ofExcept _).monadBind
        intro summary
        split
        · exact (await_uses trivial).monadBind fun _ => await_uses trivial
        · exact refuseRead_uses id thread name
      · exact refuseRead_uses id thread name

theorem closeHelper_uses (locals : ReadLocals) :
    (closeHelper locals : Coroutine Frame Unit).Uses ((Task.read number).MayCall proxy) := by
  rw [closeHelper]
  split
  · exact await_uses trivial
  · trivial

theorem guardedFullRead_uses (read : Read Frame) :
    (guardedFullRead proxy read).Uses ((Task.read number).MayCall proxy) := by
  apply withLock_uses trivial trivial
  rw [handleFullRead]
  split
  · apply (await_uses trivial).monadBind
    intro summary
    exact (fullRead_uses _ _ _).guarded (recoverRead_uses _ _) closeHelper_uses
  · exact await_uses trivial

/-- Every task but the loop over the frames of the App Server makes its own calls only. -/
theorem enter_uses {task : Task} {memory after : Memory Frame}
    {entry : Entry Frame} {script : Coroutine Frame Unit} (different : task ≠ .upstream)
    (entered : enter proxy task memory entry = some (after, script)) :
    script.Uses (task.MayCall proxy) := by
  rw [enter.eq_def] at entered
  split at entered
  · cases entered
    exact clientToUpstream_uses _
  · exact absurd rfl different
  · split_ifs at entered
    rcases Option.map_eq_some_iff.mp entered with ⟨read, -, isScript⟩
    cases isScript
    exact guardedFullRead_uses read
  · split_ifs at entered
    cases entered
    exact (peerCall_uses _ _).monadBind fun _ => trivial
  · split_ifs at entered
    cases entered
    exact exclusive_uses
  · split_ifs at entered
    cases entered
    trivial
  · cases entered

end Uses

end Longrun.Tui
