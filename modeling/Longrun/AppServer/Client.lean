import Longrun.Library.Dict
import Longrun.Library.Json
import Longrun.Library.Transition

/-!
# Calls of the App Server

A client has any number of calls in flight over its connection. A reader takes the messages of the
App Server one at a time and gives a response to the call whose id it has; calls time out and are
cancelled, sends fail, and the connection is closed and opened again meanwhile.
-/

namespace Longrun.AppServer

/-- Why everything that is pending fails. -/
inductive Loss where
  /-- `"Codex App Server connection closed"` -/
  | connectionClosed
  /-- `f"Codex App Server reader stopped: {exc}"` -/
  | readerStopped (text : String)

/-- Why a call raises an `AppServerError`. -/
inductive Failure where
  /-- `f"{method}: {response['error']}"` -/
  | error (method : String) (error : Json)
  /-- `f"Codex App Server request timed out: {method}"` -/
  | timedOut (method : String)
  /-- `f"Codex App Server request failed: {method}: {exc}"` -/
  | failed (method text : String)
  | lost (loss : Loss)

inductive Future where
  | waiting
  | result (message : Json)
  | exception (loss : Loss)
  | cancelled

/-- Where a call is. -/
inductive Stage where
  /-- It waits for the lock or for the connection. -/
  | sending
  /-- It waits for its future. -/
  | waiting
  | returned (value : Json)
  | raised (failure : Failure)
  | cancelled

structure Call where
  method : String
  /-- What is sent. -/
  message : Json
  future : Future
  stage : Stage

namespace Call

/-- The call has not ended. -/
def InFlight (call : Call) : Prop :=
  match call.stage with
  | .sending => True
  | .waiting => True
  | _ => False

/-- Completes the future, unless it is done. -/
def complete (call : Call) (future : Future) : Call :=
  match call.future with
  | .waiting => { call with future }
  | _ => call

/-- The call goes on with a response. -/
def answered (call : Call) (response : Json) : Call :=
  { call with
    stage :=
      if response.hasKey "error" then .raised (.error call.method (response.get "error"))
      else .returned (response.get "result") }

/-- How a call may end that has got a response. -/
def Shows (call : Call) (response : Json) : Prop :=
  match call.stage with
  | .returned value => response.hasKey "error" = false ∧ value = response.get "result"
  | .raised (.error _ error) => response.hasKey "error" = true ∧ error = response.get "error"
  | _ => True

/-- The call has ended with a response. -/
def responded (call : Call) : Bool :=
  match call.stage with
  | .returned _ => true
  | .raised (.error _ _) => true
  | _ => false

end Call

/-- The client. A call and its future are known by the number that the call has for its id. -/
structure Client where
  /-- `_connection is not None` -/
  connected : Bool
  nextId : Nat
  pending : Dict Int Nat
  calls : Nat → Option Call
  /-- The messages that the reader has taken, oldest first, and the number of the next call then. -/
  received : List (Json × Nat)

/-- A response to the request with an id, as the reader recognises it. -/
def isResponse (message : Json) (id : Int) : Bool :=
  message.isDict && (message.get "id").int? == some id && !message.hasKey "method"

namespace Client

def initial : Client where
  connected := false
  nextId := 1
  pending := .empty
  calls := fun _ => none
  received := []

def setCall (client : Client) (id : Nat) (call : Call) : Client :=
  { client with calls := Function.update client.calls id (some call) }

/-- `call` up to the first await. -/
def begin (client : Client) (method : String) (params : Json) : Client :=
  { client.setCall client.nextId
      { method
        message := .obj [("method", .str method), ("id", .int client.nextId), ("params", params)]
        future := .waiting
        stage := .sending } with
    nextId := client.nextId + 1
    pending := client.pending.set client.nextId client.nextId }

/-- `self._pending.pop(request_id, None)` -/
def forget (client : Client) (id : Nat) : Client :=
  { client with pending := client.pending.pop id }

/-- `_fail_pending`. -/
def failPending (client : Client) (loss : Loss) : Client :=
  { client with
    pending := .empty
    calls := fun id =>
      if client.pending.get? id = some id then
        (client.calls id).map (·.complete (.exception loss))
      else client.calls id }

/-- `_read_loop` with the next message. What it does with requests and notifications of the server
does not concern the calls. -/
def receive (client : Client) (message : Json) : Client :=
  let client := { client with received := client.received ++ [(message, client.nextId)] }
  match message.isDict, (message.get "id").int?, message.hasKey "method" with
  | true, some id, false =>
      match client.pending.get? id with
      | some number =>
          { client with
            pending := client.pending.pop id
            calls := Function.update client.calls number
              ((client.calls number).map (·.complete (.result message))) }
      | none => client
  | _, _, _ => client

/-- A call that waits for its future goes on. -/
def resume (client : Client) (id : Nat) (call : Call) : Option Client :=
  match call.stage, call.future with
  | .waiting, .result response => some (client.setCall id (call.answered response))
  | .waiting, .exception loss =>
      some ((client.forget id).setCall id { call with stage := .raised (.lost loss) })
  | _, _ => none

end Client

inductive Action where
  | connect
  | begin (method : String) (params : Json)
  | sent (id : Nat)
  | sendFails (id : Nat) (text : String)
  | receive (message : Json)
  /-- An exception ends the reader. -/
  | readerFails (text : String)
  | resume (id : Nat)
  | timeOut (id : Nat)
  | cancel (id : Nat)
  /-- `close` up to its first await. -/
  | disconnect
  /-- The end of `close`. -/
  | closed

/-- One step of a call that is in flight. -/
def advance (client : Client) (id : Nat) (call : Call) : Action → Option Client
  | .sent _ =>
      match call.stage with
      | .sending => some (client.setCall id { call with stage := .waiting })
      | _ => none
  | .sendFails _ text =>
      match call.stage with
      | .sending =>
          some ((client.forget id).setCall id
            { call with stage := .raised (.failed call.method text) })
      | _ => none
  | .resume _ => client.resume id call
  | .timeOut _ =>
      match call.stage with
      | .sending =>
          some ((client.forget id).setCall id
            { call with stage := .raised (.timedOut call.method) })
      | .waiting =>
          some ((client.forget id).setCall id
            { call.complete .cancelled with stage := .raised (.timedOut call.method) })
      | _ => none
  | .cancel _ =>
      match call.stage with
      -- The entry of a cancelled call stays in the table.
      | .sending => some (client.setCall id { call with stage := .cancelled })
      | .waiting =>
          some (client.setCall id { call.complete .cancelled with stage := .cancelled })
      | _ => none
  | _ => none

def step (client : Client) : Action → Option Client
  | .connect => if client.connected then none else some { client with connected := true }
  | .begin method params => if client.connected then some (client.begin method params) else none
  | .receive message => some (client.receive message)
  | .readerFails text => some (client.failPending (.readerStopped text))
  | .disconnect => some { client with connected := false }
  | .closed => some (client.failPending .connectionClosed)
  | .sent id => (client.calls id).bind fun call => advance client id call (.sent id)
  | .sendFails id text =>
      (client.calls id).bind fun call => advance client id call (.sendFails id text)
  | .resume id => (client.calls id).bind fun call => advance client id call (.resume id)
  | .timeOut id => (client.calls id).bind fun call => advance client id call (.timeOut id)
  | .cancel id => (client.calls id).bind fun call => advance client id call (.cancel id)

/-- A client and its App Server. -/
def client : System Client Action where
  initial := Client.initial
  step := step

/-! ### Responses -/

namespace Client

/-- The first response to a call that the reader takes after the call has begun. -/
def firstResponse (client : Client) (id : Nat) : Option (Json × Nat) :=
  client.received.find? fun receipt => id < receipt.2 && isResponse receipt.1 id

structure Inv (client : Client) : Prop where
  fresh : ∀ id, client.nextId ≤ id → client.calls id = none
  keyed : ∀ key number, client.pending.get? key = some number →
    key = number ∧ number < client.nextId
  stamped : ∀ receipt ∈ client.received, receipt.2 ≤ client.nextId
  unanswered : ∀ id : Nat, client.pending.get? id = some id → client.firstResponse id = none
  waits : ∀ id call, client.calls id = some call → call.InFlight → call.future = .waiting →
    client.pending.get? id = some id
  completed : ∀ id call message, client.calls id = some call → call.future = .result message →
    ∃ number, client.firstResponse id = some (message, number)
  shows : ∀ id call, client.calls id = some call → call.responded = true →
    ∃ message, call.future = .result message ∧ call.Shows message

namespace Inv

variable {client after : Client} {id : Nat} {call next : Call}

theorem of_initial : Inv initial where
  fresh _ _ := rfl
  keyed _ _ found := by simp [initial] at found
  stamped := by simp [initial]
  unanswered _ found := by simp [initial] at found
  waits _ _ found := by simp [initial] at found
  completed _ _ _ found := by simp [initial] at found
  shows _ _ found := by simp [initial] at found

/-- What changes of a call is changed as it may be. -/
structure Proceeds (call next : Call) : Prop where
  result : ∀ message, next.future = .result message → call.future = .result message
  waits : next.InFlight → next.future = .waiting → call.InFlight ∧ call.future = .waiting
  shows : next.responded = true → ∃ message, next.future = .result message ∧ next.Shows message

/-- A call proceeds, and may be forgotten if it does not wait any more. -/
theorem proceed (inv : Inv client) (found : client.calls id = some call)
    (proceeds : Proceeds call next) {pending : Dict Int Nat}
    (shrinks : ∀ key number, pending.get? key = some number →
      client.pending.get? key = some number)
    (others : ∀ other : Nat, other ≠ id → client.pending.get? other = some other →
      pending.get? other = some other)
    (own : next.InFlight → next.future = .waiting → client.pending.get? id = some id →
      pending.get? id = some id) :
    Inv { client.setCall id next with pending } where
  fresh other late := by
    have differs : other ≠ id := by
      rintro rfl
      simp [inv.fresh other late] at found
    simp only [setCall, Function.update_of_ne differs]
    exact inv.fresh other late
  keyed key number isPending := inv.keyed key number (shrinks key number isPending)
  stamped := inv.stamped
  unanswered other isPending := inv.unanswered other (shrinks _ _ isPending)
  waits other call' found' inFlight waiting := by
    by_cases same : other = id
    · subst same
      simp only [setCall, Function.update_self, Option.some.injEq] at found'
      subst found'
      have before := proceeds.waits inFlight waiting
      exact own inFlight waiting (inv.waits other call found before.1 before.2)
    · simp only [setCall, Function.update_of_ne same] at found'
      exact others other same (inv.waits other call' found' inFlight waiting)
  completed other call' message found' isResult := by
    by_cases same : other = id
    · subst same
      simp only [setCall, Function.update_self, Option.some.injEq] at found'
      subst found'
      exact inv.completed other call message found (proceeds.result message isResult)
    · simp only [setCall, Function.update_of_ne same] at found'
      exact inv.completed other call' message found' isResult
  shows other call' found' responded := by
    by_cases same : other = id
    · subst same
      simp only [setCall, Function.update_self, Option.some.injEq] at found'
      subst found'
      exact proceeds.shows responded
    · simp only [setCall, Function.update_of_ne same] at found'
      exact inv.shows other call' found' responded

/-- The table stays as it is. -/
theorem proceed_kept (inv : Inv client) (found : client.calls id = some call)
    (proceeds : Proceeds call next) : Inv (client.setCall id next) :=
  inv.proceed found proceeds (fun _ _ kept => kept) (fun _ _ kept => kept) (fun _ _ kept => kept)

/-- The call is forgotten, since it has ended without a response. -/
theorem proceed_forgotten (inv : Inv client) (found : client.calls id = some call)
    (result : ∀ message, next.future = .result message → call.future = .result message)
    (ended : ¬ next.InFlight) (silent : next.responded = false) :
    Inv ((client.forget id).setCall id next) := by
  have proceeds : Proceeds call next :=
    ⟨result, fun inFlight => (ended inFlight).elim, by simp [silent]⟩
  apply inv.proceed found proceeds
  · intro key number isPending
    rw [forget, Dict.get?_pop] at isPending
    split_ifs at isPending
    exact isPending
  · intro other differs isPending
    rw [forget, Dict.get?_pop_of_ne]
    · exact isPending
    · exact fun same => differs (Int.ofNat.inj same)
  · exact fun inFlight => (ended inFlight).elim

/-- A new call is waiting, and nothing that was received before is for it. -/
theorem begin (inv : Inv client) (method : String) (params : Json) :
    Inv (client.begin method params) where
  fresh other late := by
    have differs : other ≠ client.nextId := by
      rintro rfl
      exact absurd late (Nat.not_succ_le_self _)
    simp only [Client.begin, setCall, Function.update_of_ne differs]
    exact inv.fresh other ((Nat.le_succ _).trans late)
  keyed key number isPending := by
    simp only [Client.begin, Dict.get?_set] at isPending ⊢
    split_ifs at isPending with same
    · rw [Option.some.injEq] at isPending
      subst isPending
      exact ⟨same, Nat.lt_succ_self _⟩
    · have := inv.keyed key number isPending
      exact ⟨this.1, this.2.trans (Nat.lt_succ_self _)⟩
  stamped receipt mem := (inv.stamped receipt mem).trans (Nat.le_succ _)
  unanswered other isPending := by
    simp only [Client.begin, Dict.get?_set] at isPending
    split_ifs at isPending with same
    · have isNew : other = client.nextId := Int.ofNat.inj same
      simp only [firstResponse, List.find?_eq_none]
      intro receipt mem
      have := inv.stamped receipt mem
      simp only [Bool.and_eq_true, decide_eq_true_eq, not_and]
      omega
    · exact inv.unanswered other isPending
  waits other call found inFlight waiting := by
    by_cases same : other = client.nextId
    · subst same
      exact Dict.get?_set_self ..
    · simp only [Client.begin, setCall, Function.update_of_ne same] at found ⊢
      have differs : (other : Int) ≠ client.nextId := by exact_mod_cast same
      rw [Dict.get?_set_of_ne _ _ differs]
      exact inv.waits other call found inFlight waiting
  completed other call message found isResult := by
    by_cases same : other = client.nextId
    · subst same
      simp only [Client.begin, setCall, Function.update_self, Option.some.injEq] at found
      subst found
      cases isResult
    · simp only [Client.begin, setCall, Function.update_of_ne same] at found
      exact inv.completed other call message found isResult
  shows other call found responded := by
    by_cases same : other = client.nextId
    · subst same
      simp only [Client.begin, setCall, Function.update_self, Option.some.injEq] at found
      subst found
      cases responded
    · simp only [Client.begin, setCall, Function.update_of_ne same] at found
      exact inv.shows other call found responded

end Inv

/-- Completing a future leaves the call where it is. -/
theorem complete_stage (call : Call) (future : Future) :
    (call.complete future).stage = call.stage := by
  simp only [Call.complete]
  split <;> rfl

theorem complete_result {call : Call} {future : Future} {message : Json}
    (isResult : (call.complete future).future = .result message) :
    call.future = .result message ∨ call.future = .waiting ∧ future = .result message := by
  simp only [Call.complete] at isResult
  split at isResult
  · exact .inr ⟨‹_›, isResult⟩
  · exact .inl isResult

theorem complete_kept {call : Call} {future : Future} {message : Json}
    (isResult : call.future = .result message) :
    (call.complete future).future = .result message := by
  simp only [Call.complete, isResult]

/-- A call whose future is completed does not wait. -/
theorem complete_not_waiting {call : Call} {future : Future} (differs : future ≠ .waiting) :
    (call.complete future).future ≠ .waiting := by
  simp only [Call.complete]
  split
  · exact differs
  · assumption

theorem complete_shows {call : Call} {future : Future}
    (shows : call.responded = true → ∃ message, call.future = .result message ∧ call.Shows message)
    (responded : (call.complete future).responded = true) :
    ∃ message, (call.complete future).future = .result message ∧
      (call.complete future).Shows message := by
  simp only [Call.responded, complete_stage] at responded
  rcases shows responded with ⟨message, isResult, shows⟩
  refine ⟨message, complete_kept isResult, ?_⟩
  simpa only [Call.Shows, complete_stage] using shows

theorem answered_shows (call : Call) (response : Json) :
    (call.answered response).Shows response := by
  by_cases isError : response.hasKey "error" = true
  · simp [Call.Shows, Call.answered, isError]
  · simp [Call.Shows, Call.answered, isError]

namespace Inv

variable {client after : Client} {id : Nat} {call next : Call}

/-- Everything that is pending fails. -/
theorem failPending (inv : Inv client) (loss : Loss) : Inv (client.failPending loss) where
  fresh other late := by
    simp only [Client.failPending, inv.fresh other late]
    split_ifs <;> rfl
  keyed key number isPending := by simp [Client.failPending] at isPending
  stamped := inv.stamped
  unanswered other isPending := by simp [Client.failPending] at isPending
  waits other call found inFlight waiting := by
    simp only [Client.failPending] at found
    split_ifs at found with isPending
    · rcases Option.map_eq_some_iff.mp found with ⟨before, -, rfl⟩
      exact (complete_not_waiting (by simp) waiting).elim
    · exact (isPending (inv.waits other call found inFlight waiting)).elim
  completed other call message found isResult := by
    simp only [Client.failPending] at found
    split_ifs at found with isPending
    · rcases Option.map_eq_some_iff.mp found with ⟨before, isBefore, rfl⟩
      rcases complete_result isResult with isResult | ⟨-, isException⟩
      · exact inv.completed other before message isBefore isResult
      · cases isException
    · exact inv.completed other call message found isResult
  shows other call found responded := by
    simp only [Client.failPending] at found
    split_ifs at found with isPending
    · rcases Option.map_eq_some_iff.mp found with ⟨before, isBefore, rfl⟩
      exact complete_shows (inv.shows other before isBefore) responded
    · exact inv.shows other call found responded

/-- Nothing is received for the call. -/
theorem firstResponse_append (client : Client) (message : Json) (number id : Nat) :
    ({ client with received := client.received ++ [(message, number)] } : Client).firstResponse id =
      (client.firstResponse id).or
        (if id < number ∧ isResponse message id = true then some (message, number) else none) := by
  simp only [firstResponse, List.find?_append, List.find?_singleton, Bool.and_eq_true,
    decide_eq_true_eq]

/-- A message that is no response to a call in the table is only received. -/
theorem ignore (inv : Inv client) {message : Json}
    (ignored : ∀ id : Nat, isResponse message id = true → client.pending.get? id ≠ some id) :
    Inv { client with received := client.received ++ [(message, client.nextId)] } where
  fresh := inv.fresh
  keyed := inv.keyed
  stamped receipt mem := by
    rcases List.mem_append.mp mem with mem | mem
    · exact inv.stamped receipt mem
    · rw [List.mem_singleton.mp mem]
  unanswered other isPending := by
    rw [firstResponse_append, inv.unanswered other isPending, Option.none_or]
    exact if_neg fun isFor => ignored other isFor.2 isPending
  waits := inv.waits
  completed other call message found isResult := by
    rcases inv.completed other call message found isResult with ⟨number, first⟩
    exact ⟨number, by rw [firstResponse_append, first, Option.some_or]⟩
  shows := inv.shows

/-- The reader takes a response to a call in the table. -/
theorem respond (inv : Inv client) {message : Json} {number : Nat}
    (isPending : client.pending.get? (number : Int) = some number)
    (isFor : isResponse message number = true) :
    Inv { client with
      received := client.received ++ [(message, client.nextId)]
      pending := client.pending.pop number
      calls := Function.update client.calls number
        ((client.calls number).map (·.complete (.result message))) } where
  fresh other late := by
    have := (inv.keyed number number isPending).2
    change client.nextId ≤ other at late
    have differs : other ≠ number := by omega
    simp only [Function.update_of_ne differs]
    exact inv.fresh other late
  keyed key other found := by
    rw [Dict.get?_pop] at found
    split_ifs at found
    exact inv.keyed key other found
  stamped receipt mem := by
    rcases List.mem_append.mp mem with mem | mem
    · exact inv.stamped receipt mem
    · rw [List.mem_singleton.mp mem]
  unanswered other found := by
    rw [Dict.get?_pop] at found
    split_ifs at found with same
    change ({ client with received := _ } : Client).firstResponse other = none
    rw [firstResponse_append, inv.unanswered other found, Option.none_or]
    apply if_neg
    rintro ⟨-, isFor'⟩
    simp only [isResponse, Bool.and_eq_true, beq_iff_eq] at isFor isFor'
    exact same (Option.some.inj (isFor'.1.2.symm.trans isFor.1.2))
  waits other call found inFlight waiting := by
    by_cases same : other = number
    · subst same
      simp only [Function.update_self] at found
      rcases Option.map_eq_some_iff.mp found with ⟨before, -, rfl⟩
      exact (complete_not_waiting (by simp) waiting).elim
    · simp only [Function.update_of_ne same] at found
      have differs : (other : Int) ≠ number := by exact_mod_cast same
      rw [Dict.get?_pop_of_ne _ differs]
      exact inv.waits other call found inFlight waiting
  completed other call response found isResult := by
    change ∃ stamp, ({ client with received := _ } : Client).firstResponse other =
      some (response, stamp)
    rw [firstResponse_append]
    by_cases same : other = number
    · subst same
      simp only [Function.update_self] at found
      rcases Option.map_eq_some_iff.mp found with ⟨before, isBefore, rfl⟩
      rcases complete_result isResult with isResult | ⟨-, isMessage⟩
      · rcases inv.completed other before response isBefore isResult with ⟨stamp, first⟩
        exact ⟨stamp, by rw [first, Option.some_or]⟩
      · rw [Future.result.injEq] at isMessage
        subst isMessage
        refine ⟨client.nextId, ?_⟩
        rw [inv.unanswered other isPending, Option.none_or]
        exact if_pos ⟨(inv.keyed other other isPending).2, isFor⟩
    · simp only [Function.update_of_ne same] at found
      rcases inv.completed other call response found isResult with ⟨stamp, first⟩
      exact ⟨stamp, by rw [first, Option.some_or]⟩
  shows other call found responded := by
    by_cases same : other = number
    · subst same
      simp only [Function.update_self] at found
      rcases Option.map_eq_some_iff.mp found with ⟨before, isBefore, rfl⟩
      exact complete_shows (inv.shows other before isBefore) responded
    · simp only [Function.update_of_ne same] at found
      exact inv.shows other call found responded

/-- The reader takes a message. -/
theorem receive (inv : Inv client) (message : Json) : Inv (client.receive message) := by
  simp only [Client.receive]
  split
  · rename_i key isDict isId notMethod
    have isFor : isResponse message key = true := by simp [isResponse, isDict, isId, notMethod]
    split
    · rename_i number isPending
      have keyed := inv.keyed key number isPending
      rw [keyed.1] at isPending isFor ⊢
      exact inv.respond isPending isFor
    · rename_i notPending
      apply inv.ignore
      intro id isFor' isPending
      simp only [isResponse, Bool.and_eq_true, beq_iff_eq, isId] at isFor'
      rw [← Option.some.inj isFor'.1.2, notPending] at isPending
      cases isPending
  · rename_i noResponse
    apply inv.ignore
    intro id isFor
    simp only [isResponse, Bool.and_eq_true, beq_iff_eq, Bool.not_eq_true'] at isFor
    exact (noResponse id isFor.1.1 isFor.1.2 isFor.2).elim

theorem cancelled_result (message : Json)
    (isResult : (call.complete .cancelled).future = .result message) :
    call.future = .result message := by
  rcases complete_result isResult with isResult | ⟨-, isCancelled⟩
  · exact isResult
  · cases isCancelled

/-- A call takes a step. -/
theorem advance (inv : Inv client) (found : client.calls id = some call) {action : Action}
    (taken : AppServer.advance client id call action = some after) : Inv after := by
  simp only [AppServer.advance] at taken
  split at taken
  · split at taken
    · rename_i sending
      rw [Option.some.injEq] at taken
      subst taken
      apply inv.proceed_kept found
      refine ⟨fun _ kept => kept, fun _ waiting => ⟨?_, waiting⟩, by simp [Call.responded]⟩
      simp [Call.InFlight, sending]
    · cases taken
  · split at taken
    · rw [Option.some.injEq] at taken
      subst taken
      exact inv.proceed_forgotten found (fun _ kept => kept) (fun inFlight => inFlight.elim) rfl
    · cases taken
  · simp only [Client.resume] at taken
    split at taken
    · rename_i response waiting isResult
      rw [Option.some.injEq] at taken
      subst taken
      apply inv.proceed_kept found
      refine ⟨fun _ kept => kept, ?_, fun _ => ⟨response, isResult, answered_shows call response⟩⟩
      simp [Call.answered, isResult]
    · rw [Option.some.injEq] at taken
      subst taken
      exact inv.proceed_forgotten found (fun _ kept => kept) (fun inFlight => inFlight.elim) rfl
    · cases taken
  · split at taken
    · rw [Option.some.injEq] at taken
      subst taken
      exact inv.proceed_forgotten found (fun _ kept => kept) (fun inFlight => inFlight.elim) rfl
    · rw [Option.some.injEq] at taken
      subst taken
      exact inv.proceed_forgotten found cancelled_result (fun inFlight => inFlight.elim) rfl
    · cases taken
  · split at taken
    · rw [Option.some.injEq] at taken
      subst taken
      apply inv.proceed_kept found
      exact ⟨fun _ kept => kept, fun inFlight => inFlight.elim, by simp [Call.responded]⟩
    · rw [Option.some.injEq] at taken
      subst taken
      apply inv.proceed_kept found
      exact ⟨cancelled_result, fun inFlight => inFlight.elim, by simp [Call.responded]⟩
    · cases taken
  · cases taken

theorem step {action : Action} (inv : Inv client) (taken : step client action = some after) :
    Inv after := by
  cases action with
  | connect =>
      simp only [AppServer.step] at taken
      split_ifs at taken
      rw [Option.some.injEq] at taken
      exact taken ▸ { inv with }
  | begin method params =>
      simp only [AppServer.step, Option.ite_none_right_eq_some, Option.some.injEq] at taken
      exact taken.2 ▸ inv.begin method params
  | receive message =>
      rw [← Option.some.inj taken]
      exact inv.receive message
  | readerFails text =>
      rw [← Option.some.inj taken]
      exact inv.failPending _
  | closed =>
      rw [← Option.some.inj taken]
      exact inv.failPending _
  | disconnect =>
      rw [← Option.some.inj taken]
      exact { inv with }
  | sent id | sendFails id text | resume id | timeOut id | cancel id =>
      simp only [AppServer.step, Option.bind_eq_some_iff] at taken
      rcases taken with ⟨call, found, taken⟩
      exact inv.advance found taken

end Inv

end Client

variable {state after : Client} {id : Nat} {call : Call}

theorem inv_of_reachable (reachable : client.Reachable state) : state.Inv :=
  reachable.invariant Client.Inv.of_initial fun _ _ _ inv _ taken => inv.step taken

/-- A call that returns, or raises what the server reports, ends with the first response to its own
id that arrives after it has begun, whatever other responses, late ones and repeated ones arrive. -/
theorem responded_first (reachable : client.Reachable state) (found : state.calls id = some call)
    (responded : call.responded = true) :
    ∃ response number, state.firstResponse id = some (response, number) ∧ call.Shows response := by
  have inv := inv_of_reachable reachable
  rcases inv.shows id call found responded with ⟨response, isResult, shows⟩
  rcases inv.completed id call response found isResult with ⟨number, first⟩
  exact ⟨response, number, first, shows⟩

/-- Two calls, of which the first is answered after the second, and twice. -/
def sampleActions : List Action :=
  [.connect, .begin "thread/read" (.obj []), .sent 1, .begin "turn/start" (.obj []),
    .receive (.obj [("id", .int 2), ("result", .str "turn")]),
    .receive (.obj [("id", .int 1), ("result", .str "thread")]),
    .receive (.obj [("id", .int 1), ("result", .str "again")]), .resume 1]

theorem responded_first_sample : ∃ state call, client.Reachable state ∧
    state.calls 1 = some call ∧ ∃ response number,
      state.firstResponse 1 = some (response, number) ∧ call.Shows response := by
  have ran : (client.run Client.initial sampleActions).any
      (fun state => (state.calls 1).any (·.responded)) = true := by decide +kernel
  rcases System.exists_reachable_of_run ran with ⟨state, reachable, holds⟩
  rcases (Option.any_eq_true _ _).mp holds with ⟨call, found, responded⟩
  exact ⟨state, call, reachable, found, responded_first reachable found responded⟩

/-- No call in flight is forgotten: as long as its future waits the reader finds it under its id and
no response to it has been taken, and when the connection is closed or the reader stops with an
exception no call in flight waits any more. -/
theorem none_forgotten (reachable : client.Reachable state) :
    (∀ id call, state.calls id = some call → call.InFlight → call.future = .waiting →
      state.pending.get? id = some id ∧ state.firstResponse id = none) ∧
    ∀ action after, (action = .closed ∨ ∃ text, action = .readerFails text) →
      step state action = some after → ∀ id call, after.calls id = some call → call.InFlight →
        call.future ≠ .waiting := by
  have inv := inv_of_reachable reachable
  refine ⟨fun id call found inFlight waiting => ?_, ?_⟩
  · have isPending := inv.waits id call found inFlight waiting
    exact ⟨isPending, inv.unanswered id isPending⟩
  · intro action after fails taken id call found inFlight waiting
    have isPending := (inv.step taken).waits id call found inFlight waiting
    rcases fails with rfl | ⟨text, rfl⟩
    · rw [← Option.some.inj taken] at isPending
      simp [Client.failPending] at isPending
    · rw [← Option.some.inj taken] at isPending
      simp [Client.failPending] at isPending

theorem none_forgotten_sample : ∃ state, client.Reachable state ∧ state.nextId = 2 ∧
    ((∀ id call, state.calls id = some call → call.InFlight → call.future = .waiting →
      state.pending.get? id = some id ∧ state.firstResponse id = none) ∧
    ∀ action after, (action = .closed ∨ ∃ text, action = .readerFails text) →
      step state action = some after → ∀ id call, after.calls id = some call → call.InFlight →
        call.future ≠ .waiting) := by
  have ran : (client.run Client.initial [.connect, .begin "thread/read" (.obj [])]).any
      (fun state => state.nextId = 2) = true := by decide +kernel
  rcases System.exists_reachable_of_run ran with ⟨state, reachable, holds⟩
  exact ⟨state, reachable, by simpa using holds, none_forgotten reachable⟩

end Longrun.AppServer
