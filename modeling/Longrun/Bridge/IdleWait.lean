import Longrun.Bridge.Evidence

/-!
# Waiting for an idle thread

`_wait_until_idle` next to the App Server and the connection between them. The server answers a
read with the status that the thread has when it processes the read, and sends a notification after
every change; the connection keeps the order of what the server sends, and the reader of the
connection takes one message at a time. A reply only completes the future of its request, so the
coroutine goes on some time later, when more messages may have been read.

Waits of one thread may overlap and share its event: the delivery of an abandoned lease that has lost
its cancellation goes on waiting, next to the delivery of the lease that followed.
-/

namespace Longrun.Bridge

namespace IdleWait

/-- What the App Server sends. -/
inductive Message where
  | reply (request : Nat) (status : String)
  /-- `thread/status/changed` or `turn/completed`. -/
  | notice (thread : ThreadId)
  | other
  deriving DecidableEq

/-- Where a call of `_wait_until_idle` is. -/
inductive WaitAt where
  | firstRead (request : Nat)
  | secondRead (request : Nat)
  | parked (sets : Nat)
  | returned (request : Nat)
  | raised
  deriving DecidableEq

/-- A call of `_wait_until_idle`. -/
structure Wait where
  thread : ThreadId
  waitAt : WaitAt
  deriving DecidableEq

/-- The App Server, the connection and the coordinator. -/
structure Network where
  status : ThreadId → String
  /-- The changes of a thread after which no notification has been sent yet. -/
  owed : ThreadId → Nat
  /-- The reads that the server has not processed. -/
  requests : List (Nat × ThreadId)
  /-- What the server has sent and the reader has not read, oldest first. -/
  stream : List Message
  /-- The futures that have a result. -/
  answers : List (Nat × String)
  /-- All reads that were ever sent. -/
  asked : List (Nat × ThreadId)
  events : ThreadId → ThreadEvent
  /-- A task waits once at a time. -/
  waits : TaskId → Option Wait
  nextId : Nat

inductive Action where
  /-- The status of a thread changes, perhaps to the same one. -/
  | change (thread : ThreadId) (status : String)
  | notify (thread : ThreadId)
  /-- The server sends something else. -/
  | send
  /-- The server processes one of the reads. -/
  | process (position : Nat)
  /-- The reader reads the next message. -/
  | receive
  /-- Some other coroutine reads a thread. -/
  | read (thread : ThreadId)
  | begin (task : TaskId) (thread : ThreadId)
  | resume (task : TaskId)
  /-- An error, a timeout or a cancellation ends the call. -/
  | fail (task : TaskId)

namespace Network

def initial : Network where
  status := fun _ => "idle"
  owed := fun _ => 0
  requests := []
  stream := []
  answers := []
  asked := []
  events := fun _ => {}
  waits := fun _ => none
  nextId := 0

/-- `app.call("thread/read", ...)` up to its await. -/
def call (net : Network) (thread : ThreadId) : Network :=
  { net with
    requests := net.requests ++ [(net.nextId, thread)]
    asked := net.asked ++ [(net.nextId, thread)]
    nextId := net.nextId + 1 }

@[simps]
def setWait (net : Network) (task : TaskId) (thread : ThreadId) (waitAt : WaitAt) : Network :=
  { net with waits := Function.update net.waits task (some ⟨thread, waitAt⟩) }

/-- `event.set()` -/
def setEvent (net : Network) (thread : ThreadId) : Network :=
  { net with events := Function.update net.events thread ⟨true, (net.events thread).sets + 1⟩ }

/-- `event.clear()` -/
def clearEvent (net : Network) (thread : ThreadId) : Network :=
  { net with events := Function.update net.events thread ⟨false, (net.events thread).sets⟩ }

/-- The first read of the loop. -/
def loop (net : Network) (task : TaskId) (thread : ThreadId) : Network :=
  (net.call thread).setWait task thread (.firstRead net.nextId)

/-- A status with which the loop goes on. -/
abbrev IsBusy (status : String) : Prop := status ≠ "idle" ∧ status ≠ "systemError"

/-- The wait goes on with the status of a read: `busy` is what it does while the thread is busy. -/
def idleRead (net : Network) (task : TaskId) (thread : ThreadId) (request : Nat)
    (busy : Network) : Option Network :=
  match net.answers.lookup request with
  | none => none
  | some status =>
      if status = "idle" then some (net.setWait task thread (.returned request))
      else if status = "systemError" then some (net.setWait task thread .raised)
      else some busy

/-- `_wait_until_idle` goes on after an await. -/
def resume (net : Network) (task : TaskId) : Option Network :=
  match net.waits task with
  | some ⟨thread, .firstRead request⟩ =>
      net.idleRead task thread request
        (((net.clearEvent thread).call thread).setWait task thread (.secondRead net.nextId))
  | some ⟨thread, .secondRead request⟩ =>
      net.idleRead task thread request
        (if (net.events thread).isSet then net.loop task thread
          else net.setWait task thread (.parked (net.events thread).sets))
  | some ⟨thread, .parked sets⟩ =>
      if sets < (net.events thread).sets then some (net.loop task thread) else none
  | _ => none

/-- `_read_loop` with the next message. -/
def receive (net : Network) : Option Network :=
  match net.stream with
  | [] => none
  | message :: stream =>
      let rest : Network := { net with stream }
      match message with
      | .reply request status => some { rest with answers := rest.answers ++ [(request, status)] }
      | .notice thread => some (rest.setEvent thread)
      | .other => some rest

/-- The call is over. -/
def isOver : Option Wait → Bool
  | none => true
  | some ⟨_, .returned _⟩ => true
  | some ⟨_, .raised⟩ => true
  | _ => false

end Network

def step (net : Network) : Action → Option Network
  | .change thread status =>
      some { net with
        status := Function.update net.status thread status
        owed := Function.update net.owed thread (net.owed thread + 1) }
  | .notify thread =>
      if 0 < net.owed thread then
        some { net with
          owed := Function.update net.owed thread (net.owed thread - 1)
          stream := net.stream ++ [.notice thread] }
      else none
  | .send => some { net with stream := net.stream ++ [.other] }
  | .process position =>
      (net.requests[position]?).map fun (request, thread) =>
        { net with
          requests := net.requests.eraseIdx position
          stream := net.stream ++ [.reply request (net.status thread)] }
  | .receive => net.receive
  | .read thread => some (net.call thread)
  | .begin task thread =>
      if Network.isOver (net.waits task) then some (net.loop task thread) else none
  | .resume task => net.resume task
  | .fail task =>
      (net.waits task).bind fun wait =>
        if Network.isOver (some wait) then none else some (net.setWait task wait.thread .raised)

/-- Any number of threads and of waits of each. -/
def network : System Network Action := ⟨.initial, step⟩

/-! ### What always holds -/

namespace Network

/-- A notification of the thread is to come. -/
def Undelivered (net : Network) (thread : ThreadId) : Prop :=
  0 < net.owed thread ∨ .notice thread ∈ net.stream

/-- A wait for the thread that goes to sleep now will not sleep for good. -/
def Pending (net : Network) (thread : ThreadId) : Prop :=
  net.status thread ≠ "idle" ∨ net.Undelivered thread ∨ (net.events thread).isSet = true

/-- The server has answered a read. -/
def Replied (net : Network) (request : Nat) (status : String) : Prop :=
  .reply request status ∈ net.stream ∨ (request, status) ∈ net.answers

/-- A wait that sleeps: its event has not been set since it began to. -/
def Asleep (net : Network) (task : TaskId) (thread : ThreadId) : Prop :=
  net.waits task = some ⟨thread, .parked (net.events thread).sets⟩

/-- A wait that is asleep with its event clear waits for a busy thread or for a notification that is
to come, and a wait that has returned has read its thread as idle. -/
def MissesNothing (net : Network) : Prop :=
  (∀ task thread, net.Asleep task thread → (net.events thread).isSet = false →
    net.status thread ≠ "idle" ∨ net.Undelivered thread) ∧
  ∀ task thread request, net.waits task = some ⟨thread, .returned request⟩ →
    (request, thread) ∈ net.asked ∧ (request, "idle") ∈ net.answers

/-- Where a wait goes on after its first read it clears the event; another wait of the thread whose
second read has found the thread busy loses the notification that it has become idle. -/
def Overtakes (net : Network) (task : TaskId) : Prop :=
  ∃ thread request status, net.waits task = some ⟨thread, .firstRead request⟩ ∧
    net.answers.lookup request = some status ∧ IsBusy status ∧
    net.status thread = "idle" ∧ ¬net.Undelivered thread ∧
    ∃ other otherRequest otherStatus, net.waits other = some ⟨thread, .secondRead otherRequest⟩ ∧
      net.Replied otherRequest otherStatus ∧ IsBusy otherStatus

/-- No notification is lost to another wait. -/
def Kept (net : Network) : Action → Prop
  | .resume task => ¬net.Overtakes task
  | _ => True

/-- What a wait of a thread relies on at its await. -/
def Sound (net : Network) (thread : ThreadId) : WaitAt → Prop
  | .firstRead request => request < net.nextId ∧ (request, thread) ∈ net.asked ∧
      ∀ other, (request, other) ∈ net.requests → other = thread
  | .secondRead request => (request < net.nextId ∧ (request, thread) ∈ net.asked ∧
      ∀ other, (request, other) ∈ net.requests → other = thread) ∧
      -- The event was cleared before the read was sent.
      ∀ status, net.Replied request status → IsBusy status → net.Pending thread
  | .parked sets => sets ≤ (net.events thread).sets ∧
      -- A wait that has been woken relies on nothing.
      (sets = (net.events thread).sets → (net.events thread).isSet = false ∧ net.Pending thread)
  | .returned request => (request, "idle") ∈ net.answers ∧ (request, thread) ∈ net.asked
  | .raised => True

structure Inv (net : Network) : Prop where
  requests : ∀ request thread, (request, thread) ∈ net.requests → request < net.nextId
  replies : ∀ request status, net.Replied request status → request < net.nextId
  waits : ∀ task thread waitAt, net.waits task = some ⟨thread, waitAt⟩ → net.Sound thread waitAt

theorem inv_initial : Inv .initial := by
  constructor <;> simp [initial, Replied]

variable {net next : Network}

/-- What the server and the reader do: the waits stay where they are, and what they wait for does not
get lost. -/
structure Traffic (net next : Network) : Prop where
  waits : next.waits = net.waits
  nextId : next.nextId = net.nextId
  asked : next.asked = net.asked
  requests : ∀ request ∈ next.requests, request ∈ net.requests
  answers : ∀ answer ∈ net.answers, answer ∈ next.answers
  replies : ∀ request status, next.Replied request status → net.Replied request status ∨
    ∃ thread, (request, thread) ∈ net.requests ∧ next.status thread = status
  pending : ∀ thread, net.Pending thread → next.Pending thread
  sets : ∀ thread, (net.events thread).sets ≤ (next.events thread).sets
  isSet : ∀ thread, (next.events thread).isSet = true → (net.events thread).isSet = true ∨
    (net.events thread).sets < (next.events thread).sets

theorem Inv.traffic (inv : Inv net) (traffic : Traffic net next) : Inv next := by
  constructor
  case requests =>
    intro request thread mem
    rw [traffic.nextId]
    exact inv.requests request thread (traffic.requests _ mem)
  case replies =>
    intro request status replied
    rw [traffic.nextId]
    rcases traffic.replies request status replied with replied | ⟨thread, mem, -⟩
    · exact inv.replies request status replied
    · exact inv.requests request thread mem
  case waits =>
    intro task thread waitAt found
    rw [traffic.waits] at found
    have sound := inv.waits task thread waitAt found
    cases waitAt with
    | firstRead request =>
        rcases sound with ⟨old, asked, own⟩
        refine ⟨traffic.nextId ▸ old, traffic.asked ▸ asked, fun other mem => ?_⟩
        exact own other (traffic.requests _ mem)
    | secondRead request =>
        rcases sound with ⟨⟨old, asked, own⟩, pending⟩
        refine ⟨⟨traffic.nextId ▸ old, traffic.asked ▸ asked, fun other mem => ?_⟩, ?_⟩
        · exact own other (traffic.requests _ mem)
        · intro status replied busy
          rcases traffic.replies request status replied with replied | ⟨other, mem, same⟩
          · exact traffic.pending thread (pending status replied busy)
          · rcases own other mem with rfl
            exact .inl (same ▸ busy.1)
    | parked sets =>
        rcases sound with ⟨bound, asleep⟩
        refine ⟨bound.trans (traffic.sets thread), fun same => ?_⟩
        have before : sets = (net.events thread).sets :=
          le_antisymm bound (same ▸ traffic.sets thread)
        rcases asleep before with ⟨clear, pending⟩
        refine ⟨?_, traffic.pending thread pending⟩
        by_contra isSet
        rcases traffic.isSet thread (Bool.eq_true_of_not_eq_false isSet) with wasSet | more
        · rw [clear] at wasSet
          contradiction
        · exact absurd more (before ▸ same).not_lt
    | returned request => exact ⟨traffic.answers _ sound.1, traffic.asked ▸ sound.2⟩
    | raised => trivial

/-- A wait goes to another await. -/
theorem Inv.setWait (inv : Inv net) {task : TaskId} {thread : ThreadId} {waitAt : WaitAt}
    (sound : net.Sound thread waitAt) : Inv (net.setWait task thread waitAt) := by
  constructor
  case requests => exact inv.requests
  case replies => exact inv.replies
  case waits =>
    intro other otherThread otherAt found
    rcases Decidable.em (other = task) with rfl | different
    · rw [setWait_waits, Function.update_self] at found
      rcases Option.some.inj found with ⟨⟩
      exact sound
    · rw [setWait_waits, Function.update_of_ne different] at found
      exact inv.waits other otherThread otherAt found

/-- A read is sent. -/
theorem Inv.call (inv : Inv net) (thread : ThreadId) : Inv (net.call thread) := by
  have own {request : Nat} {waiting other : ThreadId} (old : request < net.nextId)
      (own : ∀ other, (request, other) ∈ net.requests → other = waiting)
      (mem : (request, other) ∈ (net.call thread).requests) : other = waiting := by
    rcases List.mem_append.mp mem with mem | mem
    · exact own other mem
    · rcases List.mem_singleton.mp mem with ⟨⟩
      exact absurd old (lt_irrefl _)
  constructor
  case requests =>
    intro request other mem
    rcases List.mem_append.mp mem with mem | mem
    · exact Nat.lt_succ_of_lt (inv.requests request other mem)
    · rcases List.mem_singleton.mp mem with ⟨⟩
      exact Nat.lt_succ_self _
  case replies =>
    intro request status replied
    exact Nat.lt_succ_of_lt (inv.replies request status replied)
  case waits =>
    intro task waiting waitAt found
    have sound := inv.waits task waiting waitAt found
    cases waitAt with
    | firstRead request =>
        rcases sound with ⟨old, asked, alone⟩
        exact ⟨Nat.lt_succ_of_lt old, List.mem_append_left _ asked, fun _ => own old alone⟩
    | secondRead request =>
        rcases sound with ⟨⟨old, asked, alone⟩, pending⟩
        exact ⟨⟨Nat.lt_succ_of_lt old, List.mem_append_left _ asked, fun _ => own old alone⟩, pending⟩
    | parked sets => exact sound
    | returned request => exact ⟨sound.1, List.mem_append_left _ sound.2⟩
    | raised => trivial

/-- What a wait relies on when it has just sent a read. -/
theorem Inv.asks (inv : Inv net) (thread : ThreadId) :
    net.nextId < (net.call thread).nextId ∧ (net.nextId, thread) ∈ (net.call thread).asked ∧
      ∀ other, (net.nextId, other) ∈ (net.call thread).requests → other = thread := by
  refine ⟨Nat.lt_succ_self _, List.mem_append_right _ (List.mem_singleton_self _), ?_⟩
  intro other mem
  rcases List.mem_append.mp mem with mem | mem
  · exact absurd (inv.requests _ other mem) (lt_irrefl _)
  · rcases List.mem_singleton.mp mem with ⟨⟩
    rfl

theorem Inv.loop (inv : Inv net) (task : TaskId) (thread : ThreadId) :
    Inv (net.loop task thread) :=
  (inv.call thread).setWait (inv.asks thread)

/-- The event is cleared by a wait that has read the thread for the first time. -/
theorem Inv.clearEvent (inv : Inv net) {task : TaskId} {thread : ThreadId} {request : Nat}
    {status : String} (reads : net.waits task = some ⟨thread, .firstRead request⟩)
    (answered : net.answers.lookup request = some status) (busy : IsBusy status)
    (kept : ¬net.Overtakes task) : Inv (net.clearEvent thread) := by
  constructor
  case requests => exact inv.requests
  case replies => exact inv.replies
  case waits =>
    intro other otherThread otherAt found
    have sound := inv.waits other otherThread otherAt found
    rcases Decidable.em (otherThread = thread) with rfl | different
    · cases otherAt with
      | firstRead request => exact sound
      | secondRead otherRequest =>
          refine ⟨sound.1, fun otherStatus replied otherBusy => ?_⟩
          by_contra forgotten
          rw [Pending, not_or, not_or, not_not] at forgotten
          exact kept ⟨otherThread, request, status, reads, answered, busy, forgotten.1,
            forgotten.2.1, other, otherRequest, otherStatus, found, replied, otherBusy⟩
      | parked sets =>
          have same : ((net.clearEvent otherThread).events otherThread) =
              ⟨false, (net.events otherThread).sets⟩ := Function.update_self ..
          rw [Sound, same]
          refine ⟨sound.1, fun isLast => ?_⟩
          -- The wait sleeps, so the event was clear already.
          rcases sound.2 isLast with ⟨clear, nonidle | undelivered | isSet⟩
          · exact ⟨rfl, .inl nonidle⟩
          · exact ⟨rfl, .inr (.inl undelivered)⟩
          · rw [clear] at isSet
            contradiction
      | returned request => exact sound
      | raised => trivial
    · have same : (net.clearEvent thread).events otherThread = net.events otherThread :=
        Function.update_of_ne different _ _
      have pending (pending : net.Pending otherThread) :
          (net.clearEvent thread).Pending otherThread := by
        rw [Pending, same]
        exact pending
      cases otherAt with
      | firstRead request => exact sound
      | secondRead request =>
          exact ⟨sound.1, fun status replied busy => pending (sound.2 status replied busy)⟩
      | parked sets =>
          rw [Sound, same]
          exact ⟨sound.1, fun isLast => ⟨(sound.2 isLast).1, pending (sound.2 isLast).2⟩⟩
      | returned request => exact sound
      | raised => trivial

theorem mem_of_lookup {answers : List (Nat × String)} {request : Nat} {status : String}
    (found : answers.lookup request = some status) : (request, status) ∈ answers := by
  induction answers with
  | nil => cases found
  | cons answer answers ih =>
      rcases answer with ⟨other, answered⟩
      rw [List.lookup_cons] at found
      rcases Decidable.em (request = other) with rfl | different
      · rw [beq_self_eq_true] at found
        rcases Option.some.inj found with rfl
        exact List.mem_cons_self
      · rw [beq_false_of_ne different] at found
        exact List.mem_cons_of_mem _ (ih found)

/-- A wait goes on with the status of its read. -/
theorem Inv.idleRead (inv : Inv net) {task : TaskId} {thread : ThreadId} {request : Nat}
    {busy : Network} (asked : (request, thread) ∈ net.asked)
    (busyInv : ∀ status, net.answers.lookup request = some status → IsBusy status → Inv busy)
    (went : net.idleRead task thread request busy = some next) : Inv next := by
  rw [Network.idleRead] at went
  cases found : net.answers.lookup request with
  | none =>
      rw [found] at went
      cases went
  | some status =>
      have mem := mem_of_lookup found
      rw [found] at went
      dsimp only at went
      split_ifs at went with idle failed
      · rcases Option.some.inj went with rfl
        exact inv.setWait ⟨idle ▸ mem, asked⟩
      · rcases Option.some.inj went with rfl
        exact inv.setWait trivial
      · rcases Option.some.inj went with rfl
        exact busyInv status found ⟨idle, failed⟩

theorem Inv.resume (inv : Inv net) {task : TaskId} (kept : ¬net.Overtakes task)
    (went : net.resume task = some next) : Inv next := by
  rw [Network.resume] at went
  cases found : net.waits task with
  | none =>
      rw [found] at went
      cases went
  | some wait =>
      rw [found] at went
      rcases wait with ⟨thread, waitAt⟩
      have sound := inv.waits task thread waitAt found
      cases waitAt with
      | firstRead request =>
          refine inv.idleRead sound.2.1 (fun status answered busy => ?_) went
          have cleared := inv.clearEvent found answered busy kept
          refine (cleared.call thread).setWait ⟨cleared.asks thread, ?_⟩
          -- The read is new, so nothing has been answered yet.
          intro status replied
          exact absurd (cleared.replies _ _ replied) (lt_irrefl _)
      | secondRead request =>
          refine inv.idleRead sound.1.2.1 (fun status answered busy => ?_) went
          have pending := sound.2 status (.inr (mem_of_lookup answered)) busy
          split_ifs with isSet
          · exact inv.loop task thread
          · exact inv.setWait ⟨le_refl _, fun _ => ⟨Bool.eq_false_iff.mpr isSet, pending⟩⟩
      | parked sets =>
          dsimp only at went
          split_ifs at went
          rcases Option.some.inj went with rfl
          exact inv.loop task thread
      | returned request => cases went
      | raised => cases went

theorem Inv.receive (inv : Inv net) (received : net.receive = some next) : Inv next := by
  rw [Network.receive] at received
  cases isStream : net.stream with
  | nil =>
      rw [isStream] at received
      cases received
  | cons message stream =>
      rw [isStream] at received
      cases message with
      | reply answered status =>
          rcases Option.some.inj received with rfl
          refine inv.traffic ⟨rfl, rfl, rfl, fun _ mem => mem, fun _ mem =>
            List.mem_append_left _ mem, ?_, ?_, fun _ => le_refl _, fun _ isSet => .inl isSet⟩
          · intro request other replied
            rcases replied with mem | mem
            · exact .inl (.inl (isStream ▸ List.mem_cons_of_mem _ mem))
            · rcases List.mem_append.mp mem with mem | mem
              · exact .inl (.inr mem)
              · rcases List.mem_singleton.mp mem with ⟨⟩
                exact .inl (.inl (isStream ▸ List.mem_cons_self))
          · intro thread pending
            rcases pending with busy | (owed | mem) | isSet
            · exact .inl busy
            · exact .inr (.inl (.inl owed))
            · rw [isStream] at mem
              exact .inr (.inl (.inr ((List.mem_cons.mp mem).resolve_left (by simp))))
            · exact .inr (.inr isSet)
      | notice noticed =>
          rcases Option.some.inj received with rfl
          refine inv.traffic ⟨rfl, rfl, rfl, fun _ mem => mem, fun _ mem => mem, ?_, ?_, ?_, ?_⟩
          · intro request other replied
            rcases replied with mem | mem
            · exact .inl (.inl (isStream ▸ List.mem_cons_of_mem _ mem))
            · exact .inl (.inr mem)
          · intro thread pending
            rcases Decidable.em (thread = noticed) with rfl | different
            · exact .inr (.inr (by simp [setEvent]))
            · rcases pending with busy | (owed | mem) | isSet
              · exact .inl busy
              · exact .inr (.inl (.inl owed))
              · rw [isStream] at mem
                exact .inr (.inl (.inr ((List.mem_cons.mp mem).resolve_left (by simp [different]))))
              · exact .inr (.inr (by simpa [setEvent, different] using isSet))
          · intro thread
            rcases Decidable.em (thread = noticed) with rfl | different
            · simp [setEvent]
            · simp [setEvent, different]
          · intro thread isSet
            rcases Decidable.em (thread = noticed) with rfl | different
            · exact .inr (by simp [setEvent])
            · exact .inl (by simpa [setEvent, different] using isSet)
      | other =>
          rcases Option.some.inj received with rfl
          refine inv.traffic ⟨rfl, rfl, rfl, fun _ mem => mem, fun _ mem => mem, ?_, ?_,
            fun _ => le_refl _, fun _ isSet => .inl isSet⟩
          · intro request other replied
            rcases replied with mem | mem
            · exact .inl (.inl (isStream ▸ List.mem_cons_of_mem _ mem))
            · exact .inl (.inr mem)
          · intro thread pending
            rcases pending with busy | (owed | mem) | isSet
            · exact .inl busy
            · exact .inr (.inl (.inl owed))
            · rw [isStream] at mem
              exact .inr (.inl (.inr ((List.mem_cons.mp mem).resolve_left (by simp))))
            · exact .inr (.inr isSet)

/-- What the server sends is added to the stream. -/
theorem Inv.sends (inv : Inv net) {message : Message} {requests : List (Nat × ThreadId)}
    {owed : ThreadId → Nat} (fewer : ∀ request ∈ requests, request ∈ net.requests)
    (answers : ∀ request status, message = .reply request status →
      ∃ thread, (request, thread) ∈ net.requests ∧ net.status thread = status)
    (owes : ∀ thread, 0 < net.owed thread → 0 < owed thread ∨ message = .notice thread) :
    Inv { net with requests, owed, stream := net.stream ++ [message] } := by
  refine inv.traffic ⟨rfl, rfl, rfl, fewer, fun _ mem => mem, ?_, ?_, fun _ => le_refl _,
    fun _ isSet => .inl isSet⟩
  · intro request status replied
    rcases replied with mem | mem
    · rcases List.mem_append.mp mem with mem | mem
      · exact .inl (.inl mem)
      · exact .inr (answers request status (List.mem_singleton.mp mem).symm)
    · exact .inl (.inr mem)
  · intro thread pending
    rcases pending with busy | (isOwed | mem) | isSet
    · exact .inl busy
    · rcases owes thread isOwed with isOwed | same
      · exact .inr (.inl (.inl isOwed))
      · exact .inr (.inl (.inr (List.mem_append_right _ (same ▸ List.mem_singleton_self _))))
    · exact .inr (.inl (.inr (List.mem_append_left _ mem)))
    · exact .inr (.inr isSet)

/-- After a change a notification is owed. -/
theorem Inv.change (inv : Inv net) (changed : ThreadId) (status : String) :
    Inv { net with
      status := Function.update net.status changed status
      owed := Function.update net.owed changed (net.owed changed + 1) } := by
  refine inv.traffic ⟨rfl, rfl, rfl, fun _ mem => mem, fun _ mem => mem,
    fun _ _ replied => .inl replied, ?_, fun _ => le_refl _, fun _ isSet => .inl isSet⟩
  intro thread pending
  rcases Decidable.em (thread = changed) with rfl | different
  · exact .inr (.inl (.inl (by simp)))
  · rcases pending with busy | (owed | mem) | isSet
    · exact .inl (by simpa [different] using busy)
    · exact .inr (.inl (.inl (by simpa [different] using owed)))
    · exact .inr (.inl (.inr mem))
    · exact .inr (.inr isSet)

theorem Inv.step {action : Action} (inv : Inv net) (kept : net.Kept action)
    (taken : step net action = some next) : Inv next := by
  cases action with
  | change thread status =>
      rcases Option.some.inj taken with rfl
      exact inv.change thread status
  | notify thread =>
      rw [IdleWait.step] at taken
      split_ifs at taken
      rcases Option.some.inj taken with rfl
      refine inv.sends (fun _ mem => mem) (fun _ _ same => (by cases same)) fun other owed => ?_
      rcases Decidable.em (other = thread) with rfl | different
      · exact .inr rfl
      · exact .inl (by simpa [different] using owed)
  | send =>
      rcases Option.some.inj taken with rfl
      exact inv.sends (fun _ mem => mem) (fun _ _ same => (by cases same)) fun _ owed => .inl owed
  | process position =>
      rcases Option.map_eq_some_iff.mp taken with ⟨⟨request, thread⟩, found, rfl⟩
      refine inv.sends (fun _ mem => List.mem_of_mem_eraseIdx mem) ?_ fun _ owed => .inl owed
      rintro _ _ ⟨⟩
      exact ⟨thread, List.mem_of_getElem? found, rfl⟩
  | receive => exact inv.receive taken
  | read thread =>
      rcases Option.some.inj taken with rfl
      exact inv.call thread
  | begin task thread =>
      rw [IdleWait.step] at taken
      split_ifs at taken
      rcases Option.some.inj taken with rfl
      exact inv.loop task thread
  | resume task => exact inv.resume kept taken
  | fail task =>
      rcases Option.bind_eq_some_iff.mp taken with ⟨⟨thread, waitAt⟩, -, failed⟩
      split_ifs at failed
      rcases Option.some.inj failed with rfl
      exact inv.setWait trivial

theorem inv_of_reachable (reachable : network.ReachableBy Kept net) : Inv net :=
  reachable.invariant inv_initial fun _ _ _ inv kept taken => inv.step kept taken

end Network

/-- While no notification is lost to another wait, no wait misses one. A wait that has been woken
goes on. -/
theorem idleWait_misses_nothing {net : Network} (reachable : network.ReachableBy Network.Kept net) :
    net.MissesNothing ∧ ∀ task thread sets, net.waits task = some ⟨thread, .parked sets⟩ →
      net.Asleep task thread ∧ (net.events thread).isSet = false ∨
        net.resume task = some (net.loop task thread) := by
  have inv := Network.inv_of_reachable reachable
  refine ⟨⟨fun task thread asleep clear => ?_, fun task thread request returned => ?_⟩,
    fun task thread sets parked => ?_⟩
  · rcases ((inv.waits task thread _ asleep).2 rfl).2 with busy | undelivered | isSet
    · exact .inl busy
    · exact .inr undelivered
    · exact absurd isSet (Bool.eq_false_iff.mp clear)
  · exact (inv.waits task thread _ returned).symm
  · rcases inv.waits task thread _ parked with ⟨bound, asleep⟩
    rcases bound.eq_or_lt with same | woken
    · rcases same with rfl
      exact .inl ⟨parked, (asleep rfl).1⟩
    · refine .inr ?_
      rw [Network.resume, parked]
      exact if_pos woken

/-- Two waits of one thread, which becomes idle after their second reads have been answered. -/
def Scenario.becomesIdle : List Action :=
  [.change "thread" "active", .notify "thread", .begin 0 "thread", .begin 1 "thread", .process 0,
    .process 0, .receive, .receive, .receive, .resume 0, .resume 1, .process 0, .process 0,
    .change "thread" "idle", .receive, .receive, .resume 0, .resume 1]

/-- No wait goes on after its first read while the thread is idle again. -/
def Scenario.keeps (net : Network) : Action → Bool
  | .resume task =>
      match net.waits task with
      | some ⟨thread, .firstRead _⟩ => net.status thread ≠ "idle"
      | _ => true
  | _ => true

theorem kept_of_keeps {net : Network} {action : Action} (keeps : Scenario.keeps net action = true) :
    net.Kept action := by
  cases action with
  | resume task =>
      rintro ⟨thread, request, status, reads, -, -, idle, -⟩
      rw [Scenario.keeps, reads] at keeps
      exact of_decide_eq_true keeps idle
  | _ => trivial

theorem idleWait_parked : ∃ net : Network, net.Asleep 0 "thread" ∧
    (net.status "thread" ≠ "idle" ∨ net.Undelivered "thread") := by
  have ran : (network.runBy Scenario.keeps network.initial Scenario.becomesIdle).any (fun net =>
      net.waits 0 = some ⟨"thread", .parked (net.events "thread").sets⟩ &&
        !(net.events "thread").isSet) = true := by
    decide +kernel
  rcases (Option.any_eq_true _ _).mp ran with ⟨net, reached, holds⟩
  have reachable : network.ReachableBy Network.Kept net :=
    System.steps_of_runBy (fun _ _ => kept_of_keeps) reached
  rcases Bool.and_eq_true_iff.mp holds with ⟨parked, clear⟩
  have asleep : net.Asleep 0 "thread" := by simpa [Network.Asleep] using parked
  have isClear : (net.events "thread").isSet = false := by simpa using clear
  exact ⟨net, asleep, (idleWait_misses_nothing reachable).1.1 0 "thread" asleep isClear⟩

/-- The second wait has read the thread as busy before the notification is read, and goes on before
the first one, which finds the event clear. -/
def Scenario.overtakes : List Action :=
  [.change "thread" "active", .notify "thread", .begin 0 "thread", .process 0, .receive, .receive,
    .begin 1 "thread", .resume 0, .process 0, .process 0, .change "thread" "idle",
    .notify "thread", .receive, .receive, .receive, .resume 1, .resume 0]

theorem idleWait_misses : ∃ net : Network, network.Reachable net ∧ ¬net.MissesNothing := by
  have ran : (network.run network.initial Scenario.overtakes).any (fun net =>
      net.waits 0 = some ⟨"thread", .parked (net.events "thread").sets⟩ &&
        !(net.events "thread").isSet && net.status "thread" = "idle" &&
        net.owed "thread" = 0 && .notice "thread" ∉ net.stream) = true := by
    decide +kernel
  rcases System.exists_reachable_of_run ran with ⟨net, reachable, holds⟩
  refine ⟨net, reachable, fun misses => ?_⟩
  simp only [Bool.and_eq_true, decide_eq_true_eq, Bool.not_eq_true'] at holds
  rcases holds with ⟨⟨⟨⟨asleep, clear⟩, idle⟩, none⟩, nothing⟩
  rcases misses.1 0 "thread" asleep clear with busy | owed | toCome
  · exact busy idle
  · exact owed.ne' none
  · exact nothing toCome

/-! ### The deliveries of the coordinator -/

/-- The await of a delivery at which its wait is. -/
def WaitAt.deliverAt : WaitAt → DeliverAt
  | .firstRead _ => .firstRead
  | .secondRead _ => .secondRead
  | .parked sets => .parked sets
  | .returned _ => .lock
  | .raised => .start

/-- What the delivery sees when its wait goes on. -/
def Answers (net : Network) (input : Input) : WaitAt → Prop
  | .firstRead request | .secondRead request => ∃ result status, input = .reply (.ok result) ∧
      threadStatus result = .ok status ∧ net.answers.lookup request = some status
  | _ => input = .ready

/-- The awaits of `_wait_until_idle`. -/
def isWait : DeliverAt → Bool
  | .firstRead | .secondRead | .parked _ => true
  | _ => false

/-- The deliveries of the coordinator that wait are waits of the network, on the same events. -/
structure Follows (world : World) (net : Network) : Prop where
  events : ∀ thread, world.threadEvent thread = net.events thread
  waits : ∀ task lease await, world.At task (.deliver lease await) → isWait await = true →
    ∃ waitAt, net.waits task = some ⟨lease.threadId, waitAt⟩ ∧ waitAt.deliverAt = await

/-- A delivery and its wait have gone on to their next awaits. -/
structure GoesOn (world : World) (net : Network) (task : TaskId) (lease : WakeLease)
    (after : World × Outcome) (next : Network) : Prop where
  events : ∀ thread, after.1.threadEvent thread = next.events thread
  tasks : after.1.tasks = world.tasks
  others : ∀ other, other ≠ task → next.waits other = net.waits other
  waits : ∀ pc, after.2 = .await pc → ∃ waitAt, pc = .deliver lease waitAt.deliverAt ∧
    next.waits task = some ⟨lease.threadId, waitAt⟩

section

variable {world : World} {net : Network} {task : TaskId} {lease : WakeLease}

theorem GoesOn.enter {before : World} {between : Network} (waitAt : WaitAt)
    (tasks : before.tasks = world.tasks) (waits : between.waits = net.waits)
    (events : ∀ thread, before.threadEvent thread = between.events thread) :
    GoesOn world net task lease (before, .await (.deliver lease waitAt.deliverAt))
      (between.setWait task lease.threadId waitAt) where
  events := events
  tasks := tasks
  others other different := by
    rw [Network.setWait_waits, Function.update_of_ne different, waits]
  waits pc same := by
    rcases same with ⟨⟩
    exact ⟨waitAt, rfl, by rw [Network.setWait_waits, Function.update_self]⟩

/-- A delivery that fails ends, and its wait has raised. -/
theorem GoesOn.fails (error : PyError) (follows : Follows world net) :
    GoesOn world net task lease (GoalBridge.deliverException world lease error)
      (net.setWait task lease.threadId .raised) where
  events thread := by
    rw [GoalBridge.deliverException, GoalBridge.deliverReturn, GoalBridge.deliverEnd,
      GoalBridge.failDelivery]
    repeat' split
    all_goals exact follows.events thread
  tasks := by
    rw [GoalBridge.deliverException, GoalBridge.deliverReturn, GoalBridge.deliverEnd,
      GoalBridge.failDelivery]
    repeat' split
    all_goals rfl
  others other different := by rw [Network.setWait_waits, Function.update_of_ne different]
  waits pc same := by cases same

theorem GoesOn.idleRead {result : Json} {status : String} {request : Nat} {busy : World × Outcome}
    {busyNet : Network} (follows : Follows world net) (isStatus : threadStatus result = .ok status)
    (answered : net.answers.lookup request = some status)
    (goesOn : GoesOn world net task lease busy busyNet) :
    ∃ next, net.idleRead task lease.threadId request busyNet = some next ∧
      GoesOn world net task lease (GoalBridge.idleRead world lease (.ok result) busy) next := by
  have reads : (Except.ok result).bind threadStatus = .ok status := isStatus
  rw [Network.idleRead, answered, GoalBridge.idleRead, reads]
  dsimp only
  split_ifs with idle failed
  · exact ⟨_, rfl, .enter (.returned request) rfl rfl follows.events⟩
  · exact ⟨_, rfl, .fails _ follows⟩
  · exact ⟨_, rfl, goesOn⟩

/-- A delivery of the coordinator takes the step of its wait. -/
theorem deliver_goesOn {await : DeliverAt} {input : Input} {waitAt : WaitAt}
    {after : World × Outcome} (follows : Follows world net)
    (isWait : net.waits task = some ⟨lease.threadId, waitAt⟩) (isAt : waitAt.deliverAt = await)
    (waiting : IdleWait.isWait await = true) (answers : Answers net input waitAt)
    (went : GoalBridge.deliver world task lease await input = some after) :
    ∃ next, net.resume task = some next ∧ GoesOn world net task lease after next := by
  rw [Network.resume, isWait]
  rcases isAt with rfl
  cases waitAt with
  | firstRead request =>
      rcases answers with ⟨result, status, rfl, isStatus, answered⟩
      rcases Option.some.inj went with rfl
      refine GoesOn.idleRead follows isStatus answered ?_
      refine .enter (.secondRead net.nextId) rfl rfl fun thread => ?_
      rcases Decidable.em (thread = lease.threadId) with rfl | different
      · simp [World.threadEvent, World.clearThreadEvent, Network.clearEvent, Network.call,
          ← follows.events]
      · simp [World.threadEvent, World.clearThreadEvent, Network.clearEvent, Network.call,
          ← follows.events, different]
  | secondRead request =>
      rcases answers with ⟨result, status, rfl, isStatus, answered⟩
      rcases Option.some.inj went with rfl
      refine GoesOn.idleRead follows isStatus answered ?_
      rw [follows.events]
      split_ifs with isSet
      · exact .enter (.firstRead net.nextId) rfl rfl follows.events
      · exact .enter (.parked (net.events lease.threadId).sets) rfl rfl follows.events
  | parked sets =>
      rcases answers with rfl
      have wakes : GoalBridge.deliver world task lease (.parked sets) .ready =
          if sets < (world.threadEvent lease.threadId).sets then
            some (world, .await (.deliver lease .firstRead))
          else none := rfl
      have goes := wakes.symm.trans went
      rw [follows.events] at goes
      dsimp only
      split_ifs at goes ⊢ with woken
      rcases Option.some.inj goes with rfl
      exact ⟨_, rfl, .enter (.firstRead net.nextId) rfl rfl follows.events⟩
  | returned request | raised => contradiction

theorem Follows.goOn (follows : Follows world net) (pc : Pc) (input : Input) :
    Follows (world.goOn task pc input) net := by
  have same : (world.logReply task pc input).tasks = world.tasks ∧
      (world.logReply task pc input).threadEvents = world.threadEvents := by
    rcases world.logReply_cases task pc input with same | ⟨_, _, _, _, logged⟩
    · rw [same]
      exact ⟨rfl, rfl⟩
    · rw [logged]
      exact ⟨rfl, rfl⟩
  constructor
  case events =>
    intro thread
    rw [World.goOn, World.threadEvent, World.setTask_threadEvents, same.2]
    exact follows.events thread
  case waits =>
    intro other lease await suspended waiting
    rcases World.at_setTask suspended with ⟨-, running⟩ | ⟨-, before⟩
    · contradiction
    · rw [World.At, same.1] at before
      exact follows.waits other lease await before waiting

theorem isRunning_goOn {pc : Pc} (suspended : world.At task pc) (input : Input) :
    (world.goOn task pc input).IsRunning task := by
  have inside := suspended.lt_length
  simp only [World.goOn, World.IsRunning, World.setTask_tasks]
  rcases world.logReply_cases task pc input with same | ⟨_, _, _, _, logged⟩
  · simp [same, inside]
  · simp [logged, inside]

/-- The coroutine has come to its next await or to its end. -/
theorem Follows.settle {after : World × Outcome} {next : Network} (follows : Follows world net)
    (running : world.IsRunning task) (goesOn : GoesOn world net task lease after next) :
    Follows (after.1.settle task after.2) next := by
  have sameEvents : (after.1.settle task after.2).threadEvents = after.1.threadEvents := by
    cases after.2 with
    | await pc =>
        rw [World.settle.eq_def, World.setTask_threadEvents, World.issue]
        split <;> rfl
    | done | fail => rfl
  constructor
  case events =>
    intro thread
    rw [World.threadEvent, sameEvents]
    exact goesOn.events thread
  case waits =>
    intro other otherLease await suspended waiting
    rcases World.at_settle suspended with ⟨rfl, entered⟩ | before
    · rcases goesOn.waits _ entered with ⟨waitAt, same, isWait⟩
      rcases same with ⟨⟩
      exact ⟨waitAt, isWait, rfl⟩
    · rw [World.At, goesOn.tasks] at before
      have different : other ≠ task := by
        rintro rfl
        cases running.symm.trans before
      rw [goesOn.others other different]
      exact follows.waits other otherLease await before waiting

/-- Where a waiting delivery of the coordinator goes on with what the App Server has answered, the
network takes a step of its wait, and the deliveries that wait are again the waits. -/
theorem Follows.resume {await : DeliverAt} {input : Input} {waitAt : WaitAt} {after : World}
    (follows : Follows world net) (suspended : world.At task (.deliver lease await))
    (waiting : isWait await = true) (isWait : net.waits task = some ⟨lease.threadId, waitAt⟩)
    (answers : Answers net input waitAt)
    (taken : coordinator.step world (.resume task input) = some after) :
    ∃ next, network.step net (.resume task) = some next ∧ Follows after next := by
  rcases follows.waits task lease await suspended waiting with ⟨sameAt, isSame, isAt⟩
  rcases Option.some.inj (isWait.symm.trans isSame) with ⟨⟩
  have ran : world.resumeTask task input = some after := by
    have resumed : (if world.phase = .serving then world.resumeTask task input else none) =
        some after := taken
    split_ifs at resumed
    exact resumed
  have isTask : world.tasks[task]? = some (.suspended (.deliver lease await)) := suspended
  simp only [World.resumeTask, isTask] at ran
  split_ifs at ran
  rcases Option.map_eq_some_iff.mp ran with ⟨reached, went, rfl⟩
  have goes : GoalBridge.deliver (world.goOn task (.deliver lease await) input) task lease await
      input = some reached := by
    cases await with
    | firstRead | secondRead | parked => exact went
    | _ => contradiction
  rcases deliver_goesOn (follows.goOn _ input) isWait isAt waiting answers goes with
    ⟨next, took, goesOn⟩
  exact ⟨next, took, (follows.goOn _ input).settle (isRunning_goOn suspended input) goesOn⟩

end

end IdleWait

end Longrun.Bridge
