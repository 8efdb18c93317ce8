import Mathlib

/-!
# Coroutines as scripts of calls

A coroutine makes one call after the other and goes on with the replies; a reply is a value or an
exception. What the calls do is left open. Under an oracle that answers every call a script runs to
its end and leaves a history. `Ensures` is the weakest precondition of a script over any kind of
state that its calls need and change, with one rule for each way of composing scripts.
-/

namespace Longrun

/-- The calls of a coroutine, and what each of them returns. -/
structure Interface where
  Call : Type
  Answer : Call → Type

/-- A coroutine: it has returned, it has raised, or it waits for the reply to a call. -/
inductive Script (interface : Interface) (Error Value : Type) where
  | done (value : Value)
  | raised (error : Error)
  | call (request : interface.Call)
      (resume : Except Error (interface.Answer request) → Script interface Error Value)

namespace Script

variable {interface : Interface} {Error Value Next State : Type}

def bind : Script interface Error Value → (Value → Script interface Error Next) →
    Script interface Error Next
  | done value, next => next value
  | raised error, _ => raised error
  | call request resume, next => call request fun reply => (resume reply).bind next

instance instMonad : Monad (Script interface Error) where
  pure := done
  bind := bind

/-- Returns the value or raises the error. -/
def ofExcept : Except Error Value → Script interface Error Value
  | .ok value => done value
  | .error error => raised error

/-- Makes one call. -/
def perform (request : interface.Call) : Script interface Error (interface.Answer request) :=
  call request ofExcept

/-- Runs a script and returns how it ended. -/
def attempt : Script interface Error Value → Script interface Error (Except Error Value)
  | done value => done (.ok value)
  | raised error => done (.error error)
  | call request resume => call request fun reply => (resume reply).attempt

/-- Goes on with a handler where a script has raised. -/
def orElse (handler : Error → Script interface Error Value) :
    Except Error Value → Script interface Error Value
  | .ok value => done value
  | .error error => handler error

/-- `try: body except …`. -/
def handle (body : Script interface Error Value) (handler : Error → Script interface Error Value) :
    Script interface Error Value :=
  body.attempt.bind (orElse handler)

/-- `try: body finally: cleanup`. -/
def finish (body : Script interface Error Value) (cleanup : Script interface Error Unit) :
    Script interface Error Value :=
  body.attempt.bind fun result => cleanup.bind fun _ => ofExcept result

/-! ### Running under an oracle -/

/-- A call and its reply. -/
structure Exchange (interface : Interface) (Error : Type) where
  request : interface.Call
  reply : Except Error (interface.Answer request)

/-- Answers every call, in view of the calls before it. -/
abbrev Oracle (interface : Interface) (Error : Type) : Type :=
  List (Exchange interface Error) → (request : interface.Call) →
    Except Error (interface.Answer request)

/-- Runs a script to its end. -/
def run (oracle : Oracle interface Error) : Script interface Error Value →
    List (Exchange interface Error) → List (Exchange interface Error) × Except Error Value
  | done value, history => (history, .ok value)
  | raised error, history => (history, .error error)
  | call request resume, history =>
      (resume (oracle history request)).run oracle
        (history ++ [⟨request, oracle history request⟩])

/-! ### Weakest preconditions -/

/-- What a call needs of the state it is made in, and the replies and states it may lead to. -/
structure Effects (interface : Interface) (Error State : Type) where
  needs : State → interface.Call → Prop
  does : State → (request : interface.Call) → Except Error (interface.Answer request) → State → Prop

/-- Every call finds what it needs, and every end satisfies the postcondition. -/
def Ensures (effects : Effects interface Error State) (post : Except Error Value → State → Prop) :
    Script interface Error Value → State → Prop
  | done value, state => post (.ok value) state
  | raised error, state => post (.error error) state
  | call request resume, state =>
      effects.needs state request ∧
        ∀ reply after, effects.does state request reply after →
          (resume reply).Ensures effects post after

/-- What a script has to reach so that the next one can go on. -/
def Leads (effects : Effects interface Error State) (post : Except Error Next → State → Prop)
    (next : Value → Script interface Error Next) : Except Error Value → State → Prop
  | .ok value, state => (next value).Ensures effects post state
  | .error error, state => post (.error error) state

section Ensures

variable {effects : Effects interface Error State} {post stronger : Except Error Value → State → Prop}
  {goal : Except Error Next → State → Prop} {state : State}

@[simp]
theorem ensures_done {value : Value} :
    (done value : Script interface Error Value).Ensures effects post state ↔
      post (.ok value) state := Iff.rfl

@[simp]
theorem ensures_pure {value : Value} :
    (pure value : Script interface Error Value).Ensures effects post state ↔
      post (.ok value) state := Iff.rfl

@[simp]
theorem ensures_raised {error : Error} :
    (raised error : Script interface Error Value).Ensures effects post state ↔
      post (.error error) state := Iff.rfl

theorem ensures_call {request : interface.Call}
    {resume : Except Error (interface.Answer request) → Script interface Error Value} :
    (call request resume).Ensures effects post state ↔
      effects.needs state request ∧ ∀ reply after, effects.does state request reply after →
        (resume reply).Ensures effects post after := Iff.rfl

@[simp]
theorem ensures_ofExcept {result : Except Error Value} :
    (ofExcept result : Script interface Error Value).Ensures effects post state ↔
      post result state := by
  cases result <;> rfl

theorem ensures_perform {request : interface.Call}
    {post : Except Error (interface.Answer request) → State → Prop} :
    (perform request).Ensures effects post state ↔
      effects.needs state request ∧ ∀ reply after, effects.does state request reply after →
        post reply after := by
  simp [perform, ensures_call]

@[simp]
theorem leads_ok {next : Value → Script interface Error Next} {value : Value} :
    Leads effects goal next (.ok value) state ↔ (next value).Ensures effects goal state := Iff.rfl

@[simp]
theorem leads_error {next : Value → Script interface Error Next} {error : Error} :
    Leads effects goal next (.error error) state ↔ goal (.error error) state := Iff.rfl

/-- The rule of consequence. -/
theorem Ensures.mono {script : Script interface Error Value}
    (ensures : script.Ensures effects stronger state)
    (weaken : ∀ result after, stronger result after → post result after) :
    script.Ensures effects post state := by
  induction script generalizing state with
  | done value => exact weaken _ _ ensures
  | raised error => exact weaken _ _ ensures
  | call request resume ih => exact ⟨ensures.1, fun reply after does => ih _ (ensures.2 _ _ does)⟩

theorem ensures_congr {script : Script interface Error Value}
    (same : ∀ result after, post result after ↔ stronger result after) :
    script.Ensures effects post state ↔ script.Ensures effects stronger state :=
  ⟨fun ensures => ensures.mono fun result after => (same result after).mp,
    fun ensures => ensures.mono fun result after => (same result after).mpr⟩

/-- The rule of sequence. -/
theorem ensures_bind {script : Script interface Error Value}
    {next : Value → Script interface Error Next} :
    (script.bind next).Ensures effects goal state ↔
      script.Ensures effects (Leads effects goal next) state := by
  induction script generalizing state with
  | done value => exact Iff.rfl
  | raised error => exact Iff.rfl
  | call request resume ih => simp only [bind, ensures_call, ih]

theorem ensures_monadBind {script : Script interface Error Value}
    {next : Value → Script interface Error Next} :
    (script >>= next).Ensures effects goal state ↔
      script.Ensures effects (Leads effects goal next) state :=
  ensures_bind

theorem ensures_attempt {script : Script interface Error Value}
    {post : Except Error (Except Error Value) → State → Prop} :
    script.attempt.Ensures effects post state ↔
      script.Ensures effects (fun result => post (.ok result)) state := by
  induction script generalizing state with
  | done value => exact Iff.rfl
  | raised error => exact Iff.rfl
  | call request resume ih => simp only [attempt, ensures_call, ih]

/-- The rule of `try … except`. -/
theorem ensures_handle {script : Script interface Error Value}
    {handler : Error → Script interface Error Value} :
    (script.handle handler).Ensures effects post state ↔
      script.Ensures effects (fun result => (orElse handler result).Ensures effects post) state := by
  rw [handle, ensures_bind, ensures_attempt]
  exact Iff.rfl

/-- The rule of `try … finally`. -/
theorem ensures_finish {script : Script interface Error Value}
    {cleanup : Script interface Error Unit} :
    (script.finish cleanup).Ensures effects post state ↔
      script.Ensures effects (fun result =>
        cleanup.Ensures effects (Leads effects post fun _ => ofExcept result)) state := by
  rw [finish, ensures_bind, ensures_attempt]
  exact ensures_congr fun _ _ => ensures_bind

end Ensures

/-! ### The calls of a script -/

/-- The script makes allowed calls only. -/
def Uses (allowed : interface.Call → Prop) : Script interface Error Value → Prop
  | done _ => True
  | raised _ => True
  | call request resume => allowed request ∧ ∀ reply, (resume reply).Uses allowed

section Uses

variable {allowed : interface.Call → Prop} {script : Script interface Error Value}

theorem uses_ofExcept (result : Except Error Value) :
    (ofExcept result : Script interface Error Value).Uses allowed := by
  cases result <;> trivial

theorem uses_perform {request : interface.Call} (isAllowed : allowed request) :
    (perform request : Script interface Error _).Uses allowed :=
  ⟨isAllowed, uses_ofExcept⟩

theorem Uses.bind {next : Value → Script interface Error Next} (first : script.Uses allowed)
    (rest : ∀ value, (next value).Uses allowed) : (script.bind next).Uses allowed := by
  induction script with
  | done value => exact rest value
  | raised error => trivial
  | call request resume ih => exact ⟨first.1, fun reply => ih reply (first.2 reply)⟩

theorem Uses.monadBind {next : Value → Script interface Error Next} (first : script.Uses allowed)
    (rest : ∀ value, (next value).Uses allowed) : (script >>= next).Uses allowed :=
  first.bind rest

theorem Uses.mono {wider : interface.Call → Prop} (uses : script.Uses allowed)
    (widen : ∀ request, allowed request → wider request) : script.Uses wider := by
  induction script with
  | done value => trivial
  | raised error => trivial
  | call request resume ih => exact ⟨widen _ uses.1, fun reply => ih reply (uses.2 reply)⟩

theorem Uses.attempt (uses : script.Uses allowed) : script.attempt.Uses allowed := by
  induction script with
  | done value => trivial
  | raised error => trivial
  | call request resume ih => exact ⟨uses.1, fun reply => ih reply (uses.2 reply)⟩

theorem Uses.finish {cleanup : Script interface Error Unit} (uses : script.Uses allowed)
    (cleans : cleanup.Uses allowed) : (script.finish cleanup).Uses allowed :=
  uses.attempt.bind fun result => cleans.bind fun _ => uses_ofExcept result

/-- What the allowed calls keep is kept by a script that makes no others. -/
theorem Uses.ensures {effects : Effects interface Error State} {invariant : State → Prop}
    {state : State} (uses : script.Uses allowed)
    (needs : ∀ state request, invariant state → allowed request → effects.needs state request)
    (keeps : ∀ state request reply after, invariant state → allowed request →
      effects.does state request reply after → invariant after)
    (holds : invariant state) : script.Ensures effects (fun _ => invariant) state := by
  induction script generalizing state with
  | done value => exact holds
  | raised error => exact holds
  | call request resume ih =>
      refine ⟨needs _ _ holds uses.1, ?_⟩
      intro reply after does
      exact ih reply (uses.2 reply) (keeps _ _ _ _ holds uses.1 does)

end Uses

/-! ### Assertions that are kept -/

/-- A script that begins where the assertion holds ends where it holds. -/
def Maintains (effects : Effects interface Error State) (assertion : State → Prop)
    (script : Script interface Error Value) : Prop :=
  ∀ state, assertion state → script.Ensures effects (fun _ => assertion) state

section Maintains

variable {effects : Effects interface Error State} {assertion : State → Prop}
  {script : Script interface Error Value}

theorem maintains_pure (value : Value) :
    (pure value : Script interface Error Value).Maintains effects assertion := fun _ holds => holds

theorem maintains_raised (error : Error) :
    (raised error : Script interface Error Value).Maintains effects assertion := fun _ holds => holds

theorem maintains_ofExcept (result : Except Error Value) :
    (ofExcept result : Script interface Error Value).Maintains effects assertion :=
  fun _ holds => ensures_ofExcept.mpr holds

theorem Maintains.bind {next : Value → Script interface Error Next}
    (first : script.Maintains effects assertion)
    (rest : ∀ value, (next value).Maintains effects assertion) :
    (script >>= next).Maintains effects assertion := by
  intro state holds
  apply ensures_monadBind.mpr
  apply (first state holds).mono
  intro result after holds
  cases result with
  | ok value => exact rest value after holds
  | error error => exact holds

theorem Maintains.attempt (maintains : script.Maintains effects assertion) :
    script.attempt.Maintains effects assertion :=
  fun state holds => ensures_attempt.mpr (maintains state holds)

theorem Maintains.handle {handler : Error → Script interface Error Value}
    (maintains : script.Maintains effects assertion)
    (handles : ∀ error, (handler error).Maintains effects assertion) :
    (script.handle handler).Maintains effects assertion := by
  intro state holds
  apply ensures_handle.mpr
  apply (maintains state holds).mono
  intro result after holds
  cases result with
  | ok value => exact holds
  | error error => exact handles error after holds

theorem Maintains.finish {cleanup : Script interface Error Unit}
    (maintains : script.Maintains effects assertion) (cleans : cleanup.Maintains effects assertion) :
    (script.finish cleanup).Maintains effects assertion :=
  maintains.attempt.bind fun result => cleans.bind fun _ => maintains_ofExcept result

end Maintains

/-! ### Blocks with local variables -/

end Script

/-- The body of a `try` statement: its variables keep the values that they had where it raised. -/
def Block (interface : Interface) (Error Locals Value : Type) : Type :=
  Locals → Script interface Error (Except Error Value × Locals)

namespace Block

variable {interface : Interface} {Error Locals Value Next State : Type}

/-- Goes on with the next block unless the first one has raised. -/
def andThen (next : Value → Block interface Error Locals Next) :
    Except Error Value × Locals → Script interface Error (Except Error Next × Locals)
  | (.ok value, locals) => next value locals
  | (.error error, locals) => .done (.error error, locals)

instance instMonad : Monad (Block interface Error Locals) where
  pure value locals := .done (.ok value, locals)
  bind block next locals := (block locals).bind (andThen next)

/-- Makes one call. -/
def call (request : interface.Call) : Block interface Error Locals (interface.Answer request) :=
  fun locals => (Script.perform request).attempt.bind fun result => .done (result, locals)

def raise (error : Error) : Block interface Error Locals Value :=
  fun locals => .done (.error error, locals)

def ofExcept : Except Error Value → Block interface Error Locals Value
  | .ok value => pure value
  | .error error => raise error

/-- The variables. -/
def locals : Block interface Error Locals Locals := fun locals => .done (.ok locals, locals)

/-- An assignment. -/
def assign (change : Locals → Locals) : Block interface Error Locals Unit :=
  fun locals => .done (.ok (), change locals)

/-- Goes on with a handler where a block has raised. -/
def orElse (handler : Error → Block interface Error Locals Value) :
    Except Error Value × Locals → Script interface Error (Except Error Value × Locals)
  | (.ok value, locals) => .done (.ok value, locals)
  | (.error error, locals) => handler error locals

/-- An inner `try: body except …`. -/
def handle (body : Block interface Error Locals Value)
    (handler : Error → Block interface Error Locals Value) : Block interface Error Locals Value :=
  fun locals => (body locals).bind (orElse handler)

/-- `try: body except: handler finally: cleanup`. -/
def guarded (body : Block interface Error Locals Value) (first : Locals)
    (handler : Locals → Error → Script interface Error Value)
    (cleanup : Locals → Script interface Error Unit) : Script interface Error Value :=
  (body first).bind fun (result, locals) =>
    (Script.orElse (handler locals) result).finish (cleanup locals)

/-- Where a block may stop. -/
def Stops (post : Except Error Value → Locals → State → Prop) :
    Except Error (Except Error Value × Locals) → State → Prop
  | .ok (result, locals), state => post result locals state
  | .error _, _ => False

/-- Every call of the block finds what it needs, and every end satisfies the postcondition. -/
def Ensures (effects : Script.Effects interface Error State)
    (post : Except Error Value → Locals → State → Prop)
    (block : Block interface Error Locals Value) (locals : Locals) (state : State) : Prop :=
  (block locals).Ensures effects (Stops post) state

/-- What a block has to reach so that the next one can go on. -/
def Leads (effects : Script.Effects interface Error State)
    (post : Except Error Next → Locals → State → Prop)
    (next : Value → Block interface Error Locals Next) :
    Except Error Value → Locals → State → Prop
  | .ok value, locals, state => (next value).Ensures effects post locals state
  | .error error, locals, state => post (.error error) locals state

/-- What a block has to reach so that its handler can go on. -/
def Recovers (effects : Script.Effects interface Error State)
    (post : Except Error Value → Locals → State → Prop)
    (handler : Error → Block interface Error Locals Value) :
    Except Error Value → Locals → State → Prop
  | .ok value, locals, state => post (.ok value) locals state
  | .error error, locals, state => (handler error).Ensures effects post locals state

section Ensures

variable {effects : Script.Effects interface Error State}
  {post stronger : Except Error Value → Locals → State → Prop}
  {goal : Except Error Next → Locals → State → Prop} {values : Locals} {state : State}
  {block : Block interface Error Locals Value}

@[simp]
theorem ensures_pure {value : Value} :
    (pure value : Block interface Error Locals Value).Ensures effects post values state ↔
      post (.ok value) values state := Iff.rfl

@[simp]
theorem ensures_raise {error : Error} :
    (raise error : Block interface Error Locals Value).Ensures effects post values state ↔
      post (.error error) values state := Iff.rfl

theorem ensures_ofExcept {result : Except Error Value} :
    (ofExcept result : Block interface Error Locals Value).Ensures effects post values state ↔
      post result values state := by
  cases result <;> exact Iff.rfl

@[simp]
theorem ensures_locals {post : Except Error Locals → Locals → State → Prop} :
    (locals : Block interface Error Locals Locals).Ensures effects post values state ↔
      post (.ok values) values state := Iff.rfl

@[simp]
theorem ensures_assign {change : Locals → Locals} {post : Except Error Unit → Locals → State → Prop} :
    (assign change : Block interface Error Locals Unit).Ensures effects post values state ↔
      post (.ok ()) (change values) state := Iff.rfl

theorem ensures_call {request : interface.Call}
    {post : Except Error (interface.Answer request) → Locals → State → Prop} :
    (call request).Ensures effects post values state ↔
      effects.needs state request ∧ ∀ reply after, effects.does state request reply after →
        post reply values after := by
  rw [Ensures, call, Script.ensures_bind, Script.ensures_attempt, Script.ensures_perform]
  exact Iff.rfl

@[simp]
theorem leads_ok {next : Value → Block interface Error Locals Next} {value : Value} :
    Leads effects goal next (.ok value) values state ↔
      (next value).Ensures effects goal values state := Iff.rfl

@[simp]
theorem leads_error {next : Value → Block interface Error Locals Next} {error : Error} :
    Leads effects goal next (.error error) values state ↔ goal (.error error) values state :=
  Iff.rfl

@[simp]
theorem recovers_ok {handler : Error → Block interface Error Locals Value} {value : Value} :
    Recovers effects post handler (.ok value) values state ↔ post (.ok value) values state :=
  Iff.rfl

@[simp]
theorem recovers_error {handler : Error → Block interface Error Locals Value} {error : Error} :
    Recovers effects post handler (.error error) values state ↔
      (handler error).Ensures effects post values state := Iff.rfl

theorem Ensures.mono (ensures : block.Ensures effects stronger values state)
    (weaken : ∀ result locals after, stronger result locals after → post result locals after) :
    block.Ensures effects post values state := by
  apply Script.Ensures.mono ensures
  intro result after stops
  cases result with
  | ok stopped => exact weaken _ _ _ stops
  | error error => exact stops

/-- The rule of sequence. -/
theorem ensures_bind {next : Value → Block interface Error Locals Next} :
    (block >>= next).Ensures effects goal values state ↔
      block.Ensures effects (Leads effects goal next) values state := by
  apply Script.ensures_bind.trans
  apply Script.ensures_congr
  intro result after
  rcases result with error | ⟨result, locals⟩
  · simp [Stops]
  · cases result <;> exact Iff.rfl

/-- The rule of an inner `try … except`. -/
theorem ensures_handle {handler : Error → Block interface Error Locals Value} :
    (block.handle handler).Ensures effects post values state ↔
      block.Ensures effects (Recovers effects post handler) values state := by
  apply Script.ensures_bind.trans
  apply Script.ensures_congr
  intro result after
  rcases result with error | ⟨result, locals⟩
  · simp [Stops]
  · cases result <;> exact Iff.rfl

/-- The rule of `try … except … finally`. -/
theorem ensures_guarded {handler : Locals → Error → Script interface Error Value}
    {cleanup : Locals → Script interface Error Unit} {post : Except Error Value → State → Prop}
    (ensures : block.Ensures effects (fun result locals =>
      ((Script.orElse (handler locals) result).finish (cleanup locals)).Ensures effects post)
        values state) :
    (block.guarded values handler cleanup).Ensures effects post state := by
  apply Script.ensures_bind.mpr
  apply Script.Ensures.mono ensures
  intro result after stops
  rcases result with error | ⟨result, locals⟩
  · exact stops.elim
  · exact stops

end Ensures

/-! ### The calls of a block -/

/-- The block makes allowed calls only. -/
def Uses (allowed : interface.Call → Prop) (block : Block interface Error Locals Value) : Prop :=
  ∀ locals, (block locals).Uses allowed

section Uses

variable {allowed : interface.Call → Prop} {block : Block interface Error Locals Value}

theorem uses_pure (value : Value) : (pure value : Block interface Error Locals Value).Uses allowed :=
  fun _ => trivial

theorem uses_raise (error : Error) :
    (raise error : Block interface Error Locals Value).Uses allowed := fun _ => trivial

theorem uses_ofExcept (result : Except Error Value) :
    (ofExcept result : Block interface Error Locals Value).Uses allowed := by
  cases result with
  | ok value => exact uses_pure value
  | error error => exact uses_raise error

theorem uses_locals : (locals : Block interface Error Locals Locals).Uses allowed :=
  fun _ => trivial

theorem uses_assign (change : Locals → Locals) :
    (assign change : Block interface Error Locals Unit).Uses allowed := fun _ => trivial

theorem uses_call {request : interface.Call} (isAllowed : allowed request) :
    (call request : Block interface Error Locals _).Uses allowed :=
  fun _ => (Script.uses_perform isAllowed).attempt.bind fun _ => trivial

theorem Uses.bind {next : Value → Block interface Error Locals Next} (first : block.Uses allowed)
    (rest : ∀ value, (next value).Uses allowed) : (block >>= next).Uses allowed := by
  intro locals
  apply (first locals).bind
  rintro ⟨result, locals⟩
  cases result with
  | ok value => exact rest value locals
  | error error => trivial

theorem Uses.handle {handler : Error → Block interface Error Locals Value}
    (uses : block.Uses allowed) (handles : ∀ error, (handler error).Uses allowed) :
    (block.handle handler).Uses allowed := by
  intro locals
  apply (uses locals).bind
  rintro ⟨result, locals⟩
  cases result with
  | ok value => trivial
  | error error => exact handles error locals

theorem Uses.guarded {first : Locals} {handler : Locals → Error → Script interface Error Value}
    {cleanup : Locals → Script interface Error Unit} (uses : block.Uses allowed)
    (handles : ∀ locals error, (handler locals error).Uses allowed)
    (cleans : ∀ locals, (cleanup locals).Uses allowed) :
    (block.guarded first handler cleanup).Uses allowed := by
  apply (uses first).bind
  rintro ⟨result, locals⟩
  apply Script.Uses.finish _ (cleans locals)
  cases result with
  | ok value => trivial
  | error error => exact handles locals error

end Uses

end Block

namespace Script

variable {interface : Interface} {Error Value State : Type}

/-! ### Histories -/

/-- The calls may have every reply that is admitted; what is seen of them adds up. -/
def observing (admits : ∀ request : interface.Call, Except Error (interface.Answer request) → Prop)
    (add : State → Exchange interface Error → State) : Effects interface Error State where
  needs _ _ := True
  does state request reply after := admits request reply ∧ after = add state ⟨request, reply⟩

/-- As `observing`, where a call may be made only in a state that allows it. -/
def checking (allows : State → interface.Call → Prop)
    (admits : ∀ request : interface.Call, Except Error (interface.Answer request) → Prop)
    (add : State → Exchange interface Error → State) : Effects interface Error State where
  needs := allows
  does state request reply after := admits request reply ∧ after = add state ⟨request, reply⟩

section Checking

variable {allows : State → interface.Call → Prop}
  {admits : ∀ request : interface.Call, Except Error (interface.Answer request) → Prop}
  {add : State → Exchange interface Error → State} {oracle : Oracle interface Error}
  {script : Script interface Error Value} {post : Except Error Value → State → Prop}
  {history : List (Exchange interface Error)} {start : State}

private theorem run_after_of_checks
    (admitted : ∀ history request, admits request (oracle history request))
    (ensures : script.Ensures (checking allows admits add) post (history.foldl add start)) :
    post (script.run oracle history).2 ((script.run oracle history).1.foldl add start) := by
  induction script generalizing history with
  | done value => exact ensures
  | raised error => exact ensures
  | call request resume ih =>
      apply ih
      apply ensures.2 (oracle history request)
      exact ⟨admitted _ _, List.foldl_concat ..⟩

/-- What is ensured of all that may be seen holds of what is seen in a run. -/
theorem run_of_checks (admitted : ∀ history request, admits request (oracle history request))
    (ensures : script.Ensures (checking allows admits add) post start) :
    post (script.run oracle []).2 ((script.run oracle []).1.foldl add start) :=
  run_after_of_checks admitted ensures

theorem run_of_ensures (admitted : ∀ history request, admits request (oracle history request))
    (ensures : script.Ensures (observing admits add) post start) :
    post (script.run oracle []).2 ((script.run oracle []).1.foldl add start) :=
  have checks : script.Ensures (checking (fun _ _ => True) admits add) post start := ensures
  run_of_checks admitted checks

theorem isPrefix_run (script : Script interface Error Value) (oracle : Oracle interface Error)
    (history : List (Exchange interface Error)) : history <+: (script.run oracle history).1 := by
  induction script generalizing history with
  | done value => exact List.prefix_rfl
  | raised error => exact List.prefix_rfl
  | call request resume ih => exact (List.prefix_append _ _).trans (ih _ _)

private theorem allows_after_of_checks {before after : List (Exchange interface Error)}
    {exchange : Exchange interface Error}
    (admitted : ∀ history request, admits request (oracle history request))
    (ensures : script.Ensures (checking allows admits add) post (history.foldl add start))
    (ran : (script.run oracle history).1 = before ++ exchange :: after)
    (made : history.length ≤ before.length) :
    allows (before.foldl add start) exchange.request := by
  induction script generalizing history with
  | done value =>
      have lengths := congrArg List.length ran
      simp only [run, List.length_append, List.length_cons] at lengths
      omega
  | raised error =>
      have lengths := congrArg List.length ran
      simp only [run, List.length_append, List.length_cons] at lengths
      omega
  | call request resume ih =>
      rcases Nat.eq_or_lt_of_le made with same | less
      · -- The call is the next one of the script.
        rcases isPrefix_run (resume (oracle history request)) oracle
          (history ++ [⟨request, oracle history request⟩]) with ⟨rest, grown⟩
        rw [run, ← grown, List.append_assoc, List.singleton_append] at ran
        rcases List.append_inj ran same with ⟨rfl, next⟩
        rcases List.cons.inj next with ⟨rfl, -⟩
        exact ensures.1
      · have goesOn : (resume (oracle history request)).Ensures (checking allows admits add) post
            (List.foldl add start (history ++ [⟨request, oracle history request⟩])) :=
          ensures.2 (oracle history request) _ ⟨admitted _ _, List.foldl_concat ..⟩
        exact ih (oracle history request) goesOn ran (by simpa using less)

/-- Every call of a run is made where it is allowed. -/
theorem allows_of_checks {before after : List (Exchange interface Error)}
    {exchange : Exchange interface Error}
    (admitted : ∀ history request, admits request (oracle history request))
    (ensures : script.Ensures (checking allows admits add) post start)
    (ran : (script.run oracle []).1 = before ++ exchange :: after) :
    allows (before.foldl add start) exchange.request :=
  have starts : script.Ensures (checking allows admits add) post
      (([] : List (Exchange interface Error)).foldl add start) := ensures
  allows_after_of_checks admitted starts ran (Nat.zero_le _)

end Checking

end Script

end Longrun
