import Longrun.Library.Cooperative

/-!
# Scripts that take turns at every call

Scripts of several processes run over a shared memory: every call is one step, and between two calls of
a script any other one may act. `Shares` is rely-guarantee reasoning for them, where a script
guarantees to all the others what they rely on.
-/

namespace Longrun

/-- Scripts over a shared memory. A call is served in view of what else may happen: its reply, or that
it has failed. Where it cannot be served the script has to wait. -/
structure Interleaved (interface : Interface) (Error Task Entry Memory : Type) where
  initial : Memory
  enter : Task → Memory → Entry → Option (Memory × Script interface Error Unit)
  serve : Task → Memory → (request : interface.Call) → Except Error (interface.Answer request) →
    Option (Except Error (interface.Answer request) × Memory)

namespace Interleaved

variable {interface : Interface} {Error Task Entry Memory : Type}

def step [DecidableEq Task] (tasks : Interleaved interface Error Task Entry Memory)
    (world : Process.World interface Error Task Memory) :
    Process.Action interface Error Task Entry → Option (Process.World interface Error Task Memory)
  | .enter task entry =>
      match world.scripts task with
      | .done _ =>
          (tasks.enter task world.memory entry).map fun entered => world.settle task entered
      | _ => none
  | .resume task choices =>
      match world.scripts task with
      | .call request resume =>
          (tasks.serve task world.memory request (choices request)).map fun served =>
            world.settle task (served.2, resume served.1)
      | _ => none

/-- The system of the tasks, none of which has begun. -/
def system [DecidableEq Task] (tasks : Interleaved interface Error Task Entry Memory) :
    System (Process.World interface Error Task Memory) (Process.Action interface Error Task Entry) where
  initial := ⟨tasks.initial, fun _ => .done ()⟩
  step := tasks.step

/-- The task that takes a step. -/
def taskOf : Process.Action interface Error Task Entry → Task
  | .enter task _ => task
  | .resume task _ => task

/-- What a task relies on while others act. -/
structure Shares (tasks : Interleaved interface Error Task Entry Memory) where
  relies : Task → Memory → Memory → Prop
  relies_refl : ∀ task memory, relies task memory memory
  relies_trans : ∀ {task first middle last}, relies task first middle → relies task middle last →
    relies task first last

namespace Shares

variable {tasks : Interleaved interface Error Task Entry Memory} (shares : tasks.Shares)

/-- A change on which all the other tasks may rely. -/
def Guarantees (task : Task) (before after : Memory) : Prop :=
  ∀ other, other ≠ task → shares.relies other before after

/-- What the calls of a task do among the others. -/
def effects (task : Task) : Script.Effects interface Error Memory where
  needs memory request := ∀ later choice reply last, shares.relies task memory later →
    tasks.serve task later request choice = some (reply, last) → shares.Guarantees task later last
  does memory request reply after := ∃ later choice, shares.relies task memory later ∧
    tasks.serve task later request choice = some (reply, after)

variable {shares} {task : Task} {Value : Type} {script : Script interface Error Value}
  {post : Except Error Value → Memory → Prop} {memory later : Memory}

/-- The rule for a call. -/
theorem ensures_perform {request : interface.Call}
    {post : Except Error (interface.Answer request) → Memory → Prop}
    (goesOn : ∀ later choice reply last, shares.relies task memory later →
      tasks.serve task later request choice = some (reply, last) →
        shares.Guarantees task later last ∧ post reply last) :
    (Script.perform request).Ensures (shares.effects task) post memory := by
  apply Script.ensures_perform.mpr
  constructor
  · intro later choice reply last relied served
    exact (goesOn later choice reply last relied served).1
  · rintro reply last ⟨later, choice, relied, served⟩
    exact (goesOn later choice reply last relied served).2

/-- A script can go on whatever the others have done. -/
theorem ensures_later
    (stable : ∀ result memory later, post result memory → shares.relies task memory later →
      post result later)
    (ensures : script.Ensures (shares.effects task) post memory)
    (relied : shares.relies task memory later) :
    script.Ensures (shares.effects task) post later := by
  cases script with
  | done value => exact stable _ _ _ ensures relied
  | raised error => exact stable _ _ _ ensures relied
  | call request resume =>
      constructor
      · intro last choice reply after further served
        exact ensures.1 last choice reply after (shares.relies_trans relied further) served
      · rintro reply after ⟨last, choice, further, served⟩
        exact ensures.2 reply after ⟨last, choice, shares.relies_trans relied further, served⟩

/-- Every task that is entered in an admitted way behaves. -/
structure Keeps (shares : tasks.Shares) (admitted : Task → Memory → Entry → Prop)
    (post : Task → Except Error Unit → Memory → Prop) : Prop where
  stable : ∀ {task result memory later}, post task result memory → shares.relies task memory later →
    post task result later
  initial : ∀ task, post task (.ok ()) tasks.initial
  enter : ∀ {task memory entry after script}, admitted task memory entry →
    post task (.ok ()) memory → tasks.enter task memory entry = some (after, script) →
      shares.Guarantees task memory after ∧ script.Ensures (shares.effects task) (post task) after

variable {admitted : Task → Memory → Entry → Prop} {post : Task → Except Error Unit → Memory → Prop}
  {world : Process.World interface Error Task Memory} [DecidableEq Task]

/-- All the tasks can go on. -/
def Going (shares : tasks.Shares) (post : Task → Except Error Unit → Memory → Prop)
    (world : Process.World interface Error Task Memory) : Prop :=
  ∀ task, (world.scripts task).Ensures (shares.effects task) (post task) world.memory

theorem Going.settle {after : Memory} {script : Script interface Error Unit}
    (going : shares.Going post world) (keeps : shares.Keeps admitted post)
    (guaranteed : shares.Guarantees task world.memory after)
    (ensures : script.Ensures (shares.effects task) (post task) after) :
    shares.Going post (world.settle task (after, script)) := by
  intro other
  by_cases same : other = task
  · subst same
    simpa [Process.World.settle] using ensures
  · have stable (result : Except Error Unit) (memory later : Memory)
        (holds : post other result memory) (relied : shares.relies other memory later) :
        post other result later := keeps.stable holds relied
    have goesOn := ensures_later stable (going other) (guaranteed other same)
    simpa [Process.World.settle, same] using goesOn

/-- A step guarantees to the other tasks what they rely on, and all the tasks can go on. -/
theorem Going.step {next : Process.World interface Error Task Memory}
    {action : Process.Action interface Error Task Entry} (going : shares.Going post world)
    (keeps : shares.Keeps admitted post) (isAdmitted : Process.Entering admitted world action)
    (taken : tasks.step world action = some next) :
    shares.Guarantees (taskOf action) world.memory next.memory ∧ shares.Going post next := by
  cases action with
  | enter task entry =>
      cases idle : world.scripts task with
      | done value =>
          simp only [Interleaved.step, idle, Option.map_eq_some_iff, Prod.exists] at taken
          rcases taken with ⟨memory, script, entered, rfl⟩
          have ready := going task
          rw [idle] at ready
          have kept := keeps.enter isAdmitted ready entered
          exact ⟨kept.1, going.settle keeps kept.1 kept.2⟩
      | raised error => simp [Interleaved.step, idle] at taken
      | call request resume => simp [Interleaved.step, idle] at taken
  | resume task choices =>
      cases waiting : world.scripts task with
      | done value => simp [Interleaved.step, waiting] at taken
      | raised error => simp [Interleaved.step, waiting] at taken
      | call request resume =>
          simp only [Interleaved.step, waiting, Option.map_eq_some_iff, Prod.exists] at taken
          rcases taken with ⟨reply, memory, served, rfl⟩
          have ready := going task
          rw [waiting] at ready
          have guaranteed := ready.1 _ _ _ _ (shares.relies_refl _ _) served
          exact ⟨guaranteed, going.settle keeps guaranteed
            (ready.2 _ _ ⟨_, _, shares.relies_refl _ _, served⟩)⟩

/-- Whatever the order of the steps, all the tasks can go on. -/
theorem going (keeps : shares.Keeps admitted post)
    (reachable : tasks.system.ReachableBy (Process.Entering admitted) world) :
    shares.Going post world := by
  apply reachable.invariant
  · exact keeps.initial
  · exact fun _ _ _ going isAdmitted taken => (going.step keeps isAdmitted taken).2

/-- Every step of a run guarantees to the other tasks what they rely on. -/
theorem guarantees {next : Process.World interface Error Task Memory}
    {action : Process.Action interface Error Task Entry} (keeps : shares.Keeps admitted post)
    (reachable : tasks.system.ReachableBy (Process.Entering admitted) world)
    (isAdmitted : Process.Entering admitted world action)
    (taken : tasks.step world action = some next) :
    shares.Guarantees (taskOf action) world.memory next.memory :=
  ((going keeps reachable).step keeps isAdmitted taken).1

/-- What the tasks may rely on to be preserved holds in every reachable world. -/
theorem invariant {property : Memory → Prop} (keeps : shares.Keeps admitted post)
    (reachable : tasks.system.ReachableBy (Process.Entering admitted) world)
    (initial : property tasks.initial)
    (preserved : ∀ task before after, shares.Guarantees task before after → property before →
      property after) : property world.memory := by
  apply reachable.invariant_of_reachable
  · exact initial
  · intro state action next reachable holds isAdmitted taken
    exact preserved _ _ _ (guarantees keeps reachable isAdmitted taken) holds

end Shares

end Interleaved

namespace Script

variable {interface : Interface} {Error Value State Other : Type} {effects : Effects interface Error State}
  {others : Effects interface Error Other} {relation : State → Other → Prop}

/-- What a script ensures of one kind of state carries over to another kind that simulates it. -/
theorem Ensures.transport {script : Script interface Error Value}
    {post : Except Error Value → State → Prop} {state : State} {other : Other}
    (ensures : script.Ensures effects post state) (related : relation state other)
    (needs : ∀ state other request, relation state other → effects.needs state request →
      others.needs other request)
    (does : ∀ state other request reply after, relation state other → effects.needs state request →
      others.does other request reply after →
        ∃ next, effects.does state request reply next ∧ relation next after) :
    script.Ensures others (fun result other => ∃ state, relation state other ∧ post result state)
      other := by
  induction script generalizing state other with
  | done value => exact ⟨state, related, ensures⟩
  | raised error => exact ⟨state, related, ensures⟩
  | call request resume ih =>
      refine ⟨needs _ _ _ related ensures.1, ?_⟩
      intro reply after happens
      rcases does _ _ _ _ _ related ensures.1 happens with ⟨next, happened, related⟩
      exact ih reply (ensures.2 reply next happened) related

end Script

end Longrun
