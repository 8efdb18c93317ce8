import Longrun.Library.Script
import Longrun.Library.Transition

/-!
# Cooperative tasks

Tasks of one event loop run scripts over a shared memory. A task keeps the loop until it makes a call
that has to wait; then any task that can go on may be next. `Conduct` is rely-guarantee reasoning for
such tasks: every change that a task makes is one that it guarantees, while a task waits it relies on
what the others guarantee, and it waits only where it may rest.
-/

namespace Longrun

/-- What a call does at once: it is replied to, or its caller waits. -/
inductive Performed (Reply Memory : Type) where
  | replies (reply : Reply) (memory : Memory)
  | waits (memory : Memory)

/-- The memory after the call. -/
def Performed.memory {Reply Memory : Type} : Performed Reply Memory → Memory
  | .replies _ memory => memory
  | .waits memory => memory

/-- Tasks over a shared memory. A task is entered when it is idle; a reply that is not possible in a
memory has no next one. -/
structure Process (interface : Interface) (Error Task Entry Memory : Type) where
  initial : Memory
  enter : Task → Memory → Entry → Option (Memory × Script interface Error Unit)
  perform : Task → Memory → (request : interface.Call) →
    Performed (Except Error (interface.Answer request)) Memory
  answer : Task → Memory → (request : interface.Call) →
    Except Error (interface.Answer request) → Option Memory

namespace Process

variable {interface : Interface} {Error Task Entry Memory : Type}

/-- The memory and where every task is. -/
structure World (interface : Interface) (Error Task Memory : Type) where
  memory : Memory
  scripts : Task → Script interface Error Unit

/-- A task is entered, or the call that it waits at is replied to. -/
inductive Action (interface : Interface) (Error Task Entry : Type) where
  | enter (task : Task) (entry : Entry)
  | resume (task : Task) (replies : ∀ request : interface.Call, Except Error (interface.Answer request))

/-- Runs a task up to the next call at which it waits, or to its end. -/
def advance (process : Process interface Error Task Entry Memory) (task : Task) :
    Script interface Error Unit → Memory → Memory × Script interface Error Unit
  | .done value, memory => (memory, .done value)
  | .raised error, memory => (memory, .raised error)
  | .call request resume, memory =>
      match process.perform task memory request with
      | .replies reply after => process.advance task (resume reply) after
      | .waits after => (after, .call request resume)

/-- The world in which a task has stopped. -/
def World.settle [DecidableEq Task] (world : World interface Error Task Memory) (task : Task)
    (stopped : Memory × Script interface Error Unit) : World interface Error Task Memory where
  memory := stopped.1
  scripts := Function.update world.scripts task stopped.2

def step [DecidableEq Task] (process : Process interface Error Task Entry Memory)
    (world : World interface Error Task Memory) :
    Action interface Error Task Entry → Option (World interface Error Task Memory)
  | .enter task entry =>
      match world.scripts task with
      | .done _ =>
          (process.enter task world.memory entry).map fun (memory, script) =>
            world.settle task (process.advance task script memory)
      | _ => none
  | .resume task replies =>
      match world.scripts task with
      | .call request resume =>
          (process.answer task world.memory request (replies request)).map fun memory =>
            world.settle task (process.advance task (resume (replies request)) memory)
      | _ => none

/-- The system of the tasks, all of them idle at first. -/
def system [DecidableEq Task] (process : Process interface Error Task Entry Memory) :
    System (World interface Error Task Memory) (Action interface Error Task Entry) where
  initial := ⟨process.initial, fun _ => .done ()⟩
  step := process.step

/-- The steps in which tasks are entered under a condition only. -/
def Entering (admitted : Task → Memory → Entry → Prop) (world : World interface Error Task Memory) :
    Action interface Error Task Entry → Prop
  | .enter task entry => admitted task world.memory entry
  | .resume _ _ => True

/-- The first step of a run. -/
theorem reachableBy_enter [DecidableEq Task] {process : Process interface Error Task Entry Memory}
    {admitted : Task → Memory → Entry → Prop} {task : Task} {entry : Entry}
    {world : World interface Error Task Memory} (isAdmitted : admitted task process.initial entry)
    (taken : process.system.step process.system.initial (.enter task entry) = some world) :
    process.system.ReachableBy (Entering admitted) world := by
  have entering : Entering admitted process.system.initial
      (.enter task entry : Action interface Error Task Entry) := isAdmitted
  exact .single entering taken

/-- How the tasks treat the memory. -/
structure Conduct (process : Process interface Error Task Entry Memory) where
  guarantees : Task → Memory → Memory → Prop
  relies : Task → Memory → Memory → Prop
  relies_refl : ∀ task memory, relies task memory memory
  relies_trans : ∀ {task first middle last}, relies task first middle → relies task middle last →
    relies task first last
  others : ∀ {task other before after}, other ≠ task → guarantees other before after →
    relies task before after
  rests : Task → Memory → Prop
  rests_later : ∀ {task memory later}, rests task memory → relies task memory later →
    rests task later

namespace Conduct

variable {process : Process interface Error Task Entry Memory} (conduct : process.Conduct)

/-- What the calls of a task do while the others behave. -/
def effects (task : Task) : Script.Effects interface Error Memory where
  needs memory request :=
    match process.perform task memory request with
    | .replies _ after => conduct.guarantees task memory after
    | .waits after =>
        (conduct.guarantees task memory after ∧ conduct.rests task after) ∧
          ∀ later reply last, conduct.relies task after later →
            process.answer task later request reply = some last → conduct.guarantees task later last
  does memory request reply after :=
    match process.perform task memory request with
    | .replies given changed => reply = given ∧ after = changed
    | .waits waiting =>
        ∃ later, conduct.relies task waiting later ∧
          process.answer task later request reply = some after

/-- Where a task is, it can go on whatever the others do. -/
def Suspended (post : Except Error Unit → Memory → Prop) (task : Task) :
    Script interface Error Unit → Memory → Prop
  | .done value, memory => ∀ later, conduct.relies task memory later → post (.ok value) later
  | .raised error, memory => ∀ later, conduct.relies task memory later → post (.error error) later
  | .call request resume, memory =>
      conduct.rests task memory ∧
        ∀ later reply last, conduct.relies task memory later →
          process.answer task later request reply = some last →
            conduct.guarantees task later last ∧
              (resume reply).Ensures (conduct.effects task) post last

variable {conduct} {post : Except Error Unit → Memory → Prop} {task : Task}
  {script : Script interface Error Unit} {memory : Memory}

theorem Suspended.later {later : Memory} (suspended : conduct.Suspended post task script memory)
    (relied : conduct.relies task memory later) : conduct.Suspended post task script later := by
  cases script with
  | done value => exact fun last further => suspended last (conduct.relies_trans relied further)
  | raised error => exact fun last further => suspended last (conduct.relies_trans relied further)
  | call request resume =>
      refine ⟨conduct.rests_later suspended.1 relied, ?_⟩
      exact fun last reply after further =>
        suspended.2 last reply after (conduct.relies_trans relied further)

/-- Changes that a task makes in a row. -/
abbrev Changes (conduct : process.Conduct) (task : Task) : Memory → Memory → Prop :=
  Relation.ReflTransGen (conduct.guarantees task)

theorem relies_of_changes {other : Task} {after : Memory} (different : other ≠ task)
    (changes : conduct.Changes other memory after) : conduct.relies task memory after := by
  induction changes with
  | refl => exact conduct.relies_refl _ _
  | tail _ change ih => exact conduct.relies_trans ih (conduct.others different change)

/-- A task that runs makes changes that it guarantees, and stops where it can go on. -/
theorem advance_ensures
    (stable : ∀ (result : Except Error Unit) (memory later : Memory), post result memory →
      conduct.relies task memory later → post result later)
    (ensures : script.Ensures (conduct.effects task) post memory) :
    conduct.Changes task memory (process.advance task script memory).1 ∧
      conduct.Suspended post task (process.advance task script memory).2
        (process.advance task script memory).1 := by
  induction script generalizing memory with
  | done value => exact ⟨.refl, fun later relied => stable _ _ _ ensures relied⟩
  | raised error => exact ⟨.refl, fun later relied => stable _ _ _ ensures relied⟩
  | call request resume ih =>
      rcases ensures with ⟨needs, next⟩
      simp only [effects] at needs next
      rw [advance]
      cases performed : process.perform task memory request with
      | replies reply after =>
          simp only [performed] at needs next ⊢
          have rest := ih reply (next reply after ⟨rfl, rfl⟩)
          exact ⟨(Relation.ReflTransGen.single needs).trans rest.1, rest.2⟩
      | waits after =>
          simp only [performed] at needs next ⊢
          refine ⟨.single needs.1.1, needs.1.2, ?_⟩
          intro later reply last relied answered
          exact ⟨needs.2 later reply last relied answered,
            next reply last ⟨later, relied, answered⟩⟩

/-- A call whose changes are guaranteed, with what the others may have changed meanwhile. -/
theorem needs_of_guarantees {request : interface.Call}
    (first : conduct.guarantees task memory (process.perform task memory request).memory)
    (rests : conduct.rests task (process.perform task memory request).memory)
    (answers : ∀ later reply last,
      conduct.relies task (process.perform task memory request).memory later →
        process.answer task later request reply = some last → conduct.guarantees task later last) :
    (conduct.effects task).needs memory request := by
  simp only [effects]
  cases performed : process.perform task memory request with
  | replies reply after => simpa [performed, Performed.memory] using first
  | waits after =>
      simp only [performed, Performed.memory] at first rests answers
      exact ⟨⟨first, rests⟩, answers⟩

/-- What the others keep while a call waits holds after the call. -/
theorem holds_of_does {request : interface.Call} {reply : Except Error (interface.Answer request)}
    {after : Memory} {property : Memory → Prop}
    (first : property (process.perform task memory request).memory)
    (later : ∀ {middle last}, property middle → conduct.relies task middle last → property last)
    (answers : ∀ middle last, property middle →
      process.answer task middle request reply = some last → property last)
    (does : (conduct.effects task).does memory request reply after) : property after := by
  simp only [effects] at does
  cases performed : process.perform task memory request with
  | replies given changed =>
      simp only [performed] at first does
      rw [does.2]
      exact first
  | waits waiting =>
      simp only [performed] at first does
      rcases does with ⟨middle, relied, answered⟩
      exact answers middle after (later first relied) answered

/-- The rule for a call that is replied to at once. -/
theorem ensures_of_replies {request : interface.Call}
    {reply : Except Error (interface.Answer request)} {after : Memory}
    {post : Except Error (interface.Answer request) → Memory → Prop}
    (performed : process.perform task memory request = .replies reply after)
    (change : conduct.guarantees task memory after) (holds : post reply after) :
    (Script.perform request).Ensures (conduct.effects task) post memory := by
  apply Script.ensures_perform.mpr
  simp only [effects, performed]
  refine ⟨change, ?_⟩
  rintro _ _ ⟨rfl, rfl⟩
  exact holds

/-- The rule for a call that waits. -/
theorem ensures_of_waits {request : interface.Call} {after : Memory}
    {post : Except Error (interface.Answer request) → Memory → Prop}
    (performed : process.perform task memory request = .waits after)
    (change : conduct.guarantees task memory after) (rests : conduct.rests task after)
    (goesOn : ∀ later reply last, conduct.relies task after later →
      process.answer task later request reply = some last →
        conduct.guarantees task later last ∧ post reply last) :
    (Script.perform request).Ensures (conduct.effects task) post memory := by
  apply Script.ensures_perform.mpr
  simp only [effects, performed]
  refine ⟨⟨⟨change, rests⟩, ?_⟩, ?_⟩
  · exact fun later reply last relied answered => (goesOn later reply last relied answered).1
  · rintro reply last ⟨later, relied, answered⟩
    exact (goesOn later reply last relied answered).2

/-- Every task conducts itself when it is entered in an admitted way. -/
structure Keeps (conduct : process.Conduct) (admitted : Task → Memory → Entry → Prop)
    (post : Task → Except Error Unit → Memory → Prop) : Prop where
  stable : ∀ {task result memory later}, post task result memory →
    conduct.relies task memory later → post task result later
  rests : ∀ {task result memory}, post task result memory → conduct.rests task memory
  initial : ∀ task, post task (.ok ()) process.initial
  enter : ∀ {task memory entry after script}, admitted task memory entry →
    post task (.ok ()) memory → process.enter task memory entry = some (after, script) →
      conduct.guarantees task memory after ∧
        script.Ensures (conduct.effects task) (post task) after

/-- The tasks can go on, and the memory comes from changes that they guarantee. -/
structure Sound (conduct : process.Conduct) (post : Task → Except Error Unit → Memory → Prop)
    (world : World interface Error Task Memory) : Prop where
  suspended : ∀ task, conduct.Suspended (post task) task (world.scripts task) world.memory
  changes : Relation.ReflTransGen (fun before after => ∃ task, conduct.guarantees task before after)
    process.initial world.memory

variable [DecidableEq Task] {admitted : Task → Memory → Entry → Prop} {post : Task → Except Error Unit → Memory → Prop}
  {world : World interface Error Task Memory}

theorem Sound.settle {after : Memory} (sound : conduct.Sound post world)
    (keeps : conduct.Keeps admitted post) (first : conduct.guarantees task world.memory after)
    (ensures : script.Ensures (conduct.effects task) (post task) after) :
    conduct.Sound post (world.settle task (process.advance task script after)) := by
  have stable (result : Except Error Unit) (memory later : Memory)
      (holds : post task result memory) (relied : conduct.relies task memory later) :
      post task result later := keeps.stable holds relied
  have ran := advance_ensures stable ensures
  have changes : conduct.Changes task world.memory (process.advance task script after).1 :=
    (Relation.ReflTransGen.single first).trans ran.1
  constructor
  · intro other
    by_cases same : other = task
    · subst same
      simpa [World.settle] using ran.2
    · have relied := relies_of_changes (Ne.symm same) changes
      simpa [World.settle, same] using (sound.suspended other).later relied
  · exact sound.changes.trans (changes.lift id fun _ _ change => ⟨task, change⟩)

/-- Whatever the order of the steps, the tasks can go on and have changed the memory as they
guarantee. -/
theorem sound (keeps : conduct.Keeps admitted post)
    (reachable : process.system.ReachableBy (Entering admitted) world) :
    conduct.Sound post world := by
  apply reachable.invariant
  · refine ⟨fun task => ?_, .refl⟩
    exact fun later relied => keeps.stable (keeps.initial task) relied
  · intro state action next sound isAdmitted taken
    cases action with
    | enter task entry =>
        cases idle : state.scripts task with
        | done value =>
            simp only [system, step, idle, Option.map_eq_some_iff, Prod.exists] at taken
            rcases taken with ⟨memory, script, entered, rfl⟩
            have ready := sound.suspended task
            rw [idle] at ready
            have kept := keeps.enter isAdmitted (ready _ (conduct.relies_refl _ _)) entered
            exact sound.settle keeps kept.1 kept.2
        | raised error => simp [system, step, idle] at taken
        | call request resume => simp [system, step, idle] at taken
    | resume task replies =>
        cases waiting : state.scripts task with
        | done value => simp [system, step, waiting] at taken
        | raised error => simp [system, step, waiting] at taken
        | call request resume =>
            simp only [system, step, waiting, Option.map_eq_some_iff] at taken
            rcases taken with ⟨memory, answered, rfl⟩
            have ready := sound.suspended task
            rw [waiting] at ready
            have goesOn := ready.2 _ _ _ (conduct.relies_refl _ _) answered
            exact sound.settle keeps goesOn.1 goesOn.2

/-- In every reachable world every task may rest. -/
theorem resting (keeps : conduct.Keeps admitted post)
    (reachable : process.system.ReachableBy (Entering admitted) world) (task : Task) :
    conduct.rests task world.memory := by
  have suspended := (sound keeps reachable).suspended task
  cases script : world.scripts task with
  | done value =>
      rw [script] at suspended
      exact keeps.rests (suspended _ (conduct.relies_refl _ _))
  | raised error =>
      rw [script] at suspended
      exact keeps.rests (suspended _ (conduct.relies_refl _ _))
  | call request resume =>
      rw [script] at suspended
      exact suspended.1

/-- What every guaranteed change preserves holds in every reachable world. -/
theorem invariant {property : Memory → Prop} (keeps : conduct.Keeps admitted post)
    (reachable : process.system.ReachableBy (Entering admitted) world)
    (initial : property process.initial)
    (preserved : ∀ task before after, conduct.guarantees task before after → property before →
      property after) : property world.memory := by
  have holds (memory : Memory)
      (changes : Relation.ReflTransGen
        (fun before after => ∃ task, conduct.guarantees task before after) process.initial memory) :
      property memory := by
    induction changes with
    | refl => exact initial
    | tail _ change ih =>
        rcases change with ⟨task, change⟩
        exact preserved task _ _ change ih
  exact holds _ (sound keeps reachable).changes

end Conduct

end Process

end Longrun
