import Mathlib

/-!
# Labelled systems and their runs

A system takes one action at a time, and an action that is not enabled has no successor. `Steps`
are the runs whose every step meets a condition on the state before it and its action, so that a
property of all runs and one of the runs that avoid certain steps are stated alike.
-/

namespace Longrun

universe u v

/-- A system with one initial state; `none` means that the action is not enabled. -/
structure System (State : Type u) (Action : Type v) where
  initial : State
  step : State → Action → Option State

namespace System

variable {State : Type u} {Action : Type v} {system : System State Action}
  {allowed : State → Action → Prop}

/-- Runs whose every step is allowed. -/
inductive Steps (system : System State Action) (allowed : State → Action → Prop) :
    State → State → Prop where
  | refl (state : State) : Steps system allowed state state
  | tail {first middle last : State} (action : Action) :
      Steps system allowed first middle → allowed middle action →
        system.step middle action = some last → Steps system allowed first last

/-- The condition that excludes no step. -/
def anyStep : State → Action → Prop := fun _ _ => True

/-- The states that allowed runs reach from the initial state. -/
def ReachableBy (system : System State Action) (allowed : State → Action → Prop)
    (state : State) : Prop :=
  system.Steps allowed system.initial state

/-- The states that runs reach from the initial state. -/
abbrev Reachable (system : System State Action) (state : State) : Prop :=
  system.ReachableBy anyStep state

namespace Steps

theorem trans {first middle last : State} (before : system.Steps allowed first middle)
    (after : system.Steps allowed middle last) : system.Steps allowed first last := by
  induction after with
  | refl => exact before
  | tail action _ isAllowed taken ih => exact ih.tail action isAllowed taken

theorem single {first last : State} {action : Action} (isAllowed : allowed first action)
    (taken : system.step first action = some last) : system.Steps allowed first last :=
  (refl first).tail action isAllowed taken

theorem mono {weaker : State → Action → Prop} {first last : State}
    (steps : system.Steps allowed first last)
    (weaken : ∀ state action, allowed state action → weaker state action) :
    system.Steps weaker first last := by
  induction steps with
  | refl => exact .refl _
  | tail action _ isAllowed taken ih => exact ih.tail action (weaken _ _ isAllowed) taken

/-- A property that every allowed step preserves holds at the end of a run from where it holds. -/
theorem preserves {property : State → Prop} {first last : State}
    (steps : system.Steps allowed first last) (holds : property first)
    (step : ∀ state action next, property state → allowed state action →
      system.step state action = some next → property next) : property last := by
  induction steps with
  | refl => exact holds
  | tail action _ isAllowed taken ih => exact step _ _ _ ih isAllowed taken

end Steps

namespace ReachableBy

theorem steps {first last : State} (reachable : system.ReachableBy allowed first)
    (steps : system.Steps allowed first last) : system.ReachableBy allowed last :=
  Steps.trans reachable steps

theorem next {state last : State} {action : Action} (reachable : system.ReachableBy allowed state)
    (isAllowed : allowed state action) (taken : system.step state action = some last) :
    system.ReachableBy allowed last :=
  Steps.tail action reachable isAllowed taken

theorem any {state : State} (reachable : system.ReachableBy allowed state) :
    system.Reachable state :=
  Steps.mono reachable fun _ _ _ => trivial

/-- The invariant rule. -/
theorem invariant {property : State → Prop} {state : State}
    (reachable : system.ReachableBy allowed state) (initial : property system.initial)
    (step : ∀ state action next, property state → allowed state action →
      system.step state action = some next → property next) : property state :=
  Steps.preserves reachable initial step

/-- The invariant rule where the step may use that the state before it is reachable. -/
theorem invariant_of_reachable {property : State → Prop} {state : State}
    (reachable : system.ReachableBy allowed state) (initial : property system.initial)
    (step : ∀ state action next, system.ReachableBy allowed state → property state →
      allowed state action → system.step state action = some next → property next) :
    property state := by
  let both (state : State) : Prop := system.ReachableBy allowed state ∧ property state
  have holds : both state :=
    reachable.invariant ⟨.refl _, initial⟩ fun state action next holds isAllowed taken =>
      ⟨holds.1.next isAllowed taken, step state action next holds.1 holds.2 isAllowed taken⟩
  exact holds.2

end ReachableBy

/-! ### Executing a list of actions -/

/-- Takes the actions in their order, as long as each is enabled and passes a check. -/
def runBy (system : System State Action) (check : State → Action → Bool) :
    State → List Action → Option State
  | state, [] => some state
  | state, action :: actions =>
      if check state action then (system.step state action).bind (runBy system check · actions)
      else none

/-- Takes the actions in their order, as long as each is enabled. -/
def run (system : System State Action) (first : State) (actions : List Action) : Option State :=
  system.runBy (fun _ _ => true) first actions

@[simp]
theorem run_nil (system : System State Action) (state : State) :
    system.run state [] = some state := rfl

@[simp]
theorem run_cons (system : System State Action) (state : State) (action : Action)
    (actions : List Action) :
    system.run state (action :: actions) = (system.step state action).bind (system.run · actions) := by
  simp [run, runBy]

theorem run_append (system : System State Action) (state : State) (first rest : List Action) :
    system.run state (first ++ rest) = (system.run state first).bind (system.run · rest) := by
  induction first generalizing state with
  | nil => rfl
  | cons action first ih =>
      rw [List.cons_append, run_cons, run_cons, Option.bind_assoc]
      exact congrArg _ (funext ih)

theorem steps_of_runBy {check : State → Action → Bool} {first last : State}
    {actions : List Action} (sound : ∀ state action, check state action = true →
      allowed state action) (ran : system.runBy check first actions = some last) :
    system.Steps allowed first last := by
  induction actions generalizing first with
  | nil =>
      obtain rfl : first = last := by simpa [runBy] using ran
      exact .refl _
  | cons action actions ih =>
      rw [runBy] at ran
      split at ran
      · rename_i passes
        rcases Option.bind_eq_some_iff.mp ran with ⟨middle, taken, rest⟩
        have first : system.Steps allowed first middle := .single (sound _ _ passes) taken
        exact first.trans (ih rest)
      · contradiction

theorem steps_of_run {first last : State} {actions : List Action}
    (ran : system.run first actions = some last) : system.Steps anyStep first last :=
  steps_of_runBy (fun _ _ _ => trivial) ran

/-- A list of allowed actions. -/
theorem steps_of_run_of_mem {first last : State} {actions : List Action}
    (isAllowed : ∀ state, ∀ action ∈ actions, allowed state action)
    (ran : system.run first actions = some last) : system.Steps allowed first last := by
  induction actions generalizing first with
  | nil =>
      rcases Option.some.inj ran with rfl
      exact .refl _
  | cons action actions ih =>
      rw [run_cons] at ran
      rcases Option.bind_eq_some_iff.mp ran with ⟨middle, taken, rest⟩
      have first : system.Steps allowed first middle :=
        .single (isAllowed _ action List.mem_cons_self) taken
      exact first.trans (ih (fun state other mem => isAllowed state other
        (List.mem_cons_of_mem _ mem)) rest)

/-- A list of actions leads to a reachable state. -/
theorem exists_reachable_of_run {actions : List Action} {property : State → Bool}
    (holds : (system.run system.initial actions).any property = true) :
    ∃ state, system.Reachable state ∧ property state = true := by
  rcases (Option.any_eq_true _ _).mp holds with ⟨state, ran, holds⟩
  exact ⟨state, steps_of_run ran, holds⟩

end System

end Longrun
