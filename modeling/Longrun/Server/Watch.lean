import Longrun.Library.Transition
import Longrun.Server.Output

/-!
# Waiting for a job

`_wait_with_limits` looks at the return code, the clock and the last output, lets the client know
that the job is still running, and sleeps until it has to look again. Meanwhile time passes, output
arrives and the process may end. The event loop learns of the end some time later, and only then has
the process a return code; a loop that was kept busy may find the time limit passed first.
-/

namespace Longrun.Server

/-- What the loop is given. -/
structure Limits where
  startedMonotonic : ℚ
  timeoutSec : Int
  noOutputTimeoutSec : Int
  /-- `progress_reporter is not None` -/
  reportsProgress : Bool
  heartbeatInitialSec : Nat
  heartbeatIntervalSec : Nat

/-- Where the loop is. -/
inductive Watching where
  /-- Before its first look. -/
  | looking
  /-- A heartbeat is to be reported until a time. -/
  | reporting (due : ℚ)
  | sleeping (due : ℚ)
  | returned (reason : Option StopReason) (time : ℚ)
  | cancelled
  deriving DecidableEq

structure Watch where
  now : ℚ
  /-- When the process has ended. -/
  endedAt : Option ℚ
  /-- When `proc.returncode` has been set. -/
  reapedAt : Option ℚ
  lastOutputAt : ℚ
  /-- When output has arrived, newest first. -/
  outputs : List ℚ
  nextHeartbeat : Option ℚ
  heartbeatReportsCompleted : Nat
  heartbeatError : Option String
  loop : Watching
  deriving DecidableEq

namespace Watch

/-- Until when the loop is to wait. -/
def due (watch : Watch) : Option ℚ :=
  match watch.loop with
  | .reporting due => some due
  | .sleeping due => some due
  | _ => none

/-- How far a wait may go beyond a limit. -/
def overrun (watch : Watch) : ℚ :=
  match watch.loop with
  | .reporting _ => 2
  | _ => 1 / 20

/-- How long a wait may take. -/
def longest (watch : Watch) : ℚ :=
  match watch.loop with
  | .reporting _ => 2
  | _ => 1

end Watch

namespace Limits

variable (limits : Limits)

def deadline : ℚ := limits.startedMonotonic + limits.timeoutSec

/-- The first `next_heartbeat`. -/
def firstHeartbeat : Option ℚ :=
  if limits.reportsProgress && 0 < limits.heartbeatInitialSec then
    some (limits.startedMonotonic + limits.heartbeatInitialSec)
  else none

/-- The first of the next heartbeats that is still to come. -/
def heartbeatAfter (heartbeat now : ℚ) : ℚ :=
  let next := heartbeat + limits.heartbeatIntervalSec
  if next ≤ now then
    next + limits.heartbeatIntervalSec * (⌊(now - next) / limits.heartbeatIntervalSec⌋ + 1)
  else next

/-- There has been no output for too long. -/
def isInactive (watch : Watch) : Bool :=
  0 < limits.noOutputTimeoutSec && limits.noOutputTimeoutSec ≤ watch.now - watch.lastOutputAt

/-- `next_deadline`. -/
def nextDeadline (watch : Watch) : ℚ :=
  let active :=
    if 0 < limits.noOutputTimeoutSec then
      min limits.deadline (watch.lastOutputAt + limits.noOutputTimeoutSec)
    else limits.deadline
  watch.nextHeartbeat.elim active (min active)

/-- Until when the loop sleeps. -/
def wakesAt (watch : Watch) : ℚ :=
  watch.now + max (1 / 20) (min 1 (limits.nextDeadline watch - watch.now))

/-- The loop from its head to the next await. -/
def look (watch : Watch) : Watch :=
  if watch.reapedAt.isSome then { watch with loop := .returned none watch.now }
  else if limits.deadline ≤ watch.now then
    { watch with loop := .returned (some .timedOut) watch.now }
  else if limits.isInactive watch then
    { watch with loop := .returned (some .inactiveTimeout) watch.now }
  else if watch.nextHeartbeat.any (· ≤ watch.now) then
    { watch with loop := .reporting (watch.now + 2) }
  else { watch with loop := .sleeping (limits.wakesAt watch) }

end Limits

inductive WatchAction where
  | tick (time : ℚ)
  | output
  | exit
  /-- The event loop learns that the process has ended. -/
  | reap
  /-- The loop begins, or its sleep is over. -/
  | look
  | reported
  /-- The reporter has raised, or has taken more than two seconds. -/
  | reportFails (exception : String)
  | cancel

namespace Limits

variable (limits : Limits)

def step (watch : Watch) : WatchAction → Option Watch
  | .tick time =>
      match watch.loop with
      | .looking => none
      | _ => if watch.now ≤ time then some { watch with now := time } else none
  | .output =>
      some { watch with lastOutputAt := watch.now, outputs := watch.now :: watch.outputs }
  | .exit =>
      if watch.endedAt.isSome then none else some { watch with endedAt := some watch.now }
  | .reap =>
      if watch.endedAt.isSome && watch.reapedAt.isNone then
        some { watch with reapedAt := some watch.now }
      else none
  | .look =>
      match watch.loop with
      | .looking => some (limits.look watch)
      | .sleeping due => if due ≤ watch.now then some (limits.look watch) else none
      | _ => none
  | .reported =>
      match watch.loop with
      | .reporting _ =>
          some (limits.look { watch with
            nextHeartbeat := watch.nextHeartbeat.map (limits.heartbeatAfter · watch.now)
            heartbeatReportsCompleted := watch.heartbeatReportsCompleted + 1 })
      | _ => none
  | .reportFails exception =>
      match watch.loop with
      | .reporting _ =>
          some (limits.look { watch with
            nextHeartbeat := none
            heartbeatError := some exception })
      | _ => none
  | .cancel =>
      match watch.loop with
      | .reporting _ => some { watch with loop := .cancelled }
      | .sleeping _ => some { watch with loop := .cancelled }
      | _ => none

/-- The loop among what happens meanwhile. -/
def watching (first : Watch) : System Watch WatchAction where
  initial := first
  step := limits.step

/-- Where the loop begins. -/
structure Begins (first : Watch) : Prop where
  looking : first.loop = .looking
  heartbeat : first.nextHeartbeat = limits.firstHeartbeat
  output : first.lastOutputAt ≤ first.now
  outputs : ∀ time ∈ first.outputs, time ≤ first.lastOutputAt
  ended : ∀ ended ∈ first.endedAt, ended ≤ first.now
  reaped : ∀ reaped ∈ first.reapedAt, reaped ≤ first.now ∧ ∃ ended ∈ first.endedAt, ended ≤ reaped

variable {limits} {watch after first : Watch} {late : ℚ}

/-- What a step can do: whatever ends a wait, the loop looks next. -/
theorem step_cases {action : WatchAction} (taken : limits.step watch action = some after) :
    (∃ time, action = .tick time ∧ watch.now ≤ time ∧ after = { watch with now := time }) ∨
      after = { watch with lastOutputAt := watch.now, outputs := watch.now :: watch.outputs } ∨
      (watch.endedAt = none ∧ after = { watch with endedAt := some watch.now }) ∨
      (watch.endedAt.isSome ∧ watch.reapedAt = none ∧
        after = { watch with reapedAt := some watch.now }) ∨
      (∃ nextHeartbeat heartbeatReportsCompleted heartbeatError, after = limits.look
        { watch with nextHeartbeat, heartbeatReportsCompleted, heartbeatError }) ∨
      after = { watch with loop := .cancelled } := by
  cases action with
  | tick time =>
      simp only [step] at taken
      split at taken
      · cases taken
      · simp only [Option.ite_none_right_eq_some, Option.some.injEq] at taken
        exact .inl ⟨time, rfl, taken.1, taken.2.symm⟩
  | output => exact .inr (.inl (Option.some.inj taken).symm)
  | exit =>
      simp only [step, Option.ite_none_left_eq_some, Option.some.injEq] at taken
      exact .inr (.inr (.inl ⟨by simpa using taken.1, taken.2.symm⟩))
  | reap =>
      simp only [step, Option.ite_none_right_eq_some, Bool.and_eq_true, Option.isNone_iff_eq_none,
        Option.some.injEq] at taken
      exact .inr (.inr (.inr (.inl ⟨taken.1.1, taken.1.2, taken.2.symm⟩)))
  | look =>
      simp only [step] at taken
      split at taken
      · exact .inr (.inr (.inr (.inr (.inl ⟨_, _, _, (Option.some.inj taken).symm⟩))))
      · simp only [Option.ite_none_right_eq_some, Option.some.injEq] at taken
        exact .inr (.inr (.inr (.inr (.inl ⟨_, _, _, taken.2.symm⟩))))
      · cases taken
  | reported | reportFails exception =>
      simp only [step] at taken
      split at taken
      · exact .inr (.inr (.inr (.inr (.inl ⟨_, _, _, (Option.some.inj taken).symm⟩))))
      · cases taken
  | cancel =>
      simp only [step] at taken
      split at taken
      · exact .inr (.inr (.inr (.inr (.inr (Option.some.inj taken).symm))))
      · exact .inr (.inr (.inr (.inr (.inr (Option.some.inj taken).symm))))
      · cases taken

/-! ### Reasons to stop -/

/-- The loop had the reason for which it has returned. -/
def Justified (limits : Limits) (watch : Watch) : Prop :=
  match watch.loop with
  | .returned none time =>
      ∃ reaped ∈ watch.reapedAt, reaped ≤ time ∧ ∃ ended ∈ watch.endedAt, ended ≤ reaped
  | .returned (some .timedOut) time =>
      limits.deadline ≤ time ∧ ∀ reaped ∈ watch.reapedAt, time ≤ reaped
  | .returned (some .inactiveTimeout) time =>
      time < limits.deadline ∧ 0 < limits.noOutputTimeoutSec ∧
        (∀ reaped ∈ watch.reapedAt, time ≤ reaped) ∧
        ∀ output ∈ watch.outputs, output + limits.noOutputTimeoutSec ≤ time ∨ time ≤ output
  | _ => True

structure Inv (limits : Limits) (watch : Watch) : Prop where
  output : watch.lastOutputAt ≤ watch.now
  outputs : ∀ time ∈ watch.outputs, time ≤ watch.lastOutputAt
  ended : ∀ ended ∈ watch.endedAt, ended ≤ watch.now
  reaped : ∀ reaped ∈ watch.reapedAt, reaped ≤ watch.now ∧ ∃ ended ∈ watch.endedAt, ended ≤ reaped
  before : ∀ reason time, watch.loop = .returned reason time → time ≤ watch.now
  justified : limits.Justified watch

theorem not_isInactive (active : limits.isInactive watch = false)
    (limited : 0 < limits.noOutputTimeoutSec) :
    watch.now < watch.lastOutputAt + limits.noOutputTimeoutSec := by
  simp only [isInactive, limited, decide_true, Bool.true_and, decide_eq_false_iff_not,
    not_le] at active
  linarith

namespace Inv

/-- The loop looks, and returns for a reason. -/
theorem look (inv : limits.Inv watch) : limits.Inv (limits.look watch) := by
  simp only [Limits.look]
  split_ifs with isReaped isDue isInactive reports
  · refine { inv with before := ?_, justified := ?_ }
    · rintro _ _ ⟨⟩
      exact le_rfl
    · rcases Option.isSome_iff_exists.mp isReaped with ⟨reaped, isSome⟩
      exact ⟨reaped, isSome, inv.reaped reaped isSome⟩
  · refine { inv with before := ?_, justified := ?_ }
    · rintro _ _ ⟨⟩
      exact le_rfl
    · refine ⟨isDue, fun reaped isSome => ?_⟩
      exact (isReaped (Option.isSome_iff_exists.mpr ⟨reaped, isSome⟩)).elim
  · refine { inv with before := ?_, justified := ?_ }
    · rintro _ _ ⟨⟩
      exact le_rfl
    · simp only [Limits.isInactive, Bool.and_eq_true, decide_eq_true_eq] at isInactive
      refine ⟨not_le.mp isDue, isInactive.1, fun reaped isSome => ?_, fun output mem => ?_⟩
      · exact (isReaped (Option.isSome_iff_exists.mpr ⟨reaped, isSome⟩)).elim
      · have := inv.outputs output mem
        left
        linarith [isInactive.2]
  · exact { inv with before := by rintro _ _ ⟨⟩, justified := trivial }
  · exact { inv with before := by rintro _ _ ⟨⟩, justified := trivial }

/-- Output comes after the loop has returned, or the loop goes on. -/
theorem arrives (inv : limits.Inv watch) :
    limits.Inv { watch with lastOutputAt := watch.now, outputs := watch.now :: watch.outputs } where
  output := le_rfl
  outputs := by
    simp only [List.forall_mem_cons, le_refl, true_and]
    exact fun time mem => (inv.outputs time mem).trans inv.output
  ended := inv.ended
  reaped := inv.reaped
  before := inv.before
  justified := by
    have justified := inv.justified
    simp only [Justified] at justified ⊢
    split at justified
    · exact justified
    · exact justified
    · rename_i returned
      simp only [List.forall_mem_cons]
      exact ⟨justified.1, justified.2.1, justified.2.2.1, .inr (inv.before _ _ returned),
        justified.2.2.2⟩
    · trivial

/-- The process ends, of which the loop knows nothing yet. -/
theorem exits (inv : limits.Inv watch) (runs : watch.endedAt = none) :
    limits.Inv { watch with endedAt := some watch.now } where
  output := inv.output
  outputs := inv.outputs
  ended := by simp
  reaped reaped isSome := by
    rcases inv.reaped reaped isSome with ⟨-, ended, isEnded, -⟩
    simp [runs] at isEnded
  before := inv.before
  justified := by
    have justified := inv.justified
    simp only [Justified, runs] at justified ⊢
    split at justified
    · simp at justified
    · exact justified
    · exact justified
    · trivial

/-- The return code is set after the loop has returned for another reason, or the loop goes on. -/
theorem reaps (inv : limits.Inv watch) (ended : watch.endedAt.isSome)
    (unknown : watch.reapedAt = none) : limits.Inv { watch with reapedAt := some watch.now } where
  output := inv.output
  outputs := inv.outputs
  ended := inv.ended
  reaped := by
    rcases Option.isSome_iff_exists.mp ended with ⟨time, isEnded⟩
    rintro _ ⟨⟩
    exact ⟨le_rfl, time, isEnded, inv.ended time isEnded⟩
  before := inv.before
  justified := by
    have justified := inv.justified
    simp only [Justified, unknown] at justified ⊢
    split at justified
    · simp at justified
    · rename_i returned
      simpa using ⟨justified.1, inv.before _ _ returned⟩
    · rename_i returned
      refine ⟨justified.1, justified.2.1, ?_, justified.2.2.2⟩
      simpa using inv.before _ _ returned
    · trivial

theorem step {action : WatchAction} (inv : limits.Inv watch)
    (taken : limits.step watch action = some after) : limits.Inv after := by
  rcases step_cases taken with
    ⟨time, -, later, rfl⟩ | rfl | ⟨runs, rfl⟩ | ⟨ended, unknown, rfl⟩ |
      ⟨next, completed, error, rfl⟩ | rfl
  · exact { inv with
      output := inv.output.trans later
      ended := fun ended isSome => (inv.ended ended isSome).trans later
      reaped := fun reaped isSome => (inv.reaped reaped isSome).imp_left later.trans'
      before := fun reason time returned => (inv.before reason time returned).trans later }
  · exact inv.arrives
  · exact inv.exits runs
  · exact inv.reaps ended unknown
  · exact look { inv with }
  · exact { inv with before := by rintro _ _ ⟨⟩, justified := trivial }

end Inv

def sampleLimits : Limits where
  startedMonotonic := 0
  timeoutSec := 60
  noOutputTimeoutSec := 0
  reportsProgress := false
  heartbeatInitialSec := 0
  heartbeatIntervalSec := 900

def sampleWatch : Watch where
  now := 0
  endedAt := none
  reapedAt := none
  lastOutputAt := 0
  outputs := []
  nextHeartbeat := none
  heartbeatReportsCompleted := 0
  heartbeatError := none
  loop := .looking

theorem begins_sampleWatch : sampleLimits.Begins sampleWatch where
  looking := rfl
  heartbeat := rfl
  output := le_rfl
  outputs := by simp [sampleWatch]
  ended := by simp [sampleWatch]
  reaped := by simp [sampleWatch]

/-- No wait lasts longer than it is to last by more than a time. -/
def Prompt (late : ℚ) (watch : Watch) (action : WatchAction) : Prop :=
  match action with
  | .tick time => ∀ due ∈ watch.due, time ≤ due + late
  | _ => True

theorem nextDeadline_le (limits : Limits) (watch : Watch) :
    limits.nextDeadline watch ≤ limits.deadline := by
  simp only [nextDeadline]
  cases watch.nextHeartbeat <;> split_ifs <;> simp

theorem nextDeadline_le_active (limited : 0 < limits.noOutputTimeoutSec) :
    limits.nextDeadline watch ≤ watch.lastOutputAt + limits.noOutputTimeoutSec := by
  simp only [nextDeadline, if_pos limited]
  cases watch.nextHeartbeat <;> simp

/-- A sleep ends soon after a limit that is still to come, if not before it. -/
theorem wakesAt_le {limit : ℚ} (early : watch.now < limit)
    (next : limits.nextDeadline watch ≤ limit) : limits.wakesAt watch ≤ limit + 1 / 20 := by
  have short : max (1 / 20) (min 1 (limits.nextDeadline watch - watch.now)) ≤
      limit + 1 / 20 - watch.now := by
    apply max_le
    · linarith
    · exact (min_le_right _ _).trans (by linarith)
  simp only [wakesAt]
  linarith

theorem wakesAt_soon (limits : Limits) (watch : Watch) :
    watch.now ≤ limits.wakesAt watch ∧ limits.wakesAt watch ≤ watch.now + 1 := by
  have long : (1 / 20 : ℚ) ≤ max (1 / 20) (min 1 (limits.nextDeadline watch - watch.now)) :=
    le_max_left _ _
  have short : max (1 / 20) (min 1 (limits.nextDeadline watch - watch.now)) ≤ 1 :=
    max_le (by norm_num) (min_le_left _ _)
  simp only [wakesAt]
  constructor <;> linarith

/-- A wait is over in time. -/
structure Timely (limits : Limits) (late : ℚ) (watch : Watch) : Prop where
  output : watch.lastOutputAt ≤ watch.now
  waits : ∀ due ∈ watch.due, watch.now ≤ due + late
  soon : ∀ due ∈ watch.due, due ≤ watch.now + watch.longest
  deadline : ∀ due ∈ watch.due, due ≤ limits.deadline + watch.overrun
  active : ∀ due ∈ watch.due, 0 < limits.noOutputTimeoutSec →
    due ≤ watch.lastOutputAt + limits.noOutputTimeoutSec + watch.overrun
  reaped : ∀ due ∈ watch.due, ∀ reaped ∈ watch.reapedAt, due ≤ reaped + watch.longest

namespace Timely

/-- The loop does not wait. -/
theorem of_idle (output : watch.lastOutputAt ≤ watch.now) (idle : watch.due = none) :
    limits.Timely late watch where
  output := output
  waits := by simp [idle]
  soon := by simp [idle]
  deadline := by simp [idle]
  active := by simp [idle]
  reaped := by simp [idle]

/-- The loop waits from now on. -/
theorem look (output : watch.lastOutputAt ≤ watch.now) (nonneg : 0 ≤ late) :
    limits.Timely late (limits.look watch) := by
  simp only [Limits.look]
  split_ifs with isReaped isDue isInactive reports
  · exact of_idle output rfl
  · exact of_idle output rfl
  · exact of_idle output rfl
  · have unknown : watch.reapedAt = none := by simpa using isReaped
    have early := not_le.mp isDue
    constructor <;>
      simp only [Watch.due, Watch.longest, Watch.overrun, Option.mem_some_iff, forall_eq', unknown]
    · exact output
    · linarith
    · exact le_rfl
    · linarith
    · intro limited
      linarith [not_isInactive (by simpa using isInactive) limited]
    · simp
  · have unknown : watch.reapedAt = none := by simpa using isReaped
    have early := not_le.mp isDue
    have soon := wakesAt_soon limits watch
    constructor <;>
      simp only [Watch.due, Watch.longest, Watch.overrun, Option.mem_some_iff, forall_eq', unknown]
    · exact output
    · linarith
    · exact soon.2
    · exact wakesAt_le early (nextDeadline_le limits watch)
    · intro limited
      exact wakesAt_le (not_isInactive (by simpa using isInactive) limited)
        (nextDeadline_le_active limited)
    · simp

theorem step {action : WatchAction} (timely : limits.Timely late watch) (nonneg : 0 ≤ late)
    (prompt : Prompt late watch action) (taken : limits.step watch action = some after) :
    limits.Timely late after := by
  rcases step_cases taken with
    ⟨time, rfl, later, rfl⟩ | rfl | ⟨-, rfl⟩ | ⟨-, -, rfl⟩ | ⟨next, completed, error, rfl⟩ | rfl
  · exact { timely with
      output := timely.output.trans later
      waits := prompt
      soon := fun due isDue => (timely.soon due isDue).trans (add_le_add later le_rfl) }
  · refine { timely with output := le_rfl, active := fun due isDue limited => ?_ }
    have := timely.active due isDue limited
    have := timely.output
    change due ≤ watch.now + limits.noOutputTimeoutSec + watch.overrun
    linarith
  · exact { timely with }
  · refine { timely with reaped := ?_ }
    rintro due isDue _ ⟨⟩
    exact timely.soon due isDue
  · exact look timely.output nonneg
  · exact of_idle timely.output rfl

end Timely

/-- In every run in which no wait ends too late by more than a time, the loop waits beyond the time
limit and a period without output at most by that time and what a report or a short sleep takes, and
beyond the moment at which the return code is set at most by that time and one wait. -/
theorem stopped_promptly (begins : limits.Begins first) (nonneg : 0 ≤ late)
    (reachable : (limits.watching first).ReachableBy (Prompt late) watch)
    (waits : watch.due.isSome = true) :
    watch.now ≤ limits.deadline + watch.overrun + late ∧
      (0 < limits.noOutputTimeoutSec →
        watch.now ≤ watch.lastOutputAt + limits.noOutputTimeoutSec + watch.overrun + late) ∧
      ∀ reaped ∈ watch.reapedAt, watch.now ≤ reaped + watch.longest + late := by
  have timely : limits.Timely late watch := by
    have idle : first.due = none := by simp only [Watch.due, begins.looking]
    apply reachable.invariant (Timely.of_idle begins.output idle)
    exact fun _ _ _ timely prompt taken => Timely.step timely nonneg prompt taken
  rcases Option.isSome_iff_exists.mp waits with ⟨time, isDue⟩
  have now := timely.waits time isDue
  refine ⟨?_, fun limited => ?_, fun reaped isReaped => ?_⟩
  · linarith [timely.deadline time isDue]
  · linarith [timely.active time isDue limited]
  · linarith [timely.reaped time isDue reaped isReaped]

theorem stopped_promptly_sample : ∃ watch,
    (sampleLimits.watching sampleWatch).ReachableBy (Prompt 0) watch ∧ watch.now = 1 / 2 ∧
      watch.now ≤ sampleLimits.deadline + watch.overrun + 0 ∧
      (0 < sampleLimits.noOutputTimeoutSec →
        watch.now ≤ watch.lastOutputAt + sampleLimits.noOutputTimeoutSec + watch.overrun + 0) ∧
      ∀ reaped ∈ watch.reapedAt, watch.now ≤ reaped + watch.longest + 0 := by
  have slept : (sampleLimits.look sampleWatch).due = some 1 := by decide +kernel
  have began : (sampleLimits.watching sampleWatch).ReachableBy (Prompt 0)
      (sampleLimits.look sampleWatch) := (System.Steps.refl sampleWatch).tail .look trivial rfl
  have prompt : Prompt 0 (sampleLimits.look sampleWatch) (.tick (1 / 2)) := by
    intro due isDue
    rw [slept, Option.mem_some_iff] at isDue
    rw [← isDue]
    norm_num
  have taken : sampleLimits.step (sampleLimits.look sampleWatch) (.tick (1 / 2)) =
      some { sampleLimits.look sampleWatch with now := 1 / 2 } := by decide +kernel
  have reachable := began.next prompt taken
  refine ⟨_, reachable, rfl, stopped_promptly begins_sampleWatch le_rfl reachable ?_⟩
  exact Option.isSome_iff_exists.mpr ⟨1, slept⟩

end Limits

end Longrun.Server
