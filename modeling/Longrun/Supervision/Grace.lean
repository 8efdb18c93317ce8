import Longrun.Supervision.Signals

/-!
# The grace period

A supervisor that is asked to terminate gives its command the whole grace period: SIGKILL comes no
earlier, unless the command itself has ended and what is left of its group is swept.
-/

namespace Longrun.Supervision

open ProcessTable

variable {supervisor : Supervisor} {world after initial : World} {event : Event}

/-- The command had ended when the signal was sent. -/
def Sent.Late (sent : Sent) (command : Command) : Prop :=
  ∃ process ∈ sent.table.processes, process.birth = command.birth ∧ process.ended ≠ none

/-- The supervisor had been asked to terminate for the grace period. -/
def Sent.Due (sent : Sent) (supervisor : Supervisor) (requested : Option ℚ) : Prop :=
  ∃ since ∈ requested, since + supervisor.gracePeriodSec ≤ sent.time

/-- Every SIGKILL comes after the end of the command or after the grace period. -/
def KillsLate (supervisor : Supervisor) (world : World) : Prop :=
  ∀ sent ∈ world.sent, sent.sig = .sigkill →
    (∃ command ∈ world.command, sent.Late command) ∨ sent.Due supervisor world.terminationRequested

structure Timed (supervisor : Supervisor) (world : World) : Prop where
  requested : ∀ since ∈ world.terminationRequested, since ≤ world.now
  started : ∀ started ∈ world.terminationStartedAt,
    ∃ since ∈ world.terminationRequested, since ≤ started
  asked : world.pc = .startClock → world.terminationRequested ≠ none
  due : world.pc = .signal .sigkill → ∃ started ∈ world.terminationStartedAt,
    started + supervisor.gracePeriodSec ≤ world.now
  kills : KillsLate supervisor world

namespace Timed

theorem of_starts (starts : Starts supervisor world) : Timed supervisor world where
  requested := by simp [starts.terminationRequested]
  started := by simp [starts.terminationStartedAt]
  asked first := by simp [starts.pc] at first
  due kill := by simp [starts.pc] at kill
  kills := by simp [KillsLate, starts.sent]

/-- Time passes, the processes go on, and a request to terminate may arrive. -/
theorem around (timed : Timed supervisor world) {table : ProcessTable} {prelude : Prelude}
    {requested : Option ℚ} {now : ℚ} (later : world.now ≤ now)
    (kept : ∀ since ∈ world.terminationRequested, since ∈ requested)
    (before : ∀ since ∈ requested, since ≤ now) :
    Timed supervisor { world with table, prelude, terminationRequested := requested, now } where
  requested := before
  started started isStarted := by
    rcases timed.started started isStarted with ⟨since, isSince, le⟩
    exact ⟨since, kept since isSince, le⟩
  asked pc none := by
    rcases Option.ne_none_iff_exists'.mp (timed.asked pc) with ⟨since, isSince⟩
    have := kept since isSince
    change requested = Option.none at none
    simp [none] at this
  due pc := by
    rcases timed.due pc with ⟨started, isStarted, le⟩
    exact ⟨started, isStarted, le.trans later⟩
  kills sent mem kill := by
    rcases timed.kills sent mem kill with late | ⟨since, isSince, le⟩
    · exact .inl late
    · exact .inr ⟨since, kept since isSince, le⟩

/-- The request is remembered since it came first. -/
theorem request (timed : Timed supervisor world) : Timed supervisor world.request := by
  apply timed.around le_rfl
  · intro since isSince
    simp [Option.mem_def.mp isSince]
  · intro since isSince
    cases requested : world.terminationRequested with
    | none => simp_all
    | some first =>
        have := timed.requested first requested
        simp_all

/-- The supervisor gets to another place, where nothing is due. -/
theorem moves (timed : Timed supervisor world) {pc : Pc} {table : ProcessTable}
    (asked : pc = .startClock → world.terminationRequested ≠ none)
    (quiet : pc ≠ .signal .sigkill) :
    Timed supervisor { world with pc, table } :=
  { timed with asked, due := fun kill => (quiet kill).elim }

/-- A signal goes to the group of the command: one that is not due comes after its end. -/
theorem signals (timed : Timed supervisor world) {command : Command}
    (isCommand : world.command = some command) {sig : Signal} {pc : Pc}
    (asked : pc ≠ .startClock) (quiet : pc ≠ .signal .sigkill)
    (kills : sig = .sigkill → (∃ process ∈ world.table.processes, process.birth = command.birth ∧
      process.ended ≠ none) ∨ world.pc = .signal .sigkill) :
    Timed supervisor (world.signalCommandGroup command.pid sig pc) := by
  simp only [World.signalCommandGroup]
  split_ifs with empty foreign kill
  · exact timed.moves (fun same => (asked same).elim) quiet
  · exact timed.moves (by simp) (by simp)
  all_goals
    refine ⟨timed.requested, timed.started, fun same => (asked same).elim,
      fun same => (quiet same).elim, ?_⟩
    simp only [KillsLate, List.forall_mem_cons]
    refine ⟨fun isKill => ?_, timed.kills⟩
    rcases kills isKill with late | pc
    · exact .inl ⟨command, isCommand, late⟩
    · rcases timed.due pc with ⟨started, isStarted, le⟩
      rcases timed.started started isStarted with ⟨since, isSince, first⟩
      exact .inr ⟨since, isSince, (add_le_add_left first _).trans le⟩

/-- The supervisor goes on once it has forked. -/
theorem supervise (timed : Timed supervisor world) (inv : Inv supervisor world)
    (lives : supervisor.Lives world.table) {command : Command}
    (isCommand : world.command = some command)
    (taken : supervisor.supervise world command = some after) : Timed supervisor after := by
  simp only [Supervisor.supervise] at taken
  split at taken
  case h_1 pc =>
    split at taken
    · rw [Option.some.injEq] at taken
      subst taken
      simp only [Supervisor.unended]
      apply timed.moves
      all_goals split_ifs <;> simp
    · rw [Option.some.injEq] at taken
      subst taken
      exact timed.moves (by simp) (by simp)
  case h_2 pc =>
    rw [Option.some.injEq] at taken
    subst taken
    exact timed.signals isCommand (by simp) (by simp) (by simp)
  case h_3 pc =>
    rw [Option.some.injEq] at taken
    subst taken
    exact timed.moves (by simp) (by simp)
  case h_4 pc =>
    rw [Option.some.injEq] at taken
    subst taken
    apply timed.signals isCommand (by simp) (by simp)
    intro _
    rcases inv.holds (by rw [pc]; rfl) lives with ⟨other, isOther, leader, holds, ended⟩
    rw [isCommand, Option.mem_some_iff] at isOther
    subst isOther
    exact .inl ⟨leader, holds.mem, holds.birth, ended.ended (by rw [pc]; rfl)⟩
  case h_5 pc =>
    split at taken
    · split at taken
      · simp only [Option.map_eq_some_iff] at taken
        rcases taken with ⟨_, performed, rfl⟩
        rcases performs_cases performed with ⟨process, mem, acts, table, -, -, rfl⟩
        exact timed.moves (by simp) (by simp)
      · cases taken
    · rw [Option.some.injEq] at taken
      subst taken
      exact timed.moves (by simp) (by simp)
  case h_6 pc =>
    rw [Option.some.injEq] at taken
    subst taken
    apply timed.moves
    all_goals split_ifs <;> simp_all
  case h_7 pc =>
    rw [Option.some.injEq] at taken
    subst taken
    refine ⟨timed.requested, ?_, by simp, by simp, timed.kills⟩
    rcases Option.ne_none_iff_exists'.mp (timed.asked pc) with ⟨since, isSince⟩
    simp only [Option.mem_some_iff, forall_eq']
    exact ⟨since, isSince, timed.requested since isSince⟩
  case h_8 pc =>
    simp only [Option.map_eq_some_iff] at taken
    rcases taken with ⟨started, isStarted, rfl⟩
    refine ⟨timed.requested, timed.started, by simp, ?_, timed.kills⟩
    intro kill
    refine ⟨started, isStarted, ?_⟩
    simp only [Pc.signal.injEq] at kill
    split_ifs at kill with long
    linarith only [long]
  case h_9 sig pc =>
    rw [Option.some.injEq] at taken
    subst taken
    apply timed.signals isCommand (by simp) (by simp)
    rintro rfl
    exact .inr pc
  case h_10 pc =>
    rw [Option.some.injEq] at taken
    subst taken
    exact timed.moves (by simp) (by simp)
  case h_11 => cases taken

theorem advance (timed : Timed supervisor world) (inv : Inv supervisor world)
    (lives : supervisor.Lives world.table) (taken : supervisor.advance world = some after) :
    Timed supervisor after := by
  simp only [Supervisor.advance] at taken
  split at taken
  case h_1 pc =>
    simp only [Option.map_eq_some_iff] at taken
    rcases taken with ⟨_, performed, rfl⟩
    rcases performs_cases performed with ⟨process, mem, acts, table, -, -, rfl⟩
    exact timed.moves (by simp) (by simp)
  case h_2 pc =>
    simp only [Option.map_eq_some_iff] at taken
    rcases taken with ⟨process, -, rfl⟩
    apply timed.moves
    all_goals split_ifs <;> simp
  case h_3 pc =>
    rw [Option.some.injEq] at taken
    subst taken
    apply timed.moves
    all_goals split_ifs <;> simp
  case h_4 =>
    simp only [Option.bind_eq_some_iff] at taken
    rcases taken with ⟨command, isCommand, taken⟩
    exact timed.supervise inv lives isCommand taken

theorem step (timed : Timed supervisor world) (inv : Inv supervisor world)
    (taken : step supervisor world event = some after) : Timed supervisor after := by
  have same : ∀ {table prelude}, Timed supervisor { world with table, prelude } :=
    timed.around le_rfl (fun _ isSince => isSince) timed.requested
  cases event with
  | supervisor =>
      simp only [Supervision.step, Option.ite_none_right_eq_some] at taken
      exact timed.advance inv taken.1.lives taken.2
  | forked pid =>
      simp only [Supervision.step, Option.ite_none_right_eq_some, Option.map_eq_some_iff] at taken
      rcases taken with ⟨⟨pc, -⟩, later, performed, rfl⟩
      rcases performs_cases performed with ⟨process, mem, acts, table, -, -, rfl⟩
      refine ⟨timed.requested, timed.started, by simp, by simp, ?_⟩
      have unsent := (inv.unforked (by rw [pc]; rfl)).2
      simp [KillsLate, unsent]
  | selected closed =>
      simp only [Supervision.step, Option.ite_none_right_eq_some, Option.some.injEq] at taken
      rcases taken with ⟨-, rfl⟩
      split_ifs
      · exact timed.request.moves (by simp) (by simp)
      · exact timed.moves (by simp) (by simp)
  | command =>
      simp only [Supervision.step, Option.bind_eq_some_iff] at taken
      rcases taken with ⟨command, -, begun⟩
      simp only [Supervisor.begins] at begun
      split at begun
      case h_2 =>
        simp only [Option.map_eq_some_iff] at begun
        rcases begun with ⟨process, -, rfl⟩
        exact same
      case h_1 | h_3 =>
        simp only [Option.map_eq_some_iff] at begun
        rcases begun with ⟨_, performed, rfl⟩
        rcases performs_cases performed with ⟨process, mem, acts, table, -, -, rfl⟩
        exact same
      all_goals cases begun
  | call birth call =>
      simp only [Supervision.step, Option.ite_none_right_eq_some] at taken
      rcases performs_cases taken.2 with ⟨process, mem, acts, table, -, -, rfl⟩
      exact same
  | finish birth adopter status =>
      simp only [Supervision.step, Option.bind_eq_some_iff, Option.map_eq_some_iff] at taken
      rcases taken with ⟨dead, -, adopter, -, table, -, rfl⟩
      have ended : Timed supervisor { world with table } := same
      simp only [Supervisor.notice]
      split_ifs
      · exact ended.request
      · exact ended
  | request =>
      simp only [Supervision.step, Option.some.injEq] at taken
      subst taken
      exact timed.request
  | tick now =>
      simp only [Supervision.step, Option.ite_none_right_eq_some, Option.some.injEq] at taken
      rcases taken with ⟨later, rfl⟩
      exact timed.around later (fun _ isSince => isSince)
        (fun since isSince => (timed.requested since isSince).trans later)

end Timed

/-- No SIGKILL cuts the grace period short: it is sent after the command has ended, or when the
supervisor has been asked to terminate for the whole period. -/
theorem kills_late (starts : Starts supervisor initial)
    (reachable : (supervision supervisor initial).Reachable world) :
    KillsLate supervisor world := by
  have timed : Timed supervisor world := by
    apply reachable.invariant_of_reachable (Timed.of_starts starts)
    intro before event after isReachable timed _ taken
    exact timed.step (Inv.of_reachable starts isReachable) taken
  exact timed.kills

theorem kills_late_sample : ∃ world,
    (supervision sampleSupervisor sampleWorld).Reachable world ∧
      (world.sent.any fun sent => sent.sig = .sigkill) = true ∧
      KillsLate sampleSupervisor world := by
  have ran : ((supervision sampleSupervisor sampleWorld).run sampleWorld sampleEvents).any
      (fun world => world.sent.any fun sent => sent.sig = .sigkill) = true := by decide +kernel
  rcases System.exists_reachable_of_run ran with ⟨world, reachable, killed⟩
  exact ⟨world, reachable, killed, kills_late sampleStarts reachable⟩

end Longrun.Supervision
