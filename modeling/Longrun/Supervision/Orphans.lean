import Longrun.Supervision.Signals

/-!
# Supervisors without a parent

A supervisor asks for a signal at the end of its parent and looks for its parent afterwards. The
parent may end at any moment, before or after the request, and its identifier may be used again. The
supervisor of a job that is started with SIGTERM blocked never notices.
-/

namespace Longrun.Supervision

open ProcessTable

variable {supervisor : Supervisor} {world after initial : World} {event : Event}

/-- The supervisor has found its parent. -/
def Pc.parentSeen : Pc → Bool
  | .checkRequested => true
  | .fork => true
  | pc => pc.holds

/-- Nobody has done anything. -/
theorem unchanged (table : ProcessTable) : Evolves (fun _ => False) table table := .refl table

theorem killed (table : ProcessTable) (group : Nat) :
    Evolves (fun _ => False) table (table.killGroup group) := evolves_killGroup table group

structure Guarded (supervisor : Supervisor) (world : World) : Prop where
  /-- Nobody older than the supervisor has the identifier of its parent. -/
  known : ∀ process ∈ world.table.processes, process.birth < supervisor.birth →
    process.pid = supervisor.parentPid → process.birth = supervisor.parentBirth
  isChild : ∀ self ∈ world.table.processes, self.birth = supervisor.birth → self.line ≠ []
  armed : world.pc ≠ .enableDeathSignal → ∀ self ∈ world.table.processes,
    self.birth = supervisor.birth → self.deathSignal ≠ none
  noticed : world.pc ≠ .enableDeathSignal → ∀ self ∈ world.table.processes,
    self.birth = supervisor.birth → self.warned = true → world.terminationRequested ≠ none
  seen : world.pc.parentSeen = true → ∀ self ∈ world.table.processes,
    self.birth = supervisor.birth → self.warned = true ∨
      self.deathSignal = some supervisor.parentBirth

namespace Guarded

theorem of_starts (starts : Starts supervisor world) : Guarded supervisor world where
  known := by
    rcases starts.parent with ⟨parent, mem, isParent, samePid⟩
    intro process memProcess _ same
    rw [world.table.wellFormed.eq_of_pid memProcess mem (same.trans samePid.symm), isParent]
  isChild := by
    rcases starts.self with ⟨self, mem, isSelf, -, -, isChild⟩
    intro process memProcess same
    rw [world.table.wellFormed.eq_of_birth memProcess mem (same.trans isSelf.symm)]
    exact isChild
  armed first := (first starts.pc).elim
  noticed first := (first starts.pc).elim
  seen seen := by simp [starts.pc, Pc.parentSeen, Pc.holds] at seen

/-- What was older than the supervisor stays what it was. -/
theorem known_evolves {may : UnixProcess → Prop} {table : ProcessTable}
    (guarded : Guarded supervisor world) (inv : Inv supervisor world)
    (evolves : Evolves may world.table table) :
    ∀ process ∈ table.processes, process.birth < supervisor.birth →
      process.pid = supervisor.parentPid → process.birth = supervisor.parentBirth := by
  intro process mem older same
  rcases evolves.origin process mem with ⟨before, memBefore, change⟩ | ⟨caller, -, -, -, pid, -, rfl⟩
  · rw [change.birth]
    exact guarded.known before memBefore (change.birth ▸ older) (change.pid.symm.trans same)
  · have := inv.identified.born
    change world.table.births < supervisor.birth at older
    omega

/-- The supervisor was there before. -/
theorem self_before {may : UnixProcess → Prop} {table : ProcessTable} (inv : Inv supervisor world)
    (evolves : Evolves may world.table table) {self : UnixProcess} (mem : self ∈ table.processes)
    (isSelf : self.birth = supervisor.birth) :
    ∃ before ∈ world.table.processes, before.birth = supervisor.birth := by
  rcases evolves.origin self mem with ⟨before, memBefore, change⟩ | ⟨caller, -, -, -, pid, -, rfl⟩
  · exact ⟨before, memBefore, change.birth.symm.trans isSelf⟩
  · have := inv.identified.born
    change world.table.births = supervisor.birth at isSelf
    omega

/-- The supervisor is still to be sent its death signal, and knows if it has been. -/
theorem keeps {may : UnixProcess → Prop} {table : ProcessTable} {pc : Pc}
    (guarded : Guarded supervisor world) (inv : Inv supervisor world)
    (evolves : Evolves may world.table table)
    (keeps : KeepsSignal (· ≤ ·) world.table table supervisor.birth)
    (begun : world.pc ≠ .enableDeathSignal ∨ pc = .enableDeathSignal)
    (sees : pc.parentSeen = true → world.pc.parentSeen = true)
    {prelude : Prelude} {command : Option Command} {requested started : Option ℚ} {now : ℚ}
    {sent : List Sent}
    (noticed : pc ≠ .enableDeathSignal → ∀ self ∈ table.processes, self.birth = supervisor.birth →
      self.warned = true → requested ≠ none) :
    Guarded supervisor ⟨table, now, pc, prelude, command, requested, started, sent⟩ where
  known := guarded.known_evolves inv evolves
  isChild self mem isSelf := by
    rcases self_before inv evolves mem isSelf with ⟨before, memBefore, isBefore⟩
    rw [(keeps before memBefore isBefore self mem isSelf).1]
    exact guarded.isChild before memBefore isBefore
  armed first self mem isSelf := by
    rcases self_before inv evolves mem isSelf with ⟨before, memBefore, isBefore⟩
    rw [(keeps before memBefore isBefore self mem isSelf).2.1]
    exact guarded.armed (begun.resolve_right first) before memBefore isBefore
  noticed := noticed
  seen seen self mem isSelf := by
    rcases self_before inv evolves mem isSelf with ⟨before, memBefore, isBefore⟩
    have kept := keeps before memBefore isBefore self mem isSelf
    rw [kept.2.1]
    exact (guarded.seen (sees seen) before memBefore isBefore).imp_left (Bool.le_iff_imp.mp kept.2.2)

/-- A step that does not send the supervisor its death signal. -/
theorem quiet {may : UnixProcess → Prop} {table : ProcessTable} {pc : Pc}
    (guarded : Guarded supervisor world) (inv : Inv supervisor world)
    (evolves : Evolves may world.table table)
    (keeps : KeepsSignal (· = ·) world.table table supervisor.birth)
    (begun : world.pc ≠ .enableDeathSignal ∨ pc = .enableDeathSignal)
    (sees : pc.parentSeen = true → world.pc.parentSeen = true)
    {prelude : Prelude} {command : Option Command} {requested started : Option ℚ} {now : ℚ}
    {sent : List Sent} (asks : requested = none → world.terminationRequested = none) :
    Guarded supervisor ⟨table, now, pc, prelude, command, requested, started, sent⟩ := by
  have kept : KeepsSignal (· ≤ ·) world.table table supervisor.birth :=
    fun before mem isBefore later memLater isLater =>
      (keeps before mem isBefore later memLater isLater).imp_right (.imp_right Eq.le)
  apply guarded.keeps inv evolves kept begun sees
  intro first self mem isSelf warned unasked
  rcases self_before inv evolves mem isSelf with ⟨before, memBefore, isBefore⟩
  have same := (keeps before memBefore isBefore self mem isSelf).2.2
  exact guarded.noticed (begun.resolve_right first) before memBefore isBefore (same.trans warned)
    (asks unasked)

/-- The supervisor asks for the signal. -/
theorem arms (guarded : Guarded supervisor world) (inv : Inv supervisor world)
    (performed : world.performs supervisor.birth .armDeathSignal = some after) :
    Guarded supervisor { after with pc := .checkParent } := by
  rcases performs_cases performed with ⟨process, mem, acts, table, same, taken, rfl⟩
  have evolves : Evolves (fun _ => True) world.table table := evolves_perform trivial taken
  simp only [perform] at taken
  split at taken
  · simp only [Option.dite_none_right_eq_some, Option.some.injEq] at taken
    rcases taken with ⟨lives, rfl⟩
    refine ⟨guarded.known_evolves inv evolves, ?_, ?_, ?_, by simp [Pc.parentSeen, Pc.holds]⟩
    all_goals simp only [revise1, revise, List.forall_mem_map, same]
    · intro self memSelf
      split_ifs
      · exact guarded.isChild self memSelf
      · exact guarded.isChild self memSelf
    · intro _ self memSelf
      split_ifs with isSelf
      · simp [UnixProcess.arms]
      · exact fun isBirth => (isSelf isBirth).elim
    · intro _ self memSelf
      split_ifs with isSelf
      · simp [UnixProcess.arms]
      · exact fun isBirth => (isSelf isBirth).elim
  · cases taken

/-- The supervisor looks for its parent. -/
theorem checks (guarded : Guarded supervisor world) (pc : world.pc = .checkParent)
    {self : UnixProcess} (found : world.table.find supervisor.birth = some self) {next : Pc}
    (sees : next.parentSeen = true → self.parent = supervisor.parentPid) :
    Guarded supervisor { world with pc := next } where
  known := guarded.known
  isChild := guarded.isChild
  armed _ := guarded.armed (by simp [pc])
  noticed _ := guarded.noticed (by simp [pc])
  seen seen process mem isSelf := by
    have memSelf := List.mem_of_find?_eq_some found
    have selfBirth : self.birth = supervisor.birth := by simpa using List.find?_some found
    rw [world.table.wellFormed.eq_of_birth mem memSelf (isSelf.trans selfBirth.symm)]
    exact warned_or_parent memSelf (guarded.isChild self memSelf selfBirth)
      (guarded.armed (by simp [pc]) self memSelf selfBirth) (sees seen)
      (fun other mem' older => guarded.known other mem' (selfBirth ▸ older))

/-- A signal goes to the group of the command. -/
theorem signals (guarded : Guarded supervisor world) (inv : Inv supervisor world)
    (held : world.pc.holds = true) {group : Nat} {sig : Signal} {pc : Pc} :
    Guarded supervisor (world.signalCommandGroup group sig pc) := by
  have begun : world.pc ≠ .enableDeathSignal := fun same => by simp [same, Pc.holds] at held
  have sees : world.pc.parentSeen = true := by
    cases same : world.pc <;> simp_all [Pc.holds, Pc.parentSeen]
  simp only [World.signalCommandGroup]
  split_ifs
  · exact guarded.quiet inv (unchanged _) (.refl _ _) (.inl begun) (fun _ => sees) id
  · exact guarded.quiet inv (unchanged _) (.refl _ _) (.inl begun) (fun _ => sees) id
  · exact guarded.quiet inv (killed _ _) (keepsSignal_killGroup _ _ _)
      (.inl begun) (fun _ => sees) id
  · exact guarded.quiet inv (unchanged _) (.refl _ _) (.inl begun) (fun _ => sees) id

/-- The supervisor gets to another place without touching anything. -/
theorem moves (guarded : Guarded supervisor world) (inv : Inv supervisor world)
    (begun : world.pc ≠ .enableDeathSignal) {pc : Pc} {started : Option ℚ}
    (sees : pc.parentSeen = true → world.pc.parentSeen = true) :
    Guarded supervisor { world with pc, terminationStartedAt := started } :=
  guarded.quiet inv (unchanged _) (.refl _ _) (.inl begun) sees id

/-- The supervisor goes on once it has forked. -/
theorem supervise (guarded : Guarded supervisor world) (inv : Inv supervisor world)
    {command : Command} (taken : supervisor.supervise world command = some after) :
    Guarded supervisor after := by
  simp only [Supervisor.supervise] at taken
  split at taken
  case h_1 pc =>
    split at taken
    all_goals
      rw [Option.some.injEq] at taken
      subst taken
      exact guarded.moves inv (by simp [pc]) fun _ => by simp [pc, Pc.parentSeen, Pc.holds]
  case h_2 pc =>
    rw [Option.some.injEq] at taken
    subst taken
    exact guarded.signals inv (by rw [pc]; rfl)
  case h_4 pc =>
    rw [Option.some.injEq] at taken
    subst taken
    exact guarded.signals inv (by rw [pc]; rfl)
  case h_9 sig pc =>
    rw [Option.some.injEq] at taken
    subst taken
    exact guarded.signals inv (by rw [pc]; rfl)
  case h_5 pc =>
    split at taken
    · split at taken
      · simp only [Option.map_eq_some_iff] at taken
        rcases taken with ⟨_, performed, rfl⟩
        rcases performs_cases performed with ⟨process, mem, acts, table, -, taken, rfl⟩
        have evolves : Evolves (fun _ => True) world.table table := evolves_perform trivial taken
        exact guarded.quiet inv evolves (keepsSignal_perform (.inl (by simp)) taken)
          (.inl (by simp [pc])) (by simp [Pc.parentSeen, Pc.holds]) id
      · cases taken
    · rw [Option.some.injEq] at taken
      subst taken
      exact guarded.moves inv (by simp [pc]) fun _ => by simp [pc, Pc.parentSeen, Pc.holds]
  case h_8 pc =>
    simp only [Option.map_eq_some_iff] at taken
    rcases taken with ⟨started, -, rfl⟩
    exact guarded.moves inv (by simp [pc]) fun _ => by simp [pc, Pc.parentSeen, Pc.holds]
  case h_3 pc | h_6 pc | h_7 pc | h_10 pc =>
    rw [Option.some.injEq] at taken
    subst taken
    exact guarded.moves inv (by simp [pc]) fun _ => by simp [pc, Pc.parentSeen, Pc.holds]
  case h_11 => cases taken

theorem advance (guarded : Guarded supervisor world) (inv : Inv supervisor world)
    (taken : supervisor.advance world = some after) : Guarded supervisor after := by
  simp only [Supervisor.advance] at taken
  split at taken
  case h_1 pc =>
    simp only [Option.map_eq_some_iff] at taken
    rcases taken with ⟨_, performed, rfl⟩
    exact guarded.arms inv performed
  case h_2 pc =>
    simp only [Option.map_eq_some_iff] at taken
    rcases taken with ⟨self, found, rfl⟩
    apply guarded.checks pc found
    split_ifs with differs
    · simp [Pc.parentSeen, Pc.holds]
    · exact fun _ => not_not.mp differs
    · exact fun _ => not_not.mp differs
  case h_3 pc =>
    rw [Option.some.injEq] at taken
    subst taken
    exact guarded.moves inv (by simp [pc]) fun _ => by simp [pc, Pc.parentSeen]
  case h_4 =>
    simp only [Option.bind_eq_some_iff] at taken
    rcases taken with ⟨command, -, taken⟩
    exact guarded.supervise inv taken

/-- A supervisor that has been sent its death signal notices it. -/
theorem notices (guarded : Guarded supervisor world) (inv : Inv supervisor world)
    {table : ProcessTable} (evolves : Evolves (fun _ => False) world.table table)
    (keeps : KeepsSignal (· ≤ ·) world.table table supervisor.birth)
    (delivers : supervisor.missesSigterm = false) :
    Guarded supervisor (supervisor.notice { world with table }) := by
  simp only [Supervisor.notice, delivers, Bool.not_false, Bool.true_and]
  split_ifs with warned
  · exact guarded.keeps inv evolves keeps (em' _) id fun _ _ _ _ _ => by simp
  · apply guarded.keeps inv evolves keeps (em' _) id
    intro _ self mem isSelf isWarned
    refine (warned ?_).elim
    cases found : table.find supervisor.birth with
    | none =>
        have := List.find?_eq_none.mp found self mem
        simp [isSelf] at this
    | some process =>
        have memProcess := List.mem_of_find?_eq_some found
        have isProcess : process.birth = supervisor.birth := by simpa using List.find?_some found
        rw [table.wellFormed.eq_of_birth memProcess mem (isProcess.trans isSelf.symm)]
        simpa using isWarned

theorem step (guarded : Guarded supervisor world) (inv : Inv supervisor world)
    (delivers : supervisor.missesSigterm = false)
    (taken : step supervisor world event = some after) : Guarded supervisor after := by
  cases event with
  | supervisor =>
      simp only [Supervision.step, Option.ite_none_right_eq_some] at taken
      exact guarded.advance inv taken.2
  | forked pid =>
      simp only [Supervision.step, Option.ite_none_right_eq_some, Option.map_eq_some_iff] at taken
      rcases taken with ⟨⟨pc, -⟩, later, performed, rfl⟩
      rcases performs_cases performed with ⟨process, mem, acts, table, -, taken, rfl⟩
      have evolves : Evolves (fun _ => True) world.table table := evolves_perform trivial taken
      exact guarded.quiet inv evolves (keepsSignal_perform (.inl (by simp)) taken)
        (.inl (by simp [pc])) (fun _ => by simp [pc, Pc.parentSeen]) id
  | selected closed =>
      simp only [Supervision.step, Option.ite_none_right_eq_some, Option.some.injEq] at taken
      rcases taken with ⟨⟨pc, -⟩, rfl⟩
      have begun : world.pc ≠ .enableDeathSignal := by simp [pc]
      have sees : world.pc.parentSeen = true := by simp [pc, Pc.parentSeen, Pc.holds]
      split_ifs
      · exact guarded.quiet inv (unchanged _) (.refl _ _) (.inl begun) (fun _ => sees) fun none => by cases none
      · exact guarded.quiet inv (unchanged _) (.refl _ _) (.inl begun) (fun _ => sees) id
  | command =>
      simp only [Supervision.step, Option.bind_eq_some_iff] at taken
      rcases taken with ⟨command, isCommand, begun⟩
      have differs : command.birth ≠ supervisor.birth := (inv.younger command isCommand).ne'
      simp only [Supervisor.begins] at begun
      split at begun
      case h_2 =>
        simp only [Option.map_eq_some_iff] at begun
        rcases begun with ⟨process, -, rfl⟩
        exact guarded.quiet inv (unchanged _) (.refl _ _) (em' _) id id
      case h_1 | h_3 =>
        simp only [Option.map_eq_some_iff] at begun
        rcases begun with ⟨_, performed, rfl⟩
        rcases performs_cases performed with ⟨process, mem, acts, table, same, taken, rfl⟩
        have evolves : Evolves (fun _ => True) world.table table := evolves_perform trivial taken
        exact guarded.quiet inv evolves (keepsSignal_perform (.inr (same ▸ differs)) taken)
          (em' _) id id
      all_goals cases begun
  | call birth call =>
      simp only [Supervision.step, Option.ite_none_right_eq_some] at taken
      rcases taken with ⟨isOther, performed⟩
      rcases performs_cases performed with ⟨process, mem, acts, table, same, taken, rfl⟩
      have evolves : Evolves (fun _ => True) world.table table := evolves_perform trivial taken
      exact guarded.quiet inv evolves (keepsSignal_perform (.inr (same ▸ isOther.1)) taken)
        (em' _) id id
  | finish birth adopter status =>
      simp only [Supervision.step, Option.bind_eq_some_iff, Option.map_eq_some_iff] at taken
      rcases taken with ⟨dead, -, adopter, -, table, finished, rfl⟩
      exact guarded.notices inv (evolves_finish finished) (keepsSignal_finish finished) delivers
  | request =>
      simp only [Supervision.step, Option.some.injEq] at taken
      subst taken
      exact guarded.quiet inv (unchanged _) (.refl _ _) (em' _) id (by simp)
  | tick now =>
      simp only [Supervision.step, Option.ite_none_right_eq_some, Option.some.injEq] at taken
      rcases taken with ⟨-, rfl⟩
      exact guarded.quiet inv (unchanged _) (.refl _ _) (em' _) id id

end Guarded

/-- The parent has ended. -/
def Supervisor.IsOrphan (supervisor : Supervisor) (world : World) : Prop :=
  ∀ process ∈ world.table.processes, process.birth = supervisor.parentBirth → process.ended ≠ none

/-- The end of a process asks nothing of a supervisor that SIGTERM does not reach. -/
theorem finish_unnoticed (misses : supervisor.missesSigterm = true) {birth adopter status : Nat}
    (taken : step supervisor world (.finish birth adopter status) = some after) :
    after.terminationRequested = world.terminationRequested := by
  simp only [step, Option.bind_eq_some_iff, Option.map_eq_some_iff] at taken
  rcases taken with ⟨dead, -, adopter, -, table, -, rfl⟩
  simp [Supervisor.notice, misses]

/-- A supervisor that may fork or has forked knows when it has lost its parent: the end of the
parent is a request to terminate, however early it comes. Where SIGTERM does not reach the
supervisor, the end of its parent goes unnoticed. -/
theorem orphan_requested (starts : Starts supervisor initial)
    (reachable : (supervision supervisor initial).Reachable world) :
    (supervisor.missesSigterm = false → supervisor.Lives world.table →
      world.pc.parentSeen = true → supervisor.IsOrphan world →
        world.terminationRequested ≠ none) ∧
      (supervisor.missesSigterm = true → ∀ birth adopter status after,
        step supervisor world (.finish birth adopter status) = some after →
          after.terminationRequested = world.terminationRequested) := by
  refine ⟨?_, fun misses _ _ _ _ taken => finish_unnoticed misses taken⟩
  intro delivers lives seen orphan
  have guarded : Guarded supervisor world := by
    apply reachable.invariant_of_reachable (Guarded.of_starts starts)
    intro before event after isReachable guarded _ taken
    exact guarded.step (Inv.of_reachable starts isReachable) delivers taken
  rcases lives with ⟨self, mem, isSelf, -⟩
  have first : world.pc ≠ .enableDeathSignal := fun same => by
    simp [same, Pc.parentSeen, Pc.holds] at seen
  by_cases warned : self.warned = true
  · exact guarded.noticed first self mem isSelf warned
  · have armed := (guarded.seen seen self mem isSelf).resolve_left warned
    rcases world.table.wellFormed.guarded self mem _ armed (by simpa using warned) with
      ⟨parent, memParent, isParent, -, parentLives⟩
    exact (orphan parent memParent isParent parentLives).elim

theorem orphan_requested_sample : ∃ world,
    (supervision sampleSupervisor sampleWorld).Reachable world ∧
      sampleSupervisor.IsOrphan world ∧ world.terminationRequested ≠ none := by
  have ran : ((supervision sampleSupervisor sampleWorld).run sampleWorld sampleEvents).any
      (fun world => world.pc.parentSeen ∧
        (∃ process ∈ world.table.processes, process.birth = 2 ∧ process.ended = none) ∧
        ∀ process ∈ world.table.processes, process.birth = 1 → process.ended ≠ none) = true := by
    decide +kernel
  rcases System.exists_reachable_of_run ran with ⟨world, reachable, holds⟩
  simp only [decide_eq_true_eq] at holds
  rcases holds with ⟨seen, lives, orphan⟩
  exact ⟨world, reachable, orphan,
    (orphan_requested sampleStarts reachable).1 rfl lives seen orphan⟩

end Longrun.Supervision
