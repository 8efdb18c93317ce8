import Longrun.Supervision.Supervise

/-!
# The signals of a supervisor

While a supervisor runs, the identifier of its command is not used again: only the supervisor may
wait for the command. The group that it names is therefore the command's own, and the session is
closed to everybody who does not come from the command.
-/

namespace Longrun.Supervision

open ProcessTable

variable {supervisor : Supervisor} {world after : World} {event : Event} {command : Command}

/-- The supervisor has not ended. -/
def Supervisor.Lives (supervisor : Supervisor) (table : ProcessTable) : Prop :=
  ∃ process ∈ table.processes, process.birth = supervisor.birth ∧ process.ended = none

/-- The supervisor has forked and has not waited for the command. -/
def Pc.holds : Pc → Bool
  | .enableDeathSignal => false
  | .checkParent => false
  | .checkRequested => false
  | .fork => false
  | .returned _ => false
  | .raised => false
  | _ => true

/-- The command has been seen to have ended. -/
def Pc.sweeps : Pc → Bool
  | .sweepTerm => true
  | .sweepPause => true
  | .sweepKill => true
  | .reap => true
  | _ => false

/-- What the supervisor holds on to: the command, which is its child, and the session that the
command leads as soon as it runs its program. -/
structure Holds (supervisor : Supervisor) (table : ProcessTable) (prelude : Prelude)
    (command : Command) (leader : UnixProcess) : Prop where
  mem : leader ∈ table.processes
  pid : leader.pid = command.pid
  birth : leader.birth = command.birth
  parent : leader.parent = supervisor.pid
  enclosed : table.Enclosed command.pid command.birth
  leads : prelude = .program → leader.session = command.pid
  unnamed : prelude ≠ .program → table.Unnamed command.pid

/-- How far the end of the command has been dealt with. -/
structure Ended (world : World) (command : Command) (leader : UnixProcess) : Prop where
  ended : world.pc.sweeps = true → leader.ended ≠ none
  swept : world.pc = .reap → world.table.Swept command.pid

/-- The supervisor is the process that it takes itself for. -/
structure Identified (supervisor : Supervisor) (table : ProcessTable) : Prop where
  born : supervisor.birth < table.births
  pid : ∀ process ∈ table.processes, process.birth = supervisor.birth → process.pid = supervisor.pid

theorem Identified.evolves {may : UnixProcess → Prop} {table later : ProcessTable}
    (identified : Identified supervisor table) (evolves : Evolves may table later) :
    Identified supervisor later where
  born := identified.born.trans_le evolves.births
  pid process memLater same := by
    rcases evolves.origin process memLater with ⟨before, mem, change⟩ | ⟨caller, -, -, -, pid, -, rfl⟩
    · rw [change.pid]
      exact identified.pid before mem (change.birth.symm.trans same)
    · have := identified.born
      change table.births = supervisor.birth at same
      omega

theorem Supervisor.Lives.before {may : UnixProcess → Prop} {table later : ProcessTable}
    (lives : supervisor.Lives later) (identified : Identified supervisor table)
    (evolves : Evolves may table later) : supervisor.Lives table := by
  rcases lives with ⟨process, memLater, same, lives⟩
  rcases evolves.origin process memLater with ⟨before, mem, change⟩ | ⟨caller, -, -, -, pid, -, rfl⟩
  · refine ⟨before, mem, change.birth.symm.trans same, ?_⟩
    cases change with
    | afterEnd =>
        simp only [UnixProcess.afterEnd] at lives
        split_ifs at lives
        · exact lives
        · exact lives
    | _ => exact lives
  · have := identified.born
    change table.births = supervisor.birth at same
    omega

/-- The command stays where it is: nobody but the supervisor may wait for it, and its parent lives. -/
theorem Holds.evolves {may : UnixProcess → Prop} {table later : ProcessTable} {prelude : Prelude}
    {leader : UnixProcess} (holds : Holds supervisor table prelude command leader)
    (identified : Identified supervisor table) (evolves : Evolves may table later)
    (lives : supervisor.Lives later)
    (others : ∀ process ∈ table.processes, may process → process.birth ≠ supervisor.birth ∧
      (prelude = .program ∨ process.birth ≠ command.birth)) :
    ∃ next, Change table may leader next ∧ Holds supervisor later prelude command next := by
  have livesBefore := lives.before identified evolves
  rcases livesBefore with ⟨self, memSelf, isSelf, -⟩
  have selfPid := identified.pid self memSelf isSelf
  have notParent : ∀ caller ∈ table.processes, may caller → caller.pid ≠ leader.parent := by
    intro caller mem mayCall same
    rw [holds.parent, ← selfPid] at same
    have same := table.wellFormed.eq_of_pid mem memSelf same
    exact (others caller mem mayCall).1 (same ▸ isSelf)
  rcases evolves.stays leader holds.mem with ⟨next, memNext, change⟩ | ⟨caller, mem, mayCall, isParent, -⟩
  · refine ⟨next, change, memNext, change.pid.trans holds.pid, change.birth.trans holds.birth, ?_, ?_,
      ?_, ?_⟩
    · rcases evolves.parents leader holds.mem next memNext change.birth with same | orphaned
      · exact same.trans holds.parent
      · rcases lives with ⟨later, memLater, isLater, lives⟩
        have laterPid := (identified.evolves evolves).pid later memLater isLater
        exact (orphaned later memLater (laterPid.trans holds.parent.symm) lives).elim
    · rw [← holds.pid, ← holds.birth]
      apply Enclosed.evolves _ evolves holds.mem
      · by_cases runs : prelude = .program
        · exact .inl ((holds.leads runs).trans holds.pid.symm)
        · refine .inr fun caller mem mayCall => ⟨fun same => ?_, notParent caller mem mayCall⟩
          have same := table.wellFormed.eq_of_pid mem holds.mem same
          rcases (others caller mem mayCall).2 with isProgram | differs
          · exact runs isProgram
          · exact differs (same ▸ holds.birth)
      · rw [holds.pid, holds.birth]
        exact holds.enclosed
    · intro runs
      have session := holds.leads runs
      cases change with
      | leads => exact holds.pid
      | afterEnd => simp only [UnixProcess.afterEnd]; split_ifs <;> exact session
      | _ => exact session
    · intro notYet
      rw [← holds.pid]
      apply Unnamed.evolves _ evolves holds.mem
      · refine fun caller mem mayCall => ⟨fun same => ?_, notParent caller mem mayCall⟩
        have same := table.wellFormed.eq_of_pid mem holds.mem same
        rcases (others caller mem mayCall).2 with isProgram | differs
        · exact notYet isProgram
        · exact differs (same ▸ holds.birth)
      · rw [holds.pid]
        exact holds.unnamed notYet
  · exact (notParent caller mem mayCall isParent.symm).elim

/-- Who has ended does not come back. -/
theorem ended_of_change {may : UnixProcess → Prop} {table : ProcessTable}
    {process later : UnixProcess} (change : Change table may process later)
    (ended : process.ended ≠ none) : later.ended ≠ none := by
  cases change with
  | afterEnd =>
      simp only [UnixProcess.afterEnd]
      split_ifs
      · simp
      · exact ended
      · exact ended
  | _ => exact ended

namespace Holds

variable {table : ProcessTable} {prelude later : Prelude} {leader : UnixProcess}

/-- The command goes on without having become its program. -/
theorem goesOn (holds : Holds supervisor table prelude command leader)
    (same : prelude = .program ↔ later = .program) : Holds supervisor table later command leader :=
  { holds with
    leads := fun runs => holds.leads (same.mpr runs)
    unnamed := fun notYet => holds.unnamed fun runs => notYet (same.mp runs) }

/-- The child that is found under the identifier of the command is the command. -/
theorem eq_of_child (holds : Holds supervisor world.table prelude command leader)
    {process : UnixProcess} (found : supervisor.child world command = some process) :
    process = leader := by
  simp only [Supervisor.child, withPid, Option.filter_eq_some_iff] at found
  have samePid : process.pid = command.pid := by simpa using List.find?_some found.1
  exact world.table.wellFormed.eq_of_pid (List.mem_of_find?_eq_some found.1) holds.mem
    (samePid.trans holds.pid.symm)

/-- The command becomes the leader of a session. -/
theorem leadsNow (holds : Holds supervisor table prelude command leader)
    (notYet : prelude ≠ .program) {after : ProcessTable}
    (processes : after.processes = table.processes.map fun process =>
      if process.birth = leader.birth then process.leads else process) :
    Holds supervisor after .program command leader.leads := by
  have unnamed := holds.unnamed notYet
  refine ⟨?_, holds.pid, holds.birth, holds.parent, ?_, fun _ => holds.pid, by simp⟩
  · rw [processes]
    refine List.mem_map.mpr ⟨leader, holds.mem, ?_⟩
    simp
  · rw [Enclosed, processes]
    simp only [List.forall_mem_map]
    intro process mem
    split_ifs with same
    · refine ⟨id, fun _ => .inl ?_⟩
      exact same.trans holds.birth
    · exact ⟨fun named => ((unnamed process mem).1 named).elim,
        fun named => ((unnamed process mem).2 named).elim⟩

end Holds

theorem performs_cases {birth : Nat} {call : SystemCall}
    (performed : world.performs birth call = some after) :
    ∃ process, ∃ mem : process ∈ world.table.processes, ∃ acts : process.Acts, ∃ table,
      process.birth = birth ∧ world.table.perform process mem acts call = some table ∧
        after = { world with table } := by
  simp only [World.performs] at performed
  split at performed
  · rename_i process found
    simp only [Option.dite_none_right_eq_some, Option.map_eq_some_iff] at performed
    rcases performed with ⟨acts, table, performed, rfl⟩
    exact ⟨process, List.mem_of_find?_eq_some found, acts, table,
      by simpa using List.find?_some found, performed, rfl⟩
  · cases performed

/-- Where no member of the group is left, everybody in the session has strayed. -/
theorem swept_of_empty {table : ProcessTable} {session : Nat}
    (empty : table.members session = []) : table.Swept session := by
  intro process mem same
  right; right
  by_contra settled
  have settled := table.wellFormed.settled process mem (by simpa using settled)
  have inGroup : process ∈ table.members session :=
    List.mem_filter.mpr ⟨mem, by simpa using settled.1.trans same⟩
  simp [empty] at inGroup

/-! ### The invariant -/

/-- The supervisor has not forked. -/
def Pc.precedes : Pc → Bool
  | .enableDeathSignal => true
  | .checkParent => true
  | .checkRequested => true
  | .fork => true
  | _ => false

structure Inv (supervisor : Supervisor) (world : World) : Prop where
  identified : Identified supervisor world.table
  unforked : world.pc.precedes = true → world.command = none ∧ world.sent = []
  holds : world.pc.holds = true → supervisor.Lives world.table →
    ∃ command ∈ world.command, ∃ leader,
      Holds supervisor world.table world.prelude command leader ∧ Ended world command leader
  younger : ∀ command ∈ world.command, supervisor.birth < command.birth
  reached : ∀ sent ∈ world.sent, ∃ command ∈ world.command,
    ∀ process ∈ sent.recipients, process.From command.birth

namespace Inv

theorem of_starts (starts : Starts supervisor world) : Inv supervisor world where
  identified := by
    rcases starts.self with ⟨self, mem, isSelf, selfPid, -⟩
    refine ⟨isSelf ▸ world.table.wellFormed.born self mem, fun process memProcess same => ?_⟩
    rw [world.table.wellFormed.eq_of_birth memProcess mem (same.trans isSelf.symm), selfPid]
  unforked _ := ⟨starts.command, starts.sent⟩
  holds held := by simp [starts.pc, Pc.holds] at held
  younger := by simp [starts.command]
  reached := by simp [starts.sent]

/-- The other processes go on. -/
theorem around (inv : Inv supervisor world) {table : ProcessTable} {requested : Option ℚ} {now : ℚ}
    (evolves : Evolves (fun process => supervisor.IsOther world process.birth) world.table table) :
    Inv supervisor { world with table, terminationRequested := requested, now } where
  identified := inv.identified.evolves evolves
  unforked := inv.unforked
  holds held lives := by
    rcases inv.holds held (lives.before inv.identified evolves) with
      ⟨command, isCommand, leader, holds, ended⟩
    have others : ∀ process ∈ world.table.processes, supervisor.IsOther world process.birth →
        process.birth ≠ supervisor.birth ∧
          (world.prelude = .program ∨ process.birth ≠ command.birth) :=
      fun process _ other => ⟨other.1, other.2.imp_right fun differs same =>
        differs command isCommand same.symm⟩
    rcases holds.evolves inv.identified evolves lives others with ⟨next, change, holdsNext⟩
    refine ⟨command, isCommand, next, holdsNext, ?_, ?_⟩
    · exact fun sweeps => ended_of_change change (ended.ended sweeps)
    · intro reaps
      change world.pc = .reap at reaps
      have dead := ended.ended (by rw [reaps]; rfl)
      have swept := ended.swept reaps
      rw [← holds.pid] at swept ⊢
      exact swept.evolves evolves holds.mem dead
  younger := inv.younger
  reached := inv.reached

/-- The command goes on before its program. -/
theorem begins (inv : Inv supervisor world) (isCommand : world.command = some command)
    (begun : supervisor.begins world command = some after) : Inv supervisor after := by
  -- The command that is held is this one.
  have held : ∀ table prelude, (∃ other ∈ world.command, ∃ leader,
      Holds supervisor table prelude other leader ∧ Ended world other leader) →
      ∃ leader, Holds supervisor table prelude command leader ∧ Ended world command leader := by
    rintro table prelude ⟨other, isOther, leader⟩
    rw [isCommand, Option.mem_some_iff] at isOther
    subst isOther
    exact leader
  simp only [Supervisor.begins] at begun
  split at begun
  case h_1 prelude =>
    simp only [Option.map_eq_some_iff] at begun
    rcases begun with ⟨_, performed, rfl⟩
    rcases performs_cases performed with ⟨process, mem, acts, table, -, taken, rfl⟩
    have evolves : Evolves (fun _ => False) world.table table := evolves_armDeathSignal taken
    refine ⟨inv.identified.evolves evolves, inv.unforked, ?_, inv.younger, inv.reached⟩
    intro heldNow lives
    rcases held _ _ (inv.holds heldNow (lives.before inv.identified evolves)) with ⟨leader, holds, ended⟩
    rcases holds.evolves inv.identified evolves lives (fun _ _ never => never.elim) with
      ⟨next, change, holdsNext⟩
    refine ⟨command, isCommand, next, holdsNext.goesOn (by simp [prelude]), ?_, ?_⟩
    · exact fun sweeps => ended_of_change change (ended.ended sweeps)
    · intro reaps
      change world.pc = .reap at reaps
      have dead := ended.ended (by rw [reaps]; rfl)
      have swept := ended.swept reaps
      rw [← holds.pid] at swept ⊢
      exact swept.evolves evolves holds.mem dead
  case h_2 prelude =>
    simp only [Option.map_eq_some_iff] at begun
    rcases begun with ⟨process, -, rfl⟩
    refine ⟨inv.identified, inv.unforked, ?_, inv.younger, inv.reached⟩
    intro heldNow lives
    rcases held _ _ (inv.holds heldNow lives) with ⟨leader, holds, ended⟩
    refine ⟨command, isCommand, leader, holds.goesOn ?_, ended.ended, ended.swept⟩
    rw [prelude]
    split_ifs <;> simp
  case h_3 prelude =>
    simp only [Option.map_eq_some_iff] at begun
    rcases begun with ⟨_, performed, rfl⟩
    rcases performs_cases performed with ⟨process, mem, acts, table, same, taken, rfl⟩
    have evolves : Evolves (fun _ => True) world.table table := evolves_perform trivial taken
    refine ⟨inv.identified.evolves evolves, inv.unforked, ?_, inv.younger, inv.reached⟩
    intro heldNow lives
    rcases held _ _ (inv.holds heldNow (lives.before inv.identified evolves)) with ⟨leader, holds, ended⟩
    have isLeader := world.table.wellFormed.eq_of_birth mem holds.mem (same.trans holds.birth.symm)
    subst isLeader
    have notYet : world.pc.sweeps ≠ true := fun sweeps => ended.ended sweeps acts.1
    simp only [perform, Option.ite_none_right_eq_some, Option.some.injEq] at taken
    rcases taken with ⟨-, rfl⟩
    refine ⟨command, isCommand, _, holds.leadsNow (by simp [prelude]) rfl, ?_, ?_⟩
    · exact fun sweeps => (notYet sweeps).elim
    · intro reaps
      change world.pc = .reap at reaps
      exact (notYet (by rw [reaps]; rfl)).elim
  case h_4 => cases begun
  case h_5 => cases begun

/-- The supervisor gets to another place without touching anything. -/
theorem moves (inv : Inv supervisor world) {pc : Pc} {started : Option ℚ}
    (holds : pc.holds = true → world.pc.holds = true) (precedes : pc.precedes = true →
      world.pc.precedes = true)
    (sweeps : pc.sweeps = true → world.pc.sweeps = true) (reaps : pc ≠ .reap) :
    Inv supervisor { world with pc, terminationStartedAt := started } where
  identified := inv.identified
  unforked first := inv.unforked (precedes first)
  holds held lives := by
    rcases inv.holds (holds held) lives with ⟨command, isCommand, leader, holds, ended⟩
    exact ⟨command, isCommand, leader, holds, fun sweep => ended.ended (sweeps sweep),
      fun reap => (reaps reap).elim⟩
  younger := inv.younger
  reached := inv.reached

/-- A signal goes to the group of the command. -/
theorem signals (inv : Inv supervisor world) (lives : supervisor.Lives world.table)
    (isCommand : world.command = some command) (held : world.pc.holds = true) {sig : Signal} {pc : Pc}
    (precedes : pc.precedes = false)
    (sweeps : pc.sweeps = true → world.pc.sweeps = true) (reaps : pc = .reap → sig = .sigkill) :
    Inv supervisor (world.signalCommandGroup command.pid sig pc) := by
  rcases inv.holds held lives with ⟨other, isOther, leader, holds, ended⟩
  rw [isCommand, Option.mem_some_iff] at isOther
  subst isOther
  simp only [World.signalCommandGroup]
  split_ifs with empty foreign kills
  · refine ⟨inv.identified, by simp [precedes], fun _ _ => ?_, inv.younger, inv.reached⟩
    exact ⟨command, isCommand, leader, holds, fun sweep => ended.ended (sweeps sweep),
      fun _ => swept_of_empty empty⟩
  · refine ⟨inv.identified, by simp [Pc.precedes], ?_, inv.younger, inv.reached⟩
    simp [Pc.holds]
  all_goals
    have reached : ∀ sent ∈ (⟨sig, world.now, command.pid, world.table⟩ : Sent) :: world.sent,
        ∃ command ∈ world.command, ∀ process ∈ sent.recipients, process.From command.birth := by
      rw [List.forall_mem_cons]
      refine ⟨⟨command, isCommand, fun process mem => ?_⟩, inv.reached⟩
      have mem := List.mem_filter.mp (List.mem_filter.mp mem).1
      have enclosed := holds.enclosed process mem.1
      exact enclosed.2 (enclosed.1 (by simpa using mem.2))
  · have evolves : Evolves (fun _ => False) world.table (world.table.killGroup command.pid) :=
      evolves_killGroup ..
    refine ⟨inv.identified.evolves evolves, by simp [precedes], ?_, inv.younger, reached⟩
    intro _ lives
    rcases holds.evolves inv.identified evolves lives (fun _ _ never => never.elim) with
      ⟨next, change, holdsNext⟩
    exact ⟨command, isCommand, next, holdsNext,
      fun sweep => ended_of_change change (ended.ended (sweeps sweep)),
      fun _ => swept_killGroup _ _⟩
  · refine ⟨inv.identified, by simp [precedes], fun _ _ => ?_, inv.younger, reached⟩
    exact ⟨command, isCommand, leader, holds, fun sweep => ended.ended (sweeps sweep),
      fun reap => (kills (reaps reap)).elim⟩

/-- The supervisor forks. -/
theorem forked (inv : Inv supervisor world) (first : world.pc.precedes = true) {pid : Nat}
    (performed : world.performs supervisor.birth (.fork pid) = some after) :
    Inv supervisor { after with
      pc := .waitid
      prelude := supervisor.preludeStart
      command := some ⟨pid, world.table.births⟩ } := by
  rcases performs_cases performed with ⟨process, mem, acts, table, same, taken, rfl⟩
  have evolves : Evolves (fun _ => True) world.table table := evolves_perform trivial taken
  have selfPid := inv.identified.pid process mem same
  simp only [perform, Option.dite_none_right_eq_some, Option.some.injEq] at taken
  rcases taken with ⟨free, rfl⟩
  have unnamed : Unnamed ⟨process.child pid world.table.births :: world.table.processes,
      world.table.births + 1,
      world.table.wellFormed.fork mem acts fun other mem' => (free other mem').1⟩ pid := by
    simp only [Unnamed, List.forall_mem_cons]
    exact ⟨(free process mem).2, fun other mem' => (free other mem').2⟩
  refine ⟨inv.identified.evolves evolves, by simp [Pc.precedes], ?_, ?_, ?_⟩
  · intro _ _
    refine ⟨_, rfl, process.child pid world.table.births, ?_, ?_, ?_⟩
    · refine ⟨List.mem_cons_self, rfl, rfl, selfPid, unnamed.enclosed, ?_, fun _ => unnamed⟩
      simp only [Supervisor.preludeStart]
      split_ifs <;> simp
    · simp [Pc.sweeps]
    · simp
  · simpa using inv.identified.born
  · have := (inv.unforked first).2
    simp [this]

/-- The supervisor goes on once it has forked. -/
theorem supervise (inv : Inv supervisor world) (lives : supervisor.Lives world.table)
    (isCommand : world.command = some command)
    (taken : supervisor.supervise world command = some after) : Inv supervisor after := by
  simp only [Supervisor.supervise] at taken
  split at taken
  case h_1 pc =>
    split at taken
    · rename_i process found
      rw [Option.some.injEq] at taken
      subst taken
      refine ⟨inv.identified, ?_, fun _ _ => ?_, inv.younger, inv.reached⟩
      · simp only [Supervisor.unended]
        split_ifs <;> simp [Pc.precedes]
      · rcases inv.holds (by rw [pc]; rfl) lives with ⟨other, isOther, leader, holds, -⟩
        rw [isCommand, Option.mem_some_iff] at isOther
        subst isOther
        refine ⟨command, isCommand, leader, holds, ?_, ?_⟩
        · rw [← holds.eq_of_child found]
          simp only [Supervisor.unended]
          split_ifs with ended
          · exact fun _ none => by simp [none] at ended
          · simp [Pc.sweeps]
          · simp [Pc.sweeps]
        · simp only [Supervisor.unended]
          split_ifs <;> simp
    · rw [Option.some.injEq] at taken
      subst taken
      exact inv.moves (by simp [Pc.holds]) (by simp [Pc.precedes]) (by simp [Pc.sweeps]) (by simp)
  case h_2 pc =>
    rw [Option.some.injEq] at taken
    subst taken
    exact inv.signals lives isCommand (by rw [pc]; rfl) rfl (by simp [pc, Pc.sweeps]) (by simp)
  case h_3 pc =>
    rw [Option.some.injEq] at taken
    subst taken
    exact inv.moves (by simp [pc, Pc.holds]) (by simp [Pc.precedes]) (by simp [pc, Pc.sweeps])
      (by simp)
  case h_4 pc =>
    rw [Option.some.injEq] at taken
    subst taken
    exact inv.signals lives isCommand (by rw [pc]; rfl) rfl (by simp [pc, Pc.sweeps]) (by simp)
  case h_5 pc =>
    split at taken
    · split at taken
      · simp only [Option.map_eq_some_iff] at taken
        rcases taken with ⟨_, performed, rfl⟩
        rcases performs_cases performed with ⟨process, mem, acts, table, -, taken, rfl⟩
        have evolves : Evolves (fun _ => True) world.table table := evolves_perform trivial taken
        refine ⟨inv.identified.evolves evolves, by simp [Pc.precedes], ?_, inv.younger, inv.reached⟩
        simp [Pc.holds]
      · cases taken
    · rw [Option.some.injEq] at taken
      subst taken
      exact inv.moves (by simp [Pc.holds]) (by simp [Pc.precedes]) (by simp [Pc.sweeps]) (by simp)
  case h_6 pc =>
    rw [Option.some.injEq] at taken
    subst taken
    apply inv.moves
    all_goals split_ifs <;> simp [pc, Pc.holds, Pc.precedes, Pc.sweeps]
  case h_7 pc =>
    rw [Option.some.injEq] at taken
    subst taken
    exact inv.moves (by simp [pc, Pc.holds]) (by simp [Pc.precedes]) (by simp [Pc.sweeps]) (by simp)
  case h_8 pc =>
    simp only [Option.map_eq_some_iff] at taken
    rcases taken with ⟨started, -, rfl⟩
    exact inv.moves (by simp [pc, Pc.holds]) (by simp [Pc.precedes]) (by simp [Pc.sweeps]) (by simp)
  case h_9 sig pc =>
    rw [Option.some.injEq] at taken
    subst taken
    exact inv.signals lives isCommand (by rw [pc]; rfl) rfl (by simp [Pc.sweeps]) (by simp)
  case h_10 pc =>
    rw [Option.some.injEq] at taken
    subst taken
    exact inv.moves (by simp [pc, Pc.holds]) (by simp [Pc.precedes]) (by simp [Pc.sweeps]) (by simp)
  case h_11 => cases taken

/-- The supervisor takes a step of its own. -/
theorem advance (inv : Inv supervisor world) (lives : supervisor.Lives world.table)
    (taken : supervisor.advance world = some after) : Inv supervisor after := by
  simp only [Supervisor.advance] at taken
  split at taken
  case h_1 pc =>
    simp only [Option.map_eq_some_iff] at taken
    rcases taken with ⟨_, performed, rfl⟩
    rcases performs_cases performed with ⟨process, mem, acts, table, -, taken, rfl⟩
    have evolves : Evolves (fun _ => True) world.table table := evolves_perform trivial taken
    refine ⟨inv.identified.evolves evolves, fun _ => inv.unforked (by rw [pc]; rfl), ?_,
      inv.younger, inv.reached⟩
    simp [Pc.holds]
  case h_2 pc =>
    simp only [Option.map_eq_some_iff] at taken
    rcases taken with ⟨process, -, rfl⟩
    apply inv.moves
    all_goals split_ifs <;> simp [pc, Pc.holds, Pc.precedes, Pc.sweeps]
  case h_3 pc =>
    rw [Option.some.injEq] at taken
    subst taken
    apply inv.moves
    all_goals split_ifs <;> simp [pc, Pc.holds, Pc.precedes, Pc.sweeps]
  case h_4 =>
    simp only [Option.bind_eq_some_iff] at taken
    rcases taken with ⟨command, isCommand, taken⟩
    exact inv.supervise lives isCommand taken

end Inv

theorem Supervisor.Runs.lives (runs : supervisor.Runs world) : supervisor.Lives world.table := by
  rcases runs with ⟨process, mem, same, acts⟩
  exact ⟨process, mem, same, acts.1⟩

/-- Whatever happens, the invariant stays. -/
theorem Inv.step (inv : Inv supervisor world) (taken : step supervisor world event = some after) :
    Inv supervisor after := by
  cases event with
  | supervisor =>
      simp only [Supervision.step, Option.ite_none_right_eq_some] at taken
      exact inv.advance taken.1.lives taken.2
  | forked pid =>
      simp only [Supervision.step, Option.ite_none_right_eq_some, Option.map_eq_some_iff] at taken
      rcases taken with ⟨⟨pc, -⟩, later, performed, rfl⟩
      exact inv.forked (by rw [pc]; rfl) performed
  | selected closed =>
      simp only [Supervision.step, Option.ite_none_right_eq_some, Option.some.injEq] at taken
      rcases taken with ⟨⟨pc, -⟩, rfl⟩
      have moved : Inv supervisor { world with pc := .checkTermination } :=
        inv.moves (by simp [pc, Pc.holds]) (by simp [Pc.precedes]) (by simp [Pc.sweeps]) (by simp)
      split_ifs
      · exact moved.around (.refl _)
      · exact moved
  | command =>
      simp only [Supervision.step, Option.bind_eq_some_iff] at taken
      rcases taken with ⟨command, isCommand, begun⟩
      exact inv.begins isCommand begun
  | call birth call =>
      simp only [Supervision.step, Option.ite_none_right_eq_some] at taken
      rcases taken with ⟨isOther, performed⟩
      rcases performs_cases performed with ⟨process, mem, acts, table, same, taken, rfl⟩
      exact inv.around (evolves_perform (same ▸ isOther) taken)
  | finish birth adopter status =>
      simp only [Supervision.step, Option.bind_eq_some_iff, Option.map_eq_some_iff] at taken
      rcases taken with ⟨dead, -, adopter, -, table, finished, rfl⟩
      simp only [Supervisor.notice]
      split_ifs
      · exact inv.around (evolves_finish finished)
      · exact inv.around (evolves_finish finished)
  | request =>
      simp only [Supervision.step, Option.some.injEq] at taken
      subst taken
      exact inv.around (.refl _)
  | tick now =>
      simp only [Supervision.step, Option.ite_none_right_eq_some, Option.some.injEq] at taken
      rcases taken with ⟨-, rfl⟩
      exact inv.around (.refl _)

/-! ### Runs -/

variable {initial : World} {code : Nat}

theorem Inv.of_reachable (starts : Starts supervisor initial)
    (reachable : (supervision supervisor initial).Reachable world) : Inv supervisor world :=
  reachable.invariant (Inv.of_starts starts) fun _ _ _ inv _ taken => inv.step taken

/-- A signal of a supervisor reaches nobody but its command and what comes from it, and never the
supervisor itself, whatever processes start, end and change their groups meanwhile. -/
theorem signalled_from_command (starts : Starts supervisor initial)
    (reachable : (supervision supervisor initial).Reachable world) :
    ∀ sent ∈ world.sent, ∃ command ∈ world.command, ∀ process ∈ sent.recipients,
      process.From command.birth ∧ process.birth ≠ supervisor.birth := by
  have inv := Inv.of_reachable starts reachable
  intro sent mem
  rcases inv.reached sent mem with ⟨command, isCommand, reached⟩
  refine ⟨command, isCommand, fun process memProcess => ⟨reached process memProcess, ?_⟩⟩
  have younger := inv.younger command isCommand
  have memTable := List.mem_of_mem_filter (List.mem_of_mem_filter memProcess)
  rcases reached process memProcess with same | inLine
  · omega
  · have := sent.table.wellFormed.older process memTable command.birth inLine
    omega

theorem signalled_from_command_sample : ∃ world,
    (supervision sampleSupervisor sampleWorld).Reachable world ∧ world.sent.length = 2 ∧
      ∀ sent ∈ world.sent, ∃ command ∈ world.command, ∀ process ∈ sent.recipients,
        process.From command.birth ∧ process.birth ≠ sampleSupervisor.birth := by
  have ran : ((supervision sampleSupervisor sampleWorld).run sampleWorld sampleEvents).any
      (fun world => world.sent.length = 2) = true := by decide +kernel
  rcases System.exists_reachable_of_run ran with ⟨world, reachable, count⟩
  exact ⟨world, reachable, by simpa using count, signalled_from_command sampleStarts reachable⟩

/-- Only a supervisor that has waited for its command returns after it has forked. -/
theorem reaps_of_returned (inv : Inv supervisor world) (forked : world.command ≠ none)
    (taken : supervisor.advance world = some after) (returned : after.pc = .returned code) :
    world.pc = .reap ∧ ∃ command ∈ world.command,
      supervisor.supervise world command = some after := by
  have notFirst : world.pc.precedes ≠ true := fun first => forked (inv.unforked first).1
  simp only [Supervisor.advance] at taken
  split at taken
  case h_1 pc => simp [pc, Pc.precedes] at notFirst
  case h_2 pc => simp [pc, Pc.precedes] at notFirst
  case h_3 pc => simp [pc, Pc.precedes] at notFirst
  case h_4 =>
    simp only [Option.bind_eq_some_iff] at taken
    rcases taken with ⟨command, isCommand, taken⟩
    refine ⟨?_, command, isCommand, taken⟩
    simp only [Supervisor.supervise] at taken
    split at taken
    case h_5 pc => exact pc
    all_goals exfalso
    case h_1 =>
      split at taken
      · rw [Option.some.injEq] at taken
        subst taken
        simp only [Supervisor.unended] at returned
        split_ifs at returned
      · rw [Option.some.injEq] at taken
        subst taken
        simp at returned
    case h_2 | h_4 | h_9 =>
      rw [Option.some.injEq] at taken
      subst taken
      simp only [World.signalCommandGroup] at returned
      split_ifs at returned
    case h_6 =>
      rw [Option.some.injEq] at taken
      subst taken
      simp only at returned
      split_ifs at returned
    case h_8 =>
      simp only [Option.map_eq_some_iff] at taken
      rcases taken with ⟨started, -, rfl⟩
      simp at returned
    case h_3 | h_7 | h_10 =>
      rw [Option.some.injEq] at taken
      subst taken
      simp at returned
    case h_11 => cases taken

/-- A supervisor that returns after it has forked returns what its command ended with, and leaves
nothing of the session running that has not strayed from the group: the rest is dead or about to
be. -/
theorem returned_swept (starts : Starts supervisor initial)
    (reachable : (supervision supervisor initial).Reachable world) (forked : world.command ≠ none)
    (taken : step supervisor world .supervisor = some after) (returned : after.pc = .returned code) :
    ∃ command ∈ after.command, after.table.Swept command.pid ∧
      (∀ process ∈ after.table.processes, process.birth ≠ command.birth) ∧
      ∃ leader ∈ world.table.processes, leader.birth = command.birth ∧
        ∃ status, leader.ended = some status ∧ code = exitCode status := by
  have inv := Inv.of_reachable starts reachable
  simp only [Supervision.step, Option.ite_none_right_eq_some] at taken
  rcases taken with ⟨runs, taken⟩
  rcases reaps_of_returned inv forked taken returned with ⟨reaps, command, isCommand, taken⟩
  rcases inv.holds (by rw [reaps]; rfl) runs.lives with ⟨other, isOther, leader, holds, ended⟩
  rw [Option.mem_def.mp isCommand, Option.mem_some_iff] at isOther
  subst isOther
  have swept := ended.swept reaps
  simp only [Supervisor.supervise, reaps] at taken
  split at taken
  · rename_i process found
    have isLeader := holds.eq_of_child found
    subst isLeader
    split at taken
    · rename_i status hasEnded
      simp only [Option.map_eq_some_iff] at taken
      rcases taken with ⟨_, performed, rfl⟩
      have isCode : exitCode status = code := by simpa using returned
      rcases performs_cases performed with ⟨self, mem, acts, table, -, waited, rfl⟩
      simp only [perform, Option.dite_none_right_eq_some, Option.some.injEq] at waited
      rcases waited with ⟨-, rfl⟩
      refine ⟨command, isCommand, ?_, ?_, process, holds.mem, holds.birth, status, hasEnded, ?_⟩
      · exact fun other mem => swept other (List.mem_of_mem_filter mem)
      · intro other mem same
        have mem := List.mem_filter.mp mem
        have isLeader := world.table.wellFormed.eq_of_birth mem.1 holds.mem
          (same.trans holds.birth.symm)
        simp [isLeader, holds.pid] at mem
      · exact isCode.symm
    · cases taken
  · rw [Option.some.injEq] at taken
    subst taken
    simp at returned

theorem returned_swept_sample : ∃ world after,
    (supervision sampleSupervisor sampleWorld).Reachable world ∧
      step sampleSupervisor world .supervisor = some after ∧
      ∃ command ∈ after.command, after.table.Swept command.pid ∧
        (∀ process ∈ after.table.processes, process.birth ≠ command.birth) ∧
        ∃ leader ∈ world.table.processes, leader.birth = command.birth ∧
          ∃ status, leader.ended = some status ∧ 137 = exitCode status := by
  have ran : ((supervision sampleSupervisor sampleWorld).run sampleWorld
      (sampleEvents ++ sampleEnd)).any (fun world => world.command.isSome ∧
        (step sampleSupervisor world .supervisor).any (·.pc = .returned 137)) = true := by
    decide +kernel
  rcases System.exists_reachable_of_run ran with ⟨world, reachable, returns⟩
  simp only [decide_eq_true_eq, Option.any_eq_true] at returns
  rcases returns with ⟨forked, after, taken, returned⟩
  have forked : world.command ≠ none := by simpa [Option.isSome_iff_ne_none] using forked
  have returned : after.pc = .returned 137 := by simpa using returned
  exact ⟨world, after, reachable, taken,
    returned_swept sampleStarts reachable forked taken returned⟩

end Longrun.Supervision
