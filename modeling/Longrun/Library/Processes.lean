import Mathlib

/-!
# Processes

A table of processes with their groups and sessions, as POSIX describes them, and with the signal
that Linux sends to a process when its parent ends. An identifier is free again when no process
has it and no group or session is named by it, so that a process is told from later ones by the
count of births only.

What the table promises is said once, in `ProcessTable.WellFormed`: a process stays in the group
of its session unless it strays, and a process that asked for the signal either still has the
parent it had then or has been sent the signal.
-/

namespace Longrun

structure UnixProcess where
  pid : Nat
  parent : Nat
  group : Nat
  session : Nat
  birth : Nat
  /-- The births of the processes it descends from. -/
  line : List Nat
  /-- The birth of the parent at whose end it is sent a signal (`PR_SET_PDEATHSIG`). -/
  deathSignal : Option Nat
  /-- That signal has been sent. -/
  warned : Bool
  /-- It runs as a user whom the processes under study may not signal. -/
  foreign : Bool
  /-- Since its session began, it or a process that it comes from left the session's first group
  or ran as another user. -/
  strayed : Bool
  /-- SIGKILL has reached it. -/
  doomed : Bool
  /-- The wait status that it ended with, until its parent has waited for it. -/
  ended : Option Nat
  deriving DecidableEq

namespace UnixProcess

/-- The process runs its program. -/
def Acts (process : UnixProcess) : Prop := process.ended = none ∧ process.doomed = false

instance (process : UnixProcess) : Decidable process.Acts :=
  inferInstanceAs (Decidable (_ ∧ _))

/-- The process of that birth, or one that comes from it. -/
def From (birth : Nat) (process : UnixProcess) : Prop :=
  process.birth = birth ∨ birth ∈ process.line

/-- `fork`. -/
def child (process : UnixProcess) (pid birth : Nat) : UnixProcess :=
  { process with
    pid, parent := process.pid, birth, line := process.birth :: process.line
    deathSignal := none, warned := false }

/-- `setsid`. -/
def leads (process : UnixProcess) : UnixProcess :=
  { process with group := process.pid, session := process.pid, strayed := process.foreign }

/-- `setpgid`. -/
def joins (process : UnixProcess) (group : Nat) : UnixProcess :=
  { process with group, strayed := process.strayed || process.group != group }

/-- The credentials of the process change. -/
def runsAs (process : UnixProcess) (foreign : Bool) : UnixProcess :=
  { process with foreign, strayed := process.strayed || foreign }

/-- `prctl(PR_SET_PDEATHSIG)`. -/
def arms (process : UnixProcess) (parent : Option Nat) : UnixProcess :=
  { process with deathSignal := parent, warned := false }

def dooms (process : UnixProcess) : UnixProcess := { process with doomed := true }

/-- A process ends: it keeps its status, and its children pass to an adopter. -/
def afterEnd (dead : UnixProcess) (status adopter : Nat) (process : UnixProcess) : UnixProcess :=
  if process.birth = dead.birth then { process with ended := some status }
  else if process.parent = dead.pid then
    { process with
      parent := adopter, warned := process.warned || process.deathSignal.isSome }
  else process

/-- The process stays where it is in the tree, and what a table promises of it still holds. -/
structure Keeps (processes : List UnixProcess) (before after : UnixProcess) : Prop where
  pid : after.pid = before.pid
  parent : after.parent = before.parent
  birth : after.birth = before.birth
  line : after.line = before.line
  ended : after.ended = before.ended
  settled : after.strayed = false → after.group = after.session ∧ after.foreign = false
  guarded : ∀ birth, after.deathSignal = some birth → after.warned = false →
    ∃ other ∈ processes, other.birth = birth ∧ other.pid = before.parent ∧ other.ended = none

end UnixProcess

namespace ProcessTable

structure WellFormed (births : Nat) (processes : List UnixProcess) : Prop where
  distinct : (processes.map UnixProcess.pid).Nodup
  unique : (processes.map UnixProcess.birth).Nodup
  born : ∀ process ∈ processes, process.birth < births
  older : ∀ process ∈ processes, ∀ birth ∈ process.line, birth < process.birth
  lineage : ∀ process ∈ processes, ∀ other ∈ processes, other.birth ∈ process.line →
    other.line ⊆ process.line
  parented : ∀ process ∈ processes, process.line ≠ [] → ∃ other ∈ processes,
    other.pid = process.parent ∧ other.ended = none ∧ other.birth ∈ process.line
  settled : ∀ process ∈ processes, process.strayed = false →
    process.group = process.session ∧ process.foreign = false
  guarded : ∀ process ∈ processes, ∀ birth, process.deathSignal = some birth →
    process.warned = false → ∃ other ∈ processes,
      other.birth = birth ∧ other.pid = process.parent ∧ other.ended = none

end ProcessTable

structure ProcessTable where
  processes : List UnixProcess
  births : Nat
  wellFormed : ProcessTable.WellFormed births processes

namespace ProcessTable

variable {births : Nat} {processes : List UnixProcess} {process other : UnixProcess}

namespace WellFormed

theorem eq_of_pid (wellFormed : WellFormed births processes) (mem : process ∈ processes)
    (mem' : other ∈ processes) (same : process.pid = other.pid) : process = other :=
  List.inj_on_of_nodup_map wellFormed.distinct mem mem' same

theorem eq_of_birth (wellFormed : WellFormed births processes) (mem : process ∈ processes)
    (mem' : other ∈ processes) (same : process.birth = other.birth) : process = other :=
  List.inj_on_of_nodup_map wellFormed.unique mem mem' same

/-- The parent that a process finds is one that it comes from. -/
theorem parent_mem_line (wellFormed : WellFormed births processes) (mem : process ∈ processes)
    (isChild : process.line ≠ []) (mem' : other ∈ processes) (isParent : other.pid = process.parent) :
    other.birth ∈ process.line := by
  rcases wellFormed.parented process mem isChild with ⟨parent, memParent, samePid, _, inLine⟩
  have same : other = parent := wellFormed.eq_of_pid mem' memParent (isParent.trans samePid.symm)
  exact same ▸ inLine

theorem map {change : UnixProcess → UnixProcess} (wellFormed : WellFormed births processes)
    (keeps : ∀ process ∈ processes, process.Keeps processes (change process)) :
    WellFormed births (processes.map change) := by
  have pids : (processes.map change).map UnixProcess.pid = processes.map UnixProcess.pid := by
    rw [List.map_map]
    exact List.map_congr_left fun process mem => (keeps process mem).pid
  have birthsKept : (processes.map change).map UnixProcess.birth = processes.map UnixProcess.birth := by
    rw [List.map_map]
    exact List.map_congr_left fun process mem => (keeps process mem).birth
  constructor
  case distinct => rw [pids]; exact wellFormed.distinct
  case unique => rw [birthsKept]; exact wellFormed.unique
  all_goals simp only [List.forall_mem_map]
  case born =>
    intro process mem
    rw [(keeps process mem).birth]
    exact wellFormed.born process mem
  case older =>
    intro process mem
    rw [(keeps process mem).birth, (keeps process mem).line]
    exact wellFormed.older process mem
  case lineage =>
    intro process mem other mem'
    rw [(keeps process mem).line, (keeps other mem').birth, (keeps other mem').line]
    exact wellFormed.lineage process mem other mem'
  case parented =>
    intro process mem isChild
    rw [(keeps process mem).line] at isChild
    rcases wellFormed.parented process mem isChild with ⟨other, mem', isParent, lives, inLine⟩
    refine ⟨change other, List.mem_map_of_mem mem', ?_⟩
    rw [(keeps process mem).parent, (keeps process mem).line, (keeps other mem').pid,
      (keeps other mem').ended, (keeps other mem').birth]
    exact ⟨isParent, lives, inLine⟩
  case settled => exact fun process mem => (keeps process mem).settled
  case guarded =>
    intro process mem birth armed quiet
    rcases (keeps process mem).guarded birth armed quiet with ⟨other, mem', isParent⟩
    refine ⟨change other, List.mem_map_of_mem mem', ?_⟩
    rw [(keeps process mem).parent, (keeps other mem').pid, (keeps other mem').ended,
      (keeps other mem').birth]
    exact isParent

/-- A process forks. -/
theorem fork {pid : Nat} (wellFormed : WellFormed births processes) (mem : process ∈ processes)
    (acts : process.Acts) (free : ∀ other ∈ processes, other.pid ≠ pid) :
    WellFormed (births + 1) (process.child pid births :: processes) := by
  constructor
  all_goals simp only [List.map_cons, List.nodup_cons, List.forall_mem_cons]
  case distinct => exact ⟨by simpa [UnixProcess.child] using free, wellFormed.distinct⟩
  case unique =>
    refine ⟨?_, wellFormed.unique⟩
    simp only [List.mem_map, not_exists, not_and]
    intro other mem'
    have := wellFormed.born other mem'
    simp only [UnixProcess.child]
    omega
  case born =>
    refine ⟨by simp [UnixProcess.child], fun other mem' => ?_⟩
    have := wellFormed.born other mem'
    omega
  case older =>
    refine ⟨?_, wellFormed.older⟩
    simp only [UnixProcess.child, List.forall_mem_cons]
    refine ⟨wellFormed.born process mem, fun birth inLine => ?_⟩
    exact (wellFormed.older process mem birth inLine).trans (wellFormed.born process mem)
  case lineage =>
    have fresh : ∀ other ∈ processes, births ∉ other.line := by
      intro other mem' inLine
      have := wellFormed.older other mem' births inLine
      have := wellFormed.born other mem'
      omega
    have notOwn : births ∉ (process.child pid births).line := by
      have := wellFormed.born process mem
      simp only [UnixProcess.child, List.mem_cons, not_or]
      exact ⟨by omega, fresh process mem⟩
    refine ⟨⟨fun inLine => (notOwn inLine).elim, fun other mem' inLine => ?_⟩,
      fun other mem' => ⟨fun inLine => (fresh other mem' inLine).elim,
        wellFormed.lineage other mem'⟩⟩
    simp only [UnixProcess.child, List.mem_cons] at inLine ⊢
    rcases inLine with same | inLine
    · have same := wellFormed.eq_of_birth mem' mem same
      exact same ▸ List.subset_cons_self ..
    · exact fun birth inLine' =>
        List.mem_cons_of_mem _ (wellFormed.lineage process mem other mem' inLine inLine')
  case parented =>
    refine ⟨fun _ => ⟨process, List.mem_cons_of_mem _ mem, rfl, acts.1, List.mem_cons_self⟩, ?_⟩
    intro other mem' isChild
    rcases wellFormed.parented other mem' isChild with ⟨parent, memParent, isParent⟩
    exact ⟨parent, List.mem_cons_of_mem _ memParent, isParent⟩
  case settled => exact ⟨wellFormed.settled process mem, wellFormed.settled⟩
  case guarded =>
    refine ⟨by simp [UnixProcess.child], fun other mem' birth armed quiet => ?_⟩
    rcases wellFormed.guarded other mem' birth armed quiet with ⟨parent, memParent, isParent⟩
    exact ⟨parent, List.mem_cons_of_mem _ memParent, isParent⟩

/-- A process is removed when it has been waited for. -/
theorem erase {pid : Nat} (wellFormed : WellFormed births processes)
    (ended : ∀ process ∈ processes, process.pid = pid → process.ended ≠ none) :
    WellFormed births (processes.filter (·.pid ≠ pid)) := by
  have kept : ∀ process, process ∈ processes.filter (·.pid ≠ pid) → process ∈ processes :=
    fun process mem => List.mem_of_mem_filter mem
  have stays : ∀ process ∈ processes, process.ended = none →
      process ∈ processes.filter (·.pid ≠ pid) := by
    intro process mem lives
    apply List.mem_filter.mpr
    refine ⟨mem, ?_⟩
    simpa using fun same => ended process mem same lives
  constructor
  case distinct => exact wellFormed.distinct.sublist (List.filter_sublist.map _)
  case unique => exact wellFormed.unique.sublist (List.filter_sublist.map _)
  case born => exact fun process mem => wellFormed.born process (kept process mem)
  case older => exact fun process mem => wellFormed.older process (kept process mem)
  case lineage =>
    exact fun process mem other mem' =>
      wellFormed.lineage process (kept process mem) other (kept other mem')
  case parented =>
    intro process mem isChild
    rcases wellFormed.parented process (kept process mem) isChild with
      ⟨other, mem', isParent, lives, inLine⟩
    exact ⟨other, stays other mem' lives, isParent, lives, inLine⟩
  case settled => exact fun process mem => wellFormed.settled process (kept process mem)
  case guarded =>
    intro process mem birth armed quiet
    rcases wellFormed.guarded process (kept process mem) birth armed quiet with
      ⟨other, mem', isBirth, isParent, lives⟩
    exact ⟨other, stays other mem' lives, isBirth, isParent, lives⟩

/-- A process ends, and an adopter that it comes from takes its children. -/
theorem finish {dead adopter : UnixProcess} {status : Nat} (wellFormed : WellFormed births processes)
    (mem : dead ∈ processes) (memAdopter : adopter ∈ processes) (lives : adopter.ended = none)
    (above : adopter.birth ∈ dead.line) :
    WellFormed births (processes.map (dead.afterEnd status adopter.pid)) := by
  have pid : ∀ process, (dead.afterEnd status adopter.pid process).pid = process.pid := by
    intro process
    simp only [UnixProcess.afterEnd]
    split_ifs <;> rfl
  have birth : ∀ process, (dead.afterEnd status adopter.pid process).birth = process.birth := by
    intro process
    simp only [UnixProcess.afterEnd]
    split_ifs <;> rfl
  have line : ∀ process, (dead.afterEnd status adopter.pid process).line = process.line := by
    intro process
    simp only [UnixProcess.afterEnd]
    split_ifs <;> rfl
  have notAdopter : adopter.birth ≠ dead.birth := by
    have := wellFormed.older dead mem adopter.birth above
    omega
  -- A parent that is not the dead process lives on.
  have stays : ∀ other ∈ processes, other.pid ≠ dead.pid → other.ended = none →
      (dead.afterEnd status adopter.pid other).ended = none := by
    intro other mem' differs lives
    have : other.birth ≠ dead.birth :=
      fun same => differs (congrArg UnixProcess.pid (wellFormed.eq_of_birth mem' mem same))
    simp only [UnixProcess.afterEnd, if_neg this]
    split_ifs <;> exact lives
  constructor
  case distinct => simpa [List.map_map, Function.comp_def, pid] using wellFormed.distinct
  case unique => simpa [List.map_map, Function.comp_def, birth] using wellFormed.unique
  all_goals simp only [List.forall_mem_map, birth, line]
  case born => exact wellFormed.born
  case older => exact wellFormed.older
  case lineage => exact wellFormed.lineage
  case parented =>
    intro process memProcess isChild
    rcases wellFormed.parented process memProcess isChild with
      ⟨other, mem', isParent, otherLives, inLine⟩
    by_cases orphaned : process.parent = dead.pid ∧ process.birth ≠ dead.birth
    · have same : other = dead := wellFormed.eq_of_pid mem' mem (isParent.trans orphaned.1)
      refine ⟨_, List.mem_map_of_mem memAdopter, ?_⟩
      simp only [pid, birth]
      refine ⟨by simp [UnixProcess.afterEnd, orphaned.1, orphaned.2], ?_, ?_⟩
      · exact stays adopter memAdopter
          (fun same => notAdopter (congrArg UnixProcess.birth
            (wellFormed.eq_of_pid memAdopter mem same))) lives
      · exact wellFormed.lineage process memProcess dead mem (same ▸ inLine) above
    · refine ⟨_, List.mem_map_of_mem mem', ?_⟩
      simp only [pid, birth]
      have sameParent : (dead.afterEnd status adopter.pid process).parent = process.parent := by
        simp only [UnixProcess.afterEnd]
        split_ifs with isDead isChild
        · rfl
        · exact (orphaned ⟨isChild, isDead⟩).elim
        · rfl
      refine ⟨isParent.trans sameParent.symm, ?_, inLine⟩
      by_cases isDead : other.pid = dead.pid
      · have same : process = dead := by
          by_contra differs
          exact orphaned ⟨isParent.symm.trans isDead,
            fun same => differs (wellFormed.eq_of_birth memProcess mem same)⟩
        have := wellFormed.older dead mem other.birth (same ▸ inLine)
        have := congrArg UnixProcess.birth (wellFormed.eq_of_pid mem' mem isDead)
        omega
      · exact stays other mem' isDead otherLives
  case settled =>
    intro process memProcess
    simp only [UnixProcess.afterEnd]
    split_ifs <;> exact wellFormed.settled process memProcess
  case guarded =>
    intro process memProcess birth' armed quiet
    have notChild : process.birth = dead.birth ∨ process.parent ≠ dead.pid := by
      by_contra reached
      rw [not_or, not_not] at reached
      simp only [UnixProcess.afterEnd, if_neg reached.1, if_pos reached.2] at armed quiet
      simp [armed] at quiet
    have unchanged : (dead.afterEnd status adopter.pid process).parent = process.parent ∧
        process.deathSignal = some birth' ∧ process.warned = false := by
      simp only [UnixProcess.afterEnd] at armed quiet ⊢
      split_ifs at armed quiet ⊢ with isDead isChild
      · exact ⟨rfl, armed, quiet⟩
      · exact (notChild.elim isDead (· isChild)).elim
      · exact ⟨rfl, armed, quiet⟩
    rcases wellFormed.guarded process memProcess birth' unchanged.2.1 unchanged.2.2 with
      ⟨other, mem', isBirth, isParent, otherLives⟩
    have differs : other.pid ≠ dead.pid := by
      intro isDead
      rcases notChild with same | notChild
      · have same := wellFormed.eq_of_birth memProcess mem same
        have inLine := wellFormed.parent_mem_line mem (List.ne_nil_of_mem above) mem'
          (same ▸ isParent)
        have := wellFormed.older dead mem other.birth inLine
        have := congrArg UnixProcess.birth (wellFormed.eq_of_pid mem' mem isDead)
        omega
      · exact notChild (isParent.symm.trans isDead)
    refine ⟨_, List.mem_map_of_mem mem', ?_⟩
    simp only [pid, birth, unchanged.1]
    exact ⟨isBirth, isParent, stays other mem' differs otherLives⟩

/-- What does not touch the tree or the death signal is kept. -/
theorem keeps (wellFormed : WellFormed births processes) (mem : process ∈ processes)
    (pid : other.pid = process.pid) (parent : other.parent = process.parent)
    (birth : other.birth = process.birth) (line : other.line = process.line)
    (ended : other.ended = process.ended) (deathSignal : other.deathSignal = process.deathSignal)
    (warned : other.warned = process.warned)
    (settled : other.strayed = false → other.group = other.session ∧ other.foreign = false) :
    process.Keeps processes other where
  pid := pid
  parent := parent
  birth := birth
  line := line
  ended := ended
  settled := settled
  guarded birth armed quiet :=
    wellFormed.guarded process mem birth (deathSignal ▸ armed) (warned ▸ quiet)

theorem keeps_self (wellFormed : WellFormed births processes) (mem : process ∈ processes) :
    process.Keeps processes process :=
  wellFormed.keeps mem rfl rfl rfl rfl rfl rfl rfl (wellFormed.settled process mem)

theorem keeps_leads (wellFormed : WellFormed births processes) (mem : process ∈ processes) :
    process.Keeps processes process.leads :=
  wellFormed.keeps mem rfl rfl rfl rfl rfl rfl rfl fun strayed => ⟨rfl, strayed⟩

theorem keeps_joins (wellFormed : WellFormed births processes) (mem : process ∈ processes)
    (group : Nat) : process.Keeps processes (process.joins group) := by
  refine wellFormed.keeps mem rfl rfl rfl rfl rfl rfl rfl ?_
  intro strayed
  simp only [UnixProcess.joins, Bool.or_eq_false_iff, bne_eq_false_iff_eq] at strayed ⊢
  have settled := wellFormed.settled process mem strayed.1
  exact ⟨strayed.2.symm.trans settled.1, settled.2⟩

theorem keeps_runsAs (wellFormed : WellFormed births processes) (mem : process ∈ processes)
    (foreign : Bool) : process.Keeps processes (process.runsAs foreign) := by
  refine wellFormed.keeps mem rfl rfl rfl rfl rfl rfl rfl ?_
  intro strayed
  simp only [UnixProcess.runsAs, Bool.or_eq_false_iff] at strayed ⊢
  exact ⟨(wellFormed.settled process mem strayed.1).1, strayed.2⟩

theorem keeps_dooms (wellFormed : WellFormed births processes) (mem : process ∈ processes) :
    process.Keeps processes process.dooms :=
  wellFormed.keeps mem rfl rfl rfl rfl rfl rfl rfl (wellFormed.settled process mem)

/-- The signal is for the end of the parent that the process has now. -/
theorem keeps_arms (wellFormed : WellFormed births processes) (mem : process ∈ processes)
    (mem' : other ∈ processes) (isParent : other.pid = process.parent) (lives : other.ended = none) :
    process.Keeps processes (process.arms (some other.birth)) where
  pid := rfl
  parent := rfl
  birth := rfl
  line := rfl
  ended := rfl
  settled := wellFormed.settled process mem
  guarded _ armed _ := ⟨other, mem', Option.some.inj armed, isParent, lives⟩

end WellFormed

/-! ### Calls -/

/-- No process has the identifier, and no group or session is named by it. -/
def Free (table : ProcessTable) (pid : Nat) : Prop :=
  ∀ process ∈ table.processes, process.pid ≠ pid ∧ process.group ≠ pid ∧ process.session ≠ pid

instance (table : ProcessTable) (pid : Nat) : Decidable (table.Free pid) :=
  inferInstanceAs (Decidable (∀ process ∈ table.processes, _))

/-- The processes change, each for itself. -/
def revise (table : ProcessTable) (change : UnixProcess → UnixProcess)
    (keeps : ∀ process ∈ table.processes, process.Keeps table.processes (change process)) :
    ProcessTable where
  processes := table.processes.map change
  births := table.births
  wellFormed := table.wellFormed.map keeps

/-- One process changes. -/
def revise1 (table : ProcessTable) (birth : Nat) (change : UnixProcess → UnixProcess)
    (keeps : ∀ process ∈ table.processes, process.birth = birth →
      process.Keeps table.processes (change process)) : ProcessTable :=
  table.revise (fun process => if process.birth = birth then change process else process) (by
    intro process mem
    split_ifs with same
    · exact keeps process mem same
    · exact table.wellFormed.keeps_self mem)

/-- The process of a birth that is in the table. -/
def find (table : ProcessTable) (birth : Nat) : Option UnixProcess :=
  table.processes.find? (·.birth = birth)

/-- The process with an identifier. -/
def withPid (table : ProcessTable) (pid : Nat) : Option UnixProcess :=
  table.processes.find? (·.pid = pid)

/-- The members of a group. -/
def members (table : ProcessTable) (group : Nat) : List UnixProcess :=
  table.processes.filter (·.group = group)

/-- SIGKILL reaches the members of a group that may be signalled. -/
def killGroup (table : ProcessTable) (group : Nat) : ProcessTable :=
  table.revise
    (fun process => if process.group = group ∧ process.foreign = false then process.dooms else process)
    (by
      intro process mem
      split_ifs
      · exact table.wellFormed.keeps_dooms mem
      · exact table.wellFormed.keeps_self mem)

/-- The calls of a process that concern the table. -/
inductive SystemCall where
  | fork (pid : Nat)
  | setsid
  | setpgid (target group : Nat)
  | armDeathSignal
  | setUser (foreign : Bool)
  /-- SIGKILL for one process. -/
  | kill (target : Nat)
  | waitpid (child : Nat)

/-- `setpgid` moves the caller or a child of it, within its session. -/
def MayMove (table : ProcessTable) (caller target : UnixProcess) (group : Nat) : Prop :=
  (target.pid = caller.pid ∨ target.parent = caller.pid) ∧ target.session = caller.session ∧
    target.session ≠ target.pid ∧
    (group = target.pid ∨
      ∃ member ∈ table.processes, member.group = group ∧ member.session = caller.session)

instance (table : ProcessTable) (caller target : UnixProcess) (group : Nat) :
    Decidable (table.MayMove caller target group) :=
  inferInstanceAs (Decidable (_ ∧ _))

/-- A call of a process that runs; `none` where it fails. -/
def perform (table : ProcessTable) (caller : UnixProcess) (mem : caller ∈ table.processes)
    (acts : caller.Acts) : SystemCall → Option ProcessTable
  | .fork pid =>
      if free : table.Free pid then
        some {
          processes := caller.child pid table.births :: table.processes
          births := table.births + 1
          wellFormed := table.wellFormed.fork mem acts fun other mem' => (free other mem').1 }
      else none
  | .setsid =>
      if ∀ other ∈ table.processes, other.group ≠ caller.pid then
        some (table.revise1 caller.birth UnixProcess.leads fun _ mem _ =>
          table.wellFormed.keeps_leads mem)
      else none
  | .setpgid target group =>
      (table.withPid target).bind fun process =>
        if table.MayMove caller process group then
          some (table.revise1 process.birth (·.joins group) fun _ mem _ =>
            table.wellFormed.keeps_joins mem group)
        else none
  | .armDeathSignal =>
      match found : table.withPid caller.parent with
      | some parent =>
          if lives : parent.ended = none then
            some (table.revise1 caller.birth (·.arms (some parent.birth)) (by
              intro process mem' same
              have isCaller := table.wellFormed.eq_of_birth mem' mem same
              subst isCaller
              exact table.wellFormed.keeps_arms mem (List.mem_of_find?_eq_some found)
                (by simpa using List.find?_some found) lives))
          else none
      | none => none
  | .setUser foreign =>
      some (table.revise1 caller.birth (·.runsAs foreign) fun _ mem _ =>
        table.wellFormed.keeps_runsAs mem foreign)
  | .kill target =>
      (table.withPid target).map fun process =>
        table.revise1 process.birth UnixProcess.dooms fun _ mem _ =>
          table.wellFormed.keeps_dooms mem
  | .waitpid child =>
      if ended : (table.withPid child).isSome ∧ ∀ process ∈ table.processes, process.pid = child →
          process.parent = caller.pid ∧ process.ended ≠ none then
        some {
          processes := table.processes.filter (·.pid ≠ child)
          births := table.births
          wellFormed := table.wellFormed.erase fun process mem same =>
            (ended.2 process mem same).2 }
      else none

/-- A process ends, and a process that it comes from takes its children: a subreaper, or the first
process. (Only a process that was put into another PID namespace may be taken by one that it does not
come from; this is left out.) -/
def finish (table : ProcessTable) (dead adopter : UnixProcess) (status : Nat) :
    Option ProcessTable :=
  if ok : dead ∈ table.processes ∧ dead.ended = none ∧ adopter ∈ table.processes ∧
      adopter.ended = none ∧ adopter.birth ∈ dead.line then
    some {
      processes := table.processes.map (dead.afterEnd status adopter.pid)
      births := table.births
      wellFormed := table.wellFormed.finish ok.1 ok.2.2.1 ok.2.2.2.1 ok.2.2.2.2 }
  else none

/-! ### What can happen to a process -/

/-- What a call of one of the processes in question, the end of a process or a signal does to a
process that stays in the table. -/
inductive Change (table : ProcessTable) (may : UnixProcess → Prop) (process : UnixProcess) :
    UnixProcess → Prop where
  | same : Change table may process process
  | leads (mayCall : may process) (acts : process.Acts)
      (isNew : ∀ other ∈ table.processes, other.group ≠ process.pid) :
      Change table may process process.leads
  | joins {caller : UnixProcess} {group : Nat} (mem : caller ∈ table.processes)
      (mayCall : may caller) (moves : table.MayMove caller process group) :
      Change table may process (process.joins group)
  | arms {parent : UnixProcess} (mem : parent ∈ table.processes)
      (isParent : parent.pid = process.parent) :
      Change table may process (process.arms (some parent.birth))
  | runsAs (mayCall : may process) (foreign : Bool) :
      Change table may process (process.runsAs foreign)
  | dooms : Change table may process process.dooms
  | afterEnd {dead adopter : UnixProcess} {status : Nat} (mem : dead ∈ table.processes)
      (lives : dead.ended = none) :
      Change table may process (dead.afterEnd status adopter.pid process)

/-- What a step makes of a table. -/
structure Evolves (may : UnixProcess → Prop) (table after : ProcessTable) : Prop where
  births : table.births ≤ after.births
  origin : ∀ later ∈ after.processes,
    (∃ process ∈ table.processes, Change table may process later) ∨
      ∃ caller ∈ table.processes, may caller ∧ caller.Acts ∧
        ∃ pid, table.Free pid ∧ later = caller.child pid table.births
  stays : ∀ process ∈ table.processes,
    (∃ later ∈ after.processes, Change table may process later) ∨
      ∃ caller ∈ table.processes, may caller ∧ process.parent = caller.pid ∧ process.ended ≠ none
  /-- A process gets another parent when the one it had has ended. -/
  parents : ∀ process ∈ table.processes, ∀ later ∈ after.processes, later.birth = process.birth →
    later.parent = process.parent ∨
      ∀ parent ∈ after.processes, parent.pid = process.parent → parent.ended ≠ none

namespace Change

variable {table : ProcessTable} {may : UnixProcess → Prop} {later : UnixProcess}

theorem pid (change : Change table may process later) : later.pid = process.pid := by
  cases change with
  | afterEnd => simp only [UnixProcess.afterEnd]; split_ifs <;> rfl
  | _ => rfl

theorem birth (change : Change table may process later) : later.birth = process.birth := by
  cases change with
  | afterEnd => simp only [UnixProcess.afterEnd]; split_ifs <;> rfl
  | _ => rfl

theorem line (change : Change table may process later) : later.line = process.line := by
  cases change with
  | afterEnd => simp only [UnixProcess.afterEnd]; split_ifs <;> rfl
  | _ => rfl

end Change

variable {table after : ProcessTable} {caller : UnixProcess} {call : SystemCall}
  {may : UnixProcess → Prop}

/-- The change of one process is the change of a table. -/
theorem Evolves.of_map {change : UnixProcess → UnixProcess}
    (births : after.births = table.births)
    (processes : after.processes = table.processes.map change)
    (changes : ∀ process ∈ table.processes, Change table may process (change process))
    (parents : ∀ process ∈ table.processes, (change process).parent = process.parent ∨
      ∀ parent ∈ table.processes, parent.pid = process.parent → (change parent).ended ≠ none) :
    Evolves may table after where
  births := births.ge
  origin := by
    rw [processes, List.forall_mem_map]
    exact fun process mem => .inl ⟨process, mem, changes process mem⟩
  stays process mem := .inl ⟨change process, processes ▸ List.mem_map_of_mem mem, changes process mem⟩
  parents := by
    rw [processes]
    simp only [List.forall_mem_map]
    intro process mem other mem' same
    rw [(changes other mem').birth] at same
    rw [table.wellFormed.eq_of_birth mem' mem same]
    refine (parents process mem).imp_right fun ended parent memParent isParent => ?_
    rw [(changes parent memParent).pid] at isParent
    exact ended parent memParent isParent

theorem Evolves.of_revise1 {birth : Nat} {change : UnixProcess → UnixProcess}
    (keeps : ∀ process ∈ table.processes, process.birth = birth →
      process.Keeps table.processes (change process))
    (changes : ∀ process ∈ table.processes, process.birth = birth →
      Change table may process (change process)) :
    Evolves may table (table.revise1 birth change keeps) := by
  refine Evolves.of_map rfl rfl ?_ ?_
  · intro process mem
    split_ifs with same
    · exact changes process mem same
    · exact .same
  · intro process mem
    split_ifs with same
    · exact .inl (keeps process mem same).parent
    · exact .inl rfl

theorem Evolves.refl (table : ProcessTable) : Evolves may table table where
  births := le_rfl
  origin later mem := .inl ⟨later, mem, .same⟩
  stays process mem := .inl ⟨process, mem, .same⟩
  parents _ mem _ mem' same :=
    .inl (congrArg UnixProcess.parent (table.wellFormed.eq_of_birth mem' mem same))

theorem evolves_killGroup (table : ProcessTable) (group : Nat) :
    Evolves may table (table.killGroup group) := by
  refine Evolves.of_map rfl rfl ?_ ?_
  · intro process mem
    split_ifs
    · exact .dooms
    · exact .same
  · intro process mem
    split_ifs <;> exact .inl rfl

theorem evolves_finish {dead adopter : UnixProcess} {status : Nat}
    (finished : table.finish dead adopter status = some after) : Evolves may table after := by
  simp only [finish, Option.dite_none_right_eq_some, Option.some.injEq] at finished
  rcases finished with ⟨ok, rfl⟩
  refine Evolves.of_map rfl rfl (fun process _ => .afterEnd ok.1 ok.2.1) ?_
  intro process mem
  by_cases isChild : process.parent = dead.pid
  · refine .inr fun parent memParent isParent => ?_
    rw [table.wellFormed.eq_of_pid memParent ok.1 (isParent.trans isChild)]
    simp [UnixProcess.afterEnd]
  · left
    simp only [UnixProcess.afterEnd, if_neg isChild]
    split_ifs <;> rfl

theorem evolves_perform {mem : caller ∈ table.processes} {acts : caller.Acts} (mayCall : may caller)
    (performed : table.perform caller mem acts call = some after) : Evolves may table after := by
  have isCaller : ∀ process ∈ table.processes, process.birth = caller.birth → process = caller :=
    fun process mem' same => table.wellFormed.eq_of_birth mem' mem same
  cases call with
  | fork pid =>
      simp only [perform, Option.dite_none_right_eq_some, Option.some.injEq] at performed
      rcases performed with ⟨free, rfl⟩
      refine ⟨Nat.le_succ _, ?_, fun process mem' =>
        .inl ⟨process, List.mem_cons_of_mem _ mem', .same⟩, ?_⟩
      · simp only [List.forall_mem_cons]
        exact ⟨.inr ⟨caller, mem, mayCall, acts, pid, free, rfl⟩,
          fun later mem' => .inl ⟨later, mem', .same⟩⟩
      · intro process mem' later memLater same
        have wellFormed := table.wellFormed.fork mem acts fun other mem' => (free other mem').1
        left
        rw [wellFormed.eq_of_birth memLater (List.mem_cons_of_mem _ mem') same]
  | setsid =>
      simp only [perform, Option.ite_none_right_eq_some, Option.some.injEq] at performed
      rcases performed with ⟨isNew, rfl⟩
      apply Evolves.of_revise1
      intro process mem' same
      rw [isCaller process mem' same]
      exact .leads mayCall acts isNew
  | setpgid target group =>
      simp only [perform, Option.bind_eq_some_iff, Option.ite_none_right_eq_some,
        Option.some.injEq] at performed
      rcases performed with ⟨process, found, moves, rfl⟩
      apply Evolves.of_revise1
      intro other mem' same
      rw [table.wellFormed.eq_of_birth mem' (List.mem_of_find?_eq_some found) same]
      exact .joins mem mayCall moves
  | armDeathSignal =>
      simp only [perform] at performed
      split at performed
      · rename_i parent found
        simp only [Option.dite_none_right_eq_some, Option.some.injEq] at performed
        rcases performed with ⟨lives, rfl⟩
        apply Evolves.of_revise1
        intro process mem' same
        rw [isCaller process mem' same]
        exact .arms (List.mem_of_find?_eq_some found)
          (by simpa using List.find?_some found)
      · cases performed
  | setUser foreign =>
      simp only [perform, Option.some.injEq] at performed
      subst performed
      apply Evolves.of_revise1
      intro process mem' same
      rw [isCaller process mem' same]
      exact .runsAs mayCall foreign
  | kill target =>
      simp only [perform, Option.map_eq_some_iff] at performed
      rcases performed with ⟨process, found, rfl⟩
      exact Evolves.of_revise1 _ fun _ _ _ => .dooms
  | waitpid child =>
      simp only [perform, Option.dite_none_right_eq_some, Option.some.injEq] at performed
      rcases performed with ⟨ended, rfl⟩
      refine ⟨le_rfl, fun later mem' => .inl ⟨later, List.mem_of_mem_filter mem', .same⟩, ?_, ?_⟩
      · intro process mem'
        by_cases same : process.pid = child
        · exact .inr ⟨caller, mem, mayCall, ended.2 process mem' same⟩
        · exact .inl ⟨process, List.mem_filter.mpr ⟨mem', by simpa using same⟩, .same⟩
      · intro process mem' later memLater same
        left
        rw [table.wellFormed.eq_of_birth (List.mem_of_mem_filter memLater) mem' same]

/-- A caller of no consequence arms its death signal. -/
theorem evolves_armDeathSignal {mem : caller ∈ table.processes} {acts : caller.Acts}
    (performed : table.perform caller mem acts .armDeathSignal = some after) :
    Evolves may table after := by
  simp only [perform] at performed
  split at performed
  · rename_i parent found
    simp only [Option.dite_none_right_eq_some, Option.some.injEq] at performed
    rcases performed with ⟨lives, rfl⟩
    apply Evolves.of_revise1
    intro process mem' same
    rw [table.wellFormed.eq_of_birth mem' mem same]
    exact .arms (List.mem_of_find?_eq_some found) (by simpa using List.find?_some found)
  · cases performed

/-! ### The death signal -/

/-- The process of a birth is to be sent its death signal as before, and whether it has been sent is
as before or has changed as given. -/
def KeepsSignal (relation : Bool → Bool → Prop) (table after : ProcessTable) (birth : Nat) : Prop :=
  ∀ process ∈ table.processes, process.birth = birth → ∀ later ∈ after.processes,
    later.birth = birth → later.line = process.line ∧ later.deathSignal = process.deathSignal ∧
      relation process.warned later.warned

theorem KeepsSignal.refl (table : ProcessTable) (birth : Nat) :
    KeepsSignal (· = ·) table table birth := by
  intro process mem same later memLater same'
  rw [table.wellFormed.eq_of_birth memLater mem (same'.trans same.symm)]
  exact ⟨rfl, rfl, rfl⟩

theorem KeepsSignal.of_map {relation : Bool → Bool → Prop} {birth : Nat}
    {change : UnixProcess → UnixProcess}
    (processes : after.processes = table.processes.map change)
    (keeps : ∀ process ∈ table.processes, (change process).birth = process.birth ∧
      (process.birth = birth → (change process).line = process.line ∧
        (change process).deathSignal = process.deathSignal ∧
        relation process.warned (change process).warned)) :
    KeepsSignal relation table after birth := by
  intro process mem same
  rw [processes]
  simp only [List.forall_mem_map]
  intro other mem' same'
  rw [(keeps other mem').1] at same'
  rw [table.wellFormed.eq_of_birth mem' mem (same'.trans same.symm)]
  exact (keeps process mem).2 same

theorem keepsSignal_killGroup (table : ProcessTable) (group birth : Nat) :
    KeepsSignal (· = ·) table (table.killGroup group) birth := by
  apply KeepsSignal.of_map rfl
  intro process _
  split_ifs <;> exact ⟨rfl, fun _ => ⟨rfl, rfl, rfl⟩⟩

theorem keepsSignal_finish {dead adopter : UnixProcess} {status birth : Nat}
    (finished : table.finish dead adopter status = some after) :
    KeepsSignal (· ≤ ·) table after birth := by
  simp only [finish, Option.dite_none_right_eq_some, Option.some.injEq] at finished
  rcases finished with ⟨ok, rfl⟩
  apply KeepsSignal.of_map rfl
  intro process _
  simp only [UnixProcess.afterEnd]
  split_ifs
  · exact ⟨rfl, fun _ => ⟨rfl, rfl, le_rfl⟩⟩
  · exact ⟨rfl, fun _ => ⟨rfl, rfl, Bool.le_iff_imp.mpr fun warned => by simp [warned]⟩⟩
  · exact ⟨rfl, fun _ => ⟨rfl, rfl, le_rfl⟩⟩

/-- Only a process itself changes when it is to be sent its death signal. -/
theorem keepsSignal_perform {mem : caller ∈ table.processes} {acts : caller.Acts} {birth : Nat}
    (other : call ≠ .armDeathSignal ∨ caller.birth ≠ birth)
    (performed : table.perform caller mem acts call = some after) :
    KeepsSignal (· = ·) table after birth := by
  cases call with
  | fork pid =>
      simp only [perform, Option.dite_none_right_eq_some, Option.some.injEq] at performed
      rcases performed with ⟨free, rfl⟩
      intro process mem' same later memLater same'
      have wellFormed := table.wellFormed.fork mem acts fun other mem' => (free other mem').1
      rw [wellFormed.eq_of_birth memLater (List.mem_cons_of_mem _ mem') (same'.trans same.symm)]
      exact ⟨rfl, rfl, rfl⟩
  | setsid =>
      simp only [perform, Option.ite_none_right_eq_some, Option.some.injEq] at performed
      rcases performed with ⟨-, rfl⟩
      apply KeepsSignal.of_map rfl
      intro process _
      split_ifs <;> exact ⟨rfl, fun _ => ⟨rfl, rfl, rfl⟩⟩
  | setpgid target group =>
      simp only [perform, Option.bind_eq_some_iff, Option.ite_none_right_eq_some,
        Option.some.injEq] at performed
      rcases performed with ⟨process, -, -, rfl⟩
      apply KeepsSignal.of_map rfl
      intro process _
      split_ifs <;> exact ⟨rfl, fun _ => ⟨rfl, rfl, rfl⟩⟩
  | armDeathSignal =>
      have differs := other.resolve_left (by simp)
      simp only [perform] at performed
      split at performed
      · simp only [Option.dite_none_right_eq_some, Option.some.injEq] at performed
        rcases performed with ⟨_, rfl⟩
        apply KeepsSignal.of_map rfl
        intro process _
        split_ifs with same
        · exact ⟨rfl, fun isBirth => (differs (same.symm.trans isBirth)).elim⟩
        · exact ⟨rfl, fun _ => ⟨rfl, rfl, rfl⟩⟩
      · cases performed
  | setUser foreign =>
      simp only [perform, Option.some.injEq] at performed
      subst performed
      apply KeepsSignal.of_map rfl
      intro process _
      split_ifs <;> exact ⟨rfl, fun _ => ⟨rfl, rfl, rfl⟩⟩
  | kill target =>
      simp only [perform, Option.map_eq_some_iff] at performed
      rcases performed with ⟨process, -, rfl⟩
      apply KeepsSignal.of_map rfl
      intro process _
      split_ifs <;> exact ⟨rfl, fun _ => ⟨rfl, rfl, rfl⟩⟩
  | waitpid child =>
      simp only [perform, Option.dite_none_right_eq_some, Option.some.injEq] at performed
      rcases performed with ⟨_, rfl⟩
      intro process mem' same later memLater same'
      rw [table.wellFormed.eq_of_birth (List.mem_of_mem_filter memLater) mem'
        (same'.trans same.symm)]
      exact ⟨rfl, rfl, rfl⟩

/-- A process that has found its parent under the identifier that it expects, after it has asked
for the signal, has been sent the signal unless that parent lives. -/
theorem warned_or_parent {expected parentBirth : Nat} (mem : process ∈ table.processes)
    (isChild : process.line ≠ []) (armed : process.deathSignal ≠ none)
    (isExpected : process.parent = expected)
    (known : ∀ other ∈ table.processes, other.birth < process.birth → other.pid = expected →
      other.birth = parentBirth) :
    process.warned = true ∨ process.deathSignal = some parentBirth := by
  rcases Option.ne_none_iff_exists'.mp armed with ⟨birth, armed⟩
  by_cases warned : process.warned = true
  · exact .inl warned
  · right
    rcases table.wellFormed.guarded process mem birth armed (by simpa using warned) with
      ⟨parent, memParent, isBirth, isParent, -⟩
    have inLine := table.wellFormed.parent_mem_line mem isChild memParent isParent
    have older := table.wellFormed.older process mem parent.birth inLine
    rw [armed, ← isBirth, known parent memParent older (isParent.trans isExpected)]

/-! ### Sessions -/

/-- Who is in the group is in the session, and who is in the session comes from its leader. -/
def Enclosed (table : ProcessTable) (pid birth : Nat) : Prop :=
  ∀ process ∈ table.processes, (process.group = pid → process.session = pid) ∧
    (process.session = pid → process.From birth)

/-- No group or session has the name. -/
def Unnamed (table : ProcessTable) (pid : Nat) : Prop :=
  ∀ process ∈ table.processes, process.group ≠ pid ∧ process.session ≠ pid

/-- None of the processes in question moves the process. -/
def Unmoved (table : ProcessTable) (may : UnixProcess → Prop) (process : UnixProcess) : Prop :=
  ∀ caller ∈ table.processes, may caller →
    caller.pid ≠ process.pid ∧ caller.pid ≠ process.parent

theorem Unnamed.enclosed {pid birth : Nat} (unnamed : table.Unnamed pid) :
    table.Enclosed pid birth :=
  fun process mem => ⟨fun same => ((unnamed process mem).1 same).elim,
    fun same => ((unnamed process mem).2 same).elim⟩

/-- A session does not let anybody in. -/
theorem Enclosed.evolves {leader : UnixProcess} (enclosed : table.Enclosed leader.pid leader.birth)
    (evolves : Evolves may table after) (memLeader : leader ∈ table.processes)
    (stays : leader.session = leader.pid ∨ table.Unmoved may leader) :
    after.Enclosed leader.pid leader.birth := by
  intro later memLater
  rcases evolves.origin later memLater with
    ⟨process, mem, change⟩ | ⟨caller, mem, -, -, pid, -, rfl⟩
  · have before := enclosed process mem
    cases change with
    | leads =>
        refine ⟨id, fun same => .inl ?_⟩
        have isLeader : process = leader := table.wellFormed.eq_of_pid mem memLeader same
        exact isLeader ▸ rfl
    | joins memCaller mayCall moves =>
        rename_i caller group
        refine ⟨fun same => ?_, before.2⟩
        change group = leader.pid at same
        change process.session = leader.pid
        rcases moves with ⟨reach, sameSession, notLeader, named | ⟨member, memMember, inGroup, session⟩⟩
        · have isLeader := table.wellFormed.eq_of_pid mem memLeader (named.symm.trans same)
          subst isLeader
          rcases stays with leads | unmoved
          · exact leads
          · have := unmoved caller memCaller mayCall
            rcases reach with reach | reach
            · exact (this.1 reach.symm).elim
            · exact (this.2 reach.symm).elim
        · rw [sameSession, ← session]
          exact (enclosed member memMember).1 (inGroup.trans same)
    | afterEnd => simp only [UnixProcess.afterEnd]; split_ifs <;> exact before
    | _ => exact before
  · have before := enclosed caller mem
    refine ⟨before.1, fun same => .inr ?_⟩
    rcases before.2 same with same | inLine
    · exact same ▸ List.mem_cons_self
    · exact List.mem_cons_of_mem _ inLine

theorem Unnamed.evolves {leader : UnixProcess} (unnamed : table.Unnamed leader.pid)
    (evolves : Evolves may table after) (memLeader : leader ∈ table.processes)
    (unmoved : table.Unmoved may leader) : after.Unnamed leader.pid := by
  intro later memLater
  rcases evolves.origin later memLater with
    ⟨process, mem, change⟩ | ⟨caller, mem, -, -, pid, -, rfl⟩
  · have before := unnamed process mem
    cases change with
    | leads mayCall =>
        have differs := (unmoved process mem mayCall).1
        exact ⟨differs, differs⟩
    | joins memCaller mayCall moves =>
        rename_i caller group
        refine ⟨fun same => ?_, before.2⟩
        change group = leader.pid at same
        rcases moves with ⟨reach, -, -, named | ⟨member, memMember, inGroup, -⟩⟩
        · have isLeader := table.wellFormed.eq_of_pid mem memLeader (named.symm.trans same)
          subst isLeader
          have := unmoved caller memCaller mayCall
          rcases reach with reach | reach
          · exact this.1 reach.symm
          · exact this.2 reach.symm
        · exact (unnamed member memMember).1 (inGroup.trans same)
    | afterEnd => simp only [UnixProcess.afterEnd]; split_ifs <;> exact before
    | _ => exact before
  · exact unnamed caller mem

/-- Everybody in the session is dead, about to be, or has strayed. -/
def Swept (table : ProcessTable) (session : Nat) : Prop :=
  ∀ process ∈ table.processes, process.session = session →
    process.ended ≠ none ∨ process.doomed = true ∨ process.strayed = true

/-- The group of a session is all that has not strayed. -/
theorem swept_killGroup (table : ProcessTable) (session : Nat) :
    (table.killGroup session).Swept session := by
  simp only [Swept, killGroup, revise, List.forall_mem_map]
  intro process mem
  split_ifs with inGroup
  · exact fun _ => .inr (.inl rfl)
  · intro same
    right; right
    by_contra settled
    have settled := table.wellFormed.settled process mem (by simpa using settled)
    exact inGroup ⟨settled.1.trans same, settled.2⟩

/-- A swept session whose leader has ended stays so. -/
theorem Swept.evolves {leader : UnixProcess} (swept : table.Swept leader.pid)
    (evolves : Evolves may table after) (memLeader : leader ∈ table.processes)
    (ended : leader.ended ≠ none) : after.Swept leader.pid := by
  intro later memLater
  rcases evolves.origin later memLater with
    ⟨process, mem, change⟩ | ⟨caller, mem, -, acts, pid, -, rfl⟩
  · have before := swept process mem
    cases change with
    | leads _ acts =>
        intro same
        have isLeader : process = leader := table.wellFormed.eq_of_pid mem memLeader same
        exact (ended (isLeader ▸ acts.1)).elim
    | joins => exact fun same => (before same).imp_right (.imp_right (by simp [UnixProcess.joins, ·]))
    | runsAs => exact fun same => (before same).imp_right (.imp_right (by simp [UnixProcess.runsAs, ·]))
    | dooms => exact fun _ => .inr (.inl rfl)
    | afterEnd =>
        simp only [UnixProcess.afterEnd]
        split_ifs
        · exact fun _ => .inl (by simp)
        · exact before
        · exact before
    | _ => exact before
  · intro same
    right; right
    rcases swept caller mem same with dead | doomed | strayed
    · exact (dead acts.1).elim
    · simp [acts.2] at doomed
    · exact strayed

end ProcessTable

end Longrun
