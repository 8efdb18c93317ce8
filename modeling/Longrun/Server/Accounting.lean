import Longrun.Server.Execution
import Longrun.Server.Hosts

/-!
# The account of active jobs

A job counts as active while a record says so and the server that has accepted it runs. Here is what
the steps of a task do to this account, and what the other tasks may rely on.
-/

namespace Longrun.Server

/-- The record of a job that is not over. -/
def IsActive (record : Json) : Prop := activeJobStates.any (record.get "state").isStr = true

instance instDecidableIsActive (record : Json) : Decidable (IsActive record) :=
  inferInstanceAs (Decidable (_ = _))

/-- The record names the process that has accepted the job. -/
structure NamesServer (identity : ProcessIdentity) (record : Json) : Prop where
  pid : record.get "server_pid" = .int identity.1
  startTicks : record.get "server_start_ticks" = .str identity.2

namespace Directory

variable (directory : Directory)

/-- The server that has accepted the job runs. -/
def Serves (jobId : String) : Prop :=
  ∃ identity, directory.servers jobId = some identity ∧ directory.Lives identity

/-- The record is stored, or the holder of the lock may still write it back. -/
def Holds (jobId : String) (record : Json) : Prop :=
  directory.files.get? jobId = some record ∨ directory.reading = some (jobId, record)

def HasActive (jobId : String) : Prop :=
  ∃ record, directory.files.get? jobId = some record ∧ IsActive record

instance instDecidableHasActive (jobId : String) : Decidable (directory.HasActive jobId) :=
  decidable_of_iff (((directory.files.get? jobId).any fun record => decide (IsActive record)) = true)
    (by simp [HasActive, Option.any_eq_true])

def Counted (jobId : String) : Prop :=
  directory.Serves jobId ∧ ∃ record, directory.Holds jobId record ∧ IsActive record

variable {directory} {jobId : String}

theorem HasActive.counted (active : directory.HasActive jobId) (serves : directory.Serves jobId) :
    directory.Counted jobId := by
  rcases active with ⟨record, stored, isActive⟩
  exact ⟨serves, record, .inl stored, isActive⟩

theorem serves_iff_runs {task : Nat} (same : directory.servers jobId = directory.serverOf task) :
    directory.Serves jobId ↔ directory.Runs task := by
  simp [Serves, Runs, same]

end Directory

open Directory

/-- The request passes the validation of the server. -/
def Host.Accepts (host : Host) (settings : Settings) (job : JobRequest) : Prop :=
  ∃ cwd argv successContains failureContains secret,
    host.resolveCwd job.cwd = .ok cwd ∧ host.validateArgv job.argv cwd = .ok argv ∧
      job.timeoutSec ≤ settings.maxTimeoutSec ∧
        validateMatchText job.successContains "success_contains" = .ok successContains ∧
          validateMatchText job.failureContains "failure_contains" = .ok failureContains ∧
            validateSecretInputs job.stdinSecretId job.stdinSecretIds successContains
              failureContains = .ok secret

/-- A background task that has not begun. Its job is reserved unless it will be rejected. -/
structure Awaits (host : Host) (directory : Directory) (settings : Settings)
    (background : BackgroundJob) : Prop where
  holder : directory.holders background.job.jobId = some .waiting
  server : directory.servers background.job.jobId = settings.identity
  active : host.Accepts settings background.job → directory.Serves background.job.jobId →
    directory.HasActive background.job.jobId
  wake : WakeFields background.wakeMetadata

/-- What holds of the state directory whatever the order of the steps. -/
structure Inv (host : Host) (directory : Directory) : Prop where
  within : {jobId | directory.Counted jobId}.encard ≤ host.maxActiveJobs
  owned : ∀ {jobId record}, directory.Holds jobId record → IsActive record →
    ∃ identity, directory.servers jobId = some identity ∧ NamesServer identity record
  issued : ∀ {jobId holder}, directory.holders jobId = some holder →
    ∃ identity, directory.servers jobId = some identity
  bornServer : ∀ {jobId identity}, directory.servers jobId = some identity →
    identity ∈ directory.born
  bornTask : ∀ {task identity}, directory.serverOf task = some identity → identity ∈ directory.born
  bornProcess : ∀ {identity}, directory.Lives identity → identity ∈ directory.born
  waits : ∀ entry ∈ directory.waiting, Awaits host directory entry.1 entry.2
  distinct : (directory.waiting.map fun entry => entry.2.job.jobId).Nodup

/-- What a task may rely on while others act. -/
structure Relies (task : Nat) (before after : Directory) : Prop where
  settings : after.settings task = before.settings task
  runs : after.Runs task → before.Runs task
  locked : after.Runs task → before.lock = some task →
    after.lock = some task ∧ after.reading = before.reading ∧
      ∀ jobId, after.Counted jobId → before.Counted jobId
  servers : ∀ {jobId identity}, before.servers jobId = some identity →
    after.servers jobId = some identity
  holders : ∀ {jobId}, before.holders jobId = some (.task task) →
    after.holders jobId = some (.task task)
  active : ∀ {jobId}, after.Runs task → before.holders jobId = some (.task task) →
    before.servers jobId = before.serverOf task → before.HasActive jobId → after.HasActive jobId

theorem Relies.refl (task : Nat) (directory : Directory) : Relies task directory directory where
  settings := rfl
  runs running := running
  locked _ holds := ⟨holds, rfl, fun _ counted => counted⟩
  servers found := found
  holders found := found
  active _ _ _ active := active

theorem Relies.trans {task : Nat} {first middle last : Directory} (before : Relies task first middle)
    (after : Relies task middle last) : Relies task first last where
  settings := after.settings.trans before.settings
  runs running := before.runs (after.runs running)
  locked running holds := by
    have held := before.locked (after.runs running) holds
    have kept := after.locked running held.1
    exact ⟨kept.1, kept.2.1.trans held.2.1, fun jobId counted => held.2.2 jobId (kept.2.2 jobId counted)⟩
  servers found := after.servers (before.servers found)
  holders found := after.holders (before.holders found)
  active running holder sameServer active := by
    have running' := after.runs running
    apply after.active running (before.holders holder) _ (before.active running' holder sameServer active)
    rcases running' with ⟨identity, isServer, lives⟩
    have sameTask : middle.serverOf task = first.serverOf task :=
      congrArg (·.bind Settings.identity) before.settings
    have isServer : middle.serverOf task = some identity := isServer
    rw [isServer]
    apply before.servers
    rw [sameServer, ← sameTask, isServer]

section Steps

variable {host : Host} {directory : Directory} {task other : Nat} {jobId : String}

/-! ### The lock -/

/-- What changes at the lock only. -/
def Directory.relock (directory : Directory) (lock : Option Nat) (reading : Option (String × Json)) :
    Directory :=
  { directory with lock := lock, reading := reading }

section Relock

variable {lock : Option Nat} {reading : Option (String × Json)}
  (stored : ∀ {jobId record}, reading = some (jobId, record) → directory.files.get? jobId = some record)

include stored

theorem Directory.Holds.of_relock {record : Json} (holds : (directory.relock lock reading).Holds jobId record) :
    directory.Holds jobId record := by
  rcases holds with inFile | wasRead
  · exact .inl inFile
  · exact .inl (stored wasRead)

theorem Directory.Counted.of_relock (counted : (directory.relock lock reading).Counted jobId) :
    directory.Counted jobId := by
  rcases counted with ⟨serves, record, holds, isActive⟩
  exact ⟨serves, record, Holds.of_relock stored holds, isActive⟩

theorem Inv.relock (inv : Inv host directory) : Inv host (directory.relock lock reading) where
  within := (Set.encard_le_encard fun _ counted => Counted.of_relock stored counted).trans inv.within
  owned holds := inv.owned (Holds.of_relock stored holds)
  issued := inv.issued
  bornServer := inv.bornServer
  bornTask := inv.bornTask
  bornProcess := inv.bornProcess
  waits entry mem := by
    have waits := inv.waits entry mem
    exact ⟨waits.holder, waits.server, waits.active, waits.wake⟩
  distinct := inv.distinct

end Relock

theorem Relies.relock {lock : Option Nat} {reading : Option (String × Json)}
    (free : directory.Runs other → directory.lock ≠ some other) :
    Relies other directory (directory.relock lock reading) where
  settings := rfl
  runs running := running
  locked running holds := absurd holds (free running)
  servers found := found
  holders found := found
  active _ _ _ active := active

/-! ### Writing -/

section Write

variable {record : Json}

/-- A task may write the record: it names the server of the job, there is room for a job that was not
counted, and nobody else's job is ended. -/
structure Writable (host : Host) (directory : Directory) (task : Nat) (jobId : String)
    (record : Json) : Prop where
  owned : IsActive record →
    ∃ identity, directory.servers jobId = some identity ∧ NamesServer identity record
  counted : IsActive record → directory.Serves jobId → directory.Counted jobId ∨
    directory.lock = some task ∧ {jobId | directory.Counted jobId}.encard < host.maxActiveJobs
  kept : directory.Serves jobId → directory.HasActive jobId →
    directory.holders jobId ≠ some (.task task) → IsActive record

theorem Directory.Holds.of_write {counted : String} {held : Json}
    (holds : (directory.write jobId record).Holds counted held) :
    directory.Holds counted held ∨ counted = jobId ∧ held = record := by
  rcases holds with inFile | wasRead
  · rw [Directory.write, Dict.get?_set] at inFile
    by_cases same : counted = jobId
    · rw [if_pos same, Option.some.injEq] at inFile
      exact .inr ⟨same, inFile.symm⟩
    · rw [if_neg same] at inFile
      exact .inl (.inl inFile)
  · exact .inl (.inr wasRead)

theorem Directory.Counted.of_write {counted : String}
    (isCounted : (directory.write jobId record).Counted counted) :
    directory.Counted counted ∨ counted = jobId ∧ IsActive record ∧ directory.Serves jobId := by
  rcases isCounted with ⟨serves, held, holds, isActive⟩
  rcases Holds.of_write holds with before | ⟨rfl, rfl⟩
  · exact .inl ⟨serves, held, before, isActive⟩
  · exact .inr ⟨rfl, isActive, serves⟩

theorem Directory.HasActive.write {active : String} (hasActive : directory.HasActive active)
    (isActive : active = jobId → IsActive record) : (directory.write jobId record).HasActive active := by
  by_cases same : active = jobId
  · subst same
    exact ⟨record, Dict.get?_set_self .., isActive rfl⟩
  · rcases hasActive with ⟨stored, inFile, storedActive⟩
    exact ⟨stored, (Dict.get?_set_of_ne _ _ same).trans inFile, storedActive⟩

theorem Writable.within (writable : Writable host directory task jobId record)
    (inv : Inv host directory) :
    {counted | (directory.write jobId record).Counted counted}.encard ≤ host.maxActiveJobs := by
  by_cases grows : IsActive record ∧ directory.Serves jobId ∧ ¬directory.Counted jobId
  · rcases writable.counted grows.1 grows.2.1 with isCounted | ⟨-, room⟩
    · exact absurd isCounted grows.2.2
    · have bounded : {counted | (directory.write jobId record).Counted counted} ⊆
          insert jobId {counted | directory.Counted counted} := by
        intro counted isCounted
        rcases Counted.of_write isCounted with before | ⟨same, -⟩
        · exact .inr before
        · exact .inl same
      calc
        _ ≤ (insert jobId {counted | directory.Counted counted}).encard := Set.encard_le_encard bounded
        _ ≤ {counted | directory.Counted counted}.encard + 1 := Set.encard_insert_le _ _
        _ ≤ host.maxActiveJobs := Order.add_one_le_of_lt room
  · refine (Set.encard_le_encard ?_).trans inv.within
    intro counted isCounted
    rcases Counted.of_write isCounted with before | ⟨rfl, isActive, serves⟩
    · exact before
    · by_contra notCounted
      exact grows ⟨isActive, serves, notCounted⟩

theorem Inv.write (inv : Inv host directory)
    (writable : Writable host directory task jobId record) :
    Inv host (directory.write jobId record) where
  within := writable.within inv
  owned holds isActive := by
    rcases Holds.of_write holds with before | ⟨rfl, rfl⟩
    · exact inv.owned before isActive
    · exact writable.owned isActive
  issued := inv.issued
  bornServer := inv.bornServer
  bornTask := inv.bornTask
  bornProcess := inv.bornProcess
  waits entry mem := by
    have waits := inv.waits entry mem
    refine ⟨waits.holder, waits.server, ?_, waits.wake⟩
    intro accepts serves
    have hasActive := waits.active accepts serves
    apply hasActive.write
    rintro rfl
    apply writable.kept serves hasActive
    simp [waits.holder]
  distinct := inv.distinct

theorem Relies.write (different : other ≠ task)
    (writable : Writable host directory task jobId record) :
    Relies other directory (directory.write jobId record) where
  settings := rfl
  runs running := running
  locked _ holds := by
    refine ⟨holds, rfl, ?_⟩
    intro counted isCounted
    rcases Counted.of_write isCounted with before | ⟨rfl, isActive, serves⟩
    · exact before
    · rcases writable.counted isActive serves with before | ⟨mine, -⟩
      · exact before
      · rw [holds, Option.some.injEq] at mine
        exact absurd mine different
  servers found := found
  holders found := found
  active running holder sameServer active := by
    apply active.write
    rintro rfl
    apply writable.kept ((serves_iff_runs sameServer).mpr running) active
    rw [holder]
    simpa using different

end Write

/-! ### Jobs and their tasks -/

section Jobs

variable {settings : Settings} {background : BackgroundJob} {index : Nat}

/-- A job that was not issued has no active record. -/
theorem Inv.not_holds (inv : Inv host directory) (fresh : directory.servers jobId = none) {record : Json}
    (holds : directory.Holds jobId record) : ¬IsActive record := by
  intro isActive
  rcases inv.owned holds isActive with ⟨identity, found, -⟩
  simp [fresh] at found

theorem Directory.servers_issue {issued : String} (different : issued ≠ jobId) :
    (directory.issue task jobId).servers issued = directory.servers issued :=
  Function.update_of_ne different ..

theorem Directory.Counted.of_issue {counted : String} (inv : Inv host directory)
    (fresh : directory.servers jobId = none)
    (isCounted : (directory.issue task jobId).Counted counted) : directory.Counted counted := by
  rcases isCounted with ⟨⟨identity, found, lives⟩, record, holds, isActive⟩
  have holds : directory.Holds counted record := holds
  by_cases same : counted = jobId
  · subst same
    exact absurd isActive (inv.not_holds fresh holds)
  · rw [servers_issue same] at found
    exact ⟨⟨identity, found, lives⟩, record, holds, isActive⟩

theorem Inv.issue (inv : Inv host directory) (fresh : directory.servers jobId = none)
    (runs : directory.Runs task) : Inv host (directory.issue task jobId) where
  within := (Set.encard_le_encard fun _ => Counted.of_issue inv fresh).trans inv.within
  owned {counted record} holds isActive := by
    have holds : directory.Holds counted record := holds
    have different : counted ≠ jobId := by
      rintro rfl
      exact inv.not_holds fresh holds isActive
    rw [servers_issue different]
    exact inv.owned holds isActive
  issued {issued holder} found := by
    by_cases same : issued = jobId
    · rcases runs with ⟨identity, isServer, -⟩
      exact ⟨identity, by simpa [Directory.issue, same] using isServer⟩
    · rw [servers_issue same]
      exact inv.issued ((Function.update_of_ne same ..).symm.trans found)
  bornServer {issued identity} found := by
    by_cases same : issued = jobId
    · exact inv.bornTask (by simpa [Directory.issue, same] using found)
    · rw [servers_issue same] at found
      exact inv.bornServer found
  bornTask := inv.bornTask
  bornProcess := inv.bornProcess
  waits entry mem := by
    have waits := inv.waits entry mem
    have different : entry.2.job.jobId ≠ jobId := by
      intro same
      rcases inv.issued waits.holder with ⟨identity, found⟩
      simp [same, fresh] at found
    refine ⟨(Function.update_of_ne different ..).trans waits.holder,
      (servers_issue different).trans waits.server, ?_, waits.wake⟩
    rintro accepts ⟨identity, found, lives⟩
    rw [servers_issue different] at found
    exact waits.active accepts ⟨identity, found, lives⟩
  distinct := inv.distinct

theorem Relies.issue (inv : Inv host directory) (fresh : directory.servers jobId = none) :
    Relies other directory (directory.issue task jobId) where
  settings := rfl
  runs running := running
  locked _ holds := ⟨holds, rfl, fun _ => Counted.of_issue inv fresh⟩
  servers {issued identity} found := by
    rw [servers_issue (by rintro rfl; simp [fresh] at found), found]
  holders {issued} found := by
    have different : issued ≠ jobId := by
      rintro rfl
      rcases inv.issued found with ⟨identity, isServer⟩
      simp [fresh] at isServer
    exact (Function.update_of_ne different ..).trans found
  active _ _ _ active := active

theorem Inv.create (inv : Inv host directory)
    (mine : directory.holders background.job.jobId = some (.task task))
    (server : directory.servers background.job.jobId = settings.identity)
    (active : host.Accepts settings background.job → directory.Serves background.job.jobId →
      directory.HasActive background.job.jobId) (wake : WakeFields background.wakeMetadata) :
    Inv host (directory.create settings background) where
  within := inv.within
  owned := inv.owned
  issued {issued holder} found := by
    by_cases same : issued = background.job.jobId
    · rcases inv.issued mine with ⟨identity, isServer⟩
      exact ⟨identity, by rw [same]; exact isServer⟩
    · exact inv.issued ((Function.update_of_ne same ..).symm.trans found)
  bornServer := inv.bornServer
  bornTask := inv.bornTask
  bornProcess := inv.bornProcess
  waits entry mem := by
    rcases List.mem_append.mp mem with old | new
    · have waits := inv.waits entry old
      have different : entry.2.job.jobId ≠ background.job.jobId := by
        intro same
        simp [← same, waits.holder] at mine
      exact ⟨(Function.update_of_ne different ..).trans waits.holder, waits.server, waits.active,
        waits.wake⟩
    · rw [List.mem_singleton] at new
      subst new
      exact ⟨Function.update_self .., server, active, wake⟩
  distinct := by
    rw [Directory.create, List.map_append]
    apply inv.distinct.append (List.nodup_singleton _)
    intro name isOld isNew
    rcases List.mem_map.mp isOld with ⟨entry, mem, rfl⟩
    have same : entry.2.job.jobId = background.job.jobId := by simpa using isNew
    simp [← same, (inv.waits entry mem).holder] at mine

theorem Relies.create (different : other ≠ task)
    (mine : directory.holders background.job.jobId = some (.task task)) :
    Relies other directory (directory.create settings background) where
  settings := rfl
  runs running := running
  locked _ holds := ⟨holds, rfl, fun _ isCounted => isCounted⟩
  servers found := found
  holders {held} found := by
    have another : held ≠ background.job.jobId := by
      rintro rfl
      rw [mine, Option.some.injEq, Holder.task.injEq] at found
      exact different found.symm
    exact (Function.update_of_ne another ..).trans found
  active _ _ _ active := active

theorem Inv.begin (inv : Inv host directory) {identity : ProcessIdentity}
    (isServer : settings.identity = some identity) (lives : directory.Lives identity) :
    Inv host (directory.begin task settings) where
  within := inv.within
  owned := inv.owned
  issued := inv.issued
  bornServer := inv.bornServer
  bornTask {begun found} hasServer := by
    by_cases same : begun = task
    · have sameIdentity : found = identity := by
        simpa [serverOf, Directory.begin, same, isServer, eq_comm] using hasServer
      exact sameIdentity ▸ inv.bornProcess lives
    · exact inv.bornTask (by simpa [serverOf, Directory.begin, same] using hasServer)
  bornProcess := inv.bornProcess
  waits entry mem := by
    have waits := inv.waits entry mem
    exact ⟨waits.holder, waits.server, waits.active, waits.wake⟩
  distinct := inv.distinct

theorem Relies.begin (different : other ≠ task) :
    Relies other directory (directory.begin task settings) where
  settings := Function.update_of_ne different ..
  runs running := by simpa [Runs, serverOf, Lives, Directory.begin, different] using running
  locked _ holds := ⟨holds, rfl, fun _ isCounted => isCounted⟩
  servers found := found
  holders found := found
  active _ _ _ active := active

/-- The other background tasks wait for other jobs. -/
theorem Inv.waits_others (inv : Inv host directory)
    (next : directory.waiting[index]? = some (settings, background)) {entry : Settings × BackgroundJob}
    (mem : entry ∈ directory.waiting.eraseIdx index) :
    entry ∈ directory.waiting ∧ entry.2.job.jobId ≠ background.job.jobId := by
  rcases List.mem_eraseIdx_iff_getElem?.mp mem with ⟨position, another, found⟩
  refine ⟨List.mem_of_getElem? found, ?_⟩
  intro same
  apply another
  have bound : position < (directory.waiting.map fun entry => entry.2.job.jobId).length := by
    simpa using (List.getElem?_eq_some_iff.mp found).1
  apply (List.getElem?_inj bound inv.distinct).mp
  simp [found, next, same]

theorem Inv.beginBackground (inv : Inv host directory)
    (next : directory.waiting[index]? = some (settings, background)) {identity : ProcessIdentity}
    (isServer : settings.identity = some identity) (lives : directory.Lives identity) :
    Inv host (directory.beginBackground task index settings background) where
  within := inv.within
  owned := inv.owned
  issued {issued holder} found := by
    by_cases same : issued = background.job.jobId
    · rcases inv.issued (inv.waits _ (List.mem_of_getElem? next)).holder with ⟨identity, isServer⟩
      exact ⟨identity, by rw [same]; exact isServer⟩
    · exact inv.issued ((Function.update_of_ne same ..).symm.trans found)
  bornServer := inv.bornServer
  bornTask :=
    have begun : Inv host (directory.begin task settings) := inv.begin isServer lives
    begun.bornTask
  bornProcess := inv.bornProcess
  waits entry mem := by
    have other := inv.waits_others next mem
    have waits := inv.waits entry other.1
    exact ⟨(Function.update_of_ne other.2 ..).trans waits.holder, waits.server, waits.active, waits.wake⟩
  distinct := inv.distinct.sublist ((List.eraseIdx_sublist _ _).map _)

theorem Relies.beginBackground (inv : Inv host directory) (different : other ≠ task)
    (next : directory.waiting[index]? = some (settings, background)) :
    Relies other directory (directory.beginBackground task index settings background) where
  settings := Function.update_of_ne different ..
  runs := (Relies.begin different).runs
  locked _ holds := ⟨holds, rfl, fun _ isCounted => isCounted⟩
  servers found := found
  holders {held} found := by
    have another : held ≠ background.job.jobId := by
      rintro rfl
      rw [(inv.waits _ (List.mem_of_getElem? next)).holder] at found
      cases found
    exact (Function.update_of_ne another ..).trans found
  active _ _ _ active := active

end Jobs

/-! ### Processes -/

section Processes

variable {identity : ProcessIdentity} {pid : Int}

theorem Directory.lives_launch {found : ProcessIdentity} (another : found ≠ identity)
    (absent : directory.processes identity.1 = none) :
    (directory.launch identity).Lives found ↔ directory.Lives found := by
  by_cases same : found.1 = identity.1
  · simp only [Lives, launch, same, Function.update_self, absent]
    constructor
    · intro sameTicks
      exact absurd (Prod.ext same (Option.some.inj sameTicks).symm) another
    · intro found
      cases found
  · simp [Lives, launch, same]

theorem Directory.lives_born (fresh : identity ∉ directory.born)
    (absent : directory.processes identity.1 = none) {found : ProcessIdentity}
    (born : found ∈ directory.born) : (directory.launch identity).Lives found ↔ directory.Lives found := by
  apply lives_launch _ absent
  rintro rfl
  exact fresh born

theorem Directory.serves_launch (inv : Inv host directory) (fresh : identity ∉ directory.born)
    (absent : directory.processes identity.1 = none) :
    (directory.launch identity).Serves jobId ↔ directory.Serves jobId := by
  constructor
  · rintro ⟨found, isServer, lives⟩
    exact ⟨found, isServer, (lives_born fresh absent (inv.bornServer isServer)).mp lives⟩
  · rintro ⟨found, isServer, lives⟩
    exact ⟨found, isServer, (lives_born fresh absent (inv.bornServer isServer)).mpr lives⟩

theorem Directory.Counted.of_launch (inv : Inv host directory) (fresh : identity ∉ directory.born)
    (absent : directory.processes identity.1 = none)
    (isCounted : (directory.launch identity).Counted jobId) : directory.Counted jobId :=
  ⟨(serves_launch inv fresh absent).mp isCounted.1, isCounted.2⟩

theorem Inv.launch (inv : Inv host directory) (fresh : identity ∉ directory.born)
    (absent : directory.processes identity.1 = none) : Inv host (directory.launch identity) where
  within := (Set.encard_le_encard fun _ => Counted.of_launch inv fresh absent).trans inv.within
  owned := inv.owned
  issued := inv.issued
  bornServer found := List.mem_cons_of_mem _ (inv.bornServer found)
  bornTask found := List.mem_cons_of_mem _ (inv.bornTask found)
  bornProcess {found} lives := by
    by_cases same : found = identity
    · exact same ▸ List.mem_cons_self
    · exact List.mem_cons_of_mem _ (inv.bornProcess ((lives_launch same absent).mp lives))
  waits entry mem := by
    have waits := inv.waits entry mem
    exact ⟨waits.holder, waits.server,
      fun accepts serves => waits.active accepts ((serves_launch inv fresh absent).mp serves), waits.wake⟩
  distinct := inv.distinct

theorem Relies.launch (inv : Inv host directory) (fresh : identity ∉ directory.born)
    (absent : directory.processes identity.1 = none) :
    Relies other directory (directory.launch identity) where
  settings := rfl
  runs := by
    rintro ⟨found, isServer, lives⟩
    exact ⟨found, isServer, (lives_born fresh absent (inv.bornTask isServer)).mp lives⟩
  locked _ holds := ⟨holds, rfl, fun _ => Counted.of_launch inv fresh absent⟩
  servers found := found
  holders found := found
  active _ _ _ active := active

theorem Directory.Lives.of_stop {found : ProcessIdentity} (lives : (directory.stop pid).Lives found) :
    directory.Lives found := by
  by_cases same : found.1 = pid
  · simp [Lives, stop, same] at lives
  · simpa [Lives, stop, same] using lives

theorem Directory.Serves.of_stop (serves : (directory.stop pid).Serves jobId) : directory.Serves jobId := by
  rcases serves with ⟨found, isServer, lives⟩
  exact ⟨found, isServer, Lives.of_stop lives⟩

theorem Directory.Counted.of_stop (isCounted : (directory.stop pid).Counted jobId) :
    directory.Counted jobId := ⟨isCounted.1.of_stop, isCounted.2⟩

theorem Inv.stop (inv : Inv host directory) : Inv host (directory.stop pid) where
  within := (Set.encard_le_encard fun _ => Counted.of_stop).trans inv.within
  owned := inv.owned
  issued := inv.issued
  bornServer := inv.bornServer
  bornTask := inv.bornTask
  bornProcess lives := inv.bornProcess (Lives.of_stop lives)
  waits entry mem := by
    have waits := inv.waits entry mem
    exact ⟨waits.holder, waits.server, fun accepts serves => waits.active accepts serves.of_stop, waits.wake⟩
  distinct := inv.distinct

theorem Relies.stop : Relies other directory (directory.stop pid) where
  settings := rfl
  runs := by
    rintro ⟨found, isServer, lives⟩
    exact ⟨found, isServer, Lives.of_stop lives⟩
  locked _ holds := ⟨holds, rfl, fun _ => Counted.of_stop⟩
  servers found := found
  holders found := found
  active _ _ _ active := active

theorem Inv.dropLock (inv : Inv host directory) : Inv host directory.dropLock := by
  rw [Directory.dropLock]
  split
  · exact inv.relock (by simp)
  · exact inv

theorem Relies.dropLock : Relies other directory directory.dropLock := by
  rw [Directory.dropLock]
  split
  · rename_i dead
    apply Relies.relock
    intro running held
    simp [held, running] at dead
  · exact Relies.refl ..

end Processes

end Steps

end Longrun.Server
