import Longrun.Server.Accounting

/-!
# The reservation of jobs

What a task knows of the state directory from one call to the next, the rules for its calls, and the
reservation: it counts the active jobs under the lock, and writes a record only if there is room.
-/

namespace Longrun.Server

open Directory

/-- What the tasks of the servers rely on. -/
def sharing (host : Host) : (steadyServers host).Shares where
  relies task before after := Inv host before → Inv host after ∧ Relies task before after
  relies_refl task directory inv := ⟨inv, Relies.refl task directory⟩
  relies_trans first next inv :=
    ⟨(next (first inv).1).1, (first inv).2.trans (next (first inv).1).2⟩

/-- The calls of a task among the others. -/
abbrev acting (host : Host) (task : Nat) : Script.Effects server Exit Directory :=
  (sharing host).effects task

/-- What a task knows as long as its server runs. -/
def Knows (host : Host) (task : Nat) (knows : Directory → Prop) (directory : Directory) : Prop :=
  Inv host directory ∧ (directory.Runs task → knows directory)

/-- The other tasks leave it true. -/
def Stable (task : Nat) (knows : Directory → Prop) : Prop :=
  ∀ before after, Relies task before after → after.Runs task → knows before → knows after

/-- A job that a task brings to its end. -/
structure Duty where
  settings : Settings
  jobId : String
  /-- An active record of it is stored. -/
  reserved : Prop

structure Duty.Held (duty : Duty) (task : Nat) (directory : Directory) : Prop where
  settings : directory.settings task = some duty.settings
  holder : directory.holders duty.jobId = some (.task task)
  server : directory.servers duty.jobId = duty.settings.identity
  active : duty.reserved → directory.HasActive duty.jobId

def Doing (task : Nat) (duty : Option Duty) (directory : Directory) : Prop :=
  ∀ held, duty = some held → held.Held task directory

/-- The task holds the lock, and no other jobs are counted. -/
structure Locked (task : Nat) (reading : Option (String × Json)) (counted : Set String)
    (directory : Directory) : Prop where
  lock : directory.lock = some task
  reading : directory.reading = reading
  counted : ∀ {jobId}, directory.Counted jobId → jobId ∈ counted

section Rules

variable {host : Host} {task : Nat} {directory later : Directory} {knows more : Directory → Prop}
  {duty : Option Duty} {reading : Option (String × Json)} {counted : Set String} {request : Call}

theorem Knows.mono (known : Knows host task knows directory)
    (weaken : ∀ directory, Inv host directory → directory.Runs task → knows directory → more directory) :
    Knows host task more directory :=
  ⟨known.1, fun runs => weaken _ known.1 runs (known.2 runs)⟩

theorem Stable.and (first : Stable task knows) (second : Stable task more) :
    Stable task fun directory => knows directory ∧ more directory :=
  fun _ _ relies runs holds => ⟨first _ _ relies runs holds.1, second _ _ relies runs holds.2⟩

theorem Duty.Held.sameServer {held : Duty} (isHeld : held.Held task directory) :
    directory.servers held.jobId = directory.serverOf task := by
  rw [isHeld.server, serverOf, isHeld.settings]
  rfl

theorem Duty.Held.serves {held : Duty} (isHeld : held.Held task directory)
    (runs : directory.Runs task) : directory.Serves held.jobId :=
  (serves_iff_runs isHeld.sameServer).mpr runs

theorem stable_doing : Stable task (Doing task duty) := by
  intro before after relies runs doing held isDuty
  have isHeld := doing held isDuty
  refine ⟨relies.settings.trans isHeld.settings, relies.holders isHeld.holder, ?_,
    fun reserved => relies.active runs isHeld.holder isHeld.sameServer (isHeld.active reserved)⟩
  rcases isHeld.serves (relies.runs runs) with ⟨identity, isServer, -⟩
  rw [relies.servers isServer, ← isServer, isHeld.server]

theorem stable_locked : Stable task (Locked task reading counted) := by
  intro before after relies runs locked
  have kept := relies.locked runs locked.lock
  exact ⟨kept.1, kept.2.1.trans locked.reading, fun isCounted => locked.counted (kept.2.2 _ isCounted)⟩

/-- The rule for a call. -/
theorem ensures_served {post : Except Exit request.Answer → Directory → Prop}
    (stable : Stable task knows)
    (served : ∀ later choice reply after, Inv host later → later.Runs task → knows later →
      answer host task later request choice = some (reply, after) →
        Inv host after ∧ (∀ other, other ≠ task → Relies other later after) ∧ post reply after)
    (known : Knows host task knows directory) :
    (await request).Ensures (acting host task) post directory := by
  have goesOn : ∀ later choice reply last, (sharing host).relies task directory later →
      serveSteadily host task later request choice = some (reply, last) →
        (sharing host).Guarantees task later last ∧ post reply last := by
    intro later choice reply last relied isServed
    have relied := relied known.1
    by_cases runs : later.Runs task
    · rw [serveSteadily, if_pos runs] at isServed
      have done := served later choice reply last relied.1 runs
        (stable _ _ relied.2 runs (known.2 (relied.2.runs runs))) isServed
      exact ⟨fun other different _ => ⟨done.1, done.2.1 other different⟩, done.2.2⟩
    · rw [serveSteadily, if_neg runs] at isServed
      cases isServed
  exact Interleaved.Shares.ensures_perform goesOn

/-- Goes on after a script. -/
theorem ensures_next {Value Next : Type} {script : Coroutine Value} {next : Value → Coroutine Next}
    (ensures : script.Ensures (acting host task) (fun _ => Knows host task knows) directory)
    (weaken : ∀ directory, Inv host directory → directory.Runs task → knows directory → more directory)
    (goesOn : ∀ value after, Knows host task knows after →
      (next value).Ensures (acting host task) (fun _ => Knows host task more) after) :
    (script >>= next).Ensures (acting host task) (fun _ => Knows host task more) directory := by
  apply Script.ensures_monadBind.mpr
  apply ensures.mono
  intro result after known
  cases result with
  | ok value => exact goesOn value after known
  | error exit => exact known.mono weaken

end Rules

/-! ### Calls that leave the directory as it is -/

/-- A call that at most reads a file or touches the lock. -/
def Call.IsCalm : Call → Bool
  | .writeMetadata _ _ => false
  | .newJobId => false
  | .createBackground _ => false
  | _ => true

/-- A calm call that does neither. -/
def Call.IsQuiet : Call → Bool
  | .readMetadata _ => false
  | .loadMetadata _ => false
  | .lockState => false
  | .unlockState => false
  | request => request.IsCalm

section Calm

variable {host : Host} {task : Nat} {directory : Directory} {request : Call}
  {choice reply : Except Exit request.Answer} {after : Directory}

theorem answer_quiet (quiet : request.IsQuiet = true)
    (served : answer host task directory request choice = some (reply, after)) : after = directory := by
  cases request <;> cases choice <;> simp_all [answer, Call.IsQuiet, Call.IsCalm, Call.IsPlain]

/-- A calm call leaves everything as it is, or it moves the lock, which is no other task's. -/
def Relocks (task : Nat) (directory after : Directory) : Prop :=
  after = directory ∨ ∃ lock reading, after = directory.relock lock reading ∧
    (∀ {jobId record}, reading = some (jobId, record) → directory.files.get? jobId = some record) ∧
      ∀ other, other ≠ task → directory.lock ≠ some other

theorem relocks_read (task : Nat) (directory : Directory) (jobId : String) :
    Relocks task directory (directory.read task jobId) := by
  by_cases holds : directory.lock = some task
  · rw [Directory.read, if_pos holds]
    refine .inr ⟨directory.lock, _, rfl, ?_, ?_⟩
    · intro name record isRead
      simp only [Option.map_eq_some_iff, Prod.mk.injEq] at isRead
      rcases isRead with ⟨stored, found, rfl, rfl⟩
      exact found
    · intro other different held
      rw [holds, Option.some.injEq] at held
      exact different held.symm
  · rw [Directory.read, if_neg holds]
    exact .inl rfl

theorem relocks_release (task : Nat) (directory : Directory) :
    Relocks task directory (directory.release task) := by
  by_cases holds : directory.lock = some task
  · rw [Directory.release, if_pos holds]
    refine .inr ⟨none, none, rfl, by simp, ?_⟩
    intro other different held
    rw [holds, Option.some.injEq] at held
    exact different held.symm
  · rw [Directory.release, if_neg holds]
    exact .inl rfl

theorem relocks_acquire (free : directory.lock = none) :
    Relocks task directory (directory.acquire task) :=
  .inr ⟨some task, none, rfl, by simp, by simp [free]⟩

theorem answer_calm (calm : request.IsCalm = true)
    (served : answer host task directory request choice = some (reply, after)) :
    Relocks task directory after := by
  by_cases quiet : request.IsQuiet = true
  · exact .inl (answer_quiet quiet served)
  · cases request with
    | readMetadata jobId =>
        rw [answer_readMetadata] at served
        simp only [Option.some.injEq, Prod.mk.injEq] at served
        exact served.2 ▸ relocks_read task directory jobId
    | loadMetadata jobId =>
        cases choice with
        | ok value =>
            rw [answer_loadMetadata] at served
            simp only [Option.map_eq_some_iff, Prod.mk.injEq] at served
            rcases served with ⟨payload, -, -, rfl⟩
            exact relocks_read task directory jobId
        | error exit =>
            left
            rw [answer_loadMetadata_error] at served
            simp only [Option.some.injEq, Prod.mk.injEq] at served
            exact served.2.symm
    | lockState =>
        cases choice with
        | ok value =>
            rw [answer_lockState] at served
            simp only [Option.ite_none_right_eq_some, Option.some.injEq, Prod.mk.injEq] at served
            exact served.2.2 ▸ relocks_acquire served.1
        | error exit =>
            left
            rw [answer_plain_error .lockState rfl nofun] at served
            simp only [Option.ite_none_left_eq_some, Option.some.injEq, Prod.mk.injEq] at served
            exact served.2.2.symm
    | unlockState =>
        cases choice with
        | ok value =>
            rw [answer_unlockState] at served
            simp only [Option.some.injEq, Prod.mk.injEq] at served
            exact served.2 ▸ relocks_release task directory
        | error exit =>
            rw [answer_unlockState_error] at served
            simp only [Option.ite_none_left_eq_some, Option.some.injEq, Prod.mk.injEq] at served
            exact served.2.2 ▸ relocks_release task directory
    | _ => simp_all [Call.IsQuiet, Call.IsCalm]

theorem Relocks.inv (relocks : Relocks task directory after) (inv : Inv host directory) :
    Inv host after := by
  rcases relocks with rfl | ⟨lock, reading, rfl, stored, -⟩
  · exact inv
  · exact inv.relock stored

theorem Relocks.relies (relocks : Relocks task directory after) {other : Nat}
    (different : other ≠ task) : Relies other directory after := by
  rcases relocks with rfl | ⟨lock, reading, rfl, -, free⟩
  · exact Relies.refl ..
  · exact Relies.relock fun _ => free other different

theorem Relocks.doing {duty : Option Duty} (relocks : Relocks task directory after)
    (doing : Doing task duty directory) : Doing task duty after := by
  rcases relocks with rfl | ⟨lock, reading, rfl, -, -⟩
  · exact doing
  · intro held isDuty
    have isHeld := doing held isDuty
    exact ⟨isHeld.settings, isHeld.holder, isHeld.server, isHeld.active⟩

theorem Relocks.runs (relocks : Relocks task directory after) (runs : after.Runs task) :
    directory.Runs task := by
  rcases relocks with rfl | ⟨lock, reading, rfl, -, -⟩ <;> exact runs

end Calm

section Rules

variable {host : Host} {task : Nat} {directory : Directory} {knows : Directory → Prop}
  {duty : Option Duty} {reading : Option (String × Json)} {counted : Set String} {request : Call}

/-- The rule for a quiet call: what the task knows is kept. -/
theorem ensures_quiet (quiet : request.IsQuiet = true) (stable : Stable task knows)
    (known : Knows host task knows directory) :
    (await request).Ensures (acting host task) (fun reply after => Knows host task knows after ∧
      ∃ choice, answer host task after request choice = some (reply, after)) directory := by
  apply ensures_served stable _ known
  intro later choice reply after inv runs known served
  have same := answer_quiet quiet served
  subst same
  exact ⟨inv, fun other _ => Relies.refl .., ⟨inv, fun _ => known⟩, choice, served⟩

theorem maintains_quiet (quiet : request.IsQuiet = true) (stable : Stable task knows) :
    (await request).Maintains (acting host task) (Knows host task knows) :=
  fun _ known => (ensures_quiet quiet stable known).mono fun _ _ holds => holds.1

/-- The rule for a calm call. -/
theorem ensures_calm (calm : request.IsCalm = true)
    (known : Knows host task (Doing task duty) directory) :
    (await request).Ensures (acting host task) (fun reply after =>
      Knows host task (Doing task duty) after ∧
        ∃ later choice, answer host task later request choice = some (reply, after)) directory := by
  apply ensures_served stable_doing _ known
  intro later choice reply after inv runs doing served
  have relocks := answer_calm calm served
  exact ⟨relocks.inv inv, fun other different => relocks.relies different,
    ⟨relocks.inv inv, fun _ => relocks.doing doing⟩, later, choice, served⟩

theorem maintains_calm (calm : request.IsCalm = true) :
    (await request).Maintains (acting host task) (Knows host task (Doing task duty)) :=
  fun _ known => (ensures_calm calm known).mono fun _ _ holds => holds.1

/-! ### Under the lock -/

theorem ensures_lock (known : Knows host task (Doing task duty) directory) :
    (await .lockState).Ensures (acting host task) (fun reply after =>
      Knows host task (Doing task duty) after ∧ (∀ exit, reply = .error exit → exit.escapes "ValueError" = true) ∧
        ∀ value, reply = .ok value → Knows host task (Locked task none Set.univ) after) directory := by
  apply ensures_served stable_doing _ known
  intro later choice reply after inv runs doing served
  have relocks := answer_calm (by rfl) served
  refine ⟨relocks.inv inv, fun other different => relocks.relies different,
    ⟨relocks.inv inv, fun _ => relocks.doing doing⟩, ?_, ?_⟩
  · rintro exit rfl
    cases choice with
    | ok value =>
        rw [answer_lockState] at served
        simp at served
    | error failed =>
        rw [answer_plain_error .lockState rfl nofun] at served
        simp only [Call.IsPlain, true_and, Option.ite_none_left_eq_some, Option.some.injEq,
          Prod.mk.injEq, Except.error.injEq, Bool.not_eq_false] at served
        rcases served with ⟨escapes, rfl, -⟩
        exact escapes
  · rintro value rfl
    cases choice with
    | ok value =>
        rw [answer_lockState] at served
        simp only [Option.ite_none_right_eq_some, Option.some.injEq, Prod.mk.injEq] at served
        rcases served with ⟨-, -, rfl⟩
        exact ⟨relocks.inv inv, fun _ => ⟨rfl, rfl, fun _ => Set.mem_univ _⟩⟩
    | error exit =>
        rw [answer_plain_error .lockState rfl nofun] at served
        simp at served

/-- In the critical section. -/
def Inside (task : Nat) (counted : Set String) (directory : Directory) : Prop :=
  ∃ reading, Locked task reading counted directory

theorem stable_inside : Stable task (Inside task counted) :=
  fun _ _ relies runs ⟨reading, locked⟩ => ⟨reading, stable_locked _ _ relies runs locked⟩

/-- Where the holder of the lock has read a file, its job is counted only if it is active. -/
theorem Inside.read {jobId : String} (inside : Inside task counted directory) :
    Locked task ((directory.files.get? jobId).map fun payload => (jobId, payload))
      {name | name ∈ counted ∧ (name = jobId →
        ∃ record, directory.files.get? jobId = some record ∧ IsActive record)}
          (directory.read task jobId) := by
  rcases inside with ⟨reading, locked⟩
  rw [Directory.read, if_pos locked.lock]
  refine ⟨locked.lock, rfl, ?_⟩
  rintro name ⟨serves, record, stored, isActive⟩
  have inFile : directory.files.get? name = some record := by
    rcases stored with inFile | wasRead
    · exact inFile
    · simp only [Option.map_eq_some_iff, Prod.mk.injEq] at wasRead
      rcases wasRead with ⟨payload, found, rfl, rfl⟩
      exact found
  refine ⟨locked.counted ⟨serves, record, .inl inFile, isActive⟩, ?_⟩
  rintro rfl
  exact ⟨record, inFile, isActive⟩

theorem ensures_read {jobId : String}
    (known : Knows host task (fun directory => Doing task duty directory ∧
      Inside task counted directory) directory) :
    (await (.readMetadata jobId)).Ensures (acting host task) (fun reply after =>
      ∃ payload, reply = .ok payload ∧ Knows host task (fun directory => Doing task duty directory ∧
        Locked task (payload.map fun payload => (jobId, payload))
          {name | name ∈ counted ∧ (name = jobId → ∃ record, payload = some record ∧ IsActive record)}
            directory) after) directory := by
  apply ensures_served (stable_doing.and stable_inside) _ known
  intro later choice reply after inv runs holds served
  have relocks := answer_calm (by rfl) served
  rw [answer_readMetadata] at served
  simp only [Option.some.injEq, Prod.mk.injEq] at served
  rcases served with ⟨rfl, rfl⟩
  exact ⟨relocks.inv inv, fun other different => relocks.relies different, _, rfl, relocks.inv inv,
    fun _ => ⟨relocks.doing holds.1, holds.2.read⟩⟩

end Rules

/-! ### Ends -/

/-- A script ends with a value, or with an exception other than `ValueError`. -/
def Ends (host : Host) (task : Nat) {Value : Type} (good : Value → Directory → Prop)
    (bad : Directory → Prop) : Except Exit Value → Directory → Prop
  | .ok value, directory => Knows host task (good value) directory
  | .error exit, directory => exit.escapes "ValueError" = true ∧ Knows host task bad directory

section Ends

variable {host : Host} {task : Nat} {directory : Directory} {knows bad : Directory → Prop}
  {Value Next : Type} {first : Value → Directory → Prop} {good : Next → Directory → Prop}
  {duty left : Option Duty} {request : Call}

theorem ends_bind {script : Coroutine Value} {next : Value → Coroutine Next}
    (ensures : script.Ensures (acting host task) (Ends host task first bad) directory)
    (goesOn : ∀ value after, Knows host task (first value) after →
      (next value).Ensures (acting host task) (Ends host task good bad) after) :
    (script >>= next).Ensures (acting host task) (Ends host task good bad) directory := by
  apply Script.ensures_monadBind.mpr
  apply ensures.mono
  intro result after holds
  cases result with
  | ok value => exact goesOn value after holds
  | error exit => exact holds

theorem answer_plain {choice : Except Exit request.Answer} {exit : Exit} {after : Directory}
    (plain : request.IsPlain = true)
    (served : answer host task directory request choice = some (.error exit, after)) :
    exit.escapes "ValueError" = true := by
  cases choice with
  | ok value =>
      cases request with
      | ensureStateDirs | utcNow => cases served
      | lockState =>
          rw [answer_lockState] at served
          simp at served
      | unlockState =>
          rw [answer_unlockState] at served
          simp at served
      | listMetadata =>
          rw [answer_listMetadata] at served
          simp at served
      | writeMetadata =>
          rw [answer_writeMetadata] at served
          simp at served
      | _ => cases plain
  | error failed =>
      rcases Classical.em (request = .unlockState) with rfl | keeps
      · rw [answer_unlockState_error] at served
        simp only [plain, true_and, Option.ite_none_left_eq_some, Option.some.injEq,
          Prod.mk.injEq, Except.error.injEq, Bool.not_eq_false] at served
        exact served.2.1 ▸ served.1
      · rw [answer_plain_error request plain keeps] at served
        simp only [plain, true_and, Option.ite_none_left_eq_some, Option.some.injEq,
          Prod.mk.injEq, Except.error.injEq, Bool.not_eq_false] at served
        exact served.2.1 ▸ served.1

theorem ends_plain (plain : request.IsPlain = true) (quiet : request.IsQuiet = true)
    (stable : Stable task knows) (weaken : ∀ directory, knows directory → bad directory)
    (known : Knows host task knows directory) :
    (await request).Ensures (acting host task) (Ends host task (fun _ => knows) bad) directory := by
  apply (ensures_quiet quiet stable known).mono
  rintro result after ⟨known, choice, served⟩
  cases result with
  | ok value => exact known
  | error exit => exact ⟨answer_plain plain served, known.mono fun _ _ _ => weaken _⟩

/-- The rule for what is done under the lock. -/
theorem ends_withJobState {body : Coroutine Value} {kept : Option Duty}
    (keeps : ∀ directory, Doing task duty directory → Doing task left directory)
    (leaves : ∀ directory, Doing task kept directory → Doing task left directory)
    (ensures : ∀ after, Knows host task (fun directory => Doing task duty directory ∧
      Locked task none Set.univ directory) after →
        body.Ensures (acting host task) (Ends host task (fun _ => Doing task kept) (Doing task left)) after)
    (known : Knows host task (Doing task duty) directory) :
    (withJobState body).Ensures (acting host task)
      (Ends host task (fun _ => Doing task kept) (Doing task left)) directory := by
  apply ends_bind (ends_plain (by rfl) (by rfl) stable_doing keeps known)
  intro _ after known
  apply Script.ensures_monadBind.mpr
  apply (ensures_lock known).mono
  rintro result after ⟨known, escapes, locks⟩
  cases result with
  | error exit => exact ⟨escapes exit rfl, known.mono fun _ _ _ => keeps _⟩
  | ok value =>
      have locked := locks value rfl
      apply Script.ensures_finish.mpr
      apply (ensures after ⟨known.1, fun runs => ⟨known.2 runs, locked.2 runs⟩⟩).mono
      intro result last ended
      have unlocks {post : Except Exit Value → Directory → Prop} {locked : Option Duty}
          (known : Knows host task (Doing task locked) last)
          (fails : ∀ exit after, exit.escapes "ValueError" = true →
            Knows host task (Doing task locked) after → post (.error exit) after)
          (goesOn : ∀ after, Knows host task (Doing task locked) after → post result after) :
          (await .unlockState).Ensures (acting host task)
            (Script.Leads (acting host task) post fun _ => .ofExcept result) last := by
        apply (ensures_calm (by rfl) known).mono
        rintro reply after ⟨known, later, choice, served⟩
        cases reply with
        | ok value => exact Script.ensures_ofExcept.mpr (goesOn after known)
        | error exit => exact fails exit after (answer_plain (by rfl) served) known
      cases result with
      | ok value =>
          apply unlocks ended
          · exact fun exit after escapes known => ⟨escapes, known.mono fun _ _ _ => leaves _⟩
          · exact fun after known => known
      | error exit =>
          apply unlocks ended.2
          · exact fun exit after escapes known => ⟨escapes, known⟩
          · exact fun after known => ⟨ended.1, known⟩

end Ends

/-! ### Counting -/

theorem isDict_of_isActive {record : Json} (isActive : IsActive record) : record.isDict = true := by
  cases record with
  | obj fields => rfl
  | _ => simp [IsActive, activeJobStates, Json.get, Json.isStr, Json.str?] at isActive

theorem doing_of_imp {task : Nat} {directory : Directory} {settings : Settings} {jobId : String}
    {reserved weaker : Prop} (imp : weaker → reserved)
    (doing : Doing task (some ⟨settings, jobId, reserved⟩) directory) :
    Doing task (some ⟨settings, jobId, weaker⟩) directory := by
  rintro held ⟨⟩
  have isHeld := doing _ rfl
  exact ⟨isHeld.settings, isHeld.holder, isHeld.server,
    fun reserved => isHeld.active (imp reserved)⟩

theorem doing_none {task : Nat} {directory : Directory} : Doing task none directory := by
  simp [Doing]

section Count

variable {host : Host} {task : Nat} {directory : Directory} {duty : Option Duty} {jobId : String}
  {payload : Json} {counted : Set String}

/-- What a task knows while it counts: what it has read of a job, and which jobs are counted. -/
abbrev Counting (task : Nat) (duty : Option Duty) (reading : Option (String × Json))
    (counted : Set String) (directory : Directory) : Prop :=
  Doing task duty directory ∧ Locked task reading counted directory

theorem stable_counting {reading : Option (String × Json)} :
    Stable task (Counting task duty reading counted) := stable_doing.and stable_locked

/-- A job is counted only if the process that its record names runs. -/
theorem Locked.named (locked : Locked task (some (jobId, payload)) counted directory)
    (inv : Inv host directory) (isActive : IsActive payload) (isCounted : directory.Counted jobId) :
    ∃ identity, NamesServer identity payload ∧ directory.Lives identity := by
  rcases inv.owned (.inr locked.reading) isActive with ⟨identity, isServer, names⟩
  rcases isCounted.1 with ⟨living, isLiving, lives⟩
  rw [isServer, Option.some.injEq] at isLiving
  exact ⟨identity, names, isLiving ▸ lives⟩

/-- The job is not counted if the check of its record fails. -/
theorem Counting.checked (counting : Counting task duty (some (jobId, payload)) counted directory)
    {counts : Bool} (isCounted : directory.Counted jobId → counts = true) :
    Counting task duty (some (jobId, payload)) {name | name ∈ counted ∧ (name = jobId → counts = true)}
      directory := by
  refine ⟨counting.1, counting.2.lock, counting.2.reading, ?_⟩
  intro name isNameCounted
  refine ⟨counting.2.counted isNameCounted, ?_⟩
  rintro rfl
  exact isCounted isNameCounted

theorem ownerMatches_ends {bad : Directory → Prop} (active : jobId ∈ counted → IsActive payload)
    (known : Knows host task (Counting task duty (some (jobId, payload)) counted) directory) :
    (ownerMatches payload).Ensures (acting host task) (Ends host task (fun counts =>
      Counting task duty (some (jobId, payload)) {name | name ∈ counted ∧ (name = jobId → counts = true)})
        bad) directory := by
  rw [ownerMatches, pidMatches]
  split
  · rename_i pid ticks isPid isTicks
    apply Script.ensures_monadBind.mpr
    apply (ensures_quiet (by rfl) stable_counting known).mono
    rintro reply after ⟨known, choice, served⟩
    rw [answer_procStartTicks] at served
    simp only [Option.some.injEq, Prod.mk.injEq] at served
    rcases served with ⟨rfl, -⟩
    refine ⟨known.1, fun runs => ?_⟩
    have counting := known.2 runs
    apply counting.checked
    intro isCounted
    rcases counting.2.named known.1 (active (counting.2.counted isCounted)) isCounted with
      ⟨identity, names, lives⟩
    have samePid : identity.1 = pid := by simpa [names.pid, Json.int?] using isPid
    have sameTicks : identity.2 = ticks := by simpa [names.startTicks, Json.str?] using isTicks
    simpa [Lives, samePid, sameTicks] using lives
  · rename_i absent
    apply known.mono
    intro directory inv _ counting
    apply counting.checked
    intro isCounted
    rcases counting.2.named inv (active (counting.2.counted isCounted)) isCounted with
      ⟨identity, names, -⟩
    exact absurd (by simp [names.startTicks, Json.str?]) (absent identity.1 identity.2 (by simp [names.pid, Json.int?]))

theorem countsAsActive_ends {bad : Directory → Prop} (active : jobId ∈ counted → IsActive payload)
    (weaken : ∀ directory, Doing task duty directory → bad directory)
    (known : Knows host task (Counting task duty (some (jobId, payload)) counted) directory) :
    (countsAsActive payload).Ensures (acting host task) (Ends host task (fun counts =>
      Counting task duty (some (jobId, payload)) {name | name ∈ counted ∧ (name = jobId → counts = true)})
        bad) directory := by
  have inactive (notActive : ¬IsActive payload) : Knows host task (Counting task duty (some (jobId, payload))
      {name | name ∈ counted ∧ (name = jobId → false = true)}) directory := by
    apply known.mono
    intro directory _ _ counting
    apply counting.checked
    exact fun isCounted => absurd (active (counting.2.counted isCounted)) notActive
  rw [countsAsActive, isActive]
  by_cases isDict : payload.isDict = true
  · rw [if_neg (not_not.mpr isDict)]
    by_cases hashable : (payload.get "state").hashable = true
    · rw [if_pos hashable]
      cases any : activeJobStates.any (payload.get "state").isStr with
      | true => exact ownerMatches_ends active known
      | false => exact inactive (by simp [IsActive, any])
    · rw [if_neg hashable]
      exact ⟨by decide, known.mono fun directory _ _ counting => weaken directory counting.1⟩
  · rw [if_pos isDict]
    exact inactive fun isActive => isDict (isDict_of_isActive isActive)

/-- The loop counts at least the jobs that it has gone through. -/
theorem countActive_ends {names : List String} {active : Nat} {reading : Option (String × Json)}
    {bad : Directory → Prop} (weaken : ∀ directory, Doing task duty directory → bad directory)
    (bounded : {name | name ∈ counted ∧ name ∉ names}.encard ≤ active)
    (known : Knows host task (Counting task duty reading counted) directory) :
    (countActive names active).Ensures (acting host task) (Ends host task (fun (total : Nat) directory =>
      Doing task duty directory ∧ directory.lock = some task ∧
        {name | directory.Counted name}.encard ≤ total) bad) directory := by
  induction names generalizing active reading counted directory with
  | nil =>
      apply known.mono
      intro directory _ _ counting
      refine ⟨counting.1, counting.2.lock, (Set.encard_le_encard ?_).trans bounded⟩
      exact fun name isCounted => ⟨counting.2.counted isCounted, List.not_mem_nil⟩
  | cons jobId rest ih =>
      have inside : Knows host task (fun directory => Doing task duty directory ∧
          Inside task counted directory) directory :=
        known.mono fun _ _ _ counting => ⟨counting.1, reading, counting.2⟩
      apply Script.ensures_monadBind.mpr
      apply (ensures_read inside).mono
      rintro reply after ⟨payload, rfl, known⟩
      cases payload with
      | none =>
          apply ih _ known
          refine (Set.encard_le_encard ?_).trans bounded
          rintro name ⟨⟨isCounted, absent⟩, notMem⟩
          refine ⟨isCounted, ?_⟩
          intro mem
          rcases List.mem_cons.mp mem with same | mem
          · rcases absent same with ⟨record, found, -⟩
            cases found
          · exact notMem mem
      | some payload =>
          apply ends_bind (countsAsActive_ends _ weaken known)
          · intro counts after known
            apply ih _ known
            cases counts with
            | false =>
                refine (Set.encard_le_encard ?_).trans bounded
                rintro name ⟨⟨⟨isCounted, -⟩, other⟩, notMem⟩
                exact ⟨isCounted, List.not_mem_cons_of_ne_of_not_mem
                  (fun same => absurd (other same) (by decide)) notMem⟩
            | true =>
                have inserted : {name | name ∈ {name | name ∈ {name | name ∈ counted ∧
                    (name = jobId → ∃ record, some payload = some record ∧ IsActive record)} ∧
                      (name = jobId → true = true)} ∧ name ∉ rest} ⊆
                    insert jobId {name | name ∈ counted ∧ name ∉ jobId :: rest} := by
                  rintro name ⟨⟨⟨isCounted, -⟩, -⟩, notMem⟩
                  by_cases same : name = jobId
                  · exact .inl same
                  · exact .inr ⟨isCounted, List.not_mem_cons_of_ne_of_not_mem same notMem⟩
                calc
                  _ ≤ (insert jobId {name | name ∈ counted ∧ name ∉ jobId :: rest}).encard :=
                    Set.encard_le_encard inserted
                  _ ≤ {name | name ∈ counted ∧ name ∉ jobId :: rest}.encard + 1 := Set.encard_insert_le _ _
                  _ ≤ active + 1 := add_le_add_left bounded 1
          · rintro ⟨-, isActive⟩
            rcases isActive rfl with ⟨record, same, isActive⟩
            cases same
            exact isActive

theorem activeJobCountLocked_ends {bad : Directory → Prop}
    (weaken : ∀ directory, Doing task duty directory → bad directory)
    (known : Knows host task (Counting task duty none Set.univ) directory) :
    activeJobCountLocked.Ensures (acting host task) (Ends host task (fun (total : Nat) directory =>
      Doing task duty directory ∧ directory.lock = some task ∧
        {name | directory.Counted name}.encard ≤ total) bad) directory := by
  apply Script.ensures_monadBind.mpr
  apply (ensures_quiet (by rfl) stable_counting known).mono
  rintro reply after ⟨known, choice, served⟩
  cases reply with
  | error exit => exact ⟨answer_plain (by rfl) served, known.mono fun directory _ _ counting => weaken directory counting.1⟩
  | ok names =>
      have covered : after.files.entries.all (fun entry => entry.1 ∈ names) = true := by
        cases choice with
        | ok listed =>
            rw [answer_listMetadata] at served
            simp only [Option.ite_none_right_eq_some, Option.some.injEq, Prod.mk.injEq,
              Except.ok.injEq] at served
            exact served.2.1 ▸ served.1
        | error exit =>
            rw [answer_plain_error .listMetadata rfl nofun] at served
            simp at served
      have counting : Knows host task (Counting task duty none {name | name ∈ names}) after := by
        refine ⟨known.1, fun runs => ?_⟩
        have counting := known.2 runs
        refine ⟨counting.1, counting.2.lock, counting.2.reading, ?_⟩
        rintro name ⟨-, record, inFile | wasRead, -⟩
        · rw [List.all_eq_true] at covered
          exact of_decide_eq_true (covered (name, record) (Dict.mem_entries_iff.mpr inFile))
        · rw [counting.2.reading] at wasRead
          cases wasRead
      exact countActive_ends weaken (by simp) counting

end Count

/-! ### Writing -/

section Write

variable {host : Host} {task : Nat} {directory : Directory} {duty : Option Duty} {jobId : String}
  {record : Json} {knows : Directory → Prop}

/-- The rule for a write. -/
theorem ensures_write {post : Except Exit Unit → Directory → Prop} (stable : Stable task knows)
    (writable : ∀ directory, Inv host directory → directory.Runs task → knows directory →
      Writable host directory task jobId record)
    (fails : ∀ exit after, exit.escapes "ValueError" = true → Knows host task knows after →
      post (.error exit) after)
    (writes : ∀ directory, Inv host directory → directory.Runs task → knows directory →
      Inv host (directory.write jobId record) → post (.ok ()) (directory.write jobId record))
    (known : Knows host task knows directory) :
    (await (.writeMetadata jobId record)).Ensures (acting host task) post directory := by
  apply ensures_served stable _ known
  intro later choice reply after inv runs holds served
  have mayWrite := writable later inv runs holds
  cases choice with
  | ok value =>
      rw [answer_writeMetadata] at served
      simp only [Option.some.injEq, Prod.mk.injEq] at served
      rcases served with ⟨rfl, rfl⟩
      exact ⟨inv.write mayWrite, fun other different => Relies.write different mayWrite,
        writes later inv runs holds (inv.write mayWrite)⟩
  | error exit =>
      rw [answer_plain_error (.writeMetadata jobId record) rfl nofun] at served
      simp only [Call.IsPlain, true_and, Option.ite_none_left_eq_some, Option.some.injEq,
        Prod.mk.injEq, Bool.not_eq_false] at served
      rcases served with ⟨escapes, rfl, rfl⟩
      exact ⟨inv, fun other _ => Relies.refl .., fails exit later escapes ⟨inv, fun _ => holds⟩⟩

/-- The holder of a job keeps it when it writes a record. -/
theorem Duty.Held.write {held : Duty} {reserved : Prop} (isHeld : held.Held task directory)
    (active : reserved → (directory.write jobId record).HasActive held.jobId) :
    Duty.Held ⟨held.settings, held.jobId, reserved⟩ task (directory.write jobId record) :=
  ⟨isHeld.settings, isHeld.holder, isHeld.server, active⟩

end Write

/-! ### Reservation -/

section Reserve

variable {host : Host} {task : Nat} {directory : Directory} {settings : Settings} {jobId cwd : String}

theorem isActive_queued {startedAt : String} :
    IsActive (queuedMetadata settings jobId cwd startedAt) := by
  have state : (queuedMetadata settings jobId cwd startedAt).get "state" = .str "queued" := rfl
  simp [IsActive, state, activeJobStates, Json.isStr, Json.str?]

theorem ownedBy_queued {startedAt : String} :
    OwnedBy settings (queuedMetadata settings jobId cwd startedAt) :=
  ⟨rfl, rfl⟩

theorem OwnedBy.names {record : Json} {identity : ProcessIdentity} (owned : OwnedBy settings record)
    (isServer : settings.identity = some identity) : NamesServer identity record := by
  simp only [Settings.identity, Option.map_eq_some_iff] at isServer
  rcases isServer with ⟨ticks, hasTicks, rfl⟩
  exact ⟨owned.pid, by rw [owned.startTicks, hasTicks]; rfl⟩

/-- The task holds the lock, and no more jobs are counted. -/
def CountsAtMost (task total : Nat) (directory : Directory) : Prop :=
  directory.lock = some task ∧ {name | directory.Counted name}.encard ≤ total

theorem stable_countsAtMost {total : Nat} : Stable task (CountsAtMost task total) := by
  intro before after relies runs holds
  have kept := relies.locked runs holds.1
  exact ⟨kept.1, (Set.encard_le_encard kept.2.2).trans holds.2⟩

/-- A job is reserved only where there is room for it. -/
theorem reserveJob_ends (limit : settings.maxActiveJobs = host.maxActiveJobs)
    (isId : isJobId jobId = true)
    (known : Knows host task (Doing task (some ⟨settings, jobId, False⟩)) directory) :
    (reserveJob settings jobId cwd).Ensures (acting host task)
      (Ends host task (fun _ => Doing task (some ⟨settings, jobId, True⟩))
        (Doing task (some ⟨settings, jobId, False⟩))) directory := by
  apply ends_withJobState (fun _ doing => doing) (fun _ => doing_of_imp fun _ => trivial) _ known
  intro after known
  apply ends_bind (activeJobCountLocked_ends (fun _ doing => doing) known)
  intro total after known
  by_cases full : settings.maxActiveJobs ≤ total
  · rw [if_pos full]
    exact ⟨by rfl, known.mono fun _ _ _ holds => holds.1⟩
  · rw [if_neg full, checkJobId, if_pos isId]
    have room : total < host.maxActiveJobs := by omega
    have stable : Stable task fun directory =>
        Doing task (some ⟨settings, jobId, False⟩) directory ∧ CountsAtMost task total directory :=
      stable_doing.and stable_countsAtMost
    have started : (await .utcNow).Ensures (acting host task) (Ends host task
        (fun _ directory => Doing task (some ⟨settings, jobId, False⟩) directory ∧
          CountsAtMost task total directory) (Doing task (some ⟨settings, jobId, False⟩))) after :=
      ends_plain (by rfl) (by rfl) stable (fun _ holds => holds.1) known
    apply ends_bind started
    intro startedAt after known
    apply ensures_write stable _ _ _ known
    · intro directory inv runs holds
      have isHeld := holds.1 _ rfl
      refine ⟨?_, ?_, fun _ _ other => absurd isHeld.holder other⟩
      · rcases isHeld.serves runs with ⟨identity, isServer, -⟩
        have sameServer : settings.identity = some identity := isHeld.server.symm.trans isServer
        exact fun _ => ⟨identity, isServer, ownedBy_queued.names sameServer⟩
      · exact fun _ _ => .inr ⟨holds.2.1, holds.2.2.trans_lt (by exact_mod_cast room)⟩
    · exact fun exit after escapes known => ⟨escapes, known.mono fun _ _ _ holds => holds.1⟩
    · intro directory inv runs holds written
      refine ⟨written, fun _ => ?_⟩
      rintro held ⟨⟩
      exact (holds.1 _ rfl).write fun _ => ⟨_, Dict.get?_set_self .., isActive_queued⟩

end Reserve

end Longrun.Server
