import Longrun.Server.Recovery

/-!
# The limit on active jobs

Whatever the order in which the servers of a state directory take their steps, and wherever they fail,
are cancelled or end, no more jobs are active than the servers allow.
-/

namespace Longrun.Server

open Directory

/-! ### The executor -/

section Execute

variable {host : Host} {task : Nat} {directory : Directory} {settings : Settings} {job : JobRequest}
  {wakeMetadata : List (String × Json)} {hasReadyEvent : Bool} {progress : Progress} {request : Call}

/-- The executor of a job that is reserved as long as no final record is written. -/
def Executes (host : Host) (task : Nat) (settings : Settings) (job : JobRequest) (progress : Progress)
    (directory : Directory) : Prop :=
  Knows host task (Doing task (some ⟨settings, job.jobId, progress.Open⟩)) directory

theorem admitted_of_answer {choice reply : Except Exit request.Answer} {after : Directory}
    (served : answer host task directory request choice = some (reply, after)) :
    Admitted request reply := by
  cases request with
  | close fd | closeTransport fd | returncode =>
      cases choice with
      | ok value =>
          cases served
          rfl
      | error exit => cases served
  | _ => trivial

theorem open_add {reply : Except Exit request.Answer} (calm : request.IsCalm = true) :
    (progress.add ⟨request, reply⟩).Open ↔ progress.Open := by
  have same : (progress.add ⟨request, reply⟩).records = progress.records := by
    cases request <;> first | rfl | cases calm
  simp [Progress.Open, Progress.state, same]

theorem isActive_of_open {value : Json} (isOpen : (progress.recorded value).Open) : IsActive value := by
  rw [Progress.Open, Progress.state_recorded] at isOpen
  rcases isOpen with empty | state | state
  · simp [Progress.recorded] at empty
  · simp [IsActive, Option.some.inj state, activeJobStates, Json.isStr, Json.str?]
  · simp [IsActive, Option.some.inj state, activeJobStates, Json.isStr, Json.str?]

/-- A job that is recorded as active is reserved, and its server is named. -/
theorem writable_of_allowed {value : Json} (runs : directory.Runs task)
    (doing : Doing task (some ⟨settings, job.jobId, progress.Open⟩) directory)
    (allowed : Allowed settings job progress (.writeMetadata job.jobId value)) :
    Writable host directory task job.jobId value := by
  have isHeld := doing _ rfl
  rcases allowed with ⟨-, name, isState, recordable, owned⟩
  have active (isActive : IsActive value) : name ∈ activeJobStates ∧ progress.Open := by
    have mem : name ∈ activeJobStates := by
      rcases List.any_eq_true.mp isActive with ⟨state, mem, same⟩
      rw [isState, Json.isStr_iff, Json.str.injEq] at same
      exact same ▸ mem
    refine ⟨mem, ?_⟩
    cases recordable with
    | starting first => exact .inl first
    | running starts => exact .inr (.inl starts)
    | final state => exact absurd mem (final_notMem_active state)
  refine ⟨?_, ?_, fun _ _ other => absurd isHeld.holder other⟩
  · intro isActive
    rcases isHeld.serves runs with ⟨identity, isServer, -⟩
    have sameServer : settings.identity = some identity := isHeld.server.symm.trans isServer
    exact ⟨identity, isServer, (owned (active isActive).1).names sameServer⟩
  · exact fun isActive serves => .inl ((isHeld.active (active isActive).2).counted serves)

theorem Executes.await (executes : Executes host task settings job progress directory)
    (allowed : Allowed settings job progress request) :
    (await request).Ensures (acting host task) (fun reply after => Admitted request reply ∧
      Executes host task settings job (progress.add ⟨request, reply⟩) after) directory := by
  by_cases calm : request.IsCalm = true
  · apply (ensures_calm calm executes).mono
    rintro reply after ⟨known, later, choice, served⟩
    refine ⟨admitted_of_answer served, known.mono ?_⟩
    exact fun _ _ _ => doing_of_imp (open_add calm).mp
  · cases request with
    | newJobId => exact allowed.elim
    | createBackground background => exact allowed.elim
    | writeMetadata jobId value =>
        cases allowed.1
        apply ensures_write stable_doing _ _ _ executes
        · exact fun directory inv runs doing => writable_of_allowed runs doing allowed
        · exact fun exit after _ known => ⟨trivial, known⟩
        · intro directory inv runs doing written
          refine ⟨trivial, written, fun _ => ?_⟩
          rintro held ⟨⟩
          exact (doing _ rfl).write fun isOpen =>
            ⟨value, Dict.get?_set_self .., isActive_of_open isOpen⟩
    | _ => exact absurd rfl calm

/-- The executor of a reserved job. -/
theorem executeJob_reserved (wake : WakeFields wakeMetadata)
    (known : Knows host task (Doing task (some ⟨settings, job.jobId, True⟩)) directory) :
    (executeJob settings job wakeMetadata hasReadyEvent).Ensures (acting host task)
      (fun _ => Knows host task (Doing task (some ⟨settings, job.jobId, False⟩))) directory := by
  have starts : Executes host task settings job .start directory :=
    known.mono fun _ _ _ => doing_of_imp fun _ => trivial
  have ensures : (executeJob settings job wakeMetadata hasReadyEvent).Ensures (executing settings job)
      (Concludes hasReadyEvent) .start := executeJob_ensures wake
  have executed := ensures.transport starts
    (fun progress directory request executes allowed =>
      (Script.ensures_perform.mp (executes.await allowed)).1)
    (fun progress directory request reply after executes allowed happens =>
      have awaited := (Script.ensures_perform.mp (executes.await allowed)).2 reply after happens
      ⟨_, ⟨awaited.1, rfl⟩, awaited.2⟩)
  apply executed.mono
  rintro result after ⟨progress, executes, -⟩
  exact executes.mono fun _ _ _ => doing_of_imp False.elim

end Execute

/-! ### Validation -/

section Validate

variable {host : Host} {task : Nat} {directory : Directory} {settings : Settings} {job : JobRequest}
  {duty : Option Duty}

theorem jobId_withSecret {secret : SecretInput} : (job.withSecret secret).jobId = job.jobId := by
  cases secret <;> rfl

theorem ensures_resolveCwd {Value : Type} {next : String → Coroutine Value}
    {post : Except Exit Value → Directory → Prop} {cwd : String}
    (known : Knows host task (Doing task duty) directory)
    (fails : ∀ exit after, host.resolveCwd cwd = .error exit → Knows host task (Doing task duty) after →
      post (.error exit) after)
    (goesOn : ∀ resolved after, host.resolveCwd cwd = .ok resolved →
      Knows host task (Doing task duty) after → (next resolved).Ensures (acting host task) post after) :
    (await (.resolveCwd cwd) >>= next).Ensures (acting host task) post directory := by
  apply Script.ensures_monadBind.mpr
  apply (ensures_quiet (by rfl) stable_doing known).mono
  rintro reply after ⟨known, choice, served⟩
  rw [answer_resolveCwd] at served
  simp only [Option.some.injEq, Prod.mk.injEq, and_true] at served
  cases reply with
  | ok resolved => exact goesOn resolved after served known
  | error exit => exact fails exit after served known

theorem ensures_validateArgv {Value : Type} {next : List Text → Coroutine Value}
    {post : Except Exit Value → Directory → Prop} {argv : List Text} {cwd : String}
    (known : Knows host task (Doing task duty) directory)
    (fails : ∀ exit after, host.validateArgv argv cwd = .error exit →
      Knows host task (Doing task duty) after → post (.error exit) after)
    (goesOn : ∀ valid after, host.validateArgv argv cwd = .ok valid →
      Knows host task (Doing task duty) after → (next valid).Ensures (acting host task) post after) :
    (await (.validateArgv argv cwd) >>= next).Ensures (acting host task) post directory := by
  apply Script.ensures_monadBind.mpr
  apply (ensures_quiet (by rfl) stable_doing known).mono
  rintro reply after ⟨known, choice, served⟩
  rw [answer_validateArgv] at served
  simp only [Option.some.injEq, Prod.mk.injEq, and_true] at served
  cases reply with
  | ok valid => exact goesOn valid after served known
  | error exit => exact fails exit after served known

theorem ensures_checked {Value Next : Type} {result : Except String Value} {type : String}
    {next : Value → Coroutine Next} {post : Except Exit Next → Directory → Prop}
    (fails : ∀ text, result = .error text → post (.error (.exception type text)) directory)
    (goesOn : ∀ value, result = .ok value → (next value).Ensures (acting host task) post directory) :
    (checked type result >>= next).Ensures (acting host task) post directory := by
  cases result with
  | ok value => exact goesOn value rfl
  | error text => exact fails text rfl

theorem validate_accepts (known : Knows host task (Doing task duty) directory) :
    (validate settings job).Ensures (acting host task) (fun result after =>
      Knows host task (Doing task duty) after ∧
        ∀ valid, result = .ok valid → host.Accepts settings job) directory := by
  apply ensures_resolveCwd known (fun _ _ _ known => ⟨known, by simp⟩)
  intro cwd after isCwd known
  apply ensures_validateArgv known (fun _ _ _ known => ⟨known, by simp⟩)
  intro argv after isArgv known
  split
  · exact ⟨known, by simp⟩
  · rename_i inTime
    apply ensures_checked (fun _ _ => ⟨known, by simp⟩)
    intro successContains isSuccess
    apply ensures_checked (fun _ _ => ⟨known, by simp⟩)
    intro failureContains isFailure
    apply ensures_checked (fun _ _ => ⟨known, by simp⟩)
    intro secret isSecret
    apply Script.ensures_monadBind.mpr
    apply (maintains_quiet (by rfl) stable_doing after known).mono
    intro reply last known
    cases reply with
    | error exit => exact ⟨known, by simp⟩
    | ok forwarded =>
        exact ⟨known, fun _ _ => ⟨cwd, argv, successContains, failureContains, secret, isCwd, isArgv,
          not_lt.mp inTime, isSuccess, isFailure, isSecret⟩⟩

/-- Where the request does not pass, the validation of `start_job` tells so. -/
theorem prevalidate_ensures (known : Knows host task (Doing task duty) directory) :
    (prevalidate settings job).Ensures (acting host task) (fun result after =>
      Knows host task (Doing task duty) after ∧ ∀ cwd other, result = .ok (cwd, other) →
        other.jobId = job.jobId ∧ (cwd = none → ¬host.Accepts settings other)) directory := by
  have rejects {body : Coroutine (Option String × JobRequest)}
      (ensures : body.Ensures (acting host task) (fun result after =>
        Knows host task (Doing task duty) after ∧ (result.isOk = false → ¬host.Accepts settings job) ∧
          ∀ cwd other, result = .ok (cwd, other) → other.jobId = job.jobId ∧ cwd.isSome = true)
            directory) :
      (catchingAll body fun _ _ => pure (none, job)).Ensures (acting host task) (fun result after =>
        Knows host task (Doing task duty) after ∧ ∀ cwd other, result = .ok (cwd, other) →
          other.jobId = job.jobId ∧ (cwd = none → ¬host.Accepts settings other)) directory := by
    apply Script.ensures_handle.mpr
    apply ensures.mono
    rintro result after ⟨known, rejected, found⟩
    cases result with
    | ok value =>
        refine ⟨known, ?_⟩
        rintro cwd other ⟨⟩
        have isFound := found _ _ rfl
        refine ⟨isFound.1, ?_⟩
        rintro rfl
        exact absurd isFound.2 (by simp)
    | error exit =>
        cases exit with
        | cancelled => exact ⟨known, by simp⟩
        | exception type text =>
            refine ⟨known, ?_⟩
            rintro cwd other ⟨⟩
            exact ⟨rfl, fun _ => rejected rfl⟩
  apply rejects
  apply ensures_resolveCwd known
  · rintro exit after failed known
    refine ⟨known, fun _ => ?_, by simp⟩
    rintro ⟨cwd, _, _, _, _, isCwd, -⟩
    simp [failed] at isCwd
  intro cwd after isCwd known
  apply ensures_validateArgv known
  · rintro exit after failed known
    refine ⟨known, fun _ => ?_, by simp⟩
    rintro ⟨_, _, _, _, _, sameCwd, isArgv, -⟩
    simp_all
  intro argv after isArgv known
  split
  · rename_i late
    refine ⟨known, fun _ => ?_, by simp⟩
    rintro ⟨_, _, _, _, _, -, -, inTime, -⟩
    omega
  apply ensures_checked
  · rintro text failed
    refine ⟨known, fun _ => ?_, by simp⟩
    rintro ⟨_, _, _, _, _, -, -, -, isSuccess, -⟩
    simp_all
  intro successContains isSuccess
  apply ensures_checked
  · rintro text failed
    refine ⟨known, fun _ => ?_, by simp⟩
    rintro ⟨_, _, _, _, _, -, -, -, -, isFailure, -⟩
    simp_all
  intro failureContains isFailure
  apply ensures_checked
  · rintro text failed
    refine ⟨known, fun _ => ?_, by simp⟩
    rintro ⟨_, _, _, _, _, -, -, -, sameSuccess, sameFailure, isSecret⟩
    simp_all
  intro secret isSecret
  refine ⟨known, by simp [Except.isOk, Except.toBool], ?_⟩
  rintro found other ⟨⟩
  exact ⟨jobId_withSecret, rfl⟩

end Validate

/-! ### Rejected jobs -/

section Reject

variable {host : Host} {task : Nat} {directory : Directory} {settings : Settings} {job : JobRequest}
  {wakeMetadata : List (String × Json)} {hasReadyEvent : Bool}

theorem ready_maintains {execution : Execution} {duty : Option Duty} :
    execution.ready.Maintains (acting host task) (Knows host task (Doing task duty)) := by
  rw [Execution.ready]
  split
  · exact maintains_calm (by rfl)
  · exact Script.maintains_pure _

/-- The result of a rejected job is a final record. -/
theorem reject_ensures {execution : Execution} {exitCode : Option Int}
    {display cwd error : String} {supplied : Bool} {seen : Option TrackerReport} {reserved : Prop}
    (wake : WakeFields execution.wakeMetadata)
    (known : Knows host task (Doing task (some ⟨settings, execution.job.jobId, reserved⟩)) directory) :
    (execution.fail exitCode display cwd supplied error seen).Ensures (acting host task)
      (fun _ => Knows host task (Doing task (some ⟨settings, execution.job.jobId, False⟩)))
        directory := by
  have weaken : ∀ directory, Inv host directory → directory.Runs task →
      Doing task (some ⟨settings, execution.job.jobId, reserved⟩) directory →
        Doing task (some ⟨settings, execution.job.jobId, False⟩) directory :=
    fun _ _ _ => doing_of_imp False.elim
  apply ensures_next (maintains_calm (by rfl) directory known) weaken
  intro duration after known
  apply ensures_next (maintains_calm (by rfl) after known) weaken
  intro finishedAt after known
  have shown : RunResult.ShownBy (execution.result .spawnError exitCode duration finishedAt display cwd
      supplied (some error) seen) (updated (execution.result .spawnError exitCode duration finishedAt
        display cwd supplied (some error) seen).dump execution.wakeMetadata) :=
    RunResult.shownBy_updated wake.others
  have final : ¬IsActive (updated (execution.result .spawnError exitCode duration finishedAt display cwd
      supplied (some error) seen).dump execution.wakeMetadata) := by
    intro isActive
    rcases List.any_eq_true.mp isActive with ⟨name, mem, same⟩
    rw [shown.state, Json.isStr_iff, Json.str.injEq] at same
    exact final_notMem_active .spawnError (same ▸ mem)
  have writes : (await (.writeMetadata execution.job.jobId (updated (execution.result .spawnError exitCode
      duration finishedAt display cwd supplied (some error) seen).dump
        execution.wakeMetadata))).Ensures (acting host task)
      (fun _ => Knows host task (Doing task (some ⟨settings, execution.job.jobId, False⟩))) after := by
    apply ensures_write stable_doing _ _ _ known
    · exact fun directory _ _ doing => writable_final doing final
    · exact fun exit last _ known => known.mono weaken
    · exact fun directory _ _ doing written => ⟨written, fun _ => doing.writeFinal⟩
  apply ensures_next writes fun _ _ _ doing => doing
  intro _ after known
  apply ensures_next (ready_maintains after known) fun _ _ _ doing => doing
  exact fun _ after known => known

theorem executeJob_rejected {reserved : Prop} (wake : WakeFields wakeMetadata)
    (rejected : ¬host.Accepts settings job)
    (known : Knows host task (Doing task (some ⟨settings, job.jobId, reserved⟩)) directory) :
    (executeJob settings job wakeMetadata hasReadyEvent).Ensures (acting host task)
      (fun _ => Knows host task (Doing task (some ⟨settings, job.jobId, False⟩))) directory := by
  have weaken : ∀ directory, Inv host directory → directory.Runs task →
      Doing task (some ⟨settings, job.jobId, reserved⟩) directory →
        Doing task (some ⟨settings, job.jobId, False⟩) directory :=
    fun _ _ _ => doing_of_imp False.elim
  apply ensures_next (maintains_calm (by rfl) directory known) weaken
  intro _ after known
  apply ensures_next (maintains_calm (by rfl) after known) weaken
  intro startedAt after known
  apply ensures_next (maintains_calm (by rfl) after known) weaken
  intro started after known
  apply Script.ensures_monadBind.mpr
  apply Script.ensures_attempt.mpr
  apply (validate_accepts known).mono
  rintro result after ⟨known, accepts⟩
  cases result with
  | ok valid => exact absurd (accepts valid rfl) rejected
  | error exit =>
      cases exit with
      | cancelled => exact known.mono weaken
      | exception type text =>
          have sameWake : WakeFields (Execution.mk settings job wakeMetadata hasReadyEvent startedAt
            started).wakeMetadata := wake
          exact reject_ensures sameWake known

/-- The executor of a job that is reserved or will be rejected. -/
theorem executeJob_limited (wake : WakeFields wakeMetadata)
    (known : Knows host task (Doing task (some ⟨settings, job.jobId, host.Accepts settings job⟩))
      directory) :
    (executeJob settings job wakeMetadata hasReadyEvent).Ensures (acting host task)
      (fun _ => Knows host task (Doing task (some ⟨settings, job.jobId, False⟩))) directory := by
  by_cases accepts : host.Accepts settings job
  · exact executeJob_reserved wake (known.mono fun _ _ _ => doing_of_imp fun _ => accepts)
  · exact executeJob_rejected wake accepts known

end Reject

/-! ### Tools that leave jobs as they are -/

section Tools

variable {host : Host} {task : Nat} {settings : Settings} {duty : Option Duty} {jobId : String}
  {registration : WakeRegistration}

theorem checkJobId_maintains {assertion : Directory → Prop} :
    (checkJobId jobId).Maintains (acting host task) assertion := by
  rw [checkJobId]
  split
  · exact Script.maintains_pure _
  · exact Script.maintains_raised _

theorem readJobMetadata_maintains :
    (readJobMetadata jobId).Maintains (acting host task) (Knows host task (Doing task duty)) := by
  apply checkJobId_maintains.bind
  intro _
  apply Script.Maintains.bind
  · exact catching_maintains (maintains_calm (by rfl)) fun _ => Script.maintains_raised _
  · intro payload
    split
    · exact Script.maintains_raised _
    · split
      · exact Script.maintains_pure _
      · apply (maintains_calm (by rfl)).bind
        intro allowed
        split
        · exact Script.maintains_pure _
        · exact Script.maintains_raised _

theorem abortWakeRegistration_maintains :
    (abortWakeRegistration jobId registration).Maintains (acting host task)
      (Knows host task (Doing task duty)) := by
  apply catching_maintains
  · apply (maintains_calm (by rfl)).bind
    exact fun _ => Script.maintains_pure _
  · exact fun _ => updateJobMetadata_maintains (by simp [LeavesState])

theorem isFailedDelivery_maintains {delivery : Json} {assertion : Directory → Prop} :
    (isFailedDelivery delivery).Maintains (acting host task) assertion := by
  rw [isFailedDelivery]
  split
  · exact Script.maintains_pure _
  · exact Script.maintains_raised _

theorem tellTerminal_maintains {state : String} :
    (tellTerminal jobId registration state).Maintains (acting host task)
      (Knows host task (Doing task duty)) := by
  apply (maintains_calm (by rfl)).bind
  intro response
  apply isFailedDelivery_maintains.bind
  intro failed
  apply updateJobMetadata_maintains
  cases failed <;> simp [LeavesState]

theorem deliverTerminalWakeup_maintains :
    (deliverTerminalWakeup settings jobId registration).Maintains (acting host task)
      (Knows host task (Doing task duty)) := by
  apply readJobMetadata_maintains.attempt.bind
  intro result
  cases result with
  | error exit =>
      cases exit with
      | cancelled => exact Script.maintains_raised _
      | exception type text => exact Script.maintains_pure _
  | ok payload =>
      dsimp only
      generalize settings.str _ = state
      split
      · apply catching_maintains tellTerminal_maintains
        exact fun _ => updateJobMetadata_maintains (by simp [LeavesState])
      · exact Script.maintains_pure _

theorem sessionHandoff_maintains :
    (sessionHandoff settings jobId registration).Maintains (acting host task)
      (Knows host task (Doing task duty)) := by
  apply catchingAll_maintains
  · apply readJobMetadata_maintains.bind
    intro payload
    apply (maintains_calm (by rfl)).bind
    intro response
    split
    · exact Script.maintains_raised _
    · exact updateJobMetadata_maintains (by simp [LeavesState])
  · intro type text
    apply abortWakeRegistration_maintains.bind
    intro _
    apply Script.Maintains.bind
    · exact updateJobMetadata_maintains (by simp [LeavesState])
    · exact fun _ => Script.maintains_raised _

theorem refreshWakeup_maintains {socketPath : String} {payload : Json} :
    (refreshWakeup jobId socketPath payload).Maintains (acting host task)
      (Knows host task (Doing task duty)) := by
  apply ignoring_maintains
  apply (maintains_calm (by rfl)).bind
  intro wake
  apply isFailedDelivery_maintains.bind
  intro failed
  apply updateJobMetadata_maintains
  cases failed <;> simp [LeavesState]

theorem getJob_maintains :
    (getJob settings jobId).Maintains (acting host task) (Knows host task (Doing task duty)) := by
  apply readJobMetadata_maintains.bind
  intro payload
  split
  · split
    · apply refreshWakeup_maintains.bind
      exact fun _ => readJobMetadata_maintains
    · exact readJobMetadata_maintains
  · exact readJobMetadata_maintains

theorem cancelWakeup_maintains {context : Context} :
    (cancelWakeup settings jobId context).Maintains (acting host task)
      (Knows host task (Doing task duty)) := by
  apply readJobMetadata_maintains.bind
  intro payload
  split
  · split
    · exact Script.maintains_raised _
    · split
      · exact Script.maintains_raised _
      · apply (maintains_calm (by rfl)).bind
        intro reply
        split
        · apply Script.Maintains.bind
          · exact updateJobMetadata_maintains (by simp [LeavesState])
          · exact fun _ => Script.maintains_pure _
        · exact Script.maintains_pure _
  · exact Script.maintains_raised _

theorem signalSupervisor_maintains {payload : Json} :
    (signalSupervisor payload).Maintains (acting host task) (Knows host task (Doing task duty)) := by
  apply (pidMatches_maintains stable_doing).bind
  intro isRecorded
  split
  · exact ignoring_maintains (maintains_calm (by rfl))
  · exact Script.maintains_pure _

end Tools

/-! ### Cancelling -/

section Cancel

variable {host : Host} {task : Nat} {directory : Directory} {settings : Settings} {duty : Option Duty}
  {jobId : String}

/-- What has been read under the lock may be written back. -/
def Reads (host : Host) (task : Nat) (duty : Option Duty) (jobId : String) (result : Except Exit Json)
    (directory : Directory) : Prop :=
  Knows host task (Doing task duty) directory ∧ ∀ payload, result = .ok payload →
    Knows host task (fun directory => Doing task duty directory ∧ Fetched task jobId payload directory)
      directory

theorem ensures_load (known : Knows host task (fun directory => Doing task duty directory ∧
      Inside task Set.univ directory) directory) :
    (await (.loadMetadata jobId)).Ensures (acting host task) (Reads host task duty jobId) directory := by
  apply ensures_served (stable_doing.and stable_inside) _ known
  intro later choice reply after inv runs holds served
  have relocks := answer_calm (by rfl) served
  refine ⟨relocks.inv inv, fun other different => relocks.relies different,
    ⟨relocks.inv inv, fun _ => relocks.doing holds.1⟩, ?_⟩
  rintro payload rfl
  cases choice with
  | error exit =>
      rw [answer_loadMetadata_error] at served
      simp at served
  | ok value =>
      rw [answer_loadMetadata] at served
      simp only [Option.map_eq_some_iff, Prod.mk.injEq, Except.ok.injEq] at served
      rcases served with ⟨stored, found, rfl, rfl⟩
      have isRead : Locked task ((later.files.get? jobId).map fun payload => (jobId, payload)) _
          (later.read task jobId) := holds.2.read
      rw [found] at isRead
      exact ⟨relocks.inv inv, fun _ => ⟨relocks.doing holds.1, fetched_of_locked isRead⟩⟩

theorem ensures_checkJobId {Value : Type} {next : Unit → Coroutine Value}
    {post : Except Exit Value → Directory → Prop} (fails : ∀ exit, post (.error exit) directory)
    (goesOn : (next ()).Ensures (acting host task) post directory) :
    (checkJobId jobId >>= next).Ensures (acting host task) post directory := by
  rw [checkJobId]
  split
  · exact goesOn
  · exact fails _

theorem readJobMetadata_reads (known : Knows host task (fun directory => Doing task duty directory ∧
      Inside task Set.univ directory) directory) :
    (readJobMetadata jobId).Ensures (acting host task) (Reads host task duty jobId) directory := by
  have fails {exit : Exit} {after : Directory} (known : Knows host task (Doing task duty) after) :
      Reads host task duty jobId (.error exit) after := ⟨known, by simp⟩
  apply ensures_checkJobId fun _ => fails (known.mono fun _ _ _ holds => holds.1)
  apply Script.ensures_monadBind.mpr
  apply Script.ensures_handle.mpr
  apply (ensures_load known).mono
  rintro result after ⟨doing, reads⟩
  cases result with
  | error exit =>
      cases exit with
      | cancelled => exact fails doing
      | exception type text =>
          rw [Script.orElse]
          dsimp only
          split
          · exact fails doing
          · exact fails doing
  | ok payload =>
      have fetched := reads payload rfl
      have found {after : Directory} (fetched : Knows host task (fun directory =>
          Doing task duty directory ∧ Fetched task jobId payload directory) after) :
          Reads host task duty jobId (.ok payload) after := by
        refine ⟨fetched.mono fun _ _ _ holds => holds.1, ?_⟩
        rintro _ ⟨⟩
        exact fetched
      apply Script.ensures_done.mpr
      apply Script.leads_ok.mpr
      split
      · exact fails doing
      · split
        · exact found fetched
        · apply Script.ensures_monadBind.mpr
          apply (maintains_quiet (by rfl) (stable_doing.and stable_fetched) after fetched).mono
          intro result after known
          cases result with
          | error exit => exact fails (known.mono fun _ _ _ holds => holds.1)
          | ok allowed =>
              cases allowed with
              | true => exact found known
              | false => exact fails (known.mono fun _ _ _ holds => holds.1)

theorem recordCancellation_maintains :
    (recordCancellation settings jobId).Maintains (acting host task)
      (Knows host task (Doing task duty)) := by
  intro directory known
  apply ensures_withJobState (fun _ doing => doing) _ known
  intro after known
  apply Script.ensures_monadBind.mpr
  apply (readJobMetadata_reads known).mono
  rintro result after ⟨doing, reads⟩
  cases result with
  | error exit => exact doing
  | ok payload =>
      have fetched := reads payload rfl
      apply Script.leads_ok.mpr
      dsimp only
      generalize settings.str _ = state
      split
      · exact doing
      · have weaken : ∀ directory, Inv host directory → directory.Runs task →
            Doing task duty directory ∧ Fetched task jobId payload directory →
              Doing task duty directory := fun _ _ _ holds => holds.1
        have stable : Stable task fun directory =>
            Doing task duty directory ∧ Fetched task jobId payload directory :=
          stable_doing.and stable_fetched
        apply ensures_next (maintains_quiet (by rfl) stable after fetched) weaken
        intro now after fetched
        apply ensures_checkJobId fun _ => fetched.mono weaken
        have free : LeavesState [("cancel_requested_at_utc", Json.str now)] := by simp [LeavesState]
        have writes : (await (.writeMetadata jobId
            (updated payload [("cancel_requested_at_utc", .str now)]))).Ensures (acting host task)
              (fun _ => Knows host task (Doing task duty)) after := by
          apply ensures_write stable _ _ _ fetched
          · exact fun directory inv _ holds => holds.2.writable inv free.isActive fun _ => free.names
          · exact fun exit last _ known => known.mono weaken
          · exact fun directory inv runs holds written => ⟨written, fun _ => holds.1.write runs
              fun isCounted => free.isActive.mpr (holds.2.active isCounted)⟩
        apply ensures_next writes fun _ _ _ doing => doing
        exact fun _ _ known => known

theorem cancelJob_maintains :
    (cancelJob settings jobId).Maintains (acting host task) (Knows host task (Doing task duty)) := by
  apply recordCancellation_maintains.bind
  intro recorded
  cases recorded with
  | none => exact Script.maintains_pure _
  | some payload =>
      apply (maintains_calm (by rfl)).bind
      intro cancelled
      cases cancelled with
      | true => exact Script.maintains_pure _
      | false =>
          apply signalSupervisor_maintains.bind
          exact fun _ => Script.maintains_pure _

end Cancel

/-! ### Background tasks -/

section Background

variable {host : Host} {task : Nat} {directory : Directory} {settings : Settings}
  {background : BackgroundJob} {jobId : String}

theorem not_isActive_backgroundError {payload : Json} {type text finishedAt : String}
    {more : List (String × Json)} (isDict : payload.isDict = true)
    (absent : "state" ∉ more.map Prod.fst) :
    ¬IsActive (updated payload (backgroundError type text finishedAt ++ more)) := by
  apply not_isActive_final isDict _ (by decide)
  simpa using absent

theorem storedMetadata_maintains {duty : Option Duty} :
    (storedMetadata jobId).Maintains (acting host task) (Knows host task (Doing task duty)) := by
  apply (maintains_calm (by rfl)).bind
  intro payload
  cases payload with
  | some payload => exact Script.maintains_pure _
  | none =>
      apply (maintains_calm (by rfl)).bind
      exact fun _ => Script.maintains_pure _

theorem recordFailure_maintains {type text : String} :
    (recordFailure jobId type text).Maintains (acting host task)
      (Knows host task (Doing task (some ⟨settings, jobId, False⟩))) := by
  intro directory known
  apply ensures_withJobState (fun _ doing => doing) _ known
  intro after known
  have same : ∀ directory, Inv host directory → directory.Runs task →
      Doing task (some ⟨settings, jobId, False⟩) directory →
        Doing task (some ⟨settings, jobId, False⟩) directory := fun _ _ _ doing => doing
  apply ensures_next (storedMetadata_maintains after (known.mono fun _ _ _ holds => holds.1)) same
  intro payload after known
  apply ensures_next (maintains_calm (by rfl) after known) same
  intro finishedAt after known
  by_cases isDict : payload.isDict = true
  · rw [if_neg (not_not.mpr isDict)]
    have final : ¬IsActive (updated payload (backgroundError type text finishedAt ++ [])) :=
      not_isActive_backgroundError isDict (by simp)
    rw [List.append_nil] at final
    apply ensures_write stable_doing _ _ _ known
    · exact fun directory _ _ doing => writable_final doing final
    · exact fun exit last _ known => known
    · exact fun directory _ _ doing written => ⟨written, fun _ => doing.writeFinal⟩
  · rw [if_pos isDict]
    exact known

theorem runBackgroundJob_ensures (wake : WakeFields background.wakeMetadata)
    (known : Knows host task (Doing task (some ⟨settings, background.job.jobId,
      host.Accepts settings background.job⟩)) directory) :
    (runBackgroundJob settings background).Ensures (acting host task)
      (fun _ => Knows host task (Doing task (some ⟨settings, background.job.jobId, False⟩)))
        directory := by
  have executed : (catchingAll (executeJob settings background.job background.wakeMetadata true)
      fun type text => do
        let finishedAt ← await .utcNow
        updateJobMetadata background.job.jobId
          (backgroundError type text finishedAt ++ background.wakeMetadata)
        .raised (.exception type text)).Ensures (acting host task)
      (fun _ => Knows host task (Doing task (some ⟨settings, background.job.jobId, False⟩)))
        directory := by
    apply Script.ensures_handle.mpr
    apply (executeJob_limited wake known).mono
    intro result after known
    cases result with
    | ok value => exact known
    | error exit =>
        cases exit with
        | cancelled => exact known
        | exception type text =>
            have same : ∀ directory, Inv host directory → directory.Runs task →
                Doing task (some ⟨settings, background.job.jobId, False⟩) directory →
                  Doing task (some ⟨settings, background.job.jobId, False⟩) directory :=
              fun _ _ _ doing => doing
            apply ensures_next (maintains_calm (by rfl) after known) same
            intro finishedAt after known
            apply ensures_next (updateJobMetadata_final _ known) same
            · exact fun _ _ known => known
            · exact fun payload isDict => not_isActive_backgroundError isDict wake.state
  apply Script.ensures_finish.mpr
  apply executed.mono
  intro result after known
  have delivers : (deliverRegistered settings background.job.jobId background.registration).Maintains
      (acting host task) (Knows host task (Doing task (some ⟨settings, background.job.jobId, False⟩))) := by
    cases background.registration with
    | some registration => exact deliverTerminalWakeup_maintains
    | none => exact Script.maintains_pure _
  apply (delivers after known).mono
  intro reply last known
  cases reply with
  | ok value => exact Script.ensures_ofExcept.mpr known
  | error exit => exact known

theorem backgroundTask_ensures (wake : WakeFields background.wakeMetadata)
    (known : Knows host task (Doing task (some ⟨settings, background.job.jobId,
      host.Accepts settings background.job⟩)) directory) :
    (backgroundTask settings background).Ensures (acting host task)
      (fun _ => Knows host task (Doing task (some ⟨settings, background.job.jobId, False⟩)))
        directory := by
  apply Script.ensures_monadBind.mpr
  apply Script.ensures_attempt.mpr
  apply (runBackgroundJob_ensures wake known).mono
  intro result after known
  have consumes : (consumeBackgroundResult background.job.jobId result).Maintains (acting host task)
      (Knows host task (Doing task (some ⟨settings, background.job.jobId, False⟩))) := by
    apply (maintains_calm (by rfl)).bind
    intro _
    cases result with
    | ok value => exact Script.maintains_pure _
    | error exit =>
        cases exit with
        | cancelled => exact Script.maintains_pure _
        | exception type text => exact recordFailure_maintains
  exact consumes after known

end Background

/-! ### Starting jobs -/

section Start

variable {host : Host} {task : Nat} {directory : Directory} {settings : Settings} {job : JobRequest}
  {context : Context} {policy : WakePolicy} {duty : Option Duty} {jobId : String}

/-- A task of the server. -/
def Begun (task : Nat) (settings : Settings) (directory : Directory) : Prop :=
  directory.settings task = some settings

theorem stable_begun : Stable task (Begun task settings) :=
  fun _ _ relies _ begun => relies.settings.trans begun

/-- A new identifier is the task's own. -/
theorem ensures_newJobId (known : Knows host task (Begun task settings) directory) :
    (await .newJobId).Ensures (acting host task) (fun reply after => Inv host after ∧
      ∀ jobId, reply = .ok jobId → isJobId jobId = true ∧
        Knows host task (Doing task (some ⟨settings, jobId, False⟩)) after) directory := by
  apply ensures_served stable_begun _ known
  intro later choice reply after inv runs begun served
  cases choice with
  | error exit =>
      rw [answer_newJobId_error] at served
      simp only [Option.some.injEq, Prod.mk.injEq] at served
      rcases served with ⟨rfl, rfl⟩
      exact ⟨inv, fun other _ => Relies.refl .., inv, by simp⟩
  | ok jobId =>
      rw [answer_newJobId] at served
      simp only [Option.ite_none_right_eq_some, Option.some.injEq, Prod.mk.injEq] at served
      rcases served with ⟨⟨isId, fresh⟩, rfl, rfl⟩
      have issued := inv.issue fresh runs
      refine ⟨issued, fun other _ => Relies.issue inv fresh, issued, ?_⟩
      rintro _ ⟨⟩
      refine ⟨isId, issued, fun _ => ?_⟩
      rintro held ⟨⟩
      refine ⟨begun, Function.update_self .., ?_, False.elim⟩
      change Function.update later.servers jobId (later.serverOf task) jobId = settings.identity
      rw [Function.update_self, serverOf, begun]
      rfl

/-- The job is handed to its background task. -/
theorem ensures_createBackground {background : BackgroundJob} (wake : WakeFields background.wakeMetadata)
    (known : Knows host task (Doing task (some ⟨settings, background.job.jobId,
      host.Accepts settings background.job⟩)) directory) :
    (await (.createBackground background)).Ensures (acting host task)
      (fun _ => Knows host task (Doing task none)) directory := by
  apply ensures_served stable_doing _ known
  intro later choice reply after inv runs doing served
  have isHeld := doing _ rfl
  cases choice with
  | error exit =>
      rw [answer_createBackground_error] at served
      simp only [Option.some.injEq, Prod.mk.injEq] at served
      rcases served with ⟨rfl, rfl⟩
      exact ⟨inv, fun other _ => Relies.refl .., inv, fun _ => doing_none⟩
  | ok value =>
      rw [answer_createBackground] at served
      simp only [isHeld.settings, Option.map_some, Option.some.injEq, Prod.mk.injEq] at served
      rcases served with ⟨rfl, rfl⟩
      have created := inv.create isHeld.holder isHeld.server (fun accepts _ => isHeld.active accepts) wake
      exact ⟨created, fun other different => Relies.create different isHeld.holder, created,
        fun _ => doing_none⟩

theorem requestWakeup_maintains {socketPath threadId : String} :
    (requestWakeup job context policy socketPath threadId).Maintains (acting host task)
      (Knows host task (Doing task duty)) := by
  apply Script.Maintains.bind
  · rw [checkSessionSupport]
    split
    · apply (maintains_calm (by rfl)).bind
      intro health
      split
      · exact Script.maintains_pure _
      · exact Script.maintains_raised _
    · exact Script.maintains_pure _
  · exact fun _ => maintains_calm (by rfl)

theorem abandonWakeup_maintains {socketPath threadId text : String} :
    (abandonWakeup jobId socketPath threadId text).Maintains (acting host task)
      (Knows host task (Doing task duty)) := by
  apply Script.Maintains.bind
  · apply ignoring_maintains
    apply (maintains_calm (by rfl)).bind
    exact fun _ => Script.maintains_pure _
  · exact fun _ => Script.maintains_raised _

theorem prepareWakeRegistration_maintains :
    (prepareWakeRegistration settings job context policy).Maintains (acting host task)
      (Knows host task (Doing task duty)) := by
  rw [prepareWakeRegistration]
  split
  · exact Script.maintains_pure _
  · split
    · apply Script.Maintains.bind
      · exact catching_maintains requestWakeup_maintains fun _ => abandonWakeup_maintains
      · intro response
        split
        · exact Script.maintains_raised _
        · split
          · exact Script.maintains_raised _
          · split
            · exact Script.maintains_raised _
            · exact Script.maintains_pure _
    · split
      · exact Script.maintains_pure _
      · exact Script.maintains_raised _

/-- Where the wakeup cannot be prepared, the job is recorded as failed. -/
theorem register_ensures
    (known : Knows host task (Doing task (some ⟨settings, job.jobId, True⟩)) directory) :
    (register settings job context policy).Ensures (acting host task) (fun result after =>
      Knows host task (Doing task (some ⟨settings, job.jobId, False⟩)) after ∧ ∀ value,
        result = .ok value → Knows host task (Doing task (some ⟨settings, job.jobId, True⟩)) after)
          directory := by
  have weaken : ∀ directory, Inv host directory → directory.Runs task →
      Doing task (some ⟨settings, job.jobId, True⟩) directory →
        Doing task (some ⟨settings, job.jobId, False⟩) directory :=
    fun _ _ _ => doing_of_imp False.elim
  apply Script.ensures_handle.mpr
  apply (prepareWakeRegistration_maintains directory known).mono
  intro result after known
  cases result with
  | ok value => exact ⟨known.mono weaken, fun _ _ => known⟩
  | error exit =>
      cases exit with
      | cancelled => exact ⟨known.mono weaken, by simp⟩
      | exception type text =>
          apply Script.ensures_monadBind.mpr
          apply (maintains_calm (by rfl) after known).mono
          intro reply after known
          cases reply with
          | error exit => exact ⟨known.mono weaken, by simp⟩
          | ok finishedAt =>
              apply Script.ensures_monadBind.mpr
              apply (updateJobMetadata_final _ known).mono
              · intro reply after known
                cases reply with
                | error exit => exact ⟨known, by simp⟩
                | ok value => exact ⟨known, by simp⟩
              · exact fun payload isDict => not_isActive_final isDict (by simp) (by decide)

theorem wakeFields_wakeMetadata {registration : Option WakeRegistration} {delivery : Option String} :
    WakeFields (wakeMetadata policy registration delivery) := by
  intro field mem
  cases registration <;> cases delivery <;> simp [wakeMetadata] at mem <;>
    rcases mem with rfl | rfl | rfl | rfl | rfl <;> simp [wakeFieldNames]

theorem WakeFields.leavesState {fields : List (String × Json)} (wake : WakeFields fields) :
    LeavesState fields := by
  have others : ∀ key ∈ ["state", "server_pid", "server_start_ticks"], key ∉ wakeFieldNames := by decide
  exact fun key mem => wake.notMem (others key mem)

/-- What the preparation of a job has led to: it is reserved if it passes validation. -/
def Prepared (host : Host) (task : Nat) (settings : Settings) (jobId : String) (reserved : Prop) :
    Except Exit (Option WakeRegistration × List (String × Json)) → Directory → Prop
  | .ok (_, fields), directory => WakeFields fields ∧
      Knows host task (Doing task (some ⟨settings, jobId, reserved⟩)) directory
  | .error _, directory => Inv host directory

theorem reserveAndRegister_ensures {cwd : String} (limit : settings.maxActiveJobs = host.maxActiveJobs)
    (isId : isJobId job.jobId = true)
    (known : Knows host task (Doing task (some ⟨settings, job.jobId, False⟩)) directory) :
    (reserveAndRegister settings job context policy cwd).Ensures (acting host task)
      (Prepared host task settings job.jobId True) directory := by
  apply Script.ensures_monadBind.mpr
  apply (reserveJob_ends limit isId known).mono
  intro result after ended
  cases result with
  | error exit => exact ended.2.1
  | ok value =>
      apply Script.ensures_monadBind.mpr
      apply (register_ensures ended).mono
      rintro result after ⟨known, registers⟩
      cases result with
      | error exit => exact known.1
      | ok registered =>
          have free : LeavesState (wakeMetadata policy registered.1 registered.2) :=
            wakeFields_wakeMetadata.leavesState
          apply Script.ensures_monadBind.mpr
          apply (updateJobMetadata_maintains free after (registers registered rfl)).mono
          intro result after known
          cases result with
          | error exit => exact known.1
          | ok value => exact ⟨wakeFields_wakeMetadata, known⟩

theorem reserveIfValid_ensures {cwd : Option String} (limit : settings.maxActiveJobs = host.maxActiveJobs)
    (isId : isJobId job.jobId = true)
    (known : Knows host task (Doing task (some ⟨settings, job.jobId, False⟩)) directory) :
    (reserveIfValid settings job context policy cwd).Ensures (acting host task)
      (Prepared host task settings job.jobId (cwd.isSome = true)) directory := by
  cases cwd with
  | none => exact ⟨wakeFields_wakeMetadata, known.mono fun _ _ _ => doing_of_imp (by simp)⟩
  | some cwd =>
      apply (reserveAndRegister_ensures limit isId known).mono
      intro result after prepared
      cases result with
      | error exit => exact prepared
      | ok value => exact ⟨prepared.1, prepared.2.mono fun _ _ _ => doing_of_imp fun _ => trivial⟩

theorem launchBackground_ensures {background : BackgroundJob} (wake : WakeFields background.wakeMetadata)
    (known : Knows host task (Doing task (some ⟨settings, background.job.jobId,
      host.Accepts settings background.job⟩)) directory) :
    (launchBackground background).Ensures (acting host task)
      (fun _ => Knows host task (Doing task none)) directory := by
  have same : ∀ directory, Inv host directory → directory.Runs task → Doing task none directory →
      Doing task none directory := fun _ _ _ doing => doing
  have created : (catchingAll (await (.createBackground background)) fun type text => do
      abortIfRegistered background.job.jobId background.registration
      .raised (.exception type text)).Ensures (acting host task)
        (fun _ => Knows host task (Doing task none)) directory := by
    have aborts : (abortIfRegistered background.job.jobId background.registration).Maintains
        (acting host task) (Knows host task (Doing task none)) := by
      cases background.registration with
      | some registration => exact abortWakeRegistration_maintains
      | none => exact Script.maintains_pure _
    apply Script.ensures_handle.mpr
    apply (ensures_createBackground wake known).mono
    intro result after known
    cases result with
    | ok value => exact known
    | error exit =>
        cases exit with
        | cancelled => exact known
        | exception type text =>
            apply ensures_next (aborts after known) same
            exact fun _ _ known => known
  apply ensures_next created same
  exact fun _ after known => ignoring_maintains (maintains_calm (by rfl)) after known

theorem handOver_maintains {registration : Option WakeRegistration} :
    (handOver jobId registration).Maintains (acting host task) (Knows host task (Doing task duty)) := by
  cases registration with
  | none => exact Script.maintains_pure _
  | some registration =>
      rw [handOver]
      split
      · apply (maintains_calm (by rfl)).bind
        exact fun _ => maintains_calm (by rfl)
      · exact Script.maintains_pure _

theorem startJob_ensures {request : JobRequest} (limit : settings.maxActiveJobs = host.maxActiveJobs)
    (known : Knows host task (Begun task settings) directory) :
    (startJob settings request context policy).Ensures (acting host task) (fun _ => Inv host)
      directory := by
  apply Script.ensures_monadBind.mpr
  apply (ensures_newJobId known).mono
  rintro result after ⟨inv, issues⟩
  cases result with
  | error exit => exact inv
  | ok jobId =>
      rcases issues jobId rfl with ⟨isId, known⟩
      apply Script.ensures_monadBind.mpr
      apply (prevalidate_ensures known).mono
      rintro result after ⟨known, validates⟩
      cases result with
      | error exit => exact known.1
      | ok validated =>
          rcases validated with ⟨cwd, job⟩
          rcases validates cwd job rfl with ⟨sameId, rejected⟩
          have sameId : job.jobId = jobId := sameId
          subst sameId
          apply Script.ensures_monadBind.mpr
          apply (reserveIfValid_ensures limit isId known).mono
          intro result after prepared
          cases result with
          | error exit => exact prepared
          | ok registered =>
              rcases registered with ⟨registration, fields⟩
              have reserved : Knows host task (Doing task (some ⟨settings, job.jobId,
                  host.Accepts settings job⟩)) after := by
                apply prepared.2.mono
                intro directory _ _
                apply doing_of_imp
                intro accepts
                cases cwd with
                | none => exact absurd accepts (rejected rfl)
                | some cwd => rfl
              have ends {after : Directory} (known : Knows host task (Doing task none) after) :
                  (handOver job.jobId registration >>= fun _ => readJobMetadata job.jobId).Ensures
                    (acting host task) (fun _ => Inv host) after := by
                have maintains : (handOver job.jobId registration >>= fun _ =>
                    readJobMetadata job.jobId).Maintains (acting host task)
                      (Knows host task (Doing task none)) :=
                  handOver_maintains.bind fun _ => readJobMetadata_maintains
                exact (maintains after known).mono fun _ _ known => known.1
              have wake : WakeFields (BackgroundJob.mk job registration fields).wakeMetadata := prepared.1
              apply Script.ensures_monadBind.mpr
              apply (launchBackground_ensures wake reserved).mono
              intro result after known
              cases result with
              | error exit => exact known.1
              | ok value => exact ends known

theorem runAndWait_ensures {request : JobRequest} (limit : settings.maxActiveJobs = host.maxActiveJobs)
    (known : Knows host task (Begun task settings) directory) :
    (runAndWait settings request).Ensures (acting host task) (fun _ => Inv host) directory := by
  apply Script.ensures_monadBind.mpr
  apply (ensures_newJobId known).mono
  rintro result after ⟨inv, issues⟩
  cases result with
  | error exit => exact inv
  | ok jobId =>
      rcases issues jobId rfl with ⟨isId, known⟩
      have executes {after : Directory} (known : Knows host task (Doing task (some ⟨settings, jobId,
          host.Accepts settings { request with jobId := jobId }⟩)) after) :
          (executeJob settings { request with jobId := jobId } [] false).Ensures (acting host task)
            (fun _ => Inv host) after := by
        have wake : WakeFields [] := by simp [WakeFields]
        exact (executeJob_limited wake known).mono fun _ _ known => known.1
      apply Script.ensures_monadBind.mpr
      apply Script.ensures_handle.mpr
      apply ensures_resolveCwd known
      · -- Where the directory is not valid, the executor rejects the job.
        intro exit after failed known
        have rejected : ¬host.Accepts settings { request with jobId := jobId } := by
          rintro ⟨cwd, _, _, _, _, isCwd, -⟩
          simp [failed] at isCwd
        cases exit with
        | cancelled => exact known.1
        | exception type text =>
            by_cases invalid : catches "ValueError" type = true
            · simp only [Script.orElse, invalid, if_true]
              exact executes (known.mono fun _ _ _ => doing_of_imp fun accepts => rejected accepts)
            · simp only [Script.orElse, invalid]
              exact known.1
      · intro cwd after isCwd known
        apply (reserveJob_ends limit isId known).mono
        intro result after ended
        cases result with
        | ok value => exact executes (ended.mono fun _ _ _ => doing_of_imp fun _ => trivial)
        | error exit =>
            cases exit with
            | cancelled => exact ended.2.1
            | exception type text =>
                have escapes : ¬catches "ValueError" type = true := by
                  simpa [Exit.escapes] using ended.1
                simp only [Script.orElse, escapes]
                exact ended.2.1

end Start

/-! ### Runs of the servers -/

section Runs

variable {host : Host} {task : Nat} {directory after : Directory} {script : Coroutine Unit}

/-- What holds of the directory wherever a task stands. -/
def Ended (host : Host) (_task : Nat) (_result : Except Exit Unit) (directory : Directory) : Prop :=
  Inv host directory

theorem discard_ensures {Value : Type} {body : Coroutine Value}
    (ensures : body.Ensures (acting host task) (fun _ => Inv host) directory) :
    (discard body).Ensures (acting host task) (Ended host task) directory := by
  apply Script.ensures_monadBind.mpr
  apply ensures.mono
  intro result after inv
  cases result with
  | ok value => exact inv
  | error exit => exact inv

/-- What a server does to the directory as it goes on. -/
theorem bodyOf_ensures {entry : Entry} {settings : Settings} {body : Coroutine Unit}
    (isBody : bodyOf entry = some (settings, body))
    (limit : settings.maxActiveJobs = host.maxActiveJobs)
    (known : Knows host task (Begun task settings) directory) :
    body.Ensures (acting host task) (Ended host task) directory := by
  have leaves {Value : Type} {tool : Coroutine Value}
      (maintains : tool.Maintains (acting host task) (Knows host task (Doing task none))) :
      tool.Ensures (acting host task) (fun _ => Inv host) directory :=
    (maintains directory (known.mono fun _ _ _ _ => doing_none)).mono fun _ _ known => known.1
  cases entry with
  | launch identity => cases isBody
  | exit pid => cases isBody
  | background index => cases isBody
  | recover settings =>
      cases isBody
      exact discard_ensures (leaves recoverOrphanedJobs_maintains)
  | startJob settings request context policy =>
      cases isBody
      exact discard_ensures (startJob_ensures limit known)
  | runAndWait settings request =>
      cases isBody
      exact discard_ensures (runAndWait_ensures limit known)
  | getJob settings jobId =>
      cases isBody
      exact discard_ensures (leaves getJob_maintains)
  | cancelWakeup settings jobId context =>
      cases isBody
      exact discard_ensures (leaves cancelWakeup_maintains)
  | cancelJob settings jobId =>
      cases isBody
      exact discard_ensures (leaves cancelJob_maintains)
  | handoff settings jobId registration =>
      cases isBody
      exact leaves sessionHandoff_maintains

theorem Host.runs_iff {settings : Settings} : host.runs directory settings = true ↔
    settings.maxActiveJobs = host.maxActiveJobs ∧
      ∃ identity, settings.identity = some identity ∧ directory.Lives identity := by
  simp [Host.runs, Option.any_eq_true]

theorem enter_body {entry : Entry} {settings : Settings} {body : Coroutine Unit}
    (inv : Inv host directory) (isBody : bodyOf entry = some (settings, body))
    (runs : host.runs directory settings = true) :
    (sharing host).Guarantees task directory (directory.begin task settings) ∧
      body.Ensures (acting host task) (Ended host task) (directory.begin task settings) := by
  rcases Host.runs_iff.mp runs with ⟨limit, identity, isServer, lives⟩
  have begun : Inv host (directory.begin task settings) := inv.begin isServer lives
  exact ⟨fun other different _ => ⟨begun, Relies.begin different⟩,
    bodyOf_ensures isBody limit ⟨begun, fun _ => Function.update_self ..⟩⟩

theorem enter_background {index : Nat} {settings : Settings} {background : BackgroundJob}
    (inv : Inv host directory) (next : directory.waiting[index]? = some (settings, background))
    (runs : host.runs directory settings = true) :
    (sharing host).Guarantees task directory (directory.beginBackground task index settings background) ∧
      (backgroundTask settings background).Ensures (acting host task) (Ended host task)
        (directory.beginBackground task index settings background) := by
  rcases Host.runs_iff.mp runs with ⟨-, identity, isServer, lives⟩
  have begun : Inv host (directory.beginBackground task index settings background) :=
    inv.beginBackground next isServer lives
  have waits := inv.waits _ (List.mem_of_getElem? next)
  refine ⟨fun other different _ => ⟨begun, Relies.beginBackground inv different next⟩, ?_⟩
  have known : Knows host task (Doing task (some ⟨settings, background.job.jobId,
      host.Accepts settings background.job⟩))
        (directory.beginBackground task index settings background) := by
    refine ⟨begun, fun _ => ?_⟩
    rintro held ⟨⟩
    refine ⟨Function.update_self .., Function.update_self .., waits.server, fun accepts => ?_⟩
    exact waits.active accepts ⟨identity, waits.server.trans isServer, lives⟩
  exact (backgroundTask_ensures waits.wake known).mono fun _ _ known => known.1

theorem inv_initial (host : Host) : Inv host .initial where
  within := by
    have nothing : {jobId | Directory.initial.Counted jobId} = ∅ := by
      ext jobId
      simp [Directory.Counted, Directory.Serves, Directory.initial]
    simp [nothing]
  owned holds := by simp [Directory.Holds, Directory.initial] at holds
  issued found := by cases found
  bornServer found := by cases found
  bornTask found := by cases found
  bornProcess lives := by cases lives
  waits entry mem := by cases mem
  distinct := List.nodup_nil

/-- The servers keep the account, and guarantee to each other what they rely on. -/
theorem servers_keep (host : Host) : (sharing host).Keeps (fun _ _ _ => True) (Ended host) where
  stable inv relied := (relied inv).1
  initial _ := inv_initial host
  enter {task directory entry after script} _ inv entered := by
    have inv : Inv host directory := inv
    cases entry with
    | launch identity =>
        simp only [steadyServers, enter, Option.ite_none_right_eq_some, Option.some.injEq,
          Prod.mk.injEq] at entered
        rcases entered with ⟨⟨absent, fresh⟩, rfl, rfl⟩
        have launched := inv.launch fresh absent
        exact ⟨fun other _ _ => ⟨launched, Relies.launch inv fresh absent⟩, launched⟩
    | exit pid =>
        simp only [steadyServers, enter, Option.some.injEq, Prod.mk.injEq] at entered
        rcases entered with ⟨rfl, rfl⟩
        have stopped : Inv host (directory.stop pid).dropLock := inv.stop.dropLock
        exact ⟨fun other _ _ => ⟨stopped, Relies.stop.trans Relies.dropLock⟩, stopped⟩
    | background index =>
        simp only [steadyServers, enter, Option.bind_eq_some_iff, Option.ite_none_right_eq_some,
          Option.some.injEq, Prod.mk.injEq, Prod.exists] at entered
        rcases entered with ⟨settings, background, next, runs, rfl, rfl⟩
        exact enter_background inv next runs
    | _ =>
        simp only [steadyServers, enter, Option.bind_eq_some_iff, Option.ite_none_right_eq_some,
          Option.some.injEq, Prod.mk.injEq, Prod.exists] at entered
        rcases entered with ⟨settings, body, isBody, runs, rfl, rfl⟩
        exact enter_body inv isBody runs

variable {world next : Process.World server Exit Nat Directory}

theorem reachable_entering (reachable : (steadyServers host).system.Reachable world) :
    (steadyServers host).system.ReachableBy (Process.Entering fun _ _ _ => True) world := by
  apply System.Steps.mono reachable
  intro state action _
  cases action <;> trivial

theorem inv_of_reachable (reachable : (steadyServers host).system.Reachable world) :
    Inv host world.memory := by
  have preserved : ∀ task before after, (sharing host).Guarantees task before after → Inv host before →
      Inv host after := by
    intro task before after guaranteed inv
    exact (guaranteed (task + 1) (Nat.succ_ne_self task) inv).1
  exact Interleaved.Shares.invariant (servers_keep host) (reachable_entering reachable) (inv_initial host) preserved

/-- The process that a record names as the owner of its job runs. -/
def Directory.ownerRuns (directory : Directory) (record : Json) : Bool :=
  match (record.get "server_pid").int?, (record.get "server_start_ticks").str? with
  | some pid, some ticks => directory.Lives (pid, ticks)
  | _, _ => false

/-- The jobs that `_active_job_count_locked` would count at this moment. -/
def Directory.activeJobs (directory : Directory) : List String :=
  (directory.files.entries.filter fun entry =>
    decide (IsActive entry.2) && directory.ownerRuns entry.2).map Prod.fst

theorem Inv.counted_of_active (inv : Inv host directory) {jobId : String}
    (mem : jobId ∈ directory.activeJobs) : directory.Counted jobId := by
  rcases List.mem_map.mp mem with ⟨⟨jobId, record⟩, isListed, rfl⟩
  rw [List.mem_filter, Bool.and_eq_true, decide_eq_true_iff] at isListed
  rcases isListed with ⟨stored, isActive, isRunning⟩
  have inFile := Dict.mem_entries_iff.mp stored
  rcases inv.owned (.inl inFile) isActive with ⟨identity, isServer, names⟩
  refine ⟨⟨identity, isServer, ?_⟩, record, .inl inFile, isActive⟩
  rw [ownerRuns, names.pid, names.startTicks] at isRunning
  exact of_decide_eq_true isRunning

/-- No more jobs are active at a time than the servers allow, as long as nothing that is read
fails. -/
theorem active_jobs_le_limit (reachable : (servers host).system.ReachableBy ReadsSucceed world) :
    world.memory.activeJobs.length ≤ host.maxActiveJobs := by
  have inv := inv_of_reachable (reachable_steadyServers reachable)
  have distinct : world.memory.activeJobs.Nodup :=
    world.memory.files.keys_nodup.sublist (List.filter_sublist.map _)
  have counted : (world.memory.activeJobs.toFinset : Set String) ⊆
      {jobId | world.memory.Counted jobId} := by
    intro jobId mem
    exact inv.counted_of_active (by simpa using mem)
  have bounded : ((world.memory.activeJobs.toFinset.card : ℕ) : ℕ∞) ≤ host.maxActiveJobs := by
    rw [← Set.encard_coe_eq_coe_finsetCard]
    exact (Set.encard_le_encard counted).trans inv.within
  rw [List.toFinset_card_of_nodup distinct] at bounded
  exact_mod_cast bounded

/-- No step of another task, of this server or of another one, ends the active record of a job that a
task carries. -/
theorem active_job_kept {action : Process.Action server Exit Nat Entry} {jobId : String}
    (reachable : (servers host).system.ReachableBy ReadsSucceed world)
    (reads : ReadsSucceed world action) (taken : (servers host).step world action = some next) (different : task ≠ Interleaved.taskOf action)
    (holder : world.memory.holders jobId = some (.task task))
    (sameServer : world.memory.servers jobId = world.memory.serverOf task)
    (runs : next.memory.Runs task) (active : world.memory.HasActive jobId) :
    next.memory.HasActive jobId := by
  have isAdmitted : Process.Entering (fun _ _ _ => True) world action := by
    cases action <;> trivial
  have reachable := reachable_steadyServers reachable
  have taken := (steadyServers_step reads).trans taken
  have guaranteed := Interleaved.Shares.guarantees (servers_keep host) (reachable_entering reachable) isAdmitted taken
  have relied := guaranteed task different (inv_of_reachable reachable)
  exact relied.2.active runs holder sameServer active

/-- A job whose background task has not begun is still reserved, unless its request is not valid. -/
theorem waiting_job_reserved {settings : Settings} {background : BackgroundJob}
    (reachable : (servers host).system.ReachableBy ReadsSucceed world)
    (waits : (settings, background) ∈ world.memory.waiting)
    (accepts : host.Accepts settings background.job)
    (runs : ∃ identity, settings.identity = some identity ∧ world.memory.Lives identity) :
    world.memory.HasActive background.job.jobId := by
  have awaits := (inv_of_reachable (reachable_steadyServers reachable)).waits _ waits
  rcases runs with ⟨identity, isServer, lives⟩
  exact awaits.active accepts ⟨identity, awaits.server.trans isServer, lives⟩

end Runs

/-! ### A run -/

def sampleHost : Host where
  resolveCwd cwd := .ok cwd
  validateArgv argv _ := .ok argv
  buildEnvironment _ := .ok []
  maxActiveJobs := 4

/-- A call at which nothing fails. -/
def steadily (task : Nat) : Process.Action server Exit Nat Entry := .resume task (smooth [])

/-- A server starts a job and makes some calls. -/
def startingRun (calls : Nat) : List (Process.Action server Exit Nat Entry) :=
  [.enter 0 (.launch (7, "700")), .enter 1 (.startJob sampleSettings sampleJob ⟨none, .null⟩ .none)] ++
    List.replicate calls (steadily 1)

/-- The job is cancelled meanwhile. -/
def cancellingRun (calls : Nat) : List (Process.Action server Exit Nat Entry) :=
  .enter 2 (.cancelJob sampleSettings "0123456789ab") :: List.replicate calls (steadily 2)

theorem readsSucceed_steadily (world : Process.World server Exit Nat Directory) (task : Nat) :
    ReadsSucceed world (steadily task) :=
  ⟨fun _ => ⟨_, rfl⟩, fun _ => ⟨_, rfl⟩⟩

theorem readsSucceed_startingRun (calls : Nat) (world : Process.World server Exit Nat Directory) :
    ∀ action ∈ startingRun calls, ReadsSucceed world action := by
  intro action mem
  rcases List.mem_append.mp mem with entered | resumed
  · rcases List.mem_pair.mp entered with rfl | rfl <;> trivial
  · rw [List.eq_of_mem_replicate resumed]
    exact readsSucceed_steadily world 1

theorem readsSucceed_cancellingRun (calls : Nat) (world : Process.World server Exit Nat Directory) :
    ∀ action ∈ cancellingRun calls, ReadsSucceed world action := by
  intro action mem
  rcases List.mem_cons.mp mem with rfl | resumed
  · trivial
  · rw [List.eq_of_mem_replicate resumed]
    exact readsSucceed_steadily world 2

theorem active_jobs_le_limit_sample : ∃ world,
    (servers sampleHost).system.ReachableBy ReadsSucceed world ∧
      world.memory.activeJobs = ["0123456789ab"] ∧ world.memory.activeJobs.length ≤ 4 := by
  have ran : ((servers sampleHost).system.run (servers sampleHost).system.initial (startingRun 8)).any
      (fun world => world.memory.activeJobs = ["0123456789ab"]) = true := by
    decide
  rcases (Option.any_eq_true _ _).mp ran with ⟨world, reached, found⟩
  have reachable : (servers sampleHost).system.ReachableBy ReadsSucceed world :=
    System.steps_of_run_of_mem (fun state => readsSucceed_startingRun 8 state) reached
  exact ⟨world, reachable, of_decide_eq_true found, active_jobs_le_limit reachable⟩

/-- The record of a job tells that it is to be cancelled. -/
def Directory.cancels (directory : Directory) (jobId : String) : Bool :=
  (directory.files.get? jobId).any (·.hasKey "cancel_requested_at_utc")

/-- The step writes the record of the job. -/
theorem active_job_kept_sample : ∃ world next,
    (servers sampleHost).step world (steadily 2) = some next ∧
      world.memory.cancels "0123456789ab" = false ∧ next.memory.cancels "0123456789ab" = true ∧
        world.memory.HasActive "0123456789ab" ∧ next.memory.HasActive "0123456789ab" := by
  have ran : ((servers sampleHost).system.run (servers sampleHost).system.initial
      (startingRun 9 ++ cancellingRun 5)).any
      (fun world => world.memory.holders "0123456789ab" = some (.task 1) &&
        world.memory.servers "0123456789ab" = world.memory.serverOf 1 &&
          decide (world.memory.HasActive "0123456789ab") &&
            !world.memory.cancels "0123456789ab" &&
              ((servers sampleHost).step world (steadily 2)).any fun next =>
                decide (next.memory.Runs 1) && next.memory.cancels "0123456789ab") = true := by
    decide
  rcases (Option.any_eq_true _ _).mp ran with ⟨world, reached, found⟩
  have isAllowed : ∀ state, ∀ action ∈ startingRun 9 ++ cancellingRun 5,
      ReadsSucceed state action := by
    intro state action mem
    rcases List.mem_append.mp mem with starting | cancelling
    · exact readsSucceed_startingRun 9 state action starting
    · exact readsSucceed_cancellingRun 5 state action cancelling
  have reachable : (servers sampleHost).system.ReachableBy ReadsSucceed world :=
    System.steps_of_run_of_mem isAllowed reached
  simp only [Bool.and_eq_true, decide_eq_true_eq, Option.any_eq_true, Bool.not_eq_true'] at found
  rcases found with ⟨⟨⟨⟨holder, sameServer⟩, active⟩, before⟩, next, taken, runs, after⟩
  exact ⟨world, next, taken, before, after, active, active_job_kept reachable
    (readsSucceed_steadily world 2) taken (by decide) holder sameServer runs active⟩

/-- The job as its validation has returned it. -/
def waitingJob : BackgroundJob :=
  ⟨sampleJob.withSecret (.scalar (List.replicate 32 0x61)), none, wakeMetadata .none none none⟩

theorem accepts_sample : sampleHost.Accepts sampleSettings waitingJob.job :=
  ⟨_, _, none, none, .scalar (List.replicate 32 0x61), rfl, rfl, by decide, rfl, rfl, rfl⟩

theorem waiting_job_reserved_sample : ∃ world,
    (servers sampleHost).system.ReachableBy ReadsSucceed world ∧
      world.memory.waiting = [(sampleSettings, waitingJob)] ∧
        world.memory.HasActive waitingJob.job.jobId := by
  have ran : ((servers sampleHost).system.run (servers sampleHost).system.initial (startingRun 15)).map
      (fun world => (world.memory.waiting, world.memory.processes 7)) =
        some ([(sampleSettings, waitingJob)], some "700") := by
    rfl
  rcases Option.map_eq_some_iff.mp ran with ⟨world, reached, found⟩
  rcases Prod.mk.inj found with ⟨waits, lives⟩
  have reachable : (servers sampleHost).system.ReachableBy ReadsSucceed world :=
    System.steps_of_run_of_mem (fun state => readsSucceed_startingRun 15 state) reached
  have mem : (sampleSettings, waitingJob) ∈ world.memory.waiting := by simp [waits]
  exact ⟨world, reachable, waits,
    waiting_job_reserved reachable mem accepts_sample ⟨(7, "700"), rfl, lives⟩⟩

end Longrun.Server
