import Longrun.Server.Reservation

/-!
# Updates and recovery

A record that is read and written back under the lock stays as active as it was, although the executor
of its job writes without the lock. The recovery ends only jobs whose servers do not run.
-/

namespace Longrun.Server

open Directory

/-! ### Updates -/

/-- Under the lock, what is to be written back of a job: the job is counted only if it is active, and an
active record has just been read. -/
structure Fetched (task : Nat) (jobId : String) (payload : Json) (directory : Directory) : Prop where
  lock : directory.lock = some task
  active : directory.Counted jobId → IsActive payload
  stored : IsActive payload → directory.reading = some (jobId, payload)

/-- The fields leave the state and the owner of a job as they are. -/
def LeavesState (fields : List (String × Json)) : Prop :=
  ∀ key ∈ ["state", "server_pid", "server_start_ticks"], key ∉ fields.map Prod.fst

section Fetched

variable {host : Host} {task : Nat} {directory : Directory} {duty : Option Duty} {jobId : String}
  {payload record : Json} {fields : List (String × Json)}

theorem stable_fetched : Stable task (Fetched task jobId payload) := by
  intro before after relies runs fetched
  have kept := relies.locked runs fetched.lock
  exact ⟨kept.1, fun isCounted => fetched.active (kept.2.2 _ isCounted),
    fun isActive => kept.2.1.trans (fetched.stored isActive)⟩

theorem LeavesState.isActive (leaves : LeavesState fields) :
    IsActive (updated payload fields) ↔ IsActive payload := by
  rw [IsActive, IsActive, get_updated_of_notMem (leaves "state" (by simp))]

theorem LeavesState.names (leaves : LeavesState fields) {identity : ProcessIdentity}
    (names : NamesServer identity payload) : NamesServer identity (updated payload fields) where
  pid := (get_updated_of_notMem (leaves "server_pid" (by simp))).trans names.pid
  startTicks := (get_updated_of_notMem (leaves "server_start_ticks" (by simp))).trans names.startTicks

theorem fetched_of_locked {counted : Set String}
    (locked : Locked task (some (jobId, payload)) {name | name ∈ counted ∧ (name = jobId →
      ∃ record, some payload = some record ∧ IsActive record)} directory) :
    Fetched task jobId payload directory where
  lock := locked.lock
  active isCounted := by
    rcases (locked.counted isCounted).2 rfl with ⟨record, same, isActive⟩
    cases same
    exact isActive
  stored _ := locked.reading

/-- A record that is as active as the one that was read may be written back. -/
theorem Fetched.writable (fetched : Fetched task jobId payload directory) (inv : Inv host directory)
    (same : IsActive record ↔ IsActive payload)
    (names : ∀ identity, NamesServer identity payload → NamesServer identity record) :
    Writable host directory task jobId record where
  owned isActive := by
    have payloadActive := same.mp isActive
    rcases inv.owned (.inr (fetched.stored payloadActive)) payloadActive with
      ⟨identity, isServer, isNamed⟩
    exact ⟨identity, isServer, names identity isNamed⟩
  counted isActive serves :=
    have payloadActive := same.mp isActive
    .inl ⟨serves, payload, .inr (fetched.stored payloadActive), payloadActive⟩
  kept serves active _ := same.mpr (fetched.active (active.counted serves))

/-- The record of a task's own job may be replaced by one that is not active. -/
theorem writable_final {settings : Settings} {reserved : Prop}
    (doing : Doing task (some ⟨settings, jobId, reserved⟩) directory) (final : ¬IsActive record) :
    Writable host directory task jobId record where
  owned isActive := absurd isActive final
  counted isActive := absurd isActive final
  kept _ _ other := absurd (doing _ rfl).holder other

theorem Doing.write (doing : Doing task duty directory) (runs : directory.Runs task)
    (active : directory.Counted jobId → IsActive record) :
    Doing task duty (directory.write jobId record) := by
  intro held isDuty
  have isHeld := doing held isDuty
  apply isHeld.write
  intro reserved
  have hasActive := isHeld.active reserved
  apply hasActive.write
  rintro rfl
  exact active (hasActive.counted (isHeld.serves runs))

theorem Doing.writeFinal {settings : Settings} {reserved : Prop}
    (doing : Doing task (some ⟨settings, jobId, reserved⟩) directory) :
    Doing task (some ⟨settings, jobId, False⟩) (directory.write jobId record) := by
  rintro held ⟨⟩
  exact (doing _ rfl).write False.elim

end Fetched

section Update

variable {host : Host} {task : Nat} {directory : Directory} {duty left : Option Duty} {jobId : String}
  {payload : Json} {fields : List (String × Json)} {Value : Type}

/-- The rule for what is done under the lock, where it does not matter how it ends. -/
theorem ensures_withJobState {body : Coroutine Value}
    (leaves : ∀ directory, Doing task duty directory → Doing task left directory)
    (ensures : ∀ after, Knows host task (fun directory => Doing task duty directory ∧
      Inside task Set.univ directory) after →
        body.Ensures (acting host task) (fun _ => Knows host task (Doing task left)) after)
    (known : Knows host task (Doing task duty) directory) :
    (withJobState body).Ensures (acting host task) (fun _ => Knows host task (Doing task left))
      directory := by
  apply Script.ensures_monadBind.mpr
  apply (maintains_calm (by rfl) directory known).mono
  intro result after known
  cases result with
  | error exit => exact known.mono fun _ _ _ => leaves _
  | ok value =>
      apply Script.ensures_monadBind.mpr
      apply (ensures_lock known).mono
      rintro result after ⟨known, -, locks⟩
      cases result with
      | error exit => exact known.mono fun _ _ _ => leaves _
      | ok value =>
          have locked := locks value rfl
          apply Script.ensures_finish.mpr
          apply (ensures after ⟨known.1, fun runs => ⟨known.2 runs, none, locked.2 runs⟩⟩).mono
          intro result last known
          apply (maintains_calm (by rfl) last known).mono
          intro reply after known
          cases reply with
          | ok value => exact Script.ensures_ofExcept.mpr known
          | error exit => exact known

theorem fresh_ensures (known : Knows host task (fun directory => Doing task duty directory ∧
      Inside task {name | name ≠ jobId} directory) directory) :
    (freshMetadata jobId).Ensures (acting host task) (fun result after =>
      Knows host task (Doing task duty) after ∧ ∀ payload, result = .ok payload →
        payload.isDict = true ∧ Knows host task (fun directory => Doing task duty directory ∧
          Fetched task jobId payload directory) after) directory := by
  apply Script.ensures_monadBind.mpr
  apply (maintains_quiet (by rfl) (stable_doing.and stable_inside) directory known).mono
  intro reply after known
  have doing := known.mono fun _ _ _ holds => holds.1
  cases reply with
  | error exit => exact ⟨doing, by simp⟩
  | ok startedAt =>
      refine ⟨doing, ?_⟩
      rintro payload ⟨⟩
      refine ⟨rfl, known.mono ?_⟩
      rintro directory _ _ ⟨doing, reading, locked⟩
      refine ⟨doing, locked.lock, fun isCounted => absurd rfl (locked.counted isCounted), ?_⟩
      intro isActive
      simp [IsActive, Json.get, List.lookup, activeJobStates, Json.isStr, Json.str?] at isActive

theorem currentMetadata_ensures (known : Knows host task (fun directory => Doing task duty directory ∧
      Inside task Set.univ directory) directory) :
    (currentMetadata jobId).Ensures (acting host task) (fun result after =>
      Knows host task (Doing task duty) after ∧ ∀ payload, result = .ok payload →
        payload.isDict = true ∧ Knows host task (fun directory => Doing task duty directory ∧
          Fetched task jobId payload directory) after) directory := by
  apply Script.ensures_monadBind.mpr
  apply (ensures_read known).mono
  rintro reply after ⟨payload, rfl, known⟩
  cases payload with
  | none =>
      apply fresh_ensures
      apply known.mono
      rintro directory _ _ ⟨doing, locked⟩
      refine ⟨doing, none, locked.lock, locked.reading, ?_⟩
      rintro name isCounted rfl
      rcases (locked.counted isCounted).2 rfl with ⟨record, found, -⟩
      cases found
  | some payload =>
      change (if payload.isDict = true then pure payload else freshMetadata jobId : Coroutine Json).Ensures
        _ _ _
      by_cases isDict : payload.isDict = true
      · rw [if_pos isDict]
        refine ⟨known.mono fun _ _ _ holds => holds.1, ?_⟩
        rintro payload ⟨⟩
        exact ⟨isDict, known.mono fun _ _ _ holds => ⟨holds.1, fetched_of_locked holds.2⟩⟩
      · rw [if_neg isDict]
        apply fresh_ensures
        apply known.mono
        rintro directory _ _ ⟨doing, locked⟩
        refine ⟨doing, _, locked.lock, locked.reading, ?_⟩
        rintro name isCounted rfl
        exact isDict (isDict_of_isActive ((fetched_of_locked locked).active isCounted))

/-- What is written back is what was read, with some fields changed. -/
theorem updateJobMetadata_ensures (leaves : ∀ directory, Doing task duty directory → Doing task left directory)
    (writes : ∀ payload directory, payload.isDict = true → Inv host directory → directory.Runs task →
      Doing task duty directory → Fetched task jobId payload directory →
        Writable host directory task jobId (updated payload fields) ∧
          Doing task left (directory.write jobId (updated payload fields)))
    (known : Knows host task (Doing task duty) directory) :
    (updateJobMetadata jobId fields).Ensures (acting host task)
      (fun _ => Knows host task (Doing task left)) directory := by
  rw [updateJobMetadata, checkJobId]
  split
  · apply ensures_withJobState leaves _ known
    intro after known
    apply Script.ensures_monadBind.mpr
    apply (currentMetadata_ensures known).mono
    rintro result after ⟨doing, fetches⟩
    cases result with
    | error exit => exact doing.mono fun _ _ _ => leaves _
    | ok payload =>
        have fetched := fetches payload rfl
        apply ensures_write (stable_doing.and stable_fetched) _ _ _ fetched.2
        · exact fun directory inv runs holds =>
            (writes payload directory fetched.1 inv runs holds.1 holds.2).1
        · exact fun exit after _ known => known.mono fun _ _ _ holds => leaves _ holds.1
        · exact fun directory inv runs holds written =>
            ⟨written, fun _ => (writes payload directory fetched.1 inv runs holds.1 holds.2).2⟩
  · exact known.mono fun _ _ _ => leaves _

/-- An update that leaves the state of a job as it is changes nothing for its holder. -/
theorem updateJobMetadata_maintains (free : LeavesState fields) :
    (updateJobMetadata jobId fields).Maintains (acting host task) (Knows host task (Doing task duty)) := by
  intro directory known
  apply updateJobMetadata_ensures (fun _ doing => doing) _ known
  intro payload directory isDict inv runs doing fetched
  exact ⟨fetched.writable inv free.isActive fun _ => free.names,
    doing.write runs fun isCounted => free.isActive.mpr (fetched.active isCounted)⟩

/-- The task that brings a job to its end may record it. -/
theorem updateJobMetadata_final {settings : Settings} {reserved : Prop}
    (final : ∀ payload : Json, payload.isDict = true → ¬IsActive (updated payload fields))
    (known : Knows host task (Doing task (some ⟨settings, jobId, reserved⟩)) directory) :
    (updateJobMetadata jobId fields).Ensures (acting host task)
      (fun _ => Knows host task (Doing task (some ⟨settings, jobId, False⟩))) directory := by
  apply updateJobMetadata_ensures (fun _ => doing_of_imp False.elim) _ known
  intro payload directory isDict inv runs doing fetched
  exact ⟨writable_final doing (final payload isDict), doing.writeFinal⟩

end Update

/-! ### Exceptions -/

section Maintains

variable {host : Host} {task : Nat} {knows : Directory → Prop} {Value : Type} {error : String}
  {assertion : Directory → Prop} {body : Coroutine Value}

theorem catching_maintains {handler : String → Coroutine Value}
    (maintains : body.Maintains (acting host task) assertion)
    (handles : ∀ text, (handler text).Maintains (acting host task) assertion) :
    (catching error body handler).Maintains (acting host task) assertion := by
  apply maintains.handle
  intro exit
  cases exit with
  | cancelled => exact Script.maintains_raised _
  | exception type text =>
      cases caught : catches error type with
      | true => simpa only [caught, if_true] using handles text
      | false =>
          simpa only [caught, Bool.false_eq_true, if_false] using Script.maintains_raised _

theorem catchingAll_maintains {handler : String → String → Coroutine Value}
    (maintains : body.Maintains (acting host task) assertion)
    (handles : ∀ type text, (handler type text).Maintains (acting host task) assertion) :
    (catchingAll body handler).Maintains (acting host task) assertion := by
  apply maintains.handle
  intro exit
  cases exit with
  | cancelled => exact Script.maintains_raised _
  | exception type text => exact handles type text

theorem ignoring_maintains {body : Coroutine Unit}
    (maintains : body.Maintains (acting host task) assertion) :
    (ignoring error body).Maintains (acting host task) assertion := by
  apply maintains.handle
  intro exit
  cases exit with
  | cancelled => exact Script.maintains_raised _
  | exception type text =>
      cases caught : catches error type with
      | true => simpa only [caught, if_true] using Script.maintains_pure _
      | false =>
          simpa only [caught, Bool.false_eq_true, if_false] using Script.maintains_raised _

theorem pidMatches_maintains {pid ticks : Json} (stable : Stable task knows) :
    (pidMatches pid ticks).Maintains (acting host task) (Knows host task knows) := by
  rw [pidMatches]
  split
  · apply (maintains_quiet (by rfl) stable).bind
    exact fun _ => Script.maintains_pure _
  · exact Script.maintains_pure _

theorem killCommandGroup_maintains {payload : Json} (stable : Stable task knows) :
    (killCommandGroup payload).Maintains (acting host task) (Knows host task knows) := by
  apply (pidMatches_maintains stable).bind
  intro isRecorded
  cases isRecorded with
  | false => exact Script.maintains_pure _
  | true =>
      apply catching_maintains _ fun _ => Script.maintains_pure _
      apply catching_maintains _ fun _ => Script.maintains_pure _
      apply (maintains_quiet (by rfl) stable).bind
      intro pgid
      split
      · apply (maintains_quiet (by rfl) stable).bind
        exact fun _ => Script.maintains_pure _
      · exact Script.maintains_pure _

theorem killSupervisor_maintains {payload : Json} (stable : Stable task knows) :
    (killSupervisor payload).Maintains (acting host task) (Knows host task knows) := by
  apply (pidMatches_maintains stable).bind
  intro isRecorded
  cases isRecorded with
  | false => exact Script.maintains_pure _
  | true =>
      apply catching_maintains _ fun _ => Script.maintains_pure _
      apply catching_maintains _ fun _ => Script.maintains_pure _
      apply (maintains_quiet (by rfl) stable).bind
      exact fun _ => Script.maintains_pure _

end Maintains

/-! ### Recovery -/

section Recover

variable {host : Host} {task : Nat} {directory : Directory} {duty : Option Duty} {jobId : String}
  {payload : Json} {fields : List (String × Json)}

/-- A record with a final state. -/
theorem not_isActive_final {name : String} (isDict : payload.isDict = true)
    (absent : "state" ∉ fields.map Prod.fst) (final : name ∉ activeJobStates) :
    ¬IsActive (updated payload (("state", .str name) :: fields)) := by
  rw [IsActive, get_updated_cons isDict absent, List.any_eq_true]
  rintro ⟨state, mem, same⟩
  rw [Json.isStr_iff, Json.str.injEq] at same
  exact final (same ▸ mem)

/-- The state of recovery: the lock is held, and nothing else is known. -/
abbrev Recovering (task : Nat) (duty : Option Duty) (directory : Directory) : Prop :=
  Doing task duty directory ∧ Inside task Set.univ directory

theorem recoverJob_ensures (isDict : payload.isDict = true)
    (known : Knows host task (fun directory => Doing task duty directory ∧
      Inside task {name | name ≠ jobId} directory) directory) :
    (recoverJob jobId payload).Ensures (acting host task)
      (fun _ => Knows host task (Recovering task duty)) directory := by
  have stable : Stable task fun directory =>
      Doing task duty directory ∧ Inside task {name | name ≠ jobId} directory :=
    stable_doing.and stable_inside
  have weaken : ∀ directory, Inv host directory → directory.Runs task →
      Doing task duty directory ∧ Inside task {name | name ≠ jobId} directory →
        Recovering task duty directory := by
    rintro directory - - ⟨doing, reading, locked⟩
    exact ⟨doing, reading, locked.lock, locked.reading, fun _ => Set.mem_univ _⟩
  apply ensures_next (killCommandGroup_maintains stable directory known) weaken
  intro groupTerminated after known
  apply ensures_next (killSupervisor_maintains stable after known) weaken
  intro supervisorTerminated after known
  apply ensures_next (maintains_quiet (by rfl) stable after known) weaken
  intro finishedAt after known
  have final : ¬IsActive (updated payload
      [("state", .str "orphaned_recovered"), ("finished_at_utc", .str finishedAt),
        ("recovery_terminated_command_group", .bool groupTerminated),
        ("recovery_terminated_supervisor", .bool supervisorTerminated),
        ("error", .str "the owning MCP server exited before recording a terminal result")]) :=
    not_isActive_final isDict (by simp) (by decide)
  apply ensures_write stable _ _ _ known
  · rintro directory inv runs ⟨doing, reading, locked⟩
    refine ⟨fun isActive => absurd isActive final, fun isActive => absurd isActive final, ?_⟩
    exact fun serves active _ => absurd rfl (locked.counted (active.counted serves))
  · exact fun exit after _ known => known.mono weaken
  · rintro directory inv runs ⟨doing, reading, locked⟩ written
    refine ⟨written, fun _ => ⟨doing.write runs fun isCounted => absurd rfl (locked.counted isCounted),
      reading, locked.lock, locked.reading, fun _ => Set.mem_univ _⟩⟩

theorem recoverIfOrphaned_ensures {counted : Set String} (active : jobId ∈ counted → IsActive payload)
    (known : Knows host task (Counting task duty (some (jobId, payload)) counted) directory) :
    (recoverIfOrphaned jobId payload).Ensures (acting host task)
      (fun _ => Knows host task (Recovering task duty)) directory := by
  have recovering {after : Directory} {others : Set String}
      (known : Knows host task (Counting task duty (some (jobId, payload)) others) after) :
      Knows host task (Recovering task duty) after := by
    apply known.mono
    rintro directory _ _ ⟨doing, locked⟩
    exact ⟨doing, _, locked.lock, locked.reading, fun _ => Set.mem_univ _⟩
  rw [recoverIfOrphaned, isActive]
  by_cases isDict : payload.isDict = true
  · rw [if_neg (not_not.mpr isDict)]
    by_cases hashable : (payload.get "state").hashable = true
    · rw [if_pos hashable]
      cases any : activeJobStates.any (payload.get "state").isStr with
      | false => exact recovering known
      | true =>
          have owner : (ownerMatches payload).Ensures (acting host task) (Ends host task (fun counts =>
              Counting task duty (some (jobId, payload))
                {name | name ∈ counted ∧ (name = jobId → counts = true)}) (Recovering task duty))
              directory := ownerMatches_ends active known
          have recovered : (ownerMatches payload >>= fun lives => if lives = true then pure 0
              else recoverJob jobId payload >>= fun _ => pure 1 : Coroutine Nat).Ensures
              (acting host task) (fun _ => Knows host task (Recovering task duty)) directory := by
            apply Script.ensures_monadBind.mpr
            apply owner.mono
            intro result after ended
            cases result with
            | error exit => exact ended.2
            | ok lives =>
                cases lives with
                | true => exact recovering ended
                | false =>
                    have dead : Knows host task (fun directory => Doing task duty directory ∧
                        Inside task {name | name ≠ jobId} directory) after := by
                      apply ended.mono
                      rintro directory _ _ ⟨doing, locked⟩
                      refine ⟨doing, _, locked.lock, locked.reading, ?_⟩
                      rintro name isCounted same
                      exact absurd ((locked.counted isCounted).2 same) (by decide)
                    apply Script.ensures_monadBind.mpr
                    apply (recoverJob_ensures isDict dead).mono
                    intro result after known
                    cases result <;> exact known
          exact recovered
    · rw [if_neg hashable]
      exact recovering known
  · rw [if_pos isDict]
    exact recovering known

/-- Recovery ends no job whose server runs. -/
theorem recoverAll_maintains {names : List String} {recovered : Nat} :
    (recoverAll names recovered).Maintains (acting host task) (Knows host task (Recovering task duty)) := by
  induction names generalizing recovered with
  | nil => exact Script.maintains_pure _
  | cons jobId rest ih =>
      intro directory known
      apply Script.ensures_monadBind.mpr
      apply (ensures_read known).mono
      rintro reply after ⟨payload, rfl, known⟩
      cases payload with
      | none =>
          apply ih
          apply known.mono
          rintro directory _ _ ⟨doing, locked⟩
          exact ⟨doing, _, locked.lock, locked.reading, fun _ => Set.mem_univ _⟩
      | some payload =>
          apply Script.ensures_monadBind.mpr
          apply (recoverIfOrphaned_ensures _ known).mono
          · intro result after known
            cases result with
            | ok more => exact ih after known
            | error exit => exact known
          · rintro ⟨-, isActive⟩
            rcases isActive rfl with ⟨record, same, isActive⟩
            cases same
            exact isActive

theorem recoverOrphanedJobs_maintains :
    recoverOrphanedJobs.Maintains (acting host task) (Knows host task (Doing task duty)) := by
  intro directory known
  apply ensures_withJobState (fun _ doing => doing) _ known
  intro after known
  have stable : Stable task (Recovering task duty) := stable_doing.and stable_inside
  have maintains : (await .ensureStateDirs >>= fun _ => await .listMetadata >>= fun names =>
      recoverAll names 0).Maintains (acting host task) (Knows host task (Recovering task duty)) := by
    apply (maintains_quiet (by rfl) stable).bind
    intro _
    apply (maintains_quiet (by rfl) stable).bind
    exact fun _ => recoverAll_maintains
  exact (maintains after known).mono fun _ _ known => known.mono fun _ _ _ holds => holds.1

end Recover

end Longrun.Server
