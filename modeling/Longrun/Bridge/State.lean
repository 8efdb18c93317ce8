import Mathlib

/-!
# The lease database

The table of wake leases that the coordinator keeps in SQLite. A lease records what a job was
promised: which thread to wake, under which identity of its Goal or of its originating turn, and
how far the registration, the handoff and the delivery have got.

The two constraints of the schema, the primary key and the partial unique index on live leases,
are fields of the store, so a store that violates one cannot be built. A statement that would
violate one raises `IntegrityError` and leaves the table as it was.
-/

namespace Longrun.Bridge

abbrev JobId := String

abbrev ThreadId := String

/-- An exception other than a cancellation: the name of its class and its text. -/
structure PyError where
  type : String
  message : String
deriving DecidableEq

def runtimeError (message : String) : PyError := ⟨"RuntimeError", message⟩

def valueError (message : String) : PyError := ⟨"ValueError", message⟩

inductive LeaseState where
  | preparing | armed | terminal | delivered | failed | abandoned
deriving DecidableEq

inductive DeliveryState where
  | pending | waitingForIdle | waitingForHandoff | activating
  | resumed | abandoned | needsManualRecovery
deriving DecidableEq

inductive HandoffState where
  | notApplicable | pending | interrupting | recordingReceipt | ready
deriving DecidableEq

inductive WakeMode where
  | goal | session
deriving DecidableEq

namespace DeliveryState

/-- The text stored in the column and reported in answers. -/
def text : DeliveryState → String
  | pending => "pending"
  | waitingForIdle => "waiting_for_idle"
  | waitingForHandoff => "waiting_for_handoff"
  | activating => "activating"
  | resumed => "resumed"
  | abandoned => "abandoned"
  | needsManualRecovery => "needs_manual_recovery"

/-- The delivery states in which the outcome of the lease is decided. -/
def isFinal : DeliveryState → Bool
  | resumed | abandoned | needsManualRecovery => true
  | _ => false

end DeliveryState

/-- A row of `wake_leases`. -/
structure WakeLease where
  jobId : JobId
  threadId : ThreadId
  objective : String
  goalCreatedAt : Int
  goalUpdatedAt : Int
  state : LeaseState
  deadlineAt : Int
  terminalState : Option String
  deliveryState : DeliveryState
  error : Option String
  wakeMode : WakeMode
  turnId : Option String
  callId : Option String
  handoffState : HandoffState
  receiptState : Option String
  wakeTurnId : Option String
deriving DecidableEq

/-- The states of the partial index `one_live_lease_per_thread`. -/
def LeaseState.isLive : LeaseState → Bool
  | preparing | armed | terminal => true
  | _ => false

namespace WakeLease

def isLive (lease : WakeLease) : Bool := lease.state.isLive

/-- The columns that no `UPDATE` assigns. -/
def identity (lease : WakeLease) :
    JobId × ThreadId × String × Int × WakeMode × Option String × Option String :=
  (lease.jobId, lease.threadId, lease.objective, lease.goalCreatedAt, lease.wakeMode,
    lease.turnId, lease.callId)

end WakeLease

/-- The assignments of an `UPDATE`: the columns given are set, the others keep their value. -/
structure LeaseUpdate where
  state : Option LeaseState := none
  terminalState : Option String := none
  deliveryState : Option DeliveryState := none
  error : Option String := none
  goalUpdatedAt : Option Int := none
  handoffState : Option HandoffState := none
  receiptState : Option String := none
  wakeTurnId : Option String := none

def LeaseUpdate.apply (fields : LeaseUpdate) (lease : WakeLease) : WakeLease :=
  { lease with
    state := fields.state.getD lease.state
    terminalState := fields.terminalState <|> lease.terminalState
    deliveryState := fields.deliveryState.getD lease.deliveryState
    error := fields.error <|> lease.error
    goalUpdatedAt := fields.goalUpdatedAt.getD lease.goalUpdatedAt
    handoffState := fields.handoffState.getD lease.handoffState
    receiptState := fields.receiptState <|> lease.receiptState
    wakeTurnId := fields.wakeTurnId <|> lease.wakeTurnId }

/-- The arguments of `create_lease`. -/
structure NewLease where
  jobId : JobId
  threadId : ThreadId
  objective : String
  goalCreatedAt : Int
  goalUpdatedAt : Int
  deadlineAt : Int
  wakeMode : WakeMode := .goal
  turnId : Option String := none
  callId : Option String := none

/-- The row that `create_lease` inserts. -/
def NewLease.row (new : NewLease) : WakeLease where
  jobId := new.jobId
  threadId := new.threadId
  objective := new.objective
  goalCreatedAt := new.goalCreatedAt
  goalUpdatedAt := new.goalUpdatedAt
  state := .preparing
  deadlineAt := new.deadlineAt
  terminalState := none
  deliveryState := .pending
  error := none
  wakeMode := new.wakeMode
  turnId := new.turnId
  callId := new.callId
  handoffState := match new.wakeMode with
    | .session => .pending
    | .goal => .notApplicable
  receiptState := none
  wakeTurnId := none

/-- The threads of the live rows: the keys of the partial index. -/
def liveThreads (leases : List WakeLease) : List ThreadId :=
  (leases.filter WakeLease.isLive).map WakeLease.threadId

/-- The rows in the order of their creation. -/
structure BridgeState where
  leases : List WakeLease
  jobIdPrimaryKey : (leases.map WakeLease.jobId).Nodup
  oneLiveLeasePerThread : (liveThreads leases).Nodup

namespace BridgeState

def empty : BridgeState := ⟨[], List.nodup_nil, List.nodup_nil⟩

def get (store : BridgeState) (job : JobId) : Option WakeLease :=
  store.leases.find? fun lease => lease.jobId = job

/-- The live lease of a thread. The index admits one, so the source's order does not matter. -/
def liveForThread (store : BridgeState) (thread : ThreadId) : Option WakeLease :=
  store.leases.find? fun lease => lease.threadId = thread && lease.isLive

def pending (store : BridgeState) : List WakeLease :=
  store.leases.filter WakeLease.isLive

/-- The `INSERT` of `create_lease`, where both constraints hold. -/
def insert (store : BridgeState) (lease : WakeLease)
    (newJob : lease.jobId ∉ store.leases.map WakeLease.jobId)
    (newThread : lease.threadId ∉ liveThreads store.leases) : BridgeState where
  leases := store.leases ++ [lease]
  jobIdPrimaryKey := by
    rw [List.map_append, List.nodup_append]
    refine ⟨store.jobIdPrimaryKey, List.nodup_singleton _, ?_⟩
    rintro left leftMem right rightMem rfl
    simp only [List.map_cons, List.map_nil, List.mem_singleton] at rightMem
    exact newJob (rightMem ▸ leftMem)
  oneLiveLeasePerThread := by
    have nodup := store.oneLiveLeasePerThread
    simp only [liveThreads, List.filter_append, List.map_append, List.nodup_append] at *
    refine ⟨nodup, ?_, ?_⟩
    · exact (List.nodup_singleton lease.threadId).sublist
        (by cases live : lease.isLive <;> simp [live])
    · rintro left leftMem right rightMem rfl
      have isNew : left = lease.threadId := by
        cases live : lease.isLive <;> simp_all
      exact newThread (isNew ▸ leftMem)

/-- Registers a lease. A job that is registered for the same thread keeps its row, whatever state
that row is in, and the caller gets it. -/
def createLease (store : BridgeState) (new : NewLease) :
    Except PyError (BridgeState × WakeLease) :=
  if newJob : new.jobId ∉ store.leases.map WakeLease.jobId then
    if newThread : new.threadId ∉ liveThreads store.leases then
      .ok (store.insert new.row newJob newThread, new.row)
    else .error (runtimeError "this thread already has a live longrun wake lease")
  else
    match store.get new.jobId with
    | some existing =>
        if existing.threadId ≠ new.threadId then
          .error (runtimeError "job ID is already registered for a different thread")
        else .ok (store, existing)
    | none => .error (runtimeError "this thread already has a live longrun wake lease")

private def assign (leases : List WakeLease) (job : JobId) (fields : LeaseUpdate) :
    List WakeLease :=
  leases.map fun lease => if lease.jobId = job then fields.apply lease else lease

private theorem map_jobId_assign (leases : List WakeLease) (job : JobId) (fields : LeaseUpdate) :
    (assign leases job fields).map WakeLease.jobId = leases.map WakeLease.jobId := by
  rw [assign, List.map_map]
  apply List.map_congr_left
  intro lease _
  by_cases same : lease.jobId = job <;> simp [same, LeaseUpdate.apply]

/-- The `UPDATE` of one row. Numbers that SQLite cannot store, of more than 64 bits, are left out. -/
def update (store : BridgeState) (job : JobId) (fields : LeaseUpdate) :
    Except PyError BridgeState :=
  if job ∈ store.leases.map WakeLease.jobId then
    if unique : (liveThreads (assign store.leases job fields)).Nodup then
      .ok ⟨assign store.leases job fields, by
        rw [map_jobId_assign]; exact store.jobIdPrimaryKey, unique⟩
    else .error ⟨"IntegrityError", "UNIQUE constraint failed: wake_leases.thread_id"⟩
  else .error ⟨"KeyError", "unknown wake lease: " ++ job⟩

/-! ### Reading the table -/

variable {store : BridgeState}

theorem mem_leases_iff {lease : WakeLease} :
    lease ∈ store.leases ↔ store.get lease.jobId = some lease := by
  constructor
  · intro mem
    obtain ⟨found, foundIs⟩ :
        ∃ found, store.leases.find? (fun row => row.jobId = lease.jobId) = some found := by
      rw [← Option.isSome_iff_exists, List.find?_isSome]
      exact ⟨lease, mem, by simp⟩
    have sameJob : found.jobId = lease.jobId := by simpa using List.find?_some foundIs
    rw [get, foundIs, List.inj_on_of_nodup_map store.jobIdPrimaryKey
      (List.mem_of_find?_eq_some foundIs) mem sameJob]
  · intro found
    exact List.mem_of_find?_eq_some found

theorem jobId_of_get {job : JobId} {lease : WakeLease} (found : store.get job = some lease) :
    lease.jobId = job := by
  simpa using List.find?_some found

theorem mem_jobIds_iff {job : JobId} :
    job ∈ store.leases.map WakeLease.jobId ↔ ∃ lease, store.get job = some lease := by
  constructor
  · intro mem
    rcases List.mem_map.mp mem with ⟨lease, leaseMem, rfl⟩
    exact ⟨lease, mem_leases_iff.mp leaseMem⟩
  · rintro ⟨lease, found⟩
    have sameJob := jobId_of_get found
    subst sameJob
    exact List.mem_map_of_mem (mem_leases_iff.mpr found)

theorem liveForThread_eq_some_iff {thread : ThreadId} {lease : WakeLease} :
    store.liveForThread thread = some lease ↔
      store.get lease.jobId = some lease ∧ lease.threadId = thread ∧ lease.isLive = true := by
  have found_of {row : WakeLease} (found : store.liveForThread thread = some row) :
      row ∈ store.leases ∧ row.threadId = thread ∧ row.isLive = true := by
    refine ⟨List.mem_of_find?_eq_some found, ?_⟩
    simpa using List.find?_some found
  constructor
  · intro found
    rcases found_of found with ⟨mem, rest⟩
    exact ⟨mem_leases_iff.mp mem, rest⟩
  · rintro ⟨isRow, sameThread, live⟩
    have mem := mem_leases_iff.mpr isRow
    obtain ⟨found, foundIs⟩ : ∃ found, store.liveForThread thread = some found := by
      rw [← Option.isSome_iff_exists, liveForThread, List.find?_isSome]
      exact ⟨lease, mem, by simp [sameThread, live]⟩
    rcases found_of foundIs with ⟨foundMem, foundThread, foundLive⟩
    rw [foundIs, List.inj_on_of_nodup_map store.oneLiveLeasePerThread
      (List.mem_filter.mpr ⟨foundMem, foundLive⟩) (List.mem_filter.mpr ⟨mem, live⟩)
      (foundThread.trans sameThread.symm)]

theorem mem_liveThreads_iff {thread : ThreadId} :
    thread ∈ liveThreads store.leases ↔ ∃ lease, store.liveForThread thread = some lease := by
  constructor
  · intro mem
    rcases List.mem_map.mp mem with ⟨lease, leaseMem, rfl⟩
    rcases List.mem_filter.mp leaseMem with ⟨rowMem, live⟩
    exact ⟨lease, liveForThread_eq_some_iff.mpr ⟨mem_leases_iff.mp rowMem, rfl, live⟩⟩
  · rintro ⟨lease, found⟩
    rcases liveForThread_eq_some_iff.mp found with ⟨isRow, rfl, live⟩
    exact List.mem_map_of_mem (List.mem_filter.mpr ⟨mem_leases_iff.mpr isRow, live⟩)

/-- The live rows of a thread are one row. -/
theorem live_unique {left right : JobId} {leftLease rightLease : WakeLease}
    (leftRow : store.get left = some leftLease) (rightRow : store.get right = some rightLease)
    (sameThread : leftLease.threadId = rightLease.threadId)
    (leftLive : leftLease.isLive = true) (rightLive : rightLease.isLive = true) :
    left = right := by
  have leftJob := jobId_of_get leftRow
  have rightJob := jobId_of_get rightRow
  subst leftJob rightJob
  have leftFound := liveForThread_eq_some_iff.mpr ⟨leftRow, sameThread, leftLive⟩
  have rightFound := liveForThread_eq_some_iff.mpr ⟨rightRow, rfl, rightLive⟩
  rw [leftFound, Option.some.injEq] at rightFound
  rw [rightFound]

theorem mem_pending_iff {lease : WakeLease} :
    lease ∈ store.pending ↔ store.get lease.jobId = some lease ∧ lease.isLive = true := by
  rw [pending, List.mem_filter, mem_leases_iff]

/-! ### Writing the table -/

/-- A registration either inserts its row or answers with the row that the job already has. -/
theorem createLease_cases {new : NewLease} {after : BridgeState} {lease : WakeLease}
    (created : store.createLease new = .ok (after, lease)) :
    (store.get new.jobId = none ∧ store.liveForThread new.threadId = none ∧ lease = new.row ∧
        ∀ job, after.get job = if job = new.jobId then some new.row else store.get job) ∨
      (after = store ∧ store.get new.jobId = some lease ∧ lease.threadId = new.threadId) := by
  unfold createLease at created
  split at created
  · rename_i newJob
    split at created
    · rename_i newThread
      simp only [Except.ok.injEq, Prod.mk.injEq] at created
      rcases created with ⟨rfl, rfl⟩
      have noRow : store.get new.jobId = none := by
        rw [Option.eq_none_iff_forall_ne_some]
        exact fun lease found => newJob (mem_jobIds_iff.mpr ⟨lease, found⟩)
      refine .inl ⟨noRow, ?_, rfl, ?_⟩
      · rw [Option.eq_none_iff_forall_ne_some]
        exact fun lease found => newThread (mem_liveThreads_iff.mpr ⟨lease, found⟩)
      · intro job
        simp only [get, insert, List.find?_append] at noRow ⊢
        by_cases same : job = new.jobId
        · subst same
          simp [noRow, NewLease.row]
        · have other : new.row.jobId ≠ job := fun equal => same equal.symm
          simp [same, other]
    · simp at created
  · split at created
    · rename_i existing found
      split at created
      · simp at created
      · rename_i sameThread
        simp only [Except.ok.injEq, Prod.mk.injEq] at created
        rcases created with ⟨rfl, rfl⟩
        exact .inr ⟨rfl, found, by simpa using sameThread⟩
    · simp at created

/-- A registration for a job without a row inserts it. -/
theorem get_createLease {new : NewLease} {after : BridgeState} {lease : WakeLease}
    (fresh : store.get new.jobId = none)
    (created : store.createLease new = .ok (after, lease)) (job : JobId) :
    after.get job = if job = new.jobId then some new.row else store.get job := by
  rcases createLease_cases created with ⟨-, -, -, rows⟩ | ⟨-, found, -⟩
  · exact rows job
  · rw [fresh] at found
    contradiction

private theorem liveThreads_assign_sublist {leases : List WakeLease} {job : JobId}
    {fields : LeaseUpdate}
    (noRevival : ∀ lease ∈ leases, lease.jobId = job →
      (fields.apply lease).isLive = true → lease.isLive = true) :
    (liveThreads (assign leases job fields)).Sublist (liveThreads leases) := by
  induction leases with
  | nil => simp [assign, liveThreads]
  | cons lease leases ih =>
      specialize ih fun row mem => noRevival row (List.mem_cons_of_mem _ mem)
      simp only [assign, liveThreads, List.map_cons] at ih ⊢
      by_cases same : lease.jobId = job
      · have head := noRevival lease List.mem_cons_self same
        simp only [same, if_true]
        cases after : (fields.apply lease).isLive
        · simp only [List.filter_cons, after]
          cases lease.isLive
          · simpa using ih
          · simpa using ih.trans (List.sublist_cons_self _ _)
        · simp only [List.filter_cons, after, head after, if_true, List.map_cons]
          exact ih.cons_cons _
      · simp only [same, if_false]
        cases live : lease.isLive
        · simpa [List.filter_cons, live] using ih
        · simp only [List.filter_cons, live, if_true, List.map_cons]
          exact ih.cons_cons _

/-- An update of an existing row that does not bring a settled lease back to life is accepted,
and changes this row alone. -/
theorem update_accepted {job : JobId} {fields : LeaseUpdate} {lease : WakeLease}
    (found : store.get job = some lease)
    (noRevival : (fields.apply lease).isLive = true → lease.isLive = true) :
    ∃ after, store.update job fields = .ok after ∧
      ∀ other, after.get other = if other = job then some (fields.apply lease)
        else store.get other := by
  have unique : (liveThreads (assign store.leases job fields)).Nodup := by
    refine store.oneLiveLeasePerThread.sublist (liveThreads_assign_sublist ?_)
    intro row mem same
    have isRow := mem_leases_iff.mp mem
    rw [same, found, Option.some.injEq] at isRow
    exact isRow ▸ noRevival
  refine ⟨_, by rw [update, if_pos (mem_jobIds_iff.mpr ⟨lease, found⟩), dif_pos unique], ?_⟩
  intro other
  simp only [get, assign, List.find?_map] at found ⊢
  have sameTest : ((fun row : WakeLease => decide (row.jobId = other)) ∘
      fun row => if row.jobId = job then fields.apply row else row) =
      fun row => decide (row.jobId = other) := by
    funext row
    by_cases same : row.jobId = job <;> simp [same, LeaseUpdate.apply]
  rw [sameTest]
  by_cases same : other = job
  · subst same
    have sameJob : lease.jobId = other := by simpa using List.find?_some found
    simp [found, sameJob]
  · rw [if_neg same]
    cases row : store.leases.find? (fun row => row.jobId = other) with
    | none => simp
    | some row' =>
        have rowJob : row'.jobId = other := by simpa using List.find?_some row
        simp [rowJob, same]

@[simp]
theorem get_empty (job : JobId) : empty.get job = none := rfl

end BridgeState

end Longrun.Bridge
