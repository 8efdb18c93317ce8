import Longrun.Tui.FullRead
import Longrun.Tui.Process

/-!
# How old cached scrollback may be

The turns that a full-history read fetches are cached until a notification reports that the turns of
the thread have changed. A read that has its page still under way when the notification arrives
stores the page afterwards, and later reads are answered with it. In the runs in which no such
notification arrives while a page of its thread is under way, an answer shows turns that were
requested after the last notification before the read began.
-/

namespace Longrun.Tui

open Process (World Entering)

variable {Frame : Type} {proxy : CompatibilityProxy Frame} {printing : Nat → Option String}
  {memory after : Memory Frame} {trace recent : List (Event Frame)} {task : Task}
  {request : Call Frame} {thread : String} {number : Nat}

/-! ### What the trace says -/

/-- The frame reports that the turns of the thread have changed. -/
def notifies (proxy : CompatibilityProxy Frame) (thread : String) (frame : Frame) : Bool :=
  match proxy.decodeObject frame with
  | .ok (some message) =>
      match changedThread message with
      | .ok changed => changed = some thread
      | .error _ => false
  | _ => false

/-- A notification about the thread is handed over for the TUI. -/
def Event.notifies (proxy : CompatibilityProxy Frame) (thread : String) : Event Frame → Bool
  | .called _ (.sendClient (.raw frame)) => Tui.notifies proxy thread frame
  | _ => false

/-- A page of the thread is requested. -/
def Event.requests (thread : String) : Event Frame → Bool
  | .called _ (.helperCall (.turnsList fetched _)) => fetched = thread
  | _ => false

/-- The request for a page of the thread ends. -/
def Event.delivers (thread : String) : Event Frame → Bool
  | .replied _ (.helperCall (.turnsList fetched _)) _ => fetched = thread
  | _ => false

/-- A page of the thread is under way. -/
def fetching (thread : String) : List (Event Frame) → Bool
  | [] => false
  | event :: trace => event.requests thread || (!event.delivers thread && fetching thread trace)

/-- `_handle_full_read` begins for a read: it gets the lock of its thread. -/
def Event.begins (number : Nat) (thread : String) : Event Frame → Bool
  | .replied (.read started) (.acquire (.history locked)) (.ok _) =>
      started = number ∧ locked = thread
  | _ => false

/-- The events after the last notification about the thread. -/
def since (proxy : CompatibilityProxy Frame) (thread : String) (trace : List (Event Frame)) :
    List (Event Frame) :=
  trace.takeWhile fun event => !event.notifies proxy thread

/-- The events after the last notification about the thread before a read begins. -/
def window (proxy : CompatibilityProxy Frame) (number : Nat) (thread : String) :
    List (Event Frame) → List (Event Frame)
  | [] => []
  | event :: trace =>
      if event.begins number thread then event :: since proxy thread trace
      else event :: window proxy number thread trace

/-- The turns that a request for a page yields: none where it fails. -/
def turnsOf (reply : Except Exit Json) : List Json :=
  match reply.bind turnsOfPage with
  | .ok turns => turns
  | .error _ => []

/-- The turns come from a request that was made recently. -/
def Fetched (thread : String) (turns : List Json) (recent : List (Event Frame)) : Prop :=
  ∃ task limit reply, .called task (.helperCall (.turnsList thread limit)) ∈ recent ∧
    .replied task (.helperCall (.turnsList thread limit)) reply ∈ recent ∧ turns = turnsOf reply

/-- A read may show no turns: the proxy never does, or a call of the read has failed. -/
def Excused (proxy : CompatibilityProxy Frame) (number : Nat) (recent : List (Event Frame)) : Prop :=
  proxy.legacyHistoryMode ≠ .auto ∨
    ∃ request exit, .replied (.read number) request (.error exit) ∈ recent

/-- The turns cannot be shown: they are too long, or they cannot be copied. -/
def CompatibilityProxy.Unshowable (proxy : CompatibilityProxy Frame) (id : JsonId) (summary : Json)
    (turns : List Json) : Prop :=
  proxy.exceeds (readResponse id summary turns) = true ∨
    proxy.copyError .read (.arr turns) ≠ none

/-- An answer shows turns that were requested recently, or none where they cannot be shown or where
the read has failed itself; without a summary it is an error. -/
def FreshAnswer (proxy : CompatibilityProxy Frame) (number : Nat) (thread : String)
    (recent : List (Event Frame)) (message : Json) : Prop :=
  (∃ id summary turns, Fetched thread turns recent ∧
    (message = readResponse id summary turns ∨
      proxy.Unshowable id summary turns ∧ message = readResponse id summary [])) ∨
  (∃ id summary, message = readResponse id summary [] ∧ Excused proxy number recent) ∨
  ∃ id, message = unsafeResponse id

/-- After every notification, reads that begin are answered with what is requested after it. -/
def ScrollbackFresh (proxy : CompatibilityProxy Frame) (trace : List (Event Frame)) : Prop :=
  ∀ newer middle between older number thread frame message,
    trace = newer ++ .called (.read number) (.sendClient (.object message)) ::
      (middle ++ .replied (.read number) (.acquire (.history thread)) (.ok ()) ::
        (between ++ .called .upstream (.sendClient (.raw frame)) :: older)) →
    notifies proxy thread frame = true →
      FreshAnswer proxy number thread
        (middle ++ .replied (.read number) (.acquire (.history thread)) (.ok ()) :: between) message

/-! ### Recent events -/

theorem Fetched.mono {turns : List Json} {more : List (Event Frame)}
    (fetched : Fetched thread turns recent) (subset : recent ⊆ more) :
    Fetched thread turns more := by
  rcases fetched with ⟨task, limit, reply, requested, replied, same⟩
  exact ⟨task, limit, reply, subset requested, subset replied, same⟩

theorem Excused.mono {more : List (Event Frame)} (excused : Excused proxy number recent)
    (subset : recent ⊆ more) : Excused proxy number more := by
  rcases excused with mode | ⟨request, exit, failed⟩
  · exact .inl mode
  · exact .inr ⟨request, exit, subset failed⟩

theorem FreshAnswer.mono {message : Json} {more : List (Event Frame)}
    (fresh : FreshAnswer proxy number thread recent message) (subset : recent ⊆ more) :
    FreshAnswer proxy number thread more message := by
  rcases fresh with ⟨id, summary, turns, fetched, shown⟩ | ⟨id, summary, same, excused⟩ | refused
  · exact .inl ⟨id, summary, turns, fetched.mono subset, shown⟩
  · exact .inr (.inl ⟨id, summary, same, excused.mono subset⟩)
  · exact .inr (.inr refused)

theorem since_cons {event : Event Frame} (other : event.notifies proxy thread = false) :
    since proxy thread (event :: trace) = event :: since proxy thread trace := by
  simp [since, other]

theorem since_notification {event : Event Frame} (notification : event.notifies proxy thread = true) :
    since proxy thread (event :: trace) = [] := by
  simp [since, notification]

theorem since_subset_window {begin : Event Frame} (begins : begin.begins number thread = true)
    (begun : begin ∈ trace) : since proxy thread trace ⊆ window proxy number thread trace := by
  induction trace with
  | nil => cases begun
  | cons event trace ih =>
      rw [window]
      cases notification : event.notifies proxy thread with
      | true => simp [since_notification notification]
      | false =>
          rw [since_cons notification]
          split
          · exact List.Subset.refl _
          · rename_i other
            apply List.cons_subset_cons
            rcases List.mem_cons.mp begun with rfl | begun
            · exact absurd begins other
            · exact ih begun

theorem window_cons {event : Event Frame} (other : event.begins number thread = false) :
    window proxy number thread (event :: trace) = event :: window proxy number thread trace := by
  simp [window, other]

/-- What comes after a notification cannot reach behind it. -/
theorem since_append_subset {newer older : List (Event Frame)} {notification : Event Frame}
    (isNotification : notification.notifies proxy thread = true) :
    since proxy thread (newer ++ notification :: older) ⊆ newer := by
  induction newer with
  | nil => simp [since_notification isNotification]
  | cons event newer ih =>
      cases other : event.notifies proxy thread with
      | true => simp [since_notification other]
      | false =>
          rw [List.cons_append, since_cons other]
          exact List.cons_subset_cons event ih

theorem window_append_subset {middle between older : List (Event Frame)}
    {begin notification : Event Frame} (begins : begin.begins number thread = true)
    (isNotification : notification.notifies proxy thread = true) :
    window proxy number thread (middle ++ begin :: (between ++ notification :: older)) ⊆
      middle ++ begin :: between := by
  induction middle with
  | nil =>
      rw [List.nil_append, window, if_pos begins, List.nil_append]
      exact List.cons_subset_cons begin (since_append_subset isNotification)
  | cons event middle ih =>
      rw [List.cons_append, window, List.cons_append]
      split
      · apply List.cons_subset_cons
        have split : middle ++ begin :: (between ++ notification :: older) =
            (middle ++ begin :: between) ++ notification :: older := by simp
        rw [split]
        exact since_append_subset isNotification
      · exact List.cons_subset_cons event ih

/-! ### The invariant -/

/-- The task that makes a call or gets a reply. -/
def Event.task? : Event Frame → Option Task
  | .called task _ => some task
  | .replied task _ _ => some task
  | _ => none

/-- What the loop over the frames of the TUI has checked of a read. -/
def Intercepted (read : Read Frame) : Prop :=
  ∃ id, jsonId read.request = some id ∧
    ((read.request.get "params").get "threadId").str? = some read.thread

/-- Cached turns were requested after the last notification, and answers are fresh. -/
structure Fresh (proxy : CompatibilityProxy Frame) (memory : Memory Frame) : Prop where
  tails : ∀ thread turns, memory.tailCache.get? thread = some turns →
    Fetched thread turns (since proxy thread memory.trace)
  answers : ∀ number message earlier,
    .called (.read number) (.sendClient (.object message)) :: earlier <:+ memory.trace →
      ∀ thread, (∃ event ∈ earlier, event.begins number thread = true) →
        FreshAnswer proxy number thread (window proxy number thread earlier) message
  reads : ∀ read ∈ memory.reads, Intercepted read
  unstarted : ∀ number, memory.startedReads ≤ number → ∀ event ∈ memory.trace,
    event.task? ≠ some (.read number)

/-- An event that a task may log in a memory. -/
structure Proper (proxy : CompatibilityProxy Frame) (task : Task) (memory : Memory Frame)
    (event : Event Frame) : Prop where
  own : ∀ other, event.task? = some other → other = task
  started : ∀ number, event.task? = some (.read number) → number < memory.startedReads
  notification : ∀ thread, event.notifies proxy thread = true →
    fetching thread memory.trace = false ∧ memory.tailCache.get? thread = none
  fetch : ∀ thread, event.requests thread = true ∨ event.delivers thread = true →
    memory.holder (.history thread) = some task

/-- The variables that the invariant is about are the same. -/
structure SameCache (before after : Memory Frame) : Prop where
  tails : after.tailCache = before.tailCache
  reads : after.reads = before.reads
  started : after.startedReads = before.startedReads
  trace : after.trace = before.trace

namespace Fresh

theorem congr (fresh : Fresh proxy memory) (same : SameCache memory after) : Fresh proxy after := by
  constructor
  · rw [same.tails, same.trace]
    exact fresh.tails
  · rw [same.trace]
    exact fresh.answers
  · rw [same.reads]
    exact fresh.reads
  · rw [same.started, same.trace]
    exact fresh.unstarted

theorem log (fresh : Fresh proxy memory) {event : Event Frame}
    (proper : Proper proxy task memory event)
    (answer : ∀ number message, event = .called (.read number) (.sendClient (.object message)) →
      ∀ thread, (∃ event ∈ memory.trace, event.begins number thread = true) →
        FreshAnswer proxy number thread (window proxy number thread memory.trace) message) :
    Fresh proxy (memory.log event) := by
  constructor
  · intro thread turns cached
    cases notification : event.notifies proxy thread with
    | true =>
        have absent := (proper.notification thread notification).2
        have cached : memory.tailCache.get? thread = some turns := cached
        rw [absent] at cached
        cases cached
    | false =>
        rw [Memory.log, since_cons notification]
        exact (fresh.tails thread turns cached).mono (List.subset_cons_self _ _)
  · intro number message earlier suffix
    rcases List.suffix_cons_iff.mp suffix with same | suffix
    · cases same
      exact answer number message rfl
    · exact fresh.answers number message earlier suffix
  · exact fresh.reads
  · intro number unstarted other logged
    rcases List.mem_cons.mp logged with rfl | logged
    · intro isRead
      have started := proper.started number isRead
      have unstarted : memory.startedReads ≤ number := unstarted
      omega
    · exact fresh.unstarted number unstarted other logged

end Fresh

/-! ### How the tasks treat the cache -/

/-- A change that a task may make. -/
structure Decent (proxy : CompatibilityProxy Frame) (task : Task) (before after : Memory Frame) :
    Prop where
  fresh : Fresh proxy before → Fresh proxy after
  trace : after.trace = before.trace ∨
    ∃ event, after.trace = event :: before.trace ∧ Proper proxy task before event
  locks : ∀ lock other, other ≠ task → before.holder lock = some other →
    after.holder lock = some other
  started : before.startedReads ≤ after.startedReads

/-- What a task can rely on while it waits. -/
structure Undisturbed (proxy : CompatibilityProxy Frame) (task : Task)
    (before after : Memory Frame) : Prop where
  fresh : Fresh proxy before → Fresh proxy after
  trace : ∃ newer, after.trace = newer ++ before.trace ∧ ∀ event ∈ newer, event.task? ≠ some task
  locks : ∀ lock, before.holder lock = some task → after.holder lock = some task
  fetch : ∀ thread, before.holder (.history thread) = some task →
    fetching thread before.trace = true →
      fetching thread after.trace = true ∧
        since proxy thread before.trace ⊆ since proxy thread after.trace
  started : before.startedReads ≤ after.startedReads

theorem Undisturbed.refl (proxy : CompatibilityProxy Frame) (task : Task) (memory : Memory Frame) :
    Undisturbed proxy task memory memory where
  fresh := id
  trace := ⟨[], rfl, by simp⟩
  locks _ held := held
  fetch _ _ isFetching := ⟨isFetching, List.Subset.refl _⟩
  started := le_refl _

theorem Undisturbed.trans {first middle last : Memory Frame}
    (left : Undisturbed proxy task first middle) (right : Undisturbed proxy task middle last) :
    Undisturbed proxy task first last where
  fresh := right.fresh ∘ left.fresh
  trace := by
    rcases left.trace with ⟨newer, isMiddle, foreign⟩
    rcases right.trace with ⟨newest, isLast, alsoForeign⟩
    refine ⟨newest ++ newer, by rw [isLast, isMiddle, List.append_assoc], ?_⟩
    intro event mem
    rcases List.mem_append.mp mem with mem | mem
    · exact alsoForeign event mem
    · exact foreign event mem
  locks lock held := right.locks lock (left.locks lock held)
  fetch thread held isFetching := by
    have before := left.fetch thread held isFetching
    have later := right.fetch thread (left.locks _ held) before.1
    exact ⟨later.1, List.Subset.trans before.2 later.2⟩
  started := left.started.trans right.started

theorem Undisturbed.of_decent {other : Task} (different : other ≠ task)
    (decent : Decent proxy other memory after) : Undisturbed proxy task memory after where
  fresh := decent.fresh
  trace := by
    rcases decent.trace with same | ⟨event, logged, proper⟩
    · exact ⟨[], same, by simp⟩
    · refine ⟨[event], logged, ?_⟩
      intro only mem isTask
      rw [List.mem_singleton] at mem
      subst mem
      exact different (proper.own task isTask).symm
  locks lock held := decent.locks lock task different.symm held
  fetch thread held isFetching := by
    rcases decent.trace with same | ⟨event, logged, proper⟩
    · rw [same]
      exact ⟨isFetching, List.Subset.refl _⟩
    · have foreign : ¬(event.requests thread = true ∨ event.delivers thread = true) := by
        intro fetch
        have holds := proper.fetch thread fetch
        rw [held] at holds
        exact different (Option.some.inj holds).symm
      have quiet : event.notifies proxy thread = false := by
        cases notification : event.notifies proxy thread with
        | false => rfl
        | true =>
            have stopped := (proper.notification thread notification).1
            rw [isFetching] at stopped
            exact absurd stopped Bool.noConfusion
      rw [not_or, Bool.not_eq_true, Bool.not_eq_true] at foreign
      rw [logged, since_cons quiet]
      refine ⟨by simp [fetching, foreign.2, isFetching], List.subset_cons_self _ _⟩
  started := decent.started

/-- How the tasks treat the cache. -/
def cacheConduct (proxy : CompatibilityProxy Frame) (printing : Nat → Option String) :
    (connectionProcess proxy printing).Conduct where
  guarantees := Decent proxy
  relies := Undisturbed proxy
  relies_refl := Undisturbed.refl proxy
  relies_trans := Undisturbed.trans
  others := Undisturbed.of_decent
  rests _ _ := True
  rests_later _ _ := trivial

/-! ### What calls and replies do -/

namespace Decent

/-- A change that concerns neither the cache nor the reads, locks and events. -/
theorem of_same (same : SameCache memory after) (holder : after.holder = memory.holder) :
    Decent proxy task memory after where
  fresh fresh := fresh.congr same
  trace := .inl same.trace
  locks lock other _ held := by rw [holder]; exact held
  started := by rw [same.started]

/-- An event, with a change of the task's own locks. -/
theorem of_log {event : Event Frame} {middle : Memory Frame} (same : SameCache memory middle)
    (locks : ∀ lock other, other ≠ task → memory.holder lock = some other →
      middle.holder lock = some other)
    (proper : Proper proxy task memory event)
    (answer : ∀ number message, event = .called (.read number) (.sendClient (.object message)) →
      ∀ thread, (∃ event ∈ memory.trace, event.begins number thread = true) →
        FreshAnswer proxy number thread (window proxy number thread memory.trace) message) :
    Decent proxy task memory (middle.log event) where
  fresh fresh := (fresh.log proper answer).congr
    ⟨same.tails, same.reads, same.started, congrArg (List.cons event) same.trace⟩
  trace := .inr ⟨event, congrArg (List.cons event) same.trace, proper⟩
  locks := locks
  started := by
    have started : (middle.log event).startedReads = memory.startedReads := same.started
    rw [started]

end Decent

/-- The calls that are decent wherever a task makes them. -/
def Call.Plain : Call Frame → Prop
  | .setTail _ _ => False
  | .createTask source => Intercepted source
  | .helperCall (.turnsList _ _) => False
  | .sendClient _ => False
  | _ => True

/-- The read that runs has started. -/
def Task.Started (task : Task) (memory : Memory Frame) : Prop :=
  ∀ number, task = .read number → number < memory.startedReads

theorem proper_called (started : task.Started memory) (plain : request.Plain) :
    Proper proxy task memory (.called task request) where
  own _ isTask := (Option.some.inj isTask).symm
  started number isRead := started number (Option.some.inj isRead)
  notification thread notification := by
    cases request <;> first | exact plain.elim | cases notification
  fetch thread fetch := by
    cases request <;> try (simp [Event.requests, Event.delivers] at fetch)
    rename_i helperRequest
    cases helperRequest with
    | threadRead _ => simp at fetch
    | turnsList _ _ => exact plain.elim

/-- An event of no task that is neither a notification nor about a page. -/
theorem proper_of_quiet {event : Event Frame} (own : event.task? = none)
    (notification : ∀ thread, event.notifies proxy thread = false)
    (fetch : ∀ thread, event.requests thread = false ∧ event.delivers thread = false) :
    Proper proxy task memory event where
  own _ isTask := by rw [own] at isTask; cases isTask
  started _ isRead := by rw [own] at isRead; cases isRead
  notification thread notified := by rw [notification thread] at notified; cases notified
  fetch thread fetched := by simp [fetch thread] at fetched

theorem performs_decent (started : task.Started memory) (plain : request.Plain) :
    Decent proxy task memory (perform task memory request).memory := by
  have logged : Decent proxy task memory (memory.log (.called task request)) := by
    apply Decent.of_log ⟨rfl, rfl, rfl, rfl⟩ (fun _ _ _ held => held) (proper_called started plain)
    intro number message same
    cases same
    exact plain.elim
  cases request with
  | setTail _ _ => exact plain.elim
  | sendClient _ => exact plain.elim
  | createTask source =>
      refine ⟨fun fresh => ?_, .inl rfl, fun _ _ _ held => held, le_refl _⟩
      refine ⟨fresh.tails, fresh.answers, ?_, fresh.unstarted⟩
      intro read created
      rcases List.mem_append.mp created with created | isSource
      · exact fresh.reads read created
      · rw [List.mem_singleton.mp isSource]
        exact plain
  | popTail popped =>
      refine ⟨fun fresh => ?_, .inl rfl, fun _ _ _ held => held, le_refl _⟩
      refine ⟨?_, fresh.answers, fresh.reads, fresh.unstarted⟩
      intro thread turns cached
      have cached : (memory.tailCache.pop popped).get? thread = some turns := cached
      rw [Dict.get?_pop] at cached
      split_ifs at cached
      exact fresh.tails thread turns cached
  | setResult call message =>
      simp only [perform, Performed.memory, Memory.complete]
      split
      · apply Decent.of_log
        · rw [Memory.settleFuture]
          split <;> exact ⟨rfl, rfl, rfl, rfl⟩
        · rw [Memory.settleFuture]
          split <;> exact fun _ _ _ held => held
        · exact proper_of_quiet rfl (fun _ => rfl) fun _ => ⟨rfl, rfl⟩
        · exact fun _ _ impossible => by cases impossible
      · exact Decent.of_same ⟨rfl, rfl, rfl, rfl⟩ rfl
  | popInternal id =>
      apply Decent.of_log
      · exact ⟨rfl, rfl, rfl, rfl⟩
      · exact fun _ _ _ held => held
      · exact proper_of_quiet rfl (fun _ => rfl) fun _ => ⟨rfl, rfl⟩
      · exact fun _ _ impossible => by cases impossible
  | print line =>
      apply Decent.of_log
      · exact ⟨rfl, rfl, rfl, rfl⟩
      · exact fun _ _ _ held => held
      · refine ⟨fun _ isTask => (Option.some.inj isTask).symm, fun number isRead =>
          started number (Option.some.inj isRead), ?_, ?_⟩
        · exact fun _ impossible => by cases impossible
        · simp [Event.requests, Event.delivers]
      · exact fun _ _ impossible => by cases impossible
  | release lock =>
      simp only [perform]
      split
      · rename_i held
        refine ⟨fun fresh => fresh.congr ⟨rfl, rfl, rfl, rfl⟩, .inl rfl, ?_, le_refl _⟩
        intro other holder different isHeld
        have foreign : other ≠ lock := by
          rintro rfl
          rw [held] at isHeld
          exact different (Option.some.inj isHeld).symm
        simpa [Performed.memory, foreign] using isHeld
      · exact Decent.of_same ⟨rfl, rfl, rfl, rfl⟩ rfl
  | _ => first
    | exact Decent.of_same ⟨rfl, rfl, rfl, rfl⟩ rfl
    | exact logged

theorem proper_replied {reply : Except Exit request.Answer} (started : task.Started memory)
    (fetch : ∀ thread limit, request = .helperCall (.turnsList thread limit) →
      memory.holder (.history thread) = some task) :
    Proper proxy task memory (.replied task request reply) where
  own _ isTask := (Option.some.inj isTask).symm
  started number isRead := started number (Option.some.inj isRead)
  notification _ impossible := by cases impossible
  fetch thread fetched := by
    cases request with
    | helperCall helperRequest =>
        cases helperRequest with
        | threadRead _ => simp [Event.requests, Event.delivers] at fetched
        | turnsList fetchedThread limit =>
            have same : fetchedThread = thread := by simpa [Event.requests, Event.delivers] using fetched
            subst same
            exact fetch fetchedThread limit rfl
    | _ => simp [Event.requests, Event.delivers] at fetched

theorem answers_decent {reply : Except Exit request.Answer} (started : task.Started memory)
    (fetch : ∀ thread limit, request = .helperCall (.turnsList thread limit) →
      memory.holder (.history thread) = some task)
    (answered : answer task memory request reply = some after) :
    Decent proxy task memory after := by
  rcases Option.map_eq_some_iff.mp answered with ⟨middle, admitted, rfl⟩
  suffices kept : SameCache memory middle ∧ ∀ lock other, other ≠ task →
      memory.holder lock = some other → middle.holder lock = some other by
    apply Decent.of_log kept.1 kept.2 (proper_replied started fetch)
    exact fun _ _ impossible => by cases impossible
  rw [grant.eq_def] at admitted
  split at admitted
  · rename_i lock _
    split_ifs at admitted with free
    cases admitted
    refine ⟨⟨rfl, rfl, rfl, rfl⟩, ?_⟩
    intro other holder different held
    have foreign : other ≠ lock := by
      rintro rfl
      rw [free] at held
      cases held
    simpa [foreign] using held
  · split at admitted
    · split_ifs at admitted
      cases admitted
      exact ⟨⟨rfl, rfl, rfl, rfl⟩, fun _ _ _ held => held⟩
    · cases admitted
  · cases admitted
  · split at admitted
    · split at admitted
      · cases admitted
        exact ⟨⟨rfl, rfl, rfl, rfl⟩, fun _ _ _ held => held⟩
      · cases admitted
      · cases admitted
        rw [Memory.settleFuture]
        split <;> exact ⟨⟨rfl, rfl, rfl, rfl⟩, fun _ _ _ held => held⟩
    · cases admitted
  · cases admitted
    exact ⟨⟨rfl, rfl, rfl, rfl⟩, fun _ _ _ held => held⟩

end Longrun.Tui
