import Longrun.Tui.Scrollback

/-!
# Reads and cached scrollback

A full-history read caches the turns of a page that was requested after the last notification about
its thread, and answers with turns that were requested after the last notification before it began,
as long as no notification arrives while the page is under way.
-/

namespace Longrun.Tui

variable {Frame : Type} {proxy : CompatibilityProxy Frame} {printing : Nat → Option String}
  {memory after : Memory Frame} {trace : List (Event Frame)} {task : Task}
  {request : Call Frame} {thread : String} {number : Nat}

/-- The effects of the calls of a task. -/
abbrev caches (proxy : CompatibilityProxy Frame) (printing : Nat → Option String) (task : Task) :
    Script.Effects (connection Frame) Exit (Memory Frame) :=
  (cacheConduct proxy printing).effects task

/-! ### Plain calls -/

/-- Where a task can make plain calls. -/
structure Ready (proxy : CompatibilityProxy Frame) (task : Task) (memory : Memory Frame) : Prop where
  fresh : Fresh proxy memory
  started : task.Started memory

namespace Ready

theorem after_decent (ready : Ready proxy task memory) (decent : Decent proxy task memory after) :
    Ready proxy task after where
  fresh := decent.fresh ready.fresh
  started number isRead := (ready.started number isRead).trans_le decent.started

theorem later (ready : Ready proxy task memory) (relied : Undisturbed proxy task memory after) :
    Ready proxy task after where
  fresh := relied.fresh ready.fresh
  started number isRead := (ready.started number isRead).trans_le relied.started

end Ready

theorem Call.Plain.noFetch (plain : request.Plain) :
    ∀ thread limit, request = .helperCall (.turnsList thread limit) →
      memory.holder (.history thread) = some task := by
  rintro thread limit rfl
  exact plain.elim

theorem needs_of_plain (ready : Ready proxy task memory) (plain : request.Plain) :
    (caches proxy printing task).needs memory request := by
  have first := ready.after_decent (performs_decent ready.started plain)
  apply Process.Conduct.needs_of_guarantees
  · exact performs_decent ready.started plain
  · trivial
  · intro later reply last relied answered
    exact answers_decent (first.later relied).started plain.noFetch answered

theorem ready_of_plain {reply : Except Exit request.Answer} (ready : Ready proxy task memory)
    (plain : request.Plain) (does : (caches proxy printing task).does memory request reply after) :
    Ready proxy task after := by
  have first : Ready proxy task
      ((connectionProcess proxy printing).perform task memory request).memory :=
    ready.after_decent (performs_decent ready.started plain)
  apply (cacheConduct proxy printing).holds_of_does first
  · intro middle last ready relied
    exact Ready.later ready relied
  · intro middle last ready answered
    exact ready.after_decent (answers_decent ready.started plain.noFetch answered)
  · exact does

theorem ensures_of_plain {Value : Type} {script : Coroutine Frame Value}
    (uses : script.Uses Call.Plain) (ready : Ready proxy task memory) :
    script.Ensures (caches proxy printing task) (fun _ => Ready proxy task) memory := by
  apply uses.ensures
  · exact fun _ _ ready plain => needs_of_plain ready plain
  · exact fun _ _ _ _ ready plain does => ready_of_plain ready plain does
  · exact ready

/-! ### A read that holds the lock of its thread -/

/-- A read has begun and holds the lock of its thread. -/
structure Serving (proxy : CompatibilityProxy Frame) (number : Nat) (thread : String)
    (memory : Memory Frame) : Prop where
  fresh : Fresh proxy memory
  started : number < memory.startedReads
  holds : memory.holder (.history thread) = some (.read number)
  began : ∃ event ∈ memory.trace, event.begins number thread = true
  only : ∀ event ∈ memory.trace, ∀ other, event.begins number other = true → other = thread

/-- It has gone on. -/
structure Served (proxy : CompatibilityProxy Frame) (number : Nat) (thread : String)
    (before after : Memory Frame) : Prop where
  serving : Serving proxy number thread after
  window : window proxy number thread before.trace ⊆ window proxy number thread after.trace

theorem task_of_begins {event : Event Frame} (begins : event.begins number thread = true) :
    event.task? = some (.read number) := by
  rw [Event.begins.eq_def] at begins
  split at begins
  · simp only [decide_eq_true_eq] at begins
    rw [Event.task?, begins.1]
  · cases begins

theorem not_begins_of_foreign {event : Event Frame} (foreign : event.task? ≠ some (.read number)) :
    event.begins number thread = false := by
  rw [← Bool.not_eq_true]
  exact fun begins => foreign (task_of_begins begins)

theorem window_append {newer : List (Event Frame)}
    (others : ∀ event ∈ newer, event.begins number thread = false) :
    window proxy number thread (newer ++ trace) = newer ++ window proxy number thread trace := by
  induction newer with
  | nil => rfl
  | cons event newer ih =>
      rw [List.cons_append, window_cons (others event List.mem_cons_self), List.cons_append]
      congr 1
      exact ih fun other mem => others other (List.mem_cons_of_mem _ mem)

namespace Served

theorem refl (serving : Serving proxy number thread memory) :
    Served proxy number thread memory memory := ⟨serving, List.Subset.refl _⟩

theorem trans {middle : Memory Frame} (left : Served proxy number thread memory middle)
    (right : Served proxy number thread middle after) : Served proxy number thread memory after :=
  ⟨right.serving, List.Subset.trans left.window right.window⟩

end Served

namespace Serving

theorem ready (serving : Serving proxy number thread memory) : Ready proxy (.read number) memory where
  fresh := serving.fresh
  started other isRead := by
    cases isRead
    exact serving.started

/-- New events among which it does not begin again. -/
theorem extend {newer : List (Event Frame)} (serving : Serving proxy number thread memory)
    (fresh : Fresh proxy after) (started : memory.startedReads ≤ after.startedReads)
    (holds : after.holder (.history thread) = some (.read number))
    (logged : after.trace = newer ++ memory.trace)
    (others : ∀ event ∈ newer, ∀ thread, event.begins number thread = false) :
    Served proxy number thread memory after where
  serving := {
    fresh := fresh
    started := serving.started.trans_le started
    holds := holds
    began := by
      rcases serving.began with ⟨event, mem, begins⟩
      exact ⟨event, by rw [logged]; exact List.mem_append_right _ mem, begins⟩
    only := by
      intro event mem other begins
      rw [logged] at mem
      rcases List.mem_append.mp mem with mem | mem
      · rw [others event mem other] at begins
        cases begins
      · exact serving.only event mem other begins }
  window := by
    rw [logged, window_append fun event mem => others event mem thread]
    exact List.subset_append_right _ _

theorem later (serving : Serving proxy number thread memory)
    (relied : Undisturbed proxy (.read number) memory after) :
    Served proxy number thread memory after := by
  rcases relied.trace with ⟨newer, logged, foreign⟩
  apply serving.extend (relied.fresh serving.fresh) relied.started (relied.locks _ serving.holds) logged
  exact fun event mem _ => not_begins_of_foreign (foreign event mem)

/-- An event of its own. -/
theorem log {event : Event Frame} (serving : Serving proxy number thread memory)
    (decent : Decent proxy (.read number) memory after) (holder : after.holder = memory.holder)
    (logged : after.trace = event :: memory.trace)
    (other : ∀ thread, event.begins number thread = false) :
    Served proxy number thread memory after := by
  have logged : after.trace = [event] ++ memory.trace := logged
  apply serving.extend (decent.fresh serving.fresh) decent.started _ logged
  · intro only mem
    rw [List.mem_singleton.mp mem]
    exact other
  · rw [holder]
    exact serving.holds

/-- What was fetched after the last notification was fetched recently. -/
theorem fetched (serving : Serving proxy number thread memory) {turns : List Json}
    (fetched : Fetched thread turns (since proxy thread memory.trace)) :
    Fetched thread turns (window proxy number thread memory.trace) := by
  rcases serving.began with ⟨event, mem, begins⟩
  exact fetched.mono (since_subset_window begins mem)

end Serving

/-! ### Its calls -/

/-- A failure of the call is among the recent events. -/
def Reported (proxy : CompatibilityProxy Frame) (number : Nat) (thread : String)
    (request : Call Frame) (reply : Except Exit request.Answer) (memory : Memory Frame) : Prop :=
  ∀ exit, reply = .error exit →
    .replied (.read number) request (.error exit) ∈ window proxy number thread memory.trace

/-- The read can make the call and go on. -/
structure Passes (proxy : CompatibilityProxy Frame) (printing : Nat → Option String) (number : Nat)
    (thread : String) (request : Call Frame) (memory : Memory Frame) : Prop where
  needs : (caches proxy printing (.read number)).needs memory request
  served : ∀ {reply after}, (caches proxy printing (.read number)).does memory request reply after →
    Served proxy number thread memory after ∧ Reported proxy number thread request reply after

/-- The reply to a call, other than for a lock. -/
theorem Serving.replied {reply : Except Exit request.Answer}
    (serving : Serving proxy number thread memory)
    (decent : Decent proxy (.read number) memory after) (holder : after.holder = memory.holder)
    (logged : after.trace = .replied (.read number) request reply :: memory.trace)
    (noLock : ∀ lock, request ≠ .acquire lock) :
    Served proxy number thread memory after ∧ Reported proxy number thread request reply after := by
  have other (thread : String) : Event.begins number thread
      (.replied (.read number) request reply : Event Frame) = false := by
    cases request with
    | acquire lock => exact absurd rfl (noLock lock)
    | _ => rfl
  refine ⟨serving.log decent holder logged other, ?_⟩
  rintro exit rfl
  rw [logged, window_cons (other thread)]
  exact List.mem_cons_self

/-- The calls of a read that wait, other than for a lock. -/
def Call.Lasting : Call Frame → Prop
  | .sendUpstream _ => True
  | .sendClient _ => True
  | .newHelper => True
  | .helperCall _ => True
  | .closeHelper => True
  | .expandUser _ => True
  | .stat _ => True
  | _ => False

theorem Call.Lasting.perform (lasting : request.Lasting) :
    perform task memory request = .waits (memory.log (.called task request)) := by
  cases request <;> first | rfl | exact lasting.elim

theorem Call.Lasting.answer (lasting : request.Lasting) {reply : Except Exit request.Answer}
    (answered : answer task memory request reply = some after) :
    after = memory.log (.replied task request reply) := by
  cases request <;> first | exact lasting.elim | exact (Option.some.inj answered).symm

/-- The answer of another call than for a page. -/
theorem Serving.answered {reply : Except Exit request.Answer}
    (serving : Serving proxy number thread memory) (lasting : request.Lasting)
    (own : ∀ fetched limit, request = .helperCall (.turnsList fetched limit) → fetched = thread)
    (isAnswer : answer (.read number) memory request reply = some after) :
    Decent proxy (.read number) memory after ∧ Served proxy number thread memory after ∧
      Reported proxy number thread request reply after := by
  have decent : Decent proxy (.read number) memory after := by
    apply answers_decent serving.ready.started _ isAnswer
    intro fetched limit isFetch
    rw [own fetched limit isFetch]
    exact serving.holds
  rw [lasting.answer isAnswer] at decent ⊢
  refine ⟨decent, serving.replied decent rfl rfl ?_⟩
  rintro lock rfl
  exact lasting.elim

theorem Serving.called (serving : Serving proxy number thread memory)
    (decent : Decent proxy (.read number) memory (memory.log (.called (.read number) request))) :
    Served proxy number thread memory (memory.log (.called (.read number) request)) :=
  serving.log decent rfl rfl fun _ => rfl

/-- A call that waits, other than for a lock. -/
theorem passes_lasting (serving : Serving proxy number thread memory) (lasting : request.Lasting)
    (own : ∀ fetched limit, request = .helperCall (.turnsList fetched limit) → fetched = thread)
    (decent : Decent proxy (.read number) memory (memory.log (.called (.read number) request))) :
    Passes proxy printing number thread request memory := by
  have performed : (connectionProcess proxy printing).perform (.read number) memory request =
      .waits (memory.log (.called (.read number) request)) := lasting.perform
  have called := serving.called decent
  constructor
  · simp only [Process.Conduct.effects, performed]
    refine ⟨⟨decent, trivial⟩, ?_⟩
    intro later reply last relied answered
    exact ((called.serving.later relied).serving.answered lasting own answered).1
  · intro reply after does
    simp only [Process.Conduct.effects, performed] at does
    rcases does with ⟨later, relied, answered⟩
    have waited := called.trans (called.serving.later relied)
    have answered := waited.serving.answered lasting own answered
    exact ⟨waited.trans answered.2.1, answered.2.2⟩

/-- A plain call that waits. -/
theorem passes_plain (serving : Serving proxy number thread memory) (lasting : request.Lasting)
    (plain : request.Plain) : Passes proxy printing number thread request memory := by
  have decent : Decent proxy (.read number) memory (perform (.read number) memory request).memory :=
    performs_decent serving.ready.started plain
  rw [lasting.perform] at decent
  apply passes_lasting serving lasting _ decent
  rintro fetched limit rfl
  exact plain.elim

/-- A fresh answer. -/
theorem passes_answer {message : Json} (serving : Serving proxy number thread memory)
    (fresh : FreshAnswer proxy number thread (window proxy number thread memory.trace) message) :
    Passes proxy printing number thread (.sendClient (.object message)) memory := by
  apply passes_lasting serving
  · trivial
  · exact fun _ _ impossible => by cases impossible
  · apply Decent.of_log ⟨rfl, rfl, rfl, rfl⟩ (fun _ _ _ held => held)
    · exact {
        own := fun _ isTask => (Option.some.inj isTask).symm
        started := fun other isRead => serving.ready.started other (Option.some.inj isRead)
        notification := fun _ impossible => by cases impossible
        fetch := fun _ impossible => by simp [Event.requests, Event.delivers] at impossible }
    · rintro other sent ⟨⟩ shown ⟨event, mem, begins⟩
      rw [serving.only event mem shown begins]
      exact fresh

/-- A request for a page of its own thread. -/
theorem passes_fetch {limit : Nat} (serving : Serving proxy number thread memory) :
    Passes proxy printing number thread (.helperCall (.turnsList thread limit)) memory := by
  apply passes_lasting serving
  · trivial
  · rintro fetched _ ⟨⟩
    rfl
  · apply Decent.of_log ⟨rfl, rfl, rfl, rfl⟩ (fun _ _ _ held => held)
    · exact {
        own := fun _ isTask => (Option.some.inj isTask).symm
        started := fun other isRead => serving.ready.started other (Option.some.inj isRead)
        notification := fun _ impossible => by cases impossible
        fetch := by
          intro fetched isFetch
          have same : thread = fetched := by simpa [Event.requests, Event.delivers] using isFetch
          rw [← same]
          exact serving.holds }
    · exact fun _ _ impossible => by cases impossible

/-- The page was requested after the last notification. -/
theorem fetched_of_does {limit : Nat} {reply : Except Exit Json}
    (serving : Serving proxy number thread memory)
    (does : (caches proxy printing (.read number)).does memory
      (.helperCall (.turnsList thread limit)) reply after) :
    Fetched thread (turnsOf reply) (since proxy thread after.trace) := by
  have performed : (connectionProcess proxy printing).perform (.read number) memory
      (.helperCall (.turnsList thread limit)) =
        .waits (memory.log (.called (.read number) (.helperCall (.turnsList thread limit)))) := rfl
  simp only [Process.Conduct.effects, performed] at does
  rcases does with ⟨later, relied, answered⟩
  have relied : Undisturbed proxy (.read number)
      (memory.log (.called (.read number) (.helperCall (.turnsList thread limit)))) later := relied
  have answered : answer (.read number) later (.helperCall (.turnsList thread limit)) reply =
      some after := answered
  have underWay := relied.fetch thread serving.holds (by simp [Memory.log, fetching, Event.requests])
  have requested : .called (.read number) (.helperCall (.turnsList thread limit)) ∈
      since proxy thread later.trace := by
    apply underWay.2
    rw [Memory.log, since_cons rfl]
    exact List.mem_cons_self
  have logged : after.trace =
      .replied (.read number) (.helperCall (.turnsList thread limit)) reply :: later.trace := by
    cases answered
    rfl
  rw [logged, since_cons rfl]
  exact ⟨_, limit, reply, List.mem_cons_of_mem _ requested, List.mem_cons_self, rfl⟩

/-- A call that is answered at once. -/
theorem passes_replies {reply : Except Exit request.Answer}
    (performed : perform (.read number) memory request = .replies reply after)
    (decent : Decent proxy (.read number) memory after)
    (served : Served proxy number thread memory after)
    (reported : Reported proxy number thread request reply after) :
    Passes proxy printing number thread request memory := by
  have performed : (connectionProcess proxy printing).perform (.read number) memory request =
      .replies reply after := performed
  constructor
  · simp only [Process.Conduct.effects, performed]
    exact decent
  · intro given changed does
    simp only [Process.Conduct.effects, performed] at does
    rcases does with ⟨rfl, rfl⟩
    exact ⟨served, reported⟩

/-- A change that is no event. -/
theorem Serving.change (serving : Serving proxy number thread memory)
    (decent : Decent proxy (.read number) memory after) (holder : after.holder = memory.holder)
    (same : after.trace = memory.trace) : Served proxy number thread memory after := by
  have logged : after.trace = [] ++ memory.trace := same
  apply serving.extend (decent.fresh serving.fresh) decent.started _ logged
  · simp
  · rw [holder]
    exact serving.holds

theorem passes_setSummary {summary : Json} (serving : Serving proxy number thread memory) :
    Passes proxy printing number thread (.setSummary thread summary) memory := by
  have decent : Decent proxy (.read number) memory
      { memory with summaries := memory.summaries.set thread summary } :=
    Decent.of_same ⟨rfl, rfl, rfl, rfl⟩ rfl
  apply passes_replies rfl
  · exact decent
  · exact serving.change decent rfl rfl
  · exact fun _ impossible => by cases impossible

theorem passes_getTail (serving : Serving proxy number thread memory) :
    Passes proxy printing number thread (.getTail thread) memory := by
  apply passes_replies rfl
  · exact Decent.of_same ⟨rfl, rfl, rfl, rfl⟩ rfl
  · exact .refl serving
  · exact fun _ impossible => by cases impossible

/-- Turns that were requested after the last notification may be cached. -/
theorem passes_setTail {turns : List Json} (serving : Serving proxy number thread memory)
    (fetched : Fetched thread turns (since proxy thread memory.trace)) :
    Passes proxy printing number thread (.setTail thread turns) memory := by
  have decent : Decent proxy (.read number) memory
      { memory with tailCache := memory.tailCache.set thread turns } := by
    refine ⟨fun fresh => ?_, .inl rfl, fun _ _ _ held => held, le_refl _⟩
    refine ⟨?_, fresh.answers, fresh.reads, fresh.unstarted⟩
    intro other shown cached
    have cached : (memory.tailCache.set thread turns).get? other = some shown := cached
    rw [Dict.get?_set] at cached
    split_ifs at cached with same
    · cases cached
      rw [same]
      exact fetched
    · exact fresh.tails other shown cached
  apply passes_replies rfl
  · exact decent
  · exact serving.change decent rfl rfl
  · exact fun _ impossible => by cases impossible

theorem passes_print {line : String} (serving : Serving proxy number thread memory) :
    Passes proxy printing number thread (.print line) memory := by
  have decent : Decent proxy (.read number) memory
      (perform (.read number) memory (.print line)).memory :=
    performs_decent serving.ready.started trivial
  have replied := serving.replied decent rfl rfl fun _ impossible => by cases impossible
  exact passes_replies rfl decent replied.1 replied.2

/-! ### The blocks of a read -/

/-- Where a block of the read has raised, an answer without turns is excused or impossible: a call has
failed, or the turns or the summary cannot be copied, or there is no thread in the summary. -/
def Blameless (proxy : CompatibilityProxy Frame) (number : Nat) (thread : String)
    (locals : ReadLocals) (memory : Memory Frame) : Prop :=
  (∃ request exit, .replied (.read number) request (.error exit) ∈
    window proxy number thread memory.trace) ∨
  (∃ turns, Fetched thread turns (window proxy number thread memory.trace) ∧
    proxy.copyError .read (.arr turns) ≠ none) ∨
  ∀ summary, locals.summary = some summary → proxy.copyError .read summary = none →
    (threadFromResult summary).isSome = false

/-- The postcondition of a block of the read. -/
def Continues (proxy : CompatibilityProxy Frame) (number : Nat) (thread : String) {Value : Type}
    (good : Value → ReadLocals → Memory Frame → Prop) :
    Except Exit Value → ReadLocals → Memory Frame → Prop
  | .ok value, locals, memory => Serving proxy number thread memory ∧ good value locals memory
  | .error _, locals, memory =>
      Serving proxy number thread memory ∧ Blameless proxy number thread locals memory

variable {locals : ReadLocals}

theorem ensures_readCall {good : request.Answer → ReadLocals → Memory Frame → Prop}
    (passes : Passes proxy printing number thread request memory)
    (holds : ∀ value after, Serving proxy number thread after →
      (caches proxy printing (.read number)).does memory request (.ok value) after →
        good value locals after) :
    (ReadBlock.await request).Ensures (caches proxy printing (.read number))
      (Continues proxy number thread good) locals memory := by
  apply Block.ensures_call.mpr
  refine ⟨passes.needs, ?_⟩
  intro reply after does
  have served := passes.served does
  cases reply with
  | ok value => exact ⟨served.1.serving, holds value after served.1.serving does⟩
  | error exit => exact ⟨served.1.serving, .inl ⟨request, exit, served.2 exit rfl⟩⟩

theorem ensures_readThen {Value Next : Type} {block : ReadBlock Frame Value}
    {next : Value → ReadBlock Frame Next} {good : Value → ReadLocals → Memory Frame → Prop}
    {goal : Next → ReadLocals → Memory Frame → Prop}
    (ensures : block.Ensures (caches proxy printing (.read number))
      (Continues proxy number thread good) locals memory)
    (goesOn : ∀ value locals memory, Serving proxy number thread memory → good value locals memory →
      (next value).Ensures (caches proxy printing (.read number))
        (Continues proxy number thread goal) locals memory) :
    (block >>= next).Ensures (caches proxy printing (.read number))
      (Continues proxy number thread goal) locals memory := by
  apply Block.ensures_bind.mpr
  apply ensures.mono
  intro result locals after continues
  cases result with
  | ok value => exact goesOn value locals after continues.1 continues.2
  | error exit => exact continues

/-- Goes on after a call of which nothing is needed. -/
theorem ensures_callThen {Next : Type} {next : request.Answer → ReadBlock Frame Next}
    {goal : Next → ReadLocals → Memory Frame → Prop}
    (passes : Passes proxy printing number thread request memory)
    (goesOn : ∀ value memory, Serving proxy number thread memory →
      (next value).Ensures (caches proxy printing (.read number))
        (Continues proxy number thread goal) locals memory) :
    (ReadBlock.await request >>= next).Ensures (caches proxy printing (.read number))
      (Continues proxy number thread goal) locals memory := by
  have calls : (ReadBlock.await request).Ensures (caches proxy printing (.read number))
      (Continues proxy number thread fun _ after _ => after = locals) locals memory :=
    ensures_readCall passes fun _ _ _ _ => rfl
  apply ensures_readThen calls
  rintro value _ after serving rfl
  exact goesOn value after serving

/-- Goes on after a copy. -/
theorem ensures_copyServes {Next : Type} {value : Json} {next : Json → ReadBlock Frame Next}
    {goal : Next → ReadLocals → Memory Frame → Prop} (serving : Serving proxy number thread memory)
    (fails : proxy.copyError .read value ≠ none → Blameless proxy number thread locals memory)
    (goesOn : (next value).Ensures (caches proxy printing (.read number))
      (Continues proxy number thread goal) locals memory) :
    (Block.ofExcept (proxy.deepcopy .read value) >>= next).Ensures
      (caches proxy printing (.read number)) (Continues proxy number thread goal) locals memory := by
  apply Block.ensures_bind.mpr
  apply Block.ensures_ofExcept.mpr
  rcases proxy.deepcopy_cases .read value with ⟨-, copied⟩ | ⟨name, raises, failed⟩
  · rw [copied]
    exact goesOn
  · rw [failed]
    exact ⟨serving, fails (by simp [raises])⟩

/-- Goes on after a plain call that waits. -/
theorem ensures_plainThen {Next : Type} {next : request.Answer → ReadBlock Frame Next}
    {goal : Next → ReadLocals → Memory Frame → Prop}
    (serving : Serving proxy number thread memory) (plain : request.Lasting ∧ request.Plain)
    (goesOn : ∀ value memory, Serving proxy number thread memory →
      (next value).Ensures (caches proxy printing (.read number))
        (Continues proxy number thread goal) locals memory) :
    (ReadBlock.await request >>= next).Ensures (caches proxy printing (.read number))
      (Continues proxy number thread goal) locals memory :=
  ensures_callThen (passes_plain serving plain.1 plain.2) goesOn

theorem newHelper_serves (serving : Serving proxy number thread memory) :
    ReadBlock.newHelper.Ensures (caches proxy printing (.read number))
      (Continues proxy number thread fun _ after _ => after.summary = locals.summary)
      locals memory := by
  apply ensures_plainThen serving
  · exact ⟨trivial, trivial⟩
  · exact fun _ _ serving => ⟨serving, rfl⟩

theorem ensureHelper_serves (serving : Serving proxy number thread memory) :
    ReadBlock.ensureHelper.Ensures (caches proxy printing (.read number))
      (Continues proxy number thread fun _ after _ => after.summary = locals.summary)
      locals memory := by
  apply Block.ensures_bind.mpr
  rw [Block.ensures_locals, Block.leads_ok]
  split
  · exact ⟨serving, rfl⟩
  · exact newHelper_serves serving

theorem obtainSummary_serves (serving : Serving proxy number thread memory) :
    (ReadBlock.obtainSummary proxy thread).Ensures (caches proxy printing (.read number))
      (Continues proxy number thread fun summary after _ => after.summary = some summary)
      locals memory := by
  apply Block.ensures_bind.mpr
  rw [Block.ensures_locals, Block.leads_ok]
  split
  · rename_i summary isSummary
    exact ⟨serving, isSummary⟩
  · rename_i unknown
    apply ensures_readThen (newHelper_serves serving)
    intro _ locals memory serving same
    apply ensures_plainThen serving
    · exact ⟨trivial, trivial⟩
    · intro result memory serving
      have blameless : Blameless proxy number thread locals memory := by
        refine .inr (.inr fun summary isSummary => ?_)
        rw [same, unknown] at isSummary
        cases isSummary
      split
      · exact ⟨serving, blameless⟩
      · apply ensures_copyServes serving fun _ => blameless
        apply Block.ensures_bind.mpr
        apply ensures_callThen (passes_setSummary serving)
        exact fun _ _ serving => ⟨serving, rfl⟩

theorem rolloutSize_serves {found : Json} (serving : Serving proxy number thread memory) :
    (ReadBlock.rolloutSize found).Ensures (caches proxy printing (.read number))
      (Continues proxy number thread fun _ after _ => after.summary = locals.summary)
      locals memory := by
  rw [ReadBlock.rolloutSize]
  split
  · exact ⟨serving, rfl⟩
  · apply ensures_plainThen serving
    · exact ⟨trivial, trivial⟩
    · intro path memory serving
      split
      · apply ensures_plainThen serving
        · exact ⟨trivial, trivial⟩
        · exact fun _ _ serving => ⟨serving, rfl⟩
      · exact ⟨serving, rfl⟩

/-- The summary is the same, and turns were requested after the last notification. -/
def Holds (proxy : CompatibilityProxy Frame) (thread : String) (locals : ReadLocals)
    (turns : List Json) (after : ReadLocals) (memory : Memory Frame) : Prop :=
  after.summary = locals.summary ∧ Fetched thread turns (since proxy thread memory.trace)

/-- Where the page could not be used, there are no turns to show. -/
def Pages (proxy : CompatibilityProxy Frame) (number : Nat) (thread : String)
    (locals : ReadLocals) : Except Exit (List Json) → ReadLocals → Memory Frame → Prop
  | .ok turns, after, memory =>
      Serving proxy number thread memory ∧ Holds proxy thread locals turns after memory
  | .error exit, after, memory =>
      (Serving proxy number thread memory ∧ Holds proxy thread locals [] after memory) ∧
        (exit = .cancelled → Blameless proxy number thread after memory)

theorem fetchTurns_serves (serving : Serving proxy number thread memory) :
    (ReadBlock.fetchTurns proxy thread).Ensures (caches proxy printing (.read number))
      (Pages proxy number thread locals) locals memory := by
  have passes : Passes proxy printing number thread
      (.helperCall (.turnsList thread proxy.historyTailTurns)) memory := passes_fetch serving
  apply Block.ensures_bind.mpr
  apply Block.ensures_call.mpr
  refine ⟨passes.needs, ?_⟩
  intro reply after does
  have served := passes.served does
  have fetched := fetched_of_does serving does
  cases reply with
  | error exit =>
      exact ⟨⟨served.1.serving, rfl, fetched⟩, fun _ => .inl ⟨_, exit, served.2 exit rfl⟩⟩
  | ok page =>
      rw [Block.leads_ok]
      cases isPage : turnsOfPage page with
      | ok turns =>
          have shown : turnsOf (.ok page) = turns := by simp [turnsOf, Except.bind, isPage]
          rw [shown] at fetched
          exact ⟨served.1.serving, rfl, fetched⟩
      | error exit =>
          have shown : turnsOf (.ok page) = [] := by simp [turnsOf, Except.bind, isPage]
          rw [shown] at fetched
          refine ⟨⟨served.1.serving, rfl, fetched⟩, ?_⟩
          exact fun cancelled => absurd cancelled (ne_cancelled_of_turnsOfPage isPage)

/-- Printing is no notification. -/
theorem since_of_print {line : String} {reply : Except Exit Unit}
    (does : (caches proxy printing (.read number)).does memory (.print line) reply after) :
    since proxy thread memory.trace ⊆ since proxy thread after.trace := by
  have logged : after.trace = .replied (.read number) (.print line) (printed memory) ::
      memory.trace := congrArg Memory.trace does.2
  rw [logged, since_cons rfl]
  exact List.subset_cons_self _ _

/-- The turns that were fetched, or none where this has failed, were requested after the last
notification. -/
theorem fetchOrNone_serves (serving : Serving proxy number thread memory) :
    ((ReadBlock.fetchTurns proxy thread).handle (ReadBlock.withoutHistory thread)).Ensures
      (caches proxy printing (.read number))
      (Continues proxy number thread (Holds proxy thread locals)) locals memory := by
  apply Block.ensures_handle.mpr
  apply (fetchTurns_serves serving).mono
  intro result after memory pages
  cases result with
  | ok turns => exact pages
  | error exit =>
      cases exit with
      | cancelled => exact ⟨pages.1.1, pages.2 rfl⟩
      | exception name =>
          have prints {line : String} : (ReadBlock.await (.print line)).Ensures
              (caches proxy printing (.read number)) (Continues proxy number thread
                fun _ => Holds proxy thread locals []) after memory :=
            ensures_readCall (passes_print pages.1.1) fun _ _ _ does =>
              ⟨pages.1.2.1, pages.1.2.2.mono (since_of_print does)⟩
          apply ensures_readThen prints
          exact fun _ _ _ serving holds => ⟨serving, holds⟩

/-- The turns may be shown. -/
def Showable (proxy : CompatibilityProxy Frame) (number : Nat) (thread : String) (turns : List Json)
    (memory : Memory Frame) : Prop :=
  proxy.legacyHistoryMode ≠ .auto ∧ turns = [] ∨
    Fetched thread turns (window proxy number thread memory.trace)

theorem Showable.mono {turns : List Json} (showable : Showable proxy number thread turns memory)
    (served : Served proxy number thread memory after) :
    Showable proxy number thread turns after :=
  showable.imp_right fun fetched => fetched.mono served.window

theorem visibleTurns_serves (serving : Serving proxy number thread memory) :
    (ReadBlock.visibleTurns proxy thread).Ensures (caches proxy printing (.read number))
      (Continues proxy number thread fun turns after memory =>
        after.summary = locals.summary ∧ Showable proxy number thread turns memory)
      locals memory := by
  rw [ReadBlock.visibleTurns]
  split
  · rename_i mode
    exact ⟨serving, rfl, .inl ⟨mode, rfl⟩⟩
  · have looks : (ReadBlock.await (.getTail thread)).Ensures (caches proxy printing (.read number))
        (Continues proxy number thread fun cached after memory => after.summary = locals.summary ∧
          ∀ turns, cached = some turns →
            Fetched thread turns (window proxy number thread memory.trace)) locals memory := by
      apply ensures_readCall (passes_getTail serving)
      rintro _ _ serving ⟨⟨⟩, rfl⟩
      exact ⟨rfl, fun turns cached => serving.fetched (serving.fresh.tails thread turns cached)⟩
    apply ensures_readThen looks
    rintro cached after memory serving ⟨same, known⟩
    cases cached with
    | some turns =>
        have fetched := known turns rfl
        apply ensures_copyServes serving fun raises => .inr (.inl ⟨turns, fetched, raises⟩)
        exact ⟨serving, same, .inr fetched⟩
    | none =>
        apply ensures_readThen (ensureHelper_serves serving)
        intro _ helped memory serving alsoSame
        apply ensures_readThen (fetchOrNone_serves serving)
        rintro turns after memory serving ⟨stillSame, fetched⟩
        apply ensures_copyServes serving fun raises =>
          .inr (.inl ⟨turns, serving.fetched fetched, raises⟩)
        have stores : (ReadBlock.await (.setTail thread turns)).Ensures
            (caches proxy printing (.read number))
            (Continues proxy number thread fun _ => Holds proxy thread locals turns) after
            memory := by
          apply ensures_readCall (passes_setTail serving fetched)
          rintro _ _ _ ⟨⟨⟩, rfl⟩
          exact ⟨stillSame.trans (alsoSame.trans same), fetched⟩
        apply ensures_readThen stores
        intro _ _ _ serving holds
        exact ⟨serving, holds.1, .inr (serving.fetched holds.2)⟩

/-- The answer of a read. -/
theorem answer_serves {message : Json} (serving : Serving proxy number thread memory)
    (fresh : FreshAnswer proxy number thread (window proxy number thread memory.trace) message) :
    (ReadBlock.await (.sendClient (.object message))).Ensures (caches proxy printing (.read number))
      (Continues proxy number thread fun _ _ _ => True) locals memory :=
  ensures_readCall (passes_answer serving fresh) fun _ _ _ _ => trivial

theorem respond_serves {id : JsonId} {summary : Json} {turns : List Json}
    (serving : Serving proxy number thread memory) (isSummary : locals.summary = some summary)
    (showable : Showable proxy number thread turns memory) :
    (ReadBlock.respond proxy id thread summary turns).Ensures (caches proxy printing (.read number))
      (Continues proxy number thread fun _ _ _ => True) locals memory := by
  have blameless (raises : proxy.copyError .read summary ≠ none) :
      Blameless proxy number thread locals memory := by
    refine .inr (.inr fun other isOther copies => ?_)
    rcases Option.some.inj (isSummary.symm.trans isOther) with rfl
    exact absurd copies raises
  rw [ReadBlock.respond]
  apply ensures_copyServes serving blameless
  split
  · rename_i exceeds
    have prints {line : String} : (ReadBlock.await (.print line)).Ensures
        (caches proxy printing (.read number)) (Continues proxy number thread fun _ _ memory =>
          Showable proxy number thread turns memory) locals memory :=
      ensures_readCall (passes_print serving) fun _ _ _ does =>
        showable.mono ((passes_print serving).served does).1
    apply ensures_readThen prints
    intro _ locals memory serving showable
    apply answer_serves serving
    rcases showable with ⟨mode, rfl⟩ | fetched
    · exact .inr (.inl ⟨id, summary, rfl, .inl mode⟩)
    · exact .inl ⟨id, summary, turns, fetched, .inr ⟨.inl exceeds, rfl⟩⟩
  · apply answer_serves serving
    rcases showable with ⟨mode, rfl⟩ | fetched
    · exact .inr (.inl ⟨id, summary, rfl, .inl mode⟩)
    · exact .inl ⟨id, summary, turns, fetched, .inl rfl⟩

theorem forward_serves {frame : Frame} (serving : Serving proxy number thread memory) :
    (ReadBlock.await (.sendUpstream (.raw frame))).Ensures (caches proxy printing (.read number))
      (Continues proxy number thread fun _ _ _ => True) locals memory := by
  apply ensures_readCall
  · exact passes_plain serving trivial trivial
  · exact fun _ _ _ _ => trivial

theorem fullRead_serves {id : JsonId} {frame : Frame}
    (serving : Serving proxy number thread memory) :
    (ReadBlock.fullRead proxy id thread frame).Ensures (caches proxy printing (.read number))
      (Continues proxy number thread fun _ _ _ => True) locals memory := by
  apply ensures_readThen (obtainSummary_serves serving)
  intro summary locals memory serving isSummary
  split
  · rename_i noThread
    refine ⟨serving, .inr (.inr fun other isOther _ => ?_)⟩
    rcases Option.some.inj (isSummary.symm.trans isOther) with rfl
    simp [noThread]
  · split
    · exact forward_serves serving
    · apply ensures_readThen (rolloutSize_serves serving)
      intro size sized memory serving same
      split
      · exact forward_serves serving
      · apply ensures_readThen (visibleTurns_serves serving)
        rintro turns after memory serving ⟨alsoSame, showable⟩
        exact respond_serves serving (alsoSame.trans (same.trans isSummary)) showable

/-! ### The whole read -/

/-- A `finally` clause makes plain calls. -/
theorem ready_finish {Value : Type} {body : Coroutine Frame Value} {cleanup : Coroutine Frame Unit}
    (cleans : cleanup.Uses Call.Plain)
    (ensures : body.Ensures (caches proxy printing task) (fun _ => Ready proxy task) memory) :
    (body.finish cleanup).Ensures (caches proxy printing task) (fun _ => Ready proxy task)
      memory := by
  apply Script.ensures_finish.mpr
  apply ensures.mono
  intro result after ready
  apply (ensures_of_plain cleans ready).mono
  intro cleaned after ready
  cases cleaned with
  | ok value => exact Script.ensures_ofExcept.mpr ready
  | error exit => exact ready

/-- An answer of the handler. -/
theorem answers_serves {message : Json} {line : String}
    (serving : Serving proxy number thread memory)
    (fresh : FreshAnswer proxy number thread (window proxy number thread memory.trace) message) :
    (await (.sendClient (.object message)) >>= fun _ => await (.print line)).Ensures
      (caches proxy printing (.read number)) (fun _ => Ready proxy (.read number)) memory := by
  have passes : Passes proxy printing number thread (.sendClient (.object message)) memory :=
    passes_answer serving fresh
  apply Script.ensures_monadBind.mpr
  apply Script.ensures_perform.mpr
  refine ⟨passes.needs, ?_⟩
  intro reply after does
  have ready := (passes.served does).1.serving.ready
  cases reply with
  | error exit => exact ready
  | ok value => exact ensures_of_plain (await_uses trivial) ready

theorem recoverRead_serves {id : JsonId} {exit : Exit} (serving : Serving proxy number thread memory)
    (blameless : Blameless proxy number thread locals memory) :
    (recoverRead proxy id thread locals exit).Ensures (caches proxy printing (.read number))
      (fun _ => Ready proxy (.read number)) memory := by
  cases exit with
  | cancelled => exact serving.ready
  | exception name =>
      rw [recoverRead]
      split
      · rename_i summary isSummary
        apply Script.ensures_monadBind.mpr
        apply Script.ensures_ofExcept.mpr
        rcases proxy.deepcopy_cases .read summary with ⟨copies, copied⟩ | ⟨error, -, failed⟩
        · rw [copied, Script.leads_ok]
          split
          · rename_i hasThread
            apply answers_serves serving
            rcases blameless with failed | ⟨turns, fetched, raises⟩ | noThread
            · exact .inr (.inl ⟨id, summary, rfl, .inr failed⟩)
            · exact .inl ⟨id, summary, turns, fetched, .inr ⟨.inr raises, rfl⟩⟩
            · rw [noThread summary isSummary copies] at hasThread
              contradiction
          · exact answers_serves serving (.inr (.inr ⟨id, rfl⟩))
        · rw [failed]
          exact serving.ready
      · exact answers_serves serving (.inr (.inr ⟨id, rfl⟩))

theorem handleFullRead_serves {read : Read Frame} (intercepted : Intercepted read)
    (serving : Serving proxy number read.thread memory) :
    (handleFullRead proxy read).Ensures (caches proxy printing (.read number))
      (fun _ => Ready proxy (.read number)) memory := by
  rcases intercepted with ⟨id, isId, isThread⟩
  simp only [handleFullRead, isId, isThread]
  apply Script.ensures_monadBind.mpr
  apply Process.Conduct.ensures_of_replies rfl
  · exact Decent.of_same ⟨rfl, rfl, rfl, rfl⟩ rfl
  · rw [Script.leads_ok]
    apply Block.ensures_guarded
    apply (fullRead_serves serving).mono
    intro result locals after continues
    apply ready_finish
    · rw [closeHelper]
      split
      · exact await_uses trivial
      · trivial
    · cases result with
      | ok value => exact continues.1.ready
      | error exit => exact recoverRead_serves continues.1 continues.2

/-- A read has not begun yet. -/
structure Unbegun (proxy : CompatibilityProxy Frame) (number : Nat) (memory : Memory Frame) :
    Prop where
  ready : Ready proxy (.read number) memory
  others : ∀ event ∈ memory.trace, ∀ thread, event.begins number thread = false

theorem Unbegun.later (unbegun : Unbegun proxy number memory)
    (relied : Undisturbed proxy (.read number) memory after) : Unbegun proxy number after where
  ready := unbegun.ready.later relied
  others := by
    rcases relied.trace with ⟨newer, logged, foreign⟩
    rw [logged]
    intro event mem
    rcases List.mem_append.mp mem with mem | mem
    · exact fun _ => not_begins_of_foreign (foreign event mem)
    · exact unbegun.others event mem

/-- It begins with the lock of its thread. -/
theorem Unbegun.acquired {reply : Except Exit Unit} (unbegun : Unbegun proxy number memory)
    (answered : answer (.read number) memory (.acquire (.history thread)) reply = some after) :
    Decent proxy (.read number) memory after ∧
      (reply = .ok () → Serving proxy number thread after) := by
  have decent : Decent proxy (.read number) memory after :=
    answers_decent unbegun.ready.started (fun _ _ impossible => by cases impossible) answered
  refine ⟨decent, ?_⟩
  rintro rfl
  have ready := unbegun.ready.after_decent decent
  simp only [answer, grant, Option.map_eq_some_iff, Option.ite_none_right_eq_some] at answered
  rcases answered with ⟨middle, ⟨free, isMiddle⟩, isAfter⟩
  cases isMiddle
  have logged : after.trace =
      .replied (.read number) (.acquire (.history thread)) (.ok ()) :: memory.trace := by
    rw [← isAfter]
    rfl
  exact {
    fresh := ready.fresh
    started := ready.started number rfl
    holds := by
      rw [← isAfter]
      simp [Memory.log]
    began := by
      refine ⟨_, by rw [logged]; exact List.mem_cons_self, ?_⟩
      simp [Event.begins]
    only := by
      intro event mem other begins
      rw [logged] at mem
      rcases List.mem_cons.mp mem with rfl | mem
      · simpa [Event.begins, eq_comm] using begins
      · rw [unbegun.others event mem other] at begins
        cases begins }

theorem guardedFullRead_serves {read : Read Frame} (intercepted : Intercepted read)
    (unbegun : Unbegun proxy number memory) :
    (guardedFullRead proxy read).Ensures (caches proxy printing (.read number))
      (fun _ => Ready proxy (.read number)) memory := by
  have called : Decent proxy (.read number) memory
      (perform (.read number) memory (.acquire (.history read.thread))).memory :=
    performs_decent unbegun.ready.started trivial
  have waiting : Unbegun proxy number
      (memory.log (.called (.read number) (.acquire (.history read.thread)))) := by
    refine ⟨unbegun.ready.after_decent called, ?_⟩
    intro event mem thread
    rcases List.mem_cons.mp mem with rfl | mem
    · rfl
    · exact unbegun.others event mem thread
  apply Script.ensures_monadBind.mpr
  apply Process.Conduct.ensures_of_waits rfl called trivial
  intro later reply last relied answered
  have acquired := (waiting.later relied).acquired answered
  refine ⟨acquired.1, ?_⟩
  cases reply with
  | error exit => exact (waiting.later relied).ready.after_decent acquired.1
  | ok value =>
      apply ready_finish (await_uses trivial)
      exact handleFullRead_serves intercepted (acquired.2 rfl)

end Longrun.Tui
