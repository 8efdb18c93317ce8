import Longrun.Tui.CachedRead

/-!
# Fresh scrollback

The relay forgets the cached turns of a thread before it hands over a notification about the thread.
In the runs without a notification that arrives while a page of its thread is under way, no read is
answered with turns from before the last notification. In the others this can happen.
-/

namespace Longrun.Tui

open Process (World Entering)

variable {Frame : Type} {proxy : CompatibilityProxy Frame} {printing : Nat → Option String}
  {memory after : Memory Frame} {task : Task} {request : Call Frame}

/-! ### The relay of a notification -/

/-- No page is under way of a thread that the frame is about. -/
structure Announcing (proxy : CompatibilityProxy Frame) (frame : Frame) (memory : Memory Frame) :
    Prop where
  ready : Ready proxy .upstream memory
  idle : ∀ thread, notifies proxy thread frame = true → fetching thread memory.trace = false

/-- Nor are turns of it cached. -/
structure Announced (proxy : CompatibilityProxy Frame) (frame : Frame) (memory : Memory Frame) :
    Prop where
  announcing : Announcing proxy frame memory
  forgotten : ∀ thread, notifies proxy thread frame = true → memory.tailCache.get? thread = none

variable {frame : Frame} {message : Json}

/-- A plain call that is answered at once. -/
theorem ensures_atOnce {reply : Except Exit request.Answer}
    {post : Except Exit request.Answer → Memory Frame → Prop} (ready : Ready proxy task memory)
    (performed : perform task memory request = .replies reply after) (plain : request.Plain)
    (holds : Ready proxy task after → post reply after) :
    (await request).Ensures (caches proxy printing task) post memory := by
  have decent : Decent proxy task memory (perform task memory request).memory :=
    performs_decent ready.started plain
  rw [performed] at decent
  exact Process.Conduct.ensures_of_replies performed decent (holds (ready.after_decent decent))

theorem takeInternal_announces (announcing : Announcing proxy frame memory) :
    (takeInternal message).Ensures (caches proxy printing .upstream) (fun result after =>
      Ready proxy .upstream after ∧ (result = .ok false → Announcing proxy frame after)) memory := by
  rw [takeInternal]
  split
  · apply Script.ensures_monadBind.mpr
    apply ensures_atOnce announcing.ready
    · exact rfl
    · trivial
    · intro ready
      cases looked : lookInternal memory (message.get "id") with
      | error exit => exact ⟨ready, fun impossible => by cases impossible⟩
      | ok call =>
          cases call with
          | some number =>
              apply Script.ensures_monadBind.mpr
              apply ensures_atOnce announcing.ready
              · exact rfl
              · trivial
              · exact fun ready => ⟨ready, fun impossible => by cases impossible⟩
          | none =>
              apply ensures_atOnce announcing.ready
              · exact rfl
              · trivial
              · exact fun ready => ⟨ready, fun _ => announcing⟩
  · exact ⟨announcing.ready, fun _ => announcing⟩

/-- The postcondition of what is noticed of the frame. -/
abbrev Announces (proxy : CompatibilityProxy Frame) (frame : Frame) :
    Except Exit Unit → Memory Frame → Prop :=
  fun result after => Ready proxy .upstream after ∧ (result = .ok () → Announced proxy frame after)

theorem forgetTail_announces {changed : Option String}
    (decoded : proxy.decodeObject frame = .ok (some message))
    (isChanged : changedThread message = .ok changed) (announcing : Announcing proxy frame memory) :
    (forgetTail changed).Ensures (caches proxy printing .upstream) (Announces proxy frame)
      memory := by
  have same (thread : String) (notification : notifies proxy thread frame = true) :
      changed = some thread := by
    simpa [notifies, decoded, isChanged] using notification
  cases changed with
  | none =>
      refine ⟨announcing.ready, fun _ => ⟨announcing, ?_⟩⟩
      intro thread notification
      cases same thread notification
  | some thread =>
      apply ensures_atOnce announcing.ready
      · exact rfl
      · trivial
      · refine fun ready => ⟨ready, fun _ => ⟨⟨ready, announcing.idle⟩, ?_⟩⟩
        intro other notification
        cases same other notification
        simp

theorem storeSummary_announces {result : Json} {expected : Option String}
    (announced : Announced proxy frame memory) :
    (storeSummary proxy result expected).Ensures (caches proxy printing .upstream) (Announces proxy frame)
      memory := by
  rw [storeSummary]
  split
  · exact ⟨announced.announcing.ready, fun _ => announced⟩
  · split
    · apply Script.ensures_monadBind.mpr
      apply Script.ensures_ofExcept.mpr
      rcases proxy.deepcopy_cases .relay result with ⟨-, copied⟩ | ⟨name, -, failed⟩
      · rw [copied]
        apply ensures_atOnce announced.announcing.ready
        · exact rfl
        · trivial
        · intro ready
          exact ⟨ready, fun _ => ⟨⟨ready, announced.announcing.idle⟩, announced.forgotten⟩⟩
      · rw [failed]
        exact ⟨announced.announcing.ready, fun impossible => by cases impossible⟩
    · exact ⟨announced.announcing.ready, fun _ => announced⟩

theorem keepSummary_announces (announced : Announced proxy frame memory) :
    (keepSummary proxy message).Ensures (caches proxy printing .upstream) (Announces proxy frame)
      memory := by
  rw [keepSummary]
  split
  · apply Script.ensures_monadBind.mpr
    rw [takePendingRead]
    split
    · apply ensures_atOnce announced.announcing.ready
      · exact rfl
      · trivial
      · intro ready
        apply storeSummary_announces
        exact ⟨⟨ready, announced.announcing.idle⟩, announced.forgotten⟩
    · exact storeSummary_announces announced
  · exact ⟨announced.announcing.ready, fun _ => announced⟩

theorem noticeMessage_announces {observed : Except Exit Unit}
    (decoded : proxy.decodeObject frame = .ok (some message))
    (announcing : Announcing proxy frame memory) :
    (noticeMessage proxy message observed).Ensures (caches proxy printing .upstream)
      (Announces proxy frame) memory := by
  have observes : (proxy.observe message observed).Ensures (caches proxy printing .upstream)
      (fun _ after => after = memory) memory := by
    rw [CompatibilityProxy.observe]
    split
    · exact Script.ensures_ofExcept.mpr rfl
    · rfl
  apply Script.ensures_monadBind.mpr
  apply observes.mono
  rintro result _ rfl
  cases result with
  | error exit => exact ⟨announcing.ready, fun impossible => by cases impossible⟩
  | ok value =>
      apply Script.ensures_monadBind.mpr
      rw [Script.ensures_ofExcept]
      cases isChanged : changedThread message with
      | error exit => exact ⟨announcing.ready, fun impossible => by cases impossible⟩
      | ok changed =>
          apply Script.ensures_monadBind.mpr
          apply (forgetTail_announces decoded isChanged announcing).mono
          intro result after announces
          cases result with
          | error exit => exact ⟨announces.1, fun impossible => by cases impossible⟩
          | ok value => exact keepSummary_announces (announces.2 rfl)

/-- The frame is handed over. -/
theorem forward_announces (announced : Announced proxy frame memory) :
    (await (.sendClient (.raw frame))).Ensures (caches proxy printing .upstream)
      (fun _ => Ready proxy .upstream) memory := by
  have ready := announced.announcing.ready
  have called : Decent proxy .upstream memory
      (memory.log (.called .upstream (.sendClient (.raw frame)))) := by
    apply Decent.of_log ⟨rfl, rfl, rfl, rfl⟩ (fun _ _ _ held => held)
    · exact {
        own := fun _ isTask => (Option.some.inj isTask).symm
        started := fun _ isRead => by cases isRead
        notification := fun thread notification =>
          ⟨announced.announcing.idle thread notification, announced.forgotten thread notification⟩
        fetch := fun _ impossible => by simp [Event.requests, Event.delivers] at impossible }
    · exact fun _ _ impossible => by cases impossible
  apply Process.Conduct.ensures_of_waits rfl called trivial
  intro later reply last relied answered
  have waited := (ready.after_decent called).later relied
  have answered : answer .upstream later (.sendClient (.raw frame)) reply = some last := answered
  have decent : Decent proxy .upstream later last := by
    apply answers_decent waited.started _ answered
    exact fun _ _ impossible => by cases impossible
  exact ⟨decent, waited.after_decent decent⟩

theorem upstreamToClient_announces {observed : Except Exit Unit}
    (announcing : Announcing proxy frame memory) :
    (upstreamToClient proxy frame observed).Ensures (caches proxy printing .upstream)
      (fun _ => Ready proxy .upstream) memory := by
  rw [upstreamToClient]
  apply Script.ensures_monadBind.mpr
  rw [Script.ensures_ofExcept]
  cases decoded : proxy.decodeObject frame with
  | error exit => exact announcing.ready
  | ok decodedMessage =>
      rw [Script.leads_ok]
      cases decodedMessage with
      | none =>
          apply forward_announces
          refine ⟨announcing, ?_⟩
          intro thread notification
          simp [notifies, decoded] at notification
      | some message =>
          apply Script.ensures_monadBind.mpr
          apply (takeInternal_announces announcing).mono
          intro taken after announces
          cases taken with
          | error exit => exact announces.1
          | ok hidden =>
              cases hidden with
              | true => exact announces.1
              | false =>
                  apply Script.ensures_monadBind.mpr
                  apply (noticeMessage_announces decoded (announces.2 rfl)).mono
                  intro result after announces
                  cases result with
                  | error exit => exact announces.1
                  | ok value => exact forward_announces (announces.2 rfl)

/-! ### Whole runs -/

/-- A notification about a thread arrives while no page of the thread is under way. -/
def Timely (proxy : CompatibilityProxy Frame) (memory : Memory Frame) : Entry Frame → Prop
  | .fromAppServer frame _ =>
      ∀ thread, notifies proxy thread frame = true → fetching thread memory.trace = false
  | _ => True

/-- The tasks that only make plain calls. -/
def Task.IsPlain : Task → Prop
  | .upstream => False
  | .read _ => False
  | _ => True

theorem plain_of_mayCall (isPlain : task.IsPlain) (mayCall : task.MayCall proxy request) :
    request.Plain := by
  cases task with
  | upstream => exact isPlain.elim
  | read _ => exact isPlain.elim
  | client =>
      cases request with
      | createTask read =>
          rcases mayCall with ⟨frame, classified⟩
          exact (of_classify_fullRead classified).2
      | _ => trivial
  | _ => cases request <;> trivial

theorem initial_fresh : Fresh proxy (Memory.initial printing : Memory Frame) where
  tails := by simp [Memory.initial]
  answers _ _ _ suffix := absurd suffix.length_le (by simp [Memory.initial])
  reads := by simp [Memory.initial]
  unstarted := by simp [Memory.initial]

theorem enter_decent {entry : Entry Frame} {script : Coroutine Frame Unit}
    (entered : enter proxy task memory entry = some (after, script)) :
    Decent proxy task memory after := by
  rw [enter.eq_def] at entered
  split at entered
  · cases entered
    exact Decent.of_same ⟨rfl, rfl, rfl, rfl⟩ rfl
  · cases entered
    apply Decent.of_log ⟨rfl, rfl, rfl, rfl⟩ (fun _ _ _ held => held)
    · exact proper_of_quiet rfl (fun _ => rfl) fun _ => ⟨rfl, rfl⟩
    · exact fun _ _ impossible => by cases impossible
  · rename_i number
    split_ifs at entered with isNext
    rcases Option.map_eq_some_iff.mp entered with ⟨read, -, isAfter⟩
    cases isAfter
    have grows : memory.startedReads ≤ number + 1 := by omega
    refine ⟨fun fresh => ?_, .inl rfl, fun _ _ _ held => held, grows⟩
    refine ⟨fresh.tails, fresh.answers, fresh.reads, ?_⟩
    exact fun other unstarted => fresh.unstarted other (grows.trans unstarted)
  · split_ifs at entered
    cases entered
    exact Decent.of_same ⟨rfl, rfl, rfl, rfl⟩ rfl
  · split_ifs at entered
    cases entered
    exact Decent.of_same ⟨rfl, rfl, rfl, rfl⟩ rfl
  · split_ifs at entered
    cases entered
    rw [Memory.settleFuture]
    split <;> exact Decent.of_same ⟨rfl, rfl, rfl, rfl⟩ rfl
  · cases entered

theorem entered_ready {entry : Entry Frame} {script : Coroutine Frame Unit}
    (timely : Timely proxy memory entry) (fresh : Fresh proxy memory)
    (entered : enter proxy task memory entry = some (after, script)) :
    script.Ensures (caches proxy printing task) (fun _ => Ready proxy task) after := by
  have decent := enter_decent entered
  cases task with
  | upstream =>
      cases entry with
      | fromAppServer frame observed =>
          cases entered
          apply upstreamToClient_announces
          refine ⟨⟨decent.fresh fresh, fun _ isRead => by cases isRead⟩, ?_⟩
          intro thread notification
          simp [Memory.log, fetching, Event.requests, timely thread notification]
      | _ => cases entered
  | read number =>
      cases entry with
      | startRead =>
          simp only [enter, Option.ite_none_right_eq_some, Option.map_eq_some_iff] at entered
          rcases entered with ⟨isNext, read, created, isAfter⟩
          cases isAfter
          apply guardedFullRead_serves
          · exact fresh.reads read (List.mem_of_getElem? created)
          · refine ⟨⟨decent.fresh fresh, ?_⟩, ?_⟩
            · rintro other ⟨⟩
              exact Nat.lt_succ_self number
            · intro event mem thread
              exact not_begins_of_foreign (fresh.unstarted number (le_of_eq isNext) event mem)
      | _ => cases entered
  | _ =>
      have uses := enter_uses (fun impossible => by cases impossible) entered
      have plain : script.Uses Call.Plain := by
        apply uses.mono
        intro request mayCall
        exact plain_of_mayCall (by trivial) mayCall
      apply ensures_of_plain plain
      exact ⟨decent.fresh fresh, fun _ isRead => by cases isRead⟩

/-- Every task treats the cache as it should. -/
theorem cacheConduct_keeps (proxy : CompatibilityProxy Frame) (printing : Nat → Option String) :
    (cacheConduct proxy printing).Keeps (fun _ => Timely proxy) (fun _ _ => Fresh proxy) where
  stable fresh relied := relied.fresh fresh
  rests _ := trivial
  initial _ := initial_fresh
  enter := by
    intro task memory entry after script timely fresh entered
    refine ⟨enter_decent entered, ?_⟩
    exact (entered_ready timely fresh entered).mono fun _ _ ready => ready.fresh

/-- As long as no notification of a change arrives while a page of its thread is under way, a read
that begins after a notification is answered with turns that were requested after it, or with none
where they cannot be shown or where the read has failed. -/
theorem scrollback_fresh {world : World (connection Frame) Exit Task (Memory Frame)}
    (reachable : (connectionProcess proxy printing).system.ReachableBy
      (Entering fun _ => Timely proxy) world) : ScrollbackFresh proxy world.memory.trace := by
  have fresh : Fresh proxy world.memory :=
    Process.Conduct.invariant (cacheConduct_keeps proxy printing) reachable initial_fresh
      fun _ _ _ decent => decent.fresh
  intro newer middle between older number thread frame message isTrace notification
  have begins : Event.begins number thread (.replied (.read number) (.acquire (.history thread))
      (.ok ()) : Event Frame) = true := by simp [Event.begins]
  have answer := fresh.answers number message _ ⟨newer, isTrace.symm⟩ thread
    ⟨_, List.mem_append_right _ List.mem_cons_self, begins⟩
  exact answer.mono (window_append_subset begins notification)

/-! ### A page that is overtaken -/

namespace Overtaken

/-- A request for the full history of a thread. -/
def fullRead : Json :=
  .obj [("id", .int 7), ("method", .str "thread/read"),
    ("params", .obj [("threadId", .str "t"), ("includeTurns", .bool true)])]

/-- A turn of the thread has started. -/
def notice : Json :=
  .obj [("method", .str "turn/started"), ("params", .obj [("threadId", .str "t")])]

/-- The summary of the thread, which has a Legacy history. -/
def summary : Json :=
  .obj [("thread", .obj [("id", .str "t"), ("historyMode", .str "legacy")])]

/-- The helper connection answers with the summary and a page of one turn. -/
def replies : ∀ request : Call Json, Except Exit request.Answer := fun request =>
  match request with
  | .getSummary _ => .ok none
  | .getTail _ => .ok none
  | .popPendingRead _ => .ok none
  | .register => .ok ""
  | .getInternal _ => .ok none
  | .isInternal _ => .ok false
  | .futureResult => .ok .null
  | .helperCall (.threadRead _) => .ok summary
  | .helperCall (.turnsList _ _) => .ok (.obj [("data", .arr [.str "first turn"])])
  | .expandUser path => .ok path
  | .stat _ => .ok none
  | .ownedThreads => .ok []
  | .setSummary _ _ => .ok ()
  | .setTail _ _ => .ok ()
  | .popTail _ => .ok ()
  | .setPendingRead _ _ => .ok ()
  | .createTask _ => .ok ()
  | .setResult _ _ => .ok ()
  | .waitFor => .ok ()
  | .popInternal _ => .ok ()
  | .acquire _ => .ok ()
  | .release _ => .ok ()
  | .sendUpstream _ => .ok ()
  | .sendClient _ => .ok ()
  | .newHelper => .ok ()
  | .closeHelper => .ok ()
  | .print _ => .ok ()
  | .userActivity _ => .ok ()
  | .userGoalControl _ _ => .ok ()
  | .operation => .ok ()

/-- A turn starts before the thread is read. -/
def timely : List (Process.Action (connection Json) Exit Task (Entry Json)) :=
  [.enter .upstream (.fromAppServer notice (.ok ())), .resume .upstream replies,
    .enter .client (.fromTui fullRead),
    .enter (.read 0) .startRead, .resume (.read 0) replies, .resume (.read 0) replies,
    .resume (.read 0) replies, .resume (.read 0) replies]

/-- Frames from the App Server arrive before anything else has happened. -/
def isFirst (world : World (connection Json) Exit Task (Memory Json)) :
    Process.Action (connection Json) Exit Task (Entry Json) → Bool
  | .enter _ (.fromAppServer _ _) => world.memory.trace.isEmpty
  | _ => true

theorem timely_of_isFirst {world : World (connection Json) Exit Task (Memory Json)}
    {action : Process.Action (connection Json) Exit Task (Entry Json)}
    (first : isFirst world action = true) :
    Entering (fun _ => Timely CompatibilityProxy.plain) world action := by
  cases action with
  | resume task replies => trivial
  | enter task entry =>
      cases entry with
      | fromAppServer frame observed =>
          intro thread _
          rw [List.isEmpty_iff.mp first]
          rfl
      | _ => trivial

/-- A page is requested, a turn starts, the page arrives, and the thread is read again. -/
def actions : List (Process.Action (connection Json) Exit Task (Entry Json)) :=
  [.enter .client (.fromTui fullRead),
    .enter (.read 0) .startRead, .resume (.read 0) replies, .resume (.read 0) replies,
    .resume (.read 0) replies,
    .enter .upstream (.fromAppServer notice (.ok ())), .resume .upstream replies,
    .resume (.read 0) replies, .resume (.read 0) replies, .resume (.read 0) replies,
    .enter .client (.fromTui fullRead),
    .enter (.read 1) .startRead, .resume (.read 1) replies]

/-- The answer of the second read. -/
def shown : Json := readResponse (.int 7) summary [.str "first turn"]

/-- The second read begins. -/
def begin : Event Json := .replied (.read 1) (.acquire (.history "t")) (.ok ())

/-- What happens between the notification and the second read. -/
def between : List (Event Json) :=
  [.called (.read 1) (.acquire (.history "t")),
    .replied (.read 0) .closeHelper (.ok ()), .called (.read 0) .closeHelper,
    .replied (.read 0) (.sendClient (.object shown)) (.ok ()),
    .called (.read 0) (.sendClient (.object shown)),
    .replied (.read 0) (.helperCall (.turnsList "t" 5)) (replies (.helperCall (.turnsList "t" 5))),
    .replied .upstream (.sendClient (.raw notice)) (.ok ())]

/-- A call has raised an exception. -/
def isFailure : Event Json → Bool
  | .replied _ _ (.error _) => true
  | _ => false

theorem not_fresh : ¬FreshAnswer CompatibilityProxy.plain 1 "t" (begin :: between) shown := by
  rintro (⟨id, summary, turns, fetched, isShown⟩ | ⟨id, summary, isShown, excused⟩ | ⟨id, refused⟩)
  · rcases fetched with ⟨task, limit, reply, requested, -⟩
    simp [begin, between] at requested
  · rcases excused with mode | ⟨request, exit, failed⟩
    · exact mode rfl
    · have failing : (begin :: between).any isFailure = true :=
        List.any_eq_true.mpr ⟨_, failed, rfl⟩
      cases failing
  · have results := congrArg (Json.get · "result") refused
    cases results

end Overtaken

/-- A read after a notification. -/
theorem scrollback_fresh_timely :
    ∃ world, (connectionProcess .plain fun _ => none).system.runBy Overtaken.isFirst
        (connectionProcess .plain fun _ => none).system.initial Overtaken.timely = some world ∧
      ScrollbackFresh CompatibilityProxy.plain world.memory.trace := by
  have ran : ∃ world, (connectionProcess .plain fun _ => none).system.runBy Overtaken.isFirst
      (connectionProcess .plain fun _ => none).system.initial Overtaken.timely = some world :=
    ⟨_, rfl⟩
  rcases ran with ⟨world, ran⟩
  have steps : (connectionProcess .plain fun _ => none).system.ReachableBy
      (Entering fun _ => Timely CompatibilityProxy.plain) world :=
    System.steps_of_runBy (fun _ _ first => Overtaken.timely_of_isFirst first) ran
  exact ⟨world, ran, scrollback_fresh steps⟩

/-- The page that the first read had asked for before the notification is cached after it, and the
second read, which the TUI sends later, is answered with it. -/
theorem scrollback_stale :
    ∃ world, (connectionProcess .plain fun _ => none).system.Reachable world ∧
      ¬ScrollbackFresh CompatibilityProxy.plain world.memory.trace := by
  have ran : ∃ world older, (connectionProcess .plain fun _ => none).system.run
      (connectionProcess .plain fun _ => none).system.initial Overtaken.actions = some world ∧
        world.memory.trace = .called (.read 1) (.sendClient (.object Overtaken.shown)) ::
          Overtaken.begin :: (Overtaken.between ++
            .called .upstream (.sendClient (.raw Overtaken.notice)) :: older) := ⟨_, _, rfl, rfl⟩
  rcases ran with ⟨world, older, ran, isTrace⟩
  refine ⟨world, System.steps_of_run ran, ?_⟩
  intro fresh
  apply Overtaken.not_fresh
  exact fresh [] [] Overtaken.between older 1 "t" Overtaken.notice Overtaken.shown isTrace rfl

end Longrun.Tui
