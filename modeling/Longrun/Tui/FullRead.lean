import Longrun.Tui.Connection

/-!
# Answers to full-history reads

A full-history read that the proxy intercepts is forwarded or answered, once, whatever the helper
connection does, if the summary of a protected thread can be copied. It is forwarded only if its
thread has no Legacy history or a small one, and an answer with turns fits into a message. Where the
summary of a protected thread cannot be copied, the handler fails as the block before it did, and
the read gets no answer.
-/

namespace Longrun.Tui

open Script (Exchange Oracle)

variable {Frame : Type} {proxy : CompatibilityProxy Frame} {id : JsonId} {thread : String}
  {frame : Frame}

/-- A message that a read has sent. -/
inductive Sent (Frame : Type) where
  | upstream (message : Outgoing Frame)
  | client (message : Outgoing Frame)

/-- What is seen of a read from outside: the messages that it sends, the summary that it has found or
obtained, and the size of the rollout file, if it has found out. -/
structure Seen (Frame : Type) where
  sent : List (Sent Frame)
  summary : Option Json
  size : Option Nat

namespace Seen

def nothing : Seen Frame := ⟨[], none, none⟩

def add (seen : Seen Frame) : Exchange (connection Frame) Exit → Seen Frame
  | ⟨.sendUpstream message, _⟩ => { seen with sent := seen.sent ++ [.upstream message] }
  | ⟨.sendClient message, _⟩ => { seen with sent := seen.sent ++ [.client message] }
  | ⟨.getSummary _, .ok summary⟩ => { seen with summary := summary }
  | ⟨.setSummary _ summary, _⟩ => { seen with summary := some summary }
  | ⟨.stat _, .ok info⟩ => { seen with size := (info.filter (·.regular)).map (·.size) }
  | _ => seen

/-- What is seen of a run. -/
def of (history : List (Exchange (connection Frame) Exit)) : Seen Frame :=
  history.foldl add nothing

end Seen

/-- The variables of the connection and its locks can be used, the sends succeed, and every other
call returns anything or raises any exception. -/
def Admitted : ∀ request : Call Frame, Except Exit request.Answer → Prop
  | .getSummary _, reply => reply.isOk
  | .setSummary _ _, reply => reply.isOk
  | .getTail _, reply => reply.isOk
  | .setTail _ _, reply => reply.isOk
  | .acquire _, reply => reply.isOk
  | .release _, reply => reply.isOk
  | .sendUpstream _, reply => reply.isOk
  | .sendClient _, reply => reply.isOk
  | _, reply => reply ≠ .error .cancelled

/-- The turns of a response. -/
def shownTurns (response : Json) : Json := ((response.get "result").get "thread").get "turns"

/-- The read has been forwarded, once. -/
def Forwarded (proxy : CompatibilityProxy Frame) (frame : Frame) (seen : Seen Frame) : Prop :=
  seen.sent = [.upstream (.raw frame)] ∧
    ∃ summary, seen.summary = some summary ∧
      (proxy.isLegacy summary = true → proxy.shouldProtect seen.size = false)

/-- The read has been answered, once. -/
def Answered (proxy : CompatibilityProxy Frame) (id : JsonId) (seen : Seen Frame) : Prop :=
  ∃ response, seen.sent = [.client (.object response)] ∧ response.get "id" = id.toJson ∧
    ∀ turns, shownTurns response = .arr turns → turns ≠ [] →
      (proxy.dumpsLength response : Int) ≤ proxy.helperMaxMessageBytes

/-- The read is over. -/
def Settled (proxy : CompatibilityProxy Frame) (id : JsonId) (frame : Frame) (seen : Seen Frame) :
    Prop :=
  Forwarded proxy frame seen ∨ Answered proxy id seen

/-- The summary of the read can be copied, unless the read is forwarded. -/
def Copies (proxy : CompatibilityProxy Frame) (seen : Seen Frame) : Prop :=
  ∀ summary, seen.summary = some summary → proxy.copyError .read summary = none ∨
    (threadFromResult summary).isSome = true ∧
      (proxy.isLegacy summary = true → proxy.shouldProtect seen.size = false)

/-- The read is settled, or its summary could not be copied and nothing has been sent. -/
def Outcome (proxy : CompatibilityProxy Frame) (id : JsonId) (frame : Frame) (seen : Seen Frame) :
    Prop :=
  Copies proxy seen ∧ Settled proxy id frame seen ∨ ¬Copies proxy seen ∧ seen.sent = []

theorem not_settled_of_unsent {seen : Seen Frame} (unsent : seen.sent = []) :
    ¬Settled proxy id frame seen := by
  rintro (⟨sent, -⟩ | ⟨_, sent, -⟩) <;> simp [unsent] at sent

theorem Outcome.settled_iff {seen : Seen Frame} (outcome : Outcome proxy id frame seen) :
    Settled proxy id frame seen ↔ Copies proxy seen := by
  rcases outcome with ⟨copies, settled⟩ | ⟨copiesNot, unsent⟩
  · exact iff_of_true settled copies
  · exact iff_of_false (not_settled_of_unsent unsent) copiesNot

/-! ### The steps of a read -/

/-- The effects of the calls of a read. -/
abbrev reads : Script.Effects (connection Frame) Exit (Seen Frame) :=
  Script.observing Admitted Seen.add

theorem ensures_await {request : Call Frame} {post : Except Exit request.Answer → Seen Frame → Prop}
    {seen : Seen Frame} :
    (await request).Ensures reads post seen ↔
      ∀ reply, Admitted request reply → post reply (seen.add ⟨request, reply⟩) := by
  rw [await, Script.ensures_perform]
  simp [reads, Script.observing]

theorem ensures_readAwait {request : Call Frame}
    {post : Except Exit request.Answer → ReadLocals → Seen Frame → Prop} {locals : ReadLocals}
    {seen : Seen Frame} :
    (ReadBlock.await request).Ensures reads post locals seen ↔
      ∀ reply, Admitted request reply → post reply locals (seen.add ⟨request, reply⟩) := by
  rw [ReadBlock.await, Block.ensures_call]
  simp [reads, Script.observing]

/-- Nothing has been sent, and a summary that has been found is one that must not be forwarded. -/
structure Undecided (proxy : CompatibilityProxy Frame) (locals : ReadLocals) (seen : Seen Frame) :
    Prop where
  unsent : seen.sent = []
  known : locals.summary = seen.summary
  needed : ∀ summary, seen.summary = some summary → (threadFromResult summary).isSome = true →
    proxy.isLegacy summary = true ∧ proxy.shouldProtect seen.size = true

/-- Without a summary nothing is decided. -/
theorem Undecided.of_none {locals : ReadLocals} {seen : Seen Frame} (unsent : seen.sent = [])
    (known : locals.summary = seen.summary) (none : seen.summary = none) :
    Undecided proxy locals seen :=
  ⟨unsent, known, fun _ isSummary => by cases none.symm.trans isSummary⟩

theorem Undecided.congr {locals after : ReadLocals} {seen : Seen Frame}
    (undecided : Undecided proxy locals seen) (same : after.summary = locals.summary) :
    Undecided proxy after seen :=
  { undecided with known := same.trans undecided.known }

/-- A block that has raised an exception leaves the read to its handler. -/
def Unsettled (proxy : CompatibilityProxy Frame) (exit : Exit) (locals : ReadLocals)
    (seen : Seen Frame) : Prop :=
  exit ≠ .cancelled ∧ Undecided proxy locals seen

/-- The postcondition of a block that sends nothing. -/
def Quiet (proxy : CompatibilityProxy Frame) {Value : Type}
    (good : Value → ReadLocals → Seen Frame → Prop) :
    Except Exit Value → ReadLocals → Seen Frame → Prop
  | .ok value, locals, seen => good value locals seen
  | .error exit, locals, seen => Unsettled proxy exit locals seen

/-- The postcondition of a block that ends the read. -/
def Concludes (proxy : CompatibilityProxy Frame) (id : JsonId) (frame : Frame) :
    Except Exit Unit → ReadLocals → Seen Frame → Prop
  | .ok (), _, seen => Copies proxy seen ∧ Settled proxy id frame seen
  | .error exit, locals, seen => Unsettled proxy exit locals seen

/-- A postcondition that leaves exceptions to the handler of the read. -/
def Handled (proxy : CompatibilityProxy Frame) {Value : Type}
    (post : Except Exit Value → ReadLocals → Seen Frame → Prop) : Prop :=
  ∀ exit locals seen, Unsettled proxy exit locals seen → post (.error exit) locals seen

theorem handled_quiet {Value : Type} (good : Value → ReadLocals → Seen Frame → Prop) :
    Handled proxy (Quiet proxy good) := fun _ _ _ unsettled => unsettled

theorem handled_concludes : Handled proxy (Concludes proxy id frame) :=
  fun _ _ _ unsettled => unsettled

theorem ne_cancelled_of_admitted {request : Call Frame} {exit : Exit}
    (admitted : Admitted request (.error exit)) : exit ≠ .cancelled := by
  rintro rfl
  cases request <;> simp [Admitted, Except.isOk, Except.toBool] at admitted

/-- Goes on after a block that sends nothing. -/
theorem ensures_andThen {Value Next : Type} {block : ReadBlock Frame Value}
    {next : Value → ReadBlock Frame Next} {good : Value → ReadLocals → Seen Frame → Prop}
    {post : Except Exit Next → ReadLocals → Seen Frame → Prop} {locals : ReadLocals}
    {seen : Seen Frame} (handled : Handled proxy post)
    (ensures : block.Ensures reads (Quiet proxy good) locals seen)
    (goesOn : ∀ value locals seen, good value locals seen →
      (next value).Ensures reads post locals seen) :
    (block >>= next).Ensures reads post locals seen := by
  apply Block.ensures_bind.mpr
  apply ensures.mono
  intro result locals seen holds
  cases result with
  | ok value => exact goesOn value locals seen holds
  | error exit => exact handled _ _ _ holds

/-- Goes on after a call; where it fails, nothing is seen of it. -/
theorem ensures_awaitThen {Next : Type} {request : Call Frame}
    {next : request.Answer → ReadBlock Frame Next}
    {post : Except Exit Next → ReadLocals → Seen Frame → Prop} {locals : ReadLocals}
    {seen : Seen Frame} (handled : Handled proxy post) (undecided : Undecided proxy locals seen)
    (unseen : ∀ exit, Admitted request (.error exit) → seen.add ⟨request, .error exit⟩ = seen)
    (goesOn : ∀ value, (next value).Ensures reads post locals (seen.add ⟨request, .ok value⟩)) :
    (ReadBlock.await request >>= next).Ensures reads post locals seen := by
  apply Block.ensures_bind.mpr
  apply ensures_readAwait.mpr
  intro reply admitted
  cases reply with
  | ok value => exact goesOn value
  | error exit =>
      rw [unseen exit admitted]
      exact handled _ _ _ ⟨ne_cancelled_of_admitted admitted, undecided⟩

/-- Goes on after a copy. -/
theorem ensures_copyThen {Next : Type} {place : CopyPlace} {value : Json}
    {next : Json → ReadBlock Frame Next}
    {post : Except Exit Next → ReadLocals → Seen Frame → Prop} {locals : ReadLocals}
    {seen : Seen Frame} (handled : Handled proxy post) (undecided : Undecided proxy locals seen)
    (goesOn : proxy.copyError place value = none → (next value).Ensures reads post locals seen) :
    (Block.ofExcept (proxy.deepcopy place value) >>= next).Ensures reads post locals seen := by
  apply Block.ensures_bind.mpr
  apply Block.ensures_ofExcept.mpr
  rcases proxy.deepcopy_cases place value with ⟨copies, copied⟩ | ⟨name, -, failed⟩
  · rw [copied]
    exact goesOn copies
  · rw [failed]
    exact handled _ _ _ ⟨Exit.noConfusion, undecided⟩

theorem isDict_of_threadFromResult {summary found : Json}
    (isThread : threadFromResult summary = some found) :
    summary.isDict = true ∧ (summary.get "thread").isDict = true ∧ summary.get "thread" = found := by
  rw [threadFromResult] at isThread
  split at isThread
  · rename_i both
    exact ⟨both.1, both.2, Option.some.inj isThread⟩
  · contradiction

theorem shownTurns_readResponse {summary found : Json} (turns : List Json)
    (isThread : threadFromResult summary = some found) :
    shownTurns (readResponse id summary turns) = .arr turns := by
  rcases isDict_of_threadFromResult isThread with ⟨isDict, threadIsDict, -⟩
  have result : (readResponse id summary turns).get "result" = withTurns summary turns := rfl
  rw [shownTurns, result, withTurns, Json.get_set_self isDict, Json.get_set_self threadIsDict]

/-- A response without turns answers a read. -/
theorem answered_without {seen : Seen Frame} {response : Json}
    (sent : seen.sent = [.client (.object response)]) (isId : response.get "id" = id.toJson)
    (empty : ∀ turns, shownTurns response = .arr turns → turns = []) : Answered proxy id seen :=
  ⟨response, sent, isId, fun turns shown nonempty => absurd (empty turns shown) nonempty⟩

theorem respond_ensures {summary found : Json} {turns : List Json} {locals : ReadLocals}
    {seen : Seen Frame} (isThread : threadFromResult summary = some found)
    (isSummary : seen.summary = some summary) (undecided : Undecided proxy locals seen) :
    (ReadBlock.respond proxy id thread summary turns).Ensures reads (Concludes proxy id frame)
      locals seen := by
  rw [ReadBlock.respond]
  apply ensures_copyThen handled_concludes undecided
  intro copies
  have responds (shown : List Json)
      (fits : shown ≠ [] → (proxy.dumpsLength (readResponse id summary shown) : Int) ≤
        proxy.helperMaxMessageBytes) :
      (ReadBlock.await (.sendClient (.object (readResponse id summary shown)))).Ensures reads
        (Concludes proxy id frame) locals seen := by
    apply ensures_readAwait.mpr
    intro reply admitted
    cases reply with
    | error exit => cases admitted
    | ok value =>
        constructor
        · intro other isOther
          rcases Option.some.inj (isSummary.symm.trans isOther) with rfl
          exact .inl copies
        · right
          refine ⟨readResponse id summary shown, by simp [Seen.add, undecided.unsent], rfl, ?_⟩
          intro turns isShown nonempty
          rw [shownTurns_readResponse shown isThread, Json.arr.injEq] at isShown
          subst isShown
          exact fits nonempty
  split
  · apply ensures_awaitThen handled_concludes undecided
    · exact fun _ _ => rfl
    · exact fun _ => responds [] (absurd rfl)
  · rename_i fits
    apply responds
    intro _
    simpa [CompatibilityProxy.exceeds] using fits

/-- The postcondition of a block of which nothing is seen and that leaves the summary alone. -/
abbrev Unseen (proxy : CompatibilityProxy Frame) (locals : ReadLocals) (seen : Seen Frame)
    {Value : Type} : Except Exit Value → ReadLocals → Seen Frame → Prop :=
  Quiet proxy fun _ after now => after.summary = locals.summary ∧ now = seen

theorem newHelper_ensures {locals : ReadLocals} {seen : Seen Frame}
    (undecided : Undecided proxy locals seen) :
    ReadBlock.newHelper.Ensures reads (Unseen proxy locals seen) locals seen := by
  apply ensures_awaitThen (handled_quiet _) undecided
  · exact fun _ _ => rfl
  · exact fun _ => ⟨rfl, rfl⟩

theorem ensureHelper_ensures {locals : ReadLocals} {seen : Seen Frame}
    (undecided : Undecided proxy locals seen) :
    ReadBlock.ensureHelper.Ensures reads (Unseen proxy locals seen) locals seen := by
  apply Block.ensures_bind.mpr
  rw [Block.ensures_locals, Block.leads_ok]
  split
  · exact ⟨rfl, rfl⟩
  · exact newHelper_ensures undecided

theorem ne_cancelled_of_turnsOfPage {page : Json} {exit : Exit}
    (failed : turnsOfPage page = .error exit) : exit ≠ .cancelled := by
  rintro rfl
  rw [turnsOfPage] at failed
  split at failed <;> cases failed

/-- The turns that were fetched, or none where this has failed. -/
theorem fetchOrNone_ensures {locals : ReadLocals} {seen : Seen Frame}
    (undecided : Undecided proxy locals seen) :
    ((ReadBlock.fetchTurns proxy thread).handle (ReadBlock.withoutHistory thread)).Ensures reads
      (Unseen proxy locals seen) locals seen := by
  have unchanged : (ReadBlock.fetchTurns proxy thread).Ensures reads (fun result after now =>
      (after = locals ∧ now = seen) ∧ result ≠ .error .cancelled) locals seen := by
    apply Block.ensures_bind.mpr
    apply ensures_readAwait.mpr
    intro reply admitted
    cases reply with
    | error exit =>
        exact ⟨⟨rfl, rfl⟩, fun same => ne_cancelled_of_admitted admitted (Except.error.inj same)⟩
    | ok page =>
        rw [Block.leads_ok]
        cases isPage : turnsOfPage page with
        | ok turns => exact ⟨⟨rfl, rfl⟩, fun same => by cases same⟩
        | error exit =>
            exact ⟨⟨rfl, rfl⟩,
              fun same => ne_cancelled_of_turnsOfPage isPage (Except.error.inj same)⟩
  apply Block.ensures_handle.mpr
  apply unchanged.mono
  rintro result _ _ ⟨⟨rfl, rfl⟩, notCancelled⟩
  cases result with
  | ok turns => exact ⟨rfl, rfl⟩
  | error exit =>
      cases exit with
      | cancelled => exact absurd rfl notCancelled
      | exception name =>
          apply ensures_awaitThen (handled_quiet _) undecided
          · exact fun _ _ => rfl
          · exact fun _ => ⟨rfl, rfl⟩

theorem visibleTurns_ensures {locals : ReadLocals} {seen : Seen Frame}
    (undecided : Undecided proxy locals seen) :
    (ReadBlock.visibleTurns proxy thread).Ensures reads (Unseen proxy locals seen) locals seen := by
  rw [ReadBlock.visibleTurns]
  split
  · exact ⟨rfl, rfl⟩
  · apply ensures_awaitThen (handled_quiet _) undecided
    · exact fun _ _ => rfl
    · intro cached
      cases cached with
      | some turns =>
          apply ensures_copyThen (handled_quiet _) undecided
          exact fun _ => ⟨rfl, rfl⟩
      | none =>
          apply ensures_andThen (handled_quiet _) (ensureHelper_ensures undecided)
          rintro _ helped _ ⟨sameSummary, rfl⟩
          have undecided := undecided.congr sameSummary
          apply ensures_andThen (handled_quiet _) (fetchOrNone_ensures undecided)
          rintro turns fetched _ ⟨alsoSame, rfl⟩
          have undecided := undecided.congr alsoSame
          apply ensures_copyThen (handled_quiet _) undecided
          intro _
          apply ensures_awaitThen (handled_quiet _) undecided
          · exact fun _ _ => rfl
          · exact fun _ => ⟨alsoSame.trans sameSummary, rfl⟩

/-- The size that a read takes for the one of its thread is the one that it is seen to find. -/
theorem rolloutSize_ensures {found : Json} {locals : ReadLocals} {seen : Seen Frame}
    (undecided : Undecided proxy locals seen) (unknown : seen.size = none) :
    (ReadBlock.rolloutSize found).Ensures reads
      (Quiet proxy fun size after now => after = locals ∧ now = { seen with size := size })
      locals seen := by
  have same : { seen with size := none } = seen := by
    rw [← unknown]
  rw [ReadBlock.rolloutSize]
  split
  · exact ⟨rfl, same.symm⟩
  · apply ensures_awaitThen (handled_quiet _) undecided
    · exact fun _ _ => rfl
    · intro path
      split
      · apply ensures_awaitThen (handled_quiet _) undecided
        · exact fun _ _ => rfl
        · exact fun _ => ⟨rfl, rfl⟩
      · exact ⟨rfl, same.symm⟩

theorem obtainSummary_ensures {locals : ReadLocals} {seen : Seen Frame} (unsent : seen.sent = [])
    (unknown : seen.size = none) (known : locals.summary = seen.summary) :
    (ReadBlock.obtainSummary proxy thread).Ensures reads
      (Quiet proxy fun summary after now => now.sent = [] ∧ now.summary = some summary ∧
        after.summary = some summary ∧ now.size = none) locals seen := by
  apply Block.ensures_bind.mpr
  rw [Block.ensures_locals, Block.leads_ok]
  split
  · rename_i summary isSummary
    exact ⟨unsent, known.symm.trans isSummary, isSummary, unknown⟩
  · rename_i isNone
    have undecided : Undecided proxy locals seen := .of_none unsent known (known.symm.trans isNone)
    apply ensures_andThen (handled_quiet _) (newHelper_ensures undecided)
    rintro _ helped _ ⟨sameSummary, rfl⟩
    have undecided := undecided.congr sameSummary
    apply ensures_awaitThen (handled_quiet _) undecided
    · exact fun _ _ => rfl
    · intro result
      split
      · exact ⟨Exit.noConfusion, undecided⟩
      · apply ensures_copyThen (handled_quiet _) undecided
        intro _
        apply Block.ensures_bind.mpr
        apply Block.ensures_bind.mpr
        apply ensures_readAwait.mpr
        intro reply admitted
        cases reply with
        | error exit => cases admitted
        | ok value => exact ⟨unsent, rfl, rfl, unknown⟩

/-- Forwarding a read that need not be protected. -/
theorem forward_ensures {summary : Json} {locals : ReadLocals} {seen : Seen Frame}
    (unsent : seen.sent = []) (isSummary : seen.summary = some summary)
    (isThread : (threadFromResult summary).isSome = true)
    (harmless : proxy.isLegacy summary = true → proxy.shouldProtect seen.size = false) :
    (ReadBlock.await (.sendUpstream (.raw frame))).Ensures reads (Concludes proxy id frame) locals
      seen := by
  apply ensures_readAwait.mpr
  intro reply admitted
  cases reply with
  | error exit => cases admitted
  | ok value =>
      constructor
      · intro other isOther
        rcases Option.some.inj (isSummary.symm.trans isOther) with rfl
        exact .inr ⟨isThread, harmless⟩
      · exact .inl ⟨by simp [Seen.add, unsent], summary, isSummary, harmless⟩

theorem isLegacy_eq {summary found : Json} (isThread : threadFromResult summary = some found) :
    proxy.isLegacy summary = decide (proxy.historyMode found = some "legacy") := by
  simp [CompatibilityProxy.isLegacy, isThread]

/-- A size that is not known does not lift the protection. -/
theorem shouldProtect_none (mode : proxy.legacyHistoryMode ≠ .off) :
    proxy.shouldProtect none = true := by
  rw [CompatibilityProxy.shouldProtect_iff]
  rcases isMode : proxy.legacyHistoryMode
  · exact .inr ⟨rfl, fun _ known => by cases known⟩
  · exact .inl rfl
  · exact absurd isMode mode

/-- The `try` block. -/
theorem fullRead_ensures {locals : ReadLocals} {seen : Seen Frame}
    (mode : proxy.legacyHistoryMode ≠ .off) (unsent : seen.sent = []) (unknown : seen.size = none)
    (known : locals.summary = seen.summary) :
    (ReadBlock.fullRead proxy id thread frame).Ensures reads (Concludes proxy id frame) locals
      seen := by
  apply ensures_andThen handled_concludes (obtainSummary_ensures unsent unknown known)
  rintro summary locals seen ⟨unsent, isSummary, isLocal, unknown⟩
  have known : locals.summary = seen.summary := isLocal.trans isSummary.symm
  split
  · rename_i noThread
    refine ⟨Exit.noConfusion, unsent, known, fun other isOther isThread => ?_⟩
    rcases Option.some.inj (isSummary.symm.trans isOther) with rfl
    simp [noThread] at isThread
  · rename_i found isThread
    have hasThread : (threadFromResult summary).isSome = true := by simp [isThread]
    split
    · rename_i other
      apply forward_ensures unsent isSummary hasThread
      intro legacy
      rw [isLegacy_eq isThread, decide_eq_true_eq] at legacy
      exact absurd legacy other
    · rename_i legacy
      have isLegacy : proxy.isLegacy summary = true := by
        rw [isLegacy_eq isThread, decide_eq_true_eq]
        exact not_not.mp legacy
      have protects (size : Option Nat) (isProtected : proxy.shouldProtect size = true) :
          Undecided proxy locals { seen with size := size } := by
        refine ⟨unsent, known, fun other isOther _ => ⟨?_, isProtected⟩⟩
        rcases Option.some.inj (isSummary.symm.trans isOther) with rfl
        exact isLegacy
      have undecided : Undecided proxy locals seen := by
        have same : { seen with size := none } = seen := by rw [← unknown]
        exact same ▸ protects none (shouldProtect_none mode)
      apply ensures_andThen handled_concludes (rolloutSize_ensures undecided unknown)
      rintro size _ _ ⟨rfl, rfl⟩
      split
      · rename_i unprotected
        refine forward_ensures ?_ ?_ hasThread fun _ => Bool.eq_false_iff.mpr unprotected
        · exact unsent
        · exact isSummary
      · rename_i isProtected
        have undecided := protects size (not_not.mp isProtected)
        apply ensures_andThen handled_concludes (visibleTurns_ensures undecided)
        rintro turns _ _ ⟨sameSummary, rfl⟩
        exact respond_ensures isThread isSummary (undecided.congr sameSummary)

/-! ### The whole read -/

/-- A call of a coroutine. -/
theorem ensures_awaitNext {request : Call Frame} {Next : Type}
    {next : request.Answer → Coroutine Frame Next} {post : Except Exit Next → Seen Frame → Prop}
    {seen : Seen Frame}
    (fails : ∀ exit, Admitted request (.error exit) →
      post (.error exit) (seen.add ⟨request, .error exit⟩))
    (goesOn : ∀ value, Admitted request (.ok value) →
      (next value).Ensures reads post (seen.add ⟨request, .ok value⟩)) :
    (await request >>= next).Ensures reads post seen := by
  apply Script.ensures_monadBind.mpr
  apply ensures_await.mpr
  intro reply admitted
  cases reply with
  | ok value => exact goesOn value admitted
  | error exit => exact fails exit admitted

/-- The postcondition of what comes after the answer. -/
abbrev Remains (proxy : CompatibilityProxy Frame) (id : JsonId) (frame : Frame) :
    Except Exit Unit → Seen Frame → Prop :=
  fun _ seen => Outcome proxy id frame seen

/-- The handler sends an answer without turns. -/
theorem answers_ensures {response : Json} {line : String} {seen : Seen Frame}
    (unsent : seen.sent = []) (copies : Copies proxy seen) (isId : response.get "id" = id.toJson)
    (empty : ∀ turns, shownTurns response = .arr turns → turns = []) :
    (await (.sendClient (.object response)) >>= fun _ => await (.print line)).Ensures reads
      (Remains proxy id frame) seen := by
  have outcome (reply : Except Exit Unit) :
      Outcome proxy id frame (seen.add ⟨.sendClient (.object response), reply⟩) := by
    refine .inl ⟨copies, .inr (answered_without ?_ isId empty)⟩
    simp [Seen.add, unsent]
  apply ensures_awaitNext
  · exact fun exit _ => outcome (.error exit)
  · intro value _
    apply ensures_await.mpr
    exact fun reply _ => outcome (.ok value)

theorem refuseRead_ensures {name : String} {seen : Seen Frame} (unsent : seen.sent = [])
    (copies : Copies proxy seen) :
    (refuseRead id thread name).Ensures reads (Remains proxy id frame) seen :=
  answers_ensures unsent copies rfl fun _ shown => by cases shown

theorem recoverRead_ensures {locals : ReadLocals} {exit : Exit} {seen : Seen Frame}
    (unsettled : Unsettled proxy exit locals seen) :
    (recoverRead proxy id thread locals exit).Ensures reads (Remains proxy id frame) seen := by
  rcases unsettled with ⟨notCancelled, undecided⟩
  cases exit with
  | cancelled => exact absurd rfl notCancelled
  | exception name =>
      rw [recoverRead]
      split
      · rename_i summary isLocal
        have isSummary : seen.summary = some summary := undecided.known.symm.trans isLocal
        apply Script.ensures_monadBind.mpr
        apply Script.ensures_ofExcept.mpr
        rcases proxy.deepcopy_cases .read summary with ⟨copies, copied⟩ | ⟨error, fails, failed⟩
        · have copies : Copies proxy seen := by
            intro other isOther
            rcases Option.some.inj (isSummary.symm.trans isOther) with rfl
            exact .inl copies
          rw [copied, Script.leads_ok]
          split
          · rename_i hasThread
            rcases Option.isSome_iff_exists.mp hasThread with ⟨found, isThread⟩
            apply answers_ensures undecided.unsent copies rfl
            intro turns shown
            rw [shownTurns_readResponse [] isThread, Json.arr.injEq] at shown
            exact shown.symm
          · exact refuseRead_ensures undecided.unsent copies
        · -- The copy fails as it did in the block, and so does the handler.
          rw [failed, Script.leads_error]
          refine .inr ⟨fun copies => ?_, undecided.unsent⟩
          rcases copies summary isSummary with copied | ⟨hasThread, harmless⟩
          · cases fails.symm.trans copied
          · rcases undecided.needed summary isSummary hasThread with ⟨legacy, isProtected⟩
            cases (harmless legacy).symm.trans isProtected
      · rename_i isNone
        apply refuseRead_ensures undecided.unsent
        intro summary isSummary
        cases isNone.symm.trans (undecided.known.trans isSummary)

theorem closeHelper_ensures {locals : ReadLocals} {seen : Seen Frame}
    (outcome : Outcome proxy id frame seen) :
    (closeHelper locals).Ensures reads (Remains proxy id frame) seen := by
  rw [closeHelper]
  split
  · exact ensures_await.mpr fun _ _ => outcome
  · exact outcome

/-- What is ensured before a `finally` clause that cannot change it is ensured after it. -/
theorem ensures_finish_remains {body : Coroutine Frame Unit} {cleanup : Coroutine Frame Unit}
    {seen : Seen Frame} (ensures : body.Ensures reads (Remains proxy id frame) seen)
    (cleans : ∀ seen, Outcome proxy id frame seen →
      cleanup.Ensures reads (Remains proxy id frame) seen) :
    (body.finish cleanup).Ensures reads (Remains proxy id frame) seen := by
  apply Script.ensures_finish.mpr
  apply ensures.mono
  intro result seen outcome
  apply (cleans seen outcome).mono
  intro cleaned seen outcome
  cases cleaned with
  | ok value => exact Script.ensures_ofExcept.mpr outcome
  | error exit => exact outcome

theorem handleFullRead_ensures {read : Read Frame} {seen : Seen Frame}
    (mode : proxy.legacyHistoryMode ≠ .off) (isId : jsonId read.request = some id)
    (isThread : ((read.request.get "params").get "threadId").str? = some thread)
    (unsent : seen.sent = []) (unknown : seen.size = none) :
    (handleFullRead proxy read).Ensures reads (Remains proxy id read.frame) seen := by
  simp only [handleFullRead, isId, isThread]
  apply ensures_awaitNext
  · intro exit admitted
    cases admitted
  · intro summary _
    have block : (ReadBlock.fullRead proxy id thread read.frame).Ensures reads
        (Concludes proxy id read.frame) ⟨summary, false⟩
        (seen.add ⟨.getSummary thread, .ok summary⟩) := fullRead_ensures mode unsent unknown rfl
    apply Block.ensures_guarded
    apply block.mono
    intro result locals seen holds
    apply ensures_finish_remains
    · cases result with
      | ok value => exact .inl holds
      | error exit => exact recoverRead_ensures holds
    · exact fun seen outcome => closeHelper_ensures outcome

theorem guardedFullRead_ensures {read : Read Frame} {seen : Seen Frame}
    (mode : proxy.legacyHistoryMode ≠ .off) (isId : jsonId read.request = some id)
    (isThread : ((read.request.get "params").get "threadId").str? = some thread)
    (unsent : seen.sent = []) (unknown : seen.size = none) :
    (guardedFullRead proxy read).Ensures reads (Remains proxy id read.frame) seen := by
  apply ensures_awaitNext
  · intro exit admitted
    cases admitted
  · intro _ _
    apply ensures_finish_remains
    · exact handleFullRead_ensures mode isId isThread unsent unknown
    · exact fun seen outcome => ensures_await.mpr fun _ _ => outcome

/-- What the TUI loop has checked of a read that it intercepts. -/
theorem of_classify_fullRead {read : Read Frame}
    (intercepted : proxy.classify frame = .ok (.fullRead read)) :
    (read.frame = frame ∧ proxy.legacyHistoryMode ≠ .off) ∧ ∃ id, jsonId read.request = some id ∧
      ((read.request.get "params").get "threadId").str? = some read.thread := by
  simp only [CompatibilityProxy.classify, bind, Except.bind, pure, Except.pure] at intercepted
  cases decoded : proxy.decodeObject frame with
  | error exit => simp [decoded] at intercepted
  | ok decodedMessage =>
      cases decodedMessage with
      | none => simp [decoded] at intercepted
      | some message =>
          cases active : proxy.isActivity message with
          | error exit => simp [decoded, active] at intercepted
          | ok isActive =>
              cases isId : jsonId message with
              | none =>
                  simp only [decoded, active, isId] at intercepted
                  split_ifs at intercepted <;> cases intercepted
              | some id =>
                  cases isThread : ((message.get "params").get "threadId").str? with
                  | none =>
                      simp only [decoded, active, isId, isThread] at intercepted
                      split_ifs at intercepted <;> cases intercepted
                  | some thread =>
                      simp only [decoded, active, isId, isThread] at intercepted
                      split_ifs at intercepted with _ _ _ _ mode <;> cases intercepted
                      exact ⟨⟨rfl, mode⟩, id, isId, isThread⟩

/-- A full-history read that the proxy intercepts is settled once, exactly if its summary can be
copied or it is forwarded: it is forwarded, which happens to no protected thread, or it gets one
answer with its id, whose turns fit into a message. -/
theorem fullRead_settled_once {read : Read Frame} {oracle : Oracle (connection Frame) Exit}
    (intercepted : proxy.classify frame = .ok (.fullRead read))
    (admitted : ∀ history request, Admitted request (oracle history request)) :
    ∃ id, jsonId read.request = some id ∧
      (Settled proxy id frame (Seen.of ((guardedFullRead proxy read).run oracle []).1) ↔
        Copies proxy (Seen.of ((guardedFullRead proxy read).run oracle []).1)) := by
  rcases of_classify_fullRead intercepted with ⟨⟨rfl, mode⟩, id, isId, isThread⟩
  refine ⟨id, isId, ?_⟩
  have ensures : (guardedFullRead proxy read).Ensures reads (Remains proxy id read.frame)
      Seen.nothing := guardedFullRead_ensures mode isId isThread rfl rfl
  have outcome : Outcome proxy id read.frame
      (Seen.of ((guardedFullRead proxy read).run oracle []).1) :=
    Script.run_of_ensures admitted ensures
  exact outcome.settled_iff

/-! ### A read without a helper connection -/

namespace Unreachable

/-- A request for the full history of a thread. -/
def request : Json :=
  .obj [("id", .int 7), ("method", .str "thread/read"),
    ("params", .obj [("threadId", .str "t"), ("includeTurns", .bool true)])]

def read : Read Json := ⟨"t", request, request⟩

/-- No summary is cached, and what can fail does. -/
def oracle : Oracle (connection Json) Exit := fun _ request =>
  match request with
  | .getSummary _ => .ok none
  | .setSummary _ _ => .ok ()
  | .getTail _ => .ok none
  | .setTail _ _ => .ok ()
  | .acquire _ => .ok ()
  | .release _ => .ok ()
  | .sendUpstream _ => .ok ()
  | .sendClient _ => .ok ()
  | _ => .error (.exception "AppServerError")

end Unreachable

/-- The read of a thread that cannot be reached has no summary that would have to be copied. -/
theorem fullRead_settled_once_unreachable :
    ∃ id, jsonId Unreachable.read.request = some id ∧
      (Settled CompatibilityProxy.plain id Unreachable.request
          (Seen.of ((guardedFullRead CompatibilityProxy.plain Unreachable.read).run
            Unreachable.oracle []).1) ↔
        Copies CompatibilityProxy.plain
          (Seen.of ((guardedFullRead CompatibilityProxy.plain Unreachable.read).run
            Unreachable.oracle []).1)) := by
  have intercepted : CompatibilityProxy.plain.classify Unreachable.request =
      .ok (.fullRead Unreachable.read) := rfl
  apply fullRead_settled_once intercepted
  intro history request
  cases request <;> simp [Admitted, Unreachable.oracle, Except.isOk, Except.toBool]

/-! ### A summary that is nested too deep -/

namespace Nested

/-- `[[…[null]…]]` -/
def deep : Nat → Json
  | 0 => .null
  | depth + 1 => .arr [deep depth]

/-- How deep a value may be nested for a copy: the stack of a full read is deeper by one frame. -/
def maxNesting : CopyPlace → Nat
  | .relay => 491
  | .read => 490

def shallow : CompatibilityProxy Json :=
  { CompatibilityProxy.plain with
    copyError := fun place value =>
      if value.nesting ≤ maxNesting place then none else some "RecursionError" }

/-- The summary of a thread with a Legacy history, which the relay can copy. -/
def summary : Json :=
  .obj [("thread", .obj [("id", .str "t"), ("historyMode", .str "legacy"), ("data", deep 489)])]

/-- The summary and a page without turns are cached, and every call that is made succeeds. -/
def oracle : Oracle (connection Json) Exit := fun history request =>
  match request with
  | .getSummary _ => .ok (some summary)
  | .getTail _ => .ok (some [])
  | request => Unreachable.oracle history request

end Nested

/-- The read of a thread whose cached summary is nested one level too deep is neither forwarded nor
answered. -/
theorem fullRead_unanswered :
    Nested.shallow.classify Unreachable.request = .ok (.fullRead Unreachable.read) ∧
      (∀ history request, Admitted request (Nested.oracle history request)) ∧
      Nested.shallow.copyError .relay Nested.summary = none ∧
      ∀ id, ¬Settled Nested.shallow id Unreachable.request
        (Seen.of ((guardedFullRead Nested.shallow Unreachable.read).run Nested.oracle []).1) := by
  refine ⟨rfl, fun history request => ?_, by decide +kernel, fun id => ?_⟩
  · cases request <;>
      simp [Admitted, Nested.oracle, Unreachable.oracle, Except.isOk, Except.toBool]
  · apply not_settled_of_unsent
    have unsent : (Seen.of ((guardedFullRead Nested.shallow Unreachable.read).run
        Nested.oracle []).1).sent.length = 0 := by decide +kernel
    exact List.eq_nil_of_length_eq_zero unsent

end Longrun.Tui
