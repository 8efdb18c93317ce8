import Longrun.Tui.Process

/-!
# The relay of frames to the TUI

Two conversations share the stream from the App Server: the TUI's own and the internal calls of the
session bridge. Every frame goes on to the TUI as it is, once and in the order of arrival, except for
the responses to internal calls; each of these completes the call that issued its id, and only that.
-/

namespace Longrun.Tui

open Process (World Entering)

variable {Frame : Type} {proxy : CompatibilityProxy Frame} {memory after : Memory Frame}
  {trace : List (Event Frame)} {task : Task} {request : Call Frame}
  {printing : Nat → Option String}

/-! ### What the trace says -/

/-- The internal call that was given an id and has not ended. -/
def pendingCall : List (Event Frame) → String → Option Nat
  | [], _ => none
  | .replied (.call number) .register (.ok given) :: trace, id =>
      if given = id then some number else pendingCall trace id
  | .removed gone :: trace, id => if gone = id then none else pendingCall trace id
  | _ :: trace, id => pendingCall trace id

/-- A response whose id is that of a pending internal call or among the newest 256 ids. -/
def answersInternal (trace : List (Event Frame)) (message : Json) : Bool :=
  isResponse message && (message.get "id").str?.any fun id =>
    (pendingCall trace id).isSome || decide (id ∈ (issuedIds trace).take Memory.maxInternalIds)

/-- A frame that is not for the TUI when it arrives. -/
def isHidden (proxy : CompatibilityProxy Frame) (trace : List (Event Frame)) (frame : Frame) : Bool :=
  match proxy.decodeObject frame with
  | .ok (some message) => answersInternal trace message
  | _ => false

/-- The frames that are for the TUI, newest first. -/
def due (proxy : CompatibilityProxy Frame) : List (Event Frame) → List Frame
  | [] => []
  | .arrived frame :: trace =>
      if isHidden proxy trace frame then due proxy trace else frame :: due proxy trace
  | _ :: trace => due proxy trace

/-- The frames that are handed over for the TUI as they came in, newest first. -/
def forwarded : List (Event Frame) → List Frame
  | [] => []
  | .called _ (.sendClient (.raw frame)) :: trace => frame :: forwarded trace
  | _ :: trace => forwarded trace

/-- A message completes a call for the first time, and the frame that it has just arrived in is a
response with the id of this call. -/
def Completes (proxy : CompatibilityProxy Frame) (number : Nat) (message : Json)
    (before : List (Event Frame)) : Prop :=
  (∀ other, .completed number other ∉ before) ∧
    ∃ frame id earlier, before = .arrived frame :: earlier ∧
      proxy.decodeObject frame = .ok (some message) ∧ isResponse message = true ∧
      message.get "id" = .str id ∧ pendingCall earlier id = some number

/-- The bookkeeping of the internal calls. -/
structure Control (proxy : CompatibilityProxy Frame) (memory : Memory Frame) : Prop where
  ids : memory.internalIds.entries.map Prod.fst =
    ((issuedIds memory.trace).take Memory.maxInternalIds).reverse
  fresh : (issuedIds memory.trace).Nodup
  pending : ∀ id, memory.internalRequests.get? id = pendingCall memory.trace id
  results : ∀ number message, memory.futures number = .result message →
    .completed number message ∈ memory.trace
  done : ∀ number message, .completed number message ∈ memory.trace →
    memory.futures number ≠ .pending
  completions : ∀ number message before, .completed number message :: before <:+ memory.trace →
    Completes proxy number message before

/-! ### Events that do not matter -/

/-- Events that change the bookkeeping. -/
def Event.IsControl : Event Frame → Prop
  | .replied _ .register (.ok _) => True
  | .completed _ _ => True
  | .removed _ => True
  | _ => False

theorem issuedIds_cons {event : Event Frame} (quiet : ¬event.IsControl) :
    issuedIds (event :: trace) = issuedIds trace := by
  rw [issuedIds.eq_def]
  split
  · contradiction
  · rename_i same
    cases same
    exact absurd trivial quiet
  · rename_i same
    cases same
    rfl

theorem pendingCall_cons {event : Event Frame} (quiet : ¬event.IsControl) (id : String) :
    pendingCall (event :: trace) id = pendingCall trace id := by
  rw [pendingCall.eq_def]
  split
  · contradiction
  · rename_i same
    cases same
    exact absurd trivial quiet
  · rename_i same
    cases same
    exact absurd trivial quiet
  · rename_i same
    cases same
    rfl

namespace Control

/-- The bookkeeping is a matter of four variables. -/
theorem congr (control : Control proxy memory) (ids : after.internalIds = memory.internalIds)
    (requests : after.internalRequests = memory.internalRequests)
    (futures : after.futures = memory.futures) (trace : after.trace = memory.trace) :
    Control proxy after := by
  constructor
  · rw [ids, trace]
    exact control.ids
  · rw [trace]
    exact control.fresh
  · rw [requests, trace]
    exact control.pending
  · rw [futures, trace]
    exact control.results
  · rw [futures, trace]
    exact control.done
  · rw [trace]
    exact control.completions

theorem log (control : Control proxy memory) {event : Event Frame} (quiet : ¬event.IsControl) :
    Control proxy (memory.log event) := by
  have other (number : Nat) (message : Json) : .completed number message ≠ event := by
    rintro rfl
    exact quiet trivial
  constructor
  · rw [Memory.log, issuedIds_cons quiet]
    exact control.ids
  · rw [Memory.log, issuedIds_cons quiet]
    exact control.fresh
  · intro id
    rw [Memory.log, pendingCall_cons quiet]
    exact control.pending id
  · exact fun number message isResult =>
      List.mem_cons_of_mem _ (control.results number message isResult)
  · intro number message completed
    apply control.done number message
    exact (List.mem_cons.mp completed).resolve_left (other number message)
  · intro number message before suffix
    rcases List.suffix_cons_iff.mp suffix with same | suffix
    · exact absurd (List.cons.inj same).1 (other number message)
    · exact control.completions number message before suffix

theorem settleCancelled (control : Control proxy memory) (number : Nat) :
    Control proxy (memory.settleFuture number .cancelled) := by
  rw [Memory.settleFuture]
  split
  · exact {
      ids := control.ids
      fresh := control.fresh
      pending := control.pending
      results := by
        intro other message isResult
        apply control.results other message
        by_cases same : other = number
        · simp [same] at isResult
        · simpa [same] using isResult
      done := by
        intro other message completed
        by_cases same : other = number
        · simp [same]
        · simpa [same] using control.done other message completed
      completions := control.completions }
  · exact control

private theorem newest_reverse (ids : List String) (id : String) (bound : Nat) (positive : 0 < bound) :
    ((ids.take bound).reverse ++ [id]).drop ((ids.take bound).length + 1 - bound) =
      ((id :: ids).take bound).reverse := by
  rw [← List.reverse_cons, List.drop_reverse]
  congr 1
  rcases bound with _ | bound
  · omega
  · simp only [List.length_cons, List.length_take, List.take_succ_cons]
    have count : min (bound + 1) ids.length + 1 - (min (bound + 1) ids.length + 1 - (bound + 1)) =
        min bound ids.length + 1 := by omega
    rw [count, List.take_succ_cons, List.take_take]
    congr 1
    rw [List.take_eq_take_iff]
    omega

/-- A new call. -/
theorem register (control : Control proxy memory) {number : Nat} {id : String}
    (isFresh : id ∉ issuedIds memory.trace) :
    Control proxy ((memory.registerCall number id).log
      (.replied (.call number) .register (.ok id))) := by
  have absent : id ∉ memory.internalIds.entries.map Prod.fst := by
    rw [control.ids, List.mem_reverse]
    exact fun mem => isFresh (List.mem_of_mem_take mem)
  have count : memory.internalIds.entries.length =
      ((issuedIds memory.trace).take Memory.maxInternalIds).length := by
    have lengths := congrArg List.length control.ids
    rwa [List.length_map, List.length_reverse] at lengths
  constructor
  · apply (Dict.keys_evict_set _ absent () Memory.maxInternalIds).trans
    rw [control.ids, count]
    exact newest_reverse _ _ _ (by decide)
  · exact List.nodup_cons.mpr ⟨isFresh, control.fresh⟩
  · intro other
    apply (Dict.get?_set _ _ _ _).trans
    simp only [Memory.log, Memory.registerCall, pendingCall, control.pending other, eq_comm]
  · exact fun other message isResult =>
      List.mem_cons_of_mem _ (control.results other message isResult)
  · intro other message completed
    apply control.done other message
    exact (List.mem_cons.mp completed).resolve_left (by simp)
  · intro other message before suffix
    rcases List.suffix_cons_iff.mp suffix with same | suffix
    · cases (List.cons.inj same).1
    · exact control.completions other message before suffix

/-- A call ends. -/
theorem remove (control : Control proxy memory) (id : String) :
    Control proxy ({ memory with internalRequests := memory.internalRequests.pop id }.log
      (.removed id)) := by
  constructor
  · exact control.ids
  · exact control.fresh
  · intro other
    apply (Dict.get?_pop _ _ _).trans
    simp only [Memory.log, pendingCall, control.pending other, eq_comm]
  · exact fun other message isResult =>
      List.mem_cons_of_mem _ (control.results other message isResult)
  · intro other message completed
    apply control.done other message
    exact (List.mem_cons.mp completed).resolve_left (by simp)
  · intro other message before suffix
    rcases List.suffix_cons_iff.mp suffix with same | suffix
    · cases (List.cons.inj same).1
    · exact control.completions other message before suffix

/-- A message completes a call. -/
theorem complete (control : Control proxy memory) {number : Nat} {message : Json}
    {frame : Frame} {id : String} {earlier : List (Event Frame)}
    (arrived : memory.trace = .arrived frame :: earlier)
    (decoded : proxy.decodeObject frame = .ok (some message))
    (response : isResponse message = true) (isId : message.get "id" = .str id)
    (isPending : pendingCall earlier id = some number) :
    Control proxy (memory.complete number message) := by
  rw [Memory.complete]
  split
  · rename_i pending
    have settled : memory.settleFuture number (.result message) =
        { memory with futures := Function.update memory.futures number (.result message) } := by
      simp [Memory.settleFuture, pending]
    have first (other : Json) : .completed number other ∉ memory.trace :=
      fun completed => control.done number other completed pending
    rw [settled]
    constructor
    · exact control.ids
    · exact control.fresh
    · exact control.pending
    · intro other result isResult
      by_cases same : other = number
      · subst same
        simp only [Memory.log, Function.update_self, Future.result.injEq] at isResult
        subst isResult
        exact List.mem_cons_self
      · apply List.mem_cons_of_mem
        apply control.results other result
        simpa [Memory.log, same] using isResult
    · intro other result completed
      by_cases same : other = number
      · simp [Memory.log, same]
      · have before : .completed other result ∈ memory.trace :=
          (List.mem_cons.mp completed).resolve_left (by simp [same])
        simpa [Memory.log, same] using control.done other result before
    · intro other result before suffix
      rcases List.suffix_cons_iff.mp suffix with same | suffix
      · cases same
        exact ⟨first, frame, id, earlier, arrived, decoded, response, isId, isPending⟩
      · exact control.completions other result before suffix
  · exact control

end Control

/-! ### What calls and replies keep -/

namespace Control

/-- Only completing a call takes care. -/
theorem performs (control : Control proxy memory)
    (notResult : ∀ number message, request ≠ .setResult number message) :
    Control proxy (perform task memory request).memory := by
  cases request with
  | setResult number message => exact absurd rfl (notResult number message)
  | popInternal id => exact control.remove id
  | release lock =>
      simp only [perform]
      split
      · exact control.congr rfl rfl rfl rfl
      · exact control
  | print line =>
      apply Control.log
      · exact control.congr rfl rfl rfl rfl
      · exact fun impossible => impossible
  | _ => first
    | exact control.congr rfl rfl rfl rfl
    | exact control.log fun impossible => impossible

theorem answers (control : Control proxy memory) {reply : Except Exit request.Answer}
    (answered : answer task memory request reply = some after) : Control proxy after := by
  rcases Option.map_eq_some_iff.mp answered with ⟨middle, admitted, rfl⟩
  rw [grant.eq_def] at admitted
  split at admitted
  · split_ifs at admitted
    cases admitted
    apply Control.log
    · exact control.congr rfl rfl rfl rfl
    · exact fun impossible => impossible
  · split at admitted
    · split_ifs at admitted with known
      cases admitted
      exact control.register known
    · cases admitted
  · cases admitted
  · split at admitted
    · split at admitted
      · cases admitted
        exact control.log fun impossible => impossible
      · cases admitted
      · cases admitted
        apply (control.settleCancelled _).log
        exact fun impossible => impossible
    · cases admitted
  · rename_i notRegister _ _
    cases admitted
    apply control.log
    intro isControl
    cases request with
    | register =>
        cases reply with
        | ok id => exact notRegister id rfl HEq.rfl
        | error exit => exact isControl
    | _ => exact isControl

end Control

/-- The frames that are due and those that are forwarded are the same. -/
def SameFrames (proxy : CompatibilityProxy Frame) (before after : Memory Frame) : Prop :=
  due proxy after.trace = due proxy before.trace ∧ forwarded after.trace = forwarded before.trace

theorem performs_sameFrames (notRaw : ∀ frame, request ≠ .sendClient (.raw frame)) :
    SameFrames proxy memory (perform task memory request).memory := by
  have logged : SameFrames proxy memory (memory.log (.called task request)) := by
    refine ⟨rfl, ?_⟩
    rw [Memory.log, forwarded.eq_def]
    split
    · contradiction
    · rename_i same
      cases same
      exact absurd rfl (notRaw _)
    · rename_i same
      cases same
      rfl
  cases request with
  | setResult number message =>
      simp only [perform, Performed.memory, Memory.complete]
      split
      · simp only [Memory.settleFuture]
        split <;> exact ⟨rfl, rfl⟩
      · exact ⟨rfl, rfl⟩
  | release lock =>
      simp only [perform]
      split <;> exact ⟨rfl, rfl⟩
  | _ => first
    | exact ⟨rfl, rfl⟩
    | exact logged

theorem answers_sameFrames {reply : Except Exit request.Answer}
    (answered : answer task memory request reply = some after) :
    SameFrames proxy memory after := by
  rcases Option.map_eq_some_iff.mp answered with ⟨middle, admitted, rfl⟩
  suffices same : middle.trace = memory.trace by
    simp only [SameFrames, Memory.log]
    rw [← same]
    exact ⟨rfl, rfl⟩
  rw [grant.eq_def] at admitted
  split at admitted
  · split_ifs at admitted
    cases admitted
    rfl
  · split at admitted
    · split_ifs at admitted
      cases admitted
      rfl
    · cases admitted
  · cases admitted
  · split at admitted
    · split at admitted
      · cases admitted
        rfl
      · cases admitted
      · cases admitted
        rw [Memory.settleFuture]
        split <;> rfl
    · cases admitted
  · cases admitted
    rfl

/-! ### The conduct of the tasks -/

/-- Every frame that is due has been handed over. -/
structure Relayed (proxy : CompatibilityProxy Frame) (memory : Memory Frame) : Prop where
  control : Control proxy memory
  frames : forwarded memory.trace = due proxy memory.trace

theorem Relayed.later (relayed : Relayed proxy memory)
    (control : Control proxy memory → Control proxy after)
    (same : SameFrames proxy memory after) : Relayed proxy after where
  control := control relayed.control
  frames := by rw [same.1, same.2, relayed.frames]

/-- All tasks keep the bookkeeping, and all but the loop over the frames leave the frames alone. -/
def relayConduct (proxy : CompatibilityProxy Frame) (printing : Nat → Option String) :
    (connectionProcess proxy printing).Conduct where
  guarantees task before after :=
    (Control proxy before → Control proxy after) ∧
      (task ≠ .upstream → SameFrames proxy before after)
  relies task before after :=
    (Control proxy before → Control proxy after) ∧
      (task = .upstream → SameFrames proxy before after)
  relies_refl _ _ := ⟨id, fun _ => ⟨rfl, rfl⟩⟩
  relies_trans first second :=
    ⟨fun control => second.1 (first.1 control), fun isUpstream =>
      ⟨(second.2 isUpstream).1.trans (first.2 isUpstream).1,
        (second.2 isUpstream).2.trans (first.2 isUpstream).2⟩⟩
  others different change :=
    ⟨change.1, fun isUpstream => change.2 fun same => different (same.trans isUpstream.symm)⟩
  rests task memory := task = .upstream → Relayed proxy memory
  rests_later rests relied isUpstream :=
    (rests isUpstream).later relied.1 (relied.2 isUpstream)

/-- The effects of the calls of the loop over the frames. -/
abbrev relays (proxy : CompatibilityProxy Frame) (printing : Nat → Option String) :
    Script.Effects (connection Frame) Exit (Memory Frame) :=
  (relayConduct proxy printing).effects .upstream

/-- The other tasks need nothing for their calls. -/
theorem needs_of_mayCall (elsewhere : task ≠ .upstream) (mayCall : task.MayCall proxy request) :
    ((relayConduct proxy printing).effects task).needs memory request := by
  apply Process.Conduct.needs_of_guarantees
  · refine ⟨fun control => control.performs ?_, fun _ => performs_sameFrames ?_⟩
    · rintro number message rfl
      cases task <;> first | exact elsewhere rfl | exact mayCall
    · rintro frame rfl
      cases task <;> first | exact elsewhere rfl | exact mayCall
  · exact fun isUpstream => absurd isUpstream elsewhere
  · intro later reply last _ answered
    exact ⟨fun control => control.answers answered, fun _ => answers_sameFrames answered⟩

/-- The frame that has just arrived is the one that is due. -/
structure Carries (proxy : CompatibilityProxy Frame) (frame : Frame) (memory : Memory Frame) :
    Prop where
  control : Control proxy memory
  frames : due proxy memory.trace = frame :: forwarded memory.trace

/-- A call of the loop that is answered at once and leaves the frames alone. -/
theorem ensures_quietly {frame : Frame} {reply : Except Exit request.Answer}
    {post : Except Exit request.Answer → Memory Frame → Prop}
    (performed : perform .upstream memory request = .replies reply after)
    (notResult : ∀ number message, request ≠ .setResult number message)
    (same : after.trace = memory.trace) (carries : Carries proxy frame memory)
    (goesOn : Carries proxy frame after → post reply after) :
    (await request).Ensures (relays proxy printing) post memory := by
  have control : Control proxy after := by
    have performs : Control proxy (perform .upstream memory request).memory :=
      carries.control.performs notResult
    rwa [performed] at performs
  apply Process.Conduct.ensures_of_replies performed
  · exact ⟨fun _ => control, fun elsewhere => absurd rfl elsewhere⟩
  · exact goesOn ⟨control, by rw [same]; exact carries.frames⟩

/-- The frame is handed over. -/
theorem forward_relays {frame : Frame} (carries : Carries proxy frame memory) :
    (await (.sendClient (.raw frame))).Ensures (relays proxy printing) (fun _ => Relayed proxy) memory := by
  have control : Control proxy (memory.log (.called .upstream (.sendClient (.raw frame)))) :=
    carries.control.log fun impossible => impossible
  have relayed : Relayed proxy (memory.log (.called .upstream (.sendClient (.raw frame)))) :=
    ⟨control, carries.frames.symm⟩
  apply Process.Conduct.ensures_of_waits rfl
  · exact ⟨fun _ => control, fun elsewhere => absurd rfl elsewhere⟩
  · exact fun _ => relayed
  · intro later reply last relied answered
    have answered : answer .upstream later (.sendClient (.raw frame)) reply = some last := answered
    have kept (control : Control proxy later) : Control proxy last := control.answers answered
    refine ⟨⟨kept, fun elsewhere => absurd rfl elsewhere⟩, ?_⟩
    exact (relayed.later relied.1 (relied.2 rfl)).later kept (answers_sameFrames answered)

/-- A frame has arrived, and all before it are handed over. -/
structure Arrived (proxy : CompatibilityProxy Frame) (frame : Frame) (earlier : List (Event Frame))
    (memory : Memory Frame) : Prop where
  control : Control proxy memory
  trace : memory.trace = .arrived frame :: earlier
  frames : forwarded earlier = due proxy earlier

namespace Arrived

variable {frame : Frame} {earlier : List (Event Frame)} {message : Json}

theorem relayed (arrived : Arrived proxy frame earlier memory)
    (hidden : isHidden proxy earlier frame = true) : Relayed proxy memory where
  control := arrived.control
  frames := by simp [arrived.trace, forwarded, due, hidden, arrived.frames]

theorem carries (arrived : Arrived proxy frame earlier memory)
    (shown : isHidden proxy earlier frame = false) : Carries proxy frame memory where
  control := arrived.control
  frames := by simp [arrived.trace, forwarded, due, shown, arrived.frames]

theorem pendingCall_eq (arrived : Arrived proxy frame earlier memory) (id : String) :
    memory.internalRequests.get? id = pendingCall earlier id := by
  rw [arrived.control.pending, arrived.trace]
  apply pendingCall_cons
  exact fun impossible => impossible

theorem isInternal_iff (arrived : Arrived proxy frame earlier memory) (id : String) :
    (memory.internalIds.get? id).isSome = true ↔
      id ∈ (issuedIds earlier).take Memory.maxInternalIds := by
  have issued : issuedIds memory.trace = issuedIds earlier := by
    rw [arrived.trace]
    exact issuedIds_cons fun impossible => impossible
  rw [Dict.isSome_get?_iff, arrived.control.ids, List.mem_reverse, issued]

/-- What the loop finds out about a response is what its id says. -/
theorem answersInternal_eq (arrived : Arrived proxy frame earlier memory)
    (response : isResponse message = true) {call : Option Nat} {known : Bool}
    (looked : lookInternal memory (message.get "id") = .ok call)
    (knows : knowsInternal memory (message.get "id") = .ok known) :
    answersInternal earlier message = (call.isSome || known) := by
  rw [lookInternal] at looked
  rw [knowsInternal] at knows
  split_ifs at looked knows
  simp only [Except.ok.injEq] at looked knows
  subst looked knows
  cases text : (message.get "id").str? with
  | none => simp [answersInternal, text]
  | some id =>
      have same : (memory.internalIds.get? id).isSome =
          decide (id ∈ (issuedIds earlier).take Memory.maxInternalIds) := by
        rw [Bool.eq_iff_iff, decide_eq_true_eq]
        exact arrived.isInternal_iff id
      simp [answersInternal, response, text, arrived.pendingCall_eq, same]

theorem isHidden_eq (decoded : proxy.decodeObject frame = .ok (some message)) :
    isHidden proxy earlier frame = answersInternal earlier message := by
  simp [isHidden, decoded]

/-- A response to a pending call completes the call. -/
theorem complete (arrived : Arrived proxy frame earlier memory)
    (decoded : proxy.decodeObject frame = .ok (some message))
    (response : isResponse message = true) {number : Nat}
    (looked : lookInternal memory (message.get "id") = .ok (some number)) :
    Relayed proxy (memory.complete number message) := by
  have hashable : (message.get "id").hashable = true := by
    rw [lookInternal] at looked
    split_ifs at looked with hashable
    exact hashable
  have isPending := looked
  simp only [lookInternal, hashable, if_true, Except.ok.injEq, Option.bind_eq_some_iff]
    at isPending
  rcases isPending with ⟨id, isId, isPending⟩
  rw [arrived.pendingCall_eq] at isPending
  have isText : message.get "id" = .str id := by
    cases value : message.get "id" <;> simp [value, Json.str?] at isId
    rw [isId]
  have control : Control proxy (memory.complete number message) :=
    arrived.control.complete arrived.trace decoded response isText isPending
  have hidden : isHidden proxy earlier frame = true := by
    simp [isHidden_eq decoded, answersInternal, response, isText, Json.str?, isPending]
  have relayed := arrived.relayed hidden
  refine ⟨control, ?_⟩
  rw [Memory.complete]
  split
  · simp only [Memory.settleFuture]
    split <;> exact relayed.frames
  · exact relayed.frames

end Arrived

variable {frame : Frame} {earlier : List (Event Frame)} {message : Json}

/-- A response is taken for an internal call exactly if it is hidden. -/
theorem takeInternal_relays (arrived : Arrived proxy frame earlier memory)
    (decoded : proxy.decodeObject frame = .ok (some message))
    (hashable : isResponse message = true → (message.get "id").hashable = true) :
    (takeInternal message).Ensures (relays proxy printing) (fun result after =>
      result = .ok true ∧ Relayed proxy after ∨ result = .ok false ∧ after = memory ∧
        answersInternal earlier message = false ∧ Carries proxy frame after) memory := by
  have unchanged : Control proxy memory → Control proxy memory := id
  rw [takeInternal]
  split
  · rename_i response
    have looks : ∃ call, lookInternal memory (message.get "id") = .ok call :=
      ⟨_, by rw [lookInternal, if_pos (hashable response)]⟩
    have knows : ∃ known, knowsInternal memory (message.get "id") = .ok known :=
      ⟨_, by rw [knowsInternal, if_pos (hashable response)]⟩
    rcases looks with ⟨call, looked⟩
    rcases knows with ⟨known, knows⟩
    apply Script.ensures_monadBind.mpr
    apply Process.Conduct.ensures_of_replies rfl
    · exact ⟨unchanged, fun elsewhere => absurd rfl elsewhere⟩
    · rw [looked, Script.leads_ok]
      cases call with
      | some number =>
          apply Script.ensures_monadBind.mpr
          apply Process.Conduct.ensures_of_replies rfl
          · exact ⟨fun _ => (arrived.complete decoded response looked).control,
              fun elsewhere => absurd rfl elsewhere⟩
          · exact .inl ⟨rfl, arrived.complete decoded response looked⟩
      | none =>
          have hidden := arrived.answersInternal_eq response looked knows
          apply Process.Conduct.ensures_of_replies rfl
          · exact ⟨unchanged, fun elsewhere => absurd rfl elsewhere⟩
          · rw [knows]
            cases known with
            | true =>
                exact .inl ⟨rfl, arrived.relayed (by rw [Arrived.isHidden_eq decoded, hidden]; rfl)⟩
            | false =>
                exact .inr ⟨rfl, rfl, hidden,
                  arrived.carries (by rw [Arrived.isHidden_eq decoded, hidden]; rfl)⟩
  · rename_i request
    have shown : answersInternal earlier message = false := by simp [answersInternal, request]
    exact .inr ⟨rfl, rfl, shown, arrived.carries (by rw [Arrived.isHidden_eq decoded, shown])⟩

/-- The postcondition of what is noticed of a message. -/
abbrev Notices (proxy : CompatibilityProxy Frame) (frame : Frame) :
    Except Exit Unit → Memory Frame → Prop :=
  fun result after => result = .ok () ∧ Carries proxy frame after

theorem forgetTail_relays (carries : Carries proxy frame memory) (thread : Option String) :
    (forgetTail thread).Ensures (relays proxy printing) (fun result after => result = .ok () ∧
      after.pendingSummaryReads = memory.pendingSummaryReads ∧ Carries proxy frame after)
      memory := by
  cases thread with
  | none => exact ⟨rfl, rfl, carries⟩
  | some thread =>
      apply ensures_quietly
      · exact rfl
      · exact fun _ _ impossible => by cases impossible
      · exact rfl
      · exact carries
      · exact fun carries => ⟨rfl, rfl, carries⟩

/-- The id under which the summary in a result is kept. -/
def summaryId (result : Json) (expected : Option String) : Option String :=
  (threadFromResult result).bind fun thread => (threadId thread).or expected

theorem storeSummary_relays (carries : Carries proxy frame memory) {result : Json}
    {expected : Option String}
    (copies : (summaryId result expected).isSome = true → proxy.copyError .relay result = none) :
    (storeSummary proxy result expected).Ensures (relays proxy printing) (Notices proxy frame)
      memory := by
  rw [storeSummary]
  split
  · exact ⟨rfl, carries⟩
  · rename_i thread isThread
    split
    · rename_i id isId
      have copied : proxy.deepcopy .relay result = .ok result := by
        rw [CompatibilityProxy.deepcopy, copies (by simp [summaryId, isThread, isId])]
      rw [copied]
      apply Script.ensures_monadBind.mpr
      apply ensures_quietly
      · exact rfl
      · exact fun _ _ impossible => by cases impossible
      · exact rfl
      · exact carries
      · exact fun carries => ⟨rfl, carries⟩
    · exact ⟨rfl, carries⟩

/-- The thread of the summary read that the connection still remembers for a response. -/
def expectedThread (memory : Memory Frame) (message : Json) : Option String :=
  (jsonId message).bind memory.pendingSummaryReads.get?

theorem keepSummary_relays (carries : Carries proxy frame memory)
    (copies : isResponse message = true →
      (summaryId (message.get "result") (expectedThread memory message)).isSome = true →
        proxy.copyError .relay (message.get "result") = none) :
    (keepSummary proxy message).Ensures (relays proxy printing) (Notices proxy frame) memory := by
  rw [keepSummary]
  split
  · rename_i response
    apply Script.ensures_monadBind.mpr
    rw [takePendingRead]
    split
    · rename_i id isId
      have expected : expectedThread memory message = memory.pendingSummaryReads.get? id := by
        rw [expectedThread, isId, Option.bind_some]
      apply ensures_quietly
      · exact rfl
      · exact fun _ _ impossible => by cases impossible
      · exact rfl
      · exact carries
      · exact fun carries => storeSummary_relays carries (expected ▸ copies response)
    · rename_i noId
      have expected : expectedThread memory message = none := by
        rw [expectedThread, noId, Option.bind_none]
      exact storeSummary_relays carries (expected ▸ copies response)
  · exact ⟨rfl, carries⟩

theorem noticeMessage_relays (carries : Carries proxy frame memory)
    (hashable : (message.get "method").hashable = true)
    (copies : isResponse message = true →
      (summaryId (message.get "result") (expectedThread memory message)).isSome = true →
        proxy.copyError .relay (message.get "result") = none) :
    (noticeMessage proxy message (.ok ())).Ensures (relays proxy printing) (Notices proxy frame) memory := by
  have observes : proxy.observe message (.ok ()) = (pure () : Coroutine Frame Unit) := by
    rw [CompatibilityProxy.observe]
    split <;> rfl
  have changed : ∃ thread, changedThread message = .ok thread := by
    simp only [changedThread, inStrings, hashable, if_true, bind, Except.bind, pure, Except.pure]
    split <;> exact ⟨_, rfl⟩
  rcases changed with ⟨thread, changed⟩
  rw [noticeMessage, observes, changed]
  apply Script.ensures_monadBind.mpr
  apply Script.ensures_monadBind.mpr
  apply Script.ensures_monadBind.mpr
  apply (forgetTail_relays carries thread).mono
  rintro _ after ⟨rfl, same, carries⟩
  apply keepSummary_relays carries
  rw [expectedThread, same]
  exact copies

/-! ### Whole runs -/

/-- A frame from the App Server is observed without an exception, and a response has an id that is a
string, a number, a boolean or `null`. -/
def Entry.Ordinary (proxy : CompatibilityProxy Frame) : Entry Frame → Prop
  | .fromAppServer frame observed =>
      observed = .ok () ∧ ∀ message, proxy.decodeObject frame = .ok (some message) →
        isResponse message = true → (message.get "id").hashable = true
  | _ => True

/-- The summary in a response to the TUI is to be kept: there is a thread in it, which has an id or
answers a summary read. -/
def keeps (memory : Memory Frame) (message : Json) : Bool :=
  isResponse message && !answersInternal memory.trace message &&
    (summaryId (message.get "result") (expectedThread memory message)).isSome

/-- Decoding a frame from the App Server raises nothing that `_decode_object` does not handle, the
method of its message is neither an array nor an object, and a summary that is to be kept can be
copied. -/
def Entry.Readable (proxy : CompatibilityProxy Frame) (memory : Memory Frame) : Entry Frame → Prop
  | .fromAppServer frame _ =>
      ∃ decoded, proxy.decodeObject frame = .ok decoded ∧ ∀ message, decoded = some message →
        (message.get "method").hashable = true ∧
          (keeps memory message = true → proxy.copyError .relay (message.get "result") = none)
  | _ => True

theorem upstreamToClient_relays {observed : Except Exit Unit}
    (arrived : Arrived proxy frame memory.trace (memory.log (.arrived frame)))
    (ordinary : (Entry.fromAppServer frame observed).Ordinary proxy)
    (readable : (Entry.fromAppServer frame observed).Readable proxy memory) :
    (upstreamToClient proxy frame observed).Ensures (relays proxy printing) (fun _ => Relayed proxy)
      (memory.log (.arrived frame)) := by
  rcases ordinary with ⟨rfl, hashable⟩
  rcases readable with ⟨decoded, isDecoded, reads⟩
  rw [upstreamToClient, isDecoded]
  apply Script.ensures_monadBind.mpr
  rw [Script.ensures_ofExcept, Script.leads_ok]
  cases decoded with
  | none =>
      apply forward_relays
      apply arrived.carries
      simp [isHidden, isDecoded]
  | some message =>
      apply Script.ensures_monadBind.mpr
      apply (takeInternal_relays arrived isDecoded (hashable message isDecoded)).mono
      rintro _ after (⟨rfl, relayed⟩ | ⟨rfl, rfl, shown, carries⟩)
      · exact relayed
      · apply Script.ensures_monadBind.mpr
        have copies (response : isResponse message = true)
            (isKept : (summaryId (message.get "result")
              (expectedThread (memory.log (.arrived frame)) message)).isSome = true) :
            proxy.copyError .relay (message.get "result") = none := by
          apply (reads message rfl).2
          rw [keeps, response, shown]
          exact isKept
        apply (noticeMessage_relays carries (reads message rfl).1 copies).mono
        rintro _ after ⟨rfl, carries⟩
        exact forward_relays carries

theorem initial_relayed : Relayed proxy (Memory.initial printing : Memory Frame) where
  frames := rfl
  control := {
    ids := rfl
    fresh := List.nodup_nil
    pending := fun _ => rfl
    results := fun _ _ impossible => by cases impossible
    done := fun _ _ impossible => by cases impossible
    completions := fun _ _ _ suffix => absurd suffix.length_le (by simp [Memory.initial]) }

/-- Starting a task keeps the bookkeeping, and the frames unless one arrives. -/
theorem enter_keeps {entry : Entry Frame} {script : Coroutine Frame Unit}
    (entered : enter proxy task memory entry = some (after, script)) :
    (Control proxy memory → Control proxy after) ∧
      (task ≠ .upstream → SameFrames proxy memory after) := by
  rw [enter.eq_def] at entered
  split at entered
  · cases entered
    exact ⟨id, fun _ => ⟨rfl, rfl⟩⟩
  · cases entered
    exact ⟨fun control => control.log fun impossible => impossible, fun other => absurd rfl other⟩
  · split_ifs at entered
    rcases Option.map_eq_some_iff.mp entered with ⟨read, -, isAfter⟩
    cases isAfter
    exact ⟨fun control => control.congr rfl rfl rfl rfl, fun _ => ⟨rfl, rfl⟩⟩
  · split_ifs at entered
    cases entered
    exact ⟨fun control => control.congr rfl rfl rfl rfl, fun _ => ⟨rfl, rfl⟩⟩
  · split_ifs at entered
    cases entered
    exact ⟨fun control => control.congr rfl rfl rfl rfl, fun _ => ⟨rfl, rfl⟩⟩
  · split_ifs at entered
    cases entered
    refine ⟨fun control => control.settleCancelled _, fun _ => ?_⟩
    rw [Memory.settleFuture]
    split <;> exact ⟨rfl, rfl⟩
  · cases entered

/-- Every task keeps to its conduct. -/
theorem relayConduct_keeps (proxy : CompatibilityProxy Frame) (printing : Nat → Option String) :
    (relayConduct proxy printing).Keeps
      (fun _ memory entry => entry.Ordinary proxy ∧ entry.Readable proxy memory)
      (fun task _ memory => task = .upstream → Relayed proxy memory) where
  stable holds relied isUpstream := (holds isUpstream).later relied.1 (relied.2 isUpstream)
  rests holds := holds
  initial _ _ := initial_relayed
  enter := by
    intro task memory entry after script admitted idle entered
    have entered : enter proxy task memory entry = some (after, script) := entered
    refine ⟨enter_keeps entered, ?_⟩
    by_cases isUpstream : task = .upstream
    · subst isUpstream
      cases entry with
      | fromAppServer frame observed =>
          cases entered
          have arrived : Arrived proxy frame memory.trace (memory.log (.arrived frame)) :=
            ⟨(idle rfl).control.log fun impossible => impossible, rfl, (idle rfl).frames⟩
          apply (upstreamToClient_relays arrived admitted.1 admitted.2).mono
          exact fun _ _ relayed _ => relayed
      | _ => cases entered
    · have uses := enter_uses isUpstream entered
      have ran : script.Ensures ((relayConduct proxy printing).effects task) (fun _ _ => True)
          after := by
        apply uses.ensures
        · exact fun _ _ _ mayCall => needs_of_mayCall isUpstream mayCall
        · exact fun _ _ _ _ _ _ _ => trivial
        · trivial
      exact ran.mono fun _ _ _ same => absurd same isUpstream

/-- In every order of internal calls, their timeouts and cancellations and the frames that arrive,
exactly the frames that are not responses to internal calls go on to the TUI, as they are and in the
order of their arrival; a response completes the call that issued its id, at most once and no other. -/
theorem relay_transparent
    {world : World (connection Frame) Exit Task (Memory Frame)}
    (reachable : (connectionProcess proxy printing).system.ReachableBy
      (Entering fun _ memory entry => entry.Ordinary proxy ∧ entry.Readable proxy memory) world) :
    forwarded world.memory.trace = due proxy world.memory.trace ∧
      (∀ number message before, .completed number message :: before <:+ world.memory.trace →
        Completes proxy number message before) ∧
      ∀ number message, world.memory.futures number = .result message →
        .completed number message ∈ world.memory.trace := by
  have relayed := Process.Conduct.resting (relayConduct_keeps proxy printing) reachable .upstream rfl
  exact ⟨relayed.frames, relayed.control.completions, relayed.control.results⟩

/-- A notification. -/
private def notice : Json := .obj [("method", .str "turn/started")]

/-- The relay of a notification, without a session bridge. -/
theorem relay_transparent_notice :
    ∃ world, (connectionProcess .plain fun _ => none).system.step
        (connectionProcess .plain fun _ => none).system.initial
        (.enter .upstream (.fromAppServer notice (.ok ()))) = some world ∧
      forwarded world.memory.trace = due CompatibilityProxy.plain world.memory.trace ∧
      (∀ number message before, .completed number message :: before <:+ world.memory.trace →
        Completes CompatibilityProxy.plain number message before) ∧
      ∀ number message, world.memory.futures number = .result message →
        .completed number message ∈ world.memory.trace := by
  have ordinary : (Entry.fromAppServer notice (.ok ())).Ordinary CompatibilityProxy.plain := by
    refine ⟨rfl, ?_⟩
    intro message decoded response
    cases decoded
    cases response
  have readable : (Entry.fromAppServer notice (.ok ())).Readable CompatibilityProxy.plain
      (.initial fun _ => none) := by
    refine ⟨some notice, rfl, ?_⟩
    rintro message ⟨⟩
    exact ⟨rfl, fun _ => rfl⟩
  have steps : ∃ world, (connectionProcess .plain fun _ => none).system.step
      (connectionProcess .plain fun _ => none).system.initial
      (.enter .upstream (.fromAppServer notice (.ok ()))) = some world := ⟨_, rfl⟩
  rcases steps with ⟨world, taken⟩
  exact ⟨world, taken, relay_transparent (Process.reachableBy_enter ⟨ordinary, readable⟩ taken)⟩

/-- A message whose method is an array. -/
private def unhashable : Json := .obj [("method", .arr [])]

/-- The loop ends with `TypeError` when it tests the method, and the frame is not forwarded. -/
theorem relay_stops :
    ∃ world, (connectionProcess .plain fun _ => none).system.ReachableBy
        (Entering fun _ _ entry => entry.Ordinary CompatibilityProxy.plain) world ∧
      forwarded world.memory.trace ≠ due CompatibilityProxy.plain world.memory.trace := by
  have ordinary : (Entry.fromAppServer unhashable (.ok ())).Ordinary CompatibilityProxy.plain := by
    refine ⟨rfl, ?_⟩
    intro message decoded response
    cases decoded
    cases response
  have steps : ∃ world, (connectionProcess .plain fun _ => none).system.step
      (connectionProcess .plain fun _ => none).system.initial
      (.enter .upstream (.fromAppServer unhashable (.ok ()))) = some world ∧
        (forwarded world.memory.trace).length ≠
          (due CompatibilityProxy.plain world.memory.trace).length := ⟨_, rfl, by decide⟩
  rcases steps with ⟨world, taken, different⟩
  exact ⟨world, Process.reachableBy_enter ordinary taken, fun same => different (congrArg List.length same)⟩

end Longrun.Tui
