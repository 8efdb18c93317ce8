import Longrun.Library.Lines

/-!
# The output of a job

`_drain_output` reads the output of a command until its end. It writes the bytes to the log up to a
limit, and it feeds the decoded text to an `OutputTracker`, which keeps the last characters and looks
for the two texts that decide between success and failure. The accounting is the same for every way
the output is split into reads. The search is not: the window is cut before it is searched.
-/

namespace Longrun.Server

@[irreducible]
def maxMemoryTailChars : Nat := 64 * 1024

theorem maxMemoryTailChars_pos : 0 < maxMemoryTailChars := by
  rw [maxMemoryTailChars]
  omega

def maxMatchTextLength : Nat := 4096

/-- A text to look for, as `_validate_match_text` lets it through. -/
structure MatchText where
  text : Text
  filled : text ≠ []
  short : text.length ≤ maxMatchTextLength

/-- `_validate_match_text`. -/
def validateMatchText (value : Option Text) (fieldName : String) :
    Except String (Option MatchText) :=
  match value with
  | none => .ok none
  | some text =>
      if empty : text = [] then .ok none
      else if long : text.length > maxMatchTextLength then
        .error s!"{fieldName} exceeds {maxMatchTextLength} characters"
      else .ok (some ⟨text, empty, Nat.le_of_not_gt long⟩)

/-- How a job that ran can end. -/
inductive RunState where
  | succeeded
  | failed
  | timedOut
  | inactiveTimeout
  | successConditionNotMet
  | spawnError
  | cancelled
  deriving DecidableEq, Repr

/-- Why the executor stopped a job. -/
inductive StopReason where
  | timedOut
  | inactiveTimeout
  deriving DecidableEq, Repr

structure OutputTracker where
  maxLogBytes : Nat
  successContains : Option Text
  failureContains : Option Text
  lastOutputAt : ℚ
  suppressOutput : Bool
  bytesSeen : Nat
  bytesWritten : Nat
  logTruncated : Bool
  tailText : Text
  scanText : Text
  successMatch : Option Text
  failureMatch : Option Text

namespace OutputTracker

/-- A tracker with the defaults of its class. -/
def create (maxLogBytes : Nat) (successContains failureContains : Option Text) (startedAt : ℚ)
    (suppressOutput : Bool) : OutputTracker where
  maxLogBytes
  successContains
  failureContains
  lastOutputAt := startedAt
  suppressOutput
  bytesSeen := 0
  bytesWritten := 0
  logTruncated := false
  tailText := []
  scanText := []
  successMatch := none
  failureMatch := none

/-- What a search in the window leaves in `success_match` or `failure_match`. -/
def recognise (contains found : Option Text) (scanText : Text) : Option Text :=
  match contains with
  | some text => if text ≠ [] ∧ found = none ∧ text <:+: scanText then some text else found
  | none => found

/-- `feed_text`, at a reading of the clock. -/
def feedText (tracker : OutputTracker) (text : Text) (rawByteCount : Nat) (now : ℚ) :
    OutputTracker :=
  let tracker :=
    { tracker with lastOutputAt := now, bytesSeen := tracker.bytesSeen + rawByteCount }
  if tracker.suppressOutput then tracker
  else if text = [] then tracker
  else
    let scanText := lastItems maxMemoryTailChars (tracker.scanText ++ text)
    { tracker with
      tailText := lastItems maxMemoryTailChars (tracker.tailText ++ text)
      scanText
      successMatch := recognise tracker.successContains tracker.successMatch scanText
      failureMatch := recognise tracker.failureContains tracker.failureMatch scanText }

end OutputTracker

/-- `_result_state`. -/
def resultState (stopReason : Option StopReason) (exitCode : Option Int) (tracker : OutputTracker) :
    RunState :=
  match stopReason with
  | some .timedOut => .timedOut
  | some .inactiveTimeout => .inactiveTimeout
  | none =>
      if exitCode ≠ some 0 ∨ tracker.failureMatch ≠ none then .failed
      else if tracker.successContains ≠ none ∧ tracker.successMatch = none then
        .successConditionNotMet
      else .succeeded

/-! ### Draining -/

/-- What `stream.read` returned, and the clock when it was fed to the tracker. -/
structure Read where
  chunk : List UInt8
  now : ℚ

/-- The loop of `_drain_output` between two reads. -/
structure Drain where
  decoder : Utf8Decoder
  log : List UInt8
  tracker : OutputTracker

namespace Drain

/-- The loop for one chunk. -/
def next (drain : Drain) (read : Read) : Drain :=
  if drain.tracker.suppressOutput then
    { drain with tracker := drain.tracker.feedText [] read.chunk.length read.now }
  else
    let (decoder, text) := drain.decoder.decode read.chunk
    let tracker := drain.tracker.feedText text read.chunk.length read.now
    let remaining := tracker.maxLogBytes - tracker.bytesWritten
    let part := read.chunk.take remaining
    { decoder
      log := if remaining > 0 then drain.log ++ part else drain.log
      tracker :=
        { tracker with
          bytesWritten :=
            if remaining > 0 then tracker.bytesWritten + part.length else tracker.bytesWritten
          logTruncated := if read.chunk.length > remaining then true else tracker.logTruncated } }

/-- The loop; no bytes are the end of the stream. -/
def loop (drain : Drain) : List Read → Drain
  | [] => drain
  | read :: reads => if read.chunk = [] then drain else (drain.next read).loop reads

/-- After the loop the decoder is flushed. -/
def finish (drain : Drain) (now : ℚ) : List UInt8 × OutputTracker :=
  let finalText := if drain.tracker.suppressOutput then [] else drain.decoder.finish
  (drain.log,
    if finalText = [] then drain.tracker else drain.tracker.feedText finalText 0 now)

end Drain

/-- `_drain_output`: the log file and the tracker. -/
def drainOutput (reads : List Read) (finished : ℚ) (tracker : OutputTracker) :
    List UInt8 × OutputTracker :=
  (Drain.loop ⟨.initial, [], tracker⟩ reads).finish finished

/-- The bytes that reads return. -/
def bytesOf (reads : List Read) : List UInt8 := reads.flatMap Read.chunk

/-- One way in which the reads of `_drain_output` return a stream. -/
structure Splitting (stream : List UInt8) where
  reads : List Read
  joined : bytesOf reads = stream
  bounded : ∀ read ∈ reads, 1 ≤ read.chunk.length ∧ read.chunk.length ≤ 64 * 1024

/-! ### What is kept of a stream -/

@[simp]
theorem bytesOf_nil : bytesOf [] = [] := rfl

@[simp]
theorem bytesOf_append (left right : List Read) :
    bytesOf (left ++ right) = bytesOf left ++ bytesOf right :=
  List.flatMap_append

@[simp]
theorem bytesOf_singleton (read : Read) : bytesOf [read] = read.chunk := by simp [bytesOf]

/-- What a decoder has given out after some bytes. -/
def decoded (bytes : List UInt8) : Text := (Utf8Decoder.initial.decode bytes).2

@[simp]
theorem decoded_nil : decoded [] = [] := rfl

/-- A window that was searched after some of the reads. -/
def Scanned (reads : List Read) (window : Text) : Prop :=
  ∃ front, front <+: reads ∧ window = (decoded (bytesOf front)).rtake maxMemoryTailChars

/-- A match is set exactly when the text is in one of the windows. -/
structure Recognised (contains found : Option Text) (windows : Text → Prop) : Prop where
  sound : ∀ text, found = some text →
    contains = some text ∧ ∃ window, windows window ∧ text <:+: window
  complete : ∀ text, contains = some text → (∃ window, windows window ∧ text <:+: window) →
    found = some text

section Recognition

variable {contains found : Option Text} {windows wider : Text → Prop} {window : Text}

theorem Recognised.congr (recognised : Recognised contains found windows)
    (same : ∀ text window, contains = some text → text <:+: window →
      (windows window ↔ wider window)) : Recognised contains found wider := by
  constructor
  · intro text isFound
    rcases recognised.sound text isFound with ⟨sought, window, scanned, inside⟩
    exact ⟨sought, window, (same text window sought inside).mp scanned, inside⟩
  · rintro text sought ⟨window, scanned, inside⟩
    exact recognised.complete text sought
      ⟨window, (same text window sought inside).mpr scanned, inside⟩

/-- Searching one more window. -/
theorem Recognised.search (recognised : Recognised contains found windows)
    (filled : ∀ text, contains = some text → text ≠ []) :
    Recognised contains (OutputTracker.recognise contains found window)
      fun other => windows other ∨ other = window := by
  cases contains with
  | none =>
      constructor
      · intro text isFound
        rcases recognised.sound text isFound with ⟨sought, -⟩
        cases sought
      · intro text sought
        cases sought
  | some text =>
      have some := filled text rfl
      rw [OutputTracker.recognise]
      split_ifs with fresh
      · constructor
        · rintro _ ⟨⟩
          exact ⟨rfl, window, .inr rfl, fresh.2.2⟩
        · rintro _ ⟨⟩ _
          rfl
      · constructor
        · intro other isFound
          rcases recognised.sound other isFound with ⟨sought, old, scanned, inside⟩
          exact ⟨sought, old, .inl scanned, inside⟩
        · rintro _ ⟨⟩ ⟨other, scanned | rfl, inside⟩
          · exact recognised.complete text rfl ⟨other, scanned, inside⟩
          · cases isFound : found with
            | none => exact absurd ⟨some, isFound, inside⟩ fresh
            | some other =>
                rcases recognised.sound other isFound with ⟨sought, -⟩
                rw [sought]

end Recognition

/-- The tracker of an unsuppressed job that has been fed a text, and the windows searched so far. -/
structure Tracked (settings : OutputTracker) (seen : Text) (windows : Text → Prop)
    (tracker : OutputTracker) : Prop where
  unsuppressed : tracker.suppressOutput = false
  maxLogBytes : tracker.maxLogBytes = settings.maxLogBytes
  successContains : tracker.successContains = settings.successContains
  failureContains : tracker.failureContains = settings.failureContains
  tail : tracker.tailText = seen.rtake maxMemoryTailChars
  scan : tracker.scanText = seen.rtake maxMemoryTailChars
  current : windows (seen.rtake maxMemoryTailChars)
  success : Recognised settings.successContains tracker.successMatch windows
  failure : Recognised settings.failureContains tracker.failureMatch windows

/-- The bytes of an unsuppressed job that the tracker has accounted for. -/
structure Accounted (settings : OutputTracker) (bytes : List UInt8) (log : List UInt8)
    (tracker : OutputTracker) : Prop where
  log : log = bytes.take settings.maxLogBytes
  seen : tracker.bytesSeen = bytes.length
  written : tracker.bytesWritten = min bytes.length settings.maxLogBytes
  truncated : tracker.logTruncated = true ↔ settings.maxLogBytes < bytes.length

namespace OutputTracker

/-- The texts a tracker looks for are not empty. -/
def SeeksText (tracker : OutputTracker) : Prop :=
  (∀ text, tracker.successContains = some text → text ≠ []) ∧
    ∀ text, tracker.failureContains = some text → text ≠ []

variable {tracker : OutputTracker} {text : Text} {count : Nat} {now : ℚ}

@[simp]
theorem feedText_bytesSeen :
    (tracker.feedText text count now).bytesSeen = tracker.bytesSeen + count := by
  rw [feedText]
  split_ifs <;> rfl

@[simp]
theorem feedText_bytesWritten :
    (tracker.feedText text count now).bytesWritten = tracker.bytesWritten := by
  rw [feedText]
  split_ifs <;> rfl

@[simp]
theorem feedText_logTruncated :
    (tracker.feedText text count now).logTruncated = tracker.logTruncated := by
  rw [feedText]
  split_ifs <;> rfl

theorem feedText_nil : tracker.feedText [] count now =
    { tracker with lastOutputAt := now, bytesSeen := tracker.bytesSeen + count } := by
  simp [feedText]

theorem feedText_of_ne_nil (unsuppressed : tracker.suppressOutput = false) (some : text ≠ []) :
    tracker.feedText text count now =
      { tracker with
        lastOutputAt := now
        bytesSeen := tracker.bytesSeen + count
        tailText := (tracker.tailText ++ text).rtake maxMemoryTailChars
        scanText := (tracker.scanText ++ text).rtake maxMemoryTailChars
        successMatch := recognise tracker.successContains tracker.successMatch
          ((tracker.scanText ++ text).rtake maxMemoryTailChars)
        failureMatch := recognise tracker.failureContains tracker.failureMatch
          ((tracker.scanText ++ text).rtake maxMemoryTailChars) } := by
  simp [feedText, unsuppressed, some, lastItems_of_pos maxMemoryTailChars_pos]

end OutputTracker

variable {settings tracker : OutputTracker} {seen text : Text} {windows : Text → Prop}
  {reads : List Read} {read : Read} {drain : Drain} {count : Nat} {now : ℚ}

/-- One call of `feed_text`. -/
theorem Tracked.feedText (tracked : Tracked settings seen windows tracker)
    (seeks : settings.SeeksText) (text : Text) (count : Nat) (now : ℚ) :
    Tracked settings (seen ++ text)
      (fun window => windows window ∨ window = (seen ++ text).rtake maxMemoryTailChars)
      (tracker.feedText text count now) := by
  rcases Decidable.em (text = []) with rfl | some
  · have same (window : Text) : windows window ↔
        windows window ∨ window = (seen ++ []).rtake maxMemoryTailChars := by
      rw [List.append_nil]
      exact ⟨.inl, fun either => either.elim id fun isCurrent => isCurrent ▸ tracked.current⟩
    rw [OutputTracker.feedText_nil]
    constructor
    case current => exact .inr rfl
    case success => exact tracked.success.congr fun _ window _ _ => same window
    case failure => exact tracked.failure.congr fun _ window _ _ => same window
    all_goals simp [tracked.unsuppressed, tracked.maxLogBytes, tracked.successContains,
      tracked.failureContains, tracked.tail, tracked.scan]
  · rw [OutputTracker.feedText_of_ne_nil tracked.unsuppressed some]
    have window : (tracker.scanText ++ text).rtake maxMemoryTailChars =
        (seen ++ text).rtake maxMemoryTailChars := by
      rw [tracked.scan, rtake_rtake_append]
    constructor
    case tail => simp only [tracked.tail, rtake_rtake_append]
    case scan => exact window
    case current => exact .inr rfl
    case success =>
      simp only [window, tracked.successContains]
      exact tracked.success.search seeks.1
    case failure =>
      simp only [window, tracked.failureContains]
      exact tracked.failure.search seeks.2
    all_goals simp [tracked.unsuppressed, tracked.maxLogBytes, tracked.successContains,
      tracked.failureContains]

/-- The loop after some of the reads of an unsuppressed job. -/
structure Drained (settings : OutputTracker) (reads : List Read) (drain : Drain) : Prop where
  tracked : Tracked settings (decoded (bytesOf reads)) (Scanned reads) drain.tracker
  accounted : Accounted settings (bytesOf reads) drain.log drain.tracker
  decoder : drain.decoder = (Utf8Decoder.initial.decode (bytesOf reads)).1

theorem scanned_append : Scanned (reads ++ [read]) = fun window => Scanned reads window ∨
    window = (decoded (bytesOf (reads ++ [read]))).rtake maxMemoryTailChars := by
  funext window
  refine propext ⟨?_, ?_⟩
  · rintro ⟨front, isFront, rfl⟩
    rcases List.prefix_concat_iff.mp isFront with rfl | shorter
    · exact .inr rfl
    · exact .inl ⟨front, shorter, rfl⟩
  · rintro (⟨front, isFront, rfl⟩ | rfl)
    · exact ⟨front, isFront.trans (List.prefix_append _ _), rfl⟩
    · exact ⟨_, List.prefix_rfl, rfl⟩

theorem decoded_append (left right : List UInt8) :
    decoded (left ++ right) =
      decoded left ++ ((Utf8Decoder.initial.decode left).1.decode right).2 := by
  rw [decoded, Utf8Decoder.decode_append, decoded]

/-- The log and the counters after one more chunk. -/
theorem Accounted.chunk {bytes log : List UInt8} {remaining : Nat}
    (accounted : Accounted settings bytes log tracker) (chunk : List UInt8)
    (isRemaining : remaining = settings.maxLogBytes - tracker.bytesWritten) :
    Accounted settings (bytes ++ chunk)
      (if remaining > 0 then log ++ chunk.take remaining else log)
      { tracker with
        bytesSeen := tracker.bytesSeen + chunk.length
        bytesWritten :=
          if remaining > 0 then tracker.bytesWritten + (chunk.take remaining).length
          else tracker.bytesWritten
        logTruncated := if chunk.length > remaining then true else tracker.logTruncated } := by
  rcases accounted with ⟨isLog, seen, written, truncated⟩
  have left : remaining = settings.maxLogBytes - bytes.length := by
    rw [isRemaining, written]
    omega
  constructor
  · rw [List.take_append, ← left, isLog]
    split_ifs with more
    · rfl
    · rw [Nat.eq_zero_of_not_pos more, List.take_zero, List.append_nil]
  · simp [seen]
  · simp only [List.length_take, List.length_append, written]
    split_ifs <;> omega
  · simp only [List.length_append]
    split_ifs with beyond
    · simp only [true_iff]
      omega
    · rw [truncated]
      omega

/-- One chunk. -/
theorem Drained.next (drained : Drained settings reads drain) (seeks : settings.SeeksText)
    (read : Read) : Drained settings (reads ++ [read]) (drain.next read) := by
  rcases drained with ⟨tracked, accounted, decoder⟩
  rw [Drain.next, if_neg (by simp [tracked.unsuppressed])]
  have window : decoded (bytesOf (reads ++ [read])) =
      decoded (bytesOf reads) ++ (drain.decoder.decode read.chunk).2 := by
    rw [bytesOf_append, bytesOf_singleton, decoded_append, decoder]
  have fed := tracked.feedText seeks (drain.decoder.decode read.chunk).2 read.chunk.length read.now
  rw [← window, ← scanned_append] at fed
  have counted := accounted.chunk read.chunk rfl
  constructor
  · exact ⟨fed.unsuppressed, fed.maxLogBytes, fed.successContains, fed.failureContains, fed.tail,
      fed.scan, fed.current, fed.success, fed.failure⟩
  · rw [bytesOf_append, bytesOf_singleton]
    simp only [fed.maxLogBytes, OutputTracker.feedText_bytesWritten,
      OutputTracker.feedText_logTruncated]
    exact ⟨counted.log, by simpa using counted.seen, counted.written, counted.truncated⟩
  · simp only [bytesOf_append, bytesOf_singleton, Utf8Decoder.decode_append, decoder]

/-- The loop over all reads. -/
theorem Drained.loop {rest : List Read} (drained : Drained settings reads drain)
    (bounded : ∀ read ∈ rest, 1 ≤ read.chunk.length)
    (seeks : settings.SeeksText) :
    Drained settings (reads ++ rest) (drain.loop rest) := by
  induction rest generalizing reads drain with
  | nil => simpa [Drain.loop] using drained
  | cons read rest ih =>
      have some : read.chunk ≠ [] := fun none => by
        have length := bounded read List.mem_cons_self
        simp [none] at length
      rw [Drain.loop, if_neg some]
      have after := ih (drained.next seeks read) fun other mem =>
        bounded other (List.mem_cons_of_mem _ mem)
      simpa using after

/-- The loop starts with an empty log and has searched nothing. -/
theorem drained_create (maxLogBytes : Nat) (successContains failureContains : Option Text)
    (startedAt : ℚ) (seeks : (OutputTracker.create maxLogBytes successContains failureContains
      startedAt false).SeeksText) :
    Drained (.create maxLogBytes successContains failureContains startedAt false) []
      ⟨.initial, [], .create maxLogBytes successContains failureContains startedAt false⟩ := by
  have nowhere (contains : Option Text) (filled : ∀ text, contains = some text → text ≠ []) :
      Recognised contains none (Scanned []) := by
    constructor
    · intro text isFound
      cases isFound
    · rintro text sought ⟨window, ⟨front, isFront, rfl⟩, inside⟩
      rcases List.prefix_nil.mp isFront with rfl
      exact absurd (by simpa using inside) (filled text sought)
  constructor
  · exact ⟨rfl, rfl, rfl, rfl, by simp [OutputTracker.create], by simp [OutputTracker.create],
      ⟨[], List.prefix_rfl, rfl⟩, nowhere _ seeks.1, nowhere _ seeks.2⟩
  · exact ⟨by simp, rfl, by simp [OutputTracker.create], by simp [OutputTracker.create]⟩
  · rfl

/-- After the loop the decoder is flushed, and what it gives out is searched too. -/
theorem Drained.finish (drained : Drained settings reads drain) (seeks : settings.SeeksText)
    (now : ℚ) :
    Tracked settings (decodeUtf8 (bytesOf reads))
      (fun window => Scanned reads window ∨
        window = (decodeUtf8 (bytesOf reads)).rtake maxMemoryTailChars) (drain.finish now).2 ∧
    Accounted settings (bytesOf reads) (drain.finish now).1 (drain.finish now).2 := by
  rcases drained with ⟨tracked, accounted, decoder⟩
  have whole : decodeUtf8 (bytesOf reads) = decoded (bytesOf reads) ++ drain.decoder.finish := by
    rw [decodeUtf8, decoder, decoded]
  have fed := tracked.feedText seeks drain.decoder.finish 0 now
  rw [← whole] at fed
  simp only [Drain.finish, tracked.unsuppressed, Bool.false_eq_true, if_false]
  split_ifs with nothing
  · rw [nothing, List.append_nil] at whole
    rw [nothing, OutputTracker.feedText_nil] at fed
    refine ⟨?_, accounted⟩
    exact ⟨fed.unsuppressed, fed.maxLogBytes, fed.successContains, fed.failureContains, fed.tail,
      fed.scan, fed.current, fed.success, fed.failure⟩
  · exact ⟨fed, accounted.log, by simpa using accounted.seen, by simpa using accounted.written,
      by simpa using accounted.truncated⟩

/-- `_drain_output` on the reads of a stream. -/
theorem drainOutput_spec {reads : List Read} (bounded : ∀ read ∈ reads, 1 ≤ read.chunk.length)
    (finished : ℚ) (maxLogBytes : Nat) (successContains failureContains : Option Text)
    (startedAt : ℚ) (seeks : (OutputTracker.create maxLogBytes successContains failureContains
      startedAt false).SeeksText) :
    let settings := OutputTracker.create maxLogBytes successContains failureContains startedAt false
    let drained := drainOutput reads finished settings
    Tracked settings (decodeUtf8 (bytesOf reads))
      (fun window => Scanned reads window ∨
        window = (decodeUtf8 (bytesOf reads)).rtake maxMemoryTailChars) drained.2 ∧
    Accounted settings (bytesOf reads) drained.1 drained.2 := by
  have looped := (drained_create maxLogBytes successContains failureContains startedAt seeks).loop
    bounded seeks
  have finish := looped.finish seeks finished
  rw [List.nil_append] at finish
  exact finish

theorem seeksText_create (maxLogBytes : Nat) (successContains failureContains : Option MatchText)
    (startedAt : ℚ) : (OutputTracker.create maxLogBytes (successContains.map MatchText.text)
      (failureContains.map MatchText.text) startedAt false).SeeksText := by
  have filled (contains : Option MatchText) (text : Text)
      (sought : contains.map MatchText.text = some text) : text ≠ [] := by
    rcases Option.map_eq_some_iff.mp sought with ⟨matchText, -, rfl⟩
    exact matchText.filled
  exact ⟨filled successContains, filled failureContains⟩

/-- What an unsuppressed job keeps of its output does not depend on the reads. -/
theorem drain_accounting {stream : List UInt8} (splitting : Splitting stream) (finished : ℚ)
    (maxLogBytes : Nat) (successContains failureContains : Option MatchText) (startedAt : ℚ) :
    let drained := drainOutput splitting.reads finished
      (.create maxLogBytes (successContains.map MatchText.text)
        (failureContains.map MatchText.text) startedAt false)
    drained.1 = stream.take (min stream.length maxLogBytes) ∧
      drained.2.bytesSeen = stream.length ∧
      drained.2.bytesWritten = min stream.length maxLogBytes ∧
      (drained.2.logTruncated = true ↔ stream.length > maxLogBytes) ∧
      drained.2.tailText = (decodeUtf8 stream).rtake (64 * 1024) := by
  intro drained
  rcases splitting with ⟨reads, rfl, bounded⟩
  rcases drainOutput_spec (fun read mem => (bounded read mem).1) finished maxLogBytes _ _ startedAt
    (seeksText_create maxLogBytes successContains failureContains startedAt) with
    ⟨tracked, accounted⟩
  refine ⟨?_, accounted.seen, accounted.written, accounted.truncated, ?_⟩
  · rw [accounted.log, List.take_eq_take_iff]
    simp [OutputTracker.create, Nat.min_comm]
  · have tail := tracked.tail
    rw [maxMemoryTailChars] at tail
    exact tail

/-! ### What is recognised -/

/-- How many characters have been decoded when some read, or the stream, has ended. -/
def EndsAt (reads : List Read) (count : Nat) : Prop :=
  (∃ front, front <+: reads ∧ count = (decoded (bytesOf front)).length) ∨
    count = (decodeUtf8 (bytesOf reads)).length

/-- Some occurrence of a text is complete at an end that is near enough to its beginning. -/
def SeenWhole (reads : List Read) (text : Text) : Prop :=
  ∃ start ending, EndsAt reads ending ∧ text <+: (decodeUtf8 (bytesOf reads)).drop start ∧
    start + text.length ≤ ending ∧ ending ≤ start + maxMemoryTailChars

/-- A text to look for does not get lost in the reads. -/
def Recognisable (reads : List Read) (contains : Option MatchText) : Prop :=
  ∀ sought, contains = some sought → sought.text <:+: decodeUtf8 (bytesOf reads) →
    SeenWhole reads sought.text

/-- What a search in the whole output finds. -/
def wholeMatch (contains : Option MatchText) (whole : Text) : Option Text :=
  OutputTracker.recognise (contains.map MatchText.text) none whole

/-- The two matches, and with them the state of the job, are those of the whole output. -/
structure RecognisesWhole (successContains failureContains : Option MatchText) (whole : Text)
    (tracker : OutputTracker) : Prop where
  success : tracker.successMatch.isSome = true ↔
    ∃ sought, successContains = some sought ∧ sought.text <:+: whole
  failure : tracker.failureMatch.isSome = true ↔
    ∃ sought, failureContains = some sought ∧ sought.text <:+: whole
  state : ∀ stopReason exitCode, resultState stopReason exitCode tracker =
    resultState stopReason exitCode
      { tracker with
        successMatch := wholeMatch successContains whole
        failureMatch := wholeMatch failureContains whole }

theorem isPrefix_decoded (bytes : List UInt8) : decoded bytes <+: decodeUtf8 bytes :=
  List.prefix_append _ _

/-- The windows of the search and the ends of the reads. -/
theorem seenWhole_iff {reads : List Read} {text : Text} :
    (∃ window, (Scanned reads window ∨
      window = (decodeUtf8 (bytesOf reads)).rtake maxMemoryTailChars) ∧ text <:+: window) ↔
      SeenWhole reads text := by
  have begins (front : List Read) (isFront : front <+: reads) :
      decoded (bytesOf front) <+: decodeUtf8 (bytesOf reads) := by
    rcases isFront with ⟨rest, rfl⟩
    rw [bytesOf_append]
    refine List.IsPrefix.trans ?_ (isPrefix_decoded _)
    rw [decoded_append]
    exact List.prefix_append _ _
  constructor
  · rintro ⟨_, ⟨front, isFront, rfl⟩ | rfl, inside⟩
    · rcases (infix_rtake_iff (begins front isFront)).mp inside with ⟨start, here, least, most⟩
      exact ⟨start, _, .inl ⟨front, isFront, rfl⟩, here, least, most⟩
    · rcases (infix_rtake_iff List.prefix_rfl).mp inside with ⟨start, here, least, most⟩
      exact ⟨start, _, .inr rfl, here, least, most⟩
  · rintro ⟨start, ending, ⟨front, isFront, rfl⟩ | rfl, here, least, most⟩
    · exact ⟨_, .inl ⟨front, isFront, rfl⟩,
        (infix_rtake_iff (begins front isFront)).mpr ⟨start, here, least, most⟩⟩
    · exact ⟨_, .inr rfl, (infix_rtake_iff List.prefix_rfl).mpr ⟨start, here, least, most⟩⟩

theorem SeenWhole.occurs {reads : List Read} {text : Text} (seen : SeenWhole reads text) :
    text <:+: decodeUtf8 (bytesOf reads) := by
  rcases seen with ⟨start, ending, -, here, -⟩
  exact here.isInfix.trans (List.drop_suffix _ _).isInfix

theorem Recognised.isSome_iff {contains : Option MatchText} {found : Option Text}
    {windows : Text → Prop}
    (recognised : Recognised (contains.map MatchText.text) found windows) :
    found.isSome = true ↔
      ∃ sought, contains = some sought ∧ ∃ window, windows window ∧ sought.text <:+: window := by
  rw [Option.isSome_iff_exists]
  constructor
  · rintro ⟨text, isFound⟩
    rcases recognised.sound text isFound with ⟨sought, window, scanned, inside⟩
    rcases Option.map_eq_some_iff.mp sought with ⟨matchText, isSought, rfl⟩
    exact ⟨matchText, isSought, window, scanned, inside⟩
  · rintro ⟨matchText, rfl, window, scanned, inside⟩
    exact ⟨matchText.text, recognised.complete _ rfl ⟨window, scanned, inside⟩⟩

/-- A match that is set exactly when the text occurs is the one of the whole output. -/
theorem Recognised.eq_wholeMatch {contains : Option MatchText} {found : Option Text}
    {windows : Text → Prop} {whole : Text}
    (recognised : Recognised (contains.map MatchText.text) found windows)
    (isWhole : found.isSome = true ↔ ∃ sought, contains = some sought ∧ sought.text <:+: whole) :
    found = wholeMatch contains whole := by
  cases contains with
  | none =>
      have unset : found.isSome ≠ true := fun set => by simpa using isWhole.mp set
      simpa [wholeMatch, OutputTracker.recognise] using unset
  | some sought =>
      simp only [wholeMatch, Option.map_some, OutputTracker.recognise]
      split_ifs with occurs
      · rcases Option.isSome_iff_exists.mp (isWhole.mpr ⟨sought, rfl, occurs.2.2⟩) with
          ⟨text, isFound⟩
        rcases recognised.sound text isFound with ⟨same, -⟩
        rw [isFound, ← same, Option.map_some]
      · rw [← Option.not_isSome_iff_eq_none]
        intro set
        rcases isWhole.mp set with ⟨_, ⟨⟩, inside⟩
        exact occurs ⟨sought.filled, trivial, inside⟩

/-- A match says whether the text occurs exactly when no occurrence gets lost in the reads. -/
theorem Recognised.isWhole_iff {reads : List Read} {contains : Option MatchText}
    {found : Option Text}
    (recognised : Recognised (contains.map MatchText.text) found fun window =>
      Scanned reads window ∨ window = (decodeUtf8 (bytesOf reads)).rtake maxMemoryTailChars) :
    (found.isSome = true ↔ ∃ sought, contains = some sought ∧
      sought.text <:+: decodeUtf8 (bytesOf reads)) ↔ Recognisable reads contains := by
  rw [recognised.isSome_iff]
  simp only [seenWhole_iff]
  constructor
  · rintro same sought rfl occurs
    rcases same.mpr ⟨sought, rfl, occurs⟩ with ⟨_, ⟨⟩, seen⟩
    exact seen
  · intro recognisable
    constructor
    · rintro ⟨sought, rfl, seen⟩
      exact ⟨sought, rfl, seen.occurs⟩
    · rintro ⟨sought, rfl, occurs⟩
      exact ⟨sought, rfl, recognisable sought rfl occurs⟩

/-- The matches are those of the whole output exactly when no occurrence gets lost in the reads. -/
theorem recognisesWhole_iff {stream : List UInt8} (splitting : Splitting stream) (finished : ℚ)
    (maxLogBytes : Nat) (successContains failureContains : Option MatchText) (startedAt : ℚ) :
    RecognisesWhole successContains failureContains (decodeUtf8 stream)
      (drainOutput splitting.reads finished
        (.create maxLogBytes (successContains.map MatchText.text)
          (failureContains.map MatchText.text) startedAt false)).2 ↔
      Recognisable splitting.reads successContains ∧
        Recognisable splitting.reads failureContains := by
  rcases splitting with ⟨reads, rfl, bounded⟩
  rcases drainOutput_spec (fun read mem => (bounded read mem).1) finished maxLogBytes _ _ startedAt
    (seeksText_create maxLogBytes successContains failureContains startedAt) with ⟨tracked, -⟩
  have success := tracked.success
  have failure := tracked.failure
  constructor
  · intro whole
    exact ⟨success.isWhole_iff.mp whole.success, failure.isWhole_iff.mp whole.failure⟩
  · rintro ⟨successful, failing⟩
    have isSuccess := success.isWhole_iff.mpr successful
    have isFailure := failure.isWhole_iff.mpr failing
    refine ⟨isSuccess, isFailure, fun stopReason exitCode => ?_⟩
    rw [← success.eq_wholeMatch isSuccess, ← failure.eq_wholeMatch isFailure]

/-! ### An occurrence that two reads divide -/

/-- `ab` and more characters after it. -/
def dividedText (more : Nat) : Text := 0x61 :: 0x62 :: List.replicate more 0x63

/-- The second letter is read together with everything after it. -/
def dividedReads (more : Nat) : List Read :=
  [⟨[0x61], 0⟩, ⟨0x62 :: List.replicate more 0x63, 0⟩]

variable {more : Nat}

theorem encode_replicate (count : Nat) :
    Text.encode (List.replicate count 0x63) = List.replicate count 0x63 := by
  induction count with
  | zero => rfl
  | succ count ih =>
      rw [List.replicate_succ, Text.encode_cons, ih]
      rfl

theorem bytesOf_dividedReads : bytesOf (dividedReads more) = (dividedText more).encode := by
  rw [dividedText, Text.encode_cons, Text.encode_cons, encode_replicate]
  simp only [dividedReads, bytesOf, List.flatMap_cons, List.flatMap_nil, List.append_nil]
  rfl

theorem decode_dividedText : decodeUtf8 (dividedText more).encode = dividedText more := by
  rw [Utf8Decoder.decodeUtf8_encode]
  simp [dividedText, CodePoint.encodable, CodePoint.IsSurrogate]

/-- What the reads give: at most one letter, or everything. -/
theorem endsAt_divided {ending : Nat} (ends : EndsAt (dividedReads more) ending) :
    ending ≤ 1 ∨ ending = more + 2 := by
  have whole : decoded (dividedText more).encode = dividedText more := by
    rw [decoded, Utf8Decoder.decode_encode_text]
    simp [dividedText, CodePoint.encodable, CodePoint.IsSurrogate]
  rcases ends with ⟨front, isFront, rfl⟩ | rfl
  · rw [dividedReads] at isFront
    rcases List.prefix_cons_iff.mp isFront with rfl | ⟨rest, rfl, isRest⟩
    · simp
    · rcases List.prefix_cons_iff.mp isRest with rfl | ⟨last, rfl, isLast⟩
      · left
        rw [bytesOf_singleton]
        decide
      · right
        rcases List.prefix_nil.mp isLast with rfl
        have all : bytesOf _ = (dividedText more).encode := bytesOf_dividedReads
        rw [dividedReads] at all
        rw [all, whole]
        simp [dividedText]
  · right
    rw [bytesOf_dividedReads, decode_dividedText]
    simp [dividedText]

def dividedSought : MatchText where
  text := [0x61, 0x62]
  filled := by simp
  short := by decide

/-- The text is at the beginning only, and the largest read ends too far from there. -/
theorem not_recognisable_divided (long : maxMemoryTailChars < more + 2) :
    ¬ Recognisable (dividedReads more) (some dividedSought) := by
  intro recognisable
  have occurs := recognisable dividedSought rfl
  rw [SeenWhole, bytesOf_dividedReads, decode_dividedText, dividedSought] at occurs
  rcases occurs ⟨[], List.replicate more 0x63, rfl⟩ with ⟨start, ending, ends, here, least, most⟩
  have atBeginning : start = 0 := by
    cases start with
    | zero => rfl
    | succ start =>
        rw [dividedText, List.drop_succ_cons] at here
        have mem := List.mem_of_mem_drop (here.mem List.mem_cons_self)
        simp [List.mem_replicate] at mem
  simp only [List.length_cons, List.length_nil] at least
  rcases endsAt_divided ends with none | all <;> omega

/-- `ab` is not found when `b` comes with the 65535 bytes after it. -/
def divided : Splitting (dividedText 65535).encode where
  reads := dividedReads 65535
  joined := bytesOf_dividedReads
  bounded := by
    intro read mem
    rcases List.mem_cons.mp mem with rfl | mem
    · simp
    · rcases List.mem_singleton.mp mem with rfl
      simp only [List.length_cons, List.length_replicate]
      omega

theorem recognition_divided :
    ¬ RecognisesWhole (some dividedSought) none (decodeUtf8 (dividedText 65535).encode)
      (drainOutput divided.reads 0
        (.create (1024 * 1024) ((some dividedSought).map MatchText.text)
          (Option.map MatchText.text none) 0 false)).2 := by
  intro whole
  rcases drainOutput_spec (fun read mem => (divided.bounded read mem).1) 0 (1024 * 1024) _ _ 0
    (seeksText_create (1024 * 1024) (some dividedSought) none 0) with ⟨tracked, -⟩
  have isWhole := whole.success
  have same : decodeUtf8 (dividedText 65535).encode = decodeUtf8 (bytesOf divided.reads) := by
    rw [divided.joined]
  rw [same] at isWhole
  have success : Recognised ((some dividedSought).map MatchText.text) _ _ := tracked.success
  refine not_recognisable_divided ?_ (success.isWhole_iff.mp isWhole)
  rw [maxMemoryTailChars]
  omega

end Longrun.Server
