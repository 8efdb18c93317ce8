import Longrun.Library.Lines

/-!
# The tail that is returned

`_limit_tail` cuts the encoding of a text to its last bytes, decodes what is left and drops
everything up to the first line feed in it, so as not to begin inside a line. It then returns the
last lines, joined. A character that the cut goes through is replaced byte by byte, which makes it
longer, and the first line feed may be the last character.
-/

namespace Longrun.Server

open CodePoint Text

/-- `text[text.find("\n") + 1 :]` when there is a line feed. -/
def dropFirstLine (text : Text) : Text :=
  match text.findIdx? (· = lineFeed) with
  | some firstNewline => text.drop (firstNewline + 1)
  | none => text

/-- `_limit_tail`. -/
def limitTail (text : Text) (maxLines maxBytes : Nat) : Text :=
  let encoded := text.encode
  let text :=
    if encoded.length > maxBytes then dropFirstLine (decodeUtf8 (lastItems maxBytes encoded))
    else text
  if maxLines = 0 then [] else joinLines (lastItems maxLines (splitlines text))

variable {text line : Text} {maxLines maxBytes : Nat}

theorem dropFirstLine_of_not_mem (free : lineFeed ∉ text) : dropFirstLine text = text := by
  have nowhere : text.findIdx? (· = lineFeed) = none := by
    rw [List.findIdx?_eq_none_iff]
    intro point mem
    simpa using fun same : point = lineFeed => free (same ▸ mem)
  rw [dropFirstLine, nowhere]

theorem dropFirstLine_append {front rest : Text} (free : lineFeed ∉ front) :
    dropFirstLine (front ++ lineFeed :: rest) = rest := by
  have nowhere : front.findIdx? (· = lineFeed) = none := by
    rw [List.findIdx?_eq_none_iff]
    intro point mem
    simpa using fun same : point = lineFeed => free (same ▸ mem)
  rw [dropFirstLine, List.findIdx?_append, nowhere]
  simp [List.findIdx?_cons]

/-- The cut of an encoding that is too long, at a whole number of lines or not. -/
def window (text : Text) (maxBytes : Nat) : List UInt8 := text.encode.rtake maxBytes

theorem limitTail_of_fits (fits : text.encode.length ≤ maxBytes) (some : 0 < maxLines) :
    limitTail text maxLines maxBytes = joinLines ((splitlines text).rtake maxLines) := by
  rw [limitTail, if_neg (by omega), if_neg (by omega), lastItems_of_pos some]

theorem limitTail_of_cut (long : maxBytes < text.encode.length) (positive : 0 < maxBytes)
    (some : 0 < maxLines) :
    limitTail text maxLines maxBytes =
      joinLines ((splitlines (dropFirstLine (decodeUtf8 (window text maxBytes)))).rtake
        maxLines) := by
  rw [limitTail, if_pos long, if_neg (by omega), lastItems_of_pos some,
    lastItems_of_pos positive, window]

/-- Where the window begins in the text. -/
theorem exists_isCut_window (text : Text) (maxBytes : Nat) :
    ∃ cut before rest, text.IsCut (window text maxBytes) cut before rest :=
  exists_isCut text _

/-! ### The bounds -/

theorem splitlines_rtake_unbroken (mem : line ∈ (splitlines text).rtake maxLines) :
    Unbroken line :=
  unbroken_of_mem_splitlinesFrom ((rtake_suffix _ _).mem mem)

/-- There are never too many lines. -/
theorem length_splitlines_limitTail (text : Text) (maxLines maxBytes : Nat) :
    (splitlines (limitTail text maxLines maxBytes)).length ≤ maxLines := by
  rcases Nat.eq_zero_or_pos maxLines with rfl | some
  · simp [limitTail, splitlines]
  · rw [limitTail, if_neg (by omega), lastItems_of_pos some]
    refine (length_splitlines_joinLines fun line mem => splitlines_rtake_unbroken mem).trans ?_
    rw [length_rtake]
    exact min_le_left _ _

/-- The continuation bytes in front, of a character that the cut goes through. -/
def strayBytes (text : Text) (maxBytes : Nat) : Nat :=
  ((window text maxBytes).takeWhile (IsContinuation ·)).length

/-- The characters that are whole in the window. -/
def wholeTail (text : Text) (maxBytes : Nat) : Text :=
  decodeUtf8 ((window text maxBytes).drop (strayBytes text maxBytes))

/-- Nothing is cut, or a character that is cut is left out with its line, or the line endings make
up for what its replacement needs. -/
def TailFits (text : Text) (maxLines maxBytes : Nat) : Prop :=
  text.encode.length ≤ maxBytes ∨ lineFeed ∈ wholeTail text maxBytes ∨
    maxLines < (splitlines (wholeTail text maxBytes)).length ∨
    2 * strayBytes text maxBytes ≤ spareBytes (wholeTail text maxBytes)

/-- No code point of a text is a lone surrogate. -/
def Encodable (text : Text) : Prop := ∀ point ∈ text, ¬ point.IsSurrogate

theorem Encodable.map (encodable : Encodable text) : text.map CodePoint.encodable = text := by
  have same : text.map CodePoint.encodable = text.map id :=
    List.map_congr_left fun point mem => if_neg (encodable point mem)
  rw [same, List.map_id]

theorem size_replacements (count : Nat) :
    (Text.encode (List.replicate count replacement)).length = 3 * count := by
  have size : replacement.encode.length = 3 := by decide
  induction count with
  | zero => rfl
  | succ count ih =>
      rw [List.replicate_succ, encode_cons, List.length_append, ih, size]
      omega

theorem unbroken_replacements (count : Nat) : Unbroken (List.replicate count replacement) := by
  intro point mem
  rw [List.eq_of_mem_replicate mem]
  decide

/-- The window of a text without lone surrogates. -/
theorem window_spec (encodable : Encodable text) (long : maxBytes < text.encode.length)
    (some : 3 < maxBytes) :
    wholeTail text maxBytes ≠ [] ∧ strayBytes text maxBytes ≤ 3 ∧
      decodeUtf8 (window text maxBytes) =
        List.replicate (strayBytes text maxBytes) replacement ++ wholeTail text maxBytes ∧
      (wholeTail text maxBytes).encode.length + strayBytes text maxBytes = maxBytes := by
  rcases exists_isCut_window text maxBytes with ⟨cut, before, rest, isCut⟩
  have stray : strayBytes text maxBytes = cut.length := by rw [strayBytes, isCut.takeWhile]
  have kept : Encodable rest := fun point mem =>
    encodable point (isCut.split ▸ List.mem_append_right _ mem)
  have whole : wholeTail text maxBytes = rest := by
    rw [wholeTail, stray, isCut.bytes, List.drop_left, Utf8Decoder.decodeUtf8_encode, kept.map]
  have size : (window text maxBytes).length = maxBytes := by
    rw [window, length_rtake]
    omega
  rw [whole, stray]
  refine ⟨fun none => ?_, isCut.length_cut, ?_, ?_⟩
  · have bound := isCut.length_le
    rw [none, size] at bound
    simp at bound
    omega
  · rw [isCut.decode, kept.map]
  · rw [← size, isCut.bytes, List.length_append, Nat.add_comm]

theorem size_joinLines_rtake (text : Text) (maxLines : Nat) :
    (encode (joinLines ((splitlines text).rtake maxLines))).length ≤ text.encode.length :=
  (size_joinLines_of_suffix (rtake_suffix _ _)).trans (size_joinLines_splitlinesFrom _ _)

/-- Replacements on the first line of a text. -/
theorem splitlines_replaced (count : Nat) (some : text ≠ []) :
    ∃ line lines, splitlines text = line :: lines ∧
      splitlines (List.replicate count replacement ++ text) =
        (List.replicate count replacement ++ line) :: lines := by
  cases split : splitlines text with
  | nil => exact absurd (splitlines_eq_nil_iff.mp split) some
  | cons line lines =>
      refine ⟨line, lines, rfl, ?_⟩
      rw [splitlines_append_of_unbroken (unbroken_replacements count), split,
        foldr_onFirstLine_cons]

/-- What is returned is as short as it should be exactly when the replacement of a cut character is
made up for. -/
theorem limitTail_bounds_iff (encodable : Encodable text) (large : 1024 ≤ maxBytes) :
    (limitTail text maxLines maxBytes).encode.length ≤ maxBytes ∧
      (splitlines (limitTail text maxLines maxBytes)).length ≤ maxLines ↔
    TailFits text maxLines maxBytes := by
  rw [and_iff_left (length_splitlines_limitTail text maxLines maxBytes), TailFits]
  rcases Nat.lt_or_ge maxBytes text.encode.length with long | fits
  case inr =>
    refine iff_of_true ?_ (.inl fits)
    rcases Nat.eq_zero_or_pos maxLines with rfl | some
    · simp [limitTail]
    · rw [limitTail_of_fits fits some]
      exact (size_joinLines_rtake text maxLines).trans fits
  rcases window_spec encodable long (by omega) with ⟨filled, -, decoded, size⟩
  generalize strayBytes text maxBytes = stray at decoded size ⊢
  generalize wholeTail text maxBytes = whole at filled decoded size ⊢
  rw [or_iff_right (by omega)]
  rcases Nat.eq_zero_or_pos maxLines with rfl | some
  case inl =>
    refine iff_of_true (by simp [limitTail]) (.inr (.inl ?_))
    exact List.length_pos_of_ne_nil fun none => filled (splitlines_eq_nil_iff.mp none)
  rw [limitTail_of_cut long (by omega) some, decoded]
  have free : lineFeed ∉ List.replicate stray replacement :=
    (unbroken_replacements stray).lineFeed_not_mem
  rcases Decidable.em (lineFeed ∈ whole) with mem | absent
  case inl =>
    refine iff_of_true ?_ (.inl mem)
    rcases List.eq_append_cons_of_mem mem with ⟨front, rest, rfl, first⟩
    rw [← List.append_assoc, dropFirstLine_append (by simp [free, first])]
    have shorter := size_joinLines_rtake rest maxLines
    rw [encode_append, encode_cons, List.length_append, List.length_append] at size
    omega
  rw [or_iff_right absent, dropFirstLine_of_not_mem (by simp [free, absent])]
  rcases splitlines_replaced stray filled with ⟨line, lines, split, replaced⟩
  rw [replaced, split, List.length_cons]
  rcases Nat.lt_or_ge maxLines (lines.length + 1) with more | all
  case inl =>
    refine iff_of_true ?_ (.inl more)
    -- The first line, and with it every replacement, is left out.
    rw [rtake_cons_of_le (by omega)]
    have shorter : (encode (joinLines (lines.rtake maxLines))).length ≤
        (encode (joinLines (splitlines whole))).length := by
      rw [split]
      exact size_joinLines_of_suffix ((rtake_suffix _ _).trans (List.suffix_cons _ _))
    have joined := size_joinLines_splitlinesFrom false whole
    rw [splitlines] at shorter
    omega
  rw [or_iff_right (by omega), rtake_of_length_le (by simpa using all)]
  have joined := size_joinLines_splitlines absent
  have sameJoin : joinLines ((List.replicate stray replacement ++ line) :: lines) =
      List.replicate stray replacement ++ joinLines (splitlines whole) := by
    rw [split]
    cases lines <;> simp
  rw [sameJoin, encode_append, List.length_append, size_replacements]
  omega

/-- A text that is cut: only its last 1024 characters are returned. -/
theorem limitTail_bounds_long :
    (limitTail (List.replicate 2000 0x61) 80 1024).encode.length ≤ 1024 ∧
        (splitlines (limitTail (List.replicate 2000 0x61) 80 1024)).length ≤ 80 ↔
      TailFits (List.replicate 2000 0x61) 80 1024 :=
  limitTail_bounds_iff (fun _ mem => by
    rw [List.eq_of_mem_replicate mem]
    simp [IsSurrogate]) (by omega)

/-- The last byte of a euro sign is left, and its replacement needs three. -/
theorem limitTail_exceeds :
    ¬ ((limitTail (List.replicate 342 0x20AC) 1 1024).encode.length ≤ 1024 ∧
      (splitlines (limitTail (List.replicate 342 0x20AC) 1 1024)).length ≤ 1) := by
  decide +kernel

/-! ### The last line -/

/-- The last line of what is returned is the end of the last line of the text, after the
replacements of one character that is cut at most. Encoding may have replaced lone surrogates. -/
def KeepsEnd (text line result : Text) : Prop :=
  result ≠ [] ∧ ∃ last marks suffix, (splitlines result).getLast? = some last ∧
    (last = marks ++ suffix ∨ last = marks ++ suffix.map CodePoint.encodable) ∧
    suffix ≠ [] ∧ suffix <:+ line ∧
    (∀ mark ∈ marks, mark = replacement) ∧
    (marks ≠ [] → ∃ before point after, text = before ++ point :: (suffix ++ after) ∧
      marks.length < point.encode.length)

/-- The only line feed in the window is its last byte. -/
def EndLost (text : Text) (maxBytes : Nat) : Prop :=
  text.encode.length > maxBytes ∧ (window text maxBytes).getLast? = some 0x0A ∧
    0x0A ∉ (window text maxBytes).dropLast

instance (text : Text) (maxBytes : Nat) : Decidable (EndLost text maxBytes) :=
  inferInstanceAs (Decidable (_ ∧ _ ∧ _))

/-- The last of the returned lines is the last line of the text that they are taken from. -/
theorem getLast?_joinLines_rtake (last : (splitlines text).getLast? = some line)
    (filled : line ≠ []) (some : 0 < maxLines) :
    (splitlines (joinLines ((splitlines text).rtake maxLines))).getLast? = .some line := by
  have more : splitlines text ≠ [] := fun none => by simp [none] at last
  have same : ((splitlines text).rtake maxLines).getLast? = .some line := by
    rw [rtake_eq_drop, List.getLast?_drop, if_neg, last]
    have positive := List.length_pos_of_ne_nil more
    omega
  rw [splitlines_joinLines fun line mem => splitlines_rtake_unbroken mem, same,
    if_neg (by simpa using filled), same]

variable {front ending before rest : Text} {bytes cut : List UInt8}

/-- A window that begins inside the last line, or at its beginning. -/
theorem lastLine_inside (isCut : text.IsCut bytes cut before rest)
    (isLast : IsLastLine text front line ending) {suffix : Text} (split : rest = suffix ++ ending)
    (filled : suffix ≠ []) (isSuffix : suffix <:+ line) :
    IsLastLine (decodeUtf8 bytes) []
      (List.replicate cut.length replacement ++ suffix.map CodePoint.encodable) ending := by
  constructor
  · rw [isCut.decode, split, List.map_append, map_encodable_ending isLast.ends]
    simp
  · exact beginsLine_nil
  · exact (unbroken_replacements _).append (isLast.unbroken.of_suffix isSuffix).map
  · simp [filled]
  · exact isLast.ends

/-- A window that begins before the last line. -/
theorem lastLine_after (isCut : text.IsCut bytes cut before rest)
    (isLast : IsLastLine text front line ending) {more : Text}
    (split : rest = more ++ (line ++ ending)) (filled : more ≠ []) (isSuffix : more <:+ front) :
    IsLastLine (decodeUtf8 bytes)
      (List.replicate cut.length replacement ++ more.map CodePoint.encodable)
      (line.map CodePoint.encodable) ending := by
  rcases isSuffix with ⟨less, rfl⟩
  constructor
  · rw [isCut.decode, split, List.map_append, List.map_append, map_encodable_ending isLast.ends,
      List.append_assoc]
  · exact isLast.begins.of_append.map.append (by simpa using filled)
  · exact isLast.unbroken.map
  · simpa using isLast.filled
  · exact isLast.ends

/-- The last line of the window is what is left of the last line of the text. -/
theorem exists_lastLine_window (isCut : text.IsCut bytes cut before rest)
    (isLast : IsLastLine text front line ending) (long : 2 < rest.length) :
    ∃ windowFront marks suffix,
      IsLastLine (decodeUtf8 bytes) windowFront (marks ++ suffix.map CodePoint.encodable) ending ∧
      suffix ≠ [] ∧ suffix <:+ line ∧ (∀ mark ∈ marks, mark = replacement) ∧
      (marks ≠ [] → ∃ before point after, text = before ++ point :: (suffix ++ after) ∧
        marks.length < point.encode.length) := by
  have inside (suffix : Text) (split : rest = suffix ++ ending) (isSuffix : suffix <:+ line) :
      ∃ windowFront marks suffix,
        IsLastLine (decodeUtf8 bytes) windowFront (marks ++ suffix.map CodePoint.encodable)
          ending ∧
        suffix ≠ [] ∧ suffix <:+ line ∧ (∀ mark ∈ marks, mark = replacement) ∧
        (marks ≠ [] → ∃ before point after, text = before ++ point :: (suffix ++ after) ∧
          marks.length < point.encode.length) := by
    have short := isLast.ends.length_le
    have filled : suffix ≠ [] := fun none => by
      rw [split, none, List.nil_append] at long
      omega
    refine ⟨[], _, suffix, lastLine_inside isCut isLast split filled isSuffix, filled, isSuffix,
      fun mark mem => List.eq_of_mem_replicate mem, fun marked => ?_⟩
    have some : cut ≠ [] := fun none => marked (by simp [none])
    rcases isCut.partly some with ⟨point, isPoint, shorter⟩
    rcases List.getLast?_eq_some_iff.mp isPoint with ⟨earlier, isBefore⟩
    refine ⟨earlier, point, ending, ?_, by simpa using shorter⟩
    rw [isCut.split, isBefore, split]
    simp
  have whole := isCut.split.symm.trans isLast.split
  rcases List.append_eq_append_iff.mp whole with ⟨more, isFront, isRest⟩ | ⟨gone, -, isRest⟩
  · rcases Decidable.em (more = []) with rfl | filled
    · exact inside line (by simpa using isRest) List.suffix_rfl
    · exact ⟨_, [], line, lastLine_after isCut isLast isRest filled ⟨before, isFront.symm⟩,
        isLast.filled, List.suffix_rfl, by simp, by simp⟩
  · rcases List.append_eq_append_iff.mp isRest with ⟨beyond, -, isEnding⟩ | ⟨suffix, isLine, split⟩
    · have short := isLast.ends.length_le
      rw [isEnding, List.length_append] at short
      omega
    · exact inside suffix split ⟨gone, isLine.symm⟩

/-- The byte of a line feed is in the encoding of a line feed only. -/
theorem lineFeed_mem_encode_iff {point : CodePoint} :
    0x0A ∈ point.encode ↔ point.encodable = lineFeed := by
  constructor
  · intro mem
    have alone := CodePoint.encode_eq_of_mem mem (by decide)
    have decoded := Utf8Decoder.decode_encode point
    rw [alone] at decoded
    have read : (Utf8Decoder.initial.decode [0x0A]).2 = [lineFeed] := by decide
    have output := congrArg Prod.snd decoded
    rw [read] at output
    simpa using output.symm
  · intro same
    rw [← encode_encodable, same, encode_lineFeed]
    exact List.mem_singleton.mpr rfl

theorem lineFeed_mem_iff : 0x0A ∈ Text.encode text ↔ lineFeed ∈ text.map CodePoint.encodable := by
  simp only [Text.encode, List.mem_flatMap, lineFeed_mem_encode_iff, List.mem_map]

/-- The bytes of a window end with its only line feed exactly when what they decode to does. -/
theorem endsWithLineFeed_iff (isCut : text.IsCut bytes cut before rest) (filled : rest ≠ []) :
    bytes.getLast? = some 0x0A ∧ 0x0A ∉ bytes.dropLast ↔
      ∃ first, decodeUtf8 bytes = first ++ [lineFeed] ∧ lineFeed ∉ first := by
  rcases List.eq_nil_or_concat rest with none | ⟨more, point, rfl⟩
  · exact absurd none filled
  have some : point.encode ≠ [] := List.ne_nil_of_length_pos point.encode_length_pos
  have isBytes : bytes = cut ++ Text.encode more ++ point.encode := by
    rw [isCut.bytes]
    simp
  have isDecoded : decodeUtf8 bytes =
      List.replicate cut.length replacement ++ more.map CodePoint.encodable ++
        [point.encodable] := by
    rw [isCut.decode]
    simp
  have outside : 0x0A ∉ cut := fun mem => absurd (isCut.continuing _ mem) (by decide)
  have absent_iff : 0x0A ∉ cut ++ Text.encode more ↔
      lineFeed ∉ List.replicate cut.length replacement ++ more.map CodePoint.encodable := by
    have other := (unbroken_replacements cut.length).lineFeed_not_mem
    rw [List.mem_append, List.mem_append, or_iff_right outside, or_iff_right other,
      lineFeed_mem_iff]
  have drop_eq (same : point.encodable = lineFeed) : bytes.dropLast = cut ++ Text.encode more := by
    have alone : point.encode = [0x0A] := by rw [← encode_encodable, same, encode_lineFeed]
    rw [isBytes, alone, List.dropLast_concat]
  rw [isDecoded]
  constructor
  · rintro ⟨isLast, absent⟩
    rw [isBytes, List.getLast?_append_of_ne_nil _ some] at isLast
    have same := lineFeed_mem_encode_iff.mp (List.mem_of_getLast? isLast)
    rw [drop_eq same] at absent
    exact ⟨_, by rw [same], absent_iff.mp absent⟩
  · rintro ⟨first, split, absent⟩
    rcases List.append_inj' split rfl with ⟨rfl, last⟩
    have same : point.encodable = lineFeed := by simpa using last
    rw [drop_eq same]
    refine ⟨?_, absent_iff.mpr absent⟩
    rw [isBytes, List.getLast?_append_of_ne_nil _ some, ← encode_encodable, same, encode_lineFeed]
    rfl

/-- Nothing follows a line feed that is not before the last line. -/
theorem eq_nil_of_lineFeed_after {first : Text} (unbroken : Unbroken line) (ends : IsEnding ending)
    (split : line ++ ending = first ++ lineFeed :: rest) : rest = [] := by
  have inEnding (more : Text) (isEnding : ending = more ++ lineFeed :: rest) : rest = [] := by
    have short := ends.length_le
    rcases ends with rfl | ⟨point, -, rfl⟩ | rfl
    · simp at isEnding
    · have length := congrArg List.length isEnding
      simp only [List.length_append, List.length_cons, List.length_nil] at length
      exact List.eq_nil_of_length_eq_zero (by omega)
    · rcases more with _ | ⟨_, more⟩
      · exact absurd (List.cons.inj isEnding).1 (by decide)
      · have length := congrArg List.length isEnding
        simp only [List.length_append, List.length_cons, List.length_nil] at length
        exact List.eq_nil_of_length_eq_zero (by omega)
  rcases List.append_eq_append_iff.mp split with ⟨more, -, isEnding⟩ | ⟨more, isLine, isRest⟩
  · exact inEnding more isEnding
  · cases more with
    | nil => exact inEnding [] isRest.symm
    | cons point more =>
        rcases List.cons.inj isRest with ⟨rfl, -⟩
        exact absurd (by simp [isLine]) unbroken.lineFeed_not_mem

/-- What a last line keeps when everything up to a line feed before it is dropped. -/
theorem exists_isLastLine_of_lineFeed {first : Text} (isLast : IsLastLine text front line ending)
    (split : text = first ++ lineFeed :: rest) (filled : rest ≠ []) :
    ∃ front, IsLastLine rest front line ending := by
  have whole := isLast.split.symm.trans split
  rcases List.append_eq_append_iff.mp whole with ⟨more, -, isEnd⟩ | ⟨more, isFront, isRest⟩
  · exact absurd (eq_nil_of_lineFeed_after isLast.unbroken isLast.ends isEnd) filled
  · cases more with
    | nil =>
        have isEnd : line ++ ending = [] ++ lineFeed :: rest := isRest.symm
        exact absurd (eq_nil_of_lineFeed_after isLast.unbroken isLast.ends isEnd) filled
    | cons point more =>
        rcases List.cons.inj isRest with ⟨rfl, others⟩
        refine ⟨more, others, ?_, isLast.unbroken, isLast.filled, isLast.ends⟩
        have begins := isLast.begins
        rw [isFront, List.append_cons] at begins
        exact begins.of_append

/-- The end of the output is kept exactly when the window does not end with its only line feed. -/
theorem limitTail_keepsEnd_iff (last : (splitlines text).getLast? = some line)
    (filled : line ≠ []) (lines : 1 ≤ maxLines) (large : 1024 ≤ maxBytes) :
    KeepsEnd text line (limitTail text maxLines maxBytes) ↔ ¬ EndLost text maxBytes := by
  have kept (result : Text) (marks suffix : Text)
      (isLast : (splitlines result).getLast? = .some (marks ++ suffix) ∨
        (splitlines result).getLast? = .some (marks ++ suffix.map CodePoint.encodable))
      (evidence : suffix ≠ [] ∧ suffix <:+ line ∧ (∀ mark ∈ marks, mark = replacement) ∧
        (marks ≠ [] → ∃ before point after, text = before ++ point :: (suffix ++ after) ∧
          marks.length < point.encode.length)) : KeepsEnd text line result := by
    refine ⟨fun none => by simp [none, splitlines] at isLast, ?_⟩
    rcases isLast with same | same
    · exact ⟨_, marks, suffix, same, .inl rfl, evidence⟩
    · exact ⟨_, marks, suffix, same, .inr rfl, evidence⟩
  rcases Nat.lt_or_ge maxBytes text.encode.length with long | fits
  case inr =>
    refine iff_of_true ?_ fun lost => by
      have long := lost.1
      omega
    rw [limitTail_of_fits fits lines]
    exact kept _ [] line (.inl (getLast?_joinLines_rtake last filled lines))
      ⟨filled, List.suffix_rfl, by simp, by simp⟩
  rcases exists_isCut_window text maxBytes with ⟨cut, before, rest, isCut⟩
  have enough : 2 < rest.length := by
    have bound := isCut.length_le
    have size : (window text maxBytes).length = maxBytes := by
      rw [window, length_rtake]
      omega
    omega
  have some : rest ≠ [] := List.ne_nil_of_length_pos (by omega)
  rcases exists_isLastLine last filled with ⟨front, ending, isLast⟩
  rcases exists_lastLine_window isCut isLast enough with
    ⟨windowFront, marks, suffix, isWindowLast, evidence⟩
  have filledWindow := isWindowLast.filled
  rw [limitTail_of_cut long (by omega) lines, EndLost, endsWithLineFeed_iff isCut some]
  rcases Decidable.em (lineFeed ∈ decodeUtf8 (window text maxBytes)) with mem | absent
  · rcases List.eq_append_cons_of_mem mem with ⟨first, others, split, isFirst⟩
    rw [split, dropFirstLine_append isFirst]
    rcases Decidable.em (others = []) with rfl | more
    · refine iff_of_false ?_ (not_not_intro ⟨long, first, rfl, isFirst⟩)
      rintro ⟨nonempty, -⟩
      exact nonempty (by simp [splitlines, List.rtake])
    · refine iff_of_true ?_ ?_
      · rcases exists_isLastLine_of_lineFeed isWindowLast split more with ⟨_, isOthersLast⟩
        exact kept _ marks suffix
          (.inr (getLast?_joinLines_rtake isOthersLast.getLast? filledWindow lines)) evidence
      · rintro ⟨-, other, same, isOther⟩
        rcases List.append_eq_append_iff.mp same with ⟨between, isEnd, tail⟩ | ⟨between, isEnd, tail⟩
        · rcases between with _ | ⟨_, between⟩
          · simp at tail
            exact more tail
          · rcases List.cons.inj tail with ⟨rfl, -⟩
            exact isOther (by simp [isEnd])
        · rcases between with _ | ⟨_, between⟩
          · simp at tail
            exact more tail
          · rcases List.cons.inj tail with ⟨-, empty⟩
            simp at empty
  · rw [dropFirstLine_of_not_mem absent]
    refine iff_of_true ?_ ?_
    · exact kept _ marks suffix
        (.inr (getLast?_joinLines_rtake isWindowLast.getLast? filledWindow lines)) evidence
    · rintro ⟨-, first, split, -⟩
      exact absent (by simp [split])

/-- A text that is cut in its first line, with a second one that is kept. -/
def cutText : Text := List.replicate 2000 0x61 ++ [lineFeed, 0x6F, 0x6B]

theorem limitTail_keepsEnd_long :
    KeepsEnd cutText [0x6F, 0x6B] (limitTail cutText 80 1024) ↔ ¬ EndLost cutText 1024 :=
  limitTail_keepsEnd_iff (by decide +kernel) (by simp) (by omega) (by omega)

/-- A last line of 1024 characters and its line feed. -/
theorem limitTail_losesEnd :
    (splitlines (List.replicate 1024 0x61 ++ [lineFeed])).getLast? =
        some (List.replicate 1024 0x61) ∧
      ¬ KeepsEnd (List.replicate 1024 0x61 ++ [lineFeed]) (List.replicate 1024 0x61)
        (limitTail (List.replicate 1024 0x61 ++ [lineFeed]) 80 1024) := by
  have nothing : limitTail (List.replicate 1024 0x61 ++ [lineFeed]) 80 1024 = [] := by
    decide +kernel
  refine ⟨by decide +kernel, fun kept => ?_⟩
  exact kept.1 nothing

end Longrun.Server
