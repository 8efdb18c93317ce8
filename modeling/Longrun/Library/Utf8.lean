import Mathlib

/-!
# UTF-8 with replacement

A Python string is a sequence of code points, surrogates included. Encoding with `errors="replace"`
writes a question mark for a surrogate. Decoding with `errors="replace"` writes one U+FFFD for every
maximal part of a sequence that cannot be completed, so a decoder needs to remember the sequence it
is in only, and feeding it a stream piece by piece gives what decoding the stream at once gives.
-/

namespace Longrun

/-- A code point; lone surrogates are code points too. -/
abbrev CodePoint := Fin 0x110000

instance CodePoint.instNeZero : NeZero (0x110000 : Nat) := ⟨by decide⟩

instance CodePoint.instLawfulBEq : LawfulBEq CodePoint := inferInstance

/-- A string of Python. -/
abbrev Text := List CodePoint

namespace CodePoint

def replacement : CodePoint := 0xFFFD

def questionMark : CodePoint := 0x3F

def ofNat (value : Nat) : CodePoint :=
  if valid : value < 0x110000 then ⟨value, valid⟩ else replacement

def ofChar (char : Char) : CodePoint := ofNat char.toNat

def IsSurrogate (point : CodePoint) : Prop := 0xD800 ≤ point.val ∧ point.val ≤ 0xDFFF

instance (point : CodePoint) : Decidable point.IsSurrogate :=
  inferInstanceAs (Decidable (_ ∧ _))

/-- What is left of a code point when it is encoded with `errors="replace"`. -/
def encodable (point : CodePoint) : CodePoint := if point.IsSurrogate then questionMark else point

/-- The bytes of one code point. -/
def encode (point : CodePoint) : List UInt8 :=
  let value := point.val
  if value < 0x80 then [.ofNat value]
  else if value < 0x800 then [.ofNat (0xC0 + value / 64), .ofNat (0x80 + value % 64)]
  else if point.IsSurrogate then [.ofNat questionMark.val]
  else if value < 0x10000 then
    [.ofNat (0xE0 + value / 4096), .ofNat (0x80 + value / 64 % 64), .ofNat (0x80 + value % 64)]
  else
    [.ofNat (0xF0 + value / 262144), .ofNat (0x80 + value / 4096 % 64),
      .ofNat (0x80 + value / 64 % 64), .ofNat (0x80 + value % 64)]

@[simp]
theorem ofNat_val (point : CodePoint) : ofNat point.val = point := by
  simp [ofNat]

end CodePoint

namespace Text

def ofString (string : String) : Text := string.toList.map CodePoint.ofChar

/-- `text.encode("utf-8", errors="replace")`. -/
def encode (text : Text) : List UInt8 := text.flatMap CodePoint.encode

@[simp]
theorem encode_nil : encode [] = [] := rfl

@[simp]
theorem encode_cons (point : CodePoint) (text : Text) :
    encode (point :: text) = point.encode ++ encode text := rfl

@[simp]
theorem encode_append (left right : Text) :
    encode (left ++ right) = encode left ++ encode right :=
  List.flatMap_append

end Text

/-! ### Decoding -/

/-- A sequence that has begun: its bits so far, how many bytes it still needs, and the bounds of the
next one. -/
structure Utf8Sequence where
  bits : Nat
  missing : Nat
  lower : Nat
  upper : Nat
  deriving DecidableEq, Repr

/-- An incremental decoder: the sequence it is in. -/
abbrev Utf8Decoder := Option Utf8Sequence

namespace Utf8Decoder

def initial : Utf8Decoder := none

/-- A byte that no sequence waits for. -/
def start (byte : UInt8) : Utf8Decoder × Text :=
  let value := byte.toNat
  if value < 0x80 then (none, [.ofNat value])
  else if 0xC2 ≤ value ∧ value < 0xE0 then (some ⟨value - 0xC0, 1, 0x80, 0xBF⟩, [])
  else if 0xE0 ≤ value ∧ value < 0xF0 then
    -- An overlong form and a surrogate are refused at their second byte.
    (some ⟨value - 0xE0, 2, if value = 0xE0 then 0xA0 else 0x80,
      if value = 0xED then 0x9F else 0xBF⟩, [])
  else if 0xF0 ≤ value ∧ value < 0xF5 then
    (some ⟨value - 0xF0, 3, if value = 0xF0 then 0x90 else 0x80,
      if value = 0xF4 then 0x8F else 0xBF⟩, [])
  else (none, [CodePoint.replacement])

/-- One byte: the sequence the decoder is in afterwards, and what it gives out. -/
def next (decoder : Utf8Decoder) (byte : UInt8) : Utf8Decoder × Text :=
  match decoder with
  | none => start byte
  | some ⟨bits, missing, lower, upper⟩ =>
      if lower ≤ byte.toNat ∧ byte.toNat ≤ upper then
        let extended := bits * 64 + (byte.toNat - 0x80)
        if missing ≤ 1 then (none, [.ofNat extended])
        else (some ⟨extended, missing - 1, 0x80, 0xBF⟩, [])
      else
        -- The part read so far is replaced and the byte is looked at again.
        ((start byte).1, CodePoint.replacement :: (start byte).2)

/-- `decoder.decode(bytes, final=False)`. -/
def decode : Utf8Decoder → List UInt8 → Utf8Decoder × Text
  | decoder, [] => (decoder, [])
  | decoder, byte :: bytes =>
      let (middle, text) := decoder.next byte
      let (last, rest) := middle.decode bytes
      (last, text ++ rest)

/-- `decoder.decode(b"", final=True)`. -/
def finish (decoder : Utf8Decoder) : Text :=
  if decoder.isSome then [CodePoint.replacement] else []

@[simp]
theorem decode_nil (decoder : Utf8Decoder) : decoder.decode [] = (decoder, []) := rfl

theorem decode_cons (decoder : Utf8Decoder) (byte : UInt8) (bytes : List UInt8) :
    decoder.decode (byte :: bytes) =
      (((decoder.next byte).1.decode bytes).1,
        (decoder.next byte).2 ++ ((decoder.next byte).1.decode bytes).2) := rfl

/-- A stream may be decoded in pieces. -/
theorem decode_append (decoder : Utf8Decoder) (left right : List UInt8) :
    decoder.decode (left ++ right) =
      (((decoder.decode left).1.decode right).1,
        (decoder.decode left).2 ++ ((decoder.decode left).1.decode right).2) := by
  induction left generalizing decoder with
  | nil => simp
  | cons byte left ih => simp [decode_cons, ih]

end Utf8Decoder

/-- `bytes.decode("utf-8", errors="replace")`. -/
def decodeUtf8 (bytes : List UInt8) : Text :=
  (Utf8Decoder.initial.decode bytes).2 ++ (Utf8Decoder.initial.decode bytes).1.finish

/-! ### What an encoding decodes to -/

/-- A byte that continues a sequence. -/
def IsContinuation (byte : UInt8) : Prop := 0x80 ≤ byte.toNat ∧ byte.toNat < 0xC0

instance (byte : UInt8) : Decidable (IsContinuation byte) := inferInstanceAs (Decidable (_ ∧ _))

namespace Utf8Decoder

variable {bits missing lower upper value : Nat}

theorem next_initial (byte : UInt8) : next initial byte = start byte := rfl

theorem start_ascii (small : value < 0x80) :
    start (.ofNat value) = (none, [.ofNat value]) := by
  have byte : (UInt8.ofNat value).toNat = value := by
    rw [UInt8.toNat_ofNat']
    omega
  simp [start, byte, small]

theorem start_two (least : 2 ≤ value) (most : value < 0x20) :
    start (.ofNat (0xC0 + value)) = (some ⟨value, 1, 0x80, 0xBF⟩, []) := by
  have byte : (UInt8.ofNat (0xC0 + value)).toNat = 0xC0 + value := by
    rw [UInt8.toNat_ofNat']
    omega
  rw [start, byte, if_neg (by omega), if_pos (by omega)]
  simp

theorem start_three (most : value < 0x10) :
    start (.ofNat (0xE0 + value)) =
      (some ⟨value, 2, if value = 0 then 0xA0 else 0x80, if value = 0xD then 0x9F else 0xBF⟩,
        []) := by
  have byte : (UInt8.ofNat (0xE0 + value)).toNat = 0xE0 + value := by
    rw [UInt8.toNat_ofNat']
    omega
  rw [start, byte, if_neg (by omega), if_neg (by omega), if_pos (by omega)]
  simp only [Nat.add_sub_cancel_left, Nat.add_eq_left, Prod.mk.injEq, Option.some.injEq,
    Utf8Sequence.mk.injEq, and_true, true_and]
  split_ifs <;> first | rfl | omega

theorem start_four (most : value < 5) :
    start (.ofNat (0xF0 + value)) =
      (some ⟨value, 3, if value = 0 then 0x90 else 0x80, if value = 4 then 0x8F else 0xBF⟩,
        []) := by
  have byte : (UInt8.ofNat (0xF0 + value)).toNat = 0xF0 + value := by
    rw [UInt8.toNat_ofNat']
    omega
  rw [start, byte, if_neg (by omega), if_neg (by omega), if_neg (by omega), if_pos (by omega)]
  simp only [Nat.add_sub_cancel_left, Nat.add_eq_left, Prod.mk.injEq, Option.some.injEq,
    Utf8Sequence.mk.injEq, and_true, true_and]
  split_ifs <;> first | rfl | omega

/-- A byte that no sequence waits for but that continues one. -/
theorem start_continuation {byte : UInt8} (continues : IsContinuation byte) :
    start byte = (none, [CodePoint.replacement]) := by
  rcases continues with ⟨least, most⟩
  rw [start, if_neg (by omega), if_neg (by omega), if_neg (by omega), if_neg (by omega)]

theorem next_more (small : value < 64) (least : lower ≤ 0x80 + value)
    (most : 0x80 + value ≤ upper) (more : 2 ≤ missing) :
    next (some ⟨bits, missing, lower, upper⟩) (.ofNat (0x80 + value)) =
      (some ⟨bits * 64 + value, missing - 1, 0x80, 0xBF⟩, []) := by
  have byte : (UInt8.ofNat (0x80 + value)).toNat = 0x80 + value := by
    rw [UInt8.toNat_ofNat']
    omega
  simp only [next, byte]
  rw [if_pos ⟨least, most⟩, if_neg (by omega)]
  simp

theorem next_last (small : value < 64) (least : lower ≤ 0x80 + value)
    (most : 0x80 + value ≤ upper) :
    next (some ⟨bits, 1, lower, upper⟩) (.ofNat (0x80 + value)) =
      (none, [.ofNat (bits * 64 + value)]) := by
  have byte : (UInt8.ofNat (0x80 + value)).toNat = 0x80 + value := by
    rw [UInt8.toNat_ofNat']
    omega
  simp only [next, byte]
  rw [if_pos ⟨least, most⟩]
  simp

/-- Encoding a code point and decoding it again. -/
theorem decode_encode (point : CodePoint) :
    decode initial point.encode = (initial, [point.encodable]) := by
  have valid := point.isLt
  have same (value : Nat) (isValue : value = point.val) : CodePoint.ofNat value = point := by
    rw [isValue, CodePoint.ofNat_val]
  rw [CodePoint.encode]
  split_ifs with one two surrogate three
  · have kept : ¬ point.IsSurrogate := fun surrogate => by
      rcases surrogate with ⟨least, -⟩
      omega
    rw [decode_cons, next_initial, start_ascii one]
    simp [CodePoint.encodable, kept, initial]
  · have kept : ¬ point.IsSurrogate := fun surrogate => by
      rcases surrogate with ⟨least, -⟩
      omega
    rw [decode_cons, next_initial, start_two (by omega) (by omega), decode_cons,
      next_last (by omega) (by omega) (by omega)]
    simp [CodePoint.encodable, kept, initial]
    exact same _ (by omega)
  · have small : CodePoint.questionMark.val < 0x80 := by decide
    rw [decode_cons, next_initial, start_ascii small]
    simp [CodePoint.encodable, surrogate, initial]
  · have apart : ¬ (0xD800 ≤ point.val ∧ point.val ≤ 0xDFFF) := surrogate
    rw [decode_cons, next_initial, start_three (by omega), decode_cons,
      next_more (by omega) (by split <;> omega) (by split <;> omega) le_rfl, decode_cons,
      next_last (by omega) (by omega) (by omega)]
    simp [CodePoint.encodable, surrogate, initial]
    exact same _ (by omega)
  · rw [decode_cons, next_initial, start_four (by omega), decode_cons,
      next_more (by omega) (by split <;> omega) (by split <;> omega) (by omega), decode_cons,
      next_more (by omega) (by omega) (by omega) (by omega), decode_cons,
      next_last (by omega) (by omega) (by omega)]
    simp [CodePoint.encodable, surrogate, initial]
    exact same _ (by omega)

/-- A decoder that is in no sequence reads an encoding and is in no sequence again. -/
theorem decode_encode_text (text : Text) :
    decode initial text.encode = (initial, text.map CodePoint.encodable) := by
  induction text with
  | nil => rfl
  | cons point text ih => simp [decode_append, decode_encode, ih]

/-- Decoding an encoded text. -/
theorem decodeUtf8_encode (text : Text) :
    decodeUtf8 text.encode = text.map CodePoint.encodable := by
  rw [decodeUtf8, decode_encode_text]
  simp [finish, initial]

/-- Continuation bytes outside a sequence are replaced one by one. -/
theorem decode_continuations (bytes : List UInt8)
    (continuing : ∀ byte ∈ bytes, IsContinuation byte) :
    decode initial bytes =
      (initial, List.replicate bytes.length CodePoint.replacement) := by
  induction bytes with
  | nil => rfl
  | cons byte bytes ih =>
      rw [decode_cons, next_initial, start_continuation (continuing byte List.mem_cons_self)]
      have rest := ih fun other mem => continuing other (List.mem_cons_of_mem _ mem)
      simp only [initial] at rest
      simp [rest, List.replicate_succ, initial]

end Utf8Decoder

/-! ### Cutting an encoding -/

theorem CodePoint.encode_length_pos (point : CodePoint) : 0 < point.encode.length := by
  rw [CodePoint.encode]
  split_ifs <;> simp

/-- An encoding is at least as long as the text. -/
theorem Text.length_le_encode (text : Text) : text.length ≤ text.encode.length := by
  induction text with
  | nil => simp
  | cons point text ih =>
      have positive := point.encode_length_pos
      simp only [List.length_cons, Text.encode_cons, List.length_append]
      omega

theorem CodePoint.encode_length_le (point : CodePoint) : point.encode.length ≤ 4 := by
  rw [CodePoint.encode]
  split_ifs <;> simp

theorem isContinuation_ofNat {value : Nat} (small : value < 64) :
    IsContinuation (.ofNat (0x80 + value)) := by
  rw [IsContinuation, UInt8.toNat_ofNat']
  omega

/-- Every byte of a code point but the first continues a sequence. -/
theorem CodePoint.isContinuation_of_mem_tail {point : CodePoint} {byte : UInt8}
    (mem : byte ∈ point.encode.tail) : IsContinuation byte := by
  have small (value : Nat) : value % 64 < 64 := Nat.mod_lt _ (by omega)
  rw [CodePoint.encode] at mem
  split_ifs at mem
  · simp at mem
  · rcases List.mem_singleton.mp mem with rfl
    exact isContinuation_ofNat (small _)
  · simp at mem
  · simp only [List.tail_cons, List.mem_cons, List.not_mem_nil, or_false] at mem
    rcases mem with rfl | rfl <;> exact isContinuation_ofNat (small _)
  · simp only [List.tail_cons, List.mem_cons, List.not_mem_nil, or_false] at mem
    rcases mem with rfl | rfl | rfl <;> exact isContinuation_ofNat (small _)

/-- The first byte of a code point begins a sequence. -/
theorem CodePoint.exists_encode_eq_cons (point : CodePoint) :
    ∃ byte bytes, point.encode = byte :: bytes ∧ ¬ IsContinuation byte := by
  have valid := point.isLt
  have begins (value : Nat) (bounds : value < 0x80 ∨ 0xC0 ≤ value ∧ value < 0x100) :
      ¬ IsContinuation (.ofNat value) := by
    rw [IsContinuation, UInt8.toNat_ofNat']
    omega
  have question : questionMark.val < 0x80 := by decide
  rw [CodePoint.encode]
  split_ifs <;> refine ⟨_, _, rfl, begins _ ?_⟩ <;> omega

@[simp]
theorem CodePoint.encode_encodable (point : CodePoint) : point.encodable.encode = point.encode := by
  rw [CodePoint.encodable]
  split_ifs with surrogate
  · have isLarge := surrogate.1
    rw [CodePoint.encode, CodePoint.encode, if_pos (by decide), if_neg (by omega),
      if_neg (by omega), if_pos surrogate]
  · rfl

@[simp]
theorem Text.encode_map_encodable (text : Text) :
    Text.encode (text.map CodePoint.encodable) = text.encode := by
  induction text with
  | nil => rfl
  | cons point text ih => simp [ih]

/-- A byte below 0x80 is a whole code point. -/
theorem CodePoint.encode_eq_of_mem {point : CodePoint} {byte : UInt8} (mem : byte ∈ point.encode)
    (small : byte.toNat < 0x80) : point.encode = [byte] := by
  have valid := point.isLt
  have large (value : Nat) (bounds : 0x80 ≤ value ∧ value < 0x100) : byte ≠ .ofNat value := by
    rintro rfl
    rw [UInt8.toNat_ofNat'] at small
    omega
  rw [CodePoint.encode] at mem ⊢
  split_ifs at mem ⊢
  all_goals
    simp only [List.mem_cons, List.not_mem_nil, or_false] at mem
  · rw [mem]
  · rcases mem with same | same <;> exact absurd same (large _ (by omega))
  · rw [mem]
  · rcases mem with same | same | same <;> exact absurd same (large _ (by omega))
  · rcases mem with same | same | same | same <;> exact absurd same (large _ (by omega))

/-- How an encoding is cut: whole code points are left, after what is left of one that is cut. -/
structure Text.IsCut (text : Text) (bytes cut : List UInt8) (before rest : Text) : Prop where
  split : text = before ++ rest
  bytes : bytes = cut ++ rest.encode
  continuing : ∀ byte ∈ cut, IsContinuation byte
  partly : cut ≠ [] → ∃ point, before.getLast? = some point ∧ cut.length < point.encode.length

namespace Text

theorem exists_isCut (text : Text) (count : Nat) :
    ∃ cut before rest, text.IsCut (text.encode.drop count) cut before rest := by
  induction text generalizing count with
  | nil => exact ⟨[], [], [], by simp, by simp, by simp, by simp⟩
  | cons point text ih =>
      rcases Nat.eq_zero_or_pos count with rfl | positive
      · exact ⟨[], [], point :: text, by simp, by simp, by simp, by simp⟩
      · rcases Nat.lt_or_ge count point.encode.length with inside | beyond
        · refine ⟨point.encode.drop count, [point], text, by simp, ?_, ?_, ?_⟩
          · rw [encode_cons, List.drop_append_of_le_length inside.le]
          · intro byte mem
            have inTail : byte ∈ point.encode.tail := by
              rw [← List.drop_one]
              exact (List.drop_suffix_drop_left _ positive).mem mem
            exact CodePoint.isContinuation_of_mem_tail inTail
          · intro _
            refine ⟨point, by simp, ?_⟩
            rw [List.length_drop]
            omega
        · rcases ih (count - point.encode.length) with ⟨cut, before, rest, isCut⟩
          refine ⟨cut, point :: before, rest, by simp [isCut.split], ?_, isCut.continuing, ?_⟩
          · rw [encode_cons, List.drop_append, List.drop_of_length_le beyond, List.nil_append,
              isCut.bytes]
          · intro cutShort
            rcases isCut.partly cutShort with ⟨last, isLast, shorter⟩
            refine ⟨last, ?_, shorter⟩
            simp [List.getLast?_cons, isLast]

namespace IsCut

variable {text before rest : Text} {bytes cut : List UInt8}

theorem length_cut (isCut : text.IsCut bytes cut before rest) : cut.length ≤ 3 := by
  rcases cut with _ | ⟨byte, cut⟩
  · simp
  · rcases isCut.partly (by simp) with ⟨point, -, shorter⟩
    have bound := point.encode_length_le
    omega

/-- Every byte of a code point that is cut is replaced, the whole ones are kept. -/
theorem decode (isCut : text.IsCut bytes cut before rest) :
    decodeUtf8 bytes =
      List.replicate cut.length CodePoint.replacement ++ rest.map CodePoint.encodable := by
  rw [decodeUtf8, isCut.bytes, Utf8Decoder.decode_append,
    Utf8Decoder.decode_continuations cut isCut.continuing, Utf8Decoder.decode_encode_text]
  simp [Utf8Decoder.finish, Utf8Decoder.initial]

/-- What is left of a code point that is cut are the continuation bytes in front. -/
theorem takeWhile (isCut : text.IsCut bytes cut before rest) :
    bytes.takeWhile (IsContinuation ·) = cut := by
  rw [isCut.bytes, List.takeWhile_append_of_pos fun byte mem => by
    simpa using isCut.continuing byte mem]
  cases rest with
  | nil => simp
  | cons point rest =>
      rcases point.exists_encode_eq_cons with ⟨byte, others, same, begins⟩
      simp [same, begins]

theorem length_le (isCut : text.IsCut bytes cut before rest) :
    bytes.length ≤ 3 + 4 * rest.length := by
  have size (text : Text) : text.encode.length ≤ 4 * text.length := by
    induction text with
    | nil => simp
    | cons point text ih =>
        have bound := point.encode_length_le
        rw [encode_cons, List.length_append, List.length_cons]
        omega
  have cutSize := isCut.length_cut
  have restSize := size rest
  rw [isCut.bytes, List.length_append]
  omega

end IsCut

end Text

end Longrun
