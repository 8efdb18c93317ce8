import Longrun.Library.Base64
import Longrun.Library.JsonText
import Longrun.Secret.Store

/-!
# A pair of secrets

Both handles are claimed and read, and what they contain is written as one JSON object into a file
that exists in memory only. Reads and writes may be short.
-/

namespace Longrun.Secret

/-- `SECRET_ROLE_RE.fullmatch(text)`. -/
def isSecretRole : Text → Bool
  | [] => false
  | first :: rest =>
      (0x61 ≤ first ∧ first ≤ 0x7A) ∧ rest.length ≤ 31 ∧
        rest.all fun point => (0x61 ≤ point ∧ point ≤ 0x7A) ∨ (0x30 ≤ point ∧ point ≤ 0x39) ∨
          point = 0x5F

def validateSecretPair :
    Option (Dict Text SecretId) → Except String (Option (Dict Text SecretId))
  | none => .ok none
  | some value =>
      if value.entries.length ≠ 2 then
        .error "secret stdin pair requires exactly two named handles"
      else if value.entries.any fun (role, handle) => ¬ isSecretRole role ∨ ¬ isSecretId handle then
        .error "secret stdin pair contains an invalid role or handle"
      else if (value.entries.map Prod.snd).dedup.length ≠ 2 then
        .error "secret stdin pair handles must be distinct"
      else .ok (some value)

/-! ### Calls of the operating system -/

/-- How `claim_one_time_secret` ends: it raises, before or after it has removed the name, or it
returns a descriptor of some content. -/
inductive ClaimOutcome where
  | raised (error : String) (unlinked : Bool)
  | opened (content : List UInt8)
  deriving DecidableEq

/-- What the calls of one `claim_secret_pair` meet. A read or write that does not fail moves one byte
and up to the given number more. -/
structure PairCalls where
  hasMemory : Bool
  creates : Bool
  claim : SecretId → ClaimOutcome
  reads : SecretId → Nat → Option Nat
  writes : Nat → Option Nat
  addsSeals : Bool
  sealsApplied : Bool
  seeks : Bool

/-- The descriptors of the process, and the names it has removed. -/
structure Process where
  /-- What the file in memory contains, while its descriptor is open. -/
  memory : Option (List UInt8)
  sources : List SecretId
  unlinked : List SecretId
  deriving DecidableEq

/-- The loop that reads a claimed secret. -/
def readSource (reads : Nat → Option Nat) (maxBytes : Int) (count : Nat) (data rest : List UInt8) :
    Except String (List UInt8) :=
  match reads count with
  | none => .error "OSError"
  | some amount =>
      let size := min 8192 (maxBytes + 1 - data.length)
      if size < 0 then .error "OSError"
      else
        let moved := min (amount + 1) size.toNat
        if rest.take moved = [] then .ok data
        else if (data ++ rest.take moved).length > maxBytes then
          .error "secret stdin pair exceeds size limit"
        else readSource reads maxBytes (count + 1) (data ++ rest.take moved) (rest.drop moved)
termination_by rest.length
decreasing_by
  rename_i filled _
  have positive : 0 < (rest.take moved).length := List.length_pos_iff.mpr filled
  simp only [List.length_take, List.length_drop] at positive ⊢
  omega

/-- The loop that writes into the file in memory. -/
def writeAll (writes : Nat → Option Nat) (count : Nat) (content : List UInt8) :
    List UInt8 → Except String (List UInt8)
  | [] => .ok content
  | byte :: view =>
      match writes count with
      | none => .error "OSError"
      | some amount =>
          writeAll writes (count + 1) (content ++ (byte :: view).take (amount + 1))
            ((byte :: view).drop (amount + 1))
termination_by view => view.length
decreasing_by
  simp only [List.length_drop, List.length_cons]
  omega

/-! ### The pair -/

/-- A handle is claimed and read, and its descriptor is closed whatever happens. -/
def claimSource (calls : PairCalls) (maxBytes : Int) (total : Nat) (handle : SecretId)
    (process : Process) : Except String (List UInt8) × Process :=
  match calls.claim handle with
  | .raised error unlinked =>
      (.error error, if unlinked then { process with unlinked := handle :: process.unlinked }
        else process)
  | .opened content =>
      let opened : Process := { process with
        sources := handle :: process.sources, unlinked := handle :: process.unlinked }
      let closed : Process := { opened with sources := opened.sources.tail }
      match readSource (calls.reads handle) maxBytes 0 [] content with
      | .error error => (.error error, closed)
      | .ok data =>
          if data = [] ∨ (total + data.length : Nat) > maxBytes then
            (.error "secret stdin pair exceeds size limit", closed)
          else (.ok data, closed)

/-- The loop over the handles. -/
def claimFields (calls : PairCalls) (maxBytes : Int) (total : Nat) (fields : List (Text × Text)) :
    List (Text × SecretId) → Process → Except String (List (Text × Text)) × Process
  | [], process => (.ok fields, process)
  | (role, handle) :: handles, process =>
      match claimSource calls maxBytes total handle process with
      | (.error error, process) => (.error error, process)
      | (.ok data, process) =>
          claimFields calls maxBytes (total + data.length)
            (fields ++ [(role, Base64.encode data)]) handles process

open JsonText in
/-- The document that the child reads. -/
def envelope (fields : List (Text × Text)) : Document :=
  .object (sortKeys [
    (.ofString "schemaVersion", .number 1),
    (.ofString "encoding", .string (.ofString "base64")),
    (.ofString "secrets", .object (sortKeys (fields.map fun field => (field.1, .string field.2))))])

/-- `payload`. -/
def encodeEnvelope (fields : List (Text × Text)) : List UInt8 :=
  (JsonText.dumps (envelope fields)).encode ++ [0x0A]

/-- The part of `claim_secret_pair` after the creation of the file in memory. -/
def assemblePair (calls : PairCalls) (maxBytes : Int) (handles : List (Text × SecretId))
    (process : Process) : Except String (List UInt8) × Process :=
  match claimFields calls maxBytes 0 [] handles process with
  | (.error error, process) => (.error error, process)
  | (.ok fields, process) =>
      let payload := encodeEnvelope fields
      if payload.length > maxBytes then
        (.error "secret stdin pair exceeds encoded size limit", process)
      else
        match writeAll calls.writes 0 [] payload with
        | .error error => (.error error, process)
        | .ok content =>
            if ¬ calls.addsSeals then (.error "OSError", process)
            else if ¬ calls.sealsApplied then
              (.error "secret stdin seals were not applied", process)
            else if ¬ calls.seeks then (.error "OSError", process)
            else (.ok content, { process with memory := some content })

/-- `claim_secret_pair`, with what the returned descriptor contains. -/
def claimSecretPair (calls : PairCalls) (maxBytes : Int) (handles : Dict Text SecretId)
    (process : Process) : Except String (List UInt8) × Process :=
  match validateSecretPair (some handles) with
  | .error error => (.error error, process)
  | .ok none => (.error "memory-backed secret stdin is unavailable", process)
  | .ok (some validated) =>
      if ¬ calls.hasMemory then (.error "memory-backed secret stdin is unavailable", process)
      else if ¬ calls.creates then
        (.error "secret stdin pair could not be assembled", process)
      else
        match assemblePair calls maxBytes validated.entries { process with memory := some [] } with
        | (.ok content, process) => (.ok content, process)
        | (.error _, process) =>
            (.error "secret stdin pair could not be assembled", { process with memory := none })

/-! ### Reading and writing -/

section Loops

variable {maxBytes : Int} {data rest content view result : List UInt8}

/-- What the loop has read is all there was, unless even the first read could not ask for a byte. -/
theorem readSource_ok {reads : Nat → Option Nat} {count : Nat} (small : data.length ≤ maxBytes)
    (read : readSource reads maxBytes count data rest = .ok result) :
    result = data ++ rest ∧ result.length ≤ maxBytes := by
  fun_induction readSource reads maxBytes count data rest with
  | case1 => cases read
  | case2 => cases read
  | case3 count data rest amount answer size asks moved nothing =>
      rcases Except.ok.inj read with rfl
      have positive : 0 < moved := by omega
      have isEmpty : rest = [] := by
        rcases List.take_eq_nil_iff.mp nothing with zero | isEmpty
        · omega
        · exact isEmpty
      exact ⟨by simp [isEmpty], small⟩
  | case4 => cases read
  | case5 count data rest amount answer size asks moved something fits ih =>
      rcases ih (by omega) read with ⟨same, small⟩
      refine ⟨?_, small⟩
      rw [same, List.append_assoc, List.take_append_drop]

/-- A secret that fits is read. -/
theorem readSource_of_fits {reads : Nat → Option Nat} (works : ∀ count, reads count ≠ none)
    (count : Nat) (fits : (data ++ rest).length ≤ maxBytes) :
    readSource reads maxBytes count data rest = .ok (data ++ rest) := by
  fun_induction readSource reads maxBytes count data rest with
  | case1 count data rest fails => exact absurd fails (works count)
  | case2 count data rest amount answer size negative =>
      simp only [List.length_append] at fits
      omega
  | case3 count data rest amount answer size asks moved nothing =>
      have positive : 0 < moved := by
        simp only [List.length_append] at fits
        omega
      rcases List.take_eq_nil_iff.mp nothing with zero | isEmpty
      · omega
      · simp [isEmpty]
  | case4 count data rest amount answer size asks moved something large =>
      simp only [List.length_append, List.length_take] at fits large
      omega
  | case5 count data rest amount answer size asks moved something small ih =>
      have whole : data ++ rest.take moved ++ rest.drop moved = data ++ rest := by simp
      rw [whole] at ih
      exact ih fits

/-- What has been written is all there was to write. -/
theorem writeAll_ok {writes : Nat → Option Nat} {count : Nat}
    (written : writeAll writes count content view = .ok result) : result = content ++ view := by
  fun_induction writeAll writes count content view with
  | case1 => exact (by simpa using (Except.ok.inj written).symm)
  | case2 => cases written
  | case3 count content byte view amount answer ih =>
      rw [ih written, List.append_assoc, List.take_append_drop]

theorem writeAll_of_works {writes : Nat → Option Nat} (works : ∀ count, writes count ≠ none)
    (count : Nat) : writeAll writes count content view = .ok (content ++ view) := by
  fun_induction writeAll writes count content view with
  | case1 => simp
  | case2 count content byte view fails => exact absurd fails (works count)
  | case3 count content byte view amount answer ih =>
      rw [ih, List.append_assoc, List.take_append_drop]

end Loops

/-- A reading of a claimed secret never takes the bound of its reads for the end of the file: what it
accepts is the whole file. -/
theorem readSource_whole {reads : Nat → Option Nat} {maxBytes : Int} {source data : List UInt8}
    (bound : 0 ≤ maxBytes) (read : readSource reads maxBytes 0 [] source = .ok data) :
    data = source := by
  have small : (([] : List UInt8).length : Int) ≤ maxBytes := by
    simpa using bound
  simpa using (readSource_ok small read).1

/-! ### The envelope -/

open JsonText

theorem isPlain_of_isCharacter {point : CodePoint} (isCharacter : Base64.IsCharacter point) :
    isPlain point = true := by
  rcases isCharacter with known | rfl
  · simp only [Base64.bits?] at known
    simp only [isPlain, quote, backslash, decide_eq_true_eq, Fin.le_def, ne_eq, Fin.ext_iff]
    split_ifs at known with upper lower digit plus slash
    · simp only [Fin.le_def] at upper
      have bounds : 0x41 ≤ point.val ∧ point.val ≤ 0x5A := upper
      show 0x20 ≤ point.val ∧ point.val ≤ 0x7E ∧ ¬ point.val = 0x22 ∧ ¬ point.val = 0x5C
      omega
    · simp only [Fin.le_def] at lower
      have bounds : 0x61 ≤ point.val ∧ point.val ≤ 0x7A := lower
      show 0x20 ≤ point.val ∧ point.val ≤ 0x7E ∧ ¬ point.val = 0x22 ∧ ¬ point.val = 0x5C
      omega
    · simp only [Fin.le_def] at digit
      have bounds : 0x30 ≤ point.val ∧ point.val ≤ 0x39 := digit
      show 0x20 ≤ point.val ∧ point.val ≤ 0x7E ∧ ¬ point.val = 0x22 ∧ ¬ point.val = 0x5C
      omega
    · subst plus
      decide
    · subst slash
      decide
    · simp at known
  · decide

theorem plainText_encode (bytes : List UInt8) : PlainText (Base64.encode bytes) :=
  fun _ mem => isPlain_of_isCharacter (Base64.isCharacter_of_mem_encode bytes mem)

theorem plainText_of_isSecretRole {role : Text} (valid : isSecretRole role = true) :
    PlainText role := by
  intro point mem
  have between : (0x61 ≤ point ∧ point ≤ 0x7A) ∨ (0x30 ≤ point ∧ point ≤ 0x39) ∨ point = 0x5F := by
    cases role with
    | nil => simp at mem
    | cons first rest =>
        simp only [isSecretRole, decide_eq_true_eq, List.all_eq_true] at valid
        rcases List.mem_cons.mp mem with rfl | mem
        · exact .inl valid.1
        · exact valid.2.2 point mem
  have bounds : (0x61 ≤ point.val ∧ point.val ≤ 0x7A) ∨ (0x30 ≤ point.val ∧ point.val ≤ 0x39) ∨
      point.val = 0x5F := by
    rcases between with letter | digit | rfl
    · exact .inl letter
    · exact .inr (.inl digit)
    · exact .inr (.inr rfl)
  simp only [isPlain, quote, backslash, decide_eq_true_eq, Fin.le_def, ne_eq, Fin.ext_iff]
  show 0x20 ≤ point.val ∧ point.val ≤ 0x7E ∧ ¬ point.val = 0x22 ∧ ¬ point.val = 0x5C
  omega

theorem plain_envelope {fields : List (Text × Text)}
    (plain : ∀ field ∈ fields, PlainText field.1 ∧ PlainText field.2) : Plain (envelope fields) := by
  have literal (text : Text) (isPlain : text.all isPlain = true) : PlainText text :=
    fun point mem => List.all_eq_true.mp isPlain point mem
  rw [envelope, Plain, plainFields_iff]
  intro field mem
  have known := (perm_sortKeys _).mem_iff.mp mem
  simp only [List.mem_cons, List.not_mem_nil, or_false] at known
  rcases known with rfl | rfl | rfl
  · exact ⟨literal _ (by decide), trivial⟩
  · exact ⟨literal _ (by decide), literal _ (by decide)⟩
  · refine ⟨literal _ (by decide), ?_⟩
    rw [Plain, plainFields_iff]
    intro inner innerMem
    rcases List.mem_map.mp ((perm_sortKeys _).mem_iff.mp innerMem) with ⟨field, isField, rfl⟩
    exact plain field isField

theorem decodeUtf8_encodeEnvelope {fields : List (Text × Text)} (plain : Plain (envelope fields)) :
    decodeUtf8 (encodeEnvelope fields) = dumps (envelope fields) ++ [0x0A] := by
  have isText : encodeEnvelope fields = (dumps (envelope fields) ++ [0x0A] : Text).encode := by
    rw [encodeEnvelope, Text.encode_append]
    rfl
  rw [isText, Utf8Decoder.decodeUtf8_encode]
  conv_rhs => rw [← List.map_id (dumps (envelope fields) ++ [0x0A])]
  refine List.map_congr_left fun point mem => ?_
  have isAscii : IsAscii point := by
    rcases List.mem_append.mp mem with mem | mem
    · exact isAscii_dumps _ plain mem
    · rcases List.mem_singleton.mp mem with rfl
      decide
  have notSurrogate : ¬ point.IsSurrogate := fun surrogate =>
    absurd (Nat.lt_of_lt_of_le isAscii (by decide : 0x80 ≤ 0xD800)) (Nat.not_lt.mpr surrogate.1)
  rw [CodePoint.encodable, if_neg notSurrogate, id]

theorem length_le_encodeEnvelope (fields : List (Text × Text)) :
    (fields.map fun field => field.2.length).sum ≤ (encodeEnvelope fields).length := by
  have secrets := length_le_dumps (sortKeys (fields.map fun field => (field.1, .string field.2)))
  have outer := length_le_dumps (sortKeys [
    (.ofString "schemaVersion", .number 1),
    (.ofString "encoding", .string (.ofString "base64")),
    (.ofString "secrets", .object (sortKeys (fields.map fun field => (field.1, .string field.2))))])
  have encoded := Text.length_le_encode (dumps (envelope fields))
  have texts : (fields.map fun field => field.2.length).sum ≤
      ((fields.map fun field => (field.1, Document.string field.2)).map fun field =>
        (dumps field.2).length).sum := by
    rw [List.map_map]
    refine List.sum_le_sum fun field _ => ?_
    simp only [Function.comp_apply, dumps, dumpString, List.cons_append, List.length_cons,
      List.length_append]
    omega
  rw [((perm_sortKeys _).map _).sum_eq] at secrets outer
  simp only [List.map_cons, List.sum_cons, List.map_nil, List.sum_nil] at outer
  rw [← envelope] at outer
  rw [encodeEnvelope, List.length_append]
  omega

/-! ### Claiming both -/

/-- What the envelope contains for the handles and what they stand for. -/
def pairFields (handles : List (Text × SecretId)) (payloads : List (List UInt8)) :
    List (Text × Text) :=
  List.zipWith (fun handle payload => (handle.1, Base64.encode payload)) handles payloads

theorem pairFields_cons (handle : Text × SecretId) (handles : List (Text × SecretId))
    (payload : List UInt8) (payloads : List (List UInt8)) :
    pairFields (handle :: handles) (payload :: payloads) =
      (handle.1, Base64.encode payload) :: pairFields handles payloads := rfl

/-- A handle passes its own claim, and what it stands for is not empty. -/
def Delivers (calls : PairCalls) (handle : Text × SecretId) (payload : List UInt8) : Prop :=
  calls.claim handle.2 = .opened payload ∧ payload ≠ []

/-- The file in memory is created and sealed, and no read or write fails. -/
structure PairCalls.Works (calls : PairCalls) : Prop where
  hasMemory : calls.hasMemory = true
  creates : calls.creates = true
  reads : ∀ handle count, calls.reads handle count ≠ none
  writes : ∀ count, calls.writes count ≠ none
  addsSeals : calls.addsSeals = true
  sealsApplied : calls.sealsApplied = true
  seeks : calls.seeks = true

section Claiming

variable {calls : PairCalls} {maxBytes : Int} {process : Process}

theorem claimSource_ok {total : Nat} {handle : SecretId} {data : List UInt8}
    (claimed : (claimSource calls maxBytes total handle process).1 = .ok data) :
    calls.claim handle = .opened data ∧ data ≠ [] ∧ (total + data.length : Nat) ≤ maxBytes := by
  rw [claimSource] at claimed
  split at claimed
  · cases claimed
  · rename_i content opened
    dsimp only at claimed
    split at claimed
    · cases claimed
    · rename_i read isRead
      split_ifs at claimed with refused
      rcases Except.ok.inj claimed with rfl
      rcases not_or.mp refused with ⟨filled, fits⟩
      have whole := readSource_whole (by omega) isRead
      exact ⟨whole ▸ opened, filled, not_lt.mp fits⟩

theorem claimSource_of_works (works : calls.Works) {total : Nat} {handle : SecretId}
    {data : List UInt8} (opened : calls.claim handle = .opened data) (filled : data ≠ [])
    (fits : (total + data.length : Nat) ≤ maxBytes) :
    (claimSource calls maxBytes total handle process).1 = .ok data := by
  have small : (([] ++ data : List UInt8).length : Int) ≤ maxBytes := by
    simp only [List.nil_append]
    omega
  have accepted : ¬ (data = [] ∨ (total + data.length : Nat) > maxBytes) :=
    not_or.mpr ⟨filled, not_lt.mpr fits⟩
  rw [claimSource, opened]
  dsimp only
  rw [readSource_of_fits (works.reads handle) 0 small]
  simp only [List.nil_append, if_neg accepted]

theorem claimFields_ok {handles : List (Text × SecretId)} {total : Nat}
    {fields result : List (Text × Text)}
    (claimed : (claimFields calls maxBytes total fields handles process).1 = .ok result) :
    ∃ payloads, List.Forall₂ (Delivers calls) handles payloads ∧
      result = fields ++ pairFields handles payloads := by
  induction handles generalizing total fields process with
  | nil =>
      rcases Except.ok.inj claimed with rfl
      exact ⟨[], .nil, by simp [pairFields]⟩
  | cons handle handles ih =>
      rcases handle with ⟨role, handle⟩
      rw [claimFields] at claimed
      rcases isFirst : claimSource calls maxBytes total handle process with ⟨outcome, after⟩
      rw [isFirst] at claimed
      cases outcome with
      | error error => cases claimed
      | ok data =>
          rcases claimSource_ok (congrArg Prod.fst isFirst) with ⟨opened, filled, -⟩
          rcases ih claimed with ⟨payloads, delivered, same⟩
          refine ⟨data :: payloads, .cons ⟨opened, filled⟩ delivered, ?_⟩
          rw [same, pairFields_cons, List.append_assoc, List.singleton_append]

theorem claimFields_of_works (works : calls.Works) {handles : List (Text × SecretId)}
    {payloads : List (List UInt8)} (delivered : List.Forall₂ (Delivers calls) handles payloads)
    {total : Nat} (fits : (total + (payloads.map List.length).sum : Nat) ≤ maxBytes)
    (fields : List (Text × Text)) :
    (claimFields calls maxBytes total fields handles process).1 =
      .ok (fields ++ pairFields handles payloads) := by
  induction delivered generalizing total fields process with
  | nil => simp [claimFields, pairFields]
  | cons first rest ih =>
      rename_i handle payload handles payloads
      rcases handle with ⟨role, handle⟩
      simp only [List.map_cons, List.sum_cons] at fits
      have small : (total + payload.length : Nat) ≤ maxBytes := by omega
      have claimed : (claimSource calls maxBytes total handle process).1 = .ok payload :=
        claimSource_of_works works first.1 first.2 small
      rw [claimFields]
      rcases isFirst : claimSource calls maxBytes total handle process with ⟨outcome, after⟩
      rw [isFirst] at claimed
      rcases claimed with rfl
      dsimp only
      rw [ih (by omega), pairFields_cons, List.append_assoc, List.singleton_append]

theorem assemblePair_ok {handles : List (Text × SecretId)} {content : List UInt8}
    (assembled : (assemblePair calls maxBytes handles process).1 = .ok content) :
    ∃ payloads, List.Forall₂ (Delivers calls) handles payloads ∧
      content = encodeEnvelope (pairFields handles payloads) ∧ content.length ≤ maxBytes := by
  rw [assemblePair] at assembled
  rcases isClaim : claimFields calls maxBytes 0 [] handles process with ⟨outcome, after⟩
  rw [isClaim] at assembled
  cases outcome with
  | error error => cases assembled
  | ok fields =>
      rcases claimFields_ok (congrArg Prod.fst isClaim) with ⟨payloads, delivered, same⟩
      rw [List.nil_append] at same
      dsimp only at assembled
      rcases Decidable.em ((encodeEnvelope fields).length > maxBytes) with large | small
      · rw [if_pos large] at assembled
        cases assembled
      rw [if_neg small] at assembled
      cases isWritten : writeAll calls.writes 0 [] (encodeEnvelope fields) with
      | error error =>
          rw [isWritten] at assembled
          cases assembled
      | ok written =>
          rw [isWritten] at assembled
          dsimp only at assembled
          split_ifs at assembled
          rcases Except.ok.inj assembled with rfl
          have whole := writeAll_ok isWritten
          rw [List.nil_append] at whole
          exact ⟨payloads, delivered, by rw [whole, same], by rw [whole]; omega⟩

theorem assemblePair_of_works (works : calls.Works) {handles : List (Text × SecretId)}
    {payloads : List (List UInt8)} (delivered : List.Forall₂ (Delivers calls) handles payloads)
    (fits : (encodeEnvelope (pairFields handles payloads)).length ≤ maxBytes) :
    (assemblePair calls maxBytes handles process).1 =
      .ok (encodeEnvelope (pairFields handles payloads)) := by
  have encoded := length_le_encodeEnvelope (pairFields handles payloads)
  have raw : (payloads.map List.length).sum ≤
      ((pairFields handles payloads).map fun field => field.2.length).sum := by
    clear fits encoded
    induction delivered with
    | nil => simp
    | cons first rest ih =>
        rename_i handle payload handles payloads
        have longer := Base64.length_le_encode payload
        simp only [pairFields_cons, List.map_cons, List.sum_cons]
        omega
  have small : (0 + (payloads.map List.length).sum : Nat) ≤ maxBytes := by omega
  have claimed : (claimFields calls maxBytes 0 [] handles process).1 =
      .ok (pairFields handles payloads) := by
    simpa using claimFields_of_works works delivered small []
  rw [assemblePair]
  rcases isClaim : claimFields calls maxBytes 0 [] handles process with ⟨outcome, after⟩
  rw [isClaim] at claimed
  rcases claimed with rfl
  dsimp only
  rw [if_neg (not_lt.mpr fits), writeAll_of_works works.writes]
  simp [works.addsSeals, works.sealsApplied, works.seeks]

end Claiming

/-- What the child finds in the envelope under a role. -/
theorem envelope_get? {fields : List (Text × Text)} (distinct : (fields.map Prod.fst).Nodup) :
    (envelope fields).get? (.ofString "schemaVersion") = some (.number 1) ∧
    (envelope fields).get? (.ofString "encoding") = some (.string (.ofString "base64")) ∧
    ∃ secrets, (envelope fields).get? (.ofString "secrets") = some secrets ∧
      ∀ role text, (role, text) ∈ fields → secrets.get? role = some (.string text) := by
  have keys : ([(Text.ofString "schemaVersion", Document.number 1),
      (Text.ofString "encoding", Document.string (Text.ofString "base64")),
      (Text.ofString "secrets", Document.object (sortKeys (fields.map fun field =>
        (field.1, Document.string field.2))))].map Prod.fst).Nodup := by
    simp only [List.map_cons, List.map_nil]
    decide
  have third {first second document : Text × Document} : document ∈ [first, second, document] :=
    List.mem_cons_of_mem _ (List.mem_cons_of_mem _ List.mem_cons_self)
  refine ⟨get?_sortKeys keys List.mem_cons_self,
    get?_sortKeys keys (List.mem_cons_of_mem _ List.mem_cons_self), _,
    get?_sortKeys keys third, ?_⟩
  intro role text mem
  refine get?_sortKeys ?_ (List.mem_map.mpr ⟨(role, text), mem, rfl⟩)
  rw [List.map_map]
  exact distinct

theorem pairFields_spec {calls : PairCalls} {handles : List (Text × SecretId)}
    {payloads : List (List UInt8)} (delivered : List.Forall₂ (Delivers calls) handles payloads) :
    (pairFields handles payloads).map Prod.fst = handles.map Prod.fst ∧
    (∀ field ∈ pairFields handles payloads, PlainText field.2) ∧
    ∀ role handle, (role, handle) ∈ handles → ∃ payload, calls.claim handle = .opened payload ∧
      (role, Base64.encode payload) ∈ pairFields handles payloads := by
  induction delivered with
  | nil => simp [pairFields]
  | cons first rest ih =>
      rename_i handle payload handles payloads
      rcases ih with ⟨keys, texts, found⟩
      refine ⟨by simp [pairFields_cons, keys], ?_, ?_⟩
      · intro field mem
        rcases List.mem_cons.mp mem with rfl | mem
        · exact plainText_encode payload
        · exact texts field mem
      · intro role other mem
        rcases List.mem_cons.mp mem with rfl | mem
        · exact ⟨payload, first.1, List.mem_cons_self⟩
        · rcases found role other mem with ⟨staged, opened, isField⟩
          exact ⟨staged, opened, List.mem_cons_of_mem _ isField⟩

/-- A valid pair has valid roles. -/
theorem isSecretRole_of_valid {handles : Dict Text SecretId}
    (valid : validateSecretPair (some handles) = .ok (some handles)) :
    ∀ entry ∈ handles.entries, isSecretRole entry.1 = true := by
  rw [validateSecretPair] at valid
  split_ifs at valid with counted refused
  intro entry mem
  have fine := List.any_eq_false.mp (eq_false_of_ne_true refused) entry mem
  simp only [decide_eq_true_eq, not_or, not_not] at fine
  exact fine.1

/-- A descriptor is returned just when both handles pass their claims, neither stands for nothing and
the envelope fits, and then reading the descriptor gives back what was staged. -/
theorem claimSecretPair_roundTrip {calls : PairCalls} (works : calls.Works)
    {handles : Dict Text SecretId}
    (valid : validateSecretPair (some handles) = .ok (some handles)) (maxBytes : Int)
    (process : Process) :
    ((∃ content, (claimSecretPair calls maxBytes handles process).1 = .ok content) ↔
      ∃ payloads, List.Forall₂ (Delivers calls) handles.entries payloads ∧
        (encodeEnvelope (pairFields handles.entries payloads)).length ≤ maxBytes) ∧
    (∀ content, (claimSecretPair calls maxBytes handles process).1 = .ok content →
      ∃ document secrets, loads (decodeUtf8 content) = some document ∧
        document.get? (.ofString "schemaVersion") = some (.number 1) ∧
        document.get? (.ofString "encoding") = some (.string (.ofString "base64")) ∧
        document.get? (.ofString "secrets") = some secrets ∧
        ∀ role handle, (role, handle) ∈ handles.entries → ∃ payload text,
          calls.claim handle = .opened payload ∧ secrets.get? role = some (.string text) ∧
          Base64.decode text = some payload) ∧
    (0 ≤ maxBytes → ∀ handle source data,
      readSource (calls.reads handle) maxBytes 0 [] source = .ok data → data = source) := by
  have reduces : (claimSecretPair calls maxBytes handles process).1 =
      match (assemblePair calls maxBytes handles.entries { process with memory := some [] }).1 with
      | .ok content => .ok content
      | .error _ => .error "secret stdin pair could not be assembled" := by
    rw [claimSecretPair, valid]
    simp only [works.hasMemory, works.creates, not_true_eq_false, if_false]
    rcases assemblePair calls maxBytes handles.entries { process with memory := some [] } with
      ⟨outcome, after⟩
    cases outcome <;> rfl
  have assembled_of {content : List UInt8}
      (returned : (claimSecretPair calls maxBytes handles process).1 = .ok content) :
      (assemblePair calls maxBytes handles.entries { process with memory := some [] }).1 =
        .ok content := by
    rw [reduces] at returned
    split at returned
    · rename_i assembled
      exact assembled.trans returned
    · cases returned
  refine ⟨⟨?_, ?_⟩, ?_, fun bound handle source data => readSource_whole bound⟩
  · rintro ⟨content, returned⟩
    rcases assemblePair_ok (assembled_of returned) with ⟨payloads, delivered, same, fits⟩
    exact ⟨payloads, delivered, same ▸ fits⟩
  · rintro ⟨payloads, delivered, fits⟩
    exact ⟨_, by rw [reduces, assemblePair_of_works works delivered fits]⟩
  · intro content returned
    rcases assemblePair_ok (assembled_of returned) with ⟨payloads, delivered, rfl, -⟩
    rcases pairFields_spec delivered with ⟨keys, texts, found⟩
    have plain : Plain (envelope (pairFields handles.entries payloads)) := by
      refine plain_envelope fun field mem => ⟨?_, texts field mem⟩
      have isRole : field.1 ∈ handles.entries.map Prod.fst := keys ▸ List.mem_map_of_mem mem
      rcases List.mem_map.mp isRole with ⟨entry, isEntry, same⟩
      exact same ▸ plainText_of_isSecretRole (isSecretRole_of_valid valid entry isEntry)
    rcases envelope_get? (keys ▸ handles.keys_nodup) with ⟨version, encoding, secrets, isSecrets, fields⟩
    refine ⟨_, secrets, ?_, version, encoding, isSecrets, ?_⟩
    · rw [decodeUtf8_encodeEnvelope plain, loads_dumps plain]
    · intro role handle mem
      rcases found role handle mem with ⟨payload, opened, isField⟩
      exact ⟨payload, _, opened, fields role _ isField, Base64.decode_encode payload⟩

/-- Calls that read and write one byte at a time. -/
def Scenario.pairCalls : PairCalls where
  hasMemory := true
  creates := true
  claim _ := .opened [0x70, 0xFF]
  reads _ _ := some 0
  writes _ := some 0
  addsSeals := true
  sealsApplied := true
  seeks := true

def Scenario.pair : Dict Text SecretId :=
  ((Dict.empty.set (.ofString "sudo") (List.replicate 32 0x61)).set (.ofString "login")
    (List.replicate 32 0x62))

theorem claimSecretPair_delivers :
    ∃ content, (claimSecretPair Scenario.pairCalls 1024 Scenario.pair ⟨none, [], []⟩).1 =
      .ok content := by
  have works : Scenario.pairCalls.Works := by
    constructor <;> simp [Scenario.pairCalls]
  have valid : validateSecretPair (some Scenario.pair) = .ok (some Scenario.pair) := by
    rw [validateSecretPair, if_neg (by decide), if_neg (by decide), if_neg (by decide)]
  have delivered : List.Forall₂ (Delivers Scenario.pairCalls) Scenario.pair.entries
      [[0x70, 0xFF], [0x70, 0xFF]] :=
    .cons ⟨rfl, by simp⟩ (.cons ⟨rfl, by simp⟩ .nil)
  have fits : (encodeEnvelope (pairFields Scenario.pair.entries
      [[0x70, 0xFF], [0x70, 0xFF]])).length ≤ (1024 : Int) := by
    decide +kernel
  exact (claimSecretPair_roundTrip works valid 1024 _).1.mpr ⟨_, delivered, fits⟩

end Longrun.Secret
