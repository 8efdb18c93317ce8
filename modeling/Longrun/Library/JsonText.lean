import Longrun.Library.Utf8

/-!
# JSON as text

Documents of numbers, strings and objects, as `json.dumps` writes them without spaces and as
`json.loads` reads them. The strings are those that are written between their quotes as they are:
printable ASCII without quotes and backslashes.
-/

namespace Longrun.JsonText

/-- A document without arrays, booleans, `null` and negative or fractional numbers. -/
inductive Document where
  | number (value : Nat)
  | string (text : Text)
  | object (fields : List (Text × Document))

def quote : CodePoint := 0x22
def backslash : CodePoint := 0x5C
def comma : CodePoint := 0x2C
def colon : CodePoint := 0x3A
def openBrace : CodePoint := 0x7B
def closeBrace : CodePoint := 0x7D

/-- A code point that a string is written with as it is. -/
def isPlain (point : CodePoint) : Bool :=
  0x20 ≤ point ∧ point ≤ 0x7E ∧ point ≠ quote ∧ point ≠ backslash

def isDigit (point : CodePoint) : Bool := 0x30 ≤ point ∧ point ≤ 0x39

/-! ### Writing -/

def dumpString (text : Text) : Text := quote :: text ++ [quote]

def dumpNumber (value : Nat) : Text :=
  if value = 0 then [0x30]
  else (Nat.digits 10 value).reverse.map fun digit => .ofNat (0x30 + digit)

mutual

/-- `json.dumps(document, separators=(",", ":"))`. -/
def dumps : Document → Text
  | .number value => dumpNumber value
  | .string text => dumpString text
  | .object [] => [openBrace, closeBrace]
  | .object (field :: fields) => openBrace :: (dumpField field ++ dumpFields fields)

def dumpField : Text × Document → Text
  | (key, document) => dumpString key ++ colon :: dumps document

/-- The fields after the first one, and the brace that closes the object. -/
def dumpFields : List (Text × Document) → Text
  | [] => [closeBrace]
  | field :: fields => comma :: (dumpField field ++ dumpFields fields)

end

/-! ### Reading -/

/-- The rest of a string after its first quote. -/
def readString (text : Text) : Option (Text × Text) :=
  match text.dropWhile isPlain with
  | point :: rest => if point = quote then some (text.takeWhile isPlain, rest) else none
  | [] => none

def readNumber (text : Text) : Option (Nat × Text) :=
  match text.takeWhile isDigit with
  | [] => none
  | digits =>
      some (Nat.ofDigits 10 (digits.reverse.map fun point => point.val - 0x30),
        text.dropWhile isDigit)

mutual

/-- The document that a text begins with, and the rest of the text. -/
def read : Nat → Text → Option (Document × Text)
  | 0, _ => none
  | fuel + 1, text =>
      match text with
      | [] => none
      | first :: rest =>
          if first = quote then
            (readString rest).map fun (value, rest) => (.string value, rest)
          else if first = openBrace then
            match rest with
            | [] => none
            | second :: others =>
                if second = closeBrace then some (.object [], others)
                else
                  match readField fuel rest with
                  | none => none
                  | some (field, rest) =>
                      (readFields fuel rest).map fun (fields, rest) =>
                        (.object (field :: fields), rest)
          else (readNumber text).map fun (value, rest) => (.number value, rest)

def readField : Nat → Text → Option ((Text × Document) × Text)
  | 0, _ => none
  | fuel + 1, text =>
      match text with
      | [] => none
      | first :: rest =>
          if first = quote then
            match readString rest with
            | none => none
            | some (key, rest) =>
                match rest with
                | [] => none
                | second :: rest =>
                    if second = colon then
                      (read fuel rest).map fun (value, rest) => ((key, value), rest)
                    else none
          else none

/-- More fields, up to the brace that closes the object. -/
def readFields : Nat → Text → Option (List (Text × Document) × Text)
  | 0, _ => none
  | fuel + 1, text =>
      match text with
      | [] => none
      | first :: rest =>
          if first = closeBrace then some ([], rest)
          else if first = comma then
            match readField fuel rest with
            | none => none
            | some (field, rest) =>
                (readFields fuel rest).map fun (fields, rest) => (field :: fields, rest)
          else none

end

/-- Whitespace between the parts of a document. -/
def isSpace (point : CodePoint) : Bool :=
  point = 0x20 ∨ point = 0x09 ∨ point = 0x0A ∨ point = 0x0D

/-- `json.loads(text)`, for a text with no space before its end. -/
def loads (text : Text) : Option Document :=
  match read text.length text with
  | some (document, rest) => if rest.all isSpace then some document else none
  | none => none

/-- What an object has under a key. -/
def Document.get? : Document → Text → Option Document
  | .object fields, key => fields.lookup key
  | .number _, _ => none
  | .string _, _ => none

/-- The fields in the order of their keys. -/
def sortKeys (fields : List (Text × Document)) : List (Text × Document) :=
  fields.insertionSort fun left right => left.1 ≤ right.1

/-! ### Reading what was written -/

def PlainText (text : Text) : Prop := ∀ point ∈ text, isPlain point = true

mutual

/-- All strings of a document are written as they are. -/
def Plain : Document → Prop
  | .number _ => True
  | .string text => PlainText text
  | .object fields => PlainFields fields

def PlainFields : List (Text × Document) → Prop
  | [] => True
  | field :: fields => PlainField field ∧ PlainFields fields

def PlainField : Text × Document → Prop
  | (key, document) => PlainText key ∧ Plain document

end

/-- What follows a number. -/
def EndsNumber (rest : Text) : Prop := ∀ point, rest.head? = some point → isDigit point = false

variable {text rest : Text}

theorem readString_dump (plain : PlainText text) (rest : Text) :
    readString (text ++ quote :: rest) = some (text, rest) := by
  have ends : isPlain quote = false := by decide
  rw [readString, List.dropWhile_append_of_pos plain, List.takeWhile_append_of_pos plain]
  simp [ends]

theorem takeWhile_digits {digits : Text} (isDigits : ∀ point ∈ digits, isDigit point = true)
    (ends : EndsNumber rest) :
    (digits ++ rest).takeWhile isDigit = digits ∧ (digits ++ rest).dropWhile isDigit = rest := by
  rw [List.takeWhile_append_of_pos isDigits, List.dropWhile_append_of_pos isDigits]
  cases rest with
  | nil => simp
  | cons point rest => simp [ends point rfl]

theorem isDigit_ofNat {digit : Nat} (small : digit < 10) :
    isDigit (.ofNat (0x30 + digit)) = true ∧ (CodePoint.ofNat (0x30 + digit)).val - 0x30 = digit := by
  have all : ∀ digit : Fin 10, isDigit (.ofNat (0x30 + digit.val)) = true ∧
      (CodePoint.ofNat (0x30 + digit.val)).val - 0x30 = digit.val := by decide
  exact all ⟨digit, small⟩

/-- The digits of a number. -/
theorem dumpNumber_spec (value : Nat) :
    dumpNumber value ≠ [] ∧ (∀ point ∈ dumpNumber value, isDigit point = true) ∧
      Nat.ofDigits 10 ((dumpNumber value).reverse.map fun point => point.val - 0x30) = value := by
  rcases Decidable.em (value = 0) with rfl | positive
  · have zero : dumpNumber 0 = [0x30] := by rw [dumpNumber, if_pos rfl]
    rw [zero]
    refine ⟨by simp, ?_, rfl⟩
    intro point mem
    rcases List.mem_singleton.mp mem with rfl
    decide
  · have small (digit : Nat) (mem : digit ∈ Nat.digits 10 value) : digit < 10 :=
      Nat.digits_lt_base (by omega) mem
    rw [dumpNumber, if_neg positive]
    refine ⟨?_, ?_, ?_⟩
    · simpa [Nat.digits_ne_nil_iff_ne_zero] using positive
    · intro point mem
      rcases List.mem_map.mp mem with ⟨digit, isDigit, rfl⟩
      exact (isDigit_ofNat (small digit (List.mem_reverse.mp isDigit))).1
    · have same : ((Nat.digits 10 value).map fun digit =>
          (CodePoint.ofNat (0x30 + digit)).val - 0x30) = Nat.digits 10 value := by
        conv_rhs => rw [← List.map_id (Nat.digits 10 value)]
        exact List.map_congr_left fun digit mem => (isDigit_ofNat (small digit mem)).2
      rw [← List.map_reverse, List.reverse_reverse, List.map_map]
      exact (congrArg (Nat.ofDigits 10) same).trans (Nat.ofDigits_digits 10 value)

theorem readNumber_dump (value : Nat) (ends : EndsNumber rest) :
    readNumber (dumpNumber value ++ rest) = some (value, rest) := by
  rcases dumpNumber_spec value with ⟨filled, digits, reads⟩
  rcases takeWhile_digits digits ends with ⟨taken, dropped⟩
  rw [readNumber, taken, dropped]
  cases isDump : dumpNumber value with
  | nil => exact absurd isDump filled
  | cons point points =>
      rw [isDump] at reads
      exact congrArg (fun read => some (read, rest)) reads

theorem endsNumber_comma (rest : Text) : EndsNumber (comma :: rest) := by
  rintro point ⟨⟩
  decide

theorem endsNumber_closeBrace (rest : Text) : EndsNumber (closeBrace :: rest) := by
  rintro point ⟨⟩
  decide

theorem endsNumber_dumpFields (fields : List (Text × Document)) (rest : Text) :
    EndsNumber (dumpFields fields ++ rest) := by
  cases fields with
  | nil => exact endsNumber_closeBrace rest
  | cons field fields => exact endsNumber_comma _

theorem read_quote (fuel : Nat) (rest : Text) :
    read (fuel + 1) (quote :: rest) =
      (readString rest).map fun (value, rest) => (.string value, rest) := by
  rw [read.eq_def]
  simp

theorem read_first {point : CodePoint} (noQuote : point ≠ quote) (noBrace : point ≠ openBrace)
    (fuel : Nat) (rest : Text) :
    read (fuel + 1) (point :: rest) =
      (readNumber (point :: rest)).map fun (value, rest) => (.number value, rest) := by
  rw [read.eq_def]
  simp [noQuote, noBrace]

theorem openBrace_ne_quote : openBrace ≠ quote := by decide

theorem read_openBrace_closeBrace (fuel : Nat) (rest : Text) :
    read (fuel + 1) (openBrace :: closeBrace :: rest) = some (.object [], rest) := by
  rw [read.eq_def]
  simp [openBrace_ne_quote]

theorem read_openBrace_quote (fuel : Nat) (rest : Text) :
    read (fuel + 1) (openBrace :: quote :: rest) =
      (readField fuel (quote :: rest)).bind fun (field, rest) =>
        (readFields fuel rest).map fun (fields, rest) => (.object (field :: fields), rest) := by
  have other : quote ≠ closeBrace := by decide
  rw [read.eq_def]
  simp only [openBrace_ne_quote, if_false, if_true, other]
  cases readField fuel (quote :: rest) <;> rfl

mutual

theorem read_dumps (document : Document) (plain : Plain document) {fuel : Nat}
    (enough : (dumps document).length ≤ fuel) {rest : Text} (ends : EndsNumber rest) :
    read fuel (dumps document ++ rest) = some (document, rest) := by
  cases document with
  | number value =>
      rw [dumps] at enough ⊢
      rcases dumpNumber_spec value with ⟨filled, digits, -⟩
      have reads := readNumber_dump value ends
      cases isDump : dumpNumber value with
      | nil => exact absurd isDump filled
      | cons point points =>
          rw [isDump] at enough digits reads
          rcases Nat.exists_eq_add_of_le' (le_trans (by simp) enough : 1 ≤ fuel) with ⟨fuel, rfl⟩
          have isDigit := digits point List.mem_cons_self
          have noQuote : point ≠ quote := by
            rintro rfl
            exact absurd isDigit (by decide)
          have noBrace : point ≠ openBrace := by
            rintro rfl
            exact absurd isDigit (by decide)
          rw [List.cons_append, read_first noQuote noBrace, ← List.cons_append, reads]
          rfl
  | string text =>
      rw [dumps, dumpString] at enough ⊢
      rcases Nat.exists_eq_add_of_le' (le_trans (by simp) enough : 1 ≤ fuel) with ⟨fuel, rfl⟩
      rw [Plain] at plain
      have split : quote :: text ++ [quote] ++ rest = quote :: (text ++ quote :: rest) := by simp
      rw [split, read_quote, readString_dump plain]
      rfl
  | object fields =>
      cases fields with
      | nil =>
          rw [dumps] at enough ⊢
          rcases Nat.exists_eq_add_of_le' (le_trans (by simp) enough : 1 ≤ fuel) with ⟨fuel, rfl⟩
          exact read_openBrace_closeBrace fuel rest
      | cons field fields =>
          rw [dumps] at enough ⊢
          rw [Plain, PlainFields] at plain
          simp only [List.length_append, List.length_cons] at enough
          rcases Nat.exists_eq_add_of_le' (by omega : 1 ≤ fuel) with ⟨fuel, rfl⟩
          have enoughField : (dumpField field).length ≤ fuel := by omega
          have enoughFields : (dumpFields fields).length ≤ fuel := by omega
          have first := readField_dump field plain.1 enoughField (endsNumber_dumpFields fields rest)
          have others := readFields_dump fields plain.2 enoughFields rest
          have isQuoted : ∃ more, dumpField field = quote :: more := by
            rcases field with ⟨key, document⟩
            rw [dumpField, dumpString]
            exact ⟨_, rfl⟩
          rcases isQuoted with ⟨more, isDump⟩
          rw [isDump, List.cons_append] at first
          rw [isDump, List.cons_append, List.append_assoc, List.cons_append, read_openBrace_quote,
            first, Option.bind_some]
          simp only [others, Option.map_some]

theorem readField_dump (field : Text × Document) (plain : PlainField field) {fuel : Nat}
    (enough : (dumpField field).length ≤ fuel) {rest : Text} (ends : EndsNumber rest) :
    readField fuel (dumpField field ++ rest) = some (field, rest) := by
  rcases field with ⟨key, document⟩
  rw [dumpField, dumpString] at enough ⊢
  rw [PlainField] at plain
  simp only [List.length_append, List.length_cons, List.length_nil] at enough
  rcases Nat.exists_eq_add_of_le' (by omega : 1 ≤ fuel) with ⟨fuel, rfl⟩
  have enoughValue : (dumps document).length ≤ fuel := by omega
  have value := read_dumps document plain.2 enoughValue ends
  have split : quote :: key ++ [quote] ++ colon :: dumps document ++ rest =
      quote :: (key ++ quote :: (colon :: (dumps document ++ rest))) := by simp
  rw [split, readField]
  simp only [if_true, readString_dump plain.1, value, Option.map_some]

theorem readFields_dump (fields : List (Text × Document)) (plain : PlainFields fields) {fuel : Nat}
    (enough : (dumpFields fields).length ≤ fuel) (rest : Text) :
    readFields fuel (dumpFields fields ++ rest) = some (fields, rest) := by
  cases fields with
  | nil =>
      rw [dumpFields] at enough ⊢
      rcases Nat.exists_eq_add_of_le' (le_trans (by simp) enough : 1 ≤ fuel) with ⟨fuel, rfl⟩
      simp [readFields]
  | cons field fields =>
      rw [dumpFields] at enough ⊢
      rw [PlainFields] at plain
      simp only [List.length_append, List.length_cons] at enough
      rcases Nat.exists_eq_add_of_le' (by omega : 1 ≤ fuel) with ⟨fuel, rfl⟩
      have enoughField : (dumpField field).length ≤ fuel := by omega
      have enoughFields : (dumpFields fields).length ≤ fuel := by omega
      have first := readField_dump field plain.1 enoughField (endsNumber_dumpFields fields rest)
      have others := readFields_dump fields plain.2 enoughFields rest
      have noBrace : comma ≠ closeBrace := by decide
      rw [List.cons_append, List.append_assoc, readFields, if_neg noBrace, if_pos rfl, first]
      simp only [others, Option.map_some]

end

/-! ### What is written -/

/-- A code point that is encoded as one byte. -/
def IsAscii (point : CodePoint) : Prop := point.val < 0x80

instance (point : CodePoint) : Decidable (IsAscii point) :=
  inferInstanceAs (Decidable (point.val < 0x80))

theorem isAscii_of_isPlain {point : CodePoint} (plain : isPlain point = true) : IsAscii point := by
  simp only [isPlain, decide_eq_true_eq, Fin.le_def] at plain
  exact Nat.lt_of_le_of_lt plain.2.1 (by decide)

theorem isAscii_of_isDigit {point : CodePoint} (digit : isDigit point = true) : IsAscii point := by
  simp only [isDigit, decide_eq_true_eq, Fin.le_def] at digit
  exact Nat.lt_of_le_of_lt digit.2 (by decide)

theorem isAscii_dumpString (plain : PlainText text) {point : CodePoint}
    (mem : point ∈ dumpString text) : IsAscii point := by
  have isQuote : IsAscii quote := by decide
  simp only [dumpString, List.cons_append, List.mem_cons, List.mem_append, List.not_mem_nil,
    or_false] at mem
  rcases mem with rfl | mem | rfl
  · exact isQuote
  · exact isAscii_of_isPlain (plain point mem)
  · exact isQuote

mutual

theorem isAscii_dumps (document : Document) (plain : Plain document) {point : CodePoint}
    (mem : point ∈ dumps document) : IsAscii point := by
  cases document with
  | number value =>
      rw [dumps] at mem
      exact isAscii_of_isDigit ((dumpNumber_spec value).2.1 point mem)
  | string text =>
      rw [dumps] at mem
      rw [Plain] at plain
      exact isAscii_dumpString plain mem
  | object fields =>
      cases fields with
      | nil =>
          simp only [dumps, List.mem_cons, List.not_mem_nil, or_false] at mem
          rcases mem with rfl | rfl <;> decide
      | cons field fields =>
          rw [Plain, PlainFields] at plain
          simp only [dumps, List.mem_cons, List.mem_append] at mem
          rcases mem with rfl | mem | mem
          · decide
          · exact isAscii_dumpField field plain.1 mem
          · exact isAscii_dumpFields fields plain.2 mem

theorem isAscii_dumpField (field : Text × Document) (plain : PlainField field) {point : CodePoint}
    (mem : point ∈ dumpField field) : IsAscii point := by
  rcases field with ⟨key, document⟩
  rw [PlainField] at plain
  simp only [dumpField, List.mem_append, List.mem_cons] at mem
  rcases mem with mem | rfl | mem
  · exact isAscii_dumpString plain.1 mem
  · decide
  · exact isAscii_dumps document plain.2 mem

theorem isAscii_dumpFields (fields : List (Text × Document)) (plain : PlainFields fields)
    {point : CodePoint} (mem : point ∈ dumpFields fields) : IsAscii point := by
  cases fields with
  | nil =>
      rcases List.mem_singleton.mp (by simpa [dumpFields] using mem) with rfl
      decide
  | cons field fields =>
      rw [PlainFields] at plain
      simp only [dumpFields, List.mem_cons, List.mem_append] at mem
      rcases mem with rfl | mem | mem
      · decide
      · exact isAscii_dumpField field plain.1 mem
      · exact isAscii_dumpFields fields plain.2 mem

end

theorem length_le_dumpFields (fields : List (Text × Document)) :
    (fields.map fun field => (dumps field.2).length).sum ≤ (dumpFields fields).length := by
  induction fields with
  | nil => simp
  | cons field fields ih =>
      rcases field with ⟨key, document⟩
      simp only [List.map_cons, List.sum_cons, dumpFields, dumpField, List.length_cons,
        List.length_append]
      omega

/-- An object is written with all that its fields are written with. -/
theorem length_le_dumps (fields : List (Text × Document)) :
    (fields.map fun field => (dumps field.2).length).sum ≤ (dumps (.object fields)).length := by
  cases fields with
  | nil => simp
  | cons field fields =>
      have others := length_le_dumpFields fields
      rcases field with ⟨key, document⟩
      simp only [List.map_cons, List.sum_cons, dumps, dumpField, List.length_cons,
        List.length_append]
      omega

theorem plainFields_iff (fields : List (Text × Document)) :
    PlainFields fields ↔ ∀ field ∈ fields, PlainField field := by
  induction fields with
  | nil => simp [PlainFields]
  | cons field fields ih => simp [PlainFields, ih]

theorem lookup_of_mem {fields : List (Text × Document)} (distinct : (fields.map Prod.fst).Nodup)
    {key : Text} {document : Document} (mem : (key, document) ∈ fields) :
    fields.lookup key = some document := by
  induction fields with
  | nil => simp at mem
  | cons field fields ih =>
      rcases field with ⟨first, value⟩
      simp only [List.map_cons, List.nodup_cons] at distinct
      rcases List.mem_cons.mp mem with same | mem
      · rcases same with ⟨⟩
        simp
      · have present : key ∈ fields.map Prod.fst := List.mem_map.mpr ⟨(key, document), mem, rfl⟩
        have different : key ≠ first := by
          rintro rfl
          exact distinct.1 present
        rw [List.lookup_cons, beq_false_of_ne different]
        exact ih distinct.2 mem

theorem perm_sortKeys (fields : List (Text × Document)) : (sortKeys fields).Perm fields :=
  List.perm_insertionSort _ _

/-- Where the keys are different, sorting does not change what is under them. -/
theorem get?_sortKeys {fields : List (Text × Document)} (distinct : (fields.map Prod.fst).Nodup)
    {key : Text} {document : Document} (mem : (key, document) ∈ fields) :
    Document.get? (.object (sortKeys fields)) key = some document := by
  have sorted := perm_sortKeys fields
  have distinctSorted : ((sortKeys fields).map Prod.fst).Nodup :=
    (sorted.map Prod.fst).nodup_iff.mpr distinct
  rw [Document.get?]
  exact lookup_of_mem distinctSorted (sorted.mem_iff.mpr mem)

/-- Reading what was written, with a line feed after it. -/
theorem loads_dumps {document : Document} (plain : Plain document) :
    loads (dumps document ++ [0x0A]) = some document := by
  have ends : EndsNumber [0x0A] := by
    rintro point ⟨⟩
    decide
  have enough : (dumps document).length ≤ (dumps document ++ [0x0A]).length := by simp
  rw [loads, read_dumps document plain enough ends]
  rfl

end Longrun.JsonText
