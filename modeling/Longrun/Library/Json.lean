import Mathlib

/-!
# JSON values under Python's operators

The values that a Python program gets from `json.loads`, with the operators such a program
applies to them: `dict.get`, the `in` test on keys, `==` and `json.dumps(_, sort_keys=True)`.

Python compares numbers by value across its number types, so `True == 1 == 1.0`, and it compares
dictionaries without regard to the order of their keys. Both matter to a program that checks an
answer against a value it stored. A floating-point number is represented by the rational that
it denotes; the values without one (`NaN` and the infinities) are left out.
-/

namespace Longrun

/-- A parsed JSON value. -/
inductive Json where
  | null
  | bool (value : Bool)
  | int (value : Int)
  | float (value : Rat)
  | str (value : String)
  | arr (items : List Json)
  | obj (fields : List (String × Json))

namespace Json

/-- The number that a value is under Python's numeric tower, where a boolean is an integer. -/
def number? : Json → Option Rat
  | .bool value => some (if value then 1 else 0)
  | .int value => some value
  | .float value => some value
  | _ => none

mutual

/-- Python's `==`. -/
def eq : Json → Json → Bool
  | .null, other => match other with
    | .null => true
    | _ => false
  | .str left, other => match other with
    | .str right => left == right
    | _ => false
  | .arr items, other => match other with
    | .arr others => eqItems items others
    | _ => false
  | .obj fields, other => match other with
    | .obj others => fields.length == others.length && eqFields fields others
    | _ => false
  | .int left, other => match other with
    | .int right => left == right
    | _ => other.number? == some (left : Rat)
  | .bool left, other => other.number? == some (if left then 1 else 0)
  | .float left, other => other.number? == some left

def eqItems : List Json → List Json → Bool
  | [], others => others.isEmpty
  | item :: items, others => match others with
    | [] => false
    | other :: others => eq item other && eqItems items others

def eqFields : List (String × Json) → List (String × Json) → Bool
  | [], _ => true
  | field :: fields, others => eqField field others && eqFields fields others

def eqField : String × Json → List (String × Json) → Bool
  | (key, value), others => match others.lookup key with
    | some other => eq value other
    | none => false

end

/-- `value.get(key)`: `None` where the key is absent. Only dictionaries have this method. -/
def get : Json → String → Json
  | .obj fields, key => (fields.lookup key).getD .null
  | _, _ => .null

/-- `key in value`, for a dictionary. -/
def hasKey : Json → String → Bool
  | .obj fields, key => (fields.lookup key).isSome
  | _, _ => false

/-- `isinstance(value, dict)`. -/
def isDict : Json → Bool
  | .obj _ => true
  | _ => false

/-- `isinstance(value, str)`, with the string. -/
def str? : Json → Option String
  | .str value => some value
  | _ => none

/-- `isinstance(value, int)`, with the integer: Python's booleans are integers. -/
def int? : Json → Option Int
  | .bool value => some (if value then 1 else 0)
  | .int value => some value
  | _ => none

/-- `type(value) is int`, with the integer. -/
def exactInt? : Json → Option Int
  | .int value => some value
  | _ => none

/-- `value == text` for a string. -/
def isStr (value : Json) (text : String) : Bool :=
  value.str? == some text

/-- `value == number` for an integer. -/
def isInt (value : Json) (number : Int) : Bool :=
  value.eq (.int number)

/-- `type(value).__name__`. -/
def typeName : Json → String
  | .null => "NoneType"
  | .bool _ => "bool"
  | .int _ => "int"
  | .float _ => "float"
  | .str _ => "str"
  | .arr _ => "list"
  | .obj _ => "dict"

/-- `value is True`. -/
def isTrue : Json → Bool
  | .bool value => value
  | _ => false

/-- `value.pop(key, None)`, for a dictionary. -/
def erase : Json → String → Json
  | .obj fields, key => .obj (fields.filter fun field => field.1 ≠ key)
  | value, _ => value

/-- `value[key] = item`, for a dictionary. -/
def set : Json → String → Json → Json
  | .obj fields, key, item =>
      if (fields.lookup key).isSome then
        .obj (fields.map fun field => if field.1 = key then (key, item) else field)
      else .obj (fields ++ [(key, item)])
  | value, _, _ => value

mutual

/-- How many containers a value is nested in. -/
def nesting : Json → Nat
  | .arr items => nestingItems items + 1
  | .obj fields => nestingFields fields + 1
  | _ => 0

def nestingItems : List Json → Nat
  | [] => 0
  | item :: items => max item.nesting (nestingItems items)

def nestingFields : List (String × Json) → Nat
  | [] => 0
  | (_, value) :: fields => max value.nesting (nestingFields fields)

end

/-- Lists and dictionaries are unhashable: looking one up in a set raises `TypeError`. -/
def hashable : Json → Bool
  | .arr _ | .obj _ => false
  | _ => true

@[simp]
theorem eq_str (value : Json) (text : String) : value.eq (.str text) = value.isStr text := by
  cases value <;> simp [eq, isStr, str?, number?]

theorem str?_eq_some_iff {value : Json} {text : String} :
    value.str? = some text ↔ value = .str text := by
  cases value <;> simp [str?]

@[simp]
theorem isStr_iff {value : Json} {text : String} : value.isStr text = true ↔ value = .str text := by
  cases value <;> simp [isStr, str?]

@[simp]
theorem int_isInt {left right : Int} : (Json.int left).isInt right = true ↔ left = right := by
  simp [isInt, eq]

/-! ### Assigning keys -/

theorem isDict_set (value : Json) (key : String) (item : Json) :
    (value.set key item).isDict = value.isDict := by
  cases value with
  | obj fields =>
      rw [set]
      split <;> rfl
  | _ => rfl

private theorem lookup_cons_eq (name other : String) (value : Json) (fields : List (String × Json)) :
    ((name, value) :: fields).lookup other =
      if other = name then some value else fields.lookup other := by
  rw [List.lookup_cons]
  by_cases same : other = name
  · simp [same]
  · simp [same, beq_eq_false_iff_ne.mpr same]

private theorem lookup_map_set (fields : List (String × Json)) (key other : String) (item : Json) :
    (fields.map fun field => if field.1 = key then (key, item) else field).lookup other =
      if other = key then (fields.lookup key).map fun _ => item else fields.lookup other := by
  induction fields with
  | nil => simp
  | cons field fields ih =>
      rcases field with ⟨name, value⟩
      rw [List.map_cons]
      by_cases isKey : name = key
      · subst isKey
        by_cases same : other = name <;> simp [lookup_cons_eq, same, ih]
      · by_cases same : other = key
        · subst same
          simp [lookup_cons_eq, isKey, Ne.symm isKey, ih]
        · simp [lookup_cons_eq, isKey, same, ih]

private theorem lookup_append_set (fields : List (String × Json)) (key other : String) (item : Json) :
    (fields ++ [(key, item)]).lookup other =
      (fields.lookup other).or (if other = key then some item else none) := by
  rw [List.lookup_append]
  by_cases same : other = key <;> simp [lookup_cons_eq, same]

theorem get_set_self {value : Json} (isDict : value.isDict = true) (key : String) (item : Json) :
    (value.set key item).get key = item := by
  cases value with
  | obj fields =>
      rw [set]
      split
      · rename_i present
        rcases Option.isSome_iff_exists.mp present with ⟨old, found⟩
        simp [get, lookup_map_set, found]
      · rename_i absent
        rw [Option.not_isSome_iff_eq_none] at absent
        simp [get, lookup_append_set, absent]
  | _ => cases isDict

theorem get_set_of_ne (value : Json) {key other : String} (item : Json) (different : other ≠ key) :
    (value.set key item).get other = value.get other := by
  cases value with
  | obj fields =>
      rw [set]
      split
      · simp [get, lookup_map_set, different]
      · simp [get, lookup_append_set, different]
  | _ => rfl

/-! ### Serialization -/

private def hexDigit (value : Nat) : Char :=
  if value < 10 then Char.ofNat (48 + value) else Char.ofNat (87 + value)

private def unicodeEscape (unit : Nat) : List Char :=
  ['\\', 'u', hexDigit (unit / 4096 % 16), hexDigit (unit / 256 % 16), hexDigit (unit / 16 % 16),
    hexDigit (unit % 16)]

/-- One character of a string under `ensure_ascii`: a surrogate pair above the basic plane. -/
private def escapeChar (char : Char) : List Char :=
  if char = '"' then ['\\', '"']
  else if char = '\\' then ['\\', '\\']
  else if char = '\n' then ['\\', 'n']
  else if char = '\r' then ['\\', 'r']
  else if char = '\t' then ['\\', 't']
  else if char.toNat = 8 then ['\\', 'b']
  else if char.toNat = 12 then ['\\', 'f']
  else if 32 ≤ char.toNat ∧ char.toNat < 127 then [char]
  else if char.toNat < 65536 then unicodeEscape char.toNat
  else unicodeEscape (55296 + (char.toNat - 65536) / 1024) ++
    unicodeEscape (56320 + (char.toNat - 65536) % 1024)

/-- The JSON text of a string. -/
def quote (text : String) : String :=
  "\"" ++ String.ofList (text.toList.flatMap escapeChar) ++ "\""

private def joinFields (fields : List (String × String)) : String :=
  ", ".intercalate
    ((fields.insertionSort (fun left right => left.1 ≤ right.1)).map
      fun field => quote field.1 ++ ": " ++ field.2)

/-- The text of a float: that of its rational, with a fraction also where it is integral, so that it
differs from the text of every integer. -/
def dumpsFloat (value : ℚ) : String :=
  if value.den = 1 then toString value.num ++ ".0" else toString value

mutual

/-- `json.dumps(value, sort_keys=True)`. -/
def dumps : Json → String
  | .null => "null"
  | .bool value => if value then "true" else "false"
  | .int value => toString value
  | .float value => dumpsFloat value
  | .str value => quote value
  | .arr items => "[" ++ ", ".intercalate (dumpsItems items) ++ "]"
  | .obj fields => "\x7b" ++ joinFields (dumpsFields fields) ++ "\x7d"

def dumpsItems : List Json → List String
  | [] => []
  | item :: items => dumps item :: dumpsItems items

def dumpsFields : List (String × Json) → List (String × String)
  | [] => []
  | field :: fields => dumpsField field :: dumpsFields fields

def dumpsField : String × Json → String × String
  | (key, value) => (key, dumps value)

end

example : dumps (.obj [("status", .str "complete"), ("id", .arr [.int (-3), .null])]) =
    "\x7b\"id\": [-3, null], \"status\": \"complete\"\x7d" := by
  decide +kernel

/-! ### Equal dictionaries -/

/-- The keys of a dictionary are distinct, as they are in every dictionary that was parsed. -/
def hasDistinctKeys : Json → Bool
  | .obj fields => decide (fields.map Prod.fst).Nodup
  | _ => true

theorem isDict_of_eq {left right : Json} (same : left.eq right = true) :
    left.isDict = right.isDict := by
  cases left <;> cases right <;> simp [eq, isDict, number?] at same ⊢

theorem mem_of_lookup {fields : List (String × Json)} {key : String} {value : Json}
    (found : fields.lookup key = some value) : (key, value) ∈ fields := by
  induction fields with
  | nil => simp at found
  | cons field fields ih =>
      rw [List.lookup_cons] at found
      split at found
      · rename_i isKey
        rcases Option.some.inj found with rfl
        rw [eq_of_beq isKey]
        exact List.mem_cons_self
      · exact List.mem_cons_of_mem _ (ih found)

theorem eqField_of_mem {fields others : List (String × Json)} {field : String × Json}
    (same : eqFields fields others = true) (mem : field ∈ fields) :
    ∃ other, others.lookup field.1 = some other ∧ field.2.eq other = true := by
  induction fields with
  | nil => simp at mem
  | cons first fields ih =>
      rw [eqFields, Bool.and_eq_true] at same
      rcases List.mem_cons.mp mem with rfl | mem
      · have fieldSame := same.1
        rw [eqField] at fieldSame
        split at fieldSame
        · exact ⟨_, ‹_›, fieldSame⟩
        · contradiction
      · exact ih same.2 mem

theorem isSome_lookup_iff {fields : List (String × Json)} {key : String} :
    (fields.lookup key).isSome = true ↔ key ∈ fields.map Prod.fst := by
  induction fields with
  | nil => simp
  | cons field fields ih =>
      rw [List.lookup_cons, List.map_cons, List.mem_cons, ← ih]
      split
      · rename_i isKey
        simp [eq_of_beq isKey]
      · rename_i notKey
        simp [beq_eq_false_iff_ne.mp notKey]

/-- Equal dictionaries have equal values under every key. -/
theorem get_of_eq {left right : Json} (same : left.eq right = true)
    (distinct : left.hasDistinctKeys = true) (key : String) :
    (left.get key).eq (right.get key) = true := by
  cases left with
  | obj fields =>
      cases right with
      | obj others =>
          rw [eq, Bool.and_eq_true, beq_iff_eq] at same
          rw [hasDistinctKeys, decide_eq_true_eq] at distinct
          have included : fields.map Prod.fst ⊆ others.map Prod.fst := by
            intro other mem
            rcases List.mem_map.mp mem with ⟨field, isField, rfl⟩
            rcases eqField_of_mem same.2 isField with ⟨value, found, -⟩
            exact isSome_lookup_iff.mp (by rw [found]; rfl)
          simp only [get]
          cases found : fields.lookup key with
          | some value =>
              rcases eqField_of_mem same.2 (mem_of_lookup found) with ⟨other, isOther, sameValue⟩
              rw [isOther]
              exact sameValue
          | none =>
              -- As many keys on both sides leave no room for another one on the right.
              have absent : others.lookup key = none := by
                by_contra present
                have isKey := isSome_lookup_iff.mp (Option.isSome_iff_ne_none.mpr present)
                have notKey : key ∉ fields.map Prod.fst := by
                  intro mem
                  have isSome := isSome_lookup_iff.mpr mem
                  rw [found] at isSome
                  contradiction
                have bound := (List.nodup_cons.mpr ⟨notKey, distinct⟩).subperm
                  (List.cons_subset.mpr ⟨isKey, included⟩)
                have lengths := bound.length_le
                simp at lengths
                omega
              simp [absent, eq]
      | _ => simp [eq] at same
  | _ =>
      have noDict := isDict_of_eq same
      cases right <;> simp [isDict] at noDict <;> simp [get, eq]

end Json

end Longrun
