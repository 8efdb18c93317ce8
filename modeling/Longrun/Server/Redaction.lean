import Longrun.Library.Utf8

/-!
# The redacted display of a command

Job metadata holds a display of the arguments in which the values of secret options are redacted:
the value after an `=`, or the argument after the option. The loop remembers for one step that an
argument is a value, and an option that stands where a value is expected is taken for the value.
-/

namespace Longrun.Server

/-- What the checks rely on about `str.lower`. -/
structure CaseMapping where
  lower : Text → Text
  lower_dash : ∀ text, (lower text).head? = some 0x2D ↔ text.head? = some 0x2D

/-- `_SECRET_FLAG_PARTS`. -/
def secretFlagParts : List Text :=
  ["password", "passwd", "token", "secret", "api-key", "apikey", "auth"].map Text.ofString

def redactedMark : Text := Text.ofString "<redacted>"

def equalsSign : CodePoint := 0x3D

variable (mapping : CaseMapping)

/-- `any(part in text.lower() for part in _SECRET_FLAG_PARTS)`. -/
def hasSecretPart (text : Text) : Bool :=
  secretFlagParts.any fun part => part <:+: mapping.lower text

/-- The name in `arg.split("=", 1)`. -/
def optionName (arg : Text) : Text := arg.takeWhile (· ≠ equalsSign)

/-- An argument of the form `name=value` with a secret name. -/
def assignsSecret (arg : Text) : Bool :=
  equalsSign ∈ arg ∧ hasSecretPart mapping (optionName arg)

/-- An argument after which the next one is redacted. -/
def expectsSecret (arg : Text) : Bool :=
  ¬ assignsSecret mapping arg ∧ (mapping.lower arg).head? = some 0x2D ∧ hasSecretPart mapping arg

/-- The loop of `_redact_argv`. -/
def redactFrom (redactNext : Bool) : List Text → List Text
  | [] => []
  | arg :: argv =>
      if redactNext then redactedMark :: redactFrom false argv
      else if assignsSecret mapping arg then
        (optionName arg ++ equalsSign :: redactedMark) :: redactFrom false argv
      else arg :: redactFrom (expectsSecret mapping arg) argv

/-- `_redact_argv`. -/
def redactArgv (argv : List Text) : List Text := redactFrom mapping false argv

/-- A character that `shlex.quote` leaves as it is. -/
def isSafe (point : CodePoint) : Bool :=
  (0x30 ≤ point ∧ point ≤ 0x39) ∨ (0x41 ≤ point ∧ point ≤ 0x5A) ∨
    (0x61 ≤ point ∧ point ≤ 0x7A) ∨ (Text.ofString "_@%+=:,./-").contains point

/-- `shlex.quote`. -/
def shlexQuote (arg : Text) : Text :=
  if arg = [] then Text.ofString "''"
  else if arg.all isSafe then arg
  else
    [0x27] ++ (arg.flatMap fun point => if point = 0x27 then Text.ofString "'\"'\"'" else [point]) ++
      [0x27]

/-- `_command_display`, which joins the arguments as `shlex.join` does. -/
def commandDisplay (argv : List Text) : Text :=
  [0x20].intercalate ((redactArgv mapping argv).map shlexQuote)

/-! ### What the loop remembers -/

/-- `redact_next` after some arguments. -/
def redactsAfter (redactNext : Bool) : List Text → Bool
  | [] => redactNext
  | arg :: argv =>
      redactsAfter (!redactNext && expectsSecret mapping arg) argv

variable {mapping} {arg flag value name : Text} {argv before after : List Text} {redactNext : Bool}

theorem expectsSecret_of_assignsSecret (assigns : assignsSecret mapping arg = true) :
    expectsSecret mapping arg = false := by
  simp [expectsSecret, assigns]

theorem redactFrom_append (redactNext : Bool) (before after : List Text) :
    redactFrom mapping redactNext (before ++ after) =
      redactFrom mapping redactNext before ++
        redactFrom mapping (redactsAfter mapping redactNext before) after := by
  induction before generalizing redactNext with
  | nil => rfl
  | cons arg before ih =>
      rw [List.cons_append, redactFrom, redactFrom, redactsAfter]
      split_ifs with next assigns
      · simp [ih, next]
      · simp [ih, next, expectsSecret_of_assignsSecret assigns]
      · simp [ih, next]

/-- How many arguments directly before a position expect a secret if they are no value. -/
def expectingRun (mapping : CaseMapping) (before : List Text) : Nat :=
  (before.reverse.takeWhile (expectsSecret mapping)).length

/-- In a row of options that expect a secret, every second one is taken for the value. -/
theorem redactsAfter_iff (mapping : CaseMapping) (before : List Text) :
    redactsAfter mapping false before = true ↔ ¬ Even (expectingRun mapping before) := by
  have concat (redactNext : Bool) (before : List Text) (arg : Text) :
      redactsAfter mapping redactNext (before ++ [arg]) =
        (!redactsAfter mapping redactNext before && expectsSecret mapping arg) := by
    induction before generalizing redactNext with
    | nil => rfl
    | cons first before ih => exact ih _
  induction before using List.reverseRecOn with
  | nil => simp [redactsAfter, expectingRun]
  | append_singleton before arg ih =>
      have run : expectingRun mapping (before ++ [arg]) =
          if expectsSecret mapping arg then expectingRun mapping before + 1 else 0 := by
        rw [expectingRun, List.reverse_append, List.reverse_singleton, List.singleton_append,
          List.takeWhile_cons]
        split <;> simp [expectingRun]
      rw [concat, run]
      cases expects : expectsSecret mapping arg with
      | false => simp
      | true =>
          have old := not_congr ih
          simp only [Bool.not_eq_true] at old
          simp only [Bool.and_true, Bool.not_eq_true', if_true]
          rw [old, Nat.even_add_one]

/-! ### What is hidden -/

/-- An option without `=` whose name says that a secret follows. -/
def IsSecretOption (mapping : CaseMapping) (arg : Text) : Prop :=
  arg.head? = some 0x2D ∧ hasSecretPart mapping arg = true ∧ equalsSign ∉ arg

/-- The redacted arguments and their display depend on no flagged value. -/
structure HidesSecrets (mapping : CaseMapping) (argv : List Text) : Prop where
  next : ∀ position flag, argv[position]? = some flag → IsSecretOption mapping flag →
    ∀ value, redactArgv mapping (argv.set (position + 1) value) = redactArgv mapping argv ∧
      commandDisplay mapping (argv.set (position + 1) value) = commandDisplay mapping argv
  assigned : ∀ position name value, argv[position]? = some (name ++ equalsSign :: value) →
    equalsSign ∉ name → hasSecretPart mapping name = true →
    ∀ other, redactArgv mapping (argv.set position (name ++ equalsSign :: other)) =
        redactArgv mapping argv ∧
      commandDisplay mapping (argv.set position (name ++ equalsSign :: other)) =
        commandDisplay mapping argv

/-- No secret option that an argument follows is itself taken for a value. -/
def OptionsApart (mapping : CaseMapping) (argv : List Text) : Prop :=
  ∀ position flag, argv[position]? = some flag → IsSecretOption mapping flag →
    position + 1 < argv.length → Even (expectingRun mapping (argv.take position))

theorem not_assignsSecret (free : equalsSign ∉ arg) : assignsSecret mapping arg = false := by
  simp [assignsSecret, free]

theorem IsSecretOption.expects (isOption : IsSecretOption mapping flag) :
    expectsSecret mapping flag = true := by
  rcases isOption with ⟨dash, secret, free⟩
  simp [expectsSecret, not_assignsSecret free, (mapping.lower_dash flag).mpr dash, secret]

theorem optionName_append (free : equalsSign ∉ name) :
    optionName (name ++ equalsSign :: value) = name := by
  rw [optionName, List.takeWhile_append_of_pos]
  · simp
  · intro point mem
    simpa using fun same : point = equalsSign => free (same ▸ mem)

/-- The argument after a secret option that is no value. -/
theorem redactFrom_option (isOption : IsSecretOption mapping flag) (value : Text)
    (after : List Text) :
    redactFrom mapping false (flag :: value :: after) =
      flag :: redactedMark :: redactFrom mapping false after := by
  simp [redactFrom, not_assignsSecret isOption.2.2, isOption.expects]

/-- The value of a secret assignment. -/
theorem redactFrom_assignment (free : equalsSign ∉ name) (secret : hasSecretPart mapping name = true)
    (redactNext : Bool) (value : Text) (after : List Text) :
    redactFrom mapping redactNext ((name ++ equalsSign :: value) :: after) =
      (if redactNext then redactedMark else name ++ equalsSign :: redactedMark) ::
        redactFrom mapping false after := by
  have assigns : assignsSecret mapping (name ++ equalsSign :: value) = true := by
    simp [assignsSecret, optionName_append free, secret]
  rw [redactFrom]
  split_ifs
  · rfl
  · rw [optionName_append free]

/-- An argument after an option that is taken for a value is shown. -/
theorem redactFrom_shadowed (flag : Text) (free : equalsSign ∉ value) (after : List Text) :
    redactFrom mapping true (flag :: value :: after) =
      redactedMark :: value :: redactFrom mapping (expectsSecret mapping value) after := by
  simp [redactFrom, not_assignsSecret free]

theorem set_length_append (before after : List Text) (arg other : Text) :
    (before ++ arg :: after).set before.length other = before ++ other :: after := by
  simp

/-- An argument vector around a position. -/
theorem exists_split {position : Nat} (found : argv[position]? = some arg) :
    ∃ before after, argv = before ++ arg :: after ∧ position = before.length ∧
      argv.take position = before := by
  rcases List.getElem?_eq_some_iff.mp found with ⟨inside, rfl⟩
  refine ⟨argv.take position, argv.drop (position + 1), ?_, by simp [inside.le], rfl⟩
  simp

/-- Redaction hides every flagged value exactly when no secret option is taken for a value. -/
theorem hidesSecrets_iff (mapping : CaseMapping) (argv : List Text) :
    HidesSecrets mapping argv ↔ OptionsApart mapping argv := by
  constructor
  · intro hides position flag found isOption inside
    rcases exists_split found with ⟨before, after, rfl, rfl, taken⟩
    rw [taken]
    by_contra odd
    have redacts := (redactsAfter_iff mapping before).mpr odd
    cases after with
    | nil => simp at inside
    | cons value after =>
        have shown (other : Text) (free : equalsSign ∉ other) :
            redactFrom mapping true (flag :: other :: after) =
              redactFrom mapping true (flag :: value :: after) := by
          have same := (hides.next before.length flag (by simp) isOption other).1
          have split : (before ++ flag :: value :: after).set (before.length + 1) other =
              before ++ flag :: other :: after := by
            simp
          rw [split, redactArgv, redactArgv, redactFrom_append, redactFrom_append, redacts] at same
          exact List.append_cancel_left same
        have one := shown [0x61] (by decide)
        have two := shown [] (by simp)
        rw [redactFrom_shadowed flag (by decide)] at one
        rw [redactFrom_shadowed flag (by simp), ← one] at two
        simp at two
  · intro apart
    constructor
    · intro position flag found isOption value
      have same : redactArgv mapping (argv.set (position + 1) value) = redactArgv mapping argv := by
        rcases Nat.lt_or_ge (position + 1) argv.length with inside | outside
        · have even := apart position flag found isOption inside
          rcases exists_split found with ⟨before, after, rfl, rfl, taken⟩
          rw [taken] at even
          have shows : redactsAfter mapping false before = false :=
            Bool.eq_false_iff.mpr fun redacts => (redactsAfter_iff mapping before).mp redacts even
          cases after with
          | nil => simp at inside
          | cons old after =>
              have split : (before ++ flag :: old :: after).set (before.length + 1) value =
                  before ++ flag :: value :: after := by
                simp
              rw [split, redactArgv, redactArgv, redactFrom_append, redactFrom_append, shows,
                redactFrom_option isOption, redactFrom_option isOption]
        · rw [List.set_eq_of_length_le outside]
      exact ⟨same, by rw [commandDisplay, commandDisplay, same]⟩
    · intro position name value found free secret other
      have same : redactArgv mapping (argv.set position (name ++ equalsSign :: other)) =
          redactArgv mapping argv := by
        rcases exists_split found with ⟨before, after, rfl, rfl, -⟩
        rw [set_length_append, redactArgv, redactArgv, redactFrom_append, redactFrom_append,
          redactFrom_assignment free secret, redactFrom_assignment free secret]
      exact ⟨same, by rw [commandDisplay, commandDisplay, same]⟩

/-- `str.lower` on a text of ASCII characters. -/
def asciiCase : CaseMapping where
  lower := List.map fun point => if 0x41 ≤ point ∧ point ≤ 0x5A then point + 0x20 else point
  lower_dash := by
    intro text
    cases text with
    | nil => simp
    | cons point text =>
        simp only [List.map_cons, List.head?_cons, Option.some.injEq]
        split_ifs with upper
        · rcases point with ⟨value, valid⟩
          simp only [Fin.le_def, Fin.ext_iff, Fin.val_add] at upper ⊢
          simp at upper ⊢
          omega
        · rfl

/-- `--password` is taken for the value of `--token`, and the password is shown. -/
theorem redaction_shadowed : ¬ HidesSecrets asciiCase
    ([ "login", "--token", "--password", "hunter2" ].map Text.ofString) := by
  intro hides
  have same := (hides.next 2 (Text.ofString "--password") (by decide)
    ⟨by decide, by decide, by decide⟩ (Text.ofString "other")).1
  revert same
  decide

end Longrun.Server
