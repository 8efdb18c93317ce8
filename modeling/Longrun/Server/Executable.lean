import Longrun.Library.RealPath
import Longrun.Server.Redaction

/-!
# The program that is checked and the program that runs

`_validate_argv` refuses shells and programs that raise privileges by the name of the program,
links followed. It finds the program as `shutil.which` does, in the working directory of the server,
and lets a command pass whose program it cannot resolve. The command is run by `os.execvpe` in the
working directory of the job, which goes on with the next entry of `PATH` when a program does not
start. The check overlooks a program when the two searches end at different files, when the first
one finds nothing, and when a path is too long to be inspected.
-/

namespace Longrun.Server

/-- `SHELL_EXECUTABLES`, sorted. -/
def shellExecutables : List String :=
  ["bash", "cmd", "cmd.exe", "dash", "fish", "powershell", "pwsh", "sh", "zsh"]

/-- `ELEVATION_EXECUTABLES`, sorted. -/
def elevationExecutables : List String := ["doas", "pkexec", "su", "sudo"]

def pathSeparator : CodePoint := 0x3A

/-- What a search for a command depends on: the file system, `PATH` (or its default), the working
directory of the server, the resolved working directory of the job, and how deep `_joinrealpath` may
call itself. -/
structure CommandSearch where
  files : FileSystem
  path : Text
  serverDirectory : List FileName
  cwd : List FileName
  recursionDepth : Nat
  serverIsDirectory : files.IsDirectory serverDirectory
  isDirectory : files.IsDirectory cwd
  deep : FileSystem.maxLinks < recursionDepth

namespace CommandSearch

variable (search : CommandSearch)

/-- The entries of `PATH`. -/
def entries : List Text := search.path.splitOn pathSeparator

/-- The paths under which a command without a slash may be found. -/
def candidates (command : Text) : List Text := search.entries.map (PosixPath.join · command)

/-- An entry of `PATH` has an executable file of this name, seen from the server. -/
def Offers (entry command : Text) : Prop :=
  search.files.accessible search.serverDirectory (PosixPath.join entry command) = true

/-- `shutil.which`, in the server. -/
def which (command : Text) : Option Text :=
  if search.path = [] then none
  else (search.candidates command).find? (search.files.accessible search.serverDirectory)

/-- `os.execvpe`, in the child: the place of the program that is started. -/
def execvpe (command : Text) : Option (List FileName) :=
  if slash ∈ command then search.files.execute search.cwd command
  else (search.candidates command).findSome? (search.files.execute search.cwd)

/-- `Path(command)`, below the working directory of the job. -/
def pathOfCommand (command : Text) : PosixPath :=
  (PosixPath.parse command).normalise.below search.cwd

/-- `Path(found)`, for what `shutil.which` finds in an entry of `PATH`. -/
def pathOfEntry (entry command : Text) : PosixPath :=
  (PosixPath.parse (PosixPath.join entry command)).normalise

/-- The path whose file the check looks at. -/
def executablePath (command : Text) : Option PosixPath :=
  if slash ∈ command then some (search.pathOfCommand command)
  else (search.which command).map fun found => (PosixPath.parse found).normalise

/-- Resolving a path in the server. -/
def resolve (path : PosixPath) : Except ResolveError (List FileName) :=
  search.files.resolve search.serverDirectory search.recursionDepth path

/-- A path on the way is longer than the system takes, seen from the server. -/
def HasLongWay (path : PosixPath) : Prop := search.files.HasLongWay search.serverDirectory path

end CommandSearch

/-- What `_validate_argv` raises: `ValueError`, the `RuntimeError` of `pathlib` for links that go
round, or `RecursionError`. -/
inductive ArgvError where
  | value (message : String)
  | symlinkLoop
  | recursion
  deriving DecidableEq

/-- The last name of a place. -/
def baseName (place : List FileName) : FileName := place.getLast?.getD []

/-- The place that the check looks at; errors of the system are ignored. -/
def resolvedExecutable (search : CommandSearch) (command : Text) :
    Except ArgvError (Option (List FileName)) :=
  match search.executablePath command with
  | none => .ok none
  | some path =>
      match search.resolve path with
      | .ok place => .ok (some place)
      | .error (.system .tooManyLinks) => .error .symlinkLoop
      | .error (.system _) => .ok none
      | .error .recursion => .error .recursion

/-- The names that the check compares. -/
def executableNames (mapping : CaseMapping) (search : CommandSearch) (command : Text) :
    Except ArgvError (List FileName) :=
  (resolvedExecutable search command).map fun resolved =>
    mapping.lower (PosixPath.parse command).normalise.name ::
      (resolved.map fun place => mapping.lower (baseName place)).toList

/-- The first of the names that are blocked. -/
def blockedName (blocked : List String) (names : List FileName) : Option String :=
  blocked.find? fun name => Text.ofString name ∈ names

/-- The loop over the arguments. -/
def checkArguments (index total : Nat) : List Text → Except String Unit
  | [] => .ok ()
  | item :: argv =>
      if item = [] then .error s!"argv[{index}] is empty"
      else if 0 ∈ item then .error s!"argv[{index}] contains a NUL byte"
      else if total + item.length > 1024 * 1024 then
        .error "combined argv length exceeds 1 MiB"
      else checkArguments (index + 1) (total + item.length) argv

/-- `_validate_argv`. -/
def validateArgv (mapping : CaseMapping) (allowShell : Bool) (search : CommandSearch)
    (argv : List Text) : Except ArgvError (List Text) :=
  match argv with
  | [] => .error (.value "argv must contain at least one element")
  | command :: arguments =>
      if (command :: arguments).length > 256 then
        .error (.value "argv contains more than 256 elements")
      else
        match checkArguments 0 0 (command :: arguments) with
        | .error error => .error (.value error)
        | .ok () =>
            match executableNames mapping search command with
            | .error error => .error error
            | .ok names =>
                match blockedName elevationExecutables names,
                  blockedName shellExecutables names with
                | some name, _ =>
                    .error (.value s!"privilege-elevation command is disabled: {name}")
                | none, some name =>
                    if allowShell then .ok (command :: arguments)
                    else .error (.value s!"shell execution is disabled: {name}")
                | none, none => .ok (command :: arguments)

/-- A name that no program may have when shells are not allowed. -/
def IsBlocked (mapping : CaseMapping) (name : FileName) : Prop :=
  ∃ blocked ∈ elevationExecutables ++ shellExecutables, mapping.lower name = Text.ofString blocked

/-- A text that can be the first argument. -/
def IsCommand (command : Text) : Prop :=
  command ≠ [] ∧ 0 ∉ command ∧ command.length ≤ 1024 * 1024

/-- A command starts a program with a blocked name, and has another name itself. -/
structure Disguised (mapping : CaseMapping) (search : CommandSearch) (command : Text)
    (place : List FileName) : Prop where
  isCommand : IsCommand command
  runs : search.execvpe command = some place
  blocked : IsBlocked mapping (baseName place)
  unnamed : ¬ IsBlocked mapping (PosixPath.parse command).normalise.name

/-- What makes the check overlook the program that a command starts. -/
inductive Overlooked (mapping : CaseMapping) (search : CommandSearch) (command : Text) : Prop
  /-- The file is given, and a path on the way to it is too long. -/
  | longWay (given : slash ∈ command) (long : search.HasLongWay (search.pathOfCommand command))
  /-- `PATH` is empty: the server searches nowhere, the child in the directory of the job. -/
  | emptyPath (searched : slash ∉ command) (empty : search.path = [])
  /-- No entry of `PATH` has the program when it is seen from the server. -/
  | unseen (searched : slash ∉ command)
      (nowhere : ∀ entry ∈ search.entries, ¬ search.Offers entry command)
  /-- The first entry of `PATH` that has the program, seen from the server, has a harmless one. -/
  | harmless (searched : slash ∉ command) (before after : List Text) (entry : Text)
      (seen : List FileName) (isEntry : search.entries = before ++ entry :: after)
      (first : ∀ other ∈ before, ¬ search.Offers other command)
      (leads : search.files.lookup search.serverDirectory (PosixPath.join entry command) = .ok seen)
      (offers : search.Offers entry command) (free : ¬ IsBlocked mapping (baseName seen))
  /-- A path on the way from that entry is too long. -/
  | longEntry (searched : slash ∉ command) (before after : List Text) (entry : Text)
      (isEntry : search.entries = before ++ entry :: after)
      (first : ∀ other ∈ before, ¬ search.Offers other command)
      (offers : search.Offers entry command)
      (long : search.HasLongWay (CommandSearch.pathOfEntry entry command))

/-- No program with a blocked name is overlooked. -/
def NothingOverlooked (mapping : CaseMapping) (search : CommandSearch) : Prop :=
  ∀ command place, Disguised mapping search command place → ¬ Overlooked mapping search command

variable {mapping : CaseMapping} {search : CommandSearch} {argv arguments : List Text}
  {command : Text} {place : List FileName}

/-- For another command the check looks at the first entry that has it. -/
theorem which_of_first {before after : List Text} {entry : Text} (filled : search.path ≠ [])
    (isEntry : search.entries = before ++ entry :: after)
    (first : ∀ other ∈ before, ¬ search.Offers other command)
    (offers : search.Offers entry command) :
    search.which command = some (PosixPath.join entry command) := by
  rw [CommandSearch.which, if_neg filled, CommandSearch.candidates, isEntry, List.map_append,
    List.find?_append, List.map_cons, List.find?_cons_of_pos offers]
  rw [Option.or_eq_right_of_none]
  simpa [CommandSearch.Offers] using first

theorem which_eq_none (nowhere : ∀ entry ∈ search.entries, ¬ search.Offers entry command) :
    search.which command = none := by
  rw [CommandSearch.which]
  split_ifs
  · rfl
  · rw [List.find?_eq_none]
    intro text mem
    rcases List.mem_map.mp mem with ⟨entry, isEntry, rfl⟩
    exact nowhere entry isEntry

theorem absolute_join {entry : Text} (absolute : entry.head? = some slash) (command : Text) :
    (PosixPath.parse (PosixPath.join entry command)).absolute = true := by
  have some : entry ≠ [] := fun none => by simp [none] at absolute
  rw [PosixPath.join]
  split_ifs <;> simp [PosixPath.parse, List.head?_append_of_ne_nil _ some, absolute]

/-- Absolute paths are the same files in both directories. -/
theorem exists_find_of_findSome {files : FileSystem} {cwd serverDirectory : List FileName}
    {texts : List Text} (absolute : ∀ text ∈ texts, (PosixPath.parse text).absolute = true)
    (starting : ∀ place starts, files.node place = some (.file true starts) → starts = true)
    (runs : texts.findSome? (files.execute cwd) = some place) :
    ∃ text ∈ texts, texts.find? (files.accessible serverDirectory) = some text ∧
      files.execute cwd text = some place := by
  induction texts with
  | nil => simp at runs
  | cons text texts ih =>
      have here := absolute text List.mem_cons_self
      have same : files.lookup serverDirectory text = files.lookup cwd text :=
        FileSystem.lookup_of_absolute here serverDirectory cwd
      rw [List.findSome?_cons] at runs
      cases executed : files.execute cwd text with
      | some other =>
          rw [executed] at runs
          rcases Option.some.inj runs with rfl
          refine ⟨text, List.mem_cons_self, List.find?_cons_of_pos ?_, executed⟩
          rcases FileSystem.execute_eq_some_iff.mp executed with ⟨found, isFile⟩
          exact FileSystem.accessible_iff.mpr ⟨other, true, same.trans found, isFile⟩
      | none =>
          rw [executed] at runs
          have inaccessible : files.accessible serverDirectory text ≠ true := fun accessible => by
            rcases FileSystem.accessible_iff.mp accessible with ⟨other, starts, found, isFile⟩
            rcases starting other starts isFile with rfl
            rw [same] at found
            rw [FileSystem.execute_eq_some_iff.mpr ⟨found, isFile⟩] at executed
            cases executed
          rcases ih (fun other mem => absolute other (List.mem_cons_of_mem _ mem)) runs with
            ⟨found, mem, isFound, starts⟩
          refine ⟨found, List.mem_cons_of_mem _ mem, ?_, starts⟩
          rw [List.find?_cons_of_neg inaccessible, isFound]

/-- Nothing is overlooked when every entry of `PATH` is absolute, every executable file starts and
no way from the root is too long. -/
theorem nothingOverlooked_of_absolute
    (absolute : ∀ entry ∈ search.entries, entry.head? = some slash)
    (starting : ∀ place starts, search.files.node place = some (.file true starts) →
      starts = true)
    (short : ∀ path : PosixPath, path.absolute = true → ¬ search.HasLongWay path) :
    NothingOverlooked mapping search := by
  intro command place disguised overlooked
  have filled : search.path ≠ [] := fun empty => by
    simp [CommandSearch.entries, empty] at absolute
  have runs (searched : slash ∉ command) : ∃ text ∈ search.candidates command,
      search.which command = some text ∧ search.files.execute search.cwd text = some place := by
    have runs := disguised.runs
    rw [CommandSearch.execvpe, if_neg searched] at runs
    have absoluteTexts : ∀ text ∈ search.candidates command,
        (PosixPath.parse text).absolute = true := by
      intro text mem
      rcases List.mem_map.mp mem with ⟨entry, isEntry, rfl⟩
      exact absolute_join (absolute entry isEntry) command
    rw [CommandSearch.which, if_neg filled]
    exact exists_find_of_findSome absoluteTexts starting runs
  cases overlooked with
  | longWay given long =>
      refine short _ ?_ long
      rw [CommandSearch.pathOfCommand, PosixPath.below]
      split_ifs with isAbsolute
      · exact isAbsolute
      · rfl
  | emptyPath searched empty => exact filled empty
  | unseen searched nowhere =>
      rcases runs searched with ⟨text, -, found, -⟩
      cases (which_eq_none nowhere).symm.trans found
  | harmless searched before after entry seen isEntry first leads offers free =>
      rcases runs searched with ⟨text, mem, found, starts⟩
      rcases Option.some.inj ((which_of_first filled isEntry first offers).symm.trans found)
        with rfl
      have isAbsolute := absolute_join
        (absolute entry (isEntry ▸ List.mem_append_right _ List.mem_cons_self)) command
      rw [FileSystem.lookup_of_absolute isAbsolute _ search.cwd,
        (FileSystem.execute_eq_some_iff.mp starts).1, Except.ok.injEq] at leads
      exact free (leads ▸ disguised.blocked)
  | longEntry searched before after entry isEntry first offers long =>
      have isAbsolute := absolute_join
        (absolute entry (isEntry ▸ List.mem_append_right _ List.mem_cons_self)) command
      exact short (CommandSearch.pathOfEntry entry command) isAbsolute long

/-! ### A relative entry of `PATH` -/

end Longrun.Server
