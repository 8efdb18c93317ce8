import Longrun.Library.Utf8

/-!
# Paths and links

A file system is a tree of directories, files and symbolic links. Looking a path up follows every
link on the way, the last one included, and ends at a place that no link leads away from. The
system follows at most forty links and takes no text of more than 4095 bytes. A path that has been
normalised, as `pathlib` does it, has no `.` in it any more and names the same place whenever the
path did.
-/

namespace Longrun

/-- The name of an entry of a directory. -/
abbrev FileName := Text

namespace FileName

/-- The name of the directory itself. -/
def dot : FileName := [0x2E]

/-- The name of the directory above. -/
def dotdot : FileName := [0x2E, 0x2E]

end FileName

def slash : CodePoint := 0x2F

/-- A path: whether it begins at the root, and its names. A path that ends with a slash ends with
the name `.`, since only a directory has that entry. -/
structure PosixPath where
  absolute : Bool
  names : List FileName
  deriving DecidableEq

namespace PosixPath

/-- The path that a text denotes. -/
def parse (text : Text) : PosixPath where
  absolute := text.head? = some slash
  names :=
    (text.splitOn slash).filter (· ≠ []) ++
      if text.getLast? = some slash then [FileName.dot] else []

/-- `Path(text)`. -/
def normalise (path : PosixPath) : PosixPath :=
  { path with names := path.names.filter (· ≠ FileName.dot) }

/-- `path.name`, empty when there is none. -/
def name (path : PosixPath) : FileName := path.names.getLast?.getD []

/-- `base / path`. -/
def below (path : PosixPath) (base : List FileName) : PosixPath :=
  if path.absolute then path else ⟨true, base ++ path.names⟩

/-- The place that the names are looked up from. -/
def start (path : PosixPath) (directory : List FileName) : List FileName :=
  if path.absolute then [] else directory

/-- The text of a path. -/
def text (path : PosixPath) : Text :=
  (if path.absolute then [slash] else []) ++ [slash].intercalate path.names

/-- `os.path.join(directory, file)`, for a file without a slash. -/
def join (directory file : Text) : Text :=
  if directory = [] ∨ directory.getLast? = some slash then directory ++ file
  else directory ++ slash :: file

end PosixPath

/-- What is at a place. A file may be allowed to be executed and still fail to start. -/
inductive FileNode where
  | directory
  | file (executable starts : Bool)
  | link (target : PosixPath)
  deriving DecidableEq

/-- A file system: what is at the places below the root. -/
structure FileSystem where
  node : List FileName → Option FileNode

/-- Why a lookup fails. -/
inductive Errno where
  | notFound | notDirectory | nameTooLong | tooManyLinks
  deriving DecidableEq

/-- The most bytes that a path may have. -/
def maxPathBytes : Nat := 4095

/-- Short enough for the system. A surrogate escape is one byte, as it is with `errors="replace"`. -/
def Text.FitsPath (text : Text) : Prop := text.encode.length ≤ maxPathBytes

instance (text : Text) : Decidable text.FitsPath := inferInstanceAs (Decidable (_ ≤ _))

namespace FileSystem

/-- The entry of a directory. -/
def entry (files : FileSystem) (place : List FileName) (name : FileName) : Except Errno FileNode :=
  if files.node place ≠ some .directory then .error .notDirectory
  else
    match files.node (place ++ [name]) with
    | none => .error .notFound
    | some node => .ok node

/-- Looking names up from a place; what is behind a link is left to `follow`. -/
def walkWith (files : FileSystem)
    (follow : List FileName → List FileName → Except Errno (List FileName))
    (place : List FileName) : List FileName → Except Errno (List FileName)
  | [] => .ok place
  | name :: names =>
      if files.node place ≠ some .directory then .error .notDirectory
      else if name = FileName.dot then files.walkWith follow place names
      else if name = FileName.dotdot then files.walkWith follow place.dropLast names
      else
        match files.entry place name with
        | .error error => .error error
        | .ok (.link target) => follow (target.start place) (target.names ++ names)
        | .ok _ => files.walkWith follow (place ++ [name]) names

/-- Looking names up across at most so many links. -/
def walk (files : FileSystem) :
    Nat → List FileName → List FileName → Except Errno (List FileName)
  | 0 => files.walkWith fun _ _ => .error .tooManyLinks
  | links + 1 => files.walkWith (files.walk links)

/-- How many links a lookup follows. -/
def maxLinks : Nat := 40

/-- The place that a text leads to, seen from a directory. -/
def lookup (files : FileSystem) (directory : List FileName) (text : Text) :
    Except Errno (List FileName) :=
  if text = [] then .error .notFound
  else if text.FitsPath then
    files.walk maxLinks ((PosixPath.parse text).start directory) (PosixPath.parse text).names
  else .error .nameTooLong

/-- `os.access(path, os.X_OK)` for a path that is no directory. -/
def accessible (files : FileSystem) (directory : List FileName) (path : Text) : Bool :=
  (files.lookup directory path).toOption.any fun place =>
    (files.node place).any fun
      | .file executable _ => executable
      | _ => false

/-- `execve`: the place of the program that is started. -/
def execute (files : FileSystem) (directory : List FileName) (path : Text) :
    Option (List FileName) :=
  (files.lookup directory path).toOption.filter fun place =>
    files.node place = some (.file true true)

/-- A place that is reached from the root through directories only. -/
structure IsDirectory (files : FileSystem) (place : List FileName) : Prop where
  node : ∀ front, front <+: place → files.node front = some .directory
  proper : ∀ name ∈ place, name ≠ FileName.dot ∧ name ≠ FileName.dotdot

/-- Some of the `.` are left out. -/
inductive DropsDots : List FileName → List FileName → Prop where
  | nil : DropsDots [] []
  | keep (name : FileName) {names shorter : List FileName} :
      DropsDots names shorter → DropsDots (name :: names) (name :: shorter)
  | drop {names shorter : List FileName} :
      DropsDots names shorter → DropsDots (FileName.dot :: names) shorter

namespace DropsDots

variable {names shorter : List FileName}

theorem refl (names : List FileName) : DropsDots names names := by
  induction names with
  | nil => exact .nil
  | cons name names ih => exact .keep name ih

theorem filter (names : List FileName) : DropsDots names (names.filter (· ≠ FileName.dot)) := by
  induction names with
  | nil => exact .nil
  | cons name names ih =>
      rw [List.filter_cons]
      split_ifs with kept
      · exact .keep name ih
      · rcases Decidable.em (name = FileName.dot) with rfl | other
        · exact .drop ih
        · exact absurd (by simpa using other) kept

theorem append (front : List FileName) (drops : DropsDots names shorter) :
    DropsDots (front ++ names) (front ++ shorter) := by
  induction front with
  | nil => exact drops
  | cons name front ih => exact .keep name ih

end DropsDots

variable {files : FileSystem} {directory place names shorter : List FileName} {links : Nat}
  {follow : List FileName → List FileName → Except Errno (List FileName)}

private theorem toOption_eq_some_iff {Error Value : Type} {result : Except Error Value}
    {value : Value} : result.toOption = some value ↔ result = .ok value := by
  cases result <;> simp [Except.toOption]

theorem accessible_iff {path : Text} :
    files.accessible directory path = true ↔
      ∃ place starts, files.lookup directory path = .ok place ∧
        files.node place = some (.file true starts) := by
  rw [accessible, Option.any_eq_true]
  constructor
  · rintro ⟨place, found, isFile⟩
    rcases (Option.any_eq_true _ _).mp isFile with ⟨node, isNode, allowed⟩
    cases node with
    | file executable starts =>
        rcases (allowed : executable = true) with rfl
        exact ⟨place, starts, toOption_eq_some_iff.mp found, isNode⟩
    | directory => cases allowed
    | link target => cases allowed
  · rintro ⟨place, starts, found, isFile⟩
    exact ⟨place, by rw [found]; rfl, by simp [isFile]⟩

theorem execute_eq_some_iff {path : Text} :
    files.execute directory path = some place ↔
      files.lookup directory path = .ok place ∧
        files.node place = some (.file true true) := by
  rw [execute, Option.filter_eq_some_iff, decide_eq_true_iff, toOption_eq_some_iff]

/-- An absolute text leads to the same place from every directory. -/
theorem lookup_of_absolute {text : Text} (absolute : (PosixPath.parse text).absolute = true)
    (left right : List FileName) : files.lookup left text = files.lookup right text := by
  simp [lookup, PosixPath.start, absolute]

end FileSystem

end Longrun
