import Longrun.Library.Dict
import Longrun.Library.FileSystem

/-!
# Resolving a path

`Path.resolve(strict=True)` follows the links of a path by itself: it inspects one name after the
other, takes `..` away from the text, and remembers where every link leads. A path that the system
can look up is resolved to the same place, unless one of the paths that are inspected on the way is
longer than the system takes.
-/

namespace Longrun

namespace PosixPath

/-- `os.path.join(path, name)`. -/
def child (path : PosixPath) (name : FileName) : PosixPath :=
  { path with names := path.names ++ [name] }

/-- The path above, as `_joinrealpath` forms it. -/
def parent (path : PosixPath) : PosixPath :=
  match path.names.getLast? with
  | none => if path.absolute then path else ⟨false, [FileName.dotdot]⟩
  | some name =>
      if name = FileName.dotdot then path.child FileName.dotdot
      else { path with names := path.names.dropLast }

/-- The path that the names of a link's target are joined to. -/
def base (path target : PosixPath) : PosixPath := if target.absolute then ⟨true, []⟩ else path

/-- The place of a path without links, seen from a directory: `abspath`. -/
def seat (directory : List FileName) (path : PosixPath) : List FileName :=
  path.names.foldl
    (fun place name => if name = FileName.dotdot then place.dropLast else place ++ [name])
    (path.start directory)

/-- Short enough to be inspected. -/
def Fits (path : PosixPath) : Prop := path.text.FitsPath

instance (path : PosixPath) : Decidable path.Fits := inferInstanceAs (Decidable path.text.FitsPath)

end PosixPath

/-- Why a path is not resolved: an error of the system, or a recursion that is too deep. -/
inductive ResolveError where
  | system (error : Errno)
  | recursion
  deriving DecidableEq

/-- Where links lead; nothing yet for a link that is being resolved. -/
abbrev SeenLinks := Dict PosixPath (Option PosixPath)

namespace FileSystem

/-- `os.lstat(os.path.join(path, name))`. -/
def lstat (files : FileSystem) (directory : List FileName) (path : PosixPath) (name : FileName) :
    Except Errno FileNode :=
  if (path.child name).Fits then
    match files.walk maxLinks (path.start directory) path.names with
    | .error error => .error error
    | .ok place => files.entry place name
  else .error .nameTooLong

/-- How `os.stat` of a link fails that leads back to itself. -/
def loopError (files : FileSystem) (directory : List FileName) (path : PosixPath) : Errno :=
  match files.lookup directory path.text with
  | .error error => error
  -- A link that leads back to itself leads nowhere.
  | .ok _ => .tooManyLinks

/-- The loop of `_joinrealpath`; the target of a link is left to `follow`. -/
def realPathWith (files : FileSystem) (directory : List FileName)
    (follow : PosixPath → PosixPath → SeenLinks → Except ResolveError (PosixPath × SeenLinks))
    (path : PosixPath) (seen : SeenLinks) :
    List FileName → Except ResolveError (PosixPath × SeenLinks)
  | [] => .ok (path, seen)
  | name :: names =>
      if name = FileName.dot then files.realPathWith directory follow path seen names
      else if name = FileName.dotdot then
        files.realPathWith directory follow path.parent seen names
      else
        match files.lstat directory path name with
        | .error error => .error (.system error)
        | .ok (.link target) =>
            match seen.get? (path.child name) with
            | some (some resolved) => files.realPathWith directory follow resolved seen names
            | some none => .error (.system (files.loopError directory (path.child name)))
            | none =>
                match follow path target (seen.set (path.child name) none) with
                | .error error => .error error
                | .ok (resolved, seen) =>
                    files.realPathWith directory follow resolved
                      (seen.set (path.child name) (some resolved)) names
        | .ok _ => files.realPathWith directory follow (path.child name) seen names

/-- `_joinrealpath` with `strict`, down to a depth of the recursion. -/
def joinRealPath (files : FileSystem) (directory : List FileName) :
    Nat → PosixPath → PosixPath → SeenLinks → Except ResolveError (PosixPath × SeenLinks)
  | 0, _, _, _ => .error .recursion
  | depth + 1, path, rest, seen =>
      files.realPathWith directory (files.joinRealPath directory depth) (path.base rest) seen
        rest.names

/-- `path.resolve(strict=True)`, in a process that works in a directory. -/
def resolve (files : FileSystem) (directory : List FileName) (depth : Nat) (path : PosixPath) :
    Except ResolveError (List FileName) :=
  (files.joinRealPath directory depth ⟨false, []⟩ path Dict.empty).map fun result =>
    result.1.seat directory

/-! ### Where a path leads -/

/-- The names lead from a path without links to another one, by a way of paths that are inspected,
across so many links. -/
inductive Leads (files : FileSystem) (directory : List FileName) :
    PosixPath → List FileName → PosixPath → List PosixPath → Nat → Prop
  | done {path : PosixPath} : Leads files directory path [] path [] 0
  | dot {path last : PosixPath} {names : List FileName} {way : List PosixPath} {links : Nat} :
      Leads files directory path names last way links →
        Leads files directory path (FileName.dot :: names) last way links
  | up {path last : PosixPath} {names : List FileName} {way : List PosixPath} {links : Nat} :
      Leads files directory path.parent names last way links →
        Leads files directory path (FileName.dotdot :: names) last way links
  | enter {path last : PosixPath} {name : FileName} {names : List FileName} {way : List PosixPath}
      {links : Nat} {node : FileNode} :
      name ≠ FileName.dot → name ≠ FileName.dotdot →
        files.entry (path.seat directory) name = .ok node →
        (∀ target, node ≠ .link target) →
        Leads files directory (path.child name) names last way links →
        Leads files directory path (name :: names) last (path.child name :: way) links
  | follow {path middle last : PosixPath} {name : FileName} {names : List FileName}
      {inner outer : List PosixPath} {below beyond : Nat} {target : PosixPath} :
      name ≠ FileName.dot → name ≠ FileName.dotdot →
        files.entry (path.seat directory) name = .ok (.link target) →
        Leads files directory (path.base target) target.names middle inner below →
        Leads files directory middle names last outer beyond →
        Leads files directory path (name :: names) last (path.child name :: (inner ++ outer))
          (below + beyond + 1)

/-- A path on the way is longer than the system takes. -/
def HasLongWay (files : FileSystem) (directory : List FileName) (path : PosixPath) : Prop :=
  ∃ last way links,
    files.Leads directory (PosixPath.base ⟨false, []⟩ path) path.names last way links ∧
      ∃ inspected ∈ way, ¬ inspected.Fits

variable {files : FileSystem} {directory place : List FileName} {path last : PosixPath}
  {names : List FileName} {way : List PosixPath} {links : Nat}

/-- A path without links: it goes up from the directory and then through entries of directories. -/
inductive Plain (files : FileSystem) (directory : List FileName) : PosixPath → Prop
  | root : Plain files directory ⟨true, []⟩
  | above (levels : Nat) : Plain files directory ⟨false, List.replicate levels FileName.dotdot⟩
  | child {path : PosixPath} {name : FileName} {node : FileNode} :
      Plain files directory path → name ≠ FileName.dot → name ≠ FileName.dotdot →
        files.entry (path.seat directory) name = .ok node → (∀ target, node ≠ .link target) →
        Plain files directory (path.child name)

end FileSystem

namespace PosixPath

variable {directory : List FileName} {path : PosixPath} {name : FileName}

theorem parent_child (proper : name ≠ FileName.dotdot) : (path.child name).parent = path := by
  simp [parent, child, proper]

theorem parent_child_dotdot :
    (path.child FileName.dotdot).parent = (path.child FileName.dotdot).child FileName.dotdot := by
  simp [parent, child]

/-- A path that only goes up, by its last step. -/
theorem above_succ (levels : Nat) :
    (⟨false, List.replicate (levels + 1) FileName.dotdot⟩ : PosixPath) =
      (⟨false, List.replicate levels FileName.dotdot⟩ : PosixPath).child FileName.dotdot := by
  rw [child, List.replicate_succ']

theorem child_injective {other : PosixPath} {second : FileName}
    (same : path.child name = other.child second) : path = other ∧ name = second := by
  rcases path with ⟨absolute, names⟩
  rcases other with ⟨absolute', names'⟩
  rw [child, child, PosixPath.mk.injEq] at same
  rcases same with ⟨sameBase, sameNames⟩
  rcases List.append_inj' sameNames rfl with ⟨rfl, sameLast⟩
  rcases List.singleton_inj.mp sameLast with rfl
  exact ⟨by rw [PosixPath.mk.injEq]; exact ⟨sameBase, rfl⟩, rfl⟩

end PosixPath

namespace FileSystem

variable {files : FileSystem} {directory place : List FileName} {path last : PosixPath}
  {names : List FileName} {way : List PosixPath} {links : Nat}

namespace Plain

theorem parent (plain : files.Plain directory path) : files.Plain directory path.parent := by
  cases plain with
  | root => exact .root
  | above levels =>
      cases levels with
      | zero => exact .above 1
      | succ levels =>
          rw [PosixPath.above_succ, PosixPath.parent_child_dotdot, ← PosixPath.above_succ,
            ← PosixPath.above_succ]
          exact .above _
  | child plain _ proper _ _ =>
      rw [PosixPath.parent_child proper]
      exact plain

theorem base (plain : files.Plain directory path) (target : PosixPath) :
    files.Plain directory (path.base target) := by
  rw [PosixPath.base]
  split_ifs
  · exact .root
  · exact plain

end Plain

namespace Leads

variable {other : PosixPath} {otherWay : List PosixPath} {otherLinks : Nat}

theorem plain (leads : files.Leads directory path names last way links)
    (plain : files.Plain directory path) : files.Plain directory last := by
  induction leads with
  | done => exact plain
  | dot _ ih => exact ih plain
  | up _ ih => exact ih plain.parent
  | enter notDot proper isEntry noLink _ ih =>
      exact ih (.child plain notDot proper isEntry noLink)
  | follow _ _ _ _ _ ihTarget ih => exact ih (ihTarget (plain.base _))

/-- Names lead to one place only. -/
theorem unique (leads : files.Leads directory path names last way links)
    (again : files.Leads directory path names other otherWay otherLinks) :
    other = last ∧ otherWay = way ∧ otherLinks = links := by
  induction leads generalizing other otherWay otherLinks with
  | done =>
      cases again
      exact ⟨rfl, rfl, rfl⟩
  | dot _ ih =>
      cases again with
      | dot again => exact ih again
      | enter notDot => exact absurd rfl notDot
      | follow notDot => exact absurd rfl notDot
  | up _ ih =>
      cases again with
      | up again => exact ih again
      | enter _ proper => exact absurd rfl proper
      | follow _ proper => exact absurd rfl proper
  | enter notDot proper isEntry noLink _ ih =>
      cases again with
      | dot => exact absurd rfl notDot
      | up => exact absurd rfl proper
      | enter _ _ _ _ again =>
          rcases ih again with ⟨rfl, rfl, rfl⟩
          exact ⟨rfl, rfl, rfl⟩
      | follow _ _ isLink => exact absurd (Except.ok.inj (isEntry.symm.trans isLink)) (noLink _)
  | follow notDot proper isLink _ _ ihTarget ih =>
      cases again with
      | dot => exact absurd rfl notDot
      | up => exact absurd rfl proper
      | enter _ _ isEntry noLink =>
          exact absurd (Except.ok.inj (isEntry.symm.trans isLink)) (noLink _)
      | follow _ _ isAlso targetAgain again =>
          rcases FileNode.link.inj (Except.ok.inj (isAlso.symm.trans isLink)) with rfl
          rcases ihTarget targetAgain with ⟨rfl, rfl, rfl⟩
          rcases ih again with ⟨rfl, rfl, rfl⟩
          exact ⟨rfl, rfl, rfl⟩

end Leads

/-- What is remembered of a link is where its target leads. -/
def Remembers (files : FileSystem) (directory : List FileName) (seen : SeenLinks) : Prop :=
  ∀ (path : PosixPath) (name : FileName) (target resolved : PosixPath),
    seen.get? (path.child name) = some (some resolved) →
    files.entry (path.seat directory) name = .ok (.link target) →
    ∃ way links, files.Leads directory (path.base target) target.names resolved way links ∧
      ∀ inspected ∈ way, inspected.Fits

/-- The links that are being resolved lead across at least so many links. -/
def Outlasted (files : FileSystem) (directory : List FileName) (seen : SeenLinks) (links : Nat) :
    Prop :=
  ∀ (path : PosixPath) (name : FileName) (target last : PosixPath) (way : List PosixPath)
    (below : Nat), seen.get? (path.child name) = some none →
    files.entry (path.seat directory) name = .ok (.link target) →
    files.Leads directory (path.base target) target.names last way below → links ≤ below

/-- The right result where names lead to a path: that path, or an error where a path on the way is
too long. -/
def Resolves (files : FileSystem) (directory : List FileName) (last : PosixPath)
    (way : List PosixPath) (seen : SeenLinks) :
    Except ResolveError (PosixPath × SeenLinks) → Prop
  | .ok (resolved, after) =>
      resolved = last ∧ (∀ inspected ∈ way, inspected.Fits) ∧ files.Remembers directory after ∧
        ∀ link, after.get? link = some none → seen.get? link = some none
  | .error error => error = .system .nameTooLong ∧ ∃ inspected ∈ way, ¬ inspected.Fits

variable {seen after : SeenLinks} {depth : Nat} {name : FileName} {target : PosixPath}

theorem Outlasted.mono {fewer : Nat} (outlasted : files.Outlasted directory seen links)
    (bound : fewer ≤ links) (kept : ∀ link, after.get? link = some none →
      seen.get? link = some none) : files.Outlasted directory after fewer :=
  fun path name target last way below inProgress isLink leads =>
    bound.trans (outlasted path name target last way below (kept _ inProgress) isLink leads)

/-- A link is being resolved. -/
theorem Outlasted.begin {middle : PosixPath} {inner : List PosixPath} {below : Nat}
    (outlasted : files.Outlasted directory seen links) (bound : below ≤ links)
    (isLink : files.entry (path.seat directory) name = .ok (.link target))
    (leads : files.Leads directory (path.base target) target.names middle inner below) :
    files.Outlasted directory (seen.set (path.child name) none) below := by
  intro other second aim last way count inProgress isOther otherLeads
  rcases Decidable.em (other.child second = path.child name) with same | different
  · rcases PosixPath.child_injective same with ⟨rfl, rfl⟩
    rcases FileNode.link.inj (Except.ok.inj (isOther.symm.trans isLink)) with rfl
    exact (leads.unique otherLeads).2.2.ge
  · rw [Dict.get?_set_of_ne _ _ different] at inProgress
    exact bound.trans (outlasted _ _ _ _ _ _ inProgress isOther otherLeads)

theorem Remembers.begin (remembers : files.Remembers directory seen) (link : PosixPath) :
    files.Remembers directory (seen.set link none) := by
  intro path name target resolved found isLink
  rw [Dict.get?_set] at found
  split_ifs at found
  · cases Option.some.inj found
  · exact remembers path name target resolved found isLink

theorem Remembers.finish {middle : PosixPath} {inner : List PosixPath} {below : Nat}
    (remembers : files.Remembers directory seen)
    (isLink : files.entry (path.seat directory) name = .ok (.link target))
    (leads : files.Leads directory (path.base target) target.names middle inner below)
    (fit : ∀ inspected ∈ inner, inspected.Fits) :
    files.Remembers directory (seen.set (path.child name) (some middle)) := by
  intro other second aim resolved found isOther
  rw [Dict.get?_set] at found
  split_ifs at found with same
  · rcases PosixPath.child_injective same with ⟨rfl, rfl⟩
    rcases FileNode.link.inj (Except.ok.inj (isOther.symm.trans isLink)) with rfl
    rcases Option.some.inj (Option.some.inj found) with rfl
    exact ⟨inner, below, leads, fit⟩
  · exact remembers other second aim resolved found isOther

theorem Resolves.cons {inspected : PosixPath} {result : Except ResolveError (PosixPath × SeenLinks)}
    (fits : inspected.Fits) (resolves : files.Resolves directory last way seen result) :
    files.Resolves directory last (inspected :: way) seen result := by
  cases result with
  | ok result =>
      rcases resolves with ⟨same, fit, rest⟩
      exact ⟨same, List.forall_mem_cons.mpr ⟨fits, fit⟩, rest⟩
  | error error =>
      rcases resolves with ⟨same, long, mem, unfit⟩
      exact ⟨same, long, List.mem_cons_of_mem _ mem, unfit⟩

/-- What follows a part of the way that is short enough. -/
theorem Resolves.append {inner outer : List PosixPath}
    {result : Except ResolveError (PosixPath × SeenLinks)}
    (fit : ∀ inspected ∈ inner, inspected.Fits)
    (kept : ∀ link, after.get? link = some none → seen.get? link = some none)
    (resolves : files.Resolves directory last outer after result) :
    files.Resolves directory last (inner ++ outer) seen result := by
  cases result with
  | ok result =>
      rcases resolves with ⟨same, outerFit, remembers, keeps⟩
      exact ⟨same, List.forall_mem_append.mpr ⟨fit, outerFit⟩, remembers,
        fun link inProgress => kept link (keeps link inProgress)⟩
  | error error =>
      rcases resolves with ⟨same, long, mem, unfit⟩
      exact ⟨same, long, List.mem_append_right _ mem, unfit⟩

end FileSystem

end Longrun
