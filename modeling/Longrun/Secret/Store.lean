import Longrun.Library.Dict
import Longrun.Library.Transition
import Longrun.Library.Utf8

/-!
# One-time secrets

A secret is staged in a file of its own, named by its handle. Claiming it opens the file, checks what
was opened, compares it with what the name stands for now, removes the name and returns the
descriptor. Pruning removes names by their age. Every file-system call is a step of its own, so that
any number of calls in any processes may be anywhere in between.
-/

namespace Longrun.Secret

/-- A handle. -/
abbrev SecretId := Text

/-- The identity of a file, which its name may lose. -/
abbrev Inode := Nat

/-- `SECRET_ID_RE.fullmatch(text)`. -/
def isSecretId (text : Text) : Bool :=
  text.length = 32 ∧
    text.all fun point => (0x30 ≤ point ∧ point ≤ 0x39) ∨ (0x61 ≤ point ∧ point ≤ 0x66)

/-- A file: what it contains and what `fstat` says about it, but for the number of its links. -/
structure StoredFile where
  content : List UInt8
  regular : Bool
  uid : Nat
  mode : Nat
  modified : ℚ
  deriving DecidableEq

/-- The user of a process and the arguments of a call in it. -/
structure Settings where
  uid : Nat
  ttlSec : Int
  maxBytes : Int
  deriving DecidableEq

/-- The checks of `claim_one_time_secret` on what it has opened. -/
def validateDetails (settings : Settings) (now : ℚ) (file : StoredFile) (links : Nat) :
    Except String Unit :=
  if ¬ file.regular then .error "one-time stdin handle is not a regular file"
  else if file.uid ≠ settings.uid then .error "one-time stdin handle has the wrong owner"
  else if file.mode ≠ 0o600 then .error "one-time stdin handle permissions must be 0600"
  else if links ≠ 1 then .error "one-time stdin handle must have exactly one link"
  else if file.content.length = 0 ∨ file.content.length > settings.maxBytes then
    .error "one-time stdin payload has an invalid size"
  else if now - file.modified < -5 ∨ now - file.modified > settings.ttlSec then
    .error "one-time stdin handle has expired"
  else .ok ()

/-! ### Calls -/

/-- Where a call of `claim_one_time_secret` is. -/
inductive ClaimStage where
  | opening
  | validating (inode : Inode)
  | comparing (inode : Inode)
  | unlinking (inode : Inode)
  | seeking (inode : Inode)
  | returned (inode : Inode)
  | raised (error : String)
  deriving DecidableEq

/-- Where `_prune_expired` is. -/
inductive PruneStage where
  | listing
  | examining (candidates : List SecretId)
  | removing (candidate : SecretId) (candidates : List SecretId)
  | ended
  deriving DecidableEq

/-- Where a call of `create_one_time_secret` is. -/
inductive CreateStage where
  | pruning (stage : PruneStage) (cutoff : ℚ)
  | opening
  | writing (inode : Inode) (view : List UInt8)
  | syncing (inode : Inode)
  | checking (inode : Inode)
  | cleaning (inode : Inode)
  | returned (inode : Inode)
  | raised
  deriving DecidableEq

/-- A call of `claim_one_time_secret` or of `_prune_expired`. -/
inductive Call where
  | claim (id : SecretId) (settings : Settings) (stage : ClaimStage)
  | prune (settings : Settings) (cutoff : ℚ) (stage : PruneStage)
  deriving DecidableEq

/-- A call of `create_one_time_secret` that has chosen its handle. -/
structure Creation where
  payload : List UInt8
  settings : Settings
  stage : CreateStage
  deriving DecidableEq

/-- The secrets directory, all files that were ever in it, and all calls. No handle is chosen twice,
so that a handle belongs to one creation. -/
structure Store where
  entries : Dict SecretId Inode
  files : List StoredFile
  creations : Dict SecretId Creation
  calls : List Call

/-- What a step does to the directory and the files. -/
structure Effect where
  entries : Dict SecretId Inode
  files : List StoredFile

namespace Store

def initial : Store where
  entries := .empty
  files := []
  creations := .empty
  calls := []

/-- What a step that only looks leaves. -/
def unchanged (store : Store) : Effect := ⟨store.entries, store.files⟩

/-- `path.unlink()`, where there is such a name. -/
def unlink (store : Store) (id : SecretId) : Effect := ⟨store.entries.pop id, store.files⟩

def linkCount (store : Store) (inode : Inode) : Nat :=
  store.entries.entries.countP fun entry => entry.2 = inode

/-- One step of `claim_one_time_secret`. -/
def claimNext (store : Store) (id : SecretId) (settings : Settings) (now : ℚ) :
    ClaimStage → Option (Effect × ClaimStage)
  | .opening =>
      if isSecretId id then
        match store.entries.get? id with
        | some inode => some (store.unchanged, .validating inode)
        | none => some (store.unchanged,
            .raised "one-time stdin handle was not found or was already consumed")
      else some (store.unchanged, .raised "invalid one-time stdin handle")
  | .validating inode =>
      (store.files[inode]?).map fun file =>
        match validateDetails settings now file (store.linkCount inode) with
        | .ok () => (store.unchanged, .comparing inode)
        | .error error => (store.unchanged, .raised error)
  | .comparing inode =>
      match store.entries.get? id with
      | some current =>
          if current = inode then some (store.unchanged, .unlinking inode)
          else some (store.unchanged, .raised "one-time stdin handle changed during validation")
      | none => some (store.unchanged, .raised "FileNotFoundError")
  | .unlinking inode =>
      match store.entries.get? id with
      | some _ => some (store.unlink id, .seeking inode)
      | none => some (store.unchanged, .raised "FileNotFoundError")
  | .seeking inode => some (store.unchanged, .returned inode)
  | .returned _ => none
  | .raised _ => none

/-- One step of `_prune_expired`. -/
def pruneNext (store : Store) (settings : Settings) (cutoff : ℚ) :
    PruneStage → Option (Effect × PruneStage)
  | .listing => some (store.unchanged, .examining (store.entries.entries.map Prod.fst))
  | .examining [] => some (store.unchanged, .ended)
  | .examining (candidate :: candidates) =>
      match (store.entries.get? candidate).bind (store.files[·]?) with
      | some file =>
          if file.uid ≠ settings.uid then some (store.unchanged, .examining candidates)
          else if file.modified ≤ cutoff then
            some (store.unchanged, .removing candidate candidates)
          else some (store.unchanged, .examining candidates)
      | none => some (store.unchanged, .examining candidates)
  | .removing candidate candidates => some (store.unlink candidate, .examining candidates)
  | .ended => none

/-- A write to a file. -/
def append (store : Store) (inode : Inode) (bytes : List UInt8) (now : ℚ) : Effect :=
  ⟨store.entries, store.files.modify inode fun file =>
    { file with content := file.content ++ bytes, modified := now }⟩

/-- One step of `create_one_time_secret`. A write takes one byte and `amount` more, if there are as
many, and `mode` is what the creation mask leaves of the mode. -/
def createNext (store : Store) (id : SecretId) (creation : Creation) (now : ℚ)
    (amount mode : Nat) : Option (Effect × CreateStage) :=
  match creation.stage with
  | .pruning stage cutoff =>
      match store.pruneNext creation.settings cutoff stage with
      | some (effect, stage) => some (effect, .pruning stage cutoff)
      | none => some (store.unchanged, .opening)
  | .opening =>
      match store.entries.get? id with
      | some _ => some (store.unchanged, .raised)
      | none =>
          some (⟨store.entries.set id store.files.length,
            store.files ++ [⟨[], true, creation.settings.uid, mode, now⟩]⟩,
            .writing store.files.length creation.payload)
  | .writing inode [] => some (store.unchanged, .syncing inode)
  | .writing inode (byte :: view) =>
      some (store.append inode ((byte :: view).take (amount + 1)) now,
        .writing inode ((byte :: view).drop (amount + 1)))
  | .syncing inode => some (store.unchanged, .checking inode)
  | .checking inode =>
      (store.files[inode]?).map fun file =>
        if file.mode ≠ 0o600 then (store.unchanged, .cleaning inode)
        else (store.unchanged, .returned inode)
  | .cleaning _ => some (store.unlink id, .raised)
  | .returned _ => none
  | .raised => none

/-- Where `create_one_time_secret` is after the checks of its arguments. -/
def createStart (payload : List UInt8) (settings : Settings) (now : ℚ) : CreateStage :=
  if payload = [] ∨ payload.length > settings.maxBytes then .raised
  else .pruning .listing (now - settings.ttlSec)

/-- Where a failure of the operating system leaves a claim. -/
def claimFailed : ClaimStage → Option ClaimStage
  | .opening => some (.raised "one-time stdin handle is not a safe regular file")
  | .returned _ => none
  | .raised _ => none
  | _ => some (.raised "OSError")

def pruneFailed : PruneStage → Option PruneStage
  | .ended => none
  | _ => some .ended

/-- After a failure `create_one_time_secret` tries to remove the file it has opened. -/
def createFailed : CreateStage → Option CreateStage
  | .writing inode _ => some (.cleaning inode)
  | .syncing inode => some (.cleaning inode)
  | .checking inode => some (.cleaning inode)
  | .returned _ => none
  | .raised => none
  | _ => some .raised

/-- The store after a step of one of its calls. -/
def afterCall (store : Store) (index : Nat) (effect : Effect) (call : Call) : Store :=
  { store with
    entries := effect.entries
    files := effect.files
    calls := store.calls.set index call }

/-- The store after a step of the creation of a handle. -/
def afterCreation (store : Store) (id : SecretId) (effect : Effect) (creation : Creation) : Store :=
  { store with
    entries := effect.entries
    files := effect.files
    creations := store.creations.set id creation }

end Store

/-- The handle that a call claims. -/
def Call.claims (id : SecretId) : Call → Bool
  | .claim other _ _ => other = id
  | .prune _ _ _ => false

def CreateStage.hasReturned : CreateStage → Bool
  | .returned _ => true
  | _ => false

inductive Action where
  | claim (id : SecretId) (settings : Settings)
  | prune (settings : Settings) (now : ℚ)
  | create (id : SecretId) (payload : List UInt8) (settings : Settings) (now : ℚ)
  | runCall (index : Nat) (now : ℚ)
  | runCreation (id : SecretId) (now : ℚ) (amount mode : Nat)
  | failCall (index : Nat)
  | failCreation (id : SecretId)

/-- One step of one of the processes. The handle of a creation is known when it has been returned,
and a handle is fresh when it is chosen. -/
def step (store : Store) : Action → Option Store
  | .claim id settings =>
      if (store.creations.get? id).all fun creation => creation.stage.hasReturned then
        some { store with calls := store.calls ++ [.claim id settings .opening] }
      else none
  | .prune settings now =>
      some { store with
        calls := store.calls ++ [.prune settings (now - settings.ttlSec) .listing] }
  | .create id payload settings now =>
      if isSecretId id ∧ store.creations.get? id = none ∧ ¬ store.calls.any (Call.claims id) then
        some { store with
          creations := store.creations.set id
            ⟨payload, settings, Store.createStart payload settings now⟩ }
      else none
  | .runCall index now =>
      match store.calls[index]? with
      | some (.claim id settings stage) =>
          (store.claimNext id settings now stage).map fun (effect, stage) =>
            store.afterCall index effect (.claim id settings stage)
      | some (.prune settings cutoff stage) =>
          (store.pruneNext settings cutoff stage).map fun (effect, stage) =>
            store.afterCall index effect (.prune settings cutoff stage)
      | none => none
  | .runCreation id now amount mode =>
      match store.creations.get? id with
      | some creation =>
          (store.createNext id creation now amount mode).map fun (effect, stage) =>
            store.afterCreation id effect { creation with stage }
      | none => none
  | .failCall index =>
      match store.calls[index]? with
      | some (.claim id settings stage) =>
          (Store.claimFailed stage).map fun stage =>
            store.afterCall index store.unchanged (.claim id settings stage)
      | some (.prune settings cutoff stage) =>
          (Store.pruneFailed stage).map fun stage =>
            store.afterCall index store.unchanged (.prune settings cutoff stage)
      | none => none
  | .failCreation id =>
      match store.creations.get? id with
      | some creation =>
          (Store.createFailed creation.stage).map fun stage =>
            store.afterCreation id store.unchanged { creation with stage }
      | none => none

/-- Any number of processes that stage, claim and prune secrets. -/
def processes : System Store Action where
  initial := .initial
  step := step

end Longrun.Secret
