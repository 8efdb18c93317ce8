import Longrun.Secret.Store

/-!
# A secret is claimed once

Claims of one handle may all pass the checks on the same file. Removing the name decides between
them: the name is never taken again, so that only one claim finds it when it removes it.
-/

namespace Longrun.Secret

open Store

/-- The file that a claim has opened. -/
def ClaimStage.inode? : ClaimStage → Option Inode
  | .validating inode => some inode
  | .comparing inode => some inode
  | .unlinking inode => some inode
  | .seeking inode => some inode
  | .returned inode => some inode
  | .opening => none
  | .raised _ => none

/-- The claim has removed the name and has not failed. -/
def ClaimStage.hasUnlinked : ClaimStage → Bool
  | .seeking _ => true
  | .returned _ => true
  | _ => false

/-- The claim has returned or raised. -/
def ClaimStage.hasEnded : ClaimStage → Bool
  | .returned _ => true
  | .raised _ => true
  | _ => false

/-- The file that a creation has opened. -/
def CreateStage.inode? : CreateStage → Option Inode
  | .writing inode _ => some inode
  | .syncing inode => some inode
  | .checking inode => some inode
  | .cleaning inode => some inode
  | .returned inode => some inode
  | .pruning _ _ => none
  | .opening => none
  | .raised => none

/-- The file that a creation fills, and what it has still to write. -/
def CreateStage.filling? : CreateStage → Option (Inode × List UInt8)
  | .writing inode view => some (inode, view)
  | .syncing inode => some (inode, [])
  | .checking inode => some (inode, [])
  | .returned inode => some (inode, [])
  | _ => none

namespace Store

variable {store : Store} {id : SecretId} {settings : Settings} {now cutoff : ℚ}
  {effect : Effect} {creation : Creation}

/-- Names may have been removed, and the files are as they were. -/
structure Shrinks (store : Store) (effect : Effect) : Prop where
  files : effect.files = store.files
  entries : ∀ id inode, effect.entries.get? id = some inode → store.entries.get? id = some inode

theorem shrinks_unchanged : store.Shrinks store.unchanged := ⟨rfl, fun _ _ found => found⟩

theorem shrinks_unlink : store.Shrinks (store.unlink id) := by
  refine ⟨rfl, fun other inode found => ?_⟩
  rw [unlink, Dict.get?_pop] at found
  split_ifs at found
  exact found

/-- What a step of a claim can do. -/
inductive ClaimMoves (store : Store) (id : SecretId) : ClaimStage → Effect → ClaimStage → Prop where
  | raises {stage : ClaimStage} (error : String) :
      stage.hasEnded = false → ClaimMoves store id stage store.unchanged (.raised error)
  | opens (inode : Inode) :
      store.entries.get? id = some inode →
        ClaimMoves store id .opening store.unchanged (.validating inode)
  | goesOn {stage next : ClaimStage} :
      stage.hasEnded = false → next.inode? = stage.inode? →
        (next.hasUnlinked = true → stage.hasUnlinked = true) →
        ClaimMoves store id stage store.unchanged next
  | unlinks (inode current : Inode) :
      store.entries.get? id = some current →
        ClaimMoves store id (.unlinking inode) (store.unlink id) (.seeking inode)

theorem claimNext_moves {stage next : ClaimStage}
    (taken : store.claimNext id settings now stage = some (effect, next)) :
    ClaimMoves store id stage effect next := by
  cases stage with
  | opening =>
      rw [claimNext] at taken
      split at taken
      · cases found : store.entries.get? id with
        | some inode =>
            rw [found] at taken
            rcases Option.some.inj taken with ⟨⟩
            exact .opens inode found
        | none =>
            rw [found] at taken
            rcases Option.some.inj taken with ⟨⟩
            exact .raises _ rfl
      · rcases Option.some.inj taken with ⟨⟩
        exact .raises _ rfl
  | validating inode =>
      rcases Option.map_eq_some_iff.mp taken with ⟨file, -, same⟩
      cases checked : validateDetails settings now file (store.linkCount inode) with
      | ok passed =>
          rw [checked] at same
          rcases same with ⟨⟩
          exact .goesOn rfl rfl (by simp [ClaimStage.hasUnlinked])
      | error error =>
          rw [checked] at same
          rcases same with ⟨⟩
          exact .raises _ rfl
  | comparing inode =>
      rw [claimNext] at taken
      cases found : store.entries.get? id with
      | some current =>
          rw [found] at taken
          dsimp only at taken
          split at taken
          · rcases Option.some.inj taken with ⟨⟩
            exact .goesOn rfl rfl (by simp [ClaimStage.hasUnlinked])
          · rcases Option.some.inj taken with ⟨⟩
            exact .raises _ rfl
      | none =>
          rw [found] at taken
          rcases Option.some.inj taken with ⟨⟩
          exact .raises _ rfl
  | unlinking inode =>
      rw [claimNext] at taken
      cases found : store.entries.get? id with
      | some current =>
          rw [found] at taken
          rcases Option.some.inj taken with ⟨⟩
          exact .unlinks inode current found
      | none =>
          rw [found] at taken
          rcases Option.some.inj taken with ⟨⟩
          exact .raises _ rfl
  | seeking inode =>
      rcases Option.some.inj taken with ⟨⟩
      exact .goesOn rfl rfl fun _ => rfl
  | returned inode => cases taken
  | raised error => cases taken

theorem claimFailed_moves {stage next : ClaimStage} (failed : claimFailed stage = some next) :
    ClaimMoves store id stage store.unchanged next := by
  cases stage <;> simp only [claimFailed, Option.some.injEq, reduceCtorEq] at failed <;>
    subst failed <;> exact .raises _ rfl

theorem ClaimMoves.goes {stage next : ClaimStage} (moves : ClaimMoves store id stage effect next) :
    stage.hasEnded = false := by
  cases moves with
  | raises error going => exact going
  | opens inode found => rfl
  | goesOn going sameInode sameUnlinked => exact going
  | unlinks inode current found => rfl

theorem pruneNext_shrinks {stage next : PruneStage}
    (taken : store.pruneNext settings cutoff stage = some (effect, next)) :
    store.Shrinks effect := by
  cases stage with
  | listing =>
      rcases Option.some.inj taken with ⟨⟩
      exact shrinks_unchanged
  | examining candidates =>
      cases candidates with
      | nil =>
          rcases Option.some.inj taken with ⟨⟩
          exact shrinks_unchanged
      | cons candidate candidates =>
          rw [pruneNext] at taken
          split at taken
          · split_ifs at taken <;> rcases Option.some.inj taken with ⟨⟩ <;>
              exact shrinks_unchanged
          · rcases Option.some.inj taken with ⟨⟩
            exact shrinks_unchanged
  | removing candidate candidates =>
      rcases Option.some.inj taken with ⟨⟩
      exact shrinks_unlink
  | ended => cases taken

/-- What a step of a creation can do. -/
inductive CreateMoves (store : Store) (id : SecretId) (creation : Creation) :
    Effect → CreateStage → Prop where
  | opens (file : StoredFile) :
      creation.stage = .opening → store.entries.get? id = none → file.content = [] →
        CreateMoves store id creation
          ⟨store.entries.set id store.files.length, store.files ++ [file]⟩
          (.writing store.files.length creation.payload)
  | writes (inode : Inode) (bytes rest : List UInt8) (now : ℚ) :
      creation.stage = .writing inode (bytes ++ rest) →
        CreateMoves store id creation (store.append inode bytes now) (.writing inode rest)
  | goesOn (effect : Effect) (next : CreateStage) :
      store.Shrinks effect → creation.stage.hasReturned = false → creation.stage ≠ .raised →
        (next.inode? = creation.stage.inode? ∨ next = .raised) →
        (∀ filling, next.filling? = some filling → creation.stage.filling? = some filling) →
        CreateMoves store id creation effect next

theorem createNext_moves {amount mode : Nat} {next : CreateStage}
    (taken : store.createNext id creation now amount mode = some (effect, next)) :
    CreateMoves store id creation effect next := by
  rw [createNext] at taken
  cases isStage : creation.stage with
  | pruning stage cutoff =>
      rw [isStage] at taken
      dsimp only at taken
      cases pruned : store.pruneNext creation.settings cutoff stage with
      | some result =>
          rcases result with ⟨effect, stage⟩
          rw [pruned] at taken
          rcases Option.some.inj taken with ⟨⟩
          refine .goesOn _ _ (pruneNext_shrinks pruned) ?_ ?_ ?_ ?_ <;>
            simp [isStage, CreateStage.hasReturned, CreateStage.inode?, CreateStage.filling?]
      | none =>
          rw [pruned] at taken
          rcases Option.some.inj taken with ⟨⟩
          refine .goesOn _ _ shrinks_unchanged ?_ ?_ ?_ ?_ <;>
            simp [isStage, CreateStage.hasReturned, CreateStage.inode?, CreateStage.filling?]
  | opening =>
      rw [isStage] at taken
      dsimp only at taken
      cases found : store.entries.get? id with
      | some inode =>
          rw [found] at taken
          rcases Option.some.inj taken with ⟨⟩
          refine .goesOn _ _ shrinks_unchanged ?_ ?_ (.inr rfl) ?_ <;>
            simp [isStage, CreateStage.hasReturned, CreateStage.filling?]
      | none =>
          rw [found] at taken
          rcases Option.some.inj taken with ⟨⟩
          exact .opens _ isStage found rfl
  | writing inode view =>
      rw [isStage] at taken
      cases view with
      | nil =>
          rcases Option.some.inj taken with ⟨⟩
          refine .goesOn _ _ shrinks_unchanged ?_ ?_ ?_ ?_ <;>
            simp [isStage, CreateStage.hasReturned, CreateStage.inode?, CreateStage.filling?]
      | cons byte view =>
          rcases Option.some.inj taken with ⟨⟩
          exact .writes _ _ _ _ (by rw [List.take_append_drop, isStage])
  | syncing inode =>
      rw [isStage] at taken
      rcases Option.some.inj taken with ⟨⟩
      refine .goesOn _ _ shrinks_unchanged ?_ ?_ ?_ ?_ <;>
        simp [isStage, CreateStage.hasReturned, CreateStage.inode?, CreateStage.filling?]
  | checking inode =>
      rw [isStage] at taken
      rcases Option.map_eq_some_iff.mp taken with ⟨file, -, same⟩
      split_ifs at same <;> rcases same with ⟨⟩ <;>
        refine .goesOn _ _ shrinks_unchanged ?_ ?_ ?_ ?_ <;>
        simp [isStage, CreateStage.hasReturned, CreateStage.inode?, CreateStage.filling?]
  | cleaning inode =>
      rw [isStage] at taken
      rcases Option.some.inj taken with ⟨⟩
      refine .goesOn _ _ shrinks_unlink ?_ ?_ (.inr rfl) ?_ <;>
        simp [isStage, CreateStage.hasReturned, CreateStage.filling?]
  | returned inode =>
      rw [isStage] at taken
      cases taken
  | raised =>
      rw [isStage] at taken
      cases taken

theorem createFailed_moves {next : CreateStage} (failed : createFailed creation.stage = some next) :
    CreateMoves store id creation store.unchanged next := by
  refine .goesOn _ _ shrinks_unchanged ?_ ?_ ?_ ?_ <;> cases isStage : creation.stage <;>
    simp only [isStage, createFailed, Option.some.injEq, reduceCtorEq] at failed <;>
    simp [← failed, CreateStage.hasReturned, CreateStage.inode?, CreateStage.filling?]

end Store

/-! ### What always holds -/

/-- What holds of the store whatever the order of the steps. -/
structure Inv (store : Store) : Prop where
  /-- Only a handle that has been returned is claimed. -/
  claimed : ∀ (index : Nat) id settings stage, store.calls[index]? = some (.claim id settings stage) →
    ∀ creation, store.creations.get? id = some creation → creation.stage.hasReturned = true
  /-- A name stands for the file that its creation has opened. -/
  entry : ∀ id inode, store.entries.get? id = some inode →
    ∃ creation, store.creations.get? id = some creation ∧
      (creation.stage.inode? = some inode ∨ creation.stage = .raised)
  /-- Two creations do not fill the same file. -/
  distinct : ∀ id other left right inode leftView rightView,
    store.creations.get? id = some left → store.creations.get? other = some right →
    left.stage.filling? = some (inode, leftView) → right.stage.filling? = some (inode, rightView) →
    id = other
  /-- What is in a file, and what is still to be written. -/
  filled : ∀ id creation inode view, store.creations.get? id = some creation →
    creation.stage.filling? = some (inode, view) →
    ∃ file, store.files[inode]? = some file ∧ file.content ++ view = creation.payload
  /-- A claim has opened the file of its handle. -/
  opened : ∀ (index : Nat) id settings stage inode, store.calls[index]? = some (.claim id settings stage) →
    stage.inode? = some inode →
    ∃ creation, store.creations.get? id = some creation ∧ creation.stage = .returned inode
  /-- After the name has been removed it stands for nothing. -/
  consumed : ∀ (index : Nat) id settings stage, store.calls[index]? = some (.claim id settings stage) →
    stage.hasUnlinked = true → store.entries.get? id = none
  /-- Only one claim of a handle has removed the name. -/
  once : ∀ (index other : Nat) id settings others stage otherStage,
    store.calls[index]? = some (.claim id settings stage) →
    store.calls[other]? = some (.claim id others otherStage) →
    stage.hasUnlinked = true → otherStage.hasUnlinked = true → index = other

theorem inv_initial : Inv .initial := by
  constructor <;> simp [Store.initial]

namespace Inv

variable {store : Store} {id : SecretId} {settings : Settings} {effect : Effect} {index : Nat}
  {creation : Creation}

theorem at_set {call other : Call} {position : Nat}
    (found : (store.calls.set index call)[position]? = some other) :
    position = index ∧ other = call ∨ position ≠ index ∧ store.calls[position]? = some other := by
  rw [List.getElem?_set] at found
  split_ifs at found with same inside
  · exact .inl ⟨same.symm, (Option.some.inj found).symm⟩
  · exact .inr ⟨fun equal => same equal.symm, found⟩

/-- A call is begun. -/
theorem begins (inv : Inv store) {call : Call}
    (fresh : ∀ id settings stage, call = .claim id settings stage → stage = .opening ∧
      ∀ creation, store.creations.get? id = some creation → creation.stage.hasReturned = true) :
    Inv { store with calls := store.calls ++ [call] } := by
  have old {position : Nat} {id : SecretId} {settings : Settings} {stage : ClaimStage}
      (found : (store.calls ++ [call])[position]? = some (.claim id settings stage)) :
      store.calls[position]? = some (.claim id settings stage) ∨
        call = .claim id settings stage := by
    rw [List.getElem?_append] at found
    split_ifs at found
    · exact .inl found
    · rcases List.getElem?_eq_some_iff.mp found with ⟨inside, same⟩
      simp only [List.getElem_singleton] at same
      exact .inr same
  have opening {position : Nat} {id : SecretId} {settings : Settings} {stage : ClaimStage}
      (found : (store.calls ++ [call])[position]? = some (.claim id settings stage))
      (later : stage ≠ .opening) : store.calls[position]? = some (.claim id settings stage) :=
    (old found).resolve_right fun same => later (fresh id settings stage same).1
  constructor
  case claimed =>
    intro index id settings stage found creation isCreation
    rcases old found with found | same
    · exact inv.claimed index id settings stage found creation isCreation
    · exact (fresh id settings stage same).2 creation isCreation
  case entry => exact inv.entry
  case distinct => exact inv.distinct
  case filled => exact inv.filled
  case opened =>
    intro index id settings stage inode found isOpen
    exact inv.opened index id settings stage inode
      (opening found fun same => by simp [same, ClaimStage.inode?] at isOpen) isOpen
  case consumed =>
    intro index id settings stage found unlinked
    exact inv.consumed index id settings stage
      (opening found fun same => by simp [same, ClaimStage.hasUnlinked] at unlinked) unlinked
  case once =>
    intro index other id settings others stage otherStage found otherFound unlinked otherUnlinked
    exact inv.once index other id settings others stage otherStage
      (opening found fun same => by simp [same, ClaimStage.hasUnlinked] at unlinked)
      (opening otherFound fun same => by simp [same, ClaimStage.hasUnlinked] at otherUnlinked)
      unlinked otherUnlinked

/-- A call is replaced by what it is after a step. -/
theorem replaces (inv : Inv store) {call : Call}
    (sound : ∀ id settings stage, call = .claim id settings stage →
      (∀ creation, store.creations.get? id = some creation → creation.stage.hasReturned = true) ∧
      (∀ inode, stage.inode? = some inode →
        ∃ creation, store.creations.get? id = some creation ∧ creation.stage = .returned inode) ∧
      (stage.hasUnlinked = true → store.entries.get? id = none ∧
        ∀ other others otherStage, store.calls[other]? = some (.claim id others otherStage) →
          otherStage.hasUnlinked = true → other = index)) :
    Inv { store with calls := store.calls.set index call } := by
  constructor
  case claimed =>
    intro position id settings stage found creation isCreation
    rcases at_set found with ⟨-, same⟩ | ⟨-, found⟩
    · exact (sound id settings stage same.symm).1 creation isCreation
    · exact inv.claimed position id settings stage found creation isCreation
  case entry => exact inv.entry
  case distinct => exact inv.distinct
  case filled => exact inv.filled
  case opened =>
    intro position id settings stage inode found isOpen
    rcases at_set found with ⟨-, same⟩ | ⟨-, found⟩
    · exact (sound id settings stage same.symm).2.1 inode isOpen
    · exact inv.opened position id settings stage inode found isOpen
  case consumed =>
    intro position id settings stage found unlinked
    rcases at_set found with ⟨-, same⟩ | ⟨-, found⟩
    · exact ((sound id settings stage same.symm).2.2 unlinked).1
    · exact inv.consumed position id settings stage found unlinked
  case once =>
    intro position other id settings others stage otherStage found otherFound unlinked
      otherUnlinked
    rcases at_set found with ⟨here, same⟩ | ⟨-, found⟩ <;>
      rcases at_set otherFound with ⟨there, otherSame⟩ | ⟨-, otherFound⟩
    · rw [here, there]
    · have alone := ((sound id settings stage same.symm).2.2 unlinked).2
      rw [here, alone other others otherStage otherFound otherUnlinked]
    · have alone := ((sound id others otherStage otherSame.symm).2.2 otherUnlinked).2
      rw [there, alone position settings stage found unlinked]
    · exact inv.once position other id settings others stage otherStage found otherFound unlinked
        otherUnlinked

/-- Names are removed. -/
theorem shrinks (inv : Inv store) (shrinks : store.Shrinks effect) :
    Inv { store with entries := effect.entries, files := effect.files } := by
  constructor
  case claimed => exact inv.claimed
  case entry =>
    intro id inode found
    exact inv.entry id inode (shrinks.entries id inode found)
  case distinct => exact inv.distinct
  case filled =>
    simp only [shrinks.files]
    exact inv.filled
  case opened => exact inv.opened
  case consumed =>
    intro index id settings stage found unlinked
    have none := inv.consumed index id settings stage found unlinked
    rw [Option.eq_none_iff_forall_ne_some] at none ⊢
    exact fun inode present => none inode (shrinks.entries id inode present)
  case once => exact inv.once

/-- A step of a claim. -/
theorem claim (inv : Inv store) {stage next : ClaimStage}
    (found : store.calls[index]? = some (.claim id settings stage))
    (moves : ClaimMoves store id stage effect next) :
    Inv (store.afterCall index effect (.claim id settings next)) := by
  have returned := inv.claimed index id settings stage found
  cases moves with
  | raises error going =>
      refine inv.replaces fun _ _ _ same => ?_
      rcases same with ⟨⟩
      exact ⟨returned, by simp [ClaimStage.inode?], by simp [ClaimStage.hasUnlinked]⟩
  | opens inode present =>
      refine inv.replaces fun _ _ _ same => ?_
      rcases same with ⟨⟩
      refine ⟨returned, fun other isOpen => ?_, by simp [ClaimStage.hasUnlinked]⟩
      rcases Option.some.inj isOpen with rfl
      rcases inv.entry id inode present with ⟨creation, isCreation, opened⟩
      have finished := returned creation isCreation
      refine ⟨creation, isCreation, ?_⟩
      cases isStage : creation.stage <;>
        simp [isStage, CreateStage.hasReturned, CreateStage.inode?] at finished opened ⊢
      exact opened
  | goesOn going sameInode sameUnlinked =>
      refine inv.replaces fun _ _ _ same => ?_
      rcases same with ⟨⟩
      refine ⟨returned, fun inode isOpen => ?_, fun unlinked => ⟨?_, ?_⟩⟩
      · exact inv.opened index id settings stage inode found (sameInode ▸ isOpen)
      · exact inv.consumed index id settings stage found (sameUnlinked unlinked)
      · intro other others otherStage otherFound otherUnlinked
        exact inv.once other index id others settings otherStage stage otherFound found
          otherUnlinked (sameUnlinked unlinked)
  | unlinks inode current present =>
      refine (inv.shrinks shrinks_unlink).replaces fun _ _ _ same => ?_
      rcases same with ⟨⟩
      refine ⟨returned, fun other isOpen => ?_, fun _ => ⟨by simp [unlink], ?_⟩⟩
      · exact inv.opened index id settings _ other found isOpen
      · intro other others otherStage otherFound otherUnlinked
        have none := inv.consumed other id others otherStage otherFound otherUnlinked
        cases none.symm.trans present

/-- A step of a pruning. -/
theorem prune (inv : Inv store) (shrinks : store.Shrinks effect) (cutoff : ℚ)
    (stage : PruneStage) : Inv (store.afterCall index effect (.prune settings cutoff stage)) :=
  (inv.shrinks shrinks).replaces fun _ _ _ same => (by cases same)

/-- A handle that is not claimed gets another creation. -/
theorem recreates (inv : Inv store) {stage : CreateStage} {entries : Dict SecretId Inode}
    {files : List StoredFile} {payload : List UInt8}
    (unclaimed : ∀ index : Nat, ∀ settings stage,
      store.calls[index]? ≠ some (.claim id settings stage))
    (others : ∀ other, other ≠ id → entries.get? other = store.entries.get? other ∨
      entries.get? other = none)
    (own : ∀ inode, entries.get? id = some inode → stage.inode? = some inode ∨ stage = .raised)
    (apart : ∀ other otherCreation inode view otherView, other ≠ id →
      store.creations.get? other = some otherCreation →
      otherCreation.stage.filling? = some (inode, otherView) →
      stage.filling? = some (inode, view) → False)
    (kept : ∀ other otherCreation inode view, other ≠ id →
      store.creations.get? other = some otherCreation →
      otherCreation.stage.filling? = some (inode, view) → ∃ file, files[inode]? = some file ∧
        file.content ++ view = otherCreation.payload)
    (filled : ∀ inode view, stage.filling? = some (inode, view) →
      ∃ file, files[inode]? = some file ∧ file.content ++ view = payload) :
    Inv { store with
      entries, files, creations := store.creations.set id ⟨payload, settings, stage⟩ } := by
  have at_other {other : SecretId} (different : other ≠ id) :
      (store.creations.set id ⟨payload, settings, stage⟩).get? other = store.creations.get? other :=
    Dict.get?_set_of_ne _ _ different
  constructor <;> dsimp only
  case claimed =>
    intro index other otherSettings otherStage found creation isCreation
    rcases Decidable.em (other = id) with rfl | different
    · exact absurd found (unclaimed _ _ _)
    · rw [at_other different] at isCreation
      exact inv.claimed index other otherSettings otherStage found creation isCreation
  case entry =>
    intro other inode found
    rcases Decidable.em (other = id) with rfl | different
    · exact ⟨_, Dict.get?_set_self _ _ _, own inode found⟩
    · rw [at_other different]
      rcases others other different with same | none
      · exact inv.entry other inode (same ▸ found)
      · cases none.symm.trans found
  case distinct =>
    intro left right leftCreation rightCreation inode leftView rightView isLeft isRight fillsLeft
      fillsRight
    rcases Decidable.em (left = id) with rfl | leftDifferent <;>
      rcases Decidable.em (right = left) with rfl | rightDifferent
    · rfl
    · rw [Dict.get?_set_self] at isLeft
      rw [at_other rightDifferent] at isRight
      rcases Option.some.inj isLeft with rfl
      exact (apart right rightCreation inode leftView rightView rightDifferent isRight fillsRight
        fillsLeft).elim
    · rfl
    · rw [at_other leftDifferent] at isLeft
      rcases Decidable.em (right = id) with rfl | rightDifferent
      · rw [Dict.get?_set_self] at isRight
        rcases Option.some.inj isRight with rfl
        exact (apart left leftCreation inode rightView leftView leftDifferent isLeft fillsLeft
          fillsRight).elim
      · rw [at_other rightDifferent] at isRight
        exact inv.distinct left right leftCreation rightCreation inode leftView rightView isLeft
          isRight fillsLeft fillsRight
  case filled =>
    intro other creation inode view isCreation fills
    rcases Decidable.em (other = id) with rfl | different
    · rw [Dict.get?_set_self] at isCreation
      rcases Option.some.inj isCreation with rfl
      exact filled inode view fills
    · rw [at_other different] at isCreation
      exact kept other creation inode view different isCreation fills
  case opened =>
    intro index other otherSettings otherStage inode found isOpen
    rcases Decidable.em (other = id) with rfl | different
    · exact absurd found (unclaimed _ _ _)
    · rw [at_other different]
      exact inv.opened index other otherSettings otherStage inode found isOpen
  case consumed =>
    intro index other otherSettings otherStage found unlinked
    rcases Decidable.em (other = id) with rfl | different
    · exact absurd found (unclaimed _ _ _)
    · have none := inv.consumed index other otherSettings otherStage found unlinked
      rcases others other different with same | none
      · exact same.trans none
      · exact none
  case once => exact inv.once

/-- A step of a creation. -/
theorem create (inv : Inv store) {next : CreateStage}
    (isCreation : store.creations.get? id = some creation)
    (moves : CreateMoves store id creation effect next) :
    Inv (store.afterCreation id effect { creation with stage := next }) := by
  have unclaimed (going : creation.stage.hasReturned = false) (index : Nat) settings stage :
      store.calls[index]? ≠ some (.claim id settings stage) := by
    intro found
    have returned := inv.claimed index id settings stage found creation isCreation
    exact Bool.false_ne_true (going.symm.trans returned)
  cases moves with
  | opens file isStage absent isEmpty =>
      refine inv.recreates (unclaimed (by simp [isStage, CreateStage.hasReturned])) ?_ ?_ ?_ ?_ ?_
      · intro other different
        exact .inl (Dict.get?_set_of_ne _ _ different)
      · intro inode found
        rw [Dict.get?_set_self] at found
        exact .inl found
      · intro other otherCreation inode view otherView different isOther otherFills fills
        rcases inv.filled other otherCreation inode otherView isOther otherFills with ⟨_, inside, _⟩
        rcases List.getElem?_eq_some_iff.mp inside with ⟨bound, -⟩
        simp only [CreateStage.filling?, Option.some.injEq, Prod.mk.injEq] at fills
        exact absurd fills.1 (Nat.ne_of_gt bound)
      · intro other otherCreation inode view different isOther otherFills
        rcases inv.filled other otherCreation inode view isOther otherFills with
          ⟨file, inside, same⟩
        rcases List.getElem?_eq_some_iff.mp inside with ⟨bound, -⟩
        exact ⟨file, by rw [List.getElem?_append_left bound, inside], same⟩
      · intro inode view fills
        simp only [CreateStage.filling?, Option.some.injEq, Prod.mk.injEq] at fills
        exact ⟨file, by simp [← fills.1], by simp [isEmpty, fills.2]⟩
  | writes inode bytes rest now isStage =>
      have fills : creation.stage.filling? = some (inode, bytes ++ rest) := by
        rw [isStage, CreateStage.filling?]
      refine inv.recreates (unclaimed (by simp [isStage, CreateStage.hasReturned])) ?_ ?_ ?_ ?_ ?_
      · exact fun other _ => .inl rfl
      · intro other found
        rcases inv.entry id other found with ⟨present, isPresent, opened⟩
        rcases Option.some.inj (isCreation.symm.trans isPresent) with rfl
        simpa [isStage, CreateStage.inode?] using opened
      · intro other otherCreation shared view otherView different isOther otherFills nowFills
        simp only [CreateStage.filling?, Option.some.injEq, Prod.mk.injEq] at nowFills
        rcases nowFills with ⟨rfl, rfl⟩
        exact different (inv.distinct other id otherCreation creation inode otherView _ isOther
          isCreation otherFills fills)
      · intro other otherCreation shared view different isOther otherFills
        rcases inv.filled other otherCreation shared view isOther otherFills with
          ⟨file, inside, same⟩
        have apart : inode ≠ shared := by
          rintro rfl
          exact different (inv.distinct other id otherCreation creation inode view _ isOther
            isCreation otherFills fills)
        exact ⟨file, by simp [append, apart, inside], same⟩
      · intro other view nowFills
        simp only [CreateStage.filling?, Option.some.injEq, Prod.mk.injEq] at nowFills
        rcases nowFills with ⟨rfl, rfl⟩
        rcases inv.filled id creation inode _ isCreation fills with ⟨file, inside, same⟩
        refine ⟨{ file with content := file.content ++ bytes, modified := now }, ?_, ?_⟩
        · simp [append, inside]
        · rw [← same, List.append_assoc]
  | goesOn effect next shrinks going notRaised sameInode sameFilling =>
      refine inv.recreates (unclaimed going) ?_ ?_ ?_ ?_ ?_
      · intro other different
        cases found : effect.entries.get? other with
        | some inode => exact .inl (shrinks.entries other inode found).symm
        | none => exact .inr rfl
      · intro inode found
        rcases inv.entry id inode (shrinks.entries id inode found) with
          ⟨present, isPresent, opened⟩
        rcases Option.some.inj (isCreation.symm.trans isPresent) with rfl
        rcases sameInode with same | raised
        · exact .inl (same.trans (opened.resolve_right notRaised))
        · exact .inr raised
      · intro other otherCreation inode view otherView different isOther otherFills fills
        exact different (inv.distinct other id otherCreation creation inode otherView view isOther
          isCreation otherFills (sameFilling _ fills))
      · intro other otherCreation inode view different isOther otherFills
        rw [shrinks.files]
        exact inv.filled other otherCreation inode view isOther otherFills
      · intro inode view fills
        rw [shrinks.files]
        exact inv.filled id creation inode view isCreation (sameFilling _ fills)

/-- A handle is chosen. -/
theorem chosen (inv : Inv store) {payload : List UInt8} (now : ℚ)
    (fresh : store.creations.get? id = none)
    (unclaimed : store.calls.any (Call.claims id) = false) :
    Inv { store with creations :=
      store.creations.set id ⟨payload, settings, createStart payload settings now⟩ } := by
  have nothing : ∀ filling, (createStart payload settings now).filling? ≠ some filling := by
    intro filling
    rw [createStart]
    split_ifs <;> simp [CreateStage.filling?]
  refine inv.recreates ?_ ?_ ?_ ?_ ?_ ?_
  · intro index settings stage found
    have none := List.any_eq_false.mp unclaimed _ (List.mem_of_getElem? found)
    simp [Call.claims] at none
  · exact fun other _ => .inl rfl
  · intro inode found
    rcases inv.entry id inode found with ⟨creation, isCreation, -⟩
    cases fresh.symm.trans isCreation
  · exact fun other otherCreation inode view otherView _ _ _ fills => nothing _ fills
  · exact fun other otherCreation inode view _ isOther fills =>
      inv.filled other otherCreation inode view isOther fills
  · exact fun inode view fills => absurd fills (nothing _)

end Inv

/-- What a step can do. -/
inductive Moves (store : Store) : Store → Prop where
  | begins (call : Call) :
      (∀ id settings stage, call = .claim id settings stage → stage = .opening ∧
        ∀ creation, store.creations.get? id = some creation →
          creation.stage.hasReturned = true) →
        Moves store { store with calls := store.calls ++ [call] }
  | chooses (id : SecretId) (payload : List UInt8) (settings : Settings) (now : ℚ) :
      store.creations.get? id = none → store.calls.any (Call.claims id) = false →
        Moves store { store with
          creations := store.creations.set id
            ⟨payload, settings, createStart payload settings now⟩ }
  | claims {index : Nat} {id : SecretId} {settings : Settings} {stage next : ClaimStage}
      {effect : Effect} :
      store.calls[index]? = some (.claim id settings stage) →
        ClaimMoves store id stage effect next →
        Moves store (store.afterCall index effect (.claim id settings next))
  | prunes {index : Nat} {settings : Settings} {cutoff : ℚ} {stage next : PruneStage}
      {effect : Effect} :
      store.calls[index]? = some (.prune settings cutoff stage) → store.Shrinks effect →
        Moves store (store.afterCall index effect (.prune settings cutoff next))
  | creates {id : SecretId} {creation : Creation} {effect : Effect} {next : CreateStage} :
      store.creations.get? id = some creation → CreateMoves store id creation effect next →
        Moves store (store.afterCreation id effect { creation with stage := next })

theorem step_moves {store next : Store} {action : Action} (taken : step store action = some next) :
    Moves store next := by
  cases action with
  | claim id settings =>
      rw [step] at taken
      split at taken
      · rename_i returned
        rcases Option.some.inj taken with ⟨⟩
        refine .begins _ fun _ _ _ same => ?_
        rcases same with ⟨⟩
        refine ⟨rfl, fun creation isCreation => ?_⟩
        simpa [isCreation] using returned
      · cases taken
  | prune settings now =>
      rcases Option.some.inj taken with ⟨⟩
      exact .begins _ fun _ _ _ same => (by cases same)
  | create id payload settings now =>
      rw [step] at taken
      split at taken
      · rename_i fresh
        rcases Option.some.inj taken with ⟨⟩
        exact .chooses id payload settings now fresh.2.1 (eq_false_of_ne_true fresh.2.2)
      · cases taken
  | runCall index now =>
      rw [step] at taken
      split at taken
      · rename_i id settings stage found
        rcases Option.map_eq_some_iff.mp taken with ⟨⟨effect, next⟩, ran, rfl⟩
        exact .claims found (claimNext_moves ran)
      · rename_i settings cutoff stage found
        rcases Option.map_eq_some_iff.mp taken with ⟨⟨effect, next⟩, ran, rfl⟩
        exact .prunes found (pruneNext_shrinks ran)
      · cases taken
  | runCreation id now amount mode =>
      rw [step] at taken
      split at taken
      · rename_i creation isCreation
        rcases Option.map_eq_some_iff.mp taken with ⟨⟨effect, next⟩, ran, rfl⟩
        exact .creates isCreation (createNext_moves ran)
      · cases taken
  | failCall index =>
      rw [step] at taken
      split at taken
      · rename_i id settings stage found
        rcases Option.map_eq_some_iff.mp taken with ⟨next, failed, rfl⟩
        exact .claims found (claimFailed_moves failed)
      · rename_i settings cutoff stage found
        rcases Option.map_eq_some_iff.mp taken with ⟨next, failed, rfl⟩
        exact .prunes found shrinks_unchanged
      · cases taken
  | failCreation id =>
      rw [step] at taken
      split at taken
      · rename_i creation isCreation
        rcases Option.map_eq_some_iff.mp taken with ⟨next, failed, rfl⟩
        exact .creates isCreation (createFailed_moves failed)
      · cases taken

theorem Inv.step {store next : Store} (inv : Inv store) (moves : Moves store next) : Inv next := by
  cases moves with
  | begins call fresh => exact inv.begins fresh
  | chooses id payload settings now fresh unclaimed => exact inv.chosen now fresh unclaimed
  | claims found moves => exact inv.claim found moves
  | prunes found shrinks => exact inv.prune shrinks _ _
  | creates isCreation moves => exact inv.create isCreation moves

theorem inv_of_reachable {store : Store} (reachable : processes.Reachable store) : Inv store :=
  reachable.invariant inv_initial fun _ _ _ inv _ taken => inv.step (step_moves taken)

/-! ### A handle that has been claimed -/

/-- Only the first `bound` calls, and of those that claim the handle only one, have got anywhere. -/
structure Spent (id : SecretId) (index bound : Nat) (call : Call) (store : Store) : Prop where
  kept : store.calls[index]? = some call
  enough : bound ≤ store.calls.length
  later : ∀ (position : Nat) settings stage, bound ≤ position →
    store.calls[position]? = some (.claim id settings stage) →
    stage = .opening ∨ ∃ error, stage = .raised error

theorem Store.ClaimMoves.of_absent {store : Store} {id : SecretId} {effect : Effect}
    {next : ClaimStage} (moves : ClaimMoves store id .opening effect next)
    (absent : store.entries.get? id = none) : next = .opening ∨ ∃ error, next = .raised error := by
  cases moves with
  | raises error going => exact .inr ⟨error, rfl⟩
  | opens inode found => cases absent.symm.trans found
  | goesOn going sameInode sameUnlinked =>
      cases next with
      | opening => exact .inl rfl
      | raised error => exact .inr ⟨error, rfl⟩
      | validating inode => cases sameInode
      | comparing inode => cases sameInode
      | unlinking inode => cases sameInode
      | seeking inode => cases sameInode
      | returned inode => cases sameInode

theorem Spent.step {store next : Store} {id : SecretId} {settings : Settings} {inode : Inode}
    {index bound : Nat} (spent : Spent id index bound (.claim id settings (.returned inode)) store)
    (inv : Inv store) (moves : Moves store next) :
    Spent id index bound (.claim id settings (.returned inode)) next := by
  have absent := inv.consumed index id settings _ spent.kept rfl
  have kept_of_set {position : Nat} {call : Call} (different : position ≠ index) :
      (store.calls.set position call)[index]? = some (.claim id settings (.returned inode)) := by
    rw [List.getElem?_set_ne different, spent.kept]
  have enough_of_set {position : Nat} {call : Call} :
      bound ≤ (store.calls.set position call).length := by simpa using spent.enough
  cases moves with
  | begins call fresh =>
      refine ⟨?_, ?_, ?_⟩
      · rw [List.getElem?_append_left (List.getElem?_eq_some_iff.mp spent.kept).1, spent.kept]
      · rw [List.length_append]
        exact spent.enough.trans (Nat.le_add_right _ _)
      · intro position others stage beyond found
        rw [List.getElem?_append] at found
        split_ifs at found
        · exact spent.later position others stage beyond found
        · rcases List.getElem?_eq_some_iff.mp found with ⟨inside, same⟩
          simp only [List.getElem_singleton] at same
          exact .inl (fresh id others stage same).1
  | chooses other payload settings now fresh unclaimed =>
      exact ⟨spent.kept, spent.enough, spent.later⟩
  | claims found claimMoves =>
      rename_i position other others stage next effect
      have different : position ≠ index := by
        rintro rfl
        rcases Option.some.inj (spent.kept.symm.trans found) with ⟨⟩
        cases claimMoves.goes
      refine ⟨kept_of_set different, enough_of_set, ?_⟩
      intro place settings placeStage beyond placeFound
      rcases Inv.at_set placeFound with ⟨rfl, same⟩ | ⟨-, old⟩
      · rcases same with ⟨⟩
        rcases spent.later place others stage beyond found with rfl | ⟨error, rfl⟩
        · exact claimMoves.of_absent absent
        · cases claimMoves.goes
      · exact spent.later place settings placeStage beyond old
  | prunes found shrinks =>
      rename_i position settings cutoff stage next effect
      have different : position ≠ index := by
        rintro rfl
        cases spent.kept.symm.trans found
      refine ⟨kept_of_set different, enough_of_set, ?_⟩
      intro place settings placeStage beyond placeFound
      rcases Inv.at_set placeFound with ⟨-, same⟩ | ⟨-, old⟩
      · cases same
      · exact spent.later place settings placeStage beyond old
  | creates isCreation createMoves => exact ⟨spent.kept, spent.enough, spent.later⟩

theorem Spent.steps {store later : Store} {id : SecretId} {settings : Settings} {inode : Inode}
    {index bound : Nat} (spent : Spent id index bound (.claim id settings (.returned inode)) store)
    (reachable : processes.Reachable store) (steps : processes.Steps System.anyStep store later) :
    Spent id index bound (.claim id settings (.returned inode)) later := by
  induction steps with
  | refl => exact spent
  | tail action before _ taken ih =>
      exact ih.step (inv_of_reachable (reachable.steps before)) (step_moves taken)

/-- The file of a claimed handle contains what was staged. -/
theorem Inv.contains {store : Store} {id : SecretId} {settings : Settings} {inode : Inode}
    {index : Nat} (inv : Inv store)
    (found : store.calls[index]? = some (.claim id settings (.returned inode))) :
    ∃ creation file, store.creations.get? id = some creation ∧ creation.stage = .returned inode ∧
      store.files[inode]? = some file ∧ file.content = creation.payload := by
  rcases inv.opened index id settings _ inode found rfl with ⟨creation, isCreation, isStage⟩
  have fills : creation.stage.filling? = some (inode, []) := by rw [isStage, CreateStage.filling?]
  rcases inv.filled id creation inode [] isCreation fills with ⟨file, inside, same⟩
  exact ⟨creation, file, isCreation, isStage, inside, by simpa using same⟩

/-- A claim that has returned has a descriptor of exactly what was staged, no other claim of the
handle ever returns, the name is gone for good, and a claim begun afterwards finds nothing. -/
theorem claim_delivers_once {store : Store} {id : SecretId} {settings : Settings} {inode : Inode}
    {index : Nat} (reachable : processes.Reachable store)
    (found : store.calls[index]? = some (.claim id settings (.returned inode))) {later : Store}
    (steps : processes.Steps System.anyStep store later) :
    (∃ creation file, later.creations.get? id = some creation ∧
      creation.stage = .returned inode ∧ later.files[inode]? = some file ∧
      file.content = creation.payload) ∧
    (∀ (other : Nat) others otherInode,
      later.calls[other]? = some (.claim id others (.returned otherInode)) → other = index) ∧
    later.entries.get? id = none ∧
    (∀ (position : Nat) others stage, store.calls.length ≤ position →
      later.calls[position]? = some (.claim id others stage) →
      stage = .opening ∨ ∃ error, stage = .raised error) ∧
    ∀ others now, ∃ error,
      later.claimNext id others now .opening = some (later.unchanged, .raised error) := by
  have inv := inv_of_reachable (reachable.steps steps)
  have spent : Spent id index store.calls.length (.claim id settings (.returned inode)) store := by
    refine ⟨found, le_refl _, fun position others stage beyond present => ?_⟩
    rw [List.getElem?_eq_none beyond] at present
    cases present
  have after := spent.steps reachable steps
  have absent := inv.consumed index id settings _ after.kept rfl
  refine ⟨inv.contains after.kept, ?_, absent, after.later, fun others now => ?_⟩
  · intro other others otherInode otherFound
    exact inv.once other index id others settings _ _ otherFound after.kept rfl rfl
  · rw [claimNext, absent]
    split_ifs
    · exact ⟨_, rfl⟩
    · exact ⟨_, rfl⟩

/-- A handle of the witness. -/
def Scenario.handle : SecretId := List.replicate 32 0x61

/-- Two claims both open the file, and the first removes the name. -/
def Scenario.claimedRun : List Action :=
  let settings : Settings := ⟨1000, 300, 65536⟩
  [.create handle [0x70, 0x77] settings 100, .runCreation handle 100 0 0o600,
    .runCreation handle 100 0 0o600, .runCreation handle 100 0 0o600,
    .runCreation handle 100 0 0o600, .runCreation handle 100 0 0o600,
    .runCreation handle 100 0 0o600, .runCreation handle 100 0 0o600,
    .runCreation handle 100 0 0o600, .runCreation handle 100 0 0o600,
    .claim handle settings, .claim handle settings, .runCall 0 101, .runCall 1 101,
    .runCall 0 101, .runCall 1 101, .runCall 0 101, .runCall 1 101, .runCall 0 101,
    .runCall 0 101]

/-- The other of two claims does not return. -/
theorem claim_delivers_to_one : ∃ store : Store, processes.Reachable store ∧
    store.entries.get? Scenario.handle = none ∧
    ∀ others otherInode,
      store.calls[1]? ≠ some (.claim Scenario.handle others (.returned otherInode)) := by
  have ran : (processes.run processes.initial Scenario.claimedRun).any (fun store =>
      store.calls[0]? = some (.claim Scenario.handle ⟨1000, 300, 65536⟩ (.returned 0))) = true := by
    decide +kernel
  rcases System.exists_reachable_of_run ran with ⟨store, reachable, returned⟩
  rcases claim_delivers_once reachable (of_decide_eq_true returned) (.refl store) with
    ⟨-, once, absent, -⟩
  exact ⟨store, reachable, absent, fun others otherInode found =>
    (by cases once 1 others otherInode found)⟩

end Longrun.Secret
