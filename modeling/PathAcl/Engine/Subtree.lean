import PathAcl.Engine

/-! # Whole subtrees
When an object is removed its rows go with it; when it is moved they follow it (`PathMigrator`). -/

namespace PathAcl.Engine

variable {σ : Type} (e : Engine σ)

/-- Drops the rows that the roots govern, as one unit (`delete_all_batch`). Answers their keys. -/
def deleteUnder (storage : StorageRef) (roots : List PathRef) : Step σ (List PermissionKey) := do
  .ofExcept (Request.checkSize e.maxBatch roots.length)
  let roots ← .ofExcept (roots.mapM Request.normalRef)
  e.confirm storage
  let dropped ← onStore (e.store.deleteUnder storage.id roots)
  noteWrite storage.id (distinctSids (dropped.map PermissionKey.sid))
  .log (.deletedTrees storage.id roots.length dropped.length)
  pure dropped

/-- Drops the rows that one root governs (`delete_all`). -/
def deleteUnderRoot (storage : StorageRef) (root : PathRef) : Step σ (List PermissionKey) :=
  e.deleteUnder storage [root]

/-- The two ends of a move in normal form. A file is moved to a file and a folder to a folder, and a
folder not into itself. -/
def checkMove (source destination : PathRef) : Except RequestError (PathRef × PathRef) := do
  if source.type ≠ destination.type then
    .error (.invalidInput <|
      s!"cannot move {source.type.name} '{source.path}' to " ++
        s!"{destination.type.name} '{destination.path}'")
  else
    let source ← Request.normalRef source
    let destination ← Request.normalRef destination
    if source.type = .folder ∧ Path.isBeneath destination.path source.path then
      .error (.invalidInput
        s!"cannot move folder '{source.path}' into its own subtree '{destination.path}'")
    else pure (source, destination)

/-- Moves the rows that the source governs to the destination (`move_path`). All move or none. Answers
their number. Whoever asks to move something to where it is need not name a storage that exists. -/
def move (storage : StorageRef) (source destination : PathRef) : Step σ Nat := do
  let (source, destination) ← .ofExcept (checkMove source destination)
  if source = destination then
    .log (.movedNowhere source.path)
    pure 0
  else
    e.confirm storage
    let moved ← onStore (e.store.relocate storage.id source destination)
    if 0 < moved then noteWrite storage.id [] else pure ()
    .log (.moved storage.id source.path destination.path moved)
    pure moved

end PathAcl.Engine
