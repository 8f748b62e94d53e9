import PathAcl.Engine

/-! # Rows in batches
Writing, dropping and reading the rows of one storage (`BatchOperationProcessor`). -/

namespace PathAcl.Engine

variable {σ : Type} (e : Engine σ)

/-- Writes the rows a caller asks for, the last of each key (`insert_batch`). Answers the rows
written. All of them have the instant `now`: a clock that is read anew for each item
(`StoredPermission::new`) is taken to stand still during a request. -/
def insert (now : Instant) (storage : StorageRef) (requests : List GrantRequest) :
    Step σ (List Permission) := do
  .ofExcept (Request.checkSize e.maxBatch requests.length)
  let rows ← .ofExcept (requests.mapM (Request.toRow now))
  e.confirm storage
  let written ← onStore (e.store.upsert storage rows)
  noteWrite storage.id (distinctSids (written.map Permission.sid))
  .log (.inserted storage.id written.length)
  pure written

/-- Drops the rows a caller names (`delete_batch`). Answers the keys of those that were there. -/
def delete (storage : StorageRef) (keys : List PermissionKey) : Step σ (List PermissionKey) := do
  .ofExcept (Request.checkSize e.maxBatch keys.length)
  let keys ← .ofExcept (keys.mapM Request.toKey)
  e.confirm storage
  let dropped ← onStore (e.store.delete storage.id keys)
  noteWrite storage.id (distinctSids (dropped.map PermissionKey.sid))
  .log (.deleted storage.id dropped.length)
  pure dropped

/-- The rows held at exactly the given places, each place looked at once (`load_batch`). -/
def load (storage : StorageRef) (places : List PathRef) : Step σ (List Permission) := do
  .ofExcept (Request.checkSize e.maxBatch places.length)
  let places ← .ofExcept (places.mapM Request.normalRef)
  e.confirm storage
  let rows ← onStore (e.store.load storage.id (SortedSet.ofList places).members)
  .log (.loaded storage.id rows.length)
  pure rows

end PathAcl.Engine
