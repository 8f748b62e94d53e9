import PathAcl.Engine

/-! # Prolonging the life of paths
A prolongation is recorded beside the rows and never touches them. It holds for everything beneath
its path that has no nearer one (`PathMigrator`). -/

namespace PathAcl.Engine

variable {σ : Type} (e : Engine σ)

/-- The end of a span of whole days that begins now, if the calendar reaches that far. -/
def prolongedUntil (now : Instant) (days : UInt32) : Except RequestError Instant :=
  match now.addDays? days.toNat with
  | some t => .ok t
  | none => .error (.invalidInput s!"cannot prolong by {days.toNat} days")

/-- Records the same prolongation for every path (`prolong_batch`). -/
def prolong (now : Instant) (storage : StorageRef) (paths : List String) (userId : String)
    (days : UInt32) : Step σ (List Prolongation) := do
  .ofExcept (Request.checkSize e.maxBatch paths.length)
  if days = 0 then .fail (.invalidInput "days to prolong must be positive") else pure ()
  if Text.blank userId then .fail (.invalidInput "user id cannot be empty") else pure ()
  let paths ← .ofExcept (paths.mapM Request.normalPath)
  let till ← .ofExcept (prolongedUntil now days)
  e.confirm storage
  let records := paths.map fun path => ⟨storage.id, path, userId, till, days, now⟩
  let written ← onStore (e.store.prolong storage.id records)
  .log (.prolonged storage.id written.length days)
  pure written

/-- Records the prolongation of one path (`prolong`). -/
def prolongOne (now : Instant) (storage : StorageRef) (path userId : String) (days : UInt32) :
    Step σ Prolongation := do
  match (← e.prolong now storage [path] userId days).getLast? with
  | some p => pure p
  | none => .fail (.invalidInput "prolongation produced no record")

/-- The prolongation that holds for a path: its own or that of the nearest folder above it
(`find_prolongation`). -/
def prolongationOf (id : StorageId) (path : String) : Step σ (Option Prolongation) := do
  let path ← .ofExcept (Request.normalPath path)
  onStore (e.store.nearestProlongation id path)

/-- All prolongations of a storage, by path (`list_prolongations`). -/
def prolongations (id : StorageId) : Action (EngineState σ) StoreError (List Prolongation) :=
  asking (e.store.prolongations id)

end PathAcl.Engine
