import PathAcl.Engine.Effective
import PathAcl.Engine.Lifecycle
import PathAcl.Engine.Rows
import PathAcl.Engine.Subtree
import PathAcl.Request

/-! # Answering requests
Requests as callers send them, on behalf of a caller whose sids are known or cannot be told
(`PermissionHandler`). -/

namespace PathAcl.Engine

variable {σ : Type} (e : Engine σ)

/-- Answers a request for rows (`load_batch`). -/
def answerLoad (r : LoadRequest) : Step σ (List PermissionEntry) := do
  pure ((← e.load r.storage r.items).map Permission.entry)

/-- Answers a request to write rows (`insert_batch`). -/
def answerInsert (now : Instant) (r : InsertRequest) : Step σ (List PermissionEntry) := do
  pure ((← e.insert now r.storage r.items).map Permission.entry)

/-- Answers a request to drop rows (`delete_batch`). -/
def answerDelete (r : DeleteRequest) : Step σ (List PermissionKey) := e.delete r.storage r.items

/-- Answers a request to move rows (`move_path`). -/
def answerMove (r : MoveRequest) : Step σ MoveAnswer := do
  pure ⟨.ofNat (← e.move r.storage r.source r.destination)⟩

/-- The first user among sids. -/
def firstUser (sids : List Sid) : Except RequestError Sid :=
  match sids.find? fun s => s.type == .user with
  | some user => .ok user
  | none => .error .missingUser

/-- How each path is taken, under its normal form; the last item that names it counts. -/
def typesByPath (items : List PathRef) : Except RequestError (SortedMap String PathType) := do
  pure ((← items.mapM Request.normalRef).foldl (fun types r => types.insert r.path r.type) ∅)

/-- Prolongs paths in the name of the caller. -/
def prolongInstead (now : Instant) (storage : StorageRef) (items : List PathRef) (days : UInt32)
    (caller : Except RequestError (List Sid)) : Step σ (List PathRef) := do
  let user ← .ofExcept (caller >>= firstUser)
  let types ← .ofExcept (typesByPath items)
  let written ← e.prolong now storage (items.map PathRef.path) user.name days
  .log (.prolongedInstead storage.id user.name days)
  pure (written.map fun p => ⟨p.path, (types.find? p.path).getD .folder⟩)

/-- Answers a request to drop everything under some paths, or to prolong them (`delete_all_batch`). -/
def answerDeleteAll (now : Instant) (r : DeleteAllRequest)
    (caller : Except RequestError (List Sid)) : Step σ DeleteAllAnswer := do
  match r.daysToProlong with
  | none => pure ⟨← e.deleteUnder r.storage r.items, []⟩
  | some days => pure ⟨[], ← e.prolongInstead now r.storage r.items days caller⟩

/-- Answers a request for effective masks, item by item (`resolve_batch`). -/
def answerResolve (r : ResolveRequest) (caller : Except RequestError (List Sid)) :
    Step σ (List ResolvedMask) := do
  let sids ← .ofExcept caller
  let masks ← e.resolveAll r.storageId r.items sids
  .log (.resolvedMasks r.storageId masks.size)
  let items ← .ofExcept (r.items.mapM Request.normalRef)
  pure (items.map fun t => ⟨t.path, t.type, (masks.find? t).getD .none⟩)

end PathAcl.Engine
