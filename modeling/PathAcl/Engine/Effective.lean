import PathAcl.Engine

/-! # Effective masks
Of the rows of one sid that reach a target the nearest one counts, whatever it grants; the masks of
the sids add up. Nothing granted is the empty mask and no failure (`PermissionResolver`). -/

namespace PathAcl

/-- The mask of the row nearest to the target among those of a sid that reach it (`winning_mask`). -/
def nearestMask (rows : List Permission) (target : PathRef) (sid : Sid) : Option Mask :=
  (Path.longest Permission.path
    (rows.filter fun r => r.sid == sid && r.place.reaches target)).map Permission.mask

/-- What the rows grant on a target, taken over all sids in them. -/
def effectiveMask (rows : List Permission) (target : PathRef) : Mask :=
  (distinctSids (rows.map Permission.sid)).foldl
    (fun mask sid => mask ||| (nearestMask rows target sid).getD .none) .none

namespace Engine

variable {σ : Type} (e : Engine σ)

/-- The effective masks of targets in normal form, from one question to the store
(`resolve_normalized`). -/
def effectiveOf (id : StorageId) (targets : SortedSet PathRef) (sids : List Sid) :
    Step σ (SortedMap PathRef Mask) := do
  let sids := distinctSids sids
  if sids.isEmpty || targets.isEmpty then
    pure (targets.members.foldl (fun masks t => masks.insert t .none) ∅)
  else
    -- one question for all targets; each target then picks the rows that reach it
    let places := (SortedSet.ofList (targets.members.flatMap PathRef.reachedFrom)).members
    let rows ← onStore (e.store.loadHeld id places sids)
    .log (.rowsFound places.length rows.length)
    pure (targets.members.foldl (fun masks t => masks.insert t (effectiveMask rows t)) ∅)

/-- The effective mask of one target. -/
def resolve (id : StorageId) (target : PathRef) (sids : List Sid) : Step σ Mask := do
  let target ← .ofExcept (Request.normalRef target)
  let masks ← e.effectiveOf id (SortedSet.ofList [target]) sids
  pure ((masks.find? target).getD .none)

/-- The effective masks of many targets, under their normal forms (`resolve_batch`). -/
def resolveAll (id : StorageId) (targets : List PathRef) (sids : List Sid) :
    Step σ (SortedMap PathRef Mask) := do
  let targets ← .ofExcept (targets.mapM Request.normalRef)
  e.effectiveOf id (SortedSet.ofList targets) sids

end Engine

end PathAcl
