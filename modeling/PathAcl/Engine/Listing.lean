import PathAcl.Engine
import PathAcl.ListedStorage

/-! # Listing storages
Which storages a principal may list: those the storage-level list lets it read, and those in which
it holds a grant at some path (`ReadAllowedStorageIndex`, `ListingPipeline`). -/

namespace PathAcl.Engine

variable {σ : Type} (e : Engine σ)

/-- Asks the store in which storages one of the sids holds a row (`query`). -/
def askReadable (question : SidSet) : Step σ (SortedSet StorageRef) := do
  pure (SortedSet.ofList (← onStore (e.store.storagesHolding question.members)))

/-- Looks an answer up in the index (`get`). -/
def consult (question : SidSet) : Step σ (Option (SortedSet StorageRef)) := fun s =>
  match s.index with
  | none => ⟨.ok none, s, []⟩
  | some x =>
    let found := x.answer? question
    ⟨.ok found, s, [.measure (if found.isSome then .cacheHit else .cacheMiss)]⟩

/-- The writes the index has counted. -/
def writesSeen : Step σ UInt64 := fun s => ⟨.ok (s.index.elim 0 StorageIndex.writes), s, []⟩

/-- Puts an answer into the index, if one is kept (`insert_if_current`). -/
def remember (question : SidSet) (answer : SortedSet StorageRef) (asked : UInt64) : Step σ Unit :=
  fun s =>
    match s.index with
    | none => ⟨.ok (), s, []⟩
    | some x =>
      let (kept, left) := x.remember question answer asked
      ⟨.ok (), { s with index := some left }, if kept then [] else [.event .staleResult]⟩

/-- The storages in which one of the sids holds a row, from the index if it remembers them
(`load_read_allowed_storages`). -/
def readable (sids : List Sid) : Step σ (SortedSet StorageRef) := do
  let question := SortedSet.ofList sids
  if question.isEmpty then pure ∅
  else
    match ← consult question with
    | some answer => pure answer
    | none =>
      -- the writes are read before the store is asked, so a write in between shows
      let asked ← writesSeen
      let answer ← e.askReadable question
      remember question answer asked
      pure answer

/-- A storage-level list with the grants of the sids laid over it (`ListingPipeline::overlay`). -/
def overlay (sids : List Sid) (base : List ListedStorage) : Step σ (List ListedStorage) := do
  pure (ListedStorage.overlay base (← e.readable sids))

/-- The storages a caller may list; `base` gives the storage-level list for its sids
(`ListingPipeline::list`). -/
def list (caller : Except RequestError (List Sid))
    (base : List Sid → Except RequestError (List ListedStorage)) :
    Step σ (List ListedStorage) := do
  let sids ← .ofExcept caller
  let base ← .ofExcept (base sids)
  let listed ← e.overlay sids base
  .log (.listed base.length listed.length)
  pure listed

end PathAcl.Engine
