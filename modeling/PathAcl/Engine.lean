import PathAcl.Request.Check
import PathAcl.StorageIndex
import PathAcl.Store

/-! # The engine
The engine answers requests over a store. It knows from a catalog which storages exist, limits the
size of a batch, and may keep an index of the storages in which a principal holds grants. Every
request is checked in full before the store is asked to write. -/

namespace PathAcl

/-- Which storages exist (`StorageCatalog`). -/
inductive Catalog
  /-- Those the store knows (`StoreCatalog`). -/
  | ofStore
  /-- Those an outside authority knows, which may fail to tell. -/
  | external (ask : StorageId → Except RequestError (Option StorageKind))

/-- An **engine** over a store with states `σ` (`PermissionEngine`). -/
structure Engine (σ : Type) where
  store : Store σ
  catalog : Catalog
  /-- The most items of a batch. -/
  maxBatch : Nat

/-- What an engine keeps between requests. -/
structure EngineState (σ : Type) where
  store : σ
  /-- The index, if one is kept. -/
  index : Option StorageIndex

/-- What a request makes an engine do. -/
abbrev Engine.Step (σ α : Type) : Type := Action (EngineState σ) RequestError α

namespace Engine

variable {σ α : Type}

/-- Asks the store. -/
def asking (a : Action σ StoreError α) : Action (EngineState σ) StoreError α :=
  a.onPart EngineState.store fun s store => { s with store }

/-- Asks the store on behalf of a request. -/
def onStore (a : Action σ StoreError α) : Step σ α := (asking a).mapError .ofStore

/-- Works on the index, if one is kept, and reports measures. -/
def onIndex (f : StorageIndex → List Measure × StorageIndex) : Step σ Unit := fun s =>
  match s.index with
  | none => ⟨.ok (), s, []⟩
  | some x => ⟨.ok (), { s with index := some (f x).2 }, (f x).1.map Note.measure⟩

/-- Tells the index of a write to a storage that touched the rows of the sids
(`invalidate_for_write`). -/
def noteWrite (id : StorageId) (sids : List Sid) : Step σ Unit :=
  onIndex fun x => ([.cacheDropped (x.noteWrite id sids).1], (x.noteWrite id sids).2)

variable (e : Engine σ)

/-- Makes a storage known (`register_storage`). -/
def register (storage : StorageRef) : Action (EngineState σ) StoreError Unit :=
  asking (e.store.register storage)

/-- Whether the store can be reached (`health_check`). -/
def health : Action (EngineState σ) StoreError Health := asking e.store.health

/-- The kind of a storage, if the catalog knows it. -/
def lookup (id : StorageId) : Step σ (Option StorageKind) :=
  match e.catalog with
  | .ofStore => onStore (e.store.kindOf id)
  | .external ask => .ofExcept (ask id)

/-- Accepts a storage that exists and is of the kind it is taken for (`require_storage`). -/
def confirm (storage : StorageRef) : Step σ Unit := do
  match ← e.lookup storage.id with
  | none => .fail (.storageNotFound storage.id)
  | some actual =>
    if actual = storage.kind then pure ()
    else .fail (.kindMismatch storage.id actual storage.kind)

end Engine

end PathAcl
