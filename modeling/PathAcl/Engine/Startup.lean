import PathAcl.Engine
import PathAcl.Memory
import PathAcl.Settings

/-! # Starting an engine
An engine starts over an empty table or over a database whose schema is created if it is missing. -/

namespace PathAcl

/-- Why an engine did not start (`EngineError`). -/
inductive StartError
  | settings (fault : SettingsFault)
  | storage (error : StoreError)
  deriving DecidableEq

/-- The wording of a failure. -/
def StartError.message : StartError → String
  | settings fault => (SettingsError.invalid fault).message?.getD ""
  | storage error => s!"failed to initialize storage: {error.message}"

namespace Settings

variable {σ : Type}

/-- The engine these settings describe, over a store (`PermissionEngine::new`). -/
def engine (s : Settings) (store : Store σ) : Engine σ := ⟨store, .ofStore, s.limits.maxBatch.toNat⟩

/-- Reports that an engine with these settings has started. -/
def ready (s : Settings) : Event :=
  .engineReady s.storage.backend s.index.enabled s.limits.maxBatch.toNat

/-- Opens a store for an engine: `prepare` makes it usable (`PermissionEngine::from_config`). -/
def start (s : Settings) (prepare : Action σ StoreError Unit) : Action σ StartError Unit := do
  .ofExcept (s.check.mapError .settings)
  prepare.mapError .storage
  .log s.ready

/-- Opens an empty table (`in_memory`). -/
def startMemory (s : Settings) : Outcome Memory StartError Unit := (s.start (pure ())).run ∅

/-- Opens a database. -/
def startDatabase (s : Settings) (peer : Database.Peer) : Outcome Connection StartError Unit :=
  (s.start Connection.createSchema).run (s.database.connect peer)

end Settings

end PathAcl
