import PathAcl.Database
import PathAcl.Request.Check
import PathAcl.StorageIndex

/-! # Settings
What an engine can be told: where rows are kept, how large a batch may be, whether to keep an index,
and what to log. Settings are checked before an engine starts. -/

namespace PathAcl

/-- Where rows are kept (`StorageSettings`). -/
structure StoreSettings where
  /-- The name of a backend. -/
  backend : String
  /-- Where the database is. -/
  databaseUrl : Option String
  /-- The size of the connection pool. -/
  poolSize : UInt32
  connectSeconds : UInt64
  querySeconds : UInt64
  deriving Repr, DecidableEq

/-- How much a request may ask for (`LimitsSettings`). -/
structure LimitSettings where
  /-- The most items of a batch. -/
  maxBatch : UInt64
  deriving Repr, DecidableEq

/-- What is logged (`LoggingSettings`). -/
structure LogSettings where
  /-- The name of the finest level that is logged. -/
  level : String
  /-- One JSON object for each event, instead of text for a reader. -/
  json : Bool
  deriving Repr, DecidableEq

/-- The **settings** of an engine (`EngineConfig`). -/
structure Settings where
  storage : StoreSettings
  limits : LimitSettings
  index : IndexSettings
  logging : LogSettings
  deriving Repr, DecidableEq

/-! ## Usual values -/

/-- Rows are kept in memory. -/
def StoreSettings.default : StoreSettings := ⟨"memory", none, 10, 5, 30⟩

instance : Inhabited StoreSettings := ⟨.default⟩

/-- A batch may have the usual number of items. -/
def LimitSettings.default : LimitSettings := ⟨.ofNat Request.usualLimit⟩

instance : Inhabited LimitSettings := ⟨.default⟩

/-- Writes are logged for a reader. -/
def LogSettings.default : LogSettings := ⟨"info", false⟩

instance : Inhabited LogSettings := ⟨.default⟩

/-- The settings of an engine that is told nothing. -/
def Settings.default : Settings := ⟨.default, .default, .default, .default⟩

instance : Inhabited Settings := ⟨.default⟩

/-! ## Checks -/

/-- What is wrong with settings. -/
inductive SettingsFault
  | unknownBackend (name : String)
  /-- A database is wanted and none is named. -/
  | noDatabaseUrl
  | noConnections
  | noItems
  /-- An index is wanted that may keep nothing. -/
  | noCapacity
  | unknownLevel (name : String)
  deriving Repr, DecidableEq

/-- The names of the backends. -/
def backendNames : List String := ["memory", "postgres"]

/-- The names of the levels. -/
def levelNames : List String := ["trace", "debug", "info", "warn", "error"]

/-- A list of names in messages. -/
def nameList (names : List String) : String :=
  "[" ++ ", ".intercalate (names.map fun n => "\"" ++ n ++ "\"") ++ "]"

/-- The wording of a fault. -/
def SettingsFault.message : SettingsFault → String
  | unknownBackend name =>
    s!"storage.backend must be one of: {nameList backendNames}, got: {name}"
  | noDatabaseUrl => "storage.database_url is required when backend is 'postgres'"
  | noConnections => "storage.pool_size must be greater than 0"
  | noItems => "limits.max_batch_size must be greater than 0"
  | noCapacity => "index_cache.max_capacity must be greater than 0 when enabled"
  | unknownLevel name => s!"logging.level must be one of: {nameList levelNames}, got: {name}"

namespace Settings

/-- Whether rows are kept in a database. -/
def wantsDatabase (s : Settings) : Bool := s.storage.backend == "postgres"

/-- Accepts the settings an engine can start with; else gives the first fault (`validate`). -/
def check (s : Settings) : Except SettingsFault Unit :=
  if s.storage.backend ∉ backendNames then .error (.unknownBackend s.storage.backend)
  else if s.wantsDatabase && s.storage.databaseUrl.all Text.blank then .error .noDatabaseUrl
  else if s.storage.poolSize = 0 then .error .noConnections
  else if s.limits.maxBatch = 0 then .error .noItems
  else if s.index.enabled && s.index.capacity == 0 then .error .noCapacity
  else if s.logging.level.toLower ∉ levelNames then .error (.unknownLevel s.logging.level)
  else .ok ()

/-- How to connect to the database these settings name (`postgres_config`). -/
def database (s : Settings) : DatabaseSettings :=
  { DatabaseSettings.default with
    url := s.storage.databaseUrl.getD ""
    maxConnections := s.storage.poolSize
    connectSeconds := s.storage.connectSeconds
    querySeconds := s.storage.querySeconds }

end Settings

/-- Why no settings could be read (`ConfigLoadError`). -/
inductive SettingsError
  /-- There is no such file. -/
  | notFound (path : String)
  /-- The text is no document of settings, or a value does not fit its setting. -/
  | unreadable
  | invalid (fault : SettingsFault)
  deriving Repr, DecidableEq

/-- The wording of a failure, where it has one of its own. -/
def SettingsError.message? : SettingsError → Option String
  | notFound path => some s!"configuration file not found: {path}"
  | unreadable => none
  | invalid fault => some s!"invalid configuration: {fault.message}"

end PathAcl
