import PathAcl.Settings
import PathAcl.Settings.Library

/-! # Loading settings
Settings are loaded from what is usual, a document, and the variables of the environment
(`EngineConfig::load`, `EngineConfig::from_env`). What a section is not given keeps its usual value. A
section may be given field by field, or as a list of the values of its fields in their order. -/

namespace PathAcl

namespace Settings

variable (lib : ConfigLibrary)

/-- The values that settings are written as, by section. -/
def written (s : Settings) : List (String × lib.Value) :=
  [("storage", lib.table
      [("backend", lib.write .text s.storage.backend),
        ("database_url", s.storage.databaseUrl.elim lib.null (lib.write .text)),
        ("pool_size", lib.write .word32 s.storage.poolSize),
        ("connection_timeout_secs", lib.write .word64 s.storage.connectSeconds),
        ("query_timeout_secs", lib.write .word64 s.storage.querySeconds)]),
    ("limits", lib.table [("max_batch_size", lib.write .word64 s.limits.maxBatch)]),
    ("index_cache", lib.table
      [("enabled", lib.write .truth s.index.enabled),
        ("max_capacity", lib.write .word64 s.index.capacity),
        ("ttl_secs", lib.write .word64 s.index.seconds)]),
    ("logging", lib.table
      [("level", lib.write .text s.logging.level), ("json", lib.write .truth s.logging.json)])]

end Settings

namespace ConfigLibrary

variable (lib : ConfigLibrary)

/-- The key of a variable of the engine. -/
def engineKey? (name : String) : Option String := lib.variableKey? ("PATHGRANT" ++ "_") "__" name

/-! ## Reading settings -/

/-- A value as a text that may be absent. -/
def optionalText? (v : lib.Value) : Option (Option String) :=
  match lib.shape v with
  | .null => some none
  | _ => (lib.convert? .text v).map some

/-- The fields given for a section; nothing if it is given as a single value, or as a list with
fewer items than it needs. -/
def fieldsOf (c : lib.Config) (heading : String) (names : List String) (needed : Nat) :
    Option (List (String × lib.Value)) :=
  match (lib.find? c heading).map lib.shape with
  | none => some []
  | some (.table es) => some es
  | some (.list items) => if items.length < needed then none else some (names.zip items)
  | some .null | some .single => none

/-- The value of a field: the usual one if none is given, and nothing if one is given that does not
fit. -/
def fieldOf {α : Type} (fields : List (String × lib.Value)) (name : String) (usual : α)
    (read : lib.Value → Option α) : Option α :=
  match fields.lookup name with
  | none => some usual
  | some v => read v

/-- The settings of where rows are kept (`StorageSettings`). A list has to go as far as the database. -/
def storeSettings? (c : lib.Config) : Option StoreSettings := do
  let usual := StoreSettings.default
  let fields ← lib.fieldsOf c "storage"
    ["backend", "database_url", "pool_size", "connection_timeout_secs", "query_timeout_secs"] 2
  pure {
    backend := ← lib.fieldOf fields "backend" usual.backend (lib.convert? .text)
    databaseUrl := ← lib.fieldOf fields "database_url" usual.databaseUrl lib.optionalText?
    poolSize := ← lib.fieldOf fields "pool_size" usual.poolSize (lib.convert? .word32)
    connectSeconds :=
      ← lib.fieldOf fields "connection_timeout_secs" usual.connectSeconds (lib.convert? .word64)
    querySeconds :=
      ← lib.fieldOf fields "query_timeout_secs" usual.querySeconds (lib.convert? .word64) }

/-- The settings of the limits (`LimitsSettings`). -/
def limitSettings? (c : lib.Config) : Option LimitSettings := do
  let usual := LimitSettings.default
  let fields ← lib.fieldsOf c "limits" ["max_batch_size"] 0
  pure { maxBatch := ← lib.fieldOf fields "max_batch_size" usual.maxBatch (lib.convert? .word64) }

/-- The settings of the index (`IndexCacheSettings`). -/
def indexSettings? (c : lib.Config) : Option IndexSettings := do
  let usual := IndexSettings.default
  let fields ← lib.fieldsOf c "index_cache" ["enabled", "max_capacity", "ttl_secs"] 0
  pure {
    enabled := ← lib.fieldOf fields "enabled" usual.enabled (lib.convert? .truth)
    capacity := ← lib.fieldOf fields "max_capacity" usual.capacity (lib.convert? .word64)
    seconds := ← lib.fieldOf fields "ttl_secs" usual.seconds (lib.convert? .word64) }

/-- The settings of the log (`LoggingSettings`). -/
def logSettings? (c : lib.Config) : Option LogSettings := do
  let usual := LogSettings.default
  let fields ← lib.fieldsOf c "logging" ["level", "json"] 0
  pure {
    level := ← lib.fieldOf fields "level" usual.level (lib.convert? .text)
    json := ← lib.fieldOf fields "json" usual.json (lib.convert? .truth) }

/-- The settings that sources gave; nothing if a section or a field does not fit
(`Config::try_deserialize`). -/
def settings? (c : lib.Config) : Option Settings := do
  pure {
    storage := ← lib.storeSettings? c
    limits := ← lib.limitSettings? c
    index := ← lib.indexSettings? c
    logging := ← lib.logSettings? c }

end ConfigLibrary

/-! ## Sources -/

/-- Where the settings of a document come from. -/
inductive SettingsFile
  /-- No document is wanted. -/
  | none
  | missing (path : String)
  | text (document : String)

namespace Settings

variable (lib : ConfigLibrary)

/-- What settings that were read come to: they are checked (`EngineConfig::validate`). -/
def verdict (s : Settings) : Except SettingsError Settings :=
  match s.check with
  | .error fault => .error (.invalid fault)
  | .ok () => .ok s

/-- The entries of the variables of the environment (`env_source`). -/
def ofEnvironment (environment : List (String × String)) : List (String × lib.Value) :=
  lib.environment "PATHGRANT" "_" "__" environment

/-- The settings that sources give together, if they pass their check. -/
def ofSources (sources : List (List (String × lib.Value))) : Except SettingsError Settings :=
  match lib.settings? (lib.build sources) with
  | none => .error .unreadable
  | some s => s.verdict

/-- Loads settings from what is usual, the document over it, and the environment over both, and checks
them. A missing file is found out before anything is read. -/
def load (file : SettingsFile) (environment : List (String × String)) :
    Except SettingsError Settings :=
  match file with
  | .none => ofSources lib [default.written lib, ofEnvironment lib environment]
  | .missing path => .error (.notFound path)
  | .text text =>
    match lib.document? text with
    | none => .error .unreadable
    | some es => ofSources lib [default.written lib, es, ofEnvironment lib environment]

end Settings

end PathAcl
