import PathAcl.Settings
import PathAcl.Wire.Json

/-! # Settings on the wire
Every section and every field may be left out and then has its usual value; a null is a value only
for the address of the database. In a list of fields that address has to be given. -/

namespace PathAcl.Wire

instance : Wire StoreSettings where
  encode s := .object
    [("backend", encode s.backend), ("database_url", encode s.databaseUrl),
      ("pool_size", encode s.poolSize), ("connection_timeout_secs", encode s.connectSeconds),
      ("query_timeout_secs", encode s.querySeconds)]
  decode? j := do
    let usual := StoreSettings.default
    match ← fields? ["backend", "database_url", "pool_size", "connection_timeout_secs",
        "query_timeout_secs"] 2 j with
    | [backend, url, pool, connect, query] =>
      some ⟨← optional usual.backend backend, ← optional usual.databaseUrl url,
        ← optional usual.poolSize pool, ← optional usual.connectSeconds connect,
        ← optional usual.querySeconds query⟩
    | _ => none

instance : Wire LimitSettings where
  encode s := .object [("max_batch_size", encode s.maxBatch)]
  decode? j := do
    match ← fields? ["max_batch_size"] 0 j with
    | [maxBatch] => some ⟨← optional LimitSettings.default.maxBatch maxBatch⟩
    | _ => none

instance : Wire IndexSettings where
  encode s := .object
    [("enabled", encode s.enabled), ("max_capacity", encode s.capacity),
      ("ttl_secs", encode s.seconds)]
  decode? j := do
    let usual := IndexSettings.default
    match ← fields? ["enabled", "max_capacity", "ttl_secs"] 0 j with
    | [enabled, capacity, seconds] =>
      some ⟨← optional usual.enabled enabled, ← optional usual.capacity capacity,
        ← optional usual.seconds seconds⟩
    | _ => none

instance : Wire LogSettings where
  encode s := .object [("level", encode s.level), ("json", encode s.json)]
  decode? j := do
    let usual := LogSettings.default
    match ← fields? ["level", "json"] 0 j with
    | [level, json] => some ⟨← optional usual.level level, ← optional usual.json json⟩
    | _ => none

instance : Wire Settings where
  encode s := .object
    [("storage", encode s.storage), ("limits", encode s.limits), ("index_cache", encode s.index),
      ("logging", encode s.logging)]
  decode? j := do
    let usual := Settings.default
    match ← fields? ["storage", "limits", "index_cache", "logging"] 0 j with
    | [storage, limits, index, logging] =>
      some ⟨← optional usual.storage storage, ← optional usual.limits limits,
        ← optional usual.index index, ← optional usual.logging logging⟩
    | _ => none

end PathAcl.Wire
