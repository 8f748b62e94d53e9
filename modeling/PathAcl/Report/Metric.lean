import PathAcl.SortedMap

/-! # Metrics
Counters and histograms the engine feeds. A series is named by its metric and its labels; a
histogram is seen by the number of its samples. -/

namespace PathAcl

/-- An operation of a store whose queries are timed. -/
inductive Operation
  | registerStorage
  | storageKind
  | upsertPermissions
  | deletePermissions
  | loadPermissions
  | loadHeld
  | deleteUnder
  | relocate
  | storagesHolding
  | upsertProlongations
  | findProlongations
  | listProlongations
  | healthCheck
  deriving Repr, DecidableEq

/-- The name of an operation in labels and messages. -/
def Operation.name : Operation → String
  | registerStorage => "register_storage"
  | storageKind => "storage_kind"
  | upsertPermissions => "upsert_permissions"
  | deletePermissions => "delete_permissions"
  | loadPermissions => "load_permissions"
  | loadHeld => "find_applicable"
  | deleteUnder => "delete_trees"
  | relocate => "move_tree"
  | storagesHolding => "storages_with_grants"
  | upsertProlongations => "upsert_prolongations"
  | findProlongations => "find_prolongations"
  | listProlongations => "list_prolongations"
  | healthCheck => "health_check"

/-- How a timed query ended. -/
inductive QueryStatus
  | success
  | error
  | timeout
  deriving Repr, DecidableEq

/-- The name of a status in labels. -/
def QueryStatus.name : QueryStatus → String
  | success => "success"
  | error => "error"
  | timeout => "timeout"

/-- What is counted or sampled at once. -/
inductive Measure
  | queryTime (operation : Operation) (status : QueryStatus)
  | queryTimeout (operation : Operation)
  | healthTime (status : QueryStatus)
  | cacheHit
  | cacheMiss
  | cacheDropped (entries : Nat)
  deriving Repr, DecidableEq

namespace Measure

/-- The name of the metric. -/
def metric : Measure → String
  | queryTime .. => "pathgrant_storage_query_duration_seconds"
  | queryTimeout _ => "pathgrant_storage_query_timeout_total"
  | healthTime _ => "pathgrant_storage_health_check_duration_seconds"
  | cacheHit => "pathgrant_index_cache_hits_total"
  | cacheMiss => "pathgrant_index_cache_misses_total"
  | cacheDropped _ => "pathgrant_index_cache_invalidations_total"

/-- The labels of the series. -/
def labels : Measure → List (String × String)
  | queryTime operation status =>
    [("operation", operation.name), ("backend", "postgres"), ("status", status.name)]
  | queryTimeout operation => [("operation", operation.name), ("backend", "postgres")]
  | healthTime status => [("backend", "postgres"), ("status", status.name)]
  | cacheHit | cacheMiss | cacheDropped _ => []

/-- The series: the metric, and its labels in braces if it has any. -/
def series (m : Measure) : String :=
  match m.labels with
  | [] => m.metric
  | ls => m.metric ++ "\x7b" ++ ",".intercalate (ls.map fun l => l.1 ++ "=" ++ l.2) ++ "\x7d"

/-- What the series gains: one sample, or the increment of a counter. -/
def gain : Measure → Nat
  | cacheDropped entries => entries
  | _ => 1

end Measure

/-- The series touched so far and their values. -/
abbrev Metrics : Type := SortedMap String Nat

/-- Adds a measure to its series. -/
def Metrics.add (totals : Metrics) (m : Measure) : Metrics :=
  totals.insert m.series ((totals.find? m.series).getD 0 + m.gain)

/-- What a metric is. -/
inductive MetricKind
  | counter
  | histogram
  deriving Repr, DecidableEq

/-- The name of a kind of metric. -/
def MetricKind.name : MetricKind → String
  | counter => "counter"
  | histogram => "histogram"

/-- A metric as it is announced to a recorder. -/
structure MetricDescription where
  kind : MetricKind
  name : String
  text : String
  deriving Repr, DecidableEq

/-- Every metric, in the order of announcement (`register_metrics`). -/
def Metrics.described : List MetricDescription :=
  [⟨.histogram, "pathgrant_storage_query_duration_seconds",
      "Storage query duration in seconds by operation, backend, and status"⟩,
    ⟨.counter, "pathgrant_storage_query_timeout_total",
      "Total number of storage query timeouts by operation and backend"⟩,
    ⟨.histogram, "pathgrant_storage_health_check_duration_seconds",
      "Storage health check duration in seconds by backend and status"⟩,
    ⟨.counter, "pathgrant_index_cache_hits_total",
      "Total number of read-allowed storage cache hits"⟩,
    ⟨.counter, "pathgrant_index_cache_misses_total",
      "Total number of read-allowed storage cache misses"⟩,
    ⟨.counter, "pathgrant_index_cache_invalidations_total",
      "Total number of read-allowed storage entries dropped by writes"⟩]

end PathAcl
