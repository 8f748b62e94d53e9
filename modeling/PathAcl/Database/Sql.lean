/-! # The statements
The SQL texts that are sent, with single spaces between their words. -/

namespace PathAcl.Database.Sql

/-! ## Transactions -/

/-- Begins a transaction. -/
def begin : String := "BEGIN"

/-- Ends a transaction and keeps what it did. -/
def commit : String := "COMMIT"

/-- Serialises the writers on one storage until the transaction ends. -/
def lock : String := "SELECT pg_advisory_xact_lock($1)"

/-! ## Storages -/

/-- Adds a storage unless its id is taken. -/
def addStorage : String :=
  "INSERT INTO storage_roots (id, kind) VALUES ($1, $2) ON CONFLICT (id) DO NOTHING"

/-- The kind of a storage. -/
def kindOf : String := "SELECT kind FROM storage_roots WHERE id = $1"

/-- The storages in which one of the sids holds a row, by id. -/
def storagesHolding : String :=
  "SELECT r.id, r.kind FROM storage_roots r WHERE EXISTS ( SELECT 1 FROM path_permissions p " ++
  "JOIN UNNEST($1::text[], $2::text[]) AS s(sid_name, sid_type) " ++
  "ON p.sid_name = s.sid_name AND p.sid_type = s.sid_type WHERE p.storage_id = r.id ) ORDER BY r.id"

/-! ## Permission rows -/

/-- The columns of a permission row. -/
def rowColumns : String :=
  "p.path, p.path_type, p.sid_name, p.sid_type, p.mask, p.created"

/-- Writes rows; one whose key is there already gets the new mask and date. -/
def writeRows : String :=
  "INSERT INTO path_permissions " ++
  "(storage_id, path, path_type, sid_name, sid_type, mask, created) " ++
  "SELECT $1, u.path, u.path_type, u.sid_name, u.sid_type, u.mask, u.created " ++
  "FROM UNNEST($2::text[], $3::text[], $4::text[], $5::text[], $6::bigint[], $7::timestamptz[]) " ++
  "AS u(path, path_type, sid_name, sid_type, mask, created) " ++
  "ON CONFLICT (storage_id, path, path_type, sid_name, sid_type) " ++
  "DO UPDATE SET mask = EXCLUDED.mask, created = EXCLUDED.created"

/-- Drops rows by their keys and returns the keys of those that were there. -/
def dropRows : String :=
  "DELETE FROM path_permissions p " ++
  "USING UNNEST($2::text[], $3::text[], $4::text[], $5::text[]) " ++
  "AS d(path, path_type, sid_name, sid_type) WHERE p.storage_id = $1 AND p.path = d.path " ++
  "AND p.path_type = d.path_type AND p.sid_name = d.sid_name AND p.sid_type = d.sid_type " ++
  "RETURNING p.path, p.path_type, p.sid_name, p.sid_type"

/-- The rows at the places, in order. -/
def rowsAt : String :=
  "SELECT " ++ rowColumns ++ " FROM path_permissions p " ++
  "JOIN UNNEST($2::text[], $3::text[]) AS q(path, path_type) " ++
  "ON p.path = q.path AND p.path_type = q.path_type WHERE p.storage_id = $1 " ++
  "ORDER BY p.path, p.path_type, p.sid_type, p.sid_name"

/-- The rows that the sids hold at the places. -/
def rowsHeld : String :=
  "SELECT " ++ rowColumns ++ " FROM path_permissions p " ++
  "JOIN UNNEST($2::text[], $3::text[]) AS c(path, path_type) " ++
  "ON p.path = c.path AND p.path_type = c.path_type " ++
  "JOIN UNNEST($4::text[], $5::text[]) AS s(sid_name, sid_type) " ++
  "ON p.sid_name = s.sid_name AND p.sid_type = s.sid_type WHERE p.storage_id = $1"

/-- Drops the rows that the roots govern and returns their keys. -/
def dropUnder : String :=
  "DELETE FROM path_permissions p USING UNNEST($2::text[], $3::text[]) AS r(path, path_type) " ++
  "WHERE p.storage_id = $1 AND ( (r.path_type = 'FOLDER' AND (p.path = r.path " ++
  "OR left(p.path, char_length(r.path) + 1) = (r.path || '/'))) " ++
  "OR (r.path_type = 'FILE' AND p.path = r.path AND p.path_type = 'FILE') ) " ++
  "RETURNING p.path, p.path_type, p.sid_name, p.sid_type"

/-- A row at `$2` or beneath it, on a segment boundary. -/
def inSubtree : String := "(path = $2 OR left(path, char_length($2) + 1) = ($2 || '/'))"

/-- Whether a row is at `$2` or beneath it. -/
def folderOccupied : String :=
  "SELECT EXISTS(SELECT 1 FROM path_permissions WHERE storage_id = $1 AND " ++ inSubtree ++ ")"

/-- Whether a file row is at `$2`. -/
def fileOccupied : String :=
  "SELECT EXISTS(SELECT 1 FROM path_permissions " ++
  "WHERE storage_id = $1 AND path = $2 AND path_type = 'FILE')"

/-- Puts `$3` in the place of `$2` in the paths at and beneath it. -/
def moveFolder : String :=
  "UPDATE path_permissions SET path = $3 || substr(path, char_length($2) + 1) " ++
  "WHERE storage_id = $1 AND " ++ inSubtree

/-- Moves the file rows at `$2` to `$3`. -/
def moveFile : String :=
  "UPDATE path_permissions SET path = $3 " ++
  "WHERE storage_id = $1 AND path = $2 AND path_type = 'FILE'"

/-! ## Prolongations -/

/-- Writes prolongations; one whose path has one already replaces it. -/
def writeProlongations : String :=
  "INSERT INTO path_prolongations (storage_id, path, user_id, prolonged_until, days, updated) " ++
  "SELECT $1, u.path, u.user_id, u.prolonged_until, u.days, u.updated " ++
  "FROM UNNEST($2::text[], $3::text[], $4::timestamptz[], $5::int[], $6::timestamptz[]) " ++
  "AS u(path, user_id, prolonged_until, days, updated) " ++
  "ON CONFLICT (storage_id, path) DO UPDATE SET user_id = EXCLUDED.user_id, " ++
  "prolonged_until = EXCLUDED.prolonged_until, days = EXCLUDED.days, updated = EXCLUDED.updated"

/-- The beginning of a question for prolongations of a storage. -/
def prolongationsOf : String :=
  "SELECT storage_id, path, user_id, prolonged_until, days, updated " ++
  "FROM path_prolongations WHERE storage_id = $1 "

/-- The prolongations of the given paths. -/
def prolongationsAt : String := prolongationsOf ++ "AND path = ANY($2::text[])"

/-- The prolongations of a storage, by path. -/
def prolongations : String := prolongationsOf ++ "ORDER BY path"

/-! ## Health and schema -/

/-- A question that any database answers. -/
def ping : String := "SELECT 1"

/-- The parts of the schema by name, with the statement that creates each. -/
def schema : List (String × String) :=
  [("storage_roots table",
      "CREATE TABLE IF NOT EXISTS storage_roots ( " ++
      "id BIGINT PRIMARY KEY, kind VARCHAR(8) NOT NULL )"),
    ("path_permissions table",
      "CREATE TABLE IF NOT EXISTS path_permissions ( " ++
      "storage_id BIGINT NOT NULL REFERENCES storage_roots(id) ON DELETE CASCADE, " ++
      "path TEXT NOT NULL, path_type VARCHAR(8) NOT NULL, sid_name VARCHAR(255) NOT NULL, " ++
      "sid_type VARCHAR(8) NOT NULL, mask BIGINT NOT NULL CHECK (mask > 0), " ++
      "created TIMESTAMP WITH TIME ZONE NOT NULL DEFAULT NOW(), " ++
      "PRIMARY KEY (storage_id, path, path_type, sid_name, sid_type) )"),
    ("sid index",
      "CREATE INDEX IF NOT EXISTS idx_path_permissions_sid " ++
      "ON path_permissions (sid_name, sid_type, storage_id)"),
    ("path prefix index",
      "CREATE INDEX IF NOT EXISTS idx_path_permissions_prefix " ++
      "ON path_permissions (storage_id, path text_pattern_ops)"),
    ("path_prolongations table",
      "CREATE TABLE IF NOT EXISTS path_prolongations ( storage_id BIGINT NOT NULL, " ++
      "path TEXT NOT NULL, user_id VARCHAR(255) NOT NULL, " ++
      "prolonged_until TIMESTAMP WITH TIME ZONE NOT NULL, " ++
      "days INTEGER NOT NULL CHECK (days > 0), " ++
      "updated TIMESTAMP WITH TIME ZONE NOT NULL DEFAULT NOW(), PRIMARY KEY (storage_id, path) )")]

end PathAcl.Database.Sql
