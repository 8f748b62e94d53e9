import PathAcl.Request.Error

/-! # Reading requests
The checks a request passes before anything is looked up. Each goes through the items in order and
stops at the first fault, so a batch with a bad item is refused as a whole. -/

namespace PathAcl.Request

/-- The most items of a batch if nothing else is set. -/
def usualLimit : Nat := 1000

/-- Accepts batches that are neither empty nor above the limit (`check_size`). -/
def checkSize (limit size : Nat) : Except RequestError Unit :=
  if size = 0 then .error .emptyBatch
  else if limit < size then .error (.batchTooLarge size limit)
  else .ok ()

/-- The normal form of a path (`normalize`). -/
def normalPath (path : String) : Except RequestError String :=
  (Path.normalize path).mapError (.ofMalformed path)

/-- A file or folder with its path in normal form (`normalize_ref`). -/
def normalRef (r : PathRef) : Except RequestError PathRef :=
  r.normalize.mapError (.ofMalformed r.path)

/-- Accepts the sids a store accepts (`check_sid`). The wording of a refusal names it an input twice
over. -/
def checkSid (sid : Sid) : Except RequestError Unit :=
  (Validity.checkSid sid).mapError fun fault => .invalidInput (StoreError.ofFault fault).message

/-- The row a caller asks for (`into_permission`). -/
def toRow (now : Instant) (r : GrantRequest) : Except RequestError Permission := do
  let path ← normalPath r.path
  checkSid r.sid
  if r.mask.isEmpty then .error (.invalidInput s!"mask cannot be zero for {r.type.name} '{path}'")
  else pure ⟨path, r.type, r.sid, r.mask, now⟩

/-- The key a caller names (`normalize_key`). -/
def toKey (k : PermissionKey) : Except RequestError PermissionKey := do
  let path ← normalPath k.path
  checkSid k.sid
  pure ⟨path, k.type, k.sid⟩

end PathAcl.Request
