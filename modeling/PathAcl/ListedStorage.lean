import PathAcl.Mask
import PathAcl.SortedMap
import PathAcl.Storage

/-! # Storages in a listing
A storage-level list gives every storage with the mask it grants there. Grants at paths inside a
storage make the storage readable in the list; they never add more than that. -/

namespace PathAcl

/-- A storage in a listing (`SecuredStorage`). -/
structure ListedStorage where
  storage : StorageRef
  /-- What is granted on the storage. -/
  mask : Mask
  /-- The storage is not mounted as a file system. -/
  mountDisabled : Bool
  deriving Repr, DecidableEq, Inhabited

namespace ListedStorage

/-- Limits a file system that is not mounted to reading (`clamp_mount_disabled`). -/
def clamp (s : ListedStorage) : ListedStorage :=
  if s.mountDisabled && s.storage.kind.isFileSystem then { s with mask := s.mask &&& .read } else s

/-- Adds reading if the storage is among those with grants inside. -/
def surface (readable : SortedSet StorageRef) (s : ListedStorage) : ListedStorage :=
  if readable.contains s.storage then { s with mask := s.mask ||| .read } else s

/-- The listing with grants inside the storages laid over it; what cannot be read is left out
(`apply_overlay`). -/
def overlay (storages : List ListedStorage) (readable : SortedSet StorageRef) :
    List ListedStorage :=
  (storages.map fun s => (s.surface readable).clamp).filter fun s => s.mask.contains .read

end ListedStorage

end PathAcl
