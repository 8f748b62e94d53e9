import PathAcl.SortedMap
import PathAcl.Storage

/-! # Locks of writers
At most one writer at a time works on a storage; writers on different storages do not meet. -/

namespace PathAcl

/-- The **locks**: the storages somebody writes to, and those somebody ever asked to write to
(`WriteGate`). -/
structure WriterLocks where
  held : SortedSet StorageId
  tracked : SortedSet StorageId

namespace WriterLocks

/-- The locks before anybody has come. -/
def empty : WriterLocks := ⟨∅, ∅⟩

instance : EmptyCollection WriterLocks := ⟨empty⟩

/-- Lets a writer in; nothing if another one is still there (`acquire`). -/
def enter? (g : WriterLocks) (id : StorageId) : Option WriterLocks :=
  if g.held.contains id then none else some ⟨g.held.add id, g.tracked.add id⟩

/-- Lets the writer out; nothing if there is none. -/
def leave? (g : WriterLocks) (id : StorageId) : Option WriterLocks :=
  if g.held.contains id then some { g with held := g.held.erase id } else none

end WriterLocks

end PathAcl
