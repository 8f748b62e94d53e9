import Mathlib.Data.List.Nodup
import PathAcl.Proofs.Path.Ancestors
import PathAcl.Proofs.Resolution.Deciding

/-! # Fetched places and the test on rows
The rows for a target are fetched by the places in its chain, and each row that comes back is tested
against the target again. Chain and test are one relation, on all texts. The chain gets shorter from
place to place, so among the rows of a sid that reach a target one is longer than all others. -/

namespace PathAcl

variable {place other target : PathRef} {rows : List Permission} {row : Permission} {sid : Sid}

/-! ## Lengths along the chain -/

namespace PathRef

/-- The places a target is reached from get shorter from each to the next. -/
theorem pairwise_reachedFrom (target : PathRef) :
    target.reachedFrom.Pairwise fun nearer farther =>
      farther.path.utf8ByteSize < nearer.path.utf8ByteSize := by
  have chain := List.pairwise_cons.1 (Path.pairwise_ancestors target.path)
  rw [reachedFrom, List.pairwise_cons, List.pairwise_map]
  refine ⟨?_, chain.2⟩
  intro place hplace
  obtain ⟨root, hroot, rfl⟩ := List.mem_map.1 hplace
  exact chain.1 root hroot

/-- No two of the places have paths of one length. -/
theorem nodup_sizes_reachedFrom (target : PathRef) :
    (target.reachedFrom.map fun place => place.path.utf8ByteSize).Nodup := by
  rw [List.Nodup, List.pairwise_map]
  apply target.pairwise_reachedFrom.imp
  intro nearer farther shorter
  exact Nat.ne_of_gt shorter

/-- Places that reach a target are one if their paths have one length. -/
theorem eq_of_reaches (h : place.reaches target = true) (h' : other.reaches target = true)
    (size : place.path.utf8ByteSize = other.path.utf8ByteSize) : place = other :=
  List.inj_on_of_nodup_map target.nodup_sizes_reachedFrom (mem_reachedFrom.2 h) (mem_reachedFrom.2 h')
    size

end PathRef

/-! ## The longest row -/

/-- The longest element is at least as long as any other. -/
theorem Path.size_le_of_longest_eq_some {α : Type} {path : α → String} {xs : List α} {x y : α}
    (h : longest path xs = some x) (hy : y ∈ xs) :
    (path y).utf8ByteSize ≤ (path x).utf8ByteSize := by
  induction xs generalizing x with
  | nil => cases hy
  | cons z zs ih =>
      rw [longest] at h
      cases later : longest path zs with
      | none =>
          obtain rfl := longest_eq_none_iff.1 later
          rw [later] at h
          obtain rfl : z = x := Option.some.inj h
          obtain rfl := List.mem_singleton.1 hy
          exact Nat.le_refl _
      | some w =>
          have behind : y ∈ zs → (path y).utf8ByteSize ≤ (path w).utf8ByteSize := ih later
          simp only [later] at h
          -- the head wins only if it is longer than the longest behind it
          split at h
          · obtain rfl : z = x := Option.some.inj h
            rcases List.mem_cons.1 hy with rfl | hy
            · exact Nat.le_refl _
            · have := behind hy
              omega
          · obtain rfl : w = x := Option.some.inj h
            rcases List.mem_cons.1 hy with rfl | hy
            · omega
            · exact behind hy

/-- The rows of a sid that reach a target. -/
def reachingRows (rows : List Permission) (target : PathRef) (sid : Sid) : List Permission :=
  rows.filter fun row => row.sid == sid && row.place.reaches target

/-- A row reaches a target for a sid if it is the sid's and its place does. -/
theorem mem_reachingRows : row ∈ reachingRows rows target sid ↔
    row ∈ rows ∧ row.sid = sid ∧ row.place.reaches target = true := by
  simp [reachingRows]

/-- Rows of one sid that reach a target have one key if their paths have one length. -/
theorem key_eq_of_reaching {row other : Permission} (h : row ∈ reachingRows rows target sid)
    (h' : other ∈ reachingRows rows target sid)
    (size : row.path.utf8ByteSize = other.path.utf8ByteSize) : row.key = other.key := by
  obtain ⟨-, rowSid, reaches⟩ := mem_reachingRows.1 h
  obtain ⟨-, otherSid, otherReaches⟩ := mem_reachingRows.1 h'
  have place : row.place = other.place := PathRef.eq_of_reaches reaches otherReaches size
  have path : row.path = other.path := congrArg PathRef.path place
  have type : row.type = other.type := congrArg PathRef.type place
  rw [Permission.key, Permission.key, path, type, rowSid, otherSid]

/-- **The chain of places and the test on rows are one relation**, on all texts: a place is in the chain
of a target just if a grant there reaches the target, and a path is an ancestor just if the bytes say
that the other lies beneath it. The chain has one ancestor for each separator, gets shorter all along and
names no place twice, so of the rows of a sid that reach a target all others are shorter than the
longest. -/
theorem chain_agrees_with_test (place target : PathRef) (path root : String) (rows : List Permission)
    (sid : Sid) :
    (place.reaches target = true ↔ place ∈ target.reachedFrom) ∧
    (Path.isBeneath path root = true ↔ root ∈ Path.ancestors path) ∧
    (Path.isBeneath path root = true ↔
      (Path.bytes root).length < (Path.bytes path).length ∧ Path.bytes root <+: Path.bytes path ∧
        (Path.bytes path)[(Path.bytes root).length]? = some 0x2F) ∧
    (Path.parent path = some root ↔
      ∃ name, path = root ++ String.singleton Path.separator ++ name ∧ Path.IsSegment name) ∧
    Path.ancestors path = (Path.parent path).elim [] (fun front => front :: Path.ancestors front) ∧
    (Path.ancestors path).length = path.toList.count Path.separator ∧
    (path :: Path.ancestors path).Pairwise
      (fun nearer farther => farther.utf8ByteSize < nearer.utf8ByteSize) ∧
    target.reachedFrom.Nodup ∧
    (∀ row ∈ reachingRows rows target sid, ∀ other ∈ reachingRows rows target sid,
      row.path.utf8ByteSize = other.path.utf8ByteSize → row.key = other.key) ∧
    (∀ row, Path.longest Permission.path (reachingRows rows target sid) = some row →
      ∀ other ∈ reachingRows rows target sid,
        other.key = row.key ∨ other.path.utf8ByteSize < row.path.utf8ByteSize) := by
  refine ⟨PathRef.mem_reachedFrom.symm, Path.mem_ancestors.symm, Path.isBeneath_iff_bytes,
    Path.parent_eq_some_iff, Path.ancestors_eq_parents path, Path.length_ancestors path,
    Path.pairwise_ancestors path, target.nodup_sizes_reachedFrom.of_map _, ?_, ?_⟩
  · intro row hrow other hother size
    exact key_eq_of_reaching hrow hother size
  · intro row longest other hother
    have hrow : row ∈ reachingRows rows target sid := Path.mem_of_longest_eq_some longest
    rcases Nat.lt_or_eq_of_le (Path.size_le_of_longest_eq_some longest hother) with shorter | same
    · exact .inr shorter
    · exact .inl (key_eq_of_reaching hother hrow same)

end PathAcl
