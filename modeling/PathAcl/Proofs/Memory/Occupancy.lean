import PathAcl.Proofs.Memory.Points

/-! # Occupied places
Whether a place is occupied is answered by the presence of a node. The answer is right because no call
leaves a node behind that has nothing: grants are put in at the end of a path and bare nodes are pruned,
so from every node that is there some row can be reached. -/

namespace PathAcl

/-- The nodes of a forest. -/
def Forest.nodes : Forest → List Node
  | nil => []
  | cons _ grants beneath rest => ⟨grants, beneath⟩ :: (beneath.nodes ++ rest.nodes)

namespace Forest

/-- The names at the top of a well-formed forest. -/
theorem WellFormed.names {f : Forest} (h : f.WellFormed) : ∀ s ∈ f.segments, Path.IsName s := by
  induction h with
  | nil =>
      intro s hs
      exact absurd hs List.not_mem_nil
  | cons name _ _ _ _ _ ih =>
      intro s hs
      rcases List.mem_cons.1 hs with rfl | hs
      · exact name
      · exact ih s hs

/-- **No node of a well-formed forest is bare**, and each is well formed. -/
theorem WellFormed.nodes {f : Forest} (h : f.WellFormed) :
    ∀ n ∈ f.nodes, n.isEmpty = false ∧ n.WellFormed := by
  induction h with
  | nil =>
      intro n hn
      exact absurd hn List.not_mem_nil
  | cons _ _ inhabited below _ ihBelow ihBeside =>
      intro n hn
      rcases List.mem_cons.1 hn with rfl | hn
      · exact ⟨inhabited, below⟩
      · exact (List.mem_append.1 hn).elim (ihBelow n) (ihBeside n)

end Forest

namespace Memory

open Store

/-- **Nodes stand for rows**, after any calls: every node but the root holds a grant or has a child, and
children stand at segments, which are not empty and have no separator in them. So a folder is taken just
if a row is listed at its path or beneath it, and a file just if a file row is listed at its path. -/
theorem isTaken_iff_listed (calls : List Call) (id : StorageId) :
    (∀ n ∈ ((store.afterAll ∅ calls).tree id).root.beneath.nodes,
      (∃ key grant, n.grants.find? key = some grant) ∨ ∃ s child, n.beneath.find? s = some child) ∧
    (∀ n ∈ ((store.afterAll ∅ calls).tree id).root ::
        ((store.afterAll ∅ calls).tree id).root.beneath.nodes,
      ∀ s ∈ n.beneath.segments, s ≠ "" ∧ Path.separator ∉ s.toList) ∧
    (∀ path, ((store.afterAll ∅ calls).tree id).isTaken (.folder path) = true ↔
      ∃ row ∈ (store.afterAll ∅ calls).rows id, Path.isAtOrBeneath row.path path = true) ∧
    ∀ path, ((store.afterAll ∅ calls).tree id).isTaken (.file path) = true ↔
      ∃ row ∈ (store.afterAll ∅ calls).rows id, row.path = path ∧ row.type = .file := by
  have wellFormed : ((store.afterAll ∅ calls).tree id).WellFormed := wellFormed_afterAll calls id
  rw [rows_eq]
  generalize (store.afterAll ∅ calls).tree id = t at wellFormed
  refine ⟨fun n hn => ?_, fun n hn => ?_, fun path => wellFormed.isTaken_iff, fun path => ?_⟩
  · exact Node.isEmpty_eq_false_iff.1 (Forest.WellFormed.nodes wellFormed.root n hn).1
  · have below : n.WellFormed := by
      rcases List.mem_cons.1 hn with rfl | hn
      · exact wellFormed.root
      · exact (Forest.WellFormed.nodes wellFormed.root n hn).2
    exact Forest.WellFormed.names below
  · rw [wellFormed.isTaken_iff]
    simp only [PathRef.governs_file, Permission.place, PathRef.file, PathRef.mk.injEq]

end Memory

end PathAcl
