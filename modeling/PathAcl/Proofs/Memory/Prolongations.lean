import PathAcl.Proofs.Memory.Calls
import PathAcl.Proofs.Path.Ancestors
import PathAcl.Proofs.Resolution.Reach

/-! # Prolongations in the table
For each storage and path the table keeps the prolongation that was written last. Which of them holds for
a path is picked by length among those of the path and its ancestors: no two of these paths have one
length, so the longest is the nearest. -/

namespace PathAcl

/-- **The longest of what is found along a chain** of paths that get shorter is found at the first path
where anything is. -/
theorem Path.longest_filterMap_eq_some_iff {α : Type} {path : α → String} {chain : List String}
    (shorter : chain.Pairwise fun nearer farther => farther.utf8ByteSize < nearer.utf8ByteSize)
    {found : String → Option α} (own : ∀ q x, found q = some x → path x = q) {x : α} :
    longest path (chain.filterMap found) = some x ↔
      path x ∈ chain ∧ found (path x) = some x ∧
        ∀ q ∈ chain, (path x).utf8ByteSize < q.utf8ByteSize → found q = none := by
  constructor
  · intro h
    obtain ⟨q, hq, here⟩ := List.mem_filterMap.1 (mem_of_longest_eq_some h)
    obtain rfl := own q x here
    refine ⟨hq, here, fun p hp longer => ?_⟩
    cases there : found p with
    | none => rfl
    | some y =>
        obtain rfl := own p y there
        have := size_le_of_longest_eq_some h (List.mem_filterMap.2 ⟨_, hp, there⟩)
        omega
  · rintro ⟨hx, here, nothing⟩
    apply longest_eq_some (List.mem_filterMap.2 ⟨_, hx, here⟩)
    intro y hy
    obtain ⟨q, hq, there⟩ := List.mem_filterMap.1 hy
    obtain rfl := own q y there
    -- no two paths of the chain have one length
    have sizes : (chain.map String.utf8ByteSize).Nodup :=
      List.pairwise_map.2 (shorter.imp fun less => Nat.ne_of_gt less)
    rcases Nat.lt_trichotomy (path y).utf8ByteSize (path x).utf8ByteSize with less | same | longer
    · exact .inr less
    · rw [List.inj_on_of_nodup_map sizes hq hx same, here] at there
      exact .inl (Option.some.inj there).symm
    · rw [nothing _ hq longer] at there
      cases there

namespace Memory

variable {m m' : Memory} {id : StorageId} {records kept : List Prolongation}

/-! ## The record of a path -/

/-- The prolongation that a table keeps for a path. -/
def record? (m : Memory) (id : StorageId) (path : String) : Option Prolongation :=
  ((m.prolonged.find? id).getD ∅).find? path

/-- **A batch of prolongations is kept** path by path: the last of a path, or else the one that was there.
Those of other storages stay. -/
theorem record?_of_prolong (h : m.prolong id records = .ok (kept, m')) (i : StorageId) (path : String) :
    m'.record? i path = if i = id then
      (records.reverse.find? fun p => p.path = path).or (m.record? i path) else m.record? i path := by
  obtain ⟨-, rfl, rfl⟩ := prolong_eq_ok_iff.1 h
  rw [record?, SortedMap.find?_insert]
  by_cases here : i = id
  · subst here
    rw [if_pos rfl, if_pos rfl, Option.getD_some, Prolongation.keepLast,
      (Overwrites.insert Prolongation.path).foldl_keepLast,
      SortedMap.find?_foldl_insert_last Prolongation.path fun p => p, Option.map_id']
    rfl
  · rw [if_neg here, if_neg here]
    rfl

/-- The nearest prolongation of a path is the longest that is kept for it or for an ancestor. -/
theorem answer_nearestProlongation (positive : 0 < id) (path : String) :
    ((store.nearestProlongation id path).run m).answer =
      .ok (Path.longest Prolongation.path ((path :: Path.ancestors path).filterMap (m.record? id))) := by
  have checked : require (Validity.checkStorageId id) = .ok () :=
    require_eq_ok_iff.2 (Validity.checkStorageId_eq_ok_iff.2 positive)
  have asked : ((store.prolongationsAt id (path :: Path.ancestors path)).run m).answer =
      .ok ((path :: Path.ancestors path).filterMap (m.record? id)) := by
    show m.prolongationsAt id _ = _
    rw [prolongationsAt, checked]
    rfl
  rw [Store.nearestProlongation, Action.run_bind_ok asked]
  rfl

end Memory

end PathAcl
