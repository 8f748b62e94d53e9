import PathAcl.Proofs.Path.Order
import PathAcl.Proofs.Tree.Subtree

/-! # The order of the listing
A tree lists a path before the paths beneath it, siblings by their segments, and the rows at one path
with files before folders and then by sid. So the listing is strictly increasing if paths are compared
segment by segment, and it is determined by the rows that are in it. -/

namespace PathAcl

open Std

/-! ## Comparing rows -/

/-- Compares rows by the segments of their paths, then by path type and sid. -/
def Permission.compareListed : Permission → Permission → Ordering :=
  Order.byTwo (fun row => Path.segments row.path) Permission.grantKey

instance : TransCmp Permission.compareListed :=
  inferInstanceAs (TransCmp
    (Order.byTwo (fun row : Permission => Path.segments row.path) Permission.grantKey))

/-- Whether a row is listed in front of another. -/
def Permission.Precedes (a b : Permission) : Prop := Permission.compareListed a b = .lt

variable {a b : Permission}

/-- No two rows precede each other. -/
theorem Permission.Precedes.asymm (h : a.Precedes b) : ¬ b.Precedes a := by
  intro back
  have after : Permission.compareListed a b = .gt := OrientedCmp.gt_iff_lt.2 back
  rw [show Permission.compareListed a b = .lt from h] at after
  cases after

instance : Std.Asymm Permission.Precedes := ⟨fun _ _ h => h.asymm⟩

/-- The segments decide first. -/
theorem Permission.precedes_of_segments
    (h : compare (Path.segments a.path) (Path.segments b.path) = .lt) : a.Precedes b := by
  show Permission.compareListed a b = .lt
  simp [compareListed, Order.byTwo, compareLex, compareOn, h]

/-- At one path the path types and sids decide. -/
theorem Permission.precedes_of_grantKey (path : a.path = b.path)
    (h : compare a.grantKey b.grantKey = .lt) : a.Precedes b := by
  show Permission.compareListed a b = .lt
  simp [compareListed, Order.byTwo, compareLex, compareOn, path, h]

/-! ## Listings -/

/-- The rows at one path come in order. -/
theorem Grants.pairwise_rows (grants : Grants) (path : String) :
    (grants.rows path).Pairwise Permission.Precedes := by
  rw [Grants.rows, List.pairwise_map]
  apply grants.increasing.imp
  intro g g' h
  exact Permission.precedes_of_grantKey rfl h

/-- The segments of a row of a forest continue those above by one at the top. -/
theorem Forest.WellFormed.segments_of_mem_rows {f : Forest} (h : f.WellFormed) {under : List String}
    (hu : ∀ s ∈ under, Path.IsSegment s) {row : Permission} (hrow : row ∈ f.rows under) :
    ∃ s segs, Path.segments row.path = under ++ s :: segs ∧ s ∈ f.segments := by
  obtain ⟨s, segs, path, top, names⟩ := h.path_of_mem_rows hrow
  refine ⟨s, segs, ?_, top⟩
  rw [path]
  apply Path.segments_join
  · simp
  · intro t ht
    exact (List.mem_append.1 ht).elim (hu t) (names t)

/-- The rows of a well-formed forest come in order. -/
theorem Forest.WellFormed.pairwise_rows {f : Forest} (h : f.WellFormed) {under : List String}
    (hu : ∀ s ∈ under, Path.IsSegment s) : (f.rows under).Pairwise Permission.Precedes := by
  induction h generalizing under with
  | nil => exact List.Pairwise.nil
  | @cons s grants beneath rest name first inhabited below beside ihBelow ihBeside =>
      have names : ∀ t ∈ under ++ [s], Path.IsSegment t := by
        intro t ht
        rcases List.mem_append.1 ht with ht | ht
        · exact hu t ht
        · exact List.mem_singleton.1 ht ▸ name.2
      have here : ∀ a ∈ grants.rows (Path.join (under ++ [s])),
          Path.segments a.path = under ++ [s] := by
        intro a ha
        rw [(Grants.mem_rows.1 ha).1]
        exact Path.segments_join (by simp) names
      have under_s : ∀ a ∈ grants.rows (Path.join (under ++ [s])) ++ beneath.rows (under ++ [s]),
          ∃ segs, Path.segments a.path = under ++ s :: segs := by
        intro a ha
        rcases List.mem_append.1 ha with ha | ha
        · exact ⟨[], here a ha⟩
        · obtain ⟨t, segs, split, -⟩ := below.segments_of_mem_rows names ha
          exact ⟨t :: segs, by rw [split, List.append_assoc]; rfl⟩
      rw [Forest.rows, List.pairwise_append, List.pairwise_append]
      refine ⟨⟨grants.pairwise_rows _, ihBelow names, ?_⟩, ihBeside hu, ?_⟩
      -- the rows of the first node come before those beneath it
      · intro a ha b hb
        obtain ⟨t, segs, split, -⟩ := below.segments_of_mem_rows names hb
        apply Permission.precedes_of_segments
        rw [here a ha, split]
        exact Path.compare_prefix _ t segs
      -- and both come before what stands under later segments
      · intro a ha b hb
        obtain ⟨segs, split⟩ := under_s a ha
        obtain ⟨t, segs', split', ht⟩ := beside.segments_of_mem_rows hu hb
        apply Permission.precedes_of_segments
        rw [split, split']
        exact Path.compare_fork under (first t ht) segs segs'

namespace PathTree

variable {t : PathTree}

/-- **The listing of a well-formed tree is strictly increasing.** -/
theorem WellFormed.pairwise_rows (h : t.WellFormed) : t.rows.Pairwise Permission.Precedes := by
  apply Forest.WellFormed.pairwise_rows h.root
  intro s hs
  cases hs

/-- A listing in order that has the rows of the tree is that of the tree. -/
theorem WellFormed.rows_eq_of_perm (h : t.WellFormed) {rows : List Permission}
    (perm : t.rows.Perm rows) (ordered : rows.Pairwise Permission.Precedes) : t.rows = rows := by
  refine perm.eq_of_pairwise ?_ h.pairwise_rows ordered
  intro a b _ _ before after
  exact absurd after before.asymm

/-- The rows that are left are those that the root does not cover, in their order. -/
theorem WellFormed.rows_takeUnder (h : t.WellFormed) (root : PathRef) :
    (t.takeUnder root).2.rows = t.rows.filter fun row => ¬ root.Covers row.place := by
  have test : ∀ row ∈ t.rows, (!root.governs row.place) = decide (¬ root.Covers row.place) := by
    intro row _
    simp [← PathRef.governs_iff]
  have perm := h.rows_takeUnder_perm root
  rw [List.filter_congr test] at perm
  exact (h.takeUnder root).1.rows_eq_of_perm perm (h.pairwise_rows.filter _)

end PathTree

end PathAcl
