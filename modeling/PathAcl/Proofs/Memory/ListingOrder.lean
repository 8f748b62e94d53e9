import Mathlib.Data.List.Pairwise
import PathAcl.Proofs.Memory.Points
import PathAcl.Proofs.Tree.Order

/-! # The order of what a table lists
A table lists the rows of a storage as its tree holds them: segment by segment. This is the order of their
keys too, in which paths are compared as texts, unless the storage has rows at two paths where the orders
of paths cross. -/

namespace PathAcl

/-! ## The order of keys -/

/-- Compares rows by the **bytes** of their paths, then by path type and sid. -/
def Permission.compareBytes (a b : Permission) : Ordering :=
  (compare (Path.bytes a.path) (Path.bytes b.path)).then
    ((compare a.type b.type).then (compare a.sid b.sid))

/-- So rows are compared as their keys. -/
theorem Permission.compareBytes_eq (a b : Permission) : a.compareBytes b = compare a.key b.key := by
  rw [compareBytes, Path.compare_bytes]
  rfl

/-- What is listed first has the smaller bytes, unless the orders of paths cross. -/
theorem Permission.Precedes.compareBytes {a b : Permission} (h : a.Precedes b)
    (straight : ¬ Path.Cross a.path b.path) : a.compareBytes b = .lt := by
  rw [Precedes, compareListed, Order.byTwo, compareLex, compareOn, compareOn,
    Ordering.then_eq_lt] at h
  rw [Permission.compareBytes, Path.compare_bytes, Ordering.then_eq_lt]
  rcases h with segments | ⟨segments, here⟩
  · left
    cases text : compare a.path b.path with
    | lt => rfl
    | eq =>
        rw [Std.compare_eq_iff_eq] at text
        rw [text, Std.compare_self] at segments
        cases segments
    | gt => exact absurd (Path.cross_iff.2 ⟨segments, text⟩) straight
  · right
    rw [Path.segments_injective (Std.compare_eq_iff_eq.1 segments)]
    exact ⟨Std.compare_self, here⟩

/-- Where the orders of paths cross the row listed first has the greater bytes. -/
theorem Permission.precedes_of_cross {a b : Permission} (cross : Path.Cross a.path b.path) :
    a.Precedes b ∧ a.compareBytes b = .gt := by
  obtain ⟨segments, text⟩ := Path.cross_iff.1 cross
  refine ⟨Permission.precedes_of_segments segments, ?_⟩
  rw [compareBytes, Path.compare_bytes, text]
  rfl

/-- **A listing is in the order of keys** if the orders cross at no two of its paths. -/
theorem pairwise_compareBytes_iff {rows : List Permission} (h : rows.Pairwise Permission.Precedes) :
    (rows.Pairwise fun a b => a.compareBytes b = .lt) ↔
      ¬ ∃ a ∈ rows, ∃ b ∈ rows, Path.Cross a.path b.path := by
  constructor
  · rintro sorted ⟨a, ha, b, hb, cross⟩
    obtain ⟨first, greater⟩ := Permission.precedes_of_cross cross
    -- of two rows the one that is listed first comes first in both orders
    let First (a b : Permission) : Prop := a.Precedes b ∧ a.compareBytes b = .lt
    have symm : Std.Symm fun a b => First a b ∨ First b a := ⟨fun _ _ => Or.symm⟩
    have either : rows.Pairwise fun a b => First a b ∨ First b a := (h.and sorted).imp .inl
    have apart : a ≠ b := fun same => (same ▸ first).asymm (same ▸ first)
    rcases either.forall ha hb apart with both | both
    · cases both.2.symm.trans greater
    · exact first.asymm both.1
  · intro straight
    refine h.imp_of_mem fun {a b} ha hb first => ?_
    exact first.compareBytes fun cross => straight ⟨a, ha, b, hb, cross⟩

namespace Memory

open Store

/-- The rows of a storage come in order. -/
theorem WellFormed.pairwise_rows {m : Memory} (h : m.WellFormed) (id : StorageId) :
    (m.rows id).Pairwise Permission.Precedes := by
  rw [rows_eq]
  exact (h id).pairwise_rows

/-- **The order of a listing**, after any calls: it is strictly increasing if paths are compared segment by
segment, and then path types and sids. It is strictly increasing in the order of keys exactly if no row
lies beneath a path that another row's path goes on from with a character before the separator. -/
theorem rows_increasing_iff (calls : List Call) (id : StorageId) :
    let rows := (store.afterAll ∅ calls).rows id
    rows.Pairwise Permission.Precedes ∧
      ((rows.Pairwise fun a b => a.compareBytes b = .lt) ↔
        ¬ ∃ a ∈ rows, ∃ b ∈ rows, Path.Cross a.path b.path) := by
  have listed := (wellFormed_afterAll calls).pairwise_rows id
  exact ⟨listed, pairwise_compareBytes_iff listed⟩

/-- A row that lets a user read a file. -/
def fileRow (path : String) : Permission := ⟨path, .file, .user "u", .read, .epoch⟩

/-- A file is granted in a folder, and one whose name goes on from the folder's with a hyphen. -/
def hyphenated : List Call := [.upsert ⟨1, .s3⟩ [fileRow "a/b", fileRow "a-b"]]

/-- Not every listing is in the order of keys: here the separator is listed before the hyphen. -/
theorem not_rows_increasing :
    ¬ ∀ (calls : List Call) (id : StorageId),
      ((store.afterAll ∅ calls).rows id).Pairwise fun a b => a.compareBytes b = .lt := by
  intro always
  have listed : (store.afterAll ∅ hyphenated).rows 1 = [fileRow "a/b", fileRow "a-b"] := by
    decide +kernel
  have sorted := always hyphenated 1
  rw [listed, List.pairwise_pair, Permission.compareBytes_eq] at sorted
  exact absurd sorted (by decide)

end Memory

end PathAcl
