import PathAcl.Proofs.Tree.Relocation

/-! # The counters of a tree
A tree counts its rows, and the rows of each sid, beside its nodes. The counters **tally** with a list
of sids if they count exactly its elements; they should tally with the sids of the rows. A move that
buries rows leaves the counters where they were, so from then on they count the lost rows as well. -/

namespace PathAcl

open Std

namespace PathTree

variable {t : PathTree}

/-- The counters count the elements of a list of sids. -/
structure Tallies (t : PathTree) (sids : List Sid) : Prop where
  total : t.rowCount = sids.length
  each : ∀ sid, t.sidRows.find? sid = if sid ∈ sids then some (sids.count sid) else none

namespace Tallies

variable {sids others : List Sid}

/-- Counting does not depend on the order. -/
theorem perm (h : t.Tallies sids) (hp : sids.Perm others) : t.Tallies others := by
  refine ⟨h.total.trans hp.length_eq, fun sid => ?_⟩
  rw [h.each, hp.count_eq]
  exact if_congr hp.mem_iff rfl rfl

/-- The counters do not look at the nodes. -/
theorem of_root (h : t.Tallies sids) (root : Node) : { t with root }.Tallies sids :=
  ⟨h.total, h.each⟩

/-- What is bound to a sid is how often it occurs. -/
theorem getD_find? (h : t.Tallies sids) (sid : Sid) :
    (t.sidRows.find? sid).getD 0 = sids.count sid := by
  rw [h.each]
  by_cases hs : sid ∈ sids
  · rw [if_pos hs, Option.getD_some]
  · rw [if_neg hs, Option.getD_none, List.count_eq_zero_of_not_mem hs]

/-- One row more. -/
theorem countIn (h : t.Tallies sids) (sid : Sid) : (t.countIn sid).Tallies (sid :: sids) := by
  refine ⟨congrArg (· + 1) h.total, fun other => ?_⟩
  rw [PathTree.countIn, SortedMap.find?_insert, h.getD_find?]
  by_cases e : other = sid
  · rw [e, if_pos rfl, if_pos List.mem_cons_self, List.count_cons_self]
  · rw [if_neg e, h.each, List.count_cons_of_ne (Ne.symm e)]
    exact if_congr (List.mem_cons.trans (or_iff_right e)).symm rfl rfl

/-- One row less. -/
theorem countOut {sid : Sid} (h : t.Tallies (sid :: sids)) : (t.countOut sid).Tallies sids := by
  refine ⟨?_, fun other => ?_⟩
  · rw [PathTree.countOut, h.total, List.length_cons, Nat.add_sub_cancel]
  · have here : t.sidRows.find? sid = some (sids.count sid + 1) := by
      rw [h.each, if_pos List.mem_cons_self, List.count_cons_self]
    have elsewhere : other ≠ sid →
        t.sidRows.find? other = if other ∈ sids then some (sids.count other) else none := by
      intro e
      rw [h.each, List.count_cons_of_ne (Ne.symm e)]
      exact if_congr (List.mem_cons.trans (or_iff_right e)) rfl rfl
    simp only [PathTree.countOut, here, Nat.add_eq_right, Nat.add_sub_cancel]
    -- with the last row of a sid its counter goes, so it never stays at zero
    by_cases last : sids.count sid = 0
    · rw [if_pos last, SortedMap.find?_erase]
      by_cases e : other = sid
      · rw [e, if_pos rfl, if_neg (List.count_eq_zero.1 last)]
      · rw [if_neg e, elsewhere e]
    · rw [if_neg last, SortedMap.find?_insert]
      by_cases e : other = sid
      · rw [e, if_pos rfl, if_pos (List.count_pos_iff.1 (Nat.pos_of_ne_zero last))]
      · rw [if_neg e, elsewhere e]

/-- Rows counted out one after the other. -/
theorem foldl_countOut (rows : List Permission)
    (h : t.Tallies (rows.map Permission.sid ++ sids)) :
    (rows.foldl (fun t row => t.countOut row.sid) t).Tallies sids := by
  induction rows generalizing t with
  | nil => exact h
  | cons row rows ih => exact ih h.countOut

/-- A sid is listed exactly if it occurs. -/
theorem holdsAny_iff (h : t.Tallies others) :
    t.holdsAny sids = true ↔ ∃ sid ∈ sids, sid ∈ others := by
  rw [holdsAny, List.any_eq_true]
  refine exists_congr fun sid => and_congr_right fun _ => ?_
  rw [SortedMap.contains, h.each]
  by_cases hs : sid ∈ others
  · simp [hs]
  · simp [hs]

end Tallies

/-! ## Counted trees -/

/-- A tree is **counted** if its counters tally with the sids of its rows. -/
def Counted (t : PathTree) : Prop := t.Tallies (t.rows.map Permission.sid)

/-- A tree **overcounts** by some sids if its counters tally with the sids of its rows and these. -/
def Overcounts (t : PathTree) (lost : List Sid) : Prop :=
  t.Tallies (t.rows.map Permission.sid ++ lost)

/-- A tree is counted if it overcounts by none. -/
theorem counted_iff : t.Counted ↔ t.Overcounts [] := by
  rw [Counted, Overcounts, List.append_nil]

/-- The tree without rows is counted. -/
theorem counted_empty : (∅ : PathTree).Counted := ⟨rfl, fun _ => rfl⟩

/-- The counter of rows is ahead of the listing by the rows that were lost. -/
theorem Overcounts.rowCount_eq {lost : List Sid} (h : t.Overcounts lost) :
    t.rowCount = t.rows.length + lost.length := by
  rw [h.total, List.length_append, List.length_map]

/-- The counter of rows of a counted tree is the length of its listing. -/
theorem Counted.rowCount_eq (h : t.Counted) : t.rowCount = t.rows.length := by
  rw [h.total, List.length_map]

/-- A counted tree knows of every sid whether it holds a row. -/
theorem Counted.holdsAny_iff (h : t.Counted) {sids : List Sid} :
    t.holdsAny sids = true ↔ ∃ row ∈ t.rows, row.sid ∈ sids := by
  rw [Tallies.holdsAny_iff h]
  constructor
  · rintro ⟨sid, hsid, hmem⟩
    obtain ⟨row, hrow, rfl⟩ := List.mem_map.1 hmem
    exact ⟨row, hrow, hsid⟩
  · rintro ⟨row, hrow, hsid⟩
    exact ⟨row.sid, hsid, List.mem_map.2 ⟨row, hrow, rfl⟩⟩

/-- Keys name sids. -/
theorem map_sid_eq (rows : List Permission) :
    rows.map Permission.sid = (rows.map Permission.key).map PermissionKey.sid := by
  rw [List.map_map]
  rfl

/-- The keys of the rows are the keys that hold a grant. -/
theorem WellFormed.mem_keys (h : t.WellFormed) {key : PermissionKey} :
    key ∈ t.rows.map Permission.key ↔ (t.grant? key).isSome = true := by
  rw [Option.isSome_iff_ne_none, ne_eq, h.grant?_eq_none_iff]
  constructor
  · intro hmem absent
    obtain ⟨row, hrow, same⟩ := List.mem_map.1 hmem
    exact absent row hrow same
  · intro present
    by_contra hmem
    exact present fun row hrow same => hmem (List.mem_map.2 ⟨row, hrow, same⟩)

/-- A list of keys without repeats that hold a grant is that of the rows up to order. -/
theorem WellFormed.perm_keys (h : t.WellFormed) {keys : List PermissionKey} (hkeys : keys.Nodup)
    (hmem : ∀ key, key ∈ keys ↔ (t.grant? key).isSome = true) :
    (t.rows.map Permission.key).Perm keys := by
  rw [List.perm_ext_iff_of_nodup h.nodup_keys hkeys]
  intro key
  rw [h.mem_keys, hmem]

/-- A write to a key that holds a grant keeps the keys. -/
theorem WellFormed.keys_upsert_perm_of_isSome (h : t.WellFormed) {row : Permission}
    (hp : Path.IsNamed row.path) (there : (t.grant? row.key).isSome = true) :
    ((t.upsert row).rows.map Permission.key).Perm (t.rows.map Permission.key) := by
  refine (h.upsert hp).perm_keys h.nodup_keys fun key => ?_
  rw [grant?_upsert, h.mem_keys]
  by_cases e : key = row.key
  · rw [if_pos e, e]
    exact iff_of_true there rfl
  · rw [if_neg e]

/-- A write to a free key adds it. -/
theorem WellFormed.keys_upsert_perm_of_eq_none (h : t.WellFormed) {row : Permission}
    (hp : Path.IsNamed row.path) (free : t.grant? row.key = none) :
    ((t.upsert row).rows.map Permission.key).Perm (row.key :: t.rows.map Permission.key) := by
  refine (h.upsert hp).perm_keys (List.nodup_cons.2 ⟨fun hmem => ?_, h.nodup_keys⟩) fun key => ?_
  · have there := h.mem_keys.1 hmem
    rw [free] at there
    cases there
  · rw [grant?_upsert, List.mem_cons, h.mem_keys]
    by_cases e : key = row.key
    · rw [if_pos e]
      exact iff_of_true (.inl e) rfl
    · rw [if_neg e, or_iff_right e]

/-- A write overcounts as before. -/
theorem Overcounts.upsert {lost : List Sid} (c : t.Overcounts lost) (h : t.WellFormed)
    {row : Permission} (hp : Path.IsNamed row.path) : (t.upsert row).Overcounts lost := by
  cases hg : t.grant? row.key with
  | some grant =>
      -- a grant that is overwritten was counted when it was new
      have there : (t.grant? row.key).isSome = true := by rw [hg]; rfl
      have keys := (h.keys_upsert_perm_of_isSome hp there).map PermissionKey.sid
      rw [← map_sid_eq, ← map_sid_eq] at keys
      refine Tallies.perm ?_ (keys.symm.append_right lost)
      rw [PathTree.upsert, if_pos there]
      exact Tallies.of_root c _
  | none =>
      have keys := (h.keys_upsert_perm_of_eq_none hp hg).map PermissionKey.sid
      rw [List.map_cons, ← map_sid_eq, ← map_sid_eq] at keys
      refine Tallies.perm ?_ (keys.symm.append_right lost)
      have free : ¬ (t.grant? row.key).isSome = true := by rw [hg]; exact Bool.false_ne_true
      rw [PathTree.upsert, if_neg free]
      exact Tallies.countIn (Tallies.of_root c _) row.sid

/-- Writes overcount as before. -/
theorem Overcounts.foldl_upsert {lost : List Sid} (c : t.Overcounts lost) (h : t.WellFormed)
    {rows : List Permission} (hp : ∀ row ∈ rows, Path.IsNamed row.path) :
    (rows.foldl PathTree.upsert t).Overcounts lost := by
  induction rows generalizing t with
  | nil => exact c
  | cons row rows ih =>
      have named : Path.IsNamed row.path := hp row List.mem_cons_self
      exact ih (c.upsert h named) (h.upsert named) fun r hr => hp r (List.mem_cons_of_mem row hr)

/-- A write keeps the counters right. -/
theorem Counted.upsert (c : t.Counted) (h : t.WellFormed) {row : Permission}
    (hp : Path.IsNamed row.path) : (t.upsert row).Counted :=
  counted_iff.2 ((counted_iff.1 c).upsert h hp)

/-- Writes keep the counters right. -/
theorem Counted.foldl_upsert (c : t.Counted) (h : t.WellFormed) {rows : List Permission}
    (hp : ∀ row ∈ rows, Path.IsNamed row.path) : (rows.foldl PathTree.upsert t).Counted :=
  counted_iff.2 ((counted_iff.1 c).foldl_upsert h hp)

/-- A removal takes away one key. -/
theorem WellFormed.keys_remove?_perm (h : t.WellFormed) {key : PermissionKey} {left : PathTree}
    (hr : t.remove? key = some left) :
    (t.rows.map Permission.key).Perm (key :: left.rows.map Permission.key) := by
  have leftFormed := h.remove? hr
  have gone : left.grant? key = none := by rw [h.grant?_remove? hr, if_pos rfl]
  refine h.perm_keys (List.nodup_cons.2 ⟨fun hmem => ?_, leftFormed.nodup_keys⟩) fun k => ?_
  · have := leftFormed.mem_keys.1 hmem
    rw [gone] at this
    cases this
  · rw [List.mem_cons, leftFormed.mem_keys, h.grant?_remove? hr]
    by_cases e : k = key
    · subst e
      have there : t.grant? k ≠ none := fun hnone => by
        rw [remove?_eq_none_iff.2 hnone] at hr
        cases hr
      exact iff_of_true (.inl rfl) (Option.isSome_iff_ne_none.2 there)
    · rw [if_neg e, or_iff_right e]

/-- A removal overcounts as before. -/
theorem Overcounts.remove? {lost : List Sid} (c : t.Overcounts lost) (h : t.WellFormed)
    {key : PermissionKey} {left : PathTree} (hr : t.remove? key = some left) :
    left.Overcounts lost := by
  have keys := (h.keys_remove?_perm hr).map PermissionKey.sid
  rw [List.map_cons, ← map_sid_eq, ← map_sid_eq] at keys
  have tallies := Tallies.perm c (keys.append_right lost)
  rw [PathTree.remove?] at hr
  obtain ⟨root, -, rfl⟩ := Option.map_eq_some_iff.1 hr
  exact (tallies.of_root root).countOut

/-- Removals overcount as before. -/
theorem Overcounts.removeAll {lost : List Sid} (c : t.Overcounts lost) (h : t.WellFormed)
    (rows : List Permission) : (PathTree.removeAll rows t).Overcounts lost := by
  induction rows generalizing t with
  | nil => exact c
  | cons row rows ih =>
      rw [PathTree.removeAll, List.foldl_cons]
      cases hr : t.remove? row.key with
      | none => exact ih c h
      | some left => exact ih (c.remove? h hr) (h.remove? hr)

/-- Taking out overcounts as before. -/
theorem Overcounts.takeUnder {lost : List Sid} (c : t.Overcounts lost) (h : t.WellFormed)
    (root : PathRef) : (t.takeUnder root).2.Overcounts lost := by
  have parts := ((h.takeUnder_perm root).append (h.rows_takeUnder_perm root)).trans
    (List.filter_append_perm _ _)
  have sids := (parts.map Permission.sid).symm
  rw [List.map_append] at sids
  obtain ⟨path, type⟩ := root
  cases type with
  | file => exact c.removeAll h _
  | folder =>
      rw [takeUnder_folder] at sids ⊢
      cases ht : t.root.takeOut? (Path.segments path) with
      | none => exact c
      | some both =>
          rw [ht] at sids
          -- the rows taken out come first, and are counted out one after the other
          have tallies := Tallies.perm c (sids.append_right lost)
          rw [List.append_assoc] at tallies
          exact (tallies.of_root both.2).foldl_countOut _

/-- A removal keeps the counters right. -/
theorem Counted.remove? (c : t.Counted) (h : t.WellFormed) {key : PermissionKey} {left : PathTree}
    (hr : t.remove? key = some left) : left.Counted :=
  counted_iff.2 ((counted_iff.1 c).remove? h hr)

/-- Taking out keeps the counters right. -/
theorem Counted.takeUnder (c : t.Counted) (h : t.WellFormed) (root : PathRef) :
    (t.takeUnder root).2.Counted :=
  counted_iff.2 ((counted_iff.1 c).takeUnder h root)

/-- The counters of a moved folder are as they were. -/
theorem tallies_relocate_folder {sids : List Sid} (c : t.Tallies sids) (path : String)
    (destination : PathRef) : (t.relocate ⟨path, .folder⟩ destination).2.Tallies sids := by
  rw [relocate_folder]
  cases t.root.takeOut? (Path.segments path) with
  | none => exact c
  | some both => exact c.of_root _

/-- A moved file overcounts as before. -/
theorem Overcounts.relocate_file {lost : List Sid} (c : t.Overcounts lost) (h : t.WellFormed)
    (path : String) {destination : PathRef} (hd : Path.IsNamed destination.path) :
    (t.relocate ⟨path, .file⟩ destination).2.Overcounts lost := by
  rw [PathTree.relocate_file, h.foldl_upsert_carried]
  refine (c.takeUnder h _).foldl_upsert (h.takeUnder _).1 fun row hrow => ?_
  obtain ⟨old, hold, rfl⟩ := List.mem_map.1 hrow
  rw [Path.IsNamed, Permission.path_carried_file (h.mem_takeUnder.1 hold).2]
  exact hd

/-- A move to a free destination that buries nothing keeps the counters right. -/
theorem Counted.relocate (c : t.Counted) (h : t.WellFormed) {source destination : PathRef}
    (hd : Path.IsNamed destination.path) (free : t.isTaken destination = false)
    (shallow : ¬ source.Buries destination t.rows) : (t.relocate source destination).2.Counted := by
  have sids : ((t.relocate source destination).2.rows.map Permission.sid).Perm
      (t.rows.map Permission.sid) := by
    have moved := (h.rows_relocate_perm hd free shallow).map Permission.sid
    rw [List.map_map] at moved
    refine moved.trans (List.Perm.of_eq (List.map_congr_left fun row _ => ?_))
    exact Permission.sid_relocated source destination row
  -- a graft leaves the counters alone, so what carries this is that no row is lost
  obtain ⟨path, type⟩ := source
  cases type with
  | folder => exact Tallies.perm (tallies_relocate_folder c path destination) sids.symm
  | file => exact counted_iff.2 ((counted_iff.1 c).relocate_file h path hd)

/-- A listing parts into the rows with a property, those without it but with another, and the rest. -/
theorem filter_three_perm (p q : Permission → Bool) (rows : List Permission) :
    (rows.filter p ++ (rows.filter fun row => !p row && !q row) ++
      rows.filter fun row => !p row && q row).Perm rows := by
  have others := List.filter_append_perm (fun row => !q row) (rows.filter fun row => !p row)
  simp only [List.filter_filter, Bool.not_not, Bool.and_comm (!q _), Bool.and_comm (q _)] at others
  rw [List.append_assoc]
  exact (others.append_left _).trans (List.filter_append_perm p rows)

/-- A folder with rows is moved over others: these are lost, and go on being counted. -/
theorem Overcounts.relocate_folder {lost : List Sid} (c : t.Overcounts lost) (h : t.WellFormed)
    (path : String) {destination : PathRef} (hd : Path.IsNamed destination.path)
    (some_row : ∃ row ∈ t.rows, (⟨path, .folder⟩ : PathRef).governs row.place = true) :
    (t.relocate ⟨path, .folder⟩ destination).2.Overcounts
      ((t.rows.filter fun row => !(⟨path, .folder⟩ : PathRef).governs row.place &&
        Path.isAtOrBeneath row.path destination.path).map Permission.sid ++ lost) := by
  refine Tallies.perm (tallies_relocate_folder c path destination) ?_
  rw [← List.append_assoc, ← List.map_append]
  refine List.Perm.append_right lost (List.Perm.symm ?_)
  -- what is carried along keeps its sid, so the three parts of the listing are all there
  refine (((h.rows_relocate_folder_perm path hd some_row).append_right _).map Permission.sid).trans ?_
  have parts := (filter_three_perm (fun row => (⟨path, .folder⟩ : PathRef).governs row.place)
    (fun row => Path.isAtOrBeneath row.path destination.path) t.rows).map Permission.sid
  rw [List.map_append, List.map_append] at parts ⊢
  rw [List.map_map]
  exact parts

/-- **A move overcounts** as before, or by the rows it buries as well. -/
theorem Overcounts.relocate {lost : List Sid} (c : t.Overcounts lost) (h : t.WellFormed)
    (source : PathRef) {destination : PathRef} (hd : Path.IsNamed destination.path) :
    ∃ buried, (t.relocate source destination).2.Overcounts (buried ++ lost) := by
  obtain ⟨path, type⟩ := source
  cases type with
  | file => exact ⟨[], c.relocate_file h path hd⟩
  | folder =>
      by_cases held : ∃ row ∈ t.rows, (⟨path, .folder⟩ : PathRef).governs row.place = true
      · exact ⟨_, c.relocate_folder h path hd held⟩
      · refine ⟨[], ?_⟩
        rw [h.relocate_folder_of_not_governs held]
        exact c

end PathTree

end PathAcl
