import PathAcl.Engine.Effective
import PathAcl.Proofs.Path.Segments

/-! # The row that decides
On a target a sid has the mask of its own row there or, failing that, of its folder row at the nearest
strict ancestor that has one. Told on segments this is a walk upwards; the resolver takes the longest
text among the rows that reach the target, and finds the same row. -/

namespace PathAcl

/-! ## Ancestors on segments -/

namespace Path

/-- The segments of the strict ancestors, nearest first: the proper fronts that are not empty. -/
def above : List String → List (List String)
  | [] => []
  | [_] => []
  | s :: t :: rest => (above (t :: rest)).map (s :: ·) ++ [[s]]

/-- The ancestors are the fronts with something behind them. -/
theorem mem_above {front segs : List String} :
    front ∈ above segs ↔ front ≠ [] ∧ ∃ rest ≠ [], segs = front ++ rest := by
  induction segs generalizing front with
  | nil =>
      refine iff_of_false List.not_mem_nil ?_
      rintro ⟨hfront, rest, -, h⟩
      exact hfront (List.append_eq_nil_iff.1 h.symm).1
  | cons s segs ih =>
      cases segs with
      | nil =>
          refine iff_of_false List.not_mem_nil ?_
          rintro ⟨hfront, rest, hrest, h⟩
          -- one segment cannot be cut into two parts that are not empty
          have := congrArg List.length h
          have := List.length_pos_iff.2 hfront
          have := List.length_pos_iff.2 hrest
          simp only [List.length_singleton, List.length_append] at *
          omega
      | cons t rest =>
          rw [above, List.mem_append, List.mem_map, List.mem_singleton]
          constructor
          · rintro (⟨front, hfront, rfl⟩ | rfl)
            · obtain ⟨-, behind, hbehind, h⟩ := ih.1 hfront
              exact ⟨List.cons_ne_nil s front, behind, hbehind, by rw [h, List.cons_append]⟩
            · exact ⟨List.cons_ne_nil s [], t :: rest, List.cons_ne_nil t rest, rfl⟩
          · rintro ⟨hfront, behind, hbehind, h⟩
            cases front with
            | nil => exact absurd rfl hfront
            | cons u front =>
                obtain ⟨rfl, tails⟩ := List.cons.inj h
                by_cases last : front = []
                · exact .inr (by rw [last])
                · exact .inl ⟨front, ih.2 ⟨last, behind, hbehind, tails⟩, rfl⟩

/-- The nearer an ancestor, the more segments it has. -/
theorem pairwise_above (segs : List String) :
    (above segs).Pairwise fun a b => b.length < a.length := by
  induction segs with
  | nil => exact List.Pairwise.nil
  | cons s segs ih =>
      cases segs with
      | nil => exact List.Pairwise.nil
      | cons t rest =>
          rw [above, List.pairwise_append, List.pairwise_map]
          refine ⟨ih.imp fun h => Nat.succ_lt_succ h, List.pairwise_singleton _ _, ?_⟩
          intro a ha b hb
          obtain ⟨front, hfront, rfl⟩ := List.mem_map.1 ha
          rw [List.mem_singleton.1 hb]
          exact Nat.succ_lt_succ (List.length_pos_iff.2 (mem_above.1 hfront).1)

/-- A path is beneath another exactly if the other's segments are among its ancestors. -/
theorem isBeneath_iff_mem_above {path root : String} :
    isBeneath path root = true ↔ segments root ∈ above (segments path) := by
  rw [isBeneath_iff, mem_above]
  exact (and_iff_right (segments_ne_nil root)).symm

/-! ## The longest text -/

variable {α : Type} {path : α → String} {xs : List α}

/-- There is a longest element unless there is none. -/
theorem longest_eq_none_iff : longest path xs = none ↔ xs = [] := by
  cases xs with
  | nil => exact iff_of_true rfl rfl
  | cons x xs =>
      refine iff_of_false ?_ (List.cons_ne_nil x xs)
      rw [longest]
      cases longest path xs with
      | none => exact nofun
      | some y =>
          dsimp only
          split <;> exact nofun

/-- The longest element is one of the list. -/
theorem mem_of_longest_eq_some {x : α} (h : longest path xs = some x) : x ∈ xs := by
  induction xs with
  | nil => cases h
  | cons y ys ih =>
      rw [longest] at h
      cases hz : longest path ys with
      | none =>
          rw [hz] at h
          exact Option.some.inj h ▸ List.mem_cons_self
      | some z =>
          rw [hz] at h
          dsimp only at h
          split at h
          · exact Option.some.inj h ▸ List.mem_cons_self
          · exact List.mem_cons_of_mem y (ih (hz.trans h))

/-- An element that is longer than all others is the longest. -/
theorem longest_eq_some {x : α} (hx : x ∈ xs)
    (longer : ∀ y ∈ xs, y = x ∨ (path y).utf8ByteSize < (path x).utf8ByteSize) :
    longest path xs = some x := by
  induction xs with
  | nil => exact absurd hx List.not_mem_nil
  | cons y ys ih =>
      have later : ∀ z ∈ ys, z = x ∨ (path z).utf8ByteSize < (path x).utf8ByteSize :=
        fun z hz => longer z (List.mem_cons_of_mem y hz)
      rw [longest]
      cases hz : longest path ys with
      | none =>
          have alone : ys = [] := longest_eq_none_iff.1 hz
          rw [alone] at hx
          rw [List.mem_singleton.1 hx]
      | some z =>
          by_cases hxs : x ∈ ys
          · have : z = x := Option.some.inj (hz.symm.trans (ih hxs later))
            subst this
            have notLonger : ¬ (path z).utf8ByteSize < (path y).utf8ByteSize := by
              rcases longer y List.mem_cons_self with rfl | shorter <;> omega
            exact if_neg notLonger
          · obtain rfl : x = y := (List.mem_cons.1 hx).resolve_right hxs
            have hmem : z ∈ ys := mem_of_longest_eq_some hz
            have shorter : (path z).utf8ByteSize < (path x).utf8ByteSize :=
              (later z hmem).resolve_left fun e => hxs (e ▸ hmem)
            exact if_pos shorter

end Path

/-! ## The deciding row -/

/-- The places whose grants reach a target are told by `reaches`. -/
theorem PathRef.mem_reachedFrom {place target : PathRef} :
    place ∈ target.reachedFrom ↔ place.reaches target = true := by
  rw [reachedFrom, List.mem_cons, List.mem_map, reaches, Bool.or_eq_true, beq_iff_eq,
    Bool.and_eq_true, beq_iff_eq]
  refine or_congr_right ⟨?_, ?_⟩
  · rintro ⟨path, hpath, rfl⟩
    exact ⟨rfl, Path.mem_ancestors.1 hpath⟩
  · rintro ⟨type, beneath⟩
    obtain ⟨path, placeType⟩ := place
    obtain rfl : placeType = .folder := type
    exact ⟨path, Path.mem_ancestors.2 beneath, rfl⟩

/-- A grant reaches a target from there, or from a folder at one of the strict ancestors. -/
theorem PathRef.reaches_iff {place target : PathRef} :
    place.reaches target = true ↔ place = target ∨
      (place.type = .folder ∧ Path.segments place.path ∈ Path.above (Path.segments target.path)) := by
  rw [reaches, Bool.or_eq_true, beq_iff_eq, Bool.and_eq_true, beq_iff_eq,
    Path.isBeneath_iff_mem_above]

/-- The row of a sid at the path with some segments, taken as a file or as a folder. -/
def rowOf? (rows : List Permission) (sid : Sid) (type : PathType) (segs : List String) :
    Option Permission :=
  rows.find? fun row => row.sid = sid ∧ row.type = type ∧ Path.segments row.path = segs

/-- The row of a sid that **decides** on a target: its row there, else its folder row at the nearest
strict ancestor that has one. -/
def decidingRow (rows : List Permission) (target : PathRef) (sid : Sid) : Option Permission :=
  (rowOf? rows sid target.type (Path.segments target.path)).or
    ((Path.above (Path.segments target.path)).findSome? (rowOf? rows sid .folder))

/-- What a sid is granted on a target: the mask of the row that decides, else nothing. -/
def decidingMask (rows : List Permission) (target : PathRef) (sid : Sid) : Mask :=
  ((decidingRow rows target sid).map Permission.mask).getD .none

variable {rows : List Permission} {target : PathRef} {sid : Sid} {row : Permission}

/-- The row that is found is one of the rows, and it is what was looked for. -/
theorem of_rowOf?_eq_some {type : PathType} {segs : List String}
    (h : rowOf? rows sid type segs = some row) :
    row ∈ rows ∧ row.sid = sid ∧ row.type = type ∧ Path.segments row.path = segs := by
  refine ⟨List.mem_of_find?_eq_some h, ?_⟩
  simpa using List.find?_some h

/-- If none is found, no row is what was looked for. -/
theorem of_rowOf?_eq_none {type : PathType} {segs : List String} (h : rowOf? rows sid type segs = none)
    (hrow : row ∈ rows) (hsid : row.sid = sid) (htype : row.type = type) :
    Path.segments row.path ≠ segs := by
  intro hsegs
  have absent := List.find?_eq_none.1 h row hrow
  rw [decide_eq_true_eq] at absent
  exact absent ⟨hsid, htype, hsegs⟩

/-- If no row decides, no row of the sid reaches the target. -/
theorem not_reaches_of_decidingRow_eq_none (h : decidingRow rows target sid = none)
    (hrow : row ∈ rows) (hsid : row.sid = sid) : ¬ row.place.reaches target = true := by
  rw [decidingRow, Option.or_eq_none_iff, List.findSome?_eq_none_iff] at h
  obtain ⟨here, above⟩ := h
  rw [PathRef.reaches_iff]
  rintro (place | ⟨folder, hmem⟩)
  · refine of_rowOf?_eq_none here hrow hsid (congrArg PathRef.type place) ?_
    rw [show row.path = target.path from congrArg PathRef.path place]
  · exact of_rowOf?_eq_none (above _ hmem) hrow hsid folder rfl

/-- An ancestor with fewer segments than another has the shorter text. -/
theorem utf8ByteSize_lt_of_above {path a b : String}
    (ha : Path.segments a ∈ Path.above (Path.segments path))
    (hb : Path.segments b ∈ Path.above (Path.segments path))
    (h : (Path.segments a).length < (Path.segments b).length) : a.utf8ByteSize < b.utf8ByteSize := by
  obtain ⟨-, x, -, hx⟩ := Path.mem_above.1 ha
  obtain ⟨-, y, -, hy⟩ := Path.mem_above.1 hb
  obtain ⟨rest, hrest⟩ := List.prefix_of_prefix_length_le ⟨x, hx.symm⟩ ⟨y, hy.symm⟩ (Nat.le_of_lt h)
  refine Path.utf8ByteSize_lt_of_isBeneath (Path.isBeneath_iff.2 ⟨rest, ?_, hrest.symm⟩)
  rintro rfl
  rw [← hrest, List.append_nil] at h
  exact Nat.lt_irrefl _ h

/-- The deciding row reaches the target, and every other row of the sid that does has a shorter path. -/
theorem of_decidingRow_eq_some (h : decidingRow rows target sid = some row) :
    (row ∈ rows ∧ row.sid = sid ∧ row.place.reaches target = true) ∧
      ∀ other ∈ rows, other.sid = sid → other.place.reaches target = true →
        other.key = row.key ∨ other.path.utf8ByteSize < row.path.utf8ByteSize := by
  rw [decidingRow, Option.or_eq_some_iff] at h
  rcases h with here | ⟨nowhere, above⟩
  · obtain ⟨hrow, hsid, htype, hsegs⟩ := of_rowOf?_eq_some here
    have hpath : row.path = target.path := Path.segments_injective hsegs
    have place : row.place = target := by rw [Permission.place, hpath, htype]
    refine ⟨⟨hrow, hsid, PathRef.reaches_iff.2 (.inl place)⟩, fun other _ otherSid reaches => ?_⟩
    rcases PathRef.reaches_iff.1 reaches with otherPlace | ⟨-, hmem⟩
    · have key : other.key = ⟨target.path, target.type, sid⟩ := by
        rw [← otherPlace, ← otherSid]
        rfl
      refine .inl (key.trans ?_)
      rw [← place, ← hsid]
      rfl
    · rw [hpath]
      exact .inr (Path.utf8ByteSize_lt_of_isBeneath (Path.isBeneath_iff_mem_above.2 hmem))
  · obtain ⟨nearer, segs, farther, split, here, missing⟩ := List.findSome?_eq_some_iff.1 above
    obtain ⟨hrow, hsid, htype, hsegs⟩ := of_rowOf?_eq_some here
    have hmem : Path.segments row.path ∈ Path.above (Path.segments target.path) := by
      rw [split, hsegs]
      exact List.mem_append_right nearer List.mem_cons_self
    refine ⟨⟨hrow, hsid, PathRef.reaches_iff.2 (.inr ⟨htype, hmem⟩)⟩, ?_⟩
    intro other hother otherSid reaches
    rcases PathRef.reaches_iff.1 reaches with otherPlace | ⟨folder, otherMem⟩
    · -- a row at the target itself would have been found first
      refine absurd ?_ (of_rowOf?_eq_none nowhere hother otherSid (congrArg PathRef.type otherPlace))
      rw [show other.path = target.path from congrArg PathRef.path otherPlace]
    · have order := Path.pairwise_above (Path.segments target.path)
      rw [split, List.pairwise_append, List.pairwise_cons] at order
      have place := otherMem
      rw [split, List.mem_append, List.mem_cons] at place
      rcases place with isNearer | same | isFarther
      · exact absurd rfl (of_rowOf?_eq_none (missing _ isNearer) hother otherSid folder)
      · have path : other.path = row.path := Path.segments_injective (same.trans hsegs.symm)
        have type : other.type = row.type := folder.trans htype.symm
        have sids : other.sid = row.sid := otherSid.trans hsid.symm
        exact .inl (by rw [Permission.key, Permission.key, path, type, sids])
      · refine .inr (utf8ByteSize_lt_of_above otherMem hmem ?_)
        rw [hsegs]
        exact order.2.1.1 _ isFarther

/-- Among rows of different keys the resolver takes the deciding row, given all rows of the sid that
reach the target. -/
theorem nearestMask_eq {held : List Permission}
    (unique : ∀ a ∈ rows, ∀ b ∈ rows, a.key = b.key → a = b)
    (complete : ∀ row, row.sid = sid → row.place.reaches target = true → (row ∈ held ↔ row ∈ rows)) :
    (nearestMask held target sid).getD .none = decidingMask rows target sid := by
  have mem : ∀ row, row ∈ held.filter (fun r => r.sid == sid && r.place.reaches target) ↔
      row ∈ rows ∧ row.sid = sid ∧ row.place.reaches target = true := by
    intro row
    rw [List.mem_filter, Bool.and_eq_true, beq_iff_eq]
    constructor
    · rintro ⟨hrow, hsid, reaches⟩
      exact ⟨(complete row hsid reaches).1 hrow, hsid, reaches⟩
    · rintro ⟨hrow, hsid, reaches⟩
      exact ⟨(complete row hsid reaches).2 hrow, hsid, reaches⟩
  -- the deciding row is longer than all others that reach the target, so the longest is that one
  rw [nearestMask, decidingMask]
  cases h : decidingRow rows target sid with
  | none =>
      rw [Path.longest_eq_none_iff.2]
      rw [List.eq_nil_iff_forall_not_mem]
      intro row hrow
      obtain ⟨hrow, hsid, reaches⟩ := (mem row).1 hrow
      exact not_reaches_of_decidingRow_eq_none h hrow hsid reaches
  | some row =>
      obtain ⟨found, longer⟩ := of_decidingRow_eq_some h
      rw [Path.longest_eq_some ((mem row).2 found)]
      intro other hother
      obtain ⟨hother, hsid, reaches⟩ := (mem other).1 hother
      exact (longer other hother hsid reaches).imp_left (unique other hother row found.1)

end PathAcl
