import PathAcl.Proofs.Resolution.Deciding
import PathAcl.Proofs.Tree.Relocation

/-! # Grants of a moved folder
When a folder moves, the rows in it keep their places below it, and rows outside of it stay. So what a
sid was granted in the folder by a row in it moves along, and what it was granted from above the folder
is left behind: there it gets what it is granted from above the new place. All of this is told on the
two listings, before and after the move, through the rows that reach a target. -/

namespace PathAcl

variable {rows others before later : List Permission} {target goal place : PathRef} {sid : Sid}
  {row : Permission} {p q : String}

/-! ## The deciding row is the longest -/

/-- The **deciding row** is the row of the sid that reaches the target and is longer than all others
that do. -/
theorem decidingRow_eq_some_iff (unique : ∀ a ∈ rows, ∀ b ∈ rows, a.key = b.key → a = b) :
    decidingRow rows target sid = some row ↔
      (row ∈ rows ∧ row.sid = sid ∧ row.place.reaches target = true) ∧
        ∀ other ∈ rows, other.sid = sid → other.place.reaches target = true →
          other = row ∨ other.path.utf8ByteSize < row.path.utf8ByteSize := by
  constructor
  · intro decides
    obtain ⟨found, longer⟩ := of_decidingRow_eq_some decides
    refine ⟨found, fun other hother hsid reaches => ?_⟩
    exact (longer other hother hsid reaches).imp_left (unique other hother row found.1)
  · rintro ⟨⟨hrow, hsid, reaches⟩, longer⟩
    cases decides : decidingRow rows target sid with
    | none => exact absurd reaches (not_reaches_of_decidingRow_eq_none decides hrow hsid)
    | some found =>
        -- both are the longest
        obtain ⟨⟨hfound, foundSid, foundReaches⟩, foundLonger⟩ := of_decidingRow_eq_some decides
        rcases longer found hfound foundSid foundReaches with same | shorter
        · rw [same]
        · rcases foundLonger row hrow hsid reaches with key | longerYet
          · rw [unique row hrow found hfound key]
          · exact absurd shorter (Nat.lt_asymm longerYet)

/-- Two listings grant the same on two targets if the same rows of the sid reach them. -/
theorem decidingMask_congr (unique : ∀ a ∈ rows, ∀ b ∈ rows, a.key = b.key → a = b)
    (otherUnique : ∀ a ∈ others, ∀ b ∈ others, a.key = b.key → a = b)
    (same : ∀ row, row.sid = sid → (row ∈ rows ∧ row.place.reaches target = true ↔
      row ∈ others ∧ row.place.reaches goal = true)) :
    decidingMask rows target sid = decidingMask others goal sid := by
  have deciding : decidingRow rows target sid = decidingRow others goal sid := by
    refine Option.ext fun row => ?_
    rw [decidingRow_eq_some_iff unique, decidingRow_eq_some_iff otherUnique]
    constructor
    · rintro ⟨⟨hrow, hsid, reaches⟩, longer⟩
      obtain ⟨there, reachesThere⟩ := (same row hsid).1 ⟨hrow, reaches⟩
      refine ⟨⟨there, hsid, reachesThere⟩, fun other hother otherSid otherReaches => ?_⟩
      obtain ⟨here, reachesHere⟩ := (same other otherSid).2 ⟨hother, otherReaches⟩
      exact longer other here otherSid reachesHere
    · rintro ⟨⟨hrow, hsid, reaches⟩, longer⟩
      obtain ⟨here, reachesHere⟩ := (same row hsid).2 ⟨hrow, reaches⟩
      refine ⟨⟨here, hsid, reachesHere⟩, fun other hother otherSid otherReaches => ?_⟩
      obtain ⟨there, reachesThere⟩ := (same other otherSid).1 ⟨hother, otherReaches⟩
      exact longer other there otherSid reachesThere
  rw [decidingMask, decidingMask, deciding]

/-! ## Places below a path -/

/-- What is at or beneath a path takes at least as many bytes. -/
theorem Path.utf8ByteSize_le_of_prefix {a b : String} (h : segments a <+: segments b) :
    a.utf8ByteSize ≤ b.utf8ByteSize := by
  have atOrBeneath := isAtOrBeneath_iff.2 h
  rw [isAtOrBeneath, Bool.or_eq_true, beq_iff_eq] at atOrBeneath
  rcases atOrBeneath with rfl | beneath
  · exact Nat.le_refl _
  · exact Nat.le_of_lt (utf8ByteSize_lt_of_isBeneath beneath)

/-- What is above a path but not the path takes fewer bytes. -/
theorem Path.utf8ByteSize_lt_of_prefix {a b : String} (h : segments a <+: segments b)
    (apart : ¬ segments b <+: segments a) : a.utf8ByteSize < b.utf8ByteSize := by
  obtain ⟨rest, split⟩ := h
  refine utf8ByteSize_lt_of_isBeneath (isBeneath_iff.2 ⟨rest, ?_, split.symm⟩)
  rintro rfl
  rw [List.append_nil] at split
  exact apart (split ▸ List.prefix_rfl)

/-- A suffix that is empty or begins with a separator adds segments. -/
theorem Path.exists_segments_append {r : String}
    (h : r = "" ∨ ∃ rest, r = String.singleton separator ++ rest) :
    ∃ segs, ∀ base, segments (base ++ r) = segments base ++ segs := by
  rcases h with rfl | ⟨rest, rfl⟩
  · exact ⟨[], fun base => by rw [String.append_empty, List.append_nil]⟩
  · exact ⟨segments rest, fun base => by rw [← String.append_assoc, segments_append]⟩

/-- Only from above or from there does a row reach a target. -/
theorem Permission.prefix_of_reaches (h : row.place.reaches target = true) :
    Path.segments row.path <+: Path.segments target.path := by
  rcases PathRef.reaches_iff.1 h with same | ⟨-, above⟩
  · have path : row.path = target.path := congrArg PathRef.path same
    exact path ▸ List.prefix_rfl
  · obtain ⟨-, rest, -, split⟩ := Path.mem_above.1 above
    exact ⟨rest, split.symm⟩

/-- Whether a grant reaches a target is told by the types and by what stands behind a common front. -/
theorem PathRef.reaches_iff_of_append {base : String} {x y : List String}
    (hx : Path.segments place.path = Path.segments base ++ x)
    (hy : Path.segments target.path = Path.segments base ++ y) :
    place.reaches target = true ↔ (x = y ∧ place.type = target.type) ∨
      (place.type = .folder ∧ ∃ rest ≠ [], y = x ++ rest) := by
  rw [reaches_iff, Path.mem_above, hx, hy]
  refine or_congr ?_ (and_congr_right fun _ => ?_)
  · constructor
    · rintro rfl
      exact ⟨List.append_cancel_left (hx.symm.trans hy), rfl⟩
    · rintro ⟨rfl, type⟩
      have path := Path.segments_injective (hx.trans hy.symm)
      cases place
      cases target
      cases path
      cases type
      rfl
  · rw [and_iff_right (List.append_ne_nil_of_left_ne_nil (Path.segments_ne_nil base) x)]
    simp only [List.append_assoc, List.append_cancel_left_eq]

/-- A row outside of a folder reaches what is in the folder just if it reaches the folder. -/
theorem Permission.reaches_iff_of_outside
    (under : Path.segments p <+: Path.segments target.path)
    (outside : ¬ Path.segments p <+: Path.segments row.path) :
    row.place.reaches target = true ↔ row.place.reaches ⟨p, .folder⟩ = true := by
  have place : row.place.path = row.path := rfl
  rw [PathRef.reaches_iff, PathRef.reaches_iff, place]
  constructor
  · rintro (same | ⟨folder, above⟩)
    · have path : row.path = target.path := congrArg PathRef.path same
      exact absurd (path ▸ under) outside
    · obtain ⟨full, rest, -, split⟩ := Path.mem_above.1 above
      obtain ⟨behind, front⟩ : Path.segments row.path <+: Path.segments p :=
        (List.prefix_or_prefix_of_prefix ⟨rest, split.symm⟩ under).resolve_right outside
      refine .inr ⟨folder, Path.mem_above.2 ⟨full, behind, ?_, front.symm⟩⟩
      rintro rfl
      rw [List.append_nil] at front
      exact outside (front ▸ List.prefix_rfl)
  · rintro (same | ⟨folder, above⟩)
    · have path : row.path = p := congrArg PathRef.path same
      exact absurd (path ▸ List.prefix_rfl) outside
    · obtain ⟨full, rest, some_rest, split⟩ := Path.mem_above.1 above
      obtain ⟨behind, front⟩ := under
      refine .inr ⟨folder, Path.mem_above.2 ⟨full, rest ++ behind, ?_, ?_⟩⟩
      · exact List.append_ne_nil_of_left_ne_nil some_rest behind
      · rw [← front, ← List.append_assoc]
        exact congrArg (· ++ behind) split

/-- A carried row grows or shrinks by what the new path is longer or shorter than the old one. -/
theorem Permission.utf8ByteSize_carried {tail : List String} (q : String)
    (split : Path.segments row.path = Path.segments p ++ tail) :
    (row.carried p q).path.utf8ByteSize + p.utf8ByteSize = row.path.utf8ByteSize + q.utf8ByteSize := by
  have covered : (⟨p, .folder⟩ : PathRef).Covers row.place := ⟨tail, split.symm⟩
  have size := @utf8ByteSize_relocated ⟨p, .folder⟩ ⟨q, .folder⟩ row covered
  rw [relocated, if_pos covered] at size
  exact size

/-- **A carried grant reaches below the new path what it reached below the old one.** -/
theorem Permission.reaches_carried_iff {tail behind : List String}
    (split : Path.segments row.path = Path.segments p ++ tail)
    (there : Path.segments target.path = Path.segments p ++ behind)
    (here : Path.segments goal.path = Path.segments q ++ behind) (type : goal.type = target.type) :
    (row.carried p q).place.reaches goal = true ↔ row.place.reaches target = true := by
  have carried : Path.segments (row.carried p q).place.path = Path.segments q ++ tail :=
    segments_carried split
  have stood : Path.segments row.place.path = Path.segments p ++ tail := split
  rw [PathRef.reaches_iff_of_append carried here, PathRef.reaches_iff_of_append stood there, type]
  rfl

/-! ## Inherited grants -/

/-- What a sid is granted at a path **from above**: the mask of its folder row at the nearest strict
ancestor that has one, else nothing. -/
def inheritedMask (rows : List Permission) (path : String) (sid : Sid) : Mask :=
  (((Path.above (Path.segments path)).findSome? (rowOf? rows sid .folder)).map
    Permission.mask).getD .none

/-- What is granted from above a folder is what the rows outside of it grant. -/
theorem inheritedMask_eq (rows : List Permission) (path : String) (sid : Sid) :
    inheritedMask rows path sid = decidingMask
      (rows.filter fun row => ¬ Path.segments path <+: Path.segments row.path) ⟨path, .folder⟩ sid := by
  have nowhere : rowOf? (rows.filter fun row => ¬ Path.segments path <+: Path.segments row.path) sid
      .folder (Path.segments path) = none := by
    rw [rowOf?, List.find?_eq_none]
    intro row hrow found
    obtain ⟨-, -, here⟩ := of_decide_eq_true found
    have outside := of_decide_eq_true (List.mem_filter.1 hrow).2
    exact outside (here ▸ List.prefix_rfl)
  have same : ∀ segs ∈ Path.above (Path.segments path),
      rowOf? (rows.filter fun row => ¬ Path.segments path <+: Path.segments row.path) sid .folder segs =
        rowOf? rows sid .folder segs := by
    intro segs above
    obtain ⟨-, rest, hrest, split⟩ := Path.mem_above.1 above
    -- a strict ancestor of the folder is outside of it
    have outside : ¬ Path.segments path <+: segs := by
      intro inside
      have longer := inside.length_le
      have := List.length_pos_iff.2 hrest
      rw [split, List.length_append] at longer
      omega
    rw [rowOf?, rowOf?, List.find?_filter]
    refine congrArg (List.find? · rows) (funext fun row => ?_)
    by_cases found : row.sid = sid ∧ row.type = .folder ∧ Path.segments row.path = segs
    · simp [found, outside]
    · simp [found]
  have above : (Path.above (Path.segments path)).findSome? (rowOf? (rows.filter fun row =>
      ¬ Path.segments path <+: Path.segments row.path) sid .folder) =
        (Path.above (Path.segments path)).findSome? (rowOf? rows sid .folder) := by
    have found := congrArg (List.findSome? id) (List.map_congr_left same)
    rw [List.findSome?_map, List.findSome?_map] at found
    exact found
  rw [inheritedMask, decidingMask, decidingRow, nowhere, Option.none_or, above]

/-! ## The move of a folder -/

/-- A **folder was moved** in a listing, to a path at and under which no row was and that is not in the
folder: the rows at and under it are carried along, and no two rows have one key before or after. -/
structure FolderMoved (p q : String) (before later : List Permission) : Prop where
  distinct : ∀ a ∈ before, ∀ b ∈ before, a.key = b.key → a = b
  laterDistinct : ∀ a ∈ later, ∀ b ∈ later, a.key = b.key → a = b
  moved : ∀ row, row ∈ later ↔ ∃ old ∈ before, old.relocated ⟨p, .folder⟩ ⟨q, .folder⟩ = row
  free : ∀ row ∈ before, ¬ Path.segments q <+: Path.segments row.path
  outside : ¬ Path.segments p <+: Path.segments q

namespace FolderMoved

variable (h : FolderMoved p q before later)

include h

/-- A row in the folder is carried along. -/
theorem mem_of_inside (hrow : row ∈ before) (inside : Path.segments p <+: Path.segments row.path) :
    row.carried p q ∈ later :=
  (h.moved _).2 ⟨row, hrow, if_pos inside⟩

/-- A row outside of the folder stays. -/
theorem mem_of_outside (hrow : row ∈ before)
    (outside : ¬ Path.segments p <+: Path.segments row.path) : row ∈ later :=
  (h.moved _).2 ⟨row, hrow, if_neg outside⟩

/-- A row that is there afterwards was outside of the folder, or was in it and was carried along. -/
theorem cases_later (hrow : row ∈ later) :
    (row ∈ before ∧ ¬ Path.segments p <+: Path.segments row.path) ∨
      ∃ old ∈ before, (∃ tail, Path.segments old.path = Path.segments p ++ tail ∧
        Path.segments row.path = Path.segments q ++ tail) ∧ row = old.carried p q := by
  obtain ⟨old, hold, rfl⟩ := (h.moved row).1 hrow
  by_cases inside : Path.segments p <+: Path.segments old.path
  · obtain ⟨tail, split⟩ := inside
    have carried : old.relocated ⟨p, .folder⟩ ⟨q, .folder⟩ = old.carried p q :=
      if_pos ⟨tail, split⟩
    rw [carried]
    exact .inr ⟨old, hold, ⟨tail, split.symm, Permission.segments_carried split.symm⟩, rfl⟩
  · have stays : old.relocated ⟨p, .folder⟩ ⟨q, .folder⟩ = old := if_neg inside
    rw [stays]
    exact .inl ⟨hold, inside⟩

/-- If the folder has a row then nothing is under both its old and its new path. -/
theorem not_under_both (hrow : row ∈ before) (inside : Path.segments p <+: Path.segments row.path)
    {segs : List String} (underOld : Path.segments p <+: segs) : ¬ Path.segments q <+: segs := by
  intro underNew
  rcases List.prefix_or_prefix_of_prefix underOld underNew with new_in_old | old_in_new
  · exact h.outside new_in_old
  · exact h.free row hrow (old_in_new.trans inside)

/-- **What a row of the folder decides at the old path it decides at the new one.** -/
theorem decidingMask_carried {behind : List String}
    (there : Path.segments target.path = Path.segments p ++ behind)
    (here : Path.segments goal.path = Path.segments q ++ behind) (type : goal.type = target.type)
    (held : ∃ row ∈ before, row.sid = sid ∧ Path.segments p <+: Path.segments row.path ∧
      row.place.reaches target = true) :
    decidingMask later goal sid = decidingMask before target sid := by
  obtain ⟨some_row, hsome, someSid, someInside, someReaches⟩ := held
  cases decides : decidingRow before target sid with
  | none => exact absurd someReaches (not_reaches_of_decidingRow_eq_none decides hsome someSid)
  | some row =>
      obtain ⟨⟨hrow, hsid, reaches⟩, longer⟩ := (decidingRow_eq_some_iff h.distinct).1 decides
      have inside : Path.segments p <+: Path.segments row.path := by
        by_contra outside
        -- a row above the folder is shorter than one in it
        have above : Path.segments row.path <+: Path.segments p :=
          (List.prefix_or_prefix_of_prefix (Permission.prefix_of_reaches reaches)
            ⟨behind, there.symm⟩).resolve_right outside
        have short := Path.utf8ByteSize_lt_of_prefix above outside
        have long := Path.utf8ByteSize_le_of_prefix someInside
        rcases longer some_row hsome someSid someReaches with rfl | shorter
        · exact outside someInside
        · omega
      obtain ⟨tail, split⟩ := inside
      have carriedDecides : decidingRow later goal sid = some (row.carried p q) := by
        have carriedReaches := (Permission.reaches_carried_iff split.symm there here type).2 reaches
        refine (decidingRow_eq_some_iff h.laterDistinct).2
          ⟨⟨h.mem_of_inside hrow ⟨tail, split⟩, hsid, carriedReaches⟩, ?_⟩
        intro other hother otherSid otherReaches
        rcases h.cases_later hother with ⟨stayed, -⟩ | ⟨old, hold, ⟨oldTail, oldSplit, -⟩, rfl⟩
        · -- a row that stayed is above the new path, where no row was
          have apart := h.free other stayed
          have above : Path.segments other.path <+: Path.segments q :=
            (List.prefix_or_prefix_of_prefix (Permission.prefix_of_reaches otherReaches)
              ⟨behind, here.symm⟩).resolve_right apart
          have short := Path.utf8ByteSize_lt_of_prefix above apart
          have long : q.utf8ByteSize ≤ (row.carried p q).path.utf8ByteSize :=
            Path.utf8ByteSize_le_of_prefix ⟨tail, (Permission.segments_carried split.symm).symm⟩
          exact .inr (Nat.lt_of_lt_of_le short long)
        · have oldReaches := (Permission.reaches_carried_iff oldSplit there here type).1 otherReaches
          rcases longer old hold otherSid oldReaches with rfl | shorter
          · exact .inl rfl
          · have size := Permission.utf8ByteSize_carried q split.symm
            have oldSize := Permission.utf8ByteSize_carried q oldSplit
            exact .inr (by omega)
      rw [decidingMask, decidingMask, carriedDecides, decides]
      rfl

/-- **Where no row of the folder decides, the grants from outside do**: at the new path a sid is granted
what it was granted there before. -/
theorem decidingMask_inherited {behind : List String}
    (there : Path.segments target.path = Path.segments p ++ behind)
    (here : Path.segments goal.path = Path.segments q ++ behind) (type : goal.type = target.type)
    (held : ¬ ∃ row ∈ before, row.sid = sid ∧ Path.segments p <+: Path.segments row.path ∧
      row.place.reaches target = true) :
    decidingMask later goal sid = decidingMask before goal sid := by
  refine decidingMask_congr h.laterDistinct h.distinct fun row hsid => ?_
  constructor
  · rintro ⟨hrow, reaches⟩
    rcases h.cases_later hrow with ⟨stayed, -⟩ | ⟨old, hold, ⟨tail, split, -⟩, rfl⟩
    · exact ⟨stayed, reaches⟩
    · have reached := (Permission.reaches_carried_iff split there here type).1 reaches
      exact absurd ⟨old, hold, hsid, ⟨tail, split.symm⟩, reached⟩ held
  · rintro ⟨hrow, reaches⟩
    refine ⟨h.mem_of_outside hrow fun inside => ?_, reaches⟩
    exact h.not_under_both hrow inside (inside.trans (Permission.prefix_of_reaches reaches))
      ⟨behind, here.symm⟩

/-- **What is left at the old path** is what is granted from above it. -/
theorem decidingMask_left (under : Path.segments p <+: Path.segments target.path) :
    decidingMask later target sid = inheritedMask before p sid := by
  rw [inheritedMask_eq]
  refine decidingMask_congr h.laterDistinct (fun a ha b hb => h.distinct a (List.mem_filter.1 ha).1 b
    (List.mem_filter.1 hb).1) fun row hsid => ?_
  rw [List.mem_filter, decide_eq_true_eq]
  constructor
  · rintro ⟨hrow, reaches⟩
    have above := Permission.prefix_of_reaches reaches
    rcases h.cases_later hrow with ⟨stayed, outside⟩ | ⟨old, hold, ⟨tail, split, carried⟩, -⟩
    · exact ⟨⟨stayed, outside⟩, (Permission.reaches_iff_of_outside under outside).1 reaches⟩
    · have underNew : Path.segments q <+: Path.segments target.path :=
        List.IsPrefix.trans ⟨tail, carried.symm⟩ above
      exact absurd underNew (h.not_under_both hold ⟨tail, split.symm⟩ under)
  · rintro ⟨⟨hrow, outside⟩, reaches⟩
    exact ⟨h.mem_of_outside hrow outside, (Permission.reaches_iff_of_outside under outside).2 reaches⟩

/-- **Elsewhere everything is granted as before.** -/
theorem decidingMask_elsewhere (notOld : ¬ Path.segments p <+: Path.segments target.path)
    (notNew : ¬ Path.segments q <+: Path.segments target.path) :
    decidingMask later target sid = decidingMask before target sid := by
  refine decidingMask_congr h.laterDistinct h.distinct fun row hsid => ?_
  constructor
  · rintro ⟨hrow, reaches⟩
    rcases h.cases_later hrow with ⟨stayed, -⟩ | ⟨old, hold, ⟨tail, -, carried⟩, -⟩
    · exact ⟨stayed, reaches⟩
    · have under := List.IsPrefix.trans ⟨tail, carried.symm⟩ (Permission.prefix_of_reaches reaches)
      exact absurd under notNew
  · rintro ⟨hrow, reaches⟩
    refine ⟨h.mem_of_outside hrow fun inside => ?_, reaches⟩
    exact notOld (inside.trans (Permission.prefix_of_reaches reaches))

end FolderMoved

end PathAcl
