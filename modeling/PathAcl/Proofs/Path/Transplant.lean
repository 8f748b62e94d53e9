import PathAcl.Proofs.Path.Ancestors

/-! # Moving paths to another root
To transplant a path is to exchange the segments of the old root for those of the new one. So what lies
at or beneath one root corresponds to what lies at or beneath the other, step for step along the
hierarchy, and two moves in a row are one. The texts need no normal form for this: a root may be empty,
may end in a separator, or may be the beginning of the other root.

The tail of the path is cut off by its number of bytes, which can fail: the cut may be behind the end, or
inside a character. It never does, for nothing is cut off before the path is known to begin with the
bytes of the root. -/

namespace PathAcl.Path

variable {path other root old mid new p q : String}

/-! ## Exchanging segments -/

/-- A path has a transplant if it is at or beneath the old root, and only then. -/
theorem isSome_transplant (path old new : String) :
    (transplant path old new).isSome = isAtOrBeneath path old := by
  rw [transplant, isAtOrBeneath]
  by_cases same : path = old
  · simp [same]
  · cases beneath : isBeneath path old <;> simp [same]

/-- **A transplant has the segments of the new root** where the path has those of the old one, and the
same segments after them. -/
theorem transplant_eq_some_iff :
    transplant path old new = some q ↔
      ∃ rest, segments path = segments old ++ rest ∧ segments q = segments new ++ rest := by
  constructor
  · intro moved
    have there : isAtOrBeneath path old = true := by
      rw [← isSome_transplant path old new, moved]
      rfl
    obtain ⟨rest, split⟩ := isAtOrBeneath_iff.1 there
    refine ⟨rest, split.symm, ?_⟩
    rw [transplant_eq_some split.symm] at moved
    obtain rfl := Option.some.inj moved
    -- a joined text has the segments it was joined from, if none of them holds a separator
    refine segments_join ?_ fun s hs => ?_
    · simp [segments_ne_nil new]
    · rcases List.mem_append.1 hs with front | back
      · exact isSegment_of_mem_segments front
      · have mem : s ∈ segments path := split ▸ List.mem_append_right _ back
        exact isSegment_of_mem_segments mem
  · rintro ⟨rest, split, segs⟩
    rw [transplant_eq_some split, ← segs, join_segments]

/-- **The way back** leads from the transplant to the path. -/
theorem transplant_comm : transplant path old new = some q ↔ transplant q new old = some path := by
  rw [transplant_eq_some_iff, transplant_eq_some_iff]
  exact exists_congr fun rest => and_comm

/-- A transplant is at or beneath the new root. -/
theorem isAtOrBeneath_of_transplant (h : transplant path old new = some q) :
    isAtOrBeneath q new = true := by
  rw [← isSome_transplant q new old, transplant_comm.1 h]
  rfl

/-- Different paths have different transplants. -/
theorem transplant_injective (hp : transplant path old new = some q)
    (ho : transplant other old new = some q) : path = other := by
  rw [transplant_comm] at hp ho
  exact Option.some.inj (hp.symm.trans ho)

/-- **Transplants lie beneath each other** as the paths do. -/
theorem isBeneath_transplant (hp : transplant path old new = some p)
    (ho : transplant other old new = some q) : isBeneath path other = isBeneath p q := by
  obtain ⟨tail, pathSplit, pSplit⟩ := transplant_eq_some_iff.1 hp
  obtain ⟨head, otherSplit, qSplit⟩ := transplant_eq_some_iff.1 ho
  -- the segments of the roots cancel, on both sides
  have cancelled : ∀ front rest : List String,
      front ++ tail = front ++ head ++ rest ↔ tail = head ++ rest := by
    intro front rest
    rw [List.append_assoc, List.append_cancel_left_eq]
  rw [Bool.eq_iff_iff, isBeneath_iff, isBeneath_iff, pathSplit, otherSplit, pSplit, qSplit]
  simp only [cancelled]

/-- **Two moves in a row are one**, also where there is nothing to move. -/
theorem transplant_transplant (path old mid new : String) :
    ((transplant path old mid).bind fun p => transplant p mid new) = transplant path old new := by
  refine Option.ext fun q => ?_
  rw [Option.bind_eq_some_iff, transplant_eq_some_iff]
  constructor
  · rintro ⟨p, first, second⟩
    obtain ⟨rest, pathSplit, pSplit⟩ := transplant_eq_some_iff.1 first
    obtain ⟨rest', pSplit', qSplit⟩ := transplant_eq_some_iff.1 second
    obtain rfl : rest = rest' := List.append_cancel_left (pSplit.symm.trans pSplit')
    exact ⟨rest, pathSplit, qSplit⟩
  · rintro ⟨rest, pathSplit, qSplit⟩
    have first : transplant path old mid = some (join (segments mid ++ rest)) :=
      transplant_eq_some pathSplit
    obtain ⟨rest', pathSplit', pSplit⟩ := transplant_eq_some_iff.1 first
    obtain rfl : rest = rest' := List.append_cancel_left (pathSplit.symm.trans pathSplit')
    exact ⟨_, first, transplant_eq_some_iff.2 ⟨rest, pSplit, qSplit⟩⟩

/-! ## Cutting by bytes -/

/-- What is left of a text behind its first `n` bytes. The **cut fails** if it is behind the end of the
text or inside a character. -/
def cut? (text : String) (n : Nat) : Option String :=
  if h : (String.Pos.Raw.mk n).IsValid text then some (text.sliceFrom ⟨⟨n⟩, h⟩).copy else none

/-- A cut gives a tail of the text just if the bytes in front of it are a text. -/
theorem cut?_eq_some_iff {text tail : String} {n : Nat} :
    cut? text n = some tail ↔ ∃ front, text = front ++ tail ∧ front.utf8ByteSize = n := by
  rw [cut?]
  constructor
  · intro h
    by_cases valid : (String.Pos.Raw.mk n).IsValid text
    · rw [dif_pos valid, Option.some.injEq] at h
      obtain ⟨front, splits⟩ := String.copy_sliceFrom_eq_iff_exists_splits.1 h
      exact ⟨front, splits.eq_append, (congrArg String.Pos.Raw.byteIdx splits.offset_eq_rawEndPos).symm⟩
    · rw [dif_neg valid] at h
      cases h
  · rintro ⟨front, rfl, rfl⟩
    have valid : (String.Pos.Raw.mk front.utf8ByteSize).IsValid (front ++ tail) :=
      String.Pos.Raw.isValid_iff_exists_append.2 ⟨front, tail, rfl, rfl⟩
    rw [dif_pos valid, Option.some.injEq]
    exact String.copy_sliceFrom_eq_iff_exists_splits.2 ⟨front, rfl, rfl⟩

/-- No cut goes through a character of two bytes, and none behind the end. -/
example : cut? "ä/b" 1 = none ∧ cut? "ä/b" 2 = some "/b" ∧ cut? "ä/b" 5 = none := by decide

/-- A text can be cut behind a text it begins with. -/
theorem cut?_append (front tail : String) : cut? (front ++ tail) front.utf8ByteSize = some tail :=
  cut?_eq_some_iff.2 ⟨front, rfl, rfl⟩

/-- Whether `path` lies beneath `root`, by way of the bytes: if the path is longer and begins with the
root, the root is cut off, and a separator must come first in what is left. None if the cut fails. -/
def isBeneathCut? (path root : String) : Option Bool :=
  if root.utf8ByteSize < path.utf8ByteSize ∧ bytes root <+: bytes path then
    (cut? path root.utf8ByteSize).map fun rest => rest.toList.head? == some separator
  else some false

/-- The transplant of a path, by way of the bytes: the tail behind the old root is cut off and put behind
the new one. None if a cut fails. -/
def transplantCut? (path old new : String) : Option (Option String) :=
  if path = old then some (some new)
  else do
    if ← isBeneathCut? path old then
      let tail ← cut? path old.utf8ByteSize
      return some (new ++ tail)
    else return none

/-- A text that begins with the bytes of another is the other with a tail. -/
theorem exists_append_of_bytes (h : bytes root <+: bytes path) : ∃ tail, path = root ++ tail := by
  obtain ⟨tail, chars⟩ := prefix_of_bytes h
  refine ⟨String.ofList tail, String.toList_inj.1 ?_⟩
  rw [String.toList_append, String.toList_ofList, chars]

/-- What begins with a root lies beneath it if a separator comes next. -/
theorem isBeneath_append (root tail : String) :
    isBeneath (root ++ tail) root = (tail.toList.head? == some separator) := by
  rw [Bool.eq_iff_iff, isBeneath_iff_toList, beq_iff_eq, List.head?_eq_some_iff]
  simp only [String.toList_append, List.append_cancel_left_eq]

/-- **The cut behind the root does not fail** when it is asked what lies beneath, and the answer is the
right one. -/
theorem isBeneathCut?_eq (path root : String) : isBeneathCut? path root = some (isBeneath path root) := by
  rw [isBeneathCut?]
  by_cases begins : root.utf8ByteSize < path.utf8ByteSize ∧ bytes root <+: bytes path
  · rw [if_pos begins]
    obtain ⟨tail, rfl⟩ := exists_append_of_bytes begins.2
    rw [cut?_append, Option.map_some, isBeneath_append]
  · have apart : isBeneath path root = false := by
      rw [← Bool.not_eq_true]
      intro beneath
      obtain ⟨longer, front, -⟩ := isBeneath_iff_bytes.1 beneath
      rw [length_bytes, length_bytes] at longer
      exact begins ⟨longer, front⟩
    rw [if_neg begins, apart]

/-- **The cut behind the old root does not fail** when a path is moved, and the tail is the right one. -/
theorem transplantCut?_eq (path old new : String) :
    transplantCut? path old new = some (transplant path old new) := by
  rw [transplantCut?, transplant, isBeneathCut?_eq]
  by_cases same : path = old
  · rw [if_pos same, if_pos same]
  rw [if_neg same, if_neg same]
  cases beneath : isBeneath path old with
  | false => rfl
  | true =>
      obtain ⟨rest, rfl⟩ := isBeneath_iff_append.1 beneath
      rw [String.append_assoc, cut?_append, String.toList_append, List.drop_left, String.ofList_toList]
      rfl

/-! ## The correspondence -/

/-- **What lies at or beneath two roots corresponds**, for all texts: just the paths at or beneath the old
root have a transplant, which is at or beneath the new root and leads back to the path alone. Transplants
lie beneath each other as the paths do, and two moves in a row are one. No cut by bytes fails on the
way. -/
theorem subtrees_correspond (path other old mid new : String) :
    (transplant path old new).isSome = isAtOrBeneath path old ∧
    (∀ p, transplant path old new = some p →
      isAtOrBeneath p new = true ∧ transplant p new old = some path ∧
        ∀ q, transplant other old new = some q →
          (p = q → path = other) ∧ isBeneath path other = isBeneath p q) ∧
    ((transplant path old mid).bind fun p => transplant p mid new) = transplant path old new ∧
    isBeneathCut? path old = some (isBeneath path old) ∧
    transplantCut? path old new = some (transplant path old new) := by
  refine ⟨isSome_transplant path old new, fun p moved => ?_, transplant_transplant path old mid new,
    isBeneathCut?_eq path old, transplantCut?_eq path old new⟩
  refine ⟨isAtOrBeneath_of_transplant moved, transplant_comm.1 moved, fun q otherMoved => ⟨?_, ?_⟩⟩
  · rintro rfl
    exact transplant_injective moved otherMoved
  · exact isBeneath_transplant moved otherMoved

/-- To the empty root and back: a folder whose name ends in a separator stays above what is in it. -/
theorem emptyRoot_corresponds :
    transplant "ä//b/" "ä" "" = some "//b/" ∧ transplant "ä/" "ä" "" = some "/" ∧
      isAtOrBeneath "//b/" "" = true ∧ transplant "//b/" "" "ä" = some "ä//b/" ∧
      isBeneath "ä//b/" "ä/" = isBeneath "//b/" "/" ∧
      transplantCut? "ä//b/" "ä" "" = some (some "//b/") := by
  have moved : transplant "ä//b/" "ä" "" = some "//b/" := by decide
  have otherMoved : transplant "ä/" "ä" "" = some "/" := by decide
  obtain ⟨-, along, -, -, bytewise⟩ := subtrees_correspond "ä//b/" "ä/" "ä" "ä/b" ""
  obtain ⟨there, back, others⟩ := along "//b/" moved
  rw [moved] at bytewise
  exact ⟨moved, otherMoved, there, back, (others "/" otherMoved).2, bytewise⟩

end PathAcl.Path
