import PathAcl.Proofs.Validity

/-! # Normal forms again
The blanks around a text are cut off before its separators are taken away, so a blank that stood behind
a leading separator stands at the end of the normal form. Taking the normal form once more cuts it off
too: a text is its own normal form only if it is bare. -/

namespace PathAcl

namespace Text

variable {cs : List Char}

/-- Cutting off blanks leaves a part of the text. -/
theorem trim_sublist (cs : List Char) : (trim cs).Sublist cs := by
  have start : ∀ cs, (trimStart cs).Sublist cs := fun cs => List.dropWhile_sublist isBlank
  have back := (start (trimStart cs).reverse).reverse
  rw [List.reverse_reverse] at back
  exact back.trans (start cs)

end Text

namespace Path

variable {text path : String}

/-- A path is **bare** if there is no blank at either end. -/
def IsBare (path : String) : Prop := Text.trim path.toList = path.toList

instance (path : String) : Decidable (IsBare path) := inferInstanceAs (Decidable (_ = _))

/-- A path is **straight** if no segment stands for the folder it is in or for the one above. -/
def IsStraight (path : String) : Prop := ∀ s ∈ segments path, s ≠ "." ∧ s ≠ ".."

/-- Segments joined to another in front. -/
theorem toList_join_cons (x : String) {xs : List String} (hne : xs ≠ []) :
    (join (x :: xs)).toList = x.toList ++ separator :: (join xs).toList := by
  have alone : join [x] = x := String.intercalate_singleton
  have split := join_append (List.cons_ne_nil x []) hne
  rw [List.singleton_append, alone] at split
  rw [split, String.toList_append, String.toList_append, String.toList_singleton, List.append_assoc,
    List.singleton_append]

/-- The join of some of the segments is a part of the join of all. -/
theorem toList_join_sublist {xs ys : List String} (h : xs.Sublist ys) :
    (join xs).toList.Sublist (join ys).toList := by
  -- A segment is left out together with its separator, of which the last segment has none.
  induction h with
  | slnil => exact List.Sublist.refl _
  | @cons xs ys y some ih =>
      by_cases hne : ys = []
      · obtain rfl : xs = [] := List.sublist_nil.1 (hne ▸ some)
        exact List.nil_sublist _
      · rw [toList_join_cons y hne]
        exact (ih.cons separator).trans (List.sublist_append_right _ _)
  | @cons_cons xs ys x some ih =>
      have alone : join [x] = x := String.intercalate_singleton
      by_cases hxs : xs = []
      · subst hxs
        by_cases hys : ys = []
        · subst hys
          exact List.Sublist.refl _
        · rw [alone, toList_join_cons x hys]
          exact List.sublist_append_left _ _
      · have hys : ys ≠ [] := fun none => hxs (List.sublist_nil.1 (none ▸ some))
        rw [toList_join_cons x hxs, toList_join_cons x hys]
        exact (ih.cons_cons separator).append_left _

/-- What a text with a normal form is like: it has named segments, none of them is relative, and they
make up the normal form. -/
theorem normalize_eq_ok_iff : normalize text = .ok path ↔ namedSegments text ≠ [] ∧
    (∀ s ∈ namedSegments text, s ≠ "." ∧ s ≠ "..") ∧ join (namedSegments text) = path ∧
    check path = .ok () := by
  have straight : ((namedSegments text).any fun s => s == "." || s == "..") = false ↔
      ∀ s ∈ namedSegments text, s ≠ "." ∧ s ≠ ".." := by
    rw [List.any_eq_false]
    refine forall₂_congr fun s _ => ?_
    rw [Bool.or_eq_true, beq_iff_eq, beq_iff_eq, not_or]
  have refused : ∀ why : Malformed, (Except.error why : Except Malformed String) ≠ .ok path := by
    intro why same
    cases same
  rw [normalize]
  by_cases none : namedSegments text = []
  · rw [if_pos (List.isEmpty_iff.2 none)]
    exact iff_of_false (refused _) fun h => h.1 none
  rw [if_neg fun bare => none (List.isEmpty_iff.1 bare)]
  cases relative : (namedSegments text).any fun s => s == "." || s == ".." with
  | true =>
      rw [if_pos rfl]
      refine iff_of_false (refused _) fun h => ?_
      cases relative.symm.trans (straight.2 h.2.1)
  | false =>
      rw [if_neg Bool.false_ne_true]
      cases checked : check (join (namedSegments text)) with
      | error fault =>
          refine iff_of_false (refused _) ?_
          rintro ⟨-, -, rfl, accepted⟩
          cases accepted.symm.trans checked
      | ok u =>
          constructor
          · intro h
            obtain rfl := Except.ok.inj h
            exact ⟨none, straight.1 relative, rfl, checked⟩
          · rintro ⟨-, -, rfl, -⟩
            rfl

/-- The segments of a normal form are those its text names. -/
theorem segments_of_normalize (h : normalize text = .ok path) : segments path = namedSegments text := by
  obtain ⟨some, -, rfl, -⟩ := normalize_eq_ok_iff.1 h
  exact segments_join some fun s hs => isSegment_of_mem_segments (List.mem_filter.1 hs).1

/-- A normal form is straight. -/
theorem isStraight_of_normalize (h : normalize text = .ok path) : IsStraight path := by
  rw [IsStraight, segments_of_normalize h]
  exact (normalize_eq_ok_iff.1 h).2.1

/-- A text whose normal form is itself is bare: what the normal form keeps of it is a part of it. -/
theorem isBare_of_normalize_self (h : normalize path = .ok path) : IsBare path := by
  obtain ⟨-, -, joined, -⟩ := normalize_eq_ok_iff.1 h
  have kept := toList_join_sublist
    (List.filter_sublist (p := (· != "")) (l := segments (String.ofList (Text.trim path.toList))))
  rw [← namedSegments, joined, join_segments, String.toList_ofList] at kept
  -- The path is part of what is left of it after trimming, so trimming takes nothing away.
  exact (kept.eq_of_length_le (Text.trim_sublist path.toList).length_le).symm

/-- **The texts that are their own normal form** are the stored paths that are straight and bare. -/
theorem normalize_eq_self_iff :
    normalize path = .ok path ↔ check path = .ok () ∧ IsStraight path ∧ IsBare path := by
  constructor
  · intro h
    exact ⟨check_of_normalize h, isStraight_of_normalize h, isBare_of_normalize_self h⟩
  · rintro ⟨stored, straight, bare⟩
    -- Nothing is trimmed, and no segment is empty.
    have all_named : namedSegments path = segments path := by
      rw [namedSegments, bare, String.ofList_toList]
      exact List.filter_eq_self.2 fun s hs => bne_iff_ne.2 (isNamed_of_check stored s hs).1
    rw [normalize_eq_ok_iff, all_named]
    exact ⟨segments_ne_nil path, straight, join_segments path, stored⟩

/-- A normal form is its own normal form if it is bare, and only then. -/
theorem normalize_normal_iff (h : normalize text = .ok path) :
    normalize path = .ok path ↔ IsBare path := by
  rw [normalize_eq_self_iff]
  constructor
  · exact fun both => both.2.2
  · exact fun bare => ⟨check_of_normalize h, isStraight_of_normalize h, bare⟩

end Path

end PathAcl
