import PathAcl.Proofs.Path.Segments

/-! # The chain of ancestors
The ancestors of a path are found by splitting it at the last separator, then the front of that, and so
on until no separator is left. Whether a path lies beneath another is asked of the bytes of the two
texts: one must begin with the other, and a separator must follow. Neither needs a normal form: segments
may be empty, separators may lead and trail, and a character may take several bytes. -/

namespace PathAcl.Path

variable {path root front name : String}

/-! ## Splitting at the last separator -/

/-- In front of the last separator stands the longest of the fronts, and the others are its own. -/
theorem heads_cut (front : List Char) {name : List Char} (h : separator ∉ name) :
    heads (front ++ separator :: name) = front :: heads front := by
  induction front with
  | nil =>
      have whole : heads name = [] := by
        rw [List.eq_nil_iff_forall_not_mem]
        intro cs hcs
        obtain ⟨rest, rfl⟩ := mem_heads.1 hcs
        apply h
        simp
      simp [heads, whole]
  | cons c front ih =>
      rw [List.cons_append, heads, ih]
      simp [heads]

/-- A path of one segment has no ancestors. -/
theorem ancestors_of_isSegment (h : IsSegment path) : ancestors path = [] := by
  rw [List.eq_nil_iff_forall_not_mem]
  intro root hroot
  obtain ⟨rest, cut⟩ := isBeneath_iff_toList.1 (mem_ancestors.1 hroot)
  apply h
  simp [cut]

/-- The front of the last separator is the nearest ancestor, and its ancestors are the farther ones. -/
theorem ancestors_cut (front : String) (h : IsSegment name) :
    ancestors (front ++ String.singleton separator ++ name) = front :: ancestors front := by
  have text : (front ++ String.singleton separator ++ name).toList =
      front.toList ++ separator :: name.toList := by
    simp
  rw [ancestors, text, heads_cut front.toList h, List.map_cons, String.ofList_toList, ancestors]

/-- A text is one segment or has a last separator. -/
theorem isSegment_or_exists_cut (path : String) :
    IsSegment path ∨
      ∃ front name, path = front ++ String.singleton separator ++ name ∧ IsSegment name := by
  by_cases h : separator ∈ path.toList
  · right
    -- the last separator is the first one of the text read backwards
    obtain ⟨back, rest, split, after⟩ := List.eq_append_cons_of_mem (List.mem_reverse.2 h)
    refine ⟨String.ofList rest.reverse, String.ofList back.reverse, ?_, ?_⟩
    · apply String.toList_inj.1
      rw [← List.reverse_reverse path.toList, split]
      simp
    · rw [IsSegment, String.toList_ofList, List.mem_reverse]
      exact after
  · exact .inl h

/-- **Induction over the splitting**: what holds of every text without a separator, and of a text with
one if it holds of the front of the last, holds of all texts. -/
theorem cut_induction {motive : String → Prop} (segment : ∀ path, IsSegment path → motive path)
    (cut : ∀ front name, IsSegment name → motive front →
      motive (front ++ String.singleton separator ++ name)) (path : String) : motive path := by
  induction size : path.utf8ByteSize using Nat.strongRecOn generalizing path with
  | _ n ih =>
      rcases isSegment_or_exists_cut path with alone | ⟨front, name, rfl, last⟩
      · exact segment path alone
      · apply cut front name last
        -- the front is shorter by the separator at least
        have shorter : front.utf8ByteSize <
            (front ++ String.singleton separator ++ name).utf8ByteSize :=
          utf8ByteSize_lt_of_isBeneath (isBeneath_iff_append.2 ⟨name, rfl⟩)
        exact ih _ (size ▸ shorter) front rfl

/-- The parent of a path is the front of its last separator. -/
theorem parent_eq_some_iff :
    parent path = some front ↔
      ∃ name, path = front ++ String.singleton separator ++ name ∧ IsSegment name := by
  constructor
  · intro h
    rcases isSegment_or_exists_cut path with alone | ⟨other, name, rfl, last⟩
    · rw [parent, ancestors_of_isSegment alone] at h
      cases h
    · rw [parent, ancestors_cut other last] at h
      obtain rfl : other = front := Option.some.inj h
      exact ⟨name, rfl, last⟩
  · rintro ⟨name, rfl, last⟩
    rw [parent, ancestors_cut front last]
    rfl

/-- **The ancestors are the parent, the parent's parent and so on**, up to a path that has none. -/
theorem ancestors_eq_parents (path : String) :
    ancestors path = (parent path).elim [] fun front => front :: ancestors front := by
  rcases isSegment_or_exists_cut path with alone | ⟨front, name, rfl, last⟩
  · rw [parent, ancestors_of_isSegment alone]
    rfl
  · rw [parent_eq_some_iff.2 ⟨name, rfl, last⟩, ancestors_cut front last]
    rfl

/-! ## How many and how long -/

/-- There is one ancestor for each separator. -/
theorem length_ancestors (path : String) :
    (ancestors path).length = path.toList.count separator := by
  induction path using cut_induction with
  | segment path alone =>
      rw [ancestors_of_isSegment alone, List.count_eq_zero_of_not_mem alone]
      rfl
  | cut front name last ih =>
      have after : name.toList.count separator = 0 := List.count_eq_zero_of_not_mem last
      rw [ancestors_cut front last, List.length_cons, ih]
      simp [after]

/-- A path and its ancestors get shorter from each to the next. -/
theorem pairwise_ancestors (path : String) :
    (path :: ancestors path).Pairwise fun nearer farther =>
      farther.utf8ByteSize < nearer.utf8ByteSize := by
  induction path using cut_induction with
  | segment path alone =>
      rw [ancestors_of_isSegment alone]
      exact List.pairwise_singleton _ path
  | cut front name last ih =>
      rw [ancestors_cut front last]
      refine List.pairwise_cons.2 ⟨?_, ih⟩
      intro root hroot
      -- all of them are ancestors of the whole path
      rw [← ancestors_cut front last] at hroot
      exact utf8ByteSize_lt_of_isBeneath (mem_ancestors.1 hroot)

/-! ## The test on bytes -/

/-- The bytes of a text in UTF-8. -/
def bytes (text : String) : List UInt8 := text.toByteArray.data.toList

@[simp] theorem bytes_append (s t : String) : bytes (s ++ t) = bytes s ++ bytes t := by
  simp [bytes]

@[simp] theorem length_bytes (text : String) : (bytes text).length = text.utf8ByteSize := by
  show text.toByteArray.data.toList.length = text.toByteArray.size
  simp

/-- The separator is a byte of its own. -/
theorem bytes_separator : bytes (String.singleton separator) = [0x2F] := by decide

/-- A text whose bytes begin with those of another begins with the other's characters. -/
theorem prefix_of_bytes {s t : String} (h : bytes s <+: bytes t) : s.toList <+: t.toList := by
  obtain ⟨rest, split⟩ := h
  apply List.isPrefix_of_utf8Encode_append_eq_utf8Encode ⟨rest.toArray⟩
  rw [String.utf8Encode_toList, String.utf8Encode_toList]
  apply ByteArray.ext
  rw [← Array.toList_inj]
  simpa [bytes] using split

/-- **Beneath a path, told on bytes**: the path's bytes begin with the root's, and the byte after them is
the separator. -/
theorem isBeneath_iff_bytes :
    isBeneath path root = true ↔
      (bytes root).length < (bytes path).length ∧ bytes root <+: bytes path ∧
        (bytes path)[(bytes root).length]? = some 0x2F := by
  constructor
  · intro h
    obtain ⟨rest, rfl⟩ := isBeneath_iff_append.1 h
    refine ⟨?_, ?_, ?_⟩
    · simpa using utf8ByteSize_lt_of_isBeneath h
    · rw [String.append_assoc, bytes_append]
      exact List.prefix_append _ _
    · rw [String.append_assoc, bytes_append, bytes_append, bytes_separator,
        List.getElem?_append_right (Nat.le_refl _)]
      simp
  · rintro ⟨-, ⟨rest, split⟩, next⟩
    rw [← split, List.getElem?_append_right (Nat.le_refl _), Nat.sub_self] at next
    -- The two texts agree up to the separator and with it, so no character is cut apart.
    have front : bytes (root ++ String.singleton separator) <+: bytes path := by
      cases rest with
      | nil => cases next
      | cons byte rest =>
          obtain rfl : byte = 0x2F := Option.some.inj next
          refine ⟨rest, ?_⟩
          rw [← split, bytes_append, bytes_separator, List.append_assoc]
          rfl
    have chars := prefix_of_bytes front
    rw [String.toList_append, String.toList_singleton] at chars
    exact List.isPrefixOf_iff_prefix.2 chars

/-- Empty segments count, and so does what stands in front of a leading separator. -/
example : ancestors "/a//ä/" = ["/a//ä", "/a/", "/a", ""] := by decide

end PathAcl.Path
