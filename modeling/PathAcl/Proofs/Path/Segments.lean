import PathAcl.PathRef

/-! # Paths as segment lists
A path and the list of its segments determine each other, and the hierarchy of paths is the prefix
order of segment lists: what lies beneath a path are the texts that continue its segments. Everything
the tree does with paths goes through this correspondence. -/

namespace PathAcl.Path

/-- A text can stand as one **segment** if it holds no separator. -/
def IsSegment (s : String) : Prop := separator ∉ s.toList

/-- A path has at least one segment. -/
theorem segments_ne_nil (path : String) : segments path ≠ [] := by
  simp [segments]

/-- Joining the segments of a path gives the path back. -/
@[simp] theorem join_segments (path : String) : join (segments path) = path := by
  apply String.toList_inj.1
  rw [join, segments, String.toList_intercalate, List.map_map]
  have unpacked : String.toList ∘ String.ofList = id := by
    funext cs
    exact String.toList_ofList
  rw [unpacked, List.map_id, String.toList_singleton, List.intercalate_splitOn]

/-- A path is determined by its segments. -/
theorem segments_injective {p q : String} (h : segments p = segments q) : p = q := by
  rw [← join_segments p, h, join_segments]

/-- Splitting a join gives the segments back. -/
theorem segments_join {segs : List String} (hne : segs ≠ []) (hs : ∀ s ∈ segs, IsSegment s) :
    segments (join segs) = segs := by
  rw [segments, join, String.toList_intercalate, String.toList_singleton, List.splitOn_intercalate]
  · have packed : String.ofList ∘ String.toList = id := by
      funext s
      exact String.ofList_toList
    rw [List.map_map, packed, List.map_id]
  · intro cs hcs
    obtain ⟨s, hmem, rfl⟩ := List.mem_map.1 hcs
    exact hs s hmem
  · simpa using hne

/-- Two paths given by their segments are equal only if the segments are. -/
theorem join_inj {xs ys : List String} (hx : xs ≠ []) (hy : ys ≠ [])
    (hxs : ∀ s ∈ xs, IsSegment s) (hys : ∀ s ∈ ys, IsSegment s) : join xs = join ys ↔ xs = ys := by
  constructor
  · intro h
    rw [← segments_join hx hxs, h, segments_join hy hys]
  · rintro rfl
    rfl

/-- The segments of a text cut at a separator. -/
theorem segments_append (p q : String) :
    segments (p ++ String.singleton separator ++ q) = segments p ++ segments q := by
  rw [segments, String.toList_append, String.toList_append, String.toList_singleton,
    List.append_assoc, List.singleton_append, List.splitOn_append_cons_self, List.map_append]
  rfl

/-- No segment of a path holds a separator. -/
theorem isSegment_of_mem_segments {path s : String} (h : s ∈ segments path) : IsSegment s := by
  obtain ⟨cs, hcs, rfl⟩ := List.mem_map.1 h
  clear h
  rw [IsSegment, String.toList_ofList]
  generalize path.toList = text at hcs
  induction text generalizing cs with
  | nil =>
      rw [List.splitOn_nil, List.mem_singleton] at hcs
      simp [hcs]
  | cons c rest ih =>
      rw [List.splitOn_cons_eq_if_modifyHead] at hcs
      obtain ⟨first, others, hsplit⟩ := List.exists_cons_of_ne_nil (List.splitOn_ne_nil separator rest)
      by_cases hc : c = separator
      · rw [if_pos (beq_iff_eq.2 hc), List.mem_cons] at hcs
        rcases hcs with rfl | hcs
        · simp
        · exact ih cs hcs
      · rw [if_neg (by simpa using hc), hsplit, List.modifyHead_cons, List.mem_cons] at hcs
        rcases hcs with rfl | hcs
        · have := ih first (by rw [hsplit]; exact List.mem_cons_self)
          simp [Ne.symm hc, this]
        · exact ih cs (by rw [hsplit]; exact List.mem_cons_of_mem first hcs)

/-! ## The hierarchy -/

/-- A path continued by further segments. -/
theorem join_append {xs ys : List String} (hx : xs ≠ []) (hy : ys ≠ []) :
    join (xs ++ ys) = join xs ++ String.singleton separator ++ join ys :=
  String.intercalate_append_of_ne_nil hx hy

/-- Whether a path lies beneath another, on texts. -/
theorem isBeneath_iff_toList {path root : String} :
    isBeneath path root = true ↔ ∃ rest, path.toList = root.toList ++ separator :: rest := by
  rw [isBeneath, List.isPrefixOf_iff_prefix]
  constructor
  · rintro ⟨rest, h⟩
    exact ⟨rest, by rw [← h, List.append_assoc, List.singleton_append]⟩
  · rintro ⟨rest, h⟩
    exact ⟨rest, by rw [h, List.append_assoc, List.singleton_append]⟩

/-- Whether a path lies beneath another, on joined texts. -/
theorem isBeneath_iff_append {path root : String} :
    isBeneath path root = true ↔ ∃ rest, path = root ++ String.singleton separator ++ rest := by
  rw [isBeneath_iff_toList]
  constructor
  · rintro ⟨rest, h⟩
    refine ⟨String.ofList rest, String.toList_inj.1 ?_⟩
    rw [h, String.toList_append, String.toList_append, String.toList_singleton,
      String.toList_ofList, List.append_assoc, List.singleton_append]
  · rintro ⟨rest, rfl⟩
    refine ⟨rest.toList, ?_⟩
    rw [String.toList_append, String.toList_append, String.toList_singleton, List.append_assoc,
      List.singleton_append]

/-- **Beneath** a path are the paths that continue its segments. -/
theorem isBeneath_iff {path root : String} :
    isBeneath path root = true ↔ ∃ rest ≠ [], segments path = segments root ++ rest := by
  rw [isBeneath_iff_append]
  constructor
  · rintro ⟨rest, rfl⟩
    exact ⟨segments rest, segments_ne_nil rest, segments_append root rest⟩
  · rintro ⟨rest, hne, h⟩
    refine ⟨join rest, ?_⟩
    rw [← join_segments path, h, join_append (segments_ne_nil root) hne, join_segments]

/-- At or beneath a path are the paths whose segments begin with its own. -/
theorem isAtOrBeneath_iff {path root : String} :
    isAtOrBeneath path root = true ↔ segments root <+: segments path := by
  rw [isAtOrBeneath, Bool.or_eq_true, beq_iff_eq, isBeneath_iff]
  constructor
  · rintro (rfl | ⟨rest, -, h⟩)
    · exact List.prefix_rfl
    · exact ⟨rest, h.symm⟩
  · rintro ⟨rest, h⟩
    by_cases hne : rest = []
    · left
      rw [hne, List.append_nil] at h
      exact (segments_injective h).symm
    · exact .inr ⟨rest, hne, h.symm⟩

/-- The texts in front of the separators of a text. -/
theorem mem_heads {cs front : List Char} :
    front ∈ heads cs ↔ ∃ rest, cs = front ++ separator :: rest := by
  induction cs generalizing front with
  | nil => simp [heads]
  | cons c cs ih =>
      rw [heads, List.mem_append, List.mem_map]
      constructor
      · rintro (⟨front, hfront, rfl⟩ | h)
        · obtain ⟨rest, rfl⟩ := ih.1 hfront
          exact ⟨rest, rfl⟩
        · by_cases hc : c = separator
          · rw [if_pos hc, List.mem_singleton] at h
            exact ⟨cs, by rw [h, hc, List.nil_append]⟩
          · rw [if_neg hc] at h
            exact absurd h List.not_mem_nil
      · rintro ⟨rest, h⟩
        cases front with
        | nil =>
            rw [List.nil_append, List.cons.injEq] at h
            rw [if_pos h.1]
            exact .inr (List.mem_singleton_self [])
        | cons d front =>
            rw [List.cons_append, List.cons.injEq] at h
            exact .inl ⟨front, ih.2 ⟨rest, h.2⟩, by rw [h.1]⟩

/-- The ancestors of a path are the paths it lies beneath. -/
theorem mem_ancestors {path root : String} :
    root ∈ ancestors path ↔ isBeneath path root = true := by
  rw [ancestors, List.mem_map, isBeneath_iff_toList]
  constructor
  · rintro ⟨front, hfront, rfl⟩
    rw [String.toList_ofList]
    exact mem_heads.1 hfront
  · intro h
    exact ⟨root.toList, mem_heads.2 h, String.ofList_toList⟩

/-- A path takes more bytes than the paths it lies beneath. -/
theorem utf8ByteSize_lt_of_isBeneath {path root : String} (h : isBeneath path root = true) :
    root.utf8ByteSize < path.utf8ByteSize := by
  obtain ⟨rest, rfl⟩ := isBeneath_iff_append.1 h
  have one : (String.singleton separator).utf8ByteSize = 1 := by decide
  rw [String.utf8ByteSize_append, String.utf8ByteSize_append, one]
  omega

/-- Transplanting exchanges the segments of the old root for those of the new one. -/
theorem transplant_eq_some {path old new : String} {rest : List String}
    (h : segments path = segments old ++ rest) :
    transplant path old new = some (join (segments new ++ rest)) := by
  by_cases hne : rest = []
  · subst hne
    rw [List.append_nil] at h
    rw [transplant, if_pos (segments_injective h), List.append_nil, join_segments]
  · have beneath : isBeneath path old = true := isBeneath_iff.2 ⟨rest, hne, h⟩
    have apart : path ≠ old := by
      rintro rfl
      exact absurd (utf8ByteSize_lt_of_isBeneath beneath) (Nat.lt_irrefl _)
    have text : path = old ++ String.singleton separator ++ join rest := by
      rw [← join_segments path, h, join_append (segments_ne_nil old) hne, join_segments]
    have tail : String.ofList (path.toList.drop old.toList.length) =
        String.singleton separator ++ join rest := by
      rw [text, String.append_assoc, String.toList_append, List.drop_left, String.ofList_toList]
    rw [transplant, if_neg apart, if_pos beneath, tail,
      join_append (segments_ne_nil new) hne, join_segments, String.append_assoc]

/-- A path at or beneath another is its text with a tail, and transplanting keeps the tail. -/
theorem exists_tail {path old : String} (h : segments old <+: segments path) :
    ∃ tail, path = old ++ tail ∧ ∀ new, transplant path old new = some (new ++ tail) := by
  by_cases same : path = old
  · refine ⟨"", by rw [same, String.append_empty], fun new => ?_⟩
    rw [transplant, if_pos same, String.append_empty]
  · have beneath : isBeneath path old = true := by
      have atOrBeneath := isAtOrBeneath_iff.2 h
      rw [isAtOrBeneath, Bool.or_eq_true, beq_iff_eq] at atOrBeneath
      exact atOrBeneath.resolve_left same
    obtain ⟨rest, text⟩ := isBeneath_iff_append.1 beneath
    refine ⟨String.singleton separator ++ rest, by rw [text, String.append_assoc], fun new => ?_⟩
    have behind : String.ofList (path.toList.drop old.toList.length) =
        String.singleton separator ++ rest := by
      rw [text, String.append_assoc, String.toList_append, List.drop_left, String.ofList_toList]
    rw [transplant, if_neg same, if_pos beneath, behind]

end PathAcl.Path
