import PathAcl.Settings.Library

/-! # Variables and their spellings
A variable of the environment stands for the key that its name has behind the lead of all such names, in
lower case and with points for separators. A field of a section has two spellings: its name stands
behind two underscores, or behind a point. -/

namespace PathAcl.SettingName

/-! ## Case of letters -/

theorem toList_inLowerCase (s : String) : (inLowerCase s).toList = s.toList.map lowered :=
  String.toList_ofList

/-- A text is in lower case if its letters are. -/
theorem inLowerCase_eq_iff {s : String} : inLowerCase s = s ↔ ∀ c ∈ s.toList, lowered c = c := by
  rw [← String.toList_inj, toList_inLowerCase]
  constructor
  · intro same c m
    obtain ⟨i, hi, rfl⟩ := List.mem_iff_getElem.1 m
    have at_ := congrArg (fun cs => cs[i]?) same
    simpa [hi] using at_
  · intro lower
    exact (List.map_congr_left lower).trans (List.map_id' _)

/-- What is no capital letter of ASCII has no other lower case there. -/
theorem toLower_eq_self {c : Char} (small : ¬ (65 ≤ c.toNat ∧ c.toNat ≤ 90)) : c.toLower = c := by
  have capital : ¬ (c.val ≥ 'A'.val ∧ c.val ≤ 'Z'.val) := by
    rw [ge_iff_le, UInt32.le_iff_toNat_le, UInt32.le_iff_toNat_le]
    exact small
  exact dif_neg capital

/-- A character of ASCII that is no capital letter is in lower case. -/
theorem lowered_eq_self {c : Char} (ascii : c.toNat < 128) (small : ¬ (65 ≤ c.toNat ∧ c.toNat ≤ 90)) :
    lowered c = c := by
  have kelvin : c ≠ '\u212a' := by
    rintro rfl
    exact absurd ascii (by decide)
  rw [lowered, if_neg kelvin, toLower_eq_self small]

/-- Digits come before all letters. -/
theorem toNat_le_of_isDigit {c : Char} (h : c.isDigit) : c.toNat ≤ 57 :=
  UInt32.le_iff_toNat_le.1 (of_decide_eq_true (Bool.and_eq_true_iff.1 h).2)

/-- The characters of plain names are in lower case. -/
theorem lowered_of_isPlain {c : Char} (h : isPlain c) : c.toNat < 128 ∧ lowered c = c := by
  have bounds : c.toNat < 128 ∧ ¬ (65 ≤ c.toNat ∧ c.toNat ≤ 90) := by
    rw [isPlain, Bool.or_eq_true, Bool.or_eq_true, beq_iff_eq] at h
    obtain (small | digit) | rfl := h
    · obtain ⟨low, high⟩ := Bool.and_eq_true_iff.1 small
      have low : 97 ≤ c.toNat := UInt32.le_iff_toNat_le.1 (of_decide_eq_true low)
      have high : c.toNat ≤ 122 := UInt32.le_iff_toNat_le.1 (of_decide_eq_true high)
      omega
    · have high := toNat_le_of_isDigit digit
      omega
    · decide
  exact ⟨bounds.1, lowered_eq_self bounds.1 bounds.2⟩

/-! ## Separators -/

/-- The points are all that is written anew. -/
theorem mem_of_mem_pointed {separator : List Char} {c : Char} {cs : List Char} {skip : Nat}
    (h : c ∈ pointed separator skip cs) : c = '.' ∨ c ∈ cs := by
  induction cs generalizing skip with
  | nil =>
      unfold pointed at h
      cases h
  | cons d cs ih =>
      cases skip with
      | succ skip => exact (ih h).imp_right (.tail _)
      | zero =>
          rw [pointed] at h
          split at h
          · obtain rfl | later := List.mem_cons.1 h
            · exact .inl rfl
            · exact (ih later).imp_right (.tail _)
          · obtain rfl | later := List.mem_cons.1 h
            · exact .inr (.head _)
            · exact (ih later).imp_right (.tail _)

/-- Two underscores are a separator. -/
abbrev underscored : List Char → List Char := pointed "__".toList 0

/-- From the left, two underscores become a point, and any other character stays. -/
theorem underscored_cases (cs : List Char) :
    (cs = [] ∧ underscored cs = []) ∨
      (∃ rest, cs = '_' :: '_' :: rest ∧ underscored cs = '.' :: underscored rest) ∨
      ∃ c rest, cs = c :: rest ∧ underscored cs = c :: underscored rest := by
  cases cs with
  | nil => exact .inl ⟨rfl, rfl⟩
  | cons c cs =>
      by_cases both : "__".toList.isPrefixOf (c :: cs)
      · obtain ⟨rest, same⟩ := List.isPrefixOf_iff_prefix.1 both
        obtain ⟨rfl, rfl⟩ := List.cons.inj (same : '_' :: '_' :: rest = c :: cs)
        exact .inr (.inl ⟨rest, rfl, rfl⟩)
      · refine .inr (.inr ⟨c, cs, rfl, ?_⟩)
        rw [underscored, pointed, if_neg]
        simp only [both, Bool.and_false, Bool.false_eq_true, not_false_eq_true]

/-- A word in front of what is written stood there before. -/
theorem eq_append_of_underscored_eq {word cs rest : List Char} (whole : '.' ∉ word)
    (h : underscored cs = word ++ rest) : ∃ cs', cs = word ++ cs' ∧ underscored cs' = rest := by
  induction word generalizing cs with
  | nil => exact ⟨cs, rfl, h⟩
  | cons c word ih =>
      obtain ⟨-, none⟩ | ⟨after, -, point⟩ | ⟨d, after, rfl, same⟩ := underscored_cases cs
      · cases none.symm.trans h
      · obtain ⟨rfl, -⟩ := List.cons.inj (point.symm.trans h)
        exact absurd (List.mem_cons_self ..) whole
      · obtain ⟨rfl, later⟩ := List.cons.inj (same.symm.trans h)
        obtain ⟨cs', rfl, ends⟩ := ih (fun m => whole (.tail _ m)) later
        exact ⟨cs', rfl, ends⟩

/-- A point in front of what is written was a point, or two underscores. -/
theorem eq_cons_of_underscored_eq {cs rest : List Char} (h : underscored cs = '.' :: rest) :
    ∃ cs', (cs = '_' :: '_' :: cs' ∨ cs = '.' :: cs') ∧ underscored cs' = rest := by
  obtain ⟨-, none⟩ | ⟨after, rfl, point⟩ | ⟨d, after, rfl, same⟩ := underscored_cases cs
  · cases none.symm.trans h
  · exact ⟨after, .inl rfl, (List.cons.inj (point.symm.trans h)).2⟩
  · obtain ⟨rfl, later⟩ := List.cons.inj (same.symm.trans h)
    exact ⟨after, .inr rfl, later⟩

theorem underscored_eq_nil {cs : List Char} (h : underscored cs = []) : cs = [] := by
  obtain ⟨rfl, -⟩ | ⟨after, rfl, point⟩ | ⟨d, after, rfl, same⟩ := underscored_cases cs
  · rfl
  · cases point.symm.trans h
  · cases same.symm.trans h

/-! ## Keys of variables -/

/-- A key is what stands behind the lead, with points. -/
theorem keyBehind?_eq_some {separator lead name key : String}
    (h : keyBehind? separator lead name = some key) :
    ∃ behind, name.toList = lead.toList ++ behind ∧ key.toList = pointed separator.toList 0 behind := by
  unfold keyBehind? at h
  split at h
  · rename_i marked
    obtain rfl := Option.some.inj h
    have mark := List.prefix_iff_eq_append.1 (List.isPrefixOf_iff_prefix.1 marked)
    exact ⟨_, mark.symm, String.toList_ofList⟩
  · cases h

/-- The key of a name in lower case is in lower case. -/
theorem inLowerCase_of_keyBehind?_eq_some {separator lead name key : String}
    (lower : inLowerCase name = name) (h : keyBehind? separator lead name = some key) :
    inLowerCase key = key := by
  obtain ⟨behind, mark, pointed⟩ := keyBehind?_eq_some h
  refine inLowerCase_eq_iff.2 fun c m => ?_
  rw [pointed] at m
  obtain rfl | m := mem_of_mem_pointed m
  · decide
  · refine inLowerCase_eq_iff.1 lower c ?_
    rw [mark]
    exact List.mem_append_right _ m

/-- A name whose key is a heading, a point and a field is spelled so behind its lead, or with two
underscores in place of the point. -/
theorem eq_of_keyBehind?_eq {lead name heading field : String}
    (h : keyBehind? "__" lead name = some (heading ++ "." ++ field)) (whole : '.' ∉ heading.toList)
    (whole' : '.' ∉ field.toList) :
    name = lead ++ heading ++ "__" ++ field ∨ name = lead ++ heading ++ "." ++ field := by
  obtain ⟨behind, mark, key⟩ := keyBehind?_eq_some h
  have written : underscored behind = heading.toList ++ '.' :: field.toList := by
    rw [underscored, ← key]
    simp
  -- The heading stands in front, then what a point is written for, and the field ends the name.
  obtain ⟨below, rfl, marked⟩ := eq_append_of_underscored_eq whole written
  obtain ⟨named, between, ends⟩ := eq_cons_of_underscored_eq marked
  obtain ⟨after, rfl, nothing⟩ :=
    eq_append_of_underscored_eq whole' (ends.trans (List.append_nil _).symm)
  obtain rfl := underscored_eq_nil nothing
  obtain rfl | rfl := between
  · refine .inl (String.toList_injective ?_)
    rw [mark]
    simp
  · refine .inr (String.toList_injective ?_)
    rw [mark]
    simp

end PathAcl.SettingName
