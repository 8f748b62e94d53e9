import PathAcl.Proofs.Settings.Names
import PathAcl.Settings.Load

/-! # What sources say of a field
Sources give entries, one after another. As long as none of them gives a section as a whole or item by
item, the section keeps its fields, and of each the last entry that said something counts. -/

namespace PathAcl.ConfigLibrary

variable {lib : ConfigLibrary} (documented : lib.Documented)

/-- What entries say last of a field of a section. -/
def lastSaid (lib : ConfigLibrary) (heading field : String) (es : List (String × lib.Value)) :
    Option (Seen lib.Value) :=
  es.reverse.findSome? (lib.saying heading field)

theorem lastSaid_append {heading field : String} (es es' : List (String × lib.Value)) :
    lib.lastSaid heading field (es ++ es') =
      (lib.lastSaid heading field es').or (lib.lastSaid heading field es) := by
  rw [lastSaid, List.reverse_append, List.findSome?_append]
  rfl

/-! ## One entry after another -/

include documented in
/-- The last entry that says something of a field counts. -/
theorem fields?_foldl_set {heading : String} {es : List (String × lib.Value)} {c : lib.Config}
    {old : List (String × lib.Value)} (start : lib.fields? c heading = some old)
    (each : ∀ e ∈ es, lib.isFieldwise heading e) :
    ∃ new, lib.fields? (es.foldl (fun c e => lib.set c e.1 e.2) c) heading = some new ∧ ∀ field,
      (new.lookup field).map lib.seen =
        (lib.lastSaid heading field es).or ((old.lookup field).map lib.seen) := by
  induction es generalizing c old with
  | nil => exact ⟨old, start, fun field => rfl⟩
  | cons e es ih =>
      obtain ⟨first, rest⟩ := List.forall_mem_cons.1 each
      obtain ⟨fs, given, one⟩ := documented.override c e heading old start first
      obtain ⟨new, later, all⟩ := ih given rest
      refine ⟨new, later, fun field => ?_⟩
      rw [all, one, ← Option.or_assoc, ← List.singleton_append, lastSaid_append]
      simp only [lastSaid, List.reverse_singleton, List.findSome?_singleton]

include documented in
/-- Among sources that are laid over one another the last that says something of a field counts. -/
theorem fields?_build {heading : String} {sources : List (List (String × lib.Value))}
    (each : ∀ es ∈ sources, ∀ e ∈ es, lib.isFieldwise heading e) :
    ∃ new, lib.fields? (lib.build sources) heading = some new ∧ ∀ field,
      (new.lookup field).map lib.seen = lib.lastSaid heading field sources.flatten := by
  have start : lib.fields? lib.empty heading = some [] := by
    rw [fields?, documented.find?_empty]
  rw [documented.build_eq]
  have flat : ∀ e ∈ sources.flatten, lib.isFieldwise heading e := by
    intro e m
    obtain ⟨es, source, here⟩ := List.mem_flatten.1 m
    exact each es source e here
  obtain ⟨new, later, all⟩ := fields?_foldl_set documented start flat
  refine ⟨new, later, fun field => ?_⟩
  rw [all, List.lookup_nil, Option.map_none, Option.or_none]

/-! ## Values -/

/-- What a field can see of a table or a list is that there are parts. -/
theorem seen_eq_parts {v : lib.Value} (h : lib.isPlain v = false) : lib.seen v = .parts := by
  rw [seen, h]
  rfl

theorem isTable_of_isSection {v : lib.Value} (h : lib.isSection v) : lib.isTable v := by
  rw [isSection, Bool.and_eq_true, Bool.and_eq_true] at h
  exact h.1.1

/-- A table has parts. -/
theorem isPlain_of_isTable {v : lib.Value} (h : lib.isTable v) : lib.isPlain v = false := by
  unfold isTable at h
  unfold isPlain
  cases shape : lib.shape v with
  | table es => rfl
  | null | single | list items => simp [shape] at h

include documented

/-- A plain name is in lower case. -/
theorem lowerCase_of_isWord {word : String} (h : SettingName.isWord word) :
    lib.lowerCase word = word := by
  rw [SettingName.isWord, Bool.and_eq_true, List.all_eq_true] at h
  have each c (m : c ∈ word.toList) := SettingName.lowered_of_isPlain (h.2 c m)
  rw [documented.lowerCase_eq word fun c m => (each c m).1]
  exact SettingName.inLowerCase_eq_iff.2 fun c m => (each c m).2

theorem isPlain_write {α : Type} (type : FieldType α) (x : α) : lib.isPlain (lib.write type x) := by
  rw [isPlain, documented.shape_write]

theorem isPlain_null : lib.isPlain lib.null := by
  rw [isPlain, documented.shape_null]

/-- What a field is written as is seen as a value. -/
theorem seen_write {α : Type} (type : FieldType α) (x : α) :
    lib.seen (lib.write type x) = .single (lib.write type x) := by
  rw [seen, if_pos (isPlain_write documented type x)]

theorem entries_table (es : List (String × lib.Value)) : lib.entries (lib.table es) = es := by
  rw [entries, documented.shape_table]

/-- A table of values without parts is a section if it has one. -/
theorem isSection_table {f : String × lib.Value} {fs : List (String × lib.Value)}
    (plain : ∀ g ∈ f :: fs, lib.isPlain g.2) : lib.isSection (lib.table (f :: fs)) := by
  rw [isSection, isTable, entries_table documented, documented.shape_table]
  exact List.all_eq_true.2 plain

/-- A table under a plain heading says of each field what its entries say. -/
theorem saying_table {heading key : String} (word : SettingName.isWord key) (field : String)
    (es : List (String × lib.Value)) :
    lib.saying heading field (key, lib.table es) =
      if key = heading then (lib.under? field es).map lib.seen else none := by
  have path := (documented.path_eq_heading_iff key key word).2 (lowerCase_of_isWord documented word)
  rw [saying, path, entries_table documented]

/-- A section under a plain heading leaves fields to all sections. -/
theorem isFieldwise_of_isSection {key : String} (word : SettingName.isWord key) (heading : String)
    {v : lib.Value} (h : lib.isSection v) : lib.isFieldwise heading (key, v) := by
  have path := (documented.path_eq_heading_iff key key word).2 (lowerCase_of_isWord documented word)
  simp only [isFieldwise, path, h, Bool.or_true]

/-- An entry that is one value says nothing of a section as a whole. It says the value of a field it
names, and of one that it leads below no more than that there are parts. -/
theorem saying_write_eq_some {α : Type} {type : FieldType α} {x : α} {key heading field : String}
    {given : Seen lib.Value} (h : lib.saying heading field (key, lib.write type x) = some given) :
    lib.path key = ⟨heading, [.field field]⟩ ∧ given = .single (lib.write type x) ∨
      (∃ rest, rest ≠ [] ∧ lib.path key = ⟨heading, .field field :: rest⟩) ∧ given = .parts := by
  rw [saying] at h
  dsimp only at h
  generalize lib.path key = name at h
  obtain ⟨heading', steps⟩ := name
  split at h
  · rename_i here
    obtain rfl : heading' = heading := here
    match steps, h with
    | [], h =>
        rw [entries, documented.shape_write] at h
        cases h
    | [.field name], h =>
        obtain ⟨rfl, same⟩ := (Option.ite_none_right_eq_some).1 h
        obtain rfl := Option.some.inj same
        exact .inl ⟨rfl, seen_write documented type x⟩
    | .field name :: step :: rest, h =>
        obtain ⟨rfl, same⟩ := (Option.ite_none_right_eq_some).1 h
        obtain rfl := Option.some.inj same
        exact .inr ⟨⟨step :: rest, List.cons_ne_nil _ _, rfl⟩, rfl⟩
  · cases h

/-! ## Variables of the environment -/

variable {environment : List (String × String)}
  (keys : (environment.filterMap fun v => lib.engineKey? v.1).Nodup)

include keys

/-- Variables leave its fields to a section if each that names it names one of its fields. -/
theorem isFieldwise_ofEnvironment {heading : String}
    (free : ∀ v ∈ environment, ∀ key ∈ lib.engineKey? v.1, (lib.path key).heading = heading →
      (lib.path key).isOfField) :
    ∀ e ∈ Settings.ofEnvironment lib environment, lib.isFieldwise heading e := by
  intro e m
  obtain ⟨v, mv, key, it, rfl⟩ := (documented.mem_environment_iff _ _ _ _ keys e).1 m
  have field := free v mv key it
  unfold SettingName.isOfField at field
  unfold isFieldwise
  dsimp only
  by_cases here : (lib.path key).heading = heading
  · have steps := field here
    split at steps
    · rename_i name rest same
      simp only [same, isPlain_write documented, Bool.true_or, Bool.or_true]
    · cases steps
  · simp only [ne_eq, here, not_false_eq_true, decide_true, Bool.true_or]

/-- What variables say of a field is the text of one that names it, or there is one that names
something below it. -/
theorem lastSaid_ofEnvironment {heading field : String} {given : Seen lib.Value}
    (h : lib.lastSaid heading field (Settings.ofEnvironment lib environment) = some given) :
    (∃ v ∈ environment, ∃ key, lib.engineKey? v.1 = some key ∧
        lib.path key = ⟨heading, [.field field]⟩ ∧ given = .single (lib.write .text v.2)) ∨
      (∃ v ∈ environment, ∃ key, lib.engineKey? v.1 = some key ∧ ∃ rest, rest ≠ [] ∧
        lib.path key = ⟨heading, .field field :: rest⟩) ∧ given = .parts := by
  obtain ⟨e, m, said⟩ := List.exists_of_findSome?_eq_some h
  obtain ⟨v, mv, key, it, rfl⟩ :=
    (documented.mem_environment_iff _ _ _ _ keys e).1 (List.mem_reverse.1 m)
  obtain ⟨path, rfl⟩ | ⟨⟨rest, more, path⟩, rfl⟩ := saying_write_eq_some documented said
  · exact .inl ⟨v, mv, key, it, path, rfl⟩
  · exact .inr ⟨⟨v, mv, key, it, rest, more, path⟩, rfl⟩

end PathAcl.ConfigLibrary
