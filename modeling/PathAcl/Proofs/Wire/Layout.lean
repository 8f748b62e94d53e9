import Mathlib.Data.List.Nodup
import Mathlib.Logic.Relation
import PathAcl.Wire.Json

/-! # Other spellings
A value may be spelled in more than one way: a record may have fields that nobody knows, it may have its
fields in any order, and it may be the list of the values of its fields. Whatever the spelling, the
fields that are found in it are the same up to their own spelling. -/

namespace PathAcl.Wire

/-- The **layout** of the JSON values of a type: which of their parts are records, and of which fields
in which order. -/
inductive Layout
  /-- A value that is spelled in one way. -/
  | leaf
  /-- A field of one spelling that an object leaves out if it is null. -/
  | spare
  | list (item : Layout)
  | record (fields : List (String × Layout))

/-- The names of fields. -/
def names (fields : List (String × Layout)) : List String := fields.map Prod.fst

/-- The values that an object has for fields, in their order; a spare field that it leaves out is null. -/
inductive Listed (fs : List (String × Json)) : List (String × Layout) → List Json → Prop
  | nil : Listed fs [] []
  | given {name : String} {layout : Layout} {fields : List (String × Layout)} {v : Json}
      {vs : List Json} (here : fs.lookup name = some v) (rest : Listed fs fields vs) :
      Listed fs ((name, layout) :: fields) (v :: vs)
  | spared {name : String} {fields : List (String × Layout)} {vs : List Json}
      (out : fs.lookup name = none) (rest : Listed fs fields vs) :
      Listed fs ((name, .spare) :: fields) (.null :: vs)

/-- A value is **respelt** into another by one change. -/
inductive Respelt : Layout → Json → Json → Prop
  /-- A field that is not known is added to an object. -/
  | extended {fields : List (String × Layout)} {before after : List (String × Json)} {name : String}
      {v : Json} (unknown : name ∉ names fields) :
      Respelt (.record fields) (.object (before ++ after)) (.object (before ++ (name, v) :: after))
  /-- The fields of an object are put into another order. -/
  | reordered {fields : List (String × Layout)} {fs fs' : List (String × Json)} (perm : fs.Perm fs')
      (once : ∀ name ∈ names fields, (fs.map Prod.fst).count name ≤ 1) :
      Respelt (.record fields) (.object fs) (.object fs')
  /-- An object becomes the list of the values of all its fields. -/
  | listed {fields : List (String × Layout)} {fs : List (String × Json)} {vs : List Json}
      (values : Listed fs fields vs) : Respelt (.record fields) (.object fs) (.list vs)
  /-- A field of an object is respelt. -/
  | field {fields : List (String × Layout)} {before after : List (String × Json)} {name : String}
      {layout : Layout} {v v' : Json} (known : (name, layout) ∈ fields) (h : Respelt layout v v') :
      Respelt (.record fields) (.object (before ++ (name, v) :: after))
        (.object (before ++ (name, v') :: after))
  /-- A field in the list of all fields is respelt. -/
  | place {fields : List (String × Layout)} {before after : List Json} {name : String}
      {layout : Layout} {v v' : Json} (known : fields[before.length]? = some (name, layout))
      (h : Respelt layout v v') :
      Respelt (.record fields) (.list (before ++ v :: after)) (.list (before ++ v' :: after))
  /-- A member of a list is respelt. -/
  | item {layout : Layout} {before after : List Json} {v v' : Json} (h : Respelt layout v v') :
      Respelt (.list layout) (.list (before ++ v :: after)) (.list (before ++ v' :: after))

/-- A value **spells** another, that is respelt into it change by change. -/
def Spells (layout : Layout) : Json → Json → Prop := Relation.ReflTransGen (Respelt layout)

/-- A spare field is spelled in one way. -/
theorem eq_of_spells_spare {v v' : Json} (h : Spells .spare v v') : v' = v := by
  induction h with
  | refl => rfl
  | tail _ step _ => cases step

/-- So is a leaf. -/
theorem eq_of_spells_leaf {v v' : Json} (h : Spells .leaf v v') : v' = v := by
  induction h with
  | refl => rfl
  | tail _ step _ => cases step

/-! ## Lists -/

/-- One member of a list is respelt. -/
theorem forall₂_respelt {layout : Layout} {xs before after : List Json} {v v' : Json}
    (members : List.Forall₂ (Spells layout) xs (before ++ v :: after)) (h : Respelt layout v v') :
    List.Forall₂ (Spells layout) xs (before ++ v' :: after) := by
  induction before generalizing xs with
  | nil =>
      cases members with
      | cons first rest => exact .cons (first.tail h) rest
  | cons y before ih =>
      cases members with
      | cons first rest => exact .cons first (ih rest)

/-- **A list is spelled** member by member. -/
theorem exists_of_spells_list {layout : Layout} {xs : List Json} {j : Json}
    (h : Spells (.list layout) (.list xs) j) :
    ∃ ys, j = .list ys ∧ List.Forall₂ (Spells layout) xs ys := by
  induction h with
  | refl => exact ⟨xs, rfl, List.forall₂_same.2 fun _ _ => .refl⟩
  | tail _ step ih =>
      obtain ⟨ys, rfl, members⟩ := ih
      cases step with
      | item h => exact ⟨_, rfl, forall₂_respelt members h⟩

/-! ## Fields that are kept -/

/-- What is found of a field **keeps** what was there: it is the same, or is spelled by it, or is null
where a spare field was left out. -/
inductive Keeps : Layout → Option Json → Option Json → Prop
  | same {layout : Layout} (v : Option Json) : Keeps layout v v
  | spelt {layout : Layout} {v v' : Json} (h : Spells layout v v') :
      Keeps layout (some v) (some v')
  | spared : Keeps .spare none (some .null)

/-- All fields are kept. -/
inductive AllKeep : List (String × Layout) → List (Option Json) → List (Option Json) → Prop
  | nil : AllKeep [] [] []
  | cons {name : String} {layout : Layout} {fields : List (String × Layout)}
      {v found : Option Json} {vs rest : List (Option Json)} (here : Keeps layout v found)
      (there : AllKeep fields vs rest) :
      AllKeep ((name, layout) :: fields) (v :: vs) (found :: rest)

/-- What keeps a field that keeps another keeps that. -/
theorem Keeps.trans {layout : Layout} {v v' v'' : Option Json} (first : Keeps layout v v')
    (second : Keeps layout v' v'') : Keeps layout v v'' := by
  cases second with
  | same => exact first
  | spared =>
      cases first with
      | same => exact .spared
  | spelt later =>
      cases first with
      | same => exact .spelt later
      | spelt sooner => exact .spelt (Relation.ReflTransGen.trans sooner later)
      | spared =>
          rw [eq_of_spells_spare later]
          exact .spared

/-- What keeps a field that is written spells it. -/
theorem Keeps.spells {layout : Layout} {v : Json} {found : Option Json}
    (h : Keeps layout (some v) found) : ∃ v', found = some v' ∧ Spells layout v v' := by
  cases h with
  | same => exact ⟨v, rfl, .refl⟩
  | spelt h => exact ⟨_, rfl, h⟩

/-- What keeps a spare field that is left out is nothing, or null. -/
theorem Keeps.eq_none_or_null {found : Option Json} (h : Keeps .spare none found) :
    found = none ∨ found = some .null := by
  cases h with
  | same => exact .inl rfl
  | spared => exact .inr rfl

/-- All fields that keep fields that are kept keep those. -/
theorem AllKeep.trans {fields : List (String × Layout)} {vs vs' vs'' : List (Option Json)}
    (first : AllKeep fields vs vs') (second : AllKeep fields vs' vs'') :
    AllKeep fields vs vs'' := by
  induction first generalizing vs'' with
  | nil => exact second
  | cons here _ ih =>
      cases second with
      | cons here' there' => exact .cons (here.trans here') (ih there')

/-- Fields are kept if each is kept under its name. -/
theorem allKeep_map {fields : List (String × Layout)} {f g : String → Option Json}
    (h : ∀ name layout, (name, layout) ∈ fields → Keeps layout (f name) (g name)) :
    AllKeep fields ((names fields).map f) ((names fields).map g) := by
  induction fields with
  | nil => exact .nil
  | cons field fields ih =>
      obtain ⟨name, layout⟩ := field
      refine .cons (h name layout List.mem_cons_self) (ih fun name layout known => ?_)
      exact h name layout (List.mem_cons_of_mem _ known)

/-- What stays the same is kept. -/
theorem allKeep_refl {fields : List (String × Layout)} {vs : List (Option Json)}
    (length : vs.length = fields.length) : AllKeep fields vs vs := by
  induction fields generalizing vs with
  | nil =>
      obtain rfl := List.length_eq_zero_iff.1 length
      exact .nil
  | cons field fields ih =>
      cases vs with
      | nil => cases length
      | cons first vs => exact .cons (.same first) (ih (Nat.succ.inj length))

/-- Fields are kept if they stay the same but for one, and that one is respelt. -/
theorem allKeep_append {fields : List (String × Layout)} {before after : List (Option Json)}
    {name : String} {layout : Layout} {v v' : Json}
    (length : (before ++ some v :: after).length = fields.length)
    (known : fields[before.length]? = some (name, layout)) (h : Respelt layout v v') :
    AllKeep fields (before ++ some v :: after) (before ++ some v' :: after) := by
  induction before generalizing fields with
  | nil =>
      cases fields with
      | nil => cases length
      | cons field fields =>
          cases known
          exact .cons (.spelt (.single h)) (allKeep_refl (Nat.succ.inj length))
  | cons first before ih =>
      cases fields with
      | nil => cases length
      | cons field fields => exact .cons (.same first) (ih (Nat.succ.inj length) known)

/-- The values of an object keep the fields that are found in it. -/
theorem Listed.allKeep {fs : List (String × Json)} {fields : List (String × Layout)}
    {vs : List Json} (h : Listed fs fields vs) :
    AllKeep fields ((names fields).map fun name => fs.lookup name) (vs.map some) := by
  induction h with
  | nil => exact .nil
  | @given name layout _ v _ here _ ih =>
      have same : Keeps layout (fs.lookup name) (some v) := by
        rw [here]
        exact .same _
      exact .cons same ih
  | @spared name _ _ out _ ih =>
      have left_out : Keeps .spare (fs.lookup name) (some .null) := by
        rw [out]
        exact .spared
      exact .cons left_out ih

/-- There is a value for each field. -/
theorem Listed.length_eq {fs : List (String × Json)} {fields : List (String × Layout)}
    {vs : List Json} (h : Listed fs fields vs) : vs.length = fields.length := by
  induction h with
  | nil => rfl
  | given _ _ ih => exact congrArg (· + 1) ih
  | spared _ _ ih => exact congrArg (· + 1) ih

/-! ## Fields of an object -/

/-- The first field hides no other. -/
theorem lookup_cons_of_ne {name other : String} (differs : name ≠ other) (v : Json)
    (fs : List (String × Json)) : ((other, v) :: fs).lookup name = fs.lookup name := by
  rw [List.lookup_cons, beq_false_of_ne differs]

/-- A field is found although another is added. -/
theorem lookup_extended {name other : String} (differs : name ≠ other) (v : Json)
    (before after : List (String × Json)) :
    (before ++ (other, v) :: after).lookup name = (before ++ after).lookup name := by
  rw [List.lookup_append, List.lookup_append, lookup_cons_of_ne differs]

/-- A field that an object has at most once is found in whatever order. -/
theorem lookup_perm {fs fs' : List (String × Json)} (perm : fs.Perm fs') {name : String}
    (once : (fs.map Prod.fst).count name ≤ 1) : fs.lookup name = fs'.lookup name := by
  -- Only where two fields change places could another of that name come first.
  induction perm with
  | nil => rfl
  | @cons first _ _ _ ih =>
      obtain ⟨other, v⟩ := first
      by_cases same : name = other
      · subst same
        rw [List.lookup_cons_self, List.lookup_cons_self]
      · rw [List.map_cons, List.count_cons_of_ne (Ne.symm same)] at once
        rw [lookup_cons_of_ne same, lookup_cons_of_ne same, ih once]
  | swap second first fs =>
      obtain ⟨one, v⟩ := first
      obtain ⟨two, w⟩ := second
      by_cases same : name = one
      · subst same
        have differs : name ≠ two := by
          rintro rfl
          rw [List.map_cons, List.map_cons, List.count_cons_self, List.count_cons_self] at once
          omega
        rw [List.lookup_cons_self, lookup_cons_of_ne differs, List.lookup_cons_self]
      · rw [lookup_cons_of_ne same]
        by_cases second : name = two
        · subst second
          rw [List.lookup_cons_self, List.lookup_cons_self]
        · rw [lookup_cons_of_ne second, lookup_cons_of_ne second, lookup_cons_of_ne same]
  | trans first _ ih ih' =>
      have kept := (first.map Prod.fst).count_eq name
      exact (ih once).trans (ih' (kept ▸ once))

/-- A field that is respelt is kept, and so are all others. -/
theorem keeps_lookup {fields : List (String × Layout)} (distinct : (names fields).Nodup)
    (before after : List (String × Json)) {name other : String} {layout layout' : Layout}
    {v v' : Json} (known : (name, layout) ∈ fields) (h : Respelt layout v v')
    (here : (other, layout') ∈ fields) :
    Keeps layout' ((before ++ (name, v) :: after).lookup other)
      ((before ++ (name, v') :: after).lookup other) := by
  by_cases same : other = name
  · subst same
    obtain rfl : layout = layout' :=
      congrArg Prod.snd (List.inj_on_of_nodup_map distinct known here rfl)
    rw [List.lookup_append, List.lookup_append, List.lookup_cons_self, List.lookup_cons_self]
    -- A field of the same name may stand before it, and then it is not the one that is found.
    cases before.lookup other with
    | none => exact .spelt (.single h)
    | some w => exact .same _
  · rw [lookup_extended same, lookup_extended same]
    exact .same _

/-- A list that is as long as the fields gives all of them. -/
theorem fields?_list {fields : List (String × Layout)} {least : Nat} (few : least ≤ fields.length)
    {vs : List Json} (length : vs.length = fields.length) :
    fields? (names fields) least (.list vs) = some (vs.map some) := by
  have total : (names fields).length = fields.length := List.length_map _
  rw [fields?, total, length, if_pos ⟨few, Nat.le_refl _⟩, Nat.sub_self, List.replicate_zero,
    List.append_nil]

/-- The fields that are found in a list that may be too short are kept if one of them is respelt. -/
theorem fields?_place {fields : List (String × Layout)} {least : Nat} {before after : List Json}
    {name : String} {layout : Layout} {v v' : Json} {vs : List (Option Json)}
    (given : fields? (names fields) least (.list (before ++ v :: after)) = some vs)
    (known : fields[before.length]? = some (name, layout)) (h : Respelt layout v v') :
    ∃ found, fields? (names fields) least (.list (before ++ v' :: after)) = some found ∧
      AllKeep fields vs found := by
  have total : (names fields).length = fields.length := List.length_map _
  have length : ∀ w : Json,
      (before ++ w :: after).length = before.length + after.length + 1 := by
    intro w
    rw [List.length_append, List.length_cons]
    rfl
  simp only [fields?, length, total] at given ⊢
  -- The list is as long as before, so it is taken again, with nothing for what it lacks.
  by_cases enough : least ≤ before.length + after.length + 1 ∧
      before.length + after.length + 1 ≤ fields.length
  · rw [if_pos enough, List.map_append, List.map_cons, List.append_assoc, List.cons_append] at given
    rw [if_pos enough, List.map_append, List.map_cons, List.append_assoc, List.cons_append]
    obtain rfl := Option.some.inj given
    have here : fields[(before.map some).length]? = some (name, layout) := by
      rw [List.length_map]
      exact known
    refine ⟨_, rfl, allKeep_append ?_ here h⟩
    simp only [List.length_append, List.length_cons, List.length_map, List.length_replicate]
    omega
  · rw [if_neg enough] at given
    cases given

/-- **The fields that are found** in a record are kept by one change. -/
theorem fields?_respelt {fields : List (String × Layout)} {least : Nat}
    (distinct : (names fields).Nodup) (few : least ≤ fields.length) {j j' : Json}
    (h : Respelt (.record fields) j j') {vs : List (Option Json)}
    (given : fields? (names fields) least j = some vs) :
    ∃ found, fields? (names fields) least j' = some found ∧ AllKeep fields vs found := by
  cases h with
  | @extended _ before after name v unknown =>
      obtain rfl := Option.some.inj given
      refine ⟨_, rfl, allKeep_map fun known layout here => ?_⟩
      have differs : known ≠ name := by
        rintro rfl
        exact unknown (List.mem_map_of_mem here)
      rw [lookup_extended differs]
      exact .same _
  | reordered perm once =>
      obtain rfl := Option.some.inj given
      refine ⟨_, rfl, allKeep_map fun known layout here => ?_⟩
      rw [lookup_perm perm (once known (List.mem_map_of_mem here))]
      exact .same _
  | @listed _ fs values h =>
      obtain rfl := Option.some.inj given
      exact ⟨values.map some, fields?_list few h.length_eq, h.allKeep⟩
  | @field _ before after _ _ _ _ known h =>
      obtain rfl := Option.some.inj given
      exact ⟨_, rfl, allKeep_map fun _ _ here => keeps_lookup distinct before after known h here⟩
  | place known h => exact fields?_place given known h

/-- **The fields of a record** are found in every spelling of it, and keep what is written. -/
theorem fields?_of_spells {fields : List (String × Layout)} {least : Nat}
    (distinct : (names fields).Nodup) (few : least ≤ fields.length) {j j' : Json}
    {written : List (Option Json)} (given : fields? (names fields) least j = some written)
    (length : written.length = fields.length) (h : Spells (.record fields) j j') :
    ∃ found, fields? (names fields) least j' = some found ∧ AllKeep fields written found := by
  induction h with
  | refl => exact ⟨written, given, allKeep_refl length⟩
  | tail _ step ih =>
      -- What was kept up to the last change is kept by it.
      obtain ⟨found, before, keep⟩ := ih
      obtain ⟨found', later, keep'⟩ := fields?_respelt distinct few step before
      exact ⟨found', later, keep.trans keep'⟩

end PathAcl.Wire
