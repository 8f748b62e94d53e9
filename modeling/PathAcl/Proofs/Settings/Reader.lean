import PathAcl.Proofs.Settings.Names
import PathAcl.Settings.Reader

/-! # The reader does what is documented
The library of configurations that runs does all that loading settings asks of one: it lays entries over
one another field by field, reads plain names whatever their case, and converts what texts spell. -/

namespace PathAcl

/-! ## Names -/

namespace SettingName

/-- The lower case of a letter is its own lower case. -/
theorem lowered_lowered (c : Char) : lowered (lowered c) = lowered c := by
  have bounds : lowered c = c ∨ (lowered c).toNat < 128 ∧
      ¬ (65 ≤ (lowered c).toNat ∧ (lowered c).toNat ≤ 90) := by
    unfold lowered
    split
    · exact .inr (by decide)
    · -- a capital letter is moved by 32, and no other one is moved
      delta Char.toLower
      split
      · rename_i upper
        have low := UInt32.le_iff_toNat_le.1 upper.1
        have high := UInt32.le_iff_toNat_le.1 upper.2
        have shifted : (c.val + ('a'.val - 'A'.val)).toNat = (c.val.toNat + 32) % 4294967296 :=
          UInt32.toNat_add _ _
        simp only [Char.reduceVal, UInt32.reduceToNat] at low high
        refine .inr ?_
        change (c.val + ('a'.val - 'A'.val)).toNat < 128 ∧
          ¬ (65 ≤ (c.val + ('a'.val - 'A'.val)).toNat ∧ (c.val + ('a'.val - 'A'.val)).toNat ≤ 90)
        omega
      · exact .inl rfl
  obtain same | ⟨ascii, small⟩ := bounds
  · rw [same, same]
  · exact lowered_eq_self ascii small

theorem inLowerCase_inLowerCase (s : String) : inLowerCase (inLowerCase s) = inLowerCase s := by
  refine inLowerCase_eq_iff.2 fun c m => ?_
  rw [toList_inLowerCase] at m
  obtain ⟨d, -, rfl⟩ := List.mem_map.1 m
  exact lowered_lowered d

/-- A plain name is in lower case, and a word in front of what is no part of one. -/
theorem of_isWord {word : String} (h : isWord word) :
    inLowerCase word = word ∧ word.toList ≠ [] ∧ ∀ c ∈ word.toList, isNameChar c := by
  rw [isWord, Bool.and_eq_true, List.all_eq_true] at h
  obtain ⟨some, plain⟩ := h
  refine ⟨inLowerCase_eq_iff.2 fun c m => (lowered_of_isPlain (plain c m)).2, ?_, fun c m => ?_⟩
  · intro none
    rw [String.toList_eq_nil_iff.1 none] at some
    cases some
  · have one := plain c m
    simp only [isPlain, isNameChar, Bool.or_eq_true] at one ⊢
    refine .inl (one.imp_left fun letterOrDigit => .inl ?_)
    obtain small | digit := letterOrDigit
    · have letter : c.isAlpha := Bool.or_eq_true_iff.2 (.inr small)
      exact Bool.or_eq_true_iff.2 (.inl letter)
    · exact Bool.or_eq_true_iff.2 (.inr digit)

/-! ### Reading -/

/-- A word is what stands in front. -/
theorem append_of_word?_eq_some {cs rest : List Char} {word : String}
    (h : word? cs = some (word, rest)) : cs = word.toList ++ rest := by
  unfold word? at h
  dsimp only at h
  split at h
  · cases h
  · obtain ⟨rfl, rfl⟩ := by simpa using h
    rw [String.toList_ofList]
    exact (List.prefix_iff_eq_append.1 (List.takeWhile_prefix _)).symm

/-- A word is read up to where it ends. -/
theorem word?_append {word : String} (h : isWord word) {rest : List Char}
    (ends : rest.takeWhile isNameChar = []) : word? (word.toList ++ rest) = some (word, rest) := by
  obtain ⟨-, some, each⟩ := of_isWord h
  unfold word?
  simp [List.takeWhile_append_of_pos each, ends, some]

/-- Steps are read from nothing at all, or from a mark and what stands behind it. -/
theorem steps?_eq_some {fuel : Nat} {cs : List Char} {steps : List Step}
    (h : steps? fuel cs = some steps) :
    (cs = [] ∧ steps = []) ∨
      (∃ name rest more fuel', cs = '.' :: (name.toList ++ rest) ∧ steps = .field name :: more ∧
        steps? fuel' rest = some more) ∨
      ∃ index rest more, cs = '[' :: rest ∧ steps = .item index :: more := by
  unfold steps? at h
  split at h
  · exact .inl ⟨rfl, (Option.some.inj h).symm⟩
  · rename_i fuel cs
    obtain ⟨⟨name, rest⟩, word, h⟩ := Option.bind_eq_some_iff.1 h
    obtain ⟨more, later, h⟩ := Option.bind_eq_some_iff.1 h
    refine .inr (.inl ⟨name, rest, more, fuel, ?_, (Option.some.inj h).symm, later⟩)
    rw [append_of_word?_eq_some word]
  · obtain ⟨⟨index, rest⟩, -, h⟩ := Option.bind_eq_some_iff.1 h
    obtain ⟨more, -, h⟩ := Option.bind_eq_some_iff.1 h
    exact .inr (.inr ⟨index, _, more, rfl, (Option.some.inj h).symm⟩)
  · cases h

/-- A name is read from its heading and what stands behind it. -/
theorem read?_eq_some {key : String} {name : SettingName} (h : read? key = some name) :
    ∃ rest, key.toList = name.heading.toList ++ rest ∧
      steps? key.length rest = some name.steps := by
  obtain ⟨⟨heading, rest⟩, word, h⟩ := Option.bind_eq_some_iff.1 h
  obtain ⟨steps, later, h⟩ := Option.bind_eq_some_iff.1 h
  cases h
  exact ⟨rest, append_of_word?_eq_some word, later⟩

/-- A key stands for a heading if it is spelled like that. -/
theorem ofKey_eq_heading_iff {key heading : String} (word : isWord heading) :
    ofKey key = ⟨heading, []⟩ ↔ inLowerCase key = heading := by
  have each := (of_isWord word).2.2
  unfold ofKey
  cases it : read? key with
  | none => simp
  | some name =>
      obtain ⟨rest, spelled, steps⟩ := read?_eq_some it
      have lower : (inLowerCase key).toList =
          (inLowerCase name.heading).toList ++ rest.map lowered := by
        rw [toList_inLowerCase, toList_inLowerCase, spelled, List.map_append]
      -- What begins a step is no character of a heading.
      obtain ⟨rfl, none⟩ | ⟨field, later, more, fuel, rfl, some, -⟩ | ⟨i, later, more, rfl, some⟩ :=
        steps?_eq_some steps
      · have same : inLowerCase key = inLowerCase name.heading :=
          String.toList_injective (lower.trans (List.append_nil _))
        simp [none, same]
      · refine iff_of_false (by simp [some]) fun e => ?_
        rw [← e, lower] at each
        exact absurd (each '.' (List.mem_append_right _ (.head _))) (by decide)
      · refine iff_of_false (by simp [some]) fun e => ?_
        rw [← e, lower] at each
        exact absurd (each '[' (List.mem_append_right _ (.head _))) (by decide)

/-- A key that stands for a field of a section is spelled with a point between the two. -/
theorem inLowerCase_of_ofKey_eq_field {key heading field : String}
    (h : ofKey key = ⟨heading, [.field field]⟩) :
    inLowerCase key = heading ++ "." ++ field := by
  unfold ofKey at h
  cases it : read? key with
  | none =>
      rw [it] at h
      cases h
  | some name =>
      obtain ⟨rest, spelled, steps⟩ := read?_eq_some it
      rw [it] at h
      obtain ⟨rfl, one⟩ := SettingName.mk.inj h
      obtain ⟨step, alone, lower⟩ := List.map_eq_singleton_iff.1 one
      obtain ⟨-, none⟩ | ⟨name', later, more, fuel, rfl, some, ends⟩ | ⟨i, later, more, -, some⟩ :=
        steps?_eq_some steps
      · cases none.symm.trans alone
      · obtain ⟨rfl, rfl⟩ := List.cons.inj (some.symm.trans alone)
        obtain rfl := Step.field.inj lower
        -- No step is left, and so no character.
        obtain ⟨rfl, -⟩ | ⟨_, _, _, _, -, e, -⟩ | ⟨_, _, _, -, e⟩ := steps?_eq_some ends
        · apply String.toList_injective
          simp [toList_inLowerCase, spelled, lowered]
        · cases e
        · cases e
      · obtain ⟨rfl, -⟩ := List.cons.inj (some.symm.trans alone)
        cases lower

/-- A heading and a field with a point between them are read as what they are. -/
theorem ofKey_field {heading field : String} (word : isWord heading) (word' : isWord field) :
    ofKey (heading ++ "." ++ field) = ⟨heading, [.field field]⟩ := by
  have spelled : (heading ++ "." ++ field).toList = heading.toList ++ '.' :: field.toList := by simp
  have long : ∃ fuel, (heading ++ "." ++ field).length = fuel + 1 := by
    refine Nat.exists_eq_succ_of_ne_zero ?_
    rw [← String.length_toList, spelled]
    simp
  obtain ⟨fuel, long⟩ := long
  have inside : steps? (fuel + 1) ('.' :: field.toList) = some [.field field] := by
    have alone : word? (field.toList ++ []) = some (field, []) := word?_append word' rfl
    rw [List.append_nil] at alone
    rw [steps?, alone]
    cases fuel <;> rfl
  have read : read? (heading ++ "." ++ field) = some ⟨heading, [.field field]⟩ := by
    rw [read?, spelled, word?_append word rfl, long]
    simp [inside]
  rw [ofKey, read]
  simp [stepInLowerCase, (of_isWord word).1, (of_isWord word').1]

end SettingName

/-! ## Trees -/

namespace Tree

theorem lookup_cons (field : String) (e : String × Tree) (es : List (String × Tree)) :
    (e :: es).lookup field = if field = e.1 then some e.2 else es.lookup field := by
  rw [List.lookup_cons]
  by_cases it : field = e.1
  · rw [if_pos it, beq_iff_eq.2 it]
  · rw [if_neg it, beq_eq_false_iff_ne.2 it]

theorem lookup_bound (name field : String) (t : Tree) (es : List (String × Tree)) :
    (bound name t es).lookup field = if field = name then some t else es.lookup field := by
  induction es with
  | nil => exact lookup_cons field (name, t) []
  | cons e es ih =>
      rw [bound]
      by_cases here : e.1 = name
      · rw [if_pos here, lookup_cons, lookup_cons, here]
        split <;> rfl
      · rw [if_neg here, lookup_cons, lookup_cons, ih]
        by_cases it : field = e.1
        · rw [if_pos it, if_pos it, if_neg fun same => here (it.symm.trans same)]
        · rw [if_neg it, if_neg it]

/-- Scalars are laid over entries one by one, and the last for a name counts. -/
theorem lookup_layAll {es : List (String × Tree)} (plain : ∀ e ∈ es, ∃ v, e.2 = leaf v)
    (all : List (String × Tree)) (field : String) :
    (layAll es all).lookup field =
      (es.reverse.findSome? fun e =>
        if SettingName.inLowerCase e.1 = field then some e.2 else none).or (all.lookup field) := by
  induction es generalizing all with
  | nil => rw [layAll, List.reverse_nil, List.findSome?_nil, Option.none_or]
  | cons e es ih =>
      obtain ⟨name, t⟩ := e
      obtain ⟨⟨v, rfl⟩, rest⟩ := List.forall_mem_cons.1 plain
      rw [layAll, ih rest, lookup_bound, laidOver, List.reverse_cons, List.findSome?_append,
        List.findSome?_singleton, Option.or_assoc]
      congr 1
      by_cases it : SettingName.inLowerCase name = field
      · rw [if_pos it, if_pos it.symm, Option.some_or]
      · rw [if_neg it, if_neg (Ne.symm it), Option.none_or]

theorem lookup_set (es : List (String × Tree)) (name : SettingName) (t : Tree) (heading : String) :
    (set es name t).lookup heading =
      if heading = name.heading then some (t.give name.steps (es.lookup name.heading))
      else es.lookup heading :=
  lookup_bound ..

end Tree

namespace Settings

open PathAcl.Tree

/-! ### Values of the reader -/

theorem reader_isPlain_iff {t : Tree} : reader.isPlain t ↔ ∃ v, t = leaf v := by
  cases t with
  | leaf v =>
      refine iff_of_true ?_ ⟨v, rfl⟩
      cases v <;> rfl
  | table es => exact iff_of_false nofun nofun
  | list ts => exact iff_of_false nofun nofun

/-- A section is a table of scalars. -/
theorem eq_table_of_isSection {t : Tree} (h : reader.isSection t) :
    ∃ es, t = table es ∧ ∀ e ∈ es, ∃ v, e.2 = leaf v := by
  cases t with
  | leaf v => cases v <;> cases h
  | list ts => cases h
  | table es =>
      rw [ConfigLibrary.isSection, Bool.and_eq_true] at h
      exact ⟨es, rfl, fun e m => reader_isPlain_iff.1 (List.all_eq_true.1 h.2 e m)⟩

/-- What is laid over another value is seen as it is by itself. -/
theorem reader_seen_laidOver {t : Tree} (h : reader.isPlain t || reader.isSection t)
    (below : Option Tree) : reader.seen (t.laidOver below) = reader.seen t := by
  obtain plain | given := Bool.or_eq_true_iff.1 h
  · obtain ⟨v, rfl⟩ := reader_isPlain_iff.1 plain
    rw [laidOver]
  · obtain ⟨es, rfl, -⟩ := eq_table_of_isSection given
    rw [laidOver]
    rfl

/-- What is given for a step below a field is seen as parts of it. -/
theorem reader_seen_give (t : Tree) (step : Step) (steps : List Step) (below : Option Tree) :
    reader.seen (t.give (step :: steps) below) = .parts := by
  cases step <;> rfl

/-- A field that is bound is seen, and every other one as before. -/
theorem seen_lookup_bound (name field : String) (t : Tree) (old : List (String × Tree)) :
    ((bound name t old).lookup field).map reader.seen =
      (if name = field then some (reader.seen t) else none).or
        ((old.lookup field).map reader.seen) := by
  rw [lookup_bound]
  by_cases it : name = field
  · rw [if_pos it, if_pos it.symm]
    rfl
  · rw [if_neg it, if_neg (Ne.symm it), Option.none_or]

/-- Of the scalars of a section the last for a field is seen, and a field for which there is none as
before. -/
theorem seen_lookup_layAll {es : List (String × Tree)} (plain : ∀ e ∈ es, ∃ v, e.2 = leaf v)
    (old : List (String × Tree)) (field : String) :
    ((layAll es old).lookup field).map reader.seen =
      ((reader.under? field es).map reader.seen).or ((old.lookup field).map reader.seen) := by
  rw [lookup_layAll plain, Option.map_or]
  rfl

/-! ### One entry over others -/

variable {c : List (String × Tree)} {e : String × Tree} {heading : String}
  {old : List (String × Tree)}

/-- The entries of a section that may have some are what is laid over. -/
theorem getD_entries (start : reader.fields? c heading = some old) :
    ((c.lookup heading).map entries).getD [] = old := by
  unfold ConfigLibrary.fields? at start
  split at start
  · rename_i none
    have none : c.lookup heading = Option.none := none
    rw [none]
    exact Option.some.inj start
  · rename_i t found
    have found : c.lookup heading = some t := found
    rw [found]
    cases t with
    | table es => exact Option.some.inj start
    | leaf v => cases v <;> cases start
    | list ts => cases start

/-- An entry that makes a table of a section gives it the fields of the table. -/
theorem fields?_set {new : List (String × Tree)} (here : (SettingName.ofKey e.1).heading = heading)
    (table : e.2.give (SettingName.ofKey e.1).steps (c.lookup heading) = .table new) :
    reader.fields? (reader.set c e.1 e.2) heading = some new := by
  have found : reader.find? (reader.set c e.1 e.2) heading = some (.table new) := by
    change (Tree.set c (SettingName.ofKey e.1) e.2).lookup heading = _
    rw [lookup_set, here, if_pos rfl, table]
  rw [ConfigLibrary.fields?, found]
  rfl

/-- An entry for a section that leaves it its fields makes a table of it: what the entry says of a field
is in the table, and the rest is as before. -/
theorem exists_give (each : reader.isFieldwise heading e)
    (here : (SettingName.ofKey e.1).heading = heading)
    (below : ((c.lookup heading).map entries).getD [] = old) :
    ∃ new, e.2.give (SettingName.ofKey e.1).steps (c.lookup heading) = .table new ∧ ∀ field,
      (new.lookup field).map reader.seen =
        (reader.saying heading field e).or ((old.lookup field).map reader.seen) := by
  have given := (Bool.or_eq_true_iff.1 each).resolve_left (by simpa using here)
  cases steps : (SettingName.ofKey e.1).steps with
  | nil =>
      -- the fields of the entry are laid over the old ones
      rw [steps] at given
      obtain ⟨es, table, plain⟩ := eq_table_of_isSection given
      refine ⟨layAll es old, by rw [table, give, laidOver, below], fun field => ?_⟩
      have said : reader.saying heading field e = (reader.under? field es).map reader.seen := by
        rw [ConfigLibrary.saying, if_pos here, steps, table]
        rfl
      rw [said, seen_lookup_layAll plain]
  | cons step more =>
      rw [steps] at given
      cases step with
      | item i => cases given
      | field name =>
          -- one field is bound among the old ones
          refine ⟨bound name (e.2.give more (old.lookup name)) old, by rw [give, below],
            fun field => ?_⟩
          have said : reader.saying heading field e =
              if name = field then some (reader.seen (e.2.give more (old.lookup name)))
              else none := by
            rw [ConfigLibrary.saying, if_pos here, steps]
            cases more with
            | nil => rw [give, reader_seen_laidOver given]
            | cons step more => rw [reader_seen_give]
          rw [said, seen_lookup_bound]

/-- What an entry says of a field counts, and a field of which it says nothing stays. -/
theorem reader_override (start : reader.fields? c heading = some old)
    (each : reader.isFieldwise heading e) :
    ∃ new, reader.fields? (reader.set c e.1 e.2) heading = some new ∧ ∀ field,
      (new.lookup field).map reader.seen =
        (reader.saying heading field e).or ((old.lookup field).map reader.seen) := by
  by_cases here : (SettingName.ofKey e.1).heading = heading
  · obtain ⟨new, laid, all⟩ := exists_give each here (getD_entries start)
    exact ⟨new, fields?_set here laid, all⟩
  · have same : reader.find? (reader.set c e.1 e.2) heading = reader.find? c heading := by
      change (Tree.set c (SettingName.ofKey e.1) e.2).lookup heading = c.lookup heading
      rw [lookup_set, if_neg (Ne.symm here)]
    refine ⟨old, ?_, fun field => ?_⟩
    · rw [← start, ConfigLibrary.fields?, same]
      rfl
    · have silent : reader.saying heading field e = none := if_neg here
      rw [silent, Option.none_or]

end Settings

/-! ## Numbers -/

namespace Scalar

open Numeral

/-- Digits are read one by one. -/
theorem foldlM_digits {cs : List Char} (each : ∀ c ∈ cs, c.isDigit) (start : Nat) :
    cs.foldlM (fun n c => do
      let d ← hexValue? c
      if d < 10 then some (10 * n + d) else none) start = some (Nat.ofDigitChars 10 cs start) := by
  induction cs generalizing start with
  | nil => rfl
  | cons c cs ih =>
      obtain ⟨digit, rest⟩ := List.forall_mem_cons.1 each
      have value : hexValue? c = some (c.toNat - 48) := if_pos digit
      have small : c.toNat - 48 < 10 := by
        have high := SettingName.toNat_le_of_isDigit digit
        omega
      rw [List.foldlM_cons, value, Nat.ofDigitChars_cons]
      simp only [Option.bind_eq_bind, Option.bind_some, small, if_true]
      exact ih rest _

theorem isDigit_of_mem_toString {n : Nat} {c : Char} (m : c ∈ (toString n).toList) : c.isDigit := by
  rw [Nat.toString_eq_repr, Nat.toList_repr] at m
  exact Nat.isDigit_of_mem_toDigits (by decide) (by decide) m

/-- Decimal digits are read as the number they write. -/
theorem nat?_toString (n : Nat) : nat? (toString n).toList = some n := by
  have each c (m : c ∈ (toString n).toList) := isDigit_of_mem_toString m
  rw [Nat.toString_eq_repr, Nat.toList_repr] at each ⊢
  have value : valueInBase? 10 (Nat.toDigits 10 n) = some n := by
    rw [valueInBase?, List.isEmpty_eq_false_iff.2 Nat.toDigits_ne_nil, foldlM_digits each,
      Nat.ofDigitChars_ten_toDigits]
    rfl
  unfold nat?
  split
  · rename_i cs spelled
    rw [spelled] at each
    exact absurd (each '+' (.head _)) (by decide)
  · exact value

/-- No word is spelled with digits. -/
theorem boolOfWord?_toString (n : Nat) : boolOfWord? (toString n).toLower = none := by
  have same : (toString n).toLower = toString n := by
    apply String.toList_injective
    have mapped : (toString n).toLower.toList = (toString n).toList.map Char.toLower :=
      String.toList_map
    rw [mapped]
    refine (List.map_congr_left fun c m => ?_).trans (List.map_id' _)
    have high := SettingName.toNat_le_of_isDigit (isDigit_of_mem_toString m)
    exact SettingName.toLower_eq_self (by omega)
  have letters : ["true", "on", "yes", "false", "off", "no"].all fun word =>
      word.toList.any fun c => !c.isDigit := by decide +kernel
  have none : ∀ word ∈ ["true", "on", "yes", "false", "off", "no"], toString n ≠ word := by
    rintro word m rfl
    obtain ⟨c, here, other⟩ := List.any_eq_true.1 (List.all_eq_true.1 letters _ m)
    rw [isDigit_of_mem_toString here] at other
    cases other
  rw [same, boolOfWord?, if_neg, if_neg]
  · exact fun m => none _ (List.mem_append_right ["true", "on", "yes"] m) rfl
  · exact fun m => none _ (List.mem_append_left ["false", "off", "no"] m) rfl

/-- A text of digits is a number. -/
theorem toNat?_text {n bound : Nat} (fits : n < bound) :
    (text (toString n)).toNat? bound = some n := by
  have read : ((boolOfWord? (toString n).toLower).map Bool.toNat).or (nat? (toString n).toList) =
      some n := by
    rw [boolOfWord?_toString, nat?_toString]
    rfl
  rw [toNat?, read]
  exact if_pos fits

/-- A number is itself. -/
theorem toNat?_int {n bound : Nat} (fits : n < bound) (signed : (n : Int) ≤ Int64.maxValue.toInt) :
    (int (Int64.ofNat n)).toNat? bound = some n := by
  have limit : Int64.maxValue.toInt = 9223372036854775807 := rfl
  rw [toNat?, Int64.toInt_ofNat_of_lt (by omega), if_pos (Int.natCast_nonneg n), Int.toNat_natCast]
  exact if_pos fits

end Scalar

/-! ## All of it -/

namespace Settings

open PathAcl.Tree

/-- What was written is read back. -/
theorem reader_convert?_write {α : Type} (type : FieldType α) (x : α) (writable : type.Writable x) :
    reader.convert? type (reader.write type x) = some x := by
  cases type with
  | text | truth => rfl
  | word32 =>
      have read : (Scalar.int (Int64.ofNat x.toNat)).toNat? UInt32.size = some x.toNat :=
        Scalar.toNat?_int x.toNat_lt
          (Int.le_trans (Int.ofNat_le.2 (Nat.le_of_lt x.toNat_lt)) (by decide))
      change ((Scalar.int _).toNat? _).map UInt32.ofNat = some x
      rw [read, Option.map_some, UInt32.ofNat_toNat]
  | word64 =>
      have read : (Scalar.int (Int64.ofNat x.toNat)).toNat? UInt64.size = some x.toNat :=
        Scalar.toNat?_int x.toNat_lt writable
      change ((Scalar.int _).toNat? _).map UInt64.ofNat = some x
      rw [read, Option.map_some, UInt64.ofNat_toNat]

/-- What a text spells is read from it. -/
theorem reader_convert?_text {α : Type} (type : FieldType α) (s : String) (x : α)
    (h : ConfigLibrary.Spells type s x) :
    reader.convert? type (reader.write .text s) = some x := by
  cases h with
  | text => rfl
  | truth known =>
      have words : ∀ w ∈ ConfigLibrary.truthWords, (Scalar.text w.1).toBool? = some w.2 := by
        decide +kernel
      exact words _ known
  | word32 n =>
      change ((Scalar.text _).toNat? _).map UInt32.ofNat = some n
      rw [Scalar.toNat?_text n.toNat_lt, Option.map_some, UInt32.ofNat_toNat]
  | word64 n =>
      change ((Scalar.text _).toNat? _).map UInt64.ofNat = some n
      rw [Scalar.toNat?_text n.toNat_lt, Option.map_some, UInt64.ofNat_toNat]

/-- **The reader does what is documented.** -/
theorem reader_documented : reader.Documented where
  build_eq _ := rfl
  find?_empty _ := rfl
  override _ _ _ _ start each := reader_override start each
  lowerCase_eq _ _ := rfl
  inLowerCase_lowerCase := SettingName.inLowerCase_inLowerCase
  path_eq_heading_iff _ _ word := SettingName.ofKey_eq_heading_iff word
  path_eq_field_iff key heading field word word' lower := by
    constructor
    · intro same
      exact lower.symm.trans (SettingName.inLowerCase_of_ofKey_eq_field same)
    · rintro rfl
      exact SettingName.ofKey_field word word'
  mem_environment_iff lead leadEnd separator environment _ e := by
    change e ∈ environment.filterMap _ ↔ _
    simp only [List.mem_filterMap, Option.map_eq_some_iff]
    constructor
    · rintro ⟨v, m, key, it, rfl⟩
      exact ⟨v, m, key, it, rfl⟩
    · rintro ⟨v, m, key, it, rfl⟩
      exact ⟨v, m, key, it, rfl⟩
  document?_empty := rfl
  shape_null := rfl
  shape_write type _ := by cases type <;> rfl
  shape_table _ := rfl
  convert?_write := reader_convert?_write
  convert?_parts type v parts := by
    cases v with
    | leaf v => cases v <;> cases parts
    | table es => cases type <;> rfl
    | list ts => cases type <;> rfl
  convert?_text := reader_convert?_text

end Settings

end PathAcl
