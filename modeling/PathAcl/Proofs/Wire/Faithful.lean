import PathAcl.Proofs.Time.Rfc3339
import PathAcl.Proofs.Wire.Layout

/-! # Values read back
What is written of a value is read as that value, in every spelling. -/

namespace PathAcl.Wire

/-- What is known of the values of a type on the wire. -/
class Shaped (α : Type) where
  /-- How they are spelled. -/
  layout : Layout
  /-- Which of them are ordinary: those that have only ordinary instants. -/
  Ordinary : α → Prop

/-- A type is **faithful** on the wire if each of its ordinary values is read back in every spelling of
what is written of it. -/
class Faithful (α : Type) [Wire α] [Shaped α] : Prop where
  decode_spells : ∀ x : α, Shaped.Ordinary x → ∀ j,
    Spells (Shaped.layout α) (encode x) j → decode? j = some x

namespace Faithful

variable {α : Type} [Wire α] [Shaped α]

/-- What is written is one of the spellings. -/
theorem decode_encode [Faithful α] {x : α} (ordinary : Shaped.Ordinary x) :
    decode? (encode x) = some x := decode_spells x ordinary _ .refl

/-- A type of one spelling is faithful if it is read back. -/
theorem ofLeaf (leaf : Shaped.layout α = .leaf)
    (back : ∀ x : α, Shaped.Ordinary x → decode? (encode x) = some x) : Faithful α where
  decode_spells x ordinary j h := by
    rw [leaf] at h
    rw [eq_of_spells_leaf h]
    exact back x ordinary

end Faithful

/-! ## Scalars -/

section Scalars

/-- Values of one spelling, all of them ordinary. -/
abbrev Shaped.scalar (α : Type) : Shaped α := ⟨.leaf, fun _ => True⟩

instance : Shaped Bool := .scalar Bool
instance : Shaped String := .scalar String
instance : Shaped UInt32 := .scalar UInt32
instance : Shaped UInt64 := .scalar UInt64
instance : Shaped Int64 := .scalar Int64
instance : Shaped Mask := .scalar Mask
instance : Shaped PathType := .scalar PathType
instance : Shaped SidType := .scalar SidType
instance : Shaped StorageKind := .scalar StorageKind
instance : Shaped (Option String) := .scalar (Option String)
instance : Shaped Instant := ⟨.leaf, Instant.Ordinary⟩

instance : Faithful Bool := .ofLeaf rfl fun _ _ => rfl
instance : Faithful String := .ofLeaf rfl fun _ _ => rfl

/-- A whole number between the bounds is read. -/
theorem intBetween?_int {least most n : Int} (h : least ≤ n ∧ n ≤ most) :
    intBetween? least most (.int n) = some n := if_pos h

instance : Faithful UInt32 := .ofLeaf rfl fun n _ => by
  have bounds : 0 ≤ (n.toNat : Int) ∧ (n.toNat : Int) ≤ UInt32.size - 1 := by
    have := n.toNat_lt_size
    omega
  exact (congrArg (Option.map _) (intBetween?_int bounds)).trans (congrArg some UInt32.ofNat_toNat)

instance : Faithful UInt64 := .ofLeaf rfl fun n _ => by
  have bounds : 0 ≤ (n.toNat : Int) ∧ (n.toNat : Int) ≤ UInt64.size - 1 := by
    have := n.toNat_lt_size
    omega
  exact (congrArg (Option.map _) (intBetween?_int bounds)).trans (congrArg some UInt64.ofNat_toNat)

instance : Faithful Int64 := .ofLeaf rfl fun n _ => by
  have bounds : Int64.minValue.toInt ≤ n.toInt ∧ n.toInt ≤ Int64.maxValue.toInt :=
    ⟨Int64.le_toInt n, Int.lt_add_one_iff.1 n.toInt_lt⟩
  exact (congrArg (Option.map _) (intBetween?_int bounds)).trans (congrArg some (Int64.ofInt_toInt n))

instance : Faithful Mask := .ofLeaf rfl fun _ _ =>
  congrArg (Option.map Mask.mk) (Faithful.decode_encode trivial)

instance : Faithful PathType := .ofLeaf rfl fun t _ => PathType.ofName?_name t
instance : Faithful SidType := .ofLeaf rfl fun t _ => SidType.ofName?_name t
instance : Faithful StorageKind := .ofLeaf rfl fun k _ => StorageKind.ofName?_name k

instance : Faithful Instant := .ofLeaf rfl fun _ => Rfc3339.parse?_render

instance : Faithful (Option String) := .ofLeaf rfl fun s _ => by
  cases s with
  | none => rfl
  | some s => rfl

end Scalars

/-! ## Lists -/

section Lists

variable {α : Type} [Wire α] [Shaped α]

/-- A list is ordinary if its members are. -/
instance : Shaped (List α) := ⟨.list (Shaped.layout α), fun xs => ∀ x ∈ xs, Shaped.Ordinary x⟩

/-- Members that are read back are read back as a list. -/
theorem mapM_decode_spells [Faithful α] {xs : List α} (ordinary : ∀ x ∈ xs, Shaped.Ordinary x)
    {ys : List Json} (members : List.Forall₂ (Spells (Shaped.layout α)) (xs.map encode) ys) :
    ys.mapM (decode? : Json → Option α) = some xs := by
  induction xs generalizing ys with
  | nil =>
      cases members
      rfl
  | cons x xs ih =>
      cases members with
      | cons here there =>
          obtain ⟨first, rest⟩ := List.forall_mem_cons.1 ordinary
          rw [List.mapM_cons, Faithful.decode_spells x first _ here, ih rest there]
          rfl

instance [Faithful α] : Faithful (List α) where
  decode_spells _ ordinary j h := by
    obtain ⟨ys, rfl, members⟩ := exists_of_spells_list h
    exact mapM_decode_spells ordinary members

end Lists

/-! ## Records -/

section Records

/-- Records of some fields, all of them ordinary. -/
abbrev Shaped.record {α : Type} (fields : List (String × Layout)) : Shaped α :=
  ⟨.record fields, fun _ => True⟩

variable {α : Type} [Wire α] [Shaped α]

/-- A record is faithful if it is read from its fields, and back from all that keep the written ones. -/
theorem Faithful.ofRecord {fields : List (String × Layout)} {least : Nat}
    {read : List (Option Json) → Option α} (layout : Shaped.layout α = .record fields)
    (decode : ∀ j, decode? j = (fields? (names fields) least j).bind read)
    (distinct : (names fields).Nodup) (few : least ≤ fields.length)
    (back : ∀ x : α, Shaped.Ordinary x → ∃ written,
      fields? (names fields) least (encode x) = some written ∧ written.length = fields.length ∧
      ∀ found, AllKeep fields written found → read found = some x) : Faithful α where
  decode_spells x ordinary j h := by
    obtain ⟨written, given, length, back⟩ := back x ordinary
    rw [layout] at h
    obtain ⟨found, there, keep⟩ := fields?_of_spells distinct few given length h
    rw [decode, there]
    exact back found keep

/-- Fields that are all given by an object are found in it. -/
theorem map_lookup_zip {names : List String} (distinct : names.Nodup) {vs : List Json}
    (length : vs.length = names.length) :
    names.map (fun name => (names.zip vs).lookup name) = vs.map some := by
  induction names generalizing vs with
  | nil =>
      obtain rfl := List.length_eq_zero_iff.1 length
      rfl
  | cons name names ih =>
      cases vs with
      | nil => cases length
      | cons v vs =>
          obtain ⟨fresh, distinct⟩ := List.nodup_cons.1 distinct
          rw [List.map_cons, List.map_cons, List.zip_cons_cons, List.lookup_cons_self]
          refine congrArg _ (Eq.trans ?_ (ih distinct (Nat.succ.inj length)))
          refine List.map_congr_left fun other here => ?_
          have differs : other ≠ name := by
            rintro rfl
            exact fresh here
          exact lookup_cons_of_ne differs v _

/-- A record that is written with all its fields is faithful if it is read back from what keeps their
values. -/
theorem Faithful.ofFields {fields : List (String × Layout)} {least : Nat}
    {read : List (Option Json) → Option α} (layout : Shaped.layout α = .record fields)
    (decode : ∀ j, decode? j = (fields? (names fields) least j).bind read)
    (distinct : (names fields).Nodup) (few : least ≤ fields.length)
    (back : ∀ x : α, Shaped.Ordinary x → ∃ vs, encode x = .object ((names fields).zip vs) ∧
      vs.length = fields.length ∧
      ∀ found, AllKeep fields (vs.map some) found → read found = some x) : Faithful α := by
  refine .ofRecord layout decode distinct few fun x ordinary => ?_
  obtain ⟨vs, written, length, back⟩ := back x ordinary
  have total : vs.length = (names fields).length := length.trans (List.length_map _).symm
  refine ⟨vs.map some, ?_, (List.length_map _).trans length, back⟩
  rw [written, fields?, map_lookup_zip distinct total]

/-- A field that keeps what is written is read back, and then the rest. -/
theorem required_bind {β : Type} [Faithful α] {x : α} {found : Option Json}
    (h : Keeps (Shaped.layout α) (some (encode x)) found) (ordinary : Shaped.Ordinary x)
    {f : α → Option β} {y : β} (rest : f x = some y) : (required found >>= f) = some y := by
  obtain ⟨v, rfl, spelt⟩ := h.spells
  exact Option.bind_eq_some_iff.2 ⟨x, Faithful.decode_spells x ordinary v spelt, rest⟩

/-- So is one that may be left out. -/
theorem optional_bind {β : Type} [Faithful α] {usual x : α} {found : Option Json}
    (h : Keeps (Shaped.layout α) (some (encode x)) found) (ordinary : Shaped.Ordinary x)
    {f : α → Option β} {y : β} (rest : f x = some y) : (optional usual found >>= f) = some y := by
  obtain ⟨v, rfl, spelt⟩ := h.spells
  exact Option.bind_eq_some_iff.2 ⟨x, Faithful.decode_spells x ordinary v spelt, rest⟩

end Records

end PathAcl.Wire
