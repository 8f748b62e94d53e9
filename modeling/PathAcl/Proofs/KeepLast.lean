import Mathlib.Data.List.Induction
import PathAcl.KeepLast
import PathAcl.Proofs.SortedMap

/-! # What is kept of a batch
Of the elements of a batch that share a key the last is kept, in the place where the key first occurs.
The loop that does so grows a list, with a table beside it that says at which position the element of a
key stands, and overwrites in place. The table is right all along, so no position in it is out of bounds.

Whatever is written by key may be written from what is kept as well as from the whole batch. All that is
needed for this is that a write undoes the earlier ones under its key and does not care about others. -/

namespace PathAcl

variable {α κ : Type} [DecidableEq κ]

/-- Nothing but the new element and the old ones. -/
theorem mem_of_mem_replaceOrAppend {key : α → κ} {x y : α} {xs : List α}
    (h : y ∈ replaceOrAppend key x xs) : y = x ∨ y ∈ xs := by
  induction xs with
  | nil => exact .inl (List.mem_singleton.1 h)
  | cons z zs ih =>
      rw [replaceOrAppend] at h
      by_cases e : key z = key x
      · rw [if_pos e] at h
        exact (List.mem_cons.1 h).imp_right (List.mem_cons_of_mem z)
      · rw [if_neg e] at h
        rcases List.mem_cons.1 h with rfl | h
        · exact .inr List.mem_cons_self
        · exact (ih h).imp_right (List.mem_cons_of_mem z)

/-- A replacement makes no key occur twice. -/
theorem nodup_replaceOrAppend {key : α → κ} {kept : List α} (nodup : (kept.map key).Nodup) (x : α) :
    ((replaceOrAppend key x kept).map key).Nodup := by
  rw [map_key_replaceOrAppend]
  split
  · exact nodup
  next fresh =>
    refine List.nodup_append.2 ⟨nodup, List.pairwise_singleton _ _, fun a ha b hb e => ?_⟩
    exact fresh (List.mem_singleton.1 hb ▸ e ▸ ha)

/-- A fold of replacements has elements of both lists, and no key twice. -/
theorem foldl_replaceOrAppend {key : α → κ} (xs : List α) {kept : List α}
    (hn : (kept.map key).Nodup) :
    ((xs.foldl (fun kept x => replaceOrAppend key x kept) kept).map key).Nodup ∧
      ∀ y ∈ xs.foldl (fun kept x => replaceOrAppend key x kept) kept, y ∈ xs ∨ y ∈ kept := by
  induction xs generalizing kept with
  | nil => exact ⟨hn, fun y hy => .inr hy⟩
  | cons x xs ih =>
      obtain ⟨nodup, mem⟩ := ih (nodup_replaceOrAppend hn x)
      refine ⟨nodup, fun y hy => ?_⟩
      rcases mem y hy with hy | hy
      · exact .inl (List.mem_cons_of_mem x hy)
      · rcases mem_of_mem_replaceOrAppend hy with rfl | hy
        · exact .inl List.mem_cons_self
        · exact .inr hy

/-- What is kept of a batch has no key twice. -/
theorem nodup_keepLast (key : α → κ) (xs : List α) : ((keepLast key xs).map key).Nodup := by
  have none_yet : (([] : List α).map key).Nodup := List.nodup_nil
  exact (foldl_replaceOrAppend xs none_yet).1

/-- What is kept of a batch was in it. -/
theorem mem_of_mem_keepLast {key : α → κ} {x : α} {xs : List α} (h : x ∈ keepLast key xs) :
    x ∈ xs := by
  have none_yet : (([] : List α).map key).Nodup := List.nodup_nil
  exact ((foldl_replaceOrAppend xs none_yet).2 x h).resolve_right List.not_mem_nil

/-- The last element of a batch is put in after all others. -/
theorem keepLast_concat (key : α → κ) (xs : List α) (x : α) :
    keepLast key (xs ++ [x]) = replaceOrAppend key x (keepLast key xs) := by
  rw [keepLast, List.foldl_append]
  rfl

/-- **The keys of what is kept** are those of the batch, each once and in the order in which they first
occur. -/
theorem map_key_keepLast (key : α → κ) (xs : List α) :
    (keepLast key xs).map key = (xs.map key).eraseDups := by
  induction xs using List.reverseRecOn with
  | nil => rfl
  | append_singleton xs x ih =>
      rw [keepLast_concat, map_key_replaceOrAppend, ih, List.map_append, List.map_singleton,
        List.eraseDups_append]
      generalize xs.map key = ks
      by_cases before : key x ∈ ks <;> simp [List.removeAll, List.eraseDups_cons, before]

/-- Of elements that are made of their keys, one is kept for each key. -/
theorem keepLast_map {key : α → κ} {f : κ → α} (own : ∀ k, key (f k) = k) (ks : List κ) :
    keepLast key (ks.map f) = ks.eraseDups.map f := by
  have keys : (ks.map f).map key = ks := by simp [Function.comp_def, own]
  have remade : (keepLast key (ks.map f)).map (fun x => f (key x)) = keepLast key (ks.map f) := by
    refine (List.map_congr_left fun x hx => ?_).trans (List.map_id _)
    obtain ⟨k, -, rfl⟩ := List.mem_map.1 (mem_of_mem_keepLast hx)
    exact congrArg f (own k)
  calc
    keepLast key (ks.map f) = ((keepLast key (ks.map f)).map key).map f := by
      rw [List.map_map]
      exact remade.symm
    _ = ks.eraseDups.map f := by rw [map_key_keepLast, keys]

/-- A replacement is found under its key, all else as before. -/
theorem find?_replaceOrAppend (key : α → κ) (x : α) (xs : List α) (k : κ) :
    (replaceOrAppend key x xs).find? (fun y => key y = k) =
      if key x = k then some x else xs.find? fun y => key y = k := by
  induction xs with
  | nil => by_cases e : key x = k <;> simp [replaceOrAppend, e]
  | cons y ys ih =>
      rw [replaceOrAppend]
      by_cases same : key y = key x
      · rw [if_pos same]
        by_cases e : key x = k
        · simp [e]
        · simp [e, same]
      · rw [if_neg same]
        by_cases e : key y = k
        · have apart : key x ≠ k := fun h => same (e.trans h.symm)
          simp [e, apart]
        · simp only [List.find?_cons, e, decide_false, ih]

/-- **What is kept of a batch under a key** is the last element that has it. -/
theorem find?_keepLast (key : α → κ) (xs : List α) (k : κ) :
    (keepLast key xs).find? (fun y => key y = k) = xs.reverse.find? fun y => key y = k := by
  -- later elements come before what was kept so far
  have fold : ∀ kept : List α,
      (xs.foldl (fun kept x => replaceOrAppend key x kept) kept).find? (fun y => key y = k) =
        (xs.reverse.find? fun y => key y = k).or (kept.find? fun y => key y = k) := by
    induction xs with
    | nil => exact fun kept => rfl
    | cons x xs ih =>
        intro kept
        rw [List.foldl_cons, ih, find?_replaceOrAppend, List.reverse_cons, List.find?_append,
          Option.or_assoc]
        by_cases e : key x = k
        · simp [e]
        · simp [e]
  exact (fold []).trans (Option.or_none ..)

/-- Where no key repeats each element is found under its key. -/
theorem find?_key {key : α → κ} {xs : List α} (nodup : (xs.map key).Nodup) {x : α} (hx : x ∈ xs) :
    xs.find? (fun y => key y = key x) = some x := by
  induction xs with
  | nil => exact absurd hx List.not_mem_nil
  | cons y ys ih =>
      rw [List.map_cons, List.nodup_cons] at nodup
      rw [List.find?_cons]
      rcases List.mem_cons.1 hx with rfl | hx
      · rw [decide_eq_true rfl]
      · have apart : key y ≠ key x := fun e => nodup.1 (List.mem_map.2 ⟨x, hx, e.symm⟩)
        rw [decide_eq_false apart]
        exact ih nodup.2 hx

/-- Nothing is kept only of an empty batch. -/
theorem keepLast_eq_nil_iff {key : α → κ} {xs : List α} : keepLast key xs = [] ↔ xs = [] := by
  constructor
  · intro none
    by_contra some
    obtain ⟨x, hx⟩ := List.exists_mem_of_ne_nil xs some
    have found := find?_keepLast key xs (key x)
    rw [none, List.find?_nil, eq_comm, List.find?_eq_none] at found
    exact found x (List.mem_reverse.2 hx) (decide_eq_true rfl)
  · rintro rfl
    rfl

/-! ## The last of a key -/

/-- An element is the **last of its key** in a batch if no element with the key comes after it. -/
def IsLast (key : α → κ) (batch : List α) (x : α) : Prop :=
  ∃ before later, batch = before ++ x :: later ∧ ∀ y ∈ later, key y ≠ key x

/-- **What is kept** are the last elements of their keys. -/
theorem mem_keepLast_iff_isLast {key : α → κ} {xs : List α} {x : α} :
    x ∈ keepLast key xs ↔ IsLast key xs x := by
  have found : x ∈ keepLast key xs ↔ (keepLast key xs).find? (fun y => key y = key x) = some x :=
    ⟨find?_key (nodup_keepLast key xs), List.mem_of_find?_eq_some⟩
  rw [found, find?_keepLast, List.find?_eq_some_iff_append]
  constructor
  · rintro ⟨-, later, before, split, apart⟩
    refine ⟨before.reverse, later.reverse, ?_, fun y hy => ?_⟩
    · rw [← List.reverse_reverse xs, split]
      simp
    · simpa using apart y (List.mem_reverse.1 hy)
  · rintro ⟨before, later, rfl, apart⟩
    refine ⟨decide_eq_true rfl, later.reverse, before.reverse, by simp, fun y hy => ?_⟩
    simpa using apart y (List.mem_reverse.1 hy)

/-! ## Keeping again -/

/-- An element whose key is there takes the position of the one that has it. -/
theorem replaceOrAppend_eq_set {key : α → κ} {x : α} {xs : List α} {i : Nat}
    (nodup : (xs.map key).Nodup) (h : (xs.map key)[i]? = some (key x)) :
    replaceOrAppend key x xs = xs.set i x := by
  induction xs generalizing i with
  | nil => cases h
  | cons y ys ih =>
      obtain ⟨first, later⟩ := List.nodup_cons.1 nodup
      rw [replaceOrAppend]
      cases i with
      | zero =>
          rw [if_pos (Option.some.inj h)]
          rfl
      | succ i =>
          have apart : key y ≠ key x := by
            intro e
            rw [e] at first
            exact first (List.mem_of_getElem? h)
          rw [if_neg apart, ih later h]
          rfl

/-- An element whose key is new goes to the end. -/
theorem replaceOrAppend_of_notMem {key : α → κ} {x : α} {xs : List α} (h : key x ∉ xs.map key) :
    replaceOrAppend key x xs = xs ++ [x] := by
  induction xs with
  | nil => rfl
  | cons y ys ih =>
      rw [List.map_cons, List.mem_cons, not_or] at h
      rw [replaceOrAppend, if_neg (Ne.symm h.1), ih h.2, List.cons_append]

/-- A batch without repeats is kept as it is. -/
theorem keepLast_of_nodup {key : α → κ} {xs : List α} (nodup : (xs.map key).Nodup) :
    keepLast key xs = xs := by
  induction xs using List.reverseRecOn with
  | nil => rfl
  | append_singleton xs x ih =>
      rw [List.map_append, List.map_singleton] at nodup
      obtain ⟨front, -, apart⟩ := List.nodup_append.1 nodup
      have fresh : key x ∉ xs.map key :=
        fun before => apart _ before _ (List.mem_singleton_self _) rfl
      rw [keepLast_concat, ih front, replaceOrAppend_of_notMem fresh]

/-- **Keeping again** keeps everything. -/
theorem keepLast_keepLast (key : α → κ) (xs : List α) :
    keepLast key (keepLast key xs) = keepLast key xs :=
  keepLast_of_nodup (nodup_keepLast key xs)

/-! ## The loop -/

/-- What stands at a position of a list that has grown by one element. -/
theorem getElem?_concat_eq_some_iff {xs : List α} {x y : α} {i : Nat} :
    (xs ++ [x])[i]? = some y ↔ xs[i]? = some y ∨ (i = xs.length ∧ y = x) := by
  rcases Nat.lt_trichotomy i xs.length with before | rfl | after
  · rw [List.getElem?_append_left before, or_iff_left fun here => Nat.ne_of_lt before here.1]
  · simp [eq_comm]
  · have behind : (xs ++ [x]).length ≤ i := by
      rw [List.length_append, List.length_singleton]
      exact after
    rw [List.getElem?_eq_none behind, List.getElem?_eq_none (Nat.le_of_lt after)]
    exact iff_of_false nofun fun h => h.elim nofun fun here => Nat.ne_of_gt after here.1

section Loop

open Std

variable [Ord κ] [TransOrd κ] [LawfulEqOrd κ]

/-- A list that is **filled by position**: what is kept so far, and the position of each key in it. -/
structure Filling (α κ : Type) [Ord κ] where
  positions : SortedMap κ Nat
  kept : List α

namespace Filling

variable {key : α → κ} {s : Filling α κ}

/-- Puts an element at the position on record for its key, or at the end if there is none. None if the
position is out of bounds. -/
def put? (key : α → κ) (s : Filling α κ) (x : α) : Option (Filling α κ) :=
  match s.positions.find? (key x) with
  | some i => if i < s.kept.length then some { s with kept := s.kept.set i x } else none
  | none => some ⟨s.positions.insert (key x) s.kept.length, s.kept ++ [x]⟩

/-- The positions are **right** if each key that is kept has its own on record, and no other has any. -/
structure Right (key : α → κ) (s : Filling α κ) : Prop where
  once : (s.kept.map key).Nodup
  found : ∀ k i, s.positions.find? k = some i ↔ (s.kept.map key)[i]? = some k

omit [DecidableEq κ] [TransOrd κ] [LawfulEqOrd κ] in
/-- The empty list is filled right. -/
theorem right_empty (key : α → κ) : Right key ⟨∅, []⟩ :=
  ⟨List.nodup_nil, fun k i => by simp⟩

/-- **An element is put in without a failure**: its position is in bounds, it comes to stand where the
loop on lists puts it, and the positions are right again. -/
theorem Right.exists_put? (h : s.Right key) (x : α) : ∃ s', s.put? key x = some s' ∧ s'.Right key ∧
    s'.kept = replaceOrAppend key x s.kept := by
  have keys := map_key_replaceOrAppend key x s.kept
  have once := nodup_replaceOrAppend h.once x
  rw [Filling.put?]
  cases found : s.positions.find? (key x) with
  | some i =>
      -- what is overwritten has the key, so the keys stay as they are
      have there := (h.found (key x) i).1 found
      have bounded : i < s.kept.length := by
        simpa using (List.getElem?_eq_some_iff.1 there).1
      have same := replaceOrAppend_eq_set h.once there
      rw [if_pos (List.mem_of_getElem? there), same] at keys
      rw [same] at once
      refine ⟨_, if_pos bounded, ⟨once, fun k j => ?_⟩, same.symm⟩
      rw [keys]
      exact h.found k j
  | none =>
      -- a key that is kept would have its position on record
      have fresh : key x ∉ s.kept.map key := by
        intro before
        obtain ⟨i, there⟩ := List.getElem?_of_mem before
        rw [(h.found (key x) i).2 there] at found
        cases found
      have same := replaceOrAppend_of_notMem fresh
      rw [if_neg fresh, same] at keys
      rw [same] at once
      refine ⟨_, rfl, ⟨once, fun k j => ?_⟩, same.symm⟩
      rw [keys, SortedMap.find?_insert, getElem?_concat_eq_some_iff, List.length_map]
      by_cases e : k = key x
      · rw [if_pos e, Option.some.injEq, e, or_iff_right fun there => fresh (List.mem_of_getElem? there),
          and_iff_left rfl, eq_comm]
      · rw [if_neg e, h.found, or_iff_left fun here => e here.2]

/-- **A batch is put in without a failure**, and fills the list as the loop on lists does. -/
theorem Right.exists_foldlM (h : s.Right key) (xs : List α) : ∃ s', xs.foldlM (put? key) s = some s' ∧
    s'.Right key ∧ s'.kept = xs.foldl (fun kept x => replaceOrAppend key x kept) s.kept := by
  induction xs generalizing s with
  | nil => exact ⟨s, rfl, h, rfl⟩
  | cons x xs ih =>
      obtain ⟨next, put, right, kept⟩ := h.exists_put? x
      obtain ⟨last, run, rightLast, keptLast⟩ := ih right
      refine ⟨last, ?_, rightLast, ?_⟩
      · rw [List.foldlM_cons, put]
        exact run
      · rw [keptLast, kept, List.foldl_cons]

end Filling

/-- What is kept of a batch, by way of the positions. None if one is out of bounds. -/
def keepLastByPosition? (key : α → κ) (batch : List α) : Option (List α) :=
  (batch.foldlM (Filling.put? key) ⟨∅, []⟩).map Filling.kept

/-- **No position is out of bounds**, and the loop by position keeps what the loop on lists keeps. -/
theorem keepLastByPosition?_eq (key : α → κ) (batch : List α) :
    keepLastByPosition? key batch = some (keepLast key batch) := by
  obtain ⟨last, run, -, kept⟩ := (Filling.right_empty key).exists_foldlM batch
  rw [keepLastByPosition?, run, Option.map_some, kept]
  rfl

end Loop

/-! ## Writing -/

/-- Writes **overwrite by key** if a write undoes an earlier one under the same key, and writes under
different keys may be made in either order. -/
structure Overwrites {τ : Type} (key : α → κ) (write : τ → α → τ) : Prop where
  again : ∀ t x y, key x = key y → write (write t x) y = write t y
  apart : ∀ t x y, key x ≠ key y → write (write t x) y = write (write t y) x

namespace Overwrites

variable {τ : Type} {key : α → κ} {write : τ → α → τ}

omit [DecidableEq κ] in
/-- A write may be made before others that have different keys. -/
theorem foldl_comm (laws : Overwrites key write) {x : α} {xs : List α} (h : ∀ y ∈ xs, key y ≠ key x)
    (t : τ) : xs.foldl write (write t x) = write (xs.foldl write t) x := by
  induction xs generalizing t with
  | nil => rfl
  | cons y ys ih =>
      obtain ⟨first, later⟩ := List.forall_mem_cons.1 h
      rw [List.foldl_cons, List.foldl_cons, laws.apart t x y first.symm, ih later]

/-- An element may be written in the place of the one that it replaces. -/
theorem foldl_replaceOrAppend (laws : Overwrites key write) {kept : List α}
    (nodup : (kept.map key).Nodup) (x : α) (t : τ) :
    (replaceOrAppend key x kept).foldl write t = write (kept.foldl write t) x := by
  induction kept generalizing t with
  | nil => rfl
  | cons y ys ih =>
      obtain ⟨first, later⟩ := List.nodup_cons.1 nodup
      rw [replaceOrAppend]
      by_cases same : key y = key x
      · -- nothing that is written in between has the key, so the two writes meet
        have apart : ∀ z ∈ ys, key z ≠ key x := by
          intro z hz e
          rw [same, ← e] at first
          exact first (List.mem_map_of_mem hz)
        rw [if_pos same, List.foldl_cons, List.foldl_cons, ← laws.foldl_comm apart,
          laws.again t y x same]
      · rw [if_neg same, List.foldl_cons, List.foldl_cons, ih later]

/-- **Writing what is kept** of a batch is writing the batch. -/
theorem foldl_keepLast (laws : Overwrites key write) (batch : List α) (t : τ) :
    (keepLast key batch).foldl write t = batch.foldl write t := by
  induction batch using List.reverseRecOn with
  | nil => rfl
  | append_singleton xs x ih =>
      rw [keepLast_concat, laws.foldl_replaceOrAppend (nodup_keepLast key xs), ih, List.foldl_append]
      rfl

/-- Binding elements by their keys overwrites by key. -/
theorem insert [Ord κ] [Std.TransOrd κ] [Std.LawfulEqOrd κ] (key : α → κ) :
    Overwrites key fun (table : SortedMap κ α) x => table.insert (key x) x where
  again t x y same := by rw [same, SortedMap.insert_insert]
  apart t x y apart := SortedMap.insert_comm t apart x y

end Overwrites

/-! ## The rule -/

/-- A function on batches **keeps the last of each key**: one element for each key of the batch, in the
order in which the keys first occur, and each the last of its key. It keeps all of what it kept before, it
is the loop by position, and whatever overwrites by key may write what it keeps instead of the batch. -/
structure KeepsLast [Ord κ] [Std.TransOrd κ] [Std.LawfulEqOrd κ] (key : α → κ)
    (keep : List α → List α) : Prop where
  keys : ∀ batch, (keep batch).map key = (batch.map key).eraseDups
  once : ∀ batch, ((keep batch).map key).Nodup
  last : ∀ batch x, x ∈ keep batch ↔ IsLast key batch x
  again : ∀ batch, keep (keep batch) = keep batch
  loop : ∀ batch, keepLastByPosition? key batch = some (keep batch)
  writes : ∀ {τ : Type} {write : τ → α → τ}, Overwrites key write →
    ∀ batch t, (keep batch).foldl write t = batch.foldl write t

/-- **The last of each key is kept.** -/
theorem keepLast_keepsLast [Ord κ] [Std.TransOrd κ] [Std.LawfulEqOrd κ] (key : α → κ) :
    KeepsLast key (keepLast key) where
  keys := map_key_keepLast key
  once := nodup_keepLast key
  last _ _ := mem_keepLast_iff_isLast
  again := keepLast_keepLast key
  loop := keepLastByPosition?_eq key
  writes laws := laws.foldl_keepLast

/-- Repeats of two keys that alternate, and a key in between. -/
example : keepLast Prod.fst [("a", 1), ("b", 2), ("a", 3), ("c", 4), ("b", 5)] =
    [("a", 3), ("b", 5), ("c", 4)] := by decide

end PathAcl
